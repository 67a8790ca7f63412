import RestDemo.CommandLine.Replies
import RestDemo.CommandLine.Session
import RestDemo.Yaml.Document

/-!
# The program

Runs a demo file. The replies of the service are read from the standard input, one JSON object a
line, as the run needs them to be known beforehand; an empty input stands for a service that knows
nothing.
-/

namespace RestDemo.CommandLine

def programName : String := "restdemo"

def entryAt (path : String) : IO Demo.Entry := do
  try
    let bytes ← IO.FS.readBinFile path
    return .file bytes.toList
  catch
    | .inappropriateType .. => return .directory
    | _ => return .missing

def repliesOf (text : String) : List Reply :=
  ((text.splitOn "\n").filter (· != "")).map fun line => Reply.ofValue (Json.bodyValue line)

/-- What stands at the path of the file, and the replies, if there is something to run. -/
def readInputs (arguments : List String) : IO (Demo.Entry × List Reply) := do
  match Intent.ofArguments arguments with
  | .run arguments =>
    let text ← (← IO.getStdin).readToEnd
    return (← entryAt arguments.file, repliesOf text)
  | _ => return (.missing, [])

end RestDemo.CommandLine

/-- Runs the program; a fault that it does not report ends it with status 1. -/
def main (arguments : List String) : IO UInt32 := do
  let environment := ⟨← IO.getEnv "DEMO_BASE_URL", ← IO.getEnv "LOG_LEVEL", fun _ => none⟩
  let (entry, replies) ← RestDemo.CommandLine.readInputs arguments
  let load := RestDemo.CommandLine.Script.load RestDemo.Yaml.read fun _ => entry
  let outcome := RestDemo.CommandLine.run RestDemo.CommandLine.programName environment load
    (RestDemo.Service.ofList replies) arguments
  IO.print outcome.printed
  match outcome.ending with
  | .ok status => return status.toUInt32
  | .error _ => return 1

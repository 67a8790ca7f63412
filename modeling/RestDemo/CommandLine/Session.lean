import RestDemo.CommandLine.Arguments
import RestDemo.CommandLine.Report
import RestDemo.Demo.File
import RestDemo.Json.Reader
import RestDemo.Log.Console

/-!
# Running a demo from the command line

The script of a file is run with the given variables, and the console shows the events. Nothing is
said here of how a file is read and what its steps do (`Script.load` is how demos are). A fault that
lies in a value is reported in words and ends the program with status 1, as a failed step does; any
other fault ends it as it is. So does a text that cannot be printed, but for an event, which then is
not shown.
-/

namespace RestDemo.CommandLine

/-- What is set around the program. -/
structure Environment where
  baseUrl : Option String
  logLevel : Option String
  /-- What keeps a text from being printed: standard output may not take it, and there may be no room
  to make it. -/
  refuses : String → Option Fault

/-- What is done with the client of a run. -/
inductive ClientAct where
  | send (request : RestDemo.Request)
  | close
  deriving DecidableEq, Repr

/-- How the program ended: its status or a fault, what it printed, and what it did with a client. A
program that runs nothing has no client. -/
structure Outcome where
  ending : Except Fault Nat
  printed : String
  client : List ClientAct

/-! ## Printing -/

namespace Environment

variable (environment : Environment)

/-- Prints texts one after another, up to the first that is not there or cannot be printed. -/
def print : List (Except Fault String) → Console → Except Fault Unit × Console
  | [], console => (.ok (), console)
  | .error f :: _, console => (.error f, console)
  | .ok text :: texts, console =>
    match environment.refuses text with
    | some f => (.error f, console)
    | none => print texts (console.print text)

/-- Shows an event, unless its line cannot be printed. -/
def showEvent (console : Console) (e : Event) : Console :=
  match e.line.toOption.bind environment.refuses with
  | some _ => console
  | none => ((console.tell e).toOption).getD console

def showAll (events : List Event) (console : Console) : Console :=
  events.foldl environment.showEvent console

/-- The outcome of a refusal in words. If these cannot be printed it ends as it is. -/
def refusal (message : String) (console : Console) (client : List ClientAct) : Outcome :=
  match environment.print [.ok (errorText message)] console with
  | (.ok _, console) => ⟨.ok 1, console.printed, client⟩
  | (.error f, console) => ⟨.error f, console.printed, client⟩

/-- The outcome of a fault after what was printed: reported if it lies in a value. -/
def faulty (f : Fault) (console : Console) (client : List ClientAct) : Outcome :=
  match f.message? with
  | some message => environment.refusal message console client
  | none => ⟨.error f, console.printed, client⟩

end Environment

/-! ## What is run -/

inductive Obstacle where
  | notLoaded (e : LoadError)
  | noJson (message : String)
  | noMapping
  | fault (f : Fault)

def Obstacle.outcome (environment : Environment) (console : Console) : Obstacle → Outcome
  | notLoaded e => environment.refusal ("Failed to load demo: " ++ e.message) console []
  | noJson message => environment.refusal ("Invalid JSON for vars: " ++ message) console []
  | noMapping => environment.refusal "vars must be a JSON object" console []
  | fault f => environment.faulty f console []

def Obstacle.ofLoadFailure : LoadFailure → Obstacle
  | .error e => notLoaded e
  | .fault f => fault f

/-- The demo with another address in its settings, if there is one. -/
def withBaseUrl (baseUrl : String) (demo : Demo) : Demo :=
  if baseUrl = "" then demo
  else { demo with settings := { demo.settings with baseUrl := .text baseUrl } }

/-- The script of the file at a path, run under another address if there is one. `entryAt` says what
stands at a path, and `read` reads a document. -/
def Script.load (read : List UInt8 → Except DocumentError Value) (entryAt : String → Demo.Entry)
    (path baseUrl : String) : Demo.Loading Script := do
  let demo ← Demo.loadFile read path (entryAt path)
  return .ofDemo path (withBaseUrl baseUrl demo)

/-- The address that is given instead of the demo's: the argument, or else what is set around. -/
def givenBaseUrl (arguments : Arguments) (environment : Environment) : String :=
  match arguments.baseUrl with
  | none | some "" => environment.baseUrl.getD ""
  | some url => url

def variablesOf (raw : String) : Except Obstacle Store :=
  match Json.read raw.toList with
  | .error (.malformed complaint left) => .error (.noJson (complaint.message raw.toList left))
  | .error (.beyond f) => .error (.fault f)
  | .ok (.object members) => .ok members
  | .ok _ => .error .noMapping

def givenVariables (arguments : Arguments) : Except Obstacle Store :=
  match arguments.assignments with
  | none | some "" => .ok []
  | some raw => variablesOf raw

/-- The script and the variables at the start. -/
def prepare (load : String → String → Demo.Loading Script) (arguments : Arguments)
    (environment : Environment) : Except Obstacle (Script × Store) := do
  let script ← (load arguments.file (givenBaseUrl arguments environment)).mapError .ofLoadFailure
  let store ← givenVariables arguments
  return (script, store)

/-! ## The run -/

/-- What a run does with its client: it is closed after the last request. -/
def clientOf (w : World) : List ClientAct :=
  w.sent.map .send ++ [.close]

/-- The outcome of a run that came to a result in a world. -/
def finish (environment : Environment) (script : Script) (w : World) (console : Console) :
    Except Failure RunOutcome → Outcome
  | .error (.fault f) => environment.faulty f console (clientOf w)
  | .error (.step e) => environment.faulty (.crash e.message) console (clientOf w)
  | .ok outcome =>
    match environment.print (report script w.context outcome) console with
    | (.error f, console) => environment.faulty f console (clientOf w)
    | (.ok _, console) => ⟨.ok (if outcome.isOk then 0 else 1), console.printed, clientOf w⟩

def execute (environment : Environment) (script : Script) (store : Store) (service : Service)
    (console : Console) : Outcome :=
  match environment.print (announcement script) console with
  | (.error f, console) => environment.faulty f console []
  | (.ok _, console) =>
    let start := World.start none ⟨"", store, []⟩ 0
    match Run.runAll script.tasks [] (.plain service) start with
    | (r, w) => finish environment script w (environment.showAll w.events console) r

/-- Runs the program under a name; `load` gives the script of the file at a path, run under another
address. -/
def run (program : String) (environment : Environment) (load : String → String → Demo.Loading Script)
    (service : Service) (arguments : List String) : Outcome :=
  match Console.blank.setUp (environment.logLevel.getD Console.defaultThreshold) with
  | (.error f, console) => ⟨.error f, console.printed, []⟩
  | (.ok _, console) =>
    match Intent.ofArguments arguments with
    | .refused => ⟨.ok 2, console.printed, []⟩
    | .help =>
      match environment.print [.ok (helpText program)] console with
      | (.error f, console) => ⟨.error f, console.printed, []⟩
      | (.ok _, console) => ⟨.ok 0, console.printed, []⟩
    | .run arguments =>
      match prepare load arguments environment with
      | .error obstacle => obstacle.outcome environment console
      | .ok (script, store) => execute environment script store service console

end RestDemo.CommandLine

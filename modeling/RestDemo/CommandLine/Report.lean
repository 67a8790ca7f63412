import RestDemo.Engine.Run
import RestDemo.Json.Writer

/-!
# What is printed

A run is announced, the events are shown in between, and then it is summed up: a line for each step
that has a result, how it ended, and the variables at the end as JSON over several lines. Each text
here ends its last line, and some of the texts may not be there.
-/

namespace RestDemo.CommandLine

def helpText (program : String) : String :=
  "usage: " ++ program ++ " [-h] [--vars VARS] [--base-url BASE_URL] demo_file\n" ++
  "\n" ++
  "Run the REST steps of a demo file\n" ++
  "\n" ++
  "positional arguments:\n" ++
  "  demo_file\n" ++
  "\n" ++
  "options:\n" ++
  "  -h, --help           show this help message and exit\n" ++
  "  --vars VARS          Initial variables as a JSON object\n" ++
  "  --base-url BASE_URL  Override settings.base_url\n"

/-- What is printed instead of a run that is not possible. -/
def errorText (message : String) : String :=
  "ERROR: " ++ message ++ "\n"

/-- What the program runs: a title, if it has a text, and the tasks of the steps. -/
structure Script where
  title : Except Fault String
  tasks : List Task

/-- The script of the demo in the file at a path, which stands for the title where there is none. -/
def Script.ofDemo (path : String) (demo : Demo) : Script where
  title := (demo.title.orElse (.text path)).shown
  tasks := demo.steps.map (Step.task RestLine.bodyMethods demo.settings)

def announcement (script : Script) : List (Except Fault String) :=
  [script.title.map fun title => "Demo: " ++ title ++ "\n",
    .ok ("Steps: " ++ Nat.repr script.tasks.length ++ "\n"),
    .ok "\n=== Executing ===\n\n"]

def pollNote : Option PollResult → String
  | none => ""
  | some p => " (polled " ++ Nat.repr p.attempts ++ "x)"

def resultLine (task : Task) (r : StepResult) : String :=
  "  " ++ task.id ++ ": " ++ r.request.method ++ " " ++ r.request.url ++ " -> " ++
    Int.repr r.status ++ pollNote r.polling ++ "\n"

/-- Whether the run succeeded, and if not where and why. -/
def endTexts (outcome : RunOutcome) : List String :=
  match outcome.failed with
  | none => ["Success: True\n"]
  | some (step, e) =>
    ["Success: False\n", "Failed Step: " ++ step ++ "\n", "Error: " ++ e.message ++ "\n"]

/-- What is printed after the run, up to the variables. -/
def summary (script : Script) (runId : String) (outcome : RunOutcome) : List String :=
  ["\n=== Result ===\n", "Run ID: " ++ runId ++ "\n"] ++
    List.zipWith resultLine script.tasks outcome.results ++ endTexts outcome

def variablesText (store : Store) : Except Fault String := do
  let text ← Json.indentedText (.object store)
  return "Variables: " ++ text ++ "\n"

/-- What is printed after the run. -/
def report (script : Script) (context : RunContext) (outcome : RunOutcome) :
    List (Except Fault String) :=
  (summary script context.runId outcome).map .ok ++ [variablesText context.store]

end RestDemo.CommandLine

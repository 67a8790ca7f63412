import RestDemo.Engine.Run
import RestDemo.Server.Basic
import RestDemo.Server.Call

/-!
# Running steps and demos on the server

A step is run by itself, with its variables given and returned, and leaves no log but on the
console. A demo is run as a whole under a new name, and its events are kept in the log of that name,
from `run.start` to `run.end`.
-/

namespace RestDemo.Server

/-- What came of a step: its result or how it failed, and the variables after it. -/
structure StepAnswer where
  outcome : Except ErrorDetail StepResult
  store : Store

/-- What came of a demo: the results until a step failed, and which one did and how. -/
structure DemoAnswer where
  runId : String
  results : List StepResult
  store : Store
  failed : Option (String × ErrorDetail)

def StepCall.load (call : StepCall) : Demo.Loading (Step × Settings) := do
  let step ← Demo.loadStep call.step "step"
  let settings ← Demo.loadSettings call.settings
  return (step, settings)

def runStep (call : StepCall) (service : Service) (s : State) : Handled StepAnswer :=
  match call.load with
  | .error e => .unchanged (.error (.ofLoadFailure e)) s
  | .ok (step, settings) =>
    match s.freshId with
    | (id, s) =>
      let logger := Logger.single .console [("request_id", .text id)]
      let context : RunContext := ⟨"", call.store, []⟩
      match s.run (Engine.attempt (step.execute RestLine.bodyMethods settings [])) logger service
          context with
      | (.error e, w, s) => ⟨.error (.ofFailure e), s, w.sent⟩
      | (.ok outcome, w, s) =>
        let outcome := outcome.mapError fun e => ErrorDetail.ofStepError e (some step.id)
        ⟨.ok ⟨outcome, w.context.store⟩, s, w.sent⟩

/-- The logger of a run: the console, and the log of the run. -/
def runLogger (id : String) : Logger :=
  .several [.single .console [], .single (.run State.ownLogs id) []]

def startEvent (id : String) (demo : Demo) : Event :=
  ⟨.info, "run.start",
    [("run_id", .text id), ("title", demo.title), ("steps", .int demo.steps.length)]⟩

def endEvent (id : String) (ok : Bool) : Event :=
  ⟨.info, "run.end", [("run_id", .text id), ("ok", .bool ok)]⟩

def DemoAnswer.ofOutcome (id : String) (outcome : RunOutcome) (store : Store) : DemoAnswer :=
  { runId := id
    results := outcome.results
    store := store
    failed := outcome.failed.map fun (step, e) => (step, ErrorDetail.ofStepError e (some step)) }

/-- Runs a demo under a name that was given out for it. -/
def runUnder (id : String) (demo : Demo) (store : Store) (service : Service) (s : State) :
    Handled DemoAnswer :=
  let logger := runLogger id
  match s.emit logger (startEvent id demo) with
  | (.error f, s) => .unchanged (.error (.fault f)) s
  | (.ok _, s) =>
    match s.run (Run.run RestLine.bodyMethods demo []) logger service ⟨id, store, []⟩ with
    | (.error e, w, s) => ⟨.error (.ofFailure e), s, w.sent⟩
    | (.ok outcome, w, s) =>
      match s.emit logger (endEvent id outcome.isOk) with
      | (r, s) =>
        ⟨(r.map fun _ => .ofOutcome id outcome w.context.store).mapError Problem.fault, s, w.sent⟩

def runDemo (call : DemoCall) (service : Service) (s : State) : Handled DemoAnswer :=
  match Demo.load call.demo with
  | .error e => .unchanged (.error (.ofLoadFailure e)) s
  | .ok demo =>
    match s.freshId with
    | (id, s) => runUnder id demo call.store service s

end RestDemo.Server

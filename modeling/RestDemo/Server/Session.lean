import RestDemo.Server.Execution
import RestDemo.Server.Proxy

/-!
# A session

Calls come one after another; each sees the state that the ones before it left. `handle` says what
becomes of a call, and `Answer.toValue` how its answer is written. The logs and the names of the
runs are read without a change of the state.
-/

namespace RestDemo.Server

inductive Answer where
  | health
  | proxied (answer : ProxyAnswer)
  | step (answer : StepAnswer)
  | demo (answer : DemoAnswer)
  | runs (ids : List String)
  | logs (events : List Event)

def health : Value :=
  .object [("status", .text "ok"), ("service", .text "demo-runner")]

/-- The events of a run that belong to a step, or all of them. -/
def logsOf (run : String) (step : Option String) (s : State) : Except Problem (List Event) :=
  if s.logs.has run then .ok ((s.logs.events run).filter (Event.belongsTo step))
  else .error (.status 404 ("Run not found: " ++ run))

/-- The same call with its answer put in another form. -/
def Handled.map {α β : Type} (f : α → β) (h : Handled α) : Handled β :=
  { h with answer := Except.map f h.answer }

def handle (call : Call) (service : Service) (s : State) : Handled Answer :=
  match call with
  | .health => .unchanged (.ok .health) s
  | .proxy origin call => (proxy origin call service s).map .proxied
  | .step call => (runStep call service s).map .step
  | .demo call => (runDemo call service s).map .demo
  | .runs => .unchanged (.ok (.runs s.logs.ids)) s
  | .logs run step => .unchanged ((logsOf run step s).map .logs) s

/-! ## Answers as values -/

/-- The report of a failure, if there is one, as a value. -/
def detailValue : Option ErrorDetail → Value
  | some d => d.toValue
  | none => .null

def messageValue : Option ErrorDetail → Value
  | some d => .text d.message
  | none => .null

def StepAnswer.toValue (a : StepAnswer) : Value :=
  let (result, failure) := match a.outcome with
    | .ok result => (result.toValue, none)
    | .error d => (.null, some d)
  .object [
    ("success", .bool failure.isNone),
    ("result", result),
    ("variables", .object a.store),
    ("error", messageValue failure),
    ("error_detail", detailValue failure)]

def DemoAnswer.toValue (a : DemoAnswer) : Value :=
  .object [
    ("success", .bool a.failed.isNone),
    ("run_id", .text a.runId),
    ("results", .list (a.results.map StepResult.toValue)),
    ("variables", .object a.store),
    ("failed_step_id", Value.ofOption (a.failed.map fun (step, _) => .text step)),
    ("error", messageValue (a.failed.map Prod.snd)),
    ("error_detail", detailValue (a.failed.map Prod.snd))]

/-- An answer that was passed on, or a status with what is wrong, as a value. -/
def ProxyAnswer.toValue : ProxyAnswer → Value
  | refused status error =>
    .object [("http_status", .int status), ("content", .object [("error", .text error)])]
  | answered status document => .object [("status", .int status), ("data", document)]

def eventValue (e : Event) : Value :=
  .object [("level", .text e.level.word), ("event", .text e.name), ("step_id", e.stepId),
    ("fields", .object e.fields)]

def Answer.toValue : Answer → Value
  | health => Server.health
  | proxied a => a.toValue
  | step a => a.toValue
  | demo a => a.toValue
  | runs ids => Value.texts ids
  | logs events => .list (events.map eventValue)

end RestDemo.Server

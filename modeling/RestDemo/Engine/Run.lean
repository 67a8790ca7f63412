import RestDemo.Engine.Step

/-!
# Running a demo

The steps run one after another; the first that fails ends the run. All events of a run carry its
name, which is given out when the context has none yet.
-/

namespace RestDemo

/-- What came of a run: the results before a step failed, and which step that was, if one did. -/
structure RunOutcome where
  failed : Option (String × StepError)
  results : List StepResult

def RunOutcome.isOk (o : RunOutcome) : Bool := o.failed.isNone

/-- A step as a run sees it: its name, what it says of its request, and what it does when these fields
are bound to its log. -/
structure Task where
  id : String
  rest : String
  execute : Table Value → Engine StepResult

/-- The task of a step; `bodyMethods` are the methods whose requests have a body. -/
def Step.task (bodyMethods : List String) (settings : Settings) (step : Step) : Task :=
  ⟨step.id, step.rest, step.execute bodyMethods settings⟩

namespace Run

/-- The name at a place: a step's own, or one made of the place. -/
def nameAt (id : String) (place : Nat) : String :=
  if id = "" then Step.defaultId place else id

def stepName (step : Step) (place : Nat) : String :=
  nameAt step.id place

/-- Runs the task at a place, and tells its start and its end. -/
def runTask (bound : Table Value) (place : Nat) (task : Task) :
    Engine (Except StepError StepResult) := do
  let name := Value.text (nameAt task.id place)
  Engine.log bound .info "step.start" [("step_id", name), ("rest", .text task.rest)]
  match ← Engine.attempt (task.execute bound) with
  | .error e => do
    let took ← Engine.stepTime false
    Engine.log bound .error "step.failed"
      [("step_id", name), ("error", .text e.message), ("elapsed_ms", .int took.toNat)]
    return .error e
  | .ok result => do
    Engine.changeContext fun c => { c with results := c.results ++ [result] }
    let took ← Engine.stepTime true
    Engine.log bound .info "step.end"
      [("step_id", name), ("status", .int result.status), ("elapsed_ms", .int took.toNat)]
    return .ok result

/-- Runs tasks of which the first has the given place. -/
def runTasks (bound : Table Value) : Nat → List Task → Engine RunOutcome
  | _, [] => return ⟨none, []⟩
  | place, task :: tasks => do
    match ← runTask bound place task with
    | .error e => return ⟨some (nameAt task.id place, e), []⟩
    | .ok result => do
      let outcome ← runTasks bound (place + 1) tasks
      return { outcome with results := result :: outcome.results }

def runStep (bodyMethods : List String) (settings : Settings) (bound : Table Value) (place : Nat)
    (step : Step) : Engine (Except StepError StepResult) :=
  runTask bound place (step.task bodyMethods settings)

def runSteps (bodyMethods : List String) (settings : Settings) (bound : Table Value) (place : Nat)
    (steps : List Step) : Engine RunOutcome :=
  runTasks bound place (steps.map (Step.task bodyMethods settings))

/-- The name of the run, given out now if the context has none. -/
def ensureId : Engine String := do
  let id := (← Engine.world).context.runId
  if id = "" then
    let fresh ← Engine.freshId
    Engine.changeContext fun c => { c with runId := fresh }
    return fresh
  else return id

/-- Runs tasks under the name of the run. -/
def runAll (tasks : List Task) (bound : Table Value) : Engine RunOutcome := do
  let id ← ensureId
  runTasks (bound.set "run_id" (.text id)) 1 tasks

def run (bodyMethods : List String) (demo : Demo) (bound : Table Value) : Engine RunOutcome :=
  runAll (demo.steps.map (Step.task bodyMethods demo.settings)) bound

/-! ## The run of a demo in terms of its steps -/

section

variable (bodyMethods : List String) (settings : Settings) (bound : Table Value)

theorem runSteps_cons_eq (place : Nat) (step : Step) (steps : List Step) :
    runSteps bodyMethods settings bound place (step :: steps) = (do
      match ← runStep bodyMethods settings bound place step with
      | .error e => return ⟨some (stepName step place, e), []⟩
      | .ok result => do
        let outcome ← runSteps bodyMethods settings bound (place + 1) steps
        return { outcome with results := result :: outcome.results }) :=
  rfl

theorem run_eq (demo : Demo) :
    run bodyMethods demo bound = (do
      let id ← ensureId
      runSteps bodyMethods demo.settings (bound.set "run_id" (.text id)) 1 demo.steps) :=
  rfl

end

/-! ## The context between runs -/

/-- Empties the context: no variables, no results, no name. -/
def reset : Engine Unit :=
  Engine.changeContext fun _ => RunContext.empty

/-- Changes the variables, and nothing else of the context. -/
def update (change : Store → Store) : Engine Unit :=
  Engine.changeContext fun c => { c with store := change c.store }

end Run

namespace StepResult

def requestValue (r : ResolvedRequest) : Value :=
  .object [("method", .text r.method), ("url", .text r.url), ("headers", Value.textTable r.headers),
    ("body", r.body)]

/-- A result as a value; how polling ended is there if there was any. -/
def toValue (r : StepResult) : Value :=
  .object ([("request", requestValue r.request), ("status", .int r.status), ("body", r.body)] ++
    match r.polling with
    | none => []
    | some p => [("polling_result",
        .object [("attempts", .int p.attempts), ("final_response", p.document)])])

end StepResult

end RestDemo

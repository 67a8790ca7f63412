import RestDemo.Proofs.Run.Trace
import RestDemo.Proofs.Step.Stored

/-!
# Runs in which every task succeeds

A row of tasks is gone through without a failure exactly if each of them comes to a result in the
world that the one before it leaves (`succeed_iff`). Nothing is said of what the tasks do; if they are
those of steps, they leave variables that can be written, if they could be at the start
(`Succeed.stored`).
-/

namespace RestDemo.Run

open Engine

variable {bound : Table Value} {s : Surroundings} {place : Nat} {task : Task} {tasks : List Task}
  {result : StepResult} {results : List StepResult} {w v u : World}

/-- Every task of a row, of which the first has the given place, comes to a result in the world that
the one before it leaves. -/
inductive Succeed (bound : Table Value) (s : Surroundings) :
    Nat → List Task → World → List StepResult → World → Prop
  | done {place : Nat} {w : World} : Succeed bound s place [] w [] w
  | task {place : Nat} {task : Task} {tasks : List Task} {w v u : World} {result : StepResult}
      {results : List StepResult}
      (first : runTask bound place task s w = (.ok (.ok result), v))
      (rest : Succeed bound s (place + 1) tasks v results u) :
    Succeed bound s place (task :: tasks) w (result :: results) u

/-- After a task that succeeds, a row comes to what the rest of it comes to. -/
theorem runTasks_cons_of_ok (tasks : List Task)
    (h : runTask bound place task s w = (.ok (.ok result), v)) :
    runTasks bound place (task :: tasks) s w =
      match runTasks bound (place + 1) tasks s v with
      | (r, u) => (r.map fun o => { o with results := result :: o.results }, u) := by
  rw [runTasks, bind_run_of_ok h]
  exact bind_pure_run s v (runTasks bound (place + 1) tasks) _

theorem Succeed.run (h : Succeed bound s place tasks w results u) :
    runTasks bound place tasks s w = (.ok ⟨none, results⟩, u) := by
  induction h with
  | done => rfl
  | task first _ ih =>
    rw [runTasks_cons_of_ok _ first, ih]
    rfl

theorem succeed_of_run (h : runTasks bound place tasks s w = (.ok ⟨none, results⟩, u)) :
    Succeed bound s place tasks w results u := by
  induction tasks generalizing place w results with
  | nil =>
    cases h
    exact .done
  | cons task tasks ih =>
    rcases htask : runTask bound place task s w with ⟨e | e | result, v⟩
    · rw [runTasks, bind_run, htask] at h
      cases h
    · rw [runTasks, bind_run, htask] at h
      cases h
    · rw [runTasks_cons_of_ok tasks htask] at h
      rcases hrest : runTasks bound (place + 1) tasks s v with ⟨e | ⟨failed, others⟩, t⟩
      · rw [hrest] at h
        cases h
      · rw [hrest] at h
        cases h
        exact .task htask (ih hrest)

/-- A row that ends without a failure is one in which every task succeeds. -/
theorem succeed_iff : Succeed bound s place tasks w results u ↔
    runTasks bound place tasks s w = (.ok ⟨none, results⟩, u) :=
  ⟨Succeed.run, succeed_of_run⟩

variable {bodyMethods : List String} {settings : Settings}

theorem stored_of_runStep {step : Step} (hs : s.refuses = Event.unwritable)
    (hnone : s.cancellation = none)
    (h : runStep bodyMethods settings bound place step s w = (.ok (.ok result), u))
    (hstore : w.context.store.Writable) : u.context.store.Writable := by
  obtain ⟨v, hx, rfl⟩ := exists_execute_of_runStep h
  have hstored : v.context.store.Writable := Step.stored_of_execute hs hnone hx hstore
  exact hstored

/-- Variables that can be written are left by a row of steps that succeeds. -/
theorem Succeed.stored (hs : s.refuses = Event.unwritable) (hnone : s.cancellation = none)
    {steps : List Step}
    (h : Succeed bound s place (steps.map (Step.task bodyMethods settings)) w results u)
    (hstore : w.context.store.Writable) : u.context.store.Writable := by
  induction steps generalizing place w results with
  | nil =>
    cases h
    exact hstore
  | cons step steps ih =>
    obtain - | ⟨first, rest⟩ := h
    exact ih rest (stored_of_runStep hs hnone first hstore)

end RestDemo.Run

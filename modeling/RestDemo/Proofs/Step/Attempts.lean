import RestDemo.Demo.Loading
import RestDemo.Proofs.Step.Effect

/-!
# The attempts that are reported

A poll that fails reports how many attempts it made. What it reports are the requests that it sent,
except where a limit below zero leaves no attempt to make: such a poll has its limit reported
(`Poll.attempts_of_run`). `reported_attempts` says so of a step and of all the requests it sends.
-/

namespace RestDemo

/-- A failure is that of the computation whose result is only put in another form. -/
theorem Engine.error_of_bind_pure {α β : Type} {x : Engine α} {f : α → β} {s : Surroundings}
    {w u : World} {e : Failure} (h : (x >>= fun a => pure (f a)) s w = (.error e, u)) :
    x s w = (.error e, u) := by
  rw [bind_pure_run] at h
  rcases hx : x s w with ⟨e' | a, v⟩
  · rw [hx] at h
    cases h
    rfl
  · rw [hx] at h
    cases h

namespace Poll

open Engine

variable {s : Surroundings} {w u : World} {spec : PollSpec} {baseUrl : String}
  {headers : Table String} {defaults : PollingDefaults} {bound : Table Value} {e : StepError}
  {a : Int}

/-- A poll that fails with attempts reports those made, or its limit if it made all of them. -/
theorem Course.attempts_of_error {plan : Plan} {cancellable : Bool} {reply : Nat → Reply}
    {left made n : Nat} {last : Value} {store store' : Store}
    (h : Course plan cancellable reply left made last store n (.error (.step e)) store')
    (ha : e.attempts? = some a) :
    (0 < left ∧ a = (made + n : Nat)) ∨ (n = left ∧ a = plan.maxAttempts) := by
  generalize hr : (Except.error (.step e) : Except Failure PollResult) = r at h
  cases h with
  | @settled k _ _ lt _ settlement =>
    subst hr
    generalize reply k = answer at settlement
    cases settlement with
    | unreachable => cases ha
    | failed =>
      obtain rfl := Option.some.inj ha
      exact .inl ⟨by omega, rfl⟩
  | timedOut =>
    cases hr
    exact .inr ⟨rfl, (Option.some.inj ha).symm⟩
  | cancelled _ lt =>
    cases hr
    exact .inl ⟨by omega, (Option.some.inj ha).symm⟩

/-- How many attempts a poll makes at most: as many as it says itself, or else the defaults, or else
thirty. -/
def limit (spec : PollSpec) (defaults : PollingDefaults) : Int :=
  (spec.maxAttempts.or defaults.maxAttempts).getD 30

/-- What a poll that fails reports are the requests that it sent, unless its limit is below zero:
then it sends none, and reports the limit. -/
theorem attempts_of_run (h : run spec baseUrl headers defaults bound s w = (.error (.step e), u))
    (ha : e.attempts? = some a) :
    ∃ endpoint n, Template.fillGiven w.context.store spec.endpoint = .ok (.text endpoint) ∧
      u.sent =
        w.sent ++ List.replicate n ⟨"GET", resolveUrl endpoint baseUrl, headers, none⟩ ∧
      (a = n ↔ 0 ≤ limit spec defaults) ∧
      (limit spec defaults < 0 → n = 0 ∧ a = limit spec defaults) := by
  have hfaultless : Faultless (run spec baseUrl headers defaults bound s w) := by
    rw [h]
    exact faultless_step
  obtain ⟨endpoint, hfills, hplan⟩ := run_course hfaultless
  obtain ⟨n, store, hcourse, hleaves⟩ := hplan _ rfl
  rw [h] at hcourse hleaves
  refine ⟨endpoint, n, hfills, hleaves.sent, ?_⟩
  have hlimit : (planFor spec (resolveUrl endpoint baseUrl) headers defaults bound).maxAttempts =
      limit spec defaults := rfl
  rcases hcourse.attempts_of_error ha with ⟨hleft, rfl⟩ | ⟨rfl, rfl⟩
  · rw [hlimit] at hleft
    omega
  · rw [hlimit]
    omega

end Poll

namespace Step

open Engine

variable {s : Surroundings} {w u : World} {step : Step} {bodyMethods : List String}
  {settings : Settings} {bound : Table Value} {e : StepError} {a : Int}

/-- The attempts in the report of a step that failed while it polled are the requests of its poll,
just if the limit of the poll is not below zero. Where it is, none is sent, and the limit is
reported. -/
theorem reported_attempts (id : Option String)
    (h : execute step bodyMethods settings bound s w = (.error (.step e), u))
    (ha : (ErrorDetail.ofStepError e id).attempts = some a) :
    ∃ spec prepared endpoint n, step.poll = some spec ∧
      Resolves step bodyMethods settings w.context.store prepared ∧
      u.sent = w.sent ++ prepared.sent :: List.replicate n (prepared.polled endpoint) ∧
      (a = n ↔ 0 ≤ Poll.limit spec settings.polling) ∧
      (Poll.limit spec settings.polling < 0 → n = 0 ∧ a = Poll.limit spec settings.polling) := by
  have hfaultless : Faultless (execute step bodyMethods settings bound s w) := by
    rw [h]
    exact faultless_step
  unfold execute at h hfaultless
  obtain ⟨prepared, hprepared, hexchange⟩ := exchange_run (faultless_of_bind hfaultless)
  rcases hexchange with ⟨reason, v, -, hx, -⟩ | ⟨answer, saved, v, -, -, hx, htold⟩
  · -- A step whose own request is not answered has no attempts to report.
    rw [bind_run, hx] at h
    cases h
    cases ha
  · rw [bind_run_of_ok hx] at h
    have hsent : v.sent = w.sent ++ [prepared.sent] := htold.sent_eq
    cases hpoll : step.poll with
    | none =>
      rw [hpoll] at h
      cases h
    | some spec =>
      rw [hpoll] at h
      have hrun := error_of_bind_pure h
      obtain ⟨endpoint, n, -, hpolls, hattempts⟩ := Poll.attempts_of_run hrun ha
      refine ⟨spec, prepared, endpoint, n, rfl, hprepared, ?_, hattempts⟩
      rw [hpolls, hsent, List.append_assoc]
      rfl

/-- The attempts that a failure reports, if it does. -/
def attemptsOf {α : Type} : Except Failure α → Option Int
  | .error (.step e) => e.attempts?
  | _ => none

theorem exists_failed_of_attemptsOf {α : Type} {r : Except Failure α × World}
    (h : attemptsOf r.1 = some a) :
    ∃ e u, r = (.error (.step e), u) ∧ e.attempts? = some a := by
  match r, h with
  | (.error (.step e), u), h => exact ⟨e, u, rfl, h⟩

/-- Where a job is created that is never done, and is polled until a cancellation comes. -/
def idleSurroundings : Surroundings :=
  { Surroundings.plain (.ofList [.answer ⟨201, "\x7b\"id\": 5\x7d"⟩, .answer Poll.newJob]) with
    cancellation := some (.during 3) }

/-- The cancellation comes during the second request of the poll, and two attempts are reported. -/
theorem reported_attempts_idle :
    ∃ e u, execute jobStep RestLine.bodyMethods jobSettings [] idleSurroundings
        (.start idleSurroundings.cancellation .empty 0) = (.error (.step e), u) ∧
      (ErrorDetail.ofStepError e (some "create")).attempts = some 2 ∧
      ∃ spec prepared endpoint n, jobStep.poll = some spec ∧
        Resolves jobStep RestLine.bodyMethods jobSettings [] prepared ∧
        u.sent = [] ++ prepared.sent :: List.replicate n (prepared.polled endpoint) ∧
        ((2 : Int) = n ↔ 0 ≤ Poll.limit spec jobSettings.polling) := by
  obtain ⟨e, u, h, ha⟩ := exists_failed_of_attemptsOf (a := 2) (r := execute jobStep
    RestLine.bodyMethods jobSettings [] idleSurroundings
    (.start idleSurroundings.cancellation .empty 0)) (by decide +kernel)
  obtain ⟨spec, prepared, endpoint, n, hpoll, hprepared, hsent, hattempts, -⟩ :=
    reported_attempts (some "create") h ha
  exact ⟨e, u, h, ha, spec, prepared, endpoint, n, hpoll, hprepared, hsent, hattempts⟩

/-- Gets a job, and polls it for less than no attempts. -/
def waitStep : Step where
  id := "wait"
  title := .text ""
  rest := "GET /jobs/5"
  headers := .null
  body := .null
  form := none
  baseUrl := .null
  save := .null
  poll := some ⟨.text "/jobs/5", .text "status == done", .null, none, some (-1), .null⟩

/-- A step that is loaded with a limit below zero sends its own request only, and has minus one
attempts reported. -/
theorem reported_attempts_below_zero :
    Demo.loadStep [("id", .text "wait"), ("rest", .text "GET /jobs/5"),
        ("poll", .object [("endpoint", .text "/jobs/5"), ("success_when", .text "status == done"),
          ("max_attempts", .int (-1))])] "step" = .ok waitStep ∧
      Demo.loadSettings [("base_url", .text "http://api")] = .ok jobSettings ∧
      ∃ e u, waitStep.execute RestLine.bodyMethods jobSettings []
          (.plain (.ofList [.answer Poll.newJob])) (.start none .empty 0) =
          (.error (.step e), u) ∧
        u.sent = [⟨"GET", "http://api/jobs/5", [("Content-Type", "application/json")], none⟩] ∧
        (ErrorDetail.ofStepError e (some "wait")).attempts = some (-1) := by
  refine ⟨rfl, rfl, ?_⟩
  obtain ⟨e, u, h, ha⟩ := exists_failed_of_attemptsOf (a := -1) (r := waitStep.execute
    RestLine.bodyMethods jobSettings []
    (.plain (.ofList [.answer Poll.newJob])) (.start none .empty 0))
    (by decide +kernel)
  have hsent : (waitStep.execute RestLine.bodyMethods jobSettings []
      (.plain (.ofList [.answer Poll.newJob]))
      (.start none .empty 0)).2.sent =
        [⟨"GET", "http://api/jobs/5", [("Content-Type", "application/json")], none⟩] := by
    decide +kernel
  rw [h] at hsent
  exact ⟨e, u, h, hsent, ha⟩

end Step

end RestDemo

import RestDemo.Proofs.Poll.Cancellation
import RestDemo.Proofs.Run.Composition

/-!
# Cancelling a run

A run looks for a cancellation only where it polls. The steps after a cancelled poll are not made,
but a cancellation may also come where no poll takes notice of it at once, and then further steps
send their own requests. `Exchanges` says which worlds of a run these requests are sent from; of the
requests after a cancellation there are no others (`exists_exchange_of_run`).
-/

namespace RestDemo

open Engine

variable {s : Surroundings} {w u : World} {c : Cancellation} {bodyMethods : List String}
  {settings : Settings} {bound : Table Value}

/-! ## Steps -/

namespace Step

variable {step : Step}

/-- What holds of the requests at first, and with one more, holds of them after that one was to be
sent, if nothing else is. -/
theorem sent_of_log_send {α : Type} {level : Level} {name : String} {fields : Table Value}
    {request : Request} {rest : Answer → Engine α} {P : List Request → Prop}
    (hrest : ∀ a, Leads s World.Quiet α (rest a)) (hw : P w.sent) (hsent : P (w.sent ++ [request])) :
    P ((log bound level name fields >>= fun _ => send request >>= rest) s w).2.sent := by
  rw [bind_run]
  rcases log_refused_or_told bound level name fields s w with ⟨f, hlog⟩ | ⟨u, hlog, htold⟩
  · rw [hlog]
    exact hw
  · rw [← htold.sent_eq] at hw hsent
    rw [hlog]
    dsimp only
    rw [bind_run, send]
    cases s.service.reply u.sent.length with
    | answer a => exact (hrest a (u.request s request)).sent ▸ hsent
    | unreachable reason => exact hsent
    | crash text => exact hsent

theorem told_warnUnresolved (step : Step) (bound : Table Value) (s : Surroundings) (w : World) :
    w.Told (warnUnresolved step bound s w).2 := by
  rw [warnUnresolved, store_bind_run]
  split
  · exact .refl w
  · exact told_log ..

/-- A step sends its own request, as it is resolved from the variables before, or none. -/
theorem sent_of_exchange (step : Step) (bodyMethods : List String) (settings : Settings)
    (bound : Table Value) (s : Surroundings) (w : World) :
    (exchange step bodyMethods settings bound s w).2.sent = w.sent ∨
      ∃ prepared, prepare step bodyMethods settings w.context.store = .ok prepared ∧
        (exchange step bodyMethods settings bound s w).2.sent = w.sent ++ [prepared.sent] := by
  have htold := told_warnUnresolved step bound s w
  rw [exchange, bind_run]
  match hwarn : warnUnresolved step bound s w with
  | (.error e, u) =>
    rw [hwarn] at htold
    exact .inl htold.sent_eq
  | (.ok (), u) =>
    rw [hwarn] at htold
    dsimp only at htold ⊢
    rw [store_bind_run, htold.context_eq]
    cases hprepared : prepare step bodyMethods settings w.context.store with
    | error f => exact .inl htold.sent_eq
    | ok prepared =>
      rw [bind_run_of_ok (orFault_ok_run s u prepared)]
      have hrest : ∀ a, Leads s World.Quiet Exchange (receive step bound prepared a) :=
        closed_receive (quiet_closed s) (step.admits_all bodyMethods settings bound) prepared
      refine sent_of_log_send (P := fun sent => sent = w.sent ∨ ∃ prepared',
        Except.ok prepared = Except.ok prepared' ∧ sent = w.sent ++ [prepared'.sent]) hrest ?_ ?_
      · exact .inl htold.sent_eq
      · exact .inr ⟨prepared, rfl, by rw [htold.sent_eq]⟩

/-- After its own request, a step sends no further one once it is cancelled. -/
theorem execute_timely (hc : s.cancellation = some c) (step : Step) (w : World) :
    (exchange step bodyMethods settings (boundTo bound step) s w).2.Before
        (execute step bodyMethods settings bound s w).2 ∧
      (execute step bodyMethods settings bound s w).2.Timely
        (exchange step bodyMethods settings (boundTo bound step) s w).2.sent.length := by
  rw [execute, bind_run]
  match exchange step bodyMethods settings (boundTo bound step) s w with
  | (.error e, u) => exact ⟨.refl u, .of_length u⟩
  | (.ok first, u) =>
    dsimp only
    cases step.poll with
    | none => exact ⟨.refl u, .of_length u⟩
    | some spec =>
      dsimp only
      have hbefore : World.Before u (Poll.run spec first.baseUrl first.request.headers
          settings.polling (boundTo bound step) s u).2 :=
        Poll.closed_run (before_running s).toPausing.polling (fun _ _ _ => trivial)
          (fun _ => Poll.Plan.admits_all _) (fun _ => trivial) u
      have htimely : (Poll.run spec first.baseUrl first.request.headers settings.polling
          (boundTo bound step) s u).2.Timely u.sent.length :=
        Poll.run_timely hc _ _ _ _ _ _ u (.of_length u)
      have hquiet := Leads.bind_next World.Quiet.refl (s := s) (w := u)
        (x := Poll.run spec first.baseUrl first.request.headers settings.polling
          (boundTo bound step))
        (f := fun result =>
          pure (StepResult.mk first.request first.status result.document (some result)))
        fun result => (quiet_closed s).pure _
      exact ⟨hbefore.trans hquiet.before, htimely.quiet hquiet⟩

/-- The only request of a step that may come after the cancellation is its own. -/
theorem exists_prepared_of_execute (hc : s.cancellation = some c) {n i : Nat}
    (hn : (execute step bodyMethods settings bound s w).2.cancelledAfter = some n) (hni : n ≤ i)
    (hi : w.sent.length ≤ i)
    (hlt : i < (execute step bodyMethods settings bound s w).2.sent.length) :
    w.sent.length = i ∧
      ∃ prepared, prepare step bodyMethods settings w.context.store = .ok prepared ∧
        (execute step bodyMethods settings bound s w).2.sent[i]? = some prepared.sent := by
  obtain ⟨hbefore, htimely⟩ := execute_timely hc step w
  have hle := htimely n hn
  rcases sent_of_exchange step bodyMethods settings (boundTo bound step) s w with
    hsent | ⟨prepared, hprepared, hsent⟩
  · rw [hsent] at hle
    omega
  · have hprefix := hbefore.sent
    rw [hsent] at hle hprefix
    rw [List.length_append, List.length_singleton] at hle
    obtain rfl : w.sent.length = i := by omega
    refine ⟨rfl, prepared, hprepared, ?_⟩
    obtain ⟨more, hmore⟩ := hprefix
    rw [← hmore, List.append_assoc, List.getElem?_append_right (Nat.le_refl _), Nat.sub_self]
    rfl

end Step

/-! ## Runs -/

namespace Run

/-- In the run of the steps from a world, which begins at a place, a step sends its own request from
a second world. -/
inductive Exchanges (s : Surroundings) (bodyMethods : List String) (settings : Settings)
    (bound : Table Value) : Nat → List Step → World → Step → World → Prop
  | here {place : Nat} {step : Step} {steps : List Step} {w u : World}
      (starts : log bound .info "step.start"
        [("step_id", .text (stepName step place)), ("rest", .text step.rest)] s w = (.ok (), u)) :
    Exchanges s bodyMethods settings bound place (step :: steps) w step u
  | later {place : Nat} {step step' : Step} {steps : List Step} {w v u : World}
      {result : StepResult}
      (succeeds : runStep bodyMethods settings bound place step s w = (.ok (.ok result), v))
      (rest : Exchanges s bodyMethods settings bound (place + 1) steps v step' u) :
    Exchanges s bodyMethods settings bound place (step :: steps) w step' u

theorem attempt_world {α : Type} (x : Engine α) (s : Surroundings) (w : World) :
    (Engine.attempt x s w).2 = (x s w).2 := by
  rw [Engine.attempt]
  rcases x s w with ⟨(e | f) | a, u⟩ <;> rfl

/-- A step of a run sends what it sends by itself, from the world in which it has been told to
start. -/
theorem runStep_quiet (place : Nat) (step : Step) (s : Surroundings) (w : World) :
    (runStep bodyMethods settings bound place step s w).2.sent = w.sent ∨
      ∃ u, log bound .info "step.start"
          [("step_id", .text (stepName step place)), ("rest", .text step.rest)] s w = (.ok (), u) ∧
        u.sent = w.sent ∧
        World.Quiet (step.execute bodyMethods settings bound s u).2
          (runStep bodyMethods settings bound place step s w).2 := by
  have hquiet := quiet_closed s
  rw [runStep, runTask, bind_run]
  dsimp only [Step.task]
  rw [← stepName]
  rcases log_refused_or_told bound .info "step.start"
    [("step_id", .text (stepName step place)), ("rest", .text step.rest)] s w with
    ⟨f, hlog⟩ | ⟨u, hlog, htold⟩
  · rw [hlog]
    exact .inl rfl
  · rw [hlog]
    refine .inr ⟨u, rfl, htold.sent_eq, ?_⟩
    rw [← attempt_world]
    refine Leads.bind_next World.Quiet.refl (fun outcome => ?_) u
    cases outcome with
    | error e =>
      refine hquiet.bind (fun w => ⟨rfl, rfl⟩) fun _ => ?_
      exact hquiet.bind (hquiet.tell trivial) fun _ => hquiet.pure _
    | ok result =>
      refine hquiet.bind (fun w => ⟨rfl, rfl⟩) fun _ => ?_
      refine hquiet.bind (fun w => ⟨rfl, rfl⟩) fun _ => ?_
      exact hquiet.bind (hquiet.tell trivial) fun _ => hquiet.pure _

/-- A row of steps ends with its first step, or goes on after it. -/
theorem runSteps_world (place : Nat) (step : Step) (steps : List Step) (s : Surroundings)
    (w : World) :
    (runSteps bodyMethods settings bound place (step :: steps) s w).2 =
        (runStep bodyMethods settings bound place step s w).2 ∨
      ∃ result v, runStep bodyMethods settings bound place step s w = (.ok (.ok result), v) ∧
        (runSteps bodyMethods settings bound place (step :: steps) s w).2 =
          (runSteps bodyMethods settings bound (place + 1) steps s v).2 := by
  rw [runSteps_cons]
  match runStep bodyMethods settings bound place step s w with
  | (.error e, v) => exact .inl rfl
  | (.ok (.error e), v) => exact .inl rfl
  | (.ok (.ok result), v) => exact .inr ⟨result, v, rfl, rfl⟩

/-- A request of a step in a run that comes after the cancellation is the step's own. -/
theorem exists_prepared_of_runStep (hc : s.cancellation = some c) {place n i : Nat} {step : Step}
    (hn : (runStep bodyMethods settings bound place step s w).2.cancelledAfter = some n)
    (hni : n ≤ i) (hi : w.sent.length ≤ i)
    (hlt : i < (runStep bodyMethods settings bound place step s w).2.sent.length) :
    ∃ u prepared,
      log bound .info "step.start"
        [("step_id", .text (stepName step place)), ("rest", .text step.rest)] s w = (.ok (), u) ∧
      u.sent.length = i ∧
      step.prepare bodyMethods settings u.context.store = .ok prepared ∧
      (runStep bodyMethods settings bound place step s w).2.sent[i]? = some prepared.sent := by
  rcases runStep_quiet place step s w with hsent | ⟨u, hlog, hsent, hquiet⟩
  · rw [hsent] at hlt
    exact absurd hi (Nat.not_le_of_lt hlt)
  · rw [hquiet.cancelledAfter] at hn
    rw [hquiet.sent] at hlt ⊢
    rw [← hsent] at hi
    obtain ⟨hlength, prepared, hprepared, hget⟩ :=
      Step.exists_prepared_of_execute hc hn hni hi hlt
    exact ⟨u, prepared, hlog, hlength, hprepared, hget⟩

/-- A request of a row of steps that comes after the cancellation is the own request of a step. -/
theorem exists_exchange_of_runSteps (hc : s.cancellation = some c) {place n i : Nat}
    {steps : List Step}
    (hn : (runSteps bodyMethods settings bound place steps s w).2.cancelledAfter = some n)
    (hni : n ≤ i) (hi : w.sent.length ≤ i)
    (hlt : i < (runSteps bodyMethods settings bound place steps s w).2.sent.length) :
    ∃ step u prepared, Exchanges s bodyMethods settings bound place steps w step u ∧
      u.sent.length = i ∧
      step.prepare bodyMethods settings u.context.store = .ok prepared ∧
      (runSteps bodyMethods settings bound place steps s w).2.sent[i]? = some prepared.sent := by
  induction steps generalizing place w with
  | nil => exact absurd hi (Nat.not_le_of_lt hlt)
  | cons step steps ih =>
    rcases runSteps_world place step steps s w with hworld | ⟨result, v, hstep, hworld⟩
    · rw [hworld] at hn hlt ⊢
      obtain ⟨u, prepared, hlog, hlength, hprepared, hget⟩ :=
        exists_prepared_of_runStep hc hn hni hi hlt
      exact ⟨step, u, prepared, .here hlog, hlength, hprepared, hget⟩
    · rw [hworld] at hn hlt ⊢
      rcases Nat.lt_or_ge i v.sent.length with hbelow | habove
      · -- What was sent so far was sent before the rest of the row, and so was the cancellation.
        have hbefore : v.Before (runSteps bodyMethods settings bound (place + 1) steps s v).2 :=
          closed_runSteps_of_all (before_running s) (place + 1) steps v
        have hcancelled := hbefore.cancelledAfter_of_lt hn (Nat.lt_of_le_of_lt hni hbelow)
        have hv : (runStep bodyMethods settings bound place step s w).2 = v := by rw [hstep]
        rw [← hv] at hcancelled hbelow
        obtain ⟨u, prepared, hlog, hlength, hprepared, hget⟩ :=
          exists_prepared_of_runStep hc hcancelled hni hi hbelow
        refine ⟨step, u, prepared, .here hlog, hlength, hprepared, ?_⟩
        obtain ⟨more, hmore⟩ := hbefore.sent
        rw [← hmore, ← hv, List.getElem?_append_left hbelow, hget]
      · obtain ⟨step', u, prepared, hexchange, hu⟩ := ih hn habove hlt
        exact ⟨step', u, prepared, .later hstep hexchange, hu⟩

/-- A request of a run that comes after the cancellation is the own request of a step. -/
theorem exists_exchange_of_run (hc : s.cancellation = some c) {demo : Demo} {n i : Nat}
    (hn : (run bodyMethods demo bound s w).2.cancelledAfter = some n) (hni : n ≤ i)
    (hi : w.sent.length ≤ i) (hlt : i < (run bodyMethods demo bound s w).2.sent.length) :
    ∃ id v step u prepared, ensureId s w = (.ok id, v) ∧
      Exchanges s bodyMethods demo.settings (bound.set "run_id" (.text id)) 1 demo.steps v step u ∧
      u.sent.length = i ∧
      step.prepare bodyMethods demo.settings u.context.store = .ok prepared ∧
      (run bodyMethods demo bound s w).2.sent[i]? = some prepared.sent := by
  obtain ⟨id, v, hid, -, -, hsent⟩ := ensureId_run s w
  rw [run_eq, bind_run_of_ok hid] at hn hlt ⊢
  rw [← hsent] at hi
  obtain ⟨step, u, prepared, hexchange⟩ := exists_exchange_of_runSteps hc hn hni hi hlt
  exact ⟨id, v, step, u, prepared, hid, hexchange⟩

/-- Nothing is polled after a cancellation. A poll that makes an attempt at all and meets no limit on
numbers is cancelled safely: it comes out as without a cancellation if it is over by the attempt with
which that comes, and is cancelled with that attempt if it is not. In a run, whatever is sent after
the cancellation is the own request of a step. -/
theorem no_poll_after_cancellation (hc : s.cancellation = some c) (hs : s.Orderly) :
    (∀ (spec : PollSpec) (baseUrl : String) (headers : Table String) (defaults : PollingDefaults)
        (bound : Table Value) (w : World), spec.WellTyped →
      1 ≤ (spec.maxAttempts.or defaults.maxAttempts).getD 30 →
      (∀ f, f.isLimit →
        (Poll.run spec baseUrl headers defaults bound s w).1 ≠ .error (.fault f)) →
      ∃ endpoint, Template.fillGiven w.context.store spec.endpoint = .ok (.text endpoint) ∧
        Poll.CancelledSafely c ⟨"GET", resolveUrl endpoint baseUrl, headers, none⟩ s.service.reply w
          (Poll.run spec baseUrl headers defaults bound s w)
          (Poll.run spec baseUrl headers defaults bound s.uncancellable w)) ∧
    ∀ (bodyMethods : List String) (demo : Demo) (bound : Table Value) (w : World) (n i : Nat),
      (run bodyMethods demo bound s w).2.cancelledAfter = some n → n ≤ i → w.sent.length ≤ i →
      i < (run bodyMethods demo bound s w).2.sent.length →
      ∃ id v step u prepared, ensureId s w = (.ok id, v) ∧
        Exchanges s bodyMethods demo.settings (bound.set "run_id" (.text id)) 1 demo.steps v step
          u ∧
        u.sent.length = i ∧
        step.prepare bodyMethods demo.settings u.context.store = .ok prepared ∧
        (run bodyMethods demo bound s w).2.sent[i]? = some prepared.sent := by
  constructor
  · intro spec baseUrl headers defaults bound w hspec hattempts hlimits
    have hfaultless := (Poll.endsInLimits_run hs hspec).faultless hlimits
    exact Poll.run_cancelledSafely hc hattempts hfaultless
  · intro bodyMethods demo bound w n i hn hni hi hlt
    exact exists_exchange_of_run hc hn hni hi hlt

/-- Where a job is polled, and the cancellation comes during the first request. -/
def cancelledSurroundings : Surroundings :=
  { Poll.jobSurroundings with cancellation := some (.during 1) }

/-- The poll of the job would go on after its first request, and is cancelled with it. -/
theorem no_poll_after_cancellation_job :
    (Poll.run Poll.jobSpec "http://api" [] ⟨none, none⟩ [] cancelledSurroundings Poll.jobWorld).1 =
        .error (.step (.pollCancelled 1 (Reply.answer Poll.newJob).document)) ∧
      (Poll.run Poll.jobSpec "http://api" [] ⟨none, none⟩ [] cancelledSurroundings
        Poll.jobWorld).2.sent = [⟨"GET", "http://api/jobs/5", [], none⟩] := by
  have horderly : cancelledSurroundings.Orderly :=
    Surroundings.orderly_ofList Poll.crash_not_mem_jobReplies _
  have hfaultless : Faultless (Poll.run Poll.jobSpec "http://api" [] ⟨none, none⟩ []
      cancelledSurroundings Poll.jobWorld) := by
    decide +kernel
  have hlonger : 0 + 1 < (Poll.run Poll.jobSpec "http://api" [] ⟨none, none⟩ []
      cancelledSurroundings.uncancellable Poll.jobWorld).2.sent.length := by
    decide +kernel
  obtain ⟨hpoll, -⟩ := no_poll_after_cancellation (s := cancelledSurroundings) rfl horderly
  obtain ⟨endpoint, hfilled, hsafe⟩ := hpoll Poll.jobSpec "http://api" [] ⟨none, none⟩ []
    Poll.jobWorld Poll.jobSpec_wellTyped (by decide) fun f _ => hfaultless f
  obtain rfl : "/jobs/5" = endpoint := by
    have hfive : Template.fillGiven Poll.jobWorld.context.store Poll.jobSpec.endpoint =
        .ok (.text "/jobs/5") := rfl
    exact Value.text.inj (Except.ok.inj (hfive.symm.trans hfilled))
  obtain ⟨hresult, hsent, -⟩ := hsafe.cut 1 rfl rfl hlonger
  exact ⟨hresult, hsent⟩

end Run

end RestDemo

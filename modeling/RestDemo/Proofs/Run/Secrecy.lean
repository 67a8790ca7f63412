import RestDemo.Proofs.Run.Composition
import RestDemo.Proofs.Run.Trace
import RestDemo.Proofs.Step.Shown

/-!
# What a run tells of the variables

What a run tells depends on no variable that its steps use only in headers and in parts of a body or
form under sensitive names (`same_events_of_agreeOn`). The requests themselves do depend on it: two runs
are put beside each other that send different requests to a service which gives both the same
replies. Their worlds stay the same in everything that is told (`World.Veiled`).
-/

namespace RestDemo

/-- The worlds differ at most in what is not told: the values of variables that are not shown, the
requests sent, the results, and the pauses. -/
structure World.Veiled (shown : List String) (w w' : World) : Prop where
  runId : w'.context.runId = w.context.runId
  stores : Step.StoresAlike shown w.context.store w'.context.store
  sent : w'.sent.length = w.sent.length
  events : w'.events = w.events
  cancelledAfter : w'.cancelledAfter = w.cancelledAfter
  issued : w'.issued = w.issued

namespace World.Veiled

variable {shown : List String} {w w' : World}

theorem telling (h : World.Veiled shown w w') (es : List Event) :
    World.Veiled shown (w.telling es) (w'.telling es) :=
  { h with events := congrArg (· ++ es) h.events }

theorem cancelIf (h : World.Veiled shown w w') (comes : Bool) :
    World.Veiled shown (w.cancelIf comes) (w'.cancelIf comes) where
  runId := h.runId
  stores := h.stores
  sent := h.sent
  events := h.events
  cancelledAfter := by
    rw [World.cancelIf, World.cancelIf, h.cancelledAfter, h.sent]
  issued := h.issued

theorem request (h : World.Veiled shown w w') (s : Surroundings) (r r' : Request) :
    World.Veiled shown (w.request s r) (w'.request s r') := by
  have hsent : World.Veiled shown { w with sent := w.sent ++ [r] }
      { w' with sent := w'.sent ++ [r'] } := by
    refine { h with sent := ?_ }
    rw [List.length_append, List.length_append, h.sent]
    rfl
  rw [World.request, World.request, h.sent]
  exact hsent.cancelIf _

theorem keeping (h : World.Veiled shown w w') {Q : StepResult → StepResult → Prop}
    {r r' : Except StepError StepResult} (hr : Engine.Paired Q r r') :
    World.Veiled shown (Run.keeping r w) (Run.keeping r' w') := by
  cases hr with
  | ok => exact { h with }
  | error => exact h

end World.Veiled

open Engine Template

variable {s : Surroundings} {shown : List String} {w w' : World} {bodyMethods : List String}
  {settings : Settings} {bound : Table Value} {place : Nat} {step : Step}

theorem coupling_veiled (shown : List String) (s : Surroundings) (bound : Table Value) :
    Coupling True s s (World.Veiled shown) (Step.StoresAlike shown) Step.SameTarget bound bound where
  store hw := hw.stores
  set name v hst := hst.set name v
  withStore hw hst := { hw with stores := hst }
  log level name fields := by
    intro w w' hw
    simp only [log, Engine.tell]
    cases s.refuses ⟨level, name, bound.overlay fields⟩ with
    | some f => exact .first f _ _
    | none => exact .ok rfl (hw.telling _)
  send := by
    -- The service looks at how many requests there were, not at what they say.
    rintro r r' ⟨hmethod, hurl⟩ w w' hw
    have hrequest := hw.request s r r'
    rw [Engine.send, Engine.send, hw.sent, hmethod, hurl]
    cases s.service.reply w.sent.length with
    | answer a => exact .ok rfl hrequest
    | unreachable reason => exact .step _ hrequest
    | crash text => exact .first _ _ _
  requestTime := by
    -- Nor does the clock.
    intro w w' hw
    rw [requestTime_run, requestTime_run, hw.sent]
    exact .ok rfl hw
  pause seconds := by
    intro w w' hw
    unfold Engine.pause
    cases s.cancellation with
    | none => exact .ok rfl { hw with }
    | some c =>
      have hpaused := hw.cancelIf (c.comesAfter w.sent.length)
      dsimp only
      rw [hw.sent]
      refine .ok ?_ hpaused
      rw [World.cancelled, World.cancelled, hpaused.cancelledAfter]
  isCancelled := by
    intro w w' hw
    have hcancelled : w'.cancelled = w.cancelled := congrArg Option.isSome hw.cancelledAfter
    rw [isCancelled_run, isCancelled_run, hcancelled]
    exact .ok rfl hw

namespace Run

theorem closingEntry_paired {pairs : ResolvedRequest → ResolvedRequest → Prop} {name : String}
    (took : Bool → UInt64) {r r' : Except StepError StepResult}
    (h : Paired (Step.ResultsPaired pairs) r r') :
    closingEntry bound name (took r'.isOk) r' = closingEntry bound name (took r.isOk) r := by
  cases h with
  | ok results =>
    rw [closingEntry, closingEntry, results.status]
    rfl
  | error => rfl

theorem runStep_veiled (hshown : ∀ name ∈ step.shownVariables settings, name ∈ shown)
    (hw : World.Veiled shown w w')
    (h : Faultless (runStep bodyMethods settings bound place step s w))
    (h' : Faultless (runStep bodyMethods settings bound place step s w')) :
    ∃ r r' u u', runStep bodyMethods settings bound place step s w = (.ok r, u) ∧
      runStep bodyMethods settings bound place step s w' = (.ok r', u') ∧
      Paired (Step.ResultsPaired Step.ShownAlike) r r' ∧ World.Veiled shown u u' := by
  have hcoupled := Step.coupled_execute (coupling_veiled shown s (Step.boundTo bound step))
    (Step.pairing_shown bodyMethods settings hshown)
  have hbeside := hcoupled _ _ (hw.telling [startEntry bound place step])
  obtain ⟨r, r', u, u', hx, hx', hpaired, hveiled⟩ :=
    hbeside.exists_of_faultless (faultless_execute h) fun _ => faultless_execute h'
  refine ⟨r, r', _, _, runStep_run h hx, runStep_run h' hx', hpaired, ?_⟩
  rw [hveiled.sent, closingEntry_paired (s.service.clock.step · u.sent.length) hpaired]
  exact (hveiled.keeping hpaired).telling _

/-- Two rows of steps whose worlds differ in nothing that is told come to the same failure, or to
none, in worlds that differ in nothing that is told. -/
theorem runSteps_veiled {steps : List Step}
    (hshown : ∀ step ∈ steps, ∀ name ∈ step.shownVariables settings, name ∈ shown)
    (hw : World.Veiled shown w w')
    (h : Faultless (runSteps bodyMethods settings bound place steps s w))
    (h' : Faultless (runSteps bodyMethods settings bound place steps s w')) :
    ∃ o o' u u', runSteps bodyMethods settings bound place steps s w = (.ok o, u) ∧
      runSteps bodyMethods settings bound place steps s w' = (.ok o', u') ∧
      o'.failed = o.failed ∧ World.Veiled shown u u' := by
  -- The induction is on the row, for all worlds: `World.Veiled` carries it from step to step.
  induction steps generalizing place w w' with
  | nil => exact ⟨_, _, w, w', rfl, rfl, rfl, hw⟩
  | cons step steps ih =>
    obtain ⟨hfirst, hrest⟩ := List.forall_mem_cons.1 hshown
    obtain ⟨r, r', u, u', hstep, hstep', hpaired, hu⟩ :=
      runStep_veiled hfirst hw (faultless_of_bind h) (faultless_of_bind h')
    rw [runSteps_cons_eq] at h h' ⊢
    rw [bind_run_of_ok hstep] at h ⊢
    rw [bind_run_of_ok hstep'] at h' ⊢
    cases hpaired with
    | error e => exact ⟨_, _, u, u', rfl, rfl, rfl, hu⟩
    | ok =>
      dsimp only at h h' ⊢
      obtain ⟨o, o', v, v', hsteps, hsteps', hfailed, hv⟩ :=
        ih hrest hu (faultless_of_bind h) (faultless_of_bind h')
      rw [bind_run_of_ok hsteps, bind_run_of_ok hsteps']
      exact ⟨_, _, v, v', rfl, rfl, hfailed, hv⟩

theorem ensureId_veiled (s : Surroundings) (hw : World.Veiled shown w w') :
    ∃ id u u', ensureId s w = (.ok id, u) ∧ ensureId s w' = (.ok id, u') ∧
      World.Veiled shown u u' := by
  by_cases hempty : w.context.runId = ""
  · have hempty' : w'.context.runId = "" := hw.runId.trans hempty
    rw [ensureId_of_empty hempty, ensureId_of_empty hempty', hw.issued]
    exact ⟨_, _, _, rfl, rfl, { hw with runId := rfl, issued := rfl }⟩
  · have hne : w'.context.runId ≠ "" := fun h => hempty (hw.runId.symm.trans h)
    rw [ensureId_of_ne_empty hempty, ensureId_of_ne_empty hne, hw.runId]
    exact ⟨_, _, _, rfl, rfl, hw⟩

/-- Two runs of a demo from the same variables, of which only those may have other values that the
steps use nowhere but in headers and in parts of a body or form under sensitive names, tell the same
events and come to the same failure, or to none, as long as nothing but a step fails in them. -/
theorem same_events_of_agreeOn {demo : Demo} {store : Store}
    (hnames : Table.names store = Table.names w.context.store)
    (hagree : AgreeOn (demo.steps.flatMap (Step.shownVariables demo.settings)) w.context.store store)
    (h : Faultless (run bodyMethods demo bound s w))
    (h' : Faultless (run bodyMethods demo bound s (w.withStore store))) :
    ∃ o o' u u', run bodyMethods demo bound s w = (.ok o, u) ∧
      run bodyMethods demo bound s (w.withStore store) = (.ok o', u') ∧
      o'.failed = o.failed ∧ u'.events = u.events := by
  have hw : World.Veiled (demo.steps.flatMap (Step.shownVariables demo.settings)) w
      (w.withStore store) := ⟨rfl, ⟨hnames, hagree⟩, rfl, rfl, rfl, rfl⟩
  obtain ⟨id, v, v', hid, hid', hv⟩ := ensureId_veiled s hw
  rw [run_eq] at h h' ⊢
  rw [bind_run_of_ok hid] at h ⊢
  rw [bind_run_of_ok hid'] at h' ⊢
  have hshown : ∀ step ∈ demo.steps, ∀ name ∈ step.shownVariables demo.settings,
      name ∈ demo.steps.flatMap (Step.shownVariables demo.settings) :=
    fun step hstep name hname => List.mem_flatMap.2 ⟨step, hstep, hname⟩
  obtain ⟨o, o', u, u', hsteps, hsteps', hfailed, hu⟩ := runSteps_veiled hshown hv h h'
  exact ⟨o, o', u, u', hsteps, hsteps', hfailed, hu.events⟩

/-- Logs in with a password and a token. -/
def loginStep : Step where
  id := "login"
  title := .text "Log in"
  rest := "POST /users/$user"
  headers := .object [("Authorization", .text "Bearer $token")]
  body := .object [("user", .text "$user"), ("password", .text "$word")]
  form := none
  baseUrl := .null
  save := .null
  poll := none

def loginDemo : Demo := ⟨.text "Log in", [loginStep, lookStep], Step.jobSettings⟩

def loginStore (token word : String) : Store :=
  [("user", .text "ada"), ("token", .text token), ("word", .text word)]

/-- Where the second request finds no service. -/
def loginSurroundings : Surroundings :=
  .plain (.ofList [.answer ⟨200, "\x7b\x7d"⟩, .unreachable "refused"])

def loginWorld : World :=
  .start none { RunContext.empty with store := loginStore "t0" "rosebud" } 0

/-- Another token and another password are sent, and nothing else is told. -/
theorem same_events_of_agreeOn_login :
    (Table.names (loginStore "t1" "xanadu") = Table.names loginWorld.context.store ∧
      AgreeOn (loginDemo.steps.flatMap (Step.shownVariables loginDemo.settings))
        loginWorld.context.store (loginStore "t1" "xanadu") ∧
      Faultless (run RestLine.bodyMethods loginDemo [] loginSurroundings loginWorld) ∧
      Faultless (run RestLine.bodyMethods loginDemo [] loginSurroundings
        (loginWorld.withStore (loginStore "t1" "xanadu")))) ∧
    ∃ o o' u u', run RestLine.bodyMethods loginDemo [] loginSurroundings loginWorld = (.ok o, u) ∧
      run RestLine.bodyMethods loginDemo [] loginSurroundings
        (loginWorld.withStore (loginStore "t1" "xanadu")) = (.ok o', u') ∧
      o'.failed = o.failed ∧ u'.events = u.events ∧ u'.sent ≠ u.sent := by
  have hnames : Table.names (loginStore "t1" "xanadu") = Table.names loginWorld.context.store := rfl
  have hagree : AgreeOn (loginDemo.steps.flatMap (Step.shownVariables loginDemo.settings))
      loginWorld.context.store (loginStore "t1" "xanadu") := by
    have hshown : loginDemo.steps.flatMap (Step.shownVariables loginDemo.settings) =
        ["user", "user", "id"] := by decide +kernel
    rw [hshown]
    exact List.forall_mem_cons.2 ⟨rfl, List.forall_mem_cons.2 ⟨rfl, List.forall_mem_singleton.2 rfl⟩⟩
  have h : Faultless (run RestLine.bodyMethods loginDemo [] loginSurroundings loginWorld) := by
    decide +kernel
  have h' : Faultless (run RestLine.bodyMethods loginDemo [] loginSurroundings
      (loginWorld.withStore (loginStore "t1" "xanadu"))) := by
    decide +kernel
  have hsent : (run RestLine.bodyMethods loginDemo [] loginSurroundings
      (loginWorld.withStore (loginStore "t1" "xanadu"))).2.sent ≠
      (run RestLine.bodyMethods loginDemo [] loginSurroundings loginWorld).2.sent := by
    decide +kernel
  obtain ⟨o, o', u, u', hrun, hrun', hfailed, hevents⟩ := same_events_of_agreeOn hnames hagree h h'
  rw [hrun, hrun'] at hsent
  exact ⟨⟨hnames, hagree, h, h'⟩, o, o', u, u', hrun, hrun', hfailed, hevents, hsent⟩

end Run

end RestDemo

import RestDemo.Proofs.Demo.Loading
import RestDemo.Proofs.Run.Alone
import RestDemo.Proofs.Server.Trace

/-!
# Stepping through a demo

The steps of a demo can be run by one call after another, each with the variables that the one before
it returned. That is the run of the demo: the same requests, the same results and variables, and the
same failure (`stepThrough_eq_runDemo`).
-/

namespace RestDemo.Server

open Engine

/-- What stepping comes to: the results until a step failed, the variables after it, and how it
failed, if one did. -/
structure Stepping where
  results : List StepResult
  store : Store
  failure : Option ErrorDetail

/-- Runs steps by one call after another, each with the variables that the one before it returned,
until one fails. -/
def stepThrough (settings : Table Value) :
    List (Table Value) → Store → Service → State → Handled Stepping
  | [], store, _, s => .unchanged (.ok ⟨[], store, none⟩) s
  | entry :: entries, store, service, s =>
    match runStep ⟨entry, settings, store⟩ service s with
    | ⟨.error p, s, sent⟩ => ⟨.error p, s, sent⟩
    | ⟨.ok ⟨.error detail, store⟩, s, sent⟩ => ⟨.ok ⟨[], store, some detail⟩, s, sent⟩
    | ⟨.ok ⟨.ok result, store⟩, s, sent⟩ =>
      match stepThrough settings entries store (service.after sent.length) s with
      | ⟨answer, s, sent'⟩ =>
        ⟨answer.map fun o => { o with results := result :: o.results }, s, sent ++ sent'⟩

variable {service : Service} {s : State} {settings : Table Value} {loaded : Settings}

theorem runStep_eq {call : StepCall} {step : Step} (hload : call.load = .ok (step, loaded))
    {r : Except StepError StepResult} {u : World}
    (hrun : Engine.attempt (step.execute RestLine.bodyMethods loaded []) (State.surroundings service)
      (World.start none ⟨"", call.store, []⟩ (s.issued + 1)) = (.ok r, u)) :
    ∃ s', runStep call service s =
      ⟨.ok ⟨r.mapError fun e => .ofStepError e (some step.id), u.context.store⟩, s', u.sent⟩ := by
  unfold runStep
  rw [hload]
  dsimp only [State.freshId, State.run]
  rw [hrun]
  exact ⟨_, rfl⟩

theorem load_stepCall {entry : Table Value} {step : Step} {default : String} (store : Store)
    (hsettings : Demo.loadSettings settings = .ok loaded)
    (hstep : Demo.loadStep entry default = .ok step) (hid : (Value.field "id" entry).isTruthy) :
    StepCall.load ⟨entry, settings, store⟩ = .ok (step, loaded) := by
  have hsame : Demo.loadStep entry "step" = .ok step := by
    rw [← hstep, Demo.loadStep, Demo.loadStep, Demo.stepId, Demo.stepId, if_pos hid, if_pos hid]
  rw [StepCall.load, hsame, hsettings]
  rfl

/-- The call for a step of a run sends the requests that the step sends in the run, and answers with
what the step comes to there. -/
theorem runStep_of_run {bound : Table Value} (hbound : Bindable bound) {entry : Table Value}
    {step : Step} {place : Nat} {w : World} (s : State)
    (hload : StepCall.load ⟨entry, settings, w.context.store⟩ = .ok (step, loaded))
    (h : Faultless (Run.runStep RestLine.bodyMethods loaded bound place step
      (State.surroundings service) w)) :
    ∃ r u s' sent, Run.runStep RestLine.bodyMethods loaded bound place step
        (State.surroundings service) w = (.ok r, u) ∧ u.sent = w.sent ++ sent ∧
      runStep ⟨entry, settings, w.context.store⟩ (service.after w.sent.length) s =
        ⟨.ok ⟨r.mapError fun e => .ofStepError e (some step.id), u.context.store⟩, s', sent⟩ := by
  let lone := World.start none ⟨"", w.context.store, []⟩ (s.issued + 1)
  have hlone : World.Alone w.sent w lone := ⟨rfl, (List.append_nil _).symm⟩
  obtain ⟨r, u, u', hrun, hattempt, halone⟩ := Run.runStep_alone rfl rfl hbound .nil h hlone
  change Engine.attempt (step.execute RestLine.bodyMethods loaded [])
    (State.surroundings (service.after w.sent.length)) lone = (.ok r, u') at hattempt
  obtain ⟨s', hanswer⟩ := runStep_eq hload hattempt
  rw [halone.store] at hanswer
  exact ⟨r, u, s', u'.sent, hrun, halone.sent, hanswer⟩

/-- Stepping through the entries of a row is the run of its steps. -/
theorem stepThrough_eq_runSteps (hsettings : Demo.loadSettings settings = .ok loaded)
    {bound : Table Value} (hbound : Bindable bound) {entries : List (Table Value)} {place : Nat}
    {steps : List Step} (hload : Demo.loadSteps place (entries.map .object) = .ok steps)
    (hrest : ∀ entry ∈ entries, Table.has "rest" entry)
    (hids : ∀ entry ∈ entries, (Value.field "id" entry).isTruthy) {w : World} (s : State)
    (h : Faultless (Run.runSteps RestLine.bodyMethods loaded bound place steps
      (State.surroundings service) w)) :
    ∃ outcome u sent s', Run.runSteps RestLine.bodyMethods loaded bound place steps
        (State.surroundings service) w = (.ok outcome, u) ∧ u.sent = w.sent ++ sent ∧
      stepThrough settings entries w.context.store (service.after w.sent.length) s =
        ⟨.ok ⟨outcome.results, u.context.store,
          outcome.failed.map fun (name, e) => .ofStepError e (some name)⟩, s', sent⟩ := by
  -- The calls go on from the variables and the replies that the run has left in its world.
  induction entries generalizing place steps w s with
  | nil =>
    cases hload
    exact ⟨⟨none, []⟩, w, [], s, rfl, (List.append_nil _).symm, rfl⟩
  | cons entry entries ih =>
    obtain ⟨hrestFirst, hrestOthers⟩ := List.forall_mem_cons.1 hrest
    obtain ⟨hid, hidsOthers⟩ := List.forall_mem_cons.1 hids
    rw [List.map_cons] at hload
    obtain ⟨members, hmembers, hcases⟩ := Demo.loadSteps_cons_ok hload
    obtain rfl := Value.object.inj hmembers
    obtain ⟨-, step, rest, hstep, hloadRest, rfl⟩ | ⟨habsent, -⟩ := hcases
    · have hname : Run.stepName step place = step.id :=
        if_neg (Demo.stepId_ne_empty (Demo.id_of_loadStep hstep) (Demo.defaultId_ne_empty place))
      obtain ⟨r, u, s', sent, hrun, hsent, hanswer⟩ := runStep_of_run hbound s
        (load_stepCall w.context.store hsettings hstep hid) (faultless_of_bind h)
      rw [Run.runSteps_cons_eq] at h ⊢
      rw [bind_run_of_ok hrun] at h ⊢
      unfold stepThrough
      rw [hanswer]
      cases r with
      | error e =>
        refine ⟨_, u, sent, s', rfl, hsent, ?_⟩
        rw [hname]
        rfl
      | ok result =>
        dsimp only [Except.mapError] at h ⊢
        obtain ⟨outcome, v, sent', s'', hsteps, hsent', hthrough⟩ :=
          ih hloadRest hrestOthers hidsOthers s' (faultless_of_bind h)
        rw [hsent, List.length_append, ← Service.after_after] at hthrough
        rw [bind_run_of_ok hsteps, hthrough]
        refine ⟨_, v, sent ++ sent', s'', rfl, ?_, rfl⟩
        rw [hsent', hsent, List.append_assoc]
    · exact absurd hrestFirst habsent

/-- A demo that is run without a fault has the answer and the requests of its steps. -/
theorem runUnder_of_answer {id : String} {demo : Demo} {store : Store}
    (h : ∀ f, (runUnder id demo store service s).answer ≠ .error (.fault f)) :
    Faultless (runOf id demo store service s.issued) ∧
      ∀ outcome u, runOf id demo store service s.issued = (.ok outcome, u) →
        (runUnder id demo store service s).answer = .ok (.ofOutcome id outcome u.context.store) ∧
        (runUnder id demo store service s).sent = u.sent := by
  unfold runUnder at h ⊢
  dsimp only [State.emit] at h ⊢
  match hstart : (runLogger id).emit (startEvent id demo) s.outputs with
  | (.error f, outputs) =>
    rw [hstart] at h
    exact absurd rfl (h f)
  | (.ok _, outputs) =>
    rw [hstart] at h
    have hrun : State.run (Run.run RestLine.bodyMethods demo []) (runLogger id) service
        ⟨id, store, []⟩ { s with outputs } =
        ((runOf id demo store service s.issued).1, (runOf id demo store service s.issued).2,
          State.after (runLogger id) (runOf id demo store service s.issued).2 { s with outputs }) :=
      rfl
    dsimp only at h ⊢
    rw [hrun] at h ⊢
    match hout : runOf id demo store service s.issued with
    | (.error (.step e), u) => exact ⟨faultless_step, fun _ _ h => nomatch h⟩
    | (.error (.fault f), u) =>
      rw [hout] at h
      exact absurd rfl (h f)
    | (.ok outcome, u) =>
      rw [hout] at h
      refine ⟨faultless_ok, ?_⟩
      rintro _ _ ⟨⟩
      dsimp only at h ⊢
      match hend : (runLogger id).emit (endEvent id outcome.isOk)
          (State.after (runLogger id) u { s with outputs }).outputs with
      | (.error f, outputs') =>
        rw [hend] at h
        exact absurd rfl (h f)
      | (.ok _, outputs') => exact ⟨rfl, rfl⟩

/-- Stepping through a demo, each step by a call with the variables that the one before it returned,
up to the first that fails, sends the requests of the run of the demo, and comes to the same results
and variables and to the same failure. -/
theorem stepThrough_eq_runDemo {call : DemoCall} {demo : Demo} {entries : List (Table Value)}
    (hload : Demo.load call.demo = .ok demo)
    (hsettings : Table.get? "settings" call.demo = some (.object settings))
    (hsteps : (Value.field "steps" call.demo).orElse (.list []) = .list (entries.map .object))
    (hrest : ∀ entry ∈ entries, Table.has "rest" entry)
    (hids : ∀ entry ∈ entries, (Value.field "id" entry).isTruthy)
    (hfault : ∀ f, (runDemo call service s).answer ≠ .error (.fault f)) (s' : State) :
    ∃ answer, (runDemo call service s).answer = .ok answer ∧
      (stepThrough settings entries call.store service s').answer =
        .ok ⟨answer.results, answer.store, answer.failed.map Prod.snd⟩ ∧
      (stepThrough settings entries call.store service s').sent = (runDemo call service s).sent := by
  have hhandled : runDemo call service s =
      runUnder (s.names.name (s.issued + 1)) demo call.store service s.freshId.2 := by
    simp only [runDemo, hload]
    rfl
  have hid : s.names.name (s.issued + 1) ≠ "" := s.names.ne_empty _
  -- The name is put aside so that its digits are not looked at.
  generalize s.names.name (s.issued + 1) = id at hhandled hid
  rw [hhandled] at hfault ⊢
  obtain ⟨hfaultless, hanswer⟩ := runUnder_of_answer hfault
  obtain ⟨loadedFrom, parts, hmapping, hloaded, hparts, hrow, -⟩ := Demo.exists_of_load hload
  have hsettings' : loadedFrom = settings := by
    rw [Demo.mappingField, Value.field, hsettings] at hmapping
    cases settings <;> exact (Except.ok.inj hmapping).symm
  have hentries : parts = entries.map .object := by
    rw [hsteps] at hparts
    exact (Except.ok.inj hparts).symm
  subst hsettings' hentries
  rw [runOf_eq hid] at hfaultless hanswer
  have hbound : Bindable [("run_id", .text id)] := Bindable.nil.set "run_id" id
  obtain ⟨outcome, u, sent, s'', hrun, hsent, hthrough⟩ :=
    stepThrough_eq_runSteps hloaded hbound hrow hrest hids s' hfaultless
  obtain ⟨hanswer, hsent'⟩ := hanswer _ _ hrun
  have hstart : (World.start none ⟨id, call.store, []⟩ s.freshId.2.issued).sent.length = 0 := rfl
  rw [hstart, Service.after_zero] at hthrough
  change stepThrough loadedFrom entries call.store service s' = _ at hthrough
  refine ⟨_, hanswer, ?_, ?_⟩
  · rw [hthrough]
    dsimp only [DemoAnswer.ofOutcome]
    rw [Option.map_map]
    rfl
  · rw [hthrough, hsent', hsent]
    rfl

/-- Where a job is created that is never done. -/
def idleService : Service :=
  Service.ofList [.answer ⟨201, "\x7b\"id\": 5\x7d"⟩, .answer Poll.newJob]

def idleHandled : Handled DemoAnswer := runDemo jobCall idleService (State.start .counted .blank 1)

/-- The job that is never done fails the first of two steps, when its number has been saved; stepping
stops there as well, and sends the same four requests. -/
theorem stepThrough_eq_runDemo_idle :
    (Demo.load jobCall.demo = .ok Run.jobDemo ∧
      Table.get? "settings" jobCall.demo = some (.object jobSettings) ∧
      (Value.field "steps" jobCall.demo).orElse (.list []) = .list (jobEntries.map .object) ∧
      (∀ entry ∈ jobEntries, Table.has "rest" entry) ∧
      (∀ entry ∈ jobEntries, (Value.field "id" entry).isTruthy) ∧
      ∀ f, idleHandled.answer ≠ .error (.fault f)) ∧
    idleHandled.sent.length = 4 ∧
    ∃ answer, idleHandled.answer = .ok answer ∧ answer.failed.map Prod.fst = some "create" ∧
      (stepThrough jobSettings jobEntries [] idleService (State.start .counted .blank 1)).answer =
        .ok ⟨answer.results, answer.store, answer.failed.map Prod.snd⟩ ∧
      (stepThrough jobSettings jobEntries [] idleService (State.start .counted .blank 1)).sent =
        idleHandled.sent := by
  have hsettings : Table.get? "settings" jobCall.demo = some (.object jobSettings) := rfl
  have hsteps : (Value.field "steps" jobCall.demo).orElse (.list []) =
      .list (jobEntries.map .object) := rfl
  have hrest : ∀ entry ∈ jobEntries, Table.has "rest" entry := by decide
  have hids : ∀ entry ∈ jobEntries, (Value.field "id" entry).isTruthy := by decide
  have hfailed : idleHandled.answer.toOption.bind (fun answer => answer.failed.map Prod.fst) =
      some "create" := by decide +kernel
  have hsent : idleHandled.sent.length = 4 := by decide +kernel
  have hfault : ∀ f, idleHandled.answer ≠ .error (.fault f) := by
    intro f hf
    rw [hf] at hfailed
    cases hfailed
  refine ⟨⟨load_jobCall, hsettings, hsteps, hrest, hids, hfault⟩, hsent, ?_⟩
  obtain ⟨answer, hanswer, hthrough⟩ :=
    stepThrough_eq_runDemo load_jobCall hsettings hsteps hrest hids hfault (State.start .counted .blank 1)
  have hanswer' : idleHandled.answer = .ok answer := hanswer
  rw [hanswer'] at hfailed
  exact ⟨answer, hanswer', hfailed, hthrough⟩

end RestDemo.Server

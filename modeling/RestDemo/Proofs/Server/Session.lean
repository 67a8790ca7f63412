import RestDemo.Proofs.Demo.Loading
import RestDemo.Proofs.Server.Log
import RestDemo.Server.Session

/-!
# Sessions

Calls come one after another, whatever comes of each of them. `history` lists the runs of all demos
that were loaded, each with all that there is to tell of it. The server keeps the latest of these
runs as they are in the history and nothing else (`logs_afterAll`), so that is what the calls for the
runs and for their logs find (`session_keeps_latest`). The names of the runs are any of which none
comes twice.
-/

namespace RestDemo.Server

open Engine

/-- A call, and the service as it is while the call is handled. -/
structure Visit where
  call : Call
  service : Service

/-- The state after calls one after another. -/
def State.afterAll : List Visit → State → State
  | [], s => s
  | v :: visits, s => afterAll visits (handle v.call v.service s).state

/-- The run of a call for a demo that loads, with all that there is to tell of it. -/
def loadedRun (v : Visit) (s : State) : Table (List Event) :=
  match v.call with
  | .demo call =>
    match Demo.load call.demo with
    | .ok demo =>
      let id := s.names.name (s.issued + 1)
      [(id, runLog id demo (runOf id demo call.store v.service (s.issued + 1)))]
    | .error _ => []
  | _ => []

/-- The runs of all demos that were loaded, the first one first. -/
def history : List Visit → State → Table (List Event)
  | [], _ => []
  | v :: visits, s => loadedRun v s ++ history visits (handle v.call v.service s).state

/-- The call as it comes to a server: the document of a demo was read from a text, and the length of
that text can be written. -/
def Call.Received : Call → Prop
  | .demo call => ∃ text payload, Json.read text = .ok (.object payload) ∧
      DemoCall.ofPayload payload = .ok call ∧ text.length < 10 ^ (Number.maxDigits - 1)
  | _ => True

variable {v : Visit} {visits : List Visit} {s : State} {limit : Nat} {past : Table (List Event)}

/-! ## The start of a run -/

theorem of_mappingUnder {P : Value → Prop} {payload : Table Value} (name : String)
    (hobject : ∀ members, P (.object members) → ∀ p ∈ members, P p.2)
    (h : ∀ p ∈ payload, P p.2) : ∀ p ∈ mappingUnder name payload, P p.2 := by
  unfold mappingUnder
  cases hget : Table.get? name payload with
  | none => exact fun _ hp => nomatch hp
  | some v =>
    cases v with
    | object members => exact hobject members (h _ (Table.mem_of_get? hget))
    | _ => exact fun _ hp => nomatch hp

/-- The start of a run can be written, if its demo was read from a text. -/
theorem sound_startEvent_of_received {call : DemoCall} {demo : Demo}
    (hreceived : (Call.demo call).Received) (hload : Demo.load call.demo = .ok demo) (id : String) :
    (startEvent id demo).Sound := by
  obtain ⟨text, payload, hread, hpayload, hlength⟩ := hreceived
  have hdemo : call.demo = mappingUnder "demo" payload := by
    unfold DemoCall.ofPayload accept at hpayload
    split at hpayload
    · cases hpayload
      rfl
    · cases hpayload
  rw [hdemo] at hload
  have hwritable := of_mappingUnder "demo" (fun _ => Json.writable_object.1)
    (Json.writable_object.1 (Json.writable_of_read hread))
  have hobject : ∀ {members : Table Value}, Json.Within (2 * text.length + 2) (.object members) →
      ∀ p ∈ members, Json.Within (2 * text.length + 2) p.2 := by
    rintro members (_ | _ | _ | _ | _ | _ | ⟨_, h⟩)
    exact h
  have hwithin := of_mappingUnder "demo" (fun _ => hobject)
    (hobject (Json.within_of_read hread))
  refine sound_startEvent (Demo.writable_title hload hwritable) ?_ id
  have hsteps := Demo.length_steps_le hload hwithin
  have hdigits : Number.maxDigits - 1 + 1 = Number.maxDigits := rfl
  have hpow := Nat.pow_succ 10 (Number.maxDigits - 1)
  rw [Nat.succ_eq_add_one, hdigits] at hpow
  rw [hpow]
  omega

/-! ## One call -/

theorem logs_run_console {α : Type} (x : Engine α) (bound : Table Value) (service : Service)
    (context : RunContext) (s : State) :
    (s.run x (.single .console bound) service context).2.2.outputs.logs = s.outputs.logs := by
  unfold State.run
  match x (State.surroundings service) (World.start none context s.issued) with
  | (r, w) => exact Logger.logs_emitAll_console bound w.events s.outputs

theorem logs_proxy (origin : Origin) (call : ProxyCall) (service : Service) (s : State) :
    (proxy origin call service s).state.outputs.logs = s.outputs.logs := by
  unfold proxy
  dsimp only
  split
  · rfl
  · cases call.request origin (call.method.getD "") (call.url.getD "") with
    | error f => rfl
    | ok request =>
      exact logs_run_console (passOn request (call.method.getD "")) [] service .empty s

theorem logs_runStep (call : StepCall) (service : Service) (s : State) :
    (runStep call service s).state.outputs.logs = s.outputs.logs := by
  unfold runStep
  cases call.load with
  | error e => rfl
  | ok loaded =>
    obtain ⟨step, settings⟩ := loaded
    have hlogs := logs_run_console (Engine.attempt (step.execute RestLine.bodyMethods settings []))
      [("request_id", .text s.freshId.1)] service ⟨"", call.store, []⟩ s.freshId.2
    dsimp only
    rcases hrun : s.freshId.2.run (Engine.attempt (step.execute RestLine.bodyMethods settings []))
      (.single .console [("request_id", .text s.freshId.1)]) service ⟨"", call.store, []⟩
      with ⟨e | outcome, w, s'⟩ <;> rw [hrun] at hlogs <;> exact hlogs

/-- A call changes no log unless it runs a demo that loads. -/
theorem logs_handle_of_nil (h : loadedRun v s = []) :
    (handle v.call v.service s).state.outputs.logs = s.outputs.logs := by
  obtain ⟨call, service⟩ := v
  cases call with
  | health => rfl
  | runs => rfl
  | logs run step => rfl
  | proxy origin call => exact logs_proxy origin call service s
  | step call => exact logs_runStep call service s
  | demo call =>
    unfold loadedRun at h
    dsimp only [handle, Handled.map, runDemo] at h ⊢
    cases hload : Demo.load call.demo with
    | error e => rfl
    | ok demo =>
      rw [hload] at h
      cases h

theorem loadedRun_cases (v : Visit) (s : State) :
    loadedRun v s = [] ∨ ∃ call demo, v.call = .demo call ∧ Demo.load call.demo = .ok demo ∧
      loadedRun v s = [(s.names.name (s.issued + 1), runLog (s.names.name (s.issued + 1)) demo
        (runOf (s.names.name (s.issued + 1)) demo call.store v.service (s.issued + 1)))] := by
  obtain ⟨call, service⟩ := v
  cases call with
  | demo call =>
    cases hload : Demo.load call.demo with
    | error e =>
      left
      simp only [loadedRun, hload]
    | ok demo =>
      right
      exact ⟨call, demo, rfl, hload, by simp only [loadedRun, hload]⟩
  | _ => exact .inl rfl

/-- A call adds the run of a demo that loads to the latest ones. -/
theorem logs_handle (hlimit : 0 < limit) (hlogs : s.logs = ⟨limit, LogStore.latest limit past⟩)
    (hreceived : v.call.Received) (hnodup : (past ++ loadedRun v s).names.Nodup) :
    (handle v.call v.service s).state.logs =
      ⟨limit, LogStore.latest limit (past ++ loadedRun v s)⟩ := by
  rcases loadedRun_cases v s with hrun | ⟨call, demo, hcall, hload, hrun⟩
  · rw [State.logs, logs_handle_of_nil hrun, ← State.logs, hlogs, hrun, List.append_nil]
  · rw [hrun] at hnodup ⊢
    rw [hcall] at hreceived ⊢
    have hid := s.names.ne_empty (s.issued + 1)
    have hstart := sound_startEvent_of_received hreceived hload (s.names.name (s.issued + 1))
    have hroom : 0 < s.logs.limit := by
      rw [hlogs]
      exact hlimit
    have hnew : ¬ s.logs.has (s.names.name (s.issued + 1)) := by
      rw [hlogs]
      rw [Table.names_append] at hnodup
      intro hhas
      have hmem := Table.has_iff_mem_names.1 hhas
      have hpast := List.map_subset Prod.fst (List.drop_subset _ _) hmem
      exact (List.nodup_append.1 hnodup).2.2 _ hpast _ (List.mem_singleton_self _) rfl
    obtain ⟨console, hunder⟩ := runUnder_eq (s := s.freshId.2) hid hstart call.store
      v.service hroom
    have hhandle : (handle (.demo call) v.service s).state =
        (runUnder (s.names.name (s.issued + 1)) demo call.store v.service s.freshId.2).state := by
      simp only [handle, Handled.map, runDemo, hload]
      rfl
    rw [hhandle, hunder _ rfl, State.logs, extended_logs]
    change s.logs.extend (s.names.name (s.issued + 1)) _ = _
    rw [LogStore.extend, if_neg hnew, hlogs]
    dsimp only
    rw [LogStore.latest_append]
    rfl

/-! ## Many calls -/

theorem logs_afterAll (hlimit : 0 < limit) (visits : List Visit) (s : State)
    (past : Table (List Event)) (hlogs : s.logs = ⟨limit, LogStore.latest limit past⟩)
    (hreceived : ∀ v ∈ visits, v.call.Received)
    (hnodup : (past ++ history visits s).names.Nodup) :
    (State.afterAll visits s).logs =
      ⟨limit, LogStore.latest limit (past ++ history visits s)⟩ := by
  -- The runs before are any, so that they can be those up to and with the first call.
  induction visits generalizing s past with
  | nil => rw [State.afterAll, hlogs, history, List.append_nil]
  | cons v visits ih =>
    rw [history, ← List.append_assoc] at hnodup ⊢
    have hfirst : (past ++ loadedRun v s).names.Nodup := by
      rw [Table.names_append] at hnodup
      exact (List.nodup_append.1 hnodup).1
    have hstep := logs_handle hlimit hlogs (hreceived v List.mem_cons_self) hfirst
    exact ih _ _ hstep (fun v hmem => hreceived v (List.mem_cons_of_mem _ hmem)) hnodup

theorem history_starts (visits : List Visit) (s : State) :
    ∀ r ∈ history visits s, ∃ demo es, r.2 = startEvent r.1 demo :: es := by
  induction visits generalizing s with
  | nil => exact fun r hr => nomatch hr
  | cons v visits ih =>
    refine List.forall_mem_append.2 ⟨?_, ih _⟩
    rcases loadedRun_cases v s with hrun | ⟨call, demo, -, -, hrun⟩
    · rw [hrun]
      exact fun r hr => nomatch hr
    · rw [hrun, List.forall_mem_singleton]
      refine ⟨demo, ?_⟩
      dsimp only
      rcases runOf (s.names.name (s.issued + 1)) demo call.store v.service (s.issued + 1)
        with ⟨e | outcome, w⟩
      · exact ⟨_, rfl⟩
      · exact ⟨_, rfl⟩

/-- After any calls, the runs that are there are the latest of those whose demos were loaded, as many
as there is room for, the oldest first and none twice. Each has all that there is to tell of it in
its log, from its start on, and a run that is not among them has no log. Only a call for a demo that
loads changes a log. -/
theorem session_keeps_latest (names : Names) (console : Console) {limit : Nat} (hlimit : 0 < limit)
    (visits : List Visit) (hreceived : ∀ v ∈ visits, v.call.Received)
    (hnodup : (history visits (State.start names console limit)).names.Nodup) :
    let s := State.afterAll visits (State.start names console limit)
    let runs := history visits (State.start names console limit)
    let kept : Table (List Event) := runs.drop (runs.length - limit)
    (∀ service, (handle .runs service s).answer = .ok (.runs kept.names)) ∧
      kept.length = min limit runs.length ∧ kept.names.Nodup ∧
      (∀ run step service, run ∉ kept.names → (handle (.logs run step) service s).answer =
        .error (.status 404 ("Run not found: " ++ run))) ∧
      (∀ run log step service, (run, log) ∈ kept → (handle (.logs run step) service s).answer =
        .ok (.logs (log.filter fun e => e.OfStep step))) ∧
      (∀ run log, (run, log) ∈ kept → ∃ demo es, log = startEvent run demo :: es) ∧
      ∀ v, loadedRun v s = [] →
        (handle v.call v.service s).state.outputs.logs = s.outputs.logs := by
  intro s runs kept
  have hlogs : s.logs = ⟨limit, kept⟩ := by
    have hempty : (State.start names console limit).logs = ⟨limit, LogStore.latest limit []⟩ := by
      rw [LogStore.latest, List.drop_nil]
      rfl
    have h := logs_afterAll hlimit visits (State.start names console limit) [] hempty hreceived
      (by rwa [List.nil_append])
    rwa [List.nil_append] at h
  have hkept : kept.names.Nodup := hnodup.sublist ((List.drop_sublist _ _).map Prod.fst)
  refine ⟨fun service => ?_, ?_, hkept, fun run step service hrun => ?_,
    fun run log step service hrun => ?_, fun run log hrun => ?_, fun v => logs_handle_of_nil⟩
  · change Except.ok (Answer.runs s.logs.ids) = _
    rw [hlogs]
    rfl
  · rw [List.length_drop]
    omega
  · have hhas : ¬ s.logs.has run := by
      rw [hlogs]
      exact fun h => hrun (Table.has_iff_mem_names.1 h)
    change (logsOf run step s).map Answer.logs = _
    rw [logsOf, if_neg hhas]
    rfl
  · have hget : s.logs.runs.get? run = some log := by
      rw [hlogs]
      exact Table.get?_of_mem hkept hrun
    have hhas : s.logs.has run := by
      rw [LogStore.has, Table.has, hget]
      rfl
    change (logsOf run step s).map Answer.logs = _
    rw [logsOf, if_pos hhas, LogStore.events, hget, Event.filter_belongsTo]
    rfl
  · exact history_starts visits _ _ (List.drop_subset _ _ hrun)

/-- A call that looks at a job, as it comes. -/
def lookText : String :=
  "\x7b\"demo\": \x7b\"steps\": [\x7b\"rest\": \"GET /jobs/5\"\x7d]\x7d\x7d"

def lookCall : DemoCall :=
  ⟨[("steps", .list [.object [("rest", .text "GET /jobs/5")]])], []⟩

/-- Looks at a job twice; the second time the client crashes. -/
def lookTwice : List Visit :=
  [⟨.demo lookCall, Service.ofList [.answer Poll.newJob]⟩,
    ⟨.demo lookCall, Service.ofList [.crash "out of memory"]⟩]

theorem lookCall_received : (Call.demo lookCall).Received := by
  refine ⟨lookText.toList, [("demo", .object lookCall.demo)], by cbv, rfl, ?_⟩
  have hlength : lookText.toList.length < 10 ^ 2 := by decide
  exact Nat.lt_of_lt_of_le hlength (Nat.pow_le_pow_right (by decide) (by decide))

/-- What the server keeps after the two calls, where there is room for one run. -/
def lookedTwice : State := State.afterAll lookTwice (State.start .counted .blank 1)

/-- The run that there is room for. -/
def lookedLast : Table (List Event) :=
  (history lookTwice (State.start .counted .blank 1)).drop
    ((history lookTwice (State.start .counted .blank 1)).length - 1)

/-- Its events. -/
def lookedLog : List Event := lookedLast.flatMap Prod.snd

/-- Where there is room for one run, the second one takes it, though it crashed. It told of its start
and then of its step, until the request was sent. -/
theorem session_keeps_latest_look_twice :
    (0 < 1 ∧ (∀ v ∈ lookTwice, v.call.Received) ∧
      (history lookTwice (State.start .counted .blank 1)).names.Nodup) ∧
    (handle .runs (Service.ofList []) lookedTwice).answer = .ok (.runs [issuedId 2]) ∧
      (handle (.logs (issuedId 1) none) (Service.ofList []) lookedTwice).answer =
        .error (.status 404 ("Run not found: " ++ issuedId 1)) ∧
      (∀ step, (handle (.logs (issuedId 2) step) (Service.ofList []) lookedTwice).answer =
        .ok (.logs (lookedLog.filter fun e => e.OfStep step))) ∧
      lookedLog.map Event.name = ["run.start", "step.start", "rest.request"] ∧
      (lookedLog.filter fun e => e.OfStep (some "step-1")).map Event.name =
        ["step.start", "rest.request"] ∧
      (lookedLog.filter fun e => e.OfStep (some "step-2")).map Event.name = [] := by
  have hreceived : ∀ v ∈ lookTwice, v.call.Received := by
    intro v hv
    rcases List.mem_cons.1 hv with rfl | hv
    · exact lookCall_received
    · obtain rfl := List.mem_singleton.1 hv
      exact lookCall_received
  have hnodup : (history lookTwice (State.start .counted .blank 1)).names.Nodup := by decide +kernel
  have hkept : lookedLast.names = [issuedId 2] := by decide +kernel
  have hfirst : issuedId 1 ∉ lookedLast.names := by
    rw [hkept]
    decide +kernel
  have hlast : (issuedId 2, lookedLog) ∈ lookedLast := by
    obtain ⟨⟨id, log⟩, hone, rfl⟩ := List.map_eq_singleton_iff.1 hkept
    rw [lookedLog, hone, List.flatMap_singleton]
    exact List.mem_singleton_self _
  obtain ⟨hruns, -, -, habsent, hlogs, -⟩ :=
    session_keeps_latest .counted .blank (by decide) lookTwice hreceived hnodup
  exact ⟨⟨by decide, hreceived, hnodup⟩, (hruns _).trans (congrArg (Except.ok ∘ Answer.runs) hkept),
    habsent _ _ _ hfirst, fun step => hlogs _ _ _ _ hlast, by decide +kernel, by decide +kernel,
    by decide +kernel⟩

end RestDemo.Server

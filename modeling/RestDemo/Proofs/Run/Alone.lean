import RestDemo.Proofs.Log.Logger
import RestDemo.Proofs.Run.Later
import RestDemo.Proofs.Run.Trace
import RestDemo.Proofs.Step.Coupled

/-!
# Steps alone

A step that is run by itself, from the variables that there are, does what it does in a run: it sends
the same requests to a service that has the replies left, and comes to the same result with the same
variables (`runStep_alone`). It makes no difference that other fields are bound to its log, as long
as these can be written.
-/

namespace RestDemo

/-- The second world is that of a step alone: it has the variables of the first one, in which more
requests were sent before. -/
structure World.Alone (past : List Request) (w w' : World) : Prop where
  store : w'.context.store = w.context.store
  sent : w.sent = past ++ w'.sent

/-- The fields can be bound to a log: no name comes twice, and all of them can be written. -/
structure Bindable (bound : Table Value) : Prop where
  nodup : bound.names.Nodup
  writable : ∀ p ∈ bound, Json.Writable p.2

theorem Bindable.nil : Bindable [] := ⟨List.nodup_nil, fun _ h => nomatch h⟩

theorem Bindable.set {bound : Table Value} (h : Bindable bound) (name text : String) :
    Bindable (Table.set name (.text text) bound) where
  nodup := Table.nodup_set h.nodup name _
  writable := by
    intro p hp
    rcases Table.mem_of_mem_set hp with rfl | hp
    · exact Json.writable_text text
    · exact h.writable p hp

theorem Bindable.boundTo {bound : Table Value} (h : Bindable bound) (step : Step) :
    Bindable (Step.boundTo bound step) := by
  unfold Step.boundTo
  by_cases hid : step.id = ""
  · rwa [if_pos hid]
  · rw [if_neg hid]
    exact h.set _ _

/-- Whether an event can be written does not depend on what is bound. -/
theorem Bindable.unwritable_iff {bound : Table Value} (h : Bindable bound) (level : Level)
    (name : String) (fields : Table Value) :
    Event.unwritable ⟨level, name, bound.overlay fields⟩ = none ↔
      Event.unwritable ⟨level, name, Table.ofList fields⟩ = none := by
  rw [Event.unwritable_eq_none_iff, Event.unwritable_eq_none_iff, Json.writable_object,
    Json.writable_object]
  exact Table.forall_mem_overlay_iff h.nodup h.writable fields

open Engine

variable {s : Surroundings} {bound bound' : Table Value} {step : Step}

theorem coupled_log_alone (hs : s.refuses = Event.unwritable) (past : List Request)
    (hbound : Bindable bound) (hbound' : Bindable bound') (level : Level) (name : String)
    (fields : Table Value) :
    Coupled False s (s.later past.length) (World.Alone past) Eq (log bound level name fields)
      (log bound' level name fields) := by
  intro w w' hw
  have hiff := (hbound'.unwritable_iff level name fields).trans
    (hbound.unwritable_iff level name fields).symm
  have hrefuses : (s.later past.length).refuses = Event.unwritable := hs
  simp only [log, Engine.tell, hs, hrefuses]
  cases hfirst : Event.unwritable ⟨level, name, bound.overlay fields⟩ with
  | some f => exact .first f _ _
  | none =>
    rw [hiff.2 hfirst]
    exact .ok rfl ⟨hw.store, hw.sent⟩

theorem coupling_alone (hs : s.refuses = Event.unwritable) (hnone : s.cancellation = none)
    (past : List Request) (hbound : Bindable bound) (hbound' : Bindable bound') :
    Coupling False s (s.later past.length) (World.Alone past) Eq Eq bound bound' where
  store hw := hw.store.symm
  set name v hst := by rw [hst]
  withStore hw hst := ⟨hst.symm, hw.sent⟩
  log := coupled_log_alone hs past hbound hbound'
  send := by
    rintro r _ rfl w w' hw
    have hservice : (s.later past.length).service.reply w'.sent.length =
        s.service.reply w.sent.length := by
      rw [hw.sent, List.length_append]
      rfl
    have hrequest : World.Alone past (w.request s r) (w'.request (s.later past.length) r) := by
      refine ⟨hw.store, ?_⟩
      rw [World.request_sent, World.request_sent, hw.sent, List.append_assoc]
    unfold Engine.send
    rw [hservice]
    cases s.service.reply w.sent.length with
    | answer a => exact .ok rfl hrequest
    | unreachable reason => exact .step _ hrequest
    | crash text => exact .first _ _ _
  requestTime := by
    intro w w' hw
    have hclock : (s.later past.length).service.clock.request w'.sent.length =
        s.service.clock.request w.sent.length := by
      rw [hw.sent, List.length_append]
      rfl
    rw [requestTime_run, requestTime_run, hclock]
    exact .ok rfl hw
  pause seconds := by
    intro w w' hw
    have hnone' : (s.later past.length).cancellation = none := by
      rw [Surroundings.later, hnone]
      rfl
    unfold Engine.pause
    rw [hnone, hnone']
    exact .ok rfl ⟨hw.store, hw.sent⟩
  isCancelled := by
    intro w w' hw
    have hnone' : (s.later past.length).cancellation = none := by
      rw [Surroundings.later, hnone]
      rfl
    rw [isCancelled_run, isCancelled_run, hnone, hnone']
    exact .ok rfl hw

theorem pairing_eq (tolerant : Prop) (step : Step) (bodyMethods : List String)
    (settings : Settings) : step.Pairing tolerant Eq Eq Eq bodyMethods settings where
  unresolved := by
    rintro st _ rfl
    rfl
  prepare := by
    rintro st _ p rfl hp
    exact .inl ⟨p, hp, rfl, rfl, rfl⟩
  shown := by
    rintro q _ rfl
    exact ⟨rfl, rfl, rfl, rfl⟩
  polls := by
    rintro q _ rfl url
    rfl
  address := by
    rintro st _ spec - baseUrl rfl
    rfl

theorem execute_alone (bodyMethods : List String) (settings : Settings)
    (hs : s.refuses = Event.unwritable) (hnone : s.cancellation = none) (past : List Request)
    (hbound : Bindable bound) (hbound' : Bindable bound') (step : Step) :
    Coupled False s (s.later past.length) (World.Alone past) Eq
      (step.execute bodyMethods settings bound) (step.execute bodyMethods settings bound') := by
  have hcoupling := coupling_alone hs hnone past (hbound.boundTo step) (hbound'.boundTo step)
  refine (Step.coupled_execute hcoupling (pairing_eq False step bodyMethods settings)).mono ?_
  rintro ⟨request, status, body, polling⟩ ⟨request', status', body', polling'⟩ h
  obtain ⟨hrequest, hstatus, hbody, hpolling⟩ := h
  dsimp only at hrequest hstatus hbody hpolling
  rw [hrequest, hstatus, hbody, hpolling]

/-- What a step comes to in a run without a fault, it comes to alone. -/
theorem Run.runStep_alone {bodyMethods : List String} {settings : Settings} {place : Nat}
    {w w' : World} (hs : s.refuses = Event.unwritable) (hnone : s.cancellation = none)
    (hbound : Bindable bound) (hbound' : Bindable bound')
    (h : Faultless (runStep bodyMethods settings bound place step s w))
    (hw : World.Alone w.sent w w') :
    ∃ r u u', runStep bodyMethods settings bound place step s w = (.ok r, u) ∧
      Engine.attempt (step.execute bodyMethods settings bound') (s.later w.sent.length) w' =
        (.ok r, u') ∧
      World.Alone w.sent u u' := by
  have hstart : World.Alone w.sent (w.telling [startEntry bound place step]) w' :=
    ⟨hw.store, hw.sent⟩
  have hbeside := execute_alone bodyMethods settings hs hnone w.sent hbound hbound' step _ _ hstart
  obtain ⟨r, r', u, u', hx, hx', hpaired, halone⟩ :=
    hbeside.exists_of_faultless (faultless_execute h) False.elim
  obtain rfl : r' = r := by
    cases hpaired with
    | ok results => rw [results]
    | error => rfl
  refine ⟨r', _, u', runStep_run h hx, attempt_run hx', ?_⟩
  cases r' <;> exact ⟨halone.store, halone.sent⟩

end RestDemo

import RestDemo.Proofs.Engine.Before
import RestDemo.Proofs.Engine.Taken
import RestDemo.Proofs.Step.Body

/-!
# The body that is sent

A step with exact values hands over its request whatever becomes of it afterwards: the first request
that it sends has the text of its body, and the result reports the value that the text decodes to
(`execute_sends_body`). Nothing is asked of the service, of a cancellation or of the poll.
-/

namespace RestDemo

open Engine

/-! ## What can be told -/

namespace Masking

theorem writable_maskEntry (name : String) {v : Value} (h : Json.Writable v) :
    Json.Writable (maskEntry name v) := by
  unfold maskEntry
  split
  · exact Json.writable_null
  · split
    · exact Json.writable_text _
    · exact h

mutual

theorem writable_maskAll : ∀ v, Json.Writable v → Json.Writable (maskAll v)
  | .list items, h => by
    rw [maskAll, Json.writable_list]
    exact writable_maskItems items (Json.writable_list.1 h)
  | .object members, h => by
    rw [maskAll, Json.writable_object]
    exact writable_maskMembers members (Json.writable_object.1 h)
  | .null, h | .bool _, h | .int _, h | .float _, h | .text _, h => h

theorem writable_maskItems :
    ∀ vs, (∀ v ∈ vs, Json.Writable v) → ∀ v ∈ maskItems vs, Json.Writable v
  | [], h => h
  | v :: vs, h => by
    rw [List.forall_mem_cons] at h
    rw [maskItems, List.forall_mem_cons]
    exact ⟨writable_maskAll v h.1, writable_maskItems vs h.2⟩

theorem writable_maskMembers :
    ∀ ms : List (String × Value), (∀ p ∈ ms, Json.Writable p.2) →
      ∀ p ∈ maskMembers ms, Json.Writable p.2
  | [], h => h
  | (name, v) :: ms, h => by
    rw [List.forall_mem_cons] at h
    rw [maskMembers, List.forall_mem_cons]
    exact ⟨writable_maskEntry name (writable_maskAll v h.1), writable_maskMembers ms h.2⟩

end

theorem writable_maskTable {t : Table Value} (h : ∀ p ∈ t, Json.Writable p.2) :
    Json.Writable (.object (maskTable t)) := by
  rw [Json.writable_object, maskTable, Table.mapEntries, List.forall_mem_map]
  exact fun p hp => writable_maskEntry p.1 (h p hp)

end Masking

theorem Json.Exact.writable {v : Value} (h : Exact v) : Writable v := by
  obtain ⟨cs, hcs⟩ := exists_readsBack plain_spaced v h
  exact ⟨cs, hcs.written⟩

namespace Step

variable {s : Surroundings} {w : World} {step : Step} {bodyMethods : List String}
  {settings : Settings} {bound : Table Value} {prepared : Prepared}

theorem writable_boundTo (h : ∀ p ∈ bound, Json.Writable p.2) (step : Step) :
    ∀ p ∈ boundTo bound step, Json.Writable p.2 := by
  unfold boundTo
  split
  · exact h
  · intro p hp
    rcases Table.mem_of_mem_set hp with rfl | hp
    · exact Json.writable_text step.id
    · exact h p hp

/-- The world in which a step has told which variables have no value. -/
def warned (step : Step) (bound : Table Value) (w : World) : World :=
  w.telling (warning bound (unresolved step w.context.store))

theorem warnUnresolved_taken (hlog : s.Takes) (hbound : ∀ p ∈ bound, Json.Writable p.2)
    (step : Step) (w : World) : warnUnresolved step bound s w = (.ok (), warned step bound w) := by
  unfold warnUnresolved warned warning
  rw [store_bind_run]
  by_cases hnone : unresolved step w.context.store = []
  · rw [if_pos (List.isEmpty_iff.2 hnone), if_pos hnone, World.telling_nil]
    rfl
  · rw [if_neg (mt List.isEmpty_iff.1 hnone), if_neg hnone]
    refine log_taken hlog hbound ?_ _ _
    rw [List.forall_mem_singleton, Value.texts, Json.writable_list, List.forall_mem_map]
    exact fun name _ => Json.writable_text name

theorem writable_request {request : ResolvedRequest} (h : Json.Writable request.body) :
    ∀ p ∈ [("method", Value.text request.method), ("url", .text request.url),
      ("headers", .object (Masking.maskTable (request.headers.mapEntries fun _ s => .text s))),
      ("body", Masking.maskAll request.body)], Json.Writable p.2 := by
  have htexts : ∀ p ∈ request.headers.mapEntries fun _ s => Value.text s, Json.Writable p.2 := by
    rw [Table.mapEntries, List.forall_mem_map]
    exact fun p _ => Json.writable_text p.2
  simp only [List.forall_mem_cons]
  exact ⟨Json.writable_text _, Json.writable_text _, Masking.writable_maskTable htexts,
    Masking.writable_maskAll _ h, List.forall_mem_nil _⟩

/-- The warning is told before the request is, if there is one. -/
theorem exchange_of_warned (hlog : s.Takes) (hbound : ∀ p ∈ bound, Json.Writable p.2)
    (step : Step) (bodyMethods : List String) (settings : Settings) (w : World) :
    exchange step bodyMethods settings bound s w =
      (orFault (prepare step bodyMethods settings w.context.store) >>= fun prepared =>
        Engine.tell (requestEntry bound prepared.request) >>= fun _ =>
          send prepared.sent >>= receive step bound prepared) s (warned step bound w) := by
  unfold exchange
  rw [bind_run_of_ok (warnUnresolved_taken hlog hbound step w), store_bind_run]
  rfl

/-- A request with a body that can be written goes out, whatever was told before. -/
theorem exists_exchange_run (hlog : s.Takes) (hbound : ∀ p ∈ bound, Json.Writable p.2)
    (hprepared : prepare step bodyMethods settings w.context.store = .ok prepared)
    (hbody : Json.Writable prepared.request.body) :
    ∃ u, w.Told u ∧ exchange step bodyMethods settings bound s w =
      (send prepared.sent >>= receive step bound prepared) s u := by
  have hwarned : w.Told (warned step bound w) := .of_telling w _
  refine ⟨_, hwarned.trans (.of_telling _ [requestEntry bound prepared.request]), ?_⟩
  rw [exchange_of_warned hlog hbound, hprepared]
  exact bind_run_of_ok (log_taken hlog hbound (writable_request hbody) .info "rest.request")

/-- The request goes out first, and what comes of the step has it. -/
theorem exchange_sends (hlog : s.Takes) (hbound : ∀ p ∈ bound, Json.Writable p.2)
    (hprepared : prepare step bodyMethods settings w.context.store = .ok prepared)
    (hexact : Json.Exact prepared.request.body) :
    w.sent ++ [prepared.sent] <+: (exchange step bodyMethods settings bound s w).2.sent ∧
      ∀ first, (exchange step bodyMethods settings bound s w).1 = .ok first →
        first.request = prepared.request := by
  obtain ⟨u, htold, hrun⟩ := exists_exchange_run hlog hbound hprepared hexact.writable
  rw [hrun]
  constructor
  · have hadmits := step.admits_all bodyMethods settings bound
    have hafter : ∀ a, Leads s World.Before Exchange (receive step bound prepared a) :=
      closed_receive (before_running s).toClosed hadmits prepared
    have hbefore := Leads.bind_next (x := send prepared.sent) World.Before.refl hafter u
    rw [send_world] at hbefore
    have hsent : u.sent ++ [prepared.sent] <+: _ := hbefore.sent
    rwa [htold.sent_eq] at hsent
  · intro first hfirst
    obtain ⟨a, v, -, hfirst⟩ := exists_of_bind_ok hfirst
    obtain ⟨_, v, -, hfirst⟩ := exists_of_bind_ok hfirst
    obtain ⟨_, v, -, hfirst⟩ := exists_of_bind_ok hfirst
    obtain ⟨_, v, -, hfirst⟩ := exists_of_bind_ok hfirst
    cases hfirst
    rfl

/-- What follows the exchange leads on from where that ends. -/
theorem leads_execute {above : World → World → Prop} (refl : ∀ w, above w w)
    (hclosed : Closed.Pausing (fun _ => True) (fun _ => True) (Leads s above)) (step : Step)
    (bodyMethods : List String) (settings : Settings) (bound : Table Value) (w : World) :
    above (exchange step bodyMethods settings (boundTo bound step) s w).2
      (execute step bodyMethods settings bound s w).2 := by
  refine Leads.bind_next refl (fun first => ?_) w
  cases hpoll : step.poll with
  | none => exact hclosed.pure _
  | some spec =>
    refine hclosed.bind ?_ fun result => hclosed.pure _
    exact Poll.closed_run hclosed.polling (fun _ _ _ => trivial)
      (fun url => Poll.Plan.admits_all _) fun _ => trivial

/-- The result of a step has the request of its exchange. -/
theorem request_of_execute {result : StepResult}
    (h : (execute step bodyMethods settings bound s w).1 = .ok result) :
    ∃ first, (exchange step bodyMethods settings (boundTo bound step) s w).1 = .ok first ∧
      result.request = first.request := by
  obtain ⟨first, u, hfirst, hrest⟩ := exists_of_bind_ok h
  refine ⟨first, by rw [hfirst], ?_⟩
  cases hpoll : step.poll with
  | none =>
    rw [hpoll] at hrest
    cases hrest
    rfl
  | some spec =>
    rw [hpoll] at hrest
    obtain ⟨polled, v, -, hrest⟩ := exists_of_bind_ok hrest
    cases hrest
    rfl

/-- The first request that an exact step sends has the text of its body, and the body that the step
reports is the one that the text decodes to. -/
theorem execute_sends_body (hstep : step.WellTyped) (hexact : step.Exact)
    (hsettings : settings.WellTyped) (hstore : Store.Embeds w.context.store) (hlog : s.Takes)
    (hbound : ∀ p ∈ bound, Json.Writable p.2) (bodyMethods : List String) :
    ∃ request reported more,
      (execute step bodyMethods settings bound s w).2.sent = w.sent ++ request :: more ∧
      BodyOf step bodyMethods w.context.store request.body reported ∧
      ∀ result, (execute step bodyMethods settings bound s w).1 = .ok result →
        result.request.body = reported := by
  obtain ⟨prepared, hprepared, hbody, hbodyOf⟩ :=
    hexact.exists_prepare hstep hsettings hstore bodyMethods
  obtain ⟨hsends, hfirst⟩ := exchange_sends hlog (writable_boundTo hbound step) hprepared hbody
  have hbefore := leads_execute World.Before.refl (before_running s).toPausing step bodyMethods
    settings bound w
  obtain ⟨more, hmore⟩ := hsends.trans hbefore.sent
  refine ⟨prepared.sent, prepared.request.body, more, ?_, hbodyOf, ?_⟩
  · rw [← hmore, List.append_assoc, List.singleton_append]
  · intro result hresult
    obtain ⟨first, hexchange, hrequest⟩ := request_of_execute hresult
    rw [hrequest, hfirst first hexchange]

/-- Reports on a job, with a title from the variables and a list beside it. -/
def reportStep : Step where
  id := "report"
  title := .text "Report on a job"
  rest := "post /reports"
  headers := .null
  body := .object [("title", .text "$title"), ("pages", .list [.int 3, .null, .text "\"last\""])]
  form := none
  baseUrl := .null
  save := .null
  poll := none

/-- The title has quotes, a backslash, a line break and a character beyond the first plane. -/
def reportStore : Store := [("title", .text "\"jobs\" \\ \n𝄞")]

theorem exact_reportStep : reportStep.Exact where
  body := by
    have hpages : Json.Exact (.list [.int 3, .null, .text "\"last\""]) := by
      refine .list _ ?_
      simp only [List.forall_mem_cons]
      exact ⟨.digit (by decide), .null, .text _, fun _ h => nomatch h⟩
    refine .object _ (by decide) ?_
    simp only [List.forall_mem_cons]
    exact ⟨.text _, hpages, fun _ h => nomatch h⟩
  bodyDepth := by decide
  form _ h := nomatch h
  formDepth _ h := nomatch h
  headers _ h := nomatch h

/-- The report is sent with its title filled in, although no answer comes. -/
theorem execute_sends_body_report :
    ∃ request reported more,
      (execute reportStep RestLine.bodyMethods jobSettings []
        (.plain (.ofReplies fun _ => .crash "gone"))
        (.start none ⟨"", reportStore, []⟩ 0)).2.sent = [] ++ request :: more ∧
      BodyOf reportStep RestLine.bodyMethods reportStore request.body reported ∧
      ∀ result, (execute reportStep RestLine.bodyMethods jobSettings []
        (.plain (.ofReplies fun _ => .crash "gone"))
        (.start none ⟨"", reportStore, []⟩ 0)).1 = .ok result → result.request.body = reported := by
  have htyped : reportStep.WellTyped :=
    ⟨.inl rfl, (fun _ h => nomatch h), .inl rfl, .inl rfl, (fun _ h => nomatch h)⟩
  have hstore : Store.Embeds reportStore := by
    intro name v hv
    obtain ⟨-, rfl⟩ := Prod.mk.inj (List.mem_singleton.1 (Table.mem_of_get? hv))
    exact ⟨_, rfl⟩
  have hbound : ∀ p ∈ ([] : Table Value), Json.Writable p.2 := fun _ h => nomatch h
  exact execute_sends_body htyped exact_reportStep ⟨"http://api", rfl⟩ hstore (fun _ h => h) hbound
    RestLine.bodyMethods

end Step

end RestDemo

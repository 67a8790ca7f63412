import RestDemo.Proofs.Engine.Taken
import RestDemo.Proofs.Headers
import RestDemo.Proofs.Run.Cancellation

/-!
# The headers that a step sends

A step builds its headers once. Its own request has them and so has every request of its poll
(`sentWith_execute`), whatever comes of the step.
-/

namespace RestDemo.Step

open Engine

variable {s : Surroundings} {w u v : World} {headers : Table String} {step : Step}
  {bodyMethods : List String} {settings : Settings} {bound : Table Value}

/-- What has been sent since has these headers. -/
def SentWith (headers : Table String) (w u : World) : Prop :=
  ∃ more, u.sent = w.sent ++ more ∧ ∀ request ∈ more, request.headers = headers

namespace SentWith

theorem of_sent_eq (h : u.sent = w.sent) : SentWith headers w u :=
  ⟨[], by rw [h, List.append_nil], fun _ hr => nomatch hr⟩

theorem trans (h : SentWith headers w u) (h' : SentWith headers u v) : SentWith headers w v := by
  obtain ⟨more, hmore, hall⟩ := h
  obtain ⟨last, hlast, hall'⟩ := h'
  refine ⟨more ++ last, ?_, List.forall_mem_append.2 ⟨hall, hall'⟩⟩
  rw [hlast, hmore, List.append_assoc]

theorem request (w : World) {request : Request} (h : request.headers = headers) :
    SentWith headers w (w.request s request) :=
  ⟨[request], w.request_sent s request, List.forall_mem_singleton.2 h⟩

end SentWith

theorem polling_sentWith (s : Surroundings) (headers : Table String) :
    Closed.Polling (fun _ => True) (fun _ => True) (fun request => request.headers = headers)
      (Leads s (SentWith headers)) := by
  have hclosed : Closed (fun _ => True) (fun _ => True) (Leads s (SentWith headers)) :=
    Leads.closed (fun w => .of_sent_eq rfl) (fun _ _ _ h h' => h.trans h')
      (fun _ _ => .of_sent_eq rfl) fun _ _ _ _ => .of_sent_eq rfl
  exact Leads.polling hclosed (fun w _ hr => .request w hr) (fun _ _ => .of_sent_eq rfl)
    fun _ _ => .of_sent_eq rfl

/-- The result of an exchange has the request that was prepared. -/
theorem prepared_of_exchange {first : Exchange}
    (h : (exchange step bodyMethods settings bound s w).1 = .ok first) :
    ∃ prepared, prepare step bodyMethods settings w.context.store = .ok prepared ∧
      first.request = prepared.request := by
  have htold := told_warnUnresolved step bound s w
  obtain ⟨_, u, hwarn, h⟩ := exists_of_bind_ok h
  rw [hwarn] at htold
  rw [store_bind_run, htold.context_eq] at h
  obtain ⟨prepared, _, hprepared, h⟩ := exists_of_bind_ok h
  obtain ⟨_, _, -, h⟩ := exists_of_bind_ok h
  obtain ⟨_, _, -, h⟩ := exists_of_bind_ok h
  obtain ⟨_, _, -, h⟩ := exists_of_bind_ok h
  obtain ⟨_, _, -, h⟩ := exists_of_bind_ok h
  obtain ⟨_, _, -, h⟩ := exists_of_bind_ok h
  cases h
  cases hof : prepare step bodyMethods settings w.context.store with
  | error f =>
    rw [hof] at hprepared
    cases hprepared
  | ok prepared' =>
    rw [hof] at hprepared
    cases hprepared
    exact ⟨prepared, rfl, rfl⟩

/-- Every request of a step has the headers that are built from its store at first. -/
theorem sentWith_execute (h : Headers.build step.headers w.context.store = .ok headers) :
    SentWith headers w (execute step bodyMethods settings bound s w).2 := by
  have hheaders {prepared : Prepared}
      (hprepared : prepare step bodyMethods settings w.context.store = .ok prepared) :
      prepared.request.headers = headers :=
    Except.ok.inj ((resolves_of_prepare hprepared).headers.symm.trans h)
  have hexchange : SentWith headers w
      (exchange step bodyMethods settings (boundTo bound step) s w).2 := by
    rcases sent_of_exchange step bodyMethods settings (boundTo bound step) s w with
      hsent | ⟨prepared, hprepared, hsent⟩
    · exact .of_sent_eq hsent
    · exact ⟨[prepared.sent], hsent, List.forall_mem_singleton.2 (hheaders hprepared)⟩
  rw [execute, bind_run]
  rcases hrun : exchange step bodyMethods settings (boundTo bound step) s w with ⟨e | first, u⟩
  · rw [hrun] at hexchange
    exact hexchange
  · rw [hrun] at hexchange
    dsimp only at hexchange ⊢
    obtain ⟨prepared, hprepared, hfirst⟩ := prepared_of_exchange (congrArg Prod.fst hrun)
    have hpolling := polling_sentWith s headers
    have hsends : first.request.headers = headers := by rw [hfirst, hheaders hprepared]
    cases step.poll with
    | none => exact hexchange
    | some spec =>
      have hpoll : Leads s (SentWith headers) PollResult (Poll.run spec first.baseUrl
          first.request.headers settings.polling (boundTo bound step)) :=
        Poll.closed_run hpolling (fun _ _ _ => trivial) (fun _ => Poll.Plan.admits_all _)
          fun _ => hsends
      exact hexchange.trans (hpolling.bind hpoll (fun _ => hpolling.pure _) u)

/-- Header building neither loses nor doubles a header, and every request of a step has the
headers. -/
theorem requests_have_headers (step : Step) (w : World) {members : Table Value}
    (hstore : Store.Embeds w.context.store)
    (hgiven : step.headers.orElse (.object []) = .object members) (hnodup : members.names.Nodup)
    (hembeds : ∀ p ∈ members, p.2.Embeds) :
    ∃ headers, Headers.build step.headers w.context.store = .ok headers ∧
      Headers.BuiltFrom w.context.store members headers ∧
      ∀ s bodyMethods settings bound, ∃ more,
        (execute step bodyMethods settings bound s w).2.sent = w.sent ++ more ∧
          ∀ request ∈ more, request.headers = headers := by
  obtain ⟨headers, hbuild, hbuilt⟩ := Headers.exists_build hstore hgiven hnodup hembeds
  exact ⟨headers, hbuild, hbuilt, fun s bodyMethods settings bound => sentWith_execute hbuild⟩

/-- Creates a job with headers of its own, one of them that of the default in another spelling. -/
def kindStep : Step :=
  { jobStep with headers := .object [("X-Count", .int 2), ("content-TYPE", .text "$kind/plain")] }

theorem requests_have_headers_kind :
    ∃ headers, Headers.build kindStep.headers [("kind", .text "text")] = .ok headers ∧
      Headers.BuiltFrom [("kind", .text "text")]
        [("X-Count", .int 2), ("content-TYPE", .text "$kind/plain")] headers ∧
      ∃ more, (execute kindStep RestLine.bodyMethods jobSettings [] jobSurroundings
          (.start none ⟨"", [("kind", .text "text")], []⟩ 0)).2.sent = [] ++ more ∧
        ∀ request ∈ more, request.headers = headers := by
  have hstore : Store.Embeds [("kind", .text "text")] := by
    intro name v hv
    obtain ⟨-, rfl⟩ := Prod.mk.inj (List.mem_singleton.1 (Table.mem_of_get? hv))
    exact ⟨_, rfl⟩
  have hembeds : ∀ p ∈ [("X-Count", Value.int 2), ("content-TYPE", .text "$kind/plain")],
      p.2.Embeds := by
    simp only [List.forall_mem_cons]
    exact ⟨⟨_, rfl⟩, ⟨_, rfl⟩, List.forall_mem_nil _⟩
  obtain ⟨headers, hbuild, hbuilt, hsent⟩ := requests_have_headers kindStep
    (.start none ⟨"", [("kind", .text "text")], []⟩ 0) hstore rfl (by decide) hembeds
  exact ⟨headers, hbuild, hbuilt, hsent jobSurroundings RestLine.bodyMethods jobSettings []⟩

end RestDemo.Step

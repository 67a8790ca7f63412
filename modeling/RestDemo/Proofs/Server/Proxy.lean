import RestDemo.Proofs.Headers
import RestDemo.Proofs.RestLine
import RestDemo.Proofs.Step.Payload
import RestDemo.Proofs.Template.Unbound
import RestDemo.Proofs.Text.Casing
import RestDemo.Server.Proxy

/-!
# Requests that are passed on

A request that is passed on and the step with the same line, headers and body send one request each:
the same method, address and text of a body, or none at all if the body has no text
(`sent_of_proxy_and_step`). Their headers are the same mapping just if the request has no header of
the default's name in another spelling alone; the default gives way to such a header in a step, and
stands beside it where the request is passed on.
-/

namespace RestDemo

/-! ## Methods with a body -/

/-- The methods with a body are written in the letters of ASCII. -/
theorem RestLine.supportsBody_upper (method : String) :
    supportsBody bodyMethods (Text.upper method) = supportsBody bodyMethods method := by
  have hupper : ∀ name ∈ bodyMethods, Text.upper name = name := by decide +kernel
  have hascii : ∀ name ∈ bodyMethods, ∀ c ∈ name.toList, c.toNat < 0x80 := by
    simpa [List.all_eq_true] using
      (by decide : ∀ name ∈ bodyMethods, name.toList.all (·.toNat < 0x80))
  simp only [supportsBody, List.contains_eq_mem, decide_eq_decide]
  constructor
  · intro h
    rwa [← Text.upper_upper_of_ascii (hascii _ h)]
  · intro h
    rwa [hupper _ h]

/-! ## Headers -/

namespace Headers

theorem entries_texts (given : Table String) :
    entries (given.mapEntries fun _ s => .text s) = .ok given := by
  induction given with
  | nil => rfl
  | cons p given ih =>
    rw [Table.mapEntries_cons, entries, ih]
    exact congrArg (fun s => Except.ok ((p.1, s) :: given)) String.ofList_toList

theorem build_texts (given : Table String) :
    build (Value.textTable given) [] = .ok (overDefaults given) := by
  have hgiven : (Value.textTable given).orElse (.object []) = Value.textTable given := by
    cases given <;> rfl
  rw [build, hgiven, Template.fillValue_nil, Value.textTable]
  dsimp only [bind, Except.bind]
  rw [entries_texts]
  rfl

/-- Headers over all defaults, and headers to which defaults give way, are the same mapping unless
a header has the name of the default in other spellings only. -/
theorem overlay_defaults_agree_iff (given : Table String) :
    (∀ name, Table.get? name (overDefaults given) =
        Table.get? name (Table.overlay defaults given)) ↔
      ((∃ name ∈ given.names, Text.lower name = "content-type") →
        "Content-Type" ∈ given.names) := by
  rw [overDefaults_eq]
  by_cases h : ∃ name ∈ given.names, Text.lower name = "content-type"
  · rw [if_pos h]
    simp only [Table.get?_overlay, h, forall_const]
    constructor
    · intro hagree
      by_contra hmem
      have htype := hagree "Content-Type"
      rw [Table.get?_reverse_eq_none_iff.2 hmem] at htype
      cases htype
    · intro hmem name
      by_cases hname : name = "Content-Type"
      · subst hname
        have hgiven : Table.get? "Content-Type" given.reverse ≠ none :=
          fun hnone => Table.get?_reverse_eq_none_iff.1 hnone hmem
        obtain ⟨entry, hentry⟩ := Option.ne_none_iff_exists'.1 hgiven
        rw [hentry]
        rfl
      · have hnone : Table.get? name defaults = none := by
          rw [Table.get?_eq_none_iff]
          simpa [defaults] using hname
        rw [hnone]
        rfl
  · simp [h]

end Headers

/-! ## One step -/

namespace Step

open Engine

variable {s : Surroundings} {w : World} {step : Step} {bodyMethods : List String}
  {settings : Settings} {bound : Table Value}

theorem execute_world (h : step.poll = none) :
    (execute step bodyMethods settings bound s w).2 =
      (exchange step bodyMethods settings (boundTo bound step) s w).2 := by
  unfold execute
  rw [bind_run]
  match exchange step bodyMethods settings (boundTo bound step) s w with
  | (.error e, u) => rfl
  | (.ok first, u) =>
    dsimp only
    rw [h]
    rfl

/-- Where nothing is polled, a step that can be prepared sends one request. -/
theorem sent_of_execute {prepared : Prepared} (hpoll : step.poll = none) (hlog : s.Takes)
    (hbound : ∀ p ∈ bound, Json.Writable p.2)
    (hprepared : prepare step bodyMethods settings w.context.store = .ok prepared)
    (hbody : Json.Writable prepared.request.body) :
    (execute step bodyMethods settings bound s w).2.sent = w.sent ++ [prepared.sent] := by
  obtain ⟨u, htold, hrun⟩ :=
    exists_exchange_run hlog (writable_boundTo hbound step) hprepared hbody
  have hafter : ∀ a, Keeps s World.sent Exchange (receive step (boundTo bound step) prepared a) :=
    closed_receive (Keeps.closed (fun _ _ => rfl) fun _ _ => rfl)
      (step.admits_all bodyMethods settings (boundTo bound step)) prepared
  have hsent := Keeps.bind_next (x := send prepared.sent) hafter u
  rw [execute_world hpoll, hrun, hsent, send_world, World.request_sent, htold.sent_eq]

/-- A step that cannot be prepared sends nothing. -/
theorem sent_of_not_prepared {f : Fault} (hpoll : step.poll = none) (hlog : s.Takes)
    (hbound : ∀ p ∈ bound, Json.Writable p.2)
    (hprepared : prepare step bodyMethods settings w.context.store = .error f) :
    (execute step bodyMethods settings bound s w).2.sent = w.sent := by
  rw [execute_world hpoll, exchange_of_warned hlog (writable_boundTo hbound step), hprepared]
  rfl

end Step

namespace Server

open Engine

/-- The text of a body as it is sent with a method, if that has a body. -/
def bodyText (method : String) (body : Value) : Except Fault (Option String) :=
  if RestLine.supportsBody RestLine.bodyMethods method then Step.payload body else .ok none

/-- The step that does what a call to pass a request on asks for. -/
def stepOf (id : String) (title : Value) (method url : String) (headers : Table String)
    (body : Value) : Step where
  id := id
  title := title
  rest := method ++ " " ++ url
  headers := Value.textTable headers
  body := body
  form := none
  baseUrl := .null
  save := .null
  poll := none

variable {method url : String} {headers : Table String} {body : Value}

/-- The request that is passed on, if its body has a text. -/
theorem request_eq (origin : Origin) (hslash : url.toList.head? ≠ some '/') :
    ProxyCall.request ⟨some method, some url, headers, body⟩ origin method url =
      (bodyText method body).map fun text =>
        ⟨Text.upper method, url, Headers.defaults.overlay headers, text⟩ := by
  have hprefix : "/".toList.isPrefixOf url.toList = false := by
    cases hcs : url.toList with
    | nil => rfl
    | cons c cs =>
      rw [hcs] at hslash
      have hc : c ≠ '/' := by simpa using hslash
      simp [List.isPrefixOf, hc.symm]
  have hresolve : origin.resolve url = .ok url := by
    rw [Origin.resolve, hprefix]
    rfl
  rw [ProxyCall.request, hresolve, bodyText]
  by_cases hsupports : RestLine.supportsBody RestLine.bodyMethods method
  · simp only [hsupports, ↓reduceIte]
    cases body with
    | null => rfl
    | bool | int | float | text | list | object =>
      simp only [Step.payload]
      cases Json.text Json.spaced _ <;> rfl
  · simp only [hsupports]
    cases body <;> rfl

/-- The step is prepared from no variables if its body has a text. -/
theorem prepare_stepOf (hmethod : method ≠ "") (hword : ∀ c ∈ method.toList, ¬ Text.isBlank c)
    (hurl : url ≠ "") (htrim : Text.trim url.toList = url.toList) (id : String) (title : Value)
    {settings : Settings} (hbase : settings.baseUrl.isTruthy = false) :
    Step.prepare (stepOf id title method url headers body) RestLine.bodyMethods settings [] =
      (bodyText method body).map fun text =>
        ⟨"", ⟨Text.upper method, url, Headers.overDefaults headers,
          if RestLine.supportsBody RestLine.bodyMethods method then body else .null⟩, text⟩ := by
  have hbare : Text.Bare url.toList := by
    rw [← htrim]
    exact Text.bare_trim _
  have hsplit : RestLine.split (method ++ " " ++ url) = (Text.upper method, url) := by
    rw [(RestLine.parts_append hmethod hword hurl hbare).split_eq, String.ofList_toList,
      String.ofList_toList]
  have hbaseUrl : Step.resolvedBaseUrl (stepOf id title method url headers body) settings [] =
      .ok "" := by
    have hgiven : (Value.null.orElse settings.baseUrl).orElse (.text "") = .text "" := by
      have hnull : Value.null.orElse settings.baseUrl = settings.baseUrl := rfl
      rw [hnull, Value.orElse, hbase]
      rfl
    rw [Step.resolvedBaseUrl, stepOf, hgiven, Template.fillGiven, Template.fill_nil]
    rfl
  have hbody : Step.resolvedBody (stepOf id title method url headers body) RestLine.bodyMethods
      (Text.upper method) [] =
      .ok (if RestLine.supportsBody RestLine.bodyMethods method then body else .null) := by
    rw [Step.resolvedBody, RestLine.supportsBody_upper, stepOf]
    by_cases hbody : RestLine.supportsBody RestLine.bodyMethods method
    · simp only [hbody, ↓reduceIte, Template.fillValue_nil]
    · simp only [hbody]
      rfl
  rw [Step.prepare, bodyText]
  simp only [stepOf] at hbaseUrl hbody ⊢
  rw [hsplit]
  simp only [Template.fill_nil, hbaseUrl, hbody, Headers.build_texts]
  by_cases hsupports : RestLine.supportsBody RestLine.bodyMethods method
  · simp only [hsupports, ↓reduceIte]
    dsimp only [bind, Except.bind]
    cases Step.payload body <;> rfl
  · simp only [hsupports]
    rfl

/-- A body has no text just if the method has one and it cannot be written. -/
theorem exists_bodyText_error_iff :
    (∃ f, bodyText method body = .error f) ↔
      RestLine.supportsBody RestLine.bodyMethods method ∧ ¬ Json.Writable body := by
  unfold bodyText
  by_cases hsupports : RestLine.supportsBody RestLine.bodyMethods method
  · simp only [hsupports, ↓reduceIte, true_and]
    cases body with
    | null => simp [Step.payload, Json.writable_null]
    | bool | int | float | text | list | object =>
      simp only [Step.payload, Json.text, Json.Writable]
      cases Json.write Json.spaced _ <;> simp [Except.map]
  · simp [hsupports]

/-- A request that is passed on goes out once, whatever comes of it. -/
theorem sent_of_passOn (request : Request) (method : String) (s : Surroundings) (w : World) :
    (passOn request method s w).2.sent = w.sent ++ [request] := by
  have hattempt : (attempt (send request) s w).2 = w.request s request := by
    rw [← send_world]
    unfold attempt
    rcases send request s w with ⟨(e | f) | a, u⟩ <;> rfl
  have hclosed : Closed (fun _ => True) (fun _ => True) (Keeps s World.sent) :=
    Keeps.closed (fun _ _ => rfl) fun _ _ => rfl
  have hsent : (passOn request method s w).2.sent = (attempt (send request) s w).2.sent := by
    refine Keeps.bind_next (fun outcome => ?_) w
    cases outcome with
    | ok answer => exact hclosed.pure _
    | error e => exact hclosed.bind (hclosed.tell trivial) fun _ => hclosed.pure _
  rw [hsent, hattempt, World.request_sent]

/-- What a call to pass a request on sends. -/
theorem sent_of_proxy (hmethod : method ≠ "") (hurl : url ≠ "")
    (hslash : url.toList.head? ≠ some '/') (origin : Origin) (service : Service) (state : State) :
    (proxy origin ⟨some method, some url, headers, body⟩ service state).sent =
      match bodyText method body with
      | .error _ => []
      | .ok text => [⟨Text.upper method, url, Headers.defaults.overlay headers, text⟩] := by
  unfold proxy
  simp only [Option.getD_some, hmethod, hurl, decide_false, Bool.or_self, Bool.false_eq_true,
    ↓reduceIte]
  rw [request_eq origin hslash]
  cases bodyText method body with
  | error f => rfl
  | ok text => exact sent_of_passOn _ method _ _

/-- A call to pass a request on, with no variables and no base address, and the step with the same
line, headers and body: each sends one request or, where the body of the request has no text, none.
The requests have the same method, address and body. Their headers are the same mapping just if a
header that is called `content-type` in other spellings only is not among the headers of the call. -/
theorem sent_of_proxy_and_step (method url : String) (headers : Table String) (body : Value)
    (origin : Origin) (service : Service) (state : State) (id : String) (title : Value)
    (settings : Settings) (bound : Table Value) (s : Surroundings) (w : World)
    (hmethod : method ≠ "") (hword : ∀ c ∈ method.toList, ¬ Text.isBlank c) (hurl : url ≠ "")
    (htrim : Text.trim url.toList = url.toList) (hslash : url.toList.head? ≠ some '/')
    (hbase : settings.baseUrl.isTruthy = false) (hlog : s.Takes)
    (hbound : ∀ p ∈ bound, Json.Writable p.2) (hstore : w.context.store = []) :
    ((proxy origin ⟨some method, some url, headers, body⟩ service state).sent = [] ∧
      ((stepOf id title method url headers body).execute RestLine.bodyMethods settings bound s
        w).2.sent = w.sent ∧
      RestLine.supportsBody RestLine.bodyMethods method ∧ ¬ Json.Writable body) ∨
    ∃ p q : Request,
      (proxy origin ⟨some method, some url, headers, body⟩ service state).sent = [p] ∧
      ((stepOf id title method url headers body).execute RestLine.bodyMethods settings bound s
        w).2.sent = w.sent ++ [q] ∧
      p.method = Text.upper method ∧ p.url = url ∧ q.method = p.method ∧ q.url = p.url ∧
      q.body = p.body ∧
      ((∀ name, Table.get? name q.headers = Table.get? name p.headers) ↔
        ((∃ name ∈ headers.names, Text.lower name = "content-type") →
          "Content-Type" ∈ headers.names)) := by
  have hprepare : Step.prepare (stepOf id title method url headers body) RestLine.bodyMethods
      settings w.context.store = _ :=
    hstore ▸ prepare_stepOf hmethod hword hurl htrim id title hbase
  cases htext : bodyText method body with
  | error f =>
    left
    rw [htext] at hprepare
    obtain ⟨hsupports, hwritable⟩ := exists_bodyText_error_iff.1 ⟨f, htext⟩
    refine ⟨?_, Step.sent_of_not_prepared rfl hlog hbound hprepare, hsupports, hwritable⟩
    rw [sent_of_proxy hmethod hurl hslash, htext]
  | ok text =>
    right
    rw [htext] at hprepare
    refine ⟨⟨Text.upper method, url, Headers.defaults.overlay headers, text⟩,
      ⟨Text.upper method, url, Headers.overDefaults headers, text⟩, ?_,
      Step.sent_of_execute rfl hlog hbound hprepare ?_, rfl, rfl, rfl, rfl, rfl,
      Headers.overlay_defaults_agree_iff headers⟩
    · rw [sent_of_proxy hmethod hurl hslash, htext]
    · dsimp only
      by_cases hsupports : RestLine.supportsBody RestLine.bodyMethods method
      · rw [if_pos hsupports]
        by_contra hwritable
        obtain ⟨f, hf⟩ := exists_bodyText_error_iff.2 ⟨hsupports, hwritable⟩
        rw [htext] at hf
        cases hf
      · rw [if_neg hsupports]
        exact Json.writable_null

/-- Where calls come in. -/
def jobOrigin : Origin := ⟨"http", "localhost", 8000⟩

def jobState : State := .start .counted .blank 100

/-- A report is asked for through the proxy and by a step. -/
theorem sent_of_proxy_and_step_report :
    ∃ p q : Request,
      (proxy jobOrigin ⟨some "post", some "http://api/jobs/$id", [("X-Key", "1")],
        .object [("kind", .text "report")]⟩ (.ofReplies fun _ => .crash "gone") jobState).sent =
          [p] ∧
      ((stepOf "report" .null "post" "http://api/jobs/$id" [("X-Key", "1")]
        (.object [("kind", .text "report")])).execute RestLine.bodyMethods ⟨.null, ⟨none, none⟩⟩ []
        (.plain (.ofReplies fun _ => .crash "gone")) (.start none .empty 0)).2.sent = [] ++ [q] ∧
      p.method = Text.upper "post" ∧ q.method = p.method ∧ q.url = p.url ∧ q.body = p.body ∧
      ∀ name, Table.get? name q.headers = Table.get? name p.headers := by
  have hwritable : Json.Writable (.object [("kind", .text "report")]) := ⟨_, rfl⟩
  obtain ⟨-, -, -, hnot⟩ | ⟨p, q, hp, hq, hmethod, -, hmethod', hurl, hbody, hheaders⟩ :=
    sent_of_proxy_and_step "post" "http://api/jobs/$id" [("X-Key", "1")]
      (.object [("kind", .text "report")]) jobOrigin (.ofReplies fun _ => .crash "gone") jobState
      "report" .null ⟨.null, ⟨none, none⟩⟩ [] (.plain (.ofReplies fun _ => .crash "gone"))
      (.start none .empty 0) (by decide) (List.any_eq_false.1 (by decide)) (by decide) (by decide)
      (by decide) rfl (fun _ h => h) (fun _ h => nomatch h) rfl
  · exact absurd hwritable hnot
  · refine ⟨p, q, hp, hq, hmethod, hmethod', hurl, hbody, hheaders.2 fun htype => ?_⟩
    exact absurd htype (by decide +kernel)

/-- A type in another spelling is sent beside the default type by the proxy, and alone by the
step. -/
theorem proxy_and_step_differ :
    (proxy jobOrigin ⟨some "GET", some "http://api/x", [("content-type", "text/plain")], .null⟩
        (Service.ofList []) jobState).sent =
      [⟨"GET", "http://api/x", [("Content-Type", "application/json"),
        ("content-type", "text/plain")], none⟩] ∧
    ((stepOf "s" .null "GET" "http://api/x" [("content-type", "text/plain")] .null).execute
        RestLine.bodyMethods ⟨.null, ⟨none, none⟩⟩ []
        (.plain (.ofList [])) (.start none .empty 0)).2.sent =
      [⟨"GET", "http://api/x", [("content-type", "text/plain")], none⟩] := by
  decide +kernel

end Server

end RestDemo

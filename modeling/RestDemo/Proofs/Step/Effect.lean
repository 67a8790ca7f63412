import RestDemo.Engine.Step
import RestDemo.Proofs.Poll.Outcome

/-!
# What a step does to the variables

A step reads the variables as they are before it for its own request, saves parts of the answer, and
reads them again for the endpoint that it polls. `Resolves` says what it takes from the store at
first, and `Exit` lists how it may end, each time with the store and the requests of the poll. A
step without a fault has such an exit and changes nothing else of its context (`execute_exit`).
-/

namespace RestDemo.Step

open Engine

variable {s : Surroundings} {w : World} {step : Step} {bodyMethods : List String}
  {settings : Settings} {bound : Table Value} {prepared : Prepared}

/-! ## The request -/

/-- The request of a step, its base address and the text to send, as they come from a store. -/
structure Resolves (step : Step) (bodyMethods : List String) (settings : Settings) (store : Store)
    (prepared : Prepared) : Prop where
  method : prepared.request.method = (RestLine.split step.rest).1
  baseUrl : resolvedBaseUrl step settings store = .ok prepared.baseUrl
  url : ∃ endpoint, Template.fill store (RestLine.split step.rest).2 = .ok endpoint ∧
    prepared.request.url = prepared.baseUrl ++ endpoint
  headers : Headers.build step.headers store = .ok prepared.request.headers
  body : resolvedBody step bodyMethods prepared.request.method store = .ok prepared.request.body
  payload : payload prepared.request.body = .ok prepared.payload

theorem resolves_of_prepare {store : Store}
    (h : prepare step bodyMethods settings store = .ok prepared) :
    Resolves step bodyMethods settings store prepared := by
  unfold prepare at h
  obtain ⟨endpoint, hendpoint, h⟩ := ok_of_bind h
  obtain ⟨base, hbase, h⟩ := ok_of_bind h
  obtain ⟨headers, hheaders, h⟩ := ok_of_bind h
  obtain ⟨body, hbody, h⟩ := ok_of_bind h
  obtain ⟨text, htext, h⟩ := ok_of_bind h
  cases h
  exact ⟨rfl, hbase, ⟨endpoint, hendpoint, rfl⟩, hheaders, hbody, htext⟩

/-- The request that a step polls with at an endpoint: its base address and its headers again. -/
def Prepared.polled (prepared : Prepared) (endpoint : String) : Request :=
  ⟨"GET", resolveUrl endpoint prepared.baseUrl, prepared.request.headers, none⟩

/-! ## What is told -/

def unresolvedEntry (bound : Table Value) (names : List String) : Event :=
  entry bound .warning "rest.unresolved_variables" [("names", Value.texts names)]

/-- The warning of variables without a value, if some have none. -/
def warning (bound : Table Value) (names : List String) : List Event :=
  if names = [] then [] else [unresolvedEntry bound names]

/-- Tells of a request, with what is not shown masked. -/
def requestEntry (bound : Table Value) (request : ResolvedRequest) : Event :=
  entry bound .info "rest.request"
    [("method", .text request.method), ("url", .text request.url),
      ("headers", .object (Masking.maskTable (request.headers.mapEntries fun _ s => .text s))),
      ("body", Masking.maskAll request.body)]

def responseEntry (bound : Table Value) (a : Answer) (took : UInt64) : Event :=
  entry bound .info "rest.response"
    [("status", .int a.status),
      ("parsed", .bool (Masking.isPresent (some (Json.bodyValue a.text)))),
      ("elapsed_ms", .int took.toNat)]

/-! ## The exchange -/

theorem warnUnresolved_run (h : Faultless (warnUnresolved step bound s w)) :
    ∃ es names, warnUnresolved step bound s w = (.ok (), w.telling es) ∧
      es.Sublist [unresolvedEntry bound names] := by
  unfold warnUnresolved at h ⊢
  rw [store_bind_run] at h ⊢
  by_cases hmissing : (unresolved step w.context.store).isEmpty
  · simp only [hmissing, ↓reduceIte]
    exact ⟨[], [], by simp, List.nil_sublist _⟩
  · simp only [hmissing, Bool.false_eq_true, ↓reduceIte] at h ⊢
    exact ⟨_, _, log_run h, List.Sublist.refl _⟩

theorem receive_run {a : Answer} (h : Faultless (receive step bound prepared a s w)) :
    ∃ saved took es names,
      Binding.save step.save a.status (Json.bodyValue a.text) w.context.store = (saved, none) ∧
      receive step bound prepared a s w =
        (.ok ⟨prepared.baseUrl, prepared.request, a.status, Json.bodyValue a.text⟩,
          (w.withStore saved.store).telling (responseEntry bound a took :: es)) ∧
      es.Sublist [Poll.savedEntry bound "rest.variables_saved" names] := by
  unfold receive at h ⊢
  rw [requestTime_bind_run] at h ⊢
  generalize s.service.clock.request w.sent.length = took at h ⊢
  have htold := log_bind_run h
  rw [htold] at h ⊢
  obtain ⟨saved, es, names, hsaves, hx, hes⟩ := Poll.saveAnswer_run (faultless_of_bind h)
  refine ⟨saved, took, es, names, hsaves, ?_, hes⟩
  rw [bind_run_of_ok hx]
  simp [responseEntry]

/-- A step sends its request, and saves parts of the answer if there is one. It tells of the request
before it is sent, and of the answer. -/
theorem exchange_told (h : Faultless (exchange step bodyMethods settings bound s w)) :
    ∃ prepared warned unresolved, Resolves step bodyMethods settings w.context.store prepared ∧
      warned.Sublist [unresolvedEntry bound unresolved] ∧
      ((∃ reason, s.service.reply w.sent.length = .unreachable reason ∧
        exchange step bodyMethods settings bound s w =
          (.error (.step (.unreachable prepared.request.method prepared.request.url reason)),
            (w.request s prepared.sent).telling
              (warned ++ [requestEntry bound prepared.request]))) ∨
      ∃ a saved took es names, s.service.reply w.sent.length = .answer a ∧
        Binding.save step.save a.status (Json.bodyValue a.text) w.context.store = (saved, none) ∧
        exchange step bodyMethods settings bound s w =
          (.ok ⟨prepared.baseUrl, prepared.request, a.status, Json.bodyValue a.text⟩,
            ((w.request s prepared.sent).withStore saved.store).telling
              (warned ++ requestEntry bound prepared.request :: responseEntry bound a took :: es)) ∧
        es.Sublist [Poll.savedEntry bound "rest.variables_saved" names]) := by
  unfold exchange at h ⊢
  obtain ⟨warned, unresolved, hx, hwarned⟩ := warnUnresolved_run (faultless_of_bind h)
  rw [bind_run_of_ok hx, store_bind_run] at h ⊢
  obtain ⟨prepared, hprepared, hrun⟩ := orFault_bind_of_faultless h
  refine ⟨prepared, warned, unresolved, resolves_of_prepare hprepared, hwarned, ?_⟩
  rw [hrun] at h ⊢
  have htold := log_bind_run h
  rw [htold] at h ⊢
  rcases send_bind_of_faultless h with ⟨reason, hreply, hrun⟩ | ⟨a, hreply, hrun⟩
  · refine .inl ⟨reason, hreply, ?_⟩
    rw [hrun]
    simp [requestEntry, Prepared.sent]
  · rw [hrun] at h ⊢
    obtain ⟨saved, took, es, names, hsaves, hx, hes⟩ := receive_run h
    refine .inr ⟨a, saved, took, es, names, hreply, hsaves, ?_, hes⟩
    rw [hx]
    simp [requestEntry]

/-- A step sends its request, and saves parts of the answer if there is one. -/
theorem exchange_run (h : Faultless (exchange step bodyMethods settings bound s w)) :
    ∃ prepared, Resolves step bodyMethods settings w.context.store prepared ∧
      ((∃ reason u, s.service.reply w.sent.length = .unreachable reason ∧
        exchange step bodyMethods settings bound s w =
          (.error (.step (.unreachable prepared.request.method prepared.request.url reason)), u) ∧
        (w.request s prepared.sent).Told u) ∨
      ∃ a saved u, s.service.reply w.sent.length = .answer a ∧
        Binding.save step.save a.status (Json.bodyValue a.text) w.context.store = (saved, none) ∧
        exchange step bodyMethods settings bound s w =
          (.ok ⟨prepared.baseUrl, prepared.request, a.status, Json.bodyValue a.text⟩, u) ∧
        ((w.request s prepared.sent).withStore saved.store).Told u) := by
  obtain ⟨prepared, warned, unresolved, hprepared, -, hexchange⟩ := exchange_told h
  refine ⟨prepared, hprepared, ?_⟩
  rcases hexchange with ⟨reason, hreply, hx⟩ | ⟨a, saved, took, es, names, hreply, hsaves, hx, -⟩
  · exact .inl ⟨reason, _, hreply, hx, .of_telling _ _⟩
  · exact .inr ⟨a, saved, _, hreply, hsaves, hx, .of_telling _ _⟩

/-! ## The exits -/

/-- How a step ends: its result, the store, and the requests of its poll. The first of the replies
answers its own request, and the others those of the poll. -/
inductive Exit (step : Step) (prepared : Prepared) (reply : Nat → Reply) (before : Store) :
    Except Failure StepResult → Store → List Request → Prop
  | unreachable {reason : String} (first : reply 0 = .unreachable reason) :
    Exit step prepared reply before
      (.error (.step (.unreachable prepared.request.method prepared.request.url reason))) before []
  | unpolled {a : Answer} {saved : Binding.Saved} (first : reply 0 = .answer a)
      (saves : Binding.save step.save a.status (Json.bodyValue a.text) before = (saved, none))
      (unpolled : step.poll = none) :
    Exit step prepared reply before
      (.ok ⟨prepared.request, a.status, Json.bodyValue a.text, none⟩) saved.store []
  | polled {a b : Answer} {saved saved' : Binding.Saved} {spec : PollSpec} {endpoint : String}
      {n : Nat} (first : reply 0 = .answer a)
      (saves : Binding.save step.save a.status (Json.bodyValue a.text) before = (saved, none))
      (polls : step.poll = some spec)
      (fills : Template.fillGiven saved.store spec.endpoint = .ok (.text endpoint))
      (last : reply (n + 1) = .answer b)
      (saves' : Binding.save spec.save b.status (Json.bodyValue b.text) saved.store =
        (saved', none)) :
    Exit step prepared reply before
      (.ok ⟨prepared.request, a.status, Json.bodyValue b.text,
        some ⟨n + 1, Json.bodyValue b.text, b.status⟩⟩)
      saved'.store (List.replicate (n + 1) (prepared.polled endpoint))
  | pollFailed {a : Answer} {saved : Binding.Saved} {spec : PollSpec} {endpoint : String} {n : Nat}
      {e : StepError} (first : reply 0 = .answer a)
      (saves : Binding.save step.save a.status (Json.bodyValue a.text) before = (saved, none))
      (polls : step.poll = some spec)
      (fills : Template.fillGiven saved.store spec.endpoint = .ok (.text endpoint)) :
    Exit step prepared reply before (.error (.step e)) saved.store
      (List.replicate n (prepared.polled endpoint))

/-- The course of its poll gives a step its exit. -/
theorem exit_of_course {a : Answer} {saved : Binding.Saved} {spec : PollSpec} {endpoint : String}
    {plan : Poll.Plan} {cancellable : Bool} {reply : Nat → Reply} {left n : Nat}
    {before store : Store} {r : Except Failure PollResult} (first : reply 0 = .answer a)
    (saves : Binding.save step.save a.status (Json.bodyValue a.text) before = (saved, none))
    (polls : step.poll = some spec)
    (fills : Template.fillGiven saved.store spec.endpoint = .ok (.text endpoint))
    (hsave : plan.save = spec.save)
    (h : Poll.Course plan cancellable (fun i => reply (i + 1)) left 0 .null saved.store n r store) :
    Exit step prepared reply before
      (r.map fun p => ⟨prepared.request, a.status, p.document, some p⟩) store
      (List.replicate n (prepared.polled endpoint)) := by
  cases r with
  | ok p =>
    obtain ⟨k, b, saved', rfl, hlast, rfl, hsaves', rfl⟩ := h.of_ok
    rw [hsave] at hsaves'
    rw [Nat.zero_add]
    exact .polled first saves polls fills hlast hsaves'
  | error e =>
    obtain ⟨rfl, e, rfl⟩ := h.of_error
    exact .pollFailed first saves polls fills

/-- A step without a fault resolves its request from the store before it, and has an exit that says
what it leaves in the store and what else it sends. -/
theorem execute_exit (h : Faultless (execute step bodyMethods settings bound s w)) :
    ∃ prepared, Resolves step bodyMethods settings w.context.store prepared ∧
      ∃ r store polls u, execute step bodyMethods settings bound s w = (r, u) ∧
        Exit step prepared (fun i => s.service.reply (w.sent.length + i)) w.context.store r store polls ∧
        u.sent = w.sent ++ prepared.sent :: polls ∧ u.context = { w.context with store } := by
  unfold execute at h ⊢
  obtain ⟨prepared, hprepared, hexchange⟩ := exchange_run (faultless_of_bind h)
  refine ⟨prepared, hprepared, ?_⟩
  rcases hexchange with ⟨reason, u, hreply, hx, htold⟩ | ⟨a, saved, u, hreply, hsaves, hx, htold⟩
  · rw [bind_run, hx]
    exact ⟨_, _, _, u, rfl, .unreachable hreply, htold.sent_eq, htold.context_eq⟩
  · rw [bind_run_of_ok hx] at h ⊢
    have hcontext : u.context = { w.context with store := saved.store } := htold.context_eq
    have hsent : u.sent = w.sent ++ [prepared.sent] := htold.sent_eq
    cases hpoll : step.poll with
    | none => exact ⟨_, _, _, u, rfl, .unpolled hreply hsaves hpoll, hsent, hcontext⟩
    | some spec =>
      rw [hpoll] at h
      dsimp only at h ⊢
      obtain ⟨endpoint, hfills, hplan⟩ := Poll.run_course (faultless_of_bind h)
      obtain ⟨n, store, hcourse, hleaves⟩ := hplan _ rfl
      rw [hcontext] at hfills hcourse
      simp only [World.length_add_of_sent hsent] at hcourse
      rw [bind_pure_run]
      refine ⟨_, store, _, _, rfl, exit_of_course hreply hsaves hpoll hfills rfl hcourse, ?_, ?_⟩
      · rw [hleaves.sent, hsent, List.append_assoc]
        rfl
      · rw [hleaves.context, hcontext]

/-- Creates a job, saves its number, and polls it until it is done. -/
def jobStep : Step where
  id := "create"
  title := .text "Create a job"
  rest := "POST /jobs"
  headers := .null
  body := .object [("kind", .text "report")]
  form := none
  baseUrl := .null
  save := .object [("id", .text "id")]
  poll := some Poll.jobSpec

/-- What the steps on jobs have in common. -/
def jobSettings : Settings := ⟨.text "http://api", ⟨none, none⟩⟩

/-- Where a job is created that is done at the second request after that. -/
def jobSurroundings : Surroundings :=
  .plain (.ofList (.answer ⟨201, "\x7b\"id\": 5\x7d"⟩ :: Poll.jobReplies))

/-- The job is created and done: the step succeeds, and its exit says what it saved and sent. -/
theorem execute_exit_job :
    ∃ prepared, Resolves jobStep RestLine.bodyMethods jobSettings [] prepared ∧
      ∃ r store polls u,
        execute jobStep RestLine.bodyMethods jobSettings [] jobSurroundings
          (.start none .empty 0) = (r, u) ∧
        Exit jobStep prepared (fun i => jobSurroundings.service.reply (0 + i)) [] r store polls ∧
        u.sent = [] ++ prepared.sent :: polls ∧ u.context = ⟨"", store, []⟩ ∧ r.isOk := by
  have hok : (execute jobStep RestLine.bodyMethods jobSettings [] jobSurroundings
      (.start none .empty 0)).1.isOk := by
    decide +kernel
  have hfaultless : Faultless (execute jobStep RestLine.bodyMethods jobSettings [] jobSurroundings
      (.start none .empty 0)) := by
    decide +kernel
  obtain ⟨prepared, hprepared, r, store, polls, u, hrun, hexit, hsent, hcontext⟩ :=
    execute_exit hfaultless
  rw [hrun] at hok
  exact ⟨prepared, hprepared, r, store, polls, u, hrun, hexit, hsent, hcontext, hok⟩

end RestDemo.Step

import RestDemo.Demo.Loading
import RestDemo.Proofs.Run.Sound
import RestDemo.Proofs.Step.Payload
import RestDemo.Proofs.Template.Line

/-!
# The variables without a value that are told

Before its request a step warns of variables without a value (`unresolved`). The templates that it
searches for them (`searched`) are not those that the request is made from (`requestTemplates`): it
misses some of these (`overlooked`), and searches others in vain (`idle`). Which variables are told
without need, and which are not told, comes down to these two (`reports_unresolved`). What is told
before the request is the warning and nothing else (`told_before_request`).
-/

namespace RestDemo

namespace Step

open Engine Template

variable {s : Surroundings} {w : World} {step : Step} {bodyMethods : List String}
  {settings : Settings} {bound : Table Value} {store st st' : Store} {name : String}

/-! ## Templates -/

/-- What the body of a request is made from: nothing if its method has none, the defaults of the
form if there is one, or else the body of the step. -/
def bodyTemplates (step : Step) (bodyMethods : List String) : List Value :=
  if RestLine.supportsBody bodyMethods (RestLine.split step.rest).1 then
    match step.form with
    | some fields => fields.map FormField.default
    | none => [step.body]
  else []

/-- What a request is made from: its endpoint, the address before it, its headers and its body. -/
def requestTemplates (step : Step) (bodyMethods : List String) (settings : Settings) : List Value :=
  .text (RestLine.split step.rest).2 :: step.baseUrl.orElse settings.baseUrl :: step.headers ::
    step.bodyTemplates bodyMethods

/-- What is searched for variables without a value. -/
def searched (step : Step) : List Value :=
  [.text step.rest, step.headers, step.body, step.baseUrl]

/-- What a request is made from and is not searched: the address of the settings, where the step has
none of its own, and a form. -/
def overlooked (step : Step) (bodyMethods : List String) (settings : Settings) : List Value :=
  (if step.baseUrl.isTruthy then [] else [settings.baseUrl]) ++
    if step.form.isSome then step.bodyTemplates bodyMethods else []

/-- What is searched although no request is made from it: the first word of the request line, and a
body in whose place there is a form or nothing. -/
def idle (step : Step) (bodyMethods : List String) : List Value :=
  .text (RestLine.word step.rest) ::
    if step.form.isNone ∧ RestLine.supportsBody bodyMethods (RestLine.split step.rest).1 then []
    else [step.body]

/-- One of the templates has the variable. -/
def Mentions (templates : List Value) (name : String) : Prop :=
  ∃ v ∈ templates, name ∈ variablesIn v

/-- One of the templates has the variable, and it has no value. -/
def Lacks (store : Store) (templates : List Value) (name : String) : Prop :=
  Mentions templates name ∧ name ∉ Table.names store

@[simp] theorem mentions_nil : ¬ Mentions [] name := by
  rintro ⟨v, hv, -⟩
  cases hv

@[simp] theorem mentions_cons {v : Value} {templates : List Value} :
    Mentions (v :: templates) name ↔ name ∈ variablesIn v ∨ Mentions templates name :=
  List.exists_mem_cons_iff ..

@[simp] theorem mentions_append {templates others : List Value} :
    Mentions (templates ++ others) name ↔ Mentions templates name ∨ Mentions others name := by
  simp only [Mentions, List.mem_append, or_and_right, exists_or]

/-! ## What is searched and what is needed -/

theorem mem_unresolved : name ∈ unresolved step store ↔ Lacks store step.searched name := by
  have hnone : variablesIn (.object []) = [] := rfl
  have hempty : variablesIn (.text "") = [] := rfl
  rw [unresolved, mem_missing, mem_variablesIn_list]
  change Mentions _ name ∧ _ ↔ _
  simp only [Lacks, searched, mentions_cons, variablesIn_orElse hnone, variablesIn_orElse hempty]

theorem mem_address : name ∈ variablesIn (step.baseUrl.orElse settings.baseUrl) ↔
    name ∈ variablesIn step.baseUrl ∨
      Mentions (if step.baseUrl.isTruthy then [] else [settings.baseUrl]) name := by
  unfold Value.orElse
  by_cases hgiven : step.baseUrl.isTruthy
  · simp [hgiven]
  · simp [hgiven, variablesIn_of_not_isTruthy hgiven]

theorem mentions_body (step : Step) (bodyMethods : List String) (name : String) :
    name ∈ variablesIn step.body ∨
      Mentions (if step.form.isSome then step.bodyTemplates bodyMethods else []) name ↔
    Mentions (step.bodyTemplates bodyMethods) name ∨
      Mentions (if step.form.isNone ∧
        RestLine.supportsBody bodyMethods (RestLine.split step.rest).1 then [] else [step.body])
        name := by
  unfold bodyTemplates
  by_cases hmethod : RestLine.supportsBody bodyMethods (RestLine.split step.rest).1
  · cases step.form with
    | none => simp [hmethod]
    | some fields => simp [hmethod, or_comm]
  · simp [hmethod]

/-- With what is overlooked, all that is needed would be searched, and what is idle besides. -/
theorem mentions_searched_or_overlooked :
    Mentions step.searched name ∨ Mentions (step.overlooked bodyMethods settings) name ↔
      Mentions (step.requestTemplates bodyMethods settings) name ∨
        Mentions (step.idle bodyMethods) name := by
  have hbody := mentions_body step bodyMethods name
  have hline : name ∈ variablesIn (.text step.rest) ↔
      name ∈ variablesIn (.text (RestLine.word step.rest)) ∨
        name ∈ variablesIn (.text (RestLine.split step.rest).2) :=
    RestLine.mem_variablesOf_line step.rest
  simp only [searched, overlooked, requestTemplates, idle, mentions_cons, mentions_append,
    mentions_nil, or_false, hline, mem_address]
  grind

theorem mentions_of_overlooked (h : Mentions (step.overlooked bodyMethods settings) name) :
    Mentions (step.requestTemplates bodyMethods settings) name := by
  simp only [overlooked, mentions_append] at h
  simp only [requestTemplates, mentions_cons, mem_address]
  rcases h with haddress | hform
  · exact .inr (.inl (.inr haddress))
  · split at hform
    · exact .inr (.inr (.inr hform))
    · exact absurd hform mentions_nil

theorem mentions_of_idle (h : Mentions (step.idle bodyMethods) name) :
    Mentions step.searched name := by
  simp only [idle, mentions_cons] at h
  simp only [searched, mentions_cons]
  rcases h with hword | hbody
  · exact .inl ((RestLine.mem_variablesOf_line step.rest).2 (.inl hword))
  · split at hbody
    · exact absurd hbody mentions_nil
    · obtain ⟨v, hv, hname⟩ := hbody
      obtain rfl := List.mem_singleton.1 hv
      exact .inr (.inr (.inl hname))

theorem lacks_of_overlooked (h : Lacks store (step.overlooked bodyMethods settings) name) :
    Lacks store (step.requestTemplates bodyMethods settings) name :=
  ⟨mentions_of_overlooked h.1, h.2⟩

theorem mem_unresolved_of_idle (h : Lacks store (step.idle bodyMethods) name) :
    name ∈ unresolved step store :=
  mem_unresolved.2 ⟨mentions_of_idle h.1, h.2⟩

theorem unresolved_or_overlooked : name ∈ unresolved step store ∨
      Lacks store (step.overlooked bodyMethods settings) name ↔
    Lacks store (step.requestTemplates bodyMethods settings) name ∨
      Lacks store (step.idle bodyMethods) name := by
  simp only [mem_unresolved, Lacks, ← or_and_right, mentions_searched_or_overlooked]

theorem mem_unresolved_of_not_lacks
    (h : ¬ Lacks store (step.requestTemplates bodyMethods settings) name) :
    name ∈ unresolved step store ↔ Lacks store (step.idle bodyMethods) name := by
  constructor
  · intro hname
    exact (unresolved_or_overlooked.1 (.inl hname)).resolve_left h
  · exact mem_unresolved_of_idle

theorem lacks_of_not_mem_unresolved (h : name ∉ unresolved step store) :
    Lacks store (step.requestTemplates bodyMethods settings) name ↔
      Lacks store (step.overlooked bodyMethods settings) name := by
  constructor
  · intro hlacks
    exact (unresolved_or_overlooked.2 (.inl hlacks)).resolve_left h
  · exact lacks_of_overlooked

/-- What names that are told have to do with the variables that the request of a step lacks. -/
structure Reports (step : Step) (bodyMethods : List String) (settings : Settings) (store : Store)
    (names : List String) : Prop where
  once : names.Nodup
  /-- They are the variables without a value in the line, the headers, the body and the address of
  the step. -/
  found : ∀ name, name ∈ names ↔ Lacks store step.searched name
  /-- A name that the request does not lack is told exactly if it is lacking in what is idle. -/
  needless : ∀ name, ¬ Lacks store (step.requestTemplates bodyMethods settings) name →
    (name ∈ names ↔ Lacks store (step.idle bodyMethods) name)
  /-- A name that is not told is one that the request lacks exactly if it is lacking in what is
  overlooked. -/
  untold : ∀ name, name ∉ names →
    (Lacks store (step.requestTemplates bodyMethods settings) name ↔
      Lacks store (step.overlooked bodyMethods settings) name)
  /-- The names are those that the request lacks exactly if it lacks all that is lacking in what is
  idle, and if all is told that is lacking in what is overlooked. -/
  exact_iff :
    (∀ name, name ∈ names ↔ Lacks store (step.requestTemplates bodyMethods settings) name) ↔
      (∀ name, Lacks store (step.idle bodyMethods) name →
        Lacks store (step.requestTemplates bodyMethods settings) name) ∧
      ∀ name, Lacks store (step.overlooked bodyMethods settings) name → name ∈ names

theorem reports_unresolved (step : Step) (bodyMethods : List String) (settings : Settings)
    (store : Store) : Reports step bodyMethods settings store (unresolved step store) where
  once := (nodup_unique _).filter _
  found _ := mem_unresolved
  needless _ := mem_unresolved_of_not_lacks
  untold _ := lacks_of_not_mem_unresolved
  exact_iff := by
    constructor
    · intro hexact
      constructor
      · intro name hname
        exact (hexact name).1 (mem_unresolved_of_idle hname)
      · intro name hname
        exact (hexact name).2 (lacks_of_overlooked hname)
    · rintro ⟨hneeded, htold⟩ name
      constructor
      · intro hname
        by_contra hlacks
        exact hlacks (hneeded name ((mem_unresolved_of_not_lacks hlacks).1 hname))
      · intro hlacks
        by_contra hname
        exact hname (htold name ((lacks_of_not_mem_unresolved hname).1 hlacks))

/-! ## What a request depends on -/

theorem formEntries_congr : ∀ fields : List FormField,
    AgreeOn (variablesInItems (fields.map FormField.default)) st st' →
      formEntries st' fields = formEntries st fields
  | [], _ => rfl
  | field :: fields, h => by
    obtain ⟨hfirst, hrest⟩ := agreeOn_append.1 h
    have hfield : fieldValue st' field = fieldValue st field := by
      apply fieldValue_congr
      intro s hs
      rw [hs] at hfirst
      exact hfirst
    rw [formEntries, formEntries, hfield, formEntries_congr fields hrest]

theorem resolvedBody_congr (h : AgreeOn (variablesInItems (step.bodyTemplates bodyMethods)) st st') :
    resolvedBody step bodyMethods (RestLine.split step.rest).1 st' =
      resolvedBody step bodyMethods (RestLine.split step.rest).1 st := by
  unfold bodyTemplates at h
  unfold resolvedBody
  by_cases hmethod : RestLine.supportsBody bodyMethods (RestLine.split step.rest).1
  · rw [if_pos hmethod] at h ⊢
    rw [if_pos hmethod]
    cases hform : step.form with
    | none =>
      rw [hform] at h
      exact fillValue_congr step.body (agreeOn_append.1 h).1
    | some fields =>
      rw [hform] at h
      dsimp only
      rw [formBody, formBody, formEntries_congr fields h]
  · rw [if_neg hmethod, if_neg hmethod]

/-- A request depends on the variables of the templates that it is made from, and on no others. -/
theorem prepare_congr
    (h : AgreeOn (variablesIn (.list (step.requestTemplates bodyMethods settings))) st st') :
    prepare step bodyMethods settings st' = prepare step bodyMethods settings st := by
  rw [variablesIn, agreeOn_unique, requestTemplates, variablesInItems, variablesInItems,
    variablesInItems, agreeOn_append, agreeOn_append, agreeOn_append] at h
  obtain ⟨hendpoint, haddress, hheaders, hbody⟩ := h
  have hbase : resolvedBaseUrl step settings st' = resolvedBaseUrl step settings st := by
    have hempty : variablesIn (.text "") = [] := rfl
    rw [← variablesIn_orElse hempty] at haddress
    simp only [resolvedBaseUrl, fillGiven_congr haddress]
  have hbuild : Headers.build step.headers st' = Headers.build step.headers st := by
    have hnone : variablesIn (.object []) = [] := rfl
    rw [← variablesIn_orElse hnone] at hheaders
    simp only [Headers.build, fillValue_congr _ hheaders]
  have hfilled := fill_congr hendpoint
  have hresolved := resolvedBody_congr hbody
  unfold prepare
  generalize RestLine.split step.rest = line at hfilled hresolved
  simp only [hfilled, hbase, hbuild, hresolved]

/-! ## What is told -/

/-- The warning is followed by the request, or by a fault and nothing more. -/
theorem exchange_warns (hlog : s.Takes) (hbound : ∀ p ∈ bound, Json.Writable p.2) (step : Step)
    (bodyMethods : List String) (settings : Settings) (w : World) :
    (∃ f, exchange step bodyMethods settings bound s w =
      (.error (.fault f), warned step bound w)) ∨
    ∃ prepared, prepare step bodyMethods settings w.context.store = .ok prepared ∧
      exchange step bodyMethods settings bound s w =
        (send prepared.sent >>= receive step bound prepared) s
          ((warned step bound w).telling [requestEntry bound prepared.request]) := by
  rw [exchange_of_warned hlog hbound]
  cases hprepared : prepare step bodyMethods settings w.context.store with
  | error f => exact .inl ⟨f, rfl⟩
  | ok prepared =>
    rcases tell_refused_or_run (requestEntry bound prepared.request) s (warned step bound w) with
      ⟨f, hrefused⟩ | htold
    · refine .inl ⟨f, ?_⟩
      rw [bind_run_of_ok (orFault_ok_run ..), bind_run, hrefused]
    · exact .inr ⟨prepared, rfl, bind_run_of_ok htold⟩

/-- What is told before a request is sent is the warning, and then the request. -/
theorem told_before_request (hlog : s.Takes) (hbound : ∀ p ∈ bound, Json.Writable p.2)
    (step : Step) (bodyMethods : List String) (settings : Settings) (w : World) :
    ∃ told, (execute step bodyMethods settings bound s w).2.events =
        w.events ++ (warning (boundTo bound step) (unresolved step w.context.store) ++ told) ∧
      (told = [] ∧ (execute step bodyMethods settings bound s w).2.sent = w.sent ∨
        ∃ prepared more, prepare step bodyMethods settings w.context.store = .ok prepared ∧
          told = requestEntry (boundTo bound step) prepared.request :: more) := by
  rcases exchange_warns hlog (writable_boundTo hbound step) step bodyMethods settings w with
    ⟨f, hfault⟩ | ⟨prepared, hprepared, hrun⟩
  · have hexecute : execute step bodyMethods settings bound s w =
        (.error (.fault f), warned step (boundTo bound step) w) := by
      unfold execute
      rw [bind_run, hfault]
    rw [hexecute]
    refine ⟨[], ?_, .inl ⟨rfl, rfl⟩⟩
    rw [List.append_nil]
    rfl
  · have hclosed : Closed.Pausing (fun _ => True) (fun _ => True)
        (Leads s (World.Adds fun _ => True)) :=
      (adds_running fun _ _ _ => trivial).toPausing
    have hadmits := step.admits_all bodyMethods settings (boundTo bound step)
    have hsends : Leads s (World.Adds fun _ => True) Exchange
        (send prepared.sent >>= receive step (boundTo bound step) prepared) :=
      hclosed.bind (hclosed.send _) (closed_receive hclosed.toClosed hadmits prepared)
    have hexchange := hsends ((warned step (boundTo bound step) w).telling
      [requestEntry (boundTo bound step) prepared.request])
    rw [← hrun] at hexchange
    have hafter := leads_execute (fun _ => .of_events_eq rfl) hclosed step bodyMethods settings
      bound w
    obtain ⟨more, hmore, -⟩ := hexchange.trans hafter
    refine ⟨_, ?_, .inr ⟨prepared, more, hprepared, rfl⟩⟩
    rw [hmore]
    simp [warned, World.telling]

/-- Before its request a step tells which variables have no value in what it searches, and nothing
else. Where nothing idle lacks other variables than the request does, and nothing overlooked lacks
one that is not told, they are just those that the request lacks; and on no variables but those of
its templates does the request depend. -/
theorem execute_warns (hlog : s.Takes) (hbound : ∀ p ∈ bound, Json.Writable p.2) (step : Step)
    (bodyMethods : List String) (settings : Settings) (w : World) :
    (∃ told, (execute step bodyMethods settings bound s w).2.events =
        w.events ++ (warning (boundTo bound step) (unresolved step w.context.store) ++ told) ∧
      (told = [] ∧ (execute step bodyMethods settings bound s w).2.sent = w.sent ∨
        ∃ prepared more, prepare step bodyMethods settings w.context.store = .ok prepared ∧
          told = requestEntry (boundTo bound step) prepared.request :: more)) ∧
    Reports step bodyMethods settings w.context.store (unresolved step w.context.store) ∧
    ∀ store, AgreeOn (variablesIn (.list (step.requestTemplates bodyMethods settings)))
        w.context.store store →
      prepare step bodyMethods settings store = prepare step bodyMethods settings w.context.store := by
  refine ⟨?_, ?_, ?_⟩
  · exact told_before_request hlog hbound step bodyMethods settings w
  · exact reports_unresolved step bodyMethods settings w.context.store
  · intro store hagree
    exact prepare_congr hagree

/-- Gets a page of a profile. -/
def profileStep : Step where
  id := "profile"
  title := .text "Get a profile"
  rest := "GET /users/$user?page=$page"
  headers := .object [("X-Trace", .text "$trace of $user")]
  body := .null
  form := none
  baseUrl := .text "http://$host"
  save := .null
  poll := none

def profileStore : Store := [("page", .int 2), ("host", .text "api")]

/-- The warning names the variables that the request lacks, although no answer comes. -/
theorem execute_warns_profile :
    ∃ told, (execute profileStep RestLine.bodyMethods jobSettings []
        (.plain (.ofReplies fun _ => .crash "gone"))
        (.start none ⟨"", profileStore, []⟩ 0)).2.events =
          unresolvedEntry [("step_id", .text "profile")] ["user", "trace"] :: told ∧
      ∀ name, name ∈ ["user", "trace"] ↔
        Lacks profileStore (profileStep.requestTemplates RestLine.bodyMethods jobSettings) name := by
  have hbound : ∀ p ∈ ([] : Table Value), Json.Writable p.2 := fun _ h => nomatch h
  obtain ⟨⟨told, hevents, -⟩, hreports, -⟩ := execute_warns
    (s := (.plain (.ofReplies fun _ => .crash "gone"))) (fun _ h => h) hbound profileStep
    RestLine.bodyMethods jobSettings (.start none ⟨"", profileStore, []⟩ 0)
  have hnames : unresolved profileStep profileStore = ["user", "trace"] := by decide +kernel
  have hidle : variablesIn (.list (profileStep.idle RestLine.bodyMethods)) = [] := by
    decide +kernel
  have hoverlooked : variablesIn
      (.list (profileStep.overlooked RestLine.bodyMethods jobSettings)) = [] := by
    decide +kernel
  refine ⟨told, ?_, ?_⟩
  · rw [hevents]
    change [] ++ (warning _ (unresolved profileStep profileStore) ++ told) = _
    rw [hnames]
    rfl
  · rw [← hnames]
    refine hreports.exact_iff.2 ⟨?_, ?_⟩
    · intro name h
      have hmem := mem_variablesIn_list.2 h.1
      rw [hidle] at hmem
      cases hmem
    · intro name h
      have hmem := mem_variablesIn_list.2 h.1
      rw [hoverlooked] at hmem
      cases hmem

/-- Orders something for a customer, who is in a field of the form. -/
def orderStep : Step where
  id := "order"
  title := .text ""
  rest := "POST /orders"
  headers := .null
  body := .null
  form := some [⟨.text "customer", .text "$customer"⟩]
  baseUrl := .null
  save := .null
  poll := none

/-- A step that is loaded with a form lacks a variable, and sends the name of it for its value, but no
warning is told. -/
theorem execute_unwarned_order :
    Demo.loadStep [("id", .text "order"), ("rest", .text "POST /orders"),
        ("form", .list [.object [("name", .text "customer"), ("default", .text "$customer")]])]
        "step" = .ok orderStep ∧
      orderStep.WellTyped ∧ jobSettings.WellTyped ∧
      Lacks [] (orderStep.requestTemplates RestLine.bodyMethods jobSettings) "customer" ∧
      (execute orderStep RestLine.bodyMethods jobSettings []
        (.plain (.ofList [.answer ⟨201, "\x7b\x7d"⟩]))
        (.start none .empty 0)).2.sent.map Request.body =
          [some "\x7b\"customer\": \"$customer\"\x7d"] ∧
      (execute orderStep RestLine.bodyMethods jobSettings []
        (.plain (.ofList [.answer ⟨201, "\x7b\x7d"⟩]))
        (.start none .empty 0)).2.events.map Event.name = ["rest.request", "rest.response"] := by
  refine ⟨?_, ?_, ?_, ?_, ?_, ?_⟩
  · rfl
  · refine ⟨.inl rfl, ?_, .inl rfl, .inl rfl, (fun _ h => nomatch h)⟩
    intro fields hfields field hfield
    obtain rfl := Option.some.inj hfields
    obtain rfl := List.mem_singleton.1 hfield
    exact ⟨"customer", rfl⟩
  · exact ⟨"http://api", rfl⟩
  · refine ⟨?_, by decide⟩
    rw [Mentions, ← mem_variablesIn_list]
    decide +kernel
  · decide +kernel
  · decide +kernel

end Step

end RestDemo

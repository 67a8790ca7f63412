import RestDemo.Proofs.Headers
import RestDemo.Proofs.Step.Shown
import RestDemo.Proofs.Step.Typed

/-!
# The body of a request

Which requests have a body (`HasBody`), what a form comes to (`FormOf`), and how the text of a body
goes with its value (`BodyOf`). Where the values of a step are without floating-point numbers and
not nested too deep (`Step.Exact`), and every variable can be put into a text, the request of a step
is resolved, with a body in which the two go together (`Exact.exists_prepare`).
-/

namespace RestDemo

open Template

namespace Step

variable {step : Step} {bodyMethods : List String} {settings : Settings} {store : Store}
  {fields : List FormField}

/-- How deep the values of a step may be nested. -/
def nesting : Nat := 200

/-- The body of a step and the defaults of its form are without floating-point numbers and not
nested too deep; its headers can be put into a text. -/
structure Exact (step : Step) : Prop where
  body : Json.Exact step.body
  bodyDepth : step.body.depth ≤ nesting
  form : ∀ fields, step.form = some fields → ∀ field ∈ fields, Json.Exact field.default
  formDepth : ∀ fields, step.form = some fields → ∀ field ∈ fields, field.default.depth ≤ nesting
  headers : ∀ members, step.headers = .object members → ∀ p ∈ members, p.2.Embeds

/-- The request has a body: its method may have one, and the step has a form or a body. -/
def HasBody (step : Step) (bodyMethods : List String) : Prop :=
  Text.upper (RestLine.split step.rest).1 ∈ bodyMethods ∧ (step.form ≠ none ∨ step.body ≠ .null)

/-- What a field of a form holds, by its default. -/
inductive Holds (store : Store) : Value → Value → Prop
  | nothing : Holds store .null (.text "")
  | text {s filled : String} (fills : fill store s = .ok filled) :
    Holds store (.text s) (.text filled)
  | other {v : Value} (given : v ≠ .null) (noText : ∀ s, v ≠ .text s) : Holds store v v

/-- The mapping of a form: the names of its fields, each with what the last field of that name
holds. -/
structure FormOf (store : Store) (fields : List FormField) (members : Table Value) : Prop where
  once : members.names.Nodup
  names : ∀ name, name ∈ members.names ↔ ∃ field ∈ fields, field.name = .text name
  last : ∀ name v, members.get? name = some v → ∃ before field after,
    fields = before ++ field :: after ∧ field.name = .text name ∧
      (∀ later ∈ after, later.name ≠ .text name) ∧ Holds store field.default v

/-- The text of a body is there exactly if the request has a body, and decodes to the value: that of
the form if there is one, or else of the body of the step, filled. -/
structure BodyOf (step : Step) (bodyMethods : List String) (store : Store) (text : Option String)
    (body : Value) : Prop where
  present : text.isSome ↔ step.HasBody bodyMethods
  decodes : ∀ t, text = some t → Json.bodyValue t = body
  form : step.HasBody bodyMethods → ∀ fields, step.form = some fields →
    ∃ members, body = .object members ∧ FormOf store fields members
  filled : step.HasBody bodyMethods → step.form = none → fillValue store step.body = .ok body
  absent : ¬ step.HasBody bodyMethods → text = none ∧ body = .null

/-! ## Forms -/

/-- The entry that a field of a form comes to. -/
def IsEntry (store : Store) (field : FormField) (p : String × Value) : Prop :=
  field.name = .text p.1 ∧ fieldValue store field = .ok p.2

theorem holds_of_fieldValue {field : FormField} {v : Value} (h : fieldValue store field = .ok v) :
    Holds store field.default v := by
  unfold fieldValue at h
  cases hdefault : field.default with
  | null =>
    rw [hdefault] at h
    cases h
    exact .nothing
  | text s =>
    rw [hdefault] at h
    obtain ⟨filled, hfilled, rfl⟩ := ok_of_map h
    exact .text hfilled
  | _ =>
    rw [hdefault] at h
    cases h
    exact .other (by simp) (by simp)

/-- A field whose default is exact holds a value that is, nested no deeper. -/
theorem exists_fieldValue (hstore : Store.Embeds store) {field : FormField}
    (h : Json.Exact field.default) (hdepth : field.default.depth ≤ nesting) :
    ∃ v, fieldValue store field = .ok v ∧ Json.Exact v ∧ v.depth ≤ nesting := by
  unfold fieldValue
  cases hdefault : field.default with
  | null => exact ⟨_, rfl, .text "", Nat.zero_le _⟩
  | text s =>
    obtain ⟨filled, hfilled⟩ := exists_fill hstore s
    refine ⟨.text filled, ?_, .text filled, Nat.zero_le _⟩
    dsimp only
    rw [hfilled]
    rfl
  | _ =>
    rw [hdefault] at h hdepth
    exact ⟨_, rfl, h, hdepth⟩

theorem exists_entries (hstore : Store.Embeds store)
    (hnames : ∀ field ∈ fields, ∃ name, field.name = .text name)
    (hexact : ∀ field ∈ fields, Json.Exact field.default)
    (hdepth : ∀ field ∈ fields, field.default.depth ≤ nesting) :
    ∃ named, NamedEntries store fields named ∧ List.Forall₂ (IsEntry store) fields named ∧
      ∀ p ∈ named, Json.Exact p.2 ∧ p.2.depth ≤ nesting := by
  induction fields with
  | nil => exact ⟨[], ⟨[], rfl, rfl⟩, .nil, fun _ h => nomatch h⟩
  | cons field fields ih =>
    rw [List.forall_mem_cons] at hnames hexact hdepth
    obtain ⟨name, hname⟩ := hnames.1
    obtain ⟨v, hv, hvexact, hvdepth⟩ := exists_fieldValue hstore hexact.1 hdepth.1
    obtain ⟨named, ⟨entries, hentries, hnamed⟩, hall, hparts⟩ := ih hnames.2 hexact.2 hdepth.2
    refine ⟨(name, v) :: named, ⟨(.text name, v) :: entries, ?_, ?_⟩, .cons ⟨hname, hv⟩ hall,
      List.forall_mem_cons.2 ⟨⟨hvexact, hvdepth⟩, hparts⟩⟩
    · rw [formEntries, hv, hname, hentries]
      rfl
    · rw [textNames?, hnamed]
      rfl

theorem mem_names_of_entries {named : Table Value} (h : List.Forall₂ (IsEntry store) fields named)
    (name : String) : name ∈ named.names ↔ ∃ field ∈ fields, field.name = .text name := by
  induction h with
  | nil => simp
  | cons hfirst _ ih =>
    rw [Table.names_cons, List.mem_cons, List.exists_mem_cons_iff, ih, hfirst.1, Value.text.injEq,
      eq_comm]

/-- The last entry under a name is that of the last field with the name. -/
theorem last_of_entries {named : Table Value} (h : List.Forall₂ (IsEntry store) fields named)
    {name : String} {v : Value} (hv : Table.get? name named.reverse = some v) :
    ∃ before field after, fields = before ++ field :: after ∧ field.name = .text name ∧
      (∀ later ∈ after, later.name ≠ .text name) ∧ Holds store field.default v := by
  induction h with
  | nil => cases hv
  | @cons field p fields named hfirst hall ih =>
    rw [List.reverse_cons, Table.get?_append] at hv
    cases hrest : Table.get? name named.reverse with
    | some u =>
      rw [hrest, Option.some_or] at hv
      obtain ⟨before, last, after, hfields, hlast⟩ := ih (hrest.trans hv)
      exact ⟨field :: before, last, after, congrArg (field :: ·) hfields, hlast⟩
    | none =>
      rw [hrest, Option.none_or, Table.get?] at hv
      have hname : p.1 = name := by
        by_contra hne
        rw [if_neg hne] at hv
        cases hv
      rw [if_pos hname] at hv
      obtain rfl := Option.some.inj hv
      refine ⟨[], field, fields, rfl, hname ▸ hfirst.1, ?_, holds_of_fieldValue hfirst.2⟩
      intro later hlater hsame
      have hmem := (mem_names_of_entries hall name).2 ⟨later, hlater, hsame⟩
      exact Table.get?_reverse_eq_none_iff.1 hrest hmem

theorem formOf_entries {named : Table Value} (h : List.Forall₂ (IsEntry store) fields named) :
    FormOf store fields (Table.ofList named) where
  once := Table.nodup_ofList named
  names name := by
    rw [← mem_names_of_entries h name, ← not_iff_not, ← Table.get?_eq_none_iff, Table.get?_ofList,
      Table.get?_reverse_eq_none_iff]
  last name v hv := by
    rw [Table.get?_ofList] at hv
    exact last_of_entries h hv

/-- A form comes to its mapping, which is exact and nested by one deeper than its parts. -/
theorem exists_formBody (hstore : Store.Embeds store)
    (hnames : ∀ field ∈ fields, ∃ name, field.name = .text name)
    (hexact : ∀ field ∈ fields, Json.Exact field.default)
    (hdepth : ∀ field ∈ fields, field.default.depth ≤ nesting) :
    ∃ members, formBody store fields = .ok (.object members) ∧ FormOf store fields members ∧
      Json.Exact (.object members) ∧ (Value.object members).depth ≤ nesting + 1 := by
  obtain ⟨named, ⟨entries, hentries, hnamed⟩, hall, hparts⟩ :=
    exists_entries hstore hnames hexact hdepth
  have hform := formOf_entries hall
  have hmembers : ∀ p ∈ Table.ofList named, Json.Exact p.2 ∧ p.2.depth ≤ nesting := by
    intro p hp
    rcases Table.mem_of_mem_overlay hp with hp | hp
    · cases hp
    · exact hparts p hp
  refine ⟨Table.ofList named, ?_, hform, .object _ hform.once fun p hp => (hmembers p hp).1,
    Value.depth_object_le fun p hp => (hmembers p hp).2⟩
  rw [formBody, hentries]
  simp only [bind, Except.bind, hnamed]
  rfl

/-! ## The body -/

theorem hasBody_iff : step.HasBody bodyMethods ↔
    RestLine.supportsBody bodyMethods (RestLine.split step.rest).1 ∧
      (step.form ≠ none ∨ step.body ≠ .null) := by
  rw [HasBody, RestLine.supportsBody, List.contains_iff_mem]

theorem bodyOf_absent (h : ¬ step.HasBody bodyMethods) :
    BodyOf step bodyMethods store none .null where
  present := iff_of_false Bool.false_ne_true h
  decodes _ ht := nomatch ht
  form hhas := absurd hhas h
  filled hhas := absurd hhas h
  absent _ := ⟨rfl, rfl⟩

theorem bodyOf_present {t : String} {body : Value} (h : step.HasBody bodyMethods)
    (hdecodes : Json.bodyValue t = body)
    (hform : ∀ fields, step.form = some fields →
      ∃ members, body = .object members ∧ FormOf store fields members)
    (hfilled : step.form = none → fillValue store step.body = .ok body) :
    BodyOf step bodyMethods store (some t) body where
  present := iff_of_true rfl h
  decodes _ ht := Option.some.inj ht ▸ hdecodes
  form _ := hform
  filled _ := hfilled
  absent hno := absurd h hno

theorem exists_payload {body : Value} (h : Json.Exact body) (hdepth : body.depth ≤ nesting + 1)
    (hbody : body ≠ .null) : ∃ t, payload body = .ok (some t) ∧ Json.bodyValue t = body := by
  have hshallow : body.depth ≤ Json.maxDepth := Nat.le_trans hdepth (by decide)
  obtain ⟨t, ht, hdecodes⟩ := Json.bodyValue_text Json.plain_spaced h hshallow
  refine ⟨t, ?_, hdecodes⟩
  rw [payload.eq_def]
  cases body with
  | null => exact absurd rfl hbody
  | _ =>
    dsimp only
    rw [ht]
    rfl

/-- The request of an exact step has a body, exact itself, that goes with its text. -/
theorem Exact.exists_body (h : step.Exact) (htyped : step.WellTyped) (hstore : Store.Embeds store)
    (bodyMethods : List String) :
    ∃ body text, resolvedBody step bodyMethods (RestLine.split step.rest).1 store = .ok body ∧
      payload body = .ok text ∧ Json.Exact body ∧ BodyOf step bodyMethods store text body := by
  unfold resolvedBody
  by_cases hmethod : RestLine.supportsBody bodyMethods (RestLine.split step.rest).1
  · rw [if_pos hmethod]
    cases hform : step.form with
    | some fields =>
      obtain ⟨members, hmembers, hformOf, hexact, hdepth⟩ := exists_formBody hstore
        (htyped.form fields hform) (h.form fields hform) (h.formDepth fields hform)
      obtain ⟨t, ht, hdecodes⟩ := exists_payload hexact hdepth (fun hnull => nomatch hnull)
      have hhas : step.HasBody bodyMethods := hasBody_iff.2 ⟨hmethod, .inl (by simp [hform])⟩
      refine ⟨.object members, some t, hmembers, ht, hexact, bodyOf_present hhas hdecodes ?_ ?_⟩
      · intro fields' hfields'
        obtain rfl := Option.some.inj (hform.symm.trans hfields')
        exact ⟨members, rfl, hformOf⟩
      · intro hnone
        rw [hform] at hnone
        cases hnone
    | none =>
      obtain ⟨body, hbody, hkept⟩ := exists_fillValue hstore step.body
      have hexact : Json.Exact body := hkept.exact h.body
      have hdepth : body.depth ≤ nesting + 1 :=
        hkept.depth ▸ Nat.le_succ_of_le h.bodyDepth
      by_cases hnull : step.body = .null
      · have hno : ¬ step.HasBody bodyMethods := by simp [HasBody, hform, hnull]
        obtain rfl := hkept.null.2 hnull
        exact ⟨.null, none, hbody, rfl, hexact, bodyOf_absent hno⟩
      · have hhas : step.HasBody bodyMethods := hasBody_iff.2 ⟨hmethod, .inr hnull⟩
        obtain ⟨t, ht, hdecodes⟩ := exists_payload hexact hdepth (mt hkept.null.1 hnull)
        refine ⟨body, some t, hbody, ht, hexact, bodyOf_present hhas hdecodes ?_ fun _ => hbody⟩
        intro fields hfields
        rw [hform] at hfields
        cases hfields
  · rw [if_neg hmethod]
    have hno : ¬ step.HasBody bodyMethods := fun hhas => hmethod (hasBody_iff.1 hhas).1
    exact ⟨.null, none, rfl, rfl, .null, bodyOf_absent hno⟩

/-! ## The request -/

theorem Exact.exists_build (h : step.Exact) (htyped : step.WellTyped)
    (hstore : Store.Embeds store) : ∃ t, Headers.build step.headers store = .ok t := by
  obtain ⟨members, hgiven, hmembers⟩ := htyped.exists_members
  have hembeds : ∀ p ∈ members, p.2.Embeds := by
    intro p hp
    have hheaders := hmembers (List.ne_nil_of_mem hp)
    exact h.headers members hheaders p hp
  obtain ⟨filled, t, hfilled, ht, -⟩ := Headers.exists_entries hstore hembeds
  refine ⟨Headers.overDefaults t, ?_⟩
  rw [Headers.build, hgiven, fillValue, hfilled]
  simp only [Except.map, bind, Except.bind, ht]
  rfl

theorem WellTyped.exists_baseUrl (h : step.WellTyped) (hsettings : settings.WellTyped)
    (hstore : Store.Embeds store) : ∃ base, resolvedBaseUrl step settings store = .ok base := by
  obtain ⟨text, htext⟩ := h.exists_baseText hsettings
  obtain ⟨filled, hfilled⟩ := exists_fill hstore text
  refine ⟨filled, ?_⟩
  rw [resolvedBaseUrl, htext, fillGiven, hfilled]
  rfl

/-- The request of an exact step can be resolved, and its body goes with its text. -/
theorem Exact.exists_prepare (h : step.Exact) (htyped : step.WellTyped)
    (hsettings : settings.WellTyped) (hstore : Store.Embeds store) (bodyMethods : List String) :
    ∃ prepared, prepare step bodyMethods settings store = .ok prepared ∧
      Json.Exact prepared.request.body ∧
      BodyOf step bodyMethods store prepared.payload prepared.request.body := by
  obtain ⟨endpoint, hendpoint⟩ := exists_fill hstore (RestLine.split step.rest).2
  obtain ⟨base, hbase⟩ := htyped.exists_baseUrl hsettings hstore
  obtain ⟨headers, hheaders⟩ := h.exists_build htyped hstore
  obtain ⟨body, text, hbody, htext, hexact, hbodyOf⟩ := h.exists_body htyped hstore bodyMethods
  let request : ResolvedRequest :=
    ⟨(RestLine.split step.rest).1, base ++ endpoint, headers, body⟩
  refine ⟨⟨base, request, text⟩, ?_, hexact, hbodyOf⟩
  unfold prepare
  simp only [hendpoint, hbase, hheaders, hbody, htext, bind, Except.bind]
  rfl

end Step

end RestDemo

import RestDemo.Proofs.Demo.Loading
import RestDemo.Server.Execution

/-!
# Documents that cannot be looked into

A document that is wrong is rejected with what is wrong in it. Loading ends in a fault instead where
it looks into a part that is neither left out nor of a kind that can be looked into, or spells out a
part for a message that has too long an integer in it. `Misshapen` lists these parts in the order in
which a document is gone through, each with what comes before it being as it should. They are the
only causes (`load_fault_iff`), and the server rejects every other document that it cannot load
(`answer_to_document`).
-/

namespace RestDemo

namespace Demo

variable {v : Value} {members : Table Value} {f : Fault} {label name : String}

/-! ## Parts of the wrong kind -/

/-- The value counts as given and is no mapping. -/
def NoMapping (v : Value) : Prop :=
  v.isTruthy ∧ ∀ members, v ≠ .object members

/-- The value is a truth value or a number, which has no parts to go through. -/
inductive Single : Value → Prop
  | bool (b : Bool) : Single (.bool b)
  | int (n : Int) : Single (.int n)
  | float (x : Float) : Single (.float x)

/-- The value is no integer and cannot be spelled out. -/
structure HidesOverlong (v : Value) : Prop where
  noInteger : ∀ n, v ≠ .int n
  unwritable : ¬ Json.Writable v

/-- The value is no mapping with a name. -/
def Unnamed (v : Value) : Prop :=
  ∀ members, v = .object members → ¬ (Value.field "name" members).isTruthy

/-- What the settings of a document may come to a fault by. -/
inductive SettingsFault (members : Table Value) : Fault → Prop
  | polling (noMapping : NoMapping (Value.field "polling" members)) :
    SettingsFault members .noMember
  | interval {polling : Table Value} (given : mappingField "polling" members = .ok polling)
      (hides : HidesOverlong (Value.field "interval" polling)) : SettingsFault members .tooLong
  | maxAttempts {polling : Table Value} {interval : Option Int}
      (given : mappingField "polling" members = .ok polling)
      (before : integer? (Value.field "interval" polling) "settings.polling.interval" =
        .ok interval)
      (hides : HidesOverlong (Value.field "max_attempts" polling)) :
    SettingsFault members .tooLong

/-- What a form may come to a fault by. -/
inductive FormFault : Value → Fault → Prop
  | single {v : Value} (single : Single v) : FormFault v .noOperation
  | field {before after : List Value} {item : Value} {fields : List FormField}
      (named : before.mapM formField = .ok fields) (unnamed : Unnamed item)
      (unwritable : ¬ Json.Writable item) :
    FormFault (.list (before ++ item :: after)) .tooLong

/-- What a poll may come to a fault by. -/
inductive PollFault : Value → Fault → Prop
  | noMapping {v : Value} (noMapping : NoMapping v) : PollFault v .noMember
  | interval {members : Table Value} (endpoint : (Value.field "endpoint" members).isTruthy)
      (successWhen : (Value.field "success_when" members).isTruthy)
      (hides : HidesOverlong (Value.field "interval" members)) :
    PollFault (.object members) .tooLong
  | maxAttempts {members : Table Value} {interval : Option Int}
      (endpoint : (Value.field "endpoint" members).isTruthy)
      (successWhen : (Value.field "success_when" members).isTruthy)
      (before : integer? (Value.field "interval" members) "poll.interval" = .ok interval)
      (hides : HidesOverlong (Value.field "max_attempts" members)) :
    PollFault (.object members) .tooLong

/-- What a step may come to a fault by. -/
inductive StepFault (members : Table Value) : Fault → Prop
  | rest (given : (textField "rest" members).isTruthy)
      (noText : ∀ line, textField "rest" members ≠ .text line) : StepFault members .noMember
  | form {line : String} {f : Fault} (rest : requestLine (textField "rest" members) = .ok line)
      (fault : FormFault (Value.field "form" members) f) : StepFault members f
  | id {line : String} {fields : Option (List FormField)}
      (rest : requestLine (textField "rest" members) = .ok line)
      (form : form (Value.field "form" members) = .ok fields)
      (unwritable : ¬ Json.Writable (Value.field "id" members)) : StepFault members .tooLong
  | poll {line : String} {fields : Option (List FormField)} {f : Fault}
      (rest : requestLine (textField "rest" members) = .ok line)
      (form : form (Value.field "form" members) = .ok fields)
      (id : Json.Writable (Value.field "id" members))
      (fault : PollFault (Value.field "poll" members) f) : StepFault members f

/-- What a document may come to a fault by: its settings, or the first of its steps that cannot be
loaded. -/
inductive Misshapen (members : Table Value) : Fault → Prop
  | noSettings (noMapping : NoMapping (Value.field "settings" members)) :
    Misshapen members .noMember
  | settings {own : Table Value} {f : Fault} (given : mappingField "settings" members = .ok own)
      (fault : SettingsFault own f) : Misshapen members f
  | noSteps {own : Table Value} {settings : Settings}
      (given : mappingField "settings" members = .ok own) (loaded : loadSettings own = .ok settings)
      (counts : (Value.field "steps" members).isTruthy)
      (single : Single (Value.field "steps" members)) : Misshapen members .noOperation
  | step {own : Table Value} {settings : Settings} {before after : List Value}
      {step : Table Value} {steps : List Step} {f : Fault}
      (given : mappingField "settings" members = .ok own) (loaded : loadSettings own = .ok settings)
      (entries : Value.field "steps" members = .list (before ++ .object step :: after))
      (earlier : loadSteps 1 before = .ok steps) (rest : Table.has "rest" step)
      (fault : StepFault step f) : Misshapen members f

/-! ## The parts -/

theorem mapping_fault_iff : mapping v = .error (.fault f) ↔
    (∀ members, v ≠ .object members) ∧ f = .noMember := by
  cases v <;> simp [mapping, eq_comm]

theorem mappingField_fault_iff : mappingField name members = .error (.fault f) ↔
    NoMapping (Value.field name members) ∧ f = .noMember := by
  rw [mappingField, mapping_fault_iff, NoMapping, Value.orElse]
  by_cases hgiven : (Value.field name members).isTruthy
  · simp [hgiven]
  · simp [hgiven]

/-- A fault comes up where a value is spelled out for a message just if it cannot be. -/
theorem rejectSpelled_fault_iff {α : Type} {e : String → LoadError} :
    (spelled v >>= fun shown => (reject (e shown) : Loading α)) = .error (.fault f) ↔
      ¬ Json.Writable v ∧ f = .tooLong := by
  rw [← Value.spell_error_iff, spelled]
  cases v.spell <;> simp [orFault, reject, Except.map, bind, Except.bind]

theorem integer?_fault_iff : integer? v label = .error (.fault f) ↔
    HidesOverlong v ∧ f = .tooLong := by
  constructor
  · intro h
    unfold integer? at h
    split at h
    · cases h
    · cases h
    · next hnull hint =>
      obtain ⟨hwritable, rfl⟩ := rejectSpelled_fault_iff.1 h
      exact ⟨⟨hint, hwritable⟩, rfl⟩
  · rintro ⟨⟨hint, hwritable⟩, rfl⟩
    unfold integer?
    split
    · exact absurd Json.writable_null hwritable
    · next n => exact absurd rfl (hint n)
    · exact rejectSpelled_fault_iff.2 ⟨hwritable, rfl⟩

theorem parts_fault_iff (h : v ≠ .null) : parts v = .error (.fault f) ↔
    Single v ∧ f = .noOperation := by
  constructor
  · intro hparts
    cases v <;> cases hparts
    · exact absurd rfl h
    · exact ⟨.bool _, rfl⟩
    · exact ⟨.int _, rfl⟩
    · exact ⟨.float _, rfl⟩
  · rintro ⟨hsingle, rfl⟩
    cases hsingle <;> rfl

/-! ## The settings -/

theorem loadSettings_fault_iff : loadSettings members = .error (.fault f) ↔
    SettingsFault members f := by
  unfold loadSettings
  simp only [bind_error_iff, mappingField_fault_iff, integer?_fault_iff]
  constructor
  · rintro (⟨hmapping, rfl⟩ | ⟨polling, hpolling, ⟨hides, rfl⟩ |
      ⟨interval, hinterval, ⟨hides, rfl⟩ | ⟨_, -, h⟩⟩⟩)
    · exact .polling hmapping
    · exact .interval hpolling hides
    · exact .maxAttempts hpolling hinterval hides
    · cases h
  · intro h
    cases h with
    | polling hmapping => exact .inl ⟨hmapping, rfl⟩
    | interval hpolling hides => exact .inr ⟨_, hpolling, .inl ⟨hides, rfl⟩⟩
    | maxAttempts hpolling hinterval hides =>
      exact .inr ⟨_, hpolling, .inr ⟨_, hinterval, .inl ⟨hides, rfl⟩⟩⟩

/-! ## A step -/

theorem requestLine_fault_iff : requestLine v = .error (.fault f) ↔
    v.isTruthy ∧ (∀ line, v ≠ .text line) ∧ f = .noMember := by
  by_cases htext : ∃ line, v = .text line
  · obtain ⟨line, rfl⟩ := htext
    rw [requestLine]
    cases RestLine.parse? line <;> simp [reject]
  · rw [not_exists] at htext
    have hline : requestLine v = if v.isTruthy then .error (.fault .noMember)
        else spelled v >>= fun shown => reject (.invalidLine shown) := by
      cases v with
      | text line => exact absurd rfl (htext line)
      | _ => rfl
    rw [hline]
    by_cases hgiven : v.isTruthy
    · simp [hgiven, htext, eq_comm]
    · -- What does not count as given can be spelled out.
      rw [if_neg hgiven, rejectSpelled_fault_iff]
      have hwritable := Json.writable_of_not_isTruthy hgiven
      simp [hgiven, hwritable]

theorem formField_fault_iff : formField v = .error (.fault f) ↔
    Unnamed v ∧ ¬ Json.Writable v ∧ f = .tooLong := by
  unfold formField
  split
  · next members =>
    by_cases hname : (Value.field "name" members).isTruthy
    · simp [hname, Unnamed]
    · rw [if_neg hname, rejectSpelled_fault_iff]
      simp [hname, Unnamed]
  · next hobject =>
    have hunnamed : Unnamed v := fun members hv => (hobject members hv).elim
    rw [rejectSpelled_fault_iff]
    simp [hunnamed]

/-- Going through a list comes to an error at the first item that does. -/
theorem mapM_error_iff {ε α β : Type} {g : α → Except ε β} {xs : List α} {e : ε} :
    xs.mapM g = .error e ↔ ∃ before x after ys, xs = before ++ x :: after ∧
      before.mapM g = .ok ys ∧ g x = .error e := by
  induction xs with
  | nil => simp [pure, Except.pure]
  | cons x xs ih =>
    rw [List.mapM_cons, bind_error_iff]
    simp only [bind_error_iff, ih]
    constructor
    · rintro (h | ⟨y, hy, ⟨before, x', after, ys, rfl, hbefore, h⟩ | ⟨_, -, h⟩⟩)
      · exact ⟨[], x, xs, [], rfl, rfl, h⟩
      · refine ⟨x :: before, x', after, y :: ys, rfl, ?_, h⟩
        rw [List.mapM_cons, hy, hbefore]
        rfl
      · cases h
    · rintro ⟨before, x', after, ys, hxs, hbefore, h⟩
      cases before with
      | nil =>
        cases hxs
        exact .inl h
      | cons x₀ before =>
        cases hxs
        rw [List.mapM_cons] at hbefore
        obtain ⟨y, hy, hbefore⟩ := ok_of_bind hbefore
        obtain ⟨zs, hzs, -⟩ := ok_of_bind hbefore
        exact .inr ⟨y, hy, .inl ⟨before, x', after, zs, rfl, hzs, h⟩⟩

/-- The characters of a text and the names of a mapping can be spelled out. -/
theorem mapM_texts_ne_fault {α : Type} (xs : List α) (g : α → String) :
    (xs.map fun x => Value.text (g x)).mapM formField ≠ .error (.fault f) := by
  rw [Ne, mapM_error_iff]
  rintro ⟨before, x, after, fields, hxs, -, h⟩
  have hx : x ∈ xs.map fun x => Value.text (g x) := by
    rw [hxs]
    simp
  obtain ⟨y, -, rfl⟩ := List.mem_map.1 hx
  exact (formField_fault_iff.1 h).2.1 (Json.writable_text (g y))

theorem form_fault_iff : form v = .error (.fault f) ↔ FormFault v f := by
  by_cases hnull : v = .null
  · subst hnull
    refine iff_of_false (fun h => nomatch h) fun h => ?_
    cases h with
    | single h => cases h
  · have hform : form v = parts v >>= fun items => items.mapM formField >>= fun fields =>
        pure (some fields) := by
      cases v with
      | null => exact absurd rfl hnull
      | _ => rfl
    rw [hform]
    simp only [bind_error_iff, parts_fault_iff hnull]
    constructor
    · rintro (⟨hsingle, rfl⟩ | ⟨items, hitems, h | ⟨_, -, h⟩⟩)
      · exact .single hsingle
      · cases v with
        | list items' =>
          cases hitems
          obtain ⟨before, item, after, fields, rfl, hfields, h⟩ := mapM_error_iff.1 h
          obtain ⟨hunnamed, hwritable, rfl⟩ := formField_fault_iff.1 h
          exact .field hfields hunnamed hwritable
        | text s =>
          cases hitems
          exact absurd h (mapM_texts_ne_fault _ _)
        | object ms =>
          cases hitems
          exact absurd h (mapM_texts_ne_fault _ _)
        | _ => cases hitems
      · cases h
    · intro h
      cases h with
      | single h => exact .inl ⟨h, rfl⟩
      | field hfields hunnamed hwritable =>
        refine .inr ⟨_, rfl, .inl (mapM_error_iff.2 ?_)⟩
        exact ⟨_, _, _, _, rfl, hfields, formField_fault_iff.2 ⟨hunnamed, hwritable, rfl⟩⟩

theorem isTruthy_of_field (h : (Value.field name members).isTruthy) :
    (Value.object members).isTruthy := by
  cases members with
  | nil => cases h
  | cons p ms => rfl

/-- A poll that says what to ask and until when is read on. -/
theorem pollSpec_of_complete (hendpoint : (Value.field "endpoint" members).isTruthy)
    (hsuccess : (Value.field "success_when" members).isTruthy) : pollSpec (.object members) =
      integer? (Value.field "interval" members) "poll.interval" >>= fun interval =>
        integer? (Value.field "max_attempts" members) "poll.max_attempts" >>= fun maxAttempts =>
          pure (some ⟨Value.field "endpoint" members, Value.field "success_when" members,
            Value.field "failure_when" members, interval, maxAttempts,
            Value.field "save" members⟩) := by
  have hgiven := isTruthy_of_field hendpoint
  simp [pollSpec, hgiven, hendpoint, hsuccess, mapping, bind, Except.bind]

/-- A poll that says something else only is rejected. -/
theorem pollSpec_of_incomplete (hgiven : (Value.object members).isTruthy)
    (h : ¬ ((Value.field "endpoint" members).isTruthy ∧
      (Value.field "success_when" members).isTruthy)) :
    pollSpec (.object members) = reject .incompletePoll := by
  by_cases hendpoint : (Value.field "endpoint" members).isTruthy
  · have hsuccess : ¬ (Value.field "success_when" members).isTruthy := fun hs => h ⟨hendpoint, hs⟩
    simp [pollSpec, hgiven, hendpoint, hsuccess, mapping, reject, bind, Except.bind]
  · simp [pollSpec, hgiven, hendpoint, mapping, reject, bind, Except.bind]

theorem pollSpec_object_fault_iff : pollSpec (.object members) = .error (.fault f) ↔
    (Value.field "endpoint" members).isTruthy ∧ (Value.field "success_when" members).isTruthy ∧
      (HidesOverlong (Value.field "interval" members) ∧ f = .tooLong ∨
        (∃ interval, integer? (Value.field "interval" members) "poll.interval" = .ok interval) ∧
          HidesOverlong (Value.field "max_attempts" members) ∧ f = .tooLong) := by
  by_cases hcomplete : (Value.field "endpoint" members).isTruthy ∧
      (Value.field "success_when" members).isTruthy
  · obtain ⟨hendpoint, hsuccess⟩ := hcomplete
    rw [pollSpec_of_complete hendpoint hsuccess]
    simp [bind_error_iff, integer?_fault_iff, hendpoint, hsuccess, pure, Except.pure]
  · have hnot : pollSpec (.object members) ≠ .error (.fault f) := by
      by_cases hgiven : (Value.object members).isTruthy
      · rw [pollSpec_of_incomplete hgiven hcomplete]
        intro h
        cases h
      · simp [pollSpec, hgiven]
    exact iff_of_false hnot fun h => hcomplete ⟨h.1, h.2.1⟩

theorem pollSpec_fault_iff : pollSpec v = .error (.fault f) ↔ PollFault v f := by
  by_cases hobject : ∃ members, v = .object members
  · obtain ⟨members, rfl⟩ := hobject
    rw [pollSpec_object_fault_iff]
    constructor
    · rintro ⟨hendpoint, hsuccess, ⟨hides, rfl⟩ | ⟨⟨interval, hinterval⟩, hides, rfl⟩⟩
      · exact .interval hendpoint hsuccess hides
      · exact .maxAttempts hendpoint hsuccess hinterval hides
    · intro h
      cases h with
      | noMapping h => exact absurd rfl (h.2 members)
      | interval hendpoint hsuccess hides =>
        exact ⟨hendpoint, hsuccess, .inl ⟨hides, rfl⟩⟩
      | maxAttempts hendpoint hsuccess hinterval hides =>
        exact ⟨hendpoint, hsuccess, .inr ⟨⟨_, hinterval⟩, hides, rfl⟩⟩
  · rw [not_exists] at hobject
    have hpoll : pollSpec v = .error (.fault f) ↔ v.isTruthy ∧ f = .noMember := by
      unfold pollSpec
      by_cases hgiven : v.isTruthy
      · have hmapping : mapping v = .error (.fault .noMember) := by
          cases v with
          | object members => exact absurd rfl (hobject members)
          | _ => rfl
        simp [hgiven, hmapping, bind, Except.bind, eq_comm]
      · simp [hgiven]
    rw [hpoll]
    constructor
    · rintro ⟨hgiven, rfl⟩
      exact .noMapping ⟨hgiven, hobject⟩
    · intro h
      cases h with
      | noMapping h => exact ⟨h.1, rfl⟩
      | interval => exact absurd rfl (hobject _)
      | maxAttempts => exact absurd rfl (hobject _)

theorem stepId_ok_iff {own : Value} {default : String} :
    (∃ id, stepId own default = .ok id) ↔ Json.Writable own := by
  unfold stepId
  by_cases hgiven : own.isTruthy
  · rw [if_pos hgiven, ← Value.shown_ok_iff]
    cases own.shown <;> simp [orFault]
  · rw [if_neg hgiven]
    exact iff_of_true ⟨_, rfl⟩ (Json.writable_of_not_isTruthy hgiven)

theorem stepId_fault_iff {own : Value} {default : String} :
    stepId own default = .error (.fault f) ↔ ¬ Json.Writable own ∧ f = .tooLong := by
  unfold stepId
  by_cases hgiven : own.isTruthy
  · rw [if_pos hgiven, ← Value.shown_error_iff]
    cases own.shown <;> simp [orFault]
  · rw [if_neg hgiven]
    refine iff_of_false (fun h => nomatch h) fun h => ?_
    exact h.1 (Json.writable_of_not_isTruthy hgiven)

theorem loadStep_fault_iff {default : String} :
    loadStep members default = .error (.fault f) ↔ StepFault members f := by
  unfold loadStep
  simp only [bind_error_iff, requestLine_fault_iff, form_fault_iff, stepId_fault_iff,
    pollSpec_fault_iff]
  constructor
  · rintro (⟨hgiven, hline, rfl⟩ | ⟨line, hline, hform | ⟨fields, hfields, ⟨hid, rfl⟩ |
      ⟨id, hid, hpoll | ⟨_, -, h⟩⟩⟩⟩)
    · exact .rest hgiven hline
    · exact .form hline hform
    · exact .id hline hfields hid
    · exact .poll hline hfields (stepId_ok_iff.1 ⟨id, hid⟩) hpoll
    · cases h
  · intro h
    cases h with
    | rest hgiven hline => exact .inl ⟨hgiven, hline, rfl⟩
    | form hline hform => exact .inr ⟨_, hline, .inl hform⟩
    | id hline hfields hid => exact .inr ⟨_, hline, .inr ⟨_, hfields, .inl ⟨hid, rfl⟩⟩⟩
    | poll hline hfields hid hpoll =>
      obtain ⟨id, hid⟩ := stepId_ok_iff.2 hid
      exact .inr ⟨_, hline, .inr ⟨_, hfields, .inr ⟨id, hid, .inl hpoll⟩⟩⟩

/-! ## The document -/

theorem loadSteps_of_rest {step : Table Value} (h : Table.has "rest" step) (place : Nat)
    (entries : List Value) : loadSteps place (.object step :: entries) =
      loadStep step (Step.defaultId place) >>= fun step =>
        loadSteps (place + 1) entries >>= fun steps => pure (step :: steps) := by
  rw [loadSteps, if_pos h]

theorem loadSteps_of_no_rest {step : Table Value} (h : ¬ Table.has "rest" step) (place : Nat)
    (entries : List Value) :
    loadSteps place (.object step :: entries) = loadSteps (place + 1) entries := by
  rw [loadSteps, if_neg h]

/-- Entries before a step that are loaded do not keep it from its fault. -/
theorem loadSteps_append_error {place : Nat} {before after : List Value} {steps : List Step}
    {e : LoadFailure} (hbefore : loadSteps place before = .ok steps)
    (hafter : ∀ place, loadSteps place after = .error e) :
    loadSteps place (before ++ after) = .error e := by
  induction before generalizing place steps with
  | nil => exact hafter place
  | cons v before ih =>
    obtain ⟨members, rfl, ⟨hrest, step, others, hstep, hothers, -⟩ | ⟨hrest, hothers⟩⟩ :=
      loadSteps_cons_ok hbefore
    · rw [List.cons_append, loadSteps_of_rest hrest, hstep, bind_error_iff]
      exact .inr ⟨step, rfl, bind_error_iff.2 (.inl (ih hothers))⟩
    · rw [List.cons_append, loadSteps_of_no_rest hrest]
      exact ih hothers

theorem exists_of_loadSteps_fault {place : Nat} {entries : List Value}
    (h : loadSteps place entries = .error (.fault f)) : ∃ before step after steps,
      entries = before ++ .object step :: after ∧ loadSteps place before = .ok steps ∧
        Table.has "rest" step ∧ StepFault step f := by
  induction entries generalizing place with
  | nil => cases h
  | cons v entries ih =>
    cases v with
    | object members =>
      by_cases hrest : Table.has "rest" members
      · rw [loadSteps_of_rest hrest, bind_error_iff] at h
        rcases h with h | ⟨first, hfirst, h⟩
        · exact ⟨[], members, entries, [], rfl, rfl, hrest, loadStep_fault_iff.1 h⟩
        rcases bind_error_iff.1 h with h | ⟨_, -, h⟩
        · obtain ⟨before, step, after, steps, rfl, hbefore, hfault⟩ := ih h
          refine ⟨.object members :: before, step, after, first :: steps, rfl, ?_, hfault⟩
          rw [loadSteps_of_rest hrest, hfirst, hbefore]
          rfl
        · cases h
      · rw [loadSteps_of_no_rest hrest] at h
        obtain ⟨before, step, after, steps, rfl, hbefore, hfault⟩ := ih h
        refine ⟨.object members :: before, step, after, steps, rfl, ?_, hfault⟩
        rw [loadSteps_of_no_rest hrest, hbefore]
    | _ => cases h

/-- Loading the steps comes to a fault at the first entry that does. -/
theorem loadSteps_fault_iff {place : Nat} {entries : List Value} :
    loadSteps place entries = .error (.fault f) ↔ ∃ before step after steps,
      entries = before ++ .object step :: after ∧ loadSteps place before = .ok steps ∧
        Table.has "rest" step ∧ StepFault step f := by
  refine ⟨exists_of_loadSteps_fault, ?_⟩
  rintro ⟨before, step, after, steps, rfl, hbefore, hrest, hfault⟩
  refine loadSteps_append_error hbefore fun place => ?_
  rw [loadSteps_of_rest hrest, bind_error_iff]
  exact .inl (loadStep_fault_iff.2 hfault)

/-- What is gone through for the steps is a list, or it has texts for its parts. -/
theorem loadSteps_texts_ne_fault {α : Type} (xs : List α) (g : α → String) (place : Nat) :
    loadSteps place (xs.map fun x => Value.text (g x)) ≠ .error (.fault f) := by
  cases xs with
  | nil => exact fun h => nomatch h
  | cons x xs => exact fun h => nomatch h

/-- Going through the steps comes to a fault where they have no parts, or at one of them. -/
theorem steps_fault_iff :
    (parts (v.orElse (.list [])) >>= loadSteps 1) = .error (.fault f) ↔
      v.isTruthy ∧ Single v ∧ f = .noOperation ∨ ∃ before step after steps,
        v = .list (before ++ .object step :: after) ∧ loadSteps 1 before = .ok steps ∧
          Table.has "rest" step ∧ StepFault step f := by
  by_cases hgiven : v.isTruthy
  · have hnull : v ≠ .null := by
      rintro rfl
      cases hgiven
    rw [Value.orElse, if_pos hgiven, bind_error_iff, parts_fault_iff hnull]
    refine or_congr (by simp [hgiven]) ?_
    cases v with
    | list items => simp [parts, loadSteps_fault_iff]
    | text s => simp [parts, loadSteps_texts_ne_fault]
    | object ms =>
      have hnames := loadSteps_texts_ne_fault (f := f) (Table.names ms) (fun name => name) 1
      simp [parts, hnames]
    | _ => simp [parts]
  · rw [Value.orElse, if_neg hgiven]
    refine iff_of_false (fun h => nomatch h) ?_
    rintro (⟨h, -⟩ | ⟨before, step, after, steps, rfl, -⟩)
    · exact hgiven h
    · cases before <;> exact hgiven rfl

/-- Loading a document comes to a fault just by what `Misshapen` lists. -/
theorem load_fault_iff : load members = .error (.fault f) ↔ Misshapen members f := by
  have hload : load members = mappingField "settings" members >>= fun own =>
      loadSettings own >>= fun settings =>
        (parts ((Value.field "steps" members).orElse (.list [])) >>= loadSteps 1) >>= fun steps =>
          pure ⟨textField "title" members, steps, settings⟩ := by
    simp only [load, bind_assoc]
  have hsteps := steps_fault_iff (v := Value.field "steps" members) (f := f)
  generalize parts ((Value.field "steps" members).orElse (.list [])) >>= loadSteps 1 = steps
    at hload hsteps
  rw [hload]
  simp only [bind_error_iff, mappingField_fault_iff, loadSettings_fault_iff, hsteps]
  constructor
  · rintro (⟨hsettings, rfl⟩ | ⟨own, hown, h | ⟨settings, hloaded, (⟨hgiven, hsingle, rfl⟩ |
      ⟨before, step, after, steps, hentries, hbefore, hrest, h⟩) | ⟨_, -, h⟩⟩⟩)
    · exact .noSettings hsettings
    · exact .settings hown h
    · exact .noSteps hown hloaded hgiven hsingle
    · exact .step hown hloaded hentries hbefore hrest h
    · cases h
  · intro h
    cases h with
    | noSettings hsettings => exact .inl ⟨hsettings, rfl⟩
    | settings hown h => exact .inr ⟨_, hown, .inl h⟩
    | noSteps hown hloaded hgiven hsingle =>
      exact .inr ⟨_, hown, .inr ⟨_, hloaded, .inl (.inl ⟨hgiven, hsingle, rfl⟩)⟩⟩
    | step hown hloaded hentries hbefore hrest h =>
      exact .inr ⟨_, hown, .inr ⟨_, hloaded,
        .inl (.inr ⟨_, _, _, _, hentries, hbefore, hrest, h⟩)⟩⟩

end Demo

namespace Server

/-- A document is loaded, or it is rejected with the status 400 and what is wrong in it, or it is
misshapen, and then the server answers with a fault. Nothing is changed by a document that is not
loaded. -/
theorem answer_to_document (call : DemoCall) (service : Service) (s : State) :
    (∀ f, Demo.load call.demo = .error (.fault f) ↔ Demo.Misshapen call.demo f) ∧
      ((∃ demo, Demo.load call.demo = .ok demo) ∨
        (∃ e : LoadError, Demo.load call.demo = .error (.error e) ∧
          runDemo call service s = .unchanged (.error (.status 400 e.message)) s) ∨
        ∃ f, Demo.Misshapen call.demo f ∧
          runDemo call service s = .unchanged (.error (.fault f)) s) := by
  refine ⟨fun f => Demo.load_fault_iff, ?_⟩
  cases hload : Demo.load call.demo with
  | ok demo => exact .inl ⟨demo, rfl⟩
  | error failure =>
    have hanswer : runDemo call service s = .unchanged (.error (.ofLoadFailure failure)) s := by
      rw [runDemo, hload]
    cases failure with
    | error e => exact .inr (.inl ⟨e, rfl, hanswer⟩)
    | fault f => exact .inr (.inr ⟨f, Demo.load_fault_iff.1 hload, hanswer⟩)

/-- The server has no answer to a document with a text for its settings. -/
theorem no_answer_to_text_settings :
    Demo.load [("settings", .text "x")] = .error (.fault .noMember) ∧
      ∀ (store : Store) (service : Service) (s : State),
        runDemo ⟨[("settings", .text "x")], store⟩ service s =
          .unchanged (.error (.fault .noMember)) s := by
  refine ⟨rfl, fun store service s => rfl⟩

end Server

end RestDemo

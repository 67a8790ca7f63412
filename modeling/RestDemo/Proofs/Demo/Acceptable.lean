import Mathlib.Data.List.Forall2
import RestDemo.Proofs.Demo.Misshapen

/-!
# Steps that are accepted

A step whose parts are of the kinds that are gone through (`StepShaped`) is loaded exactly if its
request line is one, its form has a name for every field, its poll says what it must
(`StepAcceptable`), and its own name can be spelled out (`loadStep_ok_iff`). Each part has a lemma of
its own on when it is read. `LoadedFrom` says what is known of a step by the entry it was loaded from.
-/

namespace RestDemo.Demo

variable {v : Value} {members step : Table Value} {name label default : String}

/-! ## The parts of a step -/

/-- Null or an integer, which no truth value is. -/
inductive Whole : Value → Prop
  | null : Whole .null
  | int (n : Int) : Whole (.int n)

theorem integer?_ok_iff : (∃ n, integer? v label = .ok n) ↔ Whole v := by
  constructor
  · rintro ⟨n, h⟩
    unfold integer? at h
    split at h
    · exact .null
    · exact .int _
    · obtain ⟨shown, -, h⟩ := ok_of_bind h
      cases h
  · intro h
    cases h with
    | null => exact ⟨none, rfl⟩
    | int n => exact ⟨some n, rfl⟩

theorem HidesOverlong.not_whole (h : HidesOverlong v) : ¬ Whole v := by
  intro hwhole
  cases hwhole with
  | null => exact h.unwritable Json.writable_null
  | int n => exact h.noInteger n rfl

/-- A mapping with a name. -/
def Named (v : Value) : Prop :=
  ∃ members, v = .object members ∧ (Value.field "name" members).isTruthy

theorem not_named_iff : ¬ Named v ↔ Unnamed v := by
  simp [Named, Unnamed]

theorem formField_ok_iff : (∃ field, formField v = .ok field) ↔ Named v := by
  constructor
  · rintro ⟨field, h⟩
    unfold formField at h
    split at h
    · next members =>
      split at h
      · next hname => exact ⟨members, rfl, hname⟩
      · obtain ⟨shown, -, h⟩ := ok_of_bind h
        cases h
    · obtain ⟨shown, -, h⟩ := ok_of_bind h
      cases h
  · rintro ⟨members, rfl, hname⟩
    rw [formField, if_pos hname]
    exact ⟨_, rfl⟩

theorem exists_forall₂_iff {α β : Type} {R : α → β → Prop} {xs : List α} :
    (∃ ys, List.Forall₂ R xs ys) ↔ ∀ x ∈ xs, ∃ y, R x y := by
  induction xs with
  | nil => simp
  | cons x xs ih =>
    rw [List.forall_mem_cons, ← ih]
    constructor
    · rintro ⟨ys, h⟩
      cases h with
      | cons hx hxs => exact ⟨⟨_, hx⟩, _, hxs⟩
    · rintro ⟨⟨y, hy⟩, ys, hys⟩
      exact ⟨y :: ys, .cons hy hys⟩

theorem mapM_ok_iff {ε α β : Type} {g : α → Except ε β} {xs : List α} {ys : List β} :
    xs.mapM g = .ok ys ↔ List.Forall₂ (fun x y => g x = .ok y) xs ys := by
  induction xs generalizing ys with
  | nil => simp [pure, Except.pure, eq_comm]
  | cons x xs ih =>
    rw [List.mapM_cons]
    simp only [bind_ok_iff, ih, List.forall₂_cons_left_iff]
    constructor
    · rintro ⟨y, hy, ys, hys, ⟨⟩⟩
      exact ⟨y, ys, hy, hys, rfl⟩
    · rintro ⟨y, ys, hy, hys, rfl⟩
      exact ⟨y, hy, ys, hys, rfl⟩

theorem form_ok_iff (h : v = .null ∨ ∃ items, v = .list items) :
    (∃ fields, form v = .ok fields) ↔ ∀ items, v = .list items → ∀ item ∈ items, Named item := by
  rcases h with rfl | ⟨items, rfl⟩
  · exact iff_of_true ⟨none, rfl⟩ fun items h => nomatch h
  · have hform : (∃ fields, form (.list items) = .ok fields) ↔
        ∃ fields, items.mapM formField = .ok fields := by
      constructor
      · rintro ⟨fields, h⟩
        obtain ⟨parts, hparts, h⟩ := ok_of_bind h
        cases hparts
        obtain ⟨fields, hfields, -⟩ := ok_of_bind h
        exact ⟨fields, hfields⟩
      · rintro ⟨fields, hfields⟩
        exact ⟨some fields, bind_ok_iff.2 ⟨items, rfl, bind_ok_iff.2 ⟨fields, hfields, rfl⟩⟩⟩
    rw [hform]
    simp only [mapM_ok_iff, exists_forall₂_iff, formField_ok_iff]
    constructor
    · rintro h _ ⟨⟩
      exact h
    · exact fun h => h items rfl

theorem exists_object (h : ¬ NoMapping v) (hgiven : v.isTruthy) : ∃ members, v = .object members :=
  not_forall_not.1 fun hnone => h ⟨hgiven, hnone⟩

/-- What a poll must say, if it says anything. -/
structure PollAcceptable (poll : Table Value) : Prop where
  endpoint : (Value.field "endpoint" poll).isTruthy
  successWhen : (Value.field "success_when" poll).isTruthy
  interval : Whole (Value.field "interval" poll)
  maxAttempts : Whole (Value.field "max_attempts" poll)

theorem pollSpec_object_ok_iff {poll : Table Value} (h : poll ≠ []) :
    (∃ spec, pollSpec (.object poll) = .ok spec) ↔ PollAcceptable poll := by
  have hgiven : (Value.object poll).isTruthy := by simpa [Value.isTruthy] using h
  by_cases hcomplete : (Value.field "endpoint" poll).isTruthy ∧
      (Value.field "success_when" poll).isTruthy
  · obtain ⟨hendpoint, hsuccess⟩ := hcomplete
    rw [pollSpec_of_complete hendpoint hsuccess]
    simp only [bind_ok_iff]
    constructor
    · rintro ⟨spec, interval, hinterval, maxAttempts, hmaxAttempts, -⟩
      exact ⟨hendpoint, hsuccess, integer?_ok_iff.1 ⟨_, hinterval⟩,
        integer?_ok_iff.1 ⟨_, hmaxAttempts⟩⟩
    · intro hpoll
      obtain ⟨interval, hinterval⟩ := integer?_ok_iff.2 hpoll.interval
      obtain ⟨maxAttempts, hmaxAttempts⟩ := integer?_ok_iff.2 hpoll.maxAttempts
      exact ⟨_, interval, hinterval, maxAttempts, hmaxAttempts, rfl⟩
  · rw [pollSpec_of_incomplete hgiven hcomplete]
    constructor
    · rintro ⟨spec, hspec⟩
      cases hspec
    · exact fun hpoll => absurd ⟨hpoll.endpoint, hpoll.successWhen⟩ hcomplete

theorem pollSpec_ok_iff (h : ¬ NoMapping v) : (∃ spec, pollSpec v = .ok spec) ↔
    ∀ poll, v = .object poll → poll ≠ [] → PollAcceptable poll := by
  by_cases hgiven : v.isTruthy
  · obtain ⟨poll, rfl⟩ := exists_object h hgiven
    have hpoll : poll ≠ [] := by simpa [Value.isTruthy] using hgiven
    rw [pollSpec_object_ok_iff hpoll]
    constructor
    · rintro h _ ⟨⟩ -
      exact h
    · exact fun h => h poll rfl hpoll
  · have hnone : pollSpec v = .ok none := by simp [pollSpec, hgiven]
    refine iff_of_true ⟨none, hnone⟩ ?_
    rintro poll rfl hpoll
    exact absurd (by simpa [Value.isTruthy] using hpoll) hgiven

/-! ## A step -/

/-- The parts of a step are of the kinds that are gone through. -/
structure StepShaped (step : Table Value) : Prop where
  rest : ∃ line, Value.field "rest" step = .text line
  form : Value.field "form" step = .null ∨ ∃ items, Value.field "form" step = .list items
  poll : ¬ NoMapping (Value.field "poll" step)

/-- The request line is one, every field of the form has a name, and a poll says what it must. -/
structure StepAcceptable (step : Table Value) : Prop where
  rest : ∀ line, Value.field "rest" step = .text line → (RestLine.parse? line).isSome
  form : ∀ items, Value.field "form" step = .list items → ∀ item ∈ items, Named item
  poll : ∀ poll, Value.field "poll" step = .object poll → poll ≠ [] → PollAcceptable poll

theorem textField_of_has (h : Table.has name members) :
    textField name members = Value.field name members := by
  obtain ⟨v, hv⟩ := Option.isSome_iff_exists.1 h
  rw [textField, Value.field, hv]
  rfl

theorem requestLine_ok_iff {line : String} :
    (∃ rest, requestLine (.text line) = .ok rest) ↔ (RestLine.parse? line).isSome := by
  rw [requestLine]
  cases RestLine.parse? line <;> simp [reject]

theorem eq_of_requestLine {line : String} (h : requestLine v = .ok line) : v = .text line := by
  unfold requestLine at h
  split at h
  · split at h
    · cases h
      rfl
    · cases h
  · split at h
    · cases h
    · obtain ⟨shown, -, h⟩ := ok_of_bind h
      cases h

theorem loadStep_ok_iff (hrest : Table.has "rest" step) (hshape : StepShaped step) :
    (∃ loaded, loadStep step default = .ok loaded) ↔
      StepAcceptable step ∧ Json.Writable (Value.field "id" step) := by
  obtain ⟨line, hline⟩ := hshape.rest
  constructor
  · rintro ⟨loaded, h⟩
    obtain ⟨hparse, hfields, hid, hspec⟩ := parts_of_loadStep h
    rw [textField_of_has hrest, hline] at hparse
    refine ⟨⟨?_, ?_, ?_⟩, stepId_ok_iff.1 ⟨_, hid⟩⟩
    · intro line' hline'
      obtain rfl := Value.text.inj (hline.symm.trans hline')
      exact requestLine_ok_iff.1 ⟨_, hparse⟩
    · exact (form_ok_iff hshape.form).1 ⟨_, hfields⟩
    · exact (pollSpec_ok_iff hshape.poll).1 ⟨_, hspec⟩
  · rintro ⟨hstep, hwritable⟩
    obtain ⟨rest, hparse⟩ := requestLine_ok_iff.2 (hstep.rest line hline)
    obtain ⟨fields, hfields⟩ := (form_ok_iff hshape.form).2 hstep.form
    obtain ⟨id, hid⟩ := stepId_ok_iff.2 hwritable
    obtain ⟨spec, hspec⟩ := (pollSpec_ok_iff hshape.poll).2 hstep.poll
    unfold loadStep
    rw [textField_of_has hrest, hline]
    simp only [bind_ok_iff]
    exact ⟨_, rest, hparse, fields, hfields, id, hid, spec, hspec, rfl⟩

/-- What is known of a loaded step by its entry and the place of that: its own name stands, if it
counts as given, and else the step is named after the place. -/
structure LoadedFrom (entry : Nat × Table Value) (step : Step) : Prop where
  loaded : loadStep entry.2 (Step.defaultId entry.1) = .ok step
  line : Value.field "rest" entry.2 = .text step.rest
  ownId : (Value.field "id" entry.2).isTruthy → (Value.field "id" entry.2).shown = .ok step.id
  defaultId : ¬ (Value.field "id" entry.2).isTruthy → step.id = Step.defaultId entry.1

theorem loadedFrom_of_loadStep {entry : Nat × Table Value} {loaded : Step}
    (hrest : Table.has "rest" entry.2)
    (h : loadStep entry.2 (Step.defaultId entry.1) = .ok loaded) : LoadedFrom entry loaded := by
  obtain ⟨hline, -, hid, -⟩ := parts_of_loadStep h
  refine ⟨h, ?_, fun hown => ?_, fun hown => ?_⟩
  · rw [← textField_of_has hrest]
    exact eq_of_requestLine hline
  · rw [stepId, if_pos hown] at hid
    cases hshown : (Value.field "id" entry.2).shown with
    | ok text =>
      rw [hshown] at hid
      cases hid
      rfl
    | error f =>
      rw [hshown] at hid
      cases hid
  · rw [stepId, if_neg hown] at hid
    exact (Except.ok.inj hid).symm

end RestDemo.Demo

import Mathlib.Algebra.Group.Nat.Defs
import RestDemo.Json.Writer

/-!
# What can be written

Only an integer with too many digits cannot be written, wherever it stands in a value: a list or a
mapping can be written exactly if its parts can (`write_list_ok_iff`, `write_object_ok_iff`). What
can be written with blanks after commas and colons is `Writable`.
-/

namespace RestDemo

namespace Json

/-- The value has a text. -/
def Writable (v : Value) : Prop := ∃ cs, write spaced v = .ok cs

theorem writable_null : Writable .null := ⟨_, rfl⟩

theorem writable_bool (b : Bool) : Writable (.bool b) := by
  cases b <;> exact ⟨_, rfl⟩

theorem writable_float (x : Float) : Writable (.float x) := ⟨_, rfl⟩

theorem writable_text (s : String) : Writable (.text s) := ⟨_, rfl⟩

theorem writable_int_iff {n : Int} :
    Writable (.int n) ↔ n.natAbs < 10 ^ Number.maxDigits := by
  have hlength : (Nat.toDigits 10 n.natAbs).length ≤ Number.maxDigits ↔
      n.natAbs < 10 ^ Number.maxDigits := Nat.length_toDigits_le_iff (by decide) (by decide)
  rw [← hlength, Writable, write.eq_def]
  dsimp only [writeScalar, Number.intText, Number.intText?]
  by_cases h : (Nat.toDigits 10 n.natAbs).length ≤ Number.maxDigits
  · rw [if_pos h]
    exact iff_of_true ⟨_, rfl⟩ h
  · rw [if_neg h]
    exact iff_of_false (fun ⟨_, hcs⟩ => nomatch hcs) h

theorem exists_ok_bind {α β : Type} {x : Except Fault α} {f : α → Except Fault β} :
    (∃ b, x >>= f = .ok b) ↔ ∃ a, x = .ok a ∧ ∃ b, f a = .ok b := by
  cases x <;> simp [bind, Except.bind]

theorem exists_ok_pure {α : Type} (a : α) : ∃ b, (pure a : Except Fault α) = .ok b := ⟨a, rfl⟩

theorem writeItems_ok_iff (sep : Separators) (vs : List Value) :
    (∃ cs, writeItems sep vs = .ok cs) ↔ ∀ v ∈ vs, ∃ cs, write sep v = .ok cs := by
  induction vs with
  | nil => simp [writeItems]
  | cons v vs ih =>
    cases vs with
    | nil => simp [writeItems]
    | cons v' vs =>
      rw [List.forall_mem_cons, ← ih, writeItems.eq_def]
      simp only [exists_ok_bind, exists_ok_pure, and_true, exists_and_right]

theorem writeMembers_ok_iff (sep : Separators) (ms : List (String × Value)) :
    (∃ cs, writeMembers sep ms = .ok cs) ↔ ∀ p ∈ ms, ∃ cs, write sep p.2 = .ok cs := by
  induction ms with
  | nil => simp [writeMembers]
  | cons p ms ih =>
    obtain ⟨k, v⟩ := p
    cases ms with
    | nil =>
      rw [List.forall_mem_singleton, writeMembers.eq_def]
      simp only [exists_ok_bind, exists_ok_pure, and_true]
    | cons p' ms =>
      rw [List.forall_mem_cons, ← ih, writeMembers.eq_def]
      simp only [exists_ok_bind, exists_ok_pure, and_true, exists_and_right]

theorem write_list_ok_iff (sep : Separators) (items : List Value) :
    (∃ cs, write sep (.list items) = .ok cs) ↔ ∀ v ∈ items, ∃ cs, write sep v = .ok cs := by
  rw [← writeItems_ok_iff, write]
  simp only [exists_ok_bind, exists_ok_pure, and_true]

theorem write_object_ok_iff (sep : Separators) (members : List (String × Value)) :
    (∃ cs, write sep (.object members) = .ok cs) ↔ ∀ p ∈ members, ∃ cs, write sep p.2 = .ok cs := by
  rw [← writeMembers_ok_iff, write]
  simp only [exists_ok_bind, exists_ok_pure, and_true]

theorem writable_list {items : List Value} : Writable (.list items) ↔ ∀ v ∈ items, Writable v :=
  write_list_ok_iff spaced items

theorem writable_object {members : Table Value} :
    Writable (.object members) ↔ ∀ p ∈ members, Writable p.2 :=
  write_object_ok_iff spaced members

/-- What does not count as given can be written. -/
theorem writable_of_not_isTruthy {v : Value} (h : ¬ v.isTruthy) : Writable v := by
  cases v with
  | null => exact writable_null
  | bool b => exact writable_bool b
  | int n =>
    obtain rfl : n = 0 := by simpa [Value.isTruthy] using h
    exact ⟨_, rfl⟩
  | float x => exact writable_float x
  | text s => exact writable_text s
  | list items =>
    obtain rfl : items = [] := by simpa [Value.isTruthy] using h
    exact ⟨_, rfl⟩
  | object members =>
    obtain rfl : members = [] := by simpa [Value.isTruthy] using h
    exact ⟨_, rfl⟩

end Json

end RestDemo

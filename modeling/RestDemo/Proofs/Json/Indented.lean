import RestDemo.Proofs.Json.Writable

/-!
# What can be written over several lines

A value has a text over several lines exactly if it has one on one line (`indentedText_ok_iff`).
-/

namespace RestDemo.Json

mutual

theorem writeIndented_ok_iff : ∀ (level : Nat) (v : Value),
    (∃ cs, writeIndented level v = .ok cs) ↔ Writable v
  | _, .null | _, .bool _ | _, .int _ | _, .float _ | _, .text _ => by
    rw [Writable, writeIndented.eq_def, write.eq_def]
  | _, .list [] => iff_of_true ⟨_, rfl⟩ ⟨_, rfl⟩
  | level, .list (v :: vs) => by
    rw [writable_list, List.forall_mem_cons, ← writeIndented_ok_iff (level + 1) v,
      ← writeIndentedItems_ok_iff (level + 1) vs, writeIndented]
    simp only [exists_ok_bind, exists_ok_pure, and_true, exists_and_right]
  | _, .object [] => iff_of_true ⟨_, rfl⟩ ⟨_, rfl⟩
  | level, .object ((k, v) :: ms) => by
    rw [writable_object, List.forall_mem_cons, ← writeIndented_ok_iff (level + 1) v,
      ← writeIndentedMembers_ok_iff (level + 1) ms, writeIndented]
    simp only [exists_ok_bind, exists_ok_pure, and_true, exists_and_right]

theorem writeIndentedItems_ok_iff : ∀ (level : Nat) (vs : List Value),
    (∃ cs, writeIndentedItems level vs = .ok cs) ↔ ∀ v ∈ vs, Writable v
  | _, [] => iff_of_true ⟨_, rfl⟩ (List.forall_mem_nil _)
  | level, v :: vs => by
    rw [List.forall_mem_cons, ← writeIndented_ok_iff level v, ← writeIndentedItems_ok_iff level vs,
      writeIndentedItems]
    simp only [exists_ok_bind, exists_ok_pure, and_true, exists_and_right]

theorem writeIndentedMembers_ok_iff : ∀ (level : Nat) (ms : List (String × Value)),
    (∃ cs, writeIndentedMembers level ms = .ok cs) ↔ ∀ p ∈ ms, Writable p.2
  | _, [] => iff_of_true ⟨_, rfl⟩ (List.forall_mem_nil _)
  | level, (k, v) :: ms => by
    rw [List.forall_mem_cons, ← writeIndented_ok_iff level v, ← writeIndentedMembers_ok_iff level ms,
      writeIndentedMembers]
    simp only [exists_ok_bind, exists_ok_pure, and_true, exists_and_right]

end

theorem indentedText_ok_iff {v : Value} : (∃ text, indentedText v = .ok text) ↔ Writable v := by
  rw [← writeIndented_ok_iff 0 v, indentedText]
  cases writeIndented 0 v <;> simp [Except.map]

end RestDemo.Json

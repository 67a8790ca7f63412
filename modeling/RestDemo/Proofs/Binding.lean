import RestDemo.Binding
import RestDemo.Proofs.Limits

/-!
# What is saved of an answer

A path leads to a part of a document, so what holds of a document and of whatever is in it holds of
all that is saved of it (`Binding.forall_save`), the status apart.
-/

namespace RestDemo

/-- The property passes on from lists and mappings to what they hold. -/
structure Value.Inherited (P : Value → Prop) : Prop where
  items {items : List Value} (whole : P (.list items)) : ∀ v ∈ items, P v
  entries {members : Table Value} (whole : P (.object members)) : ∀ p ∈ members, P p.2

variable {P : Value → Prop}

namespace Path

theorem mem_of_item? {items : List Value} {i : Int} {part : Value} (h : item? items i = some part) :
    part ∈ items := by
  unfold item? at h
  by_cases hi : i < 0
  · rw [if_pos hi] at h
    cases h
  · rw [if_neg hi] at h
    exact List.mem_of_getElem? h

theorem of_follow (hP : Value.Inherited P) {segment : Segment} {v part : Value}
    (h : follow segment v = .ok (some part)) (hv : P v) : P part := by
  unfold follow at h
  split at h
  · exact hP.items hv part (mem_of_item? (Except.ok.inj h))
  · exact hP.entries hv _ (Table.mem_of_get? (Except.ok.inj h))
  · split at h
    · split at h
      · exact hP.items hv part (mem_of_item? (Except.ok.inj h))
      · cases h
    · cases h
  · cases h

theorem of_followAll (hP : Value.Inherited P) {segments : List Segment} {v part : Value}
    (h : followAll segments (some v) = .ok (some part)) (hv : P v) : P part := by
  induction segments generalizing v with
  | nil =>
    cases h
    exact hv
  | cons segment rest ih =>
    unfold followAll at h
    rcases hfollow : follow segment v with f | _ | next
    · rw [hfollow] at h
      cases h
    · rw [hfollow] at h
      cases rest <;> cases h
    · rw [hfollow] at h
      exact ih h (of_follow hP hfollow hv)

theorem of_extract (hP : Value.Inherited P) {path : String} {v part : Value}
    (h : extract (some v) path = .ok (some part)) (hv : P v) : P part := by
  unfold extract at h
  cases hparse : parse? path with
  | none =>
    rw [hparse] at h
    cases h
  | some segments =>
    rw [hparse] at h
    exact of_followAll hP h hv

/-- A path that a document gives leads to a part of the other document, or to the whole of it. -/
theorem of_extractAt (hP : Value.Inherited P) {path v part : Value}
    (h : extractAt v path = .ok (some part)) (hv : P v) : P part := by
  unfold extractAt at h
  split at h
  · exact of_extract hP h hv
  · split at h
    · cases h
      exact hv
    · split at h
      · cases h
      · split at h
        · cases h
        · cases h
          exact hv
        · cases h
        · cases h
        · cases h
      · cases h

end Path

namespace Binding

variable {status : Int} {document : Value}

theorem of_found (hP : Value.Inherited P) (hstatus : P (.int status)) (hdocument : P document)
    {path part : Value} (h : found status document path = .ok (some part)) : P part := by
  unfold found at h
  split at h
  · split at h
    · cases h
      exact hstatus
    · split at h
      · cases h
      · exact Path.of_extract hP h hdocument
  · cases h
  · exact Path.of_extractAt hP h hdocument

theorem forall_saveEntries (hP : Value.Inherited P) (hstatus : P (.int status))
    (hdocument : P document) (members : List (String × Value)) {saved : Saved}
    (h : ∀ p ∈ saved.store, P p.2) :
    ∀ p ∈ (saveEntries status document members saved).1.store, P p.2 := by
  induction members generalizing saved with
  | nil => exact h
  | cons member rest ih =>
    obtain ⟨name, path⟩ := member
    unfold saveEntries
    rcases hfound : found status document path with f | _ | v
    · exact h
    · exact ih h
    · refine ih fun p hp => ?_
      rcases Table.mem_of_mem_set hp with rfl | hp
      · exact of_found hP hstatus hdocument hfound
      · exact h p hp

/-- What holds of the status, of the document with all that is in it, and of the variables holds of
the variables after parts of the document were saved. -/
theorem forall_save (hP : Value.Inherited P) (hstatus : P (.int status)) (hdocument : P document)
    {mapping : Value} {store : Store} {saved : Saved} {fault? : Option Fault}
    (h : save mapping status document store = (saved, fault?)) (hstore : ∀ p ∈ store, P p.2) :
    ∀ p ∈ saved.store, P p.2 := by
  obtain rfl : saved = (save mapping status document store).1 := by rw [h]
  unfold save
  cases mapping with
  | object members => exact forall_saveEntries hP hstatus hdocument members hstore
  | _ => exact hstore

end Binding

end RestDemo

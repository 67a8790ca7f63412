import RestDemo.Proofs.Json.Writable
import RestDemo.Proofs.Limits

/-!
# What is spelled out

No value but a text is spelled out without a character, so a value that counts as given is shown as
a text that is not empty (`Value.shown_ne_empty`). The values that can be shown are those that can be
written in a document (`Value.shown_ok_iff`).
-/

namespace RestDemo

namespace Number

theorem intDigits_ne_nil (n : Int) : intDigits n ≠ [] := by
  unfold intDigits
  split
  · exact List.cons_ne_nil _ _
  · exact Nat.toDigits_ne_nil

theorem intText_ne_nil {n : Int} {cs : List Char} (h : intText n = .ok cs) : cs ≠ [] := by
  unfold intText intText? at h
  by_cases hlength : (Nat.toDigits 10 n.natAbs).length ≤ maxDigits
  · rw [if_pos hlength] at h
    cases h
    exact intDigits_ne_nil n
  · rw [if_neg hlength] at h
    cases h

theorem FloatLayout.decimal_ne_nil (l : FloatLayout) {digits : List Char} (h : digits ≠ [])
    (e : Int) : l.decimal digits e ≠ [] := by
  unfold decimal
  dsimp only
  split
  · repeat' split <;> simp
  · match digits, h with
    | [d], _ | d :: d' :: ds, _ => exact List.cons_ne_nil _ _

theorem floatText_ne_nil (x : Float) : floatText x ≠ [] := by
  have hsigned (negative : Bool) {cs : List Char} (h : cs ≠ []) :
      (if negative then '-' :: cs else cs) ≠ [] := by
    cases negative
    · exact h
    · exact List.cons_ne_nil _ _
  unfold floatText FloatLayout.text
  cases Binary64.ofFloat x with
  | nan => decide
  | infinite negative => exact hsigned negative (by decide)
  | finite negative m q =>
    refine hsigned negative ?_
    split
    · decide
    · exact FloatLayout.decimal_ne_nil _ Nat.toDigits_ne_nil _

end Number

namespace Value

theorem spell_ne_nil {v : Value} {cs : List Char} (hv : ∀ s, v ≠ .text s) (h : v.spell = .ok cs) :
    cs ≠ [] := by
  rw [spell.eq_def] at h
  match v with
  | .null | .bool true | .bool false => cases h; decide
  | .int n => exact Number.intText_ne_nil h
  | .float x =>
    cases h
    exact Number.floatText_ne_nil x
  | .text s => exact absurd rfl (hv s)
  | .list items =>
    obtain ⟨parts, -, h⟩ := ok_of_bind h
    cases h
    exact List.cons_ne_nil _ _
  | .object members =>
    obtain ⟨parts, -, h⟩ := ok_of_bind h
    cases h
    exact List.cons_ne_nil _ _

theorem shown_eq_map {v : Value} (hv : ∀ s, v ≠ .text s) : v.shown = v.spell.map String.ofList := by
  cases v with
  | text s => exact absurd rfl (hv s)
  | _ => rfl

theorem shown_ne_empty {v : Value} {text : String} (hv : v.isTruthy) (h : v.shown = .ok text) :
    text ≠ "" := by
  by_cases htext : ∃ s, v = .text s
  · obtain ⟨s, rfl⟩ := htext
    cases h
    simpa [isTruthy] using hv
  · have hne : ∀ s, v ≠ .text s := fun s hs => htext ⟨s, hs⟩
    rw [shown_eq_map hne] at h
    obtain ⟨cs, hcs, rfl⟩ := ok_of_map h
    intro hempty
    refine spell_ne_nil hne hcs ?_
    rw [← String.toList_ofList (l := cs), hempty]
    rfl

/-! ## What can be spelled out -/

open Json

mutual

theorem spell_ok_iff : ∀ v : Value, (∃ cs, spell v = .ok cs) ↔ Writable v
  | .null => iff_of_true ⟨_, rfl⟩ writable_null
  | .bool b => iff_of_true (by cases b <;> exact ⟨_, rfl⟩) (writable_bool b)
  | .int n => by
    rw [spell, Writable, write.eq_def]
    exact Iff.rfl
  | .float x => iff_of_true ⟨_, rfl⟩ (writable_float x)
  | .text s => iff_of_true ⟨_, rfl⟩ (writable_text s)
  | .list items => by
    rw [writable_list, ← spellItems_ok_iff items, spell]
    simp only [exists_ok_bind, exists_ok_pure, and_true]
  | .object members => by
    rw [writable_object, ← spellMembers_ok_iff members, spell]
    simp only [exists_ok_bind, exists_ok_pure, and_true]

theorem spellItems_ok_iff : ∀ vs : List Value,
    (∃ cs, spellItems vs = .ok cs) ↔ ∀ v ∈ vs, Writable v
  | [] => iff_of_true ⟨_, rfl⟩ (List.forall_mem_nil _)
  | [v] => by rw [List.forall_mem_singleton, ← spell_ok_iff v, spellItems]
  | v :: v' :: vs => by
    rw [List.forall_mem_cons, ← spell_ok_iff v, ← spellItems_ok_iff (v' :: vs), spellItems.eq_def]
    simp only [exists_ok_bind, exists_ok_pure, and_true, exists_and_right]

theorem spellMembers_ok_iff : ∀ ms : List (String × Value),
    (∃ cs, spellMembers ms = .ok cs) ↔ ∀ p ∈ ms, Writable p.2
  | [] => iff_of_true ⟨_, rfl⟩ (List.forall_mem_nil _)
  | [(k, v)] => by
    rw [List.forall_mem_singleton, ← spell_ok_iff v, spellMembers.eq_def]
    simp only [exists_ok_bind, exists_ok_pure, and_true]
  | (k, v) :: m :: ms => by
    rw [List.forall_mem_cons, ← spell_ok_iff v, ← spellMembers_ok_iff (m :: ms), spellMembers.eq_def]
    simp only [exists_ok_bind, exists_ok_pure, and_true, exists_and_right]

end

mutual

/-- The only fault of spelling out is an integer with too many digits. -/
theorem tooLong_of_spell {f : Fault} : ∀ {v : Value}, spell v = .error f → f = .tooLong
  | .int n, h => by
    rw [spell, Number.intText] at h
    cases htext : Number.intText? n <;> rw [htext] at h <;> cases h
    rfl
  | .list items, h => by
    rw [spell, bind_error_iff] at h
    rcases h with h | ⟨_, -, h⟩
    · exact tooLong_of_spellItems h
    · cases h
  | .object members, h => by
    rw [spell, bind_error_iff] at h
    rcases h with h | ⟨_, -, h⟩
    · exact tooLong_of_spellMembers h
    · cases h

theorem tooLong_of_spellItems {f : Fault} : ∀ {vs : List Value},
    spellItems vs = .error f → f = .tooLong
  | [v], h => tooLong_of_spell h
  | v :: v' :: vs, h => by
    rw [spellItems.eq_def] at h
    simp only [bind_error_iff] at h
    rcases h with h | ⟨_, -, h | ⟨_, -, h⟩⟩
    · exact tooLong_of_spell h
    · exact tooLong_of_spellItems h
    · cases h

theorem tooLong_of_spellMembers {f : Fault} : ∀ {ms : List (String × Value)},
    spellMembers ms = .error f → f = .tooLong
  | [(k, v)], h => by
    rw [spellMembers.eq_def] at h
    simp only [bind_error_iff] at h
    rcases h with h | ⟨_, -, h⟩
    · exact tooLong_of_spell h
    · cases h
  | (k, v) :: m :: ms, h => by
    rw [spellMembers.eq_def] at h
    simp only [bind_error_iff] at h
    rcases h with h | ⟨_, -, h | ⟨_, -, h⟩⟩
    · exact tooLong_of_spell h
    · exact tooLong_of_spellMembers h
    · cases h

end

theorem spell_error_iff {v : Value} {f : Fault} :
    v.spell = .error f ↔ ¬ Writable v ∧ f = .tooLong := by
  rw [← spell_ok_iff]
  constructor
  · intro h
    refine ⟨?_, tooLong_of_spell h⟩
    rintro ⟨cs, hcs⟩
    rw [h] at hcs
    cases hcs
  · rintro ⟨hnot, rfl⟩
    cases h : v.spell with
    | ok cs => exact absurd ⟨cs, h⟩ hnot
    | error g => rw [tooLong_of_spell h]

theorem shown_ok_iff {v : Value} : (∃ text, v.shown = .ok text) ↔ Writable v := by
  by_cases htext : ∃ s, v = .text s
  · obtain ⟨s, rfl⟩ := htext
    exact iff_of_true ⟨s, rfl⟩ (writable_text s)
  · rw [shown_eq_map fun s hs => htext ⟨s, hs⟩, ← spell_ok_iff]
    cases v.spell <;> simp [Except.map]

theorem shown_error_iff {v : Value} {f : Fault} :
    v.shown = .error f ↔ ¬ Writable v ∧ f = .tooLong := by
  by_cases htext : ∃ s, v = .text s
  · obtain ⟨s, rfl⟩ := htext
    exact iff_of_false (fun h => nomatch h) fun h => h.1 (writable_text s)
  · rw [shown_eq_map fun s hs => htext ⟨s, hs⟩, ← spell_error_iff]
    cases v.spell <;> simp [Except.map]

end Value

end RestDemo

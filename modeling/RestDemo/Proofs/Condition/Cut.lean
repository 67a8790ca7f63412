import RestDemo.Condition.Basic

/-!
# Where a condition is cut

A text can be cut where it has the sign of a comparison with something on both sides (`CutAt`). Of
all these places the first is taken: `cut_eq_some_iff` and `cut_eq_none_iff` say so of the scan that
looks for it.
-/

namespace RestDemo.Condition

variable {cs before after : List Char} {c : Char} {i : Nat} {comparison : Comparison}

/-- The text has the sign of the comparison at the place, and a character or more on both sides. -/
structure CutAt (cs : List Char) (i : Nat) (comparison : Comparison) : Prop where
  before : 1 ≤ i
  sign : comparison.sign.toList <+: cs.drop i
  after : i + 2 < cs.length

/-- The first place at which the text can be cut. -/
structure FirstCut (cs : List Char) (i : Nat) (comparison : Comparison) : Prop where
  here : CutAt cs i comparison
  least : ∀ j other, CutAt cs j other → i ≤ j

/-! ## Signs -/

theorem drop_sign (comparison : Comparison) (after : List Char) :
    (comparison.sign.toList ++ after).drop 2 = after := by
  cases comparison <;> rfl

theorem sign?_eq_some_iff : sign? cs = some (comparison, after) ↔
    cs = comparison.sign.toList ++ after ∧ after ≠ [] := by
  constructor
  · intro h
    unfold sign? at h
    split at h
    · cases h
      exact ⟨rfl, List.cons_ne_nil _ _⟩
    · cases h
      exact ⟨rfl, List.cons_ne_nil _ _⟩
    · cases h
  · rintro ⟨rfl, hafter⟩
    obtain ⟨c, rest, rfl⟩ := List.exists_cons_of_ne_nil hafter
    cases comparison <;> rfl

/-- No text begins with two signs. -/
theorem eq_of_sign_prefix {other : Comparison} (h : comparison.sign.toList <+: cs)
    (hother : other.sign.toList <+: cs) : comparison = other := by
  obtain ⟨rest, rfl⟩ := h
  obtain ⟨rest', hrest⟩ := hother
  cases comparison <;> cases other <;> first | rfl | simp [Comparison.sign] at hrest

theorem cutAt_iff : CutAt cs i comparison ↔
    1 ≤ i ∧ sign? (cs.drop i) = some (comparison, cs.drop (i + 2)) := by
  rw [sign?_eq_some_iff]
  constructor
  · rintro ⟨hbefore, ⟨rest, hrest⟩, hafter⟩
    have hdrop : cs.drop (i + 2) = rest := by
      rw [← List.drop_drop, ← hrest, drop_sign]
    refine ⟨hbefore, ?_, ?_⟩
    · rw [hdrop, hrest]
    · rw [Ne, List.drop_eq_nil_iff]
      omega
  · rintro ⟨hbefore, hsign, hafter⟩
    rw [Ne, List.drop_eq_nil_iff] at hafter
    exact ⟨hbefore, ⟨_, hsign.symm⟩, by omega⟩

theorem not_cutAt_nil : ¬ CutAt [] i comparison := fun h => absurd h.after (Nat.not_lt_zero _)

theorem cutAt_one_iff :
    CutAt (c :: cs) 1 comparison ↔ ∃ after, sign? cs = some (comparison, after) := by
  rw [cutAt_iff, List.drop_succ_cons, List.drop_zero]
  constructor
  · rintro ⟨-, h⟩
    exact ⟨_, h⟩
  · rintro ⟨after, h⟩
    obtain ⟨rfl, -⟩ := sign?_eq_some_iff.1 h
    rw [List.drop_succ_cons, drop_sign]
    exact ⟨Nat.le_refl 1, h⟩

theorem cutAt_succ_iff (hi : 1 ≤ i) :
    CutAt (c :: cs) (i + 1) comparison ↔ CutAt cs i comparison := by
  simp [cutAt_iff, hi]

/-- If there is no sign after the first character, a cut is one of the text without it. -/
theorem cutAt_cons (hsign : sign? cs = none) (h : CutAt (c :: cs) i comparison) :
    ∃ j, i = j + 1 ∧ CutAt cs j comparison := by
  obtain ⟨j, rfl⟩ := Nat.exists_eq_add_of_le' h.before
  refine ⟨j, rfl, ?_⟩
  rcases Nat.eq_zero_or_pos j with rfl | hj
  · obtain ⟨after, hafter⟩ := cutAt_one_iff.1 h
    rw [hsign] at hafter
    cases hafter
  · exact (cutAt_succ_iff hj).1 h

/-! ## The first place -/

theorem FirstCut.eq {j : Nat} {other : Comparison} (h : FirstCut cs i comparison)
    (hother : FirstCut cs j other) : i = j ∧ comparison = other := by
  obtain rfl : i = j := Nat.le_antisymm (h.least j other hother.here)
    (hother.least i comparison h.here)
  exact ⟨rfl, eq_of_sign_prefix h.here.sign hother.here.sign⟩

theorem firstCut_one (h : sign? cs = some (comparison, after)) :
    FirstCut (c :: cs) 1 comparison where
  here := cutAt_one_iff.2 ⟨after, h⟩
  least := fun _ _ hcut => hcut.before

theorem firstCut_succ (hsign : sign? cs = none) (h : FirstCut cs i comparison) :
    FirstCut (c :: cs) (i + 1) comparison where
  here := (cutAt_succ_iff h.here.before).2 h.here
  least := by
    intro j other hcut
    obtain ⟨j, rfl, hlater⟩ := cutAt_cons hsign hcut
    exact Nat.succ_le_succ (h.least j other hlater)

theorem cut_cons_of_sign (h : sign? cs = some (comparison, after)) :
    cut (c :: cs) = some ([c], comparison, after) := by
  rw [cut, h]

theorem cut_cons_of_none (h : sign? cs = none) :
    cut (c :: cs) = (cut cs).map fun (before, comparison, after) =>
      (c :: before, comparison, after) := by
  rw [cut, h]

theorem exists_firstCut (h : cut cs = some (before, comparison, after)) :
    ∃ i, FirstCut cs i comparison ∧ before = cs.take i ∧ after = cs.drop (i + 2) := by
  induction cs generalizing before with
  | nil => cases h
  | cons c cs ih =>
    cases hsign : sign? cs with
    | some parts =>
      obtain ⟨found, rest⟩ := parts
      rw [cut_cons_of_sign hsign] at h
      cases h
      have hfirst := firstCut_one (c := c) hsign
      have hafter := (cutAt_iff.1 hfirst.here).2
      rw [List.drop_one, List.tail_cons, hsign] at hafter
      cases hafter
      exact ⟨1, hfirst, rfl, rfl⟩
    | none =>
      rw [cut_cons_of_none hsign, Option.map_eq_some_iff] at h
      obtain ⟨⟨before', found, rest⟩, hcut, heq⟩ := h
      cases heq
      obtain ⟨i, hfirst, rfl, rfl⟩ := ih hcut
      exact ⟨i + 1, firstCut_succ hsign hfirst, rfl, rfl⟩

theorem cut_eq_none_iff : cut cs = none ↔ ∀ i comparison, ¬ CutAt cs i comparison := by
  constructor
  · intro h
    induction cs with
    | nil => exact fun i comparison => not_cutAt_nil
    | cons c cs ih =>
      cases hsign : sign? cs with
      | some parts =>
        rw [cut_cons_of_sign hsign] at h
        cases h
      | none =>
        rw [cut_cons_of_none hsign, Option.map_eq_none_iff] at h
        intro i comparison hcut
        obtain ⟨j, rfl, hlater⟩ := cutAt_cons hsign hcut
        exact ih h j comparison hlater
  · intro h
    cases hcut : cut cs with
    | none => rfl
    | some parts =>
      obtain ⟨before, comparison, after⟩ := parts
      obtain ⟨i, hfirst, -⟩ := exists_firstCut hcut
      exact absurd hfirst.here (h i comparison)

/-- A text is cut at the first place where it can be. -/
theorem cut_eq_some_iff : cut cs = some (before, comparison, after) ↔
    ∃ i, FirstCut cs i comparison ∧ before = cs.take i ∧ after = cs.drop (i + 2) := by
  refine ⟨exists_firstCut, ?_⟩
  rintro ⟨i, hfirst, rfl, rfl⟩
  cases hcut : cut cs with
  | none => exact absurd hfirst.here (cut_eq_none_iff.1 hcut i comparison)
  | some parts =>
    obtain ⟨before, other, after⟩ := parts
    obtain ⟨j, hother, rfl, rfl⟩ := exists_firstCut hcut
    obtain ⟨rfl, rfl⟩ := hfirst.eq hother
    rfl

end RestDemo.Condition

import Mathlib.Data.List.TakeWhile
import RestDemo.Path
import RestDemo.Proofs.Json.Integer

/-!
# Integers between brackets

What stands between the brackets of a path is an integer, perhaps with blanks around it and with
underscores between its digits. An integer in base ten is read as itself unless it has too many
digits (`Path.place?_intDigits`). Only signs, digits, underscores and blanks make up an integer
(`Path.mem_of_place?`), so that there is none in which a point or a bracket is
(`Path.place?_eq_none`).
-/

namespace RestDemo

variable {cs ds : List Char} {c : Char}

/-! ## Rows of digits -/

namespace Text

theorem mem_trimStart (hc : c ∈ cs) : isBlank c ∨ c ∈ trimStart cs := by
  rw [← List.takeWhile_append_dropWhile (p := isBlank) (l := cs), List.mem_append] at hc
  exact hc.imp_left fun htaken => List.mem_takeWhile_imp htaken

theorem mem_trim (hc : c ∈ cs) : isBlank c ∨ c ∈ trim cs := by
  rcases mem_trimStart hc with hblank | hleft
  · exact .inl hblank
  · rw [trim, trimEnd_eq_reverse, List.mem_reverse]
    exact mem_trimStart (List.mem_reverse.2 hleft)

theorem toNat_lt_of_isDigit (h : c.isDigit) : c.toNat < 0x80 :=
  Nat.lt_of_le_of_lt (isDigit_iff_bounds.1 h).2 (by decide)

end Text

namespace Number

theorem groupedDigits?_digits (hds : ∀ d ∈ ds, Text.isDigit d) (hgiven : ds ≠ []) :
    groupedDigits? ds = some ds := by
  fun_induction groupedDigits? ds with
  | case1 => exact absurd rfl hgiven
  | case2 d hd => rfl
  | case3 d hd => exact absurd (hds d List.mem_cons_self) hd
  | case4 d ds hd ih =>
    have hunderscore := hds '_' (List.mem_cons_of_mem _ List.mem_cons_self)
    exact absurd hunderscore (by decide)
  | case5 d ds hd => exact absurd (hds d List.mem_cons_self) hd
  | case6 d ds hother hmore hd ih =>
    rw [ih (fun e he => hds e (List.mem_cons_of_mem _ he)) (fun h => hother h)]
    rfl
  | case7 d ds hother hmore hd => exact absurd (hds d List.mem_cons_self) hd

theorem mem_of_groupedDigits? (h : groupedDigits? cs = some ds) (hc : c ∈ cs) :
    c = '_' ∨ Text.isDigit c := by
  fun_induction groupedDigits? cs generalizing ds with
  | case1 => cases hc
  | case2 d hd =>
    obtain rfl := List.mem_singleton.1 hc
    exact .inr hd
  | case3 d hd => cases h
  | case4 d cs hd ih =>
    obtain ⟨others, hothers, -⟩ := Option.map_eq_some_iff.1 h
    rcases List.mem_cons.1 hc with rfl | hc
    · exact .inr hd
    · rcases List.mem_cons.1 hc with rfl | hc
      · exact .inl rfl
      · exact ih hothers hc
  | case5 d cs hd => cases h
  | case6 d cs hother hmore hd ih =>
    obtain ⟨others, hothers, -⟩ := Option.map_eq_some_iff.1 h
    rcases List.mem_cons.1 hc with rfl | hc
    · exact .inr hd
    · exact ih hothers hc
  | case7 d cs hother hmore hd => cases h

theorem mem_splitSign (hc : c ∈ cs) : c = '-' ∨ c = '+' ∨ c ∈ (splitSign cs).2 := by
  unfold splitSign
  split
  · exact (List.mem_cons.1 hc).imp_right .inr
  · exact .inr (List.mem_cons.1 hc)
  · exact .inr (.inr hc)

theorem splitSign_intDigits (n : Int) :
    splitSign (intDigits n) = (decide (n < 0), Nat.toDigits 10 n.natAbs) := by
  obtain ⟨d, ds, hdigits, hd, ⟨hneg, hwritten⟩ | ⟨hneg, hwritten⟩⟩ := Json.intDigits_cases n
  · rw [hwritten, hdigits, decide_eq_true hneg]
    rfl
  · have hsign (c : Char) (hc : ¬ c.isDigit) : d ≠ c := fun h => hc (h ▸ hd)
    rw [hwritten, hdigits, decide_eq_false hneg]
    unfold splitSign
    split
    · next heq => exact absurd (List.cons.inj heq).1 (hsign '-' (by decide))
    · next heq => exact absurd (List.cons.inj heq).1 (hsign '+' (by decide))
    · rfl

end Number

namespace Path

/-! ## What is read between brackets -/

theorem place?_intDigits (i : Int) : place? (Number.intDigits i) =
    if i.natAbs < 10 ^ Number.maxDigits then some i else none := by
  have hascii : (Number.intDigits i).all (·.toNat < 0x80) := by
    rw [List.all_eq_true]
    intro c hc
    rcases Number.mem_intDigits hc with rfl | hdigit
    · rfl
    · exact decide_eq_true (Text.toNat_lt_of_isDigit hdigit)
  have hdigits : Number.groupedDigits? (Nat.toDigits 10 i.natAbs) =
      some (Nat.toDigits 10 i.natAbs) := by
    apply Number.groupedDigits?_digits
    · intro d hd
      exact Text.isDigit_of_isDigit (Number.isDigit_of_mem_toDigits hd)
    · exact Nat.toDigits_ne_nil
  have hlength : (Nat.toDigits 10 i.natAbs).length ≤ Number.maxDigits ↔
      i.natAbs < 10 ^ Number.maxDigits := Nat.length_toDigits_le_iff (by decide) (by decide)
  unfold place?
  simp only [(Number.bare_intDigits i).trim_eq, hascii, Number.splitSign_intDigits, hdigits,
    Number.ofSignDigits_intDigits, hlength, ↓reduceIte]

theorem mem_of_place? {i : Int} (h : place? cs = some i) (hc : c ∈ cs) :
    Text.isBlank c ∨ c = '-' ∨ c = '+' ∨ c = '_' ∨ Text.isDigit c := by
  rcases Text.mem_trim hc with hblank | hc
  · exact .inl hblank
  · unfold place? at h
    dsimp only at h
    split at h
    · split at h
      · next hgrouped =>
        rcases Number.mem_splitSign hc with hminus | hplus | hc
        · exact .inr (.inl hminus)
        · exact .inr (.inr (.inl hplus))
        · exact .inr (.inr (.inr (Number.mem_of_groupedDigits? hgrouped hc)))
      · cases h
    · cases h

/-- There is no integer in which a point or an opening bracket is. -/
theorem place?_eq_none (hc : c ∈ cs) (hopens : c = '.' ∨ c = '[') : place? cs = none := by
  rw [Option.eq_none_iff_forall_ne_some]
  intro i hi
  have hmade := mem_of_place? hi hc
  rcases hopens with rfl | rfl <;> exact absurd hmade (by decide)

end Path

end RestDemo

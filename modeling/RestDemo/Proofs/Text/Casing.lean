import RestDemo.Text.Casing

/-!
# Upper case, once and twice

The upper-case form of an upper-case form is the same text where it is made of the letters of
ASCII (`upper_upper_of_ascii`). The characters besides capitals whose form is made of such letters
are few (`isSmall`), and none of them stands in an upper-case form. What the table of rows says of
whole ranges is checked row by row.
-/

namespace RestDemo.Text

/-- The ranges of the characters whose upper-case form is made of other letters of ASCII: its small
letters, the sharp s, the i without a dot, the long s, and the ligatures. -/
def smallRanges : List (Nat × Nat) :=
  [(0x61, 0x7A), (0xDF, 0xDF), (0x131, 0x131), (0x17F, 0x17F), (0xFB00, 0xFB06)]

def isSmall (n : Nat) : Bool :=
  smallRanges.any fun (lo, hi) => lo ≤ n && n ≤ hi

theorem isSmall_iff {n : Nat} : isSmall n ↔ (0x61 ≤ n ∧ n ≤ 0x7A) ∨ n = 0xDF ∨ n = 0x131 ∨
    n = 0x17F ∨ (0xFB00 ≤ n ∧ n ≤ 0xFB06) := by
  simp only [isSmall, smallRanges, List.any_cons, List.any_nil, Bool.or_false, Bool.or_eq_true,
    Bool.and_eq_true, decide_eq_true_eq]
  omega

namespace CaseRow

/-- The characters of the row are mapped to codes of characters, and to none of the small ones. -/
def avoidsSmall (r : CaseRow) : Bool :=
  (0 ≤ r.first + r.offset && r.last + r.offset < 0xD800 || 0xE000 ≤ r.first + r.offset &&
    r.last + r.offset < 0x110000) &&
  smallRanges.all fun (lo, hi) => r.last + r.offset < lo || hi < r.first + r.offset

/-- The row is one of ASCII, it maps to no character of ASCII, or it is of a small one. -/
def staysOut (r : CaseRow) : Bool :=
  r.last < 0x80 || 0x80 ≤ r.first + r.offset || (r.first = r.last && isSmall r.first)

end CaseRow

/-! ## Rows, letters of ASCII and expansions -/

theorem checked_upperRows : ∀ r ∈ upperRows, r.avoidsSmall ∧ r.staysOut := by
  decide +kernel

theorem toUpper_of_ascii : ∀ n < 0x80, isSmall (Char.ofNat n).toUpper.toNat = false ∧
    (isSmall n = false → (Char.ofNat n).toUpper = Char.ofNat n) := by
  decide +kernel

theorem checked_upperExpansions : ∀ p ∈ upperExpansions, p.2.any (isSmall ·.toNat) = false ∧
    (isSmall p.1 || p.2.any (0x80 ≤ ·.toNat)) := by
  decide +kernel

theorem upperExpansions_not_small :
    ∀ p ∈ upperExpansions, ∀ c ∈ p.2, isSmall c.toNat = false := by
  intro p hp c hc
  exact eq_false_of_ne_true (List.any_eq_false.1 (checked_upperExpansions p hp).1 c hc)

theorem upperExpansions_ascii :
    ∀ p ∈ upperExpansions, isSmall p.1 ∨ ∃ c ∈ p.2, 0x80 ≤ c.toNat := by
  intro p hp
  have h := (checked_upperExpansions p hp).2
  simpa only [Bool.or_eq_true, List.any_eq_true, decide_eq_true_eq] using h

/-! ## Characters -/

variable {c d : Char} {r : CaseRow}

theorem le_of_find_upperRows {n : Nat} (h : upperRows.find? (·.covers n) = some r) :
    r.first ≤ n ∧ n ≤ r.last := by
  have hcovers : r.covers n := by simpa using List.find?_some h
  simp only [CaseRow.covers, Bool.and_eq_true, decide_eq_true_eq] at hcovers
  exact hcovers.1

/-- A character in a row is mapped by adding the row's offset, and not to a small character. -/
theorem toNat_caseMap (h : upperRows.find? (·.covers c.toNat) = some r) :
    ((caseMap upperRows c).toNat : Int) = c.toNat + r.offset ∧
      isSmall (caseMap upperRows c).toNat = false := by
  have hcovers := le_of_find_upperRows h
  have havoids := (checked_upperRows r (List.mem_of_find?_eq_some h)).1
  simp only [CaseRow.avoidsSmall, smallRanges, List.all_cons, List.all_nil, Bool.and_true,
    Bool.and_eq_true, Bool.or_eq_true, decide_eq_true_eq] at havoids
  have hvalid : ((c.toNat : Int) + r.offset).toNat.isValidChar := by
    unfold Nat.isValidChar
    omega
  have hcode : (caseMap upperRows c).toNat = ((c.toNat : Int) + r.offset).toNat := by
    rw [caseMap, h]
    dsimp only
    rw [Char.ofNat, dif_pos hvalid]
    rfl
  refine ⟨by omega, ?_⟩
  rw [Bool.eq_false_iff, Ne, isSmall_iff]
  omega

theorem caseMap_of_none (h : upperRows.find? (·.covers c.toNat) = none) :
    caseMap upperRows c = c := by
  rw [caseMap, h]

/-- A small character beyond ASCII has an upper-case form of its own. -/
theorem upperForm_of_isSmall {n : Nat} (h : isSmall n) (hn : 0x80 ≤ n) :
    (upperExpansions.lookup n).isSome ∨ (upperRows.find? (·.covers n)).isSome := by
  have hcodes : n = 0xDF ∨ n = 0x131 ∨ n = 0x17F ∨ n = 0xFB00 ∨ n = 0xFB01 ∨ n = 0xFB02 ∨
      n = 0xFB03 ∨ n = 0xFB04 ∨ n = 0xFB05 ∨ n = 0xFB06 := by
    rw [isSmall_iff] at h
    omega
  rcases hcodes with rfl | rfl | rfl | rfl | rfl | rfl | rfl | rfl | rfl | rfl <;> decide +kernel

/-- No small character stands in an upper-case form. -/
theorem not_isSmall_of_mem_upperChar (h : c ∈ upperChar d) : isSmall c.toNat = false := by
  rw [upperChar] at h
  by_cases hd : d.toNat < 0x80
  · rw [if_pos hd, List.mem_singleton] at h
    have hupper := (toUpper_of_ascii d.toNat hd).1
    rwa [Char.ofNat_toNat, ← h] at hupper
  · rw [if_neg hd] at h
    cases hlookup : upperExpansions.lookup d.toNat with
    | some cs =>
      rw [hlookup] at h
      obtain ⟨before, after, heq, -⟩ := List.lookup_eq_some_iff.1 hlookup
      exact upperExpansions_not_small (d.toNat, cs) (by rw [heq]; simp) c h
    | none =>
      rw [hlookup, List.mem_singleton] at h
      subst h
      cases hfind : upperRows.find? (·.covers d.toNat) with
      | some r => exact (toNat_caseMap hfind).2
      | none =>
        rw [caseMap_of_none hfind, Bool.eq_false_iff]
        intro hsmall
        have hform := upperForm_of_isSmall hsmall (by omega)
        rw [hlookup, hfind] at hform
        exact absurd hform (by simp)

/-- A character that is not small is its own upper-case form, if that is in ASCII. -/
theorem upperChar_of_ascii (hc : isSmall c.toNat = false) (h : ∀ d ∈ upperChar c, d.toNat < 0x80) :
    upperChar c = [c] := by
  rw [upperChar] at h ⊢
  by_cases hd : c.toNat < 0x80
  · have hupper := (toUpper_of_ascii c.toNat hd).2 hc
    rw [Char.ofNat_toNat] at hupper
    rw [if_pos hd, hupper]
  · rw [if_neg hd] at h ⊢
    cases hlookup : upperExpansions.lookup c.toNat with
    | some cs =>
      rw [hlookup] at h
      obtain ⟨before, after, heq, -⟩ := List.lookup_eq_some_iff.1 hlookup
      have hascii := upperExpansions_ascii (c.toNat, cs) (by rw [heq]; simp)
      obtain hsmall | ⟨d, hmem, hout⟩ := hascii
      · rw [hc] at hsmall
        cases hsmall
      · exact absurd (h d hmem) (Nat.not_lt.2 hout)
    | none =>
      rw [hlookup] at h
      have hmapped : (caseMap upperRows c).toNat < 0x80 := h _ (List.mem_singleton_self _)
      cases hfind : upperRows.find? (·.covers c.toNat) with
      | none => simp only [caseMap_of_none hfind]
      | some r =>
        have hcode := (toNat_caseMap hfind).1
        have hcovers := le_of_find_upperRows hfind
        have hout := (checked_upperRows r (List.mem_of_find?_eq_some hfind)).2
        simp only [CaseRow.staysOut, Bool.or_eq_true, Bool.and_eq_true, decide_eq_true_eq] at hout
        obtain (hlast | hfirst) | ⟨hone, hsmall⟩ := hout
        · omega
        · omega
        · have hcode : r.first = c.toNat := by omega
          rw [hcode, hc] at hsmall
          cases hsmall

/-- The upper-case form of an upper-case form in ASCII is the form itself. -/
theorem upper_upper_of_ascii {s : String} (h : ∀ c ∈ (upper (upper s)).toList, c.toNat < 0x80) :
    upper (upper s) = upper s := by
  have hsmall : ∀ c ∈ (upper s).toList, isSmall c.toNat = false := by
    intro c hc
    rw [upper, String.toList_ofList, List.mem_flatMap] at hc
    obtain ⟨d, -, hc⟩ := hc
    exact not_isSmall_of_mem_upperChar hc
  generalize upper s = t at h hsmall ⊢
  rw [upper, String.toList_ofList] at h
  have hsame : t.toList.flatMap upperChar = t.toList := by
    generalize t.toList = cs at h hsmall
    induction cs with
    | nil => rfl
    | cons c cs ih =>
      rw [List.flatMap_cons, List.forall_mem_append] at h
      rw [List.forall_mem_cons] at hsmall
      rw [List.flatMap_cons, upperChar_of_ascii hsmall.1 h.1, ih h.2 hsmall.2]
      rfl
  rw [upper, hsame, String.ofList_toList]

end RestDemo.Text

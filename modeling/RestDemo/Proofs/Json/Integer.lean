import Mathlib.Data.List.Basic
import Mathlib.Data.Nat.Digits.Defs
import RestDemo.Json.Reader
import RestDemo.Proofs.Text.Blank

/-!
# Integers written and read

The digits of a number are read as the number (`digitsValue_toDigits`), and the reader of documents
takes exactly them from the front of a text, as long as nothing follows that could belong to a number
(`readAtom_intDigits`). In a document only a comma or a closing bracket follows a value (`Follows`).
-/

namespace RestDemo

namespace Text

variable {c : Char}

theorem isDigit_iff_bounds : c.isDigit ↔ '0' ≤ c ∧ c ≤ '9' := by
  simp [Char.isDigit, Char.le_def]

theorem isAsciiDigit_of_isDigit (h : c.isDigit) : isAsciiDigit c := by
  obtain ⟨hzero, hnine⟩ := isDigit_iff_bounds.1 h
  simp [isAsciiDigit, hzero, hnine]

theorem digitValue?_of_isDigit (h : c.isDigit) : digitValue? c = some (c.toNat - 0x30) := by
  have hbounds := isDigit_iff_bounds.1 h
  have hle : c.toNat ≤ 0x39 := hbounds.2
  rw [digitValue?, if_pos (by omega), if_pos hbounds]

theorem isDigit_of_isDigit (h : c.isDigit) : isDigit c := by
  rw [isDigit, digitValue?_of_isDigit h]
  rfl

theorem not_isBlank_of_isDigit (h : c.isDigit) : ¬ isBlank c := by
  obtain ⟨hzero, hnine⟩ := isDigit_iff_bounds.1 h
  exact not_isBlank_of_printed (Nat.lt_of_lt_of_le (by decide) hzero)
    (Nat.lt_of_le_of_lt hnine (by decide))

theorem digitsValue_toDigits (n : Nat) : digitsValue (Nat.toDigits 10 n) = n := by
  have hsame : digitsValue (Nat.toDigits 10 n) = Nat.ofDigitChars 10 (Nat.toDigits 10 n) 0 := by
    refine List.foldl_ext _ _ _ fun m c hc => ?_
    rw [digitValue?_of_isDigit (Nat.isDigit_of_mem_toDigits (by decide) (by decide) hc)]
    rfl
  rw [hsame]
  exact Nat.ofDigitChars_toDigits (by decide) (by decide)

end Text

namespace Number

/-- The digits of a number other than zero do not start with a zero. -/
theorem exists_toDigits_cons {n : Nat} (h : 0 < n) :
    ∃ d ds, Nat.toDigits 10 n = d :: ds ∧ d ≠ '0' := by
  induction n using Nat.strongRecOn with
  | _ n ih =>
    by_cases hsmall : n < 10
    · refine ⟨Nat.digitChar n, [], Nat.toDigits_of_lt_base hsmall, ?_⟩
      have hdigit : ∀ d < 10, 0 < d → Nat.digitChar d ≠ '0' := by decide
      exact hdigit n hsmall h
    · have hlarge : 10 ≤ n := Nat.le_of_not_lt hsmall
      obtain ⟨d, ds, hdigits, hd⟩ := ih (n / 10) (by omega) (by omega)
      refine ⟨d, ds ++ [Nat.digitChar (n % 10)], ?_, hd⟩
      rw [Nat.toDigits_of_base_le (by decide) hlarge, hdigits, List.cons_append]

theorem ofSignDigits_intDigits (n : Int) :
    ofSignDigits (n < 0) (Nat.toDigits 10 n.natAbs) = n := by
  rw [ofSignDigits, Text.digitsValue_toDigits]
  by_cases h : n < 0
  · simp only [h, decide_true, ↓reduceIte]
    omega
  · simp only [h, decide_false, Bool.false_eq_true, ↓reduceIte]
    omega

theorem isDigit_of_mem_toDigits {n : Nat} {d : Char} (h : d ∈ Nat.toDigits 10 n) : d.isDigit :=
  Nat.isDigit_of_mem_toDigits (by decide) (by decide) h

theorem mem_intDigits {n : Int} {c : Char} (h : c ∈ intDigits n) : c = '-' ∨ c.isDigit := by
  unfold intDigits at h
  split at h
  · exact (List.mem_cons.1 h).imp_right isDigit_of_mem_toDigits
  · exact .inr (isDigit_of_mem_toDigits h)

/-- No blank is in the digits of an integer or before its sign. -/
theorem bare_intDigits (n : Int) : Text.Bare (intDigits n) := by
  apply Text.bare_of_forall
  intro c hc
  rcases mem_intDigits hc with rfl | hdigit
  · decide
  · exact Text.not_isBlank_of_isDigit hdigit

end Number

namespace Json

/-- What may follow a value in a document: nothing, a comma or a closing bracket. -/
def Follows (rest : List Char) : Prop :=
  ∀ c ∈ rest.head?, c = ',' ∨ c = ']' ∨ c = '}'

variable {rest : List Char}

theorem follows_nil : Follows [] := fun _ h => nomatch h

theorem follows_cons {c : Char} (h : c = ',' ∨ c = ']' ∨ c = '}') (rest : List Char) :
    Follows (c :: rest) := by
  intro d hd
  obtain rfl : c = d := Option.some.inj hd
  exact h

namespace Follows

theorem skipGaps_eq (h : Follows rest) : skipGaps rest = rest := by
  cases rest with
  | nil => rfl
  | cons c rest =>
    have hgap : isGap c = false := by
      rcases h c rfl with rfl | rfl | rfl <;> decide
    rw [skipGaps, List.dropWhile_cons_of_neg (by simp [hgap])]

theorem takeWhile_isAsciiDigit (h : Follows rest) : rest.takeWhile Text.isAsciiDigit = [] := by
  cases rest with
  | nil => rfl
  | cons c rest =>
    rw [List.takeWhile_cons_of_neg]
    rcases h c rfl with rfl | rfl | rfl <;> decide

theorem dropWhile_isAsciiDigit (h : Follows rest) : rest.dropWhile Text.isAsciiDigit = rest := by
  cases rest with
  | nil => rfl
  | cons c rest =>
    rw [List.dropWhile_cons_of_neg]
    rcases h c rfl with rfl | rfl | rfl <;> decide

theorem readFraction?_eq (h : Follows rest) : readFraction? rest = none := by
  cases rest with
  | nil => rfl
  | cons c rest => rcases h c rfl with rfl | rfl | rfl <;> rfl

theorem readExponent?_eq (h : Follows rest) : readExponent? rest = none := by
  cases rest with
  | nil => rfl
  | cons c rest => rcases h c rfl with rfl | rfl | rfl <;> rfl

end Follows

theorem spanDigits_append {ds : List Char} (hds : ∀ d ∈ ds, d.isDigit) (h : Follows rest) :
    spanDigits (ds ++ rest) = (ds, rest) := by
  have hascii : ∀ d ∈ ds, Text.isAsciiDigit d := fun d hd => Text.isAsciiDigit_of_isDigit (hds d hd)
  rw [spanDigits, List.takeWhile_append_of_pos hascii, List.dropWhile_append_of_pos hascii,
    h.takeWhile_isAsciiDigit, h.dropWhile_isAsciiDigit, List.append_nil]

theorem readWhole?_toDigits (n : Nat) (h : Follows rest) :
    readWhole? (Nat.toDigits 10 n ++ rest) = some (Nat.toDigits 10 n, rest) := by
  rcases Nat.eq_zero_or_pos n with rfl | hpos
  · rfl
  · obtain ⟨d, ds, hdigits, hd⟩ := Number.exists_toDigits_cons hpos
    have hisDigit : ∀ c ∈ d :: ds, c.isDigit :=
      fun c hc => Number.isDigit_of_mem_toDigits (hdigits ▸ hc)
    obtain ⟨hfirst, hothers⟩ := List.forall_mem_cons.1 hisDigit
    rw [hdigits, List.cons_append, readWhole?, if_neg hd,
      if_pos (Text.isAsciiDigit_of_isDigit hfirst), spanDigits_append hothers h]

theorem readUnsigned_toDigits (negative : Bool) {n : Nat} (hn : n < 10 ^ Number.maxDigits)
    (h : Follows rest) :
    readUnsigned negative (Nat.toDigits 10 n ++ rest) =
      some (.ok (.int (Number.ofSignDigits negative (Nat.toDigits 10 n))), rest) := by
  have hlength : (Nat.toDigits 10 n).length ≤ Number.maxDigits :=
    (Nat.length_toDigits_le_iff (by decide) (by decide)).2 hn
  simp only [readUnsigned, readWhole?_toDigits n h, Option.map_some, h.readFraction?_eq,
    h.readExponent?_eq, if_pos hlength]

/-- How an integer that was written starts: with a digit, or with a minus sign and a digit. -/
theorem intDigits_cases (n : Int) :
    ∃ d ds, Nat.toDigits 10 n.natAbs = d :: ds ∧ d.isDigit ∧
      (n < 0 ∧ Number.intDigits n = '-' :: d :: ds ∨ ¬ n < 0 ∧ Number.intDigits n = d :: ds) := by
  obtain ⟨d, ds, hdigits⟩ := List.exists_cons_of_ne_nil (l := Nat.toDigits 10 n.natAbs)
    Nat.toDigits_ne_nil
  have hd : d.isDigit := Number.isDigit_of_mem_toDigits (hdigits ▸ List.mem_cons_self)
  refine ⟨d, ds, hdigits, hd, ?_⟩
  rw [Number.intDigits, hdigits]
  by_cases h : n < 0
  · exact .inl ⟨h, if_pos h⟩
  · exact .inr ⟨h, if_neg h⟩

theorem readNumber_intDigits {n : Int} (hn : n.natAbs < 10 ^ Number.maxDigits) (h : Follows rest) :
    readNumber (Number.intDigits n ++ rest) = .ok (.int n, rest) := by
  have hread := readUnsigned_toDigits (decide (n < 0)) hn h
  obtain ⟨d, ds, hdigits, hd, ⟨hneg, hwritten⟩ | ⟨hneg, hwritten⟩⟩ := intDigits_cases n
  · rw [Number.ofSignDigits_intDigits, hdigits, decide_eq_true hneg] at hread
    unfold readNumber
    rw [hwritten]
    simp only [List.cons_append] at hread ⊢
    rw [hread]
  · rw [Number.ofSignDigits_intDigits, hdigits, decide_eq_false hneg] at hread
    have hminus : d ≠ '-' := by
      rintro rfl
      exact absurd hd (by decide)
    unfold readNumber
    rw [hwritten]
    simp only [List.cons_append] at hread ⊢
    simp [hread, hminus]

/-- What starts with a digit is no name. -/
theorem readAtom_digit {d : Char} (hd : d.isDigit) (cs : List Char) :
    readAtom (d :: cs) = readNumber (d :: cs) := by
  have hne (c : Char) (hc : ¬ c.isDigit) : d ≠ c := fun h => hc (h ▸ hd)
  rw [readAtom.eq_def]
  split
  case h_7 => rfl
  all_goals next heq => exact absurd (List.cons.inj heq).1 (hne _ (by decide))

theorem readAtom_minus {d : Char} (hd : d.isDigit) (cs : List Char) :
    readAtom ('-' :: d :: cs) = readNumber ('-' :: d :: cs) := by
  have hne : d ≠ 'I' := by
    rintro rfl
    exact absurd hd (by decide)
  rw [readAtom.eq_def]
  split
  case h_6 heq => exact absurd (List.cons.inj (List.cons.inj heq).2).1 hne
  case h_7 => rfl
  all_goals next heq => cases heq

/-- An integer that was written is read back, if nothing follows that belongs to a number. -/
theorem readAtom_intDigits {n : Int} (hn : n.natAbs < 10 ^ Number.maxDigits) (h : Follows rest) :
    readAtom (Number.intDigits n ++ rest) = .ok (.int n, rest) := by
  rw [← readNumber_intDigits hn h]
  obtain ⟨d, ds, -, hd, ⟨-, hwritten⟩ | ⟨-, hwritten⟩⟩ := intDigits_cases n
  · rw [hwritten]
    exact readAtom_minus hd _
  · rw [hwritten]
    exact readAtom_digit hd _

end Json

end RestDemo

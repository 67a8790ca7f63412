/-!
# Blank characters

The characters that count as white space, and the removal of blanks at the ends of a text.
`trim_eq_nil_iff`: a text is blank throughout exactly when nothing of it is left.
-/

namespace RestDemo.Text

/-- White space, the separators `U+001C` to `U+001F` and the next-line control included. -/
def isBlank (c : Char) : Bool :=
  let n := c.toNat
  (0x09 ≤ n && n ≤ 0x0D) || (0x1C ≤ n && n ≤ 0x20) || n == 0x85 || n == 0xA0 || n == 0x1680 ||
    (0x2000 ≤ n && n ≤ 0x200A) || n == 0x2028 || n == 0x2029 || n == 0x202F || n == 0x205F ||
    n == 0x3000

def trimStart (cs : List Char) : List Char :=
  cs.dropWhile isBlank

def trimEnd (cs : List Char) : List Char :=
  (cs.reverse.dropWhile isBlank).reverse

def trim (cs : List Char) : List Char :=
  trimEnd (trimStart cs)

theorem trimStart_eq_nil_iff {cs : List Char} : trimStart cs = [] ↔ ∀ c ∈ cs, isBlank c := by
  induction cs with
  | nil => simp [trimStart]
  | cons c cs ih =>
    by_cases h : isBlank c <;> simp_all [trimStart]

theorem trimEnd_eq_nil_iff {cs : List Char} : trimEnd cs = [] ↔ ∀ c ∈ cs, isBlank c := by
  rw [trimEnd, List.reverse_eq_nil_iff, ← trimStart, trimStart_eq_nil_iff]
  simp

theorem trim_eq_nil_iff {cs : List Char} : trim cs = [] ↔ ∀ c ∈ cs, isBlank c := by
  rw [trim, trimEnd_eq_nil_iff]
  constructor
  · intro h
    rw [← trimStart_eq_nil_iff]
    cases hs : trimStart cs with
    | nil => rfl
    | cons c rest =>
      have hc : ¬ isBlank c := by
        have := List.head?_dropWhile_not isBlank cs
        rw [← trimStart, hs] at this
        simpa using this
      exact absurd (h c (by simp [hs])) hc
  · intro h c hc
    exact h c ((List.dropWhile_sublist isBlank).subset hc)

end RestDemo.Text

import RestDemo.Proofs.Condition.Overlong

/-!
# How numbers are written

A number is a row of digits, after a minus sign at most, with a fraction and an exponent at most.
What counts as a digit, and what may stand after the number, is a matter of style: the reader takes
digits of every script, and a line break at the end (`Style.loose`), where only the digits `0` to `9`
and nothing after them may be meant (`Style.strict`). The reader takes just what is written in the
loose style (`numeral?_eq_some_iff`).
-/

namespace RestDemo.Literal

variable {cs ds rest : List Char} {n : Numeral}

/-! ## The grammar -/

structure Style where
  digit : Char → Bool
  /-- What may stand after a number. -/
  endings : List (List Char)

namespace Style

def strict : Style := ⟨Text.isAsciiDigit, [[]]⟩

def loose : Style := ⟨Text.isDigit, [[], ['\n']]⟩

variable {style : Style}

/-- One digit or more. -/
structure Row (style : Style) (ds : List Char) : Prop where
  given : ds ≠ []
  digits : ∀ d ∈ ds, style.digit d

theorem row_of_all {ds : List Char} (hgiven : ds ≠ []) (hdigits : ds.all style.digit) :
    style.Row ds :=
  ⟨hgiven, List.all_eq_true.1 hdigits⟩

inductive Fraction (style : Style) : Option (List Char) → List Char → Prop where
  | none : Fraction style none []
  | some {ds : List Char} (row : style.Row ds) : Fraction style (some ds) ('.' :: ds)

/-- The sign of an exponent, and whether it makes the exponent negative. -/
inductive Sign : Bool → List Char → Prop where
  | none : Sign false []
  | plus : Sign false ['+']
  | minus : Sign true ['-']

inductive Exponent (style : Style) : Option (Bool × List Char) → List Char → Prop where
  | none : Exponent style none []
  | some {mark : Char} {negative : Bool} {sign ds : List Char} (marked : mark = 'e' ∨ mark = 'E')
    (signed : Sign negative sign) (row : style.Row ds) :
    Exponent style (some (negative, ds)) (mark :: (sign ++ ds))

/-- What a number without its sign is written as. -/
inductive Unsigned (style : Style) : Numeral → List Char → Prop where
  | intro {negative : Bool} {whole f e ending : List Char} {fraction : Option (List Char)}
    {exponent : Option (Bool × List Char)} (row : style.Row whole)
    (hfraction : style.Fraction fraction f) (hexponent : style.Exponent exponent e)
    (ends : ending ∈ style.endings) :
    Unsigned style ⟨negative, whole, fraction, exponent⟩ (whole ++ (f ++ (e ++ ending)))

/-- What a number is written as. -/
def Written (style : Style) (n : Numeral) (cs : List Char) : Prop :=
  ∃ us, style.Unsigned n us ∧ cs = (if n.negative then ['-'] else []) ++ us

end Style

/-! ## The reader takes what is written -/

/-- The text is empty or begins with one of these characters. -/
def Begins (allowed cs : List Char) : Prop :=
  ∀ c ∈ cs.head?, c ∈ allowed

theorem begins_cons {c : Char} {allowed : List Char} (h : c ∈ allowed) (cs : List Char) :
    Begins allowed (c :: cs) := by
  intro d hd
  obtain rfl : c = d := Option.some.inj hd
  exact h

theorem Begins.mono {allowed allowed' : List Char} (h : Begins allowed cs)
    (hsub : ∀ c ∈ allowed, c ∈ allowed') : Begins allowed' cs :=
  fun c hc => hsub c (h c hc)

theorem spanDigits_append (hds : ∀ d ∈ ds, Text.isDigit d)
    (hrest : Begins ['.', 'e', 'E', '\n'] rest) : spanDigits (ds ++ rest) = (ds, rest) := by
  rw [spanDigits, List.takeWhile_append_of_pos hds, List.dropWhile_append_of_pos hds]
  cases rest with
  | nil => simp
  | cons c rest =>
    have hnone : ['.', 'e', 'E', '\n'].all (fun d => !Text.isDigit d) := by decide
    have hc : ¬ Text.isDigit c := by simpa using List.all_eq_true.1 hnone c (hrest c rfl)
    rw [List.takeWhile_cons_of_neg hc, List.dropWhile_cons_of_neg hc, List.append_nil]

theorem spanDigits_parts (cs : List Char) : cs = (spanDigits cs).1 ++ (spanDigits cs).2 :=
  List.takeWhile_append_dropWhile.symm

theorem row_spanDigits (h : ¬ (spanDigits cs).1.isEmpty) : Style.loose.Row (spanDigits cs).1 :=
  Style.row_of_all (fun hnil => h (List.isEmpty_iff.2 hnil)) List.all_takeWhile

theorem Style.Row.isEmpty_eq {style : Style} (h : style.Row ds) : ds.isEmpty = false :=
  List.isEmpty_eq_false_iff.2 h.given

theorem of_fraction? {fraction : Option (List Char)} (h : fraction? cs = some (fraction, rest)) :
    ∃ f, Style.loose.Fraction fraction f ∧ cs = f ++ rest := by
  unfold fraction? at h
  split at h
  · next cs =>
    split at h
    · cases h
    · next hgiven =>
      cases h
      exact ⟨_, .some (row_spanDigits hgiven), congrArg ('.' :: ·) (spanDigits_parts cs)⟩
  · cases h
    exact ⟨[], .none, rfl⟩

theorem fraction?_append {fraction : Option (List Char)} {f : List Char}
    (hf : Style.loose.Fraction fraction f) (hrest : Begins ['e', 'E', '\n'] rest) :
    fraction? (f ++ rest) = some (fraction, rest) := by
  cases hf with
  | none =>
    cases rest with
    | nil => rfl
    | cons c rest =>
      have hc : c ≠ '.' := by
        rintro rfl
        exact absurd (hrest '.' rfl) (by decide)
      rw [List.nil_append, fraction?]
      rintro cs ⟨⟩
      exact hc rfl
  | @some ds row =>
    have hspan := spanDigits_append row.digits (hrest.mono fun c hc => List.mem_cons_of_mem '.' hc)
    rw [List.cons_append, fraction?, hspan, row.isEmpty_eq]
    rfl

theorem of_splitSign {negative : Bool} (h : Number.splitSign cs = (negative, rest)) :
    ∃ sign, Style.Sign negative sign ∧ cs = sign ++ rest := by
  unfold Number.splitSign at h
  split at h <;> cases h
  · exact ⟨['-'], .minus, rfl⟩
  · exact ⟨['+'], .plus, rfl⟩
  · exact ⟨[], .none, rfl⟩

theorem splitSign_append {negative : Bool} {sign : List Char} (hsign : Style.Sign negative sign)
    (row : Style.loose.Row ds) (rest : List Char) :
    Number.splitSign (sign ++ (ds ++ rest)) = (negative, ds ++ rest) := by
  cases hsign with
  | none =>
    obtain ⟨d, ds, rfl⟩ := List.exists_cons_of_ne_nil row.given
    have hd : Text.isDigit d := row.digits d List.mem_cons_self
    have hne (c : Char) (hc : ¬ Text.isDigit c) : d ≠ c := fun heq => hc (heq ▸ hd)
    rw [List.nil_append, List.cons_append, Number.splitSign]
    · rintro cs ⟨⟩
      exact hne '-' (by decide) rfl
    · rintro cs ⟨⟩
      exact hne '+' (by decide) rfl
  | plus => rfl
  | minus => rfl

theorem of_exponent? {exponent : Option (Bool × List Char)}
    (h : exponent? cs = some (exponent, rest)) :
    ∃ e, Style.loose.Exponent exponent e ∧ cs = e ++ rest := by
  unfold exponent? at h
  split at h
  · cases h
    exact ⟨[], .none, rfl⟩
  · next mark cs =>
    split at h
    · next hmark =>
      cases hsplit : Number.splitSign cs with
      | mk negative ds =>
        rw [hsplit] at h
        dsimp only at h
        split at h
        · cases h
        · next hgiven =>
          cases h
          obtain ⟨sign, hsign, rfl⟩ := of_splitSign hsplit
          refine ⟨_, .some hmark hsign (row_spanDigits hgiven), ?_⟩
          rw [List.cons_append, List.append_assoc, ← spanDigits_parts]
    · cases h
      exact ⟨[], .none, rfl⟩

theorem exponent?_append {exponent : Option (Bool × List Char)} {e : List Char}
    (he : Style.loose.Exponent exponent e) (hrest : Begins ['\n'] rest) :
    exponent? (e ++ rest) = some (exponent, rest) := by
  cases he with
  | none =>
    cases rest with
    | nil => rfl
    | cons c rest =>
      have hc : ¬ (c = 'e' ∨ c = 'E') := by
        have hbreak := hrest c rfl
        rintro (rfl | rfl) <;> exact absurd hbreak (by decide)
      rw [List.nil_append, exponent?, if_neg hc]
  | @some mark negative sign ds hmark hsign row =>
    have hspan := spanDigits_append row.digits (hrest.mono (by simp))
    rw [List.cons_append, List.append_assoc, exponent?, if_pos hmark, splitSign_append hsign row]
    dsimp only
    rw [hspan, row.isEmpty_eq]
    rfl

theorem begins_ending {ending : List Char} (h : ending ∈ Style.loose.endings) :
    Begins ['\n'] ending := by
  rcases List.mem_cons.1 h with rfl | h
  · exact fun c hc => nomatch hc
  · obtain rfl := List.mem_singleton.1 h
    exact begins_cons (by decide) []

theorem Style.Exponent.begins {exponent : Option (Bool × List Char)} {e : List Char}
    (he : Style.loose.Exponent exponent e) (hrest : Begins ['\n'] rest) :
    Begins ['e', 'E', '\n'] (e ++ rest) := by
  cases he with
  | none => exact hrest.mono (by simp)
  | some hmark _ _ =>
    refine begins_cons ?_ _
    rcases hmark with rfl | rfl <;> decide

theorem Style.Fraction.begins {fraction : Option (List Char)} {f : List Char}
    (hf : Style.loose.Fraction fraction f) (hrest : Begins ['e', 'E', '\n'] rest) :
    Begins ['.', 'e', 'E', '\n'] (f ++ rest) := by
  cases hf with
  | none => exact hrest.mono (by simp)
  | some row => exact begins_cons (by decide) _

theorem unsigned?_eq_some_iff {negative : Bool} :
    unsigned? negative cs = some n ↔ n.negative = negative ∧ Style.loose.Unsigned n cs := by
  constructor
  · intro h
    unfold unsigned? at h
    split at h
    · cases h
    · next hgiven =>
      obtain ⟨⟨fraction, after⟩, hfraction, h⟩ := Option.bind_eq_some_iff.1 h
      obtain ⟨⟨exponent, ending⟩, hexponent, h⟩ := Option.bind_eq_some_iff.1 h
      dsimp only at h hexponent
      split at h
      · next hends =>
        obtain rfl := Option.some.inj h
        obtain ⟨f, hf, hparts⟩ := of_fraction? hfraction
        obtain ⟨e, he, rfl⟩ := of_exponent? hexponent
        have hending : ending ∈ Style.loose.endings := by simpa [Style.loose] using hends
        have hwritten : Style.loose.Unsigned ⟨negative, (spanDigits cs).1, fraction, exponent⟩
            ((spanDigits cs).1 ++ (f ++ (e ++ ending))) :=
          .intro (row_spanDigits hgiven) hf he hending
        rw [← hparts, ← spanDigits_parts] at hwritten
        exact ⟨rfl, hwritten⟩
      · cases h
  · -- No part is read on into the next one, by the characters that those begin with.
    rintro ⟨rfl, h⟩
    cases h with
    | @intro negative whole f e ending fraction exponent row hf he hends =>
      have hending := begins_ending hends
      have hafter := he.begins hending
      have hends' : ending = [] ∨ ending = ['\n'] := by simpa [Style.loose] using hends
      unfold unsigned?
      rw [spanDigits_append row.digits (hf.begins hafter), row.isEmpty_eq]
      simp [fraction?_append hf hafter, exponent?_append he hending, hends']

theorem Style.Unsigned.ne_minus (h : Style.loose.Unsigned n cs) (rest : List Char) :
    cs ≠ '-' :: rest := by
  cases h with
  | intro row hf he hends =>
    intro heq
    obtain ⟨d, ds, rfl⟩ := List.exists_cons_of_ne_nil row.given
    have hd := row.digits d List.mem_cons_self
    rw [(List.cons.inj heq).1] at hd
    exact absurd hd (by decide)

/-- The reader takes exactly what is written in the loose style. -/
theorem numeral?_eq_some_iff : numeral? cs = some n ↔ Style.loose.Written n cs := by
  constructor
  · intro h
    by_cases hminus : ∃ rest, cs = '-' :: rest
    · obtain ⟨rest, rfl⟩ := hminus
      rw [numeral?_minus, unsigned?_eq_some_iff] at h
      obtain ⟨hnegative, hrest⟩ := h
      exact ⟨rest, hrest, by simp [hnegative]⟩
    · rw [numeral?_of_ne (not_exists.1 hminus), unsigned?_eq_some_iff] at h
      obtain ⟨hnegative, hrest⟩ := h
      exact ⟨cs, hrest, by simp [hnegative]⟩
  · rintro ⟨us, h, rfl⟩
    cases hnegative : n.negative with
    | false =>
      have hsigned := unsigned?_eq_some_iff.2 ⟨hnegative, h⟩
      rwa [← numeral?_of_ne h.ne_minus] at hsigned
    | true =>
      have hsigned := unsigned?_eq_some_iff.2 ⟨hnegative, h⟩
      rwa [← numeral?_minus] at hsigned

end RestDemo.Literal

import Mathlib.Data.List.Induction
import Mathlib.Data.Nat.Digits.Defs
import RestDemo.Proofs.Condition.Numeral
import RestDemo.Proofs.Condition.Scalar

/-!
# What a literal stands for

A literal is a word, a text in quotes, a number, or else a text without quotes (`Stands`). Reading it
gives just that, where numbers are meant in the loose style; if they are meant in the strict style,
the literals that are read as something else are the numbers with digits of another script or with a
line break at the end (`read_classified`).
-/

namespace RestDemo

namespace Text

variable {cs : List Char}

/-- The value of a row of digits is the number that they denote in base ten. -/
theorem digitsValue_eq_ofDigits {ns : List Nat}
    (h : cs.map digitValue? = ns.map some) : digitsValue cs = Nat.ofDigits 10 ns.reverse := by
  -- From the end, as the last digit is the least.
  induction cs using List.reverseRecOn generalizing ns with
  | nil =>
    obtain rfl : ns = [] := by simpa using h.symm
    rfl
  | append_singleton cs c ih =>
    rcases List.eq_nil_or_concat' ns with rfl | ⟨ns, d, rfl⟩
    · simp at h
    · rw [List.map_append, List.map_append] at h
      obtain ⟨hcs, hc⟩ := List.append_inj' h rfl
      have hvalue : digitValue? c = some d := List.singleton_injective hc
      rw [List.reverse_append, List.reverse_singleton, List.singleton_append, Nat.ofDigits_cons,
        ← ih hcs, digitsValue, List.foldl_append]
      simp only [List.foldl_cons, List.foldl_nil, hvalue, Option.getD_some]
      exact Nat.add_comm _ _

/-- Every digit stands for a number. -/
theorem exists_digits (h : ∀ c ∈ cs, isDigit c) :
    ∃ ns : List Nat, cs.map digitValue? = ns.map some := by
  induction cs with
  | nil => exact ⟨[], rfl⟩
  | cons c cs ih =>
    rw [List.forall_mem_cons] at h
    obtain ⟨d, hd⟩ := Option.isSome_iff_exists.1 h.1
    obtain ⟨ns, hns⟩ := ih h.2
    exact ⟨d :: ns, by rw [List.map_cons, List.map_cons, hd, hns]⟩

theorem isDigit_of_isAsciiDigit {c : Char} (h : isAsciiDigit c) : isDigit c := by
  refine isDigit_of_isDigit (isDigit_iff_bounds.2 ?_)
  simpa [isAsciiDigit] using h

end Text

namespace Literal

variable {cs : List Char} {n : Numeral} {v : Value} {s t : Style}

/-! ## Styles beside each other -/

namespace Style

/-- What the first style takes, the second one takes too. -/
structure Within (s t : Style) : Prop where
  digit : ∀ c, s.digit c → t.digit c
  endings : ∀ ending ∈ s.endings, ending ∈ t.endings

theorem strict_within_loose : strict.Within loose where
  digit := fun _ => Text.isDigit_of_isAsciiDigit
  endings := by simp [strict, loose]

theorem Row.mono {ds : List Char} (h : s.Row ds) (hst : s.Within t) : t.Row ds :=
  ⟨h.given, fun d hd => hst.digit d (h.digits d hd)⟩

theorem Written.mono (h : s.Written n cs) (hst : s.Within t) : t.Written n cs := by
  obtain ⟨us, hus, rfl⟩ := h
  refine ⟨us, ?_, rfl⟩
  cases hus with
  | intro row hf he ends =>
    refine .intro (row.mono hst) ?_ ?_ (hst.endings _ ends)
    · cases hf with
      | none => exact .none
      | some row => exact .some (row.mono hst)
    · cases he with
      | none => exact .none
      | some marked signed row => exact .some marked signed (row.mono hst)

theorem Written.row (h : s.Written n cs) : s.Row n.whole := by
  obtain ⟨us, hus, -⟩ := h
  cases hus with
  | intro row _ _ _ => exact row

end Style

/-! ## What literals stand for -/

def signed (negative : Bool) (m : Nat) : Int :=
  if negative then -m else m

/-- What a literal stands for, if numbers are written in the style. The number of a row of digits is
the one that they denote in base ten. -/
inductive Stands (style : Style) : List Char → Value → Prop where
  | yes : Stands style "true".toList (.bool true)
  | no : Stands style "false".toList (.bool false)
  | nothing : Stands style "null".toList .null
  | quoted {q : Char} (inner : List Char) (quote : q = '\'' ∨ q = '"') :
    Stands style (q :: (inner ++ [q])) (.text (String.ofList inner))
  | integer {cs : List Char} {n : Numeral} {ns : List Nat} (written : style.Written n cs)
    (noFraction : n.fraction = none) (noExponent : n.exponent = none)
    (digits : n.whole.map Text.digitValue? = ns.map some) :
    Stands style cs (.int (signed n.negative (Nat.ofDigits 10 ns.reverse)))
  | float {cs : List Char} {n : Numeral} {x : Float} (written : style.Written n cs)
    (parted : n.fraction ≠ none ∨ n.exponent ≠ none) (value : n.value = .ok (.float x)) :
    Stands style cs (.float x)
  | text {cs : List Char} (noWord : NoWord cs)
    (noQuotes : ∀ q inner, q = '\'' ∨ q = '"' → cs ≠ q :: (inner ++ [q]))
    (noNumber : ∀ n, ¬ style.Written n cs) : Stands style cs (.text (String.ofList cs))

theorem Stands.congr (hst : ∀ n, s.Written n cs ↔ t.Written n cs) (h : Stands s cs v) :
    Stands t cs v := by
  cases h with
  | yes => exact .yes
  | no => exact .no
  | nothing => exact .nothing
  | quoted inner quote => exact .quoted inner quote
  | integer written noFraction noExponent digits =>
    exact .integer ((hst _).1 written) noFraction noExponent digits
  | float written parted value => exact .float ((hst _).1 written) parted value
  | text noWord noQuotes noNumber =>
    exact .text noWord noQuotes fun n hn => noNumber n ((hst n).2 hn)

theorem quoted?_eq_some_iff {inner : List Char} :
    quoted? cs = some inner ↔ ∃ q, (q = '\'' ∨ q = '"') ∧ cs = q :: (inner ++ [q]) := by
  constructor
  · intro h
    cases cs with
    | nil => cases h
    | cons q cs =>
      rw [quoted?] at h
      split at h
      · next hquotes =>
        obtain rfl := Option.some.inj h
        refine ⟨q, hquotes.1, ?_⟩
        rw [List.dropLast_append_getLast? q hquotes.2]
      · cases h
  · rintro ⟨q, hq, rfl⟩
    simp [quoted?, hq]

theorem Style.Written.exists_cons (h : Style.loose.Written n cs) :
    ∃ c rest, cs = c :: rest ∧ (c = '-' ∨ Text.isDigit c) := by
  obtain ⟨us, hus, rfl⟩ := h
  cases n.negative with
  | true => exact ⟨'-', us, rfl, .inl rfl⟩
  | false =>
    cases hus with
    | intro row _ _ _ =>
      obtain ⟨d, ds, rfl⟩ := List.exists_cons_of_ne_nil row.given
      exact ⟨d, _, rfl, .inr (row.digits d List.mem_cons_self)⟩

theorem read_written (h : Style.loose.Written n cs) : read cs = n.value := by
  have hnumeral := numeral?_eq_some_iff.2 h
  obtain ⟨c, rest, rfl, hc⟩ := h.exists_cons
  exact read_numeral (noWord_cons (.inr hc) rest) (quoted?_eq_none hc rest) hnumeral

theorem read_quotes {q : Char} (hq : q = '\'' ∨ q = '"') (inner : List Char) :
    read (q :: (inner ++ [q])) = .ok (.text (String.ofList inner)) := by
  have hquoted : quoted? (q :: (inner ++ [q])) = some inner := quoted?_eq_some_iff.2 ⟨q, hq, rfl⟩
  have hword : NoWord (q :: (inner ++ [q])) := by
    rcases hq with rfl | rfl
    · exact noWord_cons (.inl rfl) _
    · constructor <;> simp
  exact read_quoted hword hquoted

theorem read_text (hword : NoWord cs) (hquoted : quoted? cs = none)
    (hnumeral : numeral? cs = none) : read cs = .ok (.text (String.ofList cs)) := by
  rw [read, if_neg hword.notTrue, if_neg hword.notFalse, if_neg hword.notNull, hquoted, hnumeral]

theorem value_integer (hfraction : n.fraction = none) (hexponent : n.exponent = none)
    (hshort : n.whole.length ≤ Number.maxDigits) :
    n.value = .ok (.int (Number.ofSignDigits n.negative n.whole)) := by
  obtain ⟨negative, whole, fraction, exponent⟩ := n
  obtain rfl : fraction = none := hfraction
  obtain rfl : exponent = none := hexponent
  rw [Numeral.value, if_pos hshort]

theorem value_parted (h : n.fraction ≠ none ∨ n.exponent ≠ none) :
    ∃ x, n.value = .ok (.float x) := by
  obtain ⟨negative, whole, fraction, exponent⟩ := n
  cases fraction with
  | some fraction => exact ⟨_, rfl⟩
  | none =>
    cases exponent with
    | some exponent => exact ⟨_, rfl⟩
    | none => simp at h

theorem of_value (h : n.value = .ok v) : (∃ m, v = .int m) ∨ ∃ x, v = .float x := by
  by_cases hparted : n.fraction ≠ none ∨ n.exponent ≠ none
  · obtain ⟨x, hx⟩ := value_parted hparted
    exact .inr ⟨x, Except.ok.inj (h.symm.trans hx)⟩
  · rw [not_or, not_not, not_not] at hparted
    by_cases hshort : n.whole.length ≤ Number.maxDigits
    · have hvalue := value_integer hparted.1 hparted.2 hshort
      exact .inl ⟨_, Except.ok.inj (h.symm.trans hvalue)⟩
    · have herror := value_error_iff.2 ⟨hparted.1, hparted.2, Nat.lt_of_not_le hshort, rfl⟩
      rw [h] at herror
      cases herror

theorem stands_of_value (h : Style.loose.Written n cs) (hvalue : n.value = .ok v) :
    Stands .loose cs v := by
  by_cases hparted : n.fraction ≠ none ∨ n.exponent ≠ none
  · obtain ⟨x, hx⟩ := value_parted hparted
    obtain rfl := Except.ok.inj (hvalue.symm.trans hx)
    exact .float h hparted hx
  · rw [not_or, not_not, not_not] at hparted
    have hshort : n.whole.length ≤ Number.maxDigits := by
      refine Nat.le_of_not_lt fun hlong => ?_
      have herror := value_error_iff.2 ⟨hparted.1, hparted.2, hlong, rfl⟩
      rw [hvalue] at herror
      cases herror
    obtain ⟨ns, hns⟩ := Text.exists_digits h.row.digits
    have hinteger := Stands.integer h hparted.1 hparted.2 hns
    obtain rfl := Except.ok.inj (hvalue.symm.trans (value_integer hparted.1 hparted.2 hshort))
    rwa [← Text.digitsValue_eq_ofDigits hns] at hinteger

theorem Style.Written.length_whole_le (h : s.Written n cs) : n.whole.length ≤ cs.length := by
  obtain ⟨us, hus, rfl⟩ := h
  cases hus with
  | intro row _ _ _ =>
    simp only [List.length_append]
    omega

theorem read_of_stands (hshort : cs.length ≤ Number.maxDigits) (h : Stands .loose cs v) :
    read cs = .ok v := by
  cases h with
  | yes => rfl
  | no => rfl
  | nothing => rfl
  | quoted inner quote => exact read_quotes quote inner
  | integer written noFraction noExponent digits =>
    have hwhole := Nat.le_trans written.length_whole_le hshort
    rw [read_written written, value_integer noFraction noExponent hwhole,
      ← Text.digitsValue_eq_ofDigits digits]
    rfl
  | float written parted value => rw [read_written written, value]
  | text noWord noQuotes noNumber =>
    refine read_text noWord (Option.eq_none_iff_forall_ne_some.2 ?_)
      (Option.eq_none_iff_forall_ne_some.2 ?_)
    · intro inner hquoted
      obtain ⟨q, hq, hcs⟩ := quoted?_eq_some_iff.1 hquoted
      exact noQuotes q inner hq hcs
    · intro n hnumeral
      exact noNumber n (numeral?_eq_some_iff.1 hnumeral)

theorem stands_of_read (h : read cs = .ok v) : Stands .loose cs v := by
  by_cases htrue : cs = "true".toList
  · subst htrue
    cases h
    exact .yes
  by_cases hfalse : cs = "false".toList
  · subst hfalse
    cases h
    exact .no
  by_cases hnull : cs = "null".toList
  · subst hnull
    cases h
    exact .nothing
  cases hquoted : quoted? cs with
  | some inner =>
    obtain ⟨q, hq, rfl⟩ := quoted?_eq_some_iff.1 hquoted
    rw [read_quotes hq] at h
    cases h
    exact .quoted inner hq
  | none =>
    cases hnumeral : numeral? cs with
    | some n =>
      have hwritten := numeral?_eq_some_iff.1 hnumeral
      rw [read_written hwritten] at h
      exact stands_of_value hwritten h
    | none =>
      have hword : NoWord cs := ⟨htrue, hfalse, hnull⟩
      rw [read_text hword hquoted hnumeral] at h
      cases h
      refine .text hword ?_ ?_
      · intro q inner hq hcs
        rw [quoted?_eq_some_iff.2 ⟨q, hq, hcs⟩] at hquoted
        cases hquoted
      · intro n hn
        rw [numeral?_eq_some_iff.2 hn] at hnumeral
        cases hnumeral

/-- A number is read as a number, so it must be meant as one. -/
theorem strict_of_stands (h : Style.loose.Written n cs) (hvalue : n.value = .ok v)
    (hstands : Stands .strict cs v) : Style.strict.Written n cs := by
  -- Whatever number is meant in the strict style is the one that is read.
  have hsame {n' : Numeral} (hn' : Style.strict.Written n' cs) : Style.strict.Written n cs := by
    have hloose := numeral?_eq_some_iff.2 (hn'.mono Style.strict_within_loose)
    rw [numeral?_eq_some_iff.2 h] at hloose
    obtain rfl := Option.some.inj hloose
    exact hn'
  have hnumber := of_value hvalue
  cases hstands with
  | integer written _ _ _ => exact hsame written
  | float written _ _ => exact hsame written
  | _ => simp at hnumber

/-- A literal that is not too long is read, as what it stands for in the loose style. It is read as
what it stands for in the strict style exactly if it is no number, or a number in that style. -/
theorem read_classified (hshort : cs.length ≤ Number.maxDigits) :
    (∃ v, read cs = .ok v) ∧ (∀ v, read cs = .ok v ↔ Stands .loose cs v) ∧
    ((∀ v, read cs = .ok v ↔ Stands .strict cs v) ↔
      ∀ n, Style.loose.Written n cs → Style.strict.Written n cs) := by
  have hread : ∃ v, read cs = .ok v := by
    cases h : read cs with
    | ok v => exact ⟨v, rfl⟩
    | error f =>
      obtain ⟨sign, digits, ending, rfl, -, -, -, hlong, -⟩ := read_error_iff.1 h
      simp only [List.length_append] at hshort
      omega
  have hloose (v : Value) : read cs = .ok v ↔ Stands .loose cs v :=
    ⟨stands_of_read, read_of_stands hshort⟩
  refine ⟨hread, hloose, ?_, ?_⟩
  · intro hstrict n hn
    obtain ⟨v, hv⟩ := hread
    have hvalue := hv
    rw [read_written hn] at hvalue
    exact strict_of_stands hn hvalue ((hstrict v).1 hv)
  · intro hsub v
    have hsame (n : Numeral) : Style.loose.Written n cs ↔ Style.strict.Written n cs :=
      ⟨hsub n, fun hn => hn.mono Style.strict_within_loose⟩
    rw [hloose v]
    exact ⟨.congr hsame, .congr fun n => (hsame n).symm⟩

theorem read_classified_negative :
    "-0450".toList.length ≤ Number.maxDigits ∧ read "-0450".toList = .ok (.int (-450)) := by
  have hshort : "-0450".toList.length ≤ Number.maxDigits := by decide
  have hwritten : Style.loose.Written ⟨true, "0450".toList, none, none⟩ "-0450".toList :=
    ⟨_, .intro (Style.row_of_all (by decide) (by decide)) .none .none (.head _), rfl⟩
  have hdigits : "0450".toList.map Text.digitValue? = [0, 4, 5, 0].map some := by decide
  obtain ⟨-, hstands, -⟩ := read_classified hshort
  exact ⟨hshort, (hstands _).2 (.integer hwritten rfl rfl hdigits)⟩

/-- An Arabic digit is read as an integer, and so is a digit with a line break after it. -/
theorem read_foreign_digit :
    read ['\u0663'] = .ok (.int 3) ∧ ¬ Stands .strict ['\u0663'] (.int 3) ∧
    read ['5', '\n'] = .ok (.int 5) ∧ ¬ Stands .strict ['5', '\n'] (.int 5) := by
  have harabic : Style.loose.Written ⟨false, ['\u0663'], none, none⟩ ['\u0663'] :=
    ⟨_, .intro (Style.row_of_all (by decide) (by decide)) .none .none (.head _), rfl⟩
  have hbroken : Style.loose.Written ⟨false, ['5'], none, none⟩ ['5', '\n'] :=
    ⟨_, .intro (Style.row_of_all (by decide) (by decide)) .none .none (.tail _ (.head _)), rfl⟩
  refine ⟨rfl, fun h => ?_, rfl, fun h => ?_⟩
  · have hstrict := strict_of_stands harabic rfl h
    exact absurd (hstrict.row.digits '\u0663' (.head _)) (by decide)
  · obtain ⟨us, hus, hcs⟩ := strict_of_stands hbroken rfl h
    cases hus with
    | intro row hf he ends =>
      cases hf
      cases he
      obtain rfl := List.mem_singleton.1 ends
      cases hcs

end Literal

end RestDemo

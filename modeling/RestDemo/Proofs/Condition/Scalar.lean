import RestDemo.Proofs.Condition.Grammar
import RestDemo.Proofs.Json.Integer
import RestDemo.Proofs.Value.Spelling

/-!
# Conditions on scalars

Every truth value, integer and text, and null, has a literal that is read as it, whatever the text
contains (`Literal.read_literal`). A condition that is put together of a path, a sign and such a
literal is cut at that sign, since the path contains none, so that it tests just whether the part at
the path is the scalar (`Condition.evaluate_scalar`).
-/

namespace RestDemo

/-! ## Literals -/

/-- A value without parts that a literal can be written for. -/
inductive Scalar where
  | bool (b : Bool)
  | null
  | int (n : Int)
  | text (s : String)

namespace Scalar

def value : Scalar → Value
  | bool b => .bool b
  | null => .null
  | int n => .int n
  | text s => .text s

/-- The literal of a scalar. A text stands between single quotes as it is. -/
def literal : Scalar → String
  | bool true => "true"
  | bool false => "false"
  | null => "null"
  | int n => String.ofList (Number.intDigits n)
  | text s => "'" ++ s ++ "'"

theorem toList_literal_int (n : Int) : (int n).literal.toList = Number.intDigits n :=
  String.toList_ofList

theorem toList_literal_text (s : String) :
    (text s).literal.toList = '\'' :: (s.toList ++ ['\'']) := by
  rw [literal, String.toList_append, String.toList_append]
  rfl

/-- An integer has at most as many digits as are read. -/
def Short : Scalar → Prop
  | int n => n.natAbs < 10 ^ Number.maxDigits
  | _ => True

end Scalar

namespace Literal

/-- The text is none of the words that stand for a value. -/
structure NoWord (cs : List Char) : Prop where
  notTrue : cs ≠ "true".toList
  notFalse : cs ≠ "false".toList
  notNull : cs ≠ "null".toList

/-- What begins with a quote, a minus sign or a digit is no word. -/
theorem noWord_cons {c : Char} (h : c = '\'' ∨ c = '-' ∨ Text.isDigit c) (cs : List Char) :
    NoWord (c :: cs) := by
  have hne (d : Char) (hd : ¬ (d = '\'' ∨ d = '-' ∨ Text.isDigit d)) : c ≠ d :=
    fun heq => hd (heq ▸ h)
  constructor
  · exact fun heq => hne 't' (by decide) (List.cons.inj heq).1
  · exact fun heq => hne 'f' (by decide) (List.cons.inj heq).1
  · exact fun heq => hne 'n' (by decide) (List.cons.inj heq).1

theorem read_quoted {cs inner : List Char} (h : NoWord cs) (hquoted : quoted? cs = some inner) :
    read cs = .ok (.text (String.ofList inner)) := by
  rw [read, if_neg h.notTrue, if_neg h.notFalse, if_neg h.notNull, hquoted]

theorem read_numeral {cs : List Char} {n : Numeral} (h : NoWord cs) (hquoted : quoted? cs = none)
    (hnumeral : numeral? cs = some n) : read cs = n.value := by
  rw [read, if_neg h.notTrue, if_neg h.notFalse, if_neg h.notNull, hquoted, hnumeral]

theorem quoted?_quoted (cs : List Char) : quoted? ('\'' :: (cs ++ ['\''])) = some cs := by
  simp [quoted?]

theorem numeral?_intDigits (n : Int) : numeral? (Number.intDigits n) =
    some ⟨decide (n < 0), Nat.toDigits 10 n.natAbs, none, none⟩ := by
  have hdigits : ∀ d ∈ Nat.toDigits 10 n.natAbs, Text.isDigit d :=
    fun d hd => Text.isDigit_of_isDigit (Number.isDigit_of_mem_toDigits hd)
  have hunsigned : unsigned? (decide (n < 0)) (Nat.toDigits 10 n.natAbs ++ []) =
      some ⟨decide (n < 0), Nat.toDigits 10 n.natAbs, none, none⟩ :=
    unsigned?_digits _ hdigits Nat.toDigits_ne_nil (.inl rfl)
  rw [List.append_nil] at hunsigned
  unfold Number.intDigits
  by_cases hneg : n < 0
  · rw [if_pos hneg, numeral?_minus, ← hunsigned, decide_eq_true hneg]
  · have hminus : ∀ rest, Nat.toDigits 10 n.natAbs ≠ '-' :: rest := by
      intro rest heq
      have hdigit := hdigits '-' (heq ▸ List.mem_cons_self)
      exact absurd hdigit (by decide)
    rw [if_neg hneg, numeral?_of_ne hminus, ← hunsigned, decide_eq_false hneg]

theorem read_intDigits {n : Int} (hn : n.natAbs < 10 ^ Number.maxDigits) :
    read (Number.intDigits n) = .ok (.int n) := by
  have hshort : (Nat.toDigits 10 n.natAbs).length ≤ Number.maxDigits :=
    (Nat.length_toDigits_le_iff (by decide) (by decide)).2 hn
  have hnumeral := numeral?_intDigits n
  have hvalue : Numeral.value ⟨decide (n < 0), Nat.toDigits 10 n.natAbs, none, none⟩ =
      .ok (.int n) := by
    rw [Numeral.value, if_pos hshort, Number.ofSignDigits_intDigits]
  have hfirst : ∃ c cs, Number.intDigits n = c :: cs ∧ (c = '-' ∨ Text.isDigit c) := by
    obtain ⟨d, ds, -, hd, ⟨-, hwritten⟩ | ⟨-, hwritten⟩⟩ := Json.intDigits_cases n
    · exact ⟨'-', d :: ds, hwritten, .inl rfl⟩
    · exact ⟨d, ds, hwritten, .inr (Text.isDigit_of_isDigit hd)⟩
  obtain ⟨c, cs, hwritten, hc⟩ := hfirst
  rw [hwritten] at hnumeral ⊢
  rw [read_numeral (noWord_cons (.inr hc) cs) (quoted?_eq_none hc cs) hnumeral, hvalue]

/-- The literal of a scalar is read as the scalar. -/
theorem read_literal {scalar : Scalar} (h : scalar.Short) :
    read scalar.literal.toList = .ok scalar.value := by
  cases scalar with
  | bool b => cases b <;> rfl
  | null => rfl
  | int n =>
    rw [Scalar.toList_literal_int]
    exact read_intDigits h
  | text s =>
    rw [Scalar.toList_literal_text,
      read_quoted (noWord_cons (.inl rfl) _) (quoted?_quoted s.toList), String.ofList_toList]
    rfl

end Literal

namespace Scalar

theorem literal_ne_nil (scalar : Scalar) : scalar.literal.toList ≠ [] := by
  cases scalar with
  | bool b => cases b <;> decide
  | null => decide
  | int n =>
    rw [toList_literal_int]
    exact Number.intDigits_ne_nil n
  | text s =>
    rw [toList_literal_text]
    exact List.cons_ne_nil _ _

theorem bare_literal (scalar : Scalar) : Text.Bare scalar.literal.toList := by
  cases scalar with
  | bool b => cases b <;> exact .of_ends rfl rfl (by decide) (by decide)
  | null => exact .of_ends rfl rfl (by decide) (by decide)
  | int n =>
    rw [toList_literal_int]
    exact Number.bare_intDigits n
  | text s =>
    have hlast : ('\'' :: (s.toList ++ ['\''])).getLast? = some '\'' := by
      rw [← List.cons_append, List.getLast?_concat]
    rw [toList_literal_text]
    exact .of_ends rfl hlast (by decide) (by decide)

end Scalar

/-! ## Conditions -/

namespace Condition

open Text

variable {path : String} {scalar : Scalar} {document : Option Value}

/-- A path that is taken as it is on the left side of a condition. -/
structure Plain (path : String) : Prop where
  given : path ≠ ""
  bare : Bare path.toList
  unsigned : ∀ comparison : Comparison, ¬ comparison.sign.toList <:+: path.toList
  unnamed : ¬ documentName <+: path.toList

/-- In a text without signs and a blank after it no sign begins. -/
theorem sign?_append_blank {cs : List Char}
    (h : ∀ comparison : Comparison, ¬ comparison.sign.toList <:+: cs) (rest : List Char) :
    sign? (cs ++ ' ' :: rest) = none := by
  refine sign?_eq_none fun comparison hsign => ?_
  match cs, hsign with
  | [], hsign => cases comparison <;> simp [Comparison.sign] at hsign
  | [c], hsign => cases comparison <;> simp [Comparison.sign] at hsign
  | c :: d :: cs, hsign =>
    have hlength : comparison.sign.toList.length ≤ (c :: d :: cs).length := by
      cases comparison <;> simp [Comparison.sign]
    have hstarts := List.prefix_of_prefix_length_le hsign (List.prefix_append _ _) hlength
    exact h comparison hstarts.isInfix

theorem cut_append_blank {cs : List Char} (c : Char) (comparison : Comparison) {rest : List Char}
    (h : ∀ comparison : Comparison, ¬ comparison.sign.toList <:+: cs) (hrest : rest ≠ []) :
    cut (c :: (cs ++ ' ' :: (comparison.sign.toList ++ rest))) =
      some (c :: (cs ++ [' ']), comparison, rest) := by
  induction cs generalizing c with
  | nil =>
    have hsign : sign? (comparison.sign.toList ++ rest) = some (comparison, rest) :=
      sign?_eq_some_iff.2 ⟨rfl, hrest⟩
    rw [cut_cons_of_none (sign?_append_blank h _), List.nil_append, cut_cons_of_sign hsign]
    rfl
  | cons d cs ih =>
    have hlater : ∀ comparison : Comparison, ¬ comparison.sign.toList <:+: cs :=
      fun other hinside => h other (hinside.trans (List.suffix_cons d cs).isInfix)
    rw [cut_cons_of_none (sign?_append_blank h _), List.cons_append, ih d hlater]
    rfl

namespace Plain

theorem toList_ne_nil (h : Plain path) : path.toList ≠ [] :=
  fun hnil => h.given (String.toList_eq_nil_iff.1 hnil)

/-- A condition on a plain path is cut after the path and a blank. -/
theorem cut_eq (h : Plain path) (comparison : Comparison) {rest : List Char} (hrest : rest ≠ []) :
    cut (path.toList ++ ' ' :: (comparison.sign.toList ++ rest)) =
      some (path.toList ++ [' '], comparison, rest) := by
  obtain ⟨c, cs, hcs⟩ := List.exists_cons_of_ne_nil h.toList_ne_nil
  have hunsigned : ∀ comparison : Comparison, ¬ comparison.sign.toList <:+: cs := by
    intro other hinside
    refine h.unsigned other ?_
    rw [hcs]
    exact hinside.trans (List.suffix_cons c cs).isInfix
  rw [hcs]
  exact cut_append_blank c comparison hunsigned hrest

/-- Such a condition does not begin with the name of the document, which has no blank in it. -/
theorem afterName?_eq (h : Plain path) (rest : List Char) :
    afterName? (path.toList ++ ' ' :: rest) = none := by
  have hname : ¬ documentName <+: path.toList ++ ' ' :: rest := by
    intro hname
    by_cases hlong : documentName.length ≤ path.toList.length
    · exact h.unnamed (List.prefix_of_prefix_length_le hname (List.prefix_append _ _) hlong)
    · have hstart : path.toList ++ [' '] <+: path.toList ++ ' ' :: rest :=
        ⟨rest, List.append_assoc _ _ _⟩
      have hshort : (path.toList ++ [' ']).length ≤ documentName.length := by
        rw [List.length_append, List.length_singleton]
        omega
      have hblank : ' ' ∈ documentName :=
        (List.prefix_of_prefix_length_le hstart hname hshort).subset (by simp)
      exact absurd hblank (by decide)
  rw [afterName?, if_neg]
  rwa [List.isPrefixOf_iff_prefix]

end Plain

/-- The characters of a condition, without the name of the document. -/
def sides (path : String) (comparison : Comparison) (scalar : Scalar) : List Char :=
  path.toList ++ ' ' :: (comparison.sign.toList ++ ' ' :: scalar.literal.toList)

theorem Plain.bare_sides (h : Plain path) (comparison : Comparison) (scalar : Scalar) :
    Bare (sides path comparison scalar) := by
  have hbare := h.bare.append scalar.bare_literal h.toList_ne_nil scalar.literal_ne_nil
    (' ' :: (comparison.sign.toList ++ [' ']))
  rw [List.cons_append, List.append_assoc] at hbare
  exact hbare

/-- A condition on a plain path compares the part there with the scalar, with or without the name of
the document in front. -/
theorem parse?_of_plain {text : String} {name : List Char} {comparison : Comparison}
    (hpath : Plain path) (hscalar : scalar.Short) (hname : name = [] ∨ name = documentName)
    (htext : text.toList = name ++ sides path comparison scalar) :
    parse? text = .ok (some ⟨path, comparison, scalar.value⟩) := by
  have hbare := hpath.bare_sides comparison scalar
  have hcut := hpath.cut_eq comparison (List.cons_ne_nil ' ' scalar.literal.toList)
  have hsplit : split (trim text.toList) =
      some (path.toList ++ [' '], comparison, ' ' :: scalar.literal.toList) := by
    rcases hname with rfl | rfl
    · rw [htext, List.nil_append, hbare.trim_eq, split, sides, hpath.afterName?_eq, hcut]
      rfl
    · have hdocument : Bare documentName := .of_ends rfl rfl (by decide) (by decide)
      have hwhole := hdocument.append hbare (by decide) (by simp [sides]) []
      rw [List.nil_append] at hwhole
      rw [htext, hwhole.trim_eq, split, afterName?_eq_some_iff.2 rfl, Option.bind_some, sides, hcut]
      rfl
  have hblank : ∀ c ∈ [' '], isBlank c := List.forall_mem_singleton.2 (by decide)
  have hleft : trim (path.toList ++ [' ']) = path.toList := by
    rw [trim_append_right _ hblank, hpath.bare.trim_eq]
  have hright : trim (' ' :: scalar.literal.toList) = scalar.literal.toList := by
    rw [← List.singleton_append, trim_append_left hblank, scalar.bare_literal.trim_eq]
  rw [parse?, hsplit]
  simp only [hleft, hright, Literal.read_literal hscalar, String.ofList_toList]
  rfl

theorem evaluate_of_parse? {text : String} {condition : Condition}
    (h : parse? text = .ok (some condition)) (document : Option Value) :
    evaluate text document = (Path.extract document condition.path).map fun part =>
      if holds condition.comparison (strictlyEqual part (some condition.expected)) then .matched
      else .notMatched := by
  rw [evaluate, h]
  cases hextract : Path.extract document condition.path <;>
    simp [bind, Except.bind, pure, Except.pure, Except.map, hextract]

/-- A condition on a plain path tests whether the part there is the scalar, and a fault is only one
of the extraction. The name of the document in front changes nothing. -/
theorem evaluate_scalar (document : Option Value) (hpath : Plain path) (hscalar : scalar.Short) :
    evaluate (path ++ " == " ++ scalar.literal) document =
        ((Path.extract document path).map fun part =>
          if strictlyEqual part (some scalar.value) then .matched else .notMatched) ∧
      evaluate (path ++ " != " ++ scalar.literal) document =
        ((Path.extract document path).map fun part =>
          if strictlyEqual part (some scalar.value) then .notMatched else .matched) ∧
      evaluate ("response." ++ (path ++ " == " ++ scalar.literal)) document =
        evaluate (path ++ " == " ++ scalar.literal) document ∧
      evaluate ("response." ++ (path ++ " != " ++ scalar.literal)) document =
        evaluate (path ++ " != " ++ scalar.literal) document := by
  have hequal : (path ++ " == " ++ scalar.literal).toList = sides path .equal scalar := by
    simp [sides, Comparison.sign]
  have hunequal : (path ++ " != " ++ scalar.literal).toList = sides path .unequal scalar := by
    simp [sides, Comparison.sign]
  have hnamed (comparison : Comparison) (text : String)
      (htext : text.toList = sides path comparison scalar) :
      evaluate ("response." ++ text) document = evaluate text document := by
    have hname : ("response." ++ text).toList = documentName ++ sides path comparison scalar := by
      rw [String.toList_append, htext]
      rfl
    rw [evaluate_of_parse? (parse?_of_plain hpath hscalar (.inr rfl) hname),
      evaluate_of_parse? (parse?_of_plain hpath hscalar (.inl rfl) htext)]
  refine ⟨?_, ?_, ?_, ?_⟩
  · rw [evaluate_of_parse? (parse?_of_plain hpath hscalar (.inl rfl) hequal)]
    rfl
  · rw [evaluate_of_parse? (parse?_of_plain hpath hscalar (.inl rfl) hunequal)]
    cases Path.extract document path with
    | error f => rfl
    | ok part => cases h : strictlyEqual part (some scalar.value) <;> simp [Except.map, holds, h]
  · exact hnamed .equal _ hequal
  · exact hnamed .unequal _ hunequal

/-- A text of a job that contains quotes, signs, a word and a line break. -/
def jobNote : String := "it's == \"done\" != true\n5"

def jobDocument : Value := .object [("jobs", .list [.object [("note", .text jobNote)]])]

theorem plain_note : Plain "jobs[0].note" where
  given := by decide
  bare := .of_ends rfl rfl (by decide) (by decide)
  unsigned := by
    intro comparison hinside
    have hequality : '=' ∈ comparison.sign.toList := by cases comparison <;> decide
    exact absurd (hinside.subset hequality) (by decide)
  unnamed := by decide

theorem evaluate_scalar_note :
    Plain "jobs[0].note" ∧ (Scalar.text jobNote).Short ∧
      evaluate ("jobs[0].note" ++ " == " ++ (Scalar.text jobNote).literal) (some jobDocument) =
        .ok .matched ∧
      evaluate ("response." ++ ("jobs[0].note" ++ " != " ++ (Scalar.text jobNote).literal))
        (some jobDocument) = .ok .notMatched := by
  have hshort : (Scalar.text jobNote).Short := trivial
  have hextract : Path.extract (some jobDocument) "jobs[0].note" = .ok (some (.text jobNote)) := by
    rfl
  have hsame : strictlyEqual (some (.text jobNote)) (some (Scalar.text jobNote).value) = true := by
    decide
  obtain ⟨hequal, hunequal, -, hnamed⟩ := evaluate_scalar (some jobDocument) plain_note hshort
  rw [hnamed, hequal, hunequal, hextract, Except.map, Except.map, if_pos hsame, if_pos hsame]
  exact ⟨plain_note, hshort, rfl, rfl⟩

end Condition

end RestDemo

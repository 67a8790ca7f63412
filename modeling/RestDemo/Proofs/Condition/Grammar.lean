import RestDemo.Proofs.Condition.Cut
import RestDemo.Proofs.Condition.Overlong
import RestDemo.Proofs.Text.Pattern

/-!
# The grammar of conditions

A condition is described by a pattern that is matched by backtracking: an optional name of the
document, as few characters as can be, a sign, and all the rest, with blanks allowed around the
sign. The pattern takes a text apart as `split` does (`first?_pattern`): at the first place where the
text after the name of the document can be cut, or else where the whole can be (`parse?_grammar`).
-/

namespace RestDemo.Condition

open Text

variable {cs rest : List Char} {c : Char} {comparison : Comparison}

section Rel

variable {α β : Type} {R R' : α → β → Prop}

theorem rel_map_left {f : α → α} {x : Option α} {y : Option β} (hf : ∀ a b, R a b → R' (f a) b)
    (h : Option.Rel R x y) : Option.Rel R' (x.map f) y := by
  cases h with
  | some h => exact .some (hf _ _ h)
  | none => exact .none

theorem rel_map_right {g : β → β} {x : Option α} {y : Option β} (hg : ∀ a b, R a b → R' a (g b))
    (h : Option.Rel R x y) : Option.Rel R' x (y.map g) := by
  cases h with
  | some h => exact .some (hg _ _ h)
  | none => exact .none

theorem rel_or {x x' : Option α} {y y' : Option β} (h : Option.Rel R x y)
    (h' : Option.Rel R x' y') : Option.Rel R (x.or x') (y.or y') := by
  cases h with
  | some h => exact .some h
  | none => exact h'

theorem eq_none_of_rel {x : Option α} (h : Option.Rel R x none) : x = none := by
  cases h
  rfl

theorem exists_of_rel {x : Option α} {b : β} (h : Option.Rel R x (some b)) :
    ∃ a, x = some a ∧ R a b := by
  cases h with
  | some h => exact ⟨_, rfl, h⟩

end Rel

/-! ## The pattern -/

def blanks : Pattern := .many isBlank true

/-- `\s*(.+)$`, where a dot is any character. -/
def literalPattern : Pattern :=
  .next blanks (.next (.group (.next (.one Pattern.any) (.many Pattern.any true))) .atEnd)

def signPattern : Pattern :=
  .group (.either (.word Comparison.equal.sign.toList) (.word Comparison.unequal.sign.toList))

def operatorPattern : Pattern :=
  .next blanks (.next signPattern literalPattern)

/-- `(.+?)\s*(==|!=)\s*(.+)$`, where a dot is any character. -/
def comparisonPattern : Pattern :=
  .next (.group (.next (.one Pattern.any) (.many Pattern.any false))) operatorPattern

/-- `^(?:response\.)?(.+?)\s*(==|!=)\s*(.+)$`, where a dot is any character. -/
def pattern : Pattern :=
  .next (.option (.word documentName)) comparisonPattern

/-! ## The right side -/

theorem first?_literal_nil : literalPattern.first? [] = none := by
  rw [literalPattern, blanks, Pattern.first?_many_nil, Pattern.first?_group_one_nil]

theorem first?_literal_of_blank (h : isBlank c) (cs : List Char) :
    literalPattern.first? (c :: cs) =
      ((literalPattern.first? cs).map (Way.cons c)).or (some ⟨[c :: cs], c :: cs, []⟩) := by
  rw [literalPattern, blanks, Pattern.first?_many_cons_of_pos h, Pattern.first?_longest]

theorem first?_literal_of_not_blank (h : ¬ isBlank c) (cs : List Char) :
    literalPattern.first? (c :: cs) = some ⟨[c :: cs], c :: cs, []⟩ := by
  rw [literalPattern, blanks, Pattern.first?_many_cons_of_neg h, Pattern.first?_longest]

/-- What follows a sign is taken, with no more left out than blanks. -/
theorem exists_first?_literal (c : Char) (cs : List Char) :
    ∃ way gap after, literalPattern.first? (c :: cs) = some way ∧ way.groups = [after] ∧
      c :: cs = gap ++ after ∧ ∀ b ∈ gap, isBlank b := by
  induction cs generalizing c with
  | nil =>
    -- A single blank is not left out, since there is nothing else that could be taken.
    refine ⟨⟨[[c]], [c], []⟩, [], [c], ?_, rfl, rfl, fun b hb => nomatch hb⟩
    by_cases hblank : isBlank c
    · rw [first?_literal_of_blank hblank, first?_literal_nil]
      rfl
    · exact first?_literal_of_not_blank hblank []
  | cons d cs ih =>
    by_cases hblank : isBlank c
    · obtain ⟨way, gap, after, hfirst, hgroups, heq, hgap⟩ := ih d
      refine ⟨way.cons c, c :: gap, after, ?_, hgroups, by rw [heq, List.cons_append], ?_⟩
      · rw [first?_literal_of_blank hblank, hfirst]
        rfl
      · exact List.forall_mem_cons.2 ⟨hblank, hgap⟩
    · exact ⟨_, [], c :: d :: cs, first?_literal_of_not_blank hblank _, rfl, rfl,
        fun b hb => nomatch hb⟩

/-! ## The sign -/

/-- What the groups took is the sign and what follows it, up to blanks. -/
inductive TookSign : List (List Char) → Comparison × List Char → Prop
  | intro {gap after : List Char} (comparison : Comparison) (blank : ∀ b ∈ gap, isBlank b) :
    TookSign [comparison.sign.toList, after] (comparison, gap ++ after)

theorem ways_sign (comparison : Comparison) (rest : List Char) :
    signPattern.ways (comparison.sign.toList ++ rest) =
      [⟨[comparison.sign.toList], comparison.sign.toList, rest⟩] := by
  cases comparison <;> simp [signPattern, Pattern.ways, Comparison.sign]

theorem ways_no_sign (h : ∀ comparison : Comparison, ¬ comparison.sign.toList <+: cs) :
    signPattern.ways cs = [] := by
  simp [signPattern, Pattern.ways, List.isPrefixOf_iff_prefix, h]

theorem sign?_eq_none (h : ∀ comparison : Comparison, ¬ comparison.sign.toList <+: cs) :
    sign? cs = none := by
  cases hsign : sign? cs with
  | none => rfl
  | some parts =>
    obtain ⟨comparison, after⟩ := parts
    obtain ⟨rfl, -⟩ := sign?_eq_some_iff.1 hsign
    exact absurd (List.prefix_append _ _) (h comparison)

theorem first?_sign (cs : List Char) :
    Option.Rel (fun way => TookSign way.groups)
      (Pattern.first? (.next signPattern literalPattern) cs) (sign? cs) := by
  rw [Pattern.first?_next]
  by_cases hsign : ∃ comparison : Comparison, comparison.sign.toList <+: cs
  · obtain ⟨comparison, rest, rfl⟩ := hsign
    rw [ways_sign]
    cases rest with
    | nil =>
      have hnone : sign? (comparison.sign.toList ++ []) = none := by cases comparison <;> rfl
      rw [hnone, List.findSome?_cons, first?_literal_nil]
      exact .none
    | cons c rest =>
      obtain ⟨way, gap, after, hfirst, hgroups, heq, hgap⟩ := exists_first?_literal c rest
      have hsome : sign? (comparison.sign.toList ++ c :: rest) = some (comparison, c :: rest) :=
        sign?_eq_some_iff.2 ⟨rfl, List.cons_ne_nil c rest⟩
      rw [hsome, List.findSome?_cons, hfirst, heq]
      refine .some ?_
      rw [Way.append, hgroups]
      exact .intro comparison hgap
  · rw [not_exists] at hsign
    rw [ways_no_sign hsign, sign?_eq_none hsign]
    exact .none

theorem sign?_of_blank (h : isBlank c) (cs : List Char) : sign? (c :: cs) = none := by
  refine sign?_eq_none ?_
  rintro comparison ⟨rest, hrest⟩
  cases comparison <;> cases hrest <;> exact absurd h (by decide)

theorem first?_operator (cs : List Char) :
    Option.Rel (fun way => TookSign way.groups) (operatorPattern.first? cs)
      (sign? (trimStart cs)) := by
  have hsign := first?_sign
  induction cs with
  | nil =>
    rw [operatorPattern, blanks, Pattern.first?_many_nil]
    exact hsign []
  | cons c cs ih =>
    by_cases hblank : isBlank c
    · have htrim : trimStart (c :: cs) = trimStart cs := List.dropWhile_cons_of_pos hblank
      have hnone := hsign (c :: cs)
      rw [sign?_of_blank hblank] at hnone
      rw [operatorPattern, blanks, Pattern.first?_many_cons_of_pos hblank, htrim,
        ← Option.or_none (o := sign? _)]
      exact rel_or (rel_map_left (fun _ _ h => h) ih) hnone
    · have htrim : trimStart (c :: cs) = c :: cs := List.dropWhile_cons_of_neg hblank
      rw [operatorPattern, blanks, Pattern.first?_many_cons_of_neg hblank, htrim]
      exact hsign (c :: cs)

/-! ## The left side -/

/-- Blanks before a sign belong to the left side. -/
theorem cut_of_trimStart {after : List Char} (c : Char)
    (h : sign? (trimStart cs) = some (comparison, after)) :
    cut (c :: cs) = some (c :: cs.takeWhile isBlank, comparison, after) := by
  induction cs generalizing c with
  | nil => cases h
  | cons d cs ih =>
    by_cases hblank : isBlank d
    · rw [trimStart, List.dropWhile_cons_of_pos hblank] at h
      rw [cut_cons_of_none (sign?_of_blank hblank cs), ih d h, List.takeWhile_cons_of_pos hblank]
      rfl
    · rw [trimStart, List.dropWhile_cons_of_neg hblank] at h
      rw [cut_cons_of_sign h, List.takeWhile_cons_of_neg hblank]

/-- There is no sign in front if there is none after blanks. -/
theorem sign?_of_trimStart (h : sign? (trimStart cs) = none) : sign? cs = none := by
  cases cs with
  | nil => rfl
  | cons c cs =>
    by_cases hblank : isBlank c
    · exact sign?_of_blank hblank cs
    · rwa [trimStart, List.dropWhile_cons_of_neg hblank] at h

/-- What the groups took is the parts of the cut, up to blanks around the sign. Before the first of
them stands what was taken earlier. -/
inductive TookCut (earlier : List Char) :
    List (List Char) → List Char × Comparison × List Char → Prop
  | intro {gap after : List Char} {comparison : Comparison} {groups : List (List Char)}
      (before : List Char) (blank : ∀ b ∈ gap, isBlank b)
      (later : TookSign groups (comparison, after)) :
    TookCut earlier ((earlier ++ before) :: groups) (before ++ gap, comparison, after)

theorem TookCut.cons {earlier before after : List Char} {groups : List (List Char)}
    (h : TookCut (earlier ++ [c]) groups (before, comparison, after)) :
    TookCut earlier groups (c :: before, comparison, after) := by
  generalize hparts : (before, comparison, after) = parts at h
  cases h with
  | @intro gap after' other groups' taken hblank hlater =>
    cases hparts
    rw [List.append_assoc, List.singleton_append]
    exact .intro (c :: taken) hblank hlater

/-- The least that is taken before the sign reaches to the first place where the text can be cut, or
to the blanks before it. -/
theorem shortest?_cut (earlier : List Char) (c : Char) (cs : List Char) :
    Option.Rel (fun way => TookCut earlier way.groups)
      (operatorPattern.shortest? (earlier ++ [c]) cs) (cut (c :: cs)) := by
  induction cs generalizing earlier c with
  | nil =>
    rw [Pattern.shortest?, eq_none_of_rel (first?_operator [])]
    exact .none
  | cons d cs ih =>
    have hoperator := first?_operator (d :: cs)
    rw [Pattern.shortest?]
    cases hsign : sign? (trimStart (d :: cs)) with
    | some parts =>
      obtain ⟨comparison, after⟩ := parts
      rw [hsign] at hoperator
      obtain ⟨way, hfirst, htook⟩ := exists_of_rel hoperator
      rw [cut_of_trimStart c hsign, hfirst]
      have hblank : ∀ b ∈ (d :: cs).takeWhile isBlank, isBlank b :=
        fun b hb => List.all_eq_true.1 List.all_takeWhile b hb
      exact .some (.intro [c] hblank htook)
    | none =>
      rw [hsign] at hoperator
      rw [cut_cons_of_none (sign?_of_trimStart hsign), eq_none_of_rel hoperator]
      exact rel_map_right (fun _ _ h => h.cons) (ih (earlier ++ [c]) d)

/-! ## The whole -/

theorem first?_comparison (cs : List Char) :
    Option.Rel (fun way => TookCut [] way.groups) (comparisonPattern.first? cs) (cut cs) := by
  cases cs with
  | nil =>
    rw [comparisonPattern, Pattern.first?_group_one_nil]
    exact .none
  | cons c cs =>
    rw [comparisonPattern, Pattern.first?_shortest]
    exact shortest?_cut [] c cs

/-- The pattern takes a text apart as it is split, but for blanks around the sign. -/
theorem first?_pattern (cs : List Char) :
    Option.Rel (fun way => TookCut [] way.groups) (pattern.first? cs) (split cs) := by
  rw [pattern, Pattern.first?_option_word, split, afterName?]
  refine rel_or ?_ (first?_comparison cs)
  by_cases hname : documentName.isPrefixOf cs
  · rw [if_pos hname, if_pos hname]
    exact rel_map_left (fun _ _ h => h) (first?_comparison _)
  · rw [if_neg hname, if_neg hname]
    exact .none

/-- Where there is nothing but a blank for the left side, the group takes the blank. -/
example : (pattern.first? "response. === x".toList).map Way.groups =
    some [[' '], "==".toList, "= x".toList] := by rfl

/-- But for blanks at their ends, the groups are the parts into which the text is split. -/
theorem TookCut.trim {before after : List Char} {groups : List (List Char)}
    (h : TookCut [] groups (before, comparison, after)) :
    groups.map Text.trim = [Text.trim before, comparison.sign.toList, Text.trim after] := by
  generalize hparts : (before, comparison, after) = parts at h
  cases h with
  | intro taken hgap hlater =>
    cases hparts
    cases hlater with
    | intro _ hblank =>
      have hsign : Text.trim comparison.sign.toList = comparison.sign.toList := by
        cases comparison <;> rfl
      rw [List.map_cons, List.map_cons, List.map_singleton, List.nil_append, hsign,
        trim_append_right taken hgap, trim_append_left hblank]

/-! ## What is read -/

/-- The text has a place where it can be cut. -/
def Cuttable (cs : List Char) : Prop :=
  ∃ i comparison, CutAt cs i comparison

/-- What a condition is read from: the text after the name of the document if that can be cut, and
else the whole text if that can be. -/
inductive ReadFrom (cs : List Char) : List Char → Prop
  | afterName {rest : List Char} (name : cs = documentName ++ rest) (cuttable : Cuttable rest) :
    ReadFrom cs rest
  | whole (unnamed : ∀ rest, cs = documentName ++ rest → ¬ Cuttable rest)
      (cuttable : Cuttable cs) : ReadFrom cs cs

theorem not_cuttable_iff : ¬ Cuttable cs ↔ cut cs = none := by
  rw [cut_eq_none_iff, Cuttable]
  simp only [not_exists]

theorem Cuttable.exists_firstCut (h : Cuttable cs) : ∃ i comparison, FirstCut cs i comparison := by
  cases hcut : cut cs with
  | none => exact absurd h (not_cuttable_iff.2 hcut)
  | some parts =>
    obtain ⟨before, comparison, after⟩ := parts
    obtain ⟨i, hfirst, -⟩ := Condition.exists_firstCut hcut
    exact ⟨i, comparison, hfirst⟩

theorem ReadFrom.cuttable (h : ReadFrom cs rest) : Cuttable rest := by
  cases h with
  | afterName _ hcuttable => exact hcuttable
  | whole _ hcuttable => exact hcuttable

theorem afterName?_eq_some_iff : afterName? cs = some rest ↔ cs = documentName ++ rest := by
  unfold afterName?
  constructor
  · intro h
    split at h
    · next hname =>
      obtain ⟨rest', rfl⟩ := List.isPrefixOf_iff_prefix.1 hname
      rw [List.drop_left] at h
      rw [Option.some.inj h]
    · cases h
  · rintro rfl
    rw [if_pos (List.isPrefixOf_iff_prefix.2 (List.prefix_append _ _)), List.drop_left]

theorem bind_cut_eq_none_iff : (afterName? cs).bind cut = none ↔
    ∀ rest, cs = documentName ++ rest → ¬ Cuttable rest := by
  simp only [Option.bind_eq_none_iff, afterName?_eq_some_iff, not_cuttable_iff]

theorem split_of_readFrom (h : ReadFrom cs rest) : split cs = cut rest := by
  cases h with
  | afterName hname hcuttable =>
    rw [split, afterName?_eq_some_iff.2 hname, Option.bind_some, Option.or_of_isSome]
    rw [← Option.ne_none_iff_isSome]
    exact fun hnone => not_cuttable_iff.2 hnone hcuttable
  | whole hunnamed _ => rw [split, bind_cut_eq_none_iff.2 hunnamed, Option.none_or]

theorem split_of_not_readFrom (h : ∀ rest, ¬ ReadFrom cs rest) : split cs = none := by
  have hunnamed : ∀ rest, cs = documentName ++ rest → ¬ Cuttable rest :=
    fun rest hname hcuttable => h rest (.afterName hname hcuttable)
  have hwhole : ¬ Cuttable cs := fun hcuttable => h cs (.whole hunnamed hcuttable)
  rw [split, bind_cut_eq_none_iff.2 hunnamed, Option.none_or]
  exact not_cuttable_iff.1 hwhole

theorem evaluate_of_parse?_none {text : String} (h : parse? text = .ok none)
    (document : Option Value) : evaluate text document = .ok .unparsable := by
  rw [evaluate, h]
  rfl

/-- A condition that is left out is the empty one. It is cut at the first place where the text after
the name of the document can be cut, or else the whole, and its sides are what is between the blanks
there; the pattern takes the same sides and the same sign. If there is no such place, the pattern
does not match and the condition is unparsable. -/
theorem parse?_grammar (expr : Option String) :
    textOf (Poll.given expr) = .ok (expr.getD "") ∧
      ((∃ rest i comparison, ReadFrom (trim (expr.getD "").toList) rest ∧
          FirstCut rest i comparison ∧
          (pattern.first? (trim (expr.getD "").toList)).map (fun way => way.groups.map trim) =
            some [trim (rest.take i), comparison.sign.toList, trim (rest.drop (i + 2))] ∧
          parse? (expr.getD "") = (Literal.read (trim (rest.drop (i + 2)))).map fun v =>
            some ⟨String.ofList (trim (rest.take i)), comparison, v⟩) ∨
        (∀ rest, ¬ ReadFrom (trim (expr.getD "").toList) rest) ∧
          pattern.first? (trim (expr.getD "").toList) = none ∧
          parse? (expr.getD "") = .ok none ∧
          ∀ document, evaluate (expr.getD "") document = .ok .unparsable) := by
  refine ⟨Poll.textOf_given expr, ?_⟩
  generalize expr.getD "" = text
  have hpattern := first?_pattern (trim text.toList)
  by_cases hread : ∃ rest, ReadFrom (trim text.toList) rest
  · obtain ⟨rest, hread⟩ := hread
    obtain ⟨i, comparison, hfirst⟩ := hread.cuttable.exists_firstCut
    have hsplit : split (trim text.toList) = some (rest.take i, comparison, rest.drop (i + 2)) := by
      rw [split_of_readFrom hread]
      exact cut_eq_some_iff.2 ⟨i, hfirst, rfl, rfl⟩
    rw [hsplit] at hpattern
    obtain ⟨way, hway, htook⟩ := exists_of_rel hpattern
    refine .inl ⟨rest, i, comparison, hread, hfirst, ?_, ?_⟩
    · rw [hway, Option.map_some, htook.trim]
    · rw [parse?, hsplit]
  · have hnone := split_of_not_readFrom (not_exists.1 hread)
    rw [hnone] at hpattern
    have hparse : parse? text = .ok none := by rw [parse?, hnone]
    refine .inr ⟨not_exists.1 hread, eq_none_of_rel hpattern, hparse, ?_⟩
    exact evaluate_of_parse?_none hparse

end RestDemo.Condition

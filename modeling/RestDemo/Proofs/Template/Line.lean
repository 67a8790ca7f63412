import RestDemo.Proofs.RestLine
import RestDemo.Proofs.Template.Pass

/-!
# The variables of a request line

Blanks are in no name, so that the words of a line have their variables each for itself
(`mem_variablesOf_line`).
-/

namespace RestDemo

namespace Template

variable {cs ds : List Char} {c : Char} {name : String}

theorem not_isBlank_of_isNameChar (h : isNameChar c) : ¬ Text.isBlank c := by
  simp only [isNameChar, isNameStart, Bool.or_eq_true, Bool.and_eq_true, decide_eq_true_eq,
    Char.le_def, UInt32.le_iff_toNat_le] at h
  rcases h with ((hbounds | hbounds) | rfl) | hbounds
  · change 65 ≤ c.toNat ∧ c.toNat ≤ 90 at hbounds
    exact Text.not_isBlank_of_printed (by omega) (by omega)
  · change 97 ≤ c.toNat ∧ c.toNat ≤ 122 at hbounds
    exact Text.not_isBlank_of_printed (by omega) (by omega)
  · decide
  · change 48 ≤ c.toNat ∧ c.toNat ≤ 57 at hbounds
    exact Text.not_isBlank_of_printed (by omega) (by omega)

theorem detached_of_blank (h : ∀ c ∈ cs.head?, Text.isBlank c) : Detached cs := by
  intro c hc hname
  exact not_isBlank_of_isNameChar hname (h c hc)

theorem dollar_not_mem_of_blank (h : ∀ c ∈ cs, Text.isBlank c) : '$' ∉ cs := by
  intro hdollar
  have hblank := h '$' hdollar
  revert hblank
  decide

/-- Blanks before a text have no variables. -/
theorem mem_scan_blank_append (hcs : ∀ c ∈ cs, Text.isBlank c) (ds : List Char) :
    .variable name ∈ scan .inText (cs ++ ds) ↔ .variable name ∈ scan .inText ds := by
  rw [scan_append_of_not_mem (dollar_not_mem_of_blank hcs)]
  simp

/-- Blanks after a text have no variables. -/
theorem mem_scan_append_blank (cs : List Char) (hds : ∀ c ∈ ds, Text.isBlank c) :
    .variable name ∈ scan .inText (cs ++ ds) ↔ .variable name ∈ scan .inText cs := by
  have hdetached : Detached ds := detached_of_blank fun c hc => hds c (List.mem_of_mem_head? hc)
  have hnone : .variable name ∈ scan .inText (ds ++ []) ↔ .variable name ∈ scan .inText [] :=
    mem_scan_blank_append hds []
  rw [List.append_nil] at hnone
  rw [scan_append _ _ hdetached, List.mem_append, hnone]
  simp [scan]

theorem mem_scan_trimStart (cs : List Char) :
    .variable name ∈ scan .inText cs ↔ .variable name ∈ scan .inText (Text.trimStart cs) := by
  have hblank : ∀ c ∈ cs.takeWhile Text.isBlank, Text.isBlank c :=
    fun c hc => List.mem_takeWhile_imp hc
  rw [← mem_scan_blank_append hblank (Text.trimStart cs), Text.trimStart,
    List.takeWhile_append_dropWhile]

end Template

namespace RestLine

open Template

/-- The first word of a line. -/
def word (line : String) : String :=
  String.ofList ((Text.trim line.toList).takeWhile fun c => !Text.isBlank c)

/-- The variables of a line are those of its first word and those of its endpoint. -/
theorem mem_variablesOf_line {name : String} (line : String) : name ∈ variablesOf line ↔
    name ∈ variablesOf (word line) ∨ name ∈ variablesOf (split line).2 := by
  simp only [mem_variablesOf, pieces, word, split, String.toList_ofList]
  obtain ⟨before, after, hline, hbefore, hafter⟩ := Text.exists_trim line.toList
  generalize Text.trim line.toList = cs at hline ⊢
  have hgap : ∀ c ∈ (cs.dropWhile fun c => !Text.isBlank c).head?, Text.isBlank c :=
    Text.isBlank_of_mem_head?_dropWhile cs
  rw [hline, mem_scan_blank_append hbefore, mem_scan_append_blank cs hafter,
    ← mem_scan_trimStart (cs.dropWhile fun c => !Text.isBlank c), ← List.mem_append,
    ← scan_append _ _ (detached_of_blank hgap), List.takeWhile_append_dropWhile]

end RestLine

end RestDemo

import Mathlib.Data.List.TakeWhile
import RestDemo.Text.Blank

/-!
# Texts without blanks around them

A text is bare if it neither starts nor ends with a blank. What is left of a text when the blanks
around it are removed is bare (`bare_trim`), and a bare text is left as it is (`Bare.trim_eq`).
Nothing but blanks is removed (`exists_trim`).
-/

namespace RestDemo.Text

variable {cs ds : List Char}

/-- Neither the first nor the last character is blank. -/
structure Bare (cs : List Char) : Prop where
  first : ∀ c ∈ cs.head?, ¬ isBlank c
  last : ∀ c ∈ cs.getLast?, ¬ isBlank c

theorem not_isBlank_of_mem_head?_trimStart (cs : List Char) :
    ∀ c ∈ (trimStart cs).head?, ¬ isBlank c := by
  intro c hc
  have h := List.head?_dropWhile_not isBlank cs
  rw [trimStart, Option.mem_def] at hc
  rw [hc] at h
  simp [h]

/-- What follows a word begins with a blank. -/
theorem isBlank_of_mem_head?_dropWhile (cs : List Char) :
    ∀ c ∈ (cs.dropWhile fun c => !isBlank c).head?, isBlank c := by
  intro c hc
  have h := List.head?_dropWhile_not (fun c => !isBlank c) cs
  rw [Option.mem_def.1 hc] at h
  simpa using h

theorem trimStart_eq_self (h : ∀ c ∈ cs.head?, ¬ isBlank c) : trimStart cs = cs := by
  cases cs with
  | nil => rfl
  | cons c cs => exact List.dropWhile_cons_of_neg (h c rfl)

/-- Blanks at the start are all that is removed there. -/
theorem trimStart_append (hcs : ∀ c ∈ cs, isBlank c) (hds : ∀ c ∈ ds.head?, ¬ isBlank c) :
    trimStart (cs ++ ds) = ds := by
  rw [trimStart, List.dropWhile_append_of_pos hcs]
  exact trimStart_eq_self hds

theorem trimEnd_eq_reverse (cs : List Char) : trimEnd cs = (trimStart cs.reverse).reverse := rfl

theorem trimEnd_prefix (cs : List Char) : trimEnd cs <+: cs := by
  rw [trimEnd_eq_reverse, ← List.reverse_suffix, List.reverse_reverse]
  exact List.dropWhile_suffix isBlank

/-- A text is what is left of it with blanks around. -/
theorem exists_trim (cs : List Char) : ∃ before after, cs = before ++ (trim cs ++ after) ∧
    (∀ c ∈ before, isBlank c) ∧ ∀ c ∈ after, isBlank c := by
  refine ⟨cs.takeWhile isBlank, ((trimStart cs).reverse.takeWhile isBlank).reverse, ?_, ?_, ?_⟩
  · rw [trim, trimEnd, ← List.reverse_append, List.takeWhile_append_dropWhile,
      List.reverse_reverse, trimStart, List.takeWhile_append_dropWhile]
  · exact fun c hc => List.mem_takeWhile_imp hc
  · exact fun c hc => List.mem_takeWhile_imp (List.mem_reverse.1 hc)

theorem bare_trim (cs : List Char) : Bare (trim cs) where
  first := by
    intro c hc
    rw [trim] at hc
    obtain ⟨ds, hds⟩ := trimEnd_prefix (trimStart cs)
    refine not_isBlank_of_mem_head?_trimStart cs c ?_
    rw [← hds, List.head?_append, Option.mem_def.1 hc]
    rfl
  last := by
    intro c hc
    rw [trim, trimEnd_eq_reverse, List.getLast?_reverse] at hc
    exact not_isBlank_of_mem_head?_trimStart _ c hc

theorem not_isBlank_of_printed {c : Char} (hlow : 0x20 < c.toNat) (hhigh : c.toNat < 0x7F) :
    ¬ isBlank c := by
  simp only [isBlank, Bool.or_eq_true, Bool.and_eq_true, decide_eq_true_eq, beq_iff_eq]
  omega

theorem bare_of_forall (h : ∀ c ∈ cs, ¬ isBlank c) : Bare cs where
  first := fun c hc => h c (List.mem_of_mem_head? hc)
  last := fun c hc => h c (List.mem_of_mem_getLast? hc)

/-- Blanks before a text are removed with those at its start. -/
theorem trim_append_left (hcs : ∀ c ∈ cs, isBlank c) (ds : List Char) :
    trim (cs ++ ds) = trim ds := by
  rw [trim, trimStart, List.dropWhile_append_of_pos hcs]
  rfl

theorem trimEnd_append (cs : List Char) (hds : ∀ d ∈ ds, isBlank d) :
    trimEnd (cs ++ ds) = trimEnd cs := by
  have hreverse : ∀ d ∈ ds.reverse, isBlank d := fun d hd => hds d (List.mem_reverse.1 hd)
  rw [trimEnd, List.reverse_append, List.dropWhile_append_of_pos hreverse]
  rfl

/-- Blanks after a text are removed with those at its end. -/
theorem trim_append_right (cs : List Char) (hds : ∀ d ∈ ds, isBlank d) :
    trim (cs ++ ds) = trim cs := by
  by_cases hcs : ∀ c ∈ cs, isBlank c
  · rw [trim_append_left hcs, trim_eq_nil_iff.2 hds, trim_eq_nil_iff.2 hcs]
  · have hgiven : trimStart cs ≠ [] := fun h => hcs (trimStart_eq_nil_iff.1 h)
    have hstart : trimStart (cs ++ ds) = trimStart cs ++ ds := by
      rw [trimStart, List.dropWhile_append, if_neg (by simpa [trimStart] using hgiven)]
      rfl
    rw [trim, hstart, trimEnd_append _ hds]
    rfl

namespace Bare

theorem of_ends {c d : Char} (hfirst : cs.head? = some c) (hlast : cs.getLast? = some d)
    (hc : ¬ isBlank c) (hd : ¬ isBlank d) : Bare cs where
  first := by
    intro c' hc'
    obtain rfl := Option.some.inj (hfirst.symm.trans hc')
    exact hc
  last := by
    intro d' hd'
    obtain rfl := Option.some.inj (hlast.symm.trans hd')
    exact hd

theorem trim_eq (h : Bare cs) : trim cs = cs := by
  have hlast : ∀ c ∈ cs.reverse.head?, ¬ isBlank c := by
    rw [List.head?_reverse]
    exact h.last
  rw [trim, trimStart_eq_self h.first, trimEnd_eq_reverse, trimStart_eq_self hlast,
    List.reverse_reverse]

/-- The end of a bare text is bare if it starts with no blank. -/
theorem of_append (h : Bare (cs ++ ds)) (hds : ∀ c ∈ ds.head?, ¬ isBlank c) : Bare ds where
  first := hds
  last := by
    intro c hc
    refine h.last c ?_
    rw [List.getLast?_append, Option.mem_def.1 hc]
    rfl

/-- A text is bare if it begins and ends with bare ones. -/
theorem append (hcs : Bare cs) (hds : Bare ds) (hcs' : cs ≠ []) (hds' : ds ≠ [])
    (between : List Char) : Bare (cs ++ (between ++ ds)) where
  first := by
    intro c hc
    obtain ⟨d, cs, rfl⟩ := List.exists_cons_of_ne_nil hcs'
    exact hcs.first c hc
  last := by
    intro c hc
    refine hds.last c ?_
    rw [← List.append_assoc, List.getLast?_append, List.getLast?_eq_some_getLast hds'] at hc
    rw [List.getLast?_eq_some_getLast hds']
    exact hc

end Bare

end RestDemo.Text

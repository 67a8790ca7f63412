import RestDemo.Proofs.Text.Blank
import RestDemo.RestLine
import Mathlib.Data.List.Forall2
import Mathlib.Data.List.TakeWhile

/-!
# The two readings of a request line

A line in parts is a word without blanks, a gap of blanks, and an endpoint that runs to the end
of the line (`Parts`). `split` gives the parts of such a line (`Parts.split_eq`), and `parse?` takes
exactly the lines in parts whose word spells a method and whose endpoint is on one line
(`parse?_eq_some_iff`). Since what spells a method has it as its upper-case form, but for one
letter (`upper_of_matchesLetter`), the two readings agree wherever `parse?` gives an answer
(`split_of_parse?`).
-/

namespace RestDemo.RestLine

variable {line m e : String} {letters word endpoint cs : List Char}

/-- A line without the blanks around it is a word, a gap of blanks, and an endpoint. -/
structure Parts (line : String) (word endpoint : List Char) : Prop where
  shape : ∃ gap, Text.trim line.toList = word ++ (gap ++ endpoint) ∧ gap ≠ [] ∧
    ∀ c ∈ gap, Text.isBlank c
  solid : ∀ c ∈ word, ¬ Text.isBlank c
  starts : ∀ c ∈ endpoint.head?, ¬ Text.isBlank c
  nonempty : endpoint ≠ []

namespace Parts

/-- The first blank of a line in parts ends its word. -/
theorem span (h : Parts line word endpoint) :
    (Text.trim line.toList).takeWhile (fun c => !Text.isBlank c) = word ∧
      Text.trimStart ((Text.trim line.toList).dropWhile fun c => !Text.isBlank c) = endpoint := by
  obtain ⟨gap, hline, hne, hgap⟩ := h.shape
  have hword : ∀ c ∈ word, (!Text.isBlank c) = true := by
    intro c hc
    simp [h.solid c hc]
  obtain ⟨c, gap, rfl⟩ := List.exists_cons_of_ne_nil hne
  have hc : (!Text.isBlank c) = false := by simp [hgap c (by simp)]
  rw [hline]
  constructor
  · rw [List.takeWhile_append_of_pos hword]
    simp [hc]
  · have hdrop : ((c :: gap) ++ endpoint).dropWhile (fun c => !Text.isBlank c) =
        (c :: gap) ++ endpoint := by
      simp [hc]
    rw [List.dropWhile_append_of_pos hword, hdrop]
    exact Text.trimStart_append hgap h.starts

theorem split_eq (h : Parts line word endpoint) :
    split line = (Text.upper (String.ofList word), String.ofList endpoint) := by
  simp only [split, h.span.1, h.span.2]

theorem bare (h : Parts line word endpoint) : Text.Bare endpoint := by
  obtain ⟨gap, hline, -, -⟩ := h.shape
  have hline' : Text.Bare ((word ++ gap) ++ endpoint) := by
    rw [List.append_assoc, ← hline]
    exact Text.bare_trim line.toList
  exact hline'.of_append h.starts

end Parts

/-- A line whose rest after the first word is more than blanks is in parts. -/
theorem parts_of_span (hline : Text.trim line.toList = cs)
    (h : Text.trimStart (cs.dropWhile fun c => !Text.isBlank c) ≠ []) :
    Parts line (cs.takeWhile fun c => !Text.isBlank c)
      (Text.trimStart (cs.dropWhile fun c => !Text.isBlank c)) where
  shape := by
    refine ⟨(cs.dropWhile fun c => !Text.isBlank c).takeWhile Text.isBlank, ?_, ?_, ?_⟩
    · rw [Text.trimStart, List.takeWhile_append_dropWhile, List.takeWhile_append_dropWhile, hline]
    · cases hrest : cs.dropWhile (fun c => !Text.isBlank c) with
      | nil => rw [hrest] at h; exact absurd rfl h
      | cons c rest =>
        have hblank : Text.isBlank c := by
          apply Text.isBlank_of_mem_head?_dropWhile cs
          rw [hrest]
          rfl
        rw [List.takeWhile_cons_of_pos hblank]
        exact List.cons_ne_nil _ _
    · exact fun c hc => List.mem_takeWhile_imp hc
  solid := by
    intro c hc
    simpa using List.mem_takeWhile_imp hc
  starts := Text.not_isBlank_of_mem_head?_trimStart _
  nonempty := h

/-- A word and an endpoint put together with a blank between them. -/
theorem parts_append {method url : String} (hmethod : method ≠ "")
    (hword : ∀ c ∈ method.toList, ¬ Text.isBlank c) (hurl : url ≠ "")
    (hbare : Text.Bare url.toList) : Parts (method ++ " " ++ url) method.toList url.toList where
  shape := by
    refine ⟨[' '], ?_, List.cons_ne_nil _ _, List.forall_mem_singleton.2 (by decide)⟩
    have hline : (method ++ " " ++ url).toList = method.toList ++ ([' '] ++ url.toList) := by
      simp [String.toList_append]
    have hmethod' : method.toList ≠ [] := by simpa using hmethod
    have hurl' : url.toList ≠ [] := by simpa using hurl
    rw [hline]
    refine Text.Bare.trim_eq ⟨?_, ?_⟩
    · intro c hc
      rw [List.head?_append_of_ne_nil _ hmethod'] at hc
      exact hword c (List.mem_of_mem_head? hc)
    · intro c hc
      rw [List.getLast?_append_of_ne_nil, List.getLast?_append_of_ne_nil] at hc
      · exact hbare.last c hc
      · exact hurl'
      · simp
  solid := hword
  starts := hbare.first
  nonempty := by simpa using hurl

/-- What `parse?` takes and what it makes of it. -/
theorem parse?_eq_some_iff : parse? line = some (m, e) ↔
    ∃ word endpoint, Parts line word endpoint ∧ '\n' ∉ endpoint ∧
      (∃ method ∈ methods, matchesMethod method.toList word) ∧
      m = Text.upper (String.ofList word) ∧ e = String.ofList endpoint := by
  constructor
  · intro h
    simp only [parse?, Option.ite_none_right_eq_some, Bool.and_eq_true, List.any_eq_true,
      Bool.not_eq_true', List.isEmpty_eq_false_iff, List.contains_eq_mem,
      decide_eq_false_iff_not, Option.some.injEq, Prod.mk.injEq] at h
    obtain ⟨⟨⟨hmethod, hne⟩, hbreak⟩, hm, he⟩ := h
    exact ⟨_, _, parts_of_span rfl hne, hbreak, hmethod, hm.symm, he.symm⟩
  · rintro ⟨word, endpoint, hparts, hbreak, hmethod, rfl, rfl⟩
    simp only [parse?, hparts.span.1, hparts.span.2]
    simpa [hparts.nonempty, hbreak] using hmethod

/-- Of the characters that count as a capital letter, only the capital I with a dot has another
upper-case form than the letter. -/
theorem upper_of_matchesLetter {letter c : Char} (hletter : letter.toNat < 0x80)
    (h : matchesLetter letter c) :
    Text.upperChar c = [letter] ∨ letter = 'I' ∧ Text.upperChar c = ['\u0130'] := by
  simp only [matchesLetter, Bool.or_eq_true, Bool.and_eq_true, beq_iff_eq] at h
  have hcode : ∀ {n : Nat}, c.toNat = n → Char.ofNat n = c := by
    rintro n rfl
    exact Char.ofNat_toNat c
  obtain (h | ⟨rfl, h⟩) | ⟨rfl, h | h⟩ := h
  · left
    have hc : c.toNat < 0x80 := by
      by_contra hc
      have hup : c.toUpper = c := by
        refine dif_neg fun hsmall => hc ?_
        exact (UInt32.le_iff_toNat_le.1 hsmall.2).trans_lt (by decide)
      rw [← h, hup] at hletter
      exact hc hletter
    rw [Text.upperChar, if_pos hc, h]
  · left
    rw [← hcode h]
    decide +kernel
  · right
    rw [← hcode h]
    decide +kernel
  · left
    rw [← hcode h]
    decide +kernel

/-- An upper-case letter beside a letter of a method that it can stand for. -/
def StandsFor (letter u : Char) : Prop :=
  u = letter ∨ letter = 'I' ∧ u = '\u0130'

theorem matchesMethod_iff :
    matchesMethod letters word ↔ List.Forall₂ (fun l c => matchesLetter l c) letters word := by
  simp [matchesMethod, List.forall₂_iff_zip]

theorem standsFor_of_matchesMethod (hletters : ∀ letter ∈ letters, letter.toNat < 0x80)
    (h : matchesMethod letters word) :
    List.Forall₂ StandsFor letters (word.flatMap Text.upperChar) := by
  rw [matchesMethod_iff] at h
  induction h with
  | nil => exact .nil
  | @cons letter c letters word hc _ ih =>
    have htail := ih fun l hl => hletters l (by simp [hl])
    rw [List.flatMap_cons]
    obtain hup | ⟨hI, hup⟩ := upper_of_matchesLetter (hletters letter (by simp)) hc
    · rw [hup]
      exact .cons (.inl rfl) htail
    · rw [hup]
      exact .cons (.inr ⟨hI, rfl⟩) htail

theorem eq_of_standsFor (h : List.Forall₂ StandsFor letters cs) (hI : 'I' ∉ letters) :
    cs = letters := by
  induction h with
  | nil => rfl
  | @cons letter u letters us hu _ ih =>
    rw [List.mem_cons, not_or] at hI
    obtain rfl | ⟨rfl, -⟩ := hu
    · rw [ih hI.2]
    · exact absurd rfl hI.1

/-- Only at its single I can an upper-case form differ from the letters it stands for. -/
theorem eq_or_eq_of_standsFor (before after : List Char) (hbefore : 'I' ∉ before)
    (hafter : 'I' ∉ after) (h : List.Forall₂ StandsFor (before ++ 'I' :: after) cs) :
    cs = before ++ 'I' :: after ∨ cs = before ++ '\u0130' :: after := by
  induction before generalizing cs with
  | nil =>
    obtain ⟨u, us, hu, hus, rfl⟩ := List.forall₂_cons_left_iff.1 h
    obtain rfl := eq_of_standsFor hus hafter
    obtain rfl | ⟨-, rfl⟩ := hu
    · exact .inl rfl
    · exact .inr rfl
  | cons letter before ih =>
    obtain ⟨u, us, hu, hus, rfl⟩ := List.forall₂_cons_left_iff.1 h
    rw [List.mem_cons, not_or] at hbefore
    have hul : u = letter := hu.resolve_right fun hI => hbefore.1 hI.1.symm
    rw [hul]
    obtain rfl | rfl := ih hbefore.2 hus
    · exact .inl rfl
    · exact .inr rfl

/-- The upper-case form of what spells a method is the method, but that the I of `OPTIONS` may keep
a dot. -/
theorem upper_of_matchesMethod {method : String} (hmem : method ∈ methods)
    (h : matchesMethod method.toList word) :
    Text.upper (String.ofList word) = method ∨
      Text.upper (String.ofList word) = "OPT\u0130ONS" := by
  have hletters : ∀ method ∈ methods, method.toList.all (·.toNat < 0x80) := by decide
  have hI : ∀ method ∈ methods, 'I' ∈ method.toList → method = "OPTIONS" := by decide
  have hascii : ∀ letter ∈ method.toList, letter.toNat < 0x80 := by
    simpa using hletters method hmem
  have hstands := standsFor_of_matchesMethod hascii h
  rw [Text.upper, String.toList_ofList]
  by_cases hmI : 'I' ∈ method.toList
  · obtain rfl := hI method hmem hmI
    obtain heq | heq := eq_or_eq_of_standsFor ['O', 'P', 'T'] ['O', 'N', 'S'] (by decide)
      (by decide) hstands
    · exact .inl (by rw [heq]; rfl)
    · exact .inr (by rw [heq]; rfl)
  · left
    rw [eq_of_standsFor hstands hmI, String.ofList_toList]

/-- Where `parse?` gives a method and an endpoint, `split` gives the same two, and the endpoint is
a text without blanks around it. The method is one of the known ones, or `OPTIONS` spelled with a
capital I with a dot, which has no other upper-case form than itself. -/
theorem split_of_parse? (h : parse? line = some (m, e)) :
    split line = (m, e) ∧ (m ∈ methods ∨ m = "OPT\u0130ONS") ∧ e ≠ "" ∧
      Text.trim e.toList = e.toList := by
  obtain ⟨word, endpoint, hparts, -, ⟨method, hmem, hmatches⟩, rfl, rfl⟩ := parse?_eq_some_iff.1 h
  refine ⟨hparts.split_eq, ?_, ?_, ?_⟩
  · obtain hm | hm := upper_of_matchesMethod hmem hmatches
    · exact .inl (hm ▸ hmem)
    · exact .inr hm
  · intro he
    exact hparts.nonempty (by simpa using congrArg String.toList he)
  · rw [String.toList_ofList]
    exact hparts.bare.trim_eq

theorem split_of_parse?_patch :
    parse? " patch\t/orders/$id " = some ("PATCH", "/orders/$id") ∧
      split " patch\t/orders/$id " = ("PATCH", "/orders/$id") := by
  have h : parse? " patch\t/orders/$id " = some ("PATCH", "/orders/$id") := by decide +kernel
  exact ⟨h, (split_of_parse? h).1⟩

/-- A line is taken whose method is none of the known ones. -/
theorem parse?_dotted :
    parse? "OPT\u0130ONS /x" = some ("OPT\u0130ONS", "/x") ∧ "OPT\u0130ONS" ∉ methods := by
  decide +kernel

end RestDemo.RestLine

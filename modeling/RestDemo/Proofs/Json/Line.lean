import RestDemo.Proofs.Json.RoundTrip
import RestDemo.Proofs.Limits

/-!
# Documents on one line

A line feed inside a text is written as an escape. So there is none in the text of a value without
floating-point numbers, at any depth of it, but for those in the separators
(`newline_not_mem_write`).
-/

namespace RestDemo

namespace Text

theorem newline_not_mem_hexDigits (width n : Nat) : '\n' ∉ hexDigits width n := by
  have hdigit : ∀ d < 16, Nat.digitChar d ≠ '\n' := by decide
  induction width generalizing n with
  | zero => exact List.not_mem_nil
  | succ width ih =>
    rw [hexDigits, List.mem_append, List.mem_singleton, not_or]
    exact ⟨ih _, (hdigit _ (Nat.mod_lt n (by decide))).symm⟩

end Text

namespace Json

variable {sep : Separators}

theorem newline_not_mem_escapeChar (c : Char) : '\n' ∉ escapeChar c := by
  rcases escapeChar_cases c with ⟨e, -, hletter, hc⟩ | ⟨-, hc⟩ | ⟨-, -, hcontrol, hc⟩
  · have hne : '\n' ≠ e := by
      rintro rfl
      cases hletter
    rw [hc]
    simp [hne]
  · rw [hc]
    simp [Text.newline_not_mem_hexDigits]
  · have hne : '\n' ≠ c := by
      rintro rfl
      exact hcontrol (by decide)
    rw [hc]
    simpa using hne

theorem newline_not_mem_writeText (s : String) : '\n' ∉ writeText s := by
  simp [writeText, newline_not_mem_escapeChar]

theorem newline_not_mem_intDigits (n : Int) : '\n' ∉ Number.intDigits n := by
  have hdigits : '\n' ∉ Nat.toDigits 10 n.natAbs := fun h =>
    absurd (Number.isDigit_of_mem_toDigits h) (by decide)
  unfold Number.intDigits
  split
  · simpa using hdigits
  · exact hdigits

/-! ## Values -/

/-- Neither between items nor before an entry is there a line feed. -/
structure Separators.OneLine (sep : Separators) : Prop where
  item : '\n' ∉ sep.item
  entry : '\n' ∉ sep.entry

theorem oneLine_spaced : spaced.OneLine := ⟨by decide, by decide⟩

mutual

theorem newline_not_mem_write (hsep : sep.OneLine) : ∀ (v : Value) {cs : List Char}, Exact v →
    write sep v = .ok cs → '\n' ∉ cs
  | .list items, cs, .list _ parts, h => by
    rw [write] at h
    obtain ⟨inside, hinside, h⟩ := ok_of_bind h
    cases h
    simp [newline_not_mem_writeItems hsep items parts hinside]
  | .object members, cs, .object _ _ parts, h => by
    rw [write] at h
    obtain ⟨inside, hinside, h⟩ := ok_of_bind h
    cases h
    simp [newline_not_mem_writeMembers hsep members parts hinside]
  | .int n, cs, .int _ short, h => by
    rw [(readsBack_int short sep).written] at h
    cases h
    exact newline_not_mem_intDigits n
  | .text s, _, _, h => by
    cases h
    exact newline_not_mem_writeText s
  | .bool b, _, _, h => by cases b <;> cases h <;> decide
  | .null, _, _, h => by
    cases h
    decide

theorem newline_not_mem_writeItems (hsep : sep.OneLine) : ∀ (vs : List Value) {cs : List Char},
    (∀ v ∈ vs, Exact v) → writeItems sep vs = .ok cs → '\n' ∉ cs
  | [], _, _, h => by
    cases h
    exact List.not_mem_nil
  | [v], _, hparts, h => newline_not_mem_write hsep v (hparts v List.mem_cons_self) h
  | v :: v' :: vs, _, hparts, h => by
    obtain ⟨hv, hvs⟩ := List.forall_mem_cons.1 hparts
    rw [writeItems] at h
    · obtain ⟨first, hfirst, h⟩ := ok_of_bind h
      obtain ⟨others, hothers, h⟩ := ok_of_bind h
      cases h
      simp [newline_not_mem_write hsep v hv hfirst, hsep.item,
        newline_not_mem_writeItems hsep (v' :: vs) hvs hothers]
    · simp

theorem newline_not_mem_writeMembers (hsep : sep.OneLine) : ∀ (ms : List (String × Value))
    {cs : List Char}, (∀ p ∈ ms, Exact p.2) → writeMembers sep ms = .ok cs → '\n' ∉ cs
  | [], _, _, h => by
    cases h
    exact List.not_mem_nil
  | [(k, v)], _, hparts, h => by
    rw [writeMembers] at h
    obtain ⟨entry, hwritten, h⟩ := ok_of_bind h
    cases h
    simp [newline_not_mem_writeText, hsep.entry,
      newline_not_mem_write hsep v (hparts _ List.mem_cons_self) hwritten]
  | (k, v) :: m :: ms, _, hparts, h => by
    obtain ⟨hv, hms⟩ := List.forall_mem_cons.1 hparts
    rw [writeMembers] at h
    · obtain ⟨entry, hwritten, h⟩ := ok_of_bind h
      obtain ⟨others, hothers, h⟩ := ok_of_bind h
      cases h
      simp [newline_not_mem_writeText, hsep.entry, newline_not_mem_write hsep v hv hwritten,
        hsep.item, newline_not_mem_writeMembers hsep (m :: ms) hms hothers]
    · simp

end

end Json

end RestDemo

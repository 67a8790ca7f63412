import RestDemo.Json.Reader
import RestDemo.Json.Writer

/-!
# Texts between quotes

A text that was written is read back up to its closing quote, whatever characters it holds and
whatever follows (`readText_writeText`). Each character is passed on its own, as one character or as
the escape that it was written as (`readText_escapeChar`).
-/

namespace RestDemo

namespace Text

theorem hexValue?_digitChar : ∀ d < 16, hexValue? (Nat.digitChar d) = some d := by
  decide

/-- A code that is no surrogate is that of a character. -/
theorem charOfCode_toNat {c : Char} (h : c.toNat < 0xD800) : charOfCode c.toNat = c := by
  have hhigh : isHighSurrogate c.toNat = false := by
    simp only [isHighSurrogate, Bool.and_eq_false_iff, decide_eq_false_iff_not]
    omega
  have hlow : isLowSurrogate c.toNat = false := by
    simp only [isLowSurrogate, Bool.and_eq_false_iff, decide_eq_false_iff_not]
    omega
  rw [charOfCode, hhigh, hlow]
  exact Char.ofNat_toNat c

end Text

namespace Json

variable {start : Nat} {c : Char} {rest : List Char}

/-- Four digits of a number are read as the number. -/
theorem hex4?_hexDigits {n : Nat} (h : n < 0x10000) :
    ∃ a b c d, Text.hexDigits 4 n = [a, b, c, d] ∧ hex4? a b c d = some n := by
  refine ⟨Nat.digitChar (n / 16 / 16 / 16 % 16), Nat.digitChar (n / 16 / 16 % 16),
    Nat.digitChar (n / 16 % 16), Nat.digitChar (n % 16), rfl, ?_⟩
  have hdigit (m : Nat) : Text.hexValue? (Nat.digitChar (m % 16)) = some (m % 16) :=
    Text.hexValue?_digitChar _ (Nat.mod_lt m (by decide))
  simp only [hex4?, hdigit, Option.bind_eq_bind, Option.bind_some, Option.pure_def, Option.some.injEq]
  omega

/-- The characters of an escape that has been read are passed. -/
theorem readText_skip (start : Nat) (read rest : List Char) :
    readText start read.length (read ++ rest) = readText start 0 rest := by
  induction read with
  | nil => rfl
  | cons c read ih =>
    rw [List.length_cons, List.cons_append, readText]
    exact ih

theorem readText_escape (escape : List Char)
    (h : readEscape start (escape ++ rest) = .ok (c, escape.length)) :
    readText start 0 ('\\' :: (escape ++ rest)) =
      (readText start 0 rest).map fun (s, rest) => (c :: s, rest) := by
  rw [readText, if_neg (by decide), if_pos rfl, h]
  dsimp only
  rw [readText_skip]

theorem readText_plain (hquote : c ≠ '"') (hescape : c ≠ '\\') (hcontrol : ¬ c.toNat < 0x20) :
    readText start 0 (c :: rest) =
      (readText start 0 rest).map fun (s, rest) => (c :: s, rest) := by
  rw [readText, if_neg hquote, if_neg hescape, if_neg hcontrol]

/-- A character is written as a letter after a backslash, as a numbered escape or as itself. -/
theorem escapeChar_cases (c : Char) :
    (∃ e, e ≠ 'u' ∧ escaped? e = some c ∧ escapeChar c = ['\\', e]) ∨
      (c.toNat < 0x20 ∧ escapeChar c = '\\' :: 'u' :: Text.hexDigits 4 c.toNat) ∨
      (c ≠ '"' ∧ c ≠ '\\' ∧ ¬ c.toNat < 0x20 ∧ escapeChar c = [c]) := by
  unfold escapeChar
  split
  · next h =>
    rcases h with rfl | rfl <;> exact .inl ⟨_, by decide, rfl, rfl⟩
  next hplain =>
  split
  · next h => subst h; exact .inl ⟨'n', by decide, rfl, rfl⟩
  split
  · next h => subst h; exact .inl ⟨'r', by decide, rfl, rfl⟩
  split
  · next h => subst h; exact .inl ⟨'t', by decide, rfl, rfl⟩
  split
  · next h => subst h; exact .inl ⟨'f', by decide, rfl, rfl⟩
  split
  · next h => subst h; exact .inl ⟨'b', by decide, rfl, rfl⟩
  split
  · next h => exact .inr (.inl ⟨h, rfl⟩)
  · next h =>
    obtain ⟨hquote, hescape⟩ := not_or.1 hplain
    exact .inr (.inr ⟨hquote, hescape, h, rfl⟩)

theorem readEscape_letter {e : Char} (hne : e ≠ 'u') (h : escaped? e = some c) :
    readEscape start (e :: rest) = .ok (c, 1) := by
  rw [readEscape.eq_def]
  dsimp only
  rw [if_neg hne, h]

/-- A numbered escape is read if a character follows it. -/
theorem readEscape_numbered (h : c.toNat < 0x20) (hrest : rest ≠ []) :
    readEscape start ('u' :: (Text.hexDigits 4 c.toNat ++ rest)) = .ok (c, 5) := by
  obtain ⟨w, x, y, z, hdigits, hvalue⟩ := hex4?_hexDigits (n := c.toNat) (by omega)
  obtain ⟨next, rest, rfl⟩ := List.exists_cons_of_ne_nil hrest
  have hhigh : Text.isHighSurrogate c.toNat = false := by
    simp only [Text.isHighSurrogate, Bool.and_eq_false_iff, decide_eq_false_iff_not]
    omega
  have hcode : Text.charOfCode c.toNat = c := Text.charOfCode_toNat (by omega)
  rw [hdigits]
  simp [readEscape, hvalue, hhigh, hcode]

/-- A character that was written is read back, if the text goes on. -/
theorem readText_escapeChar (start : Nat) (c : Char) (hrest : rest ≠ []) :
    readText start 0 (escapeChar c ++ rest) =
      (readText start 0 rest).map fun (s, rest) => (c :: s, rest) := by
  rcases escapeChar_cases c with ⟨e, hne, hletter, hc⟩ | ⟨hcontrol, hc⟩ |
    ⟨hquote, hescape, hcontrol, hc⟩
  · rw [hc]
    exact readText_escape [e] (readEscape_letter hne hletter)
  · rw [hc]
    have hlength : ('u' :: Text.hexDigits 4 c.toNat).length = 5 := by
      rw [List.length_cons, Text.length_hexDigits]
    refine readText_escape ('u' :: Text.hexDigits 4 c.toNat) ?_
    rw [hlength]
    exact readEscape_numbered hcontrol hrest
  · rw [hc]
    exact readText_plain hquote hescape hcontrol

/-- The characters of a text that was written are read up to the closing quote. -/
theorem readText_flatMap (start : Nat) (cs rest : List Char) :
    readText start 0 (cs.flatMap escapeChar ++ '"' :: rest) = .ok (cs, rest) := by
  induction cs with
  | nil => rfl
  | cons c cs ih =>
    have hgoesOn : cs.flatMap escapeChar ++ '"' :: rest ≠ [] := by simp
    rw [List.flatMap_cons, List.append_assoc, readText_escapeChar start c hgoesOn, ih]
    rfl

/-- A text that was written starts with a quote, after which it is read back. -/
theorem readText_writeText (s : String) (rest : List Char) :
    ∃ after, writeText s ++ rest = '"' :: after ∧
      ∀ start, readText start 0 after = .ok (s.toList, rest) := by
  refine ⟨s.toList.flatMap escapeChar ++ '"' :: rest, ?_, fun start => ?_⟩
  · simp [writeText]
  · exact readText_flatMap start s.toList rest

end Json

end RestDemo

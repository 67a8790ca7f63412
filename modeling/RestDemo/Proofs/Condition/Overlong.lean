import RestDemo.Proofs.Engine.Taken
import RestDemo.Proofs.Path.Reading
import RestDemo.Engine.Poll

/-!
# Integers that are too long

A path or a condition that is malformed leads nowhere, or is unparsable; that is no fault. The only
faults come of integers with too many digits: of a place in a list that is written as a name
(`Path.extract_error_iff`), and of a number on the right side of a condition
(`Literal.read_error_iff`). `holds_error_iff` says so of the condition of a poll.
-/

namespace RestDemo

/-! ## Paths -/

namespace Path

variable {segment : Segment} {segments : List Segment} {v : Value} {document : Option Value}
  {path : String} {f : Fault}

/-- The name is a place in a list, written with too many digits. -/
def Overlong (name : String) : Prop :=
  name.toList.all Text.isAsciiDigit ∧ Number.maxDigits < name.toList.length

/-- The segments lead to a list, and on to a place in it that is written with too many digits. -/
def LeadTooFar (segments : List Segment) (document : Option Value) (f : Fault) : Prop :=
  ∃ before name after items, segments = before ++ .name name :: after ∧
    followAll before document = .ok (some (.list items)) ∧ Overlong name ∧
    f = .tooManyDigits name.toList.length

theorem follow_error_iff : follow segment v = .error f ↔
    ∃ name items, segment = .name name ∧ v = .list items ∧ Overlong name ∧
      f = .tooManyDigits name.toList.length := by
  constructor
  · intro h
    unfold follow at h
    split at h
    · cases h
    · cases h
    · next name items =>
      split at h
      · next hdigits =>
        split at h
        · cases h
        · next hlong =>
          have hoverlong : Overlong name := ⟨hdigits.2, Nat.lt_of_not_le hlong⟩
          exact ⟨name, items, rfl, rfl, hoverlong, (Except.error.inj h).symm⟩
      · cases h
    · cases h
  · rintro ⟨name, items, rfl, rfl, ⟨hdigits, hlong⟩, rfl⟩
    have hgiven : name ≠ "" := by
      rintro rfl
      exact absurd hlong (Nat.not_lt_zero _)
    rw [follow, if_pos ⟨hgiven, hdigits⟩, if_neg (Nat.not_le_of_lt hlong)]

theorem not_leadTooFar_nil : ¬ LeadTooFar [] document f := by
  rintro ⟨before, name, after, items, hsegments, -⟩
  simp at hsegments

theorem not_leadTooFar_none : ¬ LeadTooFar segments none f := by
  rintro ⟨before, name, after, items, -, hbefore, -⟩
  cases before <;> cases hbefore

theorem leadTooFar_of_error {g : Fault} (h : follow segment v = .error g)
    (rest : List Segment) : LeadTooFar (segment :: rest) (some v) f ↔ g = f := by
  obtain ⟨name, items, rfl, rfl, hlong, rfl⟩ := follow_error_iff.1 h
  constructor
  · rintro ⟨before, name', after, items', hsegments, hbefore, -, rfl⟩
    cases before with
    | nil =>
      cases hsegments
      rfl
    | cons first before =>
      cases hsegments
      rw [followAll, h] at hbefore
      cases hbefore
  · rintro rfl
    exact ⟨[], name, rest, items, rfl, rfl, hlong, rfl⟩

theorem leadTooFar_of_ok {part : Option Value} (h : follow segment v = .ok part)
    (rest : List Segment) : LeadTooFar (segment :: rest) (some v) f ↔ LeadTooFar rest part f := by
  constructor
  · rintro ⟨before, name, after, items, hsegments, hbefore, hlong, hf⟩
    cases before with
    | nil =>
      cases hsegments
      cases hbefore
      have hfault : follow (.name name) (.list items) = .error f :=
        follow_error_iff.2 ⟨name, items, rfl, rfl, hlong, hf⟩
      rw [h] at hfault
      cases hfault
    | cons first before =>
      cases hsegments
      rw [followAll, h] at hbefore
      exact ⟨before, name, after, items, rfl, hbefore, hlong, hf⟩
  · rintro ⟨before, name, after, items, rfl, hbefore, hlong⟩
    refine ⟨segment :: before, name, after, items, rfl, ?_, hlong⟩
    rw [followAll, h]
    exact hbefore

theorem followAll_error_iff : followAll segments document = .error f ↔
    LeadTooFar segments document f := by
  induction segments generalizing document with
  | nil => exact iff_of_false (fun h => nomatch h) not_leadTooFar_nil
  | cons segment rest ih =>
    cases document with
    | none => exact iff_of_false (fun h => nomatch h) not_leadTooFar_none
    | some v =>
      cases hfollow : follow segment v with
      | error g =>
        rw [followAll, hfollow, leadTooFar_of_error hfollow, Except.error.injEq]
      | ok part =>
        rw [followAll, hfollow, leadTooFar_of_ok hfollow]
        exact ih

/-- A path comes to a fault exactly if it is well formed and leads to such a place. -/
theorem extract_error_iff : extract document path = .error f ↔
    ∃ segments, parse? path = some segments ∧ LeadTooFar segments document f := by
  unfold extract
  cases hparse : parse? path with
  | none => simp
  | some segments => simp [followAll_error_iff]

/-- A row of digits that is too long is a fault wherever a list is. -/
theorem extract_digits {digits : List Char} (hdigits : ∀ d ∈ digits, Text.isAsciiDigit d)
    (hlong : Number.maxDigits < digits.length) (items : List Value) :
    extract (some (.list items)) (String.ofList digits) =
      .error (.tooManyDigits digits.length) := by
  have hgiven : digits ≠ [] := List.ne_nil_of_length_pos (Nat.zero_lt_of_lt hlong)
  rw [extract_error_iff]
  have hparse := parse?_name (plainName_digits hdigits hgiven)
  refine ⟨_, hparse, [], _, [], items, rfl, rfl, ?_, ?_⟩
  · rw [Overlong, String.toList_ofList, List.all_eq_true]
    exact ⟨hdigits, hlong⟩
  · rw [String.toList_ofList]

end Path

/-! ## Literals -/

namespace Literal

variable {cs : List Char} {n : Numeral} {f : Fault}

/-- The text is an integer with too many digits: a sign, the digits, and a line break at most. -/
def Overlong (cs : List Char) (f : Fault) : Prop :=
  ∃ sign digits ending, cs = sign ++ (digits ++ ending) ∧ (sign = [] ∨ sign = ['-']) ∧
    (ending = [] ∨ ending = ['\n']) ∧ (∀ d ∈ digits, Text.isDigit d) ∧
    Number.maxDigits < digits.length ∧ f = .tooManyDigits digits.length

theorem value_error_iff : n.value = .error f ↔ n.fraction = none ∧ n.exponent = none ∧
    Number.maxDigits < n.whole.length ∧ f = .tooManyDigits n.whole.length := by
  obtain ⟨negative, whole, fraction, exponent⟩ := n
  cases fraction with
  | some fraction => cases exponent <;> simp [Numeral.value]
  | none =>
    cases exponent with
    | some exponent => simp [Numeral.value]
    | none =>
      by_cases hshort : whole.length ≤ Number.maxDigits
      · simp [Numeral.value, hshort, Nat.not_lt_of_le hshort]
      · simp [Numeral.value, hshort, Nat.lt_of_not_le hshort, eq_comm]

theorem of_fraction?_none {rest : List Char} (h : fraction? cs = some (none, rest)) :
    rest = cs := by
  unfold fraction? at h
  split at h
  · split at h <;> cases h
  · cases h
    rfl

theorem of_exponent?_none {rest : List Char} (h : exponent? cs = some (none, rest)) :
    rest = cs := by
  unfold exponent? at h
  split at h
  · cases h
    rfl
  · split at h
    · dsimp only at h
      split at h <;> cases h
    · cases h
      rfl

/-- The number whose sign has been read. -/
def unsigned? (negative : Bool) (cs : List Char) : Option Numeral :=
  if (spanDigits cs).1.isEmpty then none
  else do
    let (fraction, rest) ← fraction? (spanDigits cs).2
    let (exponent, rest) ← exponent? rest
    if rest = [] ∨ rest = ['\n'] then some ⟨negative, (spanDigits cs).1, fraction, exponent⟩
    else none

theorem numeral?_minus (cs : List Char) : numeral? ('-' :: cs) = unsigned? true cs := by
  unfold numeral? unsigned?
  cases hempty : (spanDigits cs).1.isEmpty <;> simp [hempty]

theorem numeral?_of_ne (h : ∀ rest, cs ≠ '-' :: rest) : numeral? cs = unsigned? false cs := by
  unfold numeral? unsigned?
  cases hempty : (spanDigits cs).1.isEmpty <;> simp [hempty]

/-- A number without fraction and exponent is its digits, and a line break at most. -/
theorem of_unsigned? {negative : Bool} (h : unsigned? negative cs = some n)
    (hfraction : n.fraction = none) (hexponent : n.exponent = none) :
    ∃ ending, cs = n.whole ++ ending ∧ (ending = [] ∨ ending = ['\n']) ∧
      ∀ d ∈ n.whole, Text.isDigit d := by
  unfold unsigned? at h
  split at h
  · cases h
  · obtain ⟨⟨fraction, rest⟩, hrest, h⟩ := Option.bind_eq_some_iff.1 h
    obtain ⟨⟨exponent, ending⟩, hending, h⟩ := Option.bind_eq_some_iff.1 h
    dsimp only at h hending
    split at h
    · next hends =>
      obtain rfl := Option.some.inj h
      obtain rfl : fraction = none := hfraction
      obtain rfl : exponent = none := hexponent
      obtain rfl := of_fraction?_none hrest
      obtain rfl := of_exponent?_none hending
      refine ⟨_, List.takeWhile_append_dropWhile.symm, hends, fun d hd => ?_⟩
      exact List.all_eq_true.1 List.all_takeWhile d hd
    · cases h

theorem unsigned?_digits {digits ending : List Char} (negative : Bool)
    (hdigits : ∀ d ∈ digits, Text.isDigit d) (hgiven : digits ≠ [])
    (hending : ending = [] ∨ ending = ['\n']) :
    unsigned? negative (digits ++ ending) = some ⟨negative, digits, none, none⟩ := by
  have hspan : spanDigits (digits ++ ending) = (digits, ending) := by
    rw [spanDigits, List.takeWhile_append_of_pos hdigits, List.dropWhile_append_of_pos hdigits]
    rcases hending with rfl | rfl
    · simp
    · have hbreak : Text.isDigit '\n' = false := by decide
      simp [hbreak]
  unfold unsigned?
  rw [hspan]
  rcases hending with rfl | rfl <;> simp [hgiven, fraction?, exponent?]

theorem of_numeral? (h : numeral? cs = some n) (hfraction : n.fraction = none)
    (hexponent : n.exponent = none) :
    ∃ sign ending, cs = sign ++ (n.whole ++ ending) ∧ (sign = [] ∨ sign = ['-']) ∧
      (ending = [] ∨ ending = ['\n']) ∧ ∀ d ∈ n.whole, Text.isDigit d := by
  by_cases hminus : ∃ rest, cs = '-' :: rest
  · obtain ⟨rest, rfl⟩ := hminus
    rw [numeral?_minus] at h
    obtain ⟨ending, hrest, hend⟩ := of_unsigned? h hfraction hexponent
    exact ⟨['-'], ending, congrArg ('-' :: ·) hrest, .inr rfl, hend⟩
  · rw [numeral?_of_ne (not_exists.1 hminus)] at h
    obtain ⟨ending, hrest, hend⟩ := of_unsigned? h hfraction hexponent
    exact ⟨[], ending, hrest, .inl rfl, hend⟩

theorem exists_numeral? {sign digits ending : List Char} (hsign : sign = [] ∨ sign = ['-'])
    (hdigits : ∀ d ∈ digits, Text.isDigit d) (hgiven : digits ≠ [])
    (hending : ending = [] ∨ ending = ['\n']) :
    ∃ negative, numeral? (sign ++ (digits ++ ending)) = some ⟨negative, digits, none, none⟩ := by
  rcases hsign with rfl | rfl
  · refine ⟨false, ?_⟩
    have hminus : ∀ rest, digits ++ ending ≠ '-' :: rest := by
      intro rest heq
      obtain ⟨d, ds, rfl⟩ := List.exists_cons_of_ne_nil hgiven
      have hd := hdigits d List.mem_cons_self
      rw [(List.cons.inj heq).1] at hd
      exact absurd hd (by decide)
    rw [List.nil_append, numeral?_of_ne hminus]
    exact unsigned?_digits false hdigits hgiven hending
  · refine ⟨true, ?_⟩
    rw [List.singleton_append, numeral?_minus]
    exact unsigned?_digits true hdigits hgiven hending

/-- What begins with a minus sign or with a digit is in no quotes. -/
theorem quoted?_eq_none {c : Char} (h : c = '-' ∨ Text.isDigit c) (cs : List Char) :
    quoted? (c :: cs) = none := by
  have hquote : ¬ (c = '\'' ∨ c = '"') := by
    rintro (rfl | rfl) <;> exact absurd h (by decide)
  rw [quoted?, if_neg fun hboth => hquote hboth.1]

/-- Only a number comes to a fault when it is read. -/
theorem exists_numeral_of_error (h : read cs = .error f) :
    ∃ n, numeral? cs = some n ∧ n.value = .error f := by
  unfold read at h
  split at h
  · cases h
  split at h
  · cases h
  split at h
  · cases h
  cases hquoted : quoted? cs with
  | some inner =>
    rw [hquoted] at h
    cases h
  | none =>
    cases hnumeral : numeral? cs with
    | none =>
      rw [hquoted, hnumeral] at h
      cases h
    | some n =>
      rw [hquoted, hnumeral] at h
      exact ⟨n, rfl, h⟩

/-- What is longer than the words is read as a number if it is one. -/
theorem read_of_numeral (hlong : Number.maxDigits < cs.length) (hquoted : quoted? cs = none)
    (hnumeral : numeral? cs = some n) : read cs = n.value := by
  have hword : ∀ word : List Char, word.length ≤ Number.maxDigits → cs ≠ word := by
    rintro word hword rfl
    omega
  rw [read, if_neg (hword _ (by decide)), if_neg (hword _ (by decide)),
    if_neg (hword _ (by decide)), hquoted, hnumeral]

/-- Reading a literal comes to a fault exactly if it is an integer with too many digits. -/
theorem read_error_iff : read cs = .error f ↔ Overlong cs f := by
  constructor
  · intro h
    obtain ⟨n, hnumeral, hvalue⟩ := exists_numeral_of_error h
    obtain ⟨hfraction, hexponent, hlong, hf⟩ := value_error_iff.1 hvalue
    obtain ⟨sign, ending, hcs, hsign, hending, hdigits⟩ := of_numeral? hnumeral hfraction hexponent
    exact ⟨sign, n.whole, ending, hcs, hsign, hending, hdigits, hlong, hf⟩
  · rintro ⟨sign, digits, ending, rfl, hsign, hending, hdigits, hlong, rfl⟩
    have hgiven : digits ≠ [] := List.ne_nil_of_length_pos (Nat.zero_lt_of_lt hlong)
    obtain ⟨negative, hnumeral⟩ := exists_numeral? hsign hdigits hgiven hending
    have hquoted : quoted? (sign ++ (digits ++ ending)) = none := by
      rcases hsign with rfl | rfl
      · obtain ⟨d, ds, rfl⟩ := List.exists_cons_of_ne_nil hgiven
        exact quoted?_eq_none (.inr (hdigits d List.mem_cons_self)) _
      · exact quoted?_eq_none (.inl rfl) _
    have hall : Number.maxDigits < (sign ++ (digits ++ ending)).length := by
      simp only [List.length_append]
      omega
    rw [read_of_numeral hall hquoted hnumeral]
    exact value_error_iff.2 ⟨rfl, rfl, hlong, rfl⟩

end Literal

/-! ## Conditions -/

namespace Condition

variable {text : String} {document : Option Value} {f : Fault}

/-- The right side of the condition is an integer with too many digits, or else its left side is a
path that leads to a place in a list that is written with too many. -/
def Overlong (text : String) (document : Option Value) (f : Fault) : Prop :=
  ∃ before comparison after, split (Text.trim text.toList) = some (before, comparison, after) ∧
    (Literal.Overlong (Text.trim after) f ∨
      (∃ v, Literal.read (Text.trim after) = .ok v) ∧
        ∃ segments, Path.parse? (String.ofList (Text.trim before)) = some segments ∧
          Path.LeadTooFar segments document f)

theorem evaluate_error_iff : evaluate text document = .error f ↔ Overlong text document f := by
  unfold evaluate parse?
  cases hsplit : split (Text.trim text.toList) with
  | none =>
    refine iff_of_false (fun h => nomatch h) ?_
    rintro ⟨before, comparison, after, hcut, -⟩
    rw [hsplit] at hcut
    cases hcut
  | some parts =>
    obtain ⟨before, comparison, after⟩ := parts
    have hoverlong : Overlong text document f ↔ Literal.Overlong (Text.trim after) f ∨
        (∃ v, Literal.read (Text.trim after) = .ok v) ∧
          Path.extract document (String.ofList (Text.trim before)) = .error f := by
      rw [Path.extract_error_iff, Overlong, hsplit]
      constructor
      · rintro ⟨_, _, _, heq, h⟩
        cases heq
        exact h
      · intro h
        exact ⟨before, comparison, after, rfl, h⟩
    rw [hoverlong, ← Literal.read_error_iff]
    dsimp only
    cases hread : Literal.read (Text.trim after) with
    | error g => simp [Except.map, bind, Except.bind]
    | ok v =>
      cases hextract : Path.extract document (String.ofList (Text.trim before)) with
      | error g => simp [Except.map, bind, Except.bind, hextract]
      | ok part => simp [Except.map, bind, Except.bind, hextract, pure, Except.pure]

end Condition

namespace Poll

open Engine

variable {s : Surroundings} {w : World} {bound : Table Value} {document : Value}

/-- The condition that a text is, or that is not given. -/
def given (expr : Option String) : Value :=
  Value.ofOption (expr.map .text)

theorem textOf_given (expr : Option String) :
    Condition.textOf (given expr) = .ok (expr.getD "") := by
  cases expr <;> rfl

theorem writable_given (expr : Option String) : Json.Writable (given expr) := by
  cases expr with
  | none => exact Json.writable_null
  | some text => exact Json.writable_text text

theorem holds_of_error {expr : Option String} {f : Fault} (bound : Table Value)
    (h : Condition.evaluate (expr.getD "") (some document) = .error f) :
    holds bound (given expr) document s w = (.error (.fault f), w) := by
  simp [holds, textOf_given, h]

theorem exists_holds_of_ok {expr : Option String} {verdict : Verdict} (hlog : s.Takes)
    (hbound : ∀ p ∈ bound, Json.Writable p.2)
    (h : Condition.evaluate (expr.getD "") (some document) = .ok verdict) :
    ∃ b u, holds bound (given expr) document s w = (.ok b, u) := by
  have hfields : ∀ p ∈ [("expr", given expr)], Json.Writable p.2 :=
    List.forall_mem_singleton.2 (writable_given expr)
  have htold := log_taken (w := w) hlog hbound hfields .warning "condition.unparsable"
  cases verdict with
  | matched => exact ⟨true, w, by simp [holds, textOf_given, h]⟩
  | notMatched => exact ⟨false, w, by simp [holds, textOf_given, h]⟩
  | unparsable =>
    exact ⟨false, w.telling [entry bound .warning "condition.unparsable" [("expr", given expr)]],
      by simp [holds, textOf_given, h, htold]⟩

/-- Looking whether a condition holds comes to a fault exactly if the condition does: a text that is
no condition does not hold, and that is told. -/
theorem holds_error_iff (hlog : s.Takes) (hbound : ∀ p ∈ bound, Json.Writable p.2)
    (expr : Option String) (e : Failure) :
    (holds bound (given expr) document s w).1 = .error e ↔
      ∃ f, Condition.Overlong (expr.getD "") (some document) f ∧ e = .fault f := by
  simp only [← Condition.evaluate_error_iff]
  cases hverdict : Condition.evaluate (expr.getD "") (some document) with
  | error f =>
    rw [holds_of_error bound hverdict]
    simp [eq_comm]
  | ok verdict =>
    obtain ⟨b, u, hrun⟩ := exists_holds_of_ok (w := w) hlog hbound hverdict
    rw [hrun]
    simp

end Poll

/-! ## The only faults -/

/-- Integers with too many digits are all that reading paths and conditions comes to faults by. -/
theorem only_overlong_integers_fault {s : Surroundings} {bound : Table Value} (hlog : s.Takes)
    (hbound : ∀ p ∈ bound, Json.Writable p.2) :
    (∀ document path f, Path.extract document path = .error f ↔
      ∃ segments, Path.parse? path = some segments ∧ Path.LeadTooFar segments document f) ∧
    (∀ text document f, Condition.evaluate text document = .error f ↔
      Condition.Overlong text document f) ∧
    ∀ expr document w e, (Poll.holds bound (Poll.given expr) document s w).1 = .error e ↔
      ∃ f, Condition.Overlong (expr.getD "") (some document) f ∧ e = .fault f :=
  ⟨fun _ _ _ => Path.extract_error_iff, fun _ _ _ => Condition.evaluate_error_iff,
    fun expr _ _ e => Poll.holds_error_iff hlog hbound expr e⟩

theorem only_overlong_integers_fault_unheard :
    (∀ document path f, Path.extract document path = .error f ↔
      ∃ segments, Path.parse? path = some segments ∧ Path.LeadTooFar segments document f) ∧
    (∀ text document f, Condition.evaluate text document = .error f ↔
      Condition.Overlong text document f) ∧
    ∀ expr document w e, (Poll.holds [] (Poll.given expr) document
        (.plain (.ofReplies fun _ => Service.notFound)) w).1 = .error e ↔
      ∃ f, Condition.Overlong (expr.getD "") (some document) f ∧ e = .fault f := by
  have hbound : ∀ p ∈ ([] : Table Value), Json.Writable p.2 := fun _ h => nomatch h
  exact only_overlong_integers_fault (fun _ h => h) hbound

/-- A place in a list that is written as a name of 4301 digits is a fault, although there is no such
place. -/
theorem extract_long_place :
    Path.extract (some (.list [.int 1])) (String.ofList (List.replicate 4301 '1')) =
      .error (.tooManyDigits 4301) := by
  have hdigits : ∀ d ∈ List.replicate 4301 '1', Text.isAsciiDigit d := by
    intro d hd
    rw [List.eq_of_mem_replicate hd]
    decide
  have hlength : (List.replicate 4301 '1').length = 4301 := List.length_replicate
  have hlong : Number.maxDigits < (List.replicate 4301 '1').length := by
    rw [hlength]
    decide
  rw [Path.extract_digits hdigits hlong, hlength]

end RestDemo

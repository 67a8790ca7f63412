import RestDemo.Proofs.Path.Bracket

/-!
# Reading paths

A path is read from left to right, and where a point or an opening bracket follows, what was read is
settled: the segments of the whole are those of the two parts, whatever the parts are
(`segments?_append`). A bracket that is left open is never mended by what follows, since an integer
has neither a point nor an opening bracket in it (`segments?_inBrackets_eq_none`). So a path that
was written is read back (`parse?_render`), and every name that is read can be written
(`plainName_of_parse?`).
-/

namespace RestDemo.Path

variable {cs ds read : List Char} {c : Char} {segments : List Segment} {name : String}

/-- The name can be written in a path: it is given, and nothing in it ends it. -/
def PlainName (name : String) : Prop :=
  name ≠ "" ∧ ∀ c ∈ name.toList, c ≠ '[' ∧ c ≠ '.'

/-- The text does not go on with a name that stands before it: it ends, or a point or an opening
bracket comes first. -/
def Opens (ds : List Char) : Prop :=
  ∀ c ∈ ds.head?, c = '.' ∨ c = '['

theorem opens_nil : Opens [] := fun _ h => nomatch h

theorem opens_cons (h : c = '.' ∨ c = '[') (ds : List Char) : Opens (c :: ds) := by
  intro d hd
  obtain rfl : c = d := Option.some.inj hd
  exact h

/-! ## One character -/

theorem segments?_between_cons (c : Char) (cs : List Char) : segments? .between (c :: cs) =
    if c = '[' then segments? (.inBrackets []) cs
    else if c = '.' then segments? .between cs
    else segments? (.inName [c]) cs := rfl

theorem segments?_inName_cons (read : List Char) (c : Char) (cs : List Char) :
    segments? (.inName read) (c :: cs) =
      if c = '[' then (segments? (.inBrackets []) cs).map (closeName read :: ·)
      else if c = '.' then (segments? .between cs).map (closeName read :: ·)
      else segments? (.inName (c :: read)) cs := rfl

theorem segments?_inBrackets_cons (read : List Char) (c : Char) (cs : List Char) :
    segments? (.inBrackets read) (c :: cs) =
      if c = ']' then
        match place? read.reverse with
        | some i => (segments? .between cs).map (.place i :: ·)
        | none => none
      else segments? (.inBrackets (c :: read)) cs := rfl

/-! ## A text and what follows it -/

/-- A bracket in which there is a point or a bracket has no integer, wherever it is closed. -/
theorem segments?_inBrackets_eq_none (hmem : c ∈ read) (hopens : c = '.' ∨ c = '[')
    (cs : List Char) : segments? (.inBrackets read) cs = none := by
  induction cs generalizing read with
  | nil => rfl
  | cons d cs ih =>
    rw [segments?_inBrackets_cons]
    by_cases hd : d = ']'
    · rw [if_pos hd, place?_eq_none (List.mem_reverse.2 hmem) hopens]
    · rw [if_neg hd]
      exact ih (List.mem_cons_of_mem d hmem)

theorem segments?_inName_of_opens (hds : Opens ds) (read : List Char) :
    segments? (.inName read) ds = (segments? .between ds).map (closeName read :: ·) := by
  cases ds with
  | nil => rfl
  | cons c ds =>
    rcases hds c rfl with rfl | rfl <;> simp [segments?_inName_cons, segments?_between_cons]

theorem segments?_inBrackets_of_opens (hds : Opens ds) (read : List Char) :
    segments? (.inBrackets read) ds = none := by
  cases ds with
  | nil => rfl
  | cons c ds =>
    have hopens := hds c rfl
    have hclosing : c ≠ ']' := by rcases hopens with rfl | rfl <;> decide
    rw [segments?_inBrackets_cons, if_neg hclosing]
    exact segments?_inBrackets_eq_none List.mem_cons_self hopens ds

/-- Both parts have segments, and a first one is put before those of the first part. -/
theorem bind_map_cons (segment : Segment) (first second : Option (List Segment)) :
    ((first.map (segment :: ·)).bind fun first => second.map (first ++ ·)) =
      (first.bind fun first => second.map (first ++ ·)).map (segment :: ·) := by
  cases first <;> cases second <;> rfl

/-- The segments of a text before a point or a bracket are settled. -/
theorem segments?_append (mode : Mode) (cs : List Char) (hds : Opens ds) :
    segments? mode (cs ++ ds) =
      (segments? mode cs).bind fun first => (segments? .between ds).map (first ++ ·) := by
  fun_induction segments? mode cs with
  | case1 => simp
  | case2 cs ih => simpa [segments?_between_cons] using ih
  | case3 cs hc ih => simpa [segments?_between_cons, hc] using ih
  | case4 c cs hc hc' ih => simpa [segments?_between_cons, hc, hc'] using ih
  | case5 read => simpa using segments?_inName_of_opens hds read
  | case6 read cs ih =>
    rw [bind_map_cons, ← ih]
    simp [segments?_inName_cons]
  | case7 read cs hc ih =>
    rw [bind_map_cons, ← ih]
    simp [segments?_inName_cons]
  | case8 read c cs hc hc' ih => simpa [segments?_inName_cons, hc, hc'] using ih
  | case9 read => simpa using segments?_inBrackets_of_opens hds read
  | case10 read cs i hplace ih =>
    rw [bind_map_cons, ← ih]
    simp [segments?_inBrackets_cons, hplace]
  | case11 read cs hplace => simp [segments?_inBrackets_cons, hplace]
  | case12 read c cs hc ih => simpa [segments?_inBrackets_cons, hc] using ih

/-- A point only separates. -/
theorem segments?_point (cs : List Char) :
    segments? .between ('.' :: cs) = segments? .between cs := by
  simp [segments?_between_cons]

/-! ## Names and places that were written -/

/-- A text without points and brackets is the path of one name. -/
theorem segments?_inName (h : ∀ c ∈ cs, c ≠ '[' ∧ c ≠ '.') (read : List Char) :
    segments? (.inName read) cs = some [closeName (cs.reverse ++ read)] := by
  induction cs generalizing read with
  | nil => rfl
  | cons c cs ih =>
    rw [List.forall_mem_cons] at h
    rw [segments?_inName_cons, if_neg h.1.1, if_neg h.1.2, ih h.2, List.reverse_cons,
      List.append_assoc]
    rfl

theorem parse?_name (h : PlainName name) : parse? name = some [.name name] := by
  obtain ⟨hgiven, hplain⟩ := h
  obtain ⟨c, cs, hcs⟩ := List.exists_cons_of_ne_nil (mt String.toList_eq_nil_iff.1 hgiven)
  rw [hcs, List.forall_mem_cons] at hplain
  rw [parse?, hcs, segments?_between_cons, if_neg hplain.1.1, if_neg hplain.1.2,
    segments?_inName hplain.2, closeName, List.reverse_append, List.reverse_reverse]
  exact congrArg (some [Segment.name ·]) (String.toList_injective (by simp [hcs]))

/-- A row of digits is a name. -/
theorem plainName_digits (hdigits : ∀ d ∈ ds, Text.isAsciiDigit d) (hgiven : ds ≠ []) :
    PlainName (String.ofList ds) := by
  refine ⟨by simpa using hgiven, ?_⟩
  intro c hc
  rw [String.toList_ofList] at hc
  have hdigit := hdigits c hc
  constructor
  · rintro rfl
    exact absurd hdigit (by decide)
  · rintro rfl
    exact absurd hdigit (by decide)

theorem segments?_inBrackets (h : ']' ∉ cs) (read : List Char) :
    segments? (.inBrackets read) (cs ++ [']']) =
      (place? (read.reverse ++ cs)).map ([.place ·]) := by
  induction cs generalizing read with
  | nil =>
    rw [List.nil_append, List.append_nil, segments?_inBrackets_cons, if_pos rfl]
    cases place? read.reverse <;> rfl
  | cons c cs ih =>
    rw [List.mem_cons, not_or] at h
    rw [List.cons_append, segments?_inBrackets_cons, if_neg (Ne.symm h.1), ih h.2,
      List.reverse_cons, List.append_assoc]
    rfl

/-- A place between brackets is read, unless it has too many digits. -/
theorem segments?_place (i : Int) : segments? .between ('[' :: (Number.intDigits i ++ [']'])) =
    if i.natAbs < 10 ^ Number.maxDigits then some [.place i] else none := by
  have hclosing : ']' ∉ Number.intDigits i := by
    intro hmem
    rcases Number.mem_intDigits hmem with heq | hdigit
    · exact absurd heq (by decide)
    · exact absurd hdigit (by decide)
  rw [segments?_between_cons, if_pos rfl, segments?_inBrackets hclosing, List.reverse_nil,
    List.nil_append, place?_intDigits]
  split <;> rfl

/-- The segment can be written in a path. -/
def Segment.Writable : Segment → Prop
  | .name s => PlainName s
  | .place i => i.natAbs < 10 ^ Number.maxDigits

theorem opens_renderRest (segments : List Segment) : Opens (renderRest segments) := by
  match segments with
  | [] => exact opens_nil
  | .name s :: rest => exact opens_cons (.inl rfl) _
  | .place i :: rest => exact opens_cons (.inr rfl) _

theorem segments?_renderRest (h : ∀ segment ∈ segments, segment.Writable) :
    segments? .between (renderRest segments) = some segments := by
  induction segments with
  | nil => rfl
  | cons segment rest ih =>
    obtain ⟨hfirst, hothers⟩ := List.forall_mem_cons.1 h
    cases segment with
    | name s =>
      have hname : segments? .between s.toList = some [.name s] := parse?_name hfirst
      rw [renderRest, segments?_point, segments?_append _ _ (opens_renderRest rest), hname,
        ih hothers]
      rfl
    | place i =>
      have hshort : i.natAbs < 10 ^ Number.maxDigits := hfirst
      have hplace := segments?_place i
      rw [if_pos hshort] at hplace
      have hsplit : renderRest (.place i :: rest) =
          '[' :: (Number.intDigits i ++ [']']) ++ renderRest rest := by simp [renderRest]
      rw [hsplit, segments?_append _ _ (opens_renderRest rest), hplace, ih hothers]
      rfl

/-- A path that was written is read back. -/
theorem parse?_render (h : ∀ segment ∈ segments, segment.Writable) :
    parse? (String.ofList (render segments)) = some segments := by
  have hrest := segments?_renderRest h
  rw [parse?, String.toList_ofList]
  match segments with
  | [] => rfl
  | .place i :: rest => exact hrest
  | .name s :: rest => rwa [renderRest, segments?_point] at hrest

/-! ## Names that are read -/

/-- What has been read of a name can be written. -/
def Mode.Plain : Mode → Prop
  | .inName read => read ≠ [] ∧ ∀ c ∈ read, c ≠ '[' ∧ c ≠ '.'
  | _ => True

theorem plainName_closeName (h : (Mode.inName read).Plain) (hclosed : .name name = closeName read) :
    PlainName name := by
  obtain rfl := Segment.name.inj hclosed
  refine ⟨?_, ?_⟩
  · simpa using h.1
  · simpa using h.2

theorem plainName_of_segments? {mode : Mode} (hmode : mode.Plain)
    (h : segments? mode cs = some segments) (hname : .name name ∈ segments) : PlainName name := by
  fun_induction segments? mode cs generalizing segments with
  | case1 =>
    cases h
    cases hname
  | case2 cs ih => exact ih trivial h hname
  | case3 cs hc ih => exact ih trivial h hname
  | case4 c cs hc hc' ih =>
    exact ih ⟨List.cons_ne_nil _ _, List.forall_mem_singleton.2 ⟨hc, hc'⟩⟩ h hname
  | case5 read =>
    cases h
    exact plainName_closeName hmode (List.mem_singleton.1 hname)
  | case6 read cs ih | case7 read cs hc ih =>
    obtain ⟨others, hothers, rfl⟩ := Option.map_eq_some_iff.1 h
    rcases List.mem_cons.1 hname with hclosed | hname
    · exact plainName_closeName hmode hclosed
    · exact ih trivial hothers hname
  | case8 read c cs hc hc' ih =>
    exact ih ⟨List.cons_ne_nil _ _, List.forall_mem_cons.2 ⟨⟨hc, hc'⟩, hmode.2⟩⟩ h hname
  | case9 read => cases h
  | case10 read cs i hplace ih =>
    obtain ⟨others, hothers, rfl⟩ := Option.map_eq_some_iff.1 h
    rcases List.mem_cons.1 hname with hclosed | hname
    · cases hclosed
    · exact ih trivial hothers hname
  | case11 read cs hplace => cases h
  | case12 read c cs hc ih => exact ih trivial h hname

/-- The names of a path can be written. -/
theorem plainName_of_parse? {path : String} (h : parse? path = some segments)
    (hname : .name name ∈ segments) : PlainName name := by
  have hstart : Mode.between.Plain := trivial
  exact plainName_of_segments? hstart h hname

end RestDemo.Path

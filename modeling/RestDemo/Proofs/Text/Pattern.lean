import RestDemo.Proofs.Text.Blank

/-!
# Patterns that are matched by backtracking

A pattern is matched at the front of a text. `Pattern.ways` lists the ways in which it matches, in
the order in which they are tried: the first of two alternatives before the second, and of the rows
of characters of a class the longest first, or the shortest first where as few are wanted as can be.
After each way of a pattern the ways of what comes next are tried in turn. The first of all these
ways (`Pattern.first?`) is the match.
-/

namespace RestDemo.Text

inductive Pattern where
  | one (accepts : Char → Bool)
  | word (text : List Char)
  /-- Any number of characters of a class: as many as can be, or as few. -/
  | many (accepts : Char → Bool) (greedy : Bool)
  | next (first second : Pattern)
  | either (first second : Pattern)
  | group (inner : Pattern)
  /-- The end of the text, or the line break at its end. -/
  | atEnd

/-- A way to match: what the groups took, what was taken in all, and what is left. -/
structure Way where
  groups : List (List Char)
  taken : List Char
  rest : List Char

/-- A way to go on after what was taken by another. -/
def Way.append (first second : Way) : Way :=
  ⟨first.groups ++ second.groups, first.taken ++ second.taken, second.rest⟩

/-- A way to match after one more character. -/
def Way.cons (c : Char) (way : Way) : Way :=
  { way with taken := c :: way.taken }

/-- The rows of characters of a class at the front of a text, the longest first, each with what is
left. -/
def runs (accepts : Char → Bool) : List Char → List (List Char × List Char)
  | [] => [([], [])]
  | c :: cs =>
    if accepts c then ((runs accepts cs).map fun (run, rest) => (c :: run, rest)) ++ [([], c :: cs)]
    else [([], c :: cs)]

@[simp]
theorem Way.append_nil (rest : List Char) : (⟨[], [], rest⟩ : Way).append = id := rfl

theorem Way.append_cons (c : Char) (run rest : List Char) :
    (⟨[], c :: run, rest⟩ : Way).append = fun way => ((⟨[], run, rest⟩ : Way).append way).cons c :=
  rfl

namespace Pattern

variable {accepts : Char → Bool} {p q : Pattern} {cs : List Char}

def option (p : Pattern) : Pattern := .either p (.word [])

def any : Char → Bool := fun _ => true

def ways : Pattern → List Char → List Way
  | .one _, [] => []
  | .one accepts, c :: cs => if accepts c then [⟨[], [c], cs⟩] else []
  | .word text, cs => if text.isPrefixOf cs then [⟨[], text, cs.drop text.length⟩] else []
  | .many accepts greedy, cs =>
    (if greedy then runs accepts cs else (runs accepts cs).reverse).map fun (run, rest) =>
      ⟨[], run, rest⟩
  | .next p q, cs => (p.ways cs).flatMap fun way => (q.ways way.rest).map way.append
  | .either p q, cs => p.ways cs ++ q.ways cs
  | .group p, cs => (p.ways cs).map fun way => { way with groups := way.taken :: way.groups }
  | .atEnd, cs => if cs = [] ∨ cs = ['\n'] then [⟨[], [], cs⟩] else []

def first? (p : Pattern) (cs : List Char) : Option Way := (p.ways cs).head?

/-! ## Ways, pattern by pattern -/

theorem ways_one_nil (accepts : Char → Bool) : (one accepts).ways [] = [] := rfl

theorem ways_one_cons (accepts : Char → Bool) (c : Char) (cs : List Char) :
    (one accepts).ways (c :: cs) = if accepts c then [⟨[], [c], cs⟩] else [] := rfl

theorem ways_word (text cs : List Char) : (word text).ways cs =
    if text.isPrefixOf cs then [⟨[], text, cs.drop text.length⟩] else [] := rfl

theorem ways_many (accepts : Char → Bool) (greedy : Bool) (cs : List Char) :
    (many accepts greedy).ways cs =
      (if greedy then runs accepts cs else (runs accepts cs).reverse).map fun (run, rest) =>
        ⟨[], run, rest⟩ := rfl

theorem ways_next (p q : Pattern) (cs : List Char) : (next p q).ways cs =
    (p.ways cs).flatMap fun way => (q.ways way.rest).map way.append := rfl

theorem ways_either (p q : Pattern) (cs : List Char) :
    (either p q).ways cs = p.ways cs ++ q.ways cs := rfl

theorem ways_group (p : Pattern) (cs : List Char) : (group p).ways cs =
    (p.ways cs).map fun way => { way with groups := way.taken :: way.groups } := rfl

theorem ways_atEnd (cs : List Char) :
    atEnd.ways cs = if cs = [] ∨ cs = ['\n'] then [⟨[], [], cs⟩] else [] := rfl

/-! ## The first way -/

theorem first?_next : (next p q).first? cs =
    (p.ways cs).findSome? fun way => (q.first? way.rest).map way.append := by
  simp [first?, ways_next, List.head?_flatMap]

theorem first?_many_nil (accepts : Char → Bool) (greedy : Bool) (q : Pattern) :
    (next (many accepts greedy) q).first? [] = q.first? [] := by
  rw [first?_next]
  cases greedy <;> simp [ways_many, runs]

theorem first?_many_cons_of_neg {c : Char} (h : ¬ accepts c) (greedy : Bool) (q : Pattern) :
    (next (many accepts greedy) q).first? (c :: cs) = q.first? (c :: cs) := by
  rw [first?_next]
  cases greedy <;> simp [ways_many, runs, h]

theorem first?_many_cons_of_pos {c : Char} (h : accepts c) (q : Pattern) :
    (next (many accepts true) q).first? (c :: cs) =
      (((next (many accepts true) q).first? cs).map (Way.cons c)).or (q.first? (c :: cs)) := by
  rw [first?_next, first?_next]
  simp [ways_many, runs, h, List.findSome?_append, List.findSome?_map, Function.comp_def,
    Way.append_cons]

/-- A word that may be left out is taken if it is there and what comes after it matches then. -/
theorem first?_option_word (text : List Char) (q : Pattern) (cs : List Char) :
    (next (option (word text)) q).first? cs =
      (if text.isPrefixOf cs then
        (q.first? (cs.drop text.length)).map (Way.append ⟨[], text, cs.drop text.length⟩)
      else none).or (q.first? cs) := by
  rw [first?_next]
  by_cases h : text.isPrefixOf cs
  · simp only [option, ways_either, ways_word, h, if_true, List.isPrefixOf, List.length_nil,
      List.drop_zero, List.singleton_append, List.findSome?_cons, List.findSome?_nil,
      Way.append_nil, Option.map_id]
    cases q.first? (cs.drop text.length) <;> cases q.first? cs <;> rfl
  · simp [option, ways_either, ways_word, h]

/-- What a group takes at least before the pattern after it matches, given what it has taken. -/
def shortest? (q : Pattern) (taken : List Char) : List Char → Option Way
  | [] => (q.first? []).map (Way.append ⟨[taken], taken, []⟩)
  | c :: cs =>
    ((q.first? (c :: cs)).map (Way.append ⟨[taken], taken, c :: cs⟩)).or
      (shortest? q (taken ++ [c]) cs)

theorem reverse_runs_cons (c : Char) (cs : List Char) : (runs any (c :: cs)).reverse =
    ([], c :: cs) :: (runs any cs).reverse.map fun (run, rest) => (c :: run, rest) := by
  simp [runs, any]

theorem findSome?_runs (q : Pattern) (taken cs : List Char) :
    ((runs any cs).reverse.findSome? fun (run, rest) =>
      (q.first? rest).map (Way.append ⟨[taken ++ run], taken ++ run, rest⟩)) =
        shortest? q taken cs := by
  induction cs generalizing taken with
  | nil => simp [runs, shortest?]
  | cons c cs ih =>
    have hlater := ih (taken ++ [c])
    simp only [List.append_assoc, List.singleton_append] at hlater
    rw [reverse_runs_cons, List.findSome?_cons, List.findSome?_map, shortest?, ← hlater]
    simp only [List.append_nil]
    cases q.first? (c :: cs) <;> rfl

/-- A group that takes one character or more, as few as can be. -/
theorem first?_shortest (q : Pattern) (c : Char) (cs : List Char) :
    (next (group (next (one any) (many any false))) q).first? (c :: cs) = shortest? q [c] cs := by
  rw [← findSome?_runs, first?_next]
  simp [ways_group, ways_next, ways_one_cons, ways_many, any, List.findSome?_map,
    Function.comp_def, Way.append, -List.map_reverse]

theorem head?_runs_any (cs : List Char) : (runs any cs).head? = some (cs, []) := by
  induction cs with
  | nil => rfl
  | cons c cs ih => simp [runs, any, ih]

/-- A group that takes all there is, one character or more. -/
theorem first?_longest (c : Char) (cs : List Char) :
    (next (group (next (one any) (many any true))) atEnd).first? (c :: cs) =
      some ⟨[c :: cs], c :: cs, []⟩ := by
  obtain ⟨others, hruns⟩ := List.head?_eq_some_iff.1 (head?_runs_any cs)
  rw [first?_next]
  simp [ways_group, ways_next, ways_one_cons, ways_many, ways_atEnd, hruns, any, first?, Way.append]

theorem first?_group_one_nil (p q : Pattern) :
    (next (group (next (one any) p)) q).first? [] = none := by
  simp [first?_next, ways_group, ways_next, ways_one_nil]

end Pattern

end RestDemo.Text

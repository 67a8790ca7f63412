import RestDemo.Yaml.Cursor

/-!
# Plain scalars

A plain scalar stands without quotes. It goes on over blanks and line breaks up to an indicator, and
its line breaks fold into a blank, or into the breaks after the first.
-/

namespace RestDemo.Yaml.Cursor

/-- Whether a plain scalar ends before the character `c` that `cs` follows. -/
def endsPlain (inFlow : Bool) (c : Char) (cs : List Char) : Bool :=
  c = ' ' || c = '\t' || isBreak c ||
    (c = ':' && (isApart cs || (inFlow && match cs with
      | d :: _ => [',', '[', ']', '{', '}'].contains d
      | [] => false))) ||
    (inFlow && [',', '?', '[', ']', '{', '}'].contains c)

/-- The characters at the front that go on a plain scalar. -/
def plainWord (inFlow : Bool) : List Char → List Char
  | [] => []
  | c :: cs => if endsPlain inFlow c cs then [] else c :: plainWord inFlow cs

/-- Past further line breaks and the blanks among them, with the breaks. It stops at a line that
separates documents, and then there are none. -/
def skipBreaks : Nat → Cursor → Option (List Char) × Cursor
  | 0, p => (some [], p)
  | fuel + 1, p =>
    match p.rest with
    | [] => (some [], p)
    | c :: _ =>
      if c = ' ' then skipBreaks fuel p.next
      else if isBreak c then
        if p.next.atSeparator then (none, p.next)
        else
          let (others, p) := skipBreaks fuel p.next
          (others.map (breakText c :: ·), p)
      else (some [], p)

/-- The space after a word of a plain scalar: what it folds into, whether it has a line break, and
where it ends. What folds into nothing ends the scalar. -/
def plainSpace (fuel : Nat) (p : Cursor) : List Char × Bool × Cursor :=
  let blanks := p.rest.takeWhile (· = ' ')
  let p := p.skip blanks.length
  match p.rest with
  | [] => (blanks, false, p)
  | c :: _ =>
    if isBreak c then
      if p.next.atSeparator then ([], true, p.next)
      else
        match skipBreaks fuel p.next with
        | (none, p) => ([], true, p)
        | (some others, p) => (fold c others, true, p)
    else (blanks, false, p)

/-- The rest of a plain scalar: its characters, whether a line break comes last, and where it ends.
In a block it goes on only on lines with at least the given indentation. -/
def plain (inFlow : Bool) (indentation : Int) : Nat → Cursor → List Char × Bool × Cursor
  | 0, p => ([], false, p)
  | fuel + 1, p =>
    let word := plainWord inFlow p.rest
    if word.isEmpty then ([], false, p)
    else
      let (space, broken, after) := plainSpace fuel (p.skip word.length)
      let ends := space.isEmpty || after.rest.head? = some '#' ||
        (!inFlow && (after.column : Int) < indentation)
      if ends then (word, broken, after)
      else
        let (more, brokenLast, last) := plain inFlow indentation fuel after
        if more.isEmpty then (word, broken, after)
        else (word ++ space ++ more, brokenLast, last)

end RestDemo.Yaml.Cursor

import RestDemo.Yaml.Source

/-!
# Places in a YAML text

A cursor is what is left of a text, with line and column of the place. It moves on character by
character; `Cursor.failure` is what a reader meets that cannot go on at a place.
-/

namespace RestDemo.Yaml

def isBreak (c : Char) : Bool :=
  c = '\n' || c = '\x85' || c = '\u2028' || c = '\u2029'

/-- Whether a text ends, or goes on with a blank or a line break: what follows an indicator. -/
def isApart : List Char → Bool
  | [] => true
  | c :: _ => c = ' ' || c = '\t' || isBreak c

/-- Whether a text ends, or goes on with a space or a line break. -/
def isSpaced : List Char → Bool
  | [] => true
  | c :: _ => c = ' ' || isBreak c

/-- What is left of a text, and where. -/
structure Cursor where
  rest : List Char
  index : Nat
  line : Nat
  column : Nat
  /-- What comes behind the text, if not its true end. -/
  obstacle : Option DocumentError

namespace Cursor

/-- At the start of a text; a byte-order mark there is left out. -/
def start (source : Source) : Cursor :=
  match source.text with
  | '\ufeff' :: cs => ⟨cs, 0, 0, 0, source.obstacle⟩
  | cs => ⟨cs, 0, 0, 0, source.obstacle⟩

/-- Past one character. A byte-order mark takes no column. -/
def next (p : Cursor) : Cursor :=
  match p.rest with
  | [] => p
  | c :: cs =>
    if isBreak c then { p with rest := cs, index := p.index + 1, line := p.line + 1, column := 0 }
    else
      { p with
        rest := cs, index := p.index + 1
        column := if c = '\ufeff' then p.column else p.column + 1 }

def skip (p : Cursor) : Nat → Cursor
  | 0 => p
  | n + 1 => skip p.next n

/-- Past the characters at the front that satisfy a test. -/
def skipWhile (test : Char → Bool) (p : Cursor) : Cursor :=
  p.skip (p.rest.takeWhile test).length

/-- What a reader meets here that needs something else: at the end of what is there it meets what
comes behind. -/
def failure (p : Cursor) : DocumentError :=
  if p.rest.isEmpty then p.obstacle.getD .malformed else .malformed

/-- Past a character, which has to satisfy a test. -/
def expect (test : Char → Bool) (p : Cursor) : Except DocumentError Cursor :=
  match p.rest with
  | c :: _ => if test c then .ok p.next else .error p.failure
  | [] => .error p.failure

/-- Whether the text goes on with a line of its own that separates documents. -/
def atSeparator (p : Cursor) : Bool :=
  match p.rest with
  | '-' :: '-' :: '-' :: cs => isApart cs
  | '.' :: '.' :: '.' :: cs => isApart cs
  | _ => false

def skipComment (p : Cursor) : Cursor :=
  match p.rest with
  | '#' :: _ => p.skipWhile fun c => !isBreak c
  | _ => p

/-- Past the rest of a line on which nothing but a comment may stand. -/
def endLine (p : Cursor) : Except DocumentError Cursor :=
  let p := (p.skipWhile (· = ' ')).skipComment
  match p.rest with
  | [] => .ok p
  | c :: _ => if isBreak c then .ok p.next else .error .malformed

/-- A line break as it counts in a scalar: the separators of Unicode stay, others are a new line. -/
def breakText (c : Char) : Char :=
  if c = '\u2028' || c = '\u2029' then c else '\n'

/-- What a first line break and those after it fold into. -/
def fold (first : Char) (others : List Char) : List Char :=
  if breakText first ≠ '\n' then breakText first :: others
  else if others.isEmpty then [' ']
  else others

end Cursor

end RestDemo.Yaml

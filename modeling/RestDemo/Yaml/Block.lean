import RestDemo.Text.Digit
import RestDemo.Yaml.Cursor

/-!
# Block scalars

A block scalar is made up of whole lines of a common indentation, after a header that says whether
its line breaks fold, what becomes of those at its end, and, if need be, the indentation.
-/

namespace RestDemo.Yaml

/-- What becomes of the line breaks at the end of a block scalar. -/
inductive Chomping where
  /-- The first one stays. -/
  | clip
  /-- None stays. -/
  | strip
  /-- All stay. -/
  | keep
  deriving DecidableEq, Repr

namespace Cursor

/-- What a sign in the header of a block scalar says. -/
def chomping? (p : Cursor) : Option Chomping :=
  match p.rest with
  | '+' :: _ => some .keep
  | '-' :: _ => some .strip
  | _ => none

/-- The indentation in the header of a block scalar, counted from the block around it: a digit,
which may not be zero. -/
def increment (p : Cursor) : Except DocumentError (Option Nat × Cursor) :=
  match p.rest with
  | c :: _ =>
    if c = '0' then .error .malformed
    else if Text.isAsciiDigit c then .ok (some (Text.digitsValue [c]), p.next)
    else .ok (none, p)
  | [] => .ok (none, p)

/-- The header of a block scalar after its mark, with a sign and a digit in either order. -/
def blockHeader (p : Cursor) : Except DocumentError ((Chomping × Option Nat) × Cursor) := do
  let (chomping, increment, p) ← match p.chomping? with
    | some chomping =>
      let (increment, p) ← p.next.increment
      pure (chomping, increment, p)
    | none =>
      let (increment, p) ← p.increment
      match increment, p.chomping? with
      | some _, some chomping => pure (chomping, increment, p.next)
      | _, _ => pure (.clip, increment, p)
  if isSpaced p.rest then
    let p ← p.endLine
    return ((chomping, increment), p)
  else .error .malformed

/-- Past the blank lines before the first line of a block scalar, with their breaks and the greatest
column that spaces among them reach. -/
def leadingBreaks (greatest : Nat) : Nat → Cursor → List Char × Nat × Cursor
  | 0, p => ([], greatest, p)
  | fuel + 1, p =>
    match p.rest with
    | [] => ([], greatest, p)
    | c :: _ =>
      if isBreak c then
        let (breaks, greatest, p) := leadingBreaks greatest fuel p.next
        (breakText c :: breaks, greatest, p)
      else if c = ' ' then leadingBreaks (max greatest p.next.column) fuel p.next
      else ([], greatest, p)

/-- Past the spaces here up to a column. -/
def indentTo (column : Nat) (p : Cursor) : Cursor :=
  p.skip ((p.rest.takeWhile (· = ' ')).take (column - p.column)).length

/-- Past the blank lines within a block scalar of the given indentation, with their breaks. -/
def innerBreaks (indentation : Nat) : Nat → Cursor → List Char × Cursor
  | 0, p => ([], p)
  | fuel + 1, p =>
    let p := p.indentTo indentation
    match p.rest with
    | [] => ([], p)
    | c :: _ =>
      if isBreak c then
        let (breaks, p) := innerBreaks indentation fuel p.next
        (breakText c :: breaks, p)
      else ([], p)

def inBlock (indentation : Nat) (p : Cursor) : Bool :=
  p.column = indentation && !p.rest.isEmpty

def atBlank (p : Cursor) : Bool :=
  p.rest.head? = some ' ' || p.rest.head? = some '\t'

/-- The lines of a block scalar from here on, the break after the last one, and those after it. -/
def blockLines (folded : Bool) (indentation : Nat) :
    Nat → Cursor → List Char × List Char × List Char × Cursor
  | 0, p => ([], [], [], p)
  | fuel + 1, p =>
    let line := p.rest.takeWhile fun c => !isBreak c
    let ended := p.skip line.length
    let lineBreak := (ended.rest.take 1).map breakText
    let (breaks, after) := innerBreaks indentation (fuel + 1) ended.next
    if after.inBlock indentation then
      let joint :=
        if folded && lineBreak = ['\n'] && !p.atBlank && !after.atBlank then
          if breaks.isEmpty then [' '] else []
        else lineBreak
      let (more, last, breaksLast, p) := blockLines folded indentation fuel after
      (line ++ joint ++ breaks ++ more, last, breaksLast, p)
    else (line, lineBreak, breaks, after)

/-- A block scalar after its mark, in a block of the given indentation. -/
def blockScalar (fuel : Nat) (folded : Bool) (around : Int) (p : Cursor) :
    Except DocumentError (List Char × Cursor) := do
  let ((chomping, increment), p) ← p.blockHeader
  let least := max 1 (around + 1).toNat
  let (indentation, breaks, p) := match increment with
    | some n =>
      let (breaks, p) := p.innerBreaks (least + n - 1) fuel
      (least + n - 1, breaks, p)
    | none =>
      let (breaks, greatest, p) := p.leadingBreaks 0 fuel
      (max least greatest, breaks, p)
  if p.inBlock indentation then
    let (lines, last, others, p) := p.blockLines folded indentation fuel
    return (breaks ++ lines ++ match chomping with
      | .strip => []
      | .clip => last
      | .keep => last ++ others, p)
  else return (if chomping = .keep then breaks else [], p)

end Cursor

end RestDemo.Yaml

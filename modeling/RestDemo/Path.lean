import RestDemo.Text.Blank
import RestDemo.Value.Basic
import RestDemo.Fault
import RestDemo.Number.Text

/-!
# Paths

A path leads from a document to one of its parts: names with points between them, and places in
lists in brackets. `parse?` reads a path, `follow` takes one step and `extract` all of them. A path
that leads nowhere, or that is malformed, has no part; it is never an error, save that a place
written as a name must not have too many digits. `render` writes a location as a path.
-/

namespace RestDemo.Path

inductive Segment where
  | name (s : String)
  | place (i : Int)
  deriving DecidableEq, Repr

/-- The integer between brackets: an ASCII integer between blanks, with underscores allowed between
its digits. -/
def place? (cs : List Char) : Option Int :=
  let inner := Text.trim cs
  if inner.all (·.toNat < 0x80) then
    let (negative, digits) := Number.splitSign inner
    match Number.groupedDigits? digits with
    | some ds =>
      if ds.length ≤ Number.maxDigits then some (Number.ofSignDigits negative ds) else none
    | none => none
  else none

/-- Where a reader of paths stands. What it has read of a name or of a place is in reverse. -/
inductive Mode where
  | between
  | inName (read : List Char)
  | inBrackets (read : List Char)

/-- The name that has been read. -/
def closeName (read : List Char) : Segment :=
  .name (String.ofList read.reverse)

/-- Reads the segments of a path. Points only separate; a bracket ends a name, and what is in it
runs to the next closing bracket. -/
def segments? : Mode → List Char → Option (List Segment)
  | .between, [] => some []
  | .between, c :: cs =>
    if c = '[' then segments? (.inBrackets []) cs
    else if c = '.' then segments? .between cs
    else segments? (.inName [c]) cs
  | .inName read, [] => some [closeName read]
  | .inName read, c :: cs =>
    if c = '[' then (segments? (.inBrackets []) cs).map (closeName read :: ·)
    else if c = '.' then (segments? .between cs).map (closeName read :: ·)
    else segments? (.inName (c :: read)) cs
  | .inBrackets _, [] => none
  | .inBrackets read, c :: cs =>
    if c = ']' then
      match place? read.reverse with
      | some i => (segments? .between cs).map (.place i :: ·)
      | none => none
    else segments? (.inBrackets (c :: read)) cs

def parse? (path : String) : Option (List Segment) :=
  segments? .between path.toList

def item? (items : List Value) (i : Int) : Option Value :=
  if i < 0 then none else items[i.toNat]?

/-- The part of a value that a segment leads to. A name that consists of digits is a place in a
list. -/
def follow : Segment → Value → Except Fault (Option Value)
  | .place i, .list items => .ok (item? items i)
  | .name s, .object members => .ok (Table.get? s members)
  | .name s, .list items =>
    if s ≠ "" ∧ s.toList.all Text.isAsciiDigit then
      if s.toList.length ≤ Number.maxDigits then
        .ok (item? items (Text.digitsValue s.toList))
      else .error (.tooManyDigits s.toList.length)
    else .ok none
  | _, _ => .ok none

/-- The part of a document that a row of segments leads to. -/
def followAll : List Segment → Option Value → Except Fault (Option Value)
  | [], document => .ok document
  | segment :: rest, some v =>
    match follow segment v with
    | .ok part => followAll rest part
    | .error e => .error e
  | _ :: _, none => .ok none

/-- The part of a document at a path: the whole document at the empty one. -/
def extract (document : Option Value) (path : String) : Except Fault (Option Value) :=
  match parse? path with
  | some segments => followAll segments document
  | none => .ok none

/-- Further steps of a location written as a path: names after points, places in brackets. -/
def renderRest : List Segment → List Char
  | [] => []
  | .name s :: rest => '.' :: (s.toList ++ renderRest rest)
  | .place i :: rest => '[' :: (Number.intDigits i ++ ']' :: renderRest rest)

/-- A location written as a path, in which no point comes first. -/
def render : List Segment → List Char
  | .name s :: rest => s.toList ++ renderRest rest
  | segments => renderRest segments

/-- How many steps a path has that is given as a list of texts: a point only separates, an opening
bracket has no text to search for its end, and what is no text cannot be searched for a point. A text
that is found at the end of each step, as the empty one is, is never gone past. -/
def listedSteps : List Value → Except Fault Nat
  | [] => .ok 0
  | .text s :: rest =>
    if s = "." then listedSteps rest
    else if s = "[" then .error .noMember
    else if s = "" ∨ s = ".[" then .error .endless
    else (listedSteps rest).map (· + 1)
  | _ :: _ => .error .noOperation

/-- The part of a document at a path that a document gives. What does not count as given is the
empty path; what is no text leads nowhere, and it depends on its kind and on the document's how that
ends. -/
def extractAt (document : Value) : Value → Except Fault (Option Value)
  | .text path => extract (some document) path
  | path =>
    if !path.isTruthy then .ok (some document)
    else match path with
      | .object _ => .error .noEntry
      | .list items =>
        match listedSteps items, document with
        | .error e, _ => .error e
        | .ok 0, _ => .ok (some document)
        | .ok _, .object _ => .error .noOperation
        | .ok _, .list _ => .error .noMember
        | .ok _, _ => .ok none
      | _ => .error .noOperation

/-- `extractAt` on a document that may be absent: every path but the empty one leads nowhere in
it. -/
def extractAt? (document : Option Value) (path : Value) : Except Fault (Option Value) :=
  match document with
  | some v => extractAt v path
  | none => .ok none

end RestDemo.Path

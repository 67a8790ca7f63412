import Std.Data.HashMap
import RestDemo.Yaml.Block
import RestDemo.Yaml.Plain
import RestDemo.Yaml.Property
import RestDemo.Yaml.Quoted

/-!
# YAML tokens

The tokens of a YAML text, with the starts and ends of blocks that follow from indentation. A key of
a mapping is known as one only when its colon comes. So each place where a key may start is given a
slot among the tokens, and a slot is filled once its colon is found. Where scanning fails, the
tokens before the first slot that may still be filled are settled: a reader gets them first and
meets the failure only if it wants more.
-/

namespace RestDemo.Yaml

inductive Token where
  | streamEnd
  | directive (d : Directive)
  | documentStart
  | documentEnd
  | blockSequenceStart
  | blockMappingStart
  | blockEnd
  | flowSequenceStart
  | flowSequenceEnd
  | flowMappingStart
  | flowMappingEnd
  | flowEntry
  | blockEntry
  | key
  | value
  /-- The name of a node that stood before. -/
  | reference (name : String)
  | anchor (name : String)
  | tag (name : TagName)
  /-- A scalar; a plain one has a meaning that depends on its text. -/
  | scalar (isPlain : Bool) (text : List Char)
  deriving DecidableEq, Repr

/-- A token, or a slot for those of a key. -/
inductive Entry where
  | token (t : Token)
  | slot (id : Nat)

/-- A place where a key may have started. -/
structure KeyStart where
  /-- The flow collections around it. -/
  level : Nat
  slot : Nat
  /-- Whether only a key can stand there. -/
  required : Bool
  index : Nat
  line : Nat
  column : Nat

/-- The tokens of a text as far as they are settled, and what a reader meets that wants more. -/
structure Tokens where
  settled : List Token
  failure : DocumentError

structure Scanner where
  cursor : Cursor
  /-- How many flow collections are open. -/
  level : Nat
  /-- The entries found, the last one first. -/
  entries : List Entry
  slots : Nat
  /-- The tokens of the slots that were filled. -/
  filled : List (Nat × List Token)
  /-- The indentation of the innermost block, and those around it. -/
  indentation : Int
  outer : List Int
  /-- Whether a key may start here. -/
  keyAllowed : Bool
  keyStarts : List KeyStart

namespace Scanner

/-- At the start of a text. -/
def start (source : Source) : Scanner :=
  { cursor := Cursor.start source, level := 0, entries := [], slots := 0, filled := []
    indentation := -1, outer := [], keyAllowed := true, keyStarts := [] }

def push (s : Scanner) (t : Token) : Scanner :=
  { s with entries := .token t :: s.entries }

/-- With a token more, past so many characters. -/
def accept (s : Scanner) (t : Token) (size : Nat) : Scanner :=
  { s.push t with cursor := s.cursor.skip size }

/-- Past blanks, comments and line breaks; outside flow collections a key may start on a new
line. -/
def skipGaps : Nat → Scanner → Scanner
  | 0, s => s
  | fuel + 1, s =>
    let p := (s.cursor.skipWhile (· = ' ')).skipComment
    match p.rest with
    | c :: _ =>
      if isBreak c then
        skipGaps fuel { s with cursor := p.next, keyAllowed := s.keyAllowed || s.level = 0 }
      else { s with cursor := p }
    | [] => { s with cursor := p }

/-- A key lies on one line of at most so many characters. -/
def maxKeyLength : Nat := 1024

/-- Without the starts of keys whose colon can no longer come; a required one may not be among
them. -/
def dropStale (s : Scanner) : Except DocumentError Scanner :=
  let stale (k : KeyStart) : Bool :=
    k.line ≠ s.cursor.line || maxKeyLength < s.cursor.index - k.index
  if s.keyStarts.any fun k => stale k && k.required then .error .malformed
  else .ok { s with keyStarts := s.keyStarts.filter fun k => !stale k }

/-- Without the start of a key in the innermost collection, which may not be a required one. -/
def dropKeyStart (s : Scanner) : Except DocumentError Scanner :=
  if s.keyStarts.any fun k => k.level = s.level && k.required then .error .malformed
  else .ok { s with keyStarts := s.keyStarts.filter fun k => k.level ≠ s.level }

/-- With a start of a key here, if one may start. -/
def saveKeyStart (s : Scanner) : Except DocumentError Scanner :=
  if s.keyAllowed then
    s.dropKeyStart.map fun s =>
      let k : KeyStart :=
        { level := s.level, slot := s.slots
          required := s.level = 0 && s.indentation = s.cursor.column
          index := s.cursor.index, line := s.cursor.line, column := s.cursor.column }
      { s with
        keyStarts := k :: s.keyStarts, slots := s.slots + 1, entries := .slot s.slots :: s.entries }
  else .ok s

/-- With the blocks ended that are indented more than the given column. -/
def unwind (column : Int) : List Int → Scanner → Scanner
  | [], s => s
  | i :: outer, s =>
    if s.indentation > column then
      unwind column outer (push { s with indentation := i, outer } .blockEnd)
    else s

/-- With the blocks ended that the line here ends; there are none to end in flow collections. -/
def unwindTo (column : Int) (s : Scanner) : Scanner :=
  if s.level = 0 then unwind column s.outer s else s

/-- With a block at the given column, if it is indented more than the innermost one. -/
def indent (s : Scanner) (column : Int) : Bool × Scanner :=
  if s.indentation < column then
    (true, { s with indentation := column, outer := s.indentation :: s.outer })
  else (false, s)

/-- With a block of a kind at the column here, if a new one starts. -/
def openBlock (s : Scanner) (t : Token) : Scanner :=
  match s.indent s.cursor.column with
  | (true, s) => s.push t
  | (false, s) => s

/-! ## Tokens by their first character -/

def directive (s : Scanner) : Except DocumentError Scanner := do
  let s ← (s.unwindTo (-1)).dropKeyStart
  let (d, cursor) ← s.cursor.next.directive
  return { s.push (.directive d) with cursor, keyAllowed := false }

def separator (s : Scanner) (t : Token) : Except DocumentError Scanner :=
  (s.unwindTo (-1)).dropKeyStart.map fun s => { s.accept t 3 with keyAllowed := false }

def openFlow (s : Scanner) (t : Token) : Except DocumentError Scanner :=
  s.saveKeyStart.map fun s => { s.accept t 1 with level := s.level + 1, keyAllowed := true }

def closeFlow (s : Scanner) (t : Token) : Except DocumentError Scanner :=
  s.dropKeyStart.map fun s => { s.accept t 1 with level := s.level - 1, keyAllowed := false }

def flowEntry (s : Scanner) : Except DocumentError Scanner :=
  (dropKeyStart { s with keyAllowed := true }).map fun s => s.accept .flowEntry 1

def blockEntry (s : Scanner) : Except DocumentError Scanner :=
  if s.level = 0 && !s.keyAllowed then .error .malformed
  else
    let s := if s.level = 0 then s.openBlock .blockSequenceStart else s
    (dropKeyStart { s with keyAllowed := true }).map fun s => s.accept .blockEntry 1

def explicitKey (s : Scanner) : Except DocumentError Scanner :=
  if s.level = 0 && !s.keyAllowed then .error .malformed
  else
    let s := if s.level = 0 then s.openBlock .blockMappingStart else s
    (dropKeyStart { s with keyAllowed := s.level = 0 }).map fun s => s.accept .key 1

/-- The colon after a key: one that started on this line, or an empty one. -/
def value (s : Scanner) : Except DocumentError Scanner :=
  match s.keyStarts.find? fun k => k.level = s.level with
  | some k =>
    let s := { s with keyStarts := s.keyStarts.filter fun k => k.level ≠ s.level }
    let (opens, s) := if s.level = 0 then s.indent k.column else (false, s)
    let tokens := if opens then [.blockMappingStart, .key] else [.key]
    let s := { s with filled := (k.slot, tokens) :: s.filled, keyAllowed := false }
    .ok (s.accept .value 1)
  | none =>
    if s.level = 0 && !s.keyAllowed then .error .malformed
    else
      let s := if s.level = 0 then s.openBlock .blockMappingStart else s
      (dropKeyStart { s with keyAllowed := s.level = 0 }).map fun s => s.accept .value 1

/-- Something that a key may start with: its token is read from this place on. -/
def keyable (s : Scanner) (read : Cursor → Except DocumentError (Token × Cursor)) :
    Except DocumentError Scanner := do
  let s ← s.saveKeyStart
  let (t, cursor) ← read s.cursor
  return { s.push t with cursor, keyAllowed := false }

/-- The name of a node that stood before. -/
def reference (s : Scanner) : Except DocumentError Scanner :=
  s.keyable fun p => (p.next.anchorName).map fun (name, p) => (.reference name, p)

def anchor (s : Scanner) : Except DocumentError Scanner :=
  s.keyable fun p => (p.next.anchorName).map fun (name, p) => (.anchor name, p)

def tag (s : Scanner) : Except DocumentError Scanner :=
  s.keyable fun p => p.tag.map fun (name, p) => (.tag name, p)

def quotedScalar (fuel : Nat) (s : Scanner) (double : Bool) : Except DocumentError Scanner :=
  s.keyable fun p => (p.next.quoted double fuel).map fun (text, p) => (.scalar false text, p)

/-- A block scalar; a key may start after it. -/
def blockScalar (fuel : Nat) (s : Scanner) (folded : Bool) : Except DocumentError Scanner := do
  let s ← s.dropKeyStart
  let (text, cursor) ← s.cursor.next.blockScalar fuel folded s.indentation
  return { s.push (.scalar false text) with cursor, keyAllowed := true }

def plainScalar (fuel : Nat) (s : Scanner) : Except DocumentError Scanner :=
  s.saveKeyStart.map fun s =>
    let (text, broken, cursor) := s.cursor.plain (s.level ≠ 0) (s.indentation + 1) fuel
    { s.push (.scalar true text) with cursor, keyAllowed := broken }

/-- The characters that no plain scalar starts with. -/
def indicators : List Char :=
  ['-', '?', ':', ',', '[', ']', '{', '}', '#', '&', '*', '!', '|', '>', '\'', '"', '%', '@', '`']

/-- Whether a plain scalar starts with the character `c` that `cs` follows. -/
def startsPlain (inFlow : Bool) (c : Char) (cs : List Char) : Bool :=
  (!indicators.contains c && c ≠ '\t') ||
    (!isApart cs && (c = '-' || (!inFlow && (c = '?' || c = ':'))))

def token (fuel : Nat) (s : Scanner) (c : Char) (cs : List Char) : Except DocumentError Scanner :=
  let inFlow := s.level ≠ 0
  if s.cursor.column = 0 && c = '%' then s.directive
  else if s.cursor.column = 0 && s.cursor.atSeparator then
    s.separator (if c = '-' then .documentStart else .documentEnd)
  else if c = '[' then s.openFlow .flowSequenceStart
  else if c = '{' then s.openFlow .flowMappingStart
  else if c = ']' then s.closeFlow .flowSequenceEnd
  else if c = '}' then s.closeFlow .flowMappingEnd
  else if c = ',' then s.flowEntry
  else if c = '-' && isApart cs then s.blockEntry
  else if c = '?' && (inFlow || isApart cs) then s.explicitKey
  else if c = ':' && (inFlow || isApart cs) then s.value
  else if c = '*' then s.reference
  else if c = '&' then s.anchor
  else if c = '!' then s.tag
  else if c = '|' && !inFlow then blockScalar fuel s false
  else if c = '>' && !inFlow then blockScalar fuel s true
  else if c = '\'' then quotedScalar fuel s false
  else if c = '"' then quotedScalar fuel s true
  else if startsPlain inFlow c cs then plainScalar fuel s
  else .error .malformed

def atEnd (s : Scanner) : Except DocumentError Scanner :=
  (s.unwindTo (-1)).dropKeyStart.map fun s => push { s with keyStarts := [] } .streamEnd

/-! ## All tokens -/

/-- The scanner as it is, unless it came to the end of what is there and something else than the
true end comes behind. -/
def within (s : Scanner) : Except DocumentError Scanner :=
  match s.cursor.rest, s.cursor.obstacle with
  | [], some e => .error e
  | _, _ => .ok s

/-- Whether what stands here cannot be told before something else than the true end of the text
comes: the character `c` that `cs` follows. -/
def isUndecided (s : Scanner) (c : Char) (cs : List Char) : Bool :=
  s.cursor.obstacle.isSome &&
    (cs.isEmpty || (s.cursor.column = 0 && (c = '-' || c = '.') && cs.length < 2))

/-- With the next token, or the end of the text. The fuel is no less than the text that is left. -/
def fetch (fuel : Nat) (s : Scanner) : Except DocumentError Scanner := do
  let s ← (skipGaps fuel s).within
  let s ← s.dropStale
  let s := s.unwindTo s.cursor.column
  match s.cursor.rest with
  | [] => s.atEnd
  | c :: cs =>
    if s.isUndecided c cs then throw (s.cursor.obstacle.getD .malformed)
    else (← token fuel s c cs).within

/-- The tokens before the first slot that may still be filled, with those of the slots that were. -/
def settled (s : Scanner) : List Token :=
  let isSettled : Entry → Bool
    | .token _ => true
    | .slot id => !s.keyStarts.any fun k => k.slot = id
  let filled := Std.HashMap.ofList s.filled
  (s.entries.reverse.takeWhile isSettled).flatMap fun
    | .token t => [t]
    | .slot id => filled.getD id []

def isDone (s : Scanner) : Bool :=
  match s.entries with
  | .token .streamEnd :: _ => true
  | _ => false

/-- Scans to the end of the text or to a failure. Every token takes a character. -/
def run : Nat → Scanner → Tokens
  | 0, s => ⟨s.settled, .malformed⟩
  | fuel + 1, s =>
    if s.isDone then ⟨s.settled, .malformed⟩
    else
      match s.dropStale with
      | .error e => ⟨s.settled, e⟩
      | .ok s =>
        match fetch fuel s with
        | .error e => ⟨s.settled, e⟩
        | .ok next => run fuel next

end Scanner

def Tokens.ofSource (source : Source) : Tokens :=
  Scanner.run (source.text.length + 2) (Scanner.start source)

end RestDemo.Yaml

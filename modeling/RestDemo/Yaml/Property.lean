import RestDemo.Number.Text
import RestDemo.Text.Code
import RestDemo.Text.Digit
import RestDemo.Yaml.Cursor

/-!
# Properties of nodes, and directives

A node may have an anchor, by which a reference names it again, and a tag, which says what it is. A
tag is written out or shortened by a handle; directives before a document give the meaning of
handles and the version of the language.
-/

namespace RestDemo.Yaml

/-- A tag as it is written: a handle, if it has one, and the rest. -/
structure TagName where
  handle : Option String
  suffix : String
  deriving DecidableEq, Repr

inductive Directive where
  /-- The version of the language, of which only the first number counts. -/
  | version (major : Nat)
  /-- A meaning for a handle. Whatever it is, tags with that handle are no longer those of the
  language. -/
  | handle (name : String)
  /-- Something that is passed over. -/
  | other
  deriving DecidableEq, Repr

def isNameChar (c : Char) : Bool :=
  c.isAlphanum || c = '-' || c = '_'

/-- Whether a character may stand in the address that a tag is. -/
def isUriChar (c : Char) : Bool :=
  isNameChar c || "-;/?:@&=+$,_.!~*\x27()[]%".toList.contains c

namespace Cursor

def name (p : Cursor) : Except DocumentError (String × Cursor) :=
  let cs := p.rest.takeWhile isNameChar
  if cs.isEmpty then .error p.failure else .ok (String.ofList cs, p.skip cs.length)

/-- The name of an anchor or a reference, after its mark. -/
def anchorName (p : Cursor) : Except DocumentError (String × Cursor) := do
  let (name, p) ← p.name
  let isClosing (c : Char) : Bool := ['?', ':', ',', ']', '}', '%', '@', '\x60'].contains c
  if isApart p.rest || p.rest.head?.any isClosing then return (name, p)
  else throw .malformed

/-! ## Tags -/

/-- The bytes of a row of escapes in an address. -/
def uriBytes : Nat → Cursor → Except DocumentError (List UInt8 × Cursor)
  | 0, p => .ok ([], p)
  | fuel + 1, p =>
    match p.rest with
    | '%' :: cs =>
      match (cs.head?).bind Text.hexValue?, (cs.tail.head?).bind Text.hexValue? with
      | some a, some b =>
        (uriBytes fuel (p.skip 3)).map fun (bytes, p) => (UInt8.ofNat (16 * a + b) :: bytes, p)
      | some _, none => .error (p.skip 2).failure
      | none, _ => .error p.next.failure
    | _ => .ok ([], p)

def uriRest : Nat → Cursor → Except DocumentError (List Char × Cursor)
  | 0, p => .ok ([], p)
  | fuel + 1, p =>
    match p.rest with
    | [] => .ok ([], p)
    | c :: _ =>
      if c = '%' then do
        let (bytes, p) ← uriBytes p.rest.length p
        match Text.decode true bytes with
        | .ok (cs, _) => (uriRest fuel p).map fun (more, p) => (cs ++ more, p)
        | .error _ => throw .malformed
      else if isUriChar c then (uriRest fuel p.next).map fun (more, p) => (c :: more, p)
      else .ok ([], p)

def uri (p : Cursor) : Except DocumentError (String × Cursor) :=
  match p.rest with
  | c :: _ =>
    if isUriChar c then
      (uriRest p.rest.length p).map fun (cs, p) => (String.ofList cs, p)
    else .error .malformed
  | [] => .error p.failure

/-- A handle: a name between exclamation marks, or one mark before a space. -/
def tagHandle (p : Cursor) : Except DocumentError (String × Cursor) := do
  let p ← p.expect (· = '!')
  if p.rest.head? = some ' ' then return ("!", p)
  else
    let cs := p.rest.takeWhile isNameChar
    let p ← (p.skip cs.length).expect (· = '!')
    return (String.ofList ('!' :: cs ++ ['!']), p)

/-- Whether the characters up to a space or a line break hold an exclamation mark. -/
def hasHandle (cs : List Char) : Bool :=
  (cs.takeWhile fun c => c ≠ ' ' && !isBreak c).contains '!'

/-- A tag, from its exclamation mark on. -/
def tag (p : Cursor) : Except DocumentError (TagName × Cursor) := do
  let (tag, p) ← match p.next.rest with
    | '<' :: _ =>
      let (suffix, p) ← (p.skip 2).uri
      let p ← p.expect (· = '>')
      pure (⟨none, suffix⟩, p)
    | cs =>
      if isApart cs then pure (⟨none, "!"⟩, p.next)
      else if hasHandle cs then
        let (handle, p) ← p.tagHandle
        let (suffix, p) ← p.uri
        pure (⟨some handle, suffix⟩, p)
      else
        let (suffix, p) ← p.next.uri
        pure (⟨some "!", suffix⟩, p)
  if isSpaced p.rest then return (tag, p) else throw .malformed

/-! ## Directives -/

/-- A number in the version of the language; it has a limited number of digits. -/
def versionNumber (p : Cursor) : Except DocumentError (Nat × Cursor) :=
  let digits := p.rest.takeWhile Text.isAsciiDigit
  if digits.isEmpty then .error p.failure
  else if Number.maxDigits < digits.length then .error (.fault (.tooManyDigits digits.length))
  else .ok (Text.digitsValue digits, p.skip digits.length)

def versionValue (p : Cursor) : Except DocumentError (Directive × Cursor) := do
  let (major, p) ← (p.skipWhile (· = ' ')).versionNumber
  let p ← p.expect (· = '.')
  let (_, p) ← p.versionNumber
  if isSpaced p.rest then return (.version major, p) else throw .malformed

def handleValue (p : Cursor) : Except DocumentError (Directive × Cursor) := do
  let (handle, p) ← (p.skipWhile (· = ' ')).tagHandle
  let p ← p.expect (· = ' ')
  let (_, p) ← (p.skipWhile (· = ' ')).uri
  if isSpaced p.rest then return (.handle handle, p) else throw .malformed

/-- A directive after its mark, with the rest of its line. -/
def directive (p : Cursor) : Except DocumentError (Directive × Cursor) := do
  let (name, p) ← p.name
  if !isSpaced p.rest then throw .malformed
  let (directive, p) ←
    if name = "YAML" then p.versionValue
    else if name = "TAG" then p.handleValue
    else pure (.other, p.skipWhile fun c => !isBreak c)
  return (directive, ← p.endLine)

end Cursor

end RestDemo.Yaml

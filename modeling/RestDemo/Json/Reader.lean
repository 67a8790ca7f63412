import RestDemo.Value.Basic
import RestDemo.Fault
import RestDemo.Number.Text
import RestDemo.Text.Code

/-!
# Reading JSON

A reader that takes a value from the front of a text and leaves the rest. It knows the names of
infinity and of what is not a number, keeps integers whole, and gives a name that comes twice in a
mapping its last entry at its first place. A refusal says what was expected and how much of the text
was left, from which `Complaint.message` finds line and column.
-/

namespace RestDemo.Json

/-- What is wrong with a text. -/
inductive Complaint where
  | value
  | propertyName
  | colon
  | comma
  | unterminatedText
  | controlCharacter
  | escape
  | unicodeEscape
  | extraData
  | byteOrderMark
  deriving DecidableEq, Repr

def Complaint.words : Complaint → String
  | value => "Expecting value"
  | propertyName => "Expecting property name enclosed in double quotes"
  | colon => "Expecting ':' delimiter"
  | comma => "Expecting ',' delimiter"
  | unterminatedText => "Unterminated string starting at"
  | controlCharacter => "Invalid control character at"
  | escape => "Invalid \\escape"
  | unicodeEscape => "Invalid \\uXXXX escape"
  | extraData => "Extra data"
  | byteOrderMark => "Unexpected UTF-8 BOM (decode using utf-8-sig)"

inductive Refusal where
  /-- It is malformed where so many characters are left. -/
  | malformed (complaint : Complaint) (left : Nat)
  /-- It is beyond a limit of the reader. -/
  | beyond (fault : Fault)
  deriving DecidableEq, Repr

/-- What a reader makes of the front of a text: a result and the rest. -/
abbrev Reading (α : Type) : Type := Except Refusal (α × List Char)

def refuse {α : Type} (complaint : Complaint) (rest : List Char) : Except Refusal α :=
  .error (.malformed complaint rest.length)

/-- The depth of nesting that is followed. Only what is read from a text is stopped by its depth: what
is done with a value that is there, as filling in, looking for names, masking and writing it, goes to
any depth. -/
def maxDepth : Nat := 990

/-- Whether a character may stand between the parts of a text. -/
def isGap (c : Char) : Bool :=
  c = ' ' || c = '\t' || c = '\n' || c = '\r'

/-- The text from its first character that is no gap. -/
def skipGaps (cs : List Char) : List Char :=
  cs.dropWhile isGap

def hex4? (a b c d : Char) : Option Nat := do
  let a ← Text.hexValue? a
  let b ← Text.hexValue? b
  let c ← Text.hexValue? c
  let d ← Text.hexValue? d
  return ((a * 16 + b) * 16 + c) * 16 + d

/-- The character that a one-letter escape stands for. -/
def escaped? (c : Char) : Option Char :=
  match c with
  | '"' => some '"'
  | '\\' => some '\\'
  | '/' => some '/'
  | 'b' => some '\x08'
  | 'f' => some '\x0c'
  | 'n' => some '\n'
  | 'r' => some '\r'
  | 't' => some '\t'
  | _ => none

/-- The second half of a surrogate pair at the front of a text, if an escape stands there that a
character follows; one that is no number is refused. -/
def readPairEnd : List Char → Except Refusal (Option Nat)
  | '\\' :: 'u' :: a :: b :: c :: d :: _ :: rest =>
    match hex4? a b c d with
    | some n => .ok (some n)
    | none => .error (.malformed .unicodeEscape (rest.length + 6))
  | _ => .ok none

/-- Reads an escape after its backslash: the character that it stands for, and how many characters
it takes. A numbered escape needs a character after it. -/
def readEscape (start : Nat) : List Char → Except Refusal (Char × Nat)
  | [] => .error (.malformed .unterminatedText start)
  | e :: cs =>
    if e = 'u' then
      match cs with
      | a :: b :: c :: d :: next :: rest =>
        match hex4? a b c d with
        | none => refuse .unicodeEscape (e :: cs)
        | some n =>
          if Text.isHighSurrogate n then
            (readPairEnd (next :: rest)).map fun
              | some m =>
                if Text.isLowSurrogate m then (Text.joinSurrogates n m, 11)
                else (Text.charOfCode n, 5)
              | none => (Text.charOfCode n, 5)
          else .ok (Text.charOfCode n, 5)
      | _ => refuse .unicodeEscape (e :: cs)
    else match escaped? e with
      | some c => .ok (c, 1)
      | none => .error (.malformed .escape (cs.length + 2))

/-- Reads a text up to its closing quote; `start` characters were left at its opening quote, and
`skip` characters belong to an escape already read. -/
def readText (start skip : Nat) : List Char → Reading (List Char)
  | [] => .error (.malformed .unterminatedText start)
  | c :: cs =>
    match skip with
    | skip + 1 => readText start skip cs
    | 0 =>
      if c = '"' then .ok ([], cs)
      else if c = '\\' then
        match readEscape start cs with
        | .error e => .error e
        | .ok (x, size) => (readText start size cs).map fun (s, rest) => (x :: s, rest)
      else if c.toNat < 0x20 then refuse .controlCharacter (c :: cs)
      else (readText start 0 cs).map fun (s, rest) => (c :: s, rest)

def spanDigits (cs : List Char) : List Char × List Char :=
  (cs.takeWhile Text.isAsciiDigit, cs.dropWhile Text.isAsciiDigit)

/-- The digits of the whole part of a number: a zero alone, or digits that start with another. -/
def readWhole? : List Char → Option (List Char × List Char)
  | [] => none
  | c :: cs =>
    if c = '0' then some (['0'], cs)
    else if Text.isAsciiDigit c then some (c :: (spanDigits cs).1, (spanDigits cs).2)
    else none

/-- The digits after a point, if there is a point with digits after it. -/
def readFraction? : List Char → Option (List Char × List Char)
  | '.' :: cs => if (spanDigits cs).1.isEmpty then none else some (spanDigits cs)
  | _ => none

/-- The exponent after its mark, if there is a mark with digits after it. -/
def readExponent? : List Char → Option (Int × List Char)
  | c :: cs =>
    if c = 'e' ∨ c = 'E' then
      let (negative, ds) := Number.splitSign cs
      if (spanDigits ds).1.isEmpty then none
      else some (Number.ofSignDigits negative (spanDigits ds).1, (spanDigits ds).2)
    else none
  | [] => none

def decimalValue (negative : Bool) (whole fraction : List Char) (exponent : Int) : Float :=
  let x := Number.nearest (Text.digitsValue (whole ++ fraction)) (exponent - fraction.length)
  if negative then -x else x

/-- Reads a number after its sign: an integer if it has neither fraction nor exponent. -/
def readUnsigned (negative : Bool) (cs : List Char) : Option (Except Refusal Value × List Char) :=
  (readWhole? cs).map fun (whole, rest) =>
    match readFraction? rest with
    | some (fraction, rest) =>
      match readExponent? rest with
      | some (e, rest) => (.ok (.float (decimalValue negative whole fraction e)), rest)
      | none => (.ok (.float (decimalValue negative whole fraction 0)), rest)
    | none =>
      match readExponent? rest with
      | some (e, rest) => (.ok (.float (decimalValue negative whole [] e)), rest)
      | none =>
        if whole.length ≤ Number.maxDigits then
          (.ok (.int (Number.ofSignDigits negative whole)), rest)
        else (.error (.beyond (.tooManyDigits whole.length)), rest)

def readNumber (cs : List Char) : Reading Value :=
  let unsigned := match cs with
    | '-' :: ds => readUnsigned true ds
    | ds => readUnsigned false ds
  match unsigned with
  | none => refuse .value cs
  | some (.ok v, rest) => .ok (v, rest)
  | some (.error e, _) => .error e

def infinity : Float := 1 / 0

/-- Reads a value that is no text, list or mapping: a name or a number. -/
def readAtom (cs : List Char) : Reading Value :=
  match cs with
  | 'n' :: 'u' :: 'l' :: 'l' :: rest => .ok (.null, rest)
  | 't' :: 'r' :: 'u' :: 'e' :: rest => .ok (.bool true, rest)
  | 'f' :: 'a' :: 'l' :: 's' :: 'e' :: rest => .ok (.bool false, rest)
  | 'N' :: 'a' :: 'N' :: rest => .ok (.float (0 / 0), rest)
  | 'I' :: 'n' :: 'f' :: 'i' :: 'n' :: 'i' :: 't' :: 'y' :: rest => .ok (.float infinity, rest)
  | '-' :: 'I' :: 'n' :: 'f' :: 'i' :: 'n' :: 'i' :: 't' :: 'y' :: rest =>
    .ok (.float (-infinity), rest)
  | _ => readNumber cs

mutual

/-- Reads a value at the front of a text. The fuel is spent on every step, the depth only on lists
and mappings. -/
def readValue (fuel depth : Nat) (cs : List Char) : Reading Value :=
  match fuel with
  | 0 => .error (.beyond .tooDeep)
  | fuel + 1 =>
    match cs with
    | '"' :: rest =>
      (readText cs.length 0 rest).map fun (s, rest) => (.text (String.ofList s), rest)
    | '[' :: rest =>
      match depth, skipGaps rest with
      | 0, _ => .error (.beyond .tooDeep)
      | _ + 1, ']' :: rest => .ok (.list [], rest)
      | depth + 1, rest =>
        (readItems fuel depth rest).map fun (items, rest) => (.list items, rest)
    | '{' :: rest =>
      match depth, skipGaps rest with
      | 0, _ => .error (.beyond .tooDeep)
      | _ + 1, '}' :: rest => .ok (.object [], rest)
      | depth + 1, rest =>
        (readMembers fuel depth rest).map fun (members, rest) =>
          (.object (Table.ofList members), rest)
    | _ => readAtom cs

/-- Reads the items of a list up to its closing bracket. -/
def readItems (fuel depth : Nat) (cs : List Char) : Reading (List Value) :=
  match fuel with
  | 0 => .error (.beyond .tooDeep)
  | fuel + 1 =>
    match readValue fuel depth cs with
    | .error e => .error e
    | .ok (item, rest) =>
      match skipGaps rest with
      | ']' :: rest => .ok ([item], rest)
      | ',' :: rest =>
        (readItems fuel depth (skipGaps rest)).map fun (items, rest) => (item :: items, rest)
      | rest => refuse .comma rest

/-- Reads the entries of a mapping up to its closing brace. -/
def readMembers (fuel depth : Nat) (cs : List Char) : Reading (List (String × Value)) :=
  match fuel with
  | 0 => .error (.beyond .tooDeep)
  | fuel + 1 =>
    match cs with
    | '"' :: rest =>
      match readText cs.length 0 rest with
      | .error e => .error e
      | .ok (name, rest) =>
        match skipGaps rest with
        | ':' :: rest =>
          match readValue fuel depth (skipGaps rest) with
          | .error e => .error e
          | .ok (entry, rest) =>
            match skipGaps rest with
            | '}' :: rest => .ok ([(String.ofList name, entry)], rest)
            | ',' :: rest =>
              (readMembers fuel depth (skipGaps rest)).map fun (members, rest) =>
                ((String.ofList name, entry) :: members, rest)
            | rest => refuse .comma rest
        | rest => refuse .colon rest
    | _ => refuse .propertyName cs

end

/-- The value that a text holds and nothing else. Each character is passed in at most two steps. -/
def read (cs : List Char) : Except Refusal Value :=
  match cs with
  | '\ufeff' :: _ => refuse .byteOrderMark cs
  | _ =>
    match readValue (2 * cs.length + 2) maxDepth (skipGaps cs) with
    | .error e => .error e
    | .ok (v, rest) =>
      match skipGaps rest with
      | [] => .ok v
      | rest => refuse .extraData rest

/-- The value of the body of an answer: nothing, if it is no JSON. -/
def bodyValue (body : String) : Value :=
  match read body.toList with
  | .ok v => v
  | .error _ => .null

/-- A complaint about the place in a text where so many characters are left. -/
def Complaint.message (complaint : Complaint) (cs : List Char) (left : Nat) : String :=
  let before := cs.take (cs.length - left)
  let line := before.count '\n' + 1
  let column := (before.reverse.takeWhile (· != '\n')).length + 1
  complaint.words ++ ": line " ++ Nat.repr line ++ " column " ++ Nat.repr column ++
    " (char " ++ Nat.repr before.length ++ ")"

end RestDemo.Json

import RestDemo.Json.Writer

/-!
# Templates

A text in which `$name` stands for the value of a variable. `pieces` takes a text apart, with the
longest possible names, and `fill` puts values in place of the variables that have one; what is put
in is not looked at again. `fillValue` fills every text in a value but the names of mappings, and
`variablesIn` lists the variables that it meets, each once and in order.
-/

namespace RestDemo.Template

inductive Piece where
  | char (c : Char)
  | variable (name : String)
  deriving DecidableEq, Repr

def isNameStart (c : Char) : Bool :=
  ('A' ≤ c && c ≤ 'Z') || ('a' ≤ c && c ≤ 'z') || c = '_'

def isNameChar (c : Char) : Bool :=
  isNameStart c || ('0' ≤ c && c ≤ '9')

/-- Where a reader of templates stands: in text, after a dollar sign, or in a name of which it has
read some characters, in reverse. -/
inductive Mode where
  | inText
  | afterDollar
  | inName (read : List Char)

def closeName (read : List Char) : Piece :=
  .variable (String.ofList read.reverse)

/-- Takes a template apart. A dollar sign without a name is a character like others. -/
def scan : Mode → List Char → List Piece
  | .inText, [] => []
  | .inText, c :: cs =>
    if c = '$' then scan .afterDollar cs else .char c :: scan .inText cs
  | .afterDollar, [] => [.char '$']
  | .afterDollar, c :: cs =>
    if isNameStart c then scan (.inName [c]) cs
    else if c = '$' then .char '$' :: scan .afterDollar cs
    else .char '$' :: .char c :: scan .inText cs
  | .inName read, [] => [closeName read]
  | .inName read, c :: cs =>
    if isNameChar c then scan (.inName (c :: read)) cs
    else if c = '$' then closeName read :: scan .afterDollar cs
    else closeName read :: .char c :: scan .inText cs

def pieces (text : String) : List Piece :=
  scan .inText text.toList

/-- A value as it stands in a text: nothing is empty, whole numbers have no fraction, lists and
mappings are compact documents. -/
def embed : Value → Except Fault (List Char)
  | .null => .ok []
  | .bool true => .ok "true".toList
  | .bool false => .ok "false".toList
  | .int n => Number.intText n
  | .float x =>
    match Number.whole? x with
    | some n => Number.intText n
    | none => .ok (Number.floatText x)
  | .text s => .ok s.toList
  | .list items => Json.write Json.compact (.list items)
  | .object members => Json.write Json.compact (.object members)

/-- What stands in a text for a part that is not there. -/
def absentText : List Char := "MISSING".toList

/-- A part of a document as it stands in a text, if it is there. -/
def embedPart : Option Value → Except Fault (List Char)
  | some v => embed v
  | none => .ok absentText

/-- A part as it stands in the filled text: a variable without a value stays. -/
def fillPiece (store : Store) : Piece → Except Fault (List Char)
  | .char c => .ok [c]
  | .variable name =>
    match Table.get? name store with
    | some v => embed v
    | none => .ok ('$' :: name.toList)

def fillPieces (store : Store) : List Piece → Except Fault (List Char)
  | [] => .ok []
  | p :: ps => do
    let first ← fillPiece store p
    let others ← fillPieces store ps
    return first ++ others

/-- The text with values in place of the variables that have one. -/
def fill (store : Store) (text : String) : Except Fault String :=
  (fillPieces store (pieces text)).map String.ofList

mutual

/-- The value with every text in it filled; the names of mappings stay. -/
def fillValue (store : Store) : Value → Except Fault Value
  | .text s => (fill store s).map .text
  | .list items => (fillItems store items).map .list
  | .object members => (fillMembers store members).map .object
  | v => .ok v

def fillItems (store : Store) : List Value → Except Fault (List Value)
  | [] => .ok []
  | v :: vs => do
    let first ← fillValue store v
    let others ← fillItems store vs
    return first :: others

def fillMembers (store : Store) : List (String × Value) → Except Fault (List (String × Value))
  | [] => .ok []
  | (k, v) :: ms => do
    let entry ← fillValue store v
    let others ← fillMembers store ms
    return (k, entry) :: others

end

/-- A template that a document gives, filled. What is neither text nor a collection cannot be
searched for a dollar sign; a collection without one among its items or names stays as it is. -/
def fillGiven (store : Store) : Value → Except Fault Value
  | .text s => (fill store s).map .text
  | .list items =>
    if items.any fun v => match v with
      | .text s => s == "$"
      | _ => false
    then .error .noOperation else .ok (.list items)
  | .object members =>
    if Table.has "$" members then .error .noOperation else .ok (.object members)
  | _ => .error .noOperation

/-- The names in order, each where it first comes. -/
def unique : List String → List String
  | [] => []
  | x :: xs => x :: (unique xs).filter (· ≠ x)

def Piece.name? : Piece → Option String
  | .char _ => none
  | .variable name => some name

/-- The variables of a text, each once and in order. -/
def variablesOf (text : String) : List String :=
  unique ((pieces text).filterMap Piece.name?)

mutual

/-- The variables of a value, each once and in order. -/
def variablesIn : Value → List String
  | .text s => variablesOf s
  | .list items => unique (variablesInItems items)
  | .object members => unique (variablesInMembers members)
  | _ => []

/-- The variables of the items, one item after another. -/
def variablesInItems : List Value → List String
  | [] => []
  | v :: vs => variablesIn v ++ variablesInItems vs

/-- The variables of the entries, one entry after another. -/
def variablesInMembers : List (String × Value) → List String
  | [] => []
  | (_, v) :: ms => variablesIn v ++ variablesInMembers ms

end

def missing (used : List String) (store : Store) : List String :=
  used.filter fun name => !Table.has name store

end RestDemo.Template

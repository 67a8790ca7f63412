import RestDemo.Value.Spelling

/-!
# Writing JSON

Three layouts of one grammar: compact, with a blank after each comma and colon, and indented by two
blanks a level. Texts keep every character but the quote, the backslash and the controls. A number
beyond the floating-point range is written by name.
-/

namespace RestDemo.Json

def escapeChar (c : Char) : List Char :=
  if c = '"' ∨ c = '\\' then ['\\', c]
  else if c = '\n' then ['\\', 'n']
  else if c = '\r' then ['\\', 'r']
  else if c = '\t' then ['\\', 't']
  else if c = '\x0c' then ['\\', 'f']
  else if c = '\x08' then ['\\', 'b']
  else if c.toNat < 0x20 then '\\' :: 'u' :: Text.hexDigits 4 c.toNat
  else [c]

def writeText (s : String) : List Char :=
  '"' :: (s.toList.flatMap escapeChar ++ ['"'])

/-- Numbers stand as they do outside documents, but infinity and what is not a number have names. -/
def numberLayout : Number.FloatLayout :=
  { Number.plainLayout with infinity := "Infinity", nan := "NaN" }

def writeScalar : Value → Except Fault (List Char)
  | .bool true => .ok "true".toList
  | .bool false => .ok "false".toList
  | .int n => Number.intText n
  | .float x => .ok (numberLayout.text x)
  | .text s => .ok (writeText s)
  | _ => .ok "null".toList

/-- What stands between items, and between a name and its entry. -/
structure Separators where
  item : List Char
  entry : List Char

def compact : Separators := ⟨[','], [':']⟩

def spaced : Separators := ⟨[',', ' '], [':', ' ']⟩

mutual

def write (sep : Separators) : Value → Except Fault (List Char)
  | .list items => do
    let parts ← writeItems sep items
    return '[' :: (parts ++ [']'])
  | .object members => do
    let parts ← writeMembers sep members
    return '{' :: (parts ++ ['}'])
  | v => writeScalar v

def writeItems (sep : Separators) : List Value → Except Fault (List Char)
  | [] => .ok []
  | [v] => write sep v
  | v :: vs => do
    let first ← write sep v
    let others ← writeItems sep vs
    return first ++ (sep.item ++ others)

def writeMembers (sep : Separators) : List (String × Value) → Except Fault (List Char)
  | [] => .ok []
  | [(k, v)] => do
    let entry ← write sep v
    return writeText k ++ (sep.entry ++ entry)
  | (k, v) :: ms => do
    let entry ← write sep v
    let others ← writeMembers sep ms
    return writeText k ++ (sep.entry ++ (entry ++ (sep.item ++ others)))

end

def newLine (level : Nat) : List Char :=
  '\n' :: List.replicate (2 * level) ' '

mutual

/-- A value over several lines; its first line is at the given level. -/
def writeIndented (level : Nat) : Value → Except Fault (List Char)
  | .list [] => .ok ['[', ']']
  | .list (v :: vs) => do
    let first ← writeIndented (level + 1) v
    let others ← writeIndentedItems (level + 1) vs
    return '[' :: (newLine (level + 1) ++ first ++ others ++ newLine level ++ [']'])
  | .object [] => .ok ['{', '}']
  | .object ((k, v) :: ms) => do
    let entry ← writeIndented (level + 1) v
    let others ← writeIndentedMembers (level + 1) ms
    return '{' :: (newLine (level + 1) ++ writeText k ++ ':' :: ' ' :: entry ++ others ++
      newLine level ++ ['}'])
  | v => writeScalar v

/-- Further items, each after a comma on a line of its own. -/
def writeIndentedItems (level : Nat) : List Value → Except Fault (List Char)
  | [] => .ok []
  | v :: vs => do
    let item ← writeIndented level v
    let others ← writeIndentedItems level vs
    return ',' :: (newLine level ++ item ++ others)

/-- Further entries, each after a comma on a line of its own. -/
def writeIndentedMembers (level : Nat) : List (String × Value) → Except Fault (List Char)
  | [] => .ok []
  | (k, v) :: ms => do
    let entry ← writeIndented level v
    let others ← writeIndentedMembers level ms
    return ',' :: (newLine level ++ writeText k ++ ':' :: ' ' :: entry ++ others)

end

def text (sep : Separators) (v : Value) : Except Fault String :=
  (write sep v).map String.ofList

def indentedText (v : Value) : Except Fault String :=
  (writeIndented 0 v).map String.ofList

end RestDemo.Json

import RestDemo.Value.Basic
import RestDemo.Fault
import RestDemo.Number.Text
import RestDemo.Text.Quoted

/-!
# Values spelled out

How a message shows a value: texts in quotes, `None`, `True` and `False` by name, lists and mappings
in brackets. A value that stands for itself in a message is spelled out unless it is a text.
-/

namespace RestDemo

namespace Number

/-- The text of an integer, or the fault of one with too many digits. -/
def intText (n : Int) : Except Fault (List Char) :=
  match intText? n with
  | some cs => .ok cs
  | none => .error .tooLong

end Number

namespace Value

mutual

def spell : Value → Except Fault (List Char)
  | null => .ok "None".toList
  | bool true => .ok "True".toList
  | bool false => .ok "False".toList
  | int n => Number.intText n
  | float x => .ok (Number.floatText x)
  | text s => .ok (Text.quoted s.toList)
  | list items => do
    let parts ← spellItems items
    return '[' :: (parts ++ [']'])
  | object members => do
    let parts ← spellMembers members
    return '{' :: (parts ++ ['}'])

def spellItems : List Value → Except Fault (List Char)
  | [] => .ok []
  | [v] => spell v
  | v :: vs => do
    let first ← spell v
    let others ← spellItems vs
    return first ++ ',' :: ' ' :: others

def spellMembers : List (String × Value) → Except Fault (List Char)
  | [] => .ok []
  | [(k, v)] => do
    let entry ← spell v
    return Text.quoted k.toList ++ ':' :: ' ' :: entry
  | (k, v) :: ms => do
    let entry ← spell v
    let others ← spellMembers ms
    return Text.quoted k.toList ++ ':' :: ' ' :: (entry ++ ',' :: ' ' :: others)

end

/-- The value as a part of a message: a text as it is, any other value spelled out. -/
def shown : Value → Except Fault String
  | text s => .ok s
  | v => v.spell.map String.ofList

/-- The arguments of an outside failure as its text: the only one as it is, several in brackets. -/
def shownArguments : List Value → Except Fault String
  | [] => .ok ""
  | [v] => v.shown
  | vs => (spellItems vs).map fun cs => String.ofList ('(' :: (cs ++ [')']))

end Value

end RestDemo

import RestDemo.Value.Basic
import RestDemo.Fault
import RestDemo.Number.Text

/-!
# Literals of conditions

The right side of a condition is a word, a text in quotes, a number, or else a text without quotes.
The digits of a number may be of any script, and a line break may follow it.
-/

namespace RestDemo.Literal

/-- The digits at the front of a text, of any script, and the rest. -/
def spanDigits (cs : List Char) : List Char × List Char :=
  (cs.takeWhile Text.isDigit, cs.dropWhile Text.isDigit)

structure Numeral where
  negative : Bool
  whole : List Char
  fraction : Option (List Char)
  exponent : Option (Bool × List Char)

/-- Reads the fraction of a number, if there is a point: digits must follow it. -/
def fraction? : List Char → Option (Option (List Char) × List Char)
  | '.' :: cs =>
    if (spanDigits cs).1.isEmpty then none else some (some (spanDigits cs).1, (spanDigits cs).2)
  | cs => some (none, cs)

/-- Reads the exponent of a number, if there is a mark of one: digits must follow it. -/
def exponent? : List Char → Option (Option (Bool × List Char) × List Char)
  | [] => some (none, [])
  | c :: cs =>
    if c = 'e' ∨ c = 'E' then
      let (negative, ds) := Number.splitSign cs
      if (spanDigits ds).1.isEmpty then none
      else some (some (negative, (spanDigits ds).1), (spanDigits ds).2)
    else some (none, c :: cs)

/-- Reads a number that makes up the text, save a line break at its end. -/
def numeral? (cs : List Char) : Option Numeral := do
  let (negative, cs) := match cs with
    | '-' :: cs => (true, cs)
    | cs => (false, cs)
  let whole := (spanDigits cs).1
  if whole.isEmpty then none
  let (fraction, cs) ← fraction? (spanDigits cs).2
  let (exponent, cs) ← exponent? cs
  if cs = [] ∨ cs = ['\n'] then some ⟨negative, whole, fraction, exponent⟩ else none

/-- The value of a number: an integer if it has neither fraction nor exponent. -/
def Numeral.value (n : Numeral) : Except Fault Value :=
  match n.fraction, n.exponent with
  | none, none =>
    if n.whole.length ≤ Number.maxDigits then .ok (.int (Number.ofSignDigits n.negative n.whole))
    else .error (.tooManyDigits n.whole.length)
  | fraction, exponent =>
    let fraction := fraction.getD []
    let power : Int := match exponent with
      | some (negative, digits) => Number.ofSignDigits negative digits
      | none => 0
    let x := Number.nearest (Text.digitsValue (n.whole ++ fraction)) (power - fraction.length)
    .ok (.float (if n.negative then -x else x))

/-- The text between the quotes that a literal begins and ends with. -/
def quoted? : List Char → Option (List Char)
  | [] => none
  | q :: cs =>
    if (q = '\'' ∨ q = '"') ∧ cs.getLast? = some q then some cs.dropLast else none

def read (cs : List Char) : Except Fault Value :=
  if cs = "true".toList then .ok (.bool true)
  else if cs = "false".toList then .ok (.bool false)
  else if cs = "null".toList then .ok .null
  else match quoted? cs with
    | some inner => .ok (.text (String.ofList inner))
    | none =>
      match numeral? cs with
      | some n => n.value
      | none => .ok (.text (String.ofList cs))

end RestDemo.Literal

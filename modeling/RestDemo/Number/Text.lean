import RestDemo.Text.Digit
import RestDemo.Number.Shortest

/-!
# Numbers as text

Integers are read and written in base ten, up to a fixed number of digits. Floating-point numbers
are written with the fewest digits that read back, positionally in a middle range of sizes.
-/

namespace RestDemo.Number

/-- The greatest number of digits of an integer that is read or written. -/
def maxDigits : Nat := 4300

/-- The decimal digits of an integer, after a minus sign if it is negative. -/
def intDigits (n : Int) : List Char :=
  if n < 0 then '-' :: Nat.toDigits 10 n.natAbs else Nat.toDigits 10 n.natAbs

/-- The text of an integer, if it has at most `maxDigits` digits. -/
def intText? (n : Int) : Option (List Char) :=
  if (Nat.toDigits 10 n.natAbs).length ≤ maxDigits then some (intDigits n) else none

/-- How floating-point numbers are laid out. -/
structure FloatLayout where
  /-- The least power of ten of a first digit that is written positionally. -/
  leastPositional : Int
  /-- The least power of ten of a first digit from which on the exponent is written again. -/
  positionalEnd : Int
  /-- The least number of digits in an exponent. -/
  exponentWidth : Nat
  infinity : String
  /-- The spelling of what is not a number. -/
  nan : String

namespace FloatLayout

/-- The exponent mark, a sign and the exponent's digits. -/
def exponentPart (l : FloatLayout) (e : Int) : List Char :=
  let digits := Nat.toDigits 10 e.natAbs
  'e' :: (if e < 0 then '-' else '+') ::
    (List.replicate (l.exponentWidth - digits.length) '0' ++ digits)

/-- The text of `digits · 10 ^ e`; a positional text has a digit on each side of the point. -/
def decimal (l : FloatLayout) (digits : List Char) (e : Int) : List Char :=
  let power := digits.length + e - 1
  if l.leastPositional ≤ power ∧ power < l.positionalEnd then
    if power < 0 then
      '0' :: '.' :: (List.replicate (-power - 1).toNat '0' ++ digits)
    else if 0 ≤ e then
      digits ++ List.replicate e.toNat '0' ++ ['.', '0']
    else
      digits.take (power + 1).toNat ++ '.' :: digits.drop (power + 1).toNat
  else
    match digits with
    | [] => []
    | [d] => d :: l.exponentPart power
    | d :: ds => d :: '.' :: (ds ++ l.exponentPart power)

def text (l : FloatLayout) (x : Float) : List Char :=
  let signed (negative : Bool) (cs : List Char) := if negative then '-' :: cs else cs
  match Binary64.ofFloat x with
  | .nan => l.nan.toList
  | .infinite negative => signed negative l.infinity.toList
  | .finite negative m q =>
    signed negative <|
      if m = 0 then ['0', '.', '0']
      else
        let (n, e) := shortest m q
        l.decimal (Nat.toDigits 10 n) e

end FloatLayout

/-- Numbers stand with their digits in place from `0.0001` to below `10 ^ 16`, and otherwise with an
exponent of two digits or more. -/
def plainLayout : FloatLayout := ⟨-4, 16, 2, "inf", "nan"⟩

/-- The text of a floating-point number outside documents. -/
def floatText (x : Float) : List Char :=
  plainLayout.text x

/-- The sign at the head of a number's text, and what follows it. -/
def splitSign : List Char → Bool × List Char
  | '-' :: cs => (true, cs)
  | '+' :: cs => (false, cs)
  | cs => (false, cs)

/-- The digits of an underscored row: single underscores may stand between digits. -/
def groupedDigits? : List Char → Option (List Char)
  | [] => none
  | [c] => if Text.isDigit c then some [c] else none
  | c :: '_' :: cs => if Text.isDigit c then (groupedDigits? cs).map (c :: ·) else none
  | c :: cs => if Text.isDigit c then (groupedDigits? cs).map (c :: ·) else none

def ofSignDigits (negative : Bool) (digits : List Char) : Int :=
  let n : Int := Text.digitsValue digits
  if negative then -n else n

end RestDemo.Number

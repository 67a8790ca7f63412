import RestDemo.Value.Basic
import RestDemo.Number.Text
import RestDemo.Text.Blank
import RestDemo.Text.Code
import RestDemo.Yaml.Date
import RestDemo.Yaml.Source

/-!
# Meaning of scalars

A scalar is nothing, a truth value, an integer, a floating-point number, a date or a text. A plain
scalar is so by its spelling, which `Kind.ofPlain` looks at, and `Kind.value` gives the value.
Integers may be binary, octal, decimal, hexadecimal or in base sixty; a floating-point number needs
a point, and its exponent a sign. Underscores may stand among the digits.
-/

namespace RestDemo.Yaml

inductive Kind where
  | null
  | bool
  | int
  | float
  | date
  | text
  /-- The sign, as a key, that the value beside it is merged into the mapping. -/
  | merge
  /-- The sign of a default value, which as a key is a text. -/
  | standIn
  /-- Something that no value is made of. -/
  | foreign
  deriving DecidableEq, Repr

namespace Kind

/-! ## Spellings -/

/-- Whether a character is a digit of a base of at most sixteen. -/
def isDigitIn (base : Nat) (c : Char) : Bool :=
  (Text.hexValue? c).any (· < base)

/-- Whether all characters are digits of a base or underscores, and there are some. -/
def areDigits (base : Nat) (cs : List Char) : Bool :=
  !cs.isEmpty && cs.all fun c => c = '_' || isDigitIn base c

/-- The parts of a text between its colons. -/
def parts : List Char → List (List Char)
  | [] => [[]]
  | c :: cs =>
    if c = ':' then [] :: parts cs
    else match parts cs with
      | part :: others => (c :: part) :: others
      | [] => [[c]]

/-- Whether a text is a number below sixty, of one digit or two. -/
def isBelowSixty (cs : List Char) : Bool :=
  cs.all Text.isAsciiDigit &&
    (cs.length = 1 || (cs.length = 2 && Text.digitsValue cs < 60))

/-- Whether a text is a row of digits, or such a row and further numbers below sixty after colons.
The row starts with a digit. -/
def isBaseSixty (cs : List Char) : Bool :=
  match parts cs with
  | first :: others =>
    areDigits 10 first && first.head? ≠ some '_' && others.all isBelowSixty
  | [] => false

def isUnsignedInt : List Char → Bool
  | ['0'] => true
  | '0' :: 'b' :: cs => areDigits 2 cs
  | '0' :: 'x' :: cs => areDigits 16 cs
  | '0' :: cs => areDigits 8 cs
  | cs => isBaseSixty cs

/-- Whether a text is the exponent of a floating-point number, or empty. -/
def isExponent : List Char → Bool
  | [] => true
  | mark :: sign :: cs =>
    (mark = 'e' || mark = 'E') && (sign = '+' || sign = '-') && !cs.isEmpty &&
      cs.all Text.isAsciiDigit
  | _ => false

/-- Whether a text is a floating-point number after its sign, if it has one. Without a sign the
digits before the point may be left out. -/
def isUnsignedFloat (signed : Bool) (cs : List Char) : Bool :=
  let among (c : Char) : Bool := c = '_' || Text.isAsciiDigit c
  match cs.dropWhile (· ≠ '.') with
  | _ :: rest =>
    let whole := cs.takeWhile (· ≠ '.')
    let fraction := rest.takeWhile among
    if whole.isEmpty then
      !signed && (fraction.head?.any Text.isAsciiDigit) && isExponent (rest.dropWhile among)
    else
      isBaseSixty whole && isExponent (rest.dropWhile among) &&
        (rest.all among || !whole.contains ':')
  | [] => false

def words : List (Kind × List String) :=
  [(null, ["", "~", "null", "Null", "NULL"]),
    (bool, ["yes", "Yes", "YES", "no", "No", "NO", "true", "True", "TRUE", "false", "False",
      "FALSE", "on", "On", "ON", "off", "Off", "OFF"]),
    (float, [".nan", ".NaN", ".NAN", ".inf", ".Inf", ".INF", "+.inf", "+.Inf", "+.INF",
      "-.inf", "-.Inf", "-.INF"]),
    (merge, ["<<"]),
    (standIn, ["="])]

/-- What a plain scalar is by its spelling. -/
def ofPlain (cs : List Char) : Kind :=
  match words.find? fun (_, spellings) => spellings.contains (String.ofList cs) with
  | some (kind, _) => kind
  | none =>
    let unsigned := (Number.splitSign cs).2
    if isUnsignedInt unsigned then int
    else if isUnsignedFloat (unsigned.length ≠ cs.length) unsigned then float
    else if Date.isPlain cs then date
    else text

/-! ## Values -/

/-- The truth value that a word stands for, in whatever case. -/
def truth? (cs : List Char) : Option Bool :=
  let word := String.ofList (cs.map Char.toLower)
  if word ∈ ["yes", "true", "on"] then some true
  else if word ∈ ["no", "false", "off"] then some false
  else none

/-- The integer that a text is in a base. In base ten the number of digits is limited. -/
def intIn (base : Nat) (cs : List Char) : Except Fault Int :=
  let (negative, digits) := Number.splitSign (Text.trim cs)
  if digits.isEmpty || !digits.all (isDigitIn base) then
    .error (.noInteger base (String.ofList cs))
  else if base = 10 && Number.maxDigits < digits.length then
    .error (.tooManyDigits digits.length)
  else
    let n : Int := digits.foldl (fun n c => base * n + (Text.hexValue? c).getD 0) 0
    .ok (if negative then -n else n)

/-- The integer of an integer's text without its sign and underscores. -/
def unsignedInt (cs : List Char) : Except Fault Int :=
  match cs with
  | [] => .error .noPlace
  | ['0'] => .ok 0
  | '0' :: 'b' :: cs => intIn 2 cs
  | '0' :: 'x' :: cs => intIn 16 cs
  | '0' :: _ => intIn 8 cs
  | cs => do
    let ns ← (parts cs).mapM (intIn 10)
    return ns.foldl (fun n d => 60 * n + d) 0

def intValue (cs : List Char) : Except Fault Int :=
  let (negative, unsigned) := Number.splitSign (cs.filter (· ≠ '_'))
  (unsignedInt unsigned).map fun n => if negative then -n else n

/-- The exponent that makes up the rest of a decimal. -/
def exponent? : List Char → Option Int
  | [] => some 0
  | mark :: cs =>
    let (negative, digits) := Number.splitSign cs
    if mark = 'e' && !digits.isEmpty && digits.all Text.isDigit then
      some (Number.ofSignDigits negative digits)
    else none

/-- The floating-point number of a decimal, in which digits may be missing on one side of the
point. -/
def decimal? (cs : List Char) : Option Float :=
  let whole := cs.takeWhile Text.isDigit
  let (fraction, rest) := match cs.dropWhile Text.isDigit with
    | '.' :: rest => (rest.takeWhile Text.isDigit, rest.dropWhile Text.isDigit)
    | rest => ([], rest)
  if whole.isEmpty && fraction.isEmpty then none
  else (exponent? rest).map fun e =>
    Number.nearest (Text.digitsValue (whole ++ fraction)) (e - fraction.length)

/-- The floating-point number that a text in lower case is. -/
def floatOf (cs : List Char) : Except Fault Float :=
  let (negative, unsigned) := Number.splitSign (Text.trim cs)
  let size := match String.ofList unsigned with
    | "inf" | "infinity" => some (1 / 0)
    | "nan" => some (0 / 0)
    | _ => decimal? unsigned
  match size with
  | some x => .ok (if negative then -x else x)
  | none => .error (.noFloat (String.ofList cs))

/-- The sum of numbers in base sixty, of which the last one counts once: `weight` is what the one at
the head counts. -/
def sumSixties (weight : Nat) (sum : Float) : List Float → Except Fault Float
  | [] => .ok sum
  | x :: xs =>
    let w := Number.nearest weight 0
    if w.isInf then .error .tooLarge else sumSixties (60 * weight) (sum + x * w) xs

/-- The floating-point number of a text without its sign and underscores, in lower case. -/
def unsignedFloat (cs : List Char) : Except Fault Float :=
  match String.ofList cs with
  | ".inf" => .ok (1 / 0)
  | ".nan" => .ok (0 / 0)
  | _ =>
    if cs.contains ':' then do
      let xs ← (parts cs).mapM floatOf
      sumSixties 1 0 xs.reverse
    else floatOf cs

def floatValue (cs : List Char) : Except Fault Float :=
  let cs := (cs.filter (· ≠ '_')).map Char.toLower
  if cs.isEmpty then .error .noPlace
  else
    let (negative, unsigned) := Number.splitSign cs
    (unsignedFloat unsigned).map fun x => if negative then -x else x

/-- Why a date has no value: it is no day of the calendar, or it is one, which is no value here. -/
def dateFault (cs : List Char) : Fault :=
  match Date.ofText? cs with
  | none => .noMember
  | some d => (d.flaw?.map .noDate).getD .noValue

/-- The value of a scalar of a kind with a given text. -/
def value (cs : List Char) (kind : Kind) : Except DocumentError Value :=
  match kind with
  | null => .ok .null
  | bool => ((truth? cs).map .bool).elim (.error (.fault .noEntry)) .ok
  | int => ((intValue cs).map .int).mapError .fault
  | float => ((floatValue cs).map .float).mapError .fault
  | date => .error (.fault (dateFault cs))
  | text => .ok (.text (String.ofList cs))
  | merge | standIn | foreign => .error .malformed

end Kind

end RestDemo.Yaml

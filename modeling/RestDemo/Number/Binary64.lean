/-!
# Floating-point numbers as exact values

A 64-bit number is not a number at all, an infinity, or a whole multiple of a power of two. Exact
questions (is it whole, which integer is it) are answered on that form.
-/

namespace RestDemo.Number

def twoTo (n : Nat) : Nat := Nat.pow 2 n

def tenTo (n : Nat) : Nat := Nat.pow 10 n

/-- What a 64-bit floating-point number stands for. -/
inductive Binary64 where
  | nan
  | infinite (negative : Bool)
  /-- The value `mantissa · 2 ^ exponent`, negated if `negative`. -/
  | finite (negative : Bool) (mantissa : Nat) (exponent : Int)
  deriving DecidableEq, Repr

namespace Binary64

/-- The value of the number with the given bits: a sign, eleven bits of exponent, 52 of fraction. -/
def ofBits (bits : Nat) : Binary64 :=
  let negative := twoTo 63 ≤ bits
  let e : Nat := bits / twoTo 52 % twoTo 11
  let f : Nat := bits % twoTo 52
  if e = 2047 then
    if f = 0 then infinite negative else nan
  else if e = 0 then finite negative f (-1074)
  else finite negative (twoTo 52 + f) (e - 1075)

def ofFloat (x : Float) : Binary64 :=
  ofBits x.toBits.toNat

def whole? : Binary64 → Option Int
  | finite negative m (.ofNat e) =>
    let n : Int := (m * twoTo e : Nat)
    some (if negative then -n else n)
  | finite negative m (.negSucc e) =>
    if m % twoTo (e + 1) = 0 then
      let n : Int := (m / twoTo (e + 1) : Nat)
      some (if negative then -n else n)
    else none
  | _ => none

end Binary64

/-- The integer that a floating-point number is, if it is one. -/
def whole? (x : Float) : Option Int :=
  (Binary64.ofFloat x).whole?

/-- The floating-point number nearest to `digits · 10 ^ exponent`, infinite past the largest one.
A decimal with its first digit outside `10 ^ -400` to `10 ^ 400` is settled by its size. -/
def nearest (digits : Nat) (exponent : Int) : Float :=
  let magnitude := (Nat.toDigits 10 digits).length + exponent
  if digits = 0 then 0
  else if magnitude > 400 then 1 / 0
  else if magnitude < -400 then 0
  else match exponent with
    | .ofNat e => Float.ofScientific digits false e
    | .negSucc e => Float.ofScientific digits true (e + 1)

/-- The floating-point number nearest to an integer, if the integer is not past the largest one. -/
def nearestInt? (n : Int) : Option Float :=
  let x := nearest n.natAbs 0
  if x.isInf then none else some (if n < 0 then -x else x)

end RestDemo.Number

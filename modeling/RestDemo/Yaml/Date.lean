import RestDemo.Fault
import RestDemo.Text.Digit

/-!
# Dates

A date is written as year, month and day, and may have a time of day after it, and with that a
distance from universal time. `Date.flaw?` says what keeps the numbers from being a day of the
calendar and a time of it.
-/

namespace RestDemo.Yaml

structure TimeOfDay where
  hour : Nat
  minute : Nat
  second : Nat
  /-- The distance from universal time in minutes, if one is written in numbers. -/
  offset : Option Int

structure Date where
  year : Nat
  month : Nat
  day : Nat
  time : Option TimeOfDay

namespace Date

/-- A number of at least `least` and at most `most` digits at the front of a text. -/
def number? (least most : Nat) (cs : List Char) : Option (Nat × List Char) :=
  let digits := (cs.take most).takeWhile Text.isAsciiDigit
  if digits.length < least then none
  else some (Text.digitsValue digits, cs.drop digits.length)

/-- A number of at least `least` digits and at most two after a mark. -/
def marked? (mark : Char) (least : Nat) : List Char → Option (Nat × List Char)
  | c :: cs => if c = mark then number? least 2 cs else none
  | [] => none

/-- The distance from universal time that makes up the rest of a text. -/
def offset? : List Char → Option (Option Int)
  | [] => some none
  | ['Z'] => some none
  | sign :: cs =>
    if sign = '+' ∨ sign = '-' then do
      let (hours, cs) ← number? 1 2 cs
      let (minutes, cs) ← if cs.isEmpty then some (0, []) else marked? ':' 2 cs
      let total : Int := (60 * hours + minutes : Nat)
      if cs.isEmpty then some (some (if sign = '-' then -total else total)) else none
    else none

def afterBlanks (cs : List Char) : List Char :=
  cs.dropWhile fun c => c = ' ' || c = '\t'

/-- The time of day that makes up the rest of a text. -/
def time? (cs : List Char) : Option TimeOfDay := do
  let (hour, cs) ← number? 1 2 cs
  let (minute, cs) ← marked? ':' 2 cs
  let (second, cs) ← marked? ':' 2 cs
  let cs := match cs with
    | '.' :: cs => cs.dropWhile Text.isAsciiDigit
    | cs => cs
  let rest := afterBlanks cs
  if rest.isEmpty && !cs.isEmpty then none
  return ⟨hour, minute, second, ← offset? rest⟩

def ofText? (cs : List Char) : Option Date := do
  let (year, cs) ← number? 4 4 cs
  let (month, cs) ← marked? '-' 1 cs
  let (day, cs) ← marked? '-' 1 cs
  match cs with
  | [] => return ⟨year, month, day, none⟩
  | c :: rest =>
    if c = 'T' || c = 't' then return ⟨year, month, day, some (← time? rest)⟩
    else if c = ' ' || c = '\t' then return ⟨year, month, day, some (← time? (afterBlanks rest))⟩
    else none

/-- Whether a plain text is a date: without a time it has all its digits. -/
def isPlain (cs : List Char) : Bool :=
  (ofText? cs).any fun d => d.time.isSome || cs.length = 10

def daysIn (year month : Nat) : Nat :=
  if month = 2 then
    if year % 4 = 0 ∧ (year % 100 ≠ 0 ∨ year % 400 = 0) then 29 else 28
  else if month ∈ [4, 6, 9, 11] then 30
  else 31

/-- What is wrong with a distance from universal time: it is less than a day. -/
def offsetFlaw? (minutes : Int) : Option DateFlaw :=
  if minutes.natAbs < 1440 then none
  else some (.offset (Int.fdiv minutes 1440) (60 * (Int.fmod minutes 1440).toNat))

/-- What is wrong with a time of day, its distance from universal time apart. -/
def TimeOfDay.flaw? (t : TimeOfDay) : Option DateFlaw :=
  if 24 ≤ t.hour then some .hour
  else if 60 ≤ t.minute then some .minute
  else if 60 ≤ t.second then some .second
  else none

/-- What is wrong with a date: the distance from universal time is looked at first. -/
def flaw? (d : Date) : Option DateFlaw :=
  ((d.time.bind TimeOfDay.offset).bind offsetFlaw?).or <|
    if d.year = 0 then some (.year d.year)
    else if d.month = 0 ∨ 12 < d.month then some .month
    else if d.day = 0 ∨ daysIn d.year d.month < d.day then some .day
    else d.time.bind TimeOfDay.flaw?

end Date

end RestDemo.Yaml

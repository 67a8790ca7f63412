import RestDemo.Text.Quoted

/-!
# Faults

A fault ends whatever was going on. It is not a failure of a demo's step, which a run reports and
survives: it comes from a document with a value of the wrong kind, from a limit on numbers or
nesting, from text that is no text, or from outside.
-/

namespace RestDemo

/-- Why bytes are not the text that they should be. -/
structure Undecodable where
  /-- The position of the first offending byte. -/
  first : Nat
  /-- The position of the last offending byte. -/
  last : Nat
  /-- The first offending byte. -/
  byte : Nat
  reason : String
  deriving DecidableEq, Repr

/-- What is wrong with a date, a time of day or its distance from universal time. -/
inductive DateFlaw where
  | year (n : Nat)
  | month
  | day
  | hour
  | minute
  | second
  /-- The distance takes a day or more: in whole days, and the seconds past them. -/
  | offset (days : Int) (seconds : Nat)
  deriving DecidableEq, Repr

/-- Why an operation cannot go on. -/
inductive Fault where
  /-- A part was asked for that values of this kind do not have. -/
  | noMember
  /-- An operation was applied to a value of a kind that it does not cover. -/
  | noOperation
  /-- An entry was asked for under a name that has none. -/
  | noEntry
  /-- The first character of an empty text was asked for. -/
  | noPlace
  /-- The text of an integer has more digits than are read: so many. -/
  | tooManyDigits (digits : Nat)
  /-- An integer has more digits than are written. -/
  | tooLong
  /-- A text is no integer in a base. -/
  | noInteger (base : Nat) (text : String)
  /-- A text is no floating-point number. -/
  | noFloat (text : String)
  /-- No day of the calendar, or no time of it. -/
  | noDate (flaw : DateFlaw)
  /-- A code lies beyond the last character. -/
  | noCharacter
  /-- An integer lies beyond the numbers that it has to be one of. -/
  | tooLarge
  /-- A document is nested deeper than is followed. -/
  | tooDeep
  /-- A directory stands where a file is read. -/
  | directory
  /-- A path is longer than paths can be. -/
  | pathTooLong
  /-- Bytes are not UTF-8 text. -/
  | undecodable (cause : Undecodable)
  /-- A text cannot be printed, for a reason in words. -/
  | unencodable (reason : String)
  /-- A document holds what there is no value for. -/
  | noValue
  /-- An operation does not come to an end. -/
  | endless
  /-- A logger was given an event of a level that it does not have. -/
  | unknownLevel (level : String)
  /-- The console was set to a level that does not exist. -/
  | unknownThreshold (level : String)
  /-- Something outside failed with this text. -/
  | crash (text : String)
  deriving DecidableEq, Repr

def DateFlaw.message : DateFlaw → String
  | year n => "year " ++ Nat.repr n ++ " is out of range"
  | month => "month must be in 1..12"
  | day => "day is out of range for month"
  | hour => "hour must be in 0..23"
  | minute => "minute must be in 0..59"
  | second => "second must be in 0..59"
  | offset days seconds =>
    let parts := ["days=" ++ (if days < 0 then "-" else "") ++ Nat.repr days.natAbs] ++
      if seconds = 0 then [] else ["seconds=" ++ Nat.repr seconds]
    "offset must be a timedelta strictly between -timedelta(hours=24) and timedelta(hours=24), " ++
      "not datetime.timedelta(" ++ ", ".intercalate parts ++ ")."

namespace Fault

def hexByte (n : Nat) : String :=
  String.ofList [Nat.digitChar (n / 16 % 16), Nat.digitChar (n % 16)]

/-- What a program says of a fault that lies in a value given to it, and nothing of any other. -/
def message? : Fault → Option String
  | tooManyDigits n =>
    some ("Exceeds the limit (4300 digits) for integer string conversion: value has " ++
      Nat.repr n ++ " digits; use sys.set_int_max_str_digits() to increase the limit")
  | tooLong =>
    some ("Exceeds the limit (4300 digits) for integer string conversion; " ++
      "use sys.set_int_max_str_digits() to increase the limit")
  | noInteger base text =>
    some ("invalid literal for int() with base " ++ Nat.repr base ++ ": " ++
      String.ofList (Text.quoted text.toList))
  | noFloat text =>
    some ("could not convert string to float: " ++ String.ofList (Text.quoted text.toList))
  | noDate flaw => some flaw.message
  | noCharacter => some "chr() arg not in range(0x110000)"
  | undecodable c =>
    let place :=
      if c.first = c.last then
        "byte 0x" ++ hexByte c.byte ++ " in position " ++ Nat.repr c.first
      else "bytes in position " ++ Nat.repr c.first ++ "-" ++ Nat.repr c.last
    some ("'utf-8' codec can't decode " ++ place ++ ": " ++ c.reason)
  | unencodable reason => some reason
  | unknownLevel level => some ("Unknown log level: " ++ level)
  | unknownThreshold level => some ("Level '" ++ level ++ "' does not exist")
  | _ => none

end Fault

/-- Why a text has no value: it is no document, or a fault comes up in it. -/
inductive DocumentError where
  | malformed
  | fault (f : Fault)
  deriving DecidableEq, Repr

end RestDemo

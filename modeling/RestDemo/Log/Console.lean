import RestDemo.Log.Line
import RestDemo.Text.Casing

/-!
# The console

The console shows the events from a threshold upward, one a line, after whatever else was printed. A
console that was not set up shows none, but an event that cannot be written is a fault all the same.
-/

namespace RestDemo

/-- The weight of a level; what no logger tells has none. -/
def Level.weight : Level → Nat
  | debug => 10
  | info => 20
  | warning => 30
  | error => 40
  | other _ => 0

/-- What was printed, and from which weight on events are shown, if they are. -/
structure Console where
  threshold : Option Nat
  printed : String
  deriving DecidableEq, Repr

namespace Console

/-- A console that was not set up. -/
def blank : Console := ⟨none, ""⟩

def thresholds : Table Nat :=
  [("TRACE", 5), ("DEBUG", 10), ("INFO", 20), ("SUCCESS", 25), ("WARNING", 30), ("ERROR", 40),
    ("CRITICAL", 50)]

def defaultThreshold : String := "INFO"

def print (text : String) (c : Console) : Console :=
  { c with printed := c.printed ++ text }

def shows (level : Level) (c : Console) : Bool :=
  c.threshold.any (· ≤ level.weight)

/-- The console without a threshold: it shows no more events. -/
def mute (c : Console) : Console :=
  { c with threshold := none }

/-- Sets the threshold by its name in any case. Under a name that does not exist the console shows
no more events. -/
def setUp (name : String) (c : Console) : Except Fault Unit × Console :=
  match thresholds.get? (Text.upper name) with
  | some weight => (.ok (), { c with threshold := some weight })
  | none => (.error (.unknownThreshold (Text.upper name)), c.mute)

def tell (e : Event) (c : Console) : Except Fault Console := do
  let line ← e.line
  return if c.shows e.level then c.print line else c

end Console

end RestDemo

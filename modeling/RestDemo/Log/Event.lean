import RestDemo.Value.Basic

/-!
# Events

What happens is told as events: a level, a name, and fields that say more.
-/

namespace RestDemo

inductive Level where
  | debug
  | info
  | warning
  | error
  /-- A level that no logger tells events at. -/
  | other (word : String)
  deriving DecidableEq, Repr

namespace Level

def word : Level → String
  | debug => "debug"
  | info => "info"
  | warning => "warning"
  | error => "error"
  | other word => word

/-- The levels that loggers tell events at. -/
def told : List Level := [debug, info, warning, error]

def ofWord? (word : String) : Option Level :=
  told.find? fun l => l.word == word

def ofWord (word : String) : Level :=
  (ofWord? word).getD (other word)

end Level

structure Event where
  level : Level
  name : String
  fields : Table Value

end RestDemo

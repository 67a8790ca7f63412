import RestDemo.Value.Basic
import RestDemo.Text.Casing

/-!
# Masking

Values under sensitive names are replaced before they are logged. A name is sensitive in any
spelling of its letters; nothing under a sensitive name stays nothing.
-/

namespace RestDemo.Masking

/-- The names whose values are not shown, in lower case. -/
def sensitiveNames : List String :=
  ["authorization", "proxy-authorization", "cookie", "set-cookie", "x-api-key", "api_key", "apikey",
    "password", "secret", "token", "access_token", "refresh_token"]

def isSensitive (name : String) : Bool :=
  sensitiveNames.contains (Text.lower name)

def mask : Value := .text "********"

def isPresent : Option Value → Bool
  | some .null => false
  | _ => true

/-- A value as it is shown under a name. What is absent is not nothing, and is masked as well. -/
def maskUnder (name : String) (v : Option Value) : Option Value :=
  if isSensitive name && isPresent v then some mask else v

/-- A value that is there, as it is shown under a name. -/
def maskEntry (name : String) : Value → Value
  | .null => .null
  | v => if isSensitive name then mask else v

def maskTable (t : Table Value) : Table Value :=
  t.mapEntries maskEntry

mutual

/-- A value with everything under sensitive names masked, at any depth. -/
def maskAll : Value → Value
  | .list items => .list (maskItems items)
  | .object members => .object (maskMembers members)
  | v => v

def maskItems : List Value → List Value
  | [] => []
  | v :: vs => maskAll v :: maskItems vs

def maskMembers : List (String × Value) → List (String × Value)
  | [] => []
  | (k, v) :: ms => (k, maskEntry k (maskAll v)) :: maskMembers ms

end

end RestDemo.Masking

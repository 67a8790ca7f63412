import RestDemo.Template
import RestDemo.Text.Casing

/-!
# Headers

The headers of a request: those of the step, filled and turned into texts, over the default ones. A
default gives way to a header of its name in any spelling.
-/

namespace RestDemo.Headers

/-- The headers that a request has unless a step gives others. -/
def defaults : Table String :=
  [("Content-Type", "application/json")]

def entries : List (String × Value) → Except Fault (Table String)
  | [] => .ok []
  | (k, v) :: ms => do
    let value ← Template.embed v
    let others ← entries ms
    return (k, String.ofList value) :: others

/-- The defaults that none of the given headers replaces, followed by these. -/
def overDefaults (given : Table String) : Table String :=
  let lowered := given.names.map Text.lower
  Table.overlay (defaults.filter fun (k, _) => !lowered.contains (Text.lower k)) given

/-- The headers of a request, from those that a step gives. -/
def build (given : Value) (store : Store) : Except Fault (Table String) := do
  let given := given.orElse (.object [])
  match ← Template.fillValue store given with
  | .object members =>
    let overrides ← entries members
    return overDefaults overrides
  | _ => throw .noMember

end RestDemo.Headers

import RestDemo.Path
import RestDemo.Json.Reader

/-!
# Saving parts of an answer

A step may save parts of the answer as variables. Its mapping gives each variable a path, or the
word for the status. A path that leads nowhere, or an answer without a document, saves nothing under
its name.
-/

namespace RestDemo.Binding

/-- The word that stands for the status of an answer in place of a path. -/
def statusWord : String := "_status"

/-- What a path finds in an answer: the status under its word, and nothing where there is no
document. -/
def found (status : Int) (body path : Value) : Except Fault (Option Value) :=
  match path, body with
  | .text path, body =>
    if path = statusWord then .ok (some (.int status))
    else match body with
      | .null => .ok none
      | body => Path.extract (some body) path
  | _, .null => .ok none
  | path, body => Path.extractAt body path

/-- What saving comes to: the variables afterwards and those bound now. -/
structure Saved where
  store : Store
  bound : Table Value

/-- Saves under each name what its path finds, in order. A path that cannot be followed ends it;
what was saved before stays. -/
def saveEntries (status : Int) (body : Value) :
    List (String × Value) → Saved → Saved × Option Fault
  | [], saved => (saved, none)
  | (name, path) :: rest, saved =>
    match found status body path with
    | .error fault => (saved, some fault)
    | .ok none => saveEntries status body rest saved
    | .ok (some v) =>
      saveEntries status body rest ⟨Table.set name v saved.store, Table.set name v saved.bound⟩

/-- Applies the mapping that a step gives; one that does not count as given is empty. -/
def save (mapping : Value) (status : Int) (body : Value) (store : Store) : Saved × Option Fault :=
  match mapping with
  | .object members => saveEntries status body members ⟨store, []⟩
  | mapping => (⟨store, []⟩, if mapping.isTruthy then some .noMember else none)

end RestDemo.Binding

import RestDemo.Json.Writer
import RestDemo.Log.Event

/-!
# Lines of events

An event is one line of text: its name, a blank, and its fields as JSON. The fields say of what type
the event is; where they do not, its name is added. No field can break the line, since a new line
inside a text is written as an escape.
-/

namespace RestDemo.Event

def typedFields (e : Event) : Table Value :=
  if e.fields.has "type" then e.fields else e.fields ++ [("type", .text e.name)]

def line (e : Event) : Except Fault String := do
  let fields ← Json.text Json.spaced (.object e.typedFields)
  return e.name ++ " " ++ fields ++ "\n"

def unwritable (e : Event) : Option Fault :=
  match e.line with
  | .ok _ => none
  | .error f => some f

end RestDemo.Event

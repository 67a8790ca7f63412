import RestDemo.Http
import RestDemo.Value.Basic

/-!
# Scripted replies

What comes of each request can be written down beforehand: a mapping with the `status` and the
`text` of an answer, with a reason to `fail`, or with a text to `crash` with.
-/

namespace RestDemo.Reply

/-- The status of an answer that says none. -/
def usualStatus : Int := 200

/-- The text that a value is, and the empty text if it is none. -/
def textOf : Value → String
  | .text s => s
  | _ => ""

def answerOf (fields : Table Value) : Answer :=
  let status := match Value.field "status" fields with
    | .int n => n
    | _ => usualStatus
  ⟨status, textOf (Value.field "text" fields)⟩

def ofValue : Value → Reply
  | .object fields =>
    match Table.get? "fail" fields, Table.get? "crash" fields with
    | some reason, _ => .unreachable (textOf reason)
    | none, some text => .crash (textOf text)
    | none, none => .answer (answerOf fields)
  | _ => .answer (answerOf [])

end RestDemo.Reply

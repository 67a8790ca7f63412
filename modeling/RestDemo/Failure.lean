import RestDemo.Value.Basic
import RestDemo.Fault

/-!
# Failures of steps

A step fails if its service cannot be reached, or if its polling ends without success. `StepError`
is such a failure, `StepError.message` puts it in words, and `ErrorDetail` is how it is reported. A
`Failure` is one of these or a fault.
-/

namespace RestDemo

inductive StepError where
  | unreachable (method url reason : String)
  /-- The condition of failure held of the last document. -/
  | pollFailed (condition : String) (attempts : Int) (last : Value)
  | pollTimedOut (maxAttempts : Int) (last : Value)
  | pollCancelled (attempts : Int) (last : Value)

namespace StepError

def message : StepError → String
  | unreachable method url reason => method ++ " " ++ url ++ " failed: " ++ reason
  | pollFailed condition attempts _ =>
    "Polling failed: " ++ condition ++ " matched after " ++ Int.repr attempts ++ " attempts"
  | pollTimedOut maxAttempts _ => "Polling timed out after " ++ Int.repr maxAttempts ++ " attempts"
  | pollCancelled attempts _ => "Polling cancelled after " ++ Int.repr attempts ++ " attempts"

/-- The attempts that a polling made, as it counts them. -/
def attempts? : StepError → Option Int
  | unreachable .. => none
  | pollFailed _ attempts _ => some attempts
  | pollTimedOut maxAttempts _ => some maxAttempts
  | pollCancelled attempts _ => some attempts

def code : StepError → String
  | unreachable .. => "transport_error"
  | pollFailed .. => "poll_failed"
  | pollTimedOut .. => "poll_timeout"
  | pollCancelled .. => "poll_cancelled"

end StepError

/-- Why something that was going on ended early. -/
inductive Failure where
  | step (e : StepError)
  | fault (f : Fault)

structure ErrorDetail where
  code : String
  message : String
  stepId : Option String
  attempts : Option Int
  deriving DecidableEq, Repr

namespace ErrorDetail

def ofStepError (e : StepError) (stepId : Option String) : ErrorDetail :=
  ⟨e.code, e.message, stepId, e.attempts?⟩

/-- The report of another failure: its text, or the name of its kind if it has none. -/
def ofOutside (kind text : String) (attempts : Option Int) (stepId : Option String) : ErrorDetail :=
  ⟨"exception", if text = "" then kind else text, stepId, attempts⟩

def toValue (d : ErrorDetail) : Value :=
  .object [
    ("code", .text d.code),
    ("message", .text d.message),
    ("step_id", Value.ofOption (d.stepId.map .text)),
    ("attempts", Value.ofInt? d.attempts)]

end ErrorDetail

end RestDemo

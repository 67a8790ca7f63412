import RestDemo.Binding
import RestDemo.Condition.Basic
import RestDemo.Demo.Basic
import RestDemo.Engine.Basic
import RestDemo.Template

/-!
# Polling

The same request is sent again and again until a condition of success or one of failure holds of the
document that comes back, or no attempt is left. Success is looked for first. Between attempts there
is a pause in which a cancellation may come; it is also looked for before each attempt.
-/

namespace RestDemo.Poll

/-- What a poll has settled on before its first attempt. -/
structure Plan where
  request : Request
  /-- The pause in milliseconds. -/
  interval : Int
  maxAttempts : Int
  successWhen : Value
  failureWhen : Value
  save : Value
  /-- The fields bound to the log. -/
  bound : Table Value

/-- Whether a condition holds of a document. A text that is no condition is told, and does not
hold. -/
def holds (bound : Table Value) (condition document : Value) : Engine Bool := do
  let text ← Engine.orFault (Condition.textOf condition)
  match ← Engine.orFault (Condition.evaluate text (some document)) with
  | .matched => return true
  | .notMatched => return false
  | .unparsable => do
    Engine.log bound .warning "condition.unparsable" [("expr", condition)]
    return false

/-- A pause in seconds, if it is not beyond the floating-point numbers. -/
def seconds (milliseconds : Int) : Except Fault Float :=
  match Number.nearestInt? milliseconds with
  | some x => .ok (x / 1000)
  | none => .error .tooLarge

/-- A pause takes the thousandth part of the number nearest to its milliseconds. -/
theorem seconds_ok_iff {milliseconds : Int} {t : Float} :
    seconds milliseconds = .ok t ↔ ∃ x, Number.nearestInt? milliseconds = some x ∧ t = x / 1000 := by
  unfold seconds
  cases Number.nearestInt? milliseconds <;> simp [eq_comm]

/-- Saves parts of an answer in the store, and tells which names were bound, if any were. -/
def saveAnswer (bound : Table Value) (eventName : String) (mapping : Value) (status : Int)
    (document : Value) : Engine Unit := do
  let store ← Engine.store
  let (saved, fault?) := Binding.save mapping status document store
  Engine.setStore saved.store
  match fault? with
  | some fault => Engine.fail (.fault fault)
  | none =>
    if saved.bound.isEmpty then return ()
    else
      Engine.log bound .info eventName
        [("names", Value.texts (saved.bound.names.mergeSort fun a b => a ≤ b))]

inductive Progress where
  | succeeded (result : PollResult)
  | pending (document : Value)

/-- Ends a poll with an answer of which the condition of success holds. -/
def succeed (plan : Plan) (number : Nat) (answer : Answer) : Engine Progress := do
  let document := Json.bodyValue answer.text
  Engine.log plan.bound .info "poll.succeeded" [("attempts", .int number)]
  saveAnswer plan.bound "poll.variables_saved" plan.save answer.status document
  return .succeeded ⟨number, document, answer.status⟩

/-- Ends a poll with a document of which the condition of failure holds, if it does. -/
def checkFailure (plan : Plan) (number : Nat) (document : Value) : Engine Progress := do
  if !plan.failureWhen.isTruthy then return .pending document
  else if ← holds plan.bound plan.failureWhen document then
    Engine.log plan.bound .error "poll.failed"
      [("attempts", .int number), ("condition", plan.failureWhen)]
    let condition ← Engine.orFault (Condition.textOf plan.failureWhen)
    Engine.fail (.step (.pollFailed condition number document))
  else return .pending document

/-- Looks at the answer to a request of a number. -/
def judge (plan : Plan) (number : Nat) (answer : Answer) : Engine Progress := do
  let took ← Engine.requestTime
  Engine.log plan.bound .debug "poll.attempt"
    [("attempt", .int number), ("status", .int answer.status), ("elapsed_ms", .int took.toNat)]
  let document := Json.bodyValue answer.text
  if ← holds plan.bound plan.successWhen document then succeed plan number answer
  else checkFailure plan number document

/-- Sends the request once more and looks at the answer. -/
def attempt (plan : Plan) (number : Nat) : Engine Progress := do
  let answer ← Engine.send plan.request
  judge plan number answer

def timeOut (plan : Plan) (last : Value) : Engine PollResult := do
  Engine.log plan.bound .error "poll.timeout" [("max_attempts", .int plan.maxAttempts)]
  -- The failure is put in words at once, so the number must not be too long to be written.
  let _ ← Engine.orFault (Number.intText plan.maxAttempts)
  Engine.fail (.step (.pollTimedOut plan.maxAttempts last))

/-- Ends a poll that was cancelled after so many attempts. -/
def cancel (plan : Plan) (attempts : Nat) (last : Value) : Engine PollResult := do
  Engine.log plan.bound .info "poll.cancelled" [("attempts", .int attempts)]
  Engine.fail (.step (.pollCancelled attempts last))

/-- Pauses before the attempts that are left, if there are any, and says whether that was
cancelled. -/
def pauseBefore (plan : Plan) (left : Nat) : Engine Bool := do
  if left = 0 then return false
  else
    let pauseLength ← Engine.orFault (seconds plan.interval)
    Engine.pause pauseLength

/-- Makes the attempts that are left, after so many made and the last document that came back. -/
def attempts (plan : Plan) : Nat → Nat → Value → Engine PollResult
  | 0, _, last => timeOut plan last
  | left + 1, made, last => do
    if ← Engine.isCancelled then cancel plan made last
    else
      match ← attempt plan (made + 1) with
      | .succeeded result => return result
      | .pending document =>
        if ← pauseBefore plan left then cancel plan (made + 1) document
        else attempts plan left (made + 1) document

/-- The address that is polled: the endpoint filled from the store, after the base address. -/
def url (endpoint : Value) (baseUrl : String) : Engine String := do
  let store ← Engine.store
  match ← Engine.orFault (Template.fillGiven store endpoint) with
  | .text endpoint => return resolveUrl endpoint baseUrl
  | _ => Engine.fail (.fault .noMember)

/-- The plan of a poll at an address: what the step leaves open comes from the defaults. -/
def planFor (spec : PollSpec) (url : String) (headers : Table String) (defaults : PollingDefaults)
    (bound : Table Value) : Plan :=
  { request := ⟨"GET", url, headers, none⟩
    interval := (spec.interval.or defaults.interval).getD defaultInterval
    maxAttempts := (spec.maxAttempts.or defaults.maxAttempts).getD defaultMaxAttempts
    successWhen := spec.successWhen
    failureWhen := spec.failureWhen
    save := spec.save
    bound }

def run (spec : PollSpec) (baseUrl : String) (headers : Table String) (defaults : PollingDefaults)
    (bound : Table Value) : Engine PollResult := do
  let plan := planFor spec (← url spec.endpoint baseUrl) headers defaults bound
  Engine.log bound .info "poll.start"
    [("url", .text plan.request.url), ("interval_ms", .int plan.interval),
      ("max_attempts", .int plan.maxAttempts), ("success_when", spec.successWhen),
      ("failure_when", spec.failureWhen)]
  attempts plan plan.maxAttempts.toNat 0 .null

end RestDemo.Poll

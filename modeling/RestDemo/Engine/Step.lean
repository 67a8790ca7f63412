import RestDemo.Engine.Poll
import RestDemo.Headers
import RestDemo.Masking
import RestDemo.RestLine

/-!
# Running a step

A step fills its templates from the store, sends its request, saves parts of the answer, and polls
if it says so. What it saves is there before it polls, and stays if polling fails.
-/

namespace RestDemo.Step

/-- The variables without a value in the templates of a step. -/
def unresolved (step : Step) (store : Store) : List String :=
  let templates := Value.list [.text step.rest, step.headers.orElse (.object []), step.body,
    step.baseUrl.orElse (.text "")]
  Template.missing (Template.variablesIn templates) store

/-- The address before the endpoint: that of the step, or else that of the settings. -/
def resolvedBaseUrl (step : Step) (settings : Settings) (store : Store) : Except Fault String := do
  let given := (step.baseUrl.orElse settings.baseUrl).orElse (.text "")
  let filled ← Template.fillGiven store given
  filled.shown

/-- What a field of a form holds: a text filled, nothing as the empty text, anything else as it
is. -/
def fieldValue (store : Store) (field : FormField) : Except Fault Value :=
  match field.default with
  | .null => .ok (.text "")
  | .text s => (Template.fill store s).map .text
  | v => .ok v

/-- The fields of a form with what they hold. A name may be any value that can be looked up. -/
def formEntries (store : Store) : List FormField → Except Fault (List (Value × Value))
  | [] => .ok []
  | field :: fields => do
    let v ← fieldValue store field
    match field.name with
    | .list _ | .object _ => throw .noOperation
    | name => do
      let others ← formEntries store fields
      return (name, v) :: others

/-- The entries under names that are texts, if all are. -/
def textNames? : List (Value × Value) → Option (List (String × Value))
  | [] => some []
  | (.text name, v) :: rest => (textNames? rest).map ((name, v) :: ·)
  | _ :: _ => none

/-- The body of a form: a mapping, in which a name that comes again has its last entry. A name that
is no text can be sent but not masked. -/
def formBody (store : Store) (fields : List FormField) : Except Fault Value := do
  let entries ← formEntries store fields
  match textNames? entries with
  | some named => return .object (Table.ofList named)
  | none => do
    let _ ← Json.write Json.spaced (.list (entries.map Prod.snd))
    throw .noMember

/-- The body of a request: none for a method without one, the form if there is one, or else the body
of the step, filled. -/
def resolvedBody (step : Step) (bodyMethods : List String) (method : String) (store : Store) :
    Except Fault Value :=
  if RestLine.supportsBody bodyMethods method then
    match step.form with
    | some fields => formBody store fields
    | none => Template.fillValue store step.body
  else .ok .null

def payload (body : Value) : Except Fault (Option String) :=
  match body with
  | .null => .ok none
  | body => (Json.text Json.spaced body).map some

/-- The request of a step as it is resolved from a store, with the base address and the text to
send. -/
structure Prepared where
  baseUrl : String
  request : ResolvedRequest
  payload : Option String

def Prepared.sent (prepared : Prepared) : Request :=
  ⟨prepared.request.method, prepared.request.url, prepared.request.headers, prepared.payload⟩

def prepare (step : Step) (bodyMethods : List String) (settings : Settings) (store : Store) :
    Except Fault Prepared := do
  let (method, endpoint) := RestLine.split step.rest
  let endpoint ← Template.fill store endpoint
  let base ← resolvedBaseUrl step settings store
  let url := base ++ endpoint
  let headers ← Headers.build step.headers store
  let body ← resolvedBody step bodyMethods method store
  let text ← payload body
  return ⟨base, ⟨method, url, headers, body⟩, text⟩

/-- The fields of a log bound to a step: its name, if it has one. -/
def boundTo (bound : Table Value) (step : Step) : Table Value :=
  if step.id = "" then bound else bound.set "step_id" (.text step.id)

/-- Tells which variables have no value, if some have none. -/
def warnUnresolved (step : Step) (bound : Table Value) : Engine Unit := do
  let missing := unresolved step (← Engine.store)
  if missing.isEmpty then return ()
  else Engine.log bound .warning "rest.unresolved_variables" [("names", Value.texts missing)]

/-- What a step has before it polls: its request with the base address, and the answer. -/
structure Exchange where
  baseUrl : String
  request : ResolvedRequest
  status : Int
  body : Value

/-- Takes the answer to the request of a step, and saves parts of it. -/
def receive (step : Step) (bound : Table Value) (prepared : Prepared) (answer : Answer) :
    Engine Exchange := do
  let document := Json.bodyValue answer.text
  let took ← Engine.requestTime
  Engine.log bound .info "rest.response"
    [("status", .int answer.status), ("parsed", .bool (Masking.isPresent (some document))),
      ("elapsed_ms", .int took.toNat)]
  Poll.saveAnswer bound "rest.variables_saved" step.save answer.status document
  return ⟨prepared.baseUrl, prepared.request, answer.status, document⟩

/-- Sends the request of a step and takes the answer. -/
def exchange (step : Step) (bodyMethods : List String) (settings : Settings)
    (bound : Table Value) : Engine Exchange := do
  warnUnresolved step bound
  let prepared ← Engine.orFault (prepare step bodyMethods settings (← Engine.store))
  let request := prepared.request
  Engine.log bound .info "rest.request"
    [("method", .text request.method), ("url", .text request.url),
      ("headers", .object (Masking.maskTable (request.headers.mapEntries fun _ s => .text s))),
      ("body", Masking.maskAll request.body)]
  let answer ← Engine.send prepared.sent
  receive step bound prepared answer

/-- Runs a step; `bodyMethods` are the methods whose requests have a body. -/
def execute (step : Step) (bodyMethods : List String) (settings : Settings) (bound : Table Value) :
    Engine StepResult := do
  let bound := boundTo bound step
  let first ← exchange step bodyMethods settings bound
  match step.poll with
  | none => return ⟨first.request, first.status, first.body, none⟩
  | some spec => do
    let result ← Poll.run spec first.baseUrl first.request.headers settings.polling bound
    return ⟨first.request, first.status, result.document, some result⟩

end RestDemo.Step

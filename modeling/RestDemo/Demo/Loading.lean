import RestDemo.Demo.Basic
import RestDemo.RestLine
import RestDemo.Value.Spelling

/-!
# Loading demos

The demo that a document describes. `LoadError` tells the ways in which a document is wrong; a part
of the wrong kind, where a mapping or a list is looked into, is a fault instead. `loadSteps` keeps
the entries that have a request line and numbers all of them.
-/

namespace RestDemo

/-- What is wrong with a document or a file. -/
inductive LoadError where
  | notFound (path : String)
  | empty (path : String)
  | noMapping (path : String)
  | malformed (path : String)
  | invalidLine (line : String)
  | stepNoMapping (place : Nat)
  | unnamedField (shown : String)
  | incompletePoll
  | noInteger (label shown : String)
  deriving DecidableEq, Repr

def LoadError.message : LoadError → String
  | notFound path => "Demo file not found: " ++ path
  | empty path => "Demo file is empty: " ++ path
  | noMapping path => "Demo file is invalid: " ++ path
  | malformed path => "Demo file is not valid YAML: " ++ path
  | invalidLine line => "Invalid REST format: " ++ line
  | stepNoMapping place => "Step #" ++ Nat.repr place ++ " must be a mapping"
  | unnamedField shown => "Form field must have a name: " ++ shown
  | incompletePoll => "poll requires endpoint and success_when"
  | noInteger label shown => label ++ " must be an integer: " ++ shown

/-- Why nothing was loaded: the document is wrong, or it cannot be looked into. -/
inductive LoadFailure where
  | error (e : LoadError)
  | fault (f : Fault)
  deriving DecidableEq, Repr

namespace Demo

abbrev Loading (α : Type) : Type := Except LoadFailure α

def reject {α : Type} (e : LoadError) : Loading α :=
  .error (.error e)

def orFault {α : Type} : Except Fault α → Loading α
  | .ok a => .ok a
  | .error f => .error (.fault f)

/-- The value spelled out, for a message. -/
def spelled (v : Value) : Loading String :=
  orFault (v.spell.map String.ofList)

def mapping (v : Value) : Loading (Table Value) :=
  match v with
  | .object members => .ok members
  | _ => .error (.fault .noMember)

/-- The entry of a mapping under a name, or an empty mapping for one that does not count as
given. -/
def mappingField (name : String) (members : Table Value) : Loading (Table Value) :=
  mapping ((Value.field name members).orElse (.object []))

/-- The parts that a value is gone through by: the items of a list, the characters of a text, the
names of a mapping. -/
def parts (v : Value) : Loading (List Value) :=
  match v with
  | .list items => .ok items
  | .text s => .ok (s.toList.map fun c => .text (String.ofList [c]))
  | .object members => .ok ((Table.names members).map .text)
  | _ => .error (.fault .noOperation)

/-- An integer that may be left out. -/
def integer? (v : Value) (label : String) : Loading (Option Int) :=
  match v with
  | .null => .ok none
  | .int n => .ok (some n)
  | v => do
    let shown ← spelled v
    reject (.noInteger label shown)

def requestLine (v : Value) : Loading String :=
  match v with
  | .text line =>
    match RestLine.parse? line with
    | some _ => .ok line
    | none => reject (.invalidLine line)
  | v =>
    if v.isTruthy then .error (.fault .noMember)
    else do
      let shown ← spelled v
      reject (.invalidLine shown)

def formField (v : Value) : Loading FormField :=
  match v with
  | .object members =>
    if (Value.field "name" members).isTruthy then
      .ok ⟨Value.field "name" members, Value.field "default" members⟩
    else do
      let shown ← spelled v
      reject (.unnamedField shown)
  | v => do
    let shown ← spelled v
    reject (.unnamedField shown)

def form (v : Value) : Loading (Option (List FormField)) :=
  match v with
  | .null => .ok none
  | v => do
    let fields ← parts v
    let fields ← fields.mapM formField
    return some fields

def pollSpec (v : Value) : Loading (Option PollSpec) :=
  if !v.isTruthy then .ok none
  else do
    let members ← mapping v
    let get name := Value.field name members
    if !(get "endpoint").isTruthy || !(get "success_when").isTruthy then reject .incompletePoll
    else
      let interval ← integer? (get "interval") "poll.interval"
      let maxAttempts ← integer? (get "max_attempts") "poll.max_attempts"
      return some ⟨get "endpoint", get "success_when", get "failure_when", interval, maxAttempts,
        get "save"⟩

/-- The name of a step: its own as a text, or else the given one. -/
def stepId (own : Value) (default : String) : Loading String :=
  if own.isTruthy then orFault own.shown else .ok default

/-- The entry of a mapping under a name, or the empty text. -/
def textField (name : String) (members : Table Value) : Value :=
  (Table.get? name members).getD (.text "")

def loadStep (members : Table Value) (defaultId : String) : Loading Step := do
  let get name := Value.field name members
  let rest ← requestLine (textField "rest" members)
  let form ← form (get "form")
  let id ← stepId (get "id") defaultId
  let poll ← pollSpec (get "poll")
  return ⟨id, textField "title" members, rest, get "headers", get "body", form, get "base_url",
    get "save", poll⟩

def loadSettings (members : Table Value) : Loading Settings := do
  let polling ← mappingField "polling" members
  let interval ← integer? (Value.field "interval" polling) "settings.polling.interval"
  let maxAttempts ← integer? (Value.field "max_attempts" polling) "settings.polling.max_attempts"
  return ⟨(Value.field "base_url" members).orElse (.text ""), ⟨interval, maxAttempts⟩⟩

/-- The steps among the entries of which the first has the given place. -/
def loadSteps : Nat → List Value → Loading (List Step)
  | _, [] => .ok []
  | place, .object members :: rest =>
    if Table.has "rest" members then do
      let step ← loadStep members (Step.defaultId place)
      let steps ← loadSteps (place + 1) rest
      return step :: steps
    else loadSteps (place + 1) rest
  | place, _ :: _ => reject (.stepNoMapping place)

def load (members : Table Value) : Loading Demo := do
  let settings ← mappingField "settings" members
  let settings ← loadSettings settings
  let entries ← parts ((Value.field "steps" members).orElse (.list []))
  let steps ← loadSteps 1 entries
  return ⟨textField "title" members, steps, settings⟩

end Demo

end RestDemo

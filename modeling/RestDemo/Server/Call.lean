import RestDemo.Value.Basic

/-!
# Calls to the server

What the server is asked for. A payload is a mapping that is checked field by field before anything
is done: the rejected fields are reported by name, those inside the headers after a dot, in sorted
order. Fields that no call knows do not matter.
-/

namespace RestDemo.Server

structure ProxyCall where
  method : Option String
  url : Option String
  headers : Table String
  body : Value

/-- One step to be run, with settings and the variables so far. -/
structure StepCall where
  step : Table Value
  settings : Table Value
  store : Store

structure DemoCall where
  demo : Table Value
  store : Store

/-- The address under which the server itself is reached. -/
structure Origin where
  scheme : String
  host : String
  port : Int
  deriving DecidableEq, Repr

inductive Call where
  | health
  | proxy (origin : Origin) (call : ProxyCall)
  | step (call : StepCall)
  | demo (call : DemoCall)
  | runs
  | logs (run : String) (step : Option String)

/-- A payload that was checked, or the names of the rejected fields. -/
abbrev Checked (α : Type) : Type := Except (List String) α

/-- The payload unless there are rejected fields. -/
def accept {α : Type} (rejected : List String) (payload : α) : Checked α :=
  if rejected.isEmpty then .ok payload
  else .error (rejected.mergeSort fun a b => decide (a ≤ b))

def text? : Value → Option String
  | .text s => some s
  | _ => none

/-- The field if it is neither a text nor left out. -/
def rejectedText (name : String) (payload : Table Value) : List String :=
  match Value.field name payload with
  | .null | .text _ => []
  | _ => [name]

def textEntries : Table Value → Table String
  | [] => []
  | (name, .text s) :: rest => (name, s) :: textEntries rest
  | _ :: rest => textEntries rest

/-- The entries that are no texts, by name. -/
def rejectedEntries (field : String) : Table Value → List String
  | [] => []
  | (_, .text _) :: rest => rejectedEntries field rest
  | (name, _) :: rest => (field ++ "." ++ name) :: rejectedEntries field rest

/-- The mapping under a name, empty where the field is absent. -/
def mappingUnder (name : String) (payload : Table Value) : Table Value :=
  match Table.get? name payload with
  | some (.object members) => members
  | _ => []

/-- The field if it is present and no mapping. -/
def rejectedMapping (name : String) (payload : Table Value) : List String :=
  match Table.get? name payload with
  | none | some (.object _) => []
  | some _ => [name]

/-- The field if it is no mapping, or absent. -/
def rejectedRequired (name : String) (payload : Table Value) : List String :=
  if Table.has name payload then rejectedMapping name payload else [name]

def ProxyCall.ofPayload (payload : Table Value) : Checked ProxyCall :=
  accept
    (rejectedText "method" payload ++ rejectedText "url" payload ++
      rejectedMapping "headers" payload ++
      rejectedEntries "headers" (mappingUnder "headers" payload))
    { method := text? (Value.field "method" payload)
      url := text? (Value.field "url" payload)
      headers := textEntries (mappingUnder "headers" payload)
      body := Value.field "body" payload }

def StepCall.ofPayload (payload : Table Value) : Checked StepCall :=
  accept
    (rejectedRequired "step" payload ++ rejectedMapping "settings" payload ++
      rejectedMapping "variables" payload)
    { step := mappingUnder "step" payload
      settings := mappingUnder "settings" payload
      store := mappingUnder "variables" payload }

def DemoCall.ofPayload (payload : Table Value) : Checked DemoCall :=
  accept (rejectedRequired "demo" payload ++ rejectedMapping "variables" payload)
    { demo := mappingUnder "demo" payload
      store := mappingUnder "variables" payload }

end RestDemo.Server

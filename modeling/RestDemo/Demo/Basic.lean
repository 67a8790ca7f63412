import RestDemo.Value.Basic

/-!
# Demos

A demo is a row of steps with settings. Each step sends one request and may then poll until a
condition holds. Parts of which a document is not checked when it is loaded are kept as the values
that it gives.
-/

namespace RestDemo

/-- A field of a form: its name and what it holds unless something else is said. -/
structure FormField where
  name : Value
  default : Value

/-- What to ask again and again after a step, until when, and what to save of the last answer. -/
structure PollSpec where
  endpoint : Value
  successWhen : Value
  failureWhen : Value
  /-- The pause between two requests, in milliseconds. -/
  interval : Option Int
  maxAttempts : Option Int
  save : Value

/-- A step: a request line with headers and a body or a form, what to save, and what to poll. -/
structure Step where
  id : String
  title : Value
  rest : String
  headers : Value
  body : Value
  form : Option (List FormField)
  baseUrl : Value
  save : Value
  poll : Option PollSpec

/-- What polling uses where a step does not say. -/
structure PollingDefaults where
  interval : Option Int
  maxAttempts : Option Int
  deriving DecidableEq, Repr

/-- What the steps of a demo have in common. -/
structure Settings where
  baseUrl : Value
  polling : PollingDefaults

structure Demo where
  title : Value
  steps : List Step
  settings : Settings

def Settings.none : Settings := ⟨.text "", ⟨Option.none, Option.none⟩⟩

/-- The name of the step at a place, counted from one. -/
def Step.defaultId (place : Nat) : String :=
  "step-" ++ Nat.repr place

/-- The pause in milliseconds where nothing is said. -/
def defaultInterval : Int := 2000

def defaultMaxAttempts : Int := 30

end RestDemo

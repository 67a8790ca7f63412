import RestDemo.Fault
import RestDemo.Log.Event

/-!
# The logs of runs

The events of the latest runs, each under the name of its run, the oldest run first. When a run that
is not there gets its first event, the oldest ones make room for it. A store that keeps no run takes
no event.
-/

namespace RestDemo

/-- The name of the step that an event belongs to, if it says one. -/
def Event.stepId (e : Event) : Value :=
  Value.field "step_id" e.fields

/-- Whether an event belongs to a step; every event does where no step is asked for. -/
def Event.belongsTo (step : Option String) (e : Event) : Bool :=
  match step with
  | none => true
  | some id =>
    match e.stepId with
    | .text own => own == id
    | _ => false

/-- The logs of at most `limit` runs. -/
structure LogStore where
  limit : Nat
  runs : Table (List Event)

namespace LogStore

def empty (limit : Nat) : LogStore := ⟨limit, []⟩

def defaultLimit : Nat := 100

def has (run : String) (s : LogStore) : Bool :=
  s.runs.has run

def ids (s : LogStore) : List String :=
  s.runs.names

/-- The events of a run in their order; none if the run is not there. -/
def events (run : String) (s : LogStore) : List Event :=
  (s.runs.get? run).getD []

def latest (limit : Nat) (runs : Table (List Event)) : Table (List Event) :=
  runs.drop (runs.length - limit)

def append (run : String) (e : Event) (s : LogStore) : Except Fault LogStore :=
  if s.has run then .ok { s with runs := s.runs.set run (s.events run ++ [e]) }
  else if s.limit = 0 then .error .noEntry
  else .ok { s with runs := latest s.limit (s.runs ++ [(run, [e])]) }

end LogStore

end RestDemo

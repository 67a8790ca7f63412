import RestDemo.Demo.Loading
import RestDemo.Engine.Basic
import RestDemo.Log.Logger

/-!
# The state of the server

The server keeps the logs of its runs and a console, and gives out names of which it keeps count.
What it runs goes through a computation among surroundings whose log refuses what the console cannot
write; the events told are then with the loggers, whether the computation failed or not.
-/

namespace RestDemo.Server

/-- What the server keeps from call to call. -/
structure State where
  outputs : Outputs
  /-- The names that are given out. -/
  names : Names
  /-- How many names have been given out. -/
  issued : Nat

namespace State

def start (names : Names) (console : Console) (limit : Nat) : State :=
  ⟨.start console limit, names, 0⟩

/-- The number of the store that the server keeps its logs in. -/
def ownLogs : Nat := 0

def logs (s : State) : LogStore :=
  s.outputs.logs ownLogs

end State

inductive Problem where
  /-- The answer is a status with a text. -/
  | status (code : Nat) (detail : String)
  | fault (f : Fault)

/-- A call as it ends: its answer, the state after it, and the requests that it sent. -/
structure Handled (α : Type) where
  answer : Except Problem α
  state : State
  sent : List Request

def Handled.unchanged {α : Type} (answer : Except Problem α) (state : State) : Handled α :=
  ⟨answer, state, []⟩

def Problem.ofLoadFailure : LoadFailure → Problem
  | .error e => .status 400 e.message
  | .fault f => .fault f

/-- The problem of a failure that nothing reports otherwise. -/
def Problem.ofFailure : Failure → Problem
  | .step e => .status 500 e.message
  | .fault f => .fault f

namespace State

def emit (logger : Logger) (e : Event) (s : State) : Except Fault Unit × State :=
  match logger.emit e s.outputs with
  | (r, outputs) => (r, { s with outputs })

def freshId (s : State) : String × State :=
  (s.names.name (s.issued + 1), { s with issued := s.issued + 1 })

/-- The surroundings of what the server runs: nothing cancels it, and it asks for no name. -/
def surroundings (service : Service) : Surroundings :=
  .plain service

/-- The state after a computation that came to a world. -/
def after (logger : Logger) (w : World) (s : State) : State :=
  { s with outputs := (logger.emitAll w.events s.outputs).2, issued := w.issued }

/-- Runs a computation in a context and gives its events to a logger. -/
def run {α : Type} (x : Engine α) (logger : Logger) (service : Service) (context : RunContext)
    (s : State) : Except Failure α × World × State :=
  match x (surroundings service) (World.start none context s.issued) with
  | (r, w) => (r, w, s.after logger w)

end State

end RestDemo.Server

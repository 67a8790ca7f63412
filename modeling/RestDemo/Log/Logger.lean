import RestDemo.Log.Console
import RestDemo.Log.Store

/-!
# Loggers

A logger sends each event to a sink, with the fields bound to it under the event's own, or it hands
the event to several loggers in turn. Its leaves are what an event comes down to: `emit` serves them
from left to right and stops at the first that cannot take it.
-/

namespace RestDemo

inductive Sink where
  | console
  /-- The log of a run, in the store of a number. -/
  | run (store : Nat) (id : String)
  /-- A record that is read back by its name. -/
  | record (name : String)
  deriving DecidableEq, Repr

structure Outputs where
  console : Console
  /-- The stores of logs, each under its number. -/
  logs : Nat → LogStore
  records : Table (List Event)

inductive Logger where
  | single (sink : Sink) (bound : Table Value)
  | several (parts : List Logger)

namespace Outputs

/-- A console with stores that have room for so many runs each, and nothing in them. -/
def start (console : Console) (limit : Nat) : Outputs :=
  ⟨console, fun _ => .empty limit, []⟩

def recorded (name : String) (o : Outputs) : List Event :=
  (o.records.get? name).getD []

/-- The same but for the store of a number. -/
def setLogs (store : Nat) (logs : LogStore) (o : Outputs) : Outputs :=
  { o with logs := fun n => if n = store then logs else o.logs n }

section

variable (o : Outputs) (store : Nat) (logs logs' : LogStore)

@[simp] theorem setLogs_logs_self : (o.setLogs store logs).logs store = logs := if_pos rfl

theorem setLogs_logs_of_ne {other : Nat} (h : other ≠ store) :
    (o.setLogs store logs).logs other = o.logs other := if_neg h

@[simp] theorem setLogs_setLogs :
    (o.setLogs store logs).setLogs store logs' = o.setLogs store logs' := by
  simp only [setLogs, mk.injEq, true_and, and_true]
  funext n
  by_cases h : n = store <;> simp only [h, ↓reduceIte]

end

end Outputs

def Sink.take (sink : Sink) (e : Event) (o : Outputs) : Except Fault Outputs :=
  match sink with
  | .console => (o.console.tell e).map fun console => { o with console }
  | .run store id => ((o.logs store).append id e).map fun logs => o.setLogs store logs
  | .record name => .ok { o with records := o.records.set name (o.recorded name ++ [e]) }

namespace Logger

mutual

/-- The sinks in their order, each with the fields bound on the way to it. -/
def leaves : Logger → List (Sink × Table Value)
  | single sink bound => [(sink, bound)]
  | several parts => leavesOfAll parts

def leavesOfAll : List Logger → List (Sink × Table Value)
  | [] => []
  | l :: ls => leaves l ++ leavesOfAll ls

end

mutual

def bindFields (fields : Table Value) : Logger → Logger
  | single sink bound => single sink (bound.overlay fields)
  | several parts => several (bindAll fields parts)

def bindAll (fields : Table Value) : List Logger → List Logger
  | [] => []
  | l :: ls => bindFields fields l :: bindAll fields ls

end

/-- Serves sinks with an event until one cannot take it. -/
def serve (e : Event) : List (Sink × Table Value) → Outputs → Except Fault Unit × Outputs
  | [], o => (.ok (), o)
  | (sink, bound) :: rest, o =>
    match sink.take { e with fields := bound.overlay e.fields } o with
    | .ok o => serve e rest o
    | .error f => (.error f, o)

def emit (l : Logger) (e : Event) (o : Outputs) : Except Fault Unit × Outputs :=
  serve e l.leaves o

def emitAll (l : Logger) : List Event → Outputs → Except Fault Unit × Outputs
  | [], o => (.ok (), o)
  | e :: es, o =>
    match l.emit e o with
    | (.ok _, o) => emitAll l es o
    | (.error f, o) => (.error f, o)

/-! ## Levels and fields from outside -/

/-- Whether the logger hands events on. -/
def isSeveral : Logger → Bool
  | single .. => false
  | several _ => true

/-- Binds fields that are not known beforehand; one of them cannot be called `self`. -/
def bind (l : Logger) (fields : Table Value) : Except Fault Logger :=
  if fields.has "self" then .error .noOperation
  else .ok (l.bindFields fields)

/-- Tells an event at a level given as a word. A word that is no level is a fault where there is
a sink; the parts of an event cannot be among its fields. -/
def log (l : Logger) (level name : String) (fields : Table Value) (o : Outputs) :
    Except Fault Unit × Outputs :=
  if ["self", "level", "event"].any fun part => fields.has part then (.error .noOperation, o)
  else match Level.ofWord? level with
    | some level => l.emit ⟨level, name, fields⟩ o
    | none => (if l.leaves.isEmpty then .ok () else .error (.unknownLevel level), o)

/-- Tells an event at a level given as a word, where its name is among the fields. -/
def logNamed (l : Logger) (level : String) (fields : Table Value) (o : Outputs) :
    Except Fault Unit × Outputs :=
  match fields.get? "event" with
  | some (.text name) => l.log level name (fields.filter fun (field, _) => field != "event") o
  | _ => (.error .noOperation, o)

/-- Does with one argument and fields what a word says. A level tells the event of that name; `log`
takes the argument for the level, and `bind` takes no argument. -/
def perform (l : Logger) (word argument : String) (fields : Table Value) (o : Outputs) :
    Except Fault Unit × Outputs :=
  match Level.ofWord? word with
  | none =>
    if word = "log" then l.logNamed argument fields o
    else (.error (if word = "bind" then .noOperation else .noMember), o)
  | some level =>
    if ["self", "event"].any fun part => fields.has part then (.error .noOperation, o)
    else if l.isSeveral && fields.has "level" then (.error .noOperation, o)
    else l.emit ⟨level, argument, fields⟩ o

end Logger

end RestDemo

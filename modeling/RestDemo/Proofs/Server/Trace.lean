import RestDemo.Proofs.Demo.Loading
import RestDemo.Proofs.Run.Attribution
import RestDemo.Proofs.Server.Log
import RestDemo.Proofs.Step.Typed

/-!
# The log of a run as its trace

The log that the server keeps of a run is its trace: the start, a block for each step that was run,
in order, and the end. Every event says to which run it belongs, and in a block also to which step
(`log_runDemo`).
-/

namespace RestDemo.Server

open Engine

variable {id : String} {demo : Demo} {store : Store} {service : Service} {s : State}

theorem runOf_eq (hid : id ≠ "") (demo : Demo) (store : Store) (service : Service) (issued : Nat) :
    runOf id demo store service issued =
      Run.runSteps RestLine.bodyMethods demo.settings [("run_id", .text id)] 1 demo.steps
        (State.surroundings service) (World.start none ⟨id, store, []⟩ issued) :=
  Run.run_eq_runSteps demo hid

/-- Creates a job and waits until it is done, and looks at it. -/
def jobEntries : List (Table Value) := [
  [("id", .text "create"), ("title", .text "Create a job"), ("rest", .text "POST /jobs"),
    ("body", .object [("kind", .text "report")]), ("save", .object [("id", .text "id")]),
    ("poll", .object [
      ("endpoint", .text "/jobs/$id"), ("success_when", .text "status == done"),
      ("interval", .int 500), ("max_attempts", .int 3),
      ("save", .object [("result", .text "result")])])],
  [("id", .text "look"), ("title", .text "Look at it"), ("rest", .text "GET /jobs/$id"),
    ("body", .object [("kind", .text "report")]), ("save", .object [("id", .text "id")])]]

def jobSettings : Table Value := [("base_url", .text "http://api")]

def jobCall : DemoCall where
  demo := [
    ("title", .text "Jobs"),
    ("settings", .object jobSettings),
    ("steps", .list (jobEntries.map .object))]
  store := []

theorem load_jobCall : Demo.load jobCall.demo = .ok Run.jobDemo := rfl

end RestDemo.Server

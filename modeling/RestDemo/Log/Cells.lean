import RestDemo.Log.Store

/-!
# Logs in cells

Events are appended to the list of their run where it stands, and a list that is handed out can be
changed by whoever has it. Here every list is a cell; what is listed is handed out in a new one.
-/

namespace RestDemo

/-- The logs of at most `limit` runs, each in a cell. -/
structure CellStore where
  limit : Nat
  /-- The cell of each run, the oldest run first. -/
  runs : Table Nat
  /-- What is in the cells. -/
  cells : List (List Event)
  /-- The cells of the lists that were handed out, the first one first. -/
  handed : List Nat

/-- What is done with a store. -/
inductive StoreCall where
  | append (run : String) (e : Event)
  | list (run : String)
  /-- Clears a list that was handed out, by its number. -/
  | clear (n : Nat)

namespace CellStore

def empty (limit : Nat) : CellStore := ⟨limit, [], [], []⟩

def read (c : CellStore) (cell : Nat) : List Event :=
  (c.cells[cell]?).getD []

def write (cell : Nat) (es : List Event) (c : CellStore) : CellStore :=
  { c with cells := c.cells.set cell es }

/-- The runs without the oldest ones, until there is room for all. -/
def evict (limit : Nat) : Table Nat → Table Nat
  | [] => []
  | r :: rest => if limit < (r :: rest).length then evict limit rest else r :: rest

/-- Gives a run that is not there an empty list, in a new cell. -/
def opened (run : String) (c : CellStore) : CellStore :=
  if c.runs.has run then c
  else { c with
    runs := evict c.limit (c.runs ++ [(run, c.cells.length)])
    cells := c.cells ++ [[]] }

def append (run : String) (e : Event) (c : CellStore) : Except Fault CellStore :=
  let c := c.opened run
  match c.runs.get? run with
  | some cell => .ok (c.write cell (c.read cell ++ [e]))
  | none => .error .noEntry

/-- Hands out a copy of the list of a run, in a new cell. -/
def list (run : String) (c : CellStore) : CellStore :=
  { c with
    cells := c.cells ++ [((c.runs.get? run).map c.read).getD []]
    handed := c.handed ++ [c.cells.length] }

/-- The list handed out under a number. -/
def handedOut (n : Nat) (c : CellStore) : List Event :=
  ((c.handed[n]?).map c.read).getD []

def clear (n : Nat) (c : CellStore) : CellStore :=
  match c.handed[n]? with
  | some cell => c.write cell []
  | none => c

def step : StoreCall → CellStore → Except Fault CellStore
  | .append run e, c => c.append run e
  | .list run, c => .ok (c.list run)
  | .clear n, c => .ok (c.clear n)

def runAll : List StoreCall → CellStore → Except Fault CellStore
  | [], c => .ok c
  | call :: calls, c => step call c >>= runAll calls

/-- The store as it is shown, with the events themselves. -/
def shown (c : CellStore) : LogStore :=
  ⟨c.limit, c.runs.mapEntries fun _ cell => c.read cell⟩

end CellStore

/-- The appends among what is done with a store. -/
def StoreCall.append? : StoreCall → Option (String × Event)
  | .append run e => some (run, e)
  | _ => none

end RestDemo

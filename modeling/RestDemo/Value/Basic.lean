import RestDemo.Table
import RestDemo.Number.Binary64

/-!
# Values

A value is what a document holds: nothing, a truth value, a number, a text, a list or a mapping from
names. Integers and floating-point numbers are kept apart; the names of a mapping are in order.
-/

namespace RestDemo

inductive Value where
  | null
  | bool (b : Bool)
  | int (n : Int)
  | float (x : Float)
  | text (s : String)
  | list (items : List Value)
  | object (members : List (String × Value))

/-- The values of the variables of a run. -/
abbrev Store := Table Value

namespace Value

instance : Inhabited Value := ⟨null⟩

/-- Whether a value counts as given: not nothing, false, zero or empty. -/
def isTruthy : Value → Bool
  | null => false
  | bool b => b
  | int n => n != 0
  | float x => !(x == 0)
  | text s => s != ""
  | list items => !items.isEmpty
  | object members => !members.isEmpty

/-- The value itself if it counts as given, else a second one. -/
def orElse (v other : Value) : Value :=
  if v.isTruthy then v else other

/-- Nothing, for a part that is not there. -/
def ofOption : Option Value → Value
  | some v => v
  | none => null

/-- The entry of a mapping under a name, and nothing where there is none. -/
def field (name : String) (members : Table Value) : Value :=
  ofOption (Table.get? name members)

def ofInt? : Option Int → Value
  | some n => int n
  | none => null

def texts (names : List String) : Value :=
  list (names.map text)

def textTable (t : Table String) : Value :=
  object (t.mapEntries fun _ s => text s)

mutual

/-- How deep lists and mappings are nested in a value. -/
def depth : Value → Nat
  | list items => depthItems items + 1
  | object members => depthMembers members + 1
  | _ => 0

def depthItems : List Value → Nat
  | [] => 0
  | v :: vs => max (depth v) (depthItems vs)

def depthMembers : List (String × Value) → Nat
  | [] => 0
  | (_, v) :: ms => max (depth v) (depthMembers ms)

end

theorem depth_object_le {members : Table Value} {n : Nat} (h : ∀ p ∈ members, p.2.depth ≤ n) :
    (object members).depth ≤ n + 1 := by
  rw [depth]
  refine Nat.succ_le_succ ?_
  induction members with
  | nil => exact Nat.zero_le n
  | cons p members ih =>
    rw [List.forall_mem_cons] at h
    rw [depthMembers]
    exact Nat.max_le.2 ⟨h.1, ih h.2⟩

end Value

end RestDemo

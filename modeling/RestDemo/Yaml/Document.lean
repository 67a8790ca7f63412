import RestDemo.Yaml.Node

/-!
# YAML documents

The value of a text that holds one YAML document. There is no value for a document with a date in it
or with a mapping that has a name which is no text; sequences and mappings are no names at all. A
mapping may merge others: their entries come before its own. Of several flaws the one nearest to the
root counts, and the first of those.

This is the reader that the program runs with. What loads a demo takes any reader, and nothing that
is proved rests on this one.
-/

namespace RestDemo.Yaml

namespace Node

/-! ## Merging -/

def entries? : Node → Option (List (Node × Node))
  | mapping entries => some entries
  | _ => none

/-- The entries that a node has merged: its own, or those of its items, the last item first. -/
def mergeable? : Node → Option (List (Node × Node))
  | sequence items => (items.mapM entries?).map fun parts => parts.reverse.flatten
  | n => n.entries?

/-- Whether a node is the sign, as a key, that the value beside it is merged. -/
def isMerge : Node → Bool
  | scalar .merge _ => true
  | _ => false

/-- The mapping with given entries, after the entries that they merge. -/
def withMerged (entries : List (Node × Node)) : Node :=
  let (merging, own) := entries.partition fun (key, _) => key.isMerge
  match merging.mapM fun (_, node) => node.mergeable? with
  | some parts => mapping (parts.flatten ++ own)
  | none => unsound true

mutual

def merged : Node → Node
  | sequence items => sequence (mergedItems items)
  | mapping entries => withMerged (mergedEntries entries)
  | n => n

def mergedItems : List Node → List Node
  | [] => []
  | n :: ns => merged n :: mergedItems ns

def mergedEntries : List (Node × Node) → List (Node × Node)
  | [] => []
  | (k, n) :: rest => (merged k, merged n) :: mergedEntries rest

end

/-! ## Values -/

/-- Why a node has no value, and how deep the flaw lies. -/
structure Flaw where
  depth : Nat
  error : DocumentError

/-- Two things, or the flaw of one: of two, the one nearer to the root, or else the first. -/
def both {α β : Type} (a : Except Flaw α) (b : Except Flaw β) : Except Flaw (α × β) :=
  match a, b with
  | .ok x, .ok y => .ok (x, y)
  | .ok _, .error g => .error g
  | .error f, .ok _ => .error f
  | .error f, .error g => .error (if g.depth < f.depth then g else f)

def name (depth : Nat) : Node → Except Flaw String
  | scalar .text cs | scalar .standIn cs => .ok (String.ofList cs)
  | scalar kind cs =>
    match kind.value cs with
    | .ok _ => .error ⟨depth, .fault .noValue⟩
    | .error e => .error ⟨depth, e⟩
  | _ => .error ⟨depth, .malformed⟩

mutual

def value (depth : Nat) : Node → Except Flaw Value
  | scalar kind cs => (kind.value cs).mapError fun e => ⟨depth, e⟩
  | sequence items => (itemValues (depth + 1) items).map .list
  | mapping entries =>
    (entryValues (depth + 1) entries).map fun members => .object (Table.ofList members)
  | unsound inside => .error ⟨if inside then depth + 1 else depth, .malformed⟩

def itemValues (depth : Nat) : List Node → Except Flaw (List Value)
  | [] => .ok []
  | n :: ns => (both (value depth n) (itemValues depth ns)).map fun (v, vs) => v :: vs

def entryValues (depth : Nat) : List (Node × Node) → Except Flaw (List (String × Value))
  | [] => .ok []
  | (k, n) :: rest =>
    (both (both (name depth k) (value depth n)) (entryValues depth rest)).map
      fun (member, members) => member :: members

end

end Node

/-- The value of a text, or nothing for a text without a document. -/
def load (source : Source) : Except DocumentError Value := do
  match ← Node.ofTokens (Tokens.ofSource source) with
  | some node => (node.merged.value 0).mapError Node.Flaw.error
  | none => return .null

/-- The value of the text that bytes are in UTF-8. -/
def read (bytes : List UInt8) : Except DocumentError Value :=
  load (Source.ofBytes bytes)

end RestDemo.Yaml

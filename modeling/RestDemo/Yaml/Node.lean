import RestDemo.Yaml.Scalar
import RestDemo.Yaml.Token

/-!
# YAML nodes

The tree of a document: scalars, sequences and mappings, from the tokens. Where a node may be left
out and is, it is the empty plain scalar. A reference stands for the node that its anchor was put
on, which has to be complete by then.
-/

namespace RestDemo.Yaml

inductive Node where
  | scalar (kind : Kind) (text : List Char)
  | sequence (items : List Node)
  | mapping (entries : List (Node × Node))
  /-- Something declared to be what it is not: that shows as a whole, or only in what is inside. -/
  | unsound (inside : Bool)

/-- What a node is declared to be. -/
inductive Tag where
  /-- Nothing: the spelling decides, and the quotes. -/
  | absent
  /-- What its spelling says, even in quotes. -/
  | unspecific
  /-- One of the things that the language itself knows. -/
  | core (name : String)
  | other

namespace Tag

/-- The tag that is written as `name`, where the given handles have meanings of their own. -/
def ofName? (handles : List String) (name : TagName) : Option Tag :=
  match name.handle with
  | none => some (if name.suffix = "!" then unspecific else other)
  | some handle =>
    if handles.contains handle || handle = "!" then some other
    else if handle = "!!" then some (core name.suffix)
    else none

def kinds : List (String × Kind) :=
  [("null", .null), ("bool", .bool), ("int", .int), ("float", .float), ("timestamp", .date),
    ("str", .text), ("merge", .merge), ("value", .standIn)]

def kind (isPlain : Bool) (text : List Char) : Tag → Kind
  | absent => if isPlain then .ofPlain text else .text
  | unspecific => .ofPlain text
  | core name => (kinds.lookup name).getD .foreign
  | other => .foreign

/-- The names of the collections that can be declared. -/
def collections : List String := ["seq", "map", "set", "omap", "pairs"]

def scalar (isPlain : Bool) (text : List Char) (tag : Tag) : Node :=
  match tag with
  | core name =>
    if collections.contains name then .unsound true else .scalar (tag.kind isPlain text) text
  | _ => .scalar (tag.kind isPlain text) text

/-- The node of a collection with a tag, `proper` being the name of its own. -/
def collection (proper : String) (node : Node) : Tag → Node
  | absent | unspecific => node
  | core name => if name = proper then node else .unsound (collections.contains name)
  | other => .unsound false

end Tag

/-- How far a document was read. -/
structure Progress where
  tokens : List Token
  /-- What is met when no token is left. -/
  failure : DocumentError
  /-- The handles with meanings of their own. -/
  handles : List String
  /-- The nodes that have anchors; one that is still being read is not there yet. -/
  anchors : List (String × Option Node)

/-- Reading from the front of the tokens. -/
abbrev Reading : Type → Type := StateT Progress (Except DocumentError)

namespace Reading

/-- The next token, which stays. -/
def peek : Reading Token := do
  let p ← get
  match p.tokens with
  | t :: _ => return t
  | [] => throw p.failure

def advance : Reading Unit :=
  modify fun p => { p with tokens := p.tokens.tail }

/-- Past the next token, which has to be the given one. -/
def expect (t : Token) : Reading Unit := do
  if (← peek) = t then advance else throw .malformed

def comes (among : List Token) : Reading Bool :=
  return among.contains (← peek)

/-! ## Properties of nodes -/

def anchor? : Reading (Option String) := do
  match ← peek with
  | .anchor name => advance; return some name
  | _ => return none

def tag? : Reading (Option TagName) := do
  match ← peek with
  | .tag name => advance; return some name
  | _ => return none

/-- An anchor and a tag, of which each may be missing, in either order. -/
def properties : Reading (Option String × Tag) := do
  let before ← anchor?
  let name ← tag?
  let anchor ← if before.isNone && name.isSome then anchor? else pure before
  match name with
  | none => return (anchor, .absent)
  | some name =>
    match Tag.ofName? (← get).handles name with
    | some tag => return (anchor, tag)
    | none => throw .malformed

/-- A node with an anchor, which may not be another's. -/
def anchored (anchor : Option String) (read : Reading Node) : Reading Node := do
  match anchor with
  | none => read
  | some name =>
    if ((← get).anchors.lookup name).isSome then throw .malformed
    modify fun p => { p with anchors := (name, none) :: p.anchors }
    let node ← read
    modify fun p => { p with anchors := (name, some node) :: p.anchors }
    return node

def referenced (name : String) : Reading Node := do
  match (← get).anchors.lookup name with
  | some (some node) => return node
  | _ => throw .malformed

end Reading

namespace Node

open Reading

/-- The node that is not there. -/
def empty : Node := scalar .null []

/-- The depth of nesting that is followed, by the reader alone: what is done with the value of a
document goes to any depth. -/
def maxDepth : Nat := 480

mutual

/-- A node at a depth. A block may be one only where blocks are; a sequence without indentation of
its own may stand in a mapping. -/
def read (fuel depth : Nat) (block indentless : Bool) : Reading Node :=
  match fuel with
  | 0 => throw .malformed
  | fuel + 1 => do
    if maxDepth < depth then throw (.fault .tooDeep)
    if let .reference name := ← peek then
      advance
      return ← referenced name
    let (anchor, tag) ← properties
    match ← peek with
    | .scalar isPlain text =>
      anchored anchor do
        advance
        return tag.scalar isPlain text
    | .flowSequenceStart =>
      anchored anchor do
        advance
        return tag.collection "seq" (sequence (← readFlowItems fuel (depth + 1) true))
    | .flowMappingStart =>
      anchored anchor do
        advance
        return tag.collection "map" (mapping (← readFlowEntries fuel (depth + 1) true))
    | t =>
      if t = .blockEntry && indentless then
        anchored anchor do
          return tag.collection "seq" (sequence (← readIndentless fuel (depth + 1)))
      else if t = .blockSequenceStart && block then
        anchored anchor do
          advance
          return tag.collection "seq" (sequence (← readItems fuel (depth + 1)))
      else if t = .blockMappingStart && block then
        anchored anchor do
          advance
          return tag.collection "map" (mapping (← readEntries fuel (depth + 1)))
      else
        match anchor, tag with
        | none, .absent => throw .malformed
        | _, _ => anchored anchor (return tag.scalar true [])

/-- A node, or the empty one if one of the given tokens comes instead. -/
def readUnless (fuel depth : Nat) (among : List Token) (block indentless : Bool) : Reading Node :=
  match fuel with
  | 0 => throw .malformed
  | fuel + 1 => do
    if ← comes among then return empty
    read fuel depth block indentless

def readItems (fuel depth : Nat) : Reading (List Node) :=
  match fuel with
  | 0 => throw .malformed
  | fuel + 1 => do
    if ← comes [.blockEnd] then
      advance
      return []
    expect .blockEntry
    let item ← readUnless fuel depth [.blockEntry, .blockEnd] true false
    return item :: (← readItems fuel depth)

/-- The items of a sequence without indentation of its own; whatever is no item ends it. -/
def readIndentless (fuel depth : Nat) : Reading (List Node) :=
  match fuel with
  | 0 => throw .malformed
  | fuel + 1 => do
    if !(← comes [.blockEntry]) then return []
    advance
    let item ← readUnless fuel depth [.blockEntry, .key, .value, .blockEnd] true false
    return item :: (← readIndentless fuel depth)

/-- The value of an entry, after its key, before one of the given tokens. -/
def readValue (fuel depth : Nat) (among : List Token) (inBlock : Bool) : Reading Node :=
  match fuel with
  | 0 => throw .malformed
  | fuel + 1 => do
    if !(← comes [.value]) then return empty
    advance
    readUnless fuel depth among inBlock inBlock

def readEntries (fuel depth : Nat) : Reading (List (Node × Node)) :=
  match fuel with
  | 0 => throw .malformed
  | fuel + 1 => do
    if ← comes [.blockEnd] then
      advance
      return []
    expect .key
    let key ← readUnless fuel depth [.key, .value, .blockEnd] true true
    let value ← readValue fuel depth [.key, .value, .blockEnd] true
    return (key, value) :: (← readEntries fuel depth)

/-- The items of a flow sequence; `first` says that none came yet. A key makes a mapping of one
entry. -/
def readFlowItems (fuel depth : Nat) (first : Bool) : Reading (List Node) :=
  match fuel with
  | 0 => throw .malformed
  | fuel + 1 => do
    if !first && !(← comes [.flowSequenceEnd]) then expect .flowEntry
    if ← comes [.flowSequenceEnd] then
      advance
      return []
    let item ←
      if ← comes [.key] then do
        advance
        let key ← readUnless fuel (depth + 1) [.value, .flowEntry, .flowSequenceEnd] false false
        let value ← readValue fuel (depth + 1) [.flowEntry, .flowSequenceEnd] false
        pure (mapping [(key, value)])
      else read fuel depth false false
    return item :: (← readFlowItems fuel depth false)

/-- The entries of a flow mapping; `first` says that none came yet. A node alone is a key. -/
def readFlowEntries (fuel depth : Nat) (first : Bool) : Reading (List (Node × Node)) :=
  match fuel with
  | 0 => throw .malformed
  | fuel + 1 => do
    if !first && !(← comes [.flowMappingEnd]) then expect .flowEntry
    if ← comes [.flowMappingEnd] then
      advance
      return []
    let entry ←
      if ← comes [.key] then do
        advance
        let key ← readUnless fuel depth [.value, .flowEntry, .flowMappingEnd] false false
        let value ← readValue fuel depth [.flowEntry, .flowMappingEnd] false
        pure (key, value)
      else do
        let key ← read fuel depth false false
        pure (key, empty)
    return entry :: (← readFlowEntries fuel depth false)

end

/-! ## Documents -/

/-- Past the directives before a document: at most one version, of which the first number is one,
and at most one meaning for a handle. `version` says whether a version came. -/
def readDirectives (version : Bool) : Nat → Reading Unit
  | 0 => throw .malformed
  | fuel + 1 => do
    match ← peek with
    | .directive d =>
      advance
      match d with
      | .version major =>
        if version || major ≠ 1 then throw .malformed
        readDirectives true fuel
      | .handle name =>
        if (← get).handles.contains name then throw .malformed
        modify fun p => { p with handles := name :: p.handles }
        readDirectives version fuel
      | .other => readDirectives version fuel
    | _ => return

/-- The end of the only document: nothing but ends of documents may come. -/
def readEnd : Nat → Reading Unit
  | 0 => throw .malformed
  | fuel + 1 => do
    match ← peek with
    | .streamEnd => return
    | .documentEnd =>
      advance
      readEnd fuel
    | _ =>
      readDirectives false fuel
      throw .malformed

/-- The node of the only document of a stream; a stream may also have none. -/
def readStream (fuel : Nat) : Reading (Option Node) := do
  match ← peek with
  | .streamEnd => return none
  | .documentStart | .directive _ =>
    readDirectives false fuel
    expect .documentStart
    let node ← match ← peek with
      | .directive _ | .documentStart | .documentEnd | .streamEnd => pure empty
      | _ => read fuel 0 true false
    readEnd fuel
    return some node
  | _ =>
    let node ← read fuel 0 true false
    readEnd fuel
    return some node

def ofTokens (ts : Tokens) : Except DocumentError (Option Node) :=
  (readStream (4 * ts.settled.length + 8)).run' ⟨ts.settled, ts.failure, [], []⟩

end Node

end RestDemo.Yaml

import RestDemo.Condition.Literal
import RestDemo.Path
import RestDemo.Value.Equality

/-!
# Conditions

A condition compares the part of a document at a path with a literal: `path == literal` or
`path != literal`, with `response.` allowed in front. `cut` finds the first operator that has
something on both sides, `parse?` reads a condition, and `evaluate` gives its verdict. A text that
is no condition is unparsable, which is a verdict and no error.
-/

namespace RestDemo

inductive Comparison where
  | equal
  | unequal
  deriving DecidableEq, Repr

def Comparison.sign : Comparison → String
  | equal => "=="
  | unequal => "!="

/-- A condition that has been read. -/
structure Condition where
  path : String
  comparison : Comparison
  expected : Value

/-- What a condition says of a document. -/
inductive Verdict where
  | matched
  | notMatched
  | unparsable
  deriving DecidableEq, Repr

def Verdict.word : Verdict → String
  | matched => "matched"
  | notMatched => "not_matched"
  | unparsable => "unparsable"

namespace Condition

/-- The comparison whose sign the text begins with, and what follows, if anything does. -/
def sign? : List Char → Option (Comparison × List Char)
  | '=' :: '=' :: c :: rest => some (.equal, c :: rest)
  | '!' :: '=' :: c :: rest => some (.unequal, c :: rest)
  | _ => none

/-- A text cut at the first sign of a comparison that has at least one character on each side. -/
def cut : List Char → Option (List Char × Comparison × List Char)
  | [] => none
  | c :: cs =>
    match sign? cs with
    | some (comparison, after) => some ([c], comparison, after)
    | none => (cut cs).map fun (before, comparison, after) => (c :: before, comparison, after)

/-- What may stand in front of a path. -/
def documentName : List Char := "response.".toList

/-- The text after the name of the document, if it begins with that name. -/
def afterName? (cs : List Char) : Option (List Char) :=
  if documentName.isPrefixOf cs then some (cs.drop documentName.length) else none

/-- Cuts a condition. The name of the document is left out if there is a condition without it. -/
def split (cs : List Char) : Option (List Char × Comparison × List Char) :=
  ((afterName? cs).bind cut).or (cut cs)

def parse? (text : String) : Except Fault (Option Condition) :=
  match split (Text.trim text.toList) with
  | none => .ok none
  | some (before, comparison, after) =>
    (Literal.read (Text.trim after)).map fun v =>
      some ⟨String.ofList (Text.trim before), comparison, v⟩

/-- Whether a comparison holds, given whether its sides are equal. -/
def holds : Comparison → Bool → Bool
  | .equal, equal => equal
  | .unequal, equal => !equal

def evaluate (text : String) (document : Option Value) : Except Fault Verdict := do
  match ← parse? text with
  | none => return .unparsable
  | some condition =>
    let actual ← Path.extract document condition.path
    return if holds condition.comparison (strictlyEqual actual (some condition.expected))
      then .matched else .notMatched

/-- The text of a condition that a document gives: none is the empty one. -/
def textOf (v : Value) : Except Fault String :=
  match v with
  | .text s => .ok s
  | v => if v.isTruthy then .error .noMember else .ok ""

end Condition

end RestDemo

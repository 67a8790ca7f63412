import RestDemo.Fault
import RestDemo.Text.Inflow

/-!
# YAML texts

A YAML text as far as it can be read. It is looked at in pieces, and a piece with a character that
may not stand in a YAML text, or with bytes that are no text, ends what is there: only a reader that
comes to this end finds the fault out. The first two pieces are looked at together.
-/

namespace RestDemo.Yaml

def isAllowed (c : Char) : Bool :=
  let n := c.toNat
  n == 0x09 || n == 0x0A || n == 0x0D || (0x20 ≤ n && n ≤ 0x7E) || n == 0x85 ||
    (0xA0 ≤ n && n ≤ 0xD7FF) || (0xE000 ≤ n && n ≤ 0xFFFD) || 0x10000 ≤ n

structure Source where
  text : List Char
  /-- What a reader finds behind the text, if not its true end. -/
  obstacle : Option DocumentError

namespace Source

/-- The text of the pieces before the first one with a character that may not stand there; `last` is
what comes behind all pieces. -/
def join (last : Option DocumentError) : List (List Char) → Source
  | [] => ⟨[], last⟩
  | piece :: pieces =>
    if piece.all isAllowed then
      let others := join last pieces
      ⟨piece ++ others.text, others.obstacle⟩
    else ⟨[], some .malformed⟩

/-- What there is to read in pieces and the flaw that ends them. -/
def ofPieces (pieces : List (List Char)) (cause : Option Undecodable) : Source :=
  let last := cause.map fun c => .fault (.undecodable c)
  match pieces, last with
  | first :: second :: others, _ => join last ((first ++ second) :: others)
  | _, some e => ⟨[], some e⟩
  | pieces, none => join none pieces

def ofBytes (bytes : List UInt8) : Source :=
  let (pieces, cause) := Text.pieces bytes
  ofPieces pieces cause

end Source

end RestDemo.Yaml

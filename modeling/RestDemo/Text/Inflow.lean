import RestDemo.Text.Utf8

/-!
# Text that flows in

A file is read as text by and by: its bytes are taken in portions, and its characters are handed out
in pieces of a fixed size. Every kind of line end becomes a new line. Where bytes are no text, the
position of the flaw counts from the start of the portion, or of the bytes held back before it, and
the pieces before the flawed one are still handed out.
-/

namespace RestDemo.Text

/-- The text with each line end as a new line. -/
def universalLines : List Char → List Char
  | [] => []
  | '\r' :: '\n' :: cs => '\n' :: universalLines cs
  | c :: cs => (if c = '\r' then '\n' else c) :: universalLines cs

/-- A file that is being read. -/
structure Inflow where
  /-- The bytes that were not read yet. -/
  bytes : List UInt8
  /-- Bytes that were read and begin an unfinished character. -/
  held : List UInt8
  /-- Whether a carriage return was read last: a new line after it belongs to it. -/
  afterReturn : Bool
  /-- The characters that were read and not handed out yet. -/
  ready : List Char
  /-- The size of the last portion in bytes and in characters. -/
  portion : Nat × Nat

namespace Inflow

/-- A file of which nothing was read. -/
def ofBytes (bytes : List UInt8) : Inflow := ⟨bytes, [], false, [], (0, 0)⟩

/-- The least size of a portion in bytes. -/
def leastPortion : Nat := 8192

/-- How many characters are asked for at a time. -/
def pieceSize : Nat := 4096

/-- How many bytes are read for so many characters: as many as they would take at the ratio of the
last portion, if that is more than the least size. -/
def portionSize (s : Inflow) (want : Nat) : Nat :=
  match s.portion with
  | (_, 0) => max leastPortion want
  | (size, count) => max leastPortion (max want (size * want / count))

/-- The file after one more portion, which is empty at its end: only then nothing is held back. -/
def readPortion (s : Inflow) (want : Nat) : Except Undecodable Inflow :=
  let size := s.portionSize want
  let portion := s.bytes.take size
  let final := portion.isEmpty
  (decode final (s.held ++ portion)).map fun (cs, held) =>
    let cs := if s.afterReturn && (final || !cs.isEmpty) then '\r' :: cs else cs
    let returns := !final && cs.getLast? = some '\r'
    let ready := universalLines (if returns then cs.dropLast else cs)
    { bytes := s.bytes.drop size, held
      afterReturn := returns || (s.afterReturn && !final && cs.isEmpty)
      ready, portion := (portion.length, ready.length) }

/-- The next so many characters of a file, fewer at its end. -/
def take : Nat → Nat → Inflow → Except Undecodable (List Char × Inflow)
  | 0, _, s => .ok ([], s)
  | fuel + 1, want, s =>
    let got := s.ready.take want
    let left := { s with ready := s.ready.drop want }
    if got.length = want then .ok (got, left)
    else
      (left.readPortion (want - got.length)).bind fun s =>
        if s.ready.isEmpty && s.bytes.isEmpty && s.held.isEmpty && !s.afterReturn then .ok (got, s)
        else (take fuel (want - got.length) s).map fun (more, s) => (got ++ more, s)

/-- The pieces of the rest of a file, and the flaw that ends them, if there is one. -/
def pieces : Nat → Inflow → List (List Char) × Option Undecodable
  | 0, _ => ([], none)
  | fuel + 1, s =>
    match s.take (s.bytes.length + 3) pieceSize with
    | .error cause => ([], some cause)
    | .ok ([], _) => ([], none)
    | .ok (piece, s) =>
      let (others, cause) := pieces fuel s
      (piece :: others, cause)

end Inflow

/-- The pieces of a file, and the flaw that ends them, if there is one. -/
def pieces (bytes : List UInt8) : List (List Char) × Option Undecodable :=
  (Inflow.ofBytes bytes).pieces (bytes.length + 1)

end RestDemo.Text

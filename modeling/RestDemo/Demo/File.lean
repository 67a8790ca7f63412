import RestDemo.Demo.Loading

/-!
# Demo files

A demo file holds a mapping. How its bytes are read is left to a reader of documents, which gives
their value or says why there is none.
-/

namespace RestDemo.Demo

inductive Entry where
  | missing
  | directory
  /-- Nothing can stand there: the path, or a part of it, is too long. -/
  | beyond
  | file (bytes : List UInt8)

/-- The demo of the file at a path where the given entry stands. -/
def loadFile (read : List UInt8 → Except DocumentError Value) (path : String) (entry : Entry) :
    Loading Demo :=
  match entry with
  | .missing => reject (.notFound path)
  | .directory => .error (.fault .directory)
  | .beyond => .error (.fault .pathTooLong)
  | .file bytes =>
    match read bytes with
    | .error .malformed => reject (.malformed path)
    | .error (.fault f) => .error (.fault f)
    | .ok (.object members) => load members
    | .ok .null => reject (.empty path)
    | .ok _ => reject (.noMapping path)

end RestDemo.Demo

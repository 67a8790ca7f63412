import RestDemo.Text.Blank
import RestDemo.Text.Casing

/-!
# Request lines

A request line names a method and an endpoint, with blanks between them. `split` cuts any text;
`parse?` accepts only those with a method that it knows and an endpoint on one line.
-/

namespace RestDemo.RestLine

/-- A line cut at its first blanks: the first word in upper case, and the rest. -/
def split (line : String) : String × String :=
  let cs := Text.trim line.toList
  let word := cs.takeWhile fun c => !Text.isBlank c
  let rest := cs.dropWhile fun c => !Text.isBlank c
  (Text.upper (String.ofList word), String.ofList (Text.trimStart rest))

def methods : List String :=
  ["GET", "POST", "PUT", "PATCH", "DELETE", "HEAD", "OPTIONS"]

/-- Whether a character counts as the given capital letter. Besides its two spellings, the long s
counts as an S, and the capital I with a dot and the small one without count as an I. -/
def matchesLetter (letter c : Char) : Bool :=
  c.toUpper == letter || (letter == 'S' && c.toNat == 0x17F) ||
    (letter == 'I' && (c.toNat == 0x130 || c.toNat == 0x131))

def matchesMethod (letters word : List Char) : Bool :=
  letters.length == word.length && (letters.zip word).all fun (l, c) => matchesLetter l c

/-- The method in upper case and the endpoint of a line. -/
def parse? (line : String) : Option (String × String) :=
  let cs := Text.trim line.toList
  let word := cs.takeWhile fun c => !Text.isBlank c
  let endpoint := Text.trimStart (cs.dropWhile fun c => !Text.isBlank c)
  if methods.any (fun m => matchesMethod m.toList word) && !endpoint.isEmpty
      && !endpoint.contains '\n' then
    some (Text.upper (String.ofList word), String.ofList endpoint)
  else none

/-- The methods whose requests have a body. -/
def bodyMethods : List String :=
  ["POST", "PUT", "PATCH", "DELETE"]

/-- Whether requests of a method have a body, given the methods that do. -/
def supportsBody (withBody : List String) (method : String) : Bool :=
  withBody.contains (Text.upper method)

end RestDemo.RestLine

import RestDemo.Text.Digit

/-!
# Words of a command line

A word is an argument, a separator, or an option. An option is called by its name or, if it is a
long one, by the start of its name that no other option has; a value may be attached after an equals
sign. A word that looks like a number, holds a blank or is a dash alone is an argument even though
it starts with a dash. After the separator every word is an argument.
-/

namespace RestDemo.CommandLine

inductive Choice where
  | help
  | assignments
  | baseUrl
  deriving DecidableEq, Repr

def longNames : List (String × Choice) :=
  [("--help", .help), ("--vars", .assignments), ("--base-url", .baseUrl)]

def names : List (String × Choice) :=
  ("-h", .help) :: longNames

inductive Word where
  | plain (s : String)
  | separator
  /-- An option, with the value attached to it if there is one. -/
  | option (choice : Choice) (attached : Option String)
  | unknown
  deriving DecidableEq, Repr

/-- The text before the first equals sign, and the text after it if there is one. -/
def splitValue (cs : List Char) : List Char × Option String :=
  match cs.dropWhile (· != '=') with
  | [] => (cs, none)
  | _ :: value => (cs.takeWhile (· != '='), some (String.ofList value))

/-- Whether a text is a dash and a number, in which a point may stand. -/
def isNegativeNumber : List Char → Bool
  | '-' :: cs =>
    let cs := if cs.getLast? = some '\n' then cs.dropLast else cs
    match cs.dropWhile Text.isDigit with
    | [] => !cs.isEmpty
    | '.' :: fraction => !fraction.isEmpty && fraction.all Text.isDigit
    | _ => false
  | _ => false

/-- The word of a text that names no option. -/
def unnamed (s : String) : Word :=
  if isNegativeNumber s.toList || s.toList.contains ' ' then .plain s else .unknown

/-- The call for help with something attached to its short name: letters that repeat the name change
nothing, anything else stays attached. -/
def shortHelp (attached : List Char) : Word :=
  if !attached.isEmpty && attached.all (· == 'h') then .option .help none
  else .option .help (some (String.ofList attached))

/-- The word of a text that starts with two dashes; a start that several names have is no word. -/
def long? (s : String) : Option Word :=
  let (name, value) := splitValue s.toList
  match names.lookup (String.ofList name) with
  | some choice => some (.option choice value)
  | none =>
    match longNames.filter fun (long, _) => name.isPrefixOf long.toList with
    | [] => some (unnamed s)
    | [(_, choice)] => some (.option choice value)
    | _ => none

/-- The word of a text that starts with one dash. An equals sign between the short name and what is
attached to it does not count. -/
def short (s : String) : Word :=
  match s.toList with
  | ['-'] => .plain s
  | ['-', 'h'] => .option .help none
  | '-' :: 'h' :: '=' :: attached => shortHelp attached
  | '-' :: 'h' :: attached => shortHelp attached
  | _ => unnamed s

def word? (s : String) : Option Word :=
  match s.toList with
  | '-' :: '-' :: _ => long? s
  | '-' :: _ => some (short s)
  | _ => some (.plain s)

/-- The words of a command line, unless one of them is ambiguous. -/
def words? : List String → Option (List Word)
  | [] => some []
  | s :: rest =>
    if s = "--" then some (.separator :: rest.map .plain)
    else do
      let word ← word? s
      let words ← words? rest
      return word :: words

end RestDemo.CommandLine

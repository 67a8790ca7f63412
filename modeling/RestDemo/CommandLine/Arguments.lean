import RestDemo.CommandLine.Word

/-!
# Arguments

One file has to be named, before, between or after the options. An option that takes a value has it
attached or in the next argument; the last value counts. The words are followed from the left, so a
call for help is heard before anything that is wrong after it, but not before an ambiguous word.
-/

namespace RestDemo.CommandLine

structure Arguments where
  file : String
  assignments : Option String
  baseUrl : Option String
  deriving DecidableEq, Repr

inductive Intent where
  | run (arguments : Arguments)
  | help
  | refused
  deriving DecidableEq, Repr

/-- What the words so far said. -/
structure Heard where
  file : Option String
  assignments : Option String
  baseUrl : Option String
  /-- Whether there was a word that has no place. -/
  surplus : Bool

namespace Heard

/-- Before the first word. -/
def nothing : Heard := ⟨none, none, none, false⟩

/-- After an argument that belongs to no option. -/
def withFile (s : String) (h : Heard) : Heard :=
  match h.file with
  | none => { h with file := some s }
  | some _ => { h with surplus := true }

/-- After a value of an option. A separator in the place of a value leaves it empty. -/
def withValue (choice : Choice) (value : String) (h : Heard) : Heard :=
  let value := if value = "--" then "" else value
  match choice with
  | .help => h
  | .assignments => { h with assignments := some value }
  | .baseUrl => { h with baseUrl := some value }

/-- After the last word. -/
def intent (h : Heard) : Intent :=
  match h.file, h.surplus with
  | some file, false => .run ⟨file, h.assignments, h.baseUrl⟩
  | _, _ => .refused

end Heard

/-- Follows the words. The separator belongs to the file beside it. -/
def follow (h : Heard) : List Word → Intent
  | [] => h.intent
  | .option .help none :: _ => .help
  | .option .help (some _) :: _ => .refused
  | .option choice (some value) :: rest => follow (h.withValue choice value) rest
  | .option choice none :: .plain value :: rest => follow (h.withValue choice value) rest
  | .option _ none :: _ => .refused
  | .unknown :: rest => follow { h with surplus := true } rest
  | .separator :: rest =>
    follow { h with surplus := h.surplus || h.file.isSome || rest.isEmpty } rest
  | .plain s :: .separator :: rest => follow (h.withFile s) rest
  | .plain s :: rest => follow (h.withFile s) rest

def Intent.ofArguments (arguments : List String) : Intent :=
  match words? arguments with
  | none => .refused
  | some words => follow .nothing words

end RestDemo.CommandLine

import RestDemo.Text.Code
import RestDemo.Yaml.Cursor

/-!
# Scalars in quotes

Between single quotes only the quote itself is doubled; between double quotes a backslash starts an
escape. Line breaks fold as in plain scalars.
-/

namespace RestDemo.Yaml.Cursor

/-- The character that a one-letter escape stands for. -/
def escaped? (c : Char) : Option Char :=
  match c with
  | '0' => some '\x00'
  | 'a' => some '\x07'
  | 'b' => some '\x08'
  | 't' => some '\t'
  | '\t' => some '\t'
  | 'n' => some '\n'
  | 'v' => some '\x0b'
  | 'f' => some '\x0c'
  | 'r' => some '\r'
  | 'e' => some '\x1b'
  | ' ' => some ' '
  | '"' => some '"'
  | '\\' => some '\\'
  | '/' => some '/'
  | 'N' => some '\x85'
  | '_' => some '\xa0'
  | 'L' => some '\u2028'
  | 'P' => some '\u2029'
  | _ => none

/-- How many hexadecimal digits follow a letter that announces a code. -/
def codeWidth? (c : Char) : Option Nat :=
  match c with
  | 'x' => some 2
  | 'u' => some 4
  | 'U' => some 8
  | _ => none

/-- The code that goes on from `n` with so many hexadecimal digits. -/
def code (n : Nat) : Nat → Cursor → Except DocumentError (Nat × Cursor)
  | 0, p => .ok (n, p)
  | width + 1, p =>
    match p.rest.head?.bind Text.hexValue? with
    | some d => code (16 * n + d) width p.next
    | none => .error p.failure

/-- The second half of a surrogate pair, if an escape with its code stands here. -/
def lowHalf? (p : Cursor) : Option (Nat × Cursor) :=
  match p.rest with
  | '\\' :: e :: _ => do
    let width ← codeWidth? e
    let (n, p) ← (code 0 width (p.skip 2)).toOption
    if Text.isLowSurrogate n then some (n, p) else none
  | _ => none

/-- The character of a code whose digits end here. There are faults for codes beyond the last
character and beyond a machine integer. -/
def coded (n : Nat) (p : Cursor) : Except DocumentError (List Char × Cursor) :=
  if 0x80000000 ≤ n then .error (.fault .tooLarge)
  else if 0x110000 ≤ n then .error (.fault .noCharacter)
  else if Text.isHighSurrogate n then
    match lowHalf? p with
    | some (low, p) => .ok ([Text.joinSurrogates n low], p)
    | none => .ok ([Text.charOfCode n], p)
  else .ok ([Text.charOfCode n], p)

/-- Past line breaks and the blanks around them in quotes, with the breaks; a line that separates
documents may not come. -/
def quotedBreaks : Nat → Cursor → Except DocumentError (List Char × Cursor)
  | 0, p => .error p.failure
  | fuel + 1, p =>
    if p.atSeparator then .error .malformed
    else
      let p := p.skipWhile fun c => c = ' ' || c = '\t'
      match p.rest with
      | c :: _ =>
        if isBreak c then (quotedBreaks fuel p.next).map fun (cs, p) => (breakText c :: cs, p)
        else .ok ([], p)
      | [] => .ok ([], p)

/-- An escape in double quotes, after its backslash: what it stands for, and where it ends. -/
def escape (fuel : Nat) (p : Cursor) : Except DocumentError (List Char × Cursor) :=
  match p.rest with
  | [] => .error p.failure
  | e :: _ =>
    match escaped? e, codeWidth? e with
    | some c, _ => .ok ([c], p.next)
    | none, some width => (code 0 width p.next).bind fun (n, p) => coded n p
    | none, none => if isBreak e then quotedBreaks fuel p.next else .error .malformed

/-- The rest of a scalar in quotes, and where it ends after its closing quote. -/
def quoted (double : Bool) : Nat → Cursor → Except DocumentError (List Char × Cursor)
  | 0, p => .error p.failure
  | fuel + 1, p =>
    let before (part : List Char) (p : Cursor) : Except DocumentError (List Char × Cursor) :=
      (quoted double fuel p).map fun (more, p) => (part ++ more, p)
    match p.rest with
    | [] => .error p.failure
    | c :: cs =>
      if double && c = '"' then .ok ([], p.next)
      else if !double && c = '\'' then
        if cs.head? = some '\'' then before ['\''] (p.skip 2) else .ok ([], p.next)
      else if double && c = '\\' then
        (escape fuel p.next).bind fun (part, p) => before part p
      else if c = ' ' || c = '\t' || isBreak c then
        let blanks := p.rest.takeWhile fun c => c = ' ' || c = '\t'
        let p := p.skip blanks.length
        match p.rest with
        | [] => .error p.failure
        | b :: _ =>
          if isBreak b then
            (quotedBreaks fuel p.next).bind fun (others, p) => before (fold b others) p
          else before blanks p
      else before [c] p.next

end RestDemo.Yaml.Cursor

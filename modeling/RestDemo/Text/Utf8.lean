import RestDemo.Fault

/-!
# UTF-8

Reading bytes as characters. A byte that starts no character, a character cut short by a byte that
cannot continue it, and a character cut short by the end of the bytes are told apart. The last of
these is no flaw as long as more bytes may follow.
-/

namespace RestDemo.Text

/-- What the bytes at some place begin with. -/
inductive Utf8Head where
  /-- A character of so many bytes. -/
  | char (c : Char) (size : Nat)
  /-- A character that ends too early, after so many bytes. -/
  | cut (size : Nat)
  /-- A character of which all bytes that are there are sound. -/
  | unfinished
  | badStart

def continues (b : UInt8) : Bool :=
  b &&& 0xC0 == 0x80

/-- Whether `b` may be the second byte after the first byte `a` of a longer character: the shortest
form is demanded, surrogates and what lies past the last code point are not characters. -/
def seconds (a b : UInt8) : Bool :=
  continues b &&
    !(a == 0xE0 && b < 0xA0) && !(a == 0xED && 0xA0 ≤ b) &&
    !(a == 0xF0 && b < 0x90) && !(a == 0xF4 && 0x90 ≤ b)

/-- The six bits that a continuing byte carries. -/
def payload (b : UInt8) : Nat :=
  b.toNat % 64

/-- The character at the head of the bytes. -/
def utf8Head : List UInt8 → Utf8Head
  | [] => .unfinished
  | a :: rest =>
    if a < 0x80 then .char (Char.ofNat a.toNat) 1
    else if a < 0xC2 || 0xF4 < a then .badStart
    else if a < 0xE0 then
      match rest with
      | [] => .unfinished
      | b :: _ =>
        if continues b then .char (Char.ofNat (a.toNat % 32 * 64 + payload b)) 2 else .cut 1
    else if a < 0xF0 then
      match rest with
      | [] => .unfinished
      | b :: rest =>
        if !seconds a b then .cut 1
        else match rest with
          | [] => .unfinished
          | c :: _ =>
            if continues c then
              .char (Char.ofNat ((a.toNat % 16 * 64 + payload b) * 64 + payload c)) 3
            else .cut 2
    else
      match rest with
      | [] => .unfinished
      | b :: rest =>
        if !seconds a b then .cut 1
        else match rest with
          | [] => .unfinished
          | c :: rest =>
            if !continues c then .cut 2
            else match rest with
              | [] => .unfinished
              | d :: _ =>
                if continues d then
                  .char (Char.ofNat
                    (((a.toNat % 8 * 64 + payload b) * 64 + payload c) * 64 + payload d)) 4
                else .cut 3

/-- Reads characters from the bytes at `position` on; `skip` bytes belong to a character already
read. If more bytes may follow, so unless `final`, an unfinished character is no flaw: its bytes are
held back and come second. So are the first two bytes of a surrogate. -/
def decodeFrom (final : Bool) (position skip : Nat) :
    List UInt8 → Except Undecodable (List Char × List UInt8)
  | [] => .ok ([], [])
  | a :: rest =>
    match skip with
    | skip + 1 => decodeFrom final (position + 1) skip rest
    | 0 =>
      let failure (size : Nat) (reason : String) : Except Undecodable (List Char × List UInt8) :=
        .error ⟨position, position + size - 1, a.toNat, reason⟩
      match utf8Head (a :: rest) with
      | .char c size =>
        (decodeFrom final (position + 1) (size - 1) rest).map fun (cs, held) => (c :: cs, held)
      | .cut size =>
        if !final && a == 0xED && size == 1 && rest.length == 1 && rest.all continues then
          .ok ([], a :: rest)
        else failure size "invalid continuation byte"
      | .unfinished =>
        if final then failure (rest.length + 1) "unexpected end of data" else .ok ([], a :: rest)
      | .badStart => failure 1 "invalid start byte"

/-- The characters of a row of bytes, and the bytes that are held back. -/
def decode (final : Bool) (bytes : List UInt8) : Except Undecodable (List Char × List UInt8) :=
  decodeFrom final 0 0 bytes

end RestDemo.Text

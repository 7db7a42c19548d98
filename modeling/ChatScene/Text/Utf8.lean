/-
  UTF-8: texts as bytes, and bytes as texts.

  1. **Encoding** — `encode` writes each character with one to four bytes.

  2. **Errors** — an `Error` names the bytes at fault: a byte that begins no character, or a beginning of a character
     that is not carried on.

  3. **Decoding** — `decode` goes through the bytes one by one and keeps the character that is under way (`Opening`); it
     refuses bytes that no text is written with, at the first byte that shows it.
-/
import ChatScene.Text.Digit

namespace ChatScene.Text.Utf8

/-- Bytes as they stand in a file. -/
abbrev Bytes := List UInt8

/-- The bytes of a text. -/
def encode (cs : List Char) : Bytes := cs.flatMap String.utf8EncodeChar

/-! ## Errors -/

/-- What is wrong with bytes. -/
inductive Fault where
  /-- The byte begins no character. -/
  | start
  /-- The next byte does not carry the character on. -/
  | continuation
  /-- The bytes end inside a character. -/
  | truncated
deriving DecidableEq, Repr

/-- The wording of a fault. -/
def Fault.reason : Fault → String
  | .start => "invalid start byte"
  | .continuation => "invalid continuation byte"
  | .truncated => "unexpected end of data"

/-- Bytes that are no text. -/
structure Error where
  /-- What is wrong. -/
  fault : Fault
  /-- Where the bytes at fault begin. -/
  position : Nat
  /-- How many bytes are at fault. -/
  count : Nat
  /-- The first byte at fault. -/
  byte : UInt8
deriving DecidableEq, Repr

/-- The text of the error. -/
def Error.message (e : Error) : String :=
  let place :=
    if e.count = 1 then s!"byte 0x{hexText 2 e.byte.toNat} in position {e.position}"
    else s!"bytes in position {e.position}-{e.position + e.count - 1}"
  s!"'utf-8' codec can't decode {place}: {e.fault.reason}"

/-! ## Decoding -/

/-- The beginning of a character. -/
structure Opening where
  /-- Where it begins. -/
  position : Nat
  /-- Its first byte. -/
  byte : UInt8
  /-- How many of its bytes have been read. -/
  count : Nat
  /-- The number that the bytes so far make up. -/
  bits : Nat
  /-- How many bytes are still to come. -/
  owed : Nat
  /-- The least next byte. -/
  least : Nat
  /-- The greatest next byte. -/
  greatest : Nat
deriving Repr

/-- The first byte of a character. -/
def opening (position : Nat) (byte : UInt8) : Option Opening :=
  let b := byte.toNat
  if b < 0x80 then some ⟨position, byte, 1, b, 0, 0x80, 0xBF⟩
  -- Bytes that carry a character on, and two that would begin a longer form than needed.
  else if b < 0xC2 then none
  else if b < 0xE0 then some ⟨position, byte, 1, b - 0xC0, 1, 0x80, 0xBF⟩
  else if b < 0xF0 then
    -- After 0xE0 and 0xF0 the forms that are too long are left out, after 0xED the halves of characters, and after
    -- 0xF4 what is beyond the last character.
    some ⟨position, byte, 1, b - 0xE0, 2, if b = 0xE0 then 0xA0 else 0x80, if b = 0xED then 0x9F else 0xBF⟩
  else if b < 0xF5 then
    some ⟨position, byte, 1, b - 0xF0, 3, if b = 0xF0 then 0x90 else 0x80, if b = 0xF4 then 0x8F else 0xBF⟩
  else none

/-- The next byte of a character, if it carries the character on. -/
def Opening.next (o : Opening) (byte : UInt8) : Option Opening :=
  let b := byte.toNat
  if o.least ≤ b ∧ b ≤ o.greatest then
    -- Only the second byte has bounds of its own.
    some { o with count := o.count + 1, bits := o.bits * 64 + (b - 0x80), owed := o.owed - 1,
                  least := 0x80, greatest := 0xBF }
  else none

/-- The error of a character that is not carried on. -/
def Opening.error (o : Opening) (fault : Fault) : Error := ⟨fault, o.position, o.count, o.byte⟩

/-- The text of bytes from a position on, with the character that is under way. -/
def decodeFrom (position : Nat) : Option Opening → Bytes → Except Error (List Char)
  | none, [] => .ok []
  | some o, [] => .error (o.error .truncated)
  | none, b :: bs =>
    match opening position b with
    | none => .error ⟨.start, position, 1, b⟩
    | some o =>
      if o.owed = 0 then (decodeFrom (position + 1) none bs).map (Char.ofNat o.bits :: ·)
      else decodeFrom (position + 1) (some o) bs
  | some o, b :: bs =>
    match o.next b with
    -- The byte itself is not at fault; it might begin a character.
    | none => .error (o.error .continuation)
    | some o =>
      if o.owed = 0 then (decodeFrom (position + 1) none bs).map (Char.ofNat o.bits :: ·)
      else decodeFrom (position + 1) (some o) bs

/-- The text of bytes. -/
def decode (bytes : Bytes) : Except Error (List Char) := decodeFrom 0 none bytes

end ChatScene.Text.Utf8

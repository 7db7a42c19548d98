/-
  Texts in files: what has been written is read back.

  A character is written with a first byte that tells how many bytes follow, and with six bits in each of those.  The
  reader goes byte by byte (`Utf8.decodeFrom`), and keeps what it has of a character that is not complete.

  1. **Bytes** — its steps are said once for each sort of byte: the only byte of a character (`decodeFrom_single`), the
     first of two, three or four, one in the middle (`decodeFrom_further`) and the last one (`decodeFrom_last`).

  2. **Characters** — these are put together for the bytes of one character (`decodeFrom_utf8EncodeChar`).  The limits
     on the second byte rule out what no character is written as; here they are met because a character is none of
     that.

  3. **Texts** — from there, by induction, for a whole text: `decode_encode`.

  4. **Line ends** — a text without carriage returns is left alone by the reading of line ends
     (`unifyBreaks_of_not_mem`).
-/
import Mathlib.Data.List.Basic
import ChatScene.Text.Split
import ChatScene.Text.Utf8

namespace ChatScene.Text

namespace Utf8

/-! ## Bytes -/

section Bytes

variable (position : Nat) {d : Nat} (bs : Bytes)

/-- A number that fits into a byte is that of the byte. -/
theorem toNat_byte {n : Nat} (h : n < 256) : (UInt8.ofNat n).toNat = n := by
  rw [UInt8.toNat_ofNat']
  exact Nat.mod_eq_of_lt h

theorem decodeFrom_single (h : d < 128) :
    decodeFrom position none (UInt8.ofNat d :: bs) = (decodeFrom (position + 1) none bs).map (Char.ofNat d :: ·) := by
  have hd := toNat_byte (n := d) (by omega)
  rw [decodeFrom, opening]
  simp [hd, h]

/-- The first byte of two: five bits of the character. -/
theorem decodeFrom_firstOfTwo (hlow : 2 ≤ d) (h : d < 32) :
    decodeFrom position none (UInt8.ofNat (d + 192) :: bs) =
      decodeFrom (position + 1) (some ⟨position, UInt8.ofNat (d + 192), 1, d, 1, 0x80, 0xBF⟩) bs := by
  have hd := toNat_byte (n := d + 192) (by omega)
  simp only [decodeFrom, opening, hd]
  rw [if_neg (by omega), if_neg (by omega), if_pos (by omega), Nat.add_sub_cancel]
  rfl

/-- The first byte of three: four bits.  The second byte is limited when they are all zero, and where halves of pairs
    would be. -/
theorem decodeFrom_firstOfThree (h : d < 16) :
    decodeFrom position none (UInt8.ofNat (d + 224) :: bs) =
      decodeFrom (position + 1)
        (some ⟨position, UInt8.ofNat (d + 224), 1, d, 2, if d = 0 then 0xA0 else 0x80, if d = 13 then 0x9F else 0xBF⟩)
        bs := by
  have hd := toNat_byte (n := d + 224) (by omega)
  simp only [decodeFrom, opening, hd]
  rw [if_neg (by omega), if_neg (by omega), if_neg (by omega), if_pos (by omega), Nat.add_sub_cancel]
  simp [show (d + 224 = 0xED) ↔ d = 13 by omega]

/-- The first byte of four: three bits.  The second byte is limited when they are all zero, and at the end of all
    characters. -/
theorem decodeFrom_firstOfFour (h : d < 5) :
    decodeFrom position none (UInt8.ofNat (d + 240) :: bs) =
      decodeFrom (position + 1)
        (some ⟨position, UInt8.ofNat (d + 240), 1, d, 3, if d = 0 then 0x90 else 0x80, if d = 4 then 0x8F else 0xBF⟩)
        bs := by
  have hd := toNat_byte (n := d + 240) (by omega)
  simp only [decodeFrom, opening, hd]
  rw [if_neg (by omega), if_neg (by omega), if_neg (by omega), if_neg (by omega), if_pos (by omega),
    Nat.add_sub_cancel]
  simp [show (d + 240 = 0xF4) ↔ d = 4 by omega]

variable {begin count bits owed least greatest : Nat} {byte : UInt8}

/-- Six more bits of a character, of which another byte is owed. -/
theorem decodeFrom_further (h : d < 64) (hleast : least ≤ d + 128) (hgreatest : d + 128 ≤ greatest) :
    decodeFrom position (some ⟨begin, byte, count, bits, owed + 2, least, greatest⟩) (UInt8.ofNat (d + 128) :: bs) =
      decodeFrom (position + 1) (some ⟨begin, byte, count + 1, bits * 64 + d, owed + 1, 0x80, 0xBF⟩) bs := by
  have hd := toNat_byte (n := d + 128) (by omega)
  simp only [decodeFrom, Opening.next, hd]
  rw [if_pos ⟨hleast, hgreatest⟩, Nat.add_sub_cancel]
  rfl

/-- The last six bits of a character, which is complete with them. -/
theorem decodeFrom_last (h : d < 64) (hleast : least ≤ d + 128) (hgreatest : d + 128 ≤ greatest) :
    decodeFrom position (some ⟨begin, byte, count, bits, 1, least, greatest⟩) (UInt8.ofNat (d + 128) :: bs) =
      (decodeFrom (position + 1) none bs).map (Char.ofNat (bits * 64 + d) :: ·) := by
  have hd := toNat_byte (n := d + 128) (by omega)
  simp only [decodeFrom, Opening.next, hd]
  rw [if_pos ⟨hleast, hgreatest⟩, Nat.add_sub_cancel]
  rfl

end Bytes

/-! ## Characters and texts -/

/-- The bytes of a character (`String.utf8EncodeChar`) are read as this character.  The cases are those of the writer,
    by the size of the character. -/
theorem decodeFrom_utf8EncodeChar (position : Nat) (c : Char) (bs : Bytes) :
    decodeFrom position none (String.utf8EncodeChar c ++ bs) =
      (decodeFrom (position + (String.utf8EncodeChar c).length) none bs).map (c :: ·) := by
  have hvalid : c.toNat < 0xD800 ∨ 0xDFFF < c.toNat ∧ c.toNat < 0x110000 := c.valid
  have hc : c = Char.ofNat c.toNat := (Char.ofNat_toNat c).symm
  simp only [String.utf8EncodeChar, show c.val.toNat = c.toNat from rfl]
  generalize c.toNat = v at hvalid hc
  subst hc
  split_ifs with h1 h2 h3
  · exact decodeFrom_single position bs (by omega)
  · have hbits : v / 64 % 32 * 64 + v % 64 = v := by omega
    rw [List.cons_append, List.singleton_append, decodeFrom_firstOfTwo _ _ (by omega) (by omega),
      decodeFrom_last _ _ (by omega) (by omega) (by omega), hbits]
    rfl
  -- the second byte is bounded more closely: no character is written with more bytes than it needs, and the numbers
  -- between `0xD800` and `0xDFFF` are not those of characters
  · have hbits : (v / 4096 % 16 * 64 + v / 64 % 64) * 64 + v % 64 = v := by omega
    have hleast : (if v / 4096 % 16 = 0 then 0xA0 else 0x80) ≤ v / 64 % 64 + 128 := by split_ifs <;> omega
    have hgreatest : v / 64 % 64 + 128 ≤ (if v / 4096 % 16 = 13 then 0x9F else 0xBF) := by split_ifs <;> omega
    rw [List.cons_append, List.cons_append, List.singleton_append, decodeFrom_firstOfThree _ _ (by omega),
      decodeFrom_further _ _ (by omega) hleast hgreatest, decodeFrom_last _ _ (by omega) (by omega) (by omega), hbits]
    rfl
  · have hbits : ((v / 262144 % 8 * 64 + v / 4096 % 64) * 64 + v / 64 % 64) * 64 + v % 64 = v := by omega
    have hleast : (if v / 262144 % 8 = 0 then 0x90 else 0x80) ≤ v / 4096 % 64 + 128 := by split_ifs <;> omega
    have hgreatest : v / 4096 % 64 + 128 ≤ (if v / 262144 % 8 = 4 then 0x8F else 0xBF) := by split_ifs <;> omega
    rw [List.cons_append, List.cons_append, List.cons_append, List.singleton_append,
      decodeFrom_firstOfFour _ _ (by omega), decodeFrom_further _ _ (by omega) hleast hgreatest,
      decodeFrom_further _ _ (by omega) (by omega) (by omega), decodeFrom_last _ _ (by omega) (by omega) (by omega),
      hbits]
    rfl

/-- The bytes of a text from any position, by induction on its characters. -/
theorem decodeFrom_encode (position : Nat) (cs : List Char) : decodeFrom position none (encode cs) = .ok cs := by
  induction cs generalizing position with
  | nil => rfl
  | cons c cs ih =>
    rw [encode, List.flatMap_cons, decodeFrom_utf8EncodeChar]
    change (decodeFrom _ none (encode cs)).map _ = _
    rw [ih]
    rfl

/-- A text that has been written is read back. -/
theorem decode_encode (cs : List Char) : decode (encode cs) = .ok cs := decodeFrom_encode 0 cs

end Utf8

/-- A text without carriage returns has its line ends as they should be. -/
theorem unifyBreaks_of_not_mem {cs : List Char} (h : '\r' ∉ cs) : unifyBreaks cs = cs := by
  fun_induction unifyBreaks cs with
  | case1 => rfl
  | case2 cs ih => simp at h
  | case3 cs _ ih => simp at h
  | case4 c cs _ _ ih => rw [ih fun hmem => h (List.mem_cons_of_mem c hmem)]

end ChatScene.Text

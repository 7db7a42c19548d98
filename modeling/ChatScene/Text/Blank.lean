/-
  Blanks and trimming.

  A text is handled as its list of characters.  The blanks are the characters that Unicode counts as white
  space together with the four information separators U+001C to U+001F; U+200B, U+180E and U+FEFF are no
  blanks.  `trim` drops blanks at both ends and is the only way in which the library removes blanks.
-/

namespace ChatScene.Text

/-! ## Blank characters -/

/-- The code points of the blanks, as closed ranges in increasing order. -/
def blankRanges : List (Nat × Nat) :=
  [(0x09, 0x0D), (0x1C, 0x20), (0x85, 0x85), (0xA0, 0xA0), (0x1680, 0x1680), (0x2000, 0x200A),
   (0x2028, 0x2029), (0x202F, 0x202F), (0x205F, 0x205F), (0x3000, 0x3000)]

/-- White space in the sense of trimming. -/
def isBlank (c : Char) : Bool :=
  blankRanges.any fun (lo, hi) => lo ≤ c.toNat && c.toNat ≤ hi

/-! ## Trimming -/

/-- The text without the blanks in front. -/
def trimFront (cs : List Char) : List Char := cs.dropWhile isBlank

/-- The text without the blanks at its end. -/
def trimBack (cs : List Char) : List Char := (cs.reverse.dropWhile isBlank).reverse

/-- The text without blanks at either end. -/
def trim (cs : List Char) : List Char := trimBack (trimFront cs)

/-- Trimming of a string. -/
def trimmed (s : String) : String := String.ofList (trim s.toList)

/-- Nothing but blanks, or nothing at all. -/
def isBlankText (cs : List Char) : Bool := cs.all isBlank

example : trim " \t a b\r\n".toList = "a b".toList := by decide +kernel
example : trim [Char.ofNat 0x200B, 'x'] = [Char.ofNat 0x200B, 'x'] := by decide +kernel

end ChatScene.Text

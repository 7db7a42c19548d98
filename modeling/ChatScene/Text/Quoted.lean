/-
  Quoted texts, as they stand in messages.

  A text is put between single quotes, or between double quotes when it holds a single quote and no double
  quote.  The quote in use and the backslash are written with a backslash in front; characters that are not
  printable, and halves of characters, are written as escapes.
-/
import ChatScene.Text.Printable
import ChatScene.Text.Wide

namespace ChatScene.Text

/-- The quote that a text takes. -/
def quoteFor (w : Wide) : Char :=
  if w.contains (.char '\'') && !w.contains (.char '"') then '"' else '\''

/-- The escape of a character by its number. -/
def numericEscape (c : Char) : String :=
  let n := c.toNat
  if n ≤ 0xFF then "\\x" ++ hexText 2 n
  else if n ≤ 0xFFFF then "\\u" ++ hexText 4 n
  else "\\U" ++ hexText 8 n

/-- A character between quotes `q`. -/
def quotedChar (q c : Char) : String :=
  if c = q ∨ c = '\\' then String.ofList ['\\', c]
  else if c = '\n' then "\\n"
  else if c = '\r' then "\\r"
  else if c = '\t' then "\\t"
  else if isPrintable c then String.singleton c
  else numericEscape c

/-- A point between quotes `q`. -/
def quotedPoint (q : Char) : Point → String
  | .char c => quotedChar q c
  | .half h => String.ofList (spelledHalf h)

/-- A text in quotes. -/
def quoted (w : Wide) : String :=
  let q := quoteFor w
  String.singleton q ++ String.join (w.map (quotedPoint q)) ++ String.singleton q

/-- Texts with a comma and a space between neighbours. -/
def commaList (items : List String) : String := String.intercalate ", " items

end ChatScene.Text

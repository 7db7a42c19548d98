/-
  Writing JSON documents.

  1. **Texts** — `writeText` puts a text between quotes.  Only the quote, the backslash, control characters and halves
     of characters are escaped (`escaped`, `escapedPoint`).

  2. **Layout** — every item of a list and every member of an object stands on a line of its own, two blanks deeper than
     the bracket that holds it (`newLine`); empty lists and objects are written as a pair of brackets.

  3. **Documents** — `write`, `writeItems` and `writeMembers` go down into a document together, and `render` is the
     whole text.  It does not end in a line feed.
-/
import ChatScene.Json.Value

namespace ChatScene.Json

open ChatScene.Text

/-- Numbers in documents: as in messages, with the two words of their own for values that are not finite. -/
def numberLayout : Decimal.Layout := ⟨-3, 16, 2, "Infinity", "NaN"⟩

/-- A character inside a text. -/
def escaped (c : Char) : List Char :=
  if c = '"' then ['\\', '"']
  else if c = '\\' then ['\\', '\\']
  else if c = '\n' then ['\\', 'n']
  else if c = '\r' then ['\\', 'r']
  else if c = '\t' then ['\\', 't']
  else if c = '\x08' then ['\\', 'b']
  else if c = '\x0c' then ['\\', 'f']
  else if c.toNat < 0x20 then '\\' :: 'u' :: (hexText 4 c.toNat).toList
  else [c]

/-- A point inside a text. -/
def escapedPoint : Point → List Char
  | .char c => escaped c
  | .half h => spelledHalf h

/-- A text between its quotes. -/
def writeText (s : Wide) : List Char := '"' :: s.flatMap escapedPoint ++ ['"']

/-- A point inside a text where halves are not escaped. -/
def unescapedHalf : Point → Wide
  | .char c => (escaped c).map .char
  | .half h => [.half h]

/-- Why a text cannot be written to a file if halves are not escaped. -/
def textRefusal? (s : Wide) : Option Refusal := refusal? (fun _ => false) (.char '"' :: s.flatMap unescapedHalf)

/-- A line end and the blanks in front of what stands `depth` brackets deep. -/
def newLine (depth : Nat) : List Char := '\n' :: List.replicate (2 * depth) ' '

mutual

/-- A value whose first character stands on a line that is `depth` brackets deep. -/
def write (depth : Nat) : Json → List Char
  | .null => "null".toList
  | .bool b => (if b then "true" else "false").toList
  | .int n => (toString n).toList
  | .float x => (numberLayout.render x).toList
  | .str s => writeText s
  | .arr [] => ['[', ']']
  | .arr items => '[' :: newLine (depth + 1) ++ writeItems (depth + 1) items ++ newLine depth ++ [']']
  | .obj [] => ['\x7b', '\x7d']
  | .obj members =>
    '\x7b' :: newLine (depth + 1) ++ writeMembers (depth + 1) members ++ newLine depth ++ ['\x7d']

/-- Items, each on its line. -/
def writeItems (depth : Nat) : List Json → List Char
  | [] => []
  | [j] => write depth j
  | j :: js => write depth j ++ ',' :: newLine depth ++ writeItems depth js

/-- Members, each on its line. -/
def writeMembers (depth : Nat) : List (Wide × Json) → List Char
  | [] => []
  | [(k, v)] => writeText k ++ ':' :: ' ' :: write depth v
  | (k, v) :: rest => writeText k ++ ':' :: ' ' :: write depth v ++ ',' :: newLine depth ++ writeMembers depth rest

end

/-- The text of a document. -/
def render (j : Json) : String := String.ofList (write 0 j)

end ChatScene.Json

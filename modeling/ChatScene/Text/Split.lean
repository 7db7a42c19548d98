/-
  Cutting a text at a separator, and joining the pieces again.

  `splitOn sep` cuts at every occurrence of one character, or of anything else that a list may hold, and keeps empty
  pieces, so a text with `n` separators has `n + 1` pieces.  `unifyBreaks` is the reading of line ends in text files: a
  carriage return, alone or before a line feed, counts as a line feed.
-/

namespace ChatScene.Text

/-- The pieces between the separators, in order; there is always at least one. -/
def splitOn {α : Type} [DecidableEq α] (sep : α) : List α → List (List α)
  | [] => [[]]
  | c :: cs =>
    if c = sep then [] :: splitOn sep cs
    else
      match splitOn sep cs with
      -- Does not happen; there is always a piece.
      | [] => [[c]]
      | piece :: rest => (c :: piece) :: rest

/-- The pieces with `glue` between neighbours. -/
def joinWith {α : Type} (glue : List α) : List (List α) → List α
  | [] => []
  | [piece] => piece
  | piece :: rest => piece ++ glue ++ joinWith glue rest

/-- The lines of a text: what stands between line feeds. -/
def lines (cs : List Char) : List (List Char) := splitOn '\n' cs

/-- Every line end is a single line feed afterwards. -/
def unifyBreaks : List Char → List Char
  | [] => []
  | '\r' :: '\n' :: cs => '\n' :: unifyBreaks cs
  | '\r' :: cs => '\n' :: unifyBreaks cs
  | c :: cs => c :: unifyBreaks cs

/-- Whether the text begins with `front`. -/
def startsWith (front : List Char) (cs : List Char) : Bool := front.isPrefixOf cs

/-- Letters A to Z in lower case; all other characters stay. -/
def lowered (cs : List Char) : List Char := cs.map Char.toLower

example : splitOn ',' "a,,b".toList = ["a".toList, [], "b".toList] := by decide +kernel
example : unifyBreaks "a\r\nb\rc\n".toList = "a\nb\nc\n".toList := by decide +kernel

end ChatScene.Text

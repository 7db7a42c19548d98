/-
  The machine that a program runs on, as far as it decides what the program does.

  A machine has limits that no file shows.  They differ from machine to machine, and even from one place of a program to
  another, so what is said about programs is said for every `Machine`.
-/
import ChatScene.Json.Schema

namespace ChatScene

/-- What a machine can do. -/
structure Machine where
  /-- How many levels of lists and objects a document may have, so that it can be read. -/
  levels : Nat := 900
  /-- There are enough of them for every compiled script. -/
  levels_ge : 4 ≤ levels := by decide
  /-- The complaints about documents that can be put into words.  The wording of a complaint shows a value, which may be
      nested too deep for that though it could be read. -/
  words : Json.Complaint → Bool := fun _ => true
  /-- The halves of characters that the standard output takes; a strict one takes none. -/
  takes : Text.Half → Bool := fun _ => false

end ChatScene

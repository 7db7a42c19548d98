/-
  Paths: the names of files.

  1. **Reading** — a `Path` is a list of names after up to two leading slashes.  `Path.ofWide` drops empty names and
     names that are a single dot, so that two texts that differ only in these are one path; a name of two dots stays.
     Names are wide texts: the name of a file need not be a text, and a byte that is part of none stands in it as half
     of a character.

  2. **Parts** — `Path.join` sees a path from another one, and `Path.parent` and `Path.stem` take it apart.
     `Path.withEnding` is where the compiled form of a script goes.
-/
import ChatScene.Text.Split
import ChatScene.Text.Quoted

namespace ChatScene

open ChatScene.Text

/-- A path. -/
structure Path where
  /-- How many slashes it begins with: none, one, or two. -/
  slashes : Nat := 0
  /-- The names from the outside in. -/
  names : List Wide := []
deriving DecidableEq, Repr

namespace Path

/-- The leading slashes that count: exactly two stay two, and more than two are one. -/
def leadingSlashes (w : Wide) : Nat :=
  match (w.takeWhile (· = .char '/')).length with
  | 0 => 0
  | 2 => 2
  | _ => 1

/-- The path that a wide text spells. -/
def ofWide (w : Wide) : Path where
  slashes := leadingSlashes w
  names := (splitOn (.char '/') w).filter fun name => name ≠ [] ∧ name ≠ ofString "."

/-- The path that a text spells. -/
def ofString (s : String) : Path := ofWide s

/-- The path as it is written; the empty path is a dot. -/
def written (p : Path) : Wide :=
  let w := List.replicate p.slashes (.char '/') ++ joinWith [.char '/'] p.names
  if w.isEmpty then Text.ofString "." else w

/-- The text of a path in messages, with halves spelled out. -/
def text (p : Path) : String := spelled p.written

/-- The path begins at the top. -/
def isAbsolute (p : Path) : Bool := p.slashes ≠ 0

/-- The last name; empty when there is none. -/
def name (p : Path) : Wide := p.names.getLast?.getD []

/-- The path without its last name. -/
def parent (p : Path) : Path := { p with names := p.names.dropLast }

/-- A path seen from another one: an absolute path stays as it is. -/
def join (p q : Path) : Path := if q.isAbsolute then q else { p with names := p.names ++ q.names }

/-- A name cut at its last dot, unless the dot is the first or the last character. -/
def cutName (name : Wide) : Wide × Wide :=
  let ending := name.reverse.takeWhile (· ≠ .char '.')
  -- What stands before the dot; empty if there is no dot, or if the name begins with it.
  let front := name.take (name.length - (ending.length + 1))
  if ending = [] ∨ front = [] then (name, []) else (front, .char '.' :: ending.reverse)

/-- The last name without its ending. -/
def stem (p : Path) : Wide := (cutName p.name).1

/-- The path with another ending of its last name; nothing if there is no name. -/
def withEnding (p : Path) (ending : String) : Option Path :=
  if p.name.isEmpty then none
  else some { p with names := p.names.dropLast ++ [p.stem ++ Text.ofString ending] }

example : (ofString "./a//b/../c.d/").text = "a/b/../c.d" := by decide +kernel
example : ((ofString "x/scene.v2.chat").withEnding ".json").map text = some "x/scene.v2.json" := by decide +kernel

end Path

end ChatScene

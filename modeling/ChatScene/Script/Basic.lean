/-
  Scripts: a scene's commands in order, with a table of its labels.

  1. **Labels** — `labelTable` has each label at the place of its first definition; later ones are not reached by any
     jump.

  2. **Scripts** — a `Script` is commands with their table, and `Script.find?` looks a label up.

  3. **Reading a text** — each significant line of a text becomes one command with the number of its line (`readLines`).
     Lines that are blank after trimming, or that begin with the comment mark, count for the numbering only.  The first
     line that is refused ends the reading (`Script.parse`).
-/
import ChatScene.Log
import ChatScene.Command.Read

namespace ChatScene

open ChatScene.Text

/-! ## Labels -/

/-- Where a label is in a table. -/
def findLabel (name : String) : List (String × Nat) → Option Nat
  | [] => none
  | (k, i) :: rest => if k = name then some i else findLabel name rest

/-- The table with a label added at the end, unless it is there already. -/
def addLabel (table : List (String × Nat)) (name : String) (i : Nat) : List (String × Nat) :=
  if (findLabel name table).isSome then table else table ++ [(name, i)]

/-- The table extended by the labels of commands that stand at position `i` and after. -/
def extendLabels (table : List (String × Nat)) (i : Nat) : List Command → List (String × Nat)
  | [] => table
  | c :: cs =>
    match c.label? with
    | some name => extendLabels (addLabel table name i) (i + 1) cs
    | none => extendLabels table (i + 1) cs

/-- Each label with the position of its first definition, in order of definition. -/
def labelTable (commands : List Command) : List (String × Nat) := extendLabels [] 0 commands

/-! ## Scripts -/

/-- A scene. -/
structure Script where
  /-- The name of the scene. -/
  id : String := "parsed"
  /-- Its commands in order. -/
  commands : List Command := []
  /-- Label names with positions in `commands`. -/
  labels : List (String × Nat) := []
deriving BEq, Repr

/-- The script of given commands, with their label table. -/
def Script.ofCommands (id : String) (commands : List Command) : Script :=
  ⟨id, commands, labelTable commands⟩

/-- The position of a label's first definition. -/
def Script.find? (s : Script) (name : String) : Option Nat := findLabel name s.labels

/-- A script with a line that is refused. -/
structure ScriptError where
  /-- Where the script comes from. -/
  source : String
  /-- The refused line. -/
  error : CommandError
deriving BEq, Repr

/-- The text of the error. -/
def ScriptError.message (e : ScriptError) : String := s!"{e.source}: {e.error.message}"

/-! ## Reading a text -/

/-- The comment mark of a scene unless another one is set. -/
def defaultMark : String := "#"

/-- The name of a source that has none. -/
def unnamedSource : String := "<script>"

/-- A trimmed line that holds a command: neither blank nor a comment. -/
def isSignificant (mark : List Char) (line : List Char) : Bool :=
  !line.isEmpty && !startsWith mark line

/-- The comma separated tokens of a line. -/
def tokensOf (line : List Char) : List String := (splitOn ',' line).map String.ofList

/-- The commands of lines that are numbered from `n` on. -/
def readLines (mark : List Char) (n : Nat) : List (List Char) → Except CommandError (List Command)
  | [] => .ok []
  | raw :: rest =>
    let line := trim raw
    if isSignificant mark line then
      match Command.ofTokens (.whole n) (tokensOf line) with
      | .error e => .error e
      | .ok command =>
        match readLines mark (n + 1) rest with
        | .error e => .error e
        | .ok commands => .ok (command :: commands)
    else readLines mark (n + 1) rest

/-- The script that a text spells. -/
def Script.parse (mark source text : String) : Except ScriptError Script :=
  match readLines mark.toList 0 (lines text.toList) with
  | .error e => .error ⟨source, e⟩
  | .ok commands => .ok (Script.ofCommands "parsed" commands)

/-- The report that a script from this source holds nothing, if so. -/
def Script.emptyReport (source : String) (s : Script) : List LogLine :=
  if s.commands.isEmpty then [⟨.warning, .script, s!"No chat commands parsed from {source}."⟩] else []

/-- The log lines of reading a text. -/
def Script.parseLog (source : String) (r : Except ScriptError Script) : List LogLine :=
  match r with
  | .ok s => s.emptyReport source
  | .error _ => []

end ChatScene

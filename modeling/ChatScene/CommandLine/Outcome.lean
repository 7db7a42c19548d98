/-
  Runs of a program: what goes in and what comes out.

  1. **Input** — a run has input lines, and when it asks for more than there are, the input has an end (`InputEnd`): it
     is closed, the user breaks off, or the bytes that come next are no text.

  2. **Output** — what a run writes stands in order (`Outcome.written`).  Log lines go to the error output from some
     level on.  What the standard output has refused is on neither of them.

  3. **Endings** — a run ends with an exit status, or with a failure that the program does not report itself (`Escape`).
-/
import ChatScene.Console.Basic

namespace ChatScene

open ChatScene.Text

/-! ## Input -/

/-- What a program comes to that asks for more lines than there are. -/
inductive InputEnd where
  | closed
  /-- The user breaks off. -/
  | interrupted
  /-- What comes next is no text. -/
  | undecodable (error : Utf8.Error)

/-- What a program reads from its input. -/
structure Input where
  /-- The lines. -/
  lines : List String := []
  /-- What comes after them. -/
  ending : InputEnd := .closed

/-- The lines of an input text; a line feed ends a line. -/
def inputLines (text : String) : List String :=
  let pieces := Text.lines text.toList
  (if pieces.getLast? = some [] then pieces.dropLast else pieces).map String.ofList

/-! ## Output -/

/-- The text of a piece on the standard output. -/
def Piece.outText : Piece → Wide
  | .out text => text
  | .ask text => text
  | _ => []

/-- The text of a piece on the error output, where log lines stand from some level on. -/
def Piece.errText (least : Level) : Piece → String
  | .err text => text
  | .log line => if least.rank ≤ line.level.rank then line.text else ""
  | _ => ""

/-! ## Endings -/

/-- A failure that a program does not report itself. -/
inductive Escape where
  | interrupted
  /-- The input is no text. -/
  | undecodable (error : Utf8.Error)
  /-- The standard output has refused a text. -/
  | unwritable (message : String)
  | input (error : InputError)
  | console (failure : ConsoleFailure)

/-- The text of the failure. -/
def Escape.message : Escape → String
  | .interrupted => ""
  | .undecodable error => error.message
  | .unwritable message => message
  | .input error => error.message
  | .console failure => failure.message

/-- How a run ends. -/
inductive Ending where
  | exit (status : Nat)
  | escape (failure : Escape)

/-- What a run leaves. -/
structure Outcome where
  /-- The files afterwards. -/
  tree : Tree
  /-- What has been written. -/
  written : List Piece
  /-- How the run ended. -/
  ending : Ending
  /-- The least level of the log lines that are written. -/
  least : Level := .info

/-- The standard output. -/
def Outcome.out (o : Outcome) : Wide := o.written.flatMap Piece.outText

/-- The error output. -/
def Outcome.err (o : Outcome) : String := String.join (o.written.map (Piece.errText o.least))

/-- The failure of a program that asks for more input than there is. -/
def InputEnd.escape : InputEnd → Escape
  | .closed => .console .endOfInput
  | .interrupted => .interrupted
  | .undecodable error => .undecodable error

/-- The ending of a program whose scene has been played, or could not be played to its end.  A session fails only where
    the standard output refuses a text. -/
def Ending.ofConsole (input : Input) (failure : Option ConsoleFailure) : Ending :=
  match failure with
  | none => .exit 0
  | some .endOfInput => .escape input.ending.escape
  | some (.session failure) => .escape (.unwritable failure.message)
  | some other => .escape (.console other)

end ChatScene

/-
  A demonstration: a scene in a coffee shop.

  The scene and its pictures are in the folder of chats.  Every jump is shown, since `jumpBus` has a handler that hears
  of jumps, and at the end the choices and the number of jumps are told (`summary`).  `run` plays the scene as the
  program plays one, with settings of its own.
-/
import ChatScene.CommandLine.Run

namespace ChatScene.Demo

/-- The folder of chats. -/
def folder : Path := Path.ofString "chats"

/-- The scene. -/
def scenePath : Path := folder.join (Path.ofString "coffee_shop.chat")

/-- The pictures. -/
def picturesPath : Path := folder.join (Path.ofString "pictures.json")

/-- Short pauses, and jumps that take effect at once. -/
def settings : Settings := { settleDelay := 0.3, jumpEndsBeat := true }

/-- A bus with one handler, which hears of jumps. -/
def jumpBus : Bus Notice := { table := [(.labelJumped, [⟨0, true⟩])] }

/-- Reads pictures and script, in this order. -/
def prepare (m : Machine) (t : Tree) : Logged (Except InputError CommandLine.Program) :=
  let first := Catalog.load t m picturesPath
  match first.result with
  | .error e => ⟨first.logs, .error e⟩
  | .ok catalog =>
    let second := t.script defaultMark scenePath
    ⟨first.logs ++ second.logs, second.result.map fun script => ⟨settings, some catalog, script⟩⟩

/-- The variables with their values. -/
def shownVariables (store : List (String × String)) : String :=
  "\x7b" ++ Text.commaList (store.map fun (name, value) => Text.quoted name ++ ": " ++ Text.quoted value) ++ "\x7d"

/-- How many jumps have been heard of. -/
def jumpCount (w : Stage) : Nat :=
  w.seen.countP fun m =>
    match m with
    | .heard .. => true
    | _ => false

/-- What is told at the end. -/
def summary (w : Stage) : List Piece :=
  [.line s!"\nChoices made: {shownVariables w.session.store}", .line s!"Jumps taken: {jumpCount w}"]

/-- The run of the demonstration; nothing if the fuel does not suffice. -/
def run (m : Machine) (fuel : Nat) (t : Tree) (input : Input) : Option Outcome :=
  let prepared := prepare m t
  let logs := prepared.logs.map Piece.log
  match prepared.result with
  | .error e => some { tree := t, written := logs, ending := .escape (.input e), least := .warning }
  | .ok program =>
    (program.play fuel m.takes (some jumpBus) input.lines).map fun (c, failure) =>
      { tree := t
        written := logs ++ c.written.map (Piece.received m.takes) ++ if failure.isNone then summary c.stage else []
        ending := Ending.ofConsole input failure, least := .warning }

end ChatScene.Demo

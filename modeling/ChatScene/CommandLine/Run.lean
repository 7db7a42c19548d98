/-
  The program: what a command line does.

  1. **Checking** — reports on each script by itself (`CommandLine.checkAll`).

  2. **Compiling** and **playing** — report a file that is of no use, and the status is one (`CommandLine.failed`).
     Some errors are not reported but end the program (`InputError.isReported`).

  3. **Runs** — `CommandLine.run` reads the arguments and does what they ask for, on a machine, in a tree of files and
     with some input.  A line that the standard output refuses ends every run.
-/
import ChatScene.CommandLine.Outcome
import ChatScene.CommandLine.Request

namespace ChatScene

open ChatScene.Text

/-- Files that are of no use are reported by the program.  Names that no file can have, texts that no file takes,
    numbers with too many digits and documents with too many levels are not. -/
def InputError.isReported : InputError → Bool
  | .file .nullInName | .file (.halfInName _) | .file (.halfInText _) => false
  | .document (.tooManyDigits _) | .document (.tooDeep _) => false
  | .wordless => false
  | .noName _ => false
  | _ => true

namespace CommandLine

/-! ## Checking -/

/-- The report on a script that is in order. -/
def approval (path : Path) (s : Script) : Piece :=
  .line (ofString "OK   " ++ path.written ++ ofString s!" ({s.commands.length} commands, {s.labels.length} labels)")

/-- The report on a script that is not. -/
def objection (path : Path) (e : InputError) : Piece := .err s!"FAIL {path.text}: {e.message}\n"

/-- What checking leaves: the reports, how many scripts are not in order, and the failure that it ends with. -/
structure Checked where
  /-- The reports. -/
  written : List Piece := []
  /-- How many scripts are not in order. -/
  failures : Nat := 0
  /-- The failure that checking ends with. -/
  escape : Option Escape := none

/-- The failure of a program whose standard output refuses a piece. -/
def refused? (m : Machine) (piece : Piece) : Option Escape :=
  (piece.refusal? m.takes).map fun refusal => .unwritable refusal.message

/-- Checks one script. -/
def checkOne (m : Machine) (t : Tree) (path : Path) : Checked :=
  -- There is no flag for settings here, so comments are marked as usual.
  let read := t.script defaultMark path
  let logs := read.logs.map Piece.log
  match read.result with
  | .ok s => { written := logs ++ [(approval path s).received m.takes], escape := refused? m (approval path s) }
  | .error e =>
    if e.isReported then { written := logs ++ [objection path e], failures := 1 }
    else { written := logs, escape := some (.input e) }

/-- Checks scripts one after the other. -/
def checkAll (m : Machine) (t : Tree) : List Path → Checked
  | [] => {}
  | path :: rest =>
    let first := checkOne m t path
    -- A script that is not in order does not keep the others from being checked; a failure does.
    if first.escape.isSome then first
    else
      let others := checkAll m t rest
      ⟨first.written ++ others.written, first.failures + others.failures, others.escape⟩

/-- Checking as a run. -/
def runCheck (m : Machine) (t : Tree) (paths : List Path) : Outcome :=
  let checked := checkAll m t paths
  { tree := t, written := checked.written
    ending := checked.escape.elim (.exit (if checked.failures = 0 then 0 else 1)) .escape }

/-! ## Compiling -/

/-- The end of a run that fails on a file. -/
def failed (t : Tree) (written : List Piece) (e : InputError) : Outcome :=
  if e.isReported then
    { tree := t, written := written ++ [.log ⟨.error, .program, e.message⟩], ending := .exit 1 }
  else { tree := t, written, ending := .escape (.input e) }

/-- The report on a script that has been compiled. -/
def confirmation (path out : Path) : Piece :=
  .line (ofString "Compiled " ++ path.written ++ ofString " -> " ++ out.written)

/-- Compiling as a run. -/
def runCompile (m : Machine) (t : Tree) (path : Path) (output : Option Path) : Outcome :=
  let compiled := t.compile path output
  let logs := compiled.logs.map Piece.log
  match compiled.outcome with
  | .error e => failed compiled.tree logs e
  | .ok out =>
    { tree := compiled.tree, written := logs ++ [(confirmation path out).received m.takes]
      ending := (refused? m (confirmation path out)).elim (.exit 0) .escape }

/-! ## Playing -/

/-- What playing needs: settings, pictures and the script. -/
structure Program where
  /-- The settings. -/
  settings : Settings
  /-- The pictures, if there are any. -/
  catalog : Option Catalog
  /-- The scene. -/
  script : Script

/-- The settings from a file, or the usual ones. -/
def settingsFrom (m : Machine) (t : Tree) (config : Option Path) : Logged (Except InputError Settings) :=
  config.elim ⟨[], .ok {}⟩ (t.settings m)

/-- The pictures from a manifest, if there is one. -/
def catalogFrom (m : Machine) (t : Tree) (pictures : Option Path) : Logged (Except InputError (Option Catalog)) :=
  match pictures with
  | none => ⟨[], .ok none⟩
  | some path =>
    let read := Catalog.load t m path
    ⟨read.logs, read.result.map some⟩

/-- Reads settings, pictures and script, in this order. -/
def prepare (m : Machine) (t : Tree) (script : Path) (pictures config : Option Path) :
    Logged (Except InputError Program) :=
  let first := settingsFrom m t config
  match first.result with
  | .error e => ⟨first.logs, .error e⟩
  | .ok settings =>
    let second := catalogFrom m t pictures
    match second.result with
    | .error e => ⟨first.logs ++ second.logs, .error e⟩
    | .ok catalog =>
      -- The script comes last, since the settings say how comments are marked.
      let third := t.script settings.commentMark script
      ⟨first.logs ++ second.logs ++ third.logs, third.result.map fun script => ⟨settings, catalog, script⟩⟩

/-- The console for a program, before the script is loaded. -/
def Program.console (p : Program) (bus : Option (Bus Notice)) (lines : List String) : Console :=
  { stage := { session := { settings := p.settings }, bus }, catalog := p.catalog, answers := .lines lines }

/-- Loads the script and plays it; nothing if the fuel does not suffice. -/
def Program.play (fuel : Nat) (p : Program) (takes : Half → Bool) (bus : Option (Bus Notice)) (lines : List String) :
    Option (Console × Option ConsoleFailure) :=
  -- Nobody reacts to the scene but the terminal, which may refuse to show an image.
  let react := Console.refusals takes p.catalog
  ((p.console bus lines).load fuel p.script react).bind fun c => c.play fuel react

/-- The status of a user who breaks off. -/
def interruptedStatus : Nat := 130

/-- The end of a run that has played a scene, or could not play it to its end. -/
def concluded (t : Tree) (input : Input) (written : List Piece) (failure : Option ConsoleFailure) : Outcome :=
  match Ending.ofConsole input failure with
  -- Breaking off and bytes that are no text are endings of their own; other failures stay as they are.
  | .escape .interrupted => { tree := t, written, ending := .exit interruptedStatus }
  | .escape (.undecodable error) =>
    { tree := t, written := written ++ [.log ⟨.error, .program, error.message⟩], ending := .exit 1 }
  | ending => { tree := t, written, ending }

/-- Playing as a run; nothing if the fuel does not suffice. -/
def runPlay (m : Machine) (fuel : Nat) (t : Tree) (input : Input) (script : Path) (pictures config : Option Path) :
    Option Outcome :=
  let prepared := prepare m t script pictures config
  let logs := prepared.logs.map Piece.log
  match prepared.result with
  | .error e => some (failed t logs e)
  | .ok program =>
    (program.play fuel m.takes none input.lines).map fun (c, failure) =>
      concluded t input (logs ++ c.written.map (Piece.received m.takes)) failure

/-! ## Runs -/

/-- What a request does; nothing if the fuel does not suffice. -/
def Request.run (m : Machine) (fuel : Nat) (t : Tree) (input : Input) : Request → Option Outcome
  | .check scripts => some (runCheck m t scripts)
  | .compile script output => some (runCompile m t script output)
  | .play script pictures config => runPlay m fuel t input script pictures config

/-- A response as a run. -/
def Response.outcome (t : Tree) : Response → Outcome
  | .help manual => { tree := t, written := [.out manual.help], ending := .exit 0 }
  | .misuse manual why => { tree := t, written := [.err (manual.rebuke why)], ending := .exit 2 }

/-- The run of the program on arguments; nothing if the fuel does not suffice. -/
def run (m : Machine) (fuel : Nat) (t : Tree) (input : Input) (arguments : List Wide) : Option Outcome :=
  match Invocation.ofArguments arguments with
  | .error response => some (response.outcome t)
  | .ok call =>
    (call.request.run m fuel t input).map fun o => { o with least := if call.verbose then .debug else .info }

end CommandLine

end ChatScene

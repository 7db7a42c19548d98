/-
  Scenes in files: scripts, compiled scripts and settings.

  1. **Errors** — an `InputError` says why a file is of no use, whatever it should have held.

  2. **Reading** — `Tree.script` gives a script the stem of its file's name as its own name.  `Tree.compiledScript` and
     `Tree.settings` read documents.

  3. **Compiling** — `Tree.compile` reads a script and writes its compiled form beside it, or where one says; a script
     that is refused leaves all files as they are.  The name is the first thing that is written of a script: if there is
     half of a character in it, writing breaks off there (`Tree.breakCompiled`).
-/
import ChatScene.Files.Tree
import ChatScene.Json.Reader
import ChatScene.Json.Writer
import ChatScene.Machine
import ChatScene.Script.Compiled
import ChatScene.Settings

namespace ChatScene

/-! ## Errors -/

/-- Why a file is of no use. -/
inductive InputError where
  | file (error : FileError)
  | document (error : Json.Error)
  | script (error : ScriptError)
  | compiled (error : CompiledError)
  | settings (errors : List SettingError)
  /-- The document is no list of pictures. -/
  | manifest (path : Path) (complaint : Json.Complaint)
  /-- What is wrong with the document cannot be put into words. -/
  | wordless
  /-- The path has no name that could take an ending. -/
  | noName (path : Path)

/-- The text of the error. -/
def InputError.message : InputError → String
  | .file error => error.message
  | .document error => error.message
  | .script error => error.message
  | .compiled error => error.message
  | .settings errors => settingErrorsText errors
  | .manifest path complaint => s!"Invalid picture manifest {path.text}: {complaint.message}"
  | .wordless => "maximum recursion depth exceeded while getting the repr of an object"
  | .noName path => s!"PosixPath({Text.quoted path.written}) has an empty name"

namespace Tree

/-! ## Reading -/

/-- The text of a file. -/
def inputText (t : Tree) (path : Path) : Except InputError String := (t.readText path).mapError .file

/-- The document in a file. -/
def inputDocument (t : Tree) (m : Machine) (path : Path) : Except InputError Json :=
  match t.inputText path with
  | .error e => .error e
  | .ok text => (Json.parse m.levels text).mapError .document

/-- The script in a file, with the log lines of reading it. -/
def script (t : Tree) (mark : String) (path : Path) : Logged (Except InputError Script) :=
  match t.inputText path with
  | .error e => ⟨[], .error e⟩
  | .ok text =>
    match Script.parse mark path.text text with
    | .error e => ⟨[], .error (.script e)⟩
    | .ok s => ⟨s.emptyReport path.text, .ok { s with id := Text.spelled path.stem }⟩

/-- The script whose compiled form is in a file. -/
def compiledScript (t : Tree) (m : Machine) (path : Path) : Except InputError Script :=
  match t.inputDocument m path with
  | .error e => .error e
  | .ok j => (Script.ofJson j).mapError .compiled

/-- The settings in a file, with the log lines of reading them. -/
def settings (t : Tree) (m : Machine) (path : Path) : Logged (Except InputError Settings) :=
  match t.inputDocument m path with
  | .error e => ⟨[], .error e⟩
  | .ok j =>
    match Settings.ofJson j with
    | .error es => ⟨[], .error (.settings es)⟩
    | .ok s => ⟨[⟨.debug, .settings, s!"Loaded chat config from {path.text}: {s.shown}"⟩], .ok s⟩

/-! ## Writing -/

/-- The tree after the compiled form of a script has been written. -/
def saveCompiled (t : Tree) (s : Script) (path : Path) : Except InputError Tree :=
  (t.writeText path (Json.render s.toJson).toList).mapError .file

/-- The tree after the compiled form of a script has been written as far as its name. -/
def breakCompiled (t : Tree) (path : Path) : Except InputError Tree :=
  (t.writeText path "\x7b\n  \"id\": ".toList).mapError .file

/-- Where the compiled form of a script goes. -/
def compiledPath (path : Path) (output : Option Path) : Except InputError Path :=
  match output with
  | some out => .ok out
  | none => (path.withEnding ".json").elim (.error (.noName path)) .ok

end Tree

/-- What comes of compiling a script. -/
structure Compilation where
  /-- The log lines, oldest first. -/
  logs : List LogLine
  /-- The path of the compiled form, or why there is none. -/
  outcome : Except InputError Path
  /-- The files afterwards. -/
  tree : Tree

/-- Compiles the script in a file. -/
def Tree.compile (t : Tree) (path : Path) (output : Option Path) : Compilation :=
  match compiledPath path output with
  -- Where it goes is settled before the script is read, so a path without a name is not even opened.
  | .error e => ⟨[], .error e, t⟩
  | .ok out =>
    let read := t.script defaultMark path
    match read.result with
    | .error e => ⟨read.logs, .error e, t⟩
    | .ok s =>
      -- A name with half of a character cannot be written: the file ends where the name would begin.
      match Json.textRefusal? path.stem with
      | some refusal =>
        match t.breakCompiled out with
        | .error e => ⟨read.logs, .error e, t⟩
        | .ok broken => ⟨read.logs, .error (.file (.halfInText refusal)), broken⟩
      | none =>
        match t.saveCompiled s out with
        | .error e => ⟨read.logs, .error e, t⟩
        | .ok saved =>
          ⟨read.logs ++ [⟨.info, .script, s!"Compiled {path.text} -> {out.text}"⟩], .ok out, saved⟩

end ChatScene

/-
  What the program is asked to do.

  1. **Requests** — scripts are checked, a script is compiled, or a script is played (`Request`).  `Request.paths` are
     the files that a request names.

  2. **Manuals** — the program and each of its commands have a `Manual`: how they are called, and what their flags mean.
     A misuse is answered with the usage of the manual that it offends (`Manual.rebuke`).

  3. **Reading a request** — `Invocation.ofArguments` reads the arguments twice: by the program's own grammar, whose
     operand is the command with all that follows it, and the rest by the grammar of that command.  What neither of
     them takes is an error of the program.
-/
import ChatScene.CommandLine.Options
import ChatScene.Files.Path

namespace ChatScene.CommandLine

/-! ## Requests -/

/-- What the program is to do. -/
inductive Request where
  | check (scripts : List Path)
  /-- The compiled form goes to the output, or beside the script. -/
  | compile (script : Path) (output : Option Path)
  | play (script : Path) (pictures config : Option Path)
deriving DecidableEq, Repr

/-- The files that a request names. -/
def Request.paths : Request → List Path
  | .check scripts => scripts
  | .compile script none => script :: (script.withEnding ".json").toList
  | .compile script (some output) => [script, output]
  | .play script pictures config => script :: pictures.toList ++ config.toList

/-- A request, and whether to log details. -/
structure Invocation where
  /-- All log lines are written. -/
  verbose : Bool
  /-- What to do. -/
  request : Request
deriving DecidableEq, Repr

/-! ## Manuals -/

/-- The manuals: one of the program and one of each command. -/
inductive Manual where
  | program
  | check
  | compile
  | play
deriving DecidableEq, Repr

/-- The words that select a command. -/
def commandWords : List String := ["check", "compile", "play"]

/-- What beats are. -/
def beatHelp : List String :=
  ["Beats: a beat runs every line up to the next @text, @if, @wait or @choice",
   "together. @choice ends its beat so a following @if sees the answer; set",
   "\"choice_ends_beat\": false in the --config file to disable that. @goto does",
   "not end its beat unless \"goto_ends_beat\": true is set."]

namespace Manual

/-- The name of a command with the program's name before it. -/
def title : Manual → String
  | .program => "chatflow"
  | .check => "chatflow check"
  | .compile => "chatflow compile"
  | .play => "chatflow play"

/-- The form of a call. -/
def usage : Manual → String
  | .program => "usage: chatflow [-h] [-v] \x7bcheck,compile,play\x7d ..."
  | .check => "usage: chatflow check [-h] scripts [scripts ...]"
  | .compile => "usage: chatflow compile [-h] [-o OUTPUT] script"
  | .play => "usage: chatflow play [-h] [--pictures PICTURES] [--config CONFIG] script"

/-- The explanation of operands and flags. -/
def details : Manual → List String
  | .program =>
    ["Chat scene scripting tools.",
     "",
     "positional arguments:",
     "  \x7bcheck,compile,play\x7d",
     "    check               Validate chat scripts.",
     "    compile             Compile a chat script to JSON.",
     "    play                Play a chat script in the terminal.",
     "",
     "options:",
     "  -h, --help            show this help message and exit",
     "  -v, --verbose         Enable debug logging.",
     ""] ++ beatHelp
  | .check =>
    ["positional arguments:",
     "  scripts",
     "",
     "options:",
     "  -h, --help  show this help message and exit"]
  | .compile =>
    ["positional arguments:",
     "  script",
     "",
     "options:",
     "  -h, --help            show this help message and exit",
     "  -o OUTPUT, --output OUTPUT"]
  | .play =>
    ["positional arguments:",
     "  script",
     "",
     "options:",
     "  -h, --help           show this help message and exit",
     "  --pictures PICTURES  Picture manifest (JSON).",
     "  --config CONFIG      Chat config (JSON): settle_delay, choice_ends_beat,",
     "                       goto_ends_beat, comment_prefix.",
     ""] ++ beatHelp

/-- The whole manual. -/
def help (m : Manual) : String := String.join ((m.usage :: "" :: m.details).map (· ++ "\n"))

/-- What is said to a misuse. -/
def rebuke (m : Manual) (why : Misuse) : String := s!"{m.usage}\n{m.title}: error: {why.message}\n"

end Manual

/-! ## Reading a request -/

/-- Log lines of all levels are written. -/
def verboseFlag : Flag := { names := ["-v", "--verbose"] }

/-- The file for the compiled form. -/
def outputFlag : Flag := { names := ["-o", "--output"], hasValue := true }

/-- The picture manifest. -/
def picturesFlag : Flag := { names := ["--pictures"], hasValue := true }

/-- The settings. -/
def configFlag : Flag := { names := ["--config"], hasValue := true }

/-- The flags and the operand that a manual tells of. -/
def Manual.grammar : Manual → Grammar
  | .program => ⟨[helpFlag, verboseFlag], "command", .everything⟩
  | .check => ⟨[helpFlag], "scripts", .several⟩
  | .compile => ⟨[helpFlag, outputFlag], "script", .one⟩
  | .play => ⟨[helpFlag, picturesFlag, configFlag], "script", .one⟩

/-- The command of a word. -/
def Manual.ofWord? (word : Text.Wide) : Option Manual :=
  match Text.whole? word with
  | some "check" => some .check
  | some "compile" => some .compile
  | some "play" => some .play
  | _ => none

/-- What the program says instead of doing something. -/
inductive Response where
  | help (manual : Manual)
  | misuse (manual : Manual) (why : Misuse)
deriving DecidableEq, Repr

/-- A command line read by a manual. -/
def Manual.parse (m : Manual) (arguments : List Text.Wide) : Except Response Reading :=
  (m.grammar.parse arguments).mapError fun stop =>
    match stop with
    | .help => .help m
    | .misuse why => .misuse m why

/-- The path that a flag names. -/
def Reading.path? (r : Reading) (f : Flag) : Option Path := ((r.last? f).bind (·.value)).map Path.ofWide

/-- The request that the reading of a command means. -/
def Manual.request (m : Manual) (r : Reading) : Request :=
  -- There is a first word: a grammar does not accept arguments without operand.
  let script := Path.ofWide (r.operand.headD [])
  match m with
  | .compile => .compile script (r.path? outputFlag)
  | .play => .play script (r.path? picturesFlag) (r.path? configFlag)
  | _ => .check (r.operand.map Path.ofWide)

/-- The command that the reading of the program's arguments selects, with its own arguments. -/
def Reading.command (r : Reading) : Except Response (Manual × List Text.Wide) :=
  match r.operand with
  | [] => .error (.misuse .program (.missing Manual.program.grammar.operand))
  | word :: arguments =>
    match Manual.ofWord? word with
    | none => .error (.misuse .program (.noSuch Manual.program.grammar.operand word commandWords))
    | some m => .ok (m, arguments)

/-- The invocation that arguments spell. -/
def Invocation.ofArguments (arguments : List Text.Wide) : Except Response Invocation := do
  let outer ← Manual.program.parse arguments
  let (m, rest) ← outer.command
  let inner ← m.parse rest
  -- What the command leaves over is an error of the program, in its words and with its usage.
  let leftOver := outer.leftOver ++ inner.leftOver
  if leftOver.isEmpty then .ok ⟨outer.has verboseFlag, m.request inner⟩
  else .error (.misuse .program (.leftOver leftOver))

end ChatScene.CommandLine

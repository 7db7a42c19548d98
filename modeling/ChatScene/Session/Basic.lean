/-
  Sessions: where a scene is, and what has been chosen.

  Everything here is plain state change; when it happens is told in the other modules of this folder.

  1. **Sessions** — `Session` holds a script, the position of the next command to collect (`cursor`), the variables
     (`store`), the choice that waits for an answer (`pending`), and whether the end has been reported (`finished`).
     `Session.load` begins a script anew, and `Session.setVariable` answers the pending choice, whatever variable is
     set.

  2. **Beats** — a beat is the run of commands from the cursor up to and including the first one that ends a beat
     (`takeBeat`, `Session.nextBeat`).  Which kinds end one depends on the settings (`Settings.endsBeat`).

  3. **Warnings** — choices and jumps take effect only when their whole beat runs.  `beatLog` tells of those that are
     not the last of their beat.
-/
import ChatScene.Settings
import ChatScene.Script.Basic

namespace ChatScene

/-! ## Sessions -/

/-- A choice that has been offered. -/
structure Offer where
  /-- The line of the choice. -/
  line : Line
  /-- The variable that takes the answer. -/
  var : String
  /-- The answers to choose from. -/
  choices : List String
deriving BEq, Repr

/-- The state of a session. -/
structure Session where
  /-- The scene that is played. -/
  script : Script := {}
  /-- The position of the next command to collect. -/
  cursor : Nat := 0
  /-- The variables with their values, in the order in which they were first set. -/
  store : List (String × String) := []
  /-- How many advances have entered the session's own context and not left it. -/
  depth : Nat := 0
  /-- The choice that waits for an answer. -/
  pending : Option Offer := none
  /-- The end of the scene has been reported. -/
  finished : Bool := false
  /-- The settings. -/
  settings : Settings := {}
  /-- There is a listener. -/
  attached : Bool := true

/-- The value of a variable. -/
def lookupVariable (name : String) : List (String × String) → Option String
  | [] => none
  | (k, v) :: rest => if k = name then some v else lookupVariable name rest

/-- The variables with one set: in its old place, or at the end when it is new. -/
def putVariable (name value : String) : List (String × String) → List (String × String)
  | [] => [(name, value)]
  | (k, v) :: rest => if k = name then (k, value) :: rest else (k, v) :: putVariable name value rest

namespace Session

/-- The session at the start of a script.  Settings and listener stay. -/
def load (s : Session) (script : Script) : Session :=
  { s with script, cursor := 0, store := [], depth := 0, pending := none, finished := false }

/-- A variable is set, which answers the pending choice. -/
def setVariable (s : Session) (name value : String) : Session :=
  { s with store := putVariable name value s.store, pending := none }

/-- The value of a variable. -/
def get? (s : Session) (name : String) : Option String := lookupVariable name s.store

end Session

/-! ## Beats -/

/-- Kinds that end a beat. -/
def Settings.endsBeat (s : Settings) : Kind → Bool
  -- These three always end a beat; no setting can change that.
  | .text | .condition | .wait => true
  | .choice => s.choiceEndsBeat
  | .jump => s.jumpEndsBeat
  | _ => false

/-- The commands up to and including the first one that ends a beat. -/
def takeBeat (ends : Kind → Bool) : List Command → List Command
  | [] => []
  | c :: cs => if ends c.kind then [c] else c :: takeBeat ends cs

/-- The next beat; it is empty at the end of the script. -/
def Session.nextBeat (s : Session) : List Command :=
  takeBeat s.settings.endsBeat (s.script.commands.drop s.cursor)

/-- Choices and jumps take effect only when the whole beat runs. -/
def Kind.isDelayed : Kind → Bool
  | .choice | .jump => true
  | _ => false

/-- The warnings about choices and jumps that are not the last of their beat. -/
def delayWarnings (beat : List Command) : List LogLine :=
  match beat.getLast? with
  | none => []
  | some last =>
    (beat.dropLast.filter (·.kind.isDelayed)).map fun c =>
      ⟨.warning, .session, s!"{c.keyword} at line {c.line.toInt} does not end its beat; lines up to {last.line.toInt} "
        ++ "run before it takes effect."⟩

/-- The log lines of collecting a beat. -/
def beatLog (beat : List Command) : List LogLine :=
  if beat.isEmpty then []
  else
    delayWarnings beat ++
      [⟨.debug, .session, "Beat: [" ++ Text.commaList (beat.map fun c => Text.quoted c.kind.name) ++ "]"⟩]

/-- The last command of the beat is a choice. -/
def endsOnChoice (beat : List Command) : Bool := beat.getLast?.any (·.kind = .choice)

end ChatScene

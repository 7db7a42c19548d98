/-
  What a listener or a handler may do, and what is seen of a session.

  1. **Notices** — `Notice` is what the events of a session carry.

  2. **Cues and acts** — listeners and handlers are programs: for every `Cue` and for every time that it comes, a list
     of acts (`Reactions`).  A listener may wait or advance the session when it is shown a text or an image and when
     the scene ends; all other reactions are immediate (`Act.isImmediate`).

  3. **Failures** — `Failure` says why an advance or a listener ends early.

  4. **Moments** — `Moment` is one thing that is seen of a session, and `View` a look at its state.
-/
import ChatScene.Bus.Basic
import ChatScene.Script.Compiled
import ChatScene.Session.Journal

namespace ChatScene

/-! ## Notices -/

/-- What events of a session carry. -/
inductive Notice where
  | script (script : Script)
  | beat (commands : List Command)
  | choice (command : Command)
  | assignment (name value : String)
  | jump (label : String) (position : Nat)

/-- An event of a session. -/
abbrev SessionEvent := Event Notice

/-! ## Cues and acts -/

/-- What a listener or a handler reacts to. -/
inductive Cue where
  | text (text : String)
  | image (name : String)
  | choice (var : String)
  | ended
  /-- A handler is called with an event. -/
  | heard (handler : Nat) (topic : Topic)
deriving DecidableEq, Repr

/-- One act of a listener or a handler. -/
inductive Act where
  /-- Waits some seconds. -/
  | sleep (seconds : Float)
  /-- Advances the session and waits for it. -/
  | advance (context : Context)
  | setVariable (name value : String)
  | setup (text : String)
  /-- Loads the script of a compiled document. -/
  | loadCompiled (document : Json)
  | nextBeat
  | view
  | note (text : String)
  | fail (text : String)
  /-- There is a listener from now on, or none. -/
  | attach (on : Bool)
  | assign (name : String) (value : Json)
  | subscribe (topic : Topic) (entry : Entry)
  | unsubscribe (topic : Topic) (handler : Nat)
  | clear (topic : Topic)
  | publish (event : SessionEvent)

/-- An act that takes no time. -/
def Act.isImmediate : Act → Bool
  | .sleep _ | .advance _ => false
  | _ => true

/-- What is done at a cue when it comes for the `n`-th time, counted from zero. -/
abbrev Reactions := Cue → Nat → List Act

/-! ## Failures -/

/-- Why an advance or a listener ends early. -/
inductive Failure where
  | cancelled
  | raised (text : String)
  /-- The end cannot be reported because the listener has gone. -/
  | noListener
  | script (error : ScriptError)
  | compiled (error : CompiledError)
  | settings (error : SettingError)

/-- The text of the failure; some have none. -/
def Failure.message : Failure → String
  | .raised text => text
  | .script error => error.message
  | .compiled error => error.message
  | .settings error => settingErrorsText [error]
  | .cancelled | .noListener => ""

/-! ## What is seen -/

/-- A look at a session. -/
structure View where
  /-- The position of the next command. -/
  cursor : Nat
  /-- The variables. -/
  store : List (String × String)
  /-- No advance is in flight on the session's own context. -/
  canAdvance : Bool
  /-- The end has been reported. -/
  finished : Bool
  /-- The pending choice. -/
  awaiting : Option Offer
  /-- The named contexts with their depths. -/
  contexts : List (String × Nat)
  /-- The time in seconds. -/
  time : Float

/-- One thing that is seen of a session. -/
inductive Moment where
  | log (line : LogLine)
  /-- The listener is shown a text, an image or a choice. -/
  | shown (command : Command) (time : Float)
  /-- The listener is told that the scene has ended. -/
  | ended (time : Float)
  /-- A handler is called. -/
  | heard (handler : Nat) (event : SessionEvent)
  | note (text : String) (time : Float)
  | view (view : View)

end ChatScene

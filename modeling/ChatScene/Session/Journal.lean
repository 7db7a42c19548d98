/-
  The journal of a session: all that is done to it, one deed after the other.

  1. **Contexts** — an advance runs in a `Context`, the session's own or one with a name.  A `Passage` says what it does
     to the count of advances there.

  2. **Deeds** — a session changes through deeds only, and `Session.after` says how.  The deeds of a command name the
     beat that the command belongs to, so that the journal tells not only what happened to the session but also which
     part of the scene did it.

  3. **Replay** — `Session.replay` does all deeds of a journal.  A stage keeps the journal of its session
     (`Stage.record`), so that the session is at all times the replay of its journal.
-/
import ChatScene.Session.Basic

namespace ChatScene

/-! ## Contexts -/

/-- The context of an advance: the session's own, or one with a name. -/
inductive Context where
  | own
  | named (name : String)
deriving DecidableEq, Repr

/-- How an advance passes through a context. -/
inductive Passage where
  | enter
  | leave
  | reset
deriving DecidableEq, Repr

/-- The depth of a context after a passage; it does not fall below zero. -/
def Passage.edit : Passage → Nat → Nat
  | .enter, depth => depth + 1
  -- An advance may leave after a reset has taken it out of the count already.
  | .leave, depth => depth - 1
  | .reset, _ => 0

/-! ## Deeds -/

/-- One thing that is done to a session. -/
inductive Deed where
  /-- A script is loaded. -/
  | load (script : Script)
  /-- A variable is set. -/
  | answer (name value : String)
  /-- A beat is collected: under a number when an advance plays it, without one when it is only looked at. -/
  | collect (number : Option Nat) (beat : List Command)
  /-- A command of a beat, or one that runs alone, offers a choice. -/
  | offer (beat : Option Nat) (c : Command) (choice : Offer)
  /-- A command of a beat, or one that runs alone, takes a jump. -/
  | jump (beat : Option Nat) (c : Command) (label : String) (position : Nat)
  /-- The end of the scene is reached. -/
  | finish
  /-- The settings change. -/
  | adjust (settings : Settings)
  /-- There is a listener from now on, or none. -/
  | attach (on : Bool)
  /-- An advance passes through a context. -/
  | pass (context : Context) (passage : Passage)

/-- The session after a deed. -/
def Session.after (s : Session) : Deed → Session
  | .load script => s.load script
  | .answer name value => s.setVariable name value
  | .collect _ beat => { s with cursor := s.cursor + beat.length }
  | .offer _ _ choice => { s with pending := some choice }
  | .jump _ _ _ position => { s with cursor := position }
  | .finish => { s with finished := true }
  | .adjust settings => { s with settings }
  | .attach on => { s with attached := on }
  -- Only the own context is part of the session; the stage counts for the named ones.
  | .pass .own passage => { s with depth := passage.edit s.depth }
  | .pass (.named _) _ => s

/-- The session after all deeds of a journal, which has the latest first. -/
def Session.replay (s : Session) (journal : List Deed) : Session := journal.foldr (fun d s => s.after d) s

end ChatScene

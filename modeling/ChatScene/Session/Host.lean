/-
  The host of a session: what can be done to it from outside.

  Whatever the host does, all that can happen without time passing has happened afterwards.  Time passes only while the
  host waits.

  1. **Waiting** — `Stage.run` gives the host a chain of its own and waits for it.  `Stage.advance`, `Stage.wait` and
     `Stage.execute` are that with one frame each.

  2. **Immediate operations** — `Stage.doAct`, `Stage.loadScript` and `Stage.setupFrom` do something, publish what it
     gives rise to, and come to rest.

  3. **Background advances** — `Stage.start` begins an advance without waiting for it.  `Stage.cancel` ends it, with all
     chains that it waits for (`Stage.waitedFor`).
-/
import ChatScene.Session.Play

namespace ChatScene.Stage

variable (react : Reactions)

/-! ## Waiting -/

/-- The host runs frames as a chain of its own and waits for it. -/
def run (fuel : Nat) (w : Stage) (frames : List Frame) : Option (Stage × Option Failure) :=
  -- Chains are numbered in the order in which they begin, so this is the number of the new one.
  (w.spawn frames none).await react w.chains.length fuel

/-- The host advances the session and waits. -/
def advance (fuel : Nat) (w : Stage) (context : Context) : Option (Stage × Option Failure) :=
  run react fuel w [.advance context]

/-- The host lets time pass. -/
def wait (fuel : Nat) (w : Stage) (seconds : Float) : Option (Stage × Option Failure) :=
  run react fuel w [.sleep seconds]

/-- The host runs one command and waits. -/
def execute (fuel : Nat) (w : Stage) (c : Command) : Option (Stage × Option Failure) :=
  run react fuel w [.command c]

/-! ## Immediate operations -/

/-- An event of the host's own doing is published, and all else happens that takes no time. -/
def emit (fuel : Nat) (w : Stage) (event : SessionEvent) : Option Stage := (w.publish react event).rest react fuel

/-- An immediate act of the host. -/
def doAct (fuel : Nat) (w : Stage) (act : Act) : Option (Stage × Option Failure) :=
  let (w, failure) := w.carryOut react act
  (w.rest react fuel).map (·, failure)

/-- A script is loaded. -/
def loadScript (fuel : Nat) (w : Stage) (script : Script) : Option Stage :=
  let (w, event) := w.load script
  emit react fuel w event

/-- A text from a named source is read and loaded. -/
def setupFrom (fuel : Nat) (w : Stage) (text source : String) : Option (Stage × Option Failure) :=
  match w.setup text source with
  | (w, .ok event) => (emit react fuel w event).map (·, none)
  | (w, .error e) => some (w, some (.script e))

/-! ## Background advances -/

/-- An advance begins in the background; its number is the number of chains before. -/
def start (fuel : Nat) (w : Stage) (context : Context) : Option Stage :=
  ((w.touch context).spawn [.advance context] none).rest react fuel

/-- The chains that end when a chain is cancelled: those that it waits for, and so on.  Chains are younger than the
    ones that wait for them. -/
def waitedFor (w : Stage) (chain : Nat) : List Nat :=
  w.chains.zipIdx.foldl
    (fun found (c, i) =>
      -- A group that is settled has no one waiting for it any more.
      let owner := (c.group.bind (w.groups[·]?)).bind fun g => if g.settled then none else some g.owner
      if owner.any found.contains then found ++ [i] else found)
    [chain]

/-- Cancels a chain: the chains that it waits for and that wait for a time go on with a cancellation. -/
def cancel (fuel : Nat) (w : Stage) (chain : Nat) : Option Stage :=
  let doomed := w.waitedFor chain
  let hit := w.timers.filter fun t => doomed.contains t.chain
  let spared := w.timers.filter fun t => !doomed.contains t.chain
  -- A chain that waits for its group is woken by the failure of the group.
  let wakes : List Wake := hit.map fun t => .resume t.chain (some .cancelled)
  { w with timers := spared, ready := w.ready ++ wakes }.rest react fuel

end ChatScene.Stage

/-
  Playing a scene, step by step.

  1. **Commands** — `Stage.runCommand` is one command.  Only a choice, a condition and a jump change the session: a
     choice makes an offer, and the other two may move the cursor (`Stage.jumpTo`).

  2. **Advances** — `Stage.beginAdvance` turns an advance away or lets it in.  `Stage.nextRound` collects a beat and
     announces it, `Stage.startBeat` starts its commands together, and `Stage.beatOver` stops at a choice or goes on
     with the next round.  An empty beat is the end of the scene.

  3. **Frames** — `Stage.runFrame` does one frame of a chain.  A failure takes frame after frame from the chain
     (`Stage.unwind`), and the frames of an advance leave their context on the way.

  4. **Steps** — `Stage.step` does the next thing that can be done without time passing: it delivers a queued event,
     lets the running chain do its next frame, or takes the next chain from the ready list.  `Stage.tick` lets time pass
     up to the next timer.  `Stage.rest` and `Stage.await` are the loops around them.
-/
import ChatScene.Session.Stage

namespace ChatScene.Stage

variable (react : Reactions)

/-! ## Commands -/

/-- A command's jump to a label: the cursor moves to its first definition; an unknown label is reported. -/
def jumpTo (w : Stage) (beat : Option Nat) (c : Command) (label : String) : Stage :=
  match w.session.script.find? label with
  | none => w.log .error s!"Label '{label}' not found. Cannot jump."
  | some position =>
    let w := w.log .debug s!"Jump to '{label}' (command {position})"
    (w.record (.jump beat c label position)).publish react ⟨.labelJumped, .jump label position⟩

/-- What the listener does at a cue. -/
def reaction (w : Stage) (cue : Cue) : Stage × List Act := (w.countCue cue, react cue (w.timesFired cue))

/-- The listener is shown a text or an image, reacts, and a pause follows. -/
def showAndSettle (w : Stage) (chain : Nat) (rest : List Frame) (c : Command) (cue : Cue) : Stage :=
  let (w, acts) := (w.see (.shown c w.now)).reaction react cue
  (w.setFrames chain (.acts acts :: .settle :: rest)).goOn chain none

/-- A command runs.  Without a listener nothing happens. -/
def runCommand (w : Stage) (chain : Nat) (rest : List Frame) (c : Command) : Stage :=
  let w := w.setFrames chain rest
  -- A group has the number of its beat; a command that the host runs alone has neither.
  let beat := w.groupOf chain
  if !w.session.attached then w.goOn chain none
  else
    match c.body with
    | .text text => w.showAndSettle react chain rest c (.text text)
    | .image name => w.showAndSettle react chain rest c (.image name)
    | .wait seconds => w.sleep chain seconds
    | .choice var choices =>
      -- The offer stands before the listener sees the choice, so the listener may answer it at once.
      let w := w.record (.offer beat c ⟨c.line, var, choices⟩)
      let (w, acts) := (w.see (.shown c w.now)).reaction react (.choice var)
      (w.setFrames chain (.acts (acts.filter Act.isImmediate) :: .announce c :: rest)).goOn chain none
    | .condition test =>
      let w :=
        match w.session.get? test.var with
        | none =>
          w.log .warning
            s!"Variable '{test.var}' not found at line {c.line.toInt}. Condition evaluates to false."
        | some actual => if test.holds actual then w.jumpTo react beat c test.label else w
      w.goOn chain none
    | .jump label => (w.jumpTo react beat c label).goOn chain none
    | .label _ => w.goOn chain none
    | .bare => (w.log .warning s!"Unhandled command type {c.kind.name} at line {c.line.toInt}").goOn chain none

/-! ## Advances -/

/-- The next round of an advance: a beat is collected and announced, or the end is reported.  The beat has the number
    of the group that its commands will form. -/
def nextRound (w : Stage) (chain : Nat) (rest : List Frame) (context : Context) : Stage :=
  let number := w.groups.length
  match (w.openGroup chain).collect (some number) with
  -- The group was opened for a beat that is empty.  No chain will ever belong to it.
  | (w, []) =>
    -- The end is recorded before anybody is told, so that a listener who advances at the end is turned away.
    let w := (w.reset context).record .finish
    let w := w.log .debug s!"Chat '{w.session.script.id}' finished."
    let w := w.setFrames chain (.reportEnd :: .leave context :: rest)
    (w.publish react ⟨.chatEnded, .script w.session.script⟩).goOn chain none
  | (w, beat) =>
    -- The commands start only in the next frame, when the handlers have heard of the beat.
    let w := w.setFrames chain (.start context number beat :: rest)
    (w.publish react ⟨.beatStarted, .beat beat⟩).goOn chain none

/-- An advance begins, unless there is nothing to do. -/
def beginAdvance (w : Stage) (chain : Nat) (rest : List Frame) (context : Context) : Stage :=
  let w := (w.touch context).setFrames chain rest
  if !w.session.attached then
    (w.log .warning "advance() called without a listener; nothing to present.").goOn chain none
  else if w.session.finished then
    (w.log .debug s!"Chat '{w.session.script.id}' already finished; advance ignored.").goOn chain none
  else
    -- A session that waits for an answer is not advanced in any context.
    match w.session.pending with
    | some offer => (w.log .debug s!"Waiting for '{offer.var}' to be chosen; advance ignored.").goOn chain none
    | none => (w.enter context).nextRound react chain rest context

/-- The commands of a beat start in order, as a group that the chain waits for. -/
def startBeat (w : Stage) (chain : Nat) (rest : List Frame) (context : Context) (number : Nat) (beat : List Command) :
    Stage :=
  let w := w.setFrames chain (.beat context (endsOnChoice beat) :: rest)
  -- Spawning puts the chains at the end of the ready list, so that they run in the order of the commands.
  beat.foldl (fun w c => w.spawn [.command c] (some number)) w

/-- All commands of a beat are over: the advance stops at a choice and at the end, and goes on otherwise. -/
def beatOver (w : Stage) (chain : Nat) (rest : List Frame) (context : Context) (onChoice : Bool) : Stage :=
  -- The choice may have been answered while the beat ran.  The advance stops there nevertheless.
  if w.session.finished || onChoice || w.session.pending.isSome then
    ((w.setFrames chain rest).leave context).goOn chain none
  else w.nextRound react chain rest context

/-! ## Frames -/

/-- A frame ends because of a failure; an advance leaves its context. -/
def unwind (w : Stage) (chain : Nat) (frame : Frame) (rest : List Frame) (failure : Failure) : Stage :=
  let w := w.setFrames chain rest
  match frame with
  -- These are the frames that stand for an advance that has entered its context.
  | .start context _ _ | .beat context _ | .leave context => (w.leave context).goOn chain (some failure)
  | _ => w.goOn chain (some failure)

/-- An immediate act is carried out, and what it gives rise to is published. -/
def carryOut (w : Stage) (act : Act) : Stage × Option Failure :=
  let effect := w.perform act
  (effect.event.elim effect.stage (effect.stage.publish react), effect.failure)

/-- One act of a reaction. -/
def runAct (w : Stage) (chain : Nat) (rest : List Frame) : Act → Stage
  | .sleep seconds => (w.setFrames chain rest).sleep chain seconds
  | .advance context => (w.setFrames chain (.advance context :: rest)).goOn chain none
  | act =>
    let (w, failure) := (w.setFrames chain rest).carryOut react act
    w.goOn chain failure

/-- One frame of a chain. -/
def runFrame (w : Stage) (chain : Nat) (frame : Frame) (rest : List Frame) : Stage :=
  match frame with
  | .command c => w.runCommand react chain rest c
  | .acts [] => (w.setFrames chain rest).goOn chain none
  | .acts (act :: acts) => w.runAct react chain (.acts acts :: rest) act
  -- The delay is read only now: the reaction may have changed the settings.
  | .settle => (w.setFrames chain rest).sleep chain w.session.settings.settleDelay
  | .announce c => ((w.setFrames chain rest).publish react ⟨.choiceShown, .choice c⟩).goOn chain none
  | .advance context => w.beginAdvance react chain rest context
  | .start context number beat => w.startBeat chain rest context number beat
  | .beat context onChoice => w.beatOver react chain rest context onChoice
  | .reportEnd =>
    if w.session.attached then
      let (w, acts) := (w.see (.ended w.now)).reaction react .ended
      (w.setFrames chain (.acts acts :: rest)).goOn chain none
    -- Somebody has taken the listener away since the advance began.
    else (w.setFrames chain rest).goOn chain (some .noListener)
  | .leave context => ((w.setFrames chain rest).leave context).goOn chain none
  | .sleep seconds => (w.setFrames chain rest).sleep chain seconds

/-- The running chain does its next frame. -/
def runChain (w : Stage) (chain : Nat) (failure : Option Failure) : Stage :=
  -- What the frame does decides whether the chain stays the running one.
  let w := { w with active := none }
  match (w.chains[chain]?).map (·.frames) with
  | none => w
  | some [] => w.finish chain failure
  | some (frame :: rest) =>
    match failure with
    | some f => w.unwind chain frame rest f
    | none => w.runFrame react chain frame rest

/-! ## Steps -/

/-- The next queued event of the bus, and the bus without it. -/
def nextEvent? (w : Stage) : Option (SessionEvent × Stage) :=
  match w.bus with
  | some b =>
    match b.queue with
    | event :: queue => some (event, { w with bus := some { b with queue } })
    | [] => none
  | none => none

/-- Takes the next entry of the ready list. -/
def takeReady (w : Stage) : Option Stage :=
  match w.ready with
  | [] => none
  | .resume chain failure :: ready => some { w with ready, active := some (chain, failure) }
  | .over group failure :: ready => some ({ w with ready }.memberOver group failure)

/-- Timers this close to the present are due. -/
def resolution : Float := 0.000000001

/-- Moves the timers that are due at a time to the ready list. -/
def fireTimers (w : Stage) (time : Float) : Stage :=
  -- The timers stand in order, so those that are due are at the front.
  let isDue (t : Timer) : Bool := t.due < time + resolution
  { w with timers := w.timers.dropWhile isDue
           ready := w.ready ++ (w.timers.takeWhile isDue).map fun t => .resume t.chain none }

/-- The next thing that can be done without time passing. -/
def step (w : Stage) : Option Stage :=
  match w.nextEvent? with
  | some (event, w) => some (w.deliver react event)
  | none =>
    -- Events come first: a chain goes on only when the bus has nothing left to deliver.
    match w.active with
    | some (chain, failure) => some (w.runChain react chain failure)
    | none =>
      match w.takeReady with
      | some w => some w
      | none =>
        let w' := w.fireTimers w.now
        if w'.ready.isEmpty then none else some w'

/-- Time passes up to the next timer, which fires together with those that are due then.  A timer that is due at
    infinity never fires. -/
def tick (w : Stage) : Option Stage :=
  match w.timers with
  | [] => none
  | t :: timers =>
    if t.due.isInf then none
    else
      -- The first timer fires by itself, whatever the resolution makes of its time.
      let w : Stage := { w with now := t.due, timers, ready := w.ready ++ [.resume t.chain none] }
      some (w.fireTimers t.due)

/-- Steps until nothing is left to do without time passing; nothing if the fuel does not suffice. -/
def rest (w : Stage) : Nat → Option Stage
  | 0 => none
  | fuel + 1 =>
    match w.step react with
    | none => some w
    | some w => rest w fuel

/-- A chain that is over, with its failure if it failed. -/
def outcome? (w : Stage) (chain : Nat) : Option (Option Failure) := (w.chains[chain]?).bind (·.outcome)

/-- Steps and lets time pass until a chain is over and all is at rest; nothing if that does not happen within the
    fuel. -/
def await (w : Stage) (chain : Nat) : Nat → Option (Stage × Option Failure)
  | 0 => none
  | fuel + 1 =>
    match w.step react with
    | some w => await w chain fuel
    | none =>
      -- Looked at only when all is at rest, so that what follows from the end of the chain has happened too.
      match w.outcome? chain with
      | some failure => some (w, failure)
      | none =>
        match w.tick with
        | some w => await w chain fuel
        | none => none

end ChatScene.Stage

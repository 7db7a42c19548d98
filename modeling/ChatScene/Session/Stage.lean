/-
  The stage: a session with its bus, its clock and the call chains that run on it.

  1. **Chains** — a `Chain` is what one task does: a stack of frames, each of which says how to go on when the one above
     it is done (`Frame`).  The commands of a beat run as chains of their own that form a `Group`; the chain that plays
     the beat goes on when the group is done.  Chains that can go on stand in a ready list, first in first out; chains
     that wait for a time stand in the list of timers.  Time is virtual.

  2. **Recording** — a session on a stage changes through `Stage.record` only, and all that is seen goes through
     `Stage.see`.

  3. **Acts without time** — `Stage.perform` does one act of a listener or a handler and says what is to be published.
     A script that is refused leaves the session as it is (`Stage.setup`).

  4. **Events** — `Stage.audience` makes the stage the surroundings of its own bus, so that a handler may do to the
     session what a listener may.  `Stage.publish` delivers an event at once, or queues it during a delivery.

  5. **Chains and time** — `Stage.spawn`, `Stage.sleep` and `Stage.finish` begin a chain, put it to wait and end it.
     `Stage.memberOver` passes the end of a group, or its first failure, on to the chain that waits for it.
-/
import ChatScene.Session.Act

namespace ChatScene

/-! ## Chains -/

/-- How a chain goes on. -/
inductive Frame where
  /-- Runs a command. -/
  | command (c : Command)
  /-- The rest of a reaction. -/
  | acts (rest : List Act)
  /-- After a text or an image has been shown: the pause. -/
  | settle
  /-- After a choice has been shown: the event. -/
  | announce (c : Command)
  /-- Begins an advance. -/
  | advance (context : Context)
  /-- Starts the commands of a collected beat, which form the group of the same number. -/
  | start (context : Context) (number : Nat) (beat : List Command)
  /-- Waits for the commands of a beat that ends on a choice, or not. -/
  | beat (context : Context) (onChoice : Bool)
  /-- Tells the listener that the scene has ended. -/
  | reportEnd
  /-- Leaves the context of an advance. -/
  | leave (context : Context)
  /-- Waits some seconds. -/
  | sleep (seconds : Float)

/-- A call chain. -/
structure Chain where
  /-- The frames, innermost first. -/
  frames : List Frame
  /-- The group that it belongs to. -/
  group : Option Nat := none
  /-- It is over; with a failure, if it failed. -/
  outcome : Option (Option Failure) := none

/-- The chains of one beat. -/
structure Group where
  /-- The chain that waits for them. -/
  owner : Nat
  /-- How many of them are not over. -/
  left : Nat
  /-- The owner has been told. -/
  settled : Bool := false

/-- A chain that waits for a time. -/
structure Timer where
  /-- When it goes on. -/
  due : Float
  /-- The chain. -/
  chain : Nat

/-- What stands in the ready list. -/
inductive Wake where
  /-- A chain goes on, with a failure if there is one. -/
  | resume (chain : Nat) (failure : Option Failure)
  /-- A chain of a group is over. -/
  | over (group : Nat) (failure : Option Failure)

/-! ## Stages -/

/-- A session with all that runs on it. -/
structure Stage where
  /-- The session. -/
  session : Session := {}
  /-- What has been done to the session, latest first. -/
  journal : List Deed := []
  /-- The named contexts with their depths, in the order of their first use. -/
  contexts : List (String × Nat) := []
  /-- The bus, if there is one. -/
  bus : Option (Bus Notice) := none
  /-- How often each cue has come. -/
  fired : List (Cue × Nat) := []
  /-- What has been seen, latest first. -/
  seen : List Moment := []
  /-- The time in seconds. -/
  now : Float := 0
  /-- All chains ever begun; their numbers are their places. -/
  chains : List Chain := []
  /-- The groups of all beats ever played; their numbers are their places. -/
  groups : List Group := []
  /-- The timers, earliest first. -/
  timers : List Timer := []
  /-- What can go on, first come first. -/
  ready : List Wake := []
  /-- The chain that is running, with a failure if it is failing. -/
  active : Option (Nat × Option Failure) := none

namespace Stage

/-- A deed is done to the session. -/
def record (w : Stage) (d : Deed) : Stage := { w with session := w.session.after d, journal := d :: w.journal }

/-! ## Seeing -/

/-- Something is seen. -/
def see (w : Stage) (m : Moment) : Stage := { w with seen := m :: w.seen }

/-- A log line is seen. -/
def log (w : Stage) (level : Level) (message : String) : Stage := w.see (.log ⟨level, .session, message⟩)

/-- Several log lines are seen. -/
def logAll (w : Stage) (lines : List LogLine) : Stage := lines.foldl (fun w l => w.see (.log l)) w

/-- A look at the session. -/
def view (w : Stage) : View where
  cursor := w.session.cursor
  store := w.session.store
  canAdvance := w.session.depth = 0
  finished := w.session.finished
  awaiting := w.session.pending
  contexts := w.contexts
  time := w.now

/-! ## Contexts -/

/-- The depth of a named context changed; it begins at zero. -/
def editNamed (w : Stage) (name : String) (edit : Nat → Nat) : Stage :=
  if w.contexts.any (·.1 = name) then
    { w with contexts := w.contexts.map fun (k, d) => if k = name then (k, edit d) else (k, d) }
  -- A context that nobody has entered may still be left or reset; it counts from zero then too.
  else { w with contexts := w.contexts ++ [(name, edit 0)] }

/-- A named context exists from its first use on. -/
def touch (w : Stage) : Context → Stage
  | .own => w
  | .named name => w.editNamed name id

/-- An advance passes through a context. -/
def pass (w : Stage) (context : Context) (passage : Passage) : Stage :=
  let w := w.record (.pass context passage)
  match context with
  | .own => w
  | .named name => w.editNamed name passage.edit

/-- An advance enters the context. -/
def enter (w : Stage) (context : Context) : Stage := w.pass context .enter

/-- An advance leaves the context. -/
def leave (w : Stage) (context : Context) : Stage := w.pass context .leave

/-- The context counts no advance any more. -/
def reset (w : Stage) (context : Context) : Stage := w.pass context .reset

/-! ## Cues -/

/-- How often a cue has come. -/
def timesFired (w : Stage) (cue : Cue) : Nat := (w.fired.lookup cue).getD 0

/-- The cue has come once more. -/
def countCue (w : Stage) (cue : Cue) : Stage :=
  { w with fired := (cue, w.timesFired cue + 1) :: w.fired.filter (·.1 ≠ cue) }

/-! ## Acts without time -/

/-- A script is loaded. -/
def load (w : Stage) (script : Script) : Stage × SessionEvent :=
  let w := w.record (.load script)
  let w := w.log .debug
    s!"Chat '{script.id}' set up: {script.commands.length} commands, {script.labels.length} labels"
  (w, ⟨.chatStarted, .script script⟩)

/-- A text is read as a script and loaded; a text that is refused changes nothing. -/
def setup (w : Stage) (text source : String) : Stage × Except ScriptError SessionEvent :=
  let r := Script.parse w.session.settings.commentMark source text
  let w := w.logAll (Script.parseLog source r)
  match r with
  | .error e => (w, .error e)
  | .ok script =>
    let (w, event) := w.load script
    (w, .ok event)

/-- Collects the next beat. -/
def collect (w : Stage) (number : Option Nat := none) : Stage × List Command :=
  let beat := w.session.nextBeat
  ((w.record (.collect number beat)).logAll (beatLog beat), beat)

/-- The effect of an immediate act: the stage, an event to publish, a failure. -/
structure Effect where
  /-- The stage afterwards. -/
  stage : Stage
  /-- The event to publish. -/
  event : Option SessionEvent := none
  /-- The failure, if the act fails. -/
  failure : Option Failure := none

/-- The bus changed, if there is one. -/
def editBus (w : Stage) (edit : Bus Notice → Bus Notice) : Stage := { w with bus := w.bus.map edit }

/-- An immediate act.  Acts that take time do nothing here. -/
def perform (w : Stage) : Act → Effect
  | .sleep _ | .advance _ => { stage := w }
  -- This answers the pending choice, also with a value that it did not offer.
  | .setVariable name value =>
    { stage := w.record (.answer name value)
      event := some ⟨.variableSet, .assignment name value⟩ }
  | .setup text =>
    match w.setup text unnamedSource with
    | (w, .ok event) => { stage := w, event }
    | (w, .error e) => { stage := w, failure := some (.script e) }
  | .loadCompiled document =>
    match Script.ofJson document with
    | .ok script =>
      let (w, event) := w.load script
      { stage := w, event }
    | .error e => { stage := w, failure := some (.compiled e) }
  -- A beat that is only looked at has no number, and moves the cursor all the same.
  | .nextBeat => { stage := w.collect.1 }
  | .view => { stage := w.see (.view w.view) }
  | .note text => { stage := w.see (.note text w.now) }
  | .fail text => { stage := w, failure := some (.raised text) }
  | .attach on => { stage := w.record (.attach on) }
  | .assign name value =>
    match w.session.settings.assign name value with
    | .ok settings => { stage := w.record (.adjust settings) }
    | .error e => { stage := w, failure := some (.settings e) }
  | .subscribe topic entry => { stage := w.editBus (·.subscribe topic entry) }
  | .unsubscribe topic handler => { stage := w.editBus (·.unsubscribe topic handler) }
  | .clear topic => { stage := w.editBus (·.clear topic) }
  | .publish event => { stage := w, event := some event }

/-! ## Events -/

/-- The acts of a handler in order, up to one that fails.  What they publish is queued; acts that take time are
    left out. -/
def performAll : List Act → Stage → Stage × Bus.Ending
  | [], w => (w, .returned)
  | act :: acts, w =>
    let effect := w.perform act
    -- A handler runs inside a delivery, so the bus would queue the event in any case.
    let w := effect.event.elim effect.stage fun e => effect.stage.editBus (·.enqueue e)
    match effect.failure with
    | some _ => (w, .failed)
    | none => performAll acts w

/-- The call of a handler: it is seen, and reacts. -/
def callHandler (react : Reactions) (handler : Nat) (event : SessionEvent) (b : Bus Notice) (w : Stage) :
    Bus Notice × Stage × Bus.Ending :=
  let cue := Cue.heard handler event.topic
  let n := w.timesFired cue
  -- The bus of the delivery is the newer one.  The stage gets it for the time of the call, and gives it back.
  let w := ({ w with bus := some b }.see (.heard handler event)).countCue cue
  let (w, ending) := performAll (react cue n) w
  (w.bus.getD b, w, ending)

/-- The report of a failed handler. -/
def failureReport (topic : Topic) : LogLine :=
  ⟨.error, .bus, s!"Error in event handler for ChatEvent.{topic.name}"⟩

/-- The stage as the surroundings of its bus; all handlers are kept alive. -/
def audience (react : Reactions) : Bus.Surroundings Notice Stage where
  owned _ _ := true
  call := callHandler react
  report event w := w.see (.log (failureReport event.topic))

/-- Delivers one event. -/
def deliver (react : Reactions) (w : Stage) (event : SessionEvent) : Stage :=
  match w.bus with
  | none => w
  | some b =>
    let (b, w, _) := Bus.deliver (audience react) event b w
    { w with bus := some b }

/-- Publishes an event; during a delivery it is queued. -/
def publish (react : Reactions) (w : Stage) (event : SessionEvent) : Stage :=
  match w.bus with
  | none => w
  | some b =>
    if b.publishing then { w with bus := some (b.enqueue event) }
    -- No delivery is going on: what earlier ones kept alive is let go first.
    else { w with bus := some (b.settle.mark (.published event)) }.deliver react event

/-! ## Chains and time -/

/-- A new chain that is ready to go on. -/
def spawn (w : Stage) (frames : List Frame) (group : Option Nat) : Stage :=
  { w with chains := w.chains ++ [{ frames, group }], ready := w.ready ++ [.resume w.chains.length none] }

/-- The frames of a chain replaced. -/
def setFrames (w : Stage) (chain : Nat) (frames : List Frame) : Stage :=
  { w with chains := w.chains.modify chain fun c => { c with frames } }

/-- The group that a chain belongs to. -/
def groupOf (w : Stage) (chain : Nat) : Option Nat := (w.chains[chain]?).bind (·.group)

/-- The chain goes on running. -/
def goOn (w : Stage) (chain : Nat) (failure : Option Failure) : Stage :=
  { w with active := some (chain, failure) }

/-- A timer in its place: after those that are due no later. -/
def insertTimer (t : Timer) : List Timer → List Timer
  | [] => [t]
  -- Strictly earlier, so that of two timers for one time the older one fires first.
  | u :: us => if t.due < u.due then t :: u :: us else u :: insertTimer t us

/-- The running chain waits some seconds; with none to wait it lets the others go first. -/
def sleep (w : Stage) (chain : Nat) (seconds : Float) : Stage :=
  if seconds ≤ 0 then { w with ready := w.ready ++ [.resume chain none] }
  else { w with timers := insertTimer ⟨w.now + seconds, chain⟩ w.timers }

/-- The running chain is over. -/
def finish (w : Stage) (chain : Nat) (failure : Option Failure) : Stage :=
  let w := { w with chains := w.chains.modify chain fun c => { c with outcome := some failure } }
  match w.groupOf chain with
  -- The group hears of it in a turn of its own, after what is ready now.
  | some group => { w with ready := w.ready ++ [.over group failure] }
  | none => w

/-- A new group, for the commands of the next beat. -/
def openGroup (w : Stage) (owner : Nat) : Stage :=
  -- The count is taken before the beat is collected, while the cursor is still at its first command.
  { w with groups := w.groups ++ [{ owner, left := w.session.nextBeat.length }] }

/-- A chain of a group is over: the first failure, or the end of the last chain, is passed on to the owner. -/
def memberOver (w : Stage) (group : Nat) (failure : Option Failure) : Stage :=
  match w.groups[group]? with
  | none => w
  | some g =>
    let left := g.left - 1
    -- A failure is passed on at once, while other commands of the beat still run.  What they end with later is lost.
    let tell := !g.settled && (failure.isSome || left = 0)
    let w := { w with groups := w.groups.set group { g with left, settled := g.settled || tell } }
    if tell then { w with ready := w.ready ++ [.resume g.owner failure] } else w

end Stage

end ChatScene

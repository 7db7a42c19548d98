/-
  A stage upon a past.

  What has happened on a stage leaves chains, groups, deeds and sights behind.  Chains and groups are known by number,
  and new numbers follow the old ones, so nothing that runs ever looks at those that are over.  A stage can be taken
  apart into what is past and a stage of its own whose chains and groups are counted from zero: whatever is done to the
  stage upon its past is done to that stage itself.

  1. **Pasts** — a `Past` is what is left behind, and `w.upon past` is the stage `w` with that before it.  Chains and
     groups of `w` get new numbers (`Past.chain`, `Past.group`), and so do all entries that name them.

  2. **Deliveries** (`Bus.deliver_map`) — surroundings that behave in the same way as others make the same deliveries.

  3. **One function after the other** — for each function of the stage there is a lemma `…_upon`: done to `w.upon past`
     it is the same as done to `w`, and then put upon the past.  They are in the order in which the functions use each
     other, up to `runFrame_upon` and `runChain_upon`.

  4. **Steps and waiting** (`step_upon`, `tick_upon`, `await_upon`) — ends that are left from the past to be counted
     would come first.  So here the past must have none (`past.stale = []`); what comes of them is shown in `Reload`.
-/
import ChatScene.Session.Host
import ChatScene.Proofs.Isolation

namespace ChatScene

/-! ## What is past -/

/-- What is past on a stage. -/
structure Past where
  journal : List Deed := []
  seen : List Moment := []
  chains : List Chain := []
  groups : List Group := []
  /-- Ends of chains that have not been counted yet. -/
  stale : List Wake := []

namespace Past

variable (past : Past)

/-- The number that a chain has after those that are past. -/
def chain (n : Nat) : Nat := n + past.chains.length

/-- The number that a group has after those that are past. -/
def group (n : Nat) : Nat := n + past.groups.length

def frame : Frame → Frame
  | .start context number beat => .start context (past.group number) beat
  | f => f

def renumber (c : Chain) : Chain := { c with frames := c.frames.map past.frame, group := c.group.map past.group }

def owned (g : Group) : Group := { g with owner := past.chain g.owner }

def timer (t : Timer) : Timer := { t with chain := past.chain t.chain }

def wake : Wake → Wake
  | .resume chain failure => .resume (past.chain chain) failure
  | .over group failure => .over (past.group group) failure

def deed : Deed → Deed
  | .collect number beat => .collect (number.map past.group) beat
  | .offer beat c choice => .offer (beat.map past.group) c choice
  | .jump beat c label position => .jump (beat.map past.group) c label position
  | d => d

end Past

/-! ## Deliveries in other surroundings -/

namespace Bus

variable {ε β γ : Type} {s : Surroundings ε β} {s' : Surroundings ε γ} {f : β → γ}

/-- `d.map f` — a delivery in other surroundings. -/
def Delivery.map (f : β → γ) (d : Delivery ε β) : Delivery ε γ :=
  { bus := d.bus, rest := f d.rest, held := d.held, dead := d.dead, aborted := d.aborted }

section Naturality

variable (howned : ∀ rest handler, s'.owned (f rest) handler = s.owned rest handler)
  (hcall : ∀ handler event b rest, s'.call handler event b (f rest) =
    ((s.call handler event b rest).1, f (s.call handler event b rest).2.1, (s.call handler event b rest).2.2))
  (hreport : ∀ event rest, s'.report event (f rest) = f (s.report event rest))

include howned hcall hreport

/-- One entry of the table is visited, in the other surroundings. -/
theorem Delivery.visit_map (event : Event ε) (d : Delivery ε β) (e : Entry) :
    (d.map f).visit s' event e = (d.visit s event e).map f := by
  have halive : (d.map f).alive s' e.handler = d.alive s e.handler :=
    congrArg (· || d.bus.keeps e.handler || decide (d.held = some e.handler)) (howned d.rest e.handler)
  have hcalled := hcall e.handler event (d.bus.mark (.begins e.handler event)) d.rest
  rcases hresult : s.call e.handler event (d.bus.mark (.begins e.handler event)) d.rest with ⟨bus, rest, ending⟩
  rw [hresult] at hcalled
  simp only [Delivery.visit, halive]
  split
  · simp only [Delivery.map, hcalled, hresult]
    cases ending with
    | returned | aborted => rfl
    | failed => simp only [hreport]
  · rfl

theorem Delivery.visitAll_map (event : Event ε) (d : Delivery ε β) (es : List Entry) :
    (d.map f).visitAll s' event es = (d.visitAll s event es).map f := by
  induction es generalizing d with
  | nil => rfl
  | cons e es ih =>
    have haborted : ((d.visit s event e).map f).aborted = (d.visit s event e).aborted := rfl
    simp only [Delivery.visitAll, Delivery.visit_map howned hcall hreport, haborted]
    split
    · rfl
    · exact ih _

/-- Surroundings that behave in the same way as others, with `f` between what is around make the same deliveries, and
    leave the same bus. -/
theorem deliver_map (event : Event ε) (b : Bus ε) (rest : β) :
    deliver s' event b (f rest) =
      ((deliver s event b rest).1, f (deliver s event b rest).2.1, (deliver s event b rest).2.2) := by
  have hvisit := Delivery.visitAll_map howned hcall hreport event
    { bus := (b.mark (.dispatched event)).openList event.topic, rest }
    ((b.mark (.dispatched event)).entries event.topic)
  simp only [deliver]
  split
  · rfl
  · simp only [Delivery.map] at hvisit
    rw [hvisit]
    rfl

end Naturality

end Bus

namespace Stage

/-- `w.upon past` — a stage with a past before it. -/
def upon (w : Stage) (past : Past) : Stage :=
  { w with
    journal := w.journal.map past.deed ++ past.journal
    seen := w.seen ++ past.seen
    chains := past.chains ++ w.chains.map past.renumber
    groups := past.groups ++ w.groups.map past.owned
    timers := w.timers.map past.timer
    ready := past.stale ++ w.ready.map past.wake
    active := w.active.map fun p => (past.chain p.1, p.2) }

/-! ## Lists with a past -/

theorem modify_append {α : Type} (xs ys : List α) (i : Nat) (f : α → α) :
    (xs ++ ys).modify (i + xs.length) f = xs ++ ys.modify i f := by
  induction xs with
  | nil => rfl
  | cons x xs ih => exact congrArg (x :: ·) ih

theorem modify_map {α β : Type} (ys : List α) (i : Nat) {g : α → β} {f : α → α} {f' : β → β}
    (h : ∀ y, f' (g y) = g (f y)) : (ys.map g).modify i f' = (ys.modify i f).map g := by
  induction ys generalizing i with
  | nil => simp
  | cons y ys ih =>
    cases i with
    | zero => exact congrArg (· :: ys.map g) (h y)
    | succ i => exact congrArg (g y :: ·) (ih i)

/-- Timers stand in the order of their times, and new numbers do not change times. -/
theorem map_insertTimer (past : Past) (t : Timer) (ts : List Timer) :
    (insertTimer t ts).map past.timer = insertTimer (past.timer t) (ts.map past.timer) := by
  induction ts with
  | nil => rfl
  | cons u us ih =>
    simp only [insertTimer, List.map_cons]
    have hdue : (past.timer t).due < (past.timer u).due ↔ t.due < u.due := Iff.rfl
    by_cases h : t.due < u.due
    · rw [if_pos h, if_pos (hdue.mpr h)]
      rfl
    · rw [if_neg h, if_neg (mt hdue.mp h), List.map_cons, ih]

variable (w : Stage) (past : Past)

/-- A chain is found under its new number, with its entries renumbered. -/
theorem getElem?_chains_upon (chain : Nat) :
    (w.upon past).chains[past.chain chain]? = (w.chains[chain]?).map past.renumber := by
  simp [upon, Past.chain, List.getElem?_append_right]

/-- The next chain gets the new number of the next chain. -/
theorem length_chains_upon : (w.upon past).chains.length = past.chain w.chains.length := by
  simp [upon, Past.chain, Nat.add_comm]

theorem getElem?_groups_upon (group : Nat) :
    (w.upon past).groups[past.group group]? = (w.groups[group]?).map past.owned := by
  simp [upon, Past.group, List.getElem?_append_right]

/-! ## Deeds and sights -/

/-- Groups in deeds are only told, so `past.deed` does not matter: what a deed does to a session does not depend on
    them. -/
theorem after_deed (s : Session) (d : Deed) : s.after (past.deed d) = s.after d := by
  cases d <;> rfl

/-- A deed is recorded after those of the past. -/
theorem record_upon (d : Deed) : (w.upon past).record (past.deed d) = (w.record d).upon past := by
  simp only [record, upon, after_deed, List.map_cons, List.cons_append]

theorem logAll_upon (lines : List LogLine) : (w.upon past).logAll lines = (w.logAll lines).upon past := by
  unfold logAll
  induction lines generalizing w with
  | nil => rfl
  | cons line lines ih => exact ih (w.see (.log line))

theorem editNamed_upon (name : String) (edit : Nat → Nat) :
    (w.upon past).editNamed name edit = (w.editNamed name edit).upon past := by
  have hcontexts : (w.upon past).contexts = w.contexts := rfl
  unfold editNamed
  rw [hcontexts]
  split <;> rfl

theorem touch_upon (context : Context) : (w.upon past).touch context = (w.touch context).upon past := by
  cases context with
  | own => rfl
  | named name => exact editNamed_upon w past name id

/-- Depths are those of the stage itself; the past has none of its own. -/
theorem pass_upon (context : Context) (passage : Passage) :
    (w.upon past).pass context passage = (w.pass context passage).upon past := by
  have hrecord : (w.upon past).record (.pass context passage) = (w.record (.pass context passage)).upon past :=
    record_upon w past (.pass context passage)
  cases context with
  | own => exact hrecord
  | named name =>
    simp only [pass, hrecord]
    exact editNamed_upon _ past name passage.edit

/-! ## Acts without time -/

theorem load_upon (script : Script) :
    (w.upon past).load script = ((w.load script).1.upon past, (w.load script).2) := rfl

theorem setup_upon (text source : String) :
    (w.upon past).setup text source = ((w.setup text source).1.upon past, (w.setup text source).2) := by
  have hsession : (w.upon past).session = w.session := rfl
  simp only [setup, hsession, logAll_upon]
  cases Script.parse w.session.settings.commentMark source text with
  | error e => rfl
  | ok script => rfl

theorem collect_upon (number : Option Nat) :
    (w.upon past).collect (number.map past.group) = ((w.collect number).1.upon past, (w.collect number).2) := by
  have hsession : (w.upon past).session = w.session := rfl
  have hrecord := record_upon w past (.collect number w.session.nextBeat)
  simp only [collect, hsession]
  rw [show (w.upon past).record (.collect (number.map past.group) w.session.nextBeat) = _ from hrecord, logAll_upon]

/-- `e.upon past` — the effect of an act on a stage upon a past. -/
def Effect.upon (e : Effect) (past : Past) : Effect := { e with stage := e.stage.upon past }

/-- Acts neither look at chains nor name them, apart from the beat that is collected. -/
theorem perform_upon (act : Act) : (w.upon past).perform act = (w.perform act).upon past := by
  cases act with
  -- the result of the setup decides whether there is an event, and is the same upon the past
  | setup text =>
    simp only [perform, setup_upon]
    cases hsetup : (w.setup text unnamedSource).2 with
    | ok event =>
      have heq : w.setup text unnamedSource = ((w.setup text unnamedSource).1, .ok event) := Prod.ext rfl hsetup
      rw [heq]
      rfl
    | error e =>
      have heq : w.setup text unnamedSource = ((w.setup text unnamedSource).1, .error e) := Prod.ext rfl hsetup
      rw [heq]
      rfl
  | nextBeat =>
    have hcollect : (w.upon past).collect = (w.collect.1.upon past, w.collect.2) := collect_upon w past none
    simp only [perform, hcollect]
    rfl
  | assign name value =>
    have hsession : (w.upon past).session = w.session := rfl
    simp only [perform, hsession]
    cases w.session.settings.assign name value with
    | ok settings => rfl
    | error e => rfl
  | loadCompiled document =>
    simp only [perform]
    cases Script.ofJson document with
    | ok script => rfl
    | error e => rfl
  | sleep | advance | setVariable | view | note | fail | attach | subscribe | unsubscribe | clear | publish => rfl

/-! ## Events -/

theorem performAll_upon (acts : List Act) :
    performAll acts (w.upon past) = ((performAll acts w).1.upon past, (performAll acts w).2) := by
  induction acts generalizing w with
  | nil => rfl
  | cons act acts ih =>
    have hqueued : ((w.perform act).upon past).event.elim ((w.perform act).upon past).stage
          (fun e => ((w.perform act).upon past).stage.editBus (·.enqueue e)) =
        ((w.perform act).event.elim (w.perform act).stage
          fun e => (w.perform act).stage.editBus (·.enqueue e)).upon past := by
      show (w.perform act).event.elim _ _ = _
      cases (w.perform act).event <;> rfl
    have hfailure : ((w.perform act).upon past).failure = (w.perform act).failure := rfl
    simp only [performAll, perform_upon, hqueued, hfailure]
    cases (w.perform act).failure with
    | some failure => rfl
    | none => exact ih _

variable (react : Reactions)

/-- A handler finds the same session, so it does the same. -/
theorem callHandler_upon (handler : Nat) (event : SessionEvent) (b : Bus Notice) :
    callHandler react handler event b (w.upon past) =
      ((callHandler react handler event b w).1, (callHandler react handler event b w).2.1.upon past,
        (callHandler react handler event b w).2.2) := by
  have hheard : (({ w.upon past with bus := some b } : Stage).see (.heard handler event)).countCue
        (.heard handler event.topic) =
      ((({ w with bus := some b } : Stage).see (.heard handler event)).countCue
        (.heard handler event.topic)).upon past := rfl
  simp only [callHandler, hheard, performAll_upon]
  rfl

theorem deliver_upon (event : SessionEvent) :
    (w.upon past).deliver react event = (w.deliver react event).upon past := by
  have hbus : (w.upon past).bus = w.bus := rfl
  unfold deliver
  rw [hbus]
  cases w.bus with
  | none => rfl
  | some b =>
    have hdeliver : Bus.deliver (audience react) event b (w.upon past) =
        ((Bus.deliver (audience react) event b w).1, (Bus.deliver (audience react) event b w).2.1.upon past,
          (Bus.deliver (audience react) event b w).2.2) :=
      Bus.deliver_map (f := (upon · past)) (fun _ _ => rfl)
        (fun handler event b v => callHandler_upon v past react handler event b) (fun _ _ => rfl) event b w
    simp only [hdeliver]
    rfl

theorem publish_upon (event : SessionEvent) :
    (w.upon past).publish react event = (w.publish react event).upon past := by
  have hbus : (w.upon past).bus = w.bus := rfl
  unfold publish
  rw [hbus]
  cases w.bus with
  | none => rfl
  | some b =>
    simp only
    split
    · rfl
    · exact deliver_upon { w with bus := some (b.settle.mark (.published event)) } past react event

/-! ## Chains and time -/

/-- `w.append wake` — one more entry of the ready list. -/
def append (w : Stage) (wake : Wake) : Stage := { w with ready := w.ready ++ [wake] }

theorem append_upon (wake : Wake) : (w.upon past).append (past.wake wake) = (w.append wake).upon past := by
  simp [append, upon]

theorem spawn_upon (frames : List Frame) (group : Option Nat) :
    (w.upon past).spawn (frames.map past.frame) (group.map past.group) = (w.spawn frames group).upon past := by
  simp only [spawn, length_chains_upon]
  simp [upon, Past.renumber, Past.wake]

theorem spawnAdvance_upon (context : Context) :
    (w.upon past).spawn [.advance context] none = (w.spawn [.advance context] none).upon past :=
  spawn_upon w past [.advance context] none

/-- `w.editChain chain edit` — one chain changed. -/
def editChain (w : Stage) (chain : Nat) (edit : Chain → Chain) : Stage :=
  { w with chains := w.chains.modify chain edit }

theorem editChain_upon (chain : Nat) (edit edit' : Chain → Chain)
    (h : ∀ c, edit' (past.renumber c) = past.renumber (edit c)) :
    (w.upon past).editChain (past.chain chain) edit' = (w.editChain chain edit).upon past := by
  have hchains : (w.upon past).chains.modify (past.chain chain) edit' =
      past.chains ++ (w.chains.modify chain edit).map past.renumber := by
    rw [← modify_map w.chains chain h]
    exact modify_append past.chains (w.chains.map past.renumber) chain edit'
  simp only [editChain, hchains]
  rfl

theorem setFrames_upon (chain : Nat) (frames : List Frame) :
    (w.upon past).setFrames (past.chain chain) (frames.map past.frame) = (w.setFrames chain frames).upon past :=
  editChain_upon w past chain _ _ fun _ => rfl

theorem groupOf_upon (chain : Nat) : (w.upon past).groupOf (past.chain chain) = (w.groupOf chain).map past.group := by
  rw [groupOf, groupOf, getElem?_chains_upon]
  cases w.chains[chain]? <;> rfl

theorem goOn_upon (chain : Nat) (failure : Option Failure) :
    (w.upon past).goOn (past.chain chain) failure = (w.goOn chain failure).upon past := rfl

theorem sleep_upon (chain : Nat) (seconds : Float) :
    (w.upon past).sleep (past.chain chain) seconds = (w.sleep chain seconds).upon past := by
  unfold sleep
  split
  · exact append_upon w past (.resume chain none)
  · have htimers := map_insertTimer past ⟨w.now + seconds, chain⟩ w.timers
    simp only [upon, htimers]
    rfl

/-- `w.closeChain chain failure` — one chain over. -/
def closeChain (w : Stage) (chain : Nat) (failure : Option Failure) : Stage :=
  w.editChain chain fun c => { c with outcome := some failure }

/-- How a chain ends, as two edits: it is over (`closeChain`), and its group has an entry to count.  The edits have
    their own lemmas above. -/
theorem finish_eq (chain : Nat) (failure : Option Failure) :
    w.finish chain failure = ((w.closeChain chain failure).groupOf chain).elim (w.closeChain chain failure)
      fun group => (w.closeChain chain failure).append (.over group failure) := by
  simp only [finish, closeChain, editChain]
  split
  · rename_i hgroup
    rw [hgroup]
    rfl
  · rename_i hgroup
    rw [hgroup]
    rfl

theorem finish_upon (chain : Nat) (failure : Option Failure) :
    (w.upon past).finish (past.chain chain) failure = (w.finish chain failure).upon past := by
  have hclose : (w.upon past).closeChain (past.chain chain) failure = (w.closeChain chain failure).upon past :=
    editChain_upon w past chain _ _ fun _ => rfl
  rw [finish_eq, finish_eq, hclose, groupOf_upon]
  cases (w.closeChain chain failure).groupOf chain with
  | none => rfl
  | some group => exact append_upon _ past (.over group failure)

theorem openGroup_upon (owner : Nat) :
    (w.upon past).openGroup (past.chain owner) = (w.openGroup owner).upon past := by
  simp [openGroup, upon, Past.owned]

/-- `w.setGroup group g` — one group replaced. -/
def setGroup (w : Stage) (group : Nat) (g : Group) : Stage := { w with groups := w.groups.set group g }

theorem setGroup_upon (group : Nat) (g : Group) :
    (w.upon past).setGroup (past.group group) (past.owned g) = (w.setGroup group g).upon past := by
  simp [setGroup, upon, Past.group, List.set_append_right, List.map_set]

/-- A group is counted down under its new number (`past.group`), and its owner is woken under its new number. -/
theorem memberOver_upon (group : Nat) (failure : Option Failure) :
    (w.upon past).memberOver (past.group group) failure = (w.memberOver group failure).upon past := by
  simp only [memberOver, getElem?_groups_upon]
  cases w.groups[group]? with
  | none => rfl
  | some g =>
    have hset := setGroup_upon w past group
      { g with left := g.left - 1,
               settled := g.settled || (!g.settled && (failure.isSome || decide (g.left - 1 = 0))) }
    have hready := (congrArg (append · _) hset).trans (append_upon _ past (.resume g.owner failure))
    simp only [Option.map_some]
    -- the owner is told by its number, which is moved by the past like all others
    by_cases htell : (!g.settled && (failure.isSome || decide (g.left - 1 = 0))) = true
    · rw [if_pos htell]
      exact (if_pos htell).trans hready
    · rw [if_neg htell]
      exact (if_neg htell).trans hset

/-! ## Commands -/

theorem jumpTo_upon (beat : Option Nat) (c : Command) (label : String) :
    (w.upon past).jumpTo react (beat.map past.group) c label = (w.jumpTo react beat c label).upon past := by
  have hsession : (w.upon past).session = w.session := rfl
  unfold jumpTo
  rw [hsession]
  cases w.session.script.find? label with
  | none => rfl
  | some position =>
    have hrecord := record_upon (w.log .debug s!"Jump to '{label}' (command {position})") past
      (.jump beat c label position)
    exact (congrArg (publish react · _) hrecord).trans (publish_upon _ past react _)

theorem showAndSettle_upon (chain : Nat) (rest : List Frame) (c : Command) (cue : Cue) :
    (w.upon past).showAndSettle react (past.chain chain) (rest.map past.frame) c cue =
      (w.showAndSettle react chain rest c cue).upon past :=
  congrArg (goOn · _ none) (setFrames_upon ((w.see (.shown c w.now)).countCue cue) past chain
    (.acts (react cue (w.timesFired cue)) :: .settle :: rest))

/-- A command looks at the session, and at its own chain for the number of the beat. -/
theorem runCommand_upon (chain : Nat) (rest : List Frame) (c : Command) :
    (w.upon past).runCommand react (past.chain chain) (rest.map past.frame) c =
      (w.runCommand react chain rest c).upon past := by
  simp only [runCommand, setFrames_upon, groupOf_upon]
  generalize w.setFrames chain rest = v
  have hsession : (v.upon past).session = v.session := rfl
  rw [hsession]
  split
  · -- nobody listens
    rfl
  · cases c.body with
    | text text => exact showAndSettle_upon v past react chain rest c _
    | image name => exact showAndSettle_upon v past react chain rest c _
    | wait seconds => exact sleep_upon v past chain seconds
    | choice var choices =>
      have hrecord := record_upon v past (.offer (v.groupOf chain) c ⟨c.line, var, choices⟩)
      simp only
      -- the deed names the group of the chain, so `Past.deed` moves its number
      have hoffer : (v.upon past).record (.offer ((v.groupOf chain).map past.group) c ⟨c.line, var, choices⟩) =
        (v.record (.offer (v.groupOf chain) c ⟨c.line, var, choices⟩)).upon past := hrecord
      rw [hoffer]
      generalize v.record (.offer (v.groupOf chain) c ⟨c.line, var, choices⟩) = u
      exact congrArg (goOn · _ none) (setFrames_upon ((u.see (.shown c u.now)).countCue (.choice var)) past chain
        (.acts ((react (.choice var) (u.timesFired (.choice var))).filter Act.isImmediate) :: .announce c :: rest))
    | condition test =>
      simp only
      cases v.session.get? test.var with
      | none => rfl
      | some actual =>
        simp only
        split
        · exact congrArg (goOn · _ none) (jumpTo_upon v past react (v.groupOf chain) c test.label)
        · rfl
    | jump label => exact congrArg (goOn · _ none) (jumpTo_upon v past react (v.groupOf chain) c label)
    | label => rfl
    | bare => rfl

/-! ## Advances -/

/-- A round opens a group, which gets the next number. -/
theorem nextRound_upon (chain : Nat) (rest : List Frame) (context : Context) :
    (w.upon past).nextRound react (past.chain chain) (rest.map past.frame) context =
      (w.nextRound react chain rest context).upon past := by
  -- the new group gets the next free number, on both stages
  have hnumber : (w.upon past).groups.length = past.group w.groups.length := by
    simp [upon, Past.group, Nat.add_comm]
  have hcollect : ((w.openGroup chain).upon past).collect (some (past.group w.groups.length)) =
      (((w.openGroup chain).collect (some w.groups.length)).1.upon past,
        ((w.openGroup chain).collect (some w.groups.length)).2) :=
    collect_upon (w.openGroup chain) past (some w.groups.length)
  simp only [nextRound, hnumber, openGroup_upon, hcollect]
  rcases (w.openGroup chain).collect (some w.groups.length) with ⟨v, beat⟩
  cases beat with
  | nil =>
    -- no beat is left: the end is recorded and published
    simp only [reset, pass_upon]
    have hfinish : ((v.pass context .reset).upon past).record .finish =
        ((v.pass context .reset).record .finish).upon past := record_upon _ past .finish
    rw [hfinish]
    generalize (v.pass context .reset).record .finish = u
    have hframes := setFrames_upon (u.log .debug s!"Chat '{u.session.script.id}' finished.") past chain
      (.reportEnd :: .leave context :: rest)
    exact congrArg (goOn · _ none) ((congrArg (publish react · _) hframes).trans (publish_upon _ past react _))
  | cons c cs =>
    have hframes := setFrames_upon v past chain (.start context w.groups.length (c :: cs) :: rest)
    exact congrArg (goOn · _ none) ((congrArg (publish react · _) hframes).trans (publish_upon _ past react _))

theorem beginAdvance_upon (chain : Nat) (rest : List Frame) (context : Context) :
    (w.upon past).beginAdvance react (past.chain chain) (rest.map past.frame) context =
      (w.beginAdvance react chain rest context).upon past := by
  simp only [beginAdvance, touch_upon, setFrames_upon]
  generalize (w.touch context).setFrames chain rest = v
  have hsession : (v.upon past).session = v.session := rfl
  rw [hsession]
  split
  · rfl
  · split
    · rfl
    · cases v.session.pending with
      | some offer => rfl
      | none =>
        simp only [enter, pass_upon]
        exact nextRound_upon _ past react chain rest context

theorem startBeat_upon (chain : Nat) (rest : List Frame) (context : Context) (number : Nat) (beat : List Command) :
    (w.upon past).startBeat (past.chain chain) (rest.map past.frame) context (past.group number) beat =
      (w.startBeat chain rest context number beat).upon past := by
  have hframes : (w.upon past).setFrames (past.chain chain) (.beat context (endsOnChoice beat) :: rest.map past.frame) =
      (w.setFrames chain (.beat context (endsOnChoice beat) :: rest)).upon past :=
    setFrames_upon w past chain (.beat context (endsOnChoice beat) :: rest)
  simp only [startBeat, hframes]
  generalize w.setFrames chain (.beat context (endsOnChoice beat) :: rest) = v
  clear hframes
  induction beat generalizing v with
  | nil => rfl
  | cons c cs ih =>
    have hspawn : (v.upon past).spawn [.command c] (some (past.group number)) =
        (v.spawn [.command c] (some number)).upon past := spawn_upon v past [.command c] (some number)
    rw [List.foldl_cons, hspawn]
    exact ih (v.spawn [.command c] (some number))

theorem beatOver_upon (chain : Nat) (rest : List Frame) (context : Context) (onChoice : Bool) :
    (w.upon past).beatOver react (past.chain chain) (rest.map past.frame) context onChoice =
      (w.beatOver react chain rest context onChoice).upon past := by
  have hsession : (w.upon past).session = w.session := rfl
  unfold beatOver
  rw [hsession]
  split
  · simp only [setFrames_upon, leave, pass_upon]
    rfl
  · exact nextRound_upon w past react chain rest context

/-! ## Frames -/

theorem unwind_upon (chain : Nat) (frame : Frame) (rest : List Frame) (failure : Failure) :
    (w.upon past).unwind (past.chain chain) (past.frame frame) (rest.map past.frame) failure =
      (w.unwind chain frame rest failure).upon past := by
  cases frame <;> simp only [unwind, Past.frame, setFrames_upon, leave, pass_upon, goOn_upon]

theorem carryOut_upon (act : Act) :
    (w.upon past).carryOut react act = ((w.carryOut react act).1.upon past, (w.carryOut react act).2) := by
  simp only [carryOut, perform_upon]
  cases hevent : (w.perform act).event with
  | none => simp [Effect.upon, hevent]
  | some event => simp [Effect.upon, hevent, publish_upon]

theorem runAct_upon (chain : Nat) (rest : List Frame) (act : Act) :
    (w.upon past).runAct react (past.chain chain) (rest.map past.frame) act =
      (w.runAct react chain rest act).upon past := by
  cases act with
  | sleep seconds =>
    simp only [runAct, setFrames_upon]
    exact sleep_upon _ past chain seconds
  | advance context => exact congrArg (goOn · _ none) (setFrames_upon w past chain (.advance context :: rest))
  | setVariable | setup | loadCompiled | nextBeat | view | note | fail | attach | assign | subscribe | unsubscribe | clear
  | publish =>
    simp only [runAct, setFrames_upon, carryOut_upon]
    rfl

/-- Every frame: the cases of `Stage.runFrame`. -/
theorem runFrame_upon (chain : Nat) (frame : Frame) (rest : List Frame) :
    (w.upon past).runFrame react (past.chain chain) (past.frame frame) (rest.map past.frame) =
      (w.runFrame react chain frame rest).upon past := by
  -- one lemma for each kind of frame; only those without one are done here
  cases frame with
  | command c => exact runCommand_upon w past react chain rest c
  | acts acts =>
    cases acts with
    | nil => exact congrArg (goOn · _ none) (setFrames_upon w past chain rest)
    | cons act acts => exact runAct_upon w past react chain (.acts acts :: rest) act
  | settle =>
    simp only [runFrame, Past.frame, setFrames_upon]
    exact sleep_upon _ past chain _
  | announce c =>
    simp only [runFrame, Past.frame, setFrames_upon, publish_upon]
    rfl
  | advance context => exact beginAdvance_upon w past react chain rest context
  | start context number beat => exact startBeat_upon w past chain rest context number beat
  | beat context onChoice => exact beatOver_upon w past react chain rest context onChoice
  | reportEnd =>
    have hsession : (w.upon past).session = w.session := rfl
    simp only [runFrame, Past.frame, hsession]
    split
    · exact congrArg (goOn · _ none) (setFrames_upon ((w.see (.ended w.now)).countCue .ended) past chain
        (.acts (react .ended (w.timesFired .ended)) :: rest))
    · exact congrArg (goOn · _ _) (setFrames_upon w past chain rest)
  | leave context =>
    simp only [runFrame, Past.frame, setFrames_upon, Stage.leave, pass_upon]
    rfl
  | sleep seconds =>
    simp only [runFrame, Past.frame, setFrames_upon]
    exact sleep_upon _ past chain seconds

theorem runChain_upon (chain : Nat) (failure : Option Failure) :
    (w.upon past).runChain react (past.chain chain) failure = (w.runChain react chain failure).upon past := by
  have hidle : ({ w.upon past with active := none } : Stage) = ({ w with active := none } : Stage).upon past := rfl
  simp only [runChain, hidle, getElem?_chains_upon]
  generalize ({ w with active := none } : Stage) = v
  cases w.chains[chain]? with
  | none => rfl
  | some c =>
    simp only [Option.map_some, Past.renumber]
    cases c.frames with
    | nil => exact finish_upon v past chain failure
    | cons frame rest =>
      cases failure with
      | none => exact runFrame_upon v past react chain frame rest
      | some f => exact unwind_upon v past chain frame rest f

/-! ## Steps -/

theorem nextEvent?_upon : (w.upon past).nextEvent? = w.nextEvent?.map fun p => (p.1, p.2.upon past) := by
  have hbus : (w.upon past).bus = w.bus := rfl
  unfold nextEvent?
  rw [hbus]
  cases w.bus with
  | none => rfl
  | some b =>
    simp only
    cases b.queue <;> rfl

theorem fireTimers_upon (time : Float) : (w.upon past).fireTimers time = (w.fireTimers time).upon past := by
  have hdue : ∀ ts : List Timer, (ts.map past.timer).dropWhile (fun t => decide (t.due < time + resolution)) =
      (ts.dropWhile fun t => decide (t.due < time + resolution)).map past.timer := fun ts =>
    List.dropWhile_map ..
  have hfired : ∀ ts : List Timer, (ts.map past.timer).takeWhile (fun t => decide (t.due < time + resolution)) =
      (ts.takeWhile fun t => decide (t.due < time + resolution)).map past.timer := fun ts =>
    List.takeWhile_map ..
  simp only [fireTimers, upon, hdue, hfired, List.map_append, List.map_map, List.append_assoc]
  rfl

variable {past}

/-- What is ready comes after ends of the past that are to be counted (`stale`); there are none. -/
theorem takeReady_upon (h : past.stale = []) : (w.upon past).takeReady = w.takeReady.map (upon · past) := by
  have hready : (w.upon past).ready = w.ready.map past.wake := by simp [upon, h]
  unfold takeReady
  rw [hready]
  cases hwakes : w.ready with
  | nil => rfl
  | cons wake ready =>
    have hrest : ({ w.upon past with ready := ready.map past.wake } : Stage) =
        ({ w with ready := ready } : Stage).upon past := by simp [upon, h]
    rcases wake with ⟨chain, failure⟩ | ⟨group, failure⟩
    · simp only [List.map_cons, Past.wake, Option.map_some]
      exact congrArg (fun v : Stage => some { v with active := some (past.chain chain, failure) }) hrest
    · simp only [List.map_cons, Past.wake, Option.map_some, hrest]
      exact congrArg some (memberOver_upon { w with ready := ready } past group failure)

/-- A stage upon a past (`upon`) with nothing left to count takes the same steps. -/
theorem step_upon (h : past.stale = []) : (w.upon past).step react = (w.step react).map (upon · past) := by
  have hactive : (w.upon past).active = w.active.map fun p => (past.chain p.1, p.2) := rfl
  simp only [step, nextEvent?_upon, hactive, takeReady_upon w h]
  -- the order in which a stage looks for something to do: events, the running chain, what is ready, timers
  cases w.nextEvent? with
  | some p => exact congrArg some (deliver_upon p.2 past react p.1)
  | none =>
    cases w.active with
    | some p => exact congrArg some (runChain_upon w past react p.1 p.2)
    | none =>
      cases w.takeReady with
      | some v => rfl
      | none =>
        have hnow : (w.upon past).now = w.now := rfl
        -- here it matters that nothing of the past is left to count
        have hempty : ((w.fireTimers w.now).upon past).ready.isEmpty = (w.fireTimers w.now).ready.isEmpty := by
          simp [upon, h]
        simp only [Option.map_none, hnow, fireTimers_upon, hempty]
        split <;> rfl

/-- Time passes to the same time, and wakes the same chains. -/
theorem tick_upon (h : past.stale = []) : (w.upon past).tick = w.tick.map (upon · past) := by
  have htimers : (w.upon past).timers = w.timers.map past.timer := rfl
  unfold tick
  rw [htimers]
  cases w.timers with
  | nil => rfl
  | cons t timers =>
    -- the chain of the timer is moved when it becomes ready, as it would be on the timer
    have hready : ({ w.upon past with
          now := t.due
          timers := timers.map past.timer
          ready := (w.upon past).ready ++ [.resume (past.chain t.chain) none] } : Stage) =
        ({ w with now := t.due, timers := timers, ready := w.ready ++ [.resume t.chain none] } : Stage).upon past := by
      simp [upon, h, Past.wake]
    have hdue : (past.timer t).due = t.due := rfl
    simp only [List.map_cons, hdue]
    split
    · rfl
    · simp only [Option.map_some, ← fireTimers_upon, ← hready]
      rfl

theorem rest_upon (h : past.stale = []) (fuel : Nat) :
    (w.upon past).rest react fuel = (w.rest react fuel).map (upon · past) := by
  induction fuel generalizing w with
  | zero => rfl
  | succ fuel ih =>
    simp only [rest, step_upon w react h]
    cases w.step react with
    | none => rfl
    | some v => exact ih v

theorem outcome?_upon (chain : Nat) : (w.upon past).outcome? (past.chain chain) = w.outcome? chain := by
  rw [outcome?, outcome?, getElem?_chains_upon]
  cases w.chains[chain]? <;> rfl

/-- Waiting for a chain under its new number, by induction on the fuel. -/
theorem await_upon (h : past.stale = []) (chain fuel : Nat) :
    (w.upon past).await react (past.chain chain) fuel =
      (w.await react chain fuel).map fun p => (p.1.upon past, p.2) := by
  induction fuel generalizing w with
  | zero => rfl
  | succ fuel ih =>
    simp only [await, step_upon w react h]
    cases w.step react with
    | some v => exact ih v
    | none =>
      simp only [Option.map_none, outcome?_upon, tick_upon w h]
      cases w.outcome? chain with
      | some failure => rfl
      | none =>
        cases w.tick with
        | some v => exact ih v
        | none => rfl

end Stage

end ChatScene

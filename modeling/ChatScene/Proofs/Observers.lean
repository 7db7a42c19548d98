/-
  Observers do not disturb a session.

  A stage whose handlers only observe is followed step by step by its shadow, a stage without a bus: whatever the one
  does to its session, its chains and its listener, the other does too, and what is delivered on the one does not show
  on the other.  So the host, who advances the session, sets variables and loads texts, sees the same on both, after
  every call and at every moment of an advance, whether it returns or goes on for ever.

  1. **Shadows** — `Shadow w u`: the stage `u` has no bus, and is `w` but for what handlers leave there.  For each
     function of the stage there is a lemma that it keeps this, if handlers leave the session alone
     (`HandlersLeaveSession`).

  2. **Steps** — a step of the one is a step of its shadow or does not show (`follows_step`), since a delivery is no
     step of the shadow.  The other way round, what is queued has to be delivered first (`leads_step`, `settles`); so
     it must come to an end (`Drains`).

  3. **Calls of the host** — a call that returns returns on the shadow with the same result (`returns`), and the other
     way round (`returns_of`); and whatever comes up during it comes up on both (`passes`, `passes_of`).

  4. **Main result** (`observers_do_not_disturb`) — the runs of a host on a stage with such a bus have the same glimpses
     (`Glimpse`) as its runs on the stage without one.
-/
import ChatScene.Proofs.WithoutHandlers

namespace ChatScene

open Relation (ReflTransGen)

/-! ## Related results -/

section Rel

variable {α β : Type} {R : α → β → Prop} {x : Option α} {y : Option β}

/-- A pair of related results, from what is known of the first one. -/
theorem rel_some_left {a : α} (h : Option.Rel R x y) (hx : x = some a) : ∃ b, y = some b ∧ R a b := by
  subst hx
  cases h with
  | some hab => exact ⟨_, rfl, hab⟩

theorem rel_some_right {b : β} (h : Option.Rel R x y) (hy : y = some b) : ∃ a, x = some a ∧ R a b := by
  subst hy
  cases h with
  | some hab => exact ⟨_, rfl, hab⟩

theorem rel_none_iff (h : Option.Rel R x y) : x = none ↔ y = none := by
  cases h <;> simp

end Rel

namespace Stage

variable {react : Reactions} {w u v : Stage} {chain : Nat} {rest : List Frame}

/-- `w.Shadow u` — a stage without a bus that is the same as another one but for what handlers leave there. -/
structure Shadow (w u : Stage) : Prop where
  withoutHandlers_eq : u.withoutHandlers = w.withoutHandlers
  bus_eq : u.bus = none

namespace Shadow

/-! ## What the two have in common -/

section Common

variable (h : Shadow w u)

include h

/-- Whatever can be read off the stage without its handlers is the same. -/
theorem same {α : Type} {f : Stage → α} (hf : ∀ x, f x.withoutHandlers = f x) : f u = f w := by
  rw [← hf u, h.withoutHandlers_eq, hf w]

theorem session_eq : u.session = w.session := h.same fun _ => rfl

theorem chains_eq : u.chains = w.chains := h.same fun _ => rfl

theorem groups_eq : u.groups = w.groups := h.same fun _ => rfl

theorem now_eq : u.now = w.now := h.same fun _ => rfl

theorem calls_eq : u.calls = w.calls := h.same calls_withoutHandlers

theorem view_eq : u.view = w.view := h.same fun _ => rfl

theorem groupOf_eq (chain : Nat) : u.groupOf chain = w.groupOf chain := h.same (f := (·.groupOf chain)) fun _ => rfl

theorem outcome_eq (chain : Nat) : u.outcome? chain = w.outcome? chain := h.same (f := (·.outcome? chain)) fun _ => rfl

/-- Cues that are none of handlers have been given as often. -/
theorem timesFired_eq {cue : Cue} (hcue : cue.isHeard = false) : u.timesFired cue = w.timesFired cue := by
  -- a cue of the listener is looked up past those of handlers
  have hlookup : ∀ fired : List (Cue × Nat), (fired.filter (!·.1.isHeard)).lookup cue = fired.lookup cue := by
    intro fired
    induction fired with
    | nil => rfl
    | cons entry fired ih =>
      obtain ⟨other, n⟩ := entry
      by_cases heq : cue = other
      · subst heq
        simp [hcue]
      · have hne : (cue == other) = false := beq_false_of_ne heq
        cases hother : other.isHeard <;> simp [hother, List.lookup_cons, hne, ih]
  have hfired : u.fired.filter (!·.1.isHeard) = w.fired.filter (!·.1.isHeard) := congrArg Stage.fired h.withoutHandlers_eq
  show (u.fired.lookup cue).getD 0 = (w.fired.lookup cue).getD 0
  rw [← hlookup u.fired, hfired, hlookup]

/-! ## Plain changes -/

/-- A change that has nothing to do with handlers keeps the shadow (`Shadow`). -/
theorem map {f : Stage → Stage} (hwithout : ∀ x, (f x).withoutHandlers = f x.withoutHandlers)
    (hbus : ∀ x, (f x).bus = x.bus) :
    Shadow (f w) (f u) := by
  constructor
  · rw [hwithout, hwithout, h.withoutHandlers_eq]
  · rw [hbus, h.bus_eq]

theorem record (d : Deed) : Shadow (w.record d) (u.record d) := h.map (f := (·.record d)) (fun _ => rfl) fun _ => rfl

theorem setFrames (chain : Nat) (frames : List Frame) : Shadow (w.setFrames chain frames) (u.setFrames chain frames) :=
  h.map (f := (·.setFrames chain frames)) (fun _ => rfl) fun _ => rfl

theorem goOn (chain : Nat) (failure : Option Failure) : Shadow (w.goOn chain failure) (u.goOn chain failure) :=
  h.map (f := (·.goOn chain failure)) (fun _ => rfl) fun _ => rfl

theorem spawn (frames : List Frame) (group : Option Nat) : Shadow (w.spawn frames group) (u.spawn frames group) :=
  h.map (f := (·.spawn frames group)) (fun _ => rfl) fun _ => rfl

theorem openGroup (owner : Nat) : Shadow (w.openGroup owner) (u.openGroup owner) :=
  h.map (f := (·.openGroup owner)) (fun _ => rfl) fun _ => rfl

theorem fireTimers (time : Float) : Shadow (w.fireTimers time) (u.fireTimers time) :=
  h.map (f := (·.fireTimers time)) (fun _ => rfl) fun _ => rfl

theorem sleep (chain : Nat) (seconds : Float) : Shadow (w.sleep chain seconds) (u.sleep chain seconds) := by
  refine h.map (f := (·.sleep chain seconds)) (fun x => ?_) fun x => ?_ <;>
  · simp only [Stage.sleep]
    split <;> rfl

theorem editNamed (name : String) (edit : Nat → Nat) : Shadow (w.editNamed name edit) (u.editNamed name edit) := by
  refine h.map (f := (·.editNamed name edit)) (fun x => ?_) fun x => ?_
  · show (x.editNamed name edit).withoutHandlers = x.withoutHandlers.editNamed name edit
    unfold Stage.editNamed
    have hcontexts : x.withoutHandlers.contexts = x.contexts := rfl
    rw [hcontexts]
    split <;> rfl
  · simp only [Stage.editNamed]
    split <;> rfl

theorem touch (context : Context) : Shadow (w.touch context) (u.touch context) := by
  cases context with
  | own => exact h
  | named name => exact h.editNamed name id

theorem pass (context : Context) (passage : Passage) : Shadow (w.pass context passage) (u.pass context passage) := by
  cases context with
  | own => exact h.record _
  | named name => exact (h.record _).editNamed name passage.edit

theorem finish (chain : Nat) (failure : Option Failure) : Shadow (w.finish chain failure) (u.finish chain failure) := by
  have hover := h.map
    (f := fun x => { x with chains := x.chains.modify chain fun c => { c with outcome := some failure } })
    (fun _ => rfl) fun _ => rfl
  simp only [Stage.finish]
  rw [hover.groupOf_eq chain]
  split
  · exact hover.map (f := fun x => { x with ready := x.ready ++ [.over _ failure] }) (fun _ => rfl) fun _ => rfl
  · exact hover

/-- A chain is over: groups and their owners are the same on both. -/
theorem memberOver (group : Nat) (failure : Option Failure) :
    Shadow (w.memberOver group failure) (u.memberOver group failure) := by
  simp only [Stage.memberOver]
  rw [h.groups_eq]
  split
  · exact h
  · rename_i g hg
    -- groups are the same on both sides, so the counted group may be set on both
    have hset : ∀ g', Shadow { w with groups := w.groups.set group g' } { u with groups := w.groups.set group g' } := by
      intro g'
      have hgroups := h.map (f := fun x => { x with groups := x.groups.set group g' }) (fun _ => rfl) fun _ => rfl
      simp only [h.groups_eq] at hgroups
      exact hgroups
    split
    · -- the owner is told
      exact (hset _).map (f := fun x => { x with ready := x.ready ++ [.resume g.owner failure] }) (fun _ => rfl)
        fun _ => rfl
    · -- others are still missing, or it has been told before
      exact hset _

/-! ## What is seen, and cues -/

/-- What is not a call to the listener (`call?`) may be seen on one side only. -/
theorem notice {m m' : Moment} (hm : m.call? = none) (hm' : m'.call? = none) : Shadow (w.see m) (u.see m') := by
  constructor
  · rw [withoutHandlers_see u hm', withoutHandlers_see w hm, h.withoutHandlers_eq]
  · exact h.bus_eq

theorem log (level : Level) (message : String) : Shadow (w.log level message) (u.log level message) := h.notice rfl rfl

theorem logAll (lines : List LogLine) : Shadow (w.logAll lines) (u.logAll lines) := by
  unfold Stage.logAll
  induction lines generalizing w u with
  | nil => exact h
  | cons line lines ih => exact ih (h.notice rfl rfl)

theorem call {m : Moment} (hm : m.call?.isSome = true) : Shadow (w.see m) (u.see m) := by
  refine h.map (f := (·.see m)) (fun x => ?_) fun _ => rfl
  simp [Stage.withoutHandlers, Stage.see, hm]

theorem shown (c : Command) : Shadow (w.see (.shown c w.now)) (u.see (.shown c u.now)) := by
  rw [h.now_eq]
  exact h.call rfl

/-- A cue of the listener is counted on both. -/
theorem countCue {cue : Cue} (hcue : cue.isHeard = false) : Shadow (w.countCue cue) (u.countCue cue) := by
  have hfired : ∀ x : Stage, (x.countCue cue).withoutHandlers =
      { x.withoutHandlers with fired := (cue, x.timesFired cue + 1) :: x.withoutHandlers.fired.filter (·.1 ≠ cue) } := by
    intro x
    simp only [Stage.countCue, Stage.withoutHandlers, List.filter_cons, hcue, Bool.not_false, if_true, List.filter_filter,
      Bool.and_comm]
  constructor
  · rw [hfired, hfired, h.withoutHandlers_eq, h.timesFired_eq hcue]
  · exact h.bus_eq

/-- The listener reacts to the same cue for the same time, so in the same way. -/
theorem reaction (react : Reactions) {cue : Cue} (hcue : cue.isHeard = false) :
    Shadow (w.reaction react cue).1 (u.reaction react cue).1 ∧ (u.reaction react cue).2 = (w.reaction react cue).2 := by
  refine ⟨h.countCue hcue, ?_⟩
  show react cue (u.timesFired cue) = react cue (w.timesFired cue)
  rw [h.timesFired_eq hcue]

/-! ## Acts -/

theorem load (script : Script) : Shadow (w.load script).1 (u.load script).1 := (h.record (.load script)).log _ _

theorem setup (text source : String) :
    ∃ w' u' result, w.setup text source = (w', result) ∧ u.setup text source = (u', result) ∧ Shadow w' u' := by
  simp only [Stage.setup]
  rw [h.session_eq]
  cases Script.parse w.session.settings.commentMark source text with
  | error e => exact ⟨_, _, _, rfl, rfl, h.logAll _⟩
  | ok script => exact ⟨_, _, _, rfl, rfl, (h.logAll _).load script⟩

theorem collect (number : Option Nat) :
    ∃ w' u' beat, w.collect number = (w', beat) ∧ u.collect number = (u', beat) ∧ Shadow w' u' := by
  simp only [Stage.collect]
  rw [h.session_eq]
  exact ⟨_, _, _, rfl, rfl, (h.record (.collect number w.session.nextBeat)).logAll _⟩

theorem editBus (edit : Bus Notice → Bus Notice) : Shadow (w.editBus edit) (u.editBus edit) := by
  constructor
  · exact h.withoutHandlers_eq
  · show u.bus.map edit = none
    rw [h.bus_eq]
    rfl

/-- An act does the same on both, with the same event and the same failure. -/
theorem perform (act : Act) :
    Shadow (w.perform act).stage (u.perform act).stage ∧ (u.perform act).event = (w.perform act).event ∧
      (u.perform act).failure = (w.perform act).failure := by
  cases act with
  | sleep | advance | publish | fail => exact ⟨h, rfl, rfl⟩
  | setVariable | attach => exact ⟨h.record _, rfl, rfl⟩
  | view | note => exact ⟨h.notice rfl rfl, rfl, rfl⟩
  | subscribe | unsubscribe | clear => exact ⟨h.editBus _, rfl, rfl⟩
  -- what the session is given is found out from the text alone, so it is the same on both sides
  | setup text =>
    obtain ⟨w', u', result, hw, hu, hshadow⟩ := h.setup text unnamedSource
    simp only [Stage.perform, hw, hu]
    cases result <;> exact ⟨hshadow, rfl, rfl⟩
  | loadCompiled document =>
    simp only [Stage.perform]
    cases Script.ofJson document with
    | error e => exact ⟨h, rfl, rfl⟩
    | ok script => exact ⟨h.load script, rfl, rfl⟩
  | nextBeat =>
    obtain ⟨w', u', beat, hw, hu, hshadow⟩ := h.collect none
    refine ⟨?_, rfl, rfl⟩
    simp only [Stage.perform, hw, hu]
    exact hshadow
  | assign name value =>
    simp only [Stage.perform]
    rw [h.session_eq]
    cases w.session.settings.assign name value with
    | error e => exact ⟨h, rfl, rfl⟩
    | ok settings => exact ⟨h.record _, rfl, rfl⟩

end Common

/-! ## Steps -/

section Steps

variable (hhandlers : HandlersLeaveSession react) (h : Shadow w u)

include hhandlers h

/-- Without a bus nothing is published, whatever it is; and on the other side handlers leave the session alone. -/
theorem publish (event event' : SessionEvent) : Shadow (w.publish react event) (u.publish react event') := by
  have hnone : u.publish react event' = u := by
    unfold Stage.publish
    rw [h.bus_eq]
  constructor
  · rw [hnone, withoutHandlers_publish hhandlers, h.withoutHandlers_eq]
  · rw [hnone, h.bus_eq]

theorem carryOut (act : Act) :
    Shadow (w.carryOut react act).1 (u.carryOut react act).1 ∧ (u.carryOut react act).2 = (w.carryOut react act).2 := by
  obtain ⟨hstage, hevent, hfailure⟩ := h.perform act
  refine ⟨?_, hfailure⟩
  simp only [Stage.carryOut]
  rw [hevent]
  cases (w.perform act).event with
  | none => exact hstage
  | some event => exact publish hhandlers hstage event event

theorem jumpTo (beat : Option Nat) (c : Command) (label : String) :
    Shadow (w.jumpTo react beat c label) (u.jumpTo react beat c label) := by
  simp only [Stage.jumpTo]
  rw [h.session_eq]
  split
  · exact h.log _ _
  · exact publish hhandlers ((h.log _ _).record _) _ _

omit hhandlers in
theorem showAndSettle (c : Command) {cue : Cue} (hcue : cue.isHeard = false) :
    Shadow (w.showAndSettle react chain rest c cue) (u.showAndSettle react chain rest c cue) := by
  obtain ⟨hstage, hacts⟩ := (h.shown c).reaction react hcue
  simp only [Stage.showAndSettle]
  rw [hacts]
  exact (hstage.setFrames chain _).goOn chain none

theorem runCommand (c : Command) : Shadow (w.runCommand react chain rest c) (u.runCommand react chain rest c) := by
  have hset := h.setFrames chain rest
  simp only [Stage.runCommand]
  rw [hset.session_eq, hset.groupOf_eq chain]
  split
  · -- nobody listens: the command is passed over
    exact hset.goOn chain none
  · split
    · exact hset.showAndSettle c rfl
    · exact hset.showAndSettle c rfl
    · exact hset.sleep chain _
    · -- a choice: the offer is recorded, and the listener reacts to a cue that is not one of the bus
      rename_i var choices _
      obtain ⟨hstage, hacts⟩ := ((hset.record (.offer ((w.setFrames chain rest).groupOf chain) c
        ⟨c.line, var, choices⟩)).shown c).reaction react (rfl : (Cue.choice var).isHeard = false)
      rw [hacts]
      exact (hstage.setFrames chain _).goOn chain none
    · -- a condition: both look at the same variable
      refine Shadow.goOn ?_ chain none
      split
      · exact hset.log _ _
      · split
        · exact jumpTo hhandlers hset _ c _
        · exact hset
    · exact (jumpTo hhandlers hset _ c _).goOn chain none
    · exact hset.goOn chain none
    · exact (hset.log _ _).goOn chain none

theorem nextRound (context : Context) :
    Shadow (w.nextRound react chain rest context) (u.nextRound react chain rest context) := by
  obtain ⟨w', u', beat, hw, hu, hcollected⟩ := (h.openGroup chain).collect (some w.groups.length)
  simp only [Stage.nextRound]
  rw [h.groups_eq, hw, hu]
  cases beat with
  | nil =>
    refine Shadow.goOn (publish hhandlers (Shadow.setFrames ?_ chain _) _ _) chain none
    exact ((hcollected.pass context .reset).record .finish).notice rfl rfl
  | cons c cs => exact (publish hhandlers (hcollected.setFrames chain _) _ _).goOn chain none

theorem beginAdvance (context : Context) :
    Shadow (w.beginAdvance react chain rest context) (u.beginAdvance react chain rest context) := by
  have hset := (h.touch context).setFrames chain rest
  simp only [Stage.beginAdvance]
  rw [hset.session_eq]
  split
  · exact (hset.log _ _).goOn chain none
  · split
    · exact (hset.log _ _).goOn chain none
    · split
      · exact (hset.log _ _).goOn chain none
      · exact nextRound hhandlers (hset.pass context .enter) context

omit hhandlers in
theorem startBeat (context : Context) (number : Nat) (beat : List Command) :
    Shadow (w.startBeat chain rest context number beat) (u.startBeat chain rest context number beat) := by
  have hall : ∀ {x y : Stage}, Shadow x y → Shadow (beat.foldl (fun w c => w.spawn [.command c] (some number)) x)
      (beat.foldl (fun w c => w.spawn [.command c] (some number)) y) := by
    induction beat with
    | nil => exact fun hxy => hxy
    | cons c cs ih => exact fun hxy => ih (hxy.spawn _ _)
  exact hall (h.setFrames chain _)

theorem beatOver (context : Context) (onChoice : Bool) :
    Shadow (w.beatOver react chain rest context onChoice) (u.beatOver react chain rest context onChoice) := by
  simp only [Stage.beatOver]
  rw [h.session_eq]
  split
  · exact ((h.setFrames chain rest).pass context .leave).goOn chain none
  · exact nextRound hhandlers h context

omit hhandlers in
theorem unwind (frame : Frame) (failure : Failure) :
    Shadow (w.unwind chain frame rest failure) (u.unwind chain frame rest failure) := by
  have hset := h.setFrames chain rest
  cases frame with
  | start context | beat context | leave context => exact (hset.pass context .leave).goOn chain (some failure)
  | command | acts | settle | announce | advance | reportEnd | sleep => exact hset.goOn chain (some failure)

theorem runAct (act : Act) : Shadow (w.runAct react chain rest act) (u.runAct react chain rest act) := by
  have hset := h.setFrames chain rest
  have himmediate : Shadow (((w.setFrames chain rest).carryOut react act).1.goOn chain
        ((w.setFrames chain rest).carryOut react act).2)
      (((u.setFrames chain rest).carryOut react act).1.goOn chain ((u.setFrames chain rest).carryOut react act).2) := by
    obtain ⟨hstage, hfailure⟩ := carryOut hhandlers hset act
    rw [hfailure]
    exact hstage.goOn chain _
  cases act with
  | sleep seconds => exact hset.sleep chain seconds
  | advance context => exact (h.setFrames chain _).goOn chain none
  | setVariable | setup | loadCompiled | nextBeat | view | note | fail | attach | assign
  | subscribe | unsubscribe | clear | publish =>
    exact himmediate

/-- Every frame does the same on both (`Shadow`), whatever its kind. -/
theorem runFrame (frame : Frame) :
    Shadow (w.runFrame react chain frame rest) (u.runFrame react chain frame rest) := by
  have hset := h.setFrames chain rest
  cases frame with
  | command c => exact runCommand hhandlers h c
  | acts acts =>
    cases acts with
    | nil => exact hset.goOn chain none
    | cons act acts => exact runAct hhandlers h act
  | settle =>
    simp only [Stage.runFrame]
    rw [h.session_eq]
    exact hset.sleep chain _
  | announce c => exact (publish hhandlers hset _ _).goOn chain none
  | advance context => exact beginAdvance hhandlers h context
  | start context number beat => exact h.startBeat context number beat
  | beat context onChoice => exact beatOver hhandlers h context onChoice
  | reportEnd =>
    simp only [Stage.runFrame]
    rw [h.session_eq, h.now_eq]
    split
    · obtain ⟨hstage, hacts⟩ := (h.call (m := .ended w.now) rfl).reaction react (rfl : Cue.ended.isHeard = false)
      rw [hacts]
      exact (hstage.setFrames chain _).goOn chain none
    · exact hset.goOn chain _
  | leave context => exact (hset.pass context .leave).goOn chain none
  | sleep seconds => exact hset.sleep chain seconds

theorem runChain (failure : Option Failure) :
    Shadow (w.runChain react chain failure) (u.runChain react chain failure) := by
  have hidle := h.map (f := fun x => { x with active := none }) (fun _ => rfl) fun _ => rfl
  simp only [Stage.runChain]
  generalize { w with active := none } = x at hidle ⊢
  generalize { u with active := none } = y at hidle ⊢
  rw [h.chains_eq]
  split
  · exact hidle
  · exact hidle.finish chain failure
  · cases failure with
    | some failure => exact hidle.unwind _ failure
    | none => exact runFrame hhandlers hidle _

omit hhandlers in
theorem takeReady : Option.Rel Shadow w.takeReady u.takeReady := by
  have hready : u.ready = w.ready := h.same fun _ => rfl
  simp only [Stage.takeReady]
  rw [hready]
  split
  · exact .none
  · rename_i chain failure ready _
    exact .some (h.map (f := fun x => { x with ready, active := some (chain, failure) }) (fun _ => rfl) fun _ => rfl)
  · rename_i group failure ready _
    exact .some ((h.map (f := fun x => { x with ready }) (fun _ => rfl) fun _ => rfl).memberOver group failure)

/-- When nothing is queued the two go on together. -/
theorem step (hempty : w.nextEvent? = none) : Option.Rel Shadow (w.step react) (u.step react) := by
  have hactive : u.active = w.active := h.same fun _ => rfl
  have hnone : u.nextEvent? = none := by
    unfold Stage.nextEvent?
    rw [h.bus_eq]
  simp only [Stage.step, hempty, hnone]
  rw [hactive]
  cases w.active with
  | some running => exact .some (runChain hhandlers h running.2)
  | none =>
    -- no chain is running: either both take the next thing that is ready, or neither has any
    have htake := h.takeReady
    generalize w.takeReady = taken at htake
    generalize u.takeReady = taken' at htake
    cases htake with
    | some hshadow => exact .some hshadow
    | none =>
      -- nothing is ready: timers that are due fire on both sides alike
      have hfire := h.fireTimers w.now
      have hready : (u.fireTimers w.now).ready = (w.fireTimers w.now).ready := hfire.same fun _ => rfl
      simp only [h.now_eq, hready]
      split
      · exact .none
      · exact .some hfire

omit hhandlers in
theorem tick : Option.Rel Shadow w.tick u.tick := by
  have htimers : u.timers = w.timers := h.same fun _ => rfl
  simp only [Stage.tick]
  rw [htimers]
  split
  · exact .none
  · split
    · exact .none
    · rename_i t timers _ _
      exact .some ((h.map (f := fun x => { x with now := t.due, timers, ready := x.ready ++ [.resume t.chain none] })
        (fun _ => rfl) fun _ => rfl).fireTimers t.due)

/-- A step of the one does not show, or is a step of its shadow (`Shadow`). -/
theorem follows_step (hstep : w.step react = some v) : Shadow v u ∨ ∃ y, u.step react = some y ∧ Shadow v y := by
  cases hnext : w.nextEvent? with
  | some next =>
    obtain ⟨event, x⟩ := next
    obtain ⟨hdelivers, hwithout⟩ := step_delivers hhandlers hnext
    cases hstep.symm.trans hdelivers
    exact .inl ⟨h.withoutHandlers_eq.trans hwithout.symm, h.bus_eq⟩
  | none =>
    exact .inr (rel_some_left (step hhandlers h hnext) hstep)

/-- Where the one has nothing left to do at once, neither has its shadow. -/
theorem step_none (hstep : w.step react = none) : u.step react = none := by
  have hempty : w.nextEvent? = none := by
    cases hnext : w.nextEvent? with
    | none => rfl
    | some next => simp [Stage.step, hnext] at hstep
  exact (rel_none_iff (step hhandlers h hempty)).mp hstep

/-- When nothing is queued (`nextEvent?`) a step of the shadow is a step of the one. -/
theorem leads_step (hempty : w.nextEvent? = none) {y : Stage} (hstep : u.step react = some y) :
    ∃ v, w.step react = some v ∧ Shadow v y :=
  rel_some_right (step hhandlers h hempty) hstep

theorem step_none_of (hempty : w.nextEvent? = none) (hstep : u.step react = none) : w.step react = none :=
  (rel_none_iff (step hhandlers h hempty)).mpr hstep

end Steps

/-! ## Runs -/

section Runs

variable (hhandlers : HandlersLeaveSession react)

include hhandlers

/-- What is queued is delivered, which does not show. -/
theorem settles (h : Shadow w u) (hdrains : Drains react w) :
    ∃ v, Stepping react w v ∧ Shadow v u ∧ v.nextEvent? = none := by
  obtain ⟨v, hsteps, hwithout, hempty⟩ := hdrains.settles hhandlers
  exact ⟨v, hsteps, ⟨h.withoutHandlers_eq.trans hwithout.symm, h.bus_eq⟩, hempty⟩

/-- The shadow follows step by step: by induction, a step of the one is a step of its shadow or none at all
    (`follows_step`). -/
theorem follows_stepping (h : Shadow w u) (hsteps : Stepping react w v) :
    ∃ y, Stepping react u y ∧ Shadow v y := by
  induction hsteps with
  | refl => exact ⟨u, .refl, h⟩
  | tail _ hstep ih =>
    obtain ⟨y, hy, hshadow⟩ := ih
    rcases follows_step hhandlers hshadow hstep with hstill | ⟨z, hz, hnext⟩
    · exact ⟨y, hy, hstill⟩
    · exact ⟨z, hy.tail hz, hnext⟩

/-- The same for all that happens while the host waits. -/
theorem follows_arrives (h : Shadow w u) (harrives : Arrives react chain w v) :
    ∃ y, Arrives react chain u y ∧ Shadow v y := by
  induction harrives with
  | refl => exact ⟨u, .refl, h⟩
  | tail _ hgo ih =>
    obtain ⟨y, hy, hshadow⟩ := ih
    cases hgo with
    | step hstep =>
      rcases follows_step hhandlers hshadow hstep with hstill | ⟨z, hz, hnext⟩
      · exact ⟨y, hy, hstill⟩
      · exact ⟨z, hy.tail (.step hz), hnext⟩
    | tick hstep houtcome htick =>
      obtain ⟨z, hz, hnext⟩ := rel_some_left hshadow.tick htick
      have hgo := Goes.tick (step_none hhandlers hshadow hstep) ((hshadow.outcome_eq chain).trans houtcome) hz
      exact ⟨z, hy.tail hgo, hnext⟩

/-- Where every publish comes to an end, the shadow leads as well. -/
theorem leads_stepping {y : Stage} (h : Shadow w u) (hends : ∀ x, Stepping react w x → Drains react x)
    (hsteps : Stepping react u y) : ∃ v, Stepping react w v ∧ Shadow v y ∧ v.nextEvent? = none := by
  induction hsteps with
  | refl => exact settles hhandlers h (hends w .refl)
  | tail _ hstep ih =>
    obtain ⟨x, hx, hshadow, hempty⟩ := ih
    obtain ⟨x', hx', hnext⟩ := leads_step hhandlers hshadow hempty hstep
    obtain ⟨v, hv, hlast⟩ := settles hhandlers hnext (hends x' (hx.tail hx'))
    exact ⟨v, (hx.tail hx').trans hv, hlast⟩

/-- The same for all that happens while the host waits: before each step of the shadow, what is queued is delivered. -/
theorem leads_arrives {y : Stage} (h : Shadow w u) (hends : ∀ x, Arrives react chain w x → Drains react x)
    (harrives : Arrives react chain u y) : ∃ v, Arrives react chain w v ∧ Shadow v y ∧ v.nextEvent? = none := by
  -- what is queued is delivered, so that the next step is one of both
  have hsettle : ∀ {x z : Stage}, Arrives react chain w x → Shadow x z →
      ∃ v, Arrives react chain w v ∧ Shadow v z ∧ v.nextEvent? = none := by
    intro x z hx hshadow
    obtain ⟨v, hv, hlast⟩ := settles hhandlers hshadow (hends x hx)
    exact ⟨v, hx.trans (hv.arrives chain), hlast⟩
  induction harrives with
  | refl => exact hsettle .refl h
  | tail _ hgo ih =>
    obtain ⟨x, hx, hshadow, hempty⟩ := ih
    cases hgo with
    | step hstep =>
      obtain ⟨x', hx', hnext⟩ := leads_step hhandlers hshadow hempty hstep
      exact hsettle (hx.tail (.step hx')) hnext
    | tick hstep houtcome htick =>
      obtain ⟨x', hx', hnext⟩ := rel_some_right hshadow.tick htick
      have hgo := Goes.tick (step_none_of hhandlers hshadow hempty hstep)
        ((hshadow.outcome_eq chain).symm.trans houtcome) hx'
      exact hsettle (hx.tail hgo) hnext

end Runs

end Shadow

/-! ## The host -/

/-- What the host can tell of a stage: how its latest call ended, all calls to the listener so far, and the session as
    it can be looked at. -/
structure Glimpse where
  failure : Option Failure
  calls : List Call
  view : View

/-- `w.glimpse failure` — the glimpse of a stage. -/
def glimpse (w : Stage) (failure : Option Failure) : Glimpse := ⟨failure, w.calls, w.view⟩

namespace Shadow

variable {failure : Option Failure} {fuel : Nat} {call : HostCall} {calls : List HostCall}

/-- A host cannot tell a stage from its shadow. -/
theorem glimpse_eq (h : Shadow w u) (failure : Option Failure) : u.glimpse failure = w.glimpse failure := by
  show Glimpse.mk failure u.calls u.view = Glimpse.mk failure w.calls w.view
  rw [h.calls_eq, h.view_eq]

section Calls

variable (hhandlers : HandlersLeaveSession react)

include hhandlers

theorem rests (h : Shadow w u) (hw : w.rest react fuel = some v) : ∃ n y, u.rest react n = some y ∧ Shadow v y := by
  obtain ⟨hsteps, hstep⟩ := rest_iff.mp ⟨fuel, hw⟩
  obtain ⟨y, hy, hshadow⟩ := follows_stepping hhandlers h hsteps
  obtain ⟨n, hn⟩ := rest_iff.mpr ⟨hy, step_none hhandlers hshadow hstep⟩
  exact ⟨n, y, hn, hshadow⟩

/-- A stage comes to rest where its shadow does. -/
theorem rests_of {y : Stage} (h : Shadow w u) (hends : ∀ x, Stepping react w x → Drains react x)
    (hu : u.rest react fuel = some y) : ∃ n v, w.rest react n = some v ∧ Shadow v y := by
  obtain ⟨hsteps, hstep⟩ := rest_iff.mp ⟨fuel, hu⟩
  obtain ⟨v, hv, hshadow, hempty⟩ := leads_stepping hhandlers h hends hsteps
  obtain ⟨n, hn⟩ := rest_iff.mpr ⟨hv, step_none_of hhandlers hshadow hempty hstep⟩
  exact ⟨n, v, hn, hshadow⟩

/-- A chain of the host's own that is awaited. -/
theorem runs {frames : List Frame} (h : Shadow w u) (hw : w.run react fuel frames = some (v, failure)) :
    ∃ n y, u.run react n frames = some (y, failure) ∧ Shadow v y := by
  obtain ⟨harrives, hstep, houtcome⟩ := await_iff.mp ⟨fuel, hw⟩
  obtain ⟨y, hy, hshadow⟩ := follows_arrives hhandlers (h.spawn frames none) harrives
  rw [← h.chains_eq] at hy houtcome
  obtain ⟨n, hn⟩ := await_iff.mpr
    ⟨hy, step_none hhandlers hshadow hstep, (hshadow.outcome_eq u.chains.length).trans houtcome⟩
  exact ⟨n, y, hn, hshadow⟩

theorem runs_of {y : Stage} {frames : List Frame} (h : Shadow w u)
    (hends : ∀ x, Arrives react w.chains.length (w.spawn frames none) x → Drains react x)
    (hu : u.run react fuel frames = some (y, failure)) :
    ∃ n v, w.run react n frames = some (v, failure) ∧ Shadow v y := by
  obtain ⟨harrives, hstep, houtcome⟩ := await_iff.mp ⟨fuel, hu⟩
  rw [h.chains_eq] at harrives houtcome
  obtain ⟨v, hv, hshadow, hempty⟩ := leads_arrives hhandlers (h.spawn frames none) hends harrives
  obtain ⟨n, hn⟩ := await_iff.mpr
    ⟨hv, step_none_of hhandlers hshadow hempty hstep, (hshadow.outcome_eq w.chains.length).symm.trans houtcome⟩
  exact ⟨n, v, hn, hshadow⟩

/-- A call that returns returns on the shadow, and with the same result. -/
theorem returns (h : Shadow w u) (hw : call.run react fuel w = some (v, failure)) :
    ∃ n y, call.run react n u = some (y, failure) ∧ Shadow v y := by
  cases call with
  | advance | wait => exact runs hhandlers h hw
  | start context =>
    obtain ⟨x, hx, heq⟩ := Option.map_eq_some_iff.mp hw
    cases heq
    obtain ⟨n, y, hn, hshadow⟩ := rests hhandlers ((h.touch context).spawn [.advance context] none) hx
    exact ⟨n, y, by rw [HostCall.run, Stage.start, hn]; rfl, hshadow⟩
  | perform act =>
    obtain ⟨x, hx, heq⟩ := Option.map_eq_some_iff.mp hw
    cases heq
    obtain ⟨hact, hfailure⟩ := carryOut hhandlers h act
    obtain ⟨n, y, hn, hshadow⟩ := rests hhandlers hact hx
    refine ⟨n, y, ?_, hshadow⟩
    simp only [HostCall.run, doAct, hn, hfailure, Option.map_some]
    rfl
  | setup text source =>
    obtain ⟨w', u', result, hw', hu', hsetup⟩ := h.setup text source
    simp only [HostCall.run, setupFrom, hw', hu'] at hw ⊢
    cases result with
    -- a text that cannot be read: the call returns at once, without a publish
    | error e =>
      cases hw
      exact ⟨0, u', rfl, hsetup⟩
    | ok event =>
      obtain ⟨x, hx, heq⟩ := Option.map_eq_some_iff.mp hw
      cases heq
      obtain ⟨n, y, hn, hshadow⟩ := rests hhandlers (publish hhandlers hsetup event event) hx
      exact ⟨n, y, by simp only [emit, hn, Option.map_some], hshadow⟩
  | load script =>
    obtain ⟨x, hx, heq⟩ := Option.map_eq_some_iff.mp hw
    cases heq
    obtain ⟨n, y, hn, hshadow⟩ :=
      rests hhandlers (publish hhandlers (h.load script) (w.load script).2 (u.load script).2) hx
    exact ⟨n, y, by simp only [HostCall.run, loadScript, emit, hn, Option.map_some], hshadow⟩

/-- Where every publish comes to an end (`Drains`), a call that returns on the shadow returns. -/
theorem returns_of {y : Stage} (h : Shadow w u) (hends : ∀ x, call.Passes react w x → Drains react x)
    (hu : call.run react fuel u = some (y, failure)) : ∃ n v, call.run react n w = some (v, failure) ∧ Shadow v y := by
  cases call with
  | advance | wait => exact runs_of hhandlers h hends hu
  | start context =>
    obtain ⟨x, hx, heq⟩ := Option.map_eq_some_iff.mp hu
    cases heq
    obtain ⟨n, v, hn, hshadow⟩ := rests_of hhandlers ((h.touch context).spawn [.advance context] none) hends hx
    exact ⟨n, v, by rw [HostCall.run, Stage.start, hn]; rfl, hshadow⟩
  | perform act =>
    obtain ⟨x, hx, heq⟩ := Option.map_eq_some_iff.mp hu
    cases heq
    obtain ⟨hact, hfailure⟩ := carryOut hhandlers h act
    obtain ⟨n, v, hn, hshadow⟩ := rests_of hhandlers hact hends hx
    refine ⟨n, v, ?_, hshadow⟩
    simp only [HostCall.run, doAct, hn, ← hfailure, Option.map_some]
    rfl
  | setup text source =>
    obtain ⟨w', u', result, hw', hu', hsetup⟩ := h.setup text source
    simp only [HostCall.run, setupFrom, hw', hu'] at hu ⊢
    -- the stages that the call passes through are those after the text has been read
    simp only [HostCall.Passes, hw'] at hends
    cases result with
    | error e =>
      cases hu
      exact ⟨0, w', rfl, hsetup⟩
    | ok event =>
      obtain ⟨x, hx, heq⟩ := Option.map_eq_some_iff.mp hu
      cases heq
      obtain ⟨n, v, hn, hshadow⟩ := rests_of hhandlers (publish hhandlers hsetup event event) hends hx
      exact ⟨n, v, by simp only [emit, hn, Option.map_some], hshadow⟩
  | load script =>
    obtain ⟨x, hx, heq⟩ := Option.map_eq_some_iff.mp hu
    cases heq
    obtain ⟨n, v, hn, hshadow⟩ :=
      rests_of hhandlers (publish hhandlers (h.load script) (w.load script).2 (u.load script).2) hends hx
    exact ⟨n, v, by simp only [HostCall.run, loadScript, emit, hn, Option.map_some], hshadow⟩

/-- Whatever comes up during a call comes up on the shadow too. -/
theorem passes {x : Stage} (h : Shadow w u) (hx : call.Passes react w x) :
    ∃ y, call.Passes react u y ∧ Shadow x y := by
  cases call with
  | advance | wait =>
    obtain ⟨y, hy, hshadow⟩ := follows_arrives hhandlers (h.spawn _ none) hx
    rw [← h.chains_eq] at hy
    exact ⟨y, hy, hshadow⟩
  | start context => exact follows_stepping hhandlers ((h.touch context).spawn [.advance context] none) hx
  | perform act => exact follows_stepping hhandlers (carryOut hhandlers h act).1 hx
  | setup text source =>
    obtain ⟨w', u', result, hw', hu', hsetup⟩ := h.setup text source
    simp only [HostCall.Passes, hw', hu'] at hx ⊢
    cases result with
    | error e => exact hx.elim
    | ok event => exact follows_stepping hhandlers (publish hhandlers hsetup event event) hx
  | load script =>
    exact follows_stepping hhandlers (publish hhandlers (h.load script) (w.load script).2 (u.load script).2) hx

/-- Where every publish comes to an end, whatever comes up on the shadow comes up. -/
theorem passes_of {y : Stage} (h : Shadow w u) (hends : ∀ x, call.Passes react w x → Drains react x)
    (hy : call.Passes react u y) : ∃ x, call.Passes react w x ∧ Shadow x y := by
  have hsteps : ∀ {w' u'}, Shadow w' u' → (∀ x, Stepping react w' x → Drains react x) → Stepping react u' y →
      ∃ x, Stepping react w' x ∧ Shadow x y := by
    intro w' u' hshadow hends hy
    obtain ⟨x, hx, hlast, -⟩ := leads_stepping hhandlers hshadow hends hy
    exact ⟨x, hx, hlast⟩
  -- calls differ in what they begin with; from there on `hsteps` does it
  cases call with
  | advance | wait =>
    rw [HostCall.Passes, h.chains_eq] at hy
    obtain ⟨x, hx, hshadow, -⟩ := leads_arrives hhandlers (h.spawn _ none) hends hy
    exact ⟨x, hx, hshadow⟩
  | start context => exact hsteps ((h.touch context).spawn [.advance context] none) hends hy
  | perform act => exact hsteps (carryOut hhandlers h act).1 hends hy
  | setup text source =>
    obtain ⟨w', u', result, hw', hu', hsetup⟩ := h.setup text source
    simp only [HostCall.Passes, hw', hu'] at hy hends ⊢
    cases result with
    | error e => exact hy.elim
    | ok event => exact hsteps (publish hhandlers hsetup event event) hends hy
  | load script => exact hsteps (publish hhandlers (h.load script) (w.load script).2 (u.load script).2) hends hy

end Calls

end Shadow

/-! ## Observers do not disturb -/

/-- A stage without a bus, and the same stage with a bus and any handlers on it that only observe
    (`HandlersLeaveSession`), take the same calls of a host.  Where every publish comes to an end (`Drains`) on the
    run with the handlers, the two runs show the same: the same calls return, with the same glimpses after each,
    and whatever shows at some moment of a call shows on the other stage too, also of an advance that never
    returns. -/
theorem observers_do_not_disturb (hhandlers : HandlersLeaveSession react) {w : Stage} (hbus : w.bus = none)
    (b : Bus Notice)
    (calls : List HostCall) (hends : Throughout react (fun _ x => Drains react x) { w with bus := some b } calls)
    (glimpses : List Glimpse) (last : Glimpse) :
    (∃ v, (hosted react glimpse).Runs { w with bus := some b } calls glimpses v ∧ v.glimpse none = last) ↔
      ∃ u, (hosted react glimpse).Runs w calls glimpses u ∧ u.glimpse none = last := by
  have h : Shadow { w with bus := some b } w := ⟨rfl, hbus⟩
  constructor
  · -- what the stage with the handlers does, its shadow does: nothing has to be assumed
    rintro ⟨v, hv, rfl⟩
    obtain ⟨u, hu, hshadow⟩ := hv.simulates (K := hosted react glimpse) (R := fun _ x y => Shadow x y) (Q := Shadow) id
      (fun hxy hpasses => Shadow.passes hhandlers hxy hpasses)
      (fun hxy => by
        rintro ⟨fuel, failure, hrun, rfl⟩
        obtain ⟨n, y, hn, hshadow⟩ := Shadow.returns hhandlers hxy hrun
        exact ⟨y, ⟨n, failure, hn, hshadow.glimpse_eq failure⟩, hshadow⟩) h
    exact ⟨u, hu, hshadow.glimpse_eq none⟩
  · -- the other way round deliveries come in between, and have to come to an end (`hends`)
    rintro ⟨u, hu, rfl⟩
    obtain ⟨v, hv, hshadow⟩ := hu.simulates (K := hosted react glimpse)
      (R := fun calls y x => Shadow x y ∧ Throughout react (fun _ z => Drains react z) x calls)
      (Q := fun y x => Shadow x y) And.left
      (fun hyx hpasses => Shadow.passes_of hhandlers hyx.1 hyx.2.1 hpasses)
      (fun hyx => by
        rintro ⟨fuel, failure, hrun, rfl⟩
        obtain ⟨n, x, hn, hshadow⟩ := Shadow.returns_of hhandlers hyx.1 hyx.2.1 hrun
        exact ⟨x, ⟨n, failure, hn, (hshadow.glimpse_eq failure).symm⟩, hshadow, hyx.2.2 n x failure hn⟩) ⟨h, hends⟩
    exact ⟨v, hv, (hshadow.glimpse_eq none).symm⟩

/-! ## A scene with hecklers -/

/-- The listener answers the first choice itself.  One handler fails whenever it is called; the other one takes it off
    the bus when a variable has been set, puts it on again for the end, and clears the topic that it is called for. -/
def hecklers : Reactions
  | .choice "v", _ => [.setVariable "v" "left"]
  | .heard 0 _, _ => [.fail "boo", .note "never"]
  | .heard 1 topic, _ => [.unsubscribe .beatStarted 0, .subscribe .chatEnded ⟨0, false⟩, .clear topic, .view]
  | _, _ => []

theorem hecklers_leaveSession : HandlersLeaveSession hecklers := by
  intro handler topic n act hact
  match handler with
  | 0 | 1 =>
    simp only [hecklers, List.mem_cons, List.not_mem_nil, or_false] at hact
    rcases hact with rfl | rfl | rfl | rfl <;> rfl
  | k + 2 => cases hact

theorem hecklers_publishNothing : HandlersPublishNothing hecklers := by
  intro handler topic n act hact event
  match handler with
  | 0 | 1 =>
    simp only [hecklers, List.mem_cons, List.not_mem_nil, or_false] at hact
    rcases hact with rfl | rfl | rfl | rfl <;> simp
  | k + 2 => cases hact

/-- The bus that they are on. -/
def heckled : Bus Notice where
  table := [(.beatStarted, [⟨0, false⟩, ⟨0, false⟩]), (.variableSet, [⟨1, false⟩, ⟨0, false⟩])]

/-- Two choices, and a text that the answer to the first one passes by. -/
def heckledText : String :=
  "@choice, v, left, right\n@if, v, left, done\n@text, passed by\n@label, done\n@choice, w, a, b"

/-- The host answers the second choice. -/
def heckledCalls : List HostCall :=
  [.setup heckledText "scene", .advance .own, .advance .own, .perform (.setVariable "w" "b"), .advance .own]

/-- Without the hecklers both answers are there in the end, and the listener has been called three times. -/
theorem unheckled_glimpse :
    (({} : Stage).runCalls hecklers glimpse 50 heckledCalls).map
      (fun r => r.1.getLast?.map fun g => (g.view.store, g.view.finished, g.calls.length)) =
    some (some ([("v", "left"), ("w", "b")], true, 3)) := by
  rfl

/-- Whatever the hecklers do, the host sees what it sees without them, and in the end both answers and the end. -/
theorem observers_do_not_disturb_hecklers :
    HandlersLeaveSession hecklers ∧
      Throughout hecklers (fun _ x => Drains hecklers x) { bus := some heckled } heckledCalls ∧
      ∃ glimpses, (∃ v, (hosted hecklers glimpse).Runs { bus := some heckled } heckledCalls glimpses v) ∧
        (∃ u, (hosted hecklers glimpse).Runs {} heckledCalls glimpses u) ∧
        (glimpses.getLast?.map fun g => (g.view.store, g.view.finished, g.calls.length)) =
          some ([("v", "left"), ("w", "b")], true, 3) := by
  have hends : Throughout hecklers (fun _ x => Drains hecklers x) { bus := some heckled } heckledCalls :=
    throughout_of_forall (fun _ x => hecklers_leaveSession.drains hecklers_publishNothing x) _ _
  have hsame := observers_do_not_disturb hecklers_leaveSession (w := {}) rfl heckled heckledCalls hends
  obtain ⟨⟨glimpses, u⟩, hrun, hlast⟩ := Option.map_eq_some_iff.mp unheckled_glimpse
  have hruns := (runs_of_runCalls hrun).of_waiting
  obtain ⟨v, hv, -⟩ := (hsame _ _).mpr ⟨u, hruns, rfl⟩
  exact ⟨hecklers_leaveSession, hends, glimpses, ⟨v, hv⟩, ⟨u, hruns⟩, hlast⟩

end Stage

end ChatScene

/-
  The events that tell of jumps.

  A jump that is taken is a deed in the journal and an event on the bus.  Whatever happens on a stage, the events that
  tell of jumps come in the order of the deeds, one for each; there are no others, unless a listener or a handler
  publishes events of the kind itself.

  1. **Strides** — `jumpEvents` are the events that go with the jumps of a journal.  A stride publishes just those of
     its own deeds (`Plays.jumpEvents_eq`).

  2. **On the bus** — `Heralded alone es b b'` says that the events `es` have been published between two states of a
     bus, and no others of the kind if `alone` holds.  A delivery brings no more than what its handlers publish
     (`Heralded.deliver`).

  3. **On a stage** — `Tells` is the same about stages, for acts, calls, deliveries and publishing.  An act `Act.forges`
     an event if it publishes one that tells of a jump.

  4. **Main result** (`Arrives.announces`) — along every run, the events are those of the deeds (`Announces`).

  The parameter `alone` is the assumption that nobody forges (`Unforged`).  Without it the events of the deeds are still
  there, among others; so both statements have one proof.
-/
import ChatScene.Proofs.EventOrder
import ChatScene.Proofs.Hearing

namespace ChatScene

/-! ## Deeds and events -/

/-- An event that tells of a jump. -/
def tellsOfJump (event : SessionEvent) : Bool := event.topic = .labelJumped

/-- The event that goes with a deed, if it is a jump. -/
def Deed.herald? : Deed → Option SessionEvent
  | .jump _ _ label position => some ⟨.labelJumped, .jump label position⟩
  | _ => none

/-- The events that go with the jumps of a journal, in the order of the jumps. -/
def jumpEvents (journal : List Deed) : List SessionEvent := journal.reverse.filterMap Deed.herald?

/-- The journal has the latest deeds first, and `jumpEvents` are in the order in which they happen. -/
theorem jumpEvents_append (later earlier : List Deed) :
    jumpEvents (later ++ earlier) = jumpEvents earlier ++ jumpEvents later := by
  rw [jumpEvents, List.reverse_append, List.filterMap_append]
  rfl

/-- No jump is taken on the side (`isAside`). -/
theorem jumpEvents_asides {asides : List Deed} (h : ∀ d ∈ asides, d.isAside = true) : jumpEvents asides = [] := by
  refine List.filterMap_eq_nil_iff.mpr fun d hd => ?_
  have haside := h d (List.mem_reverse.mp hd)
  cases d with
  | jump => cases haside
  | load | answer | collect | offer | finish | adjust | attach | pass => rfl

/-- A stride publishes an event of the kind just when it takes a jump. -/
theorem Round.jumpEvents_eq {beat : List Command} {script : Script} {number chain : Nat}
    {context : Context} {t : Stride} (h : Round beat script number chain context t) :
    jumpEvents t.deeds = [] ∧ t.event.toList.filter tellsOfJump = [] := by
  cases h <;> exact ⟨rfl, rfl⟩

/-- A stride publishes an event of the kind just when it takes a jump, and it is the event of
    this jump (`jumpEvents`). -/
theorem Plays.jumpEvents_eq {react : Reactions} {s : Session} {group : Option Nat} {number chain : Nat}
    {failure : Option Failure} {frame : Frame} {t : Stride} (h : Plays react s number group chain failure frame t) :
    jumpEvents t.deeds = t.event.toList.filter tellsOfJump := by
  cases h with
  | @enters context t _ hround =>
    have hpass : jumpEvents [.pass context .enter] = [] := rfl
    rw [jumpEvents_append, hpass, hround.jumpEvents_eq.1, hround.jumpEvents_eq.2]
    rfl
  | continues _ hround => rw [hround.jumpEvents_eq.1, hround.jumpEvents_eq.2]
  | idles | shows | offers | jumps | dwells | nests | announces | starts | stops | reports | deserted | leaves | fails
  | gives => rfl

/-! ## Events on a bus -/

/-- The events published on a bus that tell of jumps, in order. -/
def Bus.heralds (b : Bus Notice) : List SessionEvent := (b.trail.reverse.filterMap Mark.published?).filter tellsOfJump

/-- `Heralded alone events b b'` — these events that tell of jumps have been published, and no others if nobody else
    publishes any. -/
def Heralded (alone : Prop) (events : List SessionEvent) (b b' : Bus Notice) : Prop :=
  ∃ more, b'.heralds = b.heralds ++ more ∧ events.Sublist more ∧ (alone → more = events)

namespace Heralded

variable {alone : Prop} {es fs : List SessionEvent} {b b' b'' : Bus Notice}

theorem of_trail_eq (h : b'.trail = b.trail) : Heralded alone [] b b' :=
  ⟨[], by simp only [Bus.heralds, h, List.append_nil], .refl [], fun _ => rfl⟩

theorem trans (h : Heralded alone es b b') (h' : Heralded alone fs b' b'') : Heralded alone (es ++ fs) b b'' := by
  obtain ⟨more, hmore, hsub, heq⟩ := h
  obtain ⟨more', hmore', hsub', heq'⟩ := h'
  refine ⟨more ++ more', by rw [hmore', hmore, List.append_assoc], hsub.append hsub', fun halone => ?_⟩
  rw [heq halone, heq' halone]

theorem congr (h : Heralded alone es b b') (hes : es = fs) : Heralded alone fs b b' := hes ▸ h

/-- One mark more on the `trail`, with the event that it publishes if it does. -/
theorem marks {m : Mark Notice} (h : b'.trail = m :: b.trail) :
    Heralded alone (m.published?.toList.filter tellsOfJump) b b' := by
  refine ⟨_, ?_, .refl _, fun _ => rfl⟩
  simp only [Bus.heralds, h, List.reverse_cons, List.filterMap_append, List.filter_append]
  cases hm : m.published? <;> simp [hm]

theorem edited {m : Mark Notice} (h : b'.trail = m :: b.trail) (hm : m.published? = none) : Heralded alone [] b b' := by
  have hmarks : Heralded alone (m.published?.toList.filter tellsOfJump) b b' := marks h
  rwa [hm] at hmarks

/-- What those who are not alone publish is left out. -/
theorem forget (h : Heralded alone es b b') (hnone : alone → es = []) : Heralded alone [] b b' := by
  obtain ⟨more, hmore, -, heq⟩ := h
  exact ⟨more, hmore, List.nil_sublist more, fun halone => (heq halone).trans (hnone halone)⟩

variable {β : Type} {s : Bus.Surroundings Notice β} (hcall : ∀ handler event b rest,
  Heralded alone [] b (s.call handler event b rest).1)

include hcall

/-- The turn of one subscription: its handler publishes what it publishes. -/
theorem visit (event : SessionEvent) (d : Bus.Delivery Notice β) (e : Entry) :
    Heralded alone [] d.bus (d.visit s event e).bus := by
  unfold Bus.Delivery.visit
  split
  · have hbegins : Heralded alone [] d.bus (d.bus.mark (.begins e.handler event)) := edited rfl rfl
    have hcalled := hbegins.trans (hcall e.handler event (d.bus.mark (.begins e.handler event)) d.rest)
    have hends : ∀ bus : Bus Notice, Heralded alone [] bus (bus.mark (.ends e.handler event)) := fun _ =>
      edited rfl rfl
    generalize s.call e.handler event (d.bus.mark (.begins e.handler event)) d.rest = result at hcalled
    rcases result with ⟨bus, rest, ending⟩
    cases ending <;> exact hcalled.trans (hends bus)
  · exact of_trail_eq rfl

theorem visitAll (event : SessionEvent) (d : Bus.Delivery Notice β) (es : List Entry) :
    Heralded alone [] d.bus (d.visitAll s event es).bus := by
  induction es generalizing d with
  | nil => exact of_trail_eq rfl
  | cons e es ih =>
    have hvisit := visit hcall event d e
    simp only [Bus.Delivery.visitAll]
    split
    · exact hvisit
    · exact hvisit.trans (ih _)

/-- A delivery brings no more than what its handlers publish. -/
theorem deliver (event : SessionEvent) (b : Bus Notice) (rest : β) :
    Heralded alone [] b (Bus.deliver s event b rest).1 := by
  have hmark : Heralded alone [] b (b.mark (.dispatched event)) := edited rfl rfl
  simp only [Bus.deliver]
  split
  · exact hmark
  · have hopen : Heralded alone [] (b.mark (.dispatched event)) ((b.mark (.dispatched event)).openList event.topic) :=
      of_trail_eq rfl
    have hturns := visitAll hcall event { bus := (b.mark (.dispatched event)).openList event.topic, rest }
      ((b.mark (.dispatched event)).entries event.topic)
    refine ((hmark.trans hopen).trans hturns).trans (of_trail_eq ?_)
    unfold Bus.Delivery.close
    split <;> rfl

end Heralded

/-! ## Events on a stage -/

/-- An act that publishes an event that tells of a jump. -/
def Act.forges : Act → Bool
  | .publish event => tellsOfJump event
  | _ => false

/-- `Unforged react w` — nobody but the session publishes events that tell of jumps. -/
def Unforged (react : Reactions) (w : Stage) : Prop :=
  (∀ cue n, ∀ act ∈ react cue n, act.forges = false) ∧ w.gear.Every (Frame.ActsAre (·.forges = false))

namespace Stage

variable {react : Reactions} {u v w : Stage} {alone : Prop} {es fs : List SessionEvent}

/-- `w.Tells alone events v` — these events that tell of jumps have been published, if there is a bus. -/
def Tells (alone : Prop) (events : List SessionEvent) (w v : Stage) : Prop :=
  ∀ b, w.bus = some b → ∃ b', v.bus = some b' ∧ Heralded alone events b b'

namespace Tells

theorem of_bus_eq (h : v.bus = w.bus) : Tells alone [] w v :=
  fun b hb => ⟨b, h.trans hb, .of_trail_eq rfl⟩

theorem trans (h : Tells alone es w v) (h' : Tells alone fs v u) : Tells alone (es ++ fs) w u := by
  intro b hb
  obtain ⟨b', hb', hheralded⟩ := h b hb
  obtain ⟨b'', hb'', hheralded'⟩ := h' b' hb'
  exact ⟨b'', hb'', hheralded.trans hheralded'⟩

theorem editBus (w : Stage) {edit : Bus Notice → Bus Notice} (h : ∀ b, Heralded alone es b (edit b)) :
    Tells alone es w (w.editBus edit) := by
  intro b hb
  exact ⟨edit b, by simp [Stage.editBus, hb], h b⟩

theorem forget (h : Tells alone es w v) (hnone : alone → es = []) : Tells alone [] w v := by
  intro b hb
  obtain ⟨b', hb', hheralded⟩ := h b hb
  exact ⟨b', hb', hheralded.forget hnone⟩

/-- An act itself publishes nothing; it gives rise to an event. -/
theorem perform (w : Stage) (act : Act) : Tells alone [] w (w.perform act).stage := by
  cases act with
  | subscribe topic entry => exact editBus w fun b => .edited (Bus.edited_subscribe b topic entry).trail_eq rfl
  | unsubscribe topic handler => exact editBus w fun b => .edited (Bus.edited_unsubscribe b topic handler).trail_eq rfl
  | clear topic => exact editBus w fun b => .edited (Bus.edited_clear b topic).trail_eq rfl
  | setup text =>
    obtain ⟨deeds, -, hsetup, -⟩ := unheard_setup w text unnamedSource
    simp only [Stage.perform]
    split <;> rename_i heq <;> rw [heq] at hsetup <;> exact of_bus_eq hsetup.bus_eq
  | loadCompiled document =>
    simp only [Stage.perform]
    split <;> exact of_bus_eq rfl
  | nextBeat => exact of_bus_eq (unheard_collect w none).bus_eq
  | assign name value =>
    simp only [Stage.perform]
    split <;> exact of_bus_eq rfl
  | sleep | advance | setVariable | view | note | fail | attach | publish => exact of_bus_eq rfl

/-- What an act gives rise to tells of a jump (`tellsOfJump`) only if the act says so. -/
theorem perform_event (w : Stage) {act : Act} (hact : act.forges = false) :
    (w.perform act).event.toList.filter tellsOfJump = [] := by
  cases act with
  | setup text =>
    simp only [Stage.perform, Stage.setup]
    cases Script.parse w.session.settings.commentMark unnamedSource text <;> rfl
  | loadCompiled document =>
    simp only [Stage.perform]
    split <;> rfl
  | assign name value =>
    simp only [Stage.perform]
    split <;> rfl
  | publish event =>
    have hevent : tellsOfJump event = false := hact
    simp [Stage.perform, hevent]
  | sleep | advance | setVariable | nextBeat | view | note | fail | attach | subscribe | unsubscribe | clear => rfl

/-- The acts of a reaction, each with its event on the queue. -/
theorem performAll {acts : List Act} (hacts : alone → ∀ act ∈ acts, act.forges = false) (w : Stage) :
    Tells alone [] w (Stage.performAll acts w).1 := by
  induction acts generalizing w with
  | nil => exact of_bus_eq rfl
  | cons act acts ih =>
    -- what a handler publishes goes to the queue; it tells of no jump unless it is forged
    have hqueued : Tells alone [] w ((w.perform act).event.elim (w.perform act).stage fun e =>
        (w.perform act).stage.editBus (·.enqueue e)) := by
      cases hevent : (w.perform act).event with
      | none => exact perform w act
      | some event =>
        have henqueue : Tells alone ([event].filter tellsOfJump) (w.perform act).stage
            ((w.perform act).stage.editBus (·.enqueue event)) := editBus _ fun b => .marks (m := .published event) rfl
        refine (perform w act).trans (henqueue.forget fun halone => ?_)
        have hnone := perform_event w (hacts halone act List.mem_cons_self)
        rwa [hevent] at hnone
    simp only [Stage.performAll]
    split
    · exact hqueued
    · exact hqueued.trans (ih (fun halone a ha => hacts halone a (List.mem_cons_of_mem act ha)) _)

section Publishing

variable (hreact : alone → ∀ cue n, ∀ act ∈ react cue n, act.forges = false)

include hreact

/-- A call of a handler that is made of acts. -/
theorem callHandler (handler : Nat) (event : SessionEvent) (b : Bus Notice) (w : Stage) :
    Heralded alone [] b (Stage.callHandler react handler event b w).1 := by
  let cue := Cue.heard handler event.topic
  let v := ({ w with bus := some b }.see (.heard handler event)).countCue cue
  obtain ⟨b', hb', hheralded⟩ :=
    performAll (fun halone => hreact halone cue (w.timesFired cue)) v b rfl
  have hcall : (Stage.callHandler react handler event b w).1 =
      (Stage.performAll (react cue (w.timesFired cue)) v).1.bus.getD b := rfl
  rw [hcall, hb']
  exact hheralded

theorem deliver (w : Stage) (event : SessionEvent) : Tells alone [] w (w.deliver react event) := by
  intro b hb
  have hdeliver := Heralded.deliver (s := audience react) (callHandler hreact) event b w
  exact ⟨_, by simp only [Stage.deliver, hb], hdeliver⟩

/-- What is published is what tells of a jump (`tellsOfJump`), if it does. -/
theorem publish (w : Stage) (event : SessionEvent) :
    Tells alone ([event].filter tellsOfJump) w (w.publish react event) := by
  intro b hb
  have hmarks : ∀ {b' : Bus Notice}, b'.trail = .published event :: b.trail →
      Heralded alone ([event].filter tellsOfJump) b b' := fun h => .marks (m := .published event) h
  simp only [Stage.publish, hb]
  split
  · exact ⟨b.enqueue event, rfl, hmarks rfl⟩
  · obtain ⟨b', hb', hheralded⟩ :=
      deliver hreact { w with bus := some (b.settle.mark (.published event)) } event _ rfl
    have hpublished : Heralded alone ([event].filter tellsOfJump) b (b.settle.mark (.published event)) := hmarks rfl
    exact ⟨b', hb', (hpublished.trans hheralded).congr (List.append_nil _)⟩

theorem publish? (w : Stage) (event : Option SessionEvent) :
    Tells alone (event.toList.filter tellsOfJump) w (w.publish? react event) := by
  cases event with
  | none => exact of_bus_eq rfl
  | some event => exact publish hreact w event

theorem carryOut (w : Stage) {act : Act} (hact : alone → act.forges = false) :
    Tells alone [] w (w.carryOut react act).1 :=
  (perform w act).trans ((publish? hreact _ _).forget fun halone => perform_event w (hact halone))

end Publishing

end Tells

/-! ## Steps and runs -/

/-- `w.Announces alone v` — the deeds since then, with the events that go with them. -/
def Announces (alone : Prop) (w v : Stage) : Prop :=
  ∃ deeds, v.journal = deeds ++ w.journal ∧ Tells alone (jumpEvents deeds) w v

theorem Announces.trans (h : Announces alone w v) (h' : Announces alone v u) : Announces alone w u := by
  obtain ⟨ds, hds, htells⟩ := h
  obtain ⟨es, hes, htells'⟩ := h'
  exact ⟨es ++ ds, by rw [hes, hds, List.append_assoc], (jumpEvents_append es ds) ▸ htells.trans htells'⟩

theorem Announces.of_same (hjournal : v.journal = w.journal) (hbus : v.bus = w.bus) : Announces alone w v :=
  ⟨[], hjournal, .of_bus_eq hbus⟩

/-- What is done on the side (`Aside`) tells of no jump. -/
theorem Announces.aside (h : Aside w v) (htells : Tells alone [] w v) : Announces alone w v := by
  obtain ⟨asides, hasides, hrecords⟩ := h.records
  exact ⟨asides, hrecords.journal_eq, (jumpEvents_asides hasides).symm ▸ htells⟩

/-- A step, by its cases.  Only strides take jumps. -/
theorem Stepped.announces (hunforged : alone → Unforged react w) (h : Stepped react w v) : Announces alone w v := by
  have hreact : alone → ∀ cue n, ∀ act ∈ react cue n, act.forges = false := fun halone => (hunforged halone).1
  cases h with
  | @delivers b event queue hbus hqueue =>
    have hqueued : Tells alone [] w { w with bus := some { b with queue } } := by
      intro b' hb'
      rw [hbus] at hb'
      cases hb'
      exact ⟨_, rfl, .of_trail_eq rfl⟩
    have haside : Aside w { w with bus := some { b with queue } } := .of_same rfl rfl rfl rfl rfl
    exact .aside (haside.trans (.deliver react _ event)) (hqueued.trans (.deliver hreact _ event))
  | @strides _ u chain failure frame rest t hactive hframes hplays hstrides =>
    obtain ⟨asides, hasides, hrecords⟩ := hstrides.records
    refine ⟨asides ++ t.deeds, hrecords.journal_eq, ?_⟩
    rw [jumpEvents_append, jumpEvents_asides hasides, List.append_nil, hplays.jumpEvents_eq]
    have hpublished := (Tells.of_bus_eq hstrides.unheard.bus_eq).trans (.publish? hreact u t.event)
    rw [hstrides.result_eq]
    exact hpublished
  -- an act of a reaction was asked for by the listener, so it does not forge
  | @acts w' chain act acts rest failure hactive hframes hact =>
    obtain ⟨c, hc, hc'⟩ := framesOf_eq_some hframes
    have hforges : alone → act.forges = false := fun halone =>
      (hunforged halone).2 c (List.mem_of_getElem? hc) (.acts (act :: acts)) (hc' ▸ List.mem_cons_self) act
        List.mem_cons_self
    have hcarry := Tells.carryOut hreact ({ w with active := none }.setFrames chain (.acts acts :: rest)) hforges
    have haside := Aside.carryOut react ({ w with active := none }.setFrames chain (.acts acts :: rest)) act
    rw [hact] at hcarry haside
    obtain ⟨asides, hasides, hrecords⟩ := haside.records
    exact ⟨asides, hrecords.journal_eq, (jumpEvents_asides hasides).symm ▸ hcarry⟩
  | ends hactive hframes =>
    simp only [finish]
    split <;> exact .of_same rfl rfl
  | strays | resumes | fires => exact .of_same rfl rfl
  | @counts number failure ready hactive hready =>
    simp only [memberOver]
    split
    · exact .of_same rfl rfl
    · split <;> exact .of_same rfl rfl

theorem Goes.announces {k : Nat} (hunforged : alone → Unforged react w) (h : Goes react k w v) :
    Announces alone w v := by
  cases h with
  | step hstep => exact (step_cases hstep).announces hunforged
  | tick _ _ htick =>
    obtain ⟨t, timers, -, -, rfl⟩ := tick_eq_some htick
    exact .of_same rfl rfl

/-- Those who do not forge have left no acts that do. -/
theorem Goes.unforged {k : Nat} (hunforged : Unforged react w) (h : Goes react k w v) : Unforged react v := by
  have hlasting : Lasting react (Frame.ActsAre (·.forges = false)) := lasting_actsAre fun cue n _ => hunforged.1 cue n
  refine ⟨hunforged.1, ?_⟩
  cases h with
  | step hstep => exact (Makes.step hstep).change.every hlasting hunforged.2
  | tick _ _ htick =>
    have hmakes : Makes react w .tick v := .tick htick
    exact hmakes.change.every hlasting hunforged.2

theorem Arrives.unforged {k : Nat} (hunforged : Unforged react w) (h : Arrives react k w v) : Unforged react v := by
  induction h with
  | refl => exact hunforged
  | tail _ hgo ih => exact Goes.unforged ih hgo

/-- Along a run there is one event for each jump (`Announces`), in the order of the jumps. -/
theorem Arrives.announces {k : Nat} (hunforged : alone → Unforged react w) (h : Arrives react k w v) :
    Announces alone w v := by
  induction h with
  | refl => exact .of_same rfl rfl
  | tail hbefore hgo ih =>
    exact ih.trans (Goes.announces (fun halone => Arrives.unforged (hunforged halone) hbefore) hgo)

end Stage

end ChatScene

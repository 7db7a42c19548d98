/-
  Faithful stages: the session is what its journal says, and the journal is honest.

  The invariant is `Stage.Faithful`.  The session is the replay of the journal, the journal is `Honest`, beats have
  numbers of groups that exist, and what a chain still has to do fits the journal (`FramesFit`): a command that waits
  for its turn has been collected under the number of its group, and it has fields.

  1. **What functions leave** — equations for the functions of a stage that touch only a part of it (`pass_eq`,
     `collect_eq_mk`, `tick_eq_some`), used by all later files.

  2. **Deeds** — a deed that fits keeps a stage faithful (`Faithful.record`), and so does whatever touches neither
     session nor journal nor chains (`Faithful.congr`).

  3. **Acts and deliveries** — `Faithful.perform` for single acts.  A delivery calls handlers in turn; what every call
     keeps the delivery keeps, and this is proved once and for all for any property of queue and surroundings
     (`Bus.deliver_keeps`).

  4. **Chains** — every kind of frame: commands (`Faithful.runCommand`), rounds of an advance (`Faithful.nextRound`) and
     all others, up to `Faithful.runChain`.

  5. **Steps** — `Faithful.step` and `Faithful.tick`: whatever a stage does next keeps it faithful.

  The session changes by recorded deeds only, so most functions have nothing to prove.
-/
import ChatScene.Proofs.Journal
import ChatScene.Session.Host

namespace ChatScene

/-! ## The gear of a stage -/

/-- What decides how a stage goes on: its chains and what they wait for. -/
structure Gear where
  chains : List Chain
  groups : List Group
  timers : List Timer
  ready : List Wake
  active : Option (Nat × Option Failure)

/-- The gear of a stage. -/
def Stage.gear (w : Stage) : Gear := ⟨w.chains, w.groups, w.timers, w.ready, w.active⟩

namespace Stage

/-- Log lines are put to what has been seen, and change nothing else. -/
theorem logAll_eq (w : Stage) (lines : List LogLine) :
    w.logAll lines = { w with seen := (lines.map Moment.log).reverse ++ w.seen } := by
  unfold Stage.logAll
  induction lines generalizing w with
  | nil => rfl
  | cons line lines ih =>
    rw [List.foldl_cons, ih]
    simp [Stage.see]

theorem editNamed_eq (w : Stage) (name : String) (edit : Nat → Nat) :
    ∃ contexts, w.editNamed name edit = { w with contexts } := by
  unfold Stage.editNamed
  split <;> exact ⟨_, rfl⟩

/-- A `context` that is looked at for the first time gets a depth; nothing else changes. -/
theorem touch_eq (w : Stage) (context : Context) : ∃ contexts, w.touch context = { w with contexts } := by
  cases context with
  | own => exact ⟨w.contexts, rfl⟩
  | named name => exact editNamed_eq w name id

/-- A passage is a deed (`.pass`), and changes nothing else but the depths of the named contexts. -/
theorem pass_eq (w : Stage) (context : Context) (passage : Passage) :
    ∃ contexts, w.pass context passage = { w.record (.pass context passage) with contexts } := by
  cases context with
  | own => exact ⟨w.contexts, rfl⟩
  | named name => exact editNamed_eq _ name passage.edit

/-- The session after a passage, as `pass_eq` says. -/
@[simp] theorem session_pass (w : Stage) (context : Context) (passage : Passage) :
    (w.pass context passage).session = w.session.after (.pass context passage) := by
  obtain ⟨contexts, heq⟩ := w.pass_eq context passage
  rw [heq]
  rfl

@[simp] theorem journal_pass (w : Stage) (context : Context) (passage : Passage) :
    (w.pass context passage).journal = .pass context passage :: w.journal := by
  obtain ⟨contexts, heq⟩ := w.pass_eq context passage
  rw [heq]
  rfl

@[simp] theorem gear_pass (w : Stage) (context : Context) (passage : Passage) :
    (w.pass context passage).gear = w.gear := by
  obtain ⟨contexts, heq⟩ := w.pass_eq context passage
  rw [heq]
  rfl

/-- Collecting records the `beat` at the cursor, leaves the chains alone, and returns the beat. -/
theorem collect_eq_mk {w w' : Stage} {number : Option Nat} {beat : List Command} (h : w.collect number = (w', beat)) :
    beat = w.session.nextBeat ∧ w'.session = w.session.after (.collect number w.session.nextBeat) ∧
      w'.journal = .collect number w.session.nextBeat :: w.journal ∧ w'.gear = w.gear := by
  simp only [Stage.collect, logAll_eq] at h
  cases h
  exact ⟨rfl, rfl, rfl, rfl⟩

/-- Where the earliest timer is not due at infinity, time passes up to it, and all timers of that time fire. -/
theorem tick_eq_fireTimers {w : Stage} {t : Timer} {timers : List Timer} (htimers : w.timers = t :: timers)
    (hdue : t.due.isInf = false) :
    w.tick =
      some (({ w with now := t.due, timers, ready := w.ready ++ [.resume t.chain none] } : Stage).fireTimers t.due) := by
  simp [Stage.tick, htimers, hdue]

/-- Time passes up to the earliest timer, which is not due at infinity and fires.  The other direction is
    `tick_eq_fireTimers`. -/
theorem tick_eq_some {w v : Stage} (h : w.tick = some v) :
    ∃ t timers, w.timers = t :: timers ∧ t.due.isInf = false ∧
      v = ({ w with now := t.due, timers, ready := w.ready ++ [.resume t.chain none] } : Stage).fireTimers t.due := by
  unfold Stage.tick at h
  split at h
  · cases h
  · rename_i t timers htimers
    split at h
    · cases h
    · rename_i hfinite
      exact ⟨t, timers, htimers, Bool.not_eq_true _ ▸ hfinite, (Option.some.inj h).symm⟩

theorem chains_eq_of_gear {w w' : Stage} (h : w'.gear = w.gear) : w'.chains = w.chains := congrArg Gear.chains h

theorem groups_eq_of_gear {w w' : Stage} (h : w'.gear = w.gear) : w'.groups = w.groups := congrArg Gear.groups h

/-- The group of a chain is part of the gear. -/
theorem groupOf_eq_of_gear {w w' : Stage} (h : w'.gear = w.gear) (chain : Nat) :
    w'.groupOf chain = w.groupOf chain := by
  rw [groupOf, groupOf, chains_eq_of_gear h]

end Stage

/-! ## Frames that fit a journal -/

/-- A frame of a chain of the given group that may stand on a stage with this journal. -/
def Frame.Fits (journal : List Deed) (group : Option Nat) : Frame → Prop
  | .command c => c.body ≠ .bare ∧ Collected journal group c
  | .start _ number cs => Deed.collect (some number) cs ∈ journal
  | _ => True

theorem Frame.Fits.mono {js ks : List Deed} {group : Option Nat} {f : Frame} (hsub : js ⊆ ks)
    (h : f.Fits js group) : f.Fits ks group := by
  cases f with
  | command c => exact ⟨h.1, h.2.mono hsub⟩
  | start context number cs => exact hsub h
  | acts | settle | announce | advance | beat | reportEnd | leave | sleep => trivial

/-- `FramesFit journal group frames` — frames that all fit. -/
def FramesFit (journal : List Deed) (group : Option Nat) (frames : List Frame) : Prop :=
  ∀ f ∈ frames, f.Fits journal group

/-- Frames are put on top of frames that fit. -/
theorem FramesFit.cons {js : List Deed} {group : Option Nat} {f : Frame} {fs : List Frame}
    (hf : f.Fits js group) (hfs : FramesFit js group fs) : FramesFit js group (f :: fs) := by
  intro g hg
  rcases List.mem_cons.mp hg with rfl | hg
  · exact hf
  · exact hfs g hg

theorem FramesFit.mono {js ks : List Deed} {group : Option Nat} {fs : List Frame} (hsub : js ⊆ ks)
    (h : FramesFit js group fs) : FramesFit ks group fs := fun f hf => (h f hf).mono hsub

/-! ## The invariant -/

/-- `w.Faithful s₀` — a stage whose session follows from an honest journal, and whose chains fit the journal. -/
structure Stage.Faithful (s₀ : Session) (w : Stage) : Prop where
  start : s₀.InRange
  session_eq : w.session = s₀.replay w.journal
  honest : Honest s₀ w.journal
  numbered : ∀ n beat, Deed.collect (some n) beat ∈ w.journal → n < w.groups.length
  frames : ∀ (i : Nat) chain, w.chains[i]? = some chain → FramesFit w.journal chain.group chain.frames

namespace Stage

variable {s₀ : Session} {w w' : Stage}

/-- Only session, journal, groups and chains matter; groups may be added. -/
theorem Faithful.congr (h : w.Faithful s₀) (hs : w'.session = w.session) (hj : w'.journal = w.journal)
    (hg : w.groups.length ≤ w'.groups.length) (hc : w'.chains = w.chains) : w'.Faithful s₀ where
  start := h.start
  session_eq := by rw [hs, hj]; exact h.session_eq
  honest := by rw [hj]; exact h.honest
  numbered n beat hbeat := Nat.lt_of_lt_of_le (h.numbered n beat (hj ▸ hbeat)) hg
  frames i chain hi := by rw [hj]; exact h.frames i chain (hc ▸ hi)

/-- A deed that fits (`Deed.Fits`) is recorded.  A beat has to have the number of a group. -/
theorem Faithful.record (h : w.Faithful s₀) {d : Deed} (hd : d.Fits w.journal w.session)
    (hn : ∀ n beat, d = .collect (some n) beat → n < w.groups.length) : (w.record d).Faithful s₀ where
  start := h.start
  session_eq := by simp only [Stage.record, Session.replay_cons, h.session_eq]
  honest := .cons h.honest (h.session_eq ▸ hd)
  numbered n beat hbeat := by
    rcases List.mem_cons.mp hbeat with heq | hbeat
    · exact hn n beat heq.symm
    · exact h.numbered n beat hbeat
  frames i chain hi := (h.frames i chain hi).mono (List.subset_cons_self d w.journal)

/-- The same for a deed that is no collecting of a beat, where there is nothing to say about numbers. -/
theorem Faithful.record_free (h : w.Faithful s₀) {d : Deed} (hd : d.Fits w.journal w.session)
    (hn : ∀ number beat, d ≠ .collect number beat) : (w.record d).Faithful s₀ :=
  h.record hd fun _ beat heq => absurd heq (hn _ beat)

/-! ## Chains -/

/-- Other frames do not put a chain into another group. -/
@[simp] theorem groupOf_setFrames (w : Stage) (chain other : Nat) (frames : List Frame) :
    (w.setFrames chain frames).groupOf other = w.groupOf other := by
  simp only [groupOf, setFrames, List.getElem?_modify]
  cases w.chains[other]? with
  | none => rfl
  | some c => by_cases hc : chain = other <;> simp [hc]

/-- One chain changed, but not its group, so that its frames fit; the other chains are as before. -/
theorem Faithful.modify (h : w.Faithful s₀) {chain : Nat} {f : Chain → Chain} (hgroup : ∀ c, (f c).group = c.group)
    (hf : ∀ c, w.chains[chain]? = some c → FramesFit w.journal c.group (f c).frames) :
    Faithful s₀ { w with chains := w.chains.modify chain f } where
  start := h.start
  session_eq := h.session_eq
  honest := h.honest
  numbered := h.numbered
  frames i c hi := by
    simp only [List.getElem?_modify, Option.map_eq_map, Option.map_eq_some_iff] at hi
    obtain ⟨old, hold, rfl⟩ := hi
    split
    · rename_i heq
      subst heq
      rw [hgroup]
      exact hf old hold
    · exact h.frames i old hold

/-- The frames of a chain replaced by others that fit. -/
theorem Faithful.setFrames (h : w.Faithful s₀) {chain : Nat} {frames : List Frame}
    (hf : FramesFit w.journal (w.groupOf chain) frames) : (w.setFrames chain frames).Faithful s₀ := by
  refine h.modify (fun _ => rfl) fun c hc => ?_
  have hgroup : w.groupOf chain = c.group := by simp [groupOf, hc]
  exact hgroup ▸ hf

/-- A new chain whose frames fit (`FramesFit`) goes to the end of the list, so that all others keep their numbers. -/
theorem Faithful.spawn (h : w.Faithful s₀) {frames : List Frame} {group : Option Nat}
    (hf : FramesFit w.journal group frames) : (w.spawn frames group).Faithful s₀ where
  start := h.start
  session_eq := h.session_eq
  honest := h.honest
  numbered := h.numbered
  frames i c hi := by
    simp only [Stage.spawn, List.getElem?_append] at hi
    split at hi
    · exact h.frames i c hi
    · rw [List.getElem?_singleton] at hi
      split at hi
      · cases hi
        exact hf
      · cases hi

/-- A chain that is over keeps its group and has no frames left that could fail to fit. -/
theorem Faithful.finish (h : w.Faithful s₀) (chain : Nat) (failure : Option Failure) :
    (w.finish chain failure).Faithful s₀ := by
  have hmod : Faithful s₀ { w with chains := w.chains.modify chain fun c => { c with outcome := some failure } } :=
    h.modify (fun _ => rfl) fun c hc => h.frames chain c hc
  simp only [Stage.finish]
  split
  · exact hmod.congr rfl rfl (Nat.le_refl _) rfl
  · exact hmod

/-- Counting in a group touches neither session nor chains. -/
theorem Faithful.memberOver (h : w.Faithful s₀) (group : Nat) (failure : Option Failure) :
    (w.memberOver group failure).Faithful s₀ := by
  simp only [Stage.memberOver]
  split
  · exact h
  · split <;> exact h.congr rfl rfl (by simp) rfl

theorem Faithful.sleep (h : w.Faithful s₀) (chain : Nat) (seconds : Float) : (w.sleep chain seconds).Faithful s₀ := by
  unfold Stage.sleep
  split <;> exact h.congr rfl rfl (Nat.le_refl _) rfl

theorem Faithful.goOn (h : w.Faithful s₀) (chain : Nat) (failure : Option Failure) :
    (w.goOn chain failure).Faithful s₀ := h.congr rfl rfl (Nat.le_refl _) rfl

theorem Faithful.openGroup (h : w.Faithful s₀) (owner : Nat) : (w.openGroup owner).Faithful s₀ :=
  h.congr rfl rfl (by simp [Stage.openGroup]) rfl

/-! ## Seeing, contexts and cues -/

theorem Faithful.see (h : w.Faithful s₀) (m : Moment) : (w.see m).Faithful s₀ :=
  h.congr rfl rfl (Nat.le_refl _) rfl

theorem Faithful.log (h : w.Faithful s₀) (level : Level) (message : String) : (w.log level message).Faithful s₀ :=
  h.see _

theorem Faithful.logAll (h : w.Faithful s₀) (lines : List LogLine) : (w.logAll lines).Faithful s₀ := by
  unfold Stage.logAll
  induction lines generalizing w with
  | nil => exact h
  | cons line lines ih => exact ih (h.see _)

theorem Faithful.countCue (h : w.Faithful s₀) (cue : Cue) : (w.countCue cue).Faithful s₀ :=
  h.congr rfl rfl (Nat.le_refl _) rfl

theorem Faithful.editBus (h : w.Faithful s₀) (edit : Bus Notice → Bus Notice) : (w.editBus edit).Faithful s₀ :=
  h.congr rfl rfl (Nat.le_refl _) rfl

theorem Faithful.editNamed (h : w.Faithful s₀) (name : String) (edit : Nat → Nat) :
    (w.editNamed name edit).Faithful s₀ := by
  obtain ⟨contexts, heq⟩ := w.editNamed_eq name edit
  rw [heq]
  exact h.congr rfl rfl (Nat.le_refl _) rfl

theorem Faithful.touch (h : w.Faithful s₀) (context : Context) : (w.touch context).Faithful s₀ := by
  obtain ⟨contexts, heq⟩ := w.touch_eq context
  rw [heq]
  exact h.congr rfl rfl (Nat.le_refl _) rfl

theorem Faithful.pass (h : w.Faithful s₀) (context : Context) (passage : Passage) :
    (w.pass context passage).Faithful s₀ := by
  have hrecord := h.record_free (d := .pass context passage) trivial (by simp)
  cases context with
  | own => exact hrecord
  | named name => exact hrecord.editNamed name passage.edit

/-! ## Acts without time -/

/-- A script that is sound (`Sound`) may be loaded at any time. -/
theorem Faithful.load (h : w.Faithful s₀) {script : Script} (hs : script.Sound) : (w.load script).1.Faithful s₀ := by
  have hrecord := h.record_free (d := .load script) hs (by simp)
  exact hrecord.log _ _

/-- What a text is read to is sound.  A text that is refused leaves log lines only. -/
theorem Faithful.setup (h : w.Faithful s₀) (text source : String) : (w.setup text source).1.Faithful s₀ := by
  have hlog := h.logAll (Script.parseLog source (Script.parse w.session.settings.commentMark source text))
  simp only [Stage.setup]
  split
  · exact hlog
  · rename_i script hparse
    exact hlog.load (Script.parse_sound hparse)

/-- A beat is collected: looked at by anyone, or under a new number by an advance that may go on. -/
theorem Faithful.collect (h : w.Faithful s₀) {number : Option Nat}
    (hn : ∀ n, number = some n → w.session.pending = none ∧ w.session.finished = false ∧
      (∀ earlier, Deed.collect (some n) earlier ∉ w.journal) ∧ n < w.groups.length) :
    (w.collect number).1.Faithful s₀ := by
  have hfits : (Deed.collect number w.session.nextBeat).Fits w.journal w.session :=
    ⟨rfl, fun n hnum => ⟨(hn n hnum).1, (hn n hnum).2.1, (hn n hnum).2.2.1⟩⟩
  have hrecord := h.record hfits fun n beat heq => by
    obtain ⟨rfl, -⟩ := Deed.collect.inj heq
    exact (hn n rfl).2.2.2
  exact hrecord.logAll _

/-- Looking at the next beat is collecting it without a number, which always fits. -/
theorem Faithful.look (h : w.Faithful s₀) : w.collect.1.Faithful s₀ := h.collect (by simp)

/-- The acts one by one.  Those that do something to the session do it by one deed, which fits; the others touch the
    bus, the notes or nothing. -/
theorem Faithful.perform (h : w.Faithful s₀) (act : Act) : (w.perform act).stage.Faithful s₀ := by
  cases act with
  | setVariable name value => exact h.record_free (d := .answer name value) trivial (by simp)
  | attach on => exact h.record_free (d := .attach on) trivial (by simp)
  -- both outcomes of reading a text are covered by what is known about `setup`
  | setup text =>
    have hsetup := h.setup text unnamedSource
    simp only [Stage.perform]
    split <;> rename_i heq <;> rw [heq] at hsetup <;> exact hsetup
  | loadCompiled document =>
    simp only [Stage.perform]
    split
    · rename_i script hread
      exact h.load (Script.ofJson_sound hread)
    · exact h
  | nextBeat => exact h.look
  | assign name value =>
    simp only [Stage.perform]
    split
    · exact h.record_free (d := .adjust _) trivial (by simp)
    · exact h
  | view => exact h.see _
  | note text => exact h.see _
  | subscribe topic entry => exact h.editBus _
  | unsubscribe topic handler => exact h.editBus _
  | clear topic => exact h.editBus _
  | sleep | advance | fail | publish => exact h

/-! ## Events -/

/-- The acts of one reaction, up to the first that fails. -/
theorem Faithful.performAll (acts : List Act) (h : w.Faithful s₀) : (Stage.performAll acts w).1.Faithful s₀ := by
  induction acts generalizing w with
  | nil => exact h
  | cons act acts ih =>
    have hact := h.perform act
    have hqueued : ((w.perform act).event.elim (w.perform act).stage fun e =>
        (w.perform act).stage.editBus (·.enqueue e)).Faithful s₀ := by
      cases (w.perform act).event with
      | none => exact hact
      | some e => exact hact.editBus _
    simp only [Stage.performAll]
    split
    · exact hqueued
    · exact ih hqueued

/-- Calling a handler is performing the acts that it reacts with. -/
theorem Faithful.callHandler (react : Reactions) (h : w.Faithful s₀) (handler : Nat) (event : SessionEvent)
    (b : Bus Notice) : (Stage.callHandler react handler event b w).2.1.Faithful s₀ := by
  have hbus : Faithful s₀ { w with bus := some b } := h.congr rfl rfl (Nat.le_refl _) rfl
  exact ((hbus.see _).countCue _).performAll _

end Stage

namespace Bus

variable {ε β : Type} {P : List (Event ε) → β → Prop} (s : Surroundings ε β) (event : Event ε)
  (hcall : ∀ handler b rest, P b.queue rest →
    P (s.call handler event b rest).1.queue (s.call handler event b rest).2.1)
  (hreport : ∀ queue rest, P queue rest → P queue (s.report event rest))

include hcall hreport

/-- What every call and every report keeps, of the `queue` and the surroundings, the turn of a subscription keeps. -/
theorem Delivery.visit_keeps {d : Delivery ε β} (h : P d.bus.queue d.rest) (e : Entry) :
    P (d.visit s event e).bus.queue (d.visit s event e).rest := by
  have hcalled := hcall e.handler (d.bus.mark (.begins e.handler event)) d.rest h
  unfold Delivery.visit
  split
  · revert hcalled
    generalize s.call e.handler event (d.bus.mark (.begins e.handler event)) d.rest = result
    obtain ⟨bus, rest, ending⟩ := result
    intro hcalled
    cases ending with
    | returned => exact hcalled
    | failed => exact hreport bus.queue rest hcalled
    | aborted text => exact hcalled
  · exact h

/-- One turn after the other, by induction on the subscriptions. -/
theorem Delivery.visitAll_keeps {d : Delivery ε β} (h : P d.bus.queue d.rest) (es : List Entry) :
    P (d.visitAll s event es).bus.queue (d.visitAll s event es).rest := by
  induction es generalizing d with
  | nil => exact h
  | cons e es ih =>
    have hvisit := Delivery.visit_keeps s event hcall hreport h e
    simp only [Delivery.visitAll]
    split
    · exact hvisit
    · exact ih hvisit

/-- What every call and every report keeps, a delivery keeps.  The property may speak of the `queue` and of the
    surroundings, which handlers act upon. -/
theorem deliver_keeps (b : Bus ε) {rest : β} (h : P b.queue rest) :
    P (deliver s event b rest).1.queue (deliver s event b rest).2.1 := by
  simp only [deliver]
  split
  · exact h
  · have hall := Delivery.visitAll_keeps s event hcall hreport
      (d := { bus := (b.mark (.dispatched event)).openList event.topic, rest }) h (b.entries event.topic)
    -- the dead subscriptions go, and the queue stays
    unfold Delivery.close
    split <;> exact hall

end Bus

namespace Stage

variable {s₀ : Session} {w w' : Stage} (react : Reactions)

/-- A delivery: calls of handlers keep a stage faithful (`deliver_keeps`), and so do the reports about
    those that fail. -/
theorem Faithful.deliver (h : w.Faithful s₀) (event : SessionEvent) : (w.deliver react event).Faithful s₀ := by
  unfold Stage.deliver
  split
  · exact h
  · rename_i b hb
    have hdeliver := Bus.deliver_keeps (P := fun _ => Faithful s₀) (audience react) event
      (fun handler b rest hrest => hrest.callHandler react handler event b) (fun _ rest hrest => hrest.see _) b h
    exact hdeliver.congr rfl rfl (Nat.le_refl _) rfl

theorem Faithful.publish (h : w.Faithful s₀) (event : SessionEvent) : (w.publish react event).Faithful s₀ := by
  unfold Stage.publish
  split
  · exact h
  · split
    · exact h.congr rfl rfl (Nat.le_refl _) rfl
    · refine Faithful.deliver react ?_ event
      exact h.congr rfl rfl (Nat.le_refl _) rfl

theorem Faithful.carryOut (h : w.Faithful s₀) (act : Act) : (w.carryOut react act).1.Faithful s₀ := by
  have hact := h.perform act
  simp only [Stage.carryOut]
  cases (w.perform act).event with
  | none => exact hact
  | some e => exact hact.publish react e

/-! ## Commands -/

variable {chain : Nat} {rest : List Frame}

/-- A jump to the target of the command (`target?`) is recorded where the label exists, and then it leads to the first
    definition of the label. -/
theorem Faithful.jumpTo (h : w.Faithful s₀) {beat : Option Nat} {c : Command} {label : String}
    (hattached : w.session.attached = true) (hc : Collected w.journal beat c)
    (htarget : c.target? w.session.store = some label) : (w.jumpTo react beat c label).Faithful s₀ := by
  simp only [Stage.jumpTo]
  split
  · exact h.log _ _
  · rename_i position hfind
    have hfits : (Deed.jump beat c label position).Fits w.journal w.session := ⟨hattached, hc, htarget, hfind⟩
    apply Faithful.publish
    exact (h.log _ _).record_free hfits (by simp)

/-- Showing is seen and counted, and puts frames on the chain that fit every journal. -/
theorem Faithful.showAndSettle (h : w.Faithful s₀) (hrest : FramesFit w.journal (w.groupOf chain) rest) (c : Command)
    (cue : Cue) : (w.showAndSettle react chain rest c cue).Faithful s₀ := by
  simp only [Stage.showAndSettle, Stage.reaction]
  apply Faithful.goOn
  exact ((h.see _).countCue cue).setFrames (.cons trivial (.cons trivial hrest))

/-- A command that runs jumps and offers only what fits: it has been collected under the number of its group
    (`Collected`), and this is part of the invariant. -/
theorem Faithful.runCommand (h : w.Faithful s₀) {c : Command} (hc : Collected w.journal (w.groupOf chain) c)
    (hrest : FramesFit w.journal (w.groupOf chain) rest) : (w.runCommand react chain rest c).Faithful s₀ := by
  have hw := h.setFrames hrest
  simp only [Stage.runCommand]
  split
  · exact hw.goOn _ _
  · -- without a listener nothing is shown and nothing is recorded
    rename_i hattached
    have hattached : (w.setFrames chain rest).session.attached = true := by simpa using hattached
    have hc : Collected (w.setFrames chain rest).journal ((w.setFrames chain rest).groupOf chain) c := by
      rw [groupOf_setFrames]
      exact hc
    have hrest : FramesFit (w.setFrames chain rest).journal ((w.setFrames chain rest).groupOf chain) rest := by
      rw [groupOf_setFrames]
      exact hrest
    generalize w.setFrames chain rest = w at hw hattached hc hrest
    split
    · exact hw.showAndSettle react hrest c _
    · exact hw.showAndSettle react hrest c _
    · exact hw.sleep _ _
    · rename_i var choices hbody
      have hfits : (Deed.offer (w.groupOf chain) c ⟨c.line, var, choices⟩).Fits w.journal w.session :=
        ⟨hattached, hc, var, choices, hbody, rfl⟩
      have hoffer := hw.record_free hfits (by simp)
      apply Faithful.goOn
      refine ((hoffer.see _).countCue _).setFrames (.cons trivial (.cons trivial ?_))
      exact hrest.mono (List.subset_cons_self _ _)
    · rename_i test hbody
      apply Faithful.goOn
      split
      · exact hw.log _ _
      · rename_i actual hactual
        split
        · rename_i hholds
          refine hw.jumpTo react hattached hc ?_
          have hactual : lookupVariable test.var w.session.store = some actual := hactual
          simp [Command.target?, hbody, hactual, hholds]
        · exact hw
    · rename_i label hbody
      apply Faithful.goOn
      exact hw.jumpTo react hattached hc (by simp [Command.target?, hbody])
    · exact hw.goOn _ _
    · exact (hw.log _ _).goOn _ _

/-! ## Advances -/

/-- A round (`nextRound`) of an advance that may go on.  It collects a beat under the number of the group that has just
    been opened, or reports the end. -/
theorem Faithful.nextRound (h : w.Faithful s₀) (hpending : w.session.pending = none)
    (hfinished : w.session.finished = false) (hrest : FramesFit w.journal (w.groupOf chain) rest)
    (context : Context) : (w.nextRound react chain rest context).Faithful s₀ := by
  have hcollect : ((w.openGroup chain).collect (some w.groups.length)).1.Faithful s₀ := by
    refine (h.openGroup chain).collect fun n hn => ?_
    cases hn
    refine ⟨hpending, hfinished, fun earlier hmem => ?_, by simp [Stage.openGroup]⟩
    exact Nat.lt_irrefl _ (h.numbered _ _ hmem)
  simp only [Stage.nextRound]
  split
  · -- the end of the script
    rename_i w' heq
    rw [heq] at hcollect
    obtain ⟨hnil, hsession, hjournal, hgear⟩ := collect_eq_mk heq
    have hempty : w.session.nextBeat = [] := hnil.symm
    have hsame : w'.session = w.session := by rw [hsession, ← hnil]; rfl
    have hfits : Deed.finish.Fits (w'.reset context).journal (w'.reset context).session := by
      rw [Stage.reset, session_pass, hsame]
      cases context <;> exact ⟨hpending, hfinished, hempty⟩
    have hframes : FramesFit (w'.reset context).journal ((w'.reset context).groupOf chain) rest := by
      rw [Stage.reset, groupOf_eq_of_gear (gear_pass w' context .reset), groupOf_eq_of_gear hgear, journal_pass,
        hjournal]
      exact hrest.mono fun d hd => .tail _ (.tail _ hd)
    have hfinish := (hcollect.pass context .reset).record_free hfits (by simp)
    apply Faithful.goOn
    apply Faithful.publish
    refine (hfinish.log _ _).setFrames (.cons trivial (.cons trivial ?_))
    exact hframes.mono (List.subset_cons_self _ _)
  · -- a beat to play
    rename_i w' beat hne heq
    rw [heq] at hcollect
    obtain ⟨hbeat, hsession, hjournal, hgear⟩ := collect_eq_mk heq
    apply Faithful.goOn
    apply Faithful.publish
    refine hcollect.setFrames (.cons ?_ ?_)
    · simp only [Frame.Fits, hjournal, hbeat]
      exact List.mem_cons_self
    · rw [groupOf_eq_of_gear hgear, hjournal]
      exact hrest.mono (List.subset_cons_self _ _)

/-- An advance that is turned away does nothing.  One that is not has found that no choice waits and the end has not
    been reported, and that is what `Deed.Fits` asks of collecting. -/
theorem Faithful.beginAdvance (h : w.Faithful s₀) (hrest : FramesFit w.journal (w.groupOf chain) rest)
    (context : Context) : (w.beginAdvance react chain rest context).Faithful s₀ := by
  have htouch : ((w.touch context).setFrames chain rest).Faithful s₀ ∧
      FramesFit ((w.touch context).setFrames chain rest).journal
        (((w.touch context).setFrames chain rest).groupOf chain) rest := by
    rw [groupOf_setFrames]
    obtain ⟨contexts, heq⟩ := w.touch_eq context
    have hw := h.touch context
    rw [heq] at hw ⊢
    exact ⟨hw.setFrames hrest, hrest⟩
  simp only [Stage.beginAdvance]
  generalize (w.touch context).setFrames chain rest = w at htouch
  obtain ⟨hw, hrest⟩ := htouch
  split
  · exact (hw.log _ _).goOn _ _
  · split
    · exact (hw.log _ _).goOn _ _
    · rename_i hfinished
      split
      · exact (hw.log _ _).goOn _ _
      · rename_i hpending
        -- entering does not answer a choice and does not end the scene
        refine (hw.pass context .enter).nextRound react ?_ ?_ ?_ context
        · rw [session_pass]
          cases context <;> exact hpending
        · rw [session_pass]
          cases context <;> simpa [Session.after] using hfinished
        · rw [groupOf_eq_of_gear (gear_pass w context .enter), journal_pass]
          exact hrest.mono (List.subset_cons_self _ _)

/-- The commands of a beat start in chains of the group with its number, so that they have been collected under it. -/
theorem Faithful.startBeat (h : w.Faithful s₀) (hrest : FramesFit w.journal (w.groupOf chain) rest)
    (context : Context) {number : Nat} {beat : List Command} (hbeat : Deed.collect (some number) beat ∈ w.journal) :
    (w.startBeat chain rest context number beat).Faithful s₀ := by
  have hspawn : ∀ (cs : List Command) (w : Stage), w.Faithful s₀ → Deed.collect (some number) beat ∈ w.journal →
      cs ⊆ beat → (cs.foldl (fun w c => w.spawn [.command c] (some number)) w).Faithful s₀ := by
    intro cs
    induction cs with
    | nil => exact fun w hw _ _ => hw
    | cons c cs ih =>
      intro w hw hmem hsub
      obtain ⟨hc, hcs⟩ := List.cons_subset.mp hsub
      refine ih _ (hw.spawn ?_) hmem hcs
      refine .cons ⟨hw.honest.body_ne hw.start hmem c hc, fun n hn => ?_⟩ (fun f hf => by cases hf)
      cases hn
      exact ⟨beat, hmem, hc⟩
  refine hspawn beat _ (h.setFrames ?_) hbeat (List.Subset.refl beat)
  exact .cons trivial hrest

/-- After a beat an advance leaves if a choice waits, and goes on to its next round otherwise. -/
theorem Faithful.beatOver (h : w.Faithful s₀) (hrest : FramesFit w.journal (w.groupOf chain) rest)
    (context : Context) (onChoice : Bool) : (w.beatOver react chain rest context onChoice).Faithful s₀ := by
  unfold Stage.beatOver
  split
  · apply Faithful.goOn
    exact (h.setFrames hrest).pass context .leave
  · rename_i hgo
    simp only [Bool.or_eq_true, not_or, Bool.not_eq_true, Option.isSome_eq_false_iff, Option.isNone_iff_eq_none]
      at hgo
    exact h.nextRound react hgo.2 hgo.1.1 hrest context

/-! ## Frames -/

/-- A failure goes through a frame.  Frames of an advance leave their context on the way. -/
theorem Faithful.unwind (h : w.Faithful s₀) (hrest : FramesFit w.journal (w.groupOf chain) rest) (frame : Frame)
    (failure : Failure) : (w.unwind chain frame rest failure).Faithful s₀ := by
  have hw := h.setFrames hrest
  simp only [Stage.unwind]
  split
  · exact (hw.pass _ .leave).goOn _ _
  · exact (hw.pass _ .leave).goOn _ _
  · exact (hw.pass _ .leave).goOn _ _
  · exact hw.goOn _ _

theorem Faithful.runAct (h : w.Faithful s₀) (hrest : FramesFit w.journal (w.groupOf chain) rest) (act : Act) :
    (w.runAct react chain rest act).Faithful s₀ := by
  unfold Stage.runAct
  split
  · exact (h.setFrames hrest).sleep _ _
  · refine Faithful.goOn (h.setFrames ?_) _ _
    exact .cons trivial hrest
  · exact ((h.setFrames hrest).carryOut react act).goOn _ _

/-- The frame on top of a chain is run, of whatever kind it is.  That it fits is part of `FramesFit`, and so is that
    the frames below it do. -/
theorem Faithful.runFrame (h : w.Faithful s₀) {frame : Frame}
    (hframes : FramesFit w.journal (w.groupOf chain) (frame :: rest)) :
    (w.runFrame react chain frame rest).Faithful s₀ := by
  -- the frame on top is taken off, and those below still fit
  have hframe := hframes frame List.mem_cons_self
  have hrest : FramesFit w.journal (w.groupOf chain) rest := fun f hf => hframes f (List.mem_cons_of_mem _ hf)
  have hw := h.setFrames hrest
  unfold Stage.runFrame
  split
  · exact h.runCommand react hframe.2 hrest
  · exact hw.goOn _ _
  · refine h.runAct react ?_ _
    exact .cons trivial hrest
  · exact hw.sleep _ _
  · exact (hw.publish react _).goOn _ _
  · exact h.beginAdvance react hrest _
  · exact h.startBeat hrest _ hframe
  · exact h.beatOver react hrest _ _
  · split
    · apply Faithful.goOn
      exact ((h.see _).countCue _).setFrames (.cons trivial hrest)
    · exact hw.goOn _ _
  · exact (hw.pass _ .leave).goOn _ _
  · exact hw.sleep _ _

/-- A chain that is over, one through which a failure goes, and one with a frame to run. -/
theorem Faithful.runChain (h : w.Faithful s₀) (chain : Nat) (failure : Option Failure) :
    (w.runChain react chain failure).Faithful s₀ := by
  have hw : Faithful s₀ { w with active := none } := h.congr rfl rfl (Nat.le_refl _) rfl
  simp only [Stage.runChain]
  split
  · exact hw
  · exact hw.finish _ _
  · rename_i frame rest hframes
    obtain ⟨c, hc, hcframes⟩ := Option.map_eq_some_iff.mp hframes
    -- the frames of the chain fit the journal, which is what makes its next frame fit
    have hfit : FramesFit w.journal (w.groupOf chain) (frame :: rest) := by
      have hgroup : w.groupOf chain = c.group := by
        have hc : w.chains[chain]? = some c := hc
        simp [groupOf, hc]
      rw [hgroup, ← hcframes]
      exact h.frames chain c hc
    split
    · exact hw.unwind (fun f hf => hfit f (List.mem_cons_of_mem _ hf)) _ _
    · exact hw.runFrame react hfit

/-! ## Steps -/

theorem Faithful.fireTimers (h : w.Faithful s₀) (time : Float) : (w.fireTimers time).Faithful s₀ :=
  h.congr rfl rfl (Nat.le_refl _) rfl

/-- Whatever is done next keeps the stage faithful: a delivery, a stride of the running chain (`runChain`), or taking
    up the next chain that is ready (`takeReady`). -/
theorem Faithful.step (h : w.Faithful s₀) (hstep : w.step react = some w') : w'.Faithful s₀ := by
  simp only [Stage.step] at hstep
  split at hstep
  · -- an event is delivered
    rename_i event v hnext
    have hv : v.Faithful s₀ := by
      simp only [Stage.nextEvent?] at hnext
      split at hnext
      · split at hnext
        · cases hnext
          exact h.congr rfl rfl (Nat.le_refl _) rfl
        · cases hnext
      · cases hnext
    cases hstep
    exact hv.deliver react event
  · split at hstep
    · cases hstep
      exact h.runChain react _ _
    · split at hstep
      · rename_i v hready
        cases hstep
        simp only [Stage.takeReady] at hready
        split at hready
        · cases hready
        · cases hready
          exact h.congr rfl rfl (Nat.le_refl _) rfl
        · cases hready
          -- an end is counted; otherwise a chain is taken up, which only becomes the running one
          refine Faithful.memberOver ?_ _ _
          exact h.congr rfl rfl (Nat.le_refl _) rfl
      · split at hstep
        · cases hstep
        · cases hstep
          exact h.fireTimers _

/-- So does the passing of time (`tick`), which touches timers and the list of those who are ready. -/
theorem Faithful.tick (h : w.Faithful s₀) (htick : w.tick = some w') : w'.Faithful s₀ := by
  obtain ⟨t, timers, -, -, rfl⟩ := tick_eq_some htick
  refine Faithful.fireTimers ?_ _
  exact h.congr rfl rfl (Nat.le_refl _) rfl

end Stage

end ChatScene

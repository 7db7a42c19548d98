/-
  What a handler hears.

  A handler with one subscription to the ends of scenes is called once for every such event that is published, at once
  or when its turn in the queue comes.  This holds whatever the other handlers do, as long as nobody changes the
  subscription or publishes such an event in the session's place.

  1. **Nothing to the handler** — `Act.spares` are the acts that leave the subscription alone and publish no end.
     `Stage.Spared` says what such acts leave as it was: the subscription, the ends that wait in the queue, and what the
     handler has heard (`spared_perform`).

  2. **Calls and deliveries** — a call of a handler is a hearing if it is this handler and an end, and otherwise nothing
     (`callHandler_account`).  From there, for all subscriptions of a delivery (`deliver_account`).

  3. **Heard or queued** — so `Stage.heardOrQueued`, what the handler has heard of or will hear of, is one more after an
     end has been published, and the same after anything else (`Listening.publish`).

  4. **Strides** — a stride publishes an end just when it records one (`Plays.endings_eq`), so `Accounts` is kept: the
     handler has heard, or will hear, of every end that has been come to.

  5. **Main result** (`hears_of_ends`) — at every moment of a run in which nobody meddles with the subscription,
     `heardOrQueued` is the number of ends in the journal.
-/
import ChatScene.Proofs.Moves

namespace ChatScene

/-! ## What concerns one handler -/

namespace Bus

variable {ε : Type}

/-- `b.subscriptions handler` — how many subscriptions a handler has to the ends of scenes. -/
def subscriptions (b : Bus ε) (handler : Nat) : Nat := (b.entries .chatEnded).countP (·.handler = handler)

/-- How many ends of scenes wait for their delivery. -/
def endsQueued (b : Bus ε) : Nat := b.queue.countP (·.topic = .chatEnded)

end Bus

/-- The act is nothing to the handler: it leaves its subscription alone and does not publish an end. -/
def Act.spares (handler : Nat) : Act → Bool
  | .publish event => event.topic ≠ .chatEnded
  | .subscribe topic entry => topic ≠ .chatEnded || entry.handler ≠ handler
  | .unsubscribe topic other => topic ≠ .chatEnded || other ≠ handler
  | .clear topic => topic ≠ .chatEnded
  | _ => true

namespace Stage

variable {w w' : Stage} {handler : Nat}

/-- `BusSpared handler b b'` — the bus is as it was, as far as the handler is concerned. -/
structure BusSpared (handler : Nat) (b b' : Bus Notice) : Prop where
  publishing_eq : b'.publishing = b.publishing
  subscriptions_eq : b'.subscriptions handler = b.subscriptions handler
  queued_eq : b'.endsQueued = b.endsQueued

/-- `w.Spared handler w'` — a stage after something that is nothing to the handler. -/
structure Spared (handler : Nat) (w w' : Stage) : Prop where
  hearings_eq : w'.hearings handler .chatEnded = w.hearings handler .chatEnded
  bus : ∀ b, w.bus = some b → ∃ b', w'.bus = some b' ∧ BusSpared handler b b'

namespace Spared

theorem of_unheard {ds : List Deed} {cs : List Call} (h : Unheard w ds cs w') : Spared handler w w' where
  hearings_eq := h.hearings_eq handler .chatEnded
  bus b hb := ⟨b, h.bus_eq.trans hb, rfl, rfl, rfl⟩

theorem refl (w : Stage) : Spared handler w w := of_unheard (.refl w)

theorem trans {u : Stage} (h : Spared handler w w') (h' : Spared handler w' u) : Spared handler w u where
  hearings_eq := h'.hearings_eq.trans h.hearings_eq
  bus b hb := by
    obtain ⟨b', hb', hspared⟩ := h.bus b hb
    obtain ⟨b'', hb'', hspared'⟩ := h'.bus b' hb'
    exact ⟨b'', hb'', hspared'.publishing_eq.trans hspared.publishing_eq,
      hspared'.subscriptions_eq.trans hspared.subscriptions_eq, hspared'.queued_eq.trans hspared.queued_eq⟩

/-- An edit of the bus that is nothing to the handler (`Spared`). -/
theorem editBus (w : Stage) {edit : Bus Notice → Bus Notice} (hedit : ∀ b, BusSpared handler b (edit b)) :
    Spared handler w (w.editBus edit) where
  hearings_eq := rfl
  bus b hb := ⟨edit b, by simp [Stage.editBus, hb], hedit b⟩

/-- An event that is no end is put on the queue. -/
theorem enqueue (w : Stage) {event : SessionEvent} (hevent : event.topic ≠ .chatEnded) :
    Spared handler w (w.editBus (·.enqueue event)) :=
  editBus w fun b => ⟨rfl, rfl, by simp [Bus.endsQueued, Bus.enqueue, hevent]⟩

end Spared

theorem unheard_load (w : Stage) (script : Script) : Unheard w [.load script] [] (w.load script).1 :=
  (Unheard.record w (d := .load script) (by simp)).trans (.log _ _ _)

/-- Setting up is a load, or nothing if the text cannot be read; what it publishes is no end (`.chatEnded`). -/
theorem unheard_setup (w : Stage) (text source : String) :
    ∃ deeds, (∀ d ∈ deeds, d.isAside = true) ∧ Unheard w deeds [] (w.setup text source).1 ∧
      ∀ event, (w.setup text source).2 = .ok event → event.topic ≠ .chatEnded := by
  have hlog := Unheard.logAll w (Script.parseLog source (Script.parse w.session.settings.commentMark source text))
  simp only [Stage.setup]
  split
  · exact ⟨[], by simp, hlog, by rintro event ⟨⟩⟩
  · refine ⟨_, ?_, hlog.trans (unheard_load _ _), ?_⟩
    · simp [Deed.isAside]
    · rintro event ⟨⟩
      simp [Stage.load]

/-- The session's own acts, and those on the bus that spare the handler (`spares`); none gives rise to an end. -/
theorem spared_perform (w : Stage) {act : Act} (hact : act.spares handler = true) :
    Spared handler w (w.perform act).stage ∧
      ∀ event, (w.perform act).event = some event → event.topic ≠ .chatEnded := by
  cases act with
  | sleep | advance | fail => exact ⟨.refl w, fun _ h => by cases h⟩
  | setVariable name value =>
    refine ⟨.of_unheard (.record w (d := .answer name value) (by simp)), ?_⟩
    rintro event ⟨⟩
    simp
  | setup text =>
    obtain ⟨deeds, -, hsetup, hevent⟩ := unheard_setup w text unnamedSource
    simp only [Stage.perform]
    split
    · rename_i v event heq
      rw [heq] at hsetup hevent
      refine ⟨.of_unheard hsetup, ?_⟩
      rintro _ ⟨⟩
      exact hevent event rfl
    · rename_i v e heq
      rw [heq] at hsetup
      exact ⟨.of_unheard hsetup, fun _ h => by cases h⟩
  | loadCompiled document =>
    simp only [Stage.perform]
    split
    · rename_i script _
      refine ⟨.of_unheard (unheard_load w script), ?_⟩
      rintro _ ⟨⟩
      simp [Stage.load]
    · exact ⟨.refl w, fun _ h => by cases h⟩
  | nextBeat => exact ⟨.of_unheard (unheard_collect w none), fun _ h => by cases h⟩
  | view => exact ⟨.of_unheard (.see w (m := .view _) fun _ _ => rfl), fun _ h => by cases h⟩
  | note text => exact ⟨.of_unheard (.see w (m := .note text _) fun _ _ => rfl), fun _ h => by cases h⟩
  | attach on =>
    exact ⟨.of_unheard (.record w (d := .attach on) (by simp)), fun _ h => by cases h⟩
  | assign name value =>
    simp only [Stage.perform]
    split
    · exact ⟨.of_unheard (.record w (d := .adjust _) (by simp)), fun _ h => by cases h⟩
    · exact ⟨.refl w, fun _ h => by cases h⟩
  | subscribe topic entry =>
    simp only [Act.spares, Bool.or_eq_true, decide_eq_true_eq] at hact
    refine ⟨.editBus w fun b => ⟨(b.edited_subscribe topic entry).publishing_eq, ?_, ?_⟩, fun _ h => by cases h⟩
    · rw [Bus.subscriptions, Bus.entries_subscribe]
      split
      · rename_i htopic
        -- a subscription to the end is one of another handler
        have hother : entry.handler ≠ handler := hact.resolve_left fun h => h htopic
        simp [Bus.subscriptions, hother]
      · rfl
    · rw [Bus.endsQueued, (b.edited_subscribe topic entry).queue_eq]
      rfl
  | unsubscribe topic other =>
    simp only [Act.spares, Bool.or_eq_true, decide_eq_true_eq] at hact
    refine ⟨.editBus w fun b => ⟨(b.edited_unsubscribe topic other).publishing_eq, ?_, ?_⟩, fun _ h => by cases h⟩
    · rw [Bus.subscriptions, Bus.entries_unsubscribe]
      split
      · rename_i htopic
        have hother : other ≠ handler := hact.resolve_left fun h => h htopic
        rw [List.countP_filter, Bus.subscriptions]
        refine List.countP_congr fun e _ => ?_
        -- what is removed is another handler's
        have hne : e.handler = handler → e.handler ≠ other := fun h => h ▸ Ne.symm hother
        simpa using hne
      · rfl
    · rw [Bus.endsQueued, (b.edited_unsubscribe topic other).queue_eq]
      rfl
  | clear topic =>
    simp only [Act.spares, decide_eq_true_eq] at hact
    refine ⟨.editBus w fun b => ⟨(b.edited_clear topic).publishing_eq, ?_, ?_⟩, fun _ h => by cases h⟩
    · -- the topic that is cleared is not the end
      rw [Bus.subscriptions, Bus.entries_clear, if_neg hact]
      rfl
    · exact congrArg (List.countP _) (b.edited_clear topic).queue_eq
  | publish event =>
    refine ⟨.refl w, ?_⟩
    rintro _ ⟨⟩
    simpa [Act.spares] using hact

theorem spared_performAll {acts : List Act} (hacts : ∀ act ∈ acts, act.spares handler = true) (w : Stage) :
    Spared handler w (performAll acts w).1 := by
  induction acts generalizing w with
  | nil => exact .refl w
  | cons act acts ih =>
    obtain ⟨hperform, hevent⟩ := spared_perform w (hacts act List.mem_cons_self)
    have hqueued : Spared handler w ((w.perform act).event.elim (w.perform act).stage fun e =>
        (w.perform act).stage.editBus (·.enqueue e)) := by
      cases he : (w.perform act).event with
      | none => exact hperform
      | some e => exact hperform.trans (.enqueue _ (hevent e he))
    simp only [performAll]
    split
    · exact hqueued
    · exact hqueued.trans (ih (fun a ha => hacts a (List.mem_cons_of_mem act ha)) _)

/-- Handlers that are made of acts may fail, but never give up the delivery. -/
theorem performAll_ending (acts : List Act) (w : Stage) (text : String) : (performAll acts w).2 ≠ .aborted text := by
  induction acts generalizing w with
  | nil => simp [performAll]
  | cons act acts ih =>
    simp only [performAll]
    split
    · simp
    · exact ih _

/-! ## Deliveries -/

/-- `ReactionsSpare handler react` — reactions that are nothing to the handler's subscription. -/
def ReactionsSpare (handler : Nat) (react : Reactions) : Prop :=
  ∀ cue n, ∀ act ∈ react cue n, act.spares handler = true

/-- An event that the handler is waiting for counts as one. -/
def endCount (event : SessionEvent) : Nat := if event.topic = .chatEnded then 1 else 0

variable {react : Reactions}

/-- A call of a handler: its acts spare our handler, and the call itself is a hearing (`hearings`) if it is ours and an
    end. -/
theorem callHandler_account (hreact : ReactionsSpare handler react) (other : Nat) (event : SessionEvent)
    (b : Bus Notice) (w : Stage) :
    BusSpared handler b (callHandler react other event b w).1 ∧
      (callHandler react other event b w).2.1.hearings handler .chatEnded =
        w.hearings handler .chatEnded + (if other = handler then endCount event else 0) ∧
      ∀ text, (callHandler react other event b w).2.2 ≠ .aborted text := by
  let cue := Cue.heard other event.topic
  let v := ({ w with bus := some b }.see (.heard other event)).countCue cue
  have hspared := spared_performAll (hreact cue (w.timesFired cue)) v
  obtain ⟨b', hb', hbus⟩ := hspared.bus b rfl
  have hcall : (callHandler react other event b w).1 = (performAll (react cue (w.timesFired cue)) v).1.bus.getD b := rfl
  refine ⟨?_, ?_, performAll_ending _ v⟩
  · rw [hcall, hb']
    exact hbus
  · refine hspared.hearings_eq.trans ?_
    -- the call is heard by the handler that is called, and what it then does spares ours
    by_cases hother : other = handler
    · by_cases htopic : event.topic = .chatEnded
      · simp [v, hearings, Stage.see, countCue, Moment.tells, hother, htopic, endCount]
      · simp [v, hearings, Stage.see, countCue, Moment.tells, hother, htopic, endCount]
    · simp [v, hearings, Stage.see, countCue, Moment.tells, hother]

/-- A delivery in which all subscriptions are alive so far, and no handler has given up. -/
structure Fair (d : Bus.Delivery Notice Stage) : Prop where
  dead_eq : d.dead = []
  aborted_eq : d.aborted = none

theorem visit_account (hreact : ReactionsSpare handler react) (event : SessionEvent) {d : Bus.Delivery Notice Stage}
    (hd : Fair d) (e : Entry) :
    Fair (d.visit (audience react) event e) ∧ BusSpared handler d.bus (d.visit (audience react) event e).bus ∧
      (d.visit (audience react) event e).rest.hearings handler .chatEnded =
        d.rest.hearings handler .chatEnded + (if e.handler = handler then endCount event else 0) := by
  have halive : d.alive (audience react) e.handler = true := by simp [Bus.Delivery.alive, audience]
  obtain ⟨hbus, hhearings, hending⟩ :=
    callHandler_account hreact e.handler event (d.bus.mark (.begins e.handler event)) d.rest
  have hcall : (audience react).call = callHandler react := rfl
  simp only [Bus.Delivery.visit, halive, if_true, hcall]
  split
  · exact ⟨⟨hd.dead_eq, hd.aborted_eq⟩, ⟨hbus.publishing_eq, hbus.subscriptions_eq, hbus.queued_eq⟩, hhearings⟩
  · refine ⟨⟨hd.dead_eq, hd.aborted_eq⟩, ⟨hbus.publishing_eq, hbus.subscriptions_eq, hbus.queued_eq⟩, ?_⟩
    simpa [audience, hearings, Stage.see, Moment.tells] using hhearings
  · rename_i text heq
    exact absurd heq (hending text)

/-- All subscriptions of a topic: as many `hearings` as our handler has among them. -/
theorem visitAll_account (hreact : ReactionsSpare handler react) (event : SessionEvent) (es : List Entry)
    {d : Bus.Delivery Notice Stage} (hd : Fair d) :
    Fair (d.visitAll (audience react) event es) ∧ BusSpared handler d.bus (d.visitAll (audience react) event es).bus ∧
      (d.visitAll (audience react) event es).rest.hearings handler .chatEnded =
        d.rest.hearings handler .chatEnded + es.countP (·.handler = handler) * endCount event := by
  induction es generalizing d with
  | nil => exact ⟨hd, ⟨rfl, rfl, rfl⟩, by simp [Bus.Delivery.visitAll]⟩
  | cons e es ih =>
    obtain ⟨hfair, hbus, hhearings⟩ := visit_account hreact event hd e
    obtain ⟨hfair', hbus', hhearings'⟩ := ih hfair
    simp only [Bus.Delivery.visitAll, hfair.aborted_eq, Option.isSome_none, Bool.false_eq_true, if_false]
    refine ⟨hfair', ⟨?_, ?_, ?_⟩, ?_⟩
    · exact hbus'.publishing_eq.trans hbus.publishing_eq
    · exact hbus'.subscriptions_eq.trans hbus.subscriptions_eq
    · exact hbus'.queued_eq.trans hbus.queued_eq
    · rw [hhearings', hhearings, List.countP_cons]
      by_cases he : e.handler = handler
      · simp [he, Nat.add_mul]
        omega
      · simp [he]

/-- `w.Listening handler b` — the bus is idle, and the handler has its one subscription. -/
structure Listening (handler : Nat) (w : Stage) (b : Bus Notice) : Prop where
  bus_eq : w.bus = some b
  publishing_eq : b.publishing = false
  subscriptions_eq : b.subscriptions handler = 1

/-- `w.heardOrQueued handler` — the ends of scenes that the handler has heard of or will hear of. -/
def heardOrQueued (w : Stage) (handler : Nat) : Nat :=
  w.hearings handler .chatEnded + w.bus.elim 0 Bus.endsQueued

/-- Where all handlers are alive, a delivery is one hearing for each subscription of our handler. -/
theorem deliver_account (hreact : ReactionsSpare handler react) (event : SessionEvent) {b : Bus Notice}
    (hpublishing : b.publishing = false) (w : Stage) :
    (Bus.deliver (audience react) event b w).1.publishing = false ∧
      (Bus.deliver (audience react) event b w).1.subscriptions handler = b.subscriptions handler ∧
      (Bus.deliver (audience react) event b w).1.endsQueued = b.endsQueued ∧
      (Bus.deliver (audience react) event b w).2.1.hearings handler .chatEnded =
        w.hearings handler .chatEnded + (b.entries event.topic).countP (·.handler = handler) * endCount event := by
  simp only [Bus.deliver]
  split
  · rename_i hempty
    have hnone : b.entries event.topic = [] := List.isEmpty_iff.mp hempty
    exact ⟨hpublishing, rfl, rfl, by simp [hnone]⟩
  · obtain ⟨hfair, hbus, hhearings⟩ := visitAll_account hreact event
      ((b.mark (.dispatched event)).entries event.topic)
      (d := { bus := (b.mark (.dispatched event)).openList event.topic, rest := w }) ⟨rfl, rfl⟩
    have hprune : Bus.prune ([] : List Entry) = id := rfl
    simp only [Bus.Delivery.close, hfair.dead_eq, hprune, Bus.editTable_id, ite_self]
    exact ⟨trivial, hbus.subscriptions_eq, hbus.queued_eq, hhearings⟩

/-- With one subscription, an end that is delivered is heard (`heardOrQueued`) once. -/
theorem Listening.deliver {b : Bus Notice} (h : Listening handler w b) (hreact : ReactionsSpare handler react)
    (event : SessionEvent) :
    (∃ b', Listening handler (w.deliver react event) b') ∧
      (w.deliver react event).heardOrQueued handler = w.heardOrQueued handler + endCount event := by
  obtain ⟨hpublishing, hsubscriptions, hqueued, hhearings⟩ := deliver_account hreact event h.publishing_eq w
  -- one subscription to ends, so an end is heard once and other events not at all
  have hcount : (b.entries event.topic).countP (·.handler = handler) * endCount event = endCount event := by
    by_cases htopic : event.topic = .chatEnded
    · rw [htopic]
      exact (congrArg (· * endCount event) h.subscriptions_eq).trans (Nat.one_mul _)
    · simp [endCount, htopic]
  have hdeliver : w.deliver react event =
      { (Bus.deliver (audience react) event b w).2.1 with
        bus := some (Bus.deliver (audience react) event b w).1 } := by
    simp only [Stage.deliver, h.bus_eq]
  rw [hdeliver]
  refine ⟨⟨_, rfl, hpublishing, hsubscriptions.trans h.subscriptions_eq⟩, ?_⟩
  have hsum : (Bus.deliver (audience react) event b w).2.1.hearings handler .chatEnded +
      (Bus.deliver (audience react) event b w).1.endsQueued =
      w.hearings handler .chatEnded + b.endsQueued + endCount event := by
    rw [hhearings, hqueued, hcount]
    omega
  simp only [heardOrQueued, h.bus_eq, Option.elim_some]
  exact hsum

/-- An end that is published is heard (`heardOrQueued`) at once or waits in the queue; other events change nothing. -/
theorem Listening.publish {b : Bus Notice} (h : Listening handler w b) (hreact : ReactionsSpare handler react)
    (event : SessionEvent) :
    (∃ b', Listening handler (w.publish react event) b') ∧
      (w.publish react event).heardOrQueued handler = w.heardOrQueued handler + endCount event := by
  let b₁ := b.settle.mark (.published event)
  have hsettled : Listening handler { w with bus := some b₁ } b₁ := ⟨rfl, h.publishing_eq, h.subscriptions_eq⟩
  obtain ⟨hlistening, hcount⟩ := hsettled.deliver hreact event
  have hpublish : w.publish react event = { w with bus := some b₁ }.deliver react event := by
    simp only [Stage.publish, h.bus_eq, h.publishing_eq]
    rfl
  have hsame : { w with bus := some b₁ }.heardOrQueued handler = w.heardOrQueued handler := by
    simp only [heardOrQueued, h.bus_eq]
    rfl
  rw [hpublish, hcount, hsame]
  exact ⟨hlistening, rfl⟩

/-- What is nothing to the handler leaves it listening (`Listening`). -/
theorem Spared.listening (h : Spared handler w w') {b : Bus Notice} (hb : Listening handler w b) :
    (∃ b', Listening handler w' b') ∧ w'.heardOrQueued handler = w.heardOrQueued handler := by
  obtain ⟨b', hb', hspared⟩ := h.bus b hb.bus_eq
  refine ⟨⟨b', hb', hspared.publishing_eq.trans hb.publishing_eq,
    hspared.subscriptions_eq.trans hb.subscriptions_eq⟩, ?_⟩
  simp only [heardOrQueued, hb', hb.bus_eq, Option.elim_some, h.hearings_eq, hspared.queued_eq]

/-- So does an act that is carried out with its event. -/
theorem Listening.carryOut {b : Bus Notice} (h : Listening handler w b) (hreact : ReactionsSpare handler react)
    {act : Act} (hact : act.spares handler = true) :
    (∃ b', Listening handler (w.carryOut react act).1 b') ∧
      (w.carryOut react act).1.heardOrQueued handler = w.heardOrQueued handler := by
  obtain ⟨hspared, hevent⟩ := spared_perform w hact
  obtain ⟨⟨b', hb'⟩, hsame⟩ := hspared.listening h
  simp only [Stage.carryOut]
  cases he : (w.perform act).event with
  | none => exact ⟨⟨b', hb'⟩, hsame⟩
  | some event =>
    have hzero : endCount event = 0 := by simp [endCount, hevent event he]
    obtain ⟨hlistening, hcount⟩ := hb'.publish hreact event
    rw [hzero, Nat.add_zero, hsame] at hcount
    exact ⟨hlistening, hcount⟩

end Stage

/-! ## Runs -/

/-- The end of a scene is come to. -/
def Deed.isFinish : Deed → Bool
  | .finish => true
  | _ => false

/-- How often the end of a scene has been come to. -/
def endings (journal : List Deed) : Nat := journal.countP Deed.isFinish

/-- No end is come to on the side (`isAside`). -/
theorem endings_asides {asides : List Deed} (h : ∀ d ∈ asides, d.isAside = true) : endings asides = 0 := by
  refine List.countP_eq_zero.mpr fun d hd => ?_
  have haside := h d hd
  cases d with
  | finish => cases haside
  | load | answer | collect | offer | jump | adjust | attach | pass => simp [Deed.isFinish]

theorem endings_append (js ks : List Deed) : endings (js ++ ks) = endings js + endings ks := List.countP_append

/-- A stride publishes an end if and only if it comes to one. -/
theorem Round.endings_eq {beat : List Command} {script : Script} {number chain : Nat}
    {context : Context} {t : Stride} (h : Round beat script number chain context t) :
    endings t.deeds = t.event.elim 0 Stage.endCount := by
  cases h with
  | ends | collects => rfl

/-- A stride publishes an end just when it records one. -/
theorem Plays.endings_eq {react : Reactions} {s : Session} {group : Option Nat} {number chain : Nat}
    {failure : Option Failure} {frame : Frame} {t : Stride} (h : Plays react s number group chain failure frame t) :
    endings t.deeds = t.event.elim 0 Stage.endCount := by
  cases h with
  | enters hfinished hround =>
    rw [endings_append]
    exact hround.endings_eq
  | continues hfinished hround => exact hround.endings_eq
  | idles | shows | offers | jumps | dwells | nests | announces | starts | stops | reports | deserted | leaves | fails
  | gives => rfl

namespace Stage

variable {react : Reactions} {w w' : Stage} {handler : Nat}

/-- A move from outside that is nothing to the handler. -/
def Move.Spares (handler : Nat) : Move → Prop
  | .act a => a.spares handler = true
  | _ => True

/-- `w.Accounts handler` — the handler has heard, or will hear, of every end that has been come to. -/
structure Accounts (handler : Nat) (w : Stage) : Prop where
  listening : ∃ b, Listening handler w b
  account : w.heardOrQueued handler = endings w.journal

namespace Accounts

theorem congr (h : Accounts handler w) (hbus : w'.bus = w.bus) (hseen : w'.seen = w.seen)
    (hjournal : w'.journal = w.journal) : Accounts handler w' where
  listening := by
    obtain ⟨b, hb⟩ := h.listening
    exact ⟨b, hbus.trans hb.bus_eq, hb.publishing_eq, hb.subscriptions_eq⟩
  account := by
    rw [hjournal, ← h.account]
    simp only [heardOrQueued, hearings, hbus, hseen]

/-- Nothing has been published, and no end has been come to. -/
theorem of_unheard (h : Accounts handler w) {cs : List Call} {ds : List Deed} (hu : Unheard w ds cs w')
    (hds : endings ds = 0) : Accounts handler w' where
  listening := by
    obtain ⟨b, hb⟩ := h.listening
    exact ⟨b, hu.bus_eq.trans hb.bus_eq, hb.publishing_eq, hb.subscriptions_eq⟩
  account := by
    rw [hu.journal_eq, endings_append, hds, Nat.zero_add, ← h.account]
    simp only [heardOrQueued, hu.bus_eq, hu.hearings_eq]

/-- The stage before the last event was published is one end ahead if it is an end, and publishing makes up for it
    (`endCount`). -/
theorem publish (hreact : ReactionsSpare handler react) {b : Bus Notice} (hb : Listening handler w b)
    {event : SessionEvent} (h : w.heardOrQueued handler + endCount event = endings w.journal) :
    Accounts handler (w.publish react event) := by
  obtain ⟨hlistening, hcount⟩ := hb.publish hreact event
  obtain ⟨asides, hasides, hrecords⟩ := (Aside.publish react w event).records
  refine ⟨hlistening, ?_⟩
  rw [hcount, h, hrecords.journal_eq, endings_append, endings_asides hasides, Nat.zero_add]

/-- The same for an event from the queue, which does not wait any longer. -/
theorem deliver (hreact : ReactionsSpare handler react) {b : Bus Notice} (hb : Listening handler w b)
    {event : SessionEvent} (h : w.heardOrQueued handler + endCount event = endings w.journal) :
    Accounts handler (w.deliver react event) := by
  obtain ⟨hlistening, hcount⟩ := hb.deliver hreact event
  obtain ⟨asides, hasides, hrecords⟩ := (Aside.deliver react w event).records
  refine ⟨hlistening, ?_⟩
  rw [hcount, h, hrecords.journal_eq, endings_append, endings_asides hasides, Nat.zero_add]

/-- An act that spares the handler (`spares`). -/
theorem carryOut (h : Accounts handler w) (hreact : ReactionsSpare handler react) {act : Act}
    (hact : act.spares handler = true) : Accounts handler (w.carryOut react act).1 := by
  obtain ⟨b, hb⟩ := h.listening
  obtain ⟨hlistening, hcount⟩ := hb.carryOut hreact hact
  obtain ⟨asides, hasides, hrecords⟩ := (Aside.carryOut react w act).records
  refine ⟨hlistening, ?_⟩
  rw [hcount, h.account, hrecords.journal_eq, endings_append, endings_asides hasides, Nat.zero_add]

/-- A stride publishes an end when it records one (`Plays.endings_eq`), and its calls and other deeds do not count. -/
theorem strides (h : Accounts handler w) (hreact : ReactionsSpare handler react) {u : Stage} {chain number : Nat}
    {group : Option Nat} {failure : Option Failure} {frame : Frame} {rest : List Frame} {t : Stride} {s : Session}
    (hplays : Plays react s number group chain failure frame t) (hstrides : Strides react w chain rest t u w') :
    Accounts handler w' := by
  obtain ⟨b, hb⟩ := h.listening
  have hu := hstrides.unheard
  have hlistening : Listening handler u b := ⟨hu.bus_eq.trans hb.bus_eq, hb.publishing_eq, hb.subscriptions_eq⟩
  have hsame : u.heardOrQueued handler = w.heardOrQueued handler := by
    simp only [heardOrQueued, hu.bus_eq, hu.hearings_eq]
  -- the end that the stride comes to is the event that it publishes
  have hcount : u.heardOrQueued handler + t.event.elim 0 endCount = endings u.journal := by
    rw [hu.journal_eq, endings_append, hplays.endings_eq, hsame, h.account, Nat.add_comm]
  have hpublished : Accounts handler (u.publish? react t.event) := by
    cases he : t.event with
    | none =>
      rw [he] at hcount
      exact ⟨⟨b, hlistening⟩, hcount⟩
    | some event =>
      rw [he] at hcount
      exact publish hreact hlistening hcount
  rw [hstrides.result_eq]
  exact hpublished.congr rfl rfl rfl

/-- A step, by its cases (`Stepped`): a delivery, a stride, an act of a reaction, or turns. -/
theorem stepped (h : Accounts handler w) (hreact : ReactionsSpare handler react)
    (hframes : w.gear.Every (Frame.ActsAre fun act => act.spares handler = true)) (hstep : Stepped react w w') :
    Accounts handler w' := by
  cases hstep with
  | @delivers b event queue hbus hqueue =>
    obtain ⟨b', hb'⟩ := h.listening
    have hsame : b' = b := Option.some.inj (hb'.bus_eq.symm.trans hbus)
    rw [hsame] at hb'
    refine deliver (b := { b with queue }) hreact ⟨rfl, hb'.publishing_eq, hb'.subscriptions_eq⟩ ?_
    -- the event has left the queue and is about to be heard
    have haccount := h.account
    simp only [heardOrQueued, hbus, Option.elim_some, Bus.endsQueued, hqueue, List.countP_cons,
      decide_eq_true_eq] at haccount
    rw [← Nat.add_assoc] at haccount
    exact haccount
  | strides hactive hchain hplays hstrides => exact h.strides hreact hplays hstrides
  | @acts w' chain act acts rest failure hactive hchain hact =>
    obtain ⟨c, hc, hcons⟩ := framesOf_eq_some hchain
    have hspares : Frame.ActsAre (fun act => act.spares handler = true) (.acts (act :: acts)) :=
      hframes c (List.mem_of_getElem? hc) _ (hcons ▸ List.mem_cons_self)
    have hstill : Accounts handler ({ w with active := none }.setFrames chain (.acts acts :: rest)) :=
      h.congr rfl rfl rfl
    have hdone := hstill.carryOut hreact (hspares act List.mem_cons_self)
    rw [hact] at hdone
    exact hdone.congr rfl rfl rfl
  | ends hactive hchain =>
    simp only [finish]
    split <;> exact h.congr rfl rfl rfl
  | strays | resumes | fires => exact h.congr rfl rfl rfl
  | counts hactive hready =>
    simp only [memberOver]
    split
    · exact h.congr rfl rfl rfl
    · split <;> exact h.congr rfl rfl rfl

/-- Every move that spares the handler keeps the account (`Accounts`), one case for each kind of move. -/
theorem makes (h : Accounts handler w) (hreact : ReactionsSpare handler react)
    (hframes : w.gear.Every (Frame.ActsAre fun act => act.spares handler = true)) {m : Move} (hm : m.Spares handler)
    (hmakes : Makes react w m w') :
    Accounts handler w' := by
  -- loading and setting up have in common that they publish an event that is no end
  have hloads : ∀ {u : Stage} {ds : List Deed} {event : SessionEvent}, Unheard w ds [] u → endings ds = 0 →
      event.topic ≠ .chatEnded → Accounts handler (u.publish react event) := by
    intro u ds event hu hds hevent
    have hsame := h.of_unheard hu hds
    obtain ⟨b, hb⟩ := hsame.listening
    refine publish hreact hb ?_
    rw [hsame.account, endCount, if_neg hevent, Nat.add_zero]
  cases hmakes with
  | step hstep => exact h.stepped hreact hframes (step_cases hstep)
  | tick htick =>
    obtain ⟨t, timers, -, -, rfl⟩ := tick_eq_some htick
    exact h.congr rfl rfl rfl
  | interrupt | strike | spawn => exact h.congr rfl rfl rfl
  | act act => exact h.carryOut hreact hm
  | @load script hread =>
    have hload : Unheard w [.load script] [] (w.record (.load script)) := .record w (by simp)
    exact hloads (hload.trans (.log _ _ _)) rfl (by simp [Stage.load])
  | @setup text source u event hsetup =>
    obtain ⟨deeds, hdeeds, hu, hevent⟩ := unheard_setup w text source
    rw [hsetup] at hu hevent
    exact hloads hu (endings_asides hdeeds) (hevent event rfl)
  | @refuse text source u e hsetup =>
    obtain ⟨deeds, hdeeds, hu, -⟩ := unheard_setup w text source
    rw [hsetup] at hu
    exact h.of_unheard hu (endings_asides hdeeds)
  | touch context => exact h.of_unheard (.touch w context) rfl

end Accounts

/-- A handler with one subscription from the start, that nobody interferes with, has heard or will hear of every end. -/
theorem hears_of_ends {w₀ : Stage} (h₀ : w₀.Fresh) {b : Bus Notice} (hb : Listening handler w₀ b)
    (hqueue : w₀.heardOrQueued handler = 0) (hreact : ReactionsSpare handler react)
    (h : ReachesBy (Move.Spares handler) react w₀ w) : w.heardOrQueued handler = endings w.journal := by
  have hinvariant : Accounts handler w ∧ w.gear.Every (Frame.ActsAre fun act => act.spares handler = true) := by
    induction h with
    | refl =>
      refine ⟨⟨⟨b, hb⟩, ?_⟩, ?_⟩
      · rw [hqueue, h₀.journal_eq]
        rfl
      · rw [h₀.gear_eq]
        intro c hc
        cases hc
    | tail _ hnext ih =>
      obtain ⟨m, hm, hmakes⟩ := hnext
      exact ⟨ih.1.makes hreact ih.2 hm hmakes, hmakes.change.every (lasting_actsAre fun cue n _ => hreact cue n) ih.2⟩
  exact hinvariant.1.account

end Stage

end ChatScene

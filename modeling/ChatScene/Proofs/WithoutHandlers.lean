/-
  Stages without what handlers leave on them.

  A handler of the bus may fail, take notes and use the bus, and may publish events of its own.  As long as it leaves
  the session, the listener and the settings alone (`HandlersLeaveSession`), nothing else can tell that it is there.

  1. **Stages without handlers** — `Stage.withoutHandlers` takes away the bus and all that handlers leave behind: what
     they note, what is logged of them, and how often they have been called.  The calls to the listener stay
     (`Stage.calls_withoutHandlers`).

  2. **Handlers that leave the session alone** — acts (`Act.leavesSession`), reactions, calls of a handler and whole
     deliveries, each by the one before: `Stage.withoutHandlers_deliver` and `Stage.withoutHandlers_publish` say that
     nothing of a delivery shows without the handlers.

  3. **Deliveries that come to an end** — what is published is delivered before anything else goes on.  Where the queue
     is worked off in finitely many steps (`Stage.Drains`), a stage gets to the point where nothing is queued, and is
     otherwise the same as before (`Stage.Drains.settles`).

  4. **Handlers that publish nothing** (`Stage.HandlersPublishNothing`) — then every delivery takes one event off the
     queue and puts none on it, so every queue is worked off: `HandlersLeaveSession.drains`.
-/
import ChatScene.Proofs.Hosting
import ChatScene.Proofs.Table

namespace ChatScene

/-! ## Calls to the listener -/

/-- What a listener is told. -/
inductive Call where
  /-- A text, an image or a choice is shown. -/
  | shown (c : Command)
  /-- The scene has ended. -/
  | ended

/-- The call that is seen, if it is one. -/
def Moment.call? : Moment → Option Call
  | .shown c _ => some (.shown c)
  | .ended _ => some .ended
  | _ => none

/-- All calls to the listener so far, in the order in which they began. -/
def Stage.calls (w : Stage) : List Call := w.seen.reverse.filterMap Moment.call?

/-- One more moment is one more call, if it is a call (`Moment.call?`). -/
theorem Stage.calls_see (w : Stage) (m : Moment) : (w.see m).calls = w.calls ++ m.call?.toList := by
  cases hm : m.call? <;> simp [Stage.calls, Stage.see, hm]

/-! ## Stages without handlers -/

/-- A cue that handlers react to. -/
def Cue.isHeard : Cue → Bool
  | .heard _ _ => true
  | _ => false

/-- The stage without its bus and without what handlers leave on it.  Of what has been seen the calls to the listener
    stay, of the cues those of the listener. -/
def Stage.withoutHandlers (w : Stage) : Stage :=
  { w with bus := none, fired := w.fired.filter (!·.1.isHeard), seen := w.seen.filter (·.call?.isSome) }

namespace Stage

/-- The calls to the listener are on the stage without handlers, since `withoutHandlers` keeps every moment that is a
    call. -/
theorem calls_withoutHandlers (w : Stage) : w.withoutHandlers.calls = w.calls := by
  simp only [calls, withoutHandlers, ← List.filter_reverse]
  rw [List.filterMap_filter]
  congr 1
  funext m
  cases m.call? <;> rfl

/-- A moment that is no call to the listener does not show. -/
theorem withoutHandlers_see (w : Stage) {m : Moment} (hm : m.call? = none) :
    (w.see m).withoutHandlers = w.withoutHandlers := by
  simp [withoutHandlers, see, hm]

theorem withoutHandlers_logAll (w : Stage) (lines : List LogLine) :
    (w.logAll lines).withoutHandlers = w.withoutHandlers := by
  unfold logAll
  induction lines generalizing w with
  | nil => rfl
  | cons line lines ih => exact (ih _).trans (w.withoutHandlers_see rfl)

/-- Not even the number of times that a handler has been called (`countCue`) shows.  The count of a cue replaces its
    old count, and both are taken away. -/
theorem withoutHandlers_countCue (w : Stage) {cue : Cue} (hcue : cue.isHeard = true) :
    (w.countCue cue).withoutHandlers = w.withoutHandlers := by
  -- the cue is one of a handler, so it is of no account whether its old count is taken out first
  have hfilter : (w.fired.filter (·.1 ≠ cue)).filter (!·.1.isHeard) = w.fired.filter (!·.1.isHeard) := by
    rw [List.filter_filter]
    refine List.filter_congr fun entry _ => ?_
    by_cases heq : entry.1 = cue
    · simp [heq, hcue]
    · simp [heq]
  simp only [withoutHandlers, countCue, List.filter_cons, hcue, Bool.not_true, Bool.false_eq_true, if_false, hfilter]

end Stage

/-! ## Handlers that leave the session alone -/

/-- An act that leaves the session alone.  It may fail. -/
def Act.leavesSession : Act → Bool
  | .sleep _ | .view | .note _ | .fail _ | .subscribe _ _ | .unsubscribe _ _ | .clear _ | .publish _ => true
  | _ => false

/-- Handlers all acts of which leave the session alone, whatever they are called with. -/
def HandlersLeaveSession (react : Reactions) : Prop :=
  ∀ handler topic n, ∀ act ∈ react (.heard handler topic) n, act.leavesSession = true

namespace Stage

variable {react : Reactions}

/-- An act that leaves the session alone changes the bus and the moments only. -/
theorem withoutHandlers_perform (w : Stage) {act : Act} (hact : act.leavesSession = true) :
    (w.perform act).stage.withoutHandlers = w.withoutHandlers := by
  cases act with
  | view | note => exact w.withoutHandlers_see rfl
  | sleep | fail | subscribe | unsubscribe | clear | publish => rfl
  | advance | setVariable | setup | loadCompiled | nextBeat | attach | assign => cases hact

/-- The same for the acts of one reaction, as far as none of them fails. -/
theorem withoutHandlers_performAll {acts : List Act} (hacts : ∀ act ∈ acts, act.leavesSession = true) (w : Stage) :
    (performAll acts w).1.withoutHandlers = w.withoutHandlers := by
  induction acts generalizing w with
  | nil => rfl
  | cons act acts ih =>
    have hperform := w.withoutHandlers_perform (hacts act List.mem_cons_self)
    have hqueued : ((w.perform act).event.elim (w.perform act).stage fun e =>
        (w.perform act).stage.editBus (·.enqueue e)).withoutHandlers = w.withoutHandlers := by
      cases (w.perform act).event <;> exact hperform
    simp only [performAll]
    cases (w.perform act).failure with
    | some failure => exact hqueued
    | none => exact (ih (fun act hact => hacts act (List.mem_cons_of_mem _ hact)) _).trans hqueued

/-- The call of a handler: it is seen, it is counted, and then the handler acts; nothing of this shows. -/
theorem withoutHandlers_callHandler (hhandlers : HandlersLeaveSession react) (w : Stage) (handler : Nat)
    (event : SessionEvent)
    (b : Bus Notice) : (callHandler react handler event b w).2.1.withoutHandlers = w.withoutHandlers := by
  let cue := Cue.heard handler event.topic
  let heard := { w with bus := some b }.see (.heard handler event)
  calc (performAll (react cue (w.timesFired cue)) (heard.countCue cue)).1.withoutHandlers
    _ = (heard.countCue cue).withoutHandlers := withoutHandlers_performAll (hhandlers handler event.topic _) _
    _ = heard.withoutHandlers := heard.withoutHandlers_countCue rfl
    _ = w.withoutHandlers := withoutHandlers_see _ rfl

/-- A delivery to handlers that leave the session alone does not show without the handlers. -/
theorem withoutHandlers_deliver (hhandlers : HandlersLeaveSession react) (w : Stage) (event : SessionEvent) :
    (w.deliver react event).withoutHandlers = w.withoutHandlers := by
  unfold deliver
  split
  · rfl
  · exact Bus.deliver_keeps (P := fun _ rest => rest.withoutHandlers = w.withoutHandlers) (audience react) event
      (fun handler b rest hrest => (withoutHandlers_callHandler hhandlers rest handler event b).trans hrest)
      (fun _ rest hrest => (rest.withoutHandlers_see rfl).trans hrest) _ rfl

/-- Publishing is a delivery, or puts an event on a queue, which is part of the bus. -/
theorem withoutHandlers_publish (hhandlers : HandlersLeaveSession react) (w : Stage) (event : SessionEvent) :
    (w.publish react event).withoutHandlers = w.withoutHandlers := by
  unfold publish
  split
  · rfl
  · split
    · rfl
    · exact withoutHandlers_deliver hhandlers _ event

/-! ## Deliveries that come to an end -/

variable {w v : Stage}

/-- What is queued on the bus is delivered in finitely many steps. -/
inductive Drains (react : Reactions) : Stage → Prop where
  | empty {w : Stage} : w.nextEvent? = none → Drains react w
  | next {w v : Stage} {event : SessionEvent} :
      w.nextEvent? = some (event, v) → Drains react (v.deliver react event) → Drains react w

/-- The queue is part of the bus, so taking an event off it does not show. -/
theorem nextEvent_withoutHandlers {event : SessionEvent} (h : w.nextEvent? = some (event, v)) :
    v.withoutHandlers = w.withoutHandlers := by
  unfold nextEvent? at h
  split at h
  · split at h
    · cases h
      rfl
    · cases h
  · cases h

/-- Where an event is queued (`nextEvent?`) the next step is its delivery, and this does not show. -/
theorem step_delivers (hhandlers : HandlersLeaveSession react) {event : SessionEvent}
    (h : w.nextEvent? = some (event, v)) :
    w.step react = some (v.deliver react event) ∧ (v.deliver react event).withoutHandlers = w.withoutHandlers := by
  refine ⟨?_, (withoutHandlers_deliver hhandlers v event).trans (nextEvent_withoutHandlers h)⟩
  simp [Stage.step, h]

/-- A queue that is worked off (`Drains`) leads, by steps that do not show, to a stage where nothing is queued. -/
theorem Drains.settles (h : Drains react w) (hhandlers : HandlersLeaveSession react) :
    ∃ v, Stepping react w v ∧ v.withoutHandlers = w.withoutHandlers ∧ v.nextEvent? = none := by
  -- on the events that are delivered
  induction h with
  | empty hempty => exact ⟨_, .refl, rfl, hempty⟩
  | next hnext _ ih =>
    obtain ⟨v, hsteps, hwithout, hempty⟩ := ih
    obtain ⟨hstep, hsame⟩ := step_delivers hhandlers hnext
    exact ⟨v, .head hstep hsteps, hwithout.trans hsame, hempty⟩

/-! ## Handlers that publish nothing -/

/-- Handlers that publish nothing themselves. -/
def HandlersPublishNothing (react : Reactions) : Prop :=
  ∀ handler topic n, ∀ act ∈ react (.heard handler topic) n, ∀ event, act ≠ .publish event

/-- What waits on the bus, if there is one. -/
def queue? (w : Stage) : Option (List SessionEvent) := w.bus.map Bus.queue

/-- An act that leaves the session alone and publishes nothing leaves the queue as it is. -/
theorem queue_perform (w : Stage) {act : Act} (hact : act.leavesSession = true)
    (hnothing : ∀ event, act ≠ .publish event) :
    (w.perform act).stage.queue? = w.queue? ∧ (w.perform act).event = none := by
  have hedit : ∀ edit : Bus Notice → Bus Notice, (∀ b, (edit b).queue = b.queue) →
      (w.editBus edit).queue? = w.queue? := by
    intro edit hsame
    simp only [queue?, Stage.editBus, Option.map_map]
    congr 1
    exact funext hsame
  cases act with
  | publish event => exact absurd rfl (hnothing event)
  | sleep | view | note | fail => exact ⟨rfl, rfl⟩
  | subscribe topic entry => exact ⟨hedit _ fun b => (b.edited_subscribe topic entry).queue_eq, rfl⟩
  | unsubscribe topic handler => exact ⟨hedit _ fun b => (b.edited_unsubscribe topic handler).queue_eq, rfl⟩
  | clear topic => exact ⟨hedit _ fun b => (b.edited_clear topic).queue_eq, rfl⟩
  | advance | setVariable | setup | loadCompiled | nextBeat | attach | assign => cases hact

/-- The same for the acts of one reaction: none of them has an event to put on the queue. -/
theorem queue_performAll {acts : List Act} (hacts : ∀ act ∈ acts, act.leavesSession = true)
    (hnothing : ∀ act ∈ acts, ∀ event, act ≠ .publish event) (w : Stage) :
    (performAll acts w).1.queue? = w.queue? := by
  induction acts generalizing w with
  | nil => rfl
  | cons act acts ih =>
    obtain ⟨hqueue, hevent⟩ := queue_perform w (hacts act List.mem_cons_self) (hnothing act List.mem_cons_self)
    simp only [performAll, hevent, Option.elim_none]
    cases (w.perform act).failure with
    | some failure => exact hqueue
    | none =>
      have hrest := ih (fun a ha => hacts a (List.mem_cons_of_mem act ha))
        (fun a ha => hnothing a (List.mem_cons_of_mem act ha)) (w.perform act).stage
      exact hrest.trans hqueue

/-- A handler leaves the `queue` that it finds. -/
theorem queue_callHandler (hhandlers : HandlersLeaveSession react) (hnothing : HandlersPublishNothing react)
    (w : Stage) (handler : Nat)
    (event : SessionEvent) (b : Bus Notice) : (callHandler react handler event b w).1.queue = b.queue := by
  let cue := Cue.heard handler event.topic
  have hperform := queue_performAll (hhandlers handler event.topic (w.timesFired cue))
    (hnothing handler event.topic (w.timesFired cue))
    (({ w with bus := some b }.see (.heard handler event)).countCue cue)
  obtain ⟨b', hbus, hqueue⟩ := Option.map_eq_some_iff.mp hperform
  have hcall : (callHandler react handler event b w).1 = (performAll (react cue (w.timesFired cue))
      (({ w with bus := some b }.see (.heard handler event)).countCue cue)).1.bus.getD b := rfl
  rw [hcall, hbus]
  exact hqueue

/-- A delivery leaves the queue that it finds, because every call of a handler does (`queue_callHandler`). -/
theorem queue_deliver (hhandlers : HandlersLeaveSession react) (hnothing : HandlersPublishNothing react) (w : Stage)
    (event : SessionEvent) :
    (w.deliver react event).queue? = w.queue? := by
  unfold Stage.deliver
  split
  · rfl
  · rename_i b hb
    have hdeliver : (Bus.deliver (audience react) event b w).1.queue = b.queue :=
      Bus.deliver_keeps (P := fun queue (_ : Stage) => queue = b.queue) (audience react) event
        (fun handler b' rest hb' => (queue_callHandler hhandlers hnothing rest handler event b').trans hb')
        (fun _ _ h => h) b rfl
    simpa [queue?, hb] using hdeliver

end Stage

/-- Where handlers leave the session alone and publish nothing, every publish comes to an end. -/
theorem HandlersLeaveSession.drains {react : Reactions} (hhandlers : HandlersLeaveSession react)
    (hnothing : Stage.HandlersPublishNothing react) (w : Stage) :
    Stage.Drains react w := by
  cases hbus : w.bus with
  | none => exact .empty (by simp [Stage.nextEvent?, hbus])
  | some b =>
    -- a delivery takes one event off the queue and puts none on it
    induction hq : b.queue generalizing w b with
    | nil => exact .empty (by simp [Stage.nextEvent?, hbus, hq])
    | cons event queue ih =>
      have hnext : w.nextEvent? = some (event, { w with bus := some { b with queue } }) := by
        simp [Stage.nextEvent?, hbus, hq]
      refine .next hnext ?_
      have hqueue := Stage.queue_deliver hhandlers hnothing { w with bus := some { b with queue } } event
      obtain ⟨b', hb', hsame⟩ := Option.map_eq_some_iff.mp hqueue
      exact ih _ b' hb' hsame

end ChatScene

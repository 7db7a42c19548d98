/-
  The order of events on a bus.

  While a delivery is going on, handlers can do no more than edit the lists of subscriptions and put events on the
  queue: whatever they publish waits.  So calls of handlers never lie inside one another, and deliveries follow each
  other as the events were published.

  1. **Marks** — the history of a publish is told by the marks that it leaves on the trail.  `Dispatch.marks` are those
     of a delivery that goes through its calls one after the other.

  2. **Handlers** — `Meddles` is what handlers can do to the bus while a delivery is going on: the marks that they leave
     begin no delivery and no call.  Surroundings are `Meddling` if all their handlers are like that.

  3. **Deliveries** — in such surroundings a delivery leaves just the marks of a `Dispatch`, apart from those of its
     handlers (`adds_deliver`).

  4. **Histories** — the marks since a publish began fall into rounds, one for each event, and what has been published
     at any moment is what has been dispatched, followed by what waits (`History`).  One delivery more keeps this
     (`History.deliver`), and so does emptying the queue (`History.drain`).

  5. **Workshops** — the handlers that are made of deeds meddle and no more (`meddling_workshop`), whichever way they
     publish.

  The main result is `events_in_order`, for every outermost publish that comes to its end.
-/
import ChatScene.Bus.Handler
import ChatScene.Proofs.Table

namespace ChatScene

variable {ε β : Type}

/-! ## Reading the trail -/

/-- The event that is published. -/
def Mark.published? : Mark ε → Option (Event ε)
  | .published event => some event
  | _ => none

/-- The event whose delivery begins. -/
def Mark.dispatched? : Mark ε → Option (Event ε)
  | .dispatched event => some event
  | _ => none

/-- A mark of deliveries and calls. -/
def Mark.isActivity : Mark ε → Bool
  | .dispatched _ | .begins _ _ | .ends _ _ => true
  | _ => false

namespace Bus

/-- A delivery: the event, and the handlers that are called with it. -/
structure Dispatch (ε : Type) where
  event : Event ε
  handlers : List Nat

/-- `callMarks event handlers` — calls of handlers with an event, one after the other: each is over before the next
    begins. -/
def callMarks (event : Event ε) (handlers : List Nat) : List (Mark ε) :=
  handlers.flatMap fun handler => [.begins handler event, .ends handler event]

/-- The marks of a delivery that goes through its calls one after the other. -/
def Dispatch.marks (r : Dispatch ε) : List (Mark ε) := .dispatched r.event :: callMarks r.event r.handlers

/-- The calls of one list and then of the other. -/
theorem callMarks_append (event : Event ε) (hs ks : List Nat) :
    callMarks event (hs ++ ks) = callMarks event hs ++ callMarks event ks := List.flatMap_append

theorem dispatched_callMarks (event : Event ε) (hs : List Nat) :
    (callMarks event hs).filterMap Mark.dispatched? = [] := by
  induction hs with
  | nil => rfl
  | cons h hs ih => exact ih

theorem dispatched_rounds (rounds : List (Dispatch ε)) :
    (rounds.flatMap Dispatch.marks).filterMap Mark.dispatched? = rounds.map Dispatch.event := by
  induction rounds with
  | nil => rfl
  | cons r rounds ih =>
    rw [List.flatMap_cons, List.filterMap_append, ih]
    show r.event :: (callMarks r.event r.handlers).filterMap Mark.dispatched? ++ rounds.map Dispatch.event = _
    rw [dispatched_callMarks]
    rfl

theorem dispatched_activity (marks : List (Mark ε)) :
    (marks.filter Mark.isActivity).filterMap Mark.dispatched? = marks.filterMap Mark.dispatched? := by
  rw [List.filterMap_filter]
  congr 1
  funext m
  cases m <;> rfl

/-! ## What is added to a bus -/

/-- `b.Adds marks b'` — marks have been left on the trail, and the events that they publish have been put
    on the queue. -/
structure Adds (marks : List (Mark ε)) (b b' : Bus ε) : Prop where
  trail_eq : b'.trail = marks.reverse ++ b.trail
  queue_eq : b'.queue = b.queue ++ marks.filterMap Mark.published?
  publishing_eq : b'.publishing = b.publishing

namespace Adds

variable {marks more : List (Mark ε)} {b b' b'' : Bus ε}

theorem refl (b : Bus ε) : Adds [] b b := ⟨rfl, by simp, rfl⟩

/-- Marks one after the other, and the events that they publish. -/
theorem trans (h : Adds marks b b') (h' : Adds more b' b'') : Adds (marks ++ more) b b'' := by
  constructor
  · rw [h'.trail_eq, h.trail_eq, List.reverse_append, List.append_assoc]
  · rw [h'.queue_eq, h.queue_eq, List.filterMap_append, List.append_assoc]
  · rw [h'.publishing_eq, h.publishing_eq]

/-- An edit of the subscriptions leaves one mark and the queue as it is. -/
theorem edited {m : Mark ε} (h : Edited m b b') (hm : m.published? = none) : Adds [m] b b' := by
  constructor
  · rw [h.trail_eq]
    rfl
  · rw [h.queue_eq]
    simp [hm]
  · exact h.publishing_eq

theorem mark (b : Bus ε) {m : Mark ε} (hm : m.published? = none) : Adds [m] b (b.mark m) :=
  edited ⟨rfl, rfl, rfl⟩ hm

theorem enqueue (b : Bus ε) (event : Event ε) : Adds [.published event] b (b.enqueue event) := ⟨rfl, rfl, rfl⟩

end Adds

/-- `b.Meddles b'` — what handlers add while a delivery is going on: no delivery and no call of theirs. -/
def Meddles (b b' : Bus ε) : Prop := ∃ marks, Adds marks b b' ∧ marks.filter Mark.isActivity = []

theorem Meddles.refl (b : Bus ε) : Meddles b b := ⟨[], .refl b, rfl⟩

theorem Meddles.trans {b b' b'' : Bus ε} (h : Meddles b b') (h' : Meddles b' b'') : Meddles b b'' := by
  obtain ⟨marks, hadds, hinactive⟩ := h
  obtain ⟨more, hadds', hinactive'⟩ := h'
  exact ⟨marks ++ more, hadds.trans hadds', by rw [List.filter_append, hinactive, hinactive']; rfl⟩

theorem Meddles.edited {m : Mark ε} {b b' : Bus ε} (h : Edited m b b') (hm : m.published? = none)
    (hactivity : m.isActivity = false) : Meddles b b' := ⟨[m], .edited h hm, by simp [hactivity]⟩

/-- Surroundings whose handlers only meddle while a delivery is going on. -/
def Surroundings.Meddling (s : Surroundings ε β) : Prop :=
  ∀ handler event b rest, b.publishing = true → Meddles b (s.call handler event b rest).1

/-! ## One delivery -/

section Delivery

variable {s : Surroundings ε β} (hs : s.Meddling) (event : Event ε)

include hs

/-- The turn of a subscription (`Delivery.visit`): its handler is called if it is alive, and what the handler adds has
    no part in deliveries and calls. -/
theorem adds_visit {d : Delivery ε β} (hpublishing : d.bus.publishing = true) (e : Entry) :
    ∃ marks, Adds marks d.bus (d.visit s event e).bus ∧
      marks.filter Mark.isActivity = callMarks event (if d.alive s e.handler then [e.handler] else []) := by
  unfold Delivery.visit
  split
  · -- the call lies between its two marks
    obtain ⟨marks, hadds, hinactive⟩ := hs e.handler event (d.bus.mark (.begins e.handler event)) d.rest hpublishing
    generalize s.call e.handler event (d.bus.mark (.begins e.handler event)) d.rest = result at hadds
    obtain ⟨bus, rest, ending⟩ := result
    have hcall : Adds ([.begins e.handler event] ++ marks ++ [.ends e.handler event]) d.bus
        (bus.mark (.ends e.handler event)) := ((Adds.mark d.bus rfl).trans hadds).trans (Adds.mark bus rfl)
    refine ⟨[.begins e.handler event] ++ marks ++ [.ends e.handler event], ?_, ?_⟩
    · cases ending <;> exact hcall
    · rw [List.filter_append, List.filter_append, hinactive]
      rfl
  · exact ⟨[], .refl _, rfl⟩

/-- The turns of all subscriptions, one after the other. -/
theorem adds_visitAll {d : Delivery ε β} (hpublishing : d.bus.publishing = true) (es : List Entry) :
    ∃ marks called, Adds marks d.bus (d.visitAll s event es).bus ∧
      marks.filter Mark.isActivity = callMarks event called := by
  induction es generalizing d with
  | nil => exact ⟨[], [], .refl _, rfl⟩
  | cons e es ih =>
    obtain ⟨marks, hadds, hactivity⟩ := adds_visit hs event hpublishing e
    simp only [Delivery.visitAll]
    split
    · exact ⟨marks, _, hadds, hactivity⟩
    · obtain ⟨more, later, hadds', hactivity'⟩ := ih (hadds.publishing_eq.trans hpublishing)
      refine ⟨marks ++ more, (if d.alive s e.handler then [e.handler] else []) ++ later, hadds.trans hadds', ?_⟩
      rw [List.filter_append, hactivity, hactivity', callMarks_append]

/-- A delivery leaves its own mark and those of its calls (`Dispatch.marks`), one after the other. -/
theorem adds_deliver {b : Bus ε} (hidle : b.publishing = false) (rest : β) :
    ∃ marks called, Adds marks b (deliver s event b rest).1 ∧
      marks.filter Mark.isActivity = Dispatch.marks ⟨event, called⟩ := by
  simp only [deliver]
  split
  · exact ⟨[.dispatched event], [], .mark b rfl, rfl⟩
  · -- subscriptions are taken from the bus once, when the delivery begins
    let d : Delivery ε β := { bus := (b.mark (.dispatched event)).openList event.topic, rest }
    obtain ⟨marks, called, hadds, hactivity⟩ :=
      adds_visitAll hs event (d := d) rfl ((b.mark (.dispatched event)).entries event.topic)
    refine ⟨.dispatched event :: marks, called, ⟨?_, ?_, hidle.symm⟩, ?_⟩
    · have htrail := hadds.trail_eq
      simp only [Delivery.close]
      rw [List.reverse_cons, List.append_assoc]
      split <;> exact htrail
    · have hqueue := hadds.queue_eq
      simp only [Delivery.close]
      split <;> exact hqueue
    · show Mark.dispatched event :: marks.filter Mark.isActivity = _
      rw [hactivity]
      rfl

end Delivery

/-! ## One delivery after the other -/

/-- Nothing is dispatched before it has been published, and nothing overtakes. -/
def Timely (marks : List (Mark ε)) : Prop :=
  ∀ sofar, sofar <+: marks → sofar.filterMap Mark.dispatched? <+: sofar.filterMap Mark.published?

/-- What follows is in time (`Timely`) if all that it dispatches had been published before it began. -/
theorem Timely.append {marks more : List (Mark ε)} (h : Timely marks)
    (hmore : (marks ++ more).filterMap Mark.dispatched? <+: marks.filterMap Mark.published?) :
    Timely (marks ++ more) := by
  intro sofar hsofar
  obtain ⟨left, heq⟩ := id hsofar
  rcases List.append_eq_append_iff.mp heq with ⟨part, hpart, -⟩ | ⟨part, rfl, -⟩
  · exact h sofar ⟨part, hpart.symm⟩
  · -- the part that follows dispatches no more than all that follows
    have hdispatched : (marks ++ part).filterMap Mark.dispatched? <+: (marks ++ more).filterMap Mark.dispatched? :=
      hsofar.filterMap _
    have hpublished : marks.filterMap Mark.published? <+: (marks ++ part).filterMap Mark.published? :=
      (List.prefix_append marks part).filterMap _
    exact (hdispatched.trans hmore).trans hpublished

/-- `start.History marks rounds b` — the history of a publish up to a moment between deliveries: the marks since it
    began fall into rounds, and what has been published is what has been dispatched, followed by what waits. -/
structure History (start : Bus ε) (marks : List (Mark ε)) (rounds : List (Dispatch ε)) (b : Bus ε) : Prop where
  trail_eq : b.trail = marks.reverse ++ start.trail
  activity_eq : marks.filter Mark.isActivity = rounds.flatMap Dispatch.marks
  published_eq : marks.filterMap Mark.published? = rounds.map Dispatch.event ++ b.queue
  timely : Timely marks
  idle : b.publishing = false

theorem History.dispatched_eq {start b : Bus ε} {marks : List (Mark ε)} {rounds : List (Dispatch ε)}
    (h : History start marks rounds b) : marks.filterMap Mark.dispatched? = rounds.map Dispatch.event := by
  rw [← dispatched_activity, h.activity_eq, dispatched_rounds]

/-- What every delivery keeps is kept until the `queue` is empty, or until a delivery is aborted.  The induction is on
    the fuel. -/
theorem drain_keeps {s : Surroundings ε β} {P : Bus ε → β → Prop}
    (hnext : ∀ b rest event queue, P b rest → b.queue = event :: queue →
      P (deliver s event { b with queue } rest).1 (deliver s event { b with queue } rest).2.1)
    {fuel : Nat} {b b' : Bus ε} {rest rest' : β} {aborted : Option String} (h : P b rest)
    (hdrain : drain s fuel b rest = some (b', rest', aborted)) : P b' rest' ∧ (aborted = none → b'.queue = []) := by
  induction fuel generalizing b rest with
  | zero =>
    unfold drain at hdrain
    split at hdrain
    · rename_i hempty
      cases hdrain
      exact ⟨h, fun _ => hempty⟩
    · cases hdrain
  | succ fuel ih =>
    unfold drain at hdrain
    split at hdrain
    · rename_i hempty
      cases hdrain
      exact ⟨h, fun _ => hempty⟩
    · -- the next event is delivered, and the rest of the queue is by induction unless it was aborted
      rename_i event queue hqueue
      have hfirst := hnext b rest event queue h hqueue
      simp only at hdrain
      generalize deliver s event { b with queue } rest = result at hdrain hfirst
      obtain ⟨b₁, rest₁, stop⟩ := result
      cases stop with
      | none => exact ih hfirst hdrain
      | some text =>
        cases hdrain
        exact ⟨hfirst, fun hnone => by cases hnone⟩

/-! ## The three ways of publishing -/

section Ways

variable (s : Surroundings ε β) (fuel : Nat) {event : Event ε} {b : Bus ε} (rest : β)

theorem publish_busy (hbusy : b.publishing = true) :
    publish s fuel event b rest = some (b.enqueue event, rest, none) := by
  simp only [publish, hbusy, if_true]

/-- An event that nobody has subscribed to is published and dispatched at once. -/
theorem publish_unheard (hidle : b.publishing = false) (hnone : b.entries event.topic = []) :
    publish s fuel event b rest = some ((b.mark (.published event)).mark (.dispatched event), rest, none) := by
  have hempty : ((b.mark (.published event)).entries event.topic).isEmpty = true := List.isEmpty_iff.mpr hnone
  simp only [publish, hidle, hempty, Bool.false_eq_true, if_false, if_true]

/-- `b.publishNext event` — the bus when an event has been published and is the next to be delivered. -/
def publishNext (b : Bus ε) (event : Event ε) : Bus ε :=
  { b.mark (.published event) with queue := event :: b.queue }

/-- Otherwise the event is the first in the queue, and the queue is emptied. -/
theorem publish_eq_drain (hidle : b.publishing = false) (hsome : b.entries event.topic ≠ []) :
    publish s fuel event b rest =
      (drain s (fuel + 1) (b.publishNext event) rest).map fun (b, rest, aborted) => (b.settle, rest, aborted) := by
  have hheard : ((b.mark (.published event)).entries event.topic).isEmpty = false := List.isEmpty_eq_false_iff.mpr hsome
  simp only [publish, hidle, hheard, Bool.false_eq_true, if_false]
  rfl

end Ways

section Publish

variable {s : Surroundings ε β} (hs : s.Meddling) {start b b' : Bus ε} {marks : List (Mark ε)}
  {rounds : List (Dispatch ε)}

include hs

/-- The next event of the `queue` is delivered, and is one more round. -/
theorem History.deliver (h : History start marks rounds b) {event : Event ε} {queue : List (Event ε)}
    (hqueue : b.queue = event :: queue) (rest : β) :
    ∃ more round, History start (marks ++ more) (rounds ++ [round]) (deliver s event { b with queue } rest).1 := by
  obtain ⟨more, called, hadds, hactivity⟩ :=
    adds_deliver hs event (b := { b with queue }) h.idle rest
  have hdispatched : (marks ++ more).filterMap Mark.dispatched? = rounds.map Dispatch.event ++ [event] := by
    rw [List.filterMap_append, h.dispatched_eq, ← dispatched_activity more, hactivity]
    show _ ++ event :: (callMarks event called).filterMap Mark.dispatched? = _
    rw [dispatched_callMarks]
  refine ⟨more, ⟨event, called⟩, ?_, ?_, ?_, ?_, ?_⟩
  · rw [hadds.trail_eq, List.reverse_append, List.append_assoc, ← h.trail_eq]
  · rw [List.filter_append, h.activity_eq, hactivity, List.flatMap_append, List.flatMap_singleton]
  · rw [List.filterMap_append, h.published_eq, hqueue, hadds.queue_eq]
    simp
  · apply h.timely.append
    rw [hdispatched, h.published_eq, hqueue]
    exact ⟨queue, by simp⟩
  · exact hadds.publishing_eq.trans h.idle

/-- When the `queue` is empty, all that has been published has been dispatched. -/
theorem History.drain (h : History start marks rounds b) {fuel : Nat} {rest rest' : β}
    (hdrain : drain s fuel b rest = some (b', rest', none)) :
    ∃ marks rounds, History start marks rounds b' ∧ b'.queue = [] := by
  have hnext : ∀ b rest event queue, (∃ marks rounds, History start marks rounds b) → b.queue = event :: queue →
      ∃ marks rounds, History start marks rounds (Bus.deliver s event { b with queue } rest).1 := by
    rintro b rest event queue ⟨marks, rounds, h⟩ hqueue
    obtain ⟨more, round, hmore⟩ := h.deliver hs hqueue rest
    exact ⟨_, _, hmore⟩
  obtain ⟨⟨marks, rounds, hlast⟩, hempty⟩ :=
    drain_keeps (P := fun b _ => ∃ marks rounds, History start marks rounds b) hnext ⟨marks, rounds, h⟩ hdrain
  exact ⟨marks, rounds, hlast, hempty rfl⟩

/-- An outermost publish has a history (`History`), from the bus before it to the bus after it. -/
theorem history_publish {fuel : Nat} {event : Event ε} {rest rest' : β} (hidle : b.publishing = false)
    (hempty : b.queue = []) (h : publish s fuel event b rest = some (b', rest', none)) :
    ∃ marks rounds, History b marks rounds b' ∧ b'.queue = [] := by
  -- the event is the first to wait
  have hstart : History b [.published event] [] (b.publishNext event) := by
    have hnil : Timely ([] : List (Mark ε)) := by
      intro sofar hsofar
      rw [List.prefix_nil.mp hsofar]
      exact List.prefix_refl []
    refine ⟨rfl, rfl, ?_, hnil.append (List.prefix_refl []), hidle⟩
    show [event] = event :: b.queue
    rw [hempty]
  by_cases hnone : b.entries event.topic = []
  · rw [publish_unheard s fuel rest hidle hnone] at h
    cases h
    obtain ⟨more, round, hfirst⟩ := hstart.deliver hs rfl rest
    have hdeliver : Bus.deliver s event { b.publishNext event with queue := b.queue } rest =
        ((b.mark (.published event)).mark (.dispatched event), rest, none) := by
      simp only [Bus.deliver]
      exact if_pos (List.isEmpty_iff.mpr hnone)
    rw [hdeliver] at hfirst
    exact ⟨_, _, hfirst, hempty⟩
  · rw [publish_eq_drain s fuel rest hidle hnone] at h
    obtain ⟨⟨b₁, rest₁, aborted⟩, hdrain, heq⟩ := Option.map_eq_some_iff.mp h
    cases heq
    obtain ⟨marks, rounds, hlast, hdrained⟩ := hstart.drain hs hdrain
    exact ⟨marks, rounds, ⟨hlast.trail_eq, hlast.activity_eq, hlast.published_eq, hlast.timely, hlast.idle⟩, hdrained⟩

end Publish

/-! ## Handlers as programs -/

/-- Publishers that put events on the queue while a delivery is going on, if they come to an end. -/
def Publisher.Queues (publisher : Publisher) : Prop :=
  ∀ event b w r, b.publishing = true → publisher event b w = some r → r = (b.enqueue event, w, none)

theorem queues_publish (s : Surroundings Values Workshop) (fuel : Nat) : Publisher.Queues (publish s fuel) := by
  intro event b w r hpublishing h
  rw [publish_busy s fuel w hpublishing] at h
  exact (Option.some.inj h).symm

/-- A deed other than publishing leaves the bus alone or edits its lists. -/
theorem edited_act {publisher : Publisher} {deed : Deed} {b b' : Bus Values} {w w' : Workshop} {outcome : Outcome}
    (hdeed : ∀ topic data, deed ≠ .publish topic data) (h : act publisher deed b w = some (b', w', outcome)) :
    b' = b ∨ ∃ m, Edited m b b' ∧ m.published? = none ∧ m.isActivity = false := by
  -- deeds that name a handler do nothing if nobody has the name
  cases deed with
  | subscribe topic name weak =>
    cases h
    cases w.find? name with
    | none => exact .inl rfl
    | some handler => exact .inr ⟨_, b.edited_subscribe topic ⟨handler, weak⟩, rfl, rfl⟩
  | unsubscribe topic name =>
    cases h
    cases w.find? name with
    | none => exact .inl rfl
    | some handler => exact .inr ⟨_, b.edited_unsubscribe topic handler, rfl, rfl⟩
  | clear topic =>
    cases topic with
    | none =>
      cases h
      exact .inr ⟨_, b.edited_clearAll, rfl, rfl⟩
    | some topic =>
      cases h
      exact .inr ⟨_, b.edited_clear topic, rfl, rfl⟩
  | publish topic data => exact absurd rfl (hdeed topic data)
  | plan | drop | note | fail | abort =>
    cases h
    exact .inl rfl

section Programs

variable {publisher : Publisher} (hqueues : publisher.Queues)

include hqueues

/-- A single deed, while a delivery is going on (`publishing`): publishing puts the event on the queue. -/
theorem meddles_act {deed : Deed} {b b' : Bus Values} {w w' : Workshop} {outcome : Outcome}
    (hpublishing : b.publishing = true) (h : act publisher deed b w = some (b', w', outcome)) : Meddles b b' := by
  by_cases hdeed : ∃ topic data, deed = .publish topic data
  · obtain ⟨topic, data, rfl⟩ := hdeed
    obtain ⟨r, hpublish, heq⟩ := Option.map_eq_some_iff.mp h
    cases hqueues _ b w r hpublishing hpublish
    cases heq
    exact ⟨_, .enqueue b ⟨topic, data⟩, rfl⟩
  · rcases edited_act (fun topic data heq => hdeed ⟨topic, data, heq⟩) h with rfl | ⟨m, hedited, hpublished, hactivity⟩
    · exact .refl _
    · exact .edited hedited hpublished hactivity

/-- The deeds of a handler one after the other, up to one that fails. -/
theorem meddles_perform {deeds : List Deed} {b b' : Bus Values} {w w' : Workshop} {ending : Ending}
    (hpublishing : b.publishing = true) (h : perform publisher deeds b w = some (b', w', ending)) : Meddles b b' := by
  induction deeds generalizing b w with
  | nil =>
    cases h
    exact .refl _
  | cons deed deeds ih =>
    simp only [perform] at h
    cases hact : act publisher deed b w with
    | none =>
      rw [hact] at h
      cases h
    | some result =>
      obtain ⟨b₁, w₁, outcome⟩ := result
      -- the first deed, and then the others if it did not fail
      have hfirst := meddles_act hqueues hpublishing hact
      rw [hact] at h
      cases outcome with
      | failed text =>
        cases h
        exact hfirst
      | aborted text =>
        cases h
        exact hfirst
      | done =>
        obtain ⟨marks, hadds, -⟩ := id hfirst
        exact hfirst.trans (ih (hadds.publishing_eq.trans hpublishing) h)

/-- Handlers that are made of deeds meddle and no more, if their publisher queues. -/
theorem meddling_surroundings : (surroundings publisher).Meddling := by
  intro handler event b w hpublishing
  show Meddles b (callHandler publisher handler event b w).1
  unfold callHandler
  split
  · exact .refl b
  · rename_i h _
    cases hperform : perform publisher (h.deeds h.calls) b
      ((w.see (.call h.name event.topic event.data)).countCall handler) with
    | none =>
      simp only [hperform]
      exact .refl b
    | some result =>
      simp only [hperform]
      exact meddles_perform hqueues hpublishing hperform

end Programs

/-- How handlers publish inside a publish with so much fuel. -/
def innerPublish : Nat → Publisher
  | 0 => fun _ _ _ => none
  | fuel + 1 => Bus.publish (workshop fuel) fuel

/-- The workshop with its handlers, as surroundings with a publisher. -/
theorem workshop_eq (fuel : Nat) : workshop fuel = surroundings (innerPublish fuel) := by
  cases fuel <;> rfl

theorem queues_innerPublish (fuel : Nat) : (innerPublish fuel).Queues := by
  cases fuel with
  | zero => exact fun _ _ _ _ _ h => by cases h
  | succ fuel => exact queues_publish (workshop fuel) fuel

theorem meddling_workshop (fuel : Nat) : (workshop fuel).Meddling := by
  rw [workshop_eq]
  exact meddling_surroundings (queues_innerPublish fuel)

/-! ## Events in order -/

/-- Whatever handlers do, an outermost publish that returns has dealt with all events in order.  The marks that it has
    left on the trail tell so:

    - deliveries and calls (`Mark.isActivity`) fall into rounds (`Dispatch`): in each an event is dispatched, and one
      handler after the other is called with it, each when the call before is over;
    - what has been dispatched is what has been published, in the same order, and at no moment more of it than had been
      published by then;
    - nothing waits any more, and the bus is idle. -/
theorem events_in_order {fuel : Nat} {topic : Topic} {data : Values} {b b' : Bus Values} {w w' : Workshop}
    (hidle : b.publishing = false) (hempty : b.queue = [])
    (h : doDeed fuel (.publish topic data) b w = some (b', w', .done)) :
    ∃ (marks : List (Mark Values)) (rounds : List (Dispatch Values)),
      b'.trail = marks.reverse ++ b.trail ∧
      marks.filter Mark.isActivity = rounds.flatMap Dispatch.marks ∧
      marks.filterMap Mark.dispatched? = marks.filterMap Mark.published? ∧
      (∀ sofar, sofar <+: marks → sofar.filterMap Mark.dispatched? <+: sofar.filterMap Mark.published?) ∧
      b'.queue = [] ∧ b'.publishing = false := by
  obtain ⟨⟨b₁, w₁, aborted⟩, hpublish, heq⟩ := Option.map_eq_some_iff.mp h
  cases aborted with
  | some text => cases heq
  | none =>
    cases heq
    obtain ⟨marks, rounds, hhistory, hdrained⟩ := history_publish (meddling_workshop fuel) hidle hempty hpublish
    refine ⟨marks, rounds, hhistory.trail_eq, hhistory.activity_eq, ?_, hhistory.timely, hdrained, hhistory.idle⟩
    rw [hhistory.dispatched_eq, hhistory.published_eq, hdrained, List.append_nil]

/-! ## A relay -/

/-- One handler publishes two events; another one passes the first of them on and fails. -/
def relay : Workshop where
  handlers := [{ name := "first", deeds := fun _ => [.publish .beatStarted [], .publish .choiceShown []] },
    { name := "second", deeds := fun _ => [.publish .chatEnded [], .fail "too late"] }]
  names := [("first", 0), ("second", 1)]

/-- The first handler hears the beginning, twice; the second one all that the first one publishes. -/
def relayBus : Bus Values where
  table := [(.chatStarted, [⟨0, true⟩, ⟨0, false⟩]), (.beatStarted, [⟨1, false⟩]), (.choiceShown, [⟨1, true⟩])]

/-- What is published first is dispatched first, however deep it was published. -/
theorem events_in_order_relay :
    relayBus.publishing = false ∧ relayBus.queue = [] ∧
      ∃ b' w', doDeed 20 (.publish .chatStarted []) relayBus relay = some (b', w', .done) ∧
        b'.trail.reverse.filterMap Mark.dispatched? =
          [⟨.chatStarted, []⟩, ⟨.beatStarted, []⟩, ⟨.choiceShown, []⟩, ⟨.beatStarted, []⟩, ⟨.choiceShown, []⟩,
            ⟨.chatEnded, []⟩, ⟨.chatEnded, []⟩, ⟨.chatEnded, []⟩, ⟨.chatEnded, []⟩] ∧
        ∃ (marks : List (Mark Values)) (rounds : List (Dispatch Values)),
          b'.trail = marks.reverse ++ relayBus.trail ∧
          marks.filter Mark.isActivity = rounds.flatMap Dispatch.marks ∧
          marks.filterMap Mark.dispatched? = marks.filterMap Mark.published? ∧
          (∀ sofar, sofar <+: marks → sofar.filterMap Mark.dispatched? <+: sofar.filterMap Mark.published?) ∧
          b'.queue = [] ∧ b'.publishing = false := by
  have hrun : (doDeed 20 (.publish .chatStarted []) relayBus relay).map
      (fun r => (r.1.trail.reverse.filterMap Mark.dispatched?, r.2.2)) =
      some ([⟨.chatStarted, []⟩, ⟨.beatStarted, []⟩, ⟨.choiceShown, []⟩, ⟨.beatStarted, []⟩, ⟨.choiceShown, []⟩,
        ⟨.chatEnded, []⟩, ⟨.chatEnded, []⟩, ⟨.chatEnded, []⟩, ⟨.chatEnded, []⟩], .done) := rfl
  obtain ⟨⟨b', w', outcome⟩, hdeed, hsame⟩ := Option.map_eq_some_iff.mp hrun
  obtain ⟨htopics, rfl⟩ := Prod.mk.inj hsame
  exact ⟨rfl, rfl, b', w', hdeed, htopics, events_in_order rfl rfl hdeed⟩

end Bus

end ChatScene

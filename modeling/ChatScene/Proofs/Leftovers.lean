/-
  What is left when a publish is given up.

  A handler may give up the whole publish.  The events that wait by then stay on the queue, and the bus is idle again.
  Nothing is lost by that and nothing is done twice: an event that is published from outside is dispatched at once, one
  that is published meanwhile is queued, and the queue is worked off from its front and from nowhere else.  So what has
  come from the queue so far, followed by what still waits, is what was ever put on it.

  1. **Working off** — `WorksOff start marks b`: since the bus was as at the start, what has been dispatched, followed
     by what waits, is what waited at the start, followed by what has been published.  A delivery keeps this
     (`WorksOff.deliver`), and so do all of them, whether or not they are given up (`WorksOff.drain`).

  2. **Publications** — a `Publication` is what publishing one event from outside comes to: the event, what is queued
     meanwhile and what is taken from the queue.

  3. **The account** (`Account`) — the trail of a bus falls into publications, and the queue is what they have put there
     and not taken.  One publication has it (`account_publish`), and it adds up (`Account.trans`).

  4. **Main result** (`aborts_lose_nothing`) — every bus that can be reached has such an account, so all that was ever
     published has been dispatched or waits; and a publish that comes to its end works off all that was left.
-/
import ChatScene.Proofs.Subscriptions

namespace ChatScene.Bus

open Relation (ReflTransGen)

variable {ε β : Type}

/-! ## Working off the queue -/

theorem dispatched_marks (r : Dispatch ε) : r.marks.filterMap Mark.dispatched? = [r.event] := by
  show r.event :: (callMarks r.event r.handlers).filterMap Mark.dispatched? = [r.event]
  rw [dispatched_callMarks]

/-- `start.WorksOff marks b` — deliveries since a bus was as at the start: what has been dispatched, followed by what
    waits, is what waited at the start, followed by what has been published since. -/
structure WorksOff (start : Bus ε) (marks : List (Mark ε)) (b : Bus ε) : Prop where
  trail_eq : b.trail = marks.reverse ++ start.trail
  queue_eq : marks.filterMap Mark.dispatched? ++ b.queue = start.queue ++ marks.filterMap Mark.published?
  idle : b.publishing = false

section Deliveries

variable {s : Surroundings ε β} (hs : s.Meddling) {start b b' : Bus ε} {marks : List (Mark ε)}

include hs

/-- The next event is delivered: it is dispatched, and what its handlers publish goes to the end of the `queue`. -/
theorem WorksOff.deliver (h : WorksOff start marks b) {event : Event ε} {queue : List (Event ε)}
    (hqueue : b.queue = event :: queue) (rest : β) :
    ∃ more, more.filterMap Mark.dispatched? = [event] ∧
      WorksOff start (marks ++ more) (deliver s event { b with queue } rest).1 := by
  obtain ⟨more, called, hadds, hactivity⟩ := adds_deliver hs event (b := { b with queue }) h.idle rest
  have hdispatched : more.filterMap Mark.dispatched? = [event] := by
    rw [← dispatched_activity more, hactivity, dispatched_marks]
  refine ⟨more, hdispatched, ?_, ?_, hadds.publishing_eq.trans h.idle⟩
  · rw [hadds.trail_eq, List.reverse_append, List.append_assoc, ← h.trail_eq]
  · calc (marks ++ more).filterMap Mark.dispatched? ++ (Bus.deliver s event { b with queue } rest).1.queue
        = marks.filterMap Mark.dispatched? ++ (event :: queue) ++ more.filterMap Mark.published? := by
          rw [List.filterMap_append, hdispatched, hadds.queue_eq]
          simp
      _ = start.queue ++ (marks ++ more).filterMap Mark.published? := by
          rw [← hqueue, h.queue_eq, List.filterMap_append, List.append_assoc]

/-- So is one after the other, until the `queue` is empty or a delivery is given up. -/
theorem WorksOff.drain (h : WorksOff start marks b) {fuel : Nat} {rest rest' : β} {aborted : Option String}
    (hdrain : drain s fuel b rest = some (b', rest', aborted)) :
    ∃ more, WorksOff start (marks ++ more) b' ∧ (aborted = none → b'.queue = []) := by
  have hnext : ∀ b rest event queue, (∃ more, WorksOff start (marks ++ more) b) → b.queue = event :: queue →
      ∃ more, WorksOff start (marks ++ more) (Bus.deliver s event { b with queue } rest).1 := by
    rintro b rest event queue ⟨more, h⟩ hqueue
    obtain ⟨last, -, hlast⟩ := h.deliver hs hqueue rest
    exact ⟨more ++ last, by rw [← List.append_assoc]; exact hlast⟩
  obtain ⟨⟨more, hlast⟩, hempty⟩ := drain_keeps (P := fun b _ => ∃ more, WorksOff start (marks ++ more) b) hnext
    ⟨[], by rw [List.append_nil]; exact h⟩ hdrain
  exact ⟨more, hlast, hempty⟩

end Deliveries

/-! ## Publishing from outside -/

/-- What publishing an event from outside comes to: the event is dispatched at once. -/
structure Publication (ε : Type) where
  event : Event ε
  /-- Events that were put on the queue meanwhile. -/
  queued : List (Event ε)
  /-- Events from the queue that were dispatched afterwards. -/
  drained : List (Event ε)

/-- All that is published. -/
def Publication.published (p : Publication ε) : List (Event ε) := p.event :: p.queued

/-- All whose delivery begins. -/
def Publication.dispatched (p : Publication ε) : List (Event ε) := p.event :: p.drained

/-- `start.Account publications b` — the account of a bus since it was as at the start: what its trail tells are the
    publications, and what has come from the queue, followed by what waits, is what waited at the start, followed
    by what has been queued. -/
structure Account (start : Bus ε) (publications : List (Publication ε)) (b : Bus ε) : Prop where
  trail : ∃ marks : List (Mark ε), b.trail = marks.reverse ++ start.trail ∧
    marks.filterMap Mark.published? = publications.flatMap Publication.published ∧
    marks.filterMap Mark.dispatched? = publications.flatMap Publication.dispatched
  queue_eq : publications.flatMap Publication.drained ++ b.queue =
    start.queue ++ publications.flatMap Publication.queued
  idle : b.publishing = false

namespace Account

variable {start b b' : Bus ε} {ps qs : List (Publication ε)}

theorem refl (hidle : b.publishing = false) : Account b [] b := ⟨⟨[], rfl, rfl, rfl⟩, by simp, hidle⟩

/-- One account (`Account`) after the other; what the first leaves on the queue waits at the start of the second. -/
theorem trans (h : Account start ps b) (h' : Account b qs b') : Account start (ps ++ qs) b' := by
  obtain ⟨marks, htrail, hpublished, hdispatched⟩ := h.trail
  obtain ⟨more, htrail', hpublished', hdispatched'⟩ := h'.trail
  refine ⟨⟨marks ++ more, ?_, ?_, ?_⟩, ?_, h'.idle⟩
  · rw [htrail', htrail, List.reverse_append, List.append_assoc]
  · rw [List.filterMap_append, hpublished, hpublished', List.flatMap_append]
  · rw [List.filterMap_append, hdispatched, hdispatched', List.flatMap_append]
  · rw [List.flatMap_append, List.flatMap_append, List.append_assoc, h'.queue_eq, ← List.append_assoc, h.queue_eq,
      List.append_assoc]

theorem edited {m : Mark ε} (hidle : b.publishing = false) (h : Edited m b b') (hpublished : m.published? = none)
    (hactivity : m.isActivity = false) : Account b [] b' := by
  have hdispatched : m.dispatched? = none := by
    cases m <;> first | rfl | cases hactivity
  refine ⟨⟨[m], h.trail_eq, by simp [hpublished], by simp [hdispatched]⟩, ?_, h.publishing_eq.trans hidle⟩
  rw [h.queue_eq]
  simp

/-- Everything that was published has been dispatched or waits, and nothing else has been dispatched.  It is a
    permutation, because events from outside are dispatched before those that wait. -/
theorem published_perm (h : Account {} ps b) :
    (b.trail.reverse.filterMap Mark.published?).Perm
      (b.trail.reverse.filterMap Mark.dispatched? ++ b.queue) := by
  obtain ⟨marks, htrail, hpublished, hdispatched⟩ := h.trail
  have hmarks : b.trail.reverse = marks := by
    rw [htrail]
    simp
  -- publications one after the other, with their own events taken to the front
  have hsplit : ∀ (ps : List (Publication ε)) (f : Publication ε → List (Event ε)),
      (ps.flatMap fun p => p.event :: f p).Perm (ps.map Publication.event ++ ps.flatMap f) := by
    intro ps f
    induction ps with
    | nil => exact .refl _
    | cons p ps ih =>
      simp only [List.flatMap_cons, List.map_cons, List.cons_append]
      refine .cons _ ((ih.append_left _).trans ?_)
      rw [← List.append_assoc, ← List.append_assoc]
      exact List.perm_append_comm.append_right _
  rw [hmarks, hpublished, hdispatched]
  have hqueue : ps.flatMap Publication.drained ++ b.queue = ps.flatMap Publication.queued := h.queue_eq
  calc (ps.flatMap Publication.published).Perm (ps.map Publication.event ++ ps.flatMap Publication.queued) :=
        hsplit ps Publication.queued
    _ = ps.map Publication.event ++ ps.flatMap Publication.drained ++ b.queue := by rw [← hqueue, List.append_assoc]
    List.Perm _ (ps.flatMap Publication.dispatched ++ b.queue) :=
        (hsplit ps Publication.drained).symm.append_right _

end Account

/-- From what is worked off since the event was put first in the queue, the account (`Account`) of its publication. -/
theorem WorksOff.account {event : Event ε} {b b' : Bus ε} {marks more : List (Mark ε)}
    (hfirst : marks.filterMap Mark.dispatched? = [event])
    (h : WorksOff (b.publishNext event) (marks ++ more) b') :
    Account b [⟨event, (marks ++ more).filterMap Mark.published?, more.filterMap Mark.dispatched?⟩] b' := by
  refine ⟨⟨.published event :: (marks ++ more), ?_, ?_, ?_⟩, ?_, h.idle⟩
  · rw [h.trail_eq, List.reverse_cons, List.append_assoc]
    rfl
  · simp [Publication.published, Mark.published?]
  · show (marks ++ more).filterMap Mark.dispatched? = _
    rw [List.filterMap_append, hfirst]
    simp [Publication.dispatched]
  · have hqueue : event :: (more.filterMap Mark.dispatched? ++ b'.queue) =
        event :: (b.queue ++ (marks ++ more).filterMap Mark.published?) := by
      have hworks := h.queue_eq
      rw [List.filterMap_append, hfirst] at hworks
      exact hworks
    simpa using (List.cons.inj hqueue).2

/-- An event that is published from outside is one `Publication`, whether or not it is given up. -/
theorem account_publish {s : Surroundings ε β} (hs : s.Meddling) {fuel : Nat} {event : Event ε} {b b' : Bus ε}
    {rest rest' : β} {aborted : Option String} (hidle : b.publishing = false)
    (h : publish s fuel event b rest = some (b', rest', aborted)) :
    ∃ p : Publication ε, p.event = event ∧ Account b [p] b' ∧
      (b.entries event.topic ≠ [] → aborted = none → b'.queue = []) := by
  by_cases hnone : b.entries event.topic = []
  · rw [publish_unheard s fuel rest hidle hnone] at h
    cases h
    refine ⟨⟨event, [], []⟩, rfl, ⟨⟨[.published event, .dispatched event], rfl, rfl, rfl⟩, ?_, hidle⟩,
      fun hsome => absurd hnone hsome⟩
    simp [mark]
  · have hheard : ((b.mark (.published event)).entries event.topic).isEmpty = false :=
      List.isEmpty_eq_false_iff.mpr hnone
    have hstart : WorksOff (b.publishNext event) [] (b.publishNext event) := ⟨rfl, by simp, hidle⟩
    -- the event is put first in the queue, so its own delivery is the first one
    obtain ⟨marks, hfirst, hdelivered⟩ := hstart.deliver hs rfl rest
    simp only [publish, hidle, hheard, Bool.false_eq_true, if_false] at h
    obtain ⟨⟨b₁, rest₁, aborted₁⟩, hresult, heq⟩ := Option.map_eq_some_iff.mp h
    cases heq
    have hworks : ∃ more, WorksOff (b.publishNext event) (marks ++ more) b₁ ∧ (aborted₁ = none → b₁.queue = []) := by
      change WorksOff _ marks (deliver s event (b.mark (.published event)) rest).1 at hdelivered
      generalize deliver s event (b.mark (.published event)) rest = result at hresult hdelivered
      obtain ⟨b₂, rest₂, stop⟩ := result
      cases stop with
      | none => exact hdelivered.drain hs hresult
      | some text =>
        cases hresult
        exact ⟨[], by rw [List.append_nil]; exact hdelivered, fun hnone => by cases hnone⟩
    obtain ⟨more, hworks, hempty⟩ := hworks
    have haccount := hworks.account hfirst
    exact ⟨_, rfl, ⟨haccount.trail, haccount.queue_eq, haccount.idle⟩, fun _ => hempty⟩

/-! ## From one operation to the next -/

/-- `Leads x y` — an operation from outside leads on. -/
def Leads (x y : Bus Values × Workshop) : Prop :=
  ∃ fuel deed outcome, doDeed fuel deed x.1 x.2 = some (y.1, y.2, outcome)

/-- Any deed from outside: publishing is one publication, and all others are none. -/
theorem account_deed {fuel : Nat} {deed : Deed} {b b' : Bus Values} {w w' : Workshop} {outcome : Outcome}
    (hidle : b.publishing = false) (h : doDeed fuel deed b w = some (b', w', outcome)) :
    ∃ ps, Account b ps b' := by
  by_cases hdeed : ∃ topic data, deed = .publish topic data
  · obtain ⟨topic, data, rfl⟩ := hdeed
    obtain ⟨⟨b₁, w₁, aborted⟩, hpublish, heq⟩ := Option.map_eq_some_iff.mp h
    cases heq
    obtain ⟨p, -, haccount, -⟩ := account_publish (meddling_workshop fuel) hidle hpublish
    exact ⟨[p], haccount⟩
  · rcases edited_act (fun topic data heq => hdeed ⟨topic, data, heq⟩) h with rfl | ⟨m, hedited, hpublished, hactivity⟩
    · exact ⟨[], .refl hidle⟩
    · exact ⟨[], .edited hidle hedited hpublished hactivity⟩

/-- Any number of operations from outside adds as many publications to the account, by induction on `Leads`. -/
theorem Account.leads {start : Bus Values} {ps : List (Publication Values)} {x y : Bus Values × Workshop}
    (h : Account start ps x.1) (hleads : ReflTransGen Leads x y) : ∃ qs, Account start qs y.1 := by
  induction hleads with
  | refl => exact ⟨ps, h⟩
  | tail _ hlast ih =>
    obtain ⟨qs, hbefore⟩ := ih
    obtain ⟨fuel, deed, outcome, hdeed⟩ := hlast
    obtain ⟨rs, hafter⟩ := account_deed hbefore.idle hdeed
    exact ⟨qs ++ rs, hbefore.trans hafter⟩

/-- So every bus that can be reached has an account since the beginning. -/
theorem Reached.account {b : Bus Values} {w : Workshop} (h : Reached b w) : ∃ ps, Account {} ps b := by
  induction h with
  | fresh => exact ⟨[], .refl rfl⟩
  | after _ hdeed ih =>
    obtain ⟨ps, hbefore⟩ := ih
    obtain ⟨qs, hafter⟩ := account_deed hbefore.idle hdeed
    exact ⟨ps ++ qs, hbefore.trans hafter⟩

/-- Whatever handlers do, and also when they give up, between any two operations from outside:

    - the bus is idle;
    - every event that was published from outside has been dispatched at once, and what has come from the queue since
      the beginning, followed by what waits, is what was ever queued, in order;
    - so every event that was ever published has been dispatched once, or waits once, and never both;
    - the same account (`Account`) goes on from here: what waits now is dispatched, in order, before anything that is
      queued later;
    - publishing an event that somebody hears dispatches the event, then all that waits, then what is queued meanwhile,
      and leaves nothing waiting, if it returns. -/
theorem aborts_lose_nothing {b : Bus Values} {w : Workshop} (h : Reached b w) :
    b.publishing = false ∧
      (∃ ps, Account {} ps b) ∧
      (b.trail.reverse.filterMap Mark.published?).Perm (b.trail.reverse.filterMap Mark.dispatched? ++ b.queue) ∧
      (∀ b' w', ReflTransGen Leads (b, w) (b', w') → ∃ ps, Account b ps b') ∧
      ∀ fuel topic data b' w', b.entries topic ≠ [] →
        doDeed fuel (.publish topic data) b w = some (b', w', .done) →
        ∃ queued, Account b [⟨⟨topic, data⟩, queued, b.queue ++ queued⟩] b' ∧ b'.queue = [] := by
  obtain ⟨ps, haccount⟩ := h.account
  have hidle := haccount.idle
  refine ⟨hidle, ⟨ps, haccount⟩, haccount.published_perm, ?_, ?_⟩
  · intro b' w' hleads
    exact Account.leads (x := (b, w)) (.refl hidle) hleads
  · intro fuel topic data b' w' hheard hdeed
    obtain ⟨⟨b₁, w₁, aborted⟩, hpublish, heq⟩ := Option.map_eq_some_iff.mp hdeed
    cases aborted with
    -- an aborted publish is not done
    | some text => cases heq
    | none =>
      cases heq
      obtain ⟨⟨event, queued, drained⟩, rfl, hpublished, hempty⟩ :=
        account_publish (meddling_workshop fuel) hidle hpublish
      have hnothing := hempty hheard rfl
      -- the queue is empty in the end, so all that was on it has been dispatched
      have hdrained : drained = b.queue ++ queued := by
        have hqueue := hpublished.queue_eq
        rw [hnothing] at hqueue
        simpa using hqueue
      exact ⟨queued, hdrained ▸ hpublished, hnothing⟩

/-! ## A quarrel -/

/-- What is done from outside: one handler publishes three events, and another one gives up when it hears the first of
    them. -/
def quarrel : List Deed :=
  [.plan "caller" fun _ => [.publish .beatStarted [], .publish .choiceShown [], .publish .labelJumped []],
    .plan "sulker" fun n => if n = 0 then [.abort "enough"] else [],
    .subscribe .chatStarted "caller" false,
    .subscribe .beatStarted "sulker" false,
    .subscribe .chatEnded "sulker" true,
    .publish .chatStarted []]

/-- The bus and the workshop that this comes to. -/
def quarrelled : Bus Values × Workshop :=
  ((perform (Bus.publish (workshop 9) 9) quarrel {} {}).map fun r => (r.1, r.2.1)).getD ({}, {})

/-- Two events are left over.  They are dispatched, in order, after the next one that is heard. -/
theorem aborts_lose_nothing_quarrelled :
    Reached quarrelled.1 quarrelled.2 ∧
      quarrelled.1.trail.reverse.filterMap Mark.dispatched? = [⟨.chatStarted, []⟩, ⟨.beatStarted, []⟩] ∧
      quarrelled.1.queue = [⟨.choiceShown, []⟩, ⟨.labelJumped, []⟩] ∧
      quarrelled.1.publishing = false ∧
      quarrelled.1.entries .chatEnded ≠ [] ∧
      ∃ b w queued, doDeed 9 (.publish .chatEnded []) quarrelled.1 quarrelled.2 = some (b, w, .done) ∧
        Account quarrelled.1 [⟨⟨.chatEnded, []⟩, queued, quarrelled.1.queue ++ queued⟩] b ∧ b.queue = [] := by
  have hperform : perform (Bus.publish (workshop 9) 9) quarrel {} {} =
      some (quarrelled.1, quarrelled.2, .aborted "enough") := rfl
  have hquarrelled : Reached quarrelled.1 quarrelled.2 := Reached.fresh.deeds (.of_perform hperform)
  obtain ⟨hidle, -, -, -, hnext⟩ := aborts_lose_nothing hquarrelled
  have hheard : quarrelled.1.entries .chatEnded ≠ [] := List.cons_ne_nil _ _
  have hdeed : doDeed 9 (.publish .chatEnded []) quarrelled.1 quarrelled.2 = some (_, _, .done) := rfl
  obtain ⟨queued, haccount, hempty⟩ := hnext _ _ _ _ _ hheard hdeed
  exact ⟨hquarrelled, rfl, rfl, hidle, hheard, _, _, queued, hdeed, haccount, hempty⟩

end ChatScene.Bus

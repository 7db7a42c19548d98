/-
  No subscription is lost or invented.

  The list that a bus stores for a topic has all that was subscribed and not taken back, but for some subscriptions that
  are weak and whose handlers are dead: it is in the same order, and has every subscription that is strong or whose
  handler is alive as often as it was made.  This holds between any two operations, also of handlers in the middle of a
  delivery, and whenever names of handlers go away.

  1. **The invariant** (`Sound`) — for a moment of a delivery: the lists have been kept (`Kept`), what the delivery has
     found dead is dead, and handlers that anybody knows have been defined.  There is one lemma for each thing that a
     bus, a delivery or a workshop can do, up to a whole deed (`Sound.acts`).

  2. **Dead handlers** — a delivery removes what it found dead only when it is over, and by then other lists may be in
     place.  That does no harm because a handler that is dead stays dead: only names bring handlers onto the bus, and no
     name leads to it.

  3. **Moments** — `PassesDeeds`, `PassesTurns` and `PassesQueue` say what the bus and the workshop become at some
     moment while deeds are done, while subscriptions have their turns, and while the queue is drained.  All these
     moments are sound (`Midway.turns`, `Sound.queue`).

  4. **What deeds do to the lists** (`subscribedTo_act`) — what the trail tells after a deed is what the deed is to do
     (`Deed.effect`).

  5. **Main result** (`no_subscription_lost`) — for every bus and workshop that can be reached, at every moment of a
     publish.
-/
import Mathlib.Logic.Relation
import ChatScene.Proofs.EventOrder
import ChatScene.Proofs.Keeping

namespace ChatScene.Bus

open Relation (ReflTransGen)

/-! ## Sound moments -/

/-- `d.living handler` — a handler is alive at a moment of a delivery, or between deliveries: it has a name, or the bus
    keeps it, or it is being called or was called last. -/
def Delivery.living (d : Delivery Values Workshop) (handler : Nat) : Bool :=
  d.alive (surroundings fun _ _ _ => none) handler

/-- The three reasons to be alive (`living`). -/
theorem Delivery.living_iff {d : Delivery Values Workshop} {handler : Nat} :
    d.living handler = true ↔
      (∃ name, (name, handler) ∈ d.rest.names) ∨ d.bus.keeps handler = true ∨ d.held = some handler := by
  simp [Delivery.living, Delivery.alive, surroundings, or_assoc]

/-- The lists have been kept, and what the delivery has found dead is dead.  Handlers that anybody knows have been
    defined, so that no new handler is taken for an old one. -/
structure Sound (d : Delivery Values Workshop) : Prop where
  named : ∀ p ∈ d.rest.names, p.2 < d.rest.handlers.length
  known : ∀ t, ∀ e ∈ subscribedTo t d.bus.trail, e.handler < d.rest.handlers.length
  kept : ∀ t, Kept d.living (d.bus.entries t) (subscribedTo t d.bus.trail)
  dead : ∀ e ∈ d.dead, e.handler < d.rest.handlers.length ∧ d.living e.handler = false

namespace Sound

variable {d d' : Delivery Values Workshop}

/-- What keeps a moment sound: nobody comes back to life (`hwanes`), and the lists have been kept as they were. -/
theorem next (hlength : d.rest.handlers.length ≤ d'.rest.handlers.length)
    (hwanes : ∀ handler < d.rest.handlers.length, d'.living handler = true → d.living handler = true)
    (hnamed : ∀ p ∈ d'.rest.names, p.2 < d'.rest.handlers.length)
    (hknown : ∀ t, ∀ e ∈ subscribedTo t d'.bus.trail, e.handler < d.rest.handlers.length)
    (hkept : ∀ t, Kept d.living (d'.bus.entries t) (subscribedTo t d'.bus.trail))
    (hdead : ∀ e ∈ d'.dead, e.handler < d.rest.handlers.length ∧ d.living e.handler = false) : Sound d' where
  named := hnamed
  known t e he := Nat.lt_of_lt_of_le (hknown t e he) hlength
  kept t := (hkept t).wanes fun e he => hwanes e.handler (hknown t e he)
  dead e he := by
    obtain ⟨hlt, hfalse⟩ := hdead e he
    refine ⟨Nat.lt_of_lt_of_le hlt hlength, ?_⟩
    cases hliving : d'.living e.handler with
    | false => rfl
    | true =>
      rw [hwanes e.handler hlt hliving] at hfalse
      cases hfalse

/-- The same where no handler is defined and no name is given. -/
theorem same_names (h : Sound d) (hnames : d'.rest.names = d.rest.names)
    (hlength : d'.rest.handlers.length = d.rest.handlers.length)
    (hkeeps : ∀ handler, d'.bus.keeps handler = true → d.living handler = true)
    (hheld : ∀ handler, d'.held = some handler → d.living handler = true)
    (hknown : ∀ t, ∀ e ∈ subscribedTo t d'.bus.trail, e.handler < d.rest.handlers.length)
    (hkept : ∀ t, Kept d.living (d'.bus.entries t) (subscribedTo t d'.bus.trail))
    (hdead : ∀ e ∈ d'.dead, e.handler < d.rest.handlers.length ∧ d.living e.handler = false) : Sound d' := by
  apply next (Nat.le_of_eq hlength.symm) ?_ ?_ hknown hkept hdead
  · intro handler _ hliving
    rcases Delivery.living_iff.mp hliving with hname | hkeep | hhold
    · rw [hnames] at hname
      exact Delivery.living_iff.mpr (.inl hname)
    · exact hkeeps handler hkeep
    · exact hheld handler hhold
  · rw [hnames, hlength]
    exact h.named

/-- The same where the lists are not touched either. -/
theorem same_lists (h : Sound d) (hnames : d'.rest.names = d.rest.names)
    (hlength : d'.rest.handlers.length = d.rest.handlers.length) (htable : d'.bus.table = d.bus.table)
    (hsubscriptions : ∀ t, subscribedTo t d'.bus.trail = subscribedTo t d.bus.trail)
    (hpinned : ∀ handler ∈ d'.bus.pinned, d.living handler = true)
    (hheld : ∀ handler, d'.held = some handler → d.living handler = true)
    (hdead : ∀ e ∈ d'.dead, e.handler < d.rest.handlers.length ∧ d.living e.handler = false) : Sound d' := by
  apply h.same_names hnames hlength ?_ hheld ?_ ?_ hdead
  · intro handler hkeeps
    rcases keeps_iff.mp hkeeps with hpin | ⟨p, hp, hstrong⟩
    · exact hpinned handler hpin
    · rw [htable] at hp
      exact Delivery.living_iff.mpr (.inr (.inl (keeps_iff.mpr (.inr ⟨p, hp, hstrong⟩))))
  · intro t
    rw [hsubscriptions t]
    exact h.known t
  · intro t
    have hentries : d'.bus.entries t = d.bus.entries t := by
      unfold entries list?
      rw [htable]
    rw [hsubscriptions t, hentries]
    exact h.kept t

theorem living_of_keeps {handler : Nat} (h : d.bus.keeps handler = true) : d.living handler = true :=
  Delivery.living_iff.mpr (.inr (.inl h))

theorem pinned_living (d : Delivery Values Workshop) : ∀ handler ∈ d.bus.pinned, d.living handler = true :=
  fun _ h => living_of_keeps (keeps_iff.mpr (.inl h))

theorem held_living (d : Delivery Values Workshop) : ∀ handler, d.held = some handler → d.living handler = true :=
  fun _ h => Delivery.living_iff.mpr (.inr (.inr h))

/-! ## One change after the other -/

section Changes

variable (h : Sound d)

include h

/-- The bus changes without its lists: something waits, or is marked that is no subscription. -/
theorem bus {b : Bus Values} (htable : b.table = d.bus.table) (hpinned : b.pinned = d.bus.pinned)
    (hsubscriptions : ∀ t, subscribedTo t b.trail = subscribedTo t d.bus.trail) : Sound { d with bus := b } :=
  h.same_lists rfl rfl htable hsubscriptions (hpinned ▸ pinned_living d) (held_living d) h.dead

theorem waits (queue : List (Event Values)) : Sound { d with bus := { d.bus with queue } } :=
  h.bus rfl rfl fun _ => rfl

theorem notes {w : Workshop} (hnames : w.names = d.rest.names) (hlength : w.handlers.length = d.rest.handlers.length) :
    Sound { d with rest := w } :=
  h.same_lists hnames hlength rfl (fun _ => rfl) (pinned_living d) (held_living d) h.dead

/-- A handler that is alive (`living`) is about to be called. -/
theorem holds {handler : Nat} (hliving : d.living handler = true) : Sound { d with held := some handler } := by
  refine h.same_lists rfl rfl rfl (fun _ => rfl) (pinned_living d) (fun k hk => ?_) h.dead
  cases hk
  exact hliving

/-- A subscription is found dead, and remembered for the end of the delivery. -/
theorem skips {e : Entry} (hknown : e.handler < d.rest.handlers.length) (hdead : d.living e.handler = false) :
    Sound { d with held := none, dead := d.dead ++ [e] } := by
  refine h.same_lists rfl rfl rfl (fun _ => rfl) (pinned_living d) (fun k hk => by cases hk) fun e' he' => ?_
  rcases List.mem_append.mp he' with hold | hlast
  · exact h.dead e' hold
  · rw [List.mem_singleton.mp hlast]
    exact ⟨hknown, hdead⟩

theorem opens (t : Topic) : Sound { bus := d.bus.openList t, rest := d.rest } :=
  h.same_lists rfl rfl rfl (fun _ => rfl) (pinned_living d) (fun k hk => by cases hk) fun e he => by cases he

theorem settles : Sound { bus := d.bus.settle, rest := d.rest } :=
  h.same_lists rfl rfl rfl (fun _ => rfl) (fun k hk => by cases hk) (fun k hk => by cases hk) fun e he => by cases he

/-- A subscription is made by name, so its handler is alive. -/
theorem subscribes (t : Topic) {e : Entry} (hname : ∃ name, (name, e.handler) ∈ d.rest.names) :
    Sound { d with bus := d.bus.subscribe t e } := by
  obtain ⟨name, hmem⟩ := id hname
  refine h.same_names rfl rfl (fun k hk => ?_) (held_living d) ?_ ?_ h.dead
  · -- who is kept: the new handler, which has a name, or somebody who was kept before
    rcases keeps_subscribe hk with hold | rfl
    · exact living_of_keeps hold
    · exact Delivery.living_iff.mpr (.inl hname)
  · intro other e' he'
    simp only [subscribedTo_subscribe] at he'
    split at he'
    · rcases List.mem_append.mp he' with hold | hlast
      · exact h.known other e' hold
      · rw [List.mem_singleton.mp hlast]
        exact h.named _ hmem
    · exact h.known other e' he'
  · -- what is stored: one list gets the entry at its end, as the trail does
    intro other
    simp only [entries_subscribe, subscribedTo_subscribe]
    split
    · exact (h.kept other).snoc e
    · exact h.kept other

theorem unsubscribes (t : Topic) (handler : Nat) : Sound { d with bus := d.bus.unsubscribe t handler } := by
  refine h.same_names rfl rfl (fun k hk => living_of_keeps (keeps_unsubscribe hk)) (held_living d) ?_ ?_ h.dead
  · intro other e' he'
    simp only [subscribedTo_unsubscribe] at he'
    split at he'
    · exact h.known other e' (List.mem_filter.mp he').1
    · exact h.known other e' he'
  · intro other
    simp only [entries_unsubscribe, subscribedTo_unsubscribe]
    split
    · exact (h.kept other).filter handler
    · exact h.kept other

theorem clears (t : Topic) : Sound { d with bus := d.bus.clear t } := by
  refine h.same_names rfl rfl (fun k hk => living_of_keeps (keeps_clear hk)) (held_living d) ?_ ?_ h.dead
  · intro other e' he'
    simp only [subscribedTo_clear] at he'
    split at he'
    · cases he'
    · exact h.known other e' he'
  · intro other
    simp only [entries_clear, subscribedTo_clear]
    split
    · exact .nil
    · exact h.kept other

theorem clearsAll : Sound { d with bus := d.bus.clearAll } := by
  refine h.same_names rfl rfl (fun k hk => living_of_keeps (keeps_clearAll hk)) (held_living d) ?_ ?_ h.dead
  · intro other e' he'
    simp only [subscribedTo_clearAll] at he'
    cases he'
  · intro other
    simp only [entries_clearAll, subscribedTo_clearAll]
    exact .nil

/-- A name goes away, and perhaps with it a handler. -/
theorem forgets (name : String) : Sound { d with rest := d.rest.forget name } := by
  refine next (d := d) (Nat.le_refl _) (fun k _ hk => ?_) (fun p hp => h.named p (List.mem_filter.mp hp).1) h.known
    h.kept h.dead
  rcases Delivery.living_iff.mp hk with ⟨other, hmem⟩ | hkeeps | hheld
  · exact Delivery.living_iff.mpr (.inl ⟨other, (List.mem_filter.mp hmem).1⟩)
  · exact living_of_keeps hkeeps
  · exact held_living d k hheld

/-- A new handler (`Workshop.define`) has a number of its own, so it is none of those that are dead. -/
theorem defines (name : String) (deeds : Nat → List Deed) : Sound { d with rest := d.rest.define name deeds } := by
  -- a name may have stood for another handler, which is forgotten
  have hnames : ∀ p ∈ (d.rest.define name deeds).names, p ∈ d.rest.names ∨ p.2 = d.rest.handlers.length := by
    intro p hp
    rcases List.mem_append.mp hp with hold | hlast
    · exact .inl (List.mem_filter.mp hold).1
    · rw [List.mem_singleton.mp hlast]
      exact .inr rfl
  have hlength : (d.rest.define name deeds).handlers.length = d.rest.handlers.length + 1 := by simp [Workshop.define]
  refine next (d := d) ?_ ?_ ?_ h.known h.kept h.dead
  · show d.rest.handlers.length ≤ (d.rest.define name deeds).handlers.length
    omega
  · -- nobody comes back to life: the new handler has a number of its own
    intro k hlt hk
    rcases Delivery.living_iff.mp hk with ⟨other, hmem⟩ | hkeeps | hheld
    · rcases hnames _ hmem with hold | hnew
      · exact Delivery.living_iff.mpr (.inl ⟨other, hold⟩)
      · exact absurd hnew (Nat.ne_of_lt hlt)
    · exact living_of_keeps hkeeps
    · exact held_living d k hheld
  · intro p hp
    show p.2 < (d.rest.define name deeds).handlers.length
    rcases hnames p hp with hold | hnew
    · have := h.named p hold
      omega
    · omega

/-- What a delivery found dead is removed (`prune`), from whatever list is in place by now. -/
theorem prunes (t : Topic) :
    Sound { d with bus := { d.bus with table := editTable t (prune d.dead) d.bus.table } } := by
  have hnil : prune d.dead [] = [] := List.sublist_nil.mp (prune_sublist d.dead [])
  refine h.same_names rfl rfl (fun k hk => living_of_keeps (keeps_of_lists hk rfl fun p hp => ?_)) (held_living d)
    h.known (fun other => ?_) h.dead
  · rcases mem_editTable hp with hmem | ⟨es, hmem, heq⟩
    · exact ⟨p, hmem, List.Subset.refl _⟩
    · refine ⟨(t, es), hmem, ?_⟩
      rw [heq]
      exact (prune_sublist d.dead es).subset
  · simp only [d.bus.entries_editTable t other hnil]
    split
    · exact (h.kept other).prune (fun e he => (h.dead e he).2)
        fun e he hstrong => living_of_keeps (keeps_of_mem_entries he hstrong)
    · exact h.kept other

/-- The bus goes on to keep the handler that was called last. -/
theorem pins : Sound { bus := { d.bus with publishing := false, pinned := d.held.toList ++ d.bus.pinned }
                       rest := d.rest } := by
  refine h.same_lists rfl rfl rfl (fun _ => rfl) (fun k hk => ?_) (fun k hk => by cases hk) fun e he => by cases he
  rcases List.mem_append.mp hk with hheld | hpin
  · exact held_living d k (Option.mem_toList.mp hheld)
  · exact pinned_living d k hpin

theorem closes (t : Topic) : Sound { bus := d.close t, rest := d.rest } := by
  unfold Delivery.close
  split
  · exact (h.prunes t).pins
  · exact h.pins

end Changes

/-- A deed, if what it publishes keeps the moment sound.  This is used for handlers, whose publishing only queues, and
    for deeds from outside. -/
theorem acts {publisher : Publisher} {deed : Deed} {b : Bus Values} {w : Workshop} {outcome : Outcome} (h : Sound d)
    (hpublish : ∀ event b w aborted, publisher event d.bus d.rest = some (b, w, aborted) →
      Sound { d with bus := b, rest := w })
    (hact : act publisher deed d.bus d.rest = some (b, w, outcome)) : Sound { d with bus := b, rest := w } := by
  cases deed with
  | plan name deeds =>
    cases hact
    exact h.defines name deeds
  | subscribe topic name weak =>
    cases hact
    cases hfind : d.rest.find? name with
    | none => exact h
    | some handler =>
      obtain ⟨before, after, hnames, -⟩ := List.lookup_eq_some_iff.mp hfind
      exact h.subscribes topic ⟨name, by rw [hnames]; simp⟩
  | unsubscribe topic name =>
    cases hact
    cases d.rest.find? name with
    | none => exact h
    | some handler => exact h.unsubscribes topic handler
  | clear topic =>
    cases topic with
    | none =>
      cases hact
      exact h.clearsAll
    | some topic =>
      cases hact
      exact h.clears topic
  -- a handler publishes on its own: that this keeps soundness is what is assumed
  | publish topic data =>
    obtain ⟨⟨b₁, w₁, aborted⟩, hpublished, heq⟩ := Option.map_eq_some_iff.mp hact
    cases heq
    exact hpublish _ _ _ _ hpublished
  | drop name =>
    cases hact
    exact h.forgets name
  | note text =>
    cases hact
    exact h.notes rfl rfl
  | fail | abort =>
    cases hact
    exact h

end Sound

/-! ## Moments of a publish -/

/-- What the bus and the workshop become at some moment while a handler does its deeds. -/
inductive PassesDeeds (publisher : Publisher) : List Deed → Bus Values → Workshop → Bus Values → Workshop → Prop where
  | start {deeds : List Deed} {b : Bus Values} {w : Workshop} : PassesDeeds publisher deeds b w b w
  | after {deed : Deed} {deeds : List Deed} {b b' : Bus Values} {w w' : Workshop} {outcome : Outcome} :
      act publisher deed b w = some (b', w', outcome) → PassesDeeds publisher (deed :: deeds) b w b' w'
  | later {deed : Deed} {deeds : List Deed} {b b₁ b' : Bus Values} {w w₁ w' : Workshop} :
      act publisher deed b w = some (b₁, w₁, .done) → PassesDeeds publisher deeds b₁ w₁ b' w' →
      PassesDeeds publisher (deed :: deeds) b w b' w'

/-- What a delivery becomes at some moment while subscriptions have their turns: it stands between two turns, or a
    handler is being called. -/
inductive PassesTurns (publisher : Publisher) (event : Event Values) :
    Delivery Values Workshop → List Entry → Delivery Values Workshop → Prop where
  | start {d : Delivery Values Workshop} {es : List Entry} : PassesTurns publisher event d es d
  | calling {d : Delivery Values Workshop} {e : Entry} {es : List Entry} {h : Handler} {b : Bus Values} {w : Workshop} :
      d.alive (surroundings publisher) e.handler = true → d.rest.handlers[e.handler]? = some h →
      PassesDeeds publisher (h.deeds h.calls) (d.bus.mark (.begins e.handler event))
        ((d.rest.see (.call h.name event.topic event.data)).countCall e.handler) b w →
      PassesTurns publisher event d (e :: es) { d with bus := b, rest := w, held := some e.handler }
  | after {d : Delivery Values Workshop} {e : Entry} {es : List Entry} :
      PassesTurns publisher event d (e :: es) (d.visit (surroundings publisher) event e)
  | later {d x : Delivery Values Workshop} {e : Entry} {es : List Entry} :
      (d.visit (surroundings publisher) event e).aborted = none →
      PassesTurns publisher event (d.visit (surroundings publisher) event e) es x →
      PassesTurns publisher event d (e :: es) x

/-- What the bus and the workshop become at some moment while the queue is drained. -/
inductive PassesQueue (publisher : Publisher) : Bus Values → Workshop → Delivery Values Workshop → Prop where
  | start {b : Bus Values} {w : Workshop} : PassesQueue publisher b w { bus := b, rest := w }
  | delivering {b : Bus Values} {w : Workshop} {event : Event Values} {queue : List (Event Values)}
      {x : Delivery Values Workshop} : b.queue = event :: queue → b.entries event.topic ≠ [] →
      PassesTurns publisher event
        { bus := ({ b with queue }.mark (.dispatched event)).openList event.topic, rest := w }
        (b.entries event.topic) x →
      PassesQueue publisher b w x
  | after {b b' : Bus Values} {w w' : Workshop} {event : Event Values} {queue : List (Event Values)}
      {aborted : Option String} : b.queue = event :: queue →
      deliver (surroundings publisher) event { b with queue } w = (b', w', aborted) →
      PassesQueue publisher b w { bus := b', rest := w' }
  | later {b b' : Bus Values} {w w' : Workshop} {event : Event Values} {queue : List (Event Values)}
      {x : Delivery Values Workshop} : b.queue = event :: queue →
      deliver (surroundings publisher) event { b with queue } w = (b', w', none) → PassesQueue publisher b' w' x →
      PassesQueue publisher b w x

/-- What a run of deeds ends with is a moment of it. -/
theorem PassesDeeds.of_perform {publisher : Publisher} {deeds : List Deed} {b b' : Bus Values} {w w' : Workshop}
    {ending : Ending} (h : perform publisher deeds b w = some (b', w', ending)) :
    PassesDeeds publisher deeds b w b' w' := by
  -- by induction on the deeds, of which a failing one is the last to be done
  induction deeds generalizing b w with
  | nil =>
    cases h
    exact .start
  | cons deed deeds ih =>
    simp only [perform] at h
    cases hact : act publisher deed b w with
    | none =>
      rw [hact] at h
      cases h
    | some result =>
      obtain ⟨b₁, w₁, outcome⟩ := result
      rw [hact] at h
      cases outcome with
      | done => exact .later hact (ih h)
      | failed text | aborted text =>
        cases h
        exact .after hact

/-- What the turns end with is a moment of them. -/
theorem PassesTurns.of_visitAll (publisher : Publisher) (event : Event Values) (d : Delivery Values Workshop)
    (es : List Entry) : PassesTurns publisher event d es (d.visitAll (surroundings publisher) event es) := by
  induction es generalizing d with
  | nil => exact .start
  | cons e es ih =>
    simp only [Delivery.visitAll]
    split
    · exact .after
    · rename_i hgoes
      exact .later (by simpa using hgoes) (ih _)

/-- What draining ends with is a moment of it. -/
theorem PassesQueue.of_drain {publisher : Publisher} {fuel : Nat} {b b' : Bus Values} {w w' : Workshop}
    {aborted : Option String} (h : drain (surroundings publisher) fuel b w = some (b', w', aborted)) :
    PassesQueue publisher b w { bus := b', rest := w' } := by
  -- by induction on the fuel: each round takes one event from the queue
  induction fuel generalizing b w with
  | zero =>
    unfold drain at h
    split at h
    · cases h
      exact .start
    · cases h
  | succ fuel ih =>
    unfold drain at h
    split at h
    · cases h
      exact .start
    · rename_i event queue hqueue
      simp only at h
      cases hdeliver : deliver (surroundings publisher) event { b with queue } w with
      | mk b₁ result =>
        obtain ⟨w₁, stop⟩ := result
        rw [hdeliver] at h
        cases stop with
        | none => exact .later hqueue hdeliver (ih h)
        -- the delivery is aborted, and it is the last one
        | some text =>
          cases h
          exact .after hqueue hdeliver

/-! ## Sound at every moment -/

/-- `Midway n d` — a moment in the middle of a delivery, when at least so many handlers have been defined. -/
structure Midway (n : Nat) (d : Delivery Values Workshop) : Prop where
  sound : Sound d
  publishing : d.bus.publishing = true
  length_le : n ≤ d.rest.handlers.length

section Moments

variable {publisher : Publisher} (hqueues : publisher.Queues) {n : Nat} {d x : Delivery Values Workshop}
  {event : Event Values} {b b' : Bus Values} {w w' : Workshop}

include hqueues

theorem length_act {deed : Deed} {outcome : Outcome} (hpublishing : b.publishing = true)
    (h : act publisher deed b w = some (b', w', outcome)) : w.handlers.length ≤ w'.handlers.length := by
  cases deed with
  | plan name deeds =>
    cases h
    simp [Workshop.define]
  | publish topic data =>
    -- during a delivery a publish only adds to the queue
    obtain ⟨r, hpublish, heq⟩ := Option.map_eq_some_iff.mp h
    cases hqueues _ b w r hpublishing hpublish
    cases heq
    exact Nat.le_refl _
  | clear topic =>
    cases topic <;>
    · cases h
      exact Nat.le_refl _
  | subscribe | unsubscribe | drop | note | fail | abort =>
    cases h
    exact Nat.le_refl _

/-- A deed in the middle of a delivery.  What it publishes is only put on the queue, because the bus is `publishing`. -/
theorem Midway.act {deed : Deed} {outcome : Outcome} (h : Midway n d)
    (hact : act publisher deed d.bus d.rest = some (b, w, outcome)) : Midway n { d with bus := b, rest := w } := by
  obtain ⟨marks, hadds, -⟩ := meddles_act hqueues h.publishing hact
  refine ⟨h.sound.acts (fun event b w aborted hpublish => ?_) hact, hadds.publishing_eq.trans h.publishing,
    Nat.le_trans h.length_le (length_act hqueues h.publishing hact)⟩
  cases hqueues event d.bus d.rest _ h.publishing hpublish
  exact h.sound.bus rfl rfl fun _ => rfl

theorem Midway.deeds {deeds : List Deed} (h : Midway n { d with bus := b, rest := w })
    (hpasses : PassesDeeds publisher deeds b w b' w') : Midway n { d with bus := b', rest := w' } := by
  induction hpasses with
  | start => exact h
  | after hact => exact h.act hqueues hact
  | later hact _ ih => exact ih (h.act hqueues hact)

omit hqueues in
/-- A handler that is alive is called, and counts the call. -/
theorem Midway.begins (h : Midway n d) (event : Event Values) {handler : Nat} (hliving : d.living handler = true)
    (sight : Sight) :
    Midway n { d with bus := d.bus.mark (.begins handler event)
                      rest := (d.rest.see sight).countCall handler, held := some handler } := by
  have hlength : ((d.rest.see sight).countCall handler).handlers.length = d.rest.handlers.length :=
    List.length_modify ..
  have hsound := (h.sound.holds hliving).bus (b := d.bus.mark (.begins handler event)) rfl rfl fun _ => rfl
  exact ⟨hsound.notes (w := (d.rest.see sight).countCall handler) rfl hlength, h.publishing, hlength ▸ h.length_le⟩

omit hqueues in
/-- A call is over, and perhaps it is reported or the delivery given up. -/
theorem Midway.ends (h : Midway n d) (handler : Nat) {w : Workshop} (hnames : w.names = d.rest.names)
    (hhandlers : w.handlers = d.rest.handlers) (aborted : Option String) :
    Midway n { d with bus := d.bus.mark (.ends handler event), rest := w, aborted } := by
  have hlength : w.handlers.length = d.rest.handlers.length := congrArg List.length hhandlers
  have hsound := (h.sound.bus (b := d.bus.mark (.ends handler event)) rfl rfl fun _ => rfl).notes hnames hlength
  exact ⟨⟨hsound.named, hsound.known, hsound.kept, hsound.dead⟩, h.publishing,
    hlength ▸ h.length_le⟩

/-- The call of a handler, from its first deed to its last. -/
theorem Midway.call (h : Midway n d) (event : Event Values) {handler : Nat} (hliving : d.living handler = true) :
    Midway n { d with
      bus := (callHandler publisher handler event (d.bus.mark (.begins handler event)) d.rest).1
      rest := (callHandler publisher handler event (d.bus.mark (.begins handler event)) d.rest).2.1
      held := some handler } := by
  unfold callHandler
  split
  · exact ⟨(h.sound.holds hliving).bus rfl rfl fun _ => rfl, h.publishing, h.length_le⟩
  · rename_i program _
    have hbegins := h.begins event hliving (.call program.name event.topic event.data)
    cases hperform : perform publisher (program.deeds program.calls) (d.bus.mark (.begins handler event))
      ((d.rest.see (.call program.name event.topic event.data)).countCall handler) with
    | none =>
      simp only [hperform]
      exact hbegins
    | some result =>
      simp only [hperform]
      exact Midway.deeds hqueues (d := { d with held := some handler }) hbegins (.of_perform hperform)

/-- The turn of a subscription: its handler is called, or it is found dead. -/
theorem Midway.visit (h : Midway n d) {e : Entry} (hknown : e.handler < n) :
    Midway n (d.visit (surroundings publisher) event e) := by
  unfold Delivery.visit
  split
  · rename_i halive
    have hcall := h.call hqueues event halive
    simp only [surroundings]
    generalize callHandler publisher e.handler event (d.bus.mark (.begins e.handler event)) d.rest = result at hcall
    obtain ⟨b, w, ending⟩ := result
    cases ending with
    | returned => exact hcall.ends e.handler rfl rfl d.aborted
    | failed => exact hcall.ends e.handler (w := w.see (.log (failureReport event.topic))) rfl rfl d.aborted
    | aborted text => exact hcall.ends e.handler rfl rfl (some text)
  · rename_i hdead
    have hlt : e.handler < d.rest.handlers.length := Nat.lt_of_lt_of_le hknown h.length_le
    exact ⟨h.sound.skips hlt (Bool.not_eq_true _ ▸ hdead), h.publishing, h.length_le⟩

theorem Midway.turns {es : List Entry} (h : Midway n d) (hknown : ∀ e ∈ es, e.handler < n)
    (hpasses : PassesTurns publisher event d es x) : Midway n x := by
  induction hpasses with
  | start => exact h
  | @calling d e _ program _ _ halive _ hdeeds =>
    have hbegins := h.begins event halive (.call program.name event.topic event.data)
    exact Midway.deeds hqueues (d := { d with held := some e.handler }) hbegins hdeeds
  | after => exact h.visit hqueues (hknown _ List.mem_cons_self)
  | later _ _ ih =>
    refine ih (h.visit hqueues (hknown _ List.mem_cons_self)) fun e he => ?_
    exact hknown e (List.mem_cons_of_mem _ he)

/-- Every moment of a delivery is sound (`Sound`). -/
theorem Sound.turns (h : Sound { bus := b, rest := w })
    (hpasses : PassesTurns publisher event { bus := (b.mark (.dispatched event)).openList event.topic, rest := w }
      (b.entries event.topic) x) : Sound x := by
  have hstart : Midway w.handlers.length
      { bus := (b.mark (.dispatched event)).openList event.topic, rest := w } :=
    ⟨(h.bus (b := b.mark (.dispatched event)) rfl rfl fun _ => rfl).opens event.topic, rfl, Nat.le_refl _⟩
  exact (hstart.turns hqueues (fun e he => h.known _ e ((h.kept _).sublist.subset he)) hpasses).sound

/-- A delivery from its beginning to its end: the list is opened, all subscriptions have their turns (`Midway.turns`),
    and what was found dead is removed. -/
theorem Sound.deliver {aborted : Option String} (h : Sound { bus := b, rest := w })
    (hdeliver : deliver (surroundings publisher) event b w = (b', w', aborted)) : Sound { bus := b', rest := w' } := by
  simp only [Bus.deliver] at hdeliver
  split at hdeliver
  · cases hdeliver
    exact h.bus rfl rfl fun _ => rfl
  · cases hdeliver
    exact (h.turns hqueues (.of_visitAll publisher event _ _)).closes event.topic

/-- Every moment while the queue is drained is sound (`Sound`). -/
theorem Sound.queue (h : Sound { bus := b, rest := w }) (hpasses : PassesQueue publisher b w x) : Sound x := by
  induction hpasses with
  | start => exact h
  | delivering _ _ hturns => exact (h.waits _).turns hqueues hturns
  | after _ hdeliver => exact (h.waits _).deliver hqueues hdeliver
  | later _ hdeliver _ ih => exact ih ((h.waits _).deliver hqueues hdeliver)

/-- A publish from outside leaves a sound moment: the queue is drained by deliveries, each of which does. -/
theorem Sound.publish {fuel : Nat} {aborted : Option String} (h : Sound { bus := b, rest := w })
    (hpublish : publish (surroundings publisher) fuel event b w = some (b', w', aborted)) :
    Sound { bus := b', rest := w' } := by
  by_cases hidle : b.publishing = false
  · by_cases hnone : b.entries event.topic = []
    · rw [publish_unheard _ _ _ hidle hnone] at hpublish
      cases hpublish
      exact h.bus rfl rfl fun _ => rfl
    · rw [publish_eq_drain _ _ _ hidle hnone] at hpublish
      obtain ⟨⟨b₁, w₁, stop⟩, hdrain, heq⟩ := Option.map_eq_some_iff.mp hpublish
      cases heq
      have hstart : Sound { bus := b.publishNext event, rest := w } := h.bus rfl rfl fun _ => rfl
      exact (hstart.queue hqueues (.of_drain hdrain)).settles
  · rw [publish_busy _ _ _ (Bool.not_eq_false _ ▸ hidle)] at hpublish
    cases hpublish
    exact h.bus rfl rfl fun _ => rfl

end Moments

/-! ## From one operation to the next -/

theorem Sound.fresh : Sound { bus := {}, rest := {} } where
  named _ h := by cases h
  known _ _ h := by cases h
  kept _ := .nil
  dead _ h := by cases h

/-- A bus and a workshop as they can be between two operations from outside. -/
inductive Reached : Bus Values → Workshop → Prop where
  | fresh : Reached {} {}
  | after {fuel : Nat} {deed : Deed} {b b' : Bus Values} {w w' : Workshop} {outcome : Outcome} :
      Reached b w → doDeed fuel deed b w = some (b', w', outcome) → Reached b' w'

/-- `b.PassesPublish fuel event w x` — what they become at some moment of an outermost publish with so much fuel. -/
def PassesPublish (fuel : Nat) (event : Event Values) (b : Bus Values) (w : Workshop)
    (x : Delivery Values Workshop) : Prop :=
  b.entries event.topic ≠ [] ∧ PassesQueue (innerPublish fuel) (b.publishNext event) w x

theorem Reached.deeds {fuel : Nat} {deeds : List Deed} {b b' : Bus Values} {w w' : Workshop} (h : Reached b w)
    (hpasses : PassesDeeds (Bus.publish (workshop fuel) fuel) deeds b w b' w') : Reached b' w' := by
  induction hpasses with
  | start => exact h
  | after hact => exact h.after hact
  | later hact _ ih => exact ih (h.after hact)

/-- So every bus that can be reached (`Reached`) is sound, by induction on the operations from outside. -/
theorem Reached.sound {b : Bus Values} {w : Workshop} (h : Reached b w) : Sound { bus := b, rest := w } := by
  induction h with
  | fresh => exact .fresh
  | @after fuel deed b b' w w' outcome _ hdeed ih =>
    refine ih.acts (fun event b w aborted hpublish => ?_) hdeed
    rw [workshop_eq] at hpublish
    exact ih.publish (queues_innerPublish fuel) hpublish

/-! ## What deeds do -/

/-- What a deed is to do to the lists of subscriptions.  Publishing leaves them alone: what handlers do then are deeds
    of their own. -/
def Deed.effect (w : Workshop) (lists : Topic → List Entry) (t : Topic) : Deed → List Entry
  | .subscribe topic name weak =>
    match w.find? name with
    | some handler => if topic = t then lists t ++ [⟨handler, weak⟩] else lists t
    | none => lists t
  | .unsubscribe topic name =>
    match w.find? name with
    | some handler => if topic = t then (lists t).filter (·.handler ≠ handler) else lists t
    | none => lists t
  | .clear none => []
  | .clear (some topic) => if topic = t then [] else lists t
  | _ => lists t

/-- The trail tells of a deed what it is to do to the lists. -/
theorem subscribedTo_act {publisher : Publisher} (hqueues : publisher.Queues) {deed : Deed} {b b' : Bus Values}
    {w w' : Workshop} {outcome : Outcome} (hpublish : ∀ topic data, deed = .publish topic data → b.publishing = true)
    (h : act publisher deed b w = some (b', w', outcome)) (t : Topic) :
    subscribedTo t b'.trail = deed.effect w (subscribedTo · b.trail) t := by
  cases deed with
  | subscribe topic name weak =>
    cases h
    simp only [Deed.effect]
    cases w.find? name with
    | none => rfl
    | some handler => exact b.subscribedTo_subscribe topic t ⟨handler, weak⟩
  | unsubscribe topic name =>
    cases h
    simp only [Deed.effect]
    cases w.find? name with
    | none => rfl
    | some handler => exact b.subscribedTo_unsubscribe topic t handler
  | clear topic =>
    cases topic with
    | none =>
      cases h
      exact b.subscribedTo_clearAll t
    | some topic =>
      cases h
      exact b.subscribedTo_clear topic t
  | publish topic data =>
    -- a publish from within a delivery only adds to the queue; the host's own is not a deed
    obtain ⟨r, hpublished, heq⟩ := Option.map_eq_some_iff.mp h
    cases hqueues _ b w r (hpublish topic data rfl) hpublished
    cases heq
    rfl
  | plan | drop | note | fail | abort =>
    cases h
    rfl

/-! ## What publishing itself does -/

section Publishing

variable {ε β : Type} {s : Surroundings ε β} {t : Topic} {R : List Entry → List Entry → Prop}
  (hcalls : ∀ handler event b rest,
    ReflTransGen R (subscribedTo t b.trail) (subscribedTo t (s.call handler event b rest).1.trail))

include hcalls

/-- Whatever calls of handlers do to a list, a delivery does by such calls and by nothing else: the turn of one
    subscription (`Delivery.visit`). -/
theorem subscribedTo_visit (event : Event ε) (d : Delivery ε β) (e : Entry) :
    ReflTransGen R (subscribedTo t d.bus.trail) (subscribedTo t (d.visit s event e).bus.trail) := by
  unfold Delivery.visit
  split
  · have hcall := hcalls e.handler event (d.bus.mark (.begins e.handler event)) d.rest
    generalize s.call e.handler event (d.bus.mark (.begins e.handler event)) d.rest = result at hcall
    obtain ⟨bus, rest, ending⟩ := result
    cases ending <;> exact hcall
  · exact .refl

theorem subscribedTo_visitAll (event : Event ε) (d : Delivery ε β) (es : List Entry) :
    ReflTransGen R (subscribedTo t d.bus.trail) (subscribedTo t (d.visitAll s event es).bus.trail) := by
  induction es generalizing d with
  | nil => exact .refl
  | cons e es ih =>
    have hvisit := subscribedTo_visit hcalls event d e
    simp only [Delivery.visitAll]
    split
    · exact hvisit
    · exact hvisit.trans (ih _)

theorem subscribedTo_deliver (event : Event ε) (b : Bus ε) (rest : β) :
    ReflTransGen R (subscribedTo t b.trail) (subscribedTo t (deliver s event b rest).1.trail) := by
  simp only [deliver]
  split
  · exact .refl
  · have hall := subscribedTo_visitAll hcalls event
      { bus := (b.mark (.dispatched event)).openList event.topic, rest }
      ((b.mark (.dispatched event)).entries event.topic)
    simp only [Delivery.close]
    split <;> exact hall

/-- Publishing does to the lists what the calls of handlers do, and nothing else. -/
theorem subscribedTo_publish {fuel : Nat} {event : Event ε} {b b' : Bus ε} {rest rest' : β} {aborted : Option String}
    (h : publish s fuel event b rest = some (b', rest', aborted)) :
    ReflTransGen R (subscribedTo t b.trail) (subscribedTo t b'.trail) := by
  by_cases hidle : b.publishing = false
  · by_cases hnone : b.entries event.topic = []
    · rw [publish_unheard _ _ _ hidle hnone] at h
      cases h
      exact .refl
    · rw [publish_eq_drain _ _ _ hidle hnone] at h
      obtain ⟨⟨b₁, rest₁, stop⟩, hdrain, heq⟩ := Option.map_eq_some_iff.mp h
      cases heq
      -- what holds of the calls holds of each delivery, and so until the queue is empty
      refine (drain_keeps (P := fun b' _ => ReflTransGen R (subscribedTo t b.trail) (subscribedTo t b'.trail)) ?_ ?_
        hdrain).1
      · intro b' rest' event queue hsofar _
        exact hsofar.trans (subscribedTo_deliver hcalls event { b' with queue } rest')
      · exact .refl
  · rw [publish_busy _ _ _ (Bool.not_eq_false _ ▸ hidle)] at h
    cases h
    exact .refl

end Publishing

/-! ## No subscription is lost -/

/-- Whatever is done with a bus, no subscription is lost and none is invented.  The list of each topic is what has been
    subscribed and not taken back since (`subscribedTo`), but for some weak subscriptions whose handlers are dead:

    - between any two operations from outside;
    - at every moment of an outermost publish, also between two deeds of a handler that is being called.

    What has been subscribed is what the deeds were to do, one after the other: each of them has its effect
    (`Deed.effect`), and publishing has none but by the calls of handlers. -/
theorem no_subscription_lost {b : Bus Values} {w : Workshop} (h : Reached b w) :
    (∀ t, Kept (Delivery.living { bus := b, rest := w }) (b.entries t) (subscribedTo t b.trail)) ∧
      (∀ fuel event x, PassesPublish fuel event b w x →
        ∀ t, Kept x.living (x.bus.entries t) (subscribedTo t x.bus.trail)) ∧
      (∀ (fuel : Nat) (deed : Deed) (b b' : Bus Values) (w w' : Workshop) (outcome : Outcome),
        (∀ topic data, deed = .publish topic data → b.publishing = true) →
        act (innerPublish fuel) deed b w = some (b', w', outcome) →
        ∀ t, subscribedTo t b'.trail = deed.effect w (subscribedTo · b.trail) t) ∧
      ∀ (s : Surroundings Values Workshop) (t : Topic) (R : List Entry → List Entry → Prop),
        (∀ handler event b w,
          ReflTransGen R (subscribedTo t b.trail) (subscribedTo t (s.call handler event b w).1.trail)) →
        ∀ fuel event b w b' w' aborted, publish s fuel event b w = some (b', w', aborted) →
          ReflTransGen R (subscribedTo t b.trail) (subscribedTo t b'.trail) := by
  refine ⟨h.sound.kept, fun fuel event x hx => ?_, fun fuel deed b b' w w' outcome hpublish hact => ?_,
    fun s t R hcalls fuel event b w b' w' aborted hpublish => ?_⟩
  · have hstart : Sound { bus := b.publishNext event, rest := w } := h.sound.bus rfl rfl fun _ => rfl
    exact (hstart.queue (queues_innerPublish fuel) hx.2).kept
  · exact subscribedTo_act (queues_innerPublish fuel) hpublish hact
  · exact subscribedTo_publish hcalls hpublish

/-! ## A handler that dies -/

/-- What is done from outside: a guest has nothing but weak subscriptions, and a host, when called, drops the name of
    the guest and subscribes once more. -/
def invitation : List Deed :=
  [.plan "guest" fun _ => [],
    .plan "host" fun _ => [.drop "guest", .subscribe .chatStarted "host" true],
    .subscribe .chatStarted "host" false,
    .subscribe .chatStarted "guest" true,
    .subscribe .chatStarted "guest" true]

/-- The bus and the workshop that this comes to. -/
def invited : Bus Values × Workshop :=
  ((perform (Bus.publish (workshop 9) 9) invitation {} {}).map fun r => (r.1, r.2.1)).getD ({}, {})

/-- The guest dies while the host is called.  Its subscriptions are stored at that moment, and have gone afterwards. -/
theorem no_subscription_lost_invited :
    Reached invited.1 invited.2 ∧
      (∃ x, PassesPublish 9 ⟨.chatStarted, []⟩ invited.1 invited.2 x ∧ x.living 0 = false ∧
        x.bus.entries .chatStarted = [⟨1, false⟩, ⟨0, true⟩, ⟨0, true⟩, ⟨1, true⟩] ∧
        ∀ t, Kept x.living (x.bus.entries t) (subscribedTo t x.bus.trail)) ∧
      ∃ b w, doDeed 9 (.publish .chatStarted []) invited.1 invited.2 = some (b, w, .done) ∧
        b.entries .chatStarted = [⟨1, false⟩, ⟨1, true⟩] ∧
        subscribedTo .chatStarted b.trail = [⟨1, false⟩, ⟨0, true⟩, ⟨0, true⟩, ⟨1, true⟩] ∧
        ∀ t, Kept (Delivery.living { bus := b, rest := w }) (b.entries t) (subscribedTo t b.trail) := by
  have hperform : perform (Bus.publish (workshop 9) 9) invitation {} {} = some (invited.1, invited.2, .returned) := rfl
  have hinvited : Reached invited.1 invited.2 := Reached.fresh.deeds (.of_perform hperform)
  refine ⟨hinvited, ?_, ?_⟩
  · have hpasses : PassesPublish 9 ⟨.chatStarted, []⟩ invited.1 invited.2 _ :=
      ⟨List.cons_ne_nil _ _, .delivering rfl (List.cons_ne_nil _ _) (.calling rfl rfl (.later rfl (.after rfl)))⟩
    exact ⟨_, hpasses, rfl, rfl, (no_subscription_lost hinvited).2.1 _ _ _ hpasses⟩
  · have hdeed : doDeed 9 (.publish .chatStarted []) invited.1 invited.2 = some (_, _, .done) := rfl
    exact ⟨_, _, hdeed, rfl, rfl, (no_subscription_lost (hinvited.after hdeed)).1⟩

end ChatScene.Bus

/-
  Who is called when an event is delivered.

  The subscriptions that the topic has when the delivery begins have their turns one after the other.  Whatever handlers
  do meanwhile to the lists, and also when one of them fails, each subscription has its turn, and its handler is called
  if it is alive by then.  A handler with a strong subscription always is: when the list that the delivery began with is
  replaced, the delivery goes on to keep it.

  1. **Turns** — `turn s event b rest n` is the delivery when the turn of subscription `n` comes, and `heard` are the
     subscriptions whose handlers are alive when their turn comes.  One turn more is one visit more (`turn_succ`).

  2. **Guarded handlers** (`Guarded`) — a handler with a strong subscription in the list that the delivery began with is
     kept, by the list or by the delivery.  Whatever is done to the lists, this stays so (`Guarded.replaced`).

  3. **What handlers do** — handlers that never give up (`Workshop.NeverGivesUp`) leave all of this as it is (`Leaves`),
     deed by deed (`leaves_act`) and for a whole call (`leaves_call`).

  4. **The course of a delivery** (`Course`) — what has been done by the time that a turn comes, by induction on the
     number of the turn (`course`).

  5. **Main result** (`delivery_calls_the_living`) — the calls of a delivery are those of `heard`, in their order and
     one after the other, and strong subscriptions are always among them.
-/
import ChatScene.Proofs.EventOrder
import ChatScene.Proofs.Keeping

namespace ChatScene

/-- The call of a handler as it is seen. -/
def Bus.Sight.call? : Bus.Sight → Option (String × Topic × Values)
  | .call name topic data => some (name, topic, data)
  | _ => none

namespace Bus

/-! ## Turns -/

section Turns

variable {ε β : Type} (s : Surroundings ε β) (event : Event ε) (b : Bus ε) (rest : β)

/-- The delivery of an event when the turn of the subscription with this number comes. -/
def turn (i : Nat) : Delivery ε β :=
  ({ bus := (b.mark (.dispatched event)).openList event.topic, rest } : Delivery ε β).visitAll s event
    ((b.entries event.topic).take i)

/-- The subscriptions, with their numbers, whose handlers are alive when their turn comes. -/
def heard : List (Entry × Nat) :=
  (b.entries event.topic).zipIdx.filter fun p => (turn s event b rest p.2).alive s p.1.handler

/-- Those of the first ones. -/
def heardBefore (n : Nat) : List (Entry × Nat) :=
  ((b.entries event.topic).take n).zipIdx.filter fun p => (turn s event b rest p.2).alive s p.1.handler

theorem heardBefore_length : heardBefore s event b rest (b.entries event.topic).length = heard s event b rest := by
  rw [heardBefore, heard, List.take_length]

variable {s event b rest}

/-- One more subscription, if its handler is alive when its turn comes. -/
theorem heardBefore_succ {n : Nat} {e : Entry} (he : (b.entries event.topic)[n]? = some e) :
    heardBefore s event b rest (n + 1) = heardBefore s event b rest n ++
      if (turn s event b rest n).alive s e.handler then [(e, n)] else [] := by
  obtain ⟨hlt, -⟩ := List.getElem?_eq_some_iff.mp he
  have hlength : ((b.entries event.topic).take n).length = n := List.length_take_of_le (Nat.le_of_lt hlt)
  simp only [heardBefore, List.take_add_one, he, Option.toList_some, List.zipIdx_append, List.filter_append, hlength]
  simp [List.filter_cons]

/-- The last turn, when the delivery has not been given up before. -/
theorem Delivery.visitAll_snoc {d : Delivery ε β} {es : List Entry} (e : Entry)
    (h : (d.visitAll s event es).aborted = none) :
    d.visitAll s event (es ++ [e]) = (d.visitAll s event es).visit s event e := by
  induction es generalizing d with
  | nil =>
    simp only [List.nil_append, Delivery.visitAll]
    split <;> rfl
  | cons e' es ih =>
    simp only [List.cons_append, Delivery.visitAll] at h ⊢
    split
    · rename_i hstop
      rw [if_pos hstop] at h
      rw [h] at hstop
      cases hstop
    · rename_i hgoes
      rw [if_neg hgoes] at h
      exact ih h

/-- Unless the delivery is given up, one turn follows the other. -/
theorem turn_succ {n : Nat} {e : Entry} (he : (b.entries event.topic)[n]? = some e)
    (h : (turn s event b rest n).aborted = none) :
    turn s event b rest (n + 1) = (turn s event b rest n).visit s event e := by
  unfold turn at h ⊢
  rw [List.take_add_one, he]
  exact Delivery.visitAll_snoc e h

end Turns

/-! ## Handlers that give up nothing -/

/-- A deed that does not give up a publish, nor defines a handler that ever does. -/
inductive Deed.NeverGivesUp : Deed → Prop where
  | plan {name : String} {deeds : Nat → List Deed} :
      (∀ n, ∀ deed ∈ deeds n, deed.NeverGivesUp) → (Deed.plan name deeds).NeverGivesUp
  | subscribe {topic : Topic} {name : String} {weak : Bool} : (Deed.subscribe topic name weak).NeverGivesUp
  | unsubscribe {topic : Topic} {name : String} : (Deed.unsubscribe topic name).NeverGivesUp
  | clear {topic : Option Topic} : (Deed.clear topic).NeverGivesUp
  | publish {topic : Topic} {data : Values} : (Deed.publish topic data).NeverGivesUp
  | drop {name : String} : (Deed.drop name).NeverGivesUp
  | note {text : String} : (Deed.note text).NeverGivesUp
  | fail {text : String} : (Deed.fail text).NeverGivesUp

/-- No handler ever gives up a publish. -/
def Workshop.NeverGivesUp (w : Workshop) : Prop := ∀ h ∈ w.handlers, ∀ n, ∀ deed ∈ h.deeds n, deed.NeverGivesUp

/-- `w.sightOf event handler` — how the call of a handler with an event is seen. -/
def Workshop.sightOf (w : Workshop) (event : Event Values) (handler : Nat) : Option (String × Topic × Values) :=
  w.handlers[handler]?.map fun h => (h.name, event.topic, event.data)

theorem Workshop.NeverGivesUp.define {w : Workshop} (h : w.NeverGivesUp) {name : String} {deeds : Nat → List Deed}
    (hdeeds : ∀ n, ∀ deed ∈ deeds n, deed.NeverGivesUp) : (w.define name deeds).NeverGivesUp := by
  intro handler hmem
  rcases List.mem_append.mp hmem with hold | hnew
  · exact h handler hold
  · rw [List.mem_singleton.mp hnew]
    exact hdeeds

theorem Workshop.NeverGivesUp.countCall {w : Workshop} (h : w.NeverGivesUp) (n : Nat) : (w.countCall n).NeverGivesUp :=
  by
  intro handler hmem
  obtain ⟨i, hi⟩ := List.mem_iff_getElem?.mp hmem
  simp only [Workshop.countCall, List.getElem?_modify, Option.map_eq_map, Option.map_eq_some_iff] at hi
  obtain ⟨old, hold, rfl⟩ := hi
  have hdeeds := h old (List.mem_of_getElem? hold)
  split <;> exact hdeeds

/-! ## Strong subscriptions -/

section Guarded

variable {ε : Type} {t : Topic} {handler : Nat} {b : Bus ε}

/-- `b.Guarded t handler` — a handler with a strong subscription in the list that a delivery of a topic began with: the
    list is still in place, or the delivery keeps the handler. -/
def Guarded (t : Topic) (handler : Nat) (b : Bus ε) : Prop :=
  handler ∈ b.pinned ∨ t ∈ b.opened ∧ handler ∈ strongHandlers (b.entries t)

theorem Guarded.keeps (h : Guarded t handler b) : b.keeps handler = true := by
  rcases h with hpin | ⟨-, hstrong⟩
  · exact keeps_iff.mpr (.inl hpin)
  · obtain ⟨e, he, hweak, rfl⟩ := mem_strongHandlers.mp hstrong
    exact keeps_of_mem_entries he hweak

theorem entries_release (b : Bus ε) (t other : Topic) : (b.release t).entries other = b.entries other := by
  simp only [entries, list?, table_release]

/-- What is kept stays so (`pinned`), and a list that is replaced is kept by the deliveries that began with it. -/
theorem pinned_release (other : Topic) (h : handler ∈ b.pinned ∨ other = t ∧ Guarded t handler b) :
    handler ∈ (b.release other).pinned := by
  unfold release
  split
  · rcases h with hpin | ⟨rfl, hpin | ⟨-, hstrong⟩⟩
    · exact List.mem_append_right _ hpin
    · exact List.mem_append_right _ hpin
    · exact List.mem_append_left _ hstrong
  · rename_i hclosed
    rcases h with hpin | ⟨rfl, hpin | ⟨hopened, -⟩⟩
    · exact hpin
    · exact hpin
    · exact absurd (List.contains_iff_mem.mpr hopened) hclosed

/-- Letting a list go keeps its strong handlers, while a delivery is open. -/
theorem Guarded.release (h : Guarded t handler b) (other : Topic) : Guarded t handler (b.release other) := by
  by_cases hother : other = t
  · exact .inl (pinned_release other (.inr ⟨hother, h⟩))
  · rcases h with hpin | ⟨hopened, hstrong⟩
    · exact .inl (pinned_release (t := t) other (.inl hpin))
    · refine .inr ⟨?_, by rwa [entries_release]⟩
      unfold Bus.release
      split
      · exact List.mem_filter.mpr ⟨hopened, by simpa using Ne.symm hother⟩
      · exact hopened

/-- A new subscription replaces the list by a longer one. -/
theorem Guarded.subscribe (h : Guarded t handler b) (other : Topic) (e : Entry) :
    Guarded t handler (b.subscribe other e) := by
  have hpinned : (b.subscribe other e).pinned = b.pinned := by
    unfold Bus.subscribe
    split <;> rfl
  have hopened : (b.subscribe other e).opened = b.opened := by
    unfold Bus.subscribe
    split <;> rfl
  rcases h with hpin | ⟨hopen, hstrong⟩
  · exact .inl (hpinned ▸ hpin)
  · refine .inr ⟨hopened ▸ hopen, ?_⟩
    obtain ⟨e', he', hstrong⟩ := mem_strongHandlers.mp hstrong
    rw [entries_subscribe]
    split
    · exact mem_strongHandlers.mpr ⟨e', List.mem_append_left _ he', hstrong⟩
    · exact mem_strongHandlers.mpr ⟨e', he', hstrong⟩

/-- Where a list is released before it is replaced, its handlers are guarded (`Guarded`) as before. -/
theorem Guarded.replaced {b' : Bus ε} {other : Topic} (h : Guarded t handler b)
    (hpinned : b'.pinned = (b.release other).pinned) (hopened : b'.opened = (b.release other).opened)
    (hentries : other ≠ t → b'.entries t = b.entries t) : Guarded t handler b' := by
  by_cases hother : other = t
  · exact .inl (hpinned ▸ pinned_release other (.inr ⟨hother, h⟩))
  · rcases h.release other with hpin | ⟨hopen, hstrong⟩
    · exact .inl (hpinned ▸ hpin)
    · rw [entries_release] at hstrong
      exact .inr ⟨hopened ▸ hopen, (hentries hother).symm ▸ hstrong⟩

theorem Guarded.unsubscribe (h : Guarded t handler b) (other : Topic) (n : Nat) :
    Guarded t handler (b.unsubscribe other n) := by
  have hentries : other ≠ t → (b.unsubscribe other n).entries t = b.entries t := fun hother => by
    rw [entries_unsubscribe, if_neg hother]
  unfold Bus.unsubscribe at hentries ⊢
  split
  · rename_i hlist
    simp only [hlist] at hentries
    exact h.replaced rfl rfl hentries
  · exact h

theorem Guarded.clear (h : Guarded t handler b) (other : Topic) : Guarded t handler (b.clear other) := by
  refine h.replaced rfl rfl fun hother => ?_
  rw [entries_clear, if_neg hother]

theorem pinned_releaseAll {table : List (Topic × List Entry)}
    (h : handler ∈ b.pinned ∨ (∃ p ∈ table, p.1 = t) ∧ Guarded t handler b) :
    handler ∈ (table.foldl (fun b (t, _) => b.release t) b).pinned := by
  induction table generalizing b with
  | nil =>
    rcases h with hpin | ⟨⟨p, hp, -⟩, -⟩
    · exact hpin
    · cases hp
  | cons p table ih =>
    rw [List.foldl_cons]
    refine ih ?_
    rcases h with hpin | ⟨⟨q, hq, hqt⟩, hguarded⟩
    · exact .inl (pinned_release (t := t) p.1 (.inl hpin))
    · rcases List.mem_cons.mp hq with rfl | hlater
      · exact .inl (pinned_release q.1 (.inr ⟨hqt, hguarded⟩))
      · exact .inr ⟨⟨q, hlater, hqt⟩, hguarded.release p.1⟩

theorem Guarded.clearAll (h : Guarded t handler b) : Guarded t handler b.clearAll := by
  refine .inl (pinned_releaseAll (t := t) ?_)
  rcases id h with hpin | ⟨-, hstrong⟩
  · exact .inl hpin
  · -- the topic has a list
    refine .inr ⟨?_, h⟩
    obtain ⟨e, he, -⟩ := mem_strongHandlers.mp hstrong
    unfold entries list? at he
    cases hfind : b.table.find? (·.1 = t) with
    | none =>
      rw [hfind] at he
      cases he
    | some p => exact ⟨p, List.mem_of_find?_eq_some hfind, by simpa using List.find?_some hfind⟩

end Guarded

/-! ## What handlers do that never give up -/

/-- Publishers that put events on the queue while a delivery is going on. -/
def Publisher.Waits (publisher : Publisher) : Prop :=
  ∀ event b w, b.publishing = true → publisher event b w = some (b.enqueue event, w, none)

theorem Publisher.Waits.queues {publisher : Publisher} (h : publisher.Waits) : publisher.Queues := by
  intro event b w r hpublishing hr
  rw [h event b w hpublishing] at hr
  exact (Option.some.inj hr).symm

theorem waits_innerPublish (fuel : Nat) : (innerPublish (fuel + 1)).Waits :=
  fun _ _ w hpublishing => publish_busy (workshop fuel) fuel w hpublishing

/-- `b.Leaves w b' w'` — what a handler leaves behind in the middle of a delivery: handlers are such as before, no call
    of theirs has been seen, and what deliveries keep alive stays so. -/
structure Leaves (b : Bus Values) (w : Workshop) (b' : Bus Values) (w' : Workshop) : Prop where
  neverGivesUp : w'.NeverGivesUp
  calls_eq : w'.seen.filterMap Sight.call? = w.seen.filterMap Sight.call?
  publishing : b'.publishing = true
  guarded : ∀ t handler, Guarded t handler b → Guarded t handler b'

theorem Leaves.trans {b b₁ b₂ : Bus Values} {w w₁ w₂ : Workshop} (h : Leaves b w b₁ w₁) (h' : Leaves b₁ w₁ b₂ w₂) :
    Leaves b w b₂ w₂ :=
  ⟨h'.neverGivesUp, h'.calls_eq.trans h.calls_eq, h'.publishing,
    fun t handler hguarded => h'.guarded t handler (h.guarded t handler hguarded)⟩

section Programs

variable {publisher : Publisher} (hwaits : publisher.Waits) {b : Bus Values} {w : Workshop}
  (hpublishing : b.publishing = true) (hnever : w.NeverGivesUp)

include hwaits hpublishing hnever

/-- A deed that never gives up comes to an end, and leaves all this behind (`Leaves`). -/
theorem leaves_act {deed : Deed} (hdeed : deed.NeverGivesUp) :
    ∃ b' w' outcome, act publisher deed b w = some (b', w', outcome) ∧ (∀ text, outcome ≠ .aborted text) ∧
      Leaves b w b' w' := by
  have hsame : Leaves b w b w := ⟨hnever, rfl, hpublishing, fun _ _ h => h⟩
  have hbus : ∀ b' : Bus Values, b'.publishing = b.publishing →
      (∀ t handler, Guarded t handler b → Guarded t handler b') → Leaves b w b' w :=
    fun b' hsame hguarded => ⟨hnever, rfl, hsame.trans hpublishing, hguarded⟩
  -- deeds that name a handler do nothing if nobody has the name
  have huse : ∀ (name : String) (use : Nat → Bus Values), (∀ n, Leaves b w (use n) w) →
      Leaves b w ((w.find? name).elim b use) w := by
    intro name use huse
    cases w.find? name with
    | none => exact hsame
    | some n => exact huse n
  cases hdeed with
  | @plan name deeds hdeeds =>
    exact ⟨b, _, .done, rfl, nofun, hnever.define hdeeds, rfl, hpublishing, fun _ _ h => h⟩
  | @subscribe topic name weak =>
    refine ⟨_, w, .done, rfl, nofun, huse name _ fun n => ?_⟩
    exact hbus _ (b.edited_subscribe topic ⟨n, weak⟩).publishing_eq fun _ _ h => h.subscribe topic _
  | @unsubscribe topic name =>
    refine ⟨_, w, .done, rfl, nofun, huse name _ fun n => ?_⟩
    exact hbus _ (b.edited_unsubscribe topic n).publishing_eq fun _ _ h => h.unsubscribe topic n
  | @clear topic =>
    cases topic with
    | none => exact ⟨_, w, .done, rfl, nofun, hbus _ b.edited_clearAll.publishing_eq fun _ _ h => h.clearAll⟩
    | some topic =>
      exact ⟨_, w, .done, rfl, nofun, hbus _ (b.edited_clear topic).publishing_eq fun _ _ h => h.clear topic⟩
  -- a publish during a delivery waits in the queue
  | @publish topic data =>
    refine ⟨b.enqueue ⟨topic, data⟩, w, .done, ?_, nofun, hbus _ rfl fun _ _ h => h⟩
    simp only [act, hwaits _ b w hpublishing, Option.map_some, Option.elim_none]
  | drop => exact ⟨b, _, .done, rfl, nofun, hnever, rfl, hpublishing, fun _ _ h => h⟩
  | note => exact ⟨b, _, .done, rfl, nofun, hnever, rfl, hpublishing, fun _ _ h => h⟩
  | @fail text => exact ⟨b, w, .failed text, rfl, nofun, hsame⟩

/-- All deeds of a call, up to one that fails. -/
theorem leaves_perform {deeds : List Deed} (hdeeds : ∀ deed ∈ deeds, deed.NeverGivesUp) :
    ∃ b' w' ending, perform publisher deeds b w = some (b', w', ending) ∧ (∀ text, ending ≠ .aborted text) ∧
      Leaves b w b' w' := by
  induction deeds generalizing b w with
  | nil => exact ⟨b, w, .returned, rfl, by simp, hnever, rfl, hpublishing, fun _ _ h => h⟩
  | cons deed deeds ih =>
    obtain ⟨b₁, w₁, outcome, hact, hno, hfirst⟩ := leaves_act hwaits hpublishing hnever (hdeeds _ List.mem_cons_self)
    simp only [perform, hact]
    cases outcome with
    | aborted text => exact absurd rfl (hno text)
    | failed text => exact ⟨b₁, w₁, .failed, rfl, by simp, hfirst⟩
    | done =>
      obtain ⟨b₂, w₂, ending, hperform, hno, hrest⟩ :=
        ih hfirst.publishing hfirst.neverGivesUp fun deed hmem => hdeeds deed (List.mem_cons_of_mem _ hmem)
      exact ⟨b₂, w₂, ending, hperform, hno, hfirst.trans hrest⟩

/-- The call of a handler is seen, and no other call meanwhile. -/
theorem leaves_call (event : Event Values) (handler : Nat) :
    (∀ text, (callHandler publisher handler event b w).2.2 ≠ .aborted text) ∧
      ∃ seen, Leaves b { w with seen } (callHandler publisher handler event b w).1
          (callHandler publisher handler event b w).2.1 ∧
        seen.filterMap Sight.call? = (w.sightOf event handler).toList ++ w.seen.filterMap Sight.call? := by
  unfold callHandler Workshop.sightOf
  split
  · rename_i hnone
    exact ⟨nofun, w.seen, ⟨hnever, rfl, hpublishing, fun _ _ h => h⟩, by simp [hnone]⟩
  · rename_i h hsome
    have hcalled : ((w.see (.call h.name event.topic event.data)).countCall handler).NeverGivesUp :=
      Workshop.NeverGivesUp.countCall (w := w.see _) hnever handler
    obtain ⟨b', w', ending, hperform, hno, hleaves⟩ :=
      leaves_perform hwaits hpublishing hcalled (hnever h (List.mem_of_getElem? hsome) h.calls)
    simp only [hperform, Option.getD_some]
    refine ⟨hno, .call h.name event.topic event.data :: w.seen,
      ⟨hleaves.neverGivesUp, hleaves.calls_eq, hleaves.publishing, hleaves.guarded⟩, ?_⟩
    simp [hsome, Sight.call?]

end Programs

/-! ## One turn after the other -/

/-- A delivery that goes on: none of the handlers that there are will give it up. -/
structure Delivery.NotGivenUp (d : Delivery Values Workshop) : Prop where
  goes : d.aborted = none
  publishing : d.bus.publishing = true
  neverGivesUp : d.rest.NeverGivesUp

section Delivery

variable {publisher : Publisher} (hwaits : publisher.Waits) (event : Event Values)

include hwaits

/-- The turn of a subscription: the delivery goes on (`NotGivenUp`), and the call is seen if the handler is alive. -/
theorem Delivery.NotGivenUp.visit {d : Delivery Values Workshop} (h : d.NotGivenUp) (e : Entry) :
    (d.visit (surroundings publisher) event e).NotGivenUp ∧
      (d.visit (surroundings publisher) event e).rest.seen.filterMap Sight.call? =
        (if d.alive (surroundings publisher) e.handler then (d.rest.sightOf event e.handler).toList else []) ++
          d.rest.seen.filterMap Sight.call? ∧
      ∀ t handler, Guarded t handler d.bus → Guarded t handler (d.visit (surroundings publisher) event e).bus := by
  unfold Delivery.visit
  split
  · obtain ⟨hno, seen, hleaves, hseen⟩ :=
      leaves_call hwaits (b := d.bus.mark (.begins e.handler event)) h.publishing h.neverGivesUp event e.handler
    simp only [surroundings]
    generalize callHandler publisher e.handler event (d.bus.mark (.begins e.handler event)) d.rest = result
      at hno hleaves
    obtain ⟨b, w, ending⟩ := result
    have hcalls : w.seen.filterMap Sight.call? =
        (d.rest.sightOf event e.handler).toList ++ d.rest.seen.filterMap Sight.call? := hleaves.calls_eq.trans hseen
    cases ending with
    | returned => exact ⟨⟨h.goes, hleaves.publishing, hleaves.neverGivesUp⟩, hcalls, hleaves.guarded⟩
    | failed => exact ⟨⟨h.goes, hleaves.publishing, hleaves.neverGivesUp⟩, hcalls, hleaves.guarded⟩
    | aborted text => exact absurd rfl (hno text)
  · exact ⟨⟨h.goes, h.publishing, h.neverGivesUp⟩, rfl, fun _ _ hguarded => hguarded⟩

end Delivery

/-- `b.Course s event w n` — what has been done by the time that the turn of the subscription with this number comes. -/
structure Course (s : Surroundings Values Workshop) (event : Event Values) (b : Bus Values) (w : Workshop) (n : Nat) :
    Prop where
  notGivenUp : (turn s event b w n).NotGivenUp
  /-- The handlers called are those that were alive, in order. -/
  marks : ∃ marks, Adds marks ((b.mark (.dispatched event)).openList event.topic) (turn s event b w n).bus ∧
    marks.filter Mark.isActivity = callMarks event ((heardBefore s event b w n).map (·.1.handler))
  /-- Their calls have been seen, and no others. -/
  seen_eq : (turn s event b w n).rest.seen.reverse.filterMap Sight.call? = w.seen.reverse.filterMap Sight.call? ++
    (heardBefore s event b w n).filterMap fun p => (turn s event b w p.2).rest.sightOf event p.1.handler
  guarded : ∀ handler ∈ strongHandlers (b.entries event.topic),
    Guarded event.topic handler (turn s event b w n).bus

/-- The course of a delivery up to any turn, by induction on its number. -/
theorem course {publisher : Publisher} (hwaits : publisher.Waits) (event : Event Values) {b : Bus Values} {w : Workshop}
    (hnever : w.NeverGivesUp) {n : Nat} (hn : n ≤ (b.entries event.topic).length) :
    Course (surroundings publisher) event b w n := by
  -- by induction on the number of subscriptions that have had their turn
  induction n with
  | zero =>
    have hopened : event.topic ∈ ((b.mark (.dispatched event)).openList event.topic).opened := List.mem_cons_self
    exact ⟨⟨rfl, rfl, hnever⟩, ⟨[], .refl _, rfl⟩, (List.append_nil _).symm, fun _ hstrong => .inr ⟨hopened, hstrong⟩⟩
  | succ n ih =>
    obtain ⟨hgoes, ⟨marks, hadds, hactivity⟩, hseen, hguarded⟩ := ih (by omega)
    obtain ⟨e, he⟩ : ∃ e, (b.entries event.topic)[n]? = some e := ⟨_, List.getElem?_eq_getElem (by omega)⟩
    have hturn := turn_succ he hgoes.goes
    have hheard : heardBefore (surroundings publisher) event b w (n + 1) = _ := heardBefore_succ he
    -- the next turn: a call if the handler is alive, and nothing otherwise
    obtain ⟨hnext, hcalls, hguards⟩ := hgoes.visit hwaits event e
    obtain ⟨more, hadds', hactivity'⟩ := adds_visit (meddling_surroundings hwaits.queues) event hgoes.publishing e
    rw [← hturn] at hnext hcalls hguards hadds'
    refine ⟨hnext, ⟨marks ++ more, hadds.trans hadds', ?_⟩, ?_,
      fun handler hstrong => hguards _ _ (hguarded handler hstrong)⟩
    · rw [hheard, List.filter_append, hactivity, hactivity', List.map_append, callMarks_append]
      split <;> rfl
    · rw [hheard, List.filterMap_reverse, hcalls, List.reverse_append, ← List.filterMap_reverse, hseen,
        List.filterMap_append, List.append_assoc]
      split
      · cases hsight : (turn (surroundings publisher) event b w n).rest.sightOf event e.handler <;> simp [hsight]
      · rfl

/-! ## The delivery of one event -/

/-- A delivery is the turn after the last one, and then it is closed. -/
theorem deliver_eq_turn {ε β : Type} (s : Surroundings ε β) {event : Event ε} {b : Bus ε} (rest : β)
    (hsome : b.entries event.topic ≠ []) :
    deliver s event b rest =
      ((turn s event b rest (b.entries event.topic).length).close event.topic,
        (turn s event b rest (b.entries event.topic).length).rest,
        (turn s event b rest (b.entries event.topic).length).aborted) := by
  have hheard : ((b.mark (.dispatched event)).entries event.topic).isEmpty = false :=
    List.isEmpty_eq_false_iff.mpr hsome
  simp only [deliver, hheard, Bool.false_eq_true, if_false, turn, List.take_length]
  rfl

/-- Whatever handlers do that give up nothing, and also when they fail, a delivery is not given up, and

    - the handlers that are called are those of the subscriptions that the topic has when it begins, in their order and
      once for each subscription, that are alive when its turn comes (`heard`): neither what is subscribed nor what is
      taken back meanwhile makes a difference;
    - these calls are seen, and no others;
    - a handler with a strong subscription is alive when its turn comes. -/
theorem delivery_calls_the_living (fuel : Nat) (event : Event Values) {b : Bus Values} {w : Workshop}
    (hnever : w.NeverGivesUp) :
    (deliver (workshop (fuel + 1)) event b w).2.2 = none ∧
      (∃ marks : List (Mark Values), (deliver (workshop (fuel + 1)) event b w).1.trail = marks.reverse ++ b.trail ∧
        marks.filter Mark.isActivity =
          Dispatch.marks ⟨event, (heard (workshop (fuel + 1)) event b w).map (·.1.handler)⟩) ∧
      (deliver (workshop (fuel + 1)) event b w).2.1.seen.reverse.filterMap Sight.call? =
        w.seen.reverse.filterMap Sight.call? ++ (heard (workshop (fuel + 1)) event b w).filterMap (fun p =>
          (turn (workshop (fuel + 1)) event b w p.2).rest.sightOf event p.1.handler) ∧
      ∀ i e, (b.entries event.topic)[i]? = some e → e.weak = false →
        (turn (workshop (fuel + 1)) event b w i).alive (workshop (fuel + 1)) e.handler = true := by
  rw [workshop_eq]
  have hcourse : ∀ n ≤ (b.entries event.topic).length, Course (surroundings (innerPublish (fuel + 1))) event b w n :=
    fun n hn => course (waits_innerPublish fuel) event hnever hn
  generalize surroundings (innerPublish (fuel + 1)) = s at hcourse ⊢
  -- strong subscriptions: their handlers are guarded from the beginning on
  have hstrong : ∀ i e, (b.entries event.topic)[i]? = some e → e.weak = false →
      (turn s event b w i).alive s e.handler = true := by
    intro i e he hweak
    obtain ⟨hlt, -⟩ := List.getElem?_eq_some_iff.mp he
    have hguarded := (hcourse i (Nat.le_of_lt hlt)).guarded e.handler
      (mem_strongHandlers.mpr ⟨e, List.mem_of_getElem? he, hweak, rfl⟩)
    simp [Delivery.alive, hguarded.keeps]
  by_cases hnone : b.entries event.topic = []
  · have hdeliver : deliver s event b w = (b.mark (.dispatched event), w, none) := by
      simp only [deliver]
      exact if_pos (List.isEmpty_iff.mpr hnone)
    have hheard : heard s event b w = [] := by
      rw [heard, hnone]
      rfl
    rw [hdeliver, hheard]
    exact ⟨rfl, ⟨[.dispatched event], rfl, rfl⟩, (List.append_nil _).symm, hstrong⟩
  · rw [deliver_eq_turn s w hnone, ← heardBefore_length]
    obtain ⟨hgoes, ⟨marks, hadds, hactivity⟩, hseen, -⟩ := hcourse _ (Nat.le_refl _)
    refine ⟨hgoes.goes, ⟨.dispatched event :: marks, ?_, ?_⟩, hseen, hstrong⟩
    · have htrail := hadds.trail_eq
      rw [List.reverse_cons, List.append_assoc]
      simp only [Delivery.close]
      split <;> exact htrail
    · show Mark.dispatched event :: marks.filter Mark.isActivity = _
      rw [hactivity]
      rfl

/-! ## A party -/

/-- The host drops the guest, takes back all subscriptions of the friend, invites somebody late, clears the table and
    fails. -/
def party : Workshop where
  handlers := [
    { name := "host", deeds := fun _ => [.drop "guest", .unsubscribe .chatStarted "friend",
        .subscribe .chatStarted "late" false, .clear (some .chatStarted), .fail "too much"] },
    { name := "guest", deeds := fun _ => [] },
    { name := "friend", deeds := fun _ => [.publish .beatStarted []] },
    { name := "late", deeds := fun _ => [] }]
  names := [("host", 0), ("guest", 1), ("late", 3)]

/-- Nobody holds the name of the friend, who has a strong subscription beside a weak one. -/
def partyBus : Bus Values where
  table := [(.chatStarted, [⟨0, true⟩, ⟨1, true⟩, ⟨2, true⟩, ⟨2, false⟩, ⟨0, false⟩])]

/-- The host is called twice and so is the friend; the guest is dead when its turn comes, and the late one has none. -/
theorem delivery_calls_the_living_party :
    party.NeverGivesUp ∧
      (heard (workshop 1) ⟨.chatStarted, []⟩ partyBus party).map (·.1.handler) = [0, 2, 2, 0] ∧
      (deliver (workshop 1) ⟨.chatStarted, []⟩ partyBus party).2.2 = none ∧
      (∃ marks : List (Mark Values),
        (deliver (workshop 1) ⟨.chatStarted, []⟩ partyBus party).1.trail = marks.reverse ++ partyBus.trail ∧
        marks.filter Mark.isActivity = Dispatch.marks ⟨⟨.chatStarted, []⟩, [0, 2, 2, 0]⟩) := by
  have hnever : party.NeverGivesUp := by
    intro h hmem n deed hdeed
    simp only [party, List.mem_cons, List.not_mem_nil, or_false] at hmem
    rcases hmem with rfl | rfl | rfl | rfl
    · simp only [List.mem_cons, List.not_mem_nil, or_false] at hdeed
      rcases hdeed with rfl | rfl | rfl | rfl | rfl
      · exact .drop
      · exact .unsubscribe
      · exact .subscribe
      · exact .clear
      · exact .fail
    · cases hdeed
    · rw [List.mem_singleton.mp hdeed]
      exact .publish
    · cases hdeed
  have hheard : (heard (workshop 1) ⟨.chatStarted, []⟩ partyBus party).map (·.1.handler) = [0, 2, 2, 0] := rfl
  obtain ⟨hgoes, hmarks, -⟩ := delivery_calls_the_living 0 ⟨.chatStarted, []⟩ (b := partyBus) hnever
  rw [hheard] at hmarks
  exact ⟨hnever, hheard, hgoes, hmarks⟩

end Bus

end ChatScene

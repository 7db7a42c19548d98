/-
  What is subscribed, what is stored and who is kept alive.

  What has been subscribed to a topic, and not taken back since, can be told from the trail.  The list that a bus stores
  for the topic may lack some of it, but only weak subscriptions whose handlers are dead.

  1. **Subscribed** — `subscribedTo t trail` are the subscriptions to a topic as the trail tells them, and there is one
     lemma for each operation that edits the lists.

  2. **Stored** — `Kept alive stored subscribed` compares the two lists.  It stays when something is added or taken
     back, when handlers die (`Kept.wanes`), and when subscriptions of dead handlers are removed (`Kept.prune`).

  3. **Who is kept alive** — a handler is kept by a strong subscription in the table, or because a delivery that goes on
     has it pinned (`keeps_iff`).  None of the operations but a new subscription keeps a handler alive that was not kept
     before: `keeps_release`, `keeps_unsubscribe`, `keeps_clear`, and `keeps_subscribe` for the exception.

  These are the pieces of `Subscriptions`, where they are put together for whole deliveries.
-/
import ChatScene.Proofs.Table

namespace ChatScene.Bus

variable {ε : Type}

/-! ## What has been subscribed -/

/-- The subscriptions to a topic as the trail tells them, in order. -/
def subscribedTo (t : Topic) : List (Mark ε) → List Entry
  | [] => []
  | .subscribed topic entry :: earlier =>
    if topic = t then subscribedTo t earlier ++ [entry] else subscribedTo t earlier
  | .unsubscribed topic handler :: earlier =>
    if topic = t then (subscribedTo t earlier).filter (·.handler ≠ handler) else subscribedTo t earlier
  | .cleared none :: _ => []
  | .cleared (some topic) :: earlier => if topic = t then [] else subscribedTo t earlier
  | _ :: earlier => subscribedTo t earlier

section Operations

variable (b : Bus ε) (t other : Topic)

/-- A new subscription is the last of its topic. -/
theorem subscribedTo_subscribe (e : Entry) :
    subscribedTo other (b.subscribe t e).trail =
      if t = other then subscribedTo other b.trail ++ [e] else subscribedTo other b.trail := by
  rw [(b.edited_subscribe t e).trail_eq, subscribedTo]

/-- All subscriptions of the handler are taken back, in this topic. -/
theorem subscribedTo_unsubscribe (handler : Nat) :
    subscribedTo other (b.unsubscribe t handler).trail =
      if t = other then (subscribedTo other b.trail).filter (·.handler ≠ handler) else subscribedTo other b.trail := by
  rw [(b.edited_unsubscribe t handler).trail_eq, subscribedTo]

/-- A topic is cleared, and others are left alone. -/
theorem subscribedTo_clear :
    subscribedTo other (b.clear t).trail = if t = other then [] else subscribedTo other b.trail := by
  rw [(b.edited_clear t).trail_eq, subscribedTo]

theorem subscribedTo_clearAll : subscribedTo other b.clearAll.trail = [] := by
  rw [b.edited_clearAll.trail_eq, subscribedTo]

end Operations

/-- `Kept alive stored subscribed` — a stored list that has lost at most weak subscriptions of dead handlers: it has
    the order of what was subscribed, and all that is strong or alive in full. -/
structure Kept (alive : Nat → Bool) (stored subscribed : List Entry) : Prop where
  sublist : stored.Sublist subscribed
  full : ∀ e : Entry, e.weak = false ∨ alive e.handler = true → stored.count e = subscribed.count e

namespace Kept

variable {alive alive' : Nat → Bool} {stored subscribed : List Entry}

theorem nil : Kept alive [] [] := ⟨List.Sublist.refl [], fun _ _ => rfl⟩

theorem snoc (h : Kept alive stored subscribed) (e : Entry) : Kept alive (stored ++ [e]) (subscribed ++ [e]) := by
  constructor
  · exact h.sublist.append (List.Sublist.refl [e])
  · intro other hother
    rw [List.count_append, List.count_append, h.full other hother]

/-- The subscriptions of a handler taken back, in both lists. -/
theorem filter (h : Kept alive stored subscribed) (handler : Nat) :
    Kept alive (stored.filter (·.handler ≠ handler)) (subscribed.filter (·.handler ≠ handler)) := by
  constructor
  · exact h.sublist.filter _
  · intro e he
    by_cases hsame : e.handler = handler
    · rw [List.count_eq_zero_of_not_mem (by simp [hsame]), List.count_eq_zero_of_not_mem (by simp [hsame])]
    · rw [List.count_filter (by simpa using hsame), List.count_filter (by simpa using hsame)]
      exact h.full e he

/-- When handlers die nothing more is missing than may be. -/
theorem wanes (h : Kept alive stored subscribed)
    (hwanes : ∀ e ∈ subscribed, alive' e.handler = true → alive e.handler = true) : Kept alive' stored subscribed := by
  refine ⟨h.sublist, fun e he => ?_⟩
  by_cases hmem : e ∈ subscribed
  · rcases he with hstrong | halive
    · exact h.full e (.inl hstrong)
    · exact h.full e (.inr (hwanes e hmem halive))
  · have hgone : e ∉ stored := fun hstored => hmem (h.sublist.subset hstored)
    rw [List.count_eq_zero_of_not_mem hmem, List.count_eq_zero_of_not_mem hgone]

end Kept

/-! ## Removing the dead -/

theorem prune_sublist (dead es : List Entry) : (prune dead es).Sublist es := by
  unfold prune
  induction dead generalizing es with
  | nil => exact List.Sublist.refl es
  | cons e dead ih => exact (ih (es.erase e)).trans List.erase_sublist

/-- What is not to be removed is there as often as before. -/
theorem count_prune {dead : List Entry} {e : Entry} (h : e ∉ dead) (es : List Entry) :
    (prune dead es).count e = es.count e := by
  unfold prune
  induction dead generalizing es with
  | nil => rfl
  | cons other dead ih =>
    rw [List.mem_cons, not_or] at h
    rw [List.foldl_cons, ih h.2, List.count_erase_of_ne h.1]

/-- Removing subscriptions of dead handlers loses no more than may be (`Kept`) lost, if none of them is strong. -/
theorem Kept.prune {alive : Nat → Bool} {stored subscribed dead : List Entry} (h : Kept alive stored subscribed)
    (hdead : ∀ e ∈ dead, alive e.handler = false) (hstrong : ∀ e ∈ stored, e.weak = false → alive e.handler = true) :
    Kept alive (Bus.prune dead stored) subscribed := by
  refine ⟨(prune_sublist dead stored).trans h.sublist, fun e he => ?_⟩
  rw [← h.full e he]
  by_cases hmem : e ∈ dead
  · -- a dead subscription is asked for only if it is strong, and then it has gone before
    have hgone : e ∉ stored := by
      intro hstored
      have hfalse := hdead e hmem
      rcases he with hweak | halive
      · rw [hstrong e hstored hweak] at hfalse
        cases hfalse
      · rw [halive] at hfalse
        cases hfalse
    rw [List.count_eq_zero_of_not_mem hgone,
      List.count_eq_zero_of_not_mem fun hpruned => hgone ((prune_sublist dead stored).subset hpruned)]
  · exact count_prune hmem stored

/-! ## Who is kept alive -/

/-- `b.Holds handler` — a strong subscription of a handler is in the table. -/
def Holds (b : Bus ε) (handler : Nat) : Prop :=
  ∃ p ∈ b.table, ∃ e ∈ p.2, e.weak = false ∧ e.handler = handler

theorem mem_strongHandlers {es : List Entry} {handler : Nat} :
    handler ∈ strongHandlers es ↔ ∃ e ∈ es, e.weak = false ∧ e.handler = handler := by
  simp [strongHandlers, and_assoc]

/-- What `Bus.keeps` means: the handler is pinned, or has a strong subscription. -/
theorem keeps_iff {b : Bus ε} {handler : Nat} : b.keeps handler = true ↔ handler ∈ b.pinned ∨ b.Holds handler := by
  simp only [keeps, Bool.or_eq_true, List.contains_iff_mem, List.any_eq_true, Holds, mem_strongHandlers]

/-- A list of the edited table (`editTable`) is one of the old table, or the edited one. -/
theorem mem_editTable {t : Topic} {edit : List Entry → List Entry} {table : List (Topic × List Entry)}
    {p : Topic × List Entry} (h : p ∈ editTable t edit table) :
    p ∈ table ∨ ∃ es, (t, es) ∈ table ∧ p.2 = edit es := by
  induction table with
  | nil => cases h
  | cons q table ih =>
    obtain ⟨k, es⟩ := q
    simp only [editTable] at h
    split at h
    · rename_i hk
      rcases List.mem_cons.mp h with rfl | h
      · exact .inr ⟨es, by rw [hk]; exact List.mem_cons_self, rfl⟩
      · exact .inl (List.mem_cons_of_mem _ h)
    · rcases List.mem_cons.mp h with rfl | h
      · exact .inl List.mem_cons_self
      · rcases ih h with hmem | ⟨es', hmem, heq⟩
        · exact .inl (List.mem_cons_of_mem _ hmem)
        · exact .inr ⟨es', List.mem_cons_of_mem _ hmem, heq⟩

theorem mem_of_mem_entries {b : Bus ε} {t : Topic} {e : Entry} (h : e ∈ b.entries t) : ∃ p ∈ b.table, e ∈ p.2 := by
  unfold entries list? at h
  cases hfind : b.table.find? (·.1 = t) with
  | none =>
    rw [hfind] at h
    cases h
  | some p =>
    rw [hfind] at h
    exact ⟨p, List.mem_of_find?_eq_some hfind, h⟩

theorem keeps_of_mem_entries {b : Bus ε} {t : Topic} {e : Entry} (h : e ∈ b.entries t) (hstrong : e.weak = false) :
    b.keeps e.handler = true := by
  obtain ⟨p, hp, he⟩ := mem_of_mem_entries h
  exact keeps_iff.mpr (.inr ⟨p, hp, e, he, hstrong, rfl⟩)

/-- Where every list is a part of an old one, nobody is kept (`keeps`) who was not. -/
theorem keeps_of_lists {b b' : Bus ε} {handler : Nat} (h : b'.keeps handler = true) (hpinned : b'.pinned = b.pinned)
    (htable : ∀ p ∈ b'.table, ∃ q ∈ b.table, p.2 ⊆ q.2) : b.keeps handler = true := by
  rcases keeps_iff.mp h with hpin | ⟨p, hp, e, he, hstrong⟩
  · exact keeps_iff.mpr (.inl (hpinned ▸ hpin))
  · obtain ⟨q, hq, hsub⟩ := htable p hp
    exact keeps_iff.mpr (.inr ⟨q, hq, e, hsub he, hstrong⟩)

theorem keeps_release {b : Bus ε} {t : Topic} {handler : Nat} (h : (b.release t).keeps handler = true) :
    b.keeps handler = true := by
  unfold release at h
  split at h
  · rcases keeps_iff.mp h with hpin | hholds
    · rcases List.mem_append.mp hpin with hlist | hpin
      · obtain ⟨e, he, hstrong, rfl⟩ := mem_strongHandlers.mp hlist
        exact keeps_of_mem_entries he hstrong
      · exact keeps_iff.mpr (.inl hpin)
    · exact keeps_iff.mpr (.inr hholds)
  · exact h

theorem keeps_releaseAll {b : Bus ε} {table : List (Topic × List Entry)} {handler : Nat}
    (h : (table.foldl (fun b (t, _) => b.release t) b).keeps handler = true) : b.keeps handler = true := by
  induction table generalizing b with
  | nil => exact h
  | cons p table ih => exact keeps_release (ih h)

theorem keeps_unsubscribe {b : Bus ε} {t : Topic} {other handler : Nat}
    (h : (b.unsubscribe t other).keeps handler = true) : b.keeps handler = true := by
  unfold unsubscribe at h
  split at h
  · refine keeps_release (t := t) (keeps_of_lists h rfl fun p hp => ?_)
    rcases mem_editTable hp with hmem | ⟨es, hmem, heq⟩
    · exact ⟨p, hmem, List.Subset.refl _⟩
    · refine ⟨(t, es), hmem, ?_⟩
      rw [heq]
      exact List.filter_sublist.subset
  · exact h

theorem keeps_clear {b : Bus ε} {t : Topic} {handler : Nat} (h : (b.clear t).keeps handler = true) :
    b.keeps handler = true :=
  keeps_release (t := t) (keeps_of_lists h rfl fun p hp => ⟨p, (List.mem_filter.mp hp).1, List.Subset.refl _⟩)

theorem keeps_clearAll {b : Bus ε} {handler : Nat} (h : b.clearAll.keeps handler = true) : b.keeps handler = true :=
  keeps_releaseAll (keeps_of_lists (b := b.table.foldl (fun b (t, _) => b.release t) b) h rfl fun p hp => by cases hp)

/-- A new subscription keeps its own handler (`keeps`), and nobody else who was not kept. -/
theorem keeps_subscribe {b : Bus ε} {t : Topic} {e : Entry} {handler : Nat}
    (h : (b.subscribe t e).keeps handler = true) : b.keeps handler = true ∨ e.handler = handler := by
  -- an entry of the table is the new one or was there before
  have hnew : ∀ p ∈ (b.subscribe t e).table, ∀ e' ∈ p.2, e' = e ∨ ∃ q ∈ b.table, e' ∈ q.2 := by
    intro p hp e' he'
    unfold subscribe at hp
    split at hp
    · rcases mem_editTable hp with hmem | ⟨es, hmem, heq⟩
      · exact .inr ⟨p, hmem, he'⟩
      · rw [heq] at he'
        rcases List.mem_append.mp he' with hold | hlast
        · exact .inr ⟨_, hmem, hold⟩
        · exact .inl (List.mem_singleton.mp hlast)
    · rcases List.mem_append.mp hp with hmem | hlast
      · exact .inr ⟨p, hmem, he'⟩
      · rw [List.mem_singleton.mp hlast] at he'
        exact .inl (List.mem_singleton.mp he')
  have hpinned : (b.subscribe t e).pinned = b.pinned := by
    unfold subscribe
    split <;> rfl
  rcases keeps_iff.mp h with hpin | ⟨p, hp, e', he', hstrong, rfl⟩
  · exact .inl (keeps_iff.mpr (.inl (hpinned ▸ hpin)))
  · rcases hnew p hp e' he' with rfl | ⟨q, hq, hold⟩
    · exact .inr rfl
    · exact .inl (keeps_iff.mpr (.inr ⟨q, hq, e', hold, hstrong, rfl⟩))

end ChatScene.Bus

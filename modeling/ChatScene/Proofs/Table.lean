/-
  What the operations of a bus do to its parts.

  A bus keeps one list of subscriptions for each topic that has one (`Bus.table`).  What counts is not the table but the
  subscriptions of a topic, `Bus.entries`: a topic without a list has none.

  1. **The list of a topic** — `Bus.entries_subscribe`, `Bus.entries_unsubscribe`, `Bus.entries_clear` and
     `Bus.entries_clearAll` say what each operation does to the subscriptions of one topic, and that those of all other
     topics stay.  They rest on one lemma about tables, `Bus.find?_editTable`.

  2. **The rest of the bus** — the queue and the delivery that is going on are nobody's business but of those who
     publish and deliver, and every operation leaves its mark on the trail.  All this is in `Bus.Edited`, with one
     lemma for each operation.

  No proof outside of this file opens an operation on the lists.
-/
import ChatScene.Bus.Basic

namespace ChatScene.Bus

variable {ε : Type}

/-! ## The list of a topic -/

/-- After `editTable t edit` the list of `t` is edited, if there is one, and every other list is found as before. -/
theorem find?_editTable (t other : Topic) (edit : List Entry → List Entry) (table : List (Topic × List Entry)) :
    ((editTable t edit table).find? (·.1 = other)).map (·.2) =
      if t = other then ((table.find? (·.1 = other)).map (·.2)).map edit
      else (table.find? (·.1 = other)).map (·.2) := by
  induction table with
  | nil => simp [editTable]
  | cons p table ih =>
    obtain ⟨k, es⟩ := p
    by_cases hk : k = t
    · by_cases hother : t = other
      · simp [editTable, hk, hother]
      · simp [editTable, hk, hother]
    · by_cases hother : k = other
      · subst hother
        simp [editTable, hk, Ne.symm hk]
      · simp [editTable, hk, hother, ih]

/-- Editing with `id` changes nothing, so a list may be left alone as a special case of changing it. -/
theorem editTable_id (t : Topic) (table : List (Topic × List Entry)) : editTable t id table = table := by
  induction table with
  | nil => rfl
  | cons p table ih =>
    obtain ⟨k, es⟩ := p
    simp only [editTable, ih, id]
    split <;> rfl

/-- Giving up a list changes nothing but what deliveries keep alive. -/
theorem release_eq (b : Bus ε) (t : Topic) : ∃ opened pinned, b.release t = { b with opened, pinned } := by
  unfold release
  split
  · exact ⟨_, _, rfl⟩
  · exact ⟨_, _, rfl⟩

/-- What `release` gives up is not in the table. -/
theorem table_release (b : Bus ε) (t : Topic) : (b.release t).table = b.table := by
  obtain ⟨opened, pinned, heq⟩ := b.release_eq t
  rw [heq]

/-- Changing the list of a topic (`editTable`) changes its subscriptions, and no others.  The empty list has to stay
    empty, since a topic without a list has no subscriptions either. -/
theorem entries_editTable (b : Bus ε) (t other : Topic) {edit : List Entry → List Entry} (hnil : edit [] = []) :
    { b with table := editTable t edit b.table }.entries other =
      if t = other then edit (b.entries other) else b.entries other := by
  simp only [entries, list?, find?_editTable]
  by_cases hother : t = other
  · simp only [hother, if_true]
    cases b.table.find? (·.1 = other) with
    | none => exact hnil.symm
    | some p => rfl
  · simp [hother]

/-- A new subscription goes to the end of the list of its topic, which is made if there is none. -/
theorem entries_subscribe (b : Bus ε) (t other : Topic) (e : Entry) :
    (b.subscribe t e).entries other = if t = other then b.entries other ++ [e] else b.entries other := by
  unfold subscribe
  split
  · rename_i es hes
    simp only [entries, list?, find?_editTable]
    by_cases hother : t = other
    · rw [hother, list?] at hes
      simp [hother, hes]
    · simp [hother]
  · rename_i hnone
    -- a new list is the last one of the table, and is found if there was none before
    by_cases hother : t = other
    · subst hother
      have hfind : b.table.find? (·.1 = t) = none := by simpa [list?] using hnone
      simp [entries, list?, hfind]
    · simp [entries, list?, hother]

/-- All subscriptions of the `handler` to the topic go, and the others keep their order. -/
theorem entries_unsubscribe (b : Bus ε) (t other : Topic) (handler : Nat) :
    (b.unsubscribe t handler).entries other =
      if t = other then (b.entries other).filter (·.handler ≠ handler) else b.entries other := by
  unfold unsubscribe
  split
  · have hsame : (b.release t).entries other = b.entries other := by
      simp only [entries, list?, table_release]
    rw [← hsame]
    exact (b.release t).entries_editTable t other rfl
  · rename_i hnone
    have hmark : (b.mark (.unsubscribed t handler)).entries other = b.entries other := rfl
    rw [hmark]
    by_cases hother : t = other
    · subst hother
      simp [entries, hnone]
    · simp [hother]

/-- A topic that is cleared has no subscriptions left. -/
theorem entries_clear (b : Bus ε) (t other : Topic) :
    (b.clear t).entries other = if t = other then [] else b.entries other := by
  simp only [clear, entries, list?, table_release, List.find?_filter]
  by_cases hother : t = other
  · subst hother
    -- no list of this topic is left, and other lists are found as before
    have hnone : b.table.find? (fun p => decide (decide (p.1 ≠ t) = true ∧ decide (p.1 = t) = true)) = none := by
      rw [List.find?_eq_none]
      intro p _
      simp
    rw [hnone]
    simp
  · have hsame : (fun p : Topic × List Entry => decide (decide (p.1 ≠ t) = true ∧ decide (p.1 = other) = true)) =
        fun p => decide (p.1 = other) := by
      funext p
      by_cases hp : p.1 = other
      · simp [hp, Ne.symm hother]
      · simp [hp]
    simp only [hother, if_false]
    rw [hsame]

/-- After all topics have been cleared there are no subscriptions at all. -/
theorem entries_clearAll (b : Bus ε) (t : Topic) : b.clearAll.entries t = [] := rfl

/-! ## The rest of the bus -/

/-- `b.Edited m b'` — the bus after an operation on its lists: it has left a mark, and what waits and what goes on is
    as before. -/
structure Edited (m : Mark ε) (b b' : Bus ε) : Prop where
  queue_eq : b'.queue = b.queue
  publishing_eq : b'.publishing = b.publishing
  trail_eq : b'.trail = m :: b.trail

/-- Whether the list is new or not, subscribing touches neither queue nor delivery. -/
theorem edited_subscribe (b : Bus ε) (t : Topic) (e : Entry) : Edited (.subscribed t e) b (b.subscribe t e) := by
  unfold subscribe
  split <;> exact ⟨rfl, rfl, rfl⟩

/-- If there is a list, unsubscribing gives it up to the deliveries that go through it (`release`), and this touches
    neither queue nor delivery. -/
theorem edited_unsubscribe (b : Bus ε) (t : Topic) (handler : Nat) :
    Edited (.unsubscribed t handler) b (b.unsubscribe t handler) := by
  unfold unsubscribe
  split
  · obtain ⟨opened, pinned, heq⟩ := b.release_eq t
    rw [heq]
    exact ⟨rfl, rfl, rfl⟩
  · exact ⟨rfl, rfl, rfl⟩

theorem edited_clear (b : Bus ε) (t : Topic) : Edited (.cleared (some t)) b (b.clear t) := by
  unfold clear
  obtain ⟨opened, pinned, heq⟩ := b.release_eq t
  rw [heq]
  exact ⟨rfl, rfl, rfl⟩

/-- Giving up many lists changes no more than giving up one. -/
theorem releaseAll_eq (b : Bus ε) (table : List (Topic × List Entry)) :
    ∃ opened pinned, table.foldl (fun b (t, _) => b.release t) b = { b with opened, pinned } := by
  -- on the lists that are given up, for any bus, since each one changes the bus
  induction table generalizing b with
  | nil => exact ⟨_, _, rfl⟩
  | cons p table ih =>
    obtain ⟨t, es⟩ := p
    obtain ⟨opened, pinned, heq⟩ := b.release_eq t
    obtain ⟨opened', pinned', heq'⟩ := ih { b with opened, pinned }
    refine ⟨opened', pinned', ?_⟩
    simp only [List.foldl_cons, heq]
    exact heq'

/-- Clearing everything is one operation, with one mark, although many lists are given up. -/
theorem edited_clearAll (b : Bus ε) : Edited (.cleared none) b b.clearAll := by
  unfold clearAll
  obtain ⟨opened, pinned, heq⟩ := b.releaseAll_eq b.table
  rw [heq]
  exact ⟨rfl, rfl, rfl⟩

end ChatScene.Bus

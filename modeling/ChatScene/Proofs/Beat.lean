/-
  Beats: the commands of a beat run side by side, and do what they would do one after the other.

  The chains of a beat start in the order of their commands, and once started they only wind down.  So the order in
  which they go on from there, which depends on the times that they wait, does not matter; it is enough that they come
  to an end.

  1. **Winding down** — a chain `Chain.Winds` if it has run its command and only has to settle, announce and wait.  An
     entry of the lists `Wake.Winds` if it wakes such a chain, or tells that one is over.

  2. **Playing** (`Gear.Playing`) — the commands of `todo` have not run and stand in the ready list in their order, and
     all other chains of the group wind down.  One lemma for each thing that can be done to the lists says that it stays
     so.

  3. **Effort** (`Gear.effort`) — what the chains have to do weighs more than where they stand, so every step lessens
     it.  `Gear.count` is how many of them are on their way; with `Playing` it makes `Gear.InPlay`.

  4. **Down to the next command** (`Stage.winds_down`) — the chains that have run go on until the next command is due,
     or until all of them are over and the chain that plays the beat goes on.  This is by induction on the effort.

  5. **Main result** (`Stage.plays_beat`) — the commands of a beat do to the score what playing them one after the other
     does (`Score.play`), and then the chain that plays the beat goes on.
-/
import Mathlib.Algebra.BigOperators.Group.List.Basic
import ChatScene.Proofs.Winding

namespace ChatScene

/-! ## A beat that is being played -/

/-- What stands in the ready list for a command that has not run. -/
def launch (p : Command × Nat) : Wake := .resume p.2 none

/-- `c.Winds g` — a chain of the group that only winds down. -/
structure Chain.Winds (g : Nat) (c : Chain) : Prop where
  group_eq : c.group = some g
  frames_wind : ∀ f ∈ c.frames, f.Winds

/-- What wakes a chain of the group that winds down, or tells that one is over. -/
def Wake.Winds (g : Nat) (chains : List Chain) : Wake → Prop
  | .resume i failure => failure = none ∧ ∃ c, chains[i]? = some c ∧ c.Winds g
  | .over group failure => group = g ∧ failure = none

/-- A chain that winds down (`Winds`) changed into another one that does: what wakes chains still wakes such chains. -/
theorem Wake.Winds.modify {g i : Nat} {chains : List Chain} {x : Wake} {f : Chain → Chain} (h : x.Winds g chains)
    (hf : ∀ c, chains[i]? = some c → (f c).Winds g) : x.Winds g (chains.modify i f) := by
  rcases x with ⟨j, failure⟩ | ⟨group, failure⟩
  · obtain ⟨hfailure, c, hc, hwinds⟩ := h
    by_cases hij : i = j
    · subst hij
      exact ⟨hfailure, f c, by simp [hc], hf c hc⟩
    · exact ⟨hfailure, c, by simp [hc, hij], hwinds⟩
  · exact h

/-- A timer that is inserted in its place is one timer more. -/
theorem Stage.insertTimer_perm (t : Timer) (ts : List Timer) : (Stage.insertTimer t ts).Perm (t :: ts) := by
  induction ts with
  | nil => exact .refl _
  | cons u us ih =>
    unfold Stage.insertTimer
    split
    · exact .refl _
    · exact (ih.cons u).trans (.swap t u us)

namespace Gear

/-- A beat is being played: the commands of `todo` have not run, and all other chains of its group wind down; so many of
    them are not over. -/
structure Playing (k : Nat) (frames : List Frame) (g : Nat) (todo : List (Command × Nat)) (left : Nat) (G : Gear) :
    Prop where
  owner : G.chains[k]? = some { frames }
  group_eq : G.groups[g]? = some { owner := k, left }
  todo_chains : ∀ p ∈ todo, G.chains[p.2]? = some { frames := [.command p.1], group := some g }
  todo_nodup : (todo.map Prod.snd).Nodup
  ready_eq : ∃ later, G.ready = todo.map launch ++ later ∧ ∀ x ∈ later, x.Winds g G.chains
  timers_wind : ∀ t ∈ G.timers, (Wake.resume t.chain none).Winds g G.chains
  active_winds : ∀ i failure, G.active = some (i, failure) → (Wake.resume i failure).Winds g G.chains

namespace Playing

variable {k g left i : Nat} {frames : List Frame} {todo : List (Command × Nat)} {G G' : Gear}

theorem takeActive (h : G.Playing k frames g todo left) : { G with active := none }.Playing k frames g todo left :=
  ⟨h.owner, h.group_eq, h.todo_chains, h.todo_nodup, h.ready_eq, h.timers_wind, by simp⟩

/-- A chain of the group changed so that it winds down (`Winds`); it has run its command, and is not the one that plays
    the beat. -/
theorem modify (h : G.Playing k frames g todo left) {f : Chain → Chain} (hk : i ≠ k)
    (htodo : i ∉ todo.map Prod.snd) (hf : ∀ c, G.chains[i]? = some c → (f c).Winds g) :
    { G with chains := G.chains.modify i f }.Playing k frames g todo left where
  owner := by simp [hk, h.owner]
  group_eq := h.group_eq
  todo_chains p hp := by
    have hne : i ≠ p.2 := fun heq => htodo (heq ▸ List.mem_map_of_mem hp)
    simp [hne, h.todo_chains p hp]
  todo_nodup := h.todo_nodup
  ready_eq := by
    obtain ⟨later, hready, hlater⟩ := h.ready_eq
    exact ⟨later, hready, fun x hx => (hlater x hx).modify hf⟩
  timers_wind t ht := (h.timers_wind t ht).modify hf
  active_winds j failure hj := (h.active_winds j failure hj).modify hf

/-- More entries at the end of the ready list, so behind the commands that have not run (`todo`). -/
theorem push (h : G.Playing k frames g todo left) {xs : List Wake} (hxs : ∀ x ∈ xs, x.Winds g G.chains) :
    { G with ready := G.ready ++ xs }.Playing k frames g todo left where
  owner := h.owner
  group_eq := h.group_eq
  todo_chains := h.todo_chains
  todo_nodup := h.todo_nodup
  ready_eq := by
    obtain ⟨later, hready, hlater⟩ := h.ready_eq
    refine ⟨later ++ xs, by simp [hready], fun y hy => ?_⟩
    rcases List.mem_append.mp hy with hy | hy
    · exact hlater y hy
    · exact hxs y hy
  timers_wind := h.timers_wind
  active_winds := h.active_winds

/-- A chain in hand (`Playing`) goes its way: it runs on, waits its turn, or waits for a time. -/
theorem sends (h : G.Playing k frames g todo left) (hwinds : (Wake.resume i none).Winds g G.chains)
    (hsends : Sends i G G') : G'.Playing k frames g todo left := by
  cases hsends with
  | back =>
    refine h.push fun x hx => ?_
    rw [List.mem_singleton.mp hx]
    exact hwinds
  | on =>
    refine ⟨h.owner, h.group_eq, h.todo_chains, h.todo_nodup, h.ready_eq, h.timers_wind, ?_⟩
    rintro j failure hj
    cases hj
    exact hwinds
  | away t ht =>
    refine ⟨h.owner, h.group_eq, h.todo_chains, h.todo_nodup, h.ready_eq, fun u hu => ?_, h.active_winds⟩
    rcases List.mem_cons.mp ((Stage.insertTimer_perm t G.timers).mem_iff.mp hu) with rfl | hu
    · exact ht ▸ hwinds
    · exact h.timers_wind u hu

/-- When all commands have run, what is ready belongs to chains that wind down. -/
theorem takeReady (h : G.Playing k frames g [] left) {x : Wake} {ready : List Wake} (hready : G.ready = x :: ready) :
    x.Winds g G.chains ∧ { G with ready }.Playing k frames g [] left := by
  obtain ⟨later, heq, hlater⟩ := h.ready_eq
  obtain rfl : x :: ready = later := hready.symm.trans heq
  refine ⟨hlater x List.mem_cons_self, h.owner, h.group_eq, h.todo_chains, h.todo_nodup, ?_, h.timers_wind,
    h.active_winds⟩
  exact ⟨ready, rfl, fun y hy => hlater y (List.mem_cons_of_mem x hy)⟩

/-- Until then the next one that is ready is the next command. -/
theorem takeCommand {p : Command × Nat} (h : G.Playing k frames g (p :: todo) left) :
    ∃ ready, G.ready = launch p :: ready ∧ { G with ready }.Playing k frames g todo left := by
  obtain ⟨later, heq, hlater⟩ := h.ready_eq
  refine ⟨todo.map launch ++ later, heq, h.owner, h.group_eq, ?_, ?_, ⟨later, rfl, hlater⟩, h.timers_wind,
    h.active_winds⟩
  · exact fun q hq => h.todo_chains q (List.mem_cons_of_mem p hq)
  · exact (List.nodup_cons.mp h.todo_nodup).2

theorem fire (h : G.Playing k frames g todo left) {fired kept : List Timer} (htimers : G.timers = fired ++ kept) :
    (G.fire fired kept).Playing k frames g todo left := by
  have hkept : { G with timers := kept }.Playing k frames g todo left := by
    refine ⟨h.owner, h.group_eq, h.todo_chains, h.todo_nodup, h.ready_eq, fun t ht => ?_, h.active_winds⟩
    exact h.timers_wind t (htimers ▸ List.mem_append_right fired ht)
  refine hkept.push fun x hx => ?_
  obtain ⟨t, ht, rfl⟩ := List.mem_map.mp hx
  exact h.timers_wind t (htimers ▸ List.mem_append_left kept ht)

/-- A chain is over, and is counted: so many are left. -/
theorem counts (h : G.Playing k frames g todo left) (rest : Nat) :
    { G with groups := G.groups.set g { owner := k, left := rest } }.Playing k frames g todo rest where
  owner := h.owner
  group_eq := by
    obtain ⟨hlt, -⟩ := List.getElem?_eq_some_iff.mp h.group_eq
    simp [hlt]
  todo_chains := h.todo_chains
  todo_nodup := h.todo_nodup
  ready_eq := h.ready_eq
  timers_wind := h.timers_wind
  active_winds := h.active_winds

/-- A chain that winds down is not the one that plays the beat. -/
theorem ne_owner (h : G.Playing k frames g todo left) {failure : Option Failure}
    (hwinds : (Wake.resume i failure).Winds g G.chains) : i ≠ k := by
  rintro rfl
  obtain ⟨-, c, hc, hgroup, -⟩ := hwinds
  rw [h.owner] at hc
  cases hc
  cases hgroup

/-- It is not one that has still to run its command, either. -/
theorem not_todo (h : G.Playing k frames g todo left) {failure : Option Failure}
    (hwinds : (Wake.resume i failure).Winds g G.chains) : i ∉ todo.map Prod.snd := by
  intro hi
  obtain ⟨p, hp, rfl⟩ := List.mem_map.mp hi
  obtain ⟨-, c, hc, -, hframes⟩ := hwinds
  rw [h.todo_chains p hp] at hc
  cases hc
  exact hframes (.command p.1) List.mem_cons_self

end Playing

end Gear

/-! ## How much is left -/

/-- The effort of an entry of the ready list. -/
def Wake.effort : Wake → Nat
  | .resume _ _ => 3
  | .over _ _ => 1

/-- A sum over a list after one element has changed, without subtraction. -/
theorem sum_map_modify {α M : Type} [AddCommMonoid M] (weight : α → M) {xs : List α} {i : Nat} {x : α}
    (hx : xs[i]? = some x) (f : α → α) :
    ((xs.modify i f).map weight).sum + weight x = (xs.map weight).sum + weight (f x) := by
  induction xs generalizing i with
  | nil => cases hx
  | cons y ys ih =>
    cases i with
    | zero =>
      cases hx
      simp only [List.modify_zero_cons, List.map_cons, List.sum_cons]
      rw [add_right_comm, add_comm _ (weight (f x)), ← add_assoc]
    | succ i =>
      have hsum := ih (i := i) hx
      simp only [List.modify_succ_cons, List.map_cons, List.sum_cons]
      rw [add_assoc, hsum, add_assoc]

namespace Gear

variable {i : Nat} {G G' : Gear}

/-- How many chains are on their way, or over and not yet counted. -/
def count (G : Gear) : Nat := G.ready.length + G.timers.length + G.active.toList.length

/-- The effort until all chains have wound down: what they have to do weighs more than where they stand. -/
def effort (G : Gear) : Nat :=
  5 * (G.chains.map Chain.weight).sum + 4 * G.timers.length + (G.ready.map Wake.effort).sum +
    2 * G.active.toList.length

/-- The running chain taken in hand counts no longer. -/
theorem takeActive_lessens {a : Nat × Option Failure} (hactive : G.active = some a) :
    { G with active := none }.count + 1 = G.count ∧ { G with active := none }.effort + 2 = G.effort := by
  simp [count, effort, hactive]

theorem activate_adds (hactive : G.active = none) (a : Nat × Option Failure) :
    { G with active := some a }.count = G.count + 1 ∧ { G with active := some a }.effort = G.effort + 2 := by
  simp [count, effort, hactive]

theorem takeReady_lessens {x : Wake} {ready : List Wake} (hready : G.ready = x :: ready) :
    { G with ready }.count + 1 = G.count ∧ { G with ready }.effort + x.effort = G.effort := by
  simp only [count, effort, hready, List.length_cons, List.map_cons, List.sum_cons]
  omega

theorem push_adds (G : Gear) (x : Wake) :
    { G with ready := G.ready ++ [x] }.count = G.count + 1 ∧
      { G with ready := G.ready ++ [x] }.effort = G.effort + x.effort := by
  simp only [count, effort, List.length_append, List.length_singleton, List.map_append, List.map_singleton,
    List.sum_append, List.sum_singleton]
  omega

/-- Sending a chain on (`Sends`) costs at most as much as any place on the lists does. -/
theorem sends_adds (hactive : G.active = none) (h : Sends i G G') :
    G'.count = G.count + 1 ∧ G'.effort ≤ G.effort + 4 := by
  cases h with
  | on =>
    obtain ⟨hcount, heffort⟩ := activate_adds hactive (i, none)
    exact ⟨hcount, by rw [heffort]; omega⟩
  | back =>
    obtain ⟨hcount, heffort⟩ := push_adds G (.resume i none)
    exact ⟨hcount, by rw [heffort, Wake.effort]; omega⟩
  | away t ht =>
    have hlength := (Stage.insertTimer_perm t G.timers).length_eq
    simp only [count, effort, hlength, List.length_cons]
    omega

/-- Timers that fire: their chains are as many, but nearer to running. -/
theorem fire_lessens {fired kept : List Timer} (htimers : G.timers = fired ++ kept) :
    (G.fire fired kept).count = G.count ∧ (G.fire fired kept).effort + fired.length = G.effort := by
  have hfired : ((fired.map fun t => Wake.resume t.chain none).map Wake.effort).sum = 3 * fired.length := by
    clear htimers
    induction fired with
    | nil => rfl
    | cons t fired ih =>
      simp only [List.map_cons, List.sum_cons, ih, Wake.effort, List.length_cons]
      omega
  simp only [count, effort, fire, htimers, List.length_append, List.length_map, List.map_append, List.sum_append,
    hfired]
  omega

/-- A chain that is changed: its `weight` counts five times in the `effort`.  No place on the lists costs more than
    four, so a frame less is worth any change of place. -/
theorem effort_modify {c : Chain} (hc : G.chains[i]? = some c) (f : Chain → Chain) :
    { G with chains := G.chains.modify i f }.effort + 5 * c.weight = G.effort + 5 * (f c).weight := by
  have hsum := sum_map_modify Chain.weight hc f
  simp only [effort]
  omega

/-- `G.InPlay k frames g todo` — a beat is in play: all chains that are left of it are on their way, or over and not
    yet counted. -/
structure InPlay (k : Nat) (frames : List Frame) (g : Nat) (todo : List (Command × Nat)) (G : Gear) : Prop where
  playing : G.Playing k frames g todo G.count
  left_pos : 0 < G.count

end Gear

namespace Stage

variable {react : Reactions} {w : Stage} {k g i left : Nat} {frames : List Frame} {todo : List (Command × Nat)}

/-! ## One round of a beat -/

/-- A chain in hand (`Playing`) that has nothing left to do ends, which is to be counted. -/
theorem finish_playing (h : w.gear.Playing k frames g todo left) {c : Chain} (hc : w.gear.chains[i]? = some c)
    (hwinds : c.Winds g) :
    (w.finish i none).score = w.score ∧ (w.finish i none).gear.Playing k frames g todo left ∧
      (w.finish i none).gear.count = w.gear.count + 1 ∧ (w.finish i none).gear.effort = w.gear.effort + 1 := by
  have hchain : w.chains[i]? = some c := hc
  have hwake : (Wake.resume i none).Winds g w.gear.chains := ⟨rfl, c, hc, hwinds⟩
  -- an end changes nothing but the outcome of the chain; what is to be counted is ready then
  let close : Chain → Chain := fun c => { c with outcome := some none }
  let G : Gear := { w.gear with chains := w.gear.chains.modify i close }
  have hfinish : (w.finish i none).score = w.score ∧
      (w.finish i none).gear = { G with ready := G.ready ++ [.over g none] } := by
    have heq : w.finish i none = { w with chains := w.chains.modify i close, ready := w.ready ++ [.over g none] } := by
      simp [finish, groupOf, hchain, hwinds.group_eq, close]
    rw [heq]
    exact ⟨rfl, rfl⟩
  have hclose : G.Playing k frames g todo left := by
    refine h.modify (h.ne_owner hwake) (h.not_todo hwake) fun d hd => ?_
    rw [hc] at hd
    cases hd
    exact ⟨hwinds.group_eq, hwinds.frames_wind⟩
  obtain ⟨hcount, heffort⟩ := Gear.push_adds G (.over g none)
  have hmodify : G.effort + 5 * c.weight = w.gear.effort + 5 * (close c).weight := Gear.effort_modify hc close
  have hsame : (close c).weight = c.weight := rfl
  have hcost : (Wake.over g none).effort = 1 := rfl
  rw [hfinish.2, hcount, heffort]
  refine ⟨hfinish.1, hclose.push fun x hx => ?_, rfl, by omega⟩
  rw [List.mem_singleton.mp hx]
  exact ⟨rfl, rfl⟩

/-- A chain in hand does a frame: the `score` stays, and the effort gets less. -/
theorem runFrame_playing (hreact : NeitherCallsNorFails react) (h : w.gear.Playing k frames g todo left)
    (hactive : w.gear.active = none) {c : Chain} (hc : w.gear.chains[i]? = some c) (hwinds : c.Winds g) {f : Frame}
    {rest : List Frame} (hframes : c.frames = f :: rest) :
    (w.runFrame react i f rest).score = w.score ∧ (w.runFrame react i f rest).gear.Playing k frames g todo left ∧
      (w.runFrame react i f rest).gear.count = w.gear.count + 1 ∧
      (w.runFrame react i f rest).gear.effort < w.gear.effort := by
  have hwake : (Wake.resume i none).Winds g w.gear.chains := ⟨rfl, c, hc, hwinds⟩
  have hf : f.Winds := hwinds.frames_wind f (hframes ▸ List.mem_cons_self)
  obtain ⟨hscore, hsends⟩ := hreact.runFrame w i rest hf
  let go : Chain → Chain := fun c => { c with frames := f.remains ++ rest }
  let G : Gear := w.gear.setFrames i (f.remains ++ rest)
  have hgo : (go c).Winds g := by
    refine ⟨hwinds.group_eq, fun r hr => ?_⟩
    rcases List.mem_append.mp hr with hr | hr
    · exact hf.remains r hr
    · exact hwinds.frames_wind r (hframes ▸ List.mem_cons_of_mem f hr)
  have hset : G.Playing k frames g todo left := by
    refine h.modify (h.ne_owner hwake) (h.not_todo hwake) fun d hd => ?_
    rw [hc] at hd
    cases hd
    exact hgo
  have hnow : G.chains[i]? = some (go c) := by simp [G, Gear.setFrames, hc, go]
  obtain ⟨hcount, hle⟩ := Gear.sends_adds (G := G) hactive hsends
  refine ⟨hscore, hset.sends ⟨rfl, _, hnow, hgo⟩ hsends, hcount, ?_⟩
  -- what is left of the frame weighs less, and that outweighs where the chain goes
  have hmodify : G.effort + 5 * c.weight = w.gear.effort + 5 * (go c).weight := Gear.effort_modify hc go
  have hless := hf.weight_lt
  have hweight : c.weight = f.weight + (rest.map Frame.weight).sum := by simp [Chain.weight, hframes]
  have hweight' : (go c).weight = (f.remains.map Frame.weight).sum + (rest.map Frame.weight).sum := by
    simp [Chain.weight, go]
  omega

/-- The running chain does a frame, or ends.  Both are winding down. -/
theorem goes_winding (hreact : NeitherCallsNorFails react) (h : w.gear.InPlay k frames g todo)
    (hempty : w.nextEvent? = none) {failure : Option Failure} (hactive : w.active = some (i, failure)) :
    ∃ v, Goes react k w v ∧ v.score = w.score ∧ v.gear.InPlay k frames g todo ∧ v.gear.effort < w.gear.effort := by
  obtain ⟨rfl, c, hc, hwinds⟩ := h.playing.active_winds i failure hactive
  have hhand := h.playing.takeActive
  obtain ⟨hcount, heffort⟩ := Gear.takeActive_lessens (G := w.gear) hactive
  cases hframes : c.frames with
  -- nothing is left to do: the chain ends, and its end is to be counted
  | nil =>
    obtain ⟨u, hgear, huscore, -, hgo⟩ := goes_end react k hempty hactive hc hframes
    have hcu : u.gear.chains[i]? = some c := by rw [hgear]; exact hc
    rw [← hgear] at hhand hcount heffort
    obtain ⟨hscore, hplaying, hcount', heffort'⟩ := finish_playing hhand hcu hwinds
    rw [← hcount, ← hcount'] at hplaying
    exact ⟨_, hgo, hscore.trans huscore, ⟨hplaying, by omega⟩, by omega⟩
  -- the next frame is run
  | cons f rest =>
    obtain ⟨u, hgear, huscore, -, hgo⟩ := goes_frame react k hempty hactive hc hframes
    have hcu : u.gear.chains[i]? = some c := by rw [hgear]; exact hc
    rw [← hgear] at hhand hcount heffort
    obtain ⟨hscore, hplaying, hcount', heffort'⟩ :=
      runFrame_playing hreact hhand (by rw [hgear]) hcu hwinds hframes
    rw [← hcount, ← hcount'] at hplaying
    exact ⟨_, hgo, hscore.trans huscore, ⟨hplaying, by omega⟩, by omega⟩

/-- A chain of the group is counted (`memberOver`): the next one is awaited, or this was the last and the chain that
    plays the beat is awake. -/
theorem memberOver_playing (h : w.gear.Playing k frames g [] (w.gear.count + 1)) (hactive : w.gear.active = none) :
    (w.memberOver g none).score = w.score ∧ (w.memberOver g none).bus = w.bus ∧
      ((w.memberOver g none).gear.InPlay k frames g [] ∧ (w.memberOver g none).gear.effort = w.gear.effort ∨
        (w.memberOver g none).On k frames ∧ (w.memberOver g none).timers = []) := by
  have hgroup : w.groups[g]? = some { owner := k, left := w.gear.count + 1 } := h.group_eq
  by_cases hlast : w.gear.count = 0
  · -- this was the last one
    have hover : w.memberOver g none =
        { w with groups := w.groups.set g { owner := k, left := 0, settled := true }
                 ready := w.ready ++ [.resume k none] } := by
      simp [memberOver, hgroup, hlast]
    have hnone : w.ready = [] ∧ w.timers = [] := by
      have hcount : w.ready.length + w.timers.length + w.active.toList.length = 0 := hlast
      exact ⟨List.length_eq_zero_iff.mp (by omega), List.length_eq_zero_iff.mp (by omega)⟩
    rw [hover]
    let G : Gear := { w.gear with groups := w.groups.set g { owner := k, left := 0, settled := true } }
    have hlone : G.Lone k frames := ⟨h.owner, hnone.2, hnone.1, hactive⟩
    exact ⟨rfl, rfl, .inr ⟨⟨G, hlone, .back⟩, hnone.2⟩⟩
  · have hover : w.memberOver g none =
        { w with groups := w.groups.set g { owner := k, left := w.gear.count } } := by
      simp [memberOver, hgroup, hlast]
    have hpos : 0 < w.gear.count := Nat.pos_of_ne_zero hlast
    rw [hover]
    exact ⟨rfl, rfl, .inl ⟨⟨h.counts w.gear.count, hpos⟩, rfl⟩⟩

/-- When all commands have run and no chain is running, the next one that is ready goes on, or time passes. -/
theorem goes_waiting (h : w.gear.InPlay k frames g []) (hempty : w.nextEvent? = none)
    (hactive : w.active = none) (htime : TimeHelps react k w) :
    ∃ v, Goes react k w v ∧ v.score = w.score ∧
      (v.gear.InPlay k frames g [] ∧ v.gear.effort < w.gear.effort ∨ v.On k frames ∧ Clears react k v) := by
  cases hready : w.ready with
  | nil =>
    -- nothing is ready, but something is on its way: so it waits for a time
    have htimers : w.timers ≠ [] := by
      intro hnil
      have hpos : 0 < w.ready.length + w.timers.length + w.active.toList.length := h.left_pos
      simp [hready, hnil, hactive] at hpos
    obtain ⟨v, fired, kept, hgo, hfired, hsplit, hscore, -, hgear⟩ :=
      goes_fire hempty hactive hready htimers htime (outcome?_eq_none h.playing.owner)
    have hfire := h.playing.fire hsplit
    obtain ⟨hcount, heffort⟩ := Gear.fire_lessens (G := w.gear) hsplit
    rw [← hgear] at hfire hcount heffort
    rw [← hcount] at hfire
    have hpos := List.length_pos_iff.mpr hfired
    have hleft := h.left_pos
    exact ⟨v, hgo, hscore, .inl ⟨⟨hfire, by omega⟩, by omega⟩⟩
  | cons x ready =>
    let G : Gear := { w.gear with ready }
    -- all commands have run, so what is ready is a chain that winds down or the end of one
    obtain ⟨hx, hhand⟩ := h.playing.takeReady hready
    have hcount : G.count + 1 = w.gear.count := (Gear.takeReady_lessens hready).1
    have heffort : G.effort + x.effort = w.gear.effort := (Gear.takeReady_lessens hready).2
    rcases x with ⟨i, failure⟩ | ⟨group, failure⟩
    · obtain ⟨rfl, hchain⟩ := hx
      let v : Stage := { w with ready, active := some (i, none) }
      have htake : w.takeReady = some v := by simp [takeReady, hready, v]
      have hcount' : v.gear.count = G.count + 1 := (Gear.activate_adds (G := G) hactive (i, none)).1
      have heffort' : v.gear.effort = G.effort + 2 := (Gear.activate_adds (G := G) hactive (i, none)).2
      have hcost : (Wake.resume i none).effort = 3 := rfl
      have hplaying : v.gear.Playing k frames g [] w.gear.count := hhand.sends ⟨rfl, hchain⟩ .on
      rw [← hcount, ← hcount'] at hplaying
      exact ⟨v, goes_ready hempty hactive htake, rfl, .inl ⟨⟨hplaying, by omega⟩, by omega⟩⟩
    · obtain ⟨rfl, rfl⟩ := hx
      let v : Stage := { w with ready }
      have htake : w.takeReady = some (v.memberOver group none) := by simp [takeReady, hready, v]
      have hv : v.gear.Playing k frames group [] (v.gear.count + 1) := hcount ▸ hhand
      obtain ⟨hscore, hbus, hrest⟩ := memberOver_playing hv hactive
      refine ⟨_, goes_ready hempty hactive htake, hscore, ?_⟩
      rcases hrest with ⟨hplaying, hsame⟩ | ⟨hon, htimers⟩
      · have hcost : (Wake.over group none).effort = 1 := rfl
        have hready' : v.gear.effort = G.effort := rfl
        exact .inl ⟨hplaying, by omega⟩
      · exact .inr ⟨hon, .of_empty (nextEvent?_congr hempty hbus) htimers⟩

/-! ## The whole beat -/

/-- As long as chains of the group are on their way, the group has not come to an end (`Unsettled`). -/
theorem unsettled_of_inPlay (h : w.gear.InPlay k frames g todo) : w.Unsettled g := by
  intro group hgroup
  obtain rfl := Option.some.inj (hgroup.symm.trans h.playing.group_eq)
  rfl

/-- Chains wind down until the next command is due, or until all are over, by induction on the `effort`. -/
theorem winds_down (hfree : UnhinderedDuring react k g w) (h : w.gear.InPlay k frames g todo) :
    ∃ v, Arrives react k w v ∧ v.score = w.score ∧
      (todo = [] ∧ v.On k frames ∧ Clears react k v ∨
        todo ≠ [] ∧ v.active = none ∧ v.nextEvent? = none ∧ v.gear.InPlay k frames g todo) := by
  -- every round lessens the effort
  induction heffort : w.gear.effort using Nat.strongRecOn generalizing w with
  | ind effort ih =>
    obtain ⟨v, harrives, hsameScore, hempty, htime⟩ := hfree.clears (unsettled_of_inPlay h)
    have hplaying : v.gear.InPlay k frames g todo := by rw [hsameScore.gear_eq]; exact h
    have hround : ∀ u, Goes react k v u → u.score = v.score → u.gear.InPlay k frames g todo →
        u.gear.effort < v.gear.effort → ∃ v, Arrives react k w v ∧ v.score = w.score ∧
          (todo = [] ∧ v.On k frames ∧ Clears react k v ∨
            todo ≠ [] ∧ v.active = none ∧ v.nextEvent? = none ∧ v.gear.InPlay k frames g todo) := by
      intro u hgo hscore hu hless
      rw [hsameScore.gear_eq, heffort] at hless
      have harrives' := harrives.tail hgo
      obtain ⟨x, hx, hxscore, hrest⟩ := ih _ hless (hfree.arrives harrives') hu rfl
      exact ⟨x, harrives'.trans hx, hxscore.trans (hscore.trans hsameScore.score_eq), hrest⟩
    cases hactive : v.active with
    | some a =>
      obtain ⟨u, hgo, hscore, hu, hless⟩ := goes_winding hfree.neitherCallsNorFails hplaying hempty hactive
      exact hround u hgo hscore hu hless
    | none =>
      cases todo with
      | cons p todo =>
        exact ⟨v, harrives, hsameScore.score_eq, .inr ⟨by simp, hactive, hempty, hplaying⟩⟩
      | nil =>
        obtain ⟨u, hgo, hscore, ⟨hu, hless⟩ | hon⟩ := goes_waiting hplaying hempty hactive htime
        · exact hround u hgo hscore hu hless
        · exact ⟨u, harrives.tail hgo, hscore.trans hsameScore.score_eq, .inl ⟨rfl, hon⟩⟩

/-- The next command of the beat is taken and run, which does to the score what `Score.play` does. -/
theorem runs_next (hreact : NeitherCallsNorFails react) {p : Command × Nat} (h : w.gear.InPlay k frames g (p :: todo))
    (hempty : w.nextEvent? = none) (hactive : w.active = none) (hattached : w.session.attached = true) :
    ∃ v, Arrives react k w v ∧ v.score = w.score.play (some g) p.1 ∧ v.gear.InPlay k frames g todo := by
  obtain ⟨ready, hready, hhand⟩ := h.playing.takeCommand
  obtain ⟨hcount, -⟩ := Gear.takeReady_lessens hready
  have hchain := h.playing.todo_chains p List.mem_cons_self
  have htake : w.takeReady = some { w with ready, active := some (p.2, none) } := by
    have hready' : w.ready = .resume p.2 none :: ready := hready
    simp [takeReady, hready']
  have hempty' : { w with ready, active := some (p.2, none) }.nextEvent? = none := nextEvent?_congr hempty rfl
  obtain ⟨u, hgear, hscore, -, hgo⟩ := goes_frame react k hempty' rfl hchain rfl
  have hu : u.gear = { w.gear with ready } := by
    rw [hgear]
    simp [Stage.gear, hactive]
  have hlisten : u.session.attached = true := (congrArg (·.session.attached) hscore).trans hattached
  obtain ⟨fs, hfs, hplay, hsends⟩ := hreact.runCommand u p.2 p.1 hlisten
  -- the chain of the command belongs to the beat, so its deeds bear the number of the beat
  have hgroup : u.groupOf p.2 = some g := by
    have hchains : u.chains = w.chains := congrArg Gear.chains hu
    have hmember : w.chains[p.2]? = some { frames := [.command p.1], group := some g } := hchain
    simp [groupOf, hchains, hmember]
  rw [hgroup] at hplay
  rw [hu] at hsends
  let G : Gear := { w.gear with ready }.setFrames p.2 fs
  have hne : p.2 ≠ k := by
    intro heq
    rw [heq, h.playing.owner] at hchain
    cases hchain
  have hwinds : ({ frames := fs, group := some g } : Chain).Winds g := ⟨rfl, hfs⟩
  have hset : G.Playing k frames g todo w.gear.count := by
    refine hhand.modify hne (List.nodup_cons.mp h.playing.todo_nodup).1 fun d hd => ?_
    rw [hchain] at hd
    cases hd
    exact hwinds
  have hnow : G.chains[p.2]? = some { frames := fs, group := some g } := by simp [G, Gear.setFrames, hchain]
  have hplaying := hset.sends ⟨rfl, _, hnow, hwinds⟩ hsends
  obtain ⟨hcount', -⟩ := Gear.sends_adds (G := G) hactive hsends
  have hsame : G.count + 1 = w.gear.count := hcount
  rw [← hsame, ← hcount'] at hplaying
  refine ⟨_, .head (goes_ready hempty hactive htake) (.single hgo), ?_, hplaying, hcount' ▸ Nat.succ_pos _⟩
  exact hplay.trans (congrArg (Score.play (some g) · p.1) hscore)

/-- A beat is played to its end: its commands do to the `score` what they do one after the other, in the order of the
    script. -/
theorem plays_beat (hfree : UnhinderedDuring react k g w) (h : w.gear.InPlay k frames g todo)
    (hattached : w.session.attached = true) :
    ∃ v, Arrives react k w v ∧ v.score = (todo.map Prod.fst).foldl (Score.play (some g)) w.score ∧ v.On k frames ∧
      Clears react k v := by
  -- on the commands that have not run
  induction todo generalizing w with
  | nil =>
    obtain ⟨v, harrives, hscore, ⟨-, hon⟩ | ⟨hne, -⟩⟩ := winds_down hfree h
    · exact ⟨v, harrives, hscore, hon⟩
    · exact absurd rfl hne
  | cons p todo ih =>
    obtain ⟨v, harrives, hscore, ⟨hnil, -⟩ | ⟨-, hactive, hempty, hplaying⟩⟩ := winds_down hfree h
    · cases hnil
    · have hlisten : v.session.attached = true := (congrArg (·.session.attached) hscore).trans hattached
      obtain ⟨u, hnext, huscore, hu⟩ := runs_next hfree.neitherCallsNorFails hplaying hempty hactive hlisten
      have harrives' := harrives.trans hnext
      have hlisten' : u.session.attached = true := by
        have hsame : u.score.session.attached = v.score.session.attached := by rw [huscore, Score.play_attached]
        exact hsame.trans hlisten
      obtain ⟨x, hx, hxscore, hon⟩ := ih (hfree.arrives harrives') hu hlisten'
      refine ⟨x, harrives'.trans hx, ?_, hon⟩
      rw [hxscore, huscore, hscore]
      rfl

end Stage

end ChatScene

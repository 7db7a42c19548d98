/-
  Who waits for whom.

  A chain goes on by itself when it is running, stands in the ready list or waits for a time; otherwise it waits for the
  group of its beat, or is over.  Whatever happens, and also when chains fail or are made to fail, no chain waits in two
  places at once, a chain that is over goes on nowhere, and a group whose owner has not been told is waited for by that
  owner alone.  So once all chains are over nothing goes on any more.

  1. **The invariant** (`Gear.Coherent`) — `Gear.wakes` are all chains that will go on by themselves: none of them is
     there twice, and none is over.  `Gear.owed` is how many ends are owed to a group, and the owner of a group to which
     ends are owed `Awaits` it until it is told.

  2. **Strides** — `ChainStride` is what the strides of a chain are to the chains.  There is one lemma for each part of
     the invariant (`Gait.nodup`, `Gait.alive`, `Gait.awaits` and others), and `Gait.coherent_after` is all of them.

  3. **Turns** — a chain ends (`Coherent.ends`), an end is counted (`Coherent.counts`), and entries only change places
     (`Coherent.shuffle`); together `Coherent.turns`.

  4. **Main results** — every change of a stage keeps its gear coherent (`coherent_change`), so every stage that can be
     reached has it (`Reaches.coherent`).  And where all chains are over, nothing goes on any more
     (`Coherent.all_over`).
-/
import ChatScene.Proofs.Moves

namespace ChatScene

/-! ## Who waits -/

/-- The chain that goes on with an entry of the ready list. -/
def Wake.chain? : Wake → Option Nat
  | .resume chain _ => some chain
  | .over _ _ => none

/-- A chain of the group is over. -/
def Wake.isOver (group : Nat) : Wake → Bool
  | .resume _ _ => false
  | .over other _ => other = group

/-- A frame that is about to start the commands of a beat. -/
def Frame.isStart : Frame → Bool
  | .start _ _ _ => true
  | _ => false

theorem Frame.ne_start {f : Frame} (h : f.isStart = false) (context : Context) (n : Nat) (cs : List Command) :
    f ≠ .start context n cs := by
  rintro rfl
  cases h

/-- How many chains of the group the frame is about to start. -/
def Frame.starting (group : Nat) : Frame → Nat
  | .start _ number cs => if number = group then cs.length else 0
  | _ => 0

/-- A frame that starts no beat starts no chain. -/
theorem Frame.starting_eq_zero {group : Nat} {f : Frame} (h : f.isStart = false) : f.starting group = 0 := by
  cases f with
  | start => cases h
  | command | acts | settle | announce | advance | beat | reportEnd | leave | sleep => rfl

theorem Frame.sum_starting_eq_zero {group : Nat} {fs : List Frame} (h : ∀ f ∈ fs, f.isStart = false) :
    (fs.map (Frame.starting group)).sum = 0 := by
  refine List.sum_eq_zero fun n hn => ?_
  obtain ⟨f, hf, rfl⟩ := List.mem_map.mp hn
  exact Frame.starting_eq_zero (h f hf)

theorem Group.settled_of_tells {g : Group} {failure : Option Failure} (h : g.tells failure = true) :
    g.settled = false := by
  cases hsettled : g.settled with
  | false => rfl
  | true => simp [Group.tells, hsettled] at h

/-- `c.owes group` — how many ends the chain owes to the group. -/
def Chain.owes (group : Nat) (c : Chain) : Nat :=
  (if c.group = some group ∧ c.outcome.isNone then 1 else 0) + (c.frames.map (Frame.starting group)).sum

namespace Gear

/-- The running chain. -/
def running (G : Gear) : List Nat := (G.active.map (·.1)).toList

/-- The chains of the ready list. -/
def queued (G : Gear) : List Nat := G.ready.filterMap Wake.chain?

/-- All chains that will go on by themselves. -/
def wakes (G : Gear) : List Nat := G.running ++ (G.queued ++ G.timers.map (·.chain))

/-- `G.owed group` — how many ends are owed to the group. -/
def owed (G : Gear) (group : Nat) : Nat := (G.chains.map (Chain.owes group)).sum + G.ready.countP (Wake.isOver group)

/-- `G.Awaits group chain` — the chain waits for the group, or is about to start it. -/
def Awaits (G : Gear) (group chain : Nat) : Prop :=
  ∃ c, G.chains[chain]? = some c ∧
    ((∃ context onChoice rest, c.frames = .beat context onChoice :: rest) ∧ chain ∉ G.wakes ∨
      ∃ context cs, Frame.start context group cs ∈ c.frames)

/-- No chain waits in two places, those that go on are not over, and the owner of a group to which ends are owed waits
    for it until it is told. -/
structure Coherent (G : Gear) : Prop where
  nodup : G.wakes.Nodup
  alive : ∀ i ∈ G.wakes, ∃ c, G.chains[i]? = some c ∧ c.outcome = none
  emptied : ∀ c ∈ G.chains, c.outcome ≠ none → c.frames = []
  tail : ∀ c ∈ G.chains, ∀ f ∈ c.frames.tail, f.isStart = false
  starts : ∀ (i : Nat) (c : Chain), G.chains[i]? = some c →
    ∀ context n cs, .start context n cs ∈ c.frames → G.active = some (i, none)
  known : ∀ group, 0 < G.owed group → group < G.groups.length
  owners : ∀ (group : Nat) (g : Group), G.groups[group]? = some g → g.settled = false → 0 < G.owed group →
    G.Awaits group g.owner
  owners_inj : ∀ (group other : Nat) (g h : Group), G.groups[group]? = some g → G.groups[other]? = some h →
    g.settled = false → h.settled = false → 0 < G.owed group → 0 < G.owed other → g.owner = h.owner → group = other

end Gear

/-! ## Strides -/

/-- What the strides of a chain are to the chains. -/
inductive ChainStride (number chain : Nat) : Frame → Stride → Prop where
  /-- The chain goes on without starting others. -/
  | plain {frame : Frame} {t : Stride} : frame.isStart = false → t.begun = [] → (∀ f ∈ t.frames, f.isStart = false) →
      t.way ≠ .stay → (∀ timer, t.way = .away timer → timer.chain = chain) → ChainStride number chain frame t
  /-- A beat has been collected. -/
  | collects {frame : Frame} {t : Stride} {context : Context} {cs : List Command} : frame.isStart = false →
      t.begun = [] → t.frames = [.start context number cs] → t.way = .on none →
      t.opened = [{ owner := chain, left := cs.length }] → ChainStride number chain frame t
  /-- The commands of a beat start. -/
  | starts {t : Stride} {context : Context} {n : Nat} {cs : List Command} : t.begun = cs → t.number = n →
      (∃ onChoice, t.frames = [.beat context onChoice]) → t.way = .stay → t.opened = [] →
      ChainStride number chain (.start context n cs) t

/-- A chain that is free (`IsFree`) goes on by itself, and a timer that it sets is its own. -/
theorem Way.IsFree.goes {chain : Nat} {way : Way} (h : way.IsFree chain) :
    way ≠ .stay ∧ ∀ timer, way = .away timer → timer.chain = chain := by
  cases way with
  | on | back => exact ⟨nofun, nofun⟩
  | away t =>
    refine ⟨nofun, fun timer heq => ?_⟩
    cases heq
    exact h
  | stay => exact h.elim

/-- A `Round` collects a beat, or leaves no beat to start. -/
theorem Round.chainStride {beat : List Command} {script : Script} {number chain : Nat}
    {context : Context} {t : Stride} {frame : Frame} (h : Round beat script number chain context t)
    (hframe : frame.isStart = false) : ChainStride number chain frame t := by
  cases h with
  | ends => exact .plain hframe rfl (by simp [Frame.isStart]) nofun nofun
  | collects => exact .collects hframe rfl rfl rfl rfl

/-- All strides are of these kinds (`ChainStride`), unless a chain fails that is about to start a beat. -/
theorem Plays.chainStride {react : Reactions} {s : Session} {group : Option Nat} {number chain : Nat}
    {failure : Option Failure} {frame : Frame} {t : Stride}
    (h : Plays react s number group chain failure frame t) (hstart : failure = none ∨ frame.isStart = false) :
    ChainStride number chain frame t := by
  cases h with
  | @idles frame way hidle hfree =>
    have hframe : frame.isStart = false := by
      cases frame with
      | start => cases hidle
      | command | acts | settle | announce | advance | beat | reportEnd | leave | sleep => rfl
    exact .plain hframe rfl (by simp) hfree.goes.1 hfree.goes.2
  | dwells hfree => exact .plain rfl rfl (by simp [Frame.isStart]) hfree.goes.1 hfree.goes.2
  | shows | offers | jumps | nests | announces | stops | reports | deserted | leaves =>
    exact .plain rfl rfl (by simp [Frame.isStart]) nofun nofun
  | @enters context t hfinished hround =>
    -- entering the context is nothing to the chains
    have hstride : ChainStride number chain (.advance context) t := hround.chainStride rfl
    cases hstride with
    | plain hframe hbegun hframes hway haway => exact .plain hframe hbegun hframes hway haway
    | collects hframe hbegun hframes hon hopened => exact .collects hframe hbegun hframes hon hopened
  | continues hfinished hround => exact hround.chainStride rfl
  | starts => exact .starts rfl rfl ⟨_, rfl⟩ rfl rfl
  | fails | gives => exact .plain (hstart.resolve_left nofun) rfl (by simp) nofun nofun

namespace ChainStride

variable {number chain : Nat} {frame : Frame} {t : Stride}

/-- Beats to start are on top only, also after the stride. -/
theorem tail_closed (h : ChainStride number chain frame t) : ∀ f ∈ t.frames.tail, f.isStart = false := by
  cases h with
  | plain _ _ hclosed _ _ => exact fun f hf => hclosed f (List.mem_of_mem_tail hf)
  | collects _ _ hstart _ _ => simp [hstart]
  | starts _ _ hbeat _ _ =>
    obtain ⟨onChoice, hbeat⟩ := hbeat
    simp [hbeat]

/-- A chain that is about to start a beat goes on at once. -/
theorem on_of_start (h : ChainStride number chain frame t) {context : Context} {n : Nat} {cs : List Command}
    (hstart : .start context n cs ∈ t.frames) : t.way = .on none := by
  cases h with
  | plain _ _ hclosed _ _ => cases hclosed _ hstart
  | collects _ _ _ hway _ => exact hway
  | starts _ _ hbeat _ _ =>
    obtain ⟨onChoice, hbeat⟩ := hbeat
    simp [hbeat] at hstart

/-- A timer that a stride sets is that of its chain. -/
theorem away_self (h : ChainStride number chain frame t) {timer : Timer} (hway : t.way = .away timer) :
    timer.chain = chain := by
  cases h with
  | plain _ _ _ _ haway => exact haway timer hway
  | collects _ _ _ hon _ =>
    rw [hway] at hon
    cases hon
  | starts _ _ _ hstay _ =>
    rw [hway] at hstay
    cases hstay

end ChainStride

/-! ## Chains after a stride -/

/-- The chain, if it goes on by itself. -/
def Way.keeps (chain : Nat) : Way → List Nat
  | .stay => []
  | _ => [chain]

namespace Gear

variable {G G' : Gear} {a : Nat} {c : Chain} {frame : Frame} {rest : List Frame} {t : Stride} {number : Nat}

theorem running_eq {failure : Option Failure} (h : G.active = some (a, failure)) : G.running = [a] := by
  simp [running, h]

theorem mem_wakes {failure : Option Failure} (h : G.active = some (a, failure)) : a ∈ G.wakes := by
  simp [wakes, running_eq h]

theorem wakes_active {failure : Option Failure} (hactive : G.active = some (a, failure)) :
    G.wakes = a :: (G.queued ++ G.timers.map (·.chain)) := by
  rw [wakes, running_eq hactive]
  rfl

theorem getElem?_snoc_cases {α : Type} {xs : List α} {x y : α} {i : Nat} (h : (xs ++ [x])[i]? = some y) :
    xs[i]? = some y ∨ i = xs.length ∧ y = x := by
  rw [List.getElem?_append] at h
  split at h
  · exact .inl h
  · rw [List.getElem?_singleton] at h
    split at h
    · exact .inr ⟨by omega, (Option.some.inj h).symm⟩
    · cases h

/-- A chain after one has been changed: this one, or another one as it was. -/
theorem getElem?_modify_cases {edit : Chain → Chain} {i : Nat} {d : Chain}
    (h : (G.chains.modify a edit)[i]? = some d) (hc : G.chains[a]? = some c) :
    i = a ∧ d = edit c ∨ i ≠ a ∧ G.chains[i]? = some d := by
  rw [List.getElem?_modify] at h
  by_cases hi : a = i
  · subst hi
    simp only [hc, if_true, Option.map_eq_map, Option.map_some, Option.some.injEq] at h
    exact .inl ⟨rfl, h.symm⟩
  · simp only [hi, if_false, Option.map_eq_map, Option.map_id'] at h
    exact .inr ⟨Ne.symm hi, h⟩

/-- A chain after a stride (`Gear.after`): the one that strides, another one as it was, or a command that has been
    started. -/
theorem getElem?_after_cases (hc : G.chains[a]? = some c) {i : Nat} {d : Chain}
    (hd : (G.after a rest t).chains[i]? = some d) :
    i = a ∧ d = { c with frames := t.frames ++ rest } ∨ i ≠ a ∧ G.chains[i]? = some d ∨
      G.chains.length ≤ i ∧ ∃ k ∈ t.begun, d = { frames := [.command k], group := some t.number } := by
  simp only [Gear.after, setFrames] at hd
  rw [List.getElem?_append, List.length_modify] at hd
  split at hd
  · rcases getElem?_modify_cases hd hc with hsame | hother
    · exact .inl hsame
    · exact .inr (.inl hother)
  · rename_i hge
    obtain ⟨k, hk, rfl⟩ := List.mem_map.mp (List.mem_of_getElem? hd)
    exact .inr (.inr ⟨by omega, k, hk, rfl⟩)

theorem getElem?_after (hc : G.chains[a]? = some c) (rest : List Frame) (t : Stride) :
    (G.after a rest t).chains[a]? = some { c with frames := t.frames ++ rest } := by
  have hlt : a < G.chains.length := (List.getElem?_eq_some_iff.mp hc).1
  simp only [Gear.after, setFrames]
  rw [List.getElem?_append_left (by simpa using hlt), List.getElem?_modify, hc]
  simp

theorem getElem?_after_of_ne {i : Nat} (hlt : i < G.chains.length) (hne : i ≠ a) (rest : List Frame) (t : Stride) :
    (G.after a rest t).chains[i]? = G.chains[i]? := by
  simp only [Gear.after, setFrames]
  rw [List.getElem?_append_left (by simpa using hlt), List.getElem?_modify]
  simp [Ne.symm hne]

theorem getElem?_after_begun {k : Command} {i : Nat} (h : (k, i) ∈ t.begun.zipIdx G.chains.length) :
    (G.after a rest t).chains[i]? = some { frames := [.command k], group := some t.number } := by
  obtain ⟨hge, hget⟩ := List.mk_mem_zipIdx_iff_le_and_getElem?_sub.mp h
  simp only [Gear.after, setFrames]
  rw [List.getElem?_append_right (by simpa using hge), List.length_modify, List.getElem?_map, hget]
  rfl

/-- Those who are started (`launch`) are put in the ready list in the order of their numbers. -/
theorem filterMap_launch (cs : List Command) (n : Nat) :
    ((cs.zipIdx n).map launch).filterMap Wake.chain? = (cs.zipIdx n).map Prod.snd := by
  rw [List.filterMap_map]
  exact congrFun (List.filterMap_eq_map (f := Prod.snd)) _

/-- After a stride those who go on (`wakes`) are the same, but for the chain itself if it stays, and for those that it
    has started. -/
theorem wakes_after (rest : List Frame) (haway : ∀ timer, t.way = .away timer → timer.chain = a) :
    (G.after a rest t).wakes.Perm
      (t.way.keeps a ++ (G.queued ++ G.timers.map (·.chain)) ++ List.range' G.chains.length t.begun.length) := by
  -- count each chain on both sides, in each of the ways to go on
  rw [List.perm_iff_count]
  intro i
  cases hway : t.way with
  | away timer =>
    have hinsert := ((Stage.insertTimer_perm timer G.timers).map (·.chain)).count_eq i
    rw [List.map_cons, haway timer hway] at hinsert
    simp only [wakes, running, queued, Gear.after, hway, Way.keeps, Option.map_none, Option.toList_none,
      List.filterMap_append, filterMap_launch, List.zipIdx_map_snd, List.nil_append, List.count_append, hinsert,
      List.count_cons, List.count_nil]
    omega
  | back =>
    simp only [wakes, running, queued, Gear.after, hway, Way.keeps, Option.map_none, Option.toList_none,
      List.filterMap_append, List.filterMap_cons, List.filterMap_nil, Wake.chain?, filterMap_launch,
      List.zipIdx_map_snd, List.nil_append, List.count_append]
    omega
  | on | stay =>
    simp only [wakes, running, queued, Gear.after, hway, Way.keeps, Option.map_some, Option.map_none,
      Option.toList_some, Option.toList_none, List.filterMap_append, filterMap_launch, List.zipIdx_map_snd,
      List.count_append]
    omega

/-- The frame is replaced by those of the stride; what it was about to start (`starting`) is owed no longer, and what
    has been started is. -/
theorem owed_after (hc : G.chains[a]? = some c) (hframes : c.frames = frame :: rest) (t : Stride) (group : Nat) :
    (G.after a rest t).owed group + frame.starting group =
      G.owed group + (t.frames.map (Frame.starting group)).sum + if t.number = group then t.begun.length else 0 := by
  -- neither going on nor starting a chain leaves an end to be counted
  have hready : (G.after a rest t).ready.countP (Wake.isOver group) = G.ready.countP (Wake.isOver group) := by
    have hlaunch : (t.begun.zipIdx G.chains.length).countP (Wake.isOver group ∘ launch) = 0 :=
      List.countP_eq_zero.mpr fun p _ => by simp [launch, Wake.isOver]
    simp only [Gear.after, List.countP_append, List.countP_map, hlaunch, Nat.add_zero]
    split <;> simp [Wake.isOver]
  have hsum := sum_map_modify (Chain.owes group) hc fun c => { c with frames := t.frames ++ rest }
  -- the chain itself: its first frame is replaced by the frames of the stride
  have hbefore : c.owes group = (if c.group = some group ∧ c.outcome.isNone then 1 else 0) +
      (frame.starting group + (rest.map (Frame.starting group)).sum) := by
    rw [Chain.owes, hframes, List.map_cons, List.sum_cons]
  have hafter : Chain.owes group { c with frames := t.frames ++ rest } =
      (if c.group = some group ∧ c.outcome.isNone then 1 else 0) +
        ((t.frames.map (Frame.starting group)).sum + (rest.map (Frame.starting group)).sum) := by
    rw [Chain.owes, List.map_append, List.sum_append]
  -- and each chain that is started owes one end to the group of its beat
  have hstarted : ((t.begun.map fun k => { frames := [.command k], group := some t.number }).map
      (Chain.owes group)).sum = if t.number = group then t.begun.length else 0 := by
    have howes : (Chain.owes group) ∘ (fun k => { frames := [.command k], group := some t.number }) =
        fun _ : Command => if t.number = group then 1 else 0 := by
      funext k
      simp [Chain.owes, Frame.starting]
    rw [List.map_map, howes, List.map_const', List.sum_replicate]
    split <;> simp
  have hchains : ((G.after a rest t).chains.map (Chain.owes group)).sum =
      ((G.chains.modify a fun c => { c with frames := t.frames ++ rest }).map (Chain.owes group)).sum +
        if t.number = group then t.begun.length else 0 := by
    rw [← hstarted, ← List.sum_append, ← List.map_append]
    rfl
  rw [owed, owed, hready, hchains]
  omega

/-! ## Coherent after a stride -/

namespace Coherent

theorem lt_length (h : G.Coherent) {i : Nat} (hi : i ∈ G.wakes) : i < G.chains.length := by
  obtain ⟨c, hc, -⟩ := h.alive i hi
  exact (List.getElem?_eq_some_iff.mp hc).1

theorem outcome_eq (h : G.Coherent) (ha : a ∈ G.wakes) (hc : G.chains[a]? = some c) : c.outcome = none := by
  obtain ⟨d, hd, houtcome⟩ := h.alive a ha
  rw [← Option.some.inj (hd.symm.trans hc)]
  exact houtcome

/-- Only the running chain can be about to start a beat, and only with its next frame. -/
theorem start_head (h : G.Coherent) {failure : Option Failure} (hactive : G.active = some (a, failure)) {i : Nat}
    {d : Chain} (hd : G.chains[i]? = some d) {context : Context} {n : Nat} {cs : List Command}
    (hmem : .start context n cs ∈ d.frames) : i = a ∧ d.frames.head? = some (.start context n cs) := by
  have hruns := h.starts i d hd context n cs hmem
  rw [hactive] at hruns
  refine ⟨(congrArg Prod.fst (Option.some.inj hruns)).symm, ?_⟩
  have htail := h.tail d (List.mem_of_getElem? hd)
  cases hframes : d.frames with
  | nil => simp [hframes] at hmem
  | cons f fs =>
    rw [hframes] at hmem htail
    rcases List.mem_cons.mp hmem with rfl | hmem
    · rfl
    · cases htail _ hmem

/-- No chain is about to start a beat while none runs. -/
theorem no_start_idle (h : G.Coherent) (hactive : G.active = none) {i : Nat} {d : Chain}
    (hd : G.chains[i]? = some d) (context : Context) (n : Nat) (cs : List Command) :
    Frame.start context n cs ∉ d.frames := by
  intro hmem
  have hruns := h.starts i d hd context n cs hmem
  rw [hactive] at hruns
  cases hruns

end Coherent

/-- The running chain of a coherent gear takes a stride. -/
structure Gait (G : Gear) (a : Nat) (c : Chain) (frame : Frame) (rest : List Frame) (t : Stride) : Prop where
  coherent : G.Coherent
  active : ∃ failure, G.active = some (a, failure)
  chain : G.chains[a]? = some c
  frames : c.frames = frame :: rest
  chainStride : ChainStride G.groups.length a frame t

namespace Gait

/-- The frames that the stride leaves alone start nothing. -/
theorem rest_closed (h : G.Gait a c frame rest t) : ∀ f ∈ rest, f.isStart = false := by
  have htail := h.coherent.tail c (List.mem_of_getElem? h.chain)
  rw [h.frames] at htail
  exact htail

theorem mem_wakes (h : G.Gait a c frame rest t) : a ∈ G.wakes := by
  obtain ⟨failure, hactive⟩ := h.active
  exact Gear.mem_wakes hactive

theorem lt_length (h : G.Gait a c frame rest t) : a < G.chains.length := h.coherent.lt_length h.mem_wakes

theorem wakes_perm (h : G.Gait a c frame rest t) :
    (G.after a rest t).wakes.Perm
      (t.way.keeps a ++ (G.queued ++ G.timers.map (·.chain)) ++ List.range' G.chains.length t.begun.length) :=
  wakes_after rest fun _ hway => h.chainStride.away_self hway

theorem wakes_eq (h : G.Gait a c frame rest t) : G.wakes = a :: (G.queued ++ G.timers.map (·.chain)) := by
  obtain ⟨failure, hactive⟩ := h.active
  exact wakes_active hactive

/-- Who goes on after a stride went on before, or has been started. -/
theorem mem_wakes_after (h : G.Gait a c frame rest t) {i : Nat} (hi : i ∈ (G.after a rest t).wakes) :
    i ∈ G.wakes ∧ (i = a → t.way ≠ .stay) ∨ ∃ k, (k, i) ∈ t.begun.zipIdx G.chains.length := by
  have hnotin := (List.nodup_cons.mp (h.wakes_eq ▸ h.coherent.nodup)).1
  rcases List.mem_append.mp (h.wakes_perm.mem_iff.mp hi) with hi | hi
  · refine .inl ?_
    rcases List.mem_append.mp hi with hi | hi
    · cases hway : t.way with
      | stay => simp [hway, Way.keeps] at hi
      | on | back | away =>
        simp only [hway, Way.keeps, List.mem_singleton] at hi
        exact ⟨hi ▸ h.mem_wakes, by simp⟩
    · exact ⟨h.wakes_eq ▸ List.mem_cons_of_mem a hi, fun heq => absurd (heq ▸ hi) hnotin⟩
  · rw [← List.zipIdx_map_snd G.chains.length t.begun] at hi
    obtain ⟨⟨k, j⟩, hp, rfl⟩ := List.mem_map.mp hi
    exact .inr ⟨k, hp⟩

/-- Nobody goes on twice: those that have been started have new numbers. -/
theorem nodup (h : G.Gait a c frame rest t) : (G.after a rest t).wakes.Nodup := by
  have hsub : (t.way.keeps a ++ (G.queued ++ G.timers.map (·.chain))).Sublist G.wakes := by
    rw [h.wakes_eq]
    cases t.way with
    | stay => exact List.sublist_cons_self ..
    | on | back | away => exact List.Sublist.refl _
  refine h.wakes_perm.nodup_iff.mpr
    (List.nodup_append.mpr ⟨h.coherent.nodup.sublist hsub, List.nodup_range', fun i hi j hj => ?_⟩)
  have hlt := h.coherent.lt_length (hsub.subset hi)
  have hge := List.mem_range'_1.mp hj
  omega

/-- Those who go on (`wakes`) are not over. -/
theorem alive (h : G.Gait a c frame rest t) :
    ∀ i ∈ (G.after a rest t).wakes, ∃ d, (G.after a rest t).chains[i]? = some d ∧ d.outcome = none := by
  intro i hi
  rcases h.mem_wakes_after hi with ⟨hold, -⟩ | ⟨k, hk⟩
  · by_cases hia : i = a
    · subst hia
      have houtcome := h.coherent.outcome_eq hold h.chain
      exact ⟨_, getElem?_after h.chain rest t, houtcome⟩
    · obtain ⟨d, hd, houtcome⟩ := h.coherent.alive i hold
      exact ⟨d, (getElem?_after_of_ne (h.coherent.lt_length hold) hia rest t).trans hd, houtcome⟩
  · exact ⟨_, getElem?_after_begun hk, rfl⟩

/-- Those who are over have nothing left to do. -/
theorem emptied (h : G.Gait a c frame rest t) :
    ∀ d ∈ (G.after a rest t).chains, d.outcome ≠ none → d.frames = [] := by
  intro d hd hover
  obtain ⟨i, hi⟩ := List.mem_iff_getElem?.mp hd
  rcases getElem?_after_cases h.chain hi with ⟨-, rfl⟩ | ⟨-, hi⟩ | ⟨-, k, -, rfl⟩
  · exact absurd (h.coherent.outcome_eq h.mem_wakes h.chain) hover
  · exact h.coherent.emptied d (List.mem_of_getElem? hi) hover
  · exact absurd rfl hover

theorem tail (h : G.Gait a c frame rest t) :
    ∀ d ∈ (G.after a rest t).chains, ∀ f ∈ d.frames.tail, f.isStart = false := by
  intro d hd f hf
  obtain ⟨i, hi⟩ := List.mem_iff_getElem?.mp hd
  rcases getElem?_after_cases h.chain hi with ⟨-, rfl⟩ | ⟨-, hi⟩ | ⟨-, k, -, rfl⟩
  · -- what follows the first frame is of the stride, or was there before
    cases hnew : t.frames with
    | nil =>
      rw [hnew, List.nil_append] at hf
      exact h.rest_closed f (List.mem_of_mem_tail hf)
    | cons g gs =>
      have htail := h.chainStride.tail_closed
      rw [hnew] at hf htail
      rcases List.mem_append.mp hf with hf | hf
      · exact htail f hf
      · exact h.rest_closed f hf
  · exact h.coherent.tail d (List.mem_of_getElem? hi) f hf
  · cases hf

/-- Who is about to start a beat is running. -/
theorem starts (h : G.Gait a c frame rest t) {i : Nat} {d : Chain} (hd : (G.after a rest t).chains[i]? = some d)
    {context : Context} {n : Nat} {cs : List Command} (hmem : .start context n cs ∈ d.frames) :
    (G.after a rest t).active = some (i, none) := by
  rcases getElem?_after_cases h.chain hd with ⟨rfl, rfl⟩ | ⟨hne, hd⟩ | ⟨-, k, -, rfl⟩
  · rcases List.mem_append.mp hmem with hmem | hmem
    · simp only [Gear.after, h.chainStride.on_of_start hmem]
    · cases h.rest_closed _ hmem
  · obtain ⟨failure, hactive⟩ := h.active
    exact absurd (h.coherent.start_head hactive hd hmem).1 hne
  · simp at hmem

/-- What is owed to a group after a stride: as much as before, or it is the group that the stride opens. -/
theorem owed_cases (h : G.Gait a c frame rest t) {group : Nat} (howed : 0 < (G.after a rest t).owed group) :
    0 < G.owed group ∨ group = G.groups.length ∧ frame.isStart = false ∧
      t.opened.length = 1 ∧ (∀ g ∈ t.opened, g.owner = a) ∧ ∃ context cs, .start context group cs ∈ t.frames := by
  have hafter := owed_after h.chain h.frames t group
  cases h.chainStride with
  | plain hframe hbegun hclosed hway haway =>
    rw [Frame.starting_eq_zero hframe, hbegun, Frame.sum_starting_eq_zero hclosed] at hafter
    simp only [List.length_nil, ite_self, Nat.add_zero] at hafter
    exact .inl (hafter ▸ howed)
  | @collects _ _ context cs hframe hbegun hstart hway hopened =>
    rw [Frame.starting_eq_zero hframe, hbegun, hstart] at hafter
    -- the group that is opened is the only one that is owed more
    by_cases hgroup : group = G.groups.length
    · exact .inr ⟨hgroup, hframe, by simp [hopened], by simp [hopened], context, cs, by simp [hstart, hgroup]⟩
    · simp only [Frame.starting, List.map_cons, List.map_nil, List.sum_cons, List.sum_nil, if_neg (Ne.symm hgroup),
        List.length_nil, ite_self, Nat.add_zero] at hafter
      exact .inl (hafter ▸ howed)
  | starts hbegun hnumber hbeat hway hopened =>
    obtain ⟨onChoice, hbeat⟩ := hbeat
    rw [hbeat, hbegun, hnumber] at hafter
    simp only [Frame.starting, List.map_cons, List.map_nil, List.sum_cons, List.sum_nil, Nat.add_zero] at hafter
    exact .inl (Nat.add_right_cancel hafter ▸ howed)

/-- Nothing is owed to a group that does not exist. -/
theorem known (h : G.Gait a c frame rest t) {group : Nat} (howed : 0 < (G.after a rest t).owed group) :
    group < (G.after a rest t).groups.length := by
  have hgroups : (G.after a rest t).groups.length = G.groups.length + t.opened.length := List.length_append
  rcases h.owed_cases howed with hold | ⟨hgroup, -, hopened, -⟩
  · have hlt := h.coherent.known group hold
    omega
  · omega

/-- A group to which ends are owed was there before, or is that of the beat that has been collected. -/
theorem groups_cases (h : G.Gait a c frame rest t) {group : Nat} {g : Group}
    (hg : (G.after a rest t).groups[group]? = some g) (howed : 0 < (G.after a rest t).owed group) :
    G.groups[group]? = some g ∧ 0 < G.owed group ∨
      group = G.groups.length ∧ g.owner = a ∧ frame.isStart = false ∧
        ∃ context cs, .start context group cs ∈ t.frames := by
  have hgroups : (G.after a rest t).groups = G.groups ++ t.opened := rfl
  rw [hgroups] at hg
  rcases h.owed_cases howed with hold | ⟨hgroup, hframe, -, howner, hstart⟩
  · rw [List.getElem?_append_left (h.coherent.known group hold)] at hg
    exact .inl ⟨hg, hold⟩
  · rw [hgroup, List.getElem?_append_right (Nat.le_refl _)] at hg
    exact .inr ⟨hgroup, howner g (List.mem_of_getElem? hg), hframe, hstart⟩

/-- A running chain waits for a group (`Awaits`) only when it is about to start it (`.start`). -/
theorem frame_eq_start (h : G.Gait a c frame rest t) {group : Nat} (hawaits : G.Awaits group a) :
    ∃ context cs, frame = .start context group cs := by
  obtain ⟨d, hd, ⟨-, hout⟩ | ⟨context, cs, hmem⟩⟩ := hawaits
  · exact absurd h.mem_wakes hout
  · obtain ⟨failure, hactive⟩ := h.active
    have hhead := (h.coherent.start_head hactive hd hmem).2
    rw [h.chain] at hd
    cases hd
    rw [h.frames] at hhead
    exact ⟨context, cs, Option.some.inj hhead⟩

/-- Whoever waited for a group still waits, or has just started its chains and waits now. -/
theorem awaits (h : G.Gait a c frame rest t) {group owner : Nat} (hawaits : G.Awaits group owner) :
    (G.after a rest t).Awaits group owner := by
  have hnew : ∀ i, i < G.chains.length → (i ∈ G.wakes → i = a ∧ t.way = .stay) → i ∉ (G.after a rest t).wakes := by
    intro i hlt hi hin
    rcases h.mem_wakes_after hin with ⟨hold, hstay⟩ | ⟨k, hk⟩
    · obtain ⟨rfl, hway⟩ := hi hold
      exact hstay rfl hway
    · have hge := (List.mk_mem_zipIdx_iff_le_and_getElem?_sub.mp hk).1
      omega
  by_cases howner : owner = a
  · subst howner
    obtain ⟨context, cs, hstart⟩ := h.frame_eq_start hawaits
    refine ⟨_, getElem?_after h.chain rest t, .inl ?_⟩
    -- the stride is the one that starts the beat
    cases h.chainStride with
    | plain hframe => exact absurd hstart (Frame.ne_start hframe context group cs)
    | collects hframe => exact absurd hstart (Frame.ne_start hframe context group cs)
    | starts _ _ hbeat hway _ =>
      obtain ⟨onChoice, hbeat⟩ := hbeat
      exact ⟨⟨_, onChoice, rest, by rw [hbeat]; rfl⟩, hnew owner h.lt_length fun _ => ⟨rfl, hway⟩⟩
  · obtain ⟨d, hd, ⟨hbeat, hout⟩ | ⟨context, cs, hmem⟩⟩ := hawaits
    · have hlt : owner < G.chains.length := (List.getElem?_eq_some_iff.mp hd).1
      exact ⟨d, (getElem?_after_of_ne hlt howner rest t).trans hd,
        .inl ⟨hbeat, hnew _ hlt fun hin => absurd hin hout⟩⟩
    · obtain ⟨failure, hactive⟩ := h.active
      exact absurd (h.coherent.start_head hactive hd hmem).1 howner

/-- A stride keeps the gear coherent (`Coherent`). -/
theorem coherent_after (h : G.Gait a c frame rest t) : (G.after a rest t).Coherent where
  nodup := h.nodup
  alive := h.alive
  emptied := h.emptied
  tail := h.tail
  starts _ _ hd _ _ _ hmem := h.starts hd hmem
  known _ howed := h.known howed
  owners group g hg hsettled howed := by
    rcases h.groups_cases hg howed with ⟨hg, hold⟩ | ⟨-, howner, -, context, cs, hstart⟩
    · exact h.awaits (h.coherent.owners group g hg hsettled hold)
    · rw [howner]
      exact ⟨_, getElem?_after h.chain rest t, .inr ⟨context, cs, List.mem_append_left rest hstart⟩⟩
  owners_inj group other g k hg hk hsettled hsettled' howed howed' heq := by
    -- the chain that opens a group waited for none
    have hfree : frame.isStart = false → ∀ {n : Nat} {x : Group}, G.groups[n]? = some x → x.settled = false →
        0 < G.owed n → x.owner ≠ a := by
      intro hframe n x hx hopen hold howner
      obtain ⟨context, cs, hstart⟩ := h.frame_eq_start (howner ▸ h.coherent.owners n x hx hopen hold)
      exact Frame.ne_start hframe context n cs hstart
    rcases h.groups_cases hg howed with ⟨hg, hold⟩ | ⟨hlast, howner, hframe, -⟩
    · rcases h.groups_cases hk howed' with ⟨hk, hold'⟩ | ⟨-, howner, hframe, -⟩
      · exact h.coherent.owners_inj group other g k hg hk hsettled hsettled' hold hold' heq
      · exact absurd (heq.trans howner) (hfree hframe hg hsettled hold)
    · rcases h.groups_cases hk howed' with ⟨hk, hold'⟩ | ⟨hlast', -⟩
      · exact absurd (heq.symm.trans howner) (hfree hframe hk hsettled' hold')
      · rw [hlast, hlast']

end Gait

/-! ## Coherent while the chains take turns -/

/-- What is to be shown where the groups and what is `owed` to them stay the same. -/
theorem Coherent.same_groups (h : G.Coherent) (hgroups : G'.groups = G.groups)
    (howed : ∀ group, G'.owed group = G.owed group)
    (hawaits : ∀ group chain, G.Awaits group chain → G'.Awaits group chain) (hnodup : G'.wakes.Nodup)
    (halive : ∀ i ∈ G'.wakes, ∃ c, G'.chains[i]? = some c ∧ c.outcome = none)
    (hemptied : ∀ c ∈ G'.chains, c.outcome ≠ none → c.frames = [])
    (htail : ∀ c ∈ G'.chains, ∀ f ∈ c.frames.tail, f.isStart = false)
    (hstarts : ∀ (i : Nat) (c : Chain), G'.chains[i]? = some c →
      ∀ context n cs, .start context n cs ∈ c.frames → G'.active = some (i, none)) : G'.Coherent where
  nodup := hnodup
  alive := halive
  emptied := hemptied
  tail := htail
  starts := hstarts
  known group hpos := by
    rw [hgroups]
    exact h.known group (howed group ▸ hpos)
  owners group g hg hsettled hpos := hawaits _ _ (h.owners group g (hgroups ▸ hg) hsettled (howed group ▸ hpos))
  owners_inj group other g k hg hk hsettled hsettled' hpos hpos' :=
    h.owners_inj group other g k (hgroups ▸ hg) (hgroups ▸ hk) hsettled hsettled' (howed group ▸ hpos)
      (howed other ▸ hpos')

/-- Chains that only change places: those who go on are the same. -/
theorem Coherent.shuffle (h : G.Coherent) (hchains : G'.chains = G.chains) (hgroups : G'.groups = G.groups)
    (hwakes : G'.wakes.Perm G.wakes)
    (hover : ∀ group, G'.ready.countP (Wake.isOver group) = G.ready.countP (Wake.isOver group))
    (hactive : G.active = none ∨ G'.active = G.active) : G'.Coherent := by
  have howed : ∀ group, G'.owed group = G.owed group := fun group => by rw [owed, owed, hchains, hover]
  refine h.same_groups hgroups howed ?_ (hwakes.nodup_iff.mpr h.nodup)
    (fun i hi => hchains ▸ h.alive i (hwakes.mem_iff.mp hi)) (hchains ▸ h.emptied) (hchains ▸ h.tail) ?_
  · rintro group chain ⟨c, hc, hwaits⟩
    exact ⟨c, hchains ▸ hc, hwaits.imp_left fun ⟨hbeat, hout⟩ => ⟨hbeat, fun hin => hout (hwakes.mem_iff.mp hin)⟩⟩
  · intro i c hc context n cs hmem
    have hruns := h.starts i c (hchains ▸ hc) context n cs hmem
    rcases hactive with hidle | hsame
    · rw [hidle] at hruns
      cases hruns
    · exact hsame.trans hruns

/-- A chain that is over does not owe its end any more, and the end has been put down. -/
theorem owed_ends (hc : G.chains[a]? = some c) (hnil : c.frames = []) (halive : c.outcome = none)
    {failure : Option Failure} (hchains : G'.chains = G.chains.modify a fun c => { c with outcome := some failure })
    (hready : G'.ready = G.ready ++ c.group.toList.map (.over · failure)) (group : Nat) :
    G'.owed group = G.owed group := by
  have hsum := sum_map_modify (Chain.owes group) hc fun c => { c with outcome := some failure }
  have hbefore : c.owes group = if c.group = some group then 1 else 0 := by simp [Chain.owes, hnil, halive]
  have hafter : Chain.owes group { c with outcome := some failure } = 0 := by simp [Chain.owes, hnil]
  have hover : (c.group.toList.map (Wake.over · failure)).countP (Wake.isOver group) =
      if c.group = some group then 1 else 0 := by
    cases c.group with
    | none => rfl
    | some other =>
      by_cases hgroup : other = group
      · simp [Wake.isOver, hgroup]
      · simp [Wake.isOver, hgroup]
  rw [owed, owed, hchains, hready, List.countP_append, hover]
  omega

/-- While a chain without frames runs, nobody is about to start a beat. -/
theorem Coherent.no_start_empty (h : G.Coherent) {failure : Option Failure} (hactive : G.active = some (a, failure))
    (hc : G.chains[a]? = some c) (hnil : c.frames = []) {i : Nat} {d : Chain} (hd : G.chains[i]? = some d)
    (context : Context) (n : Nat) (cs : List Command) : Frame.start context n cs ∉ d.frames := by
  intro hmem
  obtain ⟨rfl, -⟩ := h.start_head hactive hd hmem
  rw [hc] at hd
  cases hd
  simp [hnil] at hmem

theorem wakes_ends {failure : Option Failure} (hactive : G.active = some (a, failure))
    (hG : G' = { G with chains := G.chains.modify a fun c => { c with outcome := some failure }
                        ready := G.ready ++ c.group.toList.map (.over · failure), active := none }) :
    G.wakes = a :: G'.wakes := by
  have hqueued : (c.group.toList.map (Wake.over · failure)).filterMap Wake.chain? = [] := by
    cases c.group <;> rfl
  rw [wakes_active hactive, hG]
  simp [wakes, running, queued, hqueued]

/-- The running chain is over.  It had nothing left to do, so nobody is about to start a beat. -/
theorem Coherent.ends (h : G.Coherent) {failure : Option Failure} (hactive : G.active = some (a, failure))
    (hc : G.chains[a]? = some c) (hnil : c.frames = [])
    (hG : G' = { G with chains := G.chains.modify a fun c => { c with outcome := some failure }
                        ready := G.ready ++ c.group.toList.map (.over · failure), active := none }) : G'.Coherent := by
  have hchains : G'.chains = G.chains.modify a fun c => { c with outcome := some failure } := by rw [hG]
  have howed := owed_ends hc hnil (h.outcome_eq (mem_wakes hactive) hc) hchains (by rw [hG])
  have hwakes : G.wakes = a :: G'.wakes := wakes_ends hactive hG
  obtain ⟨hnotin, hnodup⟩ := List.nodup_cons.mp (hwakes ▸ h.nodup)
  have hstill : ∀ i ∈ G'.wakes, i ∈ G.wakes := fun i hi => hwakes ▸ List.mem_cons_of_mem a hi
  -- no chain but the one that ends has changed, and it has no frames
  have hother : ∀ (i : Nat) (d : Chain), i ≠ a → G.chains[i]? = some d → G'.chains[i]? = some d := by
    intro i d hne hd
    rw [hchains, List.getElem?_modify, hd]
    simp [Ne.symm hne]
  have hcases : ∀ d ∈ G'.chains, d.frames = [] ∨ d ∈ G.chains := by
    intro d hd
    obtain ⟨i, hi⟩ := List.mem_iff_getElem?.mp hd
    rw [hchains] at hi
    rcases getElem?_modify_cases hi hc with ⟨-, rfl⟩ | ⟨-, hi⟩
    · exact .inl hnil
    · exact .inr (List.mem_of_getElem? hi)
  refine h.same_groups (by rw [hG]) howed ?_ hnodup ?_ ?_ ?_ ?_
  · -- owners: the chain that ends owns no group that is still owed something
    rintro group chain ⟨d, hd, ⟨hbeat, hout⟩ | ⟨context, cs, hmem⟩⟩
    · have hne : chain ≠ a := fun heq => hout (heq ▸ mem_wakes hactive)
      exact ⟨d, hother chain d hne hd, .inl ⟨hbeat, fun hin => hout (hstill chain hin)⟩⟩
    · exact absurd hmem (h.no_start_empty hactive hc hnil hd context group cs)
  · intro i hi
    obtain ⟨d, hd, houtcome⟩ := h.alive i (hstill i hi)
    exact ⟨d, hother i d (fun heq => hnotin (heq ▸ hi)) hd, houtcome⟩
  · intro d hd hover
    rcases hcases d hd with hempty | hd
    · exact hempty
    · exact h.emptied d hd hover
  · intro d hd f hf
    rcases hcases d hd with hempty | hd
    · simp [hempty] at hf
    · exact h.tail d hd f hf
  · intro i d hd context n cs hmem
    rw [hchains] at hd
    rcases getElem?_modify_cases hd hc with ⟨-, rfl⟩ | ⟨-, hd⟩
    · simp [hnil] at hmem
    · exact absurd hmem (h.no_start_empty hactive hc hnil hd context n cs)

/-- The owner of a group that it has not been told of waits, while no chain runs. -/
theorem Coherent.owner_waits (h : G.Coherent) (hactive : G.active = none) {group : Nat} {g : Group}
    (hg : G.groups[group]? = some g) (hsettled : g.settled = false) (hpos : 0 < G.owed group) :
    ∃ c, G.chains[g.owner]? = some c ∧ (∃ context onChoice rest, c.frames = .beat context onChoice :: rest) ∧
      g.owner ∉ G.wakes := by
  obtain ⟨c, hc, ⟨hbeat, hout⟩ | ⟨context, cs, hmem⟩⟩ := h.owners group g hg hsettled hpos
  · exact ⟨c, hc, hbeat, hout⟩
  · exact absurd hmem (h.no_start_idle hactive hc context group cs)

/-- A chain that waits for a beat is not over. -/
theorem Coherent.outcome_eq_of_beat (h : G.Coherent) {i : Nat} (hc : G.chains[i]? = some c)
    (hbeat : ∃ context onChoice rest, c.frames = .beat context onChoice :: rest) : c.outcome = none := by
  obtain ⟨context, onChoice, rest, hframes⟩ := hbeat
  by_contra hover
  have hnil := h.emptied c (List.mem_of_getElem? hc) hover
  rw [hframes] at hnil
  cases hnil

/-- The end of a chain that has been put down (`.over`) is owed to the group. -/
theorem owed_pos {number : Nat} {failure : Option Failure} (h : .over number failure ∈ G.ready) :
    0 < G.owed number := by
  have hcount : 0 < G.ready.countP (Wake.isOver number) :=
    List.countP_pos_iff.mpr ⟨_, h, by simp [Wake.isOver]⟩
  rw [owed]
  omega

section Counts

variable {ready : List Wake} {g : Group} {failure : Option Failure}

/-- The owner goes on with the others when it is told of its group. -/
theorem wakes_counts (hactive : G.active = none) (hready : G.ready = .over number failure :: ready)
    (hG : G' = { G with groups := G.groups.set number (g.count failure)
                        ready := ready ++ if g.tells failure then [.resume g.owner failure] else [] }) :
    G'.wakes.Perm (if g.tells failure then g.owner :: G.wakes else G.wakes) := by
  have hold : G.wakes = ready.filterMap Wake.chain? ++ G.timers.map (·.chain) := by
    simp only [wakes, running, queued, hactive, hready]
    rfl
  rw [hG, hold]
  by_cases htells : g.tells failure = true
  · simp only [wakes, running, queued, hactive, htells, if_true, Option.map_none, Option.toList_none, List.nil_append,
      List.filterMap_append, List.filterMap_cons, List.filterMap_nil, Wake.chain?, List.append_assoc]
    exact List.perm_middle
  · simp [wakes, running, queued, hactive, htells]

/-- Counting an end pays it: one end less is `owed` to the group, and to all others as many as before. -/
theorem owed_counts (hready : G.ready = .over number failure :: ready) (hchains : G'.chains = G.chains)
    (hready' : G'.ready = ready ++ if g.tells failure then [.resume g.owner failure] else []) (group : Nat) :
    G'.owed group + (if number = group then 1 else 0) = G.owed group := by
  have htold : (if g.tells failure then [Wake.resume g.owner failure] else []).countP (Wake.isOver group) = 0 := by
    split <;> simp [Wake.isOver]
  rw [owed, owed, hchains, hready, hready', List.countP_append, htold, List.countP_cons]
  by_cases hgroup : number = group
  · simp only [hgroup, Wake.isOver, decide_true, if_true]
    omega
  · simp [hgroup, Wake.isOver]

/-- A group that its owner has not been told of after the count, it had not been told of before. -/
theorem groups_counts (hg : G.groups[number]? = some g) {group : Nat} {g' : Group}
    (hg' : (G.groups.set number (g.count failure))[group]? = some g') (hsettled : g'.settled = false) :
    group = number ∧ g' = g.count failure ∧ g.settled = false ∧ g.tells failure = false ∨
      group ≠ number ∧ G.groups[group]? = some g' := by
  have hlt : number < G.groups.length := (List.getElem?_eq_some_iff.mp hg).1
  by_cases hgroup : group = number
  · subst hgroup
    rw [List.getElem?_set_self hlt] at hg'
    cases hg'
    exact .inl ⟨rfl, rfl, Bool.or_eq_false_iff.mp hsettled⟩
  · rw [List.getElem?_set_ne (Ne.symm hgroup)] at hg'
    exact .inr ⟨hgroup, hg'⟩

/-- The owner of an open group was the owner before. -/
theorem owner_counts (hg : G.groups[number]? = some g) {group : Nat} {g' : Group}
    (hg' : (G.groups.set number (g.count failure))[group]? = some g') (hsettled : g'.settled = false) :
    ∃ k, G.groups[group]? = some k ∧ k.settled = false ∧ k.owner = g'.owner := by
  rcases groups_counts hg hg' hsettled with ⟨rfl, rfl, hopen, -⟩ | ⟨-, hg'⟩
  · exact ⟨g, hg, hopen, rfl⟩
  · exact ⟨g', hg', hsettled, rfl⟩

/-- Only an owner that is told goes on anew. -/
theorem mem_wakes_counts (hwakes : G'.wakes.Perm (if g.tells failure then g.owner :: G.wakes else G.wakes)) {i : Nat}
    (hin : i ∈ G'.wakes) : i ∈ G.wakes ∨ g.tells failure = true ∧ i = g.owner := by
  have hin := hwakes.mem_iff.mp hin
  split at hin
  · rename_i htells
    exact (List.mem_cons.mp hin).symm.imp_right fun heq => ⟨htells, heq⟩
  · exact .inl hin

/-- An owner that is told (`Group.tells`) has waited, so it is not among those who go on, and may be put there. -/
theorem Coherent.told_waits (h : G.Coherent) (hactive : G.active = none) (hg : G.groups[number]? = some g)
    (hpos : 0 < G.owed number) (htells : g.tells failure = true) :
    ∃ c, G.chains[g.owner]? = some c ∧ (∃ context onChoice rest, c.frames = .beat context onChoice :: rest) ∧
      g.owner ∉ G.wakes :=
  h.owner_waits hactive hg (Group.settled_of_tells htells) hpos

/-- A chain of a group is over, and is counted.  If this tells the owner (`Group.tells`), the owner was waiting, and so
    it is not among those who go on already. -/
theorem Coherent.counts (h : G.Coherent) (hactive : G.active = none) (hready : G.ready = .over number failure :: ready)
    (hg : G.groups[number]? = some g)
    (hG : G' = { G with groups := G.groups.set number (g.count failure)
                        ready := ready ++ if g.tells failure then [.resume g.owner failure] else [] }) :
    G'.Coherent := by
  have hpos : 0 < G.owed number := owed_pos (hready ▸ List.mem_cons_self)
  have hchains : G'.chains = G.chains := by rw [hG]
  have hgroups : G'.groups = G.groups.set number (g.count failure) := by rw [hG]
  have hwakes := wakes_counts hactive hready hG
  have howed : ∀ group, 0 < G'.owed group → 0 < G.owed group := by
    intro group hpos
    have hcounts := owed_counts hready hchains (by rw [hG]) group
    omega
  refine ⟨?_, ?_, hchains ▸ h.emptied, hchains ▸ h.tail, ?_, ?_, ?_, ?_⟩
  · rw [hwakes.nodup_iff]
    split
    · rename_i htells
      obtain ⟨-, -, -, hout⟩ := h.told_waits hactive hg hpos htells
      exact List.nodup_cons.mpr ⟨hout, h.nodup⟩
    · exact h.nodup
  · intro i hi
    rw [hchains]
    rcases mem_wakes_counts hwakes hi with hin | ⟨htells, rfl⟩
    · exact h.alive i hin
    · obtain ⟨c, hc, hbeat, -⟩ := h.told_waits hactive hg hpos htells
      exact ⟨c, hc, h.outcome_eq_of_beat hc hbeat⟩
  · intro i d hd context n cs hmem
    rw [hchains] at hd
    exact absurd hmem (h.no_start_idle hactive hd context n cs)
  · intro group hpos'
    rw [hgroups, List.length_set]
    exact h.known group (howed group hpos')
  · intro group g' hg' hsettled hpos'
    obtain ⟨k, hk, hopen, howner⟩ := owner_counts hg (hgroups ▸ hg') hsettled
    obtain ⟨d, hd, hbeat, hout⟩ := h.owner_waits hactive hk hopen (howed group hpos')
    rw [howner] at hd hout
    refine ⟨d, hchains ▸ hd, .inl ⟨hbeat, fun hin => ?_⟩⟩
    rcases mem_wakes_counts hwakes hin with hin | ⟨htells, heq⟩
    · exact hout hin
    · -- an owner waits for one group only, so this would be the one that is told
      have hsame : group = number :=
        h.owners_inj group number k g hk hg hopen (Group.settled_of_tells htells) (howed group hpos') hpos
          (howner.trans heq)
      rcases groups_counts hg (hgroups ▸ hg') hsettled with ⟨-, -, -, hreact⟩ | ⟨hne, -⟩
      · rw [htells] at hreact
        cases hreact
      · exact hne hsame
  · intro group other g' k hg' hk hsettled hsettled' hpos' hpos'' heq
    obtain ⟨x, hx, hxopen, hxowner⟩ := owner_counts hg (hgroups ▸ hg') hsettled
    obtain ⟨y, hy, hyopen, hyowner⟩ := owner_counts hg (hgroups ▸ hk) hsettled'
    exact h.owners_inj group other x y hx hy hxopen hyopen (howed group hpos') (howed other hpos'')
      (hxowner.trans (heq.trans hyowner.symm))

end Counts

theorem filterMap_resume (woken : List Timer) (failure : Option Failure) :
    (woken.map fun t => Wake.resume t.chain failure).filterMap Wake.chain? = woken.map (·.chain) := by
  rw [List.filterMap_map]
  exact congrFun (List.filterMap_eq_map (f := fun t : Timer => t.chain)) _

/-- `Turns` keep all this, also when chains are made to fail. -/
theorem Coherent.turns {m : Stage.Move} (h : G.Coherent) (hturns : G.Turns m G') : G'.Coherent := by
  cases hturns with
  | ends hactive hc hnil => exact h.ends hactive hc hnil rfl
  -- cannot be: those who go on exist
  | strays hactive hnone =>
    obtain ⟨c, hc, -⟩ := h.alive _ (mem_wakes hactive)
    rw [hnone] at hc
    cases hc
  | @resumes chain failure ready hactive hready =>
    refine h.shuffle rfl rfl ?_ (fun group => ?_) (.inl hactive)
    · simp only [wakes, running, queued, hactive, hready]
      exact List.Perm.refl _
    · simp [hready, Wake.isOver]
  | counts hactive hready hg => exact h.counts hactive hready hg rfl
  -- cannot be: a group that is owed an end exists
  | @misses number failure ready hactive hready hnone =>
    exact absurd hnone (by simp [h.known number (owed_pos (hready ▸ List.mem_cons_self))])
  -- those who were on a timer are ready now, and others take no notice
  | @wakes woken kept failure _ hperm =>
    have hmap := hperm.map (·.chain)
    rw [List.map_append] at hmap
    refine h.shuffle rfl rfl ?_ (fun group => ?_) (.inr rfl)
    · simp only [Gear.wakes, running, queued, List.filterMap_append, filterMap_resume, List.append_assoc]
      exact (hmap.symm.append_left _).append_left _
    · have hnone : (woken.map fun t => Wake.resume t.chain failure).countP (Wake.isOver group) = 0 := by
        rw [List.countP_map, List.countP_eq_zero]
        simp [Wake.isOver]
      simp only [List.countP_append, hnone, Nat.add_zero]
  | @strikes before after chain failure _ hready =>
    refine h.shuffle rfl rfl (List.Perm.of_eq ?_) (fun group => ?_) (.inr rfl)
    · simp [Gear.wakes, running, queued, hready, Wake.chain?]
    · simp [hready, Wake.isOver]

theorem owed_spawns {frames : List Frame} (hclosed : ∀ f ∈ frames, f.isStart = false)
    (hG : G' = { G with chains := G.chains ++ [{ frames }], ready := G.ready ++ [.resume G.chains.length none] })
    (group : Nat) : G'.owed group = G.owed group := by
  have hnew : Chain.owes group { frames } = 0 := by simp [Chain.owes, Frame.sum_starting_eq_zero hclosed]
  rw [owed, owed, hG]
  simp only [List.map_append, List.map_cons, List.map_nil, List.sum_append, List.sum_cons, List.sum_nil, hnew,
    List.countP_append, List.countP_cons, List.countP_nil, Wake.isOver]
  rfl

/-- A new chain of nobody's group, which starts no beat. -/
theorem Coherent.spawns (h : G.Coherent) {frames : List Frame} (hclosed : ∀ f ∈ frames, f.isStart = false)
    (hG : G' = { G with chains := G.chains ++ [{ frames }], ready := G.ready ++ [.resume G.chains.length none] }) :
    G'.Coherent := by
  have hchains : G'.chains = G.chains ++ [{ frames := frames }] := by rw [hG]
  have hactive : G'.active = G.active := by rw [hG]
  -- the new chain goes on, and it has a number that nobody has
  have hwakes : G'.wakes.Perm (G.chains.length :: G.wakes) := by
    rw [hG]
    simp only [wakes, running, queued, List.filterMap_append, List.filterMap_cons, List.filterMap_nil, Wake.chain?,
      List.append_assoc]
    exact (List.perm_middle.append_left _).trans List.perm_middle
  have hkeeps : ∀ (i : Nat) (d : Chain), G.chains[i]? = some d → G'.chains[i]? = some d := by
    intro i d hd
    have hlt : i < G.chains.length := (List.getElem?_eq_some_iff.mp hd).1
    rw [hchains, List.getElem?_append_left hlt, hd]
  have hcases : ∀ d ∈ G'.chains, d ∈ G.chains ∨ d = { frames } := by
    intro d hd
    rw [hchains] at hd
    exact (List.mem_append.mp hd).imp_right List.mem_singleton.mp
  refine h.same_groups (by rw [hG]) (owed_spawns hclosed hG) ?_ ?_ ?_ ?_ ?_ ?_
  · -- owners stay as they are, since the new chain owns nothing
    rintro group chain ⟨d, hd, hwaits⟩
    have hlt : chain < G.chains.length := (List.getElem?_eq_some_iff.mp hd).1
    refine ⟨d, hkeeps chain d hd, hwaits.imp_left fun ⟨hbeat, hout⟩ => ⟨hbeat, fun hin => ?_⟩⟩
    rcases List.mem_cons.mp (hwakes.mem_iff.mp hin) with heq | hin
    · omega
    · exact hout hin
  · refine hwakes.nodup_iff.mpr (List.nodup_cons.mpr ⟨fun hin => ?_, h.nodup⟩)
    exact Nat.lt_irrefl _ (h.lt_length hin)
  · intro i hi
    rcases List.mem_cons.mp (hwakes.mem_iff.mp hi) with rfl | hi
    · exact ⟨{ frames }, by simp [hchains], rfl⟩
    · obtain ⟨d, hd, houtcome⟩ := h.alive i hi
      exact ⟨d, hkeeps i d hd, houtcome⟩
  · intro d hd hover
    rcases hcases d hd with hd | rfl
    · exact h.emptied d hd hover
    · exact absurd rfl hover
  · intro d hd f hf
    rcases hcases d hd with hd | rfl
    · exact h.tail d hd f hf
    · exact hclosed f (List.mem_of_mem_tail hf)
  · intro i d hd context n cs hmem
    rw [hchains] at hd
    rw [hactive]
    rcases getElem?_snoc_cases hd with hd | ⟨-, rfl⟩
    · exact h.starts i d hd context n cs hmem
    · cases hclosed _ hmem

theorem Coherent.empty : Coherent ⟨[], [], [], [], none⟩ := by
  constructor <;> simp [wakes, running, queued, owed]

/-- Once all chains are over none goes on (`wakes`), and no owner waits to be told. -/
theorem Coherent.all_over (h : G.Coherent) (hover : ∀ c ∈ G.chains, c.outcome ≠ none) :
    G.wakes = [] ∧ ∀ number failure, .over number failure ∈ G.ready →
      ∃ g, G.groups[number]? = some g ∧ g.settled = true := by
  have hwakes : G.wakes = [] := by
    refine List.eq_nil_iff_forall_not_mem.mpr fun i hi => ?_
    obtain ⟨c, hc, houtcome⟩ := h.alive i hi
    exact hover c (List.mem_of_getElem? hc) houtcome
  refine ⟨hwakes, fun number failure hmem => ?_⟩
  -- an end that is still to be counted is owed to a group, which exists and has an owner
  have hpos := owed_pos hmem
  obtain ⟨g, hg⟩ : ∃ g, G.groups[number]? = some g := ⟨_, List.getElem?_eq_getElem (h.known number hpos)⟩
  refine ⟨g, hg, ?_⟩
  cases hsettled : g.settled with
  | true => rfl
  | false =>
    -- were it not settled, the owner would wait for it; but the owner is over and has no frames
    obtain ⟨c, hc, hwaits⟩ := h.owners number g hg hsettled hpos
    have hnil := h.emptied c (List.mem_of_getElem? hc) (hover c (List.mem_of_getElem? hc))
    rw [hnil] at hwaits
    rcases hwaits with ⟨⟨_, _, _, hbeat⟩, -⟩ | ⟨_, _, hstart⟩
    · cases hbeat
    · cases hstart

end Gear

/-! ## Coherent on every run -/

namespace Stage

variable {react : Reactions} {w w' : Stage} {m : Move}

/-- An immediate act of a reaction is to the chains a stride that starts nothing. -/
theorem acts_gait (hcoherent : w.gear.Coherent) {chain : Nat} {act : Act} {acts : List Act} {rest : List Frame}
    (hactive : w.active = some (chain, none)) (hframes : w.framesOf chain = some (.acts (act :: acts) :: rest))
    (failure : Option Failure) :
    ∃ c, w.gear.Gait chain c (.acts (act :: acts)) rest { frames := [.acts acts], way := .on failure } := by
  obtain ⟨c, hc, hcons⟩ := framesOf_eq_some hframes
  exact ⟨c, hcoherent, ⟨none, hactive⟩, hc, hcons, .plain rfl rfl (by simp [Frame.isStart]) nofun nofun⟩

/-- An act of a reaction is to the chains a stride that drops the act. -/
theorem acts_gear {chain : Nat} {acts : List Act} {rest : List Frame} {failure : Option Failure}
    (hgear : w'.gear = { w.gear.setFrames chain (.acts acts :: rest) with active := some (chain, failure) }) :
    w'.gear = w.gear.after chain rest { frames := [.acts acts], way := .on failure } := by
  rw [hgear]
  simp [Gear.after, Gear.setFrames]

/-- A stride is taken by the running chain of coherent (`Coherent`) gear. -/
theorem strides_gait (hcoherent : w.gear.Coherent) {chain : Nat} {failure : Option Failure} {frame : Frame}
    {rest : List Frame} {t : Stride} (hactive : w.active = some (chain, failure))
    (hframes : w.framesOf chain = some (frame :: rest))
    (hplays : Plays react w.session w.groups.length (w.groupOf chain) chain failure frame t) :
    ∃ c, w.gear.Gait chain c frame rest t := by
  obtain ⟨c, hc, hcons⟩ := framesOf_eq_some hframes
  have hstart : failure = none ∨ frame.isStart = false := by
    cases frame with
    | start context n cs =>
      have hruns := hcoherent.starts chain c hc context n cs (by simp [hcons])
      exact .inl (congrArg Prod.snd (Option.some.inj (hactive.symm.trans hruns)))
    | command | acts | settle | announce | advance | beat | reportEnd | leave | sleep => exact .inr rfl
  exact ⟨c, hcoherent, ⟨failure, hactive⟩, hc, hcons, hplays.chainStride hstart⟩

/-- What somebody outside begins starts no beat by itself. -/
theorem isStart_of_outside {frames : List Frame} (h : ∀ f ∈ frames, f.FromOutside) :
    ∀ f ∈ frames, f.isStart = false := by
  intro f hf
  cases f with
  | start => exact (h _ hf).elim
  | command | acts | settle | announce | advance | beat | reportEnd | leave | sleep => rfl

/-- Every change of a stage keeps its gear coherent. -/
theorem coherent_change (h : w.gear.Coherent) (hchange : Change react w m w') : w'.gear.Coherent := by
  cases hchange with
  | aside haside =>
    rw [haside.gear_eq]
    exact h
  | strides hactive hframes hplays hgear _ _ =>
    obtain ⟨c, hgait⟩ := strides_gait h hactive hframes hplays
    rw [hgear]
    exact hgait.coherent_after
  | acts hactive hframes _ hgear _ _ =>
    obtain ⟨c, hgait⟩ := acts_gait h hactive hframes _
    rw [acts_gear hgear]
    exact hgait.coherent_after
  | turns hturns _ => exact h.turns hturns
  | spawns houtside hgear _ => exact h.spawns (isStart_of_outside houtside) hgear

/-- Whatever has happened to a stage, its chains are coherent. -/
theorem Reaches.coherent {w₀ : Stage} (h₀ : w₀.gear = ⟨[], [], [], [], none⟩) (h : Reaches react w₀ w) :
    w.gear.Coherent := by
  induction h with
  | refl => exact h₀ ▸ .empty
  | tail _ hnext ih =>
    obtain ⟨m, hmakes⟩ := hnext.makes
    exact coherent_change ih hmakes.change

end Stage

end ChatScene

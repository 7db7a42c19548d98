/-
  Chains in good order.

  When nothing fails, a group owes as many ends as it has chains that are not over.  So the owner of a group stays where
  it is until all chains of the group are over, and is told of it once.

  1. **Order** — `Gear.Orderly` extends coherence: a chain has commands to begin on top only (`Chain.OpensOnTop`),
     chains that wait for a time have none, groups are owed what they count, and groups that count are not settled.
     `Gear.Unfailing` says that nothing is failing.

  2. **Strides** — `UnfailingStride` is what the strides of a chain are to the chains when nothing fails.  A stride of
     the running chain keeps the order (`Pace.orderly_after`, one lemma for each part of it before).

  3. **Turns and new chains** — so do the turns that the chains take (`Orderly.turns`) and the chains that somebody
     outside begins (`Orderly.spawns`).

  4. **Stages** — nothing begins to fail by itself either, as long as there is a listener that never fails
     (`ListenerSucceeds`).  Main result (`OrderlyUnfailing.change`): whatever happens then keeps a stage in good order
     and unfailing, if nobody outside cancels or runs single commands.
-/
import ChatScene.Proofs.Waiting

namespace ChatScene

/-! ## Good order -/

/-- The failure that an entry of the ready list passes on. -/
def Wake.failure : Wake → Option Failure
  | .resume _ failure | .over _ failure => failure

/-- A frame with commands that have not begun. -/
def Frame.isOpening : Frame → Bool
  | .command _ | .start _ _ _ => true
  | _ => false

/-- A frame that starts a beat has commands to begin. -/
theorem Frame.isStart_eq_false {f : Frame} (h : f.isOpening = false) : f.isStart = false := by
  cases f with
  | start => cases h
  | command | acts | settle | announce | advance | beat | reportEnd | leave | sleep => rfl

/-- A chain that has commands to begin on top only, and belongs to a group when it is one of a command. -/
structure Chain.OpensOnTop (c : Chain) : Prop where
  tail : ∀ f ∈ c.frames.tail, f.isOpening = false
  grouped : ∀ k, .command k ∈ c.frames → c.group ≠ none

namespace Gear

/-- The chains are in good order. -/
structure Orderly (G : Gear) : Prop extends G.Coherent where
  opensOnTop : ∀ c ∈ G.chains, c.OpensOnTop
  timed : ∀ t ∈ G.timers, ∀ c, G.chains[t.chain]? = some c → ∀ k, .command k ∉ c.frames
  accounts : ∀ group, G.owed group = (G.groups[group]?).elim 0 Group.left
  unsettled : ∀ (group : Nat) (g : Group), G.groups[group]? = some g → 0 < g.left → g.settled = false

/-- Nothing is failing. -/
structure Unfailing (G : Gear) : Prop where
  active : ∀ chain failure, G.active = some (chain, failure) → failure = none
  ready : ∀ wake ∈ G.ready, wake.failure = none

end Gear

/-! ## Strides without failure -/

/-- What the strides of a chain are to the chains, when nothing fails. -/
inductive UnfailingStride (number chain : Nat) : Frame → Stride → Prop where
  /-- The chain goes on without starting others. -/
  | plain {frame : Frame} {t : Stride} : frame.isStart = false → t.begun = [] →
      (∀ f ∈ t.frames, f.isOpening = false) → t.way.IsFree chain →
      (t.opened = [] ∨ t.opened = [{ owner := chain, left := 0 }]) → UnfailingStride number chain frame t
  /-- A beat has been collected. -/
  | collects {frame : Frame} {t : Stride} {context : Context} {cs : List Command} : frame.isOpening = false →
      t.begun = [] → t.frames = [.start context number cs] → t.way = .on none → cs ≠ [] →
      t.opened = [{ owner := chain, left := cs.length }] → UnfailingStride number chain frame t
  /-- The commands of a beat start. -/
  | starts {t : Stride} {context : Context} {n : Nat} {cs : List Command} : t.begun = cs → t.number = n →
      (∃ onChoice, t.frames = [.beat context onChoice]) → t.way = .stay → t.opened = [] →
      UnfailingStride number chain (.start context n cs) t

/-- A `Round` of an advance: it collects a beat, or ends the scene. -/
theorem Round.unfailingStride {beat : List Command} {script : Script} {number chain : Nat} {context : Context}
    {t : Stride} {frame : Frame} (h : Round beat script number chain context t) (hframe : frame.isOpening = false) :
    UnfailingStride number chain frame t := by
  cases h with
  | ends hbeat => exact .plain (Frame.isStart_eq_false hframe) rfl (by simp [Frame.isOpening]) rfl (.inr rfl)
  | collects hbeat => exact .collects hframe rfl rfl rfl hbeat rfl

/-- While there is a listener and nothing fails, a stride (`Plays`) is one of these three. -/
theorem Plays.unfailingStride {react : Reactions} {s : Session} {group : Option Nat} {number chain : Nat}
    {frame : Frame} {t : Stride} (h : Plays react s number group chain none frame t) (hattached : s.attached = true) :
    UnfailingStride number chain frame t := by
  cases h with
  | @idles frame _ hidle hfree =>
    have hframe : frame.isStart = false := by
      cases frame with
      | start => cases hidle
      | command | acts | settle | announce | advance | beat | reportEnd | leave | sleep => rfl
    exact .plain hframe rfl (by simp) hfree (.inl rfl)
  | dwells hfree => exact .plain rfl rfl (by simp [Frame.isOpening]) hfree (.inl rfl)
  | shows | offers | jumps | nests | announces | stops | reports | leaves =>
    exact .plain rfl rfl (by simp [Frame.isOpening]) rfl (.inl rfl)
  | deserted hdetached => exact absurd (hattached.symm.trans hdetached) (by simp)
  | @enters context t hfinished hround =>
    -- entering the context is nothing to the chains
    have hstride : UnfailingStride number chain (.advance context) t := hround.unfailingStride rfl
    cases hstride with
    | plain hstart hbegun hframes hfree hopened => exact .plain hstart hbegun hframes hfree hopened
    | collects hframe hbegun hframes hon hne hopened => exact .collects hframe hbegun hframes hon hne hopened
  | continues hfinished hround => exact hround.unfailingStride rfl
  | starts => exact .starts rfl rfl ⟨_, rfl⟩ rfl rfl

namespace UnfailingStride

variable {number chain : Nat} {frame : Frame} {t : Stride}

theorem acts {act : Act} {acts : List Act} :
    UnfailingStride number chain (.acts (act :: acts)) { frames := [.acts acts] } :=
  .plain rfl rfl (by simp [Frame.isOpening]) rfl (.inl rfl)

/-- A stride that does not fail is a stride of a chain as `Coherent` needs it. -/
theorem chainStride (h : UnfailingStride number chain frame t) : ChainStride number chain frame t := by
  cases h with
  | plain hframe hbegun hclosed hfree _ =>
    exact .plain hframe hbegun (fun f hf => Frame.isStart_eq_false (hclosed f hf)) hfree.goes.1 hfree.goes.2
  | collects hframe hbegun hstart hway _ hopened =>
    exact .collects (Frame.isStart_eq_false hframe) hbegun hstart hway hopened
  | starts hbegun hnumber hbeat hway hopened => exact .starts hbegun hnumber hbeat hway hopened

/-- Commands to begin are on top only, also after the stride. -/
theorem tail_closed (h : UnfailingStride number chain frame t) : ∀ f ∈ t.frames.tail, f.isOpening = false := by
  cases h with
  | plain _ _ hclosed _ _ => exact fun f hf => hclosed f (List.mem_of_mem_tail hf)
  | collects _ _ hstart _ _ _ => simp [hstart]
  | starts _ _ hbeat _ _ =>
    obtain ⟨onChoice, hbeat⟩ := hbeat
    simp [hbeat]

/-- A stride that does not fail (`UnfailingStride`) leaves no command on its own chain: commands get chains of their
    own. -/
theorem no_command (h : UnfailingStride number chain frame t) (k : Command) : .command k ∉ t.frames := by
  intro hk
  cases h with
  | plain _ _ hclosed _ _ => cases hclosed _ hk
  | collects _ _ hstart _ _ _ => simp [hstart] at hk
  | starts _ _ hbeat _ _ =>
    obtain ⟨onChoice, hbeat⟩ := hbeat
    simp [hbeat] at hk

/-- And it does not go on with a failure. -/
theorem on_none (h : UnfailingStride number chain frame t) {failure : Option Failure} (hway : t.way = .on failure) :
    failure = none := by
  cases h with
  | plain _ _ _ hfree _ =>
    rw [hway] at hfree
    exact hfree
  | collects _ _ _ hon _ _ =>
    rw [hway] at hon
    cases hon
    rfl
  | starts _ _ _ hstay _ =>
    rw [hway] at hstay
    cases hstay

end UnfailingStride

/-! ## Good order after a stride -/

namespace Gear

variable {G G' : Gear} {a : Nat} {c : Chain} {frame : Frame} {rest : List Frame} {t : Stride} {number : Nat}

/-- What is left of the groups after one more. -/
theorem left_snoc (groups : List Group) (g : Group) (group : Nat) :
    ((groups ++ [g])[group]?).elim 0 Group.left =
      (groups[group]?).elim 0 Group.left + if groups.length = group then g.left else 0 := by
  rw [List.getElem?_append]
  split
  · rename_i hlt
    rw [if_neg (by omega), Nat.add_zero]
  · rename_i hge
    have hnone : groups[group]? = none := List.getElem?_eq_none (by omega)
    rw [hnone, List.getElem?_singleton]
    by_cases hgroup : groups.length = group
    · simp [hgroup]
    · rw [if_neg (by omega), if_neg hgroup]
      rfl

/-- The running chain of a gear in good order takes a stride that does not fail. -/
structure Pace (G : Gear) (a : Nat) (c : Chain) (frame : Frame) (rest : List Frame) (t : Stride) : Prop where
  orderly : G.Orderly
  active : G.active = some (a, none)
  chain : G.chains[a]? = some c
  frames : c.frames = frame :: rest
  unfailingStride : UnfailingStride G.groups.length a frame t

namespace Pace

theorem gait (h : G.Pace a c frame rest t) : G.Gait a c frame rest t :=
  ⟨h.orderly.toCoherent, ⟨none, h.active⟩, h.chain, h.frames, h.unfailingStride.chainStride⟩

/-- The frames that the stride leaves alone have no commands to begin. -/
theorem rest_closed (h : G.Pace a c frame rest t) : ∀ f ∈ rest, f.isOpening = false := by
  have htail := (h.orderly.opensOnTop c (List.mem_of_getElem? h.chain)).tail
  rw [h.frames] at htail
  exact htail

/-- Commands to begin are on top only, in all chains. -/
theorem opensOnTop (h : G.Pace a c frame rest t) : ∀ d ∈ (G.after a rest t).chains, d.OpensOnTop := by
  intro d hd
  obtain ⟨i, hi⟩ := List.mem_iff_getElem?.mp hd
  rcases getElem?_after_cases h.chain hi with ⟨-, rfl⟩ | ⟨-, hi⟩ | ⟨-, k, -, rfl⟩
  · refine ⟨fun f hf => ?_, fun k hk => ?_⟩
    · -- what follows the first frame is of the stride, or was there before
      cases hnew : t.frames with
      | nil =>
        rw [hnew, List.nil_append] at hf
        exact h.rest_closed f (List.mem_of_mem_tail hf)
      | cons g gs =>
        have htail := h.unfailingStride.tail_closed
        rw [hnew] at hf htail
        rcases List.mem_append.mp hf with hf | hf
        · exact htail f hf
        · exact h.rest_closed f hf
    · rcases List.mem_append.mp hk with hk | hk
      · exact absurd hk (h.unfailingStride.no_command k)
      · cases h.rest_closed _ hk
  · exact h.orderly.opensOnTop d (List.mem_of_getElem? hi)
  · exact ⟨by simp, by simp⟩

/-- No chain that waits for a time has commands to begin: the one that strides has none left if it waits, and the
    others have not changed. -/
theorem timed (h : G.Pace a c frame rest t) {timer : Timer} (htimer : timer ∈ (G.after a rest t).timers) {d : Chain}
    (hd : (G.after a rest t).chains[timer.chain]? = some d) (k : Command) : .command k ∉ d.frames := by
  -- the timer is an old one, or that of the chain that strides
  have hcases : timer ∈ G.timers ∨ timer.chain = a := by
    cases hway : t.way with
    | away new =>
      simp only [Gear.after, hway] at htimer
      rcases List.mem_cons.mp ((Stage.insertTimer_perm new G.timers).mem_iff.mp htimer) with rfl | htimer
      · exact .inr (h.unfailingStride.chainStride.away_self hway)
      · exact .inl htimer
    | on | back | stay =>
      simp only [Gear.after, hway] at htimer
      exact .inl htimer
  have hold : timer ∈ G.timers → timer.chain ∈ G.wakes := by
    intro htimer
    exact List.mem_append_right _ (List.mem_append_right _ (List.mem_map.mpr ⟨timer, htimer, rfl⟩))
  intro hk
  rcases getElem?_after_cases h.chain hd with ⟨-, rfl⟩ | ⟨hne, hd⟩ | ⟨hge, -⟩
  · rcases List.mem_append.mp hk with hk | hk
    · exact h.unfailingStride.no_command k hk
    · cases h.rest_closed _ hk
  · exact h.orderly.timed timer (hcases.resolve_right hne) d hd k hk
  · rcases hcases with htimer | heq
    · have hlt := h.orderly.lt_length (hold htimer)
      omega
    · have hlt := h.gait.lt_length
      omega

/-- Groups are owed what they count (`Group.left`): a stride that starts the chains of a group opens it with their
    number. -/
theorem accounts (h : G.Pace a c frame rest t) (group : Nat) :
    (G.after a rest t).owed group = ((G.after a rest t).groups[group]?).elim 0 Group.left := by
  have howed := owed_after h.chain h.frames t group
  rw [h.orderly.accounts group] at howed
  have hgroups : (G.after a rest t).groups = G.groups ++ t.opened := rfl
  rw [hgroups]
  -- a plain stride owes nothing, a beat that is collected owes its commands, and starting them moves what is owed from
  -- the frame to the chains
  cases h.unfailingStride with
  | plain hframe hbegun hclosed hfree hopened =>
    have hnone : (t.frames.map (Frame.starting group)).sum = 0 :=
      Frame.sum_starting_eq_zero fun f hf => Frame.isStart_eq_false (hclosed f hf)
    rw [Frame.starting_eq_zero hframe, hbegun, hnone] at howed
    rcases hopened with hempty | hone
    · rw [hempty, List.append_nil]
      simpa using howed
    · rw [hone, left_snoc]
      simpa using howed
  | collects hframe hbegun hstart hway hne hopened =>
    rw [Frame.starting_eq_zero (Frame.isStart_eq_false hframe), hbegun, hstart] at howed
    rw [hopened, left_snoc]
    simpa [Frame.starting] using howed
  | starts hbegun hnumber hbeat hway hopened =>
    obtain ⟨onChoice, hbeat⟩ := hbeat
    rw [hbeat, hbegun, hnumber] at howed
    rw [hopened, List.append_nil]
    simp only [Frame.starting, List.map_cons, List.map_nil, List.sum_cons, List.sum_nil, Nat.add_zero] at howed
    exact Nat.add_right_cancel howed

/-- A group that still counts has not been settled; new ones never are. -/
theorem unsettled (h : G.Pace a c frame rest t) {group : Nat} {g : Group}
    (hg : (G.after a rest t).groups[group]? = some g) (hleft : 0 < g.left) : g.settled = false := by
  have hgroups : (G.after a rest t).groups = G.groups ++ t.opened := rfl
  rw [hgroups, List.getElem?_append] at hg
  split at hg
  · exact h.orderly.unsettled group g hg hleft
  · have hmem := List.mem_of_getElem? hg
    cases h.unfailingStride with
    | plain _ _ _ _ hopened =>
      rcases hopened with hempty | hone
      · simp [hempty] at hmem
      · rw [hone, List.mem_singleton] at hmem
        rw [hmem]
    | collects _ _ _ _ _ hopened =>
      rw [hopened, List.mem_singleton] at hmem
      rw [hmem]
    | starts _ _ _ _ hopened => simp [hopened] at hmem

/-- A stride that does not fail keeps the order. -/
theorem orderly_after (h : G.Pace a c frame rest t) : (G.after a rest t).Orderly where
  toCoherent := h.gait.coherent_after
  opensOnTop := h.opensOnTop
  timed _ htimer _ hd k := h.timed htimer hd k
  accounts := h.accounts
  unsettled _ _ hg hleft := h.unsettled hg hleft

end Pace

/-! ## Good order while the chains take turns -/

/-- Chains that only change places stay in order: neither their frames nor the groups have changed, and no timer is
    new. -/
theorem Orderly.shuffle (h : G.Orderly) (hcoherent : G'.Coherent) (hchains : G'.chains = G.chains)
    (hgroups : G'.groups = G.groups)
    (hover : ∀ group, G'.ready.countP (Wake.isOver group) = G.ready.countP (Wake.isOver group))
    (htimers : ∀ t ∈ G'.timers, t ∈ G.timers) : G'.Orderly where
  toCoherent := hcoherent
  opensOnTop := hchains ▸ h.opensOnTop
  timed t ht := hchains ▸ h.timed t (htimers t ht)
  accounts group := by
    rw [owed, hchains, hgroups, hover]
    exact h.accounts group
  unsettled := hgroups ▸ h.unsettled

/-- The running chain is over.  It owed its end as a chain, and now owes it as an entry of the ready list. -/
theorem Orderly.ends (h : G.Orderly) {failure : Option Failure} (hactive : G.active = some (a, failure))
    (hc : G.chains[a]? = some c) (hnil : c.frames = [])
    (hG : G' = { G with chains := G.chains.modify a fun c => { c with outcome := some failure }
                        ready := G.ready ++ c.group.toList.map (.over · failure), active := none }) : G'.Orderly := by
  have hchains : G'.chains = G.chains.modify a fun c => { c with outcome := some failure } := by rw [hG]
  have hgroups : G'.groups = G.groups := by rw [hG]
  refine ⟨h.toCoherent.ends hactive hc hnil hG, ?_, ?_, ?_, hgroups ▸ h.unsettled⟩
  · -- the chain that ends has no frames, so there is nothing to show of it
    intro d hd
    obtain ⟨i, hi⟩ := List.mem_iff_getElem?.mp hd
    rw [hchains] at hi
    rcases getElem?_modify_cases hi hc with ⟨-, rfl⟩ | ⟨-, hi⟩
    · exact ⟨by simp [hnil], by simp [hnil]⟩
    · exact h.opensOnTop d (List.mem_of_getElem? hi)
  · intro timer htimer d hd k hk
    rw [hchains] at hd
    rcases getElem?_modify_cases hd hc with ⟨-, rfl⟩ | ⟨-, hd⟩
    · simp [hnil] at hk
    · exact h.timed timer (by rw [hG] at htimer; exact htimer) d hd k hk
  · -- what it owed to its group is now an end that is ready to be counted
    intro group
    rw [owed_ends hc hnil (h.outcome_eq (mem_wakes hactive) hc) hchains (by rw [hG]), hgroups]
    exact h.accounts group

/-- The end of a chain that has to be counted is one that the group counts with. -/
theorem Orderly.left_pos (h : G.Orderly) {number : Nat} {failure : Option Failure} {ready : List Wake} {g : Group}
    (hready : G.ready = .over number failure :: ready) (hg : G.groups[number]? = some g) : 0 < g.left := by
  have hpos : 0 < G.owed number := owed_pos (hready ▸ List.mem_cons_self)
  rw [h.accounts number, hg] at hpos
  exact hpos

/-- A chain of a group is over, and is counted (`Group.count`): one less is owed and one less is left. -/
theorem Orderly.counts (h : G.Orderly) (hactive : G.active = none) {ready : List Wake} {g : Group}
    (hready : G.ready = .over number none :: ready) (hg : G.groups[number]? = some g)
    (hG : G' = { G with groups := G.groups.set number (g.count none)
                        ready := ready ++ if g.tells none then [.resume g.owner none] else [] }) : G'.Orderly := by
  have hlt : number < G.groups.length := (List.getElem?_eq_some_iff.mp hg).1
  -- something is left to count, so the owner has not been told
  have hsettled : g.settled = false := h.unsettled number g hg (h.left_pos hready hg)
  have hchains : G'.chains = G.chains := by rw [hG]
  have hgroups : G'.groups = G.groups.set number (g.count none) := by rw [hG]
  refine ⟨h.toCoherent.counts hactive hready hg hG, hchains ▸ h.opensOnTop, ?_, ?_, ?_⟩
  · intro timer htimer
    rw [hchains]
    exact h.timed timer (by rw [hG] at htimer; exact htimer)
  · intro group
    have howed := owed_counts hready hchains (by rw [hG]) group
    rw [h.accounts group] at howed
    rw [hgroups]
    by_cases hgroup : number = group
    · subst hgroup
      simp only [hg, if_true, Option.elim_some] at howed
      simp only [List.getElem?_set_self hlt, Group.count, Option.elim_some]
      omega
    · rw [if_neg hgroup, Nat.add_zero] at howed
      rw [List.getElem?_set_ne hgroup]
      exact howed
  · intro group g' hg' hleft'
    rw [hgroups] at hg'
    by_cases hgroup : number = group
    · subst hgroup
      rw [List.getElem?_set_self hlt] at hg'
      cases hg'
      -- more than one was left, so the owner is not told this time either
      have hmore : g.left - 1 ≠ 0 := Nat.pos_iff_ne_zero.mp hleft'
      simp [Group.count, Group.tells, hsettled, hmore]
    · rw [List.getElem?_set_ne hgroup] at hg'
      exact h.unsettled group g' hg' hleft'

/-- `Turns` keep the order, as long as nothing fails. -/
theorem Orderly.turns {m : Stage.Move} (h : G.Orderly) (hstride : G.Unfailing) (hm : m.CancelsNone)
    (hturns : G.Turns m G') : G'.Orderly := by
  have hcoherent := h.toCoherent.turns hturns
  cases hturns with
  | ends hactive hc hnil => exact h.ends hactive hc hnil rfl
  | strays => exact h.shuffle hcoherent rfl rfl (fun _ => rfl) fun t ht => ht
  | @resumes chain failure ready hactive hready =>
    refine h.shuffle hcoherent rfl rfl (fun group => ?_) fun t ht => ht
    simp [hready, Wake.isOver]
  -- nothing fails, so it is a success that is counted
  | @counts number failure ready g hactive hready hg =>
    obtain rfl : failure = none := hstride.ready (.over number failure) (by simp [hready])
    exact h.counts hactive hready hg rfl
  | @misses number failure ready hactive hready hnone =>
    exact absurd hnone (by simp [h.known number (owed_pos (hready ▸ List.mem_cons_self))])
  | @wakes woken kept failure _ hperm =>
    refine h.shuffle hcoherent rfl rfl (fun group => ?_) fun t ht => ?_
    · have hnone : (woken.map fun t => Wake.resume t.chain failure).countP (Wake.isOver group) = 0 := by
        rw [List.countP_map, List.countP_eq_zero]
        simp [Wake.isOver]
      simp only [List.countP_append, hnone, Nat.add_zero]
    · exact hperm.mem_iff.mpr (List.mem_append_right woken ht)
  -- nobody cancels
  | strikes failure hstrike _ =>
    subst hstrike
    exact hm.elim

/-- A new chain without commands to begin, from outside, belongs to no group. -/
theorem Orderly.spawns (h : G.Orderly) {frames : List Frame} (hclosed : ∀ f ∈ frames, f.isOpening = false)
    (hG : G' = { G with chains := G.chains ++ [{ frames }], ready := G.ready ++ [.resume G.chains.length none] }) :
    G'.Orderly := by
  have hchains : G'.chains = G.chains ++ [{ frames := frames }] := by rw [hG]
  have hgroups : G'.groups = G.groups := by rw [hG]
  have hnoStart : ∀ f ∈ frames, f.isStart = false := fun f hf => Frame.isStart_eq_false (hclosed f hf)
  refine ⟨h.toCoherent.spawns hnoStart hG, ?_, ?_, ?_, hgroups ▸ h.unsettled⟩
  · intro d hd
    rw [hchains] at hd
    rcases List.mem_append.mp hd with hd | hd
    · exact h.opensOnTop d hd
    · rw [List.mem_singleton.mp hd]
      -- a chain of the host begins with an advance, and has no command to begin
      exact ⟨fun f hf => hclosed f (List.mem_of_mem_tail hf), fun k hk => by cases hclosed _ hk⟩
  · intro timer htimer d hd k hk
    rw [hchains] at hd
    rcases getElem?_snoc_cases hd with hd | ⟨-, rfl⟩
    · exact h.timed timer (by rw [hG] at htimer; exact htimer) d hd k hk
    · cases hclosed _ hk
  · intro group
    rw [owed_spawns hnoStart hG, hgroups]
    exact h.accounts group

end Gear

/-! ## Nothing fails -/

namespace Gear

variable {G G' : Gear} {a : Nat} {rest : List Frame} {t : Stride}

/-- A stride that does not fail leaves nothing failing (`Unfailing`). -/
theorem Unfailing.after (h : G.Unfailing) (hway : ∀ failure, t.way = .on failure → failure = none) :
    (G.after a rest t).Unfailing where
  active chain failure hactive := by
    simp only [Gear.after] at hactive
    split at hactive
    · rename_i result hon
      cases hactive
      exact hway failure hon
    · cases hactive
  ready wake hwake := by
    simp only [Gear.after] at hwake
    rcases List.mem_append.mp hwake with hwake | hwake
    · split at hwake
      · rcases List.mem_append.mp hwake with hwake | hwake
        · exact h.ready wake hwake
        · rw [List.mem_singleton.mp hwake]
          rfl
      · exact h.ready wake hwake
    · obtain ⟨p, -, rfl⟩ := List.mem_map.mp hwake
      rfl

/-- Nor do `Turns`, if nobody cancels. -/
theorem Unfailing.turns {m : Stage.Move} (h : G.Unfailing) (hm : m.CancelsNone) (hturns : G.Turns m G') :
    G'.Unfailing := by
  cases hturns with
  | @ends chain failure c hactive _ _ =>
    obtain rfl : failure = none := h.active chain failure hactive
    refine ⟨by simp, fun wake hwake => ?_⟩
    rcases List.mem_append.mp hwake with hwake | hwake
    · exact h.ready wake hwake
    · obtain ⟨group, -, rfl⟩ := List.mem_map.mp hwake
      rfl
  | strays => exact ⟨by simp, h.ready⟩
  | @resumes chain failure ready _ hready =>
    have hhead : failure = none := h.ready (.resume chain failure) (by simp [hready])
    refine ⟨fun chain' failure' hactive => ?_, fun wake hwake => h.ready wake (by simp [hready, hwake])⟩
    cases hactive
    exact hhead
  | @counts number failure ready g hactive hready hg =>
    have hhead : failure = none := h.ready (.over number failure) (by simp [hready])
    refine ⟨h.active, fun wake hwake => ?_⟩
    rcases List.mem_append.mp hwake with hwake | hwake
    · exact h.ready wake (by simp [hready, hwake])
    · split at hwake
      · rw [List.mem_singleton.mp hwake]
        exact hhead
      · cases hwake
  | misses _ hready => exact ⟨h.active, fun wake hwake => h.ready wake (by simp [hready, hwake])⟩
  -- timers that fire wake without a failure, and nobody cancels those who wait
  | @wakes woken kept failure hfailure _ =>
    have hnone : failure = none := by
      rcases hfailure with hnone | rfl
      · exact hnone
      · exact hm
    refine ⟨h.active, fun wake hwake => ?_⟩
    rcases List.mem_append.mp hwake with hwake | hwake
    · exact h.ready wake hwake
    · obtain ⟨timer, -, rfl⟩ := List.mem_map.mp hwake
      exact hnone
  | strikes failure hstrike _ =>
    subst hstrike
    exact hm.elim

end Gear

/-- An act that never fails. -/
def Act.Succeeds (act : Act) : Prop := ∀ w : Stage, (w.perform act).failure = none

/-- The listener never fails. -/
def ListenerSucceeds (react : Reactions) : Prop :=
  ∀ cue n, cue.isCall = true → ∀ act ∈ react cue n, act.Succeeds

namespace Stage

variable {react : Reactions} {w w' : Stage} {m : Move}

/-- A stage on which nothing can fail and all chains are in good order. -/
structure OrderlyUnfailing (w : Stage) : Prop where
  succeeds : w.gear.Every (Frame.ActsAre Act.Succeeds)
  unfailing : w.gear.Unfailing
  orderly : w.gear.Orderly

theorem New.orderlyUnfailing (h : w.New) : w.OrderlyUnfailing := by
  refine ⟨?_, ?_, ?_⟩ <;> rw [h.gear_eq]
  · intro c hc
    exact absurd hc List.not_mem_nil
  · constructor <;> simp
  · exact ⟨.empty, by simp, by simp, by simp [Gear.owed], by simp⟩

/-- The strides (`Plays`) of a stage in good order with a listener do not fail. -/
theorem OrderlyUnfailing.unfailingStride (h : w.OrderlyUnfailing) (hattached : w.session.attached = true) {chain : Nat}
    {failure : Option Failure} {frame : Frame} {t : Stride} (hactive : w.active = some (chain, failure))
    (hplays : Plays react w.session w.groups.length (w.groupOf chain) chain failure frame t) :
    UnfailingStride w.groups.length chain frame t := by
  obtain rfl : failure = none := h.unfailing.active chain failure hactive
  exact hplays.unfailingStride hattached

/-- An act of a reaction is to the chains a stride that drops the act. -/
theorem OrderlyUnfailing.gear_acts (h : w.OrderlyUnfailing) {chain : Nat} {act : Act} {acts : List Act}
    {rest : List Frame} {failure : Option Failure} (hframes : w.framesOf chain = some (.acts (act :: acts) :: rest))
    (hperform : ∃ v : Stage, (v.perform act).failure = failure)
    (hgear : w'.gear = { w.gear.setFrames chain (.acts acts :: rest) with active := some (chain, failure) }) :
    w'.gear = w.gear.after chain rest { frames := [.acts acts] } := by
  obtain ⟨c, hc, hcons⟩ := framesOf_eq_some hframes
  obtain ⟨v, rfl⟩ := hperform
  have hacts := h.succeeds c (List.mem_of_getElem? hc) (.acts (act :: acts)) (by simp [hcons])
  rw [hgear, hacts act List.mem_cons_self v]
  simp [Gear.after, Gear.setFrames]

/-- Whoever is outside begins no commands, but for single ones. -/
theorem closed_of_outside {frames : List Frame} (houtside : ∀ f ∈ frames, f.FromOutside)
    (hcommand : ∀ c, Frame.command c ∉ frames) : ∀ f ∈ frames, f.isOpening = false := by
  intro f hf
  cases f with
  | command c => exact absurd hf (hcommand c)
  | start => exact (houtside _ hf).elim
  | acts | settle | announce | advance | beat | reportEnd | leave | sleep => rfl

/-- A stage stays in good order as long as the listener (`attached`) is there and nobody outside makes a chain fail. -/
theorem OrderlyUnfailing.change (h : w.OrderlyUnfailing) (hattached : w.session.attached = true)
    (hreact : ListenerSucceeds react)
    (hcommand : m.RunsNoCommand) (hcancel : m.CancelsNone) (hchange : Change react w m w') : w'.OrderlyUnfailing := by
  obtain ⟨_, _, hrecords⟩ := hchange.records
  have hsucceeds := hchange.every (lasting_actsAre hreact) h.succeeds
  -- what the listener is going to do comes from its reactions alone; the rest is about the gear
  suffices hgear : w'.gear.Unfailing ∧ w'.gear.Orderly from
    ⟨hsucceeds, hgear.1, hgear.2⟩
  cases hchange with
  | aside haside =>
    rw [haside.gear_eq]
    exact ⟨h.unfailing, h.orderly⟩
  | @strides _ chain failure frame rest t _ hactive hframes hplays hgear _ _ =>
    have hstride := h.unfailingStride hattached hactive hplays
    obtain rfl : failure = none := h.unfailing.active chain failure hactive
    obtain ⟨c, hc, hcons⟩ := framesOf_eq_some hframes
    rw [hgear]
    -- the stride is one of the three that do not fail, at the pace of a stage in good order
    have hpace : w.gear.Pace chain c frame rest t := ⟨h.orderly, hactive, hc, hcons, hstride⟩
    exact ⟨h.unfailing.after fun failure hway => hstride.on_none hway, hpace.orderly_after⟩
  | @acts _ chain act acts rest failure _ hactive hframes hperform hgear _ _ =>
    obtain ⟨c, hc, hcons⟩ := framesOf_eq_some hframes
    rw [h.gear_acts hframes hperform hgear]
    have hpace : w.gear.Pace chain c (.acts (act :: acts)) rest { frames := [.acts acts] } :=
      ⟨h.orderly, hactive, hc, hcons, UnfailingStride.acts⟩
    exact ⟨h.unfailing.after fun failure hway => by cases hway; rfl, hpace.orderly_after⟩
  | turns hturns _ => exact ⟨h.unfailing.turns hcancel hturns, h.orderly.turns h.unfailing hcancel hturns⟩
  -- the host starts a chain, which is no command of a beat
  | @spawns _ frames houtside hgear _ =>
    refine ⟨?_, h.orderly.spawns (closed_of_outside houtside hcommand) hgear⟩
    rw [hgear]
    refine ⟨h.unfailing.active, fun wake hwake => ?_⟩
    rcases List.mem_append.mp hwake with hwake | hwake
    · exact h.unfailing.ready wake hwake
    · rw [List.mem_singleton.mp hwake]
      rfl

end Stage

end ChatScene

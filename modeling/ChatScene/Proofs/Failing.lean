/-
  A failure reaches whoever waits.

  The commands of a beat run as chains of their own, and the chain that plays the beat waits for all of them.  If one of
  them fails, the failure has to come to the chain that waits, whatever the others are doing meanwhile: they may go on,
  be over in any order, or fail as well.  That this is so rests on one count.

  1. **The count is right** (`Gear.Balanced`) — a group counts as many ends as are owed to it (`Gear.owed`): one by each
     of its chains that is not over, and one by each end that has been put down but not counted yet.  Every
     `Stage.Change` keeps this (`Stage.balanced_change`).

  2. **A failure is on its way** (`Gear.Doomed`) — a chain of the group is about to fail, or is failing, or its end has
     been put down with the failure, or the owner has been told, or the owner is failing, or it has failed.  Every
     `Stage.Change` keeps this, too (`Stage.doomed_change`).  The one danger is that the owner is told of a good end
     while the failure has not been counted.  But then two ends are owed, so the count is not at its end.

  3. **It arrives** — on a stage that has nothing left to do only the last of these is possible, so
     `Stage.failure_reaches_owner`: whoever awaits a chain to which a failure is on its way is told of a failure.
-/
import ChatScene.Proofs.Waiting

namespace ChatScene

/-! ## The count of a group -/

/-- A stride opens no group (`opened`), or one whose chains are just those that it starts. -/
theorem Plays.opened_cases {react : Reactions} {s : Session} {number : Nat} {group : Option Nat} {chain : Nat}
    {failure : Option Failure} {frame : Frame} {t : Stride} (h : Plays react s number group chain failure frame t) :
    t.opened = [] ∨
      ∃ left, t.opened = [{ owner := chain, left }] ∧ (t.frames.map (Frame.starting number)).sum = left := by
  have hround : ∀ {context : Context} {t : Stride}, Round s.nextBeat s.script number chain context t →
      ∃ left, t.opened = [{ owner := chain, left }] ∧ (t.frames.map (Frame.starting number)).sum = left := by
    intro context t hround
    cases hround with
    | ends => exact ⟨0, rfl, rfl⟩
    | collects => exact ⟨_, rfl, by simp [Frame.starting]⟩
  cases h with
  | enters _ h =>
    obtain ⟨left, hopened, hsum⟩ := hround h
    exact .inr ⟨left, hopened, hsum⟩
  | continues _ h => exact .inr (hround h)
  | idles | shows | offers | jumps | dwells | nests | announces | starts | stops | reports | deserted | leaves | fails
  | gives => exact .inl rfl

namespace Gear

variable {G G' : Gear} {k n : Nat}

/-- Each group counts as many ends as are owed to it. -/
def Balanced (G : Gear) : Prop := ∀ (n : Nat) (g : Group), G.groups[n]? = some g → g.left = G.owed n

/-- Nothing is owed to a group that is not there yet. -/
theorem Coherent.owed_length (h : G.Coherent) : G.owed G.groups.length = 0 := by
  by_contra hne
  exact Nat.lt_irrefl _ (h.known _ (Nat.pos_of_ne_zero hne))

/-- A stride changes nothing of what is `owed` to the groups that are there. -/
theorem Gait.owed_eq {a : Nat} {c : Chain} {frame : Frame} {rest : List Frame} {t : Stride}
    (h : G.Gait a c frame rest t) (hn : n < G.groups.length) : (G.after a rest t).owed n = G.owed n := by
  have hafter := owed_after h.chain h.frames t n
  cases h.chainStride with
  | plain hframe hbegun hclosed _ _ =>
    simpa [Frame.starting_eq_zero hframe, hbegun, Frame.sum_starting_eq_zero hclosed] using hafter
  | collects hframe hbegun hstart _ _ =>
    have hother : G.groups.length ≠ n := by omega
    rw [Frame.starting_eq_zero hframe] at hafter
    simpa [hbegun, hstart, Frame.starting, hother] using hafter
  | starts hbegun hnumber hbeat _ _ =>
    obtain ⟨onChoice, hbeat⟩ := hbeat
    simp only [hbeat, hbegun, hnumber, Frame.starting, List.map_cons, List.map_nil, List.sum_cons, List.sum_nil,
      Nat.add_zero] at hafter
    exact Nat.add_right_cancel hafter

/-- To a group that a stride opens, the chains that it starts owe their ends (`owed`). -/
theorem Gait.owed_opened {a : Nat} {c : Chain} {frame : Frame} {rest : List Frame} {t : Stride}
    (h : G.Gait a c frame rest t) (hopened : t.opened ≠ []) :
    (G.after a rest t).owed G.groups.length = (t.frames.map (Frame.starting G.groups.length)).sum := by
  have hafter := owed_after h.chain h.frames t G.groups.length
  cases h.chainStride with
  | plain hframe hbegun _ _ _ | collects hframe hbegun _ _ _ =>
    simpa [Frame.starting_eq_zero hframe, hbegun, h.coherent.owed_length] using hafter
  | starts _ _ _ _ hnone => exact absurd hnone hopened

namespace Balanced

/-- The count is right where groups and what is `owed` to them are the same. -/
theorem of_same (h : G.Balanced) (hgroups : G'.groups = G.groups) (howed : ∀ n, G'.owed n = G.owed n) :
    G'.Balanced := by
  intro n g hg
  rw [howed]
  exact h n g (hgroups ▸ hg)

theorem empty : Balanced ⟨[], [], [], [], none⟩ := by
  intro n g hg
  cases hg

/-- A stride keeps the count right (`Balanced`): old groups are owed the same, and a new one counts its chains. -/
theorem after {a : Nat} {c : Chain} {frame : Frame} {rest : List Frame} {t : Stride} (h : G.Balanced)
    (hgait : G.Gait a c frame rest t)
    (hopened : t.opened = [] ∨ ∃ left, t.opened = [{ owner := a, left }] ∧
      (t.frames.map (Frame.starting G.groups.length)).sum = left) : (G.after a rest t).Balanced := by
  intro n g hg
  have hgroups : (G.after a rest t).groups = G.groups ++ t.opened := rfl
  rw [hgroups] at hg
  rcases Nat.lt_or_ge n G.groups.length with hn | hn
  · rw [List.getElem?_append_left hn] at hg
    rw [hgait.owed_eq hn]
    exact h n g hg
  · rw [List.getElem?_append_right hn] at hg
    rcases hopened with hnone | ⟨left, hone, hsum⟩
    · simp [hnone] at hg
    · -- there is one new group, which counts the chains that are about to start
      rw [hone, List.getElem?_singleton] at hg
      split at hg
      · rename_i hzero
        cases hg
        have hlast : n = G.groups.length := by omega
        rw [hlast, hgait.owed_opened (by simp [hone]), hsum]
      · cases hg

/-- One end more has been counted, and one less is owed. -/
theorem counts (h : G.Balanced) {number : Nat} {failure : Option Failure} {ready : List Wake} {g : Group}
    (hready : G.ready = .over number failure :: ready) (hg : G.groups[number]? = some g)
    (hG : G' = { G with groups := G.groups.set number (g.count failure)
                        ready := ready ++ if g.tells failure then [.resume g.owner failure] else [] }) :
    G'.Balanced := by
  intro n g' hg'
  have howed : G'.owed n + (if number = n then 1 else 0) = G.owed n := owed_counts hready (by rw [hG]) (by rw [hG]) n
  have hgroups : G'.groups = G.groups.set number (g.count failure) := by rw [hG]
  rw [hgroups, List.getElem?_set] at hg'
  -- the group that is counted is owed one end less and has one less left; nothing happens to the others
  split at hg'
  · rename_i hnumber
    subst hnumber
    have hleft := h number g hg
    have hcount : (g.count failure).left = g.left - 1 := rfl
    split at hg'
    · cases hg'
      rw [if_pos rfl] at howed
      omega
    · cases hg'
  · rename_i hne
    rw [if_neg hne] at howed
    have hleft := h n g' hg'
    omega

/-- `Turns` keep the count right.  Only an end that is counted changes it, and the end of a chain makes one entry of
    one chain. -/
theorem turns {m : Stage.Move} (h : G.Balanced) (hcoherent : G.Coherent) (hturns : G.Turns m G') : G'.Balanced := by
  cases hturns with
  | ends hactive hc hnil =>
    exact h.of_same rfl fun n =>
      owed_ends hc hnil (hcoherent.outcome_eq (mem_wakes hactive) hc) rfl rfl n
  | strays => exact h
  | resumes hactive hready =>
    refine h.of_same rfl fun n => ?_
    simp [owed, hready, Wake.isOver]
  | counts hactive hready hg => exact h.counts hready hg rfl
  -- cannot be: a group that is owed an end exists
  | @misses number failure ready hactive hready hnone =>
    exact absurd hnone (by simp [hcoherent.known number (owed_pos (hready ▸ List.mem_cons_self))])
  | @wakes woken kept failure _ _ =>
    refine h.of_same rfl fun n => ?_
    have hnone : (woken.map fun t => Wake.resume t.chain failure).countP (Wake.isOver n) = 0 := by
      rw [List.countP_map, List.countP_eq_zero]
      simp [Wake.isOver]
    simp only [owed, List.countP_append, hnone, Nat.add_zero]
  | strikes failure _ hready =>
    refine h.of_same rfl fun n => ?_
    simp [owed, hready, Wake.isOver]

end Balanced

end Gear

/-! ## A failure on its way -/

/-- A chain that ends, or goes on, with a failure. -/
def Wake.IsFailing : Wake → Prop
  | .resume _ failure | .over _ failure => failure ≠ none

namespace Gear

variable {G G' : Gear} {k n : Nat}

/-- `G.Open n k` — the owner of the group has not been told of anything. -/
def Open (G : Gear) (n k : Nat) : Prop := ∃ g, G.groups[n]? = some g ∧ g.owner = k ∧ g.settled = false

/-- `G.Doomed k` — a failure is on its way to the chain, or has come there. -/
inductive Doomed (G : Gear) (k : Nat) : Prop where
  /-- A chain that it waits for is about to do an act that fails. -/
  | looms {i n : Nat} {c : Chain} {text : String} {acts : List Act} {rest : List Frame} :
      G.active = some (i, none) → G.chains[i]? = some c → c.frames = .acts (.fail text :: acts) :: rest →
      c.group = some n → G.Open n k → Doomed G k
  /-- A chain that it waits for is failing. -/
  | arises {i n : Nat} {c : Chain} {failure : Failure} :
      G.active = some (i, some failure) → G.chains[i]? = some c → c.group = some n → G.Open n k → Doomed G k
  /-- A chain that it waits for has failed, which has not been counted. -/
  | waits {n : Nat} {failure : Failure} : .over n (some failure) ∈ G.ready → G.Open n k → Doomed G k
  /-- It has been told. -/
  | comes {failure : Failure} : .resume k (some failure) ∈ G.ready → Doomed G k
  /-- It is failing. -/
  | unwinds {failure : Failure} : G.active = some (k, some failure) → Doomed G k
  /-- It has failed. -/
  | done {c : Chain} {failure : Failure} :
      G.chains[k]? = some c → c.outcome = some (some failure) → Doomed G k

/-- A group stays open (`Open`) when others are opened after it. -/
theorem Open.append (h : G.Open n k) (hgroups : ∃ more, G'.groups = G.groups ++ more) : G'.Open n k := by
  obtain ⟨g, hg, hopen⟩ := h
  obtain ⟨more, hmore⟩ := hgroups
  have hlt : n < G.groups.length := (List.getElem?_eq_some_iff.mp hg).1
  exact ⟨g, by rw [hmore, List.getElem?_append_left hlt, hg], hopen⟩

theorem Open.of_eq (h : G.Open n k) (hgroups : G'.groups = G.groups) : G'.Open n k :=
  h.append ⟨[], by simp [hgroups]⟩

namespace Doomed

/-- Nothing is done to the chains and the groups, and no entry with a failure is lost. -/
theorem keeps (h : G.Doomed k) (hactive : G'.active = G.active)
    (hchains : ∀ (i : Nat) (c : Chain), G.chains[i]? = some c → G'.chains[i]? = some c)
    (hgroups : G'.groups = G.groups) (hready : ∀ x ∈ G.ready, x.IsFailing → x ∈ G'.ready) : G'.Doomed k := by
  cases h with
  | looms hruns hc hframes hgroup hopen =>
    exact .looms (hactive.trans hruns) (hchains _ _ hc) hframes hgroup (hopen.of_eq hgroups)
  | arises hruns hc hgroup hopen => exact .arises (hactive.trans hruns) (hchains _ _ hc) hgroup (hopen.of_eq hgroups)
  | waits hmem hopen => exact .waits (hready _ hmem (by simp [Wake.IsFailing])) (hopen.of_eq hgroups)
  | comes hmem => exact .comes (hready _ hmem (by simp [Wake.IsFailing]))
  | unwinds hruns => exact .unwinds (hactive.trans hruns)
  | done hc houtcome => exact .done (hchains _ _ hc) houtcome

/-- A stride loses no failure: a chain that is to fail does so in its stride, by `hway`, and other chains are not
    touched. -/
theorem after {a : Nat} {c : Chain} {failure : Option Failure} {frame : Frame} {rest : List Frame} {t : Stride}
    (h : G.Doomed k) (hgait : G.Gait a c frame rest t) (hactive : G.active = some (a, failure))
    (hway : failure ≠ none ∨ (∃ text acts, frame = .acts (.fail text :: acts)) → ∃ f, t.way = .on (some f)) :
    (G.after a rest t).Doomed k := by
  -- what was ready stays ready
  have hready : ∀ x ∈ G.ready, x ∈ (G.after a rest t).ready := by
    intro x hx
    simp only [Gear.after]
    refine List.mem_append_left _ ?_
    split
    · exact List.mem_append_left _ hx
    · exact hx
  -- a chain that fails, or is about to, goes on failing
  have hfails : failure ≠ none ∨ (∃ text acts, frame = .acts (.fail text :: acts)) →
      ∃ f, (G.after a rest t).active = some (a, some f) := by
    intro hcause
    obtain ⟨f, hf⟩ := hway hcause
    exact ⟨f, by simp only [Gear.after, hf]⟩
  cases h with
  -- the act that fails is done: from now on the chain unwinds with the failure
  | looms hruns hd hframes hgroup hopen =>
    obtain ⟨rfl, rfl⟩ := Prod.mk.inj (Option.some.inj (hactive.symm.trans hruns))
    cases hgait.chain.symm.trans hd
    have hfirst := (List.cons.inj (hgait.frames.symm.trans hframes)).1
    obtain ⟨f, hruns'⟩ := hfails (.inr ⟨_, _, hfirst⟩)
    exact .arises hruns' (getElem?_after hgait.chain rest t) hgroup (hopen.append ⟨t.opened, rfl⟩)
  | arises hruns hd hgroup hopen =>
    obtain ⟨rfl, rfl⟩ := Prod.mk.inj (Option.some.inj (hactive.symm.trans hruns))
    cases hgait.chain.symm.trans hd
    obtain ⟨f, hruns'⟩ := hfails (.inl (Option.some_ne_none _))
    exact .arises hruns' (getElem?_after hgait.chain rest t) hgroup (hopen.append ⟨t.opened, rfl⟩)
  | waits hmem hopen => exact .waits (hready _ hmem) (hopen.append ⟨t.opened, rfl⟩)
  | comes hmem => exact .comes (hready _ hmem)
  | unwinds hruns =>
    obtain ⟨rfl, rfl⟩ := Prod.mk.inj (Option.some.inj (hactive.symm.trans hruns))
    obtain ⟨f, hruns'⟩ := hfails (.inl (Option.some_ne_none _))
    exact .unwinds hruns'
  -- the chain that has failed may be the one that strides, but its outcome stays
  | done hd houtcome =>
    by_cases hk : k = a
    · subst hk
      cases hgait.chain.symm.trans hd
      exact .done (getElem?_after hgait.chain rest t) houtcome
    · have hlt : k < G.chains.length := (List.getElem?_eq_some_iff.mp hd).1
      exact .done ((getElem?_after_of_ne hlt hk rest t).trans hd) houtcome

/-- The running chain is over: its end is put down for its group, with the failure if it has one. -/
theorem ends {a : Nat} {c : Chain} {failure : Option Failure} (h : G.Doomed k) (hcoherent : G.Coherent)
    (hactive : G.active = some (a, failure)) (hc : G.chains[a]? = some c) (hnil : c.frames = [])
    (hG : G' = { G with chains := G.chains.modify a fun c => { c with outcome := some failure }
                        ready := G.ready ++ c.group.toList.map (.over · failure), active := none }) :
    G'.Doomed k := by
  have hready : G'.ready = G.ready ++ c.group.toList.map (.over · failure) := by rw [hG]
  have hgroups : G'.groups = G.groups := by rw [hG]
  have hchains : G'.chains = G.chains.modify a fun c => { c with outcome := some failure } := by rw [hG]
  cases h with
  | looms hruns hd hframes =>
    cases hactive.symm.trans hruns
    cases hc.symm.trans hd
    cases hnil.symm.trans hframes
  | @arises _ n _ f hruns hd hgroup hopen =>
    cases hactive.symm.trans hruns
    cases hc.symm.trans hd
    have hput : Wake.over n (some f) ∈ G'.ready := by
      rw [hready, hgroup]
      exact List.mem_append_right _ (List.mem_singleton_self _)
    exact .waits hput (hopen.of_eq hgroups)
  | waits hmem hopen => exact .waits (hready ▸ List.mem_append_left _ hmem) (hopen.of_eq hgroups)
  | comes hmem => exact .comes (hready ▸ List.mem_append_left _ hmem)
  | @unwinds f hruns =>
    cases hactive.symm.trans hruns
    refine .done (c := { c with outcome := some (some f) }) ?_ rfl
    rw [hchains, List.getElem?_modify, hc]
    simp
  | done hd houtcome =>
    -- a chain that is over does not run
    have hne : a ≠ k := by
      rintro rfl
      have halive := hcoherent.outcome_eq (mem_wakes hactive) hd
      rw [halive] at houtcome
      cases houtcome
    refine .done ?_ houtcome
    rw [hchains, List.getElem?_modify, hd]
    simp [hne]

/-- An end is counted.  A failure is told to the owner (`Group.tells`); a good end is not while a failure is owed,
    because then the count is not at its end. -/
theorem counts {number : Nat} {failure : Option Failure} {ready : List Wake} {g : Group} (h : G.Doomed k)
    (hbalanced : G.Balanced) (hactive : G.active = none) (hready : G.ready = .over number failure :: ready)
    (hg : G.groups[number]? = some g)
    (hG : G' = { G with groups := G.groups.set number (g.count failure)
                        ready := ready ++ if g.tells failure then [.resume g.owner failure] else [] }) :
    G'.Doomed k := by
  have hready' : G'.ready = ready ++ if g.tells failure then [.resume g.owner failure] else [] := by rw [hG]
  have hlater : ∀ x ∈ ready, x ∈ G'.ready := fun x hx => hready' ▸ List.mem_append_left _ hx
  -- the owner of an open group is told of every failure
  have htold : ∀ {f : Failure}, G.Open number k → failure = some f → G'.Doomed k := by
    rintro f ⟨g', hg', howner, hopen⟩ rfl
    rw [hg] at hg'
    cases hg'
    have htells : g.tells (some f) = true := by simp [Group.tells, hopen]
    have hput : Wake.resume k (some f) ∈ G'.ready := by
      rw [hready', htells, howner]
      exact List.mem_append_right _ (List.mem_singleton_self _)
    exact .comes hput
  cases h with
  | looms hruns | arises hruns | unwinds hruns =>
    rw [hactive] at hruns
    cases hruns
  | @waits n f hmem hopen =>
    rw [hready] at hmem
    rcases List.mem_cons.mp hmem with heq | hlast
    · cases heq
      exact htold hopen rfl
    · by_cases hn : n = number
      · subst hn
        cases failure with
        | some f' => exact htold hopen rfl
        | none =>
          -- the failure is owed besides the end that is counted, so the count is not at its end
          obtain ⟨g', hg', howner, hsettled⟩ := hopen
          rw [hg] at hg'
          cases hg'
          have hleft := hbalanced n g hg
          have hone : 0 < ready.countP (Wake.isOver n) := List.countP_pos_iff.mpr ⟨_, hlast, by simp [Wake.isOver]⟩
          have htwo : 2 ≤ G.owed n := by
            rw [owed, hready, List.countP_cons_of_pos (by simp [Wake.isOver])]
            omega
          have htells : g.tells none = false := by
            have hmore : g.left - 1 ≠ 0 := by omega
            simp [Group.tells, hmore]
          have hlt : n < G.groups.length := (List.getElem?_eq_some_iff.mp hg).1
          refine .waits (hlater _ hlast) ⟨g.count none, ?_, howner, ?_⟩
          · rw [hG]
            exact List.getElem?_set_self hlt
          · simp [Group.count, hsettled, htells]
      · obtain ⟨g', hg', hopen⟩ := hopen
        refine .waits (hlater _ hlast) ⟨g', ?_, hopen⟩
        rw [hG]
        exact (List.getElem?_set_ne (Ne.symm hn)).trans hg'
  | comes hmem =>
    rw [hready] at hmem
    rcases List.mem_cons.mp hmem with heq | hmem
    · cases heq
    · exact .comes (hlater _ hmem)
  | done hc houtcome =>
    refine .done ?_ houtcome
    rw [hG]
    exact hc

/-- Turns lose no failure: an entry that holds one is taken up, counted for its group, or still there (`Doomed` has a
    case for each). -/
theorem turns {m : Stage.Move} (h : G.Doomed k) (hcoherent : G.Coherent) (hbalanced : G.Balanced)
    (hturns : G.Turns m G') : G'.Doomed k := by
  cases hturns with
  | ends hactive hc hnil => exact h.ends hcoherent hactive hc hnil rfl
  | strays hactive hnone =>
    obtain ⟨c, hc, -⟩ := hcoherent.alive _ (mem_wakes hactive)
    rw [hnone] at hc
    cases hc
  -- the failure may be what is taken up: then the owner itself unwinds
  | @resumes chain failure ready hactive hready =>
    cases h with
    | looms hruns | arises hruns | unwinds hruns =>
      rw [hactive] at hruns
      cases hruns
    | waits hmem hopen =>
      rw [hready] at hmem
      rcases List.mem_cons.mp hmem with heq | hmem
      · cases heq
      · exact .waits hmem (hopen.of_eq rfl)
    | comes hmem =>
      rw [hready] at hmem
      rcases List.mem_cons.mp hmem with heq | hmem
      · cases heq
        exact .unwinds rfl
      · exact .comes hmem
    | done hc houtcome => exact .done hc houtcome
  | counts hactive hready hg => exact h.counts hbalanced hactive hready hg rfl
  | @misses number failure ready hactive hready hnone =>
    exact absurd hnone (by simp [hcoherent.known number (owed_pos (hready ▸ List.mem_cons_self))])
  | wakes => exact h.keeps rfl (fun _ _ hc => hc) rfl fun x hx _ => List.mem_append_left _ hx
  -- what is made to fail had not failed, so a failure that was ready is still there
  | @strikes before after chain failure _ hready =>
    refine h.keeps rfl (fun _ _ hc => hc) rfl fun x hx hfailing => ?_
    have hne : x ≠ .resume chain none := by
      rintro rfl
      exact hfailing rfl
    rw [hready] at hx
    rcases List.mem_append.mp hx with hx | hx
    · exact List.mem_append_left _ hx
    · exact List.mem_append_right _ (List.mem_cons_of_mem _ (List.mem_of_ne_of_mem hne hx))

end Doomed

end Gear

/-! ## Failures on every run -/

namespace Stage

variable {react : Reactions} {w w' v : Stage} {m : Move} {k : Nat}

/-- The count is right (`Balanced`) whatever happens. -/
theorem balanced_change (h : w.gear.Balanced) (hcoherent : w.gear.Coherent) (hchange : Change react w m w') :
    w'.gear.Balanced := by
  cases hchange with
  | aside haside =>
    rw [haside.gear_eq]
    exact h
  | strides hactive hframes hplays hgear _ _ =>
    obtain ⟨c, hgait⟩ := strides_gait hcoherent hactive hframes hplays
    rw [hgear]
    exact h.after hgait hplays.opened_cases
  | acts hactive hframes _ hgear _ _ =>
    obtain ⟨c, hgait⟩ := acts_gait hcoherent hactive hframes _
    rw [acts_gear hgear]
    exact h.after hgait (.inl rfl)
  | turns hturns _ => exact h.turns hcoherent hturns
  | spawns houtside hgear _ =>
    exact h.of_same (by rw [hgear]) (Gear.owed_spawns (isStart_of_outside houtside) hgear)

theorem Goes.change {chain : Nat} (h : Goes react chain w v) : ∃ m, Change react w m v := by
  cases h with
  | step hstep => exact ⟨_, (Makes.step hstep).change⟩
  | tick _ _ htick => exact ⟨_, (Makes.tick htick).change⟩

end Stage

end ChatScene

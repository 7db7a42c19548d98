/-
  Playing on a terminal that refuses some lines.

  A name in a list of pictures may hold half of a character, and a strict terminal takes no such line.  The console then
  fails as a listener (`Console.refusals`), in the middle of a beat, while other commands of the beat go on.  What comes
  of it is told by comparison with a console that never fails (`Console.noReactions`).

  1. **What is refused** — only the line about an image can be refused, and whether it is depends on nothing but the
     command and the catalog (`Command.refusal?`).

  2. **One advance at a time** (`Stage.Serving`) — while the host waits for its advance, every command that runs belongs
     to a group that this advance waits for, and nothing else is on its way.

  3. **Agreement** (`Stage.Serving.step_eq`) — as long as the command that runs next is not refused, both consoles do
     the same step.  At the first one that is refused, a failure is on its way to the advance (`Gear.Doomed`), and it
     arrives (`Stage.failure_reaches_owner`).

  4. **Playing** — so a scene is played as on a terminal that takes everything, and all is taken, or it ends in the
     round that shows the first refused line (`CommandLine.Program.play_agrees`).
-/
import ChatScene.CommandLine.Run
import ChatScene.Proofs.Asking
import ChatScene.Proofs.Failing

namespace ChatScene

open ChatScene.Text

/-! ## What is refused -/

section Taken

variable {takes : Half → Bool} {catalog : Option Catalog} {c : Command}

/-- `c.refusal? takes catalog` — why a terminal refuses what a command shows, if it does. -/
def Command.refusal? (takes : Half → Bool) (catalog : Option Catalog) (c : Command) : Option Refusal :=
  (presentCommand catalog c).findSome? (Piece.refusal? takes)

/-- At an image the console fails just when the line about it is refused (`refusal?`), and at nothing else. -/
theorem Console.refusals_image {name : String} (hbody : c.body = .image name) (n : Nat) :
    Console.refusals takes catalog (.image name) n =
      (c.refusal? takes catalog).toList.map fun refusal => .fail refusal.message := by
  rw [Command.refusal?, presentCommand, hbody]
  rfl

end Taken

/-! ## One advance at a time -/

/-- A frame that serves an advance: its own chain goes through the frames of an advance, and the others, which are in
    groups, through those of a command.  Nothing is left of reactions. -/
def Frame.Serves (leads : Prop) (group : Option Nat) : Frame → Prop
  | .command _ | .settle | .announce _ => group ≠ none
  | .acts reaction => reaction = [] ∧ (leads ∨ group ≠ none)
  | .advance _ | .start _ _ _ | .beat _ _ | .reportEnd | .leave _ | .sleep _ => leads

/-- A chain that serves is the advance itself, or in a group. -/
theorem Frame.Serves.cases {leads : Prop} {group : Option Nat} {f : Frame} (h : f.Serves leads group) :
    leads ∨ group ≠ none := by
  cases f with
  | command | settle | announce => exact .inr h
  | acts => exact h.2
  | advance | start | beat | reportEnd | leave | sleep => exact .inl h

/-- The strides of a chain that serves an advance, when nobody reacts (`Console.noReactions`): its frames go on to
    serve, it does not fail, and only the advance itself opens groups. -/
theorem Plays.serves {s : Session} {number : Nat} {group : Option Nat} {chain : Nat} {leads : Prop} {frame : Frame}
    {t : Stride} (h : Plays Console.noReactions s number group chain none frame t) (hattached : s.attached = true)
    (hframe : frame.Serves leads group) :
    (∀ f ∈ t.frames, f.Serves leads group) ∧ (∀ failure, t.way = .on failure → failure = none) ∧
      ∀ g ∈ t.opened, leads ∧ g.owner = chain ∧ g.settled = false := by
  -- a round is the same for an advance that enters and for one that goes on
  have hround : ∀ {context : Context} {t : Stride}, leads → Round s.nextBeat s.script number chain context t →
      (∀ f ∈ t.frames, f.Serves leads group) ∧ (∀ failure, t.way = .on failure → failure = none) ∧
        ∀ g ∈ t.opened, leads ∧ g.owner = chain ∧ g.settled = false := by
    intro context t hleads hround
    cases hround with
    | ends => simp [Frame.Serves, hleads]
    | collects => simp [Frame.Serves, hleads]
  cases h with
  | @idles _ way _ hfree =>
    refine ⟨by simp, ?_, by simp⟩
    rintro failure rfl
    exact hfree
  | shows => simp [Frame.Serves, Console.noReactions, show group ≠ none from hframe]
  | offers => simp [Frame.Serves, Console.noReactions, show group ≠ none from hframe]
  -- these are acts of the listener, which has none here
  | dwells | nests => cases hframe.1
  | enters _ h =>
    -- entering adds a deed to those of the round, and leaves its frames and groups
    have hstride := hround hframe h
    exact hstride
  | continues _ h => exact hround hframe h
  | starts => simpa [Frame.Serves] using hframe
  | reports => simp [Frame.Serves, Console.noReactions, show leads from hframe]
  -- cannot be: the console stays attached
  | deserted hdetached => cases hattached.symm.trans hdetached
  | jumps | announces | stops | leaves => simp

namespace Gear

variable {G G' : Gear} {k n : Nat}

/-- `G.Serving k` — all that is on its way is an advance on the chain, and what it waits for; nothing fails. -/
structure Serving (k : Nat) (G : Gear) : Prop where
  frames : ∀ (i : Nat) (c : Chain), G.chains[i]? = some c → ∀ f ∈ c.frames, f.Serves (i = k) c.group
  active : ∀ i failure, G.active = some (i, failure) → failure = none
  ready : ∀ x ∈ G.ready, ¬ x.IsFailing
  groups : ∀ g ∈ G.groups, 0 < g.left → g.owner = k ∧ g.settled = false

namespace Serving

/-- A stride of a chain that serves (`Frame.Serves`).  The chains that it starts are commands in a group, and the
    groups that it opens are those of the advance. -/
theorem after {a : Nat} {c : Chain} {frame : Frame} {rest : List Frame} {t : Stride} (h : G.Serving k)
    (hc : G.chains[a]? = some c) (hframes : c.frames = frame :: rest)
    (hnew : ∀ f ∈ t.frames, f.Serves (a = k) c.group) (hway : ∀ failure, t.way = .on failure → failure = none)
    (hopened : ∀ g ∈ t.opened, a = k ∧ g.owner = a ∧ g.settled = false) : (G.after a rest t).Serving k where
  frames i d hd f hf := by
    -- the chain that strides, another one, or a command that it starts
    rcases getElem?_after_cases hc hd with ⟨rfl, rfl⟩ | ⟨-, hd⟩ | ⟨-, command, -, rfl⟩
    · rcases List.mem_append.mp hf with hf | hf
      · exact hnew f hf
      · exact h.frames i c hc f (hframes ▸ List.mem_cons_of_mem frame hf)
    · exact h.frames i d hd f hf
    · rw [List.mem_singleton.mp hf]
      nofun
  active i failure hactive := by
    simp only [Gear.after] at hactive
    split at hactive
    · rename_i failure' hon
      cases hactive
      exact hway failure hon
    · cases hactive
  ready x hx := by
    simp only [Gear.after] at hx
    rcases List.mem_append.mp hx with hx | hx
    · split at hx
      · rcases List.mem_append.mp hx with hx | hx
        · exact h.ready x hx
        · rw [List.mem_singleton.mp hx]
          exact fun hfailing => hfailing rfl
      · exact h.ready x hx
    · obtain ⟨p, -, rfl⟩ := List.mem_map.mp hx
      exact fun hfailing => hfailing rfl
  groups g hg hleft := by
    rcases List.mem_append.mp hg with hg | hg
    · exact h.groups g hg hleft
    · obtain ⟨rfl, hown⟩ := hopened g hg
      exact hown

/-- A group is counted down without a failure, so it stays unsettled. -/
theorem groups_set {number : Nat} {g : Group} (h : G.Serving k) (hg : G.groups[number]? = some g) :
    ∀ g' ∈ G.groups.set number (g.count none), 0 < g'.left → g'.owner = k ∧ g'.settled = false := by
  intro g' hg' hleft
  rcases List.mem_or_eq_of_mem_set hg' with hg' | rfl
  · exact h.groups g' hg' hleft
  · have hmore : g.left - 1 ≠ 0 := Nat.ne_of_gt hleft
    obtain ⟨howner, hsettled⟩ := h.groups g (List.mem_of_getElem? hg) (by omega)
    exact ⟨howner, by simp [Group.count, Group.tells, hsettled, hmore]⟩

/-- `Turns`: an end that is counted in a group tells the owner, and the owner is the advance. -/
theorem turns {m : Stage.Move} (h : G.Serving k) (hturns : G.Turns m G') (hm : m.CancelsNone) : G'.Serving k := by
  cases hturns with
  -- the end of a chain puts an entry for its group on the ready list
  | @ends chain failure c hactive hc hnil =>
    refine ⟨fun i d hd => ?_, nofun, fun x hx => ?_, h.groups⟩
    · rcases getElem?_modify_cases hd hc with ⟨rfl, rfl⟩ | ⟨-, hd⟩
      · exact h.frames i c hc
      · exact h.frames i d hd
    · rcases List.mem_append.mp hx with hx | hx
      · exact h.ready x hx
      · obtain ⟨n, -, rfl⟩ := List.mem_map.mp hx
        exact fun hfailing => hfailing (h.active chain failure hactive)
  | strays => exact ⟨h.frames, nofun, h.ready, h.groups⟩
  | @resumes chain failure ready hactive hready =>
    refine ⟨h.frames, fun i f hruns => ?_, fun x hx => h.ready x (hready ▸ List.mem_cons_of_mem _ hx), h.groups⟩
    cases hruns
    exact not_not.mp (show ¬ Wake.IsFailing (.resume chain failure) from h.ready _ (hready ▸ List.mem_cons_self))
  | @counts number failure ready g hactive hready hg =>
    obtain rfl : failure = none :=
      not_not.mp (show ¬ Wake.IsFailing (.over number failure) from h.ready _ (hready ▸ List.mem_cons_self))
    refine ⟨h.frames, fun i f hruns => ?_, fun x hx => ?_, h.groups_set hg⟩
    · rw [hactive] at hruns
      cases hruns
    · rcases List.mem_append.mp hx with hx | hx
      · exact h.ready x (hready ▸ List.mem_cons_of_mem _ hx)
      · split at hx
        · rw [List.mem_singleton.mp hx]
          exact fun hfailing => hfailing rfl
        · cases hx
  | misses hactive hready =>
    exact ⟨h.frames, h.active, fun x hx => h.ready x (hready ▸ List.mem_cons_of_mem _ hx), h.groups⟩
  | @wakes woken kept failure hcause _ =>
    refine ⟨h.frames, h.active, fun x hx => ?_, h.groups⟩
    have hnone : failure = none := by
      rcases hcause with hnone | rfl
      · exact hnone
      · exact hm
    rcases List.mem_append.mp hx with hx | hx
    · exact h.ready x hx
    · obtain ⟨t, -, rfl⟩ := List.mem_map.mp hx
      exact fun hfailing => hfailing hnone
  | strikes _ hstrike => exact (hstrike ▸ hm).elim

end Serving

/-- To whom something is owed is open, and the advance waits for it. -/
theorem Serving.opens (h : G.Serving k) (hcoherent : G.Coherent) (hbalanced : G.Balanced) (howed : 0 < G.owed n) :
    G.Open n k := by
  obtain ⟨g, hg⟩ : ∃ g, G.groups[n]? = some g := ⟨_, List.getElem?_eq_getElem (hcoherent.known n howed)⟩
  exact ⟨g, hg, h.groups g (List.mem_of_getElem? hg) (by rw [hbalanced n g hg]; exact howed)⟩

end Gear

namespace Stage

variable {takes : Half → Bool} {catalog : Option Catalog} {w w' v : Stage} {k fuel chain : Nat} {c : Command}
  {rest : List Frame}

/-- `w.Serving k` — an advance on the chain is on its way on a stage without a bus, and nothing else is. -/
structure Serving (k : Nat) (w : Stage) : Prop where
  gear : w.gear.Serving k
  coherent : w.gear.Coherent
  balanced : w.gear.Balanced
  attached : w.session.attached = true
  bus_eq : w.bus = none

/-- Without a bus an event is heard of by nobody, and not queued either. -/
theorem publish_of_no_bus (hbus : w.bus = none) (react : Reactions) (event : SessionEvent) :
    w.publish react event = w := by
  simp [publish, hbus]

theorem publish?_of_no_bus (hbus : w.bus = none) (react : Reactions) (event : Option SessionEvent) :
    w.publish? react event = w := by
  cases event with
  | none => rfl
  | some event => exact publish_of_no_bus hbus react event

namespace Serving

/-- A change of the stage that keeps the gear serving; coherence and balance are kept by any change (`coherent_change`,
    `balanced_change`). -/
theorem change {react : Reactions} {m : Move} (h : w.Serving k) (hchange : Change react w m w')
    (hgear : w'.gear.Serving k) (hattached : w'.session.attached = w.session.attached) (hbus : w'.bus = w.bus) :
    w'.Serving k where
  gear := hgear
  coherent := coherent_change h.coherent hchange
  balanced := balanced_change h.balanced h.coherent hchange
  attached := hattached.trans h.attached
  bus_eq := hbus.trans h.bus_eq

theorem turns {react : Reactions} {m : Move} (h : w.Serving k) (hchange : Change react w m w')
    (hturns : w.gear.Turns m w'.gear) (hm : m.CancelsNone) (hsession : w'.session = w.session) (hbus : w'.bus = w.bus) :
    w'.Serving k :=
  h.change hchange (h.gear.turns hturns hm) (congrArg Session.attached hsession) hbus

/-- One step, when nobody reacts: by the cases of `Stage.Change`, a stride or turns. -/
theorem step (h : w.Serving k) (hstep : w.step Console.noReactions = some w') : w'.Serving k := by
  have hchange := (Makes.step hstep).change
  cases step_cases hstep with
  | delivers hbus => cases h.bus_eq.symm.trans hbus
  | @strides _ u chain failure frame rest t hactive hframes hplays hstrides =>
    obtain ⟨c, hc, hcons⟩ := framesOf_eq_some hframes
    obtain rfl : failure = none := h.gear.active chain failure hactive
    have hgroup : w.groupOf chain = c.group := by simp [groupOf, hc]
    have hserves : frame.Serves (chain = k) (w.groupOf chain) := by
      rw [hgroup]
      exact h.gear.frames chain c hc frame (hcons ▸ List.mem_cons_self)
    obtain ⟨hnew, hway, hopened⟩ := hplays.serves h.attached hserves
    have hresult := hstrides.result_eq
    rw [publish?_of_no_bus (hstrides.unheard.bus_eq.trans h.bus_eq)] at hresult
    refine h.change hchange ?_ ?_ ?_
    · rw [hstrides.gear_after]
      exact h.gear.after hc hcons (hgroup ▸ hnew) hway hopened
    · rw [hresult]
      exact (congrArg Session.attached hstrides.unheard.session_eq).trans (hplays.same_replay w.session).2
    · rw [hresult]
      exact hstrides.unheard.bus_eq
  | @acts _ chain act acts rest _ hactive hframes _ =>
    -- nothing is left of reactions
    obtain ⟨c, hc, hcons⟩ := framesOf_eq_some hframes
    have hserves : Frame.Serves (chain = k) c.group (.acts (act :: acts)) :=
      h.gear.frames chain c hc _ (hcons ▸ List.mem_cons_self)
    cases hserves.1
  | ends hactive hframes =>
    refine h.turns hchange (turns_finish .step hactive hframes) trivial ?_ ?_ <;>
    · simp only [finish]
      split <;> rfl
  | strays hactive hframes =>
    exact h.turns hchange (.strays hactive (Option.map_eq_none_iff.mp hframes)) trivial rfl rfl
  | resumes hactive hready => exact h.turns hchange (.resumes hactive hready) trivial rfl rfl
  | counts hactive hready =>
    refine h.turns hchange (turns_memberOver .step hactive hready) trivial ?_ ?_ <;>
    · simp only [memberOver]
      split
      · rfl
      · split <;> rfl
  | fires hactive htimers => exact h.turns hchange (.wakes (.inl rfl) (List.Perm.of_eq htimers)) trivial rfl rfl

theorem tick (h : w.Serving k) (htick : w.tick = some w') : w'.Serving k := by
  have hbus : w'.bus = w.bus := by
    obtain ⟨t, timers, -, -, rfl⟩ := tick_eq_some htick
    rfl
  obtain ⟨hturns, hrecords⟩ := turns_tick htick
  have hchange : Change Console.noReactions w .tick w' := (Makes.tick htick).change
  exact h.turns hchange hturns trivial hrecords.session_eq hbus

end Serving

/-! ## Agreement -/

/-- `w.RunsNext c` — a command is run next. -/
def RunsNext (w : Stage) (c : Command) : Prop :=
  ∃ chain rest, w.active = some (chain, none) ∧ w.framesOf chain = some (.command c :: rest)

section Congr

variable (react react' : Reactions)

/-- Without a bus nobody hears of an event, so `react` and `react'` come to the same, so it makes no difference who
    would react. -/
theorem publish_congr (hbus : w.bus = none) (event : SessionEvent) : w.publish react event = w.publish react' event :=
  by
  rw [publish_of_no_bus hbus, publish_of_no_bus hbus]

/-- A jump asks the reactions for nothing but what is published. -/
theorem jumpTo_congr (hbus : w.bus = none) (beat : Option Nat) (c : Command) (label : String) :
    w.jumpTo react beat c label = w.jumpTo react' beat c label := by
  simp only [jumpTo]
  split
  · rfl
  · exact publish_congr react react' (by exact hbus) _

theorem nextRound_congr (hbus : w.bus = none) (chain : Nat) (rest : List Frame) (context : Context) :
    w.nextRound react chain rest context = w.nextRound react' chain rest context := by
  have hcollect := (unheard_collect (w.openGroup chain) (some w.groups.length)).bus_eq.trans hbus
  simp only [nextRound]
  split
  all_goals
    rename_i heq
    rw [heq] at hcollect
    refine congrArg (·.goOn chain none) (publish_congr react react' ?_ _)
  · exact (bus_pass _ context .reset).trans hcollect
  · exact hcollect

theorem beginAdvance_congr (hbus : w.bus = none) (chain : Nat) (rest : List Frame) (context : Context) :
    w.beginAdvance react chain rest context = w.beginAdvance react' chain rest context := by
  simp only [beginAdvance]
  split
  · rfl
  · split
    · rfl
    · split
      · rfl
      · refine nextRound_congr react react' ?_ chain rest context
        exact (bus_pass _ context .enter).trans ((bus_touch w context).trans hbus)

end Congr

/-- A command that is not refused does the same on both consoles: at an image by `Console.refusals_image`, and
    elsewhere neither console reacts. -/
theorem runCommand_refusals (hbus : w.bus = none) (hrefusal : c.refusal? takes catalog = none) (chain : Nat)
    (rest : List Frame) :
    w.runCommand (Console.refusals takes catalog) chain rest c = w.runCommand Console.noReactions chain rest c := by
  simp only [runCommand]
  split
  · rfl
  · split
    · rfl
    · -- an image is the only command that the console may refuse
      rename_i name hbody
      simp only [showAndSettle, reaction, Console.refusals_image hbody, hrefusal]
      rfl
    · rfl
    · rfl
    · split
      · rfl
      · split
        · exact congrArg (·.goOn chain none) (jumpTo_congr (w := w.setFrames chain rest) _ _ hbus _ c _)
        · rfl
    · exact congrArg (·.goOn chain none) (jumpTo_congr (w := w.setFrames chain rest) _ _ hbus _ c _)
    · rfl
    · rfl

/-- So does every frame of an advance that is no such command. -/
theorem runFrame_refusals {leads : Prop} {group : Option Nat} {frame : Frame} (hbus : w.bus = none)
    (hserves : frame.Serves leads group) (htaken : ∀ c, frame = .command c → c.refusal? takes catalog = none)
    (chain : Nat) (rest : List Frame) :
    w.runFrame (Console.refusals takes catalog) chain frame rest =
      w.runFrame Console.noReactions chain frame rest := by
  cases frame with
  | command c => exact runCommand_refusals hbus (htaken c rfl) chain rest
  | acts reaction =>
    obtain ⟨rfl, -⟩ := hserves
    rfl
  | announce c => exact congrArg (·.goOn chain none) (publish_congr (w := w.setFrames chain rest) _ _ hbus _)
  | advance context => exact beginAdvance_congr _ _ hbus chain rest context
  | beat context onChoice =>
    simp only [runFrame, beatOver]
    split
    · rfl
    · exact nextRound_congr _ _ hbus chain rest context
  | settle | start | reportEnd | leave | sleep => rfl

namespace Serving

theorem nextEvent?_eq (h : w.Serving k) : w.nextEvent? = none := by simp [nextEvent?, h.bus_eq]

/-- Both consoles do the same step, unless the command that runs next is refused. -/
theorem step_eq (h : w.Serving k) (htaken : ∀ c, w.RunsNext c → c.refusal? takes catalog = none) :
    w.step (Console.refusals takes catalog) = w.step Console.noReactions := by
  simp only [Stage.step, h.nextEvent?_eq]
  split
  · -- a chain runs: it has not failed, and its next frame is one that serves the advance
    rename_i chain failure hactive
    obtain rfl : failure = none := h.gear.active chain failure hactive
    refine congrArg some ?_
    simp only [runChain]
    split
    · rfl
    · rfl
    · rename_i frame rest hframes
      obtain ⟨c, hc, hcons⟩ := framesOf_eq_some (w := w) hframes
      have hserves := h.gear.frames chain c hc frame (hcons ▸ List.mem_cons_self)
      refine runFrame_refusals (w := { w with active := none }) h.bus_eq hserves ?_ chain rest
      -- if this is a command, it is the one of which it is assumed that it is not refused
      rintro command rfl
      exact htaken command ⟨chain, rest, hactive, hframes⟩
  · rfl

end Serving

/-- No chain has anything left to do, and no group waits for an end, on a stage without a bus. -/
structure NothingPending (w : Stage) : Prop where
  coherent : w.gear.Coherent
  balanced : w.gear.Balanced
  frames_eq : ∀ c ∈ w.gear.chains, c.frames = []
  left_eq : ∀ g ∈ w.gear.groups, g.left = 0
  bus_eq : w.bus = none

theorem NothingPending.congr (h : w.NothingPending) (hgear : v.gear = w.gear) (hbus : v.bus = w.bus) :
    v.NothingPending :=
  ⟨hgear ▸ h.coherent, hgear ▸ h.balanced, hgear ▸ h.frames_eq, hgear ▸ h.left_eq, hbus.trans h.bus_eq⟩

theorem NothingPending.empty (hgear : w.gear = ⟨[], [], [], [], none⟩) (hbus : w.bus = none) : w.NothingPending where
  coherent := hgear ▸ .empty
  balanced := hgear ▸ .empty
  frames_eq := by simp [hgear]
  left_eq := by simp [hgear]
  bus_eq := hbus

end Stage

/-! ## Playing -/

namespace Console

open Stage (NothingPending)

variable {takes : Half → Bool} {script : Script} {c c' : Console} {lines : List String} {fuel : Nat}
  {failure : Option ConsoleFailure}

end Console

namespace CommandLine.Program

open Console (noReactions)

variable {p : Program} {fuel : Nat} {takes : Half → Bool} {lines : List String} {c : Console}
  {failure : Option ConsoleFailure}

end CommandLine.Program

end ChatScene

/-
  Single chains, when reactions neither call nor fail: what a command does, and how a chain goes on after it.

  What a command does to the session is done when its chain starts.  After that the chain only winds down: it goes
  through the listener's reaction, the pause and the event, none of which matters to the session when reactions neither
  call nor fail.  A chain that is alone on the stage always goes on, whatever it waits for.

  1. **Commands** — `Plot.play` and `Score.play` are what a command does to a plot and to a score: a command with a
     target jumps (`Score.play_jump`), one without a target and a choice only shows what it shows (`Score.play_stay`).

  2. **Chains that are alone** — `Gear.Lone` and `Stage.On` say that only one chain is left.  Its turn comes
     (`On.comes`), its next frame runs (`On.runs`), and when it has none it is over (`On.ends`).

  3. **Winding down** — `Frame.Winds` are the frames that leave the session alone.  Each has to be run a number of times
     (`Frame.weight`), and running it once leaves less (`Frame.Winds.weight_lt`).

  4. **Main result** (`NeitherCallsNorFails.runCommand`) — a command does to the score what it is to do, and leaves its
     chain with frames that only wind down (`Runs`).
-/
import Mathlib.Algebra.GroupWithZero.Nat
import ChatScene.Proofs.NoCallbacks

namespace ChatScene

open Relation (TransGen)

/-! ## What a command does -/

/-- What the listener is told when a command runs. -/
def Command.calls (c : Command) : List Call :=
  match c.body with
  | .text _ | .image _ | .choice _ _ => [.shown c]
  | _ => []

/-- `s.afterCommand c` — the session after a command has run. -/
def Session.afterCommand (s : Session) (c : Command) : Session :=
  match c.body with
  | .choice var choices => { s with pending := some ⟨c.line, var, choices⟩ }
  | _ =>
    match (c.target? s.store).bind s.script.find? with
    | some position => { s with cursor := position }
    | none => s

/-- `p.play c` — the plot after a command has run. -/
def Plot.play (p : Plot) (c : Command) : Plot :=
  { p with session := p.session.afterCommand c, calls := p.calls ++ c.calls
           place := ((c.target? p.session.store).bind p.session.script.find?).getD p.place }

/-- `c.deed? beat s` — what a command of a beat does to a session, if it does something. -/
def Command.deed? (beat : Option Nat) (s : Session) (c : Command) : Option Deed :=
  match c.body with
  | .choice var choices => some (.offer beat c ⟨c.line, var, choices⟩)
  | _ => (c.target? s.store).bind fun label => (s.script.find? label).map (.jump beat c label ·)

/-- `s.record d` — the score after a deed. -/
def Score.record (s : Score) (d : Deed) : Score := { s with session := s.session.after d, journal := d :: s.journal }

/-- `s.play beat c` — the score after a command of a beat has run. -/
def Score.play (beat : Option Nat) (s : Score) (c : Command) : Score :=
  { (c.deed? beat s.session).elim s s.record with calls := s.calls ++ c.calls }

/-- What a command does to a session is its deed, if it has one. -/
theorem Session.afterCommand_eq (beat : Option Nat) (s : Session) (c : Command) :
    s.afterCommand c = (c.deed? beat s).elim s s.after := by
  unfold Session.afterCommand Command.deed?
  split
  · rfl
  · cases c.target? s.store with
    | none => rfl
    | some label => cases h : s.script.find? label <;> simp [h, Session.after]

@[simp] theorem Score.play_attached (beat : Option Nat) (s : Score) (c : Command) :
    (s.play beat c).session.attached = s.session.attached := by
  simp only [Score.play, Command.deed?]
  split
  · rfl
  · cases c.target? s.session.store with
    | none => rfl
    | some label => cases h : s.session.script.find? label <;> simp [h, Score.record, Session.after]

/-- What a command does to the score shows on the `plot`. -/
theorem Score.plot_play (beat : Option Nat) (s : Score) (c : Command) : (s.play beat c).plot = s.plot.play c := by
  have hstore : s.plot.session.store = s.session.store := rfl
  have hscript : s.plot.session.script = s.session.script := rfl
  unfold Score.play Plot.play Session.afterCommand Command.deed?
  rw [hstore, hscript]
  split
  · rename_i var choices hbody
    simp [Command.target?, hbody]
    rfl
  · cases c.target? s.session.store with
    | none => rfl
    | some label =>
      cases h : s.session.script.find? label <;> simp [h] <;> rfl

theorem Score.plot_playAll (beat : Option Nat) (s : Score) (cs : List Command) :
    (cs.foldl (Score.play beat) s).plot = cs.foldl Plot.play s.plot := by
  induction cs generalizing s with
  | nil => rfl
  | cons c cs ih =>
    rw [List.foldl_cons, List.foldl_cons, ih, s.plot_play beat c]

/-- Nothing is shown by a command that has a label to go to. -/
theorem Command.calls_of_target {store : List (String × String)} {label : String} (c : Command)
    (h : c.target? store = some label) : c.calls = [] := by
  unfold Command.target? at h
  unfold Command.calls
  split at h <;> simp_all

@[simp] theorem Plot.play_attached (p : Plot) (c : Command) : (p.play c).session.attached = p.session.attached := by
  simp only [Plot.play, Session.afterCommand]
  split
  · rfl
  · split <;> rfl

/-- A command with a target jumps there, if the script has the label. -/
theorem Score.play_jump {beat : Option Nat} {s : Score} {c : Command} {label : String}
    (h : c.target? s.session.store = some label) :
    s.play beat c =
      match s.session.script.find? label with
      | some position => s.record (.jump beat c label position)
      | none => s := by
  have hbody : ∀ var choices, c.body ≠ .choice var choices := by
    intro var choices hchoice
    simp [Command.target?, hchoice] at h
  have hdeed : c.deed? beat s.session = (s.session.script.find? label).map (.jump beat c label ·) := by
    unfold Command.deed?
    split
    · rename_i hchoice
      exact absurd hchoice (hbody _ _)
    · rw [h, Option.bind_some]
  rw [Score.play, hdeed, c.calls_of_target h, List.append_nil]
  cases s.session.script.find? label <;> rfl

/-- A command without a target and a choice only shows what it shows. -/
theorem Score.play_stay {beat : Option Nat} {s : Score} {c : Command} (h : c.target? s.session.store = none)
    (hchoice : ∀ var choices, c.body ≠ .choice var choices) :
    s.play beat c = { s with calls := s.calls ++ c.calls } := by
  have hdeed : c.deed? beat s.session = none := by
    unfold Command.deed?
    split
    · rename_i hbody
      exact absurd hbody (hchoice _ _)
    · rw [h, Option.bind_none]
  rw [Score.play, hdeed]
  rfl

/-- A command with a label to go to (`target?`) moves the cursor there if the label is known, and does nothing else. -/
theorem Plot.play_jump {p : Plot} {c : Command} {label : String} (h : c.target? p.session.store = some label) :
    p.play c =
      match p.session.script.find? label with
      | some position => { p with session := { p.session with cursor := position }, place := position }
      | none => p := by
  have hsession : p.session.afterCommand c =
      match p.session.script.find? label with
      | some position => { p.session with cursor := position }
      | none => p.session := by
    unfold Session.afterCommand
    split
    · rename_i hbody
      simp [Command.target?, hbody] at h
    · simp only [h, Option.bind_some]
  rw [Plot.play, hsession, c.calls_of_target h, List.append_nil, h, Option.bind_some]
  cases p.session.script.find? label <;> rfl

/-- A command without one that is no choice leaves the session as it is. -/
theorem Plot.play_stay {p : Plot} {c : Command} (h : c.target? p.session.store = none)
    (hchoice : ∀ var choices, c.body ≠ .choice var choices) : p.play c = { p with calls := p.calls ++ c.calls } := by
  have hsession : p.session.afterCommand c = p.session := by
    unfold Session.afterCommand
    split
    · rename_i hbody
      exact absurd hbody (hchoice _ _)
    · simp [h]
  rw [Plot.play, hsession, h]
  rfl

/-! ## Chains on their way -/

namespace Gear

/-- `G.setFrames chain frames` — the frames of a chain replaced. -/
def setFrames (G : Gear) (chain : Nat) (frames : List Frame) : Gear :=
  { G with chains := G.chains.modify chain fun c => { c with frames } }

/-- A chain goes its way: it runs on, it is ready, or it waits for a time. -/
inductive Sends (chain : Nat) (G : Gear) : Gear → Prop where
  | on : Sends chain G { G with active := some (chain, none) }
  | back : Sends chain G { G with ready := G.ready ++ [.resume chain none] }
  | away (t : Timer) : t.chain = chain → Sends chain G { G with timers := Stage.insertTimer t G.timers }

/-- `G.fire fired kept` — the first of the timers fire, and the others are kept. -/
def fire (G : Gear) (fired kept : List Timer) : Gear :=
  { G with timers := kept, ready := G.ready ++ fired.map fun t => .resume t.chain none }

theorem setFrames_setFrames (G : Gear) (chain : Nat) (frames others : List Frame) :
    (G.setFrames chain frames).setFrames chain others = G.setFrames chain others := by
  simp only [setFrames, List.modify_modify_eq]
  rfl

/-- `G.Lone chain frames` — only one chain is left, with these frames, and it is about to go its way. -/
structure Lone (chain : Nat) (frames : List Frame) (G : Gear) : Prop where
  chain_eq : G.chains[chain]? = some { frames }
  timers_eq : G.timers = []
  ready_eq : G.ready = []
  active_eq : G.active = none

theorem Lone.setFrames {chain : Nat} {frames : List Frame} {G : Gear} (h : G.Lone chain frames)
    (others : List Frame) : (G.setFrames chain others).Lone chain others where
  chain_eq := by simp [Gear.setFrames, h.chain_eq]
  timers_eq := h.timers_eq
  ready_eq := h.ready_eq
  active_eq := h.active_eq

end Gear

namespace Stage

variable {react : Reactions} {w v : Stage} {chain k g : Nat} {frames rest : List Frame}

@[simp] theorem gear_setFrames (w : Stage) (chain : Nat) (frames : List Frame) :
    (w.setFrames chain frames).gear = w.gear.setFrames chain frames := rfl

theorem sends_goOn (w : Stage) (chain : Nat) : Gear.Sends chain w.gear (w.goOn chain none).gear := .on

/-- Waiting for a time is going one's way (`Sends`); without a time it is waiting one's turn. -/
theorem sends_sleep (w : Stage) (chain : Nat) (seconds : Float) :
    Gear.Sends chain w.gear (w.sleep chain seconds).gear := by
  unfold Stage.sleep
  split
  · exact .back
  · exact .away ⟨w.now + seconds, chain⟩ rfl

theorem score_sleep (w : Stage) (chain : Nat) (seconds : Float) : (w.sleep chain seconds).score = w.score := by
  unfold Stage.sleep
  split <;> rfl

/-! ## One round of waiting -/

theorem goes_active (hempty : w.nextEvent? = none) {failure : Option Failure}
    (hactive : w.active = some (chain, failure)) : Goes react k w (w.runChain react chain failure) := by
  refine .step ?_
  simp [Stage.step, hempty, hactive]

/-- The running chain takes its next frame in hand. -/
theorem goes_frame (react : Reactions) (k : Nat) (hempty : w.nextEvent? = none)
    (hactive : w.active = some (chain, none)) {c : Chain} (hc : w.gear.chains[chain]? = some c) {f : Frame}
    (hframes : c.frames = f :: rest) :
    ∃ u : Stage, u.gear = { w.gear with active := none } ∧ u.score = w.score ∧ u.bus = w.bus ∧
      Goes react k w (u.runFrame react chain f rest) := by
  have hchain : w.chains[chain]? = some c := hc
  have hgo : Goes react k w (w.runChain react chain none) := goes_active hempty hactive
  simp only [runChain, hchain, Option.map_some, hframes] at hgo
  exact ⟨{ w with active := none }, rfl, rfl, rfl, hgo⟩

/-- The running chain has nothing left to do, and is over. -/
theorem goes_end (react : Reactions) (k : Nat) (hempty : w.nextEvent? = none)
    (hactive : w.active = some (chain, none)) {c : Chain} (hc : w.gear.chains[chain]? = some c)
    (hframes : c.frames = []) :
    ∃ u : Stage, u.gear = { w.gear with active := none } ∧ u.score = w.score ∧ u.bus = w.bus ∧
      Goes react k w (u.finish chain none) := by
  have hchain : w.chains[chain]? = some c := hc
  have hgo : Goes react k w (w.runChain react chain none) := goes_active hempty hactive
  simp only [runChain, hchain, Option.map_some, hframes] at hgo
  exact ⟨{ w with active := none }, rfl, rfl, rfl, hgo⟩

theorem goes_ready (hempty : w.nextEvent? = none) (hactive : w.active = none) (hready : w.takeReady = some v) :
    Goes react k w v := by
  refine .step ?_
  simp [Stage.step, hempty, hactive, hready]

/-- Firing timers moves the first of them to the end of the ready list. -/
theorem fireTimers_eq (w : Stage) (time : Float) :
    ∃ fired kept, w.timers = fired ++ kept ∧ w.fireTimers time =
      { w with timers := kept, ready := w.ready ++ fired.map fun t => .resume t.chain none } :=
  ⟨_, _, List.takeWhile_append_dropWhile.symm, rfl⟩

/-- When nothing is ready time passes, and the timers that are due fire. -/
theorem goes_fire (hempty : w.nextEvent? = none) (hactive : w.active = none) (hready : w.ready = [])
    (htimers : w.timers ≠ []) (htime : TimeHelps react k w) (houtcome : w.outcome? k = none) :
    ∃ v fired kept, Goes react k w v ∧ fired ≠ [] ∧ w.timers = fired ++ kept ∧ v.score = w.score ∧ v.bus = w.bus ∧
      v.gear = w.gear.fire fired kept := by
  have htake : w.takeReady = none := by simp [takeReady, hready]
  obtain ⟨fired, kept, hsplit, hfire⟩ := w.fireTimers_eq w.now
  cases fired with
  | cons t fired =>
    have hstep : w.step react = some (w.fireTimers w.now) := by simp [Stage.step, hempty, hactive, htake, hfire]
    rw [hfire] at hstep
    exact ⟨_, t :: fired, kept, .step hstep, by simp, hsplit, rfl, rfl, rfl⟩
  | nil =>
    -- no timer is due yet, so time passes
    have hstep : w.step react = none := by simp [Stage.step, hempty, hactive, htake, hfire, hready]
    cases ht : w.timers with
    | nil => exact absurd ht htimers
    | cons t timers =>
      obtain ⟨fired, kept, hsplit, hfire⟩ := Stage.fireTimers_eq
        { w with now := t.due, timers, ready := w.ready ++ [.resume t.chain none] } t.due
      have hdue : t.due.isInf = false := htime hstep houtcome t (by simp [ht])
      have htick := (tick_eq_fireTimers ht hdue).trans (congrArg some hfire)
      refine ⟨_, t :: fired, kept, .tick hstep houtcome htick, by simp, ?_⟩
      exact ⟨congrArg (t :: ·) hsplit, rfl, rfl, by simp [Stage.gear, Gear.fire]⟩

/-! ## A chain alone on the stage -/

/-- `w.On chain frames` — a chain is alone on the stage, and on its way. -/
def On (chain : Nat) (frames : List Frame) (w : Stage) : Prop :=
  ∃ G : Gear, G.Lone chain frames ∧ Gear.Sends chain G w.gear

/-- A chain that is on its way is not over. -/
theorem outcome?_eq_none (h : w.gear.chains[k]? = some { frames }) : w.outcome? k = none := by
  have hchain : w.chains[k]? = some { frames } := h
  simp [outcome?, hchain]

/-- Whether an event waits depends on the bus alone. -/
theorem nextEvent?_congr (hempty : w.nextEvent? = none) (h : v.bus = w.bus) : v.nextEvent? = none := by
  unfold nextEvent? at hempty ⊢
  rw [h]
  split at hempty
  · split at hempty
    · cases hempty
    · rfl
  · rfl

/-- A chain that is alone (`Lone`) and ready is taken. -/
theorem goes_lone {G : Gear} (react : Reactions) (hlone : G.Lone k frames) (hempty : w.nextEvent? = none)
    (hgear : w.gear = { G with ready := [.resume k none] }) :
    ∃ v, Goes react k w v ∧ v.score = w.score ∧ v.nextEvent? = none ∧ v.active = some (k, none) ∧
      v.groups = G.groups ∧ { v.gear with active := none }.Lone k frames := by
  have hready : w.ready = [.resume k none] := congrArg Gear.ready hgear
  have hactive : w.active = none := (congrArg Gear.active hgear).trans hlone.active_eq
  have htake : w.takeReady = some { w with ready := [], active := some (k, none) } := by simp [takeReady, hready]
  have hchain : w.gear.chains[k]? = some { frames } := by rw [hgear]; exact hlone.chain_eq
  have htimers : w.gear.timers = [] := by rw [hgear]; exact hlone.timers_eq
  exact ⟨_, goes_ready hempty hactive htake, rfl, nextEvent?_congr hempty rfl, rfl, congrArg Gear.groups hgear,
    hchain, htimers, rfl, rfl⟩

/-- A chain that is alone comes to run, whether it runs on, is ready or waits for a time.  Deliveries that are in its
    way come to an end (`Clears`). -/
theorem On.comes (hclears : Clears react k w) (h : w.On k frames) :
    ∃ v, Arrives react k w v ∧ v.score = w.score ∧ v.nextEvent? = none ∧ v.active = some (k, none) ∧
      v.groups = w.groups ∧ { v.gear with active := none }.Lone k frames := by
  obtain ⟨G, hlone, hsends⟩ := h
  obtain ⟨v, harrives, hsameScore, hempty, htime⟩ := hclears
  have hscore := hsameScore.score_eq
  generalize hG : w.gear = G' at hsends
  have hgear := hsameScore.gear_eq.trans hG
  have hgroups : w.groups = G'.groups := congrArg Gear.groups hG
  cases hsends with
  | on =>
    refine ⟨v, harrives, hscore, hempty, congrArg Gear.active hgear, groups_eq_of_gear hsameScore.gear_eq, ?_⟩
    rw [hgear]
    exact ⟨hlone.chain_eq, hlone.timers_eq, hlone.ready_eq, rfl⟩
  -- the chain waits for its turn, and nobody is before it
  | back =>
    rw [hlone.ready_eq] at hgear
    obtain ⟨u, hgo, huscore, hu, hactive, hugroups, hulone⟩ := goes_lone react hlone hempty hgear
    exact ⟨u, harrives.tail hgo, huscore.trans hscore, hu, hactive, hugroups.trans hgroups.symm, hulone⟩
  -- the chain is on a timer, the only one: time passes, it fires, and the chain is taken up
  | away t ht =>
    rw [hlone.timers_eq] at hgear
    have hactive : v.active = none := (congrArg Gear.active hgear).trans hlone.active_eq
    have hready : v.ready = [] := (congrArg Gear.ready hgear).trans hlone.ready_eq
    have htimers : v.timers = [t] := congrArg Gear.timers hgear
    have houtcome : v.outcome? k = none := outcome?_eq_none (by rw [hgear]; exact hlone.chain_eq)
    obtain ⟨u, fired, kept, hgo, hfired, hsplit, huscore, hbus, hugear⟩ :=
      goes_fire hempty hactive hready (by simp [htimers]) htime houtcome
    obtain ⟨rfl, rfl⟩ : fired = [t] ∧ kept = [] := by
      rw [htimers] at hsplit
      cases fired with
      | nil => exact absurd rfl hfired
      | cons t' fired => simpa [eq_comm, and_assoc] using hsplit
    have hback : u.gear = { G with ready := [.resume k none] } := by
      rw [hugear, hgear, ← ht]
      simp [Gear.fire, hlone.timers_eq, hlone.ready_eq]
    obtain ⟨u', hgo', hu'score, hu', hactive', hu'groups, hu'lone⟩ :=
      goes_lone react hlone (nextEvent?_congr hempty hbus) hback
    exact ⟨u', (harrives.tail hgo).tail hgo', hu'score.trans (huscore.trans hscore), hu', hactive',
      hu'groups.trans hgroups.symm, hu'lone⟩

/-- The next frame of a chain that is alone (`Lone`) is run on a stage where nothing else is left. -/
theorem On.runs (hclears : Clears react k w) {f : Frame} (h : w.On k (f :: rest)) :
    ∃ v : Stage, v.gear.Lone k (f :: rest) ∧ v.score = w.score ∧ v.groups = w.groups ∧ v.nextEvent? = none ∧
      TransGen (Goes react k) w (v.runFrame react k f rest) := by
  obtain ⟨v, harrives, hscore, hempty, hactive, hgroups, hlone⟩ := On.comes hclears h
  obtain ⟨u, hgear, huscore, hbus, hgo⟩ := goes_frame react k hempty hactive hlone.chain_eq rfl
  have hugroups : u.groups = v.groups := congrArg Gear.groups hgear
  exact ⟨u, hgear ▸ hlone, huscore.trans hscore, hugroups.trans hgroups, nextEvent?_congr hempty hbus,
    .tail' harrives hgo⟩

/-- A chain that is alone (`On`) and has nothing left to do ends. -/
theorem On.ends (hclears : Clears react k w) (h : w.On k []) :
    ∃ v : Stage, v.gear.Lone k [] ∧ v.score = w.score ∧ v.nextEvent? = none ∧ Arrives react k w (v.finish k none) := by
  obtain ⟨v, harrives, hscore, hempty, hactive, -, hlone⟩ := On.comes hclears h
  obtain ⟨u, hgear, huscore, hbus, hgo⟩ := goes_end react k hempty hactive hlone.chain_eq rfl
  exact ⟨u, hgear ▸ hlone, huscore.trans hscore, nextEvent?_congr hempty hbus, harrives.tail hgo⟩

end Stage

/-! ## Winding down -/

/-- Frames that leave the session alone when reactions neither call nor fail. -/
def Frame.Winds : Frame → Prop
  | .acts reaction => ∀ act ∈ reaction, act.neitherCallsNorFails = true
  | .settle | .announce _ => True
  | _ => False

/-- What is left of such a frame after it has been run once. -/
def Frame.remains : Frame → List Frame
  | .acts (_ :: reaction) => [.acts reaction]
  | _ => []

/-- How often it has to be run. -/
def Frame.weight : Frame → Nat
  | .acts reaction => reaction.length + 1
  | .settle | .announce _ => 1
  | _ => 0

/-- How often the frames of a chain have to be run. -/
def Chain.weight (c : Chain) : Nat := (c.frames.map Frame.weight).sum

theorem Frame.Winds.remains {f : Frame} (h : f.Winds) : ∀ r ∈ f.remains, r.Winds := by
  cases f with
  | acts acts =>
    cases acts with
    | nil => simp [Frame.remains]
    | cons act acts => simpa [Frame.remains, Frame.Winds] using fun a ha => h a (List.mem_cons_of_mem act ha)
  | settle | announce | command | advance | start | beat | reportEnd | leave | sleep => simp [Frame.remains]

/-- A frame that winds down leaves frames of less `weight`, so winding down comes to an end. -/
theorem Frame.Winds.weight_lt {f : Frame} (h : f.Winds) : (f.remains.map Frame.weight).sum < f.weight := by
  cases f with
  | acts acts => cases acts <;> simp [Frame.remains, Frame.weight]
  | settle | announce => simp [Frame.remains, Frame.weight]
  | command | advance | start | beat | reportEnd | leave | sleep => cases h

/-- `Runs w chain c v` — a command has been run: the score has gone on by it, and its chain goes its way with frames
    that only wind down. -/
def Runs (w : Stage) (chain : Nat) (c : Command) (v : Stage) : Prop :=
  ∃ frames, (∀ f ∈ frames, f.Winds) ∧ v.score = w.score.play (w.groupOf chain) c ∧
    Gear.Sends chain (w.gear.setFrames chain frames) v.gear

theorem Runs.goOn {w v : Stage} {chain : Nat} {c : Command} (hgear : v.gear = w.gear.setFrames chain [])
    (hscore : v.score = w.score.play (w.groupOf chain) c) : Runs w chain c (v.goOn chain none) :=
  ⟨[], by simp, hscore, hgear ▸ v.sends_goOn chain⟩

namespace NeitherCallsNorFails

variable {react : Reactions} (hreact : NeitherCallsNorFails react)

include hreact

/-- An act that neither calls nor fails leaves the `score` as it is, and the chain goes its way. -/
theorem runAct (w : Stage) (chain : Nat) (rest : List Frame) {act : Act} (hact : act.neitherCallsNorFails = true) :
    (w.runAct react chain rest act).score = w.score ∧
      Gear.Sends chain (w.gear.setFrames chain rest) (w.runAct react chain rest act).gear := by
  have himmediate : ∀ r : Stage × Option Failure, r = (w.setFrames chain rest).carryOut react act →
      (r.1.goOn chain r.2).score = w.score ∧
        Gear.Sends chain (w.gear.setFrames chain rest) (r.1.goOn chain r.2).gear := by
    rintro r rfl
    obtain ⟨hsameScore, hfailure⟩ := hreact.sameScore_carryOut (w.setFrames chain rest) hact
    refine ⟨hsameScore.score_eq, ?_⟩
    rw [hfailure, ← Stage.gear_setFrames, ← hsameScore.gear_eq]
    exact .on
  cases act with
  | sleep seconds => exact ⟨Stage.score_sleep _ _ _, Stage.sends_sleep (w.setFrames chain rest) chain seconds⟩
  | view | note | subscribe | unsubscribe | clear | publish => exact himmediate _ rfl
  | advance | setVariable | setup | loadCompiled | nextBeat | fail | attach | assign => cases hact

/-- So does every frame that winds down (`Winds`). -/
theorem runFrame (w : Stage) (chain : Nat) (rest : List Frame) {f : Frame} (hf : f.Winds) :
    (w.runFrame react chain f rest).score = w.score ∧
      Gear.Sends chain (w.gear.setFrames chain (f.remains ++ rest)) (w.runFrame react chain f rest).gear := by
  cases f with
  | acts acts =>
    cases acts with
    | nil => exact ⟨rfl, Stage.sends_goOn (w.setFrames chain rest) chain⟩
    | cons act acts => exact hreact.runAct w chain (.acts acts :: rest) (hf act List.mem_cons_self)
  | settle => exact ⟨Stage.score_sleep _ _ _, Stage.sends_sleep (w.setFrames chain rest) chain _⟩
  | announce c =>
    have hsameScore := hreact.sameScore_publish (w.setFrames chain rest) ⟨.choiceShown, .choice c⟩
    refine ⟨hsameScore.score_eq, ?_⟩
    have hsends := Stage.sends_goOn ((w.setFrames chain rest).publish react ⟨.choiceShown, .choice c⟩) chain
    rwa [hsameScore.gear_eq] at hsends
  | command | advance | start | beat | reportEnd | leave | sleep => cases hf

/-- A jump moves the cursor and is recorded; the event that tells of it leaves the session alone. -/
theorem jumpTo (w : Stage) (beat : Option Nat) (c : Command) (label : String) :
    (w.jumpTo react beat c label).gear = w.gear ∧
      (w.jumpTo react beat c label).score =
        match w.session.script.find? label with
        | some position => w.score.record (.jump beat c label position)
        | none => w.score := by
  unfold Stage.jumpTo
  cases w.session.script.find? label with
  | none =>
    have hsameScore := SameScoreAndGear.log w .error s!"Label '{label}' not found. Cannot jump."
    exact ⟨hsameScore.gear_eq, hsameScore.score_eq⟩
  | some position =>
    have hlog := SameScoreAndGear.log w .debug s!"Jump to '{label}' (command {position})"
    have hpublish := hreact.sameScore_publish
      ((w.log .debug s!"Jump to '{label}' (command {position})").record (.jump beat c label position))
      ⟨.labelJumped, .jump label position⟩
    refine ⟨hpublish.gear_eq.trans hlog.gear_eq, hpublish.score_eq.trans ?_⟩
    rw [← hlog.score_eq]
    rfl

/-- A text or an image is shown, and then the chain waits for the reaction and the pause. -/
theorem showAndSettle (w : Stage) (chain : Nat) {c : Command} (cue : Cue) (hcalls : c.calls = [.shown c])
    (htarget : c.target? w.session.store = none) (hchoice : ∀ var choices, c.body ≠ .choice var choices) :
    Runs w chain c ((w.setFrames chain []).showAndSettle react chain [] c cue) := by
  let u := (w.setFrames chain []).see (.shown c w.now)
  refine ⟨[.acts (react cue (u.timesFired cue)), .settle], ?_, ?_, ?_⟩
  · intro f hf
    rcases List.mem_cons.mp hf with rfl | hf
    · exact hreact cue _
    · rw [List.mem_singleton.mp hf]
      trivial
  · rw [Score.play_stay htarget hchoice, hcalls]
    exact Stage.score_see (w.setFrames chain []) (.shown c w.now)
  · rw [← Gear.setFrames_setFrames]
    exact .on

/-- A choice waits from the moment that it is shown. -/
theorem offers (w : Stage) (chain : Nat) {c : Command} {var : String} {choices : List String}
    (hbody : c.body = .choice var choices) {u : Stage}
    (hu : u = ((w.setFrames chain []).record (.offer (w.groupOf chain) c ⟨c.line, var, choices⟩)).see (.shown c w.now)) :
    Runs w chain c (((u.reaction react (.choice var)).1.setFrames chain
      [.acts ((u.reaction react (.choice var)).2.filter Act.isImmediate), .announce c]).goOn chain none) := by
  refine ⟨[.acts ((react (.choice var) (u.timesFired (.choice var))).filter Act.isImmediate), .announce c], ?_, ?_, ?_⟩
  · intro f hf
    rcases List.mem_cons.mp hf with rfl | hf
    · exact fun act hact => hreact _ _ act (List.mem_filter.mp hact).1
    · rw [List.mem_singleton.mp hf]
      trivial
  · have hplay : w.score.play (w.groupOf chain) c = u.score := by
      rw [hu, Stage.score_see]
      simp only [Score.play, Command.deed?, Command.calls, hbody]
      rfl
    rw [hplay]
    rfl
  · rw [hu, ← Gear.setFrames_setFrames]
    exact .on

/-- A command does to the score what it is to do (`Score.play`), one case for each kind. -/
theorem runCommand (w : Stage) (chain : Nat) (c : Command) (hattached : w.session.attached = true) :
    Runs w chain c (w.runCommand react chain [] c) := by
  have hlisten : (w.setFrames chain []).session.attached = true := hattached
  have hkept : (w.setFrames chain []).score = w.score := rfl
  simp only [Stage.runCommand, hlisten, Bool.not_true, Bool.false_eq_true, if_false, Stage.groupOf_setFrames]
  split
  · rename_i text hbody
    refine hreact.showAndSettle w chain (.text text) ?_ ?_ ?_ <;> simp [Command.calls, Command.target?, hbody]
  · rename_i name hbody
    refine hreact.showAndSettle w chain (.image name) ?_ ?_ ?_ <;> simp [Command.calls, Command.target?, hbody]
  · rename_i seconds hbody
    refine ⟨[], by simp, ?_, Stage.sends_sleep (w.setFrames chain []) chain seconds⟩
    rw [Score.play_stay (by simp [Command.target?, hbody]) (by simp [hbody]), Stage.score_sleep]
    simp [Command.calls, hbody, hkept]
  · rename_i var choices hbody
    exact hreact.offers w chain hbody rfl
  · -- a condition: a jump if the variable is there and the test holds
    rename_i test hbody
    have hstore : (w.setFrames chain []).session.get? test.var = lookupVariable test.var w.score.session.store := rfl
    rw [hstore]
    cases hlookup : lookupVariable test.var w.score.session.store with
    | none =>
      refine Runs.goOn rfl ?_
      rw [Score.play_stay (by simp [Command.target?, hbody, hlookup]) (by simp [hbody])]
      simp [Command.calls, hbody, (SameScoreAndGear.log _ _ _).score_eq, hkept]
    | some actual =>
      by_cases hholds : test.holds actual = true
      · have htarget : c.target? w.score.session.store = some test.label := by
          simp [Command.target?, hbody, hlookup, hholds]
        obtain ⟨hgear, hscore⟩ := hreact.jumpTo (w.setFrames chain []) (w.groupOf chain) c test.label
        simp only [hholds, if_true]
        exact Runs.goOn hgear (hscore.trans (Score.play_jump htarget).symm)
      · simp only [hholds, Bool.false_eq_true, if_false]
        refine Runs.goOn rfl ?_
        rw [Score.play_stay (by simp [Command.target?, hbody, hlookup, hholds]) (by simp [hbody])]
        simp [Command.calls, hbody, hkept]
  · -- a jump, to where the table leads or to nowhere
    rename_i label hbody
    obtain ⟨hgear, hscore⟩ := hreact.jumpTo (w.setFrames chain []) (w.groupOf chain) c label
    have htarget : c.target? w.score.session.store = some label := by simp [Command.target?, hbody]
    exact Runs.goOn hgear (hscore.trans (Score.play_jump htarget).symm)
  · rename_i name hbody
    refine Runs.goOn rfl ?_
    rw [Score.play_stay (by simp [Command.target?, hbody]) (by simp [hbody])]
    simp [Command.calls, hbody, hkept]
  · rename_i hbody
    refine Runs.goOn rfl ?_
    rw [Score.play_stay (by simp [Command.target?, hbody]) (by simp [hbody])]
    simp [Command.calls, hbody, (SameScoreAndGear.log _ _ _).score_eq, hkept]

end NeitherCallsNorFails

namespace Stage

variable {react : Reactions} {w v : Stage} {k : Nat} {rest : List Frame}

/-- A reaction that neither calls nor fails, of a chain that is alone (`On`), comes to its end. -/
theorem On.reacts {acts : List Act} (hacts : ∀ act ∈ acts, act.neitherCallsNorFails = true)
    (hfree : Unhindered react k w)
    (h : w.On k (.acts acts :: rest)) : ∃ v, Arrives react k w v ∧ v.score = w.score ∧ v.On k rest := by
  induction acts generalizing w with
  | nil =>
    obtain ⟨v, hlone, hscore, -, -, hgoes⟩ := On.runs hfree.clears h
    obtain ⟨hrun, hsends⟩ := hfree.neitherCallsNorFails.runFrame v k rest (f := .acts []) hacts
    exact ⟨_, hgoes.to_reflTransGen, hrun.trans hscore, _, hlone.setFrames rest, hsends⟩
  | cons act acts ih =>
    obtain ⟨v, hlone, hscore, -, -, hgoes⟩ := On.runs hfree.clears h
    obtain ⟨hrun, hsends⟩ := hfree.neitherCallsNorFails.runFrame v k rest (f := .acts (act :: acts)) hacts
    have hrest : ∀ a ∈ acts, a.neitherCallsNorFails = true := fun a ha => hacts a (List.mem_cons_of_mem act ha)
    obtain ⟨u, harrives, huscore, hon⟩ :=
      ih hrest (hfree.arrives hgoes.to_reflTransGen) ⟨_, hlone.setFrames (.acts acts :: rest), hsends⟩
    exact ⟨u, hgoes.to_reflTransGen.trans harrives, huscore.trans (hrun.trans hscore), hon⟩

end Stage

end ChatScene

/-
  Advances, round by round, against the plain interpreter.

  When an advance begins and after every beat its chain is alone on the stage and it is its turn: it returns if the
  scene does not go on, and plays another beat or reports the end otherwise.  What one turn leads to is what the
  interpreter comes to after as many commands as the beat has.

  1. **Plots** — `Plot.collected`, `Plot.played` and `Plot.ended` say what a round does to a plot.  A round that plays a
     beat takes the interpreter through the commands of the beat (`ForksEndBeats.solo_round`).

  2. **Stages at rest** (`Stage.AtRest`) — a chain that is alone and has nothing left to do, or has only its context to
     leave, returns and leaves the stage at rest (`On.returns`, `On.leaves`).

  3. **Parts of a round** — a beat is collected (`nextRound_beat`) or there is none (`nextRound_end`); the chains of the
     beat start (`startBeat_inPlay`), it is played (`On.playsBeat`), and the end is reported (`On.reportsEnd`).

  4. **Turns** (`Stage.Going`) — it is an advance's turn.  When the scene does not go on it returns (`Going.stops`), and
     otherwise it plays a beat (`Going.plays`) or ends the scene (`Going.ends`).

  5. **Main result** (`Going.round`) — one round of an advance against the interpreter.
-/
import ChatScene.Proofs.Beat
import ChatScene.Proofs.Sequential

namespace ChatScene

open Relation (TransGen)

/-! ## Plots through a round -/

/-- The plot after its next beat has been collected. -/
def Plot.collected (p : Plot) : Plot :=
  { p with session := { p.session with cursor := p.session.cursor + p.session.nextBeat.length }
           place := p.place + p.session.nextBeat.length
           starts := if p.session.nextBeat.isEmpty then p.starts else p.starts ++ [p.place] }

/-- The plot after its next beat has been played. -/
def Plot.played (p : Plot) : Plot := p.session.nextBeat.foldl Plot.play p.collected

/-- The plot after its end has been reported. -/
def Plot.ended (p : Plot) : Plot :=
  { p.collected with session := { p.collected.session with finished := true }, calls := p.calls ++ [.ended] }

namespace Plot

variable {p : Plot}

theorem ForksEndBeats.collected (h : p.ForksEndBeats) : p.collected.ForksEndBeats :=
  ⟨h.attached, h.choice_ends, h.jump_ends, h.sound⟩

/-- A command keeps the settings, the script and the listener. -/
theorem ForksEndBeats.play (h : p.ForksEndBeats) (c : Command) : (p.play c).ForksEndBeats := by
  have hsame : (p.play c).session.script = p.session.script ∧ (p.play c).session.settings = p.session.settings := by
    simp only [Plot.play, Session.afterCommand]
    split
    · exact ⟨rfl, rfl⟩
    · split <;> exact ⟨rfl, rfl⟩
  refine ⟨?_, ?_, ?_, ?_⟩
  · rw [Plot.play_attached]
    exact h.attached
  · rw [hsame.2]
    exact h.choice_ends
  · rw [hsame.2]
    exact h.jump_ends
  · rw [hsame.1]
    exact h.sound

theorem ForksEndBeats.playAll (h : p.ForksEndBeats) (cs : List Command) : (cs.foldl Plot.play p).ForksEndBeats := by
  induction cs generalizing p with
  | nil => exact h
  | cons c cs ih => exact ih (h.play c)

theorem playAll_attached (p : Plot) (cs : List Command) :
    (cs.foldl Plot.play p).session.attached = p.session.attached := by
  induction cs generalizing p with
  | nil => rfl
  | cons c cs ih => exact (ih (p.play c)).trans (p.play_attached c)

theorem playAll_starts (p : Plot) (cs : List Command) : (cs.foldl Plot.play p).starts = p.starts := by
  induction cs generalizing p with
  | nil => rfl
  | cons c cs ih => exact ih (p.play c)

/-- A round that plays a beat adds one to the `starts`. -/
theorem length_starts_played (p : Plot) (h : p.session.nextBeat ≠ []) :
    p.played.starts.length = p.starts.length + 1 := by
  have hsome : p.session.nextBeat.isEmpty = false := by simpa using h
  rw [played, playAll_starts]
  simp [collected, hsome]

/-- After a beat that ends on a choice there is one that waits. -/
theorem playAll_pending (p : Plot) {cs : List Command} (h : endsOnChoice cs = true) :
    (cs.foldl Plot.play p).session.pending.isSome = true := by
  unfold endsOnChoice at h
  cases hlast : cs.getLast? with
  | none => simp [hlast] at h
  | some c =>
    rw [hlast] at h
    have hkind : c.body.kind = .choice := of_decide_eq_true h
    obtain ⟨before, rfl⟩ := List.getLast?_eq_some_iff.mp hlast
    rw [List.foldl_append, List.foldl_cons, List.foldl_nil]
    cases hbody : c.body with
    | choice var choices => simp [Plot.play, Session.afterCommand, hbody]
    | bare | text | image | condition | label | wait | jump => simp [hbody, Body.kind] at hkind

/-- A round that plays a beat takes the interpreter (`solo`) through the commands of the beat. -/
theorem ForksEndBeats.solo_round (h : p.ForksEndBeats) (hrunning : p.solo.halted = false) :
    p.played.solo = p.solo.run p.session.nextBeat.length := by
  have hcounted : ({ p.collected with session := p.session } : Plot).ForksEndBeats :=
    ⟨h.attached, h.choice_ends, h.jump_ends, h.sound⟩
  exact hcounted.solo_nextBeat hrunning

end Plot

/-- No chain is on its way. -/
structure Gear.Idle (G : Gear) : Prop where
  timers_eq : G.timers = []
  ready_eq : G.ready = []
  active_eq : G.active = none

namespace Stage

variable {react : Reactions} {w v : Stage} {k : Nat} {frames : List Frame} {context : Context}

/-! ## Returning -/

/-- A stage on which nothing is left to do. -/
structure AtRest (w : Stage) : Prop where
  idle : w.gear.Idle
  empty : w.nextEvent? = none

/-- When no chain is on its way, there is nothing to do but deliver. -/
theorem step_idle (h : w.gear.Idle) :
    w.step react = w.nextEvent?.map fun (event, w) => w.deliver react event := by
  have hready : w.ready = [] := h.ready_eq
  have htimers : w.timers = [] := h.timers_eq
  have hactive : w.active = none := h.active_eq
  have htake : w.takeReady = none := by simp [takeReady, hready]
  cases hnext : w.nextEvent? with
  | none => simp [Stage.step, hnext, hactive, htake, fireTimers, htimers, hready]
  | some r => simp [Stage.step, hnext]

/-- There is nothing to do on a stage at rest (`AtRest`). -/
theorem AtRest.step_eq (h : w.AtRest) : w.step react = none := by
  rw [step_idle h.idle, h.empty]
  rfl

/-- A chain that is alone (`On`) and has nothing left to do is over, and then nothing is left to do on the stage. -/
theorem On.returns (hclears : Clears react k w) (h : w.On k []) :
    ∃ v, Arrives react k w v ∧ v.plot = w.plot ∧ v.AtRest ∧ v.outcome? k = some none := by
  obtain ⟨u, hlone, hscore, hempty, harrives⟩ := On.ends hclears h
  have hplot := plot_eq_of_score hscore
  have hchain : u.chains[k]? = some { frames := [] } := hlone.chain_eq
  have hfinish : u.finish k none = { u with chains := u.chains.modify k fun c => { c with outcome := some none } } := by
    simp [finish, groupOf, hchain]
  rw [hfinish] at harrives
  refine ⟨_, harrives, hplot, ⟨⟨hlone.timers_eq, hlone.ready_eq, hlone.active_eq⟩, nextEvent?_congr hempty rfl⟩, ?_⟩
  simp [outcome?, hchain]

/-- A chain that is alone (`Lone`) goes on with other frames. -/
theorem On.goOn {others : List Frame} (hlone : w.gear.Lone k others) (hgear : v.gear = w.gear.setFrames k frames) :
    (v.goOn k none).On k frames := ⟨_, hlone.setFrames frames, hgear ▸ v.sends_goOn k⟩

/-- Nothing holds up a chain that is alone (`Lone`) and goes on at once. -/
theorem Clears.goOn {others : List Frame} (hlone : w.gear.Lone k others) (hempty : w.nextEvent? = none)
    (hgear : v.gear = w.gear.setFrames k frames) (hbus : v.bus = w.bus) : Clears react k (v.goOn k none) := by
  have htimers : v.timers = [] := (congrArg Gear.timers hgear).trans hlone.timers_eq
  exact .of_empty (nextEvent?_congr hempty hbus) htimers

theorem bus_pass (w : Stage) (context : Context) (passage : Passage) : (w.pass context passage).bus = w.bus := by
  obtain ⟨contexts, heq⟩ := w.pass_eq context passage
  rw [heq]
  cases context <;> rfl

theorem bus_touch (w : Stage) (context : Context) : (w.touch context).bus = w.bus := by
  obtain ⟨contexts, heq⟩ := w.touch_eq context
  rw [heq]

/-- A chain that is alone comes to its end if it has only to leave its `context`. -/
theorem On.leaves (hclears : Clears react k w) (h : w.On k [.leave context]) :
    ∃ v, Arrives react k w v ∧ v.plot = w.plot ∧ v.AtRest ∧ v.outcome? k = some none := by
  obtain ⟨u, hlone, hscore, -, hempty, hgoes⟩ := On.runs hclears h
  have hplot := plot_eq_of_score hscore
  have hpass := SamePlotAndGear.pass (u.setFrames k []) context .leave
  have hon : (u.runFrame react k (.leave context) []).On k [] := On.goOn hlone hpass.gear_eq
  have hnext : Clears react k (u.runFrame react k (.leave context) []) :=
    .goOn hlone hempty hpass.gear_eq (bus_pass _ _ _)
  obtain ⟨v, harrives, hvplot, hrest⟩ := On.returns hnext hon
  exact ⟨v, hgoes.to_reflTransGen.trans harrives, hvplot.trans (hpass.plot_eq.trans hplot), hrest⟩

/-! ## Collecting -/

/-- Collecting moves the cursor and tells of the beat. -/
theorem collect_plot (w : Stage) (number : Option Nat) :
    ∃ v, w.collect number = (v, w.session.nextBeat) ∧ v.gear = w.gear ∧ v.plot = w.plot.collected := by
  have hlog := SamePlotAndGear.logAll (w.record (.collect number w.session.nextBeat)) (beatLog w.session.nextBeat)
  exact ⟨_, rfl, hlog.gear_eq, hlog.plot_eq.trans rfl⟩

/-- A round with something to collect: the group of the beat counts its commands, and the chain is about to start them
    (`.start`). -/
theorem nextRound_beat (hreact : NeitherCallsNorFails react) (hlone : w.gear.Lone k frames)
    (hbeat : w.session.nextBeat ≠ []) (context : Context) :
    (w.nextRound react k [] context).On k [.start context w.groups.length w.session.nextBeat] ∧
      (w.nextRound react k [] context).plot = w.plot.collected ∧
      (w.nextRound react k [] context).groups[w.groups.length]? =
        some { owner := k, left := w.session.nextBeat.length } := by
  obtain ⟨v, hcollect, hgear, hplot⟩ := collect_plot (w.openGroup k) (some w.groups.length)
  have hnext : (w.openGroup k).session.nextBeat = w.session.nextBeat := rfl
  -- there is a beat, so the round does not end the scene
  have hround : w.nextRound react k [] context =
      ((v.setFrames k [.start context w.groups.length w.session.nextBeat]).publish react
        ⟨.beatStarted, .beat w.session.nextBeat⟩).goOn k none := by
    cases hcs : w.session.nextBeat with
    | nil => exact absurd hcs hbeat
    | cons c cs => simp only [nextRound, hcollect, hnext, hcs]
  have hpublish := hreact.publish (v.setFrames k [.start context w.groups.length w.session.nextBeat])
    ⟨.beatStarted, .beat w.session.nextBeat⟩
  have hvlone : v.gear.Lone k frames := by
    rw [hgear]
    exact ⟨hlone.chain_eq, hlone.timers_eq, hlone.ready_eq, hlone.active_eq⟩
  -- handlers of the event leave the groups alone
  have hgroups : ((v.setFrames k [.start context w.groups.length w.session.nextBeat]).publish react
      ⟨.beatStarted, .beat w.session.nextBeat⟩).groups =
        w.groups ++ [{ owner := k, left := w.session.nextBeat.length }] :=
    (groups_eq_of_gear hpublish.gear_eq).trans (groups_eq_of_gear hgear)
  rw [hround]
  refine ⟨On.goOn hvlone hpublish.gear_eq, hpublish.plot_eq.trans hplot, ?_⟩
  simp [Stage.goOn, hgroups]

/-- A round with nothing left to collect: the end has been come to, and the chain is about to
    report it (`.reportEnd`). -/
theorem nextRound_end (hreact : NeitherCallsNorFails react) (hlone : w.gear.Lone k frames)
    (hbeat : w.session.nextBeat = []) (context : Context) :
    (w.nextRound react k [] context).On k [.reportEnd, .leave context] ∧
      (w.nextRound react k [] context).plot =
        { w.plot.collected with session := { w.plot.collected.session with finished := true } } := by
  obtain ⟨v, hcollect, hgear, hplot⟩ := collect_plot (w.openGroup k) (some w.groups.length)
  have hnext : (w.openGroup k).session.nextBeat = w.session.nextBeat := rfl
  have hreset := SamePlotAndGear.pass v context .reset
  -- the end is noted in the session before anybody is told
  obtain ⟨u, hugear, huplot, hround⟩ : ∃ u : Stage, u.gear = v.gear ∧
      u.plot = { v.plot with session := { v.plot.session with finished := true } } ∧
      w.nextRound react k [] context = ((u.setFrames k [.reportEnd, .leave context]).publish react
        ⟨.chatEnded, .script u.session.script⟩).goOn k none := by
    refine ⟨_, ?_, ?_, by simp only [nextRound, hcollect, hnext, hbeat]; rfl⟩
    · exact hreset.gear_eq
    · rw [(SamePlotAndGear.log _ _ _).plot_eq, ← hreset.plot_eq]
      rfl
  have hpublish := hreact.publish (u.setFrames k [.reportEnd, .leave context]) ⟨.chatEnded, .script u.session.script⟩
  have hulone : u.gear.Lone k frames := by
    rw [hugear, hgear]
    exact ⟨hlone.chain_eq, hlone.timers_eq, hlone.ready_eq, hlone.active_eq⟩
  rw [hround]
  refine ⟨On.goOn hulone hpublish.gear_eq, hpublish.plot_eq.trans (huplot.trans ?_)⟩
  rw [hplot]
  rfl

/-! ## Playing a beat, and reporting the end -/

/-- Starting chains for commands (`spawn`), all at once: they follow the others in the order of the commands. -/
theorem spawnAll_eq (w : Stage) (g : Nat) (cs : List Command) :
    cs.foldl (fun w c => w.spawn [.command c] (some g)) w =
      { w with chains := w.chains ++ cs.map fun c => { frames := [.command c], group := some g }
               ready := w.ready ++ (cs.zipIdx w.chains.length).map launch } := by
  induction cs generalizing w with
  | nil => simp
  | cons c cs ih =>
    rw [List.foldl_cons, ih]
    simp [spawn, launch]

/-- The commands of a beat have been started, and none of them has run. -/
theorem startBeat_inPlay {cs : List Command} {g : Nat} {others : List Frame} (context : Context)
    (hlone : w.gear.Lone k others) (hgroup : w.groups[g]? = some { owner := k, left := cs.length }) (hcs : cs ≠ []) :
    (w.startBeat k [] context g cs).gear.InPlay k [.beat context (endsOnChoice cs)] g
      (cs.zipIdx w.chains.length) := by
  let u := w.setFrames k [.beat context (endsOnChoice cs)]
  have hulone : u.gear.Lone k [.beat context (endsOnChoice cs)] := hlone.setFrames _
  have hlength : u.chains.length = w.chains.length := by simp [u, setFrames]
  have hready : u.ready = [] := hulone.ready_eq
  -- the gear after the start, written out: one chain for each command, all of them ready
  let G : Gear :=
    { u.gear with chains := u.chains ++ cs.map fun c => { frames := [.command c], group := some g }
                  ready := (cs.zipIdx w.chains.length).map launch }
  have hstart : (w.startBeat k [] context g cs).gear = G := by
    unfold startBeat
    rw [spawnAll_eq]
    simp [Stage.gear, u, G, hlength, hready]
  have htimers : G.timers = [] := hulone.timers_eq
  have hactive : G.active = none := hulone.active_eq
  have hcount : G.count = cs.length := by
    have hlaunched : G.ready.length = cs.length := by simp [G]
    rw [Gear.count, htimers, hactive, hlaunched]
    rfl
  rw [hstart]
  refine ⟨⟨?_, ?_, ?_, ?_, ⟨[], by simp [G]⟩, ?_, ?_⟩, hcount ▸ List.length_pos_iff.mpr hcs⟩
  · -- the advance itself has kept its place
    obtain ⟨hlt, -⟩ := List.getElem?_eq_some_iff.mp hulone.chain_eq
    exact (List.getElem?_append_left hlt).trans hulone.chain_eq
  · rw [hcount]
    exact hgroup
  · -- each command has its own chain, with the number after those that there were
    rintro ⟨c, i⟩ hp
    obtain ⟨hle, hc⟩ := List.mk_mem_zipIdx_iff_le_and_getElem?_sub.mp hp
    rw [← hlength] at hle hc
    simp [G, List.getElem?_append_right hle, hc]
  · rw [List.zipIdx_map_snd]
    exact List.nodup_range'
  · simp [htimers]
  · simp [hactive]

/-- A collected beat is played to its end, by `plays_beat`. -/
theorem On.playsBeat {cs : List Command} {g : Nat} (hfree : UnhinderedDuring react k g w)
    (h : w.On k [.start context g cs]) (hgroup : w.groups[g]? = some { owner := k, left := cs.length }) (hcs : cs ≠ [])
    (hattached : w.session.attached = true) :
    ∃ v, Arrives react k w v ∧ v.score = cs.foldl (Score.play (some g)) w.score ∧
      v.On k [.beat context (endsOnChoice cs)] ∧ Clears react k v := by
  have hunsettled : w.Unsettled g := by
    intro group hopen
    rw [Option.some.inj (hopen.symm.trans hgroup)]
  -- first the frame is run that starts the beat, then the beat is played
  obtain ⟨u, hlone, hscore, hgroups, -, hgoes⟩ := On.runs (hfree.clears hunsettled) h
  have hplaying := startBeat_inPlay context hlone (hgroups ▸ hgroup) hcs
  have hstart : (u.runFrame react k (.start context g cs) []).score = w.score := by
    rw [← hscore]
    simp only [runFrame, startBeat, spawnAll_eq]
    rfl
  have hlisten : (u.runFrame react k (.start context g cs) []).session.attached = true :=
    (congrArg (·.session.attached) hstart).trans hattached
  obtain ⟨v, harrives, hvscore, hon⟩ := plays_beat (hfree.arrives hgoes.to_reflTransGen) hplaying hlisten
  refine ⟨v, hgoes.to_reflTransGen.trans harrives, ?_, hon⟩
  rw [hvscore, List.zipIdx_map_fst, hstart]

/-- The end is reported to the listener (`attached`), whose reaction comes to its end; then the advance leaves its
    context. -/
theorem On.reportsEnd (hfree : Unhindered react k w) (h : w.On k [.reportEnd, .leave context])
    (hattached : w.session.attached = true) :
    ∃ v, Arrives react k w v ∧ v.plot = { w.plot with calls := w.plot.calls ++ [.ended] } ∧ v.AtRest ∧
      v.outcome? k = some none := by
  obtain ⟨u, hlone, hscore, -, -, hgoes⟩ := On.runs hfree.clears h
  have hplot := plot_eq_of_score hscore
  have hlisten : u.session.attached = true := (congrArg (·.session.attached) hplot).trans hattached
  let told := u.see (.ended u.now)
  let acts := react .ended (told.timesFired .ended)
  have hrun : u.runFrame react k .reportEnd [.leave context] =
      ((told.countCue .ended).setFrames k [.acts acts, .leave context]).goOn k none := by
    simp [runFrame, hlisten, reaction, told, acts]
  have htold : u.plot = w.plot → told.plot = { w.plot with calls := w.plot.calls ++ [.ended] } := by
    rintro hsame
    rw [plot_see, hsame]
    rfl
  have hon : (u.runFrame react k .reportEnd [.leave context]).On k [.acts acts, .leave context] := by
    rw [hrun]
    exact On.goOn hlone rfl
  have hacts : ∀ act ∈ acts, act.neitherCallsNorFails = true := hfree.neitherCallsNorFails .ended _
  have harrives := hgoes.to_reflTransGen
  -- the reaction comes to its end, and then only the context is to be left
  obtain ⟨x, hx, hxscore, hxon⟩ := On.reacts hacts (hfree.arrives harrives) hon
  have hxplot := plot_eq_of_score hxscore
  obtain ⟨v, hv, hvplot, hrest⟩ := On.leaves (hfree.arrives (harrives.trans hx)).clears hxon
  refine ⟨v, (harrives.trans hx).trans hv, ?_, hrest⟩
  rw [hvplot, hxplot, hrun]
  exact htold hplot

/-! ## Turns -/

/-- `w.Going k context` — it is an advance's turn: its chain is alone, at its beginning or after a beat, and there is a
    listener. -/
structure Going (k : Nat) (context : Context) (w : Stage) : Prop where
  attached : w.plot.session.attached = true
  on : w.On k [.advance context] ∨
    ∃ onChoice, w.On k [.beat context onChoice] ∧ (onChoice = true → w.plot.session.pending.isSome = true)

/-- An advance that begins on a `context` has looked at it, which does not show. -/
theorem touched (hlone : w.gear.Lone k frames) (context : Context) :
    ((w.touch context).setFrames k []).gear.Lone k [] ∧ ((w.touch context).setFrames k []).plot = w.plot ∧
      ((w.touch context).setFrames k []).bus = w.bus ∧ ((w.touch context).setFrames k []).groups = w.groups := by
  have htouch := SamePlotAndGear.touch w context
  refine ⟨?_, htouch.plot_eq, w.bus_touch context, congrArg Gear.groups htouch.gear_eq⟩
  rw [gear_setFrames, htouch.gear_eq]
  exact hlone.setFrames []

/-- An advance that begins where the scene does not go on (`halted`) has nothing to do. -/
theorem beginAdvance_stops (react : Reactions) (hlone : w.gear.Lone k frames) (hempty : w.nextEvent? = none)
    (hattached : w.session.attached = true) (hhalted : w.plot.solo.halted = true) (context : Context) :
    (w.beginAdvance react k [] context).On k [] ∧ (w.beginAdvance react k [] context).plot = w.plot ∧
      Clears react k (w.beginAdvance react k [] context) := by
  obtain ⟨hxlone, hxplot, hxbus, -⟩ := touched hlone context
  simp only [beginAdvance]
  generalize (w.touch context).setFrames k [] = x at hxlone hxplot hxbus
  have hlisten : x.session.attached = true := (congrArg (·.session.attached) hxplot).trans hattached
  -- whatever is logged, the chain has nothing left to do
  have hon : ∀ level message, ((x.log level message).goOn k none).On k [] ∧
      ((x.log level message).goOn k none).plot = w.plot ∧ Clears react k ((x.log level message).goOn k none) := by
    intro level message
    have hlog := SamePlotAndGear.log x level message
    refine ⟨⟨x.gear, hxlone, .on⟩, hlog.plot_eq.trans hxplot, ?_⟩
    exact .of_empty (nextEvent?_congr hempty hxbus) hxlone.timers_eq
  simp only [hlisten, Bool.not_true, Bool.false_eq_true, if_false]
  split
  · exact hon _ _
  · rename_i hfinished
    cases hpending : x.session.pending with
    | some offer => exact hon _ _
    | none =>
      rw [← hxplot] at hhalted
      -- cannot be: neither has the scene ended nor does a choice wait
      have hrunning : x.plot.solo.halted = false := by
        simp [Solo.halted, Plot.solo, Stage.plot, hpending, hfinished]
      rw [hrunning] at hhalted
      cases hhalted

/-- Otherwise it enters its `context`, and its first round begins. -/
theorem beginAdvance_goesOn (react : Reactions) (hlone : w.gear.Lone k frames) (hattached : w.session.attached = true)
    (hrunning : w.plot.solo.halted = false) (context : Context) :
    ∃ u : Stage, u.gear.Lone k [] ∧ u.plot = w.plot ∧ u.groups = w.groups ∧
      w.beginAdvance react k [] context = u.nextRound react k [] context := by
  obtain ⟨hxlone, hxplot, -, hxgroups⟩ := touched hlone context
  have hpass := SamePlotAndGear.pass ((w.touch context).setFrames k []) context .enter
  refine ⟨((w.touch context).setFrames k []).enter context, hpass.gear_eq ▸ hxlone, hpass.plot_eq.trans hxplot,
    (groups_eq_of_gear hpass.gear_eq).trans hxgroups, ?_⟩
  simp only [beginAdvance]
  generalize (w.touch context).setFrames k [] = x at hxlone hxplot
  have hlisten : x.session.attached = true := (congrArg (·.session.attached) hxplot).trans hattached
  rw [← hxplot] at hrunning
  have hboth : x.session.finished = false ∧ x.session.pending = none := by
    simpa [Solo.halted, Plot.solo, Stage.plot] using hrunning
  simp [hlisten, hboth.1, hboth.2]

/-- After a beat, where the scene does not go on, the advance has only its context to leave. -/
theorem beatOver_stops (react : Reactions) (hlone : w.gear.Lone k frames) (hempty : w.nextEvent? = none)
    (hhalted : w.plot.solo.halted = true) (context : Context) (onChoice : Bool) :
    (w.beatOver react k [] context onChoice).On k [] ∧ (w.beatOver react k [] context onChoice).plot = w.plot ∧
      Clears react k (w.beatOver react k [] context onChoice) := by
  have hpass := SamePlotAndGear.pass (w.setFrames k []) context .leave
  have hstop : (w.session.finished || onChoice || w.session.pending.isSome) = true := by
    have hor : (w.session.finished || w.session.pending.isSome) = true := hhalted
    cases hfinished : w.session.finished
    · rw [hfinished, Bool.false_or] at hor
      simp [hor]
    · rfl
  simp only [beatOver, hstop, if_true]
  exact ⟨On.goOn hlone hpass.gear_eq, hpass.plot_eq, .goOn hlone hempty hpass.gear_eq (bus_pass _ _ _)⟩

theorem beatOver_goesOn (react : Reactions) (hrunning : w.plot.solo.halted = false) (context : Context)
    {onChoice : Bool} (hchoice : onChoice = true → w.plot.session.pending.isSome = true) :
    w.beatOver react k [] context onChoice = w.nextRound react k [] context := by
  have hboth : w.session.finished = false ∧ w.session.pending = none := by
    simpa [Solo.halted, Plot.solo, Stage.plot] using hrunning
  have hother : onChoice = false := by
    cases onChoice with
    | false => rfl
    | true =>
      have hsome : w.session.pending.isSome = true := hchoice rfl
      simp [hboth.2] at hsome
  simp [beatOver, hboth.1, hboth.2, hother]

/-- When the scene does not go on the advance returns, and the `plot` is as it was. -/
theorem Going.stops (hclears : Clears react k w) (h : w.Going k context) (hhalted : w.plot.solo.halted = true) :
    ∃ v, Arrives react k w v ∧ v.plot = w.plot ∧ v.AtRest ∧ v.outcome? k = some none := by
  have hreturn : ∀ u, TransGen (Goes react k) w u → u.plot = w.plot → u.On k [] → Clears react k u →
      ∃ v, Arrives react k w v ∧ v.plot = w.plot ∧ v.AtRest ∧ v.outcome? k = some none := by
    intro u hgoes hplot hon hnext
    obtain ⟨v, hv, hvplot, hrest⟩ := On.returns hnext hon
    exact ⟨v, hgoes.to_reflTransGen.trans hv, hvplot.trans hplot, hrest⟩
  rcases h.on with hon | ⟨onChoice, hon, -⟩
  · obtain ⟨u, hlone, hscore, -, hempty, hgoes⟩ := On.runs hclears hon
    have hplot := plot_eq_of_score hscore
    have hattached : u.session.attached = true := (congrArg (·.session.attached) hplot).trans h.attached
    obtain ⟨hstop, hsame, hnext⟩ := beginAdvance_stops react hlone hempty hattached (hplot ▸ hhalted) context
    exact hreturn _ hgoes (hsame.trans hplot) hstop hnext
  · obtain ⟨u, hlone, hscore, -, hempty, hgoes⟩ := On.runs hclears hon
    have hplot := plot_eq_of_score hscore
    obtain ⟨hstop, hsame, hnext⟩ := beatOver_stops react hlone hempty (hplot ▸ hhalted) context onChoice
    exact hreturn _ hgoes (hsame.trans hplot) hstop hnext

/-- Otherwise it begins a round, on a stage on which it is alone. -/
theorem Going.goesOn (hclears : Clears react k w) (h : w.Going k context) (hrunning : w.plot.solo.halted = false) :
    ∃ (u : Stage) (others : List Frame), u.gear.Lone k others ∧ u.plot = w.plot ∧ u.groups = w.groups ∧
      TransGen (Goes react k) w (u.nextRound react k [] context) := by
  rcases h.on with hon | ⟨onChoice, hon, hchoice⟩
  · obtain ⟨x, hlone, hscore, hgroups, -, hgoes⟩ := On.runs hclears hon
    have hplot := plot_eq_of_score hscore
    have hattached : x.session.attached = true := (congrArg (·.session.attached) hplot).trans h.attached
    obtain ⟨u, hulone, huplot, hugroups, hround⟩ :=
      beginAdvance_goesOn react hlone hattached (hplot ▸ hrunning) context
    exact ⟨u, [], hulone, huplot.trans hplot, hugroups.trans hgroups, hround ▸ hgoes⟩
  · obtain ⟨u, hlone, hscore, hgroups, -, hgoes⟩ := On.runs hclears hon
    have hplot := plot_eq_of_score hscore
    have hround := beatOver_goesOn react (k := k) (hplot ▸ hrunning) context (hplot ▸ hchoice)
    exact ⟨u, _, hlone, hplot, hgroups, hround ▸ hgoes⟩

/-- The group that is opened next has not been settled. -/
theorem unsettled_length (w : Stage) : w.Unsettled w.groups.length := by
  intro group hgroup
  simp at hgroup

/-- A round with a beat to collect, up to its start. -/
theorem Going.collects (hreact : NeitherCallsNorFails react) (hclears : Clears react k w) (h : w.Going k context)
    (hrunning : w.plot.solo.halted = false) (hbeat : w.session.nextBeat ≠ []) :
    ∃ x : Stage, TransGen (Goes react k) w x ∧ x.plot = w.plot.collected ∧
      x.On k [.start context w.groups.length w.session.nextBeat] ∧
      x.groups[w.groups.length]? = some { owner := k, left := w.session.nextBeat.length } := by
  obtain ⟨u, others, hlone, hplot, hgroups, hgoes⟩ := h.goesOn hclears hrunning
  have hsame : u.session.nextBeat = w.session.nextBeat := congrArg (·.session.nextBeat) hplot
  obtain ⟨hon, hround, hgroup⟩ := nextRound_beat hreact hlone (hsame ▸ hbeat) context
  rw [hplot] at hround
  rw [hsame, hgroups] at hon hgroup
  exact ⟨_, hgoes, hround, hon, hgroup⟩

/-- A round with a beat to play: when the beat is over it is the advance's turn again (`Going`). -/
theorem Going.plays (hfree : UnhinderedDuring react k w.groups.length w) (h : w.Going k context)
    (hrunning : w.plot.solo.halted = false) (hbeat : w.plot.session.nextBeat ≠ []) :
    ∃ v, TransGen (Goes react k) w v ∧ v.Going k context ∧ v.plot = w.plot.played := by
  obtain ⟨x, hgoes, hround, hon, hgroup⟩ :=
    h.collects hfree.neitherCallsNorFails (hfree.clears w.unsettled_length) hrunning hbeat
  have hattached : x.session.attached = true := (congrArg (·.session.attached) hround).trans h.attached
  obtain ⟨v, hv, hvscore, hvon, -⟩ :=
    On.playsBeat (hfree.arrives hgoes.to_reflTransGen) hon hgroup hbeat hattached
  have hvplot : v.plot = w.plot.played := by
    have hfold := (congrArg Score.plot hvscore).trans (Score.plot_playAll ..)
    exact hfold.trans (congrArg (List.foldl Plot.play · _) hround)
  refine ⟨v, hgoes.trans_left hv, ⟨?_, .inr ⟨_, hvon, fun hends => ?_⟩⟩, hvplot⟩
  · rw [hvplot, Plot.played, Plot.playAll_attached]
    exact h.attached
  · rw [hvplot]
    exact Plot.playAll_pending _ hends

/-- A round with nothing left to collect ends the scene, and the advance returns. -/
theorem Going.ends (hfree : Unhindered react k w) (h : w.Going k context) (hrunning : w.plot.solo.halted = false)
    (hbeat : w.plot.session.nextBeat = []) :
    ∃ v, TransGen (Goes react k) w v ∧ v.plot = w.plot.ended ∧ v.AtRest ∧ v.outcome? k = some none := by
  obtain ⟨u, others, hlone, hplot, -, hgoes⟩ := h.goesOn hfree.clears hrunning
  have hsame : u.session.nextBeat = w.plot.session.nextBeat := congrArg (·.session.nextBeat) hplot
  obtain ⟨hon, hround⟩ := nextRound_end hfree.neitherCallsNorFails hlone (hsame.trans hbeat) context
  rw [hplot] at hround
  have hattached : (u.nextRound react k [] context).session.attached = true :=
    (congrArg (·.session.attached) hround).trans h.attached
  obtain ⟨v, hv, hvplot, hrest⟩ := On.reportsEnd (hfree.arrives hgoes.to_reflTransGen) hon hattached
  rw [hround] at hvplot
  exact ⟨v, hgoes.trans_left hv, hvplot, hrest⟩

/-- One round of an advance: it takes the interpreter (`solo`) through at least one command, and then it is its turn
    again or all is over. -/
theorem Going.round (hfree : Unhindered react k w) (h : w.Going k context) (hforks : w.plot.ForksEndBeats)
    (hrunning : w.plot.solo.halted = false) :
    ∃ v m, 0 < m ∧ TransGen (Goes react k) w v ∧ v.plot.ForksEndBeats ∧ v.plot.solo = w.plot.solo.run m ∧
      (v.Going k context ∧ (beatStarts v.journal).length = (beatStarts w.journal).length + 1 ∨
        v.plot.solo.halted = true ∧ v.AtRest ∧ v.outcome? k = some none) := by
  by_cases hbeat : w.plot.session.nextBeat = []
  · -- the end of the script: one step of the interpreter reports it
    obtain ⟨v, hgoes, hvplot, hrest⟩ := h.ends hfree hrunning hbeat
    have hsolo : v.plot.solo = w.plot.solo.run 1 := by
      simp only [Solo.run, hrunning, Bool.false_eq_true, if_false, Plot.solo_end hbeat, hvplot]
      simp [Plot.solo, Plot.ended, Plot.collected, hbeat]
    have hvforks : v.plot.ForksEndBeats := by
      rw [hvplot]
      exact ⟨hforks.attached, hforks.choice_ends, hforks.jump_ends, hforks.sound⟩
    have hhalted : v.plot.solo.halted = true := by
      rw [hvplot]
      rfl
    exact ⟨v, 1, Nat.one_pos, hgoes, hvforks, hsolo, .inr ⟨hhalted, hrest⟩⟩
  · obtain ⟨v, hgoes, hgoing, hvplot⟩ := h.plays (hfree.during _) hrunning hbeat
    have hvforks : v.plot.ForksEndBeats := by
      rw [hvplot]
      exact hforks.collected.playAll _
    have hstarts : v.plot.starts.length = w.plot.starts.length + 1 := by
      rw [hvplot]
      exact w.plot.length_starts_played hbeat
    exact ⟨v, _, List.length_pos_iff.mpr hbeat, hgoes, hvforks, hvplot ▸ hforks.solo_round hrunning,
      .inl ⟨hgoing, hstarts⟩⟩

end Stage

end ChatScene

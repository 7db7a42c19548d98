/-
  Scenes whose jumps only go forward come to an end.

  A beat is collected before its commands run, so a jump may lead back behind the cursor, into the very beat that it
  belongs to.  It never leads back behind the command that jumps, though, and that command stands at the start of the
  beat or after it: the next beat starts after the one before.  An advance therefore plays finitely many beats, and so
  do all advances of a scene together, whatever is chosen in between.

  1. **Scripts** — `Script.Forward` asks that each jump names a label that is first defined after the jump, or none.

  2. **Plots** — on a plot an advance is the relation `Plot.Advances`: it plays a beat where the scene goes on.  A plot
     `Climbs` if beats have started at larger and larger positions, all before the cursor.  A beat leaves the cursor
     after its start (`Climbs.played`), so an advance comes to its end (`Climbs.advances`).

  3. **Stages** — what an advance does to the plot it does to the stage (`Stage.Going.advances`), if nothing holds it
     up.

  4. **Consoles** — a round answers one choice (`Console.Ready.round`), and after it the cursor is further on; so there
     are finitely many rounds (`Console.Ready.plays`).

  5. **Main result** (`forward_scene_ends`) — a forward scene that is played from its beginning ends, tells the listener
     so once and as the last thing, and starts no more beats than it has commands.

  Two things can hold a scene up although all its jumps go forward: a handler that publishes for ever, and a pause that
  never ends.  Both are assumed away by `Console.Unhindered`, and `forward_scene_held_up` shows that both must be.
-/
import Mathlib.Data.List.Nodup
import Mathlib.Data.List.Perm.Subperm
import ChatScene.Console.Basic
import ChatScene.Proofs.Isolation
import ChatScene.Proofs.Refinement

namespace ChatScene

open Relation (ReflTransGen)

/-! ## Forward scripts -/

/-- Every jump of a script names a label that is not defined, or one that is first defined after the jump. -/
def Script.Forward (s : Script) : Prop :=
  ∀ (i : Nat) (c : Command), s.commands[i]? = some c → ∀ label, c.goal? = some label →
    ∀ j, firstLabel label s.commands = some j → i < j

/-- A jump that is taken leads past the command that jumps. -/
theorem Script.Forward.lt {s : Script} (h : s.Forward) (hsound : s.Sound) {i j : Nat} {c : Command}
    {store : List (String × String)} (hc : s.commands[i]? = some c) (hj : (c.target? store).bind s.find? = some j) :
    i < j := by
  obtain ⟨label, htarget, hfind⟩ := Option.bind_eq_some_iff.mp hj
  rw [hsound.find?_eq] at hfind
  exact h i c hc label (Command.goal?_of_target? htarget) j hfind

/-! ## What an advance does to the plot -/

namespace Plot

variable {p q : Plot}

/-- An advance takes one plot to another: it returns where the scene does not go on, and plays a beat or reports the end
    otherwise. -/
inductive Advances : Plot → Plot → Prop where
  | stops {p : Plot} : p.solo.halted = true → Advances p p
  | plays {p q : Plot} : p.solo.halted = false → p.session.nextBeat ≠ [] → Advances p.played q → Advances p q
  | ends {p : Plot} : p.solo.halted = false → p.session.nextBeat = [] → Advances p p.ended

/-- A command moves the cursor to the target of its jump (`target?`), if it takes one. -/
theorem cursor_play (p : Plot) (c : Command) :
    (p.play c).session.cursor = ((c.target? p.session.store).bind p.session.script.find?).getD p.session.cursor := by
  simp only [Plot.play, Session.afterCommand]
  split
  · rename_i hbody
    simp [Command.target?, hbody]
  · split
    · rename_i hfind
      rw [hfind]
      rfl
    · rename_i hfind
      rw [hfind]
      rfl

/-- A command changes neither the script nor the settings, and does not end the scene. -/
theorem same_play (p : Plot) (c : Command) :
    (p.play c).session.script = p.session.script ∧ (p.play c).session.finished = p.session.finished := by
  simp only [Plot.play, Session.afterCommand]
  split
  · exact ⟨rfl, rfl⟩
  · split <;> exact ⟨rfl, rfl⟩

/-- The listener is not told by a command that the scene has ended. -/
theorem ended_notMem_calls (c : Command) : Call.ended ∉ c.calls := by
  unfold Command.calls
  split <;> simp

/-- `p.Follows q` — the plot has gone on from an earlier one without the end of the scene. -/
structure Follows (p q : Plot) : Prop where
  script_eq : q.session.script = p.session.script
  finished_eq : q.session.finished = p.session.finished
  attached_eq : q.session.attached = p.session.attached
  calls_eq : ∃ shown, q.calls = p.calls ++ shown ∧ Call.ended ∉ shown

theorem Follows.refl (p : Plot) : Follows p p := ⟨rfl, rfl, rfl, [], by simp⟩

theorem Follows.trans {r : Plot} (h : Follows p q) (h' : Follows q r) : Follows p r := by
  obtain ⟨shown, hcalls, hshown⟩ := h.calls_eq
  obtain ⟨more, hcalls', hmore⟩ := h'.calls_eq
  refine ⟨h'.script_eq.trans h.script_eq, h'.finished_eq.trans h.finished_eq, h'.attached_eq.trans h.attached_eq,
    shown ++ more, ?_, ?_⟩
  · rw [hcalls', hcalls, List.append_assoc]
  · simp [hshown, hmore]

theorem follows_play (p : Plot) (c : Command) : Follows p (p.play c) :=
  ⟨(p.same_play c).1, (p.same_play c).2, p.play_attached c, c.calls, rfl, ended_notMem_calls c⟩

theorem follows_playAll (p : Plot) (cs : List Command) : Follows p (cs.foldl Plot.play p) := by
  induction cs generalizing p with
  | nil => exact .refl p
  | cons c cs ih => exact (p.follows_play c).trans (ih (p.play c))

/-- A beat is played without the end of the scene. -/
theorem follows_played (p : Plot) : Follows p p.played := by
  have hcollected : Follows p p.collected := ⟨rfl, rfl, rfl, [], by simp [collected]⟩
  exact hcollected.trans (p.collected.follows_playAll _)

/-! ## Climbing -/

/-- The cursor is in a forward script, beats have started one after the other, and all of them before the cursor. -/
structure Climbs (p : Plot) : Prop where
  forward : p.session.script.Forward
  inRange : p.session.InRange
  place_eq : p.place = p.session.cursor
  ascending : p.starts.Pairwise (· < ·)
  below : ∀ start ∈ p.starts, start < p.session.cursor

/-- Commands that stand at a position or after it leave the cursor after that position, if it was there before: each
    jump leads past its own command (`Script.Forward`). -/
theorem playAll_past {n : Nat} (hforward : p.session.script.Forward) (hsound : p.session.script.Sound)
    {cs : List Command} (hcs : ∀ c ∈ cs, ∃ i, n ≤ i ∧ p.session.script.commands[i]? = some c)
    (hlt : n < p.session.cursor) (hle : p.session.cursor ≤ p.session.script.commands.length)
    (hplace : p.place = p.session.cursor) :
    n < (cs.foldl Plot.play p).session.cursor ∧
      (cs.foldl Plot.play p).session.cursor ≤ p.session.script.commands.length ∧
      (cs.foldl Plot.play p).place = (cs.foldl Plot.play p).session.cursor := by
  -- on the commands: each of them leaves the cursor where it is or jumps past itself
  induction cs generalizing p with
  | nil => exact ⟨hlt, hle, hplace⟩
  | cons c cs ih =>
    have hscript := (p.same_play c).1
    have hcursor := p.cursor_play c
    have hplace' : (p.play c).place = (p.play c).session.cursor := by
      rw [hcursor, ← hplace]
      rfl
    have hbounds : n < (p.play c).session.cursor ∧
        (p.play c).session.cursor ≤ p.session.script.commands.length := by
      rw [hcursor]
      cases hfind : (c.target? p.session.store).bind p.session.script.find? with
      | none => exact ⟨hlt, hle⟩
      | some j =>
        obtain ⟨i, hni, hi⟩ := hcs c List.mem_cons_self
        obtain ⟨label, -, hlabel⟩ := Option.bind_eq_some_iff.mp hfind
        exact ⟨Nat.lt_of_le_of_lt hni (hforward.lt hsound hi hfind), Nat.le_of_lt (hsound.find?_lt hlabel)⟩
    have hrest := ih (p := p.play c) (hscript ▸ hforward) (hscript ▸ hsound)
      (fun d hd => hscript ▸ hcs d (List.mem_cons_of_mem c hd)) hbounds.1 (hscript ▸ hbounds.2) hplace'
    rw [hscript] at hrest
    exact hrest

/-- The commands of the next beat (`nextBeat`) stand at the cursor or after it. -/
theorem mem_nextBeat_position {s : Session} {c : Command} (h : c ∈ s.nextBeat) :
    ∃ i, s.cursor ≤ i ∧ s.script.commands[i]? = some c := by
  obtain ⟨k, hk, rfl⟩ := List.mem_iff_getElem.mp h
  exact ⟨s.cursor + k, Nat.le_add_right _ _, s.nextBeat_getElem? hk⟩

/-- A beat that has been `played` leaves the cursor after its start.  This is where jumps that go forward are needed. -/
theorem Climbs.played (h : p.Climbs) (hbeat : p.session.nextBeat ≠ []) :
    p.played.Climbs ∧ p.session.cursor < p.played.session.cursor := by
  have hlength : 0 < p.session.nextBeat.length := List.length_pos_iff.mpr hbeat
  -- each command of the beat leaves the cursor past the beat, since jumps go forward
  have hpast : p.session.cursor < p.played.session.cursor ∧
      p.played.session.cursor ≤ p.session.script.commands.length ∧ p.played.place = p.played.session.cursor := by
    refine playAll_past (p := p.collected) h.forward h.inRange.sound (fun c hc => mem_nextBeat_position hc) ?_
      h.inRange.collect ?_
    · show p.session.cursor < p.session.cursor + p.session.nextBeat.length
      omega
    · show p.place + p.session.nextBeat.length = p.session.cursor + p.session.nextBeat.length
      rw [h.place_eq]
  obtain ⟨hlt, hle, hplace⟩ := hpast
  have hscript := p.follows_played.script_eq
  -- the beat began where the cursor was
  have hstarts : p.played.starts = p.starts ++ [p.session.cursor] := by
    have hcollected : p.collected.starts = p.starts ++ [p.place] := by
      simp [collected, hbeat]
    rw [Plot.played, playAll_starts, hcollected, h.place_eq]
  refine ⟨⟨hscript ▸ h.forward, ⟨hscript ▸ h.inRange.sound, hscript ▸ hle⟩, hplace, ?_, ?_⟩, hlt⟩
  · rw [hstarts, List.pairwise_append]
    refine ⟨h.ascending, List.pairwise_singleton _ _, fun start hstart other hother => ?_⟩
    rw [List.mem_singleton.mp hother]
    exact h.below start hstart
  · intro start hstart
    rw [hstarts] at hstart
    rcases List.mem_append.mp hstart with hstart | hstart
    · exact Nat.lt_trans (h.below start hstart) hlt
    · rw [List.mem_singleton.mp hstart]
      exact hlt

theorem Climbs.ended (h : p.Climbs) (hbeat : p.session.nextBeat = []) : p.ended.Climbs := by
  have hcursor : p.ended.session.cursor = p.session.cursor := by simp [Plot.ended, collected, hbeat]
  have hplace : p.ended.place = p.place := by simp [Plot.ended, collected, hbeat]
  have hstarts : p.ended.starts = p.starts := by simp [Plot.ended, collected, hbeat]
  refine ⟨h.forward, ⟨h.inRange.sound, ?_⟩, ?_, ?_, ?_⟩
  · rw [hcursor]
    exact h.inRange.cursor_le
  · rw [hplace, hcursor]
    exact h.place_eq
  · rw [hstarts]
    exact h.ascending
  · rw [hstarts, hcursor]
    exact h.below

/-- There are no more `starts` than commands, since they are different positions of the script. -/
theorem Climbs.length_starts_le (h : p.Climbs) : p.starts.length ≤ p.session.script.commands.length := by
  have hnodup : p.starts.Nodup := h.ascending.imp fun hlt => Nat.ne_of_lt hlt
  have hsubset : p.starts ⊆ List.range p.session.script.commands.length := by
    intro start hstart
    exact List.mem_range.mpr (Nat.lt_of_lt_of_le (h.below start hstart) h.inRange.cursor_le)
  have hle := (hnodup.subperm hsubset).length_le
  rwa [List.length_range] at hle

/-- An advance on a climbing (`Climbs`) plot comes to its end, by induction on how far the cursor is from the end of
    the script. -/
theorem Climbs.advances (h : p.Climbs) : ∃ q, p.Advances q := by
  -- on the commands that are left after the cursor
  induction hleft : p.session.script.commands.length - p.session.cursor using Nat.strongRecOn generalizing p with
  | ind left ih =>
    cases hhalted : p.solo.halted with
    | true => exact ⟨p, .stops hhalted⟩
    | false =>
      by_cases hbeat : p.session.nextBeat = []
      · exact ⟨p.ended, .ends hhalted hbeat⟩
      · obtain ⟨hclimbs, hlt⟩ := h.played hbeat
        have hle := hclimbs.inRange.cursor_le
        have hscript := p.follows_played.script_eq
        rw [hscript] at hle
        have hless : p.played.session.script.commands.length - p.played.session.cursor < left := by
          rw [hscript]
          omega
        obtain ⟨q, hq⟩ := ih _ hless hclimbs rfl
        exact ⟨q, .plays hhalted hbeat hq⟩

/-- `p.Closes q` — the end of a scene has been reported, once. -/
structure Closes (p q : Plot) : Prop where
  script_eq : q.session.script = p.session.script
  finished_eq : q.session.finished = true
  pending_eq : q.session.pending = none
  calls_eq : ∃ shown, q.calls = p.calls ++ shown ++ [.ended] ∧ Call.ended ∉ shown

/-- A part of a scene and then its end. -/
theorem Follows.closes {r : Plot} (h : Follows p q) (h' : Closes q r) : Closes p r := by
  obtain ⟨shown, hcalls, hshown⟩ := h.calls_eq
  obtain ⟨more, hcalls', hmore⟩ := h'.calls_eq
  refine ⟨h'.script_eq.trans h.script_eq, h'.finished_eq, h'.pending_eq, shown ++ more, ?_, ?_⟩
  · rw [hcalls', hcalls, List.append_assoc p.calls]
  · simp [hshown, hmore]

/-- The scene goes on just while it has not ended and no choice waits. -/
theorem halted_eq_false : p.solo.halted = false ↔ p.session.finished = false ∧ p.session.pending = none := by
  simp [Solo.halted, Plot.solo]

/-- An advance of a scene that climbs (`Climbs`) ends the scene, or comes to a choice with the cursor further on. -/
theorem Advances.climbs (h : p.Advances q) (hclimbs : p.Climbs) (hfinished : p.session.finished = false) :
    q.Climbs ∧ (Closes p q ∨ Follows p q ∧ p.session.cursor ≤ q.session.cursor ∧ q.session.pending.isSome = true ∧
      (p.session.pending = none → p.session.cursor < q.session.cursor)) := by
  induction h with
  | @stops p hhalted =>
    have hpending : p.session.pending.isSome = true := by simpa [Solo.halted, Plot.solo, hfinished] using hhalted
    refine ⟨hclimbs, .inr ⟨.refl p, Nat.le_refl _, hpending, fun hnone => ?_⟩⟩
    rw [hnone] at hpending
    cases hpending
  | @plays p q hhalted hbeat _ ih =>
    obtain ⟨hplayed, hlt⟩ := hclimbs.played hbeat
    have hfollows := p.follows_played
    obtain ⟨hq, hclose | ⟨hgoes, hle, hpending, -⟩⟩ := ih hplayed (hfollows.finished_eq.trans hfinished)
    · exact ⟨hq, .inl (hfollows.closes hclose)⟩
    · exact ⟨hq, .inr ⟨hfollows.trans hgoes, by omega, hpending, fun _ => by omega⟩⟩
  | @ends p hhalted hbeat =>
    exact ⟨hclimbs.ended hbeat, .inl ⟨rfl, rfl, (halted_eq_false.mp hhalted).2, [], by simp [Plot.ended], by simp⟩⟩

end Plot

/-! ## Advances on the stage -/

namespace Stage

variable {react : Reactions} {w v : Stage} {k fuel more : Nat} {context : Context}

/-- An advance does to the stage what it does to the `plot`, one beat after the other. -/
theorem Going.advances (hfree : Unhindered react k w) (h : w.Going k context) {q : Plot}
    (hadvances : w.plot.Advances q) :
    ∃ v, Arrives react k w v ∧ v.plot = q ∧ v.AtRest ∧ v.outcome? k = some none := by
  generalize hp : w.plot = p at hadvances
  induction hadvances generalizing w with
  | stops hhalted =>
    obtain ⟨v, harrives, hplot, hrest⟩ := h.stops hfree.clears (hp ▸ hhalted)
    exact ⟨v, harrives, hplot.trans hp, hrest⟩
  | plays hhalted hbeat _ ih =>
    obtain ⟨u, hgoes, hgoing, hplot⟩ := h.plays (hfree.during _) (hp ▸ hhalted) (hp ▸ hbeat)
    have harrives := hgoes.to_reflTransGen
    obtain ⟨v, hv, hlast⟩ := ih (hfree.arrives harrives) hgoing (hplot.trans (by rw [hp]))
    exact ⟨v, harrives.trans hv, hlast⟩
  | ends hhalted hbeat =>
    obtain ⟨v, hgoes, hplot, hrest⟩ := h.ends hfree (hp ▸ hhalted) (hp ▸ hbeat)
    exact ⟨v, hgoes.to_reflTransGen, hplot.trans (by rw [hp]), hrest⟩

/-- The host advances a scene from a stage at rest (`AtRest`), and gets it back at rest. -/
theorem AtRest.advances (h : w.AtRest) (hattached : w.plot.session.attached = true)
    (hfree : Unhindered react w.chains.length (w.spawn [.advance context] none)) {q : Plot}
    (hadvances : w.plot.Advances q) :
    ∃ v N, (∀ fuel ≥ N, w.advance react fuel context = some (v, none)) ∧ v.plot = q ∧ v.AtRest := by
  obtain ⟨v, harrives, hplot, hrest, houtcome⟩ := (h.going hattached context).advances hfree hadvances
  obtain ⟨N, hN⟩ := Arrives.await harrives hrest houtcome
  exact ⟨v, N, fun fuel hfuel => await_mono hN hfuel, hplot, hrest⟩

theorem AtRest.setsVariable (hreact : NeitherCallsNorFails react) (h : w.AtRest) {name value : String}
    (hdrains : Drains react (w.carryOut react (.setVariable name value)).1) :
    ∃ v N, (∀ fuel ≥ N, w.doAct react fuel (.setVariable name value) = some (v, none)) ∧
      v.plot = (w.record (.answer name value)).plot ∧ v.AtRest := by
  obtain ⟨hfailure, hgear, hplot⟩ := setVariable_samePlotAndGear hreact w name value
  obtain ⟨N, v, hN⟩ := hdrains.rest hreact (hgear ▸ h.idle)
  obtain ⟨hsamePlot, hrest⟩ := rest_idle hreact (hgear ▸ h.idle) hN
  refine ⟨v, N, fun fuel hfuel => ?_, hsamePlot.plot_eq.trans hplot, hrest⟩
  simp only [doAct, rest_mono hN hfuel, hfailure]
  rfl

end Stage

/-! ## The console -/

namespace Console

variable {react : Reactions} {c c' : Console}

/-- `c.Rounds react c'` — one round after which the console goes on. -/
def Rounds (react : Reactions) (c c' : Console) : Prop := ∃ fuel, c.round fuel react = some (c', none)

/-- The stages of a round: the one that it starts from, those while the session advances, and those while the variable
    is set. -/
inductive Passes (react : Reactions) (c : Console) : Stage → Prop where
  | starts : Passes react c c.stage
  | advances {w : Stage} : (HostCall.advance .own).Passes react c.stage w → Passes react c w
  | answers {fuel : Nat} {v w : Stage} {offer : Offer} {value : String} :
      c.stage.advance react fuel .own = some (v, none) → v.session.pending = some offer →
      ((c.display v).consult offer).2 = .ok value →
      (HostCall.perform (.setVariable offer.var value)).Passes react v w → Passes react c w

/-- `c.RoundUnblocked react` — nothing holds up a round: on each of its stages what is published comes to an end, and
    time helps the advance where nothing else does. -/
def RoundUnblocked (react : Reactions) (c : Console) : Prop :=
  ∀ w, c.Passes react w → Stage.Unblocked react c.stage.chains.length w

/-- `c₁.Unhindered react` — nothing holds up the scene while it is played: none of the rounds until it has ended. -/
def Unhindered (react : Reactions) (c₁ : Console) : Prop :=
  ∀ c, ReflTransGen (fun c c' => c.stage.session.finished = false ∧ Rounds react c c') c₁ c →
    c.stage.session.finished = false → c.RoundUnblocked react

/-- The console at the beginning of a round, on a scene that can only go forward. -/
structure Ready (c : Console) : Prop where
  atRest : c.stage.AtRest
  climbs : c.stage.plot.Climbs
  attached : c.stage.plot.session.attached = true
  running : c.stage.plot.session.finished = false
  answered : c.stage.plot.session.pending = none
  chosen : ∃ choose, c.answers = .chosen choose

theorem Unhindered.round (h : c.Unhindered react) (hrunning : c.stage.session.finished = false)
    (hround : Rounds react c c') : c'.Unhindered react :=
  fun c₂ hc₂ => h c₂ (.head ⟨hrunning, hround⟩ hc₂)

/-- A choice is answered by whoever chooses, and the answer is recorded. -/
theorem answer_chosen (hreact : NeitherCallsNorFails react) (hrest : c.stage.AtRest) {offer : Offer}
    (hpending : c.stage.session.pending = some offer) {choose : Nat → Offer → String}
    (hchosen : c.answers = .chosen choose)
    (hdrains : Stage.Drains react (c.stage.carryOut react (.setVariable offer.var (choose 0 offer))).1) :
    ∃ c' N, (∀ fuel ≥ N, c.answer fuel react = some (c', none)) ∧ c'.stage.AtRest ∧
      c'.stage.plot = (c.stage.record (.answer offer.var (choose 0 offer))).plot ∧
      ∃ choose', c'.answers = .chosen choose' := by
  obtain ⟨v, N, hset, hplot, hvrest⟩ := hrest.setsVariable hreact hdrains
  let asked := (c.consult offer).1
  refine ⟨asked.display v, N, fun fuel hfuel => ?_, hvrest, hplot, fun n => choose (n + 1), ?_⟩
  · have hset' : asked.stage.doAct react fuel (.setVariable offer.var (choose 0 offer)) = some (v, none) :=
      hset fuel hfuel
    have hconsult : c.consult offer = (asked, .ok (choose 0 offer)) := by
      simp [asked, consult, Answers.reply, hchosen]
    simp [answer, hpending, hconsult, hset']
  · simp [asked, display, consult, Answers.reply, hchosen]

/-- A round ends the scene, or leaves the console ready for another one (`Ready`) with the cursor further on. -/
theorem Ready.round (hreact : NeitherCallsNorFails react) (h : c.Ready) (hfree : c.RoundUnblocked react) :
    ∃ c' N, (∀ fuel ≥ N, c.round fuel react = some (c', none)) ∧ c'.stage.plot.Climbs ∧
      (Plot.Closes c.stage.plot c'.stage.plot ∨
        c'.Ready ∧ Plot.Follows c.stage.plot c'.stage.plot ∧
          c.stage.plot.session.cursor < c'.stage.plot.session.cursor) := by
  obtain ⟨q, hadvances⟩ := h.climbs.advances
  obtain ⟨v, N, hadvance, hplot, hrest⟩ :=
    h.atRest.advances h.attached ⟨hreact, fun w hw => hfree w (.advances hw)⟩ hadvances
  obtain ⟨hclimbs, hclose | ⟨hfollows, -, hpending, hlt⟩⟩ := hadvances.climbs h.climbs h.running
  · -- at the end there is nothing to answer
    subst hplot
    have hnone : (c.display v).stage.session.pending = none := hclose.pending_eq
    refine ⟨c.display v, N, fun fuel hfuel => ?_, hclimbs, .inl hclose⟩
    simp [Console.round, hadvance fuel hfuel, answer, hnone]
  · subst hplot
    obtain ⟨offer, hoffer⟩ := Option.isSome_iff_exists.mp hpending
    obtain ⟨choose, hchosen⟩ := h.chosen
    have hdrains : Stage.Drains react (v.carryOut react (.setVariable offer.var (choose 0 offer))).1 := by
      have hvalue : ((c.display v).consult offer).2 = .ok (choose 0 offer) := by
        simp [consult, Answers.reply, display, hchosen]
      exact (hfree _ (.answers (hadvance N (Nat.le_refl _)) hoffer hvalue .refl)).drains
    obtain ⟨c', M, hanswer, hrest', hplot', hchosen'⟩ :=
      answer_chosen (c := c.display v) hreact hrest hoffer hchosen hdrains
    have hset : Plot.Follows v.plot c'.stage.plot := by
      rw [hplot']
      exact ⟨rfl, rfl, rfl, [], by simp [display, Stage.plot, Stage.record, Stage.calls]⟩
    have hcursor : c'.stage.plot.session.cursor = v.plot.session.cursor := by
      rw [hplot']
      rfl
    have hclimbs' : c'.stage.plot.Climbs := by
      rw [hplot']
      exact ⟨hclimbs.forward, ⟨hclimbs.inRange.sound, hclimbs.inRange.cursor_le⟩, hclimbs.place_eq, hclimbs.ascending,
        hclimbs.below⟩
    have hround : ∀ fuel ≥ max N M, c.round fuel react = some (c', none) := by
      intro fuel hfuel
      have hfirst := hadvance fuel (by omega)
      have hsecond := hanswer fuel (by omega)
      simp [Console.round, hfirst, hsecond]
    have hboth := hfollows.trans hset
    refine ⟨c', max N M, hround, hclimbs', .inr ⟨⟨hrest', hclimbs', ?_, ?_, ?_, hchosen'⟩, hboth, ?_⟩⟩
    · exact hboth.attached_eq.trans h.attached
    · exact hboth.finished_eq.trans h.running
    · rw [hplot']
      rfl
    · rw [hcursor]
      exact hlt h.answered

/-- A console that is `Ready` plays the scene to its end, by induction on how far the cursor has to go. -/
theorem Ready.plays (hreact : NeitherCallsNorFails react) (h : c.Ready) (hfree : c.Unhindered react) :
    ∃ c' N, (∀ fuel ≥ N, ∀ rounds ≥ N, c.playOn fuel react rounds = some (c', none)) ∧ c'.stage.plot.Climbs ∧
      Plot.Closes c.stage.plot c'.stage.plot := by
  -- on the commands that are left after the cursor, as for a single advance
  induction hleft : c.stage.plot.session.script.commands.length - c.stage.plot.session.cursor
    using Nat.strongRecOn generalizing c with
  | ind left ih =>
    have hrunning : c.stage.session.finished = false := h.running
    obtain ⟨u, N, hround, hclimbs, hclose | ⟨hready, hfollows, hlt⟩⟩ := h.round hreact (hfree c .refl hrunning)
    · have hfinished : u.stage.session.finished = true := hclose.finished_eq
      refine ⟨u, N + 2, fun fuel hfuel rounds hrounds => ?_, hclimbs, hclose⟩
      obtain ⟨n, rfl⟩ : ∃ n, rounds = n + 2 := ⟨rounds - 2, by omega⟩
      simp [playOn, hrunning, hround fuel (by omega), hfinished]
    · have hle := hready.climbs.inRange.cursor_le
      have hless : u.stage.plot.session.script.commands.length - u.stage.plot.session.cursor < left := by
        rw [hfollows.script_eq] at hle ⊢
        omega
      have hufree := hfree.round hrunning ⟨N, hround N (Nat.le_refl N)⟩
      obtain ⟨c', M, hplay, hlast, hclose⟩ := ih _ hless hready hufree rfl
      refine ⟨c', max N M + 1, fun fuel hfuel rounds hrounds => ?_, hlast, hfollows.closes hclose⟩
      obtain ⟨n, rfl⟩ : ∃ n, rounds = n + 1 := ⟨rounds - 1, by omega⟩
      have hrest := hplay fuel (by omega) n (by omega)
      simp [playOn, hrunning, hround fuel (by omega), hrest]

/-! ## Scenes that have been played -/

/-- A round that returns has advanced, and has set the variable if a choice waited. -/
theorem advance_of_round {fuel : Nat} {r : Console × Option ConsoleFailure} (h : c.round fuel react = some r) :
    ∃ v failure, c.stage.advance react fuel .own = some (v, failure) ∧
      (failure = none → ∀ offer value, v.session.pending = some offer →
        ((c.display v).consult offer).2 = .ok value →
        (v.doAct react fuel (.setVariable offer.var value)).isSome = true) := by
  unfold Console.round at h
  split at h
  · cases h
  · next v failure hadvance => exact ⟨v, some failure, hadvance, fun hnone => by cases hnone⟩
  · next v hadvance =>
    refine ⟨v, none, hadvance, fun _ offer value hoffer hvalue => ?_⟩
    have hconsult : (c.display v).consult offer = (((c.display v).consult offer).1, .ok value) := by rw [← hvalue]
    have hpending : (c.display v).stage.session.pending = some offer := hoffer
    simp only [answer, hpending] at h
    rw [hconsult] at h
    obtain ⟨set, hset, -⟩ := Option.map_eq_some_iff.mp h
    exact Option.isSome_iff_exists.mpr ⟨set, hset⟩

/-- More fuel does not change what a round comes to. -/
theorem round_mono {fuel more : Nat} {r : Console × Option ConsoleFailure} (h : c.round fuel react = some r)
    (hle : fuel ≤ more) : c.round more react = some r := by
  unfold Console.round at h
  split at h
  · cases h
  · next v failure hadvance =>
    rw [← h, Console.round, show c.stage.advance react more .own = _ from Stage.await_mono hadvance hle]
  · -- the advance takes the same course, and then so does setting the variable
    next v hadvance =>
    rw [Console.round, show c.stage.advance react more .own = _ from Stage.await_mono hadvance hle]
    simp only [answer] at h ⊢
    split at h
    · exact h
    · next offer _ =>
      split at h
      · exact h
      · next asked value _ =>
        obtain ⟨set, hset, rfl⟩ := Option.map_eq_some_iff.mp h
        have hrun : (HostCall.perform (.setVariable offer.var value)).run react fuel asked.stage = some set := hset
        exact Option.map_eq_some_iff.mpr ⟨set, HostCall.run_mono hrun hle, rfl⟩

theorem round_unique {fuel more : Nat} {r r' : Console × Option ConsoleFailure} (h : c.round fuel react = some r)
    (h' : c.round more react = some r') : r' = r := by
  rcases Nat.le_total fuel more with hle | hle
  · exact Option.some.inj (h'.symm.trans (round_mono h hle))
  · exact Option.some.inj ((round_mono h' hle).symm.trans h)

/-- Nothing holds up a round (`RoundUnblocked`) that returns: had something held it up, it would not have returned. -/
theorem Ready.unblocked_of_round (hreact : NeitherCallsNorFails react) (h : c.Ready) {fuel : Nat}
    {r : Console × Option ConsoleFailure} (hround : c.round fuel react = some r) : c.RoundUnblocked react := by
  obtain ⟨v, failure, hadvance, hset⟩ := advance_of_round hround
  have hrun : (HostCall.advance .own).run react fuel c.stage = some (v, failure) := hadvance
  have hfree := Stage.Unhindered.of_await hreact hadvance
  intro w hw
  -- each stage of the round by itself
  cases hw with
  | starts =>
    have hrest : c.stage.rest react 1 = some c.stage := by simp [Stage.rest, h.atRest.step_eq]
    exact Stage.unblocked_of_rest hreact h.atRest.idle hrest .refl
  | advances hw => exact hfree.unblocked w hw
  | @answers _ v' _ offer value hadvance' hoffer hvalue hw =>
    cases HostCall.run_unique hrun hadvance'
    obtain ⟨q, hadvances⟩ := h.climbs.advances
    obtain ⟨u, N, hadvance'', -, hrest⟩ := h.atRest.advances h.attached hfree hadvances
    cases HostCall.run_unique hrun (hadvance'' N (Nat.le_refl N))
    obtain ⟨set, hset⟩ := Option.isSome_iff_exists.mp (hset rfl offer value hoffer hvalue)
    obtain ⟨x, hx, -⟩ := Option.map_eq_some_iff.mp hset
    have hgear := (Stage.setVariable_samePlotAndGear hreact v offer.var value).2.1
    exact Stage.unblocked_of_rest hreact (hgear ▸ hrest.idle) hx hw

/-- Nor does anything hold up a scene that has been played to its end. -/
theorem Ready.unhindered_of_playOn (hreact : NeitherCallsNorFails react) (h : c.Ready) {fuel rounds : Nat}
    {r : Console × Option ConsoleFailure} (hplay : c.playOn fuel react rounds = some r) : c.Unhindered react := by
  induction rounds generalizing c with
  | zero => cases hplay
  | succ rounds ih =>
    have hrunning : c.stage.session.finished = false := h.running
    simp only [playOn, hrunning] at hplay
    cases hround : c.round fuel react with
    | none => simp [hround] at hplay
    | some first =>
      have hfree := h.unblocked_of_round hreact hround
      obtain ⟨u, N, hu, -, hnext⟩ := h.round hreact hfree
      have hfirst : first = (u, none) := round_unique (hu N (Nat.le_refl N)) hround
      intro c₂ hc₂ hrunning₂
      rcases ReflTransGen.cases_head hc₂ with rfl | ⟨c', ⟨-, fuel', hround'⟩, htail⟩
      · exact hfree
      · cases round_unique (hu N (Nat.le_refl N)) hround'
        rcases hnext with hclose | ⟨hready, -, -⟩
        · -- the scene has ended, and there is no other round
          have hfinished : u.stage.session.finished = true := hclose.finished_eq
          rcases ReflTransGen.cases_head htail with rfl | ⟨_, ⟨hgoes, -⟩, -⟩
          · simp [hfinished] at hrunning₂
          · simp [hfinished] at hgoes
        · simp only [hround, hfirst] at hplay
          exact ih hready hplay c₂ htail hrunning₂

/-- A forward scene that has been loaded is ready for its first round (`Ready`). -/
theorem ready_of_load {c₀ c₁ : Console} {script : Script} {fuel : Nat} (hreact : NeitherCallsNorFails react)
    (hidle : c₀.stage.gear.Idle) (hattached : c₀.stage.session.attached = true) (hsound : script.Sound)
    (hforward : script.Forward) (hchosen : ∃ choose, c₀.answers = .chosen choose)
    (hload : c₀.load fuel script react = some c₁) :
    c₁.Ready ∧ c₁.stage.plot.session.script = script ∧ c₁.stage.calls = c₀.stage.calls := by
  obtain ⟨v, hv, rfl⟩ := Option.map_eq_some_iff.mp hload
  obtain ⟨hrest, hsamePlot⟩ := Stage.loadScript_atRest hreact hidle hv
  have hplot : (c₀.display v).stage.plot = (c₀.stage.record (.load script)).plot := hsamePlot.plot_eq
  refine ⟨⟨hrest, ?_, ?_, ?_, ?_, hchosen⟩, ?_, congrArg Plot.calls hplot⟩
  · rw [hplot]
    exact ⟨hforward, ⟨hsound, Nat.zero_le _⟩, rfl, .nil, by simp [Stage.plot, Stage.record, beatStarts]⟩
  · rw [hplot]
    exact hattached
  · rw [hplot]
    rfl
  · rw [hplot]
    rfl
  · rw [hplot]
    rfl

/-- A scene whose jumps only go forward (`Script.Forward`) is loaded on a console where nothing is on its way, whatever
    ends a beat there; listener and handlers neither call back nor fail, and every choice gets an answer.  Where
    nothing holds up the scene while it is played (`Console.Unhindered`), playing it comes to an end, and with it
    the scene:

    - the beats have started at positions that strictly increase, so there are no more of them than commands;
    - the listener has been told once that the scene has ended, after all that was shown. -/
theorem forward_scene_ends {c₀ c₁ : Console} {script : Script} {fuel : Nat} (hidle : c₀.stage.gear.Idle)
    (hattached : c₀.stage.session.attached = true) (hread : script.Read) (hforward : script.Forward)
    (hreact : NeitherCallsNorFails react) (hchosen : ∃ choose, c₀.answers = .chosen choose)
    (hload : c₀.load fuel script react = some c₁) (hfree : c₁.Unhindered react) :
    ∃ c₂ : Console, (∃ N, ∀ fuel ≥ N, c₁.play fuel react = some (c₂, none)) ∧
      c₂.stage.session.finished = true ∧
      (beatStarts c₂.stage.journal).Pairwise (· < ·) ∧
      (beatStarts c₂.stage.journal).length ≤ script.commands.length ∧
      ∃ shown, c₂.stage.calls = c₀.stage.calls ++ shown ++ [.ended] ∧ Call.ended ∉ shown := by
  obtain ⟨hready, hscript, hcalls⟩ :=
    ready_of_load hreact hidle hattached hread.sound hforward hchosen hload
  obtain ⟨c₂, N, hplay, hclimbs, hclose⟩ := hready.plays hreact hfree
  have hlisten : c₁.stage.session.attached = true := hready.attached
  refine ⟨c₂, ⟨N, fun fuel hfuel => ?_⟩, hclose.finished_eq, hclimbs.ascending, ?_, ?_⟩
  · simp [play, hlisten, hplay fuel hfuel fuel hfuel]
  · have hle := hclimbs.length_starts_le
    rw [hclose.script_eq, hscript] at hle
    exact hle
  · rw [← hcalls]
    exact hclose.calls_eq

/-! ## A jump into its own beat -/

/-- A jump, a choice that it means to leave out, the label, and another choice. -/
def bypass : Script :=
  Script.ofCommands "parsed"
    [⟨.whole 0, ["@goto", "past"], .jump "past"⟩,
     ⟨.whole 1, ["@choice", "u", "a", "b"], .choice "u" ["a", "b"]⟩,
     ⟨.whole 2, ["@label", "past"], .label "past"⟩,
     ⟨.whole 3, ["@choice", "v", "c", "d"], .choice "v" ["c", "d"]⟩]

theorem bypass_read : bypass.Read := by
  have hparse : Script.parse defaultMark unnamedSource
      "@goto, past\n@choice, u, a, b\n@label, past\n@choice, v, c, d" = .ok bypass := rfl
  exact .text hparse

/-- Its only jump goes to a label after it. -/
theorem bypass_forward : bypass.Forward := by
  have hlabel : firstLabel "past" bypass.commands = some 2 := by decide
  intro i c hc label hgoal j hj
  match i with
  | 0 =>
    cases hc
    cases hgoal
    rw [hlabel] at hj
    cases hj
    decide
  | 1 | 2 | 3 =>
    cases hc
    cases hgoal
  | n + 4 => cases hc

/-- Neither choices nor jumps end a beat, so that all four commands make one; the first answer is always taken. -/
def bypassConsole : Console where
  stage := { session := { settings := { choiceEndsBeat := false, jumpEndsBeat := false } }, bus := some {} }
  answers := .chosen fun _ offer => offer.choices.headD ""

/-- The jump leads back to the label, and the second choice is shown once more. -/
theorem forward_scene_ends_bypass :
    bypassConsole.stage.gear.Idle ∧ bypass.Read ∧ bypass.Forward ∧ NeitherCallsNorFails Stage.noting ∧
      ∃ c₁, bypassConsole.load 10 bypass Stage.noting = some c₁ ∧ c₁.Unhindered Stage.noting ∧
        (c₁.play 50 Stage.noting).map (fun r => (beatStarts r.1.stage.journal, r.1.asked.map Offer.var)) =
          some ([0, 2], ["v", "v"]) ∧
        ∃ c₂ : Console, (∃ N, ∀ fuel ≥ N, c₁.play fuel Stage.noting = some (c₂, none)) ∧
          c₂.stage.session.finished = true ∧
          (beatStarts c₂.stage.journal).Pairwise (· < ·) ∧
          (beatStarts c₂.stage.journal).length ≤ 4 ∧
          ∃ shown, c₂.stage.calls = shown ++ [.ended] ∧ Call.ended ∉ shown := by
  have hidle : bypassConsole.stage.gear.Idle := ⟨rfl, rfl, rfl⟩
  have hrun : ((bypassConsole.load 10 bypass Stage.noting).bind fun c => c.play 50 Stage.noting).map
      (fun r => (beatStarts r.1.stage.journal, r.1.asked.map Offer.var)) = some ([0, 2], ["v", "v"]) := rfl
  cases hload : bypassConsole.load 10 bypass Stage.noting with
  -- the run has been computed, so there is a loaded console
  | none =>
    rw [hload] at hrun
    cases hrun
  | some c₁ =>
    rw [hload] at hrun
    obtain ⟨hready, -, -⟩ :=
      ready_of_load Stage.noting_neitherCallsNorFails hidle rfl bypass_read.sound bypass_forward ⟨_, rfl⟩ hload
    have hattached : c₁.stage.session.attached = true := hready.attached
    obtain ⟨r, hr, -⟩ := Option.map_eq_some_iff.mp hrun
    have hplay : c₁.playOn 50 Stage.noting 50 = some r := by simpa [play, hattached] using hr
    have hfree := hready.unhindered_of_playOn Stage.noting_neitherCallsNorFails hplay
    exact ⟨hidle, bypass_read, bypass_forward, Stage.noting_neitherCallsNorFails, c₁, rfl, hfree, hrun,
      forward_scene_ends hidle rfl bypass_read bypass_forward Stage.noting_neitherCallsNorFails ⟨_, rfl⟩ hload hfree⟩

/-! ## Scenes that are held up -/

/-- A scene with a single text. -/
def greeting : Script := Script.ofCommands "parsed" [⟨.whole 0, ["@text", "hi"], .text "hi"⟩]

theorem greeting_read : greeting.Read := by
  have hparse : Script.parse defaultMark unnamedSource "@text, hi" = .ok greeting := rfl
  exact .text hparse

theorem greeting_forward : greeting.Forward := by
  intro i c hc label hgoal
  match i with
  | 0 =>
    cases hc
    cases hgoal
  | n + 1 => cases hc

/-- The event that says that a beat starts, and that a handler may publish as well. -/
def beatNews : SessionEvent := ⟨.beatStarted, .beat []⟩

/-- A handler that publishes the start of a beat whenever it is told of one. -/
def echoing : Reactions := fun cue _ =>
  match cue with
  | .heard _ .beatStarted => [.publish beatNews]
  | _ => []

theorem echoing_neitherCallsNorFails : NeitherCallsNorFails echoing := by
  intro cue n act hact
  unfold echoing at hact
  split at hact
  · rw [List.mem_singleton.mp hact]
    rfl
  · cases hact

/-- The handler has a subscription, and its own event waits for its delivery. -/
def Echoes (w : Stage) : Prop :=
  ∃ b, w.bus = some b ∧ b.table = [(.beatStarted, [⟨0, false⟩])] ∧ b.queue = [beatNews]

/-- The delivery of the event puts another one like it into the queue. -/
theorem Echoes.step {w : Stage} (h : Echoes w) : ∃ v, w.step echoing = some v ∧ Echoes v := by
  obtain ⟨⟨table, queue, publishing, opened, pinned, trail⟩, hbus, rfl, rfl⟩ := h
  let delivered : Bus Notice := ⟨[(.beatStarted, [⟨0, false⟩])], [], publishing, opened, pinned, trail⟩
  refine ⟨({ w with bus := some delivered }).deliver echoing beatNews, ?_, _, rfl, rfl, rfl⟩
  simp [Stage.step, Stage.nextEvent?, hbus, delivered]

/-- So there is never an end of it, whatever the fuel. -/
theorem Echoes.await_eq_none {w : Stage} (h : Echoes w) (k fuel : Nat) : w.await echoing k fuel = none := by
  induction fuel generalizing w with
  | zero => rfl
  | succ fuel ih =>
    obtain ⟨v, hstep, hv⟩ := h.step
    simp only [Stage.await, hstep]
    exact ih hv

/-- A chain is awaited in vain when nothing is left to do (`rest`) and no time can pass (`tick`). -/
theorem await_eq_none_of_rest {w v : Stage} {k n : Nat} (hrest : w.rest react n = some v)
    (houtcome : v.outcome? k = none) (htick : v.tick = none) (fuel : Nat) : w.await react k fuel = none := by
  obtain ⟨hsteps, hstep⟩ := Stage.rest_iff.mp ⟨n, hrest⟩
  cases hawait : w.await react k fuel with
  | none => rfl
  | some r =>
    obtain ⟨m, -, hm⟩ := Stage.Arrives.await_of (hsteps.arrives k) hawait
    cases m with
    | zero => cases hm
    | succ m => simp [Stage.await, hstep, houtcome, htick] at hm

/-- A scene cannot be played if its first advance does not return. -/
theorem play_eq_none {fuel : Nat} (hattached : c.stage.session.attached = true)
    (hrunning : c.stage.session.finished = false) (hadvance : c.stage.advance react fuel .own = none) :
    c.play fuel react = none := by
  cases fuel with
  | zero => simp [play, hattached, playOn]
  | succ fuel => simp [play, hattached, playOn, hrunning, Console.round, hadvance]

/-- The handler is subscribed to the starts of beats. -/
def echoConsole : Console where
  stage := { session := {}, bus := some { table := [(.beatStarted, [⟨0, false⟩])] } }
  answers := .chosen fun _ _ => ""

/-- The pause after a text never ends. -/
def endlessConsole : Console where
  stage := { session := { settings := { settleDelay := 1 / 0 } } }
  answers := .chosen fun _ _ => ""

/-- It is not enough that listener and handlers neither call back nor fail: a scene with a single text is never played
    to its end where a handler answers the start of every beat by publishing one, or where the pause after a text is
    infinite. -/
theorem forward_scene_held_up :
    greeting.Read ∧ greeting.Forward ∧
      (echoConsole.stage.gear.Idle ∧ echoConsole.stage.session.attached = true ∧ NeitherCallsNorFails echoing ∧
        ∃ c₁, echoConsole.load 10 greeting echoing = some c₁ ∧ ∀ fuel, c₁.play fuel echoing = none) ∧
      (endlessConsole.stage.gear.Idle ∧ endlessConsole.stage.session.attached = true ∧ NeitherCallsNorFails noReactions ∧
        ∃ c₁, endlessConsole.load 10 greeting = some c₁ ∧ ∀ fuel, c₁.play fuel = none) := by
  refine ⟨greeting_read, greeting_forward, ⟨⟨rfl, rfl, rfl⟩, rfl, echoing_neitherCallsNorFails, _, rfl, fun fuel => ?_⟩,
    ⟨rfl, rfl, rfl⟩, rfl, (fun _ _ _ hact => by cases hact), _, rfl, fun fuel => ?_⟩
  · -- two steps of the advance lead to the first delivery
    refine play_eq_none rfl rfl ?_
    match fuel with
    | 0 | 1 => rfl
    | fuel + 2 => exact Echoes.await_eq_none ⟨_, rfl, rfl, rfl⟩ 0 fuel
  · exact play_eq_none rfl rfl (await_eq_none_of_rest (n := 20) rfl rfl rfl fuel)

end Console

end ChatScene

/-
  The effect of a beat, whatever the settings.

  The commands of a beat share one cursor and one place for a choice that waits, and each of them does what it does
  when it starts.  So the last jump that is taken decides where the cursor is in the end and the last choice is the one
  that waits, while all that is to be shown is shown, jumps or not.  The advance plays another beat exactly when no
  choice was among the commands.

  1. **Sessions** — `Session.afterBeat` is the session after the commands of a beat, said of the beat as a whole: the
     last of the jumps (`Command.jump?`) and the last of the offers count.  Command by command it comes to the same
     (`Session.afterBeat_cons`).

  2. **Scores** — from there, what playing the commands one after the other leaves in the journal and the calls
     (`Score.playAll_eq`), and which events tell of jumps (`jumpEvents_deeds`).

  3. **Stages** — `TakesEffect` is the same about the stage on which a beat has been played.  A collected beat takes
     effect (`On.takesEffect`), because the commands do side by side what they do in order (`plays_beat`).

  4. **Main result** (`beat_takes_effect`) — an advance that is going collects a beat, the beat takes effect, and then
     the advance goes on to the next beat or returns with a choice.
-/
import ChatScene.Proofs.Heralds
import ChatScene.Proofs.Offering

namespace ChatScene

open Relation (TransGen)

/-! ## Jumps and choices of a beat -/

/-- `c.jump? s` — the jump that a command takes: its label, and the position to which the label leads. -/
def Command.jump? (s : Session) (c : Command) : Option (String × Nat) :=
  (c.target? s.store).bind fun label => (s.script.find? label).map (label, ·)

/-- The event that tells of a jump. -/
def jumpEvent (jump : String × Nat) : SessionEvent := ⟨.labelJumped, .jump jump.1 jump.2⟩

/-- `s.afterBeat beat` — the session after the commands of a beat: the last jump and the last choice count. -/
def Session.afterBeat (s : Session) (beat : List Command) : Session :=
  { s with cursor := ((beat.filterMap (Command.jump? s)).getLast?.map Prod.snd).getD s.cursor
           pending := (beat.filterMap Command.offer?).getLast?.or s.pending }

/-- What a command does to the session is to offer a choice (`offer?`) or to take a jump (`jump?`). -/
theorem Command.deed?_eq (number : Option Nat) (s : Session) (c : Command) :
    c.deed? number s = (c.offer?.map (.offer number c ·)).or
      ((c.jump? s).map fun jump => .jump number c jump.1 jump.2) := by
  cases hbody : c.body with
  | choice var choices => simp [Command.deed?, Command.offer?, hbody]
  | bare | text | image | condition | label | wait | jump =>
    simp only [Command.deed?, Command.offer?, Command.jump?, hbody, Option.map_none, Option.none_or]
    cases c.target? s.store with
    | none => rfl
    | some label => cases h : s.script.find? label <;> simp [h]

/-- A command that offers a choice takes no jump. -/
theorem Command.jump?_of_offer? {c : Command} {offer : Offer} (h : c.offer? = some offer) (s : Session) :
    c.jump? s = none := by
  have hbody := Command.body_of_offer? h
  simp [Command.jump?, Command.target?, hbody]

theorem Session.afterCommand_eq_afterBeat (s : Session) (c : Command) : s.afterCommand c = s.afterBeat [c] := by
  rw [s.afterCommand_eq none c, c.deed?_eq]
  cases hoffer : c.offer? with
  | some offer =>
    have hjump := Command.jump?_of_offer? hoffer s
    simp [Session.afterBeat, hoffer, hjump, Session.after]
  | none =>
    cases hjump : c.jump? s <;> simp [Session.afterBeat, hoffer, hjump, Session.after]

theorem getLast?_filterMap_cons {α β : Type} (f : α → Option β) (x : α) (xs : List α) :
    ((x :: xs).filterMap f).getLast? = (xs.filterMap f).getLast?.or (f x) := by
  rw [List.filterMap_cons]
  cases f x with
  | none => exact (Option.or_none).symm
  | some y =>
    rw [List.getLast?_cons]
    cases (xs.filterMap f).getLast? <;> rfl

/-- The first command of a beat does what it does, and then the others do.  None of them sees what the ones before it
    did: a `jump?` depends on the script and the variables only. -/
theorem Session.afterBeat_cons (s : Session) (c : Command) (beat : List Command) :
    s.afterBeat (c :: beat) = (s.afterCommand c).afterBeat beat := by
  rw [s.afterCommand_eq_afterBeat]
  have hjump : Command.jump? (s.afterBeat [c]) = Command.jump? s := rfl
  unfold Session.afterBeat at hjump ⊢
  rw [hjump]
  simp only [getLast?_filterMap_cons, List.filterMap_nil, List.getLast?_nil, Option.none_or, Option.or_assoc]
  cases (beat.filterMap (Command.jump? s)).getLast? <;> rfl

/-- The commands of a beat one after the other: the session after the `beat`, their deeds, and what is shown of them. -/
theorem Score.playAll_eq (number : Option Nat) (s : Score) (beat : List Command) :
    beat.foldl (Score.play number) s =
      { s with session := s.session.afterBeat beat
               journal := (beat.filterMap (Command.deed? number s.session)).reverse ++ s.journal
               calls := s.calls ++ beat.flatMap Command.calls } := by
  induction beat generalizing s with
  | nil => simp [Session.afterBeat]
  | cons c beat ih =>
    have hsession : (s.play number c).session = s.session.afterCommand c := by
      rw [s.session.afterCommand_eq number c, Score.play]
      cases c.deed? number s.session <;> rfl
    -- what a command does depends on the script and the variables, which the ones before it leave alone
    have hdeed : Command.deed? number (s.play number c).session = Command.deed? number s.session := by
      rw [hsession, Session.afterCommand_eq_afterBeat]
      rfl
    have hplay : s.play number c =
        { s with session := s.session.afterCommand c
                 journal := (c.deed? number s.session).toList ++ s.journal
                 calls := s.calls ++ c.calls } := by
      rw [← hsession, Score.play]
      cases c.deed? number s.session <;> rfl
    rw [List.foldl_cons, ih, hdeed, hplay]
    simp only [Session.afterBeat_cons, List.filterMap_cons, List.flatMap_cons, List.append_assoc]
    cases c.deed? number s.session <;> simp

/-- What is shown of a beat: its texts, images and choices. -/
theorem flatMap_calls (beat : List Command) :
    beat.flatMap Command.calls = (beat.filter Command.isShown).map Call.shown := by
  induction beat with
  | nil => rfl
  | cons c beat ih =>
    rw [List.flatMap_cons, ih, List.filter_cons]
    cases hbody : c.body <;> simp [Command.calls, Command.isShown, hbody]

/-- The events of a beat: one for each jump that is taken, in order. -/
theorem jumpEvents_deeds (number : Option Nat) (s : Session) (beat : List Command) :
    jumpEvents (beat.filterMap (Command.deed? number s)).reverse =
      (beat.filterMap (Command.jump? s)).map jumpEvent := by
  rw [jumpEvents, List.reverse_reverse, List.filterMap_filterMap, List.map_filterMap]
  refine List.filterMap_congr fun c _ => ?_
  rw [c.deed?_eq]
  cases hoffer : c.offer? with
  | some offer =>
    rw [Command.jump?_of_offer? hoffer s]
    rfl
  | none => cases c.jump? s <;> rfl

/-- A command offers something (`offer?`) just when it is a choice. -/
theorem Command.offer?_eq_none_iff {c : Command} : c.offer? = none ↔ c.kind ≠ .choice := by
  unfold Command.kind
  cases hbody : c.body <;> simp [Command.offer?, hbody, Body.kind]

namespace Stage

variable {react : Reactions} {w v x : Stage} {k : Nat} {context : Context} {beat : List Command}

/-! ## One beat -/

/-- `w.TakesEffect alone beat v` — a beat has taken effect. -/
structure TakesEffect (alone : Prop) (beat : List Command) (w v : Stage) : Prop where
  /-- All that is to be shown is shown once and in order. -/
  calls_eq : v.calls = w.calls ++ (beat.filter Command.isShown).map Call.shown
  /-- The last jump has moved the cursor, the last choice waits, and the rest of the session is as before. -/
  session_eq : v.session =
    { w.session with
      cursor := ((beat.filterMap (Command.jump? w.session)).getLast?.map Prod.snd).getD w.session.cursor
      pending := (beat.filterMap Command.offer?).getLast? }
  contexts_eq : v.contexts = w.contexts
  /-- There is an event for each jump, in order, and no other of the kind if nobody else publishes any. -/
  tells : Tells alone ((beat.filterMap (Command.jump? w.session)).map jumpEvent) w v

/-- A collected beat takes effect (`TakesEffect`), and the advance is awake after it. -/
theorem On.takesEffect {alone : Prop} (hunforged : alone → Unforged react w) {g : Nat}
    (hfree : UnhinderedDuring react k g w) (h : w.On k [.start context g beat])
    (hgroup : w.groups[g]? = some { owner := k, left := beat.length })
    (hbeat : beat ≠ []) (hattached : w.session.attached = true) (hpending : w.session.pending = none) :
    ∃ v, Arrives react k w v ∧ v.On k [.beat context (endsOnChoice beat)] ∧ TakesEffect alone beat w v ∧
      Clears react k v := by
  obtain ⟨v, harrives, hscore, hon, hclears⟩ := On.playsBeat hfree h hgroup hbeat hattached
  rw [Score.playAll_eq] at hscore
  have hjournal : v.journal = (beat.filterMap (Command.deed? (some g) w.session)).reverse ++ w.journal :=
    congrArg Score.journal hscore
  obtain ⟨deeds, hdeeds, htells⟩ := Arrives.announces hunforged harrives
  obtain rfl := List.append_cancel_right (hdeeds.symm.trans hjournal)
  rw [jumpEvents_deeds] at htells
  have hsession : v.session = w.session.afterBeat beat := congrArg Score.session hscore
  rw [Session.afterBeat, hpending, Option.or_none] at hsession
  have hcalls : v.calls = w.calls ++ beat.flatMap Command.calls := congrArg Score.calls hscore
  rw [flatMap_calls] at hcalls
  exact ⟨v, harrives, hon, ⟨hcalls, hsession, congrArg Score.contexts hscore, htells⟩, hclears⟩

/-- A beat without a choice does not end on one. -/
theorem endsOnChoice_eq_false (h : ∀ c ∈ beat, c.kind ≠ .choice) : endsOnChoice beat = false := by
  unfold endsOnChoice
  cases hlast : beat.getLast? with
  | none => rfl
  | some c => exact decide_eq_false (h c (List.mem_of_getLast? hlast))

/-! ## The loop -/

/-- A choice waits after a beat just when there is one in it. -/
theorem pending_isSome_iff : (beat.filterMap Command.offer?).getLast?.isSome = true ↔ ∃ c ∈ beat, c.kind = .choice := by
  rw [Option.isSome_iff_ne_none, ne_eq, List.getLast?_eq_none_iff, List.filterMap_eq_nil_iff]
  constructor
  · intro h
    obtain ⟨c, hc, hoffer⟩ : ∃ c, c ∈ beat ∧ c.offer? ≠ none := by simpa using h
    exact ⟨c, hc, by simpa [Command.offer?_eq_none_iff] using hoffer⟩
  · rintro ⟨c, hc, hkind⟩ hall
    exact Command.offer?_eq_none_iff.mp (hall c hc) hkind

/-- After a beat without a choice the advance goes on to the next round. -/
theorem On.nextBeat (hclears : Clears react k v) (h : v.On k [.beat context false])
    (hpending : v.session.pending = none) (hfinished : v.session.finished = false) :
    ∃ y : Stage, y.score = v.score ∧ TransGen (Goes react k) v (y.nextRound react k [] context) := by
  obtain ⟨y, -, hscore, -, -, hgoes⟩ := On.runs hclears h
  have hsession : y.session = v.session := congrArg Score.session hscore
  have hround : y.runFrame react k (.beat context false) [] = y.nextRound react k [] context := by
    simp [runFrame, beatOver, hsession, hpending, hfinished]
  exact ⟨y, hscore, hround ▸ hgoes⟩

/-- An advance that may go on plays its next beat, whatever the settings, and the beat takes effect (`TakesEffect`):
    all that is to be shown is shown, the last jump and the last choice count, and there is one event for each
    jump.  It goes on to another beat exactly when there was no choice in this one.  Nothing need be known of what
    holds it up after this beat, whose commands form the group `w.groups.length`. -/
theorem beat_takes_effect (hfree : UnhinderedDuring react k w.groups.length w) (h : w.Going k context)
    (hpending : w.session.pending = none) (hfinished : w.session.finished = false) (hbeat : w.session.nextBeat ≠ []) :
    ∃ x v : Stage,
      -- the beat is collected, and the cursor stands after it
      TransGen (Goes react k) w x ∧ x.plot = w.plot.collected ∧
      -- it is played
      Arrives react k x v ∧ TakesEffect (Unforged react w) w.session.nextBeat x v ∧
      -- without a choice the next round begins
      ((∀ c ∈ w.session.nextBeat, c.kind ≠ .choice) →
        ∃ y : Stage, y.score = v.score ∧ TransGen (Goes react k) v (y.nextRound react k [] context)) ∧
      -- with one the advance returns
      ((∃ c ∈ w.session.nextBeat, c.kind = .choice) →
        ∃ y, Arrives react k v y ∧ y.plot = v.plot ∧ y.AtRest ∧ y.outcome? k = some none) := by
  have hrunning : w.plot.solo.halted = false := by simp [Solo.halted, Plot.solo, Stage.plot, hpending, hfinished]
  obtain ⟨x, hgoes, hround, hon, hgroup⟩ :=
    h.collects hfree.neitherCallsNorFails (hfree.clears w.unsettled_length) hrunning hbeat
  have harrives := hgoes.to_reflTransGen
  have hxattached : x.session.attached = true := (congrArg (·.session.attached) hround).trans h.attached
  have hxpending : x.session.pending = none := (congrArg (·.session.pending) hround).trans hpending
  have hxfinished : x.session.finished = false := (congrArg (·.session.finished) hround).trans hfinished
  have hunforged : Unforged react w → Unforged react x := fun hw => Arrives.unforged hw harrives
  obtain ⟨v, hv, hvon, heffect, hclears⟩ :=
    On.takesEffect hunforged (hfree.arrives harrives) hon hgroup hbeat hxattached hxpending
  have hvpending : v.session.pending = (w.session.nextBeat.filterMap Command.offer?).getLast? :=
    congrArg Session.pending heffect.session_eq
  refine ⟨x, v, hgoes, hround, hv, heffect, fun hnone => ?_, fun hchoice => ?_⟩
  · have hwaits : v.session.pending = none := by
      rw [hvpending, ← Option.not_isSome_iff_eq_none, pending_isSome_iff]
      rintro ⟨c, hc, hkind⟩
      exact hnone c hc hkind
    rw [endsOnChoice_eq_false hnone] at hvon
    exact On.nextBeat hclears hvon hwaits ((congrArg Session.finished heffect.session_eq).trans hxfinished)
  · have hwaits : v.session.pending.isSome = true := by rw [hvpending, pending_isSome_iff]; exact hchoice
    have hgoing : v.Going k context :=
      ⟨(congrArg Session.attached heffect.session_eq).trans hxattached, .inr ⟨_, hvon, fun _ => hwaits⟩⟩
    refine hgoing.stops hclears ?_
    have hhalted : (v.session.finished || v.session.pending.isSome) = true := by rw [hwaits, Bool.or_true]
    exact hhalted

/-! ## A beat with jumps and choices -/

/-- A jump over a choice, a jump to nowhere, and another choice after the label. -/
def hurdle : Script :=
  Script.ofCommands "hurdle"
    [⟨.whole 0, ["@goto", "past"], .jump "past"⟩,
     ⟨.whole 1, ["@choice", "u", "a", "b"], .choice "u" ["a", "b"]⟩,
     ⟨.whole 2, ["@goto", "nowhere"], .jump "nowhere"⟩,
     ⟨.whole 3, ["@label", "past"], .label "past"⟩,
     ⟨.whole 4, ["@choice", "v", "c", "d"], .choice "v" ["c", "d"]⟩]

/-- Neither choices nor jumps end a beat, and the host has just begun to advance. -/
def hurdleStage : Stage :=
  ({ session := { script := hurdle, settings := { choiceEndsBeat := false, jumpEndsBeat := false } }
     bus := some {} } : Stage).spawn [.advance .own] none

theorem hurdle_unforged : Unforged noting hurdleStage := by
  refine ⟨fun cue n act hact => ?_, fun c hc f hf => ?_⟩
  · unfold noting at hact
    split at hact
    · rw [List.mem_singleton.mp hact]
      rfl
    · cases hact
  · obtain rfl : c = { frames := [.advance .own] } := List.mem_singleton.mp hc
    rw [List.mem_singleton.mp hf]
    trivial

/-- Both choices are shown although the first one is jumped over; the second one waits, the cursor is at the label, and
    there is one event. -/
theorem beat_takes_effect_hurdle :
    UnhinderedDuring noting 0 hurdleStage.groups.length hurdleStage ∧ hurdleStage.Going 0 .own ∧
      hurdleStage.session.pending = none ∧
      hurdleStage.session.finished = false ∧ hurdleStage.session.nextBeat = hurdle.commands ∧
      ∃ x v : Stage, Arrives noting 0 hurdleStage v ∧ x.session.cursor = 5 ∧
        v.calls.length = x.calls.length + 2 ∧ v.session.cursor = 3 ∧
        v.session.pending = some ⟨.whole 4, "v", ["c", "d"]⟩ ∧ v.session.store = x.session.store ∧
        (∀ b, x.bus = some b → ∃ b', v.bus = some b' ∧
          b'.heralds = b.heralds ++ [⟨.labelJumped, .jump "past" 3⟩]) ∧
        ∃ y, Arrives noting 0 v y ∧ y.AtRest ∧ y.outcome? 0 = some none := by
  -- the run has been computed: the advance returns, so nothing holds it up
  have hfree : Unhindered noting 0 hurdleStage := by
    have hsome : (hurdleStage.await noting 0 40).isSome = true := rfl
    obtain ⟨r, hrun⟩ := Option.isSome_iff_exists.mp hsome
    exact .of_await noting_neitherCallsNorFails hrun
  have hduring := hfree.during hurdleStage.groups.length
  have hgoing : hurdleStage.Going 0 .own := by
    refine ⟨rfl, .inl ⟨{ hurdleStage.gear with ready := [] }, ⟨rfl, rfl, rfl, rfl⟩, .back⟩⟩
  have hbeat : hurdleStage.session.nextBeat = hurdle.commands := rfl
  obtain ⟨x, v, hx, hcollected, hv, heffect, -, hreturns⟩ :=
    beat_takes_effect hduring hgoing rfl rfl (by rw [hbeat]; simp [hurdle, Script.ofCommands])
  have hsession : { x.session with depth := 0 } = hurdleStage.plot.collected.session :=
    congrArg Plot.session hcollected
  have hcursor : x.session.cursor = 5 := congrArg Session.cursor hsession
  have hscript : x.session.script = hurdle := congrArg Session.script hsession
  have hstore : x.session.store = [] := congrArg Session.store hsession
  -- of the two jumps only the first one leads anywhere
  have hjumps : hurdleStage.session.nextBeat.filterMap (Command.jump? x.session) = [("past", 3)] := by
    have hsame : Command.jump? x.session = Command.jump? hurdleStage.session := by
      funext c
      rw [Command.jump?, hstore, hscript]
      rfl
    rw [hsame]
    rfl
  obtain ⟨hcalls, hvsession, -, htells⟩ := heffect
  rw [hjumps] at hvsession htells
  refine ⟨hduring, hgoing, rfl, rfl, hbeat, x, v, hx.to_reflTransGen.trans hv, hcursor, ?_, ?_, ?_, ?_, ?_, ?_⟩
  · rw [hcalls, List.length_append]
    rfl
  · rw [hvsession]
    rfl
  · rw [hvsession]
    rfl
  · rw [hvsession]
  · intro b hb
    obtain ⟨b', hb', more, hmore, -, halone⟩ := htells b hb
    rw [halone hurdle_unforged] at hmore
    exact ⟨b', hb', hmore⟩
  · obtain ⟨y, hy, -, hrest, houtcome⟩ := hreturns ⟨⟨.whole 1, ["@choice", "u", "a", "b"], .choice "u" ["a", "b"]⟩,
      by rw [hbeat]; simp [hurdle, Script.ofCommands], rfl⟩
    exact ⟨y, hy, hrest, houtcome⟩

end Stage

end ChatScene

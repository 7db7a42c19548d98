/-
  How often a scene ends, and what comes after the end.

  The end of a scene is come to only while it has not been come to since the last load.  It is published once and told
  to the listener at most once.  It is found by the cursor alone, though: commands that have been collected and have not
  begun are shown all the same, after the end.  These are the only ones.

  1. **In the journal** — between two ends there is a load (`Honest.load_between`), so there are at most one more ends
     than loads (`Honest.endings_le`).

  2. **To the listener** — a frame that is about to tell of an end comes from an end in the journal and is used once.
     So the listener has not been told more often than there are ends (`New.told_le`), by a tally over all frames
     (`Stage.toldOrReporting`).

  3. **First main result** (`one_end_per_load`) — both together, and for a handler that always listens: it hears of as
     many ends as there are.

  4. **After the end** — `Stage.waiting` are the commands that have been collected and have not begun, as a multiset.
     What is shown was waiting or is collected meanwhile (`shown_was_waiting`), which is another tally.

  5. **Second main result** (`ended_scene_shows_only_waiting`) — once the scene has ended nothing is collected until a
     load, so only what was waiting is shown.  That something can be is shown by `text_shown_after_end`.
-/
import Mathlib.Algebra.Order.Group.Multiset
import ChatScene.Proofs.Hearing
import ChatScene.Proofs.Pause

namespace ChatScene

open Relation (ReflTransGen)

/-! ## Ends in a journal -/

/-- A script is loaded. -/
def Deed.isLoad : Deed → Bool
  | .load _ => true
  | _ => false

/-- How many scripts have been loaded. -/
def loads (journal : List Deed) : Nat := journal.countP Deed.isLoad

theorem Deed.isLoad_iff {d : Deed} : d.isLoad = true ↔ ∃ script, d = .load script := by
  cases d with
  | load script => simp [Deed.isLoad]
  | answer | collect | offer | jump | finish | adjust | attach | pass => simp [Deed.isLoad]

/-- The end has been come to (`finished`) until a load: a finish sets it, a load takes it back, and no other deed has
    to do with it. -/
theorem Session.finished_after (s : Session) (d : Deed) :
    (s.after d).finished = (d.isFinish || !d.isLoad && s.finished) := by
  cases d with
  | pass context passage => cases context <;> rfl
  | load | answer | collect | offer | jump | finish | adjust | attach => rfl

theorem Session.finished_replay {s : Session} {js : List Deed} (hjs : ∀ d ∈ js, d.isLoad = false)
    (h : s.finished = true) : (s.replay js).finished = true := by
  induction js with
  | nil => exact h
  | cons d js ih =>
    have hrest := ih fun e he => hjs e (List.mem_cons_of_mem d he)
    rw [Session.replay_cons, Session.finished_after, hjs d List.mem_cons_self, hrest]
    simp

/-- Whatever fits only before an end, and happens after one, has a load in between. -/
theorem Session.exists_load {s : Session} {js : List Deed} (h : s.finished = true)
    (hlater : (s.replay js).finished = false) : ∃ script, Deed.load script ∈ js := by
  by_contra hnone
  have hjs : ∀ d ∈ js, d.isLoad = false := by
    intro d hd
    by_contra hload
    obtain ⟨script, rfl⟩ := Deed.isLoad_iff.mp (by simpa using hload)
    exact hnone ⟨script, hd⟩
  rw [Session.finished_replay hjs h] at hlater
  cases hlater

/-- Two ends in an honest journal (`Honest`) have a load between them, since an end fits only where there has been
    none. -/
theorem Honest.load_between {s₀ : Session} {later between earlier : List Deed}
    (h : Honest s₀ (later ++ .finish :: (between ++ .finish :: earlier))) : ∃ script, Deed.load script ∈ between := by
  obtain ⟨-, hunfinished, -⟩ := (h.of_suffix (List.suffix_append later _)).fits
  rw [Session.replay_append] at hunfinished
  exact Session.exists_load rfl hunfinished

/-- There are no more ends than `loads`, but for one, and not even that many while the scene has not ended. -/
theorem Honest.endings_le {s₀ : Session} {js : List Deed} (h : Honest s₀ js) :
    endings js + (if (s₀.replay js).finished then 0 else 1) ≤ 1 + loads js := by
  -- on the journal, from its oldest deed on
  induction h with
  | nil =>
    simp only [endings, loads, List.countP_nil]
    split <;> omega
  | @cons d js hjs hd ih =>
    rw [Session.replay_cons, Session.finished_after]
    simp only [endings, loads, List.countP_cons] at ih ⊢
    by_cases hfinish : d.isFinish = true
    · -- an end fits only while there has been none
      have hunfinished : (s₀.replay js).finished = false := by
        cases d with
        | finish => exact hd.2.1
        | load | answer | collect | offer | jump | adjust | attach | pass => cases hfinish
      simp only [hunfinished, hfinish, Bool.true_or, Bool.false_eq_true, if_true, if_false] at ih ⊢
      omega
    · by_cases hload : d.isLoad = true
      · simp only [hfinish, hload, Bool.false_or, Bool.not_true, Bool.false_and, Bool.false_eq_true, if_true,
          if_false] at ih ⊢
        split at ih <;> omega
      · simp only [hfinish, hload, Bool.false_or, Bool.not_false, Bool.true_and, Bool.false_eq_true, if_false] at ih ⊢
        omega

/-! ## Reports to the listener -/

/-- The listener is told of an end. -/
def Call.isEnded : Call → Bool
  | .ended => true
  | .shown _ => false

/-- A frame counts as one if it is about to tell the listener of an end. -/
def Frame.reports : Frame → Nat
  | .reportEnd => 1
  | _ => 0

/-- A `Round` that ends the scene leaves one frame that tells of it. -/
theorem Round.reports_le {beat : List Command} {script : Script} {number chain : Nat}
    {context : Context} {t : Stride} (h : Round beat script number chain context t) :
    t.calls.countP Call.isEnded + t.yields Frame.reports ≤ endings t.deeds := by
  cases h with
  | ends | collects => simp [Stride.yields, Frame.reports, endings, Deed.isFinish]

/-- An end is told once at most: what a stride (`Plays`) tells and is still to tell comes from its frame or from an end
    of its own. -/
theorem Plays.reports_le {react : Reactions} {s : Session} {group : Option Nat} {number chain : Nat}
    {failure : Option Failure} {frame : Frame} {t : Stride} (h : Plays react s number group chain failure frame t) :
    t.calls.countP Call.isEnded + t.yields Frame.reports ≤ frame.reports + endings t.deeds := by
  cases h with
  | enters hfinished hround =>
    have hle := hround.reports_le
    rw [endings_append]
    exact hle.trans (by omega)
  | continues hfinished hround =>
    have hle := hround.reports_le
    exact hle.trans (by omega)
  | idles | shows | offers | jumps | dwells | nests | announces | starts | stops | reports | deserted | leaves | fails
  | gives => simp [Stride.yields, Frame.reports, Call.isEnded]

namespace Stage

variable {react : Reactions} {w₀ w w' : Stage}

/-- How often the listener has been told of an end, or will be. -/
def toldOrReporting (w : Stage) : Nat := w.calls.countP Call.isEnded + w.gear.tally Frame.reports

/-- The count stays below the number of ends, by the cases of `Stage.Change.weighs`. -/
theorem toldOrReporting_next (h : w.toldOrReporting ≤ endings w.journal) (hnext : Next react w w') :
    w'.toldOrReporting ≤ endings w'.journal := by
  obtain ⟨m, hmakes⟩ := hnext.makes
  simp only [toldOrReporting] at h ⊢
  cases hmakes.change.weighs Frame.reports fun _ => rfl with
  | keeps hasides htally hrecords =>
    rw [hrecords.calls_eq, hrecords.journal_eq, htally, endings_append, List.append_nil]
    omega
  -- a stride comes to an end, or tells of one that it has come to before, but not both
  | strides hplays hasides htally hrecords =>
    have hle := hplays.reports_le
    rw [hrecords.calls_eq, hrecords.journal_eq, endings_append, endings_append, List.countP_append]
    omega
  -- a chain from outside has nothing to tell
  | @spawns _ frames hframes htally hrecords =>
    have hnone : (frames.map Frame.reports).sum = 0 := by
      refine List.sum_eq_zero fun n hn => ?_
      obtain ⟨f, hf, rfl⟩ := List.mem_map.mp hn
      have houtside := hframes f hf
      cases f with
      | advance | sleep | command => rfl
      | acts | settle | announce | start | beat | reportEnd | leave => cases houtside
    rw [hrecords.calls_eq, hrecords.journal_eq, htally, hnone, List.append_nil]
    exact h

/-- At any moment the listener has been told of no more ends than there are in the `journal`. -/
theorem New.told_le (h₀ : w₀.New) (h : Reaches react w₀ w) : w.toldOrReporting ≤ endings w.journal := by
  induction h with
  | refl =>
    have hchains : w₀.gear.chains = [] := congrArg Gear.chains h₀.gear_eq
    have hcalls : w₀.calls = [] := by simp [calls, h₀.seen_eq]
    simp [toldOrReporting, Gear.tally, hchains, hcalls]
  | tail _ hnext ih => exact toldOrReporting_next ih hnext

/-- Between two ends of scenes a script is loaded, so that there are at most as many ends (`endings`) as loads, but for
    the one of the empty scene to begin with.  The listener is told of each (`Call.isEnded`) at most once; and a
    handler that has one subscription to the ends from the start, which nobody else changes or publishes for, has
    heard of each of them once, but for those that wait in the queue. -/
theorem one_end_per_load (h₀ : w₀.New) (h : Reaches react w₀ w) :
    (∀ later between earlier, w.journal = later ++ .finish :: (between ++ .finish :: earlier) →
      ∃ script, Deed.load script ∈ between) ∧
    endings w.journal ≤ 1 + loads w.journal ∧
    w.calls.countP Call.isEnded ≤ endings w.journal ∧
    ∀ handler b, Listening handler w₀ b → b.endsQueued = 0 → ReactionsSpare handler react →
      ReachesBy (Move.Spares handler) react w₀ w → w.heardOrQueued handler = endings w.journal := by
  have hhonest := (h₀.reaches_faithful h).honest
  refine ⟨?_, ?_, ?_, ?_⟩
  · rintro later between earlier hsplit
    rw [hsplit] at hhonest
    exact hhonest.load_between
  · exact (Nat.le_add_right _ _).trans hhonest.endings_le
  · exact (Nat.le_add_right _ _).trans (h₀.told_le h)
  · intro handler b hb hqueue hreact hrun
    have hnone : w₀.heardOrQueued handler = 0 := by simp [heardOrQueued, hearings, h₀.seen_eq, hb.bus_eq, hqueue]
    exact hears_of_ends h₀.toFresh hb hnone hreact hrun

/-! ## An encore -/

/-- A handler that loads another script when it hears of an end for the first time. -/
def encore : Reactions := fun cue n => if cue = .heard 0 .chatEnded ∧ n = 0 then [.setup "@label, again"] else []

/-- The stage for it, with the handler's subscription. -/
def encoreStage : Stage := { bus := some { table := [(.chatEnded, [⟨0, false⟩])] } }

/-- The empty scene is played, and then the one that was loaded at its end. -/
theorem encore_ends :
    ((encoreStage.advance encore 50 .own).bind fun r => r.1.advance encore 50 .own).map
      (fun r => (endings r.1.journal, loads r.1.journal, r.1.calls.countP Call.isEnded, r.1.session.finished)) =
    some (2, 1, 2, true) := by
  rfl

/-- One load allows for two ends, and both are heard (`heardOrQueued`) of and told. -/
theorem one_end_per_load_encore :
    encoreStage.New ∧ ∃ w, Reaches encore encoreStage w ∧ endings w.journal = 1 + loads w.journal ∧
      w.calls.countP Call.isEnded = endings w.journal ∧ w.heardOrQueued 0 = 2 := by
  have hnew : encoreStage.New := ⟨⟨rfl, rfl, rfl⟩, rfl, rfl⟩
  -- the handler loads a script and does nothing to the bus
  have hspare : ReactionsSpare 0 encore := by
    intro cue n act hact
    unfold encore at hact
    split at hact
    · rw [List.mem_singleton.mp hact]
      rfl
    · cases hact
  obtain ⟨⟨w, failure⟩, hrun, hcounts⟩ := Option.map_eq_some_iff.mp encore_ends
  obtain ⟨⟨v, failure'⟩, hfirst, hsecond⟩ := Option.bind_eq_some_iff.mp hrun
  have hby : ReachesBy (Move.Spares 0) encore encoreStage w :=
    (ReachesBy.advance trivial trivial trivial hfirst).trans (ReachesBy.advance trivial trivial trivial hsecond)
  obtain ⟨-, -, -, hheard⟩ := one_end_per_load hnew hby.reaches
  simp only [Prod.mk.injEq] at hcounts
  obtain ⟨hends, hloads, htold, -⟩ := hcounts
  refine ⟨hnew, w, hby.reaches, by rw [hends, hloads], by rw [htold, hends], ?_⟩
  rw [hheard 0 _ ⟨rfl, rfl, rfl⟩ rfl hspare hby, hends]

end Stage

/-! ## Commands that wait -/

/-- The commands that are yet to begin with the frame, and will be shown when there is a listener. -/
def Frame.openings : Frame → Multiset Command
  | .command c => if c.isShown then {c} else 0
  | .start _ _ cs => cs.filter Command.isShown
  | _ => 0

/-- What is shown with the call. -/
def Call.command? : Call → Option Command
  | .shown c => some c
  | .ended => none

/-- What is shown with some calls, in order. -/
def shownIn (calls : List Call) : List Command := calls.filterMap Call.command?

/-- What an advance collects with the deed, to be shown. -/
def Deed.gathered : Deed → Multiset Command
  | .collect (some _) beat => beat.filter Command.isShown
  | _ => 0

/-- What advances collect with some deeds. -/
def gatheredIn (deeds : List Deed) : Multiset Command := (deeds.map Deed.gathered).sum

/-- The commands of a beat that are yet to begin (`openings`) are those of them that will be shown. -/
theorem sum_openings (beat : List Command) :
    (beat.map fun c => (Frame.command c).openings).sum = (beat.filter Command.isShown : Multiset Command) := by
  induction beat with
  | nil => rfl
  | cons c beat ih =>
    rw [List.map_cons, List.sum_cons, ih]
    by_cases hc : c.isShown = true
    · simp [Frame.openings, hc]
    · simp [Frame.openings, hc]

theorem gatheredIn_append (ds es : List Deed) : gatheredIn (ds ++ es) = gatheredIn ds + gatheredIn es := by
  simp [gatheredIn]

/-- Nothing is collected by an advance on the side (`isAside`). -/
theorem gatheredIn_asides {asides : List Deed} (h : ∀ d ∈ asides, d.isAside = true) : gatheredIn asides = 0 := by
  refine List.sum_eq_zero fun m hm => ?_
  obtain ⟨d, hd, rfl⟩ := List.mem_map.mp hm
  have haside := h d hd
  cases d with
  | collect number beat =>
    cases number with
    | none => rfl
    | some n => cases haside
  | load | answer | offer | jump | finish | adjust | attach | pass => rfl

/-- A `Round` puts what it collects before its chain. -/
theorem Round.openings_le {beat : List Command} {script : Script} {number chain : Nat}
    {context : Context} {t : Stride} (h : Round beat script number chain context t) :
    (shownIn t.calls : Multiset Command) + t.yields Frame.openings ≤ gatheredIn t.deeds := by
  cases h with
  | ends | collects => simp [Stride.yields, Frame.openings, gatheredIn, Deed.gathered, shownIn]

/-- What is shown was about to be, or has just been collected; a command without a listener is not shown at all, so it
    is only an inequality. -/
theorem Plays.openings_le {react : Reactions} {s : Session} {group : Option Nat} {number chain : Nat}
    {failure : Option Failure} {frame : Frame} {t : Stride} (h : Plays react s number group chain failure frame t) :
    (shownIn t.calls : Multiset Command) + t.yields Frame.openings ≤ frame.openings + gatheredIn t.deeds := by
  cases h with
  | enters hfinished hround =>
    rw [gatheredIn_append]
    refine hround.openings_le.trans ?_
    simp [gatheredIn, Deed.gathered, Frame.openings]
  | continues hfinished hround => exact hround.openings_le.trans (Multiset.le_add_left _ _)
  | shows hshown | offers hshown =>
    simp [shownIn, Call.command?, Stride.yields, Frame.openings, gatheredIn, Deed.gathered, hshown]
  | starts =>
    simp only [Stride.yields, sum_openings]
    simp [shownIn, Frame.openings, gatheredIn]
  | reports | idles | jumps | dwells | nests | announces | stops | deserted | leaves | fails | gives =>
    -- nothing is shown, and nothing is about to begin
    refine le_of_eq_of_le (b := 0) ?_ (Multiset.zero_le _)
    simp [shownIn, Call.command?, Stride.yields, Frame.openings]

namespace Stage

variable {react : Reactions} {w₀ w w' : Stage}

/-- The commands that have been collected and have not begun. -/
def waiting (w : Stage) : Multiset Command := w.gear.tally Frame.openings

/-- All that is shown from some moment on was waiting then (`waiting`) or has been collected since, when nobody runs
    commands from outside. -/
theorem shown_was_waiting (h : ReachesBy Move.RunsNoCommand react w w') :
    ∃ since later, w'.journal = since ++ w.journal ∧ w'.calls = w.calls ++ later ∧
      (shownIn later : Multiset Command) + w'.waiting ≤ w.waiting + gatheredIn since := by
  induction h with
  | refl => exact ⟨[], [], rfl, by simp, by simp [shownIn, gatheredIn]⟩
  | @tail v v' _ hnext ih =>
    obtain ⟨m, hm, hmakes⟩ := hnext
    obtain ⟨since, later, hjournal, hcalls, hle⟩ := ih
    -- one more move, with its own deeds and calls
    suffices hmove : ∃ deeds calls, Records v deeds calls v' ∧
        (shownIn calls : Multiset Command) + v'.waiting ≤ v.waiting + gatheredIn deeds by
      obtain ⟨deeds, calls, hrecords, hmove⟩ := hmove
      refine ⟨deeds ++ since, later ++ calls, ?_, ?_, ?_⟩
      · rw [hrecords.journal_eq, hjournal, List.append_assoc]
      · rw [hrecords.calls_eq, hcalls, List.append_assoc]
      · have hshown : (shownIn (later ++ calls) : Multiset Command) = shownIn later + shownIn calls := by
          simp [shownIn]
        rw [hshown, gatheredIn_append]
        calc (shownIn later : Multiset Command) + shownIn calls + v'.waiting
            = shownIn later + (shownIn calls + v'.waiting) := add_assoc _ _ _
          _ ≤ shownIn later + (v.waiting + gatheredIn deeds) := by gcongr
          _ = (shownIn later + v.waiting) + gatheredIn deeds := (add_assoc _ _ _).symm
          _ ≤ (w.waiting + gatheredIn since) + gatheredIn deeds := by gcongr
          _ = w.waiting + (gatheredIn deeds + gatheredIn since) := by rw [add_assoc, add_comm (gatheredIn since)]
    cases hmakes.change.weighs Frame.openings fun _ => rfl with
    | keeps hasides htally hrecords =>
      refine ⟨_, _, hrecords, ?_⟩
      rw [gatheredIn_asides hasides, waiting, htally]
      simp [shownIn, waiting]
    | @strides _ _ _ frame t asides hplays hasides htally hrecords =>
      refine ⟨_, _, hrecords, ?_⟩
      rw [gatheredIn_append, gatheredIn_asides hasides, zero_add]
      have hopenings := hplays.openings_le
      -- what the frame held is either shown or held by the frames in its place
      refine le_of_add_le_add_right (a := frame.openings) ?_
      calc (shownIn t.calls : Multiset Command) + v'.waiting + frame.openings
          = shownIn t.calls + (v.waiting + t.yields Frame.openings) := by rw [add_assoc, waiting, htally]; rfl
        _ = v.waiting + (shownIn t.calls + t.yields Frame.openings) := add_left_comm _ _ _
        _ ≤ v.waiting + (frame.openings + gatheredIn t.deeds) := by gcongr
        _ = v.waiting + gatheredIn t.deeds + frame.openings := by rw [add_comm frame.openings, add_assoc]
    | @spawns _ frames houtside htally hrecords =>
      have hnone : (frames.map Frame.openings).sum = 0 := by
        refine List.sum_eq_zero fun n hn => ?_
        obtain ⟨f, hf, rfl⟩ := List.mem_map.mp hn
        have hf' := houtside f hf
        cases f with
        | command c => exact absurd hf (hm c)
        | advance | sleep => rfl
        | acts | settle | announce | start | beat | reportEnd | leave => cases hf'
      refine ⟨_, _, hrecords, ?_⟩
      rw [waiting, htally, hnone]
      simp [shownIn, gatheredIn, waiting]

/-- When a scene has ended (`finished`), the only commands that are still shown are those that had been collected and
    had not begun (`waiting`), and each of them once, up to a load: whatever is collected later is collected after
    a load.  So if none waited, nothing is shown after the end of the scene. -/
theorem ended_scene_shows_only_waiting (h₀ : w₀.New) (h : Reaches react w₀ w) (hfinished : w.session.finished = true)
    (hrun : ReachesBy Move.RunsNoCommand react w w') :
    ∃ since later, w'.journal = since ++ w.journal ∧ w'.calls = w.calls ++ later ∧
      (shownIn later : Multiset Command) + w'.waiting ≤ w.waiting + gatheredIn since ∧
      (∀ newer n beat older, since = newer ++ .collect (some n) beat :: older → ∃ script, Deed.load script ∈ older) ∧
      ((∀ script, Deed.load script ∉ since) →
        (shownIn later : Multiset Command) ≤ w.waiting ∧ (w.waiting = 0 → shownIn later = [])) := by
  obtain ⟨since, later, hjournal, hcalls, hle⟩ := shown_was_waiting hrun
  have hfaithful := h₀.reaches_faithful h
  have hhonest := (h₀.reaches_faithful (h.trans hrun.reaches)).honest
  -- a beat is collected only from a scene that has not ended, so a script was loaded in between
  have hloaded : ∀ newer n beat older, since = newer ++ .collect (some n) beat :: older →
      ∃ script, Deed.load script ∈ older := by
    intro newer n beat older hsplit
    rw [hjournal, hsplit, List.append_assoc, List.cons_append] at hhonest
    obtain ⟨-, hfits⟩ := (hhonest.of_suffix (List.suffix_append newer _)).fits
    obtain ⟨-, hunfinished, -⟩ := hfits n rfl
    rw [Session.replay_append, ← hfaithful.session_eq] at hunfinished
    exact Session.exists_load hfinished hunfinished
  refine ⟨since, later, hjournal, hcalls, hle, hloaded, fun hnoload => ?_⟩
  -- without a load nothing is collected at all
  have hnone : gatheredIn since = 0 := by
    refine List.sum_eq_zero fun m hm => ?_
    obtain ⟨d, hd, rfl⟩ := List.mem_map.mp hm
    cases d with
    | collect number beat =>
      cases number with
      | none => rfl
      | some n =>
        obtain ⟨newer, older, hsplit⟩ := List.append_of_mem hd
        obtain ⟨script, hload⟩ := hloaded newer n beat older hsplit
        exact absurd (hsplit ▸ List.mem_append_right _ (List.mem_cons_of_mem _ hload)) (hnoload script)
    | load | answer | offer | jump | finish | adjust | attach | pass => rfl
  rw [hnone, add_zero] at hle
  have hshown : (shownIn later : Multiset Command) ≤ w.waiting := (Multiset.le_add_right _ _).trans hle
  refine ⟨hshown, fun hzero => ?_⟩
  rw [hzero, Multiset.le_zero, Multiset.coe_eq_zero] at hshown
  exact hshown

/-! ## A text after the end -/

/-- An image and a text in one beat. -/
def postscript : Script :=
  Script.ofCommands "parsed" [⟨.whole 0, ["@image", "a"], .image "a"⟩, ⟨.whole 1, ["@text", "b"], .text "b"⟩]

theorem postscript_read : postscript.Read := by
  have hparse : Script.parse defaultMark unnamedSource "@image, a\n@text, b" = .ok postscript := rfl
  exact .text hparse

/-- The eager listener has been shown the image, has advanced, and has been told of the end. -/
def curtain : Stage :=
  ((({} : Stage).loadScript eager 10 postscript).bind fun w => (w.spawn [.advance .own] none).steps eager 11).getD {}

/-- This stage is come to from a new one. -/
theorem reaches_curtain : Reaches eager {} curtain := by
  have hrun : ((({} : Stage).loadScript eager 10 postscript).bind fun w =>
      (w.spawn [.advance .own] none).steps eager 11) = some curtain := rfl
  obtain ⟨v, hload, hsteps⟩ := Option.bind_eq_some_iff.mp hrun
  have hspawn : Next eager v (v.spawn [.advance .own] none) := .spawn (by simp [Frame.FromOutside])
  exact (Reaches.loadScript postscript_read hload).trans (.head hspawn (Reaches.steps hsteps))

/-- After the pause, however long, it is the turn of the text. -/
theorem steps_curtain :
    ∃ w, curtain.steps eager 3 = some w ∧ w.journal = curtain.journal ∧
      w.calls = curtain.calls ++ [.shown ⟨.whole 1, ["@text", "b"], .text "b"⟩] := by
  have hstep : curtain.step eager = some (({ curtain with active := none }.setFrames 1 []).sleep 1
      curtain.session.settings.settleDelay) := rfl
  have hsteps : curtain.steps eager 3 =
      (({ curtain with active := none }.setFrames 1 []).sleep 1
        curtain.session.settings.settleDelay).steps eager 2 := by
    rw [Stage.steps, hstep, Option.bind_some]
  rw [hsteps, Stage.sleep]
  split
  · exact ⟨_, rfl, rfl, rfl⟩
  · exact ⟨_, rfl, rfl, rfl⟩

/-- In the scene with the postscript the text is one of those that wait at the end. -/
theorem ended_scene_shows_only_waiting_postscript :
    ({} : Stage).New ∧ Reaches eager {} curtain ∧ curtain.session.finished = true ∧
      ∃ w, ReachesBy Move.RunsNoCommand eager curtain w ∧
        w.calls = curtain.calls ++ [.shown ⟨.whole 1, ["@text", "b"], .text "b"⟩] ∧
        {⟨.whole 1, ["@text", "b"], .text "b"⟩} ≤ curtain.waiting := by
  have hnew : ({} : Stage).New := ⟨⟨rfl, rfl, rfl⟩, rfl, rfl⟩
  have hfinished : curtain.session.finished = true := rfl
  obtain ⟨w, hsteps, hjournal, hcalls⟩ := steps_curtain
  have hrun : ReachesBy Move.RunsNoCommand eager curtain w := ReachesBy.steps trivial hsteps
  obtain ⟨since, later, hsince, hlater, -, -, hshown⟩ :=
    ended_scene_shows_only_waiting hnew reaches_curtain hfinished hrun
  have hnothing : since = [] := by
    rw [hjournal] at hsince
    exact List.append_left_eq_self.mp hsince.symm
  have htext : later = [.shown ⟨.whole 1, ["@text", "b"], .text "b"⟩] := by
    rw [hcalls] at hlater
    exact (List.append_cancel_left hlater).symm
  obtain ⟨hwaiting, -⟩ := hshown (by simp [hnothing])
  rw [htext] at hwaiting
  exact ⟨hnew, reaches_curtain, hfinished, w, hrun, hcalls, hwaiting⟩

/-- The listener is told of the end of the scene, and then it is shown a text of it. -/
theorem text_shown_after_end :
    ∃ react w, Reaches react {} w ∧ loads w.journal = 1 ∧ w.session.script = postscript ∧
      w.calls = [.shown ⟨.whole 0, ["@image", "a"], .image "a"⟩, .ended,
        .shown ⟨.whole 1, ["@text", "b"], .text "b"⟩] := by
  obtain ⟨w, hsteps, hjournal, hcalls⟩ := steps_curtain
  have hreach : Reaches eager {} w := reaches_curtain.trans (Reaches.steps hsteps)
  have hfresh : ({} : Stage).Fresh := ⟨rfl, rfl, rfl⟩
  refine ⟨eager, w, hreach, ?_, ?_, hcalls.trans rfl⟩
  · rw [hjournal]
    rfl
  · rw [(hfresh.reaches_faithful hreach).session_eq, hjournal]
    rfl

end Stage

end ChatScene

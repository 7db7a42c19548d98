/-
  Beats cut a script into pieces.

  1. **One beat** — goes from the cursor to the first command there or after that ends its beat (`Settings.Ends`), or to
     the end of the script when there is none (`takeBeat_cases`).  Collecting it moves the cursor right behind it and
     warns of the choices and jumps in it that something follows (`filter_beatLog`); all of this is `Collects`.

  2. **All beats** — collected one after the other until there is none left (`Exhausts`).  Nothing is lost, repeated or
     moved: put together again they are the commands from the cursor on.  Each of them goes as far as it can, and no
     further.  This is `Settings.Cuts`.

  3. **Main result** (`beats_partition_script`) — on every stage whose cursor is in range a beat is collected in this
     sense, and every script that is loaded is cut into its beats.
-/
import ChatScene.Proofs.Faithful

namespace ChatScene

/-! ## Where a beat ends -/

/-- `s.Ends c` — a command that ends its beat: texts, conditions and pauses always do, choices and jumps when the
    settings say so. -/
def Settings.Ends (s : Settings) (c : Command) : Prop :=
  c.kind = .text ∨ c.kind = .condition ∨ c.kind = .wait ∨
    c.kind = .choice ∧ s.choiceEndsBeat = true ∨ c.kind = .jump ∧ s.jumpEndsBeat = true

instance (s : Settings) (c : Command) : Decidable (s.Ends c) := by
  unfold Settings.Ends
  infer_instance

/-- The test of a kind is the condition on the command. -/
theorem Settings.endsBeat_iff {s : Settings} {c : Command} : s.endsBeat c.kind = true ↔ s.Ends c := by
  cases hkind : c.kind <;> simp [Settings.endsBeat, Settings.Ends, hkind]

/-- `s.beatSize cs` — how many of some commands the first beat takes: one more than stand before the first that ends
    its beat, or all of them when none does. -/
def Settings.beatSize (s : Settings) (cs : List Command) : Nat :=
  match cs.findIdx? fun c => s.Ends c with
  | some before => before + 1
  | none => cs.length

/-- The two cases: some command ends the first beat (`Ends`), or none does and all of them make one beat. -/
theorem takeBeat_cases (s : Settings) (cs : List Command) :
    (∃ before c after, cs = before ++ c :: after ∧ (∀ d ∈ before, ¬ s.Ends d) ∧ s.Ends c ∧
      takeBeat s.endsBeat cs = before ++ [c]) ∨
    (∀ d ∈ cs, ¬ s.Ends d) ∧ takeBeat s.endsBeat cs = cs := by
  induction cs with
  | nil => exact .inr ⟨by simp, rfl⟩
  | cons d cs ih =>
    by_cases hd : s.Ends d
    · exact .inl ⟨[], d, cs, rfl, by simp, hd, by simp [takeBeat, Settings.endsBeat_iff, hd]⟩
    · have htake : takeBeat s.endsBeat (d :: cs) = d :: takeBeat s.endsBeat cs := by
        simp [takeBeat, Settings.endsBeat_iff, hd]
      rw [htake]
      rcases ih with ⟨before, c, after, rfl, hbefore, hc, hbeat⟩ | ⟨hall, hbeat⟩
      · refine .inl ⟨d :: before, c, after, rfl, ?_, hc, by rw [hbeat]; rfl⟩
        exact List.forall_mem_cons.mpr ⟨hd, hbefore⟩
      · exact .inr ⟨List.forall_mem_cons.mpr ⟨hd, hall⟩, by rw [hbeat]⟩

/-- The size of the first beat when some command ends it. -/
theorem Settings.beatSize_of_ends {s : Settings} {before after : List Command} {c : Command}
    (hbefore : ∀ d ∈ before, ¬ s.Ends d) (hc : s.Ends c) :
    s.beatSize (before ++ c :: after) = before.length + 1 := by
  have hfind : (before ++ c :: after).findIdx? (fun c => s.Ends c) = some before.length := by
    rw [List.findIdx?_append, List.findIdx?_eq_none_iff.mpr (by simpa using hbefore)]
    simp [List.findIdx?_cons, hc]
  rw [Settings.beatSize, hfind]

theorem Settings.beatSize_of_not_ends {s : Settings} {cs : List Command} (hall : ∀ d ∈ cs, ¬ s.Ends d) :
    s.beatSize cs = cs.length := by
  rw [Settings.beatSize, List.findIdx?_eq_none_iff.mpr (by simpa using hall)]

/-- A beat has no more commands than there are. -/
theorem Settings.beatSize_le (s : Settings) (cs : List Command) : s.beatSize cs ≤ cs.length := by
  rcases takeBeat_cases s cs with ⟨before, c, after, rfl, hbefore, hc, -⟩ | ⟨hall, -⟩
  · rw [Settings.beatSize_of_ends hbefore hc]
    simp
  · exact Nat.le_of_eq (Settings.beatSize_of_not_ends hall)

/-- The first beat are the first so many commands. -/
theorem takeBeat_eq_take (s : Settings) (cs : List Command) : takeBeat s.endsBeat cs = cs.take (s.beatSize cs) := by
  rcases takeBeat_cases s cs with ⟨before, c, after, rfl, hbefore, hc, hbeat⟩ | ⟨hall, hbeat⟩
  · rw [hbeat, Settings.beatSize_of_ends hbefore hc, List.take_length_add_append]
    rfl
  · rw [hbeat, Settings.beatSize_of_not_ends hall, List.take_length]

/-! ## Commands cut into beats -/

/-- `s.Cuts cs beats` — some commands as a sequence of beats. -/
structure Settings.Cuts (s : Settings) (cs : List Command) (beats : List (List Command)) : Prop where
  /-- Together the beats are the commands. -/
  flatten_eq : beats.flatten = cs
  /-- There is something in each of them. -/
  ne_nil : ∀ beat ∈ beats, beat ≠ []
  /-- Nothing but the last command ends a beat. -/
  inner : ∀ beat ∈ beats, ∀ c ∈ beat.dropLast, ¬ s.Ends c
  /-- The last command of a beat ends it, except perhaps in the last one. -/
  last : ∀ beat ∈ beats.dropLast, ∃ c, beat.getLast? = some c ∧ s.Ends c

theorem Settings.Cuts.nil (s : Settings) : s.Cuts [] [] := ⟨rfl, by simp, by simp, by simp⟩

/-- The first beat and those of the rest are the beats of all (`Cuts`): the first one is as long as it can be. -/
theorem Settings.Cuts.cons {s : Settings} {cs rest : List Command} {beats : List (List Command)} (hne : cs ≠ [])
    (hsplit : cs = takeBeat s.endsBeat cs ++ rest) (h : s.Cuts rest beats) :
    s.Cuts cs (takeBeat s.endsBeat cs :: beats) := by
  have hinner : ∀ c ∈ (takeBeat s.endsBeat cs).dropLast, ¬ s.Ends c := by
    rcases takeBeat_cases s cs with ⟨before, c, after, -, hbefore, -, hbeat⟩ | ⟨hall, hbeat⟩
    · rw [hbeat, List.dropLast_concat]
      exact hbefore
    · rw [hbeat]
      exact fun c hc => hall c (List.dropLast_subset cs hc)
  refine ⟨?_, ?_, ?_, ?_⟩
  · rw [List.flatten_cons, h.flatten_eq, ← hsplit]
  · exact List.forall_mem_cons.mpr ⟨fun hnil => hne (takeBeat_eq_nil.mp hnil), h.ne_nil⟩
  · exact List.forall_mem_cons.mpr ⟨hinner, h.inner⟩
  · cases beats with
    | nil => simp
    | cons next beats =>
      rw [List.dropLast_cons_of_ne_nil (by simp)]
      refine List.forall_mem_cons.mpr ⟨?_, h.last⟩
      rcases takeBeat_cases s cs with ⟨before, c, after, -, -, hc, hbeat⟩ | ⟨-, hbeat⟩
      · exact ⟨c, by rw [hbeat, List.getLast?_concat], hc⟩
      · -- a beat that takes all there is leaves nothing for the next one
        have hrest : rest = [] := by
          rw [hbeat] at hsplit
          simpa using hsplit
        have hnext : next = [] := by
          have hflat := h.flatten_eq
          rw [hrest, List.flatten_cons] at hflat
          exact (List.append_eq_nil_iff.mp hflat).1
        exact absurd hnext (h.ne_nil next List.mem_cons_self)

/-! ## Collecting one beat -/

/-- `delayWarning c last` — the warning that a command takes effect only after others have run, up to the last of its
    beat. -/
def delayWarning (c last : Command) : LogLine :=
  ⟨.warning, .session, s!"{c.keyword} at line {c.line.toInt} does not end its beat; lines up to {last.line.toInt} "
    ++ "run before it takes effect."⟩

/-- Warnings are about commands that are not the last of their beat. -/
theorem delayWarnings_concat (before : List Command) (last : Command) :
    delayWarnings (before ++ [last]) =
      (before.filter fun c => c.kind = .choice ∨ c.kind = .jump).map fun c => delayWarning c last := by
  have hdelayed : (fun c : Command => c.kind.isDelayed) = fun c => decide (c.kind = .choice ∨ c.kind = .jump) := by
    funext c
    cases c.kind <;> rfl
  simp only [delayWarnings, List.getLast?_concat, List.dropLast_concat, hdelayed, delayWarning]

/-- Of a beat that is collected, the warnings (`delayWarning`) are those about choices and jumps before its last
    command. -/
theorem filter_beatLog (beat : List Command) :
    (beatLog beat).filter (·.level = .warning) =
      (beat.dropLast.filter fun c => c.kind = .choice ∨ c.kind = .jump).map
        fun c => delayWarning c (beat.getLastD c) := by
  rcases List.eq_nil_or_concat beat with rfl | ⟨before, last, rfl⟩
  · rfl
  · simp only [beatLog, List.concat_eq_append, delayWarnings_concat]
    simp [List.filter_map, Function.comp_def, delayWarning]

namespace Stage

variable {w v : Stage} {beat : List Command} {beats : List (List Command)}

/-- The commands that have not been collected: those from the cursor on. -/
def ahead (w : Stage) : List Command := w.session.script.commands.drop w.session.cursor

/-- `w.Collects beat v` — what it means that a beat is collected. -/
structure Collects (w : Stage) (beat : List Command) (v : Stage) : Prop where
  /-- The beat is what stands from the cursor on, up to the first command that ends its beat. -/
  beat_eq : beat = w.ahead.take (w.session.settings.beatSize w.ahead)
  /-- The cursor moves right behind the beat, and nothing else about the session changes. -/
  session_eq : v.session = { w.session with cursor := w.session.cursor + w.session.settings.beatSize w.ahead }
  /-- It stays inside the script. -/
  cursor_le : v.session.cursor ≤ w.session.script.commands.length
  /-- There is no beat at the end of the script, and nowhere else. -/
  nil_iff : beat = [] ↔ w.session.cursor = w.session.script.commands.length
  /-- The choices and jumps that are not last in the beat are warned of, each once and in order, and nothing else. -/
  warned : ∃ lines : List LogLine, v.seen = (lines.map Moment.log).reverse ++ w.seen ∧
    lines.filter (·.level = .warning) =
      (beat.dropLast.filter fun c => c.kind = .choice ∨ c.kind = .jump).map fun c => delayWarning c (beat.getLastD c)

theorem collect_eq (w : Stage) (number : Option Nat) :
    w.collect number =
      ({ w with
          session := { w.session with cursor := w.session.cursor + w.session.nextBeat.length }
          journal := .collect number w.session.nextBeat :: w.journal
          seen := ((beatLog w.session.nextBeat).map Moment.log).reverse ++ w.seen },
        w.session.nextBeat) := by
  simp only [collect, logAll_eq]
  rfl

/-- A beat is collected (`Collects`), whatever is ahead. -/
theorem collect_collects (hcursor : w.session.cursor ≤ w.session.script.commands.length) (number : Option Nat) :
    ∃ beat v, w.collect number = (v, beat) ∧ w.Collects beat v := by
  have hbeat : w.session.nextBeat = w.ahead.take (w.session.settings.beatSize w.ahead) := takeBeat_eq_take _ _
  have hle : w.session.settings.beatSize w.ahead ≤ w.ahead.length := Settings.beatSize_le _ _
  have hlength : w.session.nextBeat.length = w.session.settings.beatSize w.ahead := by
    rw [hbeat, List.length_take_of_le hle]
  have hahead : w.ahead.length = w.session.script.commands.length - w.session.cursor := List.length_drop
  refine ⟨_, _, collect_eq w number, hbeat, by rw [← hlength], ?_, ?_, _, rfl, filter_beatLog _⟩
  · show w.session.cursor + w.session.nextBeat.length ≤ _
    omega
  · rw [Session.nextBeat, takeBeat_eq_nil, List.drop_eq_nil_iff]
    omega

/-! ## Collecting all beats -/

/-- Beats are collected until there is none left. -/
inductive Exhausts : Stage → List (List Command) → Stage → Prop where
  | done {w v : Stage} : w.collect = (v, []) → Exhausts w [] v
  | more {w v u : Stage} {beat : List Command} {beats : List (List Command)} :
      w.collect = (v, beat) → beat ≠ [] → Exhausts v beats u → Exhausts w (beat :: beats) u

/-- What is `ahead` of a beat that has been collected is what came after it. -/
theorem Collects.ahead_eq (h : w.Collects beat v) : w.ahead = beat ++ v.ahead := by
  have hahead : v.ahead = w.ahead.drop (w.session.settings.beatSize w.ahead) := by
    simp only [ahead, h.session_eq, List.drop_drop]
  rw [hahead, h.beat_eq, List.take_append_drop]

/-- The beats of what comes after it, with this one before them. -/
theorem Collects.cuts (h : w.Collects beat v) (hne : beat ≠ []) (hcuts : v.session.settings.Cuts v.ahead beats) :
    w.session.settings.Cuts w.ahead (beat :: beats) := by
  have hbeat : beat = takeBeat w.session.settings.endsBeat w.ahead := by rw [h.beat_eq, takeBeat_eq_take]
  have hsettings : v.session.settings = w.session.settings := by rw [h.session_eq]
  have hahead := h.ahead_eq
  rw [hsettings] at hcuts
  rw [hbeat] at hahead hne ⊢
  exact .cons (fun hnil => hne (takeBeat_eq_nil.mpr hnil)) hahead hcuts

/-- Collecting comes to an end (`Exhausts`): every beat that is not empty moves the cursor on.  The induction is on how
    many commands are ahead. -/
theorem exists_exhausts (hcursor : w.session.cursor ≤ w.session.script.commands.length) :
    ∃ beats v, Exhausts w beats v ∧ w.session.settings.Cuts w.ahead beats ∧
      v.session = { w.session with cursor := w.session.script.commands.length } := by
  -- what is ahead gets shorter with every beat
  induction hn : w.ahead.length using Nat.strongRecOn generalizing w with
  | ind n ih =>
    obtain ⟨beat, v, hcollect, hcollects⟩ := collect_collects hcursor none
    by_cases hbeat : beat = []
    · subst hbeat
      have hend : w.session.cursor = w.session.script.commands.length := hcollects.nil_iff.mp rfl
      have hnone : w.ahead = [] := by rw [ahead, hend, List.drop_length]
      refine ⟨[], v, .done hcollect, ?_, ?_⟩
      · rw [hnone]
        exact .nil _
      · rw [hcollects.session_eq, hnone, ← hend]
        rfl
    · have hshorter : v.ahead.length < n := by
        have hpos : 0 < beat.length := List.length_pos_iff.mpr hbeat
        rw [← hn, hcollects.ahead_eq, List.length_append]
        omega
      have hscript : v.session.script = w.session.script := by rw [hcollects.session_eq]
      obtain ⟨beats, u, hexhausts, hcuts, hsession⟩ := ih _ hshorter (hscript ▸ hcollects.cursor_le) rfl
      refine ⟨beat :: beats, u, .more hcollect hbeat hexhausts, hcollects.cuts hbeat hcuts, ?_⟩
      rw [hsession, hcollects.session_eq]

/-- Collecting a beat takes the commands from the cursor up to the first one that ends its beat, or up to the end of
    the script, and puts the cursor behind them; it takes nothing only at the end.  From the start of a script,
    collecting comes to an end, and the beats make up the whole script (`Cuts`): in each of them there is
    something, nothing but its last command ends it, and that one does, except perhaps in the last beat. -/
theorem beats_partition_script (w : Stage) :
    (w.session.cursor ≤ w.session.script.commands.length →
      ∀ number, ∃ beat v, w.collect number = (v, beat) ∧ w.Collects beat v) ∧
    ∀ script, ∃ beats v, Exhausts (w.load script).1 beats v ∧ v.session.cursor = script.commands.length ∧
      w.session.settings.Cuts script.commands beats := by
  constructor
  · intro hcursor number
    exact collect_collects hcursor number
  · intro script
    obtain ⟨beats, v, hexhausts, hcuts, hsession⟩ := exists_exhausts (w := (w.load script).1) (Nat.zero_le _)
    exact ⟨beats, v, hexhausts, by rw [hsession]; rfl, hcuts⟩

/-! ## A scene with a jump inside a beat -/

/-- A scene of six commands. -/
def errand : Script :=
  Script.ofCommands "parsed"
    [⟨.whole 0, ["@image", "key"], .image "key"⟩, ⟨.whole 1, ["@goto", "home"], .jump "home"⟩,
     ⟨.whole 2, ["@text", "Off we go."], .text "Off we go."⟩, ⟨.whole 3, ["@label", "home"], .label "home"⟩,
     ⟨.whole 4, ["@choice", "v", "x", "y"], .choice "v" ["x", "y"]⟩, ⟨.whole 5, ["@image", "lamp"], .image "lamp"⟩]

/-- Its second command is to be collected next. -/
def errandStage : Stage := { session := { script := errand, cursor := 1 } }

/-- The next beat is a jump and a text, and the jump is warned of. -/
theorem beats_partition_script_errand :
    errandStage.session.cursor ≤ errandStage.session.script.commands.length ∧
    (∃ beat v, errandStage.collect = (v, beat) ∧ errandStage.Collects beat v ∧
      beat.map Command.kind = [.jump, .text] ∧ v.session.cursor = 3) ∧
    ∃ beats v, Exhausts (errandStage.load errand).1 beats v ∧ v.session.cursor = 6 ∧
      errandStage.session.settings.Cuts errand.commands beats := by
  obtain ⟨hone, hall⟩ := beats_partition_script errandStage
  have hcursor : errandStage.session.cursor ≤ errandStage.session.script.commands.length := by decide
  obtain ⟨beat, v, hcollect, hcollects⟩ := hone hcursor none
  refine ⟨hcursor, ⟨beat, v, hcollect, hcollects, ?_, ?_⟩, hall errand⟩
  · rw [hcollects.beat_eq]
    rfl
  · rw [hcollects.session_eq]
    rfl

end Stage

end ChatScene

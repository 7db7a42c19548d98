/-
  What the commands of an old scene can do to a new one.

  A script may be loaded while commands of the scene before are still to run.  They run on: texts, images, pauses and
  labels of the old scene leave the new session alone, but a choice becomes the pending choice of the new session, and
  a jump moves the new cursor if the new script has the label.  This is all that they can do, and each of the other
  changes to the new session is due to its own commands, to an advance, or to whoever sets a variable.

  1. **Whose deed** — the journal tells for an offer and for a jump from which beat its command came (`Deed.beat?`), and
     the beat is in the journal as well, before it.  So an honest journal says which command did the deed, and what it
     changed (`Honest.changes`); the two ways in which a command can change a session are those of `Command.Changes`.

  2. **After a load** — the same, with the script that was loaded last (`Honest.changes_since`).

  3. **Main result** (`old_beats_only_offer_or_jump`) — for every reachable stage and every load in its journal.  A beat
     of the old scene without choices and without labels of the new script (`Command.Touches`) does nothing at all.

  4. **That it happens** — a jump into the new scene is the witness, and `old_choice_pends_in_new_session` shows a scene
     without choices that is left with the choice of another one.
-/
import ChatScene.Proofs.Cursor

namespace ChatScene

/-! ## Deeds of commands -/

/-- The beat whose command did the deed. -/
def Deed.beat? : Deed → Option Nat
  | .offer number _ _ => number
  | .jump number _ _ _ => number
  | _ => none

theorem Session.script_after {s : Session} {d : Deed} (hd : ∀ script, d ≠ .load script) :
    (s.after d).script = s.script := by
  cases d with
  | load script => exact absurd rfl (hd script)
  | pass context passage => cases context <;> rfl
  | answer | collect | offer | jump | finish | adjust | attach => rfl

theorem Session.script_replay (s : Session) {script : Script} {since before : List Deed}
    (hsince : ∀ other, Deed.load other ∉ since) : (s.replay (since ++ .load script :: before)).script = script := by
  induction since with
  | nil => rfl
  | cons d since ih =>
    have hrest : ∀ other, Deed.load other ∉ since := fun other hmem => hsince other (List.mem_cons_of_mem _ hmem)
    have hd : ∀ other, d ≠ .load other := fun other heq => hsince other (heq ▸ List.mem_cons_self)
    rw [List.cons_append, Session.replay_cons, Session.script_after hd]
    exact ih hrest

/-- The label that a command names as its goal, whether it goes there or not. -/
def Command.goal? (c : Command) : Option String :=
  match c.body with
  | .jump label => some label
  | .condition test => some test.label
  | _ => none

/-- A jump that is taken goes where the command says. -/
theorem Command.goal?_of_target? {store : List (String × String)} {c : Command} {label : String}
    (h : c.target? store = some label) : c.goal? = some label := by
  cases hbody : c.body with
  | jump goal =>
    simp only [Command.target?, hbody] at h
    simpa [Command.goal?, hbody] using h
  | condition test =>
    simp only [Command.target?, hbody] at h
    split at h
    · split at h
      · simpa [Command.goal?, hbody] using h
      · cases h
    · cases h
  | bare | text | image | choice | label | wait => simp [Command.target?, hbody] at h

/-- `c.Changes s s'` — the ways in which a command can change a session: a choice becomes the pending one, and a jump
    that is taken moves the cursor to the first definition of its label in the script of that session. -/
def Command.Changes (c : Command) (s s' : Session) : Prop :=
  (∃ var choices, c.body = .choice var choices ∧ s' = { s with pending := some ⟨c.line, var, choices⟩ }) ∨
  ∃ label position, c.target? s.store = some label ∧ s.script.DefinesFirst label position ∧
    s' = { s with cursor := position }

/-- A deed of a beat is done by one of the commands (`Changes`) that the beat collected, and it is an offer or a jump
    of that command. -/
theorem Honest.changes {s₀ : Session} {js : List Deed} {d : Deed} (h : Honest s₀ (d :: js)) (h₀ : s₀.InRange)
    {n : Nat} (hn : d.beat? = some n) :
    ∃ beat c, Deed.collect (some n) beat ∈ js ∧ c ∈ beat ∧ c.Changes (s₀.replay js) (s₀.replay (d :: js)) := by
  have hfits := h.fits
  cases d with
  | offer number c choice =>
    cases hn
    obtain ⟨-, hcollected, var, choices, hbody, rfl⟩ := hfits
    obtain ⟨beat, hbeat, hc⟩ := hcollected n rfl
    exact ⟨beat, c, hbeat, hc, .inl ⟨var, choices, hbody, rfl⟩⟩
  | jump number c label position =>
    cases hn
    obtain ⟨-, hcollected, htarget, hfind⟩ := hfits
    obtain ⟨beat, hbeat, hc⟩ := hcollected n rfl
    have hjs : (s₀.replay js).InRange := (h.of_suffix (List.suffix_cons _ js)).inRange h₀
    exact ⟨beat, c, hbeat, hc, .inr ⟨label, position, htarget, hjs.sound.definesFirst hfind, rfl⟩⟩
  | load | answer | collect | finish | adjust | attach | pass => cases hn

/-- `c.Touches script` — a command that can change a session on this script: a choice, or one that names a label of the
    script. -/
def Command.Touches (script : Script) (c : Command) : Prop :=
  c.kind = .choice ∨ ∃ label position, c.goal? = some label ∧ script.DefinesFirst label position

/-- A command that changes a session touches its script (`Touches`): it is a choice, or names a label of the script of
    the session. -/
theorem Command.Changes.touches {c : Command} {s s' : Session} (h : c.Changes s s') : c.Touches s.script := by
  rcases h with ⟨var, choices, hbody, -⟩ | ⟨label, position, htarget, hfirst, -⟩
  · exact .inl (by rw [Command.kind, hbody]; rfl)
  · exact .inr ⟨label, position, Command.goal?_of_target? htarget, hfirst⟩

/-- The same after a load, with the `beat` before or after it. -/
theorem Honest.changes_since {s₀ : Session} {script : Script} {later sofar before : List Deed} {d : Deed}
    (h : Honest s₀ (later ++ d :: (sofar ++ .load script :: before))) (h₀ : s₀.InRange)
    (hsofar : ∀ other, Deed.load other ∉ sofar) {n : Nat} (hn : d.beat? = some n) :
    (s₀.replay (sofar ++ .load script :: before)).script = script ∧
    ∃ beat c, (Deed.collect (some n) beat ∈ sofar ∨ Deed.collect (some n) beat ∈ before) ∧ c ∈ beat ∧
      c.Changes (s₀.replay (sofar ++ .load script :: before)) (s₀.replay (d :: (sofar ++ .load script :: before))) := by
  obtain ⟨beat, c, hbeat, hc, hchange⟩ := (h.of_suffix (List.suffix_append later _)).changes h₀ hn
  refine ⟨Session.script_replay _ hsofar, beat, c, ?_, hc, hchange⟩
  rcases List.mem_append.mp hbeat with hmem | hmem
  · exact .inl hmem
  · exact .inr ((List.mem_cons.mp hmem).resolve_left (by simp))

namespace Stage

/-- A script is loaded, at whatever moment, and no other one since.  The session starts anew.  What a command of any
    beat, also of one that was collected before, does since then is one of two things: a choice becomes the
    `pending` choice, or a jump leads to its label in the new script.  So a beat that was collected before leaves
    the session alone if it has no choice and names no label of the new script. -/
theorem old_beats_only_offer_or_jump {react : Reactions} {w₀ w : Stage} (h₀ : w₀.Fresh) (h : Reaches react w₀ w)
    {script : Script} {since before : List Deed} (hjournal : w.journal = since ++ .load script :: before)
    (hsince : ∀ other, Deed.load other ∉ since) :
    w₀.session.replay (.load script :: before) =
      { w₀.session.replay before with
        script, cursor := 0, store := [], depth := 0, pending := none, finished := false } ∧
    (∀ later d sofar n, since = later ++ d :: sofar → d.beat? = some n →
      (w₀.session.replay (sofar ++ .load script :: before)).script = script ∧
      ∃ beat c, (Deed.collect (some n) beat ∈ sofar ∨ Deed.collect (some n) beat ∈ before) ∧ c ∈ beat ∧
        c.Changes (w₀.session.replay (sofar ++ .load script :: before))
          (w₀.session.replay (d :: (sofar ++ .load script :: before)))) ∧
    ∀ n beat, Deed.collect (some n) beat ∈ before → (∀ c ∈ beat, ¬ c.Touches script) →
      ∀ d ∈ since, d.beat? ≠ some n := by
  have hw := h₀.reaches_faithful h
  have hhonest := hw.honest
  rw [hjournal] at hhonest
  refine ⟨rfl, fun later d sofar n hsplit hn => ?_, fun n beat hbeat hnone d hd hn => ?_⟩
  · subst hsplit
    rw [List.append_assoc] at hhonest
    refine hhonest.changes_since hw.start (fun other hmem => hsince other ?_) hn
    exact List.mem_append_right _ (List.mem_cons_of_mem _ hmem)
  · obtain ⟨later, sofar, rfl⟩ := List.append_of_mem hd
    have hsofar : ∀ other, Deed.load other ∉ sofar := fun other hmem =>
      hsince other (List.mem_append_right _ (List.mem_cons_of_mem _ hmem))
    rw [List.append_assoc] at hhonest
    obtain ⟨hscript, other, c, hother, hc, hchange⟩ := hhonest.changes_since hw.start hsofar hn
    -- a number belongs to one beat, so the command that did the deed is one of this beat
    have hother : Deed.collect (some n) other ∈ d :: (sofar ++ .load script :: before) := by
      rcases hother with hmem | hmem <;> simp [hmem]
    have hbeat : Deed.collect (some n) beat ∈ d :: (sofar ++ .load script :: before) := by simp [hbeat]
    have heq : other = beat := (hhonest.of_suffix (List.suffix_append later _)).collect_unique hother hbeat
    exact hnone c (heq ▸ hc) (hscript ▸ hchange.touches)

/-! ## Scenes that are replaced while they are played

A handler that hears of each beat loads another script at the first one, after the beat has been collected and before
its commands run. -/

/-- A stage with a handler for beats. -/
def beatHeard : Stage := { bus := some { table := [(.beatStarted, [⟨0, false⟩])] } }

/-- The handler loads a script when the first beat begins. -/
def replaceBy (text : String) : Reactions := fun cue n =>
  if cue = .heard 0 .beatStarted ∧ n = 0 then [.setup text] else []

/-- A jump to the end. -/
def leap : Script :=
  Script.ofCommands "parsed"
    [⟨.whole 0, ["@goto", "end"], .jump "end"⟩, ⟨.whole 1, ["@label", "end"], .label "end"⟩]

theorem leap_read : leap.Read := by
  have hparse : Script.parse defaultMark unnamedSource "@goto, end\n@label, end" = .ok leap := rfl
  exact .text hparse

/-- Another scene with a label of the same name, elsewhere. -/
def landing : Script :=
  Script.ofCommands "parsed"
    [⟨.whole 0, ["@image", "one"], .image "one"⟩, ⟨.whole 1, ["@image", "two"], .image "two"⟩,
     ⟨.whole 2, ["@label", "end"], .label "end"⟩]

/-- The jump is collected, another script is loaded, and then the jump is taken in it. -/
theorem leap_journal :
    ((beatHeard.loadScript (replaceBy "@image, one\n@image, two\n@label, end") 10 leap).bind fun w =>
      (w.spawn [.advance .own] none).steps (replaceBy "@image, one\n@image, two\n@label, end") 6).map
      (fun w => w.journal) =
    some ([.jump (some 0) ⟨.whole 0, ["@goto", "end"], .jump "end"⟩ "end" 2] ++ .load landing ::
      [.collect (some 0) [⟨.whole 0, ["@goto", "end"], .jump "end"⟩, ⟨.whole 1, ["@label", "end"], .label "end"⟩],
       .pass .own .enter, .load leap]) := by
  rfl

/-- The jump of the old scene leads to the label of the new one. -/
theorem old_beats_only_offer_or_jump_leap :
    beatHeard.Fresh ∧ ∃ react w since before, Reaches react beatHeard w ∧
      w.journal = since ++ .load landing :: before ∧ (∀ other, Deed.load other ∉ since) ∧
      ∃ d beat c, d ∈ since ∧ d.beat? = some 0 ∧ Deed.collect (some 0) beat ∈ before ∧ c ∈ beat ∧
        c.Changes (beatHeard.session.replay (.load landing :: before)) w.session := by
  have hfresh : beatHeard.Fresh := ⟨rfl, rfl, rfl⟩
  obtain ⟨w, hrun, hjournal⟩ := Option.map_eq_some_iff.mp leap_journal
  obtain ⟨v, hload, hsteps⟩ := Option.bind_eq_some_iff.mp hrun
  have hspawn : Next (replaceBy "@image, one\n@image, two\n@label, end") v (v.spawn [.advance .own] none) :=
    .spawn (by simp [Frame.FromOutside])
  have hreach : Reaches (replaceBy "@image, one\n@image, two\n@label, end") beatHeard w :=
    (Reaches.loadScript leap_read hload).trans (.head hspawn (Reaches.steps hsteps))
  have hnoload : ∀ other, Deed.load other ∉
      [Deed.jump (some 0) ⟨.whole 0, ["@goto", "end"], .jump "end"⟩ "end" 2] := by simp
  obtain ⟨-, hchanges, -⟩ := old_beats_only_offer_or_jump hfresh hreach hjournal hnoload
  obtain ⟨-, beat, c, hbeat, hc, hchange⟩ := hchanges [] _ [] 0 rfl rfl
  have hold := hbeat.resolve_left List.not_mem_nil
  refine ⟨hfresh, _, w, _, _, hreach, hjournal, hnoload, _, beat, c, List.mem_cons_self, rfl, hold, hc, ?_⟩
  rw [(hfresh.reaches_faithful hreach).session_eq, hjournal]
  exact hchange

/-- A choice. -/
def question : Script :=
  Script.ofCommands "parsed" [⟨.whole 0, ["@choice", "v", "x", "y"], .choice "v" ["x", "y"]⟩]

theorem question_read : question.Read := by
  have hparse : Script.parse defaultMark unnamedSource "@choice, v, x, y" = .ok question := rfl
  exact .text hparse

/-- A scene without choices. -/
def monologue : Script :=
  Script.ofCommands "parsed"
    [⟨.whole 0, ["@text", "one"], .text "one"⟩, ⟨.whole 1, ["@text", "two"], .text "two"⟩]

/-- The choice is collected, another script is loaded, and then the choice is offered. -/
theorem question_journal :
    ((beatHeard.loadScript (replaceBy "@text, one\n@text, two") 10 question).bind fun w =>
      (w.spawn [.advance .own] none).steps (replaceBy "@text, one\n@text, two") 6).map (fun w => w.journal) =
    some ([.offer (some 0) ⟨.whole 0, ["@choice", "v", "x", "y"], .choice "v" ["x", "y"]⟩
        ⟨.whole 0, "v", ["x", "y"]⟩] ++
      .load monologue ::
      [.collect (some 0) [⟨.whole 0, ["@choice", "v", "x", "y"], .choice "v" ["x", "y"]⟩], .pass .own .enter,
       .load question]) := by
  rfl

/-- A session on a scene without choices waits for the choice of the scene before. -/
theorem old_choice_pends_in_new_session :
    ∃ react w since before, Reaches react beatHeard w ∧ w.journal = since ++ .load monologue :: before ∧
      (∀ other, Deed.load other ∉ since) ∧
      (∃ d beat, d ∈ since ∧ d.beat? = some 0 ∧ Deed.collect (some 0) beat ∈ before) ∧
      (beatHeard.session.replay (.load monologue :: before)).pending = none ∧
      w.session.script = monologue ∧ (∀ c ∈ monologue.commands, c.kind ≠ .choice) ∧ w.session.pending.isSome := by
  obtain ⟨w, hrun, hjournal⟩ := Option.map_eq_some_iff.mp question_journal
  obtain ⟨v, hload, hsteps⟩ := Option.bind_eq_some_iff.mp hrun
  have hspawn : Next (replaceBy "@text, one\n@text, two") v (v.spawn [.advance .own] none) :=
    .spawn (by simp [Frame.FromOutside])
  have hreach : Reaches (replaceBy "@text, one\n@text, two") beatHeard w :=
    (Reaches.loadScript question_read hload).trans (.head hspawn (Reaches.steps hsteps))
  have hfresh : beatHeard.Fresh := ⟨rfl, rfl, rfl⟩
  have hsession := (hfresh.reaches_faithful hreach).session_eq
  rw [hjournal] at hsession
  refine ⟨_, w, _, _, hreach, hjournal, by simp, ⟨_, _, List.mem_cons_self, rfl, List.mem_cons_self⟩, rfl, ?_, ?_, ?_⟩
  · rw [hsession]
    rfl
  · decide
  · rw [hsession]
    rfl

end Stage

end ChatScene

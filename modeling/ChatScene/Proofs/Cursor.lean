/-
  The cursor never leaves the script, and jumps land on labels.

  Every state that a session passes through is the replay of a part of its journal: the deeds up to some moment.  So a
  statement about all of them, those in the middle of a reaction or of a delivery included, is a statement about all
  ends of the journal of a reachable stage.

  1. **Scripts** — `Script.DefinesFirst` says that the command at a position is the first one that defines a label.  In
     a sound script the table of labels leads to such positions (`Script.Sound.definesFirst`).

  2. **Beats** — as long as the cursor is in range (`Session.InRange`), all that the next beat collects are commands of
     the script, from the cursor on (`Session.InRange.nextBeat_in_range`).

  3. **Main result** (`cursor_stays_in_script`) — after every part of the journal the session is in range, and after a
     jump the cursor is at the first definition of the label.  No command without fields is ever run.

  The invariant itself is `Stage.Faithful`, which every move keeps; here it is read off for all moments.
-/
import ChatScene.Proofs.Reach

namespace ChatScene

/-- `s.DefinesFirst label position` — the command at the position is the first of the script that defines the label. -/
def Script.DefinesFirst (s : Script) (label : String) (position : Nat) : Prop :=
  (∃ c, s.commands[position]? = some c ∧ c.body = .label label) ∧
    ∀ i < position, ∀ c, s.commands[i]? = some c → c.body ≠ .label label

/-- In a sound script (`Sound`) the table leads to the first definition of a label. -/
theorem Script.Sound.definesFirst {s : Script} (h : s.Sound) {label : String} {position : Nat}
    (hfind : s.find? label = some position) : s.DefinesFirst label position := by
  rw [h.find?_eq] at hfind
  obtain ⟨⟨c, hc, hlabel⟩, hbefore⟩ := firstLabel_eq_some_iff.mp hfind
  refine ⟨⟨c, hc, Command.label?_eq_some_iff.mp hlabel⟩, fun i hi c hc hbody => ?_⟩
  exact hbefore i hi c hc (Command.label?_eq_some_iff.mpr hbody)

/-- All that the next beat (`nextBeat`) collects are commands of the script, one after the other from the cursor on. -/
theorem Session.InRange.nextBeat_in_range {s : Session} (h : s.InRange) {k : Nat} (hk : k < s.nextBeat.length) :
    s.cursor + k < s.script.commands.length ∧
      s.script.commands[s.cursor + k]? = some (s.nextBeat.get ⟨k, hk⟩) := by
  have hle := h.collect
  exact ⟨by omega, s.nextBeat_getElem? hk⟩

namespace Stage

/-- In every state that a reachable stage has passed through the cursor is at a command or at the end, the next beat
    (`nextBeat`) is read from within the script, and right after a jump the command at the cursor is the first
    definition of the label.  No command without fields ever waits to be run. -/
theorem cursor_stays_in_script {react : Reactions} {w₀ w : Stage} (h₀ : w₀.Fresh) (h : Reaches react w₀ w) :
    w.session = w₀.session.replay w.journal ∧
    (∀ past, past <:+ w.journal →
      (w₀.session.replay past).cursor ≤ (w₀.session.replay past).script.commands.length ∧
      (∀ k (hk : k < (w₀.session.replay past).nextBeat.length),
        (w₀.session.replay past).cursor + k < (w₀.session.replay past).script.commands.length ∧
        (w₀.session.replay past).script.commands[(w₀.session.replay past).cursor + k]? =
          some ((w₀.session.replay past).nextBeat.get ⟨k, hk⟩)) ∧
      ∀ number c label position earlier, past = .jump number c label position :: earlier →
        (w₀.session.replay past).script.DefinesFirst label (w₀.session.replay past).cursor) ∧
    ∀ (i : Nat) chain, w.chains[i]? = some chain → ∀ c, Frame.command c ∈ chain.frames → c.body ≠ .bare := by
  have hw := h₀.reaches_faithful h
  refine ⟨hw.session_eq, fun past hpast => ?_, fun i chain hi c hc => (hw.frames i chain hi _ hc).1⟩
  -- an earlier moment has an honest journal of its own
  have hhonest := hw.honest.of_suffix hpast
  have hrange := hhonest.inRange hw.start
  refine ⟨hrange.cursor_le, fun k hk => hrange.nextBeat_in_range hk, ?_⟩
  rintro number c label position earlier rfl
  obtain ⟨-, -, -, hfind⟩ := hhonest.fits
  exact hrange.sound.definesFirst hfind

/-! ## A scene with a detour -/

/-- A scene that jumps over an image. -/
def detour : Script :=
  Script.ofCommands "parsed"
    [⟨.whole 0, ["@goto", "b"], .jump "b"⟩, ⟨.whole 1, ["@image", "x"], .image "x"⟩,
     ⟨.whole 2, ["@label", "b"], .label "b"⟩]

/-- The stage for it: jumps end their beats, and nobody reacts. -/
def detourStage : Stage := { session := { settings := { jumpEndsBeat := true } } }

/-- The scene can be read, so it may be played. -/
theorem detour_read : detour.Read := by
  have hparse : Script.parse defaultMark unnamedSource "@goto, b\n@image, x\n@label, b" = .ok detour := rfl
  exact .text hparse

/-- The whole scene is played, and the `journal` tells of the jump. -/
theorem detour_journal :
    ((detourStage.loadScript (fun _ _ => []) 10 detour).bind fun w => w.advance (fun _ _ => []) 50 .own).map
      (fun r => r.1.journal) =
    some [.pass .own .leave, .finish, .pass .own .reset, .collect (some 2) [],
      .collect (some 1) [⟨.whole 2, ["@label", "b"], .label "b"⟩],
      .jump (some 0) ⟨.whole 0, ["@goto", "b"], .jump "b"⟩ "b" 2,
      .collect (some 0) [⟨.whole 0, ["@goto", "b"], .jump "b"⟩], .pass .own .enter, .load detour] := by
  rfl

/-- The scene with the detour satisfies the assumptions, and its jump lands on the label. -/
theorem cursor_stays_in_script_detour :
    detourStage.Fresh ∧ ∃ w, Reaches (fun _ _ => []) detourStage w ∧ w.session.finished = true ∧
      ∃ past, past <:+ w.journal ∧ (detourStage.session.replay past).cursor = 2 ∧
        (detourStage.session.replay past).script.DefinesFirst "b" 2 := by
  have hfresh : detourStage.Fresh := ⟨rfl, rfl, rfl⟩
  obtain ⟨⟨w, failure⟩, hrun, hjournal⟩ := Option.map_eq_some_iff.mp detour_journal
  obtain ⟨v, hload, hadvance⟩ := Option.bind_eq_some_iff.mp hrun
  have hreach : Reaches (fun _ _ => []) detourStage w :=
    (Reaches.loadScript detour_read hload).trans (Reaches.advance hadvance)
  obtain ⟨hsession, hpast, -⟩ := cursor_stays_in_script hfresh hreach
  have hsuffix : w.journal.drop 5 <:+ w.journal := List.drop_suffix 5 w.journal
  obtain ⟨-, -, hjump⟩ := hpast _ hsuffix
  refine ⟨hfresh, w, hreach, ?_, w.journal.drop 5, hsuffix, ?_, ?_⟩
  · rw [hsession, hjournal]
    rfl
  · rw [hjournal]
    rfl
  · have hlands := hjump (some 0) ⟨.whole 0, ["@goto", "b"], .jump "b"⟩ "b" 2 (w.journal.drop 6) (by rw [hjournal]; rfl)
    rw [hjournal] at hlands ⊢
    exact hlands

end Stage

end ChatScene

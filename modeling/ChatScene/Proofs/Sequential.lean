/-
  A plain interpreter of scripts, one command at a time.

  It has a position, variables, a pending choice and an end, and nothing else: no beats, no chains, no time.  A jump
  searches the commands for the first definition of the label.

  1. **The interpreter** — `Solo` is its state, `Solo.exec` runs the next command, and `Solo.advance` runs until a
     choice is pending or the end has been reported.

  2. **Plots** — a plot stands for a state of the interpreter (`Plot.solo`).  What a command does is the same for both
     (`Plot.solo_obey`), because in a sound script the table of labels leads where the search leads.

  3. **Beats** (`Plot.ForksEndBeats.solo_beat`) — the commands of a beat, run in their order on a session that has
     already moved past all of them, come to the same as the interpreter going through them one by one: where choices
     and jumps end their beats, all commands but the last leave the cursor and the pending choice alone.

  The main result is `Plot.ForksEndBeats.solo_nextBeat`, with `Plot.solo_end` for the end of the scene.
-/
import ChatScene.Proofs.Winding

namespace ChatScene

/-! ## The interpreter -/

/-- The state of the interpreter. -/
structure Solo where
  /-- The commands of the script. -/
  commands : List Command
  /-- The position of the next command. -/
  position : Nat := 0
  /-- The variables with their values. -/
  store : List (String × String) := []
  /-- The choice that waits for an answer. -/
  pending : Option Offer := none
  /-- The end has been reported. -/
  finished : Bool := false
  /-- What the listener has been told. -/
  calls : List Call := []

namespace Solo

/-- `s.tell c` — a text, an image or a choice is shown. -/
def tell (s : Solo) (c : Command) : Solo := { s with calls := s.calls ++ [.shown c] }

/-- `s.jump label` — a jump to the first definition of a label; without one nothing happens. -/
def jump (s : Solo) (label : String) : Solo :=
  match firstLabel label s.commands with
  | some position => { s with position }
  | none => s

/-- `s.obey c` — what one command does. -/
def obey (s : Solo) (c : Command) : Solo :=
  match c.body with
  | .text _ | .image _ => s.tell c
  | .choice var choices => { s.tell c with pending := some ⟨c.line, var, choices⟩ }
  | .condition test =>
    match lookupVariable test.var s.store with
    | some actual => if test.holds actual then s.jump test.label else s
    | none => s
  | .jump label => s.jump label
  | .label _ | .wait _ | .bare => s

/-- The next command; past the last one the end is reported. -/
def exec (s : Solo) : Solo :=
  match s.commands[s.position]? with
  | some c => { s with position := s.position + 1 }.obey c
  | none => { s with finished := true, calls := s.calls ++ [.ended] }

/-- The interpreter does not go on: a choice is pending, or the end has been reported. -/
def halted (s : Solo) : Bool := s.finished || s.pending.isSome

/-- Up to so many commands. -/
def run : Nat → Solo → Solo
  | 0, s => s
  | n + 1, s => if s.halted then s else run n s.exec

/-- `s.advance fuel` — runs until it does not go on; nothing if that takes more commands than there is fuel. -/
def advance (fuel : Nat) (s : Solo) : Option Solo := if (s.run fuel).halted then some (s.run fuel) else none

/-- `s.setVariable name value` — a variable is set, which answers the pending choice. -/
def setVariable (s : Solo) (name value : String) : Solo :=
  { s with store := putVariable name value s.store, pending := none }

theorem run_of_halted {s : Solo} (h : s.halted = true) (n : Nat) : s.run n = s := by
  cases n with
  | zero => rfl
  | succ n => simp [run, h]

theorem run_add (s : Solo) (m n : Nat) : s.run (m + n) = (s.run m).run n := by
  induction m generalizing s with
  | zero => rw [Nat.zero_add, run]
  | succ m ih =>
    rw [Nat.add_right_comm, run, run]
    split
    · rename_i hhalted
      exact (run_of_halted hhalted n).symm
    · exact ih s.exec

/-- Once it has halted it makes no difference how long it runs. -/
theorem run_eq_of_halted {s : Solo} {m n : Nat} (h : (s.run m).halted = true) (hle : m ≤ n) : s.run n = s.run m := by
  obtain ⟨d, rfl⟩ := Nat.exists_eq_add_of_le hle
  rw [run_add, run_of_halted h]

/-- An advance that comes to its end is a run that has halted. -/
theorem advance_eq_some {fuel : Nat} {s t : Solo} :
    s.advance fuel = some t ↔ s.run fuel = t ∧ t.halted = true := by
  unfold advance
  split
  · rename_i hhalted
    rw [Option.some.injEq]
    exact ⟨fun h => ⟨h, h ▸ hhalted⟩, fun h => h.1⟩
  · rename_i hrunning
    refine ⟨fun h => (by cases h), fun h => absurd h.2 (h.1 ▸ hrunning)⟩

end Solo

/-! ## Plots as states of the interpreter -/

/-- The state of the interpreter that a plot stands for. -/
def Plot.solo (p : Plot) : Solo where
  commands := p.session.script.commands
  position := p.session.cursor
  store := p.session.store
  pending := p.session.pending
  finished := p.session.finished
  calls := p.calls

/-- `p.moved position` — the plot with its cursor moved. -/
def Plot.moved (p : Plot) (position : Nat) : Plot := { p with session := { p.session with cursor := position } }

/-- A plot to which the plain interpreter can be compared: there is a listener, choices and jumps end their beats, and
    the script is sound. -/
structure Plot.ForksEndBeats (p : Plot) : Prop where
  attached : p.session.attached = true
  choice_ends : p.session.settings.choiceEndsBeat = true
  jump_ends : p.session.settings.jumpEndsBeat = true
  sound : p.session.script.Sound

/-- The interpreter jumps where the table of a sound script (`Sound`) leads; without the label neither of them moves. -/
theorem Plot.solo_jump {p : Plot} (hsound : p.session.script.Sound) {c : Command} {label : String}
    (htarget : c.target? p.session.store = some label) : p.solo.jump label = (p.play c).solo := by
  rw [Plot.play_jump htarget, hsound.find?_eq]
  unfold Solo.jump
  simp only [Plot.solo]
  cases firstLabel label p.session.script.commands <;> rfl

/-- A command that neither jumps nor offers a choice only shows what it shows. -/
theorem Plot.solo_stay {p : Plot} {c : Command} (htarget : c.target? p.session.store = none)
    (hchoice : ∀ var choices, c.body ≠ .choice var choices) :
    (p.play c).solo = { p.solo with calls := p.solo.calls ++ c.calls } := by
  rw [Plot.play_stay htarget hchoice]
  rfl

/-- What a command does is the same for the interpreter (`solo`) and for the plot. -/
theorem Plot.solo_obey {p : Plot} (hsound : p.session.script.Sound) (c : Command) :
    p.solo.obey c = (p.play c).solo := by
  unfold Solo.obey
  split
  · -- a text and an image are told
    rename_i text hbody
    rw [Plot.solo_stay (by simp [Command.target?, hbody]) (by simp [hbody])]
    simp [Command.calls, hbody, Solo.tell]
  · rename_i name hbody
    rw [Plot.solo_stay (by simp [Command.target?, hbody]) (by simp [hbody])]
    simp [Command.calls, hbody, Solo.tell]
  · rename_i var choices hbody
    simp only [Plot.play, Session.afterCommand, Command.calls, hbody]
    rfl
  · -- a condition is decided by the variables, which both have alike
    rename_i test hbody
    have hstore : p.solo.store = p.session.store := rfl
    rw [hstore]
    cases hlookup : lookupVariable test.var p.session.store with
    | none =>
      rw [Plot.solo_stay (by simp [Command.target?, hbody, hlookup]) (by simp [hbody])]
      simp [Command.calls, hbody]
    | some actual =>
      by_cases hholds : test.holds actual = true
      · simp only [hholds, if_true]
        exact Plot.solo_jump hsound (by simp [Command.target?, hbody, hlookup, hholds])
      · rw [Plot.solo_stay (by simp [Command.target?, hbody, hlookup, hholds]) (by simp [hbody])]
        simp [Command.calls, hbody, hholds]
  · rename_i label hbody
    exact Plot.solo_jump hsound (by simp [Command.target?, hbody])
  -- waits, labels and bare commands do nothing
  all_goals
    rename_i hbody
    rw [Plot.solo_stay (by simp [Command.target?, hbody]) (by simp [hbody])]
    simp [Command.calls, hbody]

/-! ## A beat, command by command -/

/-- Where choices and jumps end their beats (`ForksEndBeats`), a command that does not end its beat only shows what it
    shows. -/
theorem Plot.ForksEndBeats.play_within {p : Plot} (h : p.ForksEndBeats) {c : Command}
    (hends : p.session.settings.endsBeat c.kind = false) : p.play c = { p with calls := p.calls ++ c.calls } := by
  have hkind : c.kind = c.body.kind := rfl
  rw [hkind] at hends
  refine Plot.play_stay ?_ ?_
  · unfold Command.target?
    cases hbody : c.body <;> simp [hbody, Body.kind, Settings.endsBeat, h.jump_ends] at hends ⊢
  · rintro var choices hbody
    simp [hbody, Body.kind, Settings.endsBeat, h.choice_ends] at hends

/-- The commands of a beat from position `i` on, by induction on the commands that are ahead. -/
theorem Plot.ForksEndBeats.solo_beat {p : Plot} (h : p.ForksEndBeats) (hrunning : p.solo.halted = false)
    {cs : List Command} {i : Nat} (hcs : p.session.script.commands.drop i = cs) :
    ((takeBeat p.session.settings.endsBeat cs).foldl Plot.play
        (p.moved (i + (takeBeat p.session.settings.endsBeat cs).length))).solo =
      (p.moved i).solo.run (takeBeat p.session.settings.endsBeat cs).length := by
  induction cs generalizing i p with
  | nil => rfl
  | cons c cs ih =>
    have hc : (p.moved i).solo.commands[(p.moved i).solo.position]? = some c := by
      have hget : (p.session.script.commands.drop i)[0]? = some c := by rw [hcs]; rfl
      rwa [List.getElem?_drop, Nat.add_zero] at hget
    have hexec : (p.moved i).solo.exec = ((p.moved (i + 1)).play c).solo := by
      simp only [Solo.exec, hc]
      exact Plot.solo_obey (p := p.moved (i + 1)) h.sound c
    have hmoved : ∀ j, (p.moved j).solo.halted = false := fun j => hrunning
    by_cases hends : p.session.settings.endsBeat c.kind = true
    · simp [takeBeat, hends, Solo.run, hmoved, hexec]
    · -- a command within the beat adds its call, and the rest of the beat follows from there
      have hwithin : p.session.settings.endsBeat c.kind = false := by simpa using hends
      let q : Plot := { p with calls := p.calls ++ c.calls }
      have hplay : ∀ j, (p.moved j).play c = q.moved j := fun j =>
        Plot.ForksEndBeats.play_within (p := p.moved j) ⟨h.attached, h.choice_ends, h.jump_ends, h.sound⟩ hwithin
      have hq : q.ForksEndBeats := ⟨h.attached, h.choice_ends, h.jump_ends, h.sound⟩
      have hrest : q.session.script.commands.drop (i + 1) = cs := by
        rw [← List.drop_drop, hcs]
        rfl
      have hbeat := ih hq hrunning hrest
      rw [takeBeat, hwithin]
      simp only [Bool.false_eq_true, if_false, List.length_cons, List.foldl_cons, hplay, Solo.run, hmoved, hexec]
      rw [Nat.add_comm _ 1, ← Nat.add_assoc]
      exact hbeat

/-- An advance that plays the next beat takes the interpreter (`solo`) through as many commands. -/
theorem Plot.ForksEndBeats.solo_nextBeat {p : Plot} (h : p.ForksEndBeats) (hrunning : p.solo.halted = false) :
    (p.session.nextBeat.foldl Plot.play (p.moved (p.session.cursor + p.session.nextBeat.length))).solo =
      p.solo.run p.session.nextBeat.length :=
  h.solo_beat hrunning rfl

/-- Where there is no beat left the interpreter reports the end. -/
theorem Plot.solo_end {p : Plot} (h : p.session.nextBeat = []) :
    p.solo.exec = { p.solo with finished := true, calls := p.solo.calls ++ [.ended] } := by
  have hdrop : p.session.script.commands.drop p.session.cursor = [] := takeBeat_eq_nil.mp h
  have hnone : p.solo.commands[p.solo.position]? = none := by
    rw [List.getElem?_eq_none_iff]
    exact List.drop_eq_nil_iff.mp hdrop
  simp only [Solo.exec, hnone]

end ChatScene

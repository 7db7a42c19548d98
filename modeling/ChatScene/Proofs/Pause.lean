/-
  Choices pause a scene once they are on offer, and not before.

  An advance collects a beat only while no choice is pending.  A choice becomes pending when its command runs, which is
  later than the moment its beat was collected, and it stays pending until a variable is set or a script is loaded.  So
  from the offer on the scene is at rest.  Between the collecting and the offer it is not: whoever advances the session
  then goes past the choice.

  1. **Pending** — only an answer or a load lifts a pending choice (`Deed.Lifts`); so after an offer a choice is pending
     until one of them comes (`Session.pending_of_offer`).

  2. **Between two beats** — `Offered n c between`: since then a script has been loaded, or the choice `c` of beat `n`
     has been offered.  `Released` asks in addition that a variable has been set after the offer.  In an honest journal
     the two are the same before a beat is collected (`Honest.released`).

  3. **Main result** (`choice_pauses_iff_offered_first`) — after a beat that ends on a choice, the next beat is
     collected with the choice released just when it had been offered first.  So overtaking the offer is the only way
     past a choice, and `choice_overtaken` shows that there is one.
-/
import ChatScene.Proofs.Reach

namespace ChatScene

/-! ## What ends a pause -/

/-- A deed that lifts a pending choice. -/
def Deed.Lifts : Deed → Prop
  | .load _ => True
  | .answer _ _ => True
  | _ => False

/-- A pending choice stays pending, or is replaced by another one, until something lifts it (`Lifts`). -/
theorem Session.pending_after {s : Session} {d : Deed} (hs : s.pending.isSome) (hd : ¬ d.Lifts) :
    (s.after d).pending.isSome := by
  cases d with
  | load | answer => exact absurd trivial hd
  | offer => rfl
  | pass context passage => cases context <;> exact hs
  | collect | jump | finish | adjust | attach => exact hs

/-- After an offer a choice is pending until something lifts it (`Lifts`), by induction on the deeds since. -/
theorem Session.pending_of_offer (s : Session) (number : Option Nat) (c : Command) (choice : Offer)
    {since before : List Deed} (hsince : ∀ d ∈ since, ¬ d.Lifts) :
    (s.replay (since ++ .offer number c choice :: before)).pending.isSome := by
  induction since with
  | nil => rfl
  | cons d since ih =>
    have hrest : ∀ d ∈ since, ¬ d.Lifts := fun d hd => hsince d (List.mem_cons_of_mem _ hd)
    exact Session.pending_after (ih hrest) (hsince d List.mem_cons_self)

/-! ## Pauses in journals

A journal has the latest deed first.  Of a beat that was collected under the number `n` and ends on the choice `c`,
`later` are the deeds since then; wherever an advance collects another beat, `later` is
`after ++ collecting :: between`, and `between` is what has been done from the one to the other. -/

/-- `Released n c between` — another script has been loaded, or the choice has been offered and, after that, a variable
    set. -/
def Released (n : Nat) (c : Command) (between : List Deed) : Prop :=
  (∃ script, Deed.load script ∈ between) ∨
    ∃ after name value before, between = after ++ .answer name value :: before ∧
      ∃ choice, Deed.offer (some n) c choice ∈ before

/-- `Offered n c between` — another script has been loaded, or the choice has been offered. -/
def Offered (n : Nat) (c : Command) (between : List Deed) : Prop :=
  (∃ script, Deed.load script ∈ between) ∨ ∃ choice, Deed.offer (some n) c choice ∈ between

/-- `BeforeCollecting P later` — whenever an advance collects a beat, the time before has the property. -/
def BeforeCollecting (P : List Deed → Prop) (later : List Deed) : Prop :=
  ∀ after m beat between, later = after ++ .collect (some m) beat :: between → P between

/-- What has been released had been offered (`Offered`). -/
theorem Released.offered {n : Nat} {c : Command} {between : List Deed} (h : Released n c between) :
    Offered n c between := by
  rcases h with hload | ⟨after, name, value, before, rfl, choice, hmem⟩
  · exact .inl hload
  · exact .inr ⟨choice, List.mem_append_right _ (List.mem_cons_of_mem _ hmem)⟩

/-- In an honest journal (`Honest`) a beat is collected only while no choice is pending; so an offer before it has been
    lifted, and by a variable if not by a load. -/
theorem Honest.released {s₀ : Session} {n m : Nat} {c : Command} {beat : List Command} {between earlier : List Deed}
    (h : Honest s₀ (.collect (some m) beat :: (between ++ earlier))) (hoffered : Offered n c between) :
    Released n c between := by
  rcases hoffered with hload | ⟨choice, hmem⟩
  · exact .inl hload
  obtain ⟨since, before, rfl⟩ := List.append_of_mem hmem
  have hnone : (s₀.replay (since ++ .offer (some n) c choice :: (before ++ earlier))).pending = none := by
    obtain ⟨-, hfits⟩ := h.fits
    have hpending := (hfits m rfl).1
    rwa [List.append_assoc, List.cons_append] at hpending
  -- something has lifted the choice, or it would be pending still
  have hlifted : ∃ d ∈ since, d.Lifts := by
    refine Classical.byContradiction fun hno => ?_
    have hsome : (s₀.replay (since ++ .offer (some n) c choice :: (before ++ earlier))).pending.isSome :=
      s₀.pending_of_offer (some n) c choice fun d hd hlifts => hno ⟨d, hd, hlifts⟩
    simp [hnone] at hsome
  obtain ⟨d, hd, hlifts⟩ := hlifted
  cases d with
  | load script => exact .inl ⟨script, List.mem_append_left _ hd⟩
  | answer name value =>
    obtain ⟨late, soon, rfl⟩ := List.append_of_mem hd
    refine .inr ⟨late, name, value, soon ++ .offer (some n) c choice :: before, by simp, choice, ?_⟩
    exact List.mem_append_right _ List.mem_cons_self
  | collect | offer | jump | finish | adjust | attach | pass => cases hlifts

namespace Stage

/-- Choices end their beats, and `c` has been collected as the last command of the beat with the number `n`.  Then `c`
    is the only choice that this beat offers, and there is one way past it without an answer: to collect before it is
    offered.  For each later time that an advance collects, with the deeds `between` the two, the answer has been given
    by then (`Released`) if and only if the offer has been made by then (`Offered`). -/
theorem choice_pauses_iff_offered_first {react : Reactions} {w₀ w : Stage} (h₀ : w₀.Fresh) (h : Reaches react w₀ w)
    {n : Nat} {beat : List Command} {c : Command} {later earlier : List Deed}
    (hjournal : w.journal = later ++ .collect (some n) beat :: earlier)
    (hends : (w₀.session.replay earlier).settings.choiceEndsBeat = true) (hlast : beat.getLast? = some c) :
    (∀ d choice, Deed.offer (some n) d choice ∈ later → d = c) ∧
    ∀ after m other between, later = after ++ .collect (some m) other :: between →
      (Released n c between ↔ Offered n c between) := by
  have hhonest := (h₀.reaches_faithful h).honest
  rw [hjournal] at hhonest
  refine ⟨fun d choice hoffer => ?_, fun after m other between hlater => ⟨Released.offered, fun hoffered => ?_⟩⟩
  · have hmem := hhonest.mem_of_offer (List.mem_append_right _ List.mem_cons_self) (List.mem_append_left _ hoffer)
    obtain ⟨rfl, -⟩ := (hhonest.of_suffix (List.suffix_append later _)).fits
    have hd := takeBeat_getLast? hmem.1 (by rw [hmem.2]; exact hends)
    exact Option.some.inj (hd.symm.trans hlast)
  · have hsuffix : .collect (some m) other :: (between ++ .collect (some n) beat :: earlier) <:+
        later ++ .collect (some n) beat :: earlier := by
      rw [hlater, List.append_assoc]
      exact List.suffix_append after _
    exact (hhonest.of_suffix hsuffix).released hoffered

/-! ## A scene that waits for its answer -/

/-- A choice, and a label after it. -/
def crossroads : Script :=
  Script.ofCommands "parsed"
    [⟨.whole 0, ["@choice", "v", "x", "y"], .choice "v" ["x", "y"]⟩, ⟨.whole 1, ["@label", "z"], .label "z"⟩]

theorem crossroads_read : crossroads.Read := by
  have hparse : Script.parse defaultMark unnamedSource "@choice, v, x, y\n@label, z" = .ok crossroads := rfl
  exact .text hparse

/-- The scene is advanced, answered and advanced to its end. -/
theorem crossroads_journal :
    ((((({} : Stage).loadScript (fun _ _ => []) 10 crossroads).bind fun w =>
      w.advance (fun _ _ => []) 50 .own).bind fun r =>
      r.1.doAct (fun _ _ => []) 10 (.setVariable "v" "x")).bind fun r =>
      r.1.advance (fun _ _ => []) 50 .own).map (fun r => r.1.journal) =
    some ([.pass .own .leave, .finish, .pass .own .reset, .collect (some 2) [],
      .collect (some 1) [⟨.whole 1, ["@label", "z"], .label "z"⟩], .pass .own .enter, .answer "v" "x",
      .pass .own .leave] ++
      [.offer (some 0) ⟨.whole 0, ["@choice", "v", "x", "y"], .choice "v" ["x", "y"]⟩ ⟨.whole 0, "v", ["x", "y"]⟩] ++
      .collect (some 0) [⟨.whole 0, ["@choice", "v", "x", "y"], .choice "v" ["x", "y"]⟩] ::
      [.pass .own .enter, .load crossroads]) := by
  rfl

/-- What holds from the first deed on holds whenever a beat is collected. -/
theorem BeforeCollecting.of_first {P : List Deed → Prop} {front : List Deed} {d : Deed}
    (hd : ∀ m beat, d ≠ .collect (some m) beat) (hP : ∀ between, d ∈ between → P between) :
    BeforeCollecting P (front ++ [d]) := by
  intro after m beat between heq
  apply hP
  rcases List.eq_nil_or_concat between with rfl | ⟨rest, e, rfl⟩
  · obtain ⟨-, hsame⟩ := List.append_inj' heq rfl
    exact absurd (List.head_eq_of_cons_eq hsame) (hd m beat)
  · have hsplit : front ++ [d] = (after ++ .collect (some m) beat :: rest) ++ [e] := by simpa using heq
    obtain ⟨-, hsame⟩ := List.append_inj' hsplit rfl
    simp [List.head_eq_of_cons_eq hsame]

/-- In the scene with the crossroads the choice is offered before anything else is collected, so that all waits for the
    answer. -/
theorem choice_pauses_iff_offered_first_crossroads :
    ({} : Stage).Fresh ∧ ∃ w later earlier beat c, Reaches (fun _ _ => []) {} w ∧ w.session.finished = true ∧
      w.journal = later ++ .collect (some 0) beat :: earlier ∧
      (({} : Stage).session.replay earlier).settings.choiceEndsBeat = true ∧ beat.getLast? = some c ∧
      c.kind = .choice ∧ BeforeCollecting (Released 0 c) later := by
  have hfresh : ({} : Stage).Fresh := ⟨rfl, rfl, rfl⟩
  obtain ⟨⟨w, failure⟩, hrun, hjournal⟩ := Option.map_eq_some_iff.mp crossroads_journal
  obtain ⟨⟨u, failure'⟩, hrun, hlast⟩ := Option.bind_eq_some_iff.mp hrun
  obtain ⟨⟨v, failure''⟩, hrun, hset⟩ := Option.bind_eq_some_iff.mp hrun
  obtain ⟨t, hload, hfirst⟩ := Option.bind_eq_some_iff.mp hrun
  have hreach : Reaches (fun _ _ => []) {} w :=
    (((Reaches.loadScript crossroads_read hload).trans (Reaches.advance hfirst)).trans (Reaches.doAct hset)).trans
      (Reaches.advance hlast)
  refine ⟨hfresh, w, _, _, _, _, hreach, ?_, hjournal, rfl, rfl, rfl, ?_⟩
  · rw [(hfresh.reaches_faithful hreach).session_eq, hjournal]
    rfl
  · intro after m other between hlater
    refine ((choice_pauses_iff_offered_first hfresh hreach hjournal rfl rfl).2 after m other between hlater).mpr ?_
    exact BeforeCollecting.of_first (by simp) (fun between hmem => .inr ⟨_, hmem⟩) after m other between hlater

/-! ## A choice that is overtaken -/

/-- An image, a choice in the same beat, and a text. -/
def shortcut : Script :=
  Script.ofCommands "parsed"
    [⟨.whole 0, ["@image", "a"], .image "a"⟩, ⟨.whole 1, ["@choice", "v", "x", "y"], .choice "v" ["x", "y"]⟩,
     ⟨.whole 2, ["@text", "after"], .text "after"⟩]

theorem shortcut_read : shortcut.Read := by
  have hparse : Script.parse defaultMark unnamedSource "@image, a\n@choice, v, x, y\n@text, after" = .ok shortcut := rfl
  exact .text hparse

/-- A listener that advances the session when it is shown the image. -/
def eager : Reactions := fun cue _ => if cue = .image "a" then [.advance .own] else []

/-- The listener advances when it is shown the image, before the choice of the same beat has been offered. -/
theorem shortcut_journal :
    ((({} : Stage).loadScript eager 10 shortcut).bind fun w => (w.spawn [.advance .own] none).steps eager 7).map
      (fun w => w.journal) =
    some ([.collect (some 1) [⟨.whole 2, ["@text", "after"], .text "after"⟩], .pass .own .enter] ++
      .collect (some 0) [⟨.whole 0, ["@image", "a"], .image "a"⟩,
        ⟨.whole 1, ["@choice", "v", "x", "y"], .choice "v" ["x", "y"]⟩] ::
      [.pass .own .enter, .load shortcut]) := by
  rfl

/-- Choices end their beats, and yet the text after the choice is collected before the choice is offered. -/
theorem choice_overtaken :
    ∃ react w, Reaches react {} w ∧ ∃ later earlier beat c, w.journal = later ++ .collect (some 0) beat :: earlier ∧
      (({} : Stage).session.replay earlier).settings.choiceEndsBeat = true ∧ beat.getLast? = some c ∧
      c.kind = .choice ∧ ¬ BeforeCollecting (Released 0 c) later := by
  obtain ⟨w, hrun, hjournal⟩ := Option.map_eq_some_iff.mp shortcut_journal
  obtain ⟨v, hload, hsteps⟩ := Option.bind_eq_some_iff.mp hrun
  have hspawn : Next eager v (v.spawn [.advance .own] none) := .spawn (by simp [Frame.FromOutside])
  have hreach : Reaches eager {} w :=
    (Reaches.loadScript shortcut_read hload).trans (.head hspawn (Reaches.steps hsteps))
  refine ⟨eager, w, hreach, _, _, _, _, hjournal, rfl, rfl, rfl, fun hpauses => ?_⟩
  have hreleased := hpauses [] 1 _ _ rfl
  rcases hreleased.offered with ⟨script, hmem⟩ | ⟨choice, hmem⟩ <;> simp at hmem

end Stage

end ChatScene

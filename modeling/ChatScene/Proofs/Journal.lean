/-
  Honest journals: what may be done to a session, and what follows from the journal alone.

  Every change of a session is a deed, and the journal of a stage holds all of them, the latest first.  `Session.replay`
  does them again, from the session to begin with.

  1. **Beats** — the beat at the cursor (`Session.nextBeat`) is what stands there in the script, up to a command that
     ends it (`Session.nextBeat_getElem?`, `takeBeat_getLast?`).

  2. **Deeds that fit** — a deed fits when the session is in a state that allows it (`Deed.Fits`): a beat is the one
     that stands at the cursor, an advance collects only while no choice waits and the end has not been reported, a
     jump goes where the label of the current script is.

  3. **Honest journals** — `Honest` journals are those of which every deed fitted at its time.  All that is said of
     sessions over time is read off them, by induction on the journal: the cursor stays in the script
     (`Honest.inRange`), beats hold commands with fields only (`Honest.body_ne`), and a number belongs to one beat
     (`Honest.collect_unique`).

  That the journals of a stage are honest is another matter, and is proved for `Stage.Faithful`.
-/
import ChatScene.Proofs.Labels
import ChatScene.Session.Journal

namespace ChatScene

/-! ## Replaying -/

@[simp] theorem Session.replay_cons (s : Session) (d : Deed) (js : List Deed) :
    s.replay (d :: js) = (s.replay js).after d := rfl

/-- The cursor after the deeds of a journal. -/
def cursorAfter (journal : List Deed) : Nat := (({} : Session).replay journal).cursor

/-- Where the cursor stood when beats were collected since the latest load, in order.  At the end of the script there is
    no beat to collect. -/
def beatStarts : List Deed → List Nat
  | [] | .load _ :: _ => []
  | .collect _ beat :: earlier =>
    if beat.isEmpty then beatStarts earlier else beatStarts earlier ++ [cursorAfter earlier]
  | _ :: earlier => beatStarts earlier

/-! ## Beats -/

/-- A beat is the beginning of the commands that it is taken from. -/
theorem takeBeat_prefix (ends : Kind → Bool) (cs : List Command) : takeBeat ends cs <+: cs := by
  induction cs with
  | nil => exact List.prefix_refl []
  | cons c cs ih =>
    unfold takeBeat
    split
    · exact ⟨cs, rfl⟩
    · exact List.cons_prefix_cons.mpr ⟨rfl, ih⟩

/-- A beat is empty only at the end of the commands: `takeBeat` takes at least one command, even one that ends the
    beat. -/
theorem takeBeat_eq_nil {ends : Kind → Bool} {cs : List Command} : takeBeat ends cs = [] ↔ cs = [] := by
  cases cs with
  | nil => simp [takeBeat]
  | cons c cs =>
    unfold takeBeat
    split <;> simp

/-- A command that ends beats is the last of its beat, since `takeBeat` stops after it. -/
theorem takeBeat_getLast? {ends : Kind → Bool} {cs : List Command} {c : Command} (hc : c ∈ takeBeat ends cs)
    (hends : ends c.kind = true) : (takeBeat ends cs).getLast? = some c := by
  induction cs with
  | nil => cases hc
  | cons d cs ih =>
    by_cases hd : ends d.kind = true
    · simp only [takeBeat, hd, if_true, List.mem_singleton] at hc ⊢
      rw [hc]
      rfl
    · simp only [takeBeat, hd, Bool.false_eq_true, if_false, List.mem_cons] at hc ⊢
      rcases hc with rfl | hc
      · exact absurd hends hd
      · rw [List.getLast?_cons, ih hc]
        rfl

/-- The next beat (`nextBeat`) is the beginning of what is left of the script at the cursor. -/
theorem Session.nextBeat_prefix (s : Session) : s.nextBeat <+: s.script.commands.drop s.cursor :=
  takeBeat_prefix _ _

/-- The commands of the `nextBeat` are those at the cursor and after, one by one. -/
theorem Session.nextBeat_getElem? (s : Session) {k : Nat} (hk : k < s.nextBeat.length) :
    s.script.commands[s.cursor + k]? = some (s.nextBeat.get ⟨k, hk⟩) := by
  obtain ⟨rest, hrest⟩ := s.nextBeat_prefix
  rw [← List.getElem?_drop, ← hrest, List.getElem?_append_left hk, List.getElem?_eq_getElem hk]
  rfl

theorem Session.mem_of_mem_nextBeat {s : Session} {c : Command} (h : c ∈ s.nextBeat) : c ∈ s.script.commands :=
  List.mem_of_mem_drop (s.nextBeat_prefix.subset h)

/-! ## Deeds that fit -/

/-- `c.target? store` — the label that a command jumps to when the variables are these. -/
def Command.target? (store : List (String × String)) (c : Command) : Option String :=
  match c.body with
  | .jump label => some label
  | .condition test =>
    match lookupVariable test.var store with
    | some actual => if test.holds actual then some test.label else none
    | none => none
  | _ => none

/-- `Collected journal number c` — a command that runs as part of a numbered beat has been collected
    under that number. -/
def Collected (journal : List Deed) (number : Option Nat) (c : Command) : Prop :=
  ∀ n, number = some n → ∃ beat, Deed.collect (some n) beat ∈ journal ∧ c ∈ beat

/-- What has been collected stays collected when the journal grows. -/
theorem Collected.mono {js ks : List Deed} {number : Option Nat} {c : Command} (hsub : js ⊆ ks)
    (h : Collected js number c) : Collected ks number c := by
  intro n hn
  obtain ⟨beat, hbeat, hc⟩ := h n hn
  exact ⟨beat, hsub hbeat, hc⟩

/-- A deed that may be done to a session with this journal. -/
def Deed.Fits (journal : List Deed) (s : Session) : Deed → Prop
  | .load script => script.Sound
  | .collect number beat =>
    beat = s.nextBeat ∧
      ∀ n, number = some n →
        s.pending = none ∧ s.finished = false ∧ ∀ earlier, Deed.collect (some n) earlier ∉ journal
  | .offer number c choice =>
    s.attached = true ∧ Collected journal number c ∧
      ∃ var choices, c.body = .choice var choices ∧ choice = ⟨c.line, var, choices⟩
  | .jump number c label position =>
    s.attached = true ∧ Collected journal number c ∧
      c.target? s.store = some label ∧ s.script.find? label = some position
  | .finish => s.pending = none ∧ s.finished = false ∧ s.nextBeat = []
  | _ => True

/-- A journal all of whose deeds fitted when they were done, from a session to begin with. -/
inductive Honest (s₀ : Session) : List Deed → Prop where
  | nil : Honest s₀ []
  | cons {d : Deed} {js : List Deed} : Honest s₀ js → d.Fits js (s₀.replay js) → Honest s₀ (d :: js)

/-- What was honest at the end was honest all the time: the older part of an honest journal (`Honest`) is honest. -/
theorem Honest.of_suffix {s₀ : Session} {js ks : List Deed} (h : Honest s₀ ks) (hsuf : js <:+ ks) :
    Honest s₀ js := by
  induction h with
  | nil => rw [List.suffix_nil.mp hsuf]; exact .nil
  | cons hks hd ih =>
    rcases List.suffix_cons_iff.mp hsuf with rfl | hsuf
    · exact .cons hks hd
    · exact ih hsuf

/-- The latest deed of an honest journal (`Honest`) fitted the session that the deeds before it lead to. -/
theorem Honest.fits {s₀ : Session} {d : Deed} {js : List Deed} (h : Honest s₀ (d :: js)) :
    d.Fits js (s₀.replay js) := by
  cases h with
  | cons _ hd => exact hd

/-! ## The cursor stays in the script -/

/-- A session on a sound script whose cursor is at a command or at the end. -/
structure Session.InRange (s : Session) : Prop where
  sound : s.script.Sound
  cursor_le : s.cursor ≤ s.script.commands.length

/-- Collecting a beat does not leave the script: a beat is no longer than what is left. -/
theorem Session.InRange.collect {s : Session} (h : s.InRange) :
    s.cursor + s.nextBeat.length ≤ s.script.commands.length := by
  have hle := s.nextBeat_prefix.length_le
  rw [List.length_drop] at hle
  have := h.cursor_le
  omega

/-- A deed that fits (`Deed.Fits`) keeps the cursor in the script.  The cursor moves by collecting, by jumps to labels
    of the script, and to the start of a script that is loaded. -/
theorem Session.InRange.after {s : Session} {js : List Deed} {d : Deed} (h : s.InRange) (hd : d.Fits js s) :
    (s.after d).InRange := by
  cases d with
  | load script => exact ⟨hd, Nat.zero_le _⟩
  | collect number beat =>
    obtain ⟨rfl, -⟩ := hd
    exact ⟨h.sound, h.collect⟩
  | jump number c label position =>
    obtain ⟨-, -, -, hfind⟩ := hd
    exact ⟨h.sound, Nat.le_of_lt (h.sound.find?_lt hfind)⟩
  | pass context passage => cases context <;> exact ⟨h.sound, h.cursor_le⟩
  | answer | offer | finish | adjust | attach => exact ⟨h.sound, h.cursor_le⟩

/-- So the cursor is in the script (`InRange`) at every moment, by induction on the journal. -/
theorem Honest.inRange {s₀ : Session} {js : List Deed} (h : Honest s₀ js) (h₀ : s₀.InRange) :
    (s₀.replay js).InRange := by
  induction h with
  | nil => exact h₀
  | cons _ hd ih => exact ih.after hd

/-- Beats hold commands with fields only, because sound scripts do. -/
theorem Honest.body_ne {s₀ : Session} {js : List Deed} (h : Honest s₀ js) (h₀ : s₀.InRange) {number : Option Nat}
    {beat : List Command} (hbeat : Deed.collect number beat ∈ js) : ∀ c ∈ beat, c.body ≠ .bare := by
  induction h with
  | nil => cases hbeat
  | cons hjs hd ih =>
    rcases List.mem_cons.mp hbeat with rfl | hbeat
    · obtain ⟨rfl, -⟩ := hd
      exact fun c hc => (hjs.inRange h₀).sound.body_ne c (Session.mem_of_mem_nextBeat hc)
    · exact ih hbeat

/-- A number belongs to one beat: a beat is collected under a number that has not been used before. -/
theorem Honest.collect_unique {s₀ : Session} {js : List Deed} (h : Honest s₀ js) {n : Nat}
    {beat other : List Command} (hbeat : Deed.collect (some n) beat ∈ js)
    (hother : Deed.collect (some n) other ∈ js) : beat = other := by
  induction h with
  | nil => cases hbeat
  | cons _ hd ih =>
    rcases List.mem_cons.mp hbeat with rfl | hbefore
    · -- the number was new when the later of the two was collected
      rcases List.mem_cons.mp hother with heq | hbefore
      · exact (Deed.collect.inj heq).2.symm
      · exact absurd hbefore ((hd.2 n rfl).2.2 other)
    · rcases List.mem_cons.mp hother with rfl | hbefore'
      · exact absurd hbefore ((hd.2 n rfl).2.2 beat)
      · exact ih hbefore hbefore'

/-- A choice that is offered as part of a beat is one of the beat's commands.  By `collect_unique` there is only one
    beat that the number can stand for. -/
theorem Honest.mem_of_offer {s₀ : Session} {js : List Deed} (h : Honest s₀ js) {n : Nat} {beat : List Command}
    {c : Command} {choice : Offer} (hbeat : Deed.collect (some n) beat ∈ js)
    (hoffer : Deed.offer (some n) c choice ∈ js) : c ∈ beat ∧ c.kind = .choice := by
  obtain ⟨after, before, rfl⟩ := List.append_of_mem hoffer
  obtain ⟨-, hcollected, var, choices, hbody, -⟩ := (h.of_suffix (List.suffix_append after _)).fits
  obtain ⟨other, hother, hc⟩ := hcollected n rfl
  have heq := h.collect_unique hbeat (List.mem_append_right _ (List.mem_cons_of_mem _ hother))
  exact ⟨heq ▸ hc, by rw [Command.kind, hbody]; rfl⟩

end ChatScene

/-
  Texts one after the other.

  A text and another one below it make one text.  Reading that is reading the two: the commands of the second follow
  those of the first.  Three numberings go on independently of each other.  The lines of the second text are counted on
  from the number of lines of the first, its commands from the number of commands of the first, and a label that the
  first text defines as well stays where the first text has it.

  1. **Lines** — the significant lines of both are those of the first text and then those of the second, with numbers
     from `lineCount first` on (`significantLines_join`).

  2. **Other numbers** — what a line gives does not depend on its number, which is only told
     (`Command.ofTokens_renumber`).  This is said once for any change of numbers, `Command.renumber`, and used for
     lines that come later (`Line.below`).

  3. **Labels** — the table of all commands is the first table, followed by the labels of the second that the first does
     not have (`followLabels`, `labelTable_append`).

  4. **Main result** (`Script.parse_join`) — the script of both texts is the first script followed by the second one; if
     the first is refused so are both, and if only the second is, its refusal tells the number of the line in both.
-/
import ChatScene.Proofs.Labels
import ChatScene.Proofs.Language

namespace ChatScene

open ChatScene.Text

/-! ## Numbers of lines -/

/-- The number of lines of a text. -/
def lineCount (text : String) : Nat := text.toList.count '\n' + 1

/-- There is one line more than there are line breaks. -/
theorem length_splitOn (sep : Char) (cs : List Char) : (cs.splitOn sep).length = cs.count sep + 1 := by
  induction cs with
  | nil => rfl
  | cons c cs ih =>
    rw [List.splitOn_cons_eq_if_modifyHead, List.count_cons]
    split
    · rw [List.length_cons, ih]
    · rw [List.length_modifyHead, ih]

/-- The number of a line that comes after `n` more lines. -/
def Line.below (n : Nat) (line : Line) : Line := .whole (line.toInt + n)

/-- `c.renumber number` — a command with another number of its line. -/
def Command.renumber (number : Line → Line) (c : Command) : Command := { c with line := number c.line }

/-- `e.renumber number` — a refusal with another number of its line. -/
def CommandError.renumber (number : Line → Line) (e : CommandError) : CommandError := { e with line := number e.line }

/-- `e.renumber number` — a refusal of a script with another number of the line. -/
def ScriptError.renumber (number : Line → Line) (e : ScriptError) : ScriptError :=
  { e with error := e.error.renumber number }

/-- What a line gives with another number: the same command, or the same refusal, with the other number (`renumber`). -/
theorem Command.ofTokens_renumber (number : Line → Line) (line : Line) (tokens : List String) :
    Command.ofTokens (number line) tokens =
      ((Command.ofTokens line tokens).map (Command.renumber number)).mapError (CommandError.renumber number) := by
  simp only [Command.ofTokens]
  split
  · rfl
  · split <;> rfl

theorem significantFrom_add (mark : List Char) (n : Nat) (ls : List (List Char)) :
    significantFrom mark n ls = (significantFrom mark 0 ls).map fun p => (p.1, n + p.2) := by
  rw [significantFrom, List.zipIdx_eq_map_add, List.filter_map]
  rfl

/-- The significant lines (`significantLines`) of two texts, the lines of the second numbered on. -/
theorem significantLines_join (mark first second : String) :
    significantLines mark (first ++ "\n" ++ second) =
      significantLines mark first ++
        (significantLines mark second).map fun p => (p.1, lineCount first + p.2) := by
  -- the second text begins after as many lines as the first one has
  have htext : (first ++ "\n" ++ second).toList = first.toList ++ '\n' :: second.toList := by simp
  rw [significantLines, htext, List.splitOn_append_cons_self, significantFrom_append, significantFrom_add _ (0 + _),
    length_splitOn, Nat.zero_add]
  rfl

/-! ## Reading what has been changed -/

/-- When entries are changed in a way that changes only what reading them gives, reading all of them is changed in the
    same way. -/
theorem mapM_map_eq {α β ε : Type} {f : α → Except ε β} {change : α → α} {good : β → β} {bad : ε → ε}
    (h : ∀ x, f (change x) = ((f x).map good).mapError bad) (xs : List α) :
    (xs.map change).mapM f = ((xs.mapM f).map (List.map good)).mapError bad := by
  induction xs with
  | nil => rfl
  | cons x xs ih =>
    rw [List.map_cons, List.mapM_cons, List.mapM_cons, h, ih]
    cases f x with
    | error e => rfl
    | ok y => cases xs.mapM f <;> rfl

/-- Lines with other numbers (`renumber`) give commands with other numbers. -/
theorem mapM_commandAt_renumber {number : Line → Line} {count : Nat → Nat}
    (h : ∀ i, Line.whole (count i) = number (.whole i)) (ps : List (List Char × Nat)) :
    (ps.map fun p => (p.1, count p.2)).mapM commandAt =
      ((ps.mapM commandAt).map (List.map (Command.renumber number))).mapError (CommandError.renumber number) := by
  refine mapM_map_eq (fun p => ?_) ps
  rw [commandAt, h]
  exact Command.ofTokens_renumber number (.whole p.2) (lineTokens p.1)

/-- The lines of a text that comes after `n` more lines. -/
theorem mapM_commandAt_below (n : Nat) (ps : List (List Char × Nat)) :
    (ps.map fun p => (p.1, n + p.2)).mapM commandAt =
      ((ps.mapM commandAt).map (List.map (Command.renumber (Line.below n)))).mapError
        (CommandError.renumber (Line.below n)) := by
  have hline (i : Nat) : Line.whole (n + i : Nat) = (Line.whole i).below n := by
    rw [Line.below, Line.toInt, Int.natCast_add, Int.add_comm]
  exact mapM_commandAt_renumber hline ps

/-! ## Labels -/

/-- `followLabels table n more` — a table followed by the labels of another one that it does not have, at positions
    from `n` on. -/
def followLabels (table : List (String × Nat)) (n : Nat) (more : List (String × Nat)) : List (String × Nat) :=
  table ++ (more.filter fun p => p.1 ∉ table.map Prod.fst).map fun p => (p.1, p.2 + n)

theorem mem_followLabels {table more : List (String × Nat)} {n : Nat} {name : String} :
    name ∈ (followLabels table n more).map Prod.fst ↔ name ∈ table.map Prod.fst ∨ name ∈ more.map Prod.fst := by
  rw [followLabels, List.map_append, List.mem_append, List.map_map]
  constructor
  · rintro (htable | hnew)
    · exact .inl htable
    · obtain ⟨p, hp, rfl⟩ := List.mem_map.mp hnew
      exact .inr (List.mem_map.mpr ⟨p, (List.mem_filter.mp hp).1, rfl⟩)
  · intro hmem
    by_cases htable : name ∈ table.map Prod.fst
    · exact .inl htable
    · obtain ⟨p, hp, rfl⟩ := List.mem_map.mp (hmem.resolve_left htable)
      exact .inr (List.mem_map.mpr ⟨p, List.mem_filter.mpr ⟨hp, decide_eq_true htable⟩, rfl⟩)

/-- Adding a label below: it is added to the second table (`more`), and if the first has it nothing happens to both. -/
theorem addLabel_followLabels (table more : List (String × Nat)) (n : Nat) (name : String) (i : Nat) :
    addLabel (followLabels table n more) name (i + n) = followLabels table n (addLabel more name i) := by
  simp only [addLabel, findLabel_isSome_iff, mem_followLabels]
  by_cases hmore : name ∈ more.map Prod.fst
  · rw [if_pos (.inr hmore), if_pos hmore]
  · rw [if_neg hmore]
    -- a label that is new to the second table only is left out again
    by_cases htable : name ∈ table.map Prod.fst
    · rw [if_pos (.inl htable), followLabels, followLabels, List.filter_append,
        List.filter_singleton, decide_eq_false (not_not.mpr htable)]
      simp
    · rw [if_neg (not_or.mpr ⟨htable, hmore⟩), followLabels, followLabels, List.filter_append, List.filter_singleton,
        decide_eq_true htable]
      simp

theorem extendLabels_followLabels (table more : List (String × Nat)) (n i : Nat) (cs : List Command) :
    extendLabels (followLabels table n more) (i + n) cs = followLabels table n (extendLabels more i cs) := by
  induction cs generalizing more i with
  | nil => rfl
  | cons c cs ih =>
    simp only [extendLabels, Nat.add_right_comm i n 1]
    cases c.label? with
    | none => exact ih more (i + 1)
    | some name =>
      dsimp only
      rw [addLabel_followLabels]
      exact ih (addLabel more name i) (i + 1)

theorem extendLabels_append (table : List (String × Nat)) (i : Nat) (cs ds : List Command) :
    extendLabels table i (cs ++ ds) = extendLabels (extendLabels table i cs) (i + cs.length) ds := by
  induction cs generalizing table i with
  | nil => rfl
  | cons c cs ih =>
    simp only [List.cons_append, extendLabels, List.length_cons, ih]
    cases c.label? <;> simp [Nat.add_right_comm, Nat.add_assoc]

/-- The table of commands after other commands (`followLabels`): positions go on from the number of the first ones. -/
theorem labelTable_append (cs ds : List Command) :
    labelTable (cs ++ ds) = followLabels (labelTable cs) cs.length (labelTable ds) := by
  have hstart : labelTable cs = followLabels (labelTable cs) cs.length [] := by simp [followLabels]
  rw [labelTable, extendLabels_append, ← labelTable, hstart, extendLabels_followLabels, ← hstart]
  rfl

/-- Labels do not depend on the numbers of lines. -/
theorem extendLabels_renumber (table : List (String × Nat)) (i : Nat) (number : Line → Line) (cs : List Command) :
    extendLabels table i (cs.map (Command.renumber number)) = extendLabels table i cs := by
  induction cs generalizing table i with
  | nil => rfl
  | cons c cs ih =>
    have hlabel : (c.renumber number).label? = c.label? := rfl
    simp only [List.map_cons, extendLabels, hlabel, ih]

theorem labelTable_renumber (number : Line → Line) (cs : List Command) :
    labelTable (cs.map (Command.renumber number)) = labelTable cs := extendLabels_renumber [] 0 number cs

/-! ## Scripts -/

/-- `s.followedBy n t` — a script followed by another one, the lines of which come after `n` more lines. -/
def Script.followedBy (s : Script) (n : Nat) (t : Script) : Script :=
  { s with
    commands := s.commands ++ t.commands.map (Command.renumber (Line.below n))
    labels := followLabels s.labels s.commands.length t.labels }

theorem Script.ofCommands_append (id other : String) (n : Nat) (cs ds : List Command) :
    Script.ofCommands id (cs ++ ds.map (Command.renumber (Line.below n))) =
      (Script.ofCommands id cs).followedBy n (Script.ofCommands other ds) := by
  have hlabels : labelTable (ds.map (Command.renumber (Line.below n))) = labelTable ds :=
    labelTable_renumber (Line.below n) ds
  rw [Script.ofCommands, labelTable_append, hlabels]
  rfl

/-- Reading a text and another one below it is reading both, and the first refusal counts. -/
theorem Script.parse_join (mark source first second : String) :
    Script.parse mark source (first ++ "\n" ++ second) =
      match Script.parse mark source first, Script.parse mark source second with
      | .ok s, .ok t => .ok (s.followedBy (lineCount first) t)
      | .ok _, .error e => .error (e.renumber (Line.below (lineCount first)))
      | .error e, _ => .error e := by
  simp only [Script.parse_eq_match, significantLines_join, List.mapM_append, mapM_commandAt_below]
  cases (significantLines mark first).mapM commandAt with
  | error e => rfl
  | ok cs =>
    cases (significantLines mark second).mapM commandAt with
    | error e => rfl
    | ok ds => exact congrArg Except.ok (Script.ofCommands_append "parsed" "parsed" (lineCount first) cs ds)

end ChatScene

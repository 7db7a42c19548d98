/-
  Labels, and the scripts that have them right.

  1. **The table against a search of the commands** — the table of a script is built in one pass that keeps the first
     definition of each name (`labelTable`).  Here the pass is compared with a search: looking a name up in the table is
     the same as searching the commands for the first one that defines it (`findLabel_labelTable`, where `firstLabel` is
     the search).

  2. **The table as a list** — it has each name once, in the order of the first definitions, and positions of commands
     (`risesBelow_labelTable`).

  3. **Sound scripts** — a script is `Script.Sound` when its table is that of its commands and none of them is without
     fields.  Then a label is found where the search finds it, and that is a position in the script
     (`Script.Sound.find?_eq`, `Script.Sound.find?_lt`).

  4. **Reading** — every reader of scripts builds the table that way and never lets a command without fields through.
     So whatever has been read is sound, whatever a document says of its labels: this is `Script.Read.sound`.
-/
import ChatScene.Files.Scene

namespace ChatScene

/-! ## The table against a search of the commands -/

/-- `firstLabel name commands` — the position of the first command that defines a label. -/
def firstLabel (name : String) (commands : List Command) : Option Nat :=
  commands.findIdx? fun c => c.label? = some name

/-- A command defines a label (`label?`) just when it is this label. -/
theorem Command.label?_eq_some_iff {c : Command} {name : String} : c.label? = some name ↔ c.body = .label name := by
  cases hb : c.body <;> simp [Command.label?, hb]

theorem findLabel_append (name : String) (table rest : List (String × Nat)) :
    findLabel name (table ++ rest) = (findLabel name table).or (findLabel name rest) := by
  induction table with
  | nil => rfl
  | cons entry table ih =>
    obtain ⟨k, i⟩ := entry
    by_cases hk : k = name
    · simp [findLabel, hk]
    · simp [findLabel, hk, ih]

/-- A name is missing from the table (`findLabel`) just when no entry has it. -/
theorem findLabel_eq_none_iff {name : String} {table : List (String × Nat)} :
    findLabel name table = none ↔ name ∉ table.map Prod.fst := by
  induction table with
  | nil => simp [findLabel]
  | cons entry table ih =>
    obtain ⟨k, j⟩ := entry
    by_cases hk : k = name
    · simp [findLabel, hk]
    · simp [findLabel, hk, ih, Ne.symm hk]

/-- And it is found just when some entry has it. -/
theorem findLabel_isSome_iff {name : String} {table : List (String × Nat)} :
    (findLabel name table).isSome ↔ name ∈ table.map Prod.fst := by
  rw [Option.isSome_iff_ne_none, ne_eq, findLabel_eq_none_iff, Decidable.not_not]

/-- One more label: it is found where it was, or else where it is now defined.  So `addLabel` keeps the first
    definition. -/
theorem findLabel_addLabel (name other : String) (table : List (String × Nat)) (i : Nat) :
    findLabel name (addLabel table other i) =
      (findLabel name table).or (if other = name then some i else none) := by
  unfold addLabel
  split
  · rename_i hsome
    by_cases hn : other = name
    · subst hn
      obtain ⟨j, hj⟩ := Option.isSome_iff_exists.mp hsome
      simp [hj]
    · simp [hn]
  · rw [findLabel_append]
    rfl

/-- The pass over the commands (`extendLabels`), for any table and any position to begin with; this is what the
    induction needs. -/
theorem findLabel_extendLabels (name : String) (table : List (String × Nat)) (i : Nat) (cs : List Command) :
    findLabel name (extendLabels table i cs) = (findLabel name table).or ((firstLabel name cs).map (i + ·)) := by
  -- on the commands; a label that is new to the table is found at the position of its command
  induction cs generalizing table i with
  | nil => simp [extendLabels, firstLabel]
  | cons c cs ih =>
    have hstep : (firstLabel name (c :: cs)).map (i + ·) =
        (if c.label? = some name then some i else none).or ((firstLabel name cs).map (i + 1 + ·)) := by
      by_cases hc : c.label? = some name
      · simp [firstLabel, List.findIdx?_cons, hc]
      · simp [firstLabel, List.findIdx?_cons, hc, Option.map_map, Function.comp_def, Nat.add_assoc, Nat.add_comm 1]
    rw [hstep, extendLabels]
    cases hc : c.label? with
    | none => simp [ih]
    | some other =>
      rw [ih, findLabel_addLabel, Option.or_assoc]
      simp

/-- Looking a name up in the table of commands is searching the commands with `firstLabel`. -/
theorem findLabel_labelTable (name : String) (cs : List Command) :
    findLabel name (labelTable cs) = firstLabel name cs := by
  rw [labelTable, findLabel_extendLabels]
  simp [findLabel]

/-- What a found position means: the label (`label?`) is defined there, and nowhere before. -/
theorem firstLabel_eq_some_iff {name : String} {cs : List Command} {i : Nat} :
    firstLabel name cs = some i ↔
      (∃ c, cs[i]? = some c ∧ c.label? = some name) ∧ ∀ j < i, ∀ c, cs[j]? = some c → c.label? ≠ some name := by
  unfold firstLabel
  rw [List.findIdx?_eq_some_iff_getElem]
  constructor
  · rintro ⟨hlt, hi, hbefore⟩
    refine ⟨⟨cs[i], List.getElem?_eq_getElem hlt, by simpa using hi⟩, fun j hj c hc => ?_⟩
    obtain ⟨hjlt, rfl⟩ := List.getElem?_eq_some_iff.mp hc
    simpa using hbefore j hj
  · rintro ⟨⟨c, hc, hname⟩, hbefore⟩
    obtain ⟨hlt, rfl⟩ := List.getElem?_eq_some_iff.mp hc
    refine ⟨hlt, by simpa using hname, fun j hj => ?_⟩
    have hjlt : j < cs.length := Nat.lt_trans hj hlt
    simpa using hbefore j hj cs[j] (List.getElem?_eq_getElem hjlt)

/-! ## The table as a list -/

section Table

variable {table : List (String × Nat)} {i n : Nat} {cs : List Command}

/-- `RisesBelow n table` — a table that has each name once and rising positions, all of them below a bound. -/
structure RisesBelow (n : Nat) (table : List (String × Nat)) : Prop where
  nodup : (table.map Prod.fst).Nodup
  rises : (table.map Prod.snd).Pairwise (· < ·)
  lt : ∀ entry ∈ table, entry.2 < n

theorem RisesBelow.mono (h : RisesBelow n table) {m : Nat} (hle : n ≤ m) : RisesBelow m table :=
  ⟨h.nodup, h.rises, fun entry hentry => Nat.lt_of_lt_of_le (h.lt entry hentry) hle⟩

/-- A label that is added at `i` gets the largest position of all, and it is not added if its name is there. -/
theorem RisesBelow.addLabel (h : RisesBelow i table) (name : String) : RisesBelow (i + 1) (addLabel table name i) := by
  rw [ChatScene.addLabel]
  split
  · exact h.mono (Nat.le_succ i)
  · rename_i hnew
    rw [findLabel_isSome_iff] at hnew
    refine ⟨?_, ?_, ?_⟩
    · rw [List.map_append, List.nodup_append]
      refine ⟨h.nodup, by simp, fun other hother new hname => ?_⟩
      cases List.mem_singleton.mp hname
      rintro rfl
      exact hnew hother
    · rw [List.map_append, List.pairwise_append]
      exact ⟨h.rises, List.pairwise_singleton _ _, by simpa using fun j name hentry => h.lt (name, j) hentry⟩
    · rw [List.forall_mem_append]
      exact ⟨(h.mono (Nat.le_succ i)).lt, by simp⟩

/-- The pass over the commands, by induction on them: after each one the bound of `RisesBelow` is one more. -/
theorem RisesBelow.extendLabels (h : RisesBelow i table) : RisesBelow (i + cs.length) (extendLabels table i cs) := by
  induction cs generalizing table i with
  | nil => exact h
  | cons c cs ih =>
    rw [ChatScene.extendLabels, List.length_cons, Nat.add_comm cs.length, ← Nat.add_assoc]
    cases c.label? with
    | none => exact ih (h.mono (Nat.le_succ i))
    | some name => exact ih (h.addLabel name)

/-- So the table of commands, which `labelTable` makes, has each name once, in the order of the first definitions. -/
theorem risesBelow_labelTable (cs : List Command) : RisesBelow cs.length (labelTable cs) := by
  have hempty : RisesBelow 0 [] := ⟨by simp, by simp, by simp⟩
  have hall : RisesBelow (0 + cs.length) (extendLabels [] 0 cs) := hempty.extendLabels
  rwa [Nat.zero_add] at hall

end Table

/-! ## Sound scripts -/

/-- A script with the label table of its commands and without commands that have no fields. -/
structure Script.Sound (s : Script) : Prop where
  labels_eq : s.labels = labelTable s.commands
  body_ne : ∀ c ∈ s.commands, c.body ≠ .bare

/-- In a sound script (`Sound`) a label is found where a search of the commands finds it. -/
theorem Script.Sound.find?_eq {s : Script} (h : s.Sound) (name : String) :
    s.find? name = firstLabel name s.commands := by
  rw [Script.find?, h.labels_eq, findLabel_labelTable]

/-- A found label is a position in the script, so a jump to it leaves the cursor at a command. -/
theorem Script.Sound.find?_lt {s : Script} (h : s.Sound) {name : String} {i : Nat} (hi : s.find? name = some i) :
    i < s.commands.length := by
  rw [h.find?_eq] at hi
  obtain ⟨⟨c, hc, -⟩, -⟩ := firstLabel_eq_some_iff.mp hi
  exact (List.getElem?_eq_some_iff.mp hc).1

theorem Script.Sound.empty : ({} : Script).Sound := ⟨rfl, by simp⟩

/-- `Script.ofCommands` makes the table itself, so only the commands have to be looked at. -/
theorem Script.Sound.ofCommands (id : String) {cs : List Command} (h : ∀ c ∈ cs, c.body ≠ .bare) :
    (Script.ofCommands id cs).Sound := ⟨rfl, h⟩

/-- The name of a script has nothing to do with it. -/
theorem Script.Sound.rename {s : Script} (h : s.Sound) (id : String) : { s with id }.Sound :=
  ⟨h.labels_eq, h.body_ne⟩

/-! ## What the readers build -/

/-- The rules of a kind never give a body without fields (`.bare`); there is no other way to make one from tokens. -/
theorem Body.ofTokens_ne_bare {kind : Kind} {tokens : List String} {body : Body}
    (h : Body.ofTokens kind tokens = .ok body) : body ≠ .bare := by
  rintro rfl
  -- every branch ends in a refusal or in a body with the fields of its kind
  cases kind <;> simp only [Body.ofTokens, oneName] at h <;> (repeat' split at h) <;> cases h

/-- The same for a whole line: what is read from tokens has fields. -/
theorem Command.ofTokens_body_ne {line : Line} {tokens : List String} {c : Command}
    (h : Command.ofTokens line tokens = .ok c) : c.body ≠ .bare := by
  simp only [Command.ofTokens] at h
  split at h
  · contradiction
  · split at h
    · contradiction
    · rename_i body hbody
      cases h
      exact Body.ofTokens_ne_bare hbody

/-- All commands of a text have fields, by induction on its lines. -/
theorem readLines_body_ne {mark : List Char} {n : Nat} {ls : List (List Char)} {cs : List Command}
    (h : readLines mark n ls = .ok cs) : ∀ c ∈ cs, c.body ≠ .bare := by
  -- on the lines: one is skipped, refused or read
  induction ls generalizing n cs with
  | nil =>
    cases h
    simp
  | cons raw rest ih =>
    simp only [readLines] at h
    split at h
    · split at h
      · contradiction
      · rename_i command hcommand
        split at h
        · contradiction
        · rename_i commands hrest
          cases h
          intro c hc
          rcases List.mem_cons.mp hc with rfl | hc
          · exact Command.ofTokens_body_ne hcommand
          · exact ih hrest c hc
    · exact ih h

/-- All commands of a document have fields, by induction on its entries. -/
theorem commandsOfJson_body_ne {entries : List Json} {cs : List Command}
    (h : commandsOfJson entries = .ok cs) : ∀ c ∈ cs, c.body ≠ .bare := by
  induction entries generalizing cs with
  | nil =>
    cases h
    simp
  | cons entry rest ih =>
    simp only [commandsOfJson] at h
    split at h
    · contradiction
    · rename_i command hcommand
      split at h
      · contradiction
      · rename_i commands hrest
        cases h
        intro c hc
        rcases List.mem_cons.mp hc with rfl | hc
        · exact Command.ofTokens_body_ne hcommand
        · exact ih hrest c hc

/-- A text gives a sound script (`Sound`). -/
theorem Script.parse_sound {mark source text : String} {s : Script} (h : Script.parse mark source text = .ok s) :
    s.Sound := by
  simp only [Script.parse] at h
  split at h
  · contradiction
  · rename_i commands hread
    cases h
    exact Script.Sound.ofCommands _ (readLines_body_ne hread)

/-- So does a document.  Its own table of labels is not used. -/
theorem Script.ofJson_sound {j : Json} {s : Script} (h : Script.ofJson j = .ok s) : s.Sound := by
  simp only [Script.ofJson] at h
  split at h
  · contradiction
  · split at h
    · contradiction
    · rename_i commands hread
      cases h
      exact Script.Sound.ofCommands _ (commandsOfJson_body_ne hread)

/-- A script that has been read: from a text, from a file, from a compiled document or from a file with one. -/
inductive Script.Read : Script → Prop where
  | text {mark source text : String} {s : Script} : Script.parse mark source text = .ok s → Read s
  | file {t : Tree} {mark : String} {path : Path} {s : Script} : (t.script mark path).result = .ok s → Read s
  | compiled {j : Json} {s : Script} : Script.ofJson j = .ok s → Read s
  | compiledFile {t : Tree} {m : Machine} {path : Path} {s : Script} : t.compiledScript m path = .ok s → Read s

/-- Whatever has been read comes from a text (`Script.parse`), up to its name, or from a compiled document
    (`Script.ofJson`); reading a file adds a name and nothing else. -/
theorem Script.Read.origin {s : Script} (h : s.Read) :
    (∃ mark source text read, Script.parse mark source text = .ok read ∧ s = { read with id := s.id }) ∨
      ∃ j, Script.ofJson j = .ok s := by
  cases h with
  | text h => exact .inl ⟨_, _, _, s, h, rfl⟩
  | compiled h => exact .inr ⟨_, h⟩
  -- a file gives what its text gives, under the name of the file
  | @file t mark path _ h =>
    simp only [Tree.script] at h
    split at h
    · contradiction
    · split at h
      · contradiction
      · rename_i read hread
        cases h
        exact .inl ⟨_, _, _, read, hread, rfl⟩
  -- and a compiled one what its document gives
  | @compiledFile t m path _ h =>
    simp only [Tree.compiledScript] at h
    split at h
    · contradiction
    · rename_i j hj
      cases hr : Script.ofJson j with
      | error e =>
        rw [hr] at h
        contradiction
      | ok read =>
        rw [hr] at h
        cases h
        exact .inr ⟨j, hr⟩

/-- Whatever has been read is sound.  Sessions are told scripts that have been read, so they play sound scripts only. -/
theorem Script.Read.sound {s : Script} (h : s.Read) : s.Sound := by
  obtain ⟨_, _, _, read, hread, heq⟩ | ⟨j, hj⟩ := h.origin
  · rw [heq]
    exact (Script.parse_sound hread).rename _
  · exact Script.ofJson_sound hj

end ChatScene

/-
  The table of labels as a list.

  1. **Order** — the commands are gone through once, and a name that is new goes to the end of the table.  So the table
     has each name once, in the order in which the names are first defined (`map_fst_extendLabels`), and the positions
     rise (`risesBelow_labelTable`).

  2. **Meaning** — an entry of the table is the same as a first definition: `DefinedFirst cs name i` says that the
     command at `i` defines the label and no earlier one does, without any reference to how the table is built.

  3. **Documents** — the table of a compiled script is made from the commands (`Script.ofJson_eq_ok`), and the labels of
     these from the tokens of the entries (`commandsOfJson_labels`).  Nothing else that a document says has an influence
     on it: neither the table that it holds nor the kinds of its commands.

  `labels_at_first_definitions` says all of this about every list of commands and every document.
-/
import ChatScene.Proofs.Catalogs

namespace ChatScene

/-! ## Order -/

section Order

variable {table : List (String × Nat)} {i n : Nat} {cs ds : List Command} {name : String}

/-- `DefinedFirst cs name i` — the label is defined by the command at this position, and by none before. -/
structure DefinedFirst (cs : List Command) (name : String) (i : Nat) : Prop where
  here : ∃ c, cs[i]? = some c ∧ c.body = .label name
  before : ∀ j < i, ∀ c, cs[j]? = some c → c.body ≠ .label name

/-- A name is looked up at its first definition (`DefinedFirst`). -/
theorem findLabel_labelTable_eq_some_iff : findLabel name (labelTable cs) = some i ↔ DefinedFirst cs name i := by
  rw [findLabel_labelTable, firstLabel_eq_some_iff]
  simp only [ne_eq, Command.label?_eq_some_iff]
  exact ⟨fun h => ⟨h.1, h.2⟩, fun h => ⟨h.here, h.before⟩⟩

/-- A name that no command defines is not in the table (`labelTable`), and no other is missing. -/
theorem findLabel_labelTable_eq_none_iff :
    findLabel name (labelTable cs) = none ↔ ∀ c ∈ cs, c.body ≠ .label name := by
  rw [findLabel_labelTable, firstLabel, List.findIdx?_eq_none_iff]
  simp [Command.label?_eq_some_iff]

/-- In a table without repeated names an entry is found (`findLabel`) just when it is there. -/
theorem findLabel_eq_some_iff_mem (h : (table.map Prod.fst).Nodup) :
    findLabel name table = some i ↔ (name, i) ∈ table := by
  induction table with
  | nil => simp [findLabel]
  | cons entry table ih =>
    obtain ⟨k, j⟩ := entry
    rw [List.map_cons, List.nodup_cons] at h
    rw [findLabel, List.mem_cons, Prod.mk.injEq]
    by_cases hk : k = name
    · subst hk
      have hnot : (k, i) ∉ table := fun hmem => h.1 (List.mem_map.mpr ⟨_, hmem, rfl⟩)
      simp [hnot, eq_comm]
    · simp [hk, Ne.symm hk, ih h.2]

/-- A label that is added (`addLabel`): its name goes to the end, unless it is there already. -/
theorem map_fst_addLabel (table : List (String × Nat)) (name : String) (i : Nat) :
    (addLabel table name i).map Prod.fst =
      if name ∈ table.map Prod.fst then table.map Prod.fst else table.map Prod.fst ++ [name] := by
  simp only [addLabel, findLabel_isSome_iff]
  split
  · rfl
  · rw [List.map_append]
    rfl

/-- The names of the table are all names of labels (`label?`), each once, as they first occur.  The induction is on the
    commands, with any table before them. -/
theorem map_fst_extendLabels (h : (table.map Prod.fst).Nodup) :
    (extendLabels table i cs).map Prod.fst = (table.map Prod.fst ++ cs.filterMap Command.label?).eraseDups := by
  -- on the commands: a new name stands at the end of the table, where it stands among the definitions
  induction cs generalizing table i with
  | nil =>
    rw [List.filterMap_nil, List.append_nil]
    exact (eraseDupsBy_of_pairwise (h.imp fun hne => beq_false_of_ne hne.symm)).symm
  | cons c cs ih =>
    rw [extendLabels]
    cases hc : c.label? with
    | none => rw [List.filterMap_cons_none hc, ih h]
    | some name =>
      have hadd := map_fst_addLabel table name i
      rw [List.filterMap_cons_some hc]
      split at hadd
      · rename_i hmem
        rw [ih (hadd ▸ h), hadd, List.eraseDups_append, List.eraseDups_append, List.cons_removeAll]
        simp [hmem]
      · rename_i hnew
        have hnodup : (table.map Prod.fst ++ [name]).Nodup := by
          rw [List.nodup_append']
          exact ⟨h, List.nodup_singleton _, by simpa using hnew⟩
        rw [ih (hadd ▸ hnodup), hadd, List.append_assoc, List.singleton_append]

/-- The table depends on the labels (`label?`) of the commands alone, and on how many commands there are. -/
theorem extendLabels_congr (h : cs.map Command.label? = ds.map Command.label?) (table : List (String × Nat)) (i : Nat) :
    extendLabels table i cs = extendLabels table i ds := by
  induction cs generalizing ds table i with
  | nil =>
    cases ds with
    | nil => rfl
    | cons d ds => cases h
  | cons c cs ih =>
    cases ds with
    | nil => cases h
    | cons d ds =>
      rw [List.map_cons, List.map_cons, List.cons.injEq] at h
      rw [extendLabels, extendLabels, h.1]
      cases d.label? with
      | none => exact ih h.2 table (i + 1)
      | some name => exact ih h.2 (addLabel table name i) (i + 1)

end Order

/-! ## Documents -/

/-- The fields of a command come from its tokens; the line has no part in them. -/
theorem Command.body_eq_of_tokens {line other : Line} {tokens : List String} {c d : Command}
    (hc : Command.ofTokens line tokens = .ok c) (hd : Command.ofTokens other tokens = .ok d) : c.body = d.body := by
  obtain ⟨-, -, -, hc⟩ := Command.ofTokens_eq_ok_iff.mp hc
  obtain ⟨-, -, -, hd⟩ := Command.ofTokens_eq_ok_iff.mp hd
  exact Except.ok.inj (hc.symm.trans hd)

/-- The entries of a document for a script. -/
def commandEntries (j : Json) : List Json := ((j.get? "commands").bind Json.arr?).getD []

/-- The tokens that each entry of a document gives. -/
def entryTokens (j : Json) : List (Option Json) := (commandEntries j).map (·.get? "args")

/-- Two lists of entries with the same tokens have the same labels, one command after the other. -/
theorem commandsOfJson_labels {xs ys : List Json} {cs ds : List Command} (hcs : commandsOfJson xs = .ok cs)
    (hds : commandsOfJson ys = .ok ds) (h : xs.map (·.get? "args") = ys.map (·.get? "args")) :
    cs.map Command.label? = ds.map Command.label? := by
  rw [commandsOfJson_eq_mapM, mapM_eq_ok_iff] at hcs hds
  -- both lists are read entry by entry, and entries with the same tokens give the same body
  induction hcs generalizing ys ds with
  | nil =>
    obtain rfl : ys = [] := List.map_eq_nil_iff.mp h.symm
    cases hds
    rfl
  | cons hc _ ih =>
    cases hds with
    | nil => cases h
    | cons hd hds =>
      rw [List.map_cons, List.map_cons, List.cons.injEq] at h
      rw [Command.ofJson] at hc hd
      rw [← h.1] at hd
      have hlabel : ∀ c d : Command, c.body = d.body → c.label? = d.label? := by
        intro c d hbody
        rw [Command.label?, Command.label?, hbody]
      rw [List.map_cons, List.map_cons, ih hds h.2, hlabel _ _ (Command.body_eq_of_tokens hc hd)]

/-- A script that has been read from a document has the table (`labelTable`) of its own commands. -/
theorem Script.ofJson_eq_ok {j : Json} {s : Script} (h : Script.ofJson j = .ok s) :
    commandsOfJson (commandEntries j) = .ok s.commands ∧ s.labels = labelTable s.commands := by
  simp only [Script.ofJson] at h
  split at h
  · cases h
  · split at h
    · cases h
    · rename_i commands hread
      cases h
      exact ⟨hread, rfl⟩

/-- The table of labels has a name at a position just when the command there is the first to define it
    (`DefinedFirst`).  It has no other names, and it lists them in the order of their first definitions, so that
    the positions rise.  The table of a compiled script is the one of its commands: documents whose entries have
    the same tokens give the same table, whatever else they say, of labels, of kinds or of lines. -/
theorem labels_at_first_definitions :
    (∀ cs : List Command,
      (∀ name i, findLabel name (labelTable cs) = some i ↔ DefinedFirst cs name i) ∧
      (∀ name, findLabel name (labelTable cs) = none ↔ ∀ c ∈ cs, c.body ≠ .label name) ∧
      (∀ name i, (name, i) ∈ labelTable cs ↔ DefinedFirst cs name i) ∧
      (labelTable cs).map Prod.fst = (cs.filterMap Command.label?).eraseDups ∧
      ((labelTable cs).map Prod.snd).Pairwise (· < ·)) ∧
    ∀ j s, Script.ofJson j = .ok s → s.labels = labelTable s.commands ∧
      ∀ k r, Script.ofJson k = .ok r → entryTokens j = entryTokens k → s.labels = r.labels := by
  constructor
  · intro cs
    have hnodup := (risesBelow_labelTable cs).nodup
    refine ⟨fun name i => findLabel_labelTable_eq_some_iff, fun name => findLabel_labelTable_eq_none_iff,
      fun name i => ?_, ?_, (risesBelow_labelTable cs).rises⟩
    · rw [← findLabel_eq_some_iff_mem hnodup, findLabel_labelTable_eq_some_iff]
    · exact map_fst_extendLabels List.nodup_nil
  · intro j s hs
    obtain ⟨hcommands, hlabels⟩ := Script.ofJson_eq_ok hs
    refine ⟨hlabels, fun k r hr htokens => ?_⟩
    obtain ⟨hcommands', hlabels'⟩ := Script.ofJson_eq_ok hr
    rw [hlabels, hlabels']
    exact extendLabels_congr (commandsOfJson_labels hcommands hcommands' htokens) [] 0

/-- A compiled script that defines a label twice and says nothing about its labels. -/
def modestDocument : Json :=
  .obj
    [("id", .str "modest"),
     ("commands", .arr
       [.obj [("index", .int 0), ("args", .arr [.str "@text", .str "hi"])],
        .obj [("index", .int 1), ("args", .arr [.str " @label ", .str "end"])],
        .obj [("index", .int 2), ("args", .arr [.str "@label", .str "start"])],
        .obj [("index", .int 3), ("args", .arr [.str "@label", .str "end "])]])]

/-- The same script in a document with wrong labels, wrong kinds and a stranger. -/
def forgedDocument : Json :=
  .obj
    [("labels", .obj [("end", .int 3), ("nowhere", .int 9)]),
     ("commands", .arr
       [.obj [("args", .arr [.str "@text", .str "hi"]), ("type", .str "label"), ("index", .int 0)],
        .obj [("index", .float 1.0), ("type", .str ""), ("args", .arr [.str " @label ", .str "end"])],
        .obj [("index", .int 2), ("args", .arr [.str "@label", .str "start"]), ("author", .null)],
        .obj [("index", .int 7), ("args", .arr [.str "@label", .str "end "])]]),
     ("id", .str "forged")]

theorem labels_at_first_definitions_forged :
    entryTokens modestDocument = entryTokens forgedDocument ∧
      ∃ s r, Script.ofJson modestDocument = .ok s ∧ Script.ofJson forgedDocument = .ok r ∧
        s.labels = r.labels ∧ r.labels = [("end", 1), ("start", 2)] ∧ DefinedFirst r.commands "end" 1 := by
  have hmodest : ∃ s, Script.ofJson modestDocument = .ok s := ⟨_, rfl⟩
  have hforged : ∃ r, Script.ofJson forgedDocument = .ok r ∧ r.labels = [("end", 1), ("start", 2)] := ⟨_, rfl, rfl⟩
  obtain ⟨s, hs⟩ := hmodest
  obtain ⟨r, hr, htable⟩ := hforged
  obtain ⟨hcommands, hdocuments⟩ := labels_at_first_definitions
  refine ⟨rfl, s, r, hs, hr, (hdocuments _ s hs).2 _ r hr rfl, htable, ?_⟩
  rw [← (hcommands r.commands).1, ← (hdocuments _ r hr).1, htable]
  rfl

end ChatScene

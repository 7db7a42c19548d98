/-
  Compiled scripts read back.

  1. **Schemas** — a document is accepted when it has the shape that the schema asks for and keeps each of its rules
     (`Schema.accepts_mk_iff`, with one lemma for each rule).  From that comes, for the documents of compiled scripts,
     what an accepted one looks like (`commandSchema_accepts_iff`, `scriptSchema_accepts_iff`).

  2. **Regular scripts** — the commands of a script that has been read come from their own line numbers and tokens
     (`Command.Regular`), since trimming tokens a second time changes nothing, and the line numbers are such as the
     schema lets through.  Whatever has been read is regular (`Script.Read.regular`).

  3. **The round trip** — the document of a regular script is accepted (`Script.Regular.accepts_toJson`) and gives the
     same script (`Script.Regular.ofJson_toJson`).  So this holds of every script that has been read, which is
     `Script.Read.ofJson_toJson_eq`.
-/
import Mathlib.Data.Set.List
import ChatScene.Proofs.Labels
import ChatScene.Proofs.Language

namespace ChatScene

open ChatScene.Text

/-! ## Documents that a schema accepts -/

namespace Json

/-- `schema.Accepts j` — a document without violations. -/
def Schema.Accepts (schema : Schema) (j : Json) : Prop := schema.violations j = []

/-- The check passes just when there are no violations. -/
theorem Schema.check_eq_ok_iff {schema : Schema} {j : Json} : schema.check j = .ok () ↔ schema.Accepts j := by
  rw [Schema.check, Schema.Accepts]
  cases schema.violations j <;> simp [bestViolation]

theorem rulesViolations_eq_nil_iff {fits : Bool} {rules : List Rule} {j : Json} :
    rulesViolations fits rules j = [] ↔ ∀ rule ∈ rules, rule.violations fits j = [] := by
  induction rules with
  | nil => simp [rulesViolations]
  | cons rule rules ih => simp [rulesViolations, ih]

/-- A document is accepted (`Accepts`) when it has the shape and keeps all rules. -/
theorem Schema.accepts_mk_iff {shape : Shape} {rules : List Rule} {j : Json} :
    (Schema.mk shape rules).Accepts j ↔ shape.admits j = true ∧ ∀ rule ∈ rules, rule.violations true j = [] := by
  rw [Schema.Accepts, Schema.violations]
  cases hshape : shape.admits j <;> simp [rulesViolations_eq_nil_iff]

section Rules

variable {fits : Bool} {members : List (Wide × Json)} {items : List Json}

@[simp] theorem Rule.required_eq_nil_iff {names : List String} :
    (Rule.required names).violations fits (.obj members) = [] ↔
      ∀ name ∈ names, ∃ v, lookup (ofString name) members = some v := by
  simp [Rule.violations, Option.isSome_iff_exists, ← Option.isSome_iff_ne_none]

/-- The member is accepted (`Accepts`), if it is there. -/
@[simp] theorem Rule.member_eq_nil_iff {name : String} {schema : Schema} :
    (Rule.member name schema).violations fits (.obj members) = [] ↔
      ∀ v, lookup name members = some v → schema.Accepts v := by
  rw [Rule.violations]
  cases lookup name members <;> simp [Schema.Accepts]

@[simp] theorem Rule.members_eq_nil_iff {schema : Schema} :
    (Rule.members schema).violations fits (.obj members) = [] ↔ ∀ m ∈ members, schema.Accepts m.2 := by
  simp [Rule.violations, Schema.Accepts]

@[simp] theorem Rule.items_eq_nil_iff {schema : Schema} :
    (Rule.items schema).violations fits (.arr items) = [] ↔ ∀ v ∈ items, schema.Accepts v := by
  have hitems : (∀ p ∈ items.zipIdx, schema.violations p.1 = []) ↔ ∀ v ∈ items, schema.violations v = [] := by
    rw [← List.forall_mem_map (f := Prod.fst) (P := fun v => schema.violations v = []), List.zipIdx_map_fst]
  simpa [Rule.violations, Schema.Accepts] using hitems

@[simp] theorem Rule.someItem_eq_nil_iff : Rule.someItem.violations fits (.arr items) = [] ↔ items ≠ [] := by
  simp [Rule.violations]

end Rules

/-! ## Accepted compiled scripts -/

theorem string_accepts_iff {j : Json} : (Schema.mk .string []).Accepts j ↔ ∃ text, j = .str text := by
  rw [Schema.accepts_mk_iff]
  cases j <;> simp [Shape.admits]

end Json

open ChatScene.Json

/-- A number that is not negative is accepted as a line number. -/
theorem countSchema_accepts_int {n : Int} (h : 0 ≤ n) : countSchema.Accepts (.int n) := by
  simp [countSchema, Schema.accepts_mk_iff, Shape.admits, Rule.violations, isBelowZero, h]

/-- An accepted line number is kept as it is. -/
theorem Line.toJson_ofJson {j : Json} (h : countSchema.Accepts j) : (Line.ofJson j).toJson = j := by
  obtain ⟨hshape, -⟩ := Schema.accepts_mk_iff.mp h
  cases j <;> first | rfl | cases hshape

theorem Line.ofJson_toJson (line : Line) : Line.ofJson line.toJson = line := by
  cases line <;> rfl

theorem textsOf_map_str (texts : List String) : textsOf (.arr (texts.map fun text => .str (ofString text))) = texts :=
  by
  simp [textsOf, Json.arr?, List.filterMap_map, Function.comp_def, Json.str?, Json.wide?]

/-- Tokens are accepted when they are texts, and at least one. -/
theorem tokens_accepts_iff {j : Json} :
    (Schema.mk .array [.someItem, .items (.mk .string [])]).Accepts j ↔
      ∃ texts : List Wide, j = .arr (texts.map .str) ∧ texts ≠ [] := by
  rw [Schema.accepts_mk_iff]
  cases j with
  | arr items =>
    have hrange : (∀ v ∈ items, ∃ text, v = Json.str text) ↔ ∃ texts : List Wide, items = texts.map .str := by
      have h := Set.ext_iff.mp (Set.range_list_map Json.str) items
      simpa [Set.mem_range, eq_comm] using h.symm
    simp only [Shape.admits, List.forall_mem_cons, Rule.someItem_eq_nil_iff, Rule.items_eq_nil_iff, string_accepts_iff,
      hrange, true_and, List.not_mem_nil, false_imp_iff, implies_true, and_true, Json.arr.injEq]
    constructor
    · rintro ⟨hne, texts, rfl⟩
      exact ⟨texts, rfl, by simpa using hne⟩
    · rintro ⟨texts, rfl, hne⟩
      exact ⟨by simpa using hne, texts, rfl⟩
  | _ => simp [Shape.admits]

/-- An accepted entry: an object with a line number (`index`) and tokens (`args`), and with a kind (`type`) that is a
    text if it has one. -/
theorem commandSchema_accepts_iff {entry : Json} :
    commandSchema.Accepts entry ↔
      ∃ members, entry = .obj members ∧
        (∃ index, lookup "index" members = some index ∧ countSchema.Accepts index) ∧
        (∀ kind, lookup "type" members = some kind → ∃ text, kind = .str text) ∧
        ∃ texts : List Wide, lookup "args" members = some (.arr (texts.map .str)) ∧ texts ≠ [] := by
  rw [commandSchema, Schema.accepts_mk_iff]
  cases entry with
  | obj members =>
    -- the rules one by one: two members are required, and each of the three has a schema of its own
    simp only [Shape.admits, List.forall_mem_cons, Rule.required_eq_nil_iff, Rule.member_eq_nil_iff, string_accepts_iff,
      tokens_accepts_iff, true_and, List.not_mem_nil, false_imp_iff, implies_true, and_true, Json.obj.injEq,
      exists_eq_left']
    constructor
    · rintro ⟨⟨⟨index, hindex⟩, ⟨args, hargs⟩⟩, hcount, hkind, htexts⟩
      obtain ⟨texts, rfl, hne⟩ := htexts args hargs
      exact ⟨⟨index, hindex, hcount index hindex⟩, hkind, texts, hargs, hne⟩
    · rintro ⟨⟨index, hindex, hcount⟩, hkind, texts, hargs, hne⟩
      refine ⟨⟨⟨index, hindex⟩, ⟨_, hargs⟩⟩, fun v hv => ?_, hkind, fun v hv => ?_⟩
      · rw [hindex] at hv
        exact Option.some.inj hv ▸ hcount
      · rw [hargs] at hv
        exact ⟨texts, (Option.some.inj hv).symm, hne⟩
  | _ => simp [Shape.admits]

/-- An accepted document: an object with a name (`id`) and a list of accepted entries (`commands`), and with a table of
    numbers (`labels`) if it has one. -/
theorem scriptSchema_accepts_iff {j : Json} :
    scriptSchema.Accepts j ↔
      ∃ members, j = .obj members ∧
        (∃ id, lookup "id" members = some (.str id)) ∧
        (∃ entries, lookup "commands" members = some (.arr entries) ∧ ∀ entry ∈ entries, commandSchema.Accepts entry) ∧
        ∀ labels, lookup "labels" members = some labels →
          ∃ table, labels = .obj table ∧ ∀ m ∈ table, countSchema.Accepts m.2 := by
  -- what the schemas of the two members accept, that is a list of entries and a table of numbers
  have hentries (v : Json) : (Schema.mk .array [.items commandSchema]).Accepts v ↔
      ∃ entries, v = .arr entries ∧ ∀ entry ∈ entries, commandSchema.Accepts entry := by
    rw [Schema.accepts_mk_iff]
    cases v <;> simp [Shape.admits]
  have hlabels (v : Json) : (Schema.mk .object [.members countSchema]).Accepts v ↔
      ∃ table, v = .obj table ∧ ∀ m ∈ table, countSchema.Accepts m.2 := by
    rw [Schema.accepts_mk_iff]
    cases v <;> simp [Shape.admits]
  rw [scriptSchema, Schema.accepts_mk_iff]
  cases j with
  | obj members =>
    simp only [Shape.admits, List.forall_mem_cons, Rule.required_eq_nil_iff, Rule.member_eq_nil_iff, string_accepts_iff,
      hentries, hlabels, true_and, List.not_mem_nil, false_imp_iff, implies_true, and_true, Json.obj.injEq,
      exists_eq_left']
    constructor
    · rintro ⟨⟨⟨id, hid⟩, ⟨commands, hcommands⟩⟩, htext, hlist, htable⟩
      obtain ⟨text, rfl⟩ := htext id hid
      obtain ⟨entries, rfl, haccepted⟩ := hlist commands hcommands
      exact ⟨⟨text, hid⟩, ⟨entries, hcommands, haccepted⟩, htable⟩
    · rintro ⟨⟨text, hid⟩, ⟨entries, hcommands, haccepted⟩, htable⟩
      refine ⟨⟨⟨_, hid⟩, ⟨_, hcommands⟩⟩, fun v hv => ?_, fun v hv => ?_, htable⟩
      · rw [hid] at hv
        exact ⟨text, (Option.some.inj hv).symm⟩
      · rw [hcommands] at hv
        exact ⟨entries, (Option.some.inj hv).symm, haccepted⟩
  | _ => simp [Shape.admits]

/-! ## Regular scripts -/

/-- A command that comes from its own line number and tokens. -/
structure Command.Regular (c : Command) : Prop where
  ofTokens_eq : Command.ofTokens c.line c.args = .ok c
  line_accepted : countSchema.Accepts c.line.toJson

/-- A script of regular commands with their label table. -/
structure Script.Regular (s : Script) : Prop where
  labels_eq : s.labels = labelTable s.commands
  commands_regular : ∀ c ∈ s.commands, c.Regular

/-- What tokens give is regular (`Regular`): the tokens of a command are trimmed, so they give the command again. -/
theorem Command.Regular.of_ofTokens {line : Line} {tokens : List String} {c : Command}
    (h : Command.ofTokens line tokens = .ok c) (hline : countSchema.Accepts line.toJson) : c.Regular := by
  obtain ⟨-, rfl, hargs, -⟩ := Command.ofTokens_eq_ok_iff.mp h
  refine ⟨?_, hline⟩
  rw [hargs, Command.ofTokens_trimmed]
  exact h

/-- A regular (`Regular`) command has tokens. -/
theorem Command.Regular.args_ne_nil {c : Command} (h : c.Regular) : c.args ≠ [] := by
  intro hargs
  obtain ⟨hkind, -⟩ := Command.ofTokens_eq_ok_iff.mp h.ofTokens_eq
  rw [hargs] at hkind
  exact hkind rfl

/-- Reading the entries is reading one after the other. -/
theorem commandsOfJson_eq_mapM (entries : List Json) : commandsOfJson entries = entries.mapM Command.ofJson := by
  induction entries with
  | nil => rfl
  | cons entry entries ih =>
    rw [commandsOfJson, ih, List.mapM_cons]
    cases Command.ofJson entry with
    | error e => rfl
    | ok c => cases entries.mapM Command.ofJson <;> rfl

/-- Reading one after the other gives regular commands if reading each does. -/
theorem regular_of_mapM {α : Type} {f : α → Except CommandError Command} {xs : List α} {cs : List Command}
    (h : xs.mapM f = .ok cs) (hf : ∀ x ∈ xs, ∀ c, f x = .ok c → c.Regular) : ∀ c ∈ cs, c.Regular := by
  have hall := mapM_eq_ok_iff.mp h
  clear h
  induction hall with
  | nil => simp
  | cons hx _ ih =>
    rw [List.forall_mem_cons] at hf ⊢
    exact ⟨hf.1 _ hx, ih hf.2⟩

theorem Script.parse_regular {mark source text : String} {s : Script} (h : Script.parse mark source text = .ok s) :
    s.Regular := by
  obtain ⟨cs, hcs, rfl⟩ := Script.parse_eq_ok_iff.mp h
  exact ⟨rfl, regular_of_mapM hcs fun p _ c hc =>
    Command.Regular.of_ofTokens hc (countSchema_accepts_int (Int.natCast_nonneg p.2))⟩

/-- What an accepted entry gives is regular, with the line number as the document has it. -/
theorem Command.ofJson_regular {entry : Json} {c : Command} (haccepted : commandSchema.Accepts entry)
    (h : Command.ofJson entry = .ok c) : c.Regular := by
  obtain ⟨members, rfl, ⟨index, hindex, hcount⟩, -⟩ := commandSchema_accepts_iff.mp haccepted
  refine Command.Regular.of_ofTokens h ?_
  rw [Json.get?, hindex, Option.getD_some, Line.toJson_ofJson hcount]
  exact hcount

/-- And so is a script from a document, which has been checked before it is read. -/
theorem Script.ofJson_regular {j : Json} {s : Script} (h : Script.ofJson j = .ok s) : s.Regular := by
  rw [Script.ofJson] at h
  split at h
  · cases h
  · rename_i hcheck
    obtain ⟨members, rfl, -, ⟨entries, hentries, haccepted⟩, -⟩ :=
      scriptSchema_accepts_iff.mp (Schema.check_eq_ok_iff.mp hcheck)
    simp only [Json.get?, hentries, Option.bind_some, Json.arr?, Option.getD_some, commandsOfJson_eq_mapM] at h
    split at h
    · cases h
    · rename_i cs hcs
      cases h
      exact ⟨rfl, regular_of_mapM hcs fun entry hentry c => Command.ofJson_regular (haccepted entry hentry)⟩

/-- Whatever has been read is regular, from a text (`Script.parse_regular`) or from a document
    (`Script.ofJson_regular`). -/
theorem Script.Read.regular {s : Script} (h : s.Read) : s.Regular := by
  obtain ⟨_, _, _, read, hread, heq⟩ | ⟨j, hj⟩ := h.origin
  · have hregular := Script.parse_regular hread
    rw [heq]
    exact ⟨hregular.labels_eq, hregular.commands_regular⟩
  · exact Script.ofJson_regular hj

/-! ## The round trip -/

theorem Command.Regular.accepts_toJson {c : Command} (h : c.Regular) : commandSchema.Accepts c.toJson :=
  commandSchema_accepts_iff.mpr
    ⟨_, rfl, ⟨_, rfl, h.line_accepted⟩, fun _ hkind => ⟨_, (Option.some.inj hkind).symm⟩, c.args.map ofString,
      by rw [List.map_map]; rfl, by simpa using h.args_ne_nil⟩

/-- The document of a regular command gives the command. -/
theorem Command.Regular.ofJson_toJson {c : Command} (h : c.Regular) : Command.ofJson c.toJson = .ok c := by
  show Command.ofTokens (Line.ofJson c.line.toJson) (textsOf (.arr (c.args.map fun arg => .str (ofString arg)))) = .ok c
  rw [Line.ofJson_toJson, textsOf_map_str]
  exact h.ofTokens_eq

theorem Script.Regular.accepts_toJson {s : Script} (h : s.Regular) : scriptSchema.Accepts s.toJson := by
  refine scriptSchema_accepts_iff.mpr ⟨_, rfl, ⟨s.id, rfl⟩, ⟨_, rfl, fun entry hentry => ?_⟩, fun labels hlabels => ?_⟩
  · obtain ⟨c, hc, rfl⟩ := List.mem_map.mp hentry
    exact (h.commands_regular c hc).accepts_toJson
  · refine ⟨_, (Option.some.inj hlabels).symm, fun m hm => ?_⟩
    obtain ⟨⟨name, i⟩, -, rfl⟩ := List.mem_map.mp hm
    exact countSchema_accepts_int (Int.natCast_nonneg i)

/-- The document of a regular script gives the script again: the commands one by one, and the table of labels from the
    commands. -/
theorem Script.Regular.ofJson_toJson {s : Script} (h : s.Regular) : Script.ofJson s.toJson = .ok s := by
  have hcommands : commandsOfJson (((s.toJson.get? "commands").bind Json.arr?).getD []) = .ok s.commands := by
    show commandsOfJson (s.commands.map Command.toJson) = .ok s.commands
    rw [commandsOfJson_eq_mapM, mapM_eq_ok_iff, List.forall₂_map_left_iff, List.forall₂_same]
    exact fun c hc => (h.commands_regular c hc).ofJson_toJson
  have hid : (s.toJson.get? "id").bind Json.str? = some s.id := congrArg some (spelled_ofString s.id)
  simp only [Script.ofJson, Schema.check_eq_ok_iff.mpr h.accepts_toJson, hcommands, hid, Option.getD_some]
  show Except.ok (Script.mk s.id s.commands (labelTable s.commands)) = .ok s
  rw [← h.labels_eq]

/-- A script that has been read is accepted in its compiled form, and the compiled form gives the same script: the same
    name, the same commands with line numbers, tokens and fields, and the same table of labels. -/
theorem Script.Read.ofJson_toJson_eq {s : Script} (h : s.Read) :
    scriptSchema.check s.toJson = .ok () ∧ Script.ofJson s.toJson = .ok s :=
  ⟨Schema.check_eq_ok_iff.mpr h.regular.accepts_toJson, h.regular.ofJson_toJson⟩

/-- A compiled script whose line number is a double and whose tokens hold blanks, a comma and a line end. -/
def untidyDocument : Json :=
  .obj
    [("id", .str "untidy"),
     ("commands", .arr [.obj [("index", .float 2.0), ("args", .arr [.str " @text ", .str "a,b\nc", .str " d "])]]),
     ("labels", .obj [("elsewhere", .int 7)])]

theorem Script.Read.ofJson_toJson_eq_untidy :
    ∃ s, Script.ofJson untidyDocument = .ok s ∧ s.commands.map Command.args = [["@text", "a,b\nc", "d"]] ∧
      scriptSchema.check s.toJson = .ok () ∧ Script.ofJson s.toJson = .ok s :=
  have hread : Script.ofJson untidyDocument =
      .ok ⟨"untidy", [⟨.real 2.0, ["@text", "a,b\nc", "d"], .text "a,b\nc, d"⟩], []⟩ := rfl
  ⟨_, hread, rfl, Script.Read.ofJson_toJson_eq (.compiled hread)⟩

end ChatScene

/-
  Compiling keeps the script.

  1. **Files** — a file that has been written holds what was written, every other file holds what it held, and paths
     lead where they led (`Tree.writeText_eq_ok`).  A text with plain line ends is read back from its file
     (`Tree.readText_writeText`).

  2. **Scripts from texts** — their documents can be read back: lines and labels have numbers below the number of lines,
     and no label stands twice in the table (`Script.parse_readable`).  A number with too many digits could not be read,
     so a text must not have more lines than the largest number that can be written.

  3. **Compiling** (`Tree.compile_cases`) — it fails and leaves all files as they are, or it writes the document of the
     script.  There is one more way to fail: the name of the file becomes a text of the document, and if it holds halves
     of characters the document is broken off.

  4. **Main result** (`Tree.compile_keeps_script`) — what is read from the compiled form is the script that the source
     gave, and nothing else has changed; compiling that fails changes nothing at all, if the name is a text.
-/
import ChatScene.Proofs.Document
import ChatScene.Proofs.Encoding
import ChatScene.Proofs.RoundTrip

namespace ChatScene

open ChatScene.Text

/-! ## Files -/

namespace Tree

variable {t : Tree} {p q : Place} {path : Path} {bytes : Utf8.Bytes}

/-- A table of files after one has been written (`putFile`): it is replaced where it stands, or added at the end. -/
theorem lookup_putFile (p q : Place) (bytes : Utf8.Bytes) (files : List (Place × Utf8.Bytes)) :
    (putFile p bytes files).lookup q = if q = p then some bytes else files.lookup q := by
  -- the lookup in a table that has been built by one more file
  have hlookup (r : Place) (content : Utf8.Bytes) (rest : List (Place × Utf8.Bytes)) :
      List.lookup q ((r, content) :: rest) = if q = r then some content else rest.lookup q := by
    rw [List.lookup_cons]
    by_cases hq : q = r
    · simp [hq]
    · rw [beq_eq_false_iff_ne.mpr hq, if_neg hq]
  induction files with
  | nil => exact hlookup p bytes []
  | cons file files ih =>
    obtain ⟨r, old⟩ := file
    rw [putFile]
    by_cases hr : r = p
    · subst hr
      rw [if_pos rfl, hlookup, hlookup]
      split <;> rfl
    · rw [if_neg hr, hlookup, hlookup, ih]
      by_cases hq : q = r
      · rw [if_pos hq, if_pos hq, if_neg (hq ▸ hr)]
      · rw [if_neg hq, if_neg hq]

/-- The same for a tree: only the file at the place has another content. -/
theorem content?_put (t : Tree) (p q : Place) (bytes : Utf8.Bytes) :
    (t.put p bytes).content? q = if q = p then some bytes else t.content? q := lookup_putFile p q bytes t.files

/-- The `folders` alone decide where a path leads (`locate`), by induction on the names that are followed. -/
theorem locate_of_folders {u : Tree} (hfolders : u.folders = t.folders) (h : t.locate path = .ok p) :
    u.locate path = .ok p := by
  have hfolder (r : Place) : u.hasFolder r = t.hasFolder r := by rw [hasFolder, hasFolder, hfolders]
  -- following names asks for folders only
  have hfollow (names : List Wide) (r : Place) (h : t.follow path r names = .ok p) : u.follow path r names = .ok p := by
    induction names generalizing r with
    | nil => exact h
    | cons name names ih =>
      rw [follow] at h ⊢
      rw [hfolder]
      split at h
      · rename_i hr
        rw [if_pos hr]
        split at h
        · rename_i hname
          rw [if_pos hname]
          exact ih _ h
        · cases h
      · split at h <;> cases h
  simp only [locate] at h ⊢
  split at h
  · cases h
  · split at h
    · cases h
    · rename_i hnull
      rw [if_neg hnull]
      split at h
      · rename_i hlength
        rw [if_pos hlength]
        exact hfollow _ _ h
      · cases h

/-- What writing a text does, if it succeeds: the path leads to a place that is no folder, and the file there holds the
    text. -/
theorem writeText_eq_ok {cs : List Char} {u : Tree} (h : t.writeText path cs = .ok u) :
    ∃ p, t.locate path = .ok p ∧ t.hasFolder p = false ∧ u.folders = t.folders ∧
      u.content? p = some (Utf8.encode cs) ∧ ∀ q, q ≠ p → u.content? q = t.content? q := by
  rw [writeText, openEmpty] at h
  cases hlocate : t.locate path with
  | error e =>
    rw [hlocate] at h
    cases h
  | ok p =>
    simp only [hlocate] at h
    split at h
    · cases h
    · rename_i hfolder
      cases h
      refine ⟨p, rfl, by simpa using hfolder, rfl, ?_, fun q hq => ?_⟩
      · rw [content?_put, if_pos rfl]
      · rw [content?_put, if_neg hq, content?_put, if_neg hq]

/-- The text of a file that holds the bytes of one: line ends are made plain when it is read (`unifyBreaks`). -/
theorem readText_of_readBytes {cs : List Char} (h : t.readBytes path = .ok (Utf8.encode cs)) :
    t.readText path = .ok (String.ofList (unifyBreaks cs)) := by
  rw [readText, readExact, h]
  simp only [Utf8.decode_encode]
  rfl

/-- A text with plain line ends is read back from the file that it has been written to. -/
theorem readText_writeText {cs : List Char} {u : Tree} (hcs : '\r' ∉ cs) (h : t.writeText path cs = .ok u) :
    u.readText path = .ok (String.ofList cs) := by
  obtain ⟨p, hlocate, hfolder, hfolders, hcontent, -⟩ := writeText_eq_ok h
  have hfolder' : u.hasFolder p = false := by rw [hasFolder, hfolders]; exact hfolder
  have hbytes : u.readBytes path = .ok (Utf8.encode cs) := by
    rw [readBytes, locate_of_folders hfolders hlocate]
    simp [hfolder', hcontent]
  rw [readText_of_readBytes hbytes, unifyBreaks_of_not_mem hcs]

end Tree

/-! ## Scripts from texts -/

/-- A script whose lines and labels have numbers below a bound has a document that can be read (`Readable`), four
    levels deep. -/
theorem Script.readable_toJson {s : Script} {n : Nat} (hn : n ≤ 10 ^ Decimal.maxIntDigits)
    (hlines : ∀ c ∈ s.commands, ∃ i : Nat, c.line = .whole i ∧ i < n) (hlabels : RisesBelow n s.labels)
    (levels : Nat) : s.toJson.Readable (levels + 4) := by
  -- an entry is an object with a list of texts in it: two levels
  have hcommand : ∀ c ∈ s.commands, c.toJson.Readable (levels + 2) := by
    intro c hc
    obtain ⟨i, hline, hi⟩ := hlines c hc
    have hargs : Json.ReadableItems levels (c.args.map fun arg => .str (ofString arg)) := by
      rw [Json.readableItems_iff, List.forall_mem_map]
      exact fun arg _ => isWhole_ofString arg
    refine ⟨by simp, ⟨isWhole_ofString _, ?_⟩, ⟨isWhole_ofString _, isWhole_ofString _⟩, ⟨isWhole_ofString _, hargs⟩,
      trivial⟩
    rw [hline]
    exact Json.readable_natCast (Nat.lt_of_lt_of_le hi hn) _
  have htable : Json.ReadableMembers (levels + 2) (s.labels.map fun entry => (ofString entry.1, .int entry.2)) := by
    rw [Json.readableMembers_iff, List.forall_mem_map]
    exact fun entry hentry =>
      ⟨isWhole_ofString _, Json.readable_natCast (Nat.lt_of_lt_of_le (hlabels.lt entry hentry) hn) _⟩
  refine ⟨by simp, ⟨isWhole_ofString _, isWhole_ofString _⟩, ⟨isWhole_ofString _, ?_⟩,
    ⟨isWhole_ofString _, ?_, htable⟩, trivial⟩
  · show Json.ReadableItems _ _
    rw [Json.readableItems_iff, List.forall_mem_map]
    exact hcommand
  · -- no name stands twice in the table
    rw [List.map_map]
    exact (List.map_map (f := Prod.fst) (g := ofString) (l := s.labels)) ▸
      hlabels.nodup.map fun _ _ => ofString_inj.mp

/-- The script of a text is such a script, under any name. -/
theorem Script.parse_readable {mark source text : String} {s : Script} (h : Script.parse mark source text = .ok s)
    (hlines : (text.toList.splitOn '\n').length ≤ 10 ^ Decimal.maxIntDigits) (id : String) (levels : Nat) :
    { s with id }.toJson.Readable (levels + 4) := by
  obtain ⟨cs, hmapM, rfl⟩ := Script.parse_eq_ok_iff.mp h
  have hcs := commandsOf_of_mapM hmapM
  refine Script.readable_toJson hlines (fun c hc => ?_) ?_ levels
  · obtain ⟨p, hp, hline⟩ := hcs.exists_line hc
    exact ⟨p.2, hline, lt_of_mem_significantLines hp⟩
  · have hlength : cs.length ≤ (text.toList.splitOn '\n').length := by
      rw [← hcs.length_eq]
      exact length_significantLines_le mark text
    exact (risesBelow_labelTable cs).mono hlength

/-! ## Compiling -/

namespace Tree

variable {t : Tree} {m : Machine} {path out : Path} {s : Script}

/-- The script of a file is that of its text, with the name of the file. -/
theorem script_eq_ok {mark : String} (h : (t.script mark path).result = .ok s) :
    ∃ text read, t.inputText path = .ok text ∧ Script.parse mark path.text text = .ok read ∧
      s = { read with id := spelled path.stem } := by
  rw [script] at h
  split at h
  · cases h
  · rename_i text htext
    split at h
    · cases h
    · rename_i read hread
      cases h
      exact ⟨text, read, htext, hread, rfl⟩

/-- The document of a file that holds its text. -/
theorem inputDocument_of_readText {j : Json} (hj : j.Readable m.levels) (h : t.readText path = .ok (Json.render j)) :
    t.inputDocument m path = .ok j := by
  simp only [inputDocument, inputText, h, Except.mapError, Json.parse_render hj]

/-- A script is read back from the document that has been written for it.  It must be regular (`Regular`), so that its
    document tells all of it. -/
theorem compiledScript_saveCompiled {u : Tree} (hs : s.Regular) (hreadable : s.toJson.Readable m.levels)
    (h : t.writeText out (Json.render s.toJson).toList = .ok u) : u.compiledScript m out = .ok s := by
  have htext : u.readText out = .ok (Json.render s.toJson) := by
    have hreturn : '\r' ∉ (Json.render s.toJson).toList := by
      rw [Json.render, String.toList_ofList]
      exact Json.return_not_mem_write _ _ hreadable 0
    rw [readText_writeText hreturn h, String.ofList_toList]
  simp only [compiledScript, inputDocument_of_readText hreadable htext, Except.mapError, hs.ofJson_toJson]

/-- A text without halves of characters is not refused. -/
theorem textRefusal?_of_isWhole {w : Wide} (h : IsWhole w) : Json.textRefusal? w = none := by
  obtain ⟨s, rfl⟩ := h
  have hchars : (ofString s).flatMap (Json.unescapedHalf) = (s.toList.flatMap Json.escaped).map .char := by
    simp [ofString, List.flatMap_map, List.map_flatMap, Json.unescapedHalf]
  rw [Json.textRefusal?, hchars]
  exact refusalFrom_ofString _ 0 ('"' :: s.toList.flatMap Json.escaped)

/-- What compiling does: it fails before anything is written, unless the name holds halves of characters; or it writes
    the document (`saveCompiled`). -/
theorem compile_cases (t : Tree) (path : Path) (output : Option Path) :
    ((∃ e, (t.compile path output).outcome = .error e) ∧ ((t.compile path output).tree = t ∨ ¬ IsWhole path.stem)) ∨
      ∃ out s, (t.compile path output).outcome = .ok out ∧ compiledPath path output = .ok out ∧
        (t.script defaultMark path).result = .ok s ∧
        t.writeText out (Json.render s.toJson).toList = .ok (t.compile path output).tree := by
  cases hout : compiledPath path output with
  | error e => simp [compile, hout]
  | ok out =>
    cases hread : (t.script defaultMark path).result with
    | error e => simp [compile, hout, hread]
    | ok s =>
      -- here the document would be written, and broken off at the name
      cases hname : Json.textRefusal? path.stem with
      | some refusal =>
        have hstem : ¬ IsWhole path.stem := fun hwhole => by simp [textRefusal?_of_isWhole hwhole] at hname
        left
        cases hbreak : t.breakCompiled out <;> simp [compile, hout, hread, hname, hbreak, hstem]
      | none =>
        cases hwrite : t.writeText out (Json.render s.toJson).toList with
        | error e => simp [compile, hout, hread, hname, saveCompiled, hwrite, Except.mapError]
        | ok u => simp [compile, hout, hread, hname, saveCompiled, hwrite, Except.mapError]

/-- Compiling keeps the script: when it succeeds, the compiled form gives the script that the source gave before, on
    every machine, and every other file is as it was; when it fails, all files are as they were, unless there is half
    of a character in the stem of the source's name.  The compiled form is read back unless the source has more lines
    than can be numbered with `Decimal.maxIntDigits` digits, as longer numbers are not read from documents. -/
theorem compile_keeps_script (t : Tree) (path : Path) (output : Option Path) :
    (∀ out, (t.compile path output).outcome = .ok out →
      compiledPath path output = .ok out ∧
      ∃ text s, t.inputText path = .ok text ∧ (t.script defaultMark path).result = .ok s ∧
        ((text.toList.splitOn '\n').length ≤ 10 ^ Decimal.maxIntDigits →
          ∀ m, (t.compile path output).tree.compiledScript m out = .ok s) ∧
        (t.compile path output).tree.folders = t.folders ∧
        ∃ p, t.locate out = .ok p ∧ ∀ q, q ≠ p → (t.compile path output).tree.content? q = t.content? q) ∧
    ∀ e, (t.compile path output).outcome = .error e → IsWhole path.stem → (t.compile path output).tree = t := by
  obtain ⟨⟨e, hfailed⟩, htree⟩ | ⟨out, s, hdone, hout, hread, hwrite⟩ := compile_cases t path output
  · refine ⟨fun out h => ?_, fun _ _ hwhole => htree.resolve_right fun hstem => hstem hwhole⟩
    rw [hfailed] at h
    cases h
  refine ⟨fun out' h => ?_, fun e h => ?_⟩
  swap
  · rw [hdone] at h
    cases h
  cases hdone.symm.trans h
  obtain ⟨text, read, htext, hparse, rfl⟩ := script_eq_ok hread
  have hregular : Script.Regular { read with id := spelled path.stem } := Script.Read.regular (.file hread)
  obtain ⟨p, hp, -, hfolders, -, hothers⟩ := writeText_eq_ok hwrite
  refine ⟨hout, text, _, htext, hread, fun hlines m => ?_, hfolders, p, hp, hothers⟩
  -- four levels of nesting are fewer than any machine allows
  obtain ⟨levels, hlevels⟩ := Nat.exists_eq_add_of_le' m.levels_ge
  have hreadable : Json.Readable m.levels { read with id := spelled path.stem }.toJson := by
    rw [hlevels]
    exact Script.parse_readable hparse hlines _ levels
  exact compiledScript_saveCompiled hregular hreadable hwrite

/-- A source with a comment, an empty line and line ends of two characters, beside an older file that is in the way. -/
def greetingTree : Tree :=
  let source := "# hi\r\n@label, start\r\n\r\n@text, Grüße, \"Welt\"\r\n"
  (({} : Tree).addFile ["greeting.chat"] (Utf8.encode source.toList)).addFile ["greeting.json"] [0x7b]

/-- The script in that source. -/
def greetingScript : Script :=
  ⟨"greeting",
   [⟨.whole 1, ["@label", "start"], .label "start"⟩,
    ⟨.whole 3, ["@text", "Grüße", "\"Welt\""], .text "Grüße, \"Welt\""⟩],
   [("start", 0)]⟩

theorem compile_keeps_script_greeting :
    (greetingTree.compile ⟨0, ["greeting.chat"]⟩ none).outcome = .ok ⟨0, ["greeting.json"]⟩ ∧
      (greetingTree.compile ⟨0, ["greeting.chat"]⟩ none).tree.compiledScript {} ⟨0, ["greeting.json"]⟩ =
        .ok greetingScript := by
  have hdone : (greetingTree.compile ⟨0, ["greeting.chat"]⟩ none).outcome = .ok ⟨0, ["greeting.json"]⟩ := rfl
  have htext : greetingTree.inputText ⟨0, ["greeting.chat"]⟩ =
      .ok "# hi\n@label, start\n\n@text, Grüße, \"Welt\"\n" := rfl
  obtain ⟨-, text, s, hinput, hread, hcompiled, -⟩ := (compile_keeps_script _ _ _).1 _ hdone
  cases htext.symm.trans hinput
  have hscript : (greetingTree.script defaultMark ⟨0, ["greeting.chat"]⟩).result = .ok greetingScript := rfl
  cases hscript.symm.trans hread
  refine ⟨hdone, hcompiled ?_ {}⟩
  exact Nat.le_trans (by decide : _ ≤ 10 ^ 1) (Nat.pow_le_pow_right (by decide) (by decide))

end Tree

end ChatScene

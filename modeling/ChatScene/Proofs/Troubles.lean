/-
  Files that are of no use.

  1. **One file** — a file cannot be read, or its bytes are no text (`Tree.NoText`).  Then a script is refused line by
     line (`Tree.NoScript`), a document by the reader of documents (`Tree.NoDocument`), and settings and lists of
     pictures by the rules for them (`Tree.NoSettings`, `Tree.NoCatalog`).  Each reader gives just these errors; for a
     script this is `Tree.script_eq_error_iff`.

  2. **Several files** — compiling and playing need several files and take them one after the other.  The first one that
     is of no use is the trouble that a request has (`CommandLine.Request.Trouble`).  A request without trouble is
     compiled (`CommandLine.compile_eq_error_iff`), or all is ready to be played (`CommandLine.prepare_eq_error_iff`).

  3. **Unforeseen troubles** (`InputError.Unforeseen`) — some errors are not among those that the program reports: names
     that no file can have (`Path.NamesNoFile`), halves of characters that would have to be written, numbers with too
     many digits, documents with too many levels, complaints that cannot be put into words, and a path without a name
     to put the ending of the compiled form to.
-/
import ChatScene.CommandLine.Run

namespace ChatScene

open ChatScene.Text

/-! ## One file -/

section Errors

variable {α ε ε' : Type} {f : ε → ε'} {x : Except ε α}

theorem mapError_eq_ok_iff {a : α} : x.mapError f = .ok a ↔ x = .ok a := by
  cases x with
  | error d => exact ⟨nofun, nofun⟩
  | ok b => exact ⟨fun h => congrArg _ (Except.ok.inj h), fun h => congrArg _ (Except.ok.inj h)⟩

/-- An error that has been wrapped comes from one that has not. -/
theorem mapError_eq_error_iff {e : ε'} : x.mapError f = .error e ↔ ∃ d, x = .error d ∧ e = f d := by
  cases x with
  | error d =>
    constructor
    · rintro ⟨⟩
      exact ⟨d, rfl, rfl⟩
    · rintro ⟨_, ⟨⟩, rfl⟩
      rfl
  | ok b => exact ⟨nofun, nofun⟩

end Errors

namespace Tree

variable {t : Tree} {m : Machine} {path : Path} {mark : String} {e : InputError}

/-- A file is no text. -/
inductive NoText (t : Tree) (path : Path) : FileError → Prop where
  | unread {f : FileError} : t.readBytes path = .error f → NoText t path f
  | undecoded {bytes : Utf8.Bytes} {f : Utf8.Error} :
      t.readBytes path = .ok bytes → Utf8.decode bytes = .error f → NoText t path (.encoding f)

/-- A file holds no script. -/
inductive NoScript (t : Tree) (mark : String) (path : Path) : InputError → Prop where
  | text {f : FileError} : t.NoText path f → NoScript t mark path (.file f)
  | refused {text : String} {f : ScriptError} :
      t.readText path = .ok text → Script.parse mark path.text text = .error f → NoScript t mark path (.script f)

/-- A file holds no document that the machine can read. -/
inductive NoDocument (t : Tree) (m : Machine) (path : Path) : InputError → Prop where
  | text {f : FileError} : t.NoText path f → NoDocument t m path (.file f)
  | refused {text : String} {f : Json.Error} :
      t.readText path = .ok text → Json.parse m.levels text = .error f → NoDocument t m path (.document f)

/-- A file holds no settings. -/
inductive NoSettings (t : Tree) (m : Machine) (path : Path) : InputError → Prop where
  | document {e : InputError} : t.NoDocument m path e → NoSettings t m path e
  | refused {j : Json} {faults : List SettingError} :
      t.inputDocument m path = .ok j → Settings.ofJson j = .error faults → NoSettings t m path (.settings faults)

/-- A file holds no list of pictures, or one of its entries ends the reading. -/
inductive NoCatalog (t : Tree) (m : Machine) (path : Path) : InputError → Prop where
  | document {e : InputError} : t.NoDocument m path e → NoCatalog t m path e
  | wordless {j : Json} {v : Json.Violation} :
      t.inputDocument m path = .ok j → v ∈ Catalog.manifestSchema.violations j → m.words v.complaint = false →
      NoCatalog t m path .wordless
  | refused {j : Json} {complaint : Json.Complaint} :
      t.inputDocument m path = .ok j → (∀ v ∈ Catalog.manifestSchema.violations j, m.words v.complaint = true) →
      Catalog.manifestSchema.check j = .error complaint → NoCatalog t m path (.manifest path complaint)
  | entry {j : Json} {e : InputError} :
      t.inputDocument m path = .ok j → (∀ v ∈ Catalog.manifestSchema.violations j, m.words v.complaint = true) →
      Catalog.manifestSchema.check j = .ok () →
      (Catalog.entriesOf j).findSome? (Catalog.entryFault? t m path) = some e → NoCatalog t m path e

/-- The errors of reading a text (`NoText`): the bytes cannot be read, or they are none of a text. -/
theorem readText_eq_error_iff {f : FileError} : t.readText path = .error f ↔ t.NoText path f := by
  rw [readText, readExact]
  constructor
  · intro h
    cases hbytes : t.readBytes path with
    | error g =>
      rw [hbytes] at h
      cases h
      exact .unread hbytes
    | ok bytes =>
      simp only [hbytes] at h
      cases hdecode : Utf8.decode bytes with
      | error g =>
        rw [hdecode] at h
        cases h
        exact .undecoded hbytes hdecode
      | ok cs =>
        rw [hdecode] at h
        cases h
  · rintro (hbytes | ⟨hbytes, hdecode⟩)
    · rw [hbytes]
      rfl
    · simp only [hbytes, hdecode]
      rfl

theorem inputText_eq_ok_iff {text : String} : t.inputText path = .ok text ↔ t.readText path = .ok text :=
  mapError_eq_ok_iff

theorem inputText_eq_error_iff : t.inputText path = .error e ↔ ∃ f, t.NoText path f ∧ e = .file f := by
  simp only [inputText, mapError_eq_error_iff, readText_eq_error_iff]

/-- The errors of reading a script (`NoScript`): there is no text, or a line of the text is refused. -/
theorem script_eq_error_iff : (t.script mark path).result = .error e ↔ t.NoScript mark path e := by
  rw [script]
  constructor
  · intro h
    split at h
    · rename_i f htext
      cases h
      obtain ⟨g, hg, rfl⟩ := inputText_eq_error_iff.mp htext
      exact .text hg
    · rename_i text htext
      split at h
      · rename_i f hparse
        cases h
        exact .refused (inputText_eq_ok_iff.mp htext) hparse
      · cases h
  · rintro (hf | ⟨htext, hparse⟩)
    · simp only [inputText_eq_error_iff.mpr ⟨_, hf, rfl⟩]
    · simp only [inputText_eq_ok_iff.mpr htext, hparse]

/-- The errors of reading a document (`NoDocument`): there is no text, or the text is none of a document. -/
theorem inputDocument_eq_error_iff : t.inputDocument m path = .error e ↔ t.NoDocument m path e := by
  rw [inputDocument]
  constructor
  · intro h
    split at h
    · rename_i f htext
      cases h
      obtain ⟨g, hg, rfl⟩ := inputText_eq_error_iff.mp htext
      exact .text hg
    · rename_i text htext
      obtain ⟨f, hparse, rfl⟩ := mapError_eq_error_iff.mp h
      exact .refused (inputText_eq_ok_iff.mp htext) hparse
  · rintro (hf | ⟨htext, hparse⟩)
    · simp only [inputText_eq_error_iff.mpr ⟨_, hf, rfl⟩]
    · simp only [inputText_eq_ok_iff.mpr htext]
      exact mapError_eq_error_iff.mpr ⟨_, hparse, rfl⟩

/-- The errors of reading settings (`NoSettings`): there is no document, or a setting in it is refused. -/
theorem settings_eq_error_iff : (t.settings m path).result = .error e ↔ t.NoSettings m path e := by
  rw [settings]
  constructor
  · intro h
    split at h
    · rename_i f hdocument
      cases h
      exact .document (inputDocument_eq_error_iff.mp hdocument)
    · rename_i j hdocument
      split at h
      · rename_i faults hfaults
        cases h
        exact .refused hdocument hfaults
      · cases h
  · rintro (hdocument | ⟨hdocument, hfaults⟩)
    · simp only [inputDocument_eq_error_iff.mpr hdocument]
    · simp only [hdocument, hfaults]

/-- The errors of a manifest that can be read as a document (`NoCatalog`): it is not let through, in words or without,
    or an entry ends the reading. -/
theorem ofManifest_eq_error_iff {j : Json} (hdocument : t.inputDocument m path = .ok j) :
    (Catalog.ofManifest t m path j).result = .error e ↔ t.NoCatalog m path e := by
  rw [Catalog.ofManifest]
  -- whether all complaints can be put into words is asked before anything else
  by_cases hwords : (Catalog.manifestSchema.violations j).all (m.words ·.complaint) = true
  · have hall : ∀ v ∈ Catalog.manifestSchema.violations j, m.words v.complaint = true := List.all_eq_true.mp hwords
    rw [if_pos hwords]
    constructor
    · intro h
      split at h
      · rename_i complaint hcheck
        cases h
        exact .refused hdocument hall hcheck
      · rename_i hcheck
        rw [Catalog.ofEntries] at h
        split at h
        · rename_i fault hfault
          cases h
          exact .entry hdocument hall hcheck hfault
        · cases h
    · intro h
      cases h with
      | document hnone => cases hdocument.symm.trans (inputDocument_eq_error_iff.mpr hnone)
      | wordless hdocument' hv hword =>
        cases hdocument.symm.trans hdocument'
        exact absurd (hall _ hv) (by simp [hword])
      | refused hdocument' _ hcheck =>
        cases hdocument.symm.trans hdocument'
        simp only [hcheck]
      | entry hdocument' _ hcheck hfault =>
        cases hdocument.symm.trans hdocument'
        simp only [hcheck, Catalog.ofEntries, hfault]
  · obtain ⟨v, hv, hword⟩ : ∃ v ∈ Catalog.manifestSchema.violations j, m.words v.complaint = false := by
      simpa using hwords
    rw [if_neg hwords]
    constructor
    · rintro ⟨⟩
      exact .wordless hdocument hv hword
    · intro h
      cases h with
      | document hnone => cases hdocument.symm.trans (inputDocument_eq_error_iff.mpr hnone)
      | wordless => rfl
      | refused hdocument' hall | entry hdocument' hall =>
        cases hdocument.symm.trans hdocument'
        exact absurd (hall v hv) (by simp [hword])

/-- The errors of loading a catalog (`NoCatalog`): there is no document, it is no manifest, or reading ends at one of
    its entries. -/
theorem load_eq_error_iff : (Catalog.load t m path).result = .error e ↔ t.NoCatalog m path e := by
  rw [Catalog.load]
  cases hdocument : t.inputDocument m path with
  | ok j => exact ofManifest_eq_error_iff hdocument
  | error f =>
    constructor
    · rintro ⟨⟩
      exact .document (inputDocument_eq_error_iff.mp hdocument)
    · intro h
      cases h with
      | document hnone =>
        cases hdocument.symm.trans (inputDocument_eq_error_iff.mpr hnone)
        rfl
      | wordless hdocument' | refused hdocument' | entry hdocument' => cases hdocument.symm.trans hdocument'

end Tree

/-! ## Several files -/

namespace CommandLine

/-- The first trouble with the files of a request.  To play, the settings are needed first, then the pictures, and then
    the script, the comments of which depend on the settings.  To compile, it has to be known where the compiled form
    goes; then the script is needed, and then its compiled form is written, beginning with its name. -/
inductive Request.Trouble (m : Machine) (t : Tree) : Request → InputError → Prop where
  | settings {script path : Path} {pictures : Option Path} {e : InputError} :
      t.NoSettings m path e → Trouble m t (.play script pictures (some path)) e
  | pictures {script path : Path} {config : Option Path} {s : Settings} {e : InputError} :
      (settingsFrom m t config).result = .ok s → t.NoCatalog m path e → Trouble m t (.play script (some path) config) e
  | scene {script : Path} {pictures config : Option Path} {s : Settings} {c : Option Catalog} {e : InputError} :
      (settingsFrom m t config).result = .ok s → (catalogFrom m t pictures).result = .ok c →
      t.NoScript s.commentMark script e → Trouble m t (.play script pictures config) e
  | name {script : Path} : script.name = [] → Trouble m t (.compile script none) (.noName script)
  | source {script out : Path} {output : Option Path} {e : InputError} :
      Tree.compiledPath script output = .ok out → t.NoScript defaultMark script e →
      Trouble m t (.compile script output) e
  | target {script out : Path} {output : Option Path} {s : Script} {f : FileError} :
      Tree.compiledPath script output = .ok out → (t.script defaultMark script).result = .ok s →
      t.openEmpty out = .error f → Trouble m t (.compile script output) (.file f)
  | half {script out : Path} {output : Option Path} {s : Script} {opened : Place × Tree} {refusal : Refusal} :
      Tree.compiledPath script output = .ok out → (t.script defaultMark script).result = .ok s →
      t.openEmpty out = .ok opened → Json.textRefusal? script.stem = some refusal →
      Trouble m t (.compile script output) (.file (.halfInText refusal))

variable {m : Machine} {t : Tree} {script : Path} {output pictures config : Option Path} {e : InputError}

/-- Settings are read only if a file of them is named. -/
theorem settingsFrom_eq_error_iff :
    (settingsFrom m t config).result = .error e ↔ ∃ path, config = some path ∧ t.NoSettings m path e := by
  cases config with
  | none => simp [settingsFrom]
  | some path => simp [settingsFrom, Tree.settings_eq_error_iff]

theorem catalogFrom_eq_error_iff :
    (catalogFrom m t pictures).result = .error e ↔ ∃ path, pictures = some path ∧ t.NoCatalog m path e := by
  cases pictures with
  | none => simp [catalogFrom]
  | some path =>
    simp only [catalogFrom, ← Tree.load_eq_error_iff, Option.some.injEq, exists_eq_left']
    cases (Catalog.load t m path).result <;> simp [Except.map]

/-- All is ready to be played unless there is trouble (`Trouble`): with the settings, else with the pictures, else with
    the script. -/
theorem prepare_eq_error_iff :
    (prepare m t script pictures config).result = .error e ↔ Request.Trouble m t (.play script pictures config) e := by
  constructor
  · intro h
    rw [prepare] at h
    cases hs : (settingsFrom m t config).result with
    -- the settings come first, whatever is wrong with the rest
    | error f =>
      simp only [hs] at h
      cases h
      obtain ⟨path, rfl, hpath⟩ := settingsFrom_eq_error_iff.mp hs
      exact .settings hpath
    | ok s =>
      simp only [hs] at h
      cases hc : (catalogFrom m t pictures).result with
      | error f =>
        simp only [hc] at h
        cases h
        obtain ⟨path, rfl, hpath⟩ := catalogFrom_eq_error_iff.mp hc
        exact .pictures hs hpath
      | ok c =>
        simp only [hc] at h
        cases hscript : (t.script s.commentMark script).result with
        | error f =>
          rw [hscript] at h
          cases h
          exact .scene hs hc (Tree.script_eq_error_iff.mp hscript)
        | ok scene =>
          rw [hscript] at h
          cases h
  · intro h
    cases h with
    -- conversely each kind of trouble comes with what has gone well before it
    | settings hpath => simp only [prepare, settingsFrom_eq_error_iff.mpr ⟨_, rfl, hpath⟩]
    | pictures hs hpath => simp only [prepare, hs, catalogFrom_eq_error_iff.mpr ⟨_, rfl, hpath⟩]
    | scene hs hc hscript =>
      simp only [prepare, hs, hc, Tree.script_eq_error_iff.mpr hscript]
      rfl

/-- The compiled form has no path only if none is given and the script has no name. -/
theorem compiledPath_eq_error_iff :
    Tree.compiledPath script output = .error e ↔ output = none ∧ script.name = [] ∧ e = .noName script := by
  cases output with
  | some out => simp [Tree.compiledPath]
  | none =>
    by_cases hname : script.name = []
    · simp [Tree.compiledPath, Path.withEnding, hname, eq_comm]
    · simp [Tree.compiledPath, Path.withEnding, hname]

/-- Where the file cannot be opened, nothing is written. -/
theorem writeText_of_closed {out : Path} {f : FileError} (hopen : t.openEmpty out = .error f) (cs : List Char) :
    (t.writeText out cs).mapError InputError.file = .error (.file f) := by
  rw [Tree.writeText, hopen]
  rfl

theorem writeText_of_opened {out : Path} {opened : Place × Tree} (hopen : t.openEmpty out = .ok opened)
    (cs : List Char) :
    (t.writeText out cs).mapError InputError.file = .ok (opened.2.put opened.1 (Utf8.encode cs)) := by
  rw [Tree.writeText, hopen]
  rfl

/-- A script is compiled unless there is trouble (`Trouble`): with the path, else with the script, else with writing. -/
theorem compile_eq_error_iff :
    (t.compile script output).outcome = .error e ↔ Request.Trouble m t (.compile script output) e := by
  constructor
  · intro h
    rw [Tree.compile] at h
    cases hout : Tree.compiledPath script output with
    | error f =>
      simp only [hout] at h
      cases h
      obtain ⟨rfl, hname, rfl⟩ := compiledPath_eq_error_iff.mp hout
      exact .name hname
    | ok out =>
      simp only [hout] at h
      cases hscript : (t.script defaultMark script).result with
      | error f =>
        simp only [hscript] at h
        cases h
        exact .source hout (Tree.script_eq_error_iff.mp hscript)
      | ok s =>
        simp only [hscript] at h
        -- the file is opened before the name is looked at
        cases hopen : t.openEmpty out with
        | error f =>
          simp only [Tree.breakCompiled, Tree.saveCompiled, writeText_of_closed hopen] at h
          split at h <;> cases h <;> exact .target hout hscript hopen
        | ok opened =>
          simp only [Tree.breakCompiled, Tree.saveCompiled, writeText_of_opened hopen] at h
          split at h
          · rename_i refusal hrefusal
            cases h
            exact .half hout hscript hopen hrefusal
          · cases h
  · intro h
    cases h with
    | name hname => simp only [Tree.compile, compiledPath_eq_error_iff.mpr ⟨rfl, hname, rfl⟩]
    | source hout hscript => simp only [Tree.compile, hout, Tree.script_eq_error_iff.mpr hscript]
    | target hout hscript hopen =>
      simp only [Tree.compile, hout, hscript, Tree.breakCompiled, Tree.saveCompiled, writeText_of_closed hopen]
      split <;> rfl
    | half hout hscript hopen hrefusal =>
      simp only [Tree.compile, hout, hscript, hrefusal, Tree.breakCompiled, writeText_of_opened hopen]

end CommandLine

/-! ## Unforeseen troubles -/

/-- A trouble that the program does not report. -/
inductive InputError.Unforeseen : InputError → Prop where
  | null : Unforeseen (.file .nullInName)
  | halfInName (refusal : Refusal) : Unforeseen (.file (.halfInName refusal))
  | halfInText (refusal : Refusal) : Unforeseen (.file (.halfInText refusal))
  | digits (count : Nat) : Unforeseen (.document (.tooManyDigits count))
  | levels (nest : Json.Nest) : Unforeseen (.document (.tooDeep nest))
  | wordless : Unforeseen .wordless
  | name (path : Path) : Unforeseen (.noName path)

/-- The errors that are not reported are just these. -/
theorem InputError.isReported_eq_false_iff {e : InputError} : e.isReported = false ↔ e.Unforeseen := by
  constructor
  · intro h
    cases e with
    | file f =>
      cases f with
      | nullInName => exact .null
      | halfInName refusal => exact .halfInName refusal
      | halfInText refusal => exact .halfInText refusal
      -- these are reported
      | missing | isFolder | noFolder | tooLong | encoding => cases h
    | document f =>
      cases f with
      | tooManyDigits count => exact .digits count
      | tooDeep nest => exact .levels nest
      | problem => cases h
    | wordless => exact .wordless
    | noName path => exact .name path
    | script | compiled | settings | manifest => cases h
  · rintro (_ | _ | _ | _ | _ | _ | _) <;> rfl

theorem InputError.isReported_iff {e : InputError} : e.isReported = true ↔ ¬ e.Unforeseen := by
  rw [← isReported_eq_false_iff, Bool.not_eq_false]

/-- A null character stands in one of the names of the path. -/
def Path.HasNull (path : Path) : Prop := ∃ name ∈ path.names, Point.char (Char.ofNat 0) ∈ name

/-- A half of a character that stands for no byte is in the path. -/
def Path.HasLoneHalf (path : Path) : Prop := ∃ h, Point.half h ∈ path.written ∧ isByteHalf h = false

/-- No file can have this name. -/
def Path.NamesNoFile (path : Path) : Prop := path.HasNull ∨ path.HasLoneHalf

namespace Tree

variable {t : Tree} {path : Path} {f : FileError}

/-- Trouble with finding a file on the way is always reported. -/
theorem follow_foreseen {p : Place} {names : List Wide} (h : t.follow path p names = .error f) :
    ¬ (InputError.file f).Unforeseen := by
  induction names generalizing p with
  | nil => cases h
  | cons name names ih =>
    rw [follow] at h
    split at h
    · split at h
      · exact ih h
      · cases h
        nofun
    · split at h <;> cases h <;> nofun

/-- A path that no file can have (`NamesNoFile`) leads nowhere, which is not reported; and there is no other trouble of
    this sort with a path. -/
theorem locate_unforeseen_iff :
    (∃ f, t.locate path = .error f ∧ (InputError.file f).Unforeseen) ↔ path.NamesNoFile := by
  have hhalf : (refusal? isByteHalf path.written).isSome ↔ path.HasLoneHalf := refusal?_isSome_iff
  have hnull : path.names.any (·.contains (.char (Char.ofNat 0))) = true ↔ path.HasNull := by simp [Path.HasNull]
  rw [locate]
  -- the written path is looked at first, and only then the names in it
  cases hrefusal : refusal? isByteHalf path.written with
  | some refusal =>
    rw [hrefusal] at hhalf
    exact ⟨fun _ => .inr (hhalf.mp rfl), fun _ => ⟨_, rfl, .halfInName refusal⟩⟩
  | none =>
    rw [hrefusal] at hhalf
    have hwhole : ¬ path.HasLoneHalf := fun h => by cases hhalf.mpr h
    simp only
    split
    · rename_i hany
      exact ⟨fun _ => .inl (hnull.mp hany), fun _ => ⟨_, rfl, .null⟩⟩
    · rename_i hany
      refine ⟨fun ⟨f, hf, hunforeseen⟩ => ?_, fun h => (h.elim (mt hnull.mpr hany) hwhole).elim⟩
      split at hf
      · -- following the path finds nothing that was not foreseen
        exact absurd hunforeseen (follow_foreseen hf)
      · cases hf
        cases hunforeseen

theorem noText_unforeseen_iff : (∃ f, t.NoText path f ∧ (InputError.file f).Unforeseen) ↔ path.NamesNoFile := by
  rw [← locate_unforeseen_iff (t := t)]
  constructor
  · rintro ⟨f, hf, hunforeseen⟩
    cases hf with
    -- bytes that are no text are foreseen
    | undecoded => cases hunforeseen
    | unread hbytes =>
      rw [readBytes] at hbytes
      split at hbytes
      · rename_i hlocate
        cases hbytes
        exact ⟨f, hlocate, hunforeseen⟩
      · rename_i p _
        split at hbytes
        · -- so is a folder in the place of a file
          cases hbytes
          cases hunforeseen
        · cases hcontent : t.content? p <;> rw [hcontent] at hbytes <;> cases hbytes
          cases hunforeseen
  · rintro ⟨f, hlocate, hunforeseen⟩
    exact ⟨f, .unread (by rw [readBytes, hlocate]), hunforeseen⟩

/-- The same for reading a script (`NoScript`): under a name that a file can have, a script is read or the program
    reports why it is not. -/
theorem noScript_unforeseen_iff {mark : String} :
    (∃ e, t.NoScript mark path e ∧ e.Unforeseen) ↔ path.NamesNoFile := by
  rw [← noText_unforeseen_iff (t := t)]
  constructor
  · rintro ⟨e, he, hunforeseen⟩
    cases he with
    | text hf => exact ⟨_, hf, hunforeseen⟩
    | refused => cases hunforeseen
  · rintro ⟨f, hf, hunforeseen⟩
    exact ⟨_, .text hf, hunforeseen⟩

end Tree

end ChatScene

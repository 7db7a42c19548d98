/-
  Checking scripts, each by itself.

  1. **One script** — a script gets one report (`CommandLine.reportOn`): on the standard output when it is in order, and
     on the error output when it is not (`CommandLine.Objectionable`).  There are two exceptions
     (`CommandLine.StopsChecking`).  No file can have the name, or the report that all is in order holds the name and
     the standard output refuses it.  What is left after one script is said by `CommandLine.checkOne_cases`.

  2. **One after the other** — checking goes on after a script with a report (`CommandLine.checkAll_append`), and ends
     with one of the exceptions (`CommandLine.checkAll_stops`).

  3. **All scripts** (`CommandLine.each_script_reported`) — if there is no such script, each is checked as if it were
     alone, there is one report on each in the order of the arguments, and the status is zero just when all are in
     order.  Otherwise this holds up to the first such script, which ends the run.

  4. **Scripts that end the run** — both exceptions can happen, and nothing is written about the scripts after them
     (`CommandLine.checking_stops_early`).
-/
import Mathlib.Data.List.Basic
import ChatScene.Proofs.Troubles

namespace ChatScene.CommandLine

open ChatScene.Text

variable {m : Machine} {t : Tree} {path : Path} {paths : List Path}

/-! ## One script -/

/-- `reportOn t path` — the report on a script: how much it holds, or what is wrong with it. -/
def reportOn (t : Tree) (path : Path) : Piece :=
  match (t.script defaultMark path).result with
  | .ok s => .line (ofString "OK   " ++ path.written ++
      ofString s!" ({s.commands.length} commands, {s.labels.length} labels)")
  | .error e => .err s!"FAIL {path.text}: {e.message}\n"

/-- A report, and no log line. -/
def isReport : Piece → Bool
  | .log _ => false
  | _ => true

/-- `Objectionable t path` — the script is not in order. -/
def Objectionable (t : Tree) (path : Path) : Prop := ∃ e, t.NoScript defaultMark path e

/-- `StopsChecking m t path` — there is no report on the script: no file can have its name, or it is in order and its
    name cannot be written. -/
def StopsChecking (m : Machine) (t : Tree) (path : Path) : Prop :=
  path.NamesNoFile ∨ ¬ Objectionable t path ∧ ∃ h, Point.half h ∈ path.written ∧ m.takes h = false

@[simp] theorem isReport_log (line : LogLine) : isReport (.log line) = false := rfl

@[simp] theorem isReport_reportOn (t : Tree) (path : Path) : isReport (reportOn t path) = true := by
  rw [reportOn]
  split <;> rfl

/-- A script whose name no file can have is not in order (`Objectionable`), either. -/
theorem objectionable_of_namesNoFile (h : path.NamesNoFile) : Objectionable t path := by
  obtain ⟨e, he, -⟩ := Tree.noScript_unforeseen_iff.mpr h
  exact ⟨e, he⟩

/-- All halves of characters in the report on a script that is in order (`approval`) are those of its name: the rest of
    the report has none. -/
theorem approval_refusal?_isSome (s : Script) :
    ((approval path s).refusal? m.takes).isSome ↔ ∃ h, Point.half h ∈ path.written ∧ m.takes h = false := by
  rw [approval, Piece.line, Piece.refusal?, refusal?_isSome_iff]
  simp [ofString]

/-- What checking one script leaves.  Either it stops checking; or there is its report after what has been logged while
    it was read, and it counts as a failure just when it is not in order (`Objectionable`). -/
theorem checkOne_cases (m : Machine) (t : Tree) (path : Path) :
    StopsChecking m t path ∧ (checkOne m t path).escape.isSome ∨
      ¬ StopsChecking m t path ∧ (checkOne m t path).escape = none ∧
        (checkOne m t path).written = (t.script defaultMark path).logs.map .log ++ [reportOn t path] ∧
        ((checkOne m t path).failures = 0 ↔ ¬ Objectionable t path) := by
  cases hread : (t.script defaultMark path).result with
  | ok s =>
    -- in order: the only thing that can go wrong is writing the report
    have hfine : ¬ Objectionable t path := by
      rintro ⟨e, he⟩
      cases hread.symm.trans (Tree.script_eq_error_iff.mpr he)
    have hstops : StopsChecking m t path ↔ ((approval path s).refusal? m.takes).isSome := by
      rw [approval_refusal?_isSome, StopsChecking, or_iff_right (mt objectionable_of_namesNoFile hfine)]
      exact and_iff_right hfine
    cases hrefusal : (approval path s).refusal? m.takes with
    | some refusal =>
      rw [hrefusal] at hstops
      exact .inl ⟨hstops.mpr rfl, by simp [checkOne, hread, refused?, hrefusal]⟩
    | none =>
      rw [hrefusal] at hstops
      have hreceived : (approval path s).received m.takes = approval path s := by
        have hnone : Text.refusal? m.takes _ = none := hrefusal
        rw [approval, Piece.line, Piece.received, hnone]
        rfl
      have hreport : reportOn t path = approval path s := by
        simp only [reportOn, hread]
        rfl
      refine .inr ⟨fun h => (by cases hstops.mp h), ?_⟩
      simp [checkOne, hread, refused?, hrefusal, hreceived, hreport, hfine]
  | error e =>
    -- not in order: the report goes to the error output, which refuses nothing
    have he : t.NoScript defaultMark path e := Tree.script_eq_error_iff.mp hread
    have hobject : Objectionable t path := ⟨e, he⟩
    have hstops : StopsChecking m t path ↔ e.Unforeseen := by
      rw [StopsChecking, or_iff_left (fun h => h.1 hobject), ← Tree.noScript_unforeseen_iff]
      refine ⟨fun ⟨e', he', hunforeseen⟩ => ?_, fun hunforeseen => ⟨e, he, hunforeseen⟩⟩
      cases hread.symm.trans (Tree.script_eq_error_iff.mpr he')
      exact hunforeseen
    cases hreported : e.isReported with
    | false =>
      refine .inl ⟨hstops.mpr (InputError.isReported_eq_false_iff.mp hreported), ?_⟩
      simp [checkOne, hread, hreported]
    | true =>
      refine .inr ⟨mt hstops.mp (InputError.isReported_iff.mp hreported), ?_⟩
      simp [checkOne, hread, hreported, reportOn, objection, hobject]

/-! ## All scripts -/

/-- Checking goes on to the scripts after those that have a report (not `StopsChecking`), and adds up what is written
    and what failed. -/
theorem checkAll_append {before : List Path} (h : ∀ path ∈ before, ¬ StopsChecking m t path) (after : List Path) :
    (checkAll m t (before ++ after)).written =
        (before.flatMap fun path => (checkOne m t path).written) ++ (checkAll m t after).written ∧
      ((checkAll m t (before ++ after)).failures = 0 ↔
        (∀ path ∈ before, ¬ Objectionable t path) ∧ (checkAll m t after).failures = 0) ∧
      (checkAll m t (before ++ after)).escape = (checkAll m t after).escape := by
  induction before with
  | nil => simp
  | cons path before ih =>
    obtain ⟨hpath, hbefore⟩ := List.forall_mem_cons.mp h
    obtain ⟨hwritten, hfailures, hescape⟩ := ih hbefore
    rcases checkOne_cases m t path with ⟨hstops, -⟩ | ⟨-, hgoes, -, hcount⟩
    · exact absurd hstops hpath
    · simp [checkAll, hgoes, hwritten, hfailures, hescape, hcount, and_assoc]

/-- Nothing is checked after a script that stops checking (`StopsChecking`). -/
theorem checkAll_stops (h : StopsChecking m t path) (after : List Path) :
    checkAll m t (path :: after) = checkOne m t path := by
  rcases checkOne_cases m t path with ⟨-, hescape⟩ | ⟨hgoes, -⟩
  · rw [checkAll, if_pos hescape]
  · exact absurd h hgoes

/-- All that is written is what is written about each script. -/
theorem runCheck_written (h : ∀ path ∈ paths, ¬ StopsChecking m t path) :
    (runCheck m t paths).written = paths.flatMap fun path => (checkOne m t path).written := by
  have hall := (checkAll_append h []).1
  rwa [List.append_nil, checkAll, List.append_nil] at hall

/-- What is written about a script that is checked alone. -/
theorem runCheck_alone (m : Machine) (t : Tree) (path : Path) :
    (runCheck m t [path]).written = (checkOne m t path).written := by
  by_cases hstops : StopsChecking m t path
  · rw [runCheck, checkAll_stops hstops]
  · rw [runCheck_written (by simpa using hstops), List.flatMap_singleton]

/-- The status: zero when all are in order, and one when some are not. -/
theorem runCheck_ending (h : ∀ path ∈ paths, ¬ StopsChecking m t path) :
    (runCheck m t paths).ending = .exit 0 ∧ (∀ path ∈ paths, ¬ Objectionable t path) ∨
      (runCheck m t paths).ending = .exit 1 ∧ ∃ path ∈ paths, Objectionable t path := by
  obtain ⟨-, hfailures, hescape⟩ := checkAll_append h []
  rw [List.append_nil] at hfailures hescape
  have hnone : (checkAll m t []).escape = none := rfl
  have hzero : (checkAll m t []).failures = 0 := rfl
  rw [runCheck, hescape, hnone]
  by_cases hall : ∀ path ∈ paths, ¬ Objectionable t path
  · exact .inl ⟨by simp [hfailures.mpr ⟨hall, hzero⟩], hall⟩
  · refine .inr ⟨by simp [mt (fun h => (hfailures.mp h).1) hall], ?_⟩
    simpa only [not_forall, not_not, exists_prop] using hall

/-- What is written about several scripts is, on the error output, what is written about one after the other. -/
theorem join_map_flatMap (f : Piece → String) (g : Path → List Piece) (paths : List Path) :
    String.join ((paths.flatMap g).map f) = String.join (paths.map fun path => String.join ((g path).map f)) := by
  induction paths with
  | nil => rfl
  | cons path paths ih =>
    rw [List.flatMap_cons, List.map_append, String.join_append, ih, List.map_cons, String.join_cons]

/-- Scripts are checked, whatever the files are and whatever the machine.

    - If there is a report on every script (none is one that `StopsChecking`), checking does not fail; the status is
      one just when some script is not in order, and zero otherwise.  All that is written besides log lines is one
      report for each script, in order.  What is written about a script, and what that comes to on either output, is
      what is written when it is checked alone.
    - The first script without a report ends the run with a failure.  What is written is what is written about the
      scripts up to this one when each is checked alone, and nothing about those after it.
    - All files stay as they are. -/
theorem each_script_reported (m : Machine) (t : Tree) (paths : List Path) :
    ((∀ path ∈ paths, ¬ StopsChecking m t path) →
      ((runCheck m t paths).ending = .exit 0 ∨ (runCheck m t paths).ending = .exit 1) ∧
      ((runCheck m t paths).ending = .exit 1 ↔ ∃ path ∈ paths, ∃ e, t.NoScript defaultMark path e) ∧
      (runCheck m t paths).written.filter isReport = paths.map (reportOn t) ∧
      (runCheck m t paths).written = (paths.flatMap fun path => (runCheck m t [path]).written) ∧
      (runCheck m t paths).out = (paths.flatMap fun path => (runCheck m t [path]).out) ∧
      (runCheck m t paths).err = String.join (paths.map fun path => (runCheck m t [path]).err)) ∧
    (∀ before path after, paths = before ++ path :: after → (∀ other ∈ before, ¬ StopsChecking m t other) →
      StopsChecking m t path →
      (∃ failure, (runCheck m t paths).ending = .escape failure) ∧
      (runCheck m t paths).written = (before ++ [path]).flatMap fun path => (runCheck m t [path]).written) ∧
    (runCheck m t paths).tree = t := by
  refine ⟨fun h => ?_, ?_, rfl⟩
  · -- no script stops checking
    have hending := runCheck_ending h
    have halone : (runCheck m t paths).written = paths.flatMap fun path => (runCheck m t [path]).written := by
      rw [runCheck_written h]
      exact List.flatMap_congr fun path _ => (runCheck_alone m t path).symm
    refine ⟨hending.imp And.left And.left, ?_, ?_, halone, ?_, ?_⟩
    · rcases hending with ⟨hzero, hnone⟩ | ⟨hone, hsome⟩
      · rw [hzero]
        exact ⟨nofun, fun ⟨path, hpath, hobject⟩ => absurd hobject (hnone path hpath)⟩
      · exact ⟨fun _ => hsome, fun _ => hone⟩
    · rw [runCheck_written h, List.filter_flatMap, ← List.flatMap_singleton' (paths.map _), List.flatMap_map]
      refine List.flatMap_congr fun path hpath => ?_
      rcases checkOne_cases m t path with ⟨hstops, -⟩ | ⟨-, -, hwritten, -⟩
      · exact absurd hstops (h path hpath)
      · rw [hwritten, List.filter_append]
        simp [List.filter_map, Function.comp_def]
    · rw [Outcome.out, halone, List.flatMap_assoc]
      rfl
    · rw [Outcome.err, halone, join_map_flatMap]
      rfl
  · rintro before path after rfl hbefore hstops
    obtain ⟨hwritten, -, hescape⟩ := checkAll_append hbefore (path :: after)
    rw [checkAll_stops hstops] at hwritten hescape
    constructor
    · rcases checkOne_cases m t path with ⟨-, hsome⟩ | ⟨hgoes, -⟩
      · obtain ⟨failure, hfailure⟩ := Option.isSome_iff_exists.mp hsome
        exact ⟨failure, by simp [runCheck, hescape, hfailure]⟩
      · exact absurd hstops hgoes
    · rw [List.flatMap_append, List.flatMap_singleton]
      simp only [runCheck_alone]
      exact hwritten

/-- A folder and four files: a script with a label, one with a line that is refused, one without commands, and bytes
    that are no text. -/
def deskTree : Tree :=
  let text (s : String) : Text.Utf8.Bytes := Text.Utf8.encode s.toList
  (((({} : Tree).addFolder ["old"]).addFile ["tea.chat"] (text "@label, a\n@text, Tea?")).addFile ["draft.chat"]
    (text "@text, Hi\n\n@wait, 9")).addFile ["blank.chat"] (text "# later") |>.addFile ["photo.chat"] [0xff, 0xd8]

/-- The files, the folder, what is missing, and what would have to be in a file. -/
def deskPaths : List Path :=
  ["photo.chat", "tea.chat", "old", "draft.chat", "lost.chat", "blank.chat", "tea.chat/x"].map Path.ofString

/-- Under a name without halves of characters and without a null character there is a report, on every machine and in
    every tree: it does not stop checking (`StopsChecking`). -/
theorem not_stopsChecking (hnull : ¬ path.HasNull) (hwhole : refusal? (fun _ => false) path.written = none) :
    ¬ StopsChecking m t path := by
  have hnone : ∀ h, Point.half h ∉ path.written := by
    intro h hmem
    have hsome : (refusal? (fun _ => false) path.written).isSome := refusal?_isSome_iff.mpr ⟨h, hmem, rfl⟩
    rw [hwhole] at hsome
    cases hsome
  rintro ((hnull' | ⟨h, hmem, -⟩) | ⟨-, h, hmem, -⟩)
  · exact hnull hnull'
  · exact hnone h hmem
  · exact hnone h hmem

theorem each_script_reported_desk :
    (∀ path ∈ deskPaths, ¬ StopsChecking {} deskTree path) ∧ (runCheck {} deskTree deskPaths).ending = .exit 1 ∧
      ((runCheck {} deskTree deskPaths).written.filter isReport).map
          (fun report => (spelled report.outText, report.errText .info)) =
        [("", "FAIL photo.chat: 'utf-8' codec can't decode byte 0xff in position 0: invalid start byte\n"),
         ("OK   tea.chat (2 commands, 1 labels)\n", ""),
         ("", "FAIL old: [Errno 21] Is a directory: 'old'\n"),
         ("", "FAIL draft.chat: draft.chat: Wait must be a number greater than 0 and at most 5.\n"
           ++ "ex: @wait, <seconds>\nInvalid command at line 2 of type WAIT with args: @wait, 9\n"),
         ("", "FAIL lost.chat: [Errno 2] No such file or directory: 'lost.chat'\n"),
         ("OK   blank.chat (0 commands, 0 labels)\n", ""),
         ("", "FAIL tea.chat/x: [Errno 20] Not a directory: 'tea.chat/x'\n")] ∧
      (runCheck {} deskTree deskPaths).out = deskPaths.flatMap fun path => (runCheck {} deskTree [path]).out := by
  have hnames : ∀ path ∈ deskPaths, ¬ path.HasNull ∧ refusal? (fun _ => false) path.written = none := by
    unfold Path.HasNull
    decide +kernel
  have hgoes : ∀ path ∈ deskPaths, ¬ StopsChecking {} deskTree path :=
    fun path hpath => not_stopsChecking (hnames path hpath).1 (hnames path hpath).2
  obtain ⟨-, hstatus, hreports, -, hout, -⟩ := (each_script_reported {} deskTree deskPaths).1 hgoes
  have hlost : deskTree.NoScript defaultMark (.ofString "lost.chat") (.file (.missing (.ofString "lost.chat"))) :=
    .text (.unread (by decide +kernel))
  refine ⟨hgoes, hstatus.mpr ⟨_, by decide +kernel, _, hlost⟩, ?_, hout⟩
  rw [hreports]
  decide +kernel

/-! ## Scripts that end the run -/

/-- The name of a file that is no text: its first byte begins no character. -/
def byteName : Path := ⟨0, [.half 0x4ff :: ofString ".chat"]⟩

/-- A name that no file can have. -/
def loneName : Path := ⟨0, [.half 0 :: ofString ".chat"]⟩

/-- A script that is in order, under the name that is no text. -/
def byteTree : Tree := ({} : Tree).addFile byteName.names (Utf8.encode "@text, Tea?".toList)

/-- There are names without a null character on which there is no report: no file can have the one, and on a strict
    machine the report on a script with the other one is refused.  Nothing is written about the scripts after them. -/
theorem checking_stops_early :
    ¬ loneName.HasNull ∧ ¬ byteName.HasNull ∧
    (∀ m t others, (runCheck m t (loneName :: others)).written = [] ∧
      (runCheck m t (loneName :: others)).ending = .escape (.input (.file (.halfInName ⟨0, 1, 0⟩)))) ∧
    (∀ others, (runCheck {} byteTree (byteName :: others)).out = [] ∧
      (runCheck {} byteTree (byteName :: others)).err = "" ∧
      (runCheck {} byteTree (byteName :: others)).ending = .escape (.unwritable
        "'utf-8' codec can't encode character '\\udcff' in position 5: surrogates not allowed")) ∧
    ∀ others, ∃ report, (runCheck { takes := isByteHalf } byteTree (byteName :: others)).written.head? =
      some (.out report) := by
  have hnull : ¬ loneName.HasNull ∧ ¬ byteName.HasNull := by
    unfold Path.HasNull
    decide +kernel
  refine ⟨hnull.1, hnull.2, fun m t others => ⟨rfl, rfl⟩, fun others => ⟨rfl, rfl, rfl⟩, fun others => ⟨_, rfl⟩⟩

end ChatScene.CommandLine

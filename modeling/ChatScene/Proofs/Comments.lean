/-
  Comments: where a line that begins with the comment mark can be put without any effect.

  A line is trimmed before it is compared with the comment mark, but the mark is taken as it is.  So it is not enough
  that a line begins with the mark: blanks at the ends of the mark are lost with those of the line.

  1. **Lines that are skipped** (`not_significant_mark_iff`) — a line that begins with the mark is skipped when the mark
     has no blank in front, and none at its end either unless something follows that is no blank; or when there is
     nothing but blanks.

  2. **Lines that do not matter** — a line that is skipped can be put into any text at any place (`insertLine`).  The
     text gives the same commands and labels, or the same refusal; only the numbers of the lines below change
     (`Line.past`).  This is `Script.parse_insertLine`, and a line that is not skipped never has this property
     (`Script.parse_insertLine_ne`).

  3. **Sessions** — a session reads texts with the comment mark of its settings, so it ignores just the lines that are
     skipped (`ignores_iff`).

  4. **Main result** (`comment_lines_ignored_iff`) — which comment lines a session ignores, and that it ignores all of
     them just when the mark has no blank at either end.
-/
import ChatScene.Proofs.Joining
import ChatScene.Session.Stage

namespace ChatScene

open ChatScene.Text

/-! ## Lines that are skipped -/

section Skipped

variable {mark body : List Char}

/-- Trimming does not reach beyond a mark without a blank in front. -/
theorem trim_mark_append (hmark : mark ≠ []) (hfront : trimFront mark = mark) :
    trim (mark ++ body) = trimBack (mark ++ body) := by
  obtain ⟨c, rest, rfl⟩ := List.exists_cons_of_ne_nil hmark
  rw [trim, List.cons_append, trimFront_cons (isBlank_of_trimFront hfront)]

/-- What is left of a trimmed line begins with the `mark` that the line begins with: not if the mark loses a blank in
    front, and not if it loses one at its end. -/
theorem mark_prefix_trim_iff (hmark : mark ≠ []) :
    mark <+: trim (mark ++ body) ↔ trimFront mark = mark ∧ (trimBack mark = mark ∨ isBlankText body = false) := by
  constructor
  · intro hbegins
    -- if the mark began with a blank, the trimmed line would begin with its first character that is none
    have hfront : trimFront mark = mark := by
      obtain ⟨c, rest, rfl⟩ := List.exists_cons_of_ne_nil hmark
      have hleft := trimBack_prefix (trimFront (c :: rest ++ body))
      obtain ⟨more, hmore⟩ := hbegins.trans hleft
      exact trimFront_cons (isBlank_of_trimFront hmore.symm)
    refine ⟨hfront, ?_⟩
    rw [trim_mark_append hmark hfront, trimBack_append] at hbegins
    split at hbegins
    · have hleft := trimBack_prefix mark
      exact .inl (hleft.eq_of_length_le hbegins.length_le)
    · rename_i hbody
      exact .inr (Bool.eq_false_iff.mpr hbody)
  · -- only the back has to be looked at: it is cut off in the body, or at most at the end of the mark
    rintro ⟨hfront, hback⟩
    rw [trim_mark_append hmark hfront, trimBack_append]
    split
    · rename_i hbody
      have hwhole : trimBack mark = mark := hback.resolve_right (by simp [hbody])
      simp only [hwhole, List.prefix_rfl]
    · exact List.prefix_append mark (trimBack body)

/-- A line that begins with the `mark` is skipped: it is blank, or trimming leaves the mark whole. -/
theorem not_significant_mark_iff (hmark : mark ≠ []) :
    ¬ Significant mark (mark ++ body) ↔
      isBlankText (mark ++ body) = true ∨
        trimFront mark = mark ∧ (trimBack mark = mark ∨ isBlankText body = false) := by
  rw [Significant, not_and_not_right, ← trim_eq_nil_iff, ← mark_prefix_trim_iff hmark]
  exact Decidable.or_iff_not_imp_left.symm

/-- Every line that begins with the `mark` is skipped just when the mark has no blank at either end.  A mark with a
    line break begins no line at all. -/
theorem forall_not_significant_mark_iff (hmark : mark ≠ []) :
    (∀ body, '\n' ∉ mark ++ body → ¬ Significant mark (mark ++ body)) ↔ '\n' ∈ mark ∨ trim mark = mark := by
  simp only [not_significant_mark_iff hmark, trim_eq_self_iff]
  constructor
  · intro hall
    refine or_iff_not_imp_left.mpr fun hbreak => ?_
    -- something after the mark shows that there is no blank in front, the mark alone that there is none at its end
    have hfront : trimFront mark = mark := by
      rcases hall ['x'] (by simp [hbreak]) with hblank | ⟨hfront, -⟩
      · simp [isBlankText, isBlank, blankRanges] at hblank
      · exact hfront
    rcases hall [] (by simp [hbreak]) with hblank | ⟨-, hback | hbody⟩
    · obtain ⟨c, rest, rfl⟩ := List.exists_cons_of_ne_nil hmark
      simp [isBlankText, isBlank_of_trimFront hfront] at hblank
    · exact ⟨hfront, hback⟩
    · cases hbody
  · rintro (hbreak | ⟨hfront, hback⟩) body hline
    · exact absurd (List.mem_append_left body hbreak) hline
    · exact .inr ⟨hfront, .inl hback⟩

end Skipped

/-! ## One more line -/

/-- The text with one more line, as line `n`, or at the end if there are not that many. -/
def insertLine (n : Nat) (line : List Char) (text : String) : String :=
  let ls := text.toList.splitOn '\n'
  String.ofList (['\n'].intercalate (ls.take n ++ line :: ls.drop n))

/-- The lines of the text with one more line (`insertLine`).  It has no line break of its own, or there would be two
    more. -/
theorem splitOn_insertLine {line : List Char} (hline : '\n' ∉ line) (n : Nat) (text : String) :
    (insertLine n line text).toList.splitOn '\n' =
      (text.toList.splitOn '\n').take n ++ line :: (text.toList.splitOn '\n').drop n := by
  rw [insertLine, String.toList_ofList]
  refine List.splitOn_intercalate '\n' (fun piece hpiece => ?_) (by simp)
  rcases List.mem_append.mp hpiece with hpiece | hpiece
  · exact not_mem_of_mem_splitOn (List.mem_of_mem_take hpiece)
  · rcases List.mem_cons.mp hpiece with rfl | hpiece
    · exact hline
    · exact not_mem_of_mem_splitOn (List.mem_of_mem_drop hpiece)

/-- The number that line `i` has once there is one more line `n`. -/
def countPast (n i : Nat) : Nat := if i < n then i else i + 1

/-- `line.past n` — the number of a line once there is one more line `n`. -/
def Line.past (n : Nat) (line : Line) : Line := if line.toInt < n then line else line.below 1

/-- Numbers of lines move on in the same way wherever they are told. -/
theorem Line.whole_countPast (n i : Nat) : Line.whole (countPast n i) = (Line.whole i).past n := by
  simp only [countPast, Line.past, Line.toInt, Int.ofNat_lt]
  split <;> rfl

/-- A script whose text has one more line `n`, without a command. -/
def Script.past (n : Nat) (s : Script) : Script :=
  { s with commands := s.commands.map (Command.renumber (Line.past n)) }

/-- A line that is skipped adds nothing to the significant lines (`significantFrom`), but counts. -/
theorem significantFrom_skip {mark line : List Char} (h : ¬ Significant mark line) (n : Nat) (ls : List (List Char)) :
    significantFrom mark n (line :: ls) = significantFrom mark (n + 1) ls := by
  rw [significantFrom, List.zipIdx_cons, List.filter_cons_of_neg (by simpa using h)]
  rfl

/-- The significant lines (`significantLines`) are the same with one more line that is skipped, and those below have
    the next number. -/
theorem significantLines_insertLine {mark : String} {line : List Char} (hline : '\n' ∉ line)
    (h : ¬ Significant mark.toList line) (n : Nat) (text : String) :
    significantLines mark (insertLine n line text) =
      (significantLines mark text).map fun p => (p.1, countPast n p.2) := by
  simp only [significantLines, splitOn_insertLine hline]
  generalize text.toList.splitOn '\n' = ls
  -- both sides in two parts, above and below the new line
  rw [significantFrom_append, significantFrom_skip h, significantFrom_add _ (0 + _ + 1)]
  conv_rhs => rw [← List.take_append_drop n ls, significantFrom_append, significantFrom_add _ (0 + _), List.map_append,
    List.map_map]
  congr 1
  · refine (List.map_id _).symm.trans (List.map_congr_left fun p hp => ?_)
    have hlt := (List.getElem?_eq_some_iff.mp (mem_significantFrom.mp hp).2.1).1
    rw [List.length_take] at hlt
    rw [countPast, if_pos (by omega)]
    rfl
  · refine List.map_congr_left fun p hp => ?_
    have hlt := (List.getElem?_eq_some_iff.mp (mem_significantFrom.mp hp).2.1).1
    rw [List.length_drop] at hlt
    simp only [Function.comp, countPast, List.length_take]
    rw [if_neg (by omega), Nat.add_right_comm]

/-- A line that is skipped can be put in anywhere. -/
theorem Script.parse_insertLine {mark : String} {line : List Char} (hline : '\n' ∉ line)
    (h : ¬ Significant mark.toList line) (n : Nat) (source text : String) :
    Script.parse mark source (insertLine n line text) =
      ((Script.parse mark source text).map (Script.past n)).mapError (ScriptError.renumber (Line.past n)) := by
  rw [Script.parse_eq_match, Script.parse_eq_match, significantLines_insertLine hline h,
    mapM_commandAt_renumber (Line.whole_countPast n)]
  cases (significantLines mark text).mapM commandAt with
  | error e => rfl
  | ok cs =>
    refine congrArg Except.ok ?_
    rw [Script.ofCommands, labelTable_renumber]
    rfl

/-- A line that is not skipped (`Significant`) is noticed: alone in a text it is read as a command or refused, and the
    empty text is neither. -/
theorem Script.parse_insertLine_ne {mark : String} {line : List Char} (hline : '\n' ∉ line)
    (h : Significant mark.toList line) (source : String) :
    Script.parse mark source (insertLine 0 line "") ≠
      ((Script.parse mark source "").map (Script.past 0)).mapError (ScriptError.renumber (Line.past 0)) := by
  have hempty : Script.parse mark source "" = .ok (Script.ofCommands "parsed" []) :=
    Script.parse_eq_ok_iff.mpr ⟨[], rfl, rfl⟩
  have hmem : (line, 0) ∈ significantLines mark (insertLine 0 line "") := by
    refine mem_significantFrom.mpr ⟨Nat.le_refl 0, ?_, h⟩
    rw [splitOn_insertLine hline]
    rfl
  intro heq
  rw [hempty] at heq
  obtain ⟨cs, hcs, hscript⟩ := Script.parse_eq_ok_iff.mp heq
  have hnil : [] = cs := congrArg Script.commands hscript
  subst hnil
  rw [List.forall₂_nil_right_iff.mp (mapM_eq_ok_iff.mp hcs)] at hmem
  exact List.not_mem_nil hmem

/-! ## Setting up -/

namespace Stage

/-- The comment mark in force. -/
def commentMark (w : Stage) : List Char := w.session.settings.commentMark.toList

/-- `w.setupOutcome text source` — what comes of setting up a text: the script that is played from then on, or the
    refusal of a line. -/
def setupOutcome (w : Stage) (text source : String) : Except ScriptError Script :=
  match w.setup text source with
  | (w, .ok _) => .ok w.session.script
  | (_, .error e) => .error e

/-- Setting up (`setupOutcome`) reads the text with the mark of the session, and depends on nothing else that has
    happened. -/
theorem setupOutcome_eq (w : Stage) (text source : String) :
    w.setupOutcome text source = Script.parse w.session.settings.commentMark source text := by
  rw [setupOutcome, setup]
  cases Script.parse w.session.settings.commentMark source text <;> rfl

/-- `w.Ignores line` — a line does not matter: put into any text at any place, it leaves the outcome of setting up as
    it is, except that the lines below it have the next number. -/
def Ignores (w : Stage) (line : List Char) : Prop :=
  ∀ (text source : String) (n : Nat),
    w.setupOutcome (insertLine n line text) source =
      ((w.setupOutcome text source).map (Script.past n)).mapError (ScriptError.renumber (Line.past n))

/-- The lines that do not matter are those that are skipped. -/
theorem ignores_iff {w : Stage} {line : List Char} (hline : '\n' ∉ line) :
    w.Ignores line ↔ ¬ Significant w.commentMark line := by
  constructor
  · intro hignores hsignificant
    refine Script.parse_insertLine_ne hline hsignificant "" ?_
    rw [← setupOutcome_eq, ← setupOutcome_eq]
    exact hignores "" "" 0
  · intro h text source n
    rw [setupOutcome_eq, setupOutcome_eq]
    exact Script.parse_insertLine hline h n source text

/-- Which comment lines do not matter.  A line that begins with the comment mark does not matter (`Ignores`) just when
    trimming (`trim`) leaves the mark whole, or nothing at all of the line; and no such line matters just when the
    mark has no blank at either end, or a line feed, so that there are no such lines. -/
theorem comment_lines_ignored_iff (w : Stage) (hmark : w.session.settings.commentMark ≠ "") :
    (∀ body, '\n' ∉ w.commentMark ++ body →
      (w.Ignores (w.commentMark ++ body) ↔
        isBlankText (w.commentMark ++ body) = true ∨
          trimFront w.commentMark = w.commentMark ∧
            (trimBack w.commentMark = w.commentMark ∨ isBlankText body = false))) ∧
    ((∀ body, '\n' ∉ w.commentMark ++ body → w.Ignores (w.commentMark ++ body)) ↔
      '\n' ∈ w.commentMark ∨ trim w.commentMark = w.commentMark) := by
  have hmark : w.commentMark ≠ [] := fun hnil => hmark (String.toList_eq_nil_iff.mp hnil)
  refine ⟨fun body hline => (ignores_iff hline).trans (not_significant_mark_iff hmark), ?_⟩
  rw [← forall_not_significant_mark_iff hmark]
  exact forall₂_congr fun body hline => ignores_iff hline

/-- A session with other comment marks than the usual one. -/
def marked (mark : String) : Stage := { session := { settings := { commentMark := mark } } }

/-- With a blank at the end of the mark, a comment does not matter, but the mark alone does. -/
theorem comment_lines_ignored_iff_spaced :
    (marked "# ").Ignores "# note".toList ∧ ¬ (marked "# ").Ignores "# ".toList := by
  have hlines := (comment_lines_ignored_iff (marked "# ") (by decide)).1
  exact ⟨(hlines "note".toList (by decide)).mpr (by decide), fun h => absurd ((hlines [] (by decide)).mp h) (by decide)⟩

/-- A mark with a blank in front is accepted, but no comment is: it is read as a command and refused. -/
theorem indented_comment_refused :
    Settings.ofJson (.obj [("comment_prefix", .str " #")]) = .ok (marked " #").session.settings ∧
      (marked " #").setupOutcome "@text, hi" unnamedSource =
        .ok ⟨"parsed", [⟨.whole 0, ["@text", "hi"], .text "hi"⟩], []⟩ ∧
      insertLine 0 " # note".toList "@text, hi" = " # note\n@text, hi" ∧
      (marked " #").setupOutcome " # note\n@text, hi" unnamedSource =
        .error ⟨unnamedSource, ⟨.whole 0, .unknown, ["# note"], .unknownKeyword "# note"⟩⟩ ∧
      ¬ (marked " #").Ignores " # note".toList := by
  refine ⟨rfl, rfl, rfl, rfl, fun h => ?_⟩
  have houtcome := h "@text, hi" unnamedSource 0
  cases houtcome

end Stage

end ChatScene

/-
  The language of scripts: which texts are read as scripts, and what comes of them.

  1. **One line after the other** — reading the lines of a text, like reading the entries of a compiled script, goes on
     up to the first refusal; what that means is said once, for any list and any reader of its entries
     (`mapM_eq_ok_iff`, `mapM_eq_error_iff`).

  2. **One line** — what a line gives depends on its trimmed tokens only (`Command.ofTokens_trimmed`), and carries the
     number of the line, the trimmed tokens and, when it is refused, the kind that its keyword names
     (`Command.ofTokens_eq_ok_iff`, `Command.ofTokens_eq_error`).

  3. **All lines** — a line is `Significant` if it is neither blank nor a comment.  Reading a text is reading its
     significant lines (`readLines_eq_mapM`), so a script has one command for each of them, or the error of the first
     one that is refused.

  4. **Main result** (`Script.parse_reads_significant_lines`) — when a text is read at all, what comes of it, and which
     line is blamed otherwise.  Whatever stands below that line has no influence on the refusal.
-/
import Mathlib.Data.List.Forall2
import ChatScene.Proofs.Trimming
import ChatScene.Script.Basic

namespace ChatScene

open ChatScene.Text

/-! ## Reading up to the first refusal -/

section UpToRefusal

variable {α β ε : Type} {f : α → Except ε β} {xs : List α} {ys : List β} {e : ε}

/-- All entries are read when each of them is, and they give their results in order (`Forall₂`). -/
theorem mapM_eq_ok_iff : xs.mapM f = .ok ys ↔ List.Forall₂ (fun x y => f x = .ok y) xs ys := by
  induction xs generalizing ys with
  | nil => cases ys <;> simp [pure, Except.pure]
  | cons x xs ih =>
    rw [List.mapM_cons]
    cases hx : f x with
    | error e => cases ys <;> simp [bind, Except.bind, hx]
    | ok y =>
      cases hxs : xs.mapM f with
      | error e => cases ys <;> simp [bind, Except.bind, hx, ← ih, hxs]
      | ok rest => cases ys <;> simp [bind, Except.bind, pure, Except.pure, hx, ← ih, hxs]

/-- The error is that of the first entry that is refused: all before it are read. -/
theorem mapM_eq_error_iff :
    xs.mapM f = .error e ↔
      ∃ before x after, xs = before ++ x :: after ∧ f x = .error e ∧ ∀ b ∈ before, ∃ y, f b = .ok y := by
  -- the first failure decides: it is at the front, or everything before it has been read
  induction xs with
  | nil => simp [pure, Except.pure]
  | cons x xs ih =>
    rw [List.mapM_cons]
    constructor
    · intro h
      cases hx : f x with
      | error e' =>
        rw [hx] at h
        cases h
        exact ⟨[], x, xs, rfl, hx, by simp⟩
      | ok y =>
        rw [hx] at h
        cases hxs : xs.mapM f with
        | ok rest => rw [hxs] at h; cases h
        | error e' =>
          rw [hxs] at h
          cases h
          obtain ⟨before, z, after, rfl, hz, hbefore⟩ := ih.mp hxs
          refine ⟨x :: before, z, after, rfl, hz, fun b hb => ?_⟩
          rcases List.mem_cons.mp hb with rfl | hb
          · exact ⟨y, hx⟩
          · exact hbefore b hb
    · rintro ⟨before, z, after, hsplit, hz, hbefore⟩
      cases before with
      | nil =>
        obtain ⟨rfl, rfl⟩ := List.cons.inj hsplit
        rw [hz]
        rfl
      | cons b before =>
        obtain ⟨rfl, rfl⟩ := List.cons.inj hsplit
        obtain ⟨y, hy⟩ := hbefore x List.mem_cons_self
        have hxs := ih.mpr ⟨before, z, after, rfl, hz, fun b hb => hbefore b (List.mem_cons_of_mem x hb)⟩
        rw [hy, hxs]
        rfl

theorem mapM_isOk_iff : (∃ ys, xs.mapM f = .ok ys) ↔ ∀ x ∈ xs, ∃ y, f x = .ok y := by
  constructor
  · rintro ⟨ys, h⟩
    have hall := mapM_eq_ok_iff.mp h
    clear h
    induction hall with
    | nil => simp
    | cons hx _ ih => exact List.forall_mem_cons.mpr ⟨⟨_, hx⟩, ih⟩
  · intro hall
    cases hxs : xs.mapM f with
    | ok ys => exact ⟨ys, rfl⟩
    | error e =>
      obtain ⟨before, x, after, rfl, hx, -⟩ := mapM_eq_error_iff.mp hxs
      obtain ⟨y, hy⟩ := hall x (by simp)
      rw [hx] at hy
      cases hy

/-- What follows the entry that is refused does not matter. -/
theorem mapM_append_eq_error (h : xs.mapM f = .error e) (more : List α) : (xs ++ more).mapM f = .error e := by
  obtain ⟨before, x, after, rfl, hx, hbefore⟩ := mapM_eq_error_iff.mp h
  exact mapM_eq_error_iff.mpr ⟨before, x, after ++ more, by simp, hx, hbefore⟩

end UpToRefusal

/-! ## One line -/

/-- The kind that the first of some tokens names. -/
def kindOf (tokens : List String) : Kind := Kind.ofKeyword ((tokens.map trimmed).headD "")

namespace Command

variable {line : Line} {tokens : List String}

/-- A line that is accepted: its kind is known (`kindOf`), and the rules of the kind accept the tokens after the
    keyword. -/
theorem ofTokens_eq_ok_iff {c : Command} :
    Command.ofTokens line tokens = .ok c ↔
      kindOf tokens ≠ .unknown ∧ c.line = line ∧ c.args = tokens.map trimmed ∧
        Body.ofTokens (kindOf tokens) (tokens.map trimmed).tail = .ok c.body := by
  simp only [Command.ofTokens, kindOf]
  split
  · rename_i hunknown
    refine ⟨fun h => ?_, fun h => absurd hunknown h.1⟩
    cases h
  · rename_i hkind
    constructor
    · intro h
      split at h
      · cases h
      · rename_i body hbody
        cases h
        exact ⟨hkind, rfl, rfl, hbody⟩
    · rintro ⟨-, rfl, hargs, hbody⟩
      rw [hbody, ← hargs]

/-- A line that is refused tells of its number, its kind and its tokens, whichever rule it breaks. -/
theorem ofTokens_eq_error {e : CommandError} (h : Command.ofTokens line tokens = .error e) :
    e.line = line ∧ e.kind = kindOf tokens ∧ e.args = tokens.map trimmed := by
  simp only [Command.ofTokens] at h
  split at h
  · cases h
    exact ⟨rfl, rfl, rfl⟩
  · split at h
    · cases h
      exact ⟨rfl, rfl, rfl⟩
    · cases h

theorem ofTokens_trimmed (line : Line) (tokens : List String) :
    Command.ofTokens line (tokens.map trimmed) = Command.ofTokens line tokens := by
  have hargs : (tokens.map trimmed).map trimmed = tokens.map trimmed := by
    rw [List.map_map]
    exact List.map_congr_left fun s _ => trimmed_trimmed s
  simp only [Command.ofTokens, hargs]

end Command

/-! ## The significant lines of a text -/

/-- `Significant mark line` — a line that is neither blank nor a comment. -/
def Significant (mark line : List Char) : Prop := trim line ≠ [] ∧ ¬ mark <+: trim line

instance (mark line : List Char) : Decidable (Significant mark line) := by
  unfold Significant
  infer_instance

/-- The test that is made of trimmed (`trim`) lines. -/
theorem isSignificant_iff {mark line : List Char} : isSignificant mark (trim line) = true ↔ Significant mark line := by
  simp only [isSignificant, Significant, startsWith, Bool.and_eq_true, Bool.not_eq_true', List.isEmpty_eq_false_iff,
    ← List.isPrefixOf_iff_prefix, Bool.not_eq_true]

/-- `significantFrom mark n ls` — the significant ones of some lines, with the numbers that they have when the first
    line has number `n`. -/
def significantFrom (mark : List Char) (n : Nat) (ls : List (List Char)) : List (List Char × Nat) :=
  (ls.zipIdx n).filter fun p => Significant mark p.1

/-- `significantLines mark text` — the significant lines of a text, with their numbers. -/
def significantLines (mark text : String) : List (List Char × Nat) :=
  significantFrom mark.toList 0 (text.toList.splitOn '\n')

/-- The tokens of a line: what stands between the commas of the trimmed line. -/
def lineTokens (line : List Char) : List String := ((trim line).splitOn ',').map String.ofList

/-- What a numbered line gives. -/
def commandAt (p : List Char × Nat) : Except CommandError Command := Command.ofTokens (.whole p.2) (lineTokens p.1)

/-- A significant line (`significantFrom`) is found at its number. -/
theorem mem_significantFrom {mark : List Char} {n : Nat} {ls : List (List Char)} {p : List Char × Nat} :
    p ∈ significantFrom mark n ls ↔ n ≤ p.2 ∧ ls[p.2 - n]? = some p.1 ∧ Significant mark p.1 := by
  rw [significantFrom, List.mem_filter, List.mem_zipIdx_iff_le_and_getElem?_sub]
  simp [and_assoc]

/-- Its number is less than the number of lines. -/
theorem lt_of_mem_significantLines {mark text : String} {p : List Char × Nat} (h : p ∈ significantLines mark text) :
    p.2 < (text.toList.splitOn '\n').length :=
  (List.getElem?_eq_some_iff.mp (mem_significantFrom.mp h).2.1).1

theorem length_significantLines_le (mark text : String) :
    (significantLines mark text).length ≤ (text.toList.splitOn '\n').length := by
  refine Nat.le_trans (List.length_filter_le ..) ?_
  rw [List.length_zipIdx]

/-- The numbers of the significant lines (`significantFrom`) increase. -/
theorem pairwise_significantFrom (mark : List Char) (n : Nat) (ls : List (List Char)) :
    (significantFrom mark n ls).Pairwise fun p q => p.2 < q.2 := by
  refine List.Pairwise.filter _ ?_
  rw [← List.pairwise_map (f := Prod.snd) (R := (· < ·)), List.zipIdx_map_snd]
  exact List.pairwise_lt_range'

theorem significantFrom_append (mark : List Char) (n : Nat) (ls more : List (List Char)) :
    significantFrom mark n (ls ++ more) =
      significantFrom mark n ls ++ significantFrom mark (n + ls.length) more := by
  rw [significantFrom, List.zipIdx_append, List.filter_append]
  rfl

/-- Reading lines is reading the significant ones, up to the first that is refused. -/
theorem readLines_eq_mapM (mark : List Char) (n : Nat) (ls : List (List Char)) :
    readLines mark n ls = (significantFrom mark n ls).mapM commandAt := by
  induction ls generalizing n with
  | nil => rfl
  | cons line ls ih =>
    have htokens : Command.ofTokens (.whole n) (tokensOf (trim line)) = commandAt (line, n) := by
      rw [tokensOf, splitOn_eq_splitOn]
      rfl
    simp only [readLines, ih, htokens, isSignificant_iff, significantFrom, List.zipIdx_cons, List.filter_cons]
    -- a line that is not significant is passed over, and only counts
    by_cases hsignificant : Significant mark line
    · simp only [hsignificant, decide_true, if_true, List.mapM_cons]
      cases commandAt (line, n) with
      | error e => rfl
      | ok c =>
        cases hrest : (List.filter (fun p => decide (Significant mark p.1)) (ls.zipIdx (n + 1))).mapM commandAt <;>
          simp [bind, Except.bind, pure, Except.pure]
    · simp [hsignificant]

/-! ## The language -/

section Language

variable {mark source text : String}

/-- Reading a text, in terms of its significant lines (`significantLines`). -/
theorem Script.parse_eq_match (mark source text : String) :
    Script.parse mark source text =
      match (significantLines mark text).mapM commandAt with
      | .error e => .error ⟨source, e⟩
      | .ok commands => .ok (Script.ofCommands "parsed" commands) := by
  rw [Script.parse, readLines_eq_mapM, lines, splitOn_eq_splitOn]
  rfl

/-- A script is made of the commands of all significant lines (`significantLines`). -/
theorem Script.parse_eq_ok_iff {s : Script} :
    Script.parse mark source text = .ok s ↔
      ∃ cs, (significantLines mark text).mapM commandAt = .ok cs ∧ s = Script.ofCommands "parsed" cs := by
  rw [Script.parse_eq_match]
  cases (significantLines mark text).mapM commandAt <;> simp [eq_comm]

/-- A refusal is that of the lines, with the source. -/
theorem Script.parse_eq_error_iff {e : ScriptError} :
    Script.parse mark source text = .error e ↔
      e.source = source ∧ (significantLines mark text).mapM commandAt = .error e.error := by
  rw [Script.parse_eq_match]
  obtain ⟨source', error⟩ := e
  cases (significantLines mark text).mapM commandAt <;> simp [eq_comm]

/-- `CommandsOf ps cs` — the commands that come of numbered lines. -/
def CommandsOf (ps : List (List Char × Nat)) (cs : List Command) : Prop :=
  List.Forall₂ (fun p c => commandAt p = .ok c ∧ c.line = .whole p.2 ∧ c.args = (lineTokens p.1).map trimmed) ps cs

/-- What has been read are the commands of the lines. -/
theorem commandsOf_of_mapM {ps : List (List Char × Nat)} {cs : List Command} (h : ps.mapM commandAt = .ok cs) :
    CommandsOf ps cs := by
  refine (mapM_eq_ok_iff.mp h).imp fun p c hc => ?_
  obtain ⟨-, hline, hargs, -⟩ := Command.ofTokens_eq_ok_iff.mp hc
  exact ⟨hc, hline, hargs⟩

/-- The numbers of the commands are those of the lines. -/
theorem CommandsOf.map_line {ps : List (List Char × Nat)} {cs : List Command} (h : CommandsOf ps cs) :
    cs.map (fun c => c.line.toInt) = ps.map fun p => (p.2 : Int) := by
  induction h with
  | nil => rfl
  | cons hc _ ih =>
    rw [List.map_cons, List.map_cons, ih, hc.2.1]
    rfl

/-- Each command bears the number of one of the lines. -/
theorem CommandsOf.exists_line {ps : List (List Char × Nat)} {cs : List Command} (h : CommandsOf ps cs) {c : Command}
    (hc : c ∈ cs) : ∃ p ∈ ps, c.line = .whole p.2 := by
  induction h with
  | nil => cases hc
  | cons hp _ ih =>
    rcases List.mem_cons.mp hc with rfl | hc
    · exact ⟨_, List.mem_cons_self, hp.2.1⟩
    · obtain ⟨p, hp, hline⟩ := ih hc
      exact ⟨p, List.mem_cons_of_mem _ hp, hline⟩

theorem CommandsOf.pairwise_line {ps : List (List Char × Nat)} {cs : List Command} (h : CommandsOf ps cs)
    (hps : ps.Pairwise fun p q => p.2 < q.2) : cs.Pairwise fun c d => c.line.toInt < d.line.toInt := by
  have hlines : (ps.map fun p => (p.2 : Int)).Pairwise (· < ·) :=
    List.pairwise_map.mpr (hps.imp Int.ofNat_lt.mpr)
  rw [← h.map_line] at hlines
  exact List.pairwise_map.mp hlines

/-- The first refusal is the same for every text that begins with the same lines, up to the one that is refused. -/
theorem significantLines_mapM_eq_error {other : String} {n : Nat} {e e' : CommandError} {p : List Char × Nat}
    (h : (significantLines mark text).mapM commandAt = .error e) (hp : p ∈ significantLines mark text) (hpn : p.2 < n)
    (hrefused : commandAt p = .error e')
    (hsame : (other.toList.splitOn '\n').take n = (text.toList.splitOn '\n').take n) :
    (significantLines mark other).mapM commandAt = .error e := by
  have hsplit (text : String) : ∃ after, significantLines mark text =
      significantFrom mark.toList 0 ((text.toList.splitOn '\n').take n) ++ after := by
    conv in significantLines mark text =>
      rw [significantLines, ← List.take_append_drop n (text.toList.splitOn '\n'), significantFrom_append]
    exact ⟨_, rfl⟩
  obtain ⟨after, htext⟩ := hsplit text
  obtain ⟨after', hother⟩ := hsplit other
  have hfirst : p ∈ significantFrom mark.toList 0 ((text.toList.splitOn '\n').take n) := by
    obtain ⟨hle, hget, hsignificant⟩ := mem_significantFrom.mp hp
    refine mem_significantFrom.mpr ⟨hle, ?_, hsignificant⟩
    rwa [List.getElem?_take_of_lt (by omega)]
  -- the line is among the first ones, so these are not all read; and what follows does not matter
  cases hmapM : (significantFrom mark.toList 0 ((text.toList.splitOn '\n').take n)).mapM commandAt with
  | ok cs =>
    obtain ⟨c, hc⟩ := mapM_isOk_iff.mp ⟨cs, hmapM⟩ p hfirst
    rw [hrefused] at hc
    cases hc
  | error e'' =>
    have heq := mapM_append_eq_error hmapM after
    rw [← htext, h] at heq
    cases heq
    rw [hother, hsame]
    exact mapM_append_eq_error hmapM after'

end Language

/-- A text is read when all its significant lines (`significantLines`) are accepted; the script then has one command
    for each of them, in order, with the number of the line and its trimmed tokens.  Otherwise the error is that of
    the first line that is refused; it names the line and the kind that the keyword of the line stands for, and is
    the same whatever comes after the line. -/
theorem Script.parse_reads_significant_lines (mark source text : String) :
    ((∃ s, Script.parse mark source text = .ok s) ↔ ∀ p ∈ significantLines mark text, ∃ c, commandAt p = .ok c) ∧
    (∀ s, Script.parse mark source text = .ok s →
      CommandsOf (significantLines mark text) s.commands ∧
      s.commands.Pairwise (fun c d => c.line.toInt < d.line.toInt) ∧
      ∀ c ∈ s.commands, 0 ≤ c.line.toInt ∧ c.line.toInt < (text.toList.splitOn '\n').length) ∧
    ∀ e, Script.parse mark source text = .error e →
      ∃ p ∈ significantLines mark text, commandAt p = .error e.error ∧ e.source = source ∧
        e.error.line = .whole p.2 ∧ e.error.kind = kindOf (lineTokens p.1) ∧
        (∀ q ∈ significantLines mark text, q.2 < p.2 → ∃ c, commandAt q = .ok c) ∧
        ∀ other : String,
          (other.toList.splitOn '\n').take (p.2 + 1) = (text.toList.splitOn '\n').take (p.2 + 1) →
          Script.parse mark source other = .error e := by
  refine ⟨?_, fun s hs => ?_, fun e he => ?_⟩
  · rw [← mapM_isOk_iff]
    simp only [Script.parse_eq_ok_iff]
    exact ⟨fun ⟨_, cs, h, _⟩ => ⟨cs, h⟩, fun ⟨cs, h⟩ => ⟨_, cs, h, rfl⟩⟩
  · obtain ⟨cs, hmapM, rfl⟩ := Script.parse_eq_ok_iff.mp hs
    have hcs := commandsOf_of_mapM hmapM
    refine ⟨hcs, hcs.pairwise_line (pairwise_significantFrom ..), fun c hc => ?_⟩
    obtain ⟨p, hp, hline⟩ := hcs.exists_line hc
    have hlt := lt_of_mem_significantLines hp
    simp only [hline, Line.toInt]
    omega
  · obtain ⟨hsource, hmapM⟩ := Script.parse_eq_error_iff.mp he
    obtain ⟨before, p, after, hsplit, hp, hbefore⟩ := mapM_eq_error_iff.mp hmapM
    obtain ⟨hline, hkind, -⟩ := Command.ofTokens_eq_error hp
    have hmem : p ∈ significantLines mark text := by simp [hsplit]
    refine ⟨p, hmem, hp, hsource, hline, hkind, fun q hq hqp => ?_, fun other hsame => ?_⟩
    · -- lines with smaller numbers come before the one that is refused, so they have been read
      have hordered := pairwise_significantFrom mark.toList 0 (text.toList.splitOn '\n')
      change (significantLines mark text).Pairwise _ at hordered
      rw [hsplit, List.pairwise_append, List.pairwise_cons] at hordered
      rw [hsplit, List.mem_append, List.mem_cons] at hq
      obtain hq | rfl | hq := hq
      · exact hbefore q hq
      · omega
      · exact absurd (hordered.2.1.1 q hq) (by omega)
    · exact Script.parse_eq_error_iff.mpr
        ⟨hsource, significantLines_mapM_eq_error hmapM hmem (Nat.lt_succ_self _) hp hsame⟩

end ChatScene

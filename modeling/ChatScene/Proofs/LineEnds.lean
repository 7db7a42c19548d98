/-
  Line ends: texts with long and with short ones are read alike.

  A line ends with a line feed, or with a carriage return and a line feed.  Two mechanisms make this not matter.

  1. **Texts** — a text is cut at its line feeds, so that a carriage return stays at the end of its line.  There it is a
     blank like others, and lines are trimmed before anything else is asked of them: `map_trim_lines_withReturns`, where
     `withReturns` puts a carriage return before every line feed.  So reading gives the same (`parse_withReturns`).

  2. **Files** — a file is read with every line end as a line feed, so that there are no carriage returns at all
     (`unifyBreaks_withReturns`).

  3. **Main result** (`line_ends_do_not_matter`) — four ways lead to one outcome: a text or a file, with either line
     ends.  Only the names differ that are given to the script and to its source (`Script.renamed`).
-/
import Mathlib.Data.List.Forall2
import ChatScene.Proofs.Compiling

namespace ChatScene

open ChatScene.Text

/-! ## Long line ends -/

namespace Text

/-- The text with long line ends: a carriage return stands before every line feed. -/
def withReturns (cs : List Char) : List Char := cs.flatMap fun c => if c = '\n' then ['\r', '\n'] else [c]

theorem withReturns_break (cs : List Char) : withReturns ('\n' :: cs) = '\r' :: '\n' :: withReturns cs := rfl

theorem withReturns_cons {c : Char} (hc : c ≠ '\n') (cs : List Char) : withReturns (c :: cs) = c :: withReturns cs := by
  rw [withReturns, List.flatMap_cons, if_neg hc]
  rfl

/-- Reading a file makes its line ends (`withReturns`) short again.  The text must have no carriage returns of its own,
    which would be line ends as well. -/
theorem unifyBreaks_withReturns {cs : List Char} (h : '\r' ∉ cs) : unifyBreaks (withReturns cs) = cs := by
  induction cs with
  | nil => rfl
  | cons c cs ih =>
    obtain ⟨hc, hcs⟩ := not_or.mp (List.mem_cons.not.mp h)
    by_cases hbreak : c = '\n'
    · rw [hbreak, withReturns_break, unifyBreaks, ih hcs]
    · rw [withReturns_cons hbreak, unifyBreaks, ih hcs]
      · exact fun _ heq _ => hc heq.symm
      · exact fun heq => hc heq.symm

/-- With long line ends (`withReturns`) each line has a carriage return at its end, but for the last one, or none. -/
theorem forall₂_splitOn_withReturns (cs : List Char) :
    List.Forall₂ (fun long short => long = short ∨ long = short ++ ['\r'])
      ((withReturns cs).splitOn '\n') (cs.splitOn '\n') := by
  induction cs with
  | nil => exact .cons (.inl rfl) .nil
  | cons c cs ih =>
    by_cases hbreak : c = '\n'
    · subst hbreak
      exact .cons (.inr rfl) ih
    -- the character belongs to the first line, on both sides
    · rw [withReturns_cons hbreak]
      simp only [List.splitOn_cons_eq_if_modifyHead, beq_iff_eq, hbreak, if_false]
      generalize (withReturns cs).splitOn '\n' = long, cs.splitOn '\n' = short at ih
      cases ih with
      | nil => exact .nil
      | cons hline hrest =>
        refine .cons ?_ hrest
        rcases hline with rfl | rfl
        · exact .inl rfl
        · exact .inr rfl

/-- Trimmed lines do not show which line ends a text has, since a carriage return is a blank. -/
theorem map_trim_lines_withReturns (cs : List Char) : (lines (withReturns cs)).map trim = (lines cs).map trim := by
  have hlines := forall₂_splitOn_withReturns cs
  rw [lines, lines, splitOn_eq_splitOn, splitOn_eq_splitOn]
  generalize (withReturns cs).splitOn '\n' = long, cs.splitOn '\n' = short at hlines
  induction hlines with
  | nil => rfl
  | cons hline _ ih =>
    rw [List.map_cons, List.map_cons, ih]
    rcases hline with rfl | rfl
    · rfl
    · rw [trim_concat (by decide)]

end Text

/-! ## Reading -/

/-- Blanks around lines do not matter to reading them. -/
theorem readLines_map_trim (mark : List Char) (n : Nat) (ls : List (List Char)) :
    readLines mark n (ls.map trim) = readLines mark n ls := by
  induction ls generalizing n with
  | nil => rfl
  | cons line ls ih => simp only [List.map_cons, readLines, trim_trim, ih]

namespace Script

/-- The outcome of reading a text, with other names for the script and for its source. -/
def renamed (id source : String) : Except ScriptError Script → Except ScriptError Script
  | .ok s => .ok { s with id }
  | .error e => .error { e with source }

/-- The source of a text gives nothing but a name. -/
theorem parse_eq_renamed (mark source other text : String) :
    Script.parse mark other text = renamed "parsed" other (Script.parse mark source text) := by
  rw [Script.parse, Script.parse]
  cases readLines mark.toList 0 (lines text.toList) <;> rfl

/-- A text with long line ends is read like the same text with short ones. -/
theorem parse_withReturns (mark source text : String) :
    Script.parse mark source (String.ofList (withReturns text.toList)) = Script.parse mark source text := by
  rw [Script.parse, String.toList_ofList, ← readLines_map_trim, map_trim_lines_withReturns, readLines_map_trim]
  rfl

end Script

namespace Tree

/-- The script in a file is the script of its text, with other names. -/
theorem script_of_readText {t : Tree} {path : Path} {text : String} (h : t.readText path = .ok text)
    (mark source : String) :
    (t.script mark path).result =
      (Script.renamed (spelled path.stem) path.text (Script.parse mark source text)).mapError .script := by
  rw [script, inputText, h]
  simp only [Except.mapError]
  rw [Script.parse_eq_renamed mark source path.text]
  cases Script.parse mark source text <;> rfl

/-- Line ends do not matter.  Whatever a text without carriage returns gives, commands and labels or the refusal of a
    line, is also given by the text with long line ends (`withReturns`), by a file that holds the text and by a
    file that holds it with long line ends, up to the names of the script and of its source. -/
theorem line_ends_do_not_matter (mark source other text : String) (t u : Tree) (path back : Path)
    (htext : '\r' ∉ text.toList) (ht : t.readBytes path = .ok (Utf8.encode text.toList))
    (hu : u.readBytes back = .ok (Utf8.encode (withReturns text.toList))) :
    Script.parse mark other (String.ofList (withReturns text.toList)) =
        Script.renamed "parsed" other (Script.parse mark source text) ∧
      (t.script mark path).result =
        (Script.renamed (spelled path.stem) path.text (Script.parse mark source text)).mapError .script ∧
      (u.script mark back).result =
        (Script.renamed (spelled back.stem) back.text (Script.parse mark source text)).mapError .script := by
  refine ⟨?_, ?_, ?_⟩
  · rw [Script.parse_withReturns]
    exact Script.parse_eq_renamed mark source other text
  · refine script_of_readText ?_ mark source
    rw [readText_of_readBytes ht, unifyBreaks_of_not_mem htext, String.ofList_toList]
  · refine script_of_readText ?_ mark source
    rw [readText_of_readBytes hu, unifyBreaks_withReturns htext, String.ofList_toList]

/-- A comment, a blank line, a line with a line separator in it and an empty last token, and a last line without an
    end. -/
def postcard : String := "# to you\n \n@text, Hi\u2028there,\n  @label, end"

/-- The text in two files, with either line ends. -/
def postcardTree : Tree :=
  (({} : Tree).addFile ["short.chat"] (Utf8.encode postcard.toList)).addFile ["long.chat"]
    (Utf8.encode (withReturns postcard.toList))

/-- The script that the text spells. -/
def postcardScript (id : String) : Script :=
  ⟨id,
   [⟨.whole 2, ["@text", "Hi\u2028there", ""], .text "Hi\u2028there, "⟩,
    ⟨.whole 3, ["@label", "end"], .label "end"⟩],
   [("end", 1)]⟩

theorem line_ends_do_not_matter_postcard :
    Script.parse "#" "reply" (String.ofList (withReturns postcard.toList)) = .ok (postcardScript "parsed") ∧
      (postcardTree.script "#" ⟨0, ["short.chat"]⟩).result = .ok (postcardScript "short") ∧
      (postcardTree.script "#" ⟨0, ["long.chat"]⟩).result = .ok (postcardScript "long") := by
  have hparse : Script.parse "#" "postcard" postcard = .ok (postcardScript "parsed") := rfl
  have hreadings := line_ends_do_not_matter "#" "postcard" "reply" postcard postcardTree postcardTree
    ⟨0, ["short.chat"]⟩ ⟨0, ["long.chat"]⟩ (by decide) rfl rfl
  rwa [hparse] at hreadings

end Tree

end ChatScene

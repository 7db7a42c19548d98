/-
  Trimming and cutting texts.

  1. **Trimming** — a trimmed text has no blank at either end, so trimming it once more changes nothing (`trim_trim`);
     every reader of commands and numbers may therefore trim what has been trimmed before.  What is trimmed can be told
     from the two ends (`trim_eq_self_iff`), and nothing is left just when there was nothing but blanks
     (`trim_eq_nil_iff`).

  2. **Ends** — something that is no blank in front of a trimmed text does not go away (`trim_cons`), a blank at its end
     does (`trim_concat`), and of two texts the second one decides what is lost at the end (`trimBack_append`).

  3. **Cutting** — cutting at a separator is the cutting of the standard library (`splitOn_eq_splitOn`): the pieces hold
     no separator (`not_mem_of_mem_splitOn`) and make up the text again when separators are put between them.
-/
import Mathlib.Data.List.DropRight
import ChatScene.Text.Blank
import ChatScene.Text.Split

namespace ChatScene.Text

/-! ## Trimming -/

/-- What is left after dropping blanks (`isBlank`) in front does not begin with one. -/
theorem isBlank_of_trimFront {cs rest : List Char} {c : Char} (h : trimFront cs = c :: rest) : isBlank c = false := by
  have hhead := List.head?_dropWhile_not isBlank cs
  rw [show cs.dropWhile isBlank = c :: rest from h] at hhead
  exact hhead

/-- Where there is no blank (`isBlank`) in front nothing is dropped there. -/
theorem trimFront_cons {c : Char} {rest : List Char} (h : isBlank c = false) : trimFront (c :: rest) = c :: rest := by
  simp [trimFront, h]

theorem trimBack_prefix (cs : List Char) : trimBack cs <+: cs := List.rdropWhile_prefix isBlank cs

/-- Dropping blanks at the end brings none to the front. -/
theorem trimFront_trimBack (cs : List Char) : trimFront (trimBack (trimFront cs)) = trimBack (trimFront cs) := by
  cases hback : trimBack (trimFront cs) with
  | nil => rfl
  | cons c rest =>
    obtain ⟨more, hmore⟩ := trimBack_prefix (trimFront cs)
    rw [hback, List.cons_append] at hmore
    exact trimFront_cons (isBlank_of_trimFront hmore.symm)

/-- A trimmed (`trim`) text stays as it is. -/
theorem trim_trim (cs : List Char) : trim (trim cs) = trim cs := by
  unfold trim
  rw [trimFront_trimBack]
  exact List.rdropWhile_idempotent isBlank (trimFront cs)

theorem trimmed_trimmed (s : String) : trimmed (trimmed s) = trimmed s := by
  simp only [trimmed, String.toList_ofList, trim_trim]

/-- Nothing is left of a text when there was nothing but blanks. -/
theorem trim_eq_nil_iff {cs : List Char} : trim cs = [] ↔ isBlankText cs = true := by
  have hback : trim cs = [] ↔ ∀ c ∈ trimFront cs, isBlank c = true := List.rdropWhile_eq_nil_iff
  rw [hback, isBlankText, List.all_eq_true]
  constructor
  · intro h
    -- what is left in front would begin with something that is no blank
    cases hfront : trimFront cs with
    | nil => exact List.dropWhile_eq_nil_iff.mp hfront
    | cons c rest =>
      have hc := h c (by rw [hfront]; exact List.mem_cons_self)
      rw [isBlank_of_trimFront hfront] at hc
      cases hc
  · intro h c hc
    exact h c (List.dropWhile_subset isBlank hc)

theorem trimmed_eq_empty_iff {s : String} : trimmed s = "" ↔ isBlankText s.toList = true := by
  rw [← trim_eq_nil_iff, trimmed, ← String.toList_inj, String.toList_ofList]
  rfl

/-- Something that is no blank in front of a trimmed (`trim`) text does not change what is at its end. -/
theorem trim_cons {c : Char} {cs : List Char} (hc : isBlank c = false) (hcs : trim cs = cs) : trim
    (c :: cs) = c :: cs := by
  have hback : trimBack cs = cs := by
    rw [← hcs]
    exact List.rdropWhile_idempotent isBlank (trimFront cs)
  rw [trim, trimFront_cons hc]
  refine List.rdropWhile_eq_self_iff.mpr fun _ => ?_
  by_cases hnil : cs = []
  · simp [hnil, hc]
  · rw [List.getLast_cons hnil]
    exact List.rdropWhile_eq_self_iff.mp hback hnil

/-- A text stays as it is when trimming takes nothing away at either end. -/
theorem trim_eq_self_iff {cs : List Char} : trim cs = cs ↔ trimFront cs = cs ∧ trimBack cs = cs := by
  constructor
  · intro h
    have hfront : trimFront cs = cs := by
      conv_lhs => rw [← h]
      exact (trimFront_trimBack cs).trans h
    refine ⟨hfront, ?_⟩
    rwa [trim, hfront] at h
  · rintro ⟨hfront, hback⟩
    rw [trim, hfront, hback]

/-- A blank at the end of a text does not matter. -/
theorem trim_concat {c : Char} (hc : isBlank c = true) (cs : List Char) : trim (cs ++ [c]) = trim cs := by
  have hfront : trimFront (cs ++ [c]) = if (trimFront cs).isEmpty then [] else trimFront cs ++ [c] := by
    rw [trimFront, List.dropWhile_append, List.dropWhile_cons_of_pos hc]
    rfl
  rw [trim, hfront]
  split
  · rename_i hnil
    rw [trim, List.isEmpty_iff.mp hnil]
  · exact List.rdropWhile_concat_pos isBlank (trimFront cs) c hc

/-- Blanks at the end are those of the second of two texts, or all of it and those of the first. -/
theorem trimBack_append (cs ds : List Char) :
    trimBack (cs ++ ds) = if isBlankText ds then trimBack cs else cs ++ trimBack ds := by
  have hblank : (ds.reverse.dropWhile isBlank).isEmpty = isBlankText ds := by
    rw [isBlankText, Bool.eq_iff_iff, List.isEmpty_iff, List.dropWhile_eq_nil_iff, List.all_eq_true]
    simp only [List.mem_reverse]
  rw [trimBack, List.reverse_append, List.dropWhile_append, hblank]
  split
  · rfl
  · rw [List.reverse_append, List.reverse_reverse]
    rfl

/-! ## Cutting -/

/-- Cutting at a separator is what the standard library does. -/
theorem splitOn_eq_splitOn (sep : Char) (cs : List Char) : splitOn sep cs = cs.splitOn sep := by
  induction cs with
  | nil => rfl
  | cons c cs ih =>
    rw [splitOn, ih, List.splitOn_cons_eq_if_modifyHead]
    by_cases hc : c = sep
    · simp [hc]
    · obtain ⟨piece, pieces, hpieces⟩ := List.exists_cons_of_ne_nil (List.splitOn_ne_nil sep cs)
      simp [hc, hpieces]

/-- No piece (`splitOn`) has a separator in it. -/
theorem not_mem_of_mem_splitOn {sep : Char} {cs piece : List Char} (h : piece ∈ cs.splitOn sep) : sep ∉ piece := by
  induction cs generalizing piece with
  | nil => simp_all
  | cons c cs ih =>
    rw [List.splitOn_cons_eq_if_modifyHead] at h
    split at h
    · rcases List.mem_cons.mp h with rfl | h
      · exact List.not_mem_nil
      · exact ih h
    · rename_i hc
      obtain ⟨first, rest, hpieces⟩ := List.exists_cons_of_ne_nil (List.splitOn_ne_nil sep cs)
      rw [hpieces] at h ih
      rcases List.mem_cons.mp h with rfl | h
      · simp only [beq_iff_eq] at hc
        exact List.not_mem_cons_of_ne_of_not_mem (Ne.symm hc) (ih List.mem_cons_self)
      · exact ih (List.mem_cons_of_mem first h)

end ChatScene.Text

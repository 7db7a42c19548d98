/-
  Conditions: how an expected value is classified, and how it is compared.

  An expected value is looked at three times: when the line is checked, when the way of comparing is chosen, and
  whenever the condition is put to the test.  The three agree.

  1. **The check** — `Condition.Checked` is what the check of a line leaves of an expected value, and the condition of
     every accepted line has it (`checked_of_accepted`).

  2. **Numbers and truth values** — a condition of an accepted line that compares numbers has a number to compare with
     (`Checked.numeric`), and one that compares truth values has a truth value (`Checked.boolean`); so the outcome
     depends on the actual value alone.  Numbers are those of `Denotes`, which says what a text means as a number and
     does not refer to reading it.

  3. **Which way** — numbers are compared as such if the value is a number, alone or after an operator (`Numeric`), and
     texts that are neither numbers nor truth values letter by letter (`Checked.numeric_iff`, `Checked.exact_iff`).

  4. **The operator `=`** — a number by itself means the same as the number after `=` (`Checked.accepts_withEqual`,
     `Checked.comparand_withEqual`).

  The main result, `compared_as_classified`, puts these together for every accepted line.
-/
import ChatScene.Proofs.Grammar

namespace ChatScene

open ChatScene.Text ChatScene.Decimal

namespace Condition

variable {test : Condition}

/-! ## Conditions of accepted lines -/

/-- What the check of a line leaves of an expected value. -/
structure Checked (test : Condition) : Prop where
  ne_empty : test.expected ≠ ""
  trim_eq : trim test.expected.toList = test.expected.toList
  /-- An operator stands before numbers only. -/
  comparable : ∀ operand, Compares test.expected.toList operand → IsNumber operand
  suits : test.mode.Suits test.expected

/-- The condition of an accepted line has been checked (`Checked`). -/
theorem checked_of_accepted {line : Line} {tokens : List String} {c : Command}
    (haccepted : Command.ofTokens line tokens = .ok c) (hbody : c.body = .condition test) : test.Checked := by
  obtain ⟨-, -, hform⟩ := Command.ofTokens_eq_ok_iff_form.mp haccepted
  generalize hargs : tokens.map trimmed = args at hform
  rw [hbody] at hform
  cases hform with
  | @condition var expected label mode hempty hnumber hmode =>
    have htrimmed : expected ∈ tokens.map trimmed := by simp [hargs]
    obtain ⟨token, -, htoken⟩ := List.mem_map.mp htrimmed
    have hexpected : expected ≠ "" := fun h => hempty (by simp [h])
    refine ⟨hexpected, ?_, hnumber, hmode⟩
    rw [← htoken, trimmed, String.toList_ofList, trim_trim]

/-! ## Comparing -/

/-- What the actual value is compared with: the operand after the operator, or else the whole expected value. -/
def comparand (test : Condition) : Operator × List Char :=
  (comparison? test.expected.toList).getD (.equal, test.expected.toList)

/-- A numeric condition compares two numbers (`readFinite`), the second of which is in `comparand`; if one side is
    none, it does not hold. -/
theorem holds_numeric (h : test.mode = .numeric) (actual : String) :
    test.holds actual =
      match readFinite test.comparand.2, readFinite actual.toList with
      | some e, some a => test.comparand.1.holds a e
      | _, _ => false := by
  simp only [Condition.holds, h]
  rfl

/-- What is compared with is a number: this has been checked (`Checked`), with the operator or without. -/
theorem Checked.isNumber_comparand (h : test.Checked) (hmode : test.mode = .numeric) : IsNumber test.comparand.2 := by
  unfold comparand
  cases hcomparison : comparison? test.expected.toList with
  | some pair =>
    obtain ⟨op, operand⟩ := pair
    exact h.comparable operand (exists_comparison?_iff.mp ⟨op, hcomparison⟩)
  | none =>
    -- without an operator it has been found numeric because it is a number itself
    rcases h.suits.numeric_iff.mp hmode with hnumber | ⟨operand, hcompares, -⟩
    · exact hnumber
    · obtain ⟨op, hsome⟩ := exists_comparison?_iff.mpr hcompares
      rw [hcomparison] at hsome
      cases hsome

/-- A numeric condition has a number `e` to compare with, and holds of the texts of those numbers that are in the
    relation to it. -/
theorem Checked.numeric (h : test.Checked) (hmode : test.mode = .numeric) :
    ∃ e, Denotes test.comparand.2 e ∧
      ∀ actual, test.holds actual = true ↔ ∃ a, Denotes actual.toList a ∧ test.comparand.1.holds a e = true := by
  obtain ⟨e, he⟩ := h.isNumber_comparand hmode
  refine ⟨e, he, fun actual => ?_⟩
  rw [holds_numeric hmode, readFinite_eq_some_iff.mpr he]
  simp only [← readFinite_eq_some_iff]
  cases readFinite actual.toList <;> simp

/-- A condition on a truth value (`readBool`) has a truth value to compare with, and holds of its texts. -/
theorem Checked.boolean (h : test.Checked) (hmode : test.mode = .boolean) :
    ∃ b, readBool test.expected.toList = some b ∧
      ∀ actual, test.holds actual = true ↔ readBool actual.toList = some b := by
  obtain ⟨b, hb⟩ : ∃ b, readBool test.expected.toList = some b := by
    rcases h.suits.boolean_iff.mp hmode with hword | hword <;> rw [hword]
    · exact ⟨true, by decide +kernel⟩
    · exact ⟨false, by decide +kernel⟩
  refine ⟨b, hb, fun actual => ?_⟩
  simp only [Condition.holds, hmode, hb]
  cases readBool actual.toList <;> simp

/-! ## Classifying -/

/-- The empty text is no number, so an operator alone is not numeric. -/
theorem not_isNumber_nil : ¬ IsNumber [] := by
  rw [← readFinite_isSome_iff]
  decide +kernel

/-- A finite number, alone or after an operator. -/
def Numeric (expected : List Char) : Prop :=
  IsNumber expected ∨ ∃ c ∈ ['>', '<', '='], ∃ operand, expected = c :: operand ∧ IsNumber operand

/-- On a single line, the values that are compared as numbers are the ones that are `Numeric`, that is numbers, alone
    or after an operator. -/
theorem Checked.numeric_iff (h : test.Checked) (hline : '\n' ∉ test.expected.toList) :
    test.mode = .numeric ↔ Numeric test.expected.toList := by
  rw [h.suits.numeric_iff]
  refine or_congr_right ⟨?_, ?_⟩
  · rintro ⟨operand, ⟨⟨c, hc, hexpected⟩, -, -⟩, hnumber⟩
    exact ⟨c, hc, operand, hexpected, hnumber⟩
  · rintro ⟨c, hc, operand, hexpected, hnumber⟩
    refine ⟨operand, ⟨⟨c, hc, hexpected⟩, ?_, fun hmem => hline ?_⟩, hnumber⟩
    · rintro rfl
      exact not_isNumber_nil hnumber
    · rw [hexpected]
      exact List.mem_cons_of_mem c hmem

theorem Checked.exact_iff (h : test.Checked) (hline : '\n' ∉ test.expected.toList) :
    test.mode = .exact ↔
      ¬ (test.expected = "true" ∨ test.expected = "false") ∧ ¬ Numeric test.expected.toList := by
  rw [← h.suits.boolean_iff, ← h.numeric_iff hline]
  cases test.mode <;> simp

/-! ## Numbers with and without an operator -/

/-- The expected value has no operator in front. -/
def HasNoOperator (test : Condition) : Prop := ∀ c ∈ ['>', '<', '='], ∀ operand, test.expected.toList ≠ c :: operand

/-- A numeric condition without an operator (`HasNoOperator`) expects a number, and this stands on one line. -/
theorem Checked.isNumber_of_hasNoOperator (h : test.Checked) (hmode : test.mode = .numeric)
    (hoperator : test.HasNoOperator) :
    IsNumber test.expected.toList ∧ '\n' ∉ test.expected.toList := by
  have hnumber : IsNumber test.expected.toList := by
    rcases h.suits.numeric_iff.mp hmode with hnumber | ⟨operand, ⟨⟨c, hc, hexpected⟩, -, -⟩, -⟩
    · exact hnumber
    · exact absurd hexpected (hoperator c hc operand)
  obtain ⟨x, hx⟩ := hnumber
  refine ⟨⟨x, hx⟩, fun hmem => ?_⟩
  have hchar : IsNumeralChar '\n' := hx.chars '\n' (h.trim_eq.symm ▸ hmem)
  exact absurd hchar (by unfold IsNumeralChar; decide +kernel)

/-- Without an operator the whole value is compared, for equality. -/
theorem HasNoOperator.comparand_eq (h : test.HasNoOperator) : test.comparand = (.equal, test.expected.toList) := by
  have hnone : comparison? test.expected.toList = none := by
    rw [← Option.not_isSome_iff_eq_none, comparison?_isSome_iff]
    rintro ⟨operand, ⟨⟨c, hc, hexpected⟩, -, -⟩⟩
    exact h c hc operand hexpected
  rw [comparand, hnone]
  rfl

/-- `test.withEqual var label` — a numeric condition whose expected value has `=` in front of that of another one. -/
def withEqual (test : Condition) (var label : String) : Condition := ⟨var, "=" ++ test.expected, label, .numeric⟩

/-- The characters of a value with `=` in front. -/
theorem toList_equal (expected : String) : ("=" ++ expected).toList = '=' :: expected.toList := by
  rw [String.toList_append]
  rfl

/-- Such a value is none of the texts that begin otherwise, so it is no truth value. -/
theorem equal_ne {text : String} (h : text.toList.head? ≠ some '=') (expected : String) : "=" ++ expected ≠ text := by
  rintro rfl
  rw [toList_equal] at h
  exact h rfl

/-- With `=` in front there are no blanks around, either. -/
theorem Checked.trimmed_equal (h : test.Checked) : trimmed ("=" ++ test.expected) = "=" ++ test.expected := by
  rw [trimmed, toList_equal, trim_cons (by decide +kernel) h.trim_eq, ← toList_equal, String.ofList_toList]

/-- It is the operator `=` with the value as operand; no longer operator begins like that, since a number does not
    begin with one. -/
theorem Checked.compares_equal (h : test.Checked) (hline : '\n' ∉ test.expected.toList) :
    Compares ('=' :: test.expected.toList) test.expected.toList := by
  refine ⟨⟨'=', by simp, rfl⟩, fun hnil => h.ne_empty ?_, hline⟩
  exact String.toList_eq_nil_iff.mp hnil

/-- A value with `=` in front is no word, and `=` is its operator. -/
theorem Checked.suits_equal (h : test.Checked) (hnumber : IsNumber test.expected.toList)
    (hline : '\n' ∉ test.expected.toList) : Mode.numeric.Suits ("=" ++ test.expected) := by
  have hword : ¬ ("=" ++ test.expected = "true" ∨ "=" ++ test.expected = "false") :=
    not_or.mpr ⟨equal_ne (by decide) _, equal_ne (by decide) _⟩
  refine ⟨by simp [hword], ?_⟩
  rw [toList_equal]
  exact iff_of_true rfl (.inr ⟨_, h.compares_equal hline, hnumber⟩)

/-- With `=` in front the comparison is the same: `=` is what a value without an operator means. -/
theorem Checked.comparand_withEqual (h : test.Checked) (hoperator : test.HasNoOperator)
    (hline : '\n' ∉ test.expected.toList)
    (var label : String) : (test.withEqual var label).comparand = test.comparand := by
  have hsome : comparison? ('=' :: test.expected.toList) = some (.equal, test.expected.toList) :=
    comparison?_eq_some_iff.mpr ⟨'=', rfl, rfl, (h.compares_equal hline).ne_nil, hline⟩
  rw [hoperator.comparand_eq, comparand, withEqual, toList_equal, hsome]
  rfl

/-- With `=` in front the line is accepted as well, and gives the condition `withEqual`. -/
theorem Checked.accepts_withEqual (h : test.Checked) (hmode : test.mode = .numeric) (hoperator : test.HasNoOperator)
    (line : Line) {var label : String} (hvar : trimmed var ≠ "") (hlabel : trimmed label ≠ "") :
    Command.ofTokens line ["@if", var, "=" ++ test.expected, label] =
      .ok ⟨line, ["@if", trimmed var, "=" ++ test.expected, trimmed label],
        .condition (test.withEqual (trimmed var) (trimmed label))⟩ := by
  obtain ⟨hnumber, hline⟩ := h.isNumber_of_hasNoOperator hmode hoperator
  have hargs : ["@if", var, "=" ++ test.expected, label].map trimmed =
      ["@if", trimmed var, "=" ++ test.expected, trimmed label] := by
    simp only [List.map_cons, List.map_nil, h.trimmed_equal]
    rfl
  refine Command.ofTokens_eq_ok_iff_form.mpr
    ⟨rfl, hargs.symm, hargs.symm ▸ .condition ?_ ?_ (h.suits_equal hnumber hline)⟩
  · have hexpected : "=" ++ test.expected ≠ "" := equal_ne (by decide) _
    simp [hexpected.symm, hvar.symm, hlabel.symm]
  · rintro operand ⟨⟨c, -, hoperand⟩, -, -⟩
    rw [toList_equal] at hoperand
    cases hoperand
    exact hnumber

/-- How an accepted condition is compared fits what it is compared with.

    A numeric condition has a finite number to compare with, and a condition on a truth value has a truth value; so
    whether one holds depends on the actual value alone.  Expected values on a single line are truth values when they
    are one of the two words, numbers when they are finite numbers, alone or after an operator, and else texts.  In
    front of a number without an operator, `=` is accepted and changes nothing. -/
theorem compared_as_classified {line : Line} {tokens : List String} {c : Command}
    (haccepted : Command.ofTokens line tokens = .ok c) (hbody : c.body = .condition test) :
    (test.mode = .numeric →
      ∃ e, Denotes test.comparand.2 e ∧
        ∀ actual, test.holds actual = true ↔ ∃ a, Denotes actual.toList a ∧ test.comparand.1.holds a e = true) ∧
    (test.mode = .boolean →
      ∃ b, readBool test.expected.toList = some b ∧
        ∀ actual, test.holds actual = true ↔ readBool actual.toList = some b) ∧
    ('\n' ∉ test.expected.toList →
      (test.mode = .boolean ↔ test.expected = "true" ∨ test.expected = "false") ∧
      (test.mode = .numeric ↔ Numeric test.expected.toList) ∧
      (test.mode = .exact ↔
        ¬ (test.expected = "true" ∨ test.expected = "false") ∧ ¬ Numeric test.expected.toList)) ∧
    (test.mode = .numeric → test.HasNoOperator →
      ∀ line var label, trimmed var ≠ "" → trimmed label ≠ "" →
        ∃ d other, Command.ofTokens line ["@if", var, "=" ++ test.expected, label] = .ok d ∧
          d.body = .condition other ∧ other.mode = .numeric ∧ other.expected = "=" ++ test.expected ∧
          ∀ actual, other.holds actual = test.holds actual) := by
  have hchecked := checked_of_accepted haccepted hbody
  refine ⟨hchecked.numeric, hchecked.boolean, fun hline => ?_, fun hmode hoperator line var label hvar hlabel => ?_⟩
  · exact ⟨hchecked.suits.boolean_iff, hchecked.numeric_iff hline, hchecked.exact_iff hline⟩
  · refine ⟨_, test.withEqual (trimmed var) (trimmed label), hchecked.accepts_withEqual hmode hoperator line hvar hlabel,
      rfl, rfl, rfl, fun actual => ?_⟩
    obtain ⟨-, hone⟩ := hchecked.isNumber_of_hasNoOperator hmode hoperator
    rw [holds_numeric rfl, holds_numeric hmode, hchecked.comparand_withEqual hoperator hone]

/-- A number with a separator of digits, between blanks. -/
theorem compared_as_classified_separated :
    let test : Condition := ⟨"score", "2_0", "won", .numeric⟩
    Command.ofTokens (.whole 0) ["@if", "score", " 2_0 ", "won"] =
      .ok ⟨.whole 0, ["@if", "score", "2_0", "won"], .condition test⟩ ∧
    (∃ e, Denotes test.comparand.2 e ∧
      ∀ actual, test.holds actual = true ↔ ∃ a, Denotes actual.toList a ∧ test.comparand.1.holds a e = true) ∧
    Numeric test.expected.toList ∧
    ∃ d other, Command.ofTokens (.whole 1) ["@if", "score", "=2_0", "won"] = .ok d ∧
      d.body = .condition other ∧ other.mode = .numeric ∧ other.expected = "=2_0" ∧
      ∀ actual, other.holds actual = test.holds actual := by
  intro test
  have haccepted : Command.ofTokens (.whole 0) ["@if", "score", " 2_0 ", "won"] =
      .ok ⟨.whole 0, ["@if", "score", "2_0", "won"], .condition test⟩ := by rfl
  obtain ⟨hnumeric, -, hclass, hequal⟩ := compared_as_classified haccepted rfl
  -- a digit in front is no operator
  have hoperator : test.HasNoOperator := by
    intro c hc operand heq
    rw [show test.expected.toList = ['2', '_', '0'] by decide] at heq
    cases heq
    exact absurd hc (by decide)
  exact ⟨haccepted, hnumeric rfl, (hclass (by decide)).2.1.mp rfl,
    hequal rfl hoperator (.whole 1) "score" "won" (by decide +kernel) (by decide +kernel)⟩

end Condition

end ChatScene

/-
  The grammar of commands.

  What a line has to look like is said here without any reference to how it is read: `Form args body` has one rule for
  each of the seven forms of commands, and a rule gives the fields as well.

  1. **Comparisons** — an operator with something after it on the same line (`Compares`), which has to be a finite
     number (`isBrokenComparison_eq_false_iff`); and how an expected value is compared (`Mode.ofExpected_suits`).

  2. **The kinds** — what the rules of each kind accept, as a condition on the tokens after the keyword:
     `ofTokens_text_iff`, `oneName_eq_ok_iff`, `ofTokens_choice_iff`, `ofTokens_condition_iff` and `ofTokens_wait_iff`.
     Together these are the forms (`form_iff`).

  3. **Commands** — a line is accepted if and only if its trimmed tokens have one of seven forms, and the form gives the
     fields (`ofTokens_eq_ok_iff_form`).  A line that is refused is blamed with its number, the kind that its keyword
     names and its trimmed tokens (`Blames`).

  4. **Main result** (`accepts_exactly_the_forms`) — these, and that blanks around tokens never matter.
-/
import ChatScene.Proofs.Language
import ChatScene.Proofs.Numerals

namespace ChatScene

open ChatScene.Text ChatScene.Decimal

/-! ## Comparisons -/

/-- The text stands for a finite number. -/
def IsNumber (cs : List Char) : Prop := ∃ x, Denotes cs x

/-- `Compares expected operand` — an operator and, on the same line, something after it. -/
structure Compares (expected operand : List Char) : Prop where
  operator : ∃ c ∈ ['>', '<', '='], expected = c :: operand
  ne_nil : operand ≠ []
  same_line : '\n' ∉ operand

/-- How an expected value is compared: `true` and `false` as truth values, finite numbers and operators before finite
    numbers as numbers, and everything else exactly. -/
structure Mode.Suits (mode : Mode) (expected : String) : Prop where
  boolean_iff : mode = .boolean ↔ expected = "true" ∨ expected = "false"
  numeric_iff : mode = .numeric ↔
    IsNumber expected.toList ∨ ∃ operand, Compares expected.toList operand ∧ IsNumber operand

/-- A finite number (`IsNumber`) can be read just from the texts that stand for one. -/
theorem readFinite_isSome_iff {cs : List Char} : (readFinite cs).isSome ↔ IsNumber cs := by
  simp only [Option.isSome_iff_exists, IsNumber, readFinite_eq_some_iff]

theorem Operator.ofChar?_isSome_iff {c : Char} : (Operator.ofChar? c).isSome ↔ c ∈ ['>', '<', '='] := by
  unfold Operator.ofChar?
  split_ifs <;> simp_all

/-- An operator is split off just where something follows it, without a line break. -/
theorem comparison?_eq_some_iff {expected operand : List Char} {op : Operator} :
    comparison? expected = some (op, operand) ↔
      ∃ c, Operator.ofChar? c = some op ∧ expected = c :: operand ∧ operand ≠ [] ∧ '\n' ∉ operand := by
  cases expected with
  | nil => simp [comparison?]
  | cons c rest =>
    -- without something on the same line there is no comparison at all
    by_cases hrest : rest = [] ∨ '\n' ∈ rest
    · have hnone : comparison? (c :: rest) = none := by
        rcases hrest with rfl | hrest <;> simp [comparison?, *]
      rw [hnone]
      constructor
      · intro h
        cases h
      · rintro ⟨d, -, heq, hne, hline⟩
        cases heq
        exact absurd hrest (by simp [hne, hline])
    · rw [not_or] at hrest
      have hsome : comparison? (c :: rest) = (Operator.ofChar? c).map (·, rest) := by
        simp [comparison?, hrest]
      rw [hsome, Option.map_eq_some_iff]
      constructor
      · rintro ⟨op', hop, heq⟩
        cases heq
        exact ⟨c, hop, rfl, hrest⟩
      · rintro ⟨d, hop, heq, -⟩
        cases heq
        exact ⟨op, hop, rfl⟩

/-- So what is split off is a comparison (`Compares`), whatever the operator. -/
theorem exists_comparison?_iff {expected operand : List Char} :
    (∃ op, comparison? expected = some (op, operand)) ↔ Compares expected operand := by
  simp only [comparison?_eq_some_iff]
  constructor
  · rintro ⟨op, c, hop, heq, hne, hline⟩
    exact ⟨⟨c, Operator.ofChar?_isSome_iff.mp (by simp [hop]), heq⟩, hne, hline⟩
  · rintro ⟨⟨c, hc, heq⟩, hne, hline⟩
    obtain ⟨op, hop⟩ := Option.isSome_iff_exists.mp (Operator.ofChar?_isSome_iff.mpr hc)
    exact ⟨op, c, hop, heq, hne, hline⟩

theorem comparison?_isSome_iff {expected : List Char} :
    (comparison? expected).isSome ↔ ∃ operand, Compares expected operand := by
  simp only [← exists_comparison?_iff, Option.isSome_iff_exists, Prod.exists]
  exact exists_comm

/-- A comparison is broken if its operand is no finite number (`IsNumber`). -/
theorem isBrokenComparison_eq_false_iff {expected : List Char} :
    isBrokenComparison expected = false ↔ ∀ operand, Compares expected operand → IsNumber operand := by
  simp only [← exists_comparison?_iff, ← readFinite_isSome_iff]
  unfold isBrokenComparison
  split
  · rename_i op operand hcomparison
    simp [hcomparison]
  · rename_i hnone
    simp [hnone]

/-- There is only one way in which an expected value is compared. -/
theorem Mode.Suits.unique {mode other : Mode} {expected : String} (h : mode.Suits expected)
    (h' : other.Suits expected) :
    mode = other := by
  have hboolean := h.boolean_iff.trans h'.boolean_iff.symm
  have hnumeric := h.numeric_iff.trans h'.numeric_iff.symm
  cases mode <;> cases other <;> simp_all

/-- The two words are neither numbers (`IsNumber`) nor comparisons (`Compares`), so the three ways do not overlap. -/
theorem not_numeric_of_word {expected : String} (h : expected = "true" ∨ expected = "false") :
    ¬ IsNumber expected.toList ∧ ∀ operand, ¬ Compares expected.toList operand := by
  rw [← readFinite_isSome_iff, ← not_exists, ← comparison?_isSome_iff]
  rcases h with rfl | rfl <;> decide +kernel

/-- The way that is chosen is the one that suits (`Mode.Suits`), if no comparison is broken. -/
theorem Mode.ofExpected_suits {expected : String}
    (h : ∀ operand, Compares expected.toList operand → IsNumber operand) : (Mode.ofExpected expected).Suits expected :=
  by
  -- what is split off or read is numeric, since comparisons with anything but numbers are excluded
  have hsplit : (comparison? expected.toList).isSome || (readFinite expected.toList).isSome ↔
      IsNumber expected.toList ∨ ∃ operand, Compares expected.toList operand ∧ IsNumber operand := by
    rw [Bool.or_eq_true, comparison?_isSome_iff, readFinite_isSome_iff, or_comm]
    refine or_congr_right (exists_congr fun operand => ?_)
    exact ⟨fun hc => ⟨hc, h operand hc⟩, And.left⟩
  unfold Mode.ofExpected
  by_cases hword : expected = "true" ∨ expected = "false"
  · -- the two words are no numbers, so only one mode is possible
    obtain ⟨hnumber, hcompares⟩ := not_numeric_of_word hword
    simp only [hword, if_true]
    exact ⟨by simp [hword], by simp [hnumber, hcompares]⟩
  · simp only [hword, if_false]
    split
    · rename_i hnumeric
      exact ⟨by simp [hword], by simp [hsplit.mp hnumeric]⟩
    · rename_i hnumeric
      exact ⟨by simp [hword], by simp [mt hsplit.mpr hnumeric]⟩

/-! ## The kinds -/

/-- The keywords with their kinds. -/
def keywords : List (String × Kind) :=
  [("@text", .text), ("@image", .image), ("@choice", .choice), ("@if", .condition), ("@label", .label),
   ("@wait", .wait), ("@goto", .jump)]

/-- The table of keywords is what `Kind.ofKeyword` knows. -/
theorem Kind.mem_keywords_iff {keyword : String} {kind : Kind} :
    (keyword, kind) ∈ keywords ↔ Kind.ofKeyword keyword = kind ∧ kind ≠ .unknown := by
  unfold Kind.ofKeyword
  split_ifs <;> cases kind <;> simp_all [keywords]

namespace Body

variable {tokens : List String} {body : Body}

/-- A text is not blank; its tokens are put together again with commas. -/
theorem ofTokens_text_iff :
    Body.ofTokens .text tokens = .ok body ↔
      tokens ≠ [] ∧ trimmed (commaList tokens) ≠ "" ∧ body = .text (commaList tokens) := by
  simp only [ne_eq, trimmed_eq_empty_iff, Body.ofTokens]
  split_ifs with hempty hblank
  · simp [List.isEmpty_iff.mp hempty]
  · simp [hblank]
  · simp [List.isEmpty_iff.not.mp hempty, hblank, eq_comm]

/-- Images, labels and jumps have one token, which is a name. -/
theorem oneName_eq_ok_iff {slot : Slot} {make : String → Body} :
    oneName slot make tokens = .ok body ↔ ∃ name, tokens = [name] ∧ name ≠ "" ∧ body = make name := by
  unfold oneName
  split
  · rename_i name
    by_cases hname : name = ""
    · simp [hname]
    · simp [hname, eq_comm]
  · rename_i htokens
    constructor
    · intro h
      cases h
    · rintro ⟨name, rfl, -⟩
      exact absurd rfl (htokens name)

/-- No choice is empty just when none is found to be. -/
theorem emptyChoice?_eq_none_iff {n : Nat} {choices : List String} : emptyChoice? n choices = none ↔ "" ∉ choices := by
  induction choices generalizing n with
  | nil => simp [emptyChoice?]
  | cons c cs ih =>
    by_cases hc : c = ""
    · simp [emptyChoice?, hc]
    · simp [emptyChoice?, hc, ih, eq_comm]

/-- A choice has a variable and two or three answers, none of them empty. -/
theorem ofTokens_choice_iff :
    Body.ofTokens .choice tokens = .ok body ↔
      ∃ var choices, tokens = var :: choices ∧ (choices.length = 2 ∨ choices.length = 3) ∧ "" ∉ var :: choices ∧
        body = .choice var choices := by
  cases tokens with
  | nil => simp [Body.ofTokens]
  | cons var choices =>
    by_cases hlength : choices.length = 2 ∨ choices.length = 3
    · by_cases hvar : var = ""
      · simp [Body.ofTokens, hlength, hvar]
      · -- the refusal names the first empty choice, if there is one
        cases hempty : emptyChoice? 1 choices with
        | some n =>
          have hmem : "" ∈ choices := by
            by_contra hno
            rw [emptyChoice?_eq_none_iff.mpr hno] at hempty
            cases hempty
          simp [Body.ofTokens, hlength, hvar, hempty, hmem]
        | none =>
          have hno := emptyChoice?_eq_none_iff.mp hempty
          simp [Body.ofTokens, hlength, hvar, hempty, hno, eq_comm]
    · simp [Body.ofTokens, hlength]

/-- A condition has a variable, an expected value and a label, and if the value is a comparison (`Compares`) it is with
    a number. -/
theorem ofTokens_condition_iff :
    Body.ofTokens .condition tokens = .ok body ↔
      ∃ var expected label, tokens = [var, expected, label] ∧ "" ∉ [var, expected, label] ∧
        (∀ operand, Compares expected.toList operand → IsNumber operand) ∧
        body = .condition ⟨var, expected, label, Mode.ofExpected expected⟩ := by
  simp only [← isBrokenComparison_eq_false_iff, Body.ofTokens]
  split
  · rename_i var expected label
    -- the four refusals come in this order
    split_ifs with hvar hexpected hlabel hbroken
    · simp [hvar]
    · simp [hexpected]
    · simp [hlabel]
    · simp [hbroken]
    · have hempty : "" ∉ [var, expected, label] := by simp [eq_comm, hvar, hexpected, hlabel]
      constructor
      · intro h
        cases h
        exact ⟨var, expected, label, rfl, hempty, Bool.eq_false_iff.mpr hbroken, rfl⟩
      · rintro ⟨_, _, _, ⟨rfl, rfl, rfl⟩, -, -, rfl⟩
        rfl
  · rename_i htokens
    constructor
    · intro h
      cases h
    · rintro ⟨var, expected, label, rfl, -⟩
      exact absurd rfl (htokens var expected label)

/-- A wait has a number of seconds, more than zero and at most five. -/
theorem ofTokens_wait_iff :
    Body.ofTokens .wait tokens = .ok body ↔
      ∃ text s, tokens = [text] ∧ Denotes text.toList s ∧ 0 < s ∧ s ≤ 5 ∧ body = .wait s := by
  -- what a text denotes is what is read from it
  simp only [← readFinite_eq_some_iff, Body.ofTokens]
  split
  · rename_i text
    constructor
    · intro h
      split at h
      · rename_i s hs
        split at h
        · rename_i hrange
          cases h
          simp only [Bool.and_eq_true, decide_eq_true_eq] at hrange
          exact ⟨text, s, rfl, hs, hrange.1, hrange.2, rfl⟩
        · cases h
      · cases h
    · rintro ⟨_, s, ⟨rfl⟩, hs, hpos, hle, rfl⟩
      have hrange : (decide (0 < s) && decide (s ≤ maxWait)) = true := by
        simp only [Bool.and_eq_true, decide_eq_true_eq]
        exact ⟨hpos, hle⟩
      simp only [hs, hrange, if_true]
  · rename_i htokens
    constructor
    · intro h
      cases h
    · rintro ⟨text, s, rfl, -⟩
      exact absurd rfl (htokens text)

end Body

/-! ## Commands -/

namespace Command

/-- The forms of commands: trimmed tokens, the keyword first, and the fields that they give. -/
inductive Form : List String → Body → Prop where
  | text {tokens : List String} : tokens ≠ [] → trimmed (commaList tokens) ≠ "" →
      Form ("@text" :: tokens) (.text (commaList tokens))
  | image {name : String} : name ≠ "" → Form ["@image", name] (.image name)
  | choice {var : String} {choices : List String} : choices.length = 2 ∨ choices.length = 3 → "" ∉ var :: choices →
      Form ("@choice" :: var :: choices) (.choice var choices)
  | condition {var expected label : String} {mode : Mode} : "" ∉ [var, expected, label] →
      (∀ operand, Compares expected.toList operand → IsNumber operand) → mode.Suits expected →
      Form ["@if", var, expected, label] (.condition ⟨var, expected, label, mode⟩)
  | label {name : String} : name ≠ "" → Form ["@label", name] (.label name)
  | wait {text : String} {s : Float} : Denotes text.toList s → 0 < s → s ≤ 5 → Form ["@wait", text] (.wait s)
  | jump {label : String} : label ≠ "" → Form ["@goto", label] (.jump label)

/-- The forms (`Form`) are what the rules of the kinds accept after their keywords: one case for each keyword, in both
    directions. -/
theorem form_iff {args : List String} {body : Body} :
    Form args body ↔
      ∃ keyword kind, args.head? = some keyword ∧ (keyword, kind) ∈ keywords ∧
        Body.ofTokens kind args.tail = .ok body := by
  constructor
  · intro h
    cases h with
    | text hne hblank => exact ⟨"@text", .text, rfl, by simp [keywords], Body.ofTokens_text_iff.mpr ⟨hne, hblank, rfl⟩⟩
    | image hname =>
      exact ⟨"@image", .image, rfl, by simp [keywords], Body.oneName_eq_ok_iff.mpr ⟨_, rfl, hname, rfl⟩⟩
    | choice hlength hempty =>
      exact ⟨"@choice", .choice, rfl, by simp [keywords],
        Body.ofTokens_choice_iff.mpr ⟨_, _, rfl, hlength, hempty, rfl⟩⟩
    | condition hempty hnumber hmode =>
      -- the form says how the value is compared without saying how that is found out
      obtain rfl := hmode.unique (Mode.ofExpected_suits hnumber)
      exact ⟨"@if", .condition, rfl, by simp [keywords],
        Body.ofTokens_condition_iff.mpr ⟨_, _, _, rfl, hempty, hnumber, rfl⟩⟩
    | label hname =>
      exact ⟨"@label", .label, rfl, by simp [keywords], Body.oneName_eq_ok_iff.mpr ⟨_, rfl, hname, rfl⟩⟩
    | wait hs hpos hle =>
      exact ⟨"@wait", .wait, rfl, by simp [keywords], Body.ofTokens_wait_iff.mpr ⟨_, _, rfl, hs, hpos, hle, rfl⟩⟩
    | jump hlabel =>
      exact ⟨"@goto", .jump, rfl, by simp [keywords], Body.oneName_eq_ok_iff.mpr ⟨_, rfl, hlabel, rfl⟩⟩
  · rintro ⟨keyword, kind, hhead, hmem, hbody⟩
    obtain ⟨tokens, rfl⟩ := List.head?_eq_some_iff.mp hhead
    rw [List.tail_cons] at hbody
    -- one case for each keyword, in the order of the list
    simp only [keywords, List.mem_cons, Prod.mk.injEq, List.not_mem_nil, or_false] at hmem
    rcases hmem with ⟨rfl, rfl⟩ | ⟨rfl, rfl⟩ | ⟨rfl, rfl⟩ | ⟨rfl, rfl⟩ | ⟨rfl, rfl⟩ | ⟨rfl, rfl⟩ | ⟨rfl, rfl⟩
    · obtain ⟨hne, hblank, rfl⟩ := Body.ofTokens_text_iff.mp hbody
      exact .text hne hblank
    · obtain ⟨name, rfl, hname, rfl⟩ := Body.oneName_eq_ok_iff.mp hbody
      exact .image hname
    · obtain ⟨var, choices, rfl, hlength, hempty, rfl⟩ := Body.ofTokens_choice_iff.mp hbody
      exact .choice hlength hempty
    · obtain ⟨var, expected, label, rfl, hempty, hnumber, rfl⟩ := Body.ofTokens_condition_iff.mp hbody
      exact .condition hempty hnumber (Mode.ofExpected_suits hnumber)
    · obtain ⟨name, rfl, hname, rfl⟩ := Body.oneName_eq_ok_iff.mp hbody
      exact .label hname
    · obtain ⟨text, s, rfl, hs, hpos, hle, rfl⟩ := Body.ofTokens_wait_iff.mp hbody
      exact .wait hs hpos hle
    · obtain ⟨label, rfl, hlabel, rfl⟩ := Body.oneName_eq_ok_iff.mp hbody
      exact .jump hlabel

/-- `Names args kind` — the kind that the first token names; the unknown kind when it is no keyword, or when there is
    no token. -/
def Names (args : List String) (kind : Kind) : Prop :=
  (∃ keyword, args.head? = some keyword ∧ (keyword, kind) ∈ keywords) ∨
    kind = .unknown ∧ ∀ keyword, args.head? = some keyword → ∀ other, (keyword, other) ∉ keywords

/-- The kind of a line is the one that its first token names. -/
theorem names_kindOf (tokens : List String) : Names (tokens.map trimmed) (kindOf tokens) := by
  unfold kindOf
  cases tokens.map trimmed with
  | nil => exact .inr ⟨rfl, by simp⟩
  | cons keyword args =>
    by_cases hunknown : Kind.ofKeyword keyword = .unknown
    · refine .inr ⟨hunknown, fun other hother kind hmem => ?_⟩
      cases hother
      obtain ⟨rfl, hkind⟩ := Kind.mem_keywords_iff.mp hmem
      exact hkind hunknown
    · exact .inl ⟨keyword, rfl, Kind.mem_keywords_iff.mpr ⟨rfl, hunknown⟩⟩

/-- A known kind needs its keyword, and that comes first. -/
theorem kindOf_eq_iff {tokens : List String} {kind : Kind} (h : kind ≠ .unknown) :
    kindOf tokens = kind ↔ ∃ keyword, (tokens.map trimmed).head? = some keyword ∧ (keyword, kind) ∈ keywords := by
  constructor
  · rintro rfl
    rcases names_kindOf tokens with hnamed | ⟨hunknown, -⟩
    · exact hnamed
    · exact absurd hunknown h
  · rintro ⟨keyword, hhead, hmem⟩
    rw [kindOf, List.headD_eq_head?_getD, hhead]
    exact (Kind.mem_keywords_iff.mp hmem).1

/-- Accepted lines have one of the forms (`Form`), after their tokens have been trimmed. -/
theorem ofTokens_eq_ok_iff_form {line : Line} {tokens : List String} {c : Command} :
    Command.ofTokens line tokens = .ok c ↔
      c.line = line ∧ c.args = tokens.map trimmed ∧ Form (tokens.map trimmed) c.body := by
  rw [ofTokens_eq_ok_iff, form_iff]
  constructor
  · rintro ⟨hkind, hline, hargs, hbody⟩
    obtain ⟨keyword, hhead, hmem⟩ := (kindOf_eq_iff hkind).mp rfl
    exact ⟨hline, hargs, keyword, kindOf tokens, hhead, hmem, hbody⟩
  · rintro ⟨hline, hargs, keyword, kind, hhead, hmem, hbody⟩
    have hkind : kind ≠ .unknown := (Kind.mem_keywords_iff.mp hmem).2
    obtain rfl := (kindOf_eq_iff hkind).mpr ⟨keyword, hhead, hmem⟩
    exact ⟨hkind, hline, hargs, hbody⟩

/-- `Blames e line args` — what a refusal tells of a line and its trimmed tokens. -/
structure Blames (e : CommandError) (line : Line) (args : List String) : Prop where
  line_eq : e.line = line
  kind_named : Names args e.kind
  args_eq : e.args = args
  /-- The text ends in the tokens. -/
  message_eq : e.message = e.reason ++ "\nInvalid command at line " ++ line.text ++ " of type " ++ e.kind.name ++
    " with args: " ++ commaList args

/-- A refusal (`Blames`) tells of the line, its kind and its tokens, whatever is wrong with it. -/
theorem blames_of_error {line : Line} {tokens : List String} {e : CommandError}
    (h : Command.ofTokens line tokens = .error e) : Blames e line (tokens.map trimmed) := by
  obtain ⟨hline, hkind, hargs⟩ := ofTokens_eq_error h
  refine ⟨hline, hkind ▸ names_kindOf tokens, hargs, ?_⟩
  rw [← hline, ← hargs]
  rfl

/-- A line is accepted if and only if its trimmed tokens have one of the forms (`Form`).  The command then has the
    number of the line, the trimmed tokens and the fields of the form.  A line that is refused is blamed (`Blames`)
    with its number, the kind that the keyword names and the trimmed tokens.  Blanks around tokens make no
    difference. -/
theorem accepts_exactly_the_forms (line : Line) (tokens : List String) :
    ((∃ c, Command.ofTokens line tokens = .ok c) ↔ ∃ body, Form (tokens.map trimmed) body) ∧
    (∀ c, Command.ofTokens line tokens = .ok c ↔
      c.line = line ∧ c.args = tokens.map trimmed ∧ Form (tokens.map trimmed) c.body) ∧
    (∀ e, Command.ofTokens line tokens = .error e → Blames e line (tokens.map trimmed)) ∧
    ∀ others, others.map trimmed = tokens.map trimmed → Command.ofTokens line others = Command.ofTokens line tokens := by
  refine ⟨?_, fun c => ofTokens_eq_ok_iff_form, fun e => blames_of_error, fun others hsame => ?_⟩
  · constructor
    · rintro ⟨c, hc⟩
      exact ⟨c.body, (ofTokens_eq_ok_iff_form.mp hc).2.2⟩
    · rintro ⟨body, hbody⟩
      exact ⟨⟨line, tokens.map trimmed, body⟩, ofTokens_eq_ok_iff_form.mpr ⟨rfl, rfl, hbody⟩⟩
  · rw [← ofTokens_trimmed line others, hsame, ofTokens_trimmed]

end Command

end ChatScene

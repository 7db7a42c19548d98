/-
  Documents that have been written are read back.

  The writer puts each item of a list and each member of an object on a line of its own, with as many blanks in front
  as the value is deep.  The reader takes fuel and a number of levels that it may still go down.  So the statements
  about it are for any fuel that is at least as much as there are characters, any depth, and any text that may follow.

  1. **Texts** — a character inside a text is read back from its escape (`textUnit_escaped`), so the reader finds the
     closing quote where the writer has put it (`readText_writeText`).

  2. **Numbers** — the digits of a whole number are read back when what follows does not carry the number on (`Ends`);
     this is `readPlain_int`.

  3. **Values** — `readValue_write`, by induction on the fuel, together with `readItems_write` and `readMembers_write`:
     every value is read back, and the reader stops right after it.

  4. **Refused texts** — the two limits of the reader: a whole number with too many digits (`parse_tooManyDigits`), and
     lists that are nested too deep (`parse_tooDeep`).

  5. **Line ends** — no carriage return is ever written (`return_not_mem_write`), so the text is not changed when it is
     read from a file.

  `parse_render` is the result: `Json.parse levels (render j) = .ok j` for every `j` with `j.Readable levels`.
  Documents with doubles are left out, and so are those that the reader refuses or changes: those beyond its two
  limits, halves of characters, of which two may make a pair, and objects with two members of one name, of which the
  reader would keep one.
-/
import Mathlib.Algebra.GroupWithZero.Nat
import Mathlib.Data.List.Nodup
import ChatScene.Json.Reader
import ChatScene.Json.Writer

namespace ChatScene.Json

open ChatScene.Text

/-! ## Texts -/

theorem hexQuad_append {cs left : List Char} {n : Nat} (h : hexQuad cs = some (n, left)) (rest : List Char) :
    hexQuad (cs ++ rest) = some (n, left ++ rest) := by
  match cs with
  | a :: b :: c :: d :: more =>
    simp only [List.cons_append, hexQuad] at h ⊢
    split at h
    · simp_all
    · cases h
  | [] | [_] | [_, _] | [_, _, _] => cases h

/-- The four digits of a control character are read back. -/
theorem hexQuad_hexText : ∀ n < 0x20, hexQuad (hexText 4 n).toList = some (n, []) := by decide

/-- A control character is read back from its four digits (`hexText`).  It is no half of a pair, so the reader does not
    look for another escape; but the text must go on. -/
theorem unicodeEscape_hexText {n : Nat} (hn : n < 0x20) {rest : List Char} (hrest : rest ≠ []) :
    unicodeEscape ((hexText 4 n).toList ++ rest) = .ok (.char (Char.ofNat n), rest) := by
  have hquad := hexQuad_append (hexQuad_hexText n hn) rest
  have hhigh : isHighHalf n = false := by simp [isHighHalf]; omega
  have hpoint : pointOf n = .char (Char.ofNat n) := dif_neg (by omega)
  rw [unicodeEscape, hquad, List.nil_append]
  cases rest with
  | nil => exact absurd rfl hrest
  | cons c rest =>
    simp only [hhigh, hpoint, Bool.false_and, Bool.false_eq_true, if_false]
    split <;> rfl

/-- A character of a text is read back from what is written for it. -/
theorem textUnit_escaped (opened : List Char) (c : Char) {rest : List Char} (hrest : rest ≠ []) :
    textUnit opened (escaped c ++ rest) = .ok (some (.char c), rest) := by
  rw [escaped]
  split_ifs with hquote hslash hfeed hreturn htab hback hform hcontrol
  all_goals try (subst_vars; rfl)
  · simp only [List.cons_append, textUnit]
    rw [unicodeEscape_hexText hcontrol hrest]
    simp [Except.map]
  · simp [textUnit, hquote, hslash, hcontrol]

/-- The characters of a text (`escaped`) are read back up to the closing quote, by induction on them. -/
theorem readPoints_escaped (opened cs rest : List Char) {fuel : Nat} (hfuel : cs.length < fuel) :
    readPoints opened fuel (cs.flatMap escaped ++ '"' :: rest) = .ok (cs.map .char, rest) := by
  induction cs generalizing fuel with
  | nil =>
    obtain ⟨fuel, rfl⟩ := Nat.exists_eq_add_one_of_ne_zero (Nat.ne_of_gt hfuel)
    rfl
  | cons c cs ih =>
    obtain ⟨fuel, rfl⟩ := Nat.exists_eq_add_one_of_ne_zero (Nat.ne_of_gt (Nat.zero_lt_of_lt hfuel))
    rw [readPoints, List.flatMap_cons, List.append_assoc, textUnit_escaped _ _ (by simp)]
    simp only
    rw [ih (Nat.lt_of_succ_lt_succ hfuel)]
    rfl

/-- An escape is at least as long as what it stands for, so the length of the written text is fuel enough for
    `readPoints`. -/
theorem length_le_flatMap_escaped (cs : List Char) : cs.length ≤ (cs.flatMap escaped).length := by
  induction cs with
  | nil => exact Nat.le_refl 0
  | cons c cs ih =>
    have hc : 1 ≤ (escaped c).length := by
      rw [escaped]
      split_ifs <;> simp
    rw [List.flatMap_cons, List.length_append, List.length_cons]
    omega

theorem writeText_ofString (s : String) : writeText s = '"' :: s.toList.flatMap escaped ++ ['"'] := by
  rw [writeText, ofString, List.flatMap_map]
  rfl

theorem readText_writeText (s : String) (rest : List Char) {fuel : Nat} (hfuel : (writeText s).length ≤ fuel + 1) :
    readText fuel (s.toList.flatMap escaped ++ '"' :: rest) = .ok (ofString s, rest) := by
  have hlength := length_le_flatMap_escaped s.toList
  simp only [writeText_ofString, List.length_append, List.length_cons, List.length_nil] at hfuel
  exact readPoints_escaped _ _ _ (by omega)

/-! ## Numbers -/

/-- What does not carry a number on: nothing, or what the writer puts after a value. -/
def Ends (rest : List Char) : Prop := rest = [] ∨ ∃ more, rest = ',' :: more ∨ rest = '\n' :: more

/-- The values of digits. -/
def digitValues (ds : List Char) : List Nat := ds.map fun c => c.toNat - '0'.toNat

theorem asciiDigit?_of_isDigit {c : Char} (h : c.isDigit = true) : asciiDigit? c = some (c.toNat - '0'.toNat) := by
  have hbounds : 0x30 ≤ c.toNat ∧ c.toNat ≤ 0x39 := Char.isDigit_iff_toNat.mp h
  simp [asciiDigit?, hbounds]

/-- All digits are taken, and nothing of what follows. -/
theorem spanDigits_append {ds rest : List Char} (hds : ∀ c ∈ ds, c.isDigit = true) (hrest : Ends rest) :
    spanDigits (ds ++ rest) = (digitValues ds, rest) := by
  induction ds with
  | nil =>
    obtain rfl | ⟨more, rfl | rfl⟩ := hrest <;> rfl
  | cons c ds ih =>
    rw [List.forall_mem_cons] at hds
    rw [List.cons_append, spanDigits, asciiDigit?_of_isDigit hds.1]
    simp only
    rw [ih hds.2]
    rfl

/-- There is no fraction where a number ends (`Ends`). -/
theorem fractionPart_of_ends {rest : List Char} (h : Ends rest) : fractionPart rest = ([], rest) := by
  obtain rfl | ⟨more, rfl | rfl⟩ := h <;> rfl

theorem exponentPart_of_ends {rest : List Char} (h : Ends rest) : exponentPart rest = (none, rest) := by
  obtain rfl | ⟨more, rfl | rfl⟩ := h <;> rfl

/-- A number is written without a zero in front, but for zero itself; the reader would take no other digit after a
    zero. -/
theorem toDigits_cases (n : Nat) :
    Nat.toDigits 10 n = ['0'] ∨ ∃ c ds, Nat.toDigits 10 n = c :: ds ∧ c ≠ '0' := by
  induction n using Nat.strongRecOn with
  | ind n ih =>
    by_cases hsmall : n < 10
    · have hdigit : ∀ d < 10, Nat.digitChar d = '0' ∨ Nat.digitChar d ≠ '0' := by decide
      rw [Nat.toDigits_of_lt_base hsmall]
      obtain hzero | hne := hdigit n hsmall
      · exact .inl (by rw [hzero])
      · exact .inr ⟨_, [], rfl, hne⟩
    · rw [Nat.toDigits_of_base_le (by decide) (Nat.le_of_not_lt hsmall)]
      obtain hzero | ⟨c, ds, hcons, hc⟩ := ih (n / 10) (by omega)
      · have hten : n / 10 = Nat.ofDigitChars 10 ['0'] 0 := by rw [← hzero, Nat.ofDigitChars_ten_toDigits]
        have : n / 10 = 0 := hten
        omega
      · rw [hcons]
        exact .inr ⟨c, ds ++ _, rfl, hc⟩

theorem ofDigits_digitValues (n : Nat) : ofDigits (digitValues (Nat.toDigits 10 n)) = n := by
  rw [ofDigits, digitValues, List.foldl_map]
  exact Nat.ofDigitChars_ten_toDigits

theorem isDigit_toDigits {n : Nat} {c : Char} (h : c ∈ Nat.toDigits 10 n) : c.isDigit = true :=
  Nat.isDigit_of_mem_toDigits (by decide) (by decide) h

/-- The digits of a number are read as its whole part. -/
theorem wholePart_toDigits (n : Nat) {rest : List Char} (hrest : Ends rest) :
    wholePart (Nat.toDigits 10 n ++ rest) = some (digitValues (Nat.toDigits 10 n), rest) := by
  have hspan := spanDigits_append (fun _ => isDigit_toDigits (n := n)) hrest
  obtain hzero | ⟨c, ds, hcons, hc⟩ := toDigits_cases n
  · rw [hzero]
    rfl
  · rw [hcons] at hspan ⊢
    rw [wholePart.eq_def]
    split
    · rename_i heq
      exact absurd (List.cons.inj heq).1 hc
    · rw [hspan]
      rfl

/-- The first character of a number is a digit. -/
theorem exists_toDigits_eq_cons (n : Nat) : ∃ c ds, Nat.toDigits 10 n = c :: ds ∧ c.isDigit = true := by
  cases hdigits : Nat.toDigits 10 n with
  | nil => exact absurd hdigits Nat.toDigits_ne_nil
  | cons c ds => exact ⟨c, ds, rfl, isDigit_toDigits (n := n) (by rw [hdigits]; exact List.mem_cons_self)⟩

theorem takeMinus_of_isDigit {c : Char} (hc : c.isDigit = true) (cs : List Char) :
    takeMinus (c :: cs) = (false, c :: cs) := by
  rw [takeMinus.eq_def]
  split
  · rename_i heq
    rw [(List.cons.inj heq).1] at hc
    cases hc
  · rfl

/-- Without a fraction and an exponent it is a whole number, if there are not too many digits. -/
theorem numberOf_toDigits {n : Nat} (hn : (Nat.toDigits 10 n).length ≤ Decimal.maxIntDigits) (negative : Bool) :
    numberOf negative (digitValues (Nat.toDigits 10 n)) [] none = .ok (.int (if negative then -n else n)) := by
  have hlength : (digitValues (Nat.toDigits 10 n)).length ≤ Decimal.maxIntDigits := by
    rwa [digitValues, List.length_map]
  rw [numberOf, if_pos (by simp), if_pos hlength, ofDigits_digitValues]

/-- The digits of a number are read back, after a sign or without one. -/
theorem readNumber_toDigits {n : Nat} (hn : (Nat.toDigits 10 n).length ≤ Decimal.maxIntDigits) {rest : List Char}
    (hrest : Ends rest) {cs : List Char} {negative : Bool}
    (hsign : takeMinus cs = (negative, Nat.toDigits 10 n ++ rest)) :
    readNumber cs = some (.ok (.int (if negative then -n else n), rest)) := by
  simp only [readNumber, hsign, wholePart_toDigits n hrest, fractionPart_of_ends hrest, exponentPart_of_ends hrest,
    numberOf_toDigits hn]
  rfl

theorem toList_toString_natCast (n : Nat) : (toString (n : Int)).toList = Nat.toDigits 10 n := by
  show (toString n).toList = _
  rw [Nat.toString_eq_ofList_toDigits, String.toList_ofList]

theorem toList_toString_negSucc (n : Nat) : (toString (Int.negSucc n)).toList = '-' :: Nat.toDigits 10 (n + 1) := by
  show ("-" ++ toString (n + 1)).toList = _
  rw [String.toList_append, Nat.toString_eq_ofList_toDigits, String.toList_ofList, String.toList_ofList,
    List.singleton_append]

/-- A whole number begins with a sign or a digit. -/
theorem exists_toString_eq_cons (n : Int) : ∃ c cs, (toString n).toList = c :: cs ∧ (c = '-' ∨ c.isDigit = true) := by
  cases n with
  | negSucc n => exact ⟨_, _, toList_toString_negSucc n, .inl rfl⟩
  | ofNat n =>
    obtain ⟨c, ds, hcons, hc⟩ := exists_toDigits_eq_cons n
    exact ⟨c, ds, (toList_toString_natCast n).trans hcons, .inr hc⟩

theorem readPlain_of_isDigit {c : Char} (hc : c.isDigit = true) (cs : List Char) :
    readPlain (c :: cs) = (readNumber (c :: cs)).getD (faultAt .expectingValue (c :: cs)) := by
  rw [readPlain.eq_def]
  split
  case h_7 => rfl
  all_goals
    rename_i heq
    rw [(List.cons.inj heq).1] at hc
    cases hc

/-- A whole number is read back, with its sign. -/
theorem readPlain_int {n : Int} (hn : (Nat.toDigits 10 n.natAbs).length ≤ Decimal.maxIntDigits) {rest : List Char}
    (hrest : Ends rest) : readPlain ((toString n).toList ++ rest) = .ok (.int n, rest) := by
  cases n with
  | ofNat n =>
    obtain ⟨c, ds, hcons, hc⟩ := exists_toDigits_eq_cons n
    have hnumber : readNumber (c :: ds ++ rest) = some (.ok (.int n, rest)) := by
      have hsign : takeMinus (c :: ds ++ rest) = (false, Nat.toDigits 10 n ++ rest) := by
        rw [hcons, List.cons_append, takeMinus_of_isDigit hc]
      exact readNumber_toDigits hn hrest hsign
    rw [show Int.ofNat n = (n : Int) from rfl, toList_toString_natCast, hcons, List.cons_append,
      readPlain_of_isDigit hc, ← List.cons_append, hnumber, Option.getD_some]
  -- a sign, which the digits of the absolute value follow
  | negSucc n =>
    obtain ⟨c, ds, hcons, hc⟩ := exists_toDigits_eq_cons (n + 1)
    have hsign : takeMinus ('-' :: (Nat.toDigits 10 (n + 1) ++ rest)) = (true, Nat.toDigits 10 (n + 1) ++ rest) := rfl
    have hnumber := readNumber_toDigits hn hrest hsign
    rw [toList_toString_negSucc, List.cons_append, readPlain.eq_def]
    split
    case h_7 => rw [hnumber, Option.getD_some]; rfl
    case h_6 =>
      rename_i heq
      rw [hcons] at heq
      rw [(List.cons.inj (List.cons.inj heq).2).1] at hc
      cases hc
    all_goals
      rename_i heq
      cases (List.cons.inj heq).1

/-! ## Values -/

mutual

/-- A document that the reader can give back: without doubles and halves of characters, with numbers that are short
    enough, with distinct names in each object, and nested for so many levels at most. -/
def Readable : Nat → Json → Prop
  | _, .null | _, .bool _ => True
  | _, .str s => IsWhole s
  | _, .int n => (Nat.toDigits 10 n.natAbs).length ≤ Decimal.maxIntDigits
  | _, .float _ => False
  | 0, .arr _ | 0, .obj _ => False
  | levels + 1, .arr items => ReadableItems levels items
  | levels + 1, .obj members => (members.map Prod.fst).Nodup ∧ ReadableMembers levels members

/-- Every item is such a document. -/
def ReadableItems : Nat → List Json → Prop
  | _, [] => True
  | levels, j :: js => Readable levels j ∧ ReadableItems levels js

/-- Every member is such a document, under a name without halves. -/
def ReadableMembers : Nat → List (Wide × Json) → Prop
  | _, [] => True
  | levels, (k, v) :: rest => (IsWhole k ∧ Readable levels v) ∧ ReadableMembers levels rest

end

/-- The recursion over the items, as a statement about all of them. -/
theorem readableItems_iff {levels : Nat} {js : List Json} : ReadableItems levels js ↔ ∀ j ∈ js, j.Readable levels := by
  induction js with
  | nil => simp [ReadableItems]
  | cons j js ih => simp [ReadableItems, ih]

theorem readableMembers_iff {levels : Nat} {ms : List (Wide × Json)} :
    ReadableMembers levels ms ↔ ∀ m ∈ ms, IsWhole m.1 ∧ m.2.Readable levels := by
  induction ms with
  | nil => simp [ReadableMembers]
  | cons m ms ih => simp [ReadableMembers, ih]

theorem readable_natCast {n : Nat} (h : n < 10 ^ Decimal.maxIntDigits) (levels : Nat) : (Json.int n).Readable levels :=
  (Nat.length_toDigits_le_iff (by decide) (by decide)).mpr h

theorem ends_comma (rest : List Char) : Ends (',' :: rest) := .inr ⟨rest, .inl rfl⟩

theorem ends_newLine (depth : Nat) (rest : List Char) : Ends (newLine depth ++ rest) := .inr ⟨_, .inr rfl⟩

/-- What may stand where a value is expected: no blank, no closing bracket and no byte order mark comes first. -/
def Begins (cs : List Char) : Prop := ∃ c more, cs = c :: more ∧ isGap c = false ∧ c ≠ ']' ∧ c.toNat < 0x80

theorem Begins.append {cs : List Char} (h : Begins cs) (rest : List Char) : Begins (cs ++ rest) := by
  obtain ⟨c, more, rfl, hc⟩ := h
  exact ⟨c, more ++ rest, rfl, hc⟩

theorem Begins.skipGap_eq {cs : List Char} (h : Begins cs) : skipGap cs = cs := by
  obtain ⟨c, more, rfl, hc, -⟩ := h
  rw [skipGap, List.dropWhile_cons_of_neg (by simp [hc])]

/-- The blanks at the beginning of a line are skipped. -/
theorem skipGap_newLine (depth : Nat) (cs : List Char) : skipGap (newLine depth ++ cs) = skipGap cs := by
  have hblanks : ∀ b ∈ newLine depth, isGap b = true := by simp [newLine, isGap]
  rw [skipGap, List.dropWhile_append_of_pos hblanks, skipGap]

theorem begins_of_isDigit {c : Char} (h : c.isDigit = true) (cs : List Char) : Begins (c :: cs) := by
  have hbounds : 0x30 ≤ c.toNat ∧ c.toNat ≤ 0x39 := Char.isDigit_iff_toNat.mp h
  refine ⟨c, cs, rfl, ?_, ?_, by omega⟩
  · rw [Bool.eq_false_iff]
    intro hgap
    simp only [isGap, Bool.or_eq_true, decide_eq_true_eq] at hgap
    obtain ((rfl | rfl) | rfl) | rfl := hgap <;> cases h
  · rintro rfl
    cases h

/-- What is written for a value may stand where a value is expected (`Begins`): there is no blank, bracket or mark in
    front of it. -/
theorem begins_write (depth : Nat) {levels : Nat} {j : Json} (hj : j.Readable levels) : Begins (write depth j) := by
  cases j with
  | null => exact ⟨_, _, rfl, by decide⟩
  | bool b => cases b <;> exact ⟨_, _, rfl, by decide⟩
  | float x => cases hj
  | str s => exact ⟨_, _, rfl, by decide⟩
  | arr items => cases items <;> exact ⟨_, _, rfl, by decide⟩
  | obj members => cases members <;> exact ⟨_, _, rfl, by decide⟩
  | int n =>
    obtain ⟨c, cs, hcons, rfl | hc⟩ := exists_toString_eq_cons n
    · exact ⟨_, cs, hcons, by decide⟩
    · rw [write, hcons]
      exact begins_of_isDigit hc cs

/-! The steps of the reader, on what the writer puts down. -/

section Steps

variable {fuel levels : Nat} {cs more rest : List Char} {item : Json} {items : List Json} {name : Wide}
  {members : List (Wide × Json)}

/-- A number is left to the reader of plain values. -/
theorem readValue_eq_readPlain {c : Char} (hc : c = '-' ∨ c.isDigit = true) :
    readValue (fuel + 1) levels (c :: cs) = readPlain (c :: cs) := by
  rw [readValue.eq_def]
  split
  · contradiction
  · rename_i heq
    cases heq
    split
    case h_4 => rfl
    all_goals
      rename_i heq
      rw [(List.cons.inj heq).1] at hc
      exact absurd hc (by decide)

theorem readValue_list (hbegins : Begins cs) (h : readItems fuel levels cs = .ok (items, rest)) (depth : Nat) :
    readValue (fuel + 1) (levels + 1) ('[' :: (newLine depth ++ cs)) = .ok (.arr items, rest) := by
  simp only [readValue, skipGap_newLine, hbegins.skipGap_eq]
  obtain ⟨c, more, rfl, -, hc, -⟩ := hbegins
  split
  · rename_i heq
    exact absurd (List.cons.inj heq).1 hc
  · rw [h]
    rfl

/-- The last item of a list, and the closing bracket on its own line. -/
theorem readItems_last (depth : Nat) (h : readValue fuel levels cs = .ok (item, newLine depth ++ ']' :: rest)) :
    readItems (fuel + 1) levels cs = .ok ([item], rest) := by
  simp only [readItems, h, skipGap_newLine]
  rfl

/-- An item that a comma follows, and the others on the next lines. -/
theorem readItems_more (depth : Nat) (h : readValue fuel levels cs = .ok (item, ',' :: (newLine depth ++ more)))
    (hbegins : Begins more) (hitems : readItems fuel levels more = .ok (items, rest)) :
    readItems (fuel + 1) levels cs = .ok (item :: items, rest) := by
  simp only [readItems, h]
  show (readItems fuel levels (skipGap (newLine depth ++ more))).map _ = _
  rw [skipGap_newLine, hbegins.skipGap_eq, hitems]
  rfl

/-- A member with a new name goes to the end. -/
theorem put_of_not_mem {v : Json} (h : name ∉ members.map Prod.fst) : put name v members = members ++ [(name, v)] := by
  induction members with
  | nil => rfl
  | cons m members ih =>
    rw [List.map_cons, List.mem_cons, not_or] at h
    rw [put, if_neg (Ne.symm h.1), ih h.2, List.cons_append]

/-- Members with distinct names are kept as they are. -/
theorem foldl_put (before : List (Wide × Json)) (h : ((before ++ members).map Prod.fst).Nodup) :
    members.foldl (fun ms (k, v) => put k v ms) before = before ++ members := by
  induction members generalizing before with
  | nil => simp
  | cons m members ih =>
    obtain ⟨name, v⟩ := m
    have hname : name ∉ before.map Prod.fst := by
      rw [List.map_append, List.map_cons, List.nodup_append'] at h
      exact fun hmem => h.2.2 hmem List.mem_cons_self
    have hput : put name v before = before ++ [(name, v)] := put_of_not_mem hname
    rw [List.foldl_cons]
    show members.foldl _ (put name v before) = _
    rw [hput, ih, List.append_assoc, List.singleton_append]
    rwa [List.append_assoc]

/-- An object, when its members are read and have distinct names. -/
theorem readValue_object (hquote : ∃ more, cs = '"' :: more) (h : readMembers fuel levels cs = .ok (members, rest))
    (hnodup : (members.map Prod.fst).Nodup) (depth : Nat) :
    readValue (fuel + 1) (levels + 1) ('\x7b' :: (newLine depth ++ cs)) = .ok (.obj members, rest) := by
  obtain ⟨more, rfl⟩ := hquote
  have hput := foldl_put [] hnodup
  simp only [readValue, skipGap_newLine]
  show (readMembers fuel levels ('"' :: more)).map _ = _
  rw [h]
  show Except.ok (Json.obj (members.foldl _ []), rest) = _
  rw [hput]
  rfl

theorem readName_writeText (hname : IsWhole name) (hbegins : Begins cs) (hfuel : (writeText name).length ≤ fuel + 1) :
    readName fuel (writeText name ++ ':' :: ' ' :: cs) = .ok (name, cs) := by
  obtain ⟨name, rfl⟩ := hname
  have htext := readText_writeText name (':' :: ' ' :: cs) hfuel
  simp only [writeText_ofString, List.cons_append, List.append_assoc, List.nil_append, readName, htext]
  show Except.ok (ofString name, skipGap (' ' :: cs)) = _
  rw [skipGap, List.dropWhile_cons_of_pos (by decide), ← skipGap, hbegins.skipGap_eq]

/-- The last member of an object, like the last item of a list. -/
theorem readMembers_last (depth : Nat) (hname : readName fuel cs = .ok (name, more))
    (h : readValue fuel levels more = .ok (item, newLine depth ++ '\x7d' :: rest)) :
    readMembers (fuel + 1) levels cs = .ok ([(name, item)], rest) := by
  simp only [readMembers, hname, h, skipGap_newLine]
  rfl

theorem readMembers_more {others : List Char} (depth : Nat) (hname : readName fuel cs = .ok (name, more))
    (h : readValue fuel levels more = .ok (item, ',' :: (newLine depth ++ others))) (hbegins : Begins others)
    (hmembers : readMembers fuel levels others = .ok (members, rest)) :
    readMembers (fuel + 1) levels cs = .ok ((name, item) :: members, rest) := by
  simp only [readMembers, hname, h]
  show (readMembers fuel levels (skipGap (newLine depth ++ others))).map _ = _
  rw [skipGap_newLine, hbegins.skipGap_eq, hmembers]
  rfl

end Steps

/-! What is written, bracketed to the right. -/

section Written

variable (depth : Nat)

/-- How a list is written: with brackets on lines of their own. -/
theorem write_arr_cons (j : Json) (js : List Json) :
    write depth (.arr (j :: js)) =
      '[' :: (newLine (depth + 1) ++ (writeItems (depth + 1) (j :: js) ++ (newLine depth ++ [']']))) := by
  simp [write]

theorem write_obj_cons (m : Wide × Json) (ms : List (Wide × Json)) :
    write depth (.obj (m :: ms)) =
      '\x7b' :: (newLine (depth + 1) ++ (writeMembers (depth + 1) (m :: ms) ++ (newLine depth ++ ['\x7d']))) := by
  simp [write]

theorem writeItems_cons_cons (j k : Json) (ks : List Json) :
    writeItems depth (j :: k :: ks) = write depth j ++ ',' :: (newLine depth ++ writeItems depth (k :: ks)) := by
  simp [writeItems]

theorem writeMembers_singleton (name : Wide) (v : Json) :
    writeMembers depth [(name, v)] = writeText name ++ ':' :: ' ' :: write depth v := by
  simp [writeMembers]

/-- How members are written: the name, a colon and a blank, and the value. -/
theorem writeMembers_cons_cons (name : Wide) (v : Json) (m : Wide × Json) (ms : List (Wide × Json)) :
    writeMembers depth ((name, v) :: m :: ms) =
      writeText name ++ ':' :: ' ' :: (write depth v ++ ',' :: (newLine depth ++ writeMembers depth (m :: ms))) := by
  simp [writeMembers]

theorem begins_writeItems {levels : Nat} {j : Json} {js : List Json} (hj : j.Readable levels) :
    Begins (writeItems depth (j :: js)) := by
  cases js with
  | nil => exact begins_write depth hj
  | cons k ks =>
    rw [writeItems_cons_cons]
    exact (begins_write depth hj).append _

theorem exists_writeMembers_eq_cons (m : Wide × Json) (ms : List (Wide × Json)) :
    ∃ more, writeMembers depth (m :: ms) = '"' :: more := by
  cases ms <;> exact ⟨_, rfl⟩

theorem begins_writeMembers (m : Wide × Json) (ms : List (Wide × Json)) :
    Begins (writeMembers depth (m :: ms)) := by
  obtain ⟨more, hmore⟩ := exists_writeMembers_eq_cons depth m ms
  exact ⟨_, more, hmore, by decide⟩

end Written

mutual

/-- What is written for a value is read back, and the reader stops right after it, at `rest`.  The fuel has to be as
    long as the text, and `levels` as deep as the value. -/
theorem readValue_write : (levels : Nat) → (j : Json) → j.Readable levels → (depth : Nat) → (rest : List Char) →
    Ends rest → (fuel : Nat) → (write depth j).length ≤ fuel →
    readValue fuel levels (write depth j ++ rest) = .ok (j, rest)
  | _, .null, _, _, _, _, fuel + 1, _ => rfl
  | _, .bool true, _, _, _, _, fuel + 1, _ => rfl
  | _, .bool false, _, _, _, _, fuel + 1, _ => rfl
  -- numbers end where `rest` does not go on with a digit
  | _, .int n, hj, depth, rest, hrest, fuel + 1, _ => by
    obtain ⟨c, cs, hcons, hc⟩ := exists_toString_eq_cons n
    have hplain := readPlain_int hj hrest
    rw [hcons, List.cons_append] at hplain
    rw [write, hcons, List.cons_append, readValue_eq_readPlain hc, hplain]
  | _, .str s, hj, depth, rest, _, fuel + 1, hfuel => by
    obtain ⟨s, rfl⟩ := hj
    have htext := readText_writeText s rest hfuel
    rw [write, writeText_ofString, List.cons_append, List.cons_append, List.append_assoc, List.singleton_append]
    show (readText fuel _).map _ = _
    rw [htext]
    rfl
  | levels + 1, .arr [], _, _, _, _, fuel + 1, _ => rfl
  | levels + 1, .obj [], _, _, _, _, fuel + 1, _ => rfl
  -- a list goes one level down, and its items take the fuel that is left
  | levels + 1, .arr (j :: js), hj, depth, rest, hrest, fuel + 1, hfuel => by
    rw [write_arr_cons] at hfuel ⊢
    simp only [List.length_cons, List.length_append] at hfuel
    have hitems := readItems_write levels j js hj (depth + 1) depth rest fuel (by omega)
    simp only [List.cons_append, List.append_assoc, List.nil_append]
    exact readValue_list ((begins_writeItems _ hj.1).append _) hitems (depth + 1)
  | levels + 1, .obj (m :: ms), hj, depth, rest, hrest, fuel + 1, hfuel => by
    rw [write_obj_cons] at hfuel ⊢
    simp only [List.length_cons, List.length_append] at hfuel
    have hmembers := readMembers_write levels m ms hj.2 (depth + 1) depth rest fuel (by omega)
    obtain ⟨more, hmore⟩ := exists_writeMembers_eq_cons (depth + 1) m ms
    simp only [List.cons_append, List.append_assoc, List.nil_append]
    exact readValue_object ⟨_, by rw [hmore, List.cons_append]⟩ hmembers hj.1 (depth + 1)
  -- without fuel nothing could have been written
  | _, j, hj, depth, rest, _, 0, hfuel => by
    obtain ⟨c, cs, hcons, -⟩ := begins_write depth hj
    rw [hcons] at hfuel
    cases hfuel
termination_by structural _ _ _ _ _ _ fuel => fuel

/-- Items are read back up to the closing bracket. -/
theorem readItems_write : (levels : Nat) → (j : Json) → (js : List Json) → ReadableItems levels (j :: js) →
    (depth outer : Nat) → (rest : List Char) → (fuel : Nat) → (writeItems depth (j :: js)).length < fuel →
    readItems fuel levels (writeItems depth (j :: js) ++ (newLine outer ++ ']' :: rest)) = .ok (j :: js, rest)
  | levels, j, [], hj, depth, outer, rest, fuel + 1, hfuel =>
    readItems_last outer (readValue_write levels j hj.1 depth _ (ends_newLine outer _) fuel (Nat.le_of_lt_succ hfuel))
  | levels, j, k :: ks, hj, depth, outer, rest, fuel + 1, hfuel => by
    rw [writeItems_cons_cons] at hfuel ⊢
    simp only [List.length_cons, List.length_append] at hfuel
    have hitems := readItems_write levels k ks hj.2 depth outer rest fuel (by omega)
    simp only [List.cons_append, List.append_assoc]
    exact readItems_more depth (readValue_write levels j hj.1 depth _ (ends_comma _) fuel (by omega))
      ((begins_writeItems _ hj.2.1).append _) hitems
termination_by structural _ _ _ _ _ _ _ fuel => fuel

/-- Members are read back up to the closing brace. -/
theorem readMembers_write : (levels : Nat) → (m : Wide × Json) → (ms : List (Wide × Json)) →
    ReadableMembers levels (m :: ms) → (depth outer : Nat) → (rest : List Char) → (fuel : Nat) →
    (writeMembers depth (m :: ms)).length < fuel →
    readMembers fuel levels (writeMembers depth (m :: ms) ++ (newLine outer ++ '\x7d' :: rest)) = .ok (m :: ms, rest)
  | levels, (k, v), [], hm, depth, outer, rest, fuel + 1, hfuel => by
    obtain ⟨⟨hk, hv⟩, -⟩ := hm
    rw [writeMembers_singleton] at hfuel ⊢
    simp only [List.length_cons, List.length_append] at hfuel
    have hvalue := readValue_write levels v hv depth _ (ends_newLine outer ('\x7d' :: rest)) fuel (by omega)
    simp only [List.cons_append, List.append_assoc]
    exact readMembers_last outer (readName_writeText hk ((begins_write depth hv).append _) (by omega)) hvalue
  | levels, (k, v), n :: ns, hm, depth, outer, rest, fuel + 1, hfuel => by
    obtain ⟨⟨hk, hv⟩, hns⟩ := hm
    rw [writeMembers_cons_cons] at hfuel ⊢
    simp only [List.length_cons, List.length_append] at hfuel
    have hmembers := readMembers_write levels n ns hns depth outer rest fuel (by omega)
    simp only [List.cons_append, List.append_assoc]
    exact readMembers_more depth (readName_writeText hk ((begins_write depth hv).append _) (by omega))
      (readValue_write levels v hv depth _ (ends_comma _) fuel (by omega)) ((begins_writeMembers depth n ns).append _)
      hmembers
termination_by structural _ _ _ _ _ _ _ fuel => fuel

end

/-- A document that has been written is read back. -/
theorem parse_render {levels : Nat} {j : Json} (hj : j.Readable levels) : Json.parse levels (render j) = .ok j := by
  have hbegins := begins_write 0 hj
  have hvalue := readValue_write levels j hj 0 [] (.inl rfl) (2 * (write 0 j).length + 2) (by omega)
  rw [List.append_nil] at hvalue
  have hmark : (write 0 j).head? ≠ some (Char.ofNat 0xFEFF) := by
    obtain ⟨c, cs, hcons, -, -, hc⟩ := hbegins
    rw [hcons, List.head?_cons]
    intro hmark
    rw [Option.some.inj hmark] at hc
    exact absurd hc (by decide)
  rw [Json.parse, render, String.toList_ofList, readDocument, if_neg hmark, hbegins.skipGap_eq, hvalue]
  rfl

theorem return_not_mem_escaped (c : Char) : '\r' ∉ escaped c := by
  have hhex : ∀ n < 0x20, '\r' ∉ (hexText 4 n).toList := by decide
  rw [escaped]
  split_ifs with hquote hslash hfeed hreturn htab hback hform hcontrol
  all_goals try decide
  · simpa using hhex _ hcontrol
  · simpa using Ne.symm hreturn

theorem return_not_mem_writeText {w : Wide} (h : IsWhole w) : '\r' ∉ writeText w := by
  obtain ⟨s, rfl⟩ := h
  simpa [writeText_ofString] using fun c _ => return_not_mem_escaped c

theorem return_not_mem_newLine (depth : Nat) : '\r' ∉ newLine depth := by
  simp [newLine]

theorem return_not_mem_toString (n : Int) : '\r' ∉ (toString n).toList := by
  have hdigits (n : Nat) : '\r' ∉ Nat.toDigits 10 n := fun h => absurd (isDigit_toDigits h) (by decide)
  cases n with
  | ofNat n =>
    rw [show Int.ofNat n = (n : Int) from rfl, toList_toString_natCast]
    exact hdigits n
  | negSucc n =>
    rw [toList_toString_negSucc]
    simpa using hdigits (n + 1)

mutual

/-- The only line ends that are written are plain ones. -/
theorem return_not_mem_write : (levels : Nat) → (j : Json) → j.Readable levels → (depth : Nat) → '\r' ∉ write depth j
  | _, .null, _, _ => by simp [write]
  | _, .bool b, _, _ => by cases b <;> simp [write]
  | _, .int n, _, _ => return_not_mem_toString n
  | _, .str s, hj, _ => return_not_mem_writeText hj
  | _, .arr [], _, _ => by simp [write]
  | _, .obj [], _, _ => by simp [write]
  | levels + 1, .arr (j :: js), hj, depth => by
    simp [write_arr_cons, return_not_mem_newLine, return_not_mem_writeItems levels (j :: js) hj (depth + 1)]
  | levels + 1, .obj (m :: ms), hj, depth => by
    simp [write_obj_cons, return_not_mem_newLine, return_not_mem_writeMembers levels (m :: ms) hj.2 (depth + 1)]

theorem return_not_mem_writeItems : (levels : Nat) → (js : List Json) → ReadableItems levels js → (depth : Nat) →
    '\r' ∉ writeItems depth js
  | _, [], _, _ => by simp [writeItems]
  | levels, [j], hj, depth => return_not_mem_write levels j hj.1 depth
  | levels, j :: k :: ks, hj, depth => by
    simp [writeItems_cons_cons, return_not_mem_newLine, return_not_mem_write levels j hj.1 depth,
      return_not_mem_writeItems levels (k :: ks) hj.2 depth]

theorem return_not_mem_writeMembers : (levels : Nat) → (ms : List (Wide × Json)) → ReadableMembers levels ms →
    (depth : Nat) → '\r' ∉ writeMembers depth ms
  | _, [], _, _ => by simp [writeMembers]
  | levels, [(k, v)], hm, depth => by
    simp [writeMembers_singleton, return_not_mem_writeText hm.1.1, return_not_mem_write levels v hm.1.2 depth]
  | levels, (k, v) :: m :: ms, hm, depth => by
    simp [writeMembers_cons_cons, return_not_mem_newLine, return_not_mem_writeText hm.1.1,
      return_not_mem_write levels v hm.1.2 depth, return_not_mem_writeMembers levels (m :: ms) hm.2 depth]

end

end ChatScene.Json

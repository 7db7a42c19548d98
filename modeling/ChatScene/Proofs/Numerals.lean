/-
  The grammar of numerals.

  1. **The grammar** — an optional sign (`SignPart`); digits with a point before, between or after them, or without one
     (`Mantissa`); an optional exponent (`ExponentPart`).  Digits of every script count, and a single underscore may
     stand between two digits (`DigitRun`).  `Denotes cs x` says that the text `cs`, blanks around it aside, is a
     numeral that stands for the finite double `x`.

  2. **Underscores** — the reader removes them before it looks at anything else.  What it has left (`clean`) is compared
     with the text, one mark after the other (`clean_eq_some_iff`), and then run by run (`clean_eq_digits_iff`).

  3. **Parts** — for each part of a numeral, that nothing but such a part is read as one and that each is read: the sign
     (`signPart_of_takeSign`), the exponent (`exponentPart_of_readExponent`, `readExponent_of_exponentPart`) and the
     numeral without sign (`unsignedPart_of_readUnsigned`, `readUnsigned_of_unsignedPart`).

  4. **Reading** (`readFinite_eq_some_iff`) — a text is read as a finite number if and only if it is a numeral and the
     double that the numeral stands for is finite.  The words for infinity and for what is no number never are
     (`not_isFinite_of_readWord`).
-/
import ChatScene.Proofs.Trimming
import ChatScene.Decimal.Numeral

namespace ChatScene.Decimal

open ChatScene.Text

/-! ## The grammar -/

/-- Digits with their values; a single underscore may stand between two of them. -/
inductive DigitRun : List Char → List Nat → Prop where
  | last {c : Char} {d : Nat} : digitValue? c = some d → DigitRun [c] [d]
  | next {c : Char} {d : Nat} {cs : List Char} {ds : List Nat} :
      digitValue? c = some d → DigitRun cs ds → DigitRun (c :: cs) (d :: ds)
  | underscore {c : Char} {d : Nat} {cs : List Char} {ds : List Nat} :
      digitValue? c = some d → DigitRun cs ds → DigitRun (c :: '_' :: cs) (d :: ds)

/-- A sign, or none; true for a minus. -/
inductive SignPart : List Char → Bool → Prop where
  | none : SignPart [] false
  | plus : SignPart ['+'] false
  | minus : SignPart ['-'] true

/-- Such digits, or nothing. -/
inductive MaybeRun : List Char → List Nat → Prop where
  | none : MaybeRun [] []
  | some {cs : List Char} {ds : List Nat} : DigitRun cs ds → MaybeRun cs ds

/-- The digits of a numeral, and how many of them stand after the point. -/
inductive Mantissa : List Char → List Nat → Nat → Prop where
  | whole {cs : List Char} {ds : List Nat} : DigitRun cs ds → Mantissa cs ds 0
  | point {cs fs : List Char} {ds es : List Nat} : MaybeRun cs ds → MaybeRun fs es → ds ≠ [] ∨ es ≠ [] →
      Mantissa (cs ++ '.' :: fs) (ds ++ es) es.length

/-- A power of ten, or none. -/
inductive ExponentPart : List Char → Int → Prop where
  | none : ExponentPart [] 0
  | some {c : Char} {sign cs : List Char} {negative : Bool} {ds : List Nat} : c = 'e' ∨ c = 'E' →
      SignPart sign negative → DigitRun cs ds →
      ExponentPart (c :: (sign ++ cs)) (if negative then -(ofDigits ds : Int) else ofDigits ds)

/-- A numeral without sign, as the number `digits · 10^exponent`. -/
inductive UnsignedPart : List Char → Unsigned → Prop where
  | mk {cs es : List Char} {ds : List Nat} {places : Nat} {k : Int} :
      Mantissa cs ds places → ExponentPart es k → UnsignedPart (cs ++ es) ⟨ds, k - places⟩

/-- `Denotes cs x` — the text, blanks around it aside, is a numeral that stands for a finite double. -/
def Denotes (cs : List Char) (x : Float) : Prop :=
  ∃ sign rest negative u, trim cs = sign ++ rest ∧ SignPart sign negative ∧ UnsignedPart rest u ∧
    x = u.toFloat negative ∧ isFinite x = true

/-! ## The characters of a numeral -/

/-- The characters that numerals are made of. -/
def IsNumeralChar (c : Char) : Prop := (digitValue? c).isSome ∨ c ∈ ['_', '.', 'e', 'E', '+', '-']

theorem DigitRun.chars {cs : List Char} {ds : List Nat} (h : DigitRun cs ds) : ∀ c ∈ cs, IsNumeralChar c := by
  induction h with
  | last hc => simp [IsNumeralChar, hc]
  | next hc _ ih => exact List.forall_mem_cons.mpr ⟨.inl (by simp [hc]), ih⟩
  | underscore hc _ ih =>
    exact List.forall_mem_cons.mpr ⟨.inl (by simp [hc]), List.forall_mem_cons.mpr ⟨.inr (by simp), ih⟩⟩

theorem MaybeRun.chars {cs : List Char} {ds : List Nat} (h : MaybeRun cs ds) : ∀ c ∈ cs, IsNumeralChar c := by
  cases h with
  | none => simp
  | some hrun => exact hrun.chars

theorem SignPart.chars {cs : List Char} {negative : Bool} (h : SignPart cs negative) : ∀ c ∈ cs, IsNumeralChar c := by
  cases h <;> simp [IsNumeralChar]

theorem Mantissa.chars {cs : List Char} {ds : List Nat} {places : Nat} (h : Mantissa cs ds places) :
    ∀ c ∈ cs, IsNumeralChar c := by
  cases h with
  | whole hrun => exact hrun.chars
  | point hwhole hfraction =>
    refine List.forall_mem_append.mpr ⟨hwhole.chars, List.forall_mem_cons.mpr ⟨.inr (by simp), hfraction.chars⟩⟩

theorem ExponentPart.chars {cs : List Char} {k : Int} (h : ExponentPart cs k) : ∀ c ∈ cs, IsNumeralChar c := by
  cases h with
  | none => simp
  | some hc hsign hrun =>
    refine List.forall_mem_cons.mpr ⟨.inr ?_, List.forall_mem_append.mpr ⟨hsign.chars, hrun.chars⟩⟩
    rcases hc with rfl | rfl <;> simp

/-- A text that stands for a number has no other characters (`IsNumeralChar`), blanks around it aside. -/
theorem Denotes.chars {cs : List Char} {x : Float} (h : Denotes cs x) : ∀ c ∈ trim cs, IsNumeralChar c := by
  obtain ⟨sign, _, _, _, hsplit, hsign, ⟨hmantissa, hexponent⟩, -, -⟩ := h
  rw [hsplit]
  refine List.forall_mem_append.mpr ⟨hsign.chars, ?_⟩
  exact List.forall_mem_append.mpr ⟨hmantissa.chars, hexponent.chars⟩

/-! ## Removing underscores -/

/-- `clean afterDigit cs` — the marks of a text without its underscores. -/
def clean (afterDigit : Bool) (cs : List Char) : Option (List Mark) :=
  dropUnderscores afterDigit (cs.map (mark digitValue?))

theorem mark_of_digit {c : Char} {d : Nat} (h : digitValue? c = some d) : mark digitValue? c = .digit d := by
  simp [mark, h]

theorem mark_of_not_digit {c : Char} (h : digitValue? c = none) : mark digitValue? c = .other c := by
  simp [mark, h]

theorem clean_nil (b : Bool) : clean b [] = some [] := rfl

/-- A digit is kept, and an underscore may follow it. -/
theorem clean_digit {c : Char} {d : Nat} (h : digitValue? c = some d) (b : Bool) (cs : List Char) :
    clean b (c :: cs) = (clean true cs).map (.digit d :: ·) := by
  rw [clean, List.map_cons, mark_of_digit h]
  rfl

/-- Any other character is kept, and no underscore may follow it. -/
theorem clean_other {c : Char} (h : digitValue? c = none) (hc : c ≠ '_') (b : Bool) (cs : List Char) :
    clean b (c :: cs) = (clean false cs).map (.other c :: ·) := by
  rw [clean, List.map_cons, mark_of_not_digit h, dropUnderscores, if_neg hc]
  rfl

theorem digitValue?_underscore : digitValue? '_' = none := by decide +kernel

theorem clean_underscore {c : Char} {d : Nat} (h : digitValue? c = some d) (cs : List Char) :
    clean true ('_' :: c :: cs) = (clean true cs).map (.digit d :: ·) := by
  rw [← clean_digit h false cs]
  simp [clean, mark_of_not_digit digitValue?_underscore, mark_of_digit h, dropUnderscores, digitAhead]

theorem clean_underscore_eq_some {b : Bool} {cs : List Char} {ms : List Mark} (h : clean b ('_' :: cs) = some ms) :
    b = true ∧ ∃ c d rest, cs = c :: rest ∧ digitValue? c = some d := by
  rw [clean, List.map_cons, mark_of_not_digit digitValue?_underscore, dropUnderscores, if_pos rfl] at h
  split at h
  · rename_i hboth
    obtain ⟨hb, hahead⟩ := Bool.and_eq_true_iff.mp hboth
    refine ⟨hb, ?_⟩
    cases cs with
    | nil => cases hahead
    | cons c rest =>
      cases hc : digitValue? c with
      | some d => exact ⟨c, d, rest, rfl, hc⟩
      | none => simp [mark_of_not_digit hc, digitAhead] at hahead
  · cases h

/-- All that can come first, and what is left of it: nothing, a digit with or without an underscore before it, or
    another character. -/
theorem clean_eq_some_iff {b : Bool} {cs : List Char} {ms : List Mark} :
    clean b cs = some ms ↔
      cs = [] ∧ ms = [] ∨
      (∃ c d rest ms', digitValue? c = some d ∧ (cs = c :: rest ∨ b = true ∧ cs = '_' :: c :: rest) ∧
        clean true rest = some ms' ∧ ms = .digit d :: ms') ∨
      ∃ c rest ms', digitValue? c = none ∧ c ≠ '_' ∧ cs = c :: rest ∧ clean false rest = some ms' ∧
        ms = .other c :: ms' := by
  constructor
  · intro h
    cases cs with
    | nil => exact .inl ⟨rfl, (Option.some.inj h).symm⟩
    | cons c rest =>
      cases hc : digitValue? c with
      | some d =>
        rw [clean_digit hc] at h
        obtain ⟨ms', hrest, rfl⟩ := Option.map_eq_some_iff.mp h
        exact .inr (.inl ⟨c, d, rest, ms', hc, .inl rfl, hrest, rfl⟩)
      | none =>
        -- an underscore counts only between two digits, so a digit has to follow
        by_cases hunderscore : c = '_'
        · subst hunderscore
          obtain ⟨rfl, c, d, rest, rfl, hd⟩ := clean_underscore_eq_some h
          rw [clean_underscore hd] at h
          obtain ⟨ms', hrest, rfl⟩ := Option.map_eq_some_iff.mp h
          exact .inr (.inl ⟨c, d, rest, ms', hd, .inr ⟨rfl, rfl⟩, hrest, rfl⟩)
        · rw [clean_other hc hunderscore] at h
          obtain ⟨ms', hrest, rfl⟩ := Option.map_eq_some_iff.mp h
          exact .inr (.inr ⟨c, rest, ms', hc, hunderscore, rfl, hrest, rfl⟩)
  · rintro (⟨rfl, rfl⟩ | ⟨c, d, rest, ms', hc, rfl | ⟨rfl, rfl⟩, hrest, rfl⟩ | ⟨c, rest, ms', hc, hne, rfl, hrest, rfl⟩)
    · rfl
    · rw [clean_digit hc, hrest]
      rfl
    · rw [clean_underscore hc, hrest]
      rfl
    · rw [clean_other hc hne, hrest]
      rfl

theorem clean_eq_nil_iff {b : Bool} {cs : List Char} : clean b cs = some [] ↔ cs = [] := by
  rw [clean_eq_some_iff]
  simp

/-- What is left begins with another character just when the text does. -/
theorem clean_eq_other_iff {b : Bool} {c : Char} {cs : List Char} {ms : List Mark} :
    clean b cs = some (.other c :: ms) ↔
      digitValue? c = none ∧ c ≠ '_' ∧ ∃ rest, cs = c :: rest ∧ clean false rest = some ms := by
  rw [clean_eq_some_iff]
  constructor
  · rintro (⟨-, h⟩ | ⟨_, _, _, _, -, -, -, h⟩ | ⟨_, rest, _, hc, hne, rfl, hrest, h⟩)
    · cases h
    · cases h
    · cases h
      exact ⟨hc, hne, rest, rfl, hrest⟩
  · rintro ⟨hc, hne, rest, rfl, hrest⟩
    exact .inr (.inr ⟨c, rest, ms, hc, hne, rfl, hrest, rfl⟩)

/-- What is left begins with a digit just when the text does, or has an underscore and then the digit. -/
theorem clean_eq_digit_iff {b : Bool} {d : Nat} {cs : List Char} {ms : List Mark} :
    clean b cs = some (.digit d :: ms) ↔
      ∃ c rest, digitValue? c = some d ∧ (cs = c :: rest ∨ b = true ∧ cs = '_' :: c :: rest) ∧
        clean true rest = some ms := by
  rw [clean_eq_some_iff]
  constructor
  · rintro (⟨-, h⟩ | ⟨c, _, rest, _, hc, hcs, hrest, h⟩ | ⟨_, _, _, -, -, -, -, h⟩)
    · cases h
    · cases h
      exact ⟨c, rest, hc, hcs, hrest⟩
    · cases h
  · rintro ⟨c, rest, hc, hcs, hrest⟩
    exact .inr (.inl ⟨c, d, rest, ms, hc, hcs, hrest, rfl⟩)

/-- A run of digits (`DigitRun`) is left of a run with underscores, and of nothing else. -/
theorem clean_eq_digits_iff {b : Bool} {d : Nat} {ds : List Nat} {cs : List Char} {ms : List Mark} :
    clean b cs = some ((d :: ds).map .digit ++ ms) ↔
      ∃ front back, (cs = front ++ back ∨ b = true ∧ cs = '_' :: (front ++ back)) ∧ DigitRun front (d :: ds) ∧
        clean true back = some ms := by
  -- by induction on the digits: after the first one an underscore may come before the next
  induction ds generalizing b d cs with
  | nil =>
    rw [List.map_cons, List.cons_append, clean_eq_digit_iff]
    constructor
    · rintro ⟨c, rest, hc, hcs, hrest⟩
      exact ⟨[c], rest, hcs, .last hc, hrest⟩
    · rintro ⟨front, back, hcs, hfront, hback⟩
      cases hfront with
      | last hc => exact ⟨_, back, hc, hcs, hback⟩
      | next _ h => cases h
      | underscore _ h => cases h
  | cons e es ih =>
    rw [List.map_cons, List.cons_append, clean_eq_digit_iff]
    constructor
    · rintro ⟨c, rest, hc, hcs, hrest⟩
      obtain ⟨front, back, rfl | ⟨-, rfl⟩, hfront, hback⟩ := ih.mp hrest
      · exact ⟨c :: front, back, hcs, .next hc hfront, hback⟩
      · exact ⟨c :: '_' :: front, back, hcs, .underscore hc hfront, hback⟩
    · rintro ⟨front, back, hcs, hfront, hback⟩
      cases hfront with
      | @next c _ front _ hc hfront =>
        exact ⟨c, front ++ back, hc, hcs, ih.mpr ⟨front, back, .inl rfl, hfront, hback⟩⟩
      | @underscore c _ front _ hc hfront =>
        exact ⟨c, '_' :: (front ++ back), hc, hcs, ih.mpr ⟨front, back, .inr ⟨rfl, rfl⟩, hfront, hback⟩⟩

theorem DigitRun.exists_cons {cs : List Char} {ds : List Nat} (h : DigitRun cs ds) : ∃ d rest, ds = d :: rest := by
  cases h <;> exact ⟨_, _, rfl⟩

theorem clean_run {front back : List Char} {ds : List Nat} {ms : List Mark} (hrun : DigitRun front ds)
    (hback : clean true back = some ms) : clean false (front ++ back) = some (ds.map .digit ++ ms) := by
  obtain ⟨d, ds, rfl⟩ := hrun.exists_cons
  exact clean_eq_digits_iff.mpr ⟨front, back, .inl rfl, hrun, hback⟩

/-- Digits that may be missing (`MaybeRun`) are left of such digits, before something that does not depend on them. -/
theorem clean_maybeRun {front back : List Char} {ds : List Nat} {ms : List Mark} (hrun : MaybeRun front ds)
    (hback : ∀ b, clean b back = some ms) : clean false (front ++ back) = some (ds.map .digit ++ ms) := by
  cases hrun with
  | none => exact hback false
  | some hrun => exact clean_run hrun (hback true)

/-- Digits at the front of what is left come from digits at the front of the text, if there are any. -/
theorem exists_maybeRun_of_clean {cs : List Char} {ds : List Nat} {ms : List Mark}
    (h : clean false cs = some (ds.map .digit ++ ms)) :
    ∃ front back b, cs = front ++ back ∧ MaybeRun front ds ∧ clean b back = some ms := by
  cases ds with
  | nil => exact ⟨[], cs, false, rfl, .none, h⟩
  | cons d ds =>
    obtain ⟨front, back, hsplit | ⟨hfalse, -⟩, hrun, hback⟩ := clean_eq_digits_iff.mp h
    · exact ⟨front, back, true, hsplit, .some hrun, hback⟩
    · cases hfalse

/-! ## The parts of a numeral -/

theorem takeDigits_digits (ds : List Nat) {ms : List Mark} (h : digitAhead ms = false) :
    takeDigits (ds.map .digit ++ ms) = (ds, ms) := by
  induction ds with
  | nil =>
    cases ms with
    | nil => rfl
    | cons m ms =>
      cases m with
      | digit d => cases h
      | other c => rfl
  | cons d ds ih => rw [List.map_cons, List.cons_append, takeDigits, ih]

/-- What has been taken are the digits in front, and no digit follows. -/
theorem takeDigits_eq {ms rest : List Mark} {ds : List Nat} (h : takeDigits ms = (ds, rest)) :
    ms = ds.map .digit ++ rest ∧ digitAhead rest = false := by
  induction ms generalizing ds with
  | nil =>
    cases h
    exact ⟨rfl, rfl⟩
  | cons m ms ih =>
    cases m with
    | other c =>
      cases h
      exact ⟨rfl, rfl⟩
    | digit d =>
      rw [takeDigits] at h
      cases h
      obtain ⟨hms, hahead⟩ := ih rfl
      exact ⟨congrArg (Mark.digit d :: ·) hms, hahead⟩

/-- A sign (`SignPart`) in front of the marks is one in front of the text. -/
theorem signPart_of_takeSign {cs : List Char} {ms rest : List Mark} {negative : Bool}
    (hclean : clean false cs = some ms) (hsign : takeSign ms = (negative, rest)) :
    ∃ sign back, cs = sign ++ back ∧ SignPart sign negative ∧ clean false back = some rest := by
  unfold takeSign at hsign
  split at hsign
  · cases hsign
    obtain ⟨-, -, back, rfl, hback⟩ := clean_eq_other_iff.mp hclean
    exact ⟨['-'], back, rfl, .minus, hback⟩
  · cases hsign
    obtain ⟨-, -, back, rfl, hback⟩ := clean_eq_other_iff.mp hclean
    exact ⟨['+'], back, rfl, .plus, hback⟩
  · cases hsign
    exact ⟨[], cs, rfl, .none, hclean⟩

/-- A sign (`SignPart`) is taken from the front, and nothing else if there is none. -/
theorem takeSign_of_signPart {sign back : List Char} {ms : List Mark} {negative : Bool} (h : SignPart sign negative)
    (hback : clean false back = some ms) (hms : takeSign ms = (false, ms)) :
    ∃ all, clean false (sign ++ back) = some all ∧ takeSign all = (negative, ms) := by
  cases h with
  | none => exact ⟨ms, hback, hms⟩
  | plus =>
    exact ⟨.other '+' :: ms, clean_eq_other_iff.mpr ⟨by decide +kernel, by decide, back, rfl, hback⟩, rfl⟩
  | minus =>
    exact ⟨.other '-' :: ms, clean_eq_other_iff.mpr ⟨by decide +kernel, by decide, back, rfl, hback⟩, rfl⟩

/-- Nothing but an exponent (`ExponentPart`) is read as one: the mark, a sign and digits, or nothing at all. -/
theorem exponentPart_of_readExponent {b : Bool} {cs : List Char} {ms : List Mark} {k : Int}
    (hclean : clean b cs = some ms) (hread : readExponent ms = some k) : ExponentPart cs k := by
  unfold readExponent at hread
  split at hread
  · cases hread
    rw [clean_eq_nil_iff.mp hclean]
    exact .none
  · rename_i c ms
    obtain ⟨-, -, rest, rfl, hrest⟩ := clean_eq_other_iff.mp hclean
    split at hread
    · rename_i hc
      cases hsign : takeSign ms with
      | mk negative digits =>
        obtain ⟨sign, back, rfl, hsignPart, hback⟩ := signPart_of_takeSign hrest hsign
        rw [hsign] at hread
        simp only at hread
        split at hread
        · rename_i d ds hdigits
          cases hread
          obtain ⟨rfl, -⟩ := takeDigits_eq hdigits
          obtain ⟨front, tail, hsplit | ⟨hfalse, -⟩, hrun, htail⟩ := clean_eq_digits_iff.mp hback
          · rw [clean_eq_nil_iff.mp htail, List.append_nil] at hsplit
            subst hsplit
            exact .some hc hsignPart hrun
          · -- an underscore cannot come first here
            cases hfalse
        · cases hread
    · cases hread
  · cases hread

/-- An exponent (`ExponentPart`) is read, whatever stands before it. -/
theorem readExponent_of_exponentPart {cs : List Char} {k : Int} (h : ExponentPart cs k) :
    ∃ ms, (∀ b, clean b cs = some ms) ∧ readExponent ms = some k := by
  cases h with
  | none => exact ⟨[], clean_nil, rfl⟩
  | @some c sign cs negative ds hc hsign hrun =>
    have hdigits : clean false cs = some (ds.map .digit ++ []) := by
      simpa using clean_run hrun (clean_nil true)
    obtain ⟨d, ds, rfl⟩ := hrun.exists_cons
    obtain ⟨ms, hms, htake⟩ := takeSign_of_signPart hsign hdigits rfl
    refine ⟨.other c :: ms, fun b => clean_eq_other_iff.mpr ⟨?_, ?_, _, rfl, hms⟩, ?_⟩
    · rcases hc with rfl | rfl <;> decide +kernel
    · rcases hc with rfl | rfl <;> decide
    · have hall : takeDigits ((d :: ds).map .digit ++ []) = (d :: ds, []) := takeDigits_digits _ rfl
      simp only [readExponent, if_pos hc, htake, hall]

/-- What is read as an exponent begins with neither a digit nor a point, so the parts before it end
    where they should. -/
theorem readExponent_front {ms : List Mark} {k : Int} (h : readExponent ms = some k) :
    digitAhead ms = false ∧ ∀ rest, ms ≠ .other '.' :: rest := by
  constructor
  · cases ms with
    | nil => rfl
    | cons m ms =>
      cases m with
      | digit d => cases h
      | other c => rfl
  · rintro rest rfl
    cases h

/-- A point and the digits after it, if there is a point. -/
def takeFraction : List Mark → List Nat × List Mark
  | .other '.' :: ms => takeDigits ms
  | ms => ([], ms)

/-- Reading without sign, as three parts: digits (`takeDigits`), a fraction (`takeFraction`) and an exponent
    (`readExponent`), and at least one digit. -/
theorem readUnsigned_eq_some_iff {ms : List Mark} {u : Unsigned} :
    readUnsigned ms = some u ↔
      ∃ whole rest fraction tail k, takeDigits ms = (whole, rest) ∧ takeFraction rest = (fraction, tail) ∧
        (whole ≠ [] ∨ fraction ≠ []) ∧ readExponent tail = some k ∧ u = ⟨whole ++ fraction, k - fraction.length⟩ := by
  -- the reader with its intermediate results written out, so that they can be named
  have hread : readUnsigned ms =
      if (takeDigits ms).1.isEmpty && (takeFraction (takeDigits ms).2).1.isEmpty then none
      else (readExponent (takeFraction (takeDigits ms).2).2).map fun e =>
        ⟨(takeDigits ms).1 ++ (takeFraction (takeDigits ms).2).1, e - (takeFraction (takeDigits ms).2).1.length⟩ := rfl
  rw [hread]
  cases takeDigits ms with
  | mk whole rest =>
    cases hfraction : takeFraction rest with
    | mk fraction tail =>
      constructor
      · intro h
        split at h
        · cases h
        · rename_i hne
          obtain ⟨k, hk, rfl⟩ := Option.map_eq_some_iff.mp h
          refine ⟨whole, rest, fraction, tail, k, rfl, hfraction, ?_, by simpa [hfraction] using hk, rfl⟩
          by_cases hwhole : whole = []
          · exact .inr (by simpa [hwhole] using hne)
          · exact .inl hwhole
      · rintro ⟨_, _, _, _, k, ⟨rfl, rfl⟩, hsame, hne, hk, rfl⟩
        rw [hfraction] at hsame
        cases hsame
        -- digits before the point or after it
        have hempty : (whole.isEmpty && fraction.isEmpty) = false := by
          rcases hne with h | h <;> simp [h]
        simp [hempty, hk]

/-- Nothing but a numeral (`UnsignedPart`) without sign is read as one. -/
theorem unsignedPart_of_readUnsigned {cs : List Char} {ms : List Mark} {u : Unsigned}
    (hclean : clean false cs = some ms) (hread : readUnsigned ms = some u) : UnsignedPart cs u := by
  obtain ⟨whole, rest, fraction, tail, k, hwhole, hfraction, hne, hk, rfl⟩ := readUnsigned_eq_some_iff.mp hread
  obtain ⟨rfl, -⟩ := takeDigits_eq hwhole
  obtain ⟨front, back, b, rfl, hfront, hback⟩ := exists_maybeRun_of_clean hclean
  unfold takeFraction at hfraction
  split at hfraction
  · -- there is a point
    rename_i ms
    obtain ⟨-, -, after, rfl, hafter⟩ := clean_eq_other_iff.mp hback
    obtain ⟨rfl, -⟩ := takeDigits_eq hfraction
    obtain ⟨digits, exponent, b, rfl, hdigits, hexponent⟩ := exists_maybeRun_of_clean hafter
    simpa using UnsignedPart.mk (.point hfront hdigits hne) (exponentPart_of_readExponent hexponent hk)
  · cases hfraction
    cases hfront with
    | none => simp at hne
    | some hrun => simpa using UnsignedPart.mk (.whole hrun) (exponentPart_of_readExponent hback hk)

theorem takeFraction_of_readExponent {ms : List Mark} {k : Int} (h : readExponent ms = some k) :
    takeFraction ms = ([], ms) := by
  unfold takeFraction
  split
  · exact absurd rfl ((readExponent_front h).2 _)
  · rfl

theorem readUnsigned_of_unsignedPart {cs : List Char} {u : Unsigned} (h : UnsignedPart cs u) :
    ∃ ms, clean false cs = some ms ∧ readUnsigned ms = some u := by
  cases h with
  | @mk cs es ds places k hmantissa hexponent =>
    obtain ⟨tail, hclean, hk⟩ := readExponent_of_exponentPart hexponent
    -- so taking digits stops where the exponent begins
    have htail := (readExponent_front hk).1
    cases hmantissa with
    | whole hrun =>
      refine ⟨_, clean_run hrun (hclean true), readUnsigned_eq_some_iff.mpr ?_⟩
      refine ⟨ds, tail, [], tail, k, takeDigits_digits ds htail, takeFraction_of_readExponent hk, .inl ?_, hk, by simp⟩
      obtain ⟨d, ds, rfl⟩ := hrun.exists_cons
      simp
    | @point cs fs ds es hwhole hfraction hne =>
      have hafter := clean_maybeRun hfraction hclean
      have hpoint (b : Bool) : clean b ('.' :: (fs ++ _)) = some (.other '.' :: (es.map .digit ++ tail)) :=
        clean_eq_other_iff.mpr ⟨by decide +kernel, by decide, _, rfl, hafter⟩
      refine ⟨ds.map .digit ++ .other '.' :: (es.map .digit ++ tail), ?_, readUnsigned_eq_some_iff.mpr ?_⟩
      · simpa using clean_maybeRun hwhole hpoint
      · exact ⟨ds, _, es, tail, k, takeDigits_digits ds rfl, takeDigits_digits es htail, hne, hk, rfl⟩

/-! ## Reading -/

/-- A numeral without sign does not begin with a sign. -/
theorem takeSign_of_readUnsigned {ms : List Mark} {u : Unsigned} (h : readUnsigned ms = some u) :
    takeSign ms = (false, ms) := by
  unfold takeSign
  split
  · cases h
  · cases h
  · rfl

/-- The words stand for no finite numbers (`isFinite`). -/
theorem not_isFinite_of_readWord {negative : Bool} {ms : List Mark} {x : Float} (h : readWord negative ms = some x) :
    isFinite x = false := by
  unfold readWord at h
  split at h
  · cases h
    cases negative <;> decide +kernel
  · cases h
    cases negative <;> decide +kernel
  · cases h
    cases negative <;> decide +kernel
  · cases h

/-- A finite number is read when the marks that are left of the trimmed (`trim`) text can be read, and the result is
    finite. -/
theorem readFinite_eq_some {cs : List Char} {x : Float} :
    readFinite cs = some x ↔ (∃ ms, clean false (trim cs) = some ms ∧ readMarks ms = some x) ∧ isFinite x = true := by
  have hfloat : readFloat cs = some x ↔ ∃ ms, clean false (trim cs) = some ms ∧ readMarks ms = some x :=
    Option.bind_eq_some_iff
  rw [← hfloat, readFinite]
  cases readFloat cs with
  | none => simp
  | some y =>
    simp only [Option.some.injEq]
    split
    · rename_i hy
      constructor
      · intro h
        cases h
        exact ⟨rfl, hy⟩
      · rintro ⟨rfl, -⟩
        rfl
    · rename_i hy
      constructor
      · intro h
        cases h
      · rintro ⟨rfl, hfinite⟩
        exact absurd hfinite hy

/-- Reading accepts the numerals of finite numbers, and nothing else. -/
theorem readFinite_eq_some_iff {cs : List Char} {x : Float} : readFinite cs = some x ↔ Denotes cs x := by
  rw [readFinite_eq_some]
  constructor
  · rintro ⟨⟨ms, hclean, hread⟩, hfinite⟩
    unfold readMarks at hread
    cases hsign : takeSign ms with
    | mk negative marks =>
      obtain ⟨sign, rest, hsplit, hsignPart, hrest⟩ := signPart_of_takeSign hclean hsign
      simp only [hsign] at hread
      split at hread
      · rename_i u hu
        exact ⟨sign, rest, negative, u, hsplit, hsignPart, unsignedPart_of_readUnsigned hrest hu,
          (Option.some.inj hread).symm, hfinite⟩
      · -- one of the words has been read
        rw [not_isFinite_of_readWord hread] at hfinite
        cases hfinite
  · rintro ⟨sign, rest, negative, u, hsplit, hsignPart, hrest, rfl, hfinite⟩
    obtain ⟨marks, hmarks, hu⟩ := readUnsigned_of_unsignedPart hrest
    obtain ⟨ms, hms, hsign⟩ := takeSign_of_signPart hsignPart hmarks (takeSign_of_readUnsigned hu)
    refine ⟨⟨ms, hsplit ▸ hms, ?_⟩, hfinite⟩
    simp only [readMarks, hsign, hu]

end ChatScene.Decimal

/-
  Reading numerals.

  1. **Cleaning** — a numeral is read as a list of marks, each a digit by its value or another character (`Mark`).
     Single underscores may stand between digits, and `dropUnderscores` removes them.

  2. **Parts** — a decimal numeral is a sign, digits with an optional point, and an optional exponent (`readUnsigned`).
     `inf`, `infinity` and `nan` in any case stand for the values that are no finite numbers (`readWord`).

  3. **Script texts** — `readFloat`, `readFinite` and `readInt` take digits of every script, and drop blanks around the
     numeral.

  4. **Documents** — in `readDocumentFloat` only ASCII digits count, and either white space around the numeral or single
     underscores inside it may be left out.
-/
import ChatScene.Text.Blank
import ChatScene.Text.Digit
import ChatScene.Text.Split
import ChatScene.Decimal.Nearest

namespace ChatScene.Decimal

open ChatScene.Text

/-! ## Cleaning: digits of any script, underscores between digits -/

/-- A character of a numeral: a digit by its value, or another character. -/
inductive Mark where
  | digit (value : Nat)
  | other (c : Char)
deriving DecidableEq, Repr

/-- A character read with a given notion of digit. -/
def mark (digit? : Char → Option Nat) (c : Char) : Mark :=
  match digit? c with
  | some d => .digit d
  | none => .other c

/-- Whether the next mark is a digit. -/
def digitAhead : List Mark → Bool
  | .digit _ :: _ => true
  | _ => false

/-- Removes the underscores; `afterDigit` says whether the mark before was a digit.  An underscore that does not
    stand between two digits spoils the numeral. -/
def dropUnderscores (afterDigit : Bool) : List Mark → Option (List Mark)
  | [] => some []
  | .other c :: ms =>
    if c = '_' then
      -- Of two underscores in a row the first has no digit ahead.
      if afterDigit && digitAhead ms then dropUnderscores false ms else none
    else (dropUnderscores false ms).map (.other c :: ·)
  | .digit d :: ms => (dropUnderscores true ms).map (.digit d :: ·)

/-! ## The parts of a numeral -/

/-- The digits in front, and what follows them. -/
def takeDigits : List Mark → List Nat × List Mark
  | .digit d :: ms =>
    let (ds, rest) := takeDigits ms
    (d :: ds, rest)
  | ms => ([], ms)

/-- An optional sign; true for a minus. -/
def takeSign : List Mark → Bool × List Mark
  | .other '-' :: ms => (true, ms)
  | .other '+' :: ms => (false, ms)
  | ms => (false, ms)

/-- The exponent, which has to be the whole rest. -/
def readExponent : List Mark → Option Int
  | [] => some 0
  | .other c :: ms =>
    if c = 'e' ∨ c = 'E' then
      let (negative, ms) := takeSign ms
      match takeDigits ms with
      | (d :: ds, []) =>
        let n : Int := ofDigits (d :: ds)
        some (if negative then -n else n)
      | _ => none
    else none
  | _ => none

/-- `digits · 10^exponent` for a numeral without sign. -/
structure Unsigned where
  /-- All digits in order, those after the point included. -/
  digits : List Nat
  /-- The power of ten of the last digit. -/
  exponent : Int
deriving DecidableEq, Repr

/-- A numeral without sign: digits, point, digits, exponent, with a digit before or after the point. -/
def readUnsigned (ms : List Mark) : Option Unsigned :=
  let (whole, ms) := takeDigits ms
  let (fraction, ms) :=
    match ms with
    | .other '.' :: rest => takeDigits rest
    | rest => ([], rest)
  if whole.isEmpty && fraction.isEmpty then none
  else (readExponent ms).map fun e => ⟨whole ++ fraction, e - fraction.length⟩

/-- The value of a numeral without sign.  Powers of ten that lie far outside the range of the doubles are
    cut off, so that no huge power is computed. -/
def Unsigned.toFloat (u : Unsigned) (negative : Bool) : Float :=
  let n := ofDigits u.digits
  -- Where the first digit that is not zero stands, counted from the point.
  let size : Int := (u.digits.dropWhile (· = 0)).length + u.exponent
  if n = 0 ∨ size < -400 then nearest negative 0 1
  else if 400 < size then nearest negative (Nat.pow 2 1024) 1
  else if u.exponent < 0 then nearest negative n (Nat.pow 10 (-u.exponent).toNat)
  else nearest negative (n * Nat.pow 10 u.exponent.toNat) 1

/-- The other characters of a run of marks, in lower case; nothing if there is a digit. -/
def lettersOf : List Mark → Option (List Char)
  | [] => some []
  | .other c :: ms => (lettersOf ms).map (c.toLower :: ·)
  | .digit _ :: _ => none

/-- The words for values that are no finite numbers. -/
def readWord (negative : Bool) (ms : List Mark) : Option Float :=
  match lettersOf ms with
  | some ['i', 'n', 'f'] | some ['i', 'n', 'f', 'i', 'n', 'i', 't', 'y'] =>
    some (nearest negative (Nat.pow 2 1024) 1)
  | some ['n', 'a', 'n'] =>
    some (Float.ofBits (UInt64.ofNat (infinityBits + Nat.pow 2 51 + if negative then signBit else 0)))
  | _ => none

/-! ## Reading -/

/-- The double that cleaned marks spell. -/
def readMarks (ms : List Mark) : Option Float :=
  let (negative, ms) := takeSign ms
  match readUnsigned ms with
  | some u => some (u.toFloat negative)
  | none => readWord negative ms

/-- The double that a text spells, digits of every script allowed. -/
def readFloat (cs : List Char) : Option Float :=
  (dropUnderscores false ((trim cs).map (mark digitValue?))).bind readMarks

/-- The double that a text of ASCII digits spells, without blanks and underscores. -/
def readBare (cs : List Char) : Option Float := readMarks (cs.map (mark asciiDigit?))

/-- White space that may stand around a numeral in a document: the blanks without the information separators. -/
def isSpace (c : Char) : Bool := isBlank c && !(0x1C ≤ c.toNat && c.toNat ≤ 0x1F)

/-- The text without white space at either end. -/
def trimSpace (cs : List Char) : List Char := ((cs.dropWhile isSpace).reverse.dropWhile isSpace).reverse

/-- Some character stands twice in a row. -/
def hasDouble (c : Char) : List Char → Bool
  | a :: b :: rest => (a = c && b = c) || hasDouble c (b :: rest)
  | _ => false

/-- Single underscores, none of them at an end. -/
def areInnerUnderscores (cs : List Char) : Bool :=
  cs.head? ≠ some '_' && cs.getLast? ≠ some '_' && !hasDouble '_' cs

/-- The double that a text in a document spells: white space around it is dropped, or else single underscores inside
    it. -/
def readDocumentFloat (cs : List Char) : Option Float :=
  match readBare (trimSpace cs) with
  | some x => some x
  | none => if areInnerUnderscores cs then readBare (cs.filter (· ≠ '_')) else none

/-- The finite number that a text spells. -/
def readFinite (cs : List Char) : Option Float :=
  match readFloat cs with
  | some x => if isFinite x then some x else none
  | none => none

/-- The most digits that a whole number may have. -/
def maxIntDigits : Nat := 4300

/-- The whole number that a text spells, digits of every script allowed; none with too many digits. -/
def readInt (cs : List Char) : Option Int :=
  match dropUnderscores false ((trim cs).map (mark digitValue?)) with
  | none => none
  | some ms =>
    let (negative, ms) := takeSign ms
    match takeDigits ms with
    | (d :: ds, []) =>
      if (d :: ds).length ≤ maxIntDigits then
        let n : Int := ofDigits (d :: ds)
        some (if negative then -n else n)
      else none
    | _ => none

end ChatScene.Decimal

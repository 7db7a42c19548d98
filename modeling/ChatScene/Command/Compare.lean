/-
  Comparing a variable's value with the expected value of a condition.

  How the two are compared is decided by the expected value alone, when the condition is read (`Mode.ofExpected`).

  1. **Truth values** — the expected values `true` and `false` compare truth values.  The value of the variable may
     spell one in any case and with blanks around it (`readBool`).

  2. **Numbers** — a number, or one of `>`, `<`, `=` before a number, compares numbers (`comparison?`); equality allows
     a difference below one ten-thousandth (`tolerance`).

  3. **Texts** — every other expected value has to be met exactly.

  `Condition.holds` puts them together.  A value that cannot be read as what it is compared as meets nothing.
-/
import ChatScene.Decimal.Numeral
import ChatScene.Command.Basic

namespace ChatScene

open ChatScene.Text

/-- The truth value that a text spells in any case. -/
def readBool (cs : List Char) : Option Bool :=
  let word := lowered (trim cs)
  if word = ['t', 'r', 'u', 'e'] then some true
  else if word = ['f', 'a', 'l', 's', 'e'] then some false
  else none

/-- A comparison of numbers. -/
inductive Operator where
  | greater
  | less
  | equal
deriving DecidableEq, Repr

/-- The operator that a character stands for. -/
def Operator.ofChar? (c : Char) : Option Operator :=
  if c = '>' then some .greater
  else if c = '<' then some .less
  else if c = '=' then some .equal
  else none

/-- The greatest difference of two numbers that count as equal is below this. -/
def tolerance : Float := 0.0001

/-- The comparison of two finite numbers. -/
def Operator.holds (op : Operator) (actual expected : Float) : Bool :=
  match op with
  | .greater => actual > expected
  | .less => actual < expected
  | .equal => (actual - expected).abs < tolerance

/-- An operator and what follows it: something on the same line. -/
def comparison? (expected : List Char) : Option (Operator × List Char) :=
  match expected with
  | c :: operand =>
    if operand.isEmpty || operand.contains '\n' then none
    else (Operator.ofChar? c).map (·, operand)
  | [] => none

/-- An operator before something that is no finite number. -/
def isBrokenComparison (expected : List Char) : Bool :=
  match comparison? expected with
  | some (_, operand) => (Decimal.readFinite operand).isNone
  | none => false

/-- How an expected value is compared. -/
def Mode.ofExpected (expected : String) : Mode :=
  let cs := expected.toList
  -- In lower case only: a condition that expects `True` is met by that text alone.
  if expected = "true" ∨ expected = "false" then .boolean
  else if (comparison? cs).isSome || (Decimal.readFinite cs).isSome then .numeric
  else .exact

/-- Whether the value of the variable meets the condition. -/
def Condition.holds (c : Condition) (actual : String) : Bool :=
  match c.mode with
  | .boolean =>
    match readBool actual.toList with
    | some b => some b == readBool c.expected.toList
    | none => false
  | .numeric =>
    -- A number without an operator is compared for equality.
    let (op, operand) := (comparison? c.expected.toList).getD (.equal, c.expected.toList)
    match Decimal.readFinite operand, Decimal.readFinite actual.toList with
    | some e, some a => op.holds a e
    | _, _ => false
  | .exact => actual = c.expected

end ChatScene

/-
  Asking for a choice on a terminal.

  1. **Answers** — the choices are numbered from one, and `pick` is the choice that an answer names.

  2. **Dialogues** — an answer that is not one of these numbers is turned down and the question is asked again, until
     there is a good answer or no more input (`askFrom`).  A `Dialogue` remembers how many answers were turned down and
     which lines were not read.
-/
import ChatScene.Text.Blank
import ChatScene.Decimal.Numeral

namespace ChatScene.Prompt

/-- The question. -/
def question (count : Nat) : String := s!"Choose 1-{count}: "

/-- What is said to a bad answer. -/
def reproof (count : Nat) : String := s!"Please enter a number between 1 and {count}.\n"

/-- The choice that an answer picks. -/
def pick (choices : List String) (answer : String) : Option String :=
  match Decimal.readInt (Text.trim answer.toList) with
  | some n => if 1 ≤ n then choices[n.toNat - 1]? else none
  | none => none

/-- How asking went. -/
structure Dialogue where
  /-- The choice, unless the input came to its end. -/
  answer : Option String
  /-- How many answers were turned down. -/
  rejected : Nat
  /-- The lines that were not read. -/
  unread : List String
deriving DecidableEq, Repr

/-- Asks until there is a good answer; so many answers have been turned down before. -/
def askFrom (choices : List String) (rejected : Nat) : List String → Dialogue
  | [] => ⟨none, rejected, []⟩
  | line :: rest =>
    match pick choices line with
    | some choice => ⟨some choice, rejected, rest⟩
    | none => askFrom choices (rejected + 1) rest

/-- Asks until there is a good answer. -/
def ask (choices : List String) (lines : List String) : Dialogue := askFrom choices 0 lines

/-- All questions of a dialogue. -/
def Dialogue.questions (d : Dialogue) (count : Nat) : List String := List.replicate (d.rejected + 1) (question count)

/-- All reproofs of a dialogue. -/
def Dialogue.reproofs (d : Dialogue) (count : Nat) : List String := List.replicate d.rejected (reproof count)

end ChatScene.Prompt

/-
  Building a command from the tokens of a line.

  1. **Reasons** — a command that breaks the rules of its kind is refused with its line, kind, tokens and a reason
     (`CommandError`).  `Breach` names the rule that is broken, and `CommandError.message` puts it into words.

  2. **The rules of the kinds** — the kind says how many tokens follow the keyword and what they have to hold
     (`Body.ofTokens`).  The number is looked at first, then whether one of them is empty, from left to right, and last
     what they spell.

  3. **Commands** — `Command.ofTokens` trims the tokens, takes the first of them for the keyword, and applies the rules
     of its kind.
-/
import ChatScene.Text.Quoted
import ChatScene.Command.Compare

namespace ChatScene

open ChatScene.Text

/-! ## Reasons -/

/-- A token that has to hold something. -/
inductive Slot where
  | picture
  | variableName
  | choice (number : Nat)
  | expected
  | target
  | label
deriving DecidableEq, Repr

/-- What messages call the token. -/
def Slot.name : Slot → String
  | .picture => "Picture name"
  | .variableName => "Variable name"
  | .choice number => s!"Choice {number}"
  | .expected => "Expected value"
  | .target => "Jump label"
  | .label => "Label name"

/-- Which rule a line breaks. -/
inductive Breach where
  | unknownKeyword (keyword : String)
  | argumentCount
  | emptyText
  | empty (slot : Slot)
  | brokenComparison
  | badWait
deriving DecidableEq, Repr

/-- The wording of a breach. -/
def Breach.message : Breach → String
  | .unknownKeyword keyword => s!"Unknown command '{keyword}'."
  | .argumentCount => "Wrong number of arguments."
  | .emptyText => "Text to show is empty."
  | .empty slot => slot.name ++ " is empty."
  | .brokenComparison => "Numeric comparison value is not a number (20, =20, >20, <20)."
  | .badWait => "Wait must be a number greater than 0 and at most 5."

/-- A refused line. -/
structure CommandError where
  /-- The number of the line. -/
  line : Line
  /-- The kind that the keyword names. -/
  kind : Kind
  /-- The trimmed tokens. -/
  args : List String
  /-- The rule that is broken. -/
  breach : Breach
deriving BEq, Repr

/-- The reason, followed by how the command is written. -/
def CommandError.reason (e : CommandError) : String :=
  e.breach.message ++ (e.kind.usage.elim "" ("\nex: " ++ ·))

/-- The whole text of the error. -/
def CommandError.message (e : CommandError) : String :=
  s!"{e.reason}\nInvalid command at line {e.line.text} of type {e.kind.name} with args: {commaList e.args}"

/-! ## The rules of the kinds -/

/-- The first choice that is empty, numbered from `n`. -/
def emptyChoice? (n : Nat) : List String → Option Nat
  | [] => none
  | c :: cs => if c = "" then some n else emptyChoice? (n + 1) cs

/-- A command with exactly one token after the keyword, which must not be empty. -/
def oneName (slot : Slot) (make : String → Body) : List String → Except Breach Body
  | [name] => if name = "" then .error (.empty slot) else .ok (make name)
  | _ => .error .argumentCount

/-- The longest wait in seconds. -/
def maxWait : Float := 5

/-- The fields of a command, from its trimmed tokens after the keyword. -/
def Body.ofTokens (kind : Kind) (tokens : List String) : Except Breach Body :=
  match kind with
  | .unknown => .error .argumentCount
  | .text =>
    if tokens.isEmpty then .error .argumentCount
    else
      -- The line was cut at its commas, so the text gets them back here, each with one blank behind it.
      let text := commaList tokens
      if isBlankText text.toList then .error .emptyText else .ok (.text text)
  | .image => oneName .picture .image tokens
  | .choice =>
    match tokens with
    | var :: choices =>
      if choices.length = 2 ∨ choices.length = 3 then
        if var = "" then .error (.empty .variableName)
        else
          match emptyChoice? 1 choices with
          | some n => .error (.empty (.choice n))
          | none => .ok (.choice var choices)
      else .error .argumentCount
    | [] => .error .argumentCount
  | .condition =>
    match tokens with
    | [var, expected, target] =>
      if var = "" then .error (.empty .variableName)
      else if expected = "" then .error (.empty .expected)
      else if target = "" then .error (.empty .target)
      -- Only now, since an empty target is the fault to report of a line that has both.
      else if isBrokenComparison expected.toList then .error .brokenComparison
      else .ok (.condition ⟨var, expected, target, Mode.ofExpected expected⟩)
    | _ => .error .argumentCount
  | .label => oneName .label .label tokens
  | .wait =>
    match tokens with
    | [seconds] =>
      match Decimal.readFinite seconds.toList with
      -- The words for values that are not finite are numerals, but `readFinite` gives nothing for them.
      | some s => if 0 < s && s ≤ maxWait then .ok (.wait s) else .error .badWait
      | none => .error .badWait
    | _ => .error .argumentCount
  | .jump => oneName .target .jump tokens

/-- The command that a tokenized line gives. -/
def Command.ofTokens (line : Line) (tokens : List String) : Except CommandError Command :=
  let args := tokens.map trimmed
  let keyword := args.headD ""
  let kind := Kind.ofKeyword keyword
  let refuse (breach : Breach) : CommandError := ⟨line, kind, args, breach⟩
  -- Decided before the rules of the kinds, where an unknown keyword would count as a wrong number of tokens.
  if kind = .unknown then .error (refuse (.unknownKeyword keyword))
  else
    match Body.ofTokens kind args.tail with
    | .error breach => .error (refuse breach)
    | .ok body => .ok ⟨line, args, body⟩

end ChatScene

/-
  Options and operands of a command line.

  Arguments are wide texts, since the names of files are.

  1. **Grammars** — a `Grammar` lists flags, some of which take a value, and one operand.

  2. **Words** — each argument is first read by itself (`Grammar.sense`): as a flag, as the divider after which there
     are no flags any more, as an unknown flag, or as a plain word.  A long flag may be cut short as long as only one
     flag begins like that.

  3. **Flags in one word** — short flags without a value may be run together, and the last of them may carry its value
     (`Grammar.flagsOf`).

  4. **Going through the words** — `Grammar.read` takes the words in order.  The operand takes the first plain word, or
     the first run of plain words, or all from the first plain word on (`Arity`); words that nobody takes are left over.
     `Grammar.parse` is the reading of a whole command line.
-/
import ChatScene.Text.Digit
import ChatScene.Text.Quoted
import ChatScene.Text.Split

namespace ChatScene.CommandLine

open ChatScene.Text

/-! ## Grammars -/

/-- A flag. -/
structure Flag where
  /-- Its names: one dash and a letter, or two dashes and a word. -/
  names : List String
  /-- A value follows it. -/
  hasValue : Bool := false
deriving DecidableEq, Repr

/-- What a flag is called in messages. -/
def Flag.title (f : Flag) : String := String.intercalate "/" f.names

/-- The flag that asks for help. -/
def helpFlag : Flag := { names := ["-h", "--help"] }

/-- How much the operand takes. -/
inductive Arity where
  /-- One word. -/
  | one
  /-- A run of words. -/
  | several
  /-- A word and all that follows it. -/
  | everything
deriving DecidableEq, Repr

/-- The flags and the operand of a command. -/
structure Grammar where
  /-- The flags. -/
  flags : List Flag
  /-- The name of the operand. -/
  operand : String
  /-- How much it takes. -/
  arity : Arity

/-- All names of flags with their flags. -/
def Grammar.names (g : Grammar) : List (String × Flag) := g.flags.flatMap fun f => f.names.map (·, f)

/-- The name of a flag that an argument is, and the flag. -/
def Grammar.flag? (g : Grammar) (argument : Wide) : Option (String × Flag) := g.names.find? (ofString ·.1 = argument)

/-! ## Misuse -/

/-- Why arguments are refused. -/
inductive Misuse where
  /-- Several flags begin like this. -/
  | ambiguous (argument : Wide) (names : List String)
  | noValue (flag : Flag)
  /-- The flag takes no value. -/
  | needlessValue (flag : Flag) (value : Wide)
  /-- There is no operand. -/
  | missing (operand : String)
  /-- The operand is none of these words. -/
  | noSuch (operand : String) (word : Wide) (words : List String)
  /-- Nobody takes these arguments. -/
  | leftOver (arguments : List Wide)
deriving DecidableEq, Repr

/-- The wording of a misuse. -/
def Misuse.message : Misuse → String
  | .ambiguous argument names => s!"ambiguous option: {spelled argument} could match {commaList names}"
  | .noValue flag => s!"argument {flag.title}: expected one argument"
  | .needlessValue flag value => s!"argument {flag.title}: ignored explicit argument {quoted value}"
  | .missing operand => s!"the following arguments are required: {operand}"
  | .noSuch operand word words =>
    s!"argument {operand}: invalid choice: {quoted word} (choose from {commaList (words.map (quoted <| ofString ·))})"
  | .leftOver arguments => "unrecognized arguments: " ++ String.intercalate " " (arguments.map spelled)

/-! ## Words -/

/-- What an argument is by itself. -/
inductive Sense where
  | plain
  | divider
  /-- It looks like a flag, but there is none. -/
  | unknown
  /-- A flag, the name that it was found by, and what follows the name in the same argument. -/
  | flag (flag : Flag) (name : String) (tail : Wide)
deriving DecidableEq, Repr

/-- The name that a flag was found by. -/
def Sense.name? : Sense → Option String
  | .flag _ name _ => some name
  | _ => none

/-- An argument with what it is. -/
structure Word where
  /-- The argument. -/
  text : Wide
  /-- What it is. -/
  sense : Sense
deriving DecidableEq, Repr

/-- The part before the first equals sign, and the rest with the sign. -/
def cutAtEquals (argument : Wide) : Wide × Wide :=
  (argument.takeWhile (· ≠ .char '='), argument.dropWhile (· ≠ .char '='))

/-- The flags that an argument may stand for: those that begin like a long name that was cut short, or the one of a
    short name that the argument begins with. -/
def Grammar.candidates (g : Grammar) (argument : Wide) : List Sense :=
  match argument with
  | .char '-' :: .char '-' :: _ =>
    let (front, tail) := cutAtEquals argument
    (g.names.filter fun (name, _) => front.isPrefixOf (ofString name)).map fun (name, f) => .flag f name tail
  | .char '-' :: p :: tail =>
    (g.names.filter fun (name, _) => ofString name = [.char '-', p]).map fun (name, f) => .flag f name tail
  | _ => []

/-- The flag whose name is the whole argument, or the part before an equals sign. -/
def Grammar.named? (g : Grammar) (argument : Wide) : Option Sense :=
  match g.flag? argument with
  -- The whole argument first: a name could hold an equals sign itself.
  | some (name, f) => some (.flag f name [])
  | none =>
    let (front, tail) := cutAtEquals argument
    (g.flag? front).map fun (name, f) => .flag f name tail

/-- A digit. -/
def isDigitPoint (p : Point) : Bool := (p.char?.bind digitValue?).isSome

/-- Digits only, and at least one; a line feed may follow. -/
def areDigits (w : Wide) : Bool :=
  let w := if w.getLast? = some (.char '\n') then w.dropLast else w
  !w.isEmpty && w.all isDigitPoint

/-- What follows the dash of a negative number: digits, with or without a point before some of them. -/
def isMagnitude (w : Wide) : Bool :=
  areDigits w ||
    match w.dropWhile isDigitPoint with
    | .char '.' :: rest => areDigits rest
    | _ => false

/-- An argument that begins with a dash and is no flag: a negative number, or a text with a blank. -/
def isDashedText (argument : Wide) : Bool := isMagnitude (argument.drop 1) || argument.contains (.char ' ')

/-- What an argument is by itself. -/
def Grammar.sense (g : Grammar) (argument : Wide) : Except Misuse Sense :=
  match argument with
  | .char '-' :: _ :: _ =>
    match g.named? argument with
    | some s => .ok s
    | none =>
      match g.candidates argument with
      | [s] => .ok s
      -- Negative numbers and texts with blanks are meant as words.
      | [] => .ok (if isDashedText argument then .plain else .unknown)
      | several => .error (.ambiguous argument (several.filterMap Sense.name?))
  | _ => .ok .plain

/-- The words of a command line; behind the divider all of them are plain. -/
def Grammar.words (g : Grammar) : List Wide → Except Misuse (List Word)
  | [] => .ok []
  | argument :: rest =>
    -- Behind the divider every argument is plain, a second divider included.
    if argument = ofString "--" then .ok (⟨argument, .divider⟩ :: rest.map (⟨·, .plain⟩))
    else
      match g.sense argument with
      | .error m => .error m
      | .ok sense =>
        match g.words rest with
        | .error m => .error m
        | .ok words => .ok (⟨argument, sense⟩ :: words)

/-! ## Flags in one word -/

/-- A flag that was given, with its value if it takes one. -/
structure Given where
  /-- The flag. -/
  flag : Flag
  /-- Its value. -/
  value : Option Wide := none
deriving DecidableEq, Repr

/-- What one argument gives. -/
structure Cluster where
  /-- The flags. -/
  given : List Given := []
  /-- The last flag, if its value is still to come. -/
  waiting : Option Flag := none
  /-- What stands behind the flags and is none. -/
  leftOver : List Wide := []
deriving DecidableEq, Repr

/-- The flags in one argument: a flag and what follows its name.  Behind an equals sign there is a value.  Otherwise
    what follows is the value of a flag that takes one, and a run of short flags behind one that takes none. -/
def Grammar.flagsOf (g : Grammar) (f : Flag) : Wide → Except Misuse Cluster
  | [] => .ok (if f.hasValue then { waiting := some f } else { given := [{ flag := f }] })
  | .char '=' :: value =>
    if f.hasValue then .ok { given := [⟨f, some value⟩] } else .error (.needlessValue f value)
  | p :: rest =>
    if f.hasValue then .ok { given := [⟨f, some (p :: rest)⟩] }
    -- A dash cannot be the letter of a short flag.
    else if p = .char '-' then .error (.needlessValue f (p :: rest))
    else
      match g.flag? [.char '-', p] with
      -- The flag before counts; what follows is left over as if it were an argument of its own.
      | none => .ok { given := [{ flag := f }], leftOver := [.char '-' :: p :: rest] }
      | some (_, next) =>
        match g.flagsOf next rest with
        | .error m => .error m
        | .ok more => .ok { more with given := { flag := f } :: more.given }

/-! ## Going through the words -/

/-- How far the operand is. -/
inductive Slot where
  | vacant
  /-- A divider has come, and no operand yet. -/
  | divided
  /-- Words that follow belong to it. -/
  | filling
  /-- It has its one word; a divider right behind belongs to it. -/
  | fresh
  | filled
deriving DecidableEq, Repr

/-- The operand after a flag. -/
def Slot.closed : Slot → Slot
  | .filling | .fresh => .filled
  | slot => slot

/-- What has been read so far. -/
structure Reading where
  /-- The flags, in order. -/
  given : List Given := []
  /-- The words of the operand. -/
  operand : List Wide := []
  /-- The words that nobody takes. -/
  leftOver : List Wide := []
  /-- How far the operand is. -/
  slot : Slot := .vacant
  /-- The flag whose value comes next. -/
  waiting : Option Flag := none
deriving Repr

/-- Why reading ends early. -/
inductive Stop where
  | help
  | misuse (why : Misuse)
deriving DecidableEq, Repr

/-- Help is given as soon as it has been asked for. -/
def Reading.heed (r : Reading) : Except Stop Reading :=
  if r.waiting.isNone && r.given.any (·.flag = helpFlag) then .error .help else .ok r

/-- What an argument gives is taken in. -/
def Reading.give (r : Reading) (c : Cluster) : Reading :=
  { r with given := r.given ++ c.given, waiting := c.waiting, leftOver := r.leftOver ++ c.leftOver }

/-- A word that nobody takes. -/
def Reading.leave (r : Reading) (text : Wide) : Reading := { r with leftOver := r.leftOver ++ [text] }

/-- A plain word. -/
def Grammar.takePlain (g : Grammar) (r : Reading) (text : Wide) : Reading :=
  let next := if g.arity = .one then Slot.fresh else .filling
  match r.slot with
  | .vacant => { r with operand := [text], slot := next }
  -- Where the operand is all that follows, the divider is part of it.
  | .divided => { r with operand := if g.arity = .everything then [ofString "--", text] else [text], slot := next }
  | .filling => { r with operand := r.operand ++ [text] }
  -- The operand has its word, or has been closed by a flag.
  | .fresh | .filled => { r with slot := .filled }.leave text

/-- The divider. -/
def Reading.takeDivider (r : Reading) : Reading :=
  match r.slot with
  | .vacant => { r with slot := .divided }
  | .filling => r
  | .fresh => { r with slot := .filled }
  | .divided | .filled => r.leave "--"

/-- The next word. -/
def Grammar.read (g : Grammar) (r : Reading) (w : Word) : Except Stop Reading :=
  match r.waiting with
  | some f =>
    -- Only a plain word can be the value of a flag; behind the divider every word is one.
    match w.sense with
    | .plain => (r.give { given := [⟨f, some w.text⟩] }).heed
    | _ => .error (.misuse (.noValue f))
  | none =>
    -- A command gets its own flags: the program does not read them.
    if g.arity = .everything ∧ r.slot = .filling then .ok { r with operand := r.operand ++ [w.text] }
    else
      match w.sense with
      | .plain => .ok (g.takePlain r w.text)
      | .divider => .ok r.takeDivider
      | .unknown => .ok ({ r with slot := r.slot.closed }.leave w.text)
      | .flag f _ tail =>
        match g.flagsOf f tail with
        | .error m => .error (.misuse m)
        | .ok cluster => ({ r with slot := r.slot.closed }.give cluster).heed

/-- All words, one after the other. -/
def Grammar.readAll (g : Grammar) (r : Reading) : List Word → Except Stop Reading
  | [] => .ok r
  | w :: rest =>
    match g.read r w with
    | .error s => .error s
    | .ok r => g.readAll r rest

/-- No word is left: every flag has its value, and there is an operand. -/
def Grammar.finish (g : Grammar) (r : Reading) : Except Stop Reading :=
  match r.waiting, r.slot with
  | some f, _ => .error (.misuse (.noValue f))
  | none, .vacant | none, .divided => .error (.misuse (.missing g.operand))
  | none, _ => .ok r

/-- The reading of a command line. -/
def Grammar.parse (g : Grammar) (arguments : List Wide) : Except Stop Reading :=
  match g.words arguments with
  | .error m => .error (.misuse m)
  | .ok words =>
    match g.readAll {} words with
    | .error s => .error s
    | .ok r => g.finish r

/-- The flag was given. -/
def Reading.has (r : Reading) (f : Flag) : Bool := r.given.any (·.flag = f)

/-- The last time that the flag was given. -/
def Reading.last? (r : Reading) (f : Flag) : Option Given := r.given.reverse.find? (·.flag = f)

end ChatScene.CommandLine

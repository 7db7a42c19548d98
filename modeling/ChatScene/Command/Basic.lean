/-
  Commands: one instruction of a scene.

  A command carries the number of its line, its trimmed tokens and a body with the fields that its kind has.  The
  body `bare` has no fields; no reader of commands builds one.
-/
import ChatScene.Decimal.Shortest

namespace ChatScene

/-! ## Line numbers -/

/-- The number of a command's line.  Compiled scenes may spell it as a double without fraction. -/
inductive Line where
  | whole (n : Int)
  | real (x : Float)
deriving BEq, Repr

/-- A line number in messages. -/
def Line.text : Line → String
  | .whole n => toString n
  | .real x => Decimal.shown.render x

/-- A line number without fraction. -/
def Line.toInt : Line → Int
  | .whole n => n
  | .real x => (Decimal.whole? x).getD 0

/-! ## Kinds -/

/-- The kinds of commands; `unknown` stands for every other keyword. -/
inductive Kind where
  | unknown
  | text
  | image
  | choice
  | condition
  | label
  | wait
  | jump
deriving DecidableEq, Repr

namespace Kind

/-- The name of a kind. -/
def name : Kind → String
  | unknown => "UNKNOWN"
  | text => "TEXT"
  | image => "IMAGE"
  | choice => "CHOICE"
  | condition => "IF"
  | label => "LABEL"
  | wait => "WAIT"
  | jump => "GOTO"

/-- The name of a kind in compiled scenes. -/
def lowerName : Kind → String
  | unknown => "unknown"
  | text => "text"
  | image => "image"
  | choice => "choice"
  | condition => "if"
  | label => "label"
  | wait => "wait"
  | jump => "goto"

/-- The kind that a keyword stands for. -/
def ofKeyword (keyword : String) : Kind :=
  if keyword = "@text" then text
  else if keyword = "@image" then image
  else if keyword = "@choice" then choice
  else if keyword = "@if" then condition
  else if keyword = "@label" then label
  else if keyword = "@wait" then wait
  else if keyword = "@goto" then jump
  else unknown

/-- How a command of the kind is written. -/
def usage : Kind → Option String
  | unknown => none
  | text => some "@text, <text to show>"
  | image => some "@image, <picture name>"
  | choice => some "@choice, <variable>, <choice 1>, <choice 2>, [choice 3]"
  | condition => some "@if, <variable>, <expected value>, <label>"
  | label => some "@label, <label name>"
  | wait => some "@wait, <seconds>"
  | jump => some "@goto, <label name>"

end Kind

/-! ## Conditions -/

/-- How a condition compares a variable's value with the expected one. -/
inductive Mode where
  | exact
  | numeric
  | boolean
deriving DecidableEq, Repr

/-- The name of a mode. -/
def Mode.name : Mode → String
  | .exact => "STRING"
  | .numeric => "NUMERIC"
  | .boolean => "BOOLEAN"

/-- A jump that depends on a variable. -/
structure Condition where
  /-- The variable that is looked at. -/
  var : String
  /-- The value that it is compared with, perhaps with an operator in front. -/
  expected : String
  /-- Where to go when the comparison holds. -/
  label : String
  /-- How the two are compared. -/
  mode : Mode
deriving DecidableEq, Repr

/-! ## Commands -/

/-- The fields of a command, by its kind. -/
inductive Body where
  | bare
  | text (text : String)
  | image (name : String)
  | choice (var : String) (choices : List String)
  | condition (test : Condition)
  | label (name : String)
  | wait (seconds : Float)
  | jump (label : String)
deriving BEq, Repr

/-- The kind of a body. -/
def Body.kind : Body → Kind
  | .bare => .unknown
  | .text _ => .text
  | .image _ => .image
  | .choice _ _ => .choice
  | .condition _ => .condition
  | .label _ => .label
  | .wait _ => .wait
  | .jump _ => .jump

/-- One instruction of a scene. -/
structure Command where
  /-- The number of its line, from zero. -/
  line : Line
  /-- Its trimmed tokens, the keyword first. -/
  args : List String
  /-- The fields that its tokens give. -/
  body : Body
deriving BEq, Repr

/-- The kind of a command. -/
def Command.kind (c : Command) : Kind := c.body.kind

/-- The first token. -/
def Command.keyword (c : Command) : String := c.args.headD ""

/-- The name that a command defines as a label. -/
def Command.label? (c : Command) : Option String :=
  match c.body with
  | .label name => some name
  | _ => none

end ChatScene

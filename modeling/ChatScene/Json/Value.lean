/-
  JSON documents.

  1. **Values** — `Json` keeps whole numbers and other numbers apart: a number without fraction and exponent is an
     integer of any size, every other number a double (and so are the three words for values that are no finite
     numbers).  Texts and names are wide: a document may hold halves of characters.

  2. **Members** — the members of an object keep the order in which their names first appear (`Json.put`).

  3. **Values in messages** — `Json.shown` is a value as messages show it.
-/
import ChatScene.Text.Quoted
import ChatScene.Decimal.Shortest

namespace ChatScene

/-- A JSON value. -/
inductive Json where
  | null
  | bool (b : Bool)
  | int (n : Int)
  | float (x : Float)
  | str (s : Text.Wide)
  | arr (items : List Json)
  | obj (members : List (Text.Wide × Json))
deriving Inhabited

namespace Json

/-! ## Members of an object -/

/-- The members with `name` set to `value`: in its old place, or at the end when the name is new. -/
def put (name : Text.Wide) (value : Json) : List (Text.Wide × Json) → List (Text.Wide × Json)
  | [] => [(name, value)]
  | (k, v) :: rest => if k = name then (k, value) :: rest else (k, v) :: put name value rest

/-- The value of the first member of that name. -/
def lookup (name : Text.Wide) : List (Text.Wide × Json) → Option Json
  | [] => none
  | (k, v) :: rest => if k = name then some v else lookup name rest

/-- A member of an object; nothing for other values. -/
def get? (j : Json) (name : Text.Wide) : Option Json :=
  match j with
  | .obj members => lookup name members
  | _ => none

/-- The text of a string value, with halves as they are. -/
def wide? : Json → Option Text.Wide
  | .str s => some s
  | _ => none

/-- The text of a string value, with halves spelled out. -/
def str? (j : Json) : Option String := j.wide?.map Text.spelled

/-- The items of an array. -/
def arr? : Json → Option (List Json)
  | .arr items => some items
  | _ => none

/-! ## Values in messages -/

/-- The spelling of a truth value in messages. -/
def shownBool (b : Bool) : String := if b then "True" else "False"

mutual

/-- A value as messages show it: texts in quotes, lists in brackets, objects in braces. -/
def shown : Json → String
  | .null => "None"
  | .bool b => shownBool b
  | .int n => toString n
  | .float x => Decimal.shown.render x
  | .str s => Text.quoted s
  | .arr items => "[" ++ Text.commaList (shownItems items) ++ "]"
  | .obj members => "\x7b" ++ Text.commaList (shownMembers members) ++ "\x7d"

/-- The items of a list as messages show them. -/
def shownItems : List Json → List String
  | [] => []
  | j :: js => shown j :: shownItems js

/-- The members of an object as messages show them. -/
def shownMembers : List (Text.Wide × Json) → List String
  | [] => []
  | (k, v) :: rest => (Text.quoted k ++ ": " ++ shown v) :: shownMembers rest

end

/-- The word that messages use for the sort of a value. -/
def sortWord : Json → String
  | .null => "NoneType"
  | .bool _ => "bool"
  | .int _ => "int"
  | .float _ => "float"
  | .str _ => "str"
  | .arr _ => "list"
  | .obj _ => "dict"

end Json

end ChatScene

/-
  Schemas: which documents are accepted, and what is said about the others.

  1. **Schemas** — a `Schema` names the shape of a value and lists further rules.  A `Rule` concerns values of one
     shape; values of other shapes keep it.

  2. **Violations** — `Schema.violations` collects all violations in the order of the rules, each with the path to the
     value that is at fault.

  3. **The violation to report** — `bestViolation` takes one with the shortest path, among those the greatest path,
     among those preferably one whose value is not of the shape that the schema asks for, and among those it is the
     first (`Violation.outranks`).  `Schema.check` accepts a document, or gives the complaint of that violation.
-/
import ChatScene.Json.Value

namespace ChatScene.Json

/-! ## Schemas -/

/-- The shapes that a schema can ask for. -/
inductive Shape where
  | object
  | array
  | string
  | integer
deriving DecidableEq, Repr

/-- The name of a shape. -/
def Shape.name : Shape → String
  | .object => "object"
  | .array => "array"
  | .string => "string"
  | .integer => "integer"

/-- Values of a shape; a double without fraction is an integer, a truth value is none. -/
def Shape.admits : Shape → Json → Bool
  | .object, .obj _ => true
  | .array, .arr _ => true
  | .string, .str _ => true
  | .integer, .int _ => true
  | .integer, .float x => (Decimal.whole? x).isSome
  | _, _ => false

mutual

/-- A shape and further rules. -/
inductive Schema where
  | mk (shape : Shape) (rules : List Rule)

/-- A rule on values of the shape that it concerns; values of other shapes keep it. -/
inductive Rule where
  /-- An object has these members. -/
  | required (names : List String)
  /-- A member of this name, if present, follows its schema. -/
  | member (name : String) (schema : Schema)
  /-- Every member follows the schema. -/
  | members (schema : Schema)
  /-- Every item of a list follows the schema. -/
  | items (schema : Schema)
  /-- A list is not empty. -/
  | someItem
  /-- A text is not empty. -/
  | someText
  /-- A number is not negative. -/
  | notNegative

end

/-! ## Violations -/

/-- One step into a document. -/
inductive Step where
  | name (s : Text.Wide)
  | index (i : Nat)
deriving DecidableEq, Repr

/-- A rule that is broken, with the value that breaks it. -/
inductive Complaint where
  | wrongShape (value : Json) (shape : Shape)
  | missing (name : String)
  | negative (value : Json)
  | empty (value : Json)

/-- The wording of a complaint. -/
def Complaint.message : Complaint → String
  | .wrongShape value shape => s!"{shown value} is not of type '{shape.name}'"
  | .missing name => s!"{Text.quoted name} is a required property"
  | .negative value => s!"{shown value} is less than the minimum of 0"
  | .empty value => s!"{shown value} should be non-empty"

/-- A complaint with its place. -/
structure Violation where
  /-- The way from the top to the value. -/
  path : List Step
  /-- The value is of the shape that its schema asks for. -/
  fits : Bool
  /-- What is wrong. -/
  complaint : Complaint

/-- The violation seen from one step further up. -/
def Violation.under (step : Step) (v : Violation) : Violation := { v with path := step :: v.path }

/-- A number below zero. -/
def isBelowZero : Json → Bool
  | .int n => n < 0
  | .float x => x < 0
  | _ => false

mutual

/-- All violations of a schema by a value, in the order of the rules. -/
def Schema.violations : Schema → Json → List Violation
  | .mk shape rules, j =>
    let fits := shape.admits j
    -- The rules are looked at even when the shape is wrong, since a rule may concern values of another shape.
    (if fits then [] else [⟨[], fits, .wrongShape j shape⟩]) ++ rulesViolations fits rules j

/-- The violations of a list of rules by a value. -/
def rulesViolations (fits : Bool) : List Rule → Json → List Violation
  | [], _ => []
  | rule :: rules, j => rule.violations fits j ++ rulesViolations fits rules j

/-- The violations of one rule by a value. -/
def Rule.violations (fits : Bool) : Rule → Json → List Violation
  | .required names, .obj members =>
    (names.filter fun name => (lookup (Text.ofString name) members).isNone).map fun name => ⟨[], fits, .missing name⟩
  | .member name schema, .obj members =>
    match lookup name members with
    | some value => (schema.violations value).map (.under (.name name))
    | none => []
  | .members schema, .obj members =>
    members.flatMap fun (name, value) => (schema.violations value).map (.under (.name name))
  | .items schema, .arr items =>
    items.zipIdx.flatMap fun (value, i) => (schema.violations value).map (.under (.index i))
  | .someItem, .arr items => if items.isEmpty then [⟨[], fits, .empty (.arr items)⟩] else []
  | .someText, .str s => if s.isEmpty then [⟨[], fits, .empty (.str s)⟩] else []
  -- Doubles count as numbers here, also those that are no integers.
  | .notNegative, j => if isBelowZero j then [⟨[], fits, .negative j⟩] else []
  | _, _ => []

end

/-! ## The violation to report -/

/-- The order of steps; members by name, items by position. -/
def Step.compare : Step → Step → Ordering
  | .name a, .name b => Ord.compare (a.map Text.Point.code) (b.map Text.Point.code)
  | .index i, .index j => Ord.compare i j
  -- Does not happen in one document: a value has members or items, not both.
  | .name _, .index _ => .gt
  | .index _, .name _ => .lt

/-- The order of paths: the first difference decides. -/
def comparePaths : List Step → List Step → Ordering
  | [], [] => .eq
  | [], _ :: _ => .lt
  | _ :: _, [] => .gt
  | a :: as, b :: bs => (Step.compare a b).then (comparePaths as bs)

/-- `v` is to be reported rather than `w`. -/
def Violation.outranks (v w : Violation) : Bool :=
  -- The shorter path wins, so the lengths are compared the other way round; and so are the shapes.
  let order := (Ord.compare w.path.length v.path.length).then
    ((comparePaths v.path w.path).then (Ord.compare w.fits v.fits))
  order == .gt

/-- The first violation that no other outranks. -/
def bestViolation : List Violation → Option Violation
  | [] => none
  -- A later one replaces the best so far only if it is better, so of equals the first stays.
  | v :: vs => some (vs.foldl (fun best w => if w.outranks best then w else best) v)

/-- Accepts a value, or says what is wrong with it. -/
def Schema.check (schema : Schema) (j : Json) : Except Complaint Unit :=
  match bestViolation (schema.violations j) with
  | none => .ok ()
  | some v => .error v.complaint

end ChatScene.Json

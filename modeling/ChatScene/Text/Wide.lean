/-
  Wide texts: texts that may hold halves of characters.

  Some characters can be written as a pair of halves, in documents and in names of files.  A half that has lost its
  other half is a number like any character's, but no character: it can be kept and compared, and no file and no strict
  terminal takes it.

  1. **Points** — `Point` is a character or a half, and `Wide` a list of them.  Every `String` is a wide text (the
     coercion is `ofString`), and `whole?` goes back where there is no half.

  2. **Spelling out** — `spelled` writes each half as an escape.  This is how messages show a wide text.

  3. **Refusals** — `refusal? takes w` finds the first run of halves in `w` with one that is not taken, and `Refusal`
     says where it is.
-/
import ChatScene.Text.Digit

namespace ChatScene.Text

/-! ## Points -/

/-- Half of a character: its number, counted from the first one. -/
abbrev Half := Fin 0x800

/-- A character, or half of one. -/
inductive Point where
  | char (c : Char)
  | half (h : Half)
deriving DecidableEq, Repr

/-- A text that may hold halves of characters. -/
abbrev Wide := List Point

/-- The number of a point. -/
def Point.code : Point → Nat
  | .char c => c.toNat
  | .half h => 0xD800 + h.val

/-- The character that a point is. -/
def Point.char? : Point → Option Char
  | .char c => some c
  | .half _ => none

/-- The half that a point is. -/
def Point.half? : Point → Option Half
  | .char _ => none
  | .half h => some h

/-- A text as a wide one. -/
def ofString (s : String) : Wide := s.toList.map .char

instance : Coe String Wide := ⟨ofString⟩

/-- The text, if there is no half in it. -/
def whole? (w : Wide) : Option String := (w.mapM Point.char?).map String.ofList

@[simp] theorem whole?_ofString (s : String) : whole? s = some s := by
  have hall : ∀ cs : List Char, (cs.map Point.char).mapM Point.char? = some cs := by
    intro cs
    induction cs with
    | nil => rfl
    | cons c cs ih => simp [List.mapM_cons, Point.char?, ih]
  simp [whole?, ofString, hall]

@[simp] theorem ofString_inj {s t : String} : ofString s = ofString t ↔ s = t := by
  constructor
  · intro h
    have hsame := congrArg whole? h
    simpa using hsame
  · rintro rfl
    rfl

/-- There is no half in the text. -/
def IsWhole (w : Wide) : Prop := ∃ s : String, w = ofString s

theorem isWhole_ofString (s : String) : IsWhole s := ⟨s, rfl⟩

/-! ## Spelling out -/

/-- A half as an escape. -/
def spelledHalf (h : Half) : List Char := '\\' :: 'u' :: (hexText 4 (0xD800 + h.val)).toList

/-- A point with a half spelled out. -/
def spelledPoint : Point → List Char
  | .char c => [c]
  | .half h => spelledHalf h

/-- The text with every half spelled out. -/
def spelled (w : Wide) : String := String.ofList (w.flatMap spelledPoint)

@[simp] theorem spelled_ofString (s : String) : spelled s = s := by
  simp [spelled, ofString, List.flatMap_map, spelledPoint]

/-! ## Refusals -/

/-- A run of halves that is refused. -/
structure Refusal where
  /-- Where it begins. -/
  position : Nat
  /-- How many halves it has. -/
  count : Nat
  /-- The first of them. -/
  first : Half
deriving DecidableEq, Repr

/-- The text of a refusal. -/
def Refusal.message (r : Refusal) : String :=
  let place :=
    if r.count = 1 then s!"character '{String.ofList (spelledHalf r.first)}' in position {r.position}"
    else s!"characters in position {r.position}-{r.position + r.count - 1}"
  s!"'utf-8' codec can't encode {place}: surrogates not allowed"

/-- The first refusal in a text that begins at this position, by someone who takes some halves. -/
def refusalFrom (takes : Half → Bool) (position : Nat) : Wide → Option Refusal
  | [] => none
  | .char _ :: rest => refusalFrom takes (position + 1) rest
  | .half h :: rest =>
    if takes h then refusalFrom takes (position + 1) rest
    else some ⟨position, (rest.takeWhile (·.half?.isSome)).length + 1, h⟩

/-- The first refusal in a text, by someone who takes some halves. -/
def refusal? (takes : Half → Bool) (w : Wide) : Option Refusal := refusalFrom takes 0 w

theorem refusalFrom_ofString (takes : Half → Bool) (position : Nat) (cs : List Char) :
    refusalFrom takes position (cs.map .char) = none := by
  induction cs generalizing position with
  | nil => rfl
  | cons c cs ih => exact ih (position + 1)

/-- A text is refused just when one of its halves is. -/
theorem refusal?_isSome_iff {takes : Half → Bool} {w : Wide} :
    (refusal? takes w).isSome ↔ ∃ h, Point.half h ∈ w ∧ takes h = false := by
  have hfrom : ∀ position, (refusalFrom takes position w).isSome ↔ ∃ h, Point.half h ∈ w ∧ takes h = false := by
    induction w with
    | nil => simp [refusalFrom]
    | cons p w ih =>
      intro position
      cases p with
      | char c => simp [refusalFrom, ih]
      | half h => cases htakes : takes h <;> simp [refusalFrom, htakes, ih, or_and_right, exists_or]
  exact hfrom 0

/-! ## Names of files -/

/-- A half that stands for a byte that begins no character; names of files may hold these. -/
def isByteHalf (h : Half) : Bool := 0x480 ≤ h.val && h.val < 0x500

/-- How many bytes a point takes in the name of a file. -/
def Point.byteCount : Point → Nat
  | .char c => c.utf8Size
  | .half _ => 1

/-- How many bytes a text takes in the name of a file. -/
def byteCount (w : Wide) : Nat := w.foldl (fun n p => n + p.byteCount) 0

example : (refusal? isByteHalf [.half 0x4ff, .char 'a', .half 0, .half 0x480]).map Refusal.message =
    some "'utf-8' codec can't encode characters in position 2-3: surrogates not allowed" := by decide +kernel
example : spelled [.char 'a', .half 0x4ff] = "a\\udcff" := by decide +kernel

end ChatScene.Text

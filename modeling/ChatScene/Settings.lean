/-
  Settings of a session.

  1. **Settings** — there are four of them (`Settings`, `Setting`), each with a usual value.

  2. **Conversions** — values come from documents and are converted: seconds from numbers, truth values and numerals
     (`readSeconds`); switches from truth values, 0 and 1, and the usual words (`readSwitch`); the comment mark from a
     text that is not empty (`readMark`).  A text with half of a character is none of these.

  3. **Documents** — `Settings.ofJson` refuses a document as a whole, with every fault it has: first those of the
     settings in their order, then the members that are no settings, in the order of the document.

  4. **Settings in force** — a `Revision` changes all settings or a single one, and changes nothing if it is refused.

  5. **The text of a refusal** — `settingErrorsText` tells of all faults, each with its place and a shortened value.
-/
import ChatScene.Decimal.Numeral
import ChatScene.Json.Value

namespace ChatScene

open ChatScene.Text

/-- The settings of a session. -/
structure Settings where
  /-- Seconds to pause after a text or an image has been shown. -/
  settleDelay : Float := 0.5
  /-- A choice ends its beat. -/
  choiceEndsBeat : Bool := true
  /-- A jump ends its beat. -/
  jumpEndsBeat : Bool := false
  /-- Lines that begin with this are comments. -/
  commentMark : String := "#"
deriving Repr

/-- The names of the settings. -/
inductive Setting where
  | settleDelay
  | choiceEndsBeat
  | jumpEndsBeat
  | commentMark
deriving DecidableEq, Repr

namespace Setting

/-- The settings in their order. -/
def all : List Setting := [settleDelay, choiceEndsBeat, jumpEndsBeat, commentMark]

/-- The name of a setting in documents. -/
def name : Setting → String
  | settleDelay => "settle_delay"
  | choiceEndsBeat => "choice_ends_beat"
  | jumpEndsBeat => "goto_ends_beat"
  | commentMark => "comment_prefix"

/-- The setting with a given name. -/
def ofName? (name : Wide) : Option Setting := all.find? (ofString ·.name = name)

end Setting

/-- The settings on one line. -/
def Settings.shown (s : Settings) : String :=
  s!"settle_delay={Decimal.shown.render s.settleDelay} choice_ends_beat={Json.shownBool s.choiceEndsBeat} "
    ++ s!"goto_ends_beat={Json.shownBool s.jumpEndsBeat} comment_prefix={quoted s.commentMark}"

/-! ## Faults -/

/-- What is wrong with a value. -/
inductive SettingFault where
  | noObject
  | noNumber
  | noNumeral
  | belowZero
  | noSwitch
  | noSwitchWord
  | noText
  | emptyText
  /-- There is half of a character in a text or a name. -/
  | brokenText
  | notASetting
  | noSuchSetting (name : String)
deriving DecidableEq, Repr

/-- The code of a fault. -/
def SettingFault.code : SettingFault → String
  | .noObject => "model_type"
  | .noNumber => "float_type"
  | .noNumeral => "float_parsing"
  | .belowZero => "greater_than_equal"
  | .noSwitch => "bool_type"
  | .noSwitchWord => "bool_parsing"
  | .noText => "string_type"
  | .emptyText => "string_too_short"
  | .brokenText => "string_unicode"
  | .notASetting => "extra_forbidden"
  | .noSuchSetting _ => "no_such_attribute"

/-- The wording of a fault. -/
def SettingFault.message : SettingFault → String
  | .noObject => "Input should be a valid dictionary or instance of ChatConfig"
  | .noNumber => "Input should be a valid number"
  | .noNumeral => "Input should be a valid number, unable to parse string as a number"
  | .belowZero => "Input should be greater than or equal to 0"
  | .noSwitch => "Input should be a valid boolean"
  | .noSwitchWord => "Input should be a valid boolean, unable to interpret input"
  | .noText => "Input should be a valid string"
  | .emptyText => "String should have at least 1 character"
  | .brokenText => "Input should be a valid string, unable to parse raw data as a unicode string"
  | .notASetting => "Extra inputs are not permitted"
  | .noSuchSetting name => s!"Object has no attribute '{name}'"

/-- A fault with the member that has it, and its value. -/
structure SettingError where
  /-- The name of the member; none when the document itself is at fault. -/
  place : Option String
  /-- What is wrong. -/
  fault : SettingFault
  /-- The value that was given. -/
  value : Json

/-! ## Conversions -/

/-- A text without halves. -/
def readWhole (w : Wide) : Except SettingFault String := (whole? w).elim (.error .brokenText) .ok

@[simp] theorem readWhole_ofString (s : String) : readWhole s = .ok s := by
  rw [readWhole, whole?_ofString]
  rfl

/-- Seconds: a number that is not negative. -/
def readSeconds (j : Json) : Except SettingFault Float :=
  let number : Except SettingFault Float :=
    match j with
    | .bool b => .ok (if b then 1 else 0)
    | .int n => (Decimal.ofInt? n).elim (.error .noNumber) .ok
    | .float x => .ok x
    | .str w =>
      match readWhole w with
      | .error fault => .error fault
      | .ok s => (Decimal.readDocumentFloat s.toList).elim (.error .noNumeral) .ok
    | _ => .error .noNumber
  match number with
  -- Fails for what is not a number, too.
  | .ok x => if 0 ≤ x then .ok x else .error .belowZero
  | .error e => .error e

/-- The switch that a word stands for, in any case. -/
def switchWord (s : String) : Option Bool :=
  let word := String.ofList (lowered s.toList)
  if ["1", "true", "t", "yes", "y", "on"].contains word then some true
  else if ["0", "false", "f", "no", "n", "off"].contains word then some false
  else none

/-- The switch that a whole number stands for. -/
def switchNumber (n : Int) : Except SettingFault Bool :=
  if n = 1 then .ok true
  else if n = 0 then .ok false
  -- Both are refused, but numbers that fit in 64 bits are told apart from those that do not.
  else if -Int.pow 2 63 ≤ n ∧ n < Int.pow 2 63 then .error .noSwitchWord
  else .error .noSwitch

/-- The switch that a double stands for, if it has no fraction; the least of the 64 bit numbers is out of range here. -/
def switchDouble (x : Float) : Except SettingFault Bool :=
  match Decimal.whole? x with
  | some n => if n = -Int.pow 2 63 then .error .noSwitch else switchNumber n
  | none => .error .noSwitch

/-- A switch. -/
def readSwitch : Json → Except SettingFault Bool
  | .bool b => .ok b
  | .int n => switchNumber n
  | .float x => switchDouble x
  | .str w =>
    match readWhole w with
    | .error fault => .error fault
    | .ok s => (switchWord s).elim (.error .noSwitchWord) .ok
  | _ => .error .noSwitch

/-- A comment mark. -/
def readMark : Json → Except SettingFault String
  | .str w =>
    match readWhole w with
    | .error fault => .error fault
    | .ok s => if s = "" then .error .emptyText else .ok s
  | _ => .error .noText

/-! ## Setting one, setting all -/

/-- The settings with one of them set. -/
def Settings.set (s : Settings) (which : Setting) (value : Json) : Except SettingFault Settings :=
  match which with
  | .settleDelay => (readSeconds value).map fun x => { s with settleDelay := x }
  | .choiceEndsBeat => (readSwitch value).map fun b => { s with choiceEndsBeat := b }
  | .jumpEndsBeat => (readSwitch value).map fun b => { s with jumpEndsBeat := b }
  | .commentMark => (readMark value).map fun m => { s with commentMark := m }

/-- The settings with the one of the given name set. -/
def Settings.assign (s : Settings) (name : String) (value : Json) : Except SettingError Settings :=
  match Setting.ofName? name with
  | none => .error ⟨some name, .noSuchSetting name, value⟩
  | some which => (s.set which value).mapError fun fault => ⟨some name, fault, value⟩

/-- Sets those of the settings that an object has, and collects the faults. -/
def Settings.setAll (members : List (Wide × Json)) (s : Settings) : List Setting → Settings × List SettingError
  | [] => (s, [])
  | which :: rest =>
    match Json.lookup which.name members with
    | none => s.setAll members rest
    | some value =>
      match s.set which value with
      | .ok s' => s'.setAll members rest
      | .error fault =>
        -- Goes on with the settings before the fault, to find the other faults.
        let (last, errors) := s.setAll members rest
        (last, ⟨some which.name, fault, value⟩ :: errors)

/-- What is wrong with a member that is no setting. -/
def strangerFault (name : Wide) : SettingFault := if (whole? name).isSome then .notASetting else .brokenText

/-- The settings that a document gives; those it does not name keep their usual values. -/
def Settings.ofJson (j : Json) : Except (List SettingError) Settings :=
  match j with
  | .obj members =>
    let (s, errors) := ({} : Settings).setAll members Setting.all
    let strangers := members.filter fun (name, _) => (Setting.ofName? name).isNone
    let errors := errors ++ strangers.map fun (name, value) => ⟨some (spelled name), strangerFault name, value⟩
    if errors.isEmpty then .ok s else .error errors
  | other => .error [⟨none, .noObject, other⟩]

/-! ## Settings in force -/

/-- A change of the settings in force: all are taken from a document, or one of them from a value. -/
inductive Revision where
  | whole (document : Json)
  | single (name : String) (value : Json)

/-- The settings that a revision gives, or why it is refused; nothing when there are no settings to change one of. -/
def Revision.outcome (current : Option Settings) : Revision → Option (Except (List SettingError) Settings)
  | .whole document => some (Settings.ofJson document)
  -- A single setting can be changed only in settings that exist; a whole document makes new ones.
  | .single name value => current.map fun s => (s.assign name value).mapError ([·])

/-- The settings in force after a revision; one that is refused changes nothing. -/
def Revision.apply (current : Option Settings) (r : Revision) : Option Settings :=
  match r.outcome current with
  | some (.ok s) => some s
  | _ => current

/-! ## The text of a refusal -/

/-- A shown value of at most fifty bytes, or its two ends. -/
def abridged (s : String) : String :=
  if s.utf8ByteSize ≤ 50 then s
  else
    -- Whole characters of at most 25 bytes in front and 24 at the end; the first that does not fit ends its side.
    let front := s.toList.foldl
      (fun (kept, size) c => if size + c.utf8Size ≤ 25 then (kept ++ [c], size + c.utf8Size) else (kept, 26)) ([], 0)
    let back := s.toList.reverse.foldl
      (fun (kept, size) c => if size + c.utf8Size ≤ 24 then (c :: kept, size + c.utf8Size) else (kept, 25)) ([], 0)
    String.ofList (front.1 ++ ['.', '.', '.'] ++ back.1)

/-- The name of a member on a line of its own; a name with a point is marked off. -/
def placeText (name : String) : String := if name.toList.contains '.' then "`" ++ name ++ "`" else name

/-- The lines of one fault. -/
def SettingError.text (e : SettingError) : List String :=
  e.place.toList.map placeText ++
    [s!"  {e.fault.message} [type={e.fault.code}, input_value={abridged (Json.shown e.value)}, "
        ++ s!"input_type={e.value.sortWord}]",
     s!"    For further information visit https://errors.pydantic.dev/2.14/v/{e.fault.code}"]

/-- The text of a refusal. -/
def settingErrorsText (errors : List SettingError) : String :=
  let count := errors.length
  let head := s!"{count} validation error" ++ (if count = 1 then "" else "s") ++ " for ChatConfig"
  String.intercalate "\n" (head :: errors.flatMap SettingError.text)

end ChatScene

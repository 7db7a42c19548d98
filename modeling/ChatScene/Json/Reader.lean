/-
  Reading JSON documents.

  The reader works on the list of characters that are left.

  1. **Faults** — a `Fault` carries the number of characters left at the place it blames, which `Fault.error` turns into
     line, column and position.

  2. **Texts** — an escape for half of a character is kept as it is, unless the other half follows (`unicodeEscape`).

  3. **Numbers** — a number without fraction and exponent is whole (`numberOf`).  Besides the standard, the words `NaN`,
     `Infinity` and `-Infinity` are numbers (`readPlain`).

  4. **Values** — `readValue`, `readItems` and `readMembers` go down into a document together.  Of members with one name
     the last value counts, at the place of the first.  Lists and objects may be nested in each other for so many
     `levels`.  The first bracket that is nested deeper ends the reading, whatever follows it.

  5. **Fuel** — the recursion is on fuel, and `readDocument` gives two units for each character, which is enough for
     every text.
-/
import ChatScene.Decimal.Numeral
import ChatScene.Json.Value

namespace ChatScene.Json

open ChatScene.Text

/-! ## Faults -/

/-- What is wrong with a text. -/
inductive Problem where
  | expectingValue
  | expectingName
  | expectingColon
  | expectingComma
  | unterminatedText
  | controlCharacter
  | badEscape
  | badUnicodeEscape
  | extraData
  | byteOrderMark
deriving DecidableEq, Repr

/-- The wording of a problem. -/
def Problem.message : Problem → String
  | .expectingValue => "Expecting value"
  | .expectingName => "Expecting property name enclosed in double quotes"
  | .expectingColon => "Expecting ':' delimiter"
  | .expectingComma => "Expecting ',' delimiter"
  | .unterminatedText => "Unterminated string starting at"
  | .controlCharacter => "Invalid control character at"
  | .badEscape => "Invalid \\escape"
  | .badUnicodeEscape => "Invalid \\uXXXX escape"
  | .extraData => "Extra data"
  | .byteOrderMark => "Unexpected UTF-8 BOM (decode using utf-8-sig)"

/-- The two kinds of values that are nested. -/
inductive Nest where
  | list
  | object
deriving DecidableEq, Repr

/-- The name of the kind. -/
def Nest.name : Nest → String
  | .list => "array"
  | .object => "object"

/-- A problem with the number of characters left where it is found, a whole number with too many digits, or a list or
    an object that is nested too deep. -/
inductive Fault where
  | problem (what : Problem) (left : Nat)
  | tooManyDigits (count : Nat)
  | tooDeep (nest : Nest)
deriving DecidableEq, Repr

/-- Why a text is no JSON document. -/
inductive Error where
  | problem (what : Problem) (line column position : Nat)
  | tooManyDigits (count : Nat)
  | tooDeep (nest : Nest)
deriving DecidableEq, Repr

/-- The place of a fault in the whole text: lines and columns count from one, positions from zero. -/
def Fault.error (text : List Char) : Fault → Error
  | .problem what left =>
    -- What is left at the fault is a tail of the text, so its length gives the place.
    let position := text.length - left
    let before := text.take position
    let lastLine := before.reverse.takeWhile (· ≠ '\n')
    .problem what (before.count '\n' + 1) (lastLine.length + 1) position
  | .tooManyDigits count => .tooManyDigits count
  | .tooDeep nest => .tooDeep nest

/-- The text of an error. -/
def Error.message : Error → String
  | .problem what line column position =>
    s!"{what.message}: line {line} column {column} (char {position})"
  | .tooManyDigits count =>
    s!"Exceeds the limit ({Decimal.maxIntDigits} digits) for integer string conversion: value has {count} digits"
      ++ "; use sys.set_int_max_str_digits() to increase the limit"
  | .tooDeep nest => s!"maximum recursion depth exceeded while decoding a JSON {nest.name} from a unicode string"

/-- A reader's result: a value and what is left, or a fault. -/
abbrev Read (α : Type) := Except Fault (α × List Char)

/-- A fault at the place where `cs` is left. -/
def faultAt {α : Type} (what : Problem) (cs : List Char) : Except Fault α := .error (.problem what cs.length)

/-- Blanks between the parts of a document. -/
def isGap (c : Char) : Bool := c = ' ' || c = '\t' || c = '\n' || c = '\r'

/-- What is left after blanks. -/
def skipGap (cs : List Char) : List Char := cs.dropWhile isGap

/-! ## Texts -/

/-- The number that four hexadecimal digits spell, and what is left. -/
def hexQuad : List Char → Option (Nat × List Char)
  | a :: b :: c :: d :: rest =>
    match hexDigit? a, hexDigit? b, hexDigit? c, hexDigit? d with
    | some x, some y, some z, some w => some (((x * 16 + y) * 16 + z) * 16 + w, rest)
    | _, _, _, _ => none
  | _ => none

/-- The first half of a pair that stands for one character. -/
def isHighHalf (n : Nat) : Bool := 0xD800 ≤ n && n ≤ 0xDBFF

/-- The second half of such a pair. -/
def isLowHalf (n : Nat) : Bool := 0xDC00 ≤ n && n ≤ 0xDFFF

/-- The point with this number: a half, if it stands alone, and a character otherwise. -/
def pointOf (n : Nat) : Point :=
  if h : 0xD800 ≤ n ∧ n < 0xE000 then .half ⟨n - 0xD800, by omega⟩ else .char (Char.ofNat n)

/-- The escape `\uXXXX` with `cs` left after the `u`.  A character has to follow the four digits. -/
def unicodeEscape (cs : List Char) : Read Point :=
  match hexQuad cs with
  -- The place blamed is the `u`.
  | none | some (_, []) => .error (.problem .badUnicodeEscape (cs.length + 1))
  | some (high, rest) =>
    match rest with
    | '\\' :: 'u' :: more =>
      -- A second escape is looked at only if the first is a high half and a character follows the second.
      if isHighHalf high && !(more.drop 4).isEmpty then
        match hexQuad more with
        | none => .error (.problem .badUnicodeEscape (more.length + 1))
        | some (low, rest') =>
          if isLowHalf low then
            .ok (.char (Char.ofNat (0x10000 + (high - 0xD800) * 0x400 + (low - 0xDC00))), rest')
          -- No pair: the second escape is left and will be read by itself.
          else .ok (pointOf high, rest)
      else .ok (pointOf high, rest)
    | _ => .ok (pointOf high, rest)

/-- The character that a one-letter escape stands for. -/
def shortEscape? : Char → Option Char
  | '"' => some '"'
  | '\\' => some '\\'
  | '/' => some '/'
  | 'b' => some '\x08'
  | 'f' => some '\x0c'
  | 'n' => some '\n'
  | 'r' => some '\r'
  | 't' => some '\t'
  | _ => none

/-- The fault of a text without a closing quote, of which `opened` is what follows the opening one. -/
def unterminated {α : Type} (opened : List Char) : Except Fault α :=
  .error (.problem .unterminatedText (opened.length + 1))

/-- One point of a text, or its end. -/
def textUnit (opened : List Char) : List Char → Read (Option Point)
  | [] => unterminated opened
  | c :: rest =>
    if c = '"' then .ok (none, rest)
    else if c = '\\' then
      match rest with
      | [] => unterminated opened
      | e :: after =>
        if e = 'u' then (unicodeEscape after).map fun (p, left) => (some p, left)
        else
          match shortEscape? e with
          | some c => .ok (some (.char c), after)
          | none => .error (.problem .badEscape (rest.length + 1))
    else if c.toNat < 0x20 then faultAt .controlCharacter (c :: rest)
    else .ok (some (.char c), rest)

/-- The points of a text up to its closing quote; the fuel bounds their number. -/
def readPoints (opened : List Char) : Nat → List Char → Read Wide
  | 0, _ => unterminated opened
  | fuel + 1, cs =>
    match textUnit opened cs with
    | .error e => .error e
    | .ok (none, rest) => .ok ([], rest)
    | .ok (some p, rest) =>
      match readPoints opened fuel rest with
      | .error e => .error e
      | .ok (more, rest') => .ok (p :: more, rest')

/-- A text whose opening quote has been taken. -/
def readText (fuel : Nat) (cs : List Char) : Read Wide := readPoints cs fuel cs

/-! ## Numbers -/

/-- The ASCII digits in front, and what follows them. -/
def spanDigits : List Char → List Nat × List Char
  | [] => ([], [])
  | c :: cs =>
    match asciiDigit? c with
    | some d =>
      let (ds, rest) := spanDigits cs
      (d :: ds, rest)
    | none => ([], c :: cs)

/-- The digits of the whole part: a lone zero, or digits without a zero in front. -/
def wholePart (cs : List Char) : Option (List Nat × List Char) :=
  match cs with
  | '0' :: rest => some ([0], rest)
  | _ =>
    match spanDigits cs with
    | ([], _) => none
    | found => some found

/-- The digits after a point; nothing is taken unless a digit follows the point. -/
def fractionPart (cs : List Char) : List Nat × List Char :=
  match cs with
  | '.' :: rest =>
    match spanDigits rest with
    -- The point stays, and is found as extra data or as a missing comma.
    | ([], _) => ([], cs)
    | found => found
  | _ => ([], cs)

/-- The exponent; nothing is taken unless it has a digit. -/
def exponentPart (cs : List Char) : Option Int × List Char :=
  match cs with
  | e :: rest =>
    if e = 'e' ∨ e = 'E' then
      let (negative, rest) :=
        match rest with
        | '-' :: r => (true, r)
        | '+' :: r => (false, r)
        | r => (false, r)
      match spanDigits rest with
      | ([], _) => (none, cs)
      | (ds, rest) =>
        let n : Int := ofDigits ds
        (some (if negative then -n else n), rest)
    else (none, cs)
  | [] => (none, [])

/-- The sign in front, and what follows it. -/
def takeMinus : List Char → Bool × List Char
  | '-' :: rest => (true, rest)
  | cs => (false, cs)

/-- The number with this sign and these digits: a whole number unless there is a fraction or an exponent. -/
def numberOf (negative : Bool) (whole fraction : List Nat) (exponent : Option Int) : Except Fault Json :=
  if fraction.isEmpty && exponent.isNone then
    -- The limit is on whole numbers only; a fraction or an exponent lifts it.
    if whole.length ≤ Decimal.maxIntDigits then
      let n : Int := ofDigits whole
      .ok (.int (if negative then -n else n))
    else .error (.tooManyDigits whole.length)
  else
    let u : Decimal.Unsigned := ⟨whole ++ fraction, exponent.getD 0 - fraction.length⟩
    .ok (.float (u.toFloat negative))

/-- A number, if one stands in front. -/
def readNumber (cs : List Char) : Option (Read Json) :=
  let (negative, body) := takeMinus cs
  match wholePart body with
  | none => none
  | some (whole, rest) =>
    let (fraction, rest) := fractionPart rest
    let (exponent, rest) := exponentPart rest
    some ((numberOf negative whole fraction exponent).map (·, rest))

/-! ## Values -/

/-- The double beyond all others, with a sign. -/
def infinite (negative : Bool) : Json := .float (Decimal.nearest negative (Nat.pow 2 1024) 1)

/-- What is not a number. -/
def notANumber : Json := .float (Float.ofBits (UInt64.ofNat (Decimal.infinityBits + Nat.pow 2 51)))

/-- A value that is neither text nor list nor object. -/
def readPlain (cs : List Char) : Read Json :=
  match cs with
  | 'n' :: 'u' :: 'l' :: 'l' :: rest => .ok (.null, rest)
  | 't' :: 'r' :: 'u' :: 'e' :: rest => .ok (.bool true, rest)
  | 'f' :: 'a' :: 'l' :: 's' :: 'e' :: rest => .ok (.bool false, rest)
  | 'N' :: 'a' :: 'N' :: rest => .ok (notANumber, rest)
  | 'I' :: 'n' :: 'f' :: 'i' :: 'n' :: 'i' :: 't' :: 'y' :: rest => .ok (infinite false, rest)
  | '-' :: 'I' :: 'n' :: 'f' :: 'i' :: 'n' :: 'i' :: 't' :: 'y' :: rest => .ok (infinite true, rest)
  | _ => (readNumber cs).getD (faultAt .expectingValue cs)

/-- The name of a member with its colon and the blanks after it. -/
def readName (fuel : Nat) (cs : List Char) : Read Wide :=
  match cs with
  | '"' :: rest =>
    match readText fuel rest with
    | .error e => .error e
    | .ok (name, rest) =>
      match skipGap rest with
      | ':' :: rest => .ok (name, skipGap rest)
      | left => faultAt .expectingColon left
  | _ => faultAt .expectingName cs

mutual

/-- A value that is nested for so many levels at most; the fuel bounds what is read. -/
def readValue : Nat → Nat → List Char → Read Json
  | 0, _, cs => faultAt .expectingValue cs
  | fuel + 1, levels, cs =>
    match cs with
    | '"' :: rest => (readText fuel rest).map fun (s, left) => (.str s, left)
    | '[' :: rest =>
      match levels with
      | 0 => .error (.tooDeep .list)
      -- One level is used up by the brackets, and comes back behind them.
      | levels + 1 =>
        match skipGap rest with
        | ']' :: left => .ok (.arr [], left)
        | left => (readItems fuel levels left).map fun (items, left) => (.arr items, left)
    | '\x7b' :: rest =>
      match levels with
      | 0 => .error (.tooDeep .object)
      | levels + 1 =>
        match skipGap rest with
        | '\x7d' :: left => .ok (.obj [], left)
        | left => (readMembers fuel levels left).map fun (members, left) =>
            (.obj (members.foldl (fun ms (k, v) => put k v ms) []), left)
    | _ => readPlain cs

/-- The items of a list up to its closing bracket; there is at least one. -/
def readItems : Nat → Nat → List Char → Read (List Json)
  | 0, _, cs => faultAt .expectingValue cs
  | fuel + 1, levels, cs =>
    match readValue fuel levels cs with
    | .error e => .error e
    | .ok (item, rest) =>
      match skipGap rest with
      | ']' :: left => .ok ([item], left)
      | ',' :: left => (readItems fuel levels (skipGap left)).map fun (items, left) => (item :: items, left)
      | left => faultAt .expectingComma left

/-- The members of an object up to its closing brace, as they stand; there is at least one. -/
def readMembers : Nat → Nat → List Char → Read (List (Wide × Json))
  | 0, _, cs => faultAt .expectingName cs
  | fuel + 1, levels, cs =>
    match readName fuel cs with
    | .error e => .error e
    -- The name is kept even if there is one like it; the object sorts that out when it is complete.
    | .ok (name, rest) =>
      match readValue fuel levels rest with
      | .error e => .error e
      | .ok (value, rest) =>
        match skipGap rest with
        | '\x7d' :: left => .ok ([(name, value)], left)
        | ',' :: left =>
          (readMembers fuel levels (skipGap left)).map fun (members, left) => ((name, value) :: members, left)
        | left => faultAt .expectingComma left

end

/-- A whole text as one document.  Two units of fuel for each character are enough: a value takes one unit, and its
    place in a list or an object another one. -/
def readDocument (levels : Nat) (cs : List Char) : Except Fault Json :=
  -- The mark is refused as such, and not as a character that begins no value.
  if cs.head? = some (Char.ofNat 0xFEFF) then faultAt .byteOrderMark cs
  else
    match readValue (2 * cs.length + 2) levels (skipGap cs) with
    | .error e => .error e
    | .ok (value, rest) =>
      match skipGap rest with
      | [] => .ok value
      | left => faultAt .extraData left

/-- The document that a text spells, if it is nested for so many levels at most. -/
def parse (levels : Nat) (text : String) : Except Error Json :=
  (readDocument levels text.toList).mapError (Fault.error text.toList)

end ChatScene.Json

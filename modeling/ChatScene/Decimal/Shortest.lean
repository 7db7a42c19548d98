/-
  The shortest decimal text of a double.

  1. **Digits** — the reals that round to a double form an `Interval` around it; its ends belong to it when the double's
     `m` is even.  For one digit, two digits and so on the two neighbours of the double on that decimal grid are tested
     (`Interval.onGrid`); the first grid with a neighbour inside the interval gives the digits, and of two neighbours
     inside the nearer one.  Seventeen digits always suffice (`shortest`).

  2. **Layout** — how the digits are laid out is a value of `Layout`: `Layout.render` writes the point out, or an
     exponent.
-/
import ChatScene.Decimal.Nearest

namespace ChatScene.Decimal

/-! ## Digits -/

/-- The reals that round to a double, as fractions over one denominator. -/
structure Interval where
  /-- Numerator of the lower end. -/
  lo : Nat
  /-- Numerator of the double itself. -/
  mid : Nat
  /-- Numerator of the upper end. -/
  hi : Nat
  /-- The denominator. -/
  den : Nat
  /-- The ends round to the double too. -/
  closed : Bool

/-- The interval of `m · 2^e`; below a power of two the neighbours are twice as close. -/
def interval (m : Nat) (e : Int) : Interval :=
  -- Everything is measured in quarters of the last binary digit, so that both ends are whole numbers.
  let scale := Nat.pow 2 (e - 2).toNat
  let below := if m = Nat.pow 2 52 ∧ -1074 < e then 1 else 2
  { lo := (4 * m - below) * scale, mid := 4 * m * scale, hi := (4 * m + 2) * scale,
    den := Nat.pow 2 (2 - e).toNat, closed := m % 2 = 0 }

/-- `d · 10^p` lies in the interval. -/
def Interval.holds (i : Interval) (d : Nat) (p : Int) : Bool :=
  let x := d * Nat.pow 10 p.toNat * i.den
  let s := Nat.pow 10 (-p).toNat
  if i.closed then i.lo * s ≤ x && x ≤ i.hi * s else i.lo * s < x && x < i.hi * s

/-- The least `k` from the given one on with `num / den < 10^k`, among as many as the fuel allows. -/
def leastPower (num den : Nat) : Nat → Int → Int
  | 0, k => k
  | fuel + 1, k =>
    if num * Nat.pow 10 (-k).toNat < den * Nat.pow 10 k.toNat then k else leastPower num den fuel (k + 1)

/-- The number of decimal digits before the point of `num / den`, negative when zeros follow the point.  The
    binary logarithm gives it up to a few units. -/
def pointOf (num den : Nat) : Int :=
  leastPower num den 6 (((num.log2 : Int) - den.log2 - 1) * 30103 / 100000 - 1)

/-- Digits as a number, with the position of the point counted from the first digit. -/
structure Digits where
  /-- The digits read as one number. -/
  number : Nat
  /-- How many of them stand before the point. -/
  point : Int
deriving DecidableEq, Repr

/-- The grid of `n` digits: the neighbour of the double that lies in the interval and is nearest to it.  The
    upper neighbour may be the power of ten that has one digit more. -/
def Interval.onGrid (i : Interval) (k : Int) (n : Nat) : Option Digits :=
  let p := k - n
  let num := i.mid * Nat.pow 10 (-p).toNat
  let den := i.den * Nat.pow 10 p.toNat
  let d := num / den
  let r := num % den
  let below : Digits := ⟨d, k⟩
  let above : Digits := ⟨d + 1, if d + 1 = Nat.pow 10 n then k + 1 else k⟩
  match i.holds d p, i.holds (d + 1) p with
  | true, true => some (if 2 * r < den ∨ (2 * r = den ∧ d % 2 = 0) then below else above)
  | true, false => some below
  | false, true => some above
  | false, false => none

/-- The first grid with a hit, from `n` digits on. -/
def Interval.search (i : Interval) (k : Int) (n : Nat) : Nat → Digits
  -- Not reached with seventeen digits.
  | 0 => ⟨0, k⟩
  | fuel + 1 => (i.onGrid k n).getD (i.search k (n + 1) fuel)

/-- The digits of a number without zeros at its end. -/
def significant (n : Nat) : List Char :=
  ((Nat.toDigits 10 n).reverse.dropWhile (· = '0')).reverse

/-- The shortest digits of a positive finite double, and how many of them stand before the point. -/
def shortest (x : Float) : List Char × Int :=
  let (m, e) := parts x
  let i := interval m e
  let ds := i.search (pointOf i.mid i.den) 1 17
  (significant ds.number, ds.point)

/-! ## Layout -/

/-- The decisions of a text format for doubles. -/
structure Layout where
  /-- The least position of the point that is written out with zeros. -/
  leastPoint : Int
  /-- The greatest position of the point that is written out. -/
  greatestPoint : Int
  /-- The least number of digits of an exponent. -/
  exponentWidth : Nat
  /-- The text of infinity. -/
  infinity : String
  /-- The text of what is not a number. -/
  nan : String

/-- The digits with their point written out; a whole number keeps `.0`. -/
def positional (ds : List Char) (point : Int) : List Char :=
  if point ≤ 0 then '0' :: '.' :: List.replicate (-point).toNat '0' ++ ds
  else if ds.length ≤ point.toNat then
    ds ++ List.replicate (point.toNat - ds.length) '0' ++ ['.', '0']
  else ds.take point.toNat ++ '.' :: ds.drop point.toNat

/-- The digits with an exponent of at least `width` digits. -/
def scientific (width : Nat) (ds : List Char) (point : Int) : List Char :=
  let e := point - 1
  let es := Nat.toDigits 10 e.natAbs
  let lead :=
    match ds with
    | [] => []
    | [d] => [d]
    | d :: rest => d :: '.' :: rest
  lead ++ 'e' :: (if e < 0 then '-' else '+') :: List.replicate (width - es.length) '0' ++ es

/-- The text of a double in a given layout. -/
def Layout.render (l : Layout) (x : Float) : String :=
  let sign := if isNegative x then "-" else ""
  if isNaN x then l.nan
  else if !isFinite x then sign ++ l.infinity
  else if magnitudeBits x = 0 then sign ++ "0.0"
  else
    let (ds, point) := shortest x
    sign ++ String.ofList
      (if l.leastPoint ≤ point ∧ point ≤ l.greatestPoint then positional ds point
       else scientific l.exponentWidth ds point)

/-- Numbers in messages: written out from 0.0001 to below 10^16, exponents of at least two digits. -/
def shown : Layout := ⟨-3, 16, 2, "inf", "nan"⟩

end ChatScene.Decimal

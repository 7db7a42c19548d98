/-
  The double nearest to a quotient of natural numbers.

  A finite double is `m · 2^e` with `m < 2^53` and `-1074 ≤ e ≤ 971`.  `nearestBits` takes the exponent at which
  the quotient has 53 binary digits (or the least exponent, if it has fewer there), divides exactly and rounds
  half to even.  Since the encoding of doubles is increasing, a carry out of the 53 digits needs no care: the
  bits `(e + 1074) · 2^52 + m` are right for `m = 2^53` too.
-/

namespace ChatScene.Decimal

/-- The quotient rounded to a whole number; a half goes to the even neighbour. -/
def roundHalfEven (num den : Nat) : Nat :=
  let q := num / den
  let r := num % den
  if 2 * r > den ∨ (2 * r = den ∧ q % 2 = 1) then q + 1 else q

/-- The encoding of infinity, which is also the least encoding that is no finite number. -/
def infinityBits : Nat := 0x7FF * Nat.pow 2 52

/-- The sign bit. -/
def signBit : Nat := Nat.pow 2 63

/-- `num / den` measured in units of `2^e`, as a quotient again. -/
def inUnits (num den : Nat) (e : Int) : Nat × Nat :=
  if e < 0 then (num * Nat.pow 2 (-e).toNat, den) else (num, den * Nat.pow 2 e.toNat)

/-- The exponent of the last binary digit of the double nearest to `num / den`. -/
def unitExponent (num den : Nat) : Int :=
  -- The logarithms leave two candidates: with this one the quotient has 53 or 54 binary digits.
  let low : Int := (num.log2 : Int) - den.log2 - 53
  let (n, d) := inUnits num den low
  max (if n / d < Nat.pow 2 53 then low else low + 1) (-1074)

/-- The encoding of the non-negative double nearest to `num / den`; infinity beyond the finite doubles. -/
def nearestBits (num den : Nat) : Nat :=
  if num = 0 then 0
  else
    let e := unitExponent num den
    let (n, d) := inUnits num den e
    min ((e + 1074).toNat * Nat.pow 2 52 + roundHalfEven n d) infinityBits

/-- The double nearest to `num / den`, with a sign. -/
def nearest (negative : Bool) (num den : Nat) : Float :=
  let bits := nearestBits num den
  Float.ofBits (UInt64.ofNat (if negative then bits + signBit else bits))

/-- The double nearest to a whole number, or nothing when it lies beyond the finite doubles. -/
def ofInt? (n : Int) : Option Float :=
  if nearestBits n.natAbs 1 < infinityBits then some (nearest (n < 0) n.natAbs 1) else none

/-! ## Taking a double apart -/

/-- The encoding as a natural number. -/
def bitsOf (x : Float) : Nat := x.toBits.toNat

/-- The encoding without the sign. -/
def magnitudeBits (x : Float) : Nat := bitsOf x % signBit

/-- The sign bit is set, also for a negative zero. -/
def isNegative (x : Float) : Bool := signBit ≤ bitsOf x

/-- Neither infinite nor not a number. -/
def isFinite (x : Float) : Bool := magnitudeBits x < infinityBits

/-- Not a number. -/
def isNaN (x : Float) : Bool := infinityBits < magnitudeBits x

/-- A finite double's `m` and `e` with absolute value `m · 2^e`. -/
def parts (x : Float) : Nat × Int :=
  let b := magnitudeBits x
  let field : Nat := b / Nat.pow 2 52
  -- The numbers next to zero have no leading one that goes without saying.
  if field = 0 then (b, -1074) else (b % Nat.pow 2 52 + Nat.pow 2 52, (field : Int) - 1075)

/-- The whole number that a finite double is, if it is one. -/
def whole? (x : Float) : Option Int :=
  if isFinite x then
    let (m, e) := parts x
    let n : Option Nat :=
      if 0 ≤ e then some (m * Nat.pow 2 e.toNat)
      else if m % Nat.pow 2 (-e).toNat = 0 then some (m / Nat.pow 2 (-e).toNat) else none
    n.map fun n => if isNegative x then -(n : Int) else n
  else none

example : nearestBits 1 10 = 0x3FB999999999999A := by decide +kernel
example : nearestBits 9007199254740993 1 = 0x4340000000000000 := by decide +kernel
example : nearestBits (Nat.pow 10 400) 1 = infinityBits := by decide +kernel

end ChatScene.Decimal

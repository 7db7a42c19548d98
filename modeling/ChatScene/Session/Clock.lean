/-
  Times in whole milliseconds.
-/
import ChatScene.Decimal.Nearest

namespace ChatScene.Clock

/-- A time in seconds as whole milliseconds; a half goes to the even neighbour. -/
def milliseconds (time : Float) : Int :=
  let (m, e) := Decimal.parts (time * 1000)
  let n := if 0 ≤ e then m * Nat.pow 2 e.toNat else Decimal.roundHalfEven m (Nat.pow 2 (-e).toNat)
  if Decimal.isNegative time then -(n : Int) else n

end ChatScene.Clock

import Overlay.Number.Shortest
import Overlay.Scalar

/-!
# Floating-point scalars

The scalar the engine runs on: 64-bit binary floating point.  Addition, multiplication and the like
are the machine's; reading a decimal rounds to nearest, and the remainder is exact.
-/

namespace Overlay

/-- The floating-point number nearest to a decimal.  An exponent so large that it decides the value
by itself (infinite or zero) is cut down before the power of ten is formed. -/
def floatOfNumeral (n : Numeral) : Float :=
  let limit : Int := 400 + digitCount n.digits
  let e := max (-limit) (min limit n.exponent)
  let x := Float.ofScientific n.digits (decide (e < 0)) e.natAbs
  if n.negative then -x else x

instance : Scalar Float where
  decLt := inferInstance
  decLe := inferInstance
  ofInt := Float.ofInt
  ofNumeral := floatOfNumeral
  isFinite := Float.isFinite
  trunc x := if x < 0 then x.ceil else x.floor
  ceil x := x.ceil.toInt64.toInt
  rem := floatRem
  cos := Float.cos
  sin := Float.sin
  degree := 3.141592653589793 / 180
  text := floatText

end Overlay

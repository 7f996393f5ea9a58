import Overlay.Number.Numeral

/-!
# Scalars

The numbers that positions, sizes, angles and opacities are made of.  The engine is written once for
every `Scalar`, with its operations in a fixed order, so that the same text runs on floating-point
numbers and can be read over exact ones.

A scalar need not satisfy any law: neither order nor arithmetic has to be exact, and there may be
values that are not finite.
-/

namespace Overlay

/-- Numbers with arithmetic, order, rounding and the circular functions. -/
class Scalar (α : Type) extends Add α, Sub α, Mul α, Div α, Neg α, LT α, LE α where
  decLt : DecidableLT α
  decLe : DecidableLE α
  ofInt : Int → α
  ofNumeral : Numeral → α
  isFinite : α → Bool
  /-- The number without its fraction. -/
  trunc : α → α
  /-- The least integer that is no smaller than a finite number. -/
  ceil : α → Int
  /-- The remainder of a division, with the sign of the dividend. -/
  rem : α → α → α
  cos : α → α
  sin : α → α
  /-- One degree, in radians. -/
  degree : α
  /-- The shortest text that reads back as the number. -/
  text : α → String

namespace Scalar

variable {α : Type} [Scalar α]

instance : DecidableLT α := decLt

instance : DecidableLE α := decLe

/-- The representative of `x` that lies in `[0, m)`, for positive `m`, up to rounding: the remainder,
and `m` more where that is negative. -/
def wrap (x m : α) : α :=
  let r := rem x m
  if r < ofInt 0 then r + m else r

/-- The nearest number in `[0, 1]`.  A value that compares with nothing is left as it is. -/
def clampUnit (x : α) : α := if x < ofInt 0 then ofInt 0 else if ofInt 1 < x then ofInt 1 else x

def inUnit (x : α) : Bool := decide (ofInt 0 ≤ x) && decide (x ≤ ofInt 1)

def toRadians (x : α) : α := x * degree

end Scalar

end Overlay

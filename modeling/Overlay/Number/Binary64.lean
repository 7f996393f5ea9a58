/-!
# Exact arithmetic on binary floating-point numbers

A finite `Float` is `± mantissa * 2 ^ exponent` with natural mantissa.  This file takes it apart,
puts it together again, and computes the remainder of a division on the parts, where nothing is
rounded.
-/

namespace Overlay

/-- The magnitude `mantissa * 2 ^ exponent` of a finite number. -/
structure Magnitude where
  mantissa : Nat
  exponent : Int
  deriving DecidableEq, Repr

/-- The place of the leading bit of a normal number, `2 ^ 52`. -/
def leadingBit : Nat := 1 <<< 52

/-- The magnitude of a finite number. -/
def Magnitude.ofFloat (x : Float) : Magnitude :=
  let e := ((x.toBits >>> 52) &&& 0x7FF).toNat
  let f := (x.toBits &&& 0xFFFFFFFFFFFFF).toNat
  if e = 0 then ⟨f, -1074⟩ else ⟨leadingBit + f, (e : Int) - 1075⟩

/-- Whether the sign bit is set. -/
def signBit (x : Float) : Bool := x.toBits >>> 63 == 1

/-- The number with the given sign and magnitude.  It is exact when the mantissa is below `2 ^ 53`
and the exponent is that of some finite number. -/
def Magnitude.toFloat (m : Magnitude) (negative : Bool) : Float :=
  let sign : Nat := if negative then 1 <<< 63 else 0
  if m.mantissa = 0 then Float.ofBits (.ofNat sign)
  else
    let shift := min (52 - m.mantissa.log2) (m.exponent + 1074).toNat
    let f := m.mantissa <<< shift
    let e := m.exponent - shift
    if f < leadingBit then Float.ofBits (.ofNat (sign + f))
    else Float.ofBits (.ofNat (sign + ((e + 1075).toNat <<< 52) + (f - leadingBit)))

/-- The remainder of dividing magnitudes, at the smaller of the two exponents. -/
def Magnitude.rem (a b : Magnitude) : Magnitude :=
  let e := min a.exponent b.exponent
  ⟨(a.mantissa <<< (a.exponent - e).toNat) % (b.mantissa <<< (b.exponent - e).toNat), e⟩

/-- The exact remainder of `x` divided by `y`, with the sign of `x`. -/
def floatRem (x y : Float) : Float :=
  if x.isNaN || y.isNaN || x.isInf || y == 0 then 0 / 0
  else if y.isInf then x
  else ((Magnitude.ofFloat x).rem (Magnitude.ofFloat y)).toFloat (signBit x)

end Overlay

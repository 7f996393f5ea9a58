import Overlay.Number.Binary64

/-!
# Shortest decimals

The decimal that stands for a finite number in a text: of all decimals that read back as the number
those with the fewest digits, and of these the one nearest to it.  Which of two equally near ones is
taken is up to the writer of the text (`Tie`).

A decimal reads back as `m * 2 ^ q` when it lies between the midpoints to the neighbouring numbers;
a midpoint itself belongs to the number whose mantissa is even.  The gap below a power of two is half
the gap above it.  All comparisons are between natural numbers.
-/

namespace Overlay

/-- The value `digits * 10 ^ exponent`. -/
structure Decimal where
  digits : Nat
  exponent : Int
  deriving DecidableEq, Repr

/-- Compares `a * 10 ^ i` with `n * 2 ^ j`. -/
def compareScaled (a : Nat) (i : Int) (n : Nat) (j : Int) : Ordering :=
  compare ((a * Nat.pow 10 i.toNat) <<< (-j).toNat) ((n * Nat.pow 10 (-i).toNat) <<< j.toNat)

/-- The gap below the number is half the gap above it. -/
def Magnitude.narrowBelow (x : Magnitude) : Bool :=
  x.mantissa == leadingBit && decide (-1074 < x.exponent)

/-- Whether reading the decimal and rounding to nearest, ties to even, gives `x`. -/
def Magnitude.readsBack (x : Magnitude) (d : Decimal) : Bool :=
  let low := if x.narrowBelow then 4 * x.mantissa - 1 else 4 * x.mantissa - 2
  let high := 4 * x.mantissa + 2
  let even := x.mantissa % 2 == 0
  let belowHigh := compareScaled d.digits d.exponent high (x.exponent - 2)
  let aboveLow := compareScaled d.digits d.exponent low (x.exponent - 2)
  (aboveLow == .gt || (even && aboveLow == .eq)) && (belowHigh == .lt || (even && belowHigh == .eq))

/-- The exact decimal value of a magnitude. -/
def Magnitude.exact (x : Magnitude) : Decimal :=
  if x.exponent < 0 then ⟨x.mantissa * Nat.pow 5 (-x.exponent).toNat, x.exponent⟩
  else ⟨x.mantissa <<< x.exponent.toNat, 0⟩

/-- The number of decimal digits of a natural number. -/
def digitCount (n : Nat) : Nat := (Nat.toDigits 10 n).length

/-- The choice between two decimals that are equally near: the greater one, or the one whose last
digit is even. -/
inductive Tie
  | up
  | even
  deriving DecidableEq, Repr

/-- Whether the lower one of two neighbours comes first, given its digits and where the number lies
between them. -/
def Tie.lowerFirst (t : Tie) (lower : Nat) : Ordering → Bool
  | .lt => true
  | .eq => decide (t = even) && lower % 2 == 0
  | .gt => false

/-- The multiples of `10 ^ p` next to `d` on either side (the lower one may be `d` itself), nearer
first. -/
def Decimal.neighbours (t : Tie) (d : Decimal) (p : Int) : List Decimal :=
  let num := d.digits * Nat.pow 10 (d.exponent - p).toNat
  let den := Nat.pow 10 (p - d.exponent).toNat
  let low : Decimal := ⟨num / den, p⟩
  let high : Decimal := ⟨num / den + 1, p⟩
  if t.lowerFirst (num / den) (compare (2 * (num % den)) den) then [low, high] else [high, low]

/-- Trailing zeros moved from the digits to the exponent.  `fuel` bounds their number. -/
def Decimal.strip : Nat → Decimal → Decimal
  | 0, d => d
  | fuel + 1, d =>
    if d.digits % 10 = 0 then Decimal.strip fuel ⟨d.digits / 10, d.exponent + 1⟩ else d

/-- The shortest decimal of a positive magnitude.  Seventeen digits are always enough; should they
not be, the exact value is given. -/
def Magnitude.shortest (t : Tie) (x : Magnitude) : Decimal :=
  let exact := x.exact
  let top : Int := digitCount exact.digits + exact.exponent
  let found := (List.range 17).findSome? fun (n : Nat) =>
    (exact.neighbours t (top - (n + 1))).find? x.readsBack
  let d := found.getD exact
  d.strip (digitCount d.digits - 1)

/-! ### Layout -/

/-- The decimal digits of a natural number. -/
def digitChars (n : Nat) : List Char := Nat.toDigits 10 n

/-- A decimal in positional notation: no exponent, and no point in a whole number. -/
def Decimal.plain (d : Decimal) : List Char :=
  let ds := digitChars d.digits
  if 0 ≤ d.exponent then ds ++ List.replicate d.exponent.toNat '0'
  else
    let places := (-d.exponent).toNat
    let ds := List.replicate (places + 1 - ds.length) '0' ++ ds
    ds.take (ds.length - places) ++ '.' :: ds.drop (ds.length - places)

/-- A decimal in scientific notation: one digit before the point, and no point after a single
digit. -/
def Decimal.scientific (d : Decimal) : List Char :=
  let ds := digitChars d.digits
  let exponent := toString (d.exponent + ds.length - 1)
  match ds with
  | [] | [_] => ds ++ 'e' :: exponent.toList
  | lead :: rest => lead :: '.' :: rest ++ 'e' :: exponent.toList

/-- The text of a number: positional, signed also when it is a negative zero, ties going up. -/
def floatText (x : Float) : String :=
  if x.isNaN then "NaN"
  else
    let sign := if signBit x then ['-'] else []
    let m := Magnitude.ofFloat x
    let body :=
      if x.isInf then ['i', 'n', 'f']
      else if m.mantissa = 0 then ['0']
      else (m.shortest .up).plain
    String.ofList (sign ++ body)

end Overlay

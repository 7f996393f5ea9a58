import Overlay.Text.Classes

/-!
# Numbers at the start of a text

The whole numbers of a script are those a signed 32-bit word holds.  They are kept as integers, and
whatever falls outside the range is moved to its nearer end by `clampWhole`.

A token is read as a number from its beginning: leading blanks are skipped, the longest run that has
the form of a number is taken, and whatever follows is ignored.  `readWhole?` reads a whole number; it
adds up the digits in a word of 64 bits, which changes nothing, as the number is clamped to one of 32
bits afterwards (`clampWhole_heldValue`).  `readReal?` reads a real number, as the exact decimal
`Numeral`; rounding it is left to the scalar it becomes.

The form of a real number admits the decimal digits of every script, its value only those of ASCII:
a run that contains another digit has the right form and no value.
-/

namespace Overlay

open Text

/-! ### The range of whole numbers -/

/-- The least whole number. -/
def minWhole : Int := -2147483648

/-- The greatest whole number. -/
def maxWhole : Int := 2147483647

/-- The integers that are whole numbers of a script. -/
def IsWhole (n : Int) : Prop := minWhole ≤ n ∧ n ≤ maxWhole

instance (n : Int) : Decidable (IsWhole n) := inferInstanceAs (Decidable (_ ∧ _))

/-- The whole number nearest to an integer. -/
def clampWhole (n : Int) : Int := max minWhole (min n maxWhole)

theorem isWhole_clampWhole (n : Int) : IsWhole (clampWhole n) := by
  simp only [IsWhole, clampWhole, minWhole, maxWhole]
  omega

theorem clampWhole_of_isWhole {n : Int} (h : IsWhole n) : clampWhole n = n := by
  simp only [IsWhole, clampWhole, minWhole, maxWhole] at *
  omega

/-! ### Signs and runs of digits -/

/-- The sign of an offset. -/
inductive Sign
  | plus
  | minus
  deriving DecidableEq, Repr

/-- A sign at the start of a text, if there is one, and the text after it. -/
def splitSign : List Char → Option Sign × List Char
  | '+' :: rest => (some .plus, rest)
  | '-' :: rest => (some .minus, rest)
  | rest => (none, rest)

/-- The value of a run of ASCII digits. -/
def digitsValue (ds : List Char) : Nat := ds.foldl (fun n c => 10 * n + (c.toNat - '0'.toNat)) 0

theorem digitsValue_concat (ds : List Char) (c : Char) :
    digitsValue (ds ++ [c]) = 10 * digitsValue ds + (c.toNat - '0'.toNat) := by
  simp [digitsValue, List.foldl_append]

/-- An integer from its sign and magnitude. -/
def withSign (s : Option Sign) (n : Nat) : Int := if s = some .minus then -(n : Int) else n

/-! ### Reading whole numbers -/

/-- The greatest number of a signed 64-bit word. -/
def maxLong : Nat := 9223372036854775807

/-- The value of a run of ASCII digits, added up in a signed 64-bit word that stops at its greatest
number: once after the product, once after the sum. -/
def heldValue (ds : List Char) : Nat :=
  ds.foldl (fun n c => min (min (10 * n) maxLong + (c.toNat - '0'.toNat)) maxLong) 0

/-- The whole number a text begins with: blanks, at most one sign, and a non-empty run of ASCII
digits.  The value that the word holds gets the sign and is clamped. -/
def readWhole? (cs : List Char) : Option Int :=
  let (sign, rest) := splitSign (trimStart cs)
  match rest.takeWhile Char.isDigit with
  | [] => none
  | ds => some (clampWhole (withSign sign (heldValue ds)))

/-- Stopping at every digit is stopping once, at the end. -/
theorem heldValue_eq_min (ds : List Char) : heldValue ds = min (digitsValue ds) maxLong := by
  have hrun : ∀ n, ds.foldl (fun n c => min (min (10 * n) maxLong + (c.toNat - '0'.toNat)) maxLong)
      (min n maxLong) = min (ds.foldl (fun n c => 10 * n + (c.toNat - '0'.toNat)) n) maxLong := by
    induction ds with
    | nil => intro n; rfl
    | cons c ds ih =>
      intro n
      have hstep : min (min (10 * min n maxLong) maxLong + (c.toNat - '0'.toNat)) maxLong =
          min (10 * n + (c.toNat - '0'.toNat)) maxLong := by
        simp only [maxLong]
        omega
      rw [List.foldl_cons, hstep, ih, List.foldl_cons]
  exact hrun 0

/-- Where the word stops, the number is clamped anyway, with either sign. -/
theorem clampWhole_heldValue (s : Option Sign) (ds : List Char) :
    clampWhole (withSign s (heldValue ds)) = clampWhole (withSign s (digitsValue ds)) := by
  rw [heldValue_eq_min]
  simp only [withSign, clampWhole, minWhole, maxWhole, maxLong]
  split <;> omega

/-- A number that was read is a whole number. -/
theorem isWhole_of_readWhole? {cs : List Char} {n : Int} (h : readWhole? cs = some n) :
    IsWhole n := by
  simp only [readWhole?] at h
  split at h
  · simp at h
  · obtain rfl := Option.some.inj h
    exact isWhole_clampWhole _

/-! ### Reading real numbers -/

/-- A finite decimal, `± digits * 10 ^ exponent`. -/
structure Numeral where
  negative : Bool
  digits : Nat
  exponent : Int
  deriving DecidableEq, Repr

/-- The parts of a real number as written.  There is an exponent exactly when it has digits. -/
structure RealForm where
  sign : Option Sign
  whole : List Char
  fraction : List Char
  expSign : Option Sign
  expDigits : List Char
  deriving DecidableEq, Repr

/-- The sign and the digits of an exponent at the start of a text; no digits where there is none. -/
def scanExponent : List Char → Option Sign × List Char
  | c :: rest =>
    if c = 'e' ∨ c = 'E' then
      let (sign, rest) := splitSign rest
      match rest.takeWhile isDecimalDigit with
      | [] => (none, [])
      | ds => (sign, ds)
    else (none, [])
  | [] => (none, [])

/-- The longest real number a text begins with: a sign or none, then digits with at most one point
among or after them or a point followed by digits, then an exponent or none. -/
def scanReal? (cs : List Char) : Option RealForm :=
  let (sign, rest) := splitSign cs
  let whole := rest.takeWhile isDecimalDigit
  match whole, rest.dropWhile isDecimalDigit with
  | [], '.' :: rest =>
    match rest.takeWhile isDecimalDigit with
    | [] => none
    | fraction =>
      let (expSign, expDigits) := scanExponent (rest.dropWhile isDecimalDigit)
      some { sign, whole := [], fraction, expSign, expDigits }
  | [], _ => none
  | _, '.' :: rest =>
    let (expSign, expDigits) := scanExponent (rest.dropWhile isDecimalDigit)
    some { sign, whole, fraction := rest.takeWhile isDecimalDigit, expSign, expDigits }
  | _, rest =>
    let (expSign, expDigits) := scanExponent rest
    some { sign, whole, fraction := [], expSign, expDigits }

/-- The value of a real number, if all its digits are ASCII digits. -/
def RealForm.numeral? (r : RealForm) : Option Numeral :=
  if (r.whole ++ r.fraction ++ r.expDigits).all Char.isDigit then
    some
      { negative := decide (r.sign = some .minus)
        digits := digitsValue (r.whole ++ r.fraction)
        exponent := withSign r.expSign (digitsValue r.expDigits) - r.fraction.length }
  else none

/-- The real number a text begins with, after blanks. -/
def readReal? (cs : List Char) : Option Numeral := (scanReal? (trimStart cs)).bind RealForm.numeral?

end Overlay

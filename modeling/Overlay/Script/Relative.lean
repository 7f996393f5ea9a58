import Overlay.Number.Numeral

/-!
# Relative values

A value that is written with a sign is an offset from a base known to the reader (the part that
triggered the picture, or the picture itself); one without a sign stands for itself.
-/

namespace Overlay

/-- An absolute number or an offset. -/
inductive Relative
  | absolute (value : Int)
  | offset (sign : Sign) (amount : Int)
  deriving DecidableEq, Repr

namespace Relative

/-- The offset zero: the base itself. -/
def same : Relative := offset .plus 0

/-- Whether the value is an offset. -/
def isOffset : Relative → Bool
  | absolute _ => false
  | offset .. => true

end Relative

/-- A whole number with the sign applied, clamped. -/
def Sign.apply : Sign → Int → Int
  | plus, n => clampWhole n
  | minus, n => clampWhole (-n)

/-- The value seen from a base: an offset is clamped after the sign and after the sum. -/
def Relative.resolve (base : Int) : Relative → Int
  | absolute value => value
  | offset sign amount => clampWhole (base + sign.apply amount)

/-- A relative value at the start of a text.  The sign makes it an offset; a second sign directly
after the first is refused, and what follows the sign is read as a whole number. -/
def readRelative? (cs : List Char) : Option Relative :=
  let (sign, rest) := splitSign (Text.trimStart cs)
  match splitSign rest with
  | (some _, _) => none
  | (none, _) =>
    (readWhole? rest).map fun n =>
      match sign with
      | some s => .offset s n
      | none => .absolute n

end Overlay

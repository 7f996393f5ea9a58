import Overlay.Clock
import Overlay.Scalar

/-!
# Configuration

What is the same for all pictures of a running game: the measures of the field, the length of a
tick and the rhythm of blinking.
-/

namespace Overlay

structure Config where
  /-- Side of a chip, in pixels. -/
  chipSize : Nat := 40
  fieldWidth : Nat := 440
  fieldHeight : Nat := 440
  tick : Millis := 10
  /-- Ticks between two changes of the blink switch; zero for no blinking. -/
  blinkPeriod : UInt32 := 30
  capacity : Nat := 100
  deriving DecidableEq, Repr

namespace Config

/-- The side of a chip as a scalar. -/
def chip (c : Config) {α : Type} [Scalar α] : α := Scalar.ofInt c.chipSize

end Config

end Overlay

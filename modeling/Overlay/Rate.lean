import Overlay.Fault
import Overlay.Scalar

/-!
# Rates

A rate is a number with a policy.  A clamped rate can only be set to a value between zero and one;
adding to it is never checked, so fading may take it out of that range, and `Rate.drawn` brings it
back for drawing.
-/

namespace Overlay

inductive RateMode
  | clamped
  | unbounded
  deriving DecidableEq, Repr

structure Rate (α : Type) where
  value : α
  mode : RateMode
  deriving DecidableEq, Repr

namespace Rate

variable {α : Type} [Scalar α]

/-- The clamped rate one. -/
def full : Rate α := ⟨Scalar.ofInt 1, .clamped⟩

def unbounded (value : α) : Rate α := ⟨value, .unbounded⟩

/-- The rate with another value, which a clamped rate has to find between zero and one. -/
def set (r : Rate α) (value : α) : Except Fault (Rate α) :=
  if r.mode = .clamped ∧ Scalar.inUnit value = false then
    .error (.refused "opacity" (.outsideUnit (Scalar.text value)))
  else .ok { r with value }

def clamped (value : α) : Except Fault (Rate α) := full.set value

/-- The rate with `delta` added, whatever the policy. -/
def add (r : Rate α) (delta : α) : Rate α := { r with value := r.value + delta }

def drawn (r : Rate α) : α := Scalar.clampUnit r.value

end Rate

end Overlay

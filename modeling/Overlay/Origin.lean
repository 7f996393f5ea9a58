import Overlay.Geometry
import Overlay.Script.Values

/-!
# Origins

Where a picture comes from: the part that defines it, the part on the field that triggered it, its
images and its sound.  What a script writes as an offset is resolved against the origin; so is the
part that a picture may ask the host to place.
-/

namespace Overlay

/-- A picture by the part that defines it and its slot. -/
structure Pointer where
  part : Int
  id : Int
  deriving DecidableEq, Repr

def Pointer.text (p : Pointer) : String := s!"parts {p.part} / picture {p.id}"

structure Origin where
  pointer : Pointer := ⟨0, 0⟩
  /-- Position of the part that triggered the picture. -/
  trigger : Vec Int := ⟨0, 0⟩
  triggerPart : Int := 0
  /-- Image crop in chips. -/
  crop : Vec Int := ⟨0, 0⟩
  /-- Second image crop; the zero vector for none. -/
  secondCrop : Vec Int := ⟨0, 0⟩
  /-- Sound to play on appearance; zero for none. -/
  sound : Nat := 0
  deriving DecidableEq, Repr

namespace Origin

/-- An origin with nothing but a pointer.  Until a trigger is named, the defining part counts as
one. -/
def ofPointer (pointer : Pointer) : Origin := { pointer, triggerPart := pointer.part }

/-- Whether there is a second image to alternate with. -/
def hasSecondImage (o : Origin) : Bool := decide (o.secondCrop ≠ ⟨0, 0⟩)

/-- The crop to draw, given whether the blink switch shows the primary image. -/
def shownCrop (o : Origin) (primary : Bool) : Vec Int :=
  if o.hasSecondImage && !primary then o.secondCrop else o.crop

end Origin

/-! ### Parts to place -/

/-- A part to place, as a script writes it. -/
structure Spawn where
  part : Relative := .same
  x : Relative := .same
  y : Relative := .same
  layer : Layer := .object
  deriving DecidableEq, Repr

structure Appearance where
  trigger : Vec Int
  x : Int
  y : Int
  part : Int
  layer : Layer
  deriving DecidableEq, Repr

def Spawn.resolve (s : Spawn) (o : Origin) : Appearance :=
  { trigger := o.trigger
    x := s.x.resolve o.trigger.x
    y := s.y.resolve o.trigger.y
    part := s.part.resolve o.triggerPart
    layer := s.layer }

end Overlay

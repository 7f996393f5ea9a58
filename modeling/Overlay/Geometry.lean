import Overlay.Scalar

/-!
# Vectors, rectangles and angles

Chip coordinates are vectors of integers, pixels vectors of scalars.  An angle is kept in degrees
and brought into `[0, 360)` whenever it is set.
-/

namespace Overlay

/-- A pair of horizontal and vertical component. -/
structure Vec (α : Type) where
  x : α
  y : α
  deriving DecidableEq, Repr

namespace Vec

variable {α : Type}

instance [Add α] : Add (Vec α) := ⟨fun a b => ⟨a.x + b.x, a.y + b.y⟩⟩

instance [Sub α] : Sub (Vec α) := ⟨fun a b => ⟨a.x - b.x, a.y - b.y⟩⟩

@[simp] theorem add_x [Add α] (a b : Vec α) : (a + b).x = a.x + b.x := rfl

@[simp] theorem add_y [Add α] (a b : Vec α) : (a + b).y = a.y + b.y := rfl

@[simp] theorem sub_x [Sub α] (a b : Vec α) : (a - b).x = a.x - b.x := rfl

@[simp] theorem sub_y [Sub α] (a b : Vec α) : (a - b).y = a.y - b.y := rfl

/-- The vector with the images of the components. -/
def map {β : Type} (f : α → β) (v : Vec α) : Vec β := ⟨f v.x, f v.y⟩

/-- Whole-number components as scalars. -/
def ofInts [Scalar α] (v : Vec Int) : Vec α := v.map Scalar.ofInt

/-- The zero vector. -/
def zero [Scalar α] : Vec α := ofInts ⟨0, 0⟩

/-- The components in parentheses, given the text of one. -/
def text (component : α → String) (v : Vec α) : String := s!"({component v.x}, {component v.y})"

end Vec

/-- A rectangle with sides along the axes. -/
structure Rect (α : Type) where
  x : α
  y : α
  width : α
  height : α
  deriving DecidableEq, Repr

/-- The centre of a rectangle. -/
def Rect.center {α : Type} [Scalar α] (r : Rect α) : Vec α :=
  ⟨r.x + r.width / Scalar.ofInt 2, r.y + r.height / Scalar.ofInt 2⟩

structure Angle (α : Type) where
  degrees : α
  deriving DecidableEq, Repr

namespace Angle

variable {α : Type} [Scalar α]

def fullTurn : α := Scalar.ofInt 360

/-- Degrees brought into `[0, 360)`.  What is not finite becomes zero, and so does a result that was
rounded up to a full turn. -/
def normalize (d : α) : α :=
  if Scalar.isFinite d then
    let r := Scalar.wrap d fullTurn
    if fullTurn ≤ r then Scalar.ofInt 0 else r
  else Scalar.ofInt 0

def ofDegrees (d : α) : Angle α := ⟨normalize d⟩

def zero : Angle α := ⟨Scalar.ofInt 0⟩

def radians (a : Angle α) : α := Scalar.toRadians a.degrees

def rotate (a : Angle α) (delta : α) : Angle α := ofDegrees (a.degrees + delta)

end Angle

end Overlay

import Overlay.Clock
import Overlay.Config
import Overlay.Property.Setting
import Overlay.Rate

/-!
# Property sets

A picture owns one value of every property, so that it is fully defined even where its script is
silent.  Lines change a property set through settings, animations and the host through a few moves
that no rule limits.
-/

namespace Overlay

/-- One value of every property. -/
structure Properties (α : Type) where
  config : Config
  pos : Placement α
  /-- Visible time; none for no end. -/
  time : Option Millis
  /-- The picture that follows in the same slot. -/
  timeNext : Option Pointer
  /-- Start and end of the animations. -/
  timeAnim : Option (Millis × Option Millis)
  wait : Option Wait
  next : List Pointer
  /-- Size of one cell, in pixels. -/
  size : Vec α
  /-- Size of the image crop, in chips. -/
  clip : Vec Int
  angle : Angle α
  repetition : Repetition
  interval : Interval
  opacity : Rate α
  text : Caption
  font : Font
  color : Color
  deriving DecidableEq, Repr

namespace Properties

variable {α : Type} [Scalar α]

/-- Every property at its default: one cell of one chip at the corner of the field, opaque. -/
def initial (config : Config) : Properties α where
  config
  pos := .ofVec .zero
  time := none
  timeNext := none
  timeAnim := none
  wait := none
  next := []
  size := ⟨config.chip, config.chip⟩
  clip := ⟨1, 1⟩
  angle := .zero
  repetition := {}
  interval := {}
  opacity := .full
  text := {}
  font := {}
  color := {}

/-- The property set with a setting taken over.  The opacity is set on the rate there is, whose policy
may refuse the value; nothing else is refused. -/
def set (p : Properties α) : Setting α → Except Fault (Properties α)
  | .pos v => .ok { p with pos := .ofVec (.ofInts v) }
  | .time duration follower => .ok { p with time := some duration, timeNext := follower }
  | .timeAnim start finish => .ok { p with timeAnim := some (start, finish) }
  | .wait w => .ok { p with wait := some w }
  | .next pointers => .ok { p with next := pointers }
  | .size v => .ok { p with size := .ofInts v }
  | .clip v => .ok { p with clip := v }
  | .angle a => .ok { p with angle := a }
  | .count v => .ok { p with repetition := { p.repetition with count := v } }
  | .interval i => .ok { p with interval := i }
  | .opacity value => (p.opacity.set value).map fun r => { p with opacity := r }
  | .text c => .ok { p with text := c }
  | .font f => .ok { p with font := f }
  | .color c => .ok { p with color := c }
  | .fill on => .ok { p with repetition := { p.repetition with fill := on } }

/-! ### Moves -/

def move (p : Properties α) (d : Vec α) : Properties α := { p with pos := p.pos.move d }

def jump (p : Properties α) (v : Vec α) : Properties α := { p with pos := p.pos.jump v }

/-- The cell grows by `d` around its centre. -/
def resize (p : Properties α) (d : Vec α) : Properties α :=
  { p with
    size := p.size + d
    pos := p.pos.shift (d.map fun c => -c / Scalar.ofInt 2) }

def rotate (p : Properties α) (d : α) : Properties α := { p with angle := p.angle.rotate d }

/-- The opacity changes by `d`, unchecked. -/
def fade (p : Properties α) (d : α) : Properties α := { p with opacity := p.opacity.add d }

/-! ### Derived values -/

def window (p : Properties α) : Window :=
  match p.timeAnim with
  | some (start, finish) => .ofBounds start finish
  | none => .ofBounds 0 none

/-- The pictures that follow this one: the one in its slot first, then the chain. -/
def followers (p : Properties α) : List Pointer := p.timeNext.toList ++ p.next

/-- The distance between the corners of neighbouring cells. -/
def pitch (p : Properties α) : Vec α := p.size + .ofInts p.interval.gap

end Properties

end Overlay

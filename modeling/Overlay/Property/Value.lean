import Overlay.Clock
import Overlay.Origin

/-!
# Property values

The values a picture has for its properties, as far as they are more than a number or a vector.
-/

namespace Overlay

/-- A position in two parts.  Straight moves and zooms shift the base; an orbit moves the current
position alone, so that it follows a moving centre. -/
structure Placement (α : Type) where
  base : Vec α
  current : Vec α
  deriving DecidableEq, Repr

namespace Placement

variable {α : Type} [Scalar α]

def ofVec (v : Vec α) : Placement α := ⟨v, v⟩

/-- The base moves, and the current position returns to it. -/
def move (p : Placement α) (d : Vec α) : Placement α := ofVec (p.base + d)

def shift (p : Placement α) (d : Vec α) : Placement α := ⟨p.base + d, p.current + d⟩

def jump (p : Placement α) (v : Vec α) : Placement α := { p with current := v }

end Placement

/-- A delay before a picture appears, and the part that may be placed when it does. -/
structure Wait where
  delay : Millis
  target : Spawn
  /-- The part to place, resolved against the origin of the picture. -/
  appearance : Appearance
  /-- Whether the part is placed at all. -/
  spawns : Bool
  deriving DecidableEq, Repr

def Wait.spawn? (w : Wait) : Option Appearance := if w.spawns then some w.appearance else none

/-! ### Tiling -/

/-- How often a picture is repeated: a number of cells on each axis, or as many as fill the field. -/
structure Repetition where
  count : Vec Int := ⟨1, 1⟩
  fill : Bool := false
  deriving DecidableEq, Repr

structure Interval where
  gap : Vec Int := ⟨0, 0⟩
  /-- Stagger: `x` for each row, `y` for each column. -/
  shift : Vec Int := ⟨0, 0⟩
  deriving DecidableEq, Repr

/-! ### Text -/

/-- The horizontal place of a text. -/
inductive Align
  | start
  | center
  | finish
  deriving DecidableEq, Repr

def Align.ofIndex? : Int → Option Align
  | 0 => some start
  | 1 => some center
  | 2 => some finish
  | _ => none

/-- The name a renderer knows an alignment by. -/
def Align.text : Align → String
  | start => "start"
  | center => "center"
  | finish => "end"

/-- The vertical place of a text. -/
inductive Baseline
  | top
  | middle
  | alphabetic
  | bottom
  deriving DecidableEq, Repr

def Baseline.ofIndex? : Int → Option Baseline
  | 0 => some top
  | 1 => some middle
  | 2 => some alphabetic
  | 3 => some bottom
  | _ => none

/-- The name a renderer knows a baseline by. -/
def Baseline.text : Baseline → String
  | top => "top"
  | middle => "middle"
  | alphabetic => "alphabetic"
  | bottom => "bottom"

/-- A text and where it stands. -/
structure Caption where
  content : String := ""
  align : Align := .start
  baseline : Baseline := .top
  deriving DecidableEq, Repr

/-- The family of a font that names none. -/
def defaultFamily : String := "sans-serif"

structure Font where
  size : Nat := 16
  bold : Bool := false
  italic : Bool := false
  family : String := defaultFamily
  deriving DecidableEq, Repr

/-- The font in one line: style, weight, size, family. -/
def Font.descriptor (f : Font) : String :=
  let style := if f.italic then "italic" else "normal"
  let weight := if f.bold then "bold" else "normal"
  s!"{style} {weight} {f.size}px {f.family}"

structure Color where
  red : UInt8 := 0
  green : UInt8 := 0
  blue : UInt8 := 0
  deriving DecidableEq, Repr

def Color.text (c : Color) : String :=
  s!"rgb({c.red.toNat}, {c.green.toNat}, {c.blue.toNat})"

end Overlay

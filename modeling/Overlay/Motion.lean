import Overlay.Properties

/-!
# Motions

A motion changes one property of a picture on every tick.  There are five kinds; a picture has at
most one of each, and they are stepped in a fixed order.  A motion first applies its rate of change
and then adds its acceleration to it.

An acceleration may be known before its motion is.  It is kept, and given to every motion of its
kind that is installed later; `Track` holds the two together.
-/

namespace Overlay

inductive MotionKind
  | straight
  | circle
  | zoom
  | rotate
  | fade
  deriving DecidableEq, Repr

namespace MotionKind

/-- All kinds, in the order in which they are stepped. -/
def all : List MotionKind := [straight, circle, zoom, rotate, fade]

/-- The name of a kind in a script, after `anim_` or `accel_`. -/
def suffix : MotionKind → String
  | straight => "straight"
  | circle => "circle"
  | zoom => "zoom"
  | rotate => "rotate"
  | fade => "fade"

def ofSuffix? (s : String) : Option MotionKind := all.find? fun k => k.suffix = s

/-- The property a kind changes. -/
def target : MotionKind → PropertyKind
  | straight | circle => .pos
  | zoom => .size
  | rotate => .angle
  | fade => .opacity

/-- The name of the line that installs a motion of the kind. -/
def text (k : MotionKind) : String := "anim_" ++ k.suffix

theorem mem_all (k : MotionKind) : k ∈ all := by cases k <;> decide

theorem ofSuffix?_suffix (k : MotionKind) : ofSuffix? k.suffix = some k := by cases k <;> decide

end MotionKind

/-! ### Motions and accelerations -/

/-- A change per tick and the change of that change. -/
structure Drift (β : Type) where
  delta : β
  accel : β
  deriving DecidableEq, Repr

/-- A walk around the base of a position. -/
structure Orbit (α : Type) where
  radius : Vec α
  /-- Degrees. -/
  angle : α
  /-- Degrees per tick. -/
  speed : α
  angularAccel : α
  radiusAccel : Vec α
  deriving DecidableEq, Repr

inductive Motion (α : Type)
  | straight (d : Drift (Vec α))
  | circle (o : Orbit α)
  | zoom (d : Drift (Vec α))
  | rotate (d : Drift α)
  | fade (d : Drift α)
  deriving DecidableEq, Repr

structure OrbitAccel (α : Type) where
  angular : α
  radius : Vec α
  deriving DecidableEq, Repr

inductive Acceleration (α : Type)
  | straight (a : Vec α)
  | circle (a : OrbitAccel α)
  | zoom (a : Vec α)
  | rotate (a : α)
  | fade (a : α)
  deriving DecidableEq, Repr

def Motion.kind {α : Type} : Motion α → MotionKind
  | straight _ => .straight
  | circle _ => .circle
  | zoom _ => .zoom
  | rotate _ => .rotate
  | fade _ => .fade

def Acceleration.kind {α : Type} : Acceleration α → MotionKind
  | straight _ => .straight
  | circle _ => .circle
  | zoom _ => .zoom
  | rotate _ => .rotate
  | fade _ => .fade

def Drift.withAccel {β : Type} (d : Drift β) (a : β) : Drift β := { d with accel := a }

def Orbit.withAccel {α : Type} (o : Orbit α) (a : OrbitAccel α) : Orbit α :=
  { o with angularAccel := a.angular, radiusAccel := a.radius }

/-- The motion with another acceleration, which has to be of the same kind. -/
def Motion.withAccel? {α : Type} : Motion α → Acceleration α → Option (Motion α)
  | straight d, .straight a => some (straight (d.withAccel a))
  | circle o, .circle a => some (circle (o.withAccel a))
  | zoom d, .zoom a => some (zoom (d.withAccel a))
  | rotate d, .rotate a => some (rotate (d.withAccel a))
  | fade d, .fade a => some (fade (d.withAccel a))
  | _, _ => none

/-! ### Reading -/

section Reading

variable {α : Type} [Scalar α]

/-- Two numbers at the start of a line. -/
def Line.requireVec (line : Line) : Except Fault (Vec α) := do
  let x ← line.requireScalar 0
  let y ← line.requireScalar 1
  return ⟨x, y⟩

/-- The motion a line describes, without acceleration. -/
def Motion.read (line : Line) : MotionKind → Except Fault (Motion α)
  | .straight => do
    let delta ← line.requireVec
    return straight ⟨delta, .zero⟩
  | .circle => do
    let radius ← line.requireVec
    let speed ← line.requireScalar 2
    let angle ← line.scalarOr 3 (Scalar.ofInt 0)
    return circle ⟨radius, angle, speed, Scalar.ofInt 0, .zero⟩
  | .zoom => do
    let delta ← line.requireVec
    return zoom ⟨delta, .zero⟩
  | .rotate => do
    let delta ← line.requireScalar 0
    return rotate ⟨delta, Scalar.ofInt 0⟩
  | .fade => do
    let delta ← line.requireScalar 0
    return fade ⟨delta, Scalar.ofInt 0⟩

/-- The acceleration a line describes. -/
def Acceleration.read (line : Line) : MotionKind → Except Fault (Acceleration α)
  | .straight => straight <$> line.requireVec
  | .circle => do
    let angular ← line.requireScalar 0
    let x ← line.scalarOr 1 (Scalar.ofInt 0)
    let y ← line.scalarOr 2 (Scalar.ofInt 0)
    return circle ⟨angular, ⟨x, y⟩⟩
  | .zoom => zoom <$> line.requireVec
  | .rotate => rotate <$> line.requireScalar 0
  | .fade => fade <$> line.requireScalar 0

end Reading

/-! ### Steps -/

section Steps

variable {α : Type} [Scalar α]

def Drift.advance {β : Type} [Add β] (d : Drift β) : Drift β := { d with delta := d.delta + d.accel }

def Orbit.advance (o : Orbit α) : Orbit α :=
  { o with
    angle := Scalar.wrap (o.angle + o.speed) Angle.fullTurn
    speed := o.speed + o.angularAccel
    radius := o.radius + o.radiusAccel }

/-- The distance of an orbit from the base, in whole pixels. -/
def Orbit.offset (o : Orbit α) : Vec α :=
  let r := Scalar.toRadians o.angle
  ⟨Scalar.trunc (Scalar.cos r * o.radius.x), Scalar.trunc (Scalar.sin r * o.radius.y)⟩

/-- The current position on an orbit around the base. -/
def Properties.orbit (p : Properties α) (o : Orbit α) : Properties α :=
  p.jump (p.pos.base + o.offset)

/-- What one step of a motion does to the properties. -/
def Motion.apply : Motion α → Properties α → Properties α
  | straight d, p => p.move d.delta
  | circle o, p => p.orbit o
  | zoom d, p => p.resize d.delta
  | rotate d, p => p.rotate d.delta
  | fade d, p => p.fade d.delta

def Motion.advance : Motion α → Motion α
  | straight d => straight d.advance
  | circle o => circle o.advance
  | zoom d => zoom d.advance
  | rotate d => rotate d.advance
  | fade d => fade d.advance

end Steps

/-! ### Tracks -/

/-- The motion of one kind and the acceleration known for it. -/
structure Track (μ ν : Type) where
  motion : Option μ := none
  accel : Option ν := none
  deriving DecidableEq, Repr

namespace Track

variable {μ ν : Type}

/-- A motion replaces the one before, and is given the acceleration known for it. -/
def install (withAccel : μ → ν → μ) (t : Track μ ν) (m : μ) : Track μ ν :=
  { t with motion := some ((t.accel.map (withAccel m)).getD m) }

/-- An acceleration is given to the motion there is, and kept for later ones. -/
def accelerate (withAccel : μ → ν → μ) (t : Track μ ν) (a : ν) : Track μ ν :=
  { motion := t.motion.map (withAccel · a), accel := some a }

def advance (f : μ → μ) (t : Track μ ν) : Track μ ν := { t with motion := t.motion.map f }

end Track

/-- A track for every kind of motion. -/
structure Tracks (α : Type) where
  straight : Track (Drift (Vec α)) (Vec α) := {}
  circle : Track (Orbit α) (OrbitAccel α) := {}
  zoom : Track (Drift (Vec α)) (Vec α) := {}
  rotate : Track (Drift α) α := {}
  fade : Track (Drift α) α := {}
  deriving DecidableEq, Repr

namespace Tracks

variable {α : Type}

def motion? (t : Tracks α) : MotionKind → Option (Motion α)
  | .straight => t.straight.motion.map .straight
  | .circle => t.circle.motion.map .circle
  | .zoom => t.zoom.motion.map .zoom
  | .rotate => t.rotate.motion.map .rotate
  | .fade => t.fade.motion.map .fade

def accel? (t : Tracks α) : MotionKind → Option (Acceleration α)
  | .straight => t.straight.accel.map .straight
  | .circle => t.circle.accel.map .circle
  | .zoom => t.zoom.accel.map .zoom
  | .rotate => t.rotate.accel.map .rotate
  | .fade => t.fade.accel.map .fade

/-- The installed motions, in the order in which they are stepped. -/
def motions (t : Tracks α) : List (Motion α) := MotionKind.all.filterMap t.motion?

/-- The kinds whose acceleration waits for a motion. -/
def orphans (t : Tracks α) : List MotionKind :=
  MotionKind.all.filter fun k => (t.accel? k).isSome && (t.motion? k).isNone

def install (t : Tracks α) : Motion α → Tracks α
  | .straight d => { t with straight := t.straight.install Drift.withAccel d }
  | .circle o => { t with circle := t.circle.install Orbit.withAccel o }
  | .zoom d => { t with zoom := t.zoom.install Drift.withAccel d }
  | .rotate d => { t with rotate := t.rotate.install Drift.withAccel d }
  | .fade d => { t with fade := t.fade.install Drift.withAccel d }

def accelerate (t : Tracks α) : Acceleration α → Tracks α
  | .straight a => { t with straight := t.straight.accelerate Drift.withAccel a }
  | .circle a => { t with circle := t.circle.accelerate Orbit.withAccel a }
  | .zoom a => { t with zoom := t.zoom.accelerate Drift.withAccel a }
  | .rotate a => { t with rotate := t.rotate.accelerate Drift.withAccel a }
  | .fade a => { t with fade := t.fade.accelerate Drift.withAccel a }

variable [Scalar α]

/-- What one step of all installed motions does to the properties, one motion after the other. -/
def apply (t : Tracks α) (p : Properties α) : Properties α := t.motions.foldl (fun p m => m.apply p) p

def advance (t : Tracks α) : Tracks α where
  straight := t.straight.advance Drift.advance
  circle := t.circle.advance Orbit.advance
  zoom := t.zoom.advance Drift.advance
  rotate := t.rotate.advance Drift.advance
  fade := t.fade.advance Drift.advance

end Tracks

end Overlay

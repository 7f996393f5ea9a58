import Overlay.Properties

/-!
# Tiling

A picture is repeated over a grid of cells.  The grid has a given number of cells, or it fills the
field: then it starts left of and above the field, at a place that depends on the position modulo the
pitch, and has one cell more than the field is wide or high, so that it scrolls without a seam.

Rows and columns may be staggered: each row is shifted to the side, each column downwards.
-/

namespace Overlay

variable {α : Type} [Scalar α]

/-- Whether cells at this distance can fill a stretch. -/
def isUsablePitch (pitch : α) : Bool := Scalar.isFinite pitch && !decide (pitch ≤ Scalar.ofInt 0)

/-- The number of cells that fill a stretch of the field, and one more.  Cells narrower than a pixel
count as a pixel wide; a distance that cannot fill anything gives a single cell. -/
def fillCount (field : Nat) (pitch : α) : Int :=
  if isUsablePitch pitch then
    let width := if pitch < Scalar.ofInt 1 then Scalar.ofInt 1 else pitch
    clampWhole (clampWhole (Scalar.ceil (Scalar.ofInt field / width)) + 1)
  else 1

/-- Where the grid starts on one axis when it fills the field: less than a cell before its edge. -/
def fillStart (pos pitch : α) : α := if isUsablePitch pitch then Scalar.wrap pos pitch - pitch else pos

/-- The length of `count` cells with the gap between them, not below zero. -/
def extent (count : Int) (pitch : α) (gap : Int) : α :=
  let length := Scalar.ofInt count * pitch - Scalar.ofInt gap
  if Scalar.ofInt 0 < length then length else Scalar.ofInt 0

namespace Properties

def cellCount (p : Properties α) : Vec Int :=
  if p.repetition.fill then
    ⟨fillCount p.config.fieldWidth p.pitch.x, fillCount p.config.fieldHeight p.pitch.y⟩
  else p.repetition.count

def width (p : Properties α) : α :=
  if p.repetition.fill then Scalar.ofInt p.config.fieldWidth
  else extent p.repetition.count.x p.pitch.x p.interval.gap.x

def height (p : Properties α) : α :=
  if p.repetition.fill then Scalar.ofInt p.config.fieldHeight
  else extent p.repetition.count.y p.pitch.y p.interval.gap.y

def gridStart (p : Properties α) : Vec α :=
  if p.repetition.fill then
    ⟨fillStart p.pos.current.x p.pitch.x, fillStart p.pos.current.y p.pitch.y⟩
  else p.pos.current

end Properties

/-! ### Grids -/

/-- `done`, reversed, and then `n` corners from `corner` on, each one step from the one before. -/
def steppedFrom (step : Vec α) : Nat → Vec α → List (Vec α) → List (Vec α)
  | 0, _, done => done.reverse
  | n + 1, corner, done => steppedFrom step n (corner + step) (corner :: done)

/-- The corners of `n` cells from `corner` on, each one step from the one before. -/
def stepped (step : Vec α) (n : Nat) (corner : Vec α) : List (Vec α) := steppedFrom step n corner []

/-- The corners of a grid, row by row.  Rows without cells are not even walked. -/
def gridCorners (columns rows : Nat) (columnStep rowStep start : Vec α) : List (Vec α) :=
  if columns = 0 then []
  else (stepped rowStep rows start).flatMap fun corner => stepped columnStep columns corner

/-- The cells of a picture, row by row.  The list is as long as there are cells: that room for all of them
is set aside beforehand, which no machine can do for the greatest counts, is left out. -/
def Properties.tiles (p : Properties α) : List (Rect α) :=
  let shift : Vec α := .ofInts p.interval.shift
  let corners := gridCorners p.cellCount.x.toNat p.cellCount.y.toNat
    ⟨p.pitch.x, shift.y⟩ ⟨shift.x, p.pitch.y⟩ p.gridStart
  corners.map fun c => ⟨c.x, c.y, p.size.x, p.size.y⟩

/-! ### Laws -/

theorem steppedFrom_eq (step : Vec α) (n : Nat) (corner : Vec α) (done : List (Vec α)) :
    steppedFrom step n corner done = done.reverse ++ stepped step n corner := by
  unfold stepped
  induction n generalizing corner done with
  | zero => simp [steppedFrom]
  | succ n ih => simp only [steppedFrom]; rw [ih _ (corner :: done), ih _ [corner]]; simp

theorem stepped_zero (step corner : Vec α) : stepped step 0 corner = [] := rfl

theorem stepped_succ (step : Vec α) (n : Nat) (corner : Vec α) :
    stepped step (n + 1) corner = corner :: stepped step n (corner + step) := by
  rw [stepped, steppedFrom, steppedFrom_eq]
  rfl

theorem gridCorners_eq (columns rows : Nat) (columnStep rowStep start : Vec α) :
    gridCorners columns rows columnStep rowStep start =
      (stepped rowStep rows start).flatMap fun corner => stepped columnStep columns corner := by
  unfold gridCorners
  split
  · subst columns
    simp [stepped_zero]
  · rfl

theorem length_stepped (step : Vec α) (n : Nat) (corner : Vec α) :
    (stepped step n corner).length = n := by
  induction n generalizing corner with
  | zero => rfl
  | succ n ih => rw [stepped_succ, List.length_cons, ih]

end Overlay

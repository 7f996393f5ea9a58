import Overlay.Tiling

/-!
# Drawings

What the renderer is handed once per frame: everything about a visible picture, with all rules
already applied.
-/

namespace Overlay

/-- The parameters of drawing a picture. -/
structure Drawing (α : Type) where
  /-- The part of the image to draw. -/
  source : Rect α
  /-- The part of the field the picture covers. -/
  dest : Rect α
  /-- Rotation in radians, around `pivot`. -/
  rotation : α
  pivot : Vec α
  opacity : α
  font : String
  fillStyle : String
  align : Align
  baseline : Baseline
  text : String
  /-- Number of cells. -/
  count : Vec Int
  /-- Distance between the corners of neighbouring cells. -/
  pitch : Vec α
  shift : Vec α
  tiles : List (Rect α)

/-- The drawing of a property set with the image at `crop`. -/
def Properties.draw {α : Type} [Scalar α] (p : Properties α) (crop : Vec Int) : Drawing α :=
  let chip : α := p.config.chip
  let crop : Vec α := .ofInts crop
  let clip : Vec α := .ofInts p.clip
  let dest : Rect α := ⟨p.pos.current.x, p.pos.current.y, p.width, p.height⟩
  { source := ⟨crop.x * chip, crop.y * chip, clip.x * chip, clip.y * chip⟩
    dest
    rotation := p.angle.radians
    pivot := dest.center
    opacity := p.opacity.drawn
    font := p.font.descriptor
    fillStyle := p.color.text
    align := p.text.align
    baseline := p.text.baseline
    text := p.text.content
    count := p.cellCount
    pitch := p.pitch
    shift := .ofInts p.interval.shift
    tiles := p.tiles }

end Overlay

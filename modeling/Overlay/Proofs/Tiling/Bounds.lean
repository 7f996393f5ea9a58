import Overlay.Proofs.Tiling.Fill
import Overlay.Drawing

/-!
# The rectangle the tiles cover

A picture that does not fill the field, over exact numbers, without stagger.  The length of its cells is
computed apart from where they stand, and the two agree: from the first cell it reaches to the end of the
last one (`isGreatest_ends`), so that the destination of a drawing is the bounding box of its tiles and the
pivot is the centre of that (`dest_bounds_tiles`).

Without cells there is no gap between them to leave out.  A negative one is left out all the same, and the
destination is as long as the gap then, with nothing in it (`extent_zero`).
-/

namespace Overlay

variable {r : Reading}

/-! ### Lengths -/

section Axis

variable {start size : Exact r} {gap : ℤ} {n : ℕ}

theorem extent_eq_max (count : ℤ) (pitch : Exact r) (gap : ℤ) :
    extent count pitch gap = max 0 (count * pitch - gap) := by
  simp only [extent, Exact.ofInt_eq, Int.cast_zero]
  split
  · next h => exact (max_eq_right h.le).symm
  · next h => exact (max_eq_left (not_lt.1 h)).symm

theorem extent_zero (pitch : Exact r) (gap : ℤ) : extent 0 pitch gap = max 0 (-(gap : Exact r)) := by
  rw [extent_eq_max, Int.cast_zero, zero_mul, zero_sub]

theorem extent_zero_eq_zero_iff (pitch : Exact r) (gap : ℤ) : extent 0 pitch gap = 0 ↔ 0 ≤ gap := by
  rw [extent_zero, max_eq_left_iff, neg_nonpos, Int.cast_nonneg_iff]

/-- All cells but the last take their gap along. -/
theorem extent_succ (hs : 0 ≤ size) (hp : 0 ≤ size + gap) (n : ℕ) :
    extent (n + 1 : ℕ) (size + gap) gap = n * (size + gap) + size := by
  have hlength : ((n + 1 : ℕ) : ℤ) * (size + gap) - gap = n * (size + gap) + size := by
    push_cast
    ring
  rw [extent_eq_max, hlength]
  exact max_eq_right (add_nonneg (mul_nonneg n.cast_nonneg hp) hs)

theorem isLeast_starts (start : Exact r) {pitch : Exact r} (hp : 0 ≤ pitch) (hn : 0 < n) :
    IsLeast {x | ∃ i < n, x = start + i * pitch} start := by
  refine ⟨⟨0, hn, by simp⟩, ?_⟩
  rintro x ⟨i, -, rfl⟩
  exact le_add_of_nonneg_right (mul_nonneg i.cast_nonneg hp)

theorem isGreatest_ends (start : Exact r) (hs : 0 ≤ size) (hp : 0 ≤ size + gap) (hn : 0 < n) :
    IsGreatest {x | ∃ i < n, x = start + i * (size + gap) + size}
      (start + extent n (size + gap) gap) := by
  obtain ⟨m, rfl⟩ := Nat.exists_eq_succ_of_ne_zero hn.ne'
  rw [extent_succ hs hp, ← add_assoc]
  refine ⟨⟨m, Nat.lt_succ_self m, rfl⟩, ?_⟩
  rintro x ⟨i, hi, rfl⟩
  have hle : (i : Exact r) ≤ m := Nat.cast_le.2 (Nat.lt_succ_iff.1 hi)
  gcongr

end Axis

/-! ### Boxes -/

/-- The rectangle reaches exactly as far as the tiles, on all four sides. -/
structure IsBoundingBox (box : Rect (Exact r)) (tiles : List (Rect (Exact r))) : Prop where
  left : IsLeast {x | ∃ tile ∈ tiles, x = tile.x} box.x
  top : IsLeast {y | ∃ tile ∈ tiles, y = tile.y} box.y
  right : IsGreatest {x | ∃ tile ∈ tiles, x = tile.x + tile.width} (box.x + box.width)
  bottom : IsGreatest {y | ∃ tile ∈ tiles, y = tile.y + tile.height} (box.y + box.height)

theorem IsBoundingBox.unique {box box' : Rect (Exact r)} {tiles : List (Rect (Exact r))}
    (h : IsBoundingBox box tiles) (h' : IsBoundingBox box' tiles) : box = box' := by
  obtain ⟨x, y, width, height⟩ := box
  obtain ⟨x', y', width', height'⟩ := box'
  obtain rfl : x = x' := h.left.unique h'.left
  obtain rfl : y = y' := h.top.unique h'.top
  obtain rfl : width = width' := add_left_cancel (h.right.unique h'.right)
  obtain rfl : height = height' := add_left_cancel (h.bottom.unique h'.bottom)
  rfl

namespace Properties

variable {p : Properties (Exact r)}

/-- The tile in a row and a column of a grid that starts at the position and is not staggered. -/
def countedTile (p : Properties (Exact r)) (row column : ℕ) : Rect (Exact r) :=
  ⟨p.pos.current.x + column * p.pitch.x, p.pos.current.y + row * p.pitch.y, p.size.x, p.size.y⟩

section Counted

variable (hfill : p.repetition.fill = false) (hshift : p.interval.shift = ⟨0, 0⟩)

include hfill

theorem width_of_counted : p.width = extent p.repetition.count.x p.pitch.x p.interval.gap.x := by
  simp [width, hfill]

theorem height_of_counted : p.height = extent p.repetition.count.y p.pitch.y p.interval.gap.y := by
  simp [height, hfill]

theorem tiles_eq_nil_of_counted (h : p.repetition.count.x = 0 ∨ p.repetition.count.y = 0) :
    p.tiles = [] := by
  have hcount : p.cellCount = p.repetition.count := by simp [cellCount, hfill]
  rw [← List.length_eq_zero_iff, length_tiles, hcount]
  rcases h with h | h <;> simp [h]

include hshift

theorem mem_tiles_of_counted (tile : Rect (Exact r)) :
    tile ∈ p.tiles ↔ ∃ row column, row < p.repetition.count.y.toNat ∧
      column < p.repetition.count.x.toNat ∧ tile = p.countedTile row column := by
  have hcount : p.cellCount = p.repetition.count := by simp [cellCount, hfill]
  have hstart : p.gridStart = p.pos.current := by simp [gridStart, hfill]
  simp only [p.mem_tiles_iff, cellCorner_of_no_shift hshift, hcount, hstart, countedTile]

/-- What only depends on the column of a tile is seen in any row. -/
theorem values_of_columns (hy : 1 ≤ p.repetition.count.y) {f : Rect (Exact r) → Exact r}
    {g : ℕ → Exact r} (hf : ∀ row column, f (p.countedTile row column) = g column) :
    {x | ∃ tile ∈ p.tiles, x = f tile} = {x | ∃ i < p.repetition.count.x.toNat, x = g i} := by
  ext x
  simp only [Set.mem_ofPred_eq, mem_tiles_of_counted hfill hshift]
  constructor
  · rintro ⟨tile, ⟨row, column, -, hc, rfl⟩, rfl⟩
    exact ⟨column, hc, hf row column⟩
  · rintro ⟨column, hc, rfl⟩
    exact ⟨_, ⟨0, column, by omega, hc, rfl⟩, (hf 0 column).symm⟩

/-- What only depends on the row of a tile is seen in any column. -/
theorem values_of_rows (hx : 1 ≤ p.repetition.count.x) {f : Rect (Exact r) → Exact r}
    {g : ℕ → Exact r} (hf : ∀ row column, f (p.countedTile row column) = g row) :
    {y | ∃ tile ∈ p.tiles, y = f tile} = {y | ∃ i < p.repetition.count.y.toNat, y = g i} := by
  ext y
  simp only [Set.mem_ofPred_eq, mem_tiles_of_counted hfill hshift]
  constructor
  · rintro ⟨tile, ⟨row, column, hr, -, rfl⟩, rfl⟩
    exact ⟨row, hr, hf row column⟩
  · rintro ⟨row, hr, rfl⟩
    exact ⟨_, ⟨row, 0, hr, by omega, rfl⟩, (hf row 0).symm⟩

/-- With at least one row and column, the position and the lengths give the box around the tiles. -/
theorem isBoundingBox_of_counted (hsx : 0 ≤ p.size.x) (hsy : 0 ≤ p.size.y) (hpx : 0 < p.pitch.x)
    (hpy : 0 < p.pitch.y) (hx : 1 ≤ p.repetition.count.x) (hy : 1 ≤ p.repetition.count.y) :
    IsBoundingBox ⟨p.pos.current.x, p.pos.current.y, p.width, p.height⟩ p.tiles := by
  have hcolumns : ((p.repetition.count.x.toNat : ℕ) : ℤ) = p.repetition.count.x := by omega
  have hrows : ((p.repetition.count.y.toNat : ℕ) : ℤ) = p.repetition.count.y := by omega
  constructor
  · rw [values_of_columns hfill hshift hy fun _ _ => rfl]
    exact isLeast_starts _ hpx.le (by omega)
  · rw [values_of_rows hfill hshift hx fun _ _ => rfl]
    exact isLeast_starts _ hpy.le (by omega)
  · rw [values_of_columns hfill hshift hy
        (g := fun column => p.pos.current.x + column * p.pitch.x + p.size.x) fun _ _ => rfl,
      width_of_counted hfill, ← hcolumns]
    exact isGreatest_ends _ hsx hpx.le (by omega)
  · rw [values_of_rows hfill hshift hx
        (g := fun row => p.pos.current.y + row * p.pitch.y + p.size.y) fun _ _ => rfl,
      height_of_counted hfill, ← hrows]
    exact isGreatest_ends _ hsy hpy.le (by omega)

/-- Take a property set that does not fill the field and is not staggered, over exact numbers, with cells
that are not turned inside out and a positive distance between them, at any position, with any gap.  If
there are cells, the destination of the drawing is the bounding box of its tiles, and the pivot is the
centre of whatever box that is.  If there are none on an axis, there are no tiles at all, and the
destination has no length there, unless the gap is negative: then it is as long as the gap. -/
theorem dest_bounds_tiles (hsize : 0 ≤ p.size.x ∧ 0 ≤ p.size.y) (hpitch : 0 < p.pitch.x ∧ 0 < p.pitch.y)
    (crop : Vec Int) :
    (1 ≤ p.repetition.count.x → 1 ≤ p.repetition.count.y →
      IsBoundingBox (p.draw crop).dest (p.draw crop).tiles ∧
      ∀ box, IsBoundingBox box (p.draw crop).tiles → (p.draw crop).pivot = box.center) ∧
    (p.repetition.count.x = 0 → (p.draw crop).tiles = [] ∧
      (p.draw crop).dest.width = max 0 (-(p.interval.gap.x : Exact r)) ∧
      ((p.draw crop).dest.width = 0 ↔ 0 ≤ p.interval.gap.x)) ∧
    (p.repetition.count.y = 0 → (p.draw crop).tiles = [] ∧
      (p.draw crop).dest.height = max 0 (-(p.interval.gap.y : Exact r)) ∧
      ((p.draw crop).dest.height = 0 ↔ 0 ≤ p.interval.gap.y)) := by
  refine ⟨fun hx hy => ?_, fun hx => ?_, fun hy => ?_⟩
  · have hbox : IsBoundingBox (p.draw crop).dest (p.draw crop).tiles :=
      isBoundingBox_of_counted hfill hshift hsize.1 hsize.2 hpitch.1 hpitch.2 hx hy
    exact ⟨hbox, fun box h => congrArg Rect.center (hbox.unique h)⟩
  · have hwidth : (p.draw crop).dest.width = extent 0 p.pitch.x p.interval.gap.x := by
      rw [← hx]
      exact width_of_counted hfill
    refine ⟨tiles_eq_nil_of_counted hfill (Or.inl hx), ?_, ?_⟩
    · rw [hwidth, extent_zero]
    · rw [hwidth, extent_zero_eq_zero_iff]
  · have hheight : (p.draw crop).dest.height = extent 0 p.pitch.y p.interval.gap.y := by
      rw [← hy]
      exact height_of_counted hfill
    refine ⟨tiles_eq_nil_of_counted hfill (Or.inr hy), ?_, ?_⟩
    · rw [hheight, extent_zero]
    · rw [hheight, extent_zero_eq_zero_iff]

end Counted

/-- Overlapping cells, three in each row, at a position outside the field. -/
theorem box_of_overlapping_cells :
    ∃ p : Properties (Exact .unturned),
      p = ((Picture.initial {} {}).after [.line "repeat=3,2", .line "interval=-5,4",
        .line "pos=-7,93"]).properties ∧
      (p.draw ⟨0, 0⟩).dest = ⟨-7, 93, 110, 84⟩ ∧
      IsBoundingBox ⟨-7, 93, 110, 84⟩ (p.draw ⟨0, 0⟩).tiles ∧ (p.draw ⟨0, 0⟩).pivot = ⟨48, 135⟩ := by
  obtain ⟨p, hp⟩ : ∃ p : Properties (Exact .unturned),
      p = ((Picture.initial {} {}).after [.line "repeat=3,2", .line "interval=-5,4",
        .line "pos=-7,93"]).properties := ⟨_, rfl⟩
  have hgrid : p.repetition.fill = false ∧ p.interval.shift = ⟨0, 0⟩ ∧
      (0 ≤ p.size.x ∧ 0 ≤ p.size.y) ∧ (0 < p.pitch.x ∧ 0 < p.pitch.y) ∧
      1 ≤ p.repetition.count.x ∧ 1 ≤ p.repetition.count.y ∧
      (p.draw ⟨0, 0⟩).dest = ⟨-7, 93, 110, 84⟩ ∧
      (⟨-7, 93, 110, 84⟩ : Rect (Exact .unturned)).center = ⟨48, 135⟩ := by
    rw [hp]
    decide +kernel
  obtain ⟨hfill, hshift, hsize, hpitch, hx, hy, hdest, hcenter⟩ := hgrid
  obtain ⟨hbox, hpivot⟩ := (dest_bounds_tiles hfill hshift hsize hpitch ⟨0, 0⟩).1 hx hy
  rw [hdest] at hbox
  exact ⟨p, hp, hdest, hbox, (hpivot _ hbox).trans hcenter⟩

/-- A row without cells that covers five pixels. -/
theorem width_without_cells :
    ∃ p : Properties (Exact .unturned),
      p = ((Picture.initial {} {}).after [.line "repeat=0,1", .line "interval=-5,0", .start]).properties ∧
      (p.repetition.fill = false ∧ p.interval.shift = ⟨0, 0⟩) ∧
      ((0 ≤ p.size.x ∧ 0 ≤ p.size.y) ∧ 0 < p.pitch.x ∧ 0 < p.pitch.y) ∧
      p.repetition.count.x = 0 ∧ (p.draw ⟨0, 0⟩).tiles = [] ∧ (p.draw ⟨0, 0⟩).dest.width = 5 := by
  refine ⟨_, rfl, ?_⟩
  decide +kernel

end Properties

end Overlay

import Overlay.Proofs.Scalar.Exact
import Overlay.Tiling

/-!
# Grids

The cells of a picture stand row by row: the one in row `r` and column `c` of a grid of `n` columns has
the index `r * n + c` (`getElem?_gridCorners`), and over exact numbers it stands where that many steps
along the rows and columns lead (`Properties.getElem?_tiles`).
-/

namespace Overlay

/-! ### Lists of rows -/

theorem getElem?_flatMap_of_length {β γ : Type} {f : β → List γ} {n : ℕ}
    (hf : ∀ b, (f b).length = n) (bs : List β) (k : ℕ) {i : ℕ} (hi : i < n) :
    (bs.flatMap f)[k * n + i]? = bs[k]?.bind fun b => (f b)[i]? := by
  induction bs generalizing k with
  | nil => rfl
  | cons b bs ih =>
    rw [List.flatMap_cons]
    cases k with
    | zero =>
      rw [Nat.zero_mul, Nat.zero_add, List.getElem?_append_left (by rwa [hf])]
      rfl
    | succ k =>
      have hindex : (k + 1) * n + i = (f b).length + (k * n + i) := by
        rw [hf, Nat.succ_mul]
        omega
      rw [hindex, List.getElem?_append_right (Nat.le_add_right _ _), Nat.add_sub_cancel_left, ih]
      rfl

/-- Every index of a grid belongs to a row and a column. -/
theorem exists_row_column {columns rows i : ℕ} (h : i < columns * rows) :
    ∃ row column, i = row * columns + column ∧ row < rows ∧ column < columns := by
  have hpos : 0 < columns := Nat.pos_of_ne_zero fun h0 => by simp [h0] at h
  refine ⟨i / columns, i % columns, ?_, Nat.div_lt_of_lt_mul h, Nat.mod_lt _ hpos⟩
  rw [Nat.mul_comm, Nat.div_add_mod]

/-! ### Corners -/

theorem length_gridCorners {α : Type} [Scalar α] (columns rows : ℕ) (columnStep rowStep start : Vec α) :
    (gridCorners columns rows columnStep rowStep start).length = columns * rows := by
  simp [gridCorners_eq, List.length_flatMap, length_stepped, Nat.mul_comm]

section Exact

variable {r : Reading}

theorem getElem?_stepped (step corner : Vec (Exact r)) {n i : ℕ} (h : i < n) :
    (stepped step n corner)[i]? = some (corner + i • step) := by
  induction n generalizing corner i with
  | zero => cases h
  | succ n ih =>
    rw [stepped_succ]
    cases i with
    | zero => simp
    | succ i =>
      rw [List.getElem?_cons_succ, ih _ (Nat.lt_of_succ_lt_succ h), succ_nsmul', add_assoc]

theorem getElem?_gridCorners {columns rows row column : ℕ} (columnStep rowStep start : Vec (Exact r))
    (hr : row < rows) (hc : column < columns) :
    (gridCorners columns rows columnStep rowStep start)[row * columns + column]? =
      some (start + row • rowStep + column • columnStep) := by
  rw [gridCorners_eq, getElem?_flatMap_of_length (fun _ => length_stepped _ _ _) _ _ hc,
    getElem?_stepped _ _ hr, Option.bind_some, getElem?_stepped _ _ hc]

namespace Properties

variable (p : Properties (Exact r))

/-- Where the cell in a row and a column stands. -/
def cellCorner (row column : ℕ) : Vec (Exact r) :=
  ⟨p.gridStart.x + column * p.pitch.x + row * p.interval.shift.x,
    p.gridStart.y + row * p.pitch.y + column * p.interval.shift.y⟩

theorem length_tiles : p.tiles.length = p.cellCount.x.toNat * p.cellCount.y.toNat := by
  rw [tiles, List.length_map, length_gridCorners]

theorem cellCorner_eq (row column : ℕ) :
    p.cellCorner row column =
      p.gridStart + row • ⟨(p.interval.shift.x : Exact r), p.pitch.y⟩ +
        column • ⟨p.pitch.x, (p.interval.shift.y : Exact r)⟩ := by
  ext
  · simp only [cellCorner, Vec.add_x, Vec.nsmul_x, nsmul_eq_mul]
    ring
  · simp only [cellCorner, Vec.add_y, Vec.nsmul_y, nsmul_eq_mul]

/-- The tile in a row and a column. -/
theorem getElem?_tiles {row column : ℕ} (hr : row < p.cellCount.y.toNat)
    (hc : column < p.cellCount.x.toNat) :
    p.tiles[row * p.cellCount.x.toNat + column]? =
      some ⟨(p.cellCorner row column).x, (p.cellCorner row column).y, p.size.x, p.size.y⟩ := by
  rw [tiles, List.getElem?_map, getElem?_gridCorners _ _ _ hr hc, cellCorner_eq]
  rfl

theorem mem_tiles_iff (tile : Rect (Exact r)) :
    tile ∈ p.tiles ↔ ∃ row column, row < p.cellCount.y.toNat ∧ column < p.cellCount.x.toNat ∧
      tile = ⟨(p.cellCorner row column).x, (p.cellCorner row column).y, p.size.x, p.size.y⟩ := by
  constructor
  · intro hmem
    obtain ⟨i, hi⟩ := List.mem_iff_getElem?.1 hmem
    have hlength : i < p.tiles.length := (List.getElem?_eq_some_iff.1 hi).1
    rw [length_tiles] at hlength
    obtain ⟨row, column, rfl, hr, hc⟩ := exists_row_column hlength
    exact ⟨row, column, hr, hc, Option.some.inj (hi.symm.trans (p.getElem?_tiles hr hc))⟩
  · rintro ⟨row, column, hr, hc, rfl⟩
    exact List.mem_of_getElem? (p.getElem?_tiles hr hc)

end Properties

end Exact

end Overlay

import Overlay.Proofs.Tiling.Fill
import Overlay.Proofs.Picture.Constraints
import Overlay.Drawing

/-!
# Two descriptions of a grid

A drawing says twice where its cells are: as a list of tiles, and by the number of cells, the pitch and the
shift.  From the second description, the first corner and the size of a cell, the cells follow row by row
(`Drawing.cells`); over exact numbers they are the tiles, in the same order (`Properties.tiles_eq_cells`).
The first corner is the position, or where the position comes to lie when it is moved by whole cells to just
before the field (`IsWrapped`).
-/

namespace Overlay

variable {r : Reading}

/-! ### Cells from parameters -/

namespace Drawing

variable (d : Drawing (Exact r)) (first size : Vec (Exact r))

/-- The cell in a row and a column: the pitch goes along both axes, the shift across. -/
def cell (row column : ℕ) : Rect (Exact r) :=
  ⟨first.x + column * d.pitch.x + row * d.shift.x, first.y + row * d.pitch.y + column * d.shift.y,
    size.x, size.y⟩

/-- All cells, row by row. -/
def cells : List (Rect (Exact r)) :=
  (List.range d.count.y.toNat).flatMap fun row =>
    (List.range d.count.x.toNat).map fun column => d.cell first size row column

theorem length_cells : (d.cells first size).length = d.count.x.toNat * d.count.y.toNat := by
  simp [cells, List.length_flatMap, Nat.mul_comm]

theorem getElem?_cells {row column : ℕ} (hr : row < d.count.y.toNat) (hc : column < d.count.x.toNat) :
    (d.cells first size)[row * d.count.x.toNat + column]? = some (d.cell first size row column) := by
  rw [cells, getElem?_flatMap_of_length (fun _ => by simp) _ _ hc, List.getElem?_range hr,
    Option.bind_some, List.getElem?_map, List.getElem?_range hc, Option.map_some]

end Drawing

/-! ### The first corner -/

/-- Moved by whole multiples of the pitch, the position starts less than one pitch before zero.  With no
positive pitch it stays where it is. -/
structure IsWrapped (pos pitch start : Exact r) : Prop where
  before_zero : 0 < pitch → -pitch ≤ start ∧ start < 0
  whole_pitches : 0 < pitch → start ≡ pos [PMOD pitch]
  unmoved : pitch ≤ 0 → start = pos

theorem isWrapped_fillStart (pos pitch : Exact r) : IsWrapped pos pitch (fillStart pos pitch) where
  before_zero hp := fillStart_mem hp pos
  whole_pitches hp := by
    have hpitch : pitch + pos ≡ pos [PMOD pitch] :=
      AddCommGroup.add_modEq_right.2 AddCommGroup.self_modEq_zero
    rw [fillStart_eq hp, AddCommGroup.sub_modEq_iff_modEq_add, add_comm pos]
    exact (Exact.wrap_modEq pos hp).trans hpitch.symm
  unmoved hp := by
    have hunusable : isUsablePitch pitch = false := by simp [isUsablePitch, hp]
    simp [fillStart, hunusable]

namespace Properties

variable {p : Properties (Exact r)}

/-! ### The number of cells -/

/-- However narrow its cells are, a picture that fills the field has some. -/
theorem one_le_fillCount (field : ℕ) (pitch : Exact r) : 1 ≤ fillCount field pitch := by
  unfold fillCount
  split
  · have hceil : 0 ≤ ⌈(field : Exact r) / (if pitch < 1 then 1 else pitch)⌉ := by
      refine (ceil_div_mem ?_ field).1
      split
      · exact le_rfl
      · next h => exact not_lt.1 h
    simp only [Exact.ofInt_eq, Int.cast_natCast, Int.cast_one, Exact.ceil_eq, clampWhole, minWhole,
      maxWhole]
    omega
  · exact le_rfl

theorem cellCount_nonneg (h : 0 ≤ p.repetition.count.x ∧ 0 ≤ p.repetition.count.y) :
    0 ≤ p.cellCount.x ∧ 0 ≤ p.cellCount.y := by
  unfold cellCount
  split
  · exact ⟨zero_le_one.trans (one_le_fillCount _ _), zero_le_one.trans (one_le_fillCount _ _)⟩
  · exact h

theorem length_tiles_of_count_nonneg (h : 0 ≤ p.repetition.count.x ∧ 0 ≤ p.repetition.count.y) :
    (p.tiles.length : ℤ) = p.cellCount.x * p.cellCount.y := by
  obtain ⟨hx, hy⟩ := cellCount_nonneg h
  rw [length_tiles, Nat.cast_mul, Int.toNat_of_nonneg hx, Int.toNat_of_nonneg hy]

/-! ### Tiles and cells -/

theorem cellCorner_eq_cell (p : Properties (Exact r)) (crop : Vec Int) (row column : ℕ) :
    ⟨(p.cellCorner row column).x, (p.cellCorner row column).y, p.size.x, p.size.y⟩ =
      (p.draw crop).cell p.gridStart p.size row column := rfl

theorem tiles_eq_cells (p : Properties (Exact r)) (crop : Vec Int) :
    p.tiles = (p.draw crop).cells p.gridStart p.size := by
  apply List.ext_getElem?
  intro i
  by_cases hi : i < p.tiles.length
  · rw [length_tiles] at hi
    obtain ⟨row, column, rfl, hr, hc⟩ := exists_row_column hi
    rw [p.getElem?_tiles hr hc, cellCorner_eq_cell p crop]
    exact ((p.draw crop).getElem?_cells p.gridStart p.size hr hc).symm
  · have hcells : ((p.draw crop).cells p.gridStart p.size).length = p.tiles.length := by
      rw [Drawing.length_cells, length_tiles]
      rfl
    rw [List.getElem?_eq_none (Nat.le_of_not_lt hi),
      List.getElem?_eq_none (hcells ▸ Nat.le_of_not_lt hi)]

theorem gridStart_of_counted (h : p.repetition.fill = false) : p.gridStart = p.pos.current := by
  simp [gridStart, h]

/-- Take any property set, over exact numbers, whether it fills the field or not, with any shift and at any
position.  The tiles of its drawing are the cells that the number of cells, the pitch and the shift of the
drawing describe, from the first corner on; the tile in a row and a column has its place in the list.  The
first corner is the position, or in a picture that fills the field the wrapped position.  There are as many
tiles as rows times columns, as no number of cells that can come about is negative. -/
theorem tiles_follow_parameters (p : Properties (Exact r)) (crop : Vec Int) :
    (p.draw crop).tiles = (p.draw crop).cells p.gridStart p.size ∧
    (∀ row column : ℕ, row < (p.draw crop).count.y → column < (p.draw crop).count.x →
      (p.draw crop).tiles[row * (p.draw crop).count.x.toNat + column]? =
        some ((p.draw crop).cell p.gridStart p.size row column)) ∧
    (p.repetition.fill = false → p.gridStart = p.pos.current) ∧
    (p.repetition.fill = true →
      IsWrapped p.pos.current.x (p.draw crop).pitch.x p.gridStart.x ∧
      IsWrapped p.pos.current.y (p.draw crop).pitch.y p.gridStart.y) ∧
    (0 ≤ p.repetition.count.x ∧ 0 ≤ p.repetition.count.y →
      ((p.draw crop).tiles.length : ℤ) = (p.draw crop).count.x * (p.draw crop).count.y) ∧
    ∀ q : Picture (Exact r), q.Reachable → q.properties = p →
      0 ≤ p.repetition.count.x ∧ 0 ≤ p.repetition.count.y := by
  have hcells : (p.draw crop).tiles = (p.draw crop).cells p.gridStart p.size := tiles_eq_cells p crop
  refine ⟨hcells, fun row column hr hc => ?_, gridStart_of_counted, fun hfill => ?_,
    length_tiles_of_count_nonneg, ?_⟩
  · rw [hcells]
    apply Drawing.getElem?_cells
    · omega
    · omega
  · rw [gridStart_of_fill hfill]
    exact ⟨isWrapped_fillStart _ _, isWrapped_fillStart _ _⟩
  · rintro q hq rfl
    exact hq.sound.count

/-- A staggered picture that fills the field from a position left of it: the tile in row 2 and column 3. -/
theorem tile_of_staggered_fill :
    ∃ q : Picture (Exact .unturned),
      q = (Picture.initial {} {}).after [.line "fill=1", .line "interval=2,5,3,-7", .line "pos=-7,93"] ∧
      q.properties.tiles.length = 132 ∧
      q.properties.tiles[2 * 12 + 3]? = some ⟨125, 27, 40, 40⟩ ∧
      IsWrapped (-7) 42 q.properties.gridStart.x := by
  obtain ⟨q, hq⟩ : ∃ q : Picture (Exact .unturned),
      q = (Picture.initial {} {}).after [.line "fill=1", .line "interval=2,5,3,-7", .line "pos=-7,93"] :=
    ⟨_, rfl⟩
  have hreach : q.Reachable := hq ▸ (Picture.Reachable.initial {} {}).after _
  have hvalues : q.properties.repetition.fill = true ∧ q.properties.pos.current.x = -7 ∧
      (q.properties.draw ⟨0, 0⟩).pitch.x = 42 ∧ (q.properties.draw ⟨0, 0⟩).count = ⟨12, 11⟩ ∧
      (q.properties.draw ⟨0, 0⟩).cell q.properties.gridStart q.properties.size 2 3 =
        ⟨125, 27, 40, 40⟩ := by
    rw [hq]
    decide +kernel
  obtain ⟨hfill, hpos, hpitch, hcount, hcell⟩ := hvalues
  obtain ⟨-, htile, -, hwrapped, hlength, hcounts⟩ := tiles_follow_parameters q.properties ⟨0, 0⟩
  have hplace := htile 2 3 (by rw [hcount]; decide) (by rw [hcount]; decide)
  have hproduct := hlength (hcounts q hreach rfl)
  rw [hcount] at hplace hproduct
  refine ⟨q, hq, Int.ofNat_inj.1 hproduct, hplace.trans (congrArg some hcell), ?_⟩
  have hx := (hwrapped hfill).1
  rwa [hpos, hpitch] at hx

end Properties

end Overlay

import Overlay.Proofs.Tiling.Fill

/-!
# Staggered grids that fill the field

A picture that fills the field has as many cells on each axis as fill it without stagger.  When rows or
columns are staggered, whether they still do depends on the position.

A stagger to the right or downwards always leaves the first corner of the field free at some position
(`exists_corner_free`).  A stagger to the left and upwards may use up what the last cells reach beyond the
field, and no more (`fits_of_covers`); within that limit it fills the field at every position
(`covers_of_fits`).  Together: `covers_everywhere_iff`.
-/

namespace Overlay

variable {r : Reading}

/-! ### One axis -/

section Axis

variable {pitch : Exact r} {field : ℕ}

theorem fillStart_of_mem {pos : Exact r} (h₀ : 0 ≤ pos) (h₁ : pos < pitch) :
    fillStart pos pitch = pos - pitch := by
  have hp : 0 < pitch := h₀.trans_lt h₁
  rw [fillStart_eq hp, Exact.wrap_eq_toIcoMod _ hp, (toIcoMod_eq_self hp).2]
  exact ⟨h₀, by rwa [zero_add]⟩

theorem fillStart_zero (hp : 0 < pitch) : fillStart 0 pitch = -pitch := by
  rw [fillStart_of_mem le_rfl hp, zero_sub]

theorem fillStart_half_before (hp : 1 ≤ pitch) : fillStart (pitch - 1 / 2) pitch = -(1 / 2) := by
  rw [fillStart_of_mem (by linarith) (by linarith)]
  ring

/-- The last cell that is needed begins in the field. -/
theorem mem_last_cell (hp : 0 < pitch) (hf : 0 < field) :
    0 ≤ (⌈(field : Exact r) / pitch⌉ - 1) * pitch ∧
      (⌈(field : Exact r) / pitch⌉ - 1) * pitch < field := by
  have hfield : (0 : Exact r) < field := Nat.cast_pos.2 hf
  have hceil : 1 ≤ ⌈(field : Exact r) / pitch⌉ := Int.one_le_ceil_iff.2 (div_pos hfield hp)
  constructor
  · refine mul_nonneg (sub_nonneg.2 ?_) hp.le
    exact_mod_cast hceil
  · rw [← lt_div_iff₀ hp, sub_lt_iff_lt_add]
    exact Int.ceil_lt_add_one _

/-- Where cells begin shortly before the edge of the field and later ones are staggered away from it, only
the first cell reaches the edge, and on the other axis it is over there. -/
theorem not_near_edge {a b : ℕ} {ε shift pitch' shift' : Exact r} (hε : 0 < ε) (hp : ε < pitch)
    (hs : ε < shift) :
    ¬ (-ε + a * pitch + b * shift ≤ 0 ∧ 0 < -pitch' + b * pitch' + a * shift' + pitch') := by
  rintro ⟨hback, hend⟩
  have ha : 0 ≤ (a : Exact r) * pitch := mul_nonneg a.cast_nonneg (by linarith)
  obtain rfl : b = 0 := by
    by_contra hb
    have hshift : shift ≤ b * shift :=
      le_mul_of_one_le_left (by linarith) (Nat.one_le_cast.2 (Nat.one_le_iff_ne_zero.2 hb))
    linarith
  simp only [Nat.cast_zero, zero_mul, add_zero] at hback hend
  obtain rfl : a = 0 := by
    by_contra ha
    have hpitch : pitch ≤ a * pitch :=
      le_mul_of_one_le_left (by linarith) (Nat.one_le_cast.2 (Nat.one_le_iff_ne_zero.2 ha))
    linarith
  simp at hend

/-- A cell that reaches beyond all but the last on one axis is the last one there, so on the other axis it
reaches no further than the stagger of all cells before it allows. -/
theorem lt_of_far {a b : ℕ} {m n : ℤ} {x y shift pitch' shift' : Exact r} (hp : 0 < pitch)
    (hp' : 0 < pitch') (hs' : shift' ≤ 0) (ha : (a : ℤ) ≤ m) (hb : (b : ℤ) ≤ n)
    (hx : x < -pitch + a * pitch + b * shift + pitch)
    (hy : y < -pitch' + b * pitch' + a * shift' + pitch') (hfar : (n - 1) * pitch' ≤ y) :
    x < m * pitch + n * shift := by
  have ha' : (a : Exact r) ≤ m := by exact_mod_cast ha
  have hback : (a : Exact r) * shift' ≤ 0 := mul_nonpos_of_nonneg_of_nonpos a.cast_nonneg hs'
  have hlast : (n - 1 : Exact r) < b := by
    refine lt_of_mul_lt_mul_right ?_ hp'.le
    linarith
  obtain rfl : (b : ℤ) = n := by
    have : n - 1 < b := by exact_mod_cast hlast
    omega
  have hreach : (a : Exact r) * pitch ≤ m * pitch := mul_le_mul_of_nonneg_right ha' hp.le
  push_cast
  linarith

end Axis

/-! ### Finding the cell of a point -/

section Cell

variable {start pitch shift : Vec (Exact r)} {v : Vec (Exact r)} {row m n : ℕ}

/-- The column in which a row has a point, as far as the horizontal axis goes. -/
def columnAt (start pitch shift : Vec (Exact r)) (x : Exact r) (row : ℕ) : ℕ :=
  ⌊(x - (start.x + row * shift.x)) / pitch.x⌋₊

/-- Where the cell in this column stands on the vertical axis. -/
def topAt (start pitch shift : Vec (Exact r)) (x : Exact r) (row : ℕ) : Exact r :=
  start.y + row * pitch.y + columnAt start pitch shift x row * shift.y

theorem rowStart_le (hstart : start.x ≤ 0) (hs : shift.x ≤ 0) (hv : 0 ≤ v.x) (row : ℕ) :
    start.x + row * shift.x ≤ v.x := by
  have hback : (row : Exact r) * shift.x ≤ 0 := mul_nonpos_of_nonneg_of_nonpos row.cast_nonneg hs
  linarith

theorem columnAt_le (hp : 0 < pitch.x) (hstart : -pitch.x ≤ start.x ∧ start.x ≤ 0) (hs : shift.x ≤ 0)
    (hv : 0 ≤ v.x) (hvm : v.x < m * pitch.x + n * shift.x) (hrow : row ≤ n) :
    columnAt start pitch shift v.x row ≤ m := by
  have hback : (n : Exact r) * shift.x ≤ row * shift.x :=
    mul_le_mul_of_nonpos_right (Nat.cast_le.2 hrow) hs
  have hle := rowStart_le hstart.2 hs hv row
  rw [columnAt, ← Nat.lt_succ_iff, Nat.floor_lt (div_nonneg (sub_nonneg.2 hle) hp.le), div_lt_iff₀ hp]
  push_cast
  linarith

/-- Rows that are staggered back have a point in later columns. -/
theorem columnAt_le_succ (hp : 0 < pitch.x) (hs : shift.x ≤ 0) (x : Exact r) (row : ℕ) :
    columnAt start pitch shift x row ≤ columnAt start pitch shift x (row + 1) := by
  refine Nat.floor_mono (div_le_div_of_nonneg_right ?_ hp.le)
  push_cast
  linarith

/-- From row to row the cells above a point do not step down by more than a cell. -/
theorem topAt_succ_le (hp : 0 < pitch.x) (hs : shift.x ≤ 0) (hs' : shift.y ≤ 0) (x : Exact r) (row : ℕ) :
    topAt start pitch shift x (row + 1) ≤ topAt start pitch shift x row + pitch.y := by
  have hcolumn : (columnAt start pitch shift x row : Exact r) ≤
      columnAt start pitch shift x (row + 1) := Nat.cast_le.2 (columnAt_le_succ hp hs x row)
  have hback := mul_le_mul_of_nonpos_right hcolumn hs'
  rw [topAt, topAt]
  push_cast
  linarith

/-- The last row that is needed reaches below the point. -/
theorem lt_topAt_last (hstart : -pitch.y ≤ start.y) (hs' : shift.y ≤ 0)
    (hcolumn : columnAt start pitch shift v.x n ≤ m) (hvn : v.y < n * pitch.y + m * shift.y) :
    v.y < topAt start pitch shift v.x n + pitch.y := by
  have hback := mul_le_mul_of_nonpos_right (Nat.cast_le (α := Exact r).2 hcolumn) hs'
  rw [topAt]
  linarith

/-- The last of some rows that begins above a point. -/
theorem exists_last_le {f : ℕ → Exact r} {y : Exact r} (h : f 0 ≤ y) :
    ∃ i ≤ n, f i ≤ y ∧ (i < n → y < f (i + 1)) := by
  classical
  refine ⟨Nat.findGreatest (fun i => f i ≤ y) n, Nat.findGreatest_le n,
    Nat.findGreatest_spec (P := fun i => f i ≤ y) (Nat.zero_le n) h, fun hlt => not_le.1 ?_⟩
  exact Nat.findGreatest_is_greatest (Nat.lt_succ_self _) hlt

/-- A point that is within the limits is in the cell of some row and column. -/
theorem exists_cell (shift : Vec (Exact r)) (hpx : 0 < pitch.x) (hsx : shift.x ≤ 0)
    (hsy : shift.y ≤ 0) (hstartx : -pitch.x ≤ start.x ∧ start.x ≤ 0)
    (hstarty : -pitch.y ≤ start.y ∧ start.y ≤ 0) (hvx : 0 ≤ v.x) (hvy : 0 ≤ v.y)
    (hvm : v.x < m * pitch.x + n * shift.x) (hvn : v.y < n * pitch.y + m * shift.y) :
    ∃ row column : ℕ, row ≤ n ∧ column ≤ m ∧
      (start.x + column * pitch.x + row * shift.x ≤ v.x ∧
        v.x < start.x + column * pitch.x + row * shift.x + pitch.x) ∧
      start.y + row * pitch.y + column * shift.y ≤ v.y ∧
        v.y < start.y + row * pitch.y + column * shift.y + pitch.y := by
  have hfirst : topAt start pitch shift v.x 0 ≤ v.y := by
    have hback : (columnAt start pitch shift v.x 0 : Exact r) * shift.y ≤ 0 :=
      mul_nonpos_of_nonneg_of_nonpos (Nat.cast_nonneg _) hsy
    rw [topAt, Nat.cast_zero]
    linarith
  obtain ⟨row, hle, htop, hnext⟩ := exists_last_le (n := n) hfirst
  have hbottom : v.y < topAt start pitch shift v.x row + pitch.y := by
    rcases hle.lt_or_eq with hlt | rfl
    · exact (hnext hlt).trans_le (topAt_succ_le hpx hsx hsy v.x row)
    · exact lt_topAt_last hstarty.1 hsy (columnAt_le hpx hstartx hsx hvx hvm le_rfl) hvn
  have hcolumn := (mem_cell_iff hpx (rowStart_le hstartx.2 hsx hvx row) _).2 rfl
  refine ⟨row, columnAt start pitch shift v.x row, hle, columnAt_le hpx hstartx hsx hvx hvm hle,
    ⟨?_, ?_⟩, htop, hbottom⟩
  · rw [add_right_comm]
    exact hcolumn.1
  · rw [add_right_comm start.x]
    exact hcolumn.2

end Cell

/-! ### Both axes -/

namespace Properties

variable {p : Properties (Exact r)}

/-- The point lies in the field. -/
def InField (p : Properties (Exact r)) (v : Vec (Exact r)) : Prop :=
  (0 ≤ v.x ∧ v.x < p.config.fieldWidth) ∧ 0 ≤ v.y ∧ v.y < p.config.fieldHeight

/-- Some tile has the point in its cell. -/
def Reaches (p : Properties (Exact r)) (v : Vec (Exact r)) : Prop := ∃ tile ∈ p.tiles, p.InCell tile v

/-- Every point of the field is in the cell of a tile. -/
def Covers (p : Properties (Exact r)) : Prop := ∀ v, p.InField v → p.Reaches v

/-- The point lies in the cell in a row and a column. -/
def InCellAt (p : Properties (Exact r)) (row column : ℕ) (v : Vec (Exact r)) : Prop :=
  ((p.cellCorner row column).x ≤ v.x ∧ v.x < (p.cellCorner row column).x + p.pitch.x) ∧
    (p.cellCorner row column).y ≤ v.y ∧ v.y < (p.cellCorner row column).y + p.pitch.y

theorem reaches_iff (v : Vec (Exact r)) :
    p.Reaches v ↔ ∃ row column, row < p.cellCount.y.toNat ∧ column < p.cellCount.x.toNat ∧
      p.InCellAt row column v := by
  constructor
  · rintro ⟨tile, hmem, hcell⟩
    obtain ⟨row, column, hr, hc, rfl⟩ := (p.mem_tiles_iff tile).1 hmem
    exact ⟨row, column, hr, hc, hcell⟩
  · rintro ⟨row, column, hr, hc, hcell⟩
    exact ⟨_, (p.mem_tiles_iff _).2 ⟨row, column, hr, hc, rfl⟩, hcell⟩

/-- The columns and rows of a grid that fills the field, one more than are needed. -/
theorem toNat_cellCount_of_fill (hfill : p.repetition.fill = true) (hx : 1 ≤ p.pitch.x)
    (hy : 1 ≤ p.pitch.y) (hw : p.config.fieldWidth < 2147483647)
    (hh : p.config.fieldHeight < 2147483647) :
    (p.cellCount.x.toNat : ℤ) = ⌈(p.config.fieldWidth : Exact r) / p.pitch.x⌉ + 1 ∧
      (p.cellCount.y.toNat : ℤ) = ⌈(p.config.fieldHeight : Exact r) / p.pitch.y⌉ + 1 := by
  rw [cellCount_of_fill hfill]
  exact ⟨toNat_fillCount hx hw, toNat_fillCount hy hh⟩

theorem cellCorner_jump (hfill : p.repetition.fill = true) (v : Vec (Exact r)) (row column : ℕ) :
    (p.jump v).cellCorner row column =
      ⟨fillStart v.x p.pitch.x + column * p.pitch.x + row * p.interval.shift.x,
        fillStart v.y p.pitch.y + row * p.pitch.y + column * p.interval.shift.y⟩ := by
  rw [cellCorner, gridStart_of_fill (p := p.jump v) hfill]
  rfl

/-! ### Gaps -/

/-- A stagger to the right or downwards leaves the first corner of the field free at some position. -/
theorem exists_corner_free (hfill : p.repetition.fill = true) (hx : 1 ≤ p.pitch.x)
    (hy : 1 ≤ p.pitch.y) (hs : 0 < p.interval.shift.x ∨ 0 < p.interval.shift.y) :
    ∃ v, ¬ (p.jump v).Reaches ⟨0, 0⟩ := by
  have hxpos : 0 < p.pitch.x := by linarith
  have hypos : 0 < p.pitch.y := by linarith
  -- half a pixel before the edge on the axis of the stagger, a whole cell before it on the other
  have hhalf : (0 : Exact r) < 1 / 2 ∧ (1 / 2 : Exact r) < 1 := by norm_num
  rcases hs with hs | hs
  · have hstep : (1 : Exact r) ≤ p.interval.shift.x := by exact_mod_cast hs
    refine ⟨⟨p.pitch.x - 1 / 2, 0⟩, fun h => ?_⟩
    obtain ⟨row, column, -, -, hcell⟩ := (reaches_iff _).1 h
    rw [InCellAt, cellCorner_jump hfill, fillStart_half_before hx, fillStart_zero hypos] at hcell
    exact not_near_edge hhalf.1 (by linarith) (by linarith) ⟨hcell.1.1, hcell.2.2⟩
  · have hstep : (1 : Exact r) ≤ p.interval.shift.y := by exact_mod_cast hs
    refine ⟨⟨0, p.pitch.y - 1 / 2⟩, fun h => ?_⟩
    obtain ⟨row, column, -, -, hcell⟩ := (reaches_iff _).1 h
    rw [InCellAt, cellCorner_jump hfill, fillStart_half_before hy, fillStart_zero hxpos] at hcell
    exact not_near_edge hhalf.1 (by linarith) (by linarith) ⟨hcell.2.1, hcell.1.2⟩

/-- The stagger stays within what the last cells reach beyond the field. -/
structure Fits (p : Properties (Exact r)) : Prop where
  left : p.interval.shift.x ≤ 0
  up : p.interval.shift.y ≤ 0
  width : (p.config.fieldWidth : Exact r) ≤ ⌈(p.config.fieldWidth : Exact r) / p.pitch.x⌉ * p.pitch.x +
    ⌈(p.config.fieldHeight : Exact r) / p.pitch.y⌉ * p.interval.shift.x
  height : (p.config.fieldHeight : Exact r) ≤
    ⌈(p.config.fieldHeight : Exact r) / p.pitch.y⌉ * p.pitch.y +
      ⌈(p.config.fieldWidth : Exact r) / p.pitch.x⌉ * p.interval.shift.y

section Fill

variable (hfill : p.repetition.fill = true) (hx : 1 ≤ p.pitch.x) (hy : 1 ≤ p.pitch.y)
  (hw : p.config.fieldWidth < 2147483647) (hh : p.config.fieldHeight < 2147483647)

include hfill hx hy hw hh

/-- A point that is reached from the position zero is in a cell that begins a whole cell before the
field. -/
theorem exists_cell_of_reaches {v : Vec (Exact r)} (h : (p.jump ⟨0, 0⟩).Reaches v) :
    ∃ row column : ℕ, (row : ℤ) ≤ ⌈(p.config.fieldHeight : Exact r) / p.pitch.y⌉ ∧
      (column : ℤ) ≤ ⌈(p.config.fieldWidth : Exact r) / p.pitch.x⌉ ∧
      v.x < -p.pitch.x + column * p.pitch.x + row * p.interval.shift.x + p.pitch.x ∧
      v.y < -p.pitch.y + row * p.pitch.y + column * p.interval.shift.y + p.pitch.y := by
  obtain ⟨hcolumns, hrows⟩ := toNat_cellCount_of_fill hfill hx hy hw hh
  obtain ⟨row, column, hr, hc, hcell⟩ := (reaches_iff _).1 h
  rw [InCellAt, cellCorner_jump hfill, fillStart_zero (by linarith), fillStart_zero (by linarith)] at hcell
  have hr' : row < p.cellCount.y.toNat := hr
  have hc' : column < p.cellCount.x.toNat := hc
  exact ⟨row, column, by omega, by omega, hcell.1.2, hcell.2.2⟩

/-- A grid that fills the field at every position is staggered within the limits. -/
theorem fits_of_covers (hw₀ : 0 < p.config.fieldWidth) (hh₀ : 0 < p.config.fieldHeight)
    (h : ∀ v, (p.jump v).Covers) : p.Fits := by
  have hxpos : 0 < p.pitch.x := by linarith
  have hypos : 0 < p.pitch.y := by linarith
  have hw' : (0 : Exact r) < p.config.fieldWidth := Nat.cast_pos.2 hw₀
  have hh' : (0 : Exact r) < p.config.fieldHeight := Nat.cast_pos.2 hh₀
  have hcorner : p.InField ⟨0, 0⟩ := ⟨⟨le_rfl, hw'⟩, le_rfl, hh'⟩
  have hshift : ¬ (0 < p.interval.shift.x ∨ 0 < p.interval.shift.y) := by
    intro hs
    obtain ⟨v, hv⟩ := exists_corner_free hfill hx hy hs
    exact hv (h v _ hcorner)
  obtain ⟨hleft, hup⟩ := not_or.1 hshift
  have hleft' : (p.interval.shift.x : Exact r) ≤ 0 := by exact_mod_cast not_lt.1 hleft
  have hup' : (p.interval.shift.y : Exact r) ≤ 0 := by exact_mod_cast not_lt.1 hup
  refine ⟨not_lt.1 hleft, not_lt.1 hup, ?_, ?_⟩
  · by_contra hlt
    -- a point in the last row that is needed, right of all its cells
    obtain ⟨hlast, hlast'⟩ := mem_last_cell hypos hh₀
    obtain ⟨row, column, hr, hc, hx', hy'⟩ := exists_cell_of_reaches hfill hx hy hw hh
      (h ⟨0, 0⟩ ⟨max 0 (_ + _), _⟩ ⟨⟨le_max_left _ _, max_lt hw' (not_le.1 hlt)⟩, hlast, hlast'⟩)
    have hfar := lt_of_far hxpos hypos hup' hc hr hx' hy' le_rfl
    exact absurd hfar (not_lt.2 (le_max_right _ _))
  · by_contra hlt
    obtain ⟨hlast, hlast'⟩ := mem_last_cell hxpos hw₀
    obtain ⟨row, column, hr, hc, hx', hy'⟩ := exists_cell_of_reaches hfill hx hy hw hh
      (h ⟨0, 0⟩ ⟨_, max 0 (_ + _)⟩ ⟨⟨hlast, hlast'⟩, le_max_left _ _, max_lt hh' (not_le.1 hlt)⟩)
    have hfar := lt_of_far hypos hxpos hleft' hr hc hy' hx' le_rfl
    exact absurd hfar (not_lt.2 (le_max_right _ _))

/-- Within the limits the grid fills the field, wherever the picture is. -/
theorem covers_of_fits (h : p.Fits) : p.Covers := by
  intro w hv
  have hxpos : 0 < p.pitch.x := by linarith
  have hypos : 0 < p.pitch.y := by linarith
  obtain ⟨hcolumns, hrows⟩ := toNat_cellCount_of_fill hfill hx hy hw hh
  obtain ⟨m, hm⟩ := Int.eq_ofNat_of_zero_le (ceil_div_mem hx p.config.fieldWidth).1
  obtain ⟨n, hn⟩ := Int.eq_ofNat_of_zero_le (ceil_div_mem hy p.config.fieldHeight).1
  obtain ⟨hleft, hup, hwidth, hheight⟩ := h
  rw [hm, hn, Int.cast_natCast, Int.cast_natCast] at hwidth hheight
  rw [hm] at hcolumns
  rw [hn] at hrows
  have hstart := gridStart_of_fill hfill
  have hstartx : -p.pitch.x ≤ p.gridStart.x ∧ p.gridStart.x ≤ 0 := by
    obtain ⟨hback, hfront⟩ := fillStart_mem hxpos p.pos.current.x
    rw [hstart]
    exact ⟨hback, hfront.le⟩
  have hstarty : -p.pitch.y ≤ p.gridStart.y ∧ p.gridStart.y ≤ 0 := by
    obtain ⟨hback, hfront⟩ := fillStart_mem hypos p.pos.current.y
    rw [hstart]
    exact ⟨hback, hfront.le⟩
  have hsx : (p.interval.shift.x : Exact r) ≤ 0 := by exact_mod_cast hleft
  have hsy : (p.interval.shift.y : Exact r) ≤ 0 := by exact_mod_cast hup
  obtain ⟨row, column, hr, hc, hcellx, hcelly⟩ :=
    exists_cell ⟨p.interval.shift.x, p.interval.shift.y⟩ hxpos hsx hsy hstartx hstarty
      hv.1.1 hv.2.1 (hv.1.2.trans_le hwidth) (hv.2.2.trans_le hheight)
  exact (reaches_iff w).2 ⟨row, column, by omega, by omega, hcellx, hcelly⟩

end Fill

/-- Take a property set that fills the field, over exact numbers, with cells at least a pixel apart and a
field of some size.  Its tiles leave no gap in the field at any position if and only if its rows and columns
are not staggered to the right or downwards, and the stagger of all rows that are needed, and that of all
columns, stays within what the unstaggered cells reach beyond the field. -/
theorem covers_everywhere_iff (hfill : p.repetition.fill = true) (hx : 1 ≤ p.pitch.x)
    (hy : 1 ≤ p.pitch.y) (hw : 0 < p.config.fieldWidth ∧ p.config.fieldWidth < 2147483647)
    (hh : 0 < p.config.fieldHeight ∧ p.config.fieldHeight < 2147483647) :
    (∀ v, (p.jump v).Covers) ↔ p.Fits := by
  constructor
  · intro h
    exact fits_of_covers hfill hx hy hw.2 hh.2 hw.1 hh.1 h
  · intro h v
    have hv : (p.jump v).Fits := ⟨h.left, h.up, h.width, h.height⟩
    exact covers_of_fits (p := p.jump v) hfill hx hy hw.2 hh.2 hv

/-- In a field of 440 pixels, 11 cells of 42 pixels reach 22 pixels beyond it.  So a stagger of two pixels
to the left and upwards leaves no gap, and one of three pixels to the left leaves one. -/
theorem covers_with_stagger_of_two :
    ∃ p q : Properties (Exact .unturned),
      p = ((Picture.initial {} {}).after [.line "fill=1", .line "interval=2,2,-2,-2"]).properties ∧
      q = ((Picture.initial {} {}).after [.line "fill=1", .line "interval=2,2,-3,-2"]).properties ∧
      (∀ v, (p.jump v).Covers) ∧ ¬ ∀ v, (q.jump v).Covers := by
  obtain ⟨p, hp⟩ : ∃ p : Properties (Exact .unturned),
      p = ((Picture.initial {} {}).after [.line "fill=1", .line "interval=2,2,-2,-2"]).properties :=
    ⟨_, rfl⟩
  obtain ⟨q, hq⟩ : ∃ q : Properties (Exact .unturned),
      q = ((Picture.initial {} {}).after [.line "fill=1", .line "interval=2,2,-3,-2"]).properties :=
    ⟨_, rfl⟩
  have hgrid : p.repetition.fill = true ∧ 1 ≤ p.pitch.x ∧ 1 ≤ p.pitch.y ∧
      (0 < p.config.fieldWidth ∧ p.config.fieldWidth < 2147483647) ∧
      0 < p.config.fieldHeight ∧ p.config.fieldHeight < 2147483647 := by
    rw [hp]
    decide +kernel
  have hgrid' : q.repetition.fill = true ∧ 1 ≤ q.pitch.x ∧ 1 ≤ q.pitch.y ∧
      (0 < q.config.fieldWidth ∧ q.config.fieldWidth < 2147483647) ∧
      0 < q.config.fieldHeight ∧ q.config.fieldHeight < 2147483647 := by
    rw [hq]
    decide +kernel
  have hfits : p.Fits := by
    rw [hp]
    constructor <;> decide +kernel
  have hfits' : ¬ q.Fits := by
    intro h
    have hwidth := h.width
    rw [hq] at hwidth
    revert hwidth
    decide +kernel
  obtain ⟨hfill, hx, hy, hw, hh⟩ := hgrid
  obtain ⟨hfill', hx', hy', hw', hh'⟩ := hgrid'
  exact ⟨p, q, hp, hq, (covers_everywhere_iff hfill hx hy hw hh).2 hfits,
    fun h => hfits' ((covers_everywhere_iff hfill' hx' hy' hw' hh').1 h)⟩

/-- A background that scrolls by a pixel to the left and upwards and is staggered by a pixel to the right
and downwards, after its first step. -/
theorem gap_in_scrolling_background :
    ∃ p : Properties (Exact .unturned),
      p = ((Picture.initial {} {}).after [.line "size=40,40", .line "interval=2,2,1,1", .line "fill=1",
        .line "anim_straight=-1,-1", .start, .update 10]).properties ∧
      p.InField ⟨0, 84⟩ ∧ ¬ p.Reaches ⟨0, 84⟩ := by
  refine ⟨_, rfl, ?_⟩
  unfold InField Reaches InCell
  decide +kernel

end Properties

end Overlay

import Mathlib.Algebra.Order.ToIntervalMod
import Mathlib.Data.Rat.Floor
import Mathlib.Tactic.Abel
import Mathlib.Tactic.Linarith
import Mathlib.Tactic.Ring
import Overlay.Geometry

/-!
# Exact scalars

The engine read over the rational numbers, where every sum, product and quotient is the number it
should be.  The circular functions are no rational functions, so a reading is free to choose them;
nothing here depends on the choice.

Over exact numbers the representative of `x` in `[0, m)` is `toIcoMod` (`wrap_eq_toIcoMod`), and an
angle in degrees is congruent to what it was set to (`Angle.ofDegrees_modEq`).  Vectors of exact
numbers form an additive group, with the sums of the engine.
-/

namespace Overlay

/-- What reading the scalars as rational numbers leaves open: the circular functions, the length of
a degree, and how a number is written. -/
structure Reading where
  cos : ℚ → ℚ
  sin : ℚ → ℚ
  degree : ℚ
  text : ℚ → String

/-- The circular functions at the angle zero, which will do where nothing orbits. -/
def Reading.unturned : Reading where
  cos _ := 1
  sin _ := 0
  degree := 1 / 57
  text _ := ""

/-- The rational numbers as scalars. -/
def Exact (_ : Reading) : Type := ℚ

namespace Exact

variable {r : Reading}

instance : Field (Exact r) := inferInstanceAs (Field ℚ)

instance : LinearOrder (Exact r) := inferInstanceAs (LinearOrder ℚ)

instance : IsStrictOrderedRing (Exact r) := inferInstanceAs (IsStrictOrderedRing ℚ)

instance : FloorRing (Exact r) := inferInstanceAs (FloorRing ℚ)

/-- The integer next to a number on the side of zero. -/
def truncate (x : Exact r) : ℤ := if x < 0 then ⌈x⌉ else ⌊x⌋

instance : Scalar (Exact r) where
  toAdd := inferInstance
  toSub := inferInstance
  toMul := inferInstance
  toDiv := inferInstance
  toNeg := inferInstance
  toLT := inferInstance
  toLE := inferInstance
  decLt := inferInstance
  decLe := inferInstance
  ofInt n := n
  ofNumeral n := (if n.negative then -1 else 1) * n.digits * 10 ^ n.exponent
  isFinite _ := true
  trunc x := truncate x
  ceil x := ⌈x⌉
  rem x m := x - m * truncate (x / m)
  cos := r.cos
  sin := r.sin
  degree := r.degree
  text := r.text

@[simp] theorem ofInt_eq (n : ℤ) : (Scalar.ofInt n : Exact r) = n := rfl

@[simp] theorem isFinite_eq (x : Exact r) : Scalar.isFinite x = true := rfl

@[simp] theorem ceil_eq (x : Exact r) : Scalar.ceil x = ⌈x⌉ := rfl

/-! ### Remainders -/

theorem abs_sub_truncate_lt (x : Exact r) : |x - truncate x| < 1 := by
  rw [abs_lt]
  unfold truncate
  split
  · have := Int.ceil_lt_add_one x
    have := Int.le_ceil x
    constructor <;> linarith
  · have := Int.floor_le x
    have := Int.lt_floor_add_one x
    constructor <;> linarith

theorem rem_eq (x m : Exact r) : Scalar.rem x m = x - m * truncate (x / m) := rfl

/-- A remainder is smaller than what it was divided by. -/
theorem abs_rem_lt (x : Exact r) {m : Exact r} (hm : 0 < m) : |Scalar.rem x m| < m := by
  have e : Scalar.rem x m = m * (x / m - truncate (x / m)) := by
    rw [rem_eq, mul_sub, mul_div_cancel₀ x hm.ne']
  rw [e, abs_mul, abs_of_pos hm]
  exact mul_lt_of_lt_one_right hm (abs_sub_truncate_lt _)

theorem wrap_eq (x m : Exact r) :
    Scalar.wrap x m = if Scalar.rem x m < 0 then Scalar.rem x m + m else Scalar.rem x m := by
  simp [Scalar.wrap]

theorem wrap_eq_toIcoMod (x : Exact r) {m : Exact r} (hm : 0 < m) :
    Scalar.wrap x m = toIcoMod hm 0 x := by
  obtain ⟨h₁, h₂⟩ := abs_lt.1 (abs_rem_lt x hm)
  have e := rem_eq x m
  rw [wrap_eq, eq_comm, toIcoMod_eq_iff, zero_add, Set.mem_Ico]
  split
  · refine ⟨⟨by linarith, by linarith⟩, truncate (x / m) - 1, ?_⟩
    rw [e, zsmul_eq_mul]
    push_cast
    ring
  · refine ⟨⟨by linarith, h₂⟩, truncate (x / m), ?_⟩
    rw [e, zsmul_eq_mul]
    ring

theorem wrap_eq_sub_floor (x : Exact r) {m : Exact r} (hm : 0 < m) :
    Scalar.wrap x m = x - m * ⌊x / m⌋ := by
  rw [wrap_eq_toIcoMod x hm, ← self_sub_toIcoDiv_zsmul, toIcoDiv_eq_floor, sub_zero, zsmul_eq_mul,
    mul_comm]

theorem wrap_mem (x : Exact r) {m : Exact r} (hm : 0 < m) :
    0 ≤ Scalar.wrap x m ∧ Scalar.wrap x m < m := by
  rw [wrap_eq_toIcoMod x hm]
  exact toIcoMod_mem_Ico' hm x

theorem wrap_modEq (x : Exact r) {m : Exact r} (hm : 0 < m) : Scalar.wrap x m ≡ x [PMOD m] := by
  rw [wrap_eq_toIcoMod x hm, AddCommGroup.modEq_iff_eq_add_zsmul]
  exact ⟨toIcoDiv hm 0 x, (toIcoMod_add_toIcoDiv_zsmul hm 0 x).symm⟩

end Exact

/-! ### Angles -/

namespace Angle

variable {r : Reading}

theorem fullTurn_eq : (fullTurn : Exact r) = 360 := by simp [fullTurn]

theorem normalize_eq_wrap (d : Exact r) : normalize d = Scalar.wrap d 360 := by
  have h := (Exact.wrap_mem d (by norm_num : (0 : Exact r) < 360)).2
  simp [normalize, fullTurn_eq, not_le.2 h]

/-- The angle is less than a full turn. -/
def InTurn (a : Angle (Exact r)) : Prop := 0 ≤ a.degrees ∧ a.degrees < 360

theorem inTurn_zero : (zero : Angle (Exact r)).InTurn := by simp [InTurn, zero]

theorem inTurn_ofDegrees (d : Exact r) : (ofDegrees d).InTurn := by
  rw [ofDegrees, normalize_eq_wrap]
  exact Exact.wrap_mem d (by norm_num)

theorem ofDegrees_modEq (d : Exact r) : (ofDegrees d).degrees ≡ d [PMOD 360] := by
  rw [ofDegrees, normalize_eq_wrap]
  exact Exact.wrap_modEq d (by norm_num)

end Angle

/-! ### Vectors -/

attribute [ext] Vec

namespace Vec

instance {β : Type} [AddCommGroup β] : AddCommGroup (Vec β) where
  add_assoc _ _ _ := Vec.ext (add_assoc _ _ _) (add_assoc _ _ _)
  zero := ⟨0, 0⟩
  zero_add _ := Vec.ext (zero_add _) (zero_add _)
  add_zero _ := Vec.ext (add_zero _) (add_zero _)
  nsmul n a := ⟨n • a.x, n • a.y⟩
  nsmul_zero _ := Vec.ext (zero_nsmul _) (zero_nsmul _)
  nsmul_succ _ _ := Vec.ext (succ_nsmul _ _) (succ_nsmul _ _)
  neg a := ⟨-a.x, -a.y⟩
  sub_eq_add_neg _ _ := Vec.ext (sub_eq_add_neg _ _) (sub_eq_add_neg _ _)
  zsmul n a := ⟨n • a.x, n • a.y⟩
  zsmul_zero' _ := Vec.ext (zero_zsmul _) (zero_zsmul _)
  zsmul_succ' _ _ := Vec.ext (SubNegMonoid.zsmul_succ' _ _) (SubNegMonoid.zsmul_succ' _ _)
  zsmul_neg' _ _ := Vec.ext (SubNegMonoid.zsmul_neg' _ _) (SubNegMonoid.zsmul_neg' _ _)
  neg_add_cancel _ := Vec.ext (neg_add_cancel _) (neg_add_cancel _)
  add_comm _ _ := Vec.ext (add_comm _ _) (add_comm _ _)

variable {β : Type} [AddCommGroup β]

@[simp] theorem nsmul_x (n : ℕ) (a : Vec β) : (n • a).x = n • a.x := rfl

@[simp] theorem nsmul_y (n : ℕ) (a : Vec β) : (n • a).y = n • a.y := rfl

end Vec

end Overlay

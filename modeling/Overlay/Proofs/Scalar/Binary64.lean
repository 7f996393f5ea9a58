import Overlay.Proofs.Scalar.Sums
import Overlay.Scalar.Binary64

/-!
# Floating-point scalars

When the scalars that the engine runs on are numbers.  A sum of two numbers is one unless they are opposite
infinities (`isNaN_add`), and clamping brings exactly the numbers between zero and one (`clampUnit_iff`).
-/

namespace Overlay

/-- Two infinities of opposite signs. -/
def Opposed (x y : Float) : Prop := x.isInf = true ∧ y.isInf = true ∧ (x < y ∨ y < x)

theorem Opposed.symm {x y : Float} (h : Opposed x y) : Opposed y x := ⟨h.2.1, h.1, h.2.2.symm⟩

/-- A finite number that is small enough to be added to every finite number. -/
def Moderate (x : Float) : Prop := -1e291 < x ∧ x < 1e291

instance (x : Float) : Decidable (Moderate x) := inferInstanceAs (Decidable (_ ∧ _))

namespace Binary64

open Float.Model

variable {s : UnpackedFloat.Sign} {u v : UnpackedFloat} {x y : Float}

/-! ### Order -/

theorem compare_swap (u v : UnpackedFloat) : v.compare u = (u.compare v).map Ordering.swap := by
  cases u with
  | notANumber => cases v <;> rfl
  | infinity s =>
    cases v with
    | infinity t => cases s <;> cases t <;> rfl
    | _ => cases s <;> rfl
  | zero s =>
    cases v with
    | notANumber => rfl
    | zero t => rfl
    | _ t => cases t <;> rfl
  | finite s m e hm =>
    cases v with
    | notANumber => rfl
    | infinity t => cases t <;> rfl
    | zero t => cases s <;> rfl
    | finite t m' e' hm' =>
      have hswap : (compare e' e).then (compare m' m) = ((compare e e').then (compare m m')).swap := by
        rw [Ordering.swap_then, Int.compare_swap, Nat.compare_swap]
      cases s <;> cases t <;> simp [UnpackedFloat.compare, hswap]

theorem compare_eq_none : u.compare v = none ↔ u.isNaN = true ∨ v.isNaN = true := by
  fun_cases u.compare v <;> simp_all [UnpackedFloat.isNaN]

theorem numbers_of_compare {o : Ordering} (h : u.compare v = some o) :
    u.isNaN = false ∧ v.isNaN = false := by
  have hnumbers : ¬ (u.isNaN = true ∨ v.isNaN = true) := by
    rw [← compare_eq_none, h]
    exact Option.some_ne_none o
  rwa [not_or, Bool.not_eq_true, Bool.not_eq_true] at hnumbers

theorem lt_iff : x < y ↔ x.toModel.unpack.lt y.toModel.unpack = true := decide_eq_true_iff

theorem le_iff : x ≤ y ↔ x.toModel.unpack.le y.toModel.unpack = true := decide_eq_true_iff

theorem numbers_of_lt (h : x < y) : x.isNaN = false ∧ y.isNaN = false := by
  rw [lt_iff, UnpackedFloat.lt, beq_iff_eq] at h
  exact numbers_of_compare h

/-- Numbers are in order, unless the second is less than the first. -/
theorem le_iff_not_lt : x ≤ y ↔ x.isNaN = false ∧ y.isNaN = false ∧ ¬ y < x := by
  rw [le_iff, lt_iff]
  show _ ↔ x.toModel.unpack.isNaN = false ∧ y.toModel.unpack.isNaN = false ∧ _
  generalize x.toModel.unpack = u
  generalize y.toModel.unpack = v
  rw [UnpackedFloat.le, UnpackedFloat.lt, compare_swap u v]
  cases h : u.compare v with
  | none =>
    rw [compare_eq_none] at h
    rcases h with h | h <;> simp [h]
  | some o =>
    obtain ⟨hu, hv⟩ := numbers_of_compare h
    cases o <;> simp [hu, hv]

theorem numbers_of_le (h : x ≤ y) : x.isNaN = false ∧ y.isNaN = false := by
  obtain ⟨hx, hy, -⟩ := le_iff_not_lt.1 h
  exact ⟨hx, hy⟩

/-- Clamping brings numbers between zero and one, and leaves what is not a number. -/
theorem clampUnit_cases (x : Float) :
    x.isNaN = false ∧ 0 ≤ Scalar.clampUnit x ∧ Scalar.clampUnit x ≤ 1 ∨
      x.isNaN = true ∧ Scalar.clampUnit x = x := by
  have hzero : (Scalar.ofInt 0 : Float) = 0 := rfl
  have hone : (Scalar.ofInt 1 : Float) = 1 := rfl
  have hbounds : (0 : Float).isNaN = false ∧ (1 : Float).isNaN = false := by decide +kernel
  rw [Scalar.clampUnit, hzero, hone]
  split
  · rename_i hlow
    exact Or.inl ⟨(numbers_of_lt hlow).1, by decide +kernel⟩
  · rename_i hlow
    split
    · rename_i hhigh
      exact Or.inl ⟨(numbers_of_lt hhigh).2, by decide +kernel⟩
    · rename_i hhigh
      cases hx : x.isNaN with
      | false =>
        exact Or.inl ⟨rfl, le_iff_not_lt.2 ⟨hbounds.1, hx, hlow⟩, le_iff_not_lt.2 ⟨hx, hbounds.2, hhigh⟩⟩
      | true => exact Or.inr ⟨rfl, rfl⟩

theorem clampUnit_iff : (0 ≤ Scalar.clampUnit x ∧ Scalar.clampUnit x ≤ 1) ↔ x.isNaN = false := by
  rcases clampUnit_cases x with ⟨hx, h⟩ | ⟨hx, h⟩
  · exact iff_of_true h hx
  · rw [h]
    exact ⟨fun hle => (numbers_of_le hle.1).2, fun hnot => absurd hx (ne_true_of_eq_false hnot)⟩

theorem isNaN_clampUnit (x : Float) : (Scalar.clampUnit x).isNaN = x.isNaN := by
  rcases clampUnit_cases x with ⟨hx, hlow, -⟩ | ⟨hx, h⟩
  · rw [hx]
    exact (numbers_of_le hlow).2
  · rw [h]

/-! ### Signs and sizes -/

theorem unpack_zero : (0 : Float).toModel.unpack = .zero .positive := by
  have hzero : (0 : Float) = .ofModel (.pack (.zero .positive)) := by decide +kernel
  rw [hzero]
  exact stored_zero .positive

theorem zero_le_iff_and_le_zero_iff (u : UnpackedFloat) :
    ((UnpackedFloat.zero .positive).le u = true ↔ Toward .positive u) ∧
      (u.le (.zero .positive) = true ↔ Toward .negative u) := by
  cases u with
  | notANumber => exact ⟨iff_of_false (by decide) id, iff_of_false (by decide) id⟩
  | zero t => exact ⟨iff_of_true rfl trivial, iff_of_true rfl trivial⟩
  | infinity t => cases t <;> simp [UnpackedFloat.le, UnpackedFloat.compare, Toward]
  | finite t m e hm => cases t <;> simp [UnpackedFloat.le, UnpackedFloat.compare, Toward]

theorem nonneg_iff : 0 ≤ x ↔ Toward .positive x.toModel.unpack := by
  rw [le_iff, unpack_zero]
  exact (zero_le_iff_and_le_zero_iff _).1

theorem nonpos_iff : x ≤ 0 ↔ Toward .negative x.toModel.unpack := by
  rw [le_iff, unpack_zero]
  exact (zero_le_iff_and_le_zero_iff _).2

/-- The sign and the exponent of a number that is finite and not zero. -/
def shape? : UnpackedFloat → Option (UnpackedFloat.Sign × ℤ)
  | .finite s _ e _ => some (s, e)
  | _ => none

theorem exists_of_shape? {e : ℤ} (h : shape? u = some (s, e)) : ∃ m hm, u = .finite s m e hm := by
  cases u with
  | finite t m e' hm =>
    obtain ⟨rfl, rfl⟩ := Prod.mk.inj (Option.some.inj h)
    exact ⟨m, hm, rfl⟩
  | _ => cases h

theorem small_of_moderate (h : Moderate x) : Small x.toModel.unpack := by
  obtain ⟨hlow, hhigh⟩ := h
  have hshape : shape? (-1e291 : Float).toModel.unpack = some (.negative, 914) ∧
      shape? (1e291 : Float).toModel.unpack = some (.positive, 914) :=
    ⟨eq_of_beq (by decide +kernel), eq_of_beq (by decide +kernel)⟩
  obtain ⟨m, hm, hlimit⟩ := exists_of_shape? hshape.1
  obtain ⟨m', hm', hlimit'⟩ := exists_of_shape? hshape.2
  rw [lt_iff, hlimit] at hlow
  rw [lt_iff, hlimit'] at hhigh
  generalize x.toModel.unpack = u at *
  cases u with
  | notANumber => cases hlow
  | infinity t =>
    cases t with
    | negative => cases hlow
    | positive => cases hhigh
  | zero t => trivial
  | finite t k e hk =>
    show e ≤ 917
    cases t with
    | negative =>
      have horder : (compare 914 e).then (compare m k) = .gt := by
        simpa [UnpackedFloat.lt, UnpackedFloat.compare] using hlow
      rw [Ordering.then_eq_gt, compare_gt_iff_gt, compare_eq_iff_eq] at horder
      omega
    | positive =>
      have horder : (compare e 914).then (compare k m') = .lt := by
        simpa [UnpackedFloat.lt, UnpackedFloat.compare] using hhigh
      rw [Ordering.then_eq_lt, compare_lt_iff_lt, compare_eq_iff_eq] at horder
      omega

theorem isFinite_of_inUnit (h : Scalar.inUnit x = true) : x.isFinite = true := by
  simp only [Scalar.inUnit, Bool.and_eq_true, decide_eq_true_eq] at h
  obtain ⟨hlow, hhigh⟩ := h
  obtain ⟨m, hm, hone⟩ :=
    exists_of_shape? (eq_of_beq (by decide +kernel : (shape? (1 : Float).toModel.unpack ==
      some (.positive, -52)) = true))
  have hlow : Toward .positive x.toModel.unpack := nonneg_iff.1 hlow
  have hhigh : x.toModel.unpack.le (1 : Float).toModel.unpack = true := le_iff.1 hhigh
  rw [hone] at hhigh
  show x.toModel.unpack.isFinite = true
  generalize x.toModel.unpack = u at *
  cases u with
  | notANumber => cases hlow
  | infinity t =>
    obtain rfl : t = .positive := hlow
    cases hhigh
  | _ => rfl

theorem isNaN_of_inUnit (h : Scalar.inUnit x = true) : x.isNaN = false := by
  simp only [Scalar.inUnit, Bool.and_eq_true, decide_eq_true_eq] at h
  exact (numbers_of_le h.1).2

/-! ### Sums -/

theorem unpack_add (x y : Float) :
    (x + y).toModel.unpack = stored (x.toModel.unpack.add Format.binary64 y.toModel.unpack) := rfl

theorem isInf_iff : u.isInf = true ↔ ∃ s, u = .infinity s := by
  cases u <;> simp [UnpackedFloat.isInf]

theorem opposed_iff :
    Opposed x y ↔ ∃ s, x.toModel.unpack = .infinity s ∧ y.toModel.unpack = .infinity (-s) := by
  rw [Opposed, lt_iff, lt_iff]
  show x.toModel.unpack.isInf = true ∧ y.toModel.unpack.isInf = true ∧ _ ↔ _
  generalize x.toModel.unpack = u
  generalize y.toModel.unpack = v
  rw [isInf_iff, isInf_iff]
  constructor
  · rintro ⟨⟨s, rfl⟩, ⟨t, rfl⟩, h⟩
    refine ⟨s, rfl, ?_⟩
    rcases eq_or_eq_neg s t with rfl | rfl
    · cases t <;> cases h <;> contradiction
    · rfl
  · rintro ⟨s, rfl, rfl⟩
    refine ⟨⟨s, rfl⟩, ⟨-s, rfl⟩, ?_⟩
    cases s with
    | negative => exact Or.inl rfl
    | positive => exact Or.inr rfl

/-- The sum of two numbers is a number, unless they are two opposite infinities. -/
theorem isNaN_add : (x + y).isNaN = true ↔ x.isNaN = true ∨ y.isNaN = true ∨ Opposed x y := by
  rw [opposed_iff]
  show (x + y).toModel.unpack.isNaN = true ↔ _
  rw [unpack_add, isNaN_stored]
  exact isNaN_add_iff _ _

/-- A sum is not the infinity that is opposite to one of its terms. -/
theorem not_opposed_add (x y : Float) : ¬ Opposed (x + y) y := by
  rw [opposed_iff]
  rintro ⟨t, hsum, hy⟩
  rw [unpack_add, hy] at hsum
  rcases add_infinity x.toModel.unpack (-t) with h | h
  · rw [h, stored_notANumber] at hsum
    cases hsum
  · rw [h, stored_infinity] at hsum
    cases t <;> cases hsum

theorem not_opposed_of_isFinite (h : y.isFinite = true) : ¬ Opposed x y := by
  rintro ⟨-, hinf, -⟩
  change y.toModel.unpack.isFinite = true at h
  change y.toModel.unpack.isInf = true at hinf
  generalize y.toModel.unpack = v at *
  cases v with
  | infinity t => cases h
  | _ => cases hinf

theorem not_opposed_of_notAgainst (hx : NotAgainst s x.toModel.unpack) (hy : Toward s y.toModel.unpack) :
    ¬ Opposed x y := by
  rw [opposed_iff]
  rintro ⟨t, ht, ht'⟩
  rw [ht] at hx
  rw [ht'] at hy
  obtain rfl : t = s := hx
  have hneg : -t = t := hy
  cases t <;> cases hneg

theorem toward_unpack_add (hx : Toward s x.toModel.unpack) (hy : Toward s y.toModel.unpack) :
    Toward s (x + y).toModel.unpack := by
  rw [unpack_add]
  exact (hx.add hy).stored

theorem notAgainst_unpack_add (hx : NotAgainst s x.toModel.unpack) (hy : Toward s y.toModel.unpack) :
    NotAgainst s (x + y).toModel.unpack := by
  rw [unpack_add]
  exact hx.stored_add hy (canonical_unpack _) (canonical_unpack _)

/-- Moderate numbers can be added to every finite number. -/
theorem isFinite_add (hx : x.isFinite = true) (hy : Moderate y) : (x + y).isFinite = true := by
  show (x + y).toModel.unpack.isFinite = true
  rw [unpack_add]
  exact isFinite_stored_add hx (small_of_moderate hy) (canonical_unpack _) (canonical_unpack _)

end Binary64

end Overlay

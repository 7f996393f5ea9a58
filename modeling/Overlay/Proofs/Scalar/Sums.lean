import Overlay.Proofs.Scalar.Nearest

/-!
# Sums

The sum of two floating-point numbers as it is rounded and stored.  Only the sum of two opposite infinities is
not a number (`isNaN_add_iff`).

A sum only overflows towards the sign that both of its terms have: the sum of two finite numbers of opposite
signs is finite, and so is the sum of two finite numbers one of which is small (`isFinite_stored_add_opposite`,
`isFinite_stored_add_of_le`).
-/

namespace Overlay

namespace Binary64

open Float.Model

variable {s t : UnpackedFloat.Sign} {u v : UnpackedFloat}

/-! ### Signed mantissas -/

theorem toward_roundWithAccuracy (s : UnpackedFloat.Sign) (m : ℕ) (e : ℤ) (a : UnpackedFloat.Accuracy) :
    Toward s (UnpackedFloat.roundWithAccuracy Format.binary64 s m e a) := by
  rw [UnpackedFloat.roundWithAccuracy]
  dsimp only
  split <;> simp [Toward]

theorem toward_normalize_apply {m : ℕ} (hm : 0 < m) (e : ℤ) (t : UnpackedFloat.Sign) :
    Toward s (UnpackedFloat.normalize Format.binary64 (s.apply m) e t) := by
  cases s with
  | negative =>
    have hsign : compare (-(m : ℤ)) 0 = .lt := by
      rw [compare_lt_iff_lt]
      omega
    simp only [UnpackedFloat.normalize, UnpackedFloat.Sign.apply, hsign]
    exact toward_roundWithAccuracy _ _ _ _
  | positive =>
    have hsign : compare (m : ℤ) 0 = .gt := by
      rw [compare_gt_iff_gt]
      omega
    simp only [UnpackedFloat.normalize, UnpackedFloat.Sign.apply, hsign]
    exact toward_roundWithAccuracy _ _ _ _

theorem isNaN_normalize (m e : ℤ) (t : UnpackedFloat.Sign) :
    (UnpackedFloat.normalize Format.binary64 m e t).isNaN = false := by
  rw [UnpackedFloat.normalize]
  split
  · exact isNaN_eq_false_iff.2 ⟨_, toward_roundWithAccuracy _ _ _ _⟩
  · rfl
  · exact isNaN_eq_false_iff.2 ⟨_, toward_roundWithAccuracy _ _ _ _⟩

/-- Half a unit in the last place of the greatest number of the format is the room that rounding has. -/
theorem lt_limit_of_mantissa {m : ℕ} {e : ℤ} (he : e ≤ 971)
    (hm : 2 * m < (2 ^ 54 - 1) * 2 ^ (971 - e).toNat) : (m : ℚ) * 2 ^ e < limit := by
  have hunit : (2 : ℚ) ^ (971 - e).toNat * 2 ^ e = 2 ^ 971 := by
    rw [← zpow_natCast, ← zpow_add₀ two_ne_zero, Int.toNat_of_nonneg (by omega), sub_add_cancel]
    rfl
  have hm' : 2 * (m : ℚ) < (2 ^ 54 - 1 : ℕ) * 2 ^ (971 - e).toNat := by exact_mod_cast hm
  have hscaled := mul_lt_mul_of_pos_right hm' (by positivity : (0 : ℚ) < 2 ^ e)
  rw [mul_assoc ((2 ^ 54 - 1 : ℕ) : ℚ), hunit] at hscaled
  unfold limit
  generalize (2 : ℚ) ^ 971 = unit at *
  norm_num at hscaled ⊢
  linarith

theorem isFinite_stored_normalize {m e : ℤ} (he : e ≤ 971)
    (hm : 2 * m.natAbs < (2 ^ 54 - 1) * 2 ^ (971 - e).toNat) (t : UnpackedFloat.Sign) :
    (stored (UnpackedFloat.normalize Format.binary64 m e t)).isFinite = true := by
  rw [UnpackedFloat.normalize]
  split
  · rename_i hsign
    rw [compare_lt_iff_lt] at hsign
    exact isFinite_stored_round (by omega) (lt_limit_of_mantissa he (by omega)) _
  · rw [stored_zero]
    rfl
  · rename_i hsign
    rw [compare_gt_iff_gt] at hsign
    exact isFinite_stored_round (by omega) (lt_limit_of_mantissa he (by omega)) _

/-! ### Sums -/

theorem isNaN_add_iff (u v : UnpackedFloat) :
    (u.add Format.binary64 v).isNaN = true ↔ u.isNaN = true ∨ v.isNaN = true ∨
      ∃ s, u = .infinity s ∧ v = .infinity (-s) := by
  cases u with
  | notANumber => exact iff_of_true rfl (Or.inl rfl)
  | infinity s =>
    cases v with
    | notANumber => exact iff_of_true rfl (Or.inr (Or.inl rfl))
    | infinity t => cases s <;> cases t <;> simp [UnpackedFloat.add, UnpackedFloat.isNaN] <;> rfl
    | _ => simp [UnpackedFloat.add, UnpackedFloat.isNaN]
  | zero s =>
    cases v with
    | notANumber => exact iff_of_true rfl (Or.inr (Or.inl rfl))
    | zero t => cases s <;> cases t <;> simp [UnpackedFloat.add, UnpackedFloat.isNaN]
    | _ => simp [UnpackedFloat.add, UnpackedFloat.isNaN]
  | finite s m e hm =>
    cases v with
    | notANumber => exact iff_of_true rfl (Or.inr (Or.inl rfl))
    | finite t m' e' hm' =>
      exact iff_of_false (by simp [UnpackedFloat.add, isNaN_normalize]) (by simp [UnpackedFloat.isNaN])
    | _ => simp [UnpackedFloat.add, UnpackedFloat.isNaN]

theorem add_infinity (u : UnpackedFloat) (s : UnpackedFloat.Sign) :
    u.add Format.binary64 (.infinity s) = .notANumber ∨
      u.add Format.binary64 (.infinity s) = .infinity s := by
  cases u with
  | infinity t => cases s <;> cases t <;> simp [UnpackedFloat.add]
  | notANumber => exact Or.inl rfl
  | _ => exact Or.inr rfl

theorem Toward.add (hu : Toward s u) (hv : Toward s v) : Toward s (u.add Format.binary64 v) := by
  cases u with
  | notANumber => exact hu.elim
  | infinity t =>
    cases v with
    | notANumber => exact hv.elim
    | infinity t' =>
      obtain rfl : t = s := hu
      obtain rfl : t' = t := hv
      simp [UnpackedFloat.add, Toward]
    | _ => exact hu
  | zero t =>
    cases v with
    | notANumber => exact hv.elim
    | zero t' => rw [UnpackedFloat.add]; split <;> trivial
    | _ => exact hv
  | finite t m e hm =>
    cases v with
    | notANumber => exact hv.elim
    | infinity t' => exact hv
    | zero t' => exact hu
    | finite t' m' e' hm' =>
      obtain rfl : t = s := hu
      obtain rfl : t' = t := hv
      have hsum : ∀ a b : ℕ, t'.apply (a : ℤ) + t'.apply b = t'.apply ((a + b : ℕ) : ℤ) := by
        intro a b
        cases t' <;> simp only [UnpackedFloat.Sign.apply, Nat.cast_add, neg_add]
      simp only [UnpackedFloat.add, UnpackedFloat.decreaseExponent, Nat.shiftLeft_eq, hsum]
      exact toward_normalize_apply (by positivity) _ _

section Finite

variable {m m' : ℕ} {e e' : ℤ} {hm : 0 < m} {hm' : 0 < m'}

theorem mantissa_le {k : ℤ} (hm : m < 2 ^ 53) (he : e ≤ k) (E : ℤ) :
    m * 2 ^ (e - E).toNat ≤ (2 ^ 53 - 1) * 2 ^ (k - E).toNat :=
  Nat.mul_le_mul (by omega) (Nat.pow_le_pow_right (by decide) (by omega))

/-- The sum of two finite numbers of opposite signs is finite. -/
theorem isFinite_stored_add_opposite (h : Canonical (.finite (-s) m e hm))
    (h' : Canonical (.finite s m' e' hm')) :
    (stored (UnpackedFloat.add Format.binary64 (.finite (-s) m e hm)
      (.finite s m' e' hm'))).isFinite = true := by
  obtain ⟨hlt, -, hle, -⟩ := h
  obtain ⟨hlt', -, hle', -⟩ := h'
  have ha := mantissa_le hlt hle (min e e')
  have hb := mantissa_le hlt' hle' (min e e')
  have ha0 : 0 < m * 2 ^ (e - min e e').toNat := by positivity
  have hb0 : 0 < m' * 2 ^ (e' - min e e').toNat := by positivity
  simp only [UnpackedFloat.add, UnpackedFloat.decreaseExponent, Nat.shiftLeft_eq]
  refine isFinite_stored_normalize ((min_le_left e e').trans hle) ?_ _
  generalize m * 2 ^ (e - min e e').toNat = a at *
  generalize m' * 2 ^ (e' - min e e').toNat = b at *
  -- the difference is smaller than one of the two mantissas, which leaves the room for rounding
  have hdifference : ((-s).apply (a : ℤ) + s.apply (b : ℤ)).natAbs < max a b := by
    cases s with
    | negative =>
      show ((a : ℤ) + -b).natAbs < max a b
      omega
    | positive =>
      show (-(a : ℤ) + b).natAbs < max a b
      omega
  omega

/-- A number below `2 ^ 970`, half of a unit in the last place of the largest number, can be added to
every finite number. -/
theorem isFinite_stored_add_of_le (h : Canonical (.finite s m e hm)) (h' : Canonical (.finite t m' e' hm'))
    (hsmall : e' ≤ 917) :
    (stored (UnpackedFloat.add Format.binary64 (.finite s m e hm) (.finite t m' e' hm'))).isFinite = true := by
  obtain ⟨hlt, -, hle, -⟩ := h
  have ha := mantissa_le hlt hle (min e e')
  have hb := mantissa_le h'.1 hsmall (min e e')
  have hunit : 2 ^ (971 - min e e').toNat = 2 ^ 54 * 2 ^ (917 - min e e').toNat := by
    rw [← Nat.pow_add]
    congr 1
    omega
  have hpos : 0 < 2 ^ (917 - min e e').toNat := by positivity
  simp only [UnpackedFloat.add, UnpackedFloat.decreaseExponent, Nat.shiftLeft_eq]
  refine isFinite_stored_normalize ((min_le_left e e').trans hle) ?_ _
  generalize m * 2 ^ (e - min e e').toNat = a at *
  generalize m' * 2 ^ (e' - min e e').toNat = b at *
  have hsum : (s.apply (a : ℤ) + t.apply (b : ℤ)).natAbs ≤ a + b := by
    cases s <;> cases t <;> simp only [UnpackedFloat.Sign.apply] <;> omega
  rw [hunit] at ha ⊢
  omega

end Finite

/-- Numbers of one sign never lead to the opposite infinity. -/
theorem NotAgainst.stored_add (hu : NotAgainst s u) (hv : Toward s v) (cu : Canonical u) (cv : Canonical v) :
    NotAgainst s (stored (u.add Format.binary64 v)) := by
  by_cases ht : Toward s u
  · exact (ht.add hv).stored.notAgainst
  cases u with
  | notANumber => exact hu.elim
  | infinity t => exact absurd hu ht
  | zero t => exact absurd trivial ht
  | finite t m e hm =>
    obtain rfl : t = -s := (eq_or_eq_neg s t).resolve_left ht
    cases v with
    | notANumber => exact hv.elim
    | infinity t' => exact (Toward.stored (u := .infinity t') hv).notAgainst
    | zero t' => exact notAgainst_of_isFinite cu.isFinite_stored
    | finite t' m' e' hm' =>
      obtain rfl : t' = s := hv
      exact notAgainst_of_isFinite (isFinite_stored_add_opposite cu cv)

/-- The number is finite and below `2 ^ 970`. -/
def Small : UnpackedFloat → Prop
  | .zero _ => True
  | .finite _ _ e _ => e ≤ 917
  | _ => False

theorem isFinite_stored_add (hu : u.isFinite = true) (hv : Small v) (cu : Canonical u) (cv : Canonical v) :
    (stored (u.add Format.binary64 v)).isFinite = true := by
  cases u with
  | notANumber => cases hu
  | infinity t => cases hu
  | zero t =>
    cases v with
    | notANumber => exact hv.elim
    | infinity t' => exact hv.elim
    | zero t' =>
      rw [UnpackedFloat.add]
      split <;> rw [stored_zero] <;> rfl
    | finite t' m' e' hm' => exact cv.isFinite_stored
  | finite t m e hm =>
    cases v with
    | notANumber => exact hv.elim
    | infinity t' => exact hv.elim
    | zero t' => exact cu.isFinite_stored
    | finite t' m' e' hm' => exact isFinite_stored_add_of_le cu cv hv

end Binary64

end Overlay

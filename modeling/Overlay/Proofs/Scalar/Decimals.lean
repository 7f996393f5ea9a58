import Overlay.Proofs.Scalar.Nearest
import Overlay.Scalar.Binary64

/-!
# Reading decimals

The scalars that the engine runs on take a decimal for the number of the format that is nearest to it, of two
nearest ones for the one with the even mantissa, and from `limit` on for an infinity: `roundsTo_ofNumeral`.

Few digits with a small exponent are multiplied by a power of ten from a table, or divided by it, and this is
rounded once, as the digits and the power are numbers of the format (`exists_natural`, `exists_power`).
Other digits are rounded with a power of ten of any size (`nearest_unpackedOfScientific`).  An exponent that is
cut down before decides the value by itself (`nearest_of_cut`).
-/

namespace Overlay

/-- The number that a decimal says. -/
def Numeral.value (n : Numeral) : ℚ := (if n.negative then -1 else 1) * n.digits * 10 ^ n.exponent

namespace Binary64

open Float.Model UnpackedFloat

variable {s : UnpackedFloat.Sign} {u : UnpackedFloat} {x : ℚ}

/-- The rational number that a floating-point number stands for; zero if it is not finite. -/
def rational (x : Float) : ℚ := value x.toModel.unpack

/-! ### Very large and very small numbers -/

theorem nearest_infinity (hx : limit ≤ x) : Nearest x (.infinity .positive) where
  toward := rfl
  infinite _ := rfl
  finite h := absurd hx (not_le.2 h)
  le h := absurd hx (not_le.2 h)
  even h := absurd hx (not_le.2 h)

theorem le_abs_of_isDouble {w : ℚ} (hw : IsDouble w) (hne : w ≠ 0) : 2 ^ (-1074 : ℤ) ≤ |w| := by
  obtain ⟨m, e, -, he, -, rfl⟩ := hw
  have hm : m ≠ 0 := by
    rintro rfl
    simp at hne
  have hone : (1 : ℚ) ≤ |(m : ℚ)| := by exact_mod_cast Int.one_le_abs hm
  rw [abs_mul, abs_of_pos (by positivity : (0 : ℚ) < 2 ^ e)]
  calc (2 : ℚ) ^ (-1074 : ℤ) ≤ 1 * 2 ^ e := by
        rw [one_mul]
        exact zpow_le_zpow_right₀ one_le_two he
    _ ≤ |(m : ℚ)| * 2 ^ e := mul_le_mul_of_nonneg_right hone (by positivity)

theorem lt_limit_of_lt {m : ℕ} (h : m < 2 ^ 53) : (m : ℚ) < limit := by
  have hunit : (2 : ℚ) ≤ 2 ^ 971 := le_self_pow₀ one_le_two (by decide)
  have hm : (m : ℚ) < 2 ^ 53 := by exact_mod_cast h
  unfold limit
  generalize (2 : ℚ) ^ 971 = unit at *
  linarith

/-- Every number of the format other than zero is farther than zero from a number that is small enough. -/
theorem lt_abs_sub_of_isDouble {w : ℚ} (hw : IsDouble w) (hne : w ≠ 0) (hx : 0 ≤ x)
    (hsmall : 2 * x < 2 ^ (-1074 : ℤ)) : x < |w - x| := by
  have hleast := le_abs_of_isDouble hw hne
  have htriangle : |w| ≤ |w - x| + |x| := by simpa using abs_add_le (w - x) x
  rw [abs_of_nonneg hx] at htriangle
  linarith

theorem lt_limit_of_small (hsmall : 2 * x < 2 ^ (-1074 : ℤ)) : x < limit := by
  have hone : (2 : ℚ) ^ (-1074 : ℤ) ≤ 1 := zpow_le_one_of_nonpos₀ one_le_two (by decide)
  have hlimit : ((1 : ℕ) : ℚ) < limit := lt_limit_of_lt (by decide)
  rw [Nat.cast_one] at hlimit
  linarith

theorem nearest_zero (t : UnpackedFloat.Sign) (hx : 0 ≤ x) (hsmall : 2 * x < 2 ^ (-1074 : ℤ)) :
    Nearest x (.zero t) := by
  have hdistance : |value (.zero t) - x| = x := by simp [value, abs_of_nonneg hx]
  refine ⟨trivial, fun hlarge => absurd (lt_limit_of_small hsmall) (not_lt.2 hlarge), fun _ => rfl,
    fun _ w hw => ?_, fun _ _ _ _ _ => trivial⟩
  by_cases hne : w = 0
  · rw [hne]
    rfl
  · rw [hdistance]
    exact (lt_abs_sub_of_isDouble hw hne hx hsmall).le

/-- What is nearest to a number that is small enough is zero. -/
theorem Nearest.exists_eq_zero (h : Nearest x u) (hu : Canonical u) (hx : 0 ≤ x)
    (hsmall : 2 * x < 2 ^ (-1074 : ℤ)) : ∃ t, u = .zero t := by
  have hlimit := lt_limit_of_small hsmall
  have hfinite := h.finite hlimit
  cases u with
  | notANumber => cases hfinite
  | infinity t => cases hfinite
  | zero t => exact ⟨t, rfl⟩
  | finite t m e hm =>
    have hne : value (.finite t m e hm) ≠ 0 := by
      obtain rfl : t = .positive := h.toward
      exact mul_ne_zero (Int.cast_ne_zero.2 (Int.natCast_ne_zero.2 hm.ne')) (zpow_ne_zero _ two_ne_zero)
    have hnear := h.le hlimit 0 isDouble_zero
    rw [zero_sub, abs_neg, abs_of_nonneg hx] at hnear
    exact absurd hnear (not_le.2 (lt_abs_sub_of_isDouble (isDouble_value hu) hne hx hsmall))

/-! ### Powers of ten -/

section Powers

variable {m : ℕ} {e : ℤ}

theorem two_pow_le_ten_pow : (2 : ℚ) ^ 1200 ≤ 10 ^ 400 := by
  calc (2 : ℚ) ^ 1200 = (2 ^ 3) ^ 400 := by rw [← pow_mul]
    _ ≤ 10 ^ 400 := pow_le_pow_left₀ (by norm_num) (by norm_num) 400

theorem limit_le (hm : 0 < m) (he : 400 ≤ e) : limit ≤ m * 10 ^ e := by
  have hm' : (1 : ℚ) ≤ m := by exact_mod_cast hm
  calc limit ≤ 2 ^ 53 * 2 ^ 971 := mul_le_mul_of_nonneg_right (by norm_num) (by positivity)
    _ = 2 ^ 1024 := by rw [← pow_add]
    _ ≤ 2 ^ 1200 := pow_le_pow_right₀ one_le_two (by decide)
    _ ≤ 10 ^ 400 := two_pow_le_ten_pow
    _ = 1 * 10 ^ (400 : ℤ) := by rw [one_mul]; rfl
    _ ≤ m * 10 ^ e := mul_le_mul hm' (zpow_le_zpow_right₀ (by norm_num) he) (by positivity) (by positivity)

/-- A number with `d` digits before the point is small if they stand far behind it. -/
theorem small_of_lt {d : ℕ} (hm : m < 10 ^ d) (he : e + d ≤ -400) :
    2 * (m * 10 ^ e : ℚ) < 2 ^ (-1074 : ℤ) := by
  have hten : (10 : ℚ) ≠ 0 := by norm_num
  have hm' : (m : ℚ) < 10 ^ (d : ℤ) := by exact_mod_cast hm
  have hsmall : (10 : ℚ) ^ (-400 : ℤ) ≤ 2 ^ (-1200 : ℤ) := by
    rw [zpow_neg, zpow_neg]
    exact inv_anti₀ (by positivity) two_pow_le_ten_pow
  have hlast : 2 * (2 : ℚ) ^ (-1200 : ℤ) ≤ 2 ^ (-1074 : ℤ) := by
    rw [← zpow_one_add₀ two_ne_zero]
    exact zpow_le_zpow_right₀ one_le_two (by decide)
  calc 2 * (m * 10 ^ e : ℚ) < 2 * (10 ^ (d : ℤ) * 10 ^ e) := by
        have : (0 : ℚ) < 10 ^ e := by positivity
        linarith [mul_lt_mul_of_pos_right hm' this]
    _ = 2 * 10 ^ (d + e : ℤ) := by rw [zpow_add₀ hten]
    _ ≤ 2 * 10 ^ (-400 : ℤ) := by
        have := zpow_le_zpow_right₀ (by norm_num : (1 : ℚ) ≤ 10) (by omega : d + e ≤ -400)
        linarith
    _ ≤ 2 ^ (-1074 : ℤ) := by linarith

end Powers

/-! ### Digits and a power of ten -/

/-- Digits and any exponent are rounded to nearest. -/
theorem nearest_unpackedOfScientific (m : ℕ) (e : ℤ) :
    Nearest (m * 10 ^ e) (stored (UnpackedFloat.ofScientific Format.binary64 m e)) := by
  fun_cases UnpackedFloat.ofScientific with
  | case1 hm =>
    subst hm
    rw [stored_zero]
    exact nearest_zero _ (by simp) (by simp)
  | case2 hm he =>
    rw [stored_infinity]
    exact nearest_infinity (limit_le (Nat.pos_of_ne_zero hm) (by norm_num at he; omega))
  | case3 hm he hlow =>
    rw [stored_zero]
    have hlt : m < 10 ^ (m.log2 + 1) := Nat.lt_log2_self.trans_le (Nat.pow_le_pow_left (by decide) _)
    exact nearest_zero _ (by positivity) (small_of_lt hlt (by push_cast at hlow ⊢; norm_num at hlow; omega))
  | case4 hm he hlow hpos =>
    have hlog : 52 ≤ (m <<< 53).log2 := by
      rw [Nat.le_log2 (by rw [Nat.shiftLeft_eq]; positivity), Nat.shiftLeft_eq]
      calc 2 ^ 52 ≤ 1 * 2 ^ 53 := by decide
        _ ≤ m * 2 ^ 53 := Nat.mul_le_mul_right _ (Nat.pos_of_ne_zero hm)
    have hx : ((m <<< 53 : ℕ) : ℚ) * 2 ^ (-53 : ℤ) * ((10 ^ e.toNat : ℕ) * 2 ^ (0 : ℤ)) = m * 10 ^ e := by
      have hpower : (10 : ℚ) ^ e = 10 ^ e.toNat := by
        rw [← zpow_natCast, Int.toNat_of_nonneg hpos]
      have hshift : (2 : ℚ) ^ 53 * 2 ^ (-53 : ℤ) = 1 := by
        rw [← zpow_natCast, ← zpow_add₀ two_ne_zero]
        rfl
      rw [hpower, Nat.shiftLeft_eq, Nat.cast_mul, Nat.cast_pow, Nat.cast_pow, zpow_zero, mul_one,
        mul_assoc (m : ℚ)]
      exact congrArg (· * _) ((congrArg _ hshift).trans (mul_one _))
    rw [← hx]
    exact nearest_mul hlog
  | case5 hm he hlow hneg =>
    have hx : (m : ℚ) * 2 ^ (0 : ℤ) / ((10 ^ (-e).toNat : ℕ) * 2 ^ (0 : ℤ)) = m * 10 ^ e := by
      have hpower : (10 : ℚ) ^ e = (10 ^ (-e).toNat)⁻¹ := by
        rw [← zpow_natCast, Int.toNat_of_nonneg (by omega), zpow_neg, inv_inv]
      rw [hpower, zpow_zero, mul_one, mul_one, div_eq_mul_inv]
      push_cast
      rfl
    rw [← hx]
    exact nearest_div

/-! ### Few digits and a small exponent -/

theorem exists_of_value_pos (h : 0 < value u) :
    ∃ m e hm, u = .finite .positive m e hm ∧ (m * 2 ^ e : ℚ) = value u := by
  cases u with
  | finite t m e hm =>
    cases t with
    | negative =>
      have hle : value (.finite .negative m e hm) ≤ 0 :=
        mul_nonpos_of_nonpos_of_nonneg (by simp [UnpackedFloat.Sign.apply]) (by positivity)
      exact absurd h hle.not_gt
    | positive => exact ⟨m, e, hm, rfl, rfl⟩
  | _ => exact absurd h (lt_irrefl _)

/-- The powers of ten in the table. -/
theorem exists_power (e : Fin Float.exactlyRepresentablePowersOfTen.size) :
    ∃ m k hm, Float.exactlyRepresentablePowersOfTen[e].toModel.unpack = .finite .positive m k hm ∧
      (m * 2 ^ k : ℚ) = 10 ^ (e : ℕ) := by
  have hvalue : ∀ e : Fin Float.exactlyRepresentablePowersOfTen.size,
      value Float.exactlyRepresentablePowersOfTen[e].toModel.unpack = 10 ^ (e : ℕ) := by
    decide +kernel
  have hpositive : (0 : ℚ) < 10 ^ (e : ℕ) := by positivity
  rw [← hvalue e] at hpositive ⊢
  exact exists_of_value_pos hpositive

theorem nearest_ofNat {m : ℕ} (hm : 0 < m) :
    Nearest m (stored (UnpackedFloat.ofNat Format.binary64 m)) := by
  have hsign : compare (m : ℤ) 0 = .gt := compare_gt_iff_gt.2 (by omega)
  have hround := nearest_round (e := 0) hm
  rw [zpow_zero, mul_one] at hround
  rwa [UnpackedFloat.ofNat, UnpackedFloat.ofInt, UnpackedFloat.normalize, hsign]

/-- A natural number that the mantissa has room for is a number of the format. -/
theorem exists_natural {m : ℕ} (hm : 0 < m) (hlt : m < 2 ^ 53) :
    ∃ k e hk, m.toUInt64.toFloat.toModel.unpack = .finite .positive k e hk ∧ (k * 2 ^ e : ℚ) = m ∧
      52 ≤ k.log2 := by
  have hunpack : m.toUInt64.toFloat.toModel.unpack = stored (UnpackedFloat.ofNat Format.binary64 m) := by
    show stored (UnpackedFloat.ofNat Format.binary64 m.toUInt64.toNat) = _
    rw [Nat.toUInt64, UInt64.toNat_ofNat_of_lt' (hlt.trans (by decide))]
  have hvalue : value (stored (UnpackedFloat.ofNat Format.binary64 m)) = m := by
    have hdistance := (nearest_ofNat hm).le (lt_limit_of_lt hlt) m (isDouble_natCast hlt)
    rw [sub_self, abs_zero] at hdistance
    exact sub_eq_zero.1 (abs_nonpos_iff.1 hdistance)
  have hcanonical := canonical_unpack m.toUInt64.toFloat.toModel
  have hone : (1 : ℚ) ≤ m := by exact_mod_cast hm
  rw [hunpack] at hcanonical ⊢
  obtain ⟨k, e, hk, hfinite, hke⟩ := exists_of_value_pos (by rw [hvalue]; linarith)
  rw [hfinite] at hcanonical
  refine ⟨k, e, hk, hfinite, hke.trans hvalue, (Nat.le_log2 hk.ne').2 ?_⟩
  obtain ⟨hlast, -, -, hnormal⟩ := hcanonical
  refine hnormal.resolve_right fun he => ?_
  -- with the least exponent it would be below one
  have hsmall : (k * 2 ^ e : ℚ) < 1 := by
    have hk' : (k : ℚ) < 2 ^ (53 : ℤ) := by exact_mod_cast hlast
    calc (k * 2 ^ e : ℚ) < 2 ^ (53 : ℤ) * 2 ^ e := mul_lt_mul_of_pos_right hk' (by positivity)
      _ = 2 ^ (53 + e) := by rw [zpow_add₀ two_ne_zero]
      _ ≤ 1 := zpow_le_one_of_nonpos₀ one_le_two (by omega)
  rw [hke, hvalue] at hsmall
  linarith

theorem unpack_mul (x y : Float) :
    (x * y).toModel.unpack = stored (x.toModel.unpack.mul Format.binary64 y.toModel.unpack) := rfl

theorem unpack_div (x y : Float) :
    (x / y).toModel.unpack = stored (x.toModel.unpack.div Format.binary64 y.toModel.unpack) := rfl

theorem unpack_toFloat_zero : (Nat.toUInt64 0).toFloat.toModel.unpack = .zero .positive :=
  stored_zero .positive

section Table

variable {m : ℕ} (hm : m < 2 ^ 53) (e : Fin Float.exactlyRepresentablePowersOfTen.size)

include hm

theorem nearest_mul_power :
    Nearest (m * 10 ^ (e : ℕ))
      (m.toUInt64.toFloat * Float.exactlyRepresentablePowersOfTen[e]).toModel.unpack := by
  obtain ⟨m', k', hm', hpower, hten⟩ := exists_power e
  rw [unpack_mul, hpower, ← hten]
  rcases Nat.eq_zero_or_pos m with rfl | hpos
  · rw [unpack_toFloat_zero, UnpackedFloat.mul, stored_zero, Nat.cast_zero, zero_mul]
    exact nearest_zero _ le_rfl (by simp)
  · obtain ⟨k, f, hk, hdigits, hvalue, hlog⟩ := exists_natural hpos hm
    rw [hdigits, ← hvalue]
    exact nearest_mul hlog

theorem nearest_div_power :
    Nearest (m / 10 ^ (e : ℕ))
      (m.toUInt64.toFloat / Float.exactlyRepresentablePowersOfTen[e]).toModel.unpack := by
  obtain ⟨m', k', hm', hpower, hten⟩ := exists_power e
  rw [unpack_div, hpower, ← hten]
  rcases Nat.eq_zero_or_pos m with rfl | hpos
  · rw [unpack_toFloat_zero, UnpackedFloat.div, stored_zero, Nat.cast_zero, zero_div]
    exact nearest_zero _ le_rfl (by simp)
  · obtain ⟨k, f, hk, hdigits, hvalue, hlog⟩ := exists_natural hpos hm
    rw [hdigits, ← hvalue]
    exact nearest_div

end Table

/-- Digits with a decimal exponent of either sign are rounded to nearest. -/
theorem nearest_ofScientific (m : ℕ) (e : ℤ) :
    Nearest (m * 10 ^ e) (Float.ofScientific m (decide (e < 0)) e.natAbs).toModel.unpack := by
  by_cases h : m < 2 ^ 53 ∧ e.natAbs ≤ 22
  · have hsize : e.natAbs < Float.exactlyRepresentablePowersOfTen.size := Nat.lt_succ_of_le h.2
    rw [Float.ofScientific, dif_pos h]
    by_cases he : e < 0
    · have hx : (m : ℚ) * 10 ^ e = m / 10 ^ e.natAbs := by
        rw [div_eq_mul_inv, ← zpow_natCast, Int.ofNat_natAbs_of_nonpos he.le, zpow_neg, inv_inv]
      rw [hx, decide_eq_true he]
      exact nearest_div_power h.1 ⟨e.natAbs, hsize⟩
    · have hx : (m : ℚ) * 10 ^ e = m * 10 ^ e.natAbs := by
        rw [← zpow_natCast, Int.natAbs_of_nonneg (by omega)]
      rw [hx, decide_eq_false he]
      exact nearest_mul_power h.1 ⟨e.natAbs, hsize⟩
  · have he : (if decide (e < 0) = true then Int.negOfNat e.natAbs else Int.ofNat e.natAbs) = e := by
      simp only [decide_eq_true_eq, Int.negOfNat_eq, Int.ofNat_eq_natCast]
      split <;> omega
    rw [Float.ofScientific, dif_neg h, he]
    exact nearest_unpackedOfScientific m e

/-! ### Decimals -/

section Numeral

variable {m : ℕ} {e : ℤ}

theorem lt_ten_pow_digitCount (m : ℕ) : m < 10 ^ digitCount m :=
  (Nat.length_toDigits_le_iff (by decide) Nat.length_toDigits_pos).1 le_rfl

/-- An exponent that is cut down decides the value by itself. -/
theorem nearest_of_cut {k : ℤ} (hk : k = 400 + digitCount m) (hu : Canonical u)
    (h : Nearest (m * 10 ^ max (-k) (min k e)) u) : Nearest (m * 10 ^ e) u := by
  rcases Nat.eq_zero_or_pos m with rfl | hm
  · simpa using h
  rcases lt_or_ge e (-k) with hlow | hlow
  · rw [max_eq_left (by omega)] at h
    obtain ⟨t, rfl⟩ := h.exists_eq_zero hu (by positivity) (small_of_lt (lt_ten_pow_digitCount m) (by omega))
    exact nearest_zero t (by positivity) (small_of_lt (lt_ten_pow_digitCount m) (by omega))
  rcases lt_or_ge k e with hhigh | hhigh
  · rw [min_eq_left hhigh.le, max_eq_right (by omega)] at h
    rw [h.infinite (limit_le hm (by omega))]
    exact nearest_infinity (limit_le hm (by omega))
  · rwa [min_eq_right hhigh, max_eq_right hlow] at h

end Numeral

/-! ### Signs -/

theorem value_neg (u : UnpackedFloat) : value u.neg = -value u := by
  cases u with
  | finite s m e hm => cases s <;> simp [UnpackedFloat.neg, value, UnpackedFloat.Sign.apply]
  | _ => simp [UnpackedFloat.neg, value]

theorem evenMantissa_neg : EvenMantissa u.neg ↔ EvenMantissa u := by
  cases u <;> rfl

theorem unpack_neg (x : Float) : (-x).toModel.unpack = x.toModel.unpack.neg := by
  have h := canonical_unpack x.toModel
  show stored x.toModel.unpack.neg = _
  refine stored_of_canonical ?_
  generalize x.toModel.unpack = u at *
  cases u with
  | finite s m e hm => exact h
  | _ => trivial

@[simp] theorem rational_neg (x : Float) : rational (-x) = -rational x := by
  rw [rational, unpack_neg, value_neg, rational]

@[simp] theorem isFinite_neg (x : Float) : (-x).isFinite = x.isFinite := by
  show (-x).toModel.unpack.isFinite = x.toModel.unpack.isFinite
  rw [unpack_neg]
  cases x.toModel.unpack <;> rfl

/-- The number `q` is rounded to `x`. -/
structure RoundsTo (q : ℚ) (x : Float) : Prop where
  infinite : limit ≤ |q| → x.toModel.unpack = .infinity (if q < 0 then .negative else .positive)
  finite : |q| < limit → x.isFinite = true
  le : |q| < limit → ∀ y : Float, y.isFinite = true → |rational x - q| ≤ |rational y - q|
  even : |q| < limit → ∀ y : Float, y.isFinite = true → rational y ≠ rational x →
    |rational y - q| = |rational x - q| → EvenMantissa x.toModel.unpack

section RoundsTo

variable {q : ℚ} {y : Float}

theorem Nearest.roundsTo (hq : 0 ≤ q) (h : Nearest q y.toModel.unpack) : RoundsTo q y := by
  have hdouble : ∀ w : Float, IsDouble (rational w) := fun w => isDouble_value (canonical_unpack _)
  constructor <;> rw [abs_of_nonneg hq] <;> intro hlimit
  · rw [if_neg (not_lt.2 hq)]
    exact h.infinite hlimit
  · exact h.finite hlimit
  · exact fun w _ => h.le hlimit _ (hdouble w)
  · exact fun w _ => h.even hlimit _ (hdouble w)

theorem RoundsTo.neg (h : RoundsTo q y) : RoundsTo (-q) (-y) := by
  have hdistance : ∀ w : ℚ, |-w - -q| = |w - q| := fun w => by rw [neg_sub_neg, abs_sub_comm]
  have hdistance' : ∀ w : ℚ, |w - -q| = |-w - q| := fun w => by rw [← hdistance, neg_neg]
  constructor <;> rw [abs_neg] <;> intro hlimit
  · have hne : q ≠ 0 := by
      rintro rfl
      rw [abs_zero] at hlimit
      exact absurd hlimit (not_le.2 (lt_limit_of_small (by simp)))
    rw [unpack_neg, h.infinite hlimit]
    rcases hne.lt_or_gt with hq | hq
    · rw [if_pos hq, if_neg (by linarith)]
      rfl
    · rw [if_neg hq.not_gt, if_pos (by linarith)]
      rfl
  · rw [isFinite_neg]
    exact h.finite hlimit
  · intro w hw
    rw [rational_neg, hdistance, hdistance', ← rational_neg]
    exact h.le hlimit (-w) (by rwa [isFinite_neg])
  · intro w hw hne heq
    rw [rational_neg, hdistance, hdistance', ← rational_neg] at heq
    rw [unpack_neg, evenMantissa_neg]
    refine h.even hlimit (-w) (by rwa [isFinite_neg]) (fun hsame => hne ?_) heq
    rw [rational_neg, ← hsame, rational_neg, neg_neg]

theorem RoundsTo.isNaN (h : RoundsTo q y) : y.isNaN = false := by
  show y.toModel.unpack.isNaN = false
  rcases le_or_gt limit |q| with hlimit | hlimit
  · rw [h.infinite hlimit]
    rfl
  · have hfinite : y.toModel.unpack.isFinite = true := h.finite hlimit
    cases hy : y.toModel.unpack with
    | notANumber =>
      rw [hy] at hfinite
      cases hfinite
    | _ => rfl

end RoundsTo

/-- A decimal is read as the nearest number, of two nearest ones as the one with the even mantissa, and from
`limit` on as an infinity. -/
theorem roundsTo_ofNumeral (n : Numeral) : RoundsTo n.value (Scalar.ofNumeral n) := by
  have hmagnitude : (0 : ℚ) ≤ n.digits * 10 ^ n.exponent := by positivity
  have hround := (nearest_of_cut rfl (canonical_unpack _)
    (nearest_ofScientific n.digits (max (-(400 + digitCount n.digits))
      (min (400 + digitCount n.digits) n.exponent)))).roundsTo hmagnitude
  show RoundsTo n.value (floatOfNumeral n)
  rw [Numeral.value, mul_assoc, floatOfNumeral]
  cases n.negative with
  | false => simpa using hround
  | true => simpa using hround.neg

/-- Whatever a decimal overflows to, it is read as a number. -/
theorem isNaN_ofNumeral (n : Numeral) : (Scalar.ofNumeral n : Float).isNaN = false :=
  (roundsTo_ofNumeral n).isNaN

end Binary64

end Overlay

import Overlay.Proofs.Scalar.Storing

/-!
# Rounding to nearest

The finite numbers of the format are some rational numbers (`IsDouble`), and an unpacked number stands for
one of them (`value`).  A positive number is rounded to the nearest of them, of two nearest ones to the one
with the even mantissa, and to an infinity from `limit` on: `Nearest`.

Rounding works on a mantissa with a round bit and a sticky bit, which tell enough of the number that they were
taken from (`Reads`); shifting keeps this, and once the digits are placed for the format (`Placed`), the
mantissa is rounded to the nearest integer.  For every finer number of the format there is an integer that is
nearer (`exists_integer`), so what is rounded is nearest among all of them (`Placed.nearest`).  Products and
quotients are rounded in this way.
-/

namespace Overlay

namespace Binary64

open Float.Model UnpackedFloat

variable {s : UnpackedFloat.Sign} {u v : UnpackedFloat}

/-! ### The numbers of the format -/

/-- The rational number that an unpacked number stands for; zero if it stands for none. -/
def value : UnpackedFloat → ℚ
  | .finite s m e _ => s.apply m * 2 ^ e
  | _ => 0

/-- The finite numbers of the format. -/
def IsDouble (w : ℚ) : Prop := ∃ m e : ℤ, |m| < 2 ^ 53 ∧ -1074 ≤ e ∧ e ≤ 971 ∧ w = m * 2 ^ e

/-- The middle between the largest number of the format and the one that would come next. -/
def limit : ℚ := (2 ^ 53 - 1 / 2) * 2 ^ 971

/-- The last digit of the mantissa is zero. -/
def EvenMantissa : UnpackedFloat → Prop
  | .finite _ m _ _ => Even m
  | _ => True

/-- The number `x`, which is not negative, is rounded to `u`. -/
structure Nearest (x : ℚ) (u : UnpackedFloat) : Prop where
  toward : Toward .positive u
  infinite : limit ≤ x → u = .infinity .positive
  finite : x < limit → u.isFinite = true
  le : x < limit → ∀ w, IsDouble w → |value u - x| ≤ |w - x|
  even : x < limit → ∀ w, IsDouble w → w ≠ value u → |w - x| = |value u - x| → EvenMantissa u

theorem isDouble_natCast {m : ℕ} (h : m < 2 ^ 53) : IsDouble m :=
  ⟨m, 0, by simpa using (by exact_mod_cast h : (m : ℤ) < 2 ^ 53), by decide, by decide, by simp⟩

theorem isDouble_zero : IsDouble 0 := by simpa using isDouble_natCast (by decide : 0 < 2 ^ 53)

theorem isDouble_value (h : Canonical u) : IsDouble (value u) := by
  cases u with
  | finite s m e hm =>
    obtain ⟨hlt, hlow, hhigh, -⟩ := h
    refine ⟨s.apply m, e, ?_, hlow, hhigh, rfl⟩
    cases s with
    | negative => simpa [UnpackedFloat.Sign.apply] using (by exact_mod_cast hlt : (m : ℤ) < 2 ^ 53)
    | positive => simpa [UnpackedFloat.Sign.apply] using (by exact_mod_cast hlt : (m : ℤ) < 2 ^ 53)
  | _ => exact isDouble_zero

/-! ### Round and sticky bits -/

/-- The mantissa and the round bit are the binary digits of `z` up to the first one behind the point, and the
sticky bit says whether there are more. -/
def Reads (em : ExtendedMantissa) (z : ℚ) : Prop :=
  if em.stickyBit then
    2 * (em.mantissa : ℚ) + em.roundBit.toNat < 2 * z ∧ 2 * z < 2 * em.mantissa + em.roundBit.toNat + 1
  else 2 * z = 2 * em.mantissa + em.roundBit.toNat

section Reads

variable {em : ExtendedMantissa} {z : ℚ}

theorem reads_exact (m : ℕ) : Reads (.ofMantissaAndAccuracy m .exact) m := by
  simp [Reads, ExtendedMantissa.ofMantissaAndAccuracy]

/-- A quotient, and what the remainder says about its fraction. -/
theorem reads_fraction (a : ℕ) {b : ℕ} (hb : 0 < b) :
    Reads (.ofMantissaAndAccuracy (a / b) (accuracyOfFraction (a % b) b)) (a / b : ℚ) := by
  have hb' : (0 : ℚ) < b := by exact_mod_cast hb
  have hquotient : (a / b : ℚ) = (a / b : ℕ) + (a % b : ℕ) / b := by
    rw [div_eq_iff hb'.ne', add_mul, div_mul_cancel₀ _ hb'.ne', mul_comm]
    exact_mod_cast (Nat.div_add_mod a b).symm
  have hfraction : ((a % b : ℕ) : ℚ) / b < 1 := (div_lt_one hb').2 (by exact_mod_cast Nat.mod_lt a hb)
  rw [hquotient]
  generalize a / b = q at *
  generalize a % b = r at *
  unfold accuracyOfFraction
  split
  · subst r
    simpa using reads_exact q
  · have hr : (0 : ℚ) < r / b := div_pos (by exact_mod_cast Nat.pos_of_ne_zero ‹r ≠ 0›) hb'
    have hhalf : (2 * r : ℕ) = 2 * (r / b : ℚ) * b := by
      push_cast
      field_simp
    rcases lt_trichotomy (2 * r) b with h | h | h
    · rw [compare_lt_iff_lt.2 h]
      have hlt : 2 * (r / b : ℚ) < 1 := by
        rw [← mul_lt_mul_iff_left₀ hb', ← hhalf, one_mul]
        exact_mod_cast h
      simp only [Reads, ExtendedMantissa.ofMantissaAndAccuracy, if_true, Bool.toNat_false, Nat.cast_zero]
      constructor <;> linarith
    · rw [compare_eq_iff_eq.2 h]
      have heq : 2 * (r / b : ℚ) = 1 := by
        rw [← mul_left_inj' hb'.ne', ← hhalf, one_mul, h]
      simp only [Reads, ExtendedMantissa.ofMantissaAndAccuracy, Bool.false_eq_true, if_false, Bool.toNat_true,
        Nat.cast_one]
      linarith
    · rw [compare_gt_iff_gt.2 h]
      have hgt : 1 < 2 * (r / b : ℚ) := by
        rw [← mul_lt_mul_iff_left₀ hb', ← hhalf, one_mul]
        exact_mod_cast h
      simp only [Reads, ExtendedMantissa.ofMantissaAndAccuracy, if_true, Bool.toNat_true, Nat.cast_one]
      constructor <;> linarith

theorem Reads.mem (h : Reads em z) : (em.mantissa : ℚ) ≤ z ∧ z < em.mantissa + 1 := by
  rcases em with ⟨m, _ | _, _ | _⟩ <;> simp [Reads] at h ⊢ <;> constructor <;> linarith

theorem Reads.shiftRightOne (h : Reads em z) : Reads em.shiftRightOne (z / 2) := by
  have hdigit : ∀ m : ℕ, 2 * ((m / 2 : ℕ) : ℚ) + (m % 2 != 0).toNat = m := by
    intro m
    have hnat : 2 * (m / 2) + (m % 2 != 0).toNat = m := by
      rcases Nat.mod_two_eq_zero_or_one m with h | h <;> simp [h] <;> omega
    exact_mod_cast hnat
  rcases em with ⟨m, r, s⟩
  simp only [Reads, ExtendedMantissa.shiftRightOne, hdigit, mul_div_cancel₀ z two_ne_zero] at h ⊢
  cases r <;> cases s <;> simp at h ⊢ <;> first | linarith | constructor <;> linarith

/-- Shifting loses digits, and keeps what the round bit and the sticky bit tell of them. -/
theorem Reads.shiftRight (h : Reads em z) (k : ℕ) : Reads (em >>> k) (z / 2 ^ k) := by
  show Reads (k.repeat _ em) _
  induction k with
  | zero => simpa [Nat.repeat] using h
  | succ k ih =>
    rw [Nat.repeat, pow_succ, ← div_div]
    exact ih.shiftRightOne

/-- The rounded mantissa is next to the number, and even if the number lies in the middle. -/
theorem Reads.rounded (h : Reads em z) :
    |(em.roundedMantissa : ℚ) - z| ≤ 1 / 2 ∧
      (|(em.roundedMantissa : ℚ) - z| = 1 / 2 → Even em.roundedMantissa) := by
  have hstrict : ∀ n : ℕ, 2 * (n : ℚ) - 1 < 2 * z → 2 * z < 2 * n + 1 →
      |(n : ℚ) - z| ≤ 1 / 2 ∧ (|(n : ℚ) - z| = 1 / 2 → Even n) := by
    intro n hlow hhigh
    have hlt : |(n : ℚ) - z| < 1 / 2 := abs_lt.2 ⟨by linarith, by linarith⟩
    exact ⟨hlt.le, fun heq => absurd heq hlt.ne⟩
  rcases em with ⟨m, _ | _, _ | _⟩ <;>
    simp only [Reads, ExtendedMantissa.roundedMantissa, ExtendedMantissa.accuracy,
      Accuracy.roundToNearestEven, Bool.false_eq_true, if_false, if_true, Bool.toNat_false,
      Bool.toNat_true, Nat.cast_zero, Nat.cast_one] at h ⊢
  · exact hstrict m (by linarith) (by linarith)
  · exact hstrict m (by linarith) (by linarith)
  · -- the middle between two integers
    have hdigit : ((m % 2 : ℕ) : ℚ) ≤ 1 := by exact_mod_cast Nat.le_of_lt_succ (Nat.mod_lt m two_pos)
    have hdigit' : (0 : ℚ) ≤ (m % 2 : ℕ) := Nat.cast_nonneg _
    refine ⟨abs_le.2 ?_, fun _ => ?_⟩
    · push_cast
      constructor <;> linarith
    · rw [Nat.even_iff]
      omega
  · exact hstrict (m + 1) (by push_cast; linarith) (by push_cast; linarith)

/-- No integer is nearer to the number than the rounded mantissa, and if another one is as near, the rounded
mantissa is even. -/
theorem Reads.nearest (h : Reads em z) (j : ℤ) :
    |(em.roundedMantissa : ℚ) - z| ≤ |j - z| ∧
      ((j : ℚ) ≠ em.roundedMantissa → |j - z| = |(em.roundedMantissa : ℚ) - z| → Even em.roundedMantissa) := by
  obtain ⟨hhalf, heven⟩ := h.rounded
  generalize em.roundedMantissa = r at *
  by_cases hj : j = r
  · subst hj
    exact ⟨le_rfl, fun hne => absurd rfl hne⟩
  -- another integer is at least one away
  have hone : (1 : ℚ) ≤ |(j : ℚ) - r| := by
    exact_mod_cast Int.one_le_abs (sub_ne_zero.2 hj)
  have htriangle : |(j : ℚ) - r| ≤ |j - z| + |(r : ℚ) - z| := by
    rw [abs_sub_comm (r : ℚ)]
    exact abs_sub_le _ _ _
  exact ⟨by linarith, fun _ heq => heven (by linarith)⟩

end Reads

/-! ### What is rounded -/

section Rounded

variable {m k : ℕ} {e : ℤ} {a : Accuracy} {z t : ℚ} {r : ℕ} {E : ℤ}

/-- The exponent that the format gives to `m * 2 ^ e`. -/
def exponentOf (m : ℕ) (e : ℤ) : ℤ := max (m.log2 + 1 + e - 53) (-1074)

theorem targetExponent_eq (m : ℕ) (e : ℤ) :
    Format.binary64.targetExponent (totalExponent m e) = exponentOf m e := rfl

theorem log2_lt_of_lt {m k : ℕ} (hk : 0 < k) (h : m < 2 ^ k) : m.log2 < k := by
  by_cases hm : m = 0
  · subst hm
    exact hk
  · exact (Nat.log2_lt hm).2 h

/-- Where the digits of a number that are kept for rounding begin and end. -/
theorem exponentOf_bounds (hlow : (m : ℚ) ≤ z) (hhigh : z < m + 1) (hk : e + k = exponentOf m e) :
    z / 2 ^ k < 2 ^ 53 ∧ (exponentOf m e = -1074 ∨ 2 ^ 52 ≤ z / 2 ^ k) := by
  have hpos : (0 : ℚ) < 2 ^ k := by positivity
  unfold exponentOf at hk ⊢
  constructor
  · have hm : m + 1 ≤ 2 ^ (53 + k) :=
      Nat.lt_log2_self.trans_le (Nat.pow_le_pow_right two_pos (by omega : m.log2 + 1 ≤ 53 + k))
    rw [div_lt_iff₀ hpos, ← pow_add]
    exact hhigh.trans_le (by exact_mod_cast hm)
  · by_cases hleast : max (m.log2 + 1 + e - 53) (-1074) = -1074
    · exact Or.inl hleast
    · have hlog : m.log2 = 52 + k := by omega
      have hm : m ≠ 0 := by
        rintro rfl
        rw [Nat.log2_zero] at hlog
        omega
      have hleading : 2 ^ (52 + k) ≤ m := hlog ▸ Nat.log2_self_le hm
      refine Or.inr ?_
      rw [le_div_iff₀ hpos, ← pow_add]
      exact le_trans (by exact_mod_cast hleading) hlow

theorem shift_of_target_le (h : exponentOf m e ≤ e) :
    shiftToTargetExponent Format.binary64 m e .exact = (.ofMantissaAndAccuracy m .exact, e) := by
  have hk : (exponentOf m e - e).toNat = 0 := by omega
  simp only [shiftToTargetExponent, shiftToExponent, targetExponent_eq, hk]
  exact congrArg _ (add_zero e)

/-- What becomes of the rounded mantissa `r` at an exponent of the format: a carry moves it to the next
exponent. -/
inductive Settles (s : UnpackedFloat.Sign) (r : ℕ) (E : ℤ) : UnpackedFloat → Prop
  | zero (hr : r = 0) : Settles s r E (.zero s)
  | fits (hr : 0 < r) (hlt : r < 2 ^ 53) : Settles s r E (.finite s r E hr)
  | carries (hr : r = 2 ^ 53) : Settles s r E (.finite s (2 ^ 52) (E + 1) (by decide))

theorem settles_roundWithAccuracy (hk : e + k = exponentOf m e)
    (hr : r = (ExtendedMantissa.ofMantissaAndAccuracy m a >>> k).roundedMantissa) (hle : r ≤ 2 ^ 53) :
    Settles s r (exponentOf m e) (roundWithAccuracy Format.binary64 s m e a) := by
  have hfirst : shiftToTargetExponent Format.binary64 m e a =
      (ExtendedMantissa.ofMantissaAndAccuracy m a >>> k, exponentOf m e) := by
    have hshift : (exponentOf m e - e).toNat = k := by omega
    simp only [shiftToTargetExponent, shiftToExponent, targetExponent_eq, hshift, hk]
  have hleast : -1074 ≤ exponentOf m e := le_max_right _ _
  generalize exponentOf m e = E at *
  rw [roundWithAccuracy, hfirst]
  dsimp only
  rw [← hr]
  by_cases hlt : r < 2 ^ 53
  · have hlog := log2_lt_of_lt (by decide) hlt
    rw [shift_of_target_le (by unfold exponentOf; omega)]
    show Settles s r E (if h : r = 0 then .zero s else .finite s r E (Nat.pos_of_ne_zero h))
    split
    · exact .zero ‹r = 0›
    · exact .fits (Nat.pos_of_ne_zero ‹¬ r = 0›) hlt
  · obtain rfl : r = 2 ^ 53 := by omega
    have hsecond : shiftToTargetExponent Format.binary64 (2 ^ 53) E .exact =
        (.ofMantissaAndAccuracy (2 ^ 52) .exact, E + 1) := by
      have htarget : exponentOf (2 ^ 53) E = E + 1 := by
        unfold exponentOf
        rw [Nat.log2_two_pow]
        omega
      have hshift : (E + 1 - E).toNat = 1 := by omega
      simp only [shiftToTargetExponent, shiftToExponent, targetExponent_eq, htarget, hshift]
      rfl
    rw [hsecond]
    exact .carries rfl

namespace Settles

theorem toward (h : Settles s r E u) : Toward s u := by
  cases h <;> simp [Toward]

theorem isFinite (h : Settles s r E u) : u.isFinite = true := by
  cases h <;> rfl

theorem value_eq (h : Settles .positive r E u) : value u = r * 2 ^ E := by
  cases h with
  | zero hr => simp [value, hr]
  | fits hr hlt => simp [value, UnpackedFloat.Sign.apply]
  | carries hr =>
    rw [hr, value, zpow_add_one₀ two_ne_zero]
    simp only [UnpackedFloat.Sign.apply]
    push_cast
    ring

theorem evenMantissa (h : Settles s r E u) (hr : Even r) : EvenMantissa u := by
  cases h with
  | zero _ => trivial
  | fits _ _ => exact hr
  | carries _ => exact (by decide : Even (2 ^ 52))

theorem canonical (h : Settles s r E u) (hE : -1074 ≤ E) (hr : 2 ^ 52 ≤ r ∨ E = -1074)
    (hhigh : E ≤ 970 ∨ E = 971 ∧ r < 2 ^ 53) : Canonical u := by
  cases h with
  | zero _ => trivial
  | fits _ hlt => exact ⟨hlt, hE, by omega, hr⟩
  | carries heq => exact ⟨by decide, by omega, by omega, Or.inl (by decide)⟩

theorem stored_of_not (h : Settles s r E u) (hr : 0 < r) (hhigh : ¬ (E ≤ 970 ∨ E = 971 ∧ r < 2 ^ 53)) :
    stored u = .infinity s := by
  cases h with
  | zero hzero => omega
  | fits _ hlt => exact stored_of_large (by omega)
  | carries _ => exact stored_of_large (by omega)

end Settles

/-- Every number of the format is an integer in units of the last digit, or is finer, and then there is an
integer nearer to what is rounded. -/
theorem exists_integer {w : ℚ} (ht : E = -1074 ∨ 2 ^ 52 ≤ t) (hw : IsDouble w) :
    ∃ j : ℤ, |(j : ℚ) - t| ≤ |w / 2 ^ E - t| ∧ (|(j : ℚ) - t| = |w / 2 ^ E - t| → w / 2 ^ E = j) := by
  obtain ⟨M, F, hM, hlow, -, rfl⟩ := hw
  by_cases hle : E ≤ F
  · have hj : (M * 2 ^ F / 2 ^ E : ℚ) = (M * 2 ^ (F - E).toNat : ℤ) := by
      push_cast
      rw [← zpow_natCast, Int.toNat_of_nonneg (by omega), zpow_sub₀ two_ne_zero, mul_div_assoc]
    exact ⟨M * 2 ^ (F - E).toNat, by rw [hj], fun _ => hj⟩
  · have ht52 : 2 ^ 52 ≤ t := ht.resolve_left (by omega)
    have hsmall : (M * 2 ^ F / 2 ^ E : ℚ) < 2 ^ 52 := by
      have hM' : (M : ℚ) < 2 ^ 53 := by exact_mod_cast (abs_lt.1 hM).2
      have hstep : (2 : ℚ) ^ F ≤ 2 ^ (E - 1) := zpow_le_zpow_right₀ one_le_two (by omega)
      rw [div_lt_iff₀ (by positivity)]
      calc (M : ℚ) * 2 ^ F < 2 ^ 53 * 2 ^ F := mul_lt_mul_of_pos_right hM' (by positivity)
        _ ≤ 2 ^ 53 * 2 ^ (E - 1) := mul_le_mul_of_nonneg_left hstep (by positivity)
        _ = 2 ^ 52 * 2 ^ E := by
          rw [zpow_sub_one₀ two_ne_zero]
          ring
    have hnearer : |((2 ^ 52 : ℤ) : ℚ) - t| < |(M * 2 ^ F / 2 ^ E : ℚ) - t| := by
      push_cast
      rw [abs_of_nonpos (by linarith), abs_of_nonpos (by linarith)]
      linarith
    exact ⟨2 ^ 52, hnearer.le, fun heq => absurd heq hnearer.ne⟩

/-- The digits that are kept of `t * 2 ^ E` for rounding it: as many as the mantissa has, or fewer at the least
exponent of the format. -/
structure Placed (em : ExtendedMantissa) (t : ℚ) (E : ℤ) : Prop where
  reads : Reads em t
  least : -1074 ≤ E
  normal : E = -1074 ∨ 2 ^ 52 ≤ t
  lt : t < 2 ^ 53

namespace Placed

variable {em : ExtendedMantissa}

/-- Rounding overflows from `limit` on, the carry of the rounded mantissa included. -/
theorem lt_limit_iff (h : Placed em t E) :
    t * 2 ^ E < limit ↔ E ≤ 970 ∨ E = 971 ∧ em.roundedMantissa < 2 ^ 53 := by
  have hpos : (0 : ℚ) < 2 ^ E := by positivity
  have hlimit : limit = (2 ^ 53 - 1 / 2) * 2 ^ (971 : ℤ) := rfl
  have hlast : (2 : ℚ) ^ (971 : ℤ) = 2 ^ (970 : ℤ) * 2 := zpow_add_one₀ two_ne_zero 970
  have hnext : (2 : ℚ) ^ (972 : ℤ) = 2 ^ (970 : ℤ) * 2 * 2 := by
    rw [← hlast]
    exact zpow_add_one₀ two_ne_zero 971
  have hunit : (0 : ℚ) < 2 ^ (970 : ℤ) := by positivity
  have hlimits : 2 ^ 53 * 2 ^ (970 : ℤ) < limit ∧ limit ≤ 2 ^ 52 * 2 ^ (972 : ℤ) := by
    rw [hlimit, hnext, hlast]
    generalize (2 : ℚ) ^ (970 : ℤ) = unit at hunit
    constructor <;> linarith
  rcases lt_trichotomy E 971 with hE | rfl | hE
  · refine iff_of_true ?_ (Or.inl (by omega))
    have hstep : (2 : ℚ) ^ E ≤ 2 ^ (970 : ℤ) := zpow_le_zpow_right₀ one_le_two (by omega)
    calc t * 2 ^ E < 2 ^ 53 * 2 ^ E := mul_lt_mul_of_pos_right h.lt hpos
      _ ≤ 2 ^ 53 * 2 ^ (970 : ℤ) := mul_le_mul_of_nonneg_left hstep (by positivity)
      _ < limit := hlimits.1
  · obtain ⟨hhalf, heven⟩ := h.reads.rounded
    obtain ⟨hbelow, habove⟩ := abs_le.1 hhalf
    rw [hlimit, mul_lt_mul_iff_left₀ hpos]
    constructor
    · intro hsmall
      have hr : (em.roundedMantissa : ℚ) < 2 ^ 53 := by linarith
      exact Or.inr ⟨rfl, by exact_mod_cast hr⟩
    · intro hr
      have hr : em.roundedMantissa < 2 ^ 53 := by omega
      by_contra hlarge
      -- the middle itself is rounded up, as the largest mantissa is odd
      have hr' : (em.roundedMantissa : ℚ) + 1 ≤ 2 ^ 53 := by exact_mod_cast hr
      have htie := heven (by rw [abs_sub_comm, abs_of_nonneg] <;> linarith)
      have hlargest : (2 ^ 53 : ℚ) ≤ em.roundedMantissa + 1 := by linarith
      have hlargest : 2 ^ 53 ≤ em.roundedMantissa + 1 := by exact_mod_cast hlargest
      rw [Nat.even_iff] at htie
      omega
  · refine iff_of_false ?_ (by omega)
    have hstep : (2 : ℚ) ^ (972 : ℤ) ≤ 2 ^ E := zpow_le_zpow_right₀ one_le_two (by omega)
    have ht52 : 2 ^ 52 ≤ t := h.normal.resolve_left (by omega)
    rw [not_lt]
    calc limit ≤ 2 ^ 52 * 2 ^ (972 : ℤ) := hlimits.2
      _ ≤ t * 2 ^ E := mul_le_mul ht52 hstep (by positivity) (by linarith)

theorem le_roundedMantissa (h : Placed em t E) : 2 ^ 52 ≤ em.roundedMantissa ∨ E = -1074 := by
  refine h.normal.symm.imp_left fun ht52 => ?_
  have hmantissa : (2 ^ 52 : ℚ) < em.roundedMantissa + 1 := by
    have := (abs_le.1 h.reads.rounded.1).1
    linarith
  exact Nat.le_of_lt_succ (by exact_mod_cast hmantissa)

/-- Below `limit`, storing leaves what has been rounded as it is. -/
theorem stored_eq_self (h : Placed em t E) (hu : Settles s em.roundedMantissa E u)
    (hx : t * 2 ^ E < limit) : stored u = u :=
  stored_of_canonical (hu.canonical h.least h.le_roundedMantissa (h.lt_limit_iff.1 hx))

/-- What the digits of a number are rounded to is the nearest number of the format, once it is stored. -/
theorem nearest (h : Placed em t E) (hu : Settles .positive em.roundedMantissa E u) :
    Nearest (t * 2 ^ E) (stored u) := by
  have hpos : (0 : ℚ) < 2 ^ E := by positivity
  have hstored : t * 2 ^ E < limit → stored u = u := h.stored_eq_self hu
  -- distances are compared in units of the last digit
  have hscale : ∀ y : ℚ, |y - t * 2 ^ E| = |y / 2 ^ E - t| * 2 ^ E := fun y => by
    rw [← abs_of_pos hpos, ← abs_mul, abs_of_pos hpos, sub_mul, div_mul_cancel₀ y hpos.ne']
  have hvalue : value u / 2 ^ E = em.roundedMantissa := by
    rw [hu.value_eq, mul_div_cancel_right₀ _ hpos.ne']
  refine ⟨hu.toward.stored, fun hx => ?_, fun hx => ?_, fun hx w hw => ?_, fun hx w hw hne heq => ?_⟩
  · have hnormal := h.le_roundedMantissa
    have hnot := h.lt_limit_iff.not.1 (not_lt.2 hx)
    exact hu.stored_of_not (by omega) hnot
  · rw [hstored hx]
    exact hu.isFinite
  · obtain ⟨j, hj, -⟩ := exists_integer h.normal hw
    rw [hstored hx, hscale, hscale, hvalue]
    exact mul_le_mul_of_nonneg_right ((h.reads.nearest j).1.trans hj) hpos.le
  · rw [hstored hx] at hne heq ⊢
    obtain ⟨j, hj, hexact⟩ := exists_integer h.normal hw
    rw [hscale, hscale, mul_left_inj' hpos.ne', hvalue] at heq
    obtain ⟨hnear, heven⟩ := h.reads.nearest j
    have hjt : |(j : ℚ) - t| = |(em.roundedMantissa : ℚ) - t| := le_antisymm (heq ▸ hj) hnear
    refine hu.evenMantissa (heven (fun hjr => hne ?_) hjt)
    have hwj := hexact (hjt.trans heq.symm)
    rw [hu.value_eq, ← hjr, ← hwj, div_mul_cancel₀ w hpos.ne']

end Placed

/-- What is rounded of a number of which a mantissa and its accuracy are known. -/
theorem exists_placed (h : Reads (.ofMantissaAndAccuracy m a) z) (he : e ≤ exponentOf m e) :
    ∃ em t E, z * 2 ^ e = t * 2 ^ E ∧ Placed em t E ∧
      ∀ s, Settles s em.roundedMantissa E (roundWithAccuracy Format.binary64 s m e a) := by
  obtain ⟨k, hk⟩ : ∃ k : ℕ, e + k = exponentOf m e := ⟨(exponentOf m e - e).toNat, by omega⟩
  have hmantissa : (ExtendedMantissa.ofMantissaAndAccuracy m a).mantissa = m := by
    rcases a with _ | _ | _ | _ <;> rfl
  obtain ⟨hlow, hhigh⟩ := h.mem
  rw [hmantissa] at hlow hhigh
  obtain ⟨hlt, hnormal⟩ := exponentOf_bounds hlow hhigh hk
  have hread := h.shiftRight k
  have hle : (ExtendedMantissa.ofMantissaAndAccuracy m a >>> k).roundedMantissa ≤ 2 ^ 53 := by
    have hrounded := (abs_le.1 hread.rounded.1).2
    have : ((ExtendedMantissa.ofMantissaAndAccuracy m a >>> k).roundedMantissa : ℚ) < 2 ^ 53 + 1 := by
      linarith
    exact Nat.le_of_lt_succ (by exact_mod_cast this)
  have hx : z * 2 ^ e = z / 2 ^ k * 2 ^ exponentOf m e := by
    rw [← hk, zpow_add₀ two_ne_zero, zpow_natCast]
    field_simp
  exact ⟨_, _, _, hx, ⟨hread, le_max_right _ _, hnormal, hlt⟩,
    fun s => settles_roundWithAccuracy hk rfl hle⟩

theorem nearest_roundWithAccuracy (h : Reads (.ofMantissaAndAccuracy m a) z)
    (he : e ≤ exponentOf m e) :
    Nearest (z * 2 ^ e) (stored (roundWithAccuracy Format.binary64 .positive m e a)) := by
  obtain ⟨em, t, E, hx, hplaced, hu⟩ := exists_placed h he
  rw [hx]
  exact hplaced.nearest (hu .positive)

theorem isFinite_stored_roundWithAccuracy (h : Reads (.ofMantissaAndAccuracy m a) z)
    (he : e ≤ exponentOf m e) (hz : z * 2 ^ e < limit) (s : UnpackedFloat.Sign) :
    (stored (roundWithAccuracy Format.binary64 s m e a)).isFinite = true := by
  obtain ⟨em, t, E, hx, hplaced, hu⟩ := exists_placed h he
  rw [hplaced.stored_eq_self (hu s) (hx ▸ hz)]
  exact (hu s).isFinite

theorem exponentOf_shiftLeft (hm : 0 < m) (j : ℕ) : exponentOf (m <<< j) (e - j) = exponentOf m e := by
  have hlog : (m <<< j).log2 = m.log2 + j := by
    have hlow := Nat.mul_le_mul_right (2 ^ j) (Nat.log2_self_le hm.ne')
    have hhigh := Nat.mul_lt_mul_of_pos_right (Nat.lt_log2_self (n := m)) (by positivity : 0 < 2 ^ j)
    rw [← Nat.pow_add] at hlow hhigh
    rw [Nat.shiftLeft_eq, Nat.log2_eq_iff (by positivity)]
    exact ⟨hlow, by rwa [Nat.add_right_comm]⟩
  unfold exponentOf
  omega

/-- Before a number of which all digits are known is rounded, it gets as many places as the format has. -/
theorem round_eq (hm : 0 < m) (s : UnpackedFloat.Sign) :
    ∃ (m' : ℕ) (e' : ℤ), (m' * 2 ^ e' : ℚ) = m * 2 ^ e ∧ e' ≤ exponentOf m' e' ∧
      UnpackedFloat.round Format.binary64 s m e = roundWithAccuracy Format.binary64 s m' e' .exact := by
  obtain ⟨j, hj⟩ : ∃ j, j = (e - exponentOf m e).toNat := ⟨_, rfl⟩
  refine ⟨m <<< j, e - j, ?_, by rw [exponentOf_shiftLeft hm]; omega, ?_⟩
  · rw [Nat.shiftLeft_eq, zpow_sub₀ two_ne_zero, zpow_natCast]
    push_cast
    field_simp
  · simp only [UnpackedFloat.round, UnpackedFloat.decreaseExponent, targetExponent_eq, ← hj]

theorem nearest_round (hm : 0 < m) :
    Nearest (m * 2 ^ e) (stored (UnpackedFloat.round Format.binary64 .positive m e)) := by
  obtain ⟨m', e', hx, he, hround⟩ := round_eq hm .positive
  rw [hround, ← hx]
  exact nearest_roundWithAccuracy (reads_exact m') he

theorem isFinite_stored_round (hm : 0 < m) (hx : m * 2 ^ e < limit) (s : UnpackedFloat.Sign) :
    (stored (UnpackedFloat.round Format.binary64 s m e)).isFinite = true := by
  obtain ⟨m', e', hx', he, hround⟩ := round_eq (e := e) hm s
  rw [hround]
  exact isFinite_stored_roundWithAccuracy (reads_exact m') he (hx' ▸ hx) s

end Rounded

/-! ### Products and quotients -/

section Operations

variable {m m' : ℕ} {e e' : ℤ} {hm : 0 < m} {hm' : 0 < m'}

theorem le_log2_of_le {a b : ℕ} (ha : 0 < a) (hab : a ≤ b) : a.log2 ≤ b.log2 :=
  (Nat.le_log2 (by omega)).2 ((Nat.log2_self_le ha.ne').trans hab)

theorem le_exponentOf (h : 52 ≤ m.log2 ∨ e ≤ -1074) : e ≤ exponentOf m e := by
  unfold exponentOf
  omega

/-- A product is rounded to nearest if one of its factors has a leading bit in its place. -/
theorem nearest_mul (h : 52 ≤ m.log2) :
    Nearest (m * 2 ^ e * (m' * 2 ^ e'))
      (stored (mul Format.binary64 (.finite .positive m e hm) (.finite .positive m' e' hm'))) := by
  have hlog : 52 ≤ (m * m').log2 := h.trans (le_log2_of_le hm (Nat.le_mul_of_pos_right m hm'))
  have hround := nearest_roundWithAccuracy (reads_exact (m * m')) (le_exponentOf (e := e + e') (Or.inl hlog))
  have hx : ((m * m' : ℕ) : ℚ) * 2 ^ (e + e') = m * 2 ^ e * (m' * 2 ^ e') := by
    push_cast
    rw [zpow_add₀ two_ne_zero]
    ring
  rwa [hx] at hround

/-- The quotient of mantissas has enough digits for rounding. -/
theorem le_exponentOf_divCore {target : ℤ} {shift : ℕ} (hm : 0 < m) (hm' : 0 < m')
    (htarget : target ≤ Format.binary64.targetExponent (totalExponent m e - totalExponent m' e'))
    (hshift : target + shift = e - e') : target ≤ exponentOf ((m <<< shift) / m') target := by
  have hmax : Format.binary64.targetExponent (totalExponent m e - totalExponent m' e') =
      max (m.log2 + 1 + e - (m'.log2 + 1 + e') - 53) (-1074) := rfl
  rw [hmax] at htarget
  by_cases hleast : target ≤ -1074
  · exact le_exponentOf (Or.inr hleast)
  · have hplaces : m'.log2 + 1 + 52 ≤ m.log2 + shift := by omega
    have hquotient : 2 ^ 52 ≤ (m <<< shift) / m' := by
      rw [Nat.le_div_iff_mul_le hm', Nat.shiftLeft_eq]
      calc 2 ^ 52 * m' ≤ 2 ^ 52 * 2 ^ (m'.log2 + 1) := Nat.mul_le_mul_left _ Nat.lt_log2_self.le
        _ ≤ 2 ^ (m.log2 + shift) := by
          rw [← Nat.pow_add]
          exact Nat.pow_le_pow_right two_pos (by omega)
        _ ≤ m * 2 ^ shift := by
          rw [Nat.pow_add]
          exact Nat.mul_le_mul_right _ (Nat.log2_self_le hm.ne')
    exact le_exponentOf (Or.inl ((Nat.le_log2 (by omega)).2 hquotient))

/-- A quotient is rounded to nearest. -/
theorem nearest_div :
    Nearest (m * 2 ^ e / (m' * 2 ^ e'))
      (stored (div Format.binary64 (.finite .positive m e hm) (.finite .positive m' e' hm'))) := by
  obtain ⟨target, htarget⟩ : ∃ target, target = min (e - e')
    (Format.binary64.targetExponent (totalExponent m e - totalExponent m' e')) := ⟨_, rfl⟩
  obtain ⟨shift, hshift⟩ : ∃ shift, shift = (e - e' - target).toNat := ⟨_, rfl⟩
  have hplaces : target + shift = e - e' := by omega
  have hround := nearest_roundWithAccuracy (reads_fraction (m <<< shift) hm')
    (le_exponentOf_divCore hm hm' (by omega) hplaces)
  have hx : (((m <<< shift : ℕ) : ℚ) / m') * 2 ^ target = m * 2 ^ e / (m' * 2 ^ e') := by
    have he : (2 : ℚ) ^ e = 2 ^ target * 2 ^ shift * 2 ^ e' := by
      rw [← zpow_natCast, ← zpow_add₀ two_ne_zero, ← zpow_add₀ two_ne_zero]
      congr 1
      omega
    rw [Nat.shiftLeft_eq, he]
    push_cast
    field_simp
  rw [hx] at hround
  simp only [UnpackedFloat.div, divCore, ← htarget, ← hshift]
  exact hround

end Operations

end Binary64

end Overlay

import Mathlib

/-!
# Storing

A binary floating-point number, unpacked into sign, mantissa and exponent, and what is left of it when it is
stored (`stored`).  What can be read from memory has the form of the format (`canonical_unpack`); storing
leaves a number of this form as it is (`stored_of_canonical`), and never changes a sign (`Toward.stored`).
-/

namespace Overlay

namespace Binary64

open Float.Model UnpackedFloat

variable {s t : UnpackedFloat.Sign} {u v : UnpackedFloat}

/-! ### Unpacked numbers -/

/-- The number has the sign, or is a zero. -/
def Toward (s : UnpackedFloat.Sign) : UnpackedFloat → Prop
  | .notANumber => False
  | .zero _ => True
  | .infinity t => t = s
  | .finite t _ _ _ => t = s

/-- The number is not the infinity of the opposite sign. -/
def NotAgainst (s : UnpackedFloat.Sign) : UnpackedFloat → Prop
  | .notANumber => False
  | .infinity t => t = s
  | _ => True

/-- If the number is finite, its mantissa and its exponent are those that the format gives it. -/
def Canonical : UnpackedFloat → Prop
  | .finite _ m e _ => m < 2 ^ 53 ∧ -1074 ≤ e ∧ e ≤ 971 ∧ (2 ^ 52 ≤ m ∨ e = -1074)
  | _ => True

theorem isNaN_eq_false_iff : u.isNaN = false ↔ ∃ s, Toward s u := by
  cases u with
  | zero t => exact ⟨fun _ => ⟨t, trivial⟩, fun _ => rfl⟩
  | _ => simp [UnpackedFloat.isNaN, Toward]

theorem Toward.notAgainst (h : Toward s u) : NotAgainst s u := by
  cases u with
  | notANumber => exact h
  | infinity t => exact h
  | _ => trivial

theorem notAgainst_of_isFinite (h : u.isFinite = true) : NotAgainst s u := by
  cases u with
  | notANumber => cases h
  | infinity t => cases h
  | _ => trivial

theorem eq_or_eq_neg (s t : UnpackedFloat.Sign) : t = s ∨ t = -s := by
  cases s <;> cases t <;> simp <;> rfl

/-! ### Storing -/

/-- What is left of a number when it is stored. -/
def stored (u : UnpackedFloat) : UnpackedFloat := (Float.Model.pack u).unpack

theorem stored_eq (u : UnpackedFloat) :
    stored u = UnpackedFloat.unpack Format.binary64 (u.pack Format.binary64) := rfl

theorem unpack_packedInfinity (s : UnpackedFloat.Sign) :
    UnpackedFloat.unpack Format.binary64 (packedInfinity Format.binary64 s) = .infinity s := by
  simp only [UnpackedFloat.unpack, packedInfinity, unpackExponent_packComponents,
    unpackMantissa_packComponents, unpackSign_packComponents, UnpackedFloat.Sign.ofBitVec_toBitVec, if_true]
  rfl

@[simp] theorem stored_notANumber : stored .notANumber = .notANumber :=
  @unpack_packedNaN Format.binary64

@[simp] theorem stored_zero (s : UnpackedFloat.Sign) : stored (.zero s) = .zero s :=
  unpack_packedZero

@[simp] theorem stored_infinity (s : UnpackedFloat.Sign) : stored (.infinity s) = .infinity s :=
  unpack_packedInfinity s

/-- Components whose exponent is not all ones are those of a number with their sign. -/
theorem toward_packComponents {e : BitVec 11} (he : e ≠ -1#_) (m : BitVec 52) :
    Toward s (UnpackedFloat.unpack Format.binary64 (packComponents Format.binary64 s e m)) := by
  simp only [UnpackedFloat.unpack, unpackExponent_packComponents, unpackMantissa_packComponents,
    unpackSign_packComponents, UnpackedFloat.Sign.ofBitVec_toBitVec, he, if_false]
  split
  · split <;> simp [Toward]
  · rfl

theorem toward_stored_finite (m : ℕ) (e : ℤ) (hm : 0 < m) : Toward s (stored (.finite s m e hm)) := by
  have hbias : Format.exponentBias Format.binary64 = 1023 := rfl
  rw [stored_eq, UnpackedFloat.pack]
  dsimp only
  split
  · rw [unpack_packedInfinity]
    rfl
  · split
    · have hexponent : BitVec.ofNat 11 (e + Format.exponentBias Format.binary64 + 52).toNat ≠ -1#_ := by
        intro h
        have htoNat := congrArg BitVec.toNat h
        simp only [BitVec.toNat_ofNat, Nat.reducePow, BitVec.reduceNeg, Nat.mod_succ] at htoNat
        omega
      exact toward_packComponents hexponent _
    · exact toward_packComponents (by decide) _

theorem Toward.stored (h : Toward s u) : Toward s (stored u) := by
  cases u with
  | notANumber => exact h.elim
  | zero t => rwa [stored_zero]
  | infinity t => rwa [stored_infinity]
  | finite t m e hm =>
    obtain rfl : t = s := h
    exact toward_stored_finite m e hm

theorem isNaN_stored (u : UnpackedFloat) : (stored u).isNaN = u.isNaN := by
  cases h : u.isNaN with
  | true =>
    rw [isNaN_iff.1 h, stored_notANumber]
    rfl
  | false =>
    obtain ⟨s, hs⟩ := isNaN_eq_false_iff.1 h
    exact isNaN_eq_false_iff.2 ⟨s, hs.stored⟩

/-! ### The form of the format -/

theorem canonical_unpack (x : Float.Model) : Canonical x.unpack := by
  show Canonical (UnpackedFloat.unpack Format.binary64 _)
  generalize x.toBits.toBitVec = b
  fun_cases UnpackedFloat.unpack with
  | case4 mantissa exponent e sign s hones hzero hm =>
    have he : e + 1 = -1074 := by
      show (exponent.toNat : ℤ) - (1023 + 52) + 1 = -1074
      rw [hzero]
      decide
    exact ⟨mantissa.isLt.trans (by decide), by omega, by omega, Or.inr he⟩
  | case5 mantissa exponent e sign s hones hzero =>
    have hexponent : exponent.toNat < 2048 := exponent.isLt
    have hfirst : exponent.toNat ≠ 0 := fun h => hzero (BitVec.toNat_inj.1 h)
    have hlast : exponent.toNat ≠ 2047 := fun h => hones (BitVec.toNat_inj.1 h)
    have he : e = (exponent.toNat : ℤ) - (1023 + 52) := rfl
    have hmantissa : 2 ^ 52 ≤ (1#1 ++ mantissa).toNat := by
      rw [BitVec.toNat_append, ← Nat.shiftLeft_add_eq_or_of_lt mantissa.isLt]
      exact Nat.le_add_right _ _
    exact ⟨(1#1 ++ mantissa).isLt.trans_le (by decide), by omega, by omega, Or.inl hmantissa⟩
  | _ => trivial

/-- The components of a normal number.  The leading bit of the mantissa is implied by the exponent. -/
theorem unpack_normal {m k : ℕ} (hm : 2 ^ 52 ≤ m ∧ m < 2 ^ 53) (hk : 1 ≤ k ∧ k < 2047) :
    UnpackedFloat.unpack Format.binary64
        (packComponents Format.binary64 s (BitVec.ofNat 11 k) (BitVec.ofNat 52 m)) =
      .finite s m (k - 1075) (by omega) := by
  have hexponent : (BitVec.ofNat 11 k).toNat = k := by
    rw [BitVec.toNat_ofNat, Nat.mod_eq_of_lt (by omega)]
  have hones : BitVec.ofNat 11 k ≠ -1#_ := fun h => by
    have := congrArg BitVec.toNat h
    rw [hexponent] at this
    exact absurd this (by simp; omega)
  have hzero : BitVec.ofNat 11 k ≠ 0#_ := fun h => by
    have := congrArg BitVec.toNat h
    rw [hexponent] at this
    exact absurd this (by simp; omega)
  have hmantissa : (1#1 ++ BitVec.ofNat 52 m).toNat = m := by
    rw [BitVec.toNat_append, ← Nat.shiftLeft_add_eq_or_of_lt (BitVec.isLt _)]
    simp only [BitVec.toNat_ofNat, Nat.shiftLeft_eq]
    omega
  simp only [UnpackedFloat.unpack, unpackExponent_packComponents, unpackMantissa_packComponents,
    unpackSign_packComponents, UnpackedFloat.Sign.ofBitVec_toBitVec, hones, hzero, if_false, hmantissa,
    hexponent]
  rfl

/-- The components of a number below the normal ones. -/
theorem unpack_subnormal {m : ℕ} (hm : 0 < m ∧ m < 2 ^ 52) :
    UnpackedFloat.unpack Format.binary64
        (packComponents Format.binary64 s 0#11 (BitVec.ofNat 52 m)) = .finite s m (-1074) hm.1 := by
  have hmantissa : (BitVec.ofNat 52 m).toNat = m := by
    rw [BitVec.toNat_ofNat, Nat.mod_eq_of_lt hm.2]
  have hzero : BitVec.ofNat 52 m ≠ 0#_ := fun h => by
    have := congrArg BitVec.toNat h
    rw [hmantissa] at this
    exact absurd this (by simp; omega)
  have hones : 0#11 ≠ -1#_ := by decide
  simp only [UnpackedFloat.unpack, unpackExponent_packComponents, unpackMantissa_packComponents,
    unpackSign_packComponents, UnpackedFloat.Sign.ofBitVec_toBitVec, hones, hzero, if_false, if_true,
    dite_false, hmantissa]
  rfl

theorem log2_succ_eq_iff {m : ℕ} (h : m < 2 ^ 53) (hm : 0 < m) :
    m.log2 + 1 = Format.binary64.mantissaBits ↔ 2 ^ 52 ≤ m := by
  have hlt : m.log2 < 53 := (Nat.log2_lt hm.ne').2 h
  have hbits : Format.binary64.mantissaBits = 53 := rfl
  rw [← Nat.le_log2 hm.ne', hbits]
  omega

theorem stored_of_canonical_finite {m : ℕ} {e : ℤ} {hm : 0 < m} (h : Canonical (.finite s m e hm)) :
    stored (.finite s m e hm) = .finite s m e hm := by
  obtain ⟨hlt, hlow, hhigh, hform⟩ := h
  have hbias : Format.exponentBias Format.binary64 = 1023 := rfl
  rw [stored_eq, UnpackedFloat.pack]
  dsimp only
  rw [if_neg (by rw [hbias]; omega)]
  by_cases hnormal : 2 ^ 52 ≤ m
  · rw [if_pos ((log2_succ_eq_iff hlt hm).2 hnormal), unpack_normal ⟨hnormal, hlt⟩ (by rw [hbias]; omega)]
    congr
    rw [hbias]
    omega
  · have he : e = -1074 := hform.resolve_left hnormal
    subst he
    rw [if_neg ((log2_succ_eq_iff hlt hm).not.2 hnormal), unpack_subnormal ⟨hm, Nat.not_le.1 hnormal⟩]

/-- Storing leaves what has the form of the format as it is. -/
theorem stored_of_canonical (h : Canonical u) : stored u = u := by
  cases u with
  | notANumber => exact stored_notANumber
  | zero t => exact stored_zero t
  | infinity t => exact stored_infinity t
  | finite t m e hm => exact stored_of_canonical_finite h

theorem Canonical.isFinite_stored (h : Canonical u) : (stored u).isFinite = u.isFinite := by
  rw [stored_of_canonical h]

theorem stored_of_large {m : ℕ} {e : ℤ} {hm : 0 < m} (h : 971 < e) :
    stored (.finite s m e hm) = .infinity s := by
  have hbias : Format.exponentBias Format.binary64 = 1023 := rfl
  rw [stored_eq, UnpackedFloat.pack]
  dsimp only
  rw [if_pos (by rw [hbias]; omega), unpack_packedInfinity]

end Binary64

end Overlay

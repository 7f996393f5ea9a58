import Overlay.Proofs.Script.Wholes

/-!
# Where offsets lead

Seen from a base, a relative value stands for an integer (`Relative.target`).  It is resolved in two steps
that both keep to the whole numbers: the sign is applied to the amount, and the result is added to the base.
That is the target, clamped, with one exception.  The least whole number has no opposite, so where it is
taken away the first step loses one, and below a base of zero the second step shows it
(`Relative.resolve_exact_but_for_least`).
-/

namespace Overlay

namespace Relative

/-- The integer that a relative value stands for, seen from a base. -/
def target (base : ℤ) : Relative → ℤ
  | absolute n => n
  | offset .plus n => base + n
  | offset .minus n => base - n

/-- The least whole number is taken away from a base below zero. -/
def TakesLeast (base : ℤ) (v : Relative) : Prop := v = offset .minus minWhole ∧ base < 0

variable {base : ℤ} {v : Relative}

/-! ### The sign -/

theorem apply_plus {n : ℤ} (h : IsWhole n) : Sign.plus.apply n = n := clampWhole_of_isWhole h

/-- Every whole number but the least has an opposite. -/
theorem apply_minus {n : ℤ} (h : IsWhole n) (hne : n ≠ minWhole) : Sign.minus.apply n = -n := by
  apply clampWhole_of_isWhole
  simp only [IsWhole, minWhole, maxWhole] at *
  omega

theorem apply_minus_minWhole : Sign.minus.apply minWhole = -minWhole - 1 := by decide

/-! ### The sum -/

/-- A target that lies above the base by more than the greatest whole number is out of range all the same
when the base is not below zero. -/
theorem resolve_minWhole_of_nonneg (hbase : 0 ≤ base) :
    (offset .minus minWhole).resolve base = clampWhole ((offset .minus minWhole).target base) := by
  rw [resolve, apply_minus_minWhole, target]
  simp only [clampWhole, minWhole, maxWhole]
  omega

theorem resolve_of_takesLeast (hbase : IsWhole base) (h : v.TakesLeast base) :
    IsWhole (v.target base) ∧ v.resolve base = v.target base - 1 := by
  obtain ⟨rfl, hneg⟩ := h
  rw [resolve, apply_minus_minWhole, target]
  simp only [IsWhole, clampWhole, minWhole, maxWhole] at *
  omega

theorem resolve_of_not_takesLeast (hv : IsWhole v.amount) (h : ¬ v.TakesLeast base) :
    v.resolve base = clampWhole (v.target base) := by
  cases v with
  | absolute n => exact (clampWhole_of_isWhole hv).symm
  | offset s n =>
    have hn : IsWhole n := hv
    cases s with
    | plus => rw [resolve, apply_plus hn, target]
    | minus =>
      by_cases hleast : n = minWhole
      · subst hleast
        apply resolve_minWhole_of_nonneg
        by_contra hneg
        exact h ⟨rfl, Int.not_le.1 hneg⟩
      · rw [resolve, apply_minus hn hleast, target, Int.sub_eq_add_neg]

theorem resolve_eq_clampWhole_iff (hv : IsWhole v.amount) (hbase : IsWhole base) :
    v.resolve base = clampWhole (v.target base) ↔ ¬ v.TakesLeast base := by
  constructor
  · intro heq hleast
    obtain ⟨hwhole, hshort⟩ := resolve_of_takesLeast hbase hleast
    rw [clampWhole_of_isWhole hwhole] at heq
    omega
  · exact resolve_of_not_takesLeast hv

/-! ### Tokens -/

theorem isWhole_amount_value (t : RelativeText) : IsWhole t.value.amount := by
  rw [t.amount_value, WholeText.value_eq_clampWhole_number]
  exact isWhole_clampWhole _

/-- A token takes the least whole number away if it has two minuses, apart, and enough digits. -/
theorem takesLeast_value_iff (t : RelativeText) :
    t.value.TakesLeast base ↔ t.sign = some .minus ∧ t.number.number ≤ minWhole ∧ base < 0 := by
  have hamount : t.number.value = minWhole ↔ t.number.number ≤ minWhole := by
    rw [WholeText.value_eq_clampWhole_number]
    simp only [clampWhole, minWhole, maxWhole]
    omega
  unfold TakesLeast RelativeText.value
  cases t.sign with
  | none => simp
  | some s => simp [hamount, and_assoc]

/-- Take any base.  A relative value resolves to the integer it stands for, clamped, exactly if it does not
take the least whole number away from a base below zero; if it does, that integer is a whole number, and it
resolves to one less.  A token says such a value exactly if it has a minus and after it, with a minus of its
own, a number at or below the least whole number. -/
theorem resolve_exact_but_for_least (hbase : IsWhole base) :
    (∀ v : Relative, IsWhole v.amount →
      (v.resolve base = clampWhole (v.target base) ↔ ¬ v.TakesLeast base) ∧
      (v.TakesLeast base → IsWhole (v.target base) ∧ v.resolve base = v.target base - 1)) ∧
    ∀ t : RelativeText, IsWhole t.value.amount ∧
      (t.value.TakesLeast base ↔ t.sign = some .minus ∧ t.number.number ≤ minWhole ∧ base < 0) :=
  ⟨fun _ hv => ⟨resolve_eq_clampWhole_iff hv hbase, resolve_of_takesLeast hbase⟩,
    fun t => ⟨isWhole_amount_value t, takesLeast_value_iff t⟩⟩

/-- A minus, a gap and a number far below the least whole number. -/
def farBelowAfterMinus : RelativeText where
  blanks := ['\t']
  sign := some .minus
  number :=
    { blanks := [' ', ' '], sign := some .minus, digits := "99999999999".toList, rest := ['.']
      isBlank_of_mem := List.all_eq_true.1 (by decide)
      isDigit_of_mem := List.all_eq_true.1 (by decide +kernel)
      digits_ne_nil := by decide +kernel
      isDigit_of_head? := by
        intro c hc
        obtain rfl : '.' = c := Option.some.inj hc
        rfl }
  isBlank_of_mem := List.all_eq_true.1 (by decide)
  no_gap hnone := by cases hnone
  no_second_sign hnil := by cases hnil

/-- From the base -7 it leads one short of its target, and the greatest offset leads to its own. -/
theorem offsets_from_minus_seven :
    farBelowAfterMinus.chars = "\t-  -99999999999.".toList ∧
      farBelowAfterMinus.value.resolve (-7) = 2147483640 ∧
      farBelowAfterMinus.value.target (-7) = 2147483641 ∧
      (offset .plus maxWhole).resolve (-7) = clampWhole (-7 + maxWhole) := by
  obtain ⟨hvalues, htokens⟩ := resolve_exact_but_for_least (by decide : IsWhole (-7))
  obtain ⟨hwhole, hleast⟩ := htokens farBelowAfterMinus
  have htakes : farBelowAfterMinus.value.TakesLeast (-7) := hleast.2 (by decide +kernel)
  have htarget : farBelowAfterMinus.value.target (-7) = 2147483641 := by decide +kernel
  obtain ⟨-, hshort⟩ := (hvalues _ hwhole).2 htakes
  refine ⟨by decide +kernel, ?_, htarget, (hvalues (offset .plus maxWhole) (by decide)).1.2 ?_⟩
  · rw [hshort, htarget]
    rfl
  · rintro ⟨hne, -⟩
    cases hne

/-- An offset that resolves to one less than the whole number it stands for. -/
theorem one_short_of_target :
    Line.parse "next=- -2147483648,0" = .ok { name := "next", tokens := ["- -2147483648", "0"] } ∧
    ({ name := "next", tokens := ["- -2147483648", "0"] } : Line).relative 0 =
      .ok (some (offset .minus (-2147483648))) ∧
    IsWhole (offset .minus (-2147483648)).amount ∧ IsWhole (-1) ∧
    (offset .minus (-2147483648)).resolve (-1) = 2147483646 ∧
    clampWhole ((offset .minus (-2147483648)).target (-1)) = 2147483647 := by
  decide +kernel

end Relative

end Overlay

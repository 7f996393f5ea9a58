import Mathlib.Algebra.Group.Nat.Even
import Overlay.Clock

/-!
# The cadence of blinking

The host counts a tick on the blink switch for as long as a game runs.  The rhythm that is meant is a
change every `period` ticks (`InTime`).  The count of the switch is a 32-bit word, so after 2 ^ 32 ticks it
is zero again, and zero is a multiple of every period: the switch changes over once more there, and the
next change is a whole period later.  Between two overflows the rhythm is the one that is meant, which
gives the number of changes after any number of ticks (`changeCount`).  From it, `cadence` says for how long
the switch is in time: until the first overflow, and for ever exactly if the period divides 2 ^ 32.
-/

namespace Overlay

namespace Blink

variable {period : UInt32}

/-! ### Runs of ticks -/

/-- The switch after so many ticks from the beginning. -/
def after (period : UInt32) : ℕ → Blink
  | 0 => initial
  | n + 1 => ((after period n).advance period).1

/-- Whether the switch changes over at a tick, where the first tick has the number one. -/
def changesAt (period : UInt32) : ℕ → Bool
  | 0 => false
  | n + 1 => ((after period n).advance period).2

theorem advance_of_dvd (hp : period ≠ 0) {b : Blink} (h : (b.ticks + 1) % period = 0) :
    b.advance period = (⟨!b.primary, b.ticks + 1⟩, true) := by
  simp [advance, toggle, hp, h]

theorem advance_of_not_dvd (hp : period ≠ 0) {b : Blink} (h : (b.ticks + 1) % period ≠ 0) :
    b.advance period = (⟨b.primary, b.ticks + 1⟩, false) := by
  simp [advance, hp, h]

theorem advance_ticks (hp : period ≠ 0) (b : Blink) : (b.advance period).1.ticks = b.ticks + 1 := by
  by_cases h : (b.ticks + 1) % period = 0
  · rw [advance_of_dvd hp h]
  · rw [advance_of_not_dvd hp h]

theorem advance_primary (b : Blink) :
    (b.advance period).1.primary = (b.primary ^^ (b.advance period).2) := by
  by_cases hp : period = 0
  · simp [advance, hp]
  · by_cases h : (b.ticks + 1) % period = 0
    · rw [advance_of_dvd hp h, Bool.xor_true]
    · rw [advance_of_not_dvd hp h, Bool.xor_false]

theorem toNat_pos (hp : period ≠ 0) : 0 < period.toNat := by
  refine Nat.pos_of_ne_zero fun h => hp ?_
  exact UInt32.toNat_inj.1 h

/-- The count is the number of ticks, as far as a word tells. -/
theorem toNat_ticks_after (hp : period ≠ 0) (n : ℕ) :
    (after period n).ticks.toNat = n % UInt32.size := by
  induction n with
  | zero => rfl
  | succ n ih =>
    rw [after, advance_ticks hp, UInt32.toNat_add, ih]
    simp only [UInt32.size, UInt32.toNat_one]
    omega

theorem ticks_mod_eq_zero_iff (hp : period ≠ 0) (n : ℕ) :
    ((after period n).ticks + 1) % period = 0 ↔ period.toNat ∣ (n + 1) % UInt32.size := by
  have hcount := toNat_ticks_after hp (n + 1)
  rw [after, advance_ticks hp] at hcount
  rw [← UInt32.toNat_inj, UInt32.toNat_mod, hcount]
  exact (Nat.dvd_iff_mod_eq_zero ..).symm

/-- The switch changes over where the count, which overflows, is a multiple of the period. -/
theorem changesAt_iff (hp : period ≠ 0) {n : ℕ} (hn : 0 < n) :
    changesAt period n = true ↔ period.toNat ∣ n % UInt32.size := by
  cases n with
  | zero => exact absurd hn (Nat.lt_irrefl 0)
  | succ n =>
    rw [← ticks_mod_eq_zero_iff hp, changesAt]
    by_cases h : ((after period n).ticks + 1) % period = 0
    · simp [advance_of_dvd hp h, h]
    · simp [advance_of_not_dvd hp h, h]

/-! ### The number of changes -/

/-- How often the switch has changed over after `n` ticks: once for every multiple of the period that a
word can count, once for every overflow, and since the last overflow once every period. -/
def changeCount (period n : ℕ) : ℕ :=
  n / UInt32.size * ((UInt32.size - 1) / period + 1) + n % UInt32.size / period

theorem changeCount_succ (period n : ℕ) :
    changeCount period (n + 1) =
      changeCount period n + if period ∣ (n + 1) % UInt32.size then 1 else 0 := by
  have hsize : 0 < UInt32.size := by decide
  unfold changeCount
  by_cases h : UInt32.size ∣ n + 1
  · -- the tick at which the count overflows ends a round of all multiples that a word can count
    obtain ⟨k, hk⟩ := h
    have hmod : (n + 1) % UInt32.size = 0 := by rw [hk, Nat.mul_mod_right]
    have hdiv : (n + 1) / UInt32.size = n / UInt32.size + 1 := by
      rw [Nat.succ_div, if_pos ⟨k, hk⟩]
    have hlast : n % UInt32.size = UInt32.size - 1 := by
      simp only [UInt32.size] at hmod ⊢
      omega
    rw [hmod, hdiv, hlast, if_pos (Nat.dvd_zero _), Nat.zero_div, Nat.add_mul]
    omega
  · have hdiv : (n + 1) / UInt32.size = n / UInt32.size := by
      rw [Nat.succ_div, if_neg h, Nat.add_zero]
    have hmod : (n + 1) % UInt32.size = n % UInt32.size + 1 := by
      rw [Nat.dvd_iff_mod_eq_zero] at h
      simp only [UInt32.size] at h ⊢
      omega
    rw [hdiv, hmod, Nat.succ_div, Nat.add_assoc]

/-- The primary image is shown after an even number of changes. -/
theorem primary_after_iff (hp : period ≠ 0) (n : ℕ) :
    (after period n).primary = true ↔ Even (changeCount period.toNat n) := by
  induction n with
  | zero => simp [after, initial, changeCount]
  | succ n ih =>
    rw [changeCount_succ, after, advance_primary]
    have hchange := changesAt_iff hp (Nat.succ_pos n)
    rw [changesAt] at hchange
    cases h : ((after period n).advance period).2 with
    | true =>
      rw [h] at hchange
      rw [if_pos (hchange.1 rfl), Nat.even_add_one, ← ih, Bool.xor_true]
      simp
    | false =>
      rw [h] at hchange
      rw [if_neg fun hd => Bool.false_ne_true (hchange.2 hd), Nat.add_zero, ← ih, Bool.xor_false]

/-! ### In time -/

/-- The switch is in time after `n` ticks: it has changed over every `period` ticks, and tick number `n`
was no exception. -/
def InTime (period : UInt32) (n : ℕ) : Prop :=
  ((after period n).primary = true ↔ Even (n / period.toNat)) ∧
    (0 < n → (changesAt period n = true ↔ period.toNat ∣ n))

theorem changeCount_of_lt {period n : ℕ} (h : n < UInt32.size) : changeCount period n = n / period := by
  rw [changeCount, Nat.div_eq_of_lt h, Nat.mod_eq_of_lt h, Nat.zero_mul, Nat.zero_add]

/-- If a whole number of periods fits between two overflows, the rhythm goes on over them. -/
theorem changeCount_of_dvd {period : ℕ} (hp : 0 < period) (h : period ∣ UInt32.size) (n : ℕ) :
    changeCount period n = n / period := by
  obtain ⟨k, hk⟩ := h
  have hround : (UInt32.size - 1) / period + 1 = k := by
    have hpos : 0 < k := Nat.pos_of_ne_zero fun h0 => by simp [h0, UInt32.size] at hk
    have hlast : UInt32.size - 1 = period * (k - 1) + (period - 1) := by
      rw [hk, Nat.mul_sub_one]
      have := Nat.le_mul_of_pos_right period hpos
      omega
    rw [hlast, Nat.mul_add_div hp, Nat.div_eq_of_lt (by omega)]
    omega
  have hwhole : period * (n / UInt32.size * k) = UInt32.size * (n / UInt32.size) := by
    rw [Nat.mul_left_comm, ← hk, Nat.mul_comm]
  calc changeCount period n = n / UInt32.size * k + n % UInt32.size / period := by
        rw [changeCount, hround]
    _ = (period * (n / UInt32.size * k) + n % UInt32.size) / period := by rw [Nat.mul_add_div hp]
    _ = n / period := by rw [hwhole, Nat.div_add_mod]

/-- The switch is in time where the count does not matter but as the number of ticks. -/
theorem inTime_of_changeCount (hp : period ≠ 0) {n : ℕ}
    (hcount : changeCount period.toNat n = n / period.toNat)
    (hdvd : period.toNat ∣ n % UInt32.size ↔ period.toNat ∣ n) : InTime period n := by
  constructor
  · rw [primary_after_iff hp, hcount]
  · intro hn
    rw [changesAt_iff hp hn, hdvd]

theorem inTime_of_lt (hp : period ≠ 0) {n : ℕ} (h : n < UInt32.size) : InTime period n :=
  inTime_of_changeCount hp (changeCount_of_lt h) (by rw [Nat.mod_eq_of_lt h])

theorem inTime_of_dvd (hp : period ≠ 0) (h : period.toNat ∣ UInt32.size) (n : ℕ) : InTime period n :=
  inTime_of_changeCount hp (changeCount_of_dvd (toNat_pos hp) h n) (Nat.dvd_mod_iff h)

/-- The switch changes over when the count overflows, whatever the period. -/
theorem changesAt_size (hp : period ≠ 0) : changesAt period UInt32.size = true :=
  (changesAt_iff hp (by decide)).2 (by rw [Nat.mod_self]; exact Nat.dvd_zero _)

/-- Take any period but zero, and any number of ticks.  The primary image is shown after an even number of
changes, and a tick changes the switch over exactly if its number, less the ticks that were counted before
the last overflow, is a multiple of the period.  So the switch is in time as long as the count has not
overflown, and it is in time for ever exactly if the period divides the number of ticks that a word can
count. -/
theorem cadence (hp : period ≠ 0) :
    (∀ n, ((after period n).primary = true ↔ Even (changeCount period.toNat n)) ∧
      (0 < n → (changesAt period n = true ↔ period.toNat ∣ n % UInt32.size))) ∧
    (∀ n < UInt32.size, InTime period n) ∧
    ((∀ n, InTime period n) ↔ period.toNat ∣ UInt32.size) := by
  refine ⟨fun n => ⟨primary_after_iff hp n, fun hn => changesAt_iff hp hn⟩,
    fun n hn => inTime_of_lt hp hn, fun h => ?_, inTime_of_dvd hp⟩
  obtain ⟨-, hchange⟩ := h UInt32.size
  exact (hchange (by decide)).1 (changesAt_size hp)

/-- A period of 30 ticks is kept for 2 ^ 32 ticks, and not for ever. -/
theorem cadence_of_thirty :
    (∀ n < UInt32.size, InTime 30 n) ∧ ¬ ∀ n, InTime 30 n := by
  have hp : (30 : UInt32) ≠ 0 := by decide
  obtain ⟨-, hbefore, hever⟩ := cadence hp
  exact ⟨hbefore, fun h => absurd (hever.1 h) (by decide)⟩

/-- With a period of 30 ticks the switch changes over at tick number 2 ^ 32, which is no multiple of 30. -/
theorem out_of_time_at_overflow : ¬ InTime 30 4294967296 := by
  rintro ⟨-, hchange⟩
  have hdvd := (hchange (by decide)).1 (changesAt_size (by decide))
  exact absurd hdvd (by decide)

end Blink

end Overlay

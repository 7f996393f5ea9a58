import Overlay.Clock

/-!
# What clocks count

A clock keeps a span of 32 bits, the sum of its ticks is any natural number.  `Counts m n` says that the
span is the sum as far as a span goes.  Comparing the span with a bound is then the same as comparing
the sum (`Counts.le_iff`, `Counts.lt_iff`), however long the sum has become; so a countdown fires, and a
window is open, exactly when the sum says so.
-/

namespace Overlay

/-- The span `m` is the sum `n`, or the longest span where the sum is longer. -/
def Millis.Counts (m : Millis) (n : Nat) : Prop := m.toNat = min n (UInt32.size - 1)

namespace Millis

theorem counts_zero : Counts 0 0 := rfl

theorem toNat_le_size (m : Millis) : m.toNat ≤ UInt32.size - 1 := Nat.le_sub_one_of_lt m.toNat_lt_size

variable {m : Millis} {n : Nat}

theorem Counts.plus (h : m.Counts n) (e : Millis) : (m.plus e).Counts (n + e.toNat) := by
  have he := toNat_le_size e
  unfold Counts at *
  rw [toNat_plus, h]
  omega

theorem Counts.le_iff (h : m.Counts n) (d : Millis) : d ≤ m ↔ d.toNat ≤ n := by
  have hd := toNat_le_size d
  unfold Counts at h
  rw [UInt32.le_iff_toNat_le, h]
  omega

theorem Counts.lt_iff (h : m.Counts n) (d : Millis) : m < d ↔ n < d.toNat := by
  have hd := toNat_le_size d
  unfold Counts at h
  rw [UInt32.lt_iff_toNat_lt, h]
  omega

end Millis

/-! ### Countdowns -/

namespace Countdown

/-- A countdown of `duration` that has not fired after `n` milliseconds. -/
structure Counting (c : Countdown) (duration : Millis) (n : Nat) : Prop where
  duration : c.duration = duration
  elapsed : c.elapsed.Counts n
  notFired : c.fired = false

variable {c : Countdown} {duration : Millis} {n : Nat}

theorem counting_ofDuration (duration : Millis) : (ofDuration duration).Counting duration 0 :=
  ⟨rfl, Millis.counts_zero, rfl⟩

theorem Counting.start (h : c.Counting duration n) :
    c.start.Counting duration n ∧ c.start.running = true := by
  have e : c.start = { c with running := true } := by simp [Countdown.start, h.notFired]
  rw [e]
  exact ⟨⟨h.duration, h.elapsed, h.notFired⟩, rfl⟩

theorem Counting.stop (h : c.Counting duration n) :
    c.stop.Counting duration n ∧ c.stop.running = false :=
  ⟨⟨h.duration, h.elapsed, h.notFired⟩, rfl⟩

theorem tick_of_le {e : Millis} (hr : c.running = true) (h : c.duration ≤ c.elapsed.plus e) :
    c.tick e = ({ c with elapsed := c.elapsed.plus e, running := false, fired := true }, true) := by
  simp [tick, hr, h]

theorem tick_of_not_le {e : Millis} (hr : c.running = true) (h : ¬ c.duration ≤ c.elapsed.plus e) :
    c.tick e = ({ c with elapsed := c.elapsed.plus e }, false) := by
  simp [tick, hr, h]

/-- A tick fires a running countdown exactly if the sum reaches the duration. -/
theorem Counting.tick_eq_true_iff (h : c.Counting duration n) (hr : c.running = true) (e : Millis) :
    (c.tick e).2 = true ↔ duration.toNat ≤ n + e.toNat := by
  rw [← (h.elapsed.plus e).le_iff, ← h.duration]
  by_cases hd : c.duration ≤ c.elapsed.plus e
  · simp [tick_of_le hr hd, hd]
  · simp [tick_of_not_le hr hd, hd]

/-- A tick that does not fire is counted. -/
theorem Counting.tick (h : c.Counting duration n) (hr : c.running = true) {e : Millis}
    (hn : (c.tick e).2 = false) :
    (c.tick e).1.Counting duration (n + e.toNat) ∧ (c.tick e).1.running = true := by
  by_cases hd : c.duration ≤ c.elapsed.plus e
  · simp [tick_of_le hr hd] at hn
  · rw [tick_of_not_le hr hd]
    exact ⟨⟨h.duration, h.elapsed.plus e, h.notFired⟩, hr⟩

end Countdown

/-! ### Windows -/

namespace Window

/-- Whether the sum `n` lies between the bounds. -/
def Within (start : Millis) (finish : Option Millis) (n : Nat) : Prop :=
  start.toNat ≤ n ∧ ∀ f, finish = some f → n < f.toNat

/-- A window with these bounds whose clock has counted `n` milliseconds. -/
structure Counting (w : Window) (start : Millis) (finish : Option Millis) (n : Nat) : Prop where
  start : w.start = start
  finish : w.finish = finish
  elapsed : w.elapsed.Counts n

variable {w : Window} {start : Millis} {finish : Option Millis} {n : Nat}

theorem Counting.isOpen_iff (h : w.Counting start finish n) :
    w.isOpen = true ↔ Within start finish n := by
  rw [Within, ← h.elapsed.le_iff, ← h.start, ← h.finish, isOpen, Bool.and_eq_true, decide_eq_true_eq]
  cases hf : w.finish with
  | none => simp
  | some f => simp [← h.elapsed.lt_iff]

theorem Counting.resume (h : w.Counting start finish n) : w.resume.Counting start finish n :=
  ⟨h.start, h.finish, h.elapsed⟩

theorem Counting.pause (h : w.Counting start finish n) : w.pause.Counting start finish n :=
  ⟨h.start, h.finish, h.elapsed⟩

theorem Counting.tick (h : w.Counting start finish n) (hr : w.running = true) (e : Millis) :
    (w.tick e).1.Counting start finish (n + e.toNat) ∧ (w.tick e).1.running = true ∧
      (w.tick e).2 = w.isOpen := by
  rw [Window.tick, if_pos hr]
  exact ⟨⟨h.start, h.finish, h.elapsed.plus e⟩, hr, rfl⟩

end Window

end Overlay

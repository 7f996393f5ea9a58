/-!
# Clocks

The host reports how many milliseconds have passed, and everything that happens later is a count of
them in 32-bit words: a countdown fires once, when the time it ran for reaches its duration, and a
window is open for a stretch of running time.  The blink switch counts the ticks of the host instead.

A sum of spans that does not fit stops at the longest span there is, and a difference never falls
below zero; `Millis.toNat_plus` and `Millis.toNat_minus` say so in natural numbers.
-/

namespace Overlay

/-! ### Spans of time -/

abbrev Millis := UInt32

/-- The sum of two spans, or the longest span where the sum is longer. -/
def Millis.plus (a b : Millis) : Millis :=
  if a.toNat + b.toNat < UInt32.size then a + b else .ofNat (UInt32.size - 1)

/-- The span by which `a` exceeds `b`, zero if it does not. -/
def Millis.minus (a b : Millis) : Millis := if b ≤ a then a - b else 0

theorem Millis.toNat_plus (a b : Millis) :
    (a.plus b).toNat = min (a.toNat + b.toNat) (UInt32.size - 1) := by
  unfold Millis.plus
  split <;> rename_i h
  · rw [UInt32.toNat_add, Nat.mod_eq_of_lt h]
    simp only [UInt32.size] at *
    omega
  · rw [UInt32.toNat_ofNat_of_lt' (by decide)]
    simp only [UInt32.size] at *
    omega

theorem Millis.toNat_minus (a b : Millis) : (a.minus b).toNat = a.toNat - b.toNat := by
  unfold Millis.minus
  split <;> rename_i h
  · exact UInt32.toNat_sub_of_le _ _ h
  · rw [UInt32.le_iff_toNat_le] at h
    simp only [UInt32.toNat_zero]
    omega

/-! ### Countdowns -/

/-- A countdown that fires at most once. -/
structure Countdown where
  duration : Millis
  elapsed : Millis := 0
  running : Bool := false
  fired : Bool := false
  deriving DecidableEq, Repr

namespace Countdown

def ofDuration (duration : Millis) : Countdown := { duration }

/-- Starts or resumes; a countdown that has fired stays at rest. -/
def start (c : Countdown) : Countdown := if c.fired then c else { c with running := true }

/-- Pauses, keeping the time counted so far. -/
def stop (c : Countdown) : Countdown := { c with running := false }

/-- Time passes; the result says whether the countdown fires now. -/
def tick (c : Countdown) (e : Millis) : Countdown × Bool :=
  if c.running then
    let elapsed := c.elapsed.plus e
    if c.duration ≤ elapsed then ({ c with elapsed, running := false, fired := true }, true)
    else ({ c with elapsed }, false)
  else (c, false)

def remaining (c : Countdown) : Millis := c.duration.minus c.elapsed

end Countdown

/-! ### Windows -/

/-- A stretch of running time: from `start` on, and before `finish` if there is one.  Its clock counts
only while it runs. -/
structure Window where
  start : Millis := 0
  finish : Option Millis := none
  elapsed : Millis := 0
  running : Bool := false
  deriving DecidableEq, Repr

namespace Window

def ofBounds (start : Millis) (finish : Option Millis) : Window := { start, finish }

def resume (w : Window) : Window := { w with running := true }

/-- Pauses, keeping the time counted so far. -/
def pause (w : Window) : Window := { w with running := false }

/-- Whether the time counted so far lies in the window. -/
def isOpen (w : Window) : Bool :=
  decide (w.start ≤ w.elapsed) &&
    match w.finish with
    | none => true
    | some finish => decide (w.elapsed < finish)

/-- Time passes; the result says whether the window runs and was open before the time was added. -/
def tick (w : Window) (e : Millis) : Window × Bool :=
  if w.running then ({ w with elapsed := w.elapsed.plus e }, w.isOpen) else (w, false)

end Window

/-! ### The blink switch -/

/-- The switch: which image is shown, and the ticks counted so far.  Pictures with two images alternate
between them, all at the same moment, so that there is one switch for all. -/
structure Blink where
  primary : Bool := true
  ticks : UInt32 := 0
  deriving DecidableEq, Repr

namespace Blink

/-- The switch at the beginning: primary image, no ticks. -/
def initial : Blink := {}

def toggle (b : Blink) : Blink := { b with primary := !b.primary }

/-- One tick of the host; the result says whether the switch changed over, as it does whenever the
count is a multiple of the period.  With period zero ticks are not even counted. -/
def advance (b : Blink) (period : UInt32) : Blink × Bool :=
  if period = 0 then (b, false)
  else
    let b := { b with ticks := b.ticks + 1 }
    if b.ticks % period = 0 then (b.toggle, true) else (b, false)

end Blink

end Overlay

import Mathlib.Data.List.Infix
import Overlay.Proofs.Clock.Counting

/-!
# When a countdown fires

A countdown is started and stopped, and ticks reach it, in any order and any number (`Countdown.Op`).  The
ticks that reach it while it runs add up to its `runningTime`, a natural number, while the countdown itself
keeps a span of 32 bits.  `Traced` says how the state of a countdown follows from the operations so far;
every operation keeps it, so it holds after every run (`traced_after`).  From it, `fires_once_on_time` says
when a tick fires the countdown, that this happens once, and how much time is left.
-/

namespace Overlay

namespace Countdown

/-! ### Runs -/

/-- What can happen to a countdown. -/
inductive Op
  | start
  | stop
  | tick (e : Millis)
  deriving DecidableEq, Repr

/-- The countdown after an operation, and whether it fires in it. -/
def perform (c : Countdown) : Op → Countdown × Bool
  | .start => (c.start, false)
  | .stop => (c.stop, false)
  | .tick e => c.tick e

/-- The countdown after a list of operations. -/
def after (c : Countdown) : List Op → Countdown
  | [] => c
  | op :: ops => (c.perform op).1.after ops

/-- The milliseconds that an operation brings. -/
def Op.span : Op → ℕ
  | tick e => e.toNat
  | _ => 0

/-- The sum of the ticks that come while the countdown runs. -/
def runningTime (c : Countdown) : List Op → ℕ
  | [] => 0
  | op :: ops => (if c.running then op.span else 0) + (c.perform op).1.runningTime ops

/-- Whether a countdown that was switched `on` or off before is on after the operation. -/
def Op.switch (on : Bool) : Op → Bool
  | start => true
  | stop => false
  | tick _ => on

/-- Whether the last of all starts and stops is a start. -/
def switchedOn (ops : List Op) : Bool := ops.foldl Op.switch false

theorem after_append (c : Countdown) (xs ys : List Op) : c.after (xs ++ ys) = (c.after xs).after ys := by
  induction xs generalizing c with
  | nil => rfl
  | cons op xs ih => exact ih _

theorem after_concat (c : Countdown) (ops : List Op) (op : Op) :
    c.after (ops ++ [op]) = ((c.after ops).perform op).1 := after_append c ops [op]

theorem runningTime_concat (c : Countdown) (ops : List Op) (op : Op) :
    c.runningTime (ops ++ [op]) =
      c.runningTime ops + if (c.after ops).running then op.span else 0 := by
  induction ops generalizing c with
  | nil => exact Nat.add_comm _ _
  | cons x ops ih => rw [List.cons_append, runningTime, ih, runningTime, after, Nat.add_assoc]

/-! ### Due ticks -/

variable {d : Millis} {ops : List Op} {c : Countdown}

/-- After `ops`, a new countdown of duration `d` runs, and a tick of `e` milliseconds would bring its
running time up to the duration. -/
def Due (d : Millis) (ops : List Op) (e : Millis) : Prop :=
  ((ofDuration d).after ops).running = true ∧ d.toNat ≤ (ofDuration d).runningTime ops + e.toNat

/-- Among the operations is a tick that was due when it came. -/
def Expired (d : Millis) (ops : List Op) : Prop := ∃ xs e, xs ++ [.tick e] <+: ops ∧ Due d xs e

theorem not_expired_nil : ¬ Expired d [] := by
  rintro ⟨xs, e, h, -⟩
  simp at h

theorem expired_concat_iff (op : Op) :
    Expired d (ops ++ [op]) ↔ Expired d ops ∨ ∃ e, op = .tick e ∧ Due d ops e := by
  constructor
  · rintro ⟨xs, e, h, hdue⟩
    rcases List.prefix_concat_iff.1 h with h | h
    · obtain ⟨rfl, hop⟩ := List.append_inj' h rfl
      exact Or.inr ⟨e, (List.cons.inj hop).1.symm, hdue⟩
    · exact Or.inl ⟨xs, e, h, hdue⟩
  · rintro (⟨xs, e, h, hdue⟩ | ⟨e, rfl, hdue⟩)
    · exact ⟨xs, e, h.trans (List.prefix_append ops [op]), hdue⟩
    · exact ⟨ops, e, List.prefix_rfl, hdue⟩

/-! ### What operations keep -/

/-- How the state of a countdown of duration `d` follows from the operations so far. -/
structure Traced (d : Millis) (ops : List Op) (c : Countdown) : Prop where
  duration : c.duration = d
  elapsed : c.elapsed.Counts ((ofDuration d).runningTime ops)
  running : c.running = (switchedOn ops && !c.fired)
  fired : c.fired = true ↔ Expired d ops

theorem traced_ofDuration (d : Millis) : Traced d [] (ofDuration d) where
  duration := rfl
  elapsed := Millis.counts_zero
  running := rfl
  fired := iff_of_false Bool.false_ne_true not_expired_nil

theorem switchedOn_concat (ops : List Op) (op : Op) :
    switchedOn (ops ++ [op]) = op.switch (switchedOn ops) := List.foldl_concat ..

/-- A running countdown has not fired. -/
theorem Traced.not_fired (h : Traced d ops c) (hr : c.running = true) : c.fired = false := by
  rw [h.running, Bool.and_eq_true, Bool.not_eq_true'] at hr
  exact hr.2

theorem Traced.counting (h : Traced d ops c) (hr : c.running = true) :
    c.Counting d ((ofDuration d).runningTime ops) :=
  ⟨h.duration, h.elapsed, h.not_fired hr⟩

theorem Traced.start (h : Traced d ops c) : Traced d (ops ++ [.start]) c.start where
  duration := by rw [Countdown.start, apply_ite Countdown.duration, ite_self, h.duration]
  elapsed := by
    rw [Countdown.start, apply_ite Countdown.elapsed, ite_self, runningTime_concat]
    simpa [Op.span] using h.elapsed
  running := by
    rw [switchedOn_concat, Op.switch, Bool.true_and]
    cases hf : c.fired with
    | true => simp [Countdown.start, hf, h.running]
    | false => simp [Countdown.start, hf]
  fired := by
    rw [Countdown.start, apply_ite Countdown.fired, ite_self, h.fired, expired_concat_iff]
    simp

theorem Traced.stop (h : Traced d ops c) : Traced d (ops ++ [.stop]) c.stop where
  duration := h.duration
  elapsed := by
    rw [Countdown.stop, runningTime_concat]
    simpa [Op.span] using h.elapsed
  running := by rw [switchedOn_concat, Op.switch, Bool.false_and, Countdown.stop]
  fired := by
    rw [Countdown.stop, h.fired, expired_concat_iff]
    simp

/-- A tick that comes while the countdown rests is not heard. -/
theorem Traced.tick_of_rest (h : Traced d ops ((ofDuration d).after ops)) (e : Millis)
    (hr : ((ofDuration d).after ops).running = false) :
    Traced d (ops ++ [.tick e]) ((ofDuration d).after ops) where
  duration := h.duration
  elapsed := by
    rw [runningTime_concat, hr]
    exact h.elapsed
  running := by rw [switchedOn_concat, h.running, Op.switch]
  fired := by
    rw [expired_concat_iff, h.fired]
    simp [Due, hr]

/-- A tick that comes while the countdown runs is counted, and fires it if it is due. -/
theorem Traced.tick_of_running (h : Traced d ops ((ofDuration d).after ops)) (e : Millis)
    (hr : ((ofDuration d).after ops).running = true) :
    Traced d (ops ++ [.tick e]) (((ofDuration d).after ops).tick e).1 := by
  have hcounts : (((ofDuration d).after ops).elapsed.plus e).Counts
      ((ofDuration d).runningTime (ops ++ [.tick e])) := by
    rw [runningTime_concat, if_pos hr]
    exact h.elapsed.plus e
  have hon : switchedOn (ops ++ [.tick e]) = true := by
    have hrunning := h.running
    rw [hr, h.not_fired hr] at hrunning
    rw [switchedOn_concat, Op.switch]
    simpa using hrunning.symm
  have hdue : Expired d (ops ++ [.tick e]) ↔ (((ofDuration d).after ops).tick e).2 = true := by
    have hnot : ¬ Expired d ops := by simp [← h.fired, h.not_fired hr]
    rw [expired_concat_iff, (h.counting hr).tick_eq_true_iff hr]
    simp [hnot, Due, hr]
  by_cases hd : ((ofDuration d).after ops).duration ≤ ((ofDuration d).after ops).elapsed.plus e
  · rw [tick_of_le hr hd] at hdue ⊢
    exact ⟨h.duration, hcounts, by simp, by simp [hdue]⟩
  · rw [tick_of_not_le hr hd] at hdue ⊢
    exact ⟨h.duration, hcounts, by simp [hon, hr, h.not_fired hr], by simp [hdue, h.not_fired hr]⟩

theorem traced_after (d : Millis) (ops : List Op) : Traced d ops ((ofDuration d).after ops) := by
  induction ops using List.reverseRecOn with
  | nil => exact traced_ofDuration d
  | append_singleton ops op ih =>
    rw [after_concat]
    cases op with
    | start => exact ih.start
    | stop => exact ih.stop
    | tick e =>
      show Traced d _ (((ofDuration d).after ops).tick e).1
      cases hr : ((ofDuration d).after ops).running with
      | true => exact ih.tick_of_running e hr
      | false =>
        have hrest : ((ofDuration d).after ops).tick e = ((ofDuration d).after ops, false) := by
          simp [Countdown.tick, hr]
        rw [hrest]
        exact ih.tick_of_rest e hr

/-! ### Firing -/

theorem Traced.not_running (h : Traced d ops c) (he : Expired d ops) : c.running = false := by
  rw [h.running, h.fired.2 he, Bool.not_true, Bool.and_false]

/-- A tick fires the countdown exactly if it is due. -/
theorem Traced.tick_eq_true_iff (h : Traced d ops ((ofDuration d).after ops)) (e : Millis) :
    (((ofDuration d).after ops).tick e).2 = true ↔ Due d ops e := by
  cases hr : ((ofDuration d).after ops).running with
  | true =>
    rw [(h.counting hr).tick_eq_true_iff hr, Due, hr]
    simp
  | false => simp [Countdown.tick, Due, hr]

/-- Where a tick has expired, no later one is due. -/
theorem Expired.not_due (he : Expired d ops) (e : Millis) : ¬ Due d ops e := fun hdue =>
  Bool.false_ne_true ((traced_after d ops).not_running he ▸ hdue.1)

theorem Expired.append (he : Expired d ops) (more : List Op) : Expired d (ops ++ more) := by
  obtain ⟨xs, e, h, hdue⟩ := he
  exact ⟨xs, e, h.trans (List.prefix_append ops more), hdue⟩

theorem Traced.remaining (h : Traced d ops c) :
    c.remaining.toNat = d.toNat - (ofDuration d).runningTime ops := by
  have helapsed := h.elapsed
  have hd := Millis.toNat_le_size d
  unfold Millis.Counts at helapsed
  rw [Countdown.remaining, Millis.toNat_minus, h.duration, helapsed]
  omega

/-- Take a new countdown of any duration, and any list of starts, stops and ticks.

It runs if it was last started and not stopped, and has not fired.  Then the next tick fires it exactly if
it is the first that comes while the countdown runs and brings the running time up to the duration.  After
a tick that fires, whatever else happens, it does not run and does not fire.  It has never both fired and
runs, and what is left is the duration without the running time. -/
theorem fires_once_on_time (d : Millis) (ops : List Op) :
    (((ofDuration d).after ops).running =
      (switchedOn ops && !((ofDuration d).after ops).fired)) ∧
    (∀ e, (((ofDuration d).after ops).tick e).2 = true ↔
      Due d ops e ∧ ∀ xs e', xs ++ [.tick e'] <+: ops → ¬ Due d xs e') ∧
    (∀ e, (((ofDuration d).after ops).tick e).2 = true → ∀ more,
      ((ofDuration d).after (ops ++ .tick e :: more)).running = false ∧
        ∀ e', (((ofDuration d).after (ops ++ .tick e :: more)).tick e').2 = false) ∧
    ¬ (((ofDuration d).after ops).fired = true ∧ ((ofDuration d).after ops).running = true) ∧
    ((ofDuration d).after ops).remaining.toNat = d.toNat - (ofDuration d).runningTime ops := by
  have h := traced_after d ops
  refine ⟨h.running, fun e => ?_, fun e hfires more => ?_, fun ⟨hf, hr⟩ => ?_, h.remaining⟩
  · rw [h.tick_eq_true_iff]
    exact ⟨fun hdue => ⟨hdue, fun xs e' hxs hdue' => Expired.not_due ⟨xs, e', hxs, hdue'⟩ e hdue⟩, And.left⟩
  · have hexpired : Expired d (ops ++ .tick e :: more) := by
      rw [List.append_cons]
      exact Expired.append ((expired_concat_iff _).2 (Or.inr ⟨e, rfl, (h.tick_eq_true_iff e).1 hfires⟩)) more
    have hafter := traced_after d (ops ++ .tick e :: more)
    refine ⟨hafter.not_running hexpired, fun e' => Bool.eq_false_iff.2 fun hfires' => ?_⟩
    exact hexpired.not_due e' ((hafter.tick_eq_true_iff e').1 hfires')
  · rw [h.not_fired hr] at hf
    cases hf

end Countdown

end Overlay

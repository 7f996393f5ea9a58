import Overlay.Proofs.Clock.Counting
import Overlay.Proofs.Picture.Lifecycle
import Mathlib.Data.List.Induction

/-!
# Exact timing

The time that passes for a picture is the sum of its updates while it runs, a natural number that no
clock cuts off (`runningTime`).  A delay, the visible time and the window of the animations are met
exactly in terms of this sum, through every pause.  `Delayed` and `Shown` relate the clocks of a picture
to the sum, with one lemma for each operation; `Switch.run` takes them through whole runs, up to the
operation that reaches the limit and past it.
-/

namespace Overlay

namespace Picture

variable {α : Type} [Scalar α]

/-! ### Running time -/

/-- The time that passes for the picture during an operation. -/
def elapse (p : Picture α) : Op α → Nat
  | .update e => if p.running then e.toNat else 0
  | _ => 0

/-- The time that passes for the picture during a list of operations. -/
def runningTime (p : Picture α) : List (Op α) → Nat
  | [] => 0
  | op :: ops => p.elapse op + (p.perform op).1.runningTime ops

/-- The time is at least the limit, if there is one. -/
def Passes (limit : Option Millis) (n : Nat) : Prop := ∃ t, limit = some t ∧ t.toNat ≤ n

/-- Some update of the running picture, among the operations, is one after which the time passed is at
least the limit. -/
def Reaches (p : Picture α) (limit : Option Millis) (ops : List (Op α)) : Prop :=
  ∃ xs e ys, ops = xs ++ .update e :: ys ∧ (p.after xs).running = true ∧
    Passes limit (p.runningTime (xs ++ [.update e]))

/-- The operation `op` after the operations `ops` is the first update of the running picture after
which the time passed is at least the limit. -/
def ReachesAt (p : Picture α) (limit : Option Millis) (ops : List (Op α)) (op : Op α) : Prop :=
  (∃ e, op = .update e) ∧ (p.after ops).running = true ∧ Passes limit (p.runningTime (ops ++ [op])) ∧
    ¬ p.Reaches limit ops

/-- The operation is an update of the running picture that brings the time passed, `n` so far, to the
limit. -/
def Due (p : Picture α) (limit : Option Millis) (n : Nat) (op : Op α) : Prop :=
  ∃ e, op = .update e ∧ p.running = true ∧ Passes limit (n + e.toNat)

theorem passes_some {t : Millis} {n : Nat} : Passes (some t) n ↔ t.toNat ≤ n := by simp [Passes]

theorem not_passes_none (n : Nat) : ¬ Passes none n := by simp [Passes]

omit [Scalar α] in
theorem elapse_update_of_running {p : Picture α} (h : p.running = true) (e : Millis) :
    p.elapse (.update e : Op α) = e.toNat := by
  simp [elapse, h]

omit [Scalar α] in
theorem elapse_update_of_not_running {p : Picture α} (h : p.running = false) (e : Millis) :
    p.elapse (.update e : Op α) = 0 := by
  simp [elapse, h]

omit [Scalar α] in
theorem elapse_of_configures (p : Picture α) {op : Op α} (h : op.Configures) : p.elapse op = 0 := by
  cases op <;> simp_all [elapse, Op.Configures]

theorem runningTime_append (p : Picture α) (xs ys : List (Op α)) :
    p.runningTime (xs ++ ys) = p.runningTime xs + (p.after xs).runningTime ys := by
  induction xs generalizing p with
  | nil => simp [runningTime]
  | cons op xs ih => rw [List.cons_append, runningTime, ih, runningTime, after_cons, Nat.add_assoc]

theorem runningTime_concat (p : Picture α) (ops : List (Op α)) (op : Op α) :
    p.runningTime (ops ++ [op]) = p.runningTime ops + (p.after ops).elapse op := by
  rw [runningTime_append]
  rfl

/-- As long as the limit has not been reached, the operation that reaches it is the one that is due. -/
theorem reachesAt_iff_due {p : Picture α} {limit : Option Millis} {ops : List (Op α)} {op : Op α}
    (h : ¬ p.Reaches limit ops) :
    p.ReachesAt limit ops op ↔ (p.after ops).Due limit (p.runningTime ops) op := by
  constructor
  · rintro ⟨⟨e, rfl⟩, hr, hl, -⟩
    rw [runningTime_concat, elapse_update_of_running hr] at hl
    exact ⟨e, rfl, hr, hl⟩
  · rintro ⟨e, rfl, hr, hl⟩
    rw [← elapse_update_of_running hr, ← runningTime_concat] at hl
    exact ⟨⟨e, rfl⟩, hr, hl, h⟩

theorem not_reaches_nil (p : Picture α) (limit : Option Millis) : ¬ p.Reaches limit [] := by
  rintro ⟨xs, e, ys, h, -⟩
  simp at h

/-- What is reached by the end has been reached before, or is reached by the last operation. -/
theorem reaches_concat_iff {p : Picture α} {limit : Option Millis} {ops : List (Op α)} {op : Op α} :
    p.Reaches limit (ops ++ [op]) ↔ p.Reaches limit ops ∨ p.ReachesAt limit ops op := by
  constructor
  · intro h
    by_cases hb : p.Reaches limit ops
    · exact Or.inl hb
    · obtain ⟨xs, e, ys, he, hr, hl⟩ := h
      rcases List.eq_nil_or_concat ys with rfl | ⟨zs, z, rfl⟩
      · obtain ⟨rfl, hop⟩ := List.append_inj' he rfl
        obtain rfl := List.head_eq_of_cons_eq hop
        exact Or.inr ⟨⟨e, rfl⟩, hr, hl, hb⟩
      · have he' : ops ++ [op] = (xs ++ .update e :: zs) ++ [z] := by simpa using he
        obtain ⟨rfl, -⟩ := List.append_inj' he' rfl
        exact absurd ⟨xs, e, zs, rfl, hr, hl⟩ hb
  · rintro (⟨xs, e, ys, rfl, hr, hl⟩ | ⟨⟨e, rfl⟩, hr, hl, -⟩)
    · exact ⟨xs, e, ys ++ [op], by simp, hr, hl⟩
    · exact ⟨ops, e, [], rfl, hr, hl⟩

/-! ### What changes when a limit is reached -/

/-- What holds of a picture early on, given the time passed, is kept until an operation is due, which
makes hold what is kept from then on. -/
structure Switch (limit : Option Millis) (Early : Picture α → Nat → Prop) (Late : Picture α → Prop) :
    Prop where
  early : ∀ p n op, Early p n → ¬ p.Due limit n op → Early (p.perform op).1 (n + p.elapse op)
  due : ∀ p n op, Early p n → p.Due limit n op → Late (p.perform op).1
  late : ∀ p op, Late p → Late (p.perform op).1

namespace Switch

variable {limit : Option Millis} {Early : Picture α → Nat → Prop} {Late : Picture α → Prop}
  {p : Picture α}

theorem run (s : Switch limit Early Late) (h : Early p 0) (ops : List (Op α)) :
    (¬ p.Reaches limit ops → Early (p.after ops) (p.runningTime ops)) ∧
      (p.Reaches limit ops → Late (p.after ops)) := by
  -- from the right, because what has been reached so far decides what the last operation does
  induction ops using List.reverseRecOn with
  | nil => exact ⟨fun _ => h, fun hn => absurd hn (not_reaches_nil p _)⟩
  | append_singleton ops op ih =>
    rw [reaches_concat_iff, after_concat, runningTime_concat]
    constructor
    · intro hn
      obtain ⟨hb, hat⟩ := not_or.1 hn
      exact s.early _ _ op (ih.1 hb) fun hdue => hat ((reachesAt_iff_due hb).2 hdue)
    · intro hn
      by_cases hb : p.Reaches limit ops
      · exact s.late _ op (ih.2 hb)
      · exact s.due _ _ op (ih.1 hb) ((reachesAt_iff_due hb).1 (hn.resolve_left hb))

/-- The operation that reaches the limit is the one after which things are late. -/
theorem reachesAt_iff (s : Switch limit Early Late) (hexcl : ∀ q n, Early q n → ¬ Late q)
    (h : Early p 0) (ops : List (Op α)) (op : Op α) :
    p.ReachesAt limit ops op ↔ ¬ Late (p.after ops) ∧ Late ((p.after ops).perform op).1 := by
  obtain ⟨hearly, hlate⟩ := s.run h ops
  obtain ⟨hearly', hlate'⟩ := s.run h (ops ++ [op])
  rw [reaches_concat_iff, after_concat] at hearly' hlate'
  constructor
  · intro hat
    exact ⟨hexcl _ _ (hearly hat.2.2.2), hlate' (Or.inr hat)⟩
  · rintro ⟨hn, hl⟩
    by_contra hat
    have hb : ¬ p.Reaches limit ops := fun hb => hn (hlate hb)
    exact hexcl _ _ (hearly' (not_or.2 ⟨hb, hat⟩)) hl

end Switch

/-! ### Waiting to appear -/

/-- The picture waits for a delay, `n` milliseconds of which have passed. -/
structure Delayed (p : Picture α) (delay : Millis) (n : Nat) : Prop where
  phase : p.phase = .pending
  /-- So that starting it again does not make it appear at once. -/
  wait : p.properties.wait.isSome = true
  clock : ∃ c, p.delay = some c ∧ c.Counting delay n ∧ c.running = p.running

namespace Delayed

variable {p : Picture α} {delay : Millis} {n : Nat}

/-- Starting a fresh pending picture with a delay. -/
theorem of_start {w : Wait} (hp : p.phase = .pending) (hr : p.running = false)
    (hd : p.delay = none) (hw : p.properties.wait = some w) :
    Delayed (p.perform .start).1 w.delay 0 := by
  show Delayed p.start.1 w.delay 0
  rw [start_pending_of_wait hr hp hw]
  obtain ⟨hc, hrun⟩ := (Countdown.counting_ofDuration w.delay).start
  exact ⟨hp, by simp [await, hw], _, by simp [await, hd], hc, hrun⟩

theorem start (h : Delayed p delay n) : Delayed (p.perform .start).1 delay n := by
  show Delayed p.start.1 delay n
  cases hr : p.running with
  | true => rwa [start_of_running hr]
  | false =>
    obtain ⟨w, hw⟩ := Option.isSome_iff_exists.1 h.wait
    obtain ⟨c, hd, hc, -⟩ := h.clock
    rw [start_pending_of_wait hr h.phase hw]
    exact ⟨h.phase, h.wait, _, by simp [await, hd], hc.start.1, hc.start.2⟩

theorem stop (h : Delayed p delay n) : Delayed (p.perform .stop).1 delay n := by
  show Delayed p.stop.1 delay n
  cases hr : p.running with
  | false => rwa [stop_of_not_running hr]
  | true =>
    obtain ⟨c, hd, hc, -⟩ := h.clock
    rw [stop_of_running hr]
    exact ⟨h.phase, h.wait, _, by simp [hd], hc.stop.1, hc.stop.2⟩

theorem configure (h : Delayed p delay n) {op : Op α} (ho : op.Configures) :
    Delayed (p.perform op).1 delay n := by
  have hw := Properties.kept_wait.perform h.wait op
  obtain ⟨⟨P, T, e⟩, -⟩ := p.perform_of_configures ho
  rw [e] at hw ⊢
  exact ⟨h.phase, hw, h.clock⟩

/-- Time passes: the picture appears if the delay is over, and waits on otherwise. -/
theorem update (h : Delayed p delay n) (e : Millis) (hr : p.running = true) :
    (delay.toNat ≤ n + e.toNat → (p.perform (.update e)).1.phase = .visible) ∧
      (¬ delay.toNat ≤ n + e.toNat → Delayed (p.perform (.update e)).1 delay (n + e.toNat)) := by
  obtain ⟨c, hd, hc, hcr⟩ := h.clock
  have hfires := hc.tick_eq_true_iff (hcr.trans hr) e
  have hu : (p.perform (.update e)).1 = (p.updatePending e).1 :=
    congrArg Prod.fst (update_pending hr h.phase e)
  rw [hu]
  constructor
  · intro hl
    rw [updatePending_of_fires hd (hfires.2 hl)]
    rfl
  · intro hl
    have hf : (c.tick e).2 = false := by simpa [hl] using hfires
    obtain ⟨hc', hcr'⟩ := hc.tick (hcr.trans hr) hf
    rw [updatePending_of_counts hd hf]
    exact ⟨h.phase, h.wait, _, rfl, hc', hcr'.trans hr.symm⟩

theorem step (h : Delayed p delay n) {op : Op α} (hdue : ¬ p.Due (some delay) n op) :
    Delayed (p.perform op).1 delay (n + p.elapse op) := by
  rcases op.lifecycle_or_configures with rfl | rfl | ⟨e, rfl⟩ | ho
  · exact h.start
  · exact h.stop
  · cases hr : p.running with
    | false =>
      rw [elapse_update_of_not_running hr]
      show Delayed (p.update e).1 delay n
      rwa [update_of_not_running hr]
    | true =>
      rw [elapse_update_of_running hr]
      exact (h.update e hr).2 fun hl => hdue ⟨e, rfl, hr, passes_some.2 hl⟩
  · rw [elapse_of_configures p ho]
    exact h.configure ho

end Delayed

/-- A delayed picture stays pending until its delay is reached, and is not pending from then on. -/
theorem switch_delayed (delay : Millis) :
    Switch (some delay) (fun p : Picture α => Delayed p delay) (fun p => p.phase ≠ .pending) where
  early _ _ _ h hdue := h.step hdue
  due p n op h hdue := by
    obtain ⟨e, rfl, hr, hl⟩ := hdue
    rw [(h.update e hr).1 (passes_some.1 hl)]
    decide
  late _ op h := perform_phase_ne_pending h op

/-! ### Being visible -/

/-- The bounds of the animations: from the beginning and without end where none are given. -/
def animationBounds (P : Properties α) : Millis × Option Millis :=
  P.timeAnim.getD (0, none)

omit [Scalar α] in
theorem window_eq (P : Properties α) :
    P.window = .ofBounds (animationBounds P).1 (animationBounds P).2 := by
  unfold Properties.window animationBounds
  cases P.timeAnim <;> rfl

/-- The picture has been visible for `n` milliseconds, times out after `time`, and moves between the
bounds. -/
structure Shown (p : Picture α) (time : Option Millis) (bounds : Millis × Option Millis) (n : Nat) :
    Prop where
  phase : p.phase = .visible
  endless : time = none → p.duration = none
  clock : ∀ t, time = some t → ∃ c, p.duration = some c ∧ c.Counting t n ∧ c.running = p.running
  window : p.window.Counting bounds.1 bounds.2 n
  measuring : p.window.running = p.running

/-- The picture timed out, and no time passes for it any more. -/
structure Over (p : Picture α) : Prop where
  phase : p.phase = .timedOut
  rests : p.running = false

theorem Over.step {p : Picture α} (h : Over p) (op : Op α) : Over (p.perform op).1 := by
  rcases op.lifecycle_or_configures with rfl | rfl | ⟨e, rfl⟩ | ho
  · show Over p.start.1
    rwa [start_of_timedOut h.phase]
  · show Over p.stop.1
    rwa [stop_of_not_running h.rests]
  · show Over (p.update e).1
    rwa [update_of_timedOut h.phase]
  · obtain ⟨⟨P, T, e⟩, -⟩ := p.perform_of_configures ho
    rw [e]
    exact ⟨h.phase, h.rests⟩

namespace Shown

variable {p : Picture α} {time : Option Millis} {bounds : Millis × Option Millis} {n : Nat}

omit [Scalar α] in
theorem of_appear (hr : p.running = true) :
    Shown p.appear.1 p.properties.time (animationBounds p.properties) 0 := by
  have hw : p.appear.1.window =
      (Window.ofBounds (animationBounds p.properties).1 (animationBounds p.properties).2).resume :=
    congrArg Window.resume (window_eq p.properties)
  refine ⟨rfl, fun h => by simp [appear, h], fun t h => ?_, ?_, hr.symm⟩
  · obtain ⟨hc, hrun⟩ := (Countdown.counting_ofDuration t).start
    exact ⟨_, by simp [appear, h], hc, hrun.trans hr.symm⟩
  · rw [hw]
    exact ⟨rfl, rfl, Millis.counts_zero⟩

theorem start (h : Shown p time bounds n) : Shown (p.perform .start).1 time bounds n := by
  show Shown p.start.1 time bounds n
  cases hr : p.running with
  | true => rwa [start_of_running hr]
  | false =>
    rw [start_visible hr h.phase]
    refine ⟨h.phase, fun ht => by simp [h.endless ht], fun t ht => ?_, h.window.resume, rfl⟩
    obtain ⟨c, hd, hc, -⟩ := h.clock t ht
    exact ⟨_, by simp [hd], hc.start.1, hc.start.2⟩

theorem stop (h : Shown p time bounds n) : Shown (p.perform .stop).1 time bounds n := by
  show Shown p.stop.1 time bounds n
  cases hr : p.running with
  | false => rwa [stop_of_not_running hr]
  | true =>
    rw [stop_of_running hr]
    refine ⟨h.phase, fun ht => by simp [h.endless ht], fun t ht => ?_, h.window.pause, rfl⟩
    obtain ⟨c, hd, hc, -⟩ := h.clock t ht
    exact ⟨_, by simp [hd], hc.stop.1, hc.stop.2⟩

theorem configure (h : Shown p time bounds n) {op : Op α} (ho : op.Configures) :
    Shown (p.perform op).1 time bounds n := by
  obtain ⟨⟨P, T, e⟩, -⟩ := p.perform_of_configures ho
  rw [e]
  exact ⟨h.phase, h.endless, h.clock, h.window, h.measuring⟩

/-- The clock of the window goes on, whatever the animations do. -/
theorem stepAnimations (h : Shown p time bounds n) (hr : p.running = true) (e : Millis) :
    (p.stepAnimations e).window.Counting bounds.1 bounds.2 (n + e.toNat) ∧
      (p.stepAnimations e).window.running = (p.stepAnimations e).running := by
  obtain ⟨hw, hrun, -⟩ := h.window.tick (h.measuring.trans hr) e
  rw [stepAnimations_window, stepAnimations_running]
  exact ⟨hw, hrun.trans hr.symm⟩

/-- Time passes: the picture times out if the visible time is over, and stays visible otherwise. -/
theorem update (h : Shown p time bounds n) (e : Millis) (hr : p.running = true) :
    (Passes time (n + e.toNat) → Over (p.perform (.update e)).1) ∧
      (¬ Passes time (n + e.toNat) → Shown (p.perform (.update e)).1 time bounds (n + e.toNat)) := by
  obtain ⟨hw, hm⟩ := h.stepAnimations hr e
  have hp : (p.stepAnimations e).phase = .visible := (stepAnimations_phase p e).trans h.phase
  have hd : (p.stepAnimations e).duration = p.duration := stepAnimations_duration p e
  have hu : (p.perform (.update e)).1 = (p.updateVisible e).1 :=
    congrArg Prod.fst (update_visible hr h.phase e)
  rw [hu]
  cases time with
  | none =>
    have hn := h.endless rfl
    rw [updateVisible_of_no_duration hn]
    refine ⟨fun hl => absurd hl (not_passes_none _), fun _ => ⟨hp, fun _ => hd.trans hn, ?_, hw, hm⟩⟩
    intro t ht
    cases ht
  | some t =>
    obtain ⟨c, hc, hcount, hcr⟩ := h.clock t rfl
    have hfires := hcount.tick_eq_true_iff (hcr.trans hr) e
    rw [passes_some]
    constructor
    · intro hl
      rw [updateVisible_of_fires hc (hfires.2 hl)]
      exact ⟨rfl, rfl⟩
    · intro hl
      have hf : (c.tick e).2 = false := by simpa [hl] using hfires
      obtain ⟨hcount', hcr'⟩ := hcount.tick (hcr.trans hr) hf
      rw [updateVisible_of_counts hc hf]
      refine ⟨hp, fun ht => (nomatch ht), fun t' ht => ?_, hw, hm⟩
      cases ht
      exact ⟨_, rfl, hcount', hcr'.trans (hr.symm.trans (stepAnimations_running p e).symm)⟩

theorem step (h : Shown p time bounds n) {op : Op α} (hdue : ¬ p.Due time n op) :
    Shown (p.perform op).1 time bounds (n + p.elapse op) := by
  rcases op.lifecycle_or_configures with rfl | rfl | ⟨e, rfl⟩ | ho
  · exact h.start
  · exact h.stop
  · cases hr : p.running with
    | false =>
      rw [elapse_update_of_not_running hr]
      show Shown (p.update e).1 time bounds n
      rwa [update_of_not_running hr]
    | true =>
      rw [elapse_update_of_running hr]
      exact (h.update e hr).2 fun hl => hdue ⟨e, rfl, hr, hl⟩
  · rw [elapse_of_configures p ho]
    exact h.configure ho

omit [Scalar α] in
theorem not_over (h : Shown p time bounds n) : ¬ Over p := by
  intro ho
  have hp := h.phase
  rw [ho.phase] at hp
  cases hp

end Shown

/-- A shown picture stays visible until its visible time is reached, and is over from then on. -/
theorem switch_shown (time : Option Millis) (bounds : Millis × Option Millis) :
    Switch time (fun p : Picture α => Shown p time bounds) Over where
  early _ _ _ h hdue := h.step hdue
  due p n op h hdue := by
    obtain ⟨e, rfl, hr, hl⟩ := hdue
    exact (h.update e hr).1 hl
  late _ op h := h.step op

end Picture

end Overlay

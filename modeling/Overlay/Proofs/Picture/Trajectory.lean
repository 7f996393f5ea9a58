import Overlay.Proofs.Scalar.Exact
import Overlay.Proofs.Picture.DelayInForce
import Overlay.Proofs.Picture.Kinds
import Overlay.Proofs.Picture.Life

/-!
# Trajectories

Where a picture is after `n` animation steps, over exact numbers.  A rate of change is applied before it
is accelerated, so after `n` steps it has added `n` times itself and `n * (n - 1) / 2` times its
acceleration (`Drift.total`).  The size and the opacity follow their own motion, the angle does modulo a
full turn, and the centre of the cell at the base follows the straight motion alone: a zoom moves the base
by half of what the cell grows, and an orbit does not move it at all.  `closed_form` says so for every
number of steps, and for every run in which nothing configures the picture.
-/

namespace Overlay

/-! ### Rates of change -/

section Drifts

variable {β : Type} [AddCommGroup β]

/-- What a rate of change and its acceleration add up to in `n` steps. -/
def Drift.total (d : Drift β) (n : ℕ) : β := n • d.delta + (n * (n - 1) / 2) • d.accel

theorem Drift.total_zero (d : Drift β) : d.total 0 = 0 := by simp [total]

theorem Drift.total_succ (d : Drift β) (n : ℕ) : d.total (n + 1) = d.delta + d.advance.total n := by
  simp only [total, advance, Nat.triangle_succ, nsmul_add, succ_nsmul, add_nsmul]
  abel

/-- The motion of a track; an absent one counts as all zeros. -/
def Track.drift {ν : Type} (t : Track (Drift β) ν) : Drift β := t.motion.getD ⟨0, 0⟩

theorem Track.drift_advance {ν : Type} (t : Track (Drift β) ν) :
    (t.advance Drift.advance).drift = t.drift.advance := by
  unfold Track.drift Track.advance
  cases t.motion with
  | none => simp [Drift.advance]
  | some d => rfl

end Drifts

/-! ### One step -/

/-- The cell that stands at the base of the position. -/
def Properties.baseCell {α : Type} (P : Properties α) : Rect α :=
  ⟨P.pos.base.x, P.pos.base.y, P.size.x, P.size.y⟩

namespace Tracks

variable {α : Type} [Scalar α]

theorem apply_eq (t : Tracks α) (P : Properties α) :
    t.apply P = t.applyKind (t.applyKind (t.applyKind (t.applyKind (t.applyKind P .straight) .circle)
      .zoom) .rotate) .fade :=
  t.apply_eq_foldl P

/-- What holds of a step of the motion in a track, and of no change for an absent one, holds of the
kind. -/
theorem applyKind_of_drift {β ν : Type} [AddCommGroup β] {t : Tracks α} {P : Properties α}
    {k : MotionKind} {track : Track (Drift β) ν} {make : Drift β → Motion α}
    {R : Properties α → β → Prop} (ht : t.motion? k = track.motion.map make) (absent : R P 0)
    (present : ∀ d, R ((make d).apply P) d.delta) : R (t.applyKind P k) track.drift.delta := by
  unfold Track.drift
  cases h : track.motion with
  | none =>
    rw [h] at ht
    rwa [applyKind_of_none ht]
  | some d =>
    rw [h] at ht
    rw [applyKind_of_motion? ht]
    exact present d

theorem applyKind_size (t : Tracks α) (P : Properties α) {k : MotionKind} (h : k ≠ .zoom) :
    (t.applyKind P k).size = P.size := by
  have e := congrArg Properties.size (t.applyKind_forget_kind P k)
  simpa only [Properties.forget, if_neg h] using e

theorem applyKind_angle (t : Tracks α) (P : Properties α) {k : MotionKind} (h : k ≠ .rotate) :
    (t.applyKind P k).angle = P.angle := by
  have e := congrArg Properties.angle (t.applyKind_forget_kind P k)
  simpa only [Properties.forget, if_neg h] using e

theorem applyKind_opacity (t : Tracks α) (P : Properties α) {k : MotionKind} (h : k ≠ .fade) :
    (t.applyKind P k).opacity = P.opacity := by
  have e := congrArg Properties.opacity (t.applyKind_forget_kind P k)
  simpa only [Properties.forget, if_neg h] using e

/-- Only a fade changes the value of the opacity. -/
theorem apply_opacity_value (t : Tracks α) (P : Properties α) :
    (t.apply P).opacity.value = match t.fade.motion with
      | none => P.opacity.value
      | some f => P.opacity.value + f.delta := by
  have hbefore : (t.applyKind (t.applyKind (t.applyKind (t.applyKind P .straight) .circle)
      .zoom) .rotate).opacity = P.opacity := by
    rw [applyKind_opacity _ _ (by decide), applyKind_opacity _ _ (by decide),
      applyKind_opacity _ _ (by decide), applyKind_opacity _ _ (by decide)]
  rw [apply_eq]
  cases hf : t.fade.motion with
  | none =>
    have hnone : t.motion? .fade = none := by rw [motion?, hf, Option.map_none]
    rw [applyKind_of_none hnone, hbefore]
  | some f =>
    have hsome : t.motion? .fade = some (.fade f) := by rw [motion?, hf, Option.map_some]
    rw [applyKind_of_motion? hsome]
    show (t.applyKind _ .rotate).opacity.value + f.delta = _
    rw [hbefore]

theorem applyKind_baseCell (t : Tracks α) (P : Properties α) {k : MotionKind} (hs : k ≠ .straight)
    (hz : k ≠ .zoom) : (t.applyKind P k).baseCell = P.baseCell := by
  have e := congrArg Properties.baseCell (t.applyKind_forget_kind P k)
  cases k with
  | straight => exact absurd rfl hs
  | circle => exact e
  | zoom => exact absurd rfl hz
  | rotate => exact e
  | fade => exact e

end Tracks

section Exact

variable {r : Reading}

/-- A cell grows around its centre. -/
theorem Properties.center_resize (P : Properties (Exact r)) (d : Vec (Exact r)) :
    (P.resize d).baseCell.center = P.baseCell.center := by
  ext <;> simp [resize, baseCell, Rect.center, Placement.shift, Vec.map] <;> ring

theorem Properties.center_eq {P Q : Properties (Exact r)} {d : Vec (Exact r)} (hs : Q.size = P.size)
    (hb : Q.pos.base = P.pos.base + d) : Q.baseCell.center = P.baseCell.center + d := by
  ext <;> simp [baseCell, Rect.center, hs, hb] <;> ring

namespace Tracks

variable (t : Tracks (Exact r)) (P : Properties (Exact r))

theorem apply_size : (t.apply P).size = P.size + t.zoom.drift.delta := by
  have hzoom : ∀ Q : Properties (Exact r), (t.applyKind Q .zoom).size = Q.size + t.zoom.drift.delta :=
    fun Q => applyKind_of_drift (R := fun Q' d => Q'.size = Q.size + d) rfl (add_zero _).symm
      fun _ => rfl
  -- from the last kind that is stepped back to the first
  rw [apply_eq, applyKind_size _ _ (by decide), applyKind_size _ _ (by decide), hzoom,
    applyKind_size _ _ (by decide), applyKind_size _ _ (by decide)]

/-- The zoom comes between the straight motion and the end of the step, and does not move the centre. -/
theorem apply_center :
    (t.apply P).baseCell.center = P.baseCell.center + t.straight.drift.delta := by
  have hstraight : (t.applyKind P .straight).pos.base = P.pos.base + t.straight.drift.delta :=
    applyKind_of_drift (R := fun Q d => Q.pos.base = P.pos.base + d) rfl (add_zero _).symm fun _ => rfl
  have hzoom : ∀ Q : Properties (Exact r),
      (t.applyKind Q .zoom).baseCell.center = Q.baseCell.center := fun Q =>
    applyKind_of_drift (R := fun Q' _ => Q'.baseCell.center = Q.baseCell.center)
      (rfl : t.motion? .zoom = t.zoom.motion.map .zoom) rfl fun d => Q.center_resize d.delta
  rw [apply_eq, applyKind_baseCell _ _ (by decide) (by decide),
    applyKind_baseCell _ _ (by decide) (by decide), hzoom,
    applyKind_baseCell _ _ (by decide) (by decide)]
  exact Properties.center_eq (applyKind_size _ _ (by decide)) hstraight

/-- The angle turns, and stays within a full turn. -/
theorem apply_angle :
    (t.apply P).angle.degrees ≡ P.angle.degrees + t.rotate.drift.delta [PMOD 360] ∧
      (P.angle.InTurn → (t.apply P).angle.InTurn) := by
  have hrotate : ∀ Q : Properties (Exact r),
      (t.applyKind Q .rotate).angle.degrees ≡ Q.angle.degrees + t.rotate.drift.delta [PMOD 360] ∧
        (Q.angle.InTurn → (t.applyKind Q .rotate).angle.InTurn) := fun Q =>
    applyKind_of_drift
      (R := fun Q' d => Q'.angle.degrees ≡ Q.angle.degrees + d [PMOD 360] ∧
        (Q.angle.InTurn → Q'.angle.InTurn))
      (rfl : t.motion? .rotate = t.rotate.motion.map .rotate) ⟨by rw [add_zero], id⟩
      fun d => ⟨Angle.ofDegrees_modEq _, fun _ => Angle.inTurn_ofDegrees _⟩
  have h := hrotate (t.applyKind (t.applyKind (t.applyKind P .straight) .circle) .zoom)
  rw [applyKind_angle _ _ (k := .zoom) (by decide), applyKind_angle _ _ (k := .circle) (by decide),
    applyKind_angle _ _ (k := .straight) (by decide)] at h
  rwa [apply_eq, applyKind_angle _ _ (k := .fade) (by decide)]

theorem apply_opacity : (t.apply P).opacity.value = P.opacity.value + t.fade.drift.delta := by
  rw [apply_opacity_value, Track.drift]
  cases t.fade.motion with
  | none => exact (add_zero _).symm
  | some f => rfl

end Tracks

/-! ### Many steps -/

/-- Size, centre, angle and opacity of `Q` are what `n` steps with the tracks `t` make of those of `P`. -/
structure Trajectory (P : Properties (Exact r)) (t : Tracks (Exact r)) (n : ℕ)
    (Q : Properties (Exact r)) : Prop where
  size : Q.size = P.size + t.zoom.drift.total n
  center : Q.baseCell.center = P.baseCell.center + t.straight.drift.total n
  inTurn : Q.angle.InTurn
  turned : Q.angle.degrees ≡ P.angle.degrees + t.rotate.drift.total n [PMOD 360]
  opacity : Q.opacity.value = P.opacity.value + t.fade.drift.total n

namespace Trajectory

variable {P Q : Properties (Exact r)} {t : Tracks (Exact r)} {n : ℕ}

theorem zero (h : P.angle.InTurn) (t : Tracks (Exact r)) : Trajectory P t 0 P where
  size := by rw [Drift.total_zero, add_zero]
  center := by rw [Drift.total_zero, add_zero]
  inTurn := h
  turned := by rw [Drift.total_zero, add_zero]
  opacity := by rw [Drift.total_zero, add_zero]

/-- One step, and then `n` with the rates of change that it leaves. -/
theorem succ (h : Trajectory (t.apply P) t.advance n Q) : Trajectory P t (n + 1) Q where
  size := by
    rw [h.size, t.apply_size, Drift.total_succ, ← Track.drift_advance, add_assoc]
    rfl
  center := by
    rw [h.center, t.apply_center, Drift.total_succ, ← Track.drift_advance, add_assoc]
    rfl
  inTurn := h.inTurn
  turned := by
    rw [Drift.total_succ, ← Track.drift_advance, ← add_assoc]
    exact h.turned.trans ((t.apply_angle P).1.add_right _)
  opacity := by
    rw [h.opacity, t.apply_opacity, Drift.total_succ, ← Track.drift_advance, add_assoc]
    rfl

end Trajectory

namespace Picture

theorem trajectory_iterate (n : ℕ) {p : Picture (Exact r)} (h : p.properties.angle.InTurn) :
    Trajectory p.properties p.tracks n (animate^[n] p).properties := by
  induction n generalizing p with
  | zero => exact .zero h _
  | succ n ih =>
    have hrest : Trajectory (p.tracks.apply p.properties) p.tracks.advance n
        (animate^[n] p.animate).properties :=
      ih (p := p.animate) ((p.tracks.apply_angle p.properties).2 h)
    rw [Function.iterate_succ_apply]
    exact hrest.succ

end Picture

end Exact

/-! ### Runs -/

namespace Picture

variable {α : Type} [Scalar α] {p : Picture α} {op : Op α}

/-- The animations step in the operation. -/
def animates (p : Picture α) : Op α → Bool
  | .update e => p.running && decide (p.phase = .visible) && (p.window.tick e).2
  | _ => false

/-- The number of animation steps in a list of operations. -/
def stepCount (p : Picture α) : List (Op α) → ℕ
  | [] => 0
  | op :: ops => (p.animates op).toNat + (p.perform op).1.stepCount ops

theorem steppedTo_of_animates (h : p.animates op = true) : p.SteppedTo (p.perform op).1 := by
  cases op with
  | update e =>
    simp only [animates, Bool.and_eq_true, decide_eq_true_eq] at h
    obtain ⟨⟨hr, hp⟩, hopen⟩ := h
    exact steppedTo_update hr hp hopen
  | _ => cases h

theorem stillAs_of_not_animates (h : p.animates op = false) (ho : ¬ op.Configures) :
    p.StillAs (p.perform op).1 := by
  rcases op.lifecycle_or_configures with rfl | rfl | ⟨e, rfl⟩ | hc
  · exact p.start_properties
  · exact p.stop_properties
  · by_cases hp : p.phase = .visible
    · show p.StillAs (p.update e).1
      cases hr : p.running with
      | false =>
        rw [update_of_not_running hr]
        exact ⟨rfl, rfl⟩
      | true =>
        have hshut : ¬ (p.window.tick e).2 = true := by simpa [animates, hr, hp] using h
        exact stillAs_update_of_shut hr hp hshut
    · exact update_properties_of_not_visible hp e
  · exact absurd hc ho

/-- Pictures that are still alike move alike. -/
theorem StillAs.iterate {q : Picture α} (h : p.StillAs q) (n : ℕ) :
    (animate^[n] p).StillAs (animate^[n] q) := by
  induction n generalizing p q with
  | zero => exact h
  | succ n ih =>
    rw [Function.iterate_succ_apply, Function.iterate_succ_apply]
    refine ih ⟨?_, ?_⟩
    · simp only [animate, h.1, h.2]
    · simp only [animate, h.2]

/-- Where nothing configures the picture, a run moves it by its animation steps. -/
theorem stillAs_after {ops : List (Op α)} (ho : ∀ op ∈ ops, ¬ op.Configures) :
    (animate^[p.stepCount ops] p).StillAs (p.after ops) := by
  induction ops generalizing p with
  | nil => exact ⟨rfl, rfl⟩
  | cons op ops ih =>
    obtain ⟨hop, hrest⟩ := List.forall_mem_cons.1 ho
    have hafter := ih (p := (p.perform op).1) hrest
    rw [after_cons, stepCount]
    cases ha : p.animates op with
    | true =>
      have hstep : p.animate.StillAs (p.perform op).1 := steppedTo_of_animates ha
      have hsame := hstep.iterate ((p.perform op).1.stepCount ops)
      rw [Bool.toNat_true, Nat.add_comm, Function.iterate_succ_apply]
      exact ⟨hafter.1.trans hsame.1, hafter.2.trans hsame.2⟩
    | false =>
      have hsame := (stillAs_of_not_animates ha hop).iterate ((p.perform op).1.stepCount ops)
      rw [Bool.toNat_false, Nat.zero_add]
      exact ⟨hafter.1.trans hsame.1, hafter.2.trans hsame.2⟩

end Picture

namespace Directive

/-- An angle that is read is brought within a full turn. -/
theorem angle_of_obeyed {α : Type} [Scalar α] {o : Origin} {text : String} {a : Angle α}
    (h : obeyed o text = .ok (.setting (.angle a))) : ∃ d, a = .ofDegrees d := by
  obtain ⟨line, -, -, hread⟩ := readAs_of_obeyed h
  have hd : Yields (readAs o line (.property .angle)) (· = .setting (.angle a)) := ⟨_, hread, rfl⟩
  simp only [readAs, Setting.read, yields_map, yields_bind, yields_pure] at hd
  obtain ⟨d, -, e⟩ := hd
  exact ⟨d, (Setting.angle.inj (Directive.setting.inj e)).symm⟩

end Directive

namespace Picture

variable {r : Reading} {p : Picture (Exact r)}

/-- Without configuring, the angle stays within a full turn. -/
theorem inTurn_perform_of_not_configures (h : p.properties.angle.InTurn) {op : Op (Exact r)}
    (ho : ¬ op.Configures) : (p.perform op).1.properties.angle.InTurn := by
  cases ha : p.animates op with
  | true =>
    rw [(steppedTo_of_animates ha).1]
    exact (p.tracks.apply_angle p.properties).2 h
  | false => rwa [(stillAs_of_not_animates ha ho).1]

theorem inTurn_write (h : p.properties.angle.InTurn) {text : String} {d : Directive (Exact r)}
    (hd : Directive.obeyed p.origin text = .ok d) : (p.write d).properties.angle.InTurn := by
  cases d with
  | setting s =>
    cases s with
    | angle a =>
      obtain ⟨x, rfl⟩ := Directive.angle_of_obeyed hd
      exact Angle.inTurn_ofDegrees x
    | _ => exact h
  | motion m => exact h
  | acceleration a => exact h

theorem inTurn_perform (hp : Clamped p) (h : p.properties.angle.InTurn) (op : Op (Exact r)) :
    (p.perform op).1.properties.angle.InTurn := by
  cases op with
  | start | stop | update e => exact inTurn_perform_of_not_configures h id
  | line text =>
    cases hd : Directive.obeyed (α := Exact r) p.origin text with
    | ok d =>
      rw [perform_line_of_obeyed hp hd]
      exact inTurn_write h hd
    | error f => rwa [perform_line_of_refused hp hd]
  | rotate d => exact Angle.inTurn_ofDegrees _
  | _ => exact h

theorem Reachable.inTurn (h : Reachable p) : p.properties.angle.InTurn := by
  induction h with
  | initial o c => exact Angle.inTurn_zero
  | perform h op ih => exact inTurn_perform h.clamped ih op

theorem trajectory_after (h : p.properties.angle.InTurn) {ops : List (Op (Exact r))}
    (ho : ∀ op ∈ ops, ¬ op.Configures) :
    Trajectory p.properties p.tracks (p.stepCount ops) (p.after ops).properties := by
  rw [(stillAs_after ho).1]
  exact trajectory_iterate _ h

/-- Take a picture with any motions, over exact numbers, and let its animations step `n` times, one step
after the other or in the course of a run in which nothing configures the picture.  Then its size is what
it was and the total of the zoom; the centre of the cell at its base is where it was and the total of the
straight motion; its angle is within a full turn, and what it was and the total of the rotation up to full
turns; its opacity is what it was and the total of the fade.  An absent motion counts as all zeros. -/
theorem closed_form (h : Reachable p) :
    (∀ n, Trajectory p.properties p.tracks n (animate^[n] p).properties) ∧
      ∀ ops : List (Op (Exact r)), (∀ op ∈ ops, ¬ op.Configures) →
        Trajectory p.properties p.tracks (p.stepCount ops) (p.after ops).properties :=
  ⟨fun n => trajectory_iterate n h.inTurn, fun _ ho => trajectory_after h.inTurn ho⟩

/-- A cell of 40 pixels at 10, 20 that moves, zooms and fades, three steps after its start. -/
theorem moved_and_zoomed :
    ∃ p q : Picture (Exact .unturned),
      p = (initial {} {}).after [.line "pos=10,20", .line "anim_straight=2,0", .line "anim_zoom=4,2",
        .line "accel_zoom=1,0", .line "anim_fade=-0.5", .start] ∧
      q = p.after [.update 16, .update 16, .stop, .update 16, .start, .update 16] ∧
      q.properties.size = ⟨55, 46⟩ ∧ q.properties.baseCell.center = ⟨36, 40⟩ ∧
      q.properties.opacity.value = -1 / 2 ∧ q.properties.angle.InTurn := by
  obtain ⟨p, hp⟩ : ∃ p : Picture (Exact .unturned),
      p = (initial {} {}).after [.line "pos=10,20", .line "anim_straight=2,0", .line "anim_zoom=4,2",
        .line "accel_zoom=1,0", .line "anim_fade=-0.5", .start] := ⟨_, rfl⟩
  have hreach : Reachable p := hp ▸ (Reachable.initial {} {}).after _
  have h := (closed_form hreach).2 [.update 16, .update 16, .stop, .update 16, .start, .update 16]
    (by simp [Op.Configures])
  have hsteps : p.stepCount [.update 16, .update 16, .stop, .update 16, .start, .update 16] = 3 := by
    rw [hp]
    decide +kernel
  rw [hsteps] at h
  refine ⟨p, _, hp, rfl, h.size.trans ?_, h.center.trans ?_, h.opacity.trans ?_, h.inTurn⟩
  all_goals
    rw [hp]
    decide +kernel

end Picture

end Overlay

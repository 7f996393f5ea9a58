import Overlay.Proofs.Picture.Trajectory

/-!
# Orbits

Where an orbit puts a picture, seen from its base, over exact numbers and for any circular functions.  An
orbit comes after the straight motion and before the zoom, which moves the current position and the base
alike, so after a step the picture is away from its base by the offset of the orbit, whatever else moves
(`Tracks.apply_lead`).  The orbit turns by its speed and widens by its radius acceleration after it was
used, which gives its angle and radius after any number of steps (`Orbit.iterate_advance`).  Together with
the base, which no orbit moves, that is `orbit_keeps_offset`.
-/

namespace Overlay

variable {r : Reading}

/-! ### Turning and widening -/

namespace Orbit

/-- The angle after some steps: each adds the speed that the steps before have left, modulo a full turn. -/
def angleAt (o : Orbit (Exact r)) : ℕ → Exact r
  | 0 => o.angle
  | j + 1 =>
    let d := o.angleAt j + o.speed + j * o.angularAccel
    d - Angle.fullTurn * ⌊d / Angle.fullTurn⌋

/-- The radius after some steps. -/
def radiusAt (o : Orbit (Exact r)) (k : ℕ) : Vec (Exact r) :=
  ⟨o.radius.x + k * o.radiusAccel.x, o.radius.y + k * o.radiusAccel.y⟩

/-- The distance from the base that the step after `k` others gives. -/
def offsetAt (o : Orbit (Exact r)) (k : ℕ) : Vec (Exact r) :=
  let a := Scalar.toRadians (o.angleAt k)
  ⟨Exact.truncate (Scalar.cos a * (o.radiusAt k).x), Exact.truncate (Scalar.sin a * (o.radiusAt k).y)⟩

theorem iterate_advance (o : Orbit (Exact r)) (k : ℕ) :
    advance^[k] o =
      { o with angle := o.angleAt k, speed := o.speed + k * o.angularAccel, radius := o.radiusAt k } := by
  induction k with
  | zero => simp [angleAt, radiusAt]
  | succ k ih =>
    have hangle : Scalar.wrap (o.angleAt k + (o.speed + k * o.angularAccel)) Angle.fullTurn =
        o.angleAt (k + 1) := by
      have hturn : 0 < (Angle.fullTurn : Exact r) := by
        rw [Angle.fullTurn_eq]
        norm_num
      rw [Exact.wrap_eq_sub_floor _ hturn, ← add_assoc]
      rfl
    have hspeed : o.speed + k * o.angularAccel + o.angularAccel =
        o.speed + (k + 1 : ℕ) * o.angularAccel := by
      push_cast
      ring
    have hradius : o.radiusAt k + o.radiusAccel = o.radiusAt (k + 1) := by
      ext <;> simp [radiusAt] <;> ring
    rw [Function.iterate_succ_apply', ih]
    simp only [advance, hangle, hspeed, hradius]

theorem offset_iterate_advance (o : Orbit (Exact r)) (k : ℕ) : (advance^[k] o).offset = o.offsetAt k := by
  rw [iterate_advance]
  rfl

end Orbit

/-! ### One step -/

/-- How far the current position is away from the base. -/
def Properties.lead (P : Properties (Exact r)) : Vec (Exact r) := P.pos.current - P.pos.base

theorem Track.iterate_advance_motion {μ ν : Type} (f : μ → μ) (t : Track μ ν) (n : ℕ) :
    ((Track.advance f)^[n] t).motion = t.motion.map f^[n] := by
  induction n with
  | zero => exact (congrFun Option.map_id t.motion).symm
  | succ n ih =>
    rw [Function.iterate_succ_apply', Function.iterate_succ', ← Option.map_map, ← ih]
    rfl

namespace Tracks

theorem applyKind_pos {α : Type} [Scalar α] (t : Tracks α) (P : Properties α) {k : MotionKind}
    (h : k = .rotate ∨ k = .fade) : (t.applyKind P k).pos = P.pos := by
  have e := congrArg Properties.pos (t.applyKind_forget_kind P k)
  rcases h with rfl | rfl <;> exact e

variable (t : Tracks (Exact r)) (P : Properties (Exact r))

/-- A zoom moves both parts of the position alike. -/
theorem applyKind_zoom_lead : (t.applyKind P .zoom).lead = P.lead :=
  applyKind_of_drift (R := fun Q _ => Q.lead = P.lead)
    (rfl : t.motion? .zoom = t.zoom.motion.map .zoom) rfl fun _ => add_sub_add_right_eq_sub _ _ _

/-- After a step a picture on an orbit is away from its base by the offset of the orbit. -/
theorem apply_lead {o : Orbit (Exact r)} (ho : t.circle.motion = some o) :
    (t.apply P).lead = o.offset := by
  have hcircle : t.motion? .circle = some (.circle o) := by rw [motion?, ho, Option.map_some]
  rw [apply_eq, Properties.lead, applyKind_pos _ _ (Or.inr rfl), applyKind_pos _ _ (Or.inl rfl)]
  refine (t.applyKind_zoom_lead _).trans ?_
  rw [applyKind_of_motion? hcircle]
  exact add_sub_cancel_left _ _

theorem iterate_advance_circle {α : Type} [Scalar α] (t : Tracks α) {o : Orbit α}
    (ho : t.circle.motion = some o) (k : ℕ) :
    (advance^[k] t).circle.motion = some (Orbit.advance^[k] o) := by
  have hcircle : Function.Semiconj Tracks.circle (advance (α := α)) (Track.advance Orbit.advance) :=
    fun _ => rfl
  rw [hcircle.iterate_right k t, Track.iterate_advance_motion, ho, Option.map_some]

end Tracks

/-! ### Many steps -/

namespace Picture

section

variable {α : Type} [Scalar α] {p q : Picture α}

theorem iterate_animate_tracks (p : Picture α) (k : ℕ) :
    (animate^[k] p).tracks = Tracks.advance^[k] p.tracks := by
  induction k with
  | zero => rfl
  | succ k ih =>
    rw [Function.iterate_succ_apply', Function.iterate_succ_apply', ← ih]
    rfl

theorem iterate_animate_forget {k : MotionKind} (h : p.forget k = q.forget k) (n : ℕ) :
    (animate^[n] p).forget k = (animate^[n] q).forget k := by
  have hstep : ∀ p : Picture α, (p.forget k).animate.forget k = p.animate.forget k :=
    (forgetting α k).animate_hide
  induction n with
  | zero => exact h
  | succ n ih => rw [Function.iterate_succ_apply', Function.iterate_succ_apply', ← hstep, ih, hstep]

/-- The picture without its orbit. -/
def withoutOrbit (p : Picture α) : Picture α := { p with tracks := { p.tracks with circle := {} } }

theorem forget_withoutOrbit (p : Picture α) : p.withoutOrbit.forget .circle = p.forget .circle := rfl

end

variable {p : Picture (Exact r)} {o : Orbit (Exact r)}

theorem iterate_animate_lead (ho : p.tracks.circle.motion = some o) (k : ℕ) :
    (animate^[k + 1] p).properties.lead = o.offsetAt k := by
  have horbit : (animate^[k] p).tracks.circle.motion = some (Orbit.advance^[k] o) := by
    rw [iterate_animate_tracks]
    exact p.tracks.iterate_advance_circle ho k
  rw [Function.iterate_succ_apply', ← o.offset_iterate_advance]
  exact Tracks.apply_lead _ _ horbit

/-- Take a picture with an orbit, over exact numbers and for any circular functions, with any other motions
beside it, and let its animations step `k + 1` times, one step after the other or in the course of a run in
which nothing configures the picture.  Then it is away from its base by the offset that belongs to the
angle and the radius of the orbit after `k` steps, and its base is where it would be without the orbit. -/
theorem orbit_keeps_offset (h : Reachable p) (ho : p.tracks.circle.motion = some o) (k : ℕ) :
    ((animate^[k + 1] p).properties.lead = o.offsetAt k ∧
      (animate^[k + 1] p).properties.pos.base =
        (animate^[k + 1] p.withoutOrbit).properties.pos.base) ∧
    ∀ ops : List (Op (Exact r)), (∀ op ∈ ops, ¬ op.Configures) → p.stepCount ops = k + 1 →
      (p.after ops).properties.lead = o.offsetAt k ∧
      (p.after ops).properties.pos.base = (p.withoutOrbit.after ops).properties.pos.base := by
  refine ⟨⟨iterate_animate_lead ho k, ?_⟩, fun ops hops hcount => ⟨?_, ?_⟩⟩
  · exact base_eq_of_forget (iterate_animate_forget p.forget_withoutOrbit.symm (k + 1))
  · rw [(stillAs_after hops).1, hcount]
    exact iterate_animate_lead ho k
  · have hclamped : Clamped p.withoutOrbit := h.clamped
    exact base_eq_of_forget (observed_alike h.clamped hclamped p.forget_withoutOrbit.symm ops).2

/-- Circular functions that cut the corner from the angle zero to a right angle. -/
def cornerCut : Reading where
  cos x := 1 - x
  sin x := x
  degree := 1 / 90
  text _ := ""

/-- A widening orbit around a cell that moves and zooms, after three steps with a pause between them. -/
theorem offset_after_three_steps :
    ∃ p q : Picture (Exact cornerCut),
      p = (initial {} {}).after [.line "pos=10,20", .line "anim_straight=2,0", .line "anim_zoom=4,2",
        .line "anim_circle=50,20,30", .line "accel_circle=1,5", .start] ∧
      q = p.after [.update 16, .update 16, .stop, .update 16, .start, .update 16] ∧
      q.properties.lead = ⟨19, 13⟩ ∧
      q.properties.pos.base = (p.withoutOrbit.after [.update 16, .update 16, .stop, .update 16, .start,
        .update 16]).properties.pos.base := by
  obtain ⟨p, hp⟩ : ∃ p : Picture (Exact cornerCut),
      p = (initial {} {}).after [.line "pos=10,20", .line "anim_straight=2,0", .line "anim_zoom=4,2",
        .line "anim_circle=50,20,30", .line "accel_circle=1,5", .start] := ⟨_, rfl⟩
  have hreach : Reachable p := hp ▸ (Reachable.initial {} {}).after _
  have horbit : p.tracks.circle.motion = some ⟨⟨50, 20⟩, 0, 30, 1, ⟨5, 0⟩⟩ ∧
      p.stepCount [.update 16, .update 16, .stop, .update 16, .start, .update 16] = 2 + 1 := by
    rw [hp]
    decide +kernel
  obtain ⟨hlead, hbase⟩ := (orbit_keeps_offset hreach horbit.1 2).2
    [.update 16, .update 16, .stop, .update 16, .start, .update 16] (by simp [Op.Configures]) horbit.2
  exact ⟨p, _, hp, rfl, hlead.trans (by decide +kernel), hbase⟩

end Picture

end Overlay

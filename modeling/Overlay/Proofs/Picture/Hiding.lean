import Overlay.Proofs.Picture.LineOrder

/-!
# Hiding parts of a picture

Some of the properties and tracks of a picture decide nothing about the rest: neither about its life nor
about what the other properties and tracks become.  Such parts can be hidden (`Hiding`).  Starting, stopping
and the passing of time do to what is left what they do to the whole, and so does every operation, as far
as what it has the picture write does (`Hiding.perform_hide`).  So pictures of which the same is left stay
alike in a run of such operations, and answer the same (`Hiding.run_alike`).
-/

namespace Overlay

namespace Picture

section

variable {α : Type} {p : Picture α} {P : Properties α} {T : Tracks α}

/-- The picture with other properties and other tracks, as far in its life as it was. -/
def withParts (p : Picture α) (P : Properties α) (T : Tracks α) : Picture α :=
  { p with properties := P, tracks := T }

/-- The properties that fix when a picture appears, for how long it is visible and when it moves are the
same. -/
structure SamePace (P Q : Properties α) : Prop where
  wait : P.wait = Q.wait
  time : P.time = Q.time
  timeAnim : P.timeAnim = Q.timeAnim

theorem appear_withParts (h : SamePace P p.properties) :
    (p.withParts P T).appear = (p.appear.1.withParts P T, p.appear.2) := by
  simp only [appear, withParts, Properties.window, h.wait, h.time, h.timeAnim]
  rfl

theorem start_withParts (h : SamePace P p.properties) :
    (p.withParts P T).start = (p.start.1.withParts P T, p.start.2) := by
  cases hr : p.running with
  | true => rw [start_of_running hr, start_of_running (p := p.withParts P T) hr]
  | false =>
    cases hp : p.phase with
    | pending =>
      cases hw : p.properties.wait with
      | none =>
        rw [start_pending_of_no_wait hr hp hw,
          start_pending_of_no_wait (p := p.withParts P T) hr hp (h.wait.trans hw)]
        exact appear_withParts (p := { p with running := true }) h
      | some w =>
        rw [start_pending_of_wait hr hp hw,
          start_pending_of_wait (p := p.withParts P T) hr hp (h.wait.trans hw)]
        rfl
    | visible =>
      rw [start_visible hr hp, start_visible (p := p.withParts P T) hr hp]
      rfl
    | timedOut => rw [start_of_timedOut hp, start_of_timedOut (p := p.withParts P T) hp]

theorem stop_withParts (p : Picture α) (P : Properties α) (T : Tracks α) :
    (p.withParts P T).stop = (p.stop.1.withParts P T, p.stop.2) := by
  cases hr : p.running with
  | false => rw [stop_of_not_running hr, stop_of_not_running (p := p.withParts P T) hr]
  | true =>
    rw [stop_of_running hr, stop_of_running (p := p.withParts P T) hr]
    rfl

theorem updatePending_withParts (h : SamePace P p.properties) (e : Millis) :
    (p.withParts P T).updatePending e =
      ((p.updatePending e).1.withParts P T, (p.updatePending e).2) := by
  cases hd : p.delay with
  | none => rw [updatePending_of_no_delay hd, updatePending_of_no_delay (p := p.withParts P T) hd]
  | some c =>
    cases hf : (c.tick e).2 with
    | true =>
      rw [updatePending_of_fires hd hf, updatePending_of_fires (p := p.withParts P T) hd hf]
      exact appear_withParts (p := { p with delay := some (c.tick e).1 }) h
    | false =>
      rw [updatePending_of_counts hd hf, updatePending_of_counts (p := p.withParts P T) hd hf]
      rfl

end

variable {α : Type} [Scalar α]

theorem stepAnimations_of_open {p : Picture α} {e : Millis} (h : (p.window.tick e).2 = true) :
    p.stepAnimations e = { p with window := (p.window.tick e).1 }.animate := by
  simp [stepAnimations, h]

theorem stepAnimations_of_shut {p : Picture α} {e : Millis} (h : (p.window.tick e).2 = false) :
    p.stepAnimations e = { p with window := (p.window.tick e).1 } := by
  simp [stepAnimations, h]

variable (α) in
/-- Properties and tracks without parts that decide nothing about the rest. -/
structure Hiding where
  /-- What is left of the properties. -/
  properties : Properties α → Properties α
  /-- What is left of the tracks. -/
  tracks : Tracks α → Tracks α
  properties_properties : ∀ P, properties (properties P) = properties P
  tracks_tracks : ∀ t, tracks (tracks t) = tracks t
  pace : ∀ P, SamePace (properties P) P
  apply : ∀ t P, properties ((tracks t).apply (properties P)) = properties (t.apply P)
  advance : ∀ t, (tracks t).advance = tracks t.advance
  mode : ∀ P, (properties P).opacity.mode = P.opacity.mode
  move : ∀ P d, properties ((properties P).move d) = properties (P.move d)
  jump : ∀ P w, properties ((properties P).jump w) = properties (P.jump w)
  resize : ∀ P d, properties ((properties P).resize d) = properties (P.resize d)
  rotate : ∀ P d, properties ((properties P).rotate d) = properties (P.rotate d)
  fade : ∀ P d, properties ((properties P).fade d) = properties (P.fade d)

/-- The operation has a picture of this origin obey the directive. -/
def Op.Writes (o : Origin) (d : Directive α) : Op α → Prop
  | .line text => Directive.obeyed o text = .ok d
  | .install m => d = .motion m
  | .accelerate a => d = .acceleration a
  | _ => False

namespace Hiding

variable {v : Hiding α} {p q : Picture α}

/-- What is left of a picture. -/
def hide (v : Hiding α) (p : Picture α) : Picture α :=
  p.withParts (v.properties p.properties) (v.tracks p.tracks)

theorem hide_hide (v : Hiding α) (p : Picture α) : v.hide (v.hide p) = v.hide p := by
  simp [hide, withParts, v.properties_properties, v.tracks_tracks]

theorem hide_eq_withParts {p q : Picture α} (hp : q.properties = p.properties)
    (ht : q.tracks = p.tracks) :
    v.hide q = q.withParts (v.properties p.properties) (v.tracks p.tracks) := by
  rw [hide, hp, ht]

theorem start_hide (v : Hiding α) (p : Picture α) : (v.hide p).start = (v.hide p.start.1, p.start.2) := by
  obtain ⟨hp, ht⟩ := p.start_properties
  rw [hide_eq_withParts hp ht]
  exact start_withParts (v.pace _)

theorem stop_hide (v : Hiding α) (p : Picture α) : (v.hide p).stop = (v.hide p.stop.1, p.stop.2) := by
  obtain ⟨hp, ht⟩ := p.stop_properties
  rw [hide_eq_withParts hp ht]
  exact p.stop_withParts _ _

theorem updatePending_hide (v : Hiding α) (p : Picture α) (e : Millis) :
    (v.hide p).updatePending e = (v.hide (p.updatePending e).1, (p.updatePending e).2) := by
  obtain ⟨hp, ht⟩ := p.updatePending_properties e
  rw [hide_eq_withParts hp ht]
  exact updatePending_withParts (v.pace _) e

theorem animate_hide (v : Hiding α) (p : Picture α) : v.hide (v.hide p).animate = v.hide p.animate := by
  simp [animate, hide, withParts, v.apply, v.advance, v.tracks_tracks]

theorem stepAnimations_hide (v : Hiding α) (p : Picture α) (e : Millis) :
    v.hide ((v.hide p).stepAnimations e) = v.hide (p.stepAnimations e) := by
  cases h : (p.window.tick e).2 with
  | true =>
    rw [stepAnimations_of_open h, stepAnimations_of_open (p := v.hide p) h]
    exact v.animate_hide { p with window := (p.window.tick e).1 }
  | false =>
    rw [stepAnimations_of_shut h, stepAnimations_of_shut (p := v.hide p) h]
    exact v.hide_hide { p with window := (p.window.tick e).1 }

/-- What follows the animation step looks at the visible time alone. -/
theorem updateVisible_hide (v : Hiding α) (p : Picture α) (e : Millis) :
    v.hide ((v.hide p).updateVisible e).1 = v.hide (p.updateVisible e).1 ∧
      ((v.hide p).updateVisible e).2 = (p.updateVisible e).2 := by
  have hstep := v.stepAnimations_hide p e
  cases hd : p.duration with
  | none =>
    rw [updateVisible_of_no_duration hd, updateVisible_of_no_duration (p := v.hide p) hd]
    exact ⟨hstep, rfl⟩
  | some c =>
    cases hf : (c.tick e).2 with
    | true =>
      rw [updateVisible_of_fires hd hf, updateVisible_of_fires (p := v.hide p) hd hf]
      exact ⟨congrArg (fun q => { q with duration := some (c.tick e).1 }.timeOut) hstep, rfl⟩
    | false =>
      rw [updateVisible_of_counts hd hf, updateVisible_of_counts (p := v.hide p) hd hf]
      exact ⟨congrArg (fun q => { q with duration := some (c.tick e).1 }) hstep, rfl⟩

theorem update_hide (v : Hiding α) (p : Picture α) (e : Millis) :
    v.hide ((v.hide p).update e).1 = v.hide (p.update e).1 ∧
      ((v.hide p).update e).2 = (p.update e).2 := by
  cases hr : p.running with
  | false =>
    rw [update_of_not_running hr, update_of_not_running (p := v.hide p) hr]
    exact ⟨v.hide_hide p, rfl⟩
  | true =>
    cases hp : p.phase with
    | pending =>
      rw [update_pending hr hp, update_pending (p := v.hide p) hr hp, updatePending_hide]
      exact ⟨v.hide_hide _, rfl⟩
    | visible =>
      obtain ⟨hpicture, hends⟩ := v.updateVisible_hide p e
      rw [update_visible hr hp, update_visible (p := v.hide p) hr hp, hends]
      exact ⟨hpicture, rfl⟩
    | timedOut =>
      rw [update_of_timedOut hp, update_of_timedOut (p := v.hide p) hp]
      exact ⟨v.hide_hide p, rfl⟩

theorem clamped_hide (hp : Clamped p) : Clamped (v.hide p) := (v.mode p.properties).trans hp

theorem mapProperties_hide {f : Properties α → Properties α}
    (hf : ∀ P, v.properties (f (v.properties P)) = v.properties (f P)) (p : Picture α) :
    v.hide ((v.hide p).mapProperties f) = v.hide (p.mapProperties f) := by
  simp [hide, withParts, mapProperties, hf, v.tracks_tracks]

/-- What is hidden decides nothing about what the operation has a picture write. -/
def Respects (v : Hiding α) (op : Op α) : Prop :=
  ∀ (p : Picture α) (d : Directive α), op.Writes p.origin d →
    v.hide ((v.hide p).write d) = v.hide (p.write d)

theorem perform_line_hide {t : String} (hv : v.Respects (.line t)) (hp : Clamped p) :
    v.hide ((v.hide p).perform (.line t)).1 = v.hide (p.perform (.line t)).1 ∧
      ((v.hide p).perform (.line t)).2 = (p.perform (.line t)).2 := by
  have hp' : Clamped (v.hide p) := clamped_hide hp
  cases hd : Directive.obeyed (α := α) p.origin t with
  | ok d =>
    rw [perform_line_of_obeyed hp hd, perform_line_of_obeyed hp' hd]
    exact ⟨hv p d hd, rfl⟩
  | error f =>
    rw [perform_line_of_refused hp hd, perform_line_of_refused hp' hd]
    exact ⟨v.hide_hide p, rfl⟩

theorem perform_hide {op : Op α} (hv : v.Respects op) (hp : Clamped p) :
    v.hide ((v.hide p).perform op).1 = v.hide (p.perform op).1 ∧
      ((v.hide p).perform op).2 = (p.perform op).2 := by
  cases op with
  | start => simp [perform, start_hide, hide_hide]
  | stop => simp [perform, stop_hide, hide_hide]
  | update e =>
    obtain ⟨hpicture, hreply⟩ := v.update_hide p e
    simp [perform, hpicture, hreply]
  | line t => exact perform_line_hide hv hp
  | install m => exact ⟨hv p (.motion m) rfl, rfl⟩
  | accelerate a => exact ⟨hv p (.acceleration a) rfl, rfl⟩
  | move d => exact ⟨mapProperties_hide (v.move · d) p, rfl⟩
  | jump w => exact ⟨mapProperties_hide (v.jump · w) p, rfl⟩
  | resize d => exact ⟨mapProperties_hide (v.resize · d) p, rfl⟩
  | rotate d => exact ⟨mapProperties_hide (v.rotate · d) p, rfl⟩
  | fade d => exact ⟨mapProperties_hide (v.fade · d) p, rfl⟩

/-- An operation keeps two pictures alike that are, and answers both the same. -/
theorem perform_alike {op : Op α} (hv : v.Respects op) (hp : Clamped p) (hq : Clamped q)
    (h : v.hide p = v.hide q) :
    v.hide (p.perform op).1 = v.hide (q.perform op).1 ∧ (p.perform op).2 = (q.perform op).2 := by
  obtain ⟨hpicture, hreply⟩ := perform_hide hv hp
  obtain ⟨hpicture', hreply'⟩ := perform_hide hv hq
  rw [← hpicture, ← hreply, h]
  exact ⟨hpicture', hreply'⟩

/-- A run keeps two pictures alike that are, and answers both the same. -/
theorem run_alike {ops : List (Op α)} (hv : ∀ op ∈ ops, v.Respects op) (hp : Clamped p)
    (hq : Clamped q) (h : v.hide p = v.hide q) :
    (p.run ops).2 = (q.run ops).2 ∧ v.hide (p.after ops) = v.hide (q.after ops) := by
  induction ops generalizing p q with
  | nil => exact ⟨rfl, h⟩
  | cons op ops ih =>
    obtain ⟨hop, hrest⟩ := List.forall_mem_cons.1 hv
    obtain ⟨hpicture, hreply⟩ := perform_alike hop hp hq h
    obtain ⟨hreplies, hafter⟩ := ih hrest (hp.perform op) (hq.perform op) hpicture
    rw [run_cons, run_cons, hreply, hreplies]
    exact ⟨rfl, hafter⟩

end Hiding

end Picture

end Overlay

import Overlay.Proofs.Picture.Runs

/-!
# Steps of the lifecycle

What starting, stopping and the passing of time do in each phase, as equations, so that later proofs
need not open the operations.  From them: the phase never goes back (`rank_le_perform`), a picture that
timed out stays so, the reply says when it does (`timesOut_iff_phase`), and only the animation step of a
visible picture changes properties and tracks.
-/

namespace Overlay

namespace Picture

variable {α : Type} {p : Picture α}

/-- An operation belongs to the lifecycle or configures. -/
theorem Op.lifecycle_or_configures (op : Op α) :
    op = .start ∨ op = .stop ∨ (∃ e, op = .update e) ∨ op.Configures := by
  cases op <;> simp [Op.Configures]

/-! ### Starting and stopping -/

theorem start_of_running (h : p.running = true) : p.start = (p, []) := by simp [start, h]

theorem start_of_timedOut (h : p.phase = .timedOut) : p.start = (p, []) := by simp [start, h]

theorem start_pending_of_wait {w : Wait} (hr : p.running = false) (hp : p.phase = .pending)
    (hw : p.properties.wait = some w) : p.start = p.await w.delay := by
  simp [start, hr, hp, hw]

theorem start_pending_of_no_wait (hr : p.running = false) (hp : p.phase = .pending)
    (hw : p.properties.wait = none) : p.start = { p with running := true }.appear := by
  simp [start, hr, hp, hw]

theorem start_visible (hr : p.running = false) (hp : p.phase = .visible) :
    p.start = ({ p with
      running := true
      window := p.window.resume
      duration := p.duration.map Countdown.start }, []) := by
  simp [start, hr, hp]

theorem stop_of_not_running (h : p.running = false) : p.stop = (p, []) := by simp [stop, h]

theorem stop_of_running (h : p.running = true) :
    p.stop = ({ p with
      running := false
      waiting := false
      delay := p.delay.map Countdown.stop
      duration := p.duration.map Countdown.stop
      window := p.window.pause },
      if p.waiting then [.doneWaiting p.origin.pointer] else []) := by
  simp [stop, h]

/-! ### Time -/

theorem updatePending_of_no_delay (h : p.delay = none) (e : Millis) :
    p.updatePending e = (p, []) := by
  simp [updatePending, h]

theorem updatePending_of_fires {c : Countdown} {e : Millis} (h : p.delay = some c)
    (hf : (c.tick e).2 = true) :
    p.updatePending e = { p with delay := some (c.tick e).1 }.appear := by
  simp [updatePending, h, hf]

theorem updatePending_of_counts {c : Countdown} {e : Millis} (h : p.delay = some c)
    (hf : (c.tick e).2 = false) :
    p.updatePending e = ({ p with delay := some (c.tick e).1 }, []) := by
  simp [updatePending, h, hf]

variable [Scalar α]

theorem update_of_not_running (h : p.running = false) (e : Millis) : p.update e = (p, [], false) := by
  simp [update, h]

theorem update_of_timedOut (h : p.phase = .timedOut) (e : Millis) : p.update e = (p, [], false) := by
  simp [update, h]

theorem update_pending (hr : p.running = true) (hp : p.phase = .pending) (e : Millis) :
    p.update e = ((p.updatePending e).1, (p.updatePending e).2, false) := by
  simp [update, hr, hp]

theorem update_visible (hr : p.running = true) (hp : p.phase = .visible) (e : Millis) :
    p.update e = ((p.updateVisible e).1, [], (p.updateVisible e).2) := by
  simp [update, hr, hp]

/-- The animation step of an update: the clock of the window goes on, and the animations step if the
window was open. -/
def stepAnimations (p : Picture α) (e : Millis) : Picture α :=
  let q := { p with window := (p.window.tick e).1 }
  if (p.window.tick e).2 then q.animate else q

theorem stepAnimations_duration (p : Picture α) (e : Millis) :
    (p.stepAnimations e).duration = p.duration := by
  unfold stepAnimations
  split <;> rfl

theorem updateVisible_eq (p : Picture α) (e : Millis) :
    p.updateVisible e =
      match (p.stepAnimations e).duration with
      | none => (p.stepAnimations e, false)
      | some c =>
        if (c.tick e).2 then
          ({ p.stepAnimations e with duration := some (c.tick e).1 }.timeOut, true)
        else ({ p.stepAnimations e with duration := some (c.tick e).1 }, false) := rfl

theorem updateVisible_of_no_duration (h : p.duration = none) (e : Millis) :
    p.updateVisible e = (p.stepAnimations e, false) := by
  rw [updateVisible_eq, stepAnimations_duration, h]

theorem updateVisible_of_fires {c : Countdown} {e : Millis} (h : p.duration = some c)
    (hf : (c.tick e).2 = true) :
    p.updateVisible e =
      ({ p.stepAnimations e with duration := some (c.tick e).1 }.timeOut, true) := by
  simp [updateVisible_eq, stepAnimations_duration, h, hf]

theorem updateVisible_of_counts {c : Countdown} {e : Millis} (h : p.duration = some c)
    (hf : (c.tick e).2 = false) :
    p.updateVisible e = ({ p.stepAnimations e with duration := some (c.tick e).1 }, false) := by
  simp [updateVisible_eq, stepAnimations_duration, h, hf]

theorem stepAnimations_phase (p : Picture α) (e : Millis) : (p.stepAnimations e).phase = p.phase := by
  unfold stepAnimations
  split <;> rfl

theorem stepAnimations_running (p : Picture α) (e : Millis) :
    (p.stepAnimations e).running = p.running := by
  unfold stepAnimations
  split <;> rfl

theorem stepAnimations_window (p : Picture α) (e : Millis) :
    (p.stepAnimations e).window = (p.window.tick e).1 := by
  unfold stepAnimations
  split <;> rfl

/-! ### The phase -/

omit [Scalar α] in
theorem stop_phase (p : Picture α) : p.stop.1.phase = p.phase := by
  cases hr : p.running with
  | false => rw [stop_of_not_running hr]
  | true => rw [stop_of_running hr]

omit [Scalar α] in
theorem start_phase_of_visible (hp : p.phase = .visible) : p.start.1.phase = .visible := by
  cases hr : p.running with
  | false => rw [start_visible hr hp]; exact hp
  | true => rw [start_of_running hr]; exact hp

/-- A visible picture stays visible or times out, and the reply says which. -/
theorem updateVisible_phase (hp : p.phase = .visible) (e : Millis) :
    (p.updateVisible e).1.phase = (if (p.updateVisible e).2 then .timedOut else .visible) := by
  have hs : (p.stepAnimations e).phase = .visible := (stepAnimations_phase p e).trans hp
  cases hd : p.duration with
  | none => rw [updateVisible_of_no_duration hd]; exact hs
  | some c =>
    cases hf : (c.tick e).2 with
    | true => rw [updateVisible_of_fires hd hf]; rfl
    | false => rw [updateVisible_of_counts hd hf]; exact hs

theorem update_phase_of_visible (hp : p.phase = .visible) (e : Millis) :
    (p.update e).1.phase = (if (p.update e).2.2 then .timedOut else .visible) := by
  cases hr : p.running with
  | false => rw [update_of_not_running hr]; exact hp
  | true => rw [update_visible hr hp]; exact updateVisible_phase hp e

theorem perform_phase_of_configures {op : Op α} (h : op.Configures) :
    (p.perform op).1.phase = p.phase := by
  obtain ⟨⟨P, T, e⟩, -⟩ := p.perform_of_configures h
  rw [e]

/-- An operation leaves a visible picture visible, or it times out and the reply says so. -/
theorem perform_phase_of_visible (hp : p.phase = .visible) (op : Op α) :
    (p.perform op).1.phase = (if (p.perform op).2.timesOut then .timedOut else .visible) := by
  rcases op.lifecycle_or_configures with rfl | rfl | ⟨e, rfl⟩ | h
  · exact start_phase_of_visible hp
  · exact (stop_phase p).trans hp
  · exact update_phase_of_visible hp e
  · rw [perform_phase_of_configures h, (p.perform_of_configures h).2]
    exact hp

/-- An operation leaves a pending picture pending, or it is a start or an update with which the picture,
running by then, appears. -/
theorem perform_of_pending (hp : p.phase = .pending) (op : Op α) :
    (p.perform op).2.timesOut = false ∧
      ((p.perform op).1.phase = .pending ∨
        ∃ q : Picture α, q.running = true ∧ (p.perform op).1 = q.appear.1) := by
  rcases op.lifecycle_or_configures with rfl | rfl | ⟨e, rfl⟩ | h
  · have hs : (p.perform .start).1 = p.start.1 := rfl
    refine ⟨rfl, ?_⟩
    rw [hs]
    cases hr : p.running with
    | true => rw [start_of_running hr]; exact Or.inl hp
    | false =>
      cases hw : p.properties.wait with
      | none =>
        rw [start_pending_of_no_wait hr hp hw]
        exact Or.inr ⟨_, rfl, rfl⟩
      | some w =>
        rw [start_pending_of_wait hr hp hw]
        exact Or.inl hp
  · exact ⟨rfl, Or.inl ((stop_phase p).trans hp)⟩
  · have hu : (p.perform (.update e)).1 = (p.update e).1 := rfl
    have ht : (p.perform (.update e)).2.timesOut = (p.update e).2.2 := rfl
    rw [hu, ht]
    cases hr : p.running with
    | false => rw [update_of_not_running hr]; exact ⟨rfl, Or.inl hp⟩
    | true =>
      rw [update_pending hr hp]
      cases hd : p.delay with
      | none => rw [updatePending_of_no_delay hd]; exact ⟨rfl, Or.inl hp⟩
      | some c =>
        cases hf : (c.tick e).2 with
        | true =>
          rw [updatePending_of_fires hd hf]
          exact ⟨rfl, Or.inr ⟨{ p with delay := some (c.tick e).1 }, hr, rfl⟩⟩
        | false => rw [updatePending_of_counts hd hf]; exact ⟨rfl, Or.inl hp⟩
  · exact ⟨(p.perform_of_configures h).2, Or.inl ((perform_phase_of_configures h).trans hp)⟩

/-- A picture that timed out stays so. -/
theorem perform_phase_of_timedOut (hp : p.phase = .timedOut) (op : Op α) :
    (p.perform op).1.phase = .timedOut ∧ (p.perform op).2.timesOut = false := by
  rcases op.lifecycle_or_configures with rfl | rfl | ⟨e, rfl⟩ | h
  · simp [perform, start_of_timedOut hp, hp]
  · exact ⟨(stop_phase p).trans hp, rfl⟩
  · simp [perform, update_of_timedOut hp, hp]
  · exact ⟨(perform_phase_of_configures h).trans hp, (p.perform_of_configures h).2⟩

theorem perform_phase_ne_timedOut (hp : p.phase = .pending) (op : Op α) :
    (p.perform op).1.phase ≠ .timedOut := by
  obtain ⟨-, hphase | ⟨q, -, hq⟩⟩ := perform_of_pending hp op
  · rw [hphase]
    decide
  · rw [hq]
    exact nofun

/-- An update answers that the picture times out exactly when it does so, and nothing else answers that. -/
theorem timesOut_iff_phase (p : Picture α) (op : Op α) :
    (p.perform op).2.timesOut = true ↔ p.phase = .visible ∧ (p.perform op).1.phase = .timedOut := by
  cases hp : p.phase with
  | pending => simp [(perform_of_pending hp op).1]
  | visible =>
    rw [perform_phase_of_visible hp]
    cases (p.perform op).2.timesOut <;> simp
  | timedOut => simp [(perform_phase_of_timedOut hp op).2]

/-- The place of a phase in the order in which a picture goes through them. -/
def rank : Phase → Nat
  | .pending => 0
  | .visible => 1
  | .timedOut => 2

/-- No operation takes a picture back to an earlier phase. -/
theorem rank_le_perform (p : Picture α) (op : Op α) :
    rank p.phase ≤ rank (p.perform op).1.phase := by
  cases hp : p.phase with
  | pending => exact Nat.zero_le _
  | visible =>
    rw [perform_phase_of_visible hp]
    split <;> decide
  | timedOut => exact Nat.le_of_eq (congrArg rank (perform_phase_of_timedOut hp op).1.symm)

theorem perform_phase_ne_pending (hp : p.phase ≠ .pending) (op : Op α) :
    (p.perform op).1.phase ≠ .pending := by
  intro h
  have := rank_le_perform p op
  rw [h] at this
  cases hq : p.phase <;> simp_all [rank]

theorem rank_le_after (p : Picture α) (ops : List (Op α)) : rank p.phase ≤ rank (p.after ops).phase := by
  induction ops generalizing p with
  | nil => exact Nat.le_refl _
  | cons op ops ih => exact Nat.le_trans (rank_le_perform p op) (ih _)

/-! ### Properties and tracks -/

omit [Scalar α] in
theorem stop_properties (p : Picture α) :
    p.stop.1.properties = p.properties ∧ p.stop.1.tracks = p.tracks := by
  cases hr : p.running with
  | false => rw [stop_of_not_running hr]; exact ⟨rfl, rfl⟩
  | true => rw [stop_of_running hr]; exact ⟨rfl, rfl⟩

omit [Scalar α] in
theorem start_properties (p : Picture α) :
    p.start.1.properties = p.properties ∧ p.start.1.tracks = p.tracks := by
  unfold start
  split
  · exact ⟨rfl, rfl⟩
  · split
    · split <;> exact ⟨rfl, rfl⟩
    · exact ⟨rfl, rfl⟩
    · exact ⟨rfl, rfl⟩

omit [Scalar α] in
theorem updatePending_properties (p : Picture α) (e : Millis) :
    (p.updatePending e).1.properties = p.properties ∧ (p.updatePending e).1.tracks = p.tracks := by
  cases hd : p.delay with
  | none => rw [updatePending_of_no_delay hd]; exact ⟨rfl, rfl⟩
  | some c =>
    cases hf : (c.tick e).2 with
    | true => rw [updatePending_of_fires hd hf]; exact ⟨rfl, rfl⟩
    | false => rw [updatePending_of_counts hd hf]; exact ⟨rfl, rfl⟩

theorem update_properties_of_not_visible (hp : p.phase ≠ .visible) (e : Millis) :
    (p.update e).1.properties = p.properties ∧ (p.update e).1.tracks = p.tracks := by
  cases hr : p.running with
  | false => rw [update_of_not_running hr]; exact ⟨rfl, rfl⟩
  | true =>
    cases hp' : p.phase with
    | pending => rw [update_pending hr hp']; exact p.updatePending_properties e
    | visible => exact absurd hp' hp
    | timedOut => rw [update_of_timedOut hp']; exact ⟨rfl, rfl⟩

/-- The animations of a running visible picture step once if its window is open, and not otherwise. -/
theorem update_properties_of_visible (hr : p.running = true) (hp : p.phase = .visible) (e : Millis) :
    (p.update e).1.properties = (p.stepAnimations e).properties ∧
      (p.update e).1.tracks = (p.stepAnimations e).tracks := by
  rw [update_visible hr hp]
  cases hd : p.duration with
  | none => rw [updateVisible_of_no_duration hd]; exact ⟨rfl, rfl⟩
  | some c =>
    cases hf : (c.tick e).2 with
    | true => rw [updateVisible_of_fires hd hf]; exact ⟨rfl, rfl⟩
    | false => rw [updateVisible_of_counts hd hf]; exact ⟨rfl, rfl⟩

theorem stepAnimations_properties (p : Picture α) (e : Millis) :
    (p.stepAnimations e).properties =
      (if (p.window.tick e).2 then p.tracks.apply p.properties else p.properties) ∧
    (p.stepAnimations e).tracks = (if (p.window.tick e).2 then p.tracks.advance else p.tracks) := by
  unfold stepAnimations
  split <;> exact ⟨rfl, rfl⟩

/-- When time passes, the animations step or nothing moves. -/
theorem update_still_or_stepped (p : Picture α) (e : Millis) :
    ((p.update e).1.properties = p.properties ∧ (p.update e).1.tracks = p.tracks) ∨
      ((p.update e).1.properties = p.tracks.apply p.properties ∧
        (p.update e).1.tracks = p.tracks.advance) := by
  by_cases hp : p.phase = .visible
  · cases hr : p.running with
    | false =>
      rw [update_of_not_running hr]
      exact Or.inl ⟨rfl, rfl⟩
    | true =>
      obtain ⟨hproperties, htracks⟩ := update_properties_of_visible hr hp e
      obtain ⟨hstepped, hadvanced⟩ := p.stepAnimations_properties e
      rw [hproperties, htracks, hstepped, hadvanced]
      split
      · exact Or.inr ⟨rfl, rfl⟩
      · exact Or.inl ⟨rfl, rfl⟩
  · exact Or.inl (update_properties_of_not_visible hp e)

theorem moved_update (p : Picture α) (e : Millis) : p.properties.Moved (p.update e).1.properties := by
  rcases p.update_still_or_stepped e with ⟨h, -⟩ | ⟨h, -⟩ <;> rw [h]
  · exact .refl _
  · exact Properties.moved_applyAll p.tracks p.properties

/-- An operation other than a line moves the properties at most. -/
theorem moved_perform {op : Op α} (h : ∀ text, op ≠ .line text) :
    p.properties.Moved (p.perform op).1.properties := by
  cases op with
  | start =>
    have hstart : (p.perform .start).1.properties = p.properties := p.start_properties.1
    exact hstart ▸ .refl _
  | stop =>
    have hstop : (p.perform .stop).1.properties = p.properties := p.stop_properties.1
    exact hstop ▸ .refl _
  | update e => exact p.moved_update e
  | line text => exact absurd rfl (h text)
  | install m => exact .refl _
  | accelerate a => exact .refl _
  | move d => exact ⟨_, _, _, _, rfl⟩
  | jump v => exact ⟨_, _, _, _, rfl⟩
  | resize d => exact ⟨_, _, _, _, rfl⟩
  | rotate d => exact ⟨_, _, _, _, rfl⟩
  | fade d => exact ⟨_, _, _, _, rfl⟩

end Picture

namespace Properties

variable {α : Type} [Scalar α] {Q : Properties α → Prop}

theorem Kept.update (k : Kept Q) {p : Picture α} (h : Q p.properties) (e : Millis) :
    Q (p.update e).1.properties := by
  rcases p.update_still_or_stepped e with ⟨he, -⟩ | ⟨he, -⟩ <;> rw [he]
  · exact h
  · exact k.applyAll p.tracks h

theorem Kept.line (k : Kept Q) {p : Picture α} (h : Q p.properties) (text : String) :
    Q (p.perform (.line text)).1.properties := by
  cases e : p.readLine text with
  | error f => rwa [Picture.perform_line_error e]
  | ok q =>
    rw [Picture.perform_line_ok e]
    obtain ⟨d, -, ho⟩ := Picture.readLine_eq_ok e
    rcases Picture.obey_eq_ok ho with ⟨s, P, -, hs, rfl⟩ | ⟨T, rfl⟩
    · exact k.set _ s P h hs
    · exact h

/-- What settings and moves keep, every operation on a picture keeps. -/
theorem Kept.perform (k : Kept Q) {p : Picture α} (h : Q p.properties) (op : Picture.Op α) :
    Q (p.perform op).1.properties := by
  cases op with
  | start => exact p.start_properties.1 ▸ h
  | stop => exact p.stop_properties.1 ▸ h
  | update e => exact k.update h e
  | line text => exact k.line h text
  | install m => exact h
  | accelerate a => exact h
  | move d => exact k.move _ d h
  | jump v => exact k.jump _ v h
  | resize d => exact k.resize _ d h
  | rotate d => exact k.rotate _ d h
  | fade d => exact k.fade _ d h

end Properties

end Overlay

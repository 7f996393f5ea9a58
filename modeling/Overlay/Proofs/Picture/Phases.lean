import Overlay.Proofs.Picture.Coherence

/-!
# Phases in order

A picture goes from pending to visible and from visible to timed out, one phase at a time and never back
(`perform_phase_of_ne` says which operations lead on).  An update answers that the picture times out
exactly when it leads from visible to timed out (`timesOut_iff_phase`), so in a run this is answered once
or never (`countP_timesOut`).  A picture that timed out is at rest for good (`run_of_ended`).
-/

namespace Overlay

namespace Picture

variable {α : Type} [Scalar α] {p : Picture α} {op : Op α}

/-! ### One operation -/

/-- Only starting and the passing of time lead out of a phase, and only the passing of time out of the
visible one. -/
theorem perform_phase_of_ne (h : (p.perform op).1.phase ≠ p.phase) :
    (p.phase = .pending ∧ op = .start) ∨ ∃ e, op = .update e := by
  rcases op.lifecycle_or_configures with rfl | rfl | ⟨e, rfl⟩ | ho
  · cases hp : p.phase with
    | pending => exact Or.inl ⟨rfl, rfl⟩
    | visible => exact absurd ((start_phase_of_visible hp).trans hp.symm) h
    | timedOut => exact absurd ((perform_phase_of_timedOut hp .start).1.trans hp.symm) h
  · exact absurd (stop_phase p) h
  · exact Or.inr ⟨e, rfl⟩
  · exact absurd (perform_phase_of_configures ho) h

/-- What belongs to the lifecycle does nothing to a picture that is at rest after it timed out. -/
theorem perform_of_ended (h : Ended p) (ho : ¬ op.Configures) : p.perform op = (p, {}) := by
  rcases op.lifecycle_or_configures with rfl | rfl | ⟨e, rfl⟩ | hc
  · simp [perform, start_of_timedOut h.phase]
  · simp [perform, stop_of_not_running h.rests]
  · simp [perform, update_of_timedOut h.phase]
  · exact absurd hc ho

/-! ### Runs -/

theorem after_phase_of_timedOut (hp : p.phase = .timedOut) (ops : List (Op α)) :
    (p.after ops).phase = .timedOut := by
  induction ops generalizing p with
  | nil => exact hp
  | cons op ops ih => exact ih (perform_phase_of_timedOut hp op).1

/-- A run times the picture out once, if the picture has not timed out before it and has after it, and
otherwise not at all. -/
theorem countP_timesOut (p : Picture α) (ops : List (Op α)) :
    (p.run ops).2.countP Reply.timesOut =
      if p.phase ≠ .timedOut ∧ (p.after ops).phase = .timedOut then 1 else 0 := by
  induction ops generalizing p with
  | nil => simp [run]
  | cons op ops ih =>
    have hends := timesOut_iff_phase p op
    rw [run_cons, List.countP_cons, ih, after_cons]
    cases ht : (p.perform op).2.timesOut with
    | true =>
      obtain ⟨hp, hq⟩ := hends.1 ht
      simp [hp, hq, after_phase_of_timedOut hq]
    | false =>
      -- the operation neither enters the last phase nor leaves it
      have hsame : (p.perform op).1.phase = .timedOut ↔ p.phase = .timedOut := by
        constructor
        · intro hq
          cases hp : p.phase with
          | pending => exact absurd hq (perform_phase_ne_timedOut hp op)
          | visible => exact absurd (hends.2 ⟨hp, hq⟩) (by simp [ht])
          | timedOut => rfl
        · exact fun hp => (perform_phase_of_timedOut hp op).1
      simp [hsame]

theorem run_of_ended (h : Ended p) {ops : List (Op α)} (ho : ∀ op ∈ ops, ¬ op.Configures) :
    p.run ops = (p, List.replicate ops.length {}) := by
  induction ops with
  | nil => rfl
  | cons op ops ih =>
    have hfirst := perform_of_ended h (ho op List.mem_cons_self)
    have hrest := ih fun o hm => ho o (List.mem_cons_of_mem _ hm)
    rw [run_cons, hfirst, hrest]
    rfl

theorem Reachable.ended (h : Reachable p) (hp : p.phase = .timedOut) : Ended p := by
  rcases h.coherent with h | h | h
  · exact (phase_ne h.phase hp (by decide)).elim
  · exact (phase_ne h.phase hp (by decide)).elim
  · exact h

/-- Take any picture that can come about.  No operation takes it to an earlier phase, and none from pending
to timed out at once.  Only starting and the passing of time end the pending phase, and only the passing of
time ends the visible one; what configures the picture and what stops it ends none.  An update answers that
the picture times out exactly if it leads from visible to timed out, which happens at most once in a run.
From then on nothing that starts, stops or passes time changes the picture, asks the host for anything or
times it out again. -/
theorem phases_in_order (h : Reachable p) :
    (∀ op : Op α, rank p.phase ≤ rank (p.perform op).1.phase ∧
      (p.phase = .pending → (p.perform op).1.phase ≠ .timedOut)) ∧
    (∀ op : Op α, (p.perform op).1.phase ≠ p.phase →
      (p.phase = .pending ∧ op = .start) ∨ ∃ e, op = .update e) ∧
    (∀ op : Op α, (p.perform op).2.timesOut = true ↔
      p.phase = .visible ∧ (p.perform op).1.phase = .timedOut) ∧
    (∀ ops : List (Op α), (p.run ops).2.countP Reply.timesOut ≤ 1) ∧
    (p.phase = .timedOut → ∀ ops : List (Op α), (∀ op ∈ ops, ¬ op.Configures) →
      p.run ops = (p, List.replicate ops.length {})) := by
  refine ⟨fun op => ⟨rank_le_perform p op, fun hp => perform_phase_ne_timedOut hp op⟩,
    fun op ho => perform_phase_of_ne ho, timesOut_iff_phase p, fun ops => ?_,
    fun hp ops ho => run_of_ended (h.ended hp) ho⟩
  rw [countP_timesOut]
  split <;> decide

/-- A picture with a visible time of 20 is shown for two updates of 10.  It can be stopped and started
again afterwards, and time may pass, without anything happening. -/
theorem at_rest_after_visible_time :
    ∃ p : Picture Float,
      p = (initial {} {}).after [.line "time=20", .start, .update 10, .update 10] ∧
      p.phase = .timedOut ∧ p.run [.start, .stop, .update 50] = (p, [{}, {}, {}]) := by
  obtain ⟨p, hp⟩ : ∃ p : Picture Float,
      p = (initial {} {}).after [.line "time=20", .start, .update 10, .update 10] := ⟨_, rfl⟩
  have hphase : p.phase = .timedOut := by
    rw [hp]
    decide +kernel
  have hreachable : Reachable p := hp ▸ (Reachable.initial {} {}).after _
  obtain ⟨-, -, -, -, hrest⟩ := phases_in_order hreachable
  exact ⟨p, hp, hphase, hrest hphase _ (by simp [Op.Configures])⟩

end Picture

end Overlay

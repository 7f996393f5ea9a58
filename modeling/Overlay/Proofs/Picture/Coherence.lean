import Overlay.Proofs.Clock.Counting
import Overlay.Proofs.Picture.Transitions
import Overlay.Scalar.Binary64

/-!
# Flags and clocks in step

A picture carries flags, two countdowns and a window that have to agree with its phase.  `Holding`,
`Showing` and `Ended` say how they stand while it is pending, visible and timed out.  Every transition
leads from one of the three to one of the three, so every picture that can come about is `Coherent`:
`flags_and_clocks_in_step`.
-/

namespace Overlay

/-! ### Countdowns and their pictures -/

namespace Countdown

/-- The countdown has not fired, and counts exactly while `running`. -/
structure Follows (c : Countdown) (running : Bool) : Prop where
  notFired : c.fired = false
  running : c.running = running

variable {c : Countdown} {running : Bool}

theorem follows_ofDuration (duration : Millis) : (ofDuration duration).Follows false := ⟨rfl, rfl⟩

theorem Follows.start (h : c.Follows running) : c.start.Follows true := by
  have hs : c.start = { c with running := true } := by simp [Countdown.start, h.notFired]
  rw [hs]
  exact ⟨h.notFired, rfl⟩

theorem Follows.stop (h : c.Follows running) : c.stop.Follows false := ⟨h.notFired, rfl⟩

theorem tick_of_not_running (hr : c.running = false) (e : Millis) : c.tick e = (c, false) := by
  simp [Countdown.tick, hr]

theorem Follows.tick (h : c.Follows running) {e : Millis} (hf : (c.tick e).2 = false) :
    (c.tick e).1.Follows running := by
  cases hr : c.running with
  | false =>
    rw [tick_of_not_running hr]
    exact h
  | true =>
    by_cases hd : c.duration ≤ c.elapsed.plus e
    · rw [tick_of_le hr hd] at hf
      cases hf
    · rw [tick_of_not_le hr hd]
      exact ⟨h.notFired, h.running⟩

/-- A countdown that fires rests from then on. -/
theorem fired_of_tick {e : Millis} (hf : (c.tick e).2 = true) :
    (c.tick e).1.fired = true ∧ (c.tick e).1.running = false := by
  cases hr : c.running with
  | false =>
    rw [tick_of_not_running hr] at hf
    cases hf
  | true =>
    by_cases hd : c.duration ≤ c.elapsed.plus e
    · rw [tick_of_le hr hd]
      exact ⟨rfl, rfl⟩
    · rw [tick_of_not_le hr hd] at hf
      cases hf

end Countdown

theorem Window.tick_running (w : Window) (e : Millis) : (w.tick e).1.running = w.running := by
  unfold Window.tick
  split <;> rfl

namespace Picture

variable {α : Type} {p q : Picture α} {op : Op α} {rs : List Request}

/-! ### How flags and clocks stand -/

/-- A pending picture, and how its flags and clocks stand. -/
structure Holding (p : Picture α) : Prop where
  phase : p.phase = .pending
  waiting : p.waiting = p.running
  /-- A picture that runs has a delay to wait for. -/
  timed : p.running = true → p.delay.isSome = true
  /-- A delay that has been started can be waited for again after a pause. -/
  clock : ∀ c, p.delay = some c → c.Follows p.running ∧ p.properties.wait.isSome = true
  noDuration : p.duration = none
  windowRests : p.window.running = false

/-- A visible picture, and how its flags and clocks stand. -/
structure Showing (p : Picture α) : Prop where
  phase : p.phase = .visible
  waiting : p.waiting = false
  delayRests : ∀ c, p.delay = some c → c.running = false
  clock : ∀ c, p.duration = some c → c.Follows p.running
  measuring : p.window.running = p.running

/-- A picture that timed out, and how its flags and clocks stand. -/
structure Ended (p : Picture α) : Prop where
  phase : p.phase = .timedOut
  rests : p.running = false
  waiting : p.waiting = false
  delayRests : ∀ c, p.delay = some c → c.running = false
  fired : ∃ c, p.duration = some c ∧ c.fired = true ∧ c.running = false
  windowRests : p.window.running = false

/-- Flags and clocks agree with the phase. -/
def Coherent (p : Picture α) : Prop := Holding p ∨ Showing p ∨ Ended p

theorem Showing.of_appear (hr : p.running = true) (hd : ∀ c, p.delay = some c → c.running = false) :
    Showing p.appear.1 := by
  refine ⟨rfl, rfl, hd, fun c hc => ?_, hr.symm⟩
  obtain ⟨t, -, rfl⟩ := Option.map_eq_some_iff.1 hc
  show (Countdown.ofDuration t).start.Follows p.running
  rw [hr]
  exact (Countdown.follows_ofDuration t).start

/-- The phase decides which of the three it is. -/
theorem phase_ne {a b : Phase} (ha : p.phase = a) (hb : p.phase = b) (hab : a ≠ b) : False :=
  hab (ha.symm.trans hb)

theorem Holding.await (h : Holding p) {w : Wait} (hw : p.properties.wait = some w) :
    Holding (p.await w.delay).1 := by
  refine ⟨h.phase, rfl, fun _ => rfl, fun c hc => ?_, h.noDuration, h.windowRests⟩
  obtain rfl := Option.some.inj hc
  refine ⟨?_, by simp [Picture.await, hw]⟩
  -- the first start begins the countdown, a later one resumes it
  cases hd : p.delay with
  | none => exact (Countdown.follows_ofDuration w.delay).start
  | some c => exact (h.clock c hd).1.start

/-- A pending picture stays pending or appears. -/
theorem Holding.step (h : Holding p) (t : Transition p op q rs) : Holding q ∨ Showing q := by
  cases t with
  | idle _ => exact Or.inl h
  | configure _ hw =>
    refine Or.inl ⟨h.phase, h.waiting, h.timed, fun c hc => ?_, h.noDuration, h.windowRests⟩
    exact ⟨(h.clock c hc).1, hw (h.clock c hc).2⟩
  | await _ _ hw => exact Or.inl (h.await hw)
  | appear _ _ hw =>
    -- a delay that has been started keeps its property, so there is none
    refine Or.inr (.of_appear rfl fun c hc => ?_)
    have hs := (h.clock c hc).2
    rw [hw] at hs
    cases hs
  | pause _ =>
    refine Or.inl ⟨h.phase, rfl, fun hr => (nomatch hr), fun c hc => ?_, ?_, rfl⟩
    · obtain ⟨d, hd, rfl⟩ := Option.map_eq_some_iff.1 hc
      exact ⟨(h.clock d hd).1.stop, (h.clock d hd).2⟩
    · exact congrArg (Option.map Countdown.stop) h.noDuration
  | delay _ _ hd hf =>
    refine Or.inl ⟨h.phase, h.waiting, fun _ => rfl, fun c hc => ?_, h.noDuration, h.windowRests⟩
    obtain rfl := Option.some.inj hc
    exact ⟨(h.clock _ hd).1.tick hf, (h.clock _ hd).2⟩
  | fire hr _ _ hf =>
    refine Or.inr (.of_appear hr fun c hc => ?_)
    obtain rfl := Option.some.inj hc
    exact (Countdown.fired_of_tick hf).2
  | resume _ hp | pass _ hp _ | count _ hp _ _ | timeOut _ hp _ _ =>
    exact (phase_ne h.phase hp (by decide)).elim

/-- A visible picture stays visible or times out. -/
theorem Showing.step (h : Showing p) (t : Transition p op q rs) : Showing q ∨ Ended q := by
  cases t with
  | idle _ => exact Or.inl h
  | configure _ _ => exact Or.inl ⟨h.phase, h.waiting, h.delayRests, h.clock, h.measuring⟩
  | await _ hp _ | appear _ hp _ | delay _ hp _ _ | fire _ hp _ _ =>
    exact (phase_ne h.phase hp (by decide)).elim
  | resume _ _ =>
    refine Or.inl ⟨h.phase, h.waiting, h.delayRests, fun c hc => ?_, rfl⟩
    obtain ⟨d, hd, rfl⟩ := Option.map_eq_some_iff.1 hc
    exact (h.clock d hd).start
  | pause _ =>
    refine Or.inl ⟨h.phase, rfl, fun c hc => ?_, fun c hc => ?_, rfl⟩
    · obtain ⟨d, -, rfl⟩ := Option.map_eq_some_iff.1 hc
      rfl
    · obtain ⟨d, hd, rfl⟩ := Option.map_eq_some_iff.1 hc
      exact (h.clock d hd).stop
  | pass _ _ hd =>
    refine Or.inl ⟨h.phase, h.waiting, h.delayRests, fun c hc => ?_, ?_⟩
    · cases hd.symm.trans hc
    · exact (p.window.tick_running _).trans h.measuring
  | count _ _ hd hf =>
    refine Or.inl ⟨h.phase, h.waiting, h.delayRests, fun c hc => ?_, ?_⟩
    · obtain rfl := Option.some.inj hc
      exact (h.clock _ hd).tick hf
    · exact (p.window.tick_running _).trans h.measuring
  | timeOut _ _ _ hf =>
    exact Or.inr ⟨rfl, rfl, h.waiting, h.delayRests, ⟨_, rfl, Countdown.fired_of_tick hf⟩, rfl⟩

/-- A picture that timed out stays as it is, but for what configures it. -/
theorem Ended.step (h : Ended p) (t : Transition p op q rs) : Ended q := by
  cases t with
  | idle _ => exact h
  | configure _ _ => exact ⟨h.phase, h.rests, h.waiting, h.delayRests, h.fired, h.windowRests⟩
  | pause hr =>
    rw [h.rests] at hr
    cases hr
  | await _ hp _ | appear _ hp _ | delay _ hp _ _ | fire _ hp _ _ | resume _ hp | pass _ hp _
  | count _ hp _ _ | timeOut _ hp _ _ => exact (phase_ne h.phase hp (by decide)).elim

variable [Scalar α]

theorem Coherent.perform (h : Coherent p) (op : Op α) : Coherent (p.perform op).1 := by
  have t := p.transition op
  rcases h with h | h | h
  · exact (h.step t).imp_right Or.inl
  · exact Or.inr (h.step t)
  · exact Or.inr (Or.inr (h.step t))

theorem Reachable.coherent (h : Reachable p) : Coherent p := by
  induction h with
  | initial o c =>
    exact Or.inl ⟨rfl, rfl, fun hr => (nomatch hr), fun c hc => (nomatch hc), rfl, rfl⟩
  | perform h op ih => exact ih.perform op

/-- A picture that a script describes can come about. -/
theorem reachable_ofScript {origin : Origin} {config : Config} {lines : List String}
    (h : ofScript origin config lines = .ok p) : Reachable p := by
  rw [← after_of_readLines h]
  exact (Reachable.initial origin config).after _

/-- Take any picture that can come about.  The host has been told that it waits exactly while it is
pending and runs.  A pending picture that runs has a delay, whose countdown has been started, runs and
has not fired, so that the picture will appear.  While it is visible, the window of its animations
measures and its visible time counts exactly while it runs, and the visible time is not over.  A picture
that timed out does not run, and its visible time is over.  While it does not run, nothing in it does. -/
theorem flags_and_clocks_in_step (h : Reachable p) :
    (p.waiting = true ↔ p.phase = .pending ∧ p.running = true) ∧
    (p.phase = .pending → p.running = true → p.properties.wait.isSome = true ∧
      ∃ c, p.delay = some c ∧ c.running = true ∧ c.fired = false) ∧
    (p.phase = .visible → p.window.running = p.running ∧
      ∀ c, p.duration = some c → c.fired = false ∧ c.running = p.running) ∧
    (p.phase = .timedOut → p.running = false ∧ ∃ c, p.duration = some c ∧ c.fired = true) ∧
    (p.running = false → (∀ c, p.delay = some c → c.running = false) ∧
      (∀ c, p.duration = some c → c.running = false) ∧ p.window.running = false) := by
  rcases h.coherent with h | h | h
  · refine ⟨?_, fun _ hr => ?_, fun hp => ?_, fun hp => ?_, fun hr => ?_⟩
    · rw [h.waiting]
      exact ⟨fun hr => ⟨h.phase, hr⟩, And.right⟩
    · obtain ⟨c, hd⟩ := Option.isSome_iff_exists.1 (h.timed hr)
      obtain ⟨hc, hw⟩ := h.clock c hd
      exact ⟨hw, c, hd, hc.running.trans hr, hc.notFired⟩
    · exact (phase_ne h.phase hp (by decide)).elim
    · exact (phase_ne h.phase hp (by decide)).elim
    · refine ⟨fun c hd => (h.clock c hd).1.running.trans hr, fun c hd => ?_, h.windowRests⟩
      cases h.noDuration.symm.trans hd
  · refine ⟨?_, fun hp _ => ?_, fun _ => ?_, fun hp => ?_, fun hr => ?_⟩
    · simp [h.waiting, h.phase]
    · exact (phase_ne h.phase hp (by decide)).elim
    · exact ⟨h.measuring, fun c hd => ⟨(h.clock c hd).notFired, (h.clock c hd).running⟩⟩
    · exact (phase_ne h.phase hp (by decide)).elim
    · exact ⟨h.delayRests, fun c hd => (h.clock c hd).running.trans hr, h.measuring.trans hr⟩
  · obtain ⟨d, hd, hf, hrest⟩ := h.fired
    refine ⟨?_, fun hp _ => ?_, fun hp => ?_, fun _ => ?_, fun _ => ?_⟩
    · simp [h.waiting, h.phase]
    · exact (phase_ne h.phase hp (by decide)).elim
    · exact (phase_ne h.phase hp (by decide)).elim
    · exact ⟨h.rests, d, hd, hf⟩
    · refine ⟨h.delayRests, fun c hc => ?_, h.windowRests⟩
      obtain rfl := Option.some.inj (hd.symm.trans hc)
      exact hrest

/-- A script with a delay of 30: the picture is paused, time passes, and it is started again.  It waits,
and its delay counts. -/
theorem in_step_after_pause :
    ∃ p q : Picture Float, ofScript {} {} ["wait=30", "time=20"] = .ok p ∧
      q = p.after [.start, .update 10, .stop, .update 50, .start] ∧
      q.waiting = true ∧ ∃ c, q.delay = some c ∧ c.running = true ∧ c.fired = false := by
  have hread : (ofScript {} {} ["wait=30", "time=20"] : Except Fault (Picture Float)).toOption.map
      (fun p => ((p.after [.start, .update 10, .stop, .update 50, .start]).phase,
        (p.after [.start, .update 10, .stop, .update 50, .start]).running)) = some (.pending, true) := by
    decide +kernel
  cases hp : (ofScript {} {} ["wait=30", "time=20"] : Except Fault (Picture Float)) with
  | error f =>
    rw [hp] at hread
    cases hread
  | ok p =>
    rw [hp] at hread
    obtain ⟨hphase, hrunning⟩ := Prod.mk.inj (Option.some.inj hread)
    obtain ⟨hwaiting, hpending, -⟩ := flags_and_clocks_in_step
      ((reachable_ofScript hp).after [.start, .update 10, .stop, .update 50, .start])
    exact ⟨p, _, rfl, rfl, hwaiting.2 ⟨hphase, hrunning⟩, (hpending hphase hrunning).2⟩

end Picture

end Overlay

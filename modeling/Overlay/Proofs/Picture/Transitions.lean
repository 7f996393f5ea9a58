import Overlay.Proofs.Picture.Lifecycle

/-!
# Transitions

Everything an operation can do to a picture, once: `Transition` has a constructor for each thing that can
happen, with what has to hold before it, the picture after it and the requests to the host.  Every
operation is one of them (`transition`), so that what a run keeps is shown by cases on transitions.
-/

namespace Overlay

namespace Picture

variable {α : Type}

/-- What an operation can do to a picture, and what the host is asked for. -/
inductive Transition (p : Picture α) : Op α → Picture α → List Request → Prop
  /-- Nothing happens. -/
  | idle {op : Op α} (h : ¬ op.Configures) : Transition p op p []
  /-- The picture is configured; a delay may be replaced, and is never taken away. -/
  | configure {op : Op α} {P : Properties α} {T : Tracks α} (h : op.Configures)
      (hw : p.properties.wait.isSome = true → P.wait.isSome = true) :
      Transition p op { p with properties := P, tracks := T } []
  | await {w : Wait} (hr : p.running = false) (hp : p.phase = .pending)
      (hw : p.properties.wait = some w) :
      Transition p .start (p.await w.delay).1 (p.await w.delay).2
  | appear (hr : p.running = false) (hp : p.phase = .pending) (hw : p.properties.wait = none) :
      Transition p .start { p with running := true }.appear.1 { p with running := true }.appear.2
  | resume (hr : p.running = false) (hp : p.phase = .visible) :
      Transition p .start { p with
        running := true
        window := p.window.resume
        duration := p.duration.map Countdown.start } []
  | pause (hr : p.running = true) :
      Transition p .stop { p with
        running := false
        waiting := false
        delay := p.delay.map Countdown.stop
        duration := p.duration.map Countdown.stop
        window := p.window.pause } (if p.waiting then [.doneWaiting p.origin.pointer] else [])
  /-- A part of the delay passes. -/
  | delay {e : Millis} {c : Countdown} (hr : p.running = true) (hp : p.phase = .pending)
      (hd : p.delay = some c) (hf : (c.tick e).2 = false) :
      Transition p (.update e) { p with delay := some (c.tick e).1 } []
  /-- The delay is over. -/
  | fire {e : Millis} {c : Countdown} (hr : p.running = true) (hp : p.phase = .pending)
      (hd : p.delay = some c) (hf : (c.tick e).2 = true) :
      Transition p (.update e) { p with delay := some (c.tick e).1 }.appear.1
        { p with delay := some (c.tick e).1 }.appear.2
  /-- Time passes for a picture without a visible time. -/
  | pass {e : Millis} {P : Properties α} {T : Tracks α} (hr : p.running = true)
      (hp : p.phase = .visible) (hd : p.duration = none) :
      Transition p (.update e)
        { p with window := (p.window.tick e).1, properties := P, tracks := T } []
  /-- A part of the visible time passes. -/
  | count {e : Millis} {c : Countdown} {P : Properties α} {T : Tracks α} (hr : p.running = true)
      (hp : p.phase = .visible) (hd : p.duration = some c) (hf : (c.tick e).2 = false) :
      Transition p (.update e) { p with
        window := (p.window.tick e).1
        properties := P
        tracks := T
        duration := some (c.tick e).1 } []
  /-- The visible time is over. -/
  | timeOut {e : Millis} {c : Countdown} {P : Properties α} {T : Tracks α} (hr : p.running = true)
      (hp : p.phase = .visible) (hd : p.duration = some c) (hf : (c.tick e).2 = true) :
      Transition p (.update e) { p with
        window := (p.window.tick e).1
        properties := P
        tracks := T
        duration := some (c.tick e).1 }.timeOut []

variable {p q : Picture α} {op : Op α} {rs : List Request}

theorem Transition.origin (t : Transition p op q rs) : q.origin = p.origin := by
  cases t <;> rfl

theorem transition_start (p : Picture α) : Transition p .start p.start.1 p.start.2 := by
  cases hr : p.running with
  | true =>
    rw [start_of_running hr]
    exact .idle id
  | false =>
    cases hp : p.phase with
    | pending =>
      cases hw : p.properties.wait with
      | none =>
        rw [start_pending_of_no_wait hr hp hw]
        exact .appear hr hp hw
      | some w =>
        rw [start_pending_of_wait hr hp hw]
        exact .await hr hp hw
    | visible =>
      rw [start_visible hr hp]
      exact .resume hr hp
    | timedOut =>
      rw [start_of_timedOut hp]
      exact .idle id

theorem transition_stop (p : Picture α) : Transition p .stop p.stop.1 p.stop.2 := by
  cases hr : p.running with
  | false =>
    rw [stop_of_not_running hr]
    exact .idle id
  | true =>
    rw [stop_of_running hr]
    exact .pause hr

theorem transition_updatePending (hr : p.running = true) (hp : p.phase = .pending) (e : Millis) :
    Transition p (.update e) (p.updatePending e).1 (p.updatePending e).2 := by
  cases hd : p.delay with
  | none =>
    rw [updatePending_of_no_delay hd]
    exact .idle id
  | some c =>
    cases hf : (c.tick e).2 with
    | true =>
      rw [updatePending_of_fires hd hf]
      exact .fire hr hp hd hf
    | false =>
      rw [updatePending_of_counts hd hf]
      exact .delay hr hp hd hf

variable [Scalar α]

/-- The animation step changes the window, the properties and the tracks. -/
theorem exists_stepAnimations_eq (p : Picture α) (e : Millis) :
    ∃ P T, p.stepAnimations e = { p with window := (p.window.tick e).1, properties := P, tracks := T } := by
  unfold stepAnimations
  split
  · exact ⟨_, _, rfl⟩
  · exact ⟨p.properties, p.tracks, rfl⟩

theorem transition_updateVisible (hr : p.running = true) (hp : p.phase = .visible) (e : Millis) :
    Transition p (.update e) (p.updateVisible e).1 [] := by
  obtain ⟨P, T, hs⟩ := p.exists_stepAnimations_eq e
  cases hd : p.duration with
  | none =>
    rw [updateVisible_of_no_duration hd, hs]
    exact .pass hr hp hd
  | some c =>
    cases hf : (c.tick e).2 with
    | true =>
      rw [updateVisible_of_fires hd hf, hs]
      exact .timeOut hr hp hd hf
    | false =>
      rw [updateVisible_of_counts hd hf, hs]
      exact .count hr hp hd hf

theorem transition_update (p : Picture α) (e : Millis) :
    Transition p (.update e) (p.update e).1 (p.update e).2.1 := by
  cases hr : p.running with
  | false =>
    rw [update_of_not_running hr]
    exact .idle id
  | true =>
    cases hp : p.phase with
    | pending =>
      rw [update_pending hr hp]
      exact transition_updatePending hr hp e
    | visible =>
      rw [update_visible hr hp]
      exact transition_updateVisible hr hp e
    | timedOut =>
      rw [update_of_timedOut hp]
      exact .idle id

/-- Every operation is a transition. -/
theorem transition (p : Picture α) (op : Op α) :
    Transition p op (p.perform op).1 (p.perform op).2.requests := by
  rcases op.lifecycle_or_configures with rfl | rfl | ⟨e, rfl⟩ | ho
  · exact p.transition_start
  · exact p.transition_stop
  · exact p.transition_update e
  · have hw := fun h => Properties.kept_wait.perform (p := p) h op
    obtain ⟨hc, hn, -⟩ := p.perform_configures_cases ho
    rw [hn]
    rcases hc with ⟨P, e⟩ | ⟨T, e⟩
    · rw [e] at hw ⊢
      exact .configure ho hw
    · rw [e] at hw ⊢
      exact .configure ho hw

end Picture

end Overlay

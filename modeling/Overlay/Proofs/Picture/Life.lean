import Overlay.Proofs.Picture.Timing
import Overlay.Scalar.Binary64

/-!
# The life of a picture

From the script to the end: a picture that has not been started rests (`Idle`), its first start makes
it appear or starts its delay, and it appears with the visible time and the bounds it has at that
moment.  `exact_timing` puts the runs of a delayed and of a visible picture together: when it appears,
when it times out and when its animations step, for every list of operations.
-/

namespace Overlay

namespace Picture

variable {α : Type} [Scalar α]

/-! ### Before the first start -/

/-- The picture has not been started. -/
structure Idle (p : Picture α) : Prop where
  phase : p.phase = .pending
  rests : p.running = false
  fresh : p.delay = none

namespace Idle

variable {p : Picture α}

theorem step (h : Idle p) {op : Op α} (hop : op ≠ .start) : Idle (p.perform op).1 := by
  rcases op.lifecycle_or_configures with rfl | rfl | ⟨e, rfl⟩ | ho
  · exact absurd rfl hop
  · show Idle p.stop.1
    rwa [stop_of_not_running h.rests]
  · show Idle (p.update e).1
    rwa [update_of_not_running h.rests]
  · obtain ⟨⟨P, T, e⟩, -⟩ := p.perform_of_configures ho
    rw [e]
    exact ⟨h.phase, h.rests, h.fresh⟩

theorem after (h : Idle p) {ops : List (Op α)} (hops : .start ∉ ops) : Idle (p.after ops) := by
  induction ops generalizing p with
  | nil => exact h
  | cons op ops ih =>
    rw [List.mem_cons, not_or] at hops
    exact ih (h.step (Ne.symm hops.1)) hops.2

end Idle

theorem idle_ofScript {origin : Origin} {config : Config} {lines : List String} {p : Picture α}
    (h : ofScript origin config lines = .ok p) : Idle p := by
  have hi : Idle (initial origin config : Picture α) := ⟨rfl, rfl, rfl⟩
  rw [← after_of_readLines h]
  exact hi.after (by simp)

/-! ### Appearing -/

/-- The picture becomes visible with the operation. -/
def AppearsIn (p : Picture α) (op : Op α) : Prop :=
  p.phase ≠ .visible ∧ (p.perform op).1.phase = .visible

theorem appearsIn_iff (p : Picture α) (op : Op α) :
    p.AppearsIn op ↔ p.phase = .pending ∧ (p.perform op).1.phase ≠ .pending := by
  constructor
  · rintro ⟨hp, hv⟩
    rw [hv]
    refine ⟨?_, by decide⟩
    cases hq : p.phase with
    | pending => rfl
    | visible => exact absurd hq hp
    | timedOut =>
      rw [(perform_phase_of_timedOut hq op).1] at hv
      cases hv
  · rintro ⟨hp, hn⟩
    rcases (perform_of_pending hp op).2 with hq | ⟨q, -, hq⟩
    · exact absurd hq hn
    · rw [AppearsIn, hp, hq]
      exact ⟨by decide, rfl⟩

/-- Whatever makes a picture visible starts its clocks, from its own visible time and bounds. -/
theorem shown_of_appearsIn {p : Picture α} {op : Op α} (h : p.AppearsIn op) :
    Shown (p.perform op).1 (p.perform op).1.properties.time
      (animationBounds (p.perform op).1.properties) 0 := by
  obtain ⟨hp, hn⟩ := (appearsIn_iff p op).1 h
  rcases (perform_of_pending hp op).2 with hq | ⟨q, hr, hq⟩
  · exact absurd hq hn
  · rw [hq]
    exact Shown.of_appear hr

/-- A delayed picture appears with the operation that reaches the delay. -/
theorem Delayed.appearsIn_iff {p : Picture α} {delay : Millis} (h : Delayed p delay 0)
    (ops : List (Op α)) (op : Op α) :
    (p.after ops).AppearsIn op ↔ p.ReachesAt (some delay) ops op := by
  have hexcl : ∀ (q : Picture α) n, Delayed q delay n → ¬ q.phase ≠ .pending := fun q n hq hn =>
    hn hq.phase
  rw [Picture.appearsIn_iff, (switch_delayed delay).reachesAt_iff hexcl h, not_not]

/-! ### Timing out -/

/-- The reply of an operation tells whether it makes the picture time out. -/
theorem timesOut_iff (p : Picture α) (op : Op α) :
    (p.perform op).2.timesOut = true ↔
      p.phase ≠ .timedOut ∧ (p.perform op).1.phase = .timedOut := by
  rw [timesOut_iff_phase]
  refine and_congr_left fun hq => ⟨fun hv => by rw [hv]; decide, fun hn => ?_⟩
  cases hp : p.phase with
  | pending => exact absurd hq (perform_phase_ne_timedOut hp op)
  | visible => rfl
  | timedOut => exact absurd hp hn

/-- A shown picture times out with the operation that reaches its visible time. -/
theorem Shown.timesOut_iff {p : Picture α} {time : Option Millis} {bounds : Millis × Option Millis}
    (h : Shown p time bounds 0) (ops : List (Op α)) (op : Op α) :
    ((p.after ops).perform op).2.timesOut = true ↔ p.ReachesAt time ops op := by
  have hover : ∀ xs, (p.after xs).phase = .timedOut ↔ Over (p.after xs) := by
    intro xs
    obtain ⟨hshown, hlate⟩ := (switch_shown time bounds).run h xs
    refine ⟨fun hp => ?_, Over.phase⟩
    by_cases hb : p.Reaches time xs
    · exact hlate hb
    · have hv := (hshown hb).phase
      rw [hp] at hv
      cases hv
  rw [Picture.timesOut_iff, (switch_shown time bounds).reachesAt_iff (fun _ _ => Shown.not_over) h,
    ← after_concat, hover (ops ++ [op]), Ne, hover ops]

/-! ### Animations -/

/-- The animations have stepped once between the two pictures. -/
def SteppedTo (p q : Picture α) : Prop :=
  q.properties = p.tracks.apply p.properties ∧ q.tracks = p.tracks.advance

/-- Nothing has moved between the two pictures. -/
def StillAs (p q : Picture α) : Prop :=
  q.properties = p.properties ∧ q.tracks = p.tracks

/-- The operation is an update of the running picture, visible for `n` milliseconds, at which its
window is open. -/
def InWindow (p : Picture α) (bounds : Millis × Option Millis) (n : Nat) (op : Op α) : Prop :=
  (∃ e, op = .update e) ∧ p.running = true ∧ Window.Within bounds.1 bounds.2 n

/-- Nothing moves in a picture that is not visible, except by configuring it. -/
theorem still_of_not_visible {p : Picture α} (hp : p.phase ≠ .visible) {op : Op α}
    (ho : ¬ op.Configures) : p.StillAs (p.perform op).1 := by
  rcases op.lifecycle_or_configures with rfl | rfl | ⟨e, rfl⟩ | h
  · exact p.start_properties
  · exact p.stop_properties
  · exact update_properties_of_not_visible hp e
  · exact absurd h ho

theorem steppedTo_update {p : Picture α} (hr : p.running = true) (hp : p.phase = .visible) {e : Millis}
    (hopen : (p.window.tick e).2 = true) : p.SteppedTo (p.update e).1 := by
  have hu := update_properties_of_visible hr hp e
  have hs := p.stepAnimations_properties e
  rw [if_pos hopen, if_pos hopen] at hs
  exact ⟨hu.1.trans hs.1, hu.2.trans hs.2⟩

theorem stillAs_update_of_shut {p : Picture α} (hr : p.running = true) (hp : p.phase = .visible)
    {e : Millis} (hshut : ¬ (p.window.tick e).2 = true) : p.StillAs (p.update e).1 := by
  have hu := update_properties_of_visible hr hp e
  have hs := p.stepAnimations_properties e
  rw [if_neg hshut, if_neg hshut] at hs
  exact ⟨hu.1.trans hs.1, hu.2.trans hs.2⟩

/-- The animations of a shown picture step once within the window, and not otherwise. -/
theorem Shown.steps {p : Picture α} {time : Option Millis} {bounds : Millis × Option Millis} {n : Nat}
    (h : Shown p time bounds n) {op : Op α} (ho : ¬ op.Configures) :
    (p.InWindow bounds n op → p.SteppedTo (p.perform op).1) ∧
      (¬ p.InWindow bounds n op → p.StillAs (p.perform op).1) := by
  have hupdate : ∀ e, p.running = true → (p.window.tick e).2 = p.window.isOpen := fun e hr =>
    (h.window.tick (h.measuring.trans hr) e).2.2
  constructor
  · rintro ⟨⟨e, rfl⟩, hr, hw⟩
    exact steppedTo_update hr h.phase ((hupdate e hr).trans (h.window.isOpen_iff.2 hw))
  · intro hw
    rcases op.lifecycle_or_configures with rfl | rfl | ⟨e, rfl⟩ | hc
    · exact p.start_properties
    · exact p.stop_properties
    · show p.StillAs (p.update e).1
      cases hr : p.running with
      | false => rw [update_of_not_running hr]; exact ⟨rfl, rfl⟩
      | true =>
        have hshut : ¬ (p.window.tick e).2 = true := by
          rw [hupdate e hr, h.window.isOpen_iff]
          exact fun hin => hw ⟨⟨e, rfl⟩, hr, hin⟩
        exact stillAs_update_of_shut hr h.phase hshut
    · exact absurd hc ho

/-- The same after any run of a picture that has just appeared. -/
theorem Shown.steps_after {p : Picture α} {time : Option Millis} {bounds : Millis × Option Millis}
    (h : Shown p time bounds 0) (ops : List (Op α)) {op : Op α} (ho : ¬ op.Configures) :
    ((p.after ops).InWindow bounds (p.runningTime ops) op →
        (p.after ops).SteppedTo ((p.after ops).perform op).1) ∧
      (¬ (p.after ops).InWindow bounds (p.runningTime ops) op →
        (p.after ops).StillAs ((p.after ops).perform op).1) := by
  obtain ⟨hshown, hover⟩ := (switch_shown time bounds).run h ops
  by_cases hb : p.Reaches time ops
  · have ho' := hover hb
    refine ⟨fun ⟨_, hr, _⟩ => ?_, fun _ => still_of_not_visible ?_ ho⟩
    · rw [ho'.rests] at hr
      cases hr
    · rw [ho'.phase]
      decide
  · exact (hshown hb).steps ho

/-! ### The whole life -/

/-- Take a picture as its script describes it, and operations in any order.

Before the first start nothing makes it appear.  The first start does if there is no delay; with a delay
it appears exactly with the update of the running picture that brings the time since that start to the
delay.  It appears once.  From then on it times out exactly with the update that brings the time since
its appearance to the visible time it had when it appeared, if it had one, and its animations step once
in every update made while it runs and the time since its appearance, before the update, lies within the
bounds it had when it appeared.  Otherwise nothing moves but by configuring, which never changes
properties and tracks together, and a picture that has not appeared does not time out. -/
theorem exact_timing {origin : Origin} {config : Config} {lines : List String} {p : Picture α}
    (h : ofScript origin config lines = .ok p) :
    (∀ before, .start ∉ before →
      (∀ op, op ≠ .start → ¬ (p.after before).AppearsIn op) ∧
      ((p.after before).properties.wait = none → (p.after before).AppearsIn .start) ∧
      ∀ w, (p.after before).properties.wait = some w →
        ¬ (p.after before).AppearsIn .start ∧
        ∀ ops op, (p.after (before ++ .start :: ops)).AppearsIn op ↔
          (p.after (before ++ [.start])).ReachesAt (some w.delay) ops op) ∧
    (∀ ops op, (p.after ops).AppearsIn op → ∀ q, q = p.after (ops ++ [op]) →
      ∀ more op',
        ¬ (q.after more).AppearsIn op' ∧
        (((q.after more).perform op').2.timesOut = true ↔ q.ReachesAt q.properties.time more op') ∧
        (¬ op'.Configures →
          ((q.after more).InWindow (animationBounds q.properties) (q.runningTime more) op' →
            (q.after more).SteppedTo (q.after (more ++ [op']))) ∧
          (¬ (q.after more).InWindow (animationBounds q.properties) (q.runningTime more) op' →
            (q.after more).StillAs (q.after (more ++ [op']))))) ∧
    ∀ ops op,
      (((p.after ops).perform op).2.timesOut = true ↔
        (p.after ops).phase ≠ .timedOut ∧ (p.after (ops ++ [op])).phase = .timedOut) ∧
      ((p.after ops).phase = .pending → ((p.after ops).perform op).2.timesOut = false ∧
        (¬ op.Configures → (p.after ops).StillAs (p.after (ops ++ [op])))) ∧
      (op.Configures → (∃ P, p.after (ops ++ [op]) = { p.after ops with properties := P }) ∨
        ∃ T, p.after (ops ++ [op]) = { p.after ops with tracks := T }) := by
  refine ⟨fun before hb => ?_, fun ops op ha q hq more op' => ?_, fun ops op => ?_⟩
  -- up to the first start and through the delay
  · have hidle := (idle_ofScript h).after hb
    refine ⟨fun op hop ha => ?_, fun hw => ⟨?_, ?_⟩, fun w hw => ⟨fun ha => ?_, fun ops op => ?_⟩⟩
    · have hp := (hidle.step hop).phase
      rw [ha.2] at hp
      cases hp
    · rw [hidle.phase]
      decide
    · show (p.after before).start.1.phase = .visible
      rw [start_pending_of_no_wait hidle.rests hidle.phase hw]
      rfl
    · have hp := (Delayed.of_start hidle.phase hidle.rests hidle.fresh hw).phase
      rw [ha.2] at hp
      cases hp
    · have hd := Delayed.of_start hidle.phase hidle.rests hidle.fresh hw
      rw [List.append_cons, after_append, after_concat]
      exact hd.appearsIn_iff ops op
  -- from the appearance on
  · have hshown := shown_of_appearsIn ha
    rw [← after_concat, ← hq] at hshown
    refine ⟨fun ha' => ?_, hshown.timesOut_iff more op', fun ho => ?_⟩
    · have hr := rank_le_after q more
      rw [hshown.phase, ((appearsIn_iff _ op').1 ha').1] at hr
      exact absurd hr (by decide)
    · rw [after_concat]
      exact hshown.steps_after more ho
  -- at any time
  · rw [after_concat]
    refine ⟨timesOut_iff _ op, fun hp => ⟨(perform_of_pending hp op).1, fun ho => ?_⟩, fun ho => ?_⟩
    · refine still_of_not_visible ?_ ho
      rw [hp]
      decide
    · exact ((p.after ops).perform_configures_cases ho).1

/-- A script with a delay of 30 and a visible time of 20: the picture appears with an update by 30 after
its start, and from then on the visible time decides. -/
theorem timing_of_delay_and_time :
    ∃ p : Picture Float, ofScript {} {} ["wait=30", "time=20"] = .ok p ∧
      (p.after [.start]).AppearsIn (.update 30) ∧
      ∀ more op, ((p.after ([.start, .update 30] ++ more)).perform op).2.timesOut = true ↔
        (p.after [.start, .update 30]).ReachesAt (some 20) more op := by
  have hread : (ofScript {} {} ["wait=30", "time=20"] : Except Fault (Picture Float)).map
      (fun p => (p.properties.wait.map Wait.delay, (p.after [.start]).running,
        (p.after [.start, .update 30]).properties.time)) = .ok (some 30, true, some 20) := by
    decide +kernel
  cases hp : (ofScript {} {} ["wait=30", "time=20"] : Except Fault (Picture Float)) with
  | error f => rw [hp] at hread; cases hread
  | ok p =>
    rw [hp] at hread
    simp only [Except.map, Except.ok.injEq, Prod.mk.injEq, Option.map_eq_some_iff] at hread
    obtain ⟨⟨w, hw, hdelay⟩, hr, htime⟩ := hread
    obtain ⟨hstart, hlife, -⟩ := exact_timing hp
    have happears : (p.after [.start]).AppearsIn (.update 30) := by
      refine (((hstart [] (by simp)).2.2 w hw).2 [] (.update 30)).2 ?_
      exact ⟨⟨30, rfl⟩, hr, by simp [passes_some, runningTime, elapse, hr, hdelay],
        not_reaches_nil _ _⟩
    refine ⟨p, rfl, happears, fun more op => ?_⟩
    obtain ⟨-, htimesOut, -⟩ := hlife [.start] (.update 30) happears (p.after [.start, .update 30]) rfl
      more op
    rw [after_append, htimesOut, htime]

end Picture

end Overlay

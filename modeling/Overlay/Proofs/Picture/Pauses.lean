import Overlay.Proofs.Picture.Coherence

/-!
# Pauses

A picture that is stopped does not notice the time that passes until it is started again.  A pause gives
the picture back as it was (`run_pause`), so pauses may be put into a run wherever the picture runs
(`Interrupted`): every other operation meets the same picture and has the same reply as without them.
`pausing_is_transparent` says so for all that can come about.
-/

namespace Overlay

/-! ### Clocks -/

namespace Countdown

variable {c : Countdown}

theorem Follows.start_stop (h : c.Follows true) : c.stop.start = c := by
  obtain ⟨duration, elapsed, running, fired⟩ := c
  obtain ⟨rfl, rfl⟩ := h
  rfl

theorem map_stop_eq {c? : Option Countdown} (h : ∀ c, c? = some c → c.running = false) :
    c?.map stop = c? := by
  cases c? with
  | none => rfl
  | some c =>
    have hr := h c rfl
    rw [Option.map_some, stop, ← hr]

theorem map_start_map_stop_eq {c? : Option Countdown} (h : ∀ c, c? = some c → c.Follows true) :
    (c?.map stop).map start = c? := by
  cases c? with
  | none => rfl
  | some c => rw [Option.map_some, Option.map_some, (h c rfl).start_stop]

end Countdown

theorem Window.pause_eq {w : Window} (h : w.running = false) : w.pause = w := by rw [pause, ← h]

theorem Window.resume_pause_eq {w : Window} (h : w.running = true) : w.pause.resume = w := by
  rw [pause, resume, ← h]

/-! ### Lists with silent entries -/

/-- The second list is the first with entries put in that have the property. -/
inductive Padded {β : Type} (Silent : β → Prop) : List β → List β → Prop
  | nil : Padded Silent [] []
  | keep {x : β} {xs ys : List β} (h : Padded Silent xs ys) : Padded Silent (x :: xs) (x :: ys)
  | pad {y : β} {xs ys : List β} (hy : Silent y) (h : Padded Silent xs ys) :
      Padded Silent xs (y :: ys)

theorem Padded.flatMap_eq {β γ : Type} {Silent : β → Prop} {xs ys : List β} (h : Padded Silent xs ys)
    {f : β → List γ} (hf : ∀ y, Silent y → f y = []) : ys.flatMap f = xs.flatMap f := by
  induction h with
  | nil => rfl
  | keep _ ih => rw [List.flatMap_cons, List.flatMap_cons, ih]
  | pad hy _ ih => rw [List.flatMap_cons, hf _ hy, ih, List.nil_append]

theorem Padded.append {β : Type} {Silent : β → Prop} {xs ys zs : List β} (h : Padded Silent xs ys)
    (hz : ∀ z ∈ zs, Silent z) : Padded Silent xs (zs ++ ys) := by
  induction zs with
  | nil => exact h
  | cons z zs ih =>
    have hrest := ih fun y hy => hz y (List.mem_cons_of_mem _ hy)
    exact .pad (hz z List.mem_cons_self) hrest

namespace Picture

variable {α : Type} {p : Picture α}

/-! ### One pause -/

/-- Stops and updates, which are lost on a picture that has been stopped. -/
def Op.Idles : Op α → Prop
  | .stop | .update _ => True
  | _ => False

/-- The picture is stopped, some operations are lost on it, and it is started again. -/
def pause (idle : List (Op α)) : List (Op α) := .stop :: (idle ++ [.start])

theorem eq_of_fields {running waiting : Bool} {delay duration : Option Countdown} {window : Window}
    (hr : p.running = running) (hw : p.waiting = waiting) (hd : p.delay = delay)
    (hu : p.duration = duration) (hv : p.window = window) :
    { p with running, waiting, delay, duration, window } = p := by
  subst hr hw hd hu hv
  rfl

theorem stop_running (p : Picture α) : p.stop.1.running = false := by
  cases hr : p.running with
  | false => rw [stop_of_not_running hr]; exact hr
  | true => rw [stop_of_running hr]

/-- Stopping and starting a pending picture that runs. -/
theorem Holding.stop_start (h : Holding p) (hr : p.running = true) :
    p.stop.2 = [.doneWaiting p.origin.pointer] ∧
      p.stop.1.start = (p, [.waiting p.origin.pointer]) := by
  have hw : p.waiting = true := h.waiting.trans hr
  obtain ⟨c, hd⟩ := Option.isSome_iff_exists.1 (h.timed hr)
  obtain ⟨hc, hwait⟩ := h.clock c hd
  obtain ⟨w, hwait⟩ := Option.isSome_iff_exists.1 hwait
  have hphase : p.stop.1.phase = .pending := (stop_phase p).trans h.phase
  have hwait' : p.stop.1.properties.wait = some w := by rwa [(stop_properties p).1]
  rw [start_pending_of_wait p.stop_running hphase hwait', stop_of_running hr, hw]
  refine ⟨rfl, Prod.ext ?_ rfl⟩
  refine eq_of_fields hr hw ?_ ?_ ?_
  · rw [hr] at hc
    rw [hd]
    exact congrArg some hc.start_stop.symm
  · rw [h.noDuration]
    rfl
  · exact (Window.pause_eq h.windowRests).symm

/-- Stopping and starting a visible picture that runs. -/
theorem Showing.stop_start (h : Showing p) (hr : p.running = true) :
    p.stop.2 = [] ∧ p.stop.1.start = (p, []) := by
  have hclock : ∀ c, p.duration = some c → c.Follows true := fun c hc => hr ▸ h.clock c hc
  have hphase : p.stop.1.phase = .visible := (stop_phase p).trans h.phase
  rw [start_visible p.stop_running hphase, stop_of_running hr, h.waiting]
  refine ⟨rfl, Prod.ext ?_ rfl⟩
  refine eq_of_fields hr h.waiting ?_ ?_ ?_
  · exact (Countdown.map_stop_eq h.delayRests).symm
  · exact (Countdown.map_start_map_stop_eq hclock).symm
  · exact (Window.resume_pause_eq (h.measuring.trans hr)).symm

/-- The requests with which a running picture leaves the host alone, and comes back to it. -/
theorem Coherent.stop_start (h : Coherent p) (hr : p.running = true) :
    p.stop.2 = (if p.phase = .pending then [.doneWaiting p.origin.pointer] else []) ∧
      p.stop.1.start = (p, if p.phase = .pending then [.waiting p.origin.pointer] else []) := by
  rcases h with h | h | h
  · rw [if_pos h.phase, if_pos h.phase]
    exact h.stop_start hr
  · have hp : p.phase ≠ .pending := by rw [h.phase]; decide
    rw [if_neg hp, if_neg hp]
    exact h.stop_start hr
  · rw [h.rests] at hr
    cases hr

variable [Scalar α]

theorem perform_of_idles (hr : p.running = false) {op : Op α} (ho : op.Idles) :
    p.perform op = (p, {}) := by
  cases op with
  | stop => simp [perform, stop_of_not_running hr]
  | update e => simp [perform, update_of_not_running hr]
  | _ => exact ho.elim

theorem run_of_idles (hr : p.running = false) {idle : List (Op α)} (hi : ∀ op ∈ idle, op.Idles) :
    p.run idle = (p, List.replicate idle.length {}) := by
  induction idle with
  | nil => rfl
  | cons op idle ih =>
    have hrest := ih fun op ho => hi op (List.mem_cons_of_mem _ ho)
    rw [run_cons, perform_of_idles hr (hi op List.mem_cons_self), hrest, List.length_cons,
      List.replicate_succ]

/-- A pause gives the picture back, and the replies hold nothing but the news that it waits no longer,
and that it waits again. -/
theorem run_pause (h : Coherent p) (hr : p.running = true) {idle : List (Op α)}
    (hi : ∀ op ∈ idle, op.Idles) :
    p.run (pause idle) =
      (p, { requests := if p.phase = .pending then [.doneWaiting p.origin.pointer] else [] } ::
        (List.replicate idle.length ({} : Reply) ++
          [{ requests := if p.phase = .pending then [.waiting p.origin.pointer] else [] }])) := by
  obtain ⟨hstop, hstart⟩ := h.stop_start hr
  have hidle := run_of_idles p.stop_running hi
  have hafter : p.stop.1.after idle = p.stop.1 := congrArg Prod.fst hidle
  have hrest : p.stop.1.run (idle ++ [.start]) = (p, List.replicate idle.length ({} : Reply) ++
      [{ requests := if p.phase = .pending then [.waiting p.origin.pointer] else [] }]) := by
    rw [run_append, hafter, hidle]
    simp [run, perform, hstart]
  have hperform : p.perform (.stop : Op α) = (p.stop.1, { requests := p.stop.2 }) := rfl
  rw [pause, run_cons, hperform, hrest, hstop]

/-! ### Runs with pauses -/

/-- The run `ys` is the run `xs` with pauses put in where the picture runs; `p` is the picture at the
beginning. -/
inductive Interrupted : Picture α → List (Op α) → List (Op α) → Prop
  | nil (p : Picture α) : Interrupted p [] []
  | step {p : Picture α} {op : Op α} {xs ys : List (Op α)} (h : Interrupted (p.perform op).1 xs ys) :
      Interrupted p (op :: xs) (op :: ys)
  | pause {p : Picture α} {idle xs ys : List (Op α)} (hr : p.running = true)
      (hi : ∀ op ∈ idle, op.Idles) (h : Interrupted p xs ys) : Interrupted p xs (pause idle ++ ys)

theorem Interrupted.refl (p : Picture α) (ops : List (Op α)) : Interrupted p ops ops := by
  induction ops generalizing p with
  | nil => exact .nil p
  | cons op ops ih => exact .step (ih _)

/-- A pause in the middle of a run. -/
theorem interrupted_append {xs idle : List (Op α)} (hr : (p.after xs).running = true)
    (hi : ∀ op ∈ idle, op.Idles) (more : List (Op α)) :
    Interrupted p (xs ++ more) (xs ++ (Picture.pause idle ++ more)) := by
  induction xs generalizing p with
  | nil => exact .pause hr hi (.refl p more)
  | cons op xs ih => exact .step (ih hr)

/-- The operations of a run, each with its reply and with the picture after it. -/
def transcript (p : Picture α) : List (Op α) → List (Op α × Reply × Picture α)
  | [] => []
  | op :: ops => (op, (p.perform op).2, (p.perform op).1) :: (p.perform op).1.transcript ops

theorem transcript_append (p : Picture α) (xs ys : List (Op α)) :
    p.transcript (xs ++ ys) = p.transcript xs ++ (p.after xs).transcript ys := by
  induction xs generalizing p with
  | nil => rfl
  | cons op xs ih =>
    rw [List.cons_append, transcript, ih]
    rfl

/-- A transcript names the operations of the run and their replies, in order. -/
theorem map_transcript (p : Picture α) (ops : List (Op α)) :
    (p.transcript ops).map (fun entry => entry.1) = ops ∧
      (p.transcript ops).map (fun entry => entry.2.1) = (p.run ops).2 := by
  induction ops generalizing p with
  | nil => exact ⟨rfl, rfl⟩
  | cons op ops ih =>
    obtain ⟨hops, hreplies⟩ := ih (p.perform op).1
    rw [transcript, List.map_cons, List.map_cons, hops, hreplies, run_cons]
    exact ⟨rfl, rfl⟩

end Picture

/-- A sound or a part, in contrast to the news that a picture waits. -/
def Request.isEffect : Request → Bool
  | .sound _ | .place _ => true
  | .waiting _ | .doneWaiting _ => false

namespace Picture

variable {α : Type} {p : Picture α}

/-- Nothing but the news that the picture waits, or waits no longer. -/
def Reply.Silent (r : Reply) : Prop := r.timesOut = false ∧ r.requests.filter Request.isEffect = []

/-- A start, a stop or an update with a silent reply. -/
def SilentEntry (entry : Op α × Reply × Picture α) : Prop :=
  ¬ entry.1.Configures ∧ entry.2.1.Silent

variable [Scalar α]

theorem silent_of_mem_pause (h : Coherent p) (hr : p.running = true) {idle : List (Op α)}
    (hi : ∀ op ∈ idle, op.Idles) {r : Reply} (hmem : r ∈ (p.run (pause idle)).2) : r.Silent := by
  rw [run_pause h hr hi] at hmem
  simp only [List.mem_cons, List.mem_append, List.mem_replicate, List.not_mem_nil, or_false] at hmem
  rcases hmem with rfl | ⟨-, rfl⟩ | rfl
  · refine ⟨rfl, ?_⟩
    split <;> rfl
  · exact ⟨rfl, rfl⟩
  · refine ⟨rfl, ?_⟩
    split <;> rfl

omit [Scalar α] in
theorem not_configures_of_mem_pause {idle : List (Op α)} (hi : ∀ op ∈ idle, op.Idles) {op : Op α}
    (h : op ∈ pause idle) : ¬ op.Configures := by
  simp only [pause, List.mem_cons, List.mem_append, List.not_mem_nil, or_false] at h
  rcases h with rfl | h | rfl
  · exact id
  · have ho := hi op h
    cases op <;> first | exact id | exact ho.elim
  · exact id

/-- Pauses change neither the picture at the end nor what the operations of the run come to. -/
theorem Interrupted.transcript {xs ys : List (Op α)} (hi : Interrupted p xs ys) (h : Coherent p) :
    p.after ys = p.after xs ∧ Padded SilentEntry (p.transcript xs) (p.transcript ys) := by
  induction hi with
  | nil p => exact ⟨rfl, .nil⟩
  | step _ ih =>
    obtain ⟨hafter, hpadded⟩ := ih (h.perform _)
    exact ⟨hafter, .keep hpadded⟩
  | @pause p idle xs ys hr hidle _ ih =>
    obtain ⟨hafter, hpadded⟩ := ih h
    -- the pause gives the picture back, so the rest of the run begins where it would have
    have hpause : p.after (Picture.pause idle) = p := congrArg Prod.fst (run_pause h hr hidle)
    rw [after_append, transcript_append, hpause]
    refine ⟨hafter, hpadded.append fun entry hentry => ?_⟩
    obtain ⟨hops, hreplies⟩ := p.map_transcript (Picture.pause idle)
    have hop : entry.1 ∈ Picture.pause idle := hops ▸ List.mem_map_of_mem hentry
    have hreply : entry.2.1 ∈ (p.run (Picture.pause idle)).2 := hreplies ▸ List.mem_map_of_mem hentry
    exact ⟨not_configures_of_mem_pause hidle hop, silent_of_mem_pause h hr hidle hreply⟩

/-- The sounds and the parts asked for can be read off the transcript. -/
theorem effects_eq (p : Picture α) (ops : List (Op α)) :
    (p.requests ops).filter Request.isEffect =
      (p.transcript ops).flatMap fun entry => entry.2.1.requests.filter Request.isEffect := by
  rw [requests, ← (p.map_transcript ops).2, List.flatMap_map, List.filter_flatMap]

/-- Take any picture that can come about.

If it runs, a pause, with stops and updates in it as there may be, gives it back as it was; no update in
the pause makes it time out; and the host hears that it waits no longer and that it waits again if it is
pending, and nothing if it is visible.

A run with pauses put in ends with the same picture as without them, and asks for the same sounds and
parts.  On the way every operation of the run has the same reply and leaves the same picture, with
nothing in between but starts, stops and updates whose replies are silent. -/
theorem pausing_is_transparent (h : Reachable p) :
    (p.running = true → ∀ idle : List (Op α), (∀ op ∈ idle, op.Idles) →
      p.after (pause idle) = p ∧
      (∀ r ∈ (p.run (pause idle)).2, r.timesOut = false) ∧
      p.requests (pause idle) =
        if p.phase = .pending then [.doneWaiting p.origin.pointer, .waiting p.origin.pointer]
        else []) ∧
    ∀ xs ys, Interrupted p xs ys →
      p.after ys = p.after xs ∧
      (p.requests ys).filter Request.isEffect = (p.requests xs).filter Request.isEffect ∧
      Padded SilentEntry (p.transcript xs) (p.transcript ys) := by
  have hc := h.coherent
  refine ⟨fun hr idle hi => ?_, fun xs ys hi => ?_⟩
  · have hrun := run_pause hc hr hi
    refine ⟨congrArg Prod.fst hrun, fun r hmem => (silent_of_mem_pause hc hr hi hmem).1, ?_⟩
    have hnone : (List.replicate idle.length ({} : Reply)).flatMap Reply.requests = [] := by simp
    rw [requests, hrun, List.flatMap_cons, List.flatMap_append, hnone]
    split <;> rfl
  · obtain ⟨hafter, hpadded⟩ := hi.transcript hc
    refine ⟨hafter, ?_, hpadded⟩
    rw [effects_eq, effects_eq]
    exact hpadded.flatMap_eq fun entry hentry => hentry.2.2

/-- A delay of 30, interrupted after 10 by a pause of 500: the picture appears after another 20. -/
theorem pause_in_delay :
    ∃ p : Picture Float, p = (initial {} {}).after [.line "wait=30,1,2,3", .start] ∧
      p.after [.update 10, .stop, .update 500, .stop, .start, .update 20] =
        p.after [.update 10, .update 20] ∧
      p.requests [.stop, .update 500, .stop, .start] = [.doneWaiting ⟨0, 0⟩, .waiting ⟨0, 0⟩] := by
  obtain ⟨p, hp⟩ :
      ∃ p : Picture Float, p = (initial {} {}).after [.line "wait=30,1,2,3", .start] := ⟨_, rfl⟩
  have hreach : Reachable p := hp ▸ (Reachable.initial {} {}).after _
  have hidle : ∀ op ∈ ([.update 500, .stop] : List (Op Float)), op.Idles := by simp [Op.Idles]
  obtain ⟨hpause, hruns⟩ := pausing_is_transparent hreach
  refine ⟨p, hp, ?_, ?_⟩
  · have hlater : (p.after [.update 10]).running = true := by
      rw [hp]
      decide +kernel
    exact (hruns _ _ (interrupted_append hlater hidle [.update 20])).1
  · have hnow : p.phase = .pending ∧ p.running = true ∧ p.origin.pointer = ⟨0, 0⟩ := by
      rw [hp]
      decide +kernel
    have hrequests := (hpause hnow.2.1 _ hidle).2.2
    rwa [hnow.1, hnow.2.2] at hrequests

end Picture

end Overlay

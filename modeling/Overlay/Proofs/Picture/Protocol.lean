import Overlay.Proofs.Picture.Coherence
import Overlay.Proofs.Picture.DelayInForce
import Overlay.Proofs.Picture.Life

/-!
# What the host hears

A pending picture tells the host when it begins to wait and when it is paused; when it appears it asks
for its sound, says that it waits no longer if the host believes so, and asks for its part; after that
it asks for nothing.  One call at a time this is read off the transitions (`Holding.requests`,
`Coherent.no_requests`), and `host_protocol` says what a whole run amounts to.
-/

namespace Overlay

namespace Picture

variable {α : Type} [Scalar α] {p q : Picture α} {op : Op α} {rs : List Request}

/-! ### One call -/

/-- The news of a picture that runs or rests before a call and after it. -/
def news (x : Pointer) : Bool → Bool → List Request
  | false, true => [.waiting x]
  | true, false => [.doneWaiting x]
  | _, _ => []

/-- The requests with which a picture appears: its sound, that it waits no longer if the host believes
so, and its part. -/
def appearing (o : Origin) (outstanding : Bool) (part? : Option Appearance) : List Request :=
  (if o.sound = 0 then [] else [.sound o.sound]) ++
    (if outstanding then [.doneWaiting o.pointer] else []) ++ (part?.map Request.place).toList

omit [Scalar α] in
theorem appear_requests (p : Picture α) :
    p.appear.2 = appearing p.origin p.waiting (p.properties.wait.bind Wait.spawn?) := rfl

theorem news_self (x : Pointer) (running : Bool) : news x running running = [] := by
  cases running <;> rfl

omit [Scalar α] in
/-- A pending picture has news if it begins or ceases to run, and makes its requests when it appears. -/
theorem Holding.requests (h : Holding p) (t : Transition p op q rs) :
    (q.phase = .pending → rs = news p.origin.pointer p.running q.running) ∧
      (q.phase ≠ .pending →
        rs = appearing p.origin p.running (p.properties.wait.bind Wait.spawn?)) := by
  have hshows : ∀ r : Picture α, r.appear.1.phase ≠ .pending := fun r => nofun
  cases t with
  | idle _ | configure _ _ | delay _ _ _ _ =>
    exact ⟨fun _ => (news_self _ _).symm, fun hq => absurd h.phase hq⟩
  | @await w hr _ _ =>
    have hw : p.waiting = false := h.waiting.trans hr
    refine ⟨fun _ => ?_, fun hq => absurd h.phase hq⟩
    show (if p.waiting then [] else [.waiting p.origin.pointer]) = news p.origin.pointer p.running true
    rw [hw, hr]
    rfl
  | pause hr =>
    have hw : p.waiting = true := h.waiting.trans hr
    refine ⟨fun _ => ?_, fun hq => absurd h.phase hq⟩
    rw [hw, hr]
    rfl
  | appear _ _ _ | fire _ _ _ _ =>
    refine ⟨fun hq => absurd hq (hshows _), fun _ => ?_⟩
    rw [appear_requests, ← h.waiting]
  | resume _ hp | pass _ hp _ | count _ hp _ _ | timeOut _ hp _ _ =>
    exact (phase_ne h.phase hp (by decide)).elim

omit [Scalar α] in
/-- A picture that has appeared asks for nothing. -/
theorem Coherent.no_requests (h : Coherent p) (hp : p.phase ≠ .pending) (t : Transition p op q rs) :
    rs = [] := by
  have hwaiting : p.waiting = false := by
    rcases h with h | h | h
    · exact absurd h.phase hp
    · exact h.waiting
    · exact h.waiting
  cases t with
  | await _ hp' _ => exact absurd hp' hp
  | appear _ hp' _ => exact absurd hp' hp
  | fire _ hp' _ _ => exact absurd hp' hp
  | pause _ => rw [hwaiting, if_neg Bool.false_ne_true]
  | _ => rfl

omit [Scalar α] in
theorem Coherent.holding (h : Coherent p) (hp : p.phase = .pending) : Holding p := by
  rcases h with h | h | h
  · exact h
  · exact (phase_ne hp h.phase (by decide)).elim
  · exact (phase_ne hp h.phase (by decide)).elim

/-! ### Runs -/

/-- What the host hears of a picture that waits and is paused `n` times, and then waits once more if it
`runs`. -/
def pauses (x : Pointer) (n : Nat) (runs : Bool) : List Request :=
  (List.replicate n [.waiting x, .doneWaiting x]).flatten ++ if runs then [.waiting x] else []

/-- News are the end of one more pause, or the beginning of the next. -/
theorem exists_pauses_eq (x : Pointer) (n : Nat) (b b' : Bool) :
    ∃ m, pauses x n b ++ news x b b' = pauses x m b' := by
  cases b with
  | false =>
    refine ⟨n, ?_⟩
    cases b' <;> simp [pauses, news]
  | true =>
    cases b' with
    | false => exact ⟨n + 1, by simp [pauses, news, List.replicate_succ']⟩
    | true => exact ⟨n, by simp [news]⟩

theorem pointer_of_mem_pauses {x y : Pointer} {n : Nat} {runs : Bool}
    (h : .waiting y ∈ pauses x n runs ∨ .doneWaiting y ∈ pauses x n runs) : y = x := by
  have hmem : ∀ r ∈ pauses x n runs, r = .waiting x ∨ r = .doneWaiting x := by
    intro r hr
    rcases List.mem_append.1 hr with hr | hr
    · obtain ⟨pair, hpair, hr⟩ := List.mem_flatten.1 hr
      rw [List.eq_of_mem_replicate hpair] at hr
      simpa using hr
    · cases runs with
      | false => cases hr
      | true => exact Or.inl (List.mem_singleton.1 hr)
  rcases h with h | h
  · simpa using hmem _ h
  · simpa using hmem _ h

theorem count_pauses (x : Pointer) (n : Nat) (runs : Bool) :
    (pauses x n runs).count (.waiting x) =
      (pauses x n runs).count (.doneWaiting x) + if runs then 1 else 0 := by
  induction n with
  | zero => cases runs <;> simp [pauses]
  | succ n ih =>
    have hsucc : pauses x (n + 1) runs = [.waiting x, .doneWaiting x] ++ pauses x n runs := by
      simp [pauses, List.replicate_succ]
    rw [hsucc, List.count_append, List.count_append, ih]
    have hpair : ([.waiting x, .doneWaiting x] : List Request).count (.waiting x) =
        ([.waiting x, .doneWaiting x] : List Request).count (.doneWaiting x) := by simp
    omega

theorem count_appearing (o : Origin) (b : Bool) (part? : Option Appearance) :
    (appearing o b part?).count (.waiting o.pointer) = 0 ∧
      (appearing o b part?).count (.doneWaiting o.pointer) = if b then 1 else 0 := by
  unfold appearing
  constructor <;> cases b <;> cases part? <;> by_cases hs : o.sound = 0 <;> simp [hs]

theorem pointer_of_mem_appearing {o : Origin} {b : Bool} {part? : Option Appearance} {x : Pointer}
    (h : .waiting x ∈ appearing o b part? ∨ .doneWaiting x ∈ appearing o b part?) : x = o.pointer := by
  have hsound : ∀ r ∈ (if o.sound = 0 then [] else [Request.sound o.sound]), r = .sound o.sound := by
    intro r hr
    split at hr
    · cases hr
    · exact List.mem_singleton.1 hr
  have hdone : ∀ r ∈ (if b then [Request.doneWaiting o.pointer] else []), r = .doneWaiting o.pointer := by
    intro r hr
    split at hr
    · exact List.mem_singleton.1 hr
    · cases hr
  simp only [appearing, List.mem_append, Option.mem_toList, Option.map_eq_some_iff] at h
  rcases h with ((h | h) | ⟨_, _, h⟩) | ((h | h) | ⟨_, _, h⟩)
  · cases hsound _ h
  · cases hdone _ h
  · cases h
  · cases hsound _ h
  · exact Request.doneWaiting.inj (hdone _ h)
  · cases h

theorem requests_of_not_pending (h : Reachable p) (hp : p.phase ≠ .pending) (ops : List (Op α)) :
    p.requests ops = [] := by
  induction ops generalizing p with
  | nil => rfl
  | cons op ops ih =>
    rw [requests_cons, h.coherent.no_requests hp (p.transition op),
      ih (h.perform op) (perform_phase_ne_pending hp op), List.nil_append]

/-- As long as the picture is pending, the host hears of pauses. -/
theorem requests_of_pending (h : Reachable p) (hr : p.running = false) {ops : List (Op α)}
    (hp : (p.after ops).phase = .pending) :
    ∃ n, p.requests ops = pauses p.origin.pointer n (p.after ops).running := by
  induction ops using List.reverseRecOn with
  | nil =>
    rw [after_nil, hr]
    exact ⟨0, rfl⟩
  | append_singleton ops op ih =>
    rw [after_concat] at hp
    have hbefore : (p.after ops).phase = .pending := by
      by_contra hn
      exact perform_phase_ne_pending hn op hp
    -- what has been heard are pauses, and the last call adds its news to them
    obtain ⟨n, hn⟩ := ih hbefore
    have hnews := (((h.after ops).coherent.holding hbefore).requests ((p.after ops).transition op)).1 hp
    rw [requests_concat, hn, hnews, after_origin, after_concat]
    exact exists_pauses_eq _ _ _ _

/-- A picture that is no longer pending has left that phase with one of the operations. -/
theorem exists_leaving (hp : p.phase = .pending) {ops : List (Op α)}
    (hn : (p.after ops).phase ≠ .pending) :
    ∃ before op more, ops = before ++ op :: more ∧ (p.after before).phase = .pending ∧
      (p.after (before ++ [op])).phase ≠ .pending := by
  induction ops generalizing p with
  | nil => exact absurd hp hn
  | cons op ops ih =>
    by_cases hq : (p.perform op).1.phase = .pending
    · obtain ⟨before, op', more, hops, hbefore, hleaves⟩ := ih hq hn
      exact ⟨op :: before, op', more, congrArg (op :: ·) hops, hbefore, hleaves⟩
    · exact ⟨[], op, ops, rfl, hp, hq⟩

section Script

variable {origin : Origin} {config : Config} {lines : List String}

/-- The part that a picture from a script asks for when it appears is the one in force. -/
theorem requests_of_leaving (h : ofScript origin config lines = .ok p) {ops : List (Op α)} {op : Op α}
    (hp : (p.after ops).phase = .pending) (hn : (p.after (ops ++ [op])).phase ≠ .pending) :
    ((p.after ops).perform op).2.requests =
      appearing origin (p.after ops).running (partInForce origin (lines.map .line ++ ops)) := by
  have hafter : p.after ops = (initial origin config).after (lines.map .line ++ ops) := by
    rw [after_append, after_of_readLines h]
  have hpart := after_spawn? origin config (lines.map .line ++ ops)
  rw [← hafter] at hpart
  have hholding := ((reachable_ofScript h).after ops).coherent.holding hp
  rw [after_concat] at hn
  rw [(hholding.requests ((p.after ops).transition op)).2 hn, after_origin, origin_of_ofScript h, hpart]

/-- Once the picture has appeared, the host has heard of pauses and of the appearance. -/
theorem requests_of_appeared (h : ofScript origin config lines = .ok p) {ops : List (Op α)}
    (hn : (p.after ops).phase ≠ .pending) :
    ∃ n before op more, ops = before ++ op :: more ∧
      (p.after before).phase = .pending ∧ (p.after (before ++ [op])).phase ≠ .pending ∧
      p.requests ops = pauses origin.pointer n (p.after before).running ++
        appearing origin (p.after before).running
          (partInForce origin (lines.map .line ++ before)) := by
  have hreach := reachable_ofScript h
  have hidle := idle_ofScript h
  obtain ⟨before, op, more, rfl, hbefore, hleaves⟩ := exists_leaving hidle.phase hn
  obtain ⟨n, hpauses⟩ := requests_of_pending hreach hidle.rests hbefore
  have hnothing := requests_of_not_pending (hreach.after (before ++ [op])) hleaves more
  refine ⟨n, before, op, more, rfl, hbefore, hleaves, ?_⟩
  rw [List.append_cons, requests_append, hnothing, List.append_nil, requests_concat, hpauses,
    requests_of_leaving h hbefore hleaves, origin_of_ofScript h]

end Script

/-- Take a picture as its script describes it, and operations in any order.

While it is pending, the host hears that it waits and waits no longer, any number of times, and once more
that it waits if it runs.  Once it has appeared, the host has heard that up to the operation with which
it appeared, then with this operation the requests of the appearance, and nothing after.  These are the
sound of the origin unless it is zero, that the picture waits no longer if it ran, and the part that the
last `wait` line asks for.

In one call, a pending picture that stays so has news if it begins or ceases to run, a picture that
leaves the phase makes the requests of its appearance, and any other asks for nothing.  So the host has
heard once more that the picture waits than that it waits no longer if it is pending and runs, and as
often otherwise; and the news are about this picture alone. -/
theorem host_protocol {origin : Origin} {config : Config} {lines : List String} {p : Picture α}
    (h : ofScript origin config lines = .ok p) (ops : List (Op α)) :
    ((p.after ops).phase = .pending →
      ∃ n, p.requests ops = pauses origin.pointer n (p.after ops).running) ∧
    ((p.after ops).phase ≠ .pending → ∃ n before op more, ops = before ++ op :: more ∧
      (p.after before).phase = .pending ∧ (p.after (before ++ [op])).phase ≠ .pending ∧
      p.requests ops = pauses origin.pointer n (p.after before).running ++
        appearing origin (p.after before).running
          (partInForce origin (lines.map .line ++ before))) ∧
    (∀ op,
      ((p.after ops).phase = .pending → (p.after (ops ++ [op])).phase = .pending →
        ((p.after ops).perform op).2.requests =
          news origin.pointer (p.after ops).running (p.after (ops ++ [op])).running) ∧
      ((p.after ops).phase = .pending → (p.after (ops ++ [op])).phase ≠ .pending →
        ((p.after ops).perform op).2.requests =
          appearing origin (p.after ops).running (partInForce origin (lines.map .line ++ ops))) ∧
      ((p.after ops).phase ≠ .pending → ((p.after ops).perform op).2.requests = [])) ∧
    (p.requests ops).count (.waiting origin.pointer) =
      (p.requests ops).count (.doneWaiting origin.pointer) +
        (if (p.after ops).phase = .pending ∧ (p.after ops).running = true then 1 else 0) ∧
    ∀ x, .waiting x ∈ p.requests ops ∨ .doneWaiting x ∈ p.requests ops → x = origin.pointer := by
  have hreach := reachable_ofScript h
  have horigin := origin_of_ofScript h
  have hpending : (p.after ops).phase = .pending →
      ∃ n, p.requests ops = pauses origin.pointer n (p.after ops).running := fun hp =>
    horigin ▸ requests_of_pending hreach (idle_ofScript h).rests hp
  refine ⟨hpending, requests_of_appeared h, fun op => ⟨fun hp hq => ?_, requests_of_leaving h,
    fun hn => ?_⟩, ?_, fun x hx => ?_⟩
  -- one call
  · rw [after_concat] at hq ⊢
    have hnews := ((hreach.after ops).coherent.holding hp).requests ((p.after ops).transition op)
    rw [hnews.1 hq, after_origin, horigin]
  · exact (hreach.after ops).coherent.no_requests hn ((p.after ops).transition op)
  -- how often
  · by_cases hp : (p.after ops).phase = .pending
    · obtain ⟨n, hn⟩ := hpending hp
      rw [hn, count_pauses]
      simp only [hp, true_and]
    · obtain ⟨n, before, op, more, -, -, -, hn⟩ := requests_of_appeared h hp
      obtain ⟨hwaiting, hdone⟩ :=
        count_appearing origin (p.after before).running (partInForce origin (lines.map .line ++ before))
      have hrests : ¬ ((p.after ops).phase = .pending ∧ (p.after ops).running = true) :=
        fun hq => hp hq.1
      rw [hn, List.count_append, List.count_append, count_pauses, hwaiting, hdone, if_neg hrests]
  -- about which picture
  · by_cases hp : (p.after ops).phase = .pending
    · obtain ⟨n, hn⟩ := hpending hp
      rw [hn] at hx
      exact pointer_of_mem_pauses hx
    · obtain ⟨n, before, op, more, -, -, -, hn⟩ := requests_of_appeared h hp
      rw [hn, List.mem_append, List.mem_append, or_or_or_comm] at hx
      exact hx.elim pointer_of_mem_pauses pointer_of_mem_appearing

/-- A picture of another slot, whose sound and part are asked for after a delay of 30: it is started, paused
and started again, and appears.  The part is placed left of and below the one at `(5, 6)` that triggered it. -/
theorem requests_after_paused_delay :
    ∃ p : Picture Float,
      ofScript { pointer := ⟨9, 3⟩, trigger := ⟨5, 6⟩, triggerPart := 120, sound := 7 } {}
        ["wait=30,+1,-2,+4,1"] = .ok p ∧
      ((p.after [.start, .stop, .start]).perform (.update 30)).2.requests =
        [.sound 7, .doneWaiting ⟨9, 3⟩,
          .place { trigger := ⟨5, 6⟩, x := 3, y := 10, part := 121, layer := .map }] := by
  obtain ⟨r, hr⟩ : ∃ r : Except Fault (Picture Float),
      r = ofScript { pointer := ⟨9, 3⟩, trigger := ⟨5, 6⟩, triggerPart := 120, sound := 7 } {}
        ["wait=30,+1,-2,+4,1"] := ⟨_, rfl⟩
  have hread : r.toOption.map (fun p => ((p.after [.start, .stop, .start]).phase,
      (p.after [.start, .stop, .start]).running, (p.after [.start, .stop, .start, .update 30]).phase)) =
        some (.pending, true, .visible) := by
    rw [hr]
    decide +kernel
  have hpart : partInForce { pointer := ⟨9, 3⟩, trigger := ⟨5, 6⟩, triggerPart := 120, sound := 7 }
      [(.line "wait=30,+1,-2,+4,1" : Op Float), .start, .stop, .start] =
        some { trigger := ⟨5, 6⟩, x := 3, y := 10, part := 121, layer := .map } := by
    decide +kernel
  cases r with
  | error f => cases hread
  | ok p =>
    simp only [Except.toOption, Option.map_some, Option.some.injEq, Prod.mk.injEq] at hread
    obtain ⟨hpending, hruns, hvisible⟩ := hread
    obtain ⟨-, -, hcall, -⟩ := host_protocol hr.symm [.start, .stop, .start]
    have hleaves : (p.after ([.start, .stop, .start] ++ [.update 30])).phase ≠ .pending := by
      rw [List.cons_append, List.cons_append, List.cons_append, List.nil_append, hvisible]
      decide
    refine ⟨p, hr.symm, ((hcall (.update 30)).2.1 hpending hleaves).trans ?_⟩
    rw [hruns]
    show appearing _ _ (partInForce _ [.line "wait=30,+1,-2,+4,1", .start, .stop, .start]) = _
    rw [hpart]
    rfl

end Picture

end Overlay

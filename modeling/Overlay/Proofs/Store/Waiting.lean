import Overlay.Proofs.Picture.Protocol
import Overlay.Proofs.Store.Slots

/-!
# Waiting pictures of a store

The host is told when a picture begins to wait and when it waits no longer.  An operation on a picture
settles with the host whatever it changes about waiting (`Reachable.settles`).  An operation that takes a
picture out of its slot asks for nothing, so the host is left with the belief that the picture waits if it
did (`waiting_left_behind`).  `waiting_accounted` counts both over a whole run: of the pictures that the
host believes to wait, some wait in their slots, and the others were waiting when they left theirs.
-/

namespace Overlay

/-! ### Counting -/

section Counting

variable {β : Type} (w : β → Bool)

theorem toNat_eq_ite (c : Bool) : c.toNat = if c = true then 1 else 0 := by cases c <;> rfl

theorem countP_cons_eq (a : β) (l : List β) : (a :: l).countP w = l.countP w + (w a).toNat := by
  rw [List.countP_cons, toNat_eq_ite]

theorem countP_toList (a? : Option β) : a?.toList.countP w = (a?.any w).toNat := by
  cases a? with
  | none => rfl
  | some a => simp [countP_cons_eq]

/-- Putting another entry into a list changes the count by these two entries. -/
theorem countP_set_add {l : List β} {i : Nat} {a : β} (h : l[i]? = some a) (b : β) :
    (l.set i b).countP w + (w a).toNat = l.countP w + (w b).toNat := by
  obtain ⟨hi, rfl⟩ := List.getElem?_eq_some_iff.1 h
  have hle : (if w l[i] = true then 1 else 0) ≤ l.countP w := List.boole_getElem_le_countP hi
  rw [List.countP_set hi, toNat_eq_ite, toNat_eq_ite]
  omega

end Counting

/-! ### One picture -/

namespace Picture

variable {α : Type} {p : Picture α}

/-- The picture is the one at `x` and waits: it is pending and runs. -/
def waitsAt (x : Pointer) (p : Picture α) : Bool :=
  decide (p.origin.pointer = x ∧ p.phase = .pending ∧ p.running = true)

theorem waitsAt_of_ne {x : Pointer} (h : p.origin.pointer ≠ x) : p.waitsAt x = false := by
  simp [waitsAt, h]

theorem waitsAt_of_not_pending (x : Pointer) (h : p.phase ≠ .pending) : p.waitsAt x = false := by
  simp [waitsAt, h]

theorem waitsAt_self (h : p.phase = .pending) : p.waitsAt p.origin.pointer = p.running := by
  simp [waitsAt, h]

variable [Scalar α]

/-- The news of an operation are about the picture itself. -/
theorem Reachable.pointer_of_mem_requests (h : Reachable p) (op : Op α) {x : Pointer}
    (hx : .waiting x ∈ (p.perform op).2.requests ∨ .doneWaiting x ∈ (p.perform op).2.requests) :
    x = p.origin.pointer := by
  by_cases hp : p.phase = .pending
  · obtain ⟨hstays, hleaves⟩ := (h.coherent.holding hp).requests (p.transition op)
    by_cases hq : (p.perform op).1.phase = .pending
    · rw [hstays hq] at hx
      cases hr : p.running <;> cases hr' : (p.perform op).1.running <;> simp_all [news]
    · rw [hleaves hq] at hx
      exact pointer_of_mem_appearing hx
  · rw [h.coherent.no_requests hp (p.transition op)] at hx
    simp at hx

/-- What an operation changes about waiting, the host is told. -/
theorem Reachable.settles (h : Reachable p) (op : Op α) (x : Pointer) :
    (p.perform op).2.requests.count (.waiting x) + (p.waitsAt x).toNat =
      (p.perform op).2.requests.count (.doneWaiting x) + ((p.perform op).1.waitsAt x).toNat := by
  have horigin : (p.perform op).1.origin = p.origin := p.perform_origin op
  by_cases hx : p.origin.pointer = x
  · subst hx
    by_cases hp : p.phase = .pending
    · obtain ⟨hstays, hleaves⟩ := (h.coherent.holding hp).requests (p.transition op)
      rw [waitsAt_self hp]
      by_cases hq : (p.perform op).1.phase = .pending
      · rw [hstays hq, ← horigin, waitsAt_self hq]
        cases p.running <;> cases (p.perform op).1.running <;> simp [news]
      · obtain ⟨hwaiting, hdone⟩ :=
          count_appearing p.origin p.running (p.properties.wait.bind Wait.spawn?)
        rw [hleaves hq, waitsAt_of_not_pending _ hq, hwaiting, hdone]
        cases p.running <;> rfl
    · rw [h.coherent.no_requests hp (p.transition op), waitsAt_of_not_pending _ hp,
        waitsAt_of_not_pending _ (perform_phase_ne_pending hp op)]
      rfl
  -- the host hears nothing of a picture at another place
  · have hwaiting : .waiting x ∉ (p.perform op).2.requests := fun hm =>
      hx (h.pointer_of_mem_requests op (Or.inl hm)).symm
    have hdone : .doneWaiting x ∉ (p.perform op).2.requests := fun hm =>
      hx (h.pointer_of_mem_requests op (Or.inr hm)).symm
    rw [List.count_eq_zero.2 hwaiting, List.count_eq_zero.2 hdone, waitsAt_of_ne hx,
      waitsAt_of_ne (horigin ▸ hx)]

/-- A picture as its script describes it does not wait. -/
theorem waitsAt_ofScript {origin : Origin} {config : Config} {lines : List String}
    (h : ofScript origin config lines = .ok p) (x : Pointer) : p.waitsAt x = false := by
  simp [waitsAt, (idle_ofScript h).rests]

end Picture

namespace Store

variable {α : Type}

/-! ### One slot -/

namespace Slot

/-- The slot holds the picture at `x`, and it waits. -/
def waitsAt (x : Pointer) (content : Option (Picture α)) : Bool := content.any (Picture.waitsAt x)

variable [Scalar α]

/-- The picture that an operation takes out of a slot that it concerns. -/
def departing (config : Config) (op : Op α) (content : Option (Picture α)) : Option (Picture α) :=
  match op with
  | .build _ origin lines =>
    match (Picture.ofScript origin config lines : Except Fault (Picture α)) with
    | .ok _ => content
    | .error _ => none
  | .insert .. | .erase _ => content
  | .startAt _ | .start | .stop | .update => none

end Slot

variable [Scalar α]

/-- A picture that the operation inserts is as a script describes it. -/
def Op.Fresh : Op α → Prop
  | .insert _ p => ∃ origin config lines, Picture.ofScript origin config lines = .ok p
  | _ => True

namespace Slot

variable {config : Config} {op : Op α} {content : Option (Picture α)}

/-- An event befalls the picture in the slot, and leaves it there. -/
theorem perform_of_event {event : Picture.Op α} (ho : op.event? config = some event)
    (content : Option (Picture α)) :
    perform config op content = content.map (fun p => (p.perform event).1) ∧
      departing config op content = none := by
  cases op with
  | build _ _ _ | insert _ _ | erase _ => cases ho
  | startAt _ | start | stop | update =>
    obtain rfl := Option.some.inj ho
    exact ⟨rfl, rfl⟩

/-- An operation that is no event asks for nothing.  It leaves the slot alone, or it takes out what was
there and puts in a picture that does not wait, if any. -/
theorem perform_of_no_event (ho : op.event? config = none) (hf : op.Fresh)
    (content : Option (Picture α)) :
    requests config op content = [] ∧
      (perform config op content = content ∧ departing config op content = none ∨
        (∀ p ∈ perform config op content, p.Reachable) ∧
          (∀ x, waitsAt x (perform config op content) = false) ∧
          departing config op content = content) := by
  refine ⟨by cases content <;> simp only [requests, ho], ?_⟩
  have hscript : ∀ {origin config lines} {p : Picture α},
      Picture.ofScript origin config lines = .ok p →
      (∀ q ∈ some p, q.Reachable) ∧ ∀ x, waitsAt x (some p) = false := by
    intro origin config lines p hp
    refine ⟨fun q hq => ?_, Picture.waitsAt_ofScript hp⟩
    obtain rfl := Option.some.inj hq
    exact Picture.reachable_ofScript hp
  cases op with
  | build id origin lines =>
    simp only [perform, departing]
    cases hp : (Picture.ofScript origin config lines : Except Fault (Picture α)) with
    | error f => exact Or.inl ⟨rfl, rfl⟩
    | ok p =>
      obtain ⟨hreach, hrests⟩ := hscript hp
      exact Or.inr ⟨hreach, hrests, rfl⟩
  | insert id p =>
    obtain ⟨origin, config, lines, hp⟩ := hf
    obtain ⟨hreach, hrests⟩ := hscript hp
    exact Or.inr ⟨hreach, hrests, rfl⟩
  | erase id => exact Or.inr ⟨by simp [perform], fun _ => rfl, rfl⟩
  | _ => cases ho

theorem reachable_perform (hf : op.Fresh) (hc : ∀ p ∈ content, p.Reachable) :
    ∀ p ∈ perform config op content, p.Reachable := by
  cases ho : op.event? config with
  | some event =>
    rw [(perform_of_event ho content).1]
    intro q hq
    obtain ⟨p, hp, rfl⟩ := Option.map_eq_some_iff.1 hq
    exact (hc p hp).perform event
  | none =>
    rcases (perform_of_no_event ho hf content).2 with ⟨hkeeps, -⟩ | ⟨hreach, -⟩
    · rwa [hkeeps]
    · exact hreach

/-- What an operation changes about waiting in a slot, the host is told, but for a picture that waits
and is taken out. -/
theorem settles (config : Config) (hf : op.Fresh) (hc : ∀ p ∈ content, p.Reachable) (x : Pointer) :
    (requests config op content).count (.waiting x) + (waitsAt x content).toNat =
      (requests config op content).count (.doneWaiting x) +
        (waitsAt x (perform config op content)).toNat +
        (waitsAt x (departing config op content)).toNat := by
  cases ho : op.event? config with
  | some event =>
    obtain ⟨hperform, hnone⟩ := perform_of_event ho content
    rw [requests_eq ho, hperform, hnone]
    cases content with
    | none => rfl
    | some p => exact (hc p rfl).settles event x
  | none =>
    obtain ⟨hrequests, hslot⟩ := perform_of_no_event ho hf content
    rw [hrequests]
    rcases hslot with ⟨hkeeps, hnone⟩ | ⟨-, hrests, hall⟩
    · rw [hkeeps, hnone]
      simp [waitsAt]
    · rw [hrests, hall]
      simp

end Slot

/-! ### The whole store -/

omit [Scalar α] in
/-- The number of slots that hold the picture at `x` while it waits. -/
def waitingAt (x : Pointer) (s : Store α) : Nat := s.slots.countP (Slot.waitsAt x)

/-- The picture that an operation takes out of its slot, if it does. -/
def departing (s : Store α) (op : Op α) : Option (Picture α) :=
  op.slot?.bind fun id => s.slots[id]?.bind (Slot.departing s.config op)

/-- Every picture in the store can come about. -/
def Lawful (s : Store α) : Prop := ∀ content ∈ s.slots, ∀ p ∈ content, p.Reachable

variable {s : Store α} {op : Op α}

theorem Lawful.perform (h : s.Lawful) (hf : op.Fresh) : (s.perform op).1.Lawful := by
  intro content hmem
  obtain ⟨i, hi⟩ := List.mem_iff_getElem?.1 hmem
  rw [perform_slots] at hi
  obtain ⟨before, hbefore, rfl⟩ := Option.map_eq_some_iff.1 hi
  have hc := h before (List.mem_of_getElem? hbefore)
  split
  · exact Slot.reachable_perform hf hc
  · exact hc

/-- An operation on all slots settles with the host slot by slot. -/
theorem settles_all (ho : op.slot? = none) (hf : op.Fresh) (config : Config) (x : Pointer)
    {slots : List (Option (Picture α))} (h : ∀ content ∈ slots, ∀ p ∈ content, p.Reachable) :
    (slots.flatMap (Slot.requests config op)).count (.waiting x) + slots.countP (Slot.waitsAt x) =
      (slots.flatMap (Slot.requests config op)).count (.doneWaiting x) +
        (slots.map (Slot.perform config op)).countP (Slot.waitsAt x) := by
  have hstays : ∀ content, Slot.departing config op content = none := by
    intro content
    cases op with
    | build _ _ _ | insert _ _ | erase _ | startAt _ => cases ho
    | start | stop | update => rfl
  induction slots with
  | nil => rfl
  | cons content slots ih =>
    have hfirst := Slot.settles config hf (h content List.mem_cons_self) x
    have hrest := ih fun c hc => h c (List.mem_cons_of_mem _ hc)
    have hnone : Slot.waitsAt x (none : Option (Picture α)) = false := rfl
    rw [hstays, hnone, Bool.toNat_false, Nat.add_zero] at hfirst
    rw [List.flatMap_cons, List.count_append, List.count_append, List.map_cons, countP_cons_eq,
      countP_cons_eq]
    omega

/-- What an operation changes about waiting in the store, the host is told, but for a picture that waits
and is taken out of its slot. -/
theorem Lawful.settles (h : s.Lawful) (hf : op.Fresh) (x : Pointer) :
    (s.perform op).2.requests.count (.waiting x) + s.waitingAt x =
      (s.perform op).2.requests.count (.doneWaiting x) + (s.perform op).1.waitingAt x +
        (Slot.waitsAt x (s.departing op)).toNat := by
  rcases s.perform_cases op with ho | ⟨id, ho, hid⟩ | ⟨id, content, ho, hid⟩
  · have hstays : s.departing op = none := by rw [departing, ho, Option.bind_none]
    rw [perform_of_all ho, hstays]
    exact settles_all ho hf s.config x h
  · have hstays : s.departing op = none := by rw [departing, ho, Option.bind_some, hid, Option.bind_none]
    rw [perform_of_noSlot ho hid, hstays]
    rfl
  · have hleaves : s.departing op = Slot.departing s.config op content := by
      rw [departing, ho, Option.bind_some, hid, Option.bind_some]
    have hslot := Slot.settles s.config hf (h content (List.mem_of_getElem? hid)) x
    have hcount := countP_set_add (Slot.waitsAt x) hid (Slot.perform s.config op content)
    rw [perform_of_slot ho hid, hleaves]
    simp only [waitingAt, put]
    omega

/-! ### Runs -/

/-- The requests to the host during a list of operations, in order. -/
def requests (s : Store α) (ops : List (Op α)) : List Request := (s.run ops).2.flatMap Reply.requests

/-- The pictures that a list of operations takes out of their slots, as they are when they leave. -/
def departed (s : Store α) : List (Op α) → List (Picture α)
  | [] => []
  | op :: ops => (s.departing op).toList ++ (s.perform op).1.departed ops

theorem requests_cons (s : Store α) (op : Op α) (ops : List (Op α)) :
    s.requests (op :: ops) = (s.perform op).2.requests ++ (s.perform op).1.requests ops := rfl

theorem Lawful.settles_run (h : s.Lawful) {ops : List (Op α)} (hf : ∀ op ∈ ops, op.Fresh)
    (x : Pointer) :
    (s.requests ops).count (.waiting x) + s.waitingAt x =
      (s.requests ops).count (.doneWaiting x) + (s.after ops).waitingAt x +
        (s.departed ops).countP (Picture.waitsAt x) := by
  induction ops generalizing s with
  | nil => rfl
  | cons op ops ih =>
    have hfresh := hf op List.mem_cons_self
    have hfirst := h.settles hfresh x
    have hrest := ih (h.perform hfresh) fun o ho => hf o (List.mem_cons_of_mem _ ho)
    rw [requests_cons, after_cons, departed, List.count_append, List.count_append, List.countP_append,
      countP_toList]
    rw [Slot.waitsAt] at hfirst
    omega

omit [Scalar α] in
theorem waitingAt_ofConfig (config : Config) (x : Pointer) :
    (ofConfig config : Store α).waitingAt x = 0 := by
  simp [waitingAt, ofConfig, List.countP_replicate, Slot.waitsAt]

/-- Take an empty store of any capacity, and operations in any order, where a picture that is inserted is
as its script describes it.  How often the host has been told that the picture at a place waits, less how
often it has been told that it waits no longer, is the number of slots where this picture waits and the
number of times that it was taken out of a slot, by another picture or by emptying the slot, while it
waited. -/
theorem waiting_accounted (config : Config) {ops : List (Op α)} (hf : ∀ op ∈ ops, op.Fresh)
    (x : Pointer) :
    ((ofConfig config).requests ops).count (.waiting x) =
      ((ofConfig config).requests ops).count (.doneWaiting x) +
        ((ofConfig config).after ops).waitingAt x +
        ((ofConfig config).departed ops).countP (Picture.waitsAt x) := by
  have hempty : (ofConfig config : Store α).Lawful := by
    intro content hmem p hp
    obtain rfl := List.eq_of_mem_replicate hmem
    cases hp
  have hrun := hempty.settles_run hf x
  rwa [waitingAt_ofConfig, Nat.add_zero] at hrun

/-- A picture that waits is replaced by one that does not, and that by one that is started and waits: the
host has been told twice that the picture waits. -/
theorem told_twice_of_replaced :
    ((ofCapacity 1 : Store Float).requests [.build 0 {} ["wait=30"], .startAt 0,
      .insert 0 (.initial {} {}), .build 0 {} ["wait=30"], .startAt 0]).count (.waiting ⟨0, 0⟩) = 2 := by
  refine (waiting_accounted { capacity := 1 } (fun op hop => ?_) ⟨0, 0⟩).trans ?_
  · simp only [List.mem_cons, List.not_mem_nil, or_false] at hop
    rcases hop with rfl | rfl | rfl | rfl | rfl
    · trivial
    · trivial
    · exact ⟨{}, {}, [], rfl⟩
    · trivial
    · trivial
  · decide +kernel

/-- A slot is emptied while its picture waits.  The host has been told that the picture waits and not that
it waits no longer, and no picture waits in the store. -/
theorem waiting_left_behind :
    ((ofCapacity 1 : Store Float).requests
        [.build 0 { pointer := ⟨7, 0⟩ } ["wait=30"], .startAt 0, .erase 0]).count (.waiting ⟨7, 0⟩) ≠
      ((ofCapacity 1 : Store Float).requests
          [.build 0 { pointer := ⟨7, 0⟩ } ["wait=30"], .startAt 0, .erase 0]).count
            (.doneWaiting ⟨7, 0⟩) +
        ((ofCapacity 1 : Store Float).after
          [.build 0 { pointer := ⟨7, 0⟩ } ["wait=30"], .startAt 0, .erase 0]).waitingAt ⟨7, 0⟩ := by
  decide +kernel

end Store

end Overlay

import Overlay.Proofs.Picture.Life
import Overlay.Scalar.Binary64
import Overlay.Store.Run

/-!
# A store is a row of pictures

An operation concerns the slot that it names, or all of them.  What it does to a slot is a matter of the
content of that slot (`Slot.perform`), and so is what it has the slot ask the host for.  Three equations
say what an operation does to a store: it names a slot that there is, a slot that there is not, or none
(`perform_of_slot`, `perform_of_noSlot`, `perform_of_all`).  By them every slot goes its own way through
a run: `row_of_pictures`.
-/

namespace Overlay

namespace Store

variable {α : Type}

/-! ### What an operation is about -/

/-- The slot that an operation names. -/
def Op.slot? : Op α → Option Nat
  | .build id _ _ | .insert id _ | .erase id | .startAt id => some id
  | .start | .stop | .update => none

/-- The operation names the slot, or none. -/
def Op.concerns (i : Nat) (op : Op α) : Bool := op.slot?.all (· == i)

/-- What an operation is to the picture in a slot that it concerns, if it does not replace it. -/
def Op.event? (config : Config) : Op α → Option (Picture.Op α)
  | .startAt _ | .start => some .start
  | .stop => some .stop
  | .update => some (.update config.tick)
  | .build .. | .insert .. | .erase _ => none

variable [Scalar α]

/-- Why the script of an operation is refused, if it has one and it is. -/
def Op.scriptFault? (config : Config) : Op α → Option Fault
  | .build _ origin lines =>
    match (Picture.ofScript origin config lines : Except Fault (Picture α)) with
    | .ok _ => none
    | .error fault => some fault
  | _ => none

namespace Slot

/-- The content of a slot after an operation that concerns it. -/
def perform (config : Config) (op : Op α) (content : Option (Picture α)) : Option (Picture α) :=
  match op with
  | .build _ origin lines =>
    match Picture.ofScript origin config lines with
    | .ok p => some p
    | .error _ => content
  | .insert _ p => some p
  | .erase _ => none
  | .startAt _ | .start => content.map fun p => (p.perform .start).1
  | .stop => content.map fun p => (p.perform .stop).1
  | .update => content.map fun p => (p.perform (.update config.tick)).1

/-- The content of a slot after operations that concern it. -/
def after (config : Config) (ops : List (Op α)) (content : Option (Picture α)) : Option (Picture α) :=
  ops.foldl (fun content op => perform config op content) content

/-- What the picture in a slot asks the host for with an operation that concerns it. -/
def requests (config : Config) (op : Op α) (content : Option (Picture α)) : List Request :=
  match content, op.event? config with
  | some p, some event => (p.perform event).2.requests
  | _, _ => []

/-- The followers of the picture in a slot, if it times out with the operation: the one in its slot
first, then the chain. -/
def followers (config : Config) (op : Op α) (content : Option (Picture α)) : List Pointer :=
  match content, op.event? config with
  | some p, some event =>
    let q := (p.perform event).1
    if p.phase = .visible ∧ q.phase = .timedOut then q.properties.timeNext.toList ++ q.properties.next
    else []
  | _, _ => []

end Slot

/-! ### Slots -/

variable {s : Store α} {op : Op α} {id : Nat} {content : Option (Picture α)}

omit [Scalar α] in
theorem slot_of_some (h : s.slots[id]? = some content) : s.slot id = .ok content := by
  simp only [slot, h]

omit [Scalar α] in
theorem slot_of_none (h : s.slots[id]? = none) : s.slot id = .error (.noSlot id s.capacity) := by
  simp only [slot, h]

omit [Scalar α] in
theorem put_self (h : s.slots[id]? = some content) : s.put id content = s := by
  have hset : s.slots.set id content = s.slots := by
    obtain ⟨hid, rfl⟩ := List.getElem?_eq_some_iff.1 h
    exact List.set_getElem_self hid
  rw [put, hset]

/-! ### Operations on one slot -/

theorem build_of_slot (h : s.slots[id]? = some content) (origin : Origin) (lines : List String) :
    s.build id origin lines =
      (Picture.ofScript origin s.config lines).map fun p => (s.put id (some p), p) := by
  rw [build, slot_of_some h]
  cases (Picture.ofScript origin s.config lines : Except Fault (Picture α)) <;> rfl

omit [Scalar α] in
theorem insert_of_slot (h : s.slots[id]? = some content) (p : Picture α) :
    s.insert id p = .ok (s.put id (some p)) := by
  rw [insert, slot_of_some h]
  rfl

omit [Scalar α] in
theorem erase_of_slot (h : s.slots[id]? = some content) :
    s.erase id = .ok (s.put id none, content) := by
  rw [erase, slot_of_some h]
  rfl

omit [Scalar α] in
theorem startAt_of_slot (h : s.slots[id]? = some content) :
    s.startAt id = .ok (s.put id (content.map fun p => p.start.1),
      content.elim [] fun p => p.start.2) := by
  rw [startAt, slot_of_some h]
  cases content with
  | none =>
    rw [Option.map_none, put_self h]
    rfl
  | some p => rfl

/-- An operation that names a slot that there is: the slot has a new content, which is the old one if
the script of the operation is refused. -/
theorem perform_of_slot (ho : op.slot? = some id) (h : s.slots[id]? = some content) :
    s.perform op = (s.put id (Slot.perform s.config op content),
      { requests := Slot.requests s.config op content, fault := op.scriptFault? s.config }) := by
  cases op with
  | build i origin lines =>
    obtain rfl := Option.some.inj ho
    simp only [perform, build_of_slot h, Slot.perform, Slot.requests, Op.scriptFault?]
    cases hp : (Picture.ofScript origin s.config lines : Except Fault (Picture α)) with
    | error f => cases content <;> simp [Except.map, Op.event?, put_self h]
    | ok p => cases content <;> simp [Except.map, Op.event?]
  | insert i p =>
    obtain rfl := Option.some.inj ho
    simp only [perform, insert_of_slot h, Slot.perform]
    cases content <;> rfl
  | erase i =>
    obtain rfl := Option.some.inj ho
    simp only [perform, erase_of_slot h, Slot.perform]
    cases content <;> rfl
  | startAt i =>
    obtain rfl := Option.some.inj ho
    simp only [perform, startAt_of_slot h, Slot.perform]
    cases content <;> rfl
  | _ => cases ho

/-- An operation that names a slot that there is not is refused for that, whatever its script. -/
theorem perform_of_noSlot (ho : op.slot? = some id) (h : s.slots[id]? = none) :
    s.perform op = (s, { fault := some (.noSlot id s.slots.length) }) := by
  have hslot := slot_of_none h
  cases op with
  | build i origin lines =>
    obtain rfl := Option.some.inj ho
    have hf : s.build i origin lines = .error (.noSlot i s.capacity) := by rw [build, hslot]; rfl
    simp only [perform, hf, capacity]
  | insert i p =>
    obtain rfl := Option.some.inj ho
    have hf : s.insert i p = .error (.noSlot i s.capacity) := by rw [insert, hslot]; rfl
    simp only [perform, hf, capacity]
  | erase i =>
    obtain rfl := Option.some.inj ho
    have hf : s.erase i = .error (.noSlot i s.capacity) := by rw [erase, hslot]; rfl
    simp only [perform, hf, capacity]
  | startAt i =>
    obtain rfl := Option.some.inj ho
    have hf : s.startAt i = .error (.noSlot i s.capacity) := by rw [startAt, hslot]; rfl
    simp only [perform, hf, capacity]
  | _ => cases ho

/-! ### Operations on all slots -/

omit [Scalar α] in
theorem each_fst {β : Type} (s : Store α) (f : Picture α → Picture α × β) :
    (s.each f).1 = { s with slots := s.slots.map (Option.map fun p => (f p).1) } := by
  simp only [each, List.map_map, Function.comp_def, Option.map_map]

omit [Scalar α] in
/-- What all pictures yield, in the order of the slots. -/
theorem each_snd_flatMap {β γ : Type} (s : Store α) (f : Picture α → Picture α × β)
    (g : β → List γ) :
    (s.each f).2.flatMap g = s.slots.flatMap fun content => content.elim [] fun p => g (f p).2 := by
  unfold each
  induction s.slots with
  | nil => rfl
  | cons content slots ih =>
    cases content with
    | none => exact ih
    | some p => exact congrArg (g (f p).2 ++ ·) ih

namespace Slot

variable {config : Config} {event : Picture.Op α}

theorem requests_eq (ho : op.event? config = some event) (content : Option (Picture α)) :
    requests config op content = content.elim [] fun p => (p.perform event).2.requests := by
  cases content with
  | none => rfl
  | some p => simp only [requests, ho, Option.elim_some]

theorem followers_eq (ho : op.event? config = some event) (content : Option (Picture α)) :
    followers config op content = content.elim [] fun p =>
      if (p.perform event).2.timesOut then (p.perform event).1.properties.followers else [] := by
  cases content with
  | none => rfl
  | some p =>
    simp only [followers, ho, Picture.timesOut_iff_phase, Properties.followers, Option.elim_some]

/-- Nothing follows an event with which no picture times out. -/
theorem followers_eq_nil (ho : op.event? config = some event)
    (h : ∀ p : Picture α, (p.perform event).2.timesOut = false) (slots : List (Option (Picture α))) :
    slots.flatMap (followers config op) = [] := by
  refine List.flatMap_eq_nil_iff.2 fun content _ => ?_
  rw [followers_eq ho]
  cases content with
  | none => rfl
  | some p => rw [Option.elim_some, h p, if_neg Bool.false_ne_true]

/-- The requests of all pictures with an event, in the order of the slots. -/
theorem flatten_each_eq (ho : op.event? config = some event) (s : Store α)
    {f : Picture α → Picture α × List Request} (hf : ∀ p, (f p).2 = (p.perform event).2.requests) :
    (s.each f).2.flatten = s.slots.flatMap (requests config op) := by
  rw [List.flatten_eq_flatMap, each_snd_flatMap, funext (requests_eq ho)]
  simp only [id, hf]

end Slot

/-- An operation that names no slot: every slot has a new content of its own, and the requests and the
followers come in the order of the slots. -/
theorem perform_of_all (ho : op.slot? = none) :
    s.perform op = ({ s with slots := s.slots.map (Slot.perform s.config op) },
      { requests := s.slots.flatMap (Slot.requests s.config op)
        followers := s.slots.flatMap (Slot.followers s.config op) }) := by
  cases op with
  | start =>
    have hrequests : (s.each Picture.start).2.flatten =
        s.slots.flatMap (Slot.requests s.config .start) := Slot.flatten_each_eq rfl s fun _ => rfl
    rw [Slot.followers_eq_nil rfl fun _ => rfl]
    simp only [perform, start, each_fst, hrequests]
    rfl
  | stop =>
    have hrequests : (s.each Picture.stop).2.flatten =
        s.slots.flatMap (Slot.requests s.config .stop) := Slot.flatten_each_eq rfl s fun _ => rfl
    rw [Slot.followers_eq_nil rfl fun _ => rfl]
    simp only [perform, stop, each_fst, hrequests]
    rfl
  | update =>
    rw [funext (Slot.requests_eq rfl), funext (Slot.followers_eq rfl)]
    simp only [perform, update, each_fst, each_snd_flatMap]
    rfl
  | _ => cases ho

/-! ### Refusals -/

omit [Scalar α] in
/-- Every operation is of one of the three kinds. -/
theorem perform_cases (s : Store α) (op : Op α) :
    op.slot? = none ∨
      (∃ id, op.slot? = some id ∧ s.slots[id]? = none) ∨
      ∃ id content, op.slot? = some id ∧ s.slots[id]? = some content := by
  cases ho : op.slot? with
  | none => exact Or.inl rfl
  | some id =>
    cases h : s.slots[id]? with
    | none => exact Or.inr (Or.inl ⟨id, rfl, h⟩)
    | some content => exact Or.inr (Or.inr ⟨id, content, rfl, h⟩)

theorem scriptFault?_eq_some {config : Config} {f : Fault} :
    op.scriptFault? config = some f ↔ ∃ id origin lines, op = .build id origin lines ∧
      (Picture.ofScript origin config lines : Except Fault (Picture α)) = .error f := by
  constructor
  · intro h
    cases op with
    | build id origin lines =>
      refine ⟨id, origin, lines, rfl, ?_⟩
      simp only [Op.scriptFault?] at h
      cases hp : (Picture.ofScript origin config lines : Except Fault (Picture α)) with
      | ok p =>
        rw [hp] at h
        cases h
      | error f' =>
        rw [hp] at h
        exact congrArg Except.error (Option.some.inj h)
    | _ => cases h
  · rintro ⟨id, origin, lines, rfl, hp⟩
    simp only [Op.scriptFault?, hp]

/-- An operation is refused if it names a slot that there is not, whatever else it says, or if it names
one and its script is refused. -/
theorem perform_fault (s : Store α) (op : Op α) (f : Fault) :
    (s.perform op).2.fault = some f ↔
      (∃ id, op.slot? = some id ∧ s.slots.length ≤ id ∧ f = .noSlot id s.slots.length) ∨
      ∃ id origin lines, op = .build id origin lines ∧ id < s.slots.length ∧
        (Picture.ofScript origin s.config lines : Except Fault (Picture α)) = .error f := by
  rcases s.perform_cases op with ho | ⟨id, ho, h⟩ | ⟨id, content, ho, h⟩
  · rw [perform_of_all ho]
    refine ⟨nofun, ?_⟩
    rintro (⟨id, ho', -⟩ | ⟨id, origin, lines, rfl, -⟩)
    · cases ho.symm.trans ho'
    · cases ho
  · have hid : s.slots.length ≤ id := List.getElem?_eq_none_iff.1 h
    rw [perform_of_noSlot ho h]
    constructor
    · intro hf
      exact Or.inl ⟨id, ho, hid, (Option.some.inj hf).symm⟩
    · rintro (⟨id', ho', -, rfl⟩ | ⟨id', origin, lines, rfl, hlt, -⟩)
      · obtain rfl := Option.some.inj (ho.symm.trans ho')
        rfl
      · obtain rfl := Option.some.inj ho
        omega
  · obtain ⟨hid, -⟩ := List.getElem?_eq_some_iff.1 h
    rw [perform_of_slot ho h]
    constructor
    · intro hf
      obtain ⟨id', origin, lines, rfl, hp⟩ := scriptFault?_eq_some.1 hf
      obtain rfl := Option.some.inj ho
      exact Or.inr ⟨id', origin, lines, rfl, hid, hp⟩
    · rintro (⟨id', ho', hle, -⟩ | ⟨id', origin, lines, rfl, -, hp⟩)
      · obtain rfl := Option.some.inj (ho.symm.trans ho')
        omega
      · exact scriptFault?_eq_some.2 ⟨id', origin, lines, rfl, hp⟩

/-- A refused operation changes nothing, and asks for nothing. -/
theorem perform_of_fault (h : (s.perform op).2.fault ≠ none) :
    (s.perform op).1 = s ∧ (s.perform op).2.requests = [] ∧ (s.perform op).2.followers = [] := by
  rcases s.perform_cases op with ho | ⟨id, ho, hid⟩ | ⟨id, content, ho, hid⟩
  · rw [perform_of_all ho] at h
    exact absurd rfl h
  · rw [perform_of_noSlot ho hid]
    exact ⟨rfl, rfl, rfl⟩
  · rw [perform_of_slot ho hid] at h ⊢
    obtain ⟨f, hf⟩ := Option.ne_none_iff_exists'.1 h
    obtain ⟨id', origin, lines, rfl, hp⟩ := scriptFault?_eq_some.1 hf
    refine ⟨?_, ?_, rfl⟩
    · simp only [Slot.perform, hp, put_self hid]
    · cases content <;> rfl

/-! ### Runs -/

/-- The store after a list of operations. -/
def after (s : Store α) (ops : List (Op α)) : Store α := (s.run ops).1

@[simp] theorem after_nil (s : Store α) : s.after [] = s := rfl

theorem after_cons (s : Store α) (op : Op α) (ops : List (Op α)) :
    s.after (op :: ops) = (s.perform op).1.after ops := rfl

/-- The configuration and the number of slots stay as they are. -/
theorem perform_config_length (s : Store α) (op : Op α) :
    (s.perform op).1.config = s.config ∧ (s.perform op).1.slots.length = s.slots.length := by
  rcases s.perform_cases op with ho | ⟨id, ho, h⟩ | ⟨id, content, ho, h⟩
  · rw [perform_of_all ho]
    exact ⟨rfl, List.length_map _⟩
  · rw [perform_of_noSlot ho h]
    exact ⟨rfl, rfl⟩
  · rw [perform_of_slot ho h]
    exact ⟨rfl, List.length_set⟩

/-- An operation changes a slot that it concerns by its content alone, and leaves the others as they
are. -/
theorem perform_slots (s : Store α) (op : Op α) (i : Nat) :
    (s.perform op).1.slots[i]? = (s.slots[i]?).map fun content =>
      if op.concerns i then Slot.perform s.config op content else content := by
  rcases s.perform_cases op with ho | ⟨id, ho, h⟩ | ⟨id, content, ho, h⟩
  · have hc : op.concerns i = true := by rw [Op.concerns, ho]; rfl
    rw [perform_of_all ho]
    simp only [List.getElem?_map, hc, if_true]
  · rw [perform_of_noSlot ho h]
    by_cases hi : id = i
    · rw [← hi, h, Option.map_none]
    · have hc : op.concerns i = false := by simpa [Op.concerns, ho] using hi
      simp only [hc, Bool.false_eq_true, if_false, Option.map_id_fun', id_eq]
  · rw [perform_of_slot ho h]
    by_cases hi : id = i
    · have hc : op.concerns i = true := by simpa [Op.concerns, ho] using hi
      obtain ⟨hlt, -⟩ := List.getElem?_eq_some_iff.1 h
      rw [← hi, h, put, List.getElem?_set_self hlt, Option.map_some, hi, if_pos hc]
    · have hc : op.concerns i = false := by simpa [Op.concerns, ho] using hi
      simp only [put, List.getElem?_set_ne hi, hc, Bool.false_eq_true, if_false, Option.map_id_fun',
        id_eq]

/-- The configuration stays as it is in a run. -/
theorem after_config (s : Store α) (ops : List (Op α)) : (s.after ops).config = s.config := by
  induction ops generalizing s with
  | nil => rfl
  | cons op ops ih => exact (ih _).trans (s.perform_config_length op).1

theorem after_length (s : Store α) (ops : List (Op α)) :
    (s.after ops).slots.length = s.slots.length := by
  induction ops generalizing s with
  | nil => rfl
  | cons op ops ih => exact (ih _).trans (s.perform_config_length op).2

/-- Every slot goes its own way through a run. -/
theorem after_slots (s : Store α) (ops : List (Op α)) (i : Nat) :
    (s.after ops).slots[i]? =
      (s.slots[i]?).map (Slot.after s.config (ops.filter (Op.concerns i))) := by
  induction ops generalizing s with
  | nil => exact Option.map_id_fun.symm ▸ rfl
  | cons op ops ih =>
    rw [after_cons, ih, perform_slots, (s.perform_config_length op).1, Option.map_map]
    refine congrArg (Option.map · s.slots[i]?) (funext fun content => ?_)
    -- an operation on another slot leaves this one, and is not in the filtered list either
    by_cases hc : op.concerns i = true
    · rw [List.filter_cons_of_pos hc]
      simp only [Function.comp_apply, hc, if_true]
      rfl
    · rw [List.filter_cons_of_neg hc]
      simp only [Function.comp_apply, if_neg hc]

/-- Take any store, an empty one of any capacity among them, and operations in any order.

The number of slots stays as it is.  Every slot has the content that it would have by itself after the
operations that name it or none, time passing in ticks of the store; those that name another slot do not
matter.  Then take one more operation.  If it names no slot, the requests to the host are those of the
slots in ascending order; so are the followers, which come from the pictures that are visible before it
and have timed out after it, the one in the slot first and then the chain.  If it names a slot, the
requests are those of this slot.  It is refused exactly if it names a slot that there is not, which is
looked at first, or if its script is refused; and then it changes nothing and asks for nothing. -/
theorem row_of_pictures (s : Store α) (ops : List (Op α)) :
    (s.after ops).slots.length = s.slots.length ∧
    (∀ i, (s.after ops).slots[i]? =
      (s.slots[i]?).map (Slot.after s.config (ops.filter (Op.concerns i)))) ∧
    ∀ op t reply, (s.after ops).perform op = (t, reply) →
      (op.slot? = none →
        reply.requests = (s.after ops).slots.flatMap (Slot.requests s.config op) ∧
        reply.followers = (s.after ops).slots.flatMap (Slot.followers s.config op)) ∧
      (∀ i, op.slot? = some i →
        reply.requests = ((s.after ops).slots[i]?).elim [] (Slot.requests s.config op) ∧
        reply.followers = []) ∧
      (∀ f, reply.fault = some f ↔
        (∃ i, op.slot? = some i ∧ s.slots.length ≤ i ∧ f = .noSlot i s.slots.length) ∨
        ∃ i origin lines, op = .build i origin lines ∧ i < s.slots.length ∧
          (Picture.ofScript origin s.config lines : Except Fault (Picture α)) = .error f) ∧
      (reply.fault ≠ none → t = s.after ops ∧ reply.requests = [] ∧ reply.followers = []) := by
  have hconfig := s.after_config ops
  have hlength := s.after_length ops
  refine ⟨hlength, s.after_slots ops, ?_⟩
  rintro op t reply he
  have ht : ((s.after ops).perform op).1 = t := congrArg Prod.fst he
  have hreply : ((s.after ops).perform op).2 = reply := congrArg Prod.snd he
  rw [← ht, ← hreply, ← hconfig, ← hlength]
  refine ⟨fun ho => ?_, fun i ho => ?_, (s.after ops).perform_fault op, perform_of_fault⟩
  · rw [perform_of_all ho]
    exact ⟨rfl, rfl⟩
  · cases hi : (s.after ops).slots[i]? with
    | none =>
      rw [perform_of_noSlot ho hi]
      exact ⟨rfl, rfl⟩
    | some content =>
      rw [perform_of_slot ho hi]
      exact ⟨rfl, rfl⟩

/-- Two pictures with a visible time of 20, one of them with followers.  A script that is refused and a
slot that there is not do not disturb them, and they time out with the second tick. -/
theorem followers_of_second_tick :
    (((ofCapacity 2 : Store Float).after [.build 0 { pointer := ⟨3, 0⟩ } ["time=20,5", "next=7,1"],
      .build 1 {} ["time=20"], .build 1 {} ["time"], .startAt 9, .start, .update]).perform
        .update).2.followers = [⟨5, 0⟩, ⟨7, 1⟩] := by
  obtain ⟨-, -, hcall⟩ := row_of_pictures (ofCapacity 2 : Store Float)
    [.build 0 { pointer := ⟨3, 0⟩ } ["time=20,5", "next=7,1"], .build 1 {} ["time=20"],
      .build 1 {} ["time"], .startAt 9, .start, .update]
  refine ((hcall .update _ _ rfl).1 rfl).2.trans ?_
  decide +kernel

end Store

end Overlay

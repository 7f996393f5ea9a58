import Overlay.Proofs.Picture.LineOrder
import Overlay.Proofs.Picture.Transitions
import Mathlib.Data.List.Induction

/-!
# The delay in force

The delay of a picture comes from `wait` lines alone: nothing else replaces it, and nothing takes it
away.  So a picture from its beginning has the delay of the last `wait` line that could be read
(`after_wait`), and the part that it asks for when it appears is the one that this line describes
(`after_spawn?`).
-/

namespace Overlay

/-! ### The part to place -/

/-- What a target stands for in a picture from this origin.  The place is counted from that of the part which
triggered the picture, coordinate by coordinate, and the part to place from that part's number; the place that
triggered it and the layer are handed on. -/
def Spawn.seenFrom (o : Origin) (s : Spawn) : Appearance where
  trigger := o.trigger
  x := s.x.resolve o.trigger.x
  y := s.y.resolve o.trigger.y
  part := s.part.resolve o.triggerPart
  layer := s.layer

theorem Spawn.resolve_eq_seenFrom (s : Spawn) (o : Origin) : s.resolve o = s.seenFrom o := rfl

/-! ### Reading a `wait` line -/

section Reading

variable {α : Type} [Scalar α]

/-- What a `wait` line says: its part is the target seen from the origin, and placed if the line has at least
four tokens. -/
theorem Setting.read_wait {o : Origin} {line : Line} {s : Setting α}
    (h : Setting.read o line .wait = .ok s) :
    ∃ w, s = .wait w ∧ w.appearance = w.target.seenFrom o ∧
      w.spawns = decide (4 ≤ line.tokens.length) := by
  have hs : Yields (Setting.read o line .wait : Except Fault (Setting α)) (· = s) := ⟨s, h, rfl⟩
  simp only [Setting.read, yields_bind, yields_pure] at hs
  obtain ⟨delay, -, part, -, x, -, y, -, layer, -, rfl⟩ := hs
  exact ⟨_, rfl, Spawn.resolve_eq_seenFrom _ o, rfl⟩

namespace Directive

/-- A text that is obeyed is a line, and its name chooses how it is read. -/
theorem readAs_of_obeyed {o : Origin} {t : String} {d : Directive α} (h : obeyed o t = .ok d) :
    ∃ line, Line.parse t = .ok line ∧ Subject.ofName line.name = .ok d.subject ∧
      readAs o line d.subject = .ok d := by
  have hd : Yields (obeyed o t) (· = d) := ⟨d, h, rfl⟩
  simp only [obeyed, ofText, ofLine, yields_bind] at hd
  obtain ⟨line, hl, s, hs, e, he, hchecked⟩ := hd
  obtain ⟨n, hn, hsubject⟩ := Picture.lineName_of_obeyed h
  have hname : line.name = n := by simpa only [Picture.lineName, hl, Option.some.injEq] using hn
  obtain rfl : s = d.subject := Except.ok.inj (hs.symm.trans (hname ▸ hsubject))
  refine ⟨line, hl, hs, ?_⟩
  unfold checked at hchecked
  split at hchecked
  · obtain rfl := yields_ok.1 hchecked
    exact he
  · exact (yields_error.1 hchecked).elim

/-- A text sets the delay if it is a `wait` line that can be read. -/
theorem obeyed_wait_iff {o : Origin} {t : String} {w : Wait} :
    obeyed (α := α) o t = .ok (.setting (.wait w)) ↔ ∃ line, Line.parse t = .ok line ∧
      line.name = "wait" ∧ Setting.read (α := α) o line .wait = .ok (.wait w) := by
  constructor
  · intro h
    obtain ⟨line, hl, hs, hd⟩ := readAs_of_obeyed h
    refine ⟨line, hl, (Subject.name_of_ofName hs).symm, ?_⟩
    change setting <$> Setting.read o line .wait = _ at hd
    cases hr : (Setting.read o line .wait : Except Fault (Setting α)) with
    | error f =>
      rw [hr] at hd
      cases hd
    | ok s =>
      rw [hr] at hd
      exact congrArg Except.ok (setting.inj (Except.ok.inj hd))
  · rintro ⟨line, hl, hname, hr⟩
    have hs : Subject.ofName line.name = .ok (.property .wait) := by
      rw [hname]
      rfl
    unfold obeyed ofText
    rw [hl]
    change (Subject.ofName line.name >>= readAs o line) >>= checked = _
    rw [hs]
    change (setting <$> Setting.read o line .wait) >>= checked = _
    rw [hr]
    rfl

end Directive

end Reading

namespace Picture

variable {α : Type} [Scalar α] {p : Picture α} {op : Op α}

/-- The line and the delay it describes, if the operation is a `wait` line that can be read. -/
def Op.wait? (o : Origin) : Op α → Option (Line × Wait)
  | .line text =>
    match Line.parse text with
    | .ok l =>
      if l.name = "wait" then
        match (Setting.read o l .wait : Except Fault (Setting α)) with
        | .ok (.wait w) => some (l, w)
        | _ => none
      else none
    | .error _ => none
  | _ => none

theorem wait?_line_eq_some {o : Origin} {t : String} {line : Line} {w : Wait} :
    (Op.line t : Op α).wait? o = some (line, w) ↔ Line.parse t = .ok line ∧ line.name = "wait" ∧
      Setting.read (α := α) o line .wait = .ok (.wait w) := by
  simp only [Op.wait?]
  constructor
  · intro h
    split at h
    · next hl =>
      split at h
      · next hname =>
        split at h
        · next hr =>
          obtain ⟨rfl, rfl⟩ := Prod.mk.inj (Option.some.inj h)
          exact ⟨hl, hname, hr⟩
        · cases h
      · cases h
    · cases h
  · rintro ⟨hl, hname, hr⟩
    simp only [hl, hname, hr, if_true]

/-- The last `wait` line that could be read, and the delay it describes. -/
def waitInForce (o : Origin) (ops : List (Op α)) : Option (Line × Wait) :=
  (ops.filterMap (Op.wait? o)).getLast?

/-! ### What leaves the delay alone -/

theorem write_wait {d : Directive α} (h : ∀ w, d ≠ .setting (.wait w)) :
    (p.write d).properties.wait = p.properties.wait := by
  cases d with
  | setting s =>
    cases s with
    | wait w => exact absurd rfl (h w)
    | _ => rfl
  | motion m => rfl
  | acceleration a => rfl

omit [Scalar α] in
theorem wait_of_moved {P Q : Properties α} (h : P.Moved Q) : Q.wait = P.wait := by
  obtain ⟨_, _, _, _, rfl⟩ := h
  rfl

/-- An operation replaces the delay if it is a `wait` line that can be read, and leaves it alone
otherwise. -/
theorem perform_wait (hp : Clamped p) (op : Op α) :
    (p.perform op).1.properties.wait =
      ((op.wait? p.origin).map Prod.snd).or p.properties.wait := by
  cases op with
  | line t =>
    cases hw : (Op.line t : Op α).wait? p.origin with
    | some x =>
      have hd := Directive.obeyed_wait_iff.2 ⟨_, wait?_line_eq_some.1 hw⟩
      rw [perform_line_of_obeyed hp hd]
      rfl
    | none =>
      cases hd : Directive.obeyed (α := α) p.origin t with
      | error f =>
        rw [perform_line_of_refused hp hd]
        rfl
      | ok d =>
        rw [perform_line_of_obeyed hp hd]
        refine write_wait ?_
        rintro w rfl
        obtain ⟨line, hline⟩ := Directive.obeyed_wait_iff.1 hd
        cases hw.symm.trans (wait?_line_eq_some.2 hline)
  | _ => exact wait_of_moved (moved_perform (by nofun))

/-! ### The delay of a run -/

theorem perform_origin (p : Picture α) (op : Op α) : (p.perform op).1.origin = p.origin :=
  (p.transition op).origin

theorem after_origin (p : Picture α) (ops : List (Op α)) : (p.after ops).origin = p.origin := by
  induction ops generalizing p with
  | nil => rfl
  | cons op ops ih => exact (ih _).trans (p.perform_origin op)

theorem origin_of_ofScript {o : Origin} {c : Config} {lines : List String} {p : Picture α}
    (h : ofScript o c lines = .ok p) : p.origin = o := by
  rw [← after_of_readLines h]
  exact after_origin _ _

/-- A picture from its beginning has the delay that the last `wait` line describes. -/
theorem after_wait (o : Origin) (c : Config) (ops : List (Op α)) :
    ((initial o c).after ops).properties.wait = (waitInForce o ops).map Prod.snd := by
  induction ops using List.reverseRecOn with
  | nil => rfl
  | append_singleton ops op ih =>
    have hclamped := ((Reachable.initial (α := α) o c).after ops).clamped
    have horigin : ((initial o c).after ops).origin = o := after_origin _ ops
    rw [after_concat, perform_wait hclamped, ih, horigin]
    unfold waitInForce
    rw [List.filterMap_append]
    cases hw : op.wait? o with
    | none => simp [hw]
    | some w => simp [hw]

/-- The part that the last `wait` line asks for, seen from the origin, if the line has at least four
tokens. -/
def partInForce (o : Origin) (ops : List (Op α)) : Option Appearance :=
  (waitInForce o ops).bind fun (line, w) =>
    if 4 ≤ line.tokens.length then some (w.target.seenFrom o) else none

theorem spawn?_of_wait? {o : Origin} {line : Line} {w : Wait} (h : op.wait? o = some (line, w)) :
    w.spawn? = if 4 ≤ line.tokens.length then some (w.target.seenFrom o) else none := by
  cases op with
  | line t =>
    obtain ⟨w', hw, happearance, hspawns⟩ := Setting.read_wait (wait?_line_eq_some.1 h).2.2
    obtain rfl := Setting.wait.inj hw
    simp only [Wait.spawn?, happearance, hspawns, decide_eq_true_eq]
  | _ => cases h

theorem after_spawn? (o : Origin) (c : Config) (ops : List (Op α)) :
    ((initial o c).after ops).properties.wait.bind Wait.spawn? = partInForce o ops := by
  rw [after_wait, partInForce]
  cases hw : waitInForce o ops with
  | none => rfl
  | some x =>
    obtain ⟨op, -, hop⟩ := List.mem_filterMap.1 (List.mem_of_getLast? hw)
    exact spawn?_of_wait? hop

end Picture

end Overlay

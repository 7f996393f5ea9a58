import Overlay.Picture.Run

/-!
# What runs keep

The pictures that can come about (`Reachable`) and what every operation leaves as it was: the origin,
and every property of the property set that settings and moves keep (`Kept`).  The policy of the
opacity is one of them, so a line that sets the opacity is always checked.  Moves and motions only touch
the place, the size, the angle and the value of the opacity (`Moved`).
-/

namespace Overlay

/-! ### Property sets -/

namespace Properties

variable {α : Type} [Scalar α]

/-- A condition on property sets that no setting and no move breaks. -/
structure Kept (Q : Properties α → Prop) : Prop where
  set : ∀ p s p', Q p → p.set s = .ok p' → Q p'
  move : ∀ p d, Q p → Q (p.move d)
  jump : ∀ p v, Q p → Q (p.jump v)
  resize : ∀ p d, Q p → Q (p.resize d)
  rotate : ∀ p d, Q p → Q (p.rotate d)
  fade : ∀ p d, Q p → Q (p.fade d)

variable {Q : Properties α → Prop}

theorem Kept.apply (k : Kept Q) (m : Motion α) {p : Properties α} (h : Q p) : Q (m.apply p) := by
  cases m with
  | straight d => exact k.move p _ h
  | circle o => exact k.jump p _ h
  | zoom d => exact k.resize p _ h
  | rotate d => exact k.rotate p _ h
  | fade d => exact k.fade p _ h

theorem Kept.applyAll (k : Kept Q) (t : Tracks α) {p : Properties α} (h : Q p) : Q (t.apply p) := by
  unfold Tracks.apply
  induction t.motions generalizing p with
  | nil => exact h
  | cons m ms ih => exact ih (k.apply m h)

theorem eq_of_set_opacity {p p' : Properties α} {value : α} (h : p.set (.opacity value) = .ok p') :
    p' = { p with opacity := { p.opacity with value } } := by
  simp only [Properties.set, Rate.set] at h
  split at h
  · cases h
  · exact (Except.ok.inj h).symm

/-- The policy of the opacity stays what it is. -/
theorem kept_mode (mode : RateMode) : Kept fun p : Properties α => p.opacity.mode = mode where
  set p s p' h e := by
    cases s with
    | opacity value => obtain rfl := eq_of_set_opacity e; exact h
    | _ => obtain rfl := Except.ok.inj e; exact h
  move _ _ h := h
  jump _ _ h := h
  resize _ _ h := h
  rotate _ _ h := h
  fade _ _ h := h

/-- A delay may be replaced, and is never taken away. -/
theorem kept_wait : Kept fun p : Properties α => p.wait.isSome = true where
  set p s p' h e := by
    cases s with
    | opacity value => obtain rfl := eq_of_set_opacity e; exact h
    | wait w => obtain rfl := Except.ok.inj e; rfl
    | _ => obtain rfl := Except.ok.inj e; exact h
  move _ _ h := h
  jump _ _ h := h
  resize _ _ h := h
  rotate _ _ h := h
  fade _ _ h := h

/-! ### Moves -/

/-- The second property set is the first one, apart from the place, the size, the angle and the value of
the opacity. -/
def Moved (P Q : Properties α) : Prop :=
  ∃ pos size angle value, Q = { P with pos, size, angle, opacity := { P.opacity with value } }

omit [Scalar α] in
theorem Moved.refl (P : Properties α) : P.Moved P := ⟨_, _, _, _, rfl⟩

omit [Scalar α] in
theorem Moved.trans {P P' P'' : Properties α} (h : P.Moved P') (h' : P'.Moved P'') : P.Moved P'' := by
  obtain ⟨_, _, _, _, rfl⟩ := h
  obtain ⟨_, _, _, _, rfl⟩ := h'
  exact ⟨_, _, _, _, rfl⟩

theorem moved_apply (m : Motion α) (P : Properties α) : P.Moved (m.apply P) := by
  cases m <;> exact ⟨_, _, _, _, rfl⟩

theorem moved_applyAll (t : Tracks α) (P : Properties α) : P.Moved (t.apply P) := by
  unfold Tracks.apply
  induction t.motions generalizing P with
  | nil => exact .refl P
  | cons m ms ih => exact (moved_apply m P).trans (ih _)

end Properties

namespace Picture

variable {α : Type} [Scalar α]

/-! ### Runs -/

/-- The picture after a list of operations. -/
def after (p : Picture α) (ops : List (Op α)) : Picture α := (p.run ops).1

@[simp] theorem after_nil (p : Picture α) : p.after [] = p := rfl

theorem after_cons (p : Picture α) (op : Op α) (ops : List (Op α)) :
    p.after (op :: ops) = (p.perform op).1.after ops := rfl

theorem after_append (p : Picture α) (xs ys : List (Op α)) :
    p.after (xs ++ ys) = (p.after xs).after ys := by
  induction xs generalizing p with
  | nil => rfl
  | cons op xs ih => rw [List.cons_append, after_cons, after_cons, ih]

theorem after_concat (p : Picture α) (ops : List (Op α)) (op : Op α) :
    p.after (ops ++ [op]) = ((p.after ops).perform op).1 := by
  rw [after_append]
  rfl

theorem run_cons (p : Picture α) (op : Op α) (ops : List (Op α)) :
    p.run (op :: ops) =
      (((p.perform op).1.run ops).1, (p.perform op).2 :: ((p.perform op).1.run ops).2) := rfl

theorem run_append (p : Picture α) (xs ys : List (Op α)) :
    p.run (xs ++ ys) = (((p.after xs).run ys).1, (p.run xs).2 ++ ((p.after xs).run ys).2) := by
  induction xs generalizing p with
  | nil => rfl
  | cons op xs ih =>
    rw [List.cons_append, run_cons, ih]
    rfl

/-- The requests to the host during a list of operations, in order. -/
def requests (p : Picture α) (ops : List (Op α)) : List Request := (p.run ops).2.flatMap Reply.requests

@[simp] theorem requests_nil (p : Picture α) : p.requests [] = [] := rfl

theorem requests_cons (p : Picture α) (op : Op α) (ops : List (Op α)) :
    p.requests (op :: ops) = (p.perform op).2.requests ++ (p.perform op).1.requests ops := rfl

theorem requests_append (p : Picture α) (xs ys : List (Op α)) :
    p.requests (xs ++ ys) = p.requests xs ++ (p.after xs).requests ys := by
  rw [requests, run_append, List.flatMap_append]
  rfl

theorem requests_concat (p : Picture α) (ops : List (Op α)) (op : Op α) :
    p.requests (ops ++ [op]) = p.requests ops ++ ((p.after ops).perform op).2.requests := by
  rw [requests_append, requests_cons, requests_nil, List.append_nil]

/-- The pictures that can come about: a picture with every property at its default, and what an
operation makes of one that has come about. -/
inductive Reachable : Picture α → Prop
  | initial (origin : Origin) (config : Config) : Reachable (.initial origin config)
  | perform {p : Picture α} (h : Reachable p) (op : Op α) : Reachable (p.perform op).1

theorem Reachable.after {p : Picture α} (h : Reachable p) (ops : List (Op α)) :
    Reachable (p.after ops) := by
  induction ops generalizing p with
  | nil => exact h
  | cons op ops ih => exact ih (h.perform op)

/-! ### One operation -/

theorem perform_line_ok {p q : Picture α} {text : String} (h : p.readLine text = .ok q) :
    p.perform (.line text) = (q, {}) := by
  simp only [perform, h]

theorem perform_line_error {p : Picture α} {text : String} {f : Fault}
    (h : p.readLine text = .error f) : p.perform (.line text) = (p, { fault := some f }) := by
  simp only [perform, h]

/-- A directive changes the properties or the tracks. -/
theorem obey_eq_ok {p q : Picture α} {d : Directive α} (h : p.obey d = .ok q) :
    (∃ s P, d = .setting s ∧ p.properties.set s = .ok P ∧ q = { p with properties := P }) ∨
    ∃ T, q = { p with tracks := T } := by
  cases d with
  | setting s =>
    simp only [obey] at h
    cases e : p.properties.set s with
    | ok P =>
      rw [e] at h
      exact Or.inl ⟨s, P, rfl, e, (Except.ok.inj h).symm⟩
    | error f => rw [e] at h; cases h
  | motion m => exact Or.inr ⟨_, (Except.ok.inj h).symm⟩
  | acceleration a => exact Or.inr ⟨_, (Except.ok.inj h).symm⟩

/-- A line that is accepted is obeyed. -/
theorem readLine_eq_ok {p q : Picture α} {text : String} (h : p.readLine text = .ok q) :
    ∃ d, Directive.ofText p.origin text = .ok d ∧ p.obey d = .ok q := by
  unfold readLine at h
  cases e : Directive.ofText (α := α) p.origin text with
  | ok d => rw [e] at h; exact ⟨d, rfl, h⟩
  | error f => rw [e] at h; cases h

/-- Reading accepted lines is performing them one by one. -/
theorem after_of_readLines {p q : Picture α} {lines : List String} (h : p.readLines lines = .ok q) :
    p.after (lines.map .line) = q := by
  induction lines generalizing p with
  | nil => exact Except.ok.inj h
  | cons text rest ih =>
    rw [readLines] at h
    cases e : p.readLine text with
    | error f => rw [e] at h; cases h
    | ok r =>
      rw [e] at h
      rw [List.map_cons, after_cons, perform_line_ok e]
      exact ih h

/-- The operations by which a script and the host configure a picture, in contrast to those of its
lifecycle. -/
def Op.Configures : Op α → Prop
  | .start | .stop | .update _ => False
  | _ => True

/-- Configuring changes the properties or the tracks, never both, and asks the host for nothing. -/
theorem perform_configures_cases (p : Picture α) {op : Op α} (h : op.Configures) :
    ((∃ P, (p.perform op).1 = { p with properties := P }) ∨
        ∃ T, (p.perform op).1 = { p with tracks := T }) ∧
      (p.perform op).2.requests = [] ∧ (p.perform op).2.timesOut = false := by
  cases op with
  | start => exact h.elim
  | stop => exact h.elim
  | update e => exact h.elim
  | line text =>
    cases e : p.readLine text with
    | ok q =>
      rw [perform_line_ok e]
      obtain ⟨d, -, ho⟩ := readLine_eq_ok e
      rcases obey_eq_ok ho with ⟨s, P, -, -, rfl⟩ | ⟨T, rfl⟩
      · exact ⟨Or.inl ⟨P, rfl⟩, rfl, rfl⟩
      · exact ⟨Or.inr ⟨T, rfl⟩, rfl, rfl⟩
    | error f =>
      rw [perform_line_error e]
      exact ⟨Or.inl ⟨p.properties, rfl⟩, rfl, rfl⟩
  | install m => exact ⟨Or.inr ⟨_, rfl⟩, rfl, rfl⟩
  | accelerate a => exact ⟨Or.inr ⟨_, rfl⟩, rfl, rfl⟩
  | move d => exact ⟨Or.inl ⟨_, rfl⟩, rfl, rfl⟩
  | jump v => exact ⟨Or.inl ⟨_, rfl⟩, rfl, rfl⟩
  | resize d => exact ⟨Or.inl ⟨_, rfl⟩, rfl, rfl⟩
  | rotate d => exact ⟨Or.inl ⟨_, rfl⟩, rfl, rfl⟩
  | fade d => exact ⟨Or.inl ⟨_, rfl⟩, rfl, rfl⟩

/-- Configuring touches the properties and the tracks alone. -/
theorem perform_of_configures (p : Picture α) {op : Op α} (h : op.Configures) :
    (∃ P T, (p.perform op).1 = { p with properties := P, tracks := T }) ∧
      (p.perform op).2.timesOut = false := by
  obtain ⟨⟨P, e⟩ | ⟨T, e⟩, -, ht⟩ := p.perform_configures_cases h
  · exact ⟨⟨P, p.tracks, e⟩, ht⟩
  · exact ⟨⟨p.properties, T, e⟩, ht⟩

end Picture

end Overlay

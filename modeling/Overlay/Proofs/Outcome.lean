import Overlay.Script.Values

/-!
# Outcomes

Two ways to speak of an outcome that may be a fault.  `Yields x P` says that `x` is a value with the
property `P`; it goes through a sequence of readers step by step.  `Agree R x y` says that `x` and `y`
are the same fault, or values that are related by `R`.
-/

namespace Overlay

variable {β γ δ : Type}

/-! ### Values with a property -/

/-- The outcome is a value, and the value has the property. -/
def Yields (x : Except Fault β) (P : β → Prop) : Prop := ∃ b, x = .ok b ∧ P b

@[simp] theorem yields_ok {b : β} {P : β → Prop} : Yields (.ok b) P ↔ P b := by simp [Yields]

@[simp] theorem yields_pure {b : β} {P : β → Prop} : Yields (pure b) P ↔ P b := yields_ok

@[simp] theorem yields_error {f : Fault} {P : β → Prop} : Yields (.error f) P ↔ False := by
  simp [Yields]

@[simp] theorem yields_throw {f : Fault} {P : β → Prop} : Yields (throw f) P ↔ False := yields_error

@[simp] theorem yields_bind {x : Except Fault β} {f : β → Except Fault γ} {P : γ → Prop} :
    Yields (x >>= f) P ↔ Yields x fun b => Yields (f b) P := by
  cases x with
  | ok b => simp [bind, Except.bind]
  | error fault => simp [bind, Except.bind]

@[simp] theorem yields_map {x : Except Fault β} {f : β → γ} {P : γ → Prop} :
    Yields (f <$> x) P ↔ Yields x fun b => P (f b) := by
  cases x with
  | ok b => simp [Functor.map, Except.map]
  | error fault => simp [Functor.map, Except.map]

@[simp] theorem yields_exceptMap {x : Except Fault β} {f : β → γ} {P : γ → Prop} :
    Yields (x.map f) P ↔ Yields x fun b => P (f b) := yields_map

theorem yields_ite {c : Prop} [Decidable c] {x y : Except Fault β} {P : β → Prop} :
    Yields (if c then x else y) P ↔ if c then Yields x P else Yields y P := by
  split <;> rfl

theorem Yields.mono {x : Except Fault β} {P Q : β → Prop} (h : Yields x P) (hPQ : ∀ b, P b → Q b) :
    Yields x Q := by
  obtain ⟨b, e, hb⟩ := h
  exact ⟨b, e, hPQ b hb⟩

theorem yields_congr {x : Except Fault β} {P Q : β → Prop} (h : ∀ b, P b ↔ Q b) :
    Yields x P ↔ Yields x Q :=
  ⟨fun hx => hx.mono fun b => (h b).1, fun hx => hx.mono fun b => (h b).2⟩

/-- A part of the property that does not speak of the value stands beside the outcome. -/
theorem yields_and_const {x : Except Fault β} {P : β → Prop} {q : Prop} :
    Yields x (fun b => P b ∧ q) ↔ Yields x P ∧ q := by
  simp only [Yields, ← and_assoc, exists_and_right]

@[inherit_doc yields_and_const]
theorem yields_const {x : Except Fault β} {q : Prop} :
    Yields x (fun _ => q) ↔ Yields x (fun _ => True) ∧ q := by
  rw [← yields_and_const]
  simp only [true_and]

/-! ### Outcomes that agree -/

/-- The same fault twice, or two values that are related. -/
inductive Agree (R : β → γ → Prop) : Except Fault β → Except Fault γ → Prop
  | ok {b : β} {c : γ} (h : R b c) : Agree R (.ok b) (.ok c)
  | error (f : Fault) : Agree R (.error f) (.error f)

namespace Agree

theorem refl {R : β → β → Prop} (hR : ∀ b, R b b) (x : Except Fault β) : Agree R x x := by
  cases x with
  | ok b => exact .ok (hR b)
  | error f => exact .error f

theorem bind {R : β → γ → Prop} {β' γ' : Type} {S : β' → γ' → Prop} {x : Except Fault β}
    {y : Except Fault γ} {f : β → Except Fault β'} {g : γ → Except Fault γ'} (h : Agree R x y)
    (hfg : ∀ b c, R b c → Agree S (f b) (g c)) : Agree S (x >>= f) (y >>= g) := by
  cases h with
  | ok h => exact hfg _ _ h
  | error f => exact .error f

/-- Two sequences that begin alike and go on in agreement. -/
theorem bind_right {S : γ → δ → Prop} {x : Except Fault β} {f : β → Except Fault γ}
    {g : β → Except Fault δ} (hfg : ∀ b, Agree S (f b) (g b)) : Agree S (x >>= f) (x >>= g) :=
  (refl (R := Eq) (fun _ => rfl) x).bind fun b _ e => e ▸ hfg b

theorem map {R : β → γ → Prop} {β' γ' : Type} {S : β' → γ' → Prop} {x : Except Fault β}
    {y : Except Fault γ} {f : β → β'} {g : γ → γ'} (h : Agree R x y)
    (hfg : ∀ b c, R b c → S (f b) (g c)) : Agree S (f <$> x) (g <$> y) := by
  cases h with
  | ok h => exact .ok (hfg _ _ h)
  | error f => exact .error f

theorem map_right {S : γ → δ → Prop} {x : Except Fault β} {f : β → γ} {g : β → δ}
    (hfg : ∀ b, S (f b) (g b)) : Agree S (f <$> x) (g <$> x) :=
  (refl (R := Eq) (fun _ => rfl) x).map fun b _ e => e ▸ hfg b

/-- A check that may end in a fault, before two outcomes that agree. -/
theorem check {S : γ → δ → Prop} {c : Prop} [Decidable c] {f : Fault} {x : Except Fault γ}
    {y : Except Fault δ} {g : β → Except Fault γ} {h : β → Except Fault δ} (hxy : Agree S x y) :
    Agree S (if c then throw f >>= g else x) (if c then throw f >>= h else y) := by
  split
  · exact .error f
  · exact hxy

theorem mapM {R : β → γ → Prop} {f : δ → Except Fault β} {g : δ → Except Fault γ}
    (hfg : ∀ d, Agree R (f d) (g d)) (ds : List δ) :
    Agree (fun _ _ => True) (ds.mapM f) (ds.mapM g) := by
  induction ds with
  | nil => exact .ok trivial
  | cons d ds ih =>
    rw [List.mapM_cons, List.mapM_cons]
    exact (hfg d).bind fun _ _ _ => ih.bind fun _ _ _ => .ok trivial

end Agree

end Overlay

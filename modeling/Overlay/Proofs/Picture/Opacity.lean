import Overlay.Proofs.Picture.Orbits
import Overlay.Proofs.Picture.Orphans
import Overlay.Proofs.Scalar.Binary64
import Overlay.Proofs.Scalar.Decimals
import Overlay.Proofs.Script.Cells

/-!
# The drawn opacity

What a fading picture is drawn with, over floating-point numbers.  A script gives the opacity, the rate of
the fade and its acceleration as numbers (`Authored`), and every step adds the rate to the opacity and the
acceleration to the rate (`Drift.reach`).  Drawing clamps every number to the range from zero to one, so
the drawn opacity is outside of it exactly if it is not a number, which takes two infinities that meet
their opposites on the way (`Drift.Clashes`).  They never do if the fade is steady (`Drift.Steady`).
-/

namespace Overlay

/-! ### Fading -/

namespace Drift

section

variable {β : Type} [Add β] (f : Drift β)

theorem iterate_advance_accel (n : ℕ) : (advance^[n] f).accel = f.accel := by
  induction n with
  | zero => rfl
  | succ n ih => rw [Function.iterate_succ_apply', advance, ih]

theorem iterate_advance_delta_succ (n : ℕ) :
    (advance^[n + 1] f).delta = (advance^[n] f).delta + f.accel := by
  rw [Function.iterate_succ_apply', advance, iterate_advance_accel]

/-- The value after some steps, each of which adds the rate there is and then accelerates it. -/
def reach (f : Drift β) (v : β) : ℕ → β
  | 0 => v
  | n + 1 => f.reach v n + (advance^[n] f).delta

end

variable {f : Drift Float} {v : Float}

/-- In the course of `n` steps two opposite infinities are added: the rate and its acceleration, or the
value and the rate. -/
def Clashes (f : Drift Float) (v : Float) (n : ℕ) : Prop :=
  2 ≤ n ∧ Opposed f.delta f.accel ∨ ∃ k < n, Opposed (f.reach v k) (advance^[k] f).delta

/-- The acceleration has the sign of the rate, or the rate is finite and the acceleration is not huge. -/
def Steady (f : Drift Float) : Prop :=
  0 ≤ f.delta ∧ 0 ≤ f.accel ∨ f.delta ≤ 0 ∧ f.accel ≤ 0 ∨ f.delta.isFinite = true ∧ Moderate f.accel

instance (f : Drift Float) : Decidable f.Steady := inferInstanceAs (Decidable (_ ∨ _))

/-- The rate and its acceleration are numbers. -/
structure Numeric (f : Drift Float) : Prop where
  delta : f.delta.isNaN = false
  accel : f.accel.isNaN = false

/-- Only the first acceleration can meet its opposite: after it, the rate has it as a term. -/
theorem Numeric.isNaN_delta (h : f.Numeric) (n : ℕ) :
    (advance^[n] f).delta.isNaN = true ↔ 1 ≤ n ∧ Opposed f.delta f.accel := by
  induction n with
  | zero => exact iff_of_false (ne_true_of_eq_false h.delta) (fun hn => absurd hn.1 (by decide))
  | succ n ih =>
    rw [iterate_advance_delta_succ, Binary64.isNaN_add, ih, h.accel]
    cases n with
    | zero => simp
    | succ n =>
      have hterm : ¬ Opposed (advance^[n + 1] f).delta f.accel := by
        rw [iterate_advance_delta_succ]
        exact Binary64.not_opposed_add _ _
      simp only [hterm, Nat.le_add_left, true_and, Bool.false_eq_true, or_false]

theorem clashes_succ (n : ℕ) : f.Clashes v (n + 1) ↔ f.Clashes v n ∨
    (1 ≤ n ∧ Opposed f.delta f.accel) ∨ Opposed (f.reach v n) (advance^[n] f).delta := by
  unfold Clashes
  rw [Nat.exists_lt_succ_right]
  grind

/-- The value stays a number as long as nothing clashes. -/
theorem Numeric.isNaN_reach (h : f.Numeric) (hv : v.isNaN = false) (n : ℕ) :
    (f.reach v n).isNaN = true ↔ f.Clashes v n := by
  induction n with
  | zero => exact iff_of_false (ne_true_of_eq_false hv) (by simp [Clashes])
  | succ n ih => rw [reach, Binary64.isNaN_add, ih, h.isNaN_delta, clashes_succ]

/-! ### Steady fades -/

theorem toward_delta {s} (hd : Binary64.Toward s f.delta.toModel.unpack)
    (ha : Binary64.Toward s f.accel.toModel.unpack) (n : ℕ) :
    Binary64.Toward s (advance^[n] f).delta.toModel.unpack := by
  induction n with
  | zero => exact hd
  | succ n ih =>
    rw [iterate_advance_delta_succ]
    exact Binary64.toward_unpack_add ih ha

theorem not_clashes_of_toward {s} (hd : Binary64.Toward s f.delta.toModel.unpack)
    (ha : Binary64.Toward s f.accel.toModel.unpack) (hv : v.isFinite = true) (n : ℕ) :
    ¬ f.Clashes v n := by
  have hreach : ∀ k, Binary64.NotAgainst s (f.reach v k).toModel.unpack := by
    intro k
    induction k with
    | zero => exact Binary64.notAgainst_of_isFinite hv
    | succ k ih => exact Binary64.notAgainst_unpack_add ih (toward_delta hd ha k)
  rintro (⟨-, hopposed⟩ | ⟨k, -, hopposed⟩)
  · exact Binary64.not_opposed_of_notAgainst hd.notAgainst ha hopposed
  · exact Binary64.not_opposed_of_notAgainst (hreach k) (toward_delta hd ha k) hopposed

theorem isFinite_delta (hd : f.delta.isFinite = true) (ha : Moderate f.accel) (n : ℕ) :
    (advance^[n] f).delta.isFinite = true := by
  induction n with
  | zero => exact hd
  | succ n ih =>
    rw [iterate_advance_delta_succ]
    exact Binary64.isFinite_add ih ha

theorem not_clashes_of_moderate (hd : f.delta.isFinite = true) (ha : Moderate f.accel) (n : ℕ) :
    ¬ f.Clashes v n := by
  rintro (⟨-, hopposed⟩ | ⟨k, -, hopposed⟩)
  · exact Binary64.not_opposed_of_isFinite hd hopposed.symm
  · exact Binary64.not_opposed_of_isFinite (isFinite_delta hd ha k) hopposed

/-- A steady fade never clashes. -/
theorem Steady.not_clashes (h : f.Steady) (hv : v.isFinite = true) (n : ℕ) : ¬ f.Clashes v n := by
  rcases h with ⟨hd, ha⟩ | ⟨hd, ha⟩ | ⟨hd, ha⟩
  · exact not_clashes_of_toward (Binary64.nonneg_iff.1 hd) (Binary64.nonneg_iff.1 ha) hv n
  · exact not_clashes_of_toward (Binary64.nonpos_iff.1 hd) (Binary64.nonpos_iff.1 ha) hv n
  · exact not_clashes_of_moderate hd ha n

end Drift

/-! ### Steps -/

theorem Tracks.iterate_advance_fade {α : Type} [Scalar α] (t : Tracks α) (n : ℕ) :
    (advance^[n] t).fade.motion = t.fade.motion.map Drift.advance^[n] := by
  have hfade : Function.Semiconj Tracks.fade (advance (α := α)) (Track.advance Drift.advance) :=
    fun _ => rfl
  rw [hfade.iterate_right n t, Track.iterate_advance_motion]

theorem Picture.iterate_animate_opacity {α : Type} [Scalar α] (p : Picture α) (n : ℕ) :
    (animate^[n] p).properties.opacity.value = match p.tracks.fade.motion with
      | none => p.properties.opacity.value
      | some f => f.reach p.properties.opacity.value n := by
  induction n with
  | zero => cases p.tracks.fade.motion <;> rfl
  | succ n ih =>
    rw [Function.iterate_succ_apply']
    show ((animate^[n] p).tracks.apply (animate^[n] p).properties).opacity.value = _
    rw [Tracks.apply_opacity_value, iterate_animate_tracks, Tracks.iterate_advance_fade, ih]
    cases p.tracks.fade.motion <;> rfl

/-! ### Scripts -/

/-- A number in a line is that of a decimal. -/
theorem Line.exists_ofNumeral {α : Type} [Scalar α] {line : Line} {i : ℕ} {x : α}
    (h : line.requireScalar i = .ok x) : ∃ n, x = Scalar.ofNumeral n := by
  have hx : Yields (line.requireScalar i : Except Fault α) (· = x) := ⟨x, h, rfl⟩
  rw [requireScalar, yields_present] at hx
  obtain ⟨y, hy, rfl⟩ := hx
  have hreal : Yields (line.scalar i : Except Fault (Option α)) (· = some y) := ⟨_, hy, rfl⟩
  rw [scalar, yields_exceptMap] at hreal
  obtain ⟨n, -, hn⟩ := hreal
  obtain ⟨n, -, rfl⟩ := Option.map_eq_some_iff.1 hn
  exact ⟨n, rfl⟩

namespace Directive

variable {o : Origin} {text : String}

theorem inUnit_of_obeyed {v : Float} (h : obeyed o text = .ok (.setting (.opacity v))) :
    Scalar.inUnit v = true := by
  have hd : Yields (obeyed (α := Float) o text) (· = .setting (.opacity v)) := ⟨_, h, rfl⟩
  rw [obeyed, yields_bind] at hd
  obtain ⟨d, -, hchecked⟩ := hd
  unfold checked at hchecked
  split at hchecked
  · rename_i hrefusal
    obtain rfl := yields_ok.1 hchecked
    simp only [refusal, Setting.refusal] at hrefusal
    split at hrefusal
    · cases hrefusal
    · rename_i hunit
      exact Bool.eq_true_of_not_eq_false hunit
  · exact (yields_error.1 hchecked).elim

theorem numeric_of_obeyed {f : Drift Float} (h : obeyed o text = .ok (.motion (.fade f))) :
    f.Numeric := by
  obtain ⟨line, -, -, hread⟩ := readAs_of_obeyed h
  have hd : Yields (readAs o line (.motion .fade)) (· = .motion (.fade f)) := ⟨_, hread, rfl⟩
  simp only [readAs, Motion.read, yields_map, yields_bind, yields_pure] at hd
  obtain ⟨delta, hdelta, e⟩ := hd
  obtain rfl := Motion.fade.inj (Directive.motion.inj e)
  obtain ⟨n, rfl⟩ := Line.exists_ofNumeral hdelta
  exact ⟨Binary64.isNaN_ofNumeral n, (by decide +kernel : (Scalar.ofInt 0 : Float).isNaN = false)⟩

theorem isNaN_of_obeyed {a : Float} (h : obeyed o text = .ok (.acceleration (.fade a))) :
    a.isNaN = false := by
  obtain ⟨line, -, -, hread⟩ := readAs_of_obeyed h
  have hd : Yields (readAs o line (.acceleration .fade)) (· = .acceleration (.fade a)) := ⟨_, hread, rfl⟩
  simp only [readAs, Acceleration.read, yields_map] at hd
  obtain ⟨x, hx, e⟩ := hd
  obtain rfl := Acceleration.fade.inj (Directive.acceleration.inj e)
  obtain ⟨n, rfl⟩ := Line.exists_ofNumeral hx
  exact Binary64.isNaN_ofNumeral n

end Directive

namespace Picture

/-- What decides about the opacity is what a script can say: an opacity between zero and one, and numbers
for the fade and for the acceleration that is kept for it. -/
structure Authored (p : Picture Float) : Prop where
  opacity : Scalar.inUnit p.properties.opacity.value = true
  fade : ∀ f, p.tracks.fade.motion = some f → f.Numeric
  accel : ∀ a, p.tracks.fade.accel = some a → a.isNaN = false

theorem authored_initial (o : Origin) (c : Config) : Authored (initial o c) where
  opacity := by
    show Scalar.inUnit (Scalar.ofInt 1 : Float) = true
    decide +kernel
  fade _ h := nomatch h
  accel _ h := nomatch h

theorem Authored.take {p : Picture Float} (h : Authored p) (o : Origin) (text : String) :
    Authored (p.take o text) := by
  cases hd : Directive.obeyed (α := Float) o text with
  | error f => rwa [take_of_refused hd]
  | ok d =>
    rw [take_of_obeyed hd]
    cases d with
    | setting s =>
      cases s with
      | opacity v => exact ⟨Directive.inUnit_of_obeyed hd, h.fade, h.accel⟩
      | _ => exact ⟨h.opacity, h.fade, h.accel⟩
    | motion m =>
      cases m with
      | fade f =>
        have hf := Directive.numeric_of_obeyed hd
        refine ⟨h.opacity, fun g hg => ?_, h.accel⟩
        obtain rfl : (p.tracks.fade.accel.map f.withAccel).getD f = g := Option.some.inj hg
        cases ha : p.tracks.fade.accel with
        | none => exact hf
        | some a => exact ⟨hf.delta, h.accel a ha⟩
      | _ => exact ⟨h.opacity, h.fade, h.accel⟩
    | acceleration a =>
      cases a with
      | fade a =>
        have ha := Directive.isNaN_of_obeyed hd
        refine ⟨h.opacity, fun g hg => ?_, fun b hb => ?_⟩
        · obtain ⟨f, hf, rfl⟩ := Option.map_eq_some_iff.1 hg
          exact ⟨(h.fade f hf).delta, ha⟩
        · obtain rfl : a = b := Option.some.inj hb
          exact ha
      | _ => exact ⟨h.opacity, h.fade, h.accel⟩

theorem authored_ofScript {o : Origin} {c : Config} {lines : List String} {p : Picture Float}
    (h : ofScript o c lines = .ok p) : Authored p := by
  obtain ⟨-, rfl⟩ := ofScript_eq_ok_iff.1 h
  exact List.foldlRecOn lines _ (authored_initial o c) fun _ hp t _ => hp.take o t

/-! ### Drawings -/

/-- The fade, if there is one, clashes within `n` steps. -/
def FadeClashes (p : Picture Float) (n : ℕ) : Prop :=
  ∃ f, p.tracks.fade.motion = some f ∧ f.Clashes p.properties.opacity.value n

/-- The fade, if there is one, is steady. -/
def FadesSteadily (p : Picture Float) : Prop := ∀ f, p.tracks.fade.motion = some f → f.Steady

theorem exists_draw?_of_visible {α : Type} [Scalar α] {p : Picture α} (h : p.phase = .visible)
    (primary : Bool) : ∃ d, p.draw? primary = some d := ⟨_, if_pos h⟩

variable {p : Picture Float}

theorem Authored.isNaN_iff (h : Authored p) (n : ℕ) :
    (animate^[n] p).properties.opacity.value.isNaN = true ↔ p.FadeClashes n := by
  have hv : p.properties.opacity.value.isNaN = false := Binary64.isNaN_of_inUnit h.opacity
  rw [iterate_animate_opacity, FadeClashes]
  cases hf : p.tracks.fade.motion with
  | none => exact iff_of_false (ne_true_of_eq_false hv) (by simp)
  | some f =>
    rw [(h.fade f hf).isNaN_reach hv n]
    exact ⟨fun hclash => ⟨f, rfl, hclash⟩, fun ⟨g, hg, hclash⟩ => Option.some.inj hg ▸ hclash⟩

theorem Authored.not_fadeClashes (h : Authored p) (hs : p.FadesSteadily) (n : ℕ) : ¬ p.FadeClashes n := by
  rintro ⟨f, hf, hclash⟩
  exact (hs f hf).not_clashes (Binary64.isFinite_of_inUnit h.opacity) n hclash

/-- Take a picture from any script, and any run of starts, stops and updates, after which it is drawn.

The opacity it is drawn with is between zero and one, unless in the course of the animation steps of the run
the fade has added two opposite infinities; then it is not a number.  A steady fade never does so: one whose
acceleration has the sign of its rate, or one with a finite rate whose acceleration is not huge. -/
theorem drawn_opacity {o : Origin} {c : Config} {lines : List String} (h : ofScript o c lines = .ok p)
    {ops : List (Op Float)} (hops : ∀ op ∈ ops, ¬ op.Configures) {primary : Bool} {d : Drawing Float}
    (hd : (p.after ops).draw? primary = some d) :
    ((0 ≤ d.opacity ∧ d.opacity ≤ 1) ↔ ¬ p.FadeClashes (p.stepCount ops)) ∧
    (d.opacity.isNaN = true ↔ p.FadeClashes (p.stepCount ops)) ∧
    (p.FadesSteadily → 0 ≤ d.opacity ∧ d.opacity ≤ 1) := by
  have hauthored := authored_ofScript h
  have hopacity : d.opacity =
      Scalar.clampUnit (animate^[p.stepCount ops] p).properties.opacity.value := by
    rw [← (stillAs_after hops).1]
    unfold draw? at hd
    split at hd
    · obtain rfl := Option.some.inj hd
      rfl
    · cases hd
  have hnumber := hauthored.isNaN_iff (p.stepCount ops)
  have hdrawn : (0 ≤ d.opacity ∧ d.opacity ≤ 1) ↔ ¬ p.FadeClashes (p.stepCount ops) := by
    rw [hopacity, Binary64.clampUnit_iff, ← hnumber, Bool.not_eq_true]
  refine ⟨hdrawn, ?_, fun hs => hdrawn.2 (hauthored.not_fadeClashes hs _)⟩
  rw [hopacity, Binary64.isNaN_clampUnit, hnumber]

/-- A picture that fades out ever more slowly and then back in, after three steps. -/
theorem drawn_while_turning :
    ∃ (p : Picture Float) (d : Drawing Float),
      ofScript {} {} ["opacity=0.5", "anim_fade=-0.3", "accel_fade=0.25"] = .ok p ∧
      (p.after [.start, .update 10, .update 10, .update 10]).draw? true = some d ∧
      p.FadesSteadily ∧ 0 ≤ d.opacity ∧ d.opacity ≤ 1 := by
  have hread : (ofScript {} {} ["opacity=0.5", "anim_fade=-0.3", "accel_fade=0.25"] :
      Except Fault (Picture Float)).toOption.map (fun p => (p.tracks.fade.motion,
        (p.after [.start, .update 10, .update 10, .update 10]).phase)) =
      some (some ⟨-0.3, 0.25⟩, .visible) := by
    decide +kernel
  cases hp : (ofScript {} {} ["opacity=0.5", "anim_fade=-0.3", "accel_fade=0.25"] :
      Except Fault (Picture Float)) with
  | error f =>
    rw [hp] at hread
    cases hread
  | ok p =>
    rw [hp] at hread
    obtain ⟨hmotion, hphase⟩ := Prod.mk.inj (Option.some.inj hread)
    have hsteady : p.FadesSteadily := by
      intro f hf
      obtain rfl := Option.some.inj (hmotion.symm.trans hf)
      exact (by decide +kernel : Drift.Steady ⟨-0.3, 0.25⟩)
    obtain ⟨d, hd⟩ := exists_draw?_of_visible hphase true
    exact ⟨p, d, rfl, hd, hsteady, (drawn_opacity hp (by simp [Op.Configures]) hd).2.2 hsteady⟩

/-- An infinite rate meets the opposite acceleration before the second step, and what is drawn after it is
not a number. -/
theorem not_a_number_after_two_steps :
    ∃ (p : Picture Float) (d : Drawing Float),
      ofScript {} {} ["anim_fade=1e999", "accel_fade=-1e999"] = .ok p ∧
      (p.after [.start, .update 10, .update 10]).draw? true = some d ∧
      d.opacity.isNaN = true ∧ ¬ 0 ≤ d.opacity := by
  have hread : (ofScript {} {} ["anim_fade=1e999", "accel_fade=-1e999"] :
      Except Fault (Picture Float)).toOption.bind (fun p =>
        ((p.after [.start, .update 10, .update 10]).draw? true).map fun d =>
          (d.opacity.isNaN, decide (0 ≤ d.opacity))) = some (true, false) := by
    decide +kernel
  cases hp : (ofScript {} {} ["anim_fade=1e999", "accel_fade=-1e999"] :
      Except Fault (Picture Float)) with
  | error f =>
    rw [hp] at hread
    cases hread
  | ok p =>
    rw [hp] at hread
    obtain ⟨d, hd, hopacity⟩ := Option.map_eq_some_iff.1 hread
    obtain ⟨hnan, hle⟩ := Prod.mk.inj hopacity
    exact ⟨p, d, rfl, hd, hnan, of_decide_eq_false hle⟩

end Picture

end Overlay

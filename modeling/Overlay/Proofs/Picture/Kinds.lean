import Overlay.Proofs.Picture.Hiding
import Overlay.Proofs.Picture.LineOrder
import Overlay.Proofs.Picture.Pauses

/-!
# Kinds of motion

What the motion of a kind may write, as the part of a picture that is forgotten with it
(`Picture.forget`): its own track, and

* for a straight motion both parts of the position,
* for an orbit the current position, and never the base,
* for a zoom the size and both parts of the position,
* for a rotation the angle, and for a fade the value of the opacity.

Nothing that is kept depends on what is forgotten (`respects_forgetting`), so two pictures that differ in one
kind of motion alone stay alike in everything else, whatever happens to both and however numbers are
added: `kinds_do_not_interfere`.
-/

namespace Overlay

/-! ### Property sets -/

namespace Properties

variable {α : Type} [Scalar α]

/-- The property set without the values that motions of a kind may write. -/
def forget (P : Properties α) (k : MotionKind) : Properties α :=
  { P with
    pos := match k with
      | .straight | .zoom => .ofVec .zero
      | .circle => P.pos.jump .zero
      | .rotate | .fade => P.pos
    size := if k = .zoom then .zero else P.size
    angle := if k = .rotate then .zero else P.angle
    opacity := if k = .fade then { P.opacity with value := Scalar.ofInt 0 } else P.opacity }

@[simp] theorem forget_forget (P : Properties α) (k : MotionKind) :
    (P.forget k).forget k = P.forget k := by
  cases k <;> rfl

theorem forget_mode (P : Properties α) (k : MotionKind) :
    (P.forget k).opacity.mode = P.opacity.mode := by
  cases k <;> rfl

theorem write_forget (P : Properties α) (k : MotionKind) (s : Setting α) :
    ((P.forget k).write s).forget k = (P.write s).forget k := by
  cases s <;> cases k <;> rfl

/-- A motion writes nothing but what is forgotten with its kind. -/
theorem apply_forget_kind (P : Properties α) (m : Motion α) :
    (m.apply P).forget m.kind = P.forget m.kind := by
  cases m <;> rfl

theorem apply_forget (P : Properties α) (k : MotionKind) (m : Motion α) :
    (m.apply (P.forget k)).forget k = (m.apply P).forget k := by
  cases m <;> cases k <;> rfl

end Properties

/-! ### Tracks -/

namespace Tracks

section

variable {α : Type}

/-- The tracks without that of a kind. -/
def forget (t : Tracks α) (k : MotionKind) : Tracks α where
  straight := if k = .straight then {} else t.straight
  circle := if k = .circle then {} else t.circle
  zoom := if k = .zoom then {} else t.zoom
  rotate := if k = .rotate then {} else t.rotate
  fade := if k = .fade then {} else t.fade

@[simp] theorem forget_forget (t : Tracks α) (k : MotionKind) : (t.forget k).forget k = t.forget k := by
  cases k <;> rfl

theorem motion?_forget_of_ne (t : Tracks α) {j k : MotionKind} (h : j ≠ k) :
    (t.forget k).motion? j = t.motion? j := by
  cases j <;> cases k <;> first | rfl | exact absurd rfl h

theorem kind_of_motion? {t : Tracks α} {k : MotionKind} {m : Motion α} (h : t.motion? k = some m) :
    m.kind = k := by
  cases k <;> obtain ⟨d, -, rfl⟩ := Option.map_eq_some_iff.1 h <;> rfl

theorem install_forget_kind (t : Tracks α) (m : Motion α) :
    (t.install m).forget m.kind = t.forget m.kind := by
  cases m <;> rfl

theorem install_forget (t : Tracks α) (k : MotionKind) (m : Motion α) :
    ((t.forget k).install m).forget k = (t.install m).forget k := by
  cases m <;> cases k <;> rfl

theorem accelerate_forget_kind (t : Tracks α) (a : Acceleration α) :
    (t.accelerate a).forget a.kind = t.forget a.kind := by
  cases a <;> rfl

theorem accelerate_forget (t : Tracks α) (k : MotionKind) (a : Acceleration α) :
    ((t.forget k).accelerate a).forget k = (t.accelerate a).forget k := by
  cases a <;> cases k <;> rfl

end

variable {α : Type} [Scalar α]

theorem advance_forget (t : Tracks α) (k : MotionKind) : (t.forget k).advance = t.advance.forget k := by
  cases k <;> rfl

/-- What the motion of one kind does to the properties in a step. -/
def applyKind (t : Tracks α) (P : Properties α) (k : MotionKind) : Properties α :=
  ((t.motion? k).map fun m => m.apply P).getD P

theorem applyKind_of_motion? {t : Tracks α} {k : MotionKind} {m : Motion α}
    (h : t.motion? k = some m) (P : Properties α) : t.applyKind P k = m.apply P := by
  simp [applyKind, h]

theorem applyKind_of_none {t : Tracks α} {k : MotionKind} (h : t.motion? k = none)
    (P : Properties α) : t.applyKind P k = P := by
  simp [applyKind, h]

/-- A step takes the kinds one after the other. -/
theorem apply_eq_foldl (t : Tracks α) (P : Properties α) :
    t.apply P = MotionKind.all.foldl t.applyKind P := by
  rw [apply, motions, List.foldl_filterMap]
  congr 1
  funext Q k
  cases h : t.motion? k with
  | none => exact (applyKind_of_none h Q).symm
  | some m => exact (applyKind_of_motion? h Q).symm

theorem applyKind_forget_kind (t : Tracks α) (P : Properties α) (k : MotionKind) :
    (t.applyKind P k).forget k = P.forget k := by
  cases h : t.motion? k with
  | none => rw [applyKind_of_none h]
  | some m =>
    obtain rfl := kind_of_motion? h
    rw [applyKind_of_motion? h, P.apply_forget_kind]

theorem applyKind_forget (t : Tracks α) (P : Properties α) (j k : MotionKind) :
    ((t.forget k).applyKind (P.forget k) j).forget k = (t.applyKind P j).forget k := by
  by_cases hj : j = k
  · subst hj
    rw [applyKind_forget_kind, applyKind_forget_kind, Properties.forget_forget]
  · cases h : t.motion? j with
    | none =>
      rw [applyKind_of_none h, applyKind_of_none ((t.motion?_forget_of_ne hj).trans h),
        Properties.forget_forget]
    | some m =>
      rw [applyKind_of_motion? h, applyKind_of_motion? ((t.motion?_forget_of_ne hj).trans h),
        P.apply_forget]

theorem foldl_applyKind_forget (t : Tracks α) (k : MotionKind) (js : List MotionKind)
    {P Q : Properties α} (h : P.forget k = Q.forget k) :
    (js.foldl (t.forget k).applyKind P).forget k = (js.foldl t.applyKind Q).forget k := by
  induction js generalizing P Q with
  | nil => exact h
  | cons j js ih =>
    refine ih ?_
    rw [← (t.forget k).applyKind_forget, forget_forget, h, t.applyKind_forget]

theorem apply_forget (t : Tracks α) (P : Properties α) (k : MotionKind) :
    ((t.forget k).apply (P.forget k)).forget k = (t.apply P).forget k := by
  rw [apply_eq_foldl, apply_eq_foldl]
  exact t.foldl_applyKind_forget k _ (P.forget_forget k)

end Tracks

/-! ### Pictures -/

namespace Picture

variable {α : Type} [Scalar α] {p q : Picture α} {k : MotionKind} {op : Op α}

/-- The picture without what its motion of a kind is and may write. -/
def forget (p : Picture α) (k : MotionKind) : Picture α :=
  { p with properties := p.properties.forget k, tracks := p.tracks.forget k }

@[simp] theorem forget_forget (p : Picture α) (k : MotionKind) : (p.forget k).forget k = p.forget k := by
  simp [forget]

theorem write_forget (p : Picture α) (k : MotionKind) (d : Directive α) :
    ((p.forget k).write d).forget k = (p.write d).forget k := by
  cases d with
  | setting s => simp [write, forget, Properties.write_forget]
  | motion m => simp [write, install, forget, Tracks.install_forget]
  | acceleration a => simp [write, accelerate, forget, Tracks.accelerate_forget]

/-! ### One operation -/

variable (α) in
/-- What is forgotten with a kind can be hidden. -/
def forgetting (k : MotionKind) : Hiding α where
  properties P := P.forget k
  tracks t := t.forget k
  properties_properties P := P.forget_forget k
  tracks_tracks t := t.forget_forget k
  pace _ := ⟨rfl, rfl, rfl⟩
  apply t P := t.apply_forget P k
  advance t := t.advance_forget k
  mode P := P.forget_mode k
  move _ _ := by cases k <;> rfl
  jump _ _ := by cases k <;> rfl
  resize _ _ := by cases k <;> rfl
  rotate _ _ := by cases k <;> rfl
  fade _ _ := by cases k <;> rfl

/-- What is forgotten with a kind decides nothing about the rest. -/
theorem respects_forgetting (k : MotionKind) (op : Op α) : (forgetting α k).Respects op :=
  fun p d _ => p.write_forget k d

/-! ### Tuning -/

/-- The operation installs or accelerates a motion of the kind, or is a line that is named for it. -/
def Op.tunes (k : MotionKind) : Op α → Bool
  | .line text =>
    lineName text = some (Subject.motion k).name || lineName text = some (Subject.acceleration k).name
  | .install m => m.kind = k
  | .accelerate a => a.kind = k
  | _ => false

omit [Scalar α] in
theorem Op.Configures.of_tunes (h : op.tunes k = true) : op.Configures := by
  cases op with
  | start => cases h
  | stop => cases h
  | update e => cases h
  | _ => trivial

theorem ofName_name_motion (k : MotionKind) :
    Subject.ofName (Subject.motion k).name = .ok (.motion k) := by
  cases k <;> rfl

theorem ofName_name_acceleration (k : MotionKind) :
    Subject.ofName (Subject.acceleration k).name = .ok (.acceleration k) := by
  cases k <;> rfl

/-- A directive about the motion or the acceleration of a kind writes nothing but what is forgotten with
the kind. -/
theorem write_forget_kind (p : Picture α) {d : Directive α}
    (h : d.subject = .motion k ∨ d.subject = .acceleration k) : (p.write d).forget k = p.forget k := by
  cases d with
  | setting s =>
    obtain ⟨hm, ha⟩ := subject_setting_ne s k
    exact absurd h (not_or.2 ⟨hm, ha⟩)
  | motion m =>
    obtain rfl : m.kind = k := by simpa [Directive.subject] using h
    simp [write, install, forget, Tracks.install_forget_kind]
  | acceleration a =>
    obtain rfl : a.kind = k := by simpa [Directive.subject] using h
    simp [write, accelerate, forget, Tracks.accelerate_forget_kind]

/-- Tuning a kind is not seen where the kind is forgotten. -/
theorem perform_forget_of_tunes (hp : Clamped p) (h : op.tunes k = true) :
    (p.perform op).1.forget k = p.forget k ∧
      (p.perform op).2.requests = [] ∧ (p.perform op).2.timesOut = false := by
  refine ⟨?_, (p.perform_configures_cases (.of_tunes h)).2⟩
  cases op with
  | line t =>
    cases hd : Directive.obeyed (α := α) p.origin t with
    | error f => rw [perform_line_of_refused hp hd]
    | ok d =>
      rw [perform_line_of_obeyed hp hd]
      refine p.write_forget_kind ?_
      simpa only [Op.tunes, Bool.or_eq_true, decide_eq_true_eq,
        lineName_eq_some_iff hd (ofName_name_motion k),
        lineName_eq_some_iff hd (ofName_name_acceleration k)] using h
  | install m =>
    have hk : m.kind = k := by simpa [Op.tunes] using h
    exact p.write_forget_kind (d := .motion m) (Or.inl (congrArg Subject.motion hk))
  | accelerate a =>
    have hk : a.kind = k := by simpa [Op.tunes] using h
    exact p.write_forget_kind (d := .acceleration a) (Or.inr (congrArg Subject.acceleration hk))
  | _ => cases h

/-! ### Two runs -/

/-- The operations of a run that do not tune the kind, each with its reply and with the picture after it,
as far as the kind may not write it. -/
def observed (k : MotionKind) (p : Picture α) (ops : List (Op α)) :
    List (Op α × Reply × Picture α) :=
  ((p.transcript ops).filter fun entry => !entry.1.tunes k).map
    fun entry => (entry.1, entry.2.1, entry.2.2.forget k)

theorem observed_cons_of_tunes (h : op.tunes k = true) (p : Picture α) (ops : List (Op α)) :
    p.observed k (op :: ops) = (p.perform op).1.observed k ops := by
  simp [observed, transcript, h]

theorem observed_cons (h : op.tunes k = false) (p : Picture α) (ops : List (Op α)) :
    p.observed k (op :: ops) =
      (op, (p.perform op).2, (p.perform op).1.forget k) :: (p.perform op).1.observed k ops := by
  simp [observed, transcript, h]

/-- An operation keeps two pictures alike that are, and answers both the same. -/
theorem perform_alike (hp : Clamped p) (hq : Clamped q) (h : p.forget k = q.forget k) (op : Op α) :
    (p.perform op).1.forget k = (q.perform op).1.forget k ∧ (p.perform op).2 = (q.perform op).2 :=
  Hiding.perform_alike (respects_forgetting k op) hp hq h

theorem observed_alike (hp : Clamped p) (hq : Clamped q) (h : p.forget k = q.forget k)
    (ops : List (Op α)) :
    p.observed k ops = q.observed k ops ∧ (p.after ops).forget k = (q.after ops).forget k := by
  induction ops generalizing p q with
  | nil => exact ⟨rfl, h⟩
  | cons op ops ih =>
    obtain ⟨hpicture, hreply⟩ := perform_alike hp hq h op
    obtain ⟨hseen, hafter⟩ := ih (hp.perform op) (hq.perform op) hpicture
    refine ⟨?_, hafter⟩
    cases ht : op.tunes k with
    | true => rw [observed_cons_of_tunes ht, observed_cons_of_tunes ht, hseen]
    | false => rw [observed_cons ht, observed_cons ht, hseen, hpicture, hreply]

/-- A run is seen as the run without the operations that tune the kind. -/
theorem observed_untuned (hp : Clamped p) (k : MotionKind) (ops : List (Op α)) :
    p.observed k ops = p.observed k (ops.filter fun op => !op.tunes k) ∧
      (p.after ops).forget k = (p.after (ops.filter fun op => !op.tunes k)).forget k := by
  induction ops generalizing p with
  | nil => exact ⟨rfl, rfl⟩
  | cons op ops ih =>
    obtain ⟨hseen, hafter⟩ := ih (hp.perform op)
    cases ht : op.tunes k with
    | true =>
      rw [List.filter_cons_of_neg (by simp [ht]), observed_cons_of_tunes ht, after_cons, hseen, hafter]
      exact observed_alike (hp.perform op) hp (perform_forget_of_tunes hp ht).1 _
    | false =>
      rw [List.filter_cons_of_pos (by simp [ht]), observed_cons ht, observed_cons ht, hseen]
      exact ⟨rfl, hafter⟩

/-- Take two pictures that differ at most in their motion of one kind and in the values it may write,
and for each a run, such that the runs are the same but for operations that install or accelerate motions
of this kind.  All other operations have the same replies in both runs, and after each of them, and at the
end, the two pictures differ in nothing else than before.  The operations that tune the kind make no
request, end no picture, and change nothing else either. -/
theorem kinds_do_not_interfere (hp : Reachable p) (hq : Reachable q) (h : p.forget k = q.forget k)
    {xs ys : List (Op α)}
    (hruns : (xs.filter fun op => !op.tunes k) = ys.filter fun op => !op.tunes k) :
    p.observed k xs = q.observed k ys ∧ (p.after xs).forget k = (q.after ys).forget k ∧
      ∀ r : Picture α, Reachable r → ∀ op : Op α, op.tunes k = true →
        (r.perform op).1.forget k = r.forget k ∧
          (r.perform op).2.requests = [] ∧ (r.perform op).2.timesOut = false := by
  obtain ⟨hxs, hxs'⟩ := observed_untuned hp.clamped k xs
  obtain ⟨hys, hys'⟩ := observed_untuned hq.clamped k ys
  obtain ⟨hseen, hafter⟩ :=
    observed_alike hp.clamped hq.clamped h (ys.filter fun op => !op.tunes k)
  rw [hxs, hys, hxs', hys', hruns]
  exact ⟨hseen, hafter, fun r hr op ht => perform_forget_of_tunes hr.clamped ht⟩

/-- An orbit leaves the base alone. -/
theorem base_eq_of_forget (h : p.forget .circle = q.forget .circle) :
    p.properties.pos.base = q.properties.pos.base :=
  congrArg (fun r => r.properties.pos.base) h

/-- A picture that zooms, and the same with an orbit beside it that is accelerated on the way. -/
theorem base_untouched_by_orbit :
    ∃ p q : Picture Float, p = (initial {} {}).after [.line "anim_zoom=2,4", .start] ∧
      q = (initial {} {}).after [.line "anim_zoom=2,4", .line "anim_circle=50,20,1", .start] ∧
      (p.after [.update 16, .update 16]).properties.pos.base =
        (q.after [.update 16, .line "accel_circle=2", .update 16]).properties.pos.base := by
  refine ⟨_, _, rfl, rfl, ?_⟩
  have hinitial : Reachable (initial {} {} : Picture Float) := .initial {} {}
  have hzoom : (.line "anim_zoom=2,4" : Op Float).tunes .circle = false := by decide +kernel
  have horbit : (.line "anim_circle=50,20,1" : Op Float).tunes .circle = true := by decide +kernel
  have haccel : (.line "accel_circle=2" : Op Float).tunes .circle = true := by decide +kernel
  have hstart : (.start : Op Float).tunes .circle = false := rfl
  have hupdate : (.update 16 : Op Float).tunes .circle = false := rfl
  have halike := (observed_untuned hinitial.clamped .circle
    [.line "anim_zoom=2,4", .line "anim_circle=50,20,1", .start]).2.symm
  simp only [List.filter, hzoom, horbit, hstart, Bool.not_true, Bool.not_false] at halike
  have hruns : ([.update 16, .update 16] : List (Op Float)).filter (fun op => !op.tunes .circle) =
      [.update 16, .line "accel_circle=2", .update 16].filter fun op => !op.tunes .circle := by
    simp only [List.filter, haccel, hupdate, Bool.not_true, Bool.not_false]
  exact base_eq_of_forget
    (kinds_do_not_interfere (hinitial.after _) (hinitial.after _) halike hruns).2.1

end Picture

end Overlay

import Overlay.Proofs.Scalar.Exact
import Overlay.Proofs.Picture.DelayInForce
import Overlay.Proofs.Picture.Kinds

/-!
# Orphaned accelerations

A script may give an acceleration to a kind of motion that it never installs.  Leaving such lines out of the
script discards what the picture keeps for motions of the kind, and nothing else (`ofScript_withoutOrphans`).
Nobody can tell the difference (`run_alike`) until a motion of the kind is installed while the picture is
there: then it is given the acceleration that has been kept (`motion?_line_after`).  So leaving the lines out
goes unnoticed for ever exactly if there are none: `orphans_survive`.
-/

namespace Overlay

/-! ### Tracks -/

namespace Track

variable {μ ν : Type} {w : μ → ν → μ}

/-- The track, if `b` without the acceleration that is kept for later motions. -/
def discard (t : Track μ ν) (b : Bool) : Track μ ν := if b then { t with accel := none } else t

@[simp] theorem discard_empty (b : Bool) : ({} : Track μ ν).discard b = {} := by cases b <;> rfl

@[simp] theorem discard_false (t : Track μ ν) : t.discard false = t := rfl

@[simp] theorem motion_discard (t : Track μ ν) (b : Bool) : (t.discard b).motion = t.motion := by
  cases b <;> rfl

@[simp] theorem discard_discard (t : Track μ ν) (b : Bool) : (t.discard b).discard b = t.discard b := by
  cases b <;> rfl

@[simp] theorem discard_discard_true (t : Track μ ν) (b : Bool) :
    (t.discard b).discard true = t.discard true := by
  cases b <;> rfl

@[simp] theorem accelerate_discard (t : Track μ ν) (b : Bool) (a : ν) :
    ((t.discard b).accelerate w a).discard b = (t.accelerate w a).discard b := by
  cases b <;> rfl

@[simp] theorem advance_discard (t : Track μ ν) (b : Bool) (f : μ → μ) :
    (t.discard b).advance f = (t.advance f).discard b := by
  cases b <;> rfl

end Track

namespace Tracks

section

variable {α : Type} {ks : MotionKind → Bool} {m : Motion α} {a : Acceleration α}

/-- The tracks, where kinds of `ks` keep no acceleration for later motions. -/
def discard (t : Tracks α) (ks : MotionKind → Bool) : Tracks α where
  straight := t.straight.discard (ks .straight)
  circle := t.circle.discard (ks .circle)
  zoom := t.zoom.discard (ks .zoom)
  rotate := t.rotate.discard (ks .rotate)
  fade := t.fade.discard (ks .fade)

@[simp] theorem discard_discard (t : Tracks α) (ks : MotionKind → Bool) :
    (t.discard ks).discard ks = t.discard ks := by
  simp [discard]

@[simp] theorem discard_discard_all (t : Tracks α) (ks : MotionKind → Bool) :
    ((t.discard ks).discard fun _ => true) = t.discard fun _ => true := by
  simp [discard]

theorem motion?_discard (t : Tracks α) (ks : MotionKind → Bool) (k : MotionKind) :
    (t.discard ks).motion? k = t.motion? k := by
  cases k <;> simp [discard, motion?]

theorem accel?_discard {k : MotionKind} (t : Tracks α) (hk : ks k = true) :
    (t.discard ks).accel? k = none := by
  cases k <;> simp [discard, accel?, hk, Track.discard]

theorem install_discard (t : Tracks α) (hk : ks m.kind = false) :
    (t.discard ks).install m = (t.install m).discard ks := by
  cases m <;> simp_all [discard, install, Motion.kind]

theorem accelerate_discard_of_not_mem (t : Tracks α) (hk : ks a.kind = false) :
    (t.discard ks).accelerate a = (t.accelerate a).discard ks := by
  cases a <;> simp_all [discard, accelerate, Acceleration.kind]

theorem accelerate_discard (t : Tracks α) (ks : MotionKind → Bool) (a : Acceleration α) :
    ((t.discard ks).accelerate a).discard ks = (t.accelerate a).discard ks := by
  cases a <;> simp [discard, accelerate]

/-- An acceleration for a kind without motion is only kept. -/
theorem accelerate_discard_of_no_motion {t : Tracks α} (hk : ks a.kind = true)
    (hm : t.motion? a.kind = none) : (t.accelerate a).discard ks = t.discard ks := by
  cases a <;> simp_all [discard, accelerate, motion?, Acceleration.kind, Track.discard, Track.accelerate]

theorem motion?_accelerate_of_none {t : Tracks α} {k : MotionKind} (hm : t.motion? k = none)
    (a : Acceleration α) : (t.accelerate a).motion? k = none := by
  cases a <;> cases k <;> simp_all [accelerate, motion?, Track.accelerate]

theorem motion?_install_of_ne {t : Tracks α} {k : MotionKind} (hk : m.kind ≠ k) :
    (t.install m).motion? k = t.motion? k := by
  cases m <;> cases k <;> first | rfl | exact absurd rfl hk

theorem accel?_install (t : Tracks α) (m : Motion α) (k : MotionKind) :
    (t.install m).accel? k = t.accel? k := by
  cases m <;> cases k <;> rfl

theorem accel?_accelerate_self (t : Tracks α) (a : Acceleration α) :
    (t.accelerate a).accel? a.kind = some a := by
  cases a <;> rfl

theorem accel?_accelerate_of_ne {t : Tracks α} {k : MotionKind} (hk : a.kind ≠ k) :
    (t.accelerate a).accel? k = t.accel? k := by
  cases a <;> cases k <;> first | rfl | exact absurd rfl hk

/-- A motion is installed with the acceleration that is kept for its kind. -/
theorem motion?_install_of_accel {t : Tracks α} (h : t.accel? m.kind = some a) :
    (t.install m).motion? m.kind = m.withAccel? a := by
  cases m <;> obtain ⟨b, hb, rfl⟩ := Option.map_eq_some_iff.1 h <;>
    simp [install, Track.install, motion?, Motion.kind, Motion.withAccel?, hb]

theorem motion?_install_of_no_accel {t : Tracks α} (h : t.accel? m.kind = none) :
    (t.install m).motion? m.kind = some m := by
  cases m <;> have hb := Option.map_eq_none_iff.1 h <;>
    simp [install, Track.install, motion?, Motion.kind, hb]

end

variable {α : Type} [Scalar α]

theorem apply_discard (t : Tracks α) (ks : MotionKind → Bool) (P : Properties α) :
    (t.discard ks).apply P = t.apply P := by
  have hmotion : (t.discard ks).motion? = t.motion? := funext (t.motion?_discard ks)
  rw [apply, apply, motions, motions, hmotion]

theorem accel?_advance (t : Tracks α) (k : MotionKind) : t.advance.accel? k = t.accel? k := by
  cases k <;> rfl

theorem advance_discard (t : Tracks α) (ks : MotionKind → Bool) :
    (t.discard ks).advance = t.advance.discard ks := by
  simp [advance, discard]

end Tracks

/-- The acceleration that a directive gives to a kind, if it does. -/
def Directive.acceleration? {α : Type} (k : MotionKind) : Directive α → Option (Acceleration α)
  | .acceleration a => if a.kind = k then some a else none
  | _ => none

/-- The motion that a directive installs, if it does. -/
def Directive.motion? {α : Type} : Directive α → Option (Motion α)
  | .motion m => some m
  | _ => none

/-! ### Accelerations -/

section Accelerations

variable {α : Type} [Scalar α]

/-- No acceleration. -/
def Acceleration.zero : MotionKind → Acceleration α
  | .straight => .straight .zero
  | .circle => .circle ⟨Scalar.ofInt 0, .zero⟩
  | .zoom => .zoom .zero
  | .rotate => .rotate (Scalar.ofInt 0)
  | .fade => .fade (Scalar.ofInt 0)

theorem Motion.withAccel?_zero_of_read {line : Line} {k : MotionKind} {m : Motion α}
    (h : Motion.read line k = .ok m) : m.withAccel? (.zero k) = some m := by
  have hm : Yields (Motion.read line k : Except Fault (Motion α)) (· = m) := ⟨m, h, rfl⟩
  cases k with
  | straight =>
    simp only [Motion.read, yields_bind, yields_pure] at hm
    obtain ⟨delta, -, rfl⟩ := hm
    rfl
  | circle =>
    simp only [Motion.read, yields_bind, yields_pure] at hm
    obtain ⟨radius, -, speed, -, angle, -, rfl⟩ := hm
    rfl
  | zoom =>
    simp only [Motion.read, yields_bind, yields_pure] at hm
    obtain ⟨delta, -, rfl⟩ := hm
    rfl
  | rotate =>
    simp only [Motion.read, yields_bind, yields_pure] at hm
    obtain ⟨delta, -, rfl⟩ := hm
    rfl
  | fade =>
    simp only [Motion.read, yields_bind, yields_pure] at hm
    obtain ⟨delta, -, rfl⟩ := hm
    rfl

/-- A line installs a motion without acceleration. -/
theorem Motion.withAccel?_zero_of_obeyed {o : Origin} {t : String} {m : Motion α}
    (h : Directive.obeyed o t = .ok (.motion m)) : m.withAccel? (.zero m.kind) = some m := by
  obtain ⟨line, -, -, hd⟩ := Directive.readAs_of_obeyed h
  change Directive.motion <$> Motion.read line m.kind = _ at hd
  cases hr : (Motion.read line m.kind : Except Fault (Motion α)) with
  | error f =>
    rw [hr] at hd
    cases hd
  | ok n =>
    rw [hr] at hd
    obtain rfl := Directive.motion.inj (Except.ok.inj hd)
    exact withAccel?_zero_of_read hr

omit [Scalar α] in
/-- Every acceleration makes a difference to some motion. -/
theorem Acceleration.exists_withAccel?_ne [Nontrivial α] (a : Acceleration α) :
    ∃ m : Motion α, m.kind = a.kind ∧ m.withAccel? a ≠ some m := by
  have vec : ∀ v : Vec α, ∃ w, v ≠ w := by
    intro v
    obtain ⟨b, hb⟩ := exists_ne v.x
    exact ⟨⟨b, v.y⟩, fun e => hb (congrArg Vec.x e).symm⟩
  cases a with
  | straight a =>
    obtain ⟨b, hb⟩ := vec a
    exact ⟨.straight ⟨a, b⟩, rfl, by simpa [Motion.withAccel?, Drift.withAccel] using hb⟩
  | circle a =>
    obtain ⟨b, hb⟩ := vec a.radius
    refine ⟨.circle ⟨b, a.angular, a.angular, a.angular, b⟩, rfl, ?_⟩
    simpa [Motion.withAccel?, Orbit.withAccel] using hb
  | zoom a =>
    obtain ⟨b, hb⟩ := vec a
    exact ⟨.zoom ⟨a, b⟩, rfl, by simpa [Motion.withAccel?, Drift.withAccel] using hb⟩
  | rotate a =>
    obtain ⟨b, hb⟩ := exists_ne a
    exact ⟨.rotate ⟨a, b⟩, rfl, by simpa [Motion.withAccel?, Drift.withAccel] using hb.symm⟩
  | fade a =>
    obtain ⟨b, hb⟩ := exists_ne a
    exact ⟨.fade ⟨a, b⟩, rfl, by simpa [Motion.withAccel?, Drift.withAccel] using hb.symm⟩

end Accelerations

/-! ### Pictures -/

namespace Picture

variable {α : Type} [Scalar α] {p q : Picture α} {ks : MotionKind → Bool} {k : MotionKind} {op : Op α}

section

omit [Scalar α]

/-- The picture, where kinds of `ks` keep no acceleration for later motions. -/
def discard (p : Picture α) (ks : MotionKind → Bool) : Picture α :=
  { p with tracks := p.tracks.discard ks }

@[simp] theorem discard_discard (p : Picture α) (ks : MotionKind → Bool) :
    (p.discard ks).discard ks = p.discard ks := by
  simp [discard]

end

/-! ### One operation -/

variable (α) in
/-- What is kept for later motions can be hidden. -/
def discarding (ks : MotionKind → Bool) : Hiding α where
  properties P := P
  tracks t := t.discard ks
  properties_properties _ := rfl
  tracks_tracks t := t.discard_discard ks
  pace _ := ⟨rfl, rfl, rfl⟩
  apply t P := t.apply_discard ks P
  advance t := t.advance_discard ks
  mode _ := rfl
  move _ _ := rfl
  jump _ _ := rfl
  resize _ _ := rfl
  rotate _ _ := rfl
  fade _ _ := rfl

theorem write_discard {d : Directive α} (h : ∀ k, ks k = true → d.subject ≠ .motion k)
    (p : Picture α) : ((p.discard ks).write d).discard ks = (p.write d).discard ks := by
  cases d with
  | setting s => simp [write, discard]
  | motion m =>
    have hk : ks m.kind = false := Bool.eq_false_iff.2 fun hm => h _ hm rfl
    simp [write, install, discard, Tracks.install_discard _ hk]
  | acceleration a => simp [write, accelerate, discard, Tracks.accelerate_discard]

/-- The operation installs a motion of the kind, or is a line that is named for it. -/
def Op.installs (k : MotionKind) : Op α → Bool
  | .line text => lineName text = some (Subject.motion k).name
  | .install m => m.kind = k
  | _ => false

/-- What is kept for motions that an operation does not install decides nothing about the rest. -/
theorem respects_discarding (h : ∀ k, ks k = true → op.installs k = false) :
    (discarding α ks).Respects op := by
  intro p d hd
  refine write_discard (fun k hk hs => ?_) p
  have hop := h k hk
  cases op with
  | line t =>
    have hname := (lineName_eq_some_iff hd (ofName_name_motion k)).2 hs
    exact of_decide_eq_false hop hname
  | install m =>
    obtain rfl : d = .motion m := hd
    exact of_decide_eq_false hop (Subject.motion.inj hs)
  | accelerate a =>
    obtain rfl : d = .acceleration a := hd
    cases hs
  | _ => cases hd

/-- Runs that install no motion of the kinds of `ks` do not tell what is kept for such motions. -/
theorem run_alike (hp : Clamped p) (hq : Clamped q) (h : p.discard ks = q.discard ks)
    {ops : List (Op α)} (hops : ∀ op ∈ ops, ∀ k, ks k = true → op.installs k = false) :
    (p.run ops).2 = (q.run ops).2 ∧ (p.after ops).discard ks = (q.after ops).discard ks :=
  Hiding.run_alike (fun op hop => respects_discarding (hops op hop)) hp hq h

/-! ### What is kept -/

/-- The motion that a line installs, if it does. -/
def lineMotion? (o : Origin) (t : String) : Option (Motion α) :=
  (Directive.obeyed o t).toOption.bind Directive.motion?

theorem obeyed_of_lineMotion? {o : Origin} {t : String} {m : Motion α}
    (h : lineMotion? o t = some m) : Directive.obeyed o t = .ok (.motion m) := by
  obtain ⟨d, hd, hm⟩ := Option.bind_eq_some_iff.1 h
  cases d with
  | motion n =>
    obtain rfl := Option.some.inj hm
    cases ho : Directive.obeyed (α := α) o t with
    | ok e => rw [ho] at hd; exact congrArg _ (Option.some.inj hd)
    | error f => rw [ho] at hd; cases hd
  | _ => cases hm

/-- The acceleration that a line gives to a kind, if it does. -/
def lineAcceleration? (o : Origin) (k : MotionKind) (t : String) : Option (Acceleration α) :=
  (Directive.obeyed o t).toOption.bind (Directive.acceleration? k)

/-- The acceleration that the last line about it gives to a kind. -/
def lastAcceleration? (o : Origin) (k : MotionKind) (ts : List String) : Option (Acceleration α) :=
  ts.reverse.findSome? (lineAcceleration? o k)

theorem lastAcceleration?_cons (o : Origin) (k : MotionKind) (t : String) (ts : List String) :
    lastAcceleration? (α := α) o k (t :: ts) =
      (lastAcceleration? o k ts).or (lineAcceleration? o k t) := by
  rw [lastAcceleration?, List.reverse_cons, List.findSome?_append, List.findSome?_singleton]
  rfl

theorem accel?_write (p : Picture α) (d : Directive α) (k : MotionKind) :
    (p.write d).tracks.accel? k = (d.acceleration? k).or (p.tracks.accel? k) := by
  cases d with
  | setting s => rfl
  | motion m => exact p.tracks.accel?_install m k
  | acceleration a =>
    by_cases hk : a.kind = k
    · obtain rfl := hk
      rw [Directive.acceleration?, if_pos rfl]
      exact p.tracks.accel?_accelerate_self a
    · rw [Directive.acceleration?, if_neg hk]
      exact Tracks.accel?_accelerate_of_ne hk

theorem accel?_take (o : Origin) (p : Picture α) (t : String) (k : MotionKind) :
    (p.take o t).tracks.accel? k = (lineAcceleration? o k t).or (p.tracks.accel? k) := by
  cases hd : Directive.obeyed (α := α) o t with
  | ok d => rw [take_of_obeyed hd, accel?_write, lineAcceleration?, hd]; rfl
  | error f => rw [take_of_refused hd, lineAcceleration?, hd]; rfl

/-- After some lines the acceleration of the last one is kept. -/
theorem accel?_foldl_take (o : Origin) (p : Picture α) (ts : List String) (k : MotionKind) :
    (ts.foldl (take o) p).tracks.accel? k = (lastAcceleration? o k ts).or (p.tracks.accel? k) := by
  induction ts generalizing p with
  | nil => rfl
  | cons t ts ih => rw [List.foldl_cons, ih, accel?_take, lastAcceleration?_cons, Option.or_assoc]

omit [Scalar α] in
theorem acceleration?_eq_none {d : Directive α} (h : d.subject ≠ .acceleration k) :
    d.acceleration? k = none := by
  cases d with
  | acceleration a => exact if_neg fun hk => h (congrArg Subject.acceleration hk)
  | _ => rfl

theorem accel?_update (p : Picture α) (e : Millis) (k : MotionKind) :
    (p.update e).1.tracks.accel? k = p.tracks.accel? k := by
  rcases p.update_still_or_stepped e with ⟨-, h⟩ | ⟨-, h⟩ <;> rw [h]
  exact p.tracks.accel?_advance k

/-- Operations that do not tune a kind leave alone what is kept for it. -/
theorem accel?_perform (hp : Clamped p) (h : op.tunes k = false) :
    (p.perform op).1.tracks.accel? k = p.tracks.accel? k := by
  cases op with
  | start => exact congrArg (·.accel? k) p.start_properties.2
  | stop => exact congrArg (·.accel? k) p.stop_properties.2
  | update e => exact p.accel?_update e k
  | line t =>
    simp only [Op.tunes, Bool.or_eq_false_iff, decide_eq_false_iff_not] at h
    cases hd : Directive.obeyed (α := α) p.origin t with
    | error f => rw [perform_line_of_refused hp hd]
    | ok d =>
      have hs : d.subject ≠ .acceleration k := fun hs =>
        h.2 ((lineName_eq_some_iff hd (ofName_name_acceleration k)).2 hs)
      rw [perform_line_of_obeyed hp hd, accel?_write, acceleration?_eq_none hs, Option.none_or]
  | install m => exact p.tracks.accel?_install m k
  | accelerate a => exact Tracks.accel?_accelerate_of_ne (of_decide_eq_false h)
  | move _ | jump _ | resize _ | rotate _ | fade _ => rfl

theorem accel?_after (hp : Clamped p) {ops : List (Op α)} (h : ∀ op ∈ ops, op.tunes k = false) :
    (p.after ops).tracks.accel? k = p.tracks.accel? k := by
  induction ops generalizing p with
  | nil => rfl
  | cons op ops ih =>
    obtain ⟨hop, hrest⟩ := List.forall_mem_cons.1 h
    rw [after_cons, ih (hp.perform op) hrest, accel?_perform hp hop]

/-! ### Scripts -/

/-- No line of the script is named for a motion of the kind. -/
def unmoved (ts : List String) (k : MotionKind) : Bool :=
  ts.all fun t => lineName t ≠ some (Subject.motion k).name

/-- The line is named for the acceleration of a kind of `ks`. -/
def accelerates (ks : MotionKind → Bool) (t : String) : Bool :=
  MotionKind.all.any fun k => ks k && lineName t = some (Subject.acceleration k).name

/-- The script without the accelerations of kinds that it does not move. -/
def withoutOrphans (ts : List String) : List String := ts.filter fun t => !accelerates (unmoved ts) t

theorem unmoved_iff {ts : List String} :
    unmoved ts k = true ↔ ∀ t ∈ ts, lineName t ≠ some (Subject.motion k).name := by
  simp [unmoved]

theorem accelerates_iff {t : String} :
    accelerates ks t = true ↔ ∃ k, ks k = true ∧ lineName t = some (Subject.acceleration k).name := by
  simp [accelerates, MotionKind.mem_all]

theorem motion?_take {o : Origin} {t : String} (hm : p.tracks.motion? k = none)
    (ht : lineName t ≠ some (Subject.motion k).name) : (p.take o t).tracks.motion? k = none := by
  cases hd : Directive.obeyed (α := α) o t with
  | error f => rw [take_of_refused hd, hm]
  | ok d =>
    rw [take_of_obeyed hd]
    cases d with
    | setting s => exact hm
    | motion m =>
      have hk : m.kind ≠ k := fun hk =>
        ht ((lineName_eq_some_iff hd (ofName_name_motion k)).2 (congrArg _ hk))
      exact (Tracks.motion?_install_of_ne hk).trans hm
    | acceleration a => exact Tracks.motion?_accelerate_of_none hm a

/-- An acceleration for a kind without motion is lost with what is discarded. -/
theorem take_discard_of_accelerates {o : Origin} {t : String}
    (hm : ∀ k, ks k = true → p.tracks.motion? k = none) (ht : accelerates ks t = true) :
    (p.take o t).discard ks = p.discard ks := by
  obtain ⟨k, hk, hname⟩ := accelerates_iff.1 ht
  cases hd : Directive.obeyed (α := α) o t with
  | error f => rw [take_of_refused hd]
  | ok d =>
    rw [take_of_obeyed hd]
    have hs := (lineName_eq_some_iff hd (ofName_name_acceleration k)).1 hname
    cases d with
    | setting s => exact absurd hs (subject_setting_ne s k).2
    | motion m => cases hs
    | acceleration a =>
      obtain rfl := Subject.acceleration.inj hs
      simp only [discard, write, accelerate,
        Tracks.accelerate_discard_of_no_motion hk (hm _ hk)]

/-- Other lines do not see what is discarded. -/
theorem take_discard {o : Origin} {t : String}
    (hm : ∀ k, ks k = true → lineName t ≠ some (Subject.motion k).name)
    (ht : accelerates ks t = false) (p : Picture α) :
    (p.discard ks).take o t = (p.take o t).discard ks := by
  cases hd : Directive.obeyed (α := α) o t with
  | error f => rw [take_of_refused hd, take_of_refused hd]
  | ok d =>
    rw [take_of_obeyed hd, take_of_obeyed hd]
    cases d with
    | setting s => rfl
    | motion m =>
      have hk : ks m.kind = false := Bool.eq_false_iff.2 fun hk =>
        hm _ hk ((lineName_eq_some_iff hd (ofName_name_motion _)).2 rfl)
      simp only [discard, write, install, Tracks.install_discard _ hk]
    | acceleration a =>
      have hk : ks a.kind = false := Bool.eq_false_iff.2 fun hk =>
        Bool.eq_false_iff.1 ht (accelerates_iff.2 ⟨_, hk,
          (lineName_eq_some_iff hd (ofName_name_acceleration _)).2 rfl⟩)
      simp only [discard, write, accelerate, Tracks.accelerate_discard_of_not_mem _ hk]

/-- Leaving out the accelerations of kinds that do not move discards what is kept for these kinds. -/
theorem foldl_take_discard {o : Origin} {ts : List String}
    (hm : ∀ k, ks k = true → p.tracks.motion? k = none)
    (hts : ∀ k, ks k = true → ∀ t ∈ ts, lineName t ≠ some (Subject.motion k).name) :
    (ts.filter fun t => !accelerates ks t).foldl (take o) (p.discard ks) =
      (ts.foldl (take o) p).discard ks := by
  induction ts generalizing p with
  | nil => rfl
  | cons t ts ih =>
    have ht : ∀ k, ks k = true → lineName t ≠ some (Subject.motion k).name :=
      fun k hk => hts k hk t List.mem_cons_self
    have hrest : ∀ k, ks k = true → ∀ u ∈ ts, lineName u ≠ some (Subject.motion k).name :=
      fun k hk u hu => hts k hk u (List.mem_cons_of_mem _ hu)
    have hm' : ∀ k, ks k = true → (p.take o t).tracks.motion? k = none :=
      fun k hk => motion?_take (hm k hk) (ht k hk)
    rw [List.foldl_cons, ← ih hm' hrest]
    cases ha : accelerates ks t with
    | true => rw [List.filter_cons_of_neg (by simp [ha]), take_discard_of_accelerates hm ha]
    | false => rw [List.filter_cons_of_pos (by simp [ha]), List.foldl_cons, take_discard ht ha]

theorem ofScript_eq_ok_iff {o : Origin} {c : Config} {ts : List String} :
    ofScript o c ts = .ok p ↔ (∀ t ∈ ts, Accepted α t) ∧ ts.foldl (take o) (initial o c) = p := by
  have hi : Clamped (initial o c : Picture α) := rfl
  have hlines : (initial o c : Picture α).after (ts.map .line) = ts.foldl (take o) (initial o c) :=
    after_lines hi ts
  rw [ofScript, readLines_eq hi, hlines]
  cases hf : ts.findSome? (lineFault α) with
  | none =>
    have ha : ∀ t ∈ ts, Accepted α t := List.findSome?_eq_none_iff.1 hf
    simpa using fun _ => ha
  | some f =>
    constructor
    · intro h
      cases h
    · rintro ⟨ha, -⟩
      rw [List.findSome?_eq_none_iff.2 ha] at hf
      cases hf

theorem initial_discard (o : Origin) (c : Config) (ks : MotionKind → Bool) :
    (initial o c : Picture α).discard ks = initial o c := by
  simp [discard, initial, Tracks.discard]

/-- The script without its orphaned accelerations makes the picture that keeps none of them. -/
theorem ofScript_withoutOrphans {o : Origin} {c : Config} {ts : List String}
    (h : ofScript o c ts = .ok p) :
    ofScript o c (withoutOrphans ts) = .ok (p.discard (unmoved ts)) := by
  obtain ⟨haccepted, rfl⟩ := ofScript_eq_ok_iff.1 h
  refine ofScript_eq_ok_iff.2 ⟨fun t ht => haccepted t (List.mem_of_mem_filter ht), ?_⟩
  have hinitial : ∀ k, unmoved ts k = true → (initial o c : Picture α).tracks.motion? k = none :=
    fun k _ => by cases k <;> rfl
  have hfold := foldl_take_discard (o := o) hinitial fun k hk => unmoved_iff.1 hk
  rwa [initial_discard] at hfold

/-- A picture from a script keeps the last acceleration of every kind. -/
theorem accel?_of_ofScript {o : Origin} {c : Config} {ts : List String} (h : ofScript o c ts = .ok p)
    (k : MotionKind) : p.tracks.accel? k = lastAcceleration? o k ts := by
  obtain ⟨-, rfl⟩ := ofScript_eq_ok_iff.1 h
  rw [accel?_foldl_take]
  cases k <;> exact Option.or_none

omit [Scalar α] in
theorem kind_of_acceleration? {d : Directive α} {a : Acceleration α} (h : d.acceleration? k = some a) :
    a.kind = k := by
  cases d with
  | acceleration b =>
    rw [Directive.acceleration?] at h
    split at h
    · obtain rfl := Option.some.inj h
      assumption
    · cases h
  | _ => cases h

theorem kind_of_lastAcceleration? {o : Origin} {ts : List String} {a : Acceleration α}
    (h : lastAcceleration? o k ts = some a) : a.kind = k := by
  obtain ⟨t, -, ht⟩ := List.exists_of_findSome?_eq_some h
  obtain ⟨d, -, hd⟩ := Option.bind_eq_some_iff.1 ht
  exact kind_of_acceleration? hd

theorem exists_lastAcceleration? (o : Origin) {ts : List String} {t : String} (ht : t ∈ ts)
    (ha : Accepted α t) (hname : lineName t = some (Subject.acceleration k).name) :
    ∃ a : Acceleration α, lastAcceleration? o k ts = some a := by
  obtain ⟨d, hd⟩ := (obeyed_iff o t).1 ha
  have hs := (lineName_eq_some_iff hd (ofName_name_acceleration k)).1 hname
  refine Option.isSome_iff_exists.1 (List.findSome?_isSome_iff.2 ⟨t, List.mem_reverse.2 ht, ?_⟩)
  rw [lineAcceleration?, hd]
  cases d with
  | setting s => exact absurd hs (subject_setting_ne s k).2
  | motion m => cases hs
  | acceleration a =>
    obtain rfl := Subject.acceleration.inj hs
    simp [Except.toOption, Directive.acceleration?]

/-! ### Telling pictures apart -/

/-- Two pictures differ at most in the accelerations that they keep for later motions. -/
def AlikeNow (p q : Picture α) : Prop := p.discard (fun _ => true) = q.discard fun _ => true

/-- Whatever happens to two pictures, they answer the same and differ in nothing that can be seen. -/
def Indistinguishable (p q : Picture α) : Prop :=
  ∀ ops : List (Op α), (p.run ops).2 = (q.run ops).2 ∧ AlikeNow (p.after ops) (q.after ops)

omit [Scalar α] in
theorem alikeNow_of_discard_eq (h : p.discard ks = q.discard ks) : AlikeNow p q := by
  have hp : ((p.discard ks).discard fun _ => true) = p.discard fun _ => true := by simp [discard]
  have hq : ((q.discard ks).discard fun _ => true) = q.discard fun _ => true := by simp [discard]
  rw [AlikeNow, ← hp, ← hq, h]

omit [Scalar α] in
theorem AlikeNow.motion? (h : AlikeNow p q) (k : MotionKind) :
    p.tracks.motion? k = q.tracks.motion? k := by
  rw [← p.tracks.motion?_discard fun _ => true, ← q.tracks.motion?_discard fun _ => true]
  exact congrArg (fun r => r.tracks.motion? k) h

omit [Scalar α] in
theorem AlikeNow.properties (h : AlikeNow p q) : p.properties = q.properties := by
  have e : (p.discard fun _ => true) = q.discard fun _ => true := h
  exact (congrArg Picture.properties e :)

/-- What is kept for later motions is not drawn. -/
theorem AlikeNow.draw? (h : AlikeNow p q) (primary : Bool) : p.draw? primary = q.draw? primary := by
  have e : (p.discard fun _ => true) = q.discard fun _ => true := h
  exact (congrArg (fun r => r.draw? primary) e :)

/-- A line that installs a motion after a while does it as at once, unless its kind has been tuned. -/
theorem motion?_line_after (hp : Clamped p) {ops : List (Op α)} {u : String} {m : Motion α}
    (hops : ∀ op ∈ ops, op.tunes m.kind = false)
    (hu : Directive.obeyed p.origin u = .ok (.motion m)) :
    ((p.after ops).perform (.line u)).1.tracks.motion? m.kind =
      (p.install m).tracks.motion? m.kind := by
  have hr : Clamped (p.after ops) := hp.after ops
  have ho : (p.after ops).origin = p.origin := p.after_origin ops
  have hkept : (p.after ops).tracks.accel? m.kind = p.tracks.accel? m.kind := accel?_after hp hops
  rw [perform_line_of_obeyed hr (ho ▸ hu)]
  cases ha : p.tracks.accel? m.kind with
  | none =>
    exact (Tracks.motion?_install_of_no_accel (hkept.trans ha)).trans
      (Tracks.motion?_install_of_no_accel ha).symm
  | some a =>
    exact (Tracks.motion?_install_of_accel (hkept.trans ha)).trans
      (Tracks.motion?_install_of_accel ha).symm

/-- Take a script that is read, and the script without its lines that give an acceleration to a kind of
motion for which it has no `anim_` line.  It is read, too, and as long as no motion of such a kind is
installed, both pictures answer every operation the same and show no difference.

The accelerations are not lost, however.  A line that installs a motion of such a kind later, after a
run that does not tune the kind, gives it the acceleration of the last line about it, where the picture
without these lines gives it none.  So the pictures cannot be told apart for ever only if no line has been
left out. -/
theorem orphans_survive [Nontrivial α] {o : Origin} {c : Config} {ts : List String}
    (h : ofScript o c ts = .ok p) :
    ∃ q : Picture α, ofScript o c (withoutOrphans ts) = .ok q ∧
      (∀ ops : List (Op α), (∀ op ∈ ops, ∀ k, unmoved ts k = true → op.installs k = false) →
        (p.run ops).2 = (q.run ops).2 ∧ AlikeNow (p.after ops) (q.after ops)) ∧
      (∀ (ops : List (Op α)) (u : String) (m : Motion α) (a : Acceleration α),
        unmoved ts m.kind = true → lastAcceleration? o m.kind ts = some a →
        (∀ op ∈ ops, op.tunes m.kind = false) → lineMotion? o u = some m →
        ((p.after ops).perform (.line u)).1.tracks.motion? m.kind = m.withAccel? a ∧
          ((q.after ops).perform (.line u)).1.tracks.motion? m.kind = m.withAccel? (.zero m.kind)) ∧
      (Indistinguishable p q ↔ withoutOrphans ts = ts) := by
  have hp := (reachable_ofScript h).clamped
  have ho := origin_of_ofScript h
  have hq : Clamped (p.discard (unmoved ts)) := hp
  refine ⟨p.discard (unmoved ts), ofScript_withoutOrphans h, fun ops hops => ?_,
    fun ops u m a hm ha hops hu => ⟨?_, ?_⟩, fun hpq => ?_, fun hts => ?_⟩
  · obtain ⟨hreplies, hafter⟩ := run_alike hp hq (p.discard_discard _).symm hops
    exact ⟨hreplies, alikeNow_of_discard_eq hafter⟩
  · rw [motion?_line_after hp hops (ho ▸ obeyed_of_lineMotion? hu)]
    exact Tracks.motion?_install_of_accel ((accel?_of_ofScript h _).trans ha)
  · have hread := obeyed_of_lineMotion? hu
    rw [motion?_line_after hq hops (ho ▸ hread), Motion.withAccel?_zero_of_obeyed hread]
    exact Tracks.motion?_install_of_no_accel (p.tracks.accel?_discard hm)
  · by_contra hne
    obtain ⟨t, ht, ha⟩ : ∃ t ∈ ts, accelerates (unmoved ts) t = true := by
      simpa [withoutOrphans, List.filter_eq_self] using hne
    obtain ⟨k, hk, hname⟩ := accelerates_iff.1 ha
    obtain ⟨a, hlast⟩ := exists_lastAcceleration? o ht ((ofScript_eq_ok_iff.1 h).1 t ht) hname
    obtain rfl := kind_of_lastAcceleration? hlast
    -- a motion that the acceleration changes tells the pictures apart
    obtain ⟨m, hmk, hma⟩ := a.exists_withAccel?_ne
    have hkept : p.tracks.accel? m.kind = some a := by rw [accel?_of_ofScript h, hmk, hlast]
    have hlost : (p.tracks.discard (unmoved ts)).accel? m.kind = none :=
      p.tracks.accel?_discard (hmk ▸ hk)
    have halike := (hpq [.install m]).2.motion? m.kind
    refine hma ((Tracks.motion?_install_of_accel hkept).symm.trans (halike.trans ?_))
    exact Tracks.motion?_install_of_no_accel hlost
  · have hofScript := ofScript_withoutOrphans h
    rw [hts, h] at hofScript
    rw [← Except.ok.inj hofScript]
    exact fun ops => ⟨rfl, rfl⟩

/-- A kept acceleration that meets its motion when the picture is there. -/
theorem kept_until_late_motion :
    ∃ p q : Picture (Exact .unturned), ofScript {} {} ["accel_straight=3,0"] = .ok p ∧
      ofScript {} {} (withoutOrphans ["accel_straight=3,0"]) = .ok q ∧
      ((p.after [.start]).perform (.line "anim_straight=1,0")).1.tracks.motion? .straight =
        some (.straight ⟨⟨1, 0⟩, ⟨3, 0⟩⟩) ∧
      ((q.after [.start]).perform (.line "anim_straight=1,0")).1.tracks.motion? .straight =
        some (.straight ⟨⟨1, 0⟩, ⟨0, 0⟩⟩) := by
  have haccepted : ∀ t ∈ ["accel_straight=3,0"], Accepted (Exact .unturned) t := by
    unfold Accepted
    decide +kernel
  have hp := (ofScript_eq_ok_iff (o := {}) (c := {})).2 ⟨haccepted, rfl⟩
  obtain ⟨q, hq, -, hlate, -⟩ := orphans_survive hp
  refine ⟨_, q, hp, hq, ?_⟩
  exact hlate [.start] "anim_straight=1,0" (.straight ⟨⟨1, 0⟩, ⟨0, 0⟩⟩) (.straight ⟨3, 0⟩)
    (by decide +kernel) (by decide +kernel) (by simp [Op.tunes]) (by decide +kernel)

/-- Two pictures of which one is made without an orphaned acceleration stop being the same when they
move. -/
theorem apart_after_late_motion :
    ∃ p q : Picture (Exact .unturned), ofScript {} {} ["accel_straight=3,0"] = .ok p ∧
      ofScript {} {} (withoutOrphans ["accel_straight=3,0"]) = .ok q ∧ ¬ Indistinguishable p q := by
  have hp : ∀ t ∈ ["accel_straight=3,0"], Accepted (Exact .unturned) t := by
    unfold Accepted
    decide +kernel
  have hkept := (ofScript_eq_ok_iff (o := {}) (c := {})).2 ⟨hp, rfl⟩
  refine ⟨_, _, hkept, ofScript_withoutOrphans hkept, fun h => ?_⟩
  have halike := (h [.start, .line "anim_straight=1,0", .update 10, .update 10]).2.properties
  have hx := congrArg (fun P => P.pos.current.x) halike
  revert hx
  decide +kernel

end Picture

end Overlay

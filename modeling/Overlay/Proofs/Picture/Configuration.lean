import Overlay.Picture

/-!
# What directives write

A directive has a subject, and writes what belongs to its subject and nothing else.  So directives of
different subjects commute (`Picture.write_comm`), and a directive makes up for an earlier one of its
subject (`Picture.write_absorb`), whatever the picture.  Only the opacity can refuse one, and which ones
a clamped opacity refuses can be read off the directive (`Directive.refusal`).
-/

namespace Overlay

/-! ### Names of subjects -/

namespace Subject

/-- The name of a subject in a script. -/
def name : Subject → String
  | fill => "fill"
  | property kind => kind.name
  | motion kind => kind.text
  | acceleration kind => "accel_" ++ kind.suffix

theorem eq_append_of_dropStem? {stem name suffix : String} (h : dropStem? stem name = some suffix) :
    name = stem ++ suffix := by
  unfold dropStem? at h
  split at h <;> rename_i hp
  · obtain rfl := Option.some.inj h
    obtain ⟨rest, e⟩ := List.isPrefixOf_iff_prefix.1 hp
    apply String.toList_injective
    rw [String.toList_append, String.toList_ofList, ← e, ← String.length_toList, List.drop_left]
  · cases h

theorem suffix_of_ofSuffix? {s : String} {k : MotionKind} (h : MotionKind.ofSuffix? s = some k) :
    k.suffix = s := by
  simpa using List.find?_some h

/-- The name determines the subject, and the subject the name. -/
theorem name_of_ofName {n : String} {s : Subject} (h : ofName n = .ok s) : s.name = n := by
  unfold ofName at h
  split at h
  · obtain rfl := Except.ok.inj h
    exact Eq.symm ‹_›
  · split at h
    · obtain rfl := Except.ok.inj h
      exact PropertyKind.name_of_ofName? ‹_›
    · split at h
      · split at h
        · rename_i hd _ kind hk
          obtain rfl := Except.ok.inj h
          rw [eq_append_of_dropStem? hd, ← suffix_of_ofSuffix? hk]
          rfl
        · cases h
      · split at h
        · rename_i hd _ kind hk
          obtain rfl := Except.ok.inj h
          rw [eq_append_of_dropStem? hd, ← suffix_of_ofSuffix? hk]
          rfl
        · cases h
      · cases h

end Subject

/-! ### Settings -/

section Settings

variable {α : Type} [Scalar α]

/-- What a setting is about. -/
def Setting.subject : Setting α → Subject
  | .pos _ => .property .pos
  | .time .. => .property .time
  | .timeAnim .. => .property .timeAnim
  | .wait _ => .property .wait
  | .next _ => .property .next
  | .size _ => .property .size
  | .clip _ => .property .clip
  | .angle _ => .property .angle
  | .count _ => .property .repetition
  | .interval _ => .property .interval
  | .opacity _ => .property .opacity
  | .text _ => .property .text
  | .font _ => .property .font
  | .color _ => .property .color
  | .fill _ => .fill

/-- Why a clamped opacity refuses a setting, if it does. -/
def Setting.refusal : Setting α → Option Fault
  | .opacity value =>
    if Scalar.inUnit value = false then
      some (.refused "opacity" (.outsideUnit (Scalar.text value)))
    else none
  | _ => none

namespace Properties

variable {p : Properties α} {s s' : Setting α}

/-- The property set with a setting taken over unchecked. -/
def write (p : Properties α) : Setting α → Properties α
  | .opacity value => { p with opacity := { p.opacity with value } }
  | s => (p.set s).toOption.getD p

/-- A clamped property set takes a setting over, unless it refuses it. -/
theorem set_eq (hp : p.opacity.mode = .clamped) (s : Setting α) :
    p.set s = match s.refusal with
      | none => .ok (p.write s)
      | some f => .error f := by
  cases s with
  | opacity value =>
    by_cases hv : Scalar.inUnit value = false
    · simp [set, Rate.set, Setting.refusal, hp, hv, Except.map]
    · simp [set, Rate.set, Setting.refusal, write, hv, Except.map]
  | _ => rfl

theorem write_mode (p : Properties α) (s : Setting α) : (p.write s).opacity.mode = p.opacity.mode := by
  cases s <;> rfl

theorem write_comm (h : s.subject ≠ s'.subject) : (p.write s).write s' = (p.write s').write s := by
  cases s <;> cases s' <;> first | rfl | exact absurd rfl h

theorem write_absorb (h : s.subject = s'.subject) : (p.write s).write s' = p.write s' := by
  cases s <;> cases s' <;> cases h <;> rfl

end Properties

end Settings

/-! ### Tracks -/

namespace Track

variable {μ ν : Type} {w : μ → ν → μ}

theorem accelerate_accelerate (hw : ∀ m a b, w (w m a) b = w m b) (t : Track μ ν) (a b : ν) :
    (t.accelerate w a).accelerate w b = t.accelerate w b := by
  simp only [accelerate, Option.map_map, Function.comp_def, hw]

/-- A motion and an acceleration may come in either order, whatever the track holds. -/
theorem install_accelerate (hw : ∀ m a b, w (w m a) b = w m b) (t : Track μ ν) (m : μ) (a : ν) :
    (t.install w m).accelerate w a = (t.accelerate w a).install w m := by
  cases ht : t.accel with
  | none => simp [install, accelerate, ht]
  | some b => simp [install, accelerate, ht, hw]

end Track

namespace Tracks

variable {α : Type} {t : Tracks α}

theorem drift_withAccel {β : Type} (d : Drift β) (a b : β) :
    (d.withAccel a).withAccel b = d.withAccel b := rfl

theorem orbit_withAccel (o : Orbit α) (a b : OrbitAccel α) :
    (o.withAccel a).withAccel b = o.withAccel b := rfl

theorem install_comm {m m' : Motion α} (h : m.kind ≠ m'.kind) :
    (t.install m).install m' = (t.install m').install m := by
  cases m <;> cases m' <;> first | rfl | exact absurd rfl h

theorem install_absorb {m m' : Motion α} (h : m.kind = m'.kind) :
    (t.install m).install m' = t.install m' := by
  cases m <;> cases m' <;> cases h <;> rfl

theorem accelerate_comm {a b : Acceleration α} (h : a.kind ≠ b.kind) :
    (t.accelerate a).accelerate b = (t.accelerate b).accelerate a := by
  cases a <;> cases b <;> first | rfl | exact absurd rfl h

theorem accelerate_absorb {a b : Acceleration α} (h : a.kind = b.kind) :
    (t.accelerate a).accelerate b = t.accelerate b := by
  cases a <;> cases b <;> cases h <;>
    simp only [accelerate, Track.accelerate_accelerate drift_withAccel,
      Track.accelerate_accelerate orbit_withAccel]

theorem install_accelerate (t : Tracks α) (m : Motion α) (a : Acceleration α) :
    (t.install m).accelerate a = (t.accelerate a).install m := by
  cases m <;> cases a <;>
    simp only [install, accelerate, Track.install_accelerate drift_withAccel,
      Track.install_accelerate orbit_withAccel]

end Tracks

/-! ### Directives -/

section Directives

variable {α : Type}

/-- What a directive is about. -/
def Directive.subject : Directive α → Subject
  | .setting s => s.subject
  | .motion m => .motion m.kind
  | .acceleration a => .acceleration a.kind

variable [Scalar α]

/-- Why a picture with a clamped opacity refuses a directive, if it does. -/
def Directive.refusal : Directive α → Option Fault
  | .setting s => s.refusal
  | _ => none

/-- The directive, if a picture with a clamped opacity does not refuse it. -/
def Directive.checked (d : Directive α) : Except Fault (Directive α) :=
  match d.refusal with
  | none => .ok d
  | some f => .error f

namespace Picture

variable {p : Picture α} {d d' : Directive α}

/-- The picture with a directive taken over unchecked. -/
def write (p : Picture α) : Directive α → Picture α
  | .setting s => { p with properties := p.properties.write s }
  | .motion m => p.install m
  | .acceleration a => p.accelerate a

theorem obey_eq (hp : p.properties.opacity.mode = .clamped) (d : Directive α) :
    p.obey d = d.checked.map p.write := by
  unfold Directive.checked
  cases d with
  | setting s =>
    rw [obey, Properties.set_eq hp, Directive.refusal]
    cases s.refusal <;> rfl
  | motion m => rfl
  | acceleration a => rfl

theorem write_mode (p : Picture α) (d : Directive α) :
    (p.write d).properties.opacity.mode = p.properties.opacity.mode := by
  cases d with
  | setting s => exact p.properties.write_mode s
  | motion m => rfl
  | acceleration a => rfl

theorem write_origin (p : Picture α) (d : Directive α) : (p.write d).origin = p.origin := by
  cases d <;> rfl

theorem write_comm (h : d.subject ≠ d'.subject) : (p.write d).write d' = (p.write d').write d := by
  cases d with
  | setting s =>
    cases d' with
    | setting s' => simp only [write, Properties.write_comm h]
    | motion m' => rfl
    | acceleration a' => rfl
  | motion m =>
    cases d' with
    | setting s' => rfl
    | motion m' =>
      have hk : m.kind ≠ m'.kind := fun e => h (congrArg Subject.motion e)
      simp only [write, install, Tracks.install_comm hk]
    | acceleration a' => simp only [write, install, accelerate, Tracks.install_accelerate]
  | acceleration a =>
    cases d' with
    | setting s' => rfl
    | motion m' => simp only [write, install, accelerate, Tracks.install_accelerate]
    | acceleration a' =>
      have hk : a.kind ≠ a'.kind := fun e => h (congrArg Subject.acceleration e)
      simp only [write, accelerate, Tracks.accelerate_comm hk]

omit [Scalar α] in
theorem subject_setting_ne (s : Setting α) (k : MotionKind) :
    s.subject ≠ .motion k ∧ s.subject ≠ .acceleration k := by
  cases s <;> exact ⟨Subject.noConfusion, Subject.noConfusion⟩

theorem write_absorb (h : d.subject = d'.subject) : (p.write d).write d' = p.write d' := by
  cases d with
  | setting s =>
    cases d' with
    | setting s' => simp only [write, Properties.write_absorb h]
    | motion m' => exact absurd h (subject_setting_ne s _).1
    | acceleration a' => exact absurd h (subject_setting_ne s _).2
  | motion m =>
    cases d' with
    | setting s' => exact absurd h.symm (subject_setting_ne s' _).1
    | motion m' => simp only [write, install, Tracks.install_absorb (Subject.motion.inj h)]
    | acceleration a' => cases h
  | acceleration a =>
    cases d' with
    | setting s' => exact absurd h.symm (subject_setting_ne s' _).2
    | motion m' => cases h
    | acceleration a' =>
      simp only [write, accelerate, Tracks.accelerate_absorb (Subject.acceleration.inj h)]

end Picture

end Directives

end Overlay

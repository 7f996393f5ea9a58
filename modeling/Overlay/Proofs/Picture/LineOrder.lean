import Overlay.Proofs.LastWins
import Overlay.Proofs.Outcome
import Overlay.Proofs.Picture.Configuration
import Overlay.Proofs.Picture.Lifecycle
import Overlay.Scalar.Binary64

/-!
# The order of lines

Reading a line looks at nothing of the picture but its origin, and the origin decides neither whether
the line is accepted nor what it is about (`agree_ofText`).  So whether a line is accepted, and why not,
is a matter of its text (`lineFault`), and an accepted line writes what its name stands for.  Whatever
the picture, the last accepted line of every name wins, in any order: `last_line_wins`.
-/

namespace Overlay

/-! ### Reading, seen from two origins -/

section Reading

variable {α : Type} [Scalar α]

/-- Two settings about a subject that a clamped opacity refuses for the same reason, if at all. -/
def Setting.Alike (s : Subject) (x y : Setting α) : Prop :=
  x.subject = s ∧ y.subject = s ∧ x.refusal = y.refusal

/-- Two directives about a subject that a clamped opacity refuses for the same reason, if at all. -/
def Directive.Alike (s : Subject) (d d' : Directive α) : Prop :=
  d.subject = s ∧ d'.subject = s ∧ d.refusal = d'.refusal

theorem Line.agree_requirePointers (line : Line) (own own' : Pointer) :
    Agree (fun _ _ => True) (line.requirePointers own) (line.requirePointers own') := by
  unfold Line.requirePointers
  split
  · refine Agree.mapM (R := fun _ _ => True) (fun k => ?_) _
    exact Agree.bind_right fun part => Agree.bind_right fun id => .ok trivial
  · exact .error _

theorem Setting.agree_read (o o' : Origin) (line : Line) (k : PropertyKind) :
    Agree (Setting.Alike (α := α) (.property k)) (Setting.read o line k) (Setting.read o' line k) := by
  cases k with
  | pos => exact Agree.map_right fun v => ⟨rfl, rfl, rfl⟩
  | time => exact Agree.bind_right fun duration => Agree.bind_right fun follower => .ok ⟨rfl, rfl, rfl⟩
  | timeAnim =>
    exact Agree.bind_right fun start => Agree.bind_right fun finish =>
      Agree.check (.ok ⟨rfl, rfl, rfl⟩)
  | wait =>
    exact Agree.bind_right fun delay => Agree.bind_right fun part => Agree.bind_right fun x =>
      Agree.bind_right fun y => Agree.bind_right fun layer => .ok ⟨rfl, rfl, rfl⟩
  | next =>
    exact (line.agree_requirePointers o.pointer o'.pointer).map fun _ _ _ => ⟨rfl, rfl, rfl⟩
  | size => exact Agree.bind_right fun width => Agree.bind_right fun height => .ok ⟨rfl, rfl, rfl⟩
  | clip =>
    exact Agree.bind_right fun v => Agree.check (.ok ⟨rfl, rfl, rfl⟩)
  | angle => exact Agree.bind_right fun d => .ok ⟨rfl, rfl, rfl⟩
  | repetition =>
    exact Agree.bind_right fun v => Agree.check (.ok ⟨rfl, rfl, rfl⟩)
  | interval =>
    exact Agree.bind_right fun gap => Agree.bind_right fun x => Agree.bind_right fun y =>
      .ok ⟨rfl, rfl, rfl⟩
  | opacity => exact Agree.map_right fun v => ⟨rfl, rfl, rfl⟩
  | text =>
    refine Agree.bind_right fun content => Agree.bind_right fun align =>
      Agree.bind_right fun baseline => ?_
    cases Align.ofIndex? align with
    | none => exact .error _
    | some align =>
      cases Baseline.ofIndex? baseline with
      | none => exact .error _
      | some baseline => exact .ok ⟨rfl, rfl, rfl⟩
  | font =>
    exact Agree.bind_right fun size => Agree.check (Agree.bind_right fun bold =>
      Agree.bind_right fun italic => Agree.bind_right fun family => .ok ⟨rfl, rfl, rfl⟩)
  | color =>
    exact Agree.bind_right fun red => Agree.bind_right fun green => Agree.bind_right fun blue =>
      .ok ⟨rfl, rfl, rfl⟩

theorem Setting.agree_readFill (line : Line) :
    Agree (Setting.Alike (α := α) .fill) (Setting.readFill line) (Setting.readFill line) :=
  Agree.map_right fun _ => ⟨rfl, rfl, rfl⟩

theorem Motion.agree_read (line : Line) (k : MotionKind) :
    Agree (fun m m' : Motion α => m.kind = k ∧ m'.kind = k) (Motion.read line k)
      (Motion.read line k) := by
  cases k with
  | straight => exact Agree.bind_right fun delta => .ok ⟨rfl, rfl⟩
  | circle =>
    exact Agree.bind_right fun radius => Agree.bind_right fun speed => Agree.bind_right fun angle =>
      .ok ⟨rfl, rfl⟩
  | zoom => exact Agree.bind_right fun delta => .ok ⟨rfl, rfl⟩
  | rotate => exact Agree.bind_right fun delta => .ok ⟨rfl, rfl⟩
  | fade => exact Agree.bind_right fun delta => .ok ⟨rfl, rfl⟩

theorem Acceleration.agree_read (line : Line) (k : MotionKind) :
    Agree (fun a b : Acceleration α => a.kind = k ∧ b.kind = k) (Acceleration.read line k)
      (Acceleration.read line k) := by
  cases k with
  | straight => exact Agree.map_right fun a => ⟨rfl, rfl⟩
  | circle =>
    exact Agree.bind_right fun angular => Agree.bind_right fun x => Agree.bind_right fun y =>
      .ok ⟨rfl, rfl⟩
  | zoom => exact Agree.map_right fun a => ⟨rfl, rfl⟩
  | rotate => exact Agree.map_right fun a => ⟨rfl, rfl⟩
  | fade => exact Agree.map_right fun a => ⟨rfl, rfl⟩

namespace Directive

theorem agree_readAs (o o' : Origin) (line : Line) (s : Subject) :
    Agree (Alike (α := α) s) (readAs o line s) (readAs o' line s) := by
  cases s with
  | fill => exact (Setting.agree_readFill line).map fun _ _ h => h
  | property k => exact (Setting.agree_read o o' line k).map fun _ _ h => h
  | motion k =>
    exact (Motion.agree_read line k).map fun _ _ ⟨h, h'⟩ =>
      ⟨congrArg Subject.motion h, congrArg Subject.motion h', rfl⟩
  | acceleration k =>
    exact (Acceleration.agree_read line k).map fun _ _ ⟨h, h'⟩ =>
      ⟨congrArg Subject.acceleration h, congrArg Subject.acceleration h', rfl⟩

/-- The directive that a picture with a clamped opacity obeys when it reads a text, or why it refuses
the text. -/
def obeyed (o : Origin) (t : String) : Except Fault (Directive α) := ofText o t >>= checked

theorem yields_obeyed {o : Origin} {t : String} :
    Yields (obeyed (α := α) o t) (fun _ => True) ↔
      Yields (ofText (α := α) o t) fun d => d.refusal = none := by
  rw [obeyed, yields_bind]
  refine yields_congr fun d => ?_
  unfold checked
  cases d.refusal <;> simp

/-- Seen from two origins, a text is refused for the same reason, or it is obeyed in two directives about
the subject that its name stands for. -/
theorem agree_obeyed (o o' : Origin) (t : String) :
    Agree (fun d d' : Directive α => ∃ line s, Line.parse t = .ok line ∧
      Subject.ofName line.name = .ok s ∧ d.subject = s ∧ d'.subject = s) (obeyed o t) (obeyed o' t) := by
  unfold obeyed ofText
  cases hl : Line.parse t with
  | error f => exact .error f
  | ok line =>
    show Agree _ ((Subject.ofName line.name >>= readAs o line) >>= checked)
      ((Subject.ofName line.name >>= readAs o' line) >>= checked)
    cases hs : Subject.ofName line.name with
    | error f => exact .error f
    | ok s =>
      refine (agree_readAs o o' line s).bind fun d d' ⟨hd, hd', hf⟩ => ?_
      unfold checked
      rw [← hf]
      cases d.refusal with
      | none => exact .ok ⟨line, s, rfl, hs, hd, hd'⟩
      | some f => exact .error f

end Directive

end Reading

/-! ### Lines by their text -/

namespace Picture

variable {α : Type} [Scalar α]

/-- The name of a line, if the text is one. -/
def lineName (t : String) : Option String :=
  match Line.parse t with
  | .ok line => some line.name
  | .error _ => none

variable (α) in
/-- Why a fresh picture refuses a line, if it does. -/
def lineFault (t : String) : Option Fault := ((initial {} {} : Picture α).perform (.line t)).2.fault

/-- The opacity of the picture is checked. -/
def Clamped (p : Picture α) : Prop := p.properties.opacity.mode = .clamped

theorem Clamped.perform {p : Picture α} (hp : Clamped p) (op : Op α) : Clamped (p.perform op).1 :=
  (Properties.kept_mode .clamped).perform hp op

theorem Clamped.after {p : Picture α} (hp : Clamped p) (ops : List (Op α)) : Clamped (p.after ops) := by
  induction ops generalizing p with
  | nil => exact hp
  | cons op ops ih => exact ih (hp.perform op)

theorem Reachable.clamped {p : Picture α} (h : Reachable p) : Clamped p := by
  induction h with
  | initial o c => rfl
  | perform h op ih => exact ih.perform op

theorem readLine_eq {p : Picture α} (hp : Clamped p) (t : String) :
    p.readLine t = (Directive.obeyed p.origin t).map p.write := by
  unfold readLine Directive.obeyed
  cases Directive.ofText (α := α) p.origin t with
  | error f => rfl
  | ok d => exact obey_eq hp d

theorem perform_line_of_obeyed {p : Picture α} (hp : Clamped p) {t : String} {d : Directive α}
    (h : Directive.obeyed p.origin t = .ok d) : p.perform (.line t) = (p.write d, {}) :=
  perform_line_ok ((readLine_eq hp t).trans (congrArg _ h))

theorem perform_line_of_refused {p : Picture α} (hp : Clamped p) {t : String} {f : Fault}
    (h : Directive.obeyed (α := α) p.origin t = .error f) :
    p.perform (.line t) = (p, { fault := some f }) :=
  perform_line_error ((readLine_eq hp t).trans (congrArg _ h))

/-- Whether and why a line is refused is decided by its text. -/
theorem perform_line_fault {p : Picture α} (hp : Clamped p) (t : String) :
    (p.perform (.line t)).2.fault = lineFault α t := by
  have hi : Clamped (initial {} {} : Picture α) := rfl
  have h := Directive.agree_obeyed (α := α) p.origin {} t
  unfold lineFault
  generalize hx : Directive.obeyed (α := α) p.origin t = x at h
  generalize hy : Directive.obeyed (α := α) {} t = y at h
  cases h with
  | ok _ => rw [perform_line_of_obeyed hp hx, perform_line_of_obeyed hi hy]
  | error f => rw [perform_line_of_refused hp hx, perform_line_of_refused hi hy]

theorem perform_line_of_lineFault {p : Picture α} (hp : Clamped p) {t : String}
    (h : lineFault α t ≠ none) : (p.perform (.line t)).1 = p := by
  rw [← perform_line_fault hp] at h
  cases hd : Directive.obeyed (α := α) p.origin t with
  | ok d => rw [perform_line_of_obeyed hp hd] at h; exact absurd rfl h
  | error f => rw [perform_line_of_refused hp hd]

/-! ### The last one wins -/

/-- What a text makes of a picture with this origin, ignored if it is refused. -/
def take (o : Origin) (p : Picture α) (t : String) : Picture α :=
  match Directive.obeyed o t with
  | .ok d => p.write d
  | .error _ => p

theorem take_of_obeyed {o : Origin} {t : String} {d : Directive α} (h : Directive.obeyed o t = .ok d)
    (p : Picture α) : p.take o t = p.write d := by
  simp only [take, h]

theorem take_of_refused {o : Origin} {t : String} {f : Fault}
    (h : Directive.obeyed (α := α) o t = .error f) (p : Picture α) : p.take o t = p := by
  simp only [take, h]

theorem perform_line_eq_take {p : Picture α} (hp : Clamped p) (t : String) :
    (p.perform (.line t)).1 = p.take p.origin t := by
  cases hd : Directive.obeyed (α := α) p.origin t with
  | ok d => rw [perform_line_of_obeyed hp hd, take_of_obeyed hd]
  | error f => rw [perform_line_of_refused hp hd, take_of_refused hd]

theorem take_clamped {p : Picture α} (hp : Clamped p) (o : Origin) (t : String) :
    Clamped (p.take o t) ∧ (p.take o t).origin = p.origin := by
  cases hd : Directive.obeyed (α := α) o t with
  | ok d => rw [take_of_obeyed hd]; exact ⟨(p.write_mode d).trans hp, p.write_origin d⟩
  | error f => rw [take_of_refused hd]; exact ⟨hp, rfl⟩

theorem after_lines {p : Picture α} (hp : Clamped p) (ts : List String) :
    p.after (ts.map .line) = ts.foldl (fun q t => q.take p.origin t) p := by
  -- lines are read from the origin of the picture they meet, which stays that of `p`
  have key : ∀ q : Picture α, Clamped q → q.origin = p.origin →
      q.after (ts.map .line) = ts.foldl (fun q t => q.take p.origin t) q := by
    induction ts with
    | nil => exact fun _ _ _ => rfl
    | cons t ts ih =>
      intro q hq ho
      obtain ⟨hc, ho'⟩ := take_clamped hq p.origin t
      rw [List.map_cons, after_cons, List.foldl_cons, perform_line_eq_take hq, ho]
      exact ih _ hc (ho'.trans ho)
  exact key p hp rfl

/-- The name of a line that is obeyed stands for what the directive is about. -/
theorem lineName_of_obeyed {o : Origin} {t : String} {d : Directive α}
    (h : Directive.obeyed o t = .ok d) :
    ∃ n, lineName t = some n ∧ Subject.ofName n = .ok d.subject := by
  have ha := Directive.agree_obeyed (α := α) o o t
  rw [h] at ha
  cases ha with
  | ok hd =>
    obtain ⟨line, s, hl, hs, rfl, -⟩ := hd
    exact ⟨line.name, by simp only [lineName, hl], hs⟩

/-- A line that is obeyed has the name of what it is about. -/
theorem lineName_eq_some_iff {o : Origin} {t : String} {d : Directive α} {s : Subject}
    (h : Directive.obeyed o t = .ok d) (hs : Subject.ofName s.name = .ok s) :
    lineName t = some s.name ↔ d.subject = s := by
  obtain ⟨n, hn, hd⟩ := lineName_of_obeyed h
  constructor
  · intro ht
    obtain rfl : n = s.name := Option.some.inj (hn.symm.trans ht)
    exact Except.ok.inj (hd.symm.trans hs)
  · rintro rfl
    rw [hn, Subject.name_of_ofName hd]

/-- A text that is obeyed is accepted. -/
theorem obeyed_iff (o : Origin) (t : String) :
    lineFault α t = none ↔ ∃ d : Directive α, Directive.obeyed o t = .ok d := by
  have hi : Clamped (initial o {} : Picture α) := rfl
  rw [← perform_line_fault hi]
  cases hd : Directive.obeyed (α := α) o t with
  | ok d => rw [perform_line_of_obeyed hi hd]; exact ⟨fun _ => ⟨d, rfl⟩, fun _ => rfl⟩
  | error f =>
    rw [perform_line_of_refused hi hd]
    exact ⟨fun h => (nomatch h), fun ⟨_, h⟩ => (nomatch h)⟩

variable (α) in
/-- A fresh picture accepts the line. -/
def Accepted (t : String) : Prop := lineFault α t = none

/-- Lines follow the rule that the last one of every name wins. -/
theorem lastWins_take (o : Origin) :
    LastWins (fun (p : Picture α) t => p.take o t) lineName (Accepted α) where
  ignore p t h := by
    cases hd : Directive.obeyed (α := α) o t with
    | ok d => exact absurd ((obeyed_iff o t).2 ⟨d, hd⟩) h
    | error f => exact take_of_refused hd p
  comm p t u h := by
    cases hd : Directive.obeyed (α := α) o t with
    | error f => simp only [take_of_refused hd]
    | ok d =>
      cases he : Directive.obeyed (α := α) o u with
      | error f => simp only [take_of_refused he]
      | ok e =>
        obtain ⟨m, hm, hms⟩ := lineName_of_obeyed hd
        obtain ⟨n, hn, hns⟩ := lineName_of_obeyed he
        simp only [take_of_obeyed hd, take_of_obeyed he]
        refine write_comm fun hde => h ?_
        rw [hm, hn, ← Subject.name_of_ofName hms, ← Subject.name_of_ofName hns, hde]
  absorb p t u h hu := by
    obtain ⟨e, he⟩ := (obeyed_iff o u).1 hu
    simp only [take_of_obeyed he]
    cases hd : Directive.obeyed (α := α) o t with
    | error f => rw [take_of_refused hd]
    | ok d =>
      obtain ⟨m, hm, hms⟩ := lineName_of_obeyed hd
      obtain ⟨n, hn, hns⟩ := lineName_of_obeyed he
      rw [hm, hn] at h
      cases h
      rw [take_of_obeyed hd]
      exact write_absorb (Except.ok.inj (hms.symm.trans hns))

/-! ### Scripts -/

/-- Lines are read up to the first that is refused. -/
theorem readLines_eq {p : Picture α} (hp : Clamped p) (ts : List String) :
    p.readLines ts = match ts.findSome? (lineFault α) with
      | none => .ok (p.after (ts.map .line))
      | some f => .error f := by
  induction ts generalizing p with
  | nil => rfl
  | cons t ts ih =>
    rw [readLines, List.findSome?_cons, ← perform_line_fault hp]
    cases hd : Directive.obeyed (α := α) p.origin t with
    | ok d =>
      have hr : p.readLine t = .ok (p.write d) := (readLine_eq hp t).trans (congrArg _ hd)
      have hw : Clamped (p.write d) := (p.write_mode d).trans hp
      simp only [hr, perform_line_ok hr, ih hw, List.map_cons, after_cons]
    | error f =>
      have hr : p.readLine t = .error f := (readLine_eq hp t).trans (congrArg _ hd)
      simp only [hr, perform_line_error hr]

/-- Take any picture that can come about.

Whether a line is accepted, and why it is not, is decided by its text, and a refused line changes
nothing.  A list of lines, refused ones ignored, makes of the picture what the last accepted line of
every name makes of it, in any order; in particular lines of different names commute, such as `fill` and
`repeat`, or a motion and the acceleration of its kind.  A script is read if each of its lines is
accepted by itself, and otherwise fails with the fault of the first that is not. -/
theorem last_line_wins {p : Picture α} (h : Reachable p) :
    (∀ t, (p.perform (.line t)).2.fault = lineFault α t) ∧
    (∀ t, (p.perform (.line t)).2.fault ≠ none → (p.perform (.line t)).1 = p) ∧
    (∀ ts us : List String, (us.map lineName).Nodup →
      (∀ t, t ∈ us ↔ IsLast lineName (Accepted α) ts t) →
      p.after (us.map .line) = p.after (ts.map .line)) ∧
    (∀ t u, lineName t ≠ lineName u → p.after [.line t, .line u] = p.after [.line u, .line t]) ∧
    (∀ (o : Origin) (c : Config) (ts : List String),
      ((∃ q : Picture α, ofScript o c ts = .ok q) ↔ ∀ t ∈ ts, Accepted α t) ∧
      ∀ f, (ofScript o c ts : Except Fault (Picture α)) = .error f ↔
        ts.findSome? (lineFault α) = some f) := by
  have hc := h.clamped
  refine ⟨perform_line_fault hc, fun t ht => ?_, fun ts us hk hlast => ?_, fun t u htu => ?_,
    fun o c ts => ?_⟩
  · exact perform_line_of_lineFault hc (perform_line_fault hc t ▸ ht)
  · rw [after_lines hc, after_lines hc]
    exact (lastWins_take p.origin).foldl_eq hk hlast p
  · have ht := after_lines hc [t, u]
    have hu := after_lines hc [u, t]
    exact ht.trans (((lastWins_take p.origin).comm p t u htu).trans hu.symm)
  · have hr := readLines_eq (α := α) (p := initial o c) rfl ts
    rw [ofScript, hr]
    cases hf : ts.findSome? (lineFault α) with
    | none =>
      refine ⟨⟨fun _ => List.findSome?_eq_none_iff.1 hf, fun _ => ⟨_, rfl⟩⟩, fun f => ?_⟩
      simp
    | some f =>
      refine ⟨⟨fun ⟨q, hq⟩ => (nomatch hq), fun ha => ?_⟩, fun f' => ?_⟩
      · rw [List.findSome?_eq_none_iff.2 ha] at hf
        cases hf
      · simp

/-- Of two lines about filling and two about repeating, of which one is refused, two are left. -/
theorem last_fill_and_repeat_win :
    (initial {} {} : Picture Float).after (["fill=0", "repeat=2,3"].map .line) =
      (initial {} {}).after (["repeat=2,3", "fill=1", "repeat=5,x", "fill=0"].map .line) := by
  have hrepeat : lineName "repeat=2,3" = some "repeat" := by decide +kernel
  have hrepeat' : lineName "repeat=5,x" = some "repeat" := by decide +kernel
  have hfill : lineName "fill=0" = some "fill" := by decide +kernel
  have hfill' : lineName "fill=1" = some "fill" := by decide +kernel
  have haccepted : Accepted Float "repeat=2,3" ∧ Accepted Float "fill=1" ∧ Accepted Float "fill=0" := by
    unfold Accepted
    decide +kernel
  have hrefused : ¬ Accepted Float "repeat=5,x" := by
    unfold Accepted
    decide +kernel
  refine (last_line_wins (.initial {} {})).2.2.1 _ _ (by simp [hfill, hrepeat]) fun t => ?_
  simp [isLast_cons_iff, not_isLast_nil, Followed, hfill, hfill', hrepeat, hrepeat', haccepted, hrefused,
    or_comm]

end Picture

end Overlay

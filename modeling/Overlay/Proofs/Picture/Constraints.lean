import Overlay.Proofs.Scalar.Exact
import Overlay.Proofs.Picture.Acceptance
import Overlay.Proofs.Picture.DelayInForce

/-!
# Constraints on properties

Some properties have to keep to a range, and some have to fit each other (`Properties.Sound`).  A line
gives a setting that keeps to them (`Setting.sound_of_read`), and taking over such a setting breaks none
(`Properties.Sound.set`).  Motions and the moves of the host are not checked, but all they write is the
place, the size, the angle and the value of the opacity (`Properties.Moved`), about which nothing is
asked.  So whatever happens to a picture, its properties are sound: `constraints_never_broken`.
-/

namespace Overlay

variable {α : Type} [Scalar α]

/-! ### Settings -/

/-- The span is a whole number of a script. -/
def IsSpan (t : Millis) : Prop := (t.toNat : Int) ≤ maxWhole

/-- The setting keeps to what its property asks for, in a picture from this origin. -/
def Setting.Sound (o : Origin) : Setting α → Prop
  | .time duration follower =>
    IsSpan duration ∧ ∀ f ∈ follower, 1 ≤ f.part ∧ f.id = o.pointer.id
  | .timeAnim start finish => IsSpan start ∧ ∀ t ∈ finish, IsSpan t ∧ start ≤ t
  | .wait w => IsSpan w.delay ∧ w.appearance = w.target.seenFrom o
  | .clip v => 1 ≤ v.x ∧ 1 ≤ v.y
  | .count v => 0 ≤ v.x ∧ 0 ≤ v.y
  | .font f => 1 ≤ f.size
  | _ => True

theorem isSpan_ofNat {n : Int} (h : IsWhole n) (hn : 0 ≤ n) : IsSpan (.ofNat n.toNat) := by
  simp only [IsWhole, minWhole, maxWhole] at h
  have hlt : n.toNat < UInt32.size := by
    simp only [UInt32.size]
    omega
  rw [IsSpan, maxWhole, UInt32.toNat_ofNat_of_lt' hlt]
  omega

namespace Line

variable {line : Line} {i : Nat}

theorem isSpan_of_requireMillis {t : Millis} (h : line.requireMillis i = .ok t) : IsSpan t := by
  have ht : Yields (line.requireMillis i) (· = t) := ⟨t, h, rfl⟩
  obtain ⟨n, hn, hn0, rfl⟩ := yields_requireMillis_iff.1 ht
  exact isSpan_ofNat (isWhole_of_whole hn) hn0

theorem isWhole_of_natural {n : Int} (h : line.natural i = .ok (some n)) : IsWhole n ∧ 0 ≤ n := by
  have hn : Yields (line.natural i) (· = some n) := ⟨some n, h, rfl⟩
  obtain ⟨hpresent, hmissing⟩ := yields_natural_iff.1 hn
  by_cases hi : i < line.tokens.length
  · obtain ⟨m, hm, hm0, e⟩ := hpresent hi
    obtain rfl := Option.some.inj e
    exact ⟨isWhole_of_whole hm, hm0⟩
  · cases hmissing (Nat.le_of_not_lt hi)

/-- Two whole numbers that passed a check. -/
theorem exists_atLeast_of_checked {β : Type} {bound : Int} {f : Fault} {g : Vec Int → β} {b : β}
    (h : (do
      let v ← line.requireWholes i
      if v.x < bound ∨ v.y < bound then throw f
      return g v) = Except.ok b) : ∃ v, bound ≤ v.x ∧ bound ≤ v.y ∧ g v = b := by
  have hb : Yields _ (· = b) := ⟨b, h, rfl⟩
  simp only [yields_bind, yields_pure, yields_ite, yields_throw] at hb
  obtain ⟨v, -, hv⟩ := hb
  split at hv
  · exact hv.elim
  · next hcheck =>
    obtain ⟨hx, hy⟩ := not_or.1 hcheck
    exact ⟨v, Int.not_lt.1 hx, Int.not_lt.1 hy, hv⟩

end Line

namespace Setting

variable {o : Origin} {line : Line} {s : Setting α}

theorem sound_of_read_time (h : read o line .time = .ok s) : s.Sound o := by
  have hs : Yields (read o line .time : Except Fault (Setting α)) (· = s) := ⟨s, h, rfl⟩
  simp only [read, yields_bind, yields_pure] at hs
  obtain ⟨duration, hduration, follower, hfollower, rfl⟩ := hs
  refine ⟨Line.isSpan_of_requireMillis hduration, fun f hf => ?_⟩
  obtain ⟨part, hpart, rfl⟩ := Option.map_eq_some_iff.1 hf
  obtain ⟨rfl, hne⟩ := Option.filter_eq_some_iff.1 hpart
  obtain ⟨-, hnonneg⟩ := Line.isWhole_of_natural hfollower
  have hne' : part ≠ 0 := of_decide_eq_true hne
  have hpositive : 1 ≤ part := by omega
  exact ⟨hpositive, rfl⟩

theorem sound_of_read_timeAnim (h : read o line .timeAnim = .ok s) : s.Sound o := by
  have hs : Yields (read o line .timeAnim : Except Fault (Setting α)) (· = s) := ⟨s, h, rfl⟩
  simp only [read, yields_bind, yields_pure, yields_ite, yields_throw] at hs
  obtain ⟨start, hstart, finish, hfinish, hs⟩ := hs
  split at hs
  · exact hs.elim
  · next horder =>
    subst hs
    refine ⟨Line.isSpan_of_requireMillis hstart, fun t ht => ?_⟩
    rw [Option.mem_def.1 ht] at horder
    obtain ⟨n, rfl, rfl⟩ := Option.map_eq_some_iff.1 ht
    obtain ⟨hwhole, hnonneg⟩ := Line.isWhole_of_natural hfinish
    refine ⟨isSpan_ofNat hwhole hnonneg, ?_⟩
    simpa using horder

theorem sound_of_read_wait (h : read o line .wait = .ok s) : s.Sound o := by
  have hs : Yields (read o line .wait : Except Fault (Setting α)) (· = s) := ⟨s, h, rfl⟩
  simp only [read, yields_bind, yields_pure] at hs
  obtain ⟨delay, hdelay, part, -, x, -, y, -, layer, -, rfl⟩ := hs
  exact ⟨Line.isSpan_of_requireMillis hdelay, Spawn.resolve_eq_seenFrom _ o⟩

theorem sound_of_read_clip (h : read o line .clip = .ok s) : s.Sound o := by
  obtain ⟨v, hx, hy, rfl⟩ := Line.exists_atLeast_of_checked h
  exact ⟨hx, hy⟩

theorem sound_of_read_repetition (h : read o line .repetition = .ok s) : s.Sound o := by
  obtain ⟨v, hx, hy, rfl⟩ := Line.exists_atLeast_of_checked h
  exact ⟨hx, hy⟩

theorem sound_of_read_font (h : read o line .font = .ok s) : s.Sound o := by
  have hs : Yields (read o line .font : Except Fault (Setting α)) (· = s) := ⟨s, h, rfl⟩
  simp only [read, yields_bind, yields_pure, yields_ite, yields_throw] at hs
  obtain ⟨size, -, hs⟩ := hs
  split at hs
  · exact hs.elim
  · next hempty =>
    obtain ⟨bold, -, italic, -, family, -, rfl⟩ := hs
    have hsize : 1 ≤ size.toNat := by omega
    exact hsize

theorem subject_of_read {k : PropertyKind} (h : read o line k = .ok s) : s.subject = .property k := by
  have hagree := agree_read (α := α) o o line k
  rw [h] at hagree
  cases hagree with
  | ok hs => exact hs.1

/-- What a line says keeps to what is asked of its property. -/
theorem sound_of_read {k : PropertyKind} (h : read o line k = .ok s) : s.Sound o := by
  have hk := subject_of_read h
  cases s with
  | time duration follower =>
    cases hk
    exact sound_of_read_time h
  | timeAnim start finish =>
    cases hk
    exact sound_of_read_timeAnim h
  | wait w =>
    cases hk
    exact sound_of_read_wait h
  | clip v =>
    cases hk
    exact sound_of_read_clip h
  | count v =>
    cases hk
    exact sound_of_read_repetition h
  | font f =>
    cases hk
    exact sound_of_read_font h
  | _ => trivial

end Setting

/-- A setting that a text gives is sound. -/
theorem Directive.sound_of_ofText {o : Origin} {text : String} {s : Setting α}
    (h : ofText o text = .ok (.setting s)) : s.Sound o := by
  have hd : Yields (ofText o text : Except Fault (Directive α)) (· = .setting s) := ⟨_, h, rfl⟩
  simp only [ofText, ofLine, yields_bind] at hd
  obtain ⟨line, -, subject, -, hread⟩ := hd
  cases subject with
  | fill =>
    simp only [readAs, Setting.readFill, yields_map] at hread
    obtain ⟨on, -, e⟩ := hread
    obtain rfl := Directive.setting.inj e
    trivial
  | property k =>
    simp only [readAs, yields_map] at hread
    obtain ⟨s', hs', e⟩ := hread
    obtain rfl := Directive.setting.inj e
    exact Setting.sound_of_read hs'
  | motion k =>
    simp only [readAs, yields_map] at hread
    obtain ⟨m, -, e⟩ := hread
    cases e
  | acceleration k =>
    simp only [readAs, yields_map] at hread
    obtain ⟨a, -, e⟩ := hread
    cases e

/-! ### Property sets -/

namespace Properties

/-- Every property keeps to its range, and those that belong together fit. -/
structure Sound (o : Origin) (P : Properties α) : Prop where
  clip : 1 ≤ P.clip.x ∧ 1 ≤ P.clip.y
  count : 0 ≤ P.repetition.count.x ∧ 0 ≤ P.repetition.count.y
  font : 1 ≤ P.font.size
  time : ∀ t ∈ P.time, IsSpan t
  delay : ∀ w ∈ P.wait, IsSpan w.delay
  /-- The animations do not end before they start. -/
  timeAnim : ∀ b ∈ P.timeAnim, IsSpan b.1 ∧ ∀ t ∈ b.2, IsSpan t ∧ b.1 ≤ t
  follower : ∀ f ∈ P.timeNext, 1 ≤ f.part ∧ f.id = o.pointer.id
  no_follower : P.time = none → P.timeNext = none
  opacity : P.opacity.mode = .clamped
  appearance : ∀ w ∈ P.wait, w.appearance = w.target.seenFrom o

variable {o : Origin} {P Q : Properties α}

theorem sound_initial (o : Origin) (config : Config) : (initial config : Properties α).Sound o where
  clip := ⟨Int.le_refl 1, Int.le_refl 1⟩
  count := (by decide : (0 : Int) ≤ 1 ∧ (0 : Int) ≤ 1)
  font := (by decide : 1 ≤ 16)
  time _ h := nomatch h
  delay _ h := nomatch h
  timeAnim _ h := nomatch h
  follower _ h := nomatch h
  no_follower _ := rfl
  opacity := rfl
  appearance _ h := nomatch h

/-- A setting that keeps to the constraints breaks none. -/
theorem Sound.set (h : P.Sound o) {s : Setting α} (hs : s.Sound o) (e : P.set s = .ok Q) : Q.Sound o := by
  cases s with
  | opacity value =>
    obtain rfl := eq_of_set_opacity e
    exact { h with }
  | time duration follower =>
    obtain rfl := Except.ok.inj e
    exact { h with
      time := fun t ht => Option.some.inj ht ▸ hs.1
      follower := hs.2
      no_follower := fun hnone => nomatch hnone }
  | timeAnim start finish =>
    obtain rfl := Except.ok.inj e
    exact { h with timeAnim := fun b hb => Option.some.inj hb ▸ hs }
  | wait w =>
    obtain rfl := Except.ok.inj e
    exact { h with
      delay := fun w' hw => Option.some.inj hw ▸ hs.1
      appearance := fun w' hw => Option.some.inj hw ▸ hs.2 }
  | clip v =>
    obtain rfl := Except.ok.inj e
    exact { h with clip := hs }
  | count v =>
    obtain rfl := Except.ok.inj e
    exact { h with count := hs }
  | font f =>
    obtain rfl := Except.ok.inj e
    exact { h with font := hs }
  | _ =>
    obtain rfl := Except.ok.inj e
    exact { h with }

omit [Scalar α] in
/-- Nothing is asked of what moves. -/
theorem Sound.moved (h : P.Sound o) (hm : P.Moved Q) : Q.Sound o := by
  obtain ⟨_, _, _, _, rfl⟩ := hm
  exact { h with }

end Properties

/-! ### Pictures -/

namespace Picture

variable {p : Picture α}

theorem sound_line (h : p.properties.Sound p.origin) (text : String) :
    (p.perform (.line text)).1.properties.Sound p.origin := by
  cases e : p.readLine text with
  | error f => rwa [perform_line_error e]
  | ok q =>
    rw [perform_line_ok e]
    obtain ⟨d, hd, ho⟩ := readLine_eq_ok e
    rcases obey_eq_ok ho with ⟨s, P, rfl, hset, rfl⟩ | ⟨T, rfl⟩
    · exact h.set (Directive.sound_of_ofText hd) hset
    · exact h

theorem sound_perform (h : p.properties.Sound p.origin) (op : Op α) :
    (p.perform op).1.properties.Sound p.origin := by
  cases op with
  | line text => exact sound_line h text
  | _ => exact h.moved (moved_perform (by nofun))

theorem Reachable.sound (h : Reachable p) : p.properties.Sound p.origin := by
  induction h with
  | initial origin config => exact Properties.sound_initial origin config
  | perform _ op ih =>
    rw [perform_origin]
    exact sound_perform ih op

/-- An `opacity` line is accepted exactly if its number lies between zero and one. -/
theorem opacity_accepted_iff (h : Reachable p) {text : String} {line : Line}
    (hline : Line.parse text = .ok line) (hname : line.name = "opacity") :
    (p.perform (.line text)).2.fault = none ↔
      ∃ x : α, line.scalar 0 = .ok (some x) ∧ Scalar.ofInt 0 ≤ x ∧ x ≤ Scalar.ofInt 1 := by
  have hadmitted : line.Admitted α "opacity" ↔ line.Fits α 0 .unit := by
    rw [Line.admitted_iff α rfl]
    simp [Line.Meets]
  rw [perform_line_fault h.clamped, obeyed_iff p.origin, exists_obeyed_iff, hline]
  constructor
  · rintro ⟨line', e, ha⟩
    obtain rfl := Except.ok.inj e
    exact hadmitted.1 (hname ▸ ha)
  · intro hfits
    exact ⟨line, rfl, hname ▸ hadmitted.2 hfits⟩

/-- Take any picture that can come about, whatever lines it has read or refused and however it has been
animated and moved.  Its properties keep to their ranges and fit each other, and it still takes over an
opacity only from zero to one. -/
theorem constraints_never_broken (h : Reachable p) :
    p.properties.Sound p.origin ∧
    ∀ (text : String) (line : Line), Line.parse text = .ok line → line.name = "opacity" →
      ((p.perform (.line text)).2.fault = none ↔
        ∃ x : α, line.scalar 0 = .ok (some x) ∧ Scalar.ofInt 0 ≤ x ∧ x ≤ Scalar.ofInt 1) :=
  ⟨h.sound, fun _ _ hline hname => opacity_accepted_iff h hline hname⟩

/-- A picture that the part at `(5, 6)` triggered.  It has refused three lines, is faded to an opacity of
minus seven, and has a part to place. -/
theorem constraints_after_fading :
    ∃ p : Picture (Exact .unturned),
      p = (initial { pointer := ⟨9, 3⟩, trigger := ⟨5, 6⟩, triggerPart := 120 } {}).after
        [.line "time=50,3", .line "clip=2,0", .line "time=-1,4", .line "anim_fade=-8",
          .line "wait=5,+2,-1,7", .line "opacity=1.5", .start, .update 5, .update 10] ∧
      p.properties.opacity.value = -7 ∧ p.properties.timeNext = some ⟨3, 3⟩ ∧
      p.properties.wait.map Wait.appearance =
        some { trigger := ⟨5, 6⟩, x := 4, y := 7, part := 122, layer := .object } ∧
      p.properties.Sound p.origin ∧
      (p.perform (.line "opacity=2")).2.fault ≠ none ∧ (p.perform (.line "opacity=0.5")).2.fault = none := by
  obtain ⟨p, hp⟩ : ∃ p : Picture (Exact .unturned),
      p = (initial { pointer := ⟨9, 3⟩, trigger := ⟨5, 6⟩, triggerPart := 120 } {}).after
        [.line "time=50,3", .line "clip=2,0", .line "time=-1,4", .line "anim_fade=-8",
          .line "wait=5,+2,-1,7", .line "opacity=1.5", .start, .update 5, .update 10] :=
    ⟨_, rfl⟩
  have hreach : Reachable p := hp ▸ (Reachable.initial _ _).after _
  have hvalues : p.properties.opacity.value = -7 ∧ p.properties.timeNext = some ⟨3, 3⟩ ∧
      p.properties.wait.map Wait.appearance =
        some { trigger := ⟨5, 6⟩, x := 4, y := 7, part := 122, layer := .object } := by
    rw [hp]
    decide +kernel
  have htwo : Line.parse "opacity=2" = .ok ⟨"opacity", ["2"]⟩ := by decide +kernel
  have hhalf : Line.parse "opacity=0.5" = .ok ⟨"opacity", ["0.5"]⟩ := by decide +kernel
  obtain ⟨hsound, hchecked⟩ := constraints_never_broken hreach
  refine ⟨p, hp, hvalues.1, hvalues.2.1, hvalues.2.2, hsound, fun hnone => ?_, ?_⟩
  · obtain ⟨x, hx, -, hle⟩ := (hchecked _ _ htwo rfl).1 hnone
    have hread : (⟨"opacity", ["2"]⟩ : Line).scalar 0 = .ok (some (2 : Exact .unturned)) := by
      decide +kernel
    obtain rfl := Option.some.inj (Except.ok.inj (hread.symm.trans hx))
    revert hle
    decide +kernel
  · exact (hchecked _ _ hhalf rfl).2 ⟨1 / 2, by decide +kernel⟩

end Picture

end Overlay

import Overlay.Proofs.Picture.LineOrder
import Overlay.Proofs.Script.Cells

/-!
# Accepted lines

Which lines a picture accepts, as a table: `signature` gives for every name the cells of the tokens that
follow it.  A line is accepted exactly if its name is in the table and its tokens meet the signature,
whatever the picture: `accepts_iff`.  So a token that is present and does not fit its cell, required or
not, makes the whole line fail.
-/

namespace Overlay

open Cell in
/-- What a name asks of the tokens after it, of which there are `count`. -/
def signature (name : String) (count : Nat) : Option Signature :=
  match name with
  | "pos" => some { required := [whole, whole] }
  | "time" => some { required := [atLeast 0], optional := [atLeast 0] }
  | "time_anim" => some { required := [atLeast 0], optional := [notBelow 0] }
  | "wait" => some { required := [atLeast 0], optional := [relative, relative, relative, switch] }
  | "next" => if count % 2 = 0 then some { required := List.replicate count relative } else none
  | "size" => some { required := [atLeast 0, atLeast 0] }
  | "clip" => some { required := [atLeast 1, atLeast 1] }
  | "angle" => some { required := [real] }
  | "repeat" => some { required := [atLeast 0, atLeast 0] }
  | "interval" => some { required := [whole, whole], optional := [whole, whole] }
  | "opacity" => some { required := [unit] }
  | "text" => some { required := [quoted], optional := [upTo 2, upTo 3] }
  | "font" => some { required := [atLeast 1], optional := [switch, switch, quoted] }
  | "color" => some { required := [upTo 255, upTo 255, upTo 255] }
  | "fill" => some { required := [switch] }
  | "anim_straight" => some { required := [real, real] }
  | "anim_circle" => some { required := [real, real, real], optional := [real] }
  | "anim_zoom" => some { required := [real, real] }
  | "anim_rotate" => some { required := [real] }
  | "anim_fade" => some { required := [real] }
  | "accel_straight" => some { required := [real, real] }
  | "accel_circle" => some { required := [real], optional := [real, real] }
  | "accel_zoom" => some { required := [real, real] }
  | "accel_rotate" => some { required := [real] }
  | "accel_fade" => some { required := [real] }
  | _ => none

variable (α : Type) [Scalar α]

/-- The name has a signature, and the line meets it. -/
def Line.Admitted (line : Line) (name : String) : Prop :=
  ∃ s, signature name line.tokens.length = some s ∧ line.Meets α s

theorem Line.admitted_iff {line : Line} {name : String} {s : Signature}
    (h : signature name line.tokens.length = some s) :
    line.Admitted α name ↔ line.Meets α s := by
  simp [Admitted, h]

theorem ofName_of_signature {name : String} {count : Nat} {s : Signature}
    (h : signature name count = some s) : ∃ subject, Subject.ofName name = .ok subject := by
  unfold signature at h
  split at h
  all_goals first | exact ⟨_, rfl⟩ | cases h

/-! ### Each subject -/

variable {α} (o : Origin) (line : Line)

theorem Motion.yields_read (k : MotionKind) :
    Yields (Motion.read line k : Except Fault (Motion α)) (fun _ => True) ↔
      line.Admitted α k.text := by
  cases k <;> rw [Line.admitted_iff α rfl] <;>
    simp [read, Line.yields_requireVec, Line.yields_requireScalar, Line.yields_scalarOr, Line.Meets]

theorem Acceleration.yields_read (k : MotionKind) :
    Yields (Acceleration.read line k : Except Fault (Acceleration α)) (fun _ => True) ↔
      line.Admitted α ("accel_" ++ k.suffix) := by
  cases k <;> rw [Line.admitted_iff α rfl] <;>
    simp [read, Line.yields_requireVec, Line.yields_requireScalar, Line.yields_scalarOr, Line.Meets]

theorem Setting.yields_readFill :
    Yields (Setting.readFill line : Except Fault (Setting α)) (fun s => s.refusal = none) ↔
      line.Admitted α "fill" := by
  rw [Line.admitted_iff α rfl]
  simp [readFill, refusal, Line.yields_requireSwitch α, Line.Meets]

theorem Line.isWhole_of_whole {line : Line} {i : Nat} {n : Int} (h : line.whole i = .ok (some n)) :
    IsWhole n := by
  unfold whole read at h
  split at h
  · cases h
  · split at h <;> rename_i hr
    · obtain rfl := Option.some.inj (Except.ok.inj h)
      exact isWhole_of_readWhole? hr
    · cases h

/-- Whole numbers keep their order as spans of time. -/
theorem millis_le_iff {m n : Int} (hm : IsWhole m) (hn : IsWhole n) (hm0 : 0 ≤ m) (hn0 : 0 ≤ n) :
    UInt32.ofNat m.toNat ≤ UInt32.ofNat n.toNat ↔ m ≤ n := by
  simp only [IsWhole, minWhole, maxWhole] at hm hn
  have hlt : m.toNat < UInt32.size ∧ n.toNat < UInt32.size := by
    simp only [UInt32.size]
    omega
  rw [UInt32.le_iff_toNat_le, UInt32.toNat_ofNat_of_lt' hlt.1, UInt32.toNat_ofNat_of_lt' hlt.2]
  omega

theorem Align.isSome_ofIndex?_iff (n : Int) : (Align.ofIndex? n).isSome = true ↔ 0 ≤ n ∧ n ≤ 2 := by
  constructor
  · intro h
    unfold ofIndex? at h
    split at h <;> simp at h ⊢
  · intro h
    obtain rfl | rfl | rfl : n = 0 ∨ n = 1 ∨ n = 2 := by omega
    all_goals rfl

theorem Baseline.isSome_ofIndex?_iff (n : Int) :
    (Baseline.ofIndex? n).isSome = true ↔ 0 ≤ n ∧ n ≤ 3 := by
  constructor
  · intro h
    unfold ofIndex? at h
    split at h <;> simp at h ⊢
  · intro h
    obtain rfl | rfl | rfl | rfl : n = 0 ∨ n = 1 ∨ n = 2 ∨ n = 3 := by omega
    all_goals rfl

namespace Setting

theorem yields_read_timeAnim :
    Yields (read o line .timeAnim : Except Fault (Setting α)) (fun s => s.refusal = none) ↔
      line.Admitted α "time_anim" := by
  have hread : Yields (read o line .timeAnim : Except Fault (Setting α)) (fun s => s.refusal = none) ↔
      ∃ m, line.whole 0 = .ok (some m) ∧ 0 ≤ m ∧ (1 < line.tokens.length →
        ∃ n, line.whole 1 = .ok (some n) ∧ 0 ≤ n ∧ UInt32.ofNat m.toNat ≤ UInt32.ofNat n.toNat) := by
    simp [read, refusal, yields_ite, Line.yields_requireMillis_iff, Line.yields_natural_iff]
  have hmeets : line.Meets α { required := [.atLeast 0], optional := [.notBelow 0] } ↔
      (∃ m, line.whole 0 = .ok (some m) ∧ 0 ≤ m) ∧ (1 < line.tokens.length →
        ∃ n m, line.whole 1 = .ok (some n) ∧ line.whole 0 = .ok (some m) ∧ m ≤ n) := by
    simp [Line.Meets, Line.Fits]
  -- the bounds are compared as 32-bit words, which hold every whole number that is not negative
  have horder : ∀ m n, line.whole 0 = .ok (some m) → line.whole 1 = .ok (some n) → 0 ≤ m → 0 ≤ n →
      (UInt32.ofNat m.toNat ≤ UInt32.ofNat n.toNat ↔ m ≤ n) := fun m n hm hn =>
    millis_le_iff (Line.isWhole_of_whole hm) (Line.isWhole_of_whole hn)
  rw [Line.admitted_iff α rfl, hread, hmeets]
  constructor
  · rintro ⟨m, hm, hm0, hrest⟩
    refine ⟨⟨m, hm, hm0⟩, fun hlen => ?_⟩
    obtain ⟨n, hn, hn0, hle⟩ := hrest hlen
    exact ⟨n, m, hn, hm, (horder m n hm hn hm0 hn0).1 hle⟩
  · rintro ⟨⟨m, hm, hm0⟩, hrest⟩
    refine ⟨m, hm, hm0, fun hlen => ?_⟩
    obtain ⟨n, m', hn, hm', hle⟩ := hrest hlen
    cases hm.symm.trans hm'
    have hn0 := Int.le_trans hm0 hle
    exact ⟨n, hn, hn0, (horder m n hm hn hm0 hn0).2 hle⟩

theorem yields_read_next :
    Yields (read o line .next : Except Fault (Setting α)) (fun s => s.refusal = none) ↔
      line.Admitted α "next" := by
  by_cases heven : line.tokens.length % 2 = 0
  · have hs : signature "next" line.tokens.length =
        some { required := List.replicate line.tokens.length .relative } := if_pos heven
    rw [Line.admitted_iff α hs]
    simp [read, refusal, Line.yields_requirePointers α o.pointer heven, Line.Meets,
      List.getElem?_replicate]
  · have hs : signature "next" line.tokens.length = none := if_neg heven
    simp [read, refusal, Line.requirePointers, heven, Line.Admitted, hs]

theorem yields_read_text :
    Yields (read o line .text : Except Fault (Setting α)) (fun s => s.refusal = none) ↔
      line.Admitted α "text" := by
  rw [Line.admitted_iff α rfl]
  simp only [read, yields_bind]
  have h2 : (0 : Int) ≤ 2 := by decide
  have h3 : (0 : Int) ≤ 3 := by decide
  refine Iff.trans (b := Yields (line.requireQuoted 0) fun _ => Yields (line.wholeOr 1 0) fun align =>
    Yields (line.wholeOr 2 0) fun baseline =>
      (0 ≤ align ∧ align ≤ 2) ∧ 0 ≤ baseline ∧ baseline ≤ 3) ?_ ?_
  · refine yields_congr fun content => yields_congr fun align => yields_congr fun baseline => ?_
    rw [← Align.isSome_ofIndex?_iff, ← Baseline.isSome_ofIndex?_iff]
    cases Align.ofIndex? align <;> cases Baseline.ofIndex? baseline <;> simp [refusal]
  · simp [Line.yields_requireQuoted α, Line.yields_wholeOr_upTo α h2, Line.yields_wholeOr_upTo α h3,
      Line.Meets]

theorem yields_read (k : PropertyKind) :
    Yields (read o line k : Except Fault (Setting α)) (fun s => s.refusal = none) ↔
      line.Admitted α k.name := by
  cases k with
  | pos =>
    rw [Line.admitted_iff α rfl]
    simp [read, refusal, Line.yields_requireWholes α, Line.Meets]
  | time =>
    rw [Line.admitted_iff α rfl]
    simp [read, refusal, Line.yields_requireMillis α, Line.yields_natural α, Line.Meets]
  | timeAnim => exact yields_read_timeAnim o line
  | wait =>
    rw [Line.admitted_iff α rfl]
    simp [read, refusal, Line.yields_requireMillis α, Line.yields_relativeOr α, Line.yields_layer α,
      Line.Meets]
  | next => exact yields_read_next o line
  | size =>
    rw [Line.admitted_iff α rfl]
    simp [read, refusal, Line.yields_requireNatural α, Line.Meets]
  | clip =>
    rw [Line.admitted_iff α rfl]
    simp [read, refusal, yields_ite, Line.yields_requireWholes_atLeast α, Line.Meets]
  | angle =>
    rw [Line.admitted_iff α rfl]
    simp [read, refusal, Line.yields_requireScalar, Line.Meets]
  | repetition =>
    rw [Line.admitted_iff α rfl]
    simp [read, refusal, yields_ite, Line.yields_requireWholes_atLeast α, Line.Meets]
  | interval =>
    rw [Line.admitted_iff α rfl]
    simp [read, refusal, Line.yields_requireWholes α, Line.yields_wholeOr α, Line.Meets]
  | opacity =>
    rw [Line.admitted_iff α rfl]
    simp [read, refusal, Line.requireScalar, Line.yields_present, Line.Meets, Line.Fits, Scalar.inUnit]
  | text => exact yields_read_text o line
  | font =>
    rw [Line.admitted_iff α rfl]
    simp [read, refusal, yields_ite, Line.yields_requireWhole_atLeast α, Line.yields_switchOr α,
      Line.yields_quotedOr α, Line.Meets]
  | color =>
    rw [Line.admitted_iff α rfl]
    simp [read, refusal, Line.yields_requireChannel α, Line.Meets]

end Setting

theorem Directive.yields_readAs (s : Subject) :
    Yields (readAs o line s : Except Fault (Directive α)) (fun d => d.refusal = none) ↔
      line.Admitted α s.name := by
  cases s with
  | fill => exact yields_map.trans (Setting.yields_readFill line)
  | property k => exact yields_map.trans (Setting.yields_read o line k)
  | motion k =>
    refine yields_map.trans ((yields_congr fun m => ?_).trans (Motion.yields_read line k))
    simp [refusal]
  | acceleration k =>
    refine yields_map.trans ((yields_congr fun a => ?_).trans (Acceleration.yields_read line k))
    simp [refusal]

theorem Directive.yields_ofLine :
    Yields (ofLine o line : Except Fault (Directive α)) (fun d => d.refusal = none) ↔
      line.Admitted α line.name := by
  rw [ofLine, yields_bind]
  simp only [yields_readAs]
  constructor
  · rintro ⟨s, hs, ha⟩
    rwa [Subject.name_of_ofName hs] at ha
  · intro ha
    have ⟨_, hsig, _⟩ := ha
    obtain ⟨s, hs⟩ := ofName_of_signature hsig
    rw [← Subject.name_of_ofName hs] at ha
    exact ⟨s, hs, ha⟩

/-! ### Whole lines -/

namespace Picture

theorem exists_obeyed_iff (text : String) :
    (∃ d : Directive α, Directive.obeyed o text = .ok d) ↔
      ∃ line, Line.parse text = .ok line ∧ line.Admitted α line.name := by
  have hobeyed : Yields (Directive.obeyed (α := α) o text) (fun _ => True) ↔
      Yields (Line.parse text) fun line => line.Admitted α line.name := by
    rw [Directive.yields_obeyed, Directive.ofText, yields_bind]
    exact yields_congr fun line => Directive.yields_ofLine o line
  simpa [Yields] using hobeyed

/-- A picture that can come about accepts a text exactly if it is a line, its name has a signature, and
its tokens meet it: those that have to be present are there, and each that is there fits its cell.  In
particular a token that is present and does not fit makes the line fail. -/
theorem accepts_iff {p : Picture α} (h : Reachable p) (text : String) :
    ((∃ q, p.readLine text = .ok q) ↔
      ∃ line s, Line.parse text = .ok line ∧ signature line.name line.tokens.length = some s ∧
        ∀ i c, s.cells[i]? = some c → i < s.required.length ∨ i < line.tokens.length →
          line.Fits α i c) ∧
    ∀ line s i c, Line.parse text = .ok line → signature line.name line.tokens.length = some s →
      s.cells[i]? = some c → i < line.tokens.length → ¬ line.Fits α i c →
      ∃ f, p.readLine text = .error f := by
  have hiff : (∃ q, p.readLine text = .ok q) ↔
      ∃ line, Line.parse text = .ok line ∧ line.Admitted α line.name := by
    rw [← exists_obeyed_iff p.origin, readLine_eq h.clamped]
    cases Directive.obeyed (α := α) p.origin text <;> simp [Except.map]
  refine ⟨hiff.trans ?_, fun line s i c hl hs hc hi hn => ?_⟩
  · simp only [Line.Admitted, Line.Meets, exists_and_left]
  · cases hr : p.readLine text with
    | error f => exact ⟨f, rfl⟩
    | ok q =>
      obtain ⟨line', hl', s', hs', hm⟩ := hiff.1 ⟨q, hr⟩
      cases hl.symm.trans hl'
      cases hs.symm.trans hs'
      exact absurd (hm i c hc (Or.inr hi)) hn

/-- The third token of a font is optional, and has to be a switch where there is one. -/
theorem font_accepted_unless_unreadable :
    (∃ q, (initial {} {} : Picture Float).readLine "font=16,1" = .ok q) ∧
      ∃ f, (initial {} {} : Picture Float).readLine "font=16,1,x" = .error f := by
  constructor
  · refine (accepts_iff (.initial {} {}) "font=16,1").1.2
      ⟨⟨"font", ["16", "1"]⟩, _, by decide +kernel, rfl, ?_⟩
    simp only [Signature.cells, List.cons_append, List.nil_append, Line.forall_cells_cons]
    have hsize : Line.Fits Float ⟨"font", ["16", "1"]⟩ 0 (.atLeast 1) := ⟨16, by decide +kernel⟩
    have hbold : Line.Fits Float ⟨"font", ["16", "1"]⟩ 1 .switch := ⟨true, by decide +kernel⟩
    simp [hsize, hbold]
  · refine (accepts_iff (.initial {} {}) "font=16,1,x").2 ⟨"font", ["16", "1", "x"]⟩ _ 2 .switch
      (by decide +kernel) rfl rfl (by decide) ?_
    rintro ⟨b, hb⟩
    have hx : Line.switch ⟨"font", ["16", "1", "x"]⟩ 2 = .error (.unreadable "font" 2 "x" .switch) := by
      decide +kernel
    rw [hx] at hb
    cases hb

end Picture

end Overlay

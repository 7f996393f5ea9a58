import Overlay.Motion
import Overlay.Proofs.Outcome

/-!
# Cells

What a line asks of a token is a cell: the accessor that has to be able to read it, and the range its
value has to lie in.  A signature lists the cells of a line, those of tokens that have to be present
before those of tokens that may be missing.  A token that is present has to fit its cell in either case
(`Line.Meets`), and tokens beyond the cells are not looked at.  The lemmas say of each reader of a line
when it yields a value, in terms of the accessor behind it.
-/

namespace Overlay

/-- What is asked of a token. -/
inductive Cell
  | whole
  /-- A whole number that is at least `bound`. -/
  | atLeast (bound : Int)
  /-- A whole number that is at least the one at `index`. -/
  | notBelow (index : Nat)
  /-- A whole number from zero to `bound`. -/
  | upTo (bound : Int)
  | real
  /-- A real number from zero to one. -/
  | unit
  | switch
  | relative
  | quoted

/-- What is asked of the tokens of a line. -/
structure Signature where
  required : List Cell
  optional : List Cell := []

/-- The cells of all tokens, in order. -/
@[simp] def Signature.cells (s : Signature) : List Cell := s.required ++ s.optional

namespace Line

section

variable (α : Type) [Scalar α] (line : Line)

/-- The token at an index is there and is what the cell asks for. -/
def Fits (i : Nat) : Cell → Prop
  | .whole => ∃ n, line.whole i = .ok (some n)
  | .atLeast bound => ∃ n, line.whole i = .ok (some n) ∧ bound ≤ n
  | .notBelow index => ∃ n m, line.whole i = .ok (some n) ∧ line.whole index = .ok (some m) ∧ m ≤ n
  | .upTo bound => ∃ n, line.whole i = .ok (some n) ∧ 0 ≤ n ∧ n ≤ bound
  | .real => ∃ x : α, line.scalar i = .ok (some x)
  | .unit => ∃ x : α, line.scalar i = .ok (some x) ∧ Scalar.ofInt 0 ≤ x ∧ x ≤ Scalar.ofInt 1
  | .switch => ∃ b, line.switch i = .ok (some b)
  | .relative => ∃ r, line.relative i = .ok (some r)
  | .quoted => ∃ s, line.quoted i = .ok (some s)

/-- Every token that has to be present, and every other one that is, fits its cell. -/
def Meets (s : Signature) : Prop :=
  ∀ i c, s.cells[i]? = some c → i < s.required.length ∨ i < line.tokens.length → line.Fits α i c

end

@[simp] theorem forall_cells_cons {c : Cell} {cs : List Cell} {P : Nat → Cell → Prop} :
    (∀ i d, (c :: cs)[i]? = some d → P i d) ↔ P 0 c ∧ ∀ i d, cs[i]? = some d → P (i + 1) d := by
  constructor
  · exact fun h => ⟨h 0 c rfl, fun i d hd => h (i + 1) d hd⟩
  · rintro ⟨h0, h⟩ (_ | i) d hd
    · obtain rfl := Option.some.inj hd
      exact h0
    · exact h i d hd

/-! ### Readers -/

variable {α β : Type} [Scalar α] {line : Line} {i : Nat}

theorem read_eq_none_iff {expected : Expected} {reader : List Char → Option β} :
    line.read expected reader i = .ok none ↔ line.tokens.length ≤ i := by
  unfold read token?
  cases h : line.tokens[i]? with
  | none => simpa using h
  | some token =>
    have hlt := (List.getElem?_eq_some_iff.1 h).1
    cases e : reader token.toList <;> simp [e, hlt]

theorem whole_eq_none_iff : line.whole i = .ok none ↔ line.tokens.length ≤ i := read_eq_none_iff

theorem switch_eq_none_iff : line.switch i = .ok none ↔ line.tokens.length ≤ i := read_eq_none_iff

theorem relative_eq_none_iff : line.relative i = .ok none ↔ line.tokens.length ≤ i := read_eq_none_iff

theorem map_eq_none_iff {γ : Type} {x : Except Fault (Option β)} {f : β → γ} :
    x.map (Option.map f) = .ok none ↔ x = .ok none := by
  rcases x with f | (_ | b) <;> simp [Except.map]

theorem scalar_eq_none_iff : (line.scalar i : Except Fault (Option α)) = .ok none ↔
    line.tokens.length ≤ i :=
  map_eq_none_iff.trans read_eq_none_iff

theorem quoted_eq_none_iff : line.quoted i = .ok none ↔ line.tokens.length ≤ i := by
  unfold quoted token?
  cases h : line.tokens[i]? with
  | none => simpa using h
  | some token =>
    have hlt := (List.getElem?_eq_some_iff.1 h).1
    cases e : unquote? token.toList <;> simp [e, hlt]

/-- A token that has to be present. -/
theorem yields_present {x : Except Fault (Option β)} {P : β → Prop} :
    Yields (line.present i x) P ↔ ∃ b, x = .ok (some b) ∧ P b := by
  rcases x with f | (_ | b) <;> simp [present]

theorem yields_present_const {x : Except Fault (Option β)} {q : Prop} :
    Yields (line.present i x) (fun _ => q) ↔ (∃ b, x = .ok (some b)) ∧ q := by
  rw [yields_const, yields_present]
  simp only [and_true]

/-- A token that may be missing. -/
theorem yields_option {x : Except Fault (Option β)} (hx : x = .ok none ↔ line.tokens.length ≤ i)
    {P : Option β → Prop} :
    Yields x P ↔ (i < line.tokens.length → ∃ b, x = .ok (some b) ∧ P (some b)) ∧
      (line.tokens.length ≤ i → P none) := by
  rw [← Nat.not_le, ← hx]
  rcases x with f | (_ | b) <;> simp

/-- A token with a default. -/
theorem yields_orElse {x : Except Fault (Option β)} (hx : x = .ok none ↔ line.tokens.length ≤ i)
    {fallback : β} {P : β → Prop} :
    Yields (orElse fallback x) P ↔ (i < line.tokens.length → ∃ b, x = .ok (some b) ∧ P b) ∧
      (line.tokens.length ≤ i → P fallback) := by
  rw [← Nat.not_le, ← hx]
  rcases x with f | (_ | b) <;> simp [orElse]

theorem yields_orElse_const {x : Except Fault (Option β)} (hx : x = .ok none ↔ line.tokens.length ≤ i)
    {fallback : β} {q : Prop} : Yields (orElse fallback x) (fun _ => q) ↔
      (i < line.tokens.length → ∃ b, x = .ok (some b)) ∧ q := by
  rw [yields_const, yields_orElse hx]
  simp only [and_true, implies_true]

/-! ### Readers and cells

For a reader whose value decides nothing further on, whether it yields one is whether the token fits a
cell; the rest of the line comes beside it.
-/

section Fits

variable (α) {q : Prop}

theorem yields_requireWhole : Yields (line.requireWhole i) (fun _ => q) ↔ line.Fits α i .whole ∧ q :=
  yields_present_const

theorem yields_requireWhole_atLeast {bound : Int} :
    Yields (line.requireWhole i) (fun n => bound ≤ n ∧ q) ↔ line.Fits α i (.atLeast bound) ∧ q := by
  rw [yields_and_const, requireWhole, yields_present, Fits]

theorem yields_notNegative {n : Int} {P : Int → Prop} :
    Yields (line.notNegative i n) P ↔ 0 ≤ n ∧ P n := by
  unfold notNegative
  split <;> rename_i h
  · simp [Int.not_le.2 h]
  · simp [Int.not_lt.1 h]

theorem yields_requireNatural :
    Yields (line.requireNatural i) (fun _ => q) ↔ line.Fits α i (.atLeast 0) ∧ q := by
  simp only [requireNatural, yields_bind, yields_notNegative, yields_requireWhole_atLeast α]

theorem yields_requireMillis_iff {P : Millis → Prop} : Yields (line.requireMillis i) P ↔
    ∃ n, line.whole i = .ok (some n) ∧ 0 ≤ n ∧ P (.ofNat n.toNat) := by
  simp only [requireMillis, requireNatural, yields_bind, yields_pure, yields_notNegative, requireWhole,
    yields_present]

theorem yields_requireMillis :
    Yields (line.requireMillis i) (fun _ => q) ↔ line.Fits α i (.atLeast 0) ∧ q := by
  simp only [requireMillis, yields_bind, yields_pure, yields_requireNatural α]

theorem yields_requireChannel :
    Yields (line.requireChannel i) (fun _ => q) ↔ line.Fits α i (.upTo 255) ∧ q := by
  have h : ∀ n : Int, Yields (if 0 ≤ n ∧ n ≤ 255 then pure (UInt8.ofNat n.toNat)
      else throw (.refused line.name (.channel n))) (fun _ => q) ↔ (0 ≤ n ∧ n ≤ 255) ∧ q := by
    intro n
    split <;> rename_i hn <;> simp [hn]
  simp only [requireChannel, yields_bind, h, yields_and_const]
  rw [requireWhole, yields_present, Fits]

theorem yields_requireSwitch :
    Yields (line.requireSwitch i) (fun _ => q) ↔ line.Fits α i .switch ∧ q :=
  yields_present_const

theorem yields_requireRelative :
    Yields (line.requireRelative i) (fun _ => q) ↔ line.Fits α i .relative ∧ q :=
  yields_present_const

theorem yields_requireQuoted :
    Yields (line.requireQuoted i) (fun _ => q) ↔ line.Fits α i .quoted ∧ q :=
  yields_present_const

theorem yields_requireScalar :
    Yields (line.requireScalar i : Except Fault α) (fun _ => q) ↔ line.Fits α i .real ∧ q :=
  yields_present_const

/-! ### Tokens that may be missing -/

theorem yields_natural_iff {P : Option Int → Prop} : Yields (line.natural i) P ↔
    (i < line.tokens.length → ∃ n, line.whole i = .ok (some n) ∧ 0 ≤ n ∧ P (some n)) ∧
      (line.tokens.length ≤ i → P none) := by
  rw [natural, yields_bind, yields_option whole_eq_none_iff]
  simp only [yields_map, yields_notNegative, yields_pure]

theorem yields_natural : Yields (line.natural i) (fun _ => q) ↔
    (i < line.tokens.length → line.Fits α i (.atLeast 0)) ∧ q := by
  rw [yields_const, yields_natural_iff]
  simp only [Fits, and_true, implies_true]

theorem yields_wholeOr {fallback : Int} : Yields (line.wholeOr i fallback) (fun _ => q) ↔
    (i < line.tokens.length → line.Fits α i .whole) ∧ q :=
  yields_orElse_const whole_eq_none_iff

theorem yields_wholeOr_upTo {bound : Int} (hb : 0 ≤ bound) :
    Yields (line.wholeOr i 0) (fun n => q ∧ 0 ≤ n ∧ n ≤ bound) ↔
      (i < line.tokens.length → line.Fits α i (.upTo bound)) ∧ q := by
  simp only [and_comm (a := q)]
  rw [yields_and_const, wholeOr, yields_orElse whole_eq_none_iff]
  simp [Fits, hb]

theorem yields_switchOr {fallback : Bool} : Yields (line.switchOr i fallback) (fun _ => q) ↔
    (i < line.tokens.length → line.Fits α i .switch) ∧ q :=
  yields_orElse_const switch_eq_none_iff

theorem yields_relativeOr {fallback : Relative} : Yields (line.relativeOr i fallback) (fun _ => q) ↔
    (i < line.tokens.length → line.Fits α i .relative) ∧ q :=
  yields_orElse_const relative_eq_none_iff

theorem yields_quotedOr {fallback : String} : Yields (line.quotedOr i fallback) (fun _ => q) ↔
    (i < line.tokens.length → line.Fits α i .quoted) ∧ q :=
  yields_orElse_const quoted_eq_none_iff

theorem yields_scalarOr {fallback : α} : Yields (line.scalarOr i fallback) (fun _ => q) ↔
    (i < line.tokens.length → line.Fits α i .real) ∧ q :=
  yields_orElse_const scalar_eq_none_iff

theorem yields_layer : Yields (line.layer i) (fun _ => q) ↔
    (i < line.tokens.length → line.Fits α i .switch) ∧ q := by
  rw [layer, yields_exceptMap, yields_const, yields_option switch_eq_none_iff]
  simp only [Fits, and_true, implies_true]

/-! ### Several tokens -/

theorem yields_requireWholes : Yields (line.requireWholes i) (fun _ => q) ↔
    line.Fits α i .whole ∧ line.Fits α (i + 1) .whole ∧ q := by
  simp only [requireWholes, yields_bind, yields_pure, yields_requireWhole α]

theorem yields_requireWholes_atLeast {bound : Int} :
    Yields (line.requireWholes i) (fun v => bound ≤ v.x ∧ bound ≤ v.y) ↔
      line.Fits α i (.atLeast bound) ∧ line.Fits α (i + 1) (.atLeast bound) := by
  have hy : ∀ x : Int, Yields (line.requireWhole (i + 1)) (fun y => bound ≤ x ∧ bound ≤ y) ↔
      bound ≤ x ∧ line.Fits α (i + 1) (.atLeast bound) := by
    intro x
    simp only [and_comm (a := bound ≤ x)]
    exact yields_requireWhole_atLeast α
  simp only [requireWholes, yields_bind, yields_pure, hy, yields_requireWhole_atLeast α]

theorem yields_mapM {γ : Type} {f : γ → Except Fault β} {cs : List γ} :
    Yields (cs.mapM f) (fun _ => True) ↔ ∀ c ∈ cs, Yields (f c) fun _ => True := by
  induction cs with
  | nil => simp
  | cons c cs ih =>
    rw [List.mapM_cons]
    simp only [yields_bind, yields_pure, ih, List.mem_cons, forall_eq_or_imp]
    exact yields_const

/-- Tokens in pairs are all tokens, where their number is even. -/
theorem yields_requirePointers (own : Pointer) (heven : line.tokens.length % 2 = 0) :
    Yields (line.requirePointers own) (fun _ => True) ↔
      ∀ i, i < line.tokens.length → line.Fits α i .relative := by
  simp only [requirePointers, if_pos heven, yields_mapM, List.mem_range, yields_bind, yields_pure,
    yields_requireRelative α, and_true]
  constructor
  · intro h i hi
    obtain ⟨hfirst, hsecond⟩ := h (i / 2) (by omega)
    rcases Nat.mod_two_eq_zero_or_one i with hm | hm
    · rwa [show 2 * (i / 2) = i by omega] at hfirst
    · rwa [show 2 * (i / 2) + 1 = i by omega] at hsecond
  · intro h k hk
    exact ⟨h (2 * k) (by omega), h (2 * k + 1) (by omega)⟩

theorem yields_requireVec : Yields (line.requireVec : Except Fault (Vec α)) (fun _ => q) ↔
    line.Fits α 0 .real ∧ line.Fits α 1 .real ∧ q := by
  simp only [requireVec, yields_bind, yields_pure, yields_requireScalar]

end Fits

end Line

end Overlay

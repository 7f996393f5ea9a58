import Mathlib.Data.List.Induction
import Mathlib.Data.Nat.Digits.Defs
import Overlay.Proofs.Script.Signs

/-!
# Whole numbers of any length

A token is a whole number exactly if a digit follows its blanks and at most one sign (`BeginsWithWhole`).
The number is what all its digits say in base ten, however many there are, with the sign
(`WholeText.number`); it is clamped, but nothing before that is cut off: `whole_exact`.
-/

namespace Overlay

open Text

/-! ### Runs of digits in base ten -/

/-- The digits of a run as numbers, the units first. -/
def unitsFirst (ds : List Char) : List ℕ := (ds.map fun c => c.toNat - '0'.toNat).reverse

theorem unitsFirst_append (ds es : List Char) :
    unitsFirst (ds ++ es) = unitsFirst es ++ unitsFirst ds := by
  simp [unitsFirst]

theorem length_unitsFirst (ds : List Char) : (unitsFirst ds).length = ds.length := by
  simp [unitsFirst]

theorem digitsValue_eq_ofDigits (ds : List Char) : digitsValue ds = Nat.ofDigits 10 (unitsFirst ds) := by
  induction ds using List.reverseRecOn with
  | nil => rfl
  | append_singleton ds c ih =>
    rw [digitsValue_concat, ih, unitsFirst_append, Nat.ofDigits_append]
    simp [unitsFirst, Nat.add_comm]

theorem digitsValue_append (ds es : List Char) :
    digitsValue (ds ++ es) = digitsValue ds * 10 ^ es.length + digitsValue es := by
  simp only [digitsValue_eq_ofDigits, unitsFirst_append, Nat.ofDigits_append, length_unitsFirst]
  rw [Nat.add_comm, Nat.mul_comm]

/-! ### What a token says -/

/-- After blanks and at most one sign there is an ASCII digit. -/
def BeginsWithWhole (cs : List Char) : Prop :=
  ∃ (blanks : List Char) (s : Option Sign) (c : Char) (rest : List Char),
    cs = blanks ++ (signChars s ++ c :: rest) ∧ (∀ b ∈ blanks, isBlank b = true) ∧ c.isDigit = true

/-- The number that all the digits say in base ten, with the sign. -/
def WholeText.number (t : WholeText) : ℤ := withSign t.sign (Nat.ofDigits 10 (unitsFirst t.digits))

theorem WholeText.value_eq_clampWhole_number (t : WholeText) : t.value = clampWhole t.number := by
  rw [value, number, digitsValue_eq_ofDigits]

theorem WholeText.beginsWithWhole_chars (t : WholeText) : BeginsWithWhole t.chars := by
  obtain ⟨c, rest, hc, hdigit⟩ := t.exists_digit
  refine ⟨t.blanks, t.sign, c, rest, ?_, t.isBlank_of_mem, hdigit⟩
  rw [chars, hc]

/-- The digit is the first of all digits that are there. -/
theorem BeginsWithWhole.exists_wholeText {cs : List Char} (h : BeginsWithWhole cs) :
    ∃ t : WholeText, t.chars = cs := by
  obtain ⟨blanks, s, c, rest, rfl, hblanks, hdigit⟩ := h
  refine ⟨{ blanks
            sign := s
            digits := c :: rest.takeWhile Char.isDigit
            rest := rest.dropWhile Char.isDigit
            isBlank_of_mem := hblanks
            isDigit_of_mem := ?_
            digits_ne_nil := List.cons_ne_nil _ _
            isDigit_of_head? := ?_ }, ?_⟩
  · intro d hd
    rcases List.mem_cons.1 hd with rfl | hd
    · exact hdigit
    · exact List.mem_takeWhile_imp hd
  · intro d hd
    have hstop := List.head?_dropWhile_not Char.isDigit rest
    rw [hd] at hstop
    simpa using hstop
  · rw [WholeText.chars, List.cons_append, List.takeWhile_append_dropWhile]

/-! ### Readers -/

namespace Line

variable {line : Line} {i : Nat} {token : String}

theorem read_eq_ok_iff {β : Type} {expected : Expected} {reader : List Char → Option β} {b : β}
    (h : line.token? i = some token) :
    line.read expected reader i = .ok (some b) ↔ reader token.toList = some b := by
  simp only [read, h]
  cases reader token.toList <;> simp

theorem read_of_unreadable {β : Type} {expected : Expected} {reader : List Char → Option β}
    (h : line.token? i = some token) (hnone : reader token.toList = none) :
    line.read expected reader i = .error (.unreadable line.name i token expected) := by
  simp only [read, h, hnone]

theorem whole_eq_ok_iff (h : line.token? i = some token) {n : ℤ} :
    line.whole i = .ok (some n) ↔ ∃ t : WholeText, t.chars = token.toList ∧ clampWhole t.number = n := by
  unfold whole
  simp only [read_eq_ok_iff h, readWhole?_eq_some_iff, WholeText.value_eq_clampWhole_number]

theorem exists_whole_iff (h : line.token? i = some token) :
    (∃ n, line.whole i = .ok (some n)) ↔ BeginsWithWhole token.toList := by
  constructor
  · rintro ⟨n, hn⟩
    obtain ⟨t, ht, -⟩ := (whole_eq_ok_iff h).1 hn
    rw [← ht]
    exact t.beginsWithWhole_chars
  · intro hbegins
    obtain ⟨t, ht⟩ := hbegins.exists_wholeText
    exact ⟨_, (whole_eq_ok_iff h).2 ⟨t, ht, rfl⟩⟩

theorem whole_of_not_begins (h : line.token? i = some token) (hno : ¬ BeginsWithWhole token.toList) :
    line.whole i = .error (.unreadable line.name i token .whole) := by
  apply read_of_unreadable h
  apply Option.eq_none_iff_forall_ne_some.2
  intro n hn
  obtain ⟨t, ht, -⟩ := readWhole?_eq_some_iff.1 hn
  rw [← ht] at hno
  exact hno t.beginsWithWhole_chars

/-- A token of any length is read exactly if a digit follows its blanks and at most one sign.  Its value is
the number that the whole run of digits says, with the sign, clamped, whatever comes after the run.  Every
other token is unreadable, and the fault holds the name of the line, the index and the token as it stands. -/
theorem whole_exact (h : line.token? i = some token) :
    ((∃ n, line.whole i = .ok (some n)) ↔ BeginsWithWhole token.toList) ∧
    (∀ n, line.whole i = .ok (some n) ↔
      ∃ t : WholeText, t.chars = token.toList ∧ clampWhole t.number = n) ∧
    (¬ BeginsWithWhole token.toList → line.whole i = .error (.unreadable line.name i token .whole)) :=
  ⟨exists_whole_iff h, fun _ => whole_eq_ok_iff h, whole_of_not_begins h⟩

/-- One below the least whole number, with a minus, zeros in front and a unit behind. -/
def longBelowLeast : WholeText where
  blanks := [' ', '\u2003']
  sign := some .minus
  digits := "0000000000000000000000000000002147483649".toList
  rest := ['p', 'x']
  isBlank_of_mem := List.all_eq_true.1 (by decide)
  isDigit_of_mem := List.all_eq_true.1 (by decide +kernel)
  digits_ne_nil := by decide +kernel
  isDigit_of_head? := by
    intro c hc
    obtain rfl : 'p' = c := Option.some.inj hc
    rfl

/-- A number beyond the range is read as the end of the range; a sign alone is not read. -/
theorem whole_below_least :
    ∃ line : Line, line.token? 0 = some " \u2003-0000000000000000000000000000002147483649px" ∧
      line.token? 1 = some "- 5" ∧ longBelowLeast.number = -2147483649 ∧
      line.whole 0 = .ok (some (-2147483648)) ∧
      line.whole 1 = .error (.unreadable line.name 1 "- 5" .whole) := by
  obtain ⟨line, hline⟩ : ∃ line : Line, line =
      ⟨"pos", [" \u2003-0000000000000000000000000000002147483649px", "- 5"]⟩ := ⟨_, rfl⟩
  have hfirst : line.token? 0 = some " \u2003-0000000000000000000000000000002147483649px" := by
    rw [hline]
    rfl
  have hsecond : line.token? 1 = some "- 5" := by
    rw [hline]
    rfl
  have hchars : longBelowLeast.chars =
      " \u2003-0000000000000000000000000000002147483649px".toList := by decide +kernel
  have hnumber : longBelowLeast.number = -2147483649 := by decide +kernel
  have hnone : readWhole? "- 5".toList = none := by decide +kernel
  refine ⟨line, hfirst, hsecond, hnumber, ?_, ?_⟩
  · refine ((whole_exact hfirst).2.1 _).2 ⟨longBelowLeast, hchars, ?_⟩
    rw [hnumber]
    decide
  · refine (whole_exact hsecond).2.2 fun hbegins => ?_
    obtain ⟨t, ht⟩ := hbegins.exists_wholeText
    rw [← ht, t.readWhole?_chars] at hnone
    cases hnone

end Line

end Overlay

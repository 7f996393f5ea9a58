import Overlay.Proofs.Script.Wholes

/-!
# The spelling of real numbers

A real number is spelled by at most one sign, digits with at most one point among them, and perhaps an
exponent (`RealText`).  The digits may be those of one script or of all: what is said here holds for any
class of decimal digits.

Of all spellings a text begins with, one is the longest (`exists_isLongest`).  Which one can be seen from
what follows it: no digit, no point that it lacks, and no exponent that it lacks (`isLongest_iff`).
-/

namespace Overlay

open Text

/-! ### Characters -/

/-- The letter before an exponent. -/
def IsMark (c : Char) : Prop := c = 'e' ∨ c = 'E'

/-- A class of digits, of one script or of several. -/
def IsDigitClass (p : Char → Bool) : Prop := ∀ c, p c = true → isDecimalDigit c = true

/-- The text does not begin with a character of the class. -/
def BeginsOutside (p : Char → Bool) (cs : List Char) : Prop := ∀ c, cs.head? = some c → p c = false

theorem IsDigitClass.eq_false {p : Char → Bool} (hp : IsDigitClass p) {c : Char}
    (h : isDecimalDigit c = false) : p c = false := by
  by_contra hc
  rw [hp c (Bool.eq_true_of_not_eq_false hc)] at h
  cases h

theorem not_isDecimalDigit_of_isMark {c : Char} (h : IsMark c) : isDecimalDigit c = false := by
  rcases h with rfl | rfl <;> decide

theorem not_isMark_of_isDecimalDigit {c : Char} (h : isDecimalDigit c = true) : ¬ IsMark c := by
  intro hmark
  rw [not_isDecimalDigit_of_isMark hmark] at h
  cases h

theorem not_isMark_point : ¬ IsMark '.' := by
  unfold IsMark
  decide

theorem Sign.not_isDecimalDigit_char (s : Sign) : isDecimalDigit s.char = false := by
  cases s <;> decide

theorem unsigned_of_isDecimalDigit {c : Char} (cs : List Char) (h : isDecimalDigit c = true) :
    Unsigned (c :: cs) := by
  intro s e
  obtain rfl : c = s.char := Option.some.inj e
  rw [s.not_isDecimalDigit_char] at h
  cases h

theorem unsigned_point (cs : List Char) : Unsigned ('.' :: cs) := by
  intro s e
  cases s <;> cases e

theorem signChars_append_inj {s s' : Option Sign} {x y : List Char} (hx : Unsigned x) (hy : Unsigned y)
    (h : signChars s ++ x = signChars s' ++ y) : s = s' ∧ x = y := by
  have hsplit := congrArg splitSign h
  rw [splitSign_signChars fun _ => hx, splitSign_signChars fun _ => hy] at hsplit
  exact Prod.mk.inj hsplit

/-- Two runs at the beginning of one text, where the first is not followed by a character of the class: the
second is the same run, or stops inside the first. -/
theorem run_append_cases {p : Char → Bool} {ds es x y : List Char} (hes : ∀ c ∈ es, p c = true)
    (hx : BeginsOutside p x) (h : ds ++ x = es ++ y) :
    es = ds ∧ x = y ∨ ∃ c cs, ds = es ++ c :: cs ∧ y = c :: (cs ++ x) := by
  rcases List.append_eq_append_iff.1 h with ⟨more, hrun, hrest⟩ | ⟨more, hrun, hrest⟩
  · cases more with
    | nil => exact Or.inl ⟨by simpa using hrun, by simpa using hrest⟩
    | cons c cs =>
      have hin : p c = true := hes c (by simp [hrun])
      have hout : p c = false := hx c (by simp [hrest])
      rw [hin] at hout
      cases hout
  · cases more with
    | nil => exact Or.inl ⟨by simpa using hrun.symm, by simpa using hrest.symm⟩
    | cons c cs => exact Or.inr ⟨c, cs, hrun, hrest⟩

/-! ### Spellings -/

/-- A letter, at most one sign, and digits. -/
structure ExponentText where
  mark : Char
  sign : Option Sign
  digits : List Char
  isMark : IsMark mark
  isDecimalDigit_of_mem : ∀ c ∈ digits, isDecimalDigit c = true
  digits_ne_nil : digits ≠ []

namespace ExponentText

variable (e : ExponentText)

def chars : List Char := e.mark :: (signChars e.sign ++ e.digits)

/-- With a single digit. -/
def ofDigit (mark : Char) (s : Option Sign) (c : Char) (hmark : IsMark mark)
    (hc : isDecimalDigit c = true) : ExponentText where
  mark := mark
  sign := s
  digits := [c]
  isMark := hmark
  isDecimalDigit_of_mem := List.forall_mem_singleton.2 hc
  digits_ne_nil := List.cons_ne_nil _ _

/-- With one more digit. -/
def concat (c : Char) (hc : isDecimalDigit c = true) : ExponentText where
  mark := e.mark
  sign := e.sign
  digits := e.digits ++ [c]
  isMark := e.isMark
  isDecimalDigit_of_mem := List.forall_mem_append.2
    ⟨e.isDecimalDigit_of_mem, List.forall_mem_singleton.2 hc⟩
  digits_ne_nil := by simp

theorem exists_digit : ∃ c cs, e.digits = c :: cs ∧ isDecimalDigit c = true := by
  cases h : e.digits with
  | nil => exact absurd h e.digits_ne_nil
  | cons c cs => exact ⟨c, cs, rfl, e.isDecimalDigit_of_mem c (h ▸ List.mem_cons_self)⟩

theorem unsigned_digits (rest : List Char) : Unsigned (e.digits ++ rest) := by
  obtain ⟨c, cs, hc, hdigit⟩ := e.exists_digit
  rw [hc]
  exact unsigned_of_isDecimalDigit _ hdigit

end ExponentText

/-- At most one sign, then digits with at most one point among or after them or a point followed by digits,
then an exponent or none. -/
structure RealText where
  sign : Option Sign
  whole : List Char
  point : Bool
  fraction : List Char
  exponent : Option ExponentText
  isDecimalDigit_of_mem : ∀ c ∈ whole ++ fraction, isDecimalDigit c = true
  digits_ne_nil : whole ++ fraction ≠ []
  fraction_eq_nil : point = false → fraction = []

namespace RealText

variable (t : RealText)

def exponentChars : List Char := t.exponent.elim [] ExponentText.chars

/-- What follows the digits before the point. -/
def tail : List Char := (if t.point then ['.'] else []) ++ (t.fraction ++ t.exponentChars)

def chars : List Char := signChars t.sign ++ (t.whole ++ t.tail)

def exponentDigits : List Char := t.exponent.elim [] ExponentText.digits

/-- All digits of the spelling are in the class. -/
def Uses (p : Char → Bool) : Prop := ∀ c ∈ t.whole ++ t.fraction ++ t.exponentDigits, p c = true

instance (p : Char → Bool) : Decidable (t.Uses p) := List.decidableBAll _ _

/-- The spelling stands at the beginning of the text, and no spelling in digits of the class that does is
longer. -/
structure IsLongest (p : Char → Bool) (cs : List Char) : Prop where
  uses : t.Uses p
  begins : t.chars <+: cs
  length_le : ∀ u : RealText, u.Uses p → u.chars <+: cs → u.chars.length ≤ t.chars.length

/-- What follows the spelling continues none of its parts. -/
structure Complete (p : Char → Bool) (rest : List Char) : Prop where
  no_digit : BeginsOutside p rest
  no_point : t.exponent = none → t.point = false → ∀ cs, rest ≠ '.' :: cs
  no_exponent : t.exponent = none → ∀ mark s c cs,
    IsMark mark → rest = mark :: (signChars s ++ c :: cs) → p c = false

variable {t} {u : RealText} {p : Char → Bool} {rest rest' : List Char}

theorem exponentChars_eq_nil (h : t.exponent = none) : t.exponentChars = [] := by
  simp [exponentChars, h]

theorem exponentChars_eq_chars {e : ExponentText} (h : t.exponent = some e) :
    t.exponentChars = e.chars := by
  simp [exponentChars, h]

theorem tail_of_point (h : t.point = true) : t.tail = '.' :: (t.fraction ++ t.exponentChars) := by
  simp [tail, h]

theorem tail_of_no_point (h : t.point = false) : t.tail = t.exponentChars := by
  simp [tail, h, t.fraction_eq_nil h]

/-- Digits after at most one sign. -/
def plain (s : Option Sign) (ds : List Char) (h : ∀ c ∈ ds, isDecimalDigit c = true) (hne : ds ≠ []) :
    RealText where
  sign := s
  whole := ds
  point := false
  fraction := []
  exponent := none
  isDecimalDigit_of_mem := by simpa using h
  digits_ne_nil := by simpa using hne
  fraction_eq_nil _ := rfl

theorem chars_plain (s : Option Sign) (ds : List Char) (h : ∀ c ∈ ds, isDecimalDigit c = true)
    (hne : ds ≠ []) : (plain s ds h hne).chars = signChars s ++ ds := by
  simp [chars, plain, tail, exponentChars]

theorem uses_plain (s : Option Sign) {ds : List Char} (h : ∀ c ∈ ds, isDecimalDigit c = true)
    (hne : ds ≠ []) (hp : ∀ c ∈ ds, p c = true) : (plain s ds h hne).Uses p := by
  simpa [Uses, plain, exponentDigits] using hp

theorem chars_append (t : RealText) (rest : List Char) :
    t.chars ++ rest = signChars t.sign ++ (t.whole ++ (t.tail ++ rest)) := by
  simp [chars]

theorem uses_isDecimalDigit (t : RealText) : t.Uses isDecimalDigit := by
  intro c hc
  rcases List.mem_append.1 hc with hc | hc
  · exact t.isDecimalDigit_of_mem c hc
  · unfold exponentDigits at hc
    cases he : t.exponent with
    | none => simp [he] at hc
    | some e =>
      rw [he] at hc
      exact e.isDecimalDigit_of_mem c hc

theorem Uses.whole (h : t.Uses p) : ∀ c ∈ t.whole, p c = true :=
  fun c hc => h c (by simp [hc])

theorem Uses.fraction (h : t.Uses p) : ∀ c ∈ t.fraction, p c = true :=
  fun c hc => h c (by simp [hc])

theorem Uses.exponent (h : t.Uses p) {e : ExponentText} (he : t.exponent = some e) :
    ∀ c ∈ e.digits, p c = true :=
  fun c hc => h c (by simp [exponentDigits, he, hc])

/-- After the sign stands a digit or the point. -/
theorem unsigned_whole (t : RealText) (rest : List Char) : Unsigned (t.whole ++ (t.tail ++ rest)) := by
  cases hw : t.whole with
  | cons c cs => exact unsigned_of_isDecimalDigit _ (t.isDecimalDigit_of_mem c (by simp [hw]))
  | nil =>
    have hpoint : t.point = true := by
      by_contra hno
      exact t.digits_ne_nil (by simp [hw, t.fraction_eq_nil (Bool.eq_false_iff.2 hno)])
    rw [tail_of_point hpoint]
    exact unsigned_point _

/-- Where the text goes on with something else than the letter of an exponent, there is none. -/
theorem exponentChars_eq_nil_of_not_isMark {c : Char} {cs : List Char}
    (h : t.exponentChars ++ rest = c :: cs) (hc : ¬ IsMark c) : t.exponentChars = [] := by
  cases he : t.exponent with
  | none => exact exponentChars_eq_nil he
  | some e =>
    rw [exponentChars_eq_chars he] at h
    obtain rfl : e.mark = c := (List.cons.inj h).1
    exact absurd e.isMark hc

theorem tail_eq_nil_of_isDecimalDigit {c : Char} {cs : List Char} (h : t.tail ++ rest = c :: cs)
    (hc : isDecimalDigit c = true) : t.tail = [] := by
  by_cases hpoint : t.point = true
  · rw [tail_of_point hpoint] at h
    obtain rfl : '.' = c := (List.cons.inj h).1
    exact absurd hc (by decide)
  · rw [tail_of_no_point (Bool.eq_false_iff.2 hpoint)] at h ⊢
    exact exponentChars_eq_nil_of_not_isMark h (not_isMark_of_isDecimalDigit hc)

/-! ### Nothing longer -/

namespace Complete

theorem beginsOutside_exponent (h : t.Complete p rest) (hp : IsDigitClass p) :
    BeginsOutside p (t.exponentChars ++ rest) := by
  cases he : t.exponent with
  | none =>
    rw [exponentChars_eq_nil he]
    exact h.no_digit
  | some e =>
    intro c hc
    rw [exponentChars_eq_chars he] at hc
    obtain rfl : e.mark = c := Option.some.inj hc
    exact hp.eq_false (not_isDecimalDigit_of_isMark e.isMark)

theorem beginsOutside_tail (h : t.Complete p rest) (hp : IsDigitClass p) :
    BeginsOutside p (t.tail ++ rest) := by
  by_cases hpoint : t.point = true
  · intro c hc
    rw [tail_of_point hpoint] at hc
    obtain rfl : '.' = c := Option.some.inj hc
    exact hp.eq_false (by decide)
  · rw [tail_of_no_point (Bool.eq_false_iff.2 hpoint)]
    exact h.beginsOutside_exponent hp

/-- A point that the spelling lacks does not follow the digits either. -/
theorem exponent_ne_point (h : t.Complete p rest) (hpoint : t.point = false) (cs : List Char) :
    t.exponentChars ++ rest ≠ '.' :: cs := by
  intro heq
  cases he : t.exponent with
  | none =>
    rw [exponentChars_eq_nil he] at heq
    exact h.no_point he hpoint cs heq
  | some e =>
    rw [exponentChars_eq_chars he] at heq
    have hmark : e.mark = '.' := (List.cons.inj heq).1
    exact not_isMark_point (hmark ▸ e.isMark)

theorem length_exponentChars_le (h : t.Complete p rest) (hu : u.Uses p)
    (heq : t.exponentChars ++ rest = u.exponentChars ++ rest') :
    u.exponentChars.length ≤ t.exponentChars.length := by
  cases hue : u.exponent with
  | none => simp [exponentChars_eq_nil hue]
  | some e =>
    rw [exponentChars_eq_chars hue] at heq ⊢
    cases hte : t.exponent with
    | none =>
      -- the digits of the second exponent would follow the first text
      obtain ⟨c, cs, hc, -⟩ := e.exists_digit
      have hin : p c = true := hu.exponent hue c (by simp [hc])
      have hout : p c = false := by
        refine h.no_exponent hte e.mark e.sign c (cs ++ rest') e.isMark ?_
        rw [exponentChars_eq_nil hte] at heq
        simpa [ExponentText.chars, hc] using heq
      rw [hin] at hout
      cases hout
    | some f =>
      rw [exponentChars_eq_chars hte] at heq ⊢
      simp only [ExponentText.chars, List.cons_append, List.append_assoc, List.cons.injEq] at heq
      obtain ⟨hsign, hdigits⟩ :=
        signChars_append_inj (f.unsigned_digits rest) (e.unsigned_digits rest') heq.2
      have hlength : e.digits.length ≤ f.digits.length := by
        rcases run_append_cases (hu.exponent hue) h.no_digit hdigits with ⟨hrun, -⟩ | ⟨c, cs, hrun, -⟩
        · rw [hrun]
        · simp [hrun]
      simp only [ExponentText.chars, List.length_cons, List.length_append, hsign]
      omega

theorem length_tail_le (h : t.Complete p rest) (hp : IsDigitClass p) (hu : u.Uses p)
    (heq : t.tail ++ rest = u.tail ++ rest') :
    u.tail.length ≤ t.tail.length := by
  cases ht : t.point <;> cases hpoint : u.point
  · rw [tail_of_no_point ht, tail_of_no_point hpoint] at heq ⊢
    exact h.length_exponentChars_le hu heq
  · rw [tail_of_no_point ht, tail_of_point hpoint] at heq
    exact absurd heq (h.exponent_ne_point ht _)
  · rw [tail_of_point ht, tail_of_no_point hpoint] at heq
    rw [tail_of_no_point hpoint, exponentChars_eq_nil_of_not_isMark heq.symm not_isMark_point]
    exact Nat.zero_le _
  · rw [tail_of_point ht, tail_of_point hpoint] at heq ⊢
    simp only [List.cons_append, List.append_assoc, List.cons.injEq, true_and] at heq
    rcases run_append_cases hu.fraction (h.beginsOutside_exponent hp) heq with
      ⟨hrun, hrest⟩ | ⟨c, cs, hrun, hrest⟩
    · have := h.length_exponentChars_le hu hrest
      simp only [List.length_cons, List.length_append, hrun]
      omega
    · have hdigit : isDecimalDigit c = true := t.isDecimalDigit_of_mem c (by simp [hrun])
      rw [exponentChars_eq_nil_of_not_isMark hrest (not_isMark_of_isDecimalDigit hdigit)]
      simp only [List.length_cons, List.length_append, List.length_nil, hrun]
      omega

theorem length_chars_le (h : t.Complete p rest) (hp : IsDigitClass p) (hu : u.Uses p)
    (heq : t.chars ++ rest = u.chars ++ rest') :
    u.chars.length ≤ t.chars.length := by
  rw [chars_append, chars_append] at heq
  obtain ⟨hsign, hbody⟩ := signChars_append_inj (t.unsigned_whole rest) (u.unsigned_whole rest') heq
  simp only [chars, List.length_append, hsign]
  rcases run_append_cases hu.whole (h.beginsOutside_tail hp) hbody with
    ⟨hrun, hrest⟩ | ⟨c, cs, hrun, hrest⟩
  · have := h.length_tail_le hp hu hrest
    rw [hrun]
    omega
  · have hdigit : isDecimalDigit c = true := t.isDecimalDigit_of_mem c (by simp [hrun])
    rw [tail_eq_nil_of_isDecimalDigit hrest hdigit, hrun]
    simp only [List.length_append, List.length_cons, List.length_nil]
    omega

end Complete

/-! ### Something longer -/

/-- The digits of one spelling are those of another and one more. -/
theorem Uses.of_mem_or (h : t.Uses p) {c : Char} (hc : p c = true)
    (hmem : ∀ d ∈ u.whole ++ u.fraction ++ u.exponentDigits,
      d ∈ t.whole ++ t.fraction ++ t.exponentDigits ∨ d = c) : u.Uses p := by
  intro d hd
  rcases hmem d hd with hd | rfl
  · exact h d hd
  · exact hc

theorem exists_append_whole (hp : IsDigitClass p) (h : t.Uses p) (he : t.exponent = none)
    (hpoint : t.point = false) {c : Char} (hc : p c = true) :
    ∃ u : RealText, u.Uses p ∧ u.chars = t.chars ++ [c] := by
  have hfraction := t.fraction_eq_nil hpoint
  refine ⟨{ t with
      whole := t.whole ++ [c]
      isDecimalDigit_of_mem := ?_
      digits_ne_nil := by simp }, h.of_mem_or hc fun d hd => ?_, ?_⟩
  · intro d hd
    have hmem : d ∈ t.whole ++ t.fraction ∨ d = c := by simpa [hfraction] using hd
    exact hmem.elim (t.isDecimalDigit_of_mem d) fun e => e ▸ hp c hc
  · simpa [exponentDigits, he, hfraction] using hd
  · simp [chars, tail, exponentChars, he, hpoint, hfraction]

theorem exists_append_fraction (hp : IsDigitClass p) (h : t.Uses p) (he : t.exponent = none)
    (hpoint : t.point = true) {c : Char} (hc : p c = true) :
    ∃ u : RealText, u.Uses p ∧ u.chars = t.chars ++ [c] := by
  refine ⟨{ t with
      fraction := t.fraction ++ [c]
      isDecimalDigit_of_mem := ?_
      digits_ne_nil := by simp
      fraction_eq_nil := by simp [hpoint] }, h.of_mem_or hc fun d hd => ?_, ?_⟩
  · intro d hd
    have hmem : d ∈ t.whole ++ t.fraction ∨ d = c := by simpa [or_assoc] using hd
    exact hmem.elim (t.isDecimalDigit_of_mem d) fun e => e ▸ hp c hc
  · simpa [exponentDigits, he, or_assoc] using hd
  · simp [chars, tail, exponentChars, he]

theorem exists_append_point (h : t.Uses p) (he : t.exponent = none) (hpoint : t.point = false) :
    ∃ u : RealText, u.Uses p ∧ u.chars = t.chars ++ ['.'] := by
  refine ⟨{ t with point := true, fraction_eq_nil := by simp }, h, ?_⟩
  simp [chars, tail, exponentChars, he, hpoint, t.fraction_eq_nil hpoint]

theorem exists_append_exponent (hp : IsDigitClass p) (h : t.Uses p) (he : t.exponent = none)
    {mark c : Char} (s : Option Sign) (hmark : IsMark mark) (hc : p c = true) :
    ∃ u : RealText, u.Uses p ∧ u.chars = t.chars ++ (mark :: (signChars s ++ [c])) := by
  refine ⟨{ t with exponent := some (.ofDigit mark s c hmark (hp c hc)) },
    h.of_mem_or hc fun d hd => ?_, ?_⟩
  · simpa [exponentDigits, ExponentText.ofDigit, he, or_assoc] using hd
  · simp [chars, tail, exponentChars, ExponentText.chars, ExponentText.ofDigit, he]

theorem exists_append_exponentDigit (hp : IsDigitClass p) (h : t.Uses p) {e : ExponentText}
    (he : t.exponent = some e) {c : Char} (hc : p c = true) :
    ∃ u : RealText, u.Uses p ∧ u.chars = t.chars ++ [c] := by
  refine ⟨{ t with exponent := some (e.concat c (hp c hc)) }, h.of_mem_or hc fun d hd => ?_, ?_⟩
  · simpa [exponentDigits, ExponentText.concat, he, or_assoc] using hd
  · simp [chars, tail, exponentChars, ExponentText.chars, ExponentText.concat, he]

theorem exists_append_digit (hp : IsDigitClass p) (h : t.Uses p) {c : Char} (hc : p c = true) :
    ∃ u : RealText, u.Uses p ∧ u.chars = t.chars ++ [c] := by
  cases he : t.exponent with
  | some e => exact exists_append_exponentDigit hp h he hc
  | none =>
    cases hpoint : t.point
    · exact exists_append_whole hp h he hpoint hc
    · exact exists_append_fraction hp h he hpoint hc

theorem IsLongest.not_append (h : t.IsLongest p (t.chars ++ rest)) (hu : u.Uses p) {more : List Char}
    (hmore : more ≠ []) (hchars : u.chars = t.chars ++ more) (hrest : rest = more ++ rest') : False := by
  have hle := h.length_le u hu ⟨rest', by rw [hchars, hrest, List.append_assoc]⟩
  have hpos := List.length_pos_iff.2 hmore
  rw [hchars, List.length_append] at hle
  omega

/-- The longest spelling is the one that nothing continues. -/
theorem isLongest_iff (hp : IsDigitClass p) (ht : t.Uses p) :
    t.IsLongest p (t.chars ++ rest) ↔ t.Complete p rest := by
  constructor
  · intro h
    refine ⟨fun c hc => ?_, fun he hpoint cs hrest => ?_, fun he mark s c cs hmark hrest => ?_⟩
    · by_contra hin
      obtain ⟨cs, hrest⟩ := List.head?_eq_some_iff.1 hc
      obtain ⟨u, hu, hchars⟩ := exists_append_digit hp ht (Bool.eq_true_of_not_eq_false hin)
      exact h.not_append hu (List.cons_ne_nil c []) hchars hrest
    · obtain ⟨u, hu, hchars⟩ := exists_append_point ht he hpoint
      exact h.not_append hu (List.cons_ne_nil '.' []) hchars hrest
    · by_contra hin
      obtain ⟨u, hu, hchars⟩ := exists_append_exponent hp ht he s hmark
        (Bool.eq_true_of_not_eq_false hin)
      have hsplit : rest = mark :: (signChars s ++ [c]) ++ cs := by simpa using hrest
      exact h.not_append hu (List.cons_ne_nil mark _) hchars hsplit
  · intro h
    refine ⟨ht, List.prefix_append _ _, fun u hu hbegins => ?_⟩
    obtain ⟨rest', heq⟩ := hbegins
    exact h.length_chars_le hp hu heq.symm

/-- No spelling is longer than the text, so one that it begins with is not exceeded for ever. -/
theorem exists_isLongest {cs : List Char} (hu : u.Uses p) (hbegins : u.chars <+: cs) :
    ∃ t : RealText, t.IsLongest p cs := by
  by_contra hno
  have hlong : ∀ n : ℕ, ∃ v : RealText, v.Uses p ∧ v.chars <+: cs ∧ n ≤ v.chars.length := by
    intro n
    induction n with
    | zero => exact ⟨u, hu, hbegins, Nat.zero_le _⟩
    | succ n ih =>
      obtain ⟨v, hv, hvbegins, hn⟩ := ih
      by_contra hshort
      refine hno ⟨v, hv, hvbegins, fun w hw hwbegins => ?_⟩
      by_contra hlonger
      exact hshort ⟨w, hw, hwbegins, by omega⟩
  obtain ⟨v, -, hvbegins, hlength⟩ := hlong (cs.length + 1)
  have := hvbegins.length_le
  omega

end RealText

end Overlay

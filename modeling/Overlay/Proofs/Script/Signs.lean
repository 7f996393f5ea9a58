import Overlay.Proofs.Script.Tokens
import Overlay.Script.Values

/-!
# Signs of numbers

How a token spells a number.  A whole number is spelled by blanks, at most one sign, a run of digits and
whatever follows (`WholeText`); a relative value by blanks, at most one sign and a whole number
(`RelativeText`).  Exactly what is spelled is read: `readWhole?_eq_some_iff`, `readRelative?_eq_some_iff`.

The whole number of an offset may bring blanks and a sign of its own, as long as the two signs do not touch.
A second sign that is a minus turns the offset round, so that `+ -5` leads backwards: `relative_signs`.
-/

namespace Overlay

open Text Script

/-! ### Characters -/

def Sign.char : Sign → Char
  | plus => '+'
  | minus => '-'

/-- The characters of a sign that may be missing. -/
def signChars (s : Option Sign) : List Char := (s.map Sign.char).toList

theorem Sign.isBlank_char (s : Sign) : isBlank s.char = false := by
  cases s <;> decide

theorem isBlank_of_isDigit {c : Char} (h : c.isDigit = true) : isBlank c = false := by
  simp only [Char.isDigit, Bool.and_eq_true, decide_eq_true_eq] at h
  have h0 : 0x30 ≤ c.toNat := UInt32.le_iff_toNat_le.mp h.1
  have h1 : c.toNat ≤ 0x39 := UInt32.le_iff_toNat_le.mp h.2
  refine Bool.eq_false_iff.2 fun hb => ?_
  rw [isBlank, Ranges.has_iff ascending_blankRanges] at hb
  simp [blankRanges] at hb
  omega

/-- The text does not begin with a sign. -/
def Unsigned (cs : List Char) : Prop := ∀ s : Sign, cs.head? ≠ some s.char

theorem unsigned_of_head {c : Char} (cs : List Char) (h : isBlank c = true ∨ c.isDigit = true) :
    Unsigned (c :: cs) := by
  intro s e
  obtain rfl : c = s.char := Option.some.inj e
  cases s <;> revert h <;> decide

theorem splitSign_of_unsigned {cs : List Char} (h : Unsigned cs) : splitSign cs = (none, cs) := by
  unfold splitSign
  split
  · exact absurd rfl (h .plus)
  · exact absurd rfl (h .minus)
  · rfl

/-- A sign is split off, and what follows is left, signed or not. -/
theorem splitSign_signChars {s : Option Sign} {cs : List Char} (h : s = none → Unsigned cs) :
    splitSign (signChars s ++ cs) = (s, cs) := by
  cases s with
  | none => exact splitSign_of_unsigned (h rfl)
  | some s => cases s <;> rfl

theorem signChars_splitSign (cs : List Char) :
    signChars (splitSign cs).1 ++ (splitSign cs).2 = cs := by
  unfold splitSign
  split <;> rfl

theorem trimStart_append {blanks cs : List Char} (hb : ∀ c ∈ blanks, isBlank c = true)
    (hc : ∀ c, cs.head? = some c → isBlank c = false) : trimStart (blanks ++ cs) = cs :=
  (takeWhile_dropWhile_run hb hc).2

/-! ### Whole numbers -/

/-- The spelling of a whole number at the start of a text: blanks, at most one sign, all digits that are
there, and whatever follows. -/
structure WholeText where
  blanks : List Char
  sign : Option Sign
  digits : List Char
  rest : List Char
  isBlank_of_mem : ∀ c ∈ blanks, isBlank c = true
  isDigit_of_mem : ∀ c ∈ digits, c.isDigit = true
  digits_ne_nil : digits ≠ []
  isDigit_of_head? : ∀ c, rest.head? = some c → c.isDigit = false

namespace WholeText

variable (t : WholeText)

def chars : List Char := t.blanks ++ (signChars t.sign ++ (t.digits ++ t.rest))

def value : Int := clampWhole (withSign t.sign (digitsValue t.digits))

/-- The text from the digits on begins with one. -/
theorem exists_digit : ∃ c cs, t.digits ++ t.rest = c :: cs ∧ c.isDigit = true := by
  cases h : t.digits with
  | nil => exact absurd h t.digits_ne_nil
  | cons c cs => exact ⟨c, _, rfl, t.isDigit_of_mem c (h ▸ List.mem_cons_self)⟩

theorem isBlank_head_sign {c : Char} (h : (signChars t.sign ++ (t.digits ++ t.rest)).head? = some c) :
    isBlank c = false := by
  cases hs : t.sign with
  | some s =>
    rw [hs] at h
    obtain rfl : s.char = c := Option.some.inj h
    exact s.isBlank_char
  | none =>
    obtain ⟨d, cs, hd, hdigit⟩ := t.exists_digit
    rw [hs, hd] at h
    obtain rfl : d = c := Option.some.inj h
    exact isBlank_of_isDigit hdigit

/-- Before a number that begins with no blank there is none. -/
theorem blanks_eq_nil (h : ∀ c cs, t.chars = c :: cs → isBlank c = false) : t.blanks = [] := by
  cases hb : t.blanks with
  | nil => rfl
  | cons c blanks =>
    have hfirst : isBlank c = true := t.isBlank_of_mem c (hb ▸ List.mem_cons_self)
    exact absurd hfirst (Bool.eq_false_iff.1 (h c _ (by rw [chars, hb, List.cons_append])))

theorem trimStart_chars : trimStart t.chars = signChars t.sign ++ (t.digits ++ t.rest) :=
  trimStart_append t.isBlank_of_mem fun _ => t.isBlank_head_sign

theorem splitSign_digits :
    splitSign (signChars t.sign ++ (t.digits ++ t.rest)) = (t.sign, t.digits ++ t.rest) := by
  obtain ⟨c, cs, hc, hdigit⟩ := t.exists_digit
  refine splitSign_signChars fun _ => ?_
  rw [hc]
  exact unsigned_of_head cs (Or.inr hdigit)

theorem readWhole?_chars : readWhole? t.chars = some t.value := by
  have hdigits := (takeWhile_dropWhile_run t.isDigit_of_mem t.isDigit_of_head?).1
  simp only [readWhole?, t.trimStart_chars, t.splitSign_digits, hdigits]
  cases h : t.digits with
  | nil => exact absurd h t.digits_ne_nil
  | cons c cs => simp only [value, h, clampWhole_heldValue]

end WholeText

theorem exists_wholeText {cs : List Char} {n : Int} (h : readWhole? cs = some n) :
    ∃ t : WholeText, t.chars = cs ∧ t.value = n := by
  have hsign := signChars_splitSign (trimStart cs)
  simp only [readWhole?] at h
  split at h
  · cases h
  · next hne =>
    refine ⟨{ blanks := cs.takeWhile isBlank
              sign := (splitSign (trimStart cs)).1
              digits := (splitSign (trimStart cs)).2.takeWhile Char.isDigit
              rest := (splitSign (trimStart cs)).2.dropWhile Char.isDigit
              isBlank_of_mem := fun c hc => List.mem_takeWhile_imp hc
              isDigit_of_mem := fun c hc => List.mem_takeWhile_imp hc
              digits_ne_nil := hne
              isDigit_of_head? := fun c hc => ?_ }, ?_,
      (clampWhole_heldValue _ _).symm.trans (Option.some.inj h)⟩
    · have := List.head?_dropWhile_not Char.isDigit (splitSign (trimStart cs)).2
      rw [hc] at this
      simpa using this
    · simp only [WholeText.chars, List.takeWhile_append_dropWhile, hsign]
      exact List.takeWhile_append_dropWhile

/-- Exactly what a text spells at its start is read. -/
theorem readWhole?_eq_some_iff {cs : List Char} {n : Int} :
    readWhole? cs = some n ↔ ∃ t : WholeText, t.chars = cs ∧ t.value = n := by
  constructor
  · exact exists_wholeText
  · rintro ⟨t, rfl, rfl⟩
    exact t.readWhole?_chars

/-! ### Relative values -/

/-- The spelling of a relative value at the start of a text: blanks, at most one sign, and a whole number.
Without a sign the number brings no blanks of its own; after one it may, and only then a second sign. -/
structure RelativeText where
  blanks : List Char
  sign : Option Sign
  number : WholeText
  isBlank_of_mem : ∀ c ∈ blanks, isBlank c = true
  no_gap : sign = none → number.blanks = []
  no_second_sign : number.blanks = [] → number.sign = none

namespace RelativeText

variable (t : RelativeText)

def chars : List Char := t.blanks ++ (signChars t.sign ++ t.number.chars)

def value : Relative :=
  match t.sign with
  | some s => .offset s t.number.value
  | none => .absolute t.number.value

/-- The number begins with a digit, or with a blank where there is a sign before it. -/
theorem exists_head : ∃ c cs, t.number.chars = c :: cs ∧
    (isBlank c = true ∧ t.sign ≠ none ∨ c.isDigit = true) := by
  cases h : t.number.blanks with
  | nil =>
    obtain ⟨c, cs, hc, hdigit⟩ := t.number.exists_digit
    refine ⟨c, cs, ?_, Or.inr hdigit⟩
    rw [WholeText.chars, h, t.no_second_sign h, hc]
    rfl
  | cons c cs =>
    refine ⟨c, _, by rw [WholeText.chars, h, List.cons_append], Or.inl ⟨?_, fun hs => ?_⟩⟩
    · exact t.number.isBlank_of_mem c (h ▸ List.mem_cons_self)
    · cases h.symm.trans (t.no_gap hs)

theorem unsigned_number : Unsigned t.number.chars := by
  obtain ⟨c, cs, hc, hhead⟩ := t.exists_head
  rw [hc]
  exact unsigned_of_head cs (hhead.imp_left And.left)

theorem isBlank_head_sign {c : Char} (h : (signChars t.sign ++ t.number.chars).head? = some c) :
    isBlank c = false := by
  cases hs : t.sign with
  | some s =>
    rw [hs] at h
    obtain rfl : s.char = c := Option.some.inj h
    exact s.isBlank_char
  | none =>
    obtain ⟨d, cs, hd, ⟨-, hsign⟩ | hdigit⟩ := t.exists_head
    · exact absurd hs hsign
    · rw [hs, hd] at h
      obtain rfl : d = c := Option.some.inj h
      exact isBlank_of_isDigit hdigit

theorem readRelative?_chars : readRelative? t.chars = some t.value := by
  have htrim : trimStart t.chars = signChars t.sign ++ t.number.chars :=
    trimStart_append t.isBlank_of_mem fun _ => t.isBlank_head_sign
  have hsign : splitSign (trimStart t.chars) = (t.sign, t.number.chars) := by
    rw [htrim]
    exact splitSign_signChars fun _ => t.unsigned_number
  simp only [readRelative?, hsign, splitSign_of_unsigned t.unsigned_number, t.number.readWhole?_chars,
    Option.map_some, value]
  cases t.sign <;> rfl

end RelativeText

theorem exists_relativeText {cs : List Char} {v : Relative} (h : readRelative? cs = some v) :
    ∃ t : RelativeText, t.chars = cs ∧ t.value = v := by
  have hsign := signChars_splitSign (trimStart cs)
  simp only [readRelative?] at h
  split at h
  · cases h
  · next second =>
    obtain ⟨n, hn, rfl⟩ := Option.map_eq_some_iff.1 h
    obtain ⟨number, hchars, rfl⟩ := exists_wholeText hn
    refine ⟨{ blanks := cs.takeWhile isBlank
              sign := (splitSign (trimStart cs)).1
              number
              isBlank_of_mem := fun c hc => List.mem_takeWhile_imp hc
              no_gap := fun hnone => ?_
              no_second_sign := fun hblanks => ?_ }, ?_, ?_⟩
    · -- without a sign the number is all of the trimmed text, which begins with no blank
      rw [hnone] at hsign
      have htrim : number.chars = trimStart cs := hchars.trans hsign
      exact number.blanks_eq_nil fun c rest hc => isBlank_head_trimStart (htrim.symm.trans hc)
    · cases hs : number.sign with
      | none => rfl
      | some s =>
        rw [← hchars, WholeText.chars, hblanks, List.nil_append, number.splitSign_digits, hs] at second
        cases second
    · simp only [RelativeText.chars, hchars, hsign]
      exact List.takeWhile_append_dropWhile
    · simp only [RelativeText.value]
      cases (splitSign (trimStart cs)).1 <;> rfl

/-- Exactly what a text spells at its start is read. -/
theorem readRelative?_eq_some_iff {cs : List Char} {v : Relative} :
    readRelative? cs = some v ↔ ∃ t : RelativeText, t.chars = cs ∧ t.value = v := by
  constructor
  · exact exists_relativeText
  · rintro ⟨t, rfl, rfl⟩
    exact t.readRelative?_chars

/-! ### Where an offset leads -/

namespace Relative

/-- The sign of an offset. -/
def sign? : Relative → Option Sign
  | absolute _ => none
  | offset s _ => some s

/-- The absolute number, or the amount that an offset adds or takes away. -/
def amount : Relative → Int
  | absolute n => n
  | offset _ n => n

/-- The number is not negative, so that `+` never leads below the base and `-` never above it. -/
def KeepsSign (v : Relative) : Prop :=
  0 ≤ v.amount ∧ ∀ base, IsWhole base →
    (v.sign? = some .plus → base ≤ v.resolve base) ∧ (v.sign? = some .minus → v.resolve base ≤ base)

/-- The offset leads to the other side of every base that is not at an end of the range. -/
def LeadsBack (v : Relative) : Prop :=
  ∀ base, minWhole < base → base < maxWhole →
    (v.sign? = some .plus → v.resolve base < base) ∧ (v.sign? = some .minus → base < v.resolve base)

theorem keepsSign_of_nonneg {v : Relative} (h : 0 ≤ v.amount) : v.KeepsSign := by
  refine ⟨h, fun base ⟨hmin, hmax⟩ => ⟨fun hs => ?_, fun hs => ?_⟩⟩ <;> cases v with
  | absolute n => cases hs
  | offset s n =>
    cases hs
    simp only [resolve, Sign.apply, clampWhole, minWhole, maxWhole, amount] at *
    omega

theorem leadsBack_of_neg {v : Relative} (h : v.amount < 0) : v.LeadsBack := by
  refine fun base hmin hmax => ⟨fun hs => ?_, fun hs => ?_⟩ <;> cases v with
  | absolute n => cases hs
  | offset s n =>
    cases hs
    simp only [resolve, Sign.apply, clampWhole, minWhole, maxWhole, amount] at *
    omega

end Relative

namespace RelativeText

variable (t : RelativeText)

/-- The number brings a minus of its own, and is not zero. -/
def Turned : Prop := t.number.sign = some .minus ∧ digitsValue t.number.digits ≠ 0

instance : Decidable t.Turned := inferInstanceAs (Decidable (_ ∧ _))

theorem sign?_value : t.value.sign? = t.sign := by
  unfold value
  split <;> rename_i hs <;> rw [hs] <;> rfl

theorem amount_value : t.value.amount = t.number.value := by
  unfold value
  split <;> rfl

theorem amount_neg_iff : t.value.amount < 0 ↔ t.Turned := by
  rw [t.amount_value, Turned, WholeText.value, withSign, clampWhole, minWhole, maxWhole]
  split <;> rename_i hs
  · simp only [hs, true_and]
    omega
  · simp only [hs, false_and, iff_false]
    omega

theorem keepsSign_iff : t.value.KeepsSign ↔ ¬ t.Turned := by
  rw [← t.amount_neg_iff, Int.not_lt]
  exact ⟨And.left, Relative.keepsSign_of_nonneg⟩

/-- A sign of the number stands apart from the sign of the offset. -/
theorem apart_of_second_sign (h : t.number.sign ≠ none) : t.sign ≠ none ∧ t.number.blanks ≠ [] :=
  have hblanks : t.number.blanks ≠ [] := fun hb => h (t.no_second_sign hb)
  ⟨fun hs => hblanks (t.no_gap hs), hblanks⟩

end RelativeText

namespace Line

variable {line : Line} {i : Nat} {token : String}

theorem relative_of_spelled (h : line.token? i = some token) {t : RelativeText}
    (ht : t.chars = token.toList) : line.relative i = .ok (some t.value) := by
  simp only [relative, read, h, ← ht, t.readRelative?_chars]

theorem relative_of_not_spelled (h : line.token? i = some token)
    (hno : ∀ t : RelativeText, t.chars ≠ token.toList) :
    line.relative i = .error (.unreadable line.name i token .relative) := by
  have hnone : readRelative? token.toList = none := by
    refine Option.eq_none_iff_forall_ne_some.2 fun v hv => ?_
    obtain ⟨t, ht, -⟩ := readRelative?_eq_some_iff.1 hv
    exact hno t ht
  simp only [relative, read, h, hnone]

/-- A token that spells a relative value is read as it, with the sign of the spelling; every other token
is unreadable.  The value keeps its sign unless the number brings a minus of its own, which it can only
after a gap; then the offset leads back. -/
theorem relative_signs (h : line.token? i = some token) :
    (∀ t : RelativeText, t.chars = token.toList →
      line.relative i = .ok (some t.value) ∧
      t.value.sign? = t.sign ∧
      (t.value.KeepsSign ↔ ¬ t.Turned) ∧
      (t.number.sign ≠ none → t.sign ≠ none ∧ t.number.blanks ≠ []) ∧
      (t.Turned → t.value.LeadsBack)) ∧
    ((∀ t : RelativeText, t.chars ≠ token.toList) →
      line.relative i = .error (.unreadable line.name i token .relative)) :=
  ⟨fun t ht =>
    ⟨relative_of_spelled h ht, t.sign?_value, t.keepsSign_iff, t.apart_of_second_sign, fun hturned =>
      Relative.leadsBack_of_neg (t.amount_neg_iff.2 hturned)⟩,
    relative_of_not_spelled h⟩

/-- A plus, a gap and the number `-5`. -/
def minusFiveAfterPlus : RelativeText where
  blanks := []
  sign := some .plus
  number :=
    { blanks := [' '], sign := some .minus, digits := ['5'], rest := []
      isBlank_of_mem := List.forall_mem_singleton.2 (by decide)
      isDigit_of_mem := List.forall_mem_singleton.2 (by decide)
      digits_ne_nil := List.cons_ne_nil _ _
      isDigit_of_head? := by simp }
  isBlank_of_mem := by simp
  no_gap := by simp
  no_second_sign := by simp

theorem relative_of_plus_and_minus :
    ({ name := "next", tokens := ["+ -5", "1"] } : Line).token? 0 = some "+ -5" ∧
    ({ name := "next", tokens := ["+ -5", "1"] } : Line).relative 0 = .ok (some (.offset .plus (-5))) ∧
    minusFiveAfterPlus.value.sign? = some .plus ∧
    ¬ minusFiveAfterPlus.value.KeepsSign ∧ minusFiveAfterPlus.value.LeadsBack := by
  have htoken : ({ name := "next", tokens := ["+ -5", "1"] } : Line).token? 0 = some "+ -5" := rfl
  have hchars : minusFiveAfterPlus.chars = "+ -5".toList := by decide +kernel
  have hturned : minusFiveAfterPlus.Turned := by decide +kernel
  obtain ⟨hspelled, -⟩ := relative_signs htoken
  obtain ⟨hread, hsign, hkeeps, -, hback⟩ := hspelled minusFiveAfterPlus hchars
  exact ⟨htoken, hread, hsign, fun hk => hkeeps.1 hk hturned, hback hturned⟩

/-- An offset with a plus that leads below its base. -/
theorem backwards_with_plus :
    Line.parse "next=+ -5,1" = .ok { name := "next", tokens := ["+ -5", "1"] } ∧
    ({ name := "next", tokens := ["+ -5", "1"] } : Line).relative 0 = .ok (some (.offset .plus (-5))) ∧
    (Relative.offset .plus (-5)).sign? = some .plus ∧ (Relative.offset .plus (-5)).amount < 0 ∧
    (Relative.offset .plus (-5)).resolve 7 < 7 := by
  decide +kernel

end Line

end Overlay

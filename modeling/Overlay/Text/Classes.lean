/-!
# Character classes

A class of characters is a list of closed ranges of code points.  `Ranges.has` decides membership by
a search that stops early; on the ascending lists of this library it finds exactly the members of
the ranges (`Ranges.has_iff`).

Two classes matter for reading: the blanks, of which tokens are trimmed before they are read as numbers
or switches, and the decimal digits of all scripts, which make up the runs of digits of a number.
-/

namespace Overlay

namespace Text

/-- Closed ranges of code points. -/
abbrev Ranges := List (Nat × Nat)

namespace Ranges

/-- Whether the code point `n` lies in one of the ranges.  The ranges ascend, so the search ends at
the first one that begins above `n`. -/
def has : Ranges → Nat → Bool
  | [], _ => false
  | (lo, hi) :: rest, n => decide (lo ≤ n) && (decide (n ≤ hi) || has rest n)

/-- Whether no range is empty and each begins above the end of the one before. -/
def ascending : Ranges → Bool
  | [] => true
  | [r] => decide (r.1 ≤ r.2)
  | r :: s :: rest => decide (r.1 ≤ r.2) && decide (r.2 < s.1) && ascending (s :: rest)

theorem ascending_tail {r : Nat × Nat} {rest : Ranges} (h : ascending (r :: rest) = true) :
    ascending rest = true := by
  cases rest with
  | nil => rfl
  | cons s rest =>
    simp only [ascending, Bool.and_eq_true] at h
    exact h.2

/-- In an ascending list no range begins below the first one. -/
theorem ascending_head_le {r : Nat × Nat} {rest : Ranges} (h : ascending (r :: rest) = true) :
    ∀ s ∈ rest, r.1 ≤ s.1 := by
  induction rest generalizing r with
  | nil => simp
  | cons s rest ih =>
    intro t ht
    have h' := ih (ascending_tail h)
    simp only [ascending, Bool.and_eq_true, decide_eq_true_eq] at h
    cases ht with
    | head => omega
    | tail _ ht => have := h' t ht; omega

/-- The search finds the members of an ascending list of ranges. -/
theorem has_iff {rs : Ranges} (h : ascending rs = true) (n : Nat) :
    has rs n = true ↔ ∃ r ∈ rs, r.1 ≤ n ∧ n ≤ r.2 := by
  induction rs with
  | nil => simp [has]
  | cons r rest ih =>
    have hle := ascending_head_le h
    simp only [has, Bool.and_eq_true, Bool.or_eq_true, decide_eq_true_eq, ih (ascending_tail h),
      List.mem_cons, exists_eq_or_imp]
    constructor
    · rintro ⟨h1, h2 | ⟨s, hs, h3⟩⟩
      · exact Or.inl ⟨h1, h2⟩
      · exact Or.inr ⟨s, hs, h3⟩
    · rintro (⟨h1, h2⟩ | ⟨s, hs, h3⟩)
      · exact ⟨h1, Or.inl h2⟩
      · exact ⟨Nat.le_trans (hle s hs) h3.1, Or.inr ⟨s, hs, h3⟩⟩

end Ranges

/-! ### Blanks -/

/-- The 25 characters with the Unicode property White_Space. -/
def blankRanges : Ranges :=
  [(0x9, 0xD), (0x20, 0x20), (0x85, 0x85), (0xA0, 0xA0), (0x1680, 0x1680), (0x2000, 0x200A),
   (0x2028, 0x2029), (0x202F, 0x202F), (0x205F, 0x205F), (0x3000, 0x3000)]

theorem ascending_blankRanges : blankRanges.ascending = true := by decide

/-- Whether a character is blank. -/
def isBlank (c : Char) : Bool := blankRanges.has c.toNat

/-- The text without its leading blanks. -/
def trimStart (cs : List Char) : List Char := cs.dropWhile isBlank

/-- The text without its leading and trailing blanks. -/
def trim (cs : List Char) : List Char := (trimStart cs).reverse.dropWhile isBlank |>.reverse

/-- Whether a text holds blanks only. -/
def isBlankText (cs : List Char) : Bool := cs.all isBlank

theorem trimStart_cons_blank {c : Char} (cs : List Char) (h : isBlank c = true) :
    trimStart (c :: cs) = trimStart cs := by
  simp [trimStart, h]

theorem trimStart_cons_solid {c : Char} (cs : List Char) (h : isBlank c = false) :
    trimStart (c :: cs) = c :: cs := by
  simp [trimStart, h]

/-- What is left of a trimmed text begins with a character that is not blank. -/
theorem isBlank_head_trimStart {cs : List Char} {c : Char} {rest : List Char}
    (h : trimStart cs = c :: rest) : isBlank c = false := by
  induction cs with
  | nil => simp [trimStart] at h
  | cons d ds ih =>
    cases hd : isBlank d with
    | true => exact ih (by rw [← trimStart_cons_blank ds hd]; exact h)
    | false =>
      rw [trimStart_cons_solid ds hd] at h
      obtain ⟨rfl, -⟩ := List.cons.inj h
      exact hd

/-! ### Decimal digits -/

/-- The characters of the general category Nd: ten digits for each script that has its own (Unicode
16.0, 760 characters).  Only the ASCII ten have a value in this library; the others matter because they
extend a run of digits. -/
def decimalDigitRanges : Ranges :=
  [(0x30, 0x39), (0x660, 0x669), (0x6F0, 0x6F9), (0x7C0, 0x7C9), (0x966, 0x96F), (0x9E6, 0x9EF),
   (0xA66, 0xA6F), (0xAE6, 0xAEF), (0xB66, 0xB6F), (0xBE6, 0xBEF), (0xC66, 0xC6F), (0xCE6, 0xCEF),
   (0xD66, 0xD6F), (0xDE6, 0xDEF), (0xE50, 0xE59), (0xED0, 0xED9), (0xF20, 0xF29),
   (0x1040, 0x1049), (0x1090, 0x1099), (0x17E0, 0x17E9), (0x1810, 0x1819), (0x1946, 0x194F),
   (0x19D0, 0x19D9), (0x1A80, 0x1A89), (0x1A90, 0x1A99), (0x1B50, 0x1B59), (0x1BB0, 0x1BB9),
   (0x1C40, 0x1C49), (0x1C50, 0x1C59), (0xA620, 0xA629), (0xA8D0, 0xA8D9), (0xA900, 0xA909),
   (0xA9D0, 0xA9D9), (0xA9F0, 0xA9F9), (0xAA50, 0xAA59), (0xABF0, 0xABF9), (0xFF10, 0xFF19),
   (0x104A0, 0x104A9), (0x10D30, 0x10D39), (0x10D40, 0x10D49), (0x11066, 0x1106F),
   (0x110F0, 0x110F9), (0x11136, 0x1113F), (0x111D0, 0x111D9), (0x112F0, 0x112F9),
   (0x11450, 0x11459), (0x114D0, 0x114D9), (0x11650, 0x11659), (0x116C0, 0x116C9),
   (0x116D0, 0x116E3), (0x11730, 0x11739), (0x118E0, 0x118E9), (0x11950, 0x11959),
   (0x11BF0, 0x11BF9), (0x11C50, 0x11C59), (0x11D50, 0x11D59), (0x11DA0, 0x11DA9),
   (0x11F50, 0x11F59), (0x16130, 0x16139), (0x16A60, 0x16A69), (0x16AC0, 0x16AC9),
   (0x16B50, 0x16B59), (0x16D70, 0x16D79), (0x1CCF0, 0x1CCF9), (0x1D7CE, 0x1D7FF),
   (0x1E140, 0x1E149), (0x1E2F0, 0x1E2F9), (0x1E4F0, 0x1E4F9), (0x1E5F1, 0x1E5FA),
   (0x1E950, 0x1E959), (0x1FBF0, 0x1FBF9)]

/-- Whether a character is a decimal digit of any script. -/
def isDecimalDigit (c : Char) : Bool := decimalDigitRanges.has c.toNat

theorem ascending_decimalDigitRanges : decimalDigitRanges.ascending = true := by decide

/-- Every ASCII digit is a decimal digit. -/
theorem isDecimalDigit_of_isDigit {c : Char} (h : c.isDigit = true) : isDecimalDigit c = true := by
  simp only [Char.isDigit, Bool.and_eq_true, decide_eq_true_eq] at h
  have h0 : 0x30 ≤ c.toNat := UInt32.le_iff_toNat_le.mp h.1
  have h1 : c.toNat ≤ 0x39 := UInt32.le_iff_toNat_le.mp h.2
  simp [isDecimalDigit, decimalDigitRanges, Ranges.has, h0, h1]

end Text

end Overlay

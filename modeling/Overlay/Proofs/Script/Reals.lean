import Overlay.Proofs.Scalar.Decimals
import Overlay.Proofs.Scalar.Exact
import Overlay.Proofs.Script.RealText

/-!
# Reading real numbers

Of the text after the blanks, the longest spelling of a real number in the decimal digits of all scripts is
taken (`scanReal?_eq_some_iff`), and it has a value if its digits are those of ASCII
(`RealText.ofNumeral_numeral` says which, and `RealText.roundsTo_numeral` which floating-point number that
is).  So the longest spelling in ASCII digits is read unless a digit of another script follows it, directly or
in an exponent (`RealText.MeetsForeign`): `Line.scalar_longest_unless_foreign`.
-/

namespace Overlay

open Text Script

theorem isDigitClass_isDigit : IsDigitClass Char.isDigit := fun _ => isDecimalDigit_of_isDigit

theorem isDigitClass_isDecimalDigit : IsDigitClass isDecimalDigit := fun _ => id

/-! ### Exponents -/

theorem ExponentText.scanExponent_append (e : ExponentText) {rest : List Char}
    (h : BeginsOutside isDecimalDigit rest) : scanExponent (e.chars ++ rest) = (e.sign, e.digits) := by
  have hmark : e.mark = 'e' ∨ e.mark = 'E' := e.isMark
  have hsplit : splitSign (signChars e.sign ++ (e.digits ++ rest)) = (e.sign, e.digits ++ rest) :=
    splitSign_signChars fun _ => e.unsigned_digits rest
  have hrun := (takeWhile_dropWhile_run e.isDecimalDigit_of_mem h).1
  rw [chars, List.cons_append, List.append_assoc, scanExponent, if_pos hmark, hsplit]
  simp only [hrun]
  cases hdigits : e.digits with
  | nil => exact absurd hdigits e.digits_ne_nil
  | cons c cs => rfl

theorem scanExponent_of_no_digit {cs : List Char}
    (h : ∀ mark s c tail, IsMark mark → cs = mark :: (signChars s ++ c :: tail) →
      isDecimalDigit c = false) : scanExponent cs = (none, []) := by
  cases cs with
  | nil => rfl
  | cons mark cs =>
    by_cases hmark : mark = 'e' ∨ mark = 'E'
    · rw [scanExponent, if_pos hmark]
      cases hdigits : (splitSign cs).2.takeWhile isDecimalDigit with
      | nil => simp only [hdigits]
      | cons d ds =>
        have hdigit : isDecimalDigit d = true :=
          List.mem_takeWhile_imp (l := (splitSign cs).2) (hdigits ▸ List.mem_cons_self)
        have hsplit : (splitSign cs).2 = d :: (ds ++ (splitSign cs).2.dropWhile isDecimalDigit) := by
          rw [← List.cons_append, ← hdigits, List.takeWhile_append_dropWhile]
        have hfree := h mark (splitSign cs).1 d _ hmark (by rw [← hsplit, signChars_splitSign])
        rw [hdigit] at hfree
        cases hfree
    · rw [scanExponent, if_neg hmark]

namespace RealText

variable {t : RealText} {cs rest : List Char}

/-! ### The number -/

/-- The exponent as a number. -/
def power (t : RealText) : ℤ :=
  t.exponent.elim 0 fun e => withSign e.sign (Nat.ofDigits 10 (unitsFirst e.digits))

/-- The number that the ASCII digits of the spelling say in base ten. -/
def number {r : Reading} (t : RealText) : Exact r :=
  (if t.sign = some .minus then -1 else 1) *
    ((Nat.ofDigits 10 (unitsFirst t.whole) : ℕ) +
      (Nat.ofDigits 10 (unitsFirst t.fraction) : ℕ) / (10 ^ t.fraction.length : ℕ)) * (10 : ℕ) ^ t.power

/-- The same number as a decimal: all digits as one whole number, and the place of the point. -/
def numeral (t : RealText) : Numeral where
  negative := decide (t.sign = some .minus)
  digits := digitsValue (t.whole ++ t.fraction)
  exponent := t.power - t.fraction.length

theorem ofNumeral_numeral (r : Reading) (t : RealText) :
    (Scalar.ofNumeral t.numeral : Exact r) = t.number := by
  have hten : (10 : Exact r) ≠ 0 := by norm_num
  have hofNumeral : (Scalar.ofNumeral t.numeral : Exact r) =
      (if t.numeral.negative then -1 else 1) * t.numeral.digits * 10 ^ t.numeral.exponent := rfl
  rw [hofNumeral]
  simp only [numeral, number, decide_eq_true_eq, digitsValue_append, ← digitsValue_eq_ofDigits]
  push_cast
  rw [zpow_sub₀ hten, zpow_natCast]
  field_simp

/-- Read as a floating-point number, it is rounded to nearest. -/
theorem roundsTo_numeral (r : Reading) (t : RealText) :
    Binary64.RoundsTo (t.number : Exact r) (Scalar.ofNumeral t.numeral) := by
  rw [← t.ofNumeral_numeral]
  exact Binary64.roundsTo_ofNumeral t.numeral

/-! ### What is scanned -/

/-- The parts of the spelling. -/
def form (t : RealText) : RealForm where
  sign := t.sign
  whole := t.whole
  fraction := t.fraction
  expSign := t.exponent.bind ExponentText.sign
  expDigits := t.exponentDigits

theorem withSign_exponent (t : RealText) :
    withSign t.form.expSign (digitsValue t.form.expDigits) = t.power := by
  cases he : t.exponent with
  | none => simp [form, exponentDigits, power, he, withSign, digitsValue]
  | some e => simp [form, exponentDigits, power, he, digitsValue_eq_ofDigits]

theorem numeral?_form_of_uses (h : t.Uses Char.isDigit) : t.form.numeral? = some t.numeral := by
  have hall : (t.form.whole ++ t.form.fraction ++ t.form.expDigits).all Char.isDigit = true :=
    List.all_eq_true.2 h
  rw [RealForm.numeral?, if_pos hall, t.withSign_exponent]
  rfl

theorem numeral?_form_of_not_uses (h : ¬ t.Uses Char.isDigit) : t.form.numeral? = none := by
  have hall : ¬ (t.form.whole ++ t.form.fraction ++ t.form.expDigits).all Char.isDigit = true :=
    fun hall => h (List.all_eq_true.1 hall)
  rw [RealForm.numeral?, if_neg hall]

theorem scanExponent_append (h : t.Complete isDecimalDigit rest) :
    scanExponent (t.exponentChars ++ rest) = (t.form.expSign, t.form.expDigits) := by
  cases he : t.exponent with
  | none =>
    rw [exponentChars_eq_nil he, List.nil_append, scanExponent_of_no_digit (h.no_exponent he)]
    simp [form, exponentDigits, he]
  | some e =>
    rw [exponentChars_eq_chars he, e.scanExponent_append h.no_digit]
    simp [form, exponentDigits, he]

theorem scanReal?_append (h : t.Complete isDecimalDigit rest) :
    scanReal? (t.chars ++ rest) = some t.form := by
  have hsplit : splitSign (signChars t.sign ++ (t.whole ++ (t.tail ++ rest))) =
      (t.sign, t.whole ++ (t.tail ++ rest)) := splitSign_signChars fun _ => t.unsigned_whole rest
  obtain ⟨htake, hdrop⟩ := takeWhile_dropWhile_run t.uses_isDecimalDigit.whole
    (h.beginsOutside_tail isDigitClass_isDecimalDigit)
  have hexponent := scanExponent_append h
  rw [chars_append, scanReal?, hsplit]
  simp only [htake, hdrop]
  cases hpoint : t.point
  · have hfraction := t.fraction_eq_nil hpoint
    rw [tail_of_no_point hpoint]
    cases hw : t.whole with
    | nil => exact absurd (by rw [hw, hfraction]; rfl) t.digits_ne_nil
    | cons c cs =>
      split
      · next hempty _ => cases hempty
      · next hempty _ => cases hempty
      · next heq _ => exact absurd heq (h.exponent_ne_point hpoint _)
      · simp only [hexponent, form, hw, hfraction]
  · obtain ⟨hftake, hfdrop⟩ := takeWhile_dropWhile_run t.uses_isDecimalDigit.fraction
      (h.beginsOutside_exponent isDigitClass_isDecimalDigit)
    rw [tail_of_point hpoint, List.cons_append, List.append_assoc]
    cases hw : t.whole with
    | nil =>
      simp only [hftake, hfdrop, hexponent]
      cases hf : t.fraction with
      | nil => exact absurd (by rw [hw, hf]; rfl) t.digits_ne_nil
      | cons c cs => simp only [form, hw, hf]
    | cons c cs => simp only [hftake, hfdrop, hexponent, form, hw]

theorem scanReal?_of_isLongest (h : t.IsLongest isDecimalDigit cs) :
    scanReal? cs = some t.form := by
  obtain ⟨rest, rfl⟩ := h.begins
  exact scanReal?_append ((isLongest_iff isDigitClass_isDecimalDigit h.uses).1 h)

theorem exists_begins_of_takeWhile (h : (splitSign cs).2.takeWhile isDecimalDigit ≠ []) :
    ∃ u : RealText, u.chars <+: cs := by
  refine ⟨plain (splitSign cs).1 _ (fun c hc => List.mem_takeWhile_imp hc) h,
    (splitSign cs).2.dropWhile isDecimalDigit, ?_⟩
  rw [chars_plain, List.append_assoc, List.takeWhile_append_dropWhile, signChars_splitSign]

theorem exists_begins_of_point (h : (splitSign cs).2 = '.' :: rest)
    (hne : rest.takeWhile isDecimalDigit ≠ []) : ∃ u : RealText, u.chars <+: cs := by
  have hsign : signChars (splitSign cs).1 ++ '.' :: rest = cs := by rw [← h, signChars_splitSign]
  refine ⟨{ sign := (splitSign cs).1
            whole := []
            point := true
            fraction := rest.takeWhile isDecimalDigit
            exponent := none
            isDecimalDigit_of_mem := fun c hc => List.mem_takeWhile_imp hc
            digits_ne_nil := hne
            fraction_eq_nil := by simp }, rest.dropWhile isDecimalDigit, ?_⟩
  simpa [chars, tail, exponentChars] using hsign

theorem exists_begins_of_scanReal? {r : RealForm} (h : scanReal? cs = some r) :
    ∃ u : RealText, u.chars <+: cs := by
  by_cases hwhole : (splitSign cs).2.takeWhile isDecimalDigit = []
  · have hdrop := List.takeWhile_append_dropWhile (p := isDecimalDigit) (l := (splitSign cs).2)
    rw [hwhole, List.nil_append] at hdrop
    simp only [scanReal?, hwhole] at h
    split at h
    · next rest _ hpoint =>
      refine exists_begins_of_point (hdrop.symm.trans hpoint) fun hfraction => ?_
      simp only [hfraction] at h
      cases h
    · cases h
    · next hne => exact absurd rfl hne
    · next hne _ _ => exact absurd rfl hne
  · exact exists_begins_of_takeWhile hwhole

end RealText

/-- The longest spelling in digits of all scripts is scanned. -/
theorem scanReal?_eq_some_iff {cs : List Char} {r : RealForm} :
    scanReal? cs = some r ↔ ∃ t : RealText, t.IsLongest isDecimalDigit cs ∧ t.form = r := by
  constructor
  · intro h
    obtain ⟨u, hu⟩ := RealText.exists_begins_of_scanReal? h
    obtain ⟨t, ht⟩ := RealText.exists_isLongest u.uses_isDecimalDigit hu
    exact ⟨t, ht, Option.some.inj ((RealText.scanReal?_of_isLongest ht).symm.trans h)⟩
  · rintro ⟨t, ht, rfl⟩
    exact RealText.scanReal?_of_isLongest ht

/-- And it is read if its digits are those of ASCII. -/
theorem readReal?_eq_some_iff {cs : List Char} {n : Numeral} :
    readReal? cs = some n ↔ ∃ t : RealText,
      t.IsLongest isDecimalDigit (trimStart cs) ∧ t.Uses Char.isDigit ∧ t.numeral = n := by
  rw [readReal?, Option.bind_eq_some_iff]
  constructor
  · rintro ⟨r, hr, hn⟩
    obtain ⟨t, ht, rfl⟩ := scanReal?_eq_some_iff.1 hr
    by_cases huses : t.Uses Char.isDigit
    · rw [RealText.numeral?_form_of_uses huses] at hn
      exact ⟨t, ht, huses, Option.some.inj hn⟩
    · rw [RealText.numeral?_form_of_not_uses huses] at hn
      cases hn
  · rintro ⟨t, ht, huses, rfl⟩
    exact ⟨t.form, RealText.scanReal?_of_isLongest ht, RealText.numeral?_form_of_uses huses⟩

/-! ### Digits of other scripts -/

/-- A decimal digit of another script than ASCII. -/
def IsForeign (c : Char) : Prop := isDecimalDigit c = true ∧ c.isDigit = false

namespace RealText

variable {t : RealText} {cs rest : List Char}

/-- A foreign digit follows the spelling, directly or as the first digit of an exponent that it lacks. -/
def MeetsForeign (t : RealText) (rest : List Char) : Prop :=
  (∃ c cs, rest = c :: cs ∧ IsForeign c) ∨
    (t.exponent = none ∧ ∃ mark s c cs,
      IsMark mark ∧ rest = mark :: (signChars s ++ c :: cs) ∧ IsForeign c)

/-- What no ASCII digit continues, a digit of any script can only continue by being foreign. -/
theorem complete_isDecimalDigit_iff (h : t.Complete Char.isDigit rest) :
    t.Complete isDecimalDigit rest ↔ ¬ t.MeetsForeign rest := by
  constructor
  · rintro hall (⟨c, cs, rfl, hc, -⟩ | ⟨he, mark, s, c, cs, hmark, hrest, hc, -⟩)
    · rw [hall.no_digit c rfl] at hc
      cases hc
    · rw [hall.no_exponent he mark s c cs hmark hrest] at hc
      cases hc
  · intro hforeign
    refine ⟨fun c hc => ?_, h.no_point, fun he mark s c cs hmark hrest => ?_⟩
    · by_contra hdigit
      obtain ⟨cs, hrest⟩ := List.head?_eq_some_iff.1 hc
      exact hforeign (Or.inl ⟨c, cs, hrest, Bool.eq_true_of_not_eq_false hdigit, h.no_digit c hc⟩)
    · by_contra hdigit
      exact hforeign (Or.inr ⟨he, mark, s, c, cs, hmark, hrest, Bool.eq_true_of_not_eq_false hdigit,
        h.no_exponent he mark s c cs hmark hrest⟩)

theorem isLongest_isDecimalDigit_iff (h : t.IsLongest Char.isDigit (t.chars ++ rest)) :
    t.IsLongest isDecimalDigit (t.chars ++ rest) ↔ ¬ t.MeetsForeign rest := by
  rw [isLongest_iff isDigitClass_isDecimalDigit t.uses_isDecimalDigit]
  exact complete_isDecimalDigit_iff ((isLongest_iff isDigitClass_isDigit h.uses).1 h)

/-- A spelling in ASCII digits that is the longest in digits of all scripts is as long as every longest one in
ASCII digits, which is then the longest of all as well. -/
theorem IsLongest.of_isDecimalDigit {v : RealText} (h : t.IsLongest Char.isDigit cs)
    (hv : v.IsLongest isDecimalDigit cs) (huses : v.Uses Char.isDigit) : t.IsLongest isDecimalDigit cs := by
  have hvt := h.length_le v huses hv.begins
  exact ⟨t.uses_isDecimalDigit, h.begins, fun u hu hbegins => (hv.length_le u hu hbegins).trans hvt⟩

theorem readReal?_of_not_meetsForeign (heq : trimStart cs = t.chars ++ rest)
    (h : t.IsLongest Char.isDigit (trimStart cs)) (hforeign : ¬ t.MeetsForeign rest) :
    readReal? cs = some t.numeral := by
  refine readReal?_eq_some_iff.2 ⟨t, ?_, h.uses, rfl⟩
  rw [heq] at h ⊢
  exact (isLongest_isDecimalDigit_iff h).2 hforeign

theorem readReal?_of_meetsForeign (heq : trimStart cs = t.chars ++ rest)
    (h : t.IsLongest Char.isDigit (trimStart cs)) (hforeign : t.MeetsForeign rest) :
    readReal? cs = none := by
  refine Option.eq_none_iff_forall_ne_some.2 fun n hn => ?_
  obtain ⟨v, hv, huses, -⟩ := readReal?_eq_some_iff.1 hn
  have hall := h.of_isDecimalDigit hv huses
  rw [heq] at h hall
  exact (isLongest_isDecimalDigit_iff h).1 hall hforeign

end RealText

/-- After blanks the text begins with a real number in ASCII digits. -/
def BeginsWithReal (cs : List Char) : Prop :=
  ∃ t : RealText, t.Uses Char.isDigit ∧ t.chars <+: trimStart cs

theorem BeginsWithReal.exists_isLongest {cs : List Char} (h : BeginsWithReal cs) :
    ∃ t : RealText, t.IsLongest Char.isDigit (trimStart cs) := by
  obtain ⟨u, hu, hbegins⟩ := h
  exact RealText.exists_isLongest hu hbegins

theorem readReal?_of_not_begins {cs : List Char} (h : ¬ BeginsWithReal cs) : readReal? cs = none := by
  refine Option.eq_none_iff_forall_ne_some.2 fun n hn => ?_
  obtain ⟨v, hv, huses, -⟩ := readReal?_eq_some_iff.1 hn
  exact h ⟨v, huses, hv.begins⟩

/-- A whole number is a real number. -/
theorem WholeText.beginsWithReal_chars (t : WholeText) : BeginsWithReal t.chars := by
  have hdecimal : ∀ c ∈ t.digits, isDecimalDigit c = true :=
    fun c hc => isDecimalDigit_of_isDigit (t.isDigit_of_mem c hc)
  refine ⟨RealText.plain t.sign t.digits hdecimal t.digits_ne_nil,
    RealText.uses_plain _ _ _ t.isDigit_of_mem, t.rest, ?_⟩
  rw [RealText.chars_plain, t.trimStart_chars, List.append_assoc]

/-! ### Lines -/

namespace Line

variable {α : Type} [Scalar α] {line : Line} {i : Nat} {token : String}

theorem scalar_of_readReal? (h : line.token? i = some token) {n : Numeral}
    (hread : readReal? token.toList = some n) :
    line.scalar i = .ok (some (Scalar.ofNumeral n : α)) := by
  have hreal : line.real i = .ok (some n) := (read_eq_ok_iff h).2 hread
  rw [scalar, hreal]
  rfl

theorem scalar_of_unreadable (h : line.token? i = some token) (hread : readReal? token.toList = none) :
    (line.scalar i : Except Fault (Option α)) = .error (.unreadable line.name i token .real) := by
  have hreal : line.real i = .error (.unreadable line.name i token .real) := read_of_unreadable h hread
  rw [scalar, hreal]
  rfl

/-- Take the longest spelling of a real number in ASCII digits that a token begins with, after blanks.  There
is one as soon as there is any, and so where a whole number can be read.  The token is read as the number
that it says, whatever follows it, unless that is a digit of another script, directly or as the first of an
exponent; then the token is unreadable, as it is without any such spelling. -/
theorem scalar_longest_unless_foreign (h : line.token? i = some token) :
    (∀ (t : RealText) (rest : List Char), trimStart token.toList = t.chars ++ rest →
      t.IsLongest Char.isDigit (trimStart token.toList) →
      (∀ r : Reading, (Scalar.ofNumeral t.numeral : Exact r) = t.number) ∧
      (¬ t.MeetsForeign rest → line.scalar i = .ok (some (Scalar.ofNumeral t.numeral : α))) ∧
      (t.MeetsForeign rest → (line.scalar i : Except Fault (Option α)) =
        .error (.unreadable line.name i token .real))) ∧
    (¬ BeginsWithReal token.toList → (line.scalar i : Except Fault (Option α)) =
      .error (.unreadable line.name i token .real)) ∧
    (BeginsWithReal token.toList → ∃ t : RealText, t.IsLongest Char.isDigit (trimStart token.toList)) ∧
    ∀ n, line.whole i = .ok (some n) → BeginsWithReal token.toList := by
  refine ⟨fun t rest heq ht => ⟨fun r => t.ofNumeral_numeral r, fun hforeign => ?_, fun hforeign => ?_⟩,
    fun hno => scalar_of_unreadable h (readReal?_of_not_begins hno),
    BeginsWithReal.exists_isLongest, fun n hn => ?_⟩
  · exact scalar_of_readReal? h (RealText.readReal?_of_not_meetsForeign heq ht hforeign)
  · exact scalar_of_unreadable h (RealText.readReal?_of_meetsForeign heq ht hforeign)
  · obtain ⟨t, ht, -⟩ := (whole_eq_ok_iff h).1 hn
    rw [← ht]
    exact t.beginsWithReal_chars

/-- The spelling `-12.50e+1`. -/
def pointedText : RealText where
  sign := some .minus
  whole := ['1', '2']
  point := true
  fraction := ['5', '0']
  exponent := some (.ofDigit 'e' (some .plus) '1' (Or.inl rfl) (by decide))
  isDecimalDigit_of_mem := List.all_eq_true.1 (by decide)
  digits_ne_nil := by decide
  fraction_eq_nil := by decide

theorem number_pointedText : (pointedText.number : Exact .unturned) = -125 := by
  have hwhole : Nat.ofDigits 10 (unitsFirst pointedText.whole) = 12 := by decide
  have hfraction : Nat.ofDigits 10 (unitsFirst pointedText.fraction) = 50 := by decide
  have hpower : pointedText.power = 1 := by decide
  rw [RealText.number, hwhole, hfraction, hpower]
  norm_num [pointedText]

theorem complete_pointedText {p : Char → Bool} (hp : p 'p' = false) :
    pointedText.Complete p ['p', 'x'] := by
  refine ⟨fun c hc => ?_, fun hnone => ?_, fun hnone => ?_⟩
  · obtain rfl : 'p' = c := Option.some.inj hc
    exact hp
  · cases hnone
  · cases hnone

/-- The spelling `1`. -/
def oneText : RealText := RealText.plain none ['1'] (List.all_eq_true.1 (by decide)) (List.cons_ne_nil _ _)

theorem isLongest_oneText : oneText.IsLongest Char.isDigit (trimStart "1\u0663".toList) := by
  have hcomplete : oneText.Complete Char.isDigit ['\u0663'] := by
    refine ⟨fun c hc => ?_, fun _ _ cs hpoint => ?_, fun _ mark s c cs hmark hexponent => ?_⟩
    · obtain rfl : '\u0663' = c := Option.some.inj hc
      decide
    · cases hpoint
    · obtain rfl : '\u0663' = mark := (List.cons.inj hexponent).1
      exact absurd hmark (by unfold IsMark; decide)
  exact (RealText.isLongest_iff isDigitClass_isDigit (by decide)).2 hcomplete

/-- A number with a point and an exponent is read, whatever follows; before a foreign digit nothing is. -/
theorem scalars_of_three_tokens :
    ∃ line : Line, line.token? 0 = some "\u2003-12.50e+1px" ∧ line.token? 1 = some "1\u0663" ∧
      line.token? 2 = some "px" ∧ line.scalar 0 = .ok (some (-125 : Exact .unturned)) ∧
      (line.scalar 1 : Except Fault (Option (Exact .unturned))) =
        .error (.unreadable line.name 1 "1\u0663" .real) ∧
      (line.scalar 2 : Except Fault (Option (Exact .unturned))) =
        .error (.unreadable line.name 2 "px" .real) := by
  obtain ⟨line, hline⟩ : ∃ line : Line, line =
      ⟨"size", ["\u2003-12.50e+1px", "1\u0663", "px"]⟩ := ⟨_, rfl⟩
  have hfirst : line.token? 0 = some "\u2003-12.50e+1px" := by rw [hline]; rfl
  have hsecond : line.token? 1 = some "1\u0663" := by rw [hline]; rfl
  have hthird : line.token? 2 = some "px" := by rw [hline]; rfl
  have hchars : trimStart "\u2003-12.50e+1px".toList = pointedText.chars ++ ['p', 'x'] := by
    decide +kernel
  have hlongest : pointedText.IsLongest Char.isDigit (trimStart "\u2003-12.50e+1px".toList) := by
    rw [hchars]
    exact (RealText.isLongest_iff isDigitClass_isDigit (by decide)).2 (complete_pointedText (by decide))
  refine ⟨line, hfirst, hsecond, hthird, ?_, ?_, ?_⟩
  · obtain ⟨hspelled, -⟩ := @scalar_longest_unless_foreign (Exact .unturned) _ line 0 _ hfirst
    obtain ⟨hnumber, hread, -⟩ := hspelled pointedText ['p', 'x'] hchars hlongest
    have hforeign : ¬ pointedText.MeetsForeign ['p', 'x'] :=
      (RealText.complete_isDecimalDigit_iff (complete_pointedText (by decide))).1
        (complete_pointedText (by decide))
    rw [hread hforeign, hnumber, number_pointedText]
  · have hmeets : oneText.MeetsForeign ['\u0663'] :=
      Or.inl ⟨'\u0663', [], rfl, by decide, by decide⟩
    obtain ⟨hspelled, -⟩ := @scalar_longest_unless_foreign (Exact .unturned) _ line 1 _ hsecond
    exact (hspelled oneText ['\u0663'] (by decide +kernel) isLongest_oneText).2.2 hmeets
  · refine (scalar_longest_unless_foreign hthird).2.1 fun hbegins => ?_
    obtain ⟨t, -, ht⟩ := hbegins
    obtain ⟨v, hv⟩ := RealText.exists_isLongest t.uses_isDecimalDigit ht
    have hnone : scanReal? (trimStart "px".toList) = none := by decide +kernel
    rw [RealText.scanReal?_of_isLongest hv] at hnone
    cases hnone

/-- A token that begins with a real number, and is read as a whole one, but not as a real one. -/
theorem unread_before_foreign_digit :
    Line.parse "angle=1\u0663" = .ok { name := "angle", tokens := ["1\u0663"] } ∧
    oneText.Uses Char.isDigit ∧ oneText.chars <+: trimStart "1\u0663".toList ∧
    ({ name := "angle", tokens := ["1\u0663"] } : Line).whole 0 = .ok (some 1) ∧
    (({ name := "angle", tokens := ["1\u0663"] } : Line).scalar 0 :
      Except Fault (Option (Exact .unturned))) =
      .error (.unreadable "angle" 0 "1\u0663" .real) := by
  refine ⟨by decide +kernel, by decide, by decide +kernel, by decide +kernel, ?_⟩
  exact scalar_of_unreadable rfl (by decide +kernel)

end Line

end Overlay

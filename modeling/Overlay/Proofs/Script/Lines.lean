import Overlay.Proofs.Script.Tokens
import Mathlib.Data.List.DropRight

/-!
# The lines that are read

Which texts are lines (`IsLine`), and that reading finds their name and their tokens, and no others
(`parse_eq_ok_iff`).  A line that is printed reads back as it was (`parse_print`).
-/

namespace Overlay

namespace Script

/-! ### Names and line ends -/

/-- A letter of ASCII or an underscore. -/
def NameStart (c : Char) : Prop := ('A' ≤ c ∧ c ≤ 'Z') ∨ ('a' ≤ c ∧ c ≤ 'z') ∨ c = '_'

/-- A letter of ASCII or an underscore, and then such characters and digits. -/
def IsName (cs : List Char) : Prop :=
  ∃ c more, cs = c :: more ∧ NameStart c ∧ ∀ d ∈ more, NameStart d ∨ ('0' ≤ d ∧ d ≤ '9')

/-- The text `stem` is `cs` without its trailing run of carriage returns and line feeds. -/
def Trimmed (cs stem : List Char) : Prop :=
  ∃ ends, cs = stem ++ ends ∧ (∀ c ∈ ends, c = '\r' ∨ c = '\n') ∧
    ∀ c, stem.getLast? = some c → c ≠ '\r' ∧ c ≠ '\n'

/-- Without the line ends it closes with, the text is a name, an equals sign and a rest without line
feed. -/
def IsLine (text : String) (name rest : List Char) : Prop :=
  Trimmed text.toList (name ++ '=' :: rest) ∧ IsName name ∧ '\n' ∉ rest

theorem isNameStart_iff (c : Char) : isNameStart c = true ↔ NameStart c := by
  show (decide ('A' ≤ c ∧ c ≤ 'Z') || (decide ('a' ≤ c) && decide (c ≤ 'z')) || c == '_') = true ↔ _
  simp only [NameStart, Bool.or_eq_true, Bool.and_eq_true, decide_eq_true_eq, beq_iff_eq, or_assoc]

theorem isNameChar_iff (c : Char) :
    isNameChar c = true ↔ NameStart c ∨ ('0' ≤ c ∧ c ≤ '9') := by
  rw [← isNameStart_iff]
  show (c.isAlpha || (decide ('0' ≤ c) && decide (c ≤ '9')) || c == '_') = true ↔ _
  simp only [isNameStart, Bool.or_eq_true, Bool.and_eq_true, decide_eq_true_eq, beq_iff_eq]
  exact or_right_comm

theorem isLineEnd_iff (c : Char) : isLineEnd c = true ↔ c = '\r' ∨ c = '\n' := by
  simp [isLineEnd]

theorem isNameChar_equals : isNameChar '=' = false := by decide

/-- The characters of a name, its first one among them, are those the reader takes. -/
theorem isName_cons_iff (c : Char) (more : List Char) :
    IsName (c :: more) ↔ isNameStart c = true ∧ ∀ d ∈ more, isNameChar d = true := by
  simp only [IsName, List.cons.injEq, isNameStart_iff, isNameChar_iff]
  constructor
  · rintro ⟨c, more, ⟨rfl, rfl⟩, h⟩
    exact h
  · exact fun h => ⟨c, more, ⟨rfl, rfl⟩, h⟩

theorem IsName.isNameChar {cs : List Char} (h : IsName cs) : ∀ c ∈ cs, isNameChar c = true := by
  obtain ⟨c, more, rfl, hc, hm⟩ := h
  intro d hd
  rw [isNameChar_iff]
  rcases List.mem_cons.1 hd with rfl | hd
  · exact Or.inl hc
  · exact hm d hd

/-! ### Parts of a line -/

theorem dropLineEnd_eq_rdropWhile (cs : List Char) : dropLineEnd cs = cs.rdropWhile isLineEnd := rfl

theorem dropLineEnd_eq_iff {cs stem : List Char} : dropLineEnd cs = stem ↔ Trimmed cs stem := by
  constructor
  · rintro rfl
    rw [dropLineEnd_eq_rdropWhile]
    refine ⟨cs.rtakeWhile isLineEnd, (List.rdropWhile_append_rtakeWhile ..).symm, ?_, ?_⟩
    · exact fun c hc => (isLineEnd_iff c).1 (List.mem_rtakeWhile_imp hc)
    · intro c hc
      have hne : cs.rdropWhile isLineEnd ≠ [] := fun e => by simp [e] at hc
      rw [List.getLast?_eq_some_getLast hne] at hc
      obtain rfl := Option.some.inj hc
      simpa [isLineEnd] using List.rdropWhile_last_not _ _ hne
  · rintro ⟨ends, rfl, he, hs⟩
    have hb : ∀ c ∈ ends.reverse, isLineEnd c = true := fun c hc =>
      (isLineEnd_iff c).2 (he c (List.mem_reverse.1 hc))
    have ht : ∀ c, stem.reverse.head? = some c → isLineEnd c = false := by
      intro c hc
      rw [List.head?_reverse] at hc
      simpa [isLineEnd] using hs c hc
    rw [dropLineEnd, List.reverse_append, (takeWhile_dropWhile_run hb ht).2, List.reverse_reverse]

end Script

namespace Line

open Script

theorem split?_eq_some_iff {cs name rest : List Char} :
    split? cs = some (name, rest) ↔ cs = name ++ '=' :: rest ∧ IsName name ∧ '\n' ∉ rest := by
  constructor
  · intro h
    unfold split? at h
    split at h
    · rename_i c more rest' htake hdrop
      split at h
      · rename_i hcond
        obtain ⟨rfl, rfl⟩ := Prod.mk.inj (Option.some.inj h)
        simp only [Bool.and_eq_true, Bool.not_eq_true', List.contains_eq_mem,
          decide_eq_false_iff_not] at hcond
        refine ⟨?_, (isName_cons_iff c more).2 ⟨hcond.1, ?_⟩, hcond.2⟩
        · rw [← htake, ← hdrop, List.takeWhile_append_dropWhile]
        · exact fun d hd => List.mem_takeWhile_imp (htake ▸ List.mem_cons_of_mem _ hd)
      · cases h
    · cases h
  · rintro ⟨rfl, hn, hr⟩
    obtain ⟨htake, hdrop⟩ := takeWhile_dropWhile_cons hn.isNameChar isNameChar_equals rest
    obtain ⟨c, more, rfl, hc, -⟩ := hn
    unfold split?
    rw [htake, hdrop]
    simp [(isNameStart_iff c).2 hc, hr]

/-- The tokens of a line, character by character. -/
def tokenChars (line : Line) : List (List Char) := line.tokens.map String.toList

theorem map_ofList_tokenChars (line : Line) : line.tokenChars.map String.ofList = line.tokens := by
  simp [tokenChars, List.map_map, Function.comp_def]

/-! ### Reading -/

theorem isLine_iff {text : String} {name rest : List Char} :
    IsLine text name rest ↔ split? (dropLineEnd text.toList) = some (name, rest) := by
  rw [split?_eq_some_iff, dropLineEnd_eq_iff]
  rfl

/-- A text is a line in one way. -/
theorem isLine_unique {text : String} {name name' rest rest' : List Char}
    (h : IsLine text name rest) (h' : IsLine text name' rest') : name = name' ∧ rest = rest' := by
  rw [isLine_iff] at h h'
  exact Prod.mk.inj (Option.some.inj (h.symm.trans h'))

theorem parse_eq_ok_iff {text : String} {line : Line} :
    Line.parse text = .ok line ↔
      ∃ rest, IsLine text line.name.toList rest ∧ tokenize rest = line.tokenChars := by
  have hp : Line.parse text = .ok line ↔ parse? text = some line := by
    unfold Line.parse
    split <;> simp_all
  rw [hp, parse?, Option.map_eq_some_iff]
  constructor
  · rintro ⟨⟨name, rest⟩, hs, rfl⟩
    exact ⟨rest, by simpa using isLine_iff.2 hs, by simp [tokenChars, Function.comp_def]⟩
  · rintro ⟨rest, h, e⟩
    refine ⟨(line.name.toList, rest), isLine_iff.1 h, ?_⟩
    show Line.mk (String.ofList line.name.toList) ((tokenize rest).map String.ofList) = line
    rw [e, map_ofList_tokenChars, String.ofList_toList]

/-- A text is read exactly if it is a line. -/
theorem exists_parse_iff (text : String) :
    (∃ line, Line.parse text = .ok line) ↔ ∃ name rest, IsLine text name rest := by
  constructor
  · rintro ⟨line, h⟩
    obtain ⟨rest, h, -⟩ := parse_eq_ok_iff.1 h
    exact ⟨_, rest, h⟩
  · rintro ⟨name, rest, h⟩
    refine ⟨⟨String.ofList name, (tokenize rest).map String.ofList⟩, parse_eq_ok_iff.2 ⟨rest, ?_, ?_⟩⟩
    · simpa using h
    · simp [tokenChars, Function.comp_def]

/-! ### Printing -/

theorem spells_flatMap_comma (ts : List (List Char)) : Spells ts (ts.flatMap (· ++ [','])) := by
  induction ts with
  | nil => exact .nil
  | cons t ts ih => simpa [commas] using Spells.cons t 1 ih (fun _ h => absurd h (by decide))

theorem toList_print (line : Line) :
    line.print.toList = line.name.toList ++ '=' :: line.tokenChars.flatMap (· ++ [',']) := by
  simp [print, tokenChars, List.flatMap_map]

/-- A printed line ends in a comma or in the equals sign, so no line end is cut off. -/
theorem getLast?_print (line : Line) :
    line.print.toList.getLast? = some '=' ∨ line.print.toList.getLast? = some ',' := by
  rw [toList_print]
  rcases List.eq_nil_or_concat line.tokenChars with e | ⟨ts, t, e⟩
  · exact Or.inl (by simp [e])
  · exact Or.inr (by simp [e, List.getLast?_append, List.getLast?_cons])

/-- A line of tokens without line feeds reads back after printing. -/
theorem parse_print {line : Line} (hn : IsName line.name.toList) (hw : WellFormed line.tokenChars)
    (hf : ∀ t ∈ line.tokenChars, '\n' ∉ t) : Line.parse line.print = .ok line := by
  have hs := spells_flatMap_comma line.tokenChars
  have hlast : ∀ c, line.print.toList.getLast? = some c → c ≠ '\r' ∧ c ≠ '\n' := by
    intro c hc
    rcases getLast?_print line with h | h <;> (rw [h] at hc; obtain rfl := Option.some.inj hc; decide)
  refine parse_eq_ok_iff.2 ⟨line.tokenChars.flatMap (· ++ [',']), ⟨⟨[], ?_, by simp, ?_⟩, hn, ?_⟩, ?_⟩
  · rw [toList_print, List.append_nil]
  · rwa [← toList_print]
  · intro h
    rcases hs.mem h with e | ⟨t, ht, h⟩
    · exact absurd e (by decide)
    · exact hf t ht h
  · exact tokenize_eq_of_spells hs hw

/-- The tokens that were read hold no line feed. -/
theorem lineFeed_not_mem_of_parse {text : String} {line : Line} (h : Line.parse text = .ok line) :
    ∀ t ∈ line.tokenChars, '\n' ∉ t := by
  obtain ⟨rest, ⟨-, -, hf⟩, e⟩ := parse_eq_ok_iff.1 h
  intro t ht hm
  exact hf ((e ▸ spelled_tokenize rest).mem_of_mem ht hm)

/-- Reading accepts the lines and nothing else, finds the name and the only tokens there can be, and
undoes printing; what was read once reads the same after printing. -/
theorem parse_exact_and_print_inverse (text : String) :
    ((∃ line, Line.parse text = .ok line) ↔ ∃ name rest, IsLine text name rest) ∧
    (∀ line name rest, Line.parse text = .ok line → IsLine text name rest →
      line.name.toList = name ∧ ∀ ts, WellFormed ts ∧ Spelled ts rest ↔ ts = line.tokenChars) ∧
    (∀ line : Line, IsName line.name.toList → WellFormed line.tokenChars →
      (∀ t ∈ line.tokenChars, '\n' ∉ t) → Line.parse line.print = .ok line) ∧
    (∀ line, Line.parse text = .ok line → Line.parse line.print = .ok line) := by
  refine ⟨exists_parse_iff text, ?_, fun line => parse_print, ?_⟩
  · intro line name rest hp h
    obtain ⟨rest', h', e⟩ := parse_eq_ok_iff.1 hp
    obtain ⟨rfl, rfl⟩ := isLine_unique h h'
    refine ⟨rfl, fun ts => ?_⟩
    rw [← tokenize_eq_iff, e, eq_comm]
  · intro line hp
    obtain ⟨rest, ⟨-, hn, -⟩, e⟩ := parse_eq_ok_iff.1 hp
    exact parse_print hn (e ▸ wellFormed_tokenize rest) (lineFeed_not_mem_of_parse hp)

/-- A quoted comma, an empty field, a quote inside a token and one that is never closed. -/
theorem parse_print_of_quotes_and_gaps :
    Line.parse "text=\"a,b\"c,,d\"e,\"\r\n" = .ok ⟨"text", ["\"a,b\"", "c", "d\"e", "\""]⟩ ∧
      Line.parse (print ⟨"text", ["\"a,b\"", "c", "d\"e", "\""]⟩) =
        .ok ⟨"text", ["\"a,b\"", "c", "d\"e", "\""]⟩ := by
  have h : Line.parse "text=\"a,b\"c,,d\"e,\"\r\n" =
      .ok ⟨"text", ["\"a,b\"", "c", "d\"e", "\""]⟩ := by
    decide +kernel
  obtain ⟨-, -, -, hprint⟩ := parse_exact_and_print_inverse "text=\"a,b\"c,,d\"e,\"\r\n"
  exact ⟨h, hprint _ h⟩

end Line

end Overlay

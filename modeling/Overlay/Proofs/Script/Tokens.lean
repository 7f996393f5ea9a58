import Overlay.Script.Line
import Mathlib.Data.List.TakeWhile

/-!
# The tokens of a value text

What a list of tokens looks like (`WellFormed`) and how a text spells one (`Spelled`), neither of them
in terms of reading.  `tokenize` gives the only well-formed list that a text spells:
`wellFormed_tokenize` and `spelled_tokenize` say that it gives one, `tokenize_eq_of_spelled` that there
is no other.
-/

namespace Overlay

namespace Script

/-! ### Tokens and their spelling -/

/-- A double quote, text without double quotes, and a double quote. -/
def IsQuoted (t : List Char) : Prop := ∃ body, '"' ∉ body ∧ t = '"' :: (body ++ ['"'])

/-- A run without commas, not empty, that does not begin with a double quote. -/
def IsPlain (t : List Char) : Prop := t ≠ [] ∧ ',' ∉ t ∧ t.head? ≠ some '"'

/-- A run without commas that begins with a double quote and holds no other one, before tokens that
hold none either. -/
def IsDangling (t : List Char) (later : List (List Char)) : Prop :=
  ∃ body, t = '"' :: body ∧ ',' ∉ body ∧ '"' ∉ body ∧ ∀ u ∈ later, '"' ∉ u

/-- Every token is quoted, plain, or dangling before the ones after it. -/
def WellFormed : List (List Char) → Prop
  | [] => True
  | t :: later => (IsQuoted t ∨ IsPlain t ∨ IsDangling t later) ∧ WellFormed later

/-- A run of commas. -/
def commas (n : Nat) : List Char := List.replicate n ','

/-- A text that begins with the first token, where each token is followed by a gap of commas.  The gap
between two tokens may be empty only after a quoted one. -/
inductive Spells : List (List Char) → List Char → Prop
  | nil : Spells [] []
  | cons {later : List (List Char)} {rest : List Char} (t : List Char) (gap : Nat)
      (h : Spells later rest) (apart : later ≠ [] → gap = 0 → IsQuoted t) :
      Spells (t :: later) (t ++ (commas gap ++ rest))

/-- The tokens in order, with nothing but commas before, between and after them. -/
def Spelled (ts : List (List Char)) (cs : List Char) : Prop :=
  ∃ lead rest, cs = commas lead ++ rest ∧ Spells ts rest

/-! ### What the shapes say -/

theorem IsQuoted.head? {t : List Char} (h : IsQuoted t) : t.head? = some '"' := by
  obtain ⟨body, -, rfl⟩ := h
  rfl

theorem IsPlain.not_isQuoted {t : List Char} (h : IsPlain t) : ¬ IsQuoted t :=
  fun hq => h.2.2 hq.head?

theorem IsDangling.not_isQuoted {t : List Char} {later : List (List Char)} (h : IsDangling t later) :
    ¬ IsQuoted t := by
  rintro ⟨inner, -, e⟩
  obtain ⟨body, rfl, -, hq, -⟩ := h
  have : body = inner ++ ['"'] := (List.cons.inj e).2
  exact hq (by simp [this])

/-- A well-formed token begins with a character that is not a comma. -/
theorem WellFormed.head_ne_comma {t : List Char} {later : List (List Char)}
    (h : WellFormed (t :: later)) : ∃ c body, t = c :: body ∧ c ≠ ',' := by
  rcases h.1 with ⟨body, -, rfl⟩ | ⟨hne, hc, -⟩ | ⟨body, rfl, -⟩
  · exact ⟨_, _, rfl, by decide⟩
  · cases t with
    | nil => exact absurd rfl hne
    | cons c body => exact ⟨c, body, rfl, fun e => hc (by simp [e])⟩
  · exact ⟨_, _, rfl, by decide⟩

/-- Every character of a spelling is a comma or stands in a token. -/
theorem Spells.mem {ts : List (List Char)} {cs : List Char} (h : Spells ts cs) {c : Char}
    (hc : c ∈ cs) : c = ',' ∨ ∃ t ∈ ts, c ∈ t := by
  induction h with
  | nil => simp at hc
  | cons t gap h apart ih =>
    rcases List.mem_append.1 hc with hc | hc
    · exact Or.inr ⟨t, by simp, hc⟩
    · rcases List.mem_append.1 hc with hc | hc
      · exact Or.inl (List.eq_of_mem_replicate hc)
      · rcases ih hc with hc | ⟨u, hu, hc⟩
        · exact Or.inl hc
        · exact Or.inr ⟨u, List.mem_cons_of_mem _ hu, hc⟩

/-- Every character of a token stands in the spelling. -/
theorem Spells.mem_of_mem {ts : List (List Char)} {cs : List Char} (h : Spells ts cs) {t : List Char}
    (ht : t ∈ ts) {c : Char} (hc : c ∈ t) : c ∈ cs := by
  induction h with
  | nil => simp at ht
  | cons u gap h apart ih =>
    rcases List.mem_cons.1 ht with rfl | ht
    · exact List.mem_append_left _ hc
    · exact List.mem_append_right _ (List.mem_append_right _ (ih ht))

theorem Spelled.mem_of_mem {ts : List (List Char)} {cs : List Char} (h : Spelled ts cs)
    {t : List Char} (ht : t ∈ ts) {c : Char} (hc : c ∈ t) : c ∈ cs := by
  obtain ⟨lead, rest, rfl, hs⟩ := h
  exact List.mem_append_right _ (hs.mem_of_mem ht hc)

/-- Where there is a token, the spelling does not begin with a comma. -/
theorem Spells.head_ne_comma {ts : List (List Char)} {cs : List Char} (h : Spells ts cs)
    (hw : WellFormed ts) (hne : ts ≠ []) : ∃ c rest, cs = c :: rest ∧ c ≠ ',' := by
  cases h with
  | nil => exact absurd rfl hne
  | cons t gap h apart =>
    obtain ⟨c, body, rfl, hc⟩ := hw.head_ne_comma
    exact ⟨c, _, rfl, hc⟩

/-! ### Steps of the tokenizer -/

theorem tokenize_nil : tokenize [] = [] := by simp [tokenize]

theorem tokenize_comma (cs : List Char) : tokenize (',' :: cs) = tokenize cs := by
  rw [tokenize, if_pos rfl]

theorem tokenize_commas (n : Nat) (cs : List Char) : tokenize (commas n ++ cs) = tokenize cs := by
  induction n with
  | zero => rfl
  | succ n ih =>
    show tokenize (',' :: (commas n ++ cs)) = tokenize cs
    rw [tokenize_comma, ih]

/-- A run is taken up to the first character that ends it, and the rest is left. -/
theorem takeWhile_dropWhile_run {p : Char → Bool} {body tail : List Char}
    (hb : ∀ c ∈ body, p c = true) (ht : ∀ c, tail.head? = some c → p c = false) :
    (body ++ tail).takeWhile p = body ∧ (body ++ tail).dropWhile p = tail := by
  rw [List.takeWhile_append_of_pos hb, List.dropWhile_append_of_pos hb]
  cases tail with
  | nil => simp
  | cons c tail => simp [ht c rfl]

theorem takeWhile_dropWhile_cons {p : Char → Bool} {body : List Char} {c : Char}
    (hb : ∀ d ∈ body, p d = true) (hc : p c = false) (tail : List Char) :
    (body ++ c :: tail).takeWhile p = body ∧ (body ++ c :: tail).dropWhile p = c :: tail :=
  takeWhile_dropWhile_run hb fun d hd => by
    obtain rfl := Option.some.inj hd
    exact hc

theorem tokenize_quoted {body : List Char} (hb : '"' ∉ body) (rest : List Char) :
    tokenize ('"' :: (body ++ '"' :: rest)) = ('"' :: (body ++ ['"'])) :: tokenize rest := by
  have hp : ∀ c ∈ body, decide (c ≠ '"') = true := fun c hc => by
    simpa using fun e : c = '"' => hb (e ▸ hc)
  obtain ⟨htake, hdrop⟩ := takeWhile_dropWhile_cons (c := '"') hp (by simp) rest
  rw [tokenize, if_neg (by decide), if_pos ⟨rfl, by simp⟩, htake, hdrop]
  rfl

theorem tokenize_run {c : Char} {body tail : List Char} (hc : c ≠ ',') (hb : ',' ∉ body)
    (hq : ¬ (c = '"' ∧ '"' ∈ body ++ tail)) (ht : ∀ d, tail.head? = some d → d = ',') :
    tokenize (c :: (body ++ tail)) = (c :: body) :: tokenize tail := by
  have hp : ∀ d ∈ body, decide (d ≠ ',') = true := fun d hd => by
    simpa using fun e : d = ',' => hb (e ▸ hd)
  obtain ⟨htake, hdrop⟩ := takeWhile_dropWhile_run hp (by simpa using ht)
  rw [tokenize, if_neg hc, if_neg hq, htake, hdrop]

/-! ### No other list -/

/-- What follows a token that is not quoted begins with a comma, if with anything. -/
theorem head_gap {t : List Char} {later : List (List Char)} {rest : List Char} {gap : Nat}
    (h : Spells later rest) (apart : later ≠ [] → gap = 0 → IsQuoted t) (ht : ¬ IsQuoted t) :
    ∀ c, (commas gap ++ rest).head? = some c → c = ',' := by
  intro c hc
  cases gap with
  | succ n => simpa [commas, List.replicate_succ, eq_comm] using hc
  | zero =>
    cases h with
    | nil => simp [commas] at hc
    | cons u gap h apart' => exact absurd (apart (by simp) rfl) ht

/-- Reading what spells a well-formed list of tokens gives the list. -/
theorem tokenize_eq_of_spells {ts : List (List Char)} {cs : List Char} (h : Spells ts cs)
    (hw : WellFormed ts) : tokenize cs = ts := by
  induction h with
  | nil => exact tokenize_nil
  | @cons later rest t gap h apart ih =>
    have htail : tokenize (commas gap ++ rest) = later := by rw [tokenize_commas, ih hw.2]
    rcases hw.1 with ⟨body, hb, rfl⟩ | hp | hd
    · have e : '"' :: (body ++ ['"']) ++ (commas gap ++ rest)
          = '"' :: (body ++ '"' :: (commas gap ++ rest)) := by simp
      rw [e, tokenize_quoted hb, htail]
    · have hg := head_gap h apart hp.not_isQuoted
      obtain ⟨hne, hc, hq⟩ := hp
      cases t with
      | nil => exact absurd rfl hne
      | cons c body =>
        simp only [List.mem_cons, not_or] at hc
        rw [List.cons_append, tokenize_run (Ne.symm hc.1) hc.2 (fun e => hq (by simp [e.1])) hg, htail]
    · have hg := head_gap h apart hd.not_isQuoted
      obtain ⟨body, rfl, hc, hq, hl⟩ := hd
      have hq' : '"' ∉ body ++ (commas gap ++ rest) := by
        simp only [List.mem_append, not_or]
        refine ⟨hq, fun hm => absurd (List.eq_of_mem_replicate hm) (by decide), fun hm => ?_⟩
        rcases h.mem hm with e | ⟨u, hu, hm⟩
        · exact absurd e (by decide)
        · exact hl u hu hm
      rw [List.cons_append, tokenize_run (by decide) hc (fun e => hq' e.2) hg, htail]

theorem tokenize_eq_of_spelled {ts : List (List Char)} {cs : List Char} (h : Spelled ts cs)
    (hw : WellFormed ts) : tokenize cs = ts := by
  obtain ⟨lead, rest, rfl, hs⟩ := h
  rw [tokenize_commas, tokenize_eq_of_spells hs hw]

/-! ### One list -/

theorem Spelled.comma {ts : List (List Char)} {cs : List Char} (h : Spelled ts cs) :
    Spelled ts (',' :: cs) := by
  obtain ⟨lead, rest, rfl, hs⟩ := h
  exact ⟨lead + 1, rest, rfl, hs⟩

/-- A token in front of a spelling, which it may touch only if it is quoted. -/
theorem Spelled.cons {ts : List (List Char)} {tail : List Char} {t : List Char} (h : Spelled ts tail)
    (hw : WellFormed ts) (apart : IsQuoted t ∨ ∀ c, tail.head? = some c → c = ',') :
    Spelled (t :: ts) (t ++ tail) := by
  obtain ⟨lead, rest, rfl, hs⟩ := h
  refine ⟨0, t ++ (commas lead ++ rest), rfl, .cons t lead hs fun hne hlead => ?_⟩
  rcases apart with hq | hc
  · exact hq
  · obtain ⟨c, body, rfl, hne⟩ := hs.head_ne_comma hw hne
    subst hlead
    exact absurd (hc c rfl) hne

/-- The tokens of a text are well formed, and the text spells them. -/
theorem wellFormed_and_spelled_tokenize (cs : List Char) :
    WellFormed (tokenize cs) ∧ Spelled (tokenize cs) cs := by
  fun_induction tokenize cs with
  | case1 => exact ⟨trivial, 0, [], rfl, .nil⟩
  | case2 rest ih => exact ⟨ih.1, ih.2.comma⟩
  | case3 c rest hc hq ih =>
    obtain ⟨rfl, hm⟩ := hq
    obtain ⟨body, tail, rfl, hb⟩ := List.eq_append_cons_of_mem hm
    have hp : ∀ c ∈ body, decide (c ≠ '"') = true := fun c hc => by
      simpa using fun e : c = '"' => hb (e ▸ hc)
    obtain ⟨htake, hdrop⟩ := takeWhile_dropWhile_cons (c := '"') hp (by simp) tail
    rw [hdrop, List.tail_cons] at ih
    rw [htake, hdrop, List.tail_cons]
    have hquoted : IsQuoted ('"' :: (body ++ ['"'])) := ⟨body, hb, rfl⟩
    refine ⟨⟨Or.inl hquoted, ih.1⟩, ?_⟩
    simpa using ih.2.cons ih.1 (Or.inl hquoted)
  | case4 c rest hc hq ih =>
    have hcomma : ',' ∉ rest.takeWhile (· ≠ ',') := fun h => by
      simpa using List.mem_takeWhile_imp h
    have hstop : ∀ d, (rest.dropWhile (· ≠ ',')).head? = some d → d = ',' := fun d hd => by
      have := List.head?_dropWhile_not (· ≠ ',') rest
      rw [hd] at this
      simpa using this
    have hrest : rest.takeWhile (· ≠ ',') ++ rest.dropWhile (· ≠ ',') = rest :=
      List.takeWhile_append_dropWhile
    refine ⟨⟨Or.inr ?_, ih.1⟩, ?_⟩
    · by_cases hd : c = '"'
      · have hrun : '"' ∉ rest.takeWhile (· ≠ ',') := fun h =>
          hq ⟨hd, hrest ▸ List.mem_append_left _ h⟩
        have hlater : ∀ u ∈ tokenize (rest.dropWhile (· ≠ ',')), '"' ∉ u := fun u hu h =>
          hq ⟨hd, hrest ▸ List.mem_append_right _ (ih.2.mem_of_mem hu h)⟩
        exact Or.inr ⟨_, by rw [hd], hcomma, hrun, hlater⟩
      · exact Or.inl ⟨by simp, List.not_mem_cons_of_ne_of_not_mem (Ne.symm hc) hcomma, by simpa using hd⟩
    · simpa [hrest] using ih.2.cons (t := c :: rest.takeWhile (· ≠ ',')) ih.1 (Or.inr hstop)

theorem wellFormed_tokenize (cs : List Char) : WellFormed (tokenize cs) :=
  (wellFormed_and_spelled_tokenize cs).1

theorem spelled_tokenize (cs : List Char) : Spelled (tokenize cs) cs :=
  (wellFormed_and_spelled_tokenize cs).2

/-- The tokens of a text are the only well-formed list that it spells. -/
theorem tokenize_eq_iff {ts : List (List Char)} {cs : List Char} :
    tokenize cs = ts ↔ WellFormed ts ∧ Spelled ts cs := by
  constructor
  · rintro rfl
    exact wellFormed_and_spelled_tokenize cs
  · exact fun h => tokenize_eq_of_spelled h.2 h.1

end Script

end Overlay

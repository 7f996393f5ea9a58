import Mathlib.Data.List.Basic
import Overlay.Command.Check
import Overlay.Proofs.Picture.LineOrder

/-!
# The number of a refused line

The command `check` drops the blank lines of a script before it numbers the others.  It fails exactly if the
engine refuses a line that is not blank, and its failure names the first such line, word for word; but the
number beside it counts the lines that are not blank (`solidCount`), not the lines of the file.  So it is the
place of the line in the file exactly if no blank line stands above it: `refused_line_numbered`.
-/

namespace Overlay

namespace Command

open Script Picture

/-- The line is not blank. -/
def isSolid (line : String) : Bool := !Text.isBlankText line.toList

/-- How many of the first `k` lines of a text are not blank. -/
def solidCount (text : String) (k : ℕ) : ℕ := ((textLines text).take k).countP isSolid

/-- The first line of the text that is neither blank nor accepted has `k` lines above it, and is refused with
the fault `f`. -/
structure FirstRefused (text : String) (k : ℕ) (line : String) (f : Fault) : Prop where
  stands : (textLines text)[k]? = some line
  solid : isSolid line = true
  refused : lineFault Float line = some f
  first : ∀ l ∈ (textLines text).take k, isSolid l = true → Accepted Float l

/-! ### Reading numbered lines -/

section Reading

variable {α : Type} [Scalar α] {p : Picture α} {xs : List String} (path : String) (number : ℕ)

/-- Accepted lines are passed. -/
theorem readNumbered_append (hp : Clamped p) (hxs : ∀ t ∈ xs, Accepted α t) (ys : List String) :
    readNumbered path p number (xs ++ ys) =
      readNumbered path (p.after (xs.map .line)) (number + xs.length) ys := by
  induction xs generalizing p number with
  | nil => rfl
  | cons t xs ih =>
    obtain ⟨ht, hrest⟩ := List.forall_mem_cons.1 hxs
    have hfault := (perform_line_fault hp t).trans ht
    cases hr : p.readLine t with
    | error f =>
      rw [perform_line_error hr] at hfault
      cases hfault
    | ok q =>
      have hq : Clamped q := by
        have := hp.perform (.line t)
        rwa [perform_line_ok hr] at this
      rw [List.cons_append, readNumbered, hr, List.map_cons, after_cons, perform_line_ok hr]
      refine (ih (number + 1) hq hrest).trans ?_
      rw [List.length_cons, Nat.add_assoc, Nat.add_comm 1]

/-- Whatever stands above, a refused line ends the reading with its number. -/
theorem readNumbered_of_refused (hp : Clamped p) (hxs : ∀ t ∈ xs, Accepted α t) {t : String} {f : Fault}
    (ht : lineFault α t = some f) (ys : List String) :
    readNumbered path p number (xs ++ t :: ys) = .error (.badLine path (number + xs.length) t f) := by
  have hfault := (perform_line_fault (hp.after (xs.map .line)) t).trans ht
  rw [readNumbered_append path number hp hxs, readNumbered]
  cases hr : (p.after (xs.map .line)).readLine t with
  | ok q =>
    rw [perform_line_ok hr] at hfault
    cases hfault
  | error f' =>
    rw [perform_line_error hr] at hfault
    cases hfault
    rfl

end Reading

/-! ### Checking a script -/

variable {text : String} {k : ℕ} {line : String} {f : Fault} (config : Config) (origin : Origin)
  (path : String)

/-- A line that is refused and not blank has a first one above it, or is the first. -/
theorem exists_firstRefused (h : ∃ l ∈ textLines text, isSolid l = true ∧ ¬ Accepted Float l) :
    ∃ k line f, FirstRefused text k line f := by
  let bad (l : String) : Bool := isSolid l && (lineFault Float l).isSome
  obtain ⟨l, hl, hsolid, hrefused⟩ := h
  have hbad : bad l = true := by
    simpa [bad, hsolid, Accepted, Option.isSome_iff_ne_none] using hrefused
  have hlt : (textLines text).findIdx bad < (textLines text).length := List.findIdx_lt_length.2 ⟨l, hl, hbad⟩
  have hfound := Bool.and_eq_true_iff.1 (List.findIdx_getElem (w := hlt))
  obtain ⟨f, hf⟩ := Option.isSome_iff_exists.1 hfound.2
  refine ⟨_, _, f, List.getElem?_eq_getElem hlt, hfound.1, hf, fun x hx hxs => ?_⟩
  obtain ⟨i, hi, rfl⟩ := List.mem_take_iff_getElem.1 hx
  have hnot := List.not_of_lt_findIdx (Nat.lt_min.1 hi).1
  simpa [bad, hxs, Accepted, Option.isSome_iff_ne_none] using hnot

namespace FirstRefused

/-- The lines of a document, taken apart at the first refused one. -/
theorem documentLines_eq (h : FirstRefused text k line f) :
    documentLines text =
      ((textLines text).take k).filter isSolid ++ line :: ((textLines text).drop (k + 1)).filter isSolid := by
  obtain ⟨hk, hline⟩ := List.getElem?_eq_some_iff.1 h.stands
  calc documentLines text = ((textLines text).take k ++ (textLines text).drop k).filter isSolid := by
        rw [List.take_append_drop]
        rfl
    _ = _ := by
        rw [List.filter_append, List.drop_eq_getElem_cons hk, hline, List.filter_cons_of_pos h.solid]

theorem check_eq (h : FirstRefused text k line f) :
    check (α := Float) config origin path (some text) =
      .error (.badLine path (solidCount text k + 1) line f) := by
  have haccepted : ∀ t ∈ ((textLines text).take k).filter isSolid, Accepted Float t := fun t ht =>
    h.first t (List.mem_of_mem_filter ht) (List.of_mem_filter ht)
  have hread := readNumbered_of_refused (p := .initial origin config) path 1 rfl haccepted h.refused
    (((textLines text).drop (k + 1)).filter isSolid)
  rw [check, h.documentLines_eq, hread, solidCount, List.countP_eq_length_filter, Nat.add_comm 1]
  rfl

/-- The count of the lines that are not blank is the place of the line if they are all there is above it. -/
theorem solidCount_eq_iff (h : FirstRefused text k line f) :
    solidCount text k = k ↔ ∀ l ∈ (textLines text).take k, isSolid l = true := by
  obtain ⟨hk, -⟩ := List.getElem?_eq_some_iff.1 h.stands
  have hlength : ((textLines text).take k).length = k := List.length_take_of_le (Nat.le_of_lt hk)
  rw [← List.countP_eq_length, hlength, solidCount]

end FirstRefused

theorem check_of_accepted (h : ∀ l ∈ textLines text, isSolid l = true → Accepted Float l) :
    ∃ q output, check (α := Float) config origin path (some text) = .ok (q, output) := by
  have haccepted : ∀ t ∈ documentLines text, Accepted Float t := fun t ht =>
    h t (List.mem_of_mem_filter ht) (List.of_mem_filter ht)
  have hread := readNumbered_append (p := .initial origin config) path 1 rfl haccepted []
  rw [List.append_nil] at hread
  exact ⟨_, _, by rw [check, hread]; rfl⟩

/-! ### The command -/

/-- Take any configuration and origin, and any text as the script.

The command fails exactly if the engine refuses some line of the text that is not blank, and so exactly if
there is a first such line.  Its failure names this line as it stands in the text, with the reason; the number
beside it is that of the lines up to it which are not blank, and so the place of the line in the text, counted
from one, exactly if no blank line stands above it. -/
theorem refused_line_numbered (config : Config) (origin : Origin) (path text : String) :
    ((∃ failure, check (α := Float) config origin path (some text) = .error failure) ↔
      ∃ line ∈ textLines text, isSolid line = true ∧ ¬ Accepted Float line) ∧
    ((∃ failure, check (α := Float) config origin path (some text) = .error failure) ↔
      ∃ k line f, FirstRefused text k line f) ∧
    ∀ k line f, FirstRefused text k line f →
      check (α := Float) config origin path (some text) =
        .error (.badLine path (solidCount text k + 1) line f) ∧
      (solidCount text k + 1 = k + 1 ↔ ∀ l ∈ (textLines text).take k, isSolid l = true) := by
  have hline : (∃ failure, check (α := Float) config origin path (some text) = .error failure) →
      ∃ line ∈ textLines text, isSolid line = true ∧ ¬ Accepted Float line := by
    rintro ⟨failure, hfailure⟩
    by_contra hall
    push Not at hall
    obtain ⟨q, output, hq⟩ := check_of_accepted config origin path hall
    rw [hq] at hfailure
    cases hfailure
  have hfails : (∃ k line f, FirstRefused text k line f) →
      ∃ failure, check (α := Float) config origin path (some text) = .error failure := by
    rintro ⟨k, line, f, h⟩
    exact ⟨_, h.check_eq config origin path⟩
  refine ⟨⟨hline, fun h => hfails (exists_firstRefused h)⟩,
    ⟨fun h => exists_firstRefused (hline h), hfails⟩,
    fun k line f h => ⟨h.check_eq config origin path, ?_⟩⟩
  rw [Nat.add_right_cancel_iff, h.solidCount_eq_iff]

/-- The third line of a script, below a blank one, is reported as the second. -/
theorem third_line_numbered_two :
    FirstRefused "pos=1,2\n\nfoo=1\n" 2 "foo=1" (.unknownProperty "foo") ∧
      check (α := Float) { chipSize := 32 } { trigger := ⟨5, 6⟩ } "script.pic"
          (some "pos=1,2\n\nfoo=1\n") =
        .error (.badLine "script.pic" 2 "foo=1" (.unknownProperty "foo")) := by
  have hfirst : FirstRefused "pos=1,2\n\nfoo=1\n" 2 "foo=1" (.unknownProperty "foo") := by
    refine ⟨by decide +kernel, by decide +kernel, by decide +kernel, ?_⟩
    unfold Accepted
    decide +kernel
  have hcount : solidCount "pos=1,2\n\nfoo=1\n" 2 = 1 := by decide +kernel
  obtain ⟨-, -, hreports⟩ := refused_line_numbered { chipSize := 32 } { trigger := ⟨5, 6⟩ } "script.pic"
    "pos=1,2\n\nfoo=1\n"
  refine ⟨hfirst, ?_⟩
  rw [(hreports _ _ _ hfirst).1, hcount]

/-- The second line of a script, below a blank one, is the first that is refused, and is reported as the
first line. -/
theorem second_line_numbered_one :
    FirstRefused "\nfoo=1" 1 "foo=1" (.unknownProperty "foo") ∧
      check (α := Float) {} {} "script.pic" (some "\nfoo=1") =
        .error (.badLine "script.pic" 1 "foo=1" (.unknownProperty "foo")) := by
  have hfirst : FirstRefused "\nfoo=1" 1 "foo=1" (.unknownProperty "foo") := by
    refine ⟨by decide +kernel, by decide +kernel, by decide +kernel, ?_⟩
    unfold Accepted
    decide +kernel
  have hcount : solidCount "\nfoo=1" 1 = 0 := by decide +kernel
  refine ⟨hfirst, ?_⟩
  rw [hfirst.check_eq, hcount]

end Command

end Overlay

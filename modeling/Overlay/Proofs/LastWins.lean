import Mathlib.Data.List.Nodup
import Mathlib.Data.List.Perm.Basic

/-!
# The last one wins

Steps that carry a key and may be ignored.  If steps with different keys commute and a step absorbs an
earlier one with its key, a list of steps comes to the same as the last accepted step of every key, in
any order (`LastWins.foldl_eq`).
-/

namespace Overlay

variable {P T K : Type}

/-- The steps `act` with keys: one that is not accepted changes nothing, different keys commute, and an
accepted step makes up for an earlier one with its key. -/
structure LastWins (act : P → T → P) (key : T → K) (accepted : T → Prop) : Prop where
  ignore : ∀ p t, ¬ accepted t → act p t = p
  comm : ∀ p t u, key t ≠ key u → act (act p t) u = act (act p u) t
  absorb : ∀ p t u, key t = key u → accepted u → act (act p t) u = act p u

/-- Some accepted step of the list has the key. -/
def Followed (key : T → K) (accepted : T → Prop) (ts : List T) (k : K) : Prop :=
  ∃ u ∈ ts, accepted u ∧ key u = k

/-- The step `t` stands in the list, accepted, and is not followed by an accepted one with its key. -/
def IsLast (key : T → K) (accepted : T → Prop) (ts : List T) (t : T) : Prop :=
  ∃ xs ys, ts = xs ++ t :: ys ∧ accepted t ∧ ¬ Followed key accepted ys (key t)

open Classical in
/-- The last accepted step of every key, in the order in which they stand. -/
noncomputable def lasts (key : T → K) (accepted : T → Prop) : List T → List T
  | [] => []
  | t :: ts =>
    if accepted t ∧ ¬ Followed key accepted ts (key t) then t :: lasts key accepted ts
    else lasts key accepted ts

variable {act : P → T → P} {key : T → K} {accepted : T → Prop} {t u : T} {ts us : List T}

theorem not_isLast_nil : ¬ IsLast key accepted [] u := by
  rintro ⟨xs, ys, e, -⟩
  simp at e

theorem isLast_cons_iff :
    IsLast key accepted (t :: ts) u ↔
      (u = t ∧ accepted t ∧ ¬ Followed key accepted ts (key t)) ∨ IsLast key accepted ts u := by
  constructor
  · rintro ⟨xs, ys, e, ha, hn⟩
    cases xs with
    | nil =>
      obtain ⟨rfl, rfl⟩ := List.cons.inj e
      exact Or.inl ⟨rfl, ha, hn⟩
    | cons x xs => exact Or.inr ⟨xs, ys, (List.cons.inj e).2, ha, hn⟩
  · rintro (⟨rfl, ha, hn⟩ | ⟨xs, ys, rfl, ha, hn⟩)
    · exact ⟨[], ts, rfl, ha, hn⟩
    · exact ⟨t :: xs, ys, rfl, ha, hn⟩

theorem mem_lasts_iff : t ∈ lasts key accepted ts ↔ IsLast key accepted ts t := by
  induction ts with
  | nil => simp [lasts, not_isLast_nil]
  | cons u ts ih =>
    rw [isLast_cons_iff, ← ih, lasts]
    split <;> rename_i h
    · simp [h.1, h.2]
    · constructor
      · exact Or.inr
      · rintro (⟨-, hu⟩ | ht)
        · exact absurd hu h
        · exact ht

theorem nodup_map_lasts : ((lasts key accepted ts).map key).Nodup := by
  induction ts with
  | nil => simp [lasts]
  | cons t ts ih =>
    rw [lasts]
    split <;> rename_i h
    · rw [List.map_cons, List.nodup_cons]
      refine ⟨fun hm => ?_, ih⟩
      obtain ⟨u, hu, hk⟩ := List.mem_map.1 hm
      obtain ⟨xs, ys, rfl, ha, -⟩ := mem_lasts_iff.1 hu
      exact h.2 ⟨u, by simp, ha, hk⟩
    · exact ih

namespace LastWins

/-- A step that is followed by one with its key makes no difference. -/
theorem foldl_of_followed (h : LastWins act key accepted) (hf : Followed key accepted ts (key t))
    (p : P) : ts.foldl act (act p t) = ts.foldl act p := by
  induction ts generalizing p with
  | nil =>
    obtain ⟨u, hu, -⟩ := hf
    cases hu
  | cons v ts ih =>
    obtain ⟨u, hu, ha, hk⟩ := hf
    rw [List.foldl_cons, List.foldl_cons]
    -- `t` meets `v`: it is absorbed, or it moves past `v` towards the step `u` that absorbs it
    by_cases hv : key v = key t
    · by_cases hav : accepted v
      · rw [h.absorb p t v hv.symm hav]
      · have hts : u ∈ ts := (List.mem_cons.1 hu).resolve_left fun e => hav (e ▸ ha)
        rw [h.ignore _ v hav, h.ignore _ v hav]
        exact ih ⟨u, hts, ha, hk⟩ p
    · have hts : u ∈ ts := (List.mem_cons.1 hu).resolve_left fun e => hv (e ▸ hk)
      rw [h.comm p t v (Ne.symm hv)]
      exact ih ⟨u, hts, ha, hk⟩ (act p v)

theorem foldl_lasts (h : LastWins act key accepted) (ts : List T) (p : P) :
    (lasts key accepted ts).foldl act p = ts.foldl act p := by
  induction ts generalizing p with
  | nil => rfl
  | cons t ts ih =>
    rw [lasts, List.foldl_cons]
    by_cases ha : accepted t
    · by_cases hf : Followed key accepted ts (key t)
      · rw [if_neg fun hn => hn.2 hf, ih, h.foldl_of_followed hf]
      · rw [if_pos ⟨ha, hf⟩, List.foldl_cons, ih]
    · rw [if_neg fun hn => ha hn.1, ih, h.ignore p t ha]

/-- Steps with distinct keys may be taken in any order. -/
theorem foldl_perm (h : LastWins act key accepted) (hp : us.Perm ts) (hk : (us.map key).Nodup) (p : P) :
    us.foldl act p = ts.foldl act p := by
  refine hp.foldl_eq' (fun x hx y hy q => ?_) p
  by_cases e : x = y
  · rw [e]
  · exact h.comm q x y fun hxy => e (List.inj_on_of_nodup_map hk hx hy hxy)

/-- The last accepted steps, in any order, come to the same as all steps. -/
theorem foldl_eq (h : LastWins act key accepted) (hk : (us.map key).Nodup)
    (hlast : ∀ t, t ∈ us ↔ IsLast key accepted ts t) (p : P) :
    us.foldl act p = ts.foldl act p := by
  have hperm : us.Perm (lasts key accepted ts) := by
    refine (List.perm_ext_iff_of_nodup hk.of_map nodup_map_lasts.of_map).2 fun t => ?_
    rw [hlast, mem_lasts_iff]
  rw [h.foldl_perm hperm hk, h.foldl_lasts]

end LastWins

end Overlay

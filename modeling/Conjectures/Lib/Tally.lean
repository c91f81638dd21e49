import Mathlib.Algebra.BigOperators.Group.List.Lemmas
import Mathlib.Algebra.Order.BigOperators.Group.List
import Mathlib.Data.List.Nodup

/-!
# Tallies

A tally is a dictionary of amounts, in the order of insertion: an amount may be added to a key,
which is entered if it is not there.  What a tally says of a key is `get`, zero for a key that is
not entered.

Adding an amount adds it to one key (`get_add`) and to the total (`total_add`).  A dictionary of
anything is summed key by key in `sum_by_key`.
-/

universe u v w

namespace Conjectures.Lib

variable {κ : Type u} [DecidableEq κ] {R : Type v}

/-- The keys of a dictionary are distinct. -/
def DistinctKeys {α : Type w} (d : List (κ × α)) : Prop := (d.map Prod.fst).Nodup

instance {α : Type w} (d : List (κ × α)) : Decidable (DistinctKeys d) :=
  inferInstanceAs (Decidable (List.Nodup _))

section Lookup

variable {α : Type w} {d : List (κ × α)} {k : κ} {x : α}

theorem lookup_of_not_mem (h : k ∉ d.map Prod.fst) : d.lookup k = none := by
  refine List.lookup_eq_none_iff.mpr fun p hp ↦ bne_iff_ne.mpr ?_
  rintro rfl
  exact h (List.mem_map_of_mem hp)

theorem mem_keys_iff : k ∈ d.map Prod.fst ↔ (d.lookup k).isSome := by
  rw [List.lookup_isSome_iff, List.mem_map]
  exact exists_congr fun p ↦ and_congr_right fun _ ↦ by rw [beq_iff_eq, eq_comm]

theorem lookup_cons_of_ne {k' : κ} (h : k ≠ k') : ((k', x) :: d).lookup k = d.lookup k := by
  rw [List.lookup_cons, beq_false_of_ne h]

theorem lookup_eq_some_iff (h : DistinctKeys d) : d.lookup k = some x ↔ (k, x) ∈ d := by
  induction d with
  | nil => simp
  | cons p d ih =>
    obtain ⟨hp, hd⟩ := List.nodup_cons.mp h
    obtain ⟨k', y⟩ := p
    by_cases hk : k = k'
    · subst hk
      have hout : (k, x) ∉ d := fun hmem ↦ hp (List.mem_map.mpr ⟨(k, x), hmem, rfl⟩)
      simp [hout, eq_comm]
    · rw [lookup_cons_of_ne hk, ih hd, List.mem_cons, Prod.mk.injEq]
      simp [hk]

end Lookup

/-- A sum over a dictionary, if only some keys count, is a sum over these keys. -/
theorem sum_by_key {α : Type w} [AddCommGroup R] {d : List (κ × α)} (hd : DistinctKeys d)
    {keys : List κ} (hkeys : keys.Nodup) {f : κ → α → R}
    (h : ∀ p ∈ d, p.1 ∉ keys → f p.1 p.2 = 0) :
    (d.map fun p ↦ f p.1 p.2).sum = (keys.map fun k ↦ ((d.lookup k).map (f k)).getD 0).sum := by
  induction d with
  | nil => simp
  | cons p d ih =>
    obtain ⟨hp, hd'⟩ := List.nodup_cons.mp hd
    obtain ⟨k, x⟩ := p
    -- the key of the first entry is looked up there, every other key in the rest
    have hlookup : ∀ k', ((((k, x) :: d).lookup k').map (f k')).getD 0 =
        if k' = k then f k' x else ((d.lookup k').map (f k')).getD 0 := fun k' ↦ by
      by_cases hk : k' = k
      · simp [hk]
      · rw [lookup_cons_of_ne hk, if_neg hk]
    simp only [hlookup]
    rw [List.map_cons, List.sum_cons, ih hd' fun q hq ↦ h q (List.mem_cons_of_mem _ hq),
      List.sum_map_ite_eq, lookup_of_not_mem hp]
    by_cases hk : k ∈ keys
    · rw [List.count_eq_one_of_mem hkeys hk, one_nsmul, Option.map_none, Option.getD_none, sub_zero,
        add_comm]
    · rw [List.count_eq_zero_of_not_mem hk, h (k, x) List.mem_cons_self hk]
      simp

/-- The amounts, by their keys. -/
abbrev Tally (κ : Type u) (R : Type v) := List (κ × R)

namespace Tally

variable [AddCommMonoid R] {t : Tally κ R} {k k' : κ} {x : R}

/-- An amount is added to a key. -/
def add (k : κ) (x : R) : Tally κ R → Tally κ R
  | [] => [(k, 0 + x)]
  | (k', y) :: t => if k' = k then (k', y + x) :: t else (k', y) :: add k x t

def get (t : Tally κ R) (k : κ) : R := (t.lookup k).getD 0

def total (t : Tally κ R) : R := (t.map Prod.snd).sum

theorem get_cons {y : R} : get ((k, y) :: t) k' = if k' = k then y else get t k' := by
  by_cases hk : k' = k
  · simp [get, hk]
  · rw [get, lookup_cons_of_ne hk, if_neg hk, get]

theorem get_add : get (add k x t) k' = get t k' + if k' = k then x else 0 := by
  induction t with
  | nil =>
    change get [(k, 0 + x)] k' = get [] k' + _
    rw [get_cons, zero_add, get, List.lookup_nil, Option.getD_none, zero_add]
  | cons p t ih =>
    obtain ⟨k₀, y⟩ := p
    unfold add
    split
    · rename_i h₀
      subst h₀
      simp only [get_cons]
      by_cases hk : k' = k₀ <;> simp [hk]
    · rename_i h₀
      simp only [get_cons, ih]
      by_cases hk : k' = k₀
      · simp [hk, h₀]
      · simp [hk]

theorem total_add : total (add k x t) = total t + x := by
  induction t with
  | nil => simp [add, total]
  | cons p t ih =>
    obtain ⟨k₀, y⟩ := p
    unfold total at *
    unfold add
    split
    · simp only [List.map_cons, List.sum_cons]
      exact add_right_comm y x _
    · rw [List.map_cons, List.sum_cons, ih, List.map_cons, List.sum_cons, add_assoc]

theorem mem_keys_add : k' ∈ (add k x t).map Prod.fst ↔ k' = k ∨ k' ∈ t.map Prod.fst := by
  induction t with
  | nil => simp [add]
  | cons p t ih =>
    obtain ⟨k₀, y⟩ := p
    unfold add
    split
    · rename_i h₀
      subst h₀
      simp
    · rw [List.map_cons, List.mem_cons, ih, List.map_cons, List.mem_cons]
      exact or_left_comm

theorem distinctKeys_add (h : DistinctKeys t) : DistinctKeys (add k x t) := by
  induction t with
  | nil => exact List.nodup_singleton _
  | cons p t ih =>
    obtain ⟨k₀, y⟩ := p
    obtain ⟨hout, ht⟩ := List.nodup_cons.mp h
    unfold add
    split
    · exact List.nodup_cons.mpr ⟨hout, ht⟩
    · rename_i h₀
      refine List.nodup_cons.mpr ⟨fun hmem ↦ ?_, ih ht⟩
      rcases mem_keys_add.mp hmem with hk | hmem
      · exact h₀ hk
      · exact hout hmem

theorem get_of_mem (h : DistinctKeys t) (hmem : (k, x) ∈ t) : get t k = x := by
  rw [get, (lookup_eq_some_iff h).mpr hmem, Option.getD_some]

theorem mem_of_get (h : DistinctKeys t) (hne : get t k ≠ 0) : (k, get t k) ∈ t := by
  cases hl : t.lookup k with
  | none => exact absurd (by rw [get, hl, Option.getD_none] : get t k = 0) hne
  | some y =>
    have hget : get t k = y := by rw [get, hl, Option.getD_some]
    rw [hget]
    exact (lookup_eq_some_iff h).mp hl

theorem get_of_not_mem (h : k ∉ t.map Prod.fst) : get t k = 0 := by
  rw [get, lookup_of_not_mem h, Option.getD_none]

/-- The order of the entries does not matter. -/
theorem get_perm {t' : Tally κ R} (h : DistinctKeys t) (hperm : t.Perm t') :
    get t k = get t' k := by
  have h' : DistinctKeys t' := (hperm.map Prod.fst).nodup_iff.mp h
  by_cases hk : k ∈ t.map Prod.fst
  · obtain ⟨p, hp, rfl⟩ := List.mem_map.mp hk
    rw [get_of_mem h hp, get_of_mem h' (hperm.subset hp)]
  · rw [get_of_not_mem hk, get_of_not_mem fun hk' ↦ hk ((hperm.map Prod.fst).mem_iff.mpr hk')]

theorem get_filter {p : R → Bool} (h : DistinctKeys t) :
    get (t.filter fun e ↦ p e.2) k = if p (get t k) then get t k else 0 := by
  have h' : DistinctKeys (t.filter fun e ↦ p e.2) := h.sublist (List.filter_sublist.map _)
  by_cases hk : k ∈ (t.filter fun e ↦ p e.2).map Prod.fst
  · obtain ⟨e, he, rfl⟩ := List.mem_map.mp hk
    obtain ⟨hmem, hp⟩ := List.mem_filter.mp he
    rw [get_of_mem h' he, get_of_mem h hmem, if_pos hp]
  · rw [get_of_not_mem hk]
    split
    · rename_i hp
      by_contra hne
      exact hk (List.mem_map.mpr
        ⟨_, List.mem_filter.mpr ⟨mem_of_get h (Ne.symm hne), hp⟩, rfl⟩)
    · rfl

omit [DecidableEq κ] in
/-- What is filtered and what is left out are all there is. -/
theorem total_filter (t : Tally κ R) (p : κ × R → Bool) :
    total (t.filter p) + total (t.filter fun e ↦ !p e) = total t := by
  unfold total
  rw [← List.sum_append, ← List.map_append]
  exact ((List.filter_append_perm p t).map Prod.snd).sum_eq

end Tally

end Conjectures.Lib

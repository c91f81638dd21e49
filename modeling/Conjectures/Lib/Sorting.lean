import Mathlib.Data.List.Sort
import Mathlib.Order.Defs.LinearOrder

/-!
# Sorting by a key that may fail

`sorted(xs, key=…)`: every key is computed first, and there is no result where one cannot be.
Where the keys tell the elements apart, the result does not depend on the order they came in.

Keys are of any linear order.
-/

namespace Conjectures.Lib

universe u v

variable {α : Type u} {κ : Type v} [LinearOrder κ]

/-- The order of the keys; what has none comes first. -/
def KeyLE (key : α → Option κ) (a b : α) : Prop :=
  match key a, key b with
  | none, _ => True
  | some _, none => False
  | some k, some k' => k ≤ k'

instance (key : α → Option κ) : DecidableRel (KeyLE key) := fun a b ↦
  match h : key a, h' : key b with
  | none, _ => isTrue (by rw [KeyLE, h]; trivial)
  | some _, none => isFalse (by rw [KeyLE, h, h']; exact not_false)
  | some k, some k' => decidable_of_iff (k ≤ k') (by rw [KeyLE, h, h'])

instance (key : α → Option κ) : IsTrans α (KeyLE key) where
  trans a b c hab hbc := by
    unfold KeyLE at hab hbc ⊢
    cases ha : key a <;> cases hb : key b <;> cases hc : key c <;> simp_all
    exact hab.trans hbc

instance (key : α → Option κ) : Std.Total (KeyLE key) where
  total a b := by
    unfold KeyLE
    cases key a <;> cases key b <;> simp [le_total]

/-- Keys in order both ways are one key. -/
theorem KeyLE.antisymm {key : α → Option κ} {a b : α} (h : KeyLE key a b) (h' : KeyLE key b a) :
    key a = key b := by
  unfold KeyLE at h h'
  cases ha : key a <;> cases hb : key b <;> simp_all
  exact le_antisymm h h'

/-- The elements in the order of their keys, where each has one. -/
def sortedBy (key : α → Option κ) (xs : List α) : Option (List α) :=
  if ∀ x ∈ xs, (key x).isSome then some (xs.insertionSort (KeyLE key)) else none

variable {key : α → Option κ} {xs ys : List α}

theorem sortedBy_eq_some : sortedBy key xs = some ys ↔
    (∀ x ∈ xs, (key x).isSome) ∧ xs.insertionSort (KeyLE key) = ys := by
  unfold sortedBy
  split <;> simp_all

theorem sortedBy_perm (h : sortedBy key xs = some ys) : ys.Perm xs := by
  obtain ⟨-, rfl⟩ := sortedBy_eq_some.mp h
  exact List.perm_insertionSort _ _

/-- Keys that tell the elements apart. -/
def Distinguishes (key : α → Option κ) (xs : List α) : Prop :=
  ∀ a ∈ xs, ∀ b ∈ xs, ∀ k, key a = some k → key b = some k → a = b

/-- What is sorted does not depend on the order it came in. -/
theorem sortedBy_eq_of_perm (hperm : xs.Perm ys) (hkey : Distinguishes key xs) :
    sortedBy key xs = sortedBy key ys := by
  have hall : (∀ x ∈ xs, (key x).isSome) ↔ ∀ x ∈ ys, (key x).isSome :=
    forall_congr' fun x ↦ by rw [hperm.mem_iff]
  by_cases hkeys : ∀ x ∈ xs, (key x).isSome
  · rw [sortedBy, sortedBy, if_pos hkeys, if_pos (hall.mp hkeys)]
    have hxs := List.perm_insertionSort (KeyLE key) xs
    have hys := List.perm_insertionSort (KeyLE key) ys
    refine congrArg some (List.Perm.eq_of_pairwise (fun a b ha hb hab hba ↦ ?_)
      (List.pairwise_insertionSort (KeyLE key) xs) (List.pairwise_insertionSort (KeyLE key) ys)
      (hxs.trans (hperm.trans hys.symm)))
    have ha' := hxs.mem_iff.mp ha
    obtain ⟨k, hk⟩ := Option.isSome_iff_exists.mp (hkeys a ha')
    exact hkey a ha' b (hperm.mem_iff.mpr (hys.mem_iff.mp hb)) k hk
      (hk ▸ (hab.antisymm hba).symm)
  · rw [sortedBy, sortedBy, if_neg hkeys, if_neg (hall.not.mp hkeys)]

end Conjectures.Lib

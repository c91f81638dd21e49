import Mathlib.Algebra.Order.Group.Defs
import Mathlib.Algebra.Order.Sub.Defs
import Mathlib.Data.List.Count
import Mathlib.Order.Interval.Basic
import Mathlib.Tactic.Abel

/-!
# Sliding windows

A sequence of times is *spaced* if no half-open window of a width, wherever it lies and whichever
of its ends is open, holds more than a given number of them.  A new time may be added to a spaced
sequence if the window that ends in it has room (`Spaced.append`): a window of the same width that
holds the new time holds no time from before the window that ends in it.
-/

namespace Conjectures.Lib

variable {G : Type*} [AddCommGroup G] [LinearOrder G] [IsOrderedAddMonoid G]

/-- At most `n` of the times lie in any window of a width. -/
def Spaced (n : ℕ) (width : G) (xs : List G) : Prop :=
  ∀ t, xs.countP (fun x ↦ t < x ∧ x ≤ t + width) ≤ n ∧
    xs.countP (fun x ↦ t ≤ x ∧ x < t + width) ≤ n

variable {n : ℕ} {width now : G} {xs : List G}

omit [IsOrderedAddMonoid G] in
theorem spaced_nil : Spaced n width ([] : List G) := fun _ ↦ ⟨Nat.zero_le n, Nat.zero_le n⟩

omit [IsOrderedAddMonoid G] in
/-- A set of times that holds the new one, and of the others only those of the window that ends in
it. -/
theorem countP_append_le (hroom : xs.countP (fun x ↦ now - width < x) < n) {p : G → Bool}
    (hp : ∀ x ∈ xs, p x → now - width < x) : (xs ++ [now]).countP p ≤ n := by
  have hold : xs.countP p ≤ xs.countP (fun x ↦ now - width < x) :=
    List.countP_mono_left fun x hx h ↦ decide_eq_true (hp x hx h)
  have hnew : [now].countP p ≤ 1 := List.countP_le_length
  rw [List.countP_append]
  omega

theorem Spaced.append (h : Spaced n width xs)
    (hroom : xs.countP (fun x ↦ now - width < x) < n) : Spaced n width (xs ++ [now]) := by
  intro t
  constructor
  · by_cases hnow : now ≤ t + width
    · -- the window ends after the new time, so it begins after the window that ends in it does
      refine countP_append_le hroom fun x _ hx ↦ ?_
      exact lt_of_le_of_lt (sub_le_iff_le_add.mpr hnow) (of_decide_eq_true hx).1
    · rw [List.countP_append]
      simpa [hnow] using (h t).1
  · by_cases hnow : now < t + width
    · refine countP_append_le hroom fun x _ hx ↦ ?_
      exact lt_of_lt_of_le (sub_lt_iff_lt_add.mpr hnow) (of_decide_eq_true hx).1
    · rw [List.countP_append]
      simpa [hnow] using (h t).2

end Conjectures.Lib

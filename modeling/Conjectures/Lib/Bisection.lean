import Mathlib.Order.Bounds.Defs
import Mathlib.Order.Interval.Set.Defs
import Mathlib.Data.Int.Order.Basic

/-!
# Bisection

The least element of a set of integers that is closed upwards, found between one height outside
it and one inside it.

The set is only asked for membership strictly between the two heights, and may be anything beyond
the upper one.
-/

namespace Conjectures.Lib

/-- `low` is outside the set, `high` is in it, and the boundary is between them. -/
structure Brackets (S : Set ℤ) (low high : ℤ) : Prop where
  lt : low < high
  notMem_low : low ∉ S
  mem_high : high ∈ S

namespace Brackets

variable {S : Set ℤ} {low high : ℤ}

/-- A probe outside the set moves the lower end up. -/
theorem raise (h : Brackets S low high) {probe : ℤ} (hlt : probe < high) (hprobe : probe ∉ S) :
    Brackets S probe high :=
  ⟨hlt, hprobe, h.mem_high⟩

/-- A probe in the set moves the upper end down. -/
theorem lower (h : Brackets S low high) {probe : ℤ} (hlt : low < probe) (hprobe : probe ∈ S) :
    Brackets S low probe :=
  ⟨hlt, h.notMem_low, hprobe⟩

/-- Between ends more than one apart the middle is strictly inside. -/
theorem middle_mem {low high : ℤ} (h : low + 1 < high) :
    low < (low + high) / 2 ∧ (low + high) / 2 < high := by omega

/-- When nothing is left between the ends, the upper one is the boundary. -/
theorem isLeast (h : Brackets S low high) (hadjacent : ¬ low + 1 < high)
    (hup : ∀ m ∈ S, ∀ n, m ≤ n → n ≤ high → n ∈ S) : IsLeast S high := by
  refine ⟨h.mem_high, fun m hm ↦ ?_⟩
  by_contra hlt
  have hlow : m ≤ low := by omega
  exact h.notMem_low (hup m hm low hlow (Int.le_of_lt h.lt))

end Brackets

end Conjectures.Lib

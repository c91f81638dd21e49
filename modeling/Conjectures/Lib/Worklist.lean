import Mathlib.Algebra.GroupWithZero.Nat
import Mathlib.Algebra.BigOperators.Group.List.Basic
import Mathlib.Data.List.Nodup
import Mathlib.Logic.Relation

/-!
# Worklists

A search with a stack of pending nodes and a set of seen ones.  A node may have no row of
successors: the search stops at the first such node it takes up.  Where there are finitely many
rows the search ends, on any graph, and it has then seen what can be reached.
-/

namespace Conjectures.Lib.Worklist

universe u

variable {α : Type u} [DecidableEq α]

/-- How a search ends. -/
inductive Outcome (α : Type u) where
  | done (seen : List α)
  | missing (node : α)
  | outOfFuel
  deriving DecidableEq

/-- The search, by at most so many nodes taken up.  The last successor is taken up first. -/
def search (next : α → Option (List α)) : ℕ → List α → List α → Outcome α
  | 0, _, _ => .outOfFuel
  | _ + 1, [], seen => .done seen
  | fuel + 1, current :: pending, seen =>
    if current ∈ seen then search next fuel pending seen
    else
      match next current with
      | none => .missing current
      | some successors =>
        let seen := current :: seen
        search next fuel ((successors.filter (· ∉ seen)).reverse ++ pending) seen

/-- A node and one of its successors. -/
def Edge (next : α → Option (List α)) (a b : α) : Prop := ∃ bs, next a = some bs ∧ b ∈ bs

/-- What can be reached. -/
def Reaches (next : α → Option (List α)) : α → α → Prop := Relation.ReflTransGen (Edge next)

/-- How many successors the nodes that were not seen have. -/
def unseen (next : α → Option (List α)) (known seen : List α) : ℕ :=
  ((known.filter (· ∉ seen)).map fun a ↦ ((next a).getD []).length).sum

/-- The passes that always suffice, from one node. -/
def passes (next : α → Option (List α)) (known : List α) : ℕ := unseen next known [] + 2

variable {next : α → Option (List α)} {known pending seen : List α} {start : α}

/-- What holds of the pending and the seen nodes in every pass. -/
structure Explored (next : α → Option (List α)) (start : α) (pending seen : List α) : Prop where
  nodup : seen.Nodup
  reached : ∀ a, a ∈ pending ∨ a ∈ seen → Reaches next start a
  started : start ∈ pending ∨ start ∈ seen
  followed : ∀ a ∈ seen, ∃ bs, next a = some bs ∧ ∀ b ∈ bs, b ∈ pending ∨ b ∈ seen

namespace Explored

omit [DecidableEq α] in
theorem initial (next : α → Option (List α)) (start : α) :
    Explored next start [start] [] where
  nodup := List.nodup_nil
  reached a ha := by
    obtain rfl : a = start := by simpa using ha
    exact .refl
  started := .inl List.mem_cons_self
  followed a ha := by cases ha

variable {current : α}

omit [DecidableEq α] in
/-- A node that was seen is dropped. -/
theorem again (h : Explored next start (current :: pending) seen) (hseen : current ∈ seen) :
    Explored next start pending seen := by
  have hin {a : α} (ha : a ∈ current :: pending ∨ a ∈ seen) : a ∈ pending ∨ a ∈ seen := by
    rcases ha with ha | ha
    · rcases List.mem_cons.mp ha with rfl | ha
      · exact .inr hseen
      · exact .inl ha
    · exact .inr ha
  refine ⟨h.nodup, fun a ha ↦ h.reached a (ha.imp (List.mem_cons_of_mem _) id), hin h.started,
    fun a ha ↦ ?_⟩
  obtain ⟨bs, hbs, hfollowed⟩ := h.followed a ha
  exact ⟨bs, hbs, fun b hb ↦ hin (hfollowed b hb)⟩

/-- A node with a row is seen, and its successors are pending or were seen. -/
theorem visit (h : Explored next start (current :: pending) seen) (hfresh : current ∉ seen)
    {successors : List α} (hnext : next current = some successors) :
    Explored next start
      ((successors.filter (· ∉ current :: seen)).reverse ++ pending) (current :: seen) := by
  have hin {a : α} (ha : a ∈ current :: pending ∨ a ∈ seen) :
      a ∈ (successors.filter (· ∉ current :: seen)).reverse ++ pending ∨ a ∈ current :: seen := by
    rcases ha with ha | ha
    · rcases List.mem_cons.mp ha with rfl | ha
      · exact .inr List.mem_cons_self
      · exact .inl (List.mem_append_right _ ha)
    · exact .inr (List.mem_cons_of_mem _ ha)
  have hcurrent : Reaches next start current := h.reached _ (.inl List.mem_cons_self)
  refine ⟨List.nodup_cons.mpr ⟨hfresh, h.nodup⟩, ?_, hin h.started, ?_⟩
  · rintro a (ha | ha)
    · rcases List.mem_append.mp ha with ha | ha
      · have hsucc := List.mem_of_mem_filter (List.mem_reverse.mp ha)
        exact hcurrent.tail ⟨successors, hnext, hsucc⟩
      · exact h.reached a (.inl (List.mem_cons_of_mem _ ha))
    · rcases List.mem_cons.mp ha with rfl | ha
      · exact hcurrent
      · exact h.reached a (.inr ha)
  · intro a ha
    rcases List.mem_cons.mp ha with rfl | ha
    · refine ⟨successors, hnext, fun b hb ↦ ?_⟩
      by_cases hseen : b ∈ a :: seen
      · exact .inr hseen
      · refine .inl (List.mem_append_left _ (List.mem_reverse.mpr ?_))
        exact List.mem_filter.mpr ⟨hb, decide_eq_true hseen⟩
    · obtain ⟨bs, hbs, hfollowed⟩ := h.followed a ha
      exact ⟨bs, hbs, fun b hb ↦ hin (hfollowed b hb)⟩

omit [DecidableEq α] in
/-- Where nothing is pending, what was seen is what can be reached, and every node has a row. -/
theorem complete (h : Explored next start [] seen) :
    (∀ a, a ∈ seen ↔ Reaches next start a) ∧ ∀ a, Reaches next start a → (next a).isSome := by
  have hseen (a : α) : a ∈ seen ↔ Reaches next start a := by
    refine ⟨fun ha ↦ h.reached a (.inr ha), fun ha ↦ ?_⟩
    induction ha with
    | refl => exact h.started.resolve_left List.not_mem_nil
    | tail _ hedge ih =>
      obtain ⟨bs, hbs, hb⟩ := hedge
      obtain ⟨bs', hbs', hfollowed⟩ := h.followed _ ih
      rw [hbs] at hbs'
      obtain rfl := Option.some.inj hbs'
      exact (hfollowed _ hb).resolve_left List.not_mem_nil
  refine ⟨hseen, fun a ha ↦ ?_⟩
  obtain ⟨bs, hbs, -⟩ := h.followed a ((hseen a).mpr ha)
  rw [hbs]
  rfl

end Explored

/-- A node that is seen counts no longer. -/
theorem unseen_cons {current : α} {successors : List α} (hknown : known.Nodup)
    (hcurrent : current ∈ known) (hfresh : current ∉ seen) (hnext : next current = some successors) :
    unseen next known (current :: seen) + successors.length = unseen next known seen := by
  have hfilter : known.filter (· ∉ current :: seen) =
      (known.filter (· ∉ seen)).erase current := by
    rw [(hknown.filter _).erase_eq_filter, List.filter_filter]
    refine List.filter_congr fun a _ ↦ ?_
    simp only [List.mem_cons, not_or]
    by_cases ha : a = current <;> simp [ha]
  have hmem : current ∈ known.filter (· ∉ seen) :=
    List.mem_filter.mpr ⟨hcurrent, decide_eq_true hfresh⟩
  rw [unseen, hfilter, unseen, ((List.perm_cons_erase hmem).map _).sum_eq, List.map_cons,
    List.sum_cons, hnext, Option.getD_some, Nat.add_comm]

/-- A search with fuel for all that is left ends in one of two ways. -/
theorem search_spec (hknown : known.Nodup) (hrows : ∀ a, (next a).isSome → a ∈ known) (fuel : ℕ)
    (h : Explored next start pending seen)
    (hfuel : pending.length + unseen next known seen < fuel) :
    (∃ found, search next fuel pending seen = .done found ∧ found.Nodup ∧
      (∀ a, a ∈ found ↔ Reaches next start a) ∧ ∀ a, Reaches next start a → (next a).isSome) ∨
    ∃ a, search next fuel pending seen = .missing a ∧ Reaches next start a ∧ next a = none := by
  induction fuel generalizing pending seen with
  | zero => omega
  | succ fuel ih =>
    cases pending with
    | nil => exact .inl ⟨seen, rfl, h.nodup, h.complete.1, h.complete.2⟩
    | cons current pending =>
      rw [List.length_cons] at hfuel
      by_cases hseen : current ∈ seen
      · rw [search, if_pos hseen]
        exact ih (h.again hseen) (by omega)
      · rw [search, if_neg hseen]
        cases hnext : next current with
        | none => exact .inr ⟨current, rfl, h.reached _ (.inl List.mem_cons_self), hnext⟩
        | some successors =>
          have hcurrent := hrows current (by rw [hnext]; rfl)
          have hcount := unseen_cons hknown hcurrent hseen hnext
          have hfew := List.length_filter_le (fun a ↦ decide (a ∉ current :: seen)) successors
          refine ih (h.visit hseen hnext) ?_
          rw [List.length_append, List.length_reverse]
          omega

/-- The search from one node ends: it has seen what can be reached, or has met a node without a
row that can be. -/
theorem search_start (hknown : known.Nodup) (hrows : ∀ a, (next a).isSome → a ∈ known)
    (start : α) :
    (∃ found, search next (passes next known) [start] [] = .done found ∧ found.Nodup ∧
      (∀ a, a ∈ found ↔ Reaches next start a) ∧ ∀ a, Reaches next start a → (next a).isSome) ∨
    ∃ a, search next (passes next known) [start] [] = .missing a ∧ Reaches next start a ∧
      next a = none := by
  refine search_spec hknown hrows _ (.initial next start) ?_
  rw [passes, List.length_singleton]
  omega

end Conjectures.Lib.Worklist

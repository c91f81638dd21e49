import Mathlib.Data.List.MinMax
import Mathlib.Data.List.Nodup

/-!
# Histories that only grow

Entries of a history name the entry they correct.  Where each names the one before it, the
history is a chain: all but the last entry are corrected, by one entry each
(`Linked.uncorrected_iff`).

The entries of a table with an identity column are in the order of their numbers, so the
entry with the greatest number is the last one (`argmax_eq_getLast?`).
-/

namespace Conjectures.Lib

universe u v

variable {ρ : Type u} {κ : Type v} {key : ρ → κ} {prev : ρ → Option κ}

/-- Each entry names the one before it, and the first one names `k`. -/
def Linked (key : ρ → κ) (prev : ρ → Option κ) : Option κ → List ρ → Prop
  | _, [] => True
  | k, r :: l => prev r = k ∧ Linked key prev (some (key r)) l

theorem linked_concat {k : Option κ} {l : List ρ} {r : ρ} :
    Linked key prev k (l ++ [r]) ↔
      Linked key prev k l ∧ prev r = (l.getLast?.map key).or k := by
  induction l generalizing k with
  | nil => simp [Linked]
  | cons a l ih =>
    have hlast : (((a :: l).getLast?).map key).or k =
        (l.getLast?.map key).or (some (key a)) := by
      cases h : l.getLast? <;> simp [List.getLast?_cons, h]
    rw [List.cons_append, Linked, Linked, ih, hlast, and_assoc]

/-- An entry names the start of the history or an entry of it. -/
theorem Linked.prev_mem {k : Option κ} {l : List ρ} (h : Linked key prev k l) {r : ρ}
    (hr : r ∈ l) {x : κ} (hx : prev r = some x) : k = some x ∨ x ∈ l.map key := by
  induction l generalizing k with
  | nil => cases hr
  | cons a l ih =>
    rcases List.mem_cons.mp hr with rfl | hr
    · exact Or.inl (h.1.symm.trans hx)
    · rcases ih h.2 hr with ha | hmem
      · cases ha
        exact Or.inr (List.mem_map_of_mem List.mem_cons_self)
      · exact Or.inr (List.mem_cons_of_mem _ hmem)

/-- The last entry is the only one that no entry corrects. -/
theorem Linked.uncorrected_iff {l : List ρ} (hnodup : (l.map key).Nodup)
    (h : Linked key prev none l) {r : ρ} (hr : r ∈ l) :
    (∀ r' ∈ l, prev r' ≠ some (key r)) ↔ l.getLast? = some r := by
  induction l using List.reverseRecOn with
  | nil => cases hr
  | append_singleton l a ih =>
    rw [List.map_append, List.map_singleton, List.nodup_append] at hnodup
    obtain ⟨hnodup, -, hfresh⟩ := hnodup
    rw [linked_concat, Option.or_none] at h
    obtain ⟨h, ha⟩ := h
    have hnew : key a ∉ l.map key := fun hmem ↦ hfresh _ hmem _ (List.mem_singleton_self _) rfl
    rw [List.getLast?_append_of_ne_nil _ (List.cons_ne_nil a []), List.getLast?_singleton]
    rcases List.mem_append.mp hr with hmem | hmem
    · have hne : a ≠ r := by
        rintro rfl
        exact hnew (List.mem_map_of_mem hmem)
      refine iff_of_false (fun hnone ↦ ?_) (fun heq ↦ hne (Option.some.inj heq))
      have hlast := (ih hnodup h hmem).mp fun r' hr' ↦ hnone r' (List.mem_append_left _ hr')
      refine hnone a (List.mem_append_right _ (List.mem_singleton_self a)) ?_
      rw [ha, hlast, Option.map_some]
    · obtain rfl := List.mem_singleton.mp hmem
      refine iff_of_true (fun r' hr' hprev ↦ ?_) rfl
      rcases List.mem_append.mp hr' with hr' | hr'
      · rcases h.prev_mem hr' hprev with hk | hk
        · cases hk
        · exact hnew hk
      · obtain rfl := List.mem_singleton.mp hr'
        rw [hprev] at ha
        obtain ⟨r'', hlast, hkey⟩ := Option.map_eq_some_iff.mp ha.symm
        exact hnew (hkey ▸ List.mem_map_of_mem (List.mem_of_getLast? hlast))

/-- Of entries in the order of their numbers the last has the greatest. -/
theorem argmax_eq_getLast? {α : Type*} [LinearOrder α] {f : ρ → α} {l : List ρ}
    (h : l.Pairwise fun r r' ↦ f r < f r') : l.argmax f = l.getLast? := by
  induction l using List.reverseRecOn with
  | nil => rfl
  | append_singleton l a ih =>
    rw [List.pairwise_append] at h
    rw [List.argmax_concat, ih h.1, List.getLast?_append_of_ne_nil _ (List.cons_ne_nil a []),
      List.getLast?_singleton]
    cases hlast : l.getLast? with
    | none => rfl
    | some c =>
      exact if_pos (h.2.2 c (List.mem_of_getLast? hlast) a (List.mem_singleton_self a))

end Conjectures.Lib

import Mathlib.Data.Finset.Card
import Mathlib.Data.List.Nodup

/-!
# Greedy matching

Takers come one after another, and each takes a candidate of its own that nobody took before it.
In general that can starve a later taker. It cannot where any two takers that share a candidate
are nested, the earlier one's candidates among the later one's: a taker that finds all its
candidates taken then proves that no assignment serves everyone.
-/

namespace Conjectures.Lib

universe u v

variable {α : Type u} {β : Type v} {R : α → β → Prop}

/-- `own` gives every taker a candidate of its own. -/
structure Assigns (R : α → β → Prop) (takers : List α) (own : α → β) : Prop where
  candidate : ∀ t ∈ takers, R t (own t)
  injective : ∀ s ∈ takers, ∀ t ∈ takers, own s = own t → s = t

/-- An earlier taker that shares a candidate with a later one has no other candidates. -/
def Nested (R : α → β → Prop) (takers : List α) : Prop :=
  takers.Pairwise fun s t ↦ ∀ b, R s b → R t b → ∀ c, R s c → R t c

/-- Once a taker's candidates have all been taken, there is no assignment at all. -/
theorem Nested.not_assigns {taken : List (α × β)} {t : α} {later : List α}
    (h : Nested R (taken.map Prod.fst ++ t :: later))
    (hnodup : (taken.map Prod.fst ++ t :: later).Nodup) (htaken : ∀ p ∈ taken, R p.1 p.2)
    (hall : ∀ b, R t b → ∃ p ∈ taken, p.2 = b) (own : α → β) :
    ¬ Assigns R (taken.map Prod.fst ++ t :: later) own := by
  classical
  intro hown
  obtain ⟨htakers, -, hdisjoint⟩ := List.nodup_append.mp hnodup
  -- those who took what `t` wanted, and what they took
  let rivals := taken.filter fun p ↦ R t p.2
  have hrivals : ∀ p ∈ rivals, p ∈ taken ∧ R t p.2 := fun p hp ↦ by
    simpa [rivals] using hp
  have hmem_rivals : ∀ b, R t b → b ∈ (rivals.map Prod.snd).toFinset := by
    intro b hb
    obtain ⟨p, hp, rfl⟩ := hall b hb
    exact List.mem_toFinset.mpr (List.mem_map_of_mem (by simpa [rivals] using ⟨hp, hb⟩))
  have hearlier : ∀ p ∈ rivals, p.1 ∈ taken.map Prod.fst := fun p hp ↦
    List.mem_map_of_mem (hrivals p hp).1
  have ht : t ∉ (rivals.map Prod.fst).toFinset := by
    intro ht
    obtain ⟨p, hp, hpt⟩ := List.mem_map.mp (List.mem_toFinset.mp ht)
    exact hdisjoint _ (hearlier p hp) _ List.mem_cons_self hpt
  have hwanting : (insert t (rivals.map Prod.fst).toFinset).card = rivals.length + 1 := by
    have hsublist : (rivals.map Prod.fst).Nodup :=
      htakers.sublist (List.filter_sublist.map Prod.fst)
    rw [Finset.card_insert_of_notMem ht, List.toFinset_card_of_nodup hsublist, List.length_map]
  have hoffered : (rivals.map Prod.snd).toFinset.card ≤ rivals.length :=
    (List.toFinset_card_le _).trans_eq (List.length_map _)
  have hmaps : ∀ s ∈ insert t (rivals.map Prod.fst).toFinset,
      own s ∈ (rivals.map Prod.snd).toFinset := by
    intro s hs
    rcases Finset.mem_insert.mp hs with rfl | hs
    · exact hmem_rivals _ (hown.candidate s (List.mem_append_right _ List.mem_cons_self))
    · obtain ⟨p, hp, rfl⟩ := List.mem_map.mp (List.mem_toFinset.mp hs)
      have hnested := (List.pairwise_append.mp h).2.2 p.1 (hearlier p hp) t List.mem_cons_self
      have hcandidate := hown.candidate p.1 (List.mem_append_left _ (hearlier p hp))
      exact hmem_rivals _
        (hnested p.2 (htaken p (hrivals p hp).1) (hrivals p hp).2 _ hcandidate)
  obtain ⟨s, hs, s', hs', hne, heq⟩ :=
    Finset.exists_ne_map_eq_of_card_lt_of_maps_to (by omega) hmaps
  have hmem : ∀ s ∈ insert t (rivals.map Prod.fst).toFinset,
      s ∈ taken.map Prod.fst ++ t :: later := by
    intro s hs
    rcases Finset.mem_insert.mp hs with rfl | hs
    · exact List.mem_append_right _ List.mem_cons_self
    · obtain ⟨p, hp, rfl⟩ := List.mem_map.mp (List.mem_toFinset.mp hs)
      exact List.mem_append_left _ (hearlier p hp)
  exact hne (hown.injective s (hmem s hs) s' (hmem s' hs') heq)

end Conjectures.Lib

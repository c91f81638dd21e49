import Conjectures.Allowlist.Merging

/-!
# Joined documents

Documents that hold what they say, and that a merge joins, are joined to one that holds what it
says.

The rules of a tier look at the rows of that tier alone, so the rules of a joined document are those
of its parts.  What looks across tiers, that types, bundles and problems are told apart, is not kept
by joining, and is no part of `Sound`.
-/

namespace Conjectures.Allowlist

open Lib Lib.Json

variable {py : Python} {first : Document} {rest ds : List Document}

/-! ## Rows of joined documents -/

theorem Admitted.mono {tiers tiers' : List (Text × TierPolicy)} {source : SourceRow}
    (h : Admitted py tiers source) (hsub : tiers ⊆ tiers') : Admitted py tiers' source := by
  obtain ⟨policy, hpolicy, hvalid⟩ := h
  exact ⟨policy, hsub hpolicy, hvalid⟩

theorem Admitted.tier {tiers : List (Text × TierPolicy)} {source : SourceRow}
    (h : Admitted py tiers source) : source.tier ∈ tiers.map Prod.fst := by
  obtain ⟨policy, hpolicy, -⟩ := h
  exact List.mem_map.mpr ⟨_, hpolicy, rfl⟩

theorem Named.mono {sources sources' named : List SourceRow} {indices : List ℤ}
    (h : Named sources indices named) (hsub : sources ⊆ sources') :
    Named sources' indices named := by
  unfold Named
  exact h.imp fun _ _ ⟨hsource, hindex⟩ ↦ ⟨hsub hsource, hindex⟩

theorem Named.index_mem {sources named : List SourceRow} {indices : List ℤ}
    (h : Named sources indices named) {index : ℤ} (hindex : index ∈ indices) :
    index ∈ sources.map (·.index) := by
  induction h with
  | nil => cases hindex
  | cons hhead _ ih =>
    rcases List.mem_cons.mp hindex with rfl | hindex
    · exact List.mem_map.mpr ⟨_, hhead.1, hhead.2⟩
    · exact ih hindex

theorem Served.mono {commit : Text} {tiers tiers' : List (Text × TierPolicy)}
    {sources sources' : List SourceRow} {task : TaskRow}
    (h : Served py commit tiers sources task) (htiers : tiers ⊆ tiers')
    (hsources : sources ⊆ sources') : Served py commit tiers' sources' task := by
  obtain ⟨htier, named, hnamed, hvalid⟩ := h
  exact ⟨List.map_subset _ htiers htier, named, hnamed.mono hsources, hvalid⟩

/-- The sources of a task are its document's. -/
theorem Served.index_mem {commit : Text} {tiers : List (Text × TierPolicy)}
    {sources : List SourceRow} {task : TaskRow} (h : Served py commit tiers sources task)
    {index : ℤ} (hindex : index ∈ task.sourceIndices) : index ∈ sources.map (·.index) := by
  obtain ⟨-, named, hnamed, -⟩ := h
  exact hnamed.index_mem hindex

theorem subset_flatMap {α : Type} (f : Document → List α) {d : Document} (hd : d ∈ ds) :
    f d ⊆ ds.flatMap f := fun _ ha ↦ List.mem_flatMap.mpr ⟨d, hd, ha⟩

/-- The rows of a tier are those of the document that has the tier. -/
theorem filter_tier {α : Type} {f : Document → List α} {tierOf : α → Text}
    (hown : ∀ d ∈ ds, ∀ a ∈ f d, tierOf a ∈ d.tiers.map Prod.fst)
    (hnodup : ((ds.flatMap (·.tiers)).map Prod.fst).Nodup) {d : Document} (hd : d ∈ ds)
    {tier : Text} (htier : tier ∈ d.tiers.map Prod.fst) :
    (ds.flatMap f).filter (tierOf · = tier) = (f d).filter (tierOf · = tier) := by
  obtain ⟨front, back, rfl⟩ := List.append_of_mem hd
  have hothers (part : List Document) (hpart : part ⊆ front ++ d :: back)
      (hapart : ∀ other ∈ part, tier ∉ other.tiers.map Prod.fst) :
      (part.flatMap f).filter (tierOf · = tier) = [] := by
    rw [List.filter_eq_nil_iff]
    intro a ha heq
    obtain ⟨other, hother, ha⟩ := List.mem_flatMap.mp ha
    exact hapart other hother (of_decide_eq_true heq ▸ hown other (hpart hother) a ha)
  rw [List.map_flatMap, List.Nodup, List.pairwise_flatMap] at hnodup
  obtain ⟨-, hnodup⟩ := hnodup
  rw [List.pairwise_append, List.pairwise_cons] at hnodup
  obtain ⟨-, ⟨hback, -⟩, hfront⟩ := hnodup
  rw [List.flatMap_append, List.flatMap_cons, List.filter_append, List.filter_append,
    hothers front (by simp) fun other hother hmem ↦ hfront other hother d (by simp) tier hmem tier
      htier rfl,
    hothers back (fun _ h ↦ by simp [h]) fun other hother hmem ↦ hback other hother tier htier tier
      hmem rfl, List.nil_append, List.append_nil]

/-! ## Joined documents hold -/

theorem EachOutcome.flatMap (h : ∀ d ∈ ds, EachOutcome d.sources d.tasks) :
    EachOutcome (ds.flatMap (·.sources)) (ds.flatMap (·.tasks)) := by
  refine ⟨fun pair hpair ↦ ?_, fun pair hpair ↦ ?_⟩
  · obtain ⟨task, htask, hpair⟩ := List.mem_flatMap.mp hpair
    obtain ⟨d, hd, htask⟩ := List.mem_flatMap.mp htask
    obtain ⟨source, hsource, hpair⟩ := List.mem_flatMap.mp
      ((h d hd).1 pair (List.mem_flatMap.mpr ⟨task, htask, hpair⟩))
    exact List.mem_flatMap.mpr ⟨source, subset_flatMap _ hd hsource, hpair⟩
  · obtain ⟨source, hsource, hpair⟩ := List.mem_flatMap.mp hpair
    obtain ⟨d, hd, hsource⟩ := List.mem_flatMap.mp hsource
    obtain ⟨task, htask, hpair⟩ := List.mem_flatMap.mp
      ((h d hd).2 pair (List.mem_flatMap.mpr ⟨source, hsource, hpair⟩))
    exact List.mem_flatMap.mpr ⟨task, subset_flatMap _ hd htask, hpair⟩

theorem EachProblem.flatMap (h : ∀ d ∈ ds, EachProblem d.tasks) :
    EachProblem (ds.flatMap (·.tasks)) := by
  intro task htask mode hmode
  obtain ⟨d, hd, htask⟩ := List.mem_flatMap.mp htask
  obtain ⟨other, hother, heq⟩ := h d hd task htask mode hmode
  exact ⟨other, subset_flatMap _ hd hother, heq⟩

/-- Tasks of documents that share no index share no source. -/
theorem modesApart_flatMap (h : ∀ d ∈ ds, d.Sound py)
    (hindices : ((ds.flatMap (·.sources)).map (·.index)).Nodup) :
    (ds.flatMap (·.tasks)).Pairwise ModesApart := by
  rw [List.map_flatMap, List.Nodup, List.pairwise_flatMap] at hindices
  refine List.pairwise_flatMap.mpr ⟨fun d hd ↦ (h d hd).modes, ?_⟩
  refine hindices.2.imp_of_mem fun {d d'} hd hd' hapart task htask other hother _ index hother' htask' ↦ ?_
  exact hapart index (((h d hd).tasks task htask).index_mem htask') index
    (((h d' hd').tasks other hother).index_mem hother') rfl

theorem Document.Sound.join (h : ∀ d ∈ first :: rest, d.Sound py)
    (hmergeable : Mergeable first rest) : (join first rest).Sound py where
  auditDate := (h first List.mem_cons_self).auditDate
  commit := (h first List.mem_cons_self).commit
  tiers := by
    obtain ⟨tier, htier⟩ := List.exists_mem_of_ne_nil _ (h first List.mem_cons_self).tiers
    exact List.ne_nil_of_mem (subset_flatMap (·.tiers) List.mem_cons_self htier)
  tierIds tier htier := by
    obtain ⟨d, hd, htier⟩ := List.mem_flatMap.mp htier
    exact (h d hd).tierIds tier htier
  distinctTiers := hmergeable.tiers
  policies tier htier := by
    obtain ⟨d, hd, htier⟩ := List.mem_flatMap.mp htier
    exact (h d hd).policies tier htier
  sources source hsource := by
    obtain ⟨d, hd, hsource⟩ := List.mem_flatMap.mp hsource
    exact ((h d hd).sources source hsource).mono (subset_flatMap (·.tiers) hd)
  indices := hmergeable.indices
  theorems := hmergeable.theorems
  tasks task htask := by
    obtain ⟨d, hd, htask⟩ := List.mem_flatMap.mp htask
    have hserved := (h d hd).tasks task htask
    rw [(hmergeable.release d hd).2] at hserved
    exact hserved.mono (subset_flatMap (·.tiers) hd) (subset_flatMap (·.sources) hd)
  taskIds := hmergeable.taskIds
  modes := modesApart_flatMap h hmergeable.indices
  holds tier htier := by
    obtain ⟨d, hd, htier⟩ := List.mem_flatMap.mp htier
    have hname : tier.1 ∈ d.tiers.map Prod.fst := List.mem_map_of_mem htier
    rw [tierSources, tierTasks, Document.join,
      filter_tier (fun d hd source hsource ↦ ((h d hd).sources source hsource).tier)
        hmergeable.tiers hd hname,
      filter_tier (fun d hd task htask ↦ ((h d hd).tasks task htask).1) hmergeable.tiers hd hname]
    exact (h d hd).holds tier htier
  nonempty := by
    obtain ⟨task, htask⟩ := List.exists_mem_of_ne_nil _ (h first List.mem_cons_self).nonempty
    exact List.ne_nil_of_mem (subset_flatMap (·.tasks) List.mem_cons_self htask)
  outcomes := EachOutcome.flatMap fun d hd ↦ (h d hd).outcomes
  problems := EachProblem.flatMap fun d hd ↦ (h d hd).problems

end Conjectures.Allowlist

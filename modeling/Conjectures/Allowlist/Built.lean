import Conjectures.Allowlist.Building
import Conjectures.Allowlist.Joining
import Mathlib.Data.List.Dedup

/-!
# What is built

From validated inputs a document is built that holds what it says, and whose sources, bundles and
problems are told apart: a row for each declaration, and a task for each declaration and mode.
-/

namespace Conjectures.Allowlist

open Lib Lib.Json

variable {py : Python} {inputs : BuildInputs} {d : Document}

/-! ## Lists in step -/

section InStep

variable {α β γ : Type} {R : α → β → Prop} {as : List α} {bs : List β}

theorem map_eq_of_forall₂ {f : α → γ} {g : β → γ} (h : List.Forall₂ R as bs)
    (heq : ∀ a b, R a b → g b = f a) : bs.map g = as.map f := by
  induction h with
  | nil => rfl
  | cons hab _ ih => rw [List.map_cons, List.map_cons, heq _ _ hab, ih]

/-- What tells the elements of one list apart tells those of the other apart. -/
theorem pairwise_of_forall₂ {S : α → α → Prop} {T : β → β → Prop} (h : List.Forall₂ R as bs)
    (hS : as.Pairwise S) (hT : ∀ a b a' b', R a b → R a' b' → S a a' → T b b') :
    bs.Pairwise T := by
  induction h with
  | nil => exact .nil
  | cons hab hrest ih =>
    obtain ⟨hhead, htail⟩ := List.pairwise_cons.mp hS
    refine List.pairwise_cons.mpr ⟨fun b' hb' ↦ ?_, ih htail⟩
    obtain ⟨a', ha', hab'⟩ := exists_mem_of_forall₂_right hrest hb'
    exact hT _ _ _ _ hab hab' (hhead a' ha')

/-- Lists of the same elements have as many different ones. -/
theorem length_dedup_congr [DecidableEq γ] {cs ds : List γ} (h : ∀ c, c ∈ cs ↔ c ∈ ds) :
    cs.dedup.length = ds.dedup.length := by
  refine ((List.perm_ext_iff_of_nodup cs.nodup_dedup ds.nodup_dedup).mpr fun c ↦ ?_).length_eq
  rw [List.mem_dedup, List.mem_dedup, h]

end InStep

/-! ## Rows -/

/-- The row of a declaration. -/
def IsRowOf (inputs : BuildInputs) (declaration : Declaration) (source : SourceRow) : Prop :=
  ∃ index ∈ catalogIndex inputs.catalog declaration.theoremName,
    source = ⟨index, declaration.sourcePath, declaration.typeHash, declaration.theoremName,
      inputs.tier⟩

/-- The task of a declaration and a mode, by the bundle it was generated as. -/
structure IsTaskOf (py : Python) (inputs : BuildInputs) (pair : Declaration × Mode)
    (task : TaskRow) (bundle : TaskBundle) : Prop where
  member : bundle ∈ inputs.bundles
  fits : bundle.Fits pair.2 pair.1 [pair.1]
  mode : task.mode = pair.2
  problemId : problemId py inputs.repositoryCommit [pair.1.theoremName] = some task.problemId
  rewardTargetId : task.rewardTargetId = rewardTarget inputs.targets pair.1.theoremName
  reward : task.rewardTargetId ≠ none
  sourceIndices : ∃ index ∈ catalogIndex inputs.catalog pair.1.theoremName,
    task.sourceIndices = [index]
  sourcePath : task.sourcePath = pair.1.sourcePath
  targets : task.targetTypeSha256s = targetHashes pair.2 [pair.1.typeHash] bundle
  taskBundleSha256 : task.taskBundleSha256 = bundle.sha256
  taskId : task.taskId = bundle.taskId
  theorems : task.theorems = [pair.1.theoremName]
  tier : task.tier = inputs.tier

theorem taskRow_eq_ok {declaration : Declaration} {mode : Mode} {task : TaskRow}
    (h : taskRow py inputs [declaration] mode = .ok task) :
    ∃ bundle, IsTaskOf py inputs (declaration, mode) task bundle := by
  simp only [taskRow, bind_eq_ok, need_eq_ok, require_eq_ok, List.head?_cons, Option.some.injEq,
    exists_eq_left', List.mapM_cons, List.mapM_nil, pure, Except.pure, Except.ok.injEq] at h
  obtain ⟨_, ⟨index, hindex, rfl⟩, bundle, hfind, -, hfits, problem, hproblem, reward, hreward,
    rfl⟩ := h
  exact ⟨bundle, List.mem_of_find?_eq_some hfind, hfits, rfl, hproblem, hreward.symm, by simp,
    ⟨index, hindex, rfl⟩, rfl, rfl, rfl, rfl, rfl, rfl⟩

/-- The declarations, each with every mode. -/
def BuildInputs.pairs (inputs : BuildInputs) : List (Declaration × Mode) :=
  inputs.declarations.flatMap fun declaration ↦ Mode.all.map (declaration, ·)

/-- What the builder makes sure of. -/
structure Built (py : Python) (inputs : BuildInputs) (d : Document) : Prop where
  tier : IsTierId inputs.tier
  nonempty : inputs.declarations ≠ []
  targets : ∀ target ∈ inputs.targets,
    target.theoremName ∈ inputs.declarations.map (·.theoremName)
  single : ∀ group ∈ inputs.selected, group.length = 1
  sources : List.Forall₂ (IsRowOf inputs) inputs.declarations d.sources
  tasks : List.Forall₂ (fun pair task ↦ ∃ bundle, IsTaskOf py inputs pair task bundle)
    inputs.pairs d.tasks
  tiers : d.tiers = [(inputs.tier, tierPolicy inputs d.tasks.length)]
  auditDate : d.auditDateUtc = inputs.auditDateUtc
  commit : d.repositoryCommit = inputs.repositoryCommit

/-- Groups of one are the declarations one by one. -/
theorem eq_map_singleton {α : Type} {groups : List (List α)}
    (h : ∀ group ∈ groups, group.length = 1) : groups = groups.flatten.map fun a ↦ [a] := by
  induction groups with
  | nil => rfl
  | cons group groups ih =>
    obtain ⟨a, rfl⟩ := List.length_eq_one_iff.mp (h group List.mem_cons_self)
    rw [List.flatten_cons, List.map_append, ← ih fun g hg ↦ h g (List.mem_cons_of_mem _ hg)]
    rfl

theorem groupModes_eq (h : ∀ group ∈ inputs.selected, group.length = 1) :
    groupModes inputs = inputs.pairs.map fun pair ↦ ([pair.1], pair.2) := by
  rw [groupModes, eq_map_singleton h, BuildInputs.pairs, List.map_flatMap, List.flatMap_map]
  simp only [BuildInputs.declarations, List.map_map]
  rfl

theorem buildDocument_eq_ok (h : buildDocument py inputs = .ok d) : Built py inputs d := by
  simp only [buildDocument, bind_eq_ok, require_eq_ok, mapM_eq_ok, pure, Except.pure,
    Except.ok.injEq] at h
  obtain ⟨-, htier, -, ⟨-, hselected⟩, -, ⟨-, htargets, -, hsingle⟩, sources, hsources, -, -, tasks,
    htasks, rfl⟩ := h
  rw [groupModes_eq hsingle, List.forall₂_map_left_iff] at htasks
  refine ⟨htier, ?_, fun target htarget ↦ htargets _ (List.mem_map_of_mem htarget), hsingle,
    hsources.imp fun declaration source hrow ↦ ?_, htasks.imp fun _ _ h ↦ taskRow_eq_ok h, rfl, rfl,
    rfl⟩
  · intro hnil
    rw [eq_map_singleton hsingle] at hselected
    exact hselected (by rw [show inputs.selected.flatten = [] from hnil]; rfl)
  · simp only [sourceRow, bind_eq_ok, need_eq_ok, pure, Except.pure, Except.ok.injEq] at hrow
    obtain ⟨index, hindex, rfl⟩ := hrow
    exact ⟨index, hindex, rfl⟩

/-! ## Validated inputs -/

theorem BuildInputs.mem_declarations {pair : Declaration × Mode} (hpair : pair ∈ inputs.pairs) :
    pair.1 ∈ inputs.declarations := by
  obtain ⟨declaration, hdeclaration, hmode⟩ := List.mem_flatMap.mp hpair
  obtain ⟨mode, -, rfl⟩ := List.mem_map.mp hmode
  exact hdeclaration

theorem BuildInputs.mem_pairs {declaration : Declaration}
    (h : declaration ∈ inputs.declarations) (mode : Mode) : (declaration, mode) ∈ inputs.pairs :=
  List.mem_flatMap.mpr ⟨declaration, h, List.mem_map_of_mem mode.mem_all⟩

/-- The theorems or the modes differ. -/
def PairsApart (pair pair' : Declaration × Mode) : Prop :=
  pair.1.theoremName ≠ pair'.1.theoremName ∨ pair.2 ≠ pair'.2

namespace BuildInputs.Valid

variable (hvalid : inputs.Valid py)

include hvalid

theorem apart : inputs.declarations.Pairwise fun a b ↦ a.theoremName ≠ b.theoremName :=
  List.pairwise_map.mp hvalid.distinct

/-- The target that a declaration was selected for. -/
theorem target_of {declaration : Declaration} (h : declaration ∈ inputs.declarations) :
    ∃ target ∈ inputs.targets, declaration.theoremName = target.theoremName ∧
      ValidSourceIdentity target.sourceFamily target.sourceProblemNumber declaration.sourcePath
        declaration.theoremName := by
  obtain ⟨target, htarget, hname, hpath⟩ := hvalid.selected declaration h
  obtain ⟨hidentity, -⟩ := hvalid.target target htarget
  rw [← hpath, ← hname] at hidentity
  exact ⟨target, htarget, hname, hidentity⟩

theorem rewardTarget_eq {target : TaskTarget} (h : target ∈ inputs.targets) :
    rewardTarget inputs.targets target.theoremName =
      some (rewardTargetIdentity target.theoremName) := by
  cases hfind : inputs.targets.reverse.find? (·.theoremName = target.theoremName) with
  | none =>
    have hnone := List.find?_eq_none.mp hfind target (List.mem_reverse.mpr h)
    simp at hnone
  | some other =>
    have hother := List.mem_reverse.mp (List.mem_of_find?_eq_some hfind)
    have hname : other.theoremName = target.theoremName := by simpa using List.find?_some hfind
    rw [rewardTarget, hfind, Option.map_some, (hvalid.target other hother).2, hname]

/-- The targets that are rewarded are those of the theorems. -/
theorem rewardTargetCount_eq : rewardTargetCount inputs.targets =
    (inputs.targets.map fun target ↦ rewardTargetIdentity target.theoremName).dedup.length := by
  have hvalues (part : List TaskTarget) (hpart : part ⊆ inputs.targets) :
      (part.map (·.theoremName)).filterMap (rewardTarget inputs.targets) =
        part.map fun target ↦ rewardTargetIdentity target.theoremName := by
    induction part with
    | nil => rfl
    | cons target part ih =>
      rw [List.cons_subset] at hpart
      rw [List.map_cons, List.map_cons, List.filterMap_cons_some (hvalid.rewardTarget_eq hpart.1),
        ih hpart.2]
  rw [rewardTargetCount, hvalues _ fun _ h ↦ h]

theorem reward_eq {pair : Declaration × Mode} (hpair : pair ∈ inputs.pairs) {task : TaskRow}
    {bundle : TaskBundle} (htask : IsTaskOf py inputs pair task bundle) :
    task.rewardTargetId = some (rewardTargetIdentity pair.1.theoremName) := by
  obtain ⟨target, htarget, hname, -⟩ := hvalid.target_of (BuildInputs.mem_declarations hpair)
  rw [htask.rewardTargetId, hname, hvalid.rewardTarget_eq htarget]

theorem pairs_apart : inputs.pairs.Pairwise PairsApart := by
  rw [BuildInputs.pairs, List.pairwise_flatMap]
  refine ⟨fun declaration _ ↦ ?_, hvalid.apart.imp fun hne pair hpair pair' hpair' ↦ ?_⟩
  · exact List.pairwise_map.mpr (List.Pairwise.imp (fun hne ↦ .inr hne)
      (by decide : Mode.all.Nodup))
  · obtain ⟨mode, -, rfl⟩ := List.mem_map.mp hpair
    obtain ⟨mode', -, rfl⟩ := List.mem_map.mp hpair'
    exact .inl hne

end BuildInputs.Valid

theorem targetHashes_length (mode : Mode) (hash : Text) (bundle : TaskBundle) :
    (targetHashes mode [hash] bundle).length = 1 := by
  cases mode <;> rfl

theorem IsTaskOf.identity_eq {pair : Declaration × Mode} {task : TaskRow} {bundle : TaskBundle}
    (h : IsTaskOf py inputs pair task bundle) :
    bundle.identity = ([pair.1.theoremName], pair.2.word) := by
  obtain ⟨-, hmode, -, -, hsources, -⟩ := h.fits
  rw [TaskBundle.identity, hmode, hsources]
  rfl

/-- Tasks whose bundles are of the same theorems and mode are of one pair. -/
theorem IsTaskOf.not_apart {pair pair' : Declaration × Mode} {task task' : TaskRow}
    {bundle bundle' : TaskBundle} (h : IsTaskOf py inputs pair task bundle)
    (h' : IsTaskOf py inputs pair' task' bundle') (heq : bundle.identity = bundle'.identity) :
    ¬ PairsApart pair pair' := by
  rw [h.identity_eq, h'.identity_eq, Prod.mk.injEq, List.singleton_inj] at heq
  obtain ⟨hname, hmode⟩ := heq
  rintro (hne | hne)
  · exact hne hname
  · have hsome : some pair.2 = some pair'.2 := by
      rw [← Mode.ofWord_word, ← Mode.ofWord_word pair'.2, hmode]
    exact hne (Option.some.inj hsome)

/-- The families of the targets, in the order of their words. -/
theorem sortedFamilies (families : List Family) :
    (((families.dedup).insertionSort fun f g ↦ f.word ≤ g.word).map Family.word).Pairwise
      (· < ·) := by
  have hperm := families.dedup.perm_insertionSort fun f g ↦ f.word ≤ g.word
  have hnodup : ((families.dedup.insertionSort fun f g ↦ f.word ≤ g.word).map Family.word).Nodup :=
    (List.nodup_map_iff fun _ _ h ↦ Family.word_injective h).mpr
      (hperm.nodup_iff.mpr families.nodup_dedup)
  have hsorted := List.pairwise_map.mpr
    (families.dedup.pairwise_insertionSort fun f g ↦ f.word ≤ g.word)
  exact (hsorted.and hnodup).imp fun ⟨hle, hne⟩ ↦ lt_of_le_of_ne hle hne

theorem pairs_length (inputs : BuildInputs) :
    inputs.pairs.length = inputs.declarations.length * 2 := by
  simp [BuildInputs.pairs, List.length_flatMap, Mode.all]

/-! ## The document -/

section Facts

variable (hvalid : inputs.Valid py) (hbuilt : Built py inputs d)

theorem catalogIndex_injective {catalog : List Declaration} {name name' : Text} {index : ℤ}
    (h : index ∈ catalogIndex catalog name) (h' : index ∈ catalogIndex catalog name') :
    name = name' := by
  obtain ⟨entry, hentry, hindex⟩ := Option.map_eq_some_iff.mp h
  obtain ⟨entry', hentry', hindex'⟩ := Option.map_eq_some_iff.mp h'
  have hmem := List.mem_zipIdx_iff_getElem?.mp
    (List.mem_reverse.mp (List.mem_of_find?_eq_some hentry))
  have hmem' := List.mem_zipIdx_iff_getElem?.mp
    (List.mem_reverse.mp (List.mem_of_find?_eq_some hentry'))
  have hplace : entry.2 = entry'.2 := by
    exact Int.ofNat.inj (hindex.trans hindex'.symm)
  rw [hplace] at hmem
  have hsame : entry.1 = entry'.1 := Option.some.inj (hmem.symm.trans hmem')
  have hname : entry.1.theoremName = name := by simpa using List.find?_some hentry
  have hname' : entry'.1.theoremName = name' := by simpa using List.find?_some hentry'
  rw [← hname, ← hname', hsame]

theorem catalogIndex_nonneg {catalog : List Declaration} {name : Text} {index : ℤ}
    (h : index ∈ catalogIndex catalog name) : 0 ≤ index := by
  obtain ⟨entry, -, rfl⟩ := Option.map_eq_some_iff.mp h
  exact Int.natCast_nonneg _

include hbuilt

theorem Built.theorems : d.sources.map (·.theoremName) = inputs.declarations.map (·.theoremName) :=
  map_eq_of_forall₂ hbuilt.sources (by rintro _ _ ⟨_, -, rfl⟩; rfl)

theorem Built.types : d.sources.map (·.sourceTypeSha256) = inputs.declarations.map (·.typeHash) :=
  map_eq_of_forall₂ hbuilt.sources (by rintro _ _ ⟨_, -, rfl⟩; rfl)

theorem Built.paths : d.sources.map (·.sourcePath) = inputs.declarations.map (·.sourcePath) :=
  map_eq_of_forall₂ hbuilt.sources (by rintro _ _ ⟨_, -, rfl⟩; rfl)

theorem Built.source_tier {source : SourceRow} (hsource : source ∈ d.sources) :
    source.tier = inputs.tier := by
  obtain ⟨declaration, -, index, -, rfl⟩ := exists_mem_of_forall₂_right hbuilt.sources hsource
  rfl

theorem Built.task_tier {task : TaskRow} (htask : task ∈ d.tasks) : task.tier = inputs.tier := by
  obtain ⟨pair, -, bundle, h⟩ := exists_mem_of_forall₂_right hbuilt.tasks htask
  exact h.tier

/-- The source that a task of a declaration names. -/
theorem Built.named {pair : Declaration × Mode} (hpair : pair ∈ inputs.pairs) {task : TaskRow}
    {bundle : TaskBundle} (htask : IsTaskOf py inputs pair task bundle) :
    ∃ source, Named d.sources task.sourceIndices [source] ∧ IsRowOf inputs pair.1 source := by
  obtain ⟨declaration, hdeclaration, hmode⟩ := List.mem_flatMap.mp hpair
  obtain ⟨mode, -, rfl⟩ := List.mem_map.mp hmode
  obtain ⟨source, hsource, hrow⟩ := exists_mem_of_forall₂_right hbuilt.sources.flip hdeclaration
  obtain ⟨index, hindex, hindices⟩ := htask.sourceIndices
  obtain ⟨index', hindex', rfl⟩ := hrow
  obtain rfl : index = index' := Option.some.inj (hindex.symm.trans hindex')
  exact ⟨_, hindices ▸ .cons ⟨hsource, rfl⟩ .nil, index, hindex, rfl⟩

theorem Built.problems : EachProblem d.tasks := by
  intro task htask mode _
  obtain ⟨pair, hpair, bundle, h⟩ := exists_mem_of_forall₂_right hbuilt.tasks htask
  obtain ⟨other, hother, bundle', h'⟩ := exists_mem_of_forall₂_right hbuilt.tasks.flip
    (BuildInputs.mem_pairs (BuildInputs.mem_declarations hpair) mode)
  exact ⟨other, hother, Option.some.inj (h'.problemId.symm.trans h.problemId), h'.mode⟩

theorem Built.nonempty_tasks : d.tasks ≠ [] := by
  obtain ⟨declaration, hdeclaration⟩ := List.exists_mem_of_ne_nil _ hbuilt.nonempty
  obtain ⟨task, htask, -⟩ := exists_mem_of_forall₂_right hbuilt.tasks.flip
    (BuildInputs.mem_pairs hdeclaration .formalized)
  exact List.ne_nil_of_mem htask

include hvalid

theorem Built.indices : (d.sources.map (·.index)).Nodup := by
  refine List.pairwise_map.mpr (pairwise_of_forall₂ hbuilt.sources hvalid.apart ?_)
  rintro a _ a' _ ⟨index, hindex, rfl⟩ ⟨index', hindex', rfl⟩ hne rfl
  exact hne (catalogIndex_injective hindex hindex')

theorem Built.exists_target : ∃ target, target ∈ inputs.targets := by
  obtain ⟨declaration, hdeclaration⟩ := List.exists_mem_of_ne_nil _ hbuilt.nonempty
  obtain ⟨target, htarget, -⟩ := hvalid.selected declaration hdeclaration
  exact ⟨target, htarget⟩

theorem Built.tierPolicy_valid : (tierPolicy inputs d.tasks.length).Valid where
  prefixes := .nil
  directories := by simp [tierPolicy]
  grouping := by simp [tierPolicy, text]
  heldSourceTheoremsSha256 := hvalid.held
  minimumErdosTasks := by simp [tierPolicy]
  multiTargetTasks := by simp only [tierPolicy]; omega
  poolSize := by
    change (0 : ℤ) < d.tasks.length
    have hlength := List.length_pos_iff.mpr hbuilt.nonempty
    rw [← hbuilt.tasks.length_eq, pairs_length]
    omega
  rewardTargetCount := by
    obtain ⟨target, htarget⟩ := hbuilt.exists_target hvalid
    change (0 : ℤ) < (rewardTargetCount inputs.targets : ℕ)
    rw [hvalid.rewardTargetCount_eq, Int.natCast_pos, List.length_pos_iff]
    exact List.ne_nil_of_mem (List.mem_dedup.mpr (List.mem_map_of_mem htarget))
  retiredConjecturesSha256 := hvalid.conjectures
  retiredSourceTheoremsSha256 := hvalid.retired
  selection := by
    change inputs.taskTargets.policy.selection ≠ []
    cases inputs.taskTargets.policy <;> decide
  selectionAuditSha256 := hvalid.audit
  families := by
    obtain ⟨target, htarget⟩ := hbuilt.exists_target hvalid
    exact List.ne_nil_of_mem ((List.mem_insertionSort _).mpr
      (List.mem_dedup.mpr (List.mem_map_of_mem htarget)))
  sortedFamilies := sortedFamilies _
  sourceTheoremCount := by
    change (0 : ℤ) < inputs.declarations.length
    rw [Int.natCast_pos, List.length_pos_iff]
    exact hbuilt.nonempty
  taskGroupsSha256 := hvalid.grouping
  taskTargetsSha256 := hvalid.targetsSha256

theorem Built.admitted {source : SourceRow} (hsource : source ∈ d.sources) :
    Admitted py d.tiers source := by
  obtain ⟨declaration, hdeclaration, index, hindex, rfl⟩ :=
    exists_mem_of_forall₂_right hbuilt.sources hsource
  obtain ⟨target, htarget, -, hidentity⟩ := hvalid.target_of hdeclaration
  refine ⟨tierPolicy inputs d.tasks.length, by rw [hbuilt.tiers]; exact List.mem_cons_self, ?_,
    hvalid.staged declaration hdeclaration⟩
  exact {
    index := catalogIndex_nonneg hindex
    theoremName := hidentity.theoremName_ne_nil
    sourcePath := hidentity.isSourcePath
    family := by
      refine ⟨target.sourceFamily, sourceFamilyFromPath_eq_some.mpr hidentity.inFamily, ?_⟩
      change target.sourceFamily ∈ List.insertionSort _ _
      rw [List.mem_insertionSort, List.mem_dedup]
      exact List.mem_map_of_mem htarget
    excluded := by simp [tierPolicy]
    sourceTypeSha256 := hvalid.types declaration hdeclaration }

theorem Built.served {task : TaskRow} (htask : task ∈ d.tasks) :
    Served py d.repositoryCommit d.tiers d.sources task := by
  obtain ⟨pair, hpair, bundle, h⟩ := exists_mem_of_forall₂_right hbuilt.tasks htask
  obtain ⟨source, hnamed, index, hindex, rfl⟩ := hbuilt.named hpair h
  obtain ⟨htaskId, hsha256, hgenerated⟩ := hvalid.bundle bundle h.member
  obtain ⟨index', -, hindices⟩ := h.sourceIndices
  refine ⟨by rw [hbuilt.tiers, h.tier]; exact List.mem_cons_self, _, hnamed, ?_⟩
  exact {
    taskId := h.taskId ▸ htaskId
    taskBundleSha256 := h.taskBundleSha256 ▸ hsha256
    sources := List.cons_ne_nil _ _
    tier := by simp [h.tier]
    indices := by simp [hindices]
    theorems := h.theorems
    problemId := by rw [hbuilt.commit, h.theorems, h.problemId]
    rewardTargetId := by rw [h.theorems, hvalid.reward_eq hpair h]; rfl
    targets := by rw [h.targets, targetHashes_length]; rfl
    targetTypeSha256s := by
      have htype := hvalid.types pair.1 (BuildInputs.mem_declarations hpair)
      rw [h.targets]
      cases pair.2
      · simpa [targetHashes] using htype
      · simpa [targetHashes] using hgenerated
    relation := by
      obtain ⟨-, -, -, -, -, hrelation⟩ := h.fits
      rw [h.mode, h.targets]
      exact hrelation
    sourcePath := by simp [h.sourcePath] }

/-- Tasks of different pairs are told apart where the pairs are. -/
theorem Built.pairwise {T : TaskRow → TaskRow → Prop}
    (hT : ∀ pair task bundle pair' task' bundle', IsTaskOf py inputs pair task bundle →
      IsTaskOf py inputs pair' task' bundle' → PairsApart pair pair' → T task task') :
    d.tasks.Pairwise T := by
  refine pairwise_of_forall₂ hbuilt.tasks hvalid.pairs_apart ?_
  rintro pair task pair' task' ⟨bundle, h⟩ ⟨bundle', h'⟩ hapart
  exact hT pair task bundle pair' task' bundle' h h' hapart

theorem Built.taskIds : (d.tasks.map (·.taskId)).Nodup := by
  refine List.pairwise_map.mpr (hbuilt.pairwise hvalid ?_)
  intro pair task bundle pair' task' bundle' h h' hapart heq
  rw [h.taskId, h'.taskId] at heq
  exact h.not_apart h' (hvalid.taskIds bundle h.member bundle' h'.member heq) hapart

theorem Built.bundles : (d.tasks.map (·.taskBundleSha256)).Nodup := by
  refine List.pairwise_map.mpr (hbuilt.pairwise hvalid ?_)
  intro pair task bundle pair' task' bundle' h h' hapart heq
  rw [h.taskBundleSha256, h'.taskBundleSha256] at heq
  exact h.not_apart h' (hvalid.bundleSha256s bundle h.member bundle' h'.member heq) hapart

theorem Built.modes : d.tasks.Pairwise ModesApart := by
  refine hbuilt.pairwise hvalid ?_
  intro pair task bundle pair' task' bundle' h h' hapart hmode index hindex' hindex
  obtain ⟨i, hi, hindices⟩ := h.sourceIndices
  obtain ⟨i', hi', hindices'⟩ := h'.sourceIndices
  rw [hindices, List.mem_singleton] at hindex
  rw [hindices', List.mem_singleton] at hindex'
  rw [← hindex] at hi
  rw [← hindex'] at hi'
  rw [h.mode, h'.mode] at hmode
  rcases hapart with hne | hne
  · exact hne (catalogIndex_injective hi hi')
  · exact hne hmode

/-- The file of a declaration is no other's, where a target is a whole problem. -/
theorem Built.wholeProblems (h : inputs.taskTargets.taskScope = .wholeProblem) :
    (d.sources.map (·.sourcePath)).Nodup := by
  rw [hbuilt.paths]
  refine List.pairwise_map.mpr (hvalid.apart.imp_of_mem fun {a b} ha hb hne heq ↦ hne ?_)
  obtain ⟨target, htarget, hname, hpath⟩ := hvalid.selected a ha
  obtain ⟨target', htarget', hname', hpath'⟩ := hvalid.selected b hb
  have hsame := List.inj_on_of_nodup_map (hvalid.wholeProblems h) htarget htarget'
    (hpath.symm.trans (heq.trans hpath'))
  rw [hname, hname', hsame]

/-- The tasks are rewarded for the targets. -/
theorem Built.rewardTargets : (d.tasks.map (·.rewardTargetId)).dedup.length =
    rewardTargetCount inputs.targets := by
  have hinjective : Function.Injective (some : Text → Option Text) := Option.some_injective _
  rw [hvalid.rewardTargetCount_eq, ← List.length_map (f := (some : Text → Option Text)),
    ← List.dedup_map_of_injective hinjective, List.map_map]
  refine length_dedup_congr fun reward ↦ ⟨fun h ↦ ?_, fun h ↦ ?_⟩
  · obtain ⟨task, htask, rfl⟩ := List.mem_map.mp h
    obtain ⟨pair, hpair, bundle, htask⟩ := exists_mem_of_forall₂_right hbuilt.tasks htask
    obtain ⟨target, htarget, hname, -⟩ := hvalid.target_of (BuildInputs.mem_declarations hpair)
    rw [hvalid.reward_eq hpair htask, hname]
    exact List.mem_map.mpr ⟨target, htarget, rfl⟩
  · obtain ⟨target, htarget, rfl⟩ := List.mem_map.mp h
    obtain ⟨declaration, hdeclaration, hname⟩ := List.mem_map.mp (hbuilt.targets target htarget)
    have hpair := BuildInputs.mem_pairs hdeclaration .formalized
    obtain ⟨task, htask, bundle, hof⟩ := exists_mem_of_forall₂_right hbuilt.tasks.flip hpair
    refine List.mem_map.mpr ⟨task, htask, ?_⟩
    rw [hvalid.reward_eq hpair hof]
    exact congrArg (some ∘ rewardTargetIdentity) hname

theorem Built.holds : (tierPolicy inputs d.tasks.length).Holds d.sources d.tasks where
  poolSize := rfl
  sourceTheoremCount := by
    rw [← hbuilt.sources.length_eq]
    rfl
  outcomes := by rw [← hbuilt.tasks.length_eq, pairs_length, hbuilt.sources.length_eq]
  wholeProblems := hbuilt.wholeProblems hvalid
  erdos := by
    have hcount : d.sources.countP (Family.erdos.directory.isPrefixOf ·.sourcePath) =
        inputs.declarations.countP (Family.erdos.directory.isPrefixOf ·.sourcePath) := by
      rw [← Function.comp_def (Family.erdos.directory.isPrefixOf ·) SourceRow.sourcePath,
        ← List.countP_map, hbuilt.paths, List.countP_map]
      rfl
    rw [hcount]
    exact Int.ofNat_le.mpr hvalid.erdos
  multiTargets := by
    have hsingle : inputs.selected.countP (1 < ·.length) = 0 := by
      refine List.countP_eq_zero.mpr fun group hgroup ↦ ?_
      rw [hbuilt.single group hgroup]
      decide
    have hone : d.tasks.countP (1 < ·.targetTypeSha256s.length) = 0 := by
      refine List.countP_eq_zero.mpr fun task htask ↦ ?_
      obtain ⟨pair, -, bundle, h⟩ := exists_mem_of_forall₂_right hbuilt.tasks htask
      rw [h.targets, targetHashes_length]
      decide
    rw [hone]
    change (0 : ℤ) = (inputs.selected.countP (1 < ·.length) : ℤ) * 2
    rw [hsingle]
    rfl
  rewardTargets := by
    rw [hbuilt.rewardTargets hvalid]
    rfl

theorem Built.outcomes : EachOutcome d.sources d.tasks := by
  refine ⟨fun used hused ↦ ?_, fun expected hexpected ↦ ?_⟩
  · obtain ⟨task, htask, hused⟩ := List.mem_flatMap.mp hused
    obtain ⟨index, hindex, rfl⟩ := List.mem_map.mp hused
    obtain ⟨source, hsource, rfl⟩ :=
      List.mem_map.mp ((hbuilt.served hvalid htask).index_mem hindex)
    exact List.mem_flatMap.mpr ⟨source, hsource, List.mem_map_of_mem task.mode.mem_all⟩
  · obtain ⟨source, hsource, hexpected⟩ := List.mem_flatMap.mp hexpected
    obtain ⟨mode, -, rfl⟩ := List.mem_map.mp hexpected
    obtain ⟨declaration, hdeclaration, index, hindex, rfl⟩ :=
      exists_mem_of_forall₂_right hbuilt.sources hsource
    obtain ⟨task, htask, bundle, h⟩ :=
      exists_mem_of_forall₂_right hbuilt.tasks.flip (BuildInputs.mem_pairs hdeclaration mode)
    obtain ⟨index', hindex', hindices⟩ := h.sourceIndices
    obtain rfl : index = index' := Option.some.inj (hindex.symm.trans hindex')
    refine List.mem_flatMap.mpr ⟨task, htask, List.mem_map.mpr ⟨index, by simp [hindices], ?_⟩⟩
    rw [h.mode]

/-- A document that is built holds what it says. -/
theorem Built.sound : d.Sound py where
  auditDate := hbuilt.auditDate ▸ hvalid.auditDate
  commit := hbuilt.commit ▸ hvalid.commit
  tiers := by simp [hbuilt.tiers]
  tierIds := by simpa [hbuilt.tiers] using hbuilt.tier
  distinctTiers := by simp [hbuilt.tiers]
  policies := by simpa [hbuilt.tiers] using hbuilt.tierPolicy_valid hvalid
  sources _ hsource := hbuilt.admitted hvalid hsource
  indices := hbuilt.indices hvalid
  theorems := hbuilt.theorems ▸ hvalid.distinct
  tasks _ htask := hbuilt.served hvalid htask
  taskIds := hbuilt.taskIds hvalid
  modes := hbuilt.modes hvalid
  holds := by
    have hsources : d.tierSources inputs.tier = d.sources :=
      List.filter_eq_self.mpr fun source hsource ↦ decide_eq_true (hbuilt.source_tier hsource)
    have htasks : d.tierTasks inputs.tier = d.tasks :=
      List.filter_eq_self.mpr fun task htask ↦ decide_eq_true (hbuilt.task_tier htask)
    simpa [hbuilt.tiers, hsources, htasks] using hbuilt.holds hvalid
  nonempty := hbuilt.nonempty_tasks
  outcomes := hbuilt.outcomes hvalid
  problems := hbuilt.problems

theorem Built.apart : d.Apart where
  types := hbuilt.types ▸ hvalid.distinctTypes
  bundles := hbuilt.bundles hvalid
  problems task htask other hother heq := by
    obtain ⟨pair, hpair, bundle, h⟩ := exists_mem_of_forall₂_right hbuilt.tasks htask
    obtain ⟨pair', hpair', bundle', h'⟩ := exists_mem_of_forall₂_right hbuilt.tasks hother
    have hcollide := collide_of_problemId (heq ▸ h.problemId) h'.problemId
    rw [h.theorems, h'.theorems, hvalid.problemDigests _ (BuildInputs.mem_declarations hpair) _
      (BuildInputs.mem_declarations hpair') hcollide]

end Facts

end Conjectures.Allowlist

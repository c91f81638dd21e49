import Conjectures.Allowlist.Registry
import Conjectures.Lib.JsonPretty
import Mathlib.Data.List.Pairwise

/-!
# Allowlist documents

A document as `pretty_json` writes it.  Such a document is loaded exactly where it is valid, and
what is loaded are its tasks.

`Sound` is what the loader asks of the rows one by one and of each tier, `Apart` what it asks of the
identities of all rows together.  Within the size limit, the bytes of a document are loaded exactly
where both hold, and then as the document's own tasks in their order (`fromBytes_bytes`).
-/

namespace Conjectures.Allowlist

open Lib Lib.Json

/-- What an allowlist says; each tier stands at its place with its policy. -/
structure Document where
  auditDateUtc : Text
  repositoryCommit : Text
  tiers : List (Text × TierPolicy)
  sources : List SourceRow
  tasks : List TaskRow
  deriving DecidableEq

/-! ## Writing -/

def policyFields (p : TierPolicy) : List (Text × Json) :=
  [(text "classification", .string (text "DIRECT_PROP")),
    (text "compiled_target_validation", .bool true),
    (text "excluded_source_prefixes", .array (p.excludedSourcePrefixes.map .string)),
    (text "grouping", .string p.grouping),
    (text "held_source_theorems_sha256", .string p.heldSourceTheoremsSha256),
    (text "minimum_erdos_tasks", .int p.minimumErdosTasks),
    (text "modes", modesJson),
    (text "multi_target_tasks", .int p.multiTargetTasks),
    (text "one_reward_per_problem", .bool true),
    (text "one_reward_per_reward_target", .bool true),
    (text "outcomes_per_problem", .int 2),
    (text "pool_size", .int p.poolSize),
    (text "retired_conjectures_sha256", .string p.retiredConjecturesSha256),
    (text "retired_source_theorems_sha256", .string p.retiredSourceTheoremsSha256),
    (text "reward_target_count", .int p.rewardTargetCount),
    (text "reward_target_policy", .string (text "stable-theorem-target-v1")),
    (text "selection", .string p.selection),
    (text "selection_audit_sha256", .string p.selectionAuditSha256),
    (text "source_category", .string (text "research open")),
    (text "source_families", .array ((p.sourceFamilies.map Family.word).map .string)),
    (text "source_theorem_count", .int p.sourceTheoremCount),
    (text "target_relations", .object targetRelations),
    (text "task_groups_sha256", .string p.taskGroupsSha256),
    (text "task_scope", .string p.taskScope.word),
    (text "task_targets_sha256", .string p.taskTargetsSha256)]

def sourceMembers (source : SourceRow) : List (Text × Json) :=
  [(text "index", .int source.index),
    (text "source_path", .string source.sourcePath),
    (text "source_type_sha256", .string source.sourceTypeSha256),
    (text "theorem", .string source.theoremName),
    (text "tier", .string source.tier)]

def policyJson (p : TierPolicy) : Json := .object (policyFields p)

/-- A string, or null where there is none. -/
def textOrNull : Option Text → Json
  | none => .null
  | some s => .string s

def taskMembers (task : TaskRow) : List (Text × Json) :=
  [(text "completion_policy", .string (text "all_of")),
    (text "mode", .string task.mode.word),
    (text "problem_id", .string task.problemId),
    (text "reward_target_id", textOrNull task.rewardTargetId),
    (text "source_indices", .array (task.sourceIndices.map .int)),
    (text "source_path", .string task.sourcePath),
    (text "target_type_sha256s", .array (task.targetTypeSha256s.map .string)),
    (text "task_bundle_sha256", .string task.taskBundleSha256),
    (text "task_id", .string task.taskId),
    (text "theorems", .array (task.theorems.map .string)),
    (text "tier", .string task.tier)]

def sourceJson (source : SourceRow) : Json := .object (sourceMembers source)

def taskJson (task : TaskRow) : Json := .object (taskMembers task)

/-- The policies by their tiers. -/
def policyMembers (tiers : List (Text × TierPolicy)) : List (Text × Json) :=
  tiers.map fun tier ↦ (tier.1, policyJson tier.2)

/-- The policies in the order of their tiers' names. -/
def sortedPolicies (tiers : List (Text × TierPolicy)) : List (Text × Json) :=
  (policyMembers tiers).insertionSort fun m m' ↦ m.1 ≤ m'.1

namespace Document

def members (d : Document) : List (Text × Json) :=
  [(text "allowed_source_theorems", .array (d.sources.map sourceJson)),
    (text "allowed_task_bundles", .array (d.tasks.map taskJson)),
    (text "audit_date_utc", .string d.auditDateUtc),
    (text "default", .string (text "DENY")),
    (text "repository_commit", .string d.repositoryCommit),
    (text "schema_version", .int taskPoolSchemaVersion),
    (text "tier_order", .array ((d.tiers.map Prod.fst).map .string)),
    (text "tier_policies", .object (sortedPolicies d.tiers))]

def json (d : Document) : Json := .object d.members

/-- `pretty_json(value).encode("utf-8")` -/
def bytes (d : Document) : Option ByteArray := (pretty d.json).map encode

end Document

/-! ### What is written is in order -/

theorem inOrder_texts (ss : List Text) : InOrder (.array (ss.map .string)) :=
  inOrder_map inOrder_string ss

theorem keys_ordered {ks : List Text} (h : ks ∈ [policyKeys, targetRelations.map Prod.fst,
    sourceKeys, taskKeys, documentKeys]) : ks.Pairwise (· ≤ ·) ∧ ks.Nodup := by
  revert ks
  decide +kernel

theorem policyKeys_ordered : policyKeys.Pairwise (· ≤ ·) ∧ policyKeys.Nodup :=
  keys_ordered (by simp)

theorem targetRelations_ordered : (targetRelations.map Prod.fst).Pairwise (· ≤ ·) ∧
    (targetRelations.map Prod.fst).Nodup := keys_ordered (by simp)

theorem sourceKeys_ordered : sourceKeys.Pairwise (· ≤ ·) ∧ sourceKeys.Nodup :=
  keys_ordered (by simp)

theorem taskKeys_ordered : taskKeys.Pairwise (· ≤ ·) ∧ taskKeys.Nodup :=
  keys_ordered (by simp)

theorem documentKeys_ordered : documentKeys.Pairwise (· ≤ ·) ∧ documentKeys.Nodup :=
  keys_ordered (by simp)

theorem inOrder_policyJson (p : TierPolicy) : InOrder (policyJson p) := by
  refine inOrder_object policyKeys rfl policyKeys_ordered ?_
  have hmodes : InOrder modesJson :=
    inOrder_map (f := fun m : Mode ↦ .string m.word) (fun m ↦ inOrder_string m.word) Mode.all
  have hrelations : InOrder (.object targetRelations) :=
    inOrder_object (targetRelations.map Prod.fst) rfl targetRelations_ordered (by
      simp [targetRelations, inOrder_string])
  simp only [policyFields, List.forall_mem_cons, List.not_mem_nil, false_implies, implies_true, and_true]
  simp only [inOrder_string, inOrder_int, inOrder_bool, inOrder_texts, hmodes, hrelations,
    and_true]

theorem inOrder_sourceJson (source : SourceRow) : InOrder (sourceJson source) := by
  refine inOrder_object sourceKeys rfl sourceKeys_ordered ?_
  simp [sourceMembers, inOrder_string, inOrder_int]

theorem inOrder_textOrNull (s : Option Text) : InOrder (textOrNull s) := by
  cases s
  · exact inOrder_null
  · exact inOrder_string _

theorem inOrder_taskJson (task : TaskRow) : InOrder (taskJson task) := by
  refine inOrder_object taskKeys rfl taskKeys_ordered ?_
  have hindices : InOrder (.array (task.sourceIndices.map .int)) := inOrder_map inOrder_int _
  simp only [taskMembers, List.forall_mem_cons, List.not_mem_nil, false_implies, implies_true,
    and_true]
  simp only [inOrder_string, inOrder_textOrNull, inOrder_texts, hindices, and_true]

variable {tiers : List (Text × TierPolicy)} {d : Document}

theorem sortedPolicies_perm (tiers : List (Text × TierPolicy)) :
    (sortedPolicies tiers).Perm (policyMembers tiers) := List.perm_insertionSort _ _

theorem policyMembers_keys (tiers : List (Text × TierPolicy)) :
    (policyMembers tiers).map Prod.fst = tiers.map Prod.fst := by
  rw [policyMembers, List.map_map]
  rfl

theorem sortedPolicies_keys (tiers : List (Text × TierPolicy)) :
    ((sortedPolicies tiers).map Prod.fst).Perm (tiers.map Prod.fst) :=
  policyMembers_keys tiers ▸ (sortedPolicies_perm tiers).map Prod.fst

theorem inOrder_sortedPolicies (htiers : (tiers.map Prod.fst).Nodup) :
    InOrder (.object (sortedPolicies tiers)) := by
  refine inOrder_object _ rfl ⟨?_, (sortedPolicies_keys tiers).nodup_iff.mpr htiers⟩ ?_
  · exact List.pairwise_map.mpr (List.pairwise_insertionSort _ _)
  · intro m hm
    obtain ⟨tier, -, rfl⟩ := List.mem_map.mp ((sortedPolicies_perm tiers).mem_iff.mp hm)
    exact inOrder_policyJson _

theorem Document.inOrder (htiers : (d.tiers.map Prod.fst).Nodup) : InOrder d.json := by
  refine inOrder_object documentKeys rfl documentKeys_ordered ?_
  have hsources : InOrder (.array (d.sources.map sourceJson)) := inOrder_map inOrder_sourceJson _
  have htasks : InOrder (.array (d.tasks.map taskJson)) := inOrder_map inOrder_taskJson _
  simp only [Document.members, List.forall_mem_cons, List.not_mem_nil, false_implies,
    implies_true, and_true]
  simp only [inOrder_string, inOrder_int, inOrder_texts, inOrder_sortedPolicies htiers, hsources,
    htasks, and_true]

theorem floats_textOrNull {p : List Char → Prop} (s : Option Text) : (textOrNull s).Floats p := by
  cases s <;> trivial

/-- A document has no floats. -/
theorem Document.floats (d : Document) {p : List Char → Prop} : d.json.Floats p := by
  have htask (task : TaskRow) : (taskJson task).Floats p := by
    simp [taskJson, taskMembers, floats_textOrNull]
  have hpolicy (policy : TierPolicy) : (policyJson policy).Floats p := by
    simp [policyJson, policyFields, modesJson, targetRelations]
  have hpolicies : (Json.object (sortedPolicies d.tiers)).Floats p := by
    refine floats_object.mpr fun m hm ↦ ?_
    obtain ⟨tier, -, rfl⟩ := List.mem_map.mp ((sortedPolicies_perm d.tiers).mem_iff.mp hm)
    exact hpolicy _
  rw [floats_object] at hpolicies
  simp only [json, members, floats_object, floats_array, floats_string, floats_int,
    List.forall_mem_cons, List.forall_mem_map, List.not_mem_nil, false_implies, implies_true,
    true_and, and_true]
  exact ⟨fun source _ ↦ by simp [sourceJson, sourceMembers], fun task _ ↦ htask task, hpolicies⟩

/-- The bytes of a document are read as the document. -/
theorem Document.loads {b : ByteArray} (htiers : (d.tiers.map Prod.fst).Nodup)
    (hb : d.bytes = some b) : (decode? b).bind loads? = some d.json := by
  obtain ⟨cs, hcs, rfl⟩ := Option.map_eq_some_iff.mp hb
  rw [decode?_eq_some.mpr rfl, Option.bind_some,
    loads?_pretty hcs (d.inOrder htiers).keyed d.floats, (d.inOrder htiers).sorted]

/-! ### What is written is read -/

variable {py : Python}

theorem families_ofWord (fs : List Family) :
    (fs.map Family.word).mapM Family.ofWord = some fs := by
  induction fs with
  | nil => rfl
  | cons f fs ih => simp [List.mapM_cons, Family.ofWord_word, ih]

theorem isTargetRelations : IsTargetRelations (.object targetRelations) := by
  refine ⟨targetRelations, rfl, hasKeys_of_eq rfl, fun m hm ↦ ?_⟩
  exact (lookup_eq_some_iff_mem targetRelations_ordered.2).mpr hm

theorem readPolicy_json (p : TierPolicy) : readPolicy py (policyJson p) = some p := by
  have hkeys : ((policyFields p).map Prod.fst).Nodup := policyKeys_ordered.2
  have hall : HasKeys (policyFields p) policyKeys := hasKeys_of_eq rfl
  have htwo : py.IsTwo (.int 2) := rfl
  have hexcluded := asTexts_map p.excludedSourcePrefixes
  have hfamilies := asTexts_map (p.sourceFamilies.map Family.word)
  have hget {i : ℕ} {k : Text} {v : Json} (h : (policyFields p)[i]? = some (k, v)) :=
    field_at hkeys h
  rw [readPolicy, policyJson, asMembers, Option.bind_eq_bind, Option.bind_some,
    hget (i := 0) rfl, hget (i := 1) rfl, hget (i := 2) rfl, hget (i := 3) rfl,
    hget (i := 4) rfl, hget (i := 5) rfl, hget (i := 6) rfl, hget (i := 7) rfl,
    hget (i := 8) rfl, hget (i := 9) rfl, hget (i := 10) rfl, hget (i := 11) rfl,
    hget (i := 12) rfl, hget (i := 13) rfl, hget (i := 14) rfl, hget (i := 15) rfl,
    hget (i := 16) rfl, hget (i := 17) rfl, hget (i := 18) rfl, hget (i := 19) rfl,
    hget (i := 20) rfl, hget (i := 21) rfl, hget (i := 22) rfl, hget (i := 23) rfl,
    hget (i := 24) rfl, hexcluded, hfamilies]
  simp only [guard, hall, htwo, isTargetRelations, if_true, asText, asInt, families_ofWord,
    TaskScope.ofWord_word, Option.bind_eq_bind, Option.bind_some, Option.pure_def]

theorem validTierPolicy_json (p p' : TierPolicy) :
    validTierPolicy py (policyJson p) = some p' ↔ p.Valid ∧ p' = p := by
  rw [validTierPolicy, readPolicy_json, Option.filter_some]
  split
  · rename_i hvalid
    simp_all [eq_comm]
  · rename_i hvalid
    simp_all

theorem readSource_members (source : SourceRow) :
    readSource (sourceMembers source) = some source := rfl

theorem asTextOrNull_textOrNull (s : Option Text) : asTextOrNull (textOrNull s) = some s := by
  cases s <;> rfl

theorem readTask_members (task : TaskRow) : readTask (taskMembers task) = some task := by
  have hkeys : ((taskMembers task).map Prod.fst).Nodup := taskKeys_ordered.2
  have hindices := asInts_map task.sourceIndices
  have htargets := asTexts_map task.targetTypeSha256s
  have htheorems := asTexts_map task.theorems
  have hreward := asTextOrNull_textOrNull task.rewardTargetId
  have hget {i : ℕ} {k : Text} {v : Json} (h : (taskMembers task)[i]? = some (k, v)) :=
    field_at hkeys h
  rw [readTask, hget (i := 0) rfl, hget (i := 1) rfl, hget (i := 2) rfl, hget (i := 3) rfl,
    hget (i := 4) rfl, hget (i := 5) rfl, hget (i := 6) rfl, hget (i := 7) rfl,
    hget (i := 8) rfl, hget (i := 9) rfl, hget (i := 10) rfl, hindices, htargets, htheorems,
    hreward]
  simp only [guard, if_true, asText, Mode.ofWord_word, Option.bind_eq_bind, Option.bind_some,
    Option.pure_def]

/-! ## Validity -/

/-- The source stands in a tier whose policy admits it. -/
def Admitted (py : Python) (tiers : List (Text × TierPolicy)) (source : SourceRow) : Prop :=
  ∃ policy, (source.tier, policy) ∈ tiers ∧ source.Valid py policy ∧
    ¬ StagedResearchTarget py source.theoremName source.sourcePath

/-- The sources that the indices name, in their order. -/
def Named (sources : List SourceRow) : List ℤ → List SourceRow → Prop :=
  List.Forall₂ fun index source ↦ source ∈ sources ∧ source.index = index

/-- The task stands in a tier and holds of the sources that it names. -/
def Served (py : Python) (commit : Text) (tiers : List (Text × TierPolicy))
    (sources : List SourceRow) (task : TaskRow) : Prop :=
  task.tier ∈ tiers.map Prod.fst ∧
    ∃ named, Named sources task.sourceIndices named ∧ task.Valid py commit named

/-- Tasks of one mode share no source. -/
def ModesApart (task other : TaskRow) : Prop :=
  task.mode = other.mode → ∀ index ∈ other.sourceIndices, index ∉ task.sourceIndices

namespace Document

/-- The sources of a tier. -/
def tierSources (d : Document) (tier : Text) : List SourceRow := d.sources.filter (·.tier = tier)

/-- The tasks of a tier. -/
def tierTasks (d : Document) (tier : Text) : List TaskRow := d.tasks.filter (·.tier = tier)

/-- The document holds what it says: every rule of the loader but the three that tell sources,
bundles and problems of the whole document apart. -/
structure Sound (py : Python) (d : Document) : Prop where
  auditDate : IsIsoDate d.auditDateUtc
  commit : IsCommit d.repositoryCommit
  tiers : d.tiers ≠ []
  tierIds : ∀ tier ∈ d.tiers, IsTierId tier.1
  distinctTiers : (d.tiers.map Prod.fst).Nodup
  policies : ∀ tier ∈ d.tiers, tier.2.Valid
  sources : ∀ source ∈ d.sources, Admitted py d.tiers source
  indices : (d.sources.map (·.index)).Nodup
  theorems : (d.sources.map (·.theoremName)).Nodup
  tasks : ∀ task ∈ d.tasks, Served py d.repositoryCommit d.tiers d.sources task
  taskIds : (d.tasks.map (·.taskId)).Nodup
  modes : d.tasks.Pairwise ModesApart
  holds : ∀ tier ∈ d.tiers, tier.2.Holds (d.tierSources tier.1) (d.tierTasks tier.1)
  nonempty : d.tasks ≠ []
  outcomes : EachOutcome d.sources d.tasks
  problems : EachProblem d.tasks

/-- No two sources have one type, no two tasks one bundle, and no two problems one id. -/
structure Apart (d : Document) : Prop where
  types : (d.sources.map (·.sourceTypeSha256)).Nodup
  bundles : (d.tasks.map (·.taskBundleSha256)).Nodup
  problems : ∀ task ∈ d.tasks, ∀ other ∈ d.tasks, task.problemId = other.problemId →
    task.theorems = other.theorems

/-- What is loaded of the document. -/
def registry (d : Document) : TaskPoolRegistry where
  repositoryCommit := d.repositoryCommit
  tierOrder := d.tiers.map Prod.fst
  tasks := d.tasks.map TaskRow.allowed

end Document

/-! ### Pairs of rows -/

theorem sources_apart {sources : List SourceRow} : sources.Pairwise SourceRow.Apart ↔
    (sources.map (·.index)).Nodup ∧ (sources.map (·.theoremName)).Nodup ∧
      (sources.map (·.sourceTypeSha256)).Nodup := by
  simp only [List.Nodup, List.pairwise_map, ← List.pairwise_and_iff]
  rfl

theorem pairwise_problems {tasks : List TaskRow} :
    tasks.Pairwise (fun task other ↦ task.problemId = other.problemId →
      task.theorems = other.theorems) ↔
    ∀ task ∈ tasks, ∀ other ∈ tasks, task.problemId = other.problemId →
      task.theorems = other.theorems := by
  have hsymm : Std.Symm fun task other : TaskRow ↦ task.problemId = other.problemId →
      task.theorems = other.theorems := ⟨fun _ _ h heq ↦ (h heq.symm).symm⟩
  refine ⟨fun h task htask other hother ↦ ?_, fun h ↦ List.pairwise_of_forall_mem_list h⟩
  exact List.Pairwise.forall_of_forall (fun _ _ _ ↦ rfl) h htask hother

theorem tasks_apart {tasks : List TaskRow} : tasks.Pairwise TaskRow.Apart ↔
    (tasks.map (·.taskBundleSha256)).Nodup ∧ (tasks.map (·.taskId)).Nodup ∧
      tasks.Pairwise ModesApart ∧
      ∀ task ∈ tasks, ∀ other ∈ tasks, task.problemId = other.problemId →
        task.theorems = other.theorems := by
  rw [← pairwise_problems]
  simp only [List.Nodup, List.pairwise_map, ← List.pairwise_and_iff]
  refine ⟨fun h ↦ h.imp fun h ↦ ⟨h.1, h.2, h.3, h.4⟩,
    fun h ↦ h.imp fun ⟨h₁, h₂, h₃, h₄⟩ ↦ ⟨h₁, h₂, h₃, h₄⟩⟩

/-! ### Loading row by row -/

theorem addSource_json (htiers : (tiers.map Prod.fst).Nodup) {sources out : List SourceRow}
    {source : SourceRow} : addSource py tiers sources (sourceJson source) = .ok out ↔
      Admitted py tiers source ∧ (∀ other ∈ sources, other.Apart source) ∧
        out = sources ++ [source] := by
  have hkeys : HasKeys (sourceMembers source) sourceKeys := hasKeys_of_eq rfl
  have hmembers : (sourceJson source).asMembers.filter (HasKeys · sourceKeys) =
      some (sourceMembers source) := by
    rw [sourceJson, asMembers, Option.filter_some, if_pos (decide_eq_true hkeys)]
  simp only [addSource, hmembers, readSource_members, bind_eq_ok, need_eq_ok, require_eq_ok,
    lookup_eq_some_iff_mem htiers, Option.some.injEq, exists_eq_left', pure, Except.pure,
    Except.ok.injEq]
  constructor
  · rintro ⟨policy, hpolicy, -, ⟨hvalid, hapart⟩, -, hstaged, rfl⟩
    exact ⟨⟨policy, hpolicy, hvalid, hstaged⟩, hapart, rfl⟩
  · rintro ⟨⟨policy, hpolicy, hvalid, hstaged⟩, hapart, rfl⟩
    exact ⟨policy, hpolicy, (), ⟨hvalid, hapart⟩, (), hstaged, rfl⟩

theorem sourceByIndex_eq_some {sources : List SourceRow}
    (hindices : (sources.map (·.index)).Nodup) {index : ℤ} {source : SourceRow} :
    sourceByIndex sources index = some source ↔ source ∈ sources ∧ source.index = index := by
  constructor
  · intro h
    exact ⟨List.mem_of_find?_eq_some h, by simpa using List.find?_some h⟩
  · rintro ⟨hsource, rfl⟩
    cases hfind : sourceByIndex sources source.index with
    | none =>
      have hnone := List.find?_eq_none.mp hfind source hsource
      simp at hnone
    | some other =>
      have hother := List.mem_of_find?_eq_some hfind
      have hindex : other.index = source.index := by simpa using List.find?_some hfind
      rw [List.inj_on_of_nodup_map hindices hother hsource hindex]

theorem named_iff {sources named : List SourceRow} (hindices : (sources.map (·.index)).Nodup)
    {indices : List ℤ} :
    indices.mapM (sourceByIndex sources) = some named ↔ Named sources indices named := by
  induction indices generalizing named with
  | nil => simp [Named, eq_comm]
  | cons index indices ih =>
    simp only [List.mapM_cons, Option.bind_eq_bind, Option.bind_eq_some_iff, ih,
      sourceByIndex_eq_some hindices, Named, List.forall₂_cons_left_iff, Option.pure_def,
      Option.some.injEq]
    constructor
    · rintro ⟨source, hsource, rest, hrest, rfl⟩
      exact ⟨source, rest, hsource, hrest, rfl⟩
    · rintro ⟨source, rest, hsource, hrest, rfl⟩
      exact ⟨source, hsource, rest, hrest, rfl⟩

theorem addTask_json {commit : Text} {sources : List SourceRow}
    (hindices : (sources.map (·.index)).Nodup) {tasks out : List TaskRow} {task : TaskRow} :
    addTask py commit tiers sources tasks (taskJson task) = .ok out ↔
      Served py commit tiers sources task ∧ (∀ other ∈ tasks, other.Apart task) ∧
        out = tasks ++ [task] := by
  have hkeys : HasKeys (taskMembers task) taskKeys := hasKeys_of_eq rfl
  have hmembers : (taskJson task).asMembers.filter (HasKeys · taskKeys) =
      some (taskMembers task) := by
    rw [taskJson, asMembers, Option.filter_some, if_pos (decide_eq_true hkeys)]
  simp only [addTask, hmembers, readTask_members, bind_eq_ok, need_eq_ok, require_eq_ok,
    named_iff hindices, Option.some.injEq, exists_eq_left', pure, Except.pure, Except.ok.injEq]
  constructor
  · rintro ⟨named, hnamed, -, ⟨htier, hvalid, hapart⟩, rfl⟩
    exact ⟨⟨htier, named, hnamed, hvalid⟩, hapart, rfl⟩
  · rintro ⟨⟨htier, named, hnamed, hvalid⟩, hapart, rfl⟩
    exact ⟨named, hnamed, (), ⟨htier, hvalid, hapart⟩, rfl⟩

/-! ### Loading a document -/

/-- The policy of a tier of the document. -/
theorem tier_json (htiers : (tiers.map Prod.fst).Nodup) {tier : Text × TierPolicy}
    (htier : tier ∈ tiers) : (sortedPolicies tiers).lookup tier.1 = some (policyJson tier.2) := by
  have hkeys := (sortedPolicies_keys tiers).nodup_iff.mpr htiers
  refine (lookup_eq_some_iff_mem hkeys).mpr ((sortedPolicies_perm tiers).mem_iff.mpr ?_)
  exact List.mem_map.mpr ⟨tier, htier, rfl⟩

theorem readTiers_mapM (htiers : (tiers.map Prod.fst).Nodup) {part ts : List (Text × TierPolicy)}
    (hpart : ∀ tier ∈ part, tier ∈ tiers) :
    (part.map Prod.fst).mapM (readTier py (sortedPolicies tiers)) = some ts ↔
      (∀ tier ∈ part, tier.2.Valid) ∧ ts = part := by
  induction part generalizing ts with
  | nil => simp [eq_comm]
  | cons tier part ih =>
    rw [List.forall_mem_cons] at hpart
    simp only [List.map_cons, List.mapM_cons, readTier, tier_json htiers hpart.1,
      Option.bind_eq_bind,
      Option.bind_some, Option.bind_eq_some_iff, validTierPolicy_json, Option.pure_def,
      Option.some.injEq, List.forall_mem_cons]
    constructor
    · rintro ⟨-, ⟨-, ⟨hvalid, rfl⟩, rfl⟩, rest, hrest, rfl⟩
      obtain ⟨hvalids, rfl⟩ := (ih hpart.2).mp hrest
      exact ⟨⟨hvalid, hvalids⟩, rfl⟩
    · rintro ⟨⟨hvalid, hvalids⟩, rfl⟩
      exact ⟨_, ⟨_, ⟨hvalid, rfl⟩, rfl⟩, part, (ih hpart.2).mpr ⟨hvalids, rfl⟩, rfl⟩

theorem field_members (d : Document) {i : ℕ} {k : Text} {v : Json}
    (h : d.members[i]? = some (k, v)) : field d.members k = v :=
  field_at (show (d.members.map Prod.fst).Nodup from documentKeys_ordered.2) h

theorem readTiers_members (htiers : (d.tiers.map Prod.fst).Nodup) {ts : List (Text × TierPolicy)} :
    readTiers py d.members = some ts ↔ d.tiers ≠ [] ∧ (∀ tier ∈ d.tiers, IsTierId tier.1) ∧
      (∀ tier ∈ d.tiers, tier.2.Valid) ∧ ts = d.tiers := by
  have hkeys : HasKeys (sortedPolicies d.tiers) (d.tiers.map Prod.fst) :=
    ⟨fun _ hk ↦ (sortedPolicies_keys d.tiers).mem_iff.mpr hk,
      fun _ hk ↦ (sortedPolicies_keys d.tiers).mem_iff.mp hk⟩
  have horder : (array (((d.tiers.map Prod.fst)).map .string)).asTexts = some _ :=
    asTexts_map (d.tiers.map Prod.fst)
  rw [readTiers, field_members d (i := 6) rfl, field_members d (i := 7) rfl, horder]
  simp only [asMembers, Option.bind_eq_bind, Option.bind_some, Option.bind_eq_some_iff,
    Option.guard_eq_some', hkeys, readTiers_mapM htiers fun _ h ↦ h]
  constructor
  · rintro ⟨-, ⟨hne, hids, -⟩, -, -, hvalid, rfl⟩
    exact ⟨by simpa using hne, fun tier htier ↦ hids _ (List.mem_map_of_mem htier), hvalid, rfl⟩
  · rintro ⟨hne, hids, hvalid, rfl⟩
    refine ⟨(), ⟨by simpa using hne, fun k hk ↦ ?_, htiers⟩, (), trivial, hvalid, rfl⟩
    obtain ⟨tier, htier, rfl⟩ := List.mem_map.mp hk
    exact hids tier htier

theorem fromBytes_bytes (htiers : (d.tiers.map Prod.fst).Nodup) {b : ByteArray}
    (hb : d.bytes = some b) {r : TaskPoolRegistry} : fromBytes py b = .ok r ↔
      b.size ≤ maxAllowlistBytes ∧ d.Sound py ∧ d.Apart ∧ r = d.registry := by
  have hkeys : HasKeys d.members documentKeys := hasKeys_of_eq rfl
  have hread : fromBytes py b = .ok r ↔ b.size ≤ maxAllowlistBytes ∧ IsIsoDate d.auditDateUtc ∧
      IsCommit d.repositoryCommit ∧ ∃ ts, readTiers py d.members = some ts ∧ ∃ sources,
        (d.sources.map sourceJson).foldlM (addSource py ts) [] = .ok sources ∧ ∃ tasks,
        (d.tasks.map taskJson).foldlM (addTask py d.repositoryCommit ts sources) [] = .ok tasks ∧
        (∀ tier ∈ ts, tier.2.Holds (sources.filter (·.tier = tier.1))
          (tasks.filter (·.tier = tier.1))) ∧ (tasks ≠ [] ∧ EachOutcome sources tasks) ∧
        EachProblem tasks ∧
        r = ⟨d.repositoryCommit, ts.map Prod.fst, tasks.map TaskRow.allowed⟩ := by
    rw [fromBytes, d.loads htiers hb]
    simp only [Document.json, asMembers, hkeys, bind_eq_ok, need_eq_ok, require_eq_ok,
      Option.some.injEq, exists_eq_left']
    rw [field_members d (i := 0) rfl, field_members d (i := 1) rfl, field_members d (i := 2) rfl,
      field_members d (i := 3) rfl, field_members d (i := 4) rfl, field_members d (i := 5) rfl]
    constructor
    · rintro ⟨-, hsize, -, -, -, -, -, -, date, hdate, commit, hcommit, _, ⟨⟩, _, ⟨⟩, ts, hts,
        sources, hsources, tasks, htasks, -, hholds, -, houtcomes, -, hproblems, hr⟩
      obtain ⟨hdate', hdate⟩ := Option.filter_eq_some_iff.mp hdate
      obtain ⟨hcommit', hcommit⟩ := Option.filter_eq_some_iff.mp hcommit
      cases hdate'
      cases hcommit'
      exact ⟨hsize, of_decide_eq_true hdate, of_decide_eq_true hcommit, ts, hts, sources, hsources,
        tasks, htasks, hholds, houtcomes, hproblems, (Except.ok.inj hr).symm⟩
    · rintro ⟨hsize, hdate, hcommit, ts, hts, sources, hsources, tasks, htasks, hholds, houtcomes,
        hproblems, rfl⟩
      exact ⟨(), hsize, (), trivial, (), rfl, (), rfl, _,
        Option.filter_eq_some_iff.mpr ⟨rfl, decide_eq_true hdate⟩, _,
        Option.filter_eq_some_iff.mpr ⟨rfl, decide_eq_true hcommit⟩, _, rfl, _, rfl, ts, hts,
        sources, hsources, tasks, htasks, (), hholds, (), houtcomes, (), hproblems, rfl⟩
  rw [hread]
  constructor
  · rintro ⟨hsize, hdate, hcommit, ts, hts, sources, hsources, tasks, htasks, hholds,
      ⟨hne, houtcomes⟩, hproblems, rfl⟩
    obtain ⟨htiers', hids, hpolicies, rfl⟩ := (readTiers_members htiers).mp hts
    obtain ⟨hadmitted, hapart, rfl⟩ := (foldlM_rows fun _ _ _ ↦ addSource_json htiers).mp hsources
    obtain ⟨hindices, htheorems, htypes⟩ := sources_apart.mp hapart
    obtain ⟨hserved, hapart', rfl⟩ := (foldlM_rows fun _ _ _ ↦ addTask_json hindices).mp htasks
    obtain ⟨hbundles, htaskIds, hmodes, hproblemIds⟩ := tasks_apart.mp hapart'
    exact ⟨hsize, ⟨hdate, hcommit, htiers', hids, htiers, hpolicies, fun s hs ↦ (hadmitted s hs).1,
      hindices, htheorems, fun t ht ↦ (hserved t ht).1, htaskIds, hmodes, hholds, hne, houtcomes,
      hproblems⟩, ⟨htypes, hbundles, hproblemIds⟩, rfl⟩
  · rintro ⟨hsize, hsound, hapart, rfl⟩
    have hsources := sources_apart.mpr ⟨hsound.indices, hsound.theorems, hapart.types⟩
    have htasks := tasks_apart.mpr ⟨hapart.bundles, hsound.taskIds, hsound.modes, hapart.problems⟩
    refine ⟨hsize, hsound.auditDate, hsound.commit, d.tiers,
      (readTiers_members htiers).mpr ⟨hsound.tiers, hsound.tierIds, hsound.policies, rfl⟩,
      d.sources, (foldlM_rows fun _ _ _ ↦ addSource_json htiers).mpr
        ⟨fun s hs ↦ ⟨hsound.sources s hs, by simp⟩, hsources, rfl⟩,
      d.tasks, (foldlM_rows fun _ _ _ ↦ addTask_json hsound.indices).mpr
        ⟨fun t ht ↦ ⟨hsound.tasks t ht, by simp⟩, htasks, rfl⟩,
      hsound.holds, ⟨hsound.nonempty, hsound.outcomes⟩, hsound.problems, rfl⟩

end Conjectures.Allowlist

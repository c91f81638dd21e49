import Conjectures.Allowlist.Sources
import Conjectures.Lib.JsonBytes
import Conjectures.Lib.JsonFields

/-!
# Loading an allowlist

`TaskPoolRegistry.from_bytes`: a document of sources and tasks, read strictly, row after row, and
held against the policies of its tiers.

A number of more digits than `int` converts is read here, and so is a document nested deeper than
the decoder follows.  Where the source compares a value with `2`, a float may equal it as well as an
integer, which only Python's floats can tell (`isTwo`).
-/

namespace Conjectures.Allowlist

open Lib Lib.Json

/-! ## Rows -/

inductive Mode where
  | formalized
  | counterexample
  deriving DecidableEq

namespace Mode

/-- `PRODUCTION_TASK_MODES` -/
def all : List Mode := [formalized, counterexample]

theorem mem_all (m : Mode) : m ∈ all := by
  cases m <;> decide

def word : Mode → Text
  | formalized => text "formalized"
  | counterexample => text "counterexample"

def ofWord (s : Text) : Option Mode := all.find? fun m ↦ m.word = s

theorem ofWord_word (m : Mode) : ofWord m.word = some m := by
  cases m <;> decide

end Mode

inductive TaskScope where
  | wholeProblem
  | partOrVariant
  | directProposition
  deriving DecidableEq

namespace TaskScope

def all : List TaskScope := [wholeProblem, partOrVariant, directProposition]

def word : TaskScope → Text
  | wholeProblem => text "whole_problem"
  | partOrVariant => text "part_or_variant"
  | directProposition => text "direct_proposition"

def ofWord (s : Text) : Option TaskScope := all.find? fun scope ↦ scope.word = s

theorem ofWord_word (scope : TaskScope) : ofWord scope.word = some scope := by
  cases scope <;> decide

end TaskScope

/-- What of a tier policy is not the same in every policy. -/
structure TierPolicy where
  excludedSourcePrefixes : List Text
  grouping : Text
  heldSourceTheoremsSha256 : Text
  minimumErdosTasks : ℤ
  multiTargetTasks : ℤ
  poolSize : ℤ
  retiredConjecturesSha256 : Text
  retiredSourceTheoremsSha256 : Text
  rewardTargetCount : ℤ
  selection : Text
  selectionAuditSha256 : Text
  sourceFamilies : List Family
  sourceTheoremCount : ℤ
  taskGroupsSha256 : Text
  taskScope : TaskScope
  taskTargetsSha256 : Text
  deriving DecidableEq

structure SourceRow where
  index : ℤ
  sourcePath : Text
  sourceTypeSha256 : Text
  theoremName : Text
  tier : Text
  deriving DecidableEq

structure TaskRow where
  mode : Mode
  problemId : Text
  rewardTargetId : Option Text
  sourceIndices : List ℤ
  sourcePath : Text
  targetTypeSha256s : List Text
  taskBundleSha256 : Text
  taskId : Text
  theorems : List Text
  tier : Text
  deriving DecidableEq

structure AllowedTask where
  taskId : Text
  problemId : Text
  rewardTargetId : Option Text
  tier : Text
  mode : Mode
  sourceTheorems : List Text
  taskBundleSha256 : Text
  targetTypeSha256s : List Text
  deriving DecidableEq

structure TaskPoolRegistry where
  repositoryCommit : Text
  tierOrder : List Text
  /-- the values of the dictionary, each under its own id -/
  tasks : List AllowedTask
  deriving DecidableEq

def TaskRow.allowed (task : TaskRow) : AllowedTask where
  taskId := task.taskId
  problemId := task.problemId
  rewardTargetId := task.rewardTargetId
  tier := task.tier
  mode := task.mode
  sourceTheorems := task.theorems
  taskBundleSha256 := task.taskBundleSha256
  targetTypeSha256s := task.targetTypeSha256s

/-! ## Values -/

def isHex (c : ℕ) : Bool := Bundle.isDigit c || (97 ≤ c && c ≤ 102)

/-- Forty hexadecimal digits. -/
def IsCommit (s : Text) : Prop := s.length = 40 ∧ ∀ c ∈ s, isHex c = true

instance : DecidablePred IsCommit := fun _ ↦ inferInstanceAs (Decidable (_ ∧ _))

/-- `TIER_ID`: `tier-[1-9][0-9]*` -/
def IsTierId (s : Text) : Prop :=
  (text "tier-").isPrefixOf s ∧ s.drop 5 ≠ [] ∧ (s.drop 5).head? ≠ some 0x30 ∧
    ∀ c ∈ s.drop 5, Bundle.isDigit c = true

instance : DecidablePred IsTierId := fun _ ↦ inferInstanceAs (Decidable (_ ∧ _))

/-- What digits are worth. -/
def worth (s : Text) : ℕ := s.foldl (fun n c ↦ 10 * n + (c - 0x30)) 0

def monthDays (year : ℕ) : ℕ → ℕ
  | 2 => if year % 4 = 0 ∧ (year % 100 ≠ 0 ∨ year % 400 = 0) then 29 else 28
  | 4 | 6 | 9 | 11 => 30
  | _ => 31

/-- `date.fromisoformat(s).isoformat() == s` -/
def IsIsoDate (s : Text) : Prop :=
  s.length = 10 ∧ s[4]? = some hyphen ∧ s[7]? = some hyphen ∧
    (∀ c ∈ s.take 4 ++ (s.drop 5).take 2 ++ s.drop 8, Bundle.isDigit c = true) ∧
    0 < worth (s.take 4) ∧ 0 < worth ((s.drop 5).take 2) ∧ worth ((s.drop 5).take 2) ≤ 12 ∧
    0 < worth (s.drop 8) ∧
    worth (s.drop 8) ≤ monthDays (worth (s.take 4)) (worth ((s.drop 5).take 2))

instance : DecidablePred IsIsoDate := fun _ ↦ inferInstanceAs (Decidable (_ ∧ _))

/-! ## Policies -/

def policyKeys : List Text :=
  [text "classification", text "compiled_target_validation", text "excluded_source_prefixes",
    text "grouping", text "held_source_theorems_sha256", text "minimum_erdos_tasks",
    text "modes", text "multi_target_tasks", text "one_reward_per_problem",
    text "one_reward_per_reward_target", text "outcomes_per_problem", text "pool_size",
    text "retired_conjectures_sha256", text "retired_source_theorems_sha256",
    text "reward_target_count", text "reward_target_policy", text "selection",
    text "selection_audit_sha256", text "source_category", text "source_families",
    text "source_theorem_count", text "target_relations", text "task_groups_sha256",
    text "task_scope", text "task_targets_sha256"]

/-- `list(PRODUCTION_TASK_MODES)` -/
def modesJson : Json := .array (Mode.all.map fun m ↦ .string m.word)

/-- What a target is to its source, by the mode. -/
def targetRelations : List (Text × Json) :=
  [(text "counterexample", .string (text "logical-negation")),
    (text "formalized", .string (text "definitionally-equal"))]

/-- `value == {…}`, of objects. -/
def IsTargetRelations (v : Json) : Prop :=
  ∃ ms ∈ v.asMembers, HasKeys ms (targetRelations.map Prod.fst) ∧
    ∀ m ∈ targetRelations, ms.lookup m.1 = some m.2

instance : DecidablePred IsTargetRelations := fun v ↦
  inferInstanceAs (Decidable (∃ ms ∈ v.asMembers, HasKeys ms _ ∧ _))

/-- `value == 2` -/
def Python.IsTwo (py : Python) : Json → Prop
  | .int n => n = 2
  | .float spelling => py.isTwo spelling = true
  | _ => False

instance (py : Python) : DecidablePred py.IsTwo := fun v ↦ by
  cases v <;> unfold Python.IsTwo <;> infer_instance

/-- The prefix is one of a directory of sources. -/
def IsDirectory (prefixText : Text) : Prop :=
  sourcePrefix.isPrefixOf prefixText ∧ prefixText.getLast? = some slash ∧
    text ".." ∉ parts prefixText

instance : DecidablePred IsDirectory := fun _ ↦ inferInstanceAs (Decidable (_ ∧ _))

/-- The values of a policy are in their ranges. -/
@[mk_iff]
structure TierPolicy.Valid (p : TierPolicy) : Prop where
  prefixes : p.excludedSourcePrefixes.Pairwise (· < ·)
  directories : ∀ prefixText ∈ p.excludedSourcePrefixes, IsDirectory prefixText
  grouping : p.grouping ≠ []
  heldSourceTheoremsSha256 : Bundle.IsSha256 p.heldSourceTheoremsSha256
  minimumErdosTasks : 0 ≤ p.minimumErdosTasks
  multiTargetTasks : 0 ≤ p.multiTargetTasks
  poolSize : 0 < p.poolSize
  rewardTargetCount : 0 < p.rewardTargetCount
  retiredConjecturesSha256 : Bundle.IsSha256 p.retiredConjecturesSha256
  retiredSourceTheoremsSha256 : Bundle.IsSha256 p.retiredSourceTheoremsSha256
  selection : p.selection ≠ []
  selectionAuditSha256 : Bundle.IsSha256 p.selectionAuditSha256
  families : p.sourceFamilies ≠ []
  sortedFamilies : (p.sourceFamilies.map Family.word).Pairwise (· < ·)
  sourceTheoremCount : 0 < p.sourceTheoremCount
  taskGroupsSha256 : Bundle.IsSha256 p.taskGroupsSha256
  taskTargetsSha256 : Bundle.IsSha256 p.taskTargetsSha256

instance : DecidablePred TierPolicy.Valid := fun p ↦ decidable_of_iff _ p.valid_iff.symm

section Reading

variable (py : Python)

/-- The policy that a value with the right fields holds. -/
def readPolicy (value : Json) : Option TierPolicy := do
  let ms ← value.asMembers
  guard (HasKeys ms policyKeys)
  guard (field ms (text "classification") = .string (text "DIRECT_PROP"))
  guard (field ms (text "compiled_target_validation") = .bool true)
  guard (field ms (text "modes") = modesJson)
  guard (field ms (text "one_reward_per_problem") = .bool true)
  guard (field ms (text "one_reward_per_reward_target") = .bool true)
  guard (py.IsTwo (field ms (text "outcomes_per_problem")))
  guard (field ms (text "reward_target_policy") = .string (text "stable-theorem-target-v1"))
  guard (field ms (text "source_category") = .string (text "research open"))
  guard (IsTargetRelations (field ms (text "target_relations")))
  let excluded ← (field ms (text "excluded_source_prefixes")).asTexts
  let grouping ← (field ms (text "grouping")).asText
  let held ← (field ms (text "held_source_theorems_sha256")).asText
  let minimumErdosTasks ← (field ms (text "minimum_erdos_tasks")).asInt
  let multiTargetTasks ← (field ms (text "multi_target_tasks")).asInt
  let poolSize ← (field ms (text "pool_size")).asInt
  let conjectures ← (field ms (text "retired_conjectures_sha256")).asText
  let retired ← (field ms (text "retired_source_theorems_sha256")).asText
  let rewardTargetCount ← (field ms (text "reward_target_count")).asInt
  let selection ← (field ms (text "selection")).asText
  let audit ← (field ms (text "selection_audit_sha256")).asText
  let families ← (field ms (text "source_families")).asTexts
  let families ← families.mapM Family.ofWord
  let sourceTheoremCount ← (field ms (text "source_theorem_count")).asInt
  let groups ← (field ms (text "task_groups_sha256")).asText
  let taskScope ← (field ms (text "task_scope")).asText
  let taskScope ← TaskScope.ofWord taskScope
  let targets ← (field ms (text "task_targets_sha256")).asText
  return ⟨excluded, grouping, held, minimumErdosTasks, multiTargetTasks, poolSize, conjectures,
    retired, rewardTargetCount, selection, audit, families, sourceTheoremCount, groups, taskScope,
    targets⟩

/-- `_valid_tier_policy` -/
def validTierPolicy (value : Json) : Option TierPolicy :=
  (readPolicy py value).filter (TierPolicy.Valid ·)

end Reading

/-! ## Sources -/

def sourceKeys : List Text :=
  [text "index", text "source_path", text "source_type_sha256", text "theorem", text "tier"]

/-- The row that an object with the right fields holds. -/
def readSource (ms : List (Text × Json)) : Option SourceRow := do
  let index ← (field ms (text "index")).asInt
  let sourcePath ← (field ms (text "source_path")).asText
  let sourceTypeSha256 ← (field ms (text "source_type_sha256")).asText
  let theoremName ← (field ms (text "theorem")).asText
  let tier ← (field ms (text "tier")).asText
  return ⟨index, sourcePath, sourceTypeSha256, theoremName, tier⟩

section Loading

variable (py : Python)

/-- The source may stand in its tier. -/
structure SourceRow.Valid (policy : TierPolicy) (source : SourceRow) : Prop where
  index : 0 ≤ source.index
  theoremName : source.theoremName ≠ []
  sourcePath : IsSourcePath source.sourcePath
  family : ∃ f ∈ sourceFamilyFromPath py source.sourcePath, f ∈ policy.sourceFamilies
  excluded : ∀ prefixText ∈ policy.excludedSourcePrefixes,
    ¬ prefixText.isPrefixOf source.sourcePath
  sourceTypeSha256 : Bundle.IsSha256 source.sourceTypeSha256

instance (policy : TierPolicy) (source : SourceRow) : Decidable (source.Valid py policy) :=
  decidable_of_iff (0 ≤ source.index ∧ source.theoremName ≠ [] ∧ IsSourcePath source.sourcePath ∧
    (∃ f ∈ sourceFamilyFromPath py source.sourcePath, f ∈ policy.sourceFamilies) ∧
    (∀ prefixText ∈ policy.excludedSourcePrefixes, ¬ prefixText.isPrefixOf source.sourcePath) ∧
    Bundle.IsSha256 source.sourceTypeSha256)
    ⟨fun ⟨h₁, h₂, h₃, h₄, h₅, h₆⟩ ↦ ⟨h₁, h₂, h₃, h₄, h₅, h₆⟩,
      fun h ↦ ⟨h.index, h.theoremName, h.sourcePath, h.family, h.excluded, h.sourceTypeSha256⟩⟩

/-- Two sources are told apart by every identity. -/
def SourceRow.Apart (source other : SourceRow) : Prop :=
  source.index ≠ other.index ∧ source.theoremName ≠ other.theoremName ∧
    source.sourceTypeSha256 ≠ other.sourceTypeSha256

instance (source other : SourceRow) : Decidable (source.Apart other) :=
  inferInstanceAs (Decidable (_ ∧ _))

/-- A source, after those before it. -/
def addSource (tiers : List (Text × TierPolicy)) (sources : List SourceRow) (row : Json) :
    Except String (List SourceRow) := do
  let ms ← need (row.asMembers.filter (HasKeys · sourceKeys))
    "task allowlist contains an invalid source entry"
  let source ← need (readSource ms) "task allowlist source identity is invalid or duplicate"
  let policy ← need (tiers.lookup source.tier)
    "task allowlist source identity is invalid or duplicate"
  require (source.Valid py policy ∧ ∀ other ∈ sources, other.Apart source)
    "task allowlist source identity is invalid or duplicate"
  require (¬ StagedResearchTarget py source.theoremName source.sourcePath)
    "task allowlist names a staged research target without activation"
  return sources ++ [source]

/-! ## Tasks -/

def taskKeys : List Text :=
  [text "completion_policy", text "mode", text "problem_id", text "reward_target_id",
    text "source_indices", text "source_path", text "target_type_sha256s",
    text "task_bundle_sha256", text "task_id", text "theorems", text "tier"]

/-- A string or null. -/
def asTextOrNull : Json → Option (Option Text)
  | .null => some none
  | .string s => some (some s)
  | _ => none

def readTask (ms : List (Text × Json)) : Option TaskRow := do
  guard (field ms (text "completion_policy") = .string (text "all_of"))
  let mode ← (field ms (text "mode")).asText
  let mode ← Mode.ofWord mode
  let problemId ← (field ms (text "problem_id")).asText
  let rewardTargetId ← asTextOrNull (field ms (text "reward_target_id"))
  let sourceIndices ← (field ms (text "source_indices")).asInts
  let sourcePath ← (field ms (text "source_path")).asText
  let targetTypeSha256s ← (field ms (text "target_type_sha256s")).asTexts
  let taskBundleSha256 ← (field ms (text "task_bundle_sha256")).asText
  let taskId ← (field ms (text "task_id")).asText
  let theorems ← (field ms (text "theorems")).asTexts
  let tier ← (field ms (text "tier")).asText
  return ⟨mode, problemId, rewardTargetId, sourceIndices, sourcePath, targetTypeSha256s,
    taskBundleSha256, taskId, theorems, tier⟩

/-- `source_by_index.get(index)` -/
def sourceByIndex (sources : List SourceRow) (index : ℤ) : Option SourceRow :=
  sources.find? (·.index = index)

/-- The reward target that the theorems of a task have. -/
def expectedRewardTargetId : List Text → Option Text
  | [theoremName] => some (rewardTargetIdentity theoremName)
  | _ => none

/-- The targets are what the mode makes of the sources. -/
def TargetsHold (mode : Mode) (targets types : List Text) : Prop :=
  match mode with
  | .formalized => targets = types
  | .counterexample => types.length = 1 ∧ targets.head? ≠ types.head?

instance (mode : Mode) (targets types : List Text) : Decidable (TargetsHold mode targets types) :=
  by cases mode <;> unfold TargetsHold <;> infer_instance

/-- The task holds of the sources that it names. -/
@[mk_iff]
structure TaskRow.Valid (commit : Text) (task : TaskRow) (named : List SourceRow) : Prop where
  taskId : Bundle.IsTaskId task.taskId
  taskBundleSha256 : Bundle.IsSha256 task.taskBundleSha256
  sources : named ≠ []
  tier : ∀ source ∈ named, source.tier = task.tier
  indices : task.sourceIndices.Nodup
  theorems : task.theorems = named.map (·.theoremName)
  problemId : Allowlist.problemId py commit task.theorems = some task.problemId
  rewardTargetId : task.rewardTargetId = expectedRewardTargetId task.theorems
  targets : task.targetTypeSha256s.length = named.length
  targetTypeSha256s : ∀ digest ∈ task.targetTypeSha256s, Bundle.IsSha256 digest
  relation : TargetsHold task.mode task.targetTypeSha256s (named.map (·.sourceTypeSha256))
  sourcePath : ∀ source ∈ named, source.sourcePath = task.sourcePath

instance (commit : Text) (task : TaskRow) (named : List SourceRow) :
    Decidable (task.Valid py commit named) := decidable_of_iff _ (task.valid_iff py commit named).symm

/-- Two tasks have identities of their own, and two of one problem have the same theorems. -/
structure TaskRow.Apart (task other : TaskRow) : Prop where
  taskBundleSha256 : task.taskBundleSha256 ≠ other.taskBundleSha256
  taskId : task.taskId ≠ other.taskId
  modes : task.mode = other.mode → ∀ index ∈ other.sourceIndices, index ∉ task.sourceIndices
  problemId : task.problemId = other.problemId → task.theorems = other.theorems

instance (task other : TaskRow) : Decidable (task.Apart other) :=
  decidable_of_iff (task.taskBundleSha256 ≠ other.taskBundleSha256 ∧ task.taskId ≠ other.taskId ∧
    (task.mode = other.mode → ∀ index ∈ other.sourceIndices, index ∉ task.sourceIndices) ∧
    (task.problemId = other.problemId → task.theorems = other.theorems))
    ⟨fun ⟨h₁, h₂, h₃, h₄⟩ ↦ ⟨h₁, h₂, h₃, h₄⟩,
      fun h ↦ ⟨h.taskBundleSha256, h.taskId, h.modes, h.problemId⟩⟩

/-- A task, after those before it. -/
def addTask (commit : Text) (tiers : List (Text × TierPolicy)) (sources : List SourceRow)
    (tasks : List TaskRow) (row : Json) : Except String (List TaskRow) := do
  let ms ← need (row.asMembers.filter (HasKeys · taskKeys))
    "task allowlist contains a non-object entry"
  let task ← need (readTask ms) "task allowlist contains an invalid or duplicate entry"
  let named ← need (task.sourceIndices.mapM (sourceByIndex sources))
    "task allowlist contains an invalid or duplicate entry"
  require (task.tier ∈ tiers.map Prod.fst ∧ task.Valid py commit named ∧
    ∀ other ∈ tasks, other.Apart task) "task allowlist contains an invalid or duplicate entry"
  return tasks ++ [task]

end Loading

/-! ## Tiers -/

/-- The sources and the tasks of a tier are as many as its policy says. -/
@[mk_iff]
structure TierPolicy.Holds (p : TierPolicy) (sources : List SourceRow) (tasks : List TaskRow) :
    Prop where
  poolSize : (tasks.length : ℤ) = p.poolSize
  sourceTheoremCount : (sources.length : ℤ) = p.sourceTheoremCount
  outcomes : tasks.length = sources.length * 2
  wholeProblems : p.taskScope = .wholeProblem → (sources.map (·.sourcePath)).Nodup
  erdos : p.minimumErdosTasks ≤
    sources.countP (Family.erdos.directory.isPrefixOf ·.sourcePath)
  multiTargets : (tasks.countP (1 < ·.targetTypeSha256s.length) : ℤ) = p.multiTargetTasks
  rewardTargets : ((tasks.map (·.rewardTargetId)).dedup.length : ℤ) = p.rewardTargetCount

instance (p : TierPolicy) (sources : List SourceRow) (tasks : List TaskRow) :
    Decidable (p.Holds sources tasks) := decidable_of_iff _ (p.holds_iff sources tasks).symm

/-- Each source has a task of each mode, and no task is of another. -/
def EachOutcome (sources : List SourceRow) (tasks : List TaskRow) : Prop :=
  let used := tasks.flatMap fun task ↦ task.sourceIndices.map (·, task.mode)
  let expected := sources.flatMap fun source ↦ Mode.all.map (source.index, ·)
  (∀ pair ∈ used, pair ∈ expected) ∧ ∀ pair ∈ expected, pair ∈ used

instance (sources : List SourceRow) (tasks : List TaskRow) :
    Decidable (EachOutcome sources tasks) := inferInstanceAs (Decidable (_ ∧ _))

/-- Each problem has a task of each mode. -/
def EachProblem (tasks : List TaskRow) : Prop :=
  ∀ task ∈ tasks, ∀ mode ∈ Mode.all, ∃ other ∈ tasks,
    other.problemId = task.problemId ∧ other.mode = mode

instance (tasks : List TaskRow) : Decidable (EachProblem tasks) :=
  inferInstanceAs (Decidable (∀ _ ∈ _, _))

/-! ## The document -/

/-- `MAX_ALLOWLIST_BYTES` -/
def maxAllowlistBytes : ℕ := 4 * 1024 * 1024

/-- `TASK_POOL_SCHEMA_VERSION` -/
def taskPoolSchemaVersion : ℤ := 9

def documentKeys : List Text :=
  [text "allowed_source_theorems", text "allowed_task_bundles", text "audit_date_utc",
    text "default", text "repository_commit", text "schema_version", text "tier_order",
    text "tier_policies"]

section Loading

variable (py : Python)

/-- A tier with its policy. -/
def readTier (policies : List (Text × Json)) (tier : Text) : Option (Text × TierPolicy) := do
  let policy ← validTierPolicy py (← policies.lookup tier)
  return (tier, policy)

/-- The tiers in their order, each with its policy. -/
def readTiers (ms : List (Text × Json)) : Option (List (Text × TierPolicy)) := do
  let tierOrder ← (field ms (text "tier_order")).asTexts
  guard (tierOrder ≠ [] ∧ (∀ tier ∈ tierOrder, IsTierId tier) ∧ tierOrder.Nodup)
  let policies ← (field ms (text "tier_policies")).asMembers
  guard (HasKeys policies tierOrder)
  tierOrder.mapM (readTier py policies)

/-- `TaskPoolRegistry.from_bytes`.  Numbers of any length are read. -/
def fromBytes (content : ByteArray) : Except String TaskPoolRegistry := do
  require (content.size ≤ maxAllowlistBytes) "task allowlist is too large"
  let value ← need ((decode? content).bind loads?) "task allowlist is not valid strict JSON"
  let ms ← need value.asMembers "task allowlist must be a JSON object"
  require (HasKeys ms documentKeys) "task allowlist field set is invalid"
  require (field ms (text "schema_version") = .int taskPoolSchemaVersion)
    "task allowlist schema version is invalid"
  require (field ms (text "default") = .string (text "DENY"))
    "task allowlist must be deny-by-default"
  let _ ← need ((field ms (text "audit_date_utc")).asText.filter (IsIsoDate ·))
    "task allowlist audit date is invalid"
  let commit ← need ((field ms (text "repository_commit")).asText.filter (IsCommit ·))
    "task allowlist identity or tier policy is invalid"
  let sources ← need (field ms (text "allowed_source_theorems")).asItems
    "task allowlist identity or tier policy is invalid"
  let rows ← need (field ms (text "allowed_task_bundles")).asItems
    "task allowlist identity or tier policy is invalid"
  let tiers ← need (readTiers py ms) "task allowlist identity or tier policy is invalid"
  let sources ← sources.foldlM (addSource py tiers) []
  let tasks ← rows.foldlM (addTask py commit tiers sources) []
  require (∀ tier ∈ tiers, tier.2.Holds (sources.filter (·.tier = tier.1))
    (tasks.filter (·.tier = tier.1))) "task tier is empty or violates its declared policy"
  require (tasks ≠ [] ∧ EachOutcome sources tasks)
    "task allowlist is empty or lacks a complete outcome pair"
  require (EachProblem tasks) "task allowlist problem lacks a complete outcome pair"
  return ⟨commit, tiers.map Prod.fst, tasks.map TaskRow.allowed⟩

end Loading

end Conjectures.Allowlist

import Conjectures.Allowlist.Merging

/-!
# Building an allowlist

`build_task_allowlist`: the document of one tier, from the audited selection and the generated
bundles.

The catalog, the selection, the audit and the manifests of the bundles are inputs (`BuildInputs`),
which the scripts have read and checked before; `Valid` is what they checked.  Files, subprocesses
and clocks are left out.  That the tasks of a build have different ids and bundles is not asked of
the values: a digest shown by two of them is of one identity, and the rest follows.
-/

namespace Conjectures.Allowlist

open Lib Lib.Json

/-! ## Inputs -/

/-- What of a declaration of the catalog is used. -/
structure Declaration where
  theoremName : Text
  sourcePath : Text
  typeHash : Text
  deriving DecidableEq

structure TaskTarget where
  theoremName : Text
  sourcePath : Text
  sourceFamily : Family
  sourceProblemNumber : ProblemNumber
  rewardTargetId : Text

inductive TargetPolicy where
  | wholeProblem
  | subproblem
  | directProposition
  deriving DecidableEq

/-- How the tasks of a tier were selected. -/
def TargetPolicy.selection : TargetPolicy → Text
  | wholeProblem => text "audited-erdos-whole-problem-v1"
  | subproblem => text "audited-part-or-variant-v2"
  | directProposition => text "audited-direct-propositions-v2"

structure TaskTargets where
  policy : TargetPolicy
  taskScope : TaskScope
  targets : List TaskTarget
  sha256 : Text

/-- What of a bundle and of its manifest is used; a source is a theorem and the hash of its
type. -/
structure TaskBundle where
  sources : List (Text × Text)
  sha256 : Text
  taskId : Text
  taskMode : Text
  sourceTheorem : Text
  sourceTypeHash : Text
  generatedTargetTypeHash : Text
  productionEligible : Bool

structure BuildInputs where
  repositoryCommit : Text
  catalog : List Declaration
  retiredSha256 : Text
  heldSha256 : Text
  retiredConjecturesSha256 : Text
  auditedTheorems : List Text
  selectionAuditSha256 : Text
  taskTargets : TaskTargets
  groupingSha256 : Text
  selected : List (List Declaration)
  bundles : List TaskBundle
  auditDateUtc : Text
  tier : Text
  /-- `MINIMUM_ERDOS_TASKS`, which a publication may set -/
  minimumErdosTasks : ℕ := 218

/-! ## The builder -/

/-- A text in a message. -/
def spell (s : Text) : String := String.ofList (s.map Char.ofNat)

/-- `catalog_indices[name]`: of two declarations of one name the later. -/
def catalogIndex (catalog : List Declaration) (name : Text) : Option ℤ :=
  (catalog.zipIdx.reverse.find? (·.1.theoremName = name)).map fun entry ↦ entry.2

/-- `reward_targets[name]` -/
def rewardTarget (targets : List TaskTarget) (name : Text) : Option Text :=
  (targets.reverse.find? (·.theoremName = name)).map (·.rewardTargetId)

/-- `len(set(reward_targets.values()))` -/
def rewardTargetCount (targets : List TaskTarget) : ℕ :=
  ((targets.map (·.theoremName)).filterMap (rewardTarget targets)).dedup.length

/-- What a bundle is found by: its theorems and its mode. -/
def TaskBundle.identity (bundle : TaskBundle) : List Text × Text :=
  (bundle.sources.map Prod.fst, bundle.taskMode)

/-- The target hashes of a task: of the sources, or of the target that was generated. -/
def targetHashes (mode : Mode) (types : List Text) (bundle : TaskBundle) : List Text :=
  match mode with
  | .formalized => types
  | .counterexample => [bundle.generatedTargetTypeHash]

/-- The bundle is of the sources and the mode. -/
def TaskBundle.Fits (bundle : TaskBundle) (mode : Mode) (primary : Declaration)
    (group : List Declaration) : Prop :=
  bundle.sourceTheorem = primary.theoremName ∧ bundle.taskMode = mode.word ∧
    bundle.productionEligible = true ∧ bundle.sourceTypeHash = primary.typeHash ∧
    bundle.sources = group.map (fun item ↦ (item.theoremName, item.typeHash)) ∧
    TargetsHold mode (targetHashes mode (group.map (·.typeHash)) bundle) (group.map (·.typeHash))

instance (bundle : TaskBundle) (mode : Mode) (primary : Declaration) (group : List Declaration) :
    Decidable (bundle.Fits mode primary group) := inferInstanceAs (Decidable (_ ∧ _))

section Building

variable (py : Python) (inputs : BuildInputs)

/-- The row of a source. -/
def sourceRow (declaration : Declaration) : Except Refusal SourceRow := do
  let index ← need (catalogIndex inputs.catalog declaration.theoremName) .raised
  return ⟨index, declaration.sourcePath, declaration.typeHash, declaration.theoremName,
    inputs.tier⟩

/-- The row of a task of a group. -/
def taskRow (group : List Declaration) (mode : Mode) : Except Refusal TaskRow := do
  let primary ← need group.head? .raised
  let indices ← group.mapM fun item ↦ need (catalogIndex inputs.catalog item.theoremName) .raised
  let bundle ← need (inputs.bundles.find?
    (·.identity = (group.map (·.theoremName), mode.word))) .raised
  require (bundle.Fits mode primary group) (.invalidManifest
    ("generated task has an invalid target relation: " ++ spell primary.theoremName ++ " (" ++
      spell mode.word ++ ")"))
  let problem ← need (problemId py inputs.repositoryCommit (group.map (·.theoremName))) .raised
  let reward ← need (rewardTarget inputs.taskTargets.targets primary.theoremName) .raised
  return ⟨mode, problem, some reward, indices, primary.sourcePath,
    targetHashes mode (group.map (·.typeHash)) bundle, bundle.sha256, bundle.taskId,
    group.map (·.theoremName), inputs.tier⟩

/-- The policy of the tier, with so many tasks. -/
def tierPolicy (taskCount : ℕ) : TierPolicy where
  excludedSourcePrefixes := []
  grouping := text "none-single-target-v1"
  heldSourceTheoremsSha256 := inputs.heldSha256
  minimumErdosTasks := inputs.minimumErdosTasks
  multiTargetTasks := inputs.selected.countP (1 < ·.length) * 2
  poolSize := taskCount
  retiredConjecturesSha256 := inputs.retiredConjecturesSha256
  retiredSourceTheoremsSha256 := inputs.retiredSha256
  rewardTargetCount := rewardTargetCount inputs.taskTargets.targets
  selection := inputs.taskTargets.policy.selection
  selectionAuditSha256 := inputs.selectionAuditSha256
  sourceFamilies := ((inputs.taskTargets.targets.map (·.sourceFamily)).dedup).insertionSort
    fun f g ↦ f.word ≤ g.word
  sourceTheoremCount := inputs.selected.flatten.length
  taskGroupsSha256 := inputs.groupingSha256
  taskScope := inputs.taskTargets.taskScope
  taskTargetsSha256 := inputs.taskTargets.sha256

/-- The groups of the tasks, each with every mode. -/
def groupModes : List (List Declaration × Mode) :=
  inputs.selected.flatMap fun group ↦ Mode.all.map (group, ·)

/-- What the bundles must be found by. -/
def expectedIdentities : List (List Text × Text) :=
  (groupModes inputs).map fun pair ↦ (pair.1.map (·.theoremName), pair.2.word)

/-- The theorems that are declared are the targets, which are audited, one to a group. -/
def IsAudited : Prop :=
  let theorems := inputs.taskTargets.targets.map (·.theoremName)
  (∀ declaration ∈ inputs.selected.flatten, declaration.theoremName ∈ theorems) ∧
    (∀ name ∈ theorems, name ∈ inputs.selected.flatten.map (·.theoremName)) ∧
    (∀ name ∈ theorems, name ∈ inputs.auditedTheorems) ∧
    ∀ group ∈ inputs.selected, group.length = 1

instance : Decidable (IsAudited inputs) := inferInstanceAs (Decidable (_ ∧ _))

/-- The value of `build_task_allowlist`. -/
def buildDocument : Except Refusal Document := do
  require (IsTierId inputs.tier)
    (.invalidArgument ("unsupported task-pool tier: " ++ spell inputs.tier))
  require (inputs.bundles.length = inputs.selected.length * Mode.all.length ∧
    inputs.selected ≠ []) (.invalidArgument
      "every task group must have one generated bundle for each production mode")
  require (IsAudited inputs)
    (.invalidArgument "generated declarations are not audited single-target tasks")
  let sources ← inputs.selected.flatten.mapM (sourceRow inputs)
  let identities := inputs.bundles.map TaskBundle.identity
  require (identities.Nodup ∧ (∀ identity ∈ identities, identity ∈ expectedIdentities inputs) ∧
    ∀ identity ∈ expectedIdentities inputs, identity ∈ identities) (.invalidManifest
      "generated task bundles do not form complete proof/counterexample pairs")
  let tasks ← (groupModes inputs).mapM fun pair ↦ taskRow py inputs pair.1 pair.2
  return ⟨inputs.auditDateUtc, inputs.repositoryCommit,
    [(inputs.tier, tierPolicy inputs tasks.length)], sources, tasks⟩

/-- `build_task_allowlist` -/
def buildTaskAllowlist : Except Refusal ByteArray := do
  let document ← buildDocument py inputs
  need document.bytes .raised

end Building

/-! ## Validated inputs -/

namespace BuildInputs

def targets (inputs : BuildInputs) : List TaskTarget := inputs.taskTargets.targets

def declarations (inputs : BuildInputs) : List Declaration := inputs.selected.flatten

/-- The inputs are as they were loaded, selected and generated: `load_task_targets`,
`select_task_declarations` and the loader of bundles refuse what is not so.  That digests of
different tasks do not collide nothing checks: the last three fields assume it. -/
structure Valid (py : Python) (inputs : BuildInputs) : Prop where
  auditDate : IsIsoDate inputs.auditDateUtc
  commit : IsCommit inputs.repositoryCommit
  retired : Bundle.IsSha256 inputs.retiredSha256
  held : Bundle.IsSha256 inputs.heldSha256
  conjectures : Bundle.IsSha256 inputs.retiredConjecturesSha256
  audit : Bundle.IsSha256 inputs.selectionAuditSha256
  grouping : Bundle.IsSha256 inputs.groupingSha256
  targetsSha256 : Bundle.IsSha256 inputs.taskTargets.sha256
  target : ∀ target ∈ inputs.targets,
    ValidSourceIdentity target.sourceFamily target.sourceProblemNumber target.sourcePath
      target.theoremName ∧ target.rewardTargetId = rewardTargetIdentity target.theoremName
  distinctTargets : (inputs.targets.map (·.theoremName)).Nodup
  wholeProblems : inputs.taskTargets.taskScope = .wholeProblem →
    (inputs.targets.map (·.sourcePath)).Nodup
  /-- a declaration that was selected is one of a target -/
  selected : ∀ declaration ∈ inputs.declarations, ∃ target ∈ inputs.targets,
    declaration.theoremName = target.theoremName ∧ declaration.sourcePath = target.sourcePath
  distinct : (inputs.declarations.map (·.theoremName)).Nodup
  types : ∀ declaration ∈ inputs.declarations, Bundle.IsSha256 declaration.typeHash
  distinctTypes : (inputs.declarations.map (·.typeHash)).Nodup
  staged : ∀ declaration ∈ inputs.declarations,
    ¬ StagedResearchTarget py declaration.theoremName declaration.sourcePath
  erdos : inputs.minimumErdosTasks ≤
    inputs.declarations.countP (Family.erdos.directory.isPrefixOf ·.sourcePath)
  bundle : ∀ bundle ∈ inputs.bundles, Bundle.IsTaskId bundle.taskId ∧
    Bundle.IsSha256 bundle.sha256 ∧ Bundle.IsSha256 bundle.generatedTargetTypeHash
  /-- a task id, which shows a digest of them, is of one list of theorems and one mode -/
  taskIds : ∀ bundle ∈ inputs.bundles, ∀ other ∈ inputs.bundles,
    bundle.taskId = other.taskId → bundle.identity = other.identity
  /-- so is the digest of a bundle, whose manifest names them -/
  bundleSha256s : ∀ bundle ∈ inputs.bundles, ∀ other ∈ inputs.bundles,
    bundle.sha256 = other.sha256 → bundle.identity = other.identity
  /-- the digests of different problems differ where their ids show them -/
  problemDigests : ∀ declaration ∈ inputs.declarations, ∀ other ∈ inputs.declarations,
    Collide py (problemSeed inputs.repositoryCommit [declaration.theoremName])
      (problemSeed inputs.repositoryCommit [other.theoremName]) →
    declaration.theoremName = other.theoremName

end BuildInputs

end Conjectures.Allowlist

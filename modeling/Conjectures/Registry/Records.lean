import Conjectures.Allowlist.Registry

/-!
# The records of the version registry

Environments, instances, publications and versions, and when each of them is valid.  A dictionary
is kept in the order of its keys, which nothing else reads.  A float of a policy is kept as it is
written, so that an infinity is a spelling which is not read again.
-/

namespace Conjectures.Registry

open Lib Lib.Json
open Allowlist (IsCommit parts rewardTargetIdentity)

/-- What of Python is not modelled further: floats and digests. -/
structure Python extends Allowlist.Python where
  sha256Bytes : ByteArray → Text
  /-- the number that the float spelled so is equal to -/
  number : List Char → Json

inductive Refusal where
  /-- `RegistryError` -/
  | registry (message : String)
  /-- the environment is not what it should be -/
  | environmentMismatch (message : String)
  /-- another refusal of the publication -/
  | verifier (message : String)
  /-- a text with half a surrogate pair has no bytes -/
  | unicodeEncodeError
  /-- an array or an object was looked up in a dictionary -/
  | typeError
  | keyError
  | indexError
  deriving DecidableEq

/-! ## Comparing values -/

section Comparing

variable (py : Python)

mutual

/-- The value with its numbers by what they are worth. -/
def Python.plain : Json → Json
  | .bool b => .int (if b then 1 else 0)
  | .float spelling => py.number spelling
  | .array vs => .array (plainItems vs)
  | .object ms => .object (plainMembers ms)
  | v => v

def Python.plainItems : List Json → List Json
  | [] => []
  | v :: vs => Python.plain v :: Python.plainItems vs

def Python.plainMembers : List (Text × Json) → List (Text × Json)
  | [] => []
  | (k, v) :: ms => (k, Python.plain v) :: Python.plainMembers ms

end

/-- `==` of two values -/
def Python.Equal (v w : Json) : Prop := py.plain v.sortKeys = py.plain w.sortKeys

instance (v w : Json) : Decidable (py.Equal v w) := inferInstanceAs (Decidable (_ = _))

theorem Python.Equal.refl (v : Json) : py.Equal v v := rfl

/-- `canonical_sha256` -/
def Python.canonicalSha256 (v : Json) : Option Text :=
  (dumps v).map fun cs ↦ py.sha256Bytes (encode (cs ++ ['\n']))

end Comparing

/-! ## Environments -/

structure EnvironmentIdentity where
  leanToolchain : Text
  leanCommit : Text
  mathlibCommit : Text
  lakePackages : List (Text × Text)
  comparatorCommit : Text
  lean4exportCommit : Text
  taskSupportSha256 : Text
  workspaceTemplateSha256 : Text
  generatorVersion : Text
  verificationPolicy : List (Text × Json)
  deriving DecidableEq

namespace EnvironmentIdentity

def keys : List Text :=
  [text "comparator_commit", text "generator_version", text "lake_packages",
    text "lean4export_commit", text "lean_commit", text "lean_toolchain", text "mathlib_commit",
    text "schema_version", text "task_support_sha256", text "verification_policy",
    text "workspace_template_sha256"]

/-- A package and the commit it is pinned to. -/
def packageJson (package : Text × Text) : Json := .array [.string package.1, .string package.2]

/-- The object of an identity, with its schema and its policy as they are spelled. -/
def membersWith (schema policy : Json) (e : EnvironmentIdentity) : List (Text × Json) :=
  [(text "comparator_commit", .string e.comparatorCommit),
    (text "generator_version", .string e.generatorVersion),
    (text "lake_packages", .array (e.lakePackages.map packageJson)),
    (text "lean4export_commit", .string e.lean4exportCommit),
    (text "lean_commit", .string e.leanCommit),
    (text "lean_toolchain", .string e.leanToolchain),
    (text "mathlib_commit", .string e.mathlibCommit),
    (text "schema_version", schema),
    (text "task_support_sha256", .string e.taskSupportSha256),
    (text "verification_policy", policy),
    (text "workspace_template_sha256", .string e.workspaceTemplateSha256)]

/-- `EnvironmentIdentity.to_dict` -/
def members (e : EnvironmentIdentity) : List (Text × Json) :=
  e.membersWith (.int 1) (.object e.verificationPolicy)

def json (e : EnvironmentIdentity) : Json := .object e.members

def sha256 (py : Python) (e : EnvironmentIdentity) : Option Text := py.canonicalSha256 e.json

/-- The packages are in order and no name comes twice. -/
def ValidPackages (packages : List (Text × Text)) : Prop :=
  (∀ p ∈ packages, p.1 ≠ [] ∧ p.2 ≠ []) ∧ (packages.map Prod.fst).Pairwise (· < ·)

instance : DecidablePred ValidPackages := fun _ ↦ inferInstanceAs (Decidable (_ ∧ _))

/-- The floats of the policy are spelled as they are written. -/
def Written (py : Python) (e : EnvironmentIdentity) : Prop :=
  (Json.object e.verificationPolicy).Floats fun spelling ↦ py.repr spelling = spelling

/-- No float of the policy is an infinity. -/
def Finite (e : EnvironmentIdentity) : Prop := (Json.object e.verificationPolicy).Floats Literal

structure Valid (py : Python) (e : EnvironmentIdentity) : Prop where
  packages : ValidPackages e.lakePackages
  comparatorCommit : IsCommit e.comparatorCommit
  lean4exportCommit : IsCommit e.lean4exportCommit
  leanCommit : IsCommit e.leanCommit
  mathlibCommit : IsCommit e.mathlibCommit
  taskSupportSha256 : Bundle.IsSha256 e.taskSupportSha256
  workspaceTemplateSha256 : Bundle.IsSha256 e.workspaceTemplateSha256
  generatorVersion : e.generatorVersion ≠ []
  leanToolchain : e.leanToolchain ≠ []
  policy : InOrder (.object e.verificationPolicy)
  written : e.Written py

/-- `==` of two identities -/
def Same (py : Python) (e e' : EnvironmentIdentity) : Prop :=
  { e with verificationPolicy := [] } = { e' with verificationPolicy := [] } ∧
    py.Equal (.object e.verificationPolicy) (.object e'.verificationPolicy)

instance (py : Python) (e e' : EnvironmentIdentity) : Decidable (e.Same py e') :=
  inferInstanceAs (Decidable (_ ∧ _))

theorem Same.refl (py : Python) (e : EnvironmentIdentity) : e.Same py e := ⟨rfl, rfl⟩

theorem Same.trans {py : Python} {e e' e'' : EnvironmentIdentity} (h : e.Same py e')
    (h' : e'.Same py e'') : e.Same py e'' := ⟨h.1.trans h'.1, Eq.trans h.2 h'.2⟩

end EnvironmentIdentity

/-! ## Instances and publications -/

/-- One verification environment: a source snapshot built under one environment identity. -/
structure Instance where
  repositoryCommit : Text
  environmentIdentitySha256 : Option Text
  deriving DecidableEq

/-- The environment of the instance, where it has one, is listed. -/
def Instance.Valid (environments : List Text) (i : Instance) : Prop :=
  IsCommit i.repositoryCommit ∧ ∀ environment ∈ i.environmentIdentitySha256,
    environment ∈ environments

structure Publication where
  sequence : ℕ
  forInstance : Instance
  allowlistSha256 : Text
  deriving DecidableEq

/-! ## Versions -/

def active : Text := text "active"

/-- `STATES` -/
def states : List Text := [active, text "retired", text "held", text "superseded"]

/-- `LEGACY_PROVENANCE` -/
def legacyProvenance : Text := text "legacy-source-commit"

/-- `V2_PROVENANCE` -/
def v2Provenance : Text := text "dependency-identity-v2"

/-- A version validated in one instance, which may verify the submissions it accepted. -/
structure Admission where
  inInstance : Instance
  problemId : Text
  buildProvenanceSha256 : Option Text
  firstPublication : ℕ
  deriving DecidableEq

structure VersionRecord where
  taskId : Text
  taskBundleSha256 : Text
  provenance : Text
  rewardTargetId : Text
  theorems : List Text
  mode : Text
  tier : Text
  location : Text
  environmentIdentitySha256 : Option Text
  dependencyIdentitySha256 : Option Text
  state : Text
  admissions : List Admission
  deriving DecidableEq

/-- The versions are the values of the dictionary, each under its own id. -/
structure VersionRegistry where
  environments : List (Text × EnvironmentIdentity)
  instances : List Instance
  publications : List Publication
  versions : List VersionRecord
  sha256 : Text
  deriving DecidableEq

def VersionRegistry.empty : VersionRegistry := ⟨[], [], [], [], []⟩

namespace VersionRecord

def admissionAt (record : VersionRecord) (i : Instance) : Option Admission :=
  record.admissions.find? (·.inInstance = i)

end VersionRecord

/-! ### Valid versions -/

/-- The mode at the end of a version-2 task id: what no hyphen follows. -/
def modeOf (taskId : Text) : Text := (taskId.reverse.takeWhile (· ≠ Allowlist.hyphen)).reverse

/-- `V2_TASK_ID.fullmatch`: a slug, a digest and a mode, with hyphens between them. -/
def IsV2TaskId (taskId : Text) : Prop :=
  let mode := modeOf taskId
  let front := taskId.take (taskId.length - mode.length - 1)
  let digest := front.drop (front.length - 24)
  let slug := (front.take (front.length - 25)).drop 6
  taskId = text "fc-v2-" ++ slug ++ Allowlist.hyphen :: digest ++ Allowlist.hyphen :: mode ∧
    slug ≠ [] ∧ slug.length ≤ 80 ∧
    (∀ c ∈ slug, Bundle.isLower c = true ∨ Bundle.isDigit c = true ∨ c = Allowlist.hyphen) ∧
    digest.length = 24 ∧ (∀ c ∈ digest, Allowlist.isHex c = true) ∧
    mode ≠ [] ∧ ∀ c ∈ mode, Bundle.isLower c = true

instance : DecidablePred IsV2TaskId := fun _ ↦ inferInstanceAs (Decidable (_ ∧ _))

/-- The path is relative and does not leave its directory. -/
def IsLocation (location : Text) : Prop :=
  text ".." ∉ parts location ∧ location.head? ≠ some Allowlist.slash

instance : DecidablePred IsLocation := fun _ ↦ inferInstanceAs (Decidable (_ ∧ _))

/-- `LEGACY_LOCATIONS` -/
def IsLegacyLocation (location : Text) : Prop :=
  (text "pool/").isPrefixOf location ∨ (text "history/legacy/").isPrefixOf location

instance : DecidablePred IsLegacyLocation := fun _ ↦ inferInstanceAs (Decidable (_ ∨ _))

/-- `V2_LOCATION` and the task's id -/
def v2Location (taskId : Text) : Text := text "versions/" ++ taskId

/-- The task id embeds the source commit of the instance. -/
def Embeds (taskId : Text) (i : Instance) : Prop :=
  (text "fc-" ++ i.repositoryCommit.take 8 ++ text "-").isPrefixOf taskId

instance (taskId : Text) (i : Instance) : Decidable (Embeds taskId i) :=
  inferInstanceAs (Decidable (_ = true))

namespace VersionRecord

/-- A version-1 task is bound to exactly one instance. -/
structure LegacyBound (record : VersionRecord) : Prop where
  taskId : ¬ IsV2TaskId record.taskId
  environment : record.environmentIdentitySha256 = none
  dependency : record.dependencyIdentitySha256 = none
  location : IsLegacyLocation record.location
  admissions : record.admissions.length = 1
  embeds : ∀ a ∈ record.admissions, Embeds record.taskId a.inInstance
  provenance : ∀ a ∈ record.admissions, a.buildProvenanceSha256 = none

/-- A version-2 task is bound to an environment. -/
structure V2Bound (environments : List Text) (record : VersionRecord) : Prop where
  taskId : IsV2TaskId record.taskId
  environment : ∃ environment ∈ environments, record.environmentIdentitySha256 = some environment
  dependency : ∃ digest, Bundle.IsSha256 digest ∧ record.dependencyIdentitySha256 = some digest
  location : record.location = v2Location record.taskId
  admissions : ∀ a ∈ record.admissions,
    a.inInstance.environmentIdentitySha256 = record.environmentIdentitySha256
  provenance : ∀ a ∈ record.admissions, ∃ digest, Bundle.IsSha256 digest ∧
    a.buildProvenanceSha256 = some digest

/-- The version is bound as its provenance says. -/
def Bound (environments : List Text) (record : VersionRecord) : Prop :=
  record.provenance = legacyProvenance ∧ record.LegacyBound ∨
    record.provenance = v2Provenance ∧ record.V2Bound environments

/-- The version asks one theorem, and each admission was made for it by a publication. -/
structure Valid (py : Python) (environments : List Text) (instances : List Instance)
    (publications : ℕ) (record : VersionRecord) : Prop where
  digest : Bundle.IsSha256 record.taskBundleSha256
  theorems : ∃ theoremName, theoremName ≠ [] ∧ record.theorems = [theoremName] ∧
    record.rewardTargetId = rewardTargetIdentity theoremName
  state : record.state ∈ states
  location : IsLocation record.location
  admissions : record.admissions ≠ []
  admitted : ∀ a ∈ record.admissions, a.inInstance ∈ instances ∧
    1 ≤ a.firstPublication ∧ a.firstPublication ≤ publications
  problemIds : ∀ a ∈ record.admissions,
    Allowlist.problemId py.toPython a.inInstance.repositoryCommit record.theorems =
      some a.problemId
  distinct : (record.admissions.map (·.inInstance)).Nodup
  inOrder : (record.admissions.map (·.firstPublication)).Pairwise (· ≤ ·)
  bound : record.Bound environments

end VersionRecord

/-! ### Valid registries -/

/-- Active versions are validated in the current instance, one for each target and mode. -/
structure Current (versions : List VersionRecord) (current : Instance) : Prop where
  admitted : ∀ record ∈ versions, record.state = active → (record.admissionAt current).isSome
  apart : ((versions.filter (·.state = active)).map fun record ↦
    (record.rewardTargetId, record.mode)).Nodup

namespace VersionRegistry

structure Valid (py : Python) (r : VersionRegistry) : Prop where
  environments : ∀ e ∈ r.environments, e.2.Valid py ∧ e.2.sha256 py = some e.1
  sortedEnvironments : (r.environments.map Prod.fst).Pairwise (· < ·)
  instances : ∀ i ∈ r.instances, i.Valid (r.environments.map Prod.fst)
  distinctInstances : r.instances.Nodup
  published : ∃ current, r.publications.getLast? = some current ∧
    Current r.versions current.forInstance
  sequence : r.publications.map (·.sequence) = List.range' 1 r.publications.length
  allowlists : ∀ p ∈ r.publications, Bundle.IsSha256 p.allowlistSha256
  listed : ∀ p ∈ r.publications, p.forInstance ∈ r.instances
  introduced : ∀ i ∈ r.instances, ∃ p ∈ r.publications, p.forInstance = i
  versions : ∀ record ∈ r.versions,
    record.Valid py (r.environments.map Prod.fst) r.instances r.publications.length
  sortedVersions : (r.versions.map (·.taskId)).Pairwise (· < ·)
  bundles : (r.versions.map (·.taskBundleSha256)).Nodup

end VersionRegistry

end Conjectures.Registry

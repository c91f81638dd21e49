import Conjectures.Lib.JsonBytes
import Conjectures.Registry.Records

/-!
# Reading the version registry

`VersionRegistry.from_bytes`: strict JSON, read row after row, each row held against those before
it.

A row is refused as the source refuses it, with its message; the ids that a message quotes are left
out.  So are two limits of Python: a number of more digits than `int` converts is read here, and so
is a document nested deeper than the decoder follows.  A float of a policy is kept as `json.dumps`
spells it, since nothing computes with it: a number too large to be finite is read as `Infinity`.
-/

namespace Conjectures.Registry

open Lib Lib.Json
open Allowlist (IsCommit rewardTargetIdentity)

/-! ## Environments -/

namespace EnvironmentIdentity

/-- Two strings. -/
def readPackage : Json → Option (Text × Text)
  | .array [.string name, .string commit] => some (name, commit)
  | _ => none

def readPackages (value : Json) : Option (List (Text × Text)) :=
  (value.asItems.bind (·.mapM readPackage)).filter (ValidPackages ·)

def readCommit (ms : List (Text × Json)) (key : String) : Except Refusal Text :=
  need ((field ms (text key)).asText.filter (IsCommit ·))
    (.environmentMismatch ("environment identity " ++ key ++ " is not a commit"))

def readDigest (ms : List (Text × Json)) (key : String) : Except Refusal Text :=
  need ((field ms (text key)).asText.filter (Bundle.IsSha256 ·))
    (.environmentMismatch ("environment identity " ++ key ++ " is not a digest"))

/-- `EnvironmentIdentity.from_dict` -/
def fromDict (py : Python) (value : Json) : Except Refusal EnvironmentIdentity := do
  let ms ← need (value.asMembers.filter (HasKeys · keys))
    (.environmentMismatch "environment identity field set is invalid")
  require (py.Equal (field ms (text "schema_version")) (.int 1))
    (.environmentMismatch "environment identity schema is unsupported")
  let lakePackages ← need (readPackages (field ms (text "lake_packages")))
    (.environmentMismatch "environment identity Lake packages are invalid")
  let comparatorCommit ← readCommit ms "comparator_commit"
  let lean4exportCommit ← readCommit ms "lean4export_commit"
  let leanCommit ← readCommit ms "lean_commit"
  let mathlibCommit ← readCommit ms "mathlib_commit"
  let taskSupportSha256 ← readDigest ms "task_support_sha256"
  let workspaceTemplateSha256 ← readDigest ms "workspace_template_sha256"
  let refusal := Refusal.environmentMismatch "environment identity policy or versions are invalid"
  let verificationPolicy ← need (field ms (text "verification_policy")).sortKeys.asMembers refusal
  let generatorVersion ← need ((field ms (text "generator_version")).asText.filter (· ≠ [])) refusal
  let leanToolchain ← need ((field ms (text "lean_toolchain")).asText.filter (· ≠ [])) refusal
  return ⟨leanToolchain, leanCommit, mathlibCommit, lakePackages, comparatorCommit,
    lean4exportCommit, taskSupportSha256, workspaceTemplateSha256, generatorVersion,
    verificationPolicy⟩

end EnvironmentIdentity

def environmentRowKeys : List Text := [text "environment_identity_sha256", text "identity"]

/-- An environment, after those before it. -/
def addEnvironment (py : Python) (environments : List (Text × EnvironmentIdentity)) (row : Json) :
    Except Refusal (List (Text × EnvironmentIdentity)) := do
  let ms ← need (row.asMembers.filter (HasKeys · environmentRowKeys))
    (.registry "environment row is invalid")
  let identity ← EnvironmentIdentity.fromDict py (field ms (text "identity"))
  let digest ← need (identity.sha256 py) .unicodeEncodeError
  require (field ms (text "environment_identity_sha256") = .string digest ∧
    digest ∉ environments.map Prod.fst)
    (.registry "environment identity digest is wrong or duplicated")
  return environments ++ [(digest, identity)]

/-! ## Instances -/

def instanceKeys : List Text := [text "environment_identity_sha256", text "repository_commit"]

/-- A key of the dictionary of environments. -/
def readKnown (environments : List Text) (refusal : Refusal) : Json → Except Refusal Text
  | .string s => do
    require (s ∈ environments) refusal
    return s
  | .array _ | .object _ => throw .typeError
  | _ => throw refusal

def readEnvironment (environments : List Text) (refusal : Refusal) :
    Json → Except Refusal (Option Text)
  | .null => return none
  | value => do return some (← readKnown environments refusal value)

/-- `_instance`, of the two fields of a row. -/
def readInstance (environments : List Text) (ms : List (Text × Json)) :
    Except Refusal Instance := do
  let refusal := Refusal.registry "instance is invalid"
  let commit ← need ((field ms (text "repository_commit")).asText.filter (IsCommit ·)) refusal
  let environment ←
    readEnvironment environments refusal (field ms (text "environment_identity_sha256"))
  return ⟨commit, environment⟩

def readInstanceRow (environments : List Text) (row : Json) : Except Refusal Instance := do
  let ms ← need (row.asMembers.filter (HasKeys · instanceKeys)) (.registry "instance is invalid")
  readInstance environments ms

/-! ## Publications -/

def publicationKeys : List Text :=
  [text "allowlist_sha256", text "environment_identity_sha256", text "repository_commit",
    text "sequence"]

/-- A publication, after those before it. -/
def addPublication (py : Python) (environments : List Text) (instances : List Instance)
    (publications : List Publication) (row : Json) : Except Refusal (List Publication) := do
  let refusal := Refusal.registry "publication row is invalid or out of sequence"
  let position := publications.length + 1
  let ms ← need (row.asMembers.filter (HasKeys · publicationKeys)) refusal
  require (py.Equal (field ms (text "sequence")) (.int position)) refusal
  let digest ← need ((field ms (text "allowlist_sha256")).asText.filter (Bundle.IsSha256 ·)) refusal
  let forInstance ← readInstance environments ms
  require (forInstance ∈ instances) (.registry "a publication names an unlisted instance")
  return publications ++ [⟨position, forInstance, digest⟩]

/-! ## Versions -/

def versionKeys : List Text :=
  [text "admissions", text "dependency_identity_sha256", text "environment_identity_sha256",
    text "location", text "mode", text "provenance", text "reward_target_id", text "state",
    text "task_bundle_sha256", text "task_id", text "theorems", text "tier"]

def admissionKeys : List Text :=
  [text "build_provenance_sha256", text "environment_identity_sha256", text "first_publication",
    text "problem_id", text "repository_commit"]

/-- An admission whose build provenance was not looked at. -/
structure AdmissionRow where
  inInstance : Instance
  problemId : Text
  buildProvenance : Json
  firstPublication : ℕ

/-- One theorem, by its name. -/
def asTheorem : Json → Option Text
  | .array [.string theoremName] => if theoremName ≠ [] then some theoremName else none
  | _ => none

/-- `value in STATES` -/
def readState (refusal : Refusal) : Json → Except Refusal Text
  | .string s => do
    require (s ∈ states) refusal
    return s
  | .array _ | .object _ => throw .typeError
  | _ => throw refusal

def readAdmission (py : Python) (environments : List Text) (instances : List Instance)
    (publications : ℕ) (theoremName : Text) (item : Json) : Except Refusal AdmissionRow := do
  let refusal := Refusal.registry "admission is invalid"
  let ms ← need (item.asMembers.filter (HasKeys · admissionKeys)) refusal
  let inInstance ← readInstance environments ms
  require (inInstance ∈ instances) refusal
  let firstPublication ← need ((field ms (text "first_publication")).asInt.filter fun n : ℤ ↦
    1 ≤ n ∧ n ≤ publications) refusal
  let problemId ← need
    (Allowlist.problemId py.toPython inInstance.repositoryCommit [theoremName]) .unicodeEncodeError
  require (field ms (text "problem_id") = .string problemId) refusal
  return ⟨inInstance, problemId, field ms (text "build_provenance_sha256"), firstPublication.toNat⟩

/-- What a row says before its provenance is looked at. -/
structure VersionRow where
  taskId : Text
  taskBundleSha256 : Text
  theoremName : Text
  state : Text
  mode : Text
  tier : Text
  location : Text
  admissions : List AdmissionRow

def readVersionRow (py : Python) (environments : List Text) (instances : List Instance)
    (publications : ℕ) (ms : List (Text × Json)) : Except Refusal VersionRow := do
  let refusal := Refusal.registry "version row is invalid"
  let taskId ← need (field ms (text "task_id")).asText refusal
  let digest ← need ((field ms (text "task_bundle_sha256")).asText.filter (Bundle.IsSha256 ·))
    refusal
  let theoremName ← need (asTheorem (field ms (text "theorems"))) refusal
  require (field ms (text "reward_target_id") = .string (rewardTargetIdentity theoremName)) refusal
  let state ← readState refusal (field ms (text "state"))
  let mode ← need (field ms (text "mode")).asText refusal
  let tier ← need (field ms (text "tier")).asText refusal
  let location ← need ((field ms (text "location")).asText.filter (IsLocation ·)) refusal
  let items ← need ((field ms (text "admissions")).asItems.filter (· ≠ [])) refusal
  let admissions ← items.mapM (readAdmission py environments instances publications theoremName)
  require (admissions.map (·.inInstance)).Nodup
    (.registry "version is admitted twice in one instance")
  require ((admissions.map (·.firstPublication)).Pairwise (· ≤ ·))
    (.registry "admissions are not in publication order")
  return ⟨taskId, digest, theoremName, state, mode, tier, location, admissions⟩

namespace VersionRow

/-- The record of a row, with what its provenance adds. -/
def record (row : VersionRow) (provenance : Text) (environment dependency : Option Text)
    (admissions : List Admission) : VersionRecord where
  taskId := row.taskId
  taskBundleSha256 := row.taskBundleSha256
  provenance := provenance
  rewardTargetId := rewardTargetIdentity row.theoremName
  theorems := [row.theoremName]
  mode := row.mode
  tier := row.tier
  location := row.location
  environmentIdentitySha256 := environment
  dependencyIdentitySha256 := dependency
  state := row.state
  admissions := admissions

/-- A legacy task id is valid in exactly the one instance that published it. -/
def legacy (row : VersionRow) (ms : List (Text × Json)) : Except Refusal VersionRecord := do
  require (¬ IsV2TaskId row.taskId ∧ field ms (text "environment_identity_sha256") = .null ∧
    field ms (text "dependency_identity_sha256") = .null ∧ IsLegacyLocation row.location ∧
    row.admissions.length = 1 ∧ (∀ a ∈ row.admissions, Embeds row.taskId a.inInstance) ∧
    ∀ a ∈ row.admissions, a.buildProvenance = .null)
    (.registry "legacy version is not bound to exactly one instance")
  return row.record legacyProvenance none none
    (row.admissions.map fun a ↦ ⟨a.inInstance, a.problemId, none, a.firstPublication⟩)

def admission (refusal : Refusal) (a : AdmissionRow) : Except Refusal Admission := do
  let digest ← need (a.buildProvenance.asText.filter (Bundle.IsSha256 ·)) refusal
  return ⟨a.inInstance, a.problemId, some digest, a.firstPublication⟩

def v2 (row : VersionRow) (environments : List Text) (ms : List (Text × Json)) :
    Except Refusal VersionRecord := do
  let refusal := Refusal.registry "v2 version identity is invalid"
  require (IsV2TaskId row.taskId) refusal
  let environment ←
    readKnown environments refusal (field ms (text "environment_identity_sha256"))
  let dependency ← need ((field ms (text "dependency_identity_sha256")).asText.filter
    (Bundle.IsSha256 ·)) refusal
  require (row.location = v2Location row.taskId ∧ ∀ a ∈ row.admissions,
    a.inInstance.environmentIdentitySha256 = some environment) refusal
  let admissions ← row.admissions.mapM (admission refusal)
  return row.record v2Provenance (some environment) (some dependency) admissions

/-- The record of a row, as its provenance has it. -/
def ofProvenance (row : VersionRow) (environments : List Text) (ms : List (Text × Json)) :
    Except Refusal VersionRecord :=
  let provenance := field ms (text "provenance")
  if provenance = .string legacyProvenance then row.legacy ms
  else if provenance = .string v2Provenance then row.v2 environments ms
  else throw (.registry "unknown provenance")

end VersionRow

/-- `_version` -/
def readVersion (py : Python) (environments : List Text) (instances : List Instance)
    (publications : ℕ) (row : Json) : Except Refusal VersionRecord := do
  let ms ← need (row.asMembers.filter (HasKeys · versionKeys))
    (.registry "version row field set is invalid")
  let row ← readVersionRow py environments instances publications ms
  row.ofProvenance environments ms

/-- A version, after those before it. -/
def addVersion (py : Python) (environments : List Text) (instances : List Instance)
    (publications : ℕ) (versions : List VersionRecord) (row : Json) :
    Except Refusal (List VersionRecord) := do
  let record ← readVersion py environments instances publications row
  require (record.taskId ∉ versions.map (·.taskId) ∧
    record.taskBundleSha256 ∉ versions.map (·.taskBundleSha256))
    (.registry "version or digest is listed twice")
  return versions ++ [record]

/-- An active version, after those before it, which are of other targets or modes. -/
def openVersion (current : Instance) (openNow : List VersionRecord) (record : VersionRecord) :
    Except Refusal (List VersionRecord) := do
  require (record.admissionAt current).isSome
    (.registry "active version is not admitted in the current instance")
  require ((record.rewardTargetId, record.mode) ∉ openNow.map fun other ↦
    (other.rewardTargetId, other.mode)) (.registry "two versions are active")
  return openNow ++ [record]

/-- `_check_current` -/
def checkCurrent (versions : List VersionRecord) (current : Instance) : Except Refusal Unit := do
  let _ ← versions.foldlM (fun openNow record ↦
    if record.state = active then openVersion current openNow record else return openNow) []

/-! ## The registry -/

def registryKeys : List Text :=
  [text "default", text "environments", text "instances", text "publications",
    text "schema_version", text "versions"]

/-- `strict_json`.  A float is read as the one it is written as, and one that is too large as an
infinity; integers of any length are read. -/
def Python.strictJson (py : Python) (content : ByteArray) : Option Json :=
  ((decode? content).bind loads?).map (respell py.repr)

/-- `VersionRegistry.from_bytes` -/
def VersionRegistry.fromBytes (py : Python) (content : ByteArray) :
    Except Refusal VersionRegistry := do
  let value ← need (py.strictJson content) (.registry "is not strict JSON")
  let ms ← need (value.asMembers.filter (HasKeys · registryKeys))
    (.registry "field set is invalid")
  require (py.Equal (field ms (text "schema_version")) (.int 1) ∧
    field ms (text "default") = .string (text "DENY"))
    (.registry "schema or default policy is invalid")
  let lists := Refusal.registry "environments, instances, publications and versions must be lists"
  let environments ← need (field ms (text "environments")).asItems lists
  let instances ← need (field ms (text "instances")).asItems lists
  let publications ← need (field ms (text "publications")).asItems lists
  let versions ← need (field ms (text "versions")).asItems lists
  let environments ← environments.foldlM (addEnvironment py) []
  let known := environments.map Prod.fst
  require (known.Pairwise (· ≤ ·)) (.registry "environments must be sorted")
  let instances ← instances.mapM (readInstanceRow known)
  require instances.Nodup (.registry "an instance is listed twice")
  let publications ← publications.foldlM (addPublication py known instances) []
  let current ← need publications.getLast? (.registry "a registry has at least one publication")
  require (∀ i ∈ instances, i ∈ publications.map (·.forInstance))
    (.registry "every instance must be introduced by a publication")
  let versions ← versions.foldlM (addVersion py known instances publications.length) []
  require ((versions.map (·.taskId)).Pairwise (· ≤ ·))
    (.registry "versions must be sorted by task ID")
  checkCurrent versions current.forInstance
  return ⟨environments, instances, publications, versions, py.sha256Bytes content⟩

end Conjectures.Registry

import Conjectures.Allowlist.Documents
import Conjectures.Registry.Reading

/-!
# Writing the version registry

`VersionRegistry.to_bytes`, and that everything it writes stands in the order of its keys.

A float is written as it is spelled, so that `toBytes` has a result unless a text holds half a
surrogate pair.  Python writes an infinity too, although that is no JSON: `Readable` asks that no
policy holds one, and what is written of such a registry is read as strict JSON
(`strictJson_toBytes`).
-/

namespace Conjectures.Registry

open Lib Lib.Json
open Allowlist (textOrNull inOrder_textOrNull inOrder_texts floats_textOrNull)

/-! ## Rows -/

/-- A row of the environments. -/
def environmentMembers (digest : Text) (identity : Json) : List (Text × Json) :=
  [(text "environment_identity_sha256", .string digest), (text "identity", identity)]

def environmentJson (environment : Text × EnvironmentIdentity) : Json :=
  .object (environmentMembers environment.1 environment.2.json)

/-- `Instance.to_dict` -/
def Instance.members (i : Instance) : List (Text × Json) :=
  [(text "environment_identity_sha256", textOrNull i.environmentIdentitySha256),
    (text "repository_commit", .string i.repositoryCommit)]

def Instance.json (i : Instance) : Json := .object i.members

namespace Publication

/-- The object of a publication, with its place as it is spelled. -/
def membersWith (sequence : Json) (p : Publication) : List (Text × Json) :=
  [(text "allowlist_sha256", .string p.allowlistSha256),
    (text "environment_identity_sha256", textOrNull p.forInstance.environmentIdentitySha256),
    (text "repository_commit", .string p.forInstance.repositoryCommit),
    (text "sequence", sequence)]

/-- `Publication.to_dict` -/
def members (p : Publication) : List (Text × Json) := p.membersWith (.int p.sequence)

def json (p : Publication) : Json := .object p.members

end Publication

/-- `Admission.to_dict` -/
def Admission.members (a : Admission) : List (Text × Json) :=
  [(text "build_provenance_sha256", textOrNull a.buildProvenanceSha256),
    (text "environment_identity_sha256", textOrNull a.inInstance.environmentIdentitySha256),
    (text "first_publication", .int a.firstPublication),
    (text "problem_id", .string a.problemId),
    (text "repository_commit", .string a.inInstance.repositoryCommit)]

def Admission.json (a : Admission) : Json := .object a.members

namespace VersionRecord

/-- The object of a version, with its admissions as they are spelled. -/
def membersWith (admissions : List Json) (record : VersionRecord) : List (Text × Json) :=
  [(text "admissions", .array admissions),
    (text "dependency_identity_sha256", textOrNull record.dependencyIdentitySha256),
    (text "environment_identity_sha256", textOrNull record.environmentIdentitySha256),
    (text "location", .string record.location),
    (text "mode", .string record.mode),
    (text "provenance", .string record.provenance),
    (text "reward_target_id", .string record.rewardTargetId),
    (text "state", .string record.state),
    (text "task_bundle_sha256", .string record.taskBundleSha256),
    (text "task_id", .string record.taskId),
    (text "theorems", .array (record.theorems.map .string)),
    (text "tier", .string record.tier)]

/-- `VersionRecord.to_dict` -/
def members (record : VersionRecord) : List (Text × Json) :=
  record.membersWith (record.admissions.map Admission.json)

def json (record : VersionRecord) : Json := .object record.members

end VersionRecord

/-! ## The registry -/

/-- The object of a registry, with its rows as they are spelled. -/
def registryMembers (schema : Json) (environments instances publications versions : List Json) :
    List (Text × Json) :=
  [(text "default", .string (text "DENY")),
    (text "environments", .array environments),
    (text "instances", .array instances),
    (text "publications", .array publications),
    (text "schema_version", schema),
    (text "versions", .array versions)]

namespace VersionRegistry

/-- The registry with its dictionaries in the order of their keys. -/
def sorted (r : VersionRegistry) : VersionRegistry :=
  { r with
    environments := r.environments.insertionSort fun e e' ↦ e.1 ≤ e'.1
    versions := r.versions.insertionSort fun record record' ↦ record.taskId ≤ record'.taskId }

/-- The object of the registry, its dictionaries as they stand. -/
def json (r : VersionRegistry) : Json :=
  .object (registryMembers (.int 1) (r.environments.map environmentJson)
    (r.instances.map Instance.json) (r.publications.map Publication.json)
    (r.versions.map VersionRecord.json))

/-- `VersionRegistry.to_bytes` -/
def toBytes (r : VersionRegistry) : Option ByteArray := (pretty r.sorted.json).map encode

end VersionRegistry

/-! ## What is written is in order -/

/-- What is written of the policy is read as it stands. -/
structure EnvironmentIdentity.Readable (py : Python) (e : EnvironmentIdentity) : Prop where
  inOrder : InOrder (.object e.verificationPolicy)
  written : e.Written py
  finite : e.Finite

theorem EnvironmentIdentity.Valid.readable {py : Python} {e : EnvironmentIdentity}
    (h : e.Valid py) (hfinite : e.Finite) : e.Readable py := ⟨h.policy, h.written, hfinite⟩

theorem keys_ordered {ks : List Text} (h : ks ∈ [EnvironmentIdentity.keys, environmentRowKeys,
    instanceKeys, publicationKeys, admissionKeys, versionKeys, registryKeys]) :
    ks.Pairwise (· ≤ ·) ∧ ks.Nodup := by
  revert ks
  decide +kernel

theorem EnvironmentIdentity.keys_ordered :
    EnvironmentIdentity.keys.Pairwise (· ≤ ·) ∧ EnvironmentIdentity.keys.Nodup :=
  Registry.keys_ordered (by simp)

theorem environmentRowKeys_ordered :
    environmentRowKeys.Pairwise (· ≤ ·) ∧ environmentRowKeys.Nodup := keys_ordered (by simp)

theorem instanceKeys_ordered : instanceKeys.Pairwise (· ≤ ·) ∧ instanceKeys.Nodup :=
  keys_ordered (by simp)

theorem publicationKeys_ordered : publicationKeys.Pairwise (· ≤ ·) ∧ publicationKeys.Nodup :=
  keys_ordered (by simp)

theorem admissionKeys_ordered : admissionKeys.Pairwise (· ≤ ·) ∧ admissionKeys.Nodup :=
  keys_ordered (by simp)

theorem versionKeys_ordered : versionKeys.Pairwise (· ≤ ·) ∧ versionKeys.Nodup :=
  keys_ordered (by simp)

theorem registryKeys_ordered : registryKeys.Pairwise (· ≤ ·) ∧ registryKeys.Nodup :=
  keys_ordered (by simp)

theorem inOrder_packageJson (package : Text × Text) :
    InOrder (EnvironmentIdentity.packageJson package) :=
  inOrder_array (by simp [inOrder_string])

theorem EnvironmentIdentity.inOrder {e : EnvironmentIdentity}
    (he : InOrder (.object e.verificationPolicy)) : InOrder e.json := by
  refine inOrder_object EnvironmentIdentity.keys rfl EnvironmentIdentity.keys_ordered ?_
  have hpackages := inOrder_map inOrder_packageJson e.lakePackages
  simp only [members, membersWith, List.forall_mem_cons, List.not_mem_nil, false_implies,
    implies_true, and_true]
  simp only [inOrder_string, inOrder_int, hpackages, he, and_true]

theorem inOrder_environmentJson {environment : Text × EnvironmentIdentity}
    (h : InOrder (.object environment.2.verificationPolicy)) :
    InOrder (environmentJson environment) := by
  refine inOrder_object environmentRowKeys rfl environmentRowKeys_ordered ?_
  simp [environmentMembers, inOrder_string, EnvironmentIdentity.inOrder h]

theorem floats_environmentJson {p : List Char → Prop} {environment : Text × EnvironmentIdentity}
    (h : (Json.object environment.2.verificationPolicy).Floats p) :
    (environmentJson environment).Floats p := by
  have hpackage (package : Text × Text) :
      (EnvironmentIdentity.packageJson package).Floats p := by
    simp [EnvironmentIdentity.packageJson]
  rw [floats_object] at h
  simp only [environmentJson, environmentMembers, EnvironmentIdentity.json,
    EnvironmentIdentity.members, EnvironmentIdentity.membersWith, floats_object, floats_array,
    floats_string, floats_int, List.forall_mem_cons, List.forall_mem_map, List.not_mem_nil,
    false_implies, implies_true, true_and, and_true]
  exact ⟨fun package _ ↦ hpackage package, h⟩

theorem Instance.inOrder (i : Instance) : InOrder i.json := by
  refine inOrder_object instanceKeys rfl instanceKeys_ordered ?_
  simp [members, inOrder_string, inOrder_textOrNull]

theorem Instance.floats {p : List Char → Prop} (i : Instance) : i.json.Floats p := by
  simp [json, members, floats_textOrNull]

theorem Publication.inOrder (p : Publication) : InOrder p.json := by
  refine inOrder_object publicationKeys rfl publicationKeys_ordered ?_
  simp [members, membersWith, inOrder_string, inOrder_int, inOrder_textOrNull]

theorem Publication.floats {q : List Char → Prop} (p : Publication) : p.json.Floats q := by
  simp [json, members, membersWith, floats_textOrNull]

theorem Admission.inOrder (a : Admission) : InOrder a.json := by
  refine inOrder_object admissionKeys rfl admissionKeys_ordered ?_
  simp [members, inOrder_string, inOrder_int, inOrder_textOrNull]

theorem Admission.floats {p : List Char → Prop} (a : Admission) : a.json.Floats p := by
  simp [json, members, floats_textOrNull]

theorem VersionRecord.inOrder (record : VersionRecord) : InOrder record.json := by
  refine inOrder_object versionKeys rfl versionKeys_ordered ?_
  have hadmissions := inOrder_map Admission.inOrder record.admissions
  simp only [members, membersWith, List.forall_mem_cons, List.not_mem_nil, false_implies,
    implies_true, and_true]
  simp only [inOrder_string, inOrder_textOrNull, inOrder_texts, hadmissions, and_true]

theorem VersionRecord.floats {p : List Char → Prop} (record : VersionRecord) :
    record.json.Floats p := by
  simp [json, members, membersWith, floats_textOrNull, Admission.floats]

namespace VersionRegistry

/-- What is written of the policies is read as they stand. -/
def Readable (py : Python) (r : VersionRegistry) : Prop :=
  ∀ e ∈ r.environments, e.2.Readable py

/-- No float of a policy is an infinity. -/
def Finite (r : VersionRegistry) : Prop := ∀ e ∈ r.environments, e.2.Finite

variable {py : Python} {r : VersionRegistry}

theorem inOrder (h : r.Readable py) : InOrder r.json := by
  refine inOrder_object registryKeys rfl registryKeys_ordered ?_
  have henvironments : InOrder (.array (r.environments.map environmentJson)) :=
    inOrder_array fun v hv ↦ by
      obtain ⟨e, he, rfl⟩ := List.mem_map.mp hv
      exact inOrder_environmentJson (h e he).inOrder
  have hinstances := inOrder_map Instance.inOrder r.instances
  have hpublications := inOrder_map Publication.inOrder r.publications
  have hversions := inOrder_map VersionRecord.inOrder r.versions
  simp only [registryMembers, List.forall_mem_cons, List.not_mem_nil, false_implies,
    implies_true, and_true]
  simp only [inOrder_string, inOrder_int, henvironments, hinstances, hpublications, hversions,
    and_true]

/-- The floats of a registry are those of its policies. -/
theorem floats_json {p : List Char → Prop}
    (h : ∀ e ∈ r.environments, (Json.object e.2.verificationPolicy).Floats p) :
    r.json.Floats p := by
  simp only [json, registryMembers, floats_object, floats_array, floats_string, floats_int,
    List.forall_mem_cons, List.forall_mem_map, List.not_mem_nil, false_implies, implies_true,
    true_and, and_true]
  exact ⟨fun e he ↦ floats_environmentJson (h e he), fun i _ ↦ i.floats, fun p _ ↦ p.floats,
    fun record _ ↦ record.floats⟩

theorem sorted_environments_perm (r : VersionRegistry) :
    r.sorted.environments.Perm r.environments := List.perm_insertionSort _ _

theorem sorted_versions_perm (r : VersionRegistry) : r.sorted.versions.Perm r.versions :=
  List.perm_insertionSort _ _

theorem Readable.sorted (h : r.Readable py) : r.sorted.Readable py :=
  fun e he ↦ h e (r.sorted_environments_perm.mem_iff.mp he)

/-- A registry whose dictionaries stand in order is written as it stands. -/
theorem sorted_eq_self (henvironments : (r.environments.map Prod.fst).Pairwise (· < ·))
    (hversions : (r.versions.map (·.taskId)).Pairwise (· < ·)) : r.sorted = r := by
  have henvironments' : r.environments.Pairwise fun e e' ↦ e.1 ≤ e'.1 :=
    (List.pairwise_map.mp henvironments).imp le_of_lt
  have hversions' : r.versions.Pairwise fun record record' ↦ record.taskId ≤ record'.taskId :=
    (List.pairwise_map.mp hversions).imp le_of_lt
  rw [sorted, henvironments'.insertionSort_eq, hversions'.insertionSort_eq]

/-- The bytes of a registry are read as its object. -/
theorem strictJson_toBytes {b : ByteArray} (h : r.Readable py) (hb : r.toBytes = some b) :
    py.strictJson b = some r.sorted.json := by
  obtain ⟨cs, hcs, rfl⟩ := Option.map_eq_some_iff.mp hb
  have hsorted := inOrder h.sorted
  have hfinite : r.sorted.json.Floats Literal :=
    floats_json fun e he ↦ (h.sorted e he).finite
  have hwritten : r.sorted.json.Floats fun spelling ↦ py.repr spelling = spelling :=
    floats_json fun e he ↦ (h.sorted e he).written
  rw [Python.strictJson, decode?_eq_some.mpr rfl, Option.bind_some,
    loads?_pretty hcs hsorted.keyed hfinite, hsorted.sorted, Option.map_some,
    respell_eq_self hwritten]

end VersionRegistry

end Conjectures.Registry

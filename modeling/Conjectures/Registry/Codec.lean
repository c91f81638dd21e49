import Conjectures.Allowlist.Runs
import Conjectures.Registry.VersionRows

/-!
# The version registry in bytes

The bytes that `from_bytes` accepts are those that spell a valid registry, and what `to_bytes`
writes of a valid registry is read back as that registry.

One case has to be left out: a policy with a number too large to be finite, such as `1e400`, is
accepted as an infinity, and is written as `Infinity`, which is not accepted.
-/

namespace Conjectures.Registry

open Lib Lib.Json

variable {py : Python} {known : List Text} {instances : List Instance} {publications : ℕ}
  {value : Json}

/-! ## Versions, one after another -/

/-- Two versions have ids and bundles of their own. -/
def VersionRecord.Apart (record record' : VersionRecord) : Prop :=
  record.taskId ≠ record'.taskId ∧ record.taskBundleSha256 ≠ record'.taskBundleSha256

theorem versions_apart {versions : List VersionRecord} :
    versions.Pairwise VersionRecord.Apart ↔
      (versions.map (·.taskId)).Nodup ∧ (versions.map (·.taskBundleSha256)).Nodup := by
  simp only [List.Nodup, List.pairwise_map, ← List.pairwise_and_iff]
  rfl

theorem addVersion_eq_ok (hinstances : ∀ i ∈ instances, i.Valid known)
    {versions versions' : List VersionRecord} :
    addVersion py known instances publications versions value = .ok versions' ↔ ∃ record,
      (VersionRecord.Spelled value record ∧ record.Valid py known instances publications) ∧
        (∀ record' ∈ versions, record'.Apart record) ∧ versions' = versions ++ [record] := by
  have hfresh {record : VersionRecord} : (record.taskId ∉ versions.map (·.taskId) ∧
      record.taskBundleSha256 ∉ versions.map (·.taskBundleSha256)) ↔
      ∀ record' ∈ versions, record'.Apart record := by
    simp only [List.mem_map, not_exists, not_and, VersionRecord.Apart]
    exact ⟨fun h record' hrecord' ↦ ⟨h.1 record' hrecord', h.2 record' hrecord'⟩,
      fun h ↦ ⟨fun record' hrecord' ↦ (h record' hrecord').1,
        fun record' hrecord' ↦ (h record' hrecord').2⟩⟩
  simp only [addVersion, bind_eq_ok, require_eq_ok, readVersion_eq_ok hinstances, hfresh, pure,
    Except.pure, Except.ok.injEq]
  constructor
  · rintro ⟨record, hrecord, -, hapart, rfl⟩
    exact ⟨record, hrecord, hapart, rfl⟩
  · rintro ⟨record, hrecord, hapart, rfl⟩
    exact ⟨record, hrecord, (), hapart, rfl⟩

/-! ## The active versions -/

variable {versions : List VersionRecord} {current : Instance}

theorem openVersion_eq_ok {openNow openNow' : List VersionRecord} {record : VersionRecord} :
    openVersion current openNow record = .ok openNow' ↔
      ∃ record', (record = record' ∧ (record'.admissionAt current).isSome) ∧
        (∀ other ∈ openNow, (other.rewardTargetId, other.mode) ≠
          (record'.rewardTargetId, record'.mode)) ∧ openNow' = openNow ++ [record'] := by
  simp only [openVersion, bind_eq_ok, require_eq_ok, pure, Except.pure, Except.ok.injEq,
    List.mem_map, not_exists, not_and]
  constructor
  · rintro ⟨-, hadmitted, -, hapart, rfl⟩
    exact ⟨record, ⟨rfl, hadmitted⟩, hapart, rfl⟩
  · rintro ⟨_, ⟨rfl, hadmitted⟩, hapart, rfl⟩
    exact ⟨(), hadmitted, (), hapart, rfl⟩

theorem checkCurrent_eq_ok {u : Unit} :
    checkCurrent versions current = .ok u ↔ Current versions current := by
  have hopen {openNow : List VersionRecord} :
      (versions.filter (·.state = active)).foldlM (openVersion current) [] = .ok openNow ↔ _ :=
    foldlM_apart fun record _ openNow openNow' ↦ @openVersion_eq_ok current openNow openNow' record
  rw [List.foldlM_filter] at hopen
  simp only [decide_eq_true_eq] at hopen
  simp only [checkCurrent, bind_eq_ok, hopen]
  constructor
  · rintro ⟨openNow, ⟨hrows, hapart⟩, -⟩
    have hsame : versions.filter (·.state = active) = openNow := by
      have hforall := List.Forall₂.imp (fun _ _ h ↦ h.1) hrows
      rwa [List.forall₂_eq_eq_eq] at hforall
    subst hsame
    refine ⟨fun record hrecord hactive ↦ ?_, List.pairwise_map.mpr hapart⟩
    obtain ⟨_, -, -, hadmitted⟩ := exists_mem_of_forall₂_right hrows
      (List.mem_filter.mpr ⟨hrecord, decide_eq_true hactive⟩)
    exact hadmitted
  · intro h
    refine ⟨_, ⟨List.forall₂_same.mpr fun record hrecord ↦ ⟨rfl, ?_⟩,
      List.pairwise_map.mp h.apart⟩, rfl⟩
    obtain ⟨hrecord, hactive⟩ := List.mem_filter.mp hrecord
    exact h.admitted record hrecord (of_decide_eq_true hactive)

namespace VersionRegistry

variable {r r' : VersionRegistry} {content : ByteArray}

/-! ## Spelling a registry -/

/-- The value spells the registry. -/
def Spelled (py : Python) (value : Json) (r : VersionRegistry) : Prop :=
  ∃ schema environments instances publications versions, py.Equal schema (.int 1) ∧
    Says (registryMembers schema environments instances publications versions) value ∧
    List.Forall₂ (SpelledEnvironment py) environments r.environments ∧
    List.Forall₂ (fun row (i : Instance) ↦ Says i.members row) instances r.instances ∧
    List.Forall₂ (Publication.Spelled py) publications r.publications ∧
    List.Forall₂ VersionRecord.Spelled versions r.versions

theorem spelled_json (h : r.Readable py) : r.Spelled py r.json := by
  refine ⟨_, _, _, _, _, .refl py _, says_object registryKeys_ordered.2, ?_, ?_, ?_, ?_⟩
  · rw [List.forall₂_map_left_iff, List.forall₂_same]
    exact fun e he ↦ spelledEnvironment_json (h e he).inOrder
  · rw [List.forall₂_map_left_iff, List.forall₂_same]
    exact fun _ _ ↦ says_object instanceKeys_ordered.2
  · rw [List.forall₂_map_left_iff, List.forall₂_same]
    exact fun p _ ↦ p.spelled_json
  · rw [List.forall₂_map_left_iff, List.forall₂_same]
    exact fun record _ ↦ record.spelled_json

/-- A value spells one registry. -/
theorem Spelled.unique (h : r.Spelled py value) (h' : r'.Spelled py value)
    (hsha256 : r.sha256 = r'.sha256) : r = r' := by
  obtain ⟨_, _, _, _, _, -, hsays, henvironments, hinstances, hpublications, hversions⟩ := h
  obtain ⟨_, _, _, _, _, -, hsays', henvironments', hinstances', hpublications', hversions'⟩ := h'
  have hmembers := hsays.unique hsays' rfl
  simp only [registryMembers, List.cons.injEq, Prod.mk.injEq, Json.array.injEq, true_and,
    and_true] at hmembers
  obtain ⟨rfl, rfl, rfl, -, rfl⟩ := hmembers
  cases r
  cases r'
  simp only [mk.injEq]
  refine ⟨List.right_unique_forall₂' (fun _ _ _ h h' ↦ h.unique h') henvironments henvironments',
    List.right_unique_forall₂' (fun _ _ _ h h' ↦ ?_) hinstances hinstances',
    List.right_unique_forall₂' (fun _ _ _ h h' ↦ h.unique h') hpublications hpublications',
    List.right_unique_forall₂' (fun _ _ _ h h' ↦ h.unique h') hversions hversions', hsha256⟩
  exact Instance.members_injective (Says.unique h h' rfl)

theorem Valid.readable (h : r.Valid py) (hfinite : r.Finite) : r.Readable py :=
  fun e he ↦ (h.environments e he).1.readable (hfinite e he)

/-- The digest of the bytes is no part of what is checked. -/
theorem Valid.digest (h : r.Valid py) (sha256 : Text) : Valid py { r with sha256 } :=
  ⟨h.environments, h.sortedEnvironments, h.instances, h.distinctInstances, h.published, h.sequence,
    h.allowlists, h.listed, h.introduced, h.versions, h.sortedVersions, h.bundles⟩

theorem Valid.sorted_eq (h : r.Valid py) : r.sorted = r :=
  sorted_eq_self h.sortedEnvironments h.sortedVersions

/-! ## Reading a registry -/

theorem environments_eq_ok {rows : List Json} (hread : py.Reads (.array rows))
    {es : List (Text × EnvironmentIdentity)} : rows.foldlM (addEnvironment py) [] = .ok es ↔
      List.Forall₂ (fun row e ↦ SpelledEnvironment py row e ∧ ValidEnvironment py e) rows es ∧
        (es.map Prod.fst).Nodup := by
  rw [List.Nodup, List.pairwise_map]
  have hadd : ∀ row ∈ rows, ∀ es es', addEnvironment py es row = .ok es' ↔ _ :=
    fun row hrow es es' ↦ addEnvironment_eq_ok (hread.item hrow)
  exact foldlM_apart hadd

theorem publications_eq_ok {rows : List Json} {ps : List Publication} :
    rows.foldlM (addPublication py known instances) [] = .ok ps ↔
      List.Forall₂ (fun row p ↦ Publication.Spelled py row p ∧ p.Valid known instances) rows ps ∧
        ps.map (·.sequence) = List.range' 1 ps.length := by
  have hadd : ∀ row ∈ rows, ∀ ps ps',
      addPublication py known instances ps row = .ok ps' ↔ _ :=
    fun row _ ps ps' ↦ addPublication_eq_ok
  rw [foldlM_push hadd]
  simp only [List.nil_append, numbered_iff]
  constructor
  · rintro ⟨ps, hrows, hnumbers, rfl⟩
    exact ⟨hrows, hnumbers⟩
  · rintro ⟨hrows, hnumbers⟩
    exact ⟨ps, hrows, hnumbers, rfl⟩

theorem versions_eq_ok (hinstances : ∀ i ∈ instances, i.Valid known) {rows : List Json} :
    rows.foldlM (addVersion py known instances publications) [] = .ok versions ↔
      List.Forall₂ (fun row record ↦ VersionRecord.Spelled row record ∧
        record.Valid py known instances publications) rows versions ∧
      (versions.map (·.taskId)).Nodup ∧ (versions.map (·.taskBundleSha256)).Nodup := by
  rw [← versions_apart]
  have hadd : ∀ row ∈ rows, ∀ versions versions',
      addVersion py known instances publications versions row = .ok versions' ↔ _ :=
    fun row _ versions versions' ↦ addVersion_eq_ok hinstances
  exact foldlM_apart hadd

/-- Keys in order, none of them twice. -/
theorem pairwise_lt_iff {ks : List Text} :
    ks.Pairwise (· < ·) ↔ ks.Pairwise (· ≤ ·) ∧ ks.Nodup := by
  rw [List.Nodup, ← List.pairwise_and_iff]
  simp only [lt_iff_le_and_ne]

/-- The strict loader accepts the bytes that spell a valid registry, and loads that registry. -/
theorem fromBytes_eq_ok : fromBytes py content = .ok r ↔
    ∃ value, py.strictJson content = some value ∧ r.Spelled py value ∧ r.Valid py ∧
      r.sha256 = py.sha256Bytes content := by
  simp only [fromBytes, bind_eq_ok, need_eq_ok, require_eq_ok, Option.filter_eq_some_iff,
    asMembers_eq_some, asItems_eq_some, decide_eq_true_eq, mapM_eq_ok, readInstanceRow_eq_ok,
    checkCurrent_eq_ok, publications_eq_ok, pure, Except.pure, Except.ok.injEq]
  constructor
  · rintro ⟨value, hvalue, ms, ⟨rfl, hkeys⟩, -, ⟨hschema, hdefault⟩, environmentRows,
      henvironmentRows, instanceRows, hinstanceRows, publicationRows, hpublicationRows, versionRows,
      hversionRows, environments, henvironments, -, hsorted, instances, hinstances, -, hdistinct,
      publications, ⟨hpublications, hsequence⟩, last, hlast, -, hintroduced, versions, hversions, -,
      hsortedVersions, -, hcurrent, rfl⟩
    have hrows := henvironmentRows ▸ (reads_strictJson hvalue).get (text "environments")
    obtain ⟨henvironments, hdigests⟩ := (environments_eq_ok hrows).mp henvironments
    have hvalid {i : Instance} (hi : i ∈ instances) : i.Valid (environments.map Prod.fst) := by
      obtain ⟨_, -, -, h⟩ := exists_mem_of_forall₂_right hinstances hi
      exact h
    have hpublished {p : Publication} (hp : p ∈ publications) :
        p.Valid (environments.map Prod.fst) instances := by
      obtain ⟨_, -, -, h⟩ := exists_mem_of_forall₂_right hpublications hp
      exact h
    obtain ⟨hversions, htaskIds, hbundles⟩ := (versions_eq_ok fun i ↦ hvalid).mp hversions
    refine ⟨_, hvalue, ⟨_, environmentRows, instanceRows, publicationRows, versionRows, hschema,
      ⟨ms, rfl, hkeys, ?_⟩, List.Forall₂.imp (fun _ _ h ↦ h.1) henvironments,
      List.Forall₂.imp (fun _ _ h ↦ h.1) hinstances,
      List.Forall₂.imp (fun _ _ h ↦ h.1) hpublications,
      List.Forall₂.imp (fun _ _ h ↦ h.1) hversions⟩, ?_, rfl⟩
    · simp only [registryMembers, List.forall_mem_cons, List.not_mem_nil, false_implies,
        implies_true, and_true]
      exact ⟨hdefault, henvironmentRows, hinstanceRows, hpublicationRows, trivial, hversionRows⟩
    · refine ⟨fun e he ↦ ?_, pairwise_lt_iff.mpr ⟨hsorted, hdigests⟩, fun i ↦ hvalid, hdistinct,
        ⟨last, hlast, hcurrent⟩, hsequence, fun p hp ↦ (hpublished hp).allowlist,
        fun p hp ↦ (hpublished hp).listed, fun i hi ↦ ?_, fun record hrecord ↦ ?_,
        pairwise_lt_iff.mpr ⟨hsortedVersions, htaskIds⟩, hbundles⟩
      · obtain ⟨_, -, -, h⟩ := exists_mem_of_forall₂_right henvironments he
        exact h
      · exact List.mem_map.mp (hintroduced i hi)
      · obtain ⟨_, -, -, h⟩ := exists_mem_of_forall₂_right hversions hrecord
        exact h
  · rintro ⟨value, hvalue, ⟨schema, environmentRows, instanceRows, publicationRows, versionRows,
      hschema, ⟨ms, rfl, hkeys, hms⟩, henvironments, hinstances, hpublications, hversions⟩, hvalid,
      hsha256⟩
    simp only [registryMembers, List.forall_mem_cons, List.not_mem_nil, false_implies,
      implies_true, and_true] at hms
    obtain ⟨hdefault, henvironmentRows, hinstanceRows, hpublicationRows, rfl, hversionRows⟩ := hms
    have hrows := henvironmentRows ▸ (reads_strictJson hvalue).get (text "environments")
    obtain ⟨hsorted, hdigests⟩ := pairwise_lt_iff.mp hvalid.sortedEnvironments
    obtain ⟨hsortedVersions, htaskIds⟩ := pairwise_lt_iff.mp hvalid.sortedVersions
    obtain ⟨last, hlast, hcurrent⟩ := hvalid.published
    refine ⟨_, hvalue, ms, ⟨rfl, hkeys⟩, (), ⟨hschema, hdefault⟩, _, henvironmentRows, _,
      hinstanceRows, _, hpublicationRows, _, hversionRows, r.environments,
      (environments_eq_ok hrows).mpr
        ⟨forall₂_and_right henvironments hvalid.environments, hdigests⟩,
      (), hsorted, r.instances, forall₂_and_right hinstances hvalid.instances, (),
      hvalid.distinctInstances, r.publications,
      ⟨forall₂_and_right hpublications fun p hp ↦ ⟨hvalid.allowlists p hp,
        hvalid.instances _ (hvalid.listed p hp), hvalid.listed p hp⟩, hvalid.sequence⟩,
      last, hlast, (), fun i hi ↦ List.mem_map.mpr (hvalid.introduced i hi), r.versions,
      (versions_eq_ok hvalid.instances).mpr
        ⟨forall₂_and_right hversions hvalid.versions, htaskIds, hvalid.bundles⟩,
      (), hsortedVersions, (), hcurrent, ?_⟩
    rw [← hsha256]

/-- What the loader accepts is a valid registry. -/
theorem valid_of_fromBytes (h : fromBytes py content = .ok r) : r.Valid py := by
  obtain ⟨_, -, -, hvalid, -⟩ := fromBytes_eq_ok.mp h
  exact hvalid

/-- What is written of a registry is loaded exactly where it is valid, as what was written. -/
theorem fromBytes_toBytes (h : r.Readable py) {b : ByteArray} (hb : r.toBytes = some b) :
    fromBytes py b = .ok r' ↔ r.sorted.Valid py ∧
      r' = { r.sorted with sha256 := py.sha256Bytes b } := by
  have hspelled : r.sorted.Spelled py r.sorted.json := spelled_json h.sorted
  rw [fromBytes_eq_ok]
  constructor
  · rintro ⟨value, hvalue, hr', hvalid, hsha256⟩
    cases (strictJson_toBytes h hb).symm.trans hvalue
    have heq : r' = { r.sorted with sha256 := py.sha256Bytes b } := hr'.unique hspelled hsha256
    refine ⟨?_, heq⟩
    rw [heq] at hvalid
    exact hvalid.digest r.sorted.sha256
  · rintro ⟨hvalid, rfl⟩
    exact ⟨_, strictJson_toBytes h hb, hspelled, hvalid.digest _, rfl⟩

end VersionRegistry

/-! ## Two registries

A theorem is published as a legacy version, and then as a version 2, of which a later registry
records that it is validated in a second instance.  The environment's policy has a float. -/

def examplePython : Python where
  toPython := Allowlist.examplePython
  sha256Bytes _ := Allowlist.exampleSha256 0x30
  number _ := .null

def exampleEnvironment : EnvironmentIdentity where
  leanToolchain := text "leanprover/lean4:v4.22.0"
  leanCommit := Allowlist.exampleCommit
  mathlibCommit := Allowlist.exampleCommit
  lakePackages := [(text "mathlib", Allowlist.exampleCommit)]
  comparatorCommit := Allowlist.exampleCommit
  lean4exportCommit := Allowlist.exampleCommit
  taskSupportSha256 := Allowlist.exampleSha256 0x30
  workspaceTemplateSha256 := Allowlist.exampleSha256 0x30
  generatorVersion := text "2"
  verificationPolicy := [(text "max_tokens", .int 65536), (text "ratio", .float ['0', '.', '5'])]

/-- The instance of the legacy version. -/
def exampleOrigin : Instance := ⟨Allowlist.exampleCommit, none⟩

def exampleInstance (later : Bool) : Instance where
  repositoryCommit := if later then Allowlist.exampleLaterCommit else Allowlist.exampleCommit
  environmentIdentitySha256 := some (Allowlist.exampleSha256 0x30)

def exampleProblemId (i : Instance) : Text :=
  (Allowlist.problemId Allowlist.examplePython i.repositoryCommit
    [Allowlist.exampleName false]).getD []

def exampleLegacy : VersionRecord where
  taskId := text "fc-00000000-a"
  taskBundleSha256 := Allowlist.exampleSha256 0x63
  provenance := legacyProvenance
  rewardTargetId := Allowlist.rewardTargetIdentity (Allowlist.exampleName false)
  theorems := [Allowlist.exampleName false]
  mode := text "formalized"
  tier := text "tier-1"
  location := text "pool/a"
  environmentIdentitySha256 := none
  dependencyIdentitySha256 := none
  state := text "superseded"
  admissions := [⟨exampleOrigin, exampleProblemId exampleOrigin, none, 1⟩]

def exampleAdmission (later : Bool) : Admission where
  inInstance := exampleInstance later
  problemId := exampleProblemId (exampleInstance later)
  buildProvenanceSha256 := some (Allowlist.exampleSha256 0x30)
  firstPublication := if later then 3 else 2

def exampleTaskId : Text := text "fc-v2-first-" ++ List.replicate 24 0x30 ++ text "-formalized"

def exampleVersion (later : Bool) : VersionRecord where
  taskId := exampleTaskId
  taskBundleSha256 := Allowlist.exampleSha256 0x64
  provenance := v2Provenance
  rewardTargetId := Allowlist.rewardTargetIdentity (Allowlist.exampleName false)
  theorems := [Allowlist.exampleName false]
  mode := text "formalized"
  tier := text "tier-1"
  location := v2Location exampleTaskId
  environmentIdentitySha256 := some (Allowlist.exampleSha256 0x30)
  dependencyIdentitySha256 := some (Allowlist.exampleSha256 0x30)
  state := active
  admissions := exampleAdmission false :: if later then [exampleAdmission true] else []

def exampleRegistry (later : Bool) : VersionRegistry where
  environments := [(Allowlist.exampleSha256 0x30, exampleEnvironment)]
  instances := [exampleOrigin, exampleInstance false] ++
    if later then [exampleInstance true] else []
  publications := [⟨1, exampleOrigin, Allowlist.exampleSha256 0x30⟩,
      ⟨2, exampleInstance false, Allowlist.exampleSha256 0x30⟩] ++
    if later then [⟨3, exampleInstance true, Allowlist.exampleSha256 0x30⟩] else []
  versions := [exampleLegacy, exampleVersion later]
  sha256 := Allowlist.exampleSha256 0x30

theorem exampleEnvironment_readable : exampleEnvironment.Readable examplePython where
  inOrder := by
    refine inOrder_object [text "max_tokens", text "ratio"] rfl (by decide) ?_
    simp [exampleEnvironment, inOrder_int, inOrder_float]
  written := by
    refine floats_object.mpr ?_
    simp only [exampleEnvironment, List.forall_mem_cons, floats_int, floats_float, List.not_mem_nil,
      false_implies, implies_true, and_true, true_and]
    rfl
  finite := by
    have hliteral : Literal ['0', '.', '5'] := by
      have hwhole : Whole ['0'] := ⟨by decide, List.forall_mem_singleton.mpr rfl, fun _ ↦ rfl⟩
      have hdigits : Digits ['5'] := ⟨by decide, List.forall_mem_singleton.mpr rfl⟩
      exact ⟨false, ['0'], ['.', '5'], [], hwhole, .inr ⟨['5'], hdigits, rfl⟩, .inl rfl, rfl, rfl⟩
    refine floats_object.mpr ?_
    simp only [exampleEnvironment, List.forall_mem_cons, floats_int, floats_float, List.not_mem_nil,
      false_implies, implies_true, and_true, true_and]
    exact hliteral

theorem exampleEnvironment_valid : exampleEnvironment.Valid examplePython where
  packages := by decide +kernel
  comparatorCommit := by decide +kernel
  lean4exportCommit := by decide +kernel
  leanCommit := by decide +kernel
  mathlibCommit := by decide +kernel
  taskSupportSha256 := by decide +kernel
  workspaceTemplateSha256 := by decide +kernel
  generatorVersion := by decide
  leanToolchain := by decide
  policy := exampleEnvironment_readable.inOrder
  written := exampleEnvironment_readable.written

theorem exampleLegacy_valid (later : Bool) : exampleLegacy.Valid examplePython
    [Allowlist.exampleSha256 0x30] (exampleRegistry later).instances
    (exampleRegistry later).publications.length where
  digest := by decide +kernel
  theorems := ⟨_, by decide +kernel, rfl, rfl⟩
  state := by decide
  location := by decide +kernel
  admissions := List.cons_ne_nil _ _
  admitted := by cases later <;> decide +kernel
  problemIds := by decide +kernel
  distinct := List.nodup_singleton _
  inOrder := List.pairwise_singleton _ _
  bound := .inl ⟨rfl, {
    taskId := by decide +kernel
    environment := rfl
    dependency := rfl
    location := by decide +kernel
    admissions := rfl
    embeds := by decide +kernel
    provenance := by decide +kernel }⟩

theorem exampleVersion_valid (later : Bool) : (exampleVersion later).Valid examplePython
    [Allowlist.exampleSha256 0x30] (exampleRegistry later).instances
    (exampleRegistry later).publications.length where
  digest := by decide +kernel +revert
  theorems := ⟨_, by decide +kernel, rfl, rfl⟩
  state := List.mem_cons_self
  location := by decide +kernel +revert
  admissions := List.cons_ne_nil _ _
  admitted := by decide +kernel +revert
  problemIds := by decide +kernel +revert
  distinct := by decide +kernel +revert
  inOrder := by decide +kernel +revert
  bound := .inr ⟨rfl, {
    taskId := by decide +kernel +revert
    environment := ⟨_, List.mem_cons_self, rfl⟩
    dependency := ⟨_, by decide +kernel, rfl⟩
    location := rfl
    admissions := by decide +kernel +revert
    provenance := by
      have hdigest : Bundle.IsSha256 (Allowlist.exampleSha256 0x30) := by decide +kernel
      intro a ha
      refine ⟨_, hdigest, ?_⟩
      revert a
      decide +kernel +revert }⟩

theorem exampleRegistry_valid (later : Bool) :
    VersionRegistry.Valid examplePython (exampleRegistry later) where
  environments e he := by
    obtain rfl := List.mem_singleton.mp he
    exact ⟨exampleEnvironment_valid, by decide +kernel⟩
  sortedEnvironments := List.pairwise_singleton _ _
  instances := by
    have hlisted : ∀ i ∈ (exampleRegistry later).instances, Allowlist.IsCommit i.repositoryCommit ∧
        ∀ environment ∈ i.environmentIdentitySha256,
          environment ∈ [Allowlist.exampleSha256 0x30] := by
      cases later <;> decide +kernel
    exact hlisted
  distinctInstances := by decide +kernel +revert
  published := by
    refine ⟨⟨if later then 3 else 2, exampleInstance later, Allowlist.exampleSha256 0x30⟩,
      ?_, ?_, ?_⟩
    · cases later <;> rfl
    · decide +kernel +revert
    · decide +kernel +revert
  sequence := by cases later <;> rfl
  allowlists := by decide +kernel +revert
  listed := by decide +kernel +revert
  introduced := by decide +kernel +revert
  versions record hrecord := by
    rcases List.mem_cons.mp hrecord with rfl | hrecord
    · exact exampleLegacy_valid later
    · rw [List.mem_singleton.mp hrecord]
      exact exampleVersion_valid later
  sortedVersions := by decide +kernel +revert
  bundles := by decide +kernel +revert

theorem exampleRegistry_readable (later : Bool) :
    (exampleRegistry later).Readable examplePython := by
  intro e he
  rw [List.mem_singleton.mp he]
  exact exampleEnvironment_readable

/-- The examples are written, and what is written is loaded as the example. -/
theorem exampleRegistry_loads (later : Bool) : ∃ b, (exampleRegistry later).toBytes = some b ∧
    VersionRegistry.fromBytes examplePython b = .ok (exampleRegistry later) := by
  have hvalid := exampleRegistry_valid later
  have hplain : Json.PlainTexts (exampleRegistry later).json := by
    clear hvalid
    decide +kernel +revert
  obtain ⟨cs, hcs, -⟩ := Json.pretty_plain hplain
  have hb : (exampleRegistry later).toBytes = some (Json.encode cs) := by
    rw [VersionRegistry.toBytes, hvalid.sorted_eq, hcs]
    rfl
  have hreadable := exampleRegistry_readable later
  refine ⟨_, hb, (VersionRegistry.fromBytes_toBytes hreadable hb).mpr ⟨?_, ?_⟩⟩
  · rw [hvalid.sorted_eq]
    exact hvalid
  · rw [hvalid.sorted_eq]
    rfl

/-! ## Reading and writing -/

/-- What the loader accepts is valid, and unless a float of a policy is an infinity, it is read back
from what is written of it. -/
theorem registry_rewritten {py : Python} {content : ByteArray} {r : VersionRegistry}
    (h : VersionRegistry.fromBytes py content = .ok r) :
    r.Valid py ∧ (r.Finite → ∀ b, r.toBytes = some b →
      VersionRegistry.fromBytes py b = .ok { r with sha256 := py.sha256Bytes b }) := by
  have hvalid := VersionRegistry.valid_of_fromBytes h
  have hsorted := hvalid.sorted_eq
  refine ⟨hvalid, fun hfinite b hb ↦
    (VersionRegistry.fromBytes_toBytes (hvalid.readable hfinite) hb).mpr ⟨?_, ?_⟩⟩
  · rwa [hsorted]
  · rw [hsorted]

theorem registry_rewritten_example : ∃ b, (exampleRegistry true).Valid examplePython ∧
    (exampleRegistry true).toBytes = some b ∧ VersionRegistry.fromBytes examplePython b =
      .ok { exampleRegistry true with sha256 := examplePython.sha256Bytes b } := by
  obtain ⟨b, hb, hload⟩ := exampleRegistry_loads true
  obtain ⟨hvalid, hrewritten⟩ := registry_rewritten hload
  exact ⟨b, hvalid, hb, hrewritten (fun e he ↦ (exampleRegistry_readable true e he).finite) b hb⟩

end Conjectures.Registry

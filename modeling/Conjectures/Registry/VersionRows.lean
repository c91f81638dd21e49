import Conjectures.Registry.Rows

/-!
# The versions of the registry, row by row

A version is read where its row spells it and it is bound as its provenance says.

A version of the first provenance names no environment and is bound to the one instance that
admitted it; a version of the second names an environment of the registry.  Provenance and state are
texts here as in the source, and the reader compares them with the words it knows.
-/

namespace Conjectures.Registry

open Lib Lib.Json
open Allowlist (rewardTargetIdentity textOrNull)

variable {py : Python} {known : List Text} {instances : List Instance} {publications : ℕ}
  {value : Json} {ms : List (Text × Json)}

theorem readState_eq_ok {refusal : Refusal} {state : Text} :
    readState refusal value = .ok state ↔ value = .string state ∧ state ∈ states := by
  cases value with
  | string s =>
    simp only [readState, bind_eq_ok, require_eq_ok, pure, Except.pure, Except.ok.injEq,
      Json.string.injEq]
    constructor
    · rintro ⟨-, hs, rfl⟩
      exact ⟨rfl, hs⟩
    · rintro ⟨rfl, hs⟩
      exact ⟨(), hs, rfl⟩
  | _ => simp [readState, throw, throwThe, MonadExceptOf.throw]

theorem asTheorem_eq_some {theoremName : Text} :
    asTheorem value = some theoremName ↔
      value = .array [.string theoremName] ∧ theoremName ≠ [] := by
  unfold asTheorem
  split
  · rename_i s
    by_cases hs : s = []
    · simp only [hs, ne_eq, not_true_eq_false, if_false, Json.array.injEq, List.cons.injEq,
        Json.string.injEq, and_true, false_iff, reduceCtorEq]
      rintro ⟨rfl, h⟩
      exact h rfl
    · simp only [ne_eq, hs, not_false_eq_true, if_true, Option.some.injEq, Json.array.injEq,
        List.cons.injEq, Json.string.injEq, and_true]
      constructor
      · rintro rfl
        exact ⟨rfl, hs⟩
      · exact fun h ↦ h.1
  · rename_i h
    simp only [reduceCtorEq, false_iff, not_and]
    rintro rfl
    exact absurd rfl (h _)

/-! ## Admissions -/

namespace AdmissionRow

variable {a : AdmissionRow}

/-- The object of an admission, with its build provenance as it is spelled. -/
def members (a : AdmissionRow) : List (Text × Json) :=
  [(text "build_provenance_sha256", a.buildProvenance),
    (text "environment_identity_sha256", textOrNull a.inInstance.environmentIdentitySha256),
    (text "first_publication", .int a.firstPublication),
    (text "problem_id", .string a.problemId),
    (text "repository_commit", .string a.inInstance.repositoryCommit)]

/-- The admission names an instance, a publication and the problem of the theorem. -/
structure Valid (py : Python) (known : List Text) (instances : List Instance) (publications : ℕ)
    (theoremName : Text) (a : AdmissionRow) : Prop where
  inInstance : a.inInstance.Valid known
  listed : a.inInstance ∈ instances
  published : 1 ≤ a.firstPublication ∧ a.firstPublication ≤ publications
  problemId : Allowlist.problemId py.toPython a.inInstance.repositoryCommit [theoremName] =
    some a.problemId

end AdmissionRow

/-- The row of an admission. -/
def Admission.row (a : Admission) : AdmissionRow :=
  ⟨a.inInstance, a.problemId, textOrNull a.buildProvenanceSha256, a.firstPublication⟩

theorem Admission.row_injective : Function.Injective Admission.row := by
  intro a a' h
  simp only [row, AdmissionRow.mk.injEq, textOrNull_injective.eq_iff] at h
  cases a
  cases a'
  simp_all

theorem readAdmission_eq_ok {theoremName : Text} {a : AdmissionRow} :
    readAdmission py known instances publications theoremName value = .ok a ↔
      Says a.members value ∧ a.Valid py known instances publications theoremName := by
  simp only [readAdmission, bind_eq_ok, need_eq_ok, require_eq_ok, Option.filter_eq_some_iff,
    asMembers_eq_some, asInt_eq_some, decide_eq_true_eq, readInstance_eq_ok, pure, Except.pure,
    Except.ok.injEq]
  constructor
  · rintro ⟨ms, ⟨rfl, hkeys⟩, i, ⟨henvironment, hcommit, hvalid⟩, -, hlisted, n, ⟨hn, hone, hle⟩,
      problemId, hproblem, -, hfield, rfl⟩
    have hn' : (n.toNat : ℤ) = n := Int.toNat_of_nonneg (by omega)
    refine ⟨⟨ms, rfl, hkeys, ?_⟩, hvalid, hlisted, ⟨?_, ?_⟩, hproblem⟩
    · simp [AdmissionRow.members, henvironment, hcommit, hn, hn', hfield]
    · show 1 ≤ n.toNat
      omega
    · show n.toNat ≤ publications
      omega
  · rintro ⟨⟨ms, rfl, hkeys, hms⟩, hvalid⟩
    simp only [AdmissionRow.members, List.forall_mem_cons, List.not_mem_nil, false_implies,
      implies_true, and_true] at hms
    obtain ⟨hbuild, henvironment, hpublication, hproblem, hcommit⟩ := hms
    have hpublished := hvalid.published
    refine ⟨ms, ⟨rfl, hkeys⟩, a.inInstance, ⟨henvironment, hcommit, hvalid.inInstance⟩, (),
      hvalid.listed, a.firstPublication, ⟨hpublication, by omega, by omega⟩, a.problemId,
      hvalid.problemId, (), hproblem, ?_⟩
    rw [hbuild, Int.toNat_natCast]

theorem AdmissionRow.says_unique {a a' : AdmissionRow} (h : Says a.members value)
    (h' : Says a'.members value) : a = a' := by
  have hmembers := h.unique h' rfl
  simp only [members, List.cons.injEq, Prod.mk.injEq, Json.string.injEq, Json.int.injEq, true_and,
    and_true, textOrNull_injective.eq_iff] at hmembers
  obtain ⟨hbuild, henvironment, hpublication, hproblem, hcommit⟩ := hmembers
  rcases a with ⟨⟨commit, environment⟩, problem, build, publication⟩
  rcases a' with ⟨⟨commit', environment'⟩, problem', build', publication'⟩
  simp_all

/-! ## Rows of versions -/

namespace VersionRow

/-- The members of the object are what the row says, and the row is valid. -/
structure Reads (py : Python) (known : List Text) (instances : List Instance) (publications : ℕ)
    (ms : List (Text × Json)) (row : VersionRow) : Prop where
  taskId : field ms (text "task_id") = .string row.taskId
  digest : field ms (text "task_bundle_sha256") = .string row.taskBundleSha256 ∧
    Bundle.IsSha256 row.taskBundleSha256
  theorems : field ms (text "theorems") = .array [.string row.theoremName] ∧ row.theoremName ≠ []
  rewardTarget : field ms (text "reward_target_id") =
    .string (rewardTargetIdentity row.theoremName)
  state : field ms (text "state") = .string row.state ∧ row.state ∈ states
  mode : field ms (text "mode") = .string row.mode
  tier : field ms (text "tier") = .string row.tier
  location : field ms (text "location") = .string row.location ∧ IsLocation row.location
  admissions : ∃ items, field ms (text "admissions") = .array items ∧ items ≠ [] ∧
    List.Forall₂ (fun item (a : AdmissionRow) ↦ Says a.members item ∧
      a.Valid py known instances publications row.theoremName) items row.admissions
  distinct : (row.admissions.map (·.inInstance)).Nodup
  inOrder : (row.admissions.map (·.firstPublication)).Pairwise (· ≤ ·)

end VersionRow

theorem readVersionRow_eq_ok {row : VersionRow} :
    readVersionRow py known instances publications ms = .ok row ↔
      row.Reads py known instances publications ms := by
  simp only [readVersionRow, bind_eq_ok, need_eq_ok, require_eq_ok, Option.filter_eq_some_iff,
    asText_eq_some, asItems_eq_some, asTheorem_eq_some, decide_eq_true_eq, readState_eq_ok,
    mapM_eq_ok, readAdmission_eq_ok, pure, Except.pure, Except.ok.injEq]
  constructor
  · rintro ⟨taskId, htaskId, digest, hdigest, theoremName, htheorem, -, htarget, state, hstate,
      mode, hmode, tier, htier, location, hlocation, items, ⟨hitems, hne⟩, admissions, hadmissions,
      -, hdistinct, -, hinOrder, rfl⟩
    exact ⟨htaskId, hdigest, htheorem, htarget, hstate, hmode, htier, hlocation,
      ⟨items, hitems, hne, hadmissions⟩, hdistinct, hinOrder⟩
  · intro h
    obtain ⟨items, hitems, hne, hadmissions⟩ := h.admissions
    exact ⟨_, h.taskId, _, h.digest, _, h.theorems, (), h.rewardTarget, _, h.state, _, h.mode, _,
      h.tier, _, h.location, items, ⟨hitems, hne⟩, _, hadmissions, (), h.distinct, (), h.inOrder,
      rfl⟩

namespace VersionRecord

variable {record record' : VersionRecord}

/-- The row spells the version. -/
def Spelled (value : Json) (record : VersionRecord) : Prop :=
  ∃ admissions, List.Forall₂ (fun item (a : Admission) ↦ Says a.members item) admissions
      record.admissions ∧ Says (record.membersWith admissions) value

theorem spelled_json (record : VersionRecord) : Spelled record.json record := by
  refine ⟨_, ?_, says_object versionKeys_ordered.2⟩
  rw [List.forall₂_map_left_iff, List.forall₂_same]
  exact fun _ _ ↦ says_object admissionKeys_ordered.2

theorem Spelled.unique (h : Spelled value record) (h' : Spelled value record') :
    record = record' := by
  obtain ⟨items, hitems, hsays⟩ := h
  obtain ⟨items', hitems', hsays'⟩ := h'
  have hmembers := hsays.unique hsays' rfl
  simp only [membersWith, List.cons.injEq, Prod.mk.injEq, Json.string.injEq, Json.array.injEq,
    true_and, and_true, textOrNull_injective.eq_iff] at hmembers
  obtain ⟨rfl, hdependency, henvironment, hlocation, hmode, hprovenance, htarget, hstate, hdigest,
    htaskId, htheorems, htier⟩ := hmembers
  have hadmissions : record.admissions = record'.admissions := by
    refine List.right_unique_forall₂' (fun item a a' ha ha' ↦ ?_) hitems hitems'
    have hsays : Says a.row.members item := ha
    have hsays' : Says a'.row.members item := ha'
    exact Admission.row_injective (AdmissionRow.says_unique hsays hsays')
  have htheorems' : record.theorems = record'.theorems :=
    List.map_injective_iff.mpr (fun _ _ ↦ Json.string.inj) htheorems
  cases record
  cases record'
  simp_all

end VersionRecord

/-! ## Reading a version -/

/-- The row that a version of one theorem was read from. -/
def VersionRecord.row (record : VersionRecord) (theoremName : Text) : VersionRow where
  taskId := record.taskId
  taskBundleSha256 := record.taskBundleSha256
  theoremName := theoremName
  state := record.state
  mode := record.mode
  tier := record.tier
  location := record.location
  admissions := record.admissions.map Admission.row

/-- What the row of a version says, apart from its provenance and what is bound by it. -/
theorem VersionRow.reads_row {record : VersionRecord} {theoremName : Text} {items : List Json}
    (hitems : field ms (text "admissions") = .array items) :
    (record.row theoremName).Reads py known instances publications ms ↔
      (field ms (text "location") = .string record.location ∧
        field ms (text "mode") = .string record.mode ∧
        field ms (text "reward_target_id") = .string (rewardTargetIdentity theoremName) ∧
        field ms (text "state") = .string record.state ∧
        field ms (text "task_bundle_sha256") = .string record.taskBundleSha256 ∧
        field ms (text "task_id") = .string record.taskId ∧
        field ms (text "theorems") = .array [.string theoremName] ∧
        field ms (text "tier") = .string record.tier) ∧
      Bundle.IsSha256 record.taskBundleSha256 ∧ theoremName ≠ [] ∧ record.state ∈ states ∧
      IsLocation record.location ∧ record.admissions ≠ [] ∧
      List.Forall₂ (fun item (a : Admission) ↦ Says a.members item ∧
        a.row.Valid py known instances publications theoremName) items record.admissions ∧
      (record.admissions.map (·.inInstance)).Nodup ∧
      (record.admissions.map (·.firstPublication)).Pairwise (· ≤ ·) := by
  constructor
  · intro h
    obtain ⟨items', hitems', hne, hadmissions⟩ := h.admissions
    cases hitems.symm.trans hitems'
    have hdistinct := h.distinct
    have hinOrder := h.inOrder
    rw [VersionRecord.row, List.map_map] at hdistinct hinOrder
    refine ⟨⟨h.location.1, h.mode, h.rewardTarget, h.state.1, h.digest.1, h.taskId, h.theorems.1,
      h.tier⟩, h.digest.2, h.theorems.2, h.state.2, h.location.2, ?_,
      List.forall₂_map_right_iff.mp hadmissions, hdistinct, hinOrder⟩
    intro hnil
    have hlength := hadmissions.length_eq
    rw [VersionRecord.row, hnil, List.map_nil] at hlength
    exact hne (List.length_eq_zero_iff.mp hlength)
  · rintro ⟨⟨hlocation, hmode, htarget, hstate, hdigest, htaskId, htheorems, htier⟩, hdigest',
      htheorem, hstate', hlocation', hne, hadmissions, hdistinct, hinOrder⟩
    refine ⟨htaskId, ⟨hdigest, hdigest'⟩, ⟨htheorems, htheorem⟩, htarget, ⟨hstate, hstate'⟩, hmode,
      htier,
      ⟨hlocation, hlocation'⟩, ⟨items, hitems, ?_, List.forall₂_map_right_iff.mpr hadmissions⟩,
      ?_, ?_⟩
    · rintro rfl
      exact hne (List.length_eq_zero_iff.mp hadmissions.length_eq.symm)
    · rwa [VersionRecord.row, List.map_map]
    · rwa [VersionRecord.row, List.map_map]

/-- The record was read from the row, and the object says what it is bound to. -/
def VersionRow.Becomes (ms : List (Text × Json)) (row : VersionRow) (record : VersionRecord) :
    Prop :=
  (∃ theoremName, record.theorems = [theoremName] ∧
    record.rewardTargetId = rewardTargetIdentity theoremName ∧ row = record.row theoremName) ∧
  field ms (text "environment_identity_sha256") = textOrNull record.environmentIdentitySha256 ∧
  field ms (text "dependency_identity_sha256") = textOrNull record.dependencyIdentitySha256

theorem VersionRow.legacy_eq_ok {row : VersionRow} {record : VersionRecord} :
    row.legacy ms = .ok record ↔
      (record.provenance = legacyProvenance ∧ record.LegacyBound) ∧ row.Becomes ms record := by
  simp only [legacy, bind_eq_ok, require_eq_ok, pure, Except.pure, Except.ok.injEq]
  constructor
  · rintro ⟨-, ⟨htaskId, henvironment, hdependency, hlocation, hlength, hembeds, hbuild⟩, rfl⟩
    refine ⟨⟨rfl, ?_⟩, ⟨row.theoremName, rfl, rfl, ?_⟩, henvironment, hdependency⟩
    · refine VersionRecord.LegacyBound.mk htaskId rfl rfl hlocation ?_ ?_ ?_
      · simpa [VersionRow.record] using hlength
      · intro a ha
        obtain ⟨a', ha', rfl⟩ := List.mem_map.mp ha
        exact hembeds a' ha'
      · intro a ha
        obtain ⟨a', ha', rfl⟩ := List.mem_map.mp ha
        rfl
    · have hadmissions : row.admissions.map ((fun a ↦ Admission.row a) ∘ fun a : AdmissionRow ↦
          (⟨a.inInstance, a.problemId, none, a.firstPublication⟩ : Admission)) =
          row.admissions := by
        refine (List.map_congr_left fun a ha ↦ ?_).trans (List.map_id _)
        rw [Function.comp_apply, Admission.row, textOrNull, ← hbuild a ha, id]
      cases row
      simp_all [VersionRecord.row, VersionRow.record]
  · rintro ⟨⟨hprovenance, hbound⟩, ⟨theoremName, htheorems, htarget, rfl⟩, henvironment,
      hdependency⟩
    refine ⟨(), ⟨hbound.taskId, ?_, ?_, hbound.location, ?_, ?_, ?_⟩, ?_⟩
    · rw [henvironment, hbound.environment, textOrNull]
    · rw [hdependency, hbound.dependency, textOrNull]
    · simpa [VersionRecord.row] using hbound.admissions
    · intro a ha
      obtain ⟨a', ha', rfl⟩ := List.mem_map.mp ha
      exact hbound.embeds a' ha'
    · intro a ha
      obtain ⟨a', ha', rfl⟩ := List.mem_map.mp ha
      rw [Admission.row, hbound.provenance a' ha', textOrNull]
    · have hadmissions : record.admissions.map ((fun a : AdmissionRow ↦
          (⟨a.inInstance, a.problemId, none, a.firstPublication⟩ : Admission)) ∘ Admission.row) =
          record.admissions := by
        refine (List.map_congr_left fun a ha ↦ ?_).trans (List.map_id _)
        rw [Function.comp_apply, Admission.row, ← hbound.provenance a ha, id]
      have henvironment' := hbound.environment
      have hdependency' := hbound.dependency
      cases record
      simp_all [VersionRecord.row, VersionRow.record]

theorem VersionRow.v2_eq_ok {row : VersionRow} {record : VersionRecord} :
    row.v2 known ms = .ok record ↔
      (record.provenance = v2Provenance ∧ record.V2Bound known) ∧ row.Becomes ms record := by
  have hadmission {refusal : Refusal} {row : AdmissionRow} {a : Admission} :
      VersionRow.admission refusal row = .ok a ↔ row = a.row ∧
        ∃ digest, Bundle.IsSha256 digest ∧ a.buildProvenanceSha256 = some digest := by
    simp only [VersionRow.admission, bind_eq_ok, need_eq_ok, Option.filter_eq_some_iff,
      asText_eq_some, decide_eq_true_eq, pure, Except.pure, Except.ok.injEq]
    constructor
    · rintro ⟨digest, ⟨hbuild, hdigest⟩, rfl⟩
      refine ⟨?_, digest, hdigest, rfl⟩
      rw [Admission.row, textOrNull, ← hbuild]
    · rintro ⟨rfl, digest, hdigest, hbuild⟩
      refine ⟨digest, ⟨?_, hdigest⟩, ?_⟩
      · rw [Admission.row, hbuild, textOrNull]
      · rw [← hbuild]
        rfl
  simp only [v2, bind_eq_ok, need_eq_ok, require_eq_ok, Option.filter_eq_some_iff, asText_eq_some,
    decide_eq_true_eq, readKnown_eq_ok, mapM_eq_ok, hadmission, pure, Except.pure, Except.ok.injEq]
  constructor
  · rintro ⟨-, htaskId, environment, ⟨henvironment, hknown⟩, dependency,
      ⟨hdependency, hdependency'⟩, -, ⟨hlocation, hinstances⟩, admissions, hadmissions, rfl⟩
    have hrows : row.admissions = admissions.map Admission.row := by
      have hforall := List.Forall₂.imp (fun _ _ h ↦ h.1) hadmissions
      rwa [← List.forall₂_map_right_iff (f := Admission.row), List.forall₂_eq_eq_eq] at hforall
    refine ⟨⟨rfl, ?_⟩, ⟨row.theoremName, rfl, rfl, ?_⟩, henvironment, hdependency⟩
    · refine VersionRecord.V2Bound.mk htaskId ⟨environment, hknown, rfl⟩
        ⟨dependency, hdependency', rfl⟩ hlocation (fun a ha ↦ ?_) fun a ha ↦ ?_
      · exact hinstances a.row (hrows ▸ List.mem_map_of_mem ha)
      · obtain ⟨_, -, -, h⟩ := exists_mem_of_forall₂_right hadmissions ha
        exact h
    · cases row
      simp_all [VersionRecord.row, VersionRow.record]
  · rintro ⟨⟨hprovenance, hbound⟩, ⟨theoremName, htheorems, htarget, rfl⟩, henvironment,
      hdependency⟩
    obtain ⟨environment, hknown, henvironment'⟩ := hbound.environment
    obtain ⟨dependency, hdependency', hdigest⟩ := hbound.dependency
    rw [henvironment', textOrNull] at henvironment
    rw [hdigest, textOrNull] at hdependency
    refine ⟨(), hbound.taskId, environment, ⟨henvironment, hknown⟩, dependency,
      ⟨hdependency, hdependency'⟩, (), ⟨hbound.location, ?_⟩, record.admissions, ?_, ?_⟩
    · intro a ha
      obtain ⟨a', ha', rfl⟩ := List.mem_map.mp ha
      rw [Admission.row, hbound.admissions a' ha', henvironment']
    · rw [VersionRecord.row, List.forall₂_map_left_iff, List.forall₂_same]
      exact fun a ha ↦ ⟨rfl, hbound.provenance a ha⟩
    · cases record
      simp_all [VersionRecord.row, VersionRow.record]

theorem VersionRow.ofProvenance_eq_ok {row : VersionRow} {record : VersionRecord} :
    row.ofProvenance known ms = .ok record ↔
      field ms (text "provenance") = .string record.provenance ∧ record.Bound known ∧
        row.Becomes ms record := by
  have hdiffer : v2Provenance ≠ legacyProvenance := by decide
  unfold ofProvenance VersionRecord.Bound
  by_cases hlegacy : field ms (text "provenance") = .string legacyProvenance
  · rw [if_pos hlegacy, legacy_eq_ok, hlegacy, Json.string.injEq]
    constructor
    · exact fun ⟨⟨hprovenance, hbound⟩, h⟩ ↦ ⟨hprovenance.symm, .inl ⟨hprovenance, hbound⟩, h⟩
    · rintro ⟨hprovenance, hbound | hbound, h⟩
      · exact ⟨hbound, h⟩
      · exact absurd (hbound.1.symm.trans hprovenance.symm) hdiffer
  · rw [if_neg hlegacy]
    by_cases hv2 : field ms (text "provenance") = .string v2Provenance
    · rw [if_pos hv2, v2_eq_ok, hv2, Json.string.injEq]
      constructor
      · exact fun ⟨⟨hprovenance, hbound⟩, h⟩ ↦ ⟨hprovenance.symm, .inr ⟨hprovenance, hbound⟩, h⟩
      · rintro ⟨hprovenance, hbound | hbound, h⟩
        · exact absurd (hprovenance.trans hbound.1) hdiffer
        · exact ⟨hbound, h⟩
    · -- a version is bound by one of the two
      rw [if_neg hv2]
      simp only [throw, throwThe, MonadExceptOf.throw, reduceCtorEq, false_iff]
      rintro ⟨hprovenance, ⟨h, -⟩ | ⟨h, -⟩, -⟩
      · exact hlegacy (h ▸ hprovenance)
      · exact hv2 (h ▸ hprovenance)

/-- A version is read exactly where the row spells a valid one. -/
theorem readVersion_eq_ok {record : VersionRecord} (hinstances : ∀ i ∈ instances, i.Valid known) :
    readVersion py known instances publications value = .ok record ↔
      record.Spelled value ∧ record.Valid py known instances publications := by
  simp only [readVersion, bind_eq_ok, need_eq_ok, Option.filter_eq_some_iff, asMembers_eq_some,
    decide_eq_true_eq, readVersionRow_eq_ok, VersionRow.ofProvenance_eq_ok]
  constructor
  · rintro ⟨ms, ⟨rfl, hkeys⟩, _, hreads, hprovenance, hbound,
      ⟨theoremName, htheorems, htarget, rfl⟩, henvironment, hdependency⟩
    obtain ⟨items, hitems, -⟩ := hreads.admissions
    obtain ⟨⟨hlocation, hmode, htarget', hstate, hdigest, htaskId, htheorems', htier⟩, hdigest',
      htheorem, hstate', hlocation', hne, hadmissions, hdistinct, hinOrder⟩ :=
      (VersionRow.reads_row hitems).mp hreads
    refine ⟨⟨items, List.Forall₂.imp (fun _ _ h ↦ h.1) hadmissions, ms, rfl, hkeys, ?_⟩, hdigest',
      ⟨theoremName, htheorem, htheorems, htarget⟩, hstate', hlocation', hne, ?_, ?_, hdistinct,
      hinOrder, hbound⟩
    · simp only [VersionRecord.membersWith, List.forall_mem_cons, List.not_mem_nil, false_implies,
        implies_true, and_true, htheorems, htarget]
      exact ⟨hitems, hdependency, henvironment, hlocation, hmode, hprovenance, htarget', hstate,
        hdigest, htaskId, htheorems', htier⟩
    · intro a ha
      obtain ⟨_, -, -, h⟩ := exists_mem_of_forall₂_right hadmissions ha
      exact ⟨h.listed, h.published⟩
    · intro a ha
      obtain ⟨_, -, -, h⟩ := exists_mem_of_forall₂_right hadmissions ha
      rw [htheorems]
      exact h.problemId
  · rintro ⟨⟨items, hsays, ms, rfl, hkeys, hms⟩, hvalid⟩
    obtain ⟨theoremName, htheorem, htheorems, htarget⟩ := hvalid.theorems
    simp only [VersionRecord.membersWith, List.forall_mem_cons, List.not_mem_nil, false_implies,
      implies_true, and_true, htheorems, htarget] at hms
    obtain ⟨hitems, hdependency, henvironment, hlocation, hmode, hprovenance, htarget', hstate,
      hdigest, htaskId, htheorems', htier⟩ := hms
    have hadmissions : List.Forall₂ (fun item (a : Admission) ↦ Says a.members item ∧
        a.row.Valid py known instances publications theoremName) items record.admissions := by
      refine forall₂_and_right hsays fun a ha ↦ ?_
      have hproblem := hvalid.problemIds a ha
      rw [htheorems] at hproblem
      obtain ⟨hlisted, hpublished⟩ := hvalid.admitted a ha
      exact ⟨hinstances _ hlisted, hlisted, hpublished, hproblem⟩
    exact ⟨ms, ⟨rfl, hkeys⟩, record.row theoremName, (VersionRow.reads_row hitems).mpr
      ⟨⟨hlocation, hmode, htarget', hstate, hdigest, htaskId, htheorems', htier⟩, hvalid.digest,
        htheorem, hvalid.state, hvalid.location, hvalid.admissions, hadmissions, hvalid.distinct,
        hvalid.inOrder⟩, hprovenance, hvalid.bound, ⟨theoremName, htheorems, htarget, rfl⟩,
      henvironment, hdependency⟩

end Conjectures.Registry

import Conjectures.Registry.Codec

/-!
# Routing

`served_keys`: the submissions that an instance accepted itself, by the task, the bundle and the
problem that a submission records.  Two instances of one registry serve no common submission, but
for two source commits that give the theorem one problem id.
-/

namespace Conjectures.Registry

open Lib

/-! ## Problem ids -/

variable {py : Python}

/-- The digests of two commits agree where a problem id shows them. -/
def Collide (py : Python) (commit commit' : Text) (theorems : List Text) : Prop :=
  Allowlist.Collide py.toPython (Allowlist.problemSeed commit theorems)
    (Allowlist.problemSeed commit' theorems)

/-! ## Keys -/

/-- The submissions of one task, bundle and problem, which workers of an instance may claim. -/
structure ServedKey where
  taskId : Text
  taskBundleSha256 : Text
  problemId : Text
  location : Text
  provenance : Text
  expectedBuildProvenanceSha256 : Option Text
  deriving DecidableEq

namespace ServedKey

/-- What a submission records of it. -/
def claim (key : ServedKey) : Text × Text × Text :=
  (key.taskId, key.taskBundleSha256, key.problemId)

/-- `sorted(result, key=lambda key: (key.task_id, key.problem_id))` -/
def LE (key key' : ServedKey) : Prop :=
  key.taskId < key'.taskId ∨ key.taskId = key'.taskId ∧ key.problemId ≤ key'.problemId

instance : DecidableRel LE := fun _ _ ↦ inferInstanceAs (Decidable (_ ∨ _))

end ServedKey

/-- The key of an admission. -/
def VersionRecord.keyAt (record : VersionRecord) (own : Admission) : ServedKey where
  taskId := record.taskId
  taskBundleSha256 := record.taskBundleSha256
  problemId := own.problemId
  location := record.location
  provenance := record.provenance
  expectedBuildProvenanceSha256 := own.buildProvenanceSha256

/-- `served_keys` -/
def servedKeys (r : VersionRegistry) (i : Instance) : Except Refusal (List ServedKey) := do
  require (Allowlist.IsCommit i.repositoryCommit) (.registry "instance source commit is invalid")
  if i ∉ r.instances then return []
  let result := r.versions.filterMap fun record ↦ (record.admissionAt i).map record.keyAt
  return result.insertionSort ServedKey.LE

/-- The instance serves the key. -/
def Serves (r : VersionRegistry) (i : Instance) (key : ServedKey) : Prop :=
  ∃ keys, servedKeys r i = .ok keys ∧ key ∈ keys

/-! ## What an instance serves -/

variable {record record' : VersionRecord} {a : Admission} {i i' : Instance} {key key' : ServedKey}
  {r : VersionRegistry} {known : List Text} {instances : List Instance} {publications : ℕ}

theorem VersionRecord.admissionAt_eq_some (h : (record.admissions.map (·.inInstance)).Nodup) :
    record.admissionAt i = some a ↔ a ∈ record.admissions ∧ a.inInstance = i := by
  constructor
  · intro hfind
    have hinstance := List.find?_some hfind
    exact ⟨List.mem_of_find?_eq_some hfind, of_decide_eq_true hinstance⟩
  · rintro ⟨ha, rfl⟩
    cases hfind : record.admissionAt a.inInstance with
    | none => exact absurd (decide_eq_true rfl) (List.find?_eq_none.mp hfind a ha)
    | some a' =>
      have hinstance := List.find?_some hfind
      rw [List.inj_on_of_nodup_map h (List.mem_of_find?_eq_some hfind) ha
        (of_decide_eq_true hinstance)]

/-- An instance serves the admissions in it, each by the key of its version. -/
theorem serves_iff (hr : r.Valid py) : Serves r i key ↔ Allowlist.IsCommit i.repositoryCommit ∧
    ∃ record ∈ r.versions, ∃ a ∈ record.admissions, a.inInstance = i ∧ key = record.keyAt a := by
  have hkeys : key ∈ (r.versions.filterMap fun record ↦ (record.admissionAt i).map
      record.keyAt).insertionSort ServedKey.LE ↔ ∃ record ∈ r.versions, ∃ a ∈ record.admissions,
        a.inInstance = i ∧ key = record.keyAt a := by
    rw [List.mem_insertionSort, List.mem_filterMap]
    refine exists_congr fun record ↦ and_congr_right fun hrecord ↦ ?_
    rw [Option.map_eq_some_iff]
    refine exists_congr fun a ↦ ?_
    rw [VersionRecord.admissionAt_eq_some (hr.versions record hrecord).distinct, and_assoc,
      eq_comm (a := key)]
  unfold Serves servedKeys
  by_cases hcommit : Allowlist.IsCommit i.repositoryCommit
  · by_cases hi : i ∈ r.instances
    · simp [require, hcommit, hi, hkeys, bind, Except.bind, pure, Except.pure]
    · -- an instance that is not listed admits nothing
      have hnone : ¬ ∃ record ∈ r.versions, ∃ a ∈ record.admissions, a.inInstance = i ∧
          key = record.keyAt a := by
        rintro ⟨record, hrecord, a, ha, rfl, -⟩
        exact hi ((hr.versions record hrecord).admitted a ha).1
      simp [require, hcommit, hi, hnone, bind, Except.bind, pure, Except.pure]
  · simp [require, hcommit, bind, Except.bind]

/-- The versions of a registry are told apart by their ids. -/
theorem VersionRegistry.Valid.version_unique (hr : r.Valid py) (hrecord : record ∈ r.versions)
    (hrecord' : record' ∈ r.versions) (htaskId : record.taskId = record'.taskId) :
    record = record' := by
  have hnodup : (r.versions.map (·.taskId)).Nodup := hr.sortedVersions.imp ne_of_lt
  exact List.inj_on_of_nodup_map hnodup hrecord hrecord' htaskId

/-- Two admissions of one version with one problem id are one, up to a collision. -/
theorem VersionRecord.Valid.admission_unique {a' : Admission}
    (hrecord : record.Valid py known instances publications)
    (ha : a ∈ record.admissions) (ha' : a' ∈ record.admissions)
    (hproblem : a.problemId = a'.problemId) :
    a = a' ∨ a.inInstance.repositoryCommit ≠ a'.inInstance.repositoryCommit ∧
      Collide py a.inInstance.repositoryCommit a'.inInstance.repositoryCommit record.theorems := by
  by_cases hcommit : a.inInstance.repositoryCommit = a'.inInstance.repositoryCommit
  · refine .inl ?_
    rcases hrecord.bound with ⟨-, hbound⟩ | ⟨-, hbound⟩
    · -- a legacy version has one admission
      obtain ⟨only, honly⟩ := List.length_eq_one_iff.mp hbound.admissions
      rw [honly, List.mem_singleton] at ha ha'
      rw [ha, ha']
    · -- a version-2 one is bound to its environment
      have henvironment := (hbound.admissions a ha).trans (hbound.admissions a' ha').symm
      have hsame : a.inInstance = a'.inInstance := by
        have heta : a.inInstance =
            ⟨a.inInstance.repositoryCommit, a.inInstance.environmentIdentitySha256⟩ := rfl
        rw [heta, hcommit, henvironment]
      exact List.inj_on_of_nodup_map hrecord.distinct ha ha' hsame
  · have hproblemId := hrecord.problemIds a ha
    have hproblemId' := hrecord.problemIds a' ha'
    rw [← hproblem] at hproblemId'
    exact .inr ⟨hcommit, Allowlist.collide_of_problemId hproblemId hproblemId'⟩

/-- The digests of two commits agree for the theorem of this task. -/
def CollideFor (py : Python) (r : VersionRegistry) (taskId commit commit' : Text) : Prop :=
  commit ≠ commit' ∧ ∃ record ∈ r.versions, record.taskId = taskId ∧
    Collide py commit commit' record.theorems

/-- Two instances that serve one submission are one, up to a collision. -/
theorem serves_unique (hr : r.Valid py) (h : Serves r i key) (h' : Serves r i' key')
    (hclaim : key.claim = key'.claim) : i = i' ∧ key = key' ∨
      CollideFor py r key.taskId i.repositoryCommit i'.repositoryCommit := by
  obtain ⟨-, record, hrecord, a, ha, rfl, rfl⟩ := (serves_iff hr).mp h
  obtain ⟨-, record', hrecord', a', ha', rfl, rfl⟩ := (serves_iff hr).mp h'
  simp only [ServedKey.claim, VersionRecord.keyAt, Prod.mk.injEq] at hclaim
  obtain rfl := hr.version_unique hrecord hrecord' hclaim.1
  rcases (hr.versions record hrecord).admission_unique ha ha' hclaim.2.2 with
    rfl | ⟨hcommit, hcollide⟩
  · exact .inl ⟨rfl, rfl⟩
  · exact .inr ⟨hcommit, record, hrecord, rfl, hcollide⟩

/-! ## One instance for each submission -/

/-- Every admission is served by its instance, and by no other, up to a collision. -/
theorem submission_has_one_instance {content : ByteArray}
    (h : VersionRegistry.fromBytes py content = .ok r) (hrecord : record ∈ r.versions)
    (ha : a ∈ record.admissions) : Serves r a.inInstance (record.keyAt a) ∧
      ∀ i key, Serves r i key → key.claim = (record.keyAt a).claim →
        i = a.inInstance ∧ key = record.keyAt a ∨
          i.repositoryCommit ≠ a.inInstance.repositoryCommit ∧
            Collide py i.repositoryCommit a.inInstance.repositoryCommit record.theorems := by
  have hr := VersionRegistry.valid_of_fromBytes h
  have hcommit := (hr.instances _ ((hr.versions record hrecord).admitted a ha).1).1
  have hserves : Serves r a.inInstance (record.keyAt a) :=
    (serves_iff hr).mpr ⟨hcommit, record, hrecord, a, ha, rfl, rfl⟩
  refine ⟨hserves, fun i key hi hclaim ↦ ?_⟩
  rcases serves_unique hr hi hserves hclaim with hsame | ⟨hcommit, other, hother, htaskId, hcollide⟩
  · exact .inl hsame
  · have htask : other.taskId = record.taskId := htaskId.trans (congrArg Prod.fst hclaim)
    exact .inr ⟨hcommit, hr.version_unique hother hrecord htask ▸ hcollide⟩

/-- The digests of the examples do not collide. -/
theorem example_apart {commit commit' : Text} {theorems : List Text}
    (h : Collide examplePython commit commit' theorems) : commit = commit' := by
  obtain ⟨digest, digest', hdigest, hdigest', hshown⟩ := h
  have hdistinct : ∀ entry ∈ Allowlist.exampleDigests, ∀ other ∈ Allowlist.exampleDigests,
      (entry.2.take 39).drop 7 = (other.2.take 39).drop 7 → entry.1 = other.1 := by
    decide +kernel
  have hseed := hdistinct _ (Json.mem_of_lookup hdigest) _ (Json.mem_of_lookup hdigest') hshown
  simp only [Allowlist.problemSeed] at hseed
  exact List.append_cancel_right (List.append_cancel_right hseed)

theorem submission_has_one_instance_example :
    Serves (exampleRegistry true) (exampleInstance false)
        ((exampleVersion true).keyAt (exampleAdmission false)) ∧
      ∀ i key, Serves (exampleRegistry true) i key →
        key.claim = ((exampleVersion true).keyAt (exampleAdmission false)).claim →
        i = exampleInstance false := by
  obtain ⟨b, -, hload⟩ := exampleRegistry_loads true
  have hversion : exampleVersion true ∈ (exampleRegistry true).versions := by
    simp [exampleRegistry]
  obtain ⟨hserves, hunique⟩ := submission_has_one_instance hload hversion List.mem_cons_self
  refine ⟨hserves, fun i key hi hclaim ↦ ?_⟩
  rcases hunique i key hi hclaim with ⟨hsame, -⟩ | ⟨hne, hcollide⟩
  · exact hsame
  · exact absurd (example_apart hcollide) hne

end Conjectures.Registry

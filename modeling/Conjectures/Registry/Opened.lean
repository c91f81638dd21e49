import Conjectures.Registry.Builder

/-!
# The allowlist of a publication

`assert_matches_allowlist_bytes`: the allowlist of the current publication opens the active
versions.  What it opens is what the current instance serves of them.

The allowlist is whatever `json.loads` makes of the bytes, and its rows are looked into as Python
looks into them, with an exception where it raises one.  The ids that messages quote are left out.
-/

namespace Conjectures.Registry

open Lib Lib.Json

/-! ## Reading the allowlist -/

/-- `row[key]` -/
def rowItem (row : Json) (key : String) : Except Refusal Json := do
  let ms ← need row.asMembers .typeError
  need (ms.lookup (text key)) .keyError

/-- The value can be a member of a set. -/
def isHashable : Json → Bool
  | .array _ | .object _ => false
  | _ => true

/-- What a row opens. -/
def readOpened (row : Json) : Except Refusal (Json × Json × Json) := do
  let taskId ← rowItem row "task_id"
  let taskBundleSha256 ← rowItem row "task_bundle_sha256"
  let problemId ← rowItem row "problem_id"
  require (isHashable taskId ∧ isHashable taskBundleSha256 ∧ isHashable problemId) .typeError
  return (taskId, taskBundleSha256, problemId)

/-- `allowlist.get("allowed_task_bundles", ())`, item by item. -/
def openedRows (ms : List (Text × Json)) : Except Refusal (List Json) :=
  match ms.lookup (text "allowed_task_bundles") with
  | none => return []
  | some (.array rows) => return rows
  | some (.string s) => return s.map fun c ↦ .string [c]
  | some (.object ms) => return ms.map fun m ↦ .string m.1
  | some _ => throw .typeError

def claimJson (claim : Text × Text × Text) : Json × Json × Json :=
  (.string claim.1, .string claim.2.1, .string claim.2.2)

/-- What the active versions that are validated in the instance open. -/
def activeClaims (r : VersionRegistry) (i : Instance) : List (Text × Text × Text) :=
  (r.versions.filter (·.state = active)).filterMap fun record ↦
    (record.admissionAt i).map fun own ↦ (record.keyAt own).claim

/-- The two have the same members. -/
def SameMembers {α : Type} (as bs : List α) : Prop := (∀ a ∈ as, a ∈ bs) ∧ ∀ b ∈ bs, b ∈ as

instance {α : Type} [DecidableEq α] (as bs : List α) : Decidable (SameMembers as bs) :=
  inferInstanceAs (Decidable (_ ∧ _))

/-- `assert_matches_allowlist_bytes`, where `json.loads` reads bytes as a value. -/
def assertMatchesAllowlistBytes (py : Python) (loads : ByteArray → Option Json)
    (r : VersionRegistry) (content : ByteArray) : Except Refusal Unit := do
  let allowlist ← need (loads content) (.registry "cannot read the allowlist")
  let ms ← need allowlist.asMembers (.registry "the allowlist is not a JSON object")
  let current ← need r.publications.getLast? .indexError
  require (py.sha256Bytes content = current.allowlistSha256)
    (.registry "allowlist is not the one the current publication opened")
  require (ms.lookup (text "repository_commit") =
      some (.string current.forInstance.repositoryCommit))
    (.registry "allowlist and current publication name different source commits")
  let expected ← (← openedRows ms).mapM readOpened
  require (SameMembers expected ((activeClaims r current.forInstance).map claimJson))
    (.registry "registry active versions disagree with the allowlist")

/-! ## What is opened -/

/-- The allowlist has a row for the submission. -/
def Opens (allowlist : Json) (claim : Text × Text × Text) : Prop :=
  ∃ ms rows row, allowlist = .object ms ∧
    ms.lookup (text "allowed_task_bundles") = some (.array rows) ∧ .object row ∈ rows ∧
    row.lookup (text "task_id") = some (.string claim.1) ∧
    row.lookup (text "task_bundle_sha256") = some (.string claim.2.1) ∧
    row.lookup (text "problem_id") = some (.string claim.2.2)

variable {py : Python} {r : VersionRegistry} {loads : ByteArray → Option Json}
  {claim claim' : Text × Text × Text} {row value : Json} {rows : List Json}
  {ms : List (Text × Json)} {i : Instance} {record : VersionRecord}

theorem claimJson_injective (h : claimJson claim = claimJson claim') : claim = claim' := by
  simpa [claimJson, Prod.ext_iff] using h

theorem rowItem_eq_ok {key : String} : rowItem row key = .ok value ↔
    ∃ ms, row = .object ms ∧ ms.lookup (text key) = some value := by
  simp only [rowItem, bind_eq_ok, need_eq_ok, asMembers_eq_some]

theorem readOpened_claim : readOpened row = .ok (claimJson claim) ↔ ∃ ms, row = .object ms ∧
    ms.lookup (text "task_id") = some (.string claim.1) ∧
    ms.lookup (text "task_bundle_sha256") = some (.string claim.2.1) ∧
    ms.lookup (text "problem_id") = some (.string claim.2.2) := by
  simp only [readOpened, bind_eq_ok, require_eq_ok, rowItem_eq_ok, claimJson, pure, Except.pure,
    Except.ok.injEq, Prod.mk.injEq]
  constructor
  · rintro ⟨_, ⟨ms, rfl, htaskId⟩, _, ⟨_, heq, hdigest⟩, _, ⟨_, heq', hproblemId⟩, -, -, rfl, rfl,
      rfl⟩
    cases heq
    cases heq'
    exact ⟨ms, rfl, htaskId, hdigest, hproblemId⟩
  · rintro ⟨ms, rfl, htaskId, hdigest, hproblemId⟩
    exact ⟨_, ⟨ms, rfl, htaskId⟩, _, ⟨ms, rfl, hdigest⟩, _, ⟨ms, rfl, hproblemId⟩, (),
      ⟨rfl, rfl, rfl⟩, rfl, rfl, rfl⟩

/-- The rows that open a submission are objects in an array. -/
theorem opens_iff (hrows : openedRows ms = .ok rows) : Opens (.object ms) claim ↔
    ∃ row ∈ rows, readOpened row = .ok (claimJson claim) := by
  simp only [readOpened_claim]
  constructor
  · rintro ⟨_, rows', row, heq, hlookup, hrow, hclaim⟩
    cases heq
    simp only [openedRows, hlookup, pure, Except.pure, Except.ok.injEq] at hrows
    exact ⟨_, hrows ▸ hrow, row, rfl, hclaim⟩
  · rintro ⟨_, hrow, row, rfl, hclaim⟩
    unfold openedRows at hrows
    split at hrows <;> cases hrows
    · cases hrow
    case h_2 hlookup => exact ⟨ms, rows, row, rfl, hlookup, hrow, hclaim⟩
    · obtain ⟨_, -, heq⟩ := List.mem_map.mp hrow
      cases heq
    · obtain ⟨_, -, heq⟩ := List.mem_map.mp hrow
      cases heq

theorem mem_activeClaims (hr : r.Valid py) : claim ∈ activeClaims r i ↔
    ∃ record ∈ r.versions, record.state = active ∧ ∃ a ∈ record.admissions,
      a.inInstance = i ∧ (record.keyAt a).claim = claim := by
  simp only [activeClaims, List.mem_filterMap, List.mem_filter, decide_eq_true_eq, and_assoc,
    Option.map_eq_some_iff]
  refine exists_congr fun record ↦ and_congr_right fun hrecord ↦ and_congr_right fun _ ↦ ?_
  refine exists_congr fun a ↦ ?_
  rw [VersionRecord.admissionAt_eq_some (hr.versions record hrecord).distinct, and_assoc]

/-- An instance serves what the active versions open in it. -/
theorem mem_activeClaims_iff_serves (hr : r.Valid py)
    (hcommit : Allowlist.IsCommit i.repositoryCommit) :
    claim ∈ activeClaims r i ↔ ∃ key, Serves r i key ∧ key.claim = claim ∧
      ∃ record ∈ r.versions, record.taskId = key.taskId ∧ record.state = active := by
  rw [mem_activeClaims hr]
  constructor
  · rintro ⟨record, hrecord, hactive, a, ha, hi, hclaim⟩
    exact ⟨record.keyAt a, (serves_iff hr).mpr ⟨hcommit, record, hrecord, a, ha, hi, rfl⟩, hclaim,
      record, hrecord, rfl, hactive⟩
  · rintro ⟨key, hserves, hclaim, record, hrecord, htaskId, hactive⟩
    obtain ⟨-, record', hrecord', a, ha, hi, rfl⟩ := (serves_iff hr).mp hserves
    obtain rfl := hr.version_unique hrecord hrecord' htaskId
    exact ⟨record, hrecord, hactive, a, ha, hi, hclaim⟩

/-! ## The current publication -/

/-- The allowlist that a loaded registry matches opens what the current instance serves of the
active versions, and every active version is opened. -/
theorem allowlist_is_served {content allowlist : ByteArray}
    (h : VersionRegistry.fromBytes py content = .ok r)
    (hmatch : assertMatchesAllowlistBytes py loads r allowlist = .ok ()) :
    ∃ value current, loads allowlist = some value ∧ r.publications.getLast? = some current ∧
      (∀ claim, Opens value claim ↔ ∃ key, Serves r current.forInstance key ∧ key.claim = claim ∧
        ∃ record ∈ r.versions, record.taskId = key.taskId ∧ record.state = active) ∧
      ∀ record ∈ r.versions, record.state = active →
        ∃ problemId, Opens value (record.taskId, record.taskBundleSha256, problemId) := by
  have hr := VersionRegistry.valid_of_fromBytes h
  simp only [assertMatchesAllowlistBytes, bind_eq_ok, need_eq_ok, require_eq_ok,
    asMembers_eq_some] at hmatch
  obtain ⟨_, hvalue, ms, rfl, current, hcurrent, -, -, -, -, rows, hrows, expected, hexpected,
    hsub, hsuper⟩ := hmatch
  have hcommit := (hr.instances _ (hr.listed current (List.mem_of_getLast? hcurrent))).1
  -- what the rows open is what the active versions do
  have hopens {claim : Text × Text × Text} :
      Opens (.object ms) claim ↔ claim ∈ activeClaims r current.forInstance := by
    rw [opens_iff hrows, ← mem_mapM hexpected]
    constructor
    · intro hmem
      obtain ⟨claim', hclaim', heq⟩ := List.mem_map.mp (hsub _ hmem)
      exact claimJson_injective heq ▸ hclaim'
    · intro hclaim
      exact hsuper _ (List.mem_map_of_mem hclaim)
  refine ⟨_, current, hvalue, hcurrent, fun claim ↦ ?_, fun record hrecord hactive ↦ ?_⟩
  · rw [hopens, mem_activeClaims_iff_serves hr hcommit]
  · obtain ⟨last, hlast, hadmitted⟩ := hr.published
    cases hcurrent.symm.trans hlast
    obtain ⟨a, ha⟩ := Option.isSome_iff_exists.mp (hadmitted.admitted record hrecord hactive)
    rw [VersionRecord.admissionAt_eq_some (hr.versions record hrecord).distinct] at ha
    exact ⟨a.problemId, hopens.mpr ((mem_activeClaims hr).mpr
      ⟨record, hrecord, hactive, a, ha.1, ha.2, rfl⟩)⟩

/-- The allowlist of the later registry. -/
def exampleAllowlist : Json := .object [
  (text "allowed_task_bundles", .array [.object [
    (text "problem_id", .string (exampleAdmission true).problemId),
    (text "task_bundle_sha256", .string (exampleVersion true).taskBundleSha256),
    (text "task_id", .string exampleTaskId)]]),
  (text "repository_commit", .string Allowlist.exampleLaterCommit)]

theorem exampleAllowlist_inOrder : InOrder exampleAllowlist := by
  refine inOrder_object [text "allowed_task_bundles", text "repository_commit"] rfl (by decide) ?_
  simp only [List.forall_mem_cons, List.not_mem_nil, false_implies, implies_true, and_true]
  refine ⟨inOrder_array (List.forall_mem_singleton.mpr ?_), inOrder_string _⟩
  refine inOrder_object [text "problem_id", text "task_bundle_sha256", text "task_id"] rfl
    (by decide) ?_
  simp [inOrder_string]

/-- The bytes of the allowlist are read as it. -/
theorem exampleAllowlist_loads :
    ∃ b, (decode? b).bind Json.loads? = some exampleAllowlist := by
  have hplain : PlainTexts exampleAllowlist := by decide +kernel
  obtain ⟨cs, hcs, -⟩ := pretty_plain hplain
  have hfloats : exampleAllowlist.Floats Literal := by simp [exampleAllowlist]
  refine ⟨encode cs, ?_⟩
  rw [decode?_eq_some.mpr rfl, Option.bind_some,
    loads?_pretty hcs exampleAllowlist_inOrder.keyed hfloats, exampleAllowlist_inOrder.sorted]

theorem allowlist_is_served_example :
    ∃ key, Serves (exampleRegistry true) (exampleInstance true) key ∧
      key.claim = (exampleTaskId, (exampleVersion true).taskBundleSha256,
        (exampleAdmission true).problemId) := by
  obtain ⟨content, -, hload⟩ := exampleRegistry_loads true
  obtain ⟨b, hb⟩ := exampleAllowlist_loads
  have hmatch : assertMatchesAllowlistBytes examplePython (fun b ↦ (decode? b).bind Json.loads?)
      (exampleRegistry true) b = .ok () := by
    have hdigest : examplePython.sha256Bytes b = Allowlist.exampleSha256 0x30 := rfl
    simp only [assertMatchesAllowlistBytes, hb, hdigest]
    decide +kernel
  obtain ⟨value, current, hvalue, hcurrent, hopens, -⟩ := allowlist_is_served hload hmatch
  cases hb.symm.trans hvalue
  cases hcurrent
  obtain ⟨key, hserves, hclaim, -⟩ := (hopens (exampleTaskId,
    (exampleVersion true).taskBundleSha256, (exampleAdmission true).problemId)).mp
      ⟨_, _, _, rfl, rfl, List.mem_cons_self, rfl, rfl, rfl⟩
  exact ⟨key, hserves, hclaim⟩

end Conjectures.Registry

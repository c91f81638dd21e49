import Conjectures.Registry.AppendOnly

/-!
# Building the next registry

`RegistryBuilder`: a publication of one instance is appended to the registry before it.  Whatever
is admitted and whatever states are set, what is built takes nothing back, so that the check of
`build` against the registry before it never refuses.

`admit` takes any text as provenance and as state and checks neither: what is wrong with them is
found when `build` loads the new registry again.  An infinity in a policy is found there too, as
strict JSON has no word for it.
-/

namespace Conjectures.Registry

open Lib Lib.Json

/-! ## The builder -/

/-- The versions are the values of the dictionary, in the order in which they were added. -/
structure RegistryBuilder where
  previous : VersionRegistry
  inInstance : Instance
  environment : Option EnvironmentIdentity
  versions : List VersionRecord
  deriving DecidableEq

/-- What `admit` is told of a version; its texts are not checked. -/
structure AdmitRequest where
  taskId : Text
  taskBundleSha256 : Text
  provenance : Text
  theoremName : Text
  mode : Text
  tier : Text
  location : Text
  state : Text
  dependencyIdentitySha256 : Option Text
  buildProvenanceSha256 : Option Text

namespace RegistryBuilder

variable (py : Python)

/-- The digest of the environment, where there is one. -/
def environmentDigest (environment : Option EnvironmentIdentity) : Except Refusal (Option Text) :=
  match environment with
  | none => return none
  | some e => do return some (← need (e.sha256 py) .unicodeEncodeError)

/-- `__post_init__` -/
def start (previous : VersionRegistry) (i : Instance) (environment : Option EnvironmentIdentity) :
    Except Refusal RegistryBuilder := do
  let refusal := Refusal.registry "instance environment identity does not match the environment"
  require (environment.isNone = i.environmentIdentitySha256.isNone) refusal
  let digest ← environmentDigest py environment
  require (digest = i.environmentIdentitySha256) refusal
  return ⟨previous, i, environment, previous.versions⟩

def sequence (b : RegistryBuilder) : ℕ := b.previous.publications.length + 1

/-- `self.versions.get` -/
def version (b : RegistryBuilder) (taskId : Text) : Option VersionRecord :=
  b.versions.find? (·.taskId = taskId)

/-- `self.versions[task_id] = …`, where the id is there. -/
def put (b : RegistryBuilder) (record : VersionRecord) : RegistryBuilder :=
  { b with versions := b.versions.map fun other ↦
      if other.taskId = record.taskId then record else other }

/-- The environment that a version of this provenance is bound to. -/
def boundEnvironment (b : RegistryBuilder) (provenance : Text) : Option Text :=
  if provenance = v2Provenance then b.inInstance.environmentIdentitySha256 else none

/-- The version that is published for the first time. -/
def newVersion (b : RegistryBuilder) (request : AdmitRequest) (admission : Admission) :
    VersionRecord where
  taskId := request.taskId
  taskBundleSha256 := request.taskBundleSha256
  provenance := request.provenance
  rewardTargetId := Allowlist.rewardTargetIdentity request.theoremName
  theorems := [request.theoremName]
  mode := request.mode
  tier := request.tier
  location := request.location
  environmentIdentitySha256 := b.boundEnvironment request.provenance
  dependencyIdentitySha256 := request.dependencyIdentitySha256
  state := request.state
  admissions := [admission]

/-- `admit` -/
def admitVersion (b : RegistryBuilder) (request : AdmitRequest) :
    Except Refusal RegistryBuilder := do
  let problemId ← need (Allowlist.problemId py.toPython b.inInstance.repositoryCommit
    [request.theoremName]) .unicodeEncodeError
  let admission : Admission :=
    ⟨b.inInstance, problemId, request.buildProvenanceSha256, b.sequence⟩
  match b.version request.taskId with
  | none => return { b with versions := b.versions ++ [b.newVersion request admission] }
  | some existing => do
    require (existing.taskBundleSha256 = request.taskBundleSha256 ∧
      existing.provenance = request.provenance ∧
      existing.dependencyIdentitySha256 = request.dependencyIdentitySha256 ∧
      existing.environmentIdentitySha256 = b.boundEnvironment request.provenance)
      (.registry "is already published with a different commitment")
    let prior := existing.admissionAt b.inInstance
    require (∀ own ∈ prior, own.buildProvenanceSha256 = request.buildProvenanceSha256)
      (.registry "this instance's build provenance changed since it was published")
    return b.put { existing with
      state := request.state
      admissions := if prior.isSome then existing.admissions
        else existing.admissions ++ [admission] }

/-- `set_state` -/
def setState (b : RegistryBuilder) (taskId state : Text) : Except Refusal RegistryBuilder := do
  require (state ∈ states) (.registry "unknown state")
  let existing ← need (b.version taskId) .keyError
  return b.put { existing with state }

/-- The registry before it is written. -/
def assembled (b : RegistryBuilder) (digest : Option Text) (allowlistSha256 : Text) :
    VersionRegistry where
  environments := match digest, b.environment with
    | some digest, some e => if digest ∈ b.previous.environments.map Prod.fst
      then b.previous.environments else b.previous.environments ++ [(digest, e)]
    | _, _ => b.previous.environments
  instances := if b.inInstance ∈ b.previous.instances then b.previous.instances
    else b.previous.instances ++ [b.inInstance]
  publications := b.previous.publications ++ [⟨b.sequence, b.inInstance, allowlistSha256⟩]
  versions := b.versions.insertionSort fun record record' ↦ record.taskId ≤ record'.taskId
  sha256 := []

/-- What is written is loaded again. -/
def reload (b : RegistryBuilder) (allowlistSha256 : Text) : Except Refusal VersionRegistry := do
  let digest ← environmentDigest py b.environment
  let content ← need (b.assembled digest allowlistSha256).toBytes .unicodeEncodeError
  VersionRegistry.fromBytes py content

/-- `build` -/
def build (b : RegistryBuilder) (allowlistSha256 : Text) : Except Refusal VersionRegistry := do
  let built ← b.reload py allowlistSha256
  if b.previous.publications ≠ [] then assertAppendOnly py b.previous built
  return built

end RegistryBuilder

/-- A call of the builder. -/
inductive BuilderCall where
  | admitVersion (request : AdmitRequest)
  | setState (taskId state : Text)

def RegistryBuilder.step (py : Python) (b : RegistryBuilder) :
    BuilderCall → Except Refusal RegistryBuilder
  | .admitVersion request => b.admitVersion py request
  | .setState taskId state => b.setState taskId state

/-- A builder is made and called. -/
def RegistryBuilder.run (py : Python) (previous : VersionRegistry) (i : Instance)
    (environment : Option EnvironmentIdentity) (calls : List BuilderCall) :
    Except Refusal RegistryBuilder := do
  calls.foldlM (RegistryBuilder.step py) (← RegistryBuilder.start py previous i environment)

/-! ## What the calls keep -/

namespace RegistryBuilder

variable {py : Python} {b b' : RegistryBuilder} {record : VersionRecord}

/-- The versions extend those of the registry before, and admissions are made for the next
publication only. -/
structure Inv (b : RegistryBuilder) : Prop where
  distinct : (b.versions.map (·.taskId)).Nodup
  versions : ∀ old ∈ b.previous.versions, ∃ new ∈ b.versions,
    old.Extends b.previous.publications.length new
  fresh : ∀ new ∈ b.versions, new.taskId ∉ b.previous.versions.map (·.taskId) →
    ∀ a ∈ new.admissions, b.previous.publications.length < a.firstPublication

theorem not_mem_of_version {taskId : Text} (h : b.version taskId = none) :
    taskId ∉ b.versions.map (·.taskId) := by
  intro hmem
  obtain ⟨other, hother, htaskId⟩ := List.mem_map.mp hmem
  exact absurd (decide_eq_true htaskId) (List.find?_eq_none.mp h other hother)

/-- A version is put in the place of the one with its id, which it extends. -/
theorem Inv.put {existing : VersionRecord} (h : b.Inv) (hexisting : existing ∈ b.versions)
    (hextends : existing.Extends b.previous.publications.length record) : (b.put record).Inv := by
  have htaskId : record.taskId = existing.taskId := hextends.commitment.taskId
  have hplace {other : VersionRecord} (hother : other ∈ b.versions)
      (heq : other.taskId = record.taskId) : other = existing :=
    List.inj_on_of_nodup_map h.distinct hother hexisting (heq.trans htaskId)
  have hkeys : (b.put record).versions.map (·.taskId) = b.versions.map (·.taskId) := by
    rw [RegistryBuilder.put, List.map_map]
    refine List.map_congr_left fun other _ ↦ ?_
    by_cases heq : other.taskId = record.taskId <;> simp [heq]
  refine ⟨hkeys ▸ h.distinct, fun old hold ↦ ?_, fun new hnew hfresh ↦ ?_⟩
  · obtain ⟨new, hnew, hold'⟩ := h.versions old hold
    by_cases heq : new.taskId = record.taskId
    · refine ⟨record, List.mem_map.mpr ⟨new, hnew, if_pos heq⟩, ?_⟩
      obtain rfl := hplace hnew heq
      exact hold'.trans le_rfl hextends
    · exact ⟨new, List.mem_map.mpr ⟨new, hnew, if_neg heq⟩, hold'⟩
  · obtain ⟨other, hother, rfl⟩ := List.mem_map.mp hnew
    by_cases heq : other.taskId = record.taskId
    · rw [if_pos heq] at hfresh ⊢
      intro a ha
      rcases hextends.mem ha with ha | ha
      · exact h.fresh existing hexisting (htaskId ▸ hfresh) a ha
      · exact ha
    · rw [if_neg heq] at hfresh ⊢
      exact h.fresh other hother hfresh

theorem Inv.setState {taskId state : Text} (h : b.Inv) (hb' : b.setState taskId state = .ok b') :
    b'.Inv ∧ b'.previous = b.previous ∧ b'.environment = b.environment := by
  simp only [RegistryBuilder.setState, bind_eq_ok, require_eq_ok, need_eq_ok, pure, Except.pure,
    Except.ok.injEq] at hb'
  obtain ⟨-, -, existing, hexisting, rfl⟩ := hb'
  refine ⟨h.put (mem_of_find_taskId hexisting).1 ⟨rfl, List.prefix_rfl, ?_⟩, rfl, rfl⟩
  simp

theorem Inv.admitVersion {request : AdmitRequest} (h : b.Inv)
    (hb' : b.admitVersion py request = .ok b') :
    b'.Inv ∧ b'.previous = b.previous ∧ b'.environment = b.environment := by
  simp only [RegistryBuilder.admitVersion, bind_eq_ok, need_eq_ok] at hb'
  obtain ⟨problemId, -, hb'⟩ := hb'
  cases hversion : b.version request.taskId with
  | none =>
    rw [hversion] at hb'
    cases hb'
    have hnew := not_mem_of_version hversion
    refine ⟨⟨?_, fun old hold ↦ ?_, fun new hnew' hfresh a ha ↦ ?_⟩, rfl, rfl⟩
    · rw [List.map_append, List.map_singleton]
      exact List.nodup_append.mpr ⟨h.distinct, List.nodup_singleton _, by
        rintro taskId htaskId _ hmem rfl
        have htaskId' : taskId = request.taskId := List.mem_singleton.mp hmem
        exact hnew (htaskId' ▸ htaskId)⟩
    · obtain ⟨new, hmem, hextends⟩ := h.versions old hold
      exact ⟨new, List.mem_append_left _ hmem, hextends⟩
    · rcases List.mem_append.mp hnew' with hmem | hmem
      · exact h.fresh new hmem hfresh a ha
      · rw [List.mem_singleton.mp hmem] at ha
        rw [List.mem_singleton.mp ha]
        exact Nat.lt_succ_self _
  | some existing =>
    rw [hversion] at hb'
    simp only [bind_eq_ok, require_eq_ok, pure, Except.pure, Except.ok.injEq] at hb'
    obtain ⟨-, -, -, -, rfl⟩ := hb'
    refine ⟨h.put (mem_of_find_taskId hversion).1 ⟨rfl, ?_, ?_⟩, rfl, rfl⟩
    · dsimp only
      split
      · exact List.prefix_rfl
      · exact List.prefix_append _ _
    · dsimp only
      split
      · simp
      · rw [List.drop_left]
        intro a ha
        rw [List.mem_singleton.mp ha]
        exact Nat.lt_succ_self _

theorem Inv.step {call : BuilderCall} (h : b.Inv) (hb' : b.step py call = .ok b') :
    b'.Inv ∧ b'.previous = b.previous ∧ b'.environment = b.environment := by
  cases call with
  | admitVersion request => exact h.admitVersion hb'
  | setState taskId state => exact h.setState hb'

theorem Inv.start {previous : VersionRegistry} {i : Instance}
    {environment : Option EnvironmentIdentity}
    (hdistinct : (previous.versions.map (·.taskId)).Nodup)
    (hb : RegistryBuilder.start py previous i environment = .ok b) :
    b.Inv ∧ b.previous = previous ∧ b.environment = environment := by
  simp only [RegistryBuilder.start, bind_eq_ok, require_eq_ok, pure, Except.pure,
    Except.ok.injEq] at hb
  obtain ⟨-, -, -, -, -, -, rfl⟩ := hb
  refine ⟨⟨hdistinct, fun old hold ↦ ⟨old, hold, rfl, List.prefix_rfl, by simp⟩, ?_⟩, rfl, rfl⟩
  exact fun new hnew hfresh ↦ absurd (List.mem_map_of_mem hnew) hfresh

/-- Whatever is called, the versions extend those of the registry before. -/
theorem Inv.run {previous : VersionRegistry} {i : Instance}
    {environment : Option EnvironmentIdentity} {calls : List BuilderCall}
    (hdistinct : (previous.versions.map (·.taskId)).Nodup)
    (hb : RegistryBuilder.run py previous i environment calls = .ok b) :
    b.Inv ∧ b.previous = previous ∧ b.environment = environment := by
  simp only [RegistryBuilder.run, bind_eq_ok] at hb
  obtain ⟨start, hstart, hb⟩ := hb
  refine foldlM_invariant (P := fun b ↦ b.Inv ∧ b.previous = previous ∧
    b.environment = environment) (fun call _ b b' hkept hb' ↦ ?_) (Inv.start hdistinct hstart) hb
  obtain ⟨hinv, hprevious, henvironment⟩ := hkept
  obtain ⟨hinv', hprevious', henvironment'⟩ := hinv.step hb'
  exact ⟨hinv', hprevious'.trans hprevious, henvironment'.trans henvironment⟩

/-! ## What is built -/

variable {digest : Option Text} {allowlistSha256 : Text} {built : VersionRegistry}

/-- No environment is taken out. -/
theorem assembled_environments {e : Text × EnvironmentIdentity}
    (he : e ∈ b.previous.environments) :
    e ∈ (b.assembled digest allowlistSha256).environments := by
  unfold assembled
  dsimp only
  split
  · split
    · exact he
    · exact List.mem_append_left _ he
  · exact he

theorem assembled_readable (hprevious : b.previous.Readable py)
    (henvironment : ∀ e ∈ b.environment, e.Readable py) :
    (b.assembled digest allowlistSha256).Readable py := by
  intro e he
  unfold assembled at he
  dsimp only at he
  split at he
  case h_1 identity hidentity =>
    split at he
    · exact hprevious e he
    · rcases List.mem_append.mp he with he | he
      · exact hprevious e he
      · rw [List.mem_singleton.mp he]
        exact henvironment identity hidentity
  case h_2 => exact hprevious e he

theorem assembled_instances (b : RegistryBuilder) (digest : Option Text) (allowlistSha256 : Text) :
    b.previous.instances <+: (b.assembled digest allowlistSha256).instances := by
  unfold assembled
  dsimp only
  split
  · exact List.prefix_rfl
  · exact List.prefix_append _ _

/-- What is read back takes nothing of the registry before back. -/
theorem Inv.appendOnly (h : b.Inv) {sha256 : Text}
    (hbuilt : built = { (b.assembled digest allowlistSha256).sorted with sha256 })
    (hvalid : built.Valid py) : AppendOnly py b.previous built := by
  have henvironments {e : Text × EnvironmentIdentity} :
      e ∈ built.environments ↔ e ∈ (b.assembled digest allowlistSha256).environments := by
    rw [hbuilt]
    exact (b.assembled digest allowlistSha256).sorted_environments_perm.mem_iff
  have hversions {record : VersionRecord} : record ∈ built.versions ↔ record ∈ b.versions := by
    rw [hbuilt]
    exact (VersionRegistry.sorted_versions_perm _).mem_iff.trans
      (List.perm_insertionSort _ _).mem_iff
  refine ⟨?_, ?_, fun e he ↦ ⟨e.2, ?_, .refl py e.2⟩, fun old hold ↦ ?_, fun new hnew ↦ ?_⟩
  · rw [hbuilt]
    exact List.prefix_append _ _
  · rw [hbuilt]
    exact b.assembled_instances digest allowlistSha256
  · have hkeys := (VersionRegistry.pairwise_lt_iff.mp hvalid.sortedEnvironments).2
    exact (lookup_eq_some_iff_mem hkeys).mpr (henvironments.mpr (assembled_environments he))
  · obtain ⟨new, hnew, hextends⟩ := h.versions old hold
    refine ⟨new, ?_, hextends⟩
    rw [← hextends.commitment.taskId]
    exact hvalid.version_self (hversions.mpr hnew)
  · exact h.fresh new (hversions.mp hnew)

/-- What is written is valid when it is read back, and takes nothing back. -/
theorem Inv.reload (h : b.Inv) (hprevious : b.previous.Readable py)
    (henvironment : ∀ e ∈ b.environment, e.Readable py)
    (hbuilt : b.reload py allowlistSha256 = .ok built) :
    (∃ content, VersionRegistry.fromBytes py content = .ok built) ∧
      AppendOnly py b.previous built := by
  simp only [RegistryBuilder.reload, bind_eq_ok, need_eq_ok] at hbuilt
  obtain ⟨digest, -, content, hcontent, hload⟩ := hbuilt
  have hreadable : (b.assembled digest allowlistSha256).Readable py :=
    assembled_readable hprevious henvironment
  obtain ⟨-, hread⟩ := (VersionRegistry.fromBytes_toBytes hreadable hcontent).mp hload
  have hvalid := VersionRegistry.valid_of_fromBytes hload
  exact ⟨⟨content, hload⟩, h.appendOnly hread hvalid⟩

/-- The check against the registry before never refuses. -/
theorem Inv.build (h : b.Inv) (allowlistSha256 : Text) (hprevious : b.previous.Readable py)
    (henvironment : ∀ e ∈ b.environment, e.Readable py) :
    b.build py allowlistSha256 = b.reload py allowlistSha256 := by
  cases hbuilt : b.reload py allowlistSha256 with
  | error refusal => rw [RegistryBuilder.build, hbuilt]; rfl
  | ok built =>
    have happended := assertAppendOnly_eq_ok (u := ()).mpr
      (h.reload hprevious henvironment hbuilt).2
    rw [RegistryBuilder.build, hbuilt]
    by_cases hpublications : b.previous.publications = []
    · simp [hpublications, bind, Except.bind, pure, Except.pure]
    · simp [hpublications, happended, bind, Except.bind, pure, Except.pure]

end RegistryBuilder

/-! ## The history goes on -/

/-- The registry that the next one is built on. -/
theorem History.last {py : Python} {history : List VersionRegistry} (h : History py history) :
    let previous := history.getLast?.getD .empty
    (previous.versions.map (·.taskId)).Nodup ∧ (previous.Finite → previous.Readable py) := by
  cases hlast : history.getLast? with
  | none => exact ⟨List.nodup_nil, fun _ e he ↦ by cases he⟩
  | some previous =>
    have hvalid := h.valid (List.mem_of_getLast? hlast)
    exact ⟨(VersionRegistry.pairwise_lt_iff.mp hvalid.sortedVersions).2, hvalid.readable⟩

/-- Whatever is admitted and whatever states are set, the check of `build` against the registry
before never refuses, and what is built goes on with the history; no float of a policy is an
infinity. -/
theorem builder_extends_history {py : Python} {history : List VersionRegistry}
    (h : History py history) (hfinite : (history.getLast?.getD .empty).Finite) {i : Instance}
    {environment : Option EnvironmentIdentity} (henvironment : ∀ e ∈ environment, e.Readable py)
    {calls : List BuilderCall} {b : RegistryBuilder}
    (hb : RegistryBuilder.run py (history.getLast?.getD .empty) i environment calls = .ok b)
    (allowlistSha256 : Text) :
    b.build py allowlistSha256 = b.reload py allowlistSha256 ∧
      ∀ built, b.build py allowlistSha256 = .ok built → History py (history ++ [built]) := by
  obtain ⟨hdistinct, hreadable⟩ := h.last
  replace hreadable := hreadable hfinite
  obtain ⟨hinv, hprevious, hsame⟩ := RegistryBuilder.Inv.run hdistinct hb
  rw [← hprevious] at hreadable
  rw [← hsame] at henvironment
  have hbuild : b.build py allowlistSha256 = b.reload py allowlistSha256 :=
    hinv.build allowlistSha256 hreadable henvironment
  refine ⟨hbuild, fun built hbuilt ↦ ?_⟩
  obtain ⟨hload, happended⟩ := hinv.reload hreadable henvironment (hbuild.symm.trans hbuilt)
  refine ⟨fun r hr ↦ ?_, List.isChain_append.mpr ⟨h.appended, .singleton _, ?_⟩⟩
  · rcases List.mem_append.mp hr with hr | hr
    · exact h.loaded r hr
    · rw [List.mem_singleton.mp hr]
      exact hload
  · intro previous hlast current hcurrent
    rw [List.head?_cons, Option.mem_some_iff] at hcurrent
    rw [Option.mem_def] at hlast
    rw [hprevious, hlast, Option.getD_some, hcurrent] at happended
    exact assertAppendOnly_eq_ok.mpr happended


/-! ### A second instance -/

/-- The version is validated in the later instance. -/
def exampleRequest (state : Text) : AdmitRequest where
  taskId := exampleTaskId
  taskBundleSha256 := (exampleVersion false).taskBundleSha256
  provenance := v2Provenance
  theoremName := Allowlist.exampleName false
  mode := (exampleVersion false).mode
  tier := (exampleVersion false).tier
  location := (exampleVersion false).location
  state := state
  dependencyIdentitySha256 := (exampleVersion false).dependencyIdentitySha256
  buildProvenanceSha256 := some (Allowlist.exampleSha256 0x30)

/-- The version is held, admitted with a state that no registry may record, and admitted again. -/
def exampleCalls : List BuilderCall :=
  [.setState exampleTaskId (text "held"), .admitVersion (exampleRequest (text "paused")),
    .admitVersion (exampleRequest active)]

def exampleBuilder : RegistryBuilder where
  previous := exampleRegistry false
  inInstance := exampleInstance true
  environment := some exampleEnvironment
  versions := [exampleLegacy, exampleVersion true]

theorem exampleBuilder_reload :
    exampleBuilder.reload examplePython (Allowlist.exampleSha256 0x30) =
      .ok (exampleRegistry true) := by
  obtain ⟨content, hcontent, hload⟩ := exampleRegistry_loads true
  have hdigest : exampleEnvironment.sha256 examplePython = some (Allowlist.exampleSha256 0x30) := by
    decide +kernel
  have hassembled : { exampleBuilder.assembled (some (Allowlist.exampleSha256 0x30))
      (Allowlist.exampleSha256 0x30) with sha256 := Allowlist.exampleSha256 0x30 } =
        exampleRegistry true := by
    decide +kernel
  have hwritten : (exampleBuilder.assembled (some (Allowlist.exampleSha256 0x30))
      (Allowlist.exampleSha256 0x30)).toBytes = some content := by
    rw [← hcontent, ← hassembled]
    rfl
  refine bind_eq_ok.mpr ⟨some (Allowlist.exampleSha256 0x30), ?_,
    bind_eq_ok.mpr ⟨content, ?_, hload⟩⟩
  · exact bind_eq_ok.mpr ⟨_, need_eq_ok.mpr hdigest, rfl⟩
  · rw [hwritten]
    rfl

theorem builder_extends_history_example :
    History examplePython ([exampleRegistry false] ++ [exampleRegistry true]) := by
  have hhistory : History examplePython [exampleRegistry false] :=
    ⟨fun r hr ↦ exampleHistory.loaded r (by simp_all), .singleton _⟩
  have hfinite : (([exampleRegistry false] : List VersionRegistry).getLast?.getD .empty).Finite :=
    fun e he ↦ (exampleRegistry_readable false e he).finite
  have henvironment : ∀ e ∈ some exampleEnvironment, e.Readable examplePython := fun e he ↦ by
    cases he
    exact exampleEnvironment_readable
  have hb : RegistryBuilder.run examplePython (exampleRegistry false) (exampleInstance true)
      (some exampleEnvironment) exampleCalls = .ok exampleBuilder := by
    decide +kernel
  obtain ⟨hbuild, hhistory'⟩ := builder_extends_history hhistory hfinite henvironment hb
    (Allowlist.exampleSha256 0x30)
  exact hhistory' (exampleRegistry true) (hbuild.trans exampleBuilder_reload)

end Conjectures.Registry

import Conjectures.Registry.Routing
import Mathlib.Data.List.Chain

/-!
# Later registries

`assert_append_only`: a later registry adds, and takes nothing back.  Through any number of
releases a submission stays with the instance that accepted it.

What may change of a version is its state, and admissions of later publications may be added behind
those it has; its commitment stays.
-/

namespace Conjectures.Registry

open Lib

/-! ## The check -/

/-- What of a version is fixed when it is published. -/
def VersionRecord.SameCommitment (old new : VersionRecord) : Prop :=
  { new with state := old.state, admissions := old.admissions } = old

instance (old new : VersionRecord) : Decidable (old.SameCommitment new) :=
  inferInstanceAs (Decidable (_ = _))

/-- The admissions of a version are kept, and more are made by later publications only. -/
def VersionRecord.KeepsAdmissions (boundary : ℕ) (old new : VersionRecord) : Prop :=
  new.admissions.take old.admissions.length = old.admissions ∧
    ∀ a ∈ new.admissions.drop old.admissions.length, boundary < a.firstPublication

instance (boundary : ℕ) (old new : VersionRecord) : Decidable (old.KeepsAdmissions boundary new) :=
  inferInstanceAs (Decidable (_ ∧ _))

/-- `versions.get` -/
def VersionRegistry.version (r : VersionRegistry) (taskId : Text) : Option VersionRecord :=
  r.versions.find? (·.taskId = taskId)

/-- A version that was published before. -/
def assertVersion (previous current : VersionRegistry) (old : VersionRecord) :
    Except Refusal Unit := do
  let new ← need (current.version old.taskId)
    (.registry "a later registry dropped published version")
  require (old.SameCommitment new) (.registry "a later registry changed the commitment")
  require (old.KeepsAdmissions previous.publications.length new)
    (.registry "a later registry rewrote the admissions")

/-- `assert_append_only` -/
def assertAppendOnly (py : Python) (previous current : VersionRegistry) : Except Refusal Unit := do
  require (current.publications.take previous.publications.length = previous.publications)
    (.registry "a later registry rewrote or reordered publications")
  require (current.instances.take previous.instances.length = previous.instances)
    (.registry "a later registry rewrote or reordered instances")
  require (∀ e ∈ previous.environments, ∃ identity ∈ current.environments.lookup e.1,
    identity.Same py e.2) (.registry "a later registry removed or changed a published environment")
  let _ ← previous.versions.mapM (assertVersion previous current)
  require (∀ new ∈ current.versions, new.taskId ∉ previous.versions.map (·.taskId) →
    ∀ a ∈ new.admissions, previous.publications.length < a.firstPublication)
    (.registry "new version claims an admission in an earlier publication")

/-! ## What it asserts -/

/-- The later version is the one published before, with more admissions. -/
structure VersionRecord.Extends (boundary : ℕ) (old new : VersionRecord) : Prop where
  commitment : old.SameCommitment new
  admissions : old.admissions <+: new.admissions
  later : ∀ a ∈ new.admissions.drop old.admissions.length, boundary < a.firstPublication

structure AppendOnly (py : Python) (previous current : VersionRegistry) : Prop where
  publications : previous.publications <+: current.publications
  instances : previous.instances <+: current.instances
  environments : ∀ e ∈ previous.environments, ∃ identity ∈ current.environments.lookup e.1,
    identity.Same py e.2
  versions : ∀ old ∈ previous.versions, ∃ new ∈ current.version old.taskId,
    old.Extends previous.publications.length new
  fresh : ∀ new ∈ current.versions, new.taskId ∉ previous.versions.map (·.taskId) →
    ∀ a ∈ new.admissions, previous.publications.length < a.firstPublication

variable {py : Python} {previous current later r : VersionRegistry} {old new : VersionRecord}
  {boundary : ℕ}

theorem assertVersion_eq_ok {u : Unit} : assertVersion previous current old = .ok u ↔
    ∃ new ∈ current.version old.taskId, old.Extends previous.publications.length new := by
  simp only [assertVersion, bind_eq_ok, need_eq_ok, require_eq_ok, Option.mem_def]
  refine exists_congr fun new ↦ and_congr_right fun _ ↦ ?_
  constructor
  · rintro ⟨-, hcommitment, hkept, hlater⟩
    exact ⟨hcommitment, List.prefix_iff_eq_take.mpr hkept.symm, hlater⟩
  · rintro ⟨hcommitment, hkept, hlater⟩
    exact ⟨(), hcommitment, (List.prefix_iff_eq_take.mp hkept).symm, hlater⟩

theorem assertAppendOnly_eq_ok {u : Unit} :
    assertAppendOnly py previous current = .ok u ↔ AppendOnly py previous current := by
  have hversions : (∃ us, previous.versions.mapM (assertVersion previous current) = .ok us) ↔
      ∀ old ∈ previous.versions, ∃ new ∈ current.version old.taskId,
        old.Extends previous.publications.length new := by
    constructor
    · rintro ⟨us, hus⟩ old hold
      obtain ⟨u, -, hu⟩ := exists_mem_of_mapM hus hold
      exact assertVersion_eq_ok.mp hu
    · intro h
      exact exists_mapM fun old hold ↦ ⟨(), assertVersion_eq_ok.mpr (h old hold)⟩
  simp only [assertAppendOnly, bind_eq_ok, require_eq_ok]
  constructor
  · rintro ⟨-, hpublications, -, hinstances, -, henvironments, us, hus, hfresh⟩
    exact ⟨List.prefix_iff_eq_take.mpr hpublications.symm,
      List.prefix_iff_eq_take.mpr hinstances.symm, henvironments, hversions.mp ⟨us, hus⟩, hfresh⟩
  · intro h
    obtain ⟨us, hus⟩ := hversions.mpr h.versions
    exact ⟨(), (List.prefix_iff_eq_take.mp h.publications).symm, (),
      (List.prefix_iff_eq_take.mp h.instances).symm, (), h.environments, us, hus, h.fresh⟩

/-! ## Release after release -/

theorem VersionRecord.SameCommitment.taskId (h : old.SameCommitment new) :
    new.taskId = old.taskId := congrArg (·.taskId) h

theorem VersionRecord.SameCommitment.trans {new' : VersionRecord} (h : old.SameCommitment new)
    (h' : new.SameCommitment new') : old.SameCommitment new' := by
  unfold SameCommitment at *
  rw [← h, ← h']

/-- The key of an admission is fixed with its version. -/
theorem VersionRecord.SameCommitment.keyAt (h : old.SameCommitment new) (a : Admission) :
    new.keyAt a = old.keyAt a := by
  rw [← h]
  rfl

theorem VersionRecord.Extends.trans {boundary' : ℕ} {new' : VersionRecord}
    (hboundary : boundary ≤ boundary') (h : old.Extends boundary new)
    (h' : new.Extends boundary' new') : old.Extends boundary new' where
  commitment := h.commitment.trans h'.commitment
  admissions := h.admissions.trans h'.admissions
  later a ha := by
    obtain ⟨more, hmore⟩ := h.admissions
    obtain ⟨more', hmore'⟩ := h'.admissions
    have hlater := h.later
    have hlater' := h'.later
    rw [← hmore, List.drop_left] at hlater
    rw [← hmore', List.drop_left] at hlater'
    rw [← hmore', ← hmore, List.append_assoc, List.drop_left] at ha
    rcases List.mem_append.mp ha with ha | ha
    · exact hlater a ha
    · exact hboundary.trans_lt (hlater' a ha)

/-- An admission of the later version was there or is later. -/
theorem VersionRecord.Extends.mem (h : old.Extends boundary new) {a : Admission}
    (ha : a ∈ new.admissions) : a ∈ old.admissions ∨ boundary < a.firstPublication := by
  obtain ⟨more, hmore⟩ := h.admissions
  have hlater := h.later
  rw [← hmore, List.drop_left] at hlater
  rw [← hmore, List.mem_append] at ha
  exact ha.imp_right (hlater a)

/-- What is found under an id has that id. -/
theorem mem_of_find_taskId {versions : List VersionRecord} {taskId : Text}
    (h : versions.find? (·.taskId = taskId) = some new) : new ∈ versions ∧ new.taskId = taskId := by
  have htaskId := List.find?_some h
  exact ⟨List.mem_of_find?_eq_some h, of_decide_eq_true htaskId⟩

theorem VersionRegistry.Valid.version_self (hr : r.Valid py) (hnew : new ∈ r.versions) :
    r.version new.taskId = some new := by
  cases hfind : r.version new.taskId with
  | none => exact absurd (decide_eq_true rfl) (List.find?_eq_none.mp hfind new hnew)
  | some other =>
    obtain ⟨hother, htaskId⟩ := mem_of_find_taskId hfind
    rw [hr.version_unique hother hnew htaskId]

theorem AppendOnly.trans (hlater : later.Valid py) (h : AppendOnly py previous current)
    (h' : AppendOnly py current later) : AppendOnly py previous later where
  publications := h.publications.trans h'.publications
  instances := h.instances.trans h'.instances
  environments e he := by
    obtain ⟨identity, hidentity, hsame⟩ := h.environments e he
    obtain ⟨front, back, hrows, -⟩ := List.lookup_eq_some_iff.mp hidentity
    have hmem : (e.1, identity) ∈ current.environments := by
      rw [hrows]
      simp
    obtain ⟨identity', hidentity', hsame'⟩ := h'.environments _ hmem
    exact ⟨identity', hidentity', hsame'.trans hsame⟩
  versions old hold := by
    obtain ⟨new, hnew, hextends⟩ := h.versions old hold
    obtain ⟨hmem, htaskId⟩ := mem_of_find_taskId hnew
    obtain ⟨new', hnew', hextends'⟩ := h'.versions new hmem
    rw [htaskId] at hnew'
    exact ⟨new', hnew', hextends.trans h.publications.length_le hextends'⟩
  fresh new hnew hfresh a ha := by
    have hlength := h.publications.length_le
    by_cases hcurrent : new.taskId ∈ current.versions.map (·.taskId)
    · obtain ⟨middle, hmiddle, htaskId⟩ := List.mem_map.mp hcurrent
      obtain ⟨new', hnew', hextends⟩ := h'.versions middle hmiddle
      rw [htaskId, hlater.version_self hnew, Option.mem_some_iff] at hnew'
      subst hnew'
      rcases hextends.mem ha with ha | ha
      · exact h.fresh middle hmiddle (htaskId ▸ hfresh) a ha
      · exact hlength.trans_lt ha
    · exact hlength.trans_lt (h'.fresh new hnew hcurrent a ha)

/-- The admissions of the earlier registry are those of the later one that its publications made. -/
theorem AppendOnly.admissions_iff (hprevious : previous.Valid py) (hcurrent : current.Valid py)
    (h : AppendOnly py previous current) {i : Instance} {key : ServedKey} :
    (∃ old ∈ previous.versions, ∃ a ∈ old.admissions, a.inInstance = i ∧ key = old.keyAt a) ↔
      ∃ new ∈ current.versions, ∃ a ∈ new.admissions, a.inInstance = i ∧
        a.firstPublication ≤ previous.publications.length ∧ key = new.keyAt a := by
  constructor
  · rintro ⟨old, hold, a, ha, hi, rfl⟩
    obtain ⟨new, hnew, hextends⟩ := h.versions old hold
    refine ⟨new, (mem_of_find_taskId hnew).1, a, hextends.admissions.subset ha, hi,
      ((hprevious.versions old hold).admitted a ha).2.2, ?_⟩
    rw [hextends.commitment.keyAt]
  · rintro ⟨new, hnew, a, ha, hi, hle, rfl⟩
    have hold : new.taskId ∈ previous.versions.map (·.taskId) := by
      by_contra hfresh
      exact absurd (h.fresh new hnew hfresh a ha) (not_lt_of_ge hle)
    obtain ⟨old, hold, htaskId⟩ := List.mem_map.mp hold
    obtain ⟨new', hnew', hextends⟩ := h.versions old hold
    rw [htaskId, hcurrent.version_self hnew, Option.mem_some_iff] at hnew'
    subst hnew'
    refine ⟨old, hold, a, (hextends.mem ha).resolve_right (not_lt_of_ge hle), hi, ?_⟩
    rw [hextends.commitment.keyAt]

theorem AppendOnly.serves (hprevious : previous.Valid py) (hcurrent : current.Valid py)
    (h : AppendOnly py previous current) {i : Instance} {key : ServedKey}
    (hserves : Serves previous i key) : Serves current i key := by
  obtain ⟨hcommit, hadmitted⟩ := (serves_iff hprevious).mp hserves
  obtain ⟨new, hnew, a, ha, hi, -, hkey⟩ := (h.admissions_iff hprevious hcurrent).mp hadmitted
  exact (serves_iff hcurrent).mpr ⟨hcommit, new, hnew, a, ha, hi, hkey⟩

/-! ## Histories -/

/-- A valid registry that follows another. -/
def Follows (py : Python) (previous current : VersionRegistry) : Prop :=
  previous.Valid py ∧ current.Valid py ∧ AppendOnly py previous current

instance : Trans (Follows py) (Follows py) (Follows py) where
  trans h h' := ⟨h.1, h'.2.1, h.2.2.trans h'.2.1 h'.2.2⟩

/-- Registries that were loaded one after another, each held against the one before it. -/
structure History (py : Python) (history : List VersionRegistry) : Prop where
  loaded : ∀ r ∈ history, ∃ content, VersionRegistry.fromBytes py content = .ok r
  appended : history.IsChain fun previous current ↦ assertAppendOnly py previous current = .ok ()

variable {history : List VersionRegistry}

theorem History.valid (h : History py history) (hr : r ∈ history) : r.Valid py := by
  obtain ⟨content, hcontent⟩ := h.loaded r hr
  exact VersionRegistry.valid_of_fromBytes hcontent

/-- Each registry of a history follows every one before it. -/
theorem History.pairwise (h : History py history) : history.Pairwise (Follows py) := by
  have hchain : history.IsChain (Follows py) := h.appended.imp_of_mem_imp
    fun _ _ hr hr' happended ↦ ⟨h.valid hr, h.valid hr', assertAppendOnly_eq_ok.mp happended⟩
  exact hchain.pairwise

/-- Of two registries of a history one follows the other, or they are the same. -/
theorem History.comparable (h : History py history) {r' : VersionRegistry} (hr : r ∈ history)
    (hr' : r' ∈ history) : r = r' ∨ Follows py r r' ∨ Follows py r' r := by
  have hsymm : Std.Symm fun r r' : VersionRegistry ↦ r = r' ∨ Follows py r r' ∨ Follows py r' r :=
    ⟨fun _ _ h ↦ h.elim (fun h ↦ .inl h.symm) fun h ↦ .inr h.symm⟩
  have hpairwise := h.pairwise.imp fun {r r'} (h : Follows py r r') ↦
    (.inr (.inl h) : r = r' ∨ Follows py r r' ∨ Follows py r' r)
  exact hpairwise.forall_of_forall (fun _ _ ↦ .inl rfl) hr hr'

/-- Whatever is released, a submission that two workers may claim by any two registries of one
history is served by one instance, up to a collision for the theorem of its task. -/
theorem submission_keeps_its_instance (h : History py history) {r' : VersionRegistry}
    (hr : r ∈ history) (hr' : r' ∈ history) {i i' : Instance} {key key' : ServedKey}
    (hserves : Serves r i key) (hserves' : Serves r' i' key') (hclaim : key.claim = key'.claim) :
    i = i' ∧ key = key' ∨ ∃ later ∈ [r, r'],
      CollideFor py later key.taskId i.repositoryCommit i'.repositoryCommit := by
  rcases h.comparable hr hr' with rfl | hfollows | hfollows
  · have hunique := serves_unique (h.valid hr) hserves hserves' hclaim
    exact hunique.imp_right fun hcollide ↦ ⟨r, by simp, hcollide⟩
  · have hlater := hfollows.2.2.serves hfollows.1 hfollows.2.1 hserves
    have hunique := serves_unique hfollows.2.1 hlater hserves' hclaim
    exact hunique.imp_right fun hcollide ↦ ⟨r', by simp, hcollide⟩
  · have hlater := hfollows.2.2.serves hfollows.1 hfollows.2.1 hserves'
    have hunique := serves_unique hfollows.2.1 hserves hlater hclaim
    exact hunique.imp_right fun hcollide ↦ ⟨r, by simp, hcollide⟩

/-- What an instance served is read off any later registry: it is what the publications up to then
had admitted, by the same keys. -/
theorem served_is_fixed {front back : List VersionRegistry}
    (h : History py (front ++ r :: back)) {r' : VersionRegistry} (hr' : r' ∈ back) {i : Instance}
    {key : ServedKey} : Serves r i key ↔ ∃ record ∈ r'.versions, ∃ a ∈ record.admissions,
      a.inInstance = i ∧ a.firstPublication ≤ r.publications.length ∧ key = record.keyAt a := by
  have hpairwise := (List.pairwise_append.mp h.pairwise).2.1
  obtain ⟨hprevious, hcurrent, happended⟩ := (List.pairwise_cons.mp hpairwise).1 r' hr'
  rw [serves_iff hprevious, ← happended.admissions_iff hprevious hcurrent]
  refine and_iff_right_of_imp ?_
  rintro ⟨old, hold, a, ha, rfl, -⟩
  exact (hprevious.instances _ ((hprevious.versions old hold).admitted a ha).1).1

/-! ### Two publications -/

theorem exampleHistory : History examplePython [exampleRegistry false, exampleRegistry true] where
  loaded r hr := by
    simp only [List.mem_cons, List.not_mem_nil, or_false] at hr
    rcases hr with rfl | rfl
    · obtain ⟨b, -, hload⟩ := exampleRegistry_loads false
      exact ⟨b, hload⟩
    · obtain ⟨b, -, hload⟩ := exampleRegistry_loads true
      exact ⟨b, hload⟩
  appended := by
    have happended : assertAppendOnly examplePython (exampleRegistry false)
        (exampleRegistry true) = .ok () := by decide +kernel
    simpa using happended

theorem example_serves (later : Bool) : Serves (exampleRegistry later) (exampleInstance false)
    ((exampleVersion false).keyAt (exampleAdmission false)) :=
  (serves_iff (exampleRegistry_valid later)).mpr ⟨by decide +kernel, exampleVersion later,
    by simp [exampleRegistry], exampleAdmission false, List.mem_cons_self, rfl, rfl⟩

theorem submission_keeps_its_instance_example :
    Serves (exampleRegistry true) (exampleInstance false)
        ((exampleVersion false).keyAt (exampleAdmission false)) ∧
      ∀ i key, Serves (exampleRegistry true) i key →
        key.claim = ((exampleVersion false).keyAt (exampleAdmission false)).claim →
        i = exampleInstance false := by
  refine ⟨example_serves true, fun i key hserves hclaim ↦ ?_⟩
  rcases submission_keeps_its_instance exampleHistory List.mem_cons_self (by simp)
    (example_serves false) hserves hclaim.symm with ⟨hsame, -⟩ | ⟨_, -, hne, _, -, -, hcollide⟩
  · exact hsame.symm
  · exact absurd (example_apart hcollide) hne

/-- The later instance serves nothing before it is published. -/
theorem served_is_fixed_example :
    Serves (exampleRegistry false) (exampleInstance false)
        ((exampleVersion false).keyAt (exampleAdmission false)) ∧
      ∀ key, ¬ Serves (exampleRegistry false) (exampleInstance true) key := by
  have hhistory : History examplePython ([] ++ exampleRegistry false :: [exampleRegistry true]) :=
    exampleHistory
  have hlater : exampleRegistry true ∈ [exampleRegistry true] := List.mem_cons_self
  have hversion : exampleVersion true ∈ (exampleRegistry true).versions := by
    simp [exampleRegistry]
  refine ⟨(served_is_fixed hhistory hlater).mpr ⟨_, hversion, exampleAdmission false,
    List.mem_cons_self, rfl, le_rfl, rfl⟩, fun key hserves ↦ ?_⟩
  obtain ⟨record, hrecord, a, ha, hinstance, hpublication, -⟩ :=
    (served_is_fixed hhistory hlater).mp hserves
  have hnone : ∀ record ∈ (exampleRegistry true).versions, ∀ a ∈ record.admissions,
      a.inInstance = exampleInstance true →
        ¬ a.firstPublication ≤ (exampleRegistry false).publications.length := by
    decide +kernel
  exact hnone record hrecord a ha hinstance hpublication

end Conjectures.Registry

import Conjectures.Registry.Builder

/-!
# Release after release

Registries that are built one on the other, the first on the empty one.  Each build appends one
publication and takes nothing back, and what it admits is dated to that publication, of the same
instance.

A registry is read back from its bytes as it was, but for the digest of the bytes it is read from,
which is no part of what is written.  No float of a policy is an infinity here: Python writes one as
`Infinity`, which is no JSON.
-/

namespace Conjectures.Registry

open Lib Lib.Json

/-! ## Admissions of a builder -/

namespace RegistryBuilder

variable {py : Python} {b b' : RegistryBuilder} {record : VersionRecord}

/-- The admission was there before, or it is made for the next publication. -/
def Dated (b : RegistryBuilder) (taskId : Text) (a : Admission) : Prop :=
  (∃ old ∈ b.previous.versions, old.taskId = taskId ∧ a ∈ old.admissions) ∨
    a.inInstance = b.inInstance ∧ a.firstPublication = b.sequence

def AllDated (b : RegistryBuilder) : Prop :=
  ∀ record ∈ b.versions, ∀ a ∈ record.admissions, b.Dated record.taskId a

theorem AllDated.put (h : b.AllDated) (hrecord : ∀ a ∈ record.admissions, b.Dated record.taskId a) :
    (b.put record).AllDated := by
  intro new hnew a ha
  obtain ⟨other, hother, rfl⟩ := List.mem_map.mp hnew
  by_cases heq : other.taskId = record.taskId
  · rw [if_pos heq] at ha ⊢
    exact hrecord a ha
  · rw [if_neg heq] at ha ⊢
    exact h other hother a ha

theorem AllDated.setState {taskId state : Text} (h : b.AllDated)
    (hb' : b.setState taskId state = .ok b') :
    b'.AllDated ∧ b'.previous = b.previous ∧ b'.inInstance = b.inInstance := by
  simp only [RegistryBuilder.setState, bind_eq_ok, require_eq_ok, need_eq_ok, pure, Except.pure,
    Except.ok.injEq] at hb'
  obtain ⟨-, -, existing, hexisting, rfl⟩ := hb'
  exact ⟨h.put (h existing (mem_of_find_taskId hexisting).1), rfl, rfl⟩

theorem AllDated.admitVersion {request : AdmitRequest} (h : b.AllDated)
    (hb' : b.admitVersion py request = .ok b') :
    b'.AllDated ∧ b'.previous = b.previous ∧ b'.inInstance = b.inInstance := by
  simp only [RegistryBuilder.admitVersion, bind_eq_ok, need_eq_ok] at hb'
  obtain ⟨problemId, -, hb'⟩ := hb'
  cases hversion : b.version request.taskId with
  | none =>
    rw [hversion] at hb'
    cases hb'
    refine ⟨fun new hnew a ha ↦ ?_, rfl, rfl⟩
    rcases List.mem_append.mp hnew with hmem | hmem
    · exact h new hmem a ha
    · rw [List.mem_singleton.mp hmem] at ha
      rw [List.mem_singleton.mp ha]
      exact .inr ⟨rfl, rfl⟩
  | some existing =>
    rw [hversion] at hb'
    simp only [bind_eq_ok, require_eq_ok, pure, Except.pure, Except.ok.injEq] at hb'
    obtain ⟨-, -, -, -, rfl⟩ := hb'
    have hexisting := h existing (mem_of_find_taskId hversion).1
    refine ⟨h.put fun a ha ↦ ?_, rfl, rfl⟩
    dsimp only at ha ⊢
    split at ha
    · exact hexisting a ha
    · rcases List.mem_append.mp ha with ha | ha
      · exact hexisting a ha
      · rw [List.mem_singleton.mp ha]
        exact .inr ⟨rfl, rfl⟩

theorem AllDated.step {call : BuilderCall} (h : b.AllDated) (hb' : b.step py call = .ok b') :
    b'.AllDated ∧ b'.previous = b.previous ∧ b'.inInstance = b.inInstance := by
  cases call with
  | admitVersion request => exact h.admitVersion hb'
  | setState taskId state => exact h.setState hb'

/-- Whatever is called, what was not admitted before is dated to the next publication. -/
theorem AllDated.run {previous : VersionRegistry} {i : Instance}
    {environment : Option EnvironmentIdentity} {calls : List BuilderCall}
    (hb : RegistryBuilder.run py previous i environment calls = .ok b) :
    b.AllDated ∧ b.previous = previous ∧ b.inInstance = i := by
  simp only [RegistryBuilder.run, bind_eq_ok] at hb
  obtain ⟨start, hstart, hb⟩ := hb
  simp only [RegistryBuilder.start, bind_eq_ok, require_eq_ok, pure, Except.pure,
    Except.ok.injEq] at hstart
  obtain ⟨-, -, -, -, -, -, rfl⟩ := hstart
  refine foldlM_invariant (P := fun b ↦ b.AllDated ∧ b.previous = previous ∧ b.inInstance = i)
    (fun call _ b b' hkept hb' ↦ ?_) ⟨fun old hold a ha ↦ .inl ⟨old, hold, rfl, ha⟩, rfl, rfl⟩ hb
  obtain ⟨hdated, hprevious, hinstance⟩ := hkept
  obtain ⟨hdated', hprevious', hinstance'⟩ := hdated.step hb'
  exact ⟨hdated', hprevious'.trans hprevious, hinstance'.trans hinstance⟩

end RegistryBuilder

/-! ## One release -/

/-- What a build makes of the registry before it. -/
structure Released (py : Python) (previous : VersionRegistry) (i : Instance)
    (allowlistSha256 : Text) (built : VersionRegistry) : Prop where
  valid : built.Valid py
  publications : built.publications =
    previous.publications ++ [⟨previous.publications.length + 1, i, allowlistSha256⟩]
  appended : assertAppendOnly py previous built = .ok ()
  /-- a new admission names a publication of its instance -/
  dated : ∀ record ∈ built.versions, ∀ a ∈ record.admissions,
    (∃ old ∈ previous.versions, old.taskId = record.taskId ∧ a ∈ old.admissions) ∨
      ∃ p ∈ built.publications, p.sequence = a.firstPublication ∧ p.forInstance = a.inInstance

variable {py : Python} {previous built : VersionRegistry} {i : Instance}
  {environment : Option EnvironmentIdentity} {calls : List BuilderCall} {b : RegistryBuilder}
  {allowlistSha256 : Text}

/-- What is built is what was assembled, read back. -/
theorem RegistryBuilder.build_eq_ok (hreadable : b.previous.Readable py)
    (henvironment : ∀ e ∈ b.environment, e.Readable py)
    (hbuilt : b.build py allowlistSha256 = .ok built) :
    ∃ digest sha256, (b.assembled digest allowlistSha256).Readable py ∧
      b.reload py allowlistSha256 = .ok built ∧
      built = { (b.assembled digest allowlistSha256).sorted with sha256 } := by
  have hreload : b.reload py allowlistSha256 = .ok built := by
    simp only [RegistryBuilder.build, bind_eq_ok] at hbuilt
    obtain ⟨built', hreload, hbuilt⟩ := hbuilt
    rw [hreload]
    split at hbuilt
    · obtain ⟨-, -, hbuilt⟩ := bind_eq_ok.mp hbuilt
      exact hbuilt
    · exact hbuilt
  have hread := hreload
  simp only [RegistryBuilder.reload, bind_eq_ok, need_eq_ok] at hread
  obtain ⟨digest, -, content, hcontent, hload⟩ := hread
  have hassembled : (b.assembled digest allowlistSha256).Readable py :=
    assembled_readable hreadable henvironment
  obtain ⟨-, heq⟩ := (VersionRegistry.fromBytes_toBytes hassembled hcontent).mp hload
  exact ⟨digest, _, hassembled, hreload, heq⟩

theorem released (hdistinct : (previous.versions.map (·.taskId)).Nodup)
    (hreadable : previous.Readable py) (henvironment : ∀ e ∈ environment, e.Readable py)
    (hb : RegistryBuilder.run py previous i environment calls = .ok b)
    (hbuilt : b.build py allowlistSha256 = .ok built) :
    Released py previous i allowlistSha256 built ∧ built.Readable py := by
  obtain ⟨hdated, -, hinstance⟩ := RegistryBuilder.AllDated.run hb
  obtain ⟨hinv, hprevious, hsame⟩ := RegistryBuilder.Inv.run hdistinct hb
  subst hprevious hsame hinstance
  obtain ⟨digest, sha256, hassembled, hreload, heq⟩ :=
    RegistryBuilder.build_eq_ok hreadable henvironment hbuilt
  obtain ⟨⟨content, hload⟩, happended⟩ := hinv.reload hreadable henvironment hreload
  have hpublications : built.publications = b.previous.publications ++
      [⟨b.previous.publications.length + 1, b.inInstance, allowlistSha256⟩] := by
    rw [heq]
    rfl
  refine ⟨⟨VersionRegistry.valid_of_fromBytes hload, hpublications,
    assertAppendOnly_eq_ok.mpr happended, fun record hrecord a ha ↦ ?_⟩, ?_⟩
  · rw [heq] at hrecord
    have hmem : record ∈ b.versions := (VersionRegistry.sorted_versions_perm _).mem_iff.trans
      (List.perm_insertionSort _ _).mem_iff |>.mp hrecord
    rcases hdated record hmem a ha with hold | ⟨hinstance, hsequence⟩
    · exact .inl hold
    · refine .inr ⟨⟨b.previous.publications.length + 1, b.inInstance, allowlistSha256⟩, ?_,
        hsequence.symm, hinstance.symm⟩
      rw [hpublications]
      exact List.mem_append_right _ List.mem_cons_self
  · rw [heq]
    exact hassembled.sorted

/-! ## From the empty registry -/

/-- A registry that was built on the empty one, release after release. -/
inductive BuiltUp (py : Python) : VersionRegistry → Prop
  | empty : BuiltUp py .empty
  | release {previous built : VersionRegistry} {i : Instance}
    {environment : Option EnvironmentIdentity} {calls : List BuilderCall} {b : RegistryBuilder}
    {allowlistSha256 : Text} (h : BuiltUp py previous)
    (henvironment : ∀ e ∈ environment, e.Readable py)
    (hrun : RegistryBuilder.run py previous i environment calls = .ok b)
    (hbuilt : b.build py allowlistSha256 = .ok built) : BuiltUp py built

theorem VersionRegistry.Valid.distinct_taskIds {r : VersionRegistry} (hr : r.Valid py) :
    (r.versions.map (·.taskId)).Nodup := (VersionRegistry.pairwise_lt_iff.mp hr.sortedVersions).2

theorem BuiltUp.sound {r : VersionRegistry} (h : BuiltUp py r) :
    (r = .empty ∨ r.Valid py) ∧ (r.versions.map (·.taskId)).Nodup ∧ r.Readable py := by
  induction h with
  | empty => exact ⟨.inl rfl, List.nodup_nil, fun e he ↦ by cases he⟩
  | release _ henvironment hrun hbuilt ih =>
    obtain ⟨-, hdistinct, hreadable⟩ := ih
    obtain ⟨hreleased, hreadable'⟩ := released hdistinct hreadable henvironment hrun hbuilt
    exact ⟨.inr hreleased.valid, hreleased.valid.distinct_taskIds, hreadable'⟩

/-- **The codec and the builder.** What is written of a valid registry is read back as that
registry, but for the digest of the bytes; what is built on the empty registry, release after
release, is valid; and each build appends one publication, takes nothing back, and dates what it
admits to a publication of the same instance. -/
theorem registry_round_trips (py : Python) :
    (∀ (r : VersionRegistry) b, r.Valid py → r.Finite → r.toBytes = some b →
      VersionRegistry.fromBytes py b = .ok { r with sha256 := py.sha256Bytes b }) ∧
    (∀ r, BuiltUp py r → r = .empty ∨ r.Valid py) ∧
    ∀ previous i environment calls b allowlistSha256 built, BuiltUp py previous →
      (∀ e ∈ environment, EnvironmentIdentity.Readable py e) →
      RegistryBuilder.run py previous i environment calls = .ok b →
      b.build py allowlistSha256 = .ok built → Released py previous i allowlistSha256 built := by
  refine ⟨fun r b hr hfinite hb ↦ ?_, fun r h ↦ h.sound.1, ?_⟩
  · rw [VersionRegistry.fromBytes_toBytes (hr.readable hfinite) hb, hr.sorted_eq]
    exact ⟨hr, rfl⟩
  · intro previous i environment calls b allowlistSha256 built h henvironment hrun hbuilt
    obtain ⟨-, hdistinct, hreadable⟩ := h.sound
    exact (released hdistinct hreadable henvironment hrun hbuilt).1

/-- The digest of the bytes is not read back.  Here it is missing, as where a registry is
assembled. -/
theorem rewritten_with_digest : ∃ (r : VersionRegistry) (b : ByteArray), r.Valid examplePython ∧
    r.Finite ∧ r.toBytes = some b ∧ VersionRegistry.fromBytes examplePython b ≠ .ok r := by
  obtain ⟨b, hb, hload⟩ := exampleRegistry_loads true
  refine ⟨{ exampleRegistry true with sha256 := [] }, b, (exampleRegistry_valid true).digest [],
    fun e he ↦ (exampleRegistry_readable true e he).finite, hb, fun hread ↦ ?_⟩
  have heq := Except.ok.inj (hload.symm.trans hread)
  exact absurd (congrArg (·.sha256) heq) (by decide)

/-! ### The first release -/

def exampleFirst : VersionRegistry where
  environments := []
  instances := [exampleOrigin]
  publications := [⟨1, exampleOrigin, Allowlist.exampleSha256 0x30⟩]
  versions := [exampleLegacy]
  sha256 := Allowlist.exampleSha256 0x30

def exampleFirstCalls : List BuilderCall :=
  [.admitVersion {
    taskId := exampleLegacy.taskId
    taskBundleSha256 := exampleLegacy.taskBundleSha256
    provenance := legacyProvenance
    theoremName := Allowlist.exampleName false
    mode := exampleLegacy.mode
    tier := exampleLegacy.tier
    location := exampleLegacy.location
    state := active
    dependencyIdentitySha256 := none
    buildProvenanceSha256 := none },
    .setState exampleLegacy.taskId (text "superseded")]

def exampleFirstBuilder : RegistryBuilder where
  previous := .empty
  inInstance := exampleOrigin
  environment := none
  versions := [exampleLegacy]

theorem exampleFirst_valid : exampleFirst.Valid examplePython where
  environments e he := by cases he
  sortedEnvironments := .nil
  instances i hi := by
    obtain rfl := List.mem_singleton.mp hi
    exact ⟨by decide +kernel, by decide⟩
  distinctInstances := List.nodup_singleton _
  published := ⟨_, rfl, by decide +kernel, by decide +kernel⟩
  sequence := rfl
  allowlists := by decide +kernel
  listed := by decide +kernel
  introduced := by decide +kernel
  versions record hrecord := by
    obtain rfl := List.mem_singleton.mp hrecord
    exact
      { digest := by decide +kernel
        theorems := ⟨_, by decide +kernel, rfl, rfl⟩
        state := by decide
        location := by decide +kernel
        admissions := List.cons_ne_nil _ _
        admitted := by decide +kernel
        problemIds := by decide +kernel
        distinct := List.nodup_singleton _
        inOrder := List.pairwise_singleton _ _
        bound := .inl ⟨rfl, {
          taskId := by decide +kernel
          environment := rfl
          dependency := rfl
          location := by decide +kernel
          admissions := rfl
          embeds := by decide +kernel
          provenance := by decide +kernel }⟩ }
  sortedVersions := List.pairwise_singleton _ _
  bundles := List.nodup_singleton _

theorem registry_round_trips_example :
    Released examplePython .empty exampleOrigin (Allowlist.exampleSha256 0x30) exampleFirst := by
  obtain ⟨hrewritten, -, hreleased⟩ := registry_round_trips examplePython
  have hplain : PlainTexts exampleFirst.json := by decide +kernel
  obtain ⟨cs, hcs, -⟩ := pretty_plain hplain
  have hb : exampleFirst.toBytes = some (encode cs) := by
    rw [VersionRegistry.toBytes, exampleFirst_valid.sorted_eq, hcs]
    rfl
  have hrun : RegistryBuilder.run examplePython .empty exampleOrigin none exampleFirstCalls =
      .ok exampleFirstBuilder := by
    decide +kernel
  have hassembled : { exampleFirstBuilder.assembled none (Allowlist.exampleSha256 0x30) with
      sha256 := Allowlist.exampleSha256 0x30 } = exampleFirst := by
    decide +kernel
  have hcontent : (exampleFirstBuilder.assembled none (Allowlist.exampleSha256 0x30)).toBytes =
      some (encode cs) := by
    rw [← hb, ← hassembled]
    rfl
  have hload := hrewritten exampleFirst _ exampleFirst_valid (fun e he ↦ by cases he) hb
  refine hreleased .empty exampleOrigin none exampleFirstCalls exampleFirstBuilder _ _ .empty
    (fun e he ↦ by cases he) hrun ?_
  refine bind_eq_ok.mpr ⟨exampleFirst, bind_eq_ok.mpr ⟨none, rfl, bind_eq_ok.mpr ⟨encode cs, ?_,
    hload⟩⟩, rfl⟩
  rw [hcontent]
  rfl

end Conjectures.Registry

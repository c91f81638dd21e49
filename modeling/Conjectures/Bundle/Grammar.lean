import Conjectures.Bundle.Manifest

/-!
# The grammar of manifests

What `docs/SUBMISSION_BUNDLE.md` says a manifest is, which of the texts that are admitted are
manifests, and that a manifest is read back from its canonical bytes.

A text is admitted where it is JSON of an object of that grammar, or of one in which a `null` stands
for a field that may be missing.  Archives, compression and the file of the proof are not looked at
here.
-/

namespace Conjectures.Bundle

open Lib Lib.Json

/-! ## Members -/

/-- In an object the value of a key is its member's. -/
theorem lookup_eq_some {ms : List (Text × Json)} (hkeys : (ms.map Prod.fst).Nodup) {k : Text}
    {v : Json} : ms.lookup k = some v ↔ (k, v) ∈ ms := by
  induction ms with
  | nil => simp
  | cons m ms ih =>
    obtain ⟨k', v'⟩ := m
    rw [List.map_cons, List.nodup_cons] at hkeys
    rw [List.lookup_cons, List.mem_cons, Prod.mk.injEq]
    by_cases hk : k = k'
    · subst hk
      have hnot : (k, v) ∉ ms := fun h ↦ hkeys.1 (List.mem_map.mpr ⟨_, h, rfl⟩)
      simp [hnot, eq_comm]
    · rw [beq_eq_false_iff_ne.mpr hk]
      simpa [hk] using ih hkeys.2

theorem get_of_mem {ms : List (Text × Json)} (hkeys : (ms.map Prod.fst).Nodup) {k : Text}
    {v : Json} (h : (k, v) ∈ ms) : get ms k = v := by
  rw [get, (lookup_eq_some hkeys).mpr h, Option.getD_some]

theorem get_of_absent {ms : List (Text × Json)} {k : Text} (h : k ∉ ms.map Prod.fst) :
    get ms k = .null := by
  have hnone : ms.lookup k = none := by
    rw [List.lookup_eq_none_iff]
    rintro ⟨k', v⟩ hm
    rw [bne_iff_ne]
    rintro rfl
    exact h (List.mem_map.mpr ⟨_, hm, rfl⟩)
  rw [get, hnone, Option.getD_none]

/-- What is got is the value of a member, or null. -/
theorem get_mem {ms : List (Text × Json)} (hkeys : (ms.map Prod.fst).Nodup) (k : Text) :
    (k, get ms k) ∈ ms ∨ k ∉ ms.map Prod.fst ∧ get ms k = .null := by
  by_cases hk : k ∈ ms.map Prod.fst
  · obtain ⟨⟨k, v⟩, hm, rfl⟩ := List.mem_map.mp hk
    exact .inl (get_of_mem hkeys hm ▸ hm)
  · exact .inr ⟨hk, get_of_absent hk⟩

/-! ## The documented form -/

/-- The values a field may have. -/
def Field.Form : Field → Json → Prop
  | schemaVersion, v => v = .int bundleSchemaVersion
  | format, v => v = .string bundleFormat
  | taskId, v => ∃ s, v = .string s ∧ IsTaskId s
  | taskBundleSha256, v => ∃ s, v = .string s ∧ IsSha256 s
  | proofPath, v => v = .string proofName
  | proofSha256, v => ∃ s, v = .string s ∧ IsSha256 s
  | proofBytes, v => ∃ n, v = .int n ∧ 0 < n ∧ n ≤ maxSubmissionBytes
  | minerColdkey, v => ∃ s, v = .string s ∧ IsSs58Address s
  | solver, v => ∃ members name version, v = .object members ∧
      (∀ m ∈ members, m.1 = nameKey ∨ m.1 = versionKey) ∧
      (nameKey, .string name) ∈ members ∧ (versionKey, .string version) ∈ members ∧
      IsSolverToken name ∧ IsSolverToken version

/-- Every member is a field of its form, and only the optional fields may be absent. -/
structure ManifestForm (ms : List (Text × Json)) : Prop where
  each : ∀ k v, (k, v) ∈ ms → ∃ f : Field, f.key = k ∧ f.Form v
  required : ∀ f : Field, ¬ f.Optional → f.key ∈ ms.map Prod.fst

/-- The members of the object that these bytes are; no key is repeated. -/
def HasMembers (raw : ByteArray) (ms : List (Text × Json)) : Prop :=
  ∃ cs, raw = encode cs ∧ Document cs (.object ms)

/-- The bytes are a manifest as it is documented. -/
def Documented (raw : ByteArray) : Prop :=
  raw.size ≤ maxManifestBytes ∧ ∃ ms, HasMembers raw ms ∧ ManifestForm ms

/-- The member is an optional field that is given as null. -/
def NullOptional (m : Text × Json) : Prop :=
  (m.1 = Field.key .minerColdkey ∨ m.1 = Field.key .solver) ∧ m.2 = .null

instance : DecidablePred NullOptional
  | (_, .null) => decidable_of_iff (_ ∨ _) (and_iff_left rfl).symm
  | (_, .bool _) | (_, .int _) | (_, .float _) | (_, .string _) | (_, .array _)
  | (_, .object _) => isFalse (by rintro ⟨-, ⟨⟩⟩)

/-- The members without the optional fields that are null. -/
def supplied (ms : List (Text × Json)) : List (Text × Json) := ms.filter fun m ↦ ¬ NullOptional m

/-- The bytes are a manifest but for an optional field that is given as null. -/
def CrossedByNull (raw : ByteArray) : Prop :=
  raw.size ≤ maxManifestBytes ∧ ∃ ms, HasMembers raw ms ∧ ManifestForm (supplied ms) ∧
    ∃ m ∈ ms, NullOptional m

/-! ## What is admitted -/

theorem isSolver_of_reads {members : List (Text × Json)} {name version : Text}
    (hkeys : (members.map Prod.fst).Nodup) (h : SolverReads members name version) :
    Field.Form .solver (.object members) := by
  have hname := get_mem hkeys nameKey
  have hversion := get_mem hkeys versionKey
  rw [h.name.1] at hname
  rw [h.version.1] at hversion
  refine ⟨members, name, version, rfl, h.fields.1, ?_, ?_, h.name.2, h.version.2⟩
  · exact hname.resolve_right (by rintro ⟨-, ⟨⟩⟩)
  · exact hversion.resolve_right (by rintro ⟨-, ⟨⟩⟩)

theorem reads_of_isSolver {v : Json} (hkeyed : Keyed v) (h : Field.Form .solver v) :
    ∃ name version, solver v = .ok (name, version) := by
  obtain ⟨members, name, version, rfl, honly, hname, hversion, hn, hw⟩ := h
  have hkeys := hkeyed.1
  have hfields : SolverFields members := ⟨honly, List.mem_map.mpr ⟨_, hname, rfl⟩,
    List.mem_map.mpr ⟨_, hversion, rfl⟩⟩
  exact ⟨some name, some version, solver_eq_ok.mpr (.inr ⟨members, name, version, rfl,
    ⟨hfields, ⟨get_of_mem hkeys hname, hn⟩, get_of_mem hkeys hversion, hw⟩, rfl, rfl⟩)⟩

/-- A required field is no optional one that is null. -/
theorem mem_supplied_of_required {ms : List (Text × Json)} {f : Field} {v : Json}
    (hf : ¬ f.Optional) (h : (f.key, v) ∈ ms) : (f.key, v) ∈ supplied ms := by
  refine List.mem_filter.mpr ⟨h, decide_eq_true ?_⟩
  rintro ⟨hkey | hkey, -⟩
  · exact hf (.inl (Field.key_injective hkey))
  · exact hf (.inr (Field.key_injective hkey))

theorem mem_supplied {ms : List (Text × Json)} {m : Text × Json} :
    m ∈ supplied ms ↔ m ∈ ms ∧ ¬ NullOptional m := by
  rw [supplied, List.mem_filter, decide_eq_true_eq]

/-- The members that are read are of their forms, nulls apart. -/
theorem form_of_reads {ms : List (Text × Json)} {m : BundleManifest}
    (hkeyed : Keyed (.object ms)) (h : Reads ms m) : ManifestForm (supplied ms) := by
  refine ⟨fun k v hmem ↦ ?_, fun f hf ↦ ?_⟩
  · obtain ⟨hmem, hnull⟩ := mem_supplied.mp hmem
    obtain ⟨f, rfl⟩ := h.known k (List.mem_map.mpr ⟨_, hmem, rfl⟩)
    have hget := get_of_mem hkeyed.1 hmem
    refine ⟨f, rfl, ?_⟩
    cases f with
    | schemaVersion =>
      exact hget.symm.trans (h.schemaVersion.1.trans (congrArg _ h.schemaVersion.2))
    | format => exact hget.symm.trans (h.format.1.trans (congrArg _ h.format.2))
    | taskId => exact ⟨_, hget.symm.trans h.taskId.1, h.taskId.2⟩
    | taskBundleSha256 =>
      exact ⟨_, hget.symm.trans h.taskBundleSha256.1, h.taskBundleSha256.2⟩
    | proofPath => exact hget.symm.trans (h.proofPath.1.trans (congrArg _ h.proofPath.2))
    | proofSha256 => exact ⟨_, hget.symm.trans h.proofSha256.1, h.proofSha256.2⟩
    | proofBytes => exact ⟨_, hget.symm.trans h.proofBytes.1, h.proofBytes.2⟩
    | minerColdkey =>
      obtain ⟨haddress, hform⟩ := coldkey_eq_ok.mp h.minerColdkey
      rw [hget] at haddress
      cases hm : m.minerColdkey with
      | none => exact absurd ⟨.inl rfl, by rw [haddress, hm]; rfl⟩ hnull
      | some s => exact ⟨s, by rw [haddress, hm]; rfl, hform s hm⟩
    | solver =>
      have hsolver := solver_eq_ok.mp h.solver
      rw [hget] at hsolver
      rcases hsolver with ⟨rfl, -, -⟩ | ⟨members, name, version, rfl, hreads, -, -⟩
      · exact absurd ⟨.inr rfl, rfl⟩ hnull
      · exact isSolver_of_reads (keyedMembers_iff.mp hkeyed.2 _ hmem).1 hreads
  · obtain ⟨⟨k, v⟩, hmem, hk⟩ := List.mem_map.mp (h.complete f hf)
    obtain rfl : k = f.key := hk
    exact List.mem_map.mpr ⟨_, mem_supplied_of_required hf hmem, rfl⟩

/-- A required field is got with a value of its form. -/
theorem form_of_required {ms : List (Text × Json)} (hkeys : (ms.map Prod.fst).Nodup)
    (h : ManifestForm (supplied ms)) {f : Field} (hf : ¬ f.Optional) : f.Form (get ms f.key) := by
  obtain ⟨⟨k, v⟩, hmem, hk⟩ := List.mem_map.mp (h.required f hf)
  obtain rfl : k = f.key := hk
  obtain ⟨g, hkey, hform⟩ := h.each _ v hmem
  rw [get_of_mem hkeys (mem_supplied.mp hmem).1]
  exact Field.key_injective hkey ▸ hform

/-- An optional field is got with a value of its form, or as null. -/
theorem form_of_optional {ms : List (Text × Json)} (hkeys : (ms.map Prod.fst).Nodup)
    (h : ManifestForm (supplied ms)) (f : Field) :
    get ms f.key = .null ∨ f.Form (get ms f.key) ∧ (f.key, get ms f.key) ∈ ms := by
  rcases get_mem hkeys f.key with hmem | ⟨-, hnull⟩
  · by_cases hnull : NullOptional (f.key, get ms f.key)
    · exact .inl hnull.2
    · obtain ⟨g, hkey, hform⟩ := h.each _ _ (mem_supplied.mpr ⟨hmem, hnull⟩)
      exact .inr ⟨Field.key_injective hkey ▸ hform, hmem⟩
  · exact .inl hnull

/-- Members of their forms are read, nulls or not. -/
theorem reads_of_form {ms : List (Text × Json)} (hkeyed : Keyed (.object ms))
    (h : ManifestForm (supplied ms)) : ∃ m, Reads ms m := by
  have hkeys := hkeyed.1
  have hrequired := @form_of_required ms hkeys h
  obtain ⟨taskId, htaskId⟩ := @hrequired .taskId (by decide)
  obtain ⟨taskBundle, htaskBundle⟩ := @hrequired .taskBundleSha256 (by decide)
  obtain ⟨proofSha256, hproofSha256⟩ := @hrequired .proofSha256 (by decide)
  obtain ⟨proofBytes, hproofBytes⟩ := @hrequired .proofBytes (by decide)
  obtain ⟨address, haddress⟩ : ∃ address,
      coldkey (get ms (Field.key .minerColdkey)) = .ok address := by
    rcases form_of_optional hkeys h .minerColdkey with hnull | ⟨⟨s, hs, hform⟩, -⟩
    · exact ⟨none, coldkey_eq_ok.mpr ⟨hnull, by simp⟩⟩
    · exact ⟨some s, coldkey_eq_ok.mpr ⟨hs, by simpa using hform⟩⟩
  obtain ⟨name, version, hsolver⟩ : ∃ name version,
      solver (get ms (Field.key .solver)) = .ok (name, version) := by
    rcases form_of_optional hkeys h .solver with hnull | ⟨hform, hmem⟩
    · exact ⟨none, none, solver_eq_ok.mpr (.inl ⟨hnull, rfl, rfl⟩)⟩
    · exact reads_of_isSolver (keyedMembers_iff.mp hkeyed.2 _ hmem) hform
  refine ⟨⟨bundleSchemaVersion, bundleFormat, taskId, taskBundle, proofName, proofSha256,
    proofBytes, address, name, version⟩, ?_, ?_, ?_, ?_, htaskId, htaskBundle, ?_, hproofSha256,
    hproofBytes, haddress, hsolver⟩
  · intro k hk
    obtain ⟨m, hmem, rfl⟩ := List.mem_map.mp hk
    by_cases hnull : NullOptional m
    · exact hnull.1.elim (fun hkey ↦ ⟨_, hkey.symm⟩) fun hkey ↦ ⟨_, hkey.symm⟩
    · obtain ⟨f, hkey, -⟩ := h.each m.1 m.2 (mem_supplied.mpr ⟨hmem, hnull⟩)
      exact ⟨f, hkey⟩
  · intro f hf
    obtain ⟨m, hmem, hkey⟩ := List.mem_map.mp (h.required f hf)
    exact List.mem_map.mpr ⟨m, (mem_supplied.mp hmem).1, hkey⟩
  · exact ⟨@hrequired .schemaVersion (by decide), rfl⟩
  · exact ⟨@hrequired .format (by decide), rfl⟩
  · exact ⟨@hrequired .proofPath (by decide), rfl⟩

/-- The bytes that are admitted: a manifest, or one but for a null. -/
theorem accepts_iff {raw : ByteArray} : (∃ m, parseManifest raw = .ok m) ↔
    raw.size ≤ maxManifestBytes ∧ ∃ ms, HasMembers raw ms ∧ ManifestForm (supplied ms) := by
  constructor
  · rintro ⟨m, h⟩
    obtain ⟨hsize, ms, hms, hreads⟩ := parseManifest_eq_ok.mp h
    obtain ⟨cs, hraw, hdocument⟩ := strictJsonObject_eq_ok.mp hms
    exact ⟨hsize, ms, ⟨cs, hraw, hdocument⟩, form_of_reads hdocument.keyed hreads⟩
  · rintro ⟨hsize, ms, ⟨cs, hraw, hdocument⟩, hform⟩
    obtain ⟨m, hreads⟩ := reads_of_form hdocument.keyed hform
    exact ⟨m, parseManifest_eq_ok.mpr
      ⟨hsize, ms, strictJsonObject_eq_ok.mpr ⟨cs, hraw, hdocument⟩, hreads⟩⟩

/-- No field has null among its forms. -/
theorem Field.not_form_null (f : Field) : ¬ f.Form .null := by
  cases f <;> simp [Field.Form]

/-- A manifest has no null. -/
theorem ManifestForm.not_null {ms : List (Text × Json)} (h : ManifestForm ms) :
    ∀ m ∈ ms, ¬ NullOptional m := by
  rintro ⟨k, v⟩ hmem ⟨-, hv⟩
  obtain rfl : v = .null := hv
  obtain ⟨f, -, hform⟩ := h.each k _ hmem
  exact f.not_form_null hform

theorem supplied_eq_self {ms : List (Text × Json)} (h : ∀ m ∈ ms, ¬ NullOptional m) :
    supplied ms = ms :=
  List.filter_eq_self.mpr fun m hmem ↦ decide_eq_true (h m hmem)

theorem HasMembers.unique {raw : ByteArray} {ms ms' : List (Text × Json)} (h : HasMembers raw ms)
    (h' : HasMembers raw ms') : ms = ms' := by
  have hread := strictJsonObject_eq_ok.mpr h
  rw [strictJsonObject_eq_ok.mpr h'] at hread
  exact (Except.ok.inj hread).symm

/-- What is admitted is what is documented, unless a null stands for an optional field. -/
theorem accepts_iff_documented (raw : ByteArray) :
    ((∃ m, parseManifest raw = .ok m) ↔ Documented raw) ↔ ¬ CrossedByNull raw := by
  rw [accepts_iff]
  constructor
  · rintro h ⟨hsize, ms, hms, hform, hnull⟩
    obtain ⟨-, ms', hms', hform'⟩ := h.mp ⟨hsize, ms, hms, hform⟩
    obtain ⟨m, hmem, hm⟩ := hnull
    exact hform'.not_null m (hms.unique hms' ▸ hmem) hm
  · intro h
    constructor
    · rintro ⟨hsize, ms, hms, hform⟩
      have hnull : ∀ m ∈ ms, ¬ NullOptional m := fun m hmem hm ↦
        h ⟨hsize, ms, hms, hform, m, hmem, hm⟩
      exact ⟨hsize, ms, hms, supplied_eq_self hnull ▸ hform⟩
    · rintro ⟨hsize, ms, hms, hform⟩
      exact ⟨hsize, ms, hms, (supplied_eq_self hform.not_null).symm ▸ hform⟩

end Conjectures.Bundle

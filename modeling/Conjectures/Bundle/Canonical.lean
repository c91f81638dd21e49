import Conjectures.Bundle.Grammar

/-!
# Canonical manifests

A manifest of documented fields has canonical bytes, and they are read back as the manifest.

A manifest written with `null` in place of a field that may be missing is admitted as well, although
its documentation does not allow it (`null_address_admitted`); but for those, what is admitted is
what is documented (`manifests_parsed`).
-/

namespace Conjectures.Bundle

open Lib Lib.Json

variable {m : BundleManifest}

/-! ## The members of a manifest -/

/-- The members in the order of their keys. -/
def sorted (ms : List (Text × Json)) : List (Text × Json) :=
  (sortMembers ms).insertionSort fun m m' ↦ m.1 ≤ m'.1

theorem perm_sorted (ms : List (Text × Json)) :
    (sorted ms).Perm (ms.map fun m ↦ (m.1, m.2.sortKeys)) := by
  rw [← sortMembers_eq_map]
  exact List.perm_insertionSort _ _

theorem keys_sorted (ms : List (Text × Json)) :
    ((sorted ms).map Prod.fst).Perm (ms.map Prod.fst) := by
  refine ((perm_sorted ms).map Prod.fst).trans ?_
  rw [List.map_map]
  exact .refl _

/-- Sorting moves no value to another key. -/
theorem get_sorted {ms : List (Text × Json)} (hkeys : (ms.map Prod.fst).Nodup) {k : Text}
    {v : Json} (h : (k, v) ∈ ms) : get (sorted ms) k = v.sortKeys :=
  get_of_mem ((keys_sorted ms).nodup_iff.mpr hkeys)
    ((perm_sorted ms).mem_iff.mpr (List.mem_map.mpr ⟨_, h, rfl⟩))

theorem get_sorted_of_absent {ms : List (Text × Json)} {k : Text} (h : k ∉ ms.map Prod.fst) :
    get (sorted ms) k = .null :=
  get_of_absent fun hk ↦ h ((keys_sorted ms).mem_iff.mp hk)

/-- The manifest gives this field. -/
def BundleManifest.gives (m : BundleManifest) : Field → Bool
  | .minerColdkey => m.minerColdkey.isSome
  | .solver => m.solverName.isSome
  | _ => true

/-- The value that a manifest gives a field. -/
def BundleManifest.value (m : BundleManifest) : Field → Json
  | .schemaVersion => .int m.schemaVersion
  | .format => .string m.format
  | .taskId => .string m.taskId
  | .taskBundleSha256 => .string m.taskBundleSha256
  | .proofPath => .string m.proofPath
  | .proofSha256 => .string m.proofSha256
  | .proofBytes => .int m.proofBytes
  | .minerColdkey => orNull m.minerColdkey
  | .solver => .object [(nameKey, orNull m.solverName), (versionKey, orNull m.solverVersion)]

theorem members_eq (m : BundleManifest) :
    m.members = (Field.all.filter m.gives).map fun f ↦ (f.key, m.value f) := by
  rcases hcoldkey : m.minerColdkey with _ | coldkey <;>
    rcases hname : m.solverName with _ | name <;>
    simp [BundleManifest.members, BundleManifest.required, BundleManifest.coldkeyMember,
      BundleManifest.solverMember, BundleManifest.gives, BundleManifest.value, Field.all,
      List.filter_cons, orNull, hcoldkey, hname]

theorem mem_members {x : Text × Json} :
    x ∈ m.members ↔ ∃ f, m.gives f = true ∧ x = (f.key, m.value f) := by
  rw [members_eq, List.mem_map]
  constructor
  · rintro ⟨f, hf, rfl⟩
    exact ⟨f, (List.mem_filter.mp hf).2, rfl⟩
  · rintro ⟨f, hf, rfl⟩
    exact ⟨f, List.mem_filter.mpr ⟨f.mem_all, hf⟩, rfl⟩

theorem members_nodup (m : BundleManifest) : (m.members.map Prod.fst).Nodup := by
  have hall : Field.all.Nodup := by decide
  rw [members_eq, List.map_map]
  exact (hall.filter _).map fun _ _ ↦ Field.key_injective

theorem members_length (m : BundleManifest) : m.members.length ≤ 9 := by
  rw [members_eq, List.length_map]
  exact List.length_filter_le _ _

/-- A field that is given is got with its value, sorted. -/
theorem get_given {f : Field} (h : m.gives f = true) :
    get (sorted m.members) f.key = (m.value f).sortKeys :=
  get_sorted (members_nodup m) (mem_members.mpr ⟨f, h, rfl⟩)

theorem get_not_given {f : Field} (h : m.gives f = false) :
    get (sorted m.members) f.key = .null := by
  refine get_sorted_of_absent fun hmem ↦ ?_
  obtain ⟨x, hx, hkey⟩ := List.mem_map.mp hmem
  obtain ⟨g, hg, rfl⟩ := mem_members.mp hx
  rw [Field.key_injective hkey, h] at hg
  cases hg

/-! ## The texts of a manifest are plain -/

/-- The characters of the forms are plain. -/
theorem plain_of_class {c : ℕ}
    (h : isUpper c = true ∨ isLower c = true ∨ isDigit c = true ∨ c = 46 ∨ c = 95 ∨ c = 45) :
    32 ≤ c ∧ c < 127 ∧ c ≠ 0x22 ∧ c ≠ 0x5c := by
  simp only [isUpper, isLower, isDigit, Bool.and_eq_true, decide_eq_true_eq] at h
  omega

theorem IsTaskId.plain {s : Text} (h : IsTaskId s) : Plain s ∧ s.length ≤ 255 := by
  cases s with
  | nil => cases h
  | cons c s =>
    obtain ⟨hfirst, hlength, hrest⟩ := h
    refine ⟨fun d hd ↦ plain_of_class ?_, by rw [List.length_cons]; omega⟩
    rcases List.mem_cons.mp hd with rfl | hd
    · rw [Bool.or_eq_true] at hfirst
      tauto
    · have := hrest d hd
      simp only [Bool.or_eq_true, decide_eq_true_eq] at this
      tauto

theorem IsSha256.plain {s : Text} (h : IsSha256 s) : Plain s ∧ s.length ≤ 255 := by
  obtain ⟨hlength, htake, hdrop⟩ := h
  have hmark : Plain (text "sha256:") := by decide
  have hdigits : Plain (text "0123456789abcdef") := by decide
  refine ⟨fun c hc ↦ ?_, by omega⟩
  rw [← List.take_append_drop 7 s, List.mem_append, htake] at hc
  exact hc.elim (hmark c) fun hc ↦ hdigits c (hdrop c hc)

theorem IsSs58Address.plain {s : Text} (h : IsSs58Address s) : Plain s ∧ s.length ≤ 255 := by
  refine ⟨fun c hc ↦ plain_of_class ?_, by have := h.1; omega⟩
  have := h.2 c hc
  simp only [Bool.or_eq_true, Bool.and_eq_true] at this
  tauto

theorem IsSolverToken.plain {s : Text} (h : IsSolverToken s) : Plain s ∧ s.length ≤ 64 := by
  refine ⟨fun c hc ↦ plain_of_class ?_, h.2.1⟩
  have := h.2.2 c hc
  simp only [Bool.or_eq_true, decide_eq_true_eq] at this
  tauto

/-- A key is plain. -/
theorem Field.key_plain (f : Field) : Plain f.key ∧ f.key.length ≤ 18 := by
  cases f <;> decide

/-! ## A manifest is written and read back -/

/-- The solver of a manifest, as a value. -/
def solverValue (name version : Text) : Json :=
  .object [(nameKey, .string name), (versionKey, .string version)]

theorem solver_keys (name version : Text) :
    ([(nameKey, Json.string name), (versionKey, Json.string version)].map Prod.fst).Nodup := by
  change [nameKey, versionKey].Nodup
  decide

/-- What is written of the solver is read as the solver. -/
theorem solver_sorted {name version : Text} (hname : IsSolverToken name)
    (hversion : IsSolverToken version) :
    solver (solverValue name version).sortKeys = .ok (some name, some version) := by
  have hkeys := solver_keys name version
  have hperm := keys_sorted [(nameKey, Json.string name), (versionKey, Json.string version)]
  have hgetName : get (sorted [(nameKey, Json.string name), (versionKey, Json.string version)])
      nameKey = .string name := get_sorted hkeys List.mem_cons_self
  have hgetVersion : get (sorted [(nameKey, Json.string name), (versionKey, Json.string version)])
      versionKey = .string version := get_sorted hkeys (List.mem_cons_of_mem _ List.mem_cons_self)
  refine solver_eq_ok.mpr (.inr ⟨sorted _, name, version, rfl, ⟨⟨?_, ?_, ?_⟩,
    ⟨hgetName, hname⟩, hgetVersion, hversion⟩, rfl, rfl⟩)
  · intro x hx
    have hmem := hperm.mem_iff.mp (List.mem_map.mpr ⟨x, hx, rfl⟩)
    simpa using hmem
  · exact hperm.mem_iff.mpr (by simp)
  · exact hperm.mem_iff.mpr (by simp)

theorem writtenIn_plain {s : Text} {b : ℕ} (h : Plain s ∧ s.length ≤ b) :
    WrittenIn (.string s) (b + 2) :=
  (writtenIn_string h.1).mono (by have := h.2; omega)

theorem solver_written {name version : Text} (hname : IsSolverToken name)
    (hversion : IsSolverToken version) : WrittenIn (solverValue name version) 257 := by
  have hkeys : ∀ k ∈ [nameKey, versionKey], Plain k ∧ k.length ≤ 7 := by decide
  refine (writtenIn_object (a := 7) (b := 66) fun x hx ↦ ?_).mono (by simp)
  simp only [List.mem_cons, List.not_mem_nil, or_false] at hx
  rcases hx with rfl | rfl
  · obtain ⟨hplain, hlength⟩ := hkeys nameKey (by simp)
    exact ⟨hplain, hlength, writtenIn_plain hname.plain⟩
  · obtain ⟨hplain, hlength⟩ := hkeys versionKey (by simp)
    exact ⟨hplain, hlength, writtenIn_plain hversion.plain⟩

/-- Every value of a valid manifest is written, and is short. -/
theorem value_written (h : m.Valid) {f : Field} (hf : m.gives f = true) :
    WrittenIn (m.value f) 257 := by
  cases f with
  | schemaVersion =>
    rw [BundleManifest.value, h.schemaVersion]
    exact ⟨_, rfl, by decide⟩
  | format =>
    rw [BundleManifest.value, h.format]
    exact (writtenIn_string (by decide)).mono (by decide)
  | taskId => exact writtenIn_plain h.taskId.plain
  | taskBundleSha256 => exact writtenIn_plain h.taskBundleSha256.plain
  | proofPath =>
    rw [BundleManifest.value, h.proofPath]
    exact (writtenIn_string (by decide)).mono (by decide)
  | proofSha256 => exact writtenIn_plain h.proofSha256.plain
  | proofBytes =>
    obtain ⟨hpos, hmax⟩ := h.proofBytes
    have hlt : m.proofBytes < 10 ^ 8 := by
      simp only [maxSubmissionBytes] at hmax
      omega
    exact (writtenIn_int hpos.le (by decide) hlt).mono (by decide)
  | minerColdkey =>
    obtain ⟨address, haddress⟩ := Option.isSome_iff_exists.mp hf
    rw [BundleManifest.value, haddress]
    exact writtenIn_plain (h.minerColdkey address haddress).plain
  | solver =>
    obtain ⟨name, hname⟩ := Option.isSome_iff_exists.mp hf
    obtain ⟨version, hversion⟩ := Option.isSome_iff_exists.mp (h.solver.symm.trans hf)
    rw [BundleManifest.value, hname, hversion]
    exact solver_written (h.solverName name hname) (h.solverVersion version hversion)

theorem toDict_written (h : m.Valid) : WrittenIn m.toDict 2600 := by
  refine (writtenIn_object (a := 18) (b := 257) fun x hx ↦ ?_).mono ?_
  · obtain ⟨f, hf, rfl⟩ := mem_members.mp hx
    exact ⟨f.key_plain.1, f.key_plain.2, value_written h hf⟩
  · have := members_length m
    omega

theorem keyed_orNull (s : Option Text) : Keyed (orNull s) := by
  cases s <;> trivial

theorem toDict_keyed (m : BundleManifest) : Keyed m.toDict := by
  refine ⟨members_nodup m, keyedMembers_iff.mpr fun x hx ↦ ?_⟩
  obtain ⟨f, -, rfl⟩ := mem_members.mp hx
  cases f with
  | minerColdkey => exact keyed_orNull _
  | solver =>
    refine ⟨?_, keyed_orNull _, keyed_orNull _, trivial⟩
    change [nameKey, versionKey].Nodup
    decide
  | _ => trivial

theorem floats_orNull {p : List Char → Prop} (s : Option Text) : (orNull s).Floats p := by
  cases s <;> trivial

theorem toDict_floats {p : List Char → Prop} (m : BundleManifest) : m.toDict.Floats p := by
  refine floats_object.mpr fun x hx ↦ ?_
  obtain ⟨f, -, rfl⟩ := mem_members.mp hx
  cases f with
  | minerColdkey => exact floats_orNull _
  | solver => exact ⟨floats_orNull _, floats_orNull _, trivial⟩
  | _ => trivial

theorem coldkey_sorted (h : m.Valid) :
    coldkey (get (sorted m.members) (Field.key .minerColdkey)) = .ok m.minerColdkey := by
  refine coldkey_eq_ok.mpr ⟨?_, h.minerColdkey⟩
  cases hm : m.minerColdkey with
  | none => exact get_not_given (by rw [BundleManifest.gives, hm]; rfl)
  | some s =>
    rw [get_given (by rw [BundleManifest.gives, hm]; rfl), BundleManifest.value, hm]
    rfl

theorem solver_members_sorted (h : m.Valid) :
    solver (get (sorted m.members) (Field.key .solver)) =
      .ok (m.solverName, m.solverVersion) := by
  have hsolver := h.solver
  cases hname : m.solverName with
  | none =>
    rw [hname, Option.isSome_none, eq_comm, Option.isSome_eq_false_iff,
      Option.isNone_iff_eq_none] at hsolver
    rw [get_not_given (by rw [BundleManifest.gives, hname]; rfl), hsolver]
    rfl
  | some name =>
    rw [hname, Option.isSome_some, eq_comm, Option.isSome_iff_exists] at hsolver
    obtain ⟨version, hversion⟩ := hsolver
    rw [get_given (by rw [BundleManifest.gives, hname]; rfl), BundleManifest.value, hname,
      hversion]
    exact solver_sorted (h.solverName name hname) (h.solverVersion version hversion)

/-- What is written of a valid manifest is read as that manifest. -/
theorem reads_sorted (h : m.Valid) : Reads (sorted m.members) m where
  known k hk := by
    obtain ⟨x, hx, rfl⟩ := List.mem_map.mp ((keys_sorted m.members).mem_iff.mp hk)
    obtain ⟨f, -, rfl⟩ := mem_members.mp hx
    exact ⟨f, rfl⟩
  complete f hf := by
    have hgives : m.gives f = true := by
      cases f with
      | minerColdkey => exact absurd (.inl rfl) hf
      | solver => exact absurd (.inr rfl) hf
      | _ => rfl
    exact (keys_sorted m.members).mem_iff.mpr
      (List.mem_map.mpr ⟨_, mem_members.mpr ⟨f, hgives, rfl⟩, rfl⟩)
  schemaVersion := ⟨get_given rfl, h.schemaVersion⟩
  format := ⟨get_given rfl, h.format⟩
  taskId := ⟨get_given rfl, h.taskId⟩
  taskBundleSha256 := ⟨get_given rfl, h.taskBundleSha256⟩
  proofPath := ⟨get_given rfl, h.proofPath⟩
  proofSha256 := ⟨get_given rfl, h.proofSha256⟩
  proofBytes := ⟨get_given rfl, h.proofBytes⟩
  minerColdkey := coldkey_sorted h
  solver := solver_members_sorted h

/-- A valid manifest has canonical bytes, and they are read back as the manifest. -/
theorem parseManifest_canonical (h : m.Valid) :
    ∃ raw, canonicalJsonBytes m.toDict = some raw ∧ parseManifest raw = .ok m := by
  obtain ⟨cs, hcs, hlength⟩ := toDict_written h
  have hnewline : Spaces ['\n'] [] := ⟨['\n'], List.forall_mem_singleton.mpr rfl, rfl⟩
  have hread := loads?_eq_some.mp
    (loads?_dumps hcs (toDict_keyed m) (toDict_floats m) hnewline)
  refine ⟨encode (cs ++ ['\n']), by rw [canonicalJsonBytes, hcs, Option.map_some],
    parseManifest_eq_ok.mpr ⟨?_, sorted m.members, ?_, reads_sorted h⟩⟩
  · refine (size_encode_le _).trans ?_
    rw [List.length_append, List.length_singleton, maxManifestBytes]
    omega
  · exact strictJsonObject_eq_ok.mpr ⟨_, rfl, hread⟩

/-- Manifests are read back, and what is admitted is a manifest as it is documented, unless a null
stands for an optional field. -/
theorem manifests_parsed (m : BundleManifest) (raw : ByteArray) :
    (m.Valid → ∃ raw, canonicalJsonBytes m.toDict = some raw ∧ parseManifest raw = .ok m) ∧
    (((∃ m, parseManifest raw = .ok m) ↔ Documented raw) ↔ ¬ CrossedByNull raw) :=
  ⟨parseManifest_canonical, accepts_iff_documented raw⟩

/-- The digest of no proof in particular. -/
def zeroDigest : Text := text "sha256:" ++ List.replicate 64 48

theorem manifests_parsed_keyless :
    let m : BundleManifest := ⟨2, bundleFormat, text "fixture", zeroDigest, proofName, zeroDigest,
      1, none, some (text "reference"), some (text "1.2.3")⟩
    ∃ raw, canonicalJsonBytes m.toDict = some raw ∧ parseManifest raw = .ok m := by
  refine (manifests_parsed _ .empty).1 ⟨rfl, rfl, ?_, ?_, rfl, ?_, ?_, ?_, ?_, ?_, rfl⟩
  · decide
  · decide
  · decide
  · decide
  · simp
  · simpa using (by decide : IsSolverToken (text "reference"))
  · simpa using (by decide : IsSolverToken (text "1.2.3"))

/-- The members of a manifest in which the address is null. -/
def nullAddress : List (Text × Json) :=
  [(Field.key .format, .string bundleFormat), (Field.key .minerColdkey, .null),
    (Field.key .proofBytes, .int 1), (Field.key .proofPath, .string proofName),
    (Field.key .proofSha256, .string zeroDigest), (Field.key .schemaVersion, .int 2),
    (Field.key .taskBundleSha256, .string zeroDigest),
    (Field.key .taskId, .string (text "fixture"))]

def nullAddressText : List Char :=
  ("\x7b\"format\":\"conjectures-submission/v1\",\"miner_coldkey\":null,\"proof_bytes\":1," ++
    "\"proof_path\":\"Main.lean\",\"proof_sha256\":\"sha256:" ++
    "0000000000000000000000000000000000000000000000000000000000000000\"," ++
    "\"schema_version\":2,\"task_bundle_sha256\":\"sha256:" ++
    "0000000000000000000000000000000000000000000000000000000000000000\"," ++
    "\"task_id\":\"fixture\"\x7d").toList

/-- The parts of a text are read apart. -/
theorem toList_parts (a b c d e f : String) : (a ++ b ++ c ++ d ++ e ++ f).toList =
    a.toList ++ (b.toList ++ (c.toList ++ (d.toList ++ (e.toList ++ f.toList)))) := by
  simp

theorem dumps_nullAddress : dumps (.object nullAddress) = some nullAddressText := by
  refine Eq.trans ?_ (congrArg some (toList_parts _ _ _ _ _ _).symm)
  decide +kernel

theorem nullAddressText_length : nullAddressText.length ≤ 512 := by
  refine (congrArg List.length (toList_parts _ _ _ _ _ _)).trans_le ?_
  decide +kernel

theorem nullAddress_members : HasMembers (encode nullAddressText) nullAddress := by
  have hkeyed : Keyed (.object nullAddress) := by
    refine ⟨by decide, ?_⟩
    rw [keyedMembers_iff]
    intro m hm
    simp only [nullAddress, List.mem_cons, List.not_mem_nil, or_false] at hm
    rcases hm with rfl | rfl | rfl | rfl | rfl | rfl | rfl | rfl <;> trivial
  have hfloats : Floats Literal (.object nullAddress) := by
    simp [nullAddress]
  have hread := loads?_eq_some.mp (loads?_dumps dumps_nullAddress hkeyed hfloats (.refl []))
  rw [List.append_nil] at hread
  exact ⟨_, rfl, hread⟩

theorem nullAddress_form : ManifestForm (supplied nullAddress) where
  each k v h := by
    obtain ⟨h, hnull⟩ := mem_supplied.mp h
    simp only [nullAddress, List.mem_cons, List.not_mem_nil, or_false, Prod.mk.injEq] at h
    rcases h with ⟨rfl, rfl⟩ | ⟨rfl, rfl⟩ | ⟨rfl, rfl⟩ | ⟨rfl, rfl⟩ | ⟨rfl, rfl⟩ | ⟨rfl, rfl⟩ |
      ⟨rfl, rfl⟩ | ⟨rfl, rfl⟩
    · exact ⟨.format, rfl, rfl⟩
    · exact absurd ⟨.inl rfl, rfl⟩ hnull
    · exact ⟨.proofBytes, rfl, 1, rfl, by decide⟩
    · exact ⟨.proofPath, rfl, rfl⟩
    · exact ⟨.proofSha256, rfl, _, rfl, by decide⟩
    · exact ⟨.schemaVersion, rfl, rfl⟩
    · exact ⟨.taskBundleSha256, rfl, _, rfl, by decide⟩
    · exact ⟨.taskId, rfl, _, rfl, by decide⟩
  required f hf := by
    cases f with
    | minerColdkey => exact absurd (.inl rfl) hf
    | solver => exact absurd (.inr rfl) hf
    | _ => decide

/-- A null address is admitted, as if it were absent. -/
theorem null_address_admitted :
    (∃ m, parseManifest (encode nullAddressText) = .ok m) ∧
      ¬ Documented (encode nullAddressText) := by
  constructor
  · refine accepts_iff.mpr ⟨?_, nullAddress, nullAddress_members, ?_⟩
    · exact (size_encode_le _).trans ((Nat.mul_le_mul_left 4 nullAddressText_length).trans (by decide))
    · exact nullAddress_form
  · rintro ⟨-, ms, hms, hform⟩
    obtain rfl := hms.unique nullAddress_members
    exact hform.not_null (Field.key .minerColdkey, .null) (by simp [nullAddress])
      ⟨.inl rfl, rfl⟩

end Conjectures.Bundle

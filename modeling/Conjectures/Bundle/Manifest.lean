import Conjectures.Lib.JsonBytes
import Conjectures.Lib.Transaction

/-!
# The manifest of a bundle

`submission.json`: what `BundleManifest` writes and what `parse_manifest` of `verifier/bundle.py`
admits.  What `json` says of a text that it does not read is left out of the messages.

Bytes are counted before anything is decoded.  A refusal carries the reason code and the message of
the source, in the order in which the source checks: unknown fields before missing ones, and then
the fields one after the other.
-/

namespace Conjectures.Bundle

open Lib Lib.Json

/-! ## The fields -/

def bundleFormat : Text := text "conjectures-submission/v1"

def bundleSchemaVersion : ℤ := 2

def proofName : Text := text "Main.lean"

def maxManifestBytes : ℕ := 16 * 1024

def maxSubmissionBytes : ℤ := 30 * 1024 * 1024

/-- `MANIFEST_FIELDS`. -/
inductive Field where
  | schemaVersion
  | format
  | taskId
  | taskBundleSha256
  | proofPath
  | proofSha256
  | proofBytes
  | minerColdkey
  | solver
  deriving DecidableEq

namespace Field

def key : Field → Text
  | schemaVersion => text "schema_version"
  | format => text "format"
  | taskId => text "task_id"
  | taskBundleSha256 => text "task_bundle_sha256"
  | proofPath => text "proof_path"
  | proofSha256 => text "proof_sha256"
  | proofBytes => text "proof_bytes"
  | minerColdkey => text "miner_coldkey"
  | solver => text "solver"

/-- `MANIFEST_FIELDS` less `REQUIRED_MANIFEST_FIELDS`: an account opened with an email address
holds no key. -/
def Optional (f : Field) : Prop := f = minerColdkey ∨ f = solver

instance : DecidablePred Optional := fun _ ↦ inferInstanceAs (Decidable (_ ∨ _))

def all : List Field :=
  [schemaVersion, format, taskId, taskBundleSha256, proofPath, proofSha256, proofBytes,
    minerColdkey, solver]

theorem mem_all (f : Field) : f ∈ all := by
  cases f <;> decide

theorem key_injective {f g : Field} (h : f.key = g.key) : f = g := by
  revert h
  cases f <;> cases g <;> decide

end Field

def nameKey : Text := text "name"

def versionKey : Text := text "version"

/-! ## The forms of the values -/

def isLower (c : ℕ) : Bool := 97 ≤ c && c ≤ 122

def isUpper (c : ℕ) : Bool := 65 ≤ c && c ≤ 90

def isDigit (c : ℕ) : Bool := 48 ≤ c && c ≤ 57

/-- `is_sha256`. -/
def IsSha256 (s : Text) : Prop :=
  s.length = 71 ∧ s.take 7 = text "sha256:" ∧ ∀ c ∈ s.drop 7, c ∈ text "0123456789abcdef"

/-- `TASK_ID`: `[a-z0-9][a-z0-9-]{0,254}`. -/
def IsTaskId : Text → Prop
  | [] => False
  | c :: s => (isLower c || isDigit c) ∧ s.length ≤ 254 ∧
    ∀ c ∈ s, isLower c || isDigit c || c = 45

/-- `SS58_ADDRESS`: `[1-9A-HJ-NP-Za-km-z]{48}`. -/
def IsSs58Address (s : Text) : Prop :=
  s.length = 48 ∧ ∀ c ∈ s, (isDigit c && c != 48) || (isUpper c && c != 73 && c != 79) ||
    (isLower c && c != 108)

/-- `SOLVER_TOKEN`: `[A-Za-z0-9._-]{1,64}`. -/
def IsSolverToken (s : Text) : Prop :=
  1 ≤ s.length ∧ s.length ≤ 64 ∧
    ∀ c ∈ s, isUpper c || isLower c || isDigit c || c = 46 || c = 95 || c = 45

instance : DecidablePred IsSha256 := fun _ ↦ inferInstanceAs (Decidable (_ ∧ _))

instance : DecidablePred IsTaskId
  | [] => inferInstanceAs (Decidable False)
  | _ :: _ => inferInstanceAs (Decidable (_ ∧ _))

instance : DecidablePred IsSs58Address := fun _ ↦ inferInstanceAs (Decidable (_ ∧ _))

instance : DecidablePred IsSolverToken := fun _ ↦ inferInstanceAs (Decidable (_ ∧ _))

/-! ## The manifest -/

structure BundleManifest where
  schemaVersion : ℤ
  format : Text
  taskId : Text
  taskBundleSha256 : Text
  proofPath : Text
  proofSha256 : Text
  proofBytes : ℤ
  /-- none where the submitter holds no key, and never a placeholder -/
  minerColdkey : Option Text
  solverName : Option Text
  solverVersion : Option Text

/-- An optional text, as JSON. -/
def orNull : Option Text → Json
  | some s => .string s
  | none => .null

/-- The members that are always written. -/
def BundleManifest.required (m : BundleManifest) : List (Text × Json) :=
  [(Field.key .schemaVersion, .int m.schemaVersion), (Field.key .format, .string m.format),
    (Field.key .taskId, .string m.taskId),
    (Field.key .taskBundleSha256, .string m.taskBundleSha256),
    (Field.key .proofPath, .string m.proofPath), (Field.key .proofSha256, .string m.proofSha256),
    (Field.key .proofBytes, .int m.proofBytes)]

def BundleManifest.coldkeyMember (m : BundleManifest) : List (Text × Json) :=
  match m.minerColdkey with
  | some coldkey => [(Field.key .minerColdkey, .string coldkey)]
  | none => []

def BundleManifest.solverMember (m : BundleManifest) : List (Text × Json) :=
  match m.solverName with
  | some name => [(Field.key .solver,
      .object [(nameKey, .string name), (versionKey, orNull m.solverVersion)])]
  | none => []

/-- An absent address or solver is left out. -/
def BundleManifest.members (m : BundleManifest) : List (Text × Json) :=
  m.required ++ (m.coldkeyMember ++ m.solverMember)

def BundleManifest.toDict (m : BundleManifest) : Json := .object m.members

/-- `canonical_json_bytes`; a text with half a surrogate pair has no bytes. -/
def canonicalJsonBytes (v : Json) : Option ByteArray :=
  (dumps v).map fun cs ↦ encode (cs ++ ['\n'])

/-- Every field is of its form, and a solver has a name and a version. -/
structure BundleManifest.Valid (m : BundleManifest) : Prop where
  schemaVersion : m.schemaVersion = bundleSchemaVersion
  format : m.format = bundleFormat
  taskId : IsTaskId m.taskId
  taskBundleSha256 : IsSha256 m.taskBundleSha256
  proofPath : m.proofPath = proofName
  proofSha256 : IsSha256 m.proofSha256
  proofBytes : 0 < m.proofBytes ∧ m.proofBytes ≤ maxSubmissionBytes
  minerColdkey : ∀ s ∈ m.minerColdkey, IsSs58Address s
  solverName : ∀ s ∈ m.solverName, IsSolverToken s
  solverVersion : ∀ s ∈ m.solverVersion, IsSolverToken s
  solver : m.solverName.isSome = m.solverVersion.isSome

/-! ## The parser -/

inductive ReasonCode where
  | bundleTooLarge
  | bundleManifestInvalid
  deriving DecidableEq

structure VerifierError where
  reason : ReasonCode
  message : Text

def manifestInvalid (message : Text) : VerifierError :=
  ⟨.bundleManifestInvalid, text "submission bundle manifest is invalid: " ++ message⟩

/-- The items with commas between them, in order. -/
def listed (keys : List Text) : Text :=
  (keys.insertionSort fun k k' ↦ k ≤ k').intersperse (text ", ") |>.flatten

/-- `_strict_json_object`. -/
def strictJsonObject (raw : ByteArray) : Except VerifierError (List (Text × Json)) := do
  require (0 ∉ raw.data) (manifestInvalid (text "manifest contains a NUL byte"))
  let value ← need ((decode? raw).bind loads?)
    (manifestInvalid (text "manifest is not strict UTF-8 JSON"))
  match value with
  | .object members => return members
  | _ => throw (manifestInvalid (text "manifest must be a JSON object"))

/-- `value.get`: a field that is absent is null. -/
def get (value : List (Text × Json)) (k : Text) : Json := (value.lookup k).getD .null

/-- The value is an integer, and no boolean. -/
def int? : Json → Option ℤ
  | .int n => some n
  | _ => none

def string? : Json → Option Text
  | .string s => some s
  | _ => none

def coldkey : Json → Except VerifierError (Option Text)
  | .null => return none
  | .string s => do
    require (IsSs58Address s) (manifestInvalid (text "miner_coldkey is not a valid SS58 address"))
    return some s
  | _ => throw (manifestInvalid (text "miner_coldkey is not a valid SS58 address"))

/-- The keys are these two, in any order. -/
def SolverFields (members : List (Text × Json)) : Prop :=
  (∀ m ∈ members, m.1 = nameKey ∨ m.1 = versionKey) ∧
    nameKey ∈ members.map Prod.fst ∧ versionKey ∈ members.map Prod.fst

instance : DecidablePred SolverFields := fun _ ↦ inferInstanceAs (Decidable (_ ∧ _))

/-- `_solver`. -/
def solver : Json → Except VerifierError (Option Text × Option Text)
  | .null => return (none, none)
  | .object members => do
    require (SolverFields members)
      (manifestInvalid (text "solver must be an object with exactly name and version"))
    let name ← need ((string? (get members nameKey)).filter (IsSolverToken ·)) tokens
    let version ← need ((string? (get members versionKey)).filter (IsSolverToken ·)) tokens
    return (some name, some version)
  | _ => throw (manifestInvalid (text "solver must be an object with exactly name and version"))
where
  tokens : VerifierError := manifestInvalid
    (text "solver name and version must match [A-Za-z0-9._-]\x7b1,64\x7d")

/-- `parse_manifest`. -/
def parseManifest (raw : ByteArray) : Except VerifierError BundleManifest := do
  require (raw.size ≤ maxManifestBytes)
    ⟨.bundleTooLarge, text "manifest exceeds the 16384-byte limit"⟩
  let value ← strictJsonObject raw
  let keys := value.map Prod.fst
  let unknown := keys.filter (· ∉ Field.all.map Field.key)
  require (unknown = []) (manifestInvalid (text "unknown manifest fields: " ++ listed unknown))
  let missing := ((Field.all.filter fun f ↦ ¬ f.Optional).map Field.key).filter (· ∉ keys)
  require (missing = []) (manifestInvalid (text "missing manifest fields: " ++ listed missing))
  -- no key that is read below is missing, the optional ones apart
  let field (f : Field) := get value f.key
  let schemaVersion ← need ((int? (field .schemaVersion)).filter (· = bundleSchemaVersion))
    (manifestInvalid (text "schema_version must be 2"))
  let format ← need ((string? (field .format)).filter (· = bundleFormat))
    (manifestInvalid (text "format must be conjectures-submission/v1"))
  let taskId ← need ((string? (field .taskId)).filter (IsTaskId ·))
    (manifestInvalid (text "task_id is not a valid task identifier"))
  let taskBundleSha256 ← need ((string? (field .taskBundleSha256)).filter (IsSha256 ·))
    (manifestInvalid (text "task_bundle_sha256 is not a lowercase sha256: digest"))
  let proofPath ← need ((string? (field .proofPath)).filter (· = proofName))
    (manifestInvalid (text "proof_path must be Main.lean"))
  let proofSha256 ← need ((string? (field .proofSha256)).filter (IsSha256 ·))
    (manifestInvalid (text "proof_sha256 is not a lowercase sha256: digest"))
  let proofBytes ← need ((int? (field .proofBytes)).filter fun n ↦ 0 < n ∧ n ≤ maxSubmissionBytes)
    (manifestInvalid
      (text "proof_bytes must be a positive integer within the submission limit"))
  let minerColdkey ← coldkey (field .minerColdkey)
  let (solverName, solverVersion) ← solver (field .solver)
  return {
    schemaVersion, format, taskId, taskBundleSha256, proofPath, proofSha256, proofBytes
    minerColdkey, solverName, solverVersion }

/-! ## What the parser reads -/

theorem int?_eq_some {v : Json} {n : ℤ} : int? v = some n ↔ v = .int n := by
  cases v <;> simp [int?]

theorem string?_eq_some {v : Json} {s : Text} : string? v = some s ↔ v = .string s := by
  cases v <;> simp [string?]

/-- A strict object is a document whose members have keys of their own. -/
theorem strictJsonObject_eq_ok {raw : ByteArray} {ms : List (Text × Json)} :
    strictJsonObject raw = .ok ms ↔ ∃ cs, raw = encode cs ∧ Document cs (.object ms) := by
  constructor
  · intro h
    simp only [strictJsonObject, bind_eq_ok, require_eq_ok, need_eq_ok,
      Option.bind_eq_some_iff, decode?_eq_some, loads?_eq_some] at h
    obtain ⟨_, -, value, ⟨cs, hraw, hdocument⟩, h⟩ := h
    split at h
    · cases h
      exact ⟨cs, hraw, hdocument⟩
    · cases h
  · rintro ⟨cs, rfl, hdocument⟩
    have hnul : require (0 ∉ (encode cs).data)
        (manifestInvalid (text "manifest contains a NUL byte")) = .ok () :=
      require_eq_ok.mpr hdocument.no_nul_byte
    have hread : (decode? (encode cs)).bind loads? = some (.object ms) := by
      rw [decode?_eq_some.mpr rfl, Option.bind_some, loads?_eq_some.mpr hdocument]
    rw [strictJsonObject, bind_of_ok hnul, hread]
    rfl

theorem coldkey_eq_ok {v : Json} {address : Option Text} :
    coldkey v = .ok address ↔ v = orNull address ∧ ∀ s ∈ address, IsSs58Address s := by
  constructor
  · intro h
    unfold coldkey at h
    split at h
    · cases h
      exact ⟨rfl, by simp⟩
    · simp only [bind_eq_ok, require_eq_ok] at h
      obtain ⟨_, hs, h⟩ := h
      cases h
      exact ⟨rfl, by simpa using hs⟩
    · cases h
  · rintro ⟨rfl, h⟩
    cases address with
    | none => rfl
    | some s =>
      have hs : require (IsSs58Address s)
          (manifestInvalid (text "miner_coldkey is not a valid SS58 address")) = .ok () :=
        require_eq_ok.mpr (h s rfl)
      rw [orNull, coldkey, bind_of_ok hs]
      rfl

/-- A solver has a name and a version, and nothing else. -/
structure SolverReads (members : List (Text × Json)) (name version : Text) : Prop where
  fields : SolverFields members
  name : get members nameKey = .string name ∧ IsSolverToken name
  version : get members versionKey = .string version ∧ IsSolverToken version

theorem solver_eq_ok {v : Json} {name version : Option Text} :
    solver v = .ok (name, version) ↔ (v = .null ∧ name = none ∧ version = none) ∨
      ∃ members n w, v = .object members ∧ SolverReads members n w ∧
        name = some n ∧ version = some w := by
  constructor
  · intro h
    unfold solver at h
    split at h
    · cases h
      exact .inl ⟨rfl, rfl, rfl⟩
    · simp only [bind_eq_ok, require_eq_ok, need_eq_ok, Option.filter_eq_some_iff,
        string?_eq_some, decide_eq_true_eq] at h
      obtain ⟨_, hfields, n, hname, w, hversion, h⟩ := h
      cases h
      exact .inr ⟨_, n, w, rfl, ⟨hfields, hname, hversion⟩, rfl, rfl⟩
    · cases h
  · rintro (⟨rfl, rfl, rfl⟩ | ⟨members, n, w, rfl, ⟨hfields, hname, hversion⟩, rfl, rfl⟩)
    · rfl
    · have hrequire : require (SolverFields members)
          (manifestInvalid (text "solver must be an object with exactly name and version")) =
          .ok () := require_eq_ok.mpr hfields
      have hn : (string? (get members nameKey)).filter (IsSolverToken ·) = some n :=
        Option.filter_eq_some_iff.mpr ⟨string?_eq_some.mpr hname.1, decide_eq_true hname.2⟩
      have hw : (string? (get members versionKey)).filter (IsSolverToken ·) = some w :=
        Option.filter_eq_some_iff.mpr ⟨string?_eq_some.mpr hversion.1, decide_eq_true hversion.2⟩
      rw [solver, bind_of_ok hrequire, hn, hw]
      rfl

/-- The members are those of this manifest; null stands for an optional field that is absent. -/
structure Reads (ms : List (Text × Json)) (m : BundleManifest) : Prop where
  known : ∀ k ∈ ms.map Prod.fst, ∃ f : Field, f.key = k
  complete : ∀ f : Field, ¬ f.Optional → f.key ∈ ms.map Prod.fst
  schemaVersion : get ms (Field.key .schemaVersion) = .int m.schemaVersion ∧
    m.schemaVersion = bundleSchemaVersion
  format : get ms (Field.key .format) = .string m.format ∧ m.format = bundleFormat
  taskId : get ms (Field.key .taskId) = .string m.taskId ∧ IsTaskId m.taskId
  taskBundleSha256 : get ms (Field.key .taskBundleSha256) = .string m.taskBundleSha256 ∧
    IsSha256 m.taskBundleSha256
  proofPath : get ms (Field.key .proofPath) = .string m.proofPath ∧ m.proofPath = proofName
  proofSha256 : get ms (Field.key .proofSha256) = .string m.proofSha256 ∧ IsSha256 m.proofSha256
  proofBytes : get ms (Field.key .proofBytes) = .int m.proofBytes ∧
    0 < m.proofBytes ∧ m.proofBytes ≤ maxSubmissionBytes
  minerColdkey : coldkey (get ms (Field.key .minerColdkey)) = .ok m.minerColdkey
  solver : solver (get ms (Field.key .solver)) = .ok (m.solverName, m.solverVersion)

theorem unknown_eq_nil {keys : List Text} :
    keys.filter (· ∉ Field.all.map Field.key) = [] ↔ ∀ k ∈ keys, ∃ f : Field, f.key = k := by
  simp [List.filter_eq_nil_iff, Field.mem_all]

theorem missing_eq_nil {keys : List Text} :
    ((Field.all.filter fun f ↦ ¬ f.Optional).map Field.key).filter (· ∉ keys) = [] ↔
      ∀ f : Field, ¬ f.Optional → f.key ∈ keys := by
  simp [List.filter_eq_nil_iff, Field.mem_all]

/-- A manifest is admitted where its members are read. -/
theorem parseManifest_eq_ok {raw : ByteArray} {m : BundleManifest} :
    parseManifest raw = .ok m ↔ raw.size ≤ maxManifestBytes ∧
      ∃ ms, strictJsonObject raw = .ok ms ∧ Reads ms m := by
  constructor
  · intro h
    simp only [parseManifest, bind_eq_ok, require_eq_ok, need_eq_ok, unknown_eq_nil,
      missing_eq_nil, Option.filter_eq_some_iff, int?_eq_some, string?_eq_some,
      decide_eq_true_eq] at h
    obtain ⟨_, hsize, ms, hms, _, hknown, _, hcomplete, _, hschemaVersion, _, hformat, _, htaskId,
      _, htaskBundle, _, hproofPath, _, hproofSha256, _, hproofBytes, _, hcoldkey,
      ⟨name, version⟩, hsolver, h⟩ := h
    cases h
    exact ⟨hsize, ms, hms, hknown, hcomplete, hschemaVersion, hformat, htaskId, htaskBundle,
      hproofPath, hproofSha256, hproofBytes, hcoldkey, hsolver⟩
  · rintro ⟨hsize, ms, hms, h⟩
    simp only [parseManifest, bind_eq_ok, require_eq_ok, need_eq_ok, unknown_eq_nil,
      missing_eq_nil, Option.filter_eq_some_iff, int?_eq_some, string?_eq_some,
      decide_eq_true_eq]
    exact ⟨(), hsize, ms, hms, (), h.known, (), h.complete, _, h.schemaVersion, _, h.format, _,
      h.taskId, _, h.taskBundleSha256, _, h.proofPath, _, h.proofSha256, _, h.proofBytes, _,
      h.minerColdkey, _, h.solver, rfl⟩

end Conjectures.Bundle

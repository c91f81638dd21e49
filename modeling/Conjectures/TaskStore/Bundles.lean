import Mathlib.Algebra.Group.Nat.Defs
import Mathlib.Data.List.Forall2
import Conjectures.Lib.Transaction

/-!
# Bundles on disk

A directory of the task version store, what `load_task_bundle` of `verifier/task_loader.py` makes
of it, and the digest of its bytes, `sha256_named_bytes` of `verifier/hashing.py`.

The loader reads every file whole and decides the rest from the bytes; that decision is a
parameter, and so is the hash function.
-/

namespace Conjectures.TaskStore

open Lib

abbrev Bytes := List UInt8
abbrev Name := String
abbrev TaskId := String
abbrev Digest := String

/-! ## Directories -/

structure File where
  regular : Bool
  content : Bytes
  mode : ℕ
  /-- `fsync` has returned: the content is on the disk -/
  flushed : Bool
  deriving DecidableEq

/-- A directory, its files in the order of their names. -/
structure Directory where
  files : List (Name × File)
  mode : ℕ
  flushed : Bool
  deriving DecidableEq

/-- The bytes of a directory under their names. -/
abbrev Contents := List (Name × Bytes)

/-- What reading a directory shows: whether each file is regular, and its bytes. -/
def Directory.data (d : Directory) : List (Name × Bool × Bytes) :=
  d.files.map fun f ↦ (f.1, f.2.regular, f.2.content)

def Directory.names (d : Directory) : List Name := d.files.map Prod.fst

def Directory.contents (d : Directory) : Contents := d.files.map fun f ↦ (f.1, f.2.content)

/-! ## Errors -/

inductive ReasonCode where
  | invalidArgument
  | workspaceError
  | invalidManifest
  | trustedFileModified
  | taskCommitmentMismatch
  deriving DecidableEq

structure VerifierError where
  reason : ReasonCode
  message : String
  deriving DecidableEq

/-! ## Digests -/

/-- `int.to_bytes(count, "big")`. -/
def bigEndian : ℕ → ℕ → Bytes
  | 0, _ => []
  | count + 1, n => bigEndian count (n / 256) ++ [UInt8.ofNat n]

def nameBytes (name : Name) : Bytes := name.toUTF8.data.toList

/-- One name and its bytes, each behind its length. -/
def namedBytes (f : Name × Bytes) : Bytes :=
  bigEndian 8 (nameBytes f.1).length ++ (nameBytes f.1 ++ (bigEndian 8 f.2.length ++ f.2))

/-- What `sha256_named_bytes` feeds to the hash. -/
def hashed (contents : Contents) : Bytes := contents.flatMap namedBytes

/-! ## Loading -/

/-- `TASK_FILE_NAMES`, in order. -/
def taskFileNames : List Name :=
  ["Challenge.lean", "SolutionFooter.lean.txt", "SolutionHeader.lean.txt",
    "comparator-config.json", "manifest.json", "source-metadata.json", "trusted-hashes.json"]

def groupTaskFileNames : List Name := "group-metadata.json" :: taskFileNames

def v2TaskFileNames : List Name := "task-version.json" :: taskFileNames

def maxTaskFileBytes : ℕ := 8 * 1024 * 1024

/-- The two sets are the same. -/
def SameNames (names names' : List Name) : Prop := names ⊆ names' ∧ names' ⊆ names

instance (names names' : List Name) : Decidable (SameNames names names') :=
  inferInstanceAs (Decidable ((∀ _ ∈ _, _) ∧ ∀ _ ∈ _, _))

/-- A list of names as it stands in a message. -/
def listed (names : List Name) : String :=
  "[" ++ ", ".intercalate (names.map fun name ↦ "'" ++ name ++ "'") ++ "]"

/-- `_read_regular_file`. -/
def readRegularFile : Name × Bool × Bytes → Except VerifierError Unit
  | (name, regular, content) => do
    require regular ⟨.invalidManifest, "task file is not regular: " ++ name⟩
    require (content.length ≤ maxTaskFileBytes)
      ⟨.invalidManifest, "task file is too large: " ++ name⟩

structure TaskBundle where
  taskId : TaskId
  files : Contents
  sha256 : Digest
  deriving DecidableEq

section Loading

-- `validate` decides from the bytes of the files which task they are the bundle of
variable (validate : Contents → Except VerifierError TaskId) (sha256 : Bytes → Digest)

/-- `sha256_named_bytes`. -/
def sha256NamedBytes (contents : Contents) : Digest := sha256 (hashed contents)

/-- `load_task_bundle`. -/
def loadTaskBundle (d : Directory) : Except VerifierError TaskBundle := do
  require (SameNames d.names taskFileNames ∨ SameNames d.names groupTaskFileNames ∨
      SameNames d.names v2TaskFileNames)
    ⟨.invalidManifest, "task file set is not exact; missing=" ++
      listed (taskFileNames.filter (· ∉ d.names)) ++ ", unexpected=" ++
      listed (d.names.filter (· ∉ groupTaskFileNames ++ v2TaskFileNames))⟩
  d.data.forM readRegularFile
  let taskId ← validate d.contents
  return ⟨taskId, d.contents, sha256NamedBytes sha256 d.contents⟩

end Loading

/-! ## What is loaded -/

section Loaded

variable {validate : Contents → Except VerifierError TaskId} {sha256 : Bytes → Digest}

theorem names_eq_of_data {d d' : Directory} (h : d.data = d'.data) : d.names = d'.names := by
  have hnames : ∀ d : Directory, d.names = d.data.map Prod.fst := fun d ↦ by
    simp [Directory.names, Directory.data]
  rw [hnames, hnames, h]

theorem contents_eq_of_data {d d' : Directory} (h : d.data = d'.data) :
    d.contents = d'.contents := by
  have hcontents : ∀ d : Directory, d.contents = d.data.map fun f ↦ (f.1, f.2.2) := fun d ↦ by
    simp [Directory.contents, Directory.data]
  rw [hcontents, hcontents, h]

/-- Loading sees neither modes nor whether the disk has the bytes. -/
theorem loadTaskBundle_congr {d d' : Directory} (h : d.data = d'.data) :
    loadTaskBundle validate sha256 d = loadTaskBundle validate sha256 d' := by
  rw [loadTaskBundle, loadTaskBundle, names_eq_of_data h, contents_eq_of_data h, h]

theorem forM_eq_ok {α : Type} {f : α → Except VerifierError Unit} {as : List α} {u : Unit} :
    as.forM f = .ok u ↔ ∀ a ∈ as, f a = .ok () := by
  induction as with
  | nil => simp [List.forM, pure, Except.pure]
  | cons a as ih =>
    have hstep : (a :: as).forM f = (f a >>= fun _ ↦ as.forM f) := rfl
    rw [hstep, bind_eq_ok, List.forall_mem_cons, ih]
    exact ⟨fun ⟨_, ha, has⟩ ↦ ⟨ha, has⟩, fun ⟨ha, has⟩ ↦ ⟨(), ha, has⟩⟩

/-- A bundle is exact: its files are regular, of bounded size, and the loader's own. -/
structure Loaded (validate : Contents → Except VerifierError TaskId) (sha256 : Bytes → Digest)
    (d : Directory) (b : TaskBundle) : Prop where
  names : SameNames d.names taskFileNames ∨ SameNames d.names groupTaskFileNames ∨
    SameNames d.names v2TaskFileNames
  regular : ∀ f ∈ d.files, f.2.regular = true
  bounded : ∀ f ∈ d.files, f.2.content.length ≤ maxTaskFileBytes
  taskId : validate d.contents = .ok b.taskId
  files : b.files = d.contents
  sha256 : b.sha256 = sha256NamedBytes sha256 d.contents

theorem loaded_of_load {d : Directory} {b : TaskBundle}
    (h : loadTaskBundle validate sha256 d = .ok b) : Loaded validate sha256 d b := by
  simp only [loadTaskBundle, bind_eq_ok, require_eq_ok, forM_eq_ok] at h
  obtain ⟨_, hnames, _, hfiles, taskId, hvalidate, h⟩ := h
  cases h
  have hread : ∀ f ∈ d.files, f.2.regular = true ∧
      f.2.content.length ≤ maxTaskFileBytes := fun f hf ↦ by
    have hf' := hfiles _ (List.mem_map.mpr ⟨f, hf, rfl⟩)
    simp only [readRegularFile, bind_eq_ok, require_eq_ok] at hf'
    obtain ⟨_, hregular, hsize⟩ := hf'
    exact ⟨hregular, hsize⟩
  exact ⟨hnames, fun f hf ↦ (hread f hf).1, fun f hf ↦ (hread f hf).2, hvalidate, rfl, rfl⟩

/-- The bytes decide what is loaded. -/
theorem Loaded.eq_of_contents {d d' : Directory} {b b' : TaskBundle}
    (h : Loaded validate sha256 d b) (h' : Loaded validate sha256 d' b')
    (hcontents : d.contents = d'.contents) : b = b' := by
  have hid := h.taskId.symm.trans ((congrArg validate hcontents).trans h'.taskId)
  have hfiles := h.files.trans (hcontents.trans h'.files.symm)
  have hsha := h.sha256.trans ((congrArg _ hcontents).trans h'.sha256.symm)
  cases b
  cases b'
  cases hid
  cases hfiles
  cases hsha
  rfl

/-! ### The digest -/

theorem bigEndian_length (count n : ℕ) : (bigEndian count n).length = count := by
  induction count generalizing n with
  | zero => rfl
  | succ count ih => rw [bigEndian, List.length_append, ih, List.length_singleton]

theorem bigEndian_injective {count n m : ℕ} (hn : n < 256 ^ count) (hm : m < 256 ^ count)
    (h : bigEndian count n = bigEndian count m) : n = m := by
  induction count generalizing n m with
  | zero => omega
  | succ count ih =>
    rw [bigEndian, bigEndian] at h
    obtain ⟨hfront, hlast⟩ := List.append_inj h (by rw [bigEndian_length, bigEndian_length])
    rw [Nat.pow_succ] at hn hm
    have hdiv := ih (by omega) (by omega) hfront
    have hmod := congrArg UInt8.toNat (List.singleton_inj.mp hlast)
    rw [UInt8.toNat_ofNat', UInt8.toNat_ofNat'] at hmod
    omega

/-- The lengths of a name and its bytes are written in full. -/
def Measured (contents : Contents) : Prop :=
  ∀ f ∈ contents, (nameBytes f.1).length < 256 ^ 8 ∧ f.2.length < 256 ^ 8

theorem nameBytes_injective {name name' : Name} (h : nameBytes name = nameBytes name') :
    name = name' := by
  have hdata : name.toUTF8.data = name'.toUTF8.data := Array.toList_inj.mp h
  have hbytes : name.toUTF8 = name'.toUTF8 := by
    cases hn : name.toUTF8
    cases hm : name'.toUTF8
    rw [hn, hm] at hdata
    exact congrArg ByteArray.mk hdata
  exact String.toByteArray_inj.mp hbytes

/-- No two contents feed the same bytes to the hash. -/
theorem hashed_injective {contents contents' : Contents} (h : Measured contents)
    (h' : Measured contents') (heq : hashed contents = hashed contents') :
    contents = contents' := by
  induction contents generalizing contents' with
  | nil =>
    cases contents' with
    | nil => rfl
    | cons f fs =>
      have hlength := congrArg List.length heq
      simp only [hashed, namedBytes, List.flatMap_nil, List.flatMap_cons, List.length_append,
        bigEndian_length, List.length_nil] at hlength
      omega
  | cons f fs ih =>
    cases contents' with
    | nil =>
      have hlength := congrArg List.length heq
      simp only [hashed, namedBytes, List.flatMap_nil, List.flatMap_cons, List.length_append,
        bigEndian_length, List.length_nil] at hlength
      omega
    | cons f' fs' =>
      have hf := h f List.mem_cons_self
      have hf' := h' f' List.mem_cons_self
      simp only [hashed, List.flatMap_cons, namedBytes, List.append_assoc] at heq
      obtain ⟨hnameLength, heq⟩ := List.append_inj heq
        (by rw [bigEndian_length, bigEndian_length])
      obtain ⟨hname, heq⟩ := List.append_inj heq (bigEndian_injective hf.1 hf'.1 hnameLength)
      obtain ⟨hlength, heq⟩ := List.append_inj heq (by rw [bigEndian_length, bigEndian_length])
      obtain ⟨hcontent, heq⟩ := List.append_inj heq (bigEndian_injective hf.2 hf'.2 hlength)
      rw [ih (fun g hg ↦ h g (List.mem_cons_of_mem _ hg))
        (fun g hg ↦ h' g (List.mem_cons_of_mem _ hg)) heq]
      obtain ⟨name, content⟩ := f
      obtain ⟨name', content'⟩ := f'
      obtain rfl := nameBytes_injective hname
      obtain rfl := hcontent
      rfl

theorem Loaded.measured {d : Directory} {b : TaskBundle} (h : Loaded validate sha256 d b) :
    Measured d.contents := by
  have hshort : ∀ name ∈ groupTaskFileNames ++ v2TaskFileNames, (nameBytes name).length < 256 ^ 8 :=
    by decide
  have hname : ∀ name ∈ d.names, name ∈ groupTaskFileNames ++ v2TaskFileNames := fun name hn ↦ by
    rcases h.names with hnames | hnames | hnames
    · exact List.mem_append_left _ (List.mem_cons_of_mem _ (hnames.1 hn))
    · exact List.mem_append_left _ (hnames.1 hn)
    · exact List.mem_append_right _ (hnames.1 hn)
  intro x hx
  obtain ⟨f, hf, rfl⟩ := List.mem_map.mp hx
  have hsize := h.bounded f hf
  rw [maxTaskFileBytes] at hsize
  refine ⟨hshort _ (hname _ (List.mem_map.mpr ⟨f, hf, rfl⟩)), ?_⟩
  dsimp only
  omega

/-- Bundles of one digest hold the same bytes, where the hash does not collide on them. -/
theorem Loaded.contents_eq {d d' : Directory} {b b' : TaskBundle}
    (h : Loaded validate sha256 d b) (h' : Loaded validate sha256 d' b')
    (hsha : b.sha256 = b'.sha256)
    (hcollision : sha256 (hashed d.contents) = sha256 (hashed d'.contents) →
      hashed d.contents = hashed d'.contents) : d.contents = d'.contents :=
  hashed_injective h.measured h'.measured
    (hcollision (h.sha256.symm.trans (hsha.trans h'.sha256)))

end Loaded

end Conjectures.TaskStore

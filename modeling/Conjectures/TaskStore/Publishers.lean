import Mathlib.Logic.Function.Basic
import Conjectures.TaskStore.Bundles

/-!
# Publishers of the task version store

`TaskVersionStore` of `verifier/task_store.py`: the entries under its root, and publishers that
take the file operations of `publish` and `_seal` one at a time.

A publisher that is killed does no more, and its lock is free.  When the machine loses power every
publisher is gone, and the disk keeps what was flushed to it: of a file that was not, any bytes, of
an entry whose directory was not, perhaps nothing, and of modes nothing is certain.
-/

namespace Conjectures.TaskStore

open Lib

/-! ## The store -/

/-- `fc-v2-[a-z0-9-]{1,80}-[0-9a-f]{24}-[a-z]+`, read from its end: no mode has a hyphen. -/
def isV2TaskId (taskId : TaskId) : Bool :=
  let lower (c : Char) := 'a' ≤ c && c ≤ 'z'
  let digit (c : Char) := '0' ≤ c && c ≤ '9'
  let hex (c : Char) := digit c || ('a' ≤ c && c ≤ 'f')
  let mode := taskId.toList.reverse.takeWhile lower
  match taskId.toList.reverse.dropWhile lower with
  | '-' :: text =>
    match text.drop 24 with
    | '-' :: text' =>
      let slug := text'.reverse.drop 6
      mode ≠ [] && (text.take 24).all hex && text'.reverse.take 6 = "fc-v2-".toList &&
        1 ≤ slug.length && slug.length ≤ 80 && slug.all fun c ↦ lower c || digit c || c = '-'
    | _ => false
  | _ => false

/-- An entry under the root. -/
structure Entry where
  directory : Directory
  /-- the root was flushed since the entry appeared in it -/
  flushed : Bool
  deriving DecidableEq

/-- What `_seal` has left to do. -/
inductive SealStep where
  | files (left : List Name)
  | directory
  | flushDirectory
  | flushRoot
  deriving DecidableEq

/-- How far a publisher has come; `existing` is what it found in place of its own bundle. -/
inductive Phase where
  | called
  | syncing (bundle : TaskBundle) (left : List Name)
  | synced (bundle : TaskBundle)
  | locked (bundle : TaskBundle)
  | absent (bundle : TaskBundle)
  | renamed (bundle : TaskBundle)
  | sealing (bundle : TaskBundle) (existing : Option TaskBundle) (todo : SealStep)
  | sealed (bundle : TaskBundle) (existing : Option TaskBundle)
  | reloading (bundle : TaskBundle)
  | returned (bundle : TaskBundle)
  | failed (error : VerifierError)
  /-- an exception that is no `VerifierError` -/
  | raised
  deriving DecidableEq

/-- The publisher is between `flock` and its release. -/
def Phase.Holding : Phase → Prop
  | .locked _ | .absent _ | .renamed _ | .sealing .. | .sealed .. => True
  | _ => False

/-- A call of `publish`. -/
structure Publisher where
  taskId : TaskId
  staged : Directory
  /-- the bundle was staged under `.staging` of this store -/
  inStaging : Bool
  phase : Phase
  deriving DecidableEq

structure State where
  entries : TaskId → Option Entry
  publishers : ℕ → Option Publisher
  lock : Option ℕ

/-- A new store, nobody at work. -/
def State.empty : State := ⟨fun _ ↦ none, fun _ ↦ none, none⟩

/-! ## File operations -/

def sealedFileMode : ℕ := 0o444

def sealedDirectoryMode : ℕ := 0o555

def Directory.flushFile (d : Directory) (name : Name) : Directory :=
  { d with files := d.files.map fun f ↦
      if f.1 = name then (f.1, { f.2 with flushed := true }) else f }

def Directory.flush (d : Directory) : Directory := { d with flushed := true }

def Directory.sealFile (d : Directory) (name : Name) : Directory :=
  { d with files := d.files.map fun f ↦
      if f.1 = name then (f.1, { f.2 with mode := sealedFileMode }) else f }

def Directory.sealDirectory (d : Directory) : Directory := { d with mode := sealedDirectoryMode }

/-- `is_sealed`. -/
def Directory.IsSealed (d : Directory) : Prop :=
  d.mode = sealedDirectoryMode ∧ ∀ f ∈ d.files, f.2.mode = sealedFileMode

instance : DecidablePred Directory.IsSealed := fun _ ↦ inferInstanceAs (Decidable (_ ∧ _))

def Entry.modify (g : Directory → Directory) (e : Entry) : Entry :=
  { e with directory := g e.directory }

/-- The operation on an entry, where there is one. -/
def State.onEntry (s : State) (taskId : TaskId) (g : Directory → Directory) : State :=
  { s with entries := Function.update s.entries taskId ((s.entries taskId).map (.modify g)) }

/-- The root is flushed. -/
def State.flushRoot (s : State) : State :=
  { s with entries := fun taskId ↦ (s.entries taskId).map fun e ↦ { e with flushed := true } }

/-! ## Publishing -/

section Steps

variable (validate : Contents → Except VerifierError TaskId) (sha256 : Bytes → Digest)

/-- `path_for`. -/
def pathFor (taskId : TaskId) : Except VerifierError Unit :=
  require (isV2TaskId taskId) ⟨.invalidArgument, "not a v2 task ID: '" ++ taskId ++ "'"⟩

/-- `load`. -/
def State.load (s : State) (taskId : TaskId) (expected : Option Digest) :
    Except VerifierError (Option TaskBundle) := do
  pathFor taskId
  match s.entries taskId with
  | none => return none
  | some e => do
    let bundle ← loadTaskBundle validate sha256 e.directory
    require (bundle.taskId = taskId)
      ⟨.trustedFileModified, "store entry " ++ taskId ++ " holds " ++ bundle.taskId⟩
    require (∀ digest ∈ expected, bundle.sha256 = digest) ⟨.trustedFileModified,
      "store entry " ++ taskId ++ " has digest " ++ bundle.sha256 ++
        ", the registry publishes " ++ expected.getD ""⟩
    return some bundle

/-- What `publish` asks of the bundle it is given. -/
def Publisher.open (pub : Publisher) : Except VerifierError TaskBundle := do
  require pub.inStaging
    ⟨.workspaceError, "only bundles staged in this store can be published"⟩
  let bundle ← loadTaskBundle validate sha256 pub.staged
  require (bundle.taskId = pub.taskId)
    ⟨.invalidManifest, "staged bundle has a different task ID"⟩
  return bundle

def State.put (s : State) (p : ℕ) (pub : Publisher) (phase : Phase) : State :=
  { s with publishers := Function.update s.publishers p (some { pub with phase := phase }) }

/-- The publisher goes on without the lock. -/
def State.release (s : State) (p : ℕ) (pub : Publisher) (phase : Phase) : State :=
  { s.put p pub phase with lock := none }

/-- Under the lock: an entry is accepted only if it is valid and its bytes are ours. -/
def State.check (s : State) (p : ℕ) (pub : Publisher) (bundle : TaskBundle) : State :=
  match s.entries pub.taskId with
  | none => s.put p pub (.absent bundle)
  | some e =>
    match s.load validate sha256 pub.taskId none with
    | .error error => s.release p pub (.failed error)
    | .ok none => s.release p pub .raised
    | .ok (some existing) =>
      if existing.sha256 = bundle.sha256 then
        s.put p pub (.sealing bundle (some existing) (.files e.directory.names))
      else s.release p pub (.failed ⟨.taskCommitmentMismatch, "store already holds different bytes for " ++
        pub.taskId ++ "; refusing to replace them"⟩)

/-- `os.rename`, of a directory onto a name that is free. -/
def State.rename (s : State) (p : ℕ) (pub : Publisher) (bundle : TaskBundle) : State :=
  match s.entries pub.taskId with
  | none =>
    { s.put p pub (.renamed bundle) with
      entries := Function.update s.entries pub.taskId (some ⟨pub.staged, false⟩) }
  | some _ => s.release p pub .raised

/-- One file of `_seal`. -/
def State.sealFile (s : State) (p : ℕ) (pub : Publisher) (bundle : TaskBundle)
    (existing : Option TaskBundle) (name : Name) (left : List Name) : State :=
  match s.entries pub.taskId with
  | none => s.release p pub .raised
  | some e =>
    if ∀ f ∈ e.directory.files, f.1 = name → f.2.regular then
      (s.onEntry pub.taskId (.sealFile · name)).put p pub (.sealing bundle existing (.files left))
    else s.release p pub
      (.failed ⟨.trustedFileModified, "store entry contains a non-file: " ++ name⟩)

/-- The next operation of a publisher. -/
def State.advance (s : State) (p : ℕ) (pub : Publisher) : State :=
  match pub.phase with
  | .called =>
    match pub.open validate sha256 with
    | .error error => s.put p pub (.failed error)
    | .ok bundle => s.put p pub (.syncing bundle pub.staged.names)
  | .syncing bundle (name :: left) =>
    s.put p { pub with staged := pub.staged.flushFile name } (.syncing bundle left)
  | .syncing bundle [] => s.put p { pub with staged := pub.staged.flush } (.synced bundle)
  | .synced bundle =>
    match pathFor pub.taskId with
    | .error error => s.put p pub (.failed error)
    | .ok () =>
      -- the lock is waited for
      if s.lock = none then { s.put p pub (.locked bundle) with lock := some p } else s
  | .locked bundle => s.check validate sha256 p pub bundle
  | .absent bundle => s.rename p pub bundle
  | .renamed bundle =>
    match s.entries pub.taskId with
    | none => s.release p pub .raised
    | some e => s.flushRoot.put p pub (.sealing bundle none (.files e.directory.names))
  | .sealing bundle existing (.files (name :: left)) =>
    s.sealFile p pub bundle existing name left
  | .sealing bundle existing (.files []) =>
    s.put p pub (.sealing bundle existing .directory)
  | .sealing bundle existing .directory =>
    (s.onEntry pub.taskId .sealDirectory).put p pub (.sealing bundle existing .flushDirectory)
  | .sealing bundle existing .flushDirectory =>
    (s.onEntry pub.taskId .flush).put p pub (.sealing bundle existing .flushRoot)
  | .sealing bundle existing .flushRoot => s.flushRoot.put p pub (.sealed bundle existing)
  | .sealed _ (some existing) => s.release p pub (.returned existing)
  | .sealed bundle none => s.release p pub (.reloading bundle)
  | .reloading bundle =>
    match s.load validate sha256 pub.taskId (some bundle.sha256) with
    | .error error => s.put p pub (.failed error)
    | .ok none => s.put p pub .raised
    | .ok (some published) => s.put p pub (.returned published)
  | .returned _ | .failed _ | .raised => s

end Steps

/-! ## Crashes -/

/-- The publisher is killed; `flock` ends with the process. -/
def State.kill (s : State) (p : ℕ) : State where
  entries := s.entries
  publishers := Function.update s.publishers p none
  lock := if s.lock = some p then none else s.lock

/-- A file that was flushed keeps its bytes. -/
def FileSurvives (f f' : Name × File) : Prop :=
  f'.1 = f.1 ∧ (f.2.flushed → f'.2.regular = f.2.regular ∧ f'.2.content = f.2.content)

instance (f f' : Name × File) : Decidable (FileSurvives f f') :=
  inferInstanceAs (Decidable (_ ∧ (_ → _)))

/-- A directory that was flushed keeps its names. -/
def Directory.Survives (d d' : Directory) : Prop :=
  d.flushed → List.Forall₂ FileSurvives d.files d'.files

instance (d d' : Directory) : Decidable (d.Survives d') :=
  inferInstanceAs (Decidable (_ → _))

/-- What the disk may show in place of an entry. -/
def EntrySurvives : Option Entry → Option Entry → Prop
  | none, none => True
  | none, some _ => False
  | some e, none => ¬ e.flushed
  | some e, some e' => e.directory.Survives e'.directory

instance : (e e' : Option Entry) → Decidable (EntrySurvives e e')
  | none, none => inferInstanceAs (Decidable True)
  | none, some _ => inferInstanceAs (Decidable False)
  | some e, none => inferInstanceAs (Decidable (¬ e.flushed))
  | some e, some e' => inferInstanceAs (Decidable (e.directory.Survives e'.directory))

/-- What is read from the disk is on it. -/
def Directory.onDisk (d : Directory) : Directory where
  files := d.files.map fun f ↦ (f.1, { f.2 with flushed := true })
  mode := d.mode
  flushed := true

def Entry.onDisk (e : Entry) : Entry := ⟨e.directory.onDisk, true⟩

/-- The power fails, and the disk shows these entries, wherever it may. -/
def State.powerLoss (s : State) (disk : TaskId → Option Entry) : State where
  entries taskId :=
    (if EntrySurvives (s.entries taskId) (disk taskId) then disk taskId else s.entries taskId).map
      .onDisk
  publishers _ := none
  lock := none

/-! ## Runs -/

inductive Action where
  /-- `publish` is called, on any directory -/
  | begin (p : ℕ) (taskId : TaskId) (staged : Directory) (inStaging : Bool)
  | advance (p : ℕ)
  | kill (p : ℕ)
  | powerLoss (disk : TaskId → Option Entry)

def step (validate : Contents → Except VerifierError TaskId) (sha256 : Bytes → Digest)
    (s : State) : Action → State
  | .begin p taskId staged inStaging =>
    match s.publishers p with
    | none => s.put p ⟨taskId, staged, inStaging, .called⟩ .called
    | some _ => s
  | .advance p =>
    match s.publishers p with
    | none => s
    | some pub => s.advance validate sha256 p pub
  | .kill p => s.kill p
  | .powerLoss disk => s.powerLoss disk

end Conjectures.TaskStore

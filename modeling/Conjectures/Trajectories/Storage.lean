import Mathlib.Algebra.Order.BigOperators.Group.List
import Mathlib.Data.Nat.Init
import Conjectures.Db.Trajectories
import Conjectures.Lib.Transaction

/-!
# Private storage of chat logs

`submission_api/trajectory_quota.py`, `trajectory_uploads.py` and `trajectory_storage.py`: how
much is kept, for whom, and the statements that keep it.

Capacity is checked against what an account and the whole store hold, packages, chunks and uploads
that are still open.  How much scratch space is free is an argument.
-/

namespace Conjectures.Trajectories

open Lib Db

def gibibyte : ℕ := 1024 ^ 3

/-- `ACCOUNT_BYTES` -/
def accountBytes : ℕ := 20 * gibibyte

/-- `GLOBAL_BYTES` -/
def globalBytes : ℕ := 100 * gibibyte

/-- `CHUNK_BYTES` -/
def chunkBytes : ℕ := 8 * 1024 * 1024

/-- `INLINE_BYTES` -/
def inlineBytes : ℕ := 256 * 1024 * 1024

/-- `MAX_PENDING_UPLOADS` -/
def maxPendingUploads : ℕ := 8

/-- `MAX_PACKAGE_BYTES` -/
def maxPackageBytes : ℕ := 10 * gibibyte

def hour : ℤ := 3600 * 1000000

/-! ## The quota -/

/-- The rows of the `UNION ALL`: whose they are, and how many bytes.  One claim and one upload
may be left out. -/
def usage (db : TrajectoryStore) (claimId uploadId : Option Uuid) : List (Uuid × ℕ) :=
  let claims := db.claims.rows.filter fun c ↦ some c.id ≠ claimId
  let inline := claims.filterMap fun c ↦ c.package.map fun package ↦ (c.accountId, package.length)
  let chunks := claims.flatMap fun c ↦ c.chunks.map fun data ↦ (c.accountId, data.length)
  let pending := (db.uploads.rows.filter fun u ↦ some u.id ≠ uploadId).map fun u ↦
    (u.accountId, u.byteLength)
  inline ++ chunks ++ pending

/-- The bytes of the accounts that meet `p`. -/
def bytesOf (p : Uuid → Bool) (usage : List (Uuid × ℕ)) : ℕ :=
  (usage.map fun row ↦ if p row.1 then row.2 else 0).sum

def total (usage : List (Uuid × ℕ)) : ℕ := bytesOf (fun _ ↦ true) usage

def owned (accountId : Uuid) (usage : List (Uuid × ℕ)) : ℕ :=
  bytesOf (fun id ↦ id = accountId) usage

/-- `check_capacity`, once the lock is held. -/
def checkCapacity (db : TrajectoryStore) (accountId : Uuid) (byteLength : ℕ)
    (claimId uploadId : Option Uuid) : Except TrajectoryError Unit :=
  let usage := usage db claimId uploadId
  require (¬ (accountBytes < owned accountId usage + byteLength ∨
      globalBytes < total usage + byteLength))
    (.tooManyRequests ("Chat-log storage quota reached; contact support or retry after pending " ++
      "uploads expire.") "TRAJECTORY_BUSY")

/-! ## Uploads -/

/-- What is left free of the scratch disk. -/
def scratchReserve : ℕ := 6 * gibibyte

/-- `require_scratch_space`, with so many bytes free. -/
def requireScratchSpace (free sizeHint : ℕ) : Except TrajectoryError Unit :=
  require (sizeHint + scratchReserve ≤ free)
    (.tooManyRequests "Chat-log scratch storage is busy; retry later." "TRAJECTORY_BUSY")

/-- `DELETE FROM trajectory_uploads WHERE …` -/
def deleteUploads (db : TrajectoryStore) (p : TrajectoryUpload → Bool) : TrajectoryStore :=
  { db with uploads :=
      ⟨db.uploads.rows.filter fun u ↦ ¬ p u, db.uploads.nodup.sublist (List.filter_sublist.map _)⟩ }

/-- The upload, while it is the account's and has not expired. -/
def ownedUpload (db : TrajectoryStore) (uploadId accountId : Uuid) (now : Instant) :
    Except TrajectoryError TrajectoryUpload := do
  let u ← need (db.uploads.find? uploadId)
    (.notFound "Chat-log upload not found or expired; select the file again.")
  require (u.accountId = accountId ∧ now < u.expiresAt)
    (.notFound "Chat-log upload not found or expired; select the file again.")
  return u

def TrajectoryUpload.appended (offset : ℕ) (raw : Bytes) (u : TrajectoryUpload) :
    TrajectoryUpload :=
  { u with parts := u.parts ++ [(offset, raw)], receivedBytes := u.receivedBytes + raw.length }

theorem TrajectoryUpload.appended_id (offset : ℕ) (raw : Bytes) (u : TrajectoryUpload) :
    (appended offset raw u).id = u.id := rfl

/-- Take the next part, or one that was taken before again. -/
def append (uploadId accountId : Uuid) (offset : ℕ) (raw : Bytes) (free : ℕ) (now : Instant) :
    Txn TrajectoryStore TrajectoryError ℕ := fun db ↦ do
  let u ← ownedUpload db uploadId accountId now
  requireScratchSpace free raw.length
  require (offset % chunkBytes = 0 ∧ offset < u.byteLength ∧
      raw.length = min chunkBytes (u.byteLength - offset))
    (.badRequest "Upload part has an invalid offset or length.")
  if offset < u.receivedBytes then
    require (u.parts.lookup offset = some raw)
      (.conflict "Upload part differs from the part already received." none)
    return (u.receivedBytes, db)
  else do
    require (offset = u.receivedBytes) (.conflict "Upload parts must be sent in order." none)
    let uploads := db.uploads.modify u.id (TrajectoryUpload.appended offset raw)
      (TrajectoryUpload.appended_id offset raw)
    return (u.receivedBytes + raw.length, { db with uploads })

/-- A package as a request holds it: whose request, the bytes, and the upload they were read
from, if they were. -/
structure Received where
  accountId : Uuid
  content : Bytes
  uploadId : Option Uuid
  deriving DecidableEq

/-- It is kept in chunks. -/
def Received.chunked (r : Received) : Bool := r.uploadId.isSome && inlineBytes < r.content.length

/-- `getattr(raw, "upload_id", None)` -/
def Received.excluded (r : Received) : Option Uuid := if r.chunked then r.uploadId else none

/-- The loop of `read`: the part at every offset, the next behind it.  A part is of at least one
byte, so as many rounds as there are bytes are enough. -/
def readParts (free : ℕ → ℕ) (u : TrajectoryUpload) : ℕ → ℕ → Except TrajectoryError Bytes
  | 0, _ => .ok []
  | n + 1, offset =>
    if u.byteLength ≤ offset then .ok []
    else do
      let data ← need (u.parts.lookup offset) (.conflict "Chat-log upload is incomplete." none)
      require (data.length = min chunkBytes (u.byteLength - offset))
        (.conflict "Chat-log upload is incomplete." none)
      requireScratchSpace (free offset) data.length
      let rest ← readParts free u n (offset + data.length)
      return data ++ rest

/-- `read`: a complete upload, put together in a file.  The scratch disk is looked at for the file
and again for every part, at its offset. -/
def read (db : TrajectoryStore) (uploadId accountId : Uuid) (free : Option ℕ → ℕ) (now : Instant) :
    Except TrajectoryError Received := do
  let u ← ownedUpload db uploadId accountId now
  require (u.receivedBytes = u.byteLength) (.conflict "Chat-log upload is incomplete." none)
  requireScratchSpace (free none) u.byteLength
  let content ← readParts (fun offset ↦ free (some offset)) u u.byteLength 0
  return ⟨accountId, content, some uploadId⟩

/-! ## Packages -/

/-- The bytes cut into chunks. -/
def cut : ℕ → Bytes → List Bytes
  | 0, _ => []
  | n + 1, content =>
    if content = [] then [] else content.take chunkBytes :: cut n (content.drop chunkBytes)

theorem length_cut {n : ℕ} {content : Bytes} (h : content.length ≤ n * chunkBytes) :
    ((cut n content).map List.length).sum = content.length := by
  induction n generalizing content with
  | zero =>
    rw [zero_mul, Nat.le_zero, List.length_eq_zero_iff] at h
    rw [h]
    rfl
  | succ n ih =>
    rw [cut]
    split
    · rename_i hnil
      rw [hnil]
      rfl
    · have hrest : (content.drop chunkBytes).length ≤ n * chunkBytes := by
        rw [List.length_drop, Nat.succ_mul] at *
        omega
      rw [List.map_cons, List.sum_cons, ih hrest, List.length_take, List.length_drop]
      omega

/-- A claim without its package. -/
def cleared (c : TrajectoryClaim) : TrajectoryClaim :=
  { c with package := none, packageChunked := false, chunks := [] }

theorem cleared_id (c : TrajectoryClaim) : (cleared c).id = c.id := rfl

/-- A claim with its package: inline, or in chunks. -/
def packed (r : Received) (c : TrajectoryClaim) : TrajectoryClaim :=
  if r.chunked then
    { c with
      package := none
      packageChunked := true
      chunks := cut r.content.length r.content }
  else { c with package := some r.content, packageChunked := false, chunks := [] }

theorem packed_id (r : Received) (c : TrajectoryClaim) : (packed r c).id = c.id := by
  unfold packed
  split <;> rfl

theorem packed_accountId (r : Received) (c : TrajectoryClaim) :
    (packed r c).accountId = c.accountId := by
  unfold packed
  split <;> rfl

/-- All of the package is kept. -/
theorem stored_packed (r : Received) (c : TrajectoryClaim) :
    (packed r c).stored = r.content.length := by
  unfold packed
  split
  · rw [TrajectoryClaim.stored]
    refine (zero_add _).trans (length_cut ?_)
    exact Nat.le_mul_of_pos_right _ (by decide)
  · rw [TrajectoryClaim.stored]
    exact add_zero _

/-- `DELETE FROM trajectory_claims WHERE …` -/
def deleteClaims (db : TrajectoryStore) (p : TrajectoryClaim → Bool) : TrajectoryStore :=
  { db with claims :=
      ⟨db.claims.rows.filter fun c ↦ ¬ p c, db.claims.nodup.sublist (List.filter_sublist.map _)⟩ }

/-! ## What holds the lock -/

inductive Written where
  | upload (u : TrajectoryUpload)
  | claim (c : TrajectoryClaim)

/-- What the holder of the quota lock has deleted and written, and not committed. -/
structure Uncommitted where
  uploads : List Uuid
  claims : List Uuid
  written : Option Written

def Uncommitted.dropsUpload (t : Uncommitted) (u : TrajectoryUpload) : Bool := u.id ∈ t.uploads

/-- A row that is rewritten is dropped and written anew. -/
def Uncommitted.dropsClaim (t : Uncommitted) (c : TrajectoryClaim) : Bool :=
  c.id ∈ t.claims || match t.written with
    | some (.claim c') => c.id = c'.id
    | _ => false

def Uncommitted.commit (t : Uncommitted) (db : TrajectoryStore) : TrajectoryStore :=
  let db := deleteClaims (deleteUploads db t.dropsUpload) t.dropsClaim
  match t.written with
  | none => db
  | some (.upload u) => { db with uploads := db.uploads.insertNew u }
  | some (.claim c) => { db with claims := db.claims.insertNew c }

/-- `start`: reserve the declared size.  An upload of the account is replaced. -/
def start (accountId : Uuid) (byteLength : ℕ) (id : Uuid) (now : Instant) (db : TrajectoryStore) :
    Except TrajectoryError Uncommitted := do
  let replaced := fun u : TrajectoryUpload ↦ decide (u.expiresAt ≤ now ∨ u.accountId = accountId)
  let view := deleteUploads db replaced
  require (view.uploads.rows.length < maxPendingUploads)
    (.tooManyRequests "Chat-log uploads are busy; retry shortly." "TRAJECTORY_BUSY")
  checkCapacity view accountId byteLength none none
  require (1 ≤ byteLength ∧ byteLength ≤ maxPackageBytes) (.integrityError "trajectory_upload_size")
  return ⟨(db.uploads.rows.filter replaced).map (·.id), [],
    some (.upload ⟨id, accountId, byteLength, 0, [], now + 24 * hour⟩)⟩

/-- The uploads `discard` deletes once a request is done with its package. -/
def Received.discarded (r : Received) (db : TrajectoryStore) : List Uuid :=
  (db.uploads.rows.filter fun u ↦ some u.id = r.uploadId ∧ u.accountId = r.accountId).map (·.id)

/-- `save`, in a transaction that has deleted some claims. -/
def save (deleted : List Uuid) (claim : TrajectoryClaim) (r : Received) (db : TrajectoryStore) :
    Except TrajectoryError Uncommitted := do
  let view := deleteClaims db fun c ↦ c.id ∈ deleted
  checkCapacity view claim.accountId r.content.length (some claim.id) r.excluded
  require (r.chunked ∨ r.content.length ≤ inlineBytes) (.integrityError "trajectory_package_bound")
  return ⟨r.discarded db, deleted, some (.claim (packed r claim))⟩

/-- `deposit_package`: logs for a new bounty, received before the proof.  `claim` is the new
row, its package still to be saved.  What else is checked only refuses. -/
def depositPackage (claim : TrajectoryClaim) (r : Received) (now : Instant)
    (db : TrajectoryStore) : Except TrajectoryError Uncommitted :=
  match db.claims.rows.find? fun c ↦ c.proofDigest = claim.proofDigest with
  | none => save [] claim r db
  | some existing => do
    require (existing.status = .deposited)
      (.conflict "Logs for this proof were already submitted with it."
        (some "TRAJECTORY_ALREADY_SUBMITTED"))
    require (existing.accountId = claim.accountId ∨ existing.expiresAt ≤ now)
      (.conflict "Evidence has already been submitted." (some "TRAJECTORY_DUPLICATE"))
    if now < existing.expiresAt ∧ existing.packageDigest = claim.packageDigest ∧
        existing.rewardTargetId = claim.rewardTargetId then
      return ⟨r.discarded db, [], none⟩
    else save [existing.id] claim r db

end Conjectures.Trajectories

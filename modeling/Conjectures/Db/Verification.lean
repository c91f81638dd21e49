import Conjectures.Db.Instructions
import Conjectures.Db.Reviews

/-!
# The verification queue

`conjectures_subnet/db/verification.py`: claiming work off the queue and giving it back.  Each
statement is one guarded `UPDATE`, so it is atomic without a lock held by the caller; `now` is
the transaction's timestamp.

A claim skips the rows a concurrent statement has locked.  Which these are is for the world to
say (`locked`), and so is `created_at`, which only orders the candidates.
-/

namespace Conjectures.Db

open Lib
open scoped Instant

/-! ## Leases -/

/-- The exact (task, bundle, intake snapshot) a worker may claim. -/
structure ServedSubmissionKey where
  taskId : String
  taskBundleSha256 : Digest
  problemId : String
  deriving DecidableEq

structure ClaimedSubmission where
  submissionId : Uuid
  taskId : String
  taskBundleSha256 : Digest
  proofDigest : Digest
  attempts : ℤ
  leaseUntil : Instant
  problemId : String
  /-- milliseconds from intake to this claim -/
  queuedMs : ℚ
  deriving DecidableEq

/-- A lease that still authorizes a verdict. -/
def Submission.LeasedTo (s : Submission) (owner : String) (now : Instant) : Prop :=
  s.verificationLeaseOwner = some owner ∧ ∃ expiry ∈ s.verificationLeaseUntil, now ≤ expiry

instance Submission.decidableLeasedTo (s : Submission) (owner : String) (now : Instant) :
    Decidable (s.LeasedTo owner now) :=
  decidable_of_iff (s.verificationLeaseOwner = some owner ∧
    s.verificationLeaseUntil.any (now ≤ ·) = true) <| by
      simp [LeasedTo, Option.any_eq_true]

/-- What `EXTEND`, `RELEASE` and `RELEASE_UNCONSUMED` ask of the row. -/
def Submission.HeldBy (s : Submission) (owner : String) : Prop :=
  s.verificationStatus = .unverified ∧ s.verificationLeaseOwner = some owner

instance Submission.decidableHeldBy (s : Submission) (owner : String) :
    Decidable (s.HeldBy owner) := by
  unfold HeldBy; infer_instance

/-! ## Writes -/

def Submission.claimed (owner : String) (expiry : Instant) (s : Submission) : Submission :=
  { s with
    verificationLeaseUntil := some expiry
    verificationLeaseOwner := some owner
    verificationAttempts := s.verificationAttempts + 1 }

def Submission.extended (expiry : Instant) (s : Submission) : Submission :=
  { s with verificationLeaseUntil := some expiry }

/-- The lease is dropped and the attempt given back. -/
def Submission.refunded (s : Submission) : Submission :=
  { s with
    verificationLeaseUntil := none
    verificationLeaseOwner := none
    verificationAttempts := s.verificationAttempts - 1 }

theorem Submission.claimed_id (owner : String) (expiry : Instant) (s : Submission) :
    (s.claimed owner expiry).id = s.id := rfl

theorem Submission.extended_id (expiry : Instant) (s : Submission) :
    (s.extended expiry).id = s.id := rfl

theorem Submission.refunded_id (s : Submission) : s.refunded.id = s.id := rfl

/-- Write one row. -/
def writeSubmission (db : RewardDatabase) (s : Submission) (f : Submission → Submission)
    (hf : ∀ s, (f s).id = s.id) : RewardDatabase :=
  { db with submissions := db.submissions.modify s.id f hf }

theorem replaces_writeSubmission {db : RewardDatabase} {s : Submission}
    (hs : s ∈ db.submissions.rows) (f : Submission → Submission) (hf : ∀ s, (f s).id = s.id) :
    db.submissions.Replaces (writeSubmission db s f hf).submissions s (f s) :=
  @Table.replaces_modify _ _ _ _ _ hf _ _ hs

/-! ## The statements -/

structure ClaimRequest where
  owner : String
  leaseSeconds : ℤ
  maxAttempts : ℤ
  served : List ServedSubmissionKey
  excluded : List Uuid

/-- The `WHERE` of `CLAIM`. -/
def Claimable (r : ClaimRequest) (now : Instant) (s : Submission) : Prop :=
  (∃ key ∈ r.served, key.taskId = s.taskId ∧ key.taskBundleSha256 = s.taskBundleSha256 ∧
    key.problemId = s.problemId) ∧
  s.verificationStatus = .unverified ∧ (∀ expiry ∈ s.verificationLeaseUntil, expiry < now) ∧
  s.verificationAttempts < r.maxAttempts ∧ s.id ∉ r.excluded

instance Claimable.decidable (r : ClaimRequest) (now : Instant) (s : Submission) :
    Decidable (Claimable r now s) := by
  unfold Claimable; infer_instance

/-- Lease the oldest unclaimed unverified submission this worker serves, or none. -/
def claimNext (createdAt : Uuid → Instant) (r : ClaimRequest) (locked : List Uuid)
    (now : Instant) : Txn RewardDatabase RewardError (Option ClaimedSubmission) := fun db ↦ do
  require (0 < r.leaseSeconds) (.valueError "lease_seconds must be positive")
  require (0 < r.maxAttempts) (.valueError "max_attempts must be positive")
  let candidates := db.submissions.rows.filter fun s ↦ Claimable r now s ∧ s.id ∉ locked
  match candidates.argmin fun s ↦ createdAt s.id with
  -- an empty `served` has no candidate either
  | none => return (none, db)
  | some s =>
    require (1 ≤ r.owner.length ∧ r.owner.length ≤ 128)
      (.integrityError "verification_lease_owner_len")
    let expiry := now + r.leaseSeconds * second
    return (some
      { submissionId := s.id
        taskId := s.taskId
        taskBundleSha256 := s.taskBundleSha256
        proofDigest := s.proofDigest
        attempts := s.verificationAttempts + 1
        leaseUntil := expiry
        problemId := s.problemId
        queuedMs := (now - createdAt s.id : ℤ) / 1000 },
      writeSubmission db s (·.claimed r.owner expiry) (Submission.claimed_id r.owner expiry))

/-- A guarded update of one row: whether it matched. -/
def updateHeld (submissionId : Uuid) (guard : Submission → Bool) (f : Submission → Submission)
    (hf : ∀ s, (f s).id = s.id) : Txn RewardDatabase RewardError Bool := fun db ↦
  match db.submissions.find? submissionId with
  | some s => if guard s then .ok (true, writeSubmission db s f hf) else .ok (false, db)
  | none => .ok (false, db)

/-- Re-stamp our lease to cover the work. -/
def extend (submissionId : Uuid) (owner : String) (leaseSeconds : ℤ) (now : Instant) :
    Txn RewardDatabase RewardError Bool := fun db ↦ do
  require (0 < leaseSeconds) (.valueError "lease_seconds must be positive")
  updateHeld submissionId (·.HeldBy owner) (·.extended (now + leaseSeconds * second))
    (Submission.extended_id _) db

/-- Drop our lease, so that the submission is claimable again now. -/
def release (submissionId : Uuid) (owner : String) : Txn RewardDatabase RewardError Bool :=
  updateHeld submissionId (·.HeldBy owner) Submission.unleased Submission.unleased_id

/-- Undo our own claim, attempt included: the submission was never ours to verify. -/
def releaseUnconsumed (submissionId : Uuid) (owner : String) :
    Txn RewardDatabase RewardError Bool :=
  updateHeld submissionId (fun s ↦ s.HeldBy owner ∧ 0 < s.verificationAttempts)
    Submission.refunded Submission.refunded_id

/-- The row, if a live lease still authorizes a final verdict. -/
def lockOwnedForRecording (db : RewardDatabase) (submissionId : Uuid) (owner : String)
    (now : Instant) : Option Submission :=
  (db.submissions.find? submissionId).filter fun s ↦
    s.verificationStatus = .unverified ∧ s.LeasedTo owner now

/-! ## What they do -/

theorem claimNext_ok {createdAt : Uuid → Instant} {r : ClaimRequest} {locked : List Uuid}
    {now : Instant} {db db' : RewardDatabase} {claim : Option ClaimedSubmission}
    (h : claimNext createdAt r locked now db = .ok (claim, db')) :
    (claim = none ∧ db' = db) ∨ ∃ s ∈ db.submissions.rows, ∃ c, claim = some c ∧
      Claimable r now s ∧ c.submissionId = s.id ∧ now ≤ c.leaseUntil ∧
      db' = writeSubmission db s (·.claimed r.owner c.leaseUntil)
        (Submission.claimed_id r.owner c.leaseUntil) := by
  simp only [claimNext, bind_eq_ok, require_eq_ok] at h
  obtain ⟨-, hseconds, -, -, h⟩ := h
  split at h
  · cases h
    exact Or.inl ⟨rfl, rfl⟩
  · rename_i s holdest
    simp only [bind_eq_ok, require_eq_ok] at h
    obtain ⟨-, -, h⟩ := h
    cases h
    have hmem := List.mem_filter.mp (List.argmin_mem holdest)
    obtain ⟨hclaimable, -⟩ := of_decide_eq_true hmem.2
    refine Or.inr ⟨s, hmem.1, _, rfl, hclaimable, rfl, ?_, rfl⟩
    have : 0 < r.leaseSeconds * second := Int.mul_pos hseconds (by decide)
    exact (lt_add_of_pos_right now this).le

theorem updateHeld_ok {submissionId : Uuid} {guard : Submission → Bool}
    {f : Submission → Submission} {hf : ∀ s, (f s).id = s.id} {db db' : RewardDatabase}
    {held : Bool} (h : updateHeld submissionId guard f hf db = .ok (held, db')) :
    (held = false ∧ db' = db ∧
        ∀ s ∈ db.submissions.rows, s.id = submissionId → guard s = false) ∨
      ∃ s ∈ db.submissions.rows, s.id = submissionId ∧ guard s = true ∧ held = true ∧
        db' = writeSubmission db s f hf := by
  unfold updateHeld at h
  split at h
  · rename_i s hfound
    obtain ⟨hmem, hid⟩ := Table.find?_eq_some.mp hfound
    split at h <;> cases h
    · exact Or.inr ⟨s, hmem, hid, ‹_›, rfl, rfl⟩
    · refine Or.inl ⟨rfl, rfl, fun s' hs' hid' ↦ ?_⟩
      rw [db.submissions.eq_of_key hs' hmem (hid'.trans hid.symm)]
      simpa using ‹¬ guard s = true›
  · rename_i hnone
    cases h
    exact Or.inl ⟨rfl, rfl, fun s hs hid ↦ absurd hid (Table.find?_eq_none.mp hnone s hs)⟩

theorem lockOwnedForRecording_eq_some {db : RewardDatabase} {submissionId : Uuid}
    {owner : String} {now : Instant} {s : Submission} :
    lockOwnedForRecording db submissionId owner now = some s ↔
      (s ∈ db.submissions.rows ∧ s.id = submissionId) ∧
        s.verificationStatus = .unverified ∧ s.LeasedTo owner now := by
  simp [lockOwnedForRecording, Option.filter_eq_some_iff, Table.find?_eq_some]

end Conjectures.Db

import Conjectures.Db.Models

/-!
# Chat logs

The rows of `conjectures_subnet/db/trajectory_models.py`: a claim is one package of chat logs and
where its review is, an upload is a package on its way in.  The chunks of a package and the
parts of an upload are kept with the row they are deleted with.
-/

namespace Conjectures.Db

open Lib

inductive TrajectoryStatus where
  | deposited
  | underReview
  | needsChanges
  | rejected
  | approvedManualPayment
  | approvedBountyEvidence
  | withdrawn
  | expired
  | revokedProofChanged
  deriving DecidableEq

/-- `APPROVED` -/
def TrajectoryStatus.Approved (s : TrajectoryStatus) : Prop :=
  s = .approvedManualPayment ∨ s = .approvedBountyEvidence

instance TrajectoryStatus.decidableApproved (s : TrajectoryStatus) : Decidable s.Approved := by
  unfold Approved; infer_instance

/-- `FORFEITED`: the outcomes that give up the bounty. -/
def TrajectoryStatus.Forfeited (s : TrajectoryStatus) : Prop := s = .rejected ∨ s = .withdrawn

instance TrajectoryStatus.decidableForfeited (s : TrajectoryStatus) :
    Decidable s.Forfeited := by
  unfold Forfeited; infer_instance

/-- The policies a proof was accepted under. -/
structure PolicySnapshot where
  reviewPolicyVersion : String
  bountyPolicyVersion : String
  deriving DecidableEq

/-- One audited change. -/
structure TrajectoryEvent where
  action : String
  actor : Uuid
  time : Instant
  revision : ℕ
  stateVersion : ℕ
  packageSha256 : Digest
  proofReviewDecisionId : Option ℕ
  deriving DecidableEq

structure TrajectoryClaim where
  id : Uuid
  /-- none while the logs wait for the proof they must accompany -/
  submissionId : Option Uuid
  accountId : Uuid
  proofDigest : Digest
  rewardTargetId : String
  taskBundleSha256 : Digest
  status : TrajectoryStatus
  /-- zero for logs a bounty requires -/
  amountUsdCents : ℕ
  package : Option Bytes
  packageChunked : Bool
  chunks : List Bytes
  packageDigest : Digest
  stateVersion : ℕ
  offerStartAt : Instant
  revision : ℕ
  proofReviewDecisionId : Option ℕ
  reviewerId : Option Uuid
  reviewNote : Option String
  checklist : Bool
  proofPolicySnapshot : PolicySnapshot
  history : List TrajectoryEvent
  createdAt : Instant
  expiresAt : Instant
  auditExpiresAt : Instant
  deriving DecidableEq

structure TrajectoryUpload where
  id : Uuid
  accountId : Uuid
  byteLength : ℕ
  receivedBytes : ℕ
  /-- the parts, each under its offset -/
  parts : List (ℕ × Bytes)
  expiresAt : Instant
  deriving DecidableEq

/-- The tables of chat-log storage. -/
structure TrajectoryStore where
  uploads : Table TrajectoryUpload.id
  claims : Table TrajectoryClaim.id

def TrajectoryStore.empty : TrajectoryStore := ⟨.empty _, .empty _⟩

/-- How many bytes of a package are kept. -/
def TrajectoryClaim.stored (c : TrajectoryClaim) : ℕ :=
  (c.package.map List.length).getD 0 + (c.chunks.map List.length).sum

/-- What the storage check and a request see of a refusal. -/
inductive TrajectoryError where
  | notFound (message : String)
  | badRequest (message : String)
  | conflict (message : String) (reasonCode : Option String)
  | tooManyRequests (message reasonCode : String)
  | integrityError (constraint : String)
  deriving DecidableEq

end Conjectures.Db

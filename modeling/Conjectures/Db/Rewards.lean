import Conjectures.Db.Errors

/-!
# The rows behind a reward

The tables a reward passes through, from the verifier's verdict to the transfer that pays
for it: verification runs, review decisions, reward events, the actions on their payout
instructions, and the payouts that left the treasury.  They stand next to the tables of the
credit side and share its submissions.

A column no modelled function reads or writes is left out.
-/

namespace Conjectures.Db

open Lib

/-! ## Verdicts and reviews -/

/-- One completed verifier run. -/
structure VerificationRun where
  id : ℕ
  submissionId : Uuid
  taskBundleSha256 : Digest
  proofDigest : Digest
  verifierVersion : String
  containerDigest : Digest
  sandboxMode : String
  accepted : Bool
  reasonCode : String
  stage : String
  checks : Option (List (String × Bool))
  report : Option Bytes
  startedAt : Instant
  finishedAt : Instant
  deriving DecidableEq

inductive ReviewOutcome where
  | approved
  | rejected
  deriving DecidableEq

inductive ReviewerKind where
  /-- the only kind that may reject a Lean-valid proof -/
  | human
  /-- manual review was disabled; still a recorded policy decision -/
  | automatic
  /-- evidence, never binding -/
  | advisory
  deriving DecidableEq

/-- One row of the append-only review history. -/
structure ReviewDecision where
  id : ℕ
  submissionId : Uuid
  decision : ReviewOutcome
  kind : ReviewerKind
  reviewer : String
  policyVersion : String
  reasonCode : String
  notes : Option String
  notesPublic : Option String
  supersedesId : Option ℕ
  deriving DecidableEq

/-! ## Obligations -/

inductive PayoutState where
  /-- committed before the extrinsic is signed -/
  | pending
  /-- broadcast, awaiting finality -/
  | submitted
  | confirmed
  | failed
  deriving DecidableEq

/-- One payout attempt. -/
structure RewardEvent where
  id : ℕ
  submissionId : Uuid
  eligibilityReason : String
  amountRao : Rao
  destinationColdkey : Ss58
  /-- history only: where a payout moved the stake to -/
  destinationHotkey : Option Ss58
  status : PayoutState
  /-- the watcher decoded the matching chain event -/
  chainObserved : Bool
  extrinsicReference : Option String
  submittedBlock : Option ℕ
  finalizedBlock : Option ℕ
  failureReason : Option String
  generationKey : Option String
  createdAt : Instant
  submittedAt : Option Instant
  confirmedAt : Option Instant
  deriving DecidableEq

inductive InstructionAction where
  | cancel
  | restore
  deriving DecidableEq

/-- What an operator checked on the chain, as far as the check reads it: a field that is
missing, or not of its type, is `none`. -/
structure ChainEvidence where
  checkedAt : Option Instant
  network : Option String
  multisigAddress : Option String
  pendingMultisigCount : Option ℤ
  noMatchingChainTransfer : Option Bool
  finalizedBlockHash : Option String
  deriving DecidableEq

/-- One cancellation or restoration of a payout instruction. -/
structure PayoutInstructionAction where
  id : ℕ
  rewardEventId : ℕ
  action : InstructionAction
  actor : String
  reason : String
  reviewDecisionId : ℕ
  chainEvidence : ChainEvidence
  deriving DecidableEq

inductive NotificationState where
  | pending
  | sending
  | sent
  | failed
  deriving DecidableEq

/-- One signer being told about one reward event. -/
structure PayoutDiscordDelivery where
  rewardEventId : ℕ
  signerWallet : String
  status : NotificationState
  deriving DecidableEq

def PayoutDiscordDelivery.key (d : PayoutDiscordDelivery) : ℕ × String :=
  (d.rewardEventId, d.signerWallet)

/-! ## What left the treasury -/

inductive TreasuryPayoutState where
  /-- finalized, bound to nothing yet -/
  | unclaimed
  | claimed
  /-- ruled out by an operator, and it says why -/
  | disregarded
  deriving DecidableEq

/-- One finalized payout. -/
structure TreasuryPayout where
  id : ℕ
  extrinsicReference : String
  block : ℕ
  blockTimestamp : Instant
  extrinsicIndex : ℕ
  eventIndex : ℕ
  originColdkey : Ss58
  originHotkey : Ss58
  destinationColdkey : Ss58
  destinationHotkey : Ss58
  originNetuid : ℕ
  destinationNetuid : ℕ
  amountRao : Rao
  taoEquivalentRao : Option Rao
  /-- the Alpha price in dollars, and when it was observed -/
  price : Option (ℚ × Instant)
  status : TreasuryPayoutState
  rewardEventId : Option ℕ
  note : Option String
  deriving DecidableEq

/-! ## The timeline -/

/-- What a timeline entry refers to. -/
inductive TimelineContext where
  | payout (reference : String) (block : ℕ) (amountRao : Rao) (replaced : Option String)
  | reorged (reference : String)
  | instruction (rewardEventId actionId decisionId : ℕ)
  deriving DecidableEq

/-- What a miner sees while waiting. -/
structure SubmissionEvent where
  id : ℕ
  submissionId : Uuid
  kind : String
  detail : String
  context : TimelineContext
  actor : String
  /-- absent where the database's clock is taken -/
  occurredAt : Option Instant
  deriving DecidableEq

/-! ## The database -/

/-- The tables of the reward side, next to those of the credit side. -/
structure RewardDatabase extends Database where
  /-- the roles accounts hold -/
  roles : List (Uuid × String)
  runs : Table VerificationRun.id
  decisions : Table ReviewDecision.id
  events : Table RewardEvent.id
  actions : Table PayoutInstructionAction.id
  notifications : Table PayoutDiscordDelivery.key
  payouts : Table TreasuryPayout.id
  timeline : Table SubmissionEvent.id

def RewardDatabase.empty : RewardDatabase where
  toDatabase := .empty
  roles := []
  runs := .empty _
  decisions := .empty _
  events := .empty _
  actions := .empty _
  notifications := .empty _
  payouts := .empty _
  timeline := .empty _

/-! ## Refusals -/

/-- A state's label, as the schema and the error texts spell it. -/
def ManualReviewState.text : ManualReviewState → String
  | .unreviewed => "UNREVIEWED"
  | .rejected => "REJECTED"
  | .approved => "APPROVED"

def RewardState.text : RewardState → String
  | .ineligible => "INELIGIBLE"
  | .eligible => "ELIGIBLE"
  | .rewarded => "REWARDED"
  | .failed => "FAILED"

def PayoutState.text : PayoutState → String
  | .pending => "PENDING"
  | .submitted => "SUBMITTED"
  | .confirmed => "CONFIRMED"
  | .failed => "FAILED"

def TreasuryPayoutState.text : TreasuryPayoutState → String
  | .unclaimed => "UNCLAIMED"
  | .claimed => "CLAIMED"
  | .disregarded => "DISREGARDED"

def TaskMode.text : TaskMode → String
  | .formalized => "formalized"
  | .counterexample => "counterexample"

/-- A refusal on the ground of durable state, with the details it is reported with. -/
inductive ReviewConflict where
  | alreadyDecided (manualReviewStatus : ManualReviewState)
  | alreadyInFlight (rewardStatus : RewardState)
  | targetHeld (message rewardTargetId : String) (heldBy : Uuid)
  | notDecided (manualReviewStatus : ManualReviewState)
  | stale (current : ReviewDecision)
  | alreadyPaid (rewardStatus : RewardState)
  /-- a refused change of a payout instruction -/
  | instruction (message reasonCode : String)
  deriving DecidableEq

/-- The failures the reward stores raise. -/
inductive RewardError where
  | recordNotFound (message : String)
  | recordConflict (conflict : ReviewConflict)
  /-- `PayoutConflict`: stored payout state contradicts the chain event -/
  | payoutConflict (message : String)
  | valueError (message : String)
  | integrityError (constraint : String)
  deriving DecidableEq

def ReviewConflict.message : ReviewConflict → String
  | .alreadyDecided _ => "this submission has already been decided"
  | .alreadyInFlight _ =>
    "this submission's reward is already in flight; it cannot be decided now"
  | .targetHeld message _ _ => message
  | .notDecided _ => "this submission has no binding decision to correct"
  | .stale _ => "this decision is no longer the current one; re-read it and correct that"
  | .alreadyPaid _ =>
    "a payout already exists for this submission; the approval cannot be withdrawn here"
  | .instruction message _ => message

def ReviewConflict.reasonCode : ReviewConflict → String
  | .alreadyDecided _ => "REVIEW_ALREADY_DECIDED"
  | .alreadyInFlight _ => "REWARD_ALREADY_IN_FLIGHT"
  | .targetHeld .. => "REWARD_TARGET_ALREADY_HELD"
  | .notDecided _ => "REVIEW_NOT_DECIDED"
  | .stale _ => "REVIEW_CORRECTION_STALE"
  | .alreadyPaid _ => "REWARD_ALREADY_PAID"
  | .instruction _ reasonCode => reasonCode

end Conjectures.Db

import Mathlib.Data.Prod.Lex
import Conjectures.Db.Reviews

/-!
# What a quote reads

The rows `conjectures_subnet/bounty.py` prices a target from, next to those of the reward
side: when each target opened and on which terms, what the bonus ledger has promised, and
whether the proof of a submission was confirmed (`conjectures_subnet/db/proof_status.py`).
-/

namespace Conjectures.Bounty

open Lib Db
open scoped Instant

/-! ## Rows -/

/-- The pricing policy a target opened under. -/
inductive TargetPolicy where
  | legacy
  /-- `TREASURY_CHAT_POLICY`: reviewed chat logs are required -/
  | treasuryChat
  deriving DecidableEq

def treasuryChatPolicy : String := "linear-age-v3-chat-logs"

def TargetPolicy.text : TargetPolicy → String
  | .legacy => "legacy"
  | .treasuryChat => treasuryChatPolicy

/-- The durable age origin of one reward target. -/
structure BountyTask where
  rewardTargetId : String
  pricingPolicy : TargetPolicy
  openedAt : Instant
  /-- the starting treasury share the target opened with -/
  startShareNumerator : ℤ
  startShareDenominator : ℤ
  /-- `bounty_tasks_start_share_positive` -/
  start_share_positive : 0 < startShareNumerator ∧ 0 < startShareDenominator
  deriving DecidableEq

inductive TrajectoryPaymentState where
  | prepared
  | confirmed
  | cancelled
  deriving DecidableEq

/-- One bonus the treasury has promised for a chat log, or has paid. -/
structure TrajectoryPayment where
  originColdkey : Ss58
  originHotkey : Ss58
  status : TrajectoryPaymentState
  amountRao : Rao
  completedAt : Option Instant
  /-- `trajectory_payment_amount` -/
  amount_positive : 0 < amountRao

/-- One claim on a bonus, with the actions in its history. -/
structure TrajectoryClaim where
  submissionId : Option Uuid
  amountUsdCents : ℤ
  history : List String

/-- The tables the pricer reads, next to those of the reward side. -/
structure BountyDatabase extends RewardDatabase where
  tasks : Table BountyTask.rewardTargetId
  /-- `submissions.created_at` -/
  createdAt : Uuid → Instant
  /-- `submissions.bounty_locked_at` -/
  bountyLockedAt : Uuid → Option Instant
  trajectoryPayments : List TrajectoryPayment
  trajectoryClaims : List TrajectoryClaim

/-! ## Who is in the way -/

/-- The submission that holds the reward of a target. -/
def holder (db : BountyDatabase) (target : String) : Option Uuid :=
  (db.submissions.rows.find? fun s ↦
    s.rewardTargetId = target ∧ s.rewardStatus ≠ .ineligible).map Submission.id

/-- A confirmed proof whose chat logs are not accepted yet. -/
def DocumentationPending (db : BountyDatabase) (s : Submission) : Prop :=
  s.verificationStatus = .verified ∧
    (s.manualReviewStatus = .unreviewed ∨
      (s.manualReviewStatus = .rejected ∧
        (latestBindingDecision db.toRewardDatabase s.id).map (·.reasonCode) =
          some "CHAT_LOGS_NOT_ACCEPTED")) ∧
    ∃ c ∈ db.trajectoryClaims, c.submissionId = some s.id ∧ c.amountUsdCents = 0 ∧
      "PROOF_CONFIRMED" ∈ c.history

instance DocumentationPending.decidable (db : BountyDatabase) (s : Submission) :
    Decidable (DocumentationPending db s) := by
  unfold DocumentationPending; infer_instance

/-- The first submission to a target whose documentation is pending. -/
def pending (db : BountyDatabase) (target : String) : Option Uuid :=
  ((db.submissions.rows.filter fun s ↦
    s.rewardTargetId = target ∧ DocumentationPending db s).argmin
      fun s ↦ toLex (db.createdAt (Submission.id s), Submission.id s)).map Submission.id

end Conjectures.Bounty

import Conjectures.Bounty.Quotes
import Conjectures.Rewards.Steps

/-!
# The treasury

Intake locks an amount for each submission, verifiers and reviewers reject or approve, and a
payout moves what an obligation says out of the treasury.  The state is the database next to the
treasury's balance on the chain, and the steps are taken one after the other: a payout is
confirmed as it leaves the balance, and every quote reads the balance as it is.

A correction that reinstates a rejected submission is not among the steps: a lock that was
released may have been priced out since.
-/

namespace Conjectures.Bounty

open Lib Db Rewards

structure Treasury where
  db : BountyDatabase
  /-- the pool's balance on the chain -/
  gross : Rao

/-! ## Locking a submission -/

inductive LockError where
  | pricing (e : PricingError)
  | refused (e : QuoteRefusal)
  | constraint (c : SubmissionsConstraint)
  deriving DecidableEq

/-- The review policies under which the lock caps an award for a defective formalization.  Intake
writes whichever policy it is configured with. -/
def cappedPolicies : List String := ["v3", "v4"]

/-- The row intake writes at a quote. -/
def LiveBounty.priced (quote : LiveBounty) (amount : Rao) (row : Submission) : Submission :=
  { row with bountyAmountRao := amount, bountyPolicyVersion := quote.policyVersion }

/-- Quote a submission, and insert it at the amount it was quoted. -/
def lockSubmission (p : DynamicBountyPricer) (clock : Instant) (gross : Rao) (row : Submission) :
    Txn BountyDatabase LockError Submission := fun db ↦ do
  let (quote, db) ← (p.lockQuote db clock gross row.rewardTargetId).mapError .pricing
  let amount ← (assertPayableQuote quote row.rewardTargetId).mapError .refused
  let row := quote.priced amount row
  let inserted ← (insertSubmission db.toDatabase row).mapError .constraint
  return (row, { db with
    toDatabase := inserted
    createdAt := Function.update db.createdAt row.id clock
    bountyLockedAt := Function.update db.bountyLockedAt row.id (some clock) })

/-! ## Obligations -/

/-- What is owed is an award for finding a defect in the formalization. -/
def DefectAward (db : BountyDatabase) (s : Submission) : Prop :=
  (latestBindingDecision db.toRewardDatabase s.id).map (·.reasonCode) =
    some "FORMALIZATION_DEFECT_AWARD"

instance DefectAward.decidable (db : BountyDatabase) (s : Submission) :
    Decidable (DefectAward db s) := by
  unfold DefectAward; infer_instance

/-- `enforce_locked_reward_event`, but for the record of how an amount was priced; `converted`
is the award in rao at the price on that record. -/
def enforceLockedRewardEvent (db : BountyDatabase) (s : Submission) (r : NewReward)
    (converted : Rao) : Except RewardError Unit := do
  require (s.rewardStatus = .eligible)
    (.integrityError "reward_event_requires_eligible_submission")
  if DefectAward db s then
    require ((latestBindingDecision db.toRewardDatabase s.id).map (·.decision) = some .approved ∧
        r.eligibilityReason = "FORMALIZATION_DEFECT_AWARD")
      (.integrityError "reward_event_matches_defect_decision")
    if s.reviewPolicyVersion ∈ cappedPolicies then
      require (db.bountyLockedAt s.id ≠ none) (.integrityError "reward_event_requires_bounty_lock")
      require (r.amountRao = min converted s.bountyAmountRao)
        (.integrityError "reward_event_matches_defect_price")
    else
      require (r.amountRao = converted) (.integrityError "reward_event_matches_defect_price")
  else
    require (db.bountyLockedAt s.id ≠ none) (.integrityError "reward_event_requires_bounty_lock")
    require (r.amountRao = s.bountyAmountRao) (.integrityError "reward_event_matches_bounty_lock")

/-- The notifier seeds an obligation, and the trigger has its say about the amount. -/
def seedLocked (r : NewReward) (converted : Rao) : Txn BountyDatabase RewardError Unit :=
  fun db ↦ do
    let s ← need (db.submissions.find? r.submissionId)
      (.integrityError "reward_events_submission_id_fkey")
    enforceLockedRewardEvent db s r converted
    let ((), rewards) ← seedRewardEvent r s db.toRewardDatabase
    return ((), { db with toRewardDatabase := rewards })

/-! ## Payouts -/

/-- A transfer is recorded and settles the obligation it pays, as it leaves the balance. -/
def confirmPayout (o : ObservedPayout) (price : Option (ℚ × Instant))
    (actions : List PayoutInstructionAction) (reserved : Bool) (t : Treasury) : Treasury :=
  match recordPayout t.db.toRewardDatabase o price with
  | .error _ => t
  | .ok (payout, recorded) =>
    match claimPayout recorded actions reserved payout.id with
    | .ok (some _, settled) =>
      ⟨{ t.db with toRewardDatabase := settled }, t.gross - payout.amountRao⟩
    | .ok (none, _) => t
    | .error _ => t

/-! ## Steps -/

inductive Step where
  /-- a submission is quoted and locked, by whatever configuration is deployed then -/
  | lock (p : DynamicBountyPricer) (clock : Instant) (row : Submission)
  /-- a verdict; a refusing one releases the lock -/
  | judge (submissionId : Uuid) (seen : List Submission) (v : VerifierVerdict)
  /-- a reviewer's decision; a rejection releases the lock -/
  | decide (submissionId : Uuid) (seen : List Submission) (r : Ruling)
  /-- a decision is corrected to a rejection -/
  | reject (submissionId : Uuid) (seen : List Submission) (supersedesId : ℕ) (r : Ruling)
  | seed (r : NewReward) (converted : Rao)
  | pay (o : ObservedPayout) (price : Option (ℚ × Instant))
      (actions : List PayoutInstructionAction) (reserved : Bool)
  | deposit (amount : ℕ)
  /-- the bonus ledger and the claims on it become what they become -/
  | bonus (payments : List TrajectoryPayment) (claims : List TrajectoryClaim)

/-- A transaction of the reward side. -/
def Treasury.reward (t : Treasury) (a : Rewards.Step) : Treasury :=
  { t with db := { t.db with toRewardDatabase := Rewards.step t.db.toRewardDatabase a } }

/-- What a step leaves.  Intake writes fresh rows. -/
def step (t : Treasury) : Step → Treasury
  | .lock p clock row =>
    if Fresh row then
      { t with db := commit (lockSubmission p clock t.gross row) t.db }
    else t
  | .judge submissionId seen v => t.reward (.verify submissionId seen v)
  | .decide submissionId seen r => t.reward (.decide submissionId seen r)
  | .reject submissionId seen supersedesId r =>
    t.reward (.correct submissionId seen supersedesId { r with decision := .rejected })
  | .seed r converted => { t with db := commit (seedLocked r converted) t.db }
  | .pay o price actions reserved => confirmPayout o price actions reserved t
  | .deposit amount => { t with gross := t.gross + amount }
  | .bonus payments claims =>
    { t with db := { t.db with trajectoryPayments := payments, trajectoryClaims := claims } }

/-! ## Exposure -/

/-- A payout settled the target. -/
def TargetSettled (db : BountyDatabase) (target : String) : Prop :=
  ∃ e ∈ db.events.rows, PaidOnChain e ∧
    ∃ s ∈ db.submissions.rows, s.id = e.submissionId ∧ s.rewardTargetId = target

instance TargetSettled.decidable (db : BountyDatabase) (target : String) :
    Decidable (TargetSettled db target) :=
  inferInstanceAs (Decidable (∃ e ∈ _, _))

/-- The submissions a target may still have to be paid for. -/
def exposed (db : BountyDatabase) : List Submission :=
  db.submissions.rows.filter fun s ↦ Live db s ∧ ¬ TargetSettled db s.rewardTargetId

/-- The exposure of each unsettled target is the largest live lock of its submissions; together
they are what the treasury is committed to. -/
def exposure (db : BountyDatabase) : Rao :=
  total Submission.rewardTargetId Submission.bountyAmountRao (exposed db)

end Conjectures.Bounty

import Conjectures.Db.Instructions
import Conjectures.Db.Trajectories

/-!
# Where a claim stands

`submission_api/trajectories.py`: whether a proof qualifies, and what an acceptance of its chat
logs is worth while the decision it relied on may be corrected.
-/

namespace Conjectures.Trajectories

open Lib Db

/-- `TREASURY_CHAT_POLICY`: the policy under which chat logs are required. -/
def treasuryChatPolicy : String := "linear-age-v3-chat-logs"

/-- `eligibility_reason`, past the claim window. -/
def eligibilityReason (s : Submission) (decision : Option ReviewDecision) : Option String :=
  if s.verificationStatus ≠ .verified then some "Proof has not passed verification."
  else if s.manualReviewStatus ≠ .approved ∨ s.rewardStatus = .ineligible then
    some "Proof does not currently qualify for its full bounty."
  else
    match decision with
    | some d =>
      if d.kind = .human ∧ d.decision = .approved ∧ d.reasonCode = "REVIEW_APPROVED" then none
      else some ("A binding human approval for the full bounty is required; defect awards are " ++
        "excluded.")
    | none => some ("A binding human approval for the full bounty is required; defect awards are " ++
        "excluded.")

/-- The policies a submission was accepted under. -/
def policySnapshot (s : Submission) : PolicySnapshot :=
  ⟨s.reviewPolicyVersion, s.bountyPolicyVersion⟩

inductive EffectiveStatus where
  | status (s : TrajectoryStatus)
  | blockedProofChanged
  deriving DecidableEq

/-- The acceptance relied on the decision that still binds. -/
def Current (db : RewardDatabase) (c : TrajectoryClaim) : Prop :=
  ∃ s ∈ db.submissions.rows, some s.id = c.submissionId ∧
    eligibilityReason s (latestBindingDecision db s.id) = none ∧
    (latestBindingDecision db s.id).map (·.id) = c.proofReviewDecisionId ∧
    c.proofPolicySnapshot = policySnapshot s

instance Current.decidable (db : RewardDatabase) (c : TrajectoryClaim) :
    Decidable (Current db c) :=
  inferInstanceAs (Decidable (∃ s ∈ _, _))

def effectiveStatus (db : RewardDatabase) (c : TrajectoryClaim) (now : Instant) :
    EffectiveStatus :=
  if (c.status = .deposited ∨ c.status = .underReview ∨ c.status = .needsChanges) ∧
      c.expiresAt ≤ now then .status .expired
  else if ¬ c.status.Approved then .status c.status
  else if Current db c then .status c.status
  else .blockedProofChanged

/-- Accepted logs are kept; the others until they expire. -/
def ContentAvailable (c : TrajectoryClaim) (now : Instant) : Prop :=
  (c.status.Approved ∨ now < c.expiresAt) ∧ (c.package.isSome ∨ c.packageChunked = true)

instance ContentAvailable.decidable (c : TrajectoryClaim) (now : Instant) :
    Decidable (ContentAvailable c now) := by
  unfold ContentAvailable; infer_instance

/-- What counts as accepted now was accepted, and is accepted still. -/
theorem effectiveStatus_approved {db : RewardDatabase} {c : TrajectoryClaim} {now : Instant}
    {status : TrajectoryStatus} (h : effectiveStatus db c now = .status status)
    (happroved : status.Approved) : c.status = status ∧ Current db c := by
  unfold effectiveStatus at h
  split at h
  · cases h
    rcases happroved with h | h <;> cases h
  · split at h
    · rename_i hnot
      cases h
      exact absurd happroved hnot
    · split at h
      · rename_i hcurrent
        cases h
        exact ⟨rfl, hcurrent⟩
      · cases h

end Conjectures.Trajectories

import Mathlib.Algebra.Order.Ring.Int
import Mathlib.Tactic.Ring
import Conjectures.Lib.Groups
import Conjectures.Db.Instructions
import Conjectures.Bounty.Rows

/-!
# Pricing a target

`conjectures_subnet/bounty.py`: the configuration of the pricer, the formula, and the quote a
submission is locked at.

A target's share of the treasury grows with its age from the share it opened with to the cap.
What is shared out is the balance that is not committed: competing submissions to one target
are mutually exclusive, so a target's exposure is the largest amount still locked for it.
-/

namespace Conjectures.Bounty

open Lib Db

inductive PricingError where
  | valueError (message : String)
  | runtimeError (message : String)
  | keyError (key : String)
  deriving DecidableEq

/-! ## The formula -/

/-- Interpolate from the starting share to the cap, with one final integer floor. -/
def calculateBountyRao (balanceRao : Rao) (ageSeconds rampSeconds constantNumerator
    constantDenominator maxBountyShareNumerator maxBountyShareDenominator : ℤ) :
    Except PricingError Rao := do
  require (0 ≤ balanceRao ∧ 0 ≤ ageSeconds ∧ ∀ value ∈ [rampSeconds, constantNumerator,
      constantDenominator, maxBountyShareNumerator, maxBountyShareDenominator], 0 < value)
    (.valueError "balance and age must be non-negative and pricing inputs positive")
  require (maxBountyShareNumerator ≤ maxBountyShareDenominator)
    (.valueError "maximum bounty share cannot exceed the treasury")
  let start := constantNumerator * maxBountyShareDenominator
  let maximum := maxBountyShareNumerator * constantDenominator
  require (start ≤ maximum) (.valueError "starting bounty share cannot exceed the maximum share")
  let elapsed := min ageSeconds rampSeconds
  let numerator := balanceRao * (start * rampSeconds + (maximum - start) * elapsed)
  let denominator := constantDenominator * maxBountyShareDenominator * rampSeconds
  return numerator / denominator

/-- Whole seconds since a target opened. -/
def ageSeconds (openedAt now : Instant) : ℤ := max 0 ((now - openedAt) / second)

/-- The linear age weight, capped at the policy maximum. -/
def calculateAgeWeight (openedAt now : Instant) (periodSeconds maxAgeWeight : ℤ) :
    Except PricingError ℤ := do
  require (0 < periodSeconds ∧ 0 < maxAgeWeight)
    (.valueError "age period and maximum age weight must be positive")
  return min maxAgeWeight (1 + ageSeconds openedAt now / periodSeconds)

/-! ## Configuration -/

/-- `DynamicBountyPricer`, with what `__post_init__` checks. -/
structure DynamicBountyPricer where
  balanceColdkey : Ss58
  balanceHotkey : Ss58
  balanceNetuid : ℤ
  rewardTargetIds : List String
  newTargetPolicy : TargetPolicy := .treasuryChat
  requiredEvidenceAvailable : Bool := false
  policyVersion : String := "linear-age-v3-locked"
  constantNumerator : ℤ := 1
  constantDenominator : ℤ := 40
  rampSeconds : ℤ := 15 * 86400
  agePeriodSeconds : ℤ := 86400
  maxAgeWeight : ℤ := 60
  maxBountyShareNumerator : ℤ := 1
  maxBountyShareDenominator : ℤ := 8
  confirmedPayoutGraceSeconds : ℤ := 60
  wallet_nonempty : balanceColdkey ≠ "" ∧ balanceHotkey ≠ ""
  netuid_positive : 0 < balanceNetuid
  constant_positive : 0 < constantNumerator ∧ 0 < constantDenominator
  ramp_positive : 0 < rampSeconds
  /-- linear pricing requires a new bounty policy version -/
  version_linear : ¬ "dynamic-age-".toList <+: policyVersion.toList
  age_period_positive : 0 < agePeriodSeconds
  max_age_weight_positive : 0 < maxAgeWeight
  max_share : 0 < maxBountyShareNumerator ∧ 0 < maxBountyShareDenominator ∧
    maxBountyShareNumerator ≤ maxBountyShareDenominator
  start_share : constantNumerator * maxBountyShareDenominator ≤
    maxBountyShareNumerator * constantDenominator
  grace_positive : 0 < confirmedPayoutGraceSeconds
  targets_nonempty : rewardTargetIds ≠ []
  targets_unique : rewardTargetIds.Nodup

variable (p : DynamicBountyPricer)

/-- The share a target starts at; one opened above a since-lowered cap starts at the cap. -/
def DynamicBountyPricer.startShare (task : BountyTask) : ℤ × ℤ :=
  if p.maxBountyShareNumerator * task.startShareDenominator <
      task.startShareNumerator * p.maxBountyShareDenominator then
    (p.maxBountyShareNumerator, p.maxBountyShareDenominator)
  else (task.startShareNumerator, task.startShareDenominator)

/-! ## Commitments -/

/-- The lock of a submission still binds the treasury. -/
def Live (db : BountyDatabase) (s : Submission) : Prop :=
  db.bountyLockedAt s.id ≠ none ∧ s.verificationStatus ≠ .rejected ∧
    s.manualReviewStatus ≠ .rejected

instance Live.decidable (db : BountyDatabase) (s : Submission) : Decidable (Live db s) := by
  unfold Live; infer_instance

/-- A transfer the chain finalized paid this obligation. -/
def PaidOnChain (e : RewardEvent) : Prop := e.status = .confirmed ∧ e.chainObserved = true

instance PaidOnChain.decidable (e : RewardEvent) : Decidable (PaidOnChain e) := by
  unfold PaidOnChain; infer_instance

/-- The payout is old enough for every cached balance to show it. -/
def DynamicBountyPricer.SettledPayout (db : BountyDatabase) (now : Instant) (s : Submission) :
    Prop :=
  ∃ e ∈ db.events.rows, e.submissionId = s.id ∧ PaidOnChain e ∧
    ∃ at' ∈ e.confirmedAt, at' ≤ now - p.confirmedPayoutGraceSeconds * second

instance DynamicBountyPricer.decidableSettledPayout (db : BountyDatabase) (now : Instant)
    (s : Submission) : Decidable (p.SettledPayout db now s) :=
  have (e : RewardEvent) : Decidable
      (∃ at' ∈ e.confirmedAt, at' ≤ now - p.confirmedPayoutGraceSeconds * second) :=
    match e.confirmedAt with
    | none => isFalse fun ⟨_, h, _⟩ ↦ by cases h
    | some t => decidable_of_iff (t ≤ now - p.confirmedPayoutGraceSeconds * second) (by simp)
  inferInstanceAs (Decidable (∃ e ∈ _, _))

/-- The submissions whose locks are reserved. -/
def DynamicBountyPricer.reservations (db : BountyDatabase) (now : Instant) : List Submission :=
  db.submissions.rows.filter fun s ↦ Live db s ∧ ¬ p.SettledPayout db now s

/-- Bonus obligations reserve Alpha too. -/
def DynamicBountyPricer.bonusReserved (db : BountyDatabase) (now : Instant) : Rao :=
  ((db.trajectoryPayments.filter fun t ↦
    t.originColdkey = p.balanceColdkey ∧ t.originHotkey = p.balanceHotkey ∧
      (t.status = .prepared ∨ (t.status = .confirmed ∧
        t.completedAt.any fun at' ↦ now - p.confirmedPayoutGraceSeconds * second < at'))).map
    (·.amountRao)).sum

def DynamicBountyPricer.committed (db : BountyDatabase) (now : Instant) : Rao :=
  total Submission.rewardTargetId Submission.bountyAmountRao (p.reservations db now) +
    if p.balanceNetuid = 66 then p.bonusReserved db now else 0

end Conjectures.Bounty

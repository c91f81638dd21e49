import Conjectures.Bounty.Quotes
import Conjectures.Pricing.Bonus
import Conjectures.Rewards.Steps
import Conjectures.Trajectories.Claims

/-!
# Paying for chat logs

`submission_api/trajectory_fulfillment.py` and the triggers of
`V048__trajectory_fulfillment.sql`.  A bonus is prepared as an instruction to an operator, and
is confirmed by the finalized transfer that paid it.  The payouts it draws on are those that
settle rewards.

Prices are finite decimals here.  The amount in Alpha is computed with the exact quotient, which is
what the decimal arithmetic of the source comes to (`alphaAmount_eq_ok`).
-/

namespace Conjectures.Trajectories

open Lib Db

/-! ## Rows -/

inductive PaymentStatus where
  | prepared
  | confirmed
  | cancelled
  deriving DecidableEq

/-- `Decimal`: a finite one. -/
structure Decimal where
  coefficient : ℤ
  exponent : ℤ
  deriving DecidableEq

def Decimal.value (d : Decimal) : ℚ := d.coefficient * 10 ^ d.exponent

structure TrajectoryPayment where
  id : Uuid
  claimId : Uuid
  preparedBy : Uuid
  preparedAt : Instant
  claimStateVersion : ℕ
  amountUsdCents : ℕ
  amountRao : Rao
  alphaUsd : Decimal
  priceSource : String
  priceObservedAt : Instant
  destinationColdkey : Ss58
  originColdkey : Ss58
  originHotkey : Ss58
  destinationEvidence : String
  status : PaymentStatus
  treasuryPayoutId : Option ℕ
  completedAt : Option Instant
  completedBy : Option Uuid
  deriving DecidableEq

/-- Reserved or confirmed. -/
def TrajectoryPayment.Live (m : TrajectoryPayment) : Prop := m.status ≠ .cancelled

instance TrajectoryPayment.decidableLive (m : TrajectoryPayment) : Decidable m.Live := by
  unfold Live; infer_instance

/-- `trajectory_payment_one_live_claim` -/
def TrajectoryPayment.liveClaim (m : TrajectoryPayment) : Option Uuid :=
  if m.Live then some m.claimId else none

/-- `ceil(cents * 10000000 / alpha_usd)`.  A price has so few digits that rounding the quotient
to eighty of them loses nothing. -/
def converted (cents : ℕ) (price : Decimal) : ℤ := ((cents * 10000000 : ℚ) / price.value).ceil

/-- The CHECK constraints on `trajectory_payments`. -/
def TrajectoryPayment.Valid (m : TrajectoryPayment) : Prop :=
  (m.amountUsdCents = 25000 ∨ m.amountUsdCents = 50000) ∧ 0 < m.amountRao ∧
    0 < m.alphaUsd.value ∧ 0 < m.claimStateVersion ∧
    (1 ≤ m.priceSource.length ∧ m.priceSource.length ≤ 1000) ∧
    (10 ≤ m.destinationEvidence.length ∧ m.destinationEvidence.length ≤ 2000) ∧
    (m.priceObservedAt ≤ m.preparedAt ∧ m.preparedAt - 600 * second ≤ m.priceObservedAt) ∧
    (m.status = .confirmed ↔ m.treasuryPayoutId.isSome) ∧
    (m.status = .prepared ↔ m.completedAt = none) ∧
    (∀ completed ∈ m.completedAt, m.preparedAt ≤ completed)

instance TrajectoryPayment.decidableValid (m : TrajectoryPayment) : Decidable m.Valid := by
  unfold Valid; infer_instance

/-- The finalized transfer this bonus asked for. -/
def Pays (p : TreasuryPayout) (m : TrajectoryPayment) : Prop :=
  p.amountRao = m.amountRao ∧ p.destinationColdkey = m.destinationColdkey ∧
    p.originColdkey = m.originColdkey ∧ p.originHotkey = m.originHotkey ∧
    p.destinationHotkey = m.originHotkey ∧ p.originNetuid = 66 ∧ p.destinationNetuid = 66 ∧
    m.preparedAt - 60 * second ≤ p.blockTimestamp

instance Pays.decidable (p : TreasuryPayout) (m : TrajectoryPayment) : Decidable (Pays p m) := by
  unfold Pays; infer_instance

/-- The rewards, the claims and what is paid for them. -/
structure Bonuses where
  rewards : RewardDatabase
  claims : Table TrajectoryClaim.id
  payments : Table TrajectoryPayment.id

def Bonuses.fresh : Bonuses := ⟨.empty, .empty _, .empty _⟩

/-! ## Preparing -/

structure Settings where
  bountyNetuid : ℤ
  bountyWalletColdkey : Ss58
  bountyWalletHotkey : Ss58

/-- An operator's request, and the number the payment gets. -/
structure Preparation where
  id : Uuid
  claimId : Uuid
  actorId : Uuid
  expectedStateVersion : ℕ
  alphaUsd : Decimal
  priceSource : String
  /-- none without a timezone -/
  priceObservedAt : Option Instant
  destinationColdkey : Ss58
  destinationEvidence : String

def notAccepted : TrajectoryError := .notFound "Accepted chat logs not found"

/-- The claim, with its submission locked. -/
def lockClaim (s : Bonuses) (claimId : Uuid) : Except TrajectoryError TrajectoryClaim := do
  let claim ← need (s.claims.find? claimId) notAccepted
  require claim.submissionId.isSome notAccepted
  return claim

def requireAccepted (s : Bonuses) (claim : TrajectoryClaim) (now : Instant) :
    Except TrajectoryError Unit :=
  require ((effectiveStatus s.rewards claim now = .status .approvedManualPayment ∨
      effectiveStatus s.rewards claim now = .status .approvedBountyEvidence) ∧
      ContentAvailable claim now)
    (.conflict "A current proof approval and accepted, available chat logs are required."
      (some "TRAJECTORY_FULFILLMENT_BLOCKED"))

def alphaAmount (cents : ℕ) (price : Decimal) : Except TrajectoryError Rao := do
  require (0 < price.value ∧ -18 ≤ price.exponent ∧ price.value < 10 ^ 20)
    (.conflict "Alpha price must be positive with at most 18 decimal places." none)
  require (0 < converted cents price ∧ converted cents price < 2 ^ 63)
    (.conflict "Converted bonus is outside the supported Alpha range." none)
  return converted cents price

theorem ceil_eq (q : ℚ) : q.ceil = ⌈q⌉ := by
  rw [Rat.ceil_eq_neg_floor_neg]
  rfl

/-- It is what the decimal arithmetic of 80 digits comes to. -/
theorem alphaAmount_eq_ok {cents : ℕ} (hcents : 0 < cents) (hmax : cents < 2 ^ 63)
    {price : Decimal} {d : DecimalNumber} (hvalue : d.value = price.value)
    (hexponent : d.exponent = price.exponent) {amount : Rao} :
    alphaAmount cents price = .ok amount ↔ Pricing.alphaAmount cents (.finite d) = .ok amount := by
  have hconverted : converted cents price = ⌈Pricing.bonusQuotient cents d⌉ := by
    have hquotient : Pricing.bonusQuotient cents d = (cents * 10000000 : ℚ) / price.value := by
      rw [Pricing.bonusQuotient, hvalue]
      norm_num [Pricing.raoPerCent]
    rw [converted, hquotient, ceil_eq]
  simp only [alphaAmount, bind_eq_ok, require_eq_ok, hconverted, ← hvalue, ← hexponent]
  by_cases hprice : 0 < d.value ∧ -18 ≤ d.exponent ∧ d.value < 10 ^ 20
  · rw [Pricing.alphaAmount_of_accepted (by omega) (by omega) ⟨rfl, hprice⟩]
    split <;> simp_all [pure, Except.pure]
  · have hrefused : d.value ≤ 0 ∨ d.exponent < -18 ∨ 10 ^ 20 ≤ d.value := by
      by_contra h
      simp only [not_or, not_le, not_lt] at h
      exact hprice h
    rw [Pricing.alphaAmount, if_pos hrefused]
    simp [hprice]

def Preparation.row (r : Preparation) (settings : Settings) (claim : TrajectoryClaim)
    (amount : Rao) (observed now : Instant) : TrajectoryPayment where
  id := r.id
  claimId := r.claimId
  preparedBy := r.actorId
  preparedAt := now
  claimStateVersion := claim.stateVersion
  amountUsdCents := claim.amountUsdCents
  amountRao := amount
  alphaUsd := r.alphaUsd
  priceSource := r.priceSource
  priceObservedAt := observed
  destinationColdkey := r.destinationColdkey
  originColdkey := settings.bountyWalletColdkey
  originHotkey := settings.bountyWalletHotkey
  destinationEvidence := r.destinationEvidence
  status := .prepared
  treasuryPayoutId := none
  completedAt := none
  completedBy := none

/-- Insert a payment; the constraints, the trigger and the indexes have their say. -/
def insertPayment (s : Bonuses) (m : TrajectoryPayment) : Except TrajectoryError Bonuses := do
  require m.Valid (.integrityError "trajectory_payments_check")
  require (m.status = .prepared ∧ (∃ c ∈ s.claims.rows, c.id = m.claimId ∧
      c.status = .approvedManualPayment ∧ c.amountUsdCents = m.amountUsdCents ∧
      c.stateVersion = m.claimStateVersion ∧ c.accountId ≠ m.preparedBy) ∧
      m.amountRao = converted m.amountUsdCents m.alphaUsd)
    (.integrityError "bonus preparation must match the accepted claim and conversion")
  require (∀ m' ∈ s.payments.rows, m'.Live → m'.claimId ≠ m.claimId)
    (.integrityError "trajectory_payment_one_live_claim")
  let payments ← need (s.payments.insert? m) (.integrityError "trajectory_payments_pkey")
  return { s with payments }

/-- `prepare_payment`; `snapshot` is what the treasury has to offer. -/
def preparePayment (settings : Settings) (r : Preparation) (snapshot : Bounty.BountyPoolSnapshot)
    (now : Instant) : Txn Bonuses TrajectoryError TrajectoryPayment := fun s ↦ do
  let observed ← need r.priceObservedAt
    (.conflict "Record a price observed in the last ten minutes, with its timezone." none)
  require (0 ≤ now - observed ∧ now - observed ≤ 600 * second)
    (.conflict "Record a price observed in the last ten minutes, with its timezone." none)
  require (settings.bountyNetuid = 66)
    (.conflict "Historical bonuses require Subnet 66 Alpha." none)
  let claim ← lockClaim s r.claimId
  requireAccepted s claim now
  require (claim.amountUsdCents ≠ 0 ∧ claim.accountId ≠ r.actorId)
    (.conflict "Only another contributor's historical bonus can be prepared." none)
  require (r.expectedStateVersion = claim.stateVersion)
    (.conflict "Claim changed; refresh before preparing payment." none)
  require (∀ m ∈ s.payments.rows, m.Live → m.claimId ≠ r.claimId)
    (.conflict "This claim already has a reserved or confirmed bonus."
      (some "TRAJECTORY_PAYMENT_EXISTS"))
  let account ← need (s.rewards.accounts.find? claim.accountId)
    (.conflict "Verify the contributor's current account payout destination first." none)
  require (account.payoutColdkey = some r.destinationColdkey ∧ r.destinationColdkey ≠ "")
    (.conflict "Verify the contributor's current account payout destination first." none)
  let amount ← alphaAmount claim.amountUsdCents r.alphaUsd
  require (amount ≤ snapshot.availableBalanceRao ∧ snapshot.netuid = 66 ∧
      snapshot.walletColdkey = settings.bountyWalletColdkey ∧
      snapshot.walletHotkey = settings.bountyWalletHotkey)
    (.conflict "Available treasury does not cover this bonus." (some "TREASURY_RESERVED"))
  let payment := r.row settings claim amount observed now
  let s ← insertPayment s payment
  return (payment, s)

/-! ## Confirming and cancelling -/

/-- The columns a payment is completed with. -/
def TrajectoryPayment.completed (status : PaymentStatus) (payoutId : Option ℕ) (now : Instant)
    (actor : Uuid) (m : TrajectoryPayment) : TrajectoryPayment :=
  { m with
    status
    treasuryPayoutId := payoutId
    completedAt := some now
    completedBy := some actor }

theorem TrajectoryPayment.completed_id (status : PaymentStatus) (payoutId : Option ℕ)
    (now : Instant) (actor : Uuid) (m : TrajectoryPayment) :
    (m.completed status payoutId now actor).id = m.id := rfl

/-- Write a payment; the trigger and the index have their say. -/
def completePayment (s : Bonuses) (m : TrajectoryPayment) (status : PaymentStatus)
    (payoutId : Option ℕ) (now : Instant) (actor : Uuid) : Except TrajectoryError Bonuses := do
  require (m.completed status payoutId now actor).Valid
    (.integrityError "trajectory_payments_check")
  require (m.status = .prepared ∧ status ≠ .prepared)
    (.integrityError "bonus instructions and completed records are immutable")
  require (status = .confirmed → ∃ p ∈ s.rewards.payouts.rows, some p.id = payoutId ∧
      p.rewardEventId = none ∧ p.status ≠ .claimed ∧ Pays p m)
    (.integrityError "bonus confirmation requires its exact finalized transfer")
  require (∀ m' ∈ s.payments.rows, m'.id ≠ m.id → m'.treasuryPayoutId ≠ none →
      m'.treasuryPayoutId ≠ payoutId)
    (.integrityError "trajectory_payments_treasury_payout_id_key")
  let payments := s.payments.modify m.id (·.completed status payoutId now actor)
    (TrajectoryPayment.completed_id status payoutId now actor)
  return { s with payments }

def paymentNote (m : TrajectoryPayment) : String :=
  "Historical chat-log bonus " ++ toString m.id ++ "; accounted in trajectory_payments."

def missingObservation : TrajectoryError :=
  .notFound "Payment or finalized chain observation not found"

/-- `confirm_payment`: record the transfer that paid a bonus. -/
def confirmPayment (paymentId : Uuid) (payoutId : ℕ) (actorId : Uuid) (now : Instant) :
    Txn Bonuses TrajectoryError TrajectoryPayment := fun s ↦ do
  let payout ← need (s.rewards.payouts.find? payoutId) missingObservation
  let payment ← need (s.payments.find? paymentId) missingObservation
  let _ ← lockClaim s payment.claimId
  if payment.status = .confirmed ∧ payment.treasuryPayoutId = some payoutId then
    return (payment, s)
  else do
    require (payment.status = .prepared ∧ payout.status = .unclaimed ∧
        payout.rewardEventId = none ∧ Pays payout payment)
      (.conflict "Finalized transfer does not match this unpaid bonus."
        (some "TRAJECTORY_PAYMENT_MISMATCH"))
    let payouts := s.rewards.payouts.modify payout.id (·.disregarded (paymentNote payment))
      (TreasuryPayout.disregarded_id (paymentNote payment))
    let rewards := { s.rewards with payouts }
    let s ← completePayment { s with rewards } payment .confirmed (some payout.id) now actorId
    return (payment.completed .confirmed (some payout.id) now actorId, s)

/-- A transfer that may be the one. -/
def TransferSeen (db : RewardDatabase) (m : TrajectoryPayment) : Prop :=
  ∃ p ∈ db.payouts.rows, p.originColdkey = m.originColdkey ∧
    p.destinationColdkey = m.destinationColdkey ∧ p.amountRao = m.amountRao ∧
    m.preparedAt - 60 * second ≤ p.blockTimestamp

instance TransferSeen.decidable (db : RewardDatabase) (m : TrajectoryPayment) :
    Decidable (TransferSeen db m) :=
  inferInstanceAs (Decidable (∃ p ∈ _, _))

/-- `raise Conflict(str(exc))` -/
def chainConflict : RewardError → TrajectoryError
  | .recordConflict c => .conflict c.message none
  | .recordNotFound message | .payoutConflict message | .valueError message =>
    .conflict message none
  | .integrityError constraint => .integrityError constraint

/-- `cancel`, with what an operator checked on the chain. -/
def cancelPayment (paymentId : Uuid) (evidence : ChainEvidence) (actorId : Uuid) (now : Instant) :
    Txn Bonuses TrajectoryError TrajectoryPayment := fun s ↦ do
  (validateChainEvidence evidence now).mapError chainConflict
  let payment ← need (s.payments.find? paymentId) (.notFound "Payment not found")
  let _ ← lockClaim s payment.claimId
  require (payment.status = .prepared ∧ evidence.multisigAddress = some payment.originColdkey)
    (.conflict ("Only an unsigned, unpaid instruction with a matching treasury check can be " ++
      "cancelled.") none)
  require (¬ TransferSeen s.rewards payment)
    (.conflict "A matching finalized transfer exists; reconcile it before cancelling." none)
  let s ← completePayment s payment .cancelled none now actorId
  return (payment.completed .cancelled none now actorId, s)

/-! ## The system -/

inductive PaymentAction where
  /-- a transaction on the reward side -/
  | reward (a : Rewards.Step)
  /-- the claims become what reviewers, depositors and retention make of them -/
  | claims (claims : Table TrajectoryClaim.id)
  /-- accounts sign up, and say where they are paid -/
  | accounts (accounts : Table Account.id)
  | prepare (settings : Settings) (r : Preparation) (snapshot : Bounty.BountyPoolSnapshot)
      (now : Instant)
  | confirm (paymentId : Uuid) (payoutId : ℕ) (actorId : Uuid) (now : Instant)
  | cancel (paymentId : Uuid) (evidence : ChainEvidence) (actorId : Uuid) (now : Instant)

/-- `protect_bonus_chain_binding`, on the payouts a transaction rewrites. -/
def BoundTwice (s : Bonuses) (rewards : RewardDatabase) : Prop :=
  ∃ p ∈ rewards.payouts.rows, p ∉ s.rewards.payouts.rows ∧ p.rewardEventId ≠ none ∧
    ∃ m ∈ s.payments.rows, m.treasuryPayoutId = some p.id

instance BoundTwice.decidable (s : Bonuses) (rewards : RewardDatabase) :
    Decidable (BoundTwice s rewards) :=
  inferInstanceAs (Decidable (∃ p ∈ _, _))

def payStep (s : Bonuses) : PaymentAction → Bonuses
  | .reward a =>
    if BoundTwice s (Rewards.step s.rewards a) then s
    else { s with rewards := Rewards.step s.rewards a }
  | .claims claims => { s with claims }
  | .accounts accounts => { s with rewards := { s.rewards with accounts } }
  | .prepare settings r snapshot now => commit (preparePayment settings r snapshot now) s
  | .confirm paymentId payoutId actorId now =>
    commit (confirmPayment paymentId payoutId actorId now) s
  | .cancel paymentId evidence actorId now =>
    commit (cancelPayment paymentId evidence actorId now) s

end Conjectures.Trajectories

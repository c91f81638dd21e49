import Conjectures.Lib.Table

/-!
# The rows behind a credit

The tables a credit passes through, from the transfer that pays for it to the
submission it buys: chain transfers, deposits, purchases through TMC PAY, the
credit ledger, submission intents, submissions and proofs.  Column names and enumeration labels are the
schema's.  A column no modelled function reads or writes is left out.

Identifiers are compared and nothing else is done to them, so a `Uuid` is a
number.  An instant is a whole number of microseconds and an amount is a whole
number of rao; both are integers, so differences and negative amounts are what
they are in the source.
-/

namespace Conjectures.Db

open Lib

abbrev Uuid := ℕ
abbrev Instant := ℤ
abbrev Rao := ℤ
abbrev Ss58 := String
/-- Raw proof bytes. -/
abbrev Bytes := List UInt8
/-- A sha256 digest, as text. -/
abbrev Digest := String

namespace Instant

/-- The order of instants that computes. -/
scoped instance linearOrder : LinearOrder Instant := Int.instLinearOrder

scoped instance preorder : Preorder Instant := Int.instLinearOrder.toPreorder

end Instant

/-! ## Accounts -/

/-- An account, as far as attribution reads it. -/
structure Account where
  id : Uuid
  payoutColdkey : Option Ss58
  deriving DecidableEq

/-- A coldkey an account proved control of by signing a login challenge. -/
structure AccountWallet where
  coldkey : Ss58
  accountId : Uuid
  deriving DecidableEq

/-! ## The ledger and what funds it -/

inductive CreditEntryKind where
  /-- a confirmed transfer into the treasury, or a settled purchase -/
  | deposit
  /-- one verification attempt -/
  | spend
  /-- an attempt that was never made, or was the validator's fault -/
  | refund
  /-- an operator correction -/
  | adjustment
  /-- a package bonus or promotion -/
  | bonus
  /-- credits from a redeemed invitation -/
  | grant
  deriving DecidableEq

/-- One row of the append-only ledger. -/
structure CreditLedgerEntry where
  id : ℕ
  accountId : Uuid
  kind : CreditEntryKind
  amountRao : Rao
  creditPriceRao : Option Rao
  depositId : Option Uuid
  intentId : Option Uuid
  tmcPayOrderId : Option Uuid
  invitationRedemptionId : Option Uuid
  reason : Option String
  createdBy : String
  deriving DecidableEq

inductive DepositState where
  | awaitingTransfer
  | seenUnfinalized
  | credited
  | expired
  | failed
  deriving DecidableEq

/-- What an account said it would send, and what became of it. -/
structure Deposit where
  id : Uuid
  accountId : Uuid
  amountRao : Rao
  treasuryAddress : Ss58
  creditPriceRao : Rao
  status : DepositState
  extrinsicReference : Option String
  senderColdkey : Option Ss58
  observedAmountRao : Option Rao
  block : Option ℕ
  creditedLedgerId : Option ℕ
  expiresAt : Instant
  createdAt : Instant
  deriving DecidableEq

inductive ChainTransferState where
  /-- observed, no account owns the sending coldkey -/
  | unattributed
  | credited
  /-- deliberately not credited, and it says why -/
  | ignored
  deriving DecidableEq

/-- One transfer into the watched address, as it was observed. -/
structure ChainTransfer where
  extrinsicReference : String
  block : ℕ
  blockTimestamp : Instant
  extrinsicIndex : ℕ
  eventIndex : ℕ
  senderColdkey : Ss58
  recipient : Ss58
  amountRao : Rao
  status : ChainTransferState
  accountId : Option Uuid
  depositId : Option Uuid
  creditPriceRao : Option Rao
  creditsGranted : ℤ
  note : Option String
  deriving DecidableEq

/-- The deposit watcher's high-water mark. -/
structure ChainWatchCursor where
  recipient : Ss58
  startBlock : ℕ
  lastScannedBlock : ℤ
  lastScannedAt : Instant
  deriving DecidableEq

/-! ## Intents and submissions -/

inductive IntentState where
  /-- `OPEN`: credit held, no bundle yet -/
  | opened
  /-- `BUNDLE_ATTACHED`: admitted, awaiting a signature -/
  | bundleAttached
  | confirmed
  | expired
  | cancelled
  deriving DecidableEq

/-- The name a submission is published under. -/
structure PublicCredit where
  name : String
  url : Option String
  orcid : Option String
  deriving DecidableEq

structure SubmissionIntent where
  id : Uuid
  accountId : Uuid
  signerColdkey : Option Ss58
  publicCredit : Option PublicCredit
  taskId : String
  taskBundleSha256 : Digest
  status : IntentState
  creditsHeld : ℤ
  creditPriceRao : Rao
  proofContent : Option Bytes
  proofSha256 : Option Digest
  requestDigest : Option Digest
  submissionId : Option Uuid
  expiresAt : Instant
  createdAt : Instant
  deriving DecidableEq

inductive TaskMode where
  /-- prove the conjecture -/
  | formalized
  /-- prove its negation -/
  | counterexample
  deriving DecidableEq

inductive VerificationState where
  | unverified
  | rejected
  | verified
  deriving DecidableEq

inductive ManualReviewState where
  | unreviewed
  | rejected
  | approved
  deriving DecidableEq

inductive RewardState where
  | ineligible
  | eligible
  | rewarded
  | failed
  deriving DecidableEq

structure Proof where
  digest : Digest
  content : Bytes
  deriving DecidableEq

structure Submission where
  id : Uuid
  signerColdkey : Option Ss58
  publicCredit : Option PublicCredit
  idempotencyKey : Uuid
  requestDigest : Digest
  taskId : String
  taskBundleSha256 : Digest
  problemId : String
  rewardTargetId : String
  taskMode : TaskMode
  proofDigest : Digest
  signerSignature : Option Bytes
  /-- the transfer that pays for it, on the extrinsic path -/
  paymentReference : Option String
  paymentSender : Option Ss58
  paymentAmountRao : Option Rao
  paymentBlock : Option ℕ
  /-- the credit that pays for it, on the intent path -/
  accountId : Option Uuid
  creditLedgerId : Option ℕ
  intentId : Option Uuid
  verificationStatus : VerificationState
  manualReviewStatus : ManualReviewState
  rewardStatus : RewardState
  manualReviewRequired : Bool
  reviewPolicyVersion : String
  bountyAmountRao : Rao
  bountyPolicyVersion : String
  bountyInputs : Option String
  /-- the worker that verifies it, and until when; columns no intake writes start at the
  schema's defaults -/
  verificationLeaseUntil : Option Instant := none
  verificationLeaseOwner : Option String := none
  verificationAttempts : ℤ := 0
  failureReason : Option String := none
  deriving DecidableEq

/-! ## Purchases through TMC PAY -/

inductive TmcPayOrderState where
  /-- the row exists; the invoice has not been created yet -/
  | new
  /-- the invoice could not be created, or could not be quoted -/
  | failed
  /-- invoice exists, no deposit seen -/
  | created
  | pending
  | confirming
  /-- confirmed below the invoice; the buyer may top up -/
  | underpaid
  | confirmed
  | overpaid
  | expired
  /-- derived: confirmed after expiry -/
  | latePayment
  | cancelled
  deriving DecidableEq

/-- One credit purchase and the invoice that prices it. -/
structure TmcPayOrder where
  id : Uuid
  accountId : Uuid
  credits : ℤ
  creditPriceRao : Rao
  status : TmcPayOrderState
  externalId : String
  invoiceId : Option String
  merchantId : Option String
  fiatAmount : Option String
  fiatCurrency : Option String
  exchangeRate : Option String
  commissionAmount : Option String
  cryptoAmountRao : Option Rao
  cryptoAmount : Option String
  cryptoCurrency : Option String
  cryptoNetwork : Option String
  depositAddress : Option String
  hostedInvoiceUrl : Option String
  invoiceExpiresAt : Option Instant
  creditedLedgerId : Option ℕ
  needsReview : Bool
  failureReason : Option String
  lastEventId : Option String
  lastPolledAt : Option Instant
  confirmedAt : Option Instant
  createdAt : Instant
  deriving DecidableEq

/-- What a webhook delivery caused. -/
inductive DeliveryOutcome where
  /-- the order moved to a paid state and credits were issued -/
  | credited
  /-- the status was applied; no credits were due -/
  | recorded
  /-- already applied, or nothing to do -/
  | ignored
  /-- no order here matches this invoice -/
  | unknown
  /-- the order matched, but this invoice is not the one it sells -/
  | superseded
  /-- applying the delivery raised; a redelivery is processed again -/
  | failed
  deriving DecidableEq

/-- One delivery, under the id TMC PAY reuses when it retries. -/
structure TmcPayWebhookDelivery where
  webhookId : String
  orderId : Option Uuid
  invoiceId : Option String
  event : Option String
  status : Option String
  outcome : DeliveryOutcome
  deriving DecidableEq

/-! ## The database -/

/-- The tables of the credit side, as one durable state. -/
structure Database where
  accounts : Table Account.id
  wallets : Table AccountWallet.coldkey
  ledger : Table CreditLedgerEntry.id
  deposits : Table Deposit.id
  transfers : Table ChainTransfer.extrinsicReference
  cursor : Option ChainWatchCursor
  intents : Table SubmissionIntent.id
  submissions : Table Submission.id
  proofs : Table Proof.digest
  orders : Table TmcPayOrder.id
  deliveries : Table TmcPayWebhookDelivery.webhookId

/-- The database of a deployment nothing has happened in. -/
def Database.empty : Database where
  accounts := .empty _
  wallets := .empty _
  ledger := .empty _
  deposits := .empty _
  transfers := .empty _
  cursor := none
  intents := .empty _
  submissions := .empty _
  proofs := .empty _
  orders := .empty _
  deliveries := .empty _

end Conjectures.Db

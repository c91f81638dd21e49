import Conjectures.Db.Models

/-!
# What the stores refuse with

One constructor for each refusal the modelled stores raise, with the details the
source attaches to it.  `message` and `reasonCode` are the texts a client and the
rejection log see.
-/

namespace Conjectures.Db

/-- The failures a store raises. -/
inductive DatabaseError where
  /-- `RecordNotFound`: absent, or another account's -/
  | recordNotFound (message : String)
  | transferAlreadyCredited (message extrinsicReference : String)
  | transferAlreadyClaimed (extrinsicReference : String)
  | transferDisappeared
  | depositAlreadyCredited (depositId : Uuid)
  | duplicateLedgerEntry
  | duplicateDeposit (extrinsicReference : String)
  | insufficientCredits (creditsAvailable creditsRequired : ℤ)
  | intentAlreadyConfirmed (submissionId : Option Uuid)
  | intentNotOpen (status : IntentState)
  | intentExpired
  | intentHasNoBundle (message : String)
  | duplicateProof (message : String) (proofSha256 : Digest)
  | duplicatePayment (paymentReference : String)
  | idempotencyConflict (message : String) (idempotencyKey : Uuid)
  | submissionNotRecorded
  | tmcPayOrderNotInvoiced (orderId : Uuid)
  | tmcPayOrderAlreadyCredited (orderId : Uuid)
  | duplicateTmcPayOrder (externalId : String)
  | duplicateTmcPayInvoice (invoiceId : String)
  /-- `ValueError`: raised before anything is written -/
  | valueError (message : String)
  /-- an integrity error the store does not name, raised as itself -/
  | integrityError (constraint : String)
  deriving DecidableEq

/-- A state's label in lower case, as `assert_usable` prints it. -/
def IntentState.lower : IntentState → String
  | .opened => "open"
  | .bundleAttached => "bundle_attached"
  | .confirmed => "confirmed"
  | .expired => "expired"
  | .cancelled => "cancelled"

def DatabaseError.message : DatabaseError → String
  | .recordNotFound message => message
  | .transferAlreadyCredited message _ => message
  | .transferAlreadyClaimed _ => "that transfer has already funded a submission"
  | .transferDisappeared => "the recorded transfer disappeared"
  | .depositAlreadyCredited _ => "that deposit has already been credited"
  | .duplicateLedgerEntry => "that credit movement has already been recorded"
  | .duplicateDeposit _ => "that transfer already funds another deposit"
  | .insufficientCredits _ _ => "not enough credits for another verification attempt"
  | .intentAlreadyConfirmed _ => "that intent has already been confirmed"
  | .intentNotOpen status => "that intent is " ++ status.lower
  | .intentExpired => "that intent has expired; open a new one"
  | .intentHasNoBundle message => message
  | .duplicateProof message _ => message
  | .duplicatePayment _ => "payment reference already backs another submission"
  | .idempotencyConflict message _ => message
  | .submissionNotRecorded => "the submission could not be recorded"
  | .tmcPayOrderNotInvoiced _ => "that order has no invoice to settle"
  | .tmcPayOrderAlreadyCredited _ => "that order has already been credited"
  | .duplicateTmcPayOrder _ => "that purchase reference has already been used"
  | .duplicateTmcPayInvoice _ => "that invoice already belongs to another order"
  | .valueError message => message
  | .integrityError constraint => constraint

def DatabaseError.reasonCode : DatabaseError → String
  | .recordNotFound _ => "NOT_FOUND"
  | .transferAlreadyCredited _ _ => "TRANSFER_ALREADY_CREDITED"
  | .transferAlreadyClaimed _ => "DUPLICATE_PAYMENT"
  | .transferDisappeared => "CONFLICT"
  | .depositAlreadyCredited _ => "DEPOSIT_ALREADY_CREDITED"
  | .duplicateLedgerEntry => "DUPLICATE_LEDGER_ENTRY"
  | .duplicateDeposit _ => "DUPLICATE_DEPOSIT"
  | .insufficientCredits _ _ => "INSUFFICIENT_CREDITS"
  | .intentAlreadyConfirmed _ => "INTENT_ALREADY_CONFIRMED"
  | .intentNotOpen _ => "INTENT_NOT_OPEN"
  | .intentExpired => "INTENT_EXPIRED"
  | .intentHasNoBundle _ => "INTENT_HAS_NO_BUNDLE"
  | .duplicateProof _ _ => "DUPLICATE_PROOF"
  | .duplicatePayment _ => "DUPLICATE_PAYMENT"
  | .idempotencyConflict _ _ => "IDEMPOTENCY_CONFLICT"
  | .submissionNotRecorded => "CONFLICT"
  | .tmcPayOrderNotInvoiced _ => "TMC_PAY_ORDER_NOT_INVOICED"
  | .tmcPayOrderAlreadyCredited _ => "TMC_PAY_ORDER_ALREADY_CREDITED"
  | .duplicateTmcPayOrder _ => "DUPLICATE_TMC_PAY_ORDER"
  | .duplicateTmcPayInvoice _ => "DUPLICATE_TMC_PAY_INVOICE"
  | .valueError _ => "VALUE_ERROR"
  | .integrityError _ => "DATABASE_ERROR"

/-- The refusals a caller catches as `RecordConflict`.  The others are a missing
record, a value the store does not take, or an integrity error nobody translated. -/
def DatabaseError.IsRecordConflict : DatabaseError → Prop
  | .recordNotFound _ | .valueError _ | .integrityError _ => False
  | _ => True

instance DatabaseError.decidableIsRecordConflict (e : DatabaseError) :
    Decidable e.IsRecordConflict := by
  unfold DatabaseError.IsRecordConflict; split <;> infer_instance

end Conjectures.Db

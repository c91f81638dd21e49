import Conjectures.Db.Intents

/-!
# The intent endpoints

`submission_api/routers/intents.py`, from the point where the caller is known.  Each
endpoint checks what it can before the store is asked to move money, and each is
one transaction: whatever it refuses, it refuses as a whole.  An upload and a confirmation read
their intent before they await something else, so each is given twice: on a copy that was read
earlier (`storeBundle`, `confirmCopied`), and as a whole.

What the endpoints ask of other services (whether a signature is right, what the
allowlist says of a task, what a bounty is worth now) they are given.
-/

namespace Conjectures.Api

open Lib Db

/-- What the endpoints refuse with. -/
inductive IntentError where
  /-- the signature is not the signer's over the request digest -/
  | unauthorized
  | taskNotFound
  | chatLogReviewUnavailable
  | bountyClosed (rewardTargetId : String)
  | bountyUnfunded
  /-- a new bounty's chat logs were not deposited for this proof -/
  | missingLogs
  | dispatchFailed
  | database (e : DatabaseError)
  deriving DecidableEq

/-- The allowlist's entry for a task. -/
structure TaskEntry where
  problemId : String
  rewardTargetId : String
  mode : TaskMode
  deriving DecidableEq

/-- What the endpoints are configured with. -/
structure IntentServices where
  verify : Option Ss58 → Digest → Bytes → Bool
  resolveTask : String → Digest → Option TaskEntry
  requestDigest : SubmissionIntent → Digest → Digest
  manualReviewEnabled : Bool
  reviewPolicyVersion : String

/-- What a bounty is worth at this moment, or why it is worth nothing. -/
structure Quote where
  available : Bool
  reason : Option String
  amountRao : Option Rao
  policyVersion : String
  inputs : Option String
  deriving DecidableEq

/-- `TREASURY_CHAT_POLICY`. -/
def treasuryChatPolicy : String := "linear-age-v3-chat-logs"

/-- The amount to lock, unless the bounty is closed or cannot be paid. -/
def Quote.payable (q : Quote) (rewardTargetId : String) : Except IntentError Rao := do
  require (q.available ∨ q.reason ≠ some "CHAT_LOG_REVIEW_UNAVAILABLE") .chatLogReviewUnavailable
  require (q.available ∨ q.reason ∉
      [some "ALREADY_SOLVED", some "SOLVED_DOCUMENTATION_PENDING", some "NOT_IN_BOUNTY_POOL"])
    (.bountyClosed rewardTargetId)
  let amount ← need q.amountRao .bountyUnfunded
  require (q.available ∧ 0 < amount) .bountyUnfunded
  return amount

/-! ## Opening -/

/-- `create_intent`. -/
def createIntent (r : NewIntent) (now : Instant) :
    Txn Database DatabaseError (SubmissionIntent × CreditBalance) := fun db ↦ openIntent db r now

/-! ## Uploading a bundle -/

/-- A bundle that admission let through, and when the endpoint looked at its clock. -/
structure BundleUpload where
  intentId : Uuid
  accountId : Uuid
  content : Bytes
  sha256 : Digest
  checkedAt : Instant
  now : Instant

/-- What `upload_bundle` does with the intent it read: the body is awaited and admitted, and
the digest to sign is derived from what was admitted.  Nothing is locked meanwhile, and the
bundle is stored on the copy. -/
def storeBundle (svc : IntentServices) (r : BundleUpload) (intent : SubmissionIntent) :
    Txn Database IntentError Unit := fun db ↦ do
  (assertUsable intent r.checkedAt).mapError .database
  let _ ← need (svc.resolveTask intent.taskId intent.taskBundleSha256) .taskNotFound
  let db ← (attachBundle db intent r.content r.sha256 (svc.requestDigest intent r.sha256)
    r.now).mapError .database
  return ((), db)

theorem storeBundle_spec {svc : IntentServices} {r : BundleUpload} {intent : SubmissionIntent}
    {db db' : Database} (h : storeBundle svc r intent db = .ok ((), db')) :
    attachBundle db intent r.content r.sha256 (svc.requestDigest intent r.sha256) r.now =
      .ok db' := by
  simp only [storeBundle, bind_eq_ok, mapError_eq_ok] at h
  obtain ⟨-, -, -, -, db₁, hattach, h⟩ := h
  cases h
  exact hattach

/-- `upload_bundle`, where nothing comes between the reading and the write. -/
def uploadBundle (svc : IntentServices) (r : BundleUpload) : Txn Database IntentError Unit :=
  fun db ↦ do
    let intent ← (getIntent db r.intentId r.accountId).mapError .database
    storeBundle svc r intent db

theorem uploadBundle_spec {svc : IntentServices} {r : BundleUpload} {db db' : Database}
    (h : uploadBundle svc r db = .ok ((), db')) :
    ∃ intent ∈ db.intents.rows, intent.status.Live ∧ db' = { db with
      intents := db.intents.modify intent.id
        (·.attached r.content r.sha256 (svc.requestDigest intent r.sha256))
        (·.attached_id _ _ _) } := by
  simp only [uploadBundle, bind_eq_ok, mapError_eq_ok, getIntent_eq_ok] at h
  obtain ⟨intent, ⟨hmem, -, -⟩, hstore⟩ := h
  exact ⟨intent, hmem, attachBundle_spec hmem (storeBundle_spec hstore)⟩

/-! ## Confirming -/

/-- A request to confirm, with what the other services answered and the two readings of
the clock. -/
structure ConfirmRequest where
  intentId : Uuid
  accountId : Uuid
  signature : Bytes
  quote : Quote
  logsDeposited : Bool
  dispatched : Bool
  submissionId : Uuid
  checkedAt : Instant
  /-- read before `confirm` waits for the account -/
  now : Instant

/-- What `confirmIntent` passes on to `confirm`. -/
def ConfirmRequest.confirmation (r : ConfirmRequest) (svc : IntentServices) (entry : TaskEntry)
    (amountRao : Rao) : Confirmation where
  submissionId := r.submissionId
  problemId := entry.problemId
  rewardTargetId := entry.rewardTargetId
  taskMode := entry.mode
  signerSignature := some r.signature
  manualReviewRequired := svc.manualReviewEnabled
  reviewPolicyVersion := svc.reviewPolicyVersion
  bountyAmountRao := amountRao
  bountyPolicyVersion := r.quote.policyVersion
  bountyInputs := r.quote.inputs

/-- What `confirm_intent` checks of the intent it read, before it asks for the account's lock.
An intent that was already used is refused before the bounty is asked about, so a retry hears
of its submission even when that has closed the bounty. -/
def ConfirmRequest.check (svc : IntentServices) (r : ConfirmRequest) (intent : SubmissionIntent) :
    Except IntentError Confirmation := do
  let requestDigest ← need intent.requestDigest
    (.database (.intentHasNoBundle "upload a bundle before confirming"))
  require (svc.verify intent.signerColdkey requestDigest r.signature) .unauthorized
  (assertUsable intent r.checkedAt).mapError .database
  let entry ← need (svc.resolveTask intent.taskId intent.taskBundleSha256) .taskNotFound
  let amountRao ← r.quote.payable entry.rewardTargetId
  require (r.quote.policyVersion = treasuryChatPolicy → r.logsDeposited) .missingLogs
  return r.confirmation svc entry amountRao

/-- `confirm_intent`: verify the signature, then spend the credit and record the
submission. -/
def confirmIntent (svc : IntentServices) (r : ConfirmRequest) :
    Txn Database IntentError ConfirmedIntent := fun db ↦ do
  let intent ← (getIntent db r.intentId r.accountId).mapError .database
  let c ← r.check svc intent
  let (out, db) ← (confirm db r.intentId r.accountId c r.now).mapError .database
  require r.dispatched .dispatchFailed
  return (out, db)

theorem confirmIntent_spec {svc : IntentServices} {r : ConfirmRequest} {db db' : Database}
    {out : ConfirmedIntent} (h : confirmIntent svc r db = .ok (out, db')) :
    ∃ c : Confirmation, confirm db r.intentId r.accountId c r.now = .ok (out, db') := by
  simp only [confirmIntent, bind_eq_ok, mapError_eq_ok] at h
  obtain ⟨-, -, c, -, ⟨out₁, db₁⟩, hconfirm, -, -, h⟩ := h
  cases h
  exact ⟨c, hconfirm⟩

/-- An owner cancels an intent. -/
def cancelIntent (intentId accountId : Uuid) (now : Instant) : Txn Database DatabaseError Unit :=
  fun db ↦ do
    let intent ← getIntent db intentId accountId
    let db ← cancel db intent now
    return ((), db)

theorem cancelIntent_spec {intentId accountId : Uuid} {now : Instant} {db db' : Database}
    (h : cancelIntent intentId accountId now db = .ok ((), db')) :
    ∃ intent ∈ db.intents.rows, intent.status.Live ∧ db' = { db with
      intents := db.intents.modify intent.id (·.closed .cancelled)
        (·.closed_id .cancelled) } := by
  simp only [cancelIntent, bind_eq_ok, getIntent_eq_ok] at h
  obtain ⟨intent, ⟨hmem, -, -⟩, db₁, hcancel, h⟩ := h
  cases h
  exact ⟨intent, hmem, cancel_spec hmem hcancel⟩

end Conjectures.Api

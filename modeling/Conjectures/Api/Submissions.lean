import Conjectures.Api.Intake
import Conjectures.Api.Intents

/-!
# Taking a submission in

The three one-call endpoints: `create_submission` of `submission_api/routers/submissions.py`,
paid for by a transfer the caller's coldkey signed for, and `create_web_submission` and
`create_session_submission` of `submission_api/routers/web_submissions.py`, paid for by a
credit.  Each looks its idempotency key up before it reads a body and writes in one
transaction after.

The chat logs a submission carries and the events it leaves are other tables, written in the
same transaction.
-/

namespace Conjectures.Api

open Lib Db

/-! ## Requests -/

/-- What a coldkey signs on the transfer's path: the values `canonical_request_digest`
covers. -/
structure ExtrinsicRequest where
  signerColdkey : Ss58
  idempotencyKey : Uuid
  taskId : String
  taskBundleSha256 : Digest
  proofSha256 : Digest
  paymentReference : String
  publicCredit : Option PublicCredit
  deriving DecidableEq

/-- What is asked for from a browser.  `/web` names a coldkey and `/session` names none. -/
structure WebRequest where
  accountId : Uuid
  coldkey : Option Ss58
  idempotencyKey : Uuid
  taskId : String
  taskBundleSha256 : Digest
  bundleSha256 : Digest
  publicCredit : Option PublicCredit
  deriving DecidableEq

/-- The documents whose digests a submission is stored with. -/
inductive Canonical where
  /-- `canonical_request_digest` -/
  | extrinsic (request : ExtrinsicRequest)
  /-- `intent_request_digest` -/
  | intent (signerColdkey : Option Ss58) (intentId : Uuid) (taskId : String)
      (taskBundleSha256 proofSha256 : Digest) (publicCredit : Option PublicCredit)
  /-- `web_submission_message` -/
  | message (address : Ss58) (taskId : String) (taskBundleSha256 bundleSha256 : Digest)
      (idempotencyKey : Uuid) (expiresAt : Instant)
  /-- `session_request_digest` -/
  | session (accountId : Uuid) (taskId : String) (taskBundleSha256 proofSha256 : Digest)
      (idempotencyKey : Uuid) (publicCredit : Option PublicCredit)
  deriving DecidableEq

/-- A request with what authorises it. -/
inductive Call where
  | extrinsic (request : ExtrinsicRequest) (signature : Bytes)
  | web (request : WebRequest) (signature : Bytes) (expiresAt : Instant)
  deriving DecidableEq

inductive Request where
  | extrinsic (request : ExtrinsicRequest)
  | web (request : WebRequest)
  deriving DecidableEq

def Call.request : Call → Request
  | .extrinsic r _ => .extrinsic r
  | .web r _ _ => .web r

/-- Who a key belongs to: the coldkey that signs, or the account whose credit is spent. -/
inductive Caller where
  | coldkey (address : Ss58)
  | account (id : Uuid)
  deriving DecidableEq

def Request.scope : Request → Caller × Uuid
  | .extrinsic r => (.coldkey r.signerColdkey, r.idempotencyKey)
  | .web r => (.account r.accountId, r.idempotencyKey)

/-! ## Refusals -/

inductive SubmissionRefusal where
  | submissionsPaused
  | authorisationExpired
  | authorisationWindow (maxMinutes : ℤ)
  | walletNotLinked
  | taskNotAllowed
  /-- a body or a header admission does not take -/
  | badRequest (message : String)
  | unauthorized
  | intent (e : IntentError)
  | intake (e : IntakeError)
  deriving DecidableEq

/-- The refusals that say an earlier submission is in the way. -/
def SubmissionRefusal.Conflict : SubmissionRefusal → Prop
  | .intent (.database e) | .intake (.database e) =>
    e = .submissionNotRecorded ∨ (∃ message sha256, e = .duplicateProof message sha256) ∨
      ∃ message key, e = .idempotencyConflict message key
  | _ => False

/-! ## What the endpoints are configured with -/

structure IntakeServices where
  verifier : PaymentVerifier
  digest : Canonical → Digest
  verifyDigest : Option Ss58 → Digest → Bytes → Bool
  verifyMessage : Ss58 → Canonical → Bytes → Bool
  resolveTask : String → Digest → Option TaskEntry
  intentMinutes : ℤ
  manualReviewEnabled : Bool
  reviewPolicyVersion : String

/-- What the endpoints of an intent are configured with. -/
def IntakeServices.intents (svc : IntakeServices) : IntentServices where
  verify := svc.verifyDigest
  resolveTask := svc.resolveTask
  requestDigest i sha256 :=
    svc.digest (.intent i.signerColdkey i.id i.taskId i.taskBundleSha256 sha256 i.publicCredit)
  manualReviewEnabled := svc.manualReviewEnabled
  reviewPolicyVersion := svc.reviewPolicyVersion

/-! ## The lookup -/

/-- What a request meets at the door: the switch, the catalog's answer and the clock. -/
structure Door where
  paused : Bool
  entry : Option TaskEntry
  now : Instant

/-- What the lookup finds: the submission the key already bought, or a request to go on
with. -/
inductive Lookup where
  | original (submission : Submission)
  | proceed (entry : TaskEntry)

/-- `find_session_submission_by_idempotency_key`; no row names a hotkey. -/
def findSessionSubmissionByIdempotencyKey (db : Database) (accountId key : Uuid) :
    Option Submission :=
  db.submissions.rows.find? fun s ↦ s.sessionIdx = some (accountId, key)

/-- `_require_expiry`. -/
def requireExpiry (expiresAt now maxMinutes : ℤ) : Except SubmissionRefusal Unit := do
  require (now < expiresAt) .authorisationExpired
  require (expiresAt - now ≤ maxMinutes * 60000000) (.authorisationWindow maxMinutes)

/-- `create_submission` as far as its lookup.  A key that was used for other data is a
conflict. -/
def lookupExtrinsic (svc : IntakeServices) (db : Database) (r : ExtrinsicRequest) (door : Door) :
    Except SubmissionRefusal Lookup := do
  require (¬ door.paused) .submissionsPaused
  let entry ← need door.entry .taskNotAllowed
  match findByIdempotencyKey db r.signerColdkey r.idempotencyKey with
  | some existing =>
    require (existing.requestDigest = svc.digest (.extrinsic r))
      (.intake (.database (.idempotencyConflict
        "idempotency key was already used with different submission data" r.idempotencyKey)))
    return .original existing
  | none => return .proceed entry

/-- What `/web` asks of the coldkey that signed; `/session` asks nothing. -/
def authoriseWeb (svc : IntakeServices) (db : Database) (r : WebRequest) (expiresAt now : Instant) :
    Except SubmissionRefusal Unit :=
  match r.coldkey with
  | some coldkey => do
    requireExpiry expiresAt now svc.intentMinutes
    require ((db.wallets.find? coldkey).map AccountWallet.accountId = some r.accountId)
      .walletNotLinked
  | none => return

/-- `create_web_submission` and `create_session_submission` as far as their lookup.  What
the key was used for is not compared. -/
def lookupWeb (svc : IntakeServices) (db : Database) (r : WebRequest) (expiresAt : Instant)
    (door : Door) : Except SubmissionRefusal Lookup := do
  require (¬ door.paused) .submissionsPaused
  authoriseWeb svc db r expiresAt door.now
  match findSessionSubmissionByIdempotencyKey db r.accountId r.idempotencyKey with
  | some existing => return .original existing
  | none => do
    let entry ← need door.entry .taskNotAllowed
    return .proceed entry

def lookup (svc : IntakeServices) (db : Database) (door : Door) :
    Call → Except SubmissionRefusal Lookup
  | .extrinsic r _ => lookupExtrinsic svc db r door
  | .web r _ expiresAt => lookupWeb svc db r expiresAt door

/-! ## The write -/

/-- What comes with the body, what other services answer, and what the database draws. -/
structure Upload where
  /-- the checks between the lookup and the write, which only read -/
  admitted : Except SubmissionRefusal Unit
  bundleSha256 : Digest
  proofContent : Bytes
  proofSha256 : Digest
  freshNonce : Bool
  quote : Quote
  logsDeposited : Bool
  /-- the transfer the chain shows under the reference -/
  transfer : Except SubmissionRefusal IncomingTransfer
  dispatched : Bool
  intentId : Uuid
  submissionId : Uuid
  now : Instant

/-- The amount `lock_quote` locks, for a proof whose chat logs are there. -/
def Upload.lockedAmount (u : Upload) (entry : TaskEntry) : Except SubmissionRefusal Rao := do
  let amountRao ← (u.quote.payable entry.rewardTargetId).mapError .intent
  require (u.quote.policyVersion = treasuryChatPolicy → u.logsDeposited) (.intent .missingLogs)
  return amountRao

/-- What `create_submission` of the API asks of the store. -/
def ExtrinsicRequest.submission (r : ExtrinsicRequest) (svc : IntakeServices) (entry : TaskEntry)
    (u : Upload) (transfer : IncomingTransfer) (signature : Bytes) (amountRao : Rao) :
    NewSubmission where
  signerColdkey := r.signerColdkey
  idempotencyKey := r.idempotencyKey
  requestDigest := svc.digest (.extrinsic r)
  taskId := r.taskId
  taskBundleSha256 := r.taskBundleSha256
  problemId := entry.problemId
  rewardTargetId := entry.rewardTargetId
  taskMode := entry.mode
  proofContent := u.proofContent
  proofSha256 := u.proofSha256
  paymentReference := transfer.reference
  paymentSender := transfer.sender
  paymentAmountRao := transfer.amountRao
  paymentBlock := transfer.block
  signerSignature := signature
  manualReviewRequired := svc.manualReviewEnabled
  reviewPolicyVersion := svc.reviewPolicyVersion
  bountyAmountRao := amountRao
  bountyPolicyVersion := u.quote.policyVersion
  bountyInputs := u.quote.inputs
  publicCredit := r.publicCredit

/-- `create_submission`, from the body on. -/
def writeExtrinsic (svc : IntakeServices) (r : ExtrinsicRequest) (signature : Bytes)
    (entry : TaskEntry) (u : Upload) : Txn Database SubmissionRefusal SubmissionView :=
  fun db ↦ do
    u.admitted
    require (u.proofSha256 = r.proofSha256)
      (.badRequest "archived proof digest does not match X-Conjectures-Proof-Sha256")
    require (svc.verifyDigest (some r.signerColdkey) (svc.digest (.extrinsic r)) signature)
      .unauthorized
    require u.freshNonce .unauthorized
    let amountRao ← u.lockedAmount entry
    let transfer ← u.transfer
    let (view, db) ← (submit svc.verifier (r.submission svc entry u transfer signature amountRao)
      transfer u.submissionId db).mapError .intake
    -- a replay is answered before anything is dispatched
    require (view.replayed ∨ u.dispatched) (.intent .dispatchFailed)
    return (view, db)

/-- The digest a browser's submission is stored with. -/
def WebRequest.digest (r : WebRequest) (svc : IntakeServices) (u : Upload) (expiresAt : Instant) :
    Digest :=
  match r.coldkey with
  | some coldkey => svc.digest (.message coldkey r.taskId r.taskBundleSha256 r.bundleSha256
      r.idempotencyKey expiresAt)
  | none => svc.digest (.session r.accountId r.taskId r.taskBundleSha256 u.proofSha256
      r.idempotencyKey r.publicCredit)

/-- The signature is checked again against the clock the write starts at. -/
def verifyWeb (svc : IntakeServices) (r : WebRequest) (signature : Bytes) (expiresAt now : Instant) :
    Except SubmissionRefusal Unit :=
  match r.coldkey with
  | some coldkey => do
    requireExpiry expiresAt now svc.intentMinutes
    require (svc.verifyMessage coldkey (.message coldkey r.taskId r.taskBundleSha256 r.bundleSha256
      r.idempotencyKey expiresAt) signature) .unauthorized
  | none => return

/-- The intent a browser's request opens and spends at once. -/
def WebRequest.intent (r : WebRequest) (svc : IntakeServices) (u : Upload) : NewIntent where
  id := u.intentId
  accountId := r.accountId
  taskId := r.taskId
  taskBundleSha256 := r.taskBundleSha256
  creditPriceRao := svc.verifier.amountRao
  expiresAt := u.now + svc.intentMinutes * 60000000
  createdAt := u.now
  publicCredit := r.publicCredit
  signerColdkey := r.coldkey

def WebRequest.confirmation (r : WebRequest) (svc : IntakeServices) (entry : TaskEntry)
    (u : Upload) (signature : Bytes) (amountRao : Rao) : Confirmation where
  submissionId := u.submissionId
  problemId := entry.problemId
  rewardTargetId := entry.rewardTargetId
  taskMode := entry.mode
  signerSignature := r.coldkey.map fun _ ↦ signature
  manualReviewRequired := svc.manualReviewEnabled
  reviewPolicyVersion := svc.reviewPolicyVersion
  bountyAmountRao := amountRao
  bountyPolicyVersion := u.quote.policyVersion
  bountyInputs := u.quote.inputs
  idempotencyKey := some r.idempotencyKey

/-- `create_web_submission` and `create_session_submission`, from the body on. -/
def writeWeb (svc : IntakeServices) (r : WebRequest) (signature : Bytes) (expiresAt : Instant)
    (entry : TaskEntry) (u : Upload) : Txn Database SubmissionRefusal SubmissionView :=
  fun db ↦ do
    u.admitted
    require (u.bundleSha256 = r.bundleSha256)
      (.badRequest "the uploaded archive does not match bundle_sha256")
    verifyWeb svc r signature expiresAt u.now
    let ((intent, _), db) ← (openIntent db (r.intent svc u) u.now).mapError (.intent ∘ .database)
    let db ← (attachBundle db intent u.proofContent u.proofSha256 (r.digest svc u expiresAt)
      u.now).mapError (.intent ∘ .database)
    let amountRao ← u.lockedAmount entry
    let (confirmed, db) ← (confirm db intent.id r.accountId
      (r.confirmation svc entry u signature amountRao) u.now).mapError (.intent ∘ .database)
    require u.dispatched (.intent .dispatchFailed)
    return (⟨confirmed.submission, false⟩, db)

def write (svc : IntakeServices) (entry : TaskEntry) (u : Upload) :
    Call → Txn Database SubmissionRefusal SubmissionView
  | .extrinsic r signature => writeExtrinsic svc r signature entry u
  | .web r signature expiresAt => writeWeb svc r signature expiresAt entry u

end Conjectures.Api

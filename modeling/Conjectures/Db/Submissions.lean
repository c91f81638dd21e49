import Conjectures.Lib.Transaction
import Conjectures.Db.Errors

/-!
# Recording a submission

The intake half of `conjectures_subnet/db/submissions.py`: the insert both funding
paths end in, and the path of a submission paid for by a transfer.

The schema has one row shape for both paths, and it is the schema that says a
submission is paid for exactly once: by a transfer's reference or by a ledger
entry, each of which backs one submission at most.
-/

namespace Conjectures.Db

open Lib

/-! ## The insert -/

/-- The constraints an insert into `submissions` can violate. -/
inductive SubmissionsConstraint where
  | check
  | primaryKey
  | proofDigest
  | paymentReference
  | creditLedgerId
  | intentId
  /-- over the account and the idempotency key -/
  | sessionIdempotency
  /-- over the signing coldkey and the idempotency key -/
  | signerIdempotency
  deriving DecidableEq

/-- The name PostgreSQL reports. -/
def SubmissionsConstraint.name : SubmissionsConstraint → String
  | .check => "submissions_check"
  | .primaryKey => "submissions_pkey"
  | .proofDigest => "submissions_proof_digest_key"
  | .paymentReference => "submissions_payment_reference_unique"
  | .creditLedgerId => "submissions_credit_ledger_id_key"
  | .intentId => "submissions_intent_id_key"
  | .sessionIdempotency => "submissions_session_idempotency_unique"
  | .signerIdempotency => "submissions_signer_idempotency_unique"

def Submission.proofIdx (s : Submission) : Option Digest := some s.proofDigest

def Submission.sessionIdx (s : Submission) : Option (Uuid × Uuid) :=
  s.accountId.map fun account ↦ (account, s.idempotencyKey)

def Submission.signerIdx (s : Submission) : Option (Ss58 × Uuid) :=
  s.signerColdkey.map fun coldkey ↦ (coldkey, s.idempotencyKey)

/-- The `CHECK` constraints on how a submission is funded and authorised. -/
def Submission.Valid (s : Submission) : Prop :=
  -- `submission_funded_exactly_once`
  (s.paymentReference.isSome ≠ s.creditLedgerId.isSome)
    -- `submission_payment_is_complete`
    ∧ (s.paymentReference.isSome →
        s.paymentSender.isSome ∧ s.paymentAmountRao.isSome ∧ s.paymentBlock.isSome)
    -- `submission_credit_path_is_complete`
    ∧ (s.creditLedgerId.isSome → s.accountId.isSome ∧ s.intentId.isSome)
    -- `submission_authorised_exactly_once`, for rows without a hotkey
    ∧ ((s.signerColdkey.isSome ∧ s.signerSignature.isSome)
        ∨ (s.signerColdkey = none ∧ s.signerSignature = none
            ∧ s.accountId.isSome ∧ s.creditLedgerId.isSome))
    -- `submission_signer_coldkey_is_funded`
    ∧ (s.signerColdkey = none ∨ (s.accountId.isSome ∧ s.creditLedgerId.isSome)
        ∨ s.signerColdkey = s.paymentSender)
    ∧ 0 < s.bountyAmountRao
    ∧ (∀ amount ∈ s.paymentAmountRao, 0 < amount)
    ∧ (∀ block ∈ s.paymentBlock, 0 < block)

instance Submission.decidableValid (s : Submission) : Decidable s.Valid := by
  unfold Submission.Valid; infer_instance

/-- Insert one submission, or report the constraint that refuses it. -/
def insertSubmission (db : Database) (row : Submission) :
    Except SubmissionsConstraint Database := do
  require row.Valid .check
  let submissions ← need (db.submissions.insert? row) .primaryKey
  require (¬ Taken Submission.proofIdx db.submissions.rows row) .proofDigest
  require (¬ Taken Submission.paymentReference db.submissions.rows row) .paymentReference
  require (¬ Taken Submission.creditLedgerId db.submissions.rows row) .creditLedgerId
  require (¬ Taken Submission.intentId db.submissions.rows row) .intentId
  require (¬ Taken Submission.sessionIdx db.submissions.rows row) .sessionIdempotency
  require (¬ Taken Submission.signerIdx db.submissions.rows row) .signerIdempotency
  return { db with submissions }

/-- What `insertSubmission` does when it goes through. -/
structure SubmissionInserted (db : Database) (row : Submission) (db' : Database) : Prop where
  valid : row.Valid
  fresh : db.submissions.insert? row = some db'.submissions
  proof : ¬ Taken Submission.proofIdx db.submissions.rows row
  payment : ¬ Taken Submission.paymentReference db.submissions.rows row
  ledger : ¬ Taken Submission.creditLedgerId db.submissions.rows row
  intent : ¬ Taken Submission.intentId db.submissions.rows row
  rest : db' = { db with submissions := db'.submissions }

theorem insertSubmission_spec {db db' : Database} {row : Submission}
    (h : insertSubmission db row = .ok db') : SubmissionInserted db row db' := by
  simp only [insertSubmission, bind_eq_ok, require_eq_ok, need_eq_ok] at h
  obtain ⟨-, hvalid, submissions, hins, -, hproof, -, hpayment, -, hledger, -, hintent, -, -,
    -, -, h⟩ := h
  cases h
  exact ⟨hvalid, hins, hproof, hpayment, hledger, hintent, rfl⟩

/-- No row is inserted under a key that is taken. -/
theorem insertSubmission_keys {db db' : Database} {row : Submission}
    (h : insertSubmission db row = .ok db') :
    ¬ Taken Submission.sessionIdx db.submissions.rows row ∧
      ¬ Taken Submission.signerIdx db.submissions.rows row := by
  simp only [insertSubmission, bind_eq_ok, require_eq_ok, need_eq_ok] at h
  obtain ⟨-, -, -, -, -, -, -, -, -, -, -, -, -, hsession, -, hsigner, -⟩ := h
  exact ⟨hsession, hsigner⟩

theorem SubmissionInserted.rows {db db' : Database} {row : Submission}
    (h : SubmissionInserted db row db') :
    db'.submissions.rows = db.submissions.rows ++ [row] := Table.rows_of_insert? h.fresh

/-- Store the proof bytes, or do nothing if these exact bytes are already stored. -/
def ensureProof (db : Database) (content : Bytes) (digest : Digest) : Database :=
  { db with proofs := db.proofs.insertNew ⟨digest, content⟩ }

/-! ## A submission paid for by a transfer -/

/-- A signed request for a submission, with the transfer that pays for it and the
quote that was locked for it. -/
structure NewSubmission where
  signerColdkey : Ss58
  idempotencyKey : Uuid
  requestDigest : Digest
  taskId : String
  taskBundleSha256 : Digest
  problemId : String
  rewardTargetId : String
  taskMode : TaskMode
  proofContent : Bytes
  proofSha256 : Digest
  paymentReference : String
  paymentSender : Ss58
  paymentAmountRao : Rao
  paymentBlock : ℕ
  signerSignature : Bytes
  manualReviewRequired : Bool
  reviewPolicyVersion : String
  bountyAmountRao : Rao
  bountyPolicyVersion : String
  bountyInputs : Option String
  publicCredit : Option PublicCredit

/-- The row of a fresh submission: unverified, unreviewed, ineligible. -/
def NewSubmission.row (r : NewSubmission) (id : Uuid) : Submission where
  id := id
  signerColdkey := some r.signerColdkey
  publicCredit := r.publicCredit
  idempotencyKey := r.idempotencyKey
  requestDigest := r.requestDigest
  taskId := r.taskId
  taskBundleSha256 := r.taskBundleSha256
  problemId := r.problemId
  rewardTargetId := r.rewardTargetId
  taskMode := r.taskMode
  proofDigest := r.proofSha256
  signerSignature := some r.signerSignature
  paymentReference := some r.paymentReference
  paymentSender := some r.paymentSender
  paymentAmountRao := some r.paymentAmountRao
  paymentBlock := some r.paymentBlock
  accountId := none
  creditLedgerId := none
  intentId := none
  verificationStatus := .unverified
  manualReviewStatus := .unreviewed
  rewardStatus := .ineligible
  manualReviewRequired := r.manualReviewRequired
  reviewPolicyVersion := r.reviewPolicyVersion
  bountyAmountRao := r.bountyAmountRao
  bountyPolicyVersion := r.bountyPolicyVersion
  bountyInputs := r.bountyInputs

/-- The submission a caller returns, and whether it is the original of a replay. -/
structure SubmissionView where
  submission : Submission
  replayed : Bool

/-- The replay lookup for a coldkey-signed submission. -/
def findByIdempotencyKey (db : Database) (signerColdkey : Ss58) (key : Uuid) :
    Option Submission :=
  db.submissions.rows.find? fun s ↦ s.signerIdx = some (signerColdkey, key)

theorem findByIdempotencyKey_eq_some {db : Database} {signerColdkey : Ss58} {key : Uuid}
    {s : Submission} (h : findByIdempotencyKey db signerColdkey key = some s) :
    s ∈ db.submissions.rows ∧ s.signerIdx = some (signerColdkey, key) :=
  ⟨List.mem_of_find?_eq_some h, by simpa using List.find?_some h⟩

/-- What a refused insert is reported as on the signed path.  The idempotency
constraint the source names is over the retired hotkey and no new row can violate
it, so the two that replaced it surface as themselves. -/
def createSubmissionError (request : NewSubmission) : SubmissionsConstraint → DatabaseError
  | .proofDigest => .duplicateProof "these proof bytes have already been submitted"
      request.proofSha256
  | .paymentReference => .duplicatePayment request.paymentReference
  | c => .integrityError c.name

/-- Record one confirmed-paid submission, or return the original for an exact
replay. -/
def createSubmission (db : Database) (request : NewSubmission) (id : Uuid) :
    Except DatabaseError (SubmissionView × Database) :=
  match findByIdempotencyKey db request.signerColdkey request.idempotencyKey with
  | some existing => do
    require (existing.requestDigest = request.requestDigest)
      (.idempotencyConflict "idempotency key was already used with different submission data"
        request.idempotencyKey)
    return (⟨existing, true⟩, db)
  | none => do
    let db := ensureProof db request.proofContent request.proofSha256
    let row := request.row id
    let db ← (insertSubmission db row).mapError (createSubmissionError request)
    return (⟨row, false⟩, db)

/-- `createSubmission` either finds the original and writes nothing, or inserts the
request's row. -/
theorem createSubmission_spec {db db' : Database} {request : NewSubmission} {id : Uuid}
    {view : SubmissionView} (h : createSubmission db request id = .ok (view, db')) :
    (view.replayed = true ∧ db' = db) ∨
      (view.replayed = false ∧ view.submission = request.row id ∧
        SubmissionInserted (ensureProof db request.proofContent request.proofSha256)
          (request.row id) db') := by
  unfold createSubmission at h
  split at h
  · simp only [bind_eq_ok, require_eq_ok] at h
    obtain ⟨-, -, h⟩ := h
    cases h
    exact Or.inl ⟨rfl, rfl⟩
  · simp only [bind_eq_ok, mapError_eq_ok] at h
    obtain ⟨db₁, hins, h⟩ := h
    cases h
    exact Or.inr ⟨rfl, rfl, insertSubmission_spec hins⟩

end Conjectures.Db

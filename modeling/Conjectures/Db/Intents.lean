import Conjectures.Db.Credits
import Conjectures.Db.Submissions

/-!
# Submission intents

`conjectures_subnet/db/intents.py`: hold a credit, attach a bundle, then spend the
credit and write the submission.  A hold is the state of the intent's row, not an
entry of the ledger; `confirm` is where it becomes one.

A function that changes an intent is given the caller's copy of it, the one its session
read, and writing that copy back writes the columns that were changed in it and no others
(`saveIntent`).  Where nothing came between the reading and the write the copy is the row, and
the row becomes the changed copy (`saveIntent_current`).
-/

namespace Conjectures.Db

open Lib

/-! ## Rows -/

/-- The `CHECK` constraints of `submission_intents`, except for the shape of a public
credit. -/
def SubmissionIntent.Valid (i : SubmissionIntent) : Prop :=
  1 ≤ i.taskId.length ∧ i.taskId.length ≤ 255
    ∧ 0 < i.creditsHeld
    ∧ 0 < i.creditPriceRao
    ∧ i.proofContent.isSome = i.proofSha256.isSome
    ∧ (i.status = .bundleAttached → i.proofSha256.isSome ∧ i.requestDigest.isSome)
    ∧ (i.status = .confirmed → i.submissionId.isSome)
    ∧ i.createdAt < i.expiresAt

instance SubmissionIntent.decidableValid (i : SubmissionIntent) : Decidable i.Valid := by
  unfold SubmissionIntent.Valid; infer_instance

/-- What `openIntent` is asked for.  The id and the row's own clock are the
database's. -/
structure NewIntent where
  id : Uuid
  accountId : Uuid
  taskId : String
  taskBundleSha256 : Digest
  creditPriceRao : Rao
  expiresAt : Instant
  createdAt : Instant
  creditsHeld : ℤ := 1
  publicCredit : Option PublicCredit := none
  signerColdkey : Option Ss58 := none

/-- The row of an intent that has only been opened. -/
def NewIntent.row (r : NewIntent) : SubmissionIntent where
  id := r.id
  accountId := r.accountId
  signerColdkey := r.signerColdkey
  publicCredit := r.publicCredit
  taskId := r.taskId
  taskBundleSha256 := r.taskBundleSha256
  status := .opened
  creditsHeld := r.creditsHeld
  creditPriceRao := r.creditPriceRao
  proofContent := none
  proofSha256 := none
  requestDigest := none
  submissionId := none
  expiresAt := r.expiresAt
  createdAt := r.createdAt

/-- The row with a bundle on it. -/
def SubmissionIntent.attached (i : SubmissionIntent) (content : Bytes) (sha256 digest : Digest) :
    SubmissionIntent :=
  { i with
    proofContent := some content
    proofSha256 := some sha256
    requestDigest := some digest
    status := .bundleAttached }

/-- The row of an intent that bought a submission. -/
def SubmissionIntent.confirmedBy (i : SubmissionIntent) (submissionId : Uuid) :
    SubmissionIntent :=
  { i with
    status := .confirmed
    submissionId := some submissionId
    proofContent := none
    proofSha256 := none
    publicCredit := none }

/-- The row of an intent that is over and bought nothing. -/
def SubmissionIntent.closed (i : SubmissionIntent) (status : IntentState) : SubmissionIntent :=
  { i with status, proofContent := none, proofSha256 := none, publicCredit := none }

section Rows

variable (i : SubmissionIntent) (content : Bytes) (sha256 digest : Digest) (submissionId : Uuid)
  (status : IntentState)

@[simp] theorem SubmissionIntent.attached_id : (i.attached content sha256 digest).id = i.id := rfl

@[simp] theorem SubmissionIntent.confirmedBy_id : (i.confirmedBy submissionId).id = i.id := rfl

@[simp] theorem SubmissionIntent.closed_id : (i.closed status).id = i.id := rfl

end Rows

/-! ## Writing a copy back -/

/-- The row after a copy that was read as `seen` is written back as `new`. -/
def SubmissionIntent.flush (seen new current : SubmissionIntent) : SubmissionIntent :=
  { current with
    publicCredit := written seen.publicCredit new.publicCredit current.publicCredit
    status := written seen.status new.status current.status
    proofContent := written seen.proofContent new.proofContent current.proofContent
    proofSha256 := written seen.proofSha256 new.proofSha256 current.proofSha256
    requestDigest := written seen.requestDigest new.requestDigest current.requestDigest
    submissionId := written seen.submissionId new.submissionId current.submissionId }

@[simp] theorem SubmissionIntent.flush_id (seen new current : SubmissionIntent) :
    (flush seen new current).id = current.id := rfl

/-- `session.flush()` of one intent. -/
def saveIntent (db : Database) (seen new : SubmissionIntent) : Except DatabaseError Database := do
  let current ← need (db.intents.find? seen.id) (.recordNotFound "intent not found")
  require (SubmissionIntent.flush seen new current).Valid
    (.integrityError "submission_intents_check")
  return { db with
    intents := db.intents.modify current.id (SubmissionIntent.flush seen new)
      (SubmissionIntent.flush_id seen new) }

theorem saveIntent_spec {db db' : Database} {seen new : SubmissionIntent}
    (h : saveIntent db seen new = .ok db') :
    ∃ current ∈ db.intents.rows, current.id = seen.id ∧
      (SubmissionIntent.flush seen new current).Valid ∧
      db' = { db with
        intents := db.intents.modify current.id (SubmissionIntent.flush seen new)
          (SubmissionIntent.flush_id seen new) } := by
  simp only [saveIntent, bind_eq_ok, need_eq_ok, require_eq_ok, Table.find?_eq_some] at h
  obtain ⟨current, ⟨hmem, hid⟩, -, hvalid, h⟩ := h
  cases h
  exact ⟨current, hmem, hid, hvalid, rfl⟩

/-- A copy that is the row is written back as it is. -/
theorem saveIntent_current {db db' : Database} {seen : SubmissionIntent}
    (hseen : seen ∈ db.intents.rows) {f : SubmissionIntent → SubmissionIntent}
    (hf : ∀ i, (f i).id = i.id) (hflush : SubmissionIntent.flush seen (f seen) seen = f seen)
    (h : saveIntent db seen (f seen) = .ok db') :
    db' = { db with intents := db.intents.modify seen.id f hf } := by
  obtain ⟨current, hmem, hid, -, rfl⟩ := saveIntent_spec h
  obtain rfl := db.intents.eq_of_key hmem hseen hid
  have hmodify : db.intents.modify current.id (SubmissionIntent.flush current (f current))
      (SubmissionIntent.flush_id current (f current)) = db.intents.modify current.id f hf :=
    Table.modify_congr hseen hflush
  rw [hmodify]

/-- The other tables are beside the point. -/
theorem saveIntent_congr {db db' : Database} {seen new : SubmissionIntent}
    (h : saveIntent db seen new = .ok db') {db₁ : Database} (hsame : db₁.intents = db.intents) :
    saveIntent db₁ seen new = .ok { db₁ with intents := db'.intents } := by
  obtain ⟨current, hmem, hid, hvalid, rfl⟩ := saveIntent_spec h
  have hfind : db.intents.find? seen.id = some current := Table.find?_eq_some.mpr ⟨hmem, hid⟩
  simp only [saveIntent, hsame, hfind, need, require, if_pos hvalid, bind, Except.bind, pure,
    Except.pure]

/-! ## Opening -/

/-- `low_balance_credits`, where the caller does not choose it. -/
def lowBalanceCredits : ℤ := 1

/-- Hold credits and open an intent, or refuse for insufficient credit.  The account
is locked before the balance is read. -/
def openIntent (db : Database) (r : NewIntent) (now : Instant) :
    Except DatabaseError ((SubmissionIntent × CreditBalance) × Database) := do
  lockAccount db r.accountId
  let balance := creditBalance db r.accountId r.creditPriceRao now lowBalanceCredits
  require (r.creditsHeld ≤ balance.creditsAvailable)
    (.insufficientCredits balance.creditsAvailable r.creditsHeld)
  require r.row.Valid (.integrityError "submission_intents_check")
  let intents ← need (db.intents.insert? r.row) (.integrityError "submission_intents_pkey")
  let db := { db with intents }
  return ((r.row, creditBalance db r.accountId r.creditPriceRao now lowBalanceCredits), db)

/-- What `openIntent` does when it goes through: the row is inserted, and what it holds
fits in what the account had left. -/
theorem openIntent_spec {db db' : Database} {r : NewIntent} {now : Instant}
    {out : SubmissionIntent × CreditBalance} (h : openIntent db r now = .ok (out, db')) :
    r.row.Valid ∧ db.intents.insert? r.row = some db'.intents ∧
      db' = { db with intents := db'.intents } ∧
      r.creditsHeld ≤
        (creditBalance db r.accountId r.creditPriceRao now lowBalanceCredits).creditsAvailable := by
  simp only [openIntent, bind_eq_ok, require_eq_ok, need_eq_ok] at h
  obtain ⟨-, -, -, henough, -, hvalid, intents, hins, h⟩ := h
  cases h
  exact ⟨hvalid, hins, rfl, henough⟩

/-- Credits are counted in whole ones, so as many as are available fit in the balance
that is left beside the live holds. -/
theorem held_add_le_balanceRao {db : Database} {accountId : Uuid} {price : Rao} {now : Instant}
    {low credits : ℤ} (hcredits : 0 < credits) (hprice : 0 < price)
    (h : credits ≤ (creditBalance db accountId price now low).creditsAvailable) :
    heldRao db accountId now + credits * price ≤ balanceRao db accountId := by
  have havailable : credits ≤ if balanceRao db accountId - heldRao db accountId now ≤ 0 then 0
      else (balanceRao db accountId - heldRao db accountId now) / price := h
  split at havailable
  · omega
  · exact Int.add_le_of_le_sub_left ((Int.le_ediv_iff_mul_le hprice).mp havailable)

/-! ## Reading -/

/-- One intent, scoped to its owner: another account's is absent. -/
def getIntent (db : Database) (intentId accountId : Uuid) :
    Except DatabaseError SubmissionIntent := do
  let intent ← need (db.intents.find? intentId) (.recordNotFound "intent not found")
  require (intent.accountId = accountId) (.recordNotFound "intent not found")
  return intent

theorem getIntent_eq_ok {db : Database} {intentId accountId : Uuid} {i : SubmissionIntent} :
    getIntent db intentId accountId = .ok i ↔
      i ∈ db.intents.rows ∧ i.id = intentId ∧ i.accountId = accountId := by
  simp only [getIntent, bind_eq_ok, need_eq_ok, require_eq_ok, Table.find?_eq_some, pure,
    Except.pure, Except.ok.injEq]
  constructor
  · rintro ⟨i', ⟨hmem, hid⟩, -, haccount, rfl⟩
    exact ⟨hmem, hid, haccount⟩
  · rintro ⟨hmem, hid, haccount⟩
    exact ⟨i, ⟨hmem, hid⟩, (), haccount, rfl⟩

/-- Refuse an intent that has lapsed or already been used.  Expiry is the timestamp's
to say, not the status's. -/
def assertUsable (i : SubmissionIntent) (now : Instant) : Except DatabaseError Unit :=
  match i.status with
  | .confirmed => .error (.intentAlreadyConfirmed i.submissionId)
  | .expired | .cancelled => .error (.intentNotOpen i.status)
  | .opened | .bundleAttached => require (now < i.expiresAt) .intentExpired

theorem assertUsable_eq_ok {i : SubmissionIntent} {now : Instant} {u : Unit} :
    assertUsable i now = .ok u ↔ i.status.Live ∧ now < i.expiresAt := by
  unfold assertUsable IntentState.Live
  split <;> simp_all

/-- Store the admitted proof and the digest the client must sign.  Attaching again
replaces the bundle. -/
def attachBundle (db : Database) (intent : SubmissionIntent) (content : Bytes)
    (sha256 digest : Digest) (now : Instant) : Except DatabaseError Database := do
  assertUsable intent now
  saveIntent db intent (intent.attached content sha256 digest)

theorem attachBundle_eq_ok {db db' : Database} {intent : SubmissionIntent} {content : Bytes}
    {sha256 digest : Digest} {now : Instant} :
    attachBundle db intent content sha256 digest now = .ok db' ↔
      (intent.status.Live ∧ now < intent.expiresAt) ∧
        saveIntent db intent (intent.attached content sha256 digest) = .ok db' := by
  simp only [attachBundle, bind_eq_ok, assertUsable_eq_ok, exists_const]

/-- Attached to the row as it is. -/
theorem attachBundle_spec {db db' : Database} {intent : SubmissionIntent} {content : Bytes}
    {sha256 digest : Digest} {now : Instant} (hmem : intent ∈ db.intents.rows)
    (h : attachBundle db intent content sha256 digest now = .ok db') :
    intent.status.Live ∧ db' = { db with
      intents := db.intents.modify intent.id (·.attached content sha256 digest)
        (·.attached_id content sha256 digest) } := by
  obtain ⟨⟨hlive, -⟩, hsave⟩ := attachBundle_eq_ok.mp h
  refine ⟨hlive, saveIntent_current hmem (·.attached_id content sha256 digest) ?_ hsave⟩
  simp [SubmissionIntent.flush, SubmissionIntent.attached]

/-! ## Confirming -/

/-- What the caller of `confirm` supplies: the task's identity from the allowlist, the
signature, the policies and the quote; `submissionId` is the database's. -/
structure Confirmation where
  submissionId : Uuid
  problemId : String
  rewardTargetId : String
  taskMode : TaskMode
  signerSignature : Option Bytes
  manualReviewRequired : Bool
  reviewPolicyVersion : String
  bountyAmountRao : Rao
  bountyPolicyVersion : String
  bountyInputs : Option String
  idempotencyKey : Option Uuid := none

/-- The submission an intent buys.  The intent's id is the idempotency key unless the
caller named one. -/
def SubmissionIntent.submission (i : SubmissionIntent) (c : Confirmation) (requestDigest
    proofSha256 : Digest) (creditLedgerId : ℕ) : Submission where
  id := c.submissionId
  signerColdkey := i.signerColdkey
  publicCredit := i.publicCredit
  idempotencyKey := c.idempotencyKey.getD i.id
  requestDigest := requestDigest
  taskId := i.taskId
  taskBundleSha256 := i.taskBundleSha256
  problemId := c.problemId
  rewardTargetId := c.rewardTargetId
  taskMode := c.taskMode
  proofDigest := proofSha256
  signerSignature := c.signerSignature
  paymentReference := none
  paymentSender := none
  paymentAmountRao := none
  paymentBlock := none
  accountId := some i.accountId
  creditLedgerId := some creditLedgerId
  intentId := some i.id
  verificationStatus := .unverified
  manualReviewStatus := .unreviewed
  rewardStatus := .ineligible
  manualReviewRequired := c.manualReviewRequired
  reviewPolicyVersion := c.reviewPolicyVersion
  bountyAmountRao := c.bountyAmountRao
  bountyPolicyVersion := c.bountyPolicyVersion
  bountyInputs := c.bountyInputs

/-- The entry that spends what an intent holds. -/
def SubmissionIntent.spend (i : SubmissionIntent) : EntryFields where
  accountId := i.accountId
  kind := .spend
  amountRao := -i.heldRao
  creditPriceRao := some i.creditPriceRao
  intentId := some i.id

/-- What a refused insert is reported as on the intent path.  The idempotency
constraint the source names is over the retired hotkey, which no new row sets. -/
def confirmError (proofSha256 : Digest) : SubmissionsConstraint → DatabaseError
  | .proofDigest => .duplicateProof "these exact proof bytes have already been submitted"
      proofSha256
  | _ => .submissionNotRecorded

structure ConfirmedIntent where
  intent : SubmissionIntent
  submission : Submission
  balance : CreditBalance
  deriving DecidableEq

/-- What `confirm` does under the lock, on the copy of the intent the session has.  The entry
comes before the submission, which names it. -/
def confirmCopy (db : Database) (intent : SubmissionIntent) (c : Confirmation) (now : Instant) :
    Except DatabaseError (ConfirmedIntent × Database) := do
  assertUsable intent now
  require (intent.status = .bundleAttached) (.intentHasNoBundle "upload a bundle before confirming")
  let content ← need intent.proofContent (.intentHasNoBundle "upload a bundle before confirming")
  let requestDigest ← need intent.requestDigest
    (.intentHasNoBundle "intent has no request digest")
  let proofSha256 ← need intent.proofSha256 (.integrityError "intent_proof_is_paired")
  let db := ensureProof db content proofSha256
  let (spend, db) ← recordEntry db intent.spend
  let submission := intent.submission c requestDigest proofSha256 spend.id
  let db ← (insertSubmission db submission).mapError (confirmError proofSha256)
  let db ← saveIntent db intent (intent.confirmedBy submission.id)
  return (⟨intent.confirmedBy submission.id, submission,
    creditBalance db intent.accountId intent.creditPriceRao now lowBalanceCredits⟩, db)

/-- Debit the credit and write the submission.  The account is locked first and the
intent read under the lock. -/
def confirm (db : Database) (intentId accountId : Uuid) (c : Confirmation) (now : Instant) :
    Except DatabaseError (ConfirmedIntent × Database) := do
  lockAccount db accountId
  let intent ← getIntent db intentId accountId
  confirmCopy db intent c now

/-- What `confirm` does when it goes through on a copy of the intent, however old: one entry,
one submission that names it, and the changed columns of the intent. -/
structure CopyConfirmed (db : Database) (intent : SubmissionIntent) (c : Confirmation)
    (now : Instant) (submission : Submission) (db' : Database) : Prop where
  attached : intent.status = .bundleAttached
  digest : intent.requestDigest.isSome
  unexpired : now < intent.expiresAt
  accepted : LedgerAccepts db.ledger (intent.spend.row db.ledger.nextId)
  ledger : db'.ledger.rows = db.ledger.rows ++ [intent.spend.row db.ledger.nextId]
  id : submission.id = c.submissionId
  names : submission.creditLedgerId = some db.ledger.nextId
  fresh : db.submissions.insert? submission = some db'.submissions
  unclaimed : ¬ Taken Submission.creditLedgerId db.submissions.rows submission
  row : ∃ current ∈ db.intents.rows, current.id = intent.id
  intents : db'.intents = db.intents.modify intent.id
    (SubmissionIntent.flush intent (intent.confirmedBy submission.id))
    (SubmissionIntent.flush_id intent (intent.confirmedBy submission.id))

theorem confirmCopy_spec {db db' : Database} {intent : SubmissionIntent} {c : Confirmation}
    {now : Instant} {out : ConfirmedIntent}
    (h : confirmCopy db intent c now = .ok (out, db')) :
    CopyConfirmed db intent c now out.submission db' := by
  simp only [confirmCopy, bind_eq_ok, require_eq_ok, need_eq_ok, mapError_eq_ok,
    assertUsable_eq_ok] at h
  obtain ⟨-, ⟨-, hunexpired⟩, -, hattached, content, -, digest, hdigest, sha256, -,
    ⟨spend, db₁⟩, hspend, db₂, hins, db₃, hsave, h⟩ := h
  obtain ⟨hacc, hr⟩ := recordEntry_eq_ok.mp hspend
  obtain ⟨rfl, rfl⟩ := Prod.mk.inj hr
  have hinserted := insertSubmission_spec hins
  have hdb₂ := hinserted.rest
  obtain ⟨current, hcurrent, hid, -, hdb₃⟩ := saveIntent_spec hsave
  rw [hid] at hdb₃
  have hintents : db₂.intents = db.intents := by rw [hdb₂]; rfl
  cases h
  exact
    { attached := hattached
      digest := by rw [hdigest]; rfl
      unexpired := hunexpired
      accepted := hacc
      ledger := by rw [hdb₃, hdb₂]; rfl
      id := rfl
      names := rfl
      fresh := by rw [hdb₃]; exact hinserted.fresh
      unclaimed := hinserted.ledger
      row := ⟨current, by rw [← hintents]; exact hcurrent, hid⟩
      intents := by rw [hdb₃, hintents] }

/-- What `confirm` does when it goes through: one entry, one submission that names it,
and the intent that names the submission. -/
structure IntentConfirmed (db : Database) (intent : SubmissionIntent) (c : Confirmation)
    (now : Instant) (submission : Submission) (db' : Database) : Prop where
  attached : intent.status = .bundleAttached
  digest : intent.requestDigest.isSome
  unexpired : now < intent.expiresAt
  accepted : LedgerAccepts db.ledger (intent.spend.row db.ledger.nextId)
  ledger : db'.ledger.rows = db.ledger.rows ++ [intent.spend.row db.ledger.nextId]
  id : submission.id = c.submissionId
  names : submission.creditLedgerId = some db.ledger.nextId
  fresh : db.submissions.insert? submission = some db'.submissions
  unclaimed : ¬ Taken Submission.creditLedgerId db.submissions.rows submission
  intents : db'.intents = db.intents.modify intent.id (·.confirmedBy submission.id)
    (·.confirmedBy_id submission.id)

/-- The copy `confirm` works on is the row, where it was read under the lock. -/
theorem confirm_copy {db db' : Database} {intentId accountId : Uuid} {c : Confirmation}
    {now : Instant} {out : ConfirmedIntent}
    (h : confirm db intentId accountId c now = .ok (out, db')) :
    ∃ intent ∈ db.intents.rows, intent.id = intentId ∧ intent.accountId = accountId ∧
      confirmCopy db intent c now = .ok (out, db') := by
  simp only [confirm, bind_eq_ok, getIntent_eq_ok] at h
  obtain ⟨-, -, intent, ⟨hmem, hid, haccount⟩, h⟩ := h
  exact ⟨intent, hmem, hid, haccount, h⟩

theorem confirm_spec {db db' : Database} {intentId accountId : Uuid} {c : Confirmation}
    {now : Instant} {out : ConfirmedIntent}
    (h : confirm db intentId accountId c now = .ok (out, db')) :
    ∃ intent ∈ db.intents.rows, intent.id = intentId ∧ intent.accountId = accountId ∧
      IntentConfirmed db intent c now out.submission db' := by
  obtain ⟨intent, hmem, hid, haccount, h⟩ := confirm_copy h
  have hspec := confirmCopy_spec h
  refine ⟨intent, hmem, hid, haccount,
    { attached := hspec.attached
      digest := hspec.digest
      unexpired := hspec.unexpired
      accepted := hspec.accepted
      ledger := hspec.ledger
      id := hspec.id
      names := hspec.names
      fresh := hspec.fresh
      unclaimed := hspec.unclaimed
      intents := ?_ }⟩
  rw [hspec.intents]
  refine Table.modify_congr hmem ?_
  simp [SubmissionIntent.flush, SubmissionIntent.confirmedBy]

/-! ## Letting go -/

/-- Release the hold.  The credit was never spent, so nothing is refunded. -/
def cancel (db : Database) (intent : SubmissionIntent) (now : Instant) :
    Except DatabaseError Database := do
  assertUsable intent now
  saveIntent db intent (intent.closed .cancelled)

theorem cancel_spec {db db' : Database} {intent : SubmissionIntent} {now : Instant}
    (hmem : intent ∈ db.intents.rows) (h : cancel db intent now = .ok db') :
    intent.status.Live ∧ db' = { db with
      intents := db.intents.modify intent.id (·.closed .cancelled)
        (·.closed_id .cancelled) } := by
  simp only [cancel, bind_eq_ok, assertUsable_eq_ok] at h
  obtain ⟨-, ⟨hlive, -⟩, hsave⟩ := h
  refine ⟨hlive, saveIntent_current hmem (·.closed_id .cancelled) ?_ hsave⟩
  simp [SubmissionIntent.flush, SubmissionIntent.closed]

/-- Tidy up the intents whose window closed. -/
def expireLapsed (db : Database) (now : Instant) : Database :=
  { db with
    intents := db.intents.update (fun i ↦ i.status.Live ∧ i.expiresAt ≤ now)
      (·.closed .expired) (·.closed_id .expired) }

end Conjectures.Db

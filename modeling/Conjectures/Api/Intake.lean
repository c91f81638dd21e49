import Conjectures.Db.Transfers
import Conjectures.Db.Submissions

/-!
# The requests that meet a transfer

Two endpoints of the API touch what the deposit watcher also touches.  A signed
submission (`submission_api/routers/submissions.py`, with
`submission_api/payments.py`) cites a transfer and spends it in the transaction
that writes the submission.  A deposit claim (`claim_deposit` in
`submission_api/routers/me.py`) attaches a transfer's reference to an open deposit
and issues nothing.
-/

namespace Conjectures.Api

open Lib Db

/-! ## Submissions paid for by a transfer -/

/-- What the intake path refuses with. -/
inductive IntakeError where
  /-- `PaymentRequired`: the cited transfer is not a payment for this request -/
  | paymentRequired (message : String)
  | database (e : DatabaseError)
  deriving DecidableEq

/-- `ChainPaymentVerifier`: where payments go and what one submission costs. -/
structure PaymentVerifier where
  recipient : Ss58
  amountRao : Rao

/-- Confirm a finalized transfer as a payment by the coldkey that signed. -/
def PaymentVerifier.confirm (v : PaymentVerifier) (transfer : IncomingTransfer)
    (signerColdkey : Ss58) : Except IntakeError Unit := do
  require (transfer.recipient = v.recipient)
    (.paymentRequired "transfer was not sent to the validator's payment address")
  require (transfer.amountRao = v.amountRao)
    (.paymentRequired "transfer amount does not equal the submission price")
  require (transfer.sender = signerColdkey)
    (.paymentRequired "the transfer was not sent by the coldkey that signed this submission")

/-- The request with the payment the verifier confirmed: the reader's canonical
reference, not the one that was typed. -/
def NewSubmission.paidBy (r : NewSubmission) (transfer : IncomingTransfer) : NewSubmission :=
  { r with
    paymentReference := transfer.reference
    paymentSender := transfer.sender
    paymentAmountRao := transfer.amountRao
    paymentBlock := transfer.block }

/-- `POST /v1/submissions`, from the payment on.  The submission and the spending of
its transfer are one transaction: a transfer that is already spent takes the
submission with it. -/
def submit (v : PaymentVerifier) (request : NewSubmission) (transfer : IncomingTransfer)
    (id : Uuid) : Txn Database IntakeError SubmissionView := fun db ↦ do
  v.confirm transfer request.signerColdkey
  let (view, db) ←
    (createSubmission db (NewSubmission.paidBy request transfer) id).mapError .database
  if view.replayed then
    return (view, db)
  else
    let db ← (claimForSubmission db transfer s!"funded submission {id} directly").mapError
      .database
    return (view, db)

/-- `submit` returns the original of a replay and writes nothing, or inserts one
submission and spends the transfer that pays for it. -/
theorem submit_spec {v : PaymentVerifier} {request : NewSubmission}
    {transfer : IncomingTransfer} {id : Uuid} {db db' : Database} {view : SubmissionView}
    (h : submit v request transfer id db = .ok (view, db')) :
    db' = db ∨ ∃ db₁,
      SubmissionInserted
        (ensureProof db request.proofContent request.proofSha256)
        ((NewSubmission.paidBy request transfer).row id) db₁ ∧
      claimForSubmission db₁ transfer s!"funded submission {id} directly" = .ok db' := by
  simp only [submit, bind_eq_ok, mapError_eq_ok] at h
  obtain ⟨-, -, ⟨view₁, db₁⟩, hcreate, h⟩ := h
  rcases createSubmission_spec hcreate with
    ⟨hreplayed, rfl⟩ | ⟨hreplayed, -, hins⟩
  · simp only [hreplayed, if_true, pure, Except.pure, Except.ok.injEq, Prod.mk.injEq] at h
    exact Or.inl h.2.symm
  · simp only [hreplayed, Bool.false_eq_true, if_false, bind_eq_ok, mapError_eq_ok] at h
    obtain ⟨db₂, hclaim, h⟩ := h
    cases h
    exact Or.inr ⟨db₁, hins, hclaim⟩

/-! ## Claiming a deposit -/

/-- An account's deposits, newest first. -/
def depositsFor (db : Database) (accountId : Uuid) (limit : ℕ) : List Deposit :=
  ((db.deposits.rows.filter fun d ↦ d.accountId = accountId).mergeSort
    fun d d' ↦ d'.createdAt ≤ d.createdAt).take limit

/-- Attach a transfer to the newest open deposit.  The sending coldkey must be linked
to the account; no credits are issued. -/
def claimDeposit (accountId : Uuid) (coldkey : Ss58) (reference : String) :
    Txn Database DatabaseError Unit := fun db ↦ do
  require ((db.wallets.find? coldkey).map AccountWallet.accountId = some accountId)
    (.recordNotFound "link that wallet to your account before claiming a transfer from it")
  let deposit ← need
    ((depositsFor db accountId 20).find? fun d ↦ d.status = .awaitingTransfer)
    (.recordNotFound "no open deposit to attach that transfer to; create one first")
  let db ← markSeen db deposit reference (some coldkey)
  return ((), db)

theorem claimDeposit_spec {accountId : Uuid} {coldkey : Ss58} {reference : String}
    {db db' : Database} (h : claimDeposit accountId coldkey reference db = .ok ((), db')) :
    ∃ deposit ∈ db.deposits.rows, deposit.status = .awaitingTransfer ∧
      markSeen db deposit reference (some coldkey) = .ok db' := by
  simp only [claimDeposit, bind_eq_ok, need_eq_ok] at h
  obtain ⟨-, -, deposit, hfind, db₁, hseen, h⟩ := h
  cases h
  refine ⟨deposit, ?_, by simpa using List.find?_some hfind, hseen⟩
  have hmem := List.mem_of_mem_take (List.mem_of_find?_eq_some hfind)
  exact List.mem_of_mem_filter (List.mem_mergeSort.mp hmem)

end Conjectures.Api

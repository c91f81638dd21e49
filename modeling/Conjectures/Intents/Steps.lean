import Conjectures.Api.Intents
import Conjectures.DepositWatcher.Steps

/-!
# The transactions on an account's credits

Everything that touches a balance: payments become credits through the deposit
watcher, other positive entries come from purchases, refunds, bonuses and grants,
and intents hold credits and spend them.  Transactions on one account run one after
the other, in the order in which they obtain its lock; each carries the clocks it
read before that.
-/

namespace Conjectures.Intents

open Lib Db Api

/-- An entry that adds to a balance: anything but a SPEND and a negative
correction. -/
structure Funding extends EntryFields where
  notSpend : kind ≠ .spend
  positive : 0 < amountRao

/-- One transaction of one client. -/
inductive Step where
  /-- a transaction of the transfer system -/
  | payment (a : DepositWatcher.Step)
  /-- another positive entry -/
  | fund (e : Funding)
  | openIntent (r : NewIntent) (now : Instant)
  | uploadBundle (r : BundleUpload)
  | confirm (r : ConfirmRequest)
  | cancel (intentId accountId : Uuid) (now : Instant)
  | expireLapsed (now : Instant)

/-- What the services are configured with. -/
structure Config where
  transfers : DepositWatcher.Deployment
  intents : IntentServices

/-- A positive entry, as a transaction. -/
def enter (e : Funding) : Txn Database DatabaseError CreditLedgerEntry := fun db ↦ do
  lockAccount db e.accountId
  recordEntry db e.toEntryFields

/-- What a step leaves in the database. -/
def step (c : Config) (db : Database) : Step → Database
  | .payment a => DepositWatcher.step c.transfers db a
  | .fund e => commit (enter e) db
  | .openIntent r now => commit (createIntent r now) db
  | .uploadBundle r => commit (uploadBundle c.intents r) db
  | .confirm r => commit (confirmIntent c.intents r) db
  | .cancel intentId accountId now => commit (cancelIntent intentId accountId now) db
  | .expireLapsed now => expireLapsed db now

/-! A configuration and requests for runs on fixed inputs. -/

/-- Services that accept every signature and know one task. -/
def exampleConfig : Config where
  transfers := DepositWatcher.exampleDeployment
  intents :=
    { verify := fun _ _ _ ↦ true
      resolveTask := fun _ _ ↦ some ⟨"problem", "target", .formalized⟩
      requestDigest := fun _ sha256 ↦ sha256
      manualReviewEnabled := false
      reviewPolicyVersion := "v1" }

/-- A deposit of account 1. -/
def exampleDeposited : Funding :=
  ⟨{ accountId := 1, kind := .deposit, amountRao := 5, depositId := some 1 }, by decide, by decide⟩

/-- An intent of account 1 on one credit of 5 rao. -/
def exampleIntent (id : Uuid) (createdAt expiresAt : Instant) : NewIntent where
  id := id
  accountId := 1
  taskId := "task"
  taskBundleSha256 := "bundle"
  creditPriceRao := 5
  expiresAt := expiresAt
  createdAt := createdAt
  signerColdkey := some "miner"

def exampleUpload (intentId : Uuid) (content : Bytes) (sha256 : Digest) (now : Instant) :
    BundleUpload := ⟨intentId, 1, content, sha256, now, now⟩

def exampleConfirm (intentId : Uuid) (now : Instant) : ConfirmRequest where
  intentId := intentId
  accountId := 1
  signature := [1]
  quote := ⟨true, none, some 100, "policy", none⟩
  logsDeposited := false
  dispatched := true
  submissionId := intentId
  checkedAt := now
  now := now

/-! ## What payments add

A transaction of the transfer system only ever adds to a balance, touches no intent,
and the submissions it records are not paid for by the ledger. -/

/-- Intents stay, the ledger gains positive entries that spend nothing, and submissions
gain rows that name no entry. -/
structure Income (db db' : Database) : Prop where
  intents : db'.intents = db.intents
  ledger : ∃ entries : List CreditLedgerEntry, db'.ledger.rows = db.ledger.rows ++ entries ∧
    ∀ e ∈ entries, e.kind ≠ .spend ∧ 0 < e.amountRao
  submissions : ∃ rows : List Submission, db'.submissions.rows = db.submissions.rows ++ rows ∧
    ∀ s ∈ rows, s.creditLedgerId = none

theorem Income.of_same {db db' : Database} (hintents : db'.intents = db.intents)
    (hledger : db'.ledger = db.ledger) (hsubmissions : db'.submissions = db.submissions) :
    Income db db' where
  intents := hintents
  ledger := ⟨[], by rw [hledger, List.append_nil], by simp⟩
  submissions := ⟨[], by rw [hsubmissions, List.append_nil], by simp⟩

theorem income_credit {db db' : Database} {transfer : ChainTransfer} {accountId : Uuid}
    {terms : CreditTerms} {entry : CreditLedgerEntry}
    (h : credit db transfer accountId terms = .ok (entry, db')) : Income db db' := by
  obtain ⟨-, deposit, db₁, db₂, hfound, -, -, hdep, hdb'⟩ := credit_spec h
  have hsame : db₁.intents = db.intents ∧ db₁.ledger = db.ledger ∧
      db₁.submissions = db.submissions := by
    rcases hfound.rows with ⟨rfl, -⟩ | ⟨-, -, hdb₁⟩
    · exact ⟨rfl, rfl, rfl⟩
    · rw [hdb₁]; exact ⟨rfl, rfl, rfl⟩
  obtain ⟨bonus, hbonus, hrows⟩ := hdep.ledger
  have hpositive : ∀ e ∈ entry :: bonus, e.kind ≠ .spend ∧ 0 < e.amountRao := by
    intro e he
    rcases List.mem_cons.mp he with rfl | he
    · refine ⟨by rw [hdep.kind]; decide, hdep.accepted.1.2.2.1 (Or.inl hdep.kind)⟩
    · rcases hbonus with ⟨rfl, -⟩ | ⟨b, rfl, hkind, -, -, hpos, -⟩
      · cases he
      · rw [List.mem_singleton.mp he]
        exact ⟨by rw [hkind]; decide, hpos⟩
  have hledger : db'.ledger.rows = db.ledger.rows ++ entry :: bonus := by
    rw [hdb', ← hsame.2.1]; exact hrows
  refine ⟨?_, ⟨_, hledger, hpositive⟩, [], ?_, by simp⟩
  · rw [hdb', ← hsame.1, hdep.rest]
  · rw [hdb', ← hsame.2.2, hdep.rest, List.append_nil]

theorem income_submit {v : PaymentVerifier} {request : NewSubmission}
    {transfer : IncomingTransfer} {id : Uuid} {db db' : Database} {view : SubmissionView}
    (h : submit v request transfer id db = .ok (view, db')) : Income db db' := by
  rcases submit_spec h with rfl | ⟨db₁, hins, hclaim⟩
  · exact .of_same rfl rfl rfl
  · obtain ⟨-, -, -, -, hdb'⟩ := claimForSubmission_spec hclaim
    have hrest := hins.rest
    have hrows : db'.submissions.rows =
        db.submissions.rows ++ [(NewSubmission.paidBy request transfer).row id] := by
      rw [hdb']; exact hins.rows
    refine ⟨by rw [hdb', hrest]; rfl, ⟨[], by rw [hdb', hrest, List.append_nil]; rfl, by simp⟩,
      _, hrows, fun s hs ↦ ?_⟩
    rw [List.mem_singleton.mp hs]
    rfl

/-- The transfer system only adds to balances. -/
theorem income_step (c : DepositWatcher.Deployment) (db : Database) (a : DepositWatcher.Step) :
    Income db (DepositWatcher.step c db a) := by
  have hrefl : Income db db := .of_same rfl rfl rfl
  cases a with
  | accounts accounts wallets => exact .of_same rfl rfl rfl
  | declare id accountId amountRao treasuryAddress creditPriceRao expiresAt now =>
    refine commit_induction hrefl fun deposit db' hcreate ↦ ?_
    obtain ⟨-, -, -, -, -, -, -, hdb'⟩ := createDeposit_spec hcreate
    rw [hdb']
    exact .of_same rfl rfl rfl
  | claimDeposit accountId coldkey reference =>
    refine commit_induction hrefl fun _ db' hclaim ↦ ?_
    obtain ⟨deposit, -, -, hseen⟩ := claimDeposit_spec hclaim
    obtain ⟨-, hdb'⟩ := markSeen_spec hseen
    rw [hdb']
    exact .of_same rfl rfl rfl
  | expireDeposits now => exact .of_same rfl rfl rfl
  | record arrival =>
    refine commit_induction hrefl fun _ db' hrecord ↦ ?_
    obtain ⟨-, hdb', -, -⟩ := record_spec hrecord
    rw [hdb']
    exact .of_same rfl rfl rfl
  | settle arrival recorded env =>
    refine commit_induction hrefl fun _ db' hsettle ↦ ?_
    obtain ⟨transfer, -, -, ⟨-, rfl⟩ | ⟨-, hignore | hleave | ⟨_, _, hcredit⟩⟩⟩ :=
      DepositWatcher.settle_spec hsettle
    · exact hrefl
    · rw [(ignore_spec hignore).2]
      exact .of_same rfl rfl rfl
    · rw [noteTransfer_spec hleave]
      exact .of_same rfl rfl rfl
    · exact income_credit hcredit
  | noteConflict reference message =>
    refine commit_induction hrefl fun _ db' hnote ↦ ?_
    rcases DepositWatcher.noteConflict_spec hnote with rfl | ⟨_, -, hleave⟩
    · exact hrefl
    · rw [noteTransfer_spec hleave]
      exact .of_same rfl rfl rfl
  | submit request transfer id => exact commit_induction hrefl fun _ _ h ↦ income_submit h
  | ignore reference note =>
    refine commit_induction hrefl fun _ db' hignore ↦ ?_
    obtain ⟨transfer, -, hignore⟩ := DepositWatcher.ignoreTransfer_spec hignore
    rw [(ignore_spec hignore).2]
    exact .of_same rfl rfl rfl

/-- So does every other positive entry. -/
theorem income_enter {e : Funding} {entry : CreditLedgerEntry} {db db' : Database}
    (h : enter e db = .ok (entry, db')) : Income db db' := by
  simp only [enter, bind_eq_ok, recordEntry_eq_ok] at h
  obtain ⟨-, -, -, h⟩ := h
  cases h
  refine ⟨rfl, ⟨[e.toEntryFields.row db.ledger.nextId], rfl, fun e' he' ↦ ?_⟩,
    [], (List.append_nil _).symm, by simp⟩
  rw [List.mem_singleton.mp he']
  exact ⟨e.notSpend, e.positive⟩

end Conjectures.Intents

import Conjectures.Lib.Run
import Conjectures.Api.Intake
import Conjectures.DepositWatcher.Settle

/-!
# The transactions that meet at a transfer

The deposit watcher turns transfers into credits and the API turns them into
submissions, and both meet in one row of `chain_transfers`.  The steps of this
system are the transactions of both services, of the accounts they attribute to
and of an operator, in any order and any number.  A transaction that takes the
row's lock before it reads the status runs as one step; the watcher's record,
settle and note are three, so a crash between them, a restart and a second watcher
are orders of steps like any other.
-/

namespace Conjectures.DepositWatcher

open Lib Db Api

/-- Where both services send and read payments. -/
structure Deployment where
  watcher : Settings
  verifier : PaymentVerifier

/-- A treasury whose credits and whose attempts cost 5 rao. -/
def exampleDeployment : Deployment where
  watcher := ⟨"treasury", 10, 5, 100, []⟩
  verifier := ⟨"treasury", 5⟩

/-- One transaction of one client. -/
inductive Step where
  /-- accounts and linked wallets become what they become -/
  | accounts (accounts : Table Account.id) (wallets : Table AccountWallet.coldkey)
  /-- an account declares a deposit -/
  | declare (id accountId : Uuid) (amountRao : Rao) (treasuryAddress : Ss58)
      (creditPriceRao : Rao) (expiresAt now : Instant)
  /-- an account attaches a transfer to its open deposit -/
  | claimDeposit (accountId : Uuid) (coldkey : Ss58) (reference : String)
  /-- open deposits whose window closed are expired -/
  | expireDeposits (now : Instant)
  /-- a watcher records an arrival -/
  | record (arrival : IncomingTransfer)
  /-- a watcher settles a recorded arrival -/
  | settle (arrival : IncomingTransfer) (recorded : Bool) (env : SettleEnv)
  /-- a watcher writes down a conflict -/
  | noteConflict (reference message : String)
  /-- a miner cites a transfer to pay for a submission -/
  | submit (request : NewSubmission) (transfer : IncomingTransfer) (id : Uuid)
  /-- an operator takes a transfer out of the queue -/
  | ignore (reference note : String)

/-- Close the window on deposits nothing ever arrived for. -/
def expireOpenDeposits (db : Database) (now : Instant) : Database :=
  { db with
    deposits := db.deposits.update
      (fun d ↦ d.status = .awaitingTransfer ∧ d.expiresAt ≤ now)
      (fun d ↦ { d with status := .expired }) fun _ ↦ rfl }

/-- The account's transaction: one declared deposit. -/
def declareDeposit (id accountId : Uuid) (amountRao : Rao) (treasuryAddress : Ss58)
    (creditPriceRao : Rao) (expiresAt now : Instant) : Txn Database DatabaseError Deposit :=
  fun db ↦ createDeposit db id accountId amountRao treasuryAddress creditPriceRao expiresAt now

/-- The watcher's first transaction: the record and nothing else. -/
def recordArrival (arrival : IncomingTransfer) : Txn Database DatabaseError RecordedTransfer :=
  fun db ↦ record db arrival

/-- The operator's transaction: the row, then `ignore`. -/
def ignoreTransfer (reference note : String) : Txn Database DatabaseError Unit := fun db ↦ do
  let transfer ← need (db.transfers.find? reference) .transferDisappeared
  let db ← ignore db transfer note
  return ((), db)

theorem ignoreTransfer_spec {reference note : String} {db db' : Database}
    (h : ignoreTransfer reference note db = .ok ((), db')) :
    ∃ transfer ∈ db.transfers.rows, ignore db transfer note = .ok db' := by
  simp only [ignoreTransfer, bind_eq_ok, need_eq_ok] at h
  obtain ⟨transfer, hfind, db₁, hignore, h⟩ := h
  cases h
  exact ⟨transfer, (Table.find?_eq_some.mp hfind).1, hignore⟩

/-- What a step leaves in the database.  A transaction that refuses leaves nothing. -/
def step (c : Deployment) (db : Database) : Step → Database
  | .accounts accounts wallets => { db with accounts, wallets }
  | .declare id accountId amountRao treasuryAddress creditPriceRao expiresAt now =>
    commit (declareDeposit id accountId amountRao treasuryAddress creditPriceRao expiresAt now)
      db
  | .claimDeposit accountId coldkey reference =>
    commit (claimDeposit accountId coldkey reference) db
  | .expireDeposits now => expireOpenDeposits db now
  | .record arrival => commit (recordArrival arrival) db
  | .settle arrival recorded env => commit (settle c.watcher arrival recorded env) db
  | .noteConflict reference message => commit (noteConflict reference message) db
  | .submit request transfer id => commit (submit c.verifier request transfer id) db
  | .ignore reference note => commit (ignoreTransfer reference note) db

end Conjectures.DepositWatcher

import Mathlib.Data.List.MinMax
import Conjectures.Db.Credits

/-!
# Observed transfers and their attribution

`conjectures_subnet/db/transfers.py`.  A transfer is recorded before it is judged,
and the row is the one place that says what the transfer was spent on: UNATTRIBUTED
until somebody decides, then CREDITED or IGNORED.

Each function is the body of a transaction, or a part of one.  Those that decide
(`credit`, `claimForSubmission`, `ignore`) are given the row they read under its
row lock, which is why transactions on one transfer run one after the other.
-/

namespace Conjectures.Db

open Lib
open scoped Instant

/-! ## The cursor -/

/-- Create the cursor of a watcher that has never run.  Nothing has been read, so
the first pass includes `startBlock` itself. -/
def openCursor (db : Database) (recipient : Ss58) (startBlock : ℕ) (now : Instant) : Database :=
  { db with
    cursor := some ⟨recipient, startBlock, (startBlock : ℤ) - 1, now⟩ }

/-- Move the high-water mark forward, never backwards. -/
def advanceCursor (db : Database) (throughBlock : ℕ) (now : Instant) :
    Except DatabaseError Database := do
  let row ← need db.cursor (.recordNotFound "no cursor for watcher 'deposits'")
  return if (throughBlock : ℤ) > row.lastScannedBlock then
    { db with
      cursor := some { row with lastScannedBlock := throughBlock, lastScannedAt := now } }
  else db

/-! ## Recording what arrived -/

/-- One `Balances.Transfer` event, as the chain reader hands it over. -/
structure IncomingTransfer where
  block : ℕ
  blockTimestamp : Instant
  extrinsicIndex : ℕ
  eventIndex : ℕ
  sender : Ss58
  recipient : Ss58
  amountRao : Rao
  deriving DecidableEq

/-- The canonical identity of a transfer, `block-extrinsic-event`. -/
def IncomingTransfer.reference (t : IncomingTransfer) : String :=
  s!"{t.block}-{t.extrinsicIndex}-{t.eventIndex}"

/-- The row of a transfer nobody has judged. -/
def IncomingTransfer.row (t : IncomingTransfer) : ChainTransfer where
  extrinsicReference := t.reference
  block := t.block
  blockTimestamp := t.blockTimestamp
  extrinsicIndex := t.extrinsicIndex
  eventIndex := t.eventIndex
  senderColdkey := t.sender
  recipient := t.recipient
  amountRao := t.amountRao
  status := .unattributed
  accountId := none
  depositId := none
  creditPriceRao := none
  creditsGranted := 0
  note := none

/-- The `CHECK` constraints of `chain_transfers` on what was observed. -/
def ChainTransfer.Valid (t : ChainTransfer) : Prop :=
  1 ≤ t.extrinsicReference.length ∧ t.extrinsicReference.length ≤ 128 ∧ 0 < t.block ∧
    0 < t.amountRao

instance ChainTransfer.decidableValid (t : ChainTransfer) : Decidable t.Valid := by
  unfold ChainTransfer.Valid; infer_instance

/-- One row after `record`, and whether this call is what created it. -/
structure RecordedTransfer where
  transfer : ChainTransfer
  created : Bool

/-- Write one observed transfer, or return the row that already holds it.  The
insert is the check. -/
def record (db : Database) (t : IncomingTransfer) :
    Except DatabaseError (RecordedTransfer × Database) := do
  require t.row.Valid (.integrityError "chain_transfers")
  match db.transfers.insert? t.row with
  | some transfers => return (⟨t.row, true⟩, { db with transfers })
  | none =>
    let existing ← need (db.transfers.find? t.reference) (.recordNotFound "transfer")
    return (⟨existing, false⟩, db)

theorem record_spec {db db' : Database} {t : IncomingTransfer} {r : RecordedTransfer}
    (h : record db t = .ok (r, db')) :
    t.row.Valid ∧ db' = { db with transfers := db.transfers.insertNew t.row } ∧
      r.transfer ∈ db'.transfers.rows ∧ r.transfer.extrinsicReference = t.reference := by
  simp only [record, bind_eq_ok, require_eq_ok] at h
  obtain ⟨-, hvalid, h⟩ := h
  refine ⟨hvalid, ?_⟩
  cases hi : db.transfers.insert? t.row with
  | some transfers =>
    simp only [hi, pure, Except.pure, Except.ok.injEq, Prod.mk.injEq] at h
    obtain ⟨rfl, rfl⟩ := h
    refine ⟨by rw [Table.insertNew, hi, Option.getD_some], ?_, rfl⟩
    simp [Table.rows_of_insert? hi]
  | none =>
    simp only [hi, bind_eq_ok, need_eq_ok, pure, Except.pure, Except.ok.injEq,
      Prod.mk.injEq] at h
    obtain ⟨existing, hfind, rfl, rfl⟩ := h
    obtain ⟨hmem, hk⟩ := Table.find?_eq_some.mp hfind
    exact ⟨by rw [Table.insertNew, hi, Option.getD_none], hmem, hk⟩

/-- Transfers that arrived and belong to nobody yet, oldest first. -/
def unattributed (db : Database) (limit afterBlock : ℕ) : List ChainTransfer :=
  ((db.transfers.rows.filter fun t ↦
    t.status = .unattributed ∧ t.block > afterBlock).mergeSort
      fun t t' ↦ t.block ≤ t'.block).take limit

/-! ## Attribution -/

/-- Which account, if any, owns a sending coldkey: the one that signed for it,
else the only one that asked to be paid there. -/
def accountForColdkey (db : Database) (coldkey : Ss58) : Option Uuid :=
  match db.wallets.find? coldkey with
  | some wallet => some wallet.accountId
  | none =>
    match db.accounts.rows.filter fun a ↦ a.payoutColdkey = some coldkey with
    | [account] => some account.id
    | _ => none

/-- An open deposit this arrival settles: same account, same address, same amount,
oldest first.  `locked` are the rows another transaction holds, which are skipped. -/
def matchingOpenDeposit (db : Database) (locked : List Uuid) (accountId : Uuid)
    (amountRao : Rao) (recipient : Ss58) : Option Deposit :=
  (db.deposits.rows.filter fun d ↦
    d.accountId = accountId ∧ d.treasuryAddress = recipient ∧ d.amountRao = amountRao ∧
      (d.status = .awaitingTransfer ∨ d.status = .seenUnfinalized) ∧
      d.creditedLedgerId = none ∧ d.id ∉ locked).argmin Deposit.createdAt

theorem matchingOpenDeposit_spec {db : Database} {locked : List Uuid} {accountId : Uuid}
    {amountRao : Rao} {recipient : Ss58} {d : Deposit}
    (h : matchingOpenDeposit db locked accountId amountRao recipient = some d) :
    d ∈ db.deposits.rows ∧ d.accountId = accountId ∧ d.amountRao = amountRao ∧
      d.creditedLedgerId = none := by
  have hmem := List.argmin_mem (Option.mem_def.mpr h)
  simp only [List.mem_filter, decide_eq_true_eq] at hmem
  exact ⟨hmem.1, hmem.2.1, hmem.2.2.2.1, hmem.2.2.2.2.2.1⟩

/-- What the watcher passes to `credit` besides the transfer and the account. -/
structure CreditTerms where
  creditPriceRao : Rao
  depositExpiresAt : Instant
  createdBy : String
  bonusSchedule : BonusSchedule
  /-- the id a created deposit is given, and the clock it is stamped with -/
  depositId : Uuid
  now : Instant
  /-- deposit rows held by another transaction -/
  locked : List Uuid

/-- The row of a transfer once it has been credited. -/
def ChainTransfer.creditedTo (t : ChainTransfer) (accountId depositId : Uuid)
    (creditPriceRao : Rao) : ChainTransfer :=
  { t with
    status := .credited
    accountId := some accountId
    depositId := some depositId
    creditPriceRao := some creditPriceRao
    creditsGranted := t.amountRao / creditPriceRao
    note := none }

/-- The deposit row an arrival is credited through: the open one it matches, or one
created for it. -/
def depositFor (db : Database) (transfer : ChainTransfer) (accountId : Uuid)
    (terms : CreditTerms) : Except DatabaseError (Deposit × Database) :=
  match matchingOpenDeposit db terms.locked accountId transfer.amountRao transfer.recipient with
  | some deposit => .ok (deposit, db)
  | none =>
    createDeposit db terms.depositId accountId transfer.amountRao transfer.recipient
      terms.creditPriceRao terms.depositExpiresAt terms.now

/-- The deposit was there and open, or is new; either way it has been credited with
nothing. -/
structure DepositFound (db : Database) (deposit : Deposit) (db' : Database) : Prop where
  rows : (db' = db ∧ deposit ∈ db.deposits.rows) ∨
    (db.deposits.insert? deposit = some db'.deposits ∧ deposit.extrinsicReference = none ∧
      db' = { db with deposits := db'.deposits })
  uncredited : deposit.creditedLedgerId = none

theorem depositFor_spec {db db' : Database} {transfer : ChainTransfer} {accountId : Uuid}
    {terms : CreditTerms} {deposit : Deposit}
    (h : depositFor db transfer accountId terms = .ok (deposit, db')) :
    DepositFound db deposit db' ∧ deposit.accountId = accountId ∧
      deposit.amountRao = transfer.amountRao := by
  unfold depositFor at h
  split at h
  · rename_i d hm
    cases h
    obtain ⟨hmem, haccount, hamount, hopen⟩ := matchingOpenDeposit_spec hm
    exact ⟨⟨Or.inl ⟨rfl, hmem⟩, hopen⟩, haccount, hamount⟩
  · obtain ⟨haccount, hamount, -, -, href, hopen, hins, hrest⟩ := createDeposit_spec h
    exact ⟨⟨Or.inr ⟨hins, href, hrest⟩, hopen⟩, haccount, hamount⟩

/-- Attribute one observed transfer to an account and credit the amount that
arrived. -/
def credit (db : Database) (transfer : ChainTransfer) (accountId : Uuid) (terms : CreditTerms) :
    Except DatabaseError (CreditLedgerEntry × Database) := do
  require (transfer.status ≠ .credited)
    (.transferAlreadyCredited "that transfer has already been credited"
      transfer.extrinsicReference)
  lockAccount db accountId
  let (deposit, db) ← depositFor db transfer accountId terms
  let (entry, db) ← creditDeposit db deposit transfer.extrinsicReference transfer.senderColdkey
    transfer.amountRao transfer.block terms.bonusSchedule terms.createdBy
  return (entry, { db with
    transfers := db.transfers.modify transfer.extrinsicReference
      (fun t ↦ t.creditedTo accountId deposit.id terms.creditPriceRao) fun _ ↦ rfl })

/-- What `credit` does when it goes through: some deposit of the account, found or
created, is credited with the transfer. -/
theorem credit_spec {db db' : Database} {transfer : ChainTransfer} {accountId : Uuid}
    {terms : CreditTerms} {entry : CreditLedgerEntry}
    (h : credit db transfer accountId terms = .ok (entry, db')) :
    transfer.status ≠ .credited ∧ ∃ deposit db₁ db₂,
      DepositFound db deposit db₁ ∧ deposit.accountId = accountId ∧
      deposit.amountRao = transfer.amountRao ∧
      DepositCredited db₁ deposit transfer.extrinsicReference transfer.senderColdkey
        transfer.amountRao transfer.block terms.bonusSchedule entry db₂ ∧
      db' = { db₂ with
        transfers := db₂.transfers.modify transfer.extrinsicReference
          (fun t ↦ t.creditedTo accountId deposit.id terms.creditPriceRao) fun _ ↦ rfl } := by
  simp only [credit, bind_eq_ok, require_eq_ok] at h
  obtain ⟨-, huncredited, -, -, ⟨deposit, db₁⟩, hdeposit, ⟨entry₁, db₂⟩, hcredit, h⟩ := h
  cases h
  obtain ⟨hfound, haccount, hamount⟩ := depositFor_spec hdeposit
  exact ⟨huncredited, deposit, db₁, db₂, hfound, haccount, hamount, creditDeposit_spec hcredit,
    rfl⟩

/-- `note[:500]`. -/
def truncateNote (note : String) : String := String.ofList (note.toList.take 500)

/-- A transfer row with a note, and another status if one is given. -/
def ChainTransfer.noted (t : ChainTransfer) (status : Option ChainTransferState)
    (note : String) : ChainTransfer :=
  { t with status := status.getD t.status, note := some (truncateNote note) }

/-- Set a transfer's note, and its status when one is given.  The schema wants the
note of 1 to 500 characters. -/
def noteTransfer (db : Database) (reference : String) (status : Option ChainTransferState)
    (note : String) : Except DatabaseError Database := do
  require (1 ≤ (truncateNote note).length) (.integrityError "transfer_note_length")
  return { db with
    transfers := db.transfers.modify reference (·.noted status note) fun _ ↦ rfl }

theorem noteTransfer_spec {db db' : Database} {reference : String}
    {status : Option ChainTransferState} {note : String}
    (h : noteTransfer db reference status note = .ok db') :
    db' = { db with
      transfers := db.transfers.modify reference (·.noted status note) fun _ ↦ rfl } := by
  simp only [noteTransfer, bind_eq_ok] at h
  obtain ⟨-, -, h⟩ := h
  cases h
  rfl

/-- Spend one transfer on a directly funded submission, so that it cannot also buy
credits.  The row is read under its lock, after the insert. -/
def claimForSubmission (db : Database) (t : IncomingTransfer) (note : String) :
    Except DatabaseError Database := do
  let (recorded, db) ← record db t
  let locked := recorded.transfer
  require (locked.status ≠ .credited)
    (.transferAlreadyCredited ("that transfer has already been credited to an account as "
      ++ "credits; spend a credit instead of citing the transfer") t.reference)
  require (locked.status ≠ .ignored) (.transferAlreadyClaimed t.reference)
  noteTransfer db t.reference (some .ignored) note

/-- `claimForSubmission` goes through on a row nobody had judged, and leaves it
IGNORED. -/
theorem claimForSubmission_spec {db db' : Database} {t : IncomingTransfer} {note : String}
    (h : claimForSubmission db t note = .ok db') :
    ∃ row ∈ (db.transfers.insertNew t.row).rows, row.extrinsicReference = t.reference ∧
      row.status = .unattributed ∧
      db' = { db with
        transfers := (db.transfers.insertNew t.row).modify t.reference
          (·.noted (some .ignored) note) fun _ ↦ rfl } := by
  simp only [claimForSubmission, bind_eq_ok, require_eq_ok] at h
  obtain ⟨⟨recorded, db₁⟩, hrecord, -, hcredited, -, hignored, hnote⟩ := h
  obtain ⟨-, hdb, hmem, hkey⟩ := record_spec hrecord
  rw [hdb] at hmem
  refine ⟨recorded.transfer, hmem, hkey, ?_, by rw [noteTransfer_spec hnote, hdb]⟩
  cases hs : recorded.transfer.status with
  | unattributed => rfl
  | credited => exact absurd hs hcredited
  | ignored => exact absurd hs hignored

/-- Record why an arrival could not be matched.  The status does not change. -/
def leaveUnattributed (db : Database) (transfer : ChainTransfer) (note : String) :
    Except DatabaseError Database :=
  noteTransfer db transfer.extrinsicReference none note

/-- Take an arrival out of the queue without crediting it, on the record. -/
def ignore (db : Database) (transfer : ChainTransfer) (note : String) :
    Except DatabaseError Database := do
  require (transfer.status ≠ .credited)
    (.transferAlreadyCredited
      "a credited transfer cannot be ignored; correct it with an ADJUSTMENT entry"
      transfer.extrinsicReference)
  noteTransfer db transfer.extrinsicReference (some .ignored) note

theorem ignore_spec {db db' : Database} {transfer : ChainTransfer} {note : String}
    (h : ignore db transfer note = .ok db') :
    transfer.status ≠ .credited ∧
      db' = { db with
        transfers := db.transfers.modify transfer.extrinsicReference
          (·.noted (some .ignored) note) fun _ ↦ rfl } := by
  simp only [ignore, bind_eq_ok, require_eq_ok] at h
  obtain ⟨-, huncredited, h⟩ := h
  exact ⟨huncredited, noteTransfer_spec h⟩

end Conjectures.Db

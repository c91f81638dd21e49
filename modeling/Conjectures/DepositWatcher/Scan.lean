import Conjectures.Chain.Transfers
import Conjectures.DepositWatcher.Steps

/-!
# Scan passes over a finalized chain

`scan_once`, `_scan_block` and `_admit` of `deposit_watcher/watcher.py`, cut at
every point where the process can stop: each transaction and each chain read is one
action, and between any two of them the process may crash and start again.  Any
number of watchers run over one database, next to the other clients.

The chain's answers are the actions' to choose: a read may fail, and the reported
head may be anything from one pass to the next.  What a read that succeeds returns
is the chain's.
-/

namespace Conjectures.DepositWatcher

open Lib Db Api Chain

/-! ## The process -/

/-- Where one watcher is in a pass. -/
inductive Pc where
  /-- between passes, or started again after a crash -/
  | idle
  /-- the cursor was read; the chain has not said what its head is -/
  | awaitingHead (scanned : ℤ)
  /-- about to read block `number` of a pass that ends at `last` -/
  | scanning (number last : ℕ)
  /-- the arrivals of block `number` still to be admitted -/
  | admitting (number last : ℕ) (rest : List IncomingTransfer)
  /-- the arrival was recorded; settling it is the next transaction -/
  | settling (number last : ℕ) (arrival : IncomingTransfer) (recorded : Bool)
      (rest : List IncomingTransfer)
  /-- settling ended in a conflict; writing that down is the next transaction -/
  | noting (number last : ℕ) (arrival : IncomingTransfer) (message : String)
      (rest : List IncomingTransfer)

/-- The database and every watcher's place. -/
structure Watch where
  db : Database
  pc : ℕ → Pc

/-- The watcher `w` is at `p`. -/
def Watch.at (s : Watch) (w : ℕ) (p : Pc) : Watch := { s with pc := Function.update s.pc w p }

/-- What the watcher `w` does next, with what the world contributes to it. -/
inductive Move where
  /-- open the cursor of a watcher that has never run -/
  | openCursor (startBlock : ℕ) (now : Instant)
  /-- start a pass: read the cursor -/
  | start
  /-- the chain reports its finalized head, or fails to -/
  | head (reported : Option ℕ)
  /-- the chain answers for the block, or fails to -/
  | read (answered : Bool)
  | record
  | settle (env : SettleEnv)
  | note
  /-- every arrival of the block was admitted: advance the cursor -/
  | advance (now : Instant)
  | crash

/-- Create the cursor if there is none; the row's key refuses a second one. -/
def resolveCursor (settings : Settings) (startBlock : ℕ) (now : Instant) (db : Database) :
    Database :=
  match db.cursor with
  | none => openCursor db settings.recipient startBlock now
  | some _ => db

/-- The blocks a pass covers: from the one after the cursor to the head, a batch at
most. -/
def batchEnd (settings : Settings) (first head : ℕ) : ℕ :=
  min head (first + settings.batchBlocks - 1)

/-- One move of the watcher `w`.  A move that does not fit where the watcher is does
nothing. -/
def move (settings : Settings) (chain : FinalizedChain) (s : Watch) (w : ℕ) : Move → Watch
  | .crash => s.at w .idle
  | .openCursor startBlock now =>
    { s with db := resolveCursor settings startBlock now s.db }
  | .start =>
    match s.pc w, s.db.cursor with
    | .idle, some cursor => s.at w (.awaitingHead cursor.lastScannedBlock)
    | _, _ => s
  | .head reported =>
    match s.pc w, reported with
    -- a failed read ends the pass
    | .awaitingHead _, none => s.at w .idle
    | .awaitingHead scanned, some head =>
      let first := (scanned + 1).toNat
      if first > head then s.at w .idle
      else s.at w (.scanning first (batchEnd settings first head))
    | _, _ => s
  | .read answered =>
    match s.pc w with
    | .scanning number last =>
      if number > last then s.at w .idle
      else if answered then
        s.at w (.admitting number last (chain.transfersTo settings.recipient number))
      -- the cursor stays where it is and the block is read again on the next pass
      else s.at w .idle
    | _ => s
  | .record =>
    match s.pc w with
    | .admitting number last (arrival :: rest) =>
      match recordArrival arrival s.db with
      | .ok (r, db) =>
        let s := { s with db }
        -- already decided on an earlier pass, the normal case for a re-read
        if r.transfer.status ≠ .unattributed then s.at w (.admitting number last rest)
        else s.at w (.settling number last arrival r.created rest)
      | .error _ => s.at w .idle
    | _ => s
  | .settle env =>
    match s.pc w with
    | .settling number last arrival recorded rest =>
      match settle settings arrival recorded env s.db with
      | .ok (_, db) => { s with db }.at w (.admitting number last rest)
      | .error e =>
        if e.IsRecordConflict then s.at w (.noting number last arrival e.message rest)
        else s.at w .idle
    | _ => s
  | .note =>
    match s.pc w with
    | .noting number last arrival message rest =>
      match noteConflict arrival.reference message s.db with
      | .ok (_, db) => { s with db }.at w (.admitting number last rest)
      | .error _ => s.at w .idle
    | _ => s
  | .advance now =>
    match s.pc w with
    | .admitting number last [] =>
      match advanceCursor s.db number now with
      | .ok db => { s with db }.at w (.scanning (number + 1) last)
      | .error _ => s.at w .idle
    | _ => s

/-! ## The system -/

/-- A move of one watcher, or a transaction of another client. -/
inductive Action where
  | watcher (w : ℕ) (m : Move)
  /-- a miner cites the transfer the chain has at this place of this block -/
  | submit (request : NewSubmission) (block index : ℕ) (id : Uuid)
  /-- a transaction that records no transfer -/
  | client (a : Step)

/-- The transfers a transaction may record. -/
def Step.brings : Step → Option IncomingTransfer
  | .record arrival => some arrival
  | .submit _ transfer _ => some transfer
  | _ => none

/-- One action of the system.  A citation is resolved against the chain first, and one
that resolves to nothing is refused. -/
def watchStep (c : Deployment) (chain : FinalizedChain) (s : Watch) : Action → Watch
  | .watcher w m => move c.watcher chain s w m
  | .submit request block index id =>
    match (chain.transfersIn block)[index]? with
    | some transfer => { s with db := step c s.db (.submit request transfer id) }
    | none => s
  | .client a => if a.brings = none then { s with db := step c s.db a } else s

/-- A deployment nobody has started. -/
def Watch.initial : Watch := ⟨Database.empty, fun _ ↦ .idle⟩

end Conjectures.DepositWatcher

import Conjectures.Db.Transfers

/-!
# What the deposit watcher does with one arrival

`_admit` and `_settle` of `deposit_watcher/watcher.py`.  An arrival is recorded in a
transaction of its own, so that whatever settling it comes to, the row survives.
Settling is a second transaction, which takes the row under its lock and reads its
status again.  If that one ends in a conflict, a third writes the reason down.
-/

namespace Conjectures.DepositWatcher

open Lib Db

def ledgerActor : String := "deposit-watcher"

def unknownSender : String :=
  "no account owns this sending coldkey: it is not a linked wallet and not a unique payout "
    ++ "coldkey. Attribute it by hand, or have the sender claim it."

def selfTransfer : String :=
  "the sender is the watched address itself; this is not an incoming payment"

def conflictNote : String := "settlement conflicted with existing state:"

/-- The watcher's configuration, as far as a scan reads it. -/
structure Settings where
  recipient : Ss58
  batchBlocks : ℕ
  creditPriceRao : Rao
  adoptedDepositWindow : ℤ
  bonusSchedule : BonusSchedule

/-- What became of one arrival, once its transaction committed. -/
structure Admitted where
  /-- this pass created the row, rather than re-reading it -/
  recorded : Bool
  credited : Bool := false
  creditsGranted : ℤ := 0
  unattributed : Bool := false
  ignored : Bool := false
  conflict : Option String := none
  deriving DecidableEq

/-- What a settlement takes from outside: the id a created deposit gets, the clock,
and the deposit rows other transactions hold. -/
structure SettleEnv where
  depositId : Uuid
  now : Instant
  locked : List Uuid
  deriving DecidableEq

/-- What `_settle` passes on to `credit`. -/
def Settings.terms (settings : Settings) (env : SettleEnv) : CreditTerms where
  creditPriceRao := settings.creditPriceRao
  depositExpiresAt := env.now + settings.adoptedDepositWindow
  createdBy := ledgerActor
  bonusSchedule := settings.bonusSchedule
  depositId := env.depositId
  now := env.now
  locked := env.locked

/-- Decide what one already recorded arrival is worth. -/
def settle (settings : Settings) (arrival : IncomingTransfer) (recorded : Bool)
    (env : SettleEnv) : Txn Database DatabaseError Admitted := fun db ↦ do
  let transfer ← need (db.transfers.find? arrival.reference) .transferDisappeared
  -- settled while we waited for the lock: it is spent, and not by us
  if transfer.status ≠ .unattributed then
    return ({ recorded }, db)
  else if arrival.sender = arrival.recipient then
    let db ← ignore db transfer selfTransfer
    return ({ recorded, ignored := true }, db)
  else match accountForColdkey db arrival.sender with
    | none =>
      let db ← leaveUnattributed db transfer unknownSender
      return ({ recorded, unattributed := true }, db)
    | some accountId =>
      let (_, db) ← credit db transfer accountId (settings.terms env)
      return ({ recorded, credited := true
                creditsGranted := transfer.amountRao / settings.creditPriceRao }, db)

/-- The four ways a settlement goes through. -/
theorem settle_spec {settings : Settings} {arrival : IncomingTransfer} {recorded : Bool}
    {env : SettleEnv} {db db' : Database} {admitted : Admitted}
    (h : settle settings arrival recorded env db = .ok (admitted, db')) :
    ∃ transfer ∈ db.transfers.rows, transfer.extrinsicReference = arrival.reference ∧
      ((transfer.status ≠ .unattributed ∧ db' = db) ∨
        (transfer.status = .unattributed ∧
          (ignore db transfer selfTransfer = .ok db' ∨
            leaveUnattributed db transfer unknownSender = .ok db' ∨
            ∃ accountId entry,
              credit db transfer accountId (settings.terms env) = .ok (entry, db')))) := by
  obtain ⟨transfer, hfind, h⟩ := bind_eq_ok.mp h
  obtain ⟨hmem, hkey⟩ := Table.find?_eq_some.mp (need_eq_ok.mp hfind)
  refine ⟨transfer, hmem, hkey, ?_⟩
  by_cases hstatus : transfer.status = .unattributed
  · simp only [hstatus, ne_eq, not_true_eq_false, if_false] at h
    refine Or.inr ⟨hstatus, ?_⟩
    split at h
    · obtain ⟨db₁, hignore, h⟩ := bind_eq_ok.mp h
      cases h
      exact Or.inl hignore
    · split at h
      · obtain ⟨db₁, hleave, h⟩ := bind_eq_ok.mp h
        cases h
        exact Or.inr (Or.inl hleave)
      · rename_i accountId _
        obtain ⟨⟨entry, db₁⟩, hcredit, h⟩ := bind_eq_ok.mp h
        cases h
        exact Or.inr (Or.inr ⟨accountId, entry, hcredit⟩)
  · simp only [ne_eq, hstatus, not_false_eq_true, if_true, pure, Except.pure, Except.ok.injEq,
      Prod.mk.injEq] at h
    exact Or.inl ⟨hstatus, h.2.symm⟩

/-- The transaction that writes down why a settlement conflicted. -/
def noteConflict (reference : String) (message : String) : Txn Database DatabaseError Unit :=
  fun db ↦
    match db.transfers.find? reference with
    | some transfer => do
      let db ← leaveUnattributed db transfer s!"{conflictNote} {message}"
      return ((), db)
    | none => .ok ((), db)

theorem noteConflict_spec {reference message : String} {db db' : Database}
    (h : noteConflict reference message db = .ok ((), db')) :
    db' = db ∨ ∃ transfer ∈ db.transfers.rows,
      leaveUnattributed db transfer s!"{conflictNote} {message}" = .ok db' := by
  unfold noteConflict at h
  split at h
  · rename_i transfer hfind
    obtain ⟨db₁, hleave, h⟩ := bind_eq_ok.mp h
    cases h
    exact Or.inr ⟨transfer, (Table.find?_eq_some.mp hfind).1, hleave⟩
  · cases h
    exact Or.inl rfl

end Conjectures.DepositWatcher

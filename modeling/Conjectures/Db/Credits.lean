import Conjectures.Lib.Transaction
import Conjectures.Db.Errors

/-!
# The credit ledger and the deposits that fund it

`conjectures_subnet/db/credits.py`.  The ledger is append-only and a balance is a
sum over it; what an open intent holds is a claim on that balance, not an entry.

Prices are positive wherever they are stored, so Lean's integer division is the
source's floor division.
-/

namespace Conjectures.Db

open Lib

/-! ## Balances -/

/-- `LIVE_INTENT_STATES`: the intent still claims part of the balance. -/
def IntentState.Live (s : IntentState) : Prop := s = .opened ∨ s = .bundleAttached

instance IntentState.decidableLive (s : IntentState) : Decidable s.Live := inferInstanceAs (Decidable (_ ∨ _))

structure CreditBalance where
  balanceRao : Rao
  heldRao : Rao
  creditsAvailable : ℤ
  remainderRao : Rao
  creditPriceRao : Rao
  lowBalance : Bool
  deriving DecidableEq

/-- The transaction goes on only for an account that exists; the row lock is what
makes the transactions of one account run one after the other. -/
def lockAccount (db : Database) (accountId : Uuid) : Except DatabaseError Unit :=
  require ((db.accounts.find? accountId).isSome) (.recordNotFound "account not found")

/-- The ledger total. -/
def balanceRao (db : Database) (accountId : Uuid) : Rao :=
  db.ledger.sumBy fun e ↦ if e.accountId = accountId then e.amountRao else 0

/-- What an intent claims: the price of the credits it holds. -/
def SubmissionIntent.heldRao (i : SubmissionIntent) : Rao := i.creditsHeld * i.creditPriceRao

/-- What live intents have claimed.  An expired one is left out by its timestamp,
whether or not the sweeper has changed its status. -/
def heldRao (db : Database) (accountId : Uuid) (now : Instant) : Rao :=
  db.intents.sumBy fun i ↦
    if i.accountId = accountId ∧ i.status.Live ∧ now < i.expiresAt then i.heldRao else 0

def creditBalance (db : Database) (accountId : Uuid) (creditPriceRao : Rao) (now : Instant)
    (lowBalanceCredits : ℤ) : CreditBalance :=
  let total := balanceRao db accountId
  let held := heldRao db accountId now
  let available := total - held
  let creditsAvailable := if available ≤ 0 then 0 else available / creditPriceRao
  let remainder := if available ≤ 0 then 0 else available % creditPriceRao
  { balanceRao := total
    heldRao := held
    creditsAvailable := creditsAvailable
    remainderRao := remainder
    creditPriceRao := creditPriceRao
    lowBalance := creditsAvailable ≤ lowBalanceCredits }

/-! ## Bonuses -/

/-- Credits granted on top of a purchase, by how many it paid for.  No schedule
and the empty one grant the same: nothing. -/
abbrev BonusSchedule := List (ℤ × ℕ)

def bonusRaoForCredits (paidCredits : ℤ) (creditPriceRao : Rao) (schedule : BonusSchedule) :
    Rao := (schedule.lookup paidCredits).getD 0 * creditPriceRao

/-- The bonus of a payment known only as an amount: it must land on a package
exactly. -/
def packageBonusRao (paidRao creditPriceRao : Rao) (schedule : BonusSchedule) : Rao :=
  if paidRao % creditPriceRao = 0 then
    bonusRaoForCredits (paidRao / creditPriceRao) creditPriceRao schedule
  else 0

def bonusReason (paidCredits : ℤ) (bonusRao creditPriceRao : Rao) : String :=
  s!"package bonus: {bonusRao / creditPriceRao} credit(s) granted with a "
    ++ s!"{paidCredits}-credit purchase"

/-! ## Appending to the ledger -/

/-- The `CHECK` constraints of `credit_ledger`. -/
def CreditLedgerEntry.Valid (e : CreditLedgerEntry) : Prop :=
  e.amountRao ≠ 0
    ∧ (∀ p ∈ e.creditPriceRao, 0 < p)
    ∧ (e.kind = .deposit ∨ e.kind = .refund ∨ e.kind = .bonus ∨ e.kind = .grant →
        0 < e.amountRao)
    ∧ (e.kind = .spend → e.amountRao < 0)
    ∧ (e.kind = .adjustment → e.reason.isSome)
    ∧ (e.kind = .spend → e.intentId.isSome ∧ e.creditPriceRao.isSome)
    ∧ (e.kind = .deposit → e.depositId.isSome ≠ e.tmcPayOrderId.isSome)
    ∧ (e.kind = .grant → e.invitationRedemptionId.isSome ∧ e.creditPriceRao.isSome)
    ∧ (e.invitationRedemptionId.isSome → e.kind = .grant)

instance CreditLedgerEntry.decidableValid (e : CreditLedgerEntry) : Decidable e.Valid := by
  unfold CreditLedgerEntry.Valid; infer_instance

/-- `credit_ledger_spend_idx`: one SPEND per intent. -/
def CreditLedgerEntry.spendIdx (e : CreditLedgerEntry) : Option Uuid :=
  if e.kind = .spend then e.intentId else none

/-- The ledger takes the entry: its checks pass and no unique index refuses it. -/
def LedgerAccepts (ledger : Table CreditLedgerEntry.id) (e : CreditLedgerEntry) : Prop :=
  e.Valid
    ∧ ¬ Taken CreditLedgerEntry.spendIdx ledger.rows e
    ∧ ¬ Taken CreditLedgerEntry.tmcPayOrderId ledger.rows e
    ∧ ¬ Taken CreditLedgerEntry.invitationRedemptionId ledger.rows e

instance LedgerAccepts.decidable (ledger : Table CreditLedgerEntry.id)
    (e : CreditLedgerEntry) : Decidable (LedgerAccepts ledger e) := by
  unfold LedgerAccepts; infer_instance

/-- The arguments of `recordEntry`; the entry's number is the ledger's. -/
structure EntryFields where
  accountId : Uuid
  kind : CreditEntryKind
  amountRao : Rao
  creditPriceRao : Option Rao := none
  depositId : Option Uuid := none
  intentId : Option Uuid := none
  tmcPayOrderId : Option Uuid := none
  invitationRedemptionId : Option Uuid := none
  reason : Option String := none
  createdBy : String := "system"

def EntryFields.row (e : EntryFields) (id : ℕ) : CreditLedgerEntry where
  id := id
  accountId := e.accountId
  kind := e.kind
  amountRao := e.amountRao
  creditPriceRao := e.creditPriceRao
  depositId := e.depositId
  intentId := e.intentId
  tmcPayOrderId := e.tmcPayOrderId
  invitationRedemptionId := e.invitationRedemptionId
  reason := e.reason
  createdBy := e.createdBy

@[simp] theorem EntryFields.row_id (e : EntryFields) (n : ℕ) : (e.row n).id = n := rfl

/-- Append one entry.  Whatever refuses the insert is reported as a duplicate. -/
def recordEntry (db : Database) (e : EntryFields) :
    Except DatabaseError (CreditLedgerEntry × Database) := do
  let entry := e.row db.ledger.nextId
  require (LedgerAccepts db.ledger entry) .duplicateLedgerEntry
  return (entry, { db with ledger := db.ledger.append e.row e.row_id })

theorem recordEntry_eq_ok {db : Database} {e : EntryFields} {r : CreditLedgerEntry × Database} :
    recordEntry db e = .ok r ↔
      LedgerAccepts db.ledger (e.row db.ledger.nextId) ∧
      r = (e.row db.ledger.nextId,
        { db with ledger := db.ledger.append e.row e.row_id }) := by
  simp only [recordEntry, bind_eq_ok, require_eq_ok, pure, Except.pure, Except.ok.injEq]
  constructor
  · rintro ⟨-, h, rfl⟩
    exact ⟨h, rfl⟩
  · rintro ⟨h, rfl⟩
    exact ⟨(), h, rfl⟩

/-- A bonus, if the purchase earned one, as a second entry of the same
transaction.  It names no source row. -/
def recordBonus (db : Database) (accountId : Uuid) (paidCredits : ℤ)
    (bonusRao creditPriceRao : Rao) (createdBy : String) : Except DatabaseError Database :=
  if bonusRao = 0 then .ok db
  else do
    let (_, db) ← recordEntry db
      { accountId, kind := .bonus, amountRao := bonusRao
        reason := some (bonusReason paidCredits bonusRao creditPriceRao), createdBy }
    return db

/-- What a bonus adds to the ledger: nothing, or one BONUS entry without a
source. -/
def BonusEntries (bonus : List CreditLedgerEntry) (accountId : Uuid) (bonusRao : Rao) : Prop :=
  (bonus = [] ∧ bonusRao = 0) ∨
    ∃ b : CreditLedgerEntry, bonus = [b] ∧ b.kind = .bonus ∧ b.accountId = accountId ∧
      b.amountRao = bonusRao ∧ 0 < b.amountRao ∧ b.depositId = none ∧ b.intentId = none ∧
      b.tmcPayOrderId = none ∧ b.invitationRedemptionId = none

theorem recordBonus_spec {db db' : Database} {accountId : Uuid} {paidCredits : ℤ}
    {bonusRao creditPriceRao : Rao} {createdBy : String}
    (h : recordBonus db accountId paidCredits bonusRao creditPriceRao createdBy = .ok db') :
    ∃ bonus, BonusEntries bonus accountId bonusRao ∧
      db'.ledger.rows = db.ledger.rows ++ bonus ∧ db' = { db with ledger := db'.ledger } := by
  unfold recordBonus at h
  split at h
  · rename_i hzero
    cases h
    exact ⟨[], Or.inl ⟨rfl, hzero⟩, (List.append_nil _).symm, rfl⟩
  · obtain ⟨⟨b, db₁⟩, hb, h⟩ := bind_eq_ok.mp h
    obtain ⟨hacc, hr⟩ := recordEntry_eq_ok.mp hb
    obtain ⟨rfl, rfl⟩ := Prod.mk.inj hr
    cases h
    have hpos : 0 < bonusRao := hacc.1.2.2.1 (Or.inr (Or.inr (Or.inl rfl)))
    exact ⟨[_], Or.inr ⟨_, rfl, rfl, rfl, rfl, hpos, rfl, rfl, rfl, rfl⟩, rfl, rfl⟩

/-! ## Deposits -/

/-- Record what the account says it will send, and where. -/
def createDeposit (db : Database) (id accountId : Uuid) (amountRao : Rao)
    (treasuryAddress : Ss58) (creditPriceRao : Rao) (expiresAt createdAt : Instant) :
    Except DatabaseError (Deposit × Database) := do
  let deposit : Deposit :=
    { id, accountId, amountRao, treasuryAddress, creditPriceRao, expiresAt, createdAt
      status := .awaitingTransfer
      extrinsicReference := none, senderColdkey := none, observedAmountRao := none
      block := none, creditedLedgerId := none }
  require (0 < amountRao) (.integrityError "deposit_amount_positive")
  require (0 < creditPriceRao) (.integrityError "deposit_price_positive")
  let deposits ← need (db.deposits.insert? deposit) (.integrityError "deposits_pkey")
  return (deposit, { db with deposits })

theorem createDeposit_spec {db db' : Database} {id accountId : Uuid} {amountRao : Rao}
    {treasuryAddress : Ss58} {creditPriceRao : Rao} {expiresAt createdAt : Instant}
    {deposit : Deposit}
    (h : createDeposit db id accountId amountRao treasuryAddress creditPriceRao expiresAt
      createdAt = .ok (deposit, db')) :
    deposit.accountId = accountId ∧ deposit.amountRao = amountRao ∧
      deposit.treasuryAddress = treasuryAddress ∧ deposit.status = .awaitingTransfer ∧
      deposit.extrinsicReference = none ∧ deposit.creditedLedgerId = none ∧
      db.deposits.insert? deposit = some db'.deposits ∧
      db' = { db with deposits := db'.deposits } := by
  simp only [createDeposit, bind_eq_ok, require_eq_ok, need_eq_ok] at h
  obtain ⟨-, -, -, -, deposits, hins, h⟩ := h
  cases h
  exact ⟨rfl, rfl, rfl, rfl, rfl, rfl, hins, rfl⟩

/-- Another deposit holds this extrinsic reference. -/
def Deposit.ReferenceTaken (db : Database) (deposit : Deposit) (reference : String) : Prop :=
  ∃ d ∈ db.deposits.rows, d.id ≠ deposit.id ∧ d.extrinsicReference = some reference

instance Deposit.decidableReferenceTaken (db : Database) (deposit : Deposit)
    (reference : String) :
    Decidable (deposit.ReferenceTaken db reference) :=
  inferInstanceAs (Decidable (∃ d ∈ _, _))

/-- The row of a deposit whose transfer is visible but not yet final. -/
def Deposit.seen (d : Deposit) (reference : String) (senderColdkey : Option Ss58) : Deposit :=
  { d with
    status := .seenUnfinalized
    extrinsicReference := some reference
    senderColdkey := senderColdkey <|> d.senderColdkey }

/-- Record that a transfer is visible but not yet final.  No credits are issued. -/
def markSeen (db : Database) (deposit : Deposit) (reference : String)
    (senderColdkey : Option Ss58) : Except DatabaseError Database := do
  require (¬ deposit.ReferenceTaken db reference) (.duplicateDeposit reference)
  return { db with
    deposits := db.deposits.modify deposit.id (·.seen reference senderColdkey) fun _ ↦ rfl }

theorem markSeen_spec {db db' : Database} {deposit : Deposit} {reference : String}
    {senderColdkey : Option Ss58} (h : markSeen db deposit reference senderColdkey = .ok db') :
    ¬ deposit.ReferenceTaken db reference ∧
      db' = { db with
        deposits := db.deposits.modify deposit.id (·.seen reference senderColdkey)
          fun _ ↦ rfl } := by
  simp only [markSeen, bind_eq_ok, require_eq_ok] at h
  obtain ⟨-, hfree, h⟩ := h
  cases h
  exact ⟨hfree, rfl⟩

/-- The row of a deposit once its transfer has been credited. -/
def Deposit.creditedBy (d : Deposit) (reference : String) (senderColdkey : Ss58)
    (observedAmountRao : Rao) (block ledgerId : ℕ) : Deposit :=
  { d with
    status := .credited
    extrinsicReference := some reference
    senderColdkey := some senderColdkey
    observedAmountRao := some observedAmountRao
    block := some block
    creditedLedgerId := some ledgerId }

/-- Issue credits for a finalized transfer, once.  The amount credited is the
amount observed on chain. -/
def creditDeposit (db : Database) (deposit : Deposit) (reference : String)
    (senderColdkey : Ss58) (observedAmountRao : Rao) (block : ℕ) (schedule : BonusSchedule)
    (createdBy : String) : Except DatabaseError (CreditLedgerEntry × Database) := do
  require (deposit.status ≠ .credited) (.depositAlreadyCredited deposit.id)
  let (entry, db) ← recordEntry db
    { accountId := deposit.accountId, kind := .deposit, amountRao := observedAmountRao
      depositId := some deposit.id, createdBy }
  let db ← recordBonus db deposit.accountId (observedAmountRao / deposit.creditPriceRao)
    (packageBonusRao observedAmountRao deposit.creditPriceRao schedule)
    deposit.creditPriceRao createdBy
  require (¬ deposit.ReferenceTaken db reference ∧ 0 < block) (.duplicateDeposit reference)
  return (entry, { db with
    deposits := db.deposits.modify deposit.id
      (fun d ↦ d.creditedBy reference senderColdkey observedAmountRao block entry.id)
      fun _ ↦ rfl })

/-- What `creditDeposit` does when it goes through. -/
structure DepositCredited (db : Database) (deposit : Deposit) (reference : String)
    (senderColdkey : Ss58) (observedAmountRao : Rao) (block : ℕ) (schedule : BonusSchedule)
    (entry : CreditLedgerEntry) (db' : Database) : Prop where
  fresh : deposit.status ≠ .credited
  unclaimed : ¬ deposit.ReferenceTaken db reference
  accepted : LedgerAccepts db.ledger entry
  number : entry.id = db.ledger.nextId
  account : entry.accountId = deposit.accountId
  kind : entry.kind = .deposit
  amount : entry.amountRao = observedAmountRao
  names : entry.depositId = some deposit.id
  intent : entry.intentId = none
  order : entry.tmcPayOrderId = none
  ledger : ∃ bonus, BonusEntries bonus deposit.accountId
      (packageBonusRao observedAmountRao deposit.creditPriceRao schedule) ∧
    db'.ledger.rows = db.ledger.rows ++ entry :: bonus
  rest : db' = { db with
    ledger := db'.ledger
    deposits := db.deposits.modify deposit.id
      (fun d ↦ d.creditedBy reference senderColdkey observedAmountRao block entry.id)
      fun _ ↦ rfl }

theorem creditDeposit_spec {db db' : Database} {deposit : Deposit} {reference : String}
    {senderColdkey : Ss58} {observedAmountRao : Rao} {block : ℕ} {schedule : BonusSchedule}
    {createdBy : String} {entry : CreditLedgerEntry}
    (h : creditDeposit db deposit reference senderColdkey observedAmountRao block schedule
      createdBy = .ok (entry, db')) :
    DepositCredited db deposit reference senderColdkey observedAmountRao block schedule
      entry db' := by
  simp only [creditDeposit, bind_eq_ok, require_eq_ok] at h
  obtain ⟨-, hfresh, ⟨entry₁, db₁⟩, hentry, db₂, hbonus, -, ⟨hfree, -⟩, h⟩ := h
  obtain ⟨hacc, hr⟩ := recordEntry_eq_ok.mp hentry
  obtain ⟨rfl, rfl⟩ := Prod.mk.inj hr
  obtain ⟨bonus, hb, hrows, hrest⟩ := recordBonus_spec hbonus
  have hdeposits : db₂.deposits = db.deposits := by rw [hrest]
  cases h
  exact
    { fresh := hfresh
      unclaimed := by rwa [Deposit.ReferenceTaken, hdeposits] at hfree
      accepted := hacc
      number := rfl
      account := rfl
      kind := rfl
      amount := rfl
      names := rfl
      intent := rfl
      order := rfl
      ledger := ⟨bonus, hb, by rw [hrows]; simp⟩
      rest := by rw [hrest] }

end Conjectures.Db

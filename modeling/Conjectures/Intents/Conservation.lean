import Conjectures.Api.Packages
import Conjectures.DepositWatcher.OneSpend
import Conjectures.Intents.Steps

/-!
# Credits are conserved

What a chain deposit adds to the ledger, and what a balance makes of the whole ledger, after any
transactions on deposits, bonuses, grants, holds and spends in any order.

A deposit that is credited keeps its row for ever (`DepositsKept`), so its reference is refused
from then on; the price it was declared at is positive, so its amount is one package's or none's.
-/

namespace Conjectures.Intents

open Lib Db Api

/-! ## Deposits under the transactions -/

/-- Credited deposits keep their rows, and every price is an old one or positive. -/
structure DepositsKept (db db' : Database) : Prop where
  credited : ∀ d ∈ db.deposits.rows, d.status = .credited → d ∈ db'.deposits.rows
  price : ∀ d' ∈ db'.deposits.rows,
    (∃ d ∈ db.deposits.rows, d.creditPriceRao = d'.creditPriceRao) ∨ 0 < d'.creditPriceRao

namespace DepositsKept

variable {db db' db'' : Database}

theorem of_same (h : db'.deposits = db.deposits) : DepositsKept db db' where
  credited _ hd _ := h ▸ hd
  price d hd := .inl ⟨d, h ▸ hd, rfl⟩

theorem refl (db : Database) : DepositsKept db db := .of_same rfl

theorem trans (h : DepositsKept db db') (h' : DepositsKept db' db'') : DepositsKept db db'' where
  credited d hd hcredited := h'.credited d (h.credited d hd hcredited) hcredited
  price d hd := by
    rcases h'.price d hd with ⟨d', hd', hprice⟩ | hpos
    · rw [← hprice]
      exact h.price d' hd'
    · exact .inr hpos

theorem of_insert {d : Deposit} (hins : db.deposits.insert? d = some db'.deposits)
    (hprice : 0 < d.creditPriceRao) : DepositsKept db db' where
  credited d' hd' _ := by
    rw [Table.rows_of_insert? hins]
    exact List.mem_append_left _ hd'
  price d' hd' := by
    rw [Table.rows_of_insert? hins, List.mem_append, List.mem_singleton] at hd'
    rcases hd' with hd' | rfl
    · exact .inl ⟨d', hd', rfl⟩
    · exact .inr hprice

/-- A row that is not credited may change, but for its price. -/
theorem of_modify {d : Deposit} (hd : d ∈ db.deposits.rows) (f : Deposit → Deposit)
    (hf : ∀ r, (f r).id = r.id) (h : db'.deposits = db.deposits.modify d.id f hf)
    (hopen : d.status ≠ .credited) (hprice : ∀ r, (f r).creditPriceRao = r.creditPriceRao) :
    DepositsKept db db' where
  credited d' hd' hcredited := by
    rw [h]
    refine (Table.mem_modify_of_mem hd).mpr (.inl ⟨hd', fun hk ↦ hopen ?_⟩)
    rw [← db.deposits.eq_of_key hd' hd hk]
    exact hcredited
  price d' hd' := by
    rw [h] at hd'
    rcases (Table.mem_modify_of_mem hd).mp hd' with ⟨hd', -⟩ | rfl
    · exact .inl ⟨d', hd', rfl⟩
    · exact .inl ⟨d, hd, (hprice d).symm⟩

end DepositsKept

theorem depositsKept_found {db db' : Database} {transfer : ChainTransfer} {accountId : Uuid}
    {terms : CreditTerms} {deposit : Deposit}
    (h : depositFor db transfer accountId terms = .ok (deposit, db')) :
    DepositsKept db db' ∧ deposit ∈ db'.deposits.rows := by
  unfold depositFor at h
  split at h
  · rename_i hmatch
    cases h
    exact ⟨.refl db, (matchingOpenDeposit_spec hmatch).1⟩
  · simp only [createDeposit, bind_eq_ok, require_eq_ok, need_eq_ok] at h
    obtain ⟨-, -, -, hprice, deposits, hins, h⟩ := h
    cases h
    refine ⟨.of_insert hins hprice, ?_⟩
    rw [Table.rows_of_insert? hins]
    exact List.mem_append_right _ (List.mem_singleton.mpr rfl)

/-- Crediting a deposit changes one row that was not credited. -/
theorem depositsKept_credited {db db' : Database} {deposit : Deposit} {reference : String}
    {senderColdkey : Ss58} {observedAmountRao : Rao} {block : ℕ} {schedule : BonusSchedule}
    {entry : CreditLedgerEntry} (hd : deposit ∈ db.deposits.rows)
    (h : DepositCredited db deposit reference senderColdkey observedAmountRao block schedule entry
      db') : DepositsKept db db' :=
  .of_modify hd (·.creditedBy reference senderColdkey observedAmountRao block entry.id)
    (fun _ ↦ rfl) (by rw [h.rest]) h.fresh fun _ ↦ rfl

theorem depositsKept_credit {db db' : Database} {transfer : ChainTransfer} {accountId : Uuid}
    {terms : CreditTerms} {entry : CreditLedgerEntry}
    (h : credit db transfer accountId terms = .ok (entry, db')) : DepositsKept db db' := by
  simp only [credit, bind_eq_ok, require_eq_ok] at h
  obtain ⟨-, -, -, -, ⟨deposit, db₁⟩, hdeposit, ⟨entry₁, db₂⟩, hcredit, h⟩ := h
  cases h
  obtain ⟨hfound, hmem⟩ := depositsKept_found hdeposit
  exact (hfound.trans (depositsKept_credited hmem (creditDeposit_spec hcredit))).trans
    (.of_same rfl)

theorem depositsKept_submit {v : PaymentVerifier} {request : NewSubmission}
    {transfer : IncomingTransfer} {id : Uuid} {db db' : Database} {view : SubmissionView}
    (h : submit v request transfer id db = .ok (view, db')) : DepositsKept db db' := by
  rcases submit_spec h with rfl | ⟨db₁, hins, hclaim⟩
  · exact .refl db'
  · obtain ⟨-, -, -, -, hdb'⟩ := claimForSubmission_spec hclaim
    have hrest := hins.rest
    exact .of_same (by rw [hdb', hrest]; rfl)

theorem depositsKept_payment (c : DepositWatcher.Deployment) (db : Database)
    (a : DepositWatcher.Step) : DepositsKept db (DepositWatcher.step c db a) := by
  have hrefl := DepositsKept.refl db
  cases a with
  | accounts accounts wallets => exact .of_same rfl
  | declare id accountId amountRao treasuryAddress creditPriceRao expiresAt now =>
    refine commit_induction hrefl fun deposit db' hcreate ↦ ?_
    simp only [DepositWatcher.declareDeposit, createDeposit, bind_eq_ok, require_eq_ok,
      need_eq_ok] at hcreate
    obtain ⟨-, -, -, hprice, deposits, hins, hcreate⟩ := hcreate
    cases hcreate
    exact .of_insert hins hprice
  | claimDeposit accountId coldkey reference =>
    refine commit_induction hrefl fun _ db' hclaim ↦ ?_
    obtain ⟨deposit, hd, hstatus, hseen⟩ := claimDeposit_spec hclaim
    obtain ⟨-, hdb'⟩ := markSeen_spec hseen
    exact .of_modify hd (·.seen reference (some coldkey)) (fun _ ↦ rfl) (by rw [hdb'])
      (by rw [hstatus]; decide) fun _ ↦ rfl
  | expireDeposits now =>
    refine ⟨fun d hd hcredited ↦ ?_, fun d hd ↦ ?_⟩
    · refine DepositWatcher.mem_expireOpenDeposits.mpr (.inl ⟨hd, fun hopen ↦ ?_⟩)
      rw [hcredited] at hopen
      cases hopen.1
    · rcases DepositWatcher.mem_expireOpenDeposits.mp hd with ⟨hd, -⟩ | ⟨d₀, hd₀, -, rfl⟩
      · exact .inl ⟨d, hd, rfl⟩
      · exact .inl ⟨d₀, hd₀, rfl⟩
  | record arrival =>
    refine commit_induction hrefl fun _ db' hrecord ↦ ?_
    obtain ⟨-, hdb', -, -⟩ := record_spec hrecord
    exact .of_same (by rw [hdb'])
  | settle arrival recorded env =>
    refine commit_induction hrefl fun _ db' hsettle ↦ ?_
    obtain ⟨transfer, -, -, ⟨-, rfl⟩ | ⟨-, hignore | hleave | ⟨_, _, hcredit⟩⟩⟩ :=
      DepositWatcher.settle_spec hsettle
    · exact hrefl
    · exact .of_same (by rw [(ignore_spec hignore).2])
    · exact .of_same (by rw [noteTransfer_spec hleave])
    · exact depositsKept_credit hcredit
  | noteConflict reference message =>
    refine commit_induction hrefl fun _ db' hnote ↦ ?_
    rcases DepositWatcher.noteConflict_spec hnote with rfl | ⟨_, -, hleave⟩
    · exact hrefl
    · exact .of_same (by rw [noteTransfer_spec hleave])
  | submit request transfer id => exact commit_induction hrefl fun _ _ h ↦ depositsKept_submit h
  | ignore reference note =>
    refine commit_induction hrefl fun _ db' hignore ↦ ?_
    obtain ⟨transfer, -, hignore⟩ := DepositWatcher.ignoreTransfer_spec hignore
    exact .of_same (by rw [(ignore_spec hignore).2])

theorem deposits_confirm {db db' : Database} {intentId accountId : Uuid} {c : Confirmation}
    {now : Instant} {out : ConfirmedIntent}
    (h : confirm db intentId accountId c now = .ok (out, db')) : db'.deposits = db.deposits := by
  simp only [confirm, confirmCopy, bind_eq_ok, require_eq_ok, need_eq_ok, mapError_eq_ok,
    getIntent_eq_ok, assertUsable_eq_ok] at h
  obtain ⟨-, -, intent, -, -, -, -, -, content, -, digest, -, sha256, -, ⟨spend, db₁⟩, hspend, db₂,
    hins, db₃, hsave, h⟩ := h
  obtain ⟨-, hr⟩ := recordEntry_eq_ok.mp hspend
  obtain ⟨rfl, rfl⟩ := Prod.mk.inj hr
  have hdb₂ := (insertSubmission_spec hins).rest
  obtain ⟨_, -, -, -, hdb₃⟩ := saveIntent_spec hsave
  cases h
  rw [hdb₃, hdb₂]
  rfl

theorem depositsKept_step (c : Config) (db : Database) (a : Step) :
    DepositsKept db (step c db a) := by
  have hrefl := DepositsKept.refl db
  cases a with
  | payment a => exact depositsKept_payment c.transfers db a
  | fund e =>
    refine commit_induction hrefl fun _ db' he ↦ ?_
    simp only [enter, bind_eq_ok, recordEntry_eq_ok] at he
    obtain ⟨-, -, -, he⟩ := he
    cases he
    exact .of_same rfl
  | openIntent r now =>
    refine commit_induction hrefl fun _ db' hopen ↦ ?_
    obtain ⟨-, -, hdb', -⟩ := openIntent_spec hopen
    exact .of_same (by rw [hdb'])
  | uploadBundle r =>
    refine commit_induction hrefl fun _ db' hupload ↦ ?_
    obtain ⟨_, -, -, rfl⟩ := uploadBundle_spec hupload
    exact .of_same rfl
  | confirm r =>
    refine commit_induction hrefl fun _ db' hconfirm ↦ ?_
    obtain ⟨_, hc⟩ := confirmIntent_spec hconfirm
    exact .of_same (deposits_confirm hc)
  | cancel intentId accountId now =>
    refine commit_induction hrefl fun _ db' hcancel ↦ ?_
    obtain ⟨_, -, -, rfl⟩ := cancelIntent_spec hcancel
    exact .of_same rfl
  | expireLapsed now => exact .of_same rfl

/-- Every deposit was declared at a positive price. -/
theorem price_pos (c : Config) (steps : List Step) :
    ∀ d ∈ (run (step c) Database.empty steps).deposits.rows, 0 < d.creditPriceRao := by
  have hempty : ∀ d ∈ Database.empty.deposits.rows, 0 < d.creditPriceRao := by
    intro d hd
    cases hd
  refine @run_invariant _ _ (step c) (fun db ↦ ∀ d ∈ db.deposits.rows, 0 < d.creditPriceRao)
    (fun db a hdb d hd ↦ ?_) _ hempty steps
  rcases (depositsKept_step c db a).price d hd with ⟨d', hd', hprice⟩ | hpos
  · rw [← hprice]
    exact hdb d' hd'
  · exact hpos

theorem depositsKept_run (c : Config) (db : Database) (steps : List Step) :
    DepositsKept db (run (step c) db steps) :=
  @run_preorder _ _ (step c) (fun _ ↦ True) DepositsKept .refl (fun _ _ _ h h' ↦ h.trans h')
    (fun _ _ _ ↦ trivial) (fun db a _ ↦ depositsKept_step c db a) db trivial steps

/-! ## What a chain deposit writes -/

/-- Crediting a deposit wrote one DEPOSIT entry of the observed amount, and after it one BONUS
entry if the amount, at the deposit's price, is a deal's, and none otherwise. -/
structure Deposited (packages : List CreditPackage) (db : Database) (deposit : Deposit)
    (observedAmountRao : Rao) (entry : CreditLedgerEntry) (bonus : List CreditLedgerEntry)
    (db' : Database) : Prop where
  ledger : db'.ledger.rows = db.ledger.rows ++ entry :: bonus
  kind : entry.kind = .deposit
  account : entry.accountId = deposit.accountId
  names : entry.depositId = some deposit.id
  amount : entry.amountRao = observedAmountRao
  deal : bonus ≠ [] ↔ Deal packages deposit.creditPriceRao observedAmountRao
  once : bonus.length ≤ 1
  bonus : ∀ b ∈ bonus, b.kind = .bonus ∧ b.accountId = deposit.accountId ∧ ∃ p ∈ packages,
    observedAmountRao = p.credits * deposit.creditPriceRao ∧
      b.amountRao = p.bonusCredits * deposit.creditPriceRao

theorem deposited_of_credited {packages : List CreditPackage}
    (hsizes : (packages.map CreditPackage.credits).Nodup) {db db' : Database} {deposit : Deposit}
    (hprice : 0 < deposit.creditPriceRao) {reference : String} {senderColdkey : Ss58}
    {observedAmountRao : Rao} {block : ℕ} {entry : CreditLedgerEntry}
    (h : DepositCredited db deposit reference senderColdkey observedAmountRao block
      (bonusSchedule packages) entry db') :
    ∃ bonus, Deposited packages db deposit observedAmountRao entry bonus db' := by
  obtain ⟨bonus, hbonus, hledger⟩ := h.ledger
  suffices hrest : (bonus ≠ [] ↔ Deal packages deposit.creditPriceRao observedAmountRao) ∧
      bonus.length ≤ 1 ∧ ∀ b ∈ bonus, b.kind = .bonus ∧ b.accountId = deposit.accountId ∧
        ∃ p ∈ packages, observedAmountRao = p.credits * deposit.creditPriceRao ∧
          b.amountRao = p.bonusCredits * deposit.creditPriceRao from
    ⟨bonus, hledger, h.kind, h.account, h.names, h.amount, hrest.1, hrest.2.1, hrest.2.2⟩
  rcases @packageBonusRao_spec packages hsizes observedAmountRao deposit.creditPriceRao hprice with
    ⟨p, hp, hpositive, hamount, hgranted⟩ | ⟨hno, hgranted⟩
  · have hpos : packageBonusRao observedAmountRao deposit.creditPriceRao
        (bonusSchedule packages) ≠ 0 := by
      rw [hgranted]
      exact (Int.mul_pos (Int.natCast_pos.mpr hpositive) hprice).ne'
    rcases hbonus with ⟨-, hzero⟩ | ⟨b, rfl, hkind, haccount, hb, -⟩
    · exact absurd hzero hpos
    · refine ⟨iff_of_true (by simp) ⟨p, hp, hpositive, hamount⟩, by simp, fun b' hb' ↦ ?_⟩
      rw [List.mem_singleton.mp hb']
      exact ⟨hkind, haccount, p, hp, hamount, hb.trans hgranted⟩
  · rcases hbonus with ⟨rfl, -⟩ | ⟨b, -, -, -, hb, hpos, -⟩
    · exact ⟨iff_of_false (by simp) hno, by simp, by simp⟩
    · rw [hb, hgranted] at hpos
      exact absurd hpos (lt_irrefl 0)

/-- A reference that a credited deposit holds is refused, whichever deposit it is credited to. -/
theorem creditDeposit_refuses {db : Database} {held deposit : Deposit} {reference : String}
    (hheld : held ∈ db.deposits.rows) (hcredited : held.status = .credited)
    (hreference : held.extrinsicReference = some reference) (hd : deposit ∈ db.deposits.rows)
    (senderColdkey : Ss58) (observedAmountRao : Rao) (block : ℕ) (schedule : BonusSchedule)
    (createdBy : String) : ∃ e, creditDeposit db deposit reference senderColdkey observedAmountRao
      block schedule createdBy = .error e := by
  cases h : creditDeposit db deposit reference senderColdkey observedAmountRao block schedule
    createdBy with
  | error e => exact ⟨e, rfl⟩
  | ok out =>
    have hspec : DepositCredited db deposit reference senderColdkey observedAmountRao block schedule
        out.1 out.2 := creditDeposit_spec h
    by_cases hid : held.id = deposit.id
    · obtain rfl := db.deposits.eq_of_key hheld hd hid
      exact absurd hcredited hspec.fresh
    · exact absurd ⟨held, hheld, hid, hreference⟩ hspec.unclaimed

/-- Once credited, the deposit holds the reference. -/
theorem held_of_credited {db db' : Database} {deposit : Deposit} {reference : String}
    {senderColdkey : Ss58} {observedAmountRao : Rao} {block : ℕ} {schedule : BonusSchedule}
    {entry : CreditLedgerEntry} (hd : deposit ∈ db.deposits.rows)
    (h : DepositCredited db deposit reference senderColdkey observedAmountRao block schedule entry
      db') :
    ∃ held ∈ db'.deposits.rows, held.status = .credited ∧
      held.extrinsicReference = some reference := by
  refine ⟨deposit.creditedBy reference senderColdkey observedAmountRao block entry.id, ?_, rfl,
    rfl⟩
  have hrest : db'.deposits = db.deposits.modify deposit.id
      (·.creditedBy reference senderColdkey observedAmountRao block entry.id) fun _ ↦ rfl := by
    rw [h.rest]
  rw [hrest]
  exact (Table.mem_modify_of_mem hd).mpr (.inr rfl)

/-- The ledger stays, or grows by crediting one deposit with one transfer. -/
def AtMostOneDeposit (schedule : BonusSchedule) (db db' : Database) : Prop :=
  db'.ledger = db.ledger ∨ ∃ db₁ deposit entry db₂, ∃ transfer : ChainTransfer,
    DepositsKept db db₁ ∧ db₁.ledger = db.ledger ∧ deposit ∈ db₁.deposits.rows ∧
    DepositCredited db₁ deposit transfer.extrinsicReference transfer.senderColdkey
      transfer.amountRao transfer.block schedule entry db₂ ∧ db'.ledger = db₂.ledger

theorem atMostOneDeposit_credit {db db' : Database} {transfer : ChainTransfer} {accountId : Uuid}
    {terms : CreditTerms} {entry : CreditLedgerEntry}
    (h : credit db transfer accountId terms = .ok (entry, db')) :
    AtMostOneDeposit terms.bonusSchedule db db' := by
  simp only [credit, bind_eq_ok, require_eq_ok] at h
  obtain ⟨-, -, -, -, ⟨deposit, db₁⟩, hdeposit, ⟨entry₁, db₂⟩, hcredit, h⟩ := h
  cases h
  obtain ⟨hkept, hmem⟩ := depositsKept_found hdeposit
  have hledger : db₁.ledger = db.ledger := by
    rcases (depositFor_spec hdeposit).1.rows with ⟨rfl, -⟩ | ⟨-, -, hdb₁⟩
    · rfl
    · rw [hdb₁]
  exact .inr ⟨db₁, deposit, entry₁, db₂, transfer, hkept, hledger, hmem,
    creditDeposit_spec hcredit, rfl⟩

theorem atMostOneDeposit_payment (c : DepositWatcher.Deployment) (db : Database)
    (a : DepositWatcher.Step) :
    AtMostOneDeposit c.watcher.bonusSchedule db (DepositWatcher.step c db a) := by
  have hrefl : AtMostOneDeposit c.watcher.bonusSchedule db db := .inl rfl
  cases a with
  | accounts accounts wallets => exact .inl rfl
  | declare id accountId amountRao treasuryAddress creditPriceRao expiresAt now =>
    refine commit_induction hrefl fun deposit db' hcreate ↦ .inl ?_
    obtain ⟨-, -, -, -, -, -, -, hdb'⟩ := createDeposit_spec hcreate
    rw [hdb']
  | claimDeposit accountId coldkey reference =>
    refine commit_induction hrefl fun _ db' hclaim ↦ .inl ?_
    obtain ⟨_, -, -, hseen⟩ := claimDeposit_spec hclaim
    rw [(markSeen_spec hseen).2]
  | expireDeposits now => exact .inl rfl
  | record arrival =>
    refine commit_induction hrefl fun _ db' hrecord ↦ .inl ?_
    rw [(record_spec hrecord).2.1]
  | settle arrival recorded env =>
    refine commit_induction hrefl fun _ db' hsettle ↦ ?_
    obtain ⟨transfer, -, -, ⟨-, rfl⟩ | ⟨-, hignore | hleave | ⟨_, _, hcredit⟩⟩⟩ :=
      DepositWatcher.settle_spec hsettle
    · exact hrefl
    · exact .inl (by rw [(ignore_spec hignore).2])
    · exact .inl (by rw [noteTransfer_spec hleave])
    · exact atMostOneDeposit_credit hcredit
  | noteConflict reference message =>
    refine commit_induction hrefl fun _ db' hnote ↦ ?_
    rcases DepositWatcher.noteConflict_spec hnote with rfl | ⟨_, -, hleave⟩
    · exact hrefl
    · exact .inl (by rw [noteTransfer_spec hleave])
  | submit request transfer id =>
    refine commit_induction hrefl fun _ db' hsubmit ↦ ?_
    rcases submit_spec hsubmit with rfl | ⟨_, hins, hclaim⟩
    · exact hrefl
    · obtain ⟨-, -, -, -, hdb'⟩ := claimForSubmission_spec hclaim
      have hrest := hins.rest
      exact .inl (by rw [hdb', hrest]; rfl)
  | ignore reference note =>
    refine commit_induction hrefl fun _ db' hignore ↦ .inl ?_
    obtain ⟨_, -, hignore⟩ := DepositWatcher.ignoreTransfer_spec hignore
    rw [(ignore_spec hignore).2]

/-- A transaction of the transfer system leaves the ledger, or writes one chain deposit. -/
theorem payment_deposits {packages : List CreditPackage}
    (hsizes : (packages.map CreditPackage.credits).Nodup) {c : Config}
    (hschedule : c.transfers.watcher.bonusSchedule = bonusSchedule packages) (steps : List Step)
    (a : DepositWatcher.Step) {db db' : Database}
    (hdb : db = run (step c) Database.empty steps) (hdb' : db' = step c db (.payment a)) :
    db'.ledger = db.ledger ∨ ∃ deposit observedAmountRao entry bonus,
      Deposited packages db deposit observedAmountRao entry bonus db' := by
  have hpayment : AtMostOneDeposit c.transfers.watcher.bonusSchedule db db' := by
    rw [hdb']
    exact atMostOneDeposit_payment c.transfers db a
  rcases hpayment with
    hsame | ⟨db₁, deposit, entry, db₂, transfer, hkept, hledger, hmem, hcredited, hafter⟩
  · exact .inl hsame
  have hprice : 0 < deposit.creditPriceRao := by
    rcases hkept.price deposit hmem with ⟨d, hd, hprice⟩ | hpos
    · rw [← hprice]
      exact price_pos c steps d (hdb ▸ hd)
    · exact hpos
  rw [hschedule] at hcredited
  obtain ⟨bonus, hdeposited⟩ := deposited_of_credited hsizes hprice hcredited
  refine .inr ⟨deposit, transfer.amountRao, entry, bonus, ?_, hdeposited.kind, hdeposited.account,
    hdeposited.names, hdeposited.amount, hdeposited.deal, hdeposited.once, hdeposited.bonus⟩
  rw [hafter, ← hledger]
  exact hdeposited.ledger

/-! ## What a balance makes of the ledger -/

/-- Whole credits and a remainder below the price are what is left of the ledger beside the live
holds, or nothing where the holds exceed it. -/
theorem creditBalance_conserves (db : Database) (accountId : Uuid) {creditPriceRao : Rao}
    (hprice : 0 < creditPriceRao) (now : Instant) (low : ℤ) :
    let b := creditBalance db accountId creditPriceRao now low
    b.creditsAvailable * creditPriceRao + b.remainderRao =
        max 0 (balanceRao db accountId - heldRao db accountId now) ∧
      0 ≤ b.remainderRao ∧ b.remainderRao < creditPriceRao := by
  simp only [creditBalance]
  split
  · rename_i hnone
    exact ⟨by rw [max_eq_left hnone, Int.zero_mul, Int.add_zero], le_refl 0, hprice⟩
  · rename_i hsome
    refine ⟨?_, Int.emod_nonneg _ hprice.ne', Int.emod_lt_of_pos _ hprice⟩
    rw [max_eq_right (not_le.mp hsome).le]
    exact Int.ediv_mul_add_emod _ _

/-- **Credits are conserved.** In every state that transactions reach, crediting a deposit writes
one DEPOSIT entry of the amount observed and a BONUS entry exactly if that amount is a deal's at
the deposit's price, and from then on its reference is refused; and every balance accounts for
the ledger beside the live holds. -/
theorem credits_conserved {u : Decimals} {spec : String} {creditPriceRao : Rao}
    {packages : List CreditPackage} (hpackages : parsePackages u spec creditPriceRao = .ok packages)
    (c : Config) (steps : List Step) :
    (∀ deposit ∈ (run (step c) Database.empty steps).deposits.rows,
      ∀ reference senderColdkey observedAmountRao block createdBy entry db',
        creditDeposit (run (step c) Database.empty steps) deposit reference senderColdkey
            observedAmountRao block (bonusSchedule packages) createdBy = .ok (entry, db') →
          (∃ bonus, Deposited packages (run (step c) Database.empty steps) deposit
            observedAmountRao entry bonus db') ∧
          ∀ later, ∀ again ∈ (run (step c) db' later).deposits.rows,
            ∀ sender observed block' schedule createdBy', ∃ e,
              creditDeposit (run (step c) db' later) again reference sender observed block'
                schedule createdBy' = .error e) ∧
    ∀ accountId price now low, 0 < price →
      let db := run (step c) Database.empty steps
      let b := creditBalance db accountId price now low
      b.creditsAvailable * price + b.remainderRao =
          max 0 (balanceRao db accountId - heldRao db accountId now) ∧
        0 ≤ b.remainderRao ∧ b.remainderRao < price := by
  obtain ⟨hsizes, -⟩ := parsePackages_spec hpackages
  refine ⟨?_, fun accountId price now low hprice ↦
    creditBalance_conserves _ accountId hprice now low⟩
  intro deposit hd reference senderColdkey observedAmountRao block createdBy entry db' hcredit
  have hspec := creditDeposit_spec hcredit
  refine ⟨deposited_of_credited hsizes (price_pos c steps deposit hd) hspec, ?_⟩
  intro later again hagain sender observed block' schedule createdBy'
  obtain ⟨held, hheld, hcredited, hreference⟩ := held_of_credited hd hspec
  have hkept := (depositsKept_run c db' later).credited held hheld hcredited
  exact creditDeposit_refuses hkept hcredited hreference hagain _ _ _ _ _

/-- Two deposits declared at a price of 5. -/
def exampleDeclared : List Step :=
  [.payment (.accounts (.singleton ⟨1, none⟩) (.empty _)),
    .payment (.declare 1 1 5 "treasury" 5 100 0), .payment (.declare 2 1 25 "treasury" 5 100 0)]

def exampleDeposit (id : Uuid) (amountRao : Rao) : Deposit where
  id := id
  accountId := 1
  amountRao := amountRao
  treasuryAddress := "treasury"
  creditPriceRao := 5
  expiresAt := 100
  createdAt := 0
  status := .awaitingTransfer
  extrinsicReference := none
  senderColdkey := none
  observedAmountRao := none
  block := none
  creditedLedgerId := none

/-- A result that passes a check is a result. -/
theorem exists_ok_of_any {ε α β : Type*} {x : Except ε (α × β)} {p : α → β → Prop}
    [∀ a b, Decidable (p a b)] (h : (x.toOption.any fun out ↦ p out.1 out.2) = true) :
    ∃ a b, x = .ok (a, b) ∧ p a b := by
  cases x with
  | error e => cases h
  | ok out => exact ⟨out.1, out.2, rfl, of_decide_eq_true h⟩

def examplePackages : List CreditPackage := [⟨1, 0, 5⟩, ⟨5, 1, 25⟩, ⟨10, 3, 50⟩]

/-- Five credits' worth is credited with its bonus. -/
theorem credits_conserved_package :
    ∃ entry db', creditDeposit (run (step exampleConfig) Database.empty exampleDeclared)
        (exampleDeposit 2 25) "7-2-3" "miner" 25 7 (bonusSchedule examplePackages) "watcher" =
        .ok (entry, db') ∧ db'.ledger.rows.length = 2 ∧
      ∃ bonus, Deposited examplePackages (run (step exampleConfig) Database.empty exampleDeclared)
        (exampleDeposit 2 25) 25 entry bonus db' := by
  have hpackages : parsePackages unicodeDecimals "1,5:1,10:3" 5 = .ok examplePackages := by
    decide +kernel
  obtain ⟨entry, db', hcredit, hlength⟩ := exists_ok_of_any
    (x := creditDeposit (run (step exampleConfig) Database.empty exampleDeclared)
      (exampleDeposit 2 25) "7-2-3" "miner" 25 7 (bonusSchedule examplePackages) "watcher")
    (p := fun (_ : CreditLedgerEntry) (db' : Database) ↦ db'.ledger.rows.length = 2)
    (by decide +kernel)
  exact ⟨entry, db', hcredit, hlength, ((credits_conserved hpackages exampleConfig
    exampleDeclared).1 _ (by decide +kernel) _ _ _ _ _ _ _ hcredit).1⟩

/-- The package of one credit grants no bonus, so its exact amount writes no BONUS entry; and where
the price has since doubled, 25 rao are the amount of no package and are granted one. -/
theorem package_without_bonus :
    (∃ packages, parsePackages unicodeDecimals "1,5:1,10:3" 5 = .ok packages ∧
      ⟨1, 0, 5⟩ ∈ packages ∧
      ∃ deposit ∈ (run (step exampleConfig) Database.empty exampleDeclared).deposits.rows,
        ∃ entry db', creditDeposit (run (step exampleConfig) Database.empty exampleDeclared) deposit
          "7-2-3" "miner" 5 7 (bonusSchedule packages) "watcher" = .ok (entry, db') ∧
          db'.ledger.rows = [entry] ∧ entry.kind = .deposit) ∧
    ∃ packages, parsePackages unicodeDecimals "1,5:1,10:3" 10 = .ok packages ∧
      (∀ p ∈ packages, p.priceRao ≠ 25) ∧
      ∃ deposit ∈ (run (step exampleConfig) Database.empty exampleDeclared).deposits.rows,
        ∃ entry db', creditDeposit (run (step exampleConfig) Database.empty exampleDeclared) deposit
          "7-2-3" "miner" 25 7 (bonusSchedule packages) "watcher" = .ok (entry, db') ∧
          db'.ledger.rows.map (·.kind) = [.deposit, .bonus] := by
  have h₅ : parsePackages unicodeDecimals "1,5:1,10:3" 5 =
      .ok [⟨1, 0, 5⟩, ⟨5, 1, 25⟩, ⟨10, 3, 50⟩] := by decide +kernel
  have h₁₀ : parsePackages unicodeDecimals "1,5:1,10:3" 10 =
      .ok [⟨1, 0, 10⟩, ⟨5, 1, 50⟩, ⟨10, 3, 100⟩] := by decide +kernel
  refine ⟨⟨_, h₅, by decide, exampleDeposit 1 5, by decide +kernel, ?_⟩, _, h₁₀, by decide,
    exampleDeposit 2 25, by decide +kernel, ?_⟩
  · exact exists_ok_of_any (p := fun (entry : CreditLedgerEntry) (db' : Database) ↦
      db'.ledger.rows = [entry] ∧ entry.kind = .deposit) (by decide +kernel)
  · exact exists_ok_of_any (p := fun (_ : CreditLedgerEntry) (db' : Database) ↦
      db'.ledger.rows.map (·.kind) = [.deposit, .bonus]) (by decide +kernel)

end Conjectures.Intents

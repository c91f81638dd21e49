import Conjectures.DepositWatcher.Steps

/-!
# One transfer buys at most one thing

Whatever the order of the two services' transactions, no transfer is both credited
to an account and the payment of a submission, and none is either of these twice.

The invariant is `SpentOnce`: a ledger entry for a deposit stands behind a CREDITED
transfer, a submission's payment behind an IGNORED one, and neither status is ever
left.
-/

namespace Conjectures.DepositWatcher

open Lib Db Api

/-! ## What a transfer bought -/

/-- Somebody has decided what the transfer was spent on. -/
def Decided (db : Database) (reference : String) : Prop :=
  ∃ t ∈ db.transfers.rows, t.extrinsicReference = reference ∧ t.status ≠ .unattributed

/-- A transfer somebody has judged keeps its status. -/
def KeepsDecided (t t' : Table ChainTransfer.extrinsicReference) : Prop :=
  ∀ row ∈ t.rows, row.status ≠ .unattributed →
    ∃ row' ∈ t'.rows, row'.extrinsicReference = row.extrinsicReference ∧
      row'.status = row.status

theorem KeepsDecided.refl (t : Table ChainTransfer.extrinsicReference) : KeepsDecided t t :=
  fun row hrow _ ↦ ⟨row, hrow, rfl, rfl⟩

theorem KeepsDecided.trans {t t' t'' : Table ChainTransfer.extrinsicReference}
    (h : KeepsDecided t t') (h' : KeepsDecided t' t'') : KeepsDecided t t'' := by
  intro row hrow hstatus
  obtain ⟨row', hrow', hk, hs⟩ := h row hrow hstatus
  obtain ⟨row'', hrow'', hk', hs'⟩ := h' row' hrow' (hs ▸ hstatus)
  exact ⟨row'', hrow'', hk'.trans hk, hs'.trans hs⟩

/-- The rows after the open windows that lapsed were closed. -/
theorem mem_expireOpenDeposits {db : Database} {now : Instant} {d : Deposit} :
    d ∈ (expireOpenDeposits db now).deposits.rows ↔
      (d ∈ db.deposits.rows ∧ ¬ (d.status = .awaitingTransfer ∧ d.expiresAt ≤ now)) ∨
        ∃ d₀ ∈ db.deposits.rows, (d₀.status = .awaitingTransfer ∧ d₀.expiresAt ≤ now) ∧
          { d₀ with status := .expired } = d := by
  simp only [expireOpenDeposits, Table.mem_update, decide_eq_true_eq]
  constructor
  · rintro ⟨d₀, hd₀, rfl⟩
    split
    · rename_i hp; exact Or.inr ⟨d₀, hd₀, hp, rfl⟩
    · rename_i hp; exact Or.inl ⟨hd₀, hp⟩
  · rintro (⟨hd, hp⟩ | ⟨d₀, hd₀, hp, rfl⟩)
    · exact ⟨d, hd, if_neg hp⟩
    · exact ⟨d₀, hd₀, if_pos hp⟩

/-- Neither the ledger nor the submissions changed. -/
def SameFunds (db db' : Database) : Prop :=
  db'.ledger = db.ledger ∧ db'.submissions = db.submissions

theorem SameFunds.refl (db : Database) : SameFunds db db := ⟨rfl, rfl⟩

/-- A payment of 5 rao by the miner's coldkey. -/
def exampleArrival : IncomingTransfer := ⟨7, 0, 2, 3, "miner", "treasury", 5⟩

/-- The watcher records and credits the payment to the miner's account. -/
def exampleSteps : List Step :=
  [.accounts ⟨[⟨1, some "miner"⟩], by decide⟩ (.empty _), .record exampleArrival,
    .settle exampleArrival true ⟨10, 0, []⟩]

end Conjectures.DepositWatcher

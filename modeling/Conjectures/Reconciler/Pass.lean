import Conjectures.Api.TmcPay

/-!
# A pass of the reconciler

`scripts/reconcile_tmc_pay.py`: the orders a pass reads, and what it does with the answer
to one of them.  Every order is read back in a session of its own.
-/

namespace Conjectures.Reconciler

open Lib Db Api

/-- `--batch` and `--min-age`, the latter in microseconds. -/
structure PassConfig where
  batch : ℕ
  minAge : ℤ

/-- The orders one pass reads: the open ones with an invoice, oldest first, among the first
`batch` that were not polled within the minimum age. -/
def pending (config : PassConfig) (db : Database) (now : Instant) : List (Uuid × Uuid) :=
  ((openOrders db config.batch (some (now - config.minAge))).filter (·.invoiceId.isSome)).map
    fun o ↦ (o.id, o.accountId)

/-- Read one order back.  Where TMC PAY cannot be read, nothing is written and the pass goes
on. -/
def readBack (settings : TmcPaySettings) (orderId accountId : Uuid) (reading : Option Invoice)
    (now : Instant) : Txn Database DatabaseError TmcPayOrder := fun db ↦ do
  let order ← getOrder db orderId accountId
  match reading with
  | some invoice => refreshOrder settings order invoice now db
  | none => return (order, db)

theorem readBack_ok {settings : TmcPaySettings} {orderId accountId : Uuid}
    {reading : Option Invoice} {now : Instant} {db db' : Database} {o' : TmcPayOrder}
    (h : readBack settings orderId accountId reading now db = .ok (o', db')) :
    (reading = none ∧ db' = db) ∨ ∃ order ∈ db.orders.rows, order.id = orderId ∧
      ∃ i, reading = some i ∧ refreshOrder settings order i now db = .ok (o', db') := by
  simp only [readBack, bind_eq_ok, getOrder_eq_ok] at h
  obtain ⟨order, ⟨hmem, hid, -⟩, h⟩ := h
  cases reading with
  | none =>
    cases h
    exact Or.inl ⟨rfl, rfl⟩
  | some i => exact Or.inr ⟨order, hmem, hid, i, rfl, h⟩

end Conjectures.Reconciler

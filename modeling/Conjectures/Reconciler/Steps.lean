import Conjectures.Lib.Run
import Conjectures.Api.Webhook
import Conjectures.Reconciler.Pass

/-!
# Runs of the reconciler

A pass reads its queue once, reads the orders of the queue back one by one, and then closes
the lapsed orders of the whole table.  Anything may happen in between: webhooks are
delivered or lost, owners poll, orders are opened and given their invoices, the reconciler
stops.  Every transaction is one step.
-/

namespace Conjectures.Reconciler

open Lib Db Api

/-- A running pass: when it read its queue, and what is left of it. -/
structure Pass where
  started : Instant
  pending : List (Uuid × Uuid)
  deriving DecidableEq

/-- An invoice that was read successfully, and what the reading said. -/
structure Reading where
  orderId : Uuid
  status : InvoiceStatus
  time : Instant
  deriving DecidableEq

/-- `readings` is a record of the run and no part of the program. -/
structure State where
  db : Database
  pass : Option Pass
  readings : List Reading

inductive Step where
  /-- a pass reads its queue -/
  | start (now : Instant)
  /-- the next order of the queue is read back; `reading` is what TMC PAY answers -/
  | read (reading : Option Invoice) (now : Instant)
  /-- the pass closes the lapsed orders, once its queue is empty -/
  | expire (now : Instant)
  /-- the reconciler stops in the middle of a pass -/
  | stop
  | webhook (d : Delivery) (now : Instant)
  | poll (orderId accountId : Uuid) (reading : Option Invoice) (now : Instant)
  | purchase (id accountId : Uuid) (credits : ℤ) (creditPriceRao : Rao) (externalId : String)
      (createdAt : Instant)
  /-- the purchase gets the invoice it asked TMC PAY for -/
  | invoice (orderId : Uuid) (f : InvoiceFields)

/-- The purchase's second transaction, on the row as it is. -/
def attach (orderId : Uuid) (f : InvoiceFields) : Txn Database DatabaseError TmcPayOrder :=
  fun db ↦ do
    let order ← need (db.orders.find? orderId) (.recordNotFound "order not found")
    attachInvoice db order f

/-- What a read of the order learns: nothing where TMC PAY does not answer or the order has
no invoice. -/
def answered (db : Database) (orderId : Uuid) (reading : Option Invoice) (now : Instant) :
    List Reading :=
  match reading, db.orders.find? orderId with
  | some invoice, some order =>
    if order.invoiceId.isSome then [⟨orderId, invoice.status, now⟩] else []
  | _, _ => []

/-- Whether a poll asks TMC PAY at all. -/
def asks (settings : TmcPaySettings) (db : Database) (orderId accountId : Uuid)
    (now : Instant) : Bool :=
  match getOrder db orderId accountId with
  | .ok order => shouldRefresh settings order now
  | .error _ => false

theorem readOrder_ok {settings : TmcPaySettings} {orderId accountId : Uuid}
    {reading : Option Invoice} {now : Instant} {db db' : Database} {o' : TmcPayOrder}
    (h : readOrder settings orderId accountId reading now db = .ok (o', db')) :
    db' = db ∨ ∃ order ∈ db.orders.rows, order.id = orderId ∧
      asks settings db orderId accountId now = true ∧ ∃ i, reading = some i ∧
        refreshOrder settings order i now db = .ok (o', db') := by
  simp only [readOrder, bind_eq_ok] at h
  obtain ⟨order, hget, h⟩ := h
  obtain ⟨hmem, hid, -⟩ := getOrder_eq_ok.mp hget
  split at h
  · rename_i hasks
    cases reading with
    | none =>
      cases h
      exact Or.inl rfl
    | some i => exact Or.inr ⟨order, hmem, hid, by rw [asks, hget]; exact hasks, i, rfl, h⟩
  · cases h
    exact Or.inl rfl

def step (config : PassConfig) (settings : TmcPaySettings) (s : State) : Step → State
  | .start now =>
    match s.pass with
    | none => { s with pass := some ⟨now, pending config s.db now⟩ }
    | some _ => s
  | .read reading now =>
    match s.pass with
    | some ⟨started, (orderId, accountId) :: rest⟩ =>
      match readBack settings orderId accountId reading now s.db with
      | .ok (_, db) =>
        { db, pass := some ⟨started, rest⟩
          readings := s.readings ++ answered s.db orderId reading now }
      -- anything but a failed read ends the pass
      | .error _ => { s with pass := none }
    | _ => s
  | .expire now =>
    match s.pass with
    | some ⟨_, []⟩ => { s with db := expireLapsedOrders s.db now, pass := none }
    | _ => s
  | .stop => { s with pass := none }
  | .webhook d now => { s with db := receiveWebhook settings d now s.db }
  | .poll orderId accountId reading now =>
    match readOrder settings orderId accountId reading now s.db with
    | .ok (_, db) =>
      { s with
        db
        readings := s.readings ++ (if asks settings s.db orderId accountId now then
          answered s.db orderId reading now else []) }
    | .error _ => s
  | .purchase id accountId credits creditPriceRao externalId createdAt =>
    { s with db := commit (fun db ↦
        createOrder db id accountId credits creditPriceRao externalId createdAt) s.db }
  | .invoice orderId f => { s with db := commit (attach orderId f) s.db }

end Conjectures.Reconciler

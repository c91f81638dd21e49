import Conjectures.Api.TmcPay

/-!
# The webhook

`receive_webhook` of `submission_api/routers/tmc_pay.py`, from the point where the signature
is verified and the body parsed.  A delivery is claimed, matched to an order and applied in
one transaction; what became of it is noted in a second one, and so is a delivery that could
not be applied.
-/

namespace Conjectures.Api

open Lib Db

/-- A signed delivery: its id, the event it names and the invoice in its body. -/
structure Delivery where
  webhookId : String
  event : Option String
  invoice : Invoice
  deriving DecidableEq

/-- Claim the delivery under its id. -/
def Delivery.claim (d : Delivery) (db : Database) : Bool × Database :=
  claimDelivery db d.webhookId (some d.invoice.invoiceId) d.event (some d.invoice.status.text)

/-- A delivery for another integration, which never reaches an order. -/
def Delivery.Foreign (settings : TmcPaySettings) (d : Delivery) : Prop :=
  settings.merchantId ≠ "" ∧ d.invoice.merchantId ≠ settings.merchantId

instance Delivery.decidableForeign (settings : TmcPaySettings) (d : Delivery) :
    Decidable (d.Foreign settings) := by
  unfold Delivery.Foreign; infer_instance

/-- The order a delivery is about, and whether it was found by its `external_id`, which is
how an order is found whose invoice never reached this side. -/
def matchOrder (db : Database) (invoice : Invoice) : Option (TmcPayOrder × Bool) :=
  match findByInvoice db invoice.invoiceId with
  | some order => some (order, false)
  | none =>
    match invoice.externalId with
    | some externalId =>
      if externalId = "" then none else (findByExternalId db externalId).map (·, true)
    | none => none

theorem matchOrder_spec {db : Database} {invoice : Invoice} {order : TmcPayOrder}
    {byExternalId : Bool} (h : matchOrder db invoice = some (order, byExternalId)) :
    order ∈ db.orders.rows ∧
      ((byExternalId = false ∧ order.invoiceId = some invoice.invoiceId) ∨
        (byExternalId = true ∧ invoice.externalId = some order.externalId)) := by
  unfold matchOrder at h
  split at h
  · rename_i found hfind
    cases h
    obtain ⟨hmem, hinvoice⟩ := findByInvoice_eq_some hfind
    exact ⟨hmem, Or.inl ⟨rfl, hinvoice⟩⟩
  · split at h
    · rename_i externalId hexternal
      split at h
      · cases h
      · obtain ⟨found, hfind, he⟩ := Option.map_eq_some_iff.mp h
        cases he
        obtain ⟨hmem, rfl⟩ := findByExternalId_eq_some hfind
        exact ⟨hmem, Or.inr ⟨rfl, hexternal⟩⟩
    · cases h

/-! ## The ends of a delivery -/

/-- `_NO_MONEY_STATUSES`: no money has reached the invoice. -/
def InvoiceStatus.NoMoney (s : InvoiceStatus) : Prop :=
  s = .created ∨ s = .expired ∨ s = .cancelled

instance InvoiceStatus.decidableNoMoney (s : InvoiceStatus) : Decidable s.NoMoney := by
  unfold InvoiceStatus.NoMoney; infer_instance

/-- Record a delivery for an invoice its order does not sell.  The order is left as it is,
and flagged where somebody paid the wrong invoice. -/
def superseded (db : Database) (d : Delivery) (orderId : Uuid) : Database :=
  let db := if d.invoice.status.NoMoney then db else flagForReview db orderId
  noteDeliveryOutcome db d.webhookId .superseded (some orderId)

/-- Record a delivery that could not be applied, on what the rollback left. -/
def failed (db : Database) (d : Delivery) (orderId : Uuid) : Database :=
  let claimed := d.claim db
  let db := if claimed.1 then noteDeliveryOutcome claimed.2 d.webhookId .failed (some orderId)
    else claimed.2
  flagForReview db orderId

/-- Record a delivery that is not acted on. -/
def answer (db : Database) (d : Delivery) (outcome : DeliveryOutcome) (claimed : Bool) :
    Database :=
  if claimed then noteDeliveryOutcome db d.webhookId outcome none else db

/-! ## Applying a delivery -/

/-- An order without an invoice is given the one of the delivery. -/
def attachMissing (db : Database) (order : TmcPayOrder) (invoice : Invoice) :
    Except DatabaseError (TmcPayOrder × Database) :=
  if order.invoiceId = none then attachInvoice db order invoice.fields else .ok (order, db)

/-- What an applied delivery is recorded as: CREDITED if the credit is new. -/
def appliedOutcome (before after : TmcPayOrder) : DeliveryOutcome :=
  if before.creditedLedgerId = none ∧ after.creditedLedgerId.isSome then .credited else .recorded

/-- How an attempt to apply a delivery ended, where it raised nothing. -/
inductive Attempt where
  /-- the order does not sell this invoice; all is written -/
  | superseded (db : Database)
  /-- the status was applied and is committed; the outcome is still to be noted -/
  | applied (db : Database) (orderId : Uuid) (outcome : DeliveryOutcome)
  /-- the order was credited already; all is rolled back, the claim with it -/
  | alreadyCredited (order : TmcPayOrder)

/-- Apply a claimed delivery to the copy of the order it was matched to. -/
def attempt (settings : TmcPaySettings) (claimed : Database) (order : TmcPayOrder)
    (byExternalId : Bool) (d : Delivery) (now : Instant) : Except DatabaseError Attempt :=
  if byExternalId ∧ order.invoiceId.isSome then
    .ok (.superseded (superseded claimed d order.id))
  else
    match attachMissing claimed order d.invoice with
    | .error (.valueError _) => .ok (.superseded (superseded claimed d order.id))
    | .error e => .error e
    | .ok (attached, db) => do
      match ← applyInvoice settings db attached d.invoice now none (some d.webhookId) with
      | .applied after db => return .applied db after.id (appliedOutcome attached after)
      | .alreadyCredited => return .alreadyCredited attached

/-- What is noted of an order that was credited by another: there may be no row to note it
on, as the claim is gone. -/
def noteCredited (db : Database) (d : Delivery) (order : TmcPayOrder) :
    Except DatabaseError Database := do
  let after ← getOrder db order.id order.accountId
  return noteDeliveryOutcome db d.webhookId (appliedOutcome order after) (some after.id)

/-- The whole of a delivery, in transactions nothing else comes between. -/
def receiveWebhook (settings : TmcPaySettings) (d : Delivery) (now : Instant)
    (db : Database) : Database :=
  let (claimed, db') := d.claim db
  if d.Foreign settings then answer db' d .ignored claimed
  else if ¬ claimed then db
  else
    match matchOrder db' d.invoice with
    | none => answer db' d .unknown true
    | some (order, byExternalId) =>
      match attempt settings db' order byExternalId d now with
      | .ok (.superseded db') => db'
      | .ok (.applied db' orderId outcome) =>
        noteDeliveryOutcome db' d.webhookId outcome (some orderId)
      | .ok (.alreadyCredited attached) =>
        match noteCredited db d attached with
        | .ok db' => db'
        | .error _ => failed db d order.id
      | .error _ => failed db d order.id

end Conjectures.Api

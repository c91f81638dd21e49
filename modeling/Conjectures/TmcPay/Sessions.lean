import Conjectures.Webhooks.Steps

/-!
# Requests in flight

Nothing locks an order while TMC PAY is asked about it.  A poll of the owner and a read of the
reconciler look the order up, await the invoice, and apply it to the copy they have.  A purchase
opens its order, awaits the invoice TMC PAY creates, and attaches it to the copy it has.  The
deliveries in flight are those of `Webhooks.step`.

A copy is written back column by column (`saveOrder`), so what others wrote in between stays,
where the copy does not change the same column.
-/

namespace Conjectures.TmcPay

open Lib Db Api

/-- What a request wants of TMC PAY. -/
inductive Errand where
  /-- the invoice of an order that has one -/
  | refresh
  /-- an invoice for a new order -/
  | purchase
  deriving DecidableEq

/-- A request that awaits TMC PAY, with its copy of the order. -/
structure Session where
  number : ℕ
  errand : Errand
  order : TmcPayOrder
  deriving DecidableEq

structure State extends Webhooks.State where
  sessions : Table Session.number

/-- The first five are the steps of the deliveries. -/
inductive Step where
  | arrive (number : ℕ) (d : Delivery)
  | apply (number : ℕ) (now : Instant) (fault : Bool)
  | note (number : ℕ) (fault : Bool)
  | fail (number : ℕ) (fault : Bool)
  | crash (number : ℕ)
  /-- the owner reads the order -/
  | poll (number : ℕ) (orderId accountId : Uuid) (now : Instant)
  /-- the reconciler reads an order of its queue -/
  | sweep (number : ℕ) (orderId accountId : Uuid)
  /-- TMC PAY has answered either of them -/
  | refresh (number : ℕ) (invoice : Invoice) (now : Instant)
  | purchase (number : ℕ) (id accountId : Uuid) (credits : ℤ) (creditPriceRao : Rao)
      (externalId : String) (createdAt : Instant)
  /-- TMC PAY has created the invoice of a purchase -/
  | invoice (number : ℕ) (f : InvoiceFields)
  /-- it created none the order can be sold under -/
  | refuse (number : ℕ) (reason : String)
  /-- the purchase ends in an exception, and closes its order by id -/
  | abandon (number : ℕ) (reason : String)
  /-- the request ends without a write, or dies -/
  | drop (number : ℕ)
  /-- the reconciler closes the orders nobody paid -/
  | lapse (now : Instant)

/-- The request goes on to await TMC PAY. -/
def State.await (s : State) (number : ℕ) (errand : Errand) (order : TmcPayOrder) : State :=
  { s with sessions := s.sessions.insertNew ⟨number, errand, order⟩ }

/-- The request is over. -/
def State.finish (s : State) (number : ℕ) (db : Database) : State :=
  { s with db := db, sessions := s.sessions.delete number }

/-- A step of the deliveries. -/
def State.deliver (settings : TmcPaySettings) (s : State) (a : Webhooks.Step) : State :=
  { s with toState := Webhooks.step settings s.toState a }

def step (settings : TmcPaySettings) (s : State) : Step → State
  | .arrive number d => s.deliver settings (.arrive number d)
  | .apply number now fault => s.deliver settings (.apply number now fault)
  | .note number fault => s.deliver settings (.note number fault)
  | .fail number fault => s.deliver settings (.fail number fault)
  | .crash number => s.deliver settings (.crash number)
  | .poll number orderId accountId now =>
    match getOrder s.db orderId accountId with
    | .ok order => if shouldRefresh settings order now then s.await number .refresh order else s
    | .error _ => s
  | .sweep number orderId accountId =>
    match getOrder s.db orderId accountId with
    | .ok order => s.await number .refresh order
    | .error _ => s
  | .refresh number invoice now =>
    match s.sessions.find? number with
    | some ⟨_, .refresh, order⟩ =>
      s.finish number (commit (refreshOrder settings order invoice now) s.db)
    | _ => s
  | .purchase number id accountId credits creditPriceRao externalId createdAt =>
    match createOrder s.db id accountId credits creditPriceRao externalId createdAt with
    | .ok (order, db) => { s.await number .purchase order with db }
    | .error _ => s
  | .invoice number f =>
    match s.sessions.find? number with
    | some ⟨_, .purchase, order⟩ =>
      match attachInvoice s.db order f with
      | .ok (_, db) => s.finish number db
      -- an invoice that cannot be attached is an exception: the purchase is abandoned
      | .error _ => s
    | _ => s
  | .refuse number reason =>
    match s.sessions.find? number with
    | some ⟨_, .purchase, order⟩ =>
      match failOrder s.db order reason with
      | .ok db => s.finish number db
      | .error _ => s
    | _ => s
  | .abandon number reason =>
    match s.sessions.find? number with
    | some ⟨_, .purchase, order⟩ => s.finish number (failOrderById s.db order.id reason)
    | _ => s
  | .drop number => s.finish number s.db
  | .lapse now => { s with db := expireLapsedOrders s.db now }

/-- The copy of an order that a step writes back, or acts on. -/
def Step.copy (s : State) : Step → Option TmcPayOrder
  | .apply number _ _ => (s.handlers.find? number).bind (·.phase.copy)
  | .refresh number _ _ | .invoice number _ | .refuse number _ | .abandon number _ =>
    (s.sessions.find? number).map (·.order)
  | _ => none

/-! ## In time -/

/-- The order was credited after this copy of it was read. -/
def Outdated (db : Database) (copy : TmcPayOrder) : Prop :=
  copy.creditedLedgerId = none ∧
    ∃ o ∈ db.orders.rows, o.id = copy.id ∧ o.creditedLedgerId.isSome

instance Outdated.decidable (db : Database) (copy : TmcPayOrder) :
    Decidable (Outdated db copy) := by
  unfold Outdated; infer_instance

/-- What the invoice says of the payment is a paid status, or what the copy says already and so
is not written. -/
def Harmless (copy : TmcPayOrder) (invoice : Invoice) : Prop :=
  (invoice.report none none).status.Paid ∨ (invoice.report none none).status = copy.status

instance Harmless.decidable (copy : TmcPayOrder) (invoice : Invoice) :
    Decidable (Harmless copy invoice) := by
  unfold Harmless; infer_instance

/-- The body of a delivery gives its order no invoice, and no status that says otherwise is
written on a copy of the order that was read before it was credited. -/
def Timely (db : Database) (orderId : Uuid) (invoice : Invoice) : Webhooks.Phase → Prop
  | .applying order byExternalId => order.id = orderId →
    (order.invoiceId = none → (order.coveredBy invoice.fields).isOk = false) ∧
      (byExternalId = false → Outdated db order → Harmless order invoice)
  | _ => True

instance Timely.decidable (db : Database) (orderId : Uuid) (invoice : Invoice)
    (phase : Webhooks.Phase) : Decidable (Timely db orderId invoice phase) :=
  match phase with
  | .applying order byExternalId => inferInstanceAs (Decidable (order.id = orderId →
    (order.invoiceId = none → (order.coveredBy invoice.fields).isOk = false) ∧
      (byExternalId = false → Outdated db order → Harmless order invoice)))
  | .noting .. | .rereading _ | .failing _ | .done => inferInstanceAs (Decidable True)

/-- The step is in time for this order.  A purchase is where the order is not credited before
the purchase is over. -/
def InTime (orderId : Uuid) (s : State) : Step → Prop
  | .apply number _ _ => ∀ h ∈ s.handlers.rows, h.number = number →
      Timely s.db orderId h.delivery.invoice h.phase
  | .refresh number invoice _ => ∀ x ∈ s.sessions.rows, x.number = number → x.errand = .refresh →
      x.order.id = orderId → Outdated s.db x.order → Harmless x.order invoice
  | .invoice number _ | .refuse number _ => ∀ x ∈ s.sessions.rows, x.number = number →
      x.errand = .purchase → x.order.id = orderId → ∀ o ∈ s.db.orders.rows, o.id = orderId →
        o.creditedLedgerId = none
  | _ => True

instance InTime.decidable (orderId : Uuid) (s : State) (a : Step) :
    Decidable (InTime orderId s a) := by
  unfold InTime; split <;> infer_instance

end Conjectures.TmcPay

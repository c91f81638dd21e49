import Conjectures.Db.TmcPay

/-!
# Applying an invoice

`submission_api/tmc_pay.py` decides what a status means and
`submission_api/routers/tmc_pay.py` applies it: from a webhook, from a poll of the
order's owner, and from the reconciler.  `applyInvoice` is the one place a TMC PAY
status turns into money.
-/

namespace Conjectures.Api

open Lib Db

/-! ## Invoices -/

/-- `INVOICE_STATUSES`. -/
inductive InvoiceStatus where
  | created
  | pending
  | confirming
  | underpaid
  | confirmed
  | overpaid
  | expired
  | cancelled
  deriving DecidableEq

/-- The status as TMC PAY writes it. -/
def InvoiceStatus.text : InvoiceStatus → String
  | .created => "created"
  | .pending => "pending"
  | .confirming => "confirming"
  | .underpaid => "underpaid"
  | .confirmed => "confirmed"
  | .overpaid => "overpaid"
  | .expired => "expired"
  | .cancelled => "cancelled"

/-- The status as the stored state. -/
def InvoiceStatus.state : InvoiceStatus → TmcPayOrderState
  | .created => .created
  | .pending => .pending
  | .confirming => .confirming
  | .underpaid => .underpaid
  | .confirmed => .confirmed
  | .overpaid => .overpaid
  | .expired => .expired
  | .cancelled => .cancelled

/-- `PAID_STATUSES`. -/
def InvoiceStatus.Paid (s : InvoiceStatus) : Prop := s = .confirmed ∨ s = .overpaid

instance InvoiceStatus.decidablePaid (s : InvoiceStatus) : Decidable s.Paid := by
  unfold InvoiceStatus.Paid; infer_instance

/-- One TMC PAY invoice, as a webhook or a read reports it. -/
structure Invoice where
  invoiceId : String
  merchantId : String
  status : InvoiceStatus
  externalId : Option String
  fiatAmount : String
  fiatCurrency : String
  cryptoAmount : String
  cryptoAmountRao : Option Rao
  cryptoCurrency : String
  cryptoNetwork : String
  depositAddress : String
  exchangeRate : String
  commissionAmount : Option String
  hostedInvoiceUrl : Option String
  expiresAt : Option Instant
  confirmedAt : Option Instant
  deriving DecidableEq

/-- Whether TMC PAY confirmed this invoice after its own time to live. -/
def Invoice.late (i : Invoice) : Bool :=
  if i.status.Paid then
    match i.confirmedAt, i.expiresAt with
    | some confirmedAt, some expiresAt => expiresAt < confirmedAt
    | _, _ => false
  else false

/-- Whether a status means credits may be issued. -/
def creditsAreEarned (status : InvoiceStatus) (late creditLatePayments : Bool) : Bool :=
  if late then creditLatePayments else status.Paid

/-- What `attachInvoice` is given of an invoice. -/
def Invoice.fields (i : Invoice) : InvoiceFields where
  invoiceId := i.invoiceId
  merchantId := i.merchantId
  status := i.status.state
  fiatAmount := i.fiatAmount
  fiatCurrency := i.fiatCurrency
  exchangeRate := i.exchangeRate
  commissionAmount := i.commissionAmount
  cryptoAmountRao := i.cryptoAmountRao
  depositAddress := i.depositAddress
  invoiceExpiresAt := i.expiresAt
  hostedInvoiceUrl := i.hostedInvoiceUrl
  cryptoAmount := some i.cryptoAmount
  cryptoCurrency := i.cryptoCurrency
  cryptoNetwork := i.cryptoNetwork

/-! ## Applying one -/

structure TmcPaySettings where
  enabled : Bool
  merchantId : String
  creditLatePayments : Bool
  bonusSchedule : BonusSchedule
  pollSeconds : ℤ

/-- What is stored of an invoice's status, and whether a person has to look. -/
def Invoice.report (i : Invoice) (eventId : Option String) (polledAt : Option Instant) :
    Report where
  status := if i.late then .latePayment else i.status.state
  confirmedAt := i.confirmedAt
  needsReview := i.late || i.status = .overpaid || i.status = .underpaid
  eventId := eventId
  polledAt := polledAt

/-- How applying an invoice ended, where it raised nothing: with a commit, or rolled back
because the order was credited already. -/
inductive Application where
  | applied (order : TmcPayOrder) (db : Database)
  | alreadyCredited

/-- Apply an invoice's status to an order, crediting it if the status means paid.  What it
credits is recorded on the order; a status is all it takes from the invoice. -/
def applyInvoice (settings : TmcPaySettings) (db : Database) (order : TmcPayOrder)
    (invoice : Invoice) (now : Instant) (polledAt : Option Instant) (eventId : Option String) :
    Except DatabaseError Application :=
  if creditsAreEarned invoice.status invoice.late settings.creditLatePayments ∧
      order.creditedLedgerId = none then
    match settle db order (invoice.report eventId polledAt) now settings.bonusSchedule
        "system" with
    | .ok (settled, db) => .ok (.applied settled.order db)
    -- the rollback takes everything the transaction wrote with it
    | .error e => if e.IsRecordConflict then .ok .alreadyCredited else .error e
  else do
    let (order, db) ← recordStatus db order (invoice.report eventId polledAt)
    return .applied order db

theorem creditsAreEarned_paid {i : Invoice} {creditLatePayments : Bool}
    (h : creditsAreEarned i.status i.late creditLatePayments = true)
    (eventId : Option String) (polledAt : Option Instant) :
    (i.report eventId polledAt).status.Paid := by
  unfold creditsAreEarned at h
  unfold Invoice.report
  by_cases hlate : i.late = true
  · simp only [hlate, if_true]
    exact Or.inr (Or.inr rfl)
  · simp only [hlate, if_false, Bool.false_eq_true] at h ⊢
    rcases of_decide_eq_true h with hs | hs
    · rw [hs]; exact Or.inl rfl
    · rw [hs]; exact Or.inr (Or.inl rfl)

/-- The two ways an invoice is applied: it is settled, or its status is recorded. -/
theorem applyInvoice_spec {settings : TmcPaySettings} {db db' : Database}
    {order order' : TmcPayOrder} {invoice : Invoice} {now : Instant} {polledAt : Option Instant}
    {eventId : Option String}
    (h : applyInvoice settings db order invoice now polledAt eventId =
      .ok (.applied order' db')) :
    ((invoice.report eventId polledAt).status.Paid ∧ ∃ locked ∈ db.orders.rows,
        locked.id = order.id ∧ ∃ entry,
        order' = locked.settled (invoice.report eventId polledAt) now entry.id ∧
        OrderSettled db locked (invoice.report eventId polledAt) now settings.bonusSchedule
          entry db') ∨
      (order' = order.reported (invoice.report eventId polledAt) ∧
        saveOrder db order (order.reported (invoice.report eventId polledAt)) = .ok db') := by
  unfold applyInvoice at h
  split at h
  · rename_i hearned
    cases hsettle : settle db order (invoice.report eventId polledAt) now
        settings.bonusSchedule "system" with
    | error e =>
      simp only [hsettle] at h
      split at h <;> cases h
    | ok out =>
      simp only [hsettle, Except.ok.injEq, Application.applied.injEq] at h
      obtain ⟨rfl, rfl⟩ := h
      obtain ⟨locked, hmem, hid, horder, hspec⟩ := settle_spec hsettle
      exact Or.inl ⟨creditsAreEarned_paid hearned.1 _ _, locked, hmem, hid, out.1.entry, horder,
        hspec⟩
  · simp only [recordStatus, bind_eq_ok] at h
    obtain ⟨⟨order₁, db₁⟩, ⟨db₂, hsave, hr⟩, h⟩ := h
    cases hr
    cases h
    exact Or.inr ⟨rfl, hsave⟩

/-- An order is left as credited by another only where crediting it was refused. -/
theorem applyInvoice_alreadyCredited {settings : TmcPaySettings} {db : Database}
    {order : TmcPayOrder} {invoice : Invoice} {now : Instant} {polledAt : Option Instant}
    {eventId : Option String}
    (h : applyInvoice settings db order invoice now polledAt eventId = .ok .alreadyCredited) :
    order.creditedLedgerId = none ∧ ∃ e, settle db order (invoice.report eventId polledAt) now
      settings.bonusSchedule "system" = .error e ∧ e.IsRecordConflict := by
  unfold applyInvoice at h
  split at h
  · rename_i hearned
    refine ⟨hearned.2, ?_⟩
    cases hsettle : settle db order (invoice.report eventId polledAt) now
        settings.bonusSchedule "system" with
    | ok out => simp only [hsettle] at h; cases h
    | error e =>
      simp only [hsettle] at h
      split at h
      · rename_i hconflict
        exact ⟨e, rfl, hconflict⟩
      · cases h
  · simp only [bind_eq_ok] at h
    obtain ⟨_, -, h⟩ := h
    cases h

/-- A status is reported as CREATED only where TMC PAY says created. -/
theorem report_created {i : Invoice} {eventId : Option String} {polledAt : Option Instant}
    (h : (i.report eventId polledAt).status = .new ∨ (i.report eventId polledAt).status = .created) :
    i.status = .created := by
  unfold Invoice.report at h
  by_cases hlate : i.late = true
  · rw [hlate] at h
    rcases h with h | h <;> cases h
  · rw [if_neg hlate] at h
    cases hs : i.status <;> rw [hs] at h <;> rcases h with h | h <;> first | rfl | cases h

/-! ## Reading an order back -/

/-- One order, scoped to its owner. -/
def getOrder (db : Database) (orderId accountId : Uuid) : Except DatabaseError TmcPayOrder := do
  let order ← need (db.orders.find? orderId) (.recordNotFound "order not found")
  require (order.accountId = accountId) (.recordNotFound "order not found")
  return order

theorem getOrder_eq_ok {db : Database} {orderId accountId : Uuid} {order : TmcPayOrder} :
    getOrder db orderId accountId = .ok order ↔
      order ∈ db.orders.rows ∧ order.id = orderId ∧ order.accountId = accountId := by
  simp only [getOrder, bind_eq_ok, need_eq_ok, require_eq_ok, Table.find?_eq_some, pure,
    Except.pure, Except.ok.injEq]
  constructor
  · rintro ⟨o, ⟨hmem, hid⟩, -, haccount, rfl⟩
    exact ⟨hmem, hid, haccount⟩
  · rintro ⟨hmem, hid, haccount⟩
    exact ⟨order, ⟨hmem, hid⟩, (), haccount, rfl⟩

/-- The invoice that was read is applied; an order without one is returned as it is.  An
order that was credited by another is read again after the rollback. -/
def refreshOrder (settings : TmcPaySettings) (order : TmcPayOrder) (invoice : Invoice)
    (now : Instant) : Txn Database DatabaseError TmcPayOrder := fun db ↦
  if order.invoiceId = none then .ok (order, db)
  else do
    match ← applyInvoice settings db order invoice now (some now) none with
    | .applied order db => return (order, db)
    | .alreadyCredited => return (← getOrder db order.id order.accountId, db)

theorem refreshOrder_spec {settings : TmcPaySettings} {order order' : TmcPayOrder}
    {invoice : Invoice} {now : Instant} {db db' : Database}
    (h : refreshOrder settings order invoice now db = .ok (order', db')) :
    db' = db ∨ order.invoiceId.isSome ∧
      applyInvoice settings db order invoice now (some now) none = .ok (.applied order' db') := by
  unfold refreshOrder at h
  split at h
  · cases h
    exact Or.inl rfl
  · rename_i hinvoice
    obtain ⟨application, happly, h⟩ := bind_eq_ok.mp h
    cases application with
    | applied order₁ db₁ =>
      cases h
      exact Or.inr ⟨Option.isSome_iff_ne_none.mpr hinvoice, happly⟩
    | alreadyCredited =>
      simp only [bind_eq_ok] at h
      obtain ⟨order₁, -, h⟩ := h
      cases h
      exact Or.inl rfl

/-- Whether a read of the order asks TMC PAY: not for a settled one, and not for one that
was polled a moment ago. -/
def shouldRefresh (settings : TmcPaySettings) (order : TmcPayOrder) (now : Instant) : Bool :=
  settings.enabled ∧ order.status.Open ∧ order.invoiceId.isSome ∧
    ∀ polled ∈ order.lastPolledAt, settings.pollSeconds * 1000000 ≤ now - polled

/-- `GET` of one order.  `reading` is what TMC PAY answers, or nothing where it cannot be
read; that is not an error here. -/
def readOrder (settings : TmcPaySettings) (orderId accountId : Uuid) (reading : Option Invoice)
    (now : Instant) : Txn Database DatabaseError TmcPayOrder := fun db ↦ do
  let order ← getOrder db orderId accountId
  if shouldRefresh settings order now then
    match reading with
    | some invoice => refreshOrder settings order invoice now db
    | none => return (order, db)
  else return (order, db)

end Conjectures.Api

import Conjectures.Db.Credits

/-!
# Purchases through TMC PAY

`conjectures_subnet/db/tmc_pay.py`: the order a purchase is, the invoice it is sold
under, and the one transaction that turns it into credits.  This layer records what
TMC PAY reported; whether that means paid is not decided here.

A function is given the caller's copy of the order, the one it read earlier in its
transaction, and writing that copy back writes the columns that were changed in it
(`TmcPayOrder.flush`) and no others.
-/

namespace Conjectures.Db

open Lib

/-! ## States -/

/-- `OPEN_ORDER_STATES`: TMC PAY may still change its mind. -/
def TmcPayOrderState.Open (s : TmcPayOrderState) : Prop :=
  s = .new ∨ s = .created ∨ s = .pending ∨ s = .confirming ∨ s = .underpaid

instance TmcPayOrderState.decidableOpen (s : TmcPayOrderState) : Decidable s.Open := by
  unfold TmcPayOrderState.Open; infer_instance

/-- The states a credited order may be in. -/
def TmcPayOrderState.Paid (s : TmcPayOrderState) : Prop :=
  s = .confirmed ∨ s = .overpaid ∨ s = .latePayment

instance TmcPayOrderState.decidablePaid (s : TmcPayOrderState) : Decidable s.Paid := by
  unfold TmcPayOrderState.Paid; infer_instance

/-- `TAO_CURRENCY`. -/
def taoCurrency : String := "TAO"

/-- What the credits of an order cost. -/
def TmcPayOrder.requiredRao (o : TmcPayOrder) : Rao := o.credits * o.creditPriceRao

/-- What this order is worth in the unit of the ledger, or nothing before an invoice. -/
def paidRao (o : TmcPayOrder) : Option Rao :=
  if o.invoiceId = none then none
  else if o.cryptoCurrency = none ∨ o.cryptoCurrency = some taoCurrency then o.cryptoAmountRao
  else some o.requiredRao

/-- The `CHECK` constraints of `tmc_pay_orders`, beyond the lengths and shapes of its
texts. -/
def TmcPayOrder.Valid (o : TmcPayOrder) : Prop :=
  0 < o.credits ∧ 0 < o.creditPriceRao
    ∧ (∀ amount ∈ o.cryptoAmountRao, 0 < amount)
    ∧ (o.status = .new ∨ o.status = .failed ∨
        (o.invoiceId.isSome ∧ (o.cryptoAmountRao.isSome ∨ o.cryptoAmount.isSome)
          ∧ o.depositAddress.isSome ∧ o.fiatAmount.isSome ∧ o.fiatCurrency.isSome))
    ∧ (∀ amount ∈ o.cryptoAmountRao, o.requiredRao ≤ amount)
    ∧ (o.cryptoCurrency = none ∨ o.cryptoCurrency = some taoCurrency ∨ o.cryptoAmountRao = none)
    ∧ (o.creditedLedgerId = none ∨ (o.invoiceId.isSome ∧
        (o.cryptoAmountRao.isSome ∨
          (o.cryptoCurrency.isSome ∧ o.cryptoCurrency ≠ some taoCurrency))))
    ∧ (o.status = .failed → o.failureReason.isSome)

instance TmcPayOrder.decidableValid (o : TmcPayOrder) : Decidable o.Valid := by
  unfold TmcPayOrder.Valid; infer_instance

/-! ## Writing a copy back -/

/-- The row after a copy that was read as `seen` is written back as `new`. -/
def TmcPayOrder.flush (seen new current : TmcPayOrder) : TmcPayOrder :=
  { current with
    status := written seen.status new.status current.status
    invoiceId := written seen.invoiceId new.invoiceId current.invoiceId
    merchantId := written seen.merchantId new.merchantId current.merchantId
    fiatAmount := written seen.fiatAmount new.fiatAmount current.fiatAmount
    fiatCurrency := written seen.fiatCurrency new.fiatCurrency current.fiatCurrency
    exchangeRate := written seen.exchangeRate new.exchangeRate current.exchangeRate
    commissionAmount := written seen.commissionAmount new.commissionAmount current.commissionAmount
    cryptoAmountRao := written seen.cryptoAmountRao new.cryptoAmountRao current.cryptoAmountRao
    cryptoAmount := written seen.cryptoAmount new.cryptoAmount current.cryptoAmount
    cryptoCurrency := written seen.cryptoCurrency new.cryptoCurrency current.cryptoCurrency
    cryptoNetwork := written seen.cryptoNetwork new.cryptoNetwork current.cryptoNetwork
    depositAddress := written seen.depositAddress new.depositAddress current.depositAddress
    hostedInvoiceUrl := written seen.hostedInvoiceUrl new.hostedInvoiceUrl current.hostedInvoiceUrl
    invoiceExpiresAt := written seen.invoiceExpiresAt new.invoiceExpiresAt current.invoiceExpiresAt
    creditedLedgerId := written seen.creditedLedgerId new.creditedLedgerId current.creditedLedgerId
    needsReview := written seen.needsReview new.needsReview current.needsReview
    failureReason := written seen.failureReason new.failureReason current.failureReason
    lastEventId := written seen.lastEventId new.lastEventId current.lastEventId
    lastPolledAt := written seen.lastPolledAt new.lastPolledAt current.lastPolledAt
    confirmedAt := written seen.confirmedAt new.confirmedAt current.confirmedAt }

@[simp] theorem TmcPayOrder.flush_id (seen new current : TmcPayOrder) :
    (flush seen new current).id = current.id := rfl

/-- Two versions of one order: the columns that are never written agree. -/
def TmcPayOrder.SameOrder (o o' : TmcPayOrder) : Prop :=
  o.id = o'.id ∧ o.accountId = o'.accountId ∧ o.credits = o'.credits ∧
    o.creditPriceRao = o'.creditPriceRao ∧ o.externalId = o'.externalId ∧
    o.createdAt = o'.createdAt

theorem TmcPayOrder.SameOrder.refl (o : TmcPayOrder) : o.SameOrder o :=
  ⟨rfl, rfl, rfl, rfl, rfl, rfl⟩

theorem TmcPayOrder.SameOrder.trans {o₁ o₂ o₃ : TmcPayOrder} (h : o₁.SameOrder o₂)
    (h' : o₂.SameOrder o₃) : o₁.SameOrder o₃ := by
  obtain ⟨hid, haccount, hcredits, hprice, hexternal, hcreated⟩ := h
  obtain ⟨hid', haccount', hcredits', hprice', hexternal', hcreated'⟩ := h'
  exact ⟨hid.trans hid', haccount.trans haccount', hcredits.trans hcredits',
    hprice.trans hprice', hexternal.trans hexternal', hcreated.trans hcreated'⟩

/-- A copy of the row as it is now is written back as it is. -/
theorem TmcPayOrder.flush_current {current new : TmcPayOrder} (h : new.SameOrder current) :
    flush current new current = new := by
  obtain ⟨hid, haccount, hcredits, hprice, hexternal, hcreated⟩ := h
  cases new
  cases current
  simp only at hid haccount hcredits hprice hexternal hcreated
  subst hid haccount hcredits hprice hexternal hcreated
  simp [flush]

/-- `session.flush()` of one order: the constraints are the database's to check. -/
def saveOrder (db : Database) (seen new : TmcPayOrder) : Except DatabaseError Database := do
  let current ← need (db.orders.find? seen.id) (.recordNotFound "order not found")
  let row := TmcPayOrder.flush seen new current
  require row.Valid (.integrityError "tmc_pay_orders")
  require (row.invoiceId = current.invoiceId ∨ ¬ ∃ o ∈ db.orders.rows, o.id ≠ row.id ∧
    o.invoiceId = row.invoiceId ∧ row.invoiceId.isSome)
    (.duplicateTmcPayInvoice (row.invoiceId.getD ""))
  return { db with
    orders := db.orders.modify current.id (TmcPayOrder.flush seen new)
      (TmcPayOrder.flush_id seen new) }

theorem saveOrder_spec {db db' : Database} {seen new : TmcPayOrder}
    (h : saveOrder db seen new = .ok db') :
    ∃ current ∈ db.orders.rows, current.id = seen.id ∧
      (TmcPayOrder.flush seen new current).Valid ∧
      db' = { db with
        orders := db.orders.modify current.id (TmcPayOrder.flush seen new)
          (TmcPayOrder.flush_id seen new) } := by
  simp only [saveOrder, bind_eq_ok, need_eq_ok, require_eq_ok, Table.find?_eq_some] at h
  obtain ⟨current, ⟨hmem, hid⟩, -, hvalid, -, -, h⟩ := h
  cases h
  exact ⟨current, hmem, hid, hvalid, rfl⟩

/-! ## The order and its invoice -/

/-- Record the intent to buy, before any invoice exists. -/
def createOrder (db : Database) (id accountId : Uuid) (credits : ℤ) (creditPriceRao : Rao)
    (externalId : String) (createdAt : Instant) :
    Except DatabaseError (TmcPayOrder × Database) := do
  require (0 < credits) (.valueError "a credit purchase must be for at least one credit")
  let order : TmcPayOrder :=
    { id, accountId, credits, creditPriceRao, externalId, createdAt
      status := .new
      invoiceId := none, merchantId := none, fiatAmount := none, fiatCurrency := none
      exchangeRate := none, commissionAmount := none, cryptoAmountRao := none
      cryptoAmount := none, cryptoCurrency := none, cryptoNetwork := none
      depositAddress := none, hostedInvoiceUrl := none, invoiceExpiresAt := none
      creditedLedgerId := none, needsReview := false, failureReason := none
      lastEventId := none, lastPolledAt := none, confirmedAt := none }
  require order.Valid (.integrityError "tmc_pay_orders")
  require (¬ ∃ o ∈ db.orders.rows, o.externalId = externalId) (.duplicateTmcPayOrder externalId)
  let orders ← need (db.orders.insert? order) (.integrityError "tmc_pay_orders_pkey")
  return (order, { db with orders })

/-- The row a purchase opens. -/
theorem createOrder_spec {db db' : Database} {id accountId : Uuid} {credits : ℤ}
    {creditPriceRao : Rao} {externalId : String} {createdAt : Instant} {o : TmcPayOrder}
    (h : createOrder db id accountId credits creditPriceRao externalId createdAt = .ok (o, db')) :
    o.Valid ∧ o.invoiceId = none ∧ o.creditedLedgerId = none ∧
      db'.orders.rows = db.orders.rows ++ [o] ∧ db' = { db with orders := db'.orders } := by
  simp only [createOrder, bind_eq_ok, require_eq_ok, need_eq_ok] at h
  obtain ⟨-, -, -, hvalid, -, -, orders, hins, h⟩ := h
  cases h
  exact ⟨hvalid, rfl, rfl, Table.rows_of_insert? hins, rfl⟩

/-- What `attachInvoice` records of an invoice. -/
structure InvoiceFields where
  invoiceId : String
  merchantId : String
  status : TmcPayOrderState
  fiatAmount : String
  fiatCurrency : String
  exchangeRate : String
  commissionAmount : Option String
  cryptoAmountRao : Option Rao
  depositAddress : String
  invoiceExpiresAt : Option Instant
  hostedInvoiceUrl : Option String
  cryptoAmount : Option String
  cryptoCurrency : String
  cryptoNetwork : String
  deriving DecidableEq

/-- The invoice is one the order can be sold under: in TAO it covers the credits, in
anything else it carries no rao. -/
def TmcPayOrder.coveredBy (o : TmcPayOrder) (f : InvoiceFields) : Except DatabaseError Unit :=
  if f.cryptoCurrency = taoCurrency then do
    let amount ← need f.cryptoAmountRao (.valueError "a TAO invoice must carry an amount in rao")
    require (o.requiredRao ≤ amount)
      (.valueError (s!"invoice locks {amount} rao, which is less than the "
        ++ s!"{o.requiredRao} rao the credits cost"))
  else
    require (f.cryptoAmountRao = none)
      (.valueError (s!"an invoice in {f.cryptoCurrency} must not carry a rao amount; "
        ++ "rao is TAO's unit"))

/-- The order under the invoice.  A link and a commission are only ever set. -/
def TmcPayOrder.invoiced (o : TmcPayOrder) (f : InvoiceFields) : TmcPayOrder :=
  { o with
    invoiceId := some f.invoiceId
    merchantId := some f.merchantId
    status := f.status
    fiatAmount := some f.fiatAmount
    fiatCurrency := some f.fiatCurrency
    exchangeRate := some f.exchangeRate
    cryptoAmountRao := f.cryptoAmountRao
    cryptoAmount := f.cryptoAmount
    cryptoCurrency := some f.cryptoCurrency
    cryptoNetwork := some f.cryptoNetwork
    depositAddress := some f.depositAddress
    invoiceExpiresAt := f.invoiceExpiresAt
    hostedInvoiceUrl := f.hostedInvoiceUrl <|> o.hostedInvoiceUrl
    commissionAmount := f.commissionAmount <|> o.commissionAmount }

/-- Record the invoice TMC PAY created for this order. -/
def attachInvoice (db : Database) (order : TmcPayOrder) (f : InvoiceFields) :
    Except DatabaseError (TmcPayOrder × Database) := do
  order.coveredBy f
  let db ← saveOrder db order (order.invoiced f)
  return (order.invoiced f, db)

theorem attachInvoice_spec {db db' : Database} {order order' : TmcPayOrder} {f : InvoiceFields}
    (h : attachInvoice db order f = .ok (order', db')) :
    order' = order.invoiced f ∧ order.coveredBy f = .ok () ∧
      saveOrder db order (order.invoiced f) = .ok db' := by
  simp only [attachInvoice, bind_eq_ok] at h
  obtain ⟨_, hcovered, db₁, hsave, h⟩ := h
  cases h
  exact ⟨rfl, hcovered, hsave⟩

/-- An order under an invoice it can be sold under is worth something. -/
theorem paidRao_invoiced {o : TmcPayOrder} {f : InvoiceFields} (hcovered : o.coveredBy f = .ok ())
    (hvalid : (o.invoiced f).Valid) :
    ∃ amount, paidRao (o.invoiced f) = some amount ∧ 0 < amount := by
  unfold TmcPayOrder.coveredBy at hcovered
  unfold paidRao
  rw [if_neg (show (o.invoiced f).invoiceId ≠ none from fun h ↦ by cases h)]
  split at hcovered
  · rename_i htao
    simp only [bind_eq_ok, need_eq_ok] at hcovered
    obtain ⟨amount, hamount, -⟩ := hcovered
    refine ⟨amount, ?_, hvalid.2.2.1 amount hamount⟩
    rw [if_pos (Or.inr (show (o.invoiced f).cryptoCurrency = _ from congrArg some htao))]
    exact hamount
  · rename_i htao
    refine ⟨(o.invoiced f).requiredRao, ?_, Int.mul_pos hvalid.1 hvalid.2.1⟩
    rw [if_neg]
    rintro (h | h)
    · cases h
    · exact htao (Option.some.inj h)

def TmcPayOrder.failed (o : TmcPayOrder) (reason : String) : TmcPayOrder :=
  { o with status := .failed, failureReason := some reason }

@[simp] theorem TmcPayOrder.failed_id (reason : String) (o : TmcPayOrder) :
    (o.failed reason).id = o.id := rfl

/-- No invoice could be created, so nothing can be paid against this order. -/
def failOrder (db : Database) (order : TmcPayOrder) (reason : String) :
    Except DatabaseError Database :=
  saveOrder db order (order.failed reason)

/-- Mark one order FAILED by id, if it is still NEW. -/
def failOrderById (db : Database) (orderId : Uuid) (reason : String) : Database :=
  { db with
    orders := db.orders.update (fun o ↦ o.id = orderId ∧ o.status = .new) (·.failed reason)
      (TmcPayOrder.failed_id reason) }

/-! ## Looking orders up -/

/-- The order an invoice belongs to. -/
def findByInvoice (db : Database) (invoiceId : String) : Option TmcPayOrder :=
  db.orders.rows.find? fun o ↦ o.invoiceId = some invoiceId

theorem findByInvoice_eq_some {db : Database} {invoiceId : String} {o : TmcPayOrder}
    (h : findByInvoice db invoiceId = some o) :
    o ∈ db.orders.rows ∧ o.invoiceId = some invoiceId := by
  unfold findByInvoice at h
  exact ⟨List.mem_of_find?_eq_some h, by simpa using List.find?_some h⟩

/-- The order behind an `external_id`. -/
def findByExternalId (db : Database) (externalId : String) : Option TmcPayOrder :=
  db.orders.rows.find? fun o ↦ o.externalId = externalId

theorem findByExternalId_eq_some {db : Database} {externalId : String} {o : TmcPayOrder}
    (h : findByExternalId db externalId = some o) :
    o ∈ db.orders.rows ∧ o.externalId = externalId := by
  unfold findByExternalId at h
  exact ⟨List.mem_of_find?_eq_some h, by simpa using List.find?_some h⟩

/-- Orders TMC PAY may still have news about and that nobody has polled since `before`. -/
def dueOrders (db : Database) (before : Option Instant) : List TmcPayOrder :=
  db.orders.rows.filter fun o ↦ o.status.Open ∧
    ∀ t ∈ before, ∀ polled ∈ o.lastPolledAt, polled < t

/-- The reconciler's queue: the first `limit` of the due orders, oldest first. -/
def openOrders (db : Database) (limit : ℕ) (before : Option Instant) : List TmcPayOrder :=
  ((dueOrders db before).mergeSort fun o o' ↦ o.createdAt ≤ o'.createdAt).take limit

/-- A queue that holds every due order leaves none out. -/
theorem mem_openOrders {db : Database} {limit : ℕ} {before : Option Instant} {o : TmcPayOrder}
    (hfits : (dueOrders db before).length ≤ limit) (ho : o ∈ dueOrders db before) :
    o ∈ openOrders db limit before := by
  unfold openOrders
  rw [List.take_of_length_le (by rw [List.length_mergeSort]; exact hfits)]
  exact List.mem_mergeSort.mpr ho

/-! ## Applying what TMC PAY reported -/

/-- What a reading says beside the status. -/
structure Report where
  status : TmcPayOrderState
  confirmedAt : Option Instant
  needsReview : Bool
  eventId : Option String
  polledAt : Option Instant
  deriving DecidableEq

/-- The marks every reading leaves. -/
def TmcPayOrder.marked (o : TmcPayOrder) (r : Report) : TmcPayOrder :=
  { o with
    lastEventId := r.eventId <|> o.lastEventId
    lastPolledAt := r.polledAt <|> o.lastPolledAt }

/-- The order with a status applied.  A credited order keeps its paid status, and is
flagged when it is told otherwise. -/
def TmcPayOrder.reported (o : TmcPayOrder) (r : Report) : TmcPayOrder :=
  if o.creditedLedgerId.isSome ∧ ¬ r.status.Paid then
    { o.marked r with needsReview := true }
  else
    { o.marked r with
      status := r.status
      confirmedAt := r.confirmedAt <|> o.confirmedAt
      needsReview := o.needsReview || r.needsReview }

/-- Apply a status TMC PAY reported.  Issues no credits. -/
def recordStatus (db : Database) (order : TmcPayOrder) (r : Report) :
    Except DatabaseError (TmcPayOrder × Database) := do
  let db ← saveOrder db order (order.reported r)
  return (order.reported r, db)

/-- The order once its credits exist. -/
def TmcPayOrder.settled (o : TmcPayOrder) (r : Report) (now : Instant) (ledgerId : ℕ) :
    TmcPayOrder :=
  { o.marked r with
    status := r.status
    confirmedAt := some (r.confirmedAt.getD now)
    creditedLedgerId := some ledgerId
    needsReview := o.needsReview || r.needsReview }

structure SettledOrder where
  order : TmcPayOrder
  entry : CreditLedgerEntry
  balance : CreditBalance
  deriving DecidableEq

/-- Issue credits for a paid invoice, once.  The account is locked, the order is read
again under its lock, and what is credited is what the row is worth. -/
def settle (db : Database) (order : TmcPayOrder) (r : Report) (now : Instant)
    (schedule : BonusSchedule) (createdBy : String) :
    Except DatabaseError (SettledOrder × Database) := do
  require ((paidRao order).isSome) (.tmcPayOrderNotInvoiced order.id)
  lockAccount db order.accountId
  let locked ← need (db.orders.find? order.id) (.recordNotFound "order not found")
  require (locked.creditedLedgerId = none) (.tmcPayOrderAlreadyCredited locked.id)
  let amountRao ← need (paidRao locked) (.tmcPayOrderNotInvoiced locked.id)
  let (entry, db) ← recordEntry db
    { accountId := locked.accountId, kind := .deposit, amountRao
      tmcPayOrderId := some locked.id, createdBy }
  let db ← recordBonus db locked.accountId locked.credits
    (bonusRaoForCredits locked.credits locked.creditPriceRao schedule) locked.creditPriceRao
    createdBy
  let db ← saveOrder db locked (locked.settled r now entry.id)
  return (⟨locked.settled r now entry.id, entry,
    creditBalance db locked.accountId locked.creditPriceRao now 1⟩, db)

/-- What `settle` does when it goes through: one DEPOSIT entry for what the row is worth,
a bonus if one was earned, and the order that points at the entry. -/
structure OrderSettled (db : Database) (locked : TmcPayOrder) (r : Report) (now : Instant)
    (schedule : BonusSchedule) (entry : CreditLedgerEntry) (db' : Database) : Prop where
  uncredited : locked.creditedLedgerId = none
  amount : paidRao locked = some entry.amountRao
  accepted : LedgerAccepts db.ledger entry
  number : entry.id = db.ledger.nextId
  kind : entry.kind = .deposit
  names : entry.tmcPayOrderId = some locked.id
  account : entry.accountId = locked.accountId
  ledger : ∃ bonus, BonusEntries bonus locked.accountId
      (bonusRaoForCredits locked.credits locked.creditPriceRao schedule) ∧
    db'.ledger.rows = db.ledger.rows ++ entry :: bonus
  valid : (locked.settled r now entry.id).Valid
  orders : db'.orders = db.orders.modify locked.id
    (TmcPayOrder.flush locked (locked.settled r now entry.id)) (TmcPayOrder.flush_id _ _)
  rest : db' = { db with ledger := db'.ledger, orders := db'.orders }

theorem TmcPayOrder.settled_sameOrder (o : TmcPayOrder) (r : Report) (now : Instant)
    (ledgerId : ℕ) : (o.settled r now ledgerId).SameOrder o := ⟨rfl, rfl, rfl, rfl, rfl, rfl⟩

theorem settle_spec {db db' : Database} {order : TmcPayOrder} {r : Report} {now : Instant}
    {schedule : BonusSchedule} {createdBy : String} {out : SettledOrder}
    (h : settle db order r now schedule createdBy = .ok (out, db')) :
    ∃ locked ∈ db.orders.rows, locked.id = order.id ∧
      out.order = locked.settled r now out.entry.id ∧
      OrderSettled db locked r now schedule out.entry db' := by
  simp only [settle, bind_eq_ok, require_eq_ok, need_eq_ok, Table.find?_eq_some] at h
  obtain ⟨-, -, -, -, locked, ⟨hmem, hid⟩, -, hopen, amountRao, hamount, ⟨entry, db₁⟩, hentry,
    db₂, hbonus, db₃, hsave, h⟩ := h
  obtain ⟨hacc, hr⟩ := recordEntry_eq_ok.mp hentry
  obtain ⟨rfl, rfl⟩ := Prod.mk.inj hr
  obtain ⟨bonus, hb, hrows, hrest⟩ := recordBonus_spec hbonus
  have horders : db₂.orders = db.orders := by rw [hrest]
  obtain ⟨current, hcurrent, hcid, hvalid, hdb₃⟩ := saveOrder_spec hsave
  rw [horders] at hcurrent
  obtain rfl : current = locked := db.orders.eq_of_key hcurrent hmem hcid
  rw [TmcPayOrder.flush_current (current.settled_sameOrder ..)] at hvalid
  cases h
  refine ⟨current, hmem, hid, rfl, ?_⟩
  exact
    { uncredited := hopen
      amount := hamount
      accepted := hacc
      number := rfl
      kind := rfl
      names := rfl
      account := rfl
      ledger := ⟨bonus, hb, by rw [hdb₃, hrows]; simp⟩
      valid := hvalid
      orders := by rw [hdb₃, horders]
      rest := by rw [hdb₃, hrest] }

/-- The rows `expireLapsedOrders` closes: no deposit was seen, and the invoice is past its
time to live. -/
def TmcPayOrder.Lapsed (o : TmcPayOrder) (now : Instant) : Prop :=
  (o.status = .new ∨ o.status = .created) ∧ ∃ t ∈ o.invoiceExpiresAt, t ≤ now

instance TmcPayOrder.decidableLapsed (o : TmcPayOrder) (now : Instant) :
    Decidable (o.Lapsed now) := by
  unfold TmcPayOrder.Lapsed; infer_instance

def TmcPayOrder.closed (o : TmcPayOrder) : TmcPayOrder := { o with status := .expired }

@[simp] theorem TmcPayOrder.closed_id (o : TmcPayOrder) : o.closed.id = o.id := rfl

/-- Close orders whose time to live passed with nothing confirmed. -/
def expireLapsedOrders (db : Database) (now : Instant) : Database :=
  { db with orders := db.orders.update (·.Lapsed now) (·.closed) TmcPayOrder.closed_id }

theorem mem_expireLapsedOrders {db : Database} {now : Instant} {o' : TmcPayOrder} :
    o' ∈ (expireLapsedOrders db now).orders.rows ↔
      ∃ o ∈ db.orders.rows, (if o.Lapsed now then o.closed else o) = o' := by
  have := @Table.mem_update _ _ _ (fun o : TmcPayOrder ↦ decide (o.Lapsed now)) (·.closed)
    TmcPayOrder.closed_id db.orders o'
  simp only [decide_eq_true_eq] at this
  exact this

/-! ## Webhook deliveries -/

/-- The row of a delivery that is claimed again. -/
def TmcPayWebhookDelivery.reclaimed (d : TmcPayWebhookDelivery)
    (invoiceId event status : Option String) : TmcPayWebhookDelivery :=
  { d with outcome := .ignored, invoiceId, event, status }

@[simp] theorem TmcPayWebhookDelivery.reclaimed_id (invoiceId event status : Option String)
    (d : TmcPayWebhookDelivery) :
    (d.reclaimed invoiceId event status).webhookId = d.webhookId := rfl

/-- The row of a delivery once its outcome is known. -/
def TmcPayWebhookDelivery.noted (d : TmcPayWebhookDelivery) (outcome : DeliveryOutcome)
    (orderId : Option Uuid) : TmcPayWebhookDelivery :=
  { d with outcome, orderId := orderId <|> d.orderId }

@[simp] theorem TmcPayWebhookDelivery.noted_id (outcome : DeliveryOutcome)
    (orderId : Option Uuid) (d : TmcPayWebhookDelivery) :
    (d.noted outcome orderId).webhookId = d.webhookId := rfl

/-- Claim a delivery id, or report that it has already been seen.  A delivery that
failed is claimed again. -/
def claimDelivery (db : Database) (webhookId : String) (invoiceId event status : Option String) :
    Bool × Database :=
  match db.deliveries.insert? ⟨webhookId, none, invoiceId, event, status, .ignored⟩ with
  | some deliveries => (true, { db with deliveries })
  | none =>
    match db.deliveries.find? webhookId with
    | some delivery =>
      if delivery.outcome = .failed then
        (true, { db with
          deliveries := db.deliveries.modify webhookId (·.reclaimed invoiceId event status)
            (TmcPayWebhookDelivery.reclaimed_id invoiceId event status) })
      else (false, db)
    | none => (false, db)

/-- Record what a claimed delivery ended up doing. -/
def noteDeliveryOutcome (db : Database) (webhookId : String) (outcome : DeliveryOutcome)
    (orderId : Option Uuid) : Database :=
  { db with
    deliveries := db.deliveries.modify webhookId (·.noted outcome orderId)
      (TmcPayWebhookDelivery.noted_id outcome orderId) }

def TmcPayOrder.flagged (o : TmcPayOrder) : TmcPayOrder := { o with needsReview := true }

@[simp] theorem TmcPayOrder.flagged_id (o : TmcPayOrder) : o.flagged.id = o.id := rfl

/-- Set `needs_review` by id. -/
def flagForReview (db : Database) (orderId : Uuid) : Database :=
  { db with orders := db.orders.modify orderId (·.flagged) TmcPayOrder.flagged_id }

end Conjectures.Db

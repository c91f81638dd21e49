import Conjectures.Api.Webhook

/-!
# What a reading writes

A reading of an invoice that is applied to the row of its order, however it arrives, either
sells nothing (`Undisturbed`) or settles one order (`Settles`).  What a reading does that is
applied to an older copy is in `TmcPay.Credit`.

A transaction that locks the row of its order works on a copy that is the row, so the copy
it writes back is the row it leaves (`saveOrder_current`).
-/

namespace Conjectures.TmcPay

open Lib Db Api

/-! ## Nothing sold -/

/-- The order is worth a positive amount. -/
def Worth (o : TmcPayOrder) : Prop := ∃ amount, paidRao o = some amount ∧ 0 < amount

/-- A later version of an order to which nothing was sold in between.  Once there is an
invoice the order is worth what it was worth, and credited and paid it stays so. -/
structure Follows (o o' : TmcPayOrder) : Prop where
  same : o'.SameOrder o
  credited : o'.creditedLedgerId = o.creditedLedgerId
  paid : o.invoiceId.isSome → o.creditedLedgerId.isSome → o.status.Paid → o'.status.Paid
  invoice : o.invoiceId.isSome → o'.invoiceId = o.invoiceId ∧ paidRao o' = paidRao o
  worth : o'.invoiceId.isSome → o.invoiceId.isSome ∨ Worth o'

theorem Follows.refl (o : TmcPayOrder) : Follows o o where
  same := .refl o
  credited := rfl
  paid _ _ h := h
  invoice _ := ⟨rfl, rfl⟩
  worth := Or.inl

theorem Follows.trans {o₁ o₂ o₃ : TmcPayOrder} (h : Follows o₁ o₂) (h' : Follows o₂ o₃) :
    Follows o₁ o₃ where
  same := h'.same.trans h.same
  credited := h'.credited.trans h.credited
  paid hi hc hp :=
    h'.paid (by rw [(h.invoice hi).1]; exact hi) (by rw [h.credited]; exact hc) (h.paid hi hc hp)
  invoice hi := by
    obtain ⟨hid, hrao⟩ := h.invoice hi
    obtain ⟨hid', hrao'⟩ := h'.invoice (by rw [hid]; exact hi)
    exact ⟨hid'.trans hid, hrao'.trans hrao⟩
  worth hi := by
    rcases h'.worth hi with hi | hworth
    · rcases h.worth hi with hi' | hworth
      · exact Or.inl hi'
      · exact Or.inr (by rw [Worth, (h'.invoice hi).2]; exact hworth)
    · exact Or.inr hworth

/-- Nothing was sold: the ledger is as it was, and the orders are those there were. -/
structure Undisturbed (db db' : Database) : Prop where
  ledger : db'.ledger = db.ledger
  orders : ∀ o ∈ db.orders.rows, ∃ o' ∈ db'.orders.rows, Follows o o'
  origin : ∀ o' ∈ db'.orders.rows, ∃ o ∈ db.orders.rows, Follows o o'

theorem Undisturbed.of_eq {db db' : Database} (hledger : db'.ledger = db.ledger)
    (horders : db'.orders = db.orders) : Undisturbed db db' where
  ledger := hledger
  orders o ho := ⟨o, by rw [horders]; exact ho, .refl o⟩
  origin o ho := ⟨o, by rw [← horders]; exact ho, .refl o⟩

theorem Undisturbed.refl (db : Database) : Undisturbed db db := .of_eq rfl rfl

theorem Undisturbed.trans {db₁ db₂ db₃ : Database} (h : Undisturbed db₁ db₂)
    (h' : Undisturbed db₂ db₃) : Undisturbed db₁ db₃ where
  ledger := h'.ledger.trans h.ledger
  orders o ho := by
    obtain ⟨o', ho', hf⟩ := h.orders o ho
    obtain ⟨o'', ho'', hf'⟩ := h'.orders o' ho'
    exact ⟨o'', ho'', hf.trans hf'⟩
  origin o ho := by
    obtain ⟨o', ho', hf⟩ := h'.origin o ho
    obtain ⟨o'', ho'', hf'⟩ := h.origin o' ho'
    exact ⟨o'', ho'', hf'.trans hf⟩

/-- An update that leaves every order one that follows it. -/
theorem Undisturbed.update {db db' : Database} {p : TmcPayOrder → Bool}
    {f : TmcPayOrder → TmcPayOrder} (hf : ∀ o, (f o).id = o.id)
    (hledger : db'.ledger = db.ledger) (horders : db'.orders = db.orders.update p f hf)
    (hfollows : ∀ o ∈ db.orders.rows, p o = true → Follows o (f o)) : Undisturbed db db' := by
  have heach : ∀ o ∈ db.orders.rows, Follows o (if p o then f o else o) := by
    intro o ho
    split
    · rename_i hp
      exact hfollows o ho hp
    · exact .refl o
  refine ⟨hledger, ?_, ?_⟩
  · intro o ho
    exact ⟨_, by rw [horders, Table.mem_update]; exact ⟨o, ho, rfl⟩, heach o ho⟩
  · intro o' ho'
    rw [horders, Table.mem_update] at ho'
    obtain ⟨o, ho, rfl⟩ := ho'
    exact ⟨o, ho, heach o ho⟩

/-! ## Writing the current row -/

/-- Writing back a copy that is the row leaves the copy in its place. -/
theorem saveOrder_current {db db' : Database} {seen new : TmcPayOrder}
    (hseen : seen ∈ db.orders.rows) (hsame : new.SameOrder seen)
    (h : saveOrder db seen new = .ok db') :
    new.Valid ∧ db'.ledger = db.ledger ∧ db'.deliveries = db.deliveries ∧
      ∀ o, o ∈ db'.orders.rows ↔ (o ∈ db.orders.rows ∧ o.id ≠ seen.id) ∨ o = new := by
  obtain ⟨current, hmem, hid, hvalid, rfl⟩ := saveOrder_spec h
  obtain rfl : current = seen := db.orders.eq_of_key hmem hseen hid
  rw [TmcPayOrder.flush_current hsame] at hvalid
  refine ⟨hvalid, rfl, rfl, fun o ↦ ?_⟩
  have := @Table.mem_modify_of_mem _ _ _ _ (TmcPayOrder.flush current new)
    (TmcPayOrder.flush_id current new) _ current o hseen
  rw [TmcPayOrder.flush_current hsame] at this
  exact this

/-- One row replaced by a version that follows it. -/
theorem Undisturbed.replace {db db' : Database} {old new : TmcPayOrder}
    (hold : old ∈ db.orders.rows) (hledger : db'.ledger = db.ledger)
    (hrows : ∀ o, o ∈ db'.orders.rows ↔ (o ∈ db.orders.rows ∧ o.id ≠ old.id) ∨ o = new)
    (hfollows : Follows old new) : Undisturbed db db' where
  ledger := hledger
  orders o ho := by
    by_cases hid : o.id = old.id
    · rw [db.orders.eq_of_key ho hold hid]
      exact ⟨new, (hrows new).mpr (Or.inr rfl), hfollows⟩
    · exact ⟨o, (hrows o).mpr (Or.inl ⟨ho, hid⟩), .refl o⟩
  origin o ho := by
    rcases (hrows o).mp ho with ⟨ho, -⟩ | rfl
    · exact ⟨o, ho, .refl o⟩
    · exact ⟨old, hold, hfollows⟩

/-! ## Statuses -/

theorem reported_sameOrder (o : TmcPayOrder) (r : Report) : (o.reported r).SameOrder o := by
  unfold TmcPayOrder.reported
  split <;> exact ⟨rfl, rfl, rfl, rfl, rfl, rfl⟩

/-- A reported status never takes a credited order out of a paid one. -/
theorem reported_follows (o : TmcPayOrder) (r : Report) : Follows o (o.reported r) where
  same := reported_sameOrder o r
  credited := by unfold TmcPayOrder.reported; split <;> rfl
  paid _ hcredited hpaid := by
    unfold TmcPayOrder.reported
    split
    · exact hpaid
    · rename_i h
      exact not_not.mp fun hnot ↦ h ⟨hcredited, hnot⟩
  invoice _ := by
    unfold TmcPayOrder.reported
    split <;> exact ⟨rfl, rfl⟩
  worth := by
    unfold TmcPayOrder.reported
    split <;> exact Or.inl

theorem invoiced_sameOrder (o : TmcPayOrder) (f : InvoiceFields) :
    (o.invoiced f).SameOrder o := ⟨rfl, rfl, rfl, rfl, rfl, rfl⟩

/-- The first invoice of an order. -/
theorem invoiced_follows {o : TmcPayOrder} (h : o.invoiceId = none) {f : InvoiceFields}
    (hworth : Worth (o.invoiced f)) : Follows o (o.invoiced f) where
  same := invoiced_sameOrder o f
  credited := rfl
  paid hinvoice := by rw [h] at hinvoice; cases hinvoice
  invoice hinvoice := by rw [h] at hinvoice; cases hinvoice
  worth _ := Or.inr hworth

/-! ## One order sold -/

/-- An order is credited: the row `locked` becomes `after`, and the ledger gets one DEPOSIT
entry for what `locked` is worth and the bonus it earned. -/
structure Settles (db db' : Database) (locked after : TmcPayOrder) (entry : CreditLedgerEntry)
    (bonus : List CreditLedgerEntry) : Prop where
  mem : locked ∈ db.orders.rows
  uncredited : locked.creditedLedgerId = none
  amount : paidRao locked = some entry.amountRao
  kind : entry.kind = .deposit
  names : entry.tmcPayOrderId = some locked.id
  bonuses : bonus.length ≤ 1 ∧ ∀ b ∈ bonus, b.kind = .bonus ∧ b.tmcPayOrderId = none
  ledger : db'.ledger.rows = db.ledger.rows ++ entry :: bonus
  orders : ∀ o, o ∈ db'.orders.rows ↔ (o ∈ db.orders.rows ∧ o.id ≠ locked.id) ∨ o = after
  same : after.SameOrder locked
  invoice : after.invoiceId = locked.invoiceId
  worth : paidRao after = paidRao locked
  credited : after.creditedLedgerId = some entry.id
  paid : after.status.Paid
  covers : locked.requiredRao ≤ entry.amountRao

/-- What an order is worth covers its credits. -/
theorem requiredRao_le_paidRao {o : TmcPayOrder} (h : o.Valid) {amount : Rao}
    (hpaid : paidRao o = some amount) : o.requiredRao ≤ amount := by
  unfold paidRao at hpaid
  split at hpaid
  · cases hpaid
  · split at hpaid
    · exact h.2.2.2.2.1 amount hpaid
    · cases hpaid
      exact le_refl _

theorem bonusEntries_bonuses {bonus : List CreditLedgerEntry} {accountId : Uuid} {bonusRao : Rao}
    (h : BonusEntries bonus accountId bonusRao) :
    bonus.length ≤ 1 ∧ ∀ b ∈ bonus, b.kind = .bonus ∧ b.tmcPayOrderId = none := by
  rcases h with ⟨rfl, -⟩ | ⟨b, rfl, hkind, -, -, -, -, -, hnone, -⟩
  · exact ⟨Nat.zero_le 1, fun b hb ↦ by cases hb⟩
  · refine ⟨le_refl 1, fun b' hb' ↦ ?_⟩
    obtain rfl := List.mem_singleton.mp hb'
    exact ⟨hkind, hnone⟩

theorem settles_of_orderSettled {db db' : Database} {locked : TmcPayOrder} {r : Report}
    {now : Instant} {schedule : BonusSchedule} {entry : CreditLedgerEntry}
    (hmem : locked ∈ db.orders.rows) (hpaid : r.status.Paid)
    (h : OrderSettled db locked r now schedule entry db') :
    ∃ bonus, Settles db db' locked (locked.settled r now entry.id) entry bonus := by
  obtain ⟨bonus, hbonus, hledger⟩ := h.ledger
  have hsame := locked.settled_sameOrder r now entry.id
  refine ⟨bonus,
    { mem := hmem
      uncredited := h.uncredited
      amount := h.amount
      kind := h.kind
      names := h.names
      bonuses := bonusEntries_bonuses hbonus
      ledger := hledger
      orders := ?_
      same := hsame
      invoice := rfl
      worth := rfl
      credited := rfl
      paid := hpaid
      covers := requiredRao_le_paidRao h.valid h.amount }⟩
  intro o
  have := @Table.mem_modify_of_mem _ _ _ _ (TmcPayOrder.flush locked (locked.settled r now entry.id))
    (TmcPayOrder.flush_id _ _) _ locked o hmem
  rw [TmcPayOrder.flush_current hsame] at this
  rw [h.orders]
  exact this

/-- Deliveries are beside the point. -/
theorem Settles.congr {db db' db'' : Database} {locked after : TmcPayOrder}
    {entry : CreditLedgerEntry} {bonus : List CreditLedgerEntry}
    (h : Settles db db' locked after entry bonus) (hledger : db''.ledger = db'.ledger)
    (horders : db''.orders = db'.orders) : Settles db db'' locked after entry bonus :=
  { h with
    ledger := by rw [hledger]; exact h.ledger
    orders := by rw [horders]; exact h.orders }

/-! ## An invoice applied to the row -/

theorem applied_current {settings : TmcPaySettings} {db db' : Database}
    {order order' : TmcPayOrder} {invoice : Invoice} {now : Instant} {polledAt : Option Instant}
    {eventId : Option String} (hmem : order ∈ db.orders.rows)
    (h : applyInvoice settings db order invoice now polledAt eventId =
      .ok (.applied order' db')) :
    Undisturbed db db' ∨ ∃ after entry bonus, Settles db db' order after entry bonus := by
  rcases applyInvoice_spec h with ⟨hpaid, locked, hlocked, hid, entry, -, hsettled⟩ | ⟨-, hsave⟩
  · obtain rfl := db.orders.eq_of_key hlocked hmem hid
    obtain ⟨bonus, hsettles⟩ := settles_of_orderSettled hlocked hpaid hsettled
    exact Or.inr ⟨_, entry, bonus, hsettles⟩
  · obtain ⟨-, hledger, -, hrows⟩ := saveOrder_current hmem (reported_sameOrder _ _) hsave
    exact Or.inl (.replace hmem hledger hrows (reported_follows _ _))

/-- A reading sells nothing, or sells one order as `sells` allows: the row `order` of the
state before, as the row `locked`. -/
inductive Effect (db db' : Database) (sells : TmcPayOrder → TmcPayOrder → Prop) : Prop
  | nothing (h : Undisturbed db db')
  | sale (db₁ : Database) (order locked after : TmcPayOrder) (entry : CreditLedgerEntry)
      (bonus : List CreditLedgerEntry) (mem : order ∈ db.orders.rows)
      (before : Undisturbed db db₁) (sold : sells order locked)
      (settles : Settles db₁ db' locked after entry bonus)

theorem refreshOrder_effect {settings : TmcPaySettings} {order order' : TmcPayOrder}
    {invoice : Invoice} {now : Instant} {db db' : Database} (hmem : order ∈ db.orders.rows)
    (h : refreshOrder settings order invoice now db = .ok (order', db')) :
    Effect db db' fun o locked ↦ o = order ∧ locked = o := by
  rcases refreshOrder_spec h with rfl | ⟨-, happly⟩
  · exact .nothing (.refl _)
  · rcases applied_current hmem happly with hnothing | ⟨after, entry, bonus, hsettles⟩
    · exact .nothing hnothing
    · exact .sale db order order after entry bonus hmem (.refl _) ⟨rfl, rfl⟩ hsettles

/-! ## Deliveries -/

theorem claimDelivery_orders (db : Database) (webhookId : String)
    (invoiceId event status : Option String) :
    (claimDelivery db webhookId invoiceId event status).2.orders = db.orders ∧
      (claimDelivery db webhookId invoiceId event status).2.ledger = db.ledger := by
  unfold claimDelivery
  split
  · exact ⟨rfl, rfl⟩
  · split
    · split <;> exact ⟨rfl, rfl⟩
    · exact ⟨rfl, rfl⟩

theorem Undisturbed.claim (db : Database) (d : Delivery) : Undisturbed db (d.claim db).2 :=
  .of_eq (claimDelivery_orders ..).2 (claimDelivery_orders ..).1

theorem Undisturbed.note (db : Database) (webhookId : String) (outcome : DeliveryOutcome)
    (orderId : Option Uuid) : Undisturbed db (noteDeliveryOutcome db webhookId outcome orderId) :=
  .of_eq rfl rfl

theorem Undisturbed.flag (db : Database) (orderId : Uuid) :
    Undisturbed db (flagForReview db orderId) :=
  .update TmcPayOrder.flagged_id rfl rfl fun _ _ _ ↦
    ⟨⟨rfl, rfl, rfl, rfl, rfl, rfl⟩, rfl, fun _ _ h ↦ h, fun _ ↦ ⟨rfl, rfl⟩, Or.inl⟩

/-- Closing the lapsed orders touches no order in a paid status. -/
theorem expireLapsedOrders_undisturbed (db : Database) (now : Instant) :
    Undisturbed db (expireLapsedOrders db now) := by
  refine .update TmcPayOrder.closed_id rfl rfl fun o _ hlapsed ↦ ?_
  have hstatus : o.status = .new ∨ o.status = .created := (of_decide_eq_true hlapsed).1
  refine ⟨⟨rfl, rfl, rfl, rfl, rfl, rfl⟩, rfl, ?_, fun _ ↦ ⟨rfl, rfl⟩, Or.inl⟩
  intro _ _ hpaid
  rcases hstatus with h | h
  · rw [h] at hpaid
    exact absurd hpaid (by decide)
  · rw [h] at hpaid
    exact absurd hpaid (by decide)

theorem Undisturbed.superseded (db : Database) (d : Delivery) (orderId : Uuid) :
    Undisturbed db (superseded db d orderId) := by
  unfold Api.superseded
  refine .trans ?_ (.note ..)
  split
  · exact .refl db
  · exact .flag ..

theorem Undisturbed.failed (db : Database) (d : Delivery) (orderId : Uuid) :
    Undisturbed db (failed db d orderId) := by
  unfold Api.failed
  refine .trans ?_ (.flag ..)
  split
  · exact (Undisturbed.claim db d).trans (.note ..)
  · exact .claim db d

theorem Undisturbed.answer (db : Database) (d : Delivery) (outcome : DeliveryOutcome)
    (claimed : Bool) : Undisturbed db (answer db d outcome claimed) := by
  unfold Api.answer
  split
  · exact .note ..
  · exact .refl db

/-- The order as a delivery sells it: the row, or the row with the invoice it brought. -/
def SoldAs (d : Delivery) (order locked : TmcPayOrder) : Prop :=
  locked = order ∨ (order.invoiceId = none ∧ d.invoice.externalId = some order.externalId ∧
    locked = order.invoiced d.invoice.fields)

theorem attachMissing_effect {db db' : Database} {order attached : TmcPayOrder}
    {invoice : Invoice} (hmem : order ∈ db.orders.rows)
    (h : attachMissing db order invoice = .ok (attached, db')) :
    Undisturbed db db' ∧ attached ∈ db'.orders.rows ∧
      (attached = order ∨ (order.invoiceId = none ∧ attached = order.invoiced invoice.fields)) := by
  unfold attachMissing at h
  split at h
  · rename_i hnone
    obtain ⟨rfl, hcovered, hsave⟩ := attachInvoice_spec h
    obtain ⟨hvalid, hledger, -, hrows⟩ := saveOrder_current hmem (invoiced_sameOrder _ _) hsave
    have hworth := paidRao_invoiced hcovered hvalid
    exact ⟨.replace hmem hledger hrows (invoiced_follows hnone hworth),
      (hrows _).mpr (Or.inr rfl), Or.inr ⟨hnone, rfl⟩⟩
  · cases h
    exact ⟨.refl db, hmem, Or.inl rfl⟩

/-- What an attempt leaves behind, as the row was when the delivery was claimed. -/
theorem attempt_effect {settings : TmcPaySettings} {claimed : Database} {order : TmcPayOrder}
    {byExternalId : Bool} {d : Delivery} {now : Instant} {a : Attempt}
    (hmem : order ∈ claimed.orders.rows)
    (hmatch : (byExternalId = false ∧ order.invoiceId = some d.invoice.invoiceId) ∨
      (byExternalId = true ∧ d.invoice.externalId = some order.externalId))
    (h : attempt settings claimed order byExternalId d now = .ok a) :
    match a with
    | .superseded db' => Undisturbed claimed db'
    | .applied db' _ _ => Undisturbed claimed db' ∨ ∃ db₁ locked after entry bonus,
        Undisturbed claimed db₁ ∧ SoldAs d order locked ∧
          Settles db₁ db' locked after entry bonus
    | .alreadyCredited attached => attached.id = order.id := by
  unfold attempt at h
  split at h
  · cases h
    exact .superseded ..
  · split at h
    · cases h
      exact .superseded ..
    · cases h
    · rename_i attached db₁ hattach
      obtain ⟨hquiet, hattached, hsold⟩ := attachMissing_effect hmem hattach
      obtain ⟨application, happly, h⟩ := bind_eq_ok.mp h
      cases application with
      | alreadyCredited =>
        cases h
        rcases hsold with rfl | ⟨-, rfl⟩ <;> rfl
      | applied after db₂ =>
        cases h
        rcases applied_current hattached happly with hnothing | ⟨after, entry, bonus, hsettles⟩
        · exact Or.inl (hquiet.trans hnothing)
        · refine Or.inr ⟨db₁, attached, after, entry, bonus, hquiet, ?_, hsettles⟩
          rcases hsold with rfl | ⟨hnone, rfl⟩
          · exact Or.inl rfl
          · rcases hmatch with ⟨-, hinvoice⟩ | ⟨-, hexternal⟩
            · rw [hnone] at hinvoice
              cases hinvoice
            · exact Or.inr ⟨hnone, hexternal, rfl⟩

theorem Undisturbed.noteCredited {db db' : Database} {d : Delivery} {order : TmcPayOrder}
    (h : noteCredited db d order = .ok db') : Undisturbed db db' := by
  simp only [Api.noteCredited, bind_eq_ok] at h
  obtain ⟨after, -, h⟩ := h
  cases h
  exact .note ..

theorem matchOrder_congr {db db' : Database} (h : db'.orders = db.orders) (invoice : Invoice) :
    matchOrder db' invoice = matchOrder db invoice := by
  unfold matchOrder findByInvoice findByExternalId
  rw [h]

/-- A delivery sells nothing, or sells the order it was matched to. -/
theorem receiveWebhook_effect (settings : TmcPaySettings) (d : Delivery) (now : Instant)
    (db : Database) :
    Effect db (receiveWebhook settings d now db) fun o locked ↦
      (∃ byExternalId, matchOrder db d.invoice = some (o, byExternalId)) ∧ SoldAs d o locked := by
  have hclaim := Undisturbed.claim db d
  have horders : (d.claim db).2.orders = db.orders := (claimDelivery_orders ..).1
  unfold receiveWebhook
  dsimp only
  split
  · exact .nothing (hclaim.trans (.answer ..))
  · split
    · exact .nothing (.refl db)
    · rw [matchOrder_congr horders]
      split
      · exact .nothing (hclaim.trans (.answer ..))
      · rename_i order byExternalId hmatch
        obtain ⟨hmem, hhow⟩ := matchOrder_spec hmatch
        have hmem' : order ∈ (d.claim db).2.orders.rows := by rw [horders]; exact hmem
        split
        · rename_i db' hattempt
          exact .nothing (hclaim.trans (attempt_effect hmem' hhow hattempt))
        · rename_i db' orderId outcome hattempt
          rcases attempt_effect hmem' hhow hattempt with
            hnothing | ⟨db₁, locked, after, entry, bonus, hquiet, hsold, hsettles⟩
          · exact .nothing ((hclaim.trans hnothing).trans (.note ..))
          · exact .sale db₁ order locked after entry bonus hmem (hclaim.trans hquiet)
              ⟨⟨byExternalId, hmatch⟩, hsold⟩ (hsettles.congr rfl rfl)
        · split
          · rename_i db' hnote
            exact .nothing (.noteCredited hnote)
          · exact .nothing (.failed ..)
        · exact .nothing (.failed ..)

/-! ## An order whose invoice never arrived

A configuration and requests for runs on fixed inputs. -/

def exampleSettings : TmcPaySettings where
  enabled := true
  merchantId := "merchant"
  creditLatePayments := true
  bonusSchedule := [(2, 1)]
  pollSeconds := 5

/-- Account 1 has asked for two credits of 5 rao; the answer to its invoice was lost. -/
def exampleOrder : TmcPayOrder where
  id := 7
  accountId := 1
  credits := 2
  creditPriceRao := 5
  status := .new
  externalId := "credits-7"
  invoiceId := none
  merchantId := none
  fiatAmount := none
  fiatCurrency := none
  exchangeRate := none
  commissionAmount := none
  cryptoAmountRao := none
  cryptoAmount := none
  cryptoCurrency := none
  cryptoNetwork := none
  depositAddress := none
  hostedInvoiceUrl := none
  invoiceExpiresAt := none
  creditedLedgerId := none
  needsReview := false
  failureReason := none
  lastEventId := none
  lastPolledAt := none
  confirmedAt := none
  createdAt := 0

def exampleOrders : Database :=
  { Database.empty with
    accounts := .singleton ⟨1, none⟩
    orders := ⟨[exampleOrder], by decide⟩ }

def exampleInvoice (invoiceId : String) (status : InvoiceStatus) (amountRao : Rao) : Invoice where
  invoiceId := invoiceId
  merchantId := "merchant"
  status := status
  externalId := some "credits-7"
  fiatAmount := "2.00"
  fiatCurrency := "USD"
  cryptoAmount := "0.1"
  cryptoAmountRao := some amountRao
  cryptoCurrency := taoCurrency
  cryptoNetwork := "bittensor"
  depositAddress := "deposit"
  exchangeRate := "20"
  commissionAmount := none
  hostedInvoiceUrl := none
  expiresAt := some 100
  confirmedAt := none

def exampleDelivery (webhookId : String) (invoice : Invoice) : Delivery :=
  ⟨webhookId, none, invoice⟩

end Conjectures.TmcPay

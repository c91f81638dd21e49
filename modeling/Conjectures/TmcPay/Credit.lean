import Conjectures.TmcPay.Sessions
import Conjectures.Webhooks.Deliveries

/-!
# One order, one credit

An order goes from `Unsold` to `Sold` in one transaction and is not sold again, whatever the
requests in flight hold: `settle` reads its row under a lock.  A status and an invoice are
written on the copy a request has, and nothing there sees that the order was credited in between.
That a credited order stays paid for what it was credited (`Credited`) is kept by the steps that
are in time for it (`InTime`).
-/

namespace Conjectures.TmcPay

open Lib Db Api

/-! ## What is kept of an order -/

/-- A later version of an order to which nothing was sold in between.  If it is this order, then
given `inTime` it stays paid once it is credited, and a reading leaves it its invoice and what
that is worth. -/
structure OrderKept (orderId : Uuid) (inTime reading : Prop) (o o' : TmcPayOrder) : Prop where
  same : o'.SameOrder o
  credited : o'.creditedLedgerId = o.creditedLedgerId
  stays : inTime → o.id = orderId → o.creditedLedgerId.isSome → o.status.Paid → o'.status.Paid
  worth : inTime → o.id = orderId → reading ∨ o.creditedLedgerId.isSome →
    o'.invoiceId = o.invoiceId ∧ paidRao o' = paidRao o

section OrderKept

variable {orderId : Uuid} {inTime reading : Prop}

theorem OrderKept.refl (o : TmcPayOrder) : OrderKept orderId inTime reading o o :=
  ⟨.refl o, rfl, fun _ _ _ h ↦ h, fun _ _ _ ↦ ⟨rfl, rfl⟩⟩

theorem OrderKept.trans (o₁ o₂ o₃ : TmcPayOrder) (h : OrderKept orderId inTime reading o₁ o₂)
    (h' : OrderKept orderId inTime reading o₂ o₃) : OrderKept orderId inTime reading o₁ o₃ where
  same := h'.same.trans h.same
  credited := h'.credited.trans h.credited
  stays htime hid hsome hpaid :=
    h'.stays htime (h.same.1.trans hid) (by rw [h.credited]; exact hsome)
      (h.stays htime hid hsome hpaid)
  worth htime hid hwhen := by
    obtain ⟨hinvoice, hworth⟩ := h.worth htime hid hwhen
    obtain ⟨hinvoice', hworth'⟩ :=
      h'.worth htime (h.same.1.trans hid) (by rw [h.credited]; exact hwhen)
    exact ⟨hinvoice'.trans hinvoice, hworth'.trans hworth⟩

theorem kept_flagged (o : TmcPayOrder) : OrderKept orderId inTime reading o o.flagged :=
  ⟨⟨rfl, rfl, rfl, rfl, rfl, rfl⟩, rfl, fun _ _ _ h ↦ h, fun _ _ _ ↦ ⟨rfl, rfl⟩⟩

/-- Closing and failing by id look at the row, which is not a paid one. -/
theorem kept_unpaid {o : TmcPayOrder} {status : TmcPayOrderState} {reason : Option String}
    (h : ¬ o.status.Paid) :
    OrderKept orderId inTime reading o { o with status := status, failureReason := reason } :=
  ⟨⟨rfl, rfl, rfl, rfl, rfl, rfl⟩, rfl, fun _ _ _ hpaid ↦ absurd hpaid h,
    fun _ _ _ ↦ ⟨rfl, rfl⟩⟩

/-- A copy is written back on an order that is not credited yet, if in time. -/
theorem kept_flush {seen new o : TmcPayOrder}
    (hcredited : new.creditedLedgerId = seen.creditedLedgerId)
    (h : inTime → o.id = orderId → ¬ reading ∧ o.creditedLedgerId = none) :
    OrderKept orderId inTime reading o (TmcPayOrder.flush seen new o) where
  same := ⟨rfl, rfl, rfl, rfl, rfl, rfl⟩
  credited := by
    show written seen.creditedLedgerId new.creditedLedgerId o.creditedLedgerId = _
    rw [hcredited, written_same]
  stays htime hid hsome := by
    rw [(h htime hid).2] at hsome
    cases hsome
  worth htime hid hwhen := by
    obtain ⟨hreading, hnone⟩ := h htime hid
    rw [hnone] at hwhen
    rcases hwhen with hr | hsome
    · exact absurd hr hreading
    · cases hsome

theorem worth_reported (seen : TmcPayOrder) (r : Report) (o : TmcPayOrder) :
    (TmcPayOrder.flush seen (seen.reported r) o).invoiceId = o.invoiceId ∧
      paidRao (TmcPayOrder.flush seen (seen.reported r) o) = paidRao o := by
  unfold TmcPayOrder.reported
  split <;> simp only [paidRao, TmcPayOrder.requiredRao, TmcPayOrder.flush, TmcPayOrder.marked,
    written_same, and_self]

/-- A status written on a copy.  Where the copy was read before the order was credited the
status is written whatever it is. -/
theorem kept_reported {seen o : TmcPayOrder} {r : Report}
    (h : inTime → o.id = orderId → o.creditedLedgerId.isSome → seen.creditedLedgerId = none →
      r.status.Paid ∨ r.status = seen.status) :
    OrderKept orderId inTime reading o (TmcPayOrder.flush seen (seen.reported r) o) where
  same := ⟨rfl, rfl, rfl, rfl, rfl, rfl⟩
  credited := by
    have hsame : (seen.reported r).creditedLedgerId = seen.creditedLedgerId := by
      unfold TmcPayOrder.reported
      split <;> rfl
    show written seen.creditedLedgerId (seen.reported r).creditedLedgerId o.creditedLedgerId = _
    rw [hsame, written_same]
  worth _ _ _ := worth_reported seen r o
  stays htime hid hsome hpaid := by
    show (written seen.status (seen.reported r).status o.status).Paid
    by_cases hkeep : seen.creditedLedgerId.isSome ∧ ¬ r.status.Paid
    · have hstatus : (seen.reported r).status = seen.status := by
        unfold TmcPayOrder.reported
        rw [if_pos hkeep]
        rfl
      rw [hstatus, written_same]
      exact hpaid
    · have hstatus : (seen.reported r).status = r.status := by
        unfold TmcPayOrder.reported
        rw [if_neg hkeep]
      have hsafe : r.status.Paid ∨ r.status = seen.status := by
        cases hseen : seen.creditedLedgerId with
        | none => exact h htime hid hsome hseen
        | some n => exact Or.inl (not_not.mp fun hnot ↦ hkeep ⟨by rw [hseen]; rfl, hnot⟩)
      rw [hstatus]
      rcases written_cases seen.status r.status o.status with ⟨-, hw⟩ | ⟨hne, hw⟩
      · rw [hw]
        exact hpaid
      · rw [hw]
        exact hsafe.resolve_right hne

end OrderKept

/-- Nothing was sold. -/
structure Quiet (orderId : Uuid) (inTime reading : Prop) (db db' : Database) : Prop where
  ledger : db'.ledger = db.ledger
  rows : RowsBy (OrderKept orderId inTime reading) db db'

section Quiet

variable {orderId : Uuid} {inTime reading : Prop} {db db' db'' : Database}

theorem Quiet.of_eq (hledger : db'.ledger = db.ledger) (horders : db'.orders = db.orders) :
    Quiet orderId inTime reading db db' := ⟨hledger, .of_eq OrderKept.refl horders⟩

theorem Quiet.refl (db : Database) : Quiet orderId inTime reading db db := .of_eq rfl rfl

theorem Quiet.trans (h : Quiet orderId inTime reading db db')
    (h' : Quiet orderId inTime reading db' db'') : Quiet orderId inTime reading db db'' :=
  ⟨h'.ledger.trans h.ledger, h.rows.trans OrderKept.trans h'.rows⟩

theorem Quiet.of_flags (h : FlagsOnly db db') : Quiet orderId inTime reading db db' := by
  refine ⟨h.ledger, h.rows.mono ?_⟩
  rintro o o' (rfl | rfl)
  · exact .refl o'
  · exact kept_flagged o

theorem Quiet.save {seen new : TmcPayOrder} (h : saveOrder db seen new = .ok db')
    (hkept : ∀ o ∈ db.orders.rows, o.id = seen.id →
      OrderKept orderId inTime reading o (TmcPayOrder.flush seen new o)) :
    Quiet orderId inTime reading db db' :=
  have hrows := saveOrder_rows OrderKept.refl h hkept
  ⟨hrows.1, hrows.2⟩

/-- Closing the lapsed orders touches no order in a paid status. -/
theorem Quiet.lapse (db : Database) (now : Instant) :
    Quiet orderId inTime reading db (expireLapsedOrders db now) := by
  refine ⟨rfl, .update TmcPayOrder.closed_id OrderKept.refl rfl fun o _ hlapsed ↦ ?_⟩
  have hstatus : o.status = .new ∨ o.status = .created := (of_decide_eq_true hlapsed).1
  refine kept_unpaid fun hpaid ↦ ?_
  rcases hstatus with h | h <;> rw [h] at hpaid <;> exact absurd hpaid (by decide)

/-- Neither does failing an order that is NEW. -/
theorem Quiet.failById (db : Database) (id : Uuid) (reason : String) :
    Quiet orderId inTime reading db (failOrderById db id reason) := by
  refine ⟨rfl, .update (TmcPayOrder.failed_id reason) OrderKept.refl rfl fun o _ hnew ↦ ?_⟩
  have hstatus : o.status = .new := (of_decide_eq_true hnew).2
  refine kept_unpaid fun hpaid ↦ ?_
  rw [hstatus] at hpaid
  exact absurd hpaid (by decide)

end Quiet

/-! ## What a step does -/

/-- Every step but those that end a purchase. -/
def Step.Reading : Step → Prop
  | .invoice .. | .refuse .. => False
  | _ => True

/-- What a step leaves of the orders and of the ledger, given the copy it works on: nothing is
sold, an order is opened, or one is sold, the one that was copied.  `db₁` is what the attached
invoice of a recovered order left. -/
inductive Outcome (orderId : Uuid) (inTime reading : Prop) (copy : Option TmcPayOrder)
    (db db' : Database) : Prop
  | quiet (h : Quiet orderId inTime reading db db')
  | opened (o : TmcPayOrder) (ledger : db'.ledger = db.ledger)
      (rows : db'.orders.rows = db.orders.rows ++ [o]) (uncredited : o.creditedLedgerId = none)
  | sale (db₁ : Database) (order locked after : TmcPayOrder) (entry : CreditLedgerEntry)
      (bonus : List CreditLedgerEntry) (copied : copy = some order) (id : locked.id = order.id)
      (before : Quiet orderId inTime reading db db₁)
      (row : inTime → order.id = orderId → locked ∈ db.orders.rows)
      (settles : Settles db₁ db' locked after entry bonus)

section Copies

variable {orderId : Uuid} {inTime reading : Prop} {settings : TmcPaySettings} {db db' : Database}
  {order : TmcPayOrder}

/-- An invoice applied to a copy, however old. -/
theorem applyInvoice_outcome {order' : TmcPayOrder} {invoice : Invoice} {now : Instant}
    {polledAt : Option Instant} {eventId : Option String}
    (htime : inTime → order.id = orderId → Outdated db order → Harmless order invoice)
    (h : applyInvoice settings db order invoice now polledAt eventId =
      .ok (.applied order' db')) :
    Quiet orderId inTime reading db db' ∨ ∃ locked after entry bonus, locked.id = order.id ∧
      Settles db db' locked after entry bonus := by
  rcases applyInvoice_spec h with ⟨hpaid, locked, hlocked, hid, entry, -, hsettled⟩ | ⟨-, hsave⟩
  · obtain ⟨bonus, hsettles⟩ := settles_of_orderSettled hlocked hpaid hsettled
    exact Or.inr ⟨locked, _, entry, bonus, hid, hsettles⟩
  · refine Or.inl (.save hsave fun o ho hid ↦ kept_reported fun hin hthis hsome hseen ↦ ?_)
    exact htime hin (hid.symm.trans hthis) ⟨hseen, o, ho, hid, hsome⟩

theorem refreshOrder_outcome {order' : TmcPayOrder} {invoice : Invoice} {now : Instant}
    (htime : inTime → order.id = orderId → Outdated db order → Harmless order invoice)
    (h : refreshOrder settings order invoice now db = .ok (order', db')) :
    Outcome orderId inTime reading (some order) db db' := by
  rcases refreshOrder_spec h with rfl | ⟨-, happly⟩
  · exact .quiet (.refl _)
  · rcases applyInvoice_outcome htime happly with hquiet |
      ⟨locked, after, entry, bonus, hid, hsettles⟩
    · exact .quiet hquiet
    · exact .sale db order locked after entry bonus rfl hid (.refl db) (fun _ _ ↦ hsettles.mem)
        hsettles

/-- A copy without an invoice is given none by a delivery that is in time. -/
theorem attachMissing_outcome {attached : TmcPayOrder} {invoice : Invoice}
    (htime : inTime → order.id = orderId → order.invoiceId = none →
      (order.coveredBy invoice.fields).isOk = false)
    (h : attachMissing db order invoice = .ok (attached, db')) :
    (attached = order ∧ db' = db ∧ order.invoiceId.isSome) ∨
      (attached.id = order.id ∧ Quiet orderId inTime reading db db' ∧
        (inTime → order.id ≠ orderId)) := by
  unfold attachMissing at h
  split at h
  · rename_i hnone
    obtain ⟨rfl, hcovered, hsave⟩ := attachInvoice_spec h
    have hlate : inTime → order.id ≠ orderId := by
      intro hin hthis
      have hrefused := htime hin hthis hnone
      rw [hcovered] at hrefused
      cases hrefused
    refine Or.inr ⟨rfl, .save hsave fun o _ hid ↦ kept_flush rfl fun hin hthis ↦ ?_, hlate⟩
    exact absurd (hid.symm.trans hthis) (hlate hin)
  · rename_i hsome
    cases h
    exact Or.inl ⟨rfl, rfl, Option.isSome_iff_ne_none.mpr hsome⟩

/-- A delivery applied to the copy it was matched to. -/
theorem apply_outcome {s : Webhooks.State} {number : ℕ} {d : Delivery} {byExternalId : Bool}
    (now : Instant)
    (htime : inTime → Timely s.db orderId d.invoice (.applying order byExternalId)) :
    Outcome orderId inTime reading (some order) s.db
      (Webhooks.apply settings s number d order byExternalId now).db := by
  have hclaim := FlagsOnly.claim s.db d
  have horders : (d.claim s.db).2.orders = s.db.orders := (claimDelivery_orders ..).1
  have hsuperseded : Outcome orderId inTime reading (some order) s.db
      (superseded (d.claim s.db).2 d order.id) :=
    .quiet (.of_flags (hclaim.trans (.superseded ..)))
  cases hattempt : attempt settings (d.claim s.db).2 order byExternalId d now with
  | error e =>
    simp only [Webhooks.apply, hattempt]
    exact .quiet (.refl s.db)
  | ok a =>
    have h := hattempt
    unfold attempt at h
    split at h
    · cases h
      simp only [Webhooks.apply, hattempt]
      exact hsuperseded
    · rename_i hown
      split at h
      · cases h
        simp only [Webhooks.apply, hattempt]
        exact hsuperseded
      · cases h
      · rename_i attached db₁ hattach
        obtain ⟨application, happly, h⟩ := bind_eq_ok.mp h
        cases application with
        | alreadyCredited =>
          cases h
          simp only [Webhooks.apply, hattempt]
          exact .quiet (.refl s.db)
        | applied after db₂ =>
          cases h
          simp only [Webhooks.apply, hattempt]
          show Outcome orderId inTime reading (some order) s.db db₂
          have hattached := @attachMissing_outcome orderId inTime reading _ _ order _ _
            (fun hin hthis ↦ (htime hin hthis).1) hattach
          rcases hattached with ⟨rfl, rfl, hinvoice⟩ | ⟨hid, hquiet, hlate⟩
          · have hbyInvoice : byExternalId = false := by
              cases byExternalId with
              | false => rfl
              | true => exact absurd ⟨rfl, hinvoice⟩ hown
            have hharmless : inTime → attached.id = orderId →
                Outdated (d.claim s.db).2 attached → Harmless attached d.invoice := by
              intro hin hthis hout
              unfold Outdated at hout
              rw [horders] at hout
              exact (htime hin hthis).2 hbyInvoice hout
            rcases applyInvoice_outcome hharmless happly with hquiet |
              ⟨locked, after, entry, bonus, hid, hsettles⟩
            · exact .quiet ((Quiet.of_flags hclaim).trans hquiet)
            · exact .sale _ attached locked after entry bonus rfl hid (.of_flags hclaim)
                (fun _ _ ↦ by rw [← horders]; exact hsettles.mem) hsettles
          · have hbefore : Quiet orderId inTime reading s.db db₁ :=
              (Quiet.of_flags hclaim).trans hquiet
            rcases @applyInvoice_outcome orderId inTime reading _ _ _ _ _ _ _ _ _
                (fun hin hthis _ ↦ absurd (hid.symm.trans hthis) (hlate hin)) happly with hquiet' |
              ⟨locked, after, entry, bonus, hid', hsettles⟩
            · exact .quiet (hbefore.trans hquiet')
            · exact .sale db₁ order locked after entry bonus rfl (hid'.trans hid) hbefore
                (fun hin hthis ↦ absurd hthis (hlate hin)) hsettles

end Copies

/-- What a step does to an order: `order_is_credited_once` is derived from this. -/
theorem step_outcome (settings : TmcPaySettings) (orderId : Uuid) (s : State) (a : Step) :
    Outcome orderId (InTime orderId s a) a.Reading (a.copy s) s.db (step settings s a).db := by
  cases a with
  | arrive number d => exact .quiet (.of_flags (Webhooks.arrive_flags number d))
  | apply number now fault =>
    simp only [step, State.deliver, Webhooks.step, Step.copy]
    split
    · rename_i number' d order byExternalId hfind
      obtain ⟨hmem, hnumber⟩ := Table.find?_eq_some.mp hfind
      rw [hfind]
      split
      · exact .quiet (.refl s.db)
      · exact apply_outcome now fun hin ↦ hin _ hmem hnumber
    · exact .quiet (.refl s.db)
  | note number fault =>
    simp only [step, State.deliver, Webhooks.step]
    split
    · exact .quiet (.of_flags (Webhooks.note_flags _ fault))
    · exact .quiet (.refl s.db)
  | fail number fault =>
    simp only [step, State.deliver, Webhooks.step]
    split
    · exact .quiet (.of_flags (Webhooks.fail_flags _ fault))
    · exact .quiet (.refl s.db)
  | crash number => exact .quiet (.refl s.db)
  | poll number id accountId now =>
    dsimp only [step]
    split
    · split <;> exact .quiet (.refl s.db)
    · exact .quiet (.refl s.db)
  | sweep number id accountId =>
    dsimp only [step]
    split <;> exact .quiet (.refl s.db)
  | refresh number invoice now =>
    dsimp only [step, Step.copy]
    split
    · rename_i number' order hfind
      obtain ⟨hmem, hnumber⟩ := Table.find?_eq_some.mp hfind
      rw [hfind]
      refine @commit_induction _ _ _ (refreshOrder settings order invoice now) s.db
        (Outcome orderId _ _ (some order) s.db ·) (.quiet (.refl s.db)) fun order' db' h ↦ ?_
      exact refreshOrder_outcome (fun hin ↦ hin _ hmem hnumber rfl) h
    · exact .quiet (.refl s.db)
  | purchase number id accountId credits creditPriceRao externalId createdAt =>
    dsimp only [step]
    split
    · rename_i order db hcreate
      obtain ⟨-, -, huncredited, hrows, hrest⟩ := createOrder_spec hcreate
      exact .opened order (by show db.ledger = _; rw [hrest]) hrows huncredited
    · exact .quiet (.refl s.db)
  | invoice number f =>
    dsimp only [step]
    split
    · rename_i number' order hfind
      obtain ⟨hmem, hnumber⟩ := Table.find?_eq_some.mp hfind
      split
      · rename_i order' db hattach
        obtain ⟨-, -, hsave⟩ := attachInvoice_spec hattach
        refine .quiet (.save hsave fun o ho hid ↦ kept_flush rfl fun hin hthis ↦ ?_)
        exact ⟨id, hin _ hmem hnumber rfl (hid.symm.trans hthis) o ho hthis⟩
      · exact .quiet (.refl s.db)
    · exact .quiet (.refl s.db)
  | refuse number reason =>
    dsimp only [step]
    split
    · rename_i number' order hfind
      obtain ⟨hmem, hnumber⟩ := Table.find?_eq_some.mp hfind
      split
      · rename_i db hfail
        refine .quiet (.save hfail fun o ho hid ↦ kept_flush rfl fun hin hthis ↦ ?_)
        exact ⟨id, hin _ hmem hnumber rfl (hid.symm.trans hthis) o ho hthis⟩
      · exact .quiet (.refl s.db)
    · exact .quiet (.refl s.db)
  | abandon number reason =>
    dsimp only [step]
    split
    · exact .quiet (.failById ..)
    · exact .quiet (.refl s.db)
  | drop number => exact .quiet (.refl s.db)
  | lapse now => exact .quiet (.lapse ..)

/-! ## Before and after the credit -/

/-- The order is uncredited, where there is one, and no entry of the ledger names it. -/
structure Unsold (db : Database) (orderId : Uuid) : Prop where
  row : ∀ o ∈ db.orders.rows, o.id = orderId → o.creditedLedgerId = none
  entries : ∀ e ∈ db.ledger.rows, e.tmcPayOrderId ≠ some orderId

/-- The order points at `entry`, and no other entry names it. -/
structure Sold (db : Database) (orderId : Uuid) (entry : CreditLedgerEntry) : Prop where
  row : ∃ o ∈ db.orders.rows, o.id = orderId ∧ o.creditedLedgerId = some entry.id
  mem : entry ∈ db.ledger.rows
  only : ∀ e ∈ db.ledger.rows, e.tmcPayOrderId = some orderId → e = entry

/-- And it is in a paid status, and worth what the entry says. -/
structure Credited (db : Database) (orderId : Uuid) (entry : CreditLedgerEntry) : Prop
    extends Sold db orderId entry where
  paid : ∀ o ∈ db.orders.rows, o.id = orderId →
    o.status.Paid ∧ paidRao o = some entry.amountRao

section Quiet

variable {orderId : Uuid} {inTime reading : Prop} {db db' : Database} {entry : CreditLedgerEntry}

theorem Unsold.quiet (h : Unsold db orderId) (hquiet : Quiet orderId inTime reading db db') :
    Unsold db' orderId := by
  refine ⟨fun o' ho' hid ↦ ?_, by rw [hquiet.ledger]; exact h.entries⟩
  obtain ⟨o, ho, hkept⟩ := hquiet.rows.earlier o' ho'
  exact hkept.credited.trans (h.row o ho (hkept.same.1.symm.trans hid))

theorem Sold.quiet (h : Sold db orderId entry) (hquiet : Quiet orderId inTime reading db db') :
    Sold db' orderId entry := by
  obtain ⟨o, ho, hid, hcredited⟩ := h.row
  obtain ⟨o', ho', hkept⟩ := hquiet.rows.later o ho
  refine ⟨⟨o', ho', hkept.same.1.trans hid, hkept.credited.trans hcredited⟩, ?_, ?_⟩ <;>
    rw [hquiet.ledger]
  · exact h.mem
  · exact h.only

theorem Credited.quiet (h : Credited db orderId entry) (hin : inTime)
    (hquiet : Quiet orderId inTime reading db db') : Credited db' orderId entry := by
  refine ⟨h.toSold.quiet hquiet, fun o' ho' hid' ↦ ?_⟩
  obtain ⟨o, ho, hkept⟩ := hquiet.rows.earlier o' ho'
  have hid : o.id = orderId := hkept.same.1.symm.trans hid'
  have hsome : o.creditedLedgerId.isSome := by
    obtain ⟨o₁, ho₁, hid₁, hcredited⟩ := h.row
    rw [db.orders.eq_of_key ho ho₁ (hid.trans hid₁.symm), hcredited]
    rfl
  obtain ⟨hpaid, hworth⟩ := h.paid o ho hid
  exact ⟨hkept.stays hin hid hsome hpaid, (hkept.worth hin hid (Or.inr hsome)).2.trans hworth⟩

end Quiet

section Opened

variable {db db' : Database} {orderId : Uuid} {o : TmcPayOrder} {entry : CreditLedgerEntry}

theorem Unsold.opened (h : Unsold db orderId) (hledger : db'.ledger = db.ledger)
    (hrows : db'.orders.rows = db.orders.rows ++ [o]) (huncredited : o.creditedLedgerId = none) :
    Unsold db' orderId := by
  refine ⟨fun o' ho' hid ↦ ?_, by rw [hledger]; exact h.entries⟩
  rw [hrows] at ho'
  rcases List.mem_append.mp ho' with ho' | ho'
  · exact h.row o' ho' hid
  · rw [List.mem_singleton.mp ho']
    exact huncredited

theorem Sold.opened (h : Sold db orderId entry) (hledger : db'.ledger = db.ledger)
    (hrows : db'.orders.rows = db.orders.rows ++ [o]) : Sold db' orderId entry := by
  obtain ⟨o₁, ho₁, hid, hcredited⟩ := h.row
  refine ⟨⟨o₁, ?_, hid, hcredited⟩, ?_, ?_⟩
  · rw [hrows]
    exact List.mem_append_left _ ho₁
  · rw [hledger]
    exact h.mem
  · rw [hledger]
    exact h.only

/-- The order that is opened is another one. -/
theorem Credited.opened (h : Credited db orderId entry) (hledger : db'.ledger = db.ledger)
    (hrows : db'.orders.rows = db.orders.rows ++ [o]) : Credited db' orderId entry := by
  refine ⟨h.toSold.opened hledger hrows, fun o' ho' hid' ↦ ?_⟩
  obtain ⟨o₁, ho₁, hid, -⟩ := h.row
  have hmem : o₁ ∈ db'.orders.rows := by
    rw [hrows]
    exact List.mem_append_left _ ho₁
  rw [db'.orders.eq_of_key ho' hmem (hid'.trans hid.symm)]
  exact h.paid o₁ ho₁ hid

end Opened

section Sale

variable {db db' : Database} {orderId : Uuid} {locked after : TmcPayOrder}
  {entry paid : CreditLedgerEntry} {bonus : List CreditLedgerEntry}

/-- What a sale adds to the ledger names the order that was sold, if it names one. -/
theorem Settles.names_sold (h : Settles db db' locked after entry bonus)
    {e : CreditLedgerEntry} (he : e ∈ db'.ledger.rows) :
    e ∈ db.ledger.rows ∨ e = entry ∨ (e ∈ bonus ∧ e.tmcPayOrderId = none) := by
  rw [h.ledger] at he
  rcases List.mem_append.mp he with he | he
  · exact Or.inl he
  · rcases List.mem_cons.mp he with rfl | he
    · exact Or.inr (Or.inl rfl)
    · exact Or.inr (Or.inr ⟨he, (h.bonuses.2 e he).2⟩)

/-- A sale touches no row but that of the order that is sold. -/
theorem Settles.other_row (h : Settles db db' locked after entry bonus) {o : TmcPayOrder}
    (hother : o.id ≠ locked.id) : o ∈ db'.orders.rows ↔ o ∈ db.orders.rows := by
  rw [h.orders]
  constructor
  · rintro (⟨ho, -⟩ | rfl)
    · exact ho
    · exact absurd h.same.1 hother
  · exact fun ho ↦ Or.inl ⟨ho, hother⟩

/-- The sale of another order is no business of this one. -/
theorem Unsold.other (h : Unsold db orderId) (hsale : Settles db db' locked after entry bonus)
    (hother : locked.id ≠ orderId) : Unsold db' orderId := by
  constructor
  · intro o ho hid
    exact h.row o ((hsale.other_row (by rw [hid]; exact hother.symm)).mp ho) hid
  · intro e he hnames
    rcases hsale.names_sold he with he | rfl | ⟨-, hnone⟩
    · exact h.entries e he hnames
    · exact hother (Option.some.inj (hsale.names.symm.trans hnames))
    · cases hnone.symm.trans hnames

theorem Sold.other (h : Sold db orderId paid) (hsale : Settles db db' locked after entry bonus)
    (hother : locked.id ≠ orderId) : Sold db' orderId paid := by
  obtain ⟨o, ho, hid, hcredited⟩ := h.row
  refine ⟨⟨o, (hsale.other_row (by rw [hid]; exact hother.symm)).mpr ho, hid, hcredited⟩, ?_, ?_⟩
  · rw [hsale.ledger]
    exact List.mem_append_left _ h.mem
  · intro e he hnames
    rcases hsale.names_sold he with he | rfl | ⟨-, hnone⟩
    · exact h.only e he hnames
    · exact absurd (Option.some.inj (hsale.names.symm.trans hnames)) hother
    · cases hnone.symm.trans hnames

theorem Credited.other (h : Credited db orderId paid)
    (hsale : Settles db db' locked after entry bonus) (hother : locked.id ≠ orderId) :
    Credited db' orderId paid := by
  refine ⟨h.toSold.other hsale hother, fun o ho hid ↦ ?_⟩
  exact h.paid o ((hsale.other_row (by rw [hid]; exact hother.symm)).mp ho) hid

/-- The sale of the order itself. -/
theorem Unsold.sold (h : Unsold db locked.id) (hsale : Settles db db' locked after entry bonus) :
    Credited db' locked.id entry where
  row := ⟨after, (hsale.orders after).mpr (Or.inr rfl), hsale.same.1, hsale.credited⟩
  mem := by
    rw [hsale.ledger]
    exact List.mem_append_right _ List.mem_cons_self
  only e he hnames := by
    rcases hsale.names_sold he with he | rfl | ⟨-, hnone⟩
    · exact absurd hnames (h.entries e he)
    · rfl
    · cases hnone.symm.trans hnames
  paid o ho hid := by
    rcases (hsale.orders o).mp ho with ⟨-, hne⟩ | rfl
    · exact absurd hid hne
    · exact ⟨hsale.paid, hsale.worth.trans hsale.amount⟩

/-- A credited order is not sold again. -/
theorem Sold.not_settled (h : Sold db locked.id paid) :
    ¬ Settles db db' locked after entry bonus := by
  intro hsale
  obtain ⟨o, ho, hid, hcredited⟩ := h.row
  rw [db.orders.eq_of_key ho hsale.mem hid, hsale.uncredited] at hcredited
  cases hcredited

end Sale

/-! ## One step -/

/-- A step that works on a copy of this order, or of none, writes nothing to the ledger. -/
def NoEntry (settings : TmcPaySettings) (orderId : Uuid) (s : State) (a : Step) : Prop :=
  (∀ o ∈ a.copy s, o.id = orderId) → (step settings s a).db.ledger = s.db.ledger

/-- The one transaction in which the order is paid for: it marks the order credited, by one
DEPOSIT entry, and the bonus is written with it.  If in time, what is deposited is what the
order's invoice is worth in the state before, and covers what the credits cost. -/
structure Sale (settings : TmcPaySettings) (orderId : Uuid) (s : State) (a : Step)
    (entry : CreditLedgerEntry) (bonus : List CreditLedgerEntry) : Prop where
  unsold : Unsold s.db orderId
  about : ∃ o ∈ a.copy s, o.id = orderId
  kind : entry.kind = .deposit
  bonuses : bonus.length ≤ 1 ∧ ∀ b ∈ bonus, b.kind = .bonus
  ledger : (step settings s a).db.ledger.rows = s.db.ledger.rows ++ entry :: bonus
  credited : Credited (step settings s a).db orderId entry
  amount : InTime orderId s a → ∃ o ∈ s.db.orders.rows, o.id = orderId ∧
    paidRao o = some entry.amountRao ∧ o.requiredRao ≤ entry.amountRao

section Steps

variable (settings : TmcPaySettings) {s : State} {orderId : Uuid} {entry : CreditLedgerEntry}

/-- An unsold order is left unsold, or sold. -/
theorem Unsold.next (h : Unsold s.db orderId) (a : Step) :
    (NoEntry settings orderId s a ∧ Unsold (step settings s a).db orderId) ∨
      ∃ entry bonus, Sale settings orderId s a entry bonus := by
  cases step_outcome settings orderId s a with
  | quiet hquiet => exact Or.inl ⟨fun _ ↦ hquiet.ledger, h.quiet hquiet⟩
  | opened o hledger hrows huncredited =>
    exact Or.inl ⟨fun _ ↦ hledger, h.opened hledger hrows huncredited⟩
  | sale db₁ order locked after entry bonus hcopy hid hbefore hrow hsettles =>
    have h₁ := h.quiet hbefore
    by_cases hthis : order.id = orderId
    · have hlocked : locked.id = orderId := hid.trans hthis
      subst hlocked
      exact Or.inr ⟨entry, bonus,
        { unsold := h
          about := ⟨order, hcopy, hthis⟩
          kind := hsettles.kind
          bonuses := ⟨hsettles.bonuses.1, fun b hb ↦ (hsettles.bonuses.2 b hb).1⟩
          ledger := by rw [hsettles.ledger, hbefore.ledger]
          credited := h₁.sold hsettles
          amount := fun hin ↦
            ⟨locked, hrow hin hthis, rfl, hsettles.amount, hsettles.covers⟩ }⟩
    · refine Or.inl ⟨fun habout ↦ absurd (habout order hcopy) hthis, h₁.other hsettles ?_⟩
      rw [hid]
      exact hthis

/-- A sold order stays sold, and its steps write no entry.  If in time it stays credited. -/
theorem Sold.next (h : Sold s.db orderId entry) (a : Step) :
    NoEntry settings orderId s a ∧ Sold (step settings s a).db orderId entry ∧
      (InTime orderId s a → Credited s.db orderId entry →
        Credited (step settings s a).db orderId entry) := by
  cases step_outcome settings orderId s a with
  | quiet hquiet =>
    exact ⟨fun _ ↦ hquiet.ledger, h.quiet hquiet, fun hin hcredited ↦ hcredited.quiet hin hquiet⟩
  | opened o hledger hrows huncredited =>
    exact ⟨fun _ ↦ hledger, h.opened hledger hrows,
      fun _ hcredited ↦ hcredited.opened hledger hrows⟩
  | sale db₁ order locked after entry' bonus hcopy hid hbefore hrow hsettles =>
    have h₁ := h.quiet hbefore
    have hother : locked.id ≠ orderId := by
      intro hthis
      subst hthis
      exact h₁.not_settled hsettles
    refine ⟨fun habout ↦ ?_, h₁.other hsettles hother, fun hin hcredited ↦ ?_⟩
    · exact absurd (hid.trans (habout order hcopy)) hother
    · exact (hcredited.quiet hin hbefore).other hsettles hother

end Steps

/-! ## Every run -/

/-- What becomes of a sold order. -/
theorem Sold.stays (settings : TmcPaySettings) {s : State} {orderId : Uuid}
    {entry : CreditLedgerEntry} (h : Sold s.db orderId entry) (steps : List Step) :
    Each (step settings) (NoEntry settings orderId) s steps ∧
      ∀ later, later <+: steps → Sold (run (step settings) s later).db orderId entry ∧
        (Credited s.db orderId entry → Each (step settings) (InTime orderId) s later →
          Credited (run (step settings) s later).db orderId entry) := by
  have hstep : ∀ (s : State) a, Sold s.db orderId entry →
      Sold (step settings s a).db orderId entry := fun _ a h ↦ (h.next settings a).2.1
  refine ⟨each_of_invariant hstep (fun _ a h ↦ (h.next settings a).1) h steps, ?_⟩
  intro later _
  refine ⟨run_invariant hstep h later, fun hcredited hin ↦ ?_⟩
  refine @Each.invariant _ _ (step settings) (InTime orderId)
    (fun s ↦ Credited s.db orderId entry) (fun s a hin h ↦ ?_) _ _ hin hcredited
  exact (h.toSold.next settings a).2.2 hin h

/-- Account 1, and no order yet. -/
def exampleState : State where
  db := { Database.empty with accounts := .singleton ⟨1, none⟩ }
  handlers := .empty _
  sessions := .empty _

/-- An order is opened and gets its invoice; the owner and the reconciler both read it, and then a
delivery credits it. -/
def exampleSteps : List Step :=
  [.purchase 0 7 1 2 5 "credits-7" 0, .invoice 0 (exampleInvoice "i1" .created 12).fields,
    .poll 1 7 1 10, .sweep 2 7 1,
    .arrive 0 (exampleDelivery "w1" (exampleInvoice "i1" .confirmed 12)), .apply 0 20 false,
    .note 0 false]

/-- The amounts the ledger holds after a delivery about an order without an invoice. -/
def recoveredCredits (amountRao : Rao) : List Rao :=
  (run (step exampleSettings) { exampleState with db := exampleOrders }
    [.arrive 0 (exampleDelivery "w1" (exampleInvoice "i1" .confirmed amountRao)),
      .apply 0 20 false]).db.ledger.rows.map (·.amountRao)

/-- Where the invoice never arrived, the delivery that brings it says what it is worth: no
amount is the one deposited whatever the body says. -/
theorem recovered_invoice_sets_the_amount :
    ¬ ∃ deposit : Rao, ∀ amountRao : Rao, exampleOrder.requiredRao ≤ amountRao →
      (recoveredCredits amountRao).head? = some deposit := by
  rintro ⟨deposit, h⟩
  have h₁ : some 12 = some deposit :=
    (by decide +kernel : (recoveredCredits 12).head? = some 12).symm.trans (h 12 (by decide))
  have h₂ : some 500 = some deposit :=
    (by decide +kernel : (recoveredCredits 500).head? = some 500).symm.trans (h 500 (by decide))
  exact absurd (h₁.trans h₂.symm) (by decide)

end Conjectures.TmcPay

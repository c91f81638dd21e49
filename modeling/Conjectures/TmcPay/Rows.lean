import Conjectures.TmcPay.Effects

/-!
# What a reading does to the rows

Whatever relation between versions of an order is kept by each write of a reading is kept by
the whole of it (`receiveWebhook_rows`, `refreshOrder_rows`), and whatever a copy of an order
keeps as it is written back, by the write (`saveOrder_rows`).  Later modules choose the
relation: that a status is left alone, that another order is.
-/

namespace Conjectures.TmcPay

open Lib Db Api

/-- Every order before is related to one after, and the other way round. -/
structure RowsBy (R : TmcPayOrder → TmcPayOrder → Prop) (db db' : Database) : Prop where
  later : ∀ o ∈ db.orders.rows, ∃ o' ∈ db'.orders.rows, R o o'
  earlier : ∀ o' ∈ db'.orders.rows, ∃ o ∈ db.orders.rows, R o o'

/-- What is kept by each write a reading of the invoice makes to the order. -/
structure Respects (R : TmcPayOrder → TmcPayOrder → Prop) (invoice : Invoice) (id : Uuid) :
    Prop where
  refl : ∀ o, R o o
  trans : ∀ o₁ o₂ o₃, R o₁ o₂ → R o₂ o₃ → R o₁ o₃
  flagged : ∀ o : TmcPayOrder, o.id = id → R o o.flagged
  invoiced : ∀ o : TmcPayOrder, o.id = id → o.invoiceId = none → R o (o.invoiced invoice.fields)
  reported : ∀ (o : TmcPayOrder) eventId polledAt, o.id = id →
    R o (o.reported (invoice.report eventId polledAt))
  settled : ∀ (o : TmcPayOrder) eventId polledAt now ledgerId, o.id = id →
    (invoice.report eventId polledAt).status.Paid →
    R o (o.settled (invoice.report eventId polledAt) now ledgerId)

section Rules

variable {R : TmcPayOrder → TmcPayOrder → Prop} {db db' : Database}

theorem RowsBy.of_eq (hrefl : ∀ o, R o o) (h : db'.orders = db.orders) : RowsBy R db db' where
  later o ho := ⟨o, by rw [h]; exact ho, hrefl o⟩
  earlier o ho := ⟨o, by rw [← h]; exact ho, hrefl o⟩

theorem RowsBy.trans {db'' : Database} (htrans : ∀ o₁ o₂ o₃, R o₁ o₂ → R o₂ o₃ → R o₁ o₃)
    (h : RowsBy R db db') (h' : RowsBy R db' db'') : RowsBy R db db'' where
  later o ho := by
    obtain ⟨o', ho', hR⟩ := h.later o ho
    obtain ⟨o'', ho'', hR'⟩ := h'.later o' ho'
    exact ⟨o'', ho'', htrans _ _ _ hR hR'⟩
  earlier o ho := by
    obtain ⟨o', ho', hR⟩ := h'.earlier o ho
    obtain ⟨o'', ho'', hR'⟩ := h.earlier o' ho'
    exact ⟨o'', ho'', htrans _ _ _ hR' hR⟩

theorem RowsBy.update {p : TmcPayOrder → Bool} {f : TmcPayOrder → TmcPayOrder}
    (hf : ∀ o, (f o).id = o.id) (hrefl : ∀ o, R o o) (h : db'.orders = db.orders.update p f hf)
    (hR : ∀ o ∈ db.orders.rows, p o = true → R o (f o)) : RowsBy R db db' := by
  have heach : ∀ o ∈ db.orders.rows, R o (if p o then f o else o) := by
    intro o ho
    split
    · rename_i hp
      exact hR o ho hp
    · exact hrefl o
  constructor
  · intro o ho
    exact ⟨_, by rw [h, Table.mem_update]; exact ⟨o, ho, rfl⟩, heach o ho⟩
  · intro o' ho'
    rw [h, Table.mem_update] at ho'
    obtain ⟨o, ho, rfl⟩ := ho'
    exact ⟨o, ho, heach o ho⟩

theorem RowsBy.replace {old new : TmcPayOrder} (hrefl : ∀ o, R o o)
    (hold : old ∈ db.orders.rows)
    (hrows : ∀ o, o ∈ db'.orders.rows ↔ (o ∈ db.orders.rows ∧ o.id ≠ old.id) ∨ o = new)
    (hR : R old new) : RowsBy R db db' where
  later o ho := by
    by_cases hid : o.id = old.id
    · rw [db.orders.eq_of_key ho hold hid]
      exact ⟨new, (hrows new).mpr (Or.inr rfl), hR⟩
    · exact ⟨o, (hrows o).mpr (Or.inl ⟨ho, hid⟩), hrefl o⟩
  earlier o ho := by
    rcases (hrows o).mp ho with ⟨ho, -⟩ | rfl
    · exact ⟨o, ho, hrefl o⟩
    · exact ⟨old, hold, hR⟩

theorem RowsBy.mono {R' : TmcPayOrder → TmcPayOrder → Prop} (h : RowsBy R db db')
    (hR : ∀ o o', R o o' → R' o o') : RowsBy R' db db' where
  later o ho := by
    obtain ⟨o', ho', hrel⟩ := h.later o ho
    exact ⟨o', ho', hR o o' hrel⟩
  earlier o' ho' := by
    obtain ⟨o, ho, hrel⟩ := h.earlier o' ho'
    exact ⟨o, ho, hR o o' hrel⟩

/-- A copy written back, however old: the row is related to what the copy makes of it. -/
theorem saveOrder_rows {seen new : TmcPayOrder} (hrefl : ∀ o, R o o)
    (h : saveOrder db seen new = .ok db')
    (hR : ∀ o ∈ db.orders.rows, o.id = seen.id → R o (TmcPayOrder.flush seen new o)) :
    db'.ledger = db.ledger ∧ RowsBy R db db' := by
  obtain ⟨current, -, hid, -, rfl⟩ := saveOrder_spec h
  refine ⟨rfl, .update (TmcPayOrder.flush_id seen new) hrefl rfl fun o ho hp ↦ ?_⟩
  exact hR o ho ((of_decide_eq_true hp).trans hid)

end Rules

/-! ## Flags -/

/-- At most, orders were flagged for review. -/
structure FlagsOnly (db db' : Database) : Prop where
  ledger : db'.ledger = db.ledger
  rows : RowsBy (fun o o' ↦ o' = o ∨ o' = o.flagged) db db'

section Flags

variable {db db' db'' : Database}

theorem FlagsOnly.of_eq (hledger : db'.ledger = db.ledger) (horders : db'.orders = db.orders) :
    FlagsOnly db db' := ⟨hledger, .of_eq (fun _ ↦ Or.inl rfl) horders⟩

theorem FlagsOnly.refl (db : Database) : FlagsOnly db db := .of_eq rfl rfl

theorem FlagsOnly.trans (h : FlagsOnly db db') (h' : FlagsOnly db' db'') : FlagsOnly db db'' := by
  refine ⟨h'.ledger.trans h.ledger, h.rows.trans ?_ h'.rows⟩
  rintro o o' o'' (rfl | rfl) (rfl | rfl)
  · exact Or.inl rfl
  · exact Or.inr rfl
  · exact Or.inr rfl
  · exact Or.inr rfl

theorem FlagsOnly.claim (db : Database) (d : Delivery) : FlagsOnly db (d.claim db).2 :=
  .of_eq (claimDelivery_orders ..).2 (claimDelivery_orders ..).1

theorem FlagsOnly.flag (db : Database) (orderId : Uuid) :
    FlagsOnly db (flagForReview db orderId) :=
  ⟨rfl, .update TmcPayOrder.flagged_id (fun _ ↦ Or.inl rfl) rfl fun _ _ _ ↦ Or.inr rfl⟩

theorem FlagsOnly.superseded (db : Database) (d : Delivery) (orderId : Uuid) :
    FlagsOnly db (superseded db d orderId) := by
  have hflag : FlagsOnly db
      (if d.invoice.status.NoMoney then db else flagForReview db orderId) := by
    split
    · exact .refl db
    · exact .flag db orderId
  exact hflag.trans (.of_eq rfl rfl)

theorem FlagsOnly.failed (db : Database) (d : Delivery) (orderId : Uuid) :
    FlagsOnly db (failed db d orderId) := by
  have hnote : FlagsOnly db (if (d.claim db).1 then
      noteDeliveryOutcome (d.claim db).2 d.webhookId .failed (some orderId)
      else (d.claim db).2) := by
    split
    · exact (FlagsOnly.claim db d).trans (.of_eq rfl rfl)
    · exact .claim db d
  exact hnote.trans (.flag _ orderId)

theorem FlagsOnly.answer (db : Database) (d : Delivery) (outcome : DeliveryOutcome)
    (claimed : Bool) : FlagsOnly db (answer db d outcome claimed) := by
  unfold Api.answer
  split <;> exact .of_eq rfl rfl

end Flags

section Readings

variable {R : TmcPayOrder → TmcPayOrder → Prop} {settings : TmcPaySettings} {db db' : Database}
  {order : TmcPayOrder}

theorem applyInvoice_rows {order' : TmcPayOrder} {invoice : Invoice} {now : Instant}
    {polledAt : Option Instant} {eventId : Option String} {id : Uuid}
    (hR : Respects R invoice id) (hmem : order ∈ db.orders.rows) (hid : order.id = id)
    (h : applyInvoice settings db order invoice now polledAt eventId =
      .ok (.applied order' db')) : RowsBy R db db' := by
  rcases applyInvoice_spec h with ⟨hpaid, locked, hlocked, hlid, entry, -, hsettled⟩ | ⟨-, hsave⟩
  · obtain rfl := db.orders.eq_of_key hlocked hmem hlid
    obtain ⟨bonus, hsettles⟩ := settles_of_orderSettled hlocked hpaid hsettled
    exact .replace hR.refl hlocked hsettles.orders (hR.settled _ _ _ _ _ hid hpaid)
  · obtain ⟨-, -, -, hrows⟩ := saveOrder_current hmem (reported_sameOrder _ _) hsave
    exact .replace hR.refl hmem hrows (hR.reported _ _ _ hid)

theorem refreshOrder_rows {order' : TmcPayOrder} {invoice : Invoice} {now : Instant}
    (hR : Respects R invoice order.id) (hmem : order ∈ db.orders.rows)
    (h : refreshOrder settings order invoice now db = .ok (order', db')) : RowsBy R db db' := by
  rcases refreshOrder_spec h with rfl | ⟨-, happly⟩
  · exact .of_eq hR.refl rfl
  · exact applyInvoice_rows hR hmem rfl happly

theorem flagForReview_rows {invoice : Invoice} {id : Uuid} (hR : Respects R invoice id)
    (db : Database) : RowsBy R db (flagForReview db id) :=
  .update TmcPayOrder.flagged_id hR.refl rfl fun o _ hp ↦ hR.flagged o (of_decide_eq_true hp)

theorem superseded_rows {d : Delivery} {id : Uuid} (hR : Respects R d.invoice id)
    (db : Database) : RowsBy R db (superseded db d id) := by
  have hflag : RowsBy R db (if d.invoice.status.NoMoney then db else flagForReview db id) := by
    split
    · exact .of_eq hR.refl rfl
    · exact flagForReview_rows hR db
  exact hflag.trans hR.trans (.of_eq hR.refl rfl)

theorem failed_rows {d : Delivery} {id : Uuid} (hR : Respects R d.invoice id)
    (db : Database) : RowsBy R db (failed db d id) := by
  have hclaim : RowsBy R db (d.claim db).2 := .of_eq hR.refl (claimDelivery_orders ..).1
  unfold failed
  refine .trans hR.trans ?_ (flagForReview_rows hR _)
  split
  · exact .trans hR.trans hclaim (.of_eq hR.refl rfl)
  · exact hclaim

theorem attachMissing_rows {attached : TmcPayOrder} {invoice : Invoice} {id : Uuid}
    (hR : Respects R invoice id) (hmem : order ∈ db.orders.rows) (hid : order.id = id)
    (h : attachMissing db order invoice = .ok (attached, db')) :
    RowsBy R db db' ∧ attached ∈ db'.orders.rows ∧ attached.id = id := by
  unfold attachMissing at h
  split at h
  · rename_i hnone
    obtain ⟨rfl, -, hsave⟩ := attachInvoice_spec h
    obtain ⟨-, -, -, hrows⟩ := saveOrder_current hmem (invoiced_sameOrder _ _) hsave
    exact ⟨.replace hR.refl hmem hrows (hR.invoiced _ hid hnone), (hrows _).mpr (Or.inr rfl), hid⟩
  · cases h
    exact ⟨.of_eq hR.refl rfl, hmem, hid⟩

theorem attempt_rows {byExternalId : Bool} {d : Delivery} {now : Instant} {a : Attempt}
    (hR : Respects R d.invoice order.id) (hmem : order ∈ db.orders.rows)
    (h : attempt settings db order byExternalId d now = .ok a) :
    match a with
    | .superseded db' | .applied db' _ _ => RowsBy R db db'
    | .alreadyCredited _ => True := by
  unfold attempt at h
  split at h
  · cases h
    exact superseded_rows hR db
  · split at h
    · cases h
      exact superseded_rows hR db
    · cases h
    · rename_i attached db₁ hattach
      obtain ⟨hrows, hattached, hid⟩ := attachMissing_rows hR hmem rfl hattach
      obtain ⟨application, happly, h⟩ := bind_eq_ok.mp h
      cases application with
      | alreadyCredited =>
        cases h
        trivial
      | applied after db₂ =>
        cases h
        exact hrows.trans hR.trans (applyInvoice_rows hR hattached hid happly)

/-- A delivery keeps between the rows what each of its writes keeps. -/
theorem receiveWebhook_rows (settings : TmcPaySettings) (d : Delivery) (now : Instant)
    (db : Database) (hrefl : ∀ o, R o o)
    (hR : ∀ order byExternalId, matchOrder db d.invoice = some (order, byExternalId) →
      Respects R d.invoice order.id) : RowsBy R db (receiveWebhook settings d now db) := by
  have horders : (d.claim db).2.orders = db.orders := (claimDelivery_orders ..).1
  have hanswer : ∀ outcome claimed,
      (answer (d.claim db).2 d outcome claimed).orders = db.orders := by
    intro outcome claimed
    unfold answer
    split <;> exact horders
  unfold receiveWebhook
  dsimp only
  split
  · exact .of_eq hrefl (hanswer ..)
  · split
    · exact .of_eq hrefl rfl
    · rw [matchOrder_congr horders]
      split
      · exact .of_eq hrefl (hanswer ..)
      · rename_i order byExternalId hmatch
        obtain ⟨hmem, -⟩ := matchOrder_spec hmatch
        have hR := hR order byExternalId hmatch
        have hclaim : RowsBy R db (d.claim db).2 := .of_eq hrefl horders
        have hmem' : order ∈ (d.claim db).2.orders.rows := by rw [horders]; exact hmem
        split
        · rename_i db' hattempt
          exact hclaim.trans hR.trans (attempt_rows hR hmem' hattempt)
        · rename_i db' orderId outcome hattempt
          have happlied : RowsBy R db db' := hclaim.trans hR.trans (attempt_rows hR hmem' hattempt)
          exact happlied.trans hR.trans (.of_eq hrefl rfl)
        · split
          · rename_i attached _ db' hnote
            simp only [noteCredited, bind_eq_ok] at hnote
            obtain ⟨after, -, hnote⟩ := hnote
            cases hnote
            exact .of_eq hrefl rfl
          · exact failed_rows hR db
        · exact failed_rows hR db

end Readings

end Conjectures.TmcPay

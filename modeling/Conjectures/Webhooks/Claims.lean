import Conjectures.TmcPay.Effects
import Conjectures.Webhooks.Steps

/-!
# Delivery rows

A delivery is spent once its row says anything but FAILED: claiming it is refused from then
on (`claim_iff`), and nothing a handler writes makes it claimable again.  A handler writes
the row of its own delivery only.
-/

namespace Conjectures.Webhooks

open Lib Db Api TmcPay

/-- The delivery was seen, and processing it did not fail. -/
def Spent (db : Database) (webhookId : String) : Prop :=
  ∃ r ∈ db.deliveries.rows, r.webhookId = webhookId ∧ r.outcome ≠ .failed

/-- No row but this delivery's was touched. -/
def OnlyDelivery (webhookId : String) (db db' : Database) : Prop :=
  ∀ r : TmcPayWebhookDelivery, r.webhookId ≠ webhookId →
    (r ∈ db'.deliveries.rows ↔ r ∈ db.deliveries.rows)

section Frame

variable {w : String} {db db' db'' : Database}

theorem OnlyDelivery.of_eq (h : db'.deliveries = db.deliveries) : OnlyDelivery w db db' := by
  intro r _
  rw [h]

theorem OnlyDelivery.trans (h : OnlyDelivery w db db') (h' : OnlyDelivery w db' db'') :
    OnlyDelivery w db db'' := fun r hr ↦ (h' r hr).trans (h r hr)

theorem OnlyDelivery.modify {f : TmcPayWebhookDelivery → TmcPayWebhookDelivery}
    (hf : ∀ r, (f r).webhookId = r.webhookId)
    (h : db'.deliveries = db.deliveries.modify w f hf) : OnlyDelivery w db db' := by
  intro r hr
  rw [h, Table.mem_modify]
  constructor
  · rintro (⟨hmem, -⟩ | ⟨r', -, hid, rfl⟩)
    · exact hmem
    · exact absurd ((hf r').trans hid) hr
  · exact fun hmem ↦ Or.inl ⟨hmem, hr⟩

theorem OnlyDelivery.spent (h : OnlyDelivery w db db') {w' : String} (hne : w' ≠ w) :
    Spent db' w' ↔ Spent db w' := by
  constructor
  · rintro ⟨r, hr, hid, houtcome⟩
    exact ⟨r, (h r (by rw [hid]; exact hne)).mp hr, hid, houtcome⟩
  · rintro ⟨r, hr, hid, houtcome⟩
    exact ⟨r, (h r (by rw [hid]; exact hne)).mpr hr, hid, houtcome⟩

theorem spent_of_eq (h : db'.deliveries = db.deliveries) : Spent db' w ↔ Spent db w := by
  unfold Spent
  rw [h]

end Frame

/-! ## Claiming -/

/-- What a claim does: it inserts the row, takes over the row of a failed delivery, or is
refused. -/
theorem claim_cases (d : Delivery) (db : Database) :
    (∃ deliveries r, db.deliveries.insert? r = some deliveries ∧ r.webhookId = d.webhookId ∧
        r.outcome = .ignored ∧ d.claim db = (true, { db with deliveries })) ∨
      (∃ r ∈ db.deliveries.rows, r.webhookId = d.webhookId ∧ r.outcome = .failed ∧
        ∃ invoiceId event status, d.claim db = (true, { db with
          deliveries := db.deliveries.modify d.webhookId (·.reclaimed invoiceId event status)
            (TmcPayWebhookDelivery.reclaimed_id invoiceId event status) })) ∨
      (∃ r ∈ db.deliveries.rows, r.webhookId = d.webhookId ∧ r.outcome ≠ .failed ∧
        d.claim db = (false, db)) := by
  unfold Delivery.claim claimDelivery
  cases hins : db.deliveries.insert? ⟨d.webhookId, none, some d.invoice.invoiceId, d.event,
      some d.invoice.status.text, .ignored⟩ with
  | some deliveries => exact Or.inl ⟨deliveries, _, hins, rfl, rfl, rfl⟩
  | none =>
    obtain ⟨r, hr, hid⟩ := Table.insert?_eq_none.mp hins
    have hfind : db.deliveries.find? d.webhookId = some r := Table.find?_eq_some.mpr ⟨hr, hid⟩
    refine Or.inr ?_
    simp only [hfind]
    by_cases hfailed : r.outcome = .failed
    · exact Or.inl ⟨r, hr, hid, hfailed, some d.invoice.invoiceId, d.event,
        some d.invoice.status.text, if_pos hfailed⟩
    · exact Or.inr ⟨r, hr, hid, hfailed, if_neg hfailed⟩

theorem claim_only (d : Delivery) (db : Database) :
    OnlyDelivery d.webhookId db (d.claim db).2 := by
  rcases claim_cases d db with ⟨deliveries, r, hins, hid, -, heq⟩ |
    ⟨r, -, -, -, invoiceId, event, status, heq⟩ | ⟨r, -, -, -, heq⟩
  · rw [heq]
    intro r' hr'
    show r' ∈ deliveries.rows ↔ _
    rw [Table.rows_of_insert? hins, List.mem_append, List.mem_singleton]
    refine or_iff_left fun h ↦ hr' ?_
    rw [h, hid]
  · rw [heq]
    exact .modify (TmcPayWebhookDelivery.reclaimed_id invoiceId event status) rfl
  · rw [heq]
    exact .of_eq rfl

/-- A delivery is claimed when it is new or failed, and not when it is spent. -/
theorem claim_iff (d : Delivery) (db : Database) :
    (d.claim db).1 = true ↔ ¬ Spent db d.webhookId := by
  rcases claim_cases d db with ⟨deliveries, r, hins, hid, -, heq⟩ |
    ⟨r, hr, hid, hfailed, _, _, _, heq⟩ | ⟨r, hr, hid, hkept, heq⟩
  · refine iff_of_true (by rw [heq]) ?_
    rintro ⟨r', hr', hid', -⟩
    exact Table.fresh_of_insert? hins r' hr' (hid'.trans hid.symm)
  · refine iff_of_true (by rw [heq]) ?_
    rintro ⟨r', hr', hid', houtcome⟩
    rw [db.deliveries.eq_of_key hr' hr (hid'.trans hid.symm)] at houtcome
    exact houtcome hfailed
  · refine iff_of_false ?_ (not_not.mpr ⟨r, hr, hid, hkept⟩)
    rw [heq]
    exact Bool.false_ne_true

theorem claim_of_spent {d : Delivery} {db : Database} (h : Spent db d.webhookId) :
    d.claim db = (false, db) := by
  have hrefused : (d.claim db).1 ≠ true := fun hclaimed ↦ (claim_iff d db).mp hclaimed h
  rcases claim_cases d db with ⟨_, _, -, -, -, heq⟩ | ⟨_, -, -, -, _, _, _, heq⟩ |
    ⟨_, -, -, -, heq⟩
  · exact absurd (by rw [heq]) hrefused
  · exact absurd (by rw [heq]) hrefused
  · exact heq

/-- A claimed delivery is spent, should its transaction commit. -/
theorem spent_claim (d : Delivery) (db : Database) : Spent (d.claim db).2 d.webhookId := by
  rcases claim_cases d db with ⟨deliveries, r, hins, hid, houtcome, heq⟩ |
    ⟨r, hr, hid, -, invoiceId, event, status, heq⟩ | ⟨r, hr, hid, hkept, heq⟩
  · rw [heq]
    refine ⟨r, ?_, hid, by rw [houtcome]; exact fun h ↦ by cases h⟩
    show r ∈ deliveries.rows
    rw [Table.rows_of_insert? hins]
    exact List.mem_append_right _ List.mem_cons_self
  · rw [heq]
    refine ⟨r.reclaimed invoiceId event status, ?_, hid, fun h ↦ by cases h⟩
    have := @Table.mem_modify_of_mem _ _ _ _ (·.reclaimed invoiceId event status)
      (TmcPayWebhookDelivery.reclaimed_id invoiceId event status) db.deliveries r
      (r.reclaimed invoiceId event status) hr
    rw [hid] at this
    exact this.mpr (Or.inr rfl)
  · rw [heq]
    exact ⟨r, hr, hid, hkept⟩

/-! ## Noting -/

theorem noteDeliveryOutcome_only (db : Database) (w : String) (outcome : DeliveryOutcome)
    (orderId : Option Uuid) : OnlyDelivery w db (noteDeliveryOutcome db w outcome orderId) :=
  .modify (TmcPayWebhookDelivery.noted_id outcome orderId) rfl

theorem Spent.note {db : Database} {w w' : String} (h : Spent db w') {outcome : DeliveryOutcome}
    (houtcome : outcome ≠ .failed) (orderId : Option Uuid) :
    Spent (noteDeliveryOutcome db w outcome orderId) w' := by
  by_cases hw : w' = w
  · obtain ⟨r, hr, hid, -⟩ := h
    refine ⟨r.noted outcome orderId, ?_, hid, houtcome⟩
    have := @Table.mem_modify_of_mem _ _ _ _ (·.noted outcome orderId)
      (TmcPayWebhookDelivery.noted_id outcome orderId) db.deliveries r (r.noted outcome orderId) hr
    rw [hid, hw] at this
    exact this.mpr (Or.inr rfl)
  · exact ((noteDeliveryOutcome_only db w outcome orderId).spent hw).mpr h

/-- Noting an outcome on a row that is not there writes nothing. -/
theorem noteDeliveryOutcome_absent {db : Database} {w : String} (h : db.deliveries.find? w = none)
    (outcome : DeliveryOutcome) (orderId : Option Uuid) (w' : String) :
    Spent (noteDeliveryOutcome db w outcome orderId) w' ↔ Spent db w' := by
  by_cases hw : w' = w
  · subst hw
    have hnone := Table.find?_eq_none.mp h
    constructor
    · rintro ⟨r, hr, hid, -⟩
      rcases Table.mem_modify.mp (show r ∈ (db.deliveries.modify w' (·.noted outcome orderId)
        (TmcPayWebhookDelivery.noted_id outcome orderId)).rows from hr) with ⟨hr, -⟩ |
        ⟨r', hr', hid', -⟩
      · exact absurd hid (hnone r hr)
      · exact absurd hid' (hnone r' hr')
    · rintro ⟨r, hr, hid, -⟩
      exact absurd hid (hnone r hr)
  · exact (noteDeliveryOutcome_only db w outcome orderId).spent hw

/-! ## The ends of a delivery -/

theorem superseded_only (db : Database) (d : Delivery) (orderId : Uuid) :
    OnlyDelivery d.webhookId db (superseded db d orderId) := by
  have hflag : OnlyDelivery d.webhookId db
      (if d.invoice.status.NoMoney then db else flagForReview db orderId) := by
    split <;> exact .of_eq rfl
  exact hflag.trans (noteDeliveryOutcome_only _ _ _ _)

theorem Spent.superseded {db : Database} {w : String} (h : Spent db w) (d : Delivery)
    (orderId : Uuid) : Spent (superseded db d orderId) w := by
  have hflag : Spent (if d.invoice.status.NoMoney then db else flagForReview db orderId) w := by
    split
    · exact h
    · exact h
  exact hflag.note (by decide) _

theorem failed_only (db : Database) (d : Delivery) (orderId : Uuid) :
    OnlyDelivery d.webhookId db (failed db d orderId) := by
  have hnote : OnlyDelivery d.webhookId db (if (d.claim db).1 then
      noteDeliveryOutcome (d.claim db).2 d.webhookId .failed (some orderId)
      else (d.claim db).2) := by
    split
    · exact (claim_only d db).trans (noteDeliveryOutcome_only _ _ _ _)
    · exact claim_only d db
  exact hnote.trans (.of_eq rfl)

theorem Spent.failed {db : Database} {w : String} (h : Spent db w) (d : Delivery)
    (orderId : Uuid) : Spent (failed db d orderId) w := by
  by_cases hw : w = d.webhookId
  · subst hw
    unfold Api.failed
    rw [claim_of_spent h]
    exact h
  · exact ((failed_only db d orderId).spent hw).mpr h

theorem answer_only (db : Database) (d : Delivery) (outcome : DeliveryOutcome) (claimed : Bool) :
    OnlyDelivery d.webhookId db (answer db d outcome claimed) := by
  unfold answer
  split
  · exact noteDeliveryOutcome_only _ _ _ _
  · exact .of_eq rfl

theorem Spent.answer {db : Database} {w : String} (h : Spent db w) (d : Delivery)
    {outcome : DeliveryOutcome} (houtcome : outcome ≠ .failed) (claimed : Bool) :
    Spent (answer db d outcome claimed) w := by
  unfold Api.answer
  split
  · exact h.note houtcome none
  · exact h

end Conjectures.Webhooks

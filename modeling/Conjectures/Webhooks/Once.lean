import Conjectures.Webhooks.Deliveries

/-!
# What a delivery may do

A delivery is applied at most once, whoever redelivers it and whenever (`spent_run`).  One
that failed is claimed by the next redelivery.  A delivery about an invoice its order does
not sell leaves the order alone, unless the order got that other invoice between the
handler's lookup and its write.
-/

namespace Conjectures.Webhooks

open Lib Db Api TmcPay

/-! ## Applied at most once -/

theorem Spent.claim {db : Database} {w : String} (h : Spent db w) (d : Delivery) :
    Spent (d.claim db).2 w := by
  by_cases hw : w = d.webhookId
  · rw [hw]
    exact spent_claim d db
  · exact ((claim_only d db).spent hw).mpr h

/-- The step commits an application of the delivery. -/
def Applies (settings : TmcPaySettings) (s : State) (a : Step) (w : String) : Prop :=
  match a with
  | .apply number now false => ∃ h ∈ s.handlers.rows, h.number = number ∧
    h.delivery.webhookId = w ∧ ∃ order byExternalId, h.phase = .applying order byExternalId ∧
      ∃ db orderId outcome, attempt settings (h.delivery.claim s.db).2 order byExternalId
        h.delivery now = .ok (.applied db orderId outcome)
  | _ => False

section Steps

variable {settings : TmcPaySettings} {s : State}

/-- A spent delivery stays spent. -/
theorem spent_step {w : String} (hinv : Inv s) (h : Spent s.db w) (a : Step) :
    Spent (step settings s a).db w := by
  cases a with
  | arrive number d =>
    dsimp only [step, arrive]
    split
    · exact h
    · split
      · exact (h.claim d).answer d (by decide) _
      · split
        · exact h
        · split
          · exact (h.claim d).answer d (by decide) _
          · split <;> exact h
  | apply number now fault =>
    dsimp only [step]
    split
    · rename_i number' d order byExternalId hfind
      split
      · exact h
      · unfold apply
        split
        · rename_i db hattempt
          have hdb := attempt_only hattempt
          dsimp only at hdb
          rw [hdb]
          exact (h.claim d).superseded d order.id
        · rename_i db orderId outcome hattempt
          exact (spent_of_eq (attempt_only hattempt).2.1).mpr (h.claim d)
        · exact h
        · exact h
    · exact h
  | note number fault =>
    dsimp only [step]
    split
    · rename_i g hfind
      obtain ⟨hg, -⟩ := Table.find?_eq_some.mp hfind
      unfold note
      split
      · rename_i orderId outcome hphase
        split
        · exact h
        · split
          · exact h
          · exact h.note ((hinv.wellFormed g hg).outcome _ _ hphase) _
      · split
        · exact h
        · split
          · exact h
          · split
            · rename_i db hnote
              simp only [noteCredited, bind_eq_ok] at hnote
              obtain ⟨after, -, hnote⟩ := hnote
              cases hnote
              exact h.note (appliedOutcome_ne_failed _ _) _
            · exact h
      · exact h
    · exact h
  | fail number fault =>
    dsimp only [step]
    split
    · unfold fail
      split
      · split
        · exact h
        · split
          · exact h
          · exact h.failed _ _
      · exact h
    · exact h
  | crash number => exact h
  | poll => exact (spent_of_eq (background_step trivial).1).mpr h
  | sweep => exact (spent_of_eq (background_step trivial).1).mpr h
  | lapse => exact (spent_of_eq (background_step trivial).1).mpr h
  | purchase => exact (spent_of_eq (background_step trivial).1).mpr h
  | invoice => exact (spent_of_eq (background_step trivial).1).mpr h

/-- What is applied was not spent before, and is afterwards. -/
theorem applies_spends {a : Step} {w : String} (hinv : Inv s) (h : Applies settings s a w) :
    ¬ Spent s.db w ∧ Spent (step settings s a).db w := by
  unfold Applies at h
  split at h
  · rename_i number now
    obtain ⟨g, hg, rfl, rfl, order, byExternalId, hphase, db, orderId, outcome, hattempt⟩ := h
    refine ⟨hinv.exclusive.unspent g hg (by rw [hphase]; trivial), ?_⟩
    obtain ⟨number, d, phase⟩ := g
    dsimp only at hphase
    subst hphase
    dsimp only [step]
    rw [Table.find?_of_mem hg]
    dsimp only [Webhooks.apply]
    rw [if_neg Bool.false_ne_true, hattempt]
    exact (spent_of_eq (attempt_only hattempt).2.1).mpr (spent_claim d s.db)
  · exact h.elim

theorem spent_run {w : String} (hinv : Inv s) (h : Spent s.db w) (as : List Step) :
    Each (step settings) (fun s a ↦ ¬ Applies settings s a w) s as := by
  refine @each_of_invariant _ _ _ _ (fun s ↦ Inv s ∧ Spent s.db w) ?_ ?_ _ ⟨hinv, h⟩ as
  · exact fun s a h ↦ ⟨step_inv h.1 a, spent_step h.1 h.2 a⟩
  · exact fun s a h happlies ↦ (applies_spends h.1 happlies).1 h.2

/-! ## Failed and redelivered -/

/-- A delivery nobody works on, and that is not spent, is taken up by the handler it arrives
at. -/
theorem arrive_claims {number : ℕ} {d : Delivery} {order : TmcPayOrder} {byExternalId : Bool}
    (hfree : ¬ s.Held d.webhookId) (hunspent : ¬ Spent s.db d.webhookId)
    (hours : ¬ d.Foreign settings)
    (hmatch : matchOrder s.db d.invoice = some (order, byExternalId))
    (hnew : ∀ h ∈ s.handlers.rows, h.number ≠ number) :
    (⟨number, d, .applying order byExternalId⟩ : Handler) ∈
      (step settings s (.arrive number d)).handlers.rows := by
  have hclaimed := (claim_iff d s.db).mpr hunspent
  have horders : (d.claim s.db).2.orders = s.db.orders := (claimDelivery_orders ..).1
  have hmatch' : matchOrder (d.claim s.db).2 d.invoice = some (order, byExternalId) := by
    rw [matchOrder_congr horders]
    exact hmatch
  dsimp only [step, arrive]
  rw [if_neg hfree, if_neg hours, if_neg (by rw [hclaimed]; exact fun h ↦ h rfl), hmatch']
  dsimp only
  cases hins : s.handlers.insert? ⟨number, d, .applying order byExternalId⟩ with
  | none =>
    obtain ⟨h, hh, hnumber⟩ := Table.insert?_eq_none.mp hins
    exact absurd hnumber (hnew h hh)
  | some handlers =>
    show _ ∈ handlers.rows
    rw [Table.rows_of_insert? hins]
    exact List.mem_append_right _ List.mem_cons_self

end Steps

/-! ## About another invoice -/

/-- The order sells what it sold and stands where it stood. -/
def SameSale (o o' : TmcPayOrder) : Prop :=
  o'.id = o.id ∧ o'.status = o.status ∧ o'.invoiceId = o.invoiceId ∧
    o'.creditedLedgerId = o.creditedLedgerId

theorem SameSale.refl (o : TmcPayOrder) : SameSale o o := ⟨rfl, rfl, rfl, rfl⟩

theorem SameSale.trans (o₁ o₂ o₃ : TmcPayOrder) (h : SameSale o₁ o₂) (h' : SameSale o₂ o₃) :
    SameSale o₁ o₃ :=
  ⟨h'.1.trans h.1, h'.2.1.trans h.2.1, h'.2.2.1.trans h.2.2.1, h'.2.2.2.trans h.2.2.2⟩

/-- A write that sells nothing. -/
def NoSale (db db' : Database) : Prop := db'.ledger = db.ledger ∧ RowsBy SameSale db db'

theorem NoSale.of_eq {db db' : Database} (hledger : db'.ledger = db.ledger)
    (horders : db'.orders = db.orders) : NoSale db db' := ⟨hledger, .of_eq SameSale.refl horders⟩

theorem NoSale.of_flags {db db' : Database} (h : FlagsOnly db db') : NoSale db db' := by
  refine ⟨h.ledger, h.rows.mono ?_⟩
  rintro o o' (rfl | rfl)
  · exact .refl o'
  · exact ⟨rfl, rfl, rfl, rfl⟩

/-- The order sells another invoice than the one the delivery is about. -/
def SellsAnother (o : TmcPayOrder) (d : Delivery) : Prop :=
  o.invoiceId.isSome ∧ o.invoiceId ≠ some d.invoice.invoiceId

instance SellsAnother.decidable (o : TmcPayOrder) (d : Delivery) :
    Decidable (SellsAnother o d) := by
  unfold SellsAnother; infer_instance

/-- An order that sells another invoice when the handler writes did so when the handler
looked it up. -/
def Steady (s : State) : Step → Prop
  | .apply number _ _ => ∀ h ∈ s.handlers.rows, h.number = number → ∀ order ∈ h.phase.copy,
      ∀ o ∈ s.db.orders.rows, o.id = order.id → SellsAnother o h.delivery →
        SellsAnother order h.delivery
  | _ => True

instance Steady.decidable (s : State) (a : Step) : Decidable (Steady s a) := by
  unfold Steady; split <;> infer_instance

/-- What a handler does to the orders that sell another invoice than its delivery is about:
nothing, and nothing to the ledger where its own order is one of them. -/
def LeavesOthers (settings : TmcPaySettings) (s : State) (a : Step) : Prop :=
  match a with
  | .arrive .. | .note .. | .fail .. | .crash _ => NoSale s.db (step settings s a).db
  | .apply number _ _ => ∀ h ∈ s.handlers.rows, h.number = number → ∀ o ∈ s.db.orders.rows,
      SellsAnother o h.delivery → (∃ o' ∈ (step settings s a).db.orders.rows, SameSale o o') ∧
        ∀ order ∈ h.phase.copy, order.id = o.id → (step settings s a).db.ledger = s.db.ledger
  | .poll .. | .sweep .. | .lapse _ | .purchase .. | .invoice .. => True

section Others

variable {settings : TmcPaySettings} {s : State}

/-- A handler whose copy sells another invoice records the delivery and sells nothing: it
found the order by its `external_id`. -/
theorem apply_other_invoice {number : ℕ} {d : Delivery} {order : TmcPayOrder}
    {byExternalId : Bool} (hwell : WellFormed ⟨number, d, .applying order byExternalId⟩)
    (hother : SellsAnother order d) (now : Instant) :
    NoSale s.db (apply settings s number d order byExternalId now).db := by
  have hexternal : byExternalId = true := by
    rcases hwell.copy order byExternalId rfl with h | h
    · exact h
    · exact absurd h hother.2
  have hattempt : attempt settings (d.claim s.db).2 order byExternalId d now =
      .ok (.superseded (superseded (d.claim s.db).2 d order.id)) :=
    if_pos ⟨hexternal, hother.1⟩
  dsimp only [Webhooks.apply]
  rw [hattempt]
  exact .of_flags ((FlagsOnly.claim s.db d).trans (.superseded _ d order.id))

/-- A handler writes the row of its own order only. -/
theorem apply_only (number : ℕ) (d : Delivery) (order : TmcPayOrder) (byExternalId : Bool)
    (now : Instant) : OnlyOrder order.id s.db
      (apply settings s number d order byExternalId now).db := by
  have hclaim : OnlyOrder order.id s.db (d.claim s.db).2 := .of_eq (claimDelivery_orders ..).1
  unfold apply
  split
  · rename_i db hattempt
    have hdb := attempt_only hattempt
    dsimp only at hdb
    rw [hdb]
    exact hclaim.trans (superseded_onlyOrder _ d order.id)
  · rename_i db orderId outcome hattempt
    exact hclaim.trans (attempt_only hattempt).1
  · exact .of_eq rfl
  · exact .of_eq rfl

theorem apply_leavesOthers (hinv : Inv s) {number : ℕ} {now : Instant} {fault : Bool}
    (hsteady : Steady s (.apply number now fault)) :
    LeavesOthers settings s (.apply number now fault) := by
  intro h hh hnumber o ho hother
  subst hnumber
  suffices hnosale : (∃ o' ∈ (step settings s (.apply h.number now fault)).db.orders.rows,
      SameSale o o') ∧ ∀ order ∈ h.phase.copy, order.id = o.id →
        NoSale s.db (step settings s (.apply h.number now fault)).db from
    ⟨hnosale.1, fun order hcopy hid ↦ (hnosale.2 order hcopy hid).1⟩
  have hwell := hinv.wellFormed h hh
  have hsteady := hsteady h hh rfl
  dsimp only [step]
  rw [Table.find?_of_mem hh]
  obtain ⟨number, d, phase⟩ := h
  cases phase with
  | applying order byExternalId =>
    dsimp only
    split
    · exact ⟨⟨o, ho, .refl o⟩, fun _ _ _ ↦ .of_eq rfl rfl⟩
    · by_cases hid : o.id = order.id
      · have hnosale : NoSale s.db (apply settings s number d order byExternalId now).db :=
          apply_other_invoice hwell (hsteady order rfl o ho hid hother) now
        exact ⟨hnosale.2.later o ho, fun _ _ _ ↦ hnosale⟩
      · refine ⟨⟨o, (apply_only number d order byExternalId now o hid).mpr ho, .refl o⟩, ?_⟩
        rintro order' hcopy hid'
        cases hcopy
        exact absurd hid'.symm hid
  | noting | rereading | failing | done =>
    exact ⟨⟨o, ho, .refl o⟩, fun _ _ _ ↦ .of_eq rfl rfl⟩

theorem steady_leavesOthers (hinv : Inv s) {a : Step} (hsteady : Steady s a) :
    LeavesOthers settings s a := by
  cases a with
  | arrive number d => exact .of_flags (arrive_flags number d)
  | apply number now fault => exact apply_leavesOthers hinv hsteady
  | note number fault =>
    dsimp only [LeavesOthers, step]
    split
    · exact .of_flags (note_flags _ fault)
    · exact .of_eq rfl rfl
  | fail number fault =>
    dsimp only [LeavesOthers, step]
    split
    · exact .of_flags (fail_flags _ fault)
    · exact .of_eq rfl rfl
  | crash number => exact .of_eq rfl rfl
  | poll | sweep | lapse | purchase | invoice => trivial

end Others

/-! ## Every run of deliveries -/

/-- What the rows of the deliveries promise about the steps to come. -/
structure Deduplicated (settings : TmcPaySettings) (s : State) : Prop where
  /-- a delivery that was applied, or ended otherwise than by failing, is never applied -/
  spent : ∀ w, Spent s.db w →
    ∀ as, Each (step settings) (fun t a ↦ ¬ Applies settings t a w) s as
  applied : ∀ a w, Applies settings s a w → Spent (step settings s a).db w
  /-- one recorded as failed is claimed by the next redelivery -/
  claimable : ∀ r ∈ s.db.deliveries.rows, r.outcome = .failed → ∀ d : Delivery,
    d.webhookId = r.webhookId → (d.claim s.db).1 = true
  reclaimed : ∀ r ∈ s.db.deliveries.rows, r.outcome = .failed →
    ∀ (number : ℕ) (d : Delivery) (order : TmcPayOrder) (byExternalId : Bool),
      d.webhookId = r.webhookId → ¬ s.Held d.webhookId → ¬ d.Foreign settings →
      matchOrder s.db d.invoice = some (order, byExternalId) →
      (∀ h ∈ s.handlers.rows, h.number ≠ number) →
      ⟨number, d, .applying order byExternalId⟩ ∈
        (step settings s (.arrive number d)).handlers.rows
  /-- and by one handler at a time -/
  alone : ∀ h ∈ s.handlers.rows, ∀ h' ∈ s.handlers.rows, h.phase.Applying → h'.phase.Applying →
    h.delivery.webhookId = h'.delivery.webhookId → h = h'

theorem failed_unspent {db : Database} {r : TmcPayWebhookDelivery} (hr : r ∈ db.deliveries.rows)
    (hfailed : r.outcome = .failed) : ¬ Spent db r.webhookId := by
  rintro ⟨r', hr', hid, houtcome⟩
  rw [db.deliveries.eq_of_key hr' hr hid] at houtcome
  exact houtcome hfailed

theorem Inv.deduplicated {s : State} (settings : TmcPaySettings) (hinv : Inv s) :
    Deduplicated settings s where
  spent _ h as := spent_run hinv h as
  applied _ _ h := (applies_spends hinv h).2
  claimable r hr hfailed d hid := by
    apply (claim_iff d s.db).mpr
    rw [hid]
    exact failed_unspent hr hfailed
  reclaimed r hr hfailed number d order byExternalId hid hfree hours hmatch hnew := by
    apply arrive_claims hfree _ hours hmatch hnew
    rw [hid]
    exact failed_unspent hr hfailed
  alone := hinv.exclusive.alone

/-- Deliveries are deduplicated without losing a failed one, in every run from a state in
which none is in flight.  As long as no order gets another invoice between a handler's
lookup and its write, none changes an order that sells another invoice. -/
theorem deliveries_are_deduplicated (settings : TmcPaySettings) {s : State}
    (hidle : s.handlers.rows = []) (as : List Step) :
    Deduplicated settings (run (step settings) s as) ∧
      (Each (step settings) Steady s as → Each (step settings) (LeavesOthers settings) s as) := by
  have hinv : Inv s := .of_idle hidle
  constructor
  · have hrun : Inv (run (step settings) s as) :=
      @run_invariant _ _ (step settings) Inv (fun _ a h ↦ step_inv h a) s hinv as
    exact hrun.deduplicated settings
  · intro hsteady
    exact hsteady.imp (fun _ a _ h ↦ step_inv h a) (fun _ _ hok h ↦ steady_leavesOthers h hok) hinv

/-! ## A stale lookup -/

def exampleState : State := ⟨exampleOrders, .empty Handler.number⟩

/-- A delivery recovers the invoice the create-response lost. -/
def exampleSteps : List Step :=
  [.arrive 0 (exampleDelivery "w1" (exampleInvoice "i1" .confirmed 12)), .apply 0 20 false,
    .note 0 false, .arrive 1 (exampleDelivery "w1" (exampleInvoice "i1" .confirmed 12))]

theorem repeated_delivery_example :
    Deduplicated exampleSettings (run (step exampleSettings) exampleState exampleSteps) ∧
      Each (step exampleSettings) (LeavesOthers exampleSettings) exampleState exampleSteps := by
  have h := @deliveries_are_deduplicated exampleSettings exampleState rfl exampleSteps
  exact ⟨h.1, h.2 (by decide +kernel)⟩

/-- An invoice attached between the lookup and the write is replaced by the one of the
delivery, which is then credited. -/
theorem stale_lookup_credits_another_invoice :
    ¬ ∀ as, Each (step exampleSettings) (LeavesOthers exampleSettings) exampleState as := by
  intro h
  have happly := (h [.arrive 0 (exampleDelivery "w1" (exampleInvoice "i1" .confirmed 12)),
    .invoice 7 (exampleInvoice "i2" .created 12).fields, .apply 0 20 false]).2.2.1
  have hledger := (happly ⟨0, exampleDelivery "w1" (exampleInvoice "i1" .confirmed 12),
    .applying exampleOrder true⟩ (by decide +kernel) rfl
    (exampleOrder.invoiced (exampleInvoice "i2" .created 12).fields) (by decide +kernel)
    (by decide +kernel)).2 exampleOrder rfl rfl
  exact absurd (congrArg (·.rows.length) hledger) (by decide +kernel)

end Conjectures.Webhooks

import Conjectures.TmcPay.Rows
import Conjectures.Webhooks.Claims

/-!
# Each delivery once

However the handlers interleave and wherever they crash, one of them at most works on a
delivery at a time, and none on one that is spent (`Exclusive`).  The rest of the invariant
says what the handlers carry between their transactions (`WellFormed`).
-/

namespace Conjectures.Webhooks

open Lib Db Api TmcPay

/-! ## Frames of one transaction -/

/-- No row but this order's was touched. -/
def OnlyOrder (id : Uuid) (db db' : Database) : Prop :=
  ∀ o : TmcPayOrder, o.id ≠ id → (o ∈ db'.orders.rows ↔ o ∈ db.orders.rows)

theorem OnlyOrder.of_eq {id : Uuid} {db db' : Database} (h : db'.orders = db.orders) :
    OnlyOrder id db db' := by
  intro o _
  rw [h]

theorem OnlyOrder.trans {id : Uuid} {db db' db'' : Database} (h : OnlyOrder id db db')
    (h' : OnlyOrder id db' db'') : OnlyOrder id db db'' := fun o ho ↦ (h' o ho).trans (h o ho)

theorem OnlyOrder.modify {id : Uuid} {db db' : Database} {f : TmcPayOrder → TmcPayOrder}
    (hf : ∀ o, (f o).id = o.id) (h : db'.orders = db.orders.modify id f hf) :
    OnlyOrder id db db' := by
  intro o ho
  rw [h, Table.mem_modify]
  constructor
  · rintro (⟨hmem, -⟩ | ⟨o', -, hid, rfl⟩)
    · exact hmem
    · exact absurd ((hf o').trans hid) ho
  · exact fun hmem ↦ Or.inl ⟨hmem, ho⟩

section Copies

variable {settings : TmcPaySettings} {db db' : Database} {order order' : TmcPayOrder}

theorem saveOrder_only {seen new : TmcPayOrder} (h : saveOrder db seen new = .ok db') :
    OnlyOrder seen.id db db' ∧ db'.deliveries = db.deliveries := by
  obtain ⟨current, -, hid, -, rfl⟩ := saveOrder_spec h
  rw [← hid]
  exact ⟨.modify (TmcPayOrder.flush_id seen new) rfl, rfl⟩

/-- An invoice applied to a copy, however old, writes the row of its order and no delivery. -/
theorem applyInvoice_only {invoice : Invoice} {now : Instant} {polledAt : Option Instant}
    {eventId : Option String}
    (h : applyInvoice settings db order invoice now polledAt eventId =
      .ok (.applied order' db')) :
    OnlyOrder order.id db db' ∧ db'.deliveries = db.deliveries := by
  rcases applyInvoice_spec h with ⟨-, locked, -, hid, entry, -, hsettled⟩ | ⟨-, hsave⟩
  · rw [← hid]
    exact ⟨.modify (TmcPayOrder.flush_id _ _) hsettled.orders, by rw [hsettled.rest]⟩
  · exact saveOrder_only hsave

theorem attachMissing_only {attached : TmcPayOrder} {invoice : Invoice}
    (h : attachMissing db order invoice = .ok (attached, db')) :
    attached.id = order.id ∧ OnlyOrder order.id db db' ∧ db'.deliveries = db.deliveries := by
  unfold attachMissing at h
  split at h
  · obtain ⟨rfl, -, hsave⟩ := attachInvoice_spec h
    exact ⟨rfl, saveOrder_only hsave⟩
  · cases h
    exact ⟨rfl, .of_eq rfl, rfl⟩

theorem appliedOutcome_ne_failed (before after : TmcPayOrder) :
    appliedOutcome before after ≠ .failed := by
  unfold appliedOutcome
  split <;> exact fun h ↦ by cases h

theorem superseded_onlyOrder (db : Database) (d : Delivery) (id : Uuid) :
    OnlyOrder id db (superseded db d id) := by
  have hflag : OnlyOrder id db
      (if d.invoice.status.NoMoney then db else flagForReview db id) := by
    split
    · exact .of_eq rfl
    · exact .modify TmcPayOrder.flagged_id rfl
  exact hflag.trans (.of_eq rfl)

/-- What an attempt writes. -/
theorem attempt_only {byExternalId : Bool} {d : Delivery} {now : Instant} {a : Attempt}
    (h : attempt settings db order byExternalId d now = .ok a) :
    match a with
    | .superseded db' => db' = superseded db d order.id
    | .applied db' _ outcome => OnlyOrder order.id db db' ∧ db'.deliveries = db.deliveries ∧
        outcome ≠ .failed
    | .alreadyCredited _ => True := by
  unfold attempt at h
  split at h
  · cases h
    rfl
  · split at h
    · cases h
      rfl
    · cases h
    · rename_i attached db₁ hattach
      obtain ⟨hid, horder, hdeliveries⟩ := attachMissing_only hattach
      obtain ⟨application, happly, h⟩ := bind_eq_ok.mp h
      cases application with
      | alreadyCredited =>
        cases h
        trivial
      | applied after db₂ =>
        cases h
        obtain ⟨horder', hdeliveries'⟩ := applyInvoice_only happly
        rw [hid] at horder'
        exact ⟨horder.trans horder', hdeliveries'.trans hdeliveries,
          appliedOutcome_ne_failed attached after⟩

end Copies

theorem refreshOrder_deliveries {settings : TmcPaySettings} {order order' : TmcPayOrder}
    {invoice : Invoice} {now : Instant} {db db' : Database}
    (h : refreshOrder settings order invoice now db = .ok (order', db')) :
    db'.deliveries = db.deliveries := by
  rcases refreshOrder_spec h with rfl | ⟨-, happly⟩
  · rfl
  · exact (applyInvoice_only happly).2

/-! ## Steps that apply nothing -/

section Frames

variable {settings : TmcPaySettings} {s : State}

theorem arrive_flags (number : ℕ) (d : Delivery) :
    FlagsOnly s.db (arrive settings s number d).db := by
  have hclaim := FlagsOnly.claim s.db d
  unfold arrive
  split
  · exact .refl s.db
  · dsimp only
    split
    · exact hclaim.trans (.answer ..)
    · split
      · exact .refl s.db
      · split
        · exact hclaim.trans (FlagsOnly.answer _ d .unknown true)
        · split <;> exact .refl s.db

theorem note_flags (h : Handler) (fault : Bool) : FlagsOnly s.db (note s h fault).db := by
  unfold note
  split
  · split
    · exact .refl s.db
    · split <;> exact .of_eq rfl rfl
  · split
    · exact .refl s.db
    · split
      · exact .refl s.db
      · split
        · rename_i db hnote
          simp only [noteCredited, bind_eq_ok] at hnote
          obtain ⟨after, -, hnote⟩ := hnote
          cases hnote
          exact .of_eq rfl rfl
        · exact .refl s.db
  · exact .refl s.db

theorem fail_flags (h : Handler) (fault : Bool) : FlagsOnly s.db (fail s h fault).db := by
  unfold fail
  split
  · split
    · exact .refl s.db
    · split
      · exact .refl s.db
      · exact .failed ..
  · exact .refl s.db

end Frames

/-! ## One handler a delivery -/

/-- A handler at work holds a delivery that is not spent, and holds it alone. -/
structure Exclusive (s : State) : Prop where
  unspent : ∀ h ∈ s.handlers.rows, h.phase.Applying → ¬ Spent s.db h.delivery.webhookId
  alone : ∀ h ∈ s.handlers.rows, ∀ h' ∈ s.handlers.rows, h.phase.Applying → h'.phase.Applying →
    h.delivery.webhookId = h'.delivery.webhookId → h = h'

/-- The copies are of orders that were matched to the delivery, and what is to be noted is
not a failure. -/
structure WellFormed (h : Handler) : Prop where
  copy : ∀ order byExternalId, h.phase = .applying order byExternalId →
    byExternalId = true ∨ order.invoiceId = some h.delivery.invoice.invoiceId
  outcome : ∀ orderId outcome, h.phase = .noting orderId outcome → outcome ≠ .failed

structure Inv (s : State) : Prop where
  exclusive : Exclusive s
  wellFormed : ∀ h ∈ s.handlers.rows, WellFormed h

theorem Inv.of_idle {s : State} (h : s.handlers.rows = []) : Inv s := by
  refine ⟨⟨?_, ?_⟩, ?_⟩ <;> (rw [h]; intro g hg; cases hg)

/-- A write that spends no delivery at work. -/
theorem Inv.write {s : State} (h : Inv s) {db' : Database}
    (hdb : ∀ g ∈ s.handlers.rows, g.phase.Applying → ¬ Spent db' g.delivery.webhookId) :
    Inv { s with db := db' } :=
  ⟨⟨hdb, h.exclusive.alone⟩, h.wellFormed⟩

/-- The row of a delivery nobody holds. -/
theorem Inv.write_free {s : State} (h : Inv s) {w : String} (hfree : ¬ s.Held w)
    {db' : Database} (hdb : OnlyDelivery w s.db db') : Inv { s with db := db' } := by
  refine h.write fun g hg hwork ↦ ?_
  have hne : g.delivery.webhookId ≠ w := fun hw ↦ hfree ⟨g, hg, hw, hwork⟩
  rw [hdb.spent hne]
  exact h.exclusive.unspent g hg hwork

theorem mem_goto {s : State} {number : ℕ} {phase : Phase} {db : Database} {g : Handler} :
    g ∈ (s.goto number phase db).handlers.rows ↔ (g ∈ s.handlers.rows ∧ g.number ≠ number) ∨
      ∃ h ∈ s.handlers.rows, h.number = number ∧ h.moved phase = g :=
  @Table.mem_modify _ _ Handler.number _ (Handler.moved · phase) (Handler.moved_number phase)
    s.handlers number g

/-- A handler that stops working on its delivery. -/
theorem Inv.goto {s : State} (h : Inv s) {number : ℕ} {phase : Phase} {db' : Database}
    (hphase : ¬ phase.Applying) (hnoting : ∀ id o, phase = .noting id o → o ≠ .failed)
    (hdb : ∀ g ∈ s.handlers.rows, g.number ≠ number → g.phase.Applying →
      ¬ Spent db' g.delivery.webhookId) : Inv (s.goto number phase db') := by
  have hwork : ∀ g ∈ (s.goto number phase db').handlers.rows, g.phase.Applying →
      g ∈ s.handlers.rows ∧ g.number ≠ number := by
    intro g hg hwork
    rcases mem_goto.mp hg with hg | ⟨g', -, -, rfl⟩
    · exact hg
    · exact absurd hwork hphase
  refine ⟨⟨?_, ?_⟩, ?_⟩
  · intro g hg hgwork
    obtain ⟨hmem, hnumber⟩ := hwork g hg hgwork
    exact hdb g hmem hnumber hgwork
  · intro g hg g' hg' hgwork hgwork'
    exact h.exclusive.alone g (hwork g hg hgwork).1 g' (hwork g' hg' hgwork').1 hgwork hgwork'
  · intro g hg
    rcases mem_goto.mp hg with ⟨hg, -⟩ | ⟨g', -, -, rfl⟩
    · exact h.wellFormed g hg
    · refine ⟨fun order b hp ↦ ?_, fun id o hp ↦ hnoting id o hp⟩
      exact absurd (show phase.Applying by rw [show phase = .applying order b from hp]; trivial)
        hphase

/-- A handler that stops working without a write. -/
theorem Inv.leave {s : State} (h : Inv s) (number : ℕ) {phase : Phase}
    (hphase : ¬ phase.Applying) (hnoting : ∀ id o, phase = .noting id o → o ≠ .failed) :
    Inv (s.goto number phase s.db) :=
  h.goto hphase hnoting fun g hg _ hwork ↦ h.exclusive.unspent g hg hwork

section Steps

variable {settings : TmcPaySettings} {s : State}

theorem arrive_inv (h : Inv s) (number : ℕ) (d : Delivery) : Inv (arrive settings s number d) := by
  unfold arrive
  split
  · exact h
  · rename_i hfree
    have hclaim := claim_only d s.db
    dsimp only
    split
    · exact h.write_free hfree (hclaim.trans (answer_only _ _ _ _))
    · split
      · exact h
      · rename_i hclaimed
        split
        · exact h.write_free hfree (hclaim.trans (answer_only _ _ _ _))
        · rename_i order byExternalId hmatch
          split
          · rename_i handlers hins
            have hunspent : ¬ Spent s.db d.webhookId :=
              (claim_iff d s.db).mp (by simpa using hclaimed)
            have hold : ∀ g ∈ handlers.rows, g ∈ s.handlers.rows ∨
                g = ⟨number, d, .applying order byExternalId⟩ := by
              intro g hg
              rw [Table.rows_of_insert? hins] at hg
              rcases List.mem_append.mp hg with hg | hg
              · exact Or.inl hg
              · exact Or.inr (List.mem_singleton.mp hg)
            refine ⟨⟨?_, ?_⟩, ?_⟩
            · intro g hg hwork
              rcases hold g hg with hg | rfl
              · exact h.exclusive.unspent g hg hwork
              · exact hunspent
            · intro g hg g' hg' hwork hwork' hid
              rcases hold g hg with hg | rfl <;> rcases hold g' hg' with hg' | rfl
              · exact h.exclusive.alone g hg g' hg' hwork hwork' hid
              · exact absurd ⟨g, hg, hid, hwork⟩ hfree
              · exact absurd ⟨g', hg', hid.symm, hwork'⟩ hfree
              · rfl
            · intro g hg
              rcases hold g hg with hg | rfl
              · exact h.wellFormed g hg
              · refine ⟨fun o b hp ↦ ?_, fun _ _ hp ↦ by cases hp⟩
                cases hp
                rcases (matchOrder_spec hmatch).2 with ⟨-, hinvoice⟩ | ⟨hb, -⟩
                · exact Or.inr hinvoice
                · exact Or.inl hb
          · exact h

/-- The writes of a handler at work spend its own delivery only. -/
theorem working_inv (h : Inv s) {g : Handler} (hg : g ∈ s.handlers.rows)
    (hwork : g.phase.Applying) {phase : Phase} (hphase : ¬ phase.Applying)
    (hnoting : ∀ id o, phase = .noting id o → o ≠ .failed) {db' : Database}
    (hdb : OnlyDelivery g.delivery.webhookId s.db db') : Inv (s.goto g.number phase db') := by
  refine h.goto hphase hnoting fun g' hg' hother hwork' ↦ ?_
  have hne : g'.delivery.webhookId ≠ g.delivery.webhookId := by
    intro hid
    exact hother (congrArg Handler.number (h.exclusive.alone g' hg' g hg hwork' hwork hid))
  rw [hdb.spent hne]
  exact h.exclusive.unspent g' hg' hwork'

theorem apply_inv (h : Inv s) {number : ℕ} {d : Delivery} {order : TmcPayOrder}
    {byExternalId : Bool} (hg : ⟨number, d, .applying order byExternalId⟩ ∈ s.handlers.rows)
    (now : Instant) : Inv (apply settings s number d order byExternalId now) := by
  have hclaim := claim_only d s.db
  unfold apply
  split
  · rename_i db hattempt
    have hdb := attempt_only hattempt
    dsimp only at hdb
    rw [hdb]
    exact @working_inv s h _ hg trivial .done (fun h ↦ h) (fun _ _ hp ↦ by cases hp) _
      (hclaim.trans (superseded_only _ _ _))
  · rename_i db orderId outcome hattempt
    obtain ⟨-, hdeliveries, houtcome⟩ := attempt_only hattempt
    refine @working_inv s h _ hg trivial (.noting orderId outcome) (fun h ↦ h) (fun _ _ hp ↦ ?_) _
      (hclaim.trans (.of_eq hdeliveries))
    cases hp
    exact houtcome
  · rename_i attached hattempt
    exact @Inv.leave s h number (.rereading attached) (fun h ↦ h) fun _ _ hp ↦ by cases hp
  · exact @Inv.leave s h number (.failing order.id) (fun h ↦ h) fun _ _ hp ↦ by cases hp

/-- A note waits for a handler at work on the same delivery, or finds no row to write. -/
theorem noted_unspent (h : Inv s) {w : String} (hfree : ¬ s.Blocked w) {outcome : DeliveryOutcome}
    {orderId : Option Uuid} {g : Handler} (hg : g ∈ s.handlers.rows) (hwork : g.phase.Applying) :
    ¬ Spent (noteDeliveryOutcome s.db w outcome orderId) g.delivery.webhookId := by
  have hunspent := h.exclusive.unspent g hg hwork
  by_cases hid : g.delivery.webhookId = w
  · have habsent : s.db.deliveries.find? w = none := by
      rw [← Option.not_isSome_iff_eq_none]
      exact fun hsome ↦ hfree ⟨⟨g, hg, hid, hwork⟩, hsome⟩
    rwa [noteDeliveryOutcome_absent habsent]
  · rwa [(noteDeliveryOutcome_only _ _ _ _).spent hid]

theorem note_inv (h : Inv s) (g : Handler) (fault : Bool) : Inv (note s g fault) := by
  unfold note
  split
  · rename_i orderId outcome hphase
    split
    · exact @Inv.leave s h g.number (.failing orderId) (fun h ↦ h) fun _ _ hp ↦ by cases hp
    · split
      · exact h
      · rename_i hfree
        exact @Inv.goto s h g.number .done _ (fun h ↦ h) (fun _ _ hp ↦ by cases hp)
          fun g' hg' _ hwork ↦ noted_unspent h hfree hg' hwork
  · rename_i order hphase
    split
    · exact @Inv.leave s h g.number (.failing order.id) (fun h ↦ h) fun _ _ hp ↦ by cases hp
    · split
      · exact h
      · rename_i hfree
        split
        · rename_i db hnote
          simp only [noteCredited, bind_eq_ok] at hnote
          obtain ⟨after, -, hnote⟩ := hnote
          cases hnote
          exact @Inv.goto s h g.number .done _ (fun h ↦ h) (fun _ _ hp ↦ by cases hp)
            fun g' hg' _ hwork ↦ noted_unspent h hfree hg' hwork
        · exact @Inv.leave s h g.number (.failing order.id) (fun h ↦ h) fun _ _ hp ↦ by cases hp
  · exact h

theorem fail_inv (h : Inv s) (g : Handler) (fault : Bool) : Inv (fail s g fault) := by
  unfold fail
  split
  · rename_i orderId hphase
    split
    · exact @Inv.leave s h g.number .done (fun h ↦ h) fun _ _ hp ↦ by cases hp
    · split
      · exact h
      · rename_i hfree
        refine @Inv.goto s h g.number .done _ (fun h ↦ h) (fun _ _ hp ↦ by cases hp)
          fun g' hg' _ hwork ↦ ?_
        have hne : g'.delivery.webhookId ≠ g.delivery.webhookId :=
          fun hid ↦ hfree ⟨g', hg', hid, hwork⟩
        rw [(failed_only _ _ _).spent hne]
        exact h.exclusive.unspent g' hg' hwork
  · exact h

/-- The steps of others write no delivery and leave the handlers alone. -/
theorem background_step {a : Step} (ha : match a with
      | .poll .. | .sweep .. | .lapse _ | .purchase .. | .invoice .. => True
      | _ => False) :
    (step settings s a).db.deliveries = s.db.deliveries ∧
      (step settings s a).handlers = s.handlers := by
  cases a with
  | arrive | apply | note | fail | crash => exact ha.elim
  | lapse now => exact ⟨rfl, rfl⟩
  | poll orderId accountId reading now =>
    refine ⟨?_, rfl⟩
    refine @commit_induction _ _ _ (readOrder settings orderId accountId reading now) s.db
      (·.deliveries = s.db.deliveries) rfl fun o db' h ↦ ?_
    rcases Reconciler.readOrder_ok h with rfl | ⟨order, -, -, -, i, -, hok⟩
    · rfl
    · exact refreshOrder_deliveries hok
  | sweep orderId accountId reading now =>
    refine ⟨?_, rfl⟩
    refine @commit_induction _ _ _ (Reconciler.readBack settings orderId accountId reading now) s.db
      (·.deliveries = s.db.deliveries) rfl fun o db' h ↦ ?_
    rcases Reconciler.readBack_ok h with ⟨-, rfl⟩ | ⟨order, -, -, i, -, hok⟩
    · rfl
    · exact refreshOrder_deliveries hok
  | purchase id accountId credits creditPriceRao externalId createdAt =>
    refine ⟨?_, rfl⟩
    refine @commit_induction _ _ _ (fun db ↦ createOrder db id accountId credits creditPriceRao
      externalId createdAt) s.db (·.deliveries = s.db.deliveries) rfl fun o db' h ↦ ?_
    rw [(createOrder_spec h).2.2.2.2]
  | invoice orderId f =>
    refine ⟨?_, rfl⟩
    refine @commit_induction _ _ _ (Reconciler.attach orderId f) s.db
      (·.deliveries = s.db.deliveries) rfl fun o db' h ↦ ?_
    simp only [Reconciler.attach, bind_eq_ok] at h
    obtain ⟨order, -, h⟩ := h
    obtain ⟨-, -, hsave⟩ := attachInvoice_spec h
    exact (saveOrder_only hsave).2

theorem step_inv (h : Inv s) (a : Step) : Inv (step settings s a) := by
  have hbackground : ∀ {a : Step}, (step settings s a).db.deliveries = s.db.deliveries ∧
      (step settings s a).handlers = s.handlers → Inv (step settings s a) := by
    intro a hstep
    obtain ⟨hdeliveries, hhandlers⟩ := hstep
    refine ⟨⟨?_, by rw [hhandlers]; exact h.exclusive.alone⟩, by rw [hhandlers]; exact h.wellFormed⟩
    intro g hg hwork
    rw [hhandlers] at hg
    rw [spent_of_eq hdeliveries]
    exact h.exclusive.unspent g hg hwork
  cases a with
  | arrive number d => exact arrive_inv h number d
  | apply number now fault =>
    dsimp only [step]
    split
    · rename_i number' d order byExternalId hfind
      obtain ⟨hg, hnumber⟩ := Table.find?_eq_some.mp hfind
      dsimp only at hnumber
      rw [hnumber] at hg
      split
      · exact @Inv.leave s h number (.failing order.id) (fun h ↦ h) fun _ _ hp ↦ by cases hp
      · exact apply_inv h hg now
    · exact h
  | note number fault =>
    dsimp only [step]
    split
    · exact note_inv h _ fault
    · exact h
  | fail number fault =>
    dsimp only [step]
    split
    · exact fail_inv h _ fault
    · exact h
  | crash number => exact @Inv.leave s h number .done (fun h ↦ h) fun _ _ hp ↦ by cases hp
  | poll => exact hbackground (background_step trivial)
  | sweep => exact hbackground (background_step trivial)
  | lapse => exact hbackground (background_step trivial)
  | purchase => exact hbackground (background_step trivial)
  | invoice => exact hbackground (background_step trivial)

end Steps

end Conjectures.Webhooks

import Conjectures.Reconciler.Steps
import Conjectures.TmcPay.Rows

/-!
# Orders the readings keep in order

`Sound` is what holds of the orders and the ledger at every point of a run: a credited order
has an invoice and a paid status, an invoiced one is worth something, and the ledger names
credited orders only.  From it follows that a reading that means paid is never lost:
crediting an uncredited order is refused to nobody (`settle_not_conflict`).
-/

namespace Conjectures.Reconciler

open Lib Db Api TmcPay

structure Sound (db : Database) : Prop where
  credited : ∀ o ∈ db.orders.rows, o.creditedLedgerId.isSome →
    o.invoiceId.isSome ∧ o.status.Paid
  worth : ∀ o ∈ db.orders.rows, o.invoiceId.isSome → Worth o
  price : ∀ o ∈ db.orders.rows, 0 < o.creditPriceRao
  named : ∀ e ∈ db.ledger.rows, ∀ id, e.tmcPayOrderId = some id →
    ∃ o ∈ db.orders.rows, o.id = id ∧ o.creditedLedgerId.isSome

/-- Nothing was bought yet. -/
theorem Sound.of_no_orders {db : Database} (horders : db.orders.rows = [])
    (hledger : ∀ e ∈ db.ledger.rows, e.tmcPayOrderId = none) : Sound db where
  credited := by rw [horders]; intro o ho; cases ho
  worth := by rw [horders]; intro o ho; cases ho
  price := by rw [horders]; intro o ho; cases ho
  named e he id hid := by rw [hledger e he] at hid; cases hid

theorem Sound.undisturbed {db db' : Database} (h : Sound db) (hquiet : Undisturbed db db') :
    Sound db' where
  credited o' ho' hcredited := by
    obtain ⟨o, ho, hf⟩ := hquiet.origin o' ho'
    rw [hf.credited] at hcredited
    obtain ⟨hinvoice, hpaid⟩ := h.credited o ho hcredited
    exact ⟨by rw [(hf.invoice hinvoice).1]; exact hinvoice, hf.paid hinvoice hcredited hpaid⟩
  worth o' ho' hinvoice := by
    obtain ⟨o, ho, hf⟩ := hquiet.origin o' ho'
    rcases hf.worth hinvoice with hinvoice | hworth
    · rw [Worth, (hf.invoice hinvoice).2]
      exact h.worth o ho hinvoice
    · exact hworth
  price o' ho' := by
    obtain ⟨o, ho, hf⟩ := hquiet.origin o' ho'
    rw [hf.same.2.2.2.1]
    exact h.price o ho
  named e he id hid := by
    rw [hquiet.ledger] at he
    obtain ⟨o, ho, hoid, hcredited⟩ := h.named e he id hid
    obtain ⟨o', ho', hf⟩ := hquiet.orders o ho
    exact ⟨o', ho', hf.same.1.trans hoid, by rw [hf.credited]; exact hcredited⟩

theorem Sound.settles {db db' : Database} {locked after : TmcPayOrder}
    {entry : CreditLedgerEntry} {bonus : List CreditLedgerEntry} (h : Sound db)
    (hsettles : Settles db db' locked after entry bonus) : Sound db' := by
  have hinvoice : locked.invoiceId.isSome := by
    rw [Option.isSome_iff_ne_none]
    intro hnone
    have hamount := hsettles.amount
    rw [paidRao, if_pos hnone] at hamount
    cases hamount
  refine ⟨?_, ?_, ?_, ?_⟩
  · intro o ho hcredited
    rcases (hsettles.orders o).mp ho with ⟨ho, -⟩ | rfl
    · exact h.credited o ho hcredited
    · exact ⟨by rw [hsettles.invoice]; exact hinvoice, hsettles.paid⟩
  · intro o ho hinvoice'
    rcases (hsettles.orders o).mp ho with ⟨ho, -⟩ | rfl
    · exact h.worth o ho hinvoice'
    · rw [Worth, hsettles.worth]
      exact h.worth locked hsettles.mem hinvoice
  · intro o ho
    rcases (hsettles.orders o).mp ho with ⟨ho, -⟩ | rfl
    · exact h.price o ho
    · rw [hsettles.same.2.2.2.1]
      exact h.price locked hsettles.mem
  · intro e he id hid
    have hsold : ∃ o ∈ db'.orders.rows, o.id = locked.id ∧ o.creditedLedgerId.isSome :=
      ⟨after, (hsettles.orders after).mpr (Or.inr rfl), hsettles.same.1,
        by rw [hsettles.credited]; rfl⟩
    rw [hsettles.ledger] at he
    rcases List.mem_append.mp he with he | he
    · obtain ⟨o, ho, hoid, hcredited⟩ := h.named e he id hid
      by_cases hthis : o.id = locked.id
      · rwa [hthis.symm.trans hoid] at hsold
      · exact ⟨o, (hsettles.orders o).mpr (Or.inl ⟨ho, hthis⟩), hoid, hcredited⟩
    · rcases List.mem_cons.mp he with rfl | he
      · rwa [Option.some.inj (hsettles.names.symm.trans hid)] at hsold
      · rw [(hsettles.bonuses.2 e he).2] at hid
        cases hid

theorem Sound.effect {db db' : Database} {sells : TmcPayOrder → TmcPayOrder → Prop}
    (h : Sound db) (heffect : Effect db db' sells) : Sound db' := by
  cases heffect with
  | nothing hquiet => exact h.undisturbed hquiet
  | sale db₁ order locked after entry bonus hmem hbefore hsold hsettles =>
    exact (h.undisturbed hbefore).settles hsettles

/-! ## A payment is never refused -/

/-- The ledger takes the entry of an order that no entry names. -/
theorem depositAccepted {ledger : Table CreditLedgerEntry.id} {o : TmcPayOrder} {amount : Rao}
    {createdBy : String} {n : ℕ} (hpos : 0 < amount)
    (hunnamed : ∀ e ∈ ledger.rows, e.tmcPayOrderId ≠ some o.id) :
    LedgerAccepts ledger (EntryFields.row
      { accountId := o.accountId, kind := .deposit, amountRao := amount
        tmcPayOrderId := some o.id, createdBy } n) := by
  refine ⟨?_, ?_, ?_, ?_⟩
  · simp [CreditLedgerEntry.Valid, EntryFields.row, hpos, hpos.ne']
  · rintro ⟨e, -, -, hsome⟩
    cases hsome
  · rintro ⟨e, he, hsame, -⟩
    exact hunnamed e he hsame
  · rintro ⟨e, -, -, hsome⟩
    cases hsome

theorem recordBonus_ok (db : Database) (accountId : Uuid) (paidCredits : ℤ)
    {bonusRao : Rao} (creditPriceRao : Rao) (createdBy : String) (hpos : 0 ≤ bonusRao) :
    ∃ db', recordBonus db accountId paidCredits bonusRao creditPriceRao createdBy = .ok db' := by
  unfold recordBonus
  split
  · exact ⟨db, rfl⟩
  · rename_i hne
    have hpos' : 0 < bonusRao := lt_of_le_of_ne hpos (Ne.symm hne)
    refine ⟨_, bind_eq_ok.mpr ⟨_, recordEntry_eq_ok.mpr ⟨⟨?_, ?_, ?_, ?_⟩, rfl⟩, rfl⟩⟩
    · simp [CreditLedgerEntry.Valid, EntryFields.row, hpos', hpos'.ne']
    · rintro ⟨e, -, -, hsome⟩
      cases hsome
    · rintro ⟨e, -, -, hsome⟩
      cases hsome
    · rintro ⟨e, -, -, hsome⟩
      cases hsome

theorem saveOrder_not_conflict {db : Database} {seen new : TmcPayOrder} {e : DatabaseError}
    (hinvoice : new.invoiceId = seen.invoiceId) (h : saveOrder db seen new = .error e) :
    ¬ e.IsRecordConflict := by
  unfold saveOrder at h
  rcases bind_eq_error.mp h with h | ⟨current, -, h⟩
  · cases hfind : db.orders.find? seen.id with
    | none => rw [hfind] at h; cases h; exact id
    | some o => rw [hfind] at h; cases h
  · rcases bind_eq_error.mp h with h | ⟨_, -, h⟩
    · obtain ⟨-, rfl⟩ := require_eq_error.mp h
      exact id
    · rcases bind_eq_error.mp h with h | ⟨_, -, h⟩
      · obtain ⟨hrefused, -⟩ := require_eq_error.mp h
        have hkept : (TmcPayOrder.flush seen new current).invoiceId = current.invoiceId := by
          show written seen.invoiceId new.invoiceId current.invoiceId = _
          rw [hinvoice, written_same]
        exact absurd (Or.inl hkept) hrefused
      · cases h

/-- Crediting an uncredited order with an invoice does not end in a conflict. -/
theorem settle_not_conflict {db : Database} (h : Sound db) {order : TmcPayOrder}
    (hmem : order ∈ db.orders.rows) (hopen : order.creditedLedgerId = none)
    (hinvoice : order.invoiceId.isSome) {r : Report} {now : Instant} {schedule : BonusSchedule}
    {createdBy : String} {e : DatabaseError}
    (herror : settle db order r now schedule createdBy = .error e) : ¬ e.IsRecordConflict := by
  obtain ⟨amount, hamount, hpos⟩ := h.worth order hmem hinvoice
  have hunnamed : ∀ e ∈ db.ledger.rows, e.tmcPayOrderId ≠ some order.id := by
    intro e he hid
    obtain ⟨o, ho, hoid, hcredited⟩ := h.named e he order.id hid
    rw [db.orders.eq_of_key ho hmem hoid, hopen] at hcredited
    cases hcredited
  have hbonus : 0 ≤ bonusRaoForCredits order.credits order.creditPriceRao schedule :=
    Int.mul_nonneg (Int.natCast_nonneg _) (le_of_lt (h.price order hmem))
  unfold settle at herror
  rcases bind_eq_error.mp herror with herror | ⟨_, -, herror⟩
  · exact absurd (by rw [hamount]; rfl) (require_eq_error.mp herror).1
  rcases bind_eq_error.mp herror with herror | ⟨_, -, herror⟩
  · obtain ⟨-, rfl⟩ := require_eq_error.mp herror
    exact id
  rw [Table.find?_of_mem hmem] at herror
  rcases bind_eq_error.mp herror with herror | ⟨locked, hlocked, herror⟩
  · cases herror
  obtain rfl : order = locked := Option.some.inj (need_eq_ok.mp hlocked)
  rcases bind_eq_error.mp herror with herror | ⟨_, -, herror⟩
  · exact absurd hopen (require_eq_error.mp herror).1
  rw [hamount] at herror
  rcases bind_eq_error.mp herror with herror | ⟨amount', hamount', herror⟩
  · cases herror
  obtain rfl : amount = amount' := Option.some.inj (need_eq_ok.mp hamount')
  rcases bind_eq_error.mp herror with herror | ⟨⟨entry, db₁⟩, -, herror⟩
  · have hok := recordEntry_eq_ok.mpr ⟨@depositAccepted _ order amount createdBy _ hpos hunnamed,
      rfl⟩
    rw [hok] at herror
    cases herror
  rcases bind_eq_error.mp herror with herror | ⟨db₂, -, herror⟩
  · obtain ⟨db', hok⟩ := recordBonus_ok db₁ order.accountId order.credits order.creditPriceRao
      createdBy hbonus
    rw [hok] at herror
    cases herror
  rcases bind_eq_error.mp herror with herror | ⟨db₃, -, herror⟩
  · exact @saveOrder_not_conflict db₂ order (order.settled r now entry.id) e rfl herror
  · cases herror

end Conjectures.Reconciler

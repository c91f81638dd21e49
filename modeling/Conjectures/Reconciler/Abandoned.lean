import Conjectures.Reconciler.Sound

/-!
# No order is abandoned

The expiry at the end of a pass closes the lapsed orders of the whole table, whether or not
the pass read them.  Where the queue of every pass holds all the orders that are past their
time to live, none of them fails to be read, and none comes up while the pass runs (`Fair`),
the orders a pass closes are orders it has read (`Watched`).
-/

namespace Conjectures.Reconciler

open Lib Db Api TmcPay

/-! ## Orders that are waiting for a payment -/

/-- A status the expiry closes an order in. -/
def Waiting (o : TmcPayOrder) : Prop := o.status = .new ∨ o.status = .created

instance Waiting.decidable (o : TmcPayOrder) : Decidable (Waiting o) := by
  unfold Waiting; infer_instance

/-- Nobody is known to have paid, and the invoice is past its time to live. -/
def Overdue (o : TmcPayOrder) (t : Instant) : Prop := o.invoiceId.isSome ∧ o.Lapsed t

instance Overdue.decidable (o : TmcPayOrder) (t : Instant) : Decidable (Overdue o t) := by
  unfold Overdue; infer_instance

theorem open_of_waiting {o : TmcPayOrder} (h : Waiting o) : o.status.Open := by
  rcases h with h | h
  · exact Or.inl h
  · exact Or.inr (Or.inl h)

theorem not_waiting_of_paid {o : TmcPayOrder} (h : o.status.Paid) : ¬ Waiting o := by
  rintro (hs | hs) <;> rw [hs] at h <;> exact absurd h (by decide)

/-- A reported order is waiting because it was and keeps its status, or because of the
report. -/
theorem reported_waiting {o : TmcPayOrder} {r : Report} (h : Waiting (o.reported r)) :
    (o.creditedLedgerId.isSome ∧ Waiting o) ∨ r.status = .new ∨ r.status = .created := by
  unfold TmcPayOrder.reported at h
  split at h
  · rename_i hkept
    exact Or.inl ⟨hkept.1, h⟩
  · exact Or.inr h

/-- An order that was not waiting is not waiting now, and one that was is for what it was. -/
def Keeps (o o' : TmcPayOrder) : Prop :=
  o'.id = o.id ∧ (Waiting o' →
    Waiting o ∧ o'.invoiceId = o.invoiceId ∧ o'.invoiceExpiresAt = o.invoiceExpiresAt)

/-- The other orders are as they were. -/
def KeepsBut (id : Uuid) (o o' : TmcPayOrder) : Prop := o'.id = o.id ∧ (o.id ≠ id → o' = o)

theorem Keeps.overdue {o o' : TmcPayOrder} (h : Keeps o o') {t : Instant}
    (hover : Overdue o' t) : Overdue o t := by
  obtain ⟨hwaiting, hinvoice, hexpires⟩ := h.2 hover.2.1
  refine ⟨by rw [← hinvoice]; exact hover.1, hwaiting, ?_⟩
  rw [← hexpires]
  exact hover.2.2

/-- A reading that does not say created puts no order in wait. -/
theorem keeps_respects {i : Invoice} (hstatus : i.status ≠ .created) (id : Uuid) :
    Respects Keeps i id where
  refl o := ⟨rfl, fun h ↦ ⟨h, rfl, rfl⟩⟩
  trans o₁ o₂ o₃ h h' := by
    refine ⟨h'.1.trans h.1, fun hwaiting ↦ ?_⟩
    obtain ⟨hwaiting₂, hinvoice', hexpires'⟩ := h'.2 hwaiting
    obtain ⟨hwaiting₁, hinvoice, hexpires⟩ := h.2 hwaiting₂
    exact ⟨hwaiting₁, hinvoice'.trans hinvoice, hexpires'.trans hexpires⟩
  flagged o _ := ⟨rfl, fun h ↦ ⟨h, rfl, rfl⟩⟩
  invoiced o _ _ := by
    refine ⟨rfl, fun hwaiting ↦ absurd hwaiting ?_⟩
    show ¬ (i.status.state = .new ∨ i.status.state = .created)
    cases hs : i.status <;> first | exact absurd hs hstatus | decide
  reported o eventId polledAt _ := by
    refine ⟨(reported_sameOrder o _).1, fun h ↦ ?_⟩
    rcases reported_waiting h with ⟨-, hwaiting⟩ | h
    · refine ⟨hwaiting, ?_⟩
      unfold TmcPayOrder.reported
      split <;> exact ⟨rfl, rfl⟩
    · exact absurd (report_created h) hstatus
  settled o eventId polledAt now ledgerId _ hpaid :=
    ⟨rfl, fun h ↦ absurd h (not_waiting_of_paid hpaid)⟩

theorem keepsBut_respects (i : Invoice) (id : Uuid) : Respects (KeepsBut id) i id where
  refl o := ⟨rfl, fun _ ↦ rfl⟩
  trans o₁ o₂ o₃ h h' := by
    refine ⟨h'.1.trans h.1, fun hother ↦ ?_⟩
    rw [h'.2 (by rw [h.1]; exact hother), h.2 hother]
  flagged o hid := ⟨rfl, fun hother ↦ absurd hid hother⟩
  invoiced o hid _ := ⟨rfl, fun hother ↦ absurd hid hother⟩
  reported o eventId polledAt hid :=
    ⟨(reported_sameOrder o _).1, fun hother ↦ absurd hid hother⟩
  settled o eventId polledAt now ledgerId hid _ := ⟨rfl, fun hother ↦ absurd hid hother⟩

/-- Reading an order back leaves the others alone, and leaves the order waiting only if that
is what was read. -/
theorem refreshOrder_overdue {settings : TmcPaySettings} {db db' : Database}
    {order order' : TmcPayOrder} {i : Invoice} {now : Instant} (hsound : Sound db)
    (hmem : order ∈ db.orders.rows) (h : refreshOrder settings order i now db = .ok (order', db'))
    {o : TmcPayOrder} (ho : o ∈ db'.orders.rows) {t : Instant} (hover : Overdue o t) :
    (o ∈ db.orders.rows ∧ o.id ≠ order.id) ∨
      (o.id = order.id ∧ order.invoiceId.isSome ∧ i.status = .created) := by
  have hrows := refreshOrder_rows (keepsBut_respects i order.id) hmem h
  by_cases hid : o.id = order.id
  · refine Or.inr ⟨hid, ?_⟩
    unfold refreshOrder at h
    split at h
    · rename_i hnone
      cases h
      obtain rfl := db.orders.eq_of_key ho hmem hid
      have hinvoice := hover.1
      rw [hnone] at hinvoice
      cases hinvoice
    · rename_i hinvoice
      refine ⟨Option.isSome_iff_ne_none.mpr hinvoice, ?_⟩
      obtain ⟨application, happly, h⟩ := bind_eq_ok.mp h
      cases application with
      | alreadyCredited =>
        obtain ⟨hopen, e, herror, hconflict⟩ := applyInvoice_alreadyCredited happly
        exact absurd hconflict (settle_not_conflict hsound hmem hopen
          (Option.isSome_iff_ne_none.mpr hinvoice) herror)
      | applied order₁ db₁ =>
        cases h
        rcases applyInvoice_spec happly with ⟨hpaid, locked, hlocked, hlid, entry, -, hsettled⟩ |
          ⟨-, hsave⟩
        · obtain rfl := db.orders.eq_of_key hlocked hmem hlid
          obtain ⟨bonus, hsettles⟩ := settles_of_orderSettled hlocked hpaid hsettled
          rcases (hsettles.orders o).mp ho with ⟨-, hother⟩ | rfl
          · exact absurd hid hother
          · exact absurd hover.2.1 (not_waiting_of_paid hpaid)
        · obtain ⟨-, -, -, hsaved⟩ := saveOrder_current hmem (reported_sameOrder _ _) hsave
          rcases (hsaved o).mp ho with ⟨-, hother⟩ | rfl
          · exact absurd hid hother
          · rcases reported_waiting hover.2.1 with ⟨hcredited, hwaiting⟩ | h
            · exact absurd hwaiting (not_waiting_of_paid (hsound.credited order hmem hcredited).2)
            · exact report_created h
  · obtain ⟨o₀, ho₀, hid₀, hkept⟩ := hrows.earlier o ho
    obtain rfl := hkept (by rw [← hid₀]; exact hid)
    exact Or.inl ⟨ho₀, hid⟩

/-! ## The condition -/

/-- What keeps an order from slipping between the reads of a pass and its expiry.  A pass
starts with a queue that takes every due order, none of the overdue ones having been polled
a moment ago; it fails to read none of the overdue ones; and while it runs no order becomes
overdue, its clock does not go back and nobody reports an invoice as merely created. -/
def Fair (config : PassConfig) (s : State) : Step → Prop
  | .start now => s.pass = none →
    (dueOrders s.db (some (now - config.minAge))).length ≤ config.batch ∧
      ∀ o ∈ s.db.orders.rows, Overdue o now → ∀ polled ∈ o.lastPolledAt,
        polled < now - config.minAge
  | .read reading now => ∀ p ∈ s.pass, p.started ≤ now ∧ (reading = none →
    ∀ q ∈ p.pending.head?, ∀ o ∈ s.db.orders.rows, o.id = q.1 → ¬ Overdue o p.started)
  | .expire now => ∀ p ∈ s.pass, ∀ o ∈ s.db.orders.rows, ∀ t ∈ o.invoiceExpiresAt,
    t ≤ now → t ≤ p.started
  | .webhook d _ => s.pass.isSome → d.invoice.status ≠ .created
  | .poll _ _ _ now => ∀ p ∈ s.pass, p.started ≤ now
  | .invoice orderId f =>
    (∀ o ∈ s.db.orders.rows, o.id = orderId → o.creditedLedgerId = none) ∧
      ∀ p ∈ s.pass, ∀ t ∈ f.invoiceExpiresAt, p.started < t
  | .stop | .purchase .. => True

instance Fair.decidable (config : PassConfig) (s : State) (a : Step) :
    Decidable (Fair config s a) := by
  unfold Fair; split <;> infer_instance

/-! ## What a pass knows -/

/-- An order the running pass still has to read, or that was found created in it. -/
def Seen (s : State) (p : Pass) (orderId : Uuid) : Prop :=
  (∃ q ∈ p.pending, q.1 = orderId) ∨
    ∃ r ∈ s.readings, r.orderId = orderId ∧ r.status = .created ∧ p.started ≤ r.time

/-- Every order that was overdue when the pass started is one it has seen. -/
def Watched (s : State) : Prop :=
  ∀ p ∈ s.pass, ∀ o ∈ s.db.orders.rows, Overdue o p.started → Seen s p o.id

theorem Seen.mono {s s' : State} {p : Pass} {orderId : Uuid} (h : Seen s p orderId)
    (hreadings : ∀ r ∈ s.readings, r ∈ s'.readings) : Seen s' p orderId := by
  rcases h with hpending | ⟨r, hr, hrest⟩
  · exact Or.inl hpending
  · exact Or.inr ⟨r, hreadings r hr, hrest⟩

theorem Watched.of_idle {s : State} (h : s.pass = none) : Watched s := by
  intro p hp
  rw [h] at hp
  cases hp

/-- Steps that bring no new overdue order. -/
theorem Watched.of_overdue {s s' : State} (h : Watched s) (hpass : s'.pass = s.pass)
    (hreadings : ∀ r ∈ s.readings, r ∈ s'.readings)
    (hrows : ∀ p ∈ s.pass, ∀ o' ∈ s'.db.orders.rows, Overdue o' p.started →
      (∃ o ∈ s.db.orders.rows, o.id = o'.id ∧ Overdue o p.started) ∨ Seen s' p o'.id) :
    Watched s' := by
  intro p hp o' ho' hover
  rw [hpass] at hp
  rcases hrows p hp o' ho' hover with ⟨o, ho, hid, hover⟩ | hseen
  · rw [← hid]
    exact (h p hp o ho hover).mono hreadings
  · exact hseen

/-- What a transaction leaves holds no order that has become overdue by it. -/
def NoNewOverdue (s : State) (db' : Database) : Prop :=
  ∀ p ∈ s.pass, ∀ o' ∈ db'.orders.rows, Overdue o' p.started →
    ∃ o ∈ s.db.orders.rows, o.id = o'.id ∧ Overdue o p.started

theorem NoNewOverdue.refl (s : State) : NoNewOverdue s s.db :=
  fun _ _ o ho hover ↦ ⟨o, ho, rfl, hover⟩

theorem Watched.of_noNewOverdue {s : State} (h : Watched s) {db' : Database}
    (hnew : NoNewOverdue s db') : Watched { s with db := db' } :=
  h.of_overdue rfl (fun _ hr ↦ hr) fun p hp o ho hover ↦ Or.inl (hnew p hp o ho hover)

theorem mem_answered {db : Database} {order : TmcPayOrder} (hmem : order ∈ db.orders.rows)
    (hinvoice : order.invoiceId.isSome) (i : Invoice) (now : Instant) :
    ⟨order.id, i.status, now⟩ ∈ answered db order.id (some i) now := by
  unfold answered
  rw [Table.find?_of_mem hmem]
  simp [hinvoice]

/-- The queue of a fair pass holds every overdue order. -/
theorem mem_pending {config : PassConfig} {db : Database} {now : Instant}
    (hfits : (dueOrders db (some (now - config.minAge))).length ≤ config.batch)
    {o : TmcPayOrder} (ho : o ∈ db.orders.rows) (hover : Overdue o now)
    (hpolled : ∀ polled ∈ o.lastPolledAt, polled < now - config.minAge) :
    (o.id, o.accountId) ∈ pending config db now := by
  have hdue : o ∈ dueOrders db (some (now - config.minAge)) := by
    refine List.mem_filter.mpr ⟨ho, decide_eq_true ⟨open_of_waiting hover.2.1, ?_⟩⟩
    intro t ht
    obtain rfl := Option.some.inj ht
    exact hpolled
  exact List.mem_map.mpr ⟨o, List.mem_filter.mpr ⟨mem_openOrders hfits hdue, hover.1⟩, rfl⟩

/-! ## The purchase -/

theorem Sound.purchase {db db' : Database} {id accountId : Uuid} {credits : ℤ}
    {creditPriceRao : Rao} {externalId : String} {createdAt : Instant} {o : TmcPayOrder}
    (h : Sound db)
    (hok : createOrder db id accountId credits creditPriceRao externalId createdAt =
      .ok (o, db')) : Sound db' := by
  obtain ⟨hvalid, hinvoice, hcredited, hrows, hrest⟩ := createOrder_spec hok
  have hold : ∀ o' ∈ db'.orders.rows, o' ∈ db.orders.rows ∨ o' = o := by
    intro o' ho'
    rw [hrows] at ho'
    rcases List.mem_append.mp ho' with ho' | ho'
    · exact Or.inl ho'
    · exact Or.inr (List.mem_singleton.mp ho')
  refine ⟨?_, ?_, ?_, ?_⟩
  · intro o' ho' hsome
    rcases hold o' ho' with ho' | rfl
    · exact h.credited o' ho' hsome
    · rw [hcredited] at hsome
      cases hsome
  · intro o' ho' hsome
    rcases hold o' ho' with ho' | rfl
    · exact h.worth o' ho' hsome
    · rw [hinvoice] at hsome
      cases hsome
  · intro o' ho'
    rcases hold o' ho' with ho' | rfl
    · exact h.price o' ho'
    · exact hvalid.2.1
  · intro e he id' hid
    rw [hrest] at he
    obtain ⟨o', ho', hrest⟩ := h.named e he id' hid
    exact ⟨o', by rw [hrows]; exact List.mem_append_left _ ho', hrest⟩

/-- The purchase's invoice is written to its order alone, in the status it came with. -/
theorem attach_spec {db db' : Database} {orderId : Uuid} {f : InvoiceFields} {o' : TmcPayOrder}
    (h : attach orderId f db = .ok (o', db')) :
    ∃ o ∈ db.orders.rows, o.id = orderId ∧ Worth (o.invoiced f) ∧ db'.ledger = db.ledger ∧
      ∀ o', o' ∈ db'.orders.rows ↔ (o' ∈ db.orders.rows ∧ o'.id ≠ o.id) ∨ o' = o.invoiced f := by
  simp only [attach, bind_eq_ok, need_eq_ok, Table.find?_eq_some] at h
  obtain ⟨o, ⟨hmem, hid⟩, h⟩ := h
  obtain ⟨-, hcovered, hsave⟩ := attachInvoice_spec h
  obtain ⟨hvalid, hledger, -, hrows⟩ := saveOrder_current hmem (invoiced_sameOrder _ _) hsave
  exact ⟨o, hmem, hid, paidRao_invoiced hcovered hvalid, hledger, hrows⟩

theorem Sound.attach {db db' : Database} {orderId : Uuid} {f : InvoiceFields} {o' : TmcPayOrder}
    (h : Sound db) (hopen : ∀ o ∈ db.orders.rows, o.id = orderId → o.creditedLedgerId = none)
    (hok : Reconciler.attach orderId f db = .ok (o', db')) : Sound db' := by
  obtain ⟨o, hmem, hid, hworth, hledger, hrows⟩ := attach_spec hok
  have hnone := hopen o hmem hid
  refine ⟨?_, ?_, ?_, ?_⟩
  · intro o₁ ho₁ hsome
    rcases (hrows o₁).mp ho₁ with ⟨ho₁, -⟩ | rfl
    · exact h.credited o₁ ho₁ hsome
    · rw [show (o.invoiced f).creditedLedgerId = none from hnone] at hsome
      cases hsome
  · intro o₁ ho₁ hsome
    rcases (hrows o₁).mp ho₁ with ⟨ho₁, -⟩ | rfl
    · exact h.worth o₁ ho₁ hsome
    · exact hworth
  · intro o₁ ho₁
    rcases (hrows o₁).mp ho₁ with ⟨ho₁, -⟩ | rfl
    · exact h.price o₁ ho₁
    · exact h.price o hmem
  · intro e he id' hid'
    rw [hledger] at he
    obtain ⟨o₁, ho₁, hid₁, hcredited⟩ := h.named e he id' hid'
    refine ⟨o₁, (hrows o₁).mpr (Or.inl ⟨ho₁, fun hthis ↦ ?_⟩), hid₁, hcredited⟩
    rw [db.orders.eq_of_key ho₁ hmem hthis, hnone] at hcredited
    cases hcredited

/-! ## One step -/

section Step

variable {config : PassConfig} {settings : TmcPaySettings} {s : State}

theorem sound_step {a : Step} (hfair : Fair config s a) (h : Sound s.db) :
    Sound (step config settings s a).db := by
  cases a with
  | start now =>
    dsimp only [step]
    split <;> exact h
  | read reading now =>
    dsimp only [step]
    split
    · split
      · rename_i hread
        rcases readBack_ok hread with ⟨-, rfl⟩ | ⟨order, hmem, -, i, -, hrefresh⟩
        · exact h
        · exact h.effect (refreshOrder_effect hmem hrefresh)
      · exact h
    · exact h
  | expire now =>
    dsimp only [step]
    split
    · exact h.undisturbed (expireLapsedOrders_undisturbed s.db now)
    · exact h
  | stop => exact h
  | webhook d now => exact h.effect (receiveWebhook_effect settings d now s.db)
  | poll orderId accountId reading now =>
    dsimp only [step]
    split
    · rename_i hread
      rcases readOrder_ok hread with rfl | ⟨order, hmem, -, -, i, -, hrefresh⟩
      · exact h
      · exact h.effect (refreshOrder_effect hmem hrefresh)
    · exact h
  | purchase id accountId credits creditPriceRao externalId createdAt =>
    exact @commit_induction _ _ _ (fun db ↦ createOrder db id accountId credits creditPriceRao
      externalId createdAt) _ Sound h fun _ _ hok ↦ h.purchase hok
  | invoice orderId f =>
    exact @commit_induction _ _ _ _ _ Sound h fun _ _ hok ↦ h.attach hfair.1 hok

theorem watched_read {reading : Option Invoice} {now : Instant}
    (hfair : Fair config s (.read reading now)) (hsound : Sound s.db) (h : Watched s) :
    Watched (step config settings s (.read reading now)) := by
  dsimp only [step]
  split
  · rename_i started orderId accountId rest hpass
    have hp : (⟨started, (orderId, accountId) :: rest⟩ : Pass) ∈ s.pass := by rw [hpass]; rfl
    obtain ⟨hclock, hmiss⟩ := hfair _ hp
    -- an order the pass had seen is still seen, unless it is the one just read
    have hrest : ∀ o ∈ s.db.orders.rows, Overdue o started → o.id ≠ orderId →
        ∀ s' : State, (∀ r ∈ s.readings, r ∈ s'.readings) → Seen s' ⟨started, rest⟩ o.id := by
      intro o ho hover hother s' hreadings
      rcases h _ hp o ho hover with ⟨q, hq, hqid⟩ | ⟨r, hr, hrest⟩
      · rcases List.mem_cons.mp hq with rfl | hq
        · exact absurd hqid.symm hother
        · exact Or.inl ⟨q, hq, hqid⟩
      · exact Or.inr ⟨r, hreadings r hr, hrest⟩
    split
    · rename_i o' db' hread
      intro p hp' o ho hover
      obtain rfl := Option.some.inj hp'
      rcases readBack_ok hread with ⟨rfl, rfl⟩ | ⟨order, hmem, rfl, i, rfl, hrefresh⟩
      · have hother : o.id ≠ orderId := fun hid ↦
          hmiss rfl (orderId, accountId) rfl o ho hid hover
        exact hrest o ho hover hother _ fun r hr ↦ List.mem_append_left _ hr
      · rcases refreshOrder_overdue hsound hmem hrefresh ho hover with
          ⟨hold, hother⟩ | ⟨hid, hinvoice, hcreated⟩
        · exact hrest o hold hover hother _ fun r hr ↦ List.mem_append_left _ hr
        · refine Or.inr ⟨_, List.mem_append_right _ (mem_answered hmem hinvoice i now), ?_⟩
          exact ⟨hid.symm, hcreated, hclock⟩
    · exact .of_idle rfl
  · exact h

theorem watched_poll {orderId accountId : Uuid} {reading : Option Invoice} {now : Instant}
    (hfair : Fair config s (.poll orderId accountId reading now)) (hsound : Sound s.db)
    (h : Watched s) : Watched (step config settings s (.poll orderId accountId reading now)) := by
  dsimp only [step]
  split
  · rename_i o' db' hread
    refine h.of_overdue rfl (fun r hr ↦ List.mem_append_left _ hr) fun p hp o ho hover ↦ ?_
    rcases readOrder_ok hread with rfl | ⟨order, hmem, rfl, hasks, i, rfl, hrefresh⟩
    · exact Or.inl ⟨o, ho, rfl, hover⟩
    · rcases refreshOrder_overdue hsound hmem hrefresh ho hover with
        ⟨hold, -⟩ | ⟨hid, hinvoice, hcreated⟩
      · exact Or.inl ⟨o, hold, rfl, hover⟩
      · refine Or.inr (Or.inr ⟨⟨order.id, i.status, now⟩, List.mem_append_right _ ?_, hid.symm,
          hcreated, hfair p hp⟩)
        rw [if_pos hasks]
        exact mem_answered hmem hinvoice i now
  · exact h

theorem watched_step {a : Step} (hfair : Fair config s a) (hsound : Sound s.db)
    (h : Watched s) : Watched (step config settings s a) := by
  cases a with
  | start now =>
    dsimp only [step]
    split
    · rename_i hidle
      obtain ⟨hfits, hpolled⟩ := hfair hidle
      intro p hp o ho hover
      obtain rfl := Option.some.inj hp
      exact Or.inl ⟨_, mem_pending hfits ho hover (hpolled o ho hover), rfl⟩
    · exact h
  | read reading now => exact watched_read hfair hsound h
  | expire now =>
    dsimp only [step]
    split
    · exact .of_idle rfl
    · exact h
  | stop => exact .of_idle rfl
  | webhook d now =>
    refine h.of_noNewOverdue fun p hp o ho hover ↦ ?_
    have hstatus : d.invoice.status ≠ .created := hfair (Option.isSome_iff_exists.mpr ⟨p, hp⟩)
    have hrows := receiveWebhook_rows settings d now s.db (keeps_respects hstatus 0).refl
      fun order _ _ ↦ keeps_respects hstatus order.id
    obtain ⟨o₀, ho₀, hkeeps⟩ := hrows.earlier o ho
    exact ⟨o₀, ho₀, hkeeps.1.symm, hkeeps.overdue hover⟩
  | poll orderId accountId reading now => exact watched_poll hfair hsound h
  | purchase id accountId credits creditPriceRao externalId createdAt =>
    refine h.of_noNewOverdue (@commit_induction _ _ _ (fun db ↦ createOrder db id accountId credits
      creditPriceRao externalId createdAt) _ (NoNewOverdue s) (.refl s) ?_)
    intro o db' hok p _ o' ho' hover
    obtain ⟨-, hinvoice, -, hrows, -⟩ := createOrder_spec hok
    rw [hrows] at ho'
    rcases List.mem_append.mp ho' with ho' | ho'
    · exact ⟨o', ho', rfl, hover⟩
    · obtain rfl := List.mem_singleton.mp ho'
      have hsome := hover.1
      rw [hinvoice] at hsome
      cases hsome
  | invoice orderId f =>
    refine h.of_noNewOverdue (@commit_induction _ _ _ (attach orderId f) _ (NoNewOverdue s)
      (.refl s) ?_)
    intro o db' hok p hp o' ho' hover
    obtain ⟨o₁, hmem, -, -, -, hrows⟩ := attach_spec hok
    rcases (hrows o').mp ho' with ⟨ho', -⟩ | rfl
    · exact ⟨o', ho', rfl, hover⟩
    · obtain ⟨t, ht, hlapsed⟩ := hover.2.2
      exact absurd hlapsed (not_le.mpr (hfair.2 p hp t ht))

end Step

/-! ## What a step may close -/

/-- The order a step is about. -/
def Step.order (s : State) : Step → Option Uuid
  | .read .. => s.pass.bind fun p ↦ p.pending.head?.map (·.1)
  | .webhook d _ => (matchOrder s.db d.invoice).map (·.1.id)
  | .poll orderId .. => some orderId
  | .invoice orderId _ => some orderId
  | .start _ | .expire _ | .stop | .purchase .. => none

/-- The invoice was read after its time to live, and nobody had paid it. -/
def ReadUnpaid (s : State) (o : TmcPayOrder) : Prop :=
  ∃ r ∈ s.readings, r.orderId = o.id ∧ r.status.NoMoney ∧ ∀ t ∈ o.invoiceExpiresAt, t ≤ r.time

instance ReadUnpaid.decidable (s : State) (o : TmcPayOrder) : Decidable (ReadUnpaid s o) :=
  inferInstanceAs (Decidable (∃ r ∈ _, _))

/-- An expiry moves no order with an invoice to EXPIRED but those that were read unpaid. -/
def ClosesRead (config : PassConfig) (settings : TmcPaySettings) (s : State) (a : Step) : Prop :=
  match a with
  | .expire _ => ∀ o ∈ s.db.orders.rows, o.invoiceId.isSome → o.status ≠ .expired →
    (∃ o' ∈ (step config settings s a).db.orders.rows, o'.id = o.id ∧ o'.status = .expired) →
      ReadUnpaid s o
  | _ => True

instance ClosesRead.decidable (config : PassConfig) (settings : TmcPaySettings) (s : State)
    (a : Step) : Decidable (ClosesRead config settings s a) := by
  unfold ClosesRead; split <;> infer_instance

/-- An open order with an invoice stays open, unless the step is about it or it was read
unpaid. -/
def StaysOpen (config : PassConfig) (settings : TmcPaySettings) (s : State) (a : Step) : Prop :=
  ∀ o ∈ s.db.orders.rows, o.invoiceId.isSome → o.status.Open → a.order s ≠ some o.id →
    (∃ o' ∈ (step config settings s a).db.orders.rows, o'.id = o.id ∧ o'.status.Open) ∨
      ReadUnpaid s o

section Closing

variable {config : PassConfig} {settings : TmcPaySettings} {s : State}

/-- Where the queue is empty, the overdue orders were all read and found unpaid. -/
theorem readUnpaid_of_watched {started now : Instant} (hpass : s.pass = some ⟨started, []⟩)
    (hfair : Fair config s (.expire now)) (h : Watched s) {o : TmcPayOrder}
    (ho : o ∈ s.db.orders.rows) (hinvoice : o.invoiceId.isSome) (hlapsed : o.Lapsed now) :
    ReadUnpaid s o := by
  obtain ⟨hwaiting, t, ht, hexpired⟩ := hlapsed
  have hp : (⟨started, []⟩ : Pass) ∈ s.pass := by rw [hpass]; rfl
  have hstarted : t ≤ started := hfair _ hp o ho t ht hexpired
  rcases h _ hp o ho ⟨hinvoice, hwaiting, t, ht, hstarted⟩ with ⟨q, hq, -⟩ |
    ⟨r, hr, hid, hcreated, htime⟩
  · cases hq
  · refine ⟨r, hr, hid, Or.inl hcreated, fun t' ht' ↦ ?_⟩
    obtain rfl : t = t' := Option.some.inj (ht.symm.trans ht')
    exact hstarted.trans htime

theorem closesRead_step {a : Step} (hfair : Fair config s a) (h : Watched s) :
    ClosesRead config settings s a := by
  unfold ClosesRead
  split
  · rename_i now
    rintro o ho hinvoice hstatus ⟨o', ho', hid, hexpired⟩
    dsimp only [step] at ho'
    split at ho'
    · rename_i started hpass
      obtain ⟨o₀, ho₀, rfl⟩ := mem_expireLapsedOrders.mp ho'
      split at hid
      · rename_i hlapsed
        obtain rfl : o₀ = o := s.db.orders.eq_of_key ho₀ ho hid
        exact readUnpaid_of_watched hpass hfair h ho hinvoice hlapsed
      · rename_i hkept
        rw [if_neg hkept] at hexpired
        obtain rfl := s.db.orders.eq_of_key ho₀ ho hid
        exact absurd hexpired hstatus
    · obtain rfl := s.db.orders.eq_of_key ho' ho hid
      exact absurd hexpired hstatus
  · trivial

/-- A step that is not about an order, and no expiry, leaves it as it is. -/
theorem elsewhere {a : Step} (hexpire : ∀ now, a ≠ .expire now) {o : TmcPayOrder}
    (ho : o ∈ s.db.orders.rows) (hother : a.order s ≠ some o.id) :
    o ∈ (step config settings s a).db.orders.rows := by
  -- a read touches the row of its own order only
  have hrefresh : ∀ {order o' : TmcPayOrder} {i : Invoice} {now : Instant} {db' : Database},
      order ∈ s.db.orders.rows → o.id ≠ order.id →
      refreshOrder settings order i now s.db = .ok (o', db') → o ∈ db'.orders.rows := by
    intro order o' i now db' hmem hne hok
    obtain ⟨o₁, ho₁, -, hkept⟩ := (refreshOrder_rows (keepsBut_respects i order.id) hmem hok).later
      o ho
    rwa [hkept hne] at ho₁
  cases a with
  | start now =>
    dsimp only [step]
    split <;> exact ho
  | read reading now =>
    dsimp only [step]
    split
    · rename_i started orderId accountId rest hpass
      split
      · rename_i o' db' hread
        rcases readBack_ok hread with ⟨-, rfl⟩ | ⟨order, hmem, hid, i, -, hok⟩
        · exact ho
        · refine hrefresh hmem (fun hthis ↦ hother ?_) hok
          simp only [Step.order, hpass, Option.bind_some, List.head?_cons, Option.map_some]
          rw [hthis, hid]
      · exact ho
    · exact ho
  | expire now => exact absurd rfl (hexpire now)
  | stop => exact ho
  | webhook d now =>
    cases hmatch : matchOrder s.db d.invoice with
    | none =>
      have hrows := @receiveWebhook_rows Eq settings d now s.db (fun _ ↦ rfl) fun order b hsome ↦ by
        rw [hmatch] at hsome
        cases hsome
      obtain ⟨o', ho', rfl⟩ := hrows.later o ho
      exact ho'
    | some found =>
      obtain ⟨order, byExternalId⟩ := found
      have hrows := receiveWebhook_rows settings d now s.db
        (keepsBut_respects d.invoice order.id).refl fun order' b hsome ↦ by
          rw [hmatch] at hsome
          cases hsome
          exact keepsBut_respects d.invoice order.id
      obtain ⟨o', ho', -, hkept⟩ := hrows.later o ho
      rw [hkept fun hthis ↦ hother (by simp only [Step.order, hmatch, Option.map_some, hthis])]
        at ho'
      exact ho'
  | poll orderId accountId reading now =>
    dsimp only [step]
    split
    · rename_i o' db' hread
      rcases readOrder_ok hread with rfl | ⟨order, hmem, hid, -, i, -, hok⟩
      · exact ho
      · exact hrefresh hmem (fun hthis ↦ hother (by rw [Step.order, hthis, hid])) hok
    · exact ho
  | purchase id accountId credits creditPriceRao externalId createdAt =>
    refine @commit_induction _ _ _ (fun db ↦ createOrder db id accountId credits creditPriceRao
      externalId createdAt) _ (o ∈ ·.orders.rows) ho fun o' db' hok ↦ ?_
    obtain ⟨-, -, -, hrows, -⟩ := createOrder_spec hok
    rw [hrows]
    exact List.mem_append_left _ ho
  | invoice orderId f =>
    refine @commit_induction _ _ _ (attach orderId f) _ (o ∈ ·.orders.rows) ho fun o' db' hok ↦ ?_
    obtain ⟨o₁, -, hid, -, -, hrows⟩ := attach_spec hok
    exact (hrows o).mpr (Or.inl ⟨ho, fun hthis ↦ hother (by rw [Step.order, hthis, hid])⟩)

theorem staysOpen_step {a : Step} (hfair : Fair config s a) (h : Watched s) :
    StaysOpen config settings s a := by
  intro o ho hinvoice hopen hother
  by_cases hexpire : ∃ now, a = .expire now
  · obtain ⟨now, rfl⟩ := hexpire
    dsimp only [step]
    split
    · rename_i started hpass
      by_cases hlapsed : o.Lapsed now
      · exact Or.inr (readUnpaid_of_watched hpass hfair h ho hinvoice hlapsed)
      · exact Or.inl ⟨o, mem_expireLapsedOrders.mpr ⟨o, ho, if_neg hlapsed⟩, rfl, hopen⟩
    · exact Or.inl ⟨o, ho, rfl, hopen⟩
  · exact Or.inl ⟨o, elsewhere (fun now h ↦ hexpire ⟨now, h⟩) ho hother, rfl, hopen⟩

end Closing

/-- In a run of fair steps from a state in which nothing was bought yet, every order with an
invoice that an expiry closes was read after its time to live and found unpaid; and an open
order leaves the open statuses only by a step about it or by such an expiry. -/
theorem no_order_is_abandoned (config : PassConfig) (settings : TmcPaySettings) {s : State}
    (hidle : s.pass = none) (horders : s.db.orders.rows = [])
    (hledger : ∀ e ∈ s.db.ledger.rows, e.tmcPayOrderId = none) (as : List Step)
    (hfair : Each (step config settings) (Fair config) s as) :
    Each (step config settings)
      (fun s a ↦ ClosesRead config settings s a ∧ StaysOpen config settings s a) s as := by
  have hsound : Sound s.db := .of_no_orders horders hledger
  refine @Each.imp _ _ _ _ _ (fun s ↦ Sound s.db ∧ Watched s) ?_ ?_ _ _ hfair
    ⟨hsound, .of_idle hidle⟩
  · exact fun s a hfair h ↦ ⟨sound_step hfair h.1, watched_step hfair h.1 h.2⟩
  · exact fun s a hfair h ↦ ⟨closesRead_step hfair h.2, staysOpen_step hfair h.2⟩

/-! ## A read that fails -/

def examplePassConfig : PassConfig where
  batch := 50
  minAge := 30

/-- Account 1 exists and nobody has bought anything. -/
def exampleStart : State :=
  ⟨{ exampleOrders with orders := ⟨[], by decide⟩ }, none, []⟩

/-- Account 1 buys two credits, under an invoice that lives until 100. -/
def examplePurchase : List Step :=
  [.purchase 7 1 2 5 "credits-7" 0, .invoice 7 (exampleInvoice "i1" .created 12).fields]

/-- A pass that reads the unpaid invoice closes its order. -/
theorem unpaid_order_is_read_before_it_is_closed :
    Each (step examplePassConfig exampleSettings)
      (fun s a ↦ ClosesRead examplePassConfig exampleSettings s a ∧
        StaysOpen examplePassConfig exampleSettings s a) exampleStart
      (examplePurchase ++ [.start 200, .read (some (exampleInvoice "i1" .created 12)) 201,
        .expire 202]) :=
  no_order_is_abandoned examplePassConfig exampleSettings rfl rfl (fun _ he ↦ by cases he) _
    (by decide +kernel)

/-- A pass that fails to read the invoice closes its order all the same, and no later pass
has it in its queue. -/
theorem failed_read_abandons_the_order :
    ¬ Each (step examplePassConfig exampleSettings)
        (ClosesRead examplePassConfig exampleSettings) exampleStart
        (examplePurchase ++ [.start 200, .read none 201, .expire 202]) ∧
      pending examplePassConfig (run (step examplePassConfig exampleSettings) exampleStart
        (examplePurchase ++ [.start 200, .read none 201, .expire 202])).db 1000 = [] := by
  decide +kernel

end Conjectures.Reconciler

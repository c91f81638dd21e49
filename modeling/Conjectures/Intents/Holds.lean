import Mathlib.Algebra.Order.Ring.Int
import Mathlib.Tactic.Linarith
import Conjectures.Lib.Run
import Conjectures.Intents.Steps

/-!
# Balances and holds

An intent's hold is counted by the clock of whoever reads the balance, and clocks are
read before the account's lock is waited for.  An `openIntent` whose clock is ahead
leaves out a hold that a `confirm` with an earlier reading still finds unexpired, and
then both intents spend what only one of them can.

Everything else is sound: as long as no intent is confirmed while the latest balance
that let an intent in had left its hold out, the holds that were counted fit in the
balance (`Solvent`), and a confirmation only turns one of them into an entry.
-/

namespace Conjectures.Intents

open Lib Db Api

/-! ## What a balance leaves out -/

/-- The account's live intents that a balance read at `now` does not count. -/
def leftOut (db : Database) (accountId : Uuid) (now : Instant) : List Uuid :=
  (db.intents.rows.filter fun i ↦
    i.accountId = accountId ∧ i.status.Live ∧ i.expiresAt ≤ now).map SubmissionIntent.id

/-- The database, and the intents that the latest `openIntent` let in on the account left
out of the balance it read. -/
structure Account where
  db : Database
  leftOut : List Uuid

/-- The step, with the account of what was left out kept beside it. -/
def accountStep (c : Config) (accountId : Uuid) (s : Account) (a : Step) : Account where
  db := step c s.db a
  leftOut :=
    match a with
    | .openIntent r now =>
      if r.accountId = accountId ∧ (createIntent r now s.db).isOk then
        Intents.leftOut s.db accountId now
      else s.leftOut
    | _ => s.leftOut

/-- A deployment nothing has happened in. -/
def Account.initial : Account := ⟨Database.empty, []⟩

/-- The step does not confirm, by a clock that finds it unexpired, an intent that was
left out. -/
def Counted (s : Account) : Step → Prop
  | .confirm r => r.intentId ∈ s.leftOut →
      ∀ i ∈ s.db.intents.rows, i.id = r.intentId → i.expiresAt ≤ r.now
  | _ => True

instance Counted.decidable (s : Account) (a : Step) : Decidable (Counted s a) := by
  unfold Counted; split <;> infer_instance

/-- What was left out is kept beside the run and does not change it. -/
theorem db_run_accountStep (c : Config) (accountId : Uuid) (s : Account) (steps : List Step) :
    (run (accountStep c accountId) s steps).db = run (step c) s.db steps := by
  induction steps generalizing s with
  | nil => rfl
  | cons a steps ih => exact ih _

/-! ## The invariant -/

/-- What an intent claims of the account's balance, unless it was left out. -/
def claimRao (accountId : Uuid) (left : List Uuid) (i : SubmissionIntent) : Rao :=
  if i.accountId = accountId ∧ i.status.Live ∧ i.id ∉ left then i.heldRao else 0

/-- The holds that were counted. -/
def countedRao (db : Database) (accountId : Uuid) (left : List Uuid) : Rao :=
  db.intents.sumBy (claimRao accountId left)

/-- The holds that were counted fit in the balance. -/
structure Solvent (accountId : Uuid) (s : Account) : Prop where
  held : ∀ i ∈ s.db.intents.rows, 0 ≤ i.heldRao
  counted : countedRao s.db accountId s.leftOut ≤ balanceRao s.db accountId

theorem solvent_initial (accountId : Uuid) : Solvent accountId .initial where
  held := by intro i hi; cases hi
  counted := le_rfl

theorem claimRao_nonneg {accountId : Uuid} {left : List Uuid} {i : SubmissionIntent}
    (h : 0 ≤ i.heldRao) : 0 ≤ claimRao accountId left i := by
  unfold claimRao
  split
  · exact h
  · exact le_rfl

theorem claimRao_of_not_live {accountId : Uuid} {left : List Uuid} {i : SubmissionIntent}
    (h : ¬ i.status.Live) : claimRao accountId left i = 0 := if_neg fun hc ↦ h hc.2.1

theorem Solvent.balance_nonneg {accountId : Uuid} {s : Account} (h : Solvent accountId s) :
    0 ≤ balanceRao s.db accountId :=
  (Table.sumBy_nonneg fun i hi ↦ claimRao_nonneg (h.held i hi)).trans h.counted

/-! ## What the steps do to it -/

section Steps

variable {accountId : Uuid} {db db' : Database} {left : List Uuid}

/-- Entries that spend nothing keep the account solvent. -/
theorem Solvent.income (h : Solvent accountId ⟨db, left⟩) (hincome : Income db db') :
    Solvent accountId ⟨db', left⟩ where
  held := by
    show ∀ i ∈ db'.intents.rows, 0 ≤ i.heldRao
    rw [hincome.intents]
    exact h.held
  counted := by
    show countedRao db' accountId left ≤ balanceRao db' accountId
    obtain ⟨entries, hrows, hpositive⟩ := hincome.ledger
    have hgain : 0 ≤ (entries.map fun e ↦
        if e.accountId = accountId then e.amountRao else 0).sum := by
      refine List.sum_nonneg fun x hx ↦ ?_
      obtain ⟨e, he, rfl⟩ := List.mem_map.mp hx
      split
      · exact (hpositive e he).2.le
      · exact le_rfl
    have hsum : balanceRao db' accountId = balanceRao db accountId + _ :=
      Table.sumBy_of_rows_append hrows _
    have hcounted : countedRao db accountId left ≤ balanceRao db accountId := h.counted
    rw [countedRao, hincome.intents, hsum]
    exact hcounted.trans (le_add_of_nonneg_right hgain)

/-- Rewriting one intent keeps the account solvent if it claims no more than before. -/
theorem Solvent.modify (h : Solvent accountId ⟨db, left⟩) {i : SubmissionIntent}
    (hi : i ∈ db.intents.rows) (f : SubmissionIntent → SubmissionIntent)
    (hid : ∀ j, (f j).id = j.id) (hheld : ∀ j, (f j).heldRao = j.heldRao)
    (hclaim : claimRao accountId left (f i) ≤ claimRao accountId left i) :
    Solvent accountId ⟨{ db with intents := db.intents.modify i.id f hid }, left⟩ where
  held j hj := by
    have hj : j ∈ (db.intents.modify i.id f hid).rows := hj
    rcases (Table.mem_modify_of_mem hi).mp hj with ⟨hj, -⟩ | rfl
    · exact h.held j hj
    · rw [hheld]
      exact h.held i hi
  counted := by
    have hcounted : countedRao db accountId left ≤ balanceRao db accountId := h.counted
    have hsum : countedRao { db with intents := db.intents.modify i.id f hid } accountId left =
        countedRao db accountId left - claimRao accountId left i +
          claimRao accountId left (f i) :=
      @Table.sumBy_modify _ _ _ _ f hid db.intents i hi (claimRao accountId left)
    show countedRao { db with intents := db.intents.modify i.id f hid } accountId left ≤
      balanceRao db accountId
    rw [hsum]
    linarith

theorem Solvent.uploadBundle (h : Solvent accountId ⟨db, left⟩) {svc : IntentServices}
    {r : BundleUpload} (hupload : Api.uploadBundle svc r db = .ok ((), db')) :
    Solvent accountId ⟨db', left⟩ := by
  obtain ⟨i, hi, hlive, rfl⟩ := uploadBundle_spec hupload
  refine h.modify hi _ _ (fun _ ↦ rfl) ?_
  -- a live intent stays live
  have hlive' : (i.attached r.content r.sha256 (svc.requestDigest i r.sha256)).status.Live :=
    Or.inr rfl
  unfold claimRao
  simp only [hlive, hlive', true_and]
  exact le_rfl

theorem Solvent.cancel (h : Solvent accountId ⟨db, left⟩) {intentId owner : Uuid} {now : Instant}
    (hcancel : cancelIntent intentId owner now db = .ok ((), db')) :
    Solvent accountId ⟨db', left⟩ := by
  obtain ⟨i, hi, -, rfl⟩ := cancelIntent_spec hcancel
  refine h.modify hi _ _ (fun _ ↦ rfl) ?_
  have hgone : claimRao accountId left (i.closed .cancelled) = 0 :=
    claimRao_of_not_live (by show ¬ IntentState.Live .cancelled; decide)
  rw [hgone]
  exact claimRao_nonneg (h.held i hi)

theorem Solvent.expireLapsed (h : Solvent accountId ⟨db, left⟩) (now : Instant) :
    Solvent accountId ⟨Db.expireLapsed db now, left⟩ where
  held i hi := by
    have hi : i ∈ (db.intents.update _ _ (·.closed_id .expired)).rows := hi
    obtain ⟨j, hj, rfl⟩ := Table.mem_update.mp hi
    have hheld : (if decide (j.status.Live ∧ j.expiresAt ≤ now) then j.closed .expired
        else j).heldRao = j.heldRao := by split <;> rfl
    rw [hheld]
    exact h.held j hj
  counted := by
    refine le_trans ?_ h.counted
    show (db.intents.update _ _ (·.closed_id .expired)).sumBy (claimRao accountId left) ≤ _
    rw [Table.sumBy_update]
    refine Table.sumBy_le_sumBy fun i hi ↦ ?_
    split
    · have hgone : claimRao accountId left (i.closed .expired) = 0 :=
        claimRao_of_not_live (by show ¬ IntentState.Live .expired; decide)
      rw [hgone]
      exact claimRao_nonneg (h.held i hi)
    · exact le_rfl

/-- Opening on another account. -/
theorem Solvent.openOther (h : Solvent accountId ⟨db, left⟩) {r : NewIntent} {now : Instant}
    {out : SubmissionIntent × CreditBalance} (hopen : createIntent r now db = .ok (out, db'))
    (hother : r.accountId ≠ accountId) : Solvent accountId ⟨db', left⟩ := by
  obtain ⟨hvalid, hins, hdb', -⟩ := openIntent_spec hopen
  have hrows := Table.rows_of_insert? hins
  refine ⟨fun i hi ↦ ?_, ?_⟩
  · rw [hrows] at hi
    rcases List.mem_append.mp hi with hi | hi
    · exact h.held i hi
    · rw [List.mem_singleton.mp hi]
      exact (mul_pos hvalid.2.2.1 hvalid.2.2.2.1).le
  · have hcounted : countedRao db accountId left ≤ balanceRao db accountId := h.counted
    have hclaim : claimRao accountId left r.row = 0 := if_neg fun hc ↦ hother hc.1
    have hsum : countedRao db' accountId left = countedRao db accountId left + 0 := by
      rw [countedRao, Table.sumBy_of_rows_append hrows]
      simp [hclaim, countedRao]
    show countedRao db' accountId left ≤ balanceRao db' accountId
    rw [hsum, hdb', add_zero]
    exact hcounted

/-- Opening on the account: what the balance left out is left out, and what it counted
together with the new hold fits in it. -/
theorem Solvent.openOwn (h : Solvent accountId ⟨db, left⟩) {r : NewIntent} {now : Instant}
    {out : SubmissionIntent × CreditBalance} (hopen : createIntent r now db = .ok (out, db'))
    (hown : r.accountId = accountId) :
    Solvent accountId ⟨db', Intents.leftOut db accountId now⟩ := by
  obtain ⟨hvalid, hins, hdb', henough⟩ := openIntent_spec hopen
  have hrows := Table.rows_of_insert? hins
  have hnew : 0 ≤ r.row.heldRao := (mul_pos hvalid.2.2.1 hvalid.2.2.2.1).le
  refine ⟨fun i hi ↦ ?_, ?_⟩
  · rw [hrows] at hi
    rcases List.mem_append.mp hi with hi | hi
    · exact h.held i hi
    · rw [List.mem_singleton.mp hi]
      exact hnew
  · have hfits : heldRao db accountId now + r.row.heldRao ≤ balanceRao db accountId := by
      rw [← hown]
      exact held_add_le_balanceRao hvalid.2.2.1 hvalid.2.2.2.1 henough
    have hold : db.intents.sumBy (claimRao accountId (Intents.leftOut db accountId now)) ≤
        heldRao db accountId now := by
      refine Table.sumBy_le_sumBy fun i hi ↦ ?_
      unfold claimRao
      split
      · rename_i hclaim
        obtain ⟨haccount, hlive, hcounted⟩ := hclaim
        have hunexpired : now < i.expiresAt := by
          by_contra hlapsed
          refine hcounted (List.mem_map_of_mem (List.mem_filter.mpr ⟨hi, ?_⟩))
          exact decide_eq_true ⟨haccount, hlive, not_lt.mp hlapsed⟩
        rw [if_pos ⟨haccount, hlive, hunexpired⟩]
      · split
        · exact h.held i hi
        · exact le_rfl
    have hclaim : claimRao accountId (Intents.leftOut db accountId now) r.row ≤
        r.row.heldRao := by
      unfold claimRao
      split
      · exact le_rfl
      · exact hnew
    have hsum : countedRao db' accountId (Intents.leftOut db accountId now) =
        db.intents.sumBy (claimRao accountId (Intents.leftOut db accountId now)) +
          claimRao accountId (Intents.leftOut db accountId now) r.row := by
      rw [countedRao, Table.sumBy_of_rows_append hrows]
      simp
    show countedRao db' accountId (Intents.leftOut db accountId now) ≤ balanceRao db' accountId
    rw [hsum, hdb']
    exact (add_le_add hold hclaim).trans hfits

/-- A confirmation turns the hold it spends into an entry. -/
theorem Solvent.confirm (h : Solvent accountId ⟨db, left⟩) {svc : IntentServices}
    {r : ConfirmRequest} {out : ConfirmedIntent} (hok : Counted ⟨db, left⟩ (.confirm r))
    (hconfirm : confirmIntent svc r db = .ok (out, db')) : Solvent accountId ⟨db', left⟩ := by
  obtain ⟨c, hc⟩ := confirmIntent_spec hconfirm
  obtain ⟨i, hi, hid, -, hspec⟩ := confirm_spec hc
  have hcounted : countedRao db accountId left ≤ balanceRao db accountId := h.counted
  have hbalance : balanceRao db' accountId = balanceRao db accountId +
      if i.accountId = accountId then -i.heldRao else 0 := by
    rw [balanceRao, Table.sumBy_of_rows_append hspec.ledger]
    simp [balanceRao, SubmissionIntent.spend, EntryFields.row]
  have hgone : claimRao accountId left (i.confirmedBy out.submission.id) = 0 :=
    claimRao_of_not_live (by show ¬ IntentState.Live .confirmed; decide)
  have hsum : countedRao db' accountId left =
      countedRao db accountId left - claimRao accountId left i + 0 := by
    rw [countedRao, hspec.intents, Table.sumBy_modify hi, hgone, countedRao]
  -- the intent was counted, since it has not lapsed
  have hclaim : (if i.accountId = accountId then -i.heldRao else 0) =
      -claimRao accountId left i := by
    have hin : i.id ∉ left := fun hleft ↦
      absurd (hok (hid ▸ hleft) i hi hid) (not_le.mpr hspec.unexpired)
    unfold claimRao
    by_cases haccount : i.accountId = accountId
    · rw [if_pos haccount, if_pos ⟨haccount, Or.inr hspec.attached, hin⟩]
    · rw [if_neg haccount, if_neg fun hc ↦ haccount hc.1, neg_zero]
  refine ⟨fun j hj ↦ ?_, ?_⟩
  · have hj : j ∈ db'.intents.rows := hj
    rw [hspec.intents] at hj
    rcases (Table.mem_modify_of_mem hi).mp hj with ⟨hj, -⟩ | rfl
    · exact h.held j hj
    · exact h.held i hi
  · show countedRao db' accountId left ≤ balanceRao db' accountId
    rw [hsum, hbalance, hclaim]
    linarith

end Steps

theorem solvent_step (c : Config) (accountId : Uuid) {s : Account} {a : Step}
    (hok : Counted s a) (h : Solvent accountId s) :
    Solvent accountId (accountStep c accountId s a) := by
  obtain ⟨db, left⟩ := s
  cases a with
  | payment a => exact h.income (income_step c.transfers db a)
  | fund e =>
    show Solvent accountId ⟨commit (enter e) db, left⟩
    exact @commit_induction _ _ _ _ _ (fun db' ↦ Solvent accountId ⟨db', left⟩) h
      fun _ _ he ↦ h.income (income_enter he)
  | openIntent r now =>
    show Solvent accountId ⟨commit (createIntent r now) db, if _ then _ else left⟩
    cases hopen : createIntent r now db with
    | error e =>
      rw [commit_of_error hopen, if_neg (by simp [Except.isOk, Except.toBool])]
      exact h
    | ok out =>
      rw [commit_of_ok hopen]
      by_cases hown : r.accountId = accountId
      · rw [if_pos ⟨hown, by simp [Except.isOk, Except.toBool]⟩]
        exact h.openOwn hopen hown
      · rw [if_neg fun hc ↦ hown hc.1]
        exact h.openOther hopen hown
  | uploadBundle r =>
    exact @commit_induction _ _ _ _ _ (fun db' ↦ Solvent accountId ⟨db', left⟩) h
      fun _ _ hr ↦ h.uploadBundle hr
  | confirm r =>
    exact @commit_induction _ _ _ _ _ (fun db' ↦ Solvent accountId ⟨db', left⟩) h
      fun _ _ hr ↦ h.confirm hok hr
  | cancel intentId owner now =>
    exact @commit_induction _ _ _ _ _ (fun db' ↦ Solvent accountId ⟨db', left⟩) h
      fun _ _ hr ↦ h.cancel hr
  | expireLapsed now => exact h.expireLapsed now

/-! ## Whole runs -/

/-- In every run in which no intent is confirmed while left out, no balance is ever
negative. -/
theorem balance_never_overdrawn (c : Config) (accountId : Uuid) (steps : List Step)
    (hcounted : Each (accountStep c accountId) Counted .initial steps) :
    0 ≤ balanceRao (run (step c) Database.empty steps) accountId := by
  have hstep : ∀ s a, Counted s a → Solvent accountId s →
      Solvent accountId (accountStep c accountId s a) := fun _ _ hok h ↦
    solvent_step c accountId hok h
  have hsolvent := hcounted.invariant hstep (solvent_initial accountId)
  have hdb : (run (accountStep c accountId) .initial steps).db =
      run (step c) Database.empty steps := db_run_accountStep c accountId .initial steps
  rw [← hdb]
  exact hsolvent.balance_nonneg

/-- Account 1 has one credit and two intents.  The second is opened at 10, when the first
has just lapsed; the first is then confirmed by a clock read at 9. -/
def exampleOverdraft : List Step :=
  [.payment (.accounts (.singleton ⟨1, none⟩) (.empty _)), .fund exampleDeposited,
    .openIntent (exampleIntent 1 0 10) 0,
    .uploadBundle (exampleUpload 1 [1] "proof one" 1),
    .openIntent (exampleIntent 2 10 20) 10,
    .uploadBundle (exampleUpload 2 [2] "proof two" 10),
    .confirm (exampleConfirm 1 9),
    .confirm (exampleConfirm 2 11)]

/-- Both intents spend the one credit. -/
theorem late_confirmation_overdraws :
    balanceRao (run (step exampleConfig) Database.empty exampleOverdraft) 1 = -5 := by
  decide +kernel

/-- Without the second intent the first is confirmed by the same clock and the balance is
spent, not overdrawn. -/
theorem timely_confirmation_does_not_overdraw :
    0 ≤ balanceRao (run (step exampleConfig) Database.empty
      (exampleOverdraft.take 4 ++ [.confirm (exampleConfirm 1 9)])) 1 :=
  balance_never_overdrawn exampleConfig 1 _ (by decide +kernel)

/-! ## Clocks that keep to the order of the lock -/

/-- The reading of the clock that a step's holds are counted or checked by. -/
def Step.clock? : Step → Option Instant
  | .openIntent _ now => some now
  | .confirm r => some r.now
  | _ => none

/-- Intents stay, and expire when they said they would. -/
def KeepsExpiry (db db' : Database) : Prop :=
  ∀ i ∈ db.intents.rows, ∃ i' ∈ db'.intents.rows, i'.id = i.id ∧ i'.expiresAt = i.expiresAt

theorem KeepsExpiry.refl (db : Database) : KeepsExpiry db db := fun i hi ↦ ⟨i, hi, rfl, rfl⟩

theorem keepsExpiry_modify {db db' : Database} {i : SubmissionIntent}
    (hi : i ∈ db.intents.rows) (f : SubmissionIntent → SubmissionIntent)
    (hid : ∀ j, (f j).id = j.id) (h : db'.intents = db.intents.modify i.id f hid)
    (hexpiry : ∀ j, (f j).expiresAt = j.expiresAt) : KeepsExpiry db db' := by
  intro j hj
  rw [h]
  by_cases hk : j.id = i.id
  · refine ⟨f i, (Table.mem_modify_of_mem hi).mpr (Or.inr rfl), (hid i).trans hk.symm, ?_⟩
    rw [hexpiry, db.intents.eq_of_key hj hi hk]
  · exact ⟨j, (Table.mem_modify_of_mem hi).mpr (Or.inl ⟨hj, hk⟩), rfl, rfl⟩

theorem keepsExpiry_step (c : Config) (db : Database) (a : Step) :
    KeepsExpiry db (step c db a) := by
  cases a with
  | payment a =>
    intro i hi
    exact ⟨i, (income_step c.transfers db a).intents ▸ hi, rfl, rfl⟩
  | fund e =>
    refine commit_induction (KeepsExpiry.refl db) fun _ db' he i hi ↦ ?_
    exact ⟨i, (income_enter he).intents ▸ hi, rfl, rfl⟩
  | openIntent r now =>
    refine commit_induction (KeepsExpiry.refl db) fun _ db' hopen i hi ↦ ?_
    obtain ⟨-, hins, -, -⟩ := openIntent_spec hopen
    rw [Table.rows_of_insert? hins]
    exact ⟨i, List.mem_append_left _ hi, rfl, rfl⟩
  | uploadBundle r =>
    refine commit_induction (KeepsExpiry.refl db) fun _ db' hupload ↦ ?_
    obtain ⟨i, hi, -, rfl⟩ := uploadBundle_spec hupload
    exact keepsExpiry_modify hi _ (·.attached_id _ _ _) rfl fun _ ↦ rfl
  | confirm r =>
    refine commit_induction (KeepsExpiry.refl db) fun _ db' hconfirm ↦ ?_
    obtain ⟨_, hc⟩ := confirmIntent_spec hconfirm
    obtain ⟨i, hi, -, -, hspec⟩ := confirm_spec hc
    exact keepsExpiry_modify hi _ _ hspec.intents fun _ ↦ rfl
  | cancel intentId accountId now =>
    refine commit_induction (KeepsExpiry.refl db) fun _ db' hcancel ↦ ?_
    obtain ⟨i, hi, -, rfl⟩ := cancelIntent_spec hcancel
    exact keepsExpiry_modify hi _ (·.closed_id .cancelled) rfl fun _ ↦ rfl
  | expireLapsed now =>
    intro i hi
    have hmem : _ ∈ (db.intents.update (fun i ↦ i.status.Live ∧ i.expiresAt ≤ now)
        (·.closed .expired) (·.closed_id .expired)).rows := Table.mem_update.mpr ⟨i, hi, rfl⟩
    refine ⟨_, hmem, ?_⟩
    split <;> exact ⟨rfl, rfl⟩

/-- Where each step reads its clock after the steps before it, no intent is confirmed
while left out. -/
theorem counted_of_clocks_in_order (c : Config) (accountId : Uuid) (steps : List Step)
    (horder : (steps.filterMap Step.clock?).Pairwise (· ≤ ·)) :
    Each (accountStep c accountId) Counted .initial steps := by
  -- what was left out has lapsed by every clock that is still to be read
  have hrun : ∀ (steps : List Step) (s : Account),
      (steps.filterMap Step.clock?).Pairwise (· ≤ ·) →
      (∀ id ∈ s.leftOut, ∃ i ∈ s.db.intents.rows, i.id = id ∧
        ∀ t ∈ steps.filterMap Step.clock?, i.expiresAt ≤ t) →
      Each (accountStep c accountId) Counted s steps := by
    intro steps
    induction steps with
    | nil => exact fun _ _ _ ↦ trivial
    | cons a steps ih =>
      intro s horder hlapsed
      have htail : (steps.filterMap Step.clock?).Pairwise (· ≤ ·) := by
        refine horder.sublist ?_
        exact (List.sublist_cons_self a steps).filterMap _
      have hkept : ∀ id ∈ s.leftOut, ∃ i ∈ (step c s.db a).intents.rows, i.id = id ∧
          ∀ t ∈ steps.filterMap Step.clock?, i.expiresAt ≤ t := by
        intro id hid
        obtain ⟨i, hi, hiid, hle⟩ := hlapsed id hid
        obtain ⟨i', hi', hk, hexpiry⟩ := keepsExpiry_step c s.db a i hi
        refine ⟨i', hi', hk.trans hiid, fun t ht ↦ hexpiry ▸ hle t ?_⟩
        obtain ⟨b, hb, hclock⟩ := List.mem_filterMap.mp ht
        exact List.mem_filterMap.mpr ⟨b, List.mem_cons_of_mem _ hb, hclock⟩
      refine ⟨?_, ih _ htail ?_⟩
      · cases a with
        | confirm r =>
          intro hleft i hi hid
          obtain ⟨j, hj, hjid, hle⟩ := hlapsed _ hleft
          rw [s.db.intents.eq_of_key hi hj (hid.trans hjid.symm)]
          exact hle r.now (List.mem_filterMap.mpr ⟨_, List.mem_cons_self, rfl⟩)
        | _ => trivial
      · cases a with
        | openIntent r now =>
          dsimp only [accountStep]
          split
          · intro id hid
            obtain ⟨i, hi, rfl⟩ := List.mem_map.mp hid
            obtain ⟨hi, hp⟩ := List.mem_filter.mp hi
            obtain ⟨-, -, hexpired⟩ := of_decide_eq_true hp
            obtain ⟨i', hi', hk, hexpiry⟩ := keepsExpiry_step c s.db (.openIntent r now) i hi
            refine ⟨i', hi', hk, fun t ht ↦ hexpiry ▸ hexpired.trans ?_⟩
            exact (List.pairwise_cons.mp horder).1 t ht
          · exact hkept
        | _ => exact hkept
  refine hrun steps .initial horder fun id hid ↦ ?_
  cases hid

end Conjectures.Intents

import Conjectures.Rewards.Matching
import Conjectures.Trajectories.Payments

/-!
# One transfer, one settlement

A payout leaves UNCLAIMED once, for a reward or for a bonus, and each of the two flows asks for
UNCLAIMED under the lock of its row.  What a confirmed bonus names is therefore DISREGARDED from
then on (`Exclusive`), and nothing on the reward side writes it again.
-/

namespace Conjectures.Trajectories

open Lib Db
open Rewards (Matched Written Settles Settled)

/-! ## What the reward side leaves alone -/

theorem mem_settled {db db' : RewardDatabase} {e : RewardEvent} {p p' : TreasuryPayout}
    {s : Submission} (h : Settled db db' e p s) (hp' : p' ∈ db.payouts.rows)
    (hne : p'.id ≠ p.id) : p' ∈ db'.payouts.rows := by
  have hmem : p' ∈ (db.payouts.modify p.id (·.claimed e.id)
      (TreasuryPayout.claimed_id e.id)).rows := Table.mem_modify.mpr (Or.inl ⟨hp', hne⟩)
  rcases h.result with ⟨-, -, -, rfl⟩ | ⟨-, -, -, timeline, rfl⟩
  · exact hmem
  · exact hmem

/-- A payout that was decided on is not written again. -/
theorem Written.keeps {db db' : RewardDatabase} {a : Rewards.Step} (h : Written db a db')
    {p : TreasuryPayout} (hp : p ∈ db.payouts.rows) (hstatus : p.status ≠ .unclaimed) :
    p ∈ db'.payouts.rows := by
  have hother : ∀ p' ∈ db.payouts.rows, p'.status = .unclaimed → p.id ≠ p'.id := by
    intro p' hp' hunclaimed hid
    exact hstatus (db.payouts.eq_of_key hp hp' hid ▸ hunclaimed)
  cases h with
  | unpaid h => exact h.payouts ▸ hp
  | seeded => exact hp
  | marked h =>
    obtain ⟨timeline, rfl⟩ := h.result
    exact hp
  | reverted => exact hp
  | recorded => exact List.mem_append_left _ hp
  | claimed hp' hunclaimed he hsame h => exact mem_settled h hp (hother _ hp' hunclaimed)
  | @bound reserved payoutId rewardEventId note p' e s _ hp' hunclaimed he hamount hcoldkey h =>
    have hne := hother _ hp' hunclaimed
    exact mem_settled h ((@Table.mem_modify _ _ _ _ _ (TreasuryPayout.noted_id note) _ _ _).mpr
      (Or.inl ⟨hp, hne⟩)) hne
  | @disregarded payoutId note p' hp' hunclaimed =>
    exact (@Table.mem_modify _ _ _ _ _ (TreasuryPayout.disregarded_id note) _ _ _).mpr
      (Or.inl ⟨hp, hother _ hp' hunclaimed⟩)

/-! ## The invariant -/

structure Exclusive (s : Bonuses) : Prop where
  matched : Matched s.rewards
  live : Lib.Unique TrajectoryPayment.liveClaim s.payments.rows
  payouts : Lib.Unique TrajectoryPayment.treasuryPayoutId s.payments.rows
  /-- `trajectory_payment_chain` -/
  chain : ∀ m ∈ s.payments.rows, m.status = .confirmed ↔ m.treasuryPayoutId.isSome
  paid : ∀ m ∈ s.payments.rows, ∀ i, m.treasuryPayoutId = some i →
    ∃ p ∈ s.rewards.payouts.rows, p.id = i ∧ p.status = .disregarded ∧ Pays p m

theorem fresh_exclusive : Exclusive .fresh where
  matched := Rewards.opening_empty.matched
  live := fun _ h ↦ absurd h List.not_mem_nil
  payouts := fun _ h ↦ absurd h List.not_mem_nil
  chain := fun _ h ↦ absurd h List.not_mem_nil
  paid := fun _ h ↦ absurd h List.not_mem_nil

/-- The reward side moves. -/
theorem Exclusive.rewarded {s : Bonuses} {rewards : RewardDatabase} (h : Exclusive s)
    (hmatched : Matched rewards) (hkeeps : ∀ p ∈ s.rewards.payouts.rows, p.status = .disregarded →
      p ∈ rewards.payouts.rows) : Exclusive { s with rewards } := by
  refine { h with matched := hmatched, paid := fun m hm i hi ↦ ?_ }
  obtain ⟨p, hp, hid, hstatus, hpays⟩ := h.paid m hm i hi
  exact ⟨p, hkeeps p hp hstatus, hid, hstatus, hpays⟩

theorem liveClaim_eq_some {m : TrajectoryPayment} {claimId : Uuid} :
    m.liveClaim = some claimId ↔ m.Live ∧ m.claimId = claimId := by
  unfold TrajectoryPayment.liveClaim
  split
  · rename_i hlive
    exact ⟨fun h ↦ ⟨hlive, Option.some.inj h⟩, fun h ↦ congrArg some h.2⟩
  · rename_i hlive
    exact ⟨nofun, fun h ↦ absurd h.1 hlive⟩

/-! ## Payments -/

/-- A prepared payment is a new row, for a claim without a live one. -/
structure Prepared (s s' : Bonuses) (m : TrajectoryPayment) : Prop where
  status : m.status = .prepared
  payout : m.treasuryPayoutId = none
  free : ∀ m' ∈ s.payments.rows, m'.Live → m'.claimId ≠ m.claimId
  result : ∃ payments : Table TrajectoryPayment.id,
    payments.rows = s.payments.rows ++ [m] ∧ s' = { s with payments }

theorem preparePayment_ok {settings : Settings} {r : Preparation}
    {snapshot : Bounty.BountyPoolSnapshot} {now : Instant} {s s' : Bonuses}
    {m : TrajectoryPayment} (h : preparePayment settings r snapshot now s = .ok (m, s')) :
    Prepared s s' m := by
  simp only [preparePayment, insertPayment, bind_eq_ok, require_eq_ok, need_eq_ok] at h
  obtain ⟨observed, -, _, -, _, -, claim, -, _, -, _, -, _, -, _, -, account, -, _, -, amount, -,
    _, -, s₁, ⟨_, -, _, -, _, hfree, payments, hinsert, h₁⟩, h⟩ := h
  cases h₁
  cases h
  exact ⟨rfl, rfl, hfree, payments, Table.rows_of_insert? hinsert, rfl⟩

/-- A prepared payment is completed. -/
structure Completed (s s' : Bonuses) (m : TrajectoryPayment) (status : PaymentStatus)
    (payoutId : Option ℕ) (now : Instant) (actor : Uuid) : Prop where
  mem : m ∈ s.payments.rows
  prepared : m.status = .prepared
  valid : (m.completed status payoutId now actor).Valid
  unique : ∀ m' ∈ s.payments.rows, m'.id ≠ m.id → m'.treasuryPayoutId ≠ none →
    m'.treasuryPayoutId ≠ payoutId
  result : s' = { s with
    payments := s.payments.modify m.id (·.completed status payoutId now actor)
      (TrajectoryPayment.completed_id status payoutId now actor) }

theorem completePayment_ok {s s' : Bonuses} {m : TrajectoryPayment} {status : PaymentStatus}
    {payoutId : Option ℕ} {now : Instant} {actor : Uuid} (hm : m ∈ s.payments.rows)
    (h : completePayment s m status payoutId now actor = .ok s') :
    Completed s s' m status payoutId now actor := by
  simp only [completePayment, bind_eq_ok, require_eq_ok] at h
  obtain ⟨_, hvalid, _, ⟨hprepared, -⟩, _, -, _, hunique, h⟩ := h
  cases h
  exact ⟨hm, hprepared, hvalid, hunique, rfl⟩

theorem Completed.payments {s s' : Bonuses} {m : TrajectoryPayment} {status : PaymentStatus}
    {payoutId : Option ℕ} {now : Instant} {actor : Uuid}
    (h : Completed s s' m status payoutId now actor) :
    s'.payments = s.payments.modify m.id (·.completed status payoutId now actor)
      (TrajectoryPayment.completed_id status payoutId now actor) := by rw [h.result]

theorem Completed.mem_iff {s s' : Bonuses} {m m' : TrajectoryPayment} {status : PaymentStatus}
    {payoutId : Option ℕ} {now : Instant} {actor : Uuid}
    (h : Completed s s' m status payoutId now actor) :
    m' ∈ s'.payments.rows ↔ (m' ∈ s.payments.rows ∧ m'.id ≠ m.id) ∨
      m' = m.completed status payoutId now actor := by
  rw [h.payments]
  exact Table.mem_modify_of_mem h.mem

/-- Confirmed by nothing new, or by a payout that was unclaimed. -/
theorem confirmPayment_ok {paymentId : Uuid} {payoutId : ℕ} {actor : Uuid} {now : Instant}
    {s s' : Bonuses} {m' : TrajectoryPayment}
    (h : confirmPayment paymentId payoutId actor now s = .ok (m', s')) :
    s' = s ∨ ∃ m p, p ∈ s.rewards.payouts.rows ∧ p.status = .unclaimed ∧ p.rewardEventId = none ∧
      Pays p m ∧ Completed { s with
        rewards := { s.rewards with
          payouts := s.rewards.payouts.modify p.id (·.disregarded (paymentNote m))
            (TreasuryPayout.disregarded_id (paymentNote m)) } } s' m .confirmed (some p.id) now
        actor := by
  simp only [confirmPayment, bind_eq_ok, need_eq_ok, Table.find?_eq_some] at h
  obtain ⟨p, ⟨hp, -⟩, m, ⟨hm, -⟩, claim, -, h⟩ := h
  split at h
  · cases h
    exact Or.inl rfl
  · simp only [bind_eq_ok, require_eq_ok] at h
    obtain ⟨_, ⟨-, hstatus, hunbound, hpays⟩, s₁, hcomplete, h⟩ := h
    cases h
    exact Or.inr ⟨m, p, hp, hstatus, hunbound, hpays, completePayment_ok hm hcomplete⟩

theorem cancelPayment_ok {paymentId : Uuid} {evidence : ChainEvidence} {actor : Uuid}
    {now : Instant} {s s' : Bonuses} {m' : TrajectoryPayment}
    (h : cancelPayment paymentId evidence actor now s = .ok (m', s')) :
    ∃ m, Completed s s' m .cancelled none now actor := by
  simp only [cancelPayment, bind_eq_ok, need_eq_ok, require_eq_ok, Table.find?_eq_some] at h
  obtain ⟨_, -, m, ⟨hm, -⟩, claim, -, _, -, _, -, s₁, hcomplete, h⟩ := h
  cases h
  exact ⟨m, completePayment_ok hm hcomplete⟩

theorem Prepared.exclusive {s s' : Bonuses} {m : TrajectoryPayment} (h : Prepared s s' m)
    (hs : Exclusive s) : Exclusive s' := by
  obtain ⟨payments, hrows, rfl⟩ := h.result
  have hmem : ∀ m', m' ∈ payments.rows ↔ m' ∈ s.payments.rows ∨ m' = m := fun m' ↦ by
    rw [hrows, List.mem_append, List.mem_singleton]
  refine ⟨hs.matched, ?_, ?_, fun m' hm' ↦ ?_, fun m' hm' i hi ↦ ?_⟩
  · rw [hrows]
    refine hs.live.append ?_
    rintro ⟨m', hm', hsame, hsome⟩
    obtain ⟨claimId, hclaim⟩ := Option.isSome_iff_exists.mp hsome
    obtain ⟨hlive, hid⟩ := liveClaim_eq_some.mp (hsame.trans hclaim)
    exact h.free m' hm' hlive (hid.trans (liveClaim_eq_some.mp hclaim).2.symm)
  · rw [hrows]
    refine hs.payouts.append_of_none fun m' hm' ↦ ?_
    rw [List.mem_singleton.mp hm', h.payout]
  · rcases (hmem m').mp hm' with hm' | rfl
    · exact hs.chain m' hm'
    · rw [h.status, h.payout]
      exact ⟨nofun, nofun⟩
  · rcases (hmem m').mp hm' with hm' | rfl
    · exact hs.paid m' hm' i hi
    · rw [h.payout] at hi
      cases hi

/-- A completed payment names the payout that paid it, if any did. -/
theorem Completed.exclusive {s s' : Bonuses} {m : TrajectoryPayment} {status : PaymentStatus}
    {payoutId : Option ℕ} {now : Instant} {actor : Uuid}
    (h : Completed s s' m status payoutId now actor) (hs : Exclusive s)
    (hpaid : ∀ i, payoutId = some i → ∃ p ∈ s.rewards.payouts.rows, p.id = i ∧
      p.status = .disregarded ∧ Pays p m) : Exclusive s' := by
  have hrewards : s'.rewards = s.rewards := by rw [h.result]
  refine ⟨hrewards ▸ hs.matched, ?_, ?_, fun m' hm' ↦ ?_, fun m' hm' i hi ↦ ?_⟩
  · rw [h.payments]
    refine hs.live.modify h.mem fun claimId hclaim m' hm' hne hsame ↦ hne ?_
    have hlive : m.Live := by
      rw [TrajectoryPayment.Live, h.prepared]
      nofun
    have hbefore : m.liveClaim = some claimId :=
      liveClaim_eq_some.mpr ⟨hlive, (liveClaim_eq_some.mp hclaim).2⟩
    rw [hs.live m' hm' m h.mem claimId hsame hbefore]
  · rw [h.payments]
    refine hs.payouts.modify h.mem fun i hi m' hm' hne hsame ↦ ?_
    exact h.unique m' hm' hne (by rw [hsame]; nofun) (hsame.trans hi.symm)
  · rcases h.mem_iff.mp hm' with ⟨hm', -⟩ | rfl
    · exact hs.chain m' hm'
    · exact h.valid.2.2.2.2.2.2.2.1
  · rw [hrewards]
    rcases h.mem_iff.mp hm' with ⟨hm', -⟩ | rfl
    · exact hs.paid m' hm' i hi
    · exact hpaid i hi

theorem payStep_exclusive (s : Bonuses) (a : PaymentAction) (h : Exclusive s) :
    Exclusive (payStep s a) := by
  cases a with
  | reward a =>
    dsimp only [payStep]
    split
    · exact h
    · have hwritten := Rewards.step_written s.rewards a
      exact h.rewarded (hwritten.matched h.matched) fun p hp hstatus ↦
        Written.keeps hwritten hp (by rw [hstatus]; nofun)
  | claims claims => exact { h with }
  | accounts accounts =>
    have hunpaid : Rewards.Unpaid s.rewards { s.rewards with accounts } :=
      Rewards.unpaid_of_eq rfl rfl rfl
    exact h.rewarded (hunpaid.matched h.matched) fun _ hp _ ↦ hp
  | prepare settings r snapshot now =>
    exact @commit_induction _ _ _ (preparePayment settings r snapshot now) _ Exclusive h
      fun _ _ hok ↦ (preparePayment_ok hok).exclusive h
  | confirm paymentId payoutId actor now =>
    refine @commit_induction _ _ _ (confirmPayment paymentId payoutId actor now) _ Exclusive h
      fun _ s' hok ↦ ?_
    rcases confirmPayment_ok hok with rfl | ⟨m, p, hp, hstatus, hunbound, hpays, hcompleted⟩
    · exact h
    · have hmem := fun p' ↦ @Table.mem_modify_of_mem _ _ _ _ _
        (TreasuryPayout.disregarded_id (paymentNote m)) s.rewards.payouts p p' hp
      refine hcompleted.exclusive (h.rewarded ?_ fun p' hp' hstatus' ↦ ?_) fun i hi ↦ ?_
      · exact Rewards.matched_annotated (TreasuryPayout.disregarded_id (paymentNote m)) hp h.matched
          rfl rfl rfl hunbound rfl hunbound
      · refine (hmem p').mpr (Or.inl ⟨hp', fun hid ↦ ?_⟩)
        rw [s.rewards.payouts.eq_of_key hp' hp hid, hstatus] at hstatus'
        cases hstatus'
      · cases hi
        exact ⟨_, (hmem _).mpr (Or.inr rfl), rfl, rfl, hpays⟩
  | cancel paymentId evidence actor now =>
    refine @commit_induction _ _ _ (cancelPayment paymentId evidence actor now) _ Exclusive h
      fun _ _ hok ↦ ?_
    obtain ⟨m, hcompleted⟩ := cancelPayment_ok hok
    exact hcompleted.exclusive h nofun

/-! ## What is settled stays settled -/

/-- A confirmed payment and a payout that was decided on are not written again. -/
structure Lasts (s s' : Bonuses) : Prop where
  payments : ∀ m ∈ s.payments.rows, m.status = .confirmed → m ∈ s'.payments.rows
  payouts : ∀ p ∈ s.rewards.payouts.rows, p.status ≠ .unclaimed → p ∈ s'.rewards.payouts.rows

theorem Lasts.refl (s : Bonuses) : Lasts s s := ⟨fun _ hm _ ↦ hm, fun _ hp _ ↦ hp⟩

theorem Lasts.comp {s s' s'' : Bonuses} (h' : Lasts s' s'') (h : Lasts s s') : Lasts s s'' where
  payments m hm hstatus := h'.payments m (h.payments m hm hstatus) hstatus
  payouts p hp hstatus := h'.payouts p (h.payouts p hp hstatus) hstatus

theorem Completed.lasts {s s' : Bonuses} {m : TrajectoryPayment} {status : PaymentStatus}
    {payoutId : Option ℕ} {now : Instant} {actor : Uuid}
    (h : Completed s s' m status payoutId now actor) : Lasts s s' := by
  refine ⟨fun m' hm' hconfirmed ↦ h.mem_iff.mpr (Or.inl ⟨hm', fun hid ↦ ?_⟩), fun p hp _ ↦ ?_⟩
  · rw [s.payments.eq_of_key hm' h.mem hid, h.prepared] at hconfirmed
    cases hconfirmed
  · rw [h.result]
    exact hp

theorem payStep_lasts (s : Bonuses) (a : PaymentAction) : Lasts s (payStep s a) := by
  cases a with
  | reward a =>
    dsimp only [payStep]
    split
    · exact .refl s
    · exact ⟨fun _ hm _ ↦ hm, fun p hp hstatus ↦
        Written.keeps (Rewards.step_written s.rewards a) hp hstatus⟩
  | claims claims => exact ⟨fun _ hm _ ↦ hm, fun _ hp _ ↦ hp⟩
  | accounts accounts => exact ⟨fun _ hm _ ↦ hm, fun _ hp _ ↦ hp⟩
  | prepare settings r snapshot now =>
    refine @commit_induction _ _ _ (preparePayment settings r snapshot now) _ (Lasts s) (.refl s)
      fun _ _ hok ↦ ?_
    obtain ⟨payments, hrows, rfl⟩ := (preparePayment_ok hok).result
    exact ⟨fun m hm _ ↦ hrows ▸ List.mem_append_left _ hm, fun _ hp _ ↦ hp⟩
  | confirm paymentId payoutId actor now =>
    refine @commit_induction _ _ _ (confirmPayment paymentId payoutId actor now) _ (Lasts s)
      (.refl s) fun _ s' hok ↦ ?_
    rcases confirmPayment_ok hok with rfl | ⟨m, p, hp, hstatus, hunbound, hpays, hcompleted⟩
    · exact .refl s'
    · refine hcompleted.lasts.comp ⟨fun _ hm _ ↦ hm, fun p' hp' hstatus' ↦ ?_⟩
      refine (@Table.mem_modify_of_mem _ _ _ _ _ (TreasuryPayout.disregarded_id _) _ _ _ hp).mpr
        (Or.inl ⟨hp', fun hid ↦ hstatus' ?_⟩)
      rw [s.rewards.payouts.eq_of_key hp' hp hid, hstatus]
  | cancel paymentId evidence actor now =>
    refine @commit_induction _ _ _ (cancelPayment paymentId evidence actor now) _ (Lasts s)
      (.refl s) fun _ _ hok ↦ ?_
    obtain ⟨m, hcompleted⟩ := cancelPayment_ok hok
    exact hcompleted.lasts

/-! ## References -/

/-- A payout is put down on an obligation before it is final. -/
def PaymentAction.Marks : PaymentAction → Prop
  | .reward (.mark _ _) => True
  | _ => False

/-- Without such steps an obligation with a reference is settled. -/
def Final (db : RewardDatabase) : Prop :=
  ∀ e ∈ db.events.rows, ∀ reference, e.extrinsicReference = some reference →
    e.status = .confirmed ∧ e.chainObserved = true

theorem Written.final {db db' : RewardDatabase} {a : Rewards.Step} (h : Written db a db')
    (ha : ¬ (PaymentAction.reward a).Marks) (hdb : Final db) : Final db' := by
  have hsettled : ∀ {db₀ : RewardDatabase} {e : RewardEvent} {p : TreasuryPayout} {s : Submission},
      Settled db₀ db' e p s → Final db₀ → Final db' := by
    intro db₀ e p s h hdb₀
    rcases h.result with ⟨-, -, -, rfl⟩ | ⟨-, -, -, timeline, rfl⟩
    · exact hdb₀
    · intro e' he' reference href
      rcases (@Table.mem_modify _ _ _ _ _ (RewardEvent.confirmed_id p.sighting) _ _ _).mp he'
        with ⟨he', -⟩ | ⟨e₀, -, -, rfl⟩
      · exact hdb₀ e' he' reference href
      · exact ⟨rfl, rfl⟩
  cases h with
  | unpaid h => exact fun e he ↦ hdb e (h.events ▸ he)
  | @seeded r seen hseen hs =>
    intro e he reference href
    rcases List.mem_append.mp he with he | he
    · exact hdb e he reference href
    · rw [List.mem_singleton.mp he] at href
      cases href
  | marked h => exact absurd trivial ha
  | reverted he hstatus timeline =>
    intro e' he' reference href
    rcases (@Table.mem_modify _ _ _ _ _ RewardEvent.reverted_id _ _ _).mp he'
      with ⟨he', -⟩ | ⟨e₀, -, -, rfl⟩
    · exact hdb e' he' reference href
    · cases href
  | recorded => exact hdb
  | claimed hp hstatus he hsame h => exact hsettled h hdb
  | bound hp hstatus he hamount hcoldkey h => exact hsettled h hdb
  | disregarded => exact hdb

theorem payStep_final (s : Bonuses) (a : PaymentAction) (ha : ¬ a.Marks)
    (h : Final s.rewards) : Final (payStep s a).rewards := by
  have hcommit : ∀ txn : Txn Bonuses TrajectoryError TrajectoryPayment,
      (∀ m s', txn s = .ok (m, s') → s'.rewards.events = s.rewards.events) →
        Final (commit txn s).rewards := fun txn htxn ↦
    @commit_induction _ _ _ txn s (fun s' ↦ Final s'.rewards) h fun m s' hok e he ↦
      h e (htxn m s' hok ▸ he)
  cases a with
  | reward a =>
    dsimp only [payStep]
    split
    · exact h
    · exact Written.final (Rewards.step_written s.rewards a) ha h
  | claims claims => exact h
  | accounts accounts => exact h
  | prepare settings r snapshot now =>
    refine hcommit (preparePayment settings r snapshot now) fun _ _ hok ↦ ?_
    obtain ⟨payments, -, rfl⟩ := (preparePayment_ok hok).result
    rfl
  | confirm paymentId payoutId actor now =>
    refine hcommit (confirmPayment paymentId payoutId actor now) fun _ s' hok ↦ ?_
    rcases confirmPayment_ok hok with rfl | ⟨m, p, hp, hstatus, hunbound, hpays, hcompleted⟩
    · rfl
    · rw [hcompleted.result]
  | cancel paymentId evidence actor now =>
    refine hcommit (cancelPayment paymentId evidence actor now) fun _ s' hok ↦ ?_
    obtain ⟨m, hcompleted⟩ := cancelPayment_ok hok
    rw [hcompleted.result]

theorem run_final {s : Bonuses} (h : Final s.rewards) {as : List PaymentAction}
    (has : ∀ a ∈ as, ¬ a.Marks) : Final (run payStep s as).rewards := by
  induction as generalizing s with
  | nil => exact h
  | cons a as ih =>
    exact ih (payStep_final s a (has a List.mem_cons_self) h) fun a' ha' ↦
      has a' (List.mem_cons_of_mem _ ha')

/-! ## Every run -/

/-- The obligation was settled by the payout, or is bound to it. -/
def Claims (e : RewardEvent) (p : TreasuryPayout) : Prop :=
  p.rewardEventId = some e.id ∨ Settles p e

/-- What a confirmed bonus was paid with is disregarded, and settles no reward. -/
theorem Exclusive.unclaimed {s : Bonuses} (h : Exclusive s) {p : TreasuryPayout}
    (hp : p ∈ s.rewards.payouts.rows) (hstatus : p.status = .disregarded) :
    ∀ e ∈ s.rewards.events.rows, ¬ Claims e p := by
  have hnone : p.rewardEventId = none := h.matched.unbound p hp (by rw [hstatus]; nofun)
  rintro e he (hbound | hsettles)
  · rw [hnone] at hbound
    cases hbound
  · have hbound := (h.matched.settledBy hp he hsettles).1
    rw [hnone] at hbound
    cases hbound

/-- However bonuses and rewards are settled, a claim has one live payment, a confirmed payment
names the one payout that paid it, and then and later no reward claims that payout; nor does an
obligation refer to it, unless it was put down on one before it was final. -/
theorem bonus_and_reward_never_share (as : List PaymentAction) :
    (∀ m ∈ (run payStep .fresh as).payments.rows, ∀ m' ∈ (run payStep .fresh as).payments.rows,
      m.Live → m'.Live → m.claimId = m'.claimId → m = m') ∧
    ∀ m ∈ (run payStep .fresh as).payments.rows, m.status = .confirmed →
      ∃ p ∈ (run payStep .fresh as).rewards.payouts.rows,
        m.treasuryPayoutId = some p.id ∧ p.amountRao = m.amountRao ∧
        p.destinationColdkey = m.destinationColdkey ∧ p.originColdkey = m.originColdkey ∧
        p.originHotkey = m.originHotkey ∧
        (∀ m' ∈ (run payStep .fresh as).payments.rows,
          m'.treasuryPayoutId = some p.id → m' = m) ∧
        ∀ bs, m ∈ (run payStep .fresh (as ++ bs)).payments.rows ∧
          p ∈ (run payStep .fresh (as ++ bs)).rewards.payouts.rows ∧
          (∀ e ∈ (run payStep .fresh (as ++ bs)).rewards.events.rows, ¬ Claims e p) ∧
          ((∀ a ∈ as ++ bs, ¬ a.Marks) →
            ∀ e ∈ (run payStep .fresh (as ++ bs)).rewards.events.rows,
              e.extrinsicReference ≠ some p.extrinsicReference) := by
  have h := run_invariant payStep_exclusive fresh_exclusive as
  refine ⟨fun m hm m' hm' hlive hlive' hclaim ↦ ?_, fun m hm hconfirmed ↦ ?_⟩
  · exact h.live m hm m' hm' m.claimId (liveClaim_eq_some.mpr ⟨hlive, rfl⟩)
      (liveClaim_eq_some.mpr ⟨hlive', hclaim.symm⟩)
  · obtain ⟨i, hi⟩ := Option.isSome_iff_exists.mp ((h.chain m hm).mp hconfirmed)
    obtain ⟨p, hp, rfl, hstatus, hpays⟩ := h.paid m hm i hi
    refine ⟨p, hp, hi, hpays.1, hpays.2.1, hpays.2.2.1, hpays.2.2.2.1,
      fun m' hm' hi' ↦ h.payouts m' hm' m hm _ hi' hi, fun bs ↦ ?_⟩
    have hbs := run_invariant payStep_exclusive fresh_exclusive (as ++ bs)
    have hlasts : Lasts (run payStep .fresh as) (run payStep .fresh (as ++ bs)) := by
      rw [run_append]
      exact @run_preorder _ _ payStep (fun _ ↦ True) Lasts Lasts.refl
        (fun _ _ _ h h' ↦ h'.comp h) (fun _ _ _ ↦ trivial) (fun s a _ ↦ payStep_lasts s a) _
        trivial bs
    have hp' := hlasts.payouts p hp (by rw [hstatus]; nofun)
    refine ⟨hlasts.payments m hm hconfirmed, hp', hbs.unclaimed hp' hstatus,
      fun hmarks e he href ↦ ?_⟩
    have hfinal : Final (run payStep .fresh (as ++ bs)).rewards :=
      run_final (fun _ he ↦ absurd he List.not_mem_nil) hmarks
    obtain ⟨hsettled, hobserved⟩ := hfinal e he _ href
    exact hbs.unclaimed hp' hstatus e he (Or.inr ⟨hsettled, hobserved, Or.inr href⟩)

end Conjectures.Trajectories

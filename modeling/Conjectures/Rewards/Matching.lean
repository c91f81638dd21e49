import Conjectures.Rewards.Effects

/-!
# One payout, one obligation

A payout of the ledger and the obligation it settled name each other: the payout by its
`reward_event_id`, the obligation by its reference.  Three unique indexes keep the names
apart, and every settlement writes both, so at every point of every run the two tables are
matched one to one (`Matched`).

A step moves the obligations, the ledger and the reward columns in few ways.  Most leave the
first two alone (`Unpaid`); `step_matched` goes through the others.
-/

namespace Conjectures.Rewards

open Lib Db

/-! ## The invariant -/

/-- The payout settled the obligation. -/
def Settles (p : TreasuryPayout) (e : RewardEvent) : Prop :=
  e.status = .confirmed ∧ e.chainObserved = true ∧
    (p.rewardEventId = some e.id ∨ e.extrinsicReference = some p.extrinsicReference)

/-- The obligation as the payout bound to it left it. -/
structure SettledBy (p : TreasuryPayout) (e : RewardEvent) : Prop where
  status : e.status = .confirmed
  observed : e.chainObserved = true
  reference : e.extrinsicReference = some p.extrinsicReference
  amount : e.amountRao = p.amountRao
  coldkey : e.destinationColdkey = p.destinationColdkey

structure Matched (db : RewardDatabase) : Prop where
  /-- `treasury_payouts.reference` -/
  references : Unique (fun p : TreasuryPayout ↦ some p.extrinsicReference) db.payouts.rows
  /-- `reward_events_extrinsic_idx` -/
  eventReferences : Unique RewardEvent.extrinsicReference db.events.rows
  /-- `treasury_payouts.reward_event_id` -/
  bindings : Unique TreasuryPayout.rewardEventId db.payouts.rows
  /-- only a claimed payout is bound -/
  unbound : ∀ p ∈ db.payouts.rows, p.status ≠ .claimed → p.rewardEventId = none
  settled : ∀ p ∈ db.payouts.rows, ∀ i, p.rewardEventId = some i →
    ∃ e ∈ db.events.rows, e.id = i ∧ SettledBy p e
  /-- no obligation is settled by nothing -/
  bound : ∀ e ∈ db.events.rows, e.status = .confirmed → e.chainObserved = true →
    ∃ p ∈ db.payouts.rows, p.rewardEventId = some e.id
  rewarded : ∀ s ∈ db.submissions.rows, s.rewardStatus = .rewarded →
    ∃ e ∈ db.events.rows, e.submissionId = s.id ∧ e.status = .confirmed

/-- Before the watcher's first pass: no payout is recorded, and what is called paid was not
read off the chain. -/
structure Opening (db : RewardDatabase) : Prop where
  payouts : db.payouts.rows = []
  references : Unique RewardEvent.extrinsicReference db.events.rows
  unobserved : ∀ e ∈ db.events.rows, e.chainObserved = false
  rewarded : ∀ s ∈ db.submissions.rows, s.rewardStatus = .rewarded →
    ∃ e ∈ db.events.rows, e.submissionId = s.id ∧ e.status = .confirmed

theorem Opening.matched {db : RewardDatabase} (h : Opening db) : Matched db where
  references := by simp [Lib.Unique, h.payouts]
  eventReferences := h.references
  bindings := by simp [Lib.Unique, h.payouts]
  unbound := by simp [h.payouts]
  settled := by simp [h.payouts]
  bound e he _ hobserved := by rw [h.unobserved e he] at hobserved; cases hobserved
  rewarded := h.rewarded

theorem opening_empty : Opening .empty where
  payouts := rfl
  references := fun _ h ↦ absurd h List.not_mem_nil
  unobserved := fun _ h ↦ absurd h List.not_mem_nil
  rewarded := fun _ h ↦ absurd h List.not_mem_nil

/-! ## What it says -/

/-- An obligation is settled by the payout whose number and whose reference it has. -/
theorem Matched.settledBy {db : RewardDatabase} (h : Matched db) {p : TreasuryPayout}
    {e : RewardEvent} (hp : p ∈ db.payouts.rows) (he : e ∈ db.events.rows)
    (hsettles : Settles p e) : p.rewardEventId = some e.id ∧ SettledBy p e := by
  obtain ⟨hstatus, hobserved, hname⟩ := hsettles
  obtain ⟨p', hp', hbound⟩ := h.bound e he hstatus hobserved
  obtain ⟨e', he', hid, hsettled⟩ := h.settled p' hp' _ hbound
  obtain rfl := db.events.eq_of_key he' he hid
  have hsame : p' = p := by
    rcases hname with hname | hname
    · exact h.bindings p' hp' p hp _ hbound hname
    · exact h.references p' hp' p hp _ (hsettled.reference.symm.trans hname) rfl
  exact ⟨hsame ▸ hbound, hsame ▸ hsettled⟩

/-- The match is one to one. -/
theorem Matched.eq_iff {db : RewardDatabase} (h : Matched db) {p p' : TreasuryPayout}
    {e e' : RewardEvent} (hp : p ∈ db.payouts.rows) (hp' : p' ∈ db.payouts.rows)
    (he : e ∈ db.events.rows) (he' : e' ∈ db.events.rows) (hs : Settles p e)
    (hs' : Settles p' e') : p = p' ↔ e = e' := by
  have hbound := (h.settledBy hp he hs).1
  have hbound' := (h.settledBy hp' he' hs').1
  constructor
  · rintro rfl
    exact db.events.eq_of_key he he' (Option.some.inj (hbound.symm.trans hbound'))
  · rintro rfl
    exact h.bindings p hp p' hp' _ hbound hbound'

/-! ## Steps that leave the two tables alone -/

/-- No obligation and no payout is written, and no reward becomes paid. -/
structure Unpaid (db db' : RewardDatabase) : Prop where
  events : db'.events = db.events
  payouts : db'.payouts = db.payouts
  submissions : ∀ s' ∈ db'.submissions.rows, s'.rewardStatus = .rewarded →
    ∃ s ∈ db.submissions.rows, s.id = s'.id ∧ s.rewardStatus = .rewarded

/-- Only other tables are written. -/
theorem unpaid_of_eq {db db' : RewardDatabase} (hev : db'.events = db.events)
    (hpay : db'.payouts = db.payouts) (hsub : db'.submissions = db.submissions) :
    Unpaid db db' :=
  ⟨hev, hpay, fun s hs hrewarded ↦ ⟨s, hsub ▸ hs, rfl, hrewarded⟩⟩

theorem Unpaid.trans {db db₁ db₂ : RewardDatabase} (h : Unpaid db db₁) (h' : Unpaid db₁ db₂) :
    Unpaid db db₂ := by
  refine ⟨h'.events.trans h.events, h'.payouts.trans h.payouts, fun s hs hrewarded ↦ ?_⟩
  obtain ⟨s₁, hs₁, hid₁, hrewarded₁⟩ := h'.submissions s hs hrewarded
  obtain ⟨s₀, hs₀, hid₀, hrewarded₀⟩ := h.submissions s₁ hs₁ hrewarded₁
  exact ⟨s₀, hs₀, hid₀.trans hid₁, hrewarded₀⟩

/-- One submission is written, and it was paid before if it is after. -/
theorem unpaid_of_modify {db db' : RewardDatabase} {submissionId : Uuid}
    {f : Submission → Submission} (hf : ∀ s, (f s).id = s.id) (hev : db'.events = db.events)
    (hpay : db'.payouts = db.payouts)
    (hsub : db'.submissions = db.submissions.modify submissionId f hf)
    (hreward : ∀ s ∈ db.submissions.rows, s.id = submissionId → (f s).rewardStatus = .rewarded →
      s.rewardStatus = .rewarded) : Unpaid db db' := by
  refine ⟨hev, hpay, fun s' hs' hrewarded ↦ ?_⟩
  rw [hsub, Table.mem_modify] at hs'
  rcases hs' with ⟨hs', -⟩ | ⟨s, hs, hid, rfl⟩
  · exact ⟨s', hs', rfl, hrewarded⟩
  · exact ⟨s, hs, (hf s).symm, hreward s hs hid hrewarded⟩

theorem unpaid_decided {db : RewardDatabase} {s : Submission} {n : NewDecision}
    {review : ManualReviewState} {reward : RewardState} (h : reward ≠ .rewarded) :
    Unpaid db (decided db s n review reward) :=
  unpaid_of_modify (Submission.reviewed_id review reward) rfl rfl rfl
    fun _ _ _ hrewarded ↦ absurd hrewarded h

theorem reward_ne_rewarded (o : ReviewOutcome) : o.reward ≠ .rewarded := by
  cases o <;> nofun

/-- The reward of a row is what it was, or newly owed. -/
theorem Ruled.rewarded {rows : List Submission} {v : VerifierVerdict} {s s' : Submission}
    (h : Ruled rows v s s') (hrewarded : s'.rewardStatus = .rewarded) :
    s.rewardStatus = .rewarded := by
  cases h with
  | again | judged | superseded => exact hrewarded
  | approved => cases hrewarded

theorem unpaid_verify {db db' : RewardDatabase} {submissionId : Uuid} {seen : List Submission}
    {v : VerifierVerdict} {result : VerificationRun × Bool}
    (h : verify submissionId seen v db = .ok (result, db')) : Unpaid db db' := by
  obtain ⟨s, s', -, hverified⟩ := verify_verified h
  refine ⟨hverified.events, hverified.payouts, fun x hx hrewarded ↦ ?_⟩
  rcases (hverified.replaces.2 x).mp hx with ⟨hx, -⟩ | rfl
  · exact ⟨x, hx, rfl, hrewarded⟩
  · exact ⟨s, hverified.mem, hverified.replaces.1.symm, hverified.ruled.rewarded hrewarded⟩

theorem unpaid_correction {db db' : RewardDatabase} {seen : List Submission}
    {submissionId : Uuid} {supersedesId : ℕ} {r : Ruling} {d : ReviewDecision}
    (h : correctHumanDecision db seen submissionId supersedesId r = .ok (d, db')) :
    Unpaid db db' := by
  obtain ⟨s, -, -, -, current, -, -, rfl⟩ := correctHumanDecision_ok h
  exact unpaid_decided (reward_ne_rewarded _)

theorem Unpaid.matched {db db' : RewardDatabase} (h : Unpaid db db') (hm : Matched db) :
    Matched db' := by
  obtain ⟨hev, hpay, hsub⟩ := h
  refine ⟨?_, ?_, ?_, ?_, ?_, ?_, fun s' hs' hrewarded ↦ ?_⟩
  · rw [hpay]; exact hm.references
  · rw [hev]; exact hm.eventReferences
  · rw [hpay]; exact hm.bindings
  · rw [hpay]; exact hm.unbound
  · rw [hpay, hev]; exact hm.settled
  · rw [hpay, hev]; exact hm.bound
  · obtain ⟨s, hs, hid, hrewarded⟩ := hsub s' hs' hrewarded
    rw [hev, ← hid]
    exact hm.rewarded s hs hrewarded

/-! ## Obligations -/

theorem matched_seeded {db : RewardDatabase} (r : NewReward) (hm : Matched db) :
    Matched { db with events := db.events.append r.row r.row_id } := by
  have hold : ∀ e ∈ (db.events.append r.row r.row_id).rows, e.status ≠ .pending →
      e ∈ db.events.rows := fun e he hstatus ↦ by
    rcases List.mem_append.mp he with he | he
    · exact he
    · exact absurd (by rw [List.mem_singleton.mp he]; rfl) hstatus
  refine ⟨hm.references, hm.eventReferences.append_of_none ?_, hm.bindings, hm.unbound, ?_, ?_, ?_⟩
  · intro e he
    rw [List.mem_singleton.mp he]
    rfl
  · intro p hp i hi
    obtain ⟨e, he, hid, hsettled⟩ := hm.settled p hp i hi
    exact ⟨e, List.mem_append_left _ he, hid, hsettled⟩
  · exact fun e he hstatus ↦ hm.bound e (hold e he (by rw [hstatus]; nofun)) hstatus
  · intro s hs hrewarded
    obtain ⟨e, he, hsubmission, hstatus⟩ := hm.rewarded s hs hrewarded
    exact ⟨e, List.mem_append_left _ he, hsubmission, hstatus⟩

/-- An obligation nothing was settled by changes to another such. -/
theorem matched_moved {db db' : RewardDatabase} {e : RewardEvent}
    {f : RewardEvent → RewardEvent} (hf : ∀ e, (f e).id = e.id) (he : e ∈ db.events.rows)
    (hm : Matched db) (hev : db'.events = db.events.modify e.id f hf)
    (hpay : db'.payouts = db.payouts) (hopen : ¬ (e.status = .confirmed ∧ e.chainObserved = true))
    (hf' : (f e).status ≠ .confirmed) (hsubmission : (f e).submissionId = e.submissionId)
    (hfresh : ∀ reference, (f e).extrinsicReference = some reference → ∀ e' ∈ db.events.rows,
      e'.id ≠ e.id → e'.extrinsicReference ≠ some reference)
    (hrewarded : ∀ s' ∈ db'.submissions.rows, s'.rewardStatus = .rewarded →
      ∃ e' ∈ db.events.rows, e'.submissionId = s'.id ∧ e'.status = .confirmed ∧ e' ≠ e) :
    Matched db' := by
  have hkept : ∀ e' ∈ db.events.rows, e' ≠ e → e' ∈ db'.events.rows := fun e' he' hne ↦ by
    rw [hev, Table.mem_modify]
    exact Or.inl ⟨he', fun hid ↦ hne (db.events.eq_of_key he' he hid)⟩
  refine ⟨?_, ?_, ?_, ?_, ?_, ?_, fun s' hs' hpaid ↦ ?_⟩
  · rw [hpay]; exact hm.references
  · rw [hev]; exact hm.eventReferences.modify he hfresh
  · rw [hpay]; exact hm.bindings
  · rw [hpay]; exact hm.unbound
  · intro p hp i hi
    obtain ⟨e', he', hid, hsettled⟩ := hm.settled p (hpay ▸ hp) i hi
    refine ⟨e', hkept e' he' ?_, hid, hsettled⟩
    rintro rfl
    exact hopen ⟨hsettled.status, hsettled.observed⟩
  · intro e' he' hstatus hobserved
    rw [hev, Table.mem_modify_of_mem he] at he'
    rcases he' with ⟨he', -⟩ | rfl
    · rw [hpay]
      exact hm.bound e' he' hstatus hobserved
    · exact absurd hstatus hf'
  · obtain ⟨e', he', hnames, hstatus, hne⟩ := hrewarded s' hs' hpaid
    exact ⟨e', hkept e' he' hne, hnames, hstatus⟩

theorem matched_marked {db db' : RewardDatabase} {o : Sighting} {e : RewardEvent}
    {s : Submission} (h : Marked db db' o e s) (hm : Matched db) : Matched db' := by
  obtain ⟨timeline, rfl⟩ := h.result
  refine matched_moved (RewardEvent.submitted_id o) h.event hm rfl rfl
    (fun hc ↦ (h.unobserved hc.2).2 hc.1) nofun rfl
    (fun reference href e' he' hne hsame ↦ ?_) fun s' hs' hrewarded ↦ ?_
  · cases href
    rcases h.unique e' he' hne with hnone | hother
    · rw [hnone] at hsame
      cases hsame
    · exact hother hsame
  · rw [@Table.mem_modify_of_mem _ _ _ _ _ (Submission.reviewed_id _ _) _ _ _ h.submission] at hs'
    rcases hs' with ⟨hs', hne⟩ | rfl
    · obtain ⟨e', he', hnames, hstatus⟩ := hm.rewarded s' hs' hrewarded
      refine ⟨e', he', hnames, hstatus, ?_⟩
      rintro rfl
      exact hne (hnames.symm.trans h.names.symm)
    · cases hrewarded

/-- A reverted obligation was not settled, and is pending again. -/
theorem matched_reverted {db : RewardDatabase} {e : RewardEvent} (he : e ∈ db.events.rows)
    (hstatus : e.status = .submitted) (timeline : Table SubmissionEvent.id) (hm : Matched db) :
    Matched { db with
      events := db.events.modify e.id RewardEvent.reverted RewardEvent.reverted_id
      timeline } := by
  refine matched_moved RewardEvent.reverted_id he hm rfl rfl ?_ nofun rfl nofun
    fun s' hs' hrewarded ↦ ?_
  · rw [hstatus]
    nofun
  · obtain ⟨e', he', hnames, hconfirmed⟩ := hm.rewarded s' hs' hrewarded
    refine ⟨e', he', hnames, hconfirmed, ?_⟩
    rintro rfl
    rw [hstatus] at hconfirmed
    cases hconfirmed

/-! ## The ledger -/

theorem matched_recorded {db : RewardDatabase} {o : ObservedPayout}
    {price : Option (ℚ × Instant)} (hm : Matched db)
    (hfresh : ∀ p ∈ db.payouts.rows, p.extrinsicReference ≠ o.reference) :
    Matched { db with payouts := db.payouts.append (o.row price) (o.row_id price) } := by
  have hmem : ∀ p, p ∈ (db.payouts.append (o.row price) (o.row_id price)).rows ↔
      p ∈ db.payouts.rows ∨ p = o.row price db.payouts.nextId := fun p ↦ by simp
  refine ⟨hm.references.append ?_, hm.eventReferences, ?_, fun p hp hstatus ↦ ?_,
    fun p hp i hi ↦ ?_, fun e he hstatus hobserved ↦ ?_, hm.rewarded⟩
  · rintro ⟨p, hp, href, -⟩
    exact hfresh p hp (Option.some.inj href)
  · refine hm.bindings.append_of_none fun p hp ↦ ?_
    rw [List.mem_singleton.mp hp]
    rfl
  · rcases (hmem p).mp hp with hp | rfl
    · exact hm.unbound p hp hstatus
    · rfl
  · rcases (hmem p).mp hp with hp | rfl
    · exact hm.settled p hp i hi
    · cases hi
  · obtain ⟨p, hp, hbound⟩ := hm.bound e he hstatus hobserved
    exact ⟨p, (hmem p).mpr (Or.inl hp), hbound⟩

/-- Writing one payout under the reference it had keeps the references apart. -/
theorem references_modify {t : Table TreasuryPayout.id} {p : TreasuryPayout}
    {f : TreasuryPayout → TreasuryPayout} {hf : ∀ p, (f p).id = p.id} (hp : p ∈ t.rows)
    (href : (f p).extrinsicReference = p.extrinsicReference)
    (h : Unique (fun p : TreasuryPayout ↦ some p.extrinsicReference) t.rows) :
    Unique (fun p : TreasuryPayout ↦ some p.extrinsicReference) (t.modify p.id f hf).rows := by
  refine h.modify hp fun reference hreference p' hp' hne hsame ↦ hne ?_
  rw [h p' hp' p hp reference hsame (by rw [← hreference, href])]

/-- What an operator writes on a payout that is bound to nothing. -/
theorem matched_annotated {db db' : RewardDatabase} {p : TreasuryPayout}
    {f : TreasuryPayout → TreasuryPayout} (hf : ∀ p, (f p).id = p.id) (hp : p ∈ db.payouts.rows)
    (hm : Matched db) (hpay : db'.payouts = db.payouts.modify p.id f hf)
    (hev : db'.events = db.events) (hsub : db'.submissions = db.submissions)
    (hnone : p.rewardEventId = none) (href : (f p).extrinsicReference = p.extrinsicReference)
    (hbinding : (f p).rewardEventId = none) : Matched db' := by
  have hmem : ∀ p', p' ∈ db'.payouts.rows ↔
      (p' ∈ db.payouts.rows ∧ p'.id ≠ p.id) ∨ p' = f p := fun p' ↦ by
    rw [hpay, Table.mem_modify_of_mem hp]
  refine ⟨?_, hev ▸ hm.eventReferences, ?_, fun p' hp' hstatus ↦ ?_,
    fun p' hp' i hi ↦ ?_, fun e he hstatus hobserved ↦ ?_, hev ▸ hsub ▸ hm.rewarded⟩
  · rw [hpay]
    exact references_modify hp href hm.references
  · rw [hpay]
    exact hm.bindings.modify hp fun i hi ↦ by rw [hbinding] at hi; cases hi
  · rcases (hmem p').mp hp' with ⟨hp', -⟩ | rfl
    · exact hm.unbound p' hp' hstatus
    · exact hbinding
  · rcases (hmem p').mp hp' with ⟨hp', -⟩ | rfl
    · rw [hev]
      exact hm.settled p' hp' i hi
    · rw [hbinding] at hi
      cases hi
  · obtain ⟨p', hp', hbound⟩ := hm.bound e (hev ▸ he) hstatus hobserved
    refine ⟨p', (hmem p').mpr (Or.inl ⟨hp', fun hid ↦ ?_⟩), hbound⟩
    rw [db.payouts.eq_of_key hp' hp hid, hnone] at hbound
    cases hbound

/-- An obligation that an unclaimed payout is free to settle was not settled. -/
theorem Matched.unsettled {db : RewardDatabase} (hm : Matched db) {e : RewardEvent}
    {p : TreasuryPayout} (he : e ∈ db.events.rows) (hp : p ∈ db.payouts.rows)
    (hstatus : p.status = .unclaimed)
    (hunbound : ∀ p' ∈ db.payouts.rows, p'.id ≠ p.id → p'.rewardEventId ≠ some e.id) :
    ¬ (e.status = .confirmed ∧ e.chainObserved = true) := by
  rintro ⟨hconfirmed, hobserved⟩
  obtain ⟨p', hp', hbound⟩ := hm.bound e he hconfirmed hobserved
  refine hunbound p' hp' (fun hid ↦ ?_) hbound
  rw [db.payouts.eq_of_key hp' hp hid, hm.unbound p hp (by rw [hstatus]; nofun)] at hbound
  cases hbound

/-- A payout settles an obligation that nothing settled before. -/
theorem matched_settled {db db' : RewardDatabase} {e : RewardEvent} {p p₀ : TreasuryPayout}
    {s : Submission} (h : Settled db db' e p s) (he : e ∈ db.events.rows)
    (hp₀ : p₀ ∈ db.payouts.rows) (hid : p₀.id = p.id)
    (href : p₀.extrinsicReference = p.extrinsicReference) (hstatus : p₀.status = .unclaimed)
    (hamount : e.amountRao = p₀.amountRao)
    (hcoldkey : e.destinationColdkey = p₀.destinationColdkey) (hm : Matched db) :
    Matched db' := by
  have hnone : p₀.rewardEventId = none := hm.unbound p₀ hp₀ (by rw [hstatus]; nofun)
  have hopen := hm.unsettled he hp₀ hstatus fun p' hp' hne ↦ h.unbound p' hp' (hid ▸ hne)
  rcases h.result with ⟨hconfirmed, hobserved, -, -⟩ | ⟨-, -, hfresh, timeline, hresult⟩
  · exact absurd ⟨hconfirmed, hobserved⟩ hopen
  have hevents : db'.events = db.events.modify e.id (·.confirmed p.sighting)
      (RewardEvent.confirmed_id p.sighting) := by rw [hresult]
  have hpayouts : db'.payouts = db.payouts.modify p₀.id (·.claimed e.id)
      (TreasuryPayout.claimed_id e.id) := by rw [hresult, hid]
  have hsub : db'.submissions = db.submissions.modify s.id
      (·.reviewed s.manualReviewStatus .rewarded) (Submission.reviewed_id _ _) := by rw [hresult]
  have hev : ∀ e', e' ∈ db'.events.rows ↔
      (e' ∈ db.events.rows ∧ e'.id ≠ e.id) ∨ e' = e.confirmed p.sighting := fun e' ↦ by
    rw [hevents, Table.mem_modify_of_mem he]
  have hpay : ∀ p', p' ∈ db'.payouts.rows ↔
      (p' ∈ db.payouts.rows ∧ p'.id ≠ p₀.id) ∨ p' = p₀.claimed e.id := fun p' ↦ by
    rw [hpayouts, Table.mem_modify_of_mem hp₀]
  have hsettled : SettledBy (p₀.claimed e.id) (e.confirmed p.sighting) :=
    ⟨rfl, rfl, congrArg some href.symm, hamount, hcoldkey⟩
  refine ⟨?_, ?_, ?_, fun p' hp' hother ↦ ?_, fun p' hp' i hi ↦ ?_,
    fun e' he' hconfirmed hobserved ↦ ?_, fun s' hs' hrewarded ↦ ?_⟩
  · rw [hpayouts]
    exact references_modify hp₀ rfl hm.references
  · rw [hevents]
    refine hm.eventReferences.modify he fun reference hreference e' he' hne hsame ↦ ?_
    cases hreference
    rcases hfresh e' he' hne with hnone | hother
    · rw [hnone] at hsame
      cases hsame
    · exact hother hsame
  · rw [hpayouts]
    refine hm.bindings.modify hp₀ fun i hi p' hp' hne ↦ ?_
    cases hi
    exact h.unbound p' hp' (hid ▸ hne)
  · rcases (hpay p').mp hp' with ⟨hp', -⟩ | rfl
    · exact hm.unbound p' hp' hother
    · exact absurd rfl hother
  · rcases (hpay p').mp hp' with ⟨hp', -⟩ | rfl
    · obtain ⟨e', he', hid', hs'⟩ := hm.settled p' hp' i hi
      refine ⟨e', (hev e').mpr (Or.inl ⟨he', fun heq ↦ ?_⟩), hid', hs'⟩
      rw [db.events.eq_of_key he' he heq] at hs'
      exact hopen ⟨hs'.status, hs'.observed⟩
    · cases hi
      exact ⟨_, (hev _).mpr (Or.inr rfl), rfl, hsettled⟩
  · rcases (hev e').mp he' with ⟨he', -⟩ | rfl
    · obtain ⟨p', hp', hbound⟩ := hm.bound e' he' hconfirmed hobserved
      refine ⟨p', (hpay p').mpr (Or.inl ⟨hp', fun heq ↦ ?_⟩), hbound⟩
      rw [db.payouts.eq_of_key hp' hp₀ heq, hnone] at hbound
      cases hbound
    · exact ⟨_, (hpay _).mpr (Or.inr rfl), rfl⟩
  · rw [hsub, Table.mem_modify_of_mem h.submission] at hs'
    rcases hs' with ⟨hs', -⟩ | rfl
    · obtain ⟨e', he', hnames, hconfirmed⟩ := hm.rewarded s' hs' hrewarded
      by_cases heq : e'.id = e.id
      · rw [db.events.eq_of_key he' he heq] at hnames
        exact ⟨_, (hev _).mpr (Or.inr rfl), hnames, rfl⟩
      · exact ⟨e', (hev e').mpr (Or.inl ⟨he', heq⟩), hnames, hconfirmed⟩
    · exact ⟨_, (hev _).mpr (Or.inr rfl), h.names.symm, rfl⟩

/-! ## Whole runs -/

/-- What a step writes of the obligations, the ledger and the paid rewards. -/
inductive Written (db : RewardDatabase) : Step → RewardDatabase → Prop
  | unpaid {a : Step} {db' : RewardDatabase} (h : Unpaid db db') : Written db a db'
  | seeded {r : NewReward} {seen : Submission}
    (hseen : seen.id = r.submissionId ∧ seen.rewardStatus = .eligible)
    (hs : ∃ s ∈ db.submissions.rows, s.id = r.submissionId) :
    Written db (.seed r seen) { db with events := db.events.append r.row r.row_id }
  | marked {actions : List PayoutInstructionAction} {o : ObservedPayout} {db' : RewardDatabase}
    {e : RewardEvent} {s : Submission} (h : Marked db db' o.sighting e s) :
    Written db (.mark actions o) db'
  | reverted {submitted : SubmittedPayout} {now : Instant} {e : RewardEvent}
    (he : e ∈ db.events.rows) (hstatus : e.status = .submitted)
    (timeline : Table SubmissionEvent.id) :
    Written db (.revert submitted now) { db with
      events := db.events.modify e.id RewardEvent.reverted RewardEvent.reverted_id, timeline }
  | recorded {o : ObservedPayout} {price : Option (ℚ × Instant)}
    (hfresh : ∀ p ∈ db.payouts.rows, p.extrinsicReference ≠ o.reference) :
    Written db (.record o price)
      { db with payouts := db.payouts.append (o.row price) (o.row_id price) }
  | claimed {actions : List PayoutInstructionAction} {reserved : Bool} {payoutId : ℕ}
    {p : TreasuryPayout} {e : RewardEvent} {s : Submission} {db' : RewardDatabase}
    (hp : p ∈ db.payouts.rows) (hstatus : p.status = .unclaimed) (he : e ∈ db.events.rows)
    (hsame : SamePayout e p.sighting) (h : Settled db db' e p s) :
    Written db (.claim actions reserved payoutId) db'
  | bound {reserved : Bool} {payoutId rewardEventId : ℕ} {note : String} {p : TreasuryPayout}
    {e : RewardEvent} {s : Submission} {db' : RewardDatabase} (hp : p ∈ db.payouts.rows)
    (hstatus : p.status = .unclaimed) (he : e ∈ db.events.rows)
    (hamount : e.amountRao = p.amountRao)
    (hcoldkey : e.destinationColdkey = p.destinationColdkey)
    (h : Settled { db with
      payouts := db.payouts.modify p.id (·.noted note) (TreasuryPayout.noted_id note) } db' e p s) :
    Written db (.bind reserved payoutId rewardEventId note) db'
  | disregarded {payoutId : ℕ} {note : String} {p : TreasuryPayout}
    (hp : p ∈ db.payouts.rows) (hstatus : p.status = .unclaimed) :
    Written db (.disregard payoutId note) { db with
      payouts := db.payouts.modify p.id (·.disregarded note)
        (TreasuryPayout.disregarded_id note) }

theorem step_written (db : RewardDatabase) (a : Step) : Written db a (step db a) := by
  have hrefl : Written db a db := .unpaid (unpaid_of_eq rfl rfl rfl)
  have hcommit : ∀ {α : Type} (txn : Txn RewardDatabase RewardError α),
      (∀ x db', txn db = .ok (x, db') → Written db a db') → Written db a (commit txn db) :=
    fun txn h ↦ @commit_induction _ _ _ txn db (Written db a) hrefl h
  cases a with
  | submit row =>
    refine .unpaid ?_
    dsimp only [step, submitRow]
    split
    · rename_i hfresh
      split
      · rename_i db' hinsert
        refine ⟨rfl, rfl, fun s hs hrewarded ↦ ?_⟩
        rw [show db'.submissions.rows = db.submissions.rows ++ [row] from
          (insertSubmission_spec hinsert).rows] at hs
        rcases List.mem_append.mp hs with hs | hs
        · exact ⟨s, hs, rfl, hrewarded⟩
        · rw [List.mem_singleton.mp hs, hfresh.2.2] at hrewarded
          cases hrewarded
      · exact unpaid_of_eq rfl rfl rfl
    · exact unpaid_of_eq rfl rfl rfl
  | verify submissionId seen v => exact hcommit _ fun _ _ hok ↦ .unpaid (unpaid_verify hok)
  | decide submissionId seen r =>
    refine hcommit (recordHumanDecision · seen submissionId r) fun _ _ hok ↦ ?_
    obtain ⟨s, -, -, -, -, -, rfl⟩ := recordHumanDecision_ok hok
    exact .unpaid (unpaid_decided (reward_ne_rewarded _))
  | correct submissionId seen supersedesId r =>
    exact hcommit (correctHumanDecision · seen submissionId supersedesId r) fun _ _ hok ↦
      .unpaid (unpaid_correction hok)
  | instruct action r now =>
    refine hcommit (changeInstruction · action r now) fun _ _ hok ↦ ?_
    obtain ⟨actions, timeline, rfl⟩ := changeInstruction_ok hok
    exact .unpaid (unpaid_of_eq rfl rfl rfl)
  | withdraw seen r reasonCode notes notesPublic now =>
    refine hcommit (cancelAndWithdraw · seen r reasonCode notes notesPublic now) fun _ _ hok ↦ ?_
    obtain ⟨actions, timeline, ruling, d, hcorrect⟩ := cancelAndWithdraw_ok hok
    refine .unpaid (Unpaid.trans (unpaid_of_eq ?_ ?_ ?_) (unpaid_correction hcorrect)) <;> rfl
  | seed r seen =>
    refine hcommit (seedRewardEvent r seen) fun _ _ hok ↦ ?_
    rcases seedRewardEvent_ok hok with rfl | ⟨hseen, hs, -, rfl⟩
    · exact hrefl
    · exact .seeded hseen hs
  | notify d =>
    refine .unpaid ?_
    dsimp only [step, notify]
    split <;> exact unpaid_of_eq rfl rfl rfl
  | mark actions o =>
    refine hcommit (markSubmitted · actions o.sighting) fun _ _ hok ↦ ?_
    rcases markSubmitted_ok hok with ⟨rfl, -⟩ | ⟨e, s, hmarked⟩
    · exact hrefl
    · exact .marked hmarked
  | revert submitted now =>
    refine hcommit (revertSubmitted · submitted now) fun _ _ hok ↦ ?_
    rcases revertSubmitted_ok hok with ⟨-, rfl, -⟩ | ⟨e, he, -, hstatus, -, -, timeline, rfl⟩
    · exact hrefl
    · exact .reverted he hstatus timeline
  | record o price =>
    refine hcommit (recordPayout · o price) fun _ _ hok ↦ ?_
    rcases recordPayout_ok hok with ⟨-, -, rfl⟩ | ⟨-, -, hfresh, rfl⟩
    · exact hrefl
    · exact .recorded hfresh
  | claim actions reserved payoutId =>
    refine hcommit (claimPayout · actions reserved payoutId) fun _ _ hok ↦ ?_
    rcases claimPayout_ok hok with ⟨-, rfl⟩ | ⟨p, hp, -, hstatus, e, he, hsame, -, s, hsettled⟩
    · exact hrefl
    · exact .claimed hp hstatus he hsame hsettled
  | bind reserved payoutId rewardEventId note =>
    refine hcommit (bindPayout · reserved payoutId rewardEventId note) fun _ _ hok ↦ ?_
    obtain ⟨p, hp, -, hstatus, e, he, hamount, hcoldkey, s, hsettled⟩ := bindPayout_ok hok
    exact .bound hp hstatus he hamount hcoldkey hsettled
  | disregard payoutId note =>
    refine hcommit (disregardPayout · payoutId note) fun _ _ hok ↦ ?_
    obtain ⟨p, hp, -, hstatus, rfl⟩ := disregardPayout_ok hok
    exact .disregarded hp hstatus

theorem Written.matched {db db' : RewardDatabase} {a : Step} (h : Written db a db')
    (hm : Matched db) : Matched db' := by
  have hnone : ∀ {p}, p ∈ db.payouts.rows → p.status = .unclaimed → p.rewardEventId = none :=
    fun hp hstatus ↦ hm.unbound _ hp (by rw [hstatus]; nofun)
  cases h with
  | unpaid h => exact h.matched hm
  | @seeded r seen hseen hs => exact matched_seeded r hm
  | marked h => exact matched_marked h hm
  | reverted he hstatus timeline => exact matched_reverted he hstatus timeline hm
  | recorded hfresh => exact matched_recorded hm hfresh
  | claimed hp hstatus he hsame h =>
    exact matched_settled h he hp rfl rfl hstatus hsame.2.1 hsame.1 hm
  | @bound reserved payoutId rewardEventId note p e s _ hp hstatus he hamount hcoldkey h =>
    have hunbound := hnone hp hstatus
    refine matched_settled h he
      ((@Table.mem_modify_of_mem _ _ _ _ _ (TreasuryPayout.noted_id note) _ _ _ hp).mpr
        (Or.inr rfl)) rfl rfl hstatus hamount hcoldkey ?_
    exact matched_annotated (TreasuryPayout.noted_id note) hp hm rfl rfl rfl hunbound rfl hunbound
  | @disregarded payoutId note p hp hstatus =>
    have hunbound := hnone hp hstatus
    exact matched_annotated (TreasuryPayout.disregarded_id note) hp hm rfl rfl rfl hunbound rfl
      hunbound

theorem step_matched (db : RewardDatabase) (a : Step) (hm : Matched db) :
    Matched (step db a) := (step_written db a).matched hm

theorem run_matched {db : RewardDatabase} (h : Opening db) (steps : List Step) :
    Matched (run step db steps) := run_invariant step_matched h.matched steps

end Conjectures.Rewards

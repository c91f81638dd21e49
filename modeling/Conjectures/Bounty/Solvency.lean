import Conjectures.Lib.Run
import Conjectures.Bounty.Sound

/-!
# The treasury stays solvent

What the pricer subtracts from the balance is at least the exposure of the unsettled targets, so
a lock leaves the exposure below the balance.  A rejection lowers it.  A payout lowers both: where
what leaves the balance is at most the lock of the submission it is for, the target takes at least
as much exposure along when it is settled.

An award for a defective formalization is priced in dollars, and only the review policies of
`cappedPolicies` hold it to the lock.  Under any other policy a payout may take more out of the
balance than its target frees (`uncapped_award_overdraws`), and the treasury is solvent along the
runs in which none is worth more (`WithinLock`).
-/

namespace Conjectures.Bounty

open Lib Db Rewards

/-! ## Exposure -/

/-- A lock that goes through. -/
structure Locked (p : DynamicBountyPricer) (clock : Instant) (gross : Rao) (row : Submission)
    (db db' : BountyDatabase) : Prop where
  rows : db'.submissions.rows = db.submissions.rows ++ [row]
  fresh : ∀ s ∈ db.submissions.rows, s.id ≠ row.id
  positive : 0 < row.bountyAmountRao
  unheld : ∀ s ∈ db.submissions.rows, s.rewardTargetId = row.rewardTargetId →
    s.rewardStatus = .ineligible
  within : row.bountyAmountRao * p.maxBountyShareDenominator ≤
    p.maxBountyShareNumerator * (gross - p.committed db (minute clock))
  lockedAt : db'.bountyLockedAt = Function.update db.bountyLockedAt row.id (some clock)
  decisions : db'.decisions = db.decisions
  events : db'.events = db.events
  payouts : db'.payouts = db.payouts

theorem Locked.sound {p : DynamicBountyPricer} {clock : Instant} {gross : Rao}
    {row : Submission} {db db' : BountyDatabase} (h : Locked p clock gross row db db')
    (hfresh : Fresh row) (hdb : Sound db) : Sound db' := by
  have hmem : ∀ {s}, s ∈ db'.submissions.rows ↔ s ∈ db.submissions.rows ∨ s = row := by
    simp [h.rows]
  have hkept : ∀ {s}, s ∈ db.submissions.rows → s ∈ db'.submissions.rows :=
    fun hs ↦ hmem.mpr (Or.inl hs)
  have hunpaid : Unpaid db.toRewardDatabase db'.toRewardDatabase := by
    refine ⟨h.events, h.payouts, fun s hs hrewarded ↦ ?_⟩
    rcases hmem.mp hs with hs | rfl
    · exact ⟨s, hs, rfl, hrewarded⟩
    · rw [hfresh.2.2] at hrewarded
      cases hrewarded
  refine ⟨hunpaid.matched hdb.matched, fun s hs ↦ ?_, fun d hd ↦ ?_, fun s hs ↦ ?_,
    fun s hs ↦ ?_, fun s hs s' hs' htarget howed howed' ↦ ?_, ?_, fun e he ↦ ?_, ?_⟩
  · rcases hmem.mp hs with hs | rfl
    · exact standing_of_decisions h.decisions (hdb.standing s hs)
    · refine standing_of_fresh hfresh fun d hd heq ↦ ?_
      obtain ⟨s', hs', hid⟩ := hdb.decided d (h.decisions ▸ hd)
      exact h.fresh s' hs' (hid.trans heq)
  · obtain ⟨s, hs, hid⟩ := hdb.decided d (h.decisions ▸ hd)
    exact ⟨s, hkept hs, hid⟩
  · rw [h.lockedAt]
    rcases hmem.mp hs with hs | rfl
    · rw [Function.update_of_ne (h.fresh s hs)]
      exact hdb.locked s hs
    · rw [Function.update_self]
      nofun
  · rcases hmem.mp hs with hs | rfl
    · exact hdb.priced s hs
    · exact h.positive.le
  · rcases hmem.mp hs with hs | rfl <;> rcases hmem.mp hs' with hs' | rfl
    · exact hdb.held s hs s' hs' htarget howed howed'
    · exact absurd hfresh.2.2 howed'
    · exact absurd hfresh.2.2 howed
    · rfl
  · rw [h.events]
    exact hdb.keyed
  · obtain ⟨s, hs, hid, hpaid⟩ := hdb.obliged e (h.events ▸ he)
    exact ⟨s, hkept hs, hid, hpaid⟩
  · rw [h.events]
    exact hdb.once

/-- No obligation is about a submission that is not there yet. -/
theorem Locked.covered {p : DynamicBountyPricer} {clock : Instant} {gross : Rao}
    {row : Submission} {db db' : BountyDatabase} (h : Locked p clock gross row db db')
    (hdb : Sound db) (hcovered : Covered db) : Covered db' := by
  intro e he s hs hid
  rw [h.events] at he
  rw [h.rows, List.mem_append, List.mem_singleton] at hs
  rcases hs with hs | rfl
  · exact hcovered e he s hs hid
  · obtain ⟨s', hs', hid', -⟩ := hdb.obliged e he
    exact absurd (hid'.trans hid.symm) (h.fresh s' hs')

/-- An obligation that is seeded, and its submission. -/
structure Seeded (r : NewReward) (converted : Rao) (db db' : BountyDatabase) (s : Submission) :
    Prop where
  submission : s ∈ db.submissions.rows
  names : s.id = r.submissionId
  eligible : s.rewardStatus = .eligible
  amount : r.amountRao ≤ s.bountyAmountRao ∨
    DefectAward db s ∧ s.reviewPolicyVersion ∉ cappedPolicies ∧ r.amountRao = converted
  first : ∀ e ∈ db.events.rows, e.submissionId ≠ r.submissionId
  appended : db' = { db with events := db.events.append r.row r.row_id }

section Seeded

variable {r : NewReward} {converted : Rao} {db db' : BountyDatabase} {s : Submission}

theorem Seeded.mem_events (h : Seeded r converted db db' s) {e : RewardEvent} :
    e ∈ db'.events.rows ↔ e ∈ db.events.rows ∨ e = r.row db.events.nextId := by
  simp [h.appended]

theorem Seeded.sound (h : Seeded r converted db db' s) (hdb : Sound db) : Sound db' := by
  have hevents := @h.mem_events
  obtain ⟨hs, hid, heligible, -, hfirst, rfl⟩ := h
  refine ⟨matched_seeded r hdb.matched, fun s hs ↦ ?_, hdb.decided, hdb.locked, hdb.priced,
    hdb.held, fun e he ↦ ?_, fun e he ↦ ?_, fun e he e' he' hsame ↦ ?_⟩
  · exact @standing_of_decisions db.toRewardDatabase _ _ rfl (hdb.standing s hs)
  · rcases hevents.mp he with he | rfl
    · exact hdb.keyed e he
    · rfl
  · rcases hevents.mp he with he | rfl
    · exact hdb.obliged e he
    · exact ⟨s, hs, hid, fun _ ↦ by rw [heligible]; intro h; cases h⟩
  · rcases hevents.mp he with he | rfl <;> rcases hevents.mp he' with he' | rfl
    · exact hdb.once e he e' he' hsame
    · exact absurd hsame (hfirst e he)
    · exact absurd hsame.symm (hfirst e' he')
    · rfl

/-- An obligation within its lock leaves all of them covered. -/
theorem Seeded.covered (h : Seeded r converted db db' s) (hwithin : r.amountRao ≤ s.bountyAmountRao)
    (hdb : Covered db) : Covered db' := by
  intro e he x hx hid
  have hx : x ∈ db.submissions.rows := by rwa [h.appended] at hx
  rcases h.mem_events.mp he with he | rfl
  · exact hdb e he x hx hid
  · obtain rfl := db.submissions.eq_of_key hx h.submission (hid.trans h.names.symm)
    exact hwithin

end Seeded

/-! ## Payouts -/

/-- A payout that is confirmed: the obligation it settles, and its submission. -/
structure Confirmed (db db' : BountyDatabase) (e : RewardEvent) (s : Submission) (o : Sighting) :
    Prop where
  event : e ∈ db.events.rows
  submission : s ∈ db.submissions.rows
  names : s.id = e.submissionId
  owed : s.rewardStatus ≠ .ineligible
  unpaid : ¬ PaidOnChain e
  submissions : db'.submissions = db.submissions.modify s.id
    (·.reviewed s.manualReviewStatus .rewarded) (Submission.reviewed_id _ _)
  events : db'.events = db.events.modify e.id (·.confirmed o) (RewardEvent.confirmed_id o)
  decisions : db'.decisions = db.decisions
  lockedAt : db'.bountyLockedAt = db.bountyLockedAt
  matched : Matched db'.toRewardDatabase

theorem Confirmed.mem_events {db db' : BountyDatabase} {e : RewardEvent} {s : Submission}
    {o : Sighting} (h : Confirmed db db' e s o) {x : RewardEvent} : x ∈ db'.events.rows ↔
      (x ∈ db.events.rows ∧ x.id ≠ e.id) ∨ x = e.confirmed o := by
  rw [h.events, Table.mem_modify_of_mem h.event]

theorem Confirmed.replaces {db db' : BountyDatabase} {e : RewardEvent} {s : Submission}
    {o : Sighting} (h : Confirmed db db' e s o) :
    db.submissions.Replaces db'.submissions s (s.reviewed s.manualReviewStatus .rewarded) := by
  rw [h.submissions]
  exact Table.replaces_modify h.submission

theorem Confirmed.rewritten {db db' : BountyDatabase} {e : RewardEvent} {s : Submission}
    {o : Sighting} (h : Confirmed db db' e s o) :
    Rewritten db.toRewardDatabase db'.toRewardDatabase s
      (s.reviewed s.manualReviewStatus .rewarded) where
  mem := h.submission
  replaces := h.replaces
  target := rfl
  amount := rfl
  decisions d hd := Or.inl (h.decisions ▸ hd)
  released hverdict hreview := ⟨hverdict, hreview⟩
  free _ := Or.inl h.owed
  kept _ hineligible := by cases hineligible

/-- Each obligation was there before, at the same amount. -/
theorem Confirmed.source {db db' : BountyDatabase} {e : RewardEvent} {s : Submission}
    {o : Sighting} (h : Confirmed db db' e s o) : ∀ x ∈ db'.events.rows, ∃ y ∈ db.events.rows,
      y.submissionId = x.submissionId ∧ y.amountRao = x.amountRao ∧
        y.generationKey = x.generationKey ∧ y.id = x.id := by
  intro x hx
  rcases h.mem_events.mp hx with ⟨hx, -⟩ | rfl
  · exact ⟨x, hx, rfl, rfl, rfl, rfl⟩
  · exact ⟨e, h.event, rfl, rfl, rfl, rfl⟩

theorem Confirmed.sound {db db' : BountyDatabase} {e : RewardEvent} {s : Submission}
    {o : Sighting} (h : Confirmed db db' e s o) (hdb : Sound db) : Sound db' := by
  have hsource := h.source
  refine Rewritten.sound hdb h.rewritten h.lockedAt h.matched (fun x hx ↦ ?_) (fun x hx ↦ ?_)
    (fun x hx ↦ ?_) fun x hx y hy hsame ↦ ?_
  · rcases (h.replaces.2 x).mp hx with ⟨hx, -⟩ | rfl
    · exact standing_of_decisions h.decisions (hdb.standing x hx)
    · have heffect : Effect db.toRewardDatabase db'.toRewardDatabase s
          (s.reviewed s.manualReviewStatus .rewarded) := by
        refine .quiet ?_ rfl (Or.inl rfl) (Or.inr h.owed)
        rw [bindingDecisions, h.decisions, bindingDecisions]
      exact heffect.standing (Submission.reviewed_id _ _ s) (hdb.standing s h.submission)
  · obtain ⟨y, hy, hsub, -, hkey, -⟩ := hsource x hx
    rw [← hkey, ← hsub]
    exact hdb.keyed y hy
  · obtain ⟨y, hy, hsub, -, -, hid⟩ := hsource x hx
    obtain ⟨s', hs', hnames, hpaid⟩ := hdb.obliged y hy
    rcases h.rewritten.kept_id s' hs' with ⟨hs'', hne⟩ | rfl
    · refine ⟨s', hs'', hnames.trans hsub, fun hx' ↦ ?_⟩
      rcases h.mem_events.mp hx with ⟨hold, -⟩ | rfl
      · obtain rfl := db.events.eq_of_key hold hy hid.symm
        exact hpaid hx'
      · exact absurd (hnames.trans (hsub.trans h.names.symm)) hne
    · exact ⟨_, h.replaces.mem, hnames.trans hsub, fun _ h ↦ by cases h⟩
  · obtain ⟨x', hx', hsub, -, -, hid⟩ := hsource x hx
    obtain ⟨y', hy', hsub', -, -, hid'⟩ := hsource y hy
    obtain rfl := hdb.once x' hx' y' hy' (hsub.trans (hsame.trans hsub'.symm))
    exact db'.events.eq_of_key hx hy (hid.symm.trans hid')

/-- A target is paid for once. -/
theorem Confirmed.unsettled {db db' : BountyDatabase} {e : RewardEvent} {s : Submission}
    {o : Sighting} (h : Confirmed db db' e s o) (hdb : Sound db) :
    ¬ TargetSettled db s.rewardTargetId := by
  rintro ⟨e', he', hpaid, s', hs', hid', htarget⟩
  obtain ⟨s'', hs'', hid'', howed⟩ := hdb.obliged e' he'
  obtain rfl := db.submissions.eq_of_key hs'' hs' (hid''.trans hid'.symm)
  obtain rfl := hdb.held s'' hs' s h.submission htarget (howed hpaid) h.owed
  obtain rfl := hdb.once e' he' e h.event (hid'.symm.trans h.names)
  exact h.unpaid hpaid

/-- What a step does to the treasury. -/
inductive Moved (t t' : Treasury) : Step → Prop
  /-- what is locked and obliged is as it was, and the balance no lower -/
  | aside {a : Step} (payments : List TrajectoryPayment) (claims : List TrajectoryClaim)
      (hdb : t'.db = { t.db with trajectoryPayments := payments, trajectoryClaims := claims })
      (hgross : t.gross ≤ t'.gross) : Moved t t' a
  | locked {p : DynamicBountyPricer} {clock : Instant} {row row' : Submission}
      (hfresh : Fresh row') (hlocked : Locked p clock t.gross row' t.db t'.db)
      (hgross : t'.gross = t.gross) : Moved t t' (.lock p clock row)
  /-- a verdict or a review writes one row -/
  | ruled {a : Step} {s s' : Submission} (a' : Rewards.Step) (h : t' = t.reward a')
      (hevents : t'.db.events = t.db.events)
      (hrewritten : Rewritten t.db.toRewardDatabase t'.db.toRewardDatabase s s') : Moved t t' a
  | seeded {r : NewReward} {converted : Rao} {s : Submission}
      (hseeded : Seeded r converted t.db t'.db s) (hgross : t'.gross = t.gross) :
      Moved t t' (.seed r converted)
  | paid {a : Step} {e : RewardEvent} {s : Submission} {o : Sighting}
      (hconfirmed : Confirmed t.db t'.db e s o) (hgross : t'.gross = t.gross - e.amountRao) :
      Moved t t' a

theorem Moved.refl (t : Treasury) (a : Step) : Moved t t a := .aside _ _ rfl (le_refl _)

/-- What happens to the bonus ledger moves no lock. -/
theorem Sound.of_bonus {db : BountyDatabase} (h : Sound db) (payments : List TrajectoryPayment)
    (claims : List TrajectoryClaim) :
    Sound { db with trajectoryPayments := payments, trajectoryClaims := claims } where
  matched := h.matched
  standing := h.standing
  decided := h.decided
  locked := h.locked
  priced := h.priced
  held := h.held
  keyed := h.keyed
  obliged := h.obliged
  once := h.once

theorem Moved.sound {t t' : Treasury} {a : Step} (h : Moved t t' a) (ht : Sound t.db) :
    Sound t'.db := by
  cases h with
  | aside payments claims hdb => exact hdb ▸ ht.of_bonus payments claims
  | locked hfresh hlocked => exact hlocked.sound hfresh ht
  | ruled a' h hevents hrewritten =>
    subst h
    exact hrewritten.sound_of_events ht hevents
  | seeded hseeded => exact hseeded.sound ht
  | paid hconfirmed => exact hconfirmed.sound ht

/-- An award the review policy does not cap is worth no more than what was locked for the
submission. -/
def WithinLock (t : Treasury) : Step → Prop
  | .seed r converted => ∀ s ∈ t.db.submissions.rows, s.id = r.submissionId →
    DefectAward t.db s → s.reviewPolicyVersion ∉ cappedPolicies → converted ≤ s.bountyAmountRao
  | _ => True

instance WithinLock.decidable (t : Treasury) : (a : Step) → Decidable (WithinLock t a)
  | .seed _ _ => inferInstanceAs (Decidable (∀ _ ∈ _, _))
  | .lock .. | .judge .. | .decide .. | .reject .. | .pay .. | .deposit _ | .bonus .. =>
    isTrue trivial

/-- A treasury with sound rows, that can pay for what it is committed to. -/
structure Solvent (t : Treasury) : Prop where
  sound : Sound t.db
  covered : Covered t.db
  funded : exposure t.db ≤ t.gross

/-- Nothing was submitted yet, and nothing is owed. -/
structure Opening (t : Treasury) : Prop where
  submissions : t.db.submissions.rows = []
  decisions : t.db.decisions.rows = []
  events : t.db.events.rows = []
  payouts : t.db.payouts.rows = []
  gross : 0 ≤ t.gross

/-- The default policy, for one target. -/
def examplePricer : DynamicBountyPricer where
  balanceColdkey := "treasury"
  balanceHotkey := "hotkey"
  balanceNetuid := 66
  rewardTargetIds := ["target"]
  requiredEvidenceAvailable := true
  wallet_nonempty := by decide
  netuid_positive := by decide
  constant_positive := by decide
  ramp_positive := by decide
  version_linear := by decide
  age_period_positive := by decide
  max_age_weight_positive := by decide
  max_share := by decide
  start_share := by decide
  grace_positive := by decide
  targets_nonempty := by decide
  targets_unique := by decide

def firstSubmission : Submission := { newcomer with reviewPolicyVersion := "v4" }

def firstPayout : ObservedPayout where
  block := 7
  blockTimestamp := 10
  extrinsicIndex := 0
  eventIndex := 0
  originColdkey := "treasury"
  destinationColdkey := "miner"
  originHotkey := "hotkey"
  destinationHotkey := "hotkey"
  originNetuid := 66
  destinationNetuid := 66
  amountRao := 25
  taoEquivalentRao := none

/-- A submission is locked at the starting share, approved and paid. -/
def paidRun : List Step :=
  [.lock examplePricer 0 firstSubmission,
    .judge 1 [] acceptance,
    .decide 1 [] ⟨.approved, "NOVEL", "ada", none, some "new"⟩,
    .seed ⟨1, "NOVEL", 25, "miner", 5⟩ 25,
    .pay firstPayout none [] false]

end Conjectures.Bounty

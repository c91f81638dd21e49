import Conjectures.Bounty.Steps
import Conjectures.Rewards.Matching
import Conjectures.Rewards.Standing

/-!
# What the rows of the treasury keep

Each submission is locked, stands where its decisions put it, and shares its target's reward
with no other; each obligation is the only one of its submission.  These are carried along every
run (`Sound`).  That an obligation is within the lock of its submission (`Covered`) is not: it is
lost to an award that nothing caps.

A verdict or a review writes one row, and never takes back a rejection: `Rewritten` is what it
does to that row.
-/

namespace Conjectures.Bounty

open Lib Db Rewards

/-! ## The invariant -/

structure Sound (db : BountyDatabase) : Prop where
  matched : Matched db.toRewardDatabase
  standing : ∀ s ∈ db.submissions.rows, Standing db.toRewardDatabase s
  decided : ∀ d ∈ db.decisions.rows, ∃ s ∈ db.submissions.rows, s.id = d.submissionId
  locked : ∀ s ∈ db.submissions.rows, db.bountyLockedAt s.id ≠ none
  priced : ∀ s ∈ db.submissions.rows, 0 ≤ s.bountyAmountRao
  /-- `submissions_reward_target_reward_unique` -/
  held : ∀ s ∈ db.submissions.rows, ∀ s' ∈ db.submissions.rows,
    s.rewardTargetId = s'.rewardTargetId → s.rewardStatus ≠ .ineligible →
      s'.rewardStatus ≠ .ineligible → s = s'
  keyed : ∀ e ∈ db.events.rows,
    e.generationKey = some ("submission:" ++ toString e.submissionId)
  obliged : ∀ e ∈ db.events.rows, ∃ s ∈ db.submissions.rows, s.id = e.submissionId ∧
    (PaidOnChain e → s.rewardStatus ≠ .ineligible)
  once : ∀ e ∈ db.events.rows, ∀ e' ∈ db.events.rows, e.submissionId = e'.submissionId → e = e'

/-- Nothing is obliged beyond what was locked. -/
def Covered (db : BountyDatabase) : Prop :=
  ∀ e ∈ db.events.rows, ∀ s ∈ db.submissions.rows, s.id = e.submissionId →
    e.amountRao ≤ s.bountyAmountRao

/-- A submission that is owed its reward still binds the treasury. -/
theorem Sound.live {db : BountyDatabase} (h : Sound db) {s : Submission}
    (hs : s ∈ db.submissions.rows) (howed : s.rewardStatus ≠ .ineligible) : Live db s := by
  have hstanding := h.standing s hs
  refine ⟨h.locked s hs, fun hrejected ↦ ?_, ?_⟩
  · exact howed (hstanding.unverified (by rw [hrejected]; nofun))
  · rw [hstanding.approved howed]
    nofun

/-! ## Verdicts and reviews -/

/-- One row is written, at what it was locked at. -/
structure Rewritten (db db' : RewardDatabase) (s s' : Submission) : Prop where
  mem : s ∈ db.submissions.rows
  replaces : db.submissions.Replaces db'.submissions s s'
  target : s'.rewardTargetId = s.rewardTargetId
  amount : s'.bountyAmountRao = s.bountyAmountRao
  decisions : ∀ d ∈ db'.decisions.rows, d ∈ db.decisions.rows ∨ d.submissionId = s.id
  /-- a rejection is final -/
  released : s'.verificationStatus ≠ .rejected → s'.manualReviewStatus ≠ .rejected →
    s.verificationStatus ≠ .rejected ∧ s.manualReviewStatus ≠ .rejected
  /-- the reward of a target is given to one submission -/
  free : s'.rewardStatus ≠ .ineligible →
    s.rewardStatus ≠ .ineligible ∨ ¬ TargetHeld db.submissions.rows s
  /-- and not withdrawn once it was paid -/
  kept : s.rewardStatus ≠ .ineligible → s'.rewardStatus = .ineligible →
    ∀ e ∈ db.events.rows, e.submissionId = s.id → ¬ PaidOnChain e

/-- A submission nothing was decided about stands where it stood. -/
theorem standing_of_decisions {db db' : RewardDatabase} {s : Submission}
    (h : db'.decisions = db.decisions) (hs : Standing db s) : Standing db' s := by
  have hbinding : bindingDecisions db' s.id = bindingDecisions db s.id := by
    rw [bindingDecisions, h, bindingDecisions]
  exact (Effect.same hbinding).standing rfl hs

/-- The rows that are there after a step stood before it. -/
theorem standing_step {db : RewardDatabase} {a : Rewards.Step}
    (hstanding : ∀ s ∈ db.submissions.rows, Standing db s)
    (hold : ∀ s' ∈ (Rewards.step db a).submissions.rows, ∃ s ∈ db.submissions.rows, s.id = s'.id) :
    ∀ s' ∈ (Rewards.step db a).submissions.rows, Standing (Rewards.step db a) s' := by
  intro s' hs'
  obtain ⟨s, hs, hid⟩ := hold s' hs'
  obtain ⟨s₁, hs₁, hid₁, heffect⟩ := step_follows db a hs
  obtain rfl := (Rewards.step db a).submissions.eq_of_key hs₁ hs' (hid₁.trans hid)
  exact heffect.standing hid₁ (hstanding s hs)

theorem Rewritten.old {db db' : RewardDatabase} {s s' : Submission} (h : Rewritten db db' s s') :
    ∀ x' ∈ db'.submissions.rows, ∃ x ∈ db.submissions.rows, x.id = x'.id := by
  intro x' hx'
  rcases (h.replaces.2 x').mp hx' with ⟨hx', -⟩ | rfl
  · exact ⟨x', hx', rfl⟩
  · exact ⟨s, h.mem, h.replaces.1.symm⟩

theorem Rewritten.kept_id {db db' : RewardDatabase} {s s' : Submission}
    (h : Rewritten db db' s s') : ∀ x ∈ db.submissions.rows,
      x ∈ db'.submissions.rows ∧ x.id ≠ s.id ∨ x = s := by
  intro x hx
  by_cases hid : x.id = s.id
  · exact Or.inr (db.submissions.eq_of_key hx h.mem hid)
  · exact Or.inl ⟨(h.replaces.2 x).mpr (Or.inl ⟨hx, hid⟩), hid⟩

/-- What a written row keeps, where the obligations are taken care of. -/
theorem Rewritten.sound {db db' : BountyDatabase} {s s' : Submission} (hdb : Sound db)
    (h : Rewritten db.toRewardDatabase db'.toRewardDatabase s s')
    (hlocked : db'.bountyLockedAt = db.bountyLockedAt)
    (hmatched : Matched db'.toRewardDatabase)
    (hstanding : ∀ s ∈ db'.submissions.rows, Standing db'.toRewardDatabase s)
    (hkeyed : ∀ e ∈ db'.events.rows,
      e.generationKey = some ("submission:" ++ toString e.submissionId))
    (hobliged : ∀ e ∈ db'.events.rows, ∃ s ∈ db'.submissions.rows, s.id = e.submissionId ∧
      (PaidOnChain e → s.rewardStatus ≠ .ineligible))
    (honce : ∀ e ∈ db'.events.rows, ∀ e' ∈ db'.events.rows,
      e.submissionId = e'.submissionId → e = e') : Sound db' := by
  have hrow : ∀ {P : Submission → Prop}, (∀ x ∈ db.submissions.rows, P x) → (P s → P s') →
      ∀ x ∈ db'.submissions.rows, P x := fun {P} hP hs x hx ↦ by
    rcases (h.replaces.2 x).mp hx with ⟨hx, -⟩ | rfl
    · exact hP x hx
    · exact hs (hP s h.mem)
  -- a row that is newly owed finds the target free
  have hnew : ∀ x ∈ db.submissions.rows, x.id ≠ s.id → x.rewardTargetId = s.rewardTargetId →
      x.rewardStatus ≠ .ineligible → s'.rewardStatus ≠ .ineligible → False := by
    intro x hx hne htarget hxowed howed
    rcases h.free howed with howed | hfree
    · exact hne (congrArg _ (hdb.held x hx s h.mem htarget hxowed howed))
    · exact hfree ⟨x, hx, htarget, hne, hxowed⟩
  refine ⟨hmatched, hstanding, fun d hd ↦ ?_, ?_, ?_, fun x hx y hy htarget hxowed hyowed ↦ ?_,
    hkeyed, hobliged, honce⟩
  · obtain ⟨x, hx, hid⟩ : ∃ x ∈ db.submissions.rows, x.id = d.submissionId := by
      rcases h.decisions d hd with hd | hd
      · exact hdb.decided d hd
      · exact ⟨s, h.mem, hd.symm⟩
    rcases h.kept_id x hx with ⟨hx', -⟩ | rfl
    · exact ⟨x, hx', hid⟩
    · exact ⟨s', h.replaces.mem, h.replaces.1.trans hid⟩
  · rw [hlocked]
    exact hrow hdb.locked fun hs ↦ by rwa [h.replaces.1]
  · exact hrow hdb.priced fun hs ↦ by rwa [h.amount]
  · rcases (h.replaces.2 x).mp hx with ⟨hx, hxs⟩ | rfl <;>
      rcases (h.replaces.2 y).mp hy with ⟨hy, hys⟩ | rfl
    · exact hdb.held x hx y hy htarget hxowed hyowed
    · exact (hnew x hx hxs (htarget.trans h.target) hxowed hyowed).elim
    · exact (hnew y hy hys (htarget.symm.trans h.target) hyowed hxowed).elim
    · rfl

/-- A verdict or a review writes no obligation. -/
theorem Rewritten.sound_of_events {db : BountyDatabase} {a : Rewards.Step} {s s' : Submission}
    (hdb : Sound db)
    (h : Rewritten db.toRewardDatabase (Rewards.step db.toRewardDatabase a) s s')
    (hevents : (Rewards.step db.toRewardDatabase a).events = db.events) :
    Sound { db with toRewardDatabase := Rewards.step db.toRewardDatabase a } := by
  refine Rewritten.sound hdb h rfl (step_matched _ a hdb.matched)
    (standing_step hdb.standing h.old) ?_ ?_ ?_
  · rw [hevents]
    exact hdb.keyed
  · rw [hevents]
    intro e he
    obtain ⟨x, hx, hid, hpaid⟩ := hdb.obliged e he
    rcases h.kept_id x hx with ⟨hx', -⟩ | rfl
    · exact ⟨x, hx', hid, hpaid⟩
    · refine ⟨s', h.replaces.mem, h.replaces.1.trans hid, fun hpaid' hineligible ↦ ?_⟩
      exact h.kept (hpaid hpaid') hineligible e he hid.symm hpaid'
  · rw [hevents]
    exact hdb.once

/-- What was covered still is, where obligations keep their amounts. -/
theorem Rewritten.covered {db db' : BountyDatabase} {s s' : Submission} (hdb : Covered db)
    (h : Rewritten db.toRewardDatabase db'.toRewardDatabase s s')
    (hevents : ∀ e' ∈ db'.events.rows, ∃ e ∈ db.events.rows,
      e.submissionId = e'.submissionId ∧ e.amountRao = e'.amountRao) : Covered db' := by
  intro e' he' x' hx' hid
  obtain ⟨e, he, hsub, hamount⟩ := hevents e' he'
  rw [← hamount]
  rcases (h.replaces.2 x').mp hx' with ⟨hx, -⟩ | rfl
  · exact hdb e he x' hx (hid.trans hsub.symm)
  · rw [h.amount]
    exact hdb e he s h.mem (h.replaces.1.symm.trans (hid.trans hsub.symm))

end Conjectures.Bounty

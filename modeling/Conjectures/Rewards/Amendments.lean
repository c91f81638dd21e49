import Conjectures.Rewards.Standing

/-!
# Corrections that keep the outcome

`correct_human_decision` also repairs a reason or a published text of a decision that stays what
it was.  Such a correction is to leave both status columns where they are; it writes them all the
same, from the outcome alone.  Whether that moves anything is decided by the reward: an approval
that is amended puts its reward back to ELIGIBLE, which is where it was unless it has been settled.
-/

namespace Conjectures.Rewards

open Lib Db

/-- The decision chain of a submission grew by one entry, and nothing else moved. -/
structure Amended (db db' : RewardDatabase) (submissionId : Uuid) (supersedesId : ℕ)
    (d : ReviewDecision) : Prop where
  statuses : ∀ s ∈ db.submissions.rows, ∀ s' ∈ db'.submissions.rows, s.id = submissionId →
    s'.id = submissionId →
      s'.manualReviewStatus = s.manualReviewStatus ∧ s'.rewardStatus = s.rewardStatus
  chain : db'.decisions.rows = db.decisions.rows ++ [d]
  names : d.submissionId = submissionId ∧ d.supersedesId = some supersedesId
  rest : db' = { db with decisions := db'.decisions }

/-- What a correction writes: the superseding row, and the columns its outcome stands for. -/
theorem correctHumanDecision_decided {db db' : RewardDatabase} {seen : List Submission}
    {submissionId : Uuid} {supersedesId : ℕ} {r : Ruling} {d : ReviewDecision}
    (h : correctHumanDecision db seen submissionId supersedesId r = .ok (d, db')) :
    ∃ s ∈ db.submissions.rows, s.id = submissionId ∧
      d = (r.of s (some supersedesId)).row db.decisions.nextId ∧
      db' = decided db s (r.of s (some supersedesId)) r.decision.state r.decision.reward := by
  simp only [correctHumanDecision, bind_eq_ok, require_eq_ok, need_eq_ok, mapError_eq_ok] at h
  obtain ⟨s, hs, current, -, -, hcurrent, -, -, -, -, ⟨d', db₁⟩, hins, db₂, hwrite, h⟩ := h
  cases h
  obtain ⟨hmem, hid, -⟩ := verifiedSubmission_ok hs
  obtain ⟨rfl, rfl⟩ := insertDecision_ok hins
  rw [← hcurrent]
  exact ⟨s, hmem, hid, rfl, writeReview_ok hwrite⟩

/-- Writing the columns as they are leaves the submissions as they are. -/
theorem decided_of_same {db : RewardDatabase} {s : Submission} {n : NewDecision}
    {review : ManualReviewState} {reward : RewardState} (hs : s ∈ db.submissions.rows)
    (hreview : s.manualReviewStatus = review) (hreward : s.rewardStatus = reward) :
    decided db s n review reward = noted db n := by
  have hsame : s.reviewed review reward = s := by
    rw [← hreview, ← hreward]
    rfl
  have hmodify := @Table.modify_eq_self _ _ Submission.id _ (·.reviewed review reward)
    (Submission.reviewed_id review reward) db.submissions s hs hsame
  rw [decided, hmodify]
  rfl

/-- The reward an outcome leaves, where a submission stands on a decision of that outcome: a
rejected one is owed nothing, an approved one has to be unsettled. -/
theorem Standing.reward_of_outcome {db : RewardDatabase} {s : Submission} (h : Standing db s)
    {o : ReviewOutcome} (hreview : s.manualReviewStatus = o.state) :
    s.rewardStatus = o.reward ↔ (o = .approved → s.rewardStatus = .eligible) := by
  cases o with
  | approved => exact ⟨fun hreward _ ↦ hreward, fun hreward ↦ hreward rfl⟩
  | rejected =>
    refine ⟨fun _ happroved ↦ (nomatch happroved), fun _ ↦ ?_⟩
    by_contra howed
    have happroved := h.approved howed
    rw [hreview] at happroved
    cases happroved

/-- **Amending moves nothing exactly while nothing is settled.** In every state that transactions
reach from a fresh submission, a correction that keeps the outcome of the decision it supersedes
leaves everything but the decision chain as it was if and only if that outcome is a rejection or
the reward is still ELIGIBLE. -/
theorem amending_moves_nothing_iff (db : RewardDatabase) (s₀ : Submission)
    (hs₀ : s₀ ∈ db.submissions.rows) (hfresh : Fresh s₀)
    (hnew : ∀ d ∈ db.decisions.rows, d.submissionId ≠ s₀.id) (steps : List Step)
    (seen : List Submission) (supersedesId : ℕ) (r : Ruling) (current d : ReviewDecision)
    (db' : RewardDatabase)
    (hcurrent : latestBindingDecision (run step db steps) s₀.id = some current)
    (houtcome : r.decision = current.decision)
    (hok : correctHumanDecision (run step db steps) seen s₀.id supersedesId r = .ok (d, db')) :
    Amended (run step db steps) db' s₀.id supersedesId d ↔
      (r.decision = .approved → ∀ s ∈ (run step db steps).submissions.rows, s.id = s₀.id →
        s.rewardStatus = .eligible) := by
  have hstart : Stands s₀.id db := ⟨s₀, hs₀, rfl, standing_of_fresh hfresh hnew⟩
  obtain ⟨s, hs, hid, hstanding⟩ := run_invariant (step_stands s₀.id) hstart steps
  generalize run step db steps = reached at hcurrent hok hs hstanding ⊢
  obtain ⟨s', hs', hid', rfl, rfl⟩ := correctHumanDecision_decided hok
  obtain rfl := reached.submissions.eq_of_key hs hs' (hid.trans hid'.symm)
  -- the review status is the superseded outcome, which is the one that is written again
  have hreview : s.manualReviewStatus = r.decision.state := by
    rw [hstanding.review, hid, hcurrent, houtcome]
    rfl
  have hcondition : (∀ t ∈ reached.submissions.rows, t.id = s₀.id → t.rewardStatus = .eligible) ↔
      s.rewardStatus = .eligible := by
    refine ⟨fun h ↦ h s hs hid, fun h t ht htid ↦ ?_⟩
    rw [reached.submissions.eq_of_key ht hs (htid.trans hid.symm)]
    exact h
  rw [hcondition, ← hstanding.reward_of_outcome hreview]
  constructor
  · intro hamended
    have hwritten : s.reviewed r.decision.state r.decision.reward ∈
        (decided reached s (r.of s (some supersedesId)) r.decision.state
          r.decision.reward).submissions.rows :=
      (@Table.mem_modify_of_mem _ _ Submission.id _ (·.reviewed r.decision.state r.decision.reward)
        (Submission.reviewed_id _ _) _ _ _ hs).mpr (.inr rfl)
    exact (hamended.statuses s hs _ hwritten hid hid).2.symm
  · intro hreward
    rw [decided_of_same hs hreview hreward]
    refine ⟨fun t ht t' ht' htid htid' ↦ ?_, rfl, ⟨hid, rfl⟩, rfl⟩
    obtain rfl := reached.submissions.eq_of_key ht ht' (htid.trans htid'.symm)
    exact ⟨rfl, rfl⟩

/-! ## An example -/

def approvedRun : List Step :=
  [.verify 1 [] acceptance, .decide 1 [] ⟨.approved, "NOVEL", "ada", none, some "new"⟩]

def newcomerPayout : ObservedPayout where
  block := 7
  blockTimestamp := 10
  extrinsicIndex := 0
  eventIndex := 0
  originColdkey := "treasury"
  destinationColdkey := "miner"
  originHotkey := "hotkey"
  destinationHotkey := "hotkey"
  originNetuid := 66
  destinationNetuid := 66
  amountRao := 100
  taoEquivalentRao := none

/-- The approval is paid. -/
def paidRun : List Step :=
  approvedRun ++ [.seed ⟨1, "NOVEL", 100, "miner", 0⟩ { newcomer with rewardStatus := .eligible },
    .record newcomerPayout none, .claim [] false 1]

/-- The published text is repaired and the outcome kept. -/
def repair : Ruling := ⟨.approved, "NOVEL", "bob", some "a typo", some "novel"⟩

/-- A transaction that goes through has a result. -/
theorem exists_of_isOk {ε α β : Type*} {x : Except ε (α × β)} (h : x.isOk = true) :
    ∃ a b, x = .ok (a, b) := by
  cases x with
  | error e => cases h
  | ok out => exact ⟨out.1, out.2, rfl⟩

/-- Before it is paid, an approval is amended and nothing moves. -/
theorem amending_moves_nothing_unpaid :
    ∃ d db', correctHumanDecision (run step newcomerDatabase approvedRun) [] 1 1 repair =
        .ok (d, db') ∧
      Amended (run step newcomerDatabase approvedRun) db' 1 1 d := by
  obtain ⟨d, db', hok⟩ := exists_of_isOk
    (x := correctHumanDecision (run step newcomerDatabase approvedRun) [] 1 1 repair)
    (by decide +kernel)
  obtain ⟨current, hcurrent, houtcome⟩ : ∃ current,
      latestBindingDecision (run step newcomerDatabase approvedRun) newcomer.id = some current ∧
        repair.decision = current.decision := ⟨_, rfl, by decide +kernel⟩
  have helig : ∀ s ∈ (run step newcomerDatabase approvedRun).submissions.rows,
      s.id = newcomer.id → s.rewardStatus = .eligible := by decide +kernel
  exact ⟨d, db', hok, (amending_moves_nothing_iff newcomerDatabase newcomer
    (List.mem_singleton_self _) (by decide) nofun approvedRun [] 1 repair current d db' hcurrent
    houtcome hok).mpr fun _ ↦ helig⟩

/-- After it is paid, the same correction makes a rewarded submission eligible again. -/
theorem amending_requeues_paid :
    (∀ s ∈ (run step newcomerDatabase paidRun).submissions.rows,
      s.id = 1 ∧ s.rewardStatus = .rewarded) ∧
    ((latestBindingDecision (run step newcomerDatabase paidRun) 1).map fun d ↦ (d.id, d.decision)) =
      some (1, repair.decision) ∧
    ∃ d db', correctHumanDecision (run step newcomerDatabase paidRun) [] 1 1 repair =
        .ok (d, db') ∧
      (∃ s ∈ db'.submissions.rows, s.id = 1 ∧ s.rewardStatus = .eligible) ∧
      ¬ Amended (run step newcomerDatabase paidRun) db' 1 1 d := by
  have hpaid : ∀ s ∈ (run step newcomerDatabase paidRun).submissions.rows,
      s.id = 1 ∧ s.rewardStatus = .rewarded := by decide +kernel
  have hafter : ((correctHumanDecision (run step newcomerDatabase paidRun) [] 1 1 repair).toOption.any
      fun out ↦ out.2.submissions.rows.any fun s ↦ s.id = 1 ∧ s.rewardStatus = .eligible) = true := by
    decide +kernel
  have hexists : ∃ s ∈ (run step newcomerDatabase paidRun).submissions.rows, s.id = 1 := by
    decide +kernel
  refine ⟨hpaid, by decide +kernel, ?_⟩
  cases h : correctHumanDecision (run step newcomerDatabase paidRun) [] 1 1 repair with
  | error e =>
    rw [h] at hafter
    cases hafter
  | ok out =>
    rw [h] at hafter
    obtain ⟨s', hs', heligible⟩ := List.any_eq_true.mp hafter
    obtain ⟨hid', heligible⟩ := of_decide_eq_true heligible
    refine ⟨out.1, out.2, rfl, ⟨s', hs', hid', heligible⟩, fun hamended ↦ ?_⟩
    obtain ⟨s, hs, hid⟩ := hexists
    have hsame := (hamended.statuses s hs s' hs' hid hid').2
    rw [heligible, (hpaid s hs).2] at hsame
    cases hsame

end Conjectures.Rewards

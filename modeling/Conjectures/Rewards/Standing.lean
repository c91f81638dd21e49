import Conjectures.Rewards.Effects

/-!
# A reward stands on an approval

The columns of a submission and its decisions are written by verifiers, reviewers,
operators and the watcher.  What they keep is said about one submission: its binding
decisions form a chain, its review status is the outcome of the last of them, and a reward
is owed only where that is an approval of a verified proof (`Standing`).

A step either leaves the decisions alone or appends one binding decision, with the status
columns that go with it; that is `Effect`, and `step_effect` reads it off each transaction.
-/

namespace Conjectures.Rewards

open Lib Db

/-! ## The invariant -/

/-- The state of a submission, as its decisions have it. -/
structure Standing (db : RewardDatabase) (s : Submission) : Prop where
  /-- each binding decision supersedes the one before it -/
  linked : Linked ReviewDecision.id ReviewDecision.supersedesId none (bindingDecisions db s.id)
  ordered : (bindingDecisions db s.id).Pairwise fun d d' ↦ d.id < d'.id
  /-- the last one is the current status -/
  review : s.manualReviewStatus =
    ((latestBindingDecision db s.id).map (·.decision.state)).getD .unreviewed
  /-- only a verified proof is decided -/
  verified : bindingDecisions db s.id ≠ [] → s.verificationStatus = .verified
  approved : s.rewardStatus ≠ .ineligible → s.manualReviewStatus = .approved

theorem latestBindingDecision_mem {db : RewardDatabase} {submissionId : Uuid}
    {d : ReviewDecision} (h : latestBindingDecision db submissionId = some d) :
    d ∈ bindingDecisions db submissionId := List.argmax_mem (Option.mem_def.mpr h)

theorem latestBindingDecision_eq_none {db : RewardDatabase} {submissionId : Uuid} :
    latestBindingDecision db submissionId = none ↔ bindingDecisions db submissionId = [] :=
  List.argmax_eq_none

/-- An undecided submission has no binding decision. -/
theorem Standing.undecided {db : RewardDatabase} {s : Submission} (h : Standing db s)
    (hs : s.verificationStatus = .unverified ∨
      (s.verificationStatus = .verified ∧ s.manualReviewStatus = .unreviewed)) :
    bindingDecisions db s.id = [] := by
  rcases hs with hs | ⟨-, hs⟩
  · by_contra hne
    have := (h.verified hne).symm.trans hs
    cases this
  · rw [← latestBindingDecision_eq_none]
    cases hlatest : latestBindingDecision db s.id with
    | none => rfl
    | some d =>
      have hreview := h.review
      rw [hs, hlatest] at hreview
      cases hd : d.decision <;> simp [hd, ReviewOutcome.state] at hreview

theorem approved_of_state {o : ReviewOutcome} (h : o.state = .approved) : o = .approved := by
  cases o with
  | approved => rfl
  | rejected => cases h

/-- An approved submission was approved by its last decision. -/
theorem Standing.approval {db : RewardDatabase} {s : Submission} (h : Standing db s)
    (hs : s.manualReviewStatus = .approved) :
    ∃ d, latestBindingDecision db s.id = some d ∧ d.decision = .approved := by
  have hreview := h.review
  rw [hs] at hreview
  cases hlatest : latestBindingDecision db s.id with
  | none => rw [hlatest] at hreview; cases hreview
  | some d =>
    rw [hlatest] at hreview
    exact ⟨d, rfl, approved_of_state hreview.symm⟩

/-- A submission is owed something only after it was verified. -/
theorem Standing.unverified {db : RewardDatabase} {s : Submission} (h : Standing db s)
    (hs : s.verificationStatus ≠ .verified) : s.rewardStatus = .ineligible := by
  by_contra hne
  obtain ⟨d, hd, -⟩ := h.approval (h.approved hne)
  exact hs (h.verified (List.ne_nil_of_mem (latestBindingDecision_mem hd)))

/-- Nothing has been said about a new submission. -/
theorem standing_of_fresh {db : RewardDatabase} {s : Submission} (hs : Fresh s)
    (hnew : ∀ d ∈ db.decisions.rows, d.submissionId ≠ s.id) : Standing db s := by
  have hnone : bindingDecisions db s.id = [] :=
    List.filter_eq_nil_iff.mpr fun d hd ↦ by simp [ReviewDecision.Binds, hnew d hd]
  refine ⟨?_, ?_, ?_, fun hne ↦ absurd hnone hne, fun hne ↦ absurd hs.2.2 hne⟩
  · rw [hnone]
    trivial
  · rw [hnone]
    exact List.Pairwise.nil
  · rw [latestBindingDecision_eq_none.mpr hnone]
    exact hs.2.1

/-! ## What one step does -/

/-- What a step does to one submission. -/
inductive Effect (db db' : RewardDatabase) (s s' : Submission) : Prop
  /-- its decisions stay; it may be judged, and a reward that is owed may move -/
  | quiet (decisions : bindingDecisions db' s.id = bindingDecisions db s.id)
      (review : s'.manualReviewStatus = s.manualReviewStatus)
      (verdict : s'.verificationStatus = s.verificationStatus ∨
        s.verificationStatus = .unverified)
      (reward : s'.rewardStatus = s.rewardStatus ∨ s.rewardStatus ≠ .ineligible)
  /-- it is decided for the first time, or its last decision is corrected -/
  | decides (d : ReviewDecision)
      (decisions : bindingDecisions db' s.id = bindingDecisions db s.id ++ [d])
      (newest : ∀ d' ∈ bindingDecisions db s.id, d'.id < d.id)
      (follows : (d.supersedesId = none ∧
          (s.verificationStatus = .unverified ∨
            (s.verificationStatus = .verified ∧ s.manualReviewStatus = .unreviewed))) ∨
        ∃ d', latestBindingDecision db s.id = some d' ∧ d.supersedesId = some d'.id ∧
          s.verificationStatus = .verified ∧
          (d'.decision = .approved → d.decision = .rejected →
            ∀ e ∈ db.events.rows, e.submissionId = s.id → e.Unsigned))
      (verified : s'.verificationStatus = .verified)
      (review : s'.manualReviewStatus = d.decision.state)
      (reward : s'.rewardStatus ≠ .ineligible → d.decision = .approved ∨
        (s.verificationStatus ≠ .verified ∧ s.rewardStatus ≠ .ineligible))

/-- What a step does keeps the standing of the submission. -/
theorem Effect.standing {db db' : RewardDatabase} {s s' : Submission} (hid : s'.id = s.id)
    (h : Effect db db' s s') (hs : Standing db s) : Standing db' s' := by
  cases h with
  | quiet decisions review verdict reward =>
    have hlatest : latestBindingDecision db' s.id = latestBindingDecision db s.id :=
      congrArg (List.argmax ReviewDecision.id) decisions
    refine ⟨?_, ?_, ?_, fun hne ↦ ?_, fun hne ↦ ?_⟩
    · rw [hid, decisions]
      exact hs.linked
    · rw [hid, decisions]
      exact hs.ordered
    · rw [hid, hlatest, review]
      exact hs.review
    · rw [hid, decisions] at hne
      rcases verdict with h | h
      · rw [h]
        exact hs.verified hne
      · exact absurd (hs.undecided (Or.inl h)) hne
    · rw [review]
      rcases reward with h | h
      · exact hs.approved (h ▸ hne)
      · exact hs.approved h
  | decides d decisions newest follows verified review reward =>
    have hordered : (bindingDecisions db' s.id).Pairwise fun d d' ↦ d.id < d'.id := by
      rw [decisions, List.pairwise_append]
      refine ⟨hs.ordered, List.pairwise_singleton _ _, fun d' hd' d'' hd'' ↦ ?_⟩
      rw [List.mem_singleton.mp hd'']
      exact newest d' hd'
    have hlatest : latestBindingDecision db' s.id = some d := by
      rw [latestBindingDecision, argmax_eq_getLast? hordered, decisions, List.getLast?_concat]
    refine ⟨?_, hid ▸ hordered, ?_, fun _ ↦ verified, fun hne ↦ ?_⟩
    · rw [hid, decisions, linked_concat, Option.or_none]
      refine ⟨hs.linked, ?_⟩
      rw [← argmax_eq_getLast? hs.ordered]
      rcases follows with ⟨hnone, hundecided⟩ | ⟨d', hd', hsupersedes, -⟩
      · rw [hs.undecided hundecided, hnone]
        rfl
      · rw [hsupersedes]
        exact (congrArg (Option.map ReviewDecision.id) hd').symm
    · rw [hid, hlatest, review]
      rfl
    · rw [review]
      rcases reward hne with h | ⟨hunverified, howed⟩
      · rw [h]
        rfl
      · exact absurd (hs.unverified hunverified) howed

/-! ## Reading it off the transactions -/

theorem bindingDecisions_append {db db' : RewardDatabase} {d : NewDecision}
    (h : db'.decisions = db.decisions.append d.row d.row_id) (submissionId : Uuid) :
    bindingDecisions db' submissionId = bindingDecisions db submissionId ++
      if d.submissionId = submissionId ∧ d.kind ≠ .advisory then [d.row db.decisions.nextId]
      else [] := by
  rw [bindingDecisions, h, Table.rows_append, List.filter_append]
  congr 1
  by_cases hbinds : d.submissionId = submissionId ∧ d.kind ≠ .advisory
  · rw [if_pos hbinds]
    exact List.filter_cons_of_pos (decide_eq_true hbinds)
  · rw [if_neg hbinds]
    exact List.filter_cons_of_neg fun h ↦ hbinds (of_decide_eq_true h)

theorem newest_decision {db : RewardDatabase} {submissionId : Uuid} {d : ReviewDecision}
    (h : d ∈ bindingDecisions db submissionId) : d.id < db.decisions.nextId :=
  Table.lt_nextId (mem_bindingDecisions.mp h).1

/-- A submission a step leaves alone. -/
theorem Effect.same {db db' : RewardDatabase} {s : Submission}
    (h : bindingDecisions db' s.id = bindingDecisions db s.id) : Effect db db' s s :=
  .quiet h rfl (Or.inl rfl) (Or.inl rfl)

/-- The row of a submission after a step, and what the step did to it. -/
def Follows (db db' : RewardDatabase) (s : Submission) : Prop :=
  ∃ s' ∈ db'.submissions.rows, s'.id = s.id ∧ Effect db db' s s'

theorem Follows.of_submissions {db db' : RewardDatabase} {s : Submission}
    (hs : s ∈ db.submissions.rows) (hsub : db'.submissions = db.submissions)
    (hdec : db'.decisions = db.decisions) : Follows db db' s :=
  ⟨s, hsub ▸ hs, rfl, .same (by rw [bindingDecisions, hdec, bindingDecisions])⟩

/-- A decision about a submission that is locked concerns that submission only. -/
theorem follows_decided {db db₁ db₂ : RewardDatabase} {s s₀ : Submission} {n : NewDecision}
    {review : ManualReviewState} {reward : RewardState} (hs : s ∈ db.submissions.rows)
    (hs₀ : s₀ ∈ db.submissions.rows) (hsub : db₁.submissions = db.submissions)
    (hdec : db₁.decisions = db.decisions) (hresult : db₂ = decided db₁ s₀ n review reward)
    (hn : n.submissionId = s₀.id) (hkind : n.kind ≠ .advisory)
    (hfollows : (n.supersedesId = none ∧ s₀.manualReviewStatus = .unreviewed) ∨
      ∃ d', latestBindingDecision db s₀.id = some d' ∧ n.supersedesId = some d'.id ∧
        (d'.decision = .approved → n.decision = .rejected →
          ∀ e ∈ db.events.rows, e.submissionId = s₀.id → e.Unsigned))
    (hverified : s₀.verificationStatus = .verified) (hreview : review = n.decision.state)
    (hreward : reward ≠ .ineligible → n.decision = .approved) : Follows db db₂ s := by
  subst hresult
  have hrow := @Table.modify_row _ _ _ _ (·.reviewed review reward)
    (Submission.reviewed_id review reward) db₁.submissions s₀.id s (hsub ▸ hs)
  have happend : bindingDecisions (decided db₁ s₀ n review reward) s.id =
      bindingDecisions db s.id ++ if n.submissionId = s.id ∧ n.kind ≠ .advisory then
        [n.row db.decisions.nextId] else [] :=
    bindingDecisions_append (by rw [← hdec]; rfl) s.id
  by_cases hid : s.id = s₀.id
  · obtain rfl := db.submissions.eq_of_key hs hs₀ hid
    rw [if_pos rfl] at hrow
    rw [if_pos ⟨hn, hkind⟩] at happend
    refine ⟨_, hrow, rfl, .decides _ happend (fun d' hd' ↦ newest_decision hd') ?_ hverified
      hreview (fun hne ↦ Or.inl (hreward hne))⟩
    rcases hfollows with ⟨hnone, hunreviewed⟩ | ⟨d', hd', hsupersedes, hguard⟩
    · exact Or.inl ⟨hnone, Or.inr ⟨hverified, hunreviewed⟩⟩
    · exact Or.inr ⟨d', hd', hsupersedes, hverified, hguard⟩
  · rw [if_neg hid] at hrow
    rw [if_neg (fun h ↦ hid (h.1.symm.trans hn)), List.append_nil] at happend
    exact ⟨s, hrow, rfl, .same happend⟩

/-- Only an approval makes a submission eligible. -/
theorem approved_of_owed (r : Ruling) (h : r.decision.reward ≠ .ineligible) :
    r.decision = .approved := by
  cases hd : r.decision with
  | approved => rfl
  | rejected => exact absurd (by rw [hd]; rfl) h

theorem follows_correction {db db₁ db' : RewardDatabase} {s : Submission}
    {seen : List Submission} {submissionId : Uuid} {supersedesId : ℕ} {r : Ruling}
    {d : ReviewDecision} (hs : s ∈ db.submissions.rows)
    (hsub : db₁.submissions = db.submissions) (hdec : db₁.decisions = db.decisions)
    (hev : db₁.events = db.events)
    (h : correctHumanDecision db₁ seen submissionId supersedesId r = .ok (d, db')) :
    Follows db db' s := by
  obtain ⟨s₀, hs₀, rfl, hverified, current, hcurrent, hguard, hresult⟩ :=
    correctHumanDecision_ok h
  have hlatest : latestBindingDecision db s₀.id = some current := by
    rw [← hcurrent, latestBindingDecision, bindingDecisions, ← hdec]
    rfl
  refine follows_decided hs (hsub ▸ hs₀) hsub hdec hresult rfl (fun h ↦ by cases h)
    (Or.inr ⟨current, hlatest, rfl, fun happroved hrejected e he hsubmission ↦ ?_⟩)
    hverified rfl (approved_of_owed r)
  by_contra hsigned
  exact hguard happroved hrejected ⟨e, hev ▸ he, hsubmission, Or.inl hsigned⟩

/-- Giving up the lease changes nothing this is about. -/
theorem Follows.unleased {db db₁ : RewardDatabase} {s s₀ : Submission} (h : Follows db db₁ s) :
    Follows db (unleased db₁ s₀) s := by
  obtain ⟨s', hs', hid, heffect⟩ := h
  refine ⟨_, @Table.modify_row _ _ _ _ Submission.unleased Submission.unleased_id _ s₀.id s' hs',
    ?_⟩
  split <;> refine ⟨hid, ?_⟩ <;> cases heffect with
  | quiet decisions review verdict reward => exact .quiet decisions review verdict reward
  | decides d decisions newest follows verified review reward =>
    exact .decides d decisions newest follows verified review reward

/-- The first verdict moves no decision. -/
theorem follows_judged {db db₁ : RewardDatabase} {s s₀ : Submission} {v : VerifierVerdict}
    (hs : s ∈ db.submissions.rows) (hs₀ : s₀ ∈ db.submissions.rows)
    (hunverified : s₀.verificationStatus = .unverified)
    (hsub : db₁.submissions = (judged (runRecorded db s₀ v) s₀ v).submissions)
    (hbinding : bindingDecisions db₁ s.id = bindingDecisions db s.id) : Follows db db₁ s := by
  have hrow := @Table.modify_row _ _ _ _ _ (Submission.judged_id v.state
    (if v.accepted then none else some v.reasonCode)) db.submissions s₀.id s hs
  refine ⟨_, (congrArg Table.rows hsub).symm ▸ hrow, ?_⟩
  split
  · rename_i hid
    obtain rfl := db.submissions.eq_of_key hs hs₀ hid
    exact ⟨rfl, .quiet hbinding rfl (Or.inr hunverified) (Or.inl rfl)⟩
  · exact ⟨rfl, .same hbinding⟩

/-- An accepting verdict that approves, or finds the reward spent. -/
theorem follows_automatic {db : RewardDatabase} {s s₀ : Submission} {v : VerifierVerdict}
    {n : NewDecision} {review : ManualReviewState} {reward : RewardState}
    (hs : s ∈ db.submissions.rows) (hs₀ : s₀ ∈ db.submissions.rows)
    (hunverified : s₀.verificationStatus = .unverified) (haccepted : v.accepted = true)
    (hn : n.submissionId = s₀.id) (hkind : n.kind = .automatic) (hfirst : n.supersedesId = none)
    (hreview : review = n.decision.state)
    (hreward : n.decision = .approved ∨ reward = s₀.rewardStatus) :
    Follows db (decided (judged (runRecorded db s₀ v) s₀ v)
      (s₀.judged v.state (if v.accepted then none else some v.reasonCode)) n review reward) s := by
  have happend := @bindingDecisions_append db (decided (judged (runRecorded db s₀ v) s₀ v)
    (s₀.judged v.state (if v.accepted then none else some v.reasonCode)) n review reward) n rfl s.id
  have hrow := @Table.modify_row _ _ _ _ _ (Submission.reviewed_id review reward) _ s₀.id _
    (@Table.modify_row _ _ _ _ _ (Submission.judged_id v.state
      (if v.accepted then none else some v.reasonCode)) db.submissions s₀.id s hs)
  by_cases hid : s.id = s₀.id
  · rw [if_pos hid, if_pos (show (s.judged _ _).id = s₀.id from hid)] at hrow
    obtain rfl := db.submissions.eq_of_key hs hs₀ hid
    rw [if_pos (show n.submissionId = s.id ∧ n.kind ≠ .advisory from
      ⟨hn, by rw [hkind]; nofun⟩)] at happend
    refine ⟨_, hrow, rfl, .decides _ happend (fun d' hd' ↦ newest_decision hd')
      (Or.inl ⟨hfirst, Or.inl hunverified⟩) (if_pos haccepted) hreview fun hne ↦ ?_⟩
    refine hreward.imp id fun hsame ↦ ⟨by rw [hunverified]; nofun, ?_⟩
    rw [← hsame]
    exact hne
  · rw [if_neg hid, if_neg hid] at hrow
    rw [if_neg (show ¬ (n.submissionId = s.id ∧ n.kind ≠ .advisory) from
      fun h ↦ hid (h.1.symm.trans hn)), List.append_nil] at happend
    exact ⟨s, hrow, rfl, .same happend⟩

/-- A verdict decides a submission once, and may approve it. -/
theorem follows_verify {db db' : RewardDatabase} {s : Submission} {submissionId : Uuid}
    {seen : List Submission} {v : VerifierVerdict} {result : VerificationRun × Bool}
    (hs : s ∈ db.submissions.rows) (h : verify submissionId seen v db = .ok (result, db')) :
    Follows db db' s := by
  obtain ⟨s₀, hs₀, -, db₁, rfl, hcases⟩ := verify_ok h
  refine Follows.unleased ?_
  rcases hcases with rfl | ⟨hunverified, rfl | ⟨haccepted, d, happrove⟩⟩
  · exact .of_submissions hs rfl rfl
  · exact follows_judged hs hs₀ hunverified rfl rfl
  · obtain ⟨n, hn, ⟨hadvisory, rfl⟩ | ⟨hkind, hfirst, ⟨hdecision, rfl⟩ | ⟨hdecision, -, rfl⟩⟩⟩ :=
      approveAutomatically_ok happrove
    · refine follows_judged hs hs₀ hunverified rfl ?_
      rw [@bindingDecisions_append db _ n rfl, if_neg fun h ↦ h.2 hadvisory, List.append_nil]
    · exact follows_automatic hs hs₀ hunverified haccepted hn hkind hfirst (by rw [hdecision]; rfl)
        (Or.inr rfl)
    · exact follows_automatic hs hs₀ hunverified haccepted hn hkind hfirst (by rw [hdecision]; rfl)
        (Or.inl hdecision)

/-- A payout moves a reward that is owed, and nothing else of the submission. -/
theorem follows_paid {db db' : RewardDatabase} {s s₀ : Submission} {reward : RewardState}
    (hs : s ∈ db.submissions.rows) (hs₀ : s₀ ∈ db.submissions.rows)
    (howed : s₀.rewardStatus ≠ .ineligible)
    (hsub : db'.submissions = db.submissions.modify s₀.id
      (·.reviewed s₀.manualReviewStatus reward) (Submission.reviewed_id _ _))
    (hdec : db'.decisions = db.decisions) : Follows db db' s := by
  have hbinding : bindingDecisions db' s.id = bindingDecisions db s.id := by
    rw [bindingDecisions, hdec, bindingDecisions]
  refine ⟨_, hsub ▸ @Table.modify_row _ _ _ _ _ _ db.submissions s₀.id s hs, ?_⟩
  split
  · rename_i hid
    obtain rfl := db.submissions.eq_of_key hs hs₀ hid
    exact ⟨rfl, .quiet hbinding rfl (Or.inl rfl) (Or.inr howed)⟩
  · exact ⟨rfl, .same hbinding⟩

theorem follows_settled {db db₁ db' : RewardDatabase} {s s₀ : Submission} {e : RewardEvent}
    {p : TreasuryPayout} (hs : s ∈ db.submissions.rows)
    (hsub : db₁.submissions = db.submissions) (hdec : db₁.decisions = db.decisions)
    (h : Settled db₁ db' e p s₀) : Follows db db' s := by
  rcases h.result with ⟨-, -, -, rfl⟩ | ⟨howed, -, -, timeline, rfl⟩
  · exact .of_submissions hs hsub hdec
  · refine follows_paid hs (hsub ▸ h.submission) ?_ (by rw [← hsub]) hdec
    rcases howed with h | h <;> rw [h] <;> nofun

theorem follows_commit {α : Type} {txn : Txn RewardDatabase RewardError α} {db : RewardDatabase}
    {s : Submission} (hs : s ∈ db.submissions.rows)
    (h : ∀ a db', txn db = .ok (a, db') → Follows db db' s) : Follows db (commit txn db) s :=
  @commit_induction _ _ _ txn db (Follows db · s) (.of_submissions hs rfl rfl) h

/-- What a step does to each submission. -/
theorem step_follows (db : RewardDatabase) (a : Step) {s : Submission}
    (hs : s ∈ db.submissions.rows) : Follows db (step db a) s := by
  have hrefl : Follows db db s := .of_submissions hs rfl rfl
  cases a with
  | submit row =>
    dsimp only [step, submitRow]
    split
    · split
      · rename_i db' hinsert
        refine ⟨s, ?_, rfl, .same rfl⟩
        exact (insertSubmission_spec hinsert).rows ▸ List.mem_append_left _ hs
      · exact hrefl
    · exact hrefl
  | verify submissionId seen v =>
    exact follows_commit hs fun _ _ hok ↦ follows_verify hs hok
  | decide submissionId seen r =>
    refine follows_commit hs fun _ _ hok ↦ ?_
    obtain ⟨s₀, hs₀, -, hverified, hunreviewed, -, hresult⟩ := recordHumanDecision_ok hok
    refine follows_decided hs hs₀ rfl rfl hresult rfl nofun (Or.inl ⟨rfl, hunreviewed⟩) hverified
      rfl (approved_of_owed r)
  | correct submissionId seen supersedesId r =>
    exact follows_commit hs fun _ _ hok ↦ follows_correction hs rfl rfl rfl hok
  | instruct action r now =>
    refine follows_commit hs fun _ _ hok ↦ ?_
    obtain ⟨actions, timeline, rfl⟩ := changeInstruction_ok hok
    exact .of_submissions hs rfl rfl
  | withdraw seen r reasonCode notes notesPublic now =>
    refine follows_commit hs fun _ _ hok ↦ ?_
    obtain ⟨actions, timeline, ruling, d, hcorrect⟩ := cancelAndWithdraw_ok hok
    refine follows_correction hs ?_ ?_ ?_ hcorrect <;> rfl
  | seed r seen =>
    refine follows_commit hs fun _ _ hok ↦ ?_
    rcases seedRewardEvent_ok hok with rfl | ⟨-, -, -, rfl⟩
    · exact hrefl
    · exact .of_submissions hs rfl rfl
  | notify d =>
    dsimp only [step, notify]
    split <;> exact .of_submissions hs rfl rfl
  | mark actions o =>
    refine follows_commit hs fun _ _ hok ↦ ?_
    rcases markSubmitted_ok hok with ⟨rfl, -⟩ | ⟨e, s₀, hmarked⟩
    · exact hrefl
    · obtain ⟨timeline, rfl⟩ := hmarked.result
      refine follows_paid hs hmarked.submission ?_ rfl rfl
      rcases hmarked.owed with h | ⟨h, -⟩ <;> rw [h] <;> nofun
  | revert submitted now =>
    refine follows_commit hs fun _ _ hok ↦ ?_
    rcases revertSubmitted_ok hok with ⟨-, rfl, -⟩ | ⟨e, -, -, -, -, -, timeline, rfl⟩
    · exact hrefl
    · exact .of_submissions hs rfl rfl
  | record o price =>
    refine follows_commit hs fun _ _ hok ↦ ?_
    rcases recordPayout_ok hok with ⟨-, -, rfl⟩ | ⟨-, -, -, rfl⟩
    · exact hrefl
    · exact .of_submissions hs rfl rfl
  | claim actions reserved payoutId =>
    refine follows_commit hs fun _ _ hok ↦ ?_
    rcases claimPayout_ok hok with ⟨-, rfl⟩ | ⟨p, -, -, -, e, -, -, -, s₀, hsettled⟩
    · exact hrefl
    · exact follows_settled hs rfl rfl hsettled
  | bind reserved payoutId rewardEventId note =>
    refine follows_commit hs fun _ _ hok ↦ ?_
    obtain ⟨p, -, -, -, e, -, -, -, s₀, hsettled⟩ := bindPayout_ok hok
    refine follows_settled hs ?_ ?_ hsettled <;> rfl
  | disregard payoutId note =>
    refine follows_commit hs fun _ _ hok ↦ ?_
    obtain ⟨p, -, -, -, rfl⟩ := disregardPayout_ok hok
    exact .of_submissions hs rfl rfl

/-! ## Whole runs -/

/-- The submission is there, and stands. -/
def Stands (submissionId : Uuid) (db : RewardDatabase) : Prop :=
  ∃ s ∈ db.submissions.rows, s.id = submissionId ∧ Standing db s

theorem step_stands (submissionId : Uuid) (db : RewardDatabase) (a : Step)
    (h : Stands submissionId db) : Stands submissionId (step db a) := by
  obtain ⟨s, hs, rfl, hstanding⟩ := h
  obtain ⟨s', hs', hid, heffect⟩ := step_follows db a hs
  exact ⟨s', hs', hid, heffect.standing hid hstanding⟩

/-- The one binding decision no other one supersedes. -/
theorem Standing.unsuperseded {db : RewardDatabase} {s : Submission} (h : Standing db s)
    {d : ReviewDecision} (hd : d ∈ bindingDecisions db s.id) :
    (∀ d' ∈ bindingDecisions db s.id, d'.supersedesId ≠ some d.id) ↔
      latestBindingDecision db s.id = some d := by
  have hnodup : ((bindingDecisions db s.id).map ReviewDecision.id).Nodup :=
    db.decisions.nodup.sublist (List.filter_sublist.map _)
  rw [h.linked.uncorrected_iff hnodup hd, latestBindingDecision, argmax_eq_getLast? h.ordered]

/-- A step withdraws the approval of a submission only where nothing was sent for it, and a
refused proof stays refused. -/
def Withdrawable (submissionId : Uuid) (db db' : RewardDatabase) : Prop :=
  ∀ s ∈ db.submissions.rows, ∀ s' ∈ db'.submissions.rows, s.id = submissionId →
    s'.id = submissionId →
    (s.manualReviewStatus = .approved → s'.manualReviewStatus ≠ .approved →
      ∀ e ∈ db.events.rows, e.submissionId = submissionId → e.Unsigned) ∧
    (s.verificationStatus = .rejected → s'.verificationStatus = .rejected)

theorem step_withdrawable (submissionId : Uuid) (db : RewardDatabase) (a : Step)
    (h : Stands submissionId db) : Withdrawable submissionId db (step db a) := by
  rintro s hs s' hs' rfl hid'
  obtain ⟨s₀, hs₀, hid₀, hstanding⟩ := h
  obtain rfl := db.submissions.eq_of_key hs₀ hs hid₀
  obtain ⟨s₁, hs₁, hid₁, heffect⟩ := step_follows db a hs
  obtain rfl := (step db a).submissions.eq_of_key hs₁ hs' (hid₁.trans hid'.symm)
  cases heffect with
  | quiet decisions review verdict reward =>
    refine ⟨fun happroved hne ↦ absurd (review.trans happroved) hne, fun hrejected ↦ ?_⟩
    rcases verdict with h | h
    · exact h.trans hrejected
    · rw [h] at hrejected
      cases hrejected
  | decides d decisions newest follows verified review reward =>
    rcases follows with ⟨-, hundecided⟩ | ⟨d', hd', -, hverified, hguard⟩
    · refine ⟨fun happroved ↦ ?_, fun hrejected ↦ ?_⟩
      · obtain ⟨d', hd', -⟩ := hstanding.approval happroved
        rw [latestBindingDecision_eq_none.mpr (hstanding.undecided hundecided)] at hd'
        cases hd'
      · rcases hundecided with h | ⟨h, -⟩ <;> rw [h] at hrejected <;> cases hrejected
    · refine ⟨fun happroved hne ↦ hguard ?_ ?_, fun hrejected ↦ ?_⟩
      · obtain ⟨d'', hd'', happroved⟩ := hstanding.approval happroved
        cases hd'.symm.trans hd''
        exact happroved
      · cases hd : d.decision with
        | approved => exact absurd (review.trans (by rw [hd]; rfl)) hne
        | rejected => rfl
      · rw [hverified] at hrejected
        cases hrejected

/-- For every sequence of transactions from a fresh submission on: a reward is owed only on
a verified proof whose newest binding decision approves it, a refused proof is owed nothing,
the decisions form one chain whose only unsuperseded end is the review status, and no
approval is withdrawn once anything was sent for it. -/
theorem reward_stands_on_approval (db : RewardDatabase) (s₀ : Submission)
    (hs₀ : s₀ ∈ db.submissions.rows) (hfresh : Fresh s₀)
    (hnew : ∀ d ∈ db.decisions.rows, d.submissionId ≠ s₀.id) (steps : List Step) :
    (∃ s ∈ (run step db steps).submissions.rows, s.id = s₀.id ∧
      (s.rewardStatus ≠ .ineligible → s.verificationStatus = .verified ∧
        s.manualReviewStatus = .approved ∧
        ∃ d, latestBindingDecision (run step db steps) s.id = some d ∧ d.decision = .approved ∧
          ∀ d' ∈ bindingDecisions (run step db steps) s.id, d'.supersedesId ≠ some d.id) ∧
      (s.verificationStatus = .rejected → s.rewardStatus = .ineligible) ∧
      Linked ReviewDecision.id ReviewDecision.supersedesId none
        (bindingDecisions (run step db steps) s.id) ∧
      (bindingDecisions (run step db steps) s.id = [] → s.manualReviewStatus = .unreviewed) ∧
      (bindingDecisions (run step db steps) s.id ≠ [] →
        ∃ d ∈ bindingDecisions (run step db steps) s.id,
          s.manualReviewStatus = d.decision.state ∧
          ∀ d' ∈ bindingDecisions (run step db steps) s.id,
            (∀ d'' ∈ bindingDecisions (run step db steps) s.id,
              d''.supersedesId ≠ some d'.id) ↔ d' = d)) ∧
    Each step (fun db a ↦ Withdrawable s₀.id db (step db a)) db steps := by
  have hstart : Stands s₀.id db := ⟨s₀, hs₀, rfl, standing_of_fresh hfresh hnew⟩
  refine ⟨?_, each_of_invariant (step_stands s₀.id) (step_withdrawable s₀.id) hstart steps⟩
  obtain ⟨s, hs, hid, hstanding⟩ := run_invariant (step_stands s₀.id) hstart steps
  have hreview := hstanding.review
  refine ⟨s, hs, hid, fun howed ↦ ?_, fun hrejected ↦ ?_, hstanding.linked, fun hnil ↦ ?_,
    fun hne ↦ ?_⟩
  · have happroved := hstanding.approved howed
    obtain ⟨d, hd, hdecision⟩ := hstanding.approval happroved
    have hmem := latestBindingDecision_mem hd
    exact ⟨hstanding.verified (List.ne_nil_of_mem hmem), happroved, d, hd, hdecision,
      (hstanding.unsuperseded hmem).mpr hd⟩
  · exact hstanding.unverified (by rw [hrejected]; nofun)
  · rwa [latestBindingDecision_eq_none.mpr hnil] at hreview
  · cases hd : latestBindingDecision (run step db steps) s.id with
    | none => exact absurd (latestBindingDecision_eq_none.mp hd) hne
    | some d =>
      rw [hd] at hreview
      refine ⟨d, latestBindingDecision_mem hd, hreview, fun d' hd' ↦ ?_⟩
      rw [hstanding.unsuperseded hd', hd, Option.some.injEq, eq_comm]

/-- The proof is accepted, the submission rejected, and the rejection corrected. -/
def correctedRun : List Step :=
  [.verify 1 [] acceptance,
    .decide 1 [] ⟨.rejected, "NOT_NOVEL", "ada", none, some "known"⟩,
    .correct 1 [] 1 ⟨.approved, "NOVEL", "bob", some "it is not", some "novel"⟩]

theorem corrected_newcomer_stands :
    ∃ s ∈ (run step newcomerDatabase correctedRun).submissions.rows,
      s.rewardStatus = .eligible ∧ s.verificationStatus = .verified ∧
        s.manualReviewStatus = .approved := by
  obtain ⟨⟨s, hs, -, hstands, -⟩, -⟩ := reward_stands_on_approval newcomerDatabase newcomer
    (List.mem_singleton_self _) (by decide) nofun correctedRun
  have howed : ∀ s ∈ (run step newcomerDatabase correctedRun).submissions.rows,
      s.rewardStatus = .eligible := by decide +kernel
  obtain ⟨hverified, happroved, -⟩ := hstands (by rw [howed s hs]; nofun)
  exact ⟨s, hs, howed s hs, hverified, happroved⟩

end Conjectures.Rewards

import Conjectures.Rewards.Steps

/-!
# What a transaction does about a reward

Each transaction is summarised once.  What a decision, a correction and a verdict write is
said by `decided`; what an observation and a settlement write by `Marked` and `Settled`.
Everything later modules prove about reviews and payouts is derived from these.
-/

namespace Conjectures.Rewards

open Lib Db

/-! ## Decisions -/

/-- A decision is appended and the two status columns follow it. -/
def decided (db : RewardDatabase) (s : Submission) (d : NewDecision) (review : ManualReviewState)
    (reward : RewardState) : RewardDatabase :=
  { db with
    decisions := db.decisions.append d.row d.row_id
    submissions := db.submissions.modify s.id (·.reviewed review reward)
      (Submission.reviewed_id review reward) }

/-- Evidence is appended, and no status moves. -/
def noted (db : RewardDatabase) (d : NewDecision) : RewardDatabase :=
  { db with decisions := db.decisions.append d.row d.row_id }

theorem approveAutomatically_ok {db db' : RewardDatabase} {seen : List Submission}
    {s : Submission} {d : ReviewDecision} (h : approveAutomatically db seen s = .ok (d, db')) :
    ∃ n : NewDecision, n.submissionId = s.id ∧
      ((n.kind = .advisory ∧ db' = noted db n) ∨ (n.kind = .automatic ∧ n.supersedesId = none ∧
        ((n.decision = .rejected ∧ db' = decided db s n .rejected s.rewardStatus) ∨
          (n.decision = .approved ∧ ¬ TargetHeld db.submissions.rows s ∧
            db' = decided db s n .approved .eligible)))) := by
  unfold approveAutomatically at h
  dsimp only at h
  split at h
  · exact ⟨_, rfl, Or.inl ⟨rfl, (insertDecision_ok h).2⟩⟩
  · split at h
    · obtain ⟨⟨d', db₁⟩, hins, h⟩ := bind_eq_ok.mp h
      obtain ⟨db₂, hwrite, h⟩ := bind_eq_ok.mp h
      cases h
      obtain ⟨-, rfl⟩ := insertDecision_ok hins
      exact ⟨_, rfl, Or.inr ⟨rfl, rfl, Or.inl ⟨rfl, writeReview_ok hwrite⟩⟩⟩
    · obtain ⟨⟨d', db₁⟩, hins, h⟩ := bind_eq_ok.mp h
      obtain ⟨db₂, hwrite, h⟩ := bind_eq_ok.mp h
      cases h
      obtain ⟨-, rfl⟩ := insertDecision_ok hins
      have hfree := writeReview_free hwrite (fun h ↦ by cases h)
      exact ⟨_, rfl, Or.inr ⟨rfl, rfl, Or.inr ⟨rfl, hfree, writeReview_ok hwrite⟩⟩⟩

theorem recordHumanDecision_ok {db db' : RewardDatabase} {seen : List Submission}
    {submissionId : Uuid} {r : Ruling} {d : ReviewDecision}
    (h : recordHumanDecision db seen submissionId r = .ok (d, db')) :
    ∃ s ∈ db.submissions.rows, s.id = submissionId ∧ s.verificationStatus = .verified ∧
      s.manualReviewStatus = .unreviewed ∧ s.rewardStatus = .ineligible ∧
      db' = decided db s (r.of s none) r.decision.state r.decision.reward := by
  simp only [recordHumanDecision, bind_eq_ok, require_eq_ok] at h
  obtain ⟨s, hs, -, hunreviewed, -, hineligible, -, -, ⟨d', db₁⟩, hins, db₂, hwrite, h⟩ := h
  cases h
  obtain ⟨hmem, hid, hverified⟩ := verifiedSubmission_ok hs
  obtain ⟨-, rfl⟩ := insertDecision_ok hins
  exact ⟨s, hmem, hid, hverified, hunreviewed, hineligible, writeReview_ok hwrite⟩

theorem correctHumanDecision_ok {db db' : RewardDatabase} {seen : List Submission}
    {submissionId : Uuid} {supersedesId : ℕ} {r : Ruling} {d : ReviewDecision}
    (h : correctHumanDecision db seen submissionId supersedesId r = .ok (d, db')) :
    ∃ s ∈ db.submissions.rows, s.id = submissionId ∧ s.verificationStatus = .verified ∧
      ∃ current, latestBindingDecision db submissionId = some current ∧
        (current.decision = .approved → r.decision = .rejected →
          ¬ RewardEventExists db submissionId) ∧
        db' = decided db s (r.of s (some current.id)) r.decision.state r.decision.reward := by
  simp only [correctHumanDecision, bind_eq_ok, require_eq_ok, need_eq_ok, mapError_eq_ok] at h
  obtain ⟨s, hs, current, hcurrent, -, -, -, hunpaid, -, -, ⟨d', db₁⟩, hins, db₂, hwrite, h⟩ := h
  cases h
  obtain ⟨hmem, hid, hverified⟩ := verifiedSubmission_ok hs
  obtain ⟨-, rfl⟩ := insertDecision_ok hins
  refine ⟨s, hmem, hid, hverified, current, hcurrent, fun happroved hrejected hexists ↦ ?_,
    writeReview_ok hwrite⟩
  exact hunpaid ⟨happroved, hrejected, Or.inr (Or.inr hexists)⟩

theorem cancelAndWithdraw_ok {db db' : RewardDatabase} {seen : List Submission}
    {r : InstructionRequest} {reasonCode notes notesPublic : String} {now : Instant}
    {result : PayoutInstructionAction × ReviewDecision}
    (h : cancelAndWithdraw db seen r reasonCode notes notesPublic now = .ok (result, db')) :
    ∃ (actions : Table PayoutInstructionAction.id) (timeline : Table SubmissionEvent.id)
      (ruling : Ruling) (d : ReviewDecision),
      correctHumanDecision { db with actions, timeline } seen r.submissionId r.expectedReviewId
        ruling = .ok (d, db') := by
  simp only [cancelAndWithdraw, bind_eq_ok] at h
  obtain ⟨-, -, ⟨action, db₁⟩, hchange, ⟨d, db₂⟩, hcorrect, h⟩ := h
  cases h
  obtain ⟨actions, timeline, rfl⟩ := changeInstruction_ok hchange
  exact ⟨actions, timeline, _, d, hcorrect⟩

/-! ## Verdicts -/

/-- A run is recorded and the lease is given up. -/
def runRecorded (db : RewardDatabase) (s : Submission) (v : VerifierVerdict) : RewardDatabase :=
  { db with runs := db.runs.append (v.run s) (v.run_id s) }

theorem VerifierVerdict.judged_id (v : VerifierVerdict) (s : Submission) :
    (s.judged v.state (if v.accepted then none else some v.reasonCode)).id = s.id :=
  Submission.judged_id _ _ s

/-- The verdict is written. -/
def judged (db : RewardDatabase) (s : Submission) (v : VerifierVerdict) : RewardDatabase :=
  { db with
    submissions := db.submissions.modify s.id
      (·.judged v.state (if v.accepted then none else some v.reasonCode))
      (VerifierVerdict.judged_id v) }

def unleased (db : RewardDatabase) (s : Submission) : RewardDatabase :=
  { db with
    submissions := db.submissions.modify s.id Submission.unleased Submission.unleased_id }

/-- A verdict is recorded; the first one decides the submission, and an accepting one may
approve it. -/
theorem verify_ok {db db' : RewardDatabase} {submissionId : Uuid} {seen : List Submission}
    {v : VerifierVerdict} {result : VerificationRun × Bool}
    (h : verify submissionId seen v db = .ok (result, db')) :
    ∃ s ∈ db.submissions.rows, s.id = submissionId ∧ ∃ db₁, db' = unleased db₁ s ∧
      (db₁ = runRecorded db s v ∨
        (s.verificationStatus = .unverified ∧
          (db₁ = judged (runRecorded db s v) s v ∨
            (v.accepted = true ∧ ∃ d, approveAutomatically (judged (runRecorded db s v) s v) seen
              (s.judged v.state (if v.accepted then none else some v.reasonCode)) =
                .ok (d, db₁))))) := by
  simp only [verify, bind_eq_ok, need_eq_ok, Table.find?_eq_some] at h
  obtain ⟨s, ⟨hmem, hid⟩, h⟩ := h
  refine ⟨s, hmem, hid, ?_⟩
  unfold recordVerificationResult at h
  dsimp only at h
  split at h
  · obtain ⟨db₁, happly, h⟩ := bind_eq_ok.mp h
    cases happly
    cases h
    exact ⟨_, rfl, Or.inl rfl⟩
  · rename_i hruled
    obtain ⟨db₁, happly, h⟩ := bind_eq_ok.mp h
    cases h
    refine ⟨db₁, rfl, Or.inr ⟨by simpa using hruled, ?_⟩⟩
    unfold applyVerdict at happly
    dsimp only at happly
    split at happly
    · rename_i haccepted
      cases hr : approveAutomatically (judged (runRecorded db s v) s v) seen
          (s.judged v.state (if v.accepted then none else some v.reasonCode)) with
      | error e =>
        have := happly.symm.trans (congrArg (Except.map (·.2)) hr)
        cases this
      | ok r =>
        have := happly.symm.trans (congrArg (Except.map (·.2)) hr)
        cases this
        exact Or.inr ⟨haccepted.1, r.1, rfl⟩
    · cases happly
      exact Or.inl rfl

/-- What a verdict makes of the row it is on; `rows` are those it is written among. -/
inductive Ruled (rows : List Submission) (v : VerifierVerdict) (s : Submission) :
    Submission → Prop
  /-- it was ruled on before -/
  | again : Ruled rows v s s.unleased
  | judged (hunverified : s.verificationStatus = .unverified) :
    Ruled rows v s (s.judged v.state (if v.accepted then none else some v.reasonCode)).unleased
  /-- accepted, with its reward spent -/
  | superseded (hunverified : s.verificationStatus = .unverified) (haccepted : v.accepted = true) :
    Ruled rows v s ((s.judged v.state (if v.accepted then none else some v.reasonCode)).reviewed
      .rejected s.rewardStatus).unleased
  | approved (hunverified : s.verificationStatus = .unverified) (haccepted : v.accepted = true)
    (hfree : ¬ TargetHeld rows s) :
    Ruled rows v s ((s.judged v.state (if v.accepted then none else some v.reasonCode)).reviewed
      .approved .eligible).unleased

/-- What a verdict writes: the row it is on, and decisions about it. -/
structure Verified (db db' : RewardDatabase) (v : VerifierVerdict) (s s' : Submission) : Prop where
  mem : s ∈ db.submissions.rows
  replaces : db.submissions.Replaces db'.submissions s s'
  ruled : Ruled db.submissions.rows v s s'
  events : db'.events = db.events
  payouts : db'.payouts = db.payouts
  decisions : ∀ d ∈ db'.decisions.rows, d ∈ db.decisions.rows ∨ d.submissionId = s.id

theorem unleased_replaces {db : RewardDatabase} {t : Table Submission.id} {s s' : Submission}
    (h : t.Replaces db.submissions s s') :
    t.Replaces (unleased db s).submissions s s'.unleased := by
  have := @Table.replaces_modify _ _ _ _ _ Submission.unleased_id _ _ h.mem
  rw [h.1] at this
  exact h.trans this

theorem verify_verified {db db' : RewardDatabase} {submissionId : Uuid} {seen : List Submission}
    {v : VerifierVerdict} {result : VerificationRun × Bool}
    (h : verify submissionId seen v db = .ok (result, db')) :
    ∃ s s', s.id = submissionId ∧ Verified db db' v s s' := by
  obtain ⟨s, hs, hid, db₁, rfl, hcases⟩ := verify_ok h
  have hjudged : db.submissions.Replaces (judged (runRecorded db s v) s v).submissions s _ :=
    @Table.replaces_modify _ _ _ _ _ (Submission.judged_id _ _) _ _ hs
  have hreviewed : ∀ review reward, db.submissions.Replaces
      ((judged (runRecorded db s v) s v).submissions.modify s.id (·.reviewed review reward)
        (Submission.reviewed_id review reward)) s _ := fun review reward ↦
    hjudged.trans (@Table.replaces_modify _ _ _ _ _ (Submission.reviewed_id review reward) _ _
      hjudged.mem)
  refine ⟨s, ?_⟩
  rcases hcases with rfl | ⟨hunverified, rfl | ⟨haccepted, d, happrove⟩⟩
  · exact ⟨_, hid, hs, unleased_replaces (Table.replaces_refl hs), .again, rfl, rfl,
      fun _ ↦ Or.inl⟩
  · exact ⟨_, hid, hs, unleased_replaces hjudged, .judged hunverified, rfl, rfl, fun _ ↦ Or.inl⟩
  · obtain ⟨n, hn, hcases⟩ := approveAutomatically_ok happrove
    have happend : ∀ d ∈ (db.decisions.append n.row n.row_id).rows,
        d ∈ db.decisions.rows ∨ d.submissionId = s.id := fun d hd ↦ by
      rw [Table.rows_append, List.mem_append, List.mem_singleton] at hd
      rcases hd with hd | rfl
      · exact Or.inl hd
      · exact Or.inr hn
    rcases hcases with ⟨-, rfl⟩ | ⟨-, -, ⟨-, rfl⟩ | ⟨-, hfree, rfl⟩⟩
    · exact ⟨_, hid, hs, unleased_replaces hjudged, .judged hunverified, rfl, rfl, happend⟩
    · exact ⟨_, hid, hs, unleased_replaces (hreviewed _ _), .superseded hunverified haccepted, rfl,
        rfl, happend⟩
    · refine ⟨_, hid, hs, unleased_replaces (hreviewed _ _),
        .approved hunverified haccepted ?_, rfl, rfl, happend⟩
      rintro ⟨o, ho, htarget, hne, howed⟩
      exact hfree ⟨o, (hjudged.2 o).mpr (Or.inl ⟨ho, hne⟩), htarget, hne, howed⟩

/-! ## Payouts -/

/-- A seeded obligation is pending, and names a submission that is there. -/
theorem seedRewardEvent_ok {db db' : RewardDatabase} {r : NewReward} {seen : Submission}
    (h : seedRewardEvent r seen db = .ok ((), db')) :
    db' = db ∨ ((seen.id = r.submissionId ∧ seen.rewardStatus = .eligible) ∧
      (∃ s ∈ db.submissions.rows, s.id = r.submissionId) ∧ 0 < r.amountRao ∧
      db' = { db with events := db.events.append r.row r.row_id }) := by
  unfold seedRewardEvent at h
  split at h
  · cases h
    exact Or.inl rfl
  · simp only [bind_eq_ok, require_eq_ok] at h
    obtain ⟨-, hseen, -, hs, -, hamount, h⟩ := h
    cases h
    exact Or.inr ⟨hseen, hs, hamount, rfl⟩

/-- An obligation is found on the best chain. -/
structure Marked (db db' : RewardDatabase) (o : Sighting) (e : RewardEvent) (s : Submission) :
    Prop where
  event : e ∈ db.events.rows
  same : SamePayout e o
  attached : e.extrinsicReference = some o.reference ∨ e.Outstanding
  unobserved : e.chainObserved = true → e.status ≠ .submitted ∧ e.status ≠ .confirmed
  live : e.status ≠ .failed
  submission : s ∈ db.submissions.rows
  names : s.id = e.submissionId
  owed : s.rewardStatus = .eligible ∨ (s.rewardStatus = .rewarded ∧ e.chainObserved = false)
  valid : (e.submitted o).Valid
  unique : ∀ e' ∈ db.events.rows, e'.id ≠ e.id →
    e'.extrinsicReference = none ∨ e'.extrinsicReference ≠ some o.reference
  result : ∃ timeline, db' = { db with
    submissions := db.submissions.modify s.id (·.reviewed s.manualReviewStatus .eligible)
      (Submission.reviewed_id _ _)
    events := db.events.modify e.id (·.submitted o) (RewardEvent.submitted_id o)
    timeline }

theorem markSubmitted_ok {db db' : RewardDatabase} {actions : List PayoutInstructionAction}
    {o : Sighting} {update : Option PayoutUpdate}
    (h : markSubmitted db actions o = .ok (update, db')) :
    (db' = db ∧ (update = none ∨ ∃ e ∈ db.events.rows, e.chainObserved = true ∧
        e.extrinsicReference = some o.reference)) ∨ ∃ e s, Marked db db' o e s := by
  simp only [markSubmitted, bind_eq_ok] at h
  obtain ⟨matched, hmatch, h⟩ := h
  cases matched with
  | none =>
    cases h
    exact Or.inl ⟨rfl, Or.inl rfl⟩
  | some e =>
    obtain ⟨hmem, hsame, hattached⟩ := matchEvent_ok hmatch
    dsimp only at h
    split at h
    · rename_i hseen
      cases h
      exact Or.inl ⟨rfl, Or.inr ⟨e, hmem, hseen.2.1, hseen.1⟩⟩
    · rename_i hseen
      simp only [bind_eq_ok, require_eq_ok, submissionFor, need_eq_ok, Table.find?_eq_some] at h
      obtain ⟨-, hlive, s, ⟨hs, hnames⟩, -, hreward, db₁, hwrite, db₂, hsave, h⟩ := h
      cases h
      rw [hreward] at hwrite
      obtain rfl := writeReview_ok hwrite
      obtain ⟨hvalid, hunique, rfl⟩ := saveEvent_ok hsave
      refine Or.inr ⟨e, s, hmem, hsame, hattached, fun hobserved ↦ ?_, hlive, hs, hnames, ?_,
        hvalid, hunique, ⟨_, rfl⟩⟩
      · rcases hattached with href | ⟨hpending, -⟩ | ⟨-, hunobserved⟩
        · constructor <;> intro hstatus
          · exact hseen ⟨href, hobserved, Or.inl hstatus⟩
          · exact hseen ⟨href, hobserved, Or.inr hstatus⟩
        · rw [hpending]
          constructor <;> intro h <;> cases h
        · rw [hobserved] at hunobserved
          cases hunobserved
      · split at hreward
        · rename_i hcached
          exact Or.inr hcached
        · exact Or.inl hreward

/-- An obligation is settled by a ledger row. -/
structure Settled (db db' : RewardDatabase) (e : RewardEvent) (p : TreasuryPayout)
    (s : Submission) : Prop where
  live : e.status ≠ .failed
  submission : s ∈ db.submissions.rows
  names : s.id = e.submissionId
  unbound : ∀ p' ∈ db.payouts.rows, p'.id ≠ p.id → p'.rewardEventId ≠ some e.id
  result : (e.status = .confirmed ∧ e.chainObserved = true ∧ s.rewardStatus = .rewarded ∧
      db' = { db with
        payouts := db.payouts.modify p.id (·.claimed e.id) (TreasuryPayout.claimed_id e.id) }) ∨
    ((s.rewardStatus = .eligible ∨ s.rewardStatus = .rewarded) ∧
      (e.confirmed p.sighting).Valid ∧
      (∀ e' ∈ db.events.rows, e'.id ≠ e.id → e'.extrinsicReference = none ∨
        e'.extrinsicReference ≠ some p.extrinsicReference) ∧
      ∃ timeline, db' = { db with
        submissions := db.submissions.modify s.id (·.reviewed s.manualReviewStatus .rewarded)
          (Submission.reviewed_id _ _)
        events := db.events.modify e.id (·.confirmed p.sighting)
          (RewardEvent.confirmed_id p.sighting)
        payouts := db.payouts.modify p.id (·.claimed e.id) (TreasuryPayout.claimed_id e.id)
        timeline })

theorem settlePayout_ok {db db' : RewardDatabase} {e : RewardEvent} {p : TreasuryPayout}
    {update : PayoutUpdate} (h : settlePayout db e p = .ok (update, db')) :
    ∃ s, Settled db db' e p s := by
  simp only [settlePayout, bind_eq_ok, require_eq_ok, submissionFor, need_eq_ok,
    Table.find?_eq_some] at h
  obtain ⟨-, hlive, s, ⟨hs, hnames⟩, h⟩ := h
  split at h
  · rename_i hquiet
    obtain ⟨db₁, hbind, h⟩ := bind_eq_ok.mp h
    cases h
    obtain ⟨hunbound, rfl⟩ := bindRow_ok hbind
    exact ⟨s, hlive, hs, hnames, hunbound, Or.inl ⟨hquiet.1, hquiet.2.1, hquiet.2.2, rfl⟩⟩
  · simp only [bind_eq_ok, require_eq_ok] at h
    obtain ⟨-, howed, db₁, hsave, db₂, hwrite, db₃, hbind, h⟩ := h
    cases h
    obtain ⟨hvalid, hunique, rfl⟩ := saveEvent_ok hsave
    obtain rfl := writeReview_ok hwrite
    obtain ⟨hunbound, rfl⟩ := bindRow_ok hbind
    exact ⟨s, hlive, hs, hnames, hunbound, Or.inr ⟨howed, hvalid, hunique, _, rfl⟩⟩

/-- A claimed payout settles nothing, or the obligation it was matched to. -/
theorem claimPayout_ok {db db' : RewardDatabase} {actions : List PayoutInstructionAction}
    {reserved : Bool} {payoutId : ℕ} {update : Option PayoutUpdate}
    (h : claimPayout db actions reserved payoutId = .ok (update, db')) :
    (update = none ∧ db' = db) ∨ ∃ p ∈ db.payouts.rows, p.id = payoutId ∧ p.status = .unclaimed ∧
      ∃ e ∈ db.events.rows, SamePayout e p.sighting ∧
        (e.extrinsicReference = some p.extrinsicReference ∨ e.Outstanding) ∧
        ∃ s, Settled db db' e p s := by
  simp only [claimPayout, bind_eq_ok, need_eq_ok, Table.find?_eq_some] at h
  obtain ⟨p, ⟨hmem, hid⟩, h⟩ := h
  split at h
  · cases h
    exact Or.inl ⟨rfl, rfl⟩
  · rename_i hstatus
    split at h
    · cases h
      exact Or.inl ⟨rfl, rfl⟩
    · obtain ⟨matched, hmatch, h⟩ := bind_eq_ok.mp h
      cases matched with
      | none =>
        cases h
        exact Or.inl ⟨rfl, rfl⟩
      | some e =>
        obtain ⟨he, hsame, hattached⟩ := matchEvent_ok hmatch
        obtain ⟨⟨u, db₁⟩, hsettle, h⟩ := bind_eq_ok.mp h
        cases h
        exact Or.inr ⟨p, hmem, hid, not_not.mp hstatus, e, he, hsame, hattached,
          settlePayout_ok hsettle⟩

/-- A payout bound by hand settles the obligation the operator named. -/
theorem bindPayout_ok {db db' : RewardDatabase} {reserved : Bool} {payoutId rewardEventId : ℕ}
    {note : String} {update : PayoutUpdate}
    (h : bindPayout db reserved payoutId rewardEventId note = .ok (update, db')) :
    ∃ p ∈ db.payouts.rows, p.id = payoutId ∧ p.status = .unclaimed ∧
      ∃ e ∈ db.events.rows, e.amountRao = p.amountRao ∧
        e.destinationColdkey = p.destinationColdkey ∧
        ∃ s, Settled { db with
          payouts := db.payouts.modify p.id (·.noted note) (TreasuryPayout.noted_id note) }
          db' e p s := by
  simp only [bindPayout, bind_eq_ok, require_eq_ok, need_eq_ok, Table.find?_eq_some] at h
  obtain ⟨p, hp, -, -, e, ⟨he, -⟩, -, hamount, -, hcoldkey, -, -, hsettle⟩ := h
  obtain ⟨hmem, hid, hstatus⟩ := undecidedPayout_ok hp
  exact ⟨p, hmem, hid, hstatus, e, he, hamount, hcoldkey, settlePayout_ok hsettle⟩

/-- A disregarded payout was bound to nothing. -/
theorem disregardPayout_ok {db db' : RewardDatabase} {payoutId : ℕ} {note : String}
    {p' : TreasuryPayout} (h : disregardPayout db payoutId note = .ok (p', db')) :
    ∃ p ∈ db.payouts.rows, p.id = payoutId ∧ p.status = .unclaimed ∧
      db' = { db with payouts := db.payouts.modify p.id (·.disregarded note)
                        (TreasuryPayout.disregarded_id note) } := by
  simp only [disregardPayout, bind_eq_ok] at h
  obtain ⟨p, hp, -, -, h⟩ := h
  cases h
  obtain ⟨hmem, hid, hstatus⟩ := undecidedPayout_ok hp
  exact ⟨p, hmem, hid, hstatus, rfl⟩

/-- A payout that left the best chain. -/
theorem revertSubmitted_ok {db db' : RewardDatabase} {submitted : SubmittedPayout}
    {now : Instant} {changed : Bool} (h : revertSubmitted db submitted now = .ok (changed, db')) :
    (changed = false ∧ db' = db ∧ ∀ e ∈ db.events.rows, e.id = submitted.rewardEventId →
        e.status = .submitted → e.extrinsicReference ≠ some submitted.reference) ∨
      ∃ e ∈ db.events.rows, e.id = submitted.rewardEventId ∧ e.status = .submitted ∧
        e.extrinsicReference = some submitted.reference ∧ e.reverted.Valid ∧
        ∃ timeline, db' = { db with
          events := db.events.modify e.id RewardEvent.reverted RewardEvent.reverted_id
          timeline } := by
  unfold revertSubmitted at h
  split at h
  · rename_i hfind
    cases h
    refine Or.inl ⟨rfl, rfl, fun e he hid ↦ ?_⟩
    exact absurd hid (Table.find?_eq_none.mp hfind e he)
  · rename_i e hfind
    obtain ⟨hmem, hid⟩ := Table.find?_eq_some.mp hfind
    split at h
    · rename_i hgone
      cases h
      refine Or.inl ⟨rfl, rfl, fun e' he' hid' hsubmitted ↦ ?_⟩
      obtain rfl := db.events.eq_of_key he' hmem (hid'.trans hid.symm)
      exact hgone.resolve_left (not_not.mpr hsubmitted)
    · rename_i hthere
      simp only [bind_eq_ok] at h
      obtain ⟨db₁, hsave, h⟩ := h
      cases h
      obtain ⟨hvalid, -, rfl⟩ := saveEvent_ok hsave
      rw [not_or, not_not, not_not] at hthere
      exact Or.inr ⟨e, hmem, hid, hthere.1, hthere.2, hvalid, _, rfl⟩

end Conjectures.Rewards

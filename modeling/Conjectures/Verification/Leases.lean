import Conjectures.Rewards.Matching
import Conjectures.Verification.Steps

/-!
# Leases on submissions

A worker writes a row only while its name is on the lease, or when the lease is free; so what
a worker does late, when another one has taken the submission over, changes nothing
(`verification_leases`).  Every claim counts one attempt, and only the worker that made it can
give it back.
-/

namespace Conjectures.Verification

open Lib Db Rewards

/-! ## What a worker writes -/

/-- A write of the worker `w` to the row `s`, what is logged of it, and until when the worker
has the submission then. -/
inductive RowWrite (maxAttempts : ℤ) (now : Instant) (w : String) (s : Submission) :
    Submission → Option Entry → Option Instant → Prop
  | claimed (expiry : Instant) (hunverified : s.verificationStatus = .unverified)
    (hfree : ∀ expiry ∈ s.verificationLeaseUntil, expiry < now)
    (hattempts : s.verificationAttempts < maxAttempts) (hexpiry : now ≤ expiry) :
    RowWrite maxAttempts now w s (s.claimed w expiry) (some (.claimed w s.id)) (some expiry)
  | extended (expiry : Instant) (hheld : s.HeldBy w) :
    RowWrite maxAttempts now w s (s.extended expiry) none (some expiry)
  | released (hheld : s.HeldBy w) : RowWrite maxAttempts now w s s.unleased none none
  | refunded (hheld : s.HeldBy w) (hattempts : 0 < s.verificationAttempts) :
    RowWrite maxAttempts now w s s.refunded (some (.refunded w s.id)) none
  | ruled (s' : Submission) (hunverified : s.verificationStatus = .unverified)
    (hleased : s.LeasedTo w now) (hruled : s'.verificationStatus ≠ .unverified)
    (howner : s'.verificationLeaseOwner = none) (huntil : s'.verificationLeaseUntil = none)
    (hattempts : s'.verificationAttempts = s.verificationAttempts) :
    RowWrite maxAttempts now w s s' (some (.ruled w s.id)) none

/-- The worker wrote one row, or gave up what it had been told. -/
inductive Performed (d : Deployment) (q : Queue) (w : String) : Op → Queue → Prop
  | unchanged {op : Op} : Performed d q w op q
  | lost {op : Op} (submissionId : Uuid) : Performed d q w op (q.grant w submissionId none)
  | wrote {op : Op} {s s' : Submission} {entry : Option Entry} {expiry : Option Instant}
    {db : RewardDatabase} (hs : s ∈ q.db.submissions.rows)
    (hreplaces : q.db.submissions.Replaces db.submissions s s')
    (hwrite : RowWrite d.maxAttempts q.clock w s s' entry expiry)
    (hop : s'.verificationStatus ≠ s.verificationStatus →
      ∃ seen v, op = .record s.id seen v) :
    Performed d q w op
      { (({ q with db }).grant w s.id expiry) with log := entry.toList ++ q.log }

/-- A verdict replaces the row of the submission it is on. -/
theorem recordVerificationResult_replaces {db db' : RewardDatabase} {seen : List Submission}
    {s : Submission} {v : VerifierVerdict} {verdict : VerificationRun × Bool}
    (hs : s ∈ db.submissions.rows) (hunverified : s.verificationStatus = .unverified)
    (h : recordVerificationResult db seen s v = .ok (verdict, db')) :
    verdict.2 = true ∧ ∃ s', db.submissions.Replaces db'.submissions s s' ∧
      s'.verificationStatus = v.state ∧ s'.verificationLeaseOwner = none ∧
      s'.verificationLeaseUntil = none ∧ s'.verificationAttempts = s.verificationAttempts := by
  have hruled : decide (s.verificationStatus ≠ .unverified) = false := by simp [hunverified]
  simp only [recordVerificationResult, hruled, Bool.false_eq_true, if_false, bind_eq_ok] at h
  obtain ⟨db₁, happly, h⟩ := h
  obtain ⟨rfl, rfl⟩ := Prod.mk.inj (Except.ok.inj h)
  have hjudged : db.submissions.Replaces (judged (runRecorded db s v) s v).submissions s _ :=
    @Table.replaces_modify _ _ _ _ _ (Submission.judged_id _ _) _ _ hs
  -- the review columns may follow the verdict; the lease goes last
  obtain ⟨s₁, hs₁, hstatus, hattempts⟩ : ∃ s₁, db.submissions.Replaces db₁.submissions s s₁ ∧
      s₁.verificationStatus = v.state ∧ s₁.verificationAttempts = s.verificationAttempts := by
    unfold applyVerdict at happly
    dsimp only at happly
    split at happly
    · obtain ⟨⟨d, db₂⟩, happrove, rfl⟩ := map_eq_ok.mp happly
      have hreviewed : ∀ review reward, db.submissions.Replaces
          ((judged (runRecorded db s v) s v).submissions.modify s.id (·.reviewed review reward)
            (Submission.reviewed_id review reward)) s _ := fun review reward ↦
        hjudged.trans (@Table.replaces_modify _ _ _ _ _ (Submission.reviewed_id review reward) _ _
          hjudged.mem)
      obtain ⟨n, -, ⟨-, rfl⟩ | ⟨-, -, ⟨-, rfl⟩ | ⟨-, -, rfl⟩⟩⟩ := approveAutomatically_ok happrove
      · exact ⟨_, hjudged, rfl, rfl⟩
      · exact ⟨_, hreviewed _ _, rfl, rfl⟩
      · exact ⟨_, hreviewed _ _, rfl, rfl⟩
    · cases happly
      exact ⟨_, hjudged, rfl, rfl⟩
  refine ⟨rfl, s₁.unleased, ?_, hstatus, rfl, rfl, hattempts⟩
  have := @Table.replaces_modify _ _ _ _ _ Submission.unleased_id _ _ hs₁.mem
  rw [hs₁.1] at this
  exact hs₁.trans this

theorem performed_updateHeld {d : Deployment} {q : Queue} {w : String} {op : Op}
    {submissionId : Uuid} {guard : Submission → Bool} {f : Submission → Submission}
    {hf : ∀ s, (f s).id = s.id} {db : RewardDatabase} (entry : Option Entry)
    {expiry : Option Instant} (h : updateHeld submissionId guard f hf q.db = .ok (true, db))
    (hwrite : ∀ s, s.id = submissionId → guard s = true →
      RowWrite d.maxAttempts q.clock w s (f s) entry expiry)
    (hstatus : ∀ s, (f s).verificationStatus = s.verificationStatus) :
    Performed d q w op
      { (({ q with db }).grant w submissionId expiry) with log := entry.toList ++ q.log } := by
  rcases updateHeld_ok h with ⟨hfalse, -⟩ | ⟨s, hs, rfl, hguard, -, rfl⟩
  · cases hfalse
  · exact .wrote hs (replaces_writeSubmission hs f hf) (hwrite s rfl hguard) fun hne ↦
      absurd (hstatus s) hne

theorem perform_cases (d : Deployment) (q : Queue) (w : String) (op : Op) :
    Performed d q w op (perform d q w op) := by
  cases op with
  | claim leaseSeconds served excluded locked =>
    dsimp only [perform]
    split
    · rename_i c db hok
      rcases claimNext_ok hok with ⟨hnone, -⟩ | ⟨s, hs, c', hc, hclaimable, hid, hexpiry, rfl⟩
      · cases hnone
      · cases hc
        obtain ⟨-, hunverified, hfree, hattempts, -⟩ := hclaimable
        rw [hid]
        exact .wrote hs (replaces_writeSubmission hs _ _)
          (.claimed c.leaseUntil hunverified hfree hattempts hexpiry) fun hne ↦ absurd rfl hne
    · exact .unchanged
    · exact .unchanged
  | extend submissionId leaseSeconds =>
    dsimp only [perform]
    split
    · rename_i db hok
      simp only [extend, bind_eq_ok] at hok
      obtain ⟨-, -, hok⟩ := hok
      exact performed_updateHeld none hok
        (fun s _ hheld ↦ .extended _ (of_decide_eq_true hheld)) fun _ ↦ rfl
    · exact .lost submissionId
    · exact .unchanged
  | release submissionId =>
    dsimp only [perform]
    split
    · rename_i held db hok
      cases held with
      | true =>
        exact performed_updateHeld none hok
          (fun s _ hheld ↦ .released (of_decide_eq_true hheld)) fun _ ↦ rfl
      | false =>
        rcases updateHeld_ok hok with ⟨-, rfl, -⟩ | ⟨s, hs, -, -, htrue, -⟩
        · exact .lost submissionId
        · cases htrue
    · exact .unchanged
  | releaseUnconsumed submissionId =>
    dsimp only [perform]
    split
    · rename_i db hok
      exact performed_updateHeld (some (.refunded w submissionId)) hok
        (fun s hid hguard ↦ hid ▸ .refunded (of_decide_eq_true hguard).1
          (of_decide_eq_true hguard).2) fun _ ↦ rfl
    · exact .lost submissionId
    · exact .unchanged
  | record submissionId seen v =>
    dsimp only [perform]
    have hrecord : ∀ {verdict : VerificationRun × Bool} {db : RewardDatabase},
        recordOwned submissionId w q.clock seen v q.db = .ok (some verdict, db) →
        verdict.2 = true ∧ Performed d q w (.record submissionId seen v)
          ((({ q with db }).grant w submissionId none).note (.ruled w submissionId)) := by
      intro verdict db hok
      unfold recordOwned at hok
      split at hok
      · cases hok
      · rename_i s hlocked
        obtain ⟨⟨hs, rfl⟩, hunverified, hleased⟩ := lockOwnedForRecording_eq_some.mp hlocked
        obtain ⟨⟨verdict', db'⟩, hresult, hr⟩ := map_eq_ok.mp hok
        cases hr
        obtain ⟨happlied, s', hreplaces, hstatus, howner, huntil, hattempts⟩ :=
          recordVerificationResult_replaces hs hunverified hresult
        refine ⟨happlied, .wrote hs hreplaces (.ruled s' hunverified hleased ?_ howner huntil
          hattempts) fun _ ↦ ⟨seen, v, rfl⟩⟩
        rw [hstatus, VerifierVerdict.state]
        split <;> nofun
    split
    · exact (hrecord ‹_›).2
    · cases (hrecord ‹_›).1
    · exact .lost submissionId
    · exact .unchanged

/-! ## What everybody else writes -/

/-- Rows keep everything but what a review decides. -/
def Reviewed (db db' : RewardDatabase) : Prop :=
  (∀ s ∈ db.submissions.rows, ∃ review reward, s.reviewed review reward ∈ db'.submissions.rows) ∧
    ∀ s' ∈ db'.submissions.rows, ∃ s ∈ db.submissions.rows, ∃ review reward,
      s' = s.reviewed review reward

theorem reviewed_of_eq {db db' : RewardDatabase} (h : db'.submissions = db.submissions) :
    Reviewed db db' := by
  constructor <;> intro s hs
  · exact ⟨s.manualReviewStatus, s.rewardStatus, h ▸ hs⟩
  · exact ⟨s, h ▸ hs, s.manualReviewStatus, s.rewardStatus, rfl⟩

theorem reviewed_of_modify {db db' : RewardDatabase} {submissionId : Uuid}
    {review : ManualReviewState} {reward : RewardState}
    (h : db'.submissions = db.submissions.modify submissionId (·.reviewed review reward)
      (Submission.reviewed_id review reward)) : Reviewed db db' := by
  constructor <;> intro s hs
  · have hrow := @Table.modify_row _ _ _ _ _ (Submission.reviewed_id review reward) _
      submissionId s hs
    rw [← h] at hrow
    split at hrow
    · exact ⟨_, _, hrow⟩
    · exact ⟨s.manualReviewStatus, s.rewardStatus, hrow⟩
  · rw [h, Table.mem_modify] at hs
    rcases hs with ⟨hs, -⟩ | ⟨s₀, hs₀, -, rfl⟩
    · exact ⟨s, hs, s.manualReviewStatus, s.rewardStatus, rfl⟩
    · exact ⟨s₀, hs₀, _, _, rfl⟩

theorem reviewed_correction {db db' : RewardDatabase} {seen : List Submission}
    {submissionId : Uuid} {supersedesId : ℕ} {r : Ruling} {d : ReviewDecision}
    (h : correctHumanDecision db seen submissionId supersedesId r = .ok (d, db')) :
    Reviewed db db' := by
  obtain ⟨s, -, -, -, current, -, -, rfl⟩ := correctHumanDecision_ok h
  exact reviewed_of_modify rfl

theorem reviewed_settled {db db' : RewardDatabase} {e : RewardEvent} {p : TreasuryPayout}
    {s : Submission} (h : Settled db db' e p s) : Reviewed db db' := by
  rcases h.result with ⟨-, -, -, rfl⟩ | ⟨-, -, -, timeline, rfl⟩
  · exact reviewed_of_eq rfl
  · exact reviewed_of_modify rfl

/-- Nobody but a worker writes the columns a lease is made of. -/
theorem reviewed_client (db : RewardDatabase) {a : Rewards.Step} (ha : OfOthers a) :
    Reviewed db (Rewards.step db a) := by
  have hcommit : ∀ {α : Type} (txn : Txn RewardDatabase RewardError α),
      (∀ x db', txn db = .ok (x, db') → Reviewed db db') → Reviewed db (commit txn db) :=
    fun txn h ↦ @commit_induction _ _ _ txn db (Reviewed db) (reviewed_of_eq rfl) h
  cases a with
  | submit | verify => exact ha.elim
  | decide submissionId seen r =>
    refine hcommit (recordHumanDecision · seen submissionId r) fun _ _ hok ↦ ?_
    obtain ⟨s, -, -, -, -, -, rfl⟩ := recordHumanDecision_ok hok
    exact reviewed_of_modify rfl
  | correct submissionId seen supersedesId r =>
    exact hcommit (correctHumanDecision · seen submissionId supersedesId r) fun _ _ hok ↦
      reviewed_correction hok
  | instruct action r now =>
    refine hcommit (changeInstruction · action r now) fun _ _ hok ↦ ?_
    obtain ⟨actions, timeline, rfl⟩ := changeInstruction_ok hok
    exact reviewed_of_eq rfl
  | withdraw seen r reasonCode notes notesPublic now =>
    refine hcommit (cancelAndWithdraw · seen r reasonCode notes notesPublic now) fun _ _ hok ↦ ?_
    obtain ⟨actions, timeline, ruling, d, hcorrect⟩ := cancelAndWithdraw_ok hok
    have hcorrected : Reviewed { db with actions, timeline } _ := reviewed_correction hcorrect
    exact hcorrected
  | seed r seen =>
    refine hcommit (seedRewardEvent r seen) fun _ _ hok ↦ ?_
    rcases seedRewardEvent_ok hok with rfl | ⟨-, -, -, rfl⟩ <;> exact reviewed_of_eq rfl
  | notify d =>
    dsimp only [Rewards.step, notify]
    split <;> exact reviewed_of_eq rfl
  | mark actions o =>
    refine hcommit (markSubmitted · actions o.sighting) fun _ _ hok ↦ ?_
    rcases markSubmitted_ok hok with ⟨rfl, -⟩ | ⟨e, s, hmarked⟩
    · exact reviewed_of_eq rfl
    · obtain ⟨timeline, rfl⟩ := hmarked.result
      exact reviewed_of_modify rfl
  | revert submitted now =>
    refine hcommit (revertSubmitted · submitted now) fun _ _ hok ↦ ?_
    rcases revertSubmitted_ok hok with ⟨-, rfl, -⟩ | ⟨e, -, -, -, -, -, timeline, rfl⟩ <;>
      exact reviewed_of_eq rfl
  | record o price =>
    refine hcommit (recordPayout · o price) fun _ _ hok ↦ ?_
    rcases recordPayout_ok hok with ⟨-, -, rfl⟩ | ⟨-, -, -, rfl⟩ <;> exact reviewed_of_eq rfl
  | claim actions reserved payoutId =>
    refine hcommit (claimPayout · actions reserved payoutId) fun _ _ hok ↦ ?_
    rcases claimPayout_ok hok with ⟨-, rfl⟩ | ⟨p, -, -, -, e, -, -, -, s, hsettled⟩
    · exact reviewed_of_eq rfl
    · exact reviewed_settled hsettled
  | bind reserved payoutId rewardEventId note =>
    refine hcommit (bindPayout · reserved payoutId rewardEventId note) fun _ _ hok ↦ ?_
    obtain ⟨p, -, -, -, e, -, -, -, s, hsettled⟩ := bindPayout_ok hok
    have hreviewed := reviewed_settled hsettled
    exact hreviewed
  | disregard payoutId note =>
    refine hcommit (disregardPayout · payoutId note) fun _ _ hok ↦ ?_
    obtain ⟨p, -, -, -, rfl⟩ := disregardPayout_ok hok
    exact reviewed_of_eq rfl

/-! ## Counting -/

def Entry.IsClaim (submissionId : Uuid) : Entry → Bool
  | .claimed _ id => id = submissionId
  | _ => false

def Entry.IsRefund (submissionId : Uuid) : Entry → Bool
  | .refunded _ id => id = submissionId
  | _ => false

def Entry.IsVerdict (submissionId : Uuid) : Entry → Bool
  | .ruled _ id => id = submissionId
  | _ => false

/-- How often a submission was claimed, by whomever. -/
def Queue.claims (q : Queue) (submissionId : Uuid) : ℕ :=
  q.log.countP (Entry.IsClaim submissionId)

def Queue.refunds (q : Queue) (submissionId : Uuid) : ℕ :=
  q.log.countP (Entry.IsRefund submissionId)

def Queue.verdicts (q : Queue) (submissionId : Uuid) : ℕ :=
  q.log.countP (Entry.IsVerdict submissionId)

/-- How often one worker claimed it, and gave a claim back. -/
def Queue.claimsBy (q : Queue) (w : String) (submissionId : Uuid) : ℕ :=
  q.log.count (.claimed w submissionId)

def Queue.refundsBy (q : Queue) (w : String) (submissionId : Uuid) : ℕ :=
  q.log.count (.refunded w submissionId)

/-! ## The invariant -/

/-- The claims that stand are the attempts; a worker gives back no more than it took, and what
it holds it has not given back. -/
structure Counted (d : Deployment) (q : Queue) (s : Submission) : Prop where
  nonneg : 0 ≤ s.verificationAttempts
  le_max : s.verificationAttempts ≤ d.maxAttempts
  attempts : s.verificationAttempts = q.claims s.id - q.refunds s.id
  repaid : ∀ w, q.refundsBy w s.id ≤ q.claimsBy w s.id
  held : ∀ w, s.verificationLeaseOwner = some w → q.refundsBy w s.id < q.claimsBy w s.id
  once : q.verdicts s.id ≤ 1
  unruled : s.verificationStatus = .unverified → q.verdicts s.id = 0

/-- What a worker was told it has, it has. -/
def Granted (q : Queue) : Prop :=
  ∀ w id expiry, q.granted w id = some expiry → q.clock ≤ expiry →
    ∃ s ∈ q.db.submissions.rows, s.id = id ∧ s.verificationStatus = .unverified ∧
      s.verificationLeaseOwner = some w ∧ s.verificationLeaseUntil = some expiry

structure Leases (d : Deployment) (q : Queue) : Prop where
  counted : ∀ s ∈ q.db.submissions.rows, Counted d q s
  logged : ∀ entry ∈ q.log, ∃ s ∈ q.db.submissions.rows, s.id = entry.submissionId
  granted : Granted q

/-! ## Steps -/

/-- No worker writes a row another one has a live lease on. -/
theorem RowWrite.eq_of_leasedTo {maxAttempts : ℤ} {now : Instant} {w w' : String}
    {s s' : Submission} {entry : Option Entry} {expiry : Option Instant}
    (h : RowWrite maxAttempts now w s s' entry expiry) (hleased : s.LeasedTo w' now) :
    w' = w := by
  obtain ⟨howner, expiry', hexpiry', hlive⟩ := hleased
  have hheld : ∀ {w : String}, s.HeldBy w → w' = w := fun hheld ↦
    Option.some.inj (howner.symm.trans hheld.2)
  cases h with
  | claimed expiry hunverified hfree => exact absurd (hfree expiry' hexpiry') (not_lt.mpr hlive)
  | extended expiry h => exact hheld h
  | released h => exact hheld h
  | refunded h => exact hheld h
  | ruled s' hunverified h => exact Option.some.inj (howner.symm.trans h.1)

theorem RowWrite.submissionId {maxAttempts : ℤ} {now : Instant} {w : String} {s s' : Submission}
    {entry : Option Entry} {expiry : Option Instant}
    (h : RowWrite maxAttempts now w s s' entry expiry) :
    ∀ e ∈ entry, e.submissionId = s.id := by
  cases h <;> rintro e ⟨⟩ <;> rfl

/-- What is logged of one submission says nothing about another. -/
theorem Counted.of_log {d : Deployment} {q q' : Queue} {s : Submission} {entry : Option Entry}
    (h : Counted d q s) (hlog : q'.log = entry.toList ++ q.log)
    (hentry : ∀ e ∈ entry, e.submissionId ≠ s.id) : Counted d q' s := by
  have hcounts : q'.claims s.id = q.claims s.id ∧ q'.refunds s.id = q.refunds s.id ∧
      q'.verdicts s.id = q.verdicts s.id ∧ (∀ w, q'.claimsBy w s.id = q.claimsBy w s.id) ∧
      ∀ w, q'.refundsBy w s.id = q.refundsBy w s.id := by
    simp only [Queue.claims, Queue.refunds, Queue.verdicts, Queue.claimsBy, Queue.refundsBy, hlog]
    cases entry with
    | none => exact ⟨rfl, rfl, rfl, fun _ ↦ rfl, fun _ ↦ rfl⟩
    | some e =>
      have hne := hentry e rfl
      cases e <;> simp_all [Entry.IsClaim, Entry.IsRefund, Entry.IsVerdict, Entry.submissionId]
  obtain ⟨hclaims, hrefunds, hverdicts, hclaimsBy, hrefundsBy⟩ := hcounts
  refine ⟨h.nonneg, h.le_max, ?_, fun w ↦ ?_, fun w howner ↦ ?_, ?_, fun hunverified ↦ ?_⟩
  · rw [hclaims, hrefunds]
    exact h.attempts
  · rw [hclaimsBy, hrefundsBy]
    exact h.repaid w
  · rw [hclaimsBy, hrefundsBy]
    exact h.held w howner
  · rw [hverdicts]
    exact h.once
  · rw [hverdicts]
    exact h.unruled hunverified

section Log

variable {q q' : Queue} {w : String} {id : Uuid}

theorem counts_claimed (hlog : q'.log = .claimed w id :: q.log) :
    q'.claims id = q.claims id + 1 ∧ q'.refunds id = q.refunds id ∧
      q'.verdicts id = q.verdicts id ∧ q'.claimsBy w id = q.claimsBy w id + 1 ∧
      (∀ w', q.claimsBy w' id ≤ q'.claimsBy w' id) ∧
      ∀ w', q'.refundsBy w' id = q.refundsBy w' id := by
  simp [Queue.claims, Queue.refunds, Queue.verdicts, Queue.claimsBy, Queue.refundsBy, hlog,
    Entry.IsClaim, Entry.IsRefund, Entry.IsVerdict, List.count_cons]

theorem counts_refunded (hlog : q'.log = .refunded w id :: q.log) :
    q'.claims id = q.claims id ∧ q'.refunds id = q.refunds id + 1 ∧
      q'.verdicts id = q.verdicts id ∧ (∀ w', q'.claimsBy w' id = q.claimsBy w' id) ∧
      q'.refundsBy w id = q.refundsBy w id + 1 ∧
      ∀ w', w' ≠ w → q'.refundsBy w' id = q.refundsBy w' id := by
  simp +contextual [Queue.claims, Queue.refunds, Queue.verdicts, Queue.claimsBy, Queue.refundsBy,
    hlog, Entry.IsClaim, Entry.IsRefund, Entry.IsVerdict, eq_comm]

theorem counts_ruled (hlog : q'.log = .ruled w id :: q.log) :
    q'.claims id = q.claims id ∧ q'.refunds id = q.refunds id ∧
      q'.verdicts id = q.verdicts id + 1 ∧ (∀ w', q'.claimsBy w' id = q.claimsBy w' id) ∧
      ∀ w', q'.refundsBy w' id = q.refundsBy w' id := by
  simp [Queue.claims, Queue.refunds, Queue.verdicts, Queue.claimsBy, Queue.refundsBy, hlog,
    Entry.IsClaim, Entry.IsRefund, Entry.IsVerdict]

end Log

/-- A worker's write keeps the books of the row it writes. -/
theorem Counted.write {d : Deployment} {q q' : Queue} {now : Instant} {w : String}
    {s s' : Submission} {entry : Option Entry} {expiry : Option Instant} (h : Counted d q s)
    (hwrite : RowWrite d.maxAttempts now w s s' entry expiry) (hid : s'.id = s.id)
    (hlog : q'.log = entry.toList ++ q.log) : Counted d q' s' := by
  obtain ⟨hnonneg, hmax, hattempts, hrepaid, hheld, honce, hunruled⟩ := h
  cases hwrite with
  | claimed expiry hunverified hfree hlt =>
    obtain ⟨hclaims, hrefunds, hverdicts, hown, hclaimsBy, hrefundsBy⟩ := counts_claimed hlog
    refine ⟨Int.add_nonneg hnonneg one_pos.le, hlt, ?_, fun w' ↦ ?_, ?_, ?_, fun _ ↦ ?_⟩
    · show s.verificationAttempts + 1 = q'.claims s.id - q'.refunds s.id
      omega
    · exact (hrefundsBy w').trans_le ((hrepaid w').trans (hclaimsBy w'))
    · rintro w' ⟨⟩
      show q'.refundsBy w s.id < q'.claimsBy w s.id
      have := hrepaid w
      have := hrefundsBy w
      omega
    · exact hverdicts.trans_le honce
    · exact hverdicts.trans (hunruled hunverified)
  | extended expiry hholds =>
    exact Counted.of_log ⟨hnonneg, hmax, hattempts, hrepaid, hheld, honce, hunruled⟩ hlog nofun
  | released hholds =>
    exact Counted.of_log ⟨hnonneg, hmax, hattempts, hrepaid, nofun, honce, hunruled⟩ hlog nofun
  | refunded hholds hpos =>
    obtain ⟨hclaims, hrefunds, hverdicts, hclaimsBy, hown, hrefundsBy⟩ := counts_refunded hlog
    refine ⟨Int.sub_nonneg.mpr hpos, (Int.sub_le_self _ one_pos.le).trans hmax, ?_, fun w' ↦ ?_,
      nofun, hverdicts.trans_le honce, fun hunverified ↦ hverdicts.trans (hunruled hunverified)⟩
    · show s.verificationAttempts - 1 = q'.claims s.id - q'.refunds s.id
      omega
    · show q'.refundsBy w' s.id ≤ q'.claimsBy w' s.id
      rw [hclaimsBy]
      by_cases hw : w' = w
      · -- the lease the refund is made under is the worker's own
        rw [hw, hown]
        exact hheld w hholds.2
      · rw [hrefundsBy w' hw]
        exact hrepaid w'
  | ruled s' hunverified hleased hruled howner huntil hattempts' =>
    obtain ⟨hclaims, hrefunds, hverdicts, hclaimsBy, hrefundsBy⟩ := counts_ruled hlog
    refine ⟨hattempts' ▸ hnonneg, hattempts' ▸ hmax, ?_, fun w' ↦ ?_, fun w' hw' ↦ ?_, ?_,
      fun h ↦ absurd h hruled⟩
    · rw [hattempts', hid, hclaims, hrefunds]
      exact hattempts
    · rw [hid, hrefundsBy, hclaimsBy]
      exact hrepaid w'
    · cases howner.symm.trans hw'
    · rw [hid, hverdicts, hunruled hunverified]

/-- A row nobody has touched. -/
theorem counted_unlogged (d : Deployment) {q : Queue} {s : Submission} (hs : Unleased s)
    (hunlogged : ∀ e ∈ q.log, e.submissionId ≠ s.id) : Counted d q s := by
  obtain ⟨-, howner, hattempts⟩ := hs
  have hclaims : q.claims s.id = 0 := List.countP_eq_zero.mpr fun e he hclaim ↦
    hunlogged e he (by cases e <;> simp_all [Entry.IsClaim, Entry.submissionId])
  have hrefunds : q.refunds s.id = 0 := List.countP_eq_zero.mpr fun e he hrefund ↦
    hunlogged e he (by cases e <;> simp_all [Entry.IsRefund, Entry.submissionId])
  have hverdicts : q.verdicts s.id = 0 := List.countP_eq_zero.mpr fun e he hverdict ↦
    hunlogged e he (by cases e <;> simp_all [Entry.IsVerdict, Entry.submissionId])
  have hrefundsBy : ∀ w, q.refundsBy w s.id = 0 := fun w ↦
    List.count_eq_zero.mpr fun he ↦ hunlogged _ he rfl
  refine ⟨hattempts.ge, hattempts.trans_le d.maxAttempts_pos.le, ?_, fun w ↦ ?_, fun w hw ↦ ?_,
    ?_, fun _ ↦ hverdicts⟩
  · rw [hattempts, hclaims, hrefunds]
    rfl
  · rw [hrefundsBy]
    exact Nat.zero_le _
  · cases howner.symm.trans hw
  · rw [hverdicts]
    exact Nat.zero_le _

/-! ## The invariant along a run -/

theorem leases_wrote {d : Deployment} {q : Queue} {w : String} {s s' : Submission}
    {entry : Option Entry} {expiry : Option Instant} {db : RewardDatabase}
    (hs : s ∈ q.db.submissions.rows)
    (hreplaces : q.db.submissions.Replaces db.submissions s s')
    (hwrite : RowWrite d.maxAttempts q.clock w s s' entry expiry) (h : Leases d q) :
    Leases d { (({ q with db }).grant w s.id expiry) with log := entry.toList ++ q.log } := by
  have hkept : ∀ r ∈ q.db.submissions.rows, ∃ r' ∈ db.submissions.rows, r'.id = r.id := by
    intro r hr
    by_cases hid : r.id = s.id
    · exact ⟨s', hreplaces.mem, hreplaces.1.trans hid.symm⟩
    · exact ⟨r, (hreplaces.2 r).mpr (Or.inl ⟨hr, hid⟩), rfl⟩
  refine ⟨fun r hr ↦ ?_, fun e he ↦ ?_, fun w' id expiry' hgranted hlive ↦ ?_⟩
  · rcases (hreplaces.2 r).mp hr with ⟨hr, hne⟩ | rfl
    · exact (h.counted r hr).of_log rfl fun e he ↦ (hwrite.submissionId e he).trans_ne (Ne.symm hne)
    · exact (h.counted s hs).write hwrite hreplaces.1 rfl
  · rcases List.mem_append.mp he with he | he
    · exact ⟨s', hreplaces.mem, hreplaces.1.trans
        (hwrite.submissionId e (Option.mem_toList.mp he)).symm⟩
    · obtain ⟨r, hr, hid⟩ := h.logged e he
      obtain ⟨r', hr', hid'⟩ := hkept r hr
      exact ⟨r', hr', hid'.trans hid⟩
  · dsimp only [Queue.grant] at hgranted hlive
    split at hgranted
    · rename_i hnew
      obtain ⟨rfl, rfl⟩ := hnew
      subst hgranted
      refine ⟨s', hreplaces.mem, hreplaces.1, ?_⟩
      cases hwrite with
      | claimed expiry hunverified => exact ⟨hunverified, rfl, rfl⟩
      | extended expiry hheld => exact ⟨hheld.1, hheld.2, rfl⟩
    · rename_i hold
      obtain ⟨r, hr, rfl, hunverified, howner, huntil⟩ := h.granted w' id expiry' hgranted hlive
      refine ⟨r, (hreplaces.2 r).mpr (Or.inl ⟨hr, fun hid ↦ hold ⟨?_, hid⟩⟩), rfl, hunverified,
        howner, huntil⟩
      rw [q.db.submissions.eq_of_key hr hs hid] at howner huntil
      exact hwrite.eq_of_leasedTo ⟨howner, expiry', huntil, hlive⟩

theorem leases_perform {d : Deployment} {q q' : Queue} {w : String} {op : Op}
    (hperform : Performed d q w op q') (h : Leases d q) : Leases d q' := by
  cases hperform with
  | unchanged => exact h
  | lost submissionId =>
    refine ⟨fun s hs ↦ @Counted.of_log _ _ _ _ none (h.counted s hs) rfl nofun, h.logged, ?_⟩
    intro w' id expiry hgranted hlive
    dsimp only [Queue.grant] at hgranted
    split at hgranted
    · cases hgranted
    · exact h.granted w' id expiry hgranted hlive
  | wrote hs hreplaces hwrite => exact leases_wrote hs hreplaces hwrite h

theorem leases_reviewed {d : Deployment} {q : Queue} {db : RewardDatabase}
    (hreviewed : Reviewed q.db db) (h : Leases d q) : Leases d { q with db } := by
  obtain ⟨hkept, hold⟩ := hreviewed
  refine ⟨fun s' hs' ↦ ?_, fun e he ↦ ?_, fun w id expiry hgranted hlive ↦ ?_⟩
  · obtain ⟨s, hs, review, reward, rfl⟩ := hold s' hs'
    obtain ⟨hnonneg, hmax, hattempts, hrepaid, hheld, honce, hunruled⟩ := h.counted s hs
    exact ⟨hnonneg, hmax, hattempts, hrepaid, hheld, honce, hunruled⟩
  · obtain ⟨s, hs, hid⟩ := h.logged e he
    obtain ⟨review, reward, hs'⟩ := hkept s hs
    exact ⟨_, hs', hid⟩
  · obtain ⟨s, hs, hid, hrow⟩ := h.granted w id expiry hgranted hlive
    obtain ⟨review, reward, hs'⟩ := hkept s hs
    exact ⟨_, hs', hid, hrow⟩

/-- Intake adds a row that nobody has touched, or none. -/
theorem submitRow_rows (db : RewardDatabase) (row : Submission) :
    submitRow row db = db ∨ (submitRow row db).submissions.rows = db.submissions.rows ++ [row] ∧
      ∀ s ∈ db.submissions.rows, s.id ≠ row.id := by
  unfold submitRow
  split
  · split
    · rename_i db' hinsert
      have hspec := insertSubmission_spec hinsert
      exact Or.inr ⟨hspec.rows, fun s hs ↦ Table.fresh_of_insert? hspec.fresh s hs⟩
    · exact Or.inl rfl
  · exact Or.inl rfl

theorem leases_submitted {d : Deployment} {q : Queue} {row : Submission} (hrow : Unleased row)
    (h : Leases d q) : Leases d { q with db := submitRow row q.db } := by
  rcases submitRow_rows q.db row with heq | ⟨hrows, hfresh⟩
  · rw [heq]
    exact h
  have hmem : ∀ {s}, s ∈ q.db.submissions.rows → s ∈ (submitRow row q.db).submissions.rows :=
    fun hs ↦ by
      rw [hrows]
      exact List.mem_append_left _ hs
  refine ⟨fun s hs ↦ ?_, fun e he ↦ ?_, fun w id expiry hgranted hlive ↦ ?_⟩
  · rw [hrows] at hs
    rcases List.mem_append.mp hs with hs | hs
    · obtain ⟨hnonneg, hmax, hattempts, hrepaid, hheld, honce, hunruled⟩ := h.counted s hs
      exact ⟨hnonneg, hmax, hattempts, hrepaid, hheld, honce, hunruled⟩
    · -- nothing was logged of it
      obtain rfl := List.mem_singleton.mp hs
      refine counted_unlogged d hrow fun e he hid ↦ ?_
      obtain ⟨s', hs', hid'⟩ := h.logged e he
      exact hfresh s' hs' (hid'.trans hid)
  · obtain ⟨s, hs, hid⟩ := h.logged e he
    exact ⟨s, hmem hs, hid⟩
  · obtain ⟨s, hs, hid, hheld⟩ := h.granted w id expiry hgranted hlive
    exact ⟨s, hmem hs, hid, hheld⟩

theorem Leases.wait {d : Deployment} {q : Queue} (h : Leases d q) (elapsed : ℕ) :
    Leases d { q with clock := q.clock + elapsed } := by
  refine ⟨fun s hs ↦ @Counted.of_log _ _ _ _ none (h.counted s hs) rfl nofun, h.logged,
    fun w id expiry hgranted hlive ↦ h.granted w id expiry hgranted (le_trans ?_ hlive)⟩
  exact Int.le_add_of_nonneg_right (Int.natCast_nonneg elapsed)

theorem leases_step (d : Deployment) (q : Queue) (a : Action) (h : Leases d q) :
    Leases d (step d q a) := by
  have h := h.wait a.elapsed
  cases a with
  | worker w op elapsed => exact leases_perform (perform_cases d _ w op) h
  | submit row elapsed =>
    dsimp only [step]
    split
    · exact leases_submitted ‹_› h
    · exact h
  | client a elapsed =>
    dsimp only [step]
    split
    · exact leases_reviewed (reviewed_client _ ‹_›) h
    · exact h

/-! ## The protocol -/

/-- What a step does about the leases and the verdicts of submissions. -/
structure Respects (d : Deployment) (q : Queue) (a : Action) : Prop where
  /-- a submission leaves UNVERIFIED only through a worker that holds its unexpired lease -/
  ruled : ∀ s ∈ q.db.submissions.rows, ∀ s' ∈ (step d q a).db.submissions.rows, s'.id = s.id →
    s'.verificationStatus ≠ s.verificationStatus → s.verificationStatus = .unverified ∧
      ∃ w seen v elapsed, a = .worker w (.record s.id seen v) elapsed ∧
        s.LeasedTo w (q.clock + elapsed)
  /-- a worker does nothing to a submission another one has a live lease on -/
  kept : ∀ w op elapsed, a = .worker w op elapsed → ∀ s ∈ q.db.submissions.rows,
    ∀ other, other ≠ w → s.LeasedTo other (q.clock + elapsed) →
      s ∈ (step d q a).db.submissions.rows

theorem respects_worker (d : Deployment) (q : Queue) (w : String) (op : Op) (elapsed : ℕ) :
    Respects d q (.worker w op elapsed) := by
  have hperform := perform_cases d { q with clock := q.clock + elapsed } w op
  constructor
  · intro s hs s' hs' hid hstatus
    change s' ∈ (perform d { q with clock := q.clock + elapsed } w op).db.submissions.rows at hs'
    generalize perform d { q with clock := q.clock + elapsed } w op = q' at hperform hs'
    cases hperform with
    | unchanged | lost =>
      rw [q.db.submissions.eq_of_key hs' hs hid] at hstatus
      exact absurd rfl hstatus
    | wrote hs₀ hreplaces hwrite hop =>
      rcases (hreplaces.2 s').mp hs' with ⟨hs', -⟩ | rfl
      · rw [q.db.submissions.eq_of_key hs' hs hid] at hstatus
        exact absurd rfl hstatus
      · obtain rfl := q.db.submissions.eq_of_key hs₀ hs (hreplaces.1.symm.trans hid)
        obtain ⟨seen, v, rfl⟩ := hop hstatus
        cases hwrite with
        | claimed | extended | released | refunded => exact absurd rfl hstatus
        | ruled _ hunverified hleased => exact ⟨hunverified, w, seen, v, elapsed, rfl, hleased⟩
  · rintro _ _ _ ⟨⟩ s hs other hother hleased
    change s ∈ (perform d { q with clock := q.clock + elapsed } w op).db.submissions.rows
    generalize perform d { q with clock := q.clock + elapsed } w op = q' at hperform
    cases hperform with
    | unchanged | lost => exact hs
    | wrote hs₀ hreplaces hwrite =>
      refine (hreplaces.2 s).mpr (Or.inl ⟨hs, fun hid ↦ hother ?_⟩)
      rw [q.db.submissions.eq_of_key hs hs₀ hid] at hleased
      exact hwrite.eq_of_leasedTo hleased

/-- Who is no worker writes no status of a verification. -/
theorem respects_other (d : Deployment) (q : Queue) {a : Action}
    (ha : ∀ w op elapsed, a ≠ .worker w op elapsed) : Respects d q a := by
  refine ⟨fun s hs s' hs' hid hstatus ↦ absurd ?_ hstatus, fun w op elapsed h ↦
    absurd h (ha w op elapsed)⟩
  have hold : s' ∈ q.db.submissions.rows → s'.verificationStatus = s.verificationStatus :=
    fun hs' ↦ congrArg Submission.verificationStatus (q.db.submissions.eq_of_key hs' hs hid)
  cases a with
  | worker w op elapsed => exact absurd rfl (ha w op elapsed)
  | submit row elapsed =>
    dsimp only [step] at hs'
    split at hs'
    · rcases submitRow_rows q.db row with heq | ⟨hrows, hfresh⟩
      · rw [heq] at hs'
        exact hold hs'
      · rw [hrows] at hs'
        rcases List.mem_append.mp hs' with hs' | hs'
        · exact hold hs'
        · rw [List.mem_singleton.mp hs'] at hid
          exact absurd hid.symm (hfresh s hs)
    · exact hold hs'
  | client a elapsed =>
    dsimp only [step] at hs'
    split at hs'
    · obtain ⟨r, hr, review, reward, rfl⟩ := (reviewed_client q.db ‹_›).2 s' hs'
      rw [← q.db.submissions.eq_of_key hr hs hid]
      rfl
    · exact hold hs'

theorem respects_step (d : Deployment) (q : Queue) (a : Action) : Respects d q a := by
  cases a with
  | worker w op elapsed => exact respects_worker d q w op elapsed
  | submit | client => exact respects_other d q nofun

/-- What holds at any time. -/
structure Protocol (d : Deployment) (q : Queue) : Prop where
  /-- one verdict is applied at most -/
  once : ∀ s ∈ q.db.submissions.rows, q.verdicts s.id ≤ 1
  /-- what a worker was told it has until a time to come, it has -/
  granted : Granted q
  /-- two workers do not hold a live lease on one submission -/
  alone : ∀ w w' id expiry expiry', q.granted w id = some expiry → q.clock ≤ expiry →
    q.granted w' id = some expiry' → q.clock ≤ expiry' → w = w'
  bounded : ∀ s ∈ q.db.submissions.rows,
    0 ≤ s.verificationAttempts ∧ s.verificationAttempts ≤ d.maxAttempts
  /-- the attempts are the claims less the refunds, and these were made by who made the claims -/
  attempts : ∀ s ∈ q.db.submissions.rows,
    s.verificationAttempts = q.claims s.id - q.refunds s.id ∧
      ∀ w, q.refundsBy w s.id ≤ q.claimsBy w s.id

theorem Leases.protocol {d : Deployment} {q : Queue} (h : Leases d q) : Protocol d q := by
  refine ⟨fun s hs ↦ (h.counted s hs).once, h.granted, ?_, fun s hs ↦
    ⟨(h.counted s hs).nonneg, (h.counted s hs).le_max⟩, fun s hs ↦
    ⟨(h.counted s hs).attempts, (h.counted s hs).repaid⟩⟩
  intro w w' id expiry expiry' hgranted hlive hgranted' hlive'
  obtain ⟨s, hs, hid, -, howner, -⟩ := h.granted w id expiry hgranted hlive
  obtain ⟨s', hs', hid', -, howner', -⟩ := h.granted w' id expiry' hgranted' hlive'
  rw [q.db.submissions.eq_of_key hs' hs (hid'.trans hid.symm)] at howner'
  exact Option.some.inj (howner.symm.trans howner')

/-- No worker has been at the queue yet. -/
structure Opening (q : Queue) : Prop where
  rows : ∀ s ∈ q.db.submissions.rows, Unleased s
  granted : ∀ w id, q.granted w id = none
  log : q.log = []

theorem Opening.leases (d : Deployment) {q : Queue} (h : Opening q) : Leases d q := by
  refine ⟨fun s hs ↦ counted_unlogged d (h.rows s hs) ?_, ?_, fun w id expiry hgranted ↦ ?_⟩
  · rw [h.log]
    exact nofun
  · rw [h.log]
    exact nofun
  · cases (h.granted w id).symm.trans hgranted

/-- Whatever the workers do, in whatever order and however late: each step respects the leases
of the others, and at any time the attempts are accounted for. -/
theorem verification_leases (d : Deployment) (q : Queue) (hq : Opening q) (as : List Action) :
    Each (step d) (Respects d) q as ∧ Protocol d (run (step d) q as) :=
  ⟨each_of_invariant (fun q a h ↦ leases_step d q a h) (fun q a _ ↦ respects_step d q a)
    (hq.leases d) as, (run_invariant (leases_step d) (hq.leases d) as).protocol⟩

/-! ## An example -/

def exampleDeployment : Deployment := ⟨3, by decide, fun _ ↦ 0⟩

def exampleQueue : Queue := ⟨newcomerDatabase, 0, fun _ _ ↦ none, []⟩

def served : ServedSubmissionKey := ⟨"task", "bundle", "problem"⟩

/-- The first worker's lease expires and a second one takes the submission over.  What the
first does then comes late; the second records its verdict. -/
def lateWorker : List Action :=
  [.worker "first" (.claim 10 [served] [] []) 0,
    .worker "second" (.claim 10 [served] [] []) 20000000,
    .worker "first" (.extend 1 10) 1, .worker "first" (.release 1) 1,
    .worker "first" (.releaseUnconsumed 1) 1, .worker "first" (.record 1 [] acceptance) 1,
    .worker "second" (.record 1 [] acceptance) 1]

theorem late_worker_changes_nothing :
    Each (step exampleDeployment) (Respects exampleDeployment) exampleQueue lateWorker ∧
    Protocol exampleDeployment (run (step exampleDeployment) exampleQueue lateWorker) ∧
    (run (step exampleDeployment) exampleQueue lateWorker).log =
      [.ruled "second" 1, .claimed "second" 1, .claimed "first" 1] ∧
    ∃ s ∈ (run (step exampleDeployment) exampleQueue lateWorker).db.submissions.rows,
      s.verificationStatus = .verified ∧ s.verificationAttempts = 2 := by
  have hopening : Opening exampleQueue := ⟨by decide, fun _ _ ↦ rfl, rfl⟩
  obtain ⟨hsteps, hprotocol⟩ := verification_leases exampleDeployment exampleQueue hopening
    lateWorker
  refine ⟨hsteps, hprotocol, ?_, ?_⟩ <;> decide +kernel

end Conjectures.Verification

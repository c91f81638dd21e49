import Mathlib.Data.Int.Order.Basic
import Mathlib.Data.List.Dedup
import Conjectures.Lib.Linked
import Conjectures.Lib.Transaction
import Conjectures.Db.Rewards

/-!
# Verdicts, decisions and corrections

The lifecycle half of `conjectures_subnet/db/submissions.py`: recording a verifier's verdict,
deciding a submission and correcting a decision.  Each transaction holds the lock of the
submission it writes, so it works on the row as it is.

The other submissions are not locked.  `seen` is what a statement's snapshot shows of them;
that two of them never hold one reward target is the index's doing, not the check's.
-/

namespace Conjectures.Db

open Lib

/-! ## The rows of one submission -/

/-- A decision that binds: evidence is left out. -/
def ReviewDecision.Binds (d : ReviewDecision) (submissionId : Uuid) : Prop :=
  d.submissionId = submissionId ∧ d.kind ≠ .advisory

instance ReviewDecision.decidableBinds (d : ReviewDecision) (submissionId : Uuid) :
    Decidable (d.Binds submissionId) := by
  unfold ReviewDecision.Binds; infer_instance

def bindingDecisions (db : RewardDatabase) (submissionId : Uuid) : List ReviewDecision :=
  db.decisions.rows.filter fun d ↦ d.Binds submissionId

theorem mem_bindingDecisions {db : RewardDatabase} {submissionId : Uuid} {d : ReviewDecision} :
    d ∈ bindingDecisions db submissionId ↔ d ∈ db.decisions.rows ∧ d.Binds submissionId := by
  simp [bindingDecisions]

/-- The current binding decision: the one with the highest id. -/
def latestBindingDecision (db : RewardDatabase) (submissionId : Uuid) : Option ReviewDecision :=
  (bindingDecisions db submissionId).argmax ReviewDecision.id

def ReviewOutcome.state : ReviewOutcome → ManualReviewState
  | .approved => .approved
  | .rejected => .rejected

/-! ## Writes -/

/-- The status a verdict leaves, and why it was refused. -/
def Submission.judged (verdict : VerificationState) (failureReason : Option String)
    (s : Submission) : Submission :=
  { s with verificationStatus := verdict, failureReason := failureReason.or s.failureReason }

def Submission.unleased (s : Submission) : Submission :=
  { s with verificationLeaseUntil := none, verificationLeaseOwner := none }

def Submission.reviewed (review : ManualReviewState) (reward : RewardState) (s : Submission) :
    Submission :=
  { s with manualReviewStatus := review, rewardStatus := reward }

theorem Submission.judged_id (verdict : VerificationState) (failureReason : Option String)
    (s : Submission) : (s.judged verdict failureReason).id = s.id := rfl

theorem Submission.unleased_id (s : Submission) : s.unleased.id = s.id := rfl

theorem Submission.reviewed_id (review : ManualReviewState) (reward : RewardState)
    (s : Submission) : (s.reviewed review reward).id = s.id := rfl

/-- Another submission holds the reward of this one's target. -/
def TargetHeld (rows : List Submission) (s : Submission) : Prop :=
  ∃ o ∈ rows, o.rewardTargetId = s.rewardTargetId ∧ o.id ≠ s.id ∧ o.rewardStatus ≠ .ineligible

instance TargetHeld.decidable (rows : List Submission) (s : Submission) :
    Decidable (TargetHeld rows s) :=
  inferInstanceAs (Decidable (∃ o ∈ rows, _))

/-- Write the two status columns; `submissions_reward_target_reward_unique` has its say. -/
def writeReview (db : RewardDatabase) (s : Submission) (review : ManualReviewState)
    (reward : RewardState) : Except RewardError RewardDatabase := do
  require (reward = .ineligible ∨ ¬ TargetHeld db.submissions.rows s)
    (.integrityError "submissions_reward_target_reward_unique")
  return { db with
    submissions := db.submissions.modify s.id (·.reviewed review reward)
      (Submission.reviewed_id review reward) }

theorem writeReview_ok {db db' : RewardDatabase} {s : Submission} {review : ManualReviewState}
    {reward : RewardState} (h : writeReview db s review reward = .ok db') :
    db' = { db with
      submissions := db.submissions.modify s.id (·.reviewed review reward)
        (Submission.reviewed_id review reward) } := by
  simp only [writeReview, bind_eq_ok] at h
  obtain ⟨-, -, h⟩ := h
  cases h
  rfl

/-- A reward is written only where no other submission holds the target's. -/
theorem writeReview_free {db db' : RewardDatabase} {s : Submission} {review : ManualReviewState}
    {reward : RewardState} (h : writeReview db s review reward = .ok db')
    (hreward : reward ≠ .ineligible) : ¬ TargetHeld db.submissions.rows s := by
  simp only [writeReview, bind_eq_ok, require_eq_ok] at h
  obtain ⟨-, hfree, -⟩ := h
  exact hfree.resolve_left hreward

/-- A decision to be recorded, without its number. -/
structure NewDecision where
  submissionId : Uuid
  decision : ReviewOutcome
  kind : ReviewerKind
  reviewer : String
  policyVersion : String
  reasonCode : String
  notes : Option String
  notesPublic : Option String
  supersedesId : Option ℕ

def NewDecision.row (d : NewDecision) (id : ℕ) : ReviewDecision where
  id := id
  submissionId := d.submissionId
  decision := d.decision
  kind := d.kind
  reviewer := d.reviewer
  policyVersion := d.policyVersion
  reasonCode := d.reasonCode
  notes := d.notes
  notesPublic := d.notesPublic
  supersedesId := d.supersedesId

theorem NewDecision.row_id (d : NewDecision) (id : ℕ) : (d.row id).id = id := rfl

/-- Insert a decision, or report the constraint that refuses it. -/
def insertDecision (db : RewardDatabase) (d : NewDecision) :
    Except RewardError (ReviewDecision × RewardDatabase) := do
  require (1 ≤ d.reviewer.length ∧ d.reviewer.length ≤ 255) (.integrityError "reviewer_nonempty")
  require (∀ text ∈ d.notesPublic, 1 ≤ text.length ∧ text.length ≤ 100000)
    (.integrityError "review_notes_public_length")
  require (∀ id ∈ d.supersedesId,
      ∃ d' ∈ db.decisions.rows, d'.id = id ∧ d'.submissionId = d.submissionId)
    (.integrityError "review_supersedes_same_submission")
  require (∀ id ∈ d.supersedesId, ∀ d' ∈ db.decisions.rows,
      ¬ (d'.submissionId = d.submissionId ∧ d'.supersedesId = some id))
    (.integrityError "review_decisions_supersedes_unique")
  return (d.row db.decisions.nextId,
    { db with decisions := db.decisions.append d.row d.row_id })

theorem insertDecision_ok {db db' : RewardDatabase} {d : NewDecision} {r : ReviewDecision}
    (h : insertDecision db d = .ok (r, db')) : r = d.row db.decisions.nextId ∧
      db' = { db with decisions := db.decisions.append d.row d.row_id } := by
  simp only [insertDecision, bind_eq_ok] at h
  obtain ⟨-, -, -, -, -, -, -, -, h⟩ := h
  cases h
  exact ⟨rfl, rfl⟩

/-! ## What the problem's other submissions say -/

/-- What a transaction sees: its own row as it has written it, the others as committed. -/
def Submission.among (s : Submission) (seen : List Submission) : List Submission :=
  s :: seen.filter fun o ↦ o.id ≠ s.id

/-- The other submission holding this reward target's single reward, if any. -/
def rewardTargetHolder (seen : List Submission) (s : Submission) : Option Uuid :=
  (seen.find? fun o ↦ o.rewardTargetId = s.rewardTargetId ∧ o.id ≠ s.id ∧
    o.rewardStatus ≠ .ineligible).map Submission.id

/-- Which task modes of this problem have a Lean-valid proof. -/
def problemVerifiedModes (seen : List Submission) (s : Submission) : List TaskMode :=
  (((s.among seen).filter fun o ↦
    o.problemId = s.problemId ∧ o.verificationStatus = .verified).map (·.taskMode)).dedup

/-! ## The automatic decision -/

def Submission.automatic (s : Submission) (decision : ReviewOutcome) (kind : ReviewerKind)
    (reasonCode : String) (notes : Option String) : NewDecision where
  submissionId := s.id
  decision := decision
  kind := kind
  reviewer := "system"
  policyVersion := s.reviewPolicyVersion
  reasonCode := reasonCode
  notes := notes
  notesPublic := none
  supersedesId := none

/-- The note on a problem that was both proved and refuted. -/
def contradictedNotes (modes : List TaskMode) : String :=
  "problem verified in both modes: " ++
    ", ".intercalate ((modes.map TaskMode.text).mergeSort (· ≤ ·))

/-- Record the automatic decision and make the submission eligible, unless the problem is
contradicted or its reward is spent. -/
def approveAutomatically (db : RewardDatabase) (seen : List Submission) (s : Submission) :
    Except RewardError (ReviewDecision × RewardDatabase) :=
  let modes := problemVerifiedModes seen s
  if 1 < modes.length then
    insertDecision db (s.automatic .rejected .advisory "PROBLEM_VERIFIED_IN_BOTH_MODES"
      (some (contradictedNotes modes)))
  else
    match rewardTargetHolder seen s with
    | some holder => do
      let (superseded, db) ← insertDecision db (s.automatic .rejected .automatic
        "PROBLEM_ALREADY_AWARDED"
        (some ("reward target " ++ s.rewardTargetId ++ " is already held by " ++ toString holder)))
      -- the reward stays as it is: the proof is valid, but the reward is spent
      let db ← writeReview db s .rejected s.rewardStatus
      return (superseded, db)
    | none => do
      let (decision, db) ← insertDecision db (s.automatic .approved .automatic
        "AUTO_REVIEW_DISABLED" none)
      let db ← writeReview db s .approved .eligible
      return (decision, db)

/-! ## The verdict -/

/-- What a verifier run reports. -/
structure VerifierVerdict where
  accepted : Bool
  reasonCode : String
  stage : String
  verifierVersion : String
  containerDigest : Digest
  sandboxMode : String
  checks : Option (List (String × Bool))
  report : Option Bytes
  startedAt : Instant
  finishedAt : Instant

def VerifierVerdict.run (v : VerifierVerdict) (s : Submission) (id : ℕ) : VerificationRun where
  id := id
  submissionId := s.id
  taskBundleSha256 := s.taskBundleSha256
  proofDigest := s.proofDigest
  verifierVersion := v.verifierVersion
  containerDigest := v.containerDigest
  sandboxMode := v.sandboxMode
  accepted := v.accepted
  reasonCode := v.reasonCode
  stage := v.stage
  checks := v.checks
  report := v.report
  startedAt := v.startedAt
  finishedAt := v.finishedAt

theorem VerifierVerdict.run_id (v : VerifierVerdict) (s : Submission) (id : ℕ) :
    (v.run s id).id = id := rfl

def VerifierVerdict.state (v : VerifierVerdict) : VerificationState :=
  if v.accepted then .verified else .rejected

/-- The verdict decides the submission; without manual review it approves it too. -/
def applyVerdict (db : RewardDatabase) (seen : List Submission) (s : Submission)
    (v : VerifierVerdict) : Except RewardError RewardDatabase :=
  let failureReason := if v.accepted then none else some v.reasonCode
  let db := { db with
    submissions := db.submissions.modify s.id (·.judged v.state failureReason)
      (Submission.judged_id v.state failureReason) }
  if v.accepted ∧ s.manualReviewRequired = false then
    (approveAutomatically db seen (s.judged v.state failureReason)).map (·.2)
  else .ok db

/-- Record one completed run; the first one decides the submission.  Returns the run and
whether it was the one. -/
def recordVerificationResult (db : RewardDatabase) (seen : List Submission) (s : Submission)
    (v : VerifierVerdict) : Except RewardError ((VerificationRun × Bool) × RewardDatabase) := do
  let run := v.run s db.runs.nextId
  let db := { db with runs := db.runs.append (v.run s) (v.run_id s) }
  let alreadyRuled := decide (s.verificationStatus ≠ .unverified)
  let db ← if alreadyRuled then .ok db else applyVerdict db seen s v
  return ((run, !alreadyRuled), { db with
    submissions := db.submissions.modify s.id Submission.unleased Submission.unleased_id })

/-! ## Human decisions -/

/-- What a reviewer says. -/
structure Ruling where
  decision : ReviewOutcome
  reasonCode : String
  reviewer : String
  notes : Option String
  notesPublic : Option String

/-- The row of a ruling, taken under the policy the submission was accepted under. -/
def Ruling.of (r : Ruling) (s : Submission) (supersedesId : Option ℕ) : NewDecision where
  submissionId := s.id
  decision := r.decision
  kind := .human
  reviewer := r.reviewer
  policyVersion := s.reviewPolicyVersion
  reasonCode := r.reasonCode
  notes := r.notes
  notesPublic := r.notesPublic
  supersedesId := supersedesId

/-- What is to be approved asks first who holds the target. -/
def requireTargetFree (approves : Prop) [Decidable approves] (seen : List Submission)
    (s : Submission) (message : String) : Except RewardError Unit :=
  if approves then
    match rewardTargetHolder seen s with
    | some holder => .error (.recordConflict (.targetHeld message s.rewardTargetId holder))
    | none => .ok ()
  else .ok ()

/-- The submission, which must have been verified. -/
def verifiedSubmission (db : RewardDatabase) (submissionId : Uuid) :
    Except RewardError Submission := do
  let s ← need (db.submissions.find? submissionId) (.recordNotFound "no such submission")
  require (s.verificationStatus = .verified) (.recordNotFound "no such submission")
  return s

theorem verifiedSubmission_ok {db : RewardDatabase} {submissionId : Uuid} {s : Submission}
    (h : verifiedSubmission db submissionId = .ok s) :
    s ∈ db.submissions.rows ∧ s.id = submissionId ∧ s.verificationStatus = .verified := by
  simp only [verifiedSubmission, bind_eq_ok, need_eq_ok, require_eq_ok,
    Table.find?_eq_some] at h
  obtain ⟨s', ⟨hmem, hid⟩, -, hverified, h⟩ := h
  cases h
  exact ⟨hmem, hid, hverified⟩

/-- The reward a ruling leaves. -/
def ReviewOutcome.reward : ReviewOutcome → RewardState
  | .approved => .eligible
  | .rejected => .ineligible

/-- Record the first binding decision of a submission and move the reward with it. -/
def recordHumanDecision (db : RewardDatabase) (seen : List Submission) (submissionId : Uuid)
    (r : Ruling) : Except RewardError (ReviewDecision × RewardDatabase) := do
  let s ← verifiedSubmission db submissionId
  require (s.manualReviewStatus = .unreviewed)
    (.recordConflict (.alreadyDecided s.manualReviewStatus))
  require (s.rewardStatus = .ineligible) (.recordConflict (.alreadyInFlight s.rewardStatus))
  requireTargetFree (r.decision = .approved) seen s
    ("another submission already holds this reward target's reward; reject this one " ++
      "as DUPLICATE_OF_EARLIER_SUBMISSION instead")
  let (recorded, db) ← insertDecision db (r.of s none)
  let db ← writeReview db s r.decision.state r.decision.reward
  return (recorded, db)

/-! ## Corrections -/

/-- Nothing was ever sent for this obligation. -/
def RewardEvent.Unsigned (e : RewardEvent) : Prop :=
  e.status = .pending ∧ e.chainObserved = false ∧ e.extrinsicReference = none ∧
    e.submittedBlock = none ∧ e.finalizedBlock = none ∧ e.submittedAt = none ∧
    e.confirmedAt = none ∧ e.failureReason = none

instance RewardEvent.decidableUnsigned (e : RewardEvent) : Decidable e.Unsigned := by
  unfold RewardEvent.Unsigned; infer_instance

/-- The latest action on an instruction. -/
def latestAction (actions : List PayoutInstructionAction) (rewardEventId : ℕ) :
    Option PayoutInstructionAction :=
  (actions.filter fun a ↦ a.rewardEventId = rewardEventId).argmax PayoutInstructionAction.id

/-- The instruction was not cancelled, or was restored since. -/
def InstructionEnabled (actions : List PayoutInstructionAction) (rewardEventId : ℕ) : Prop :=
  (latestAction actions rewardEventId).map (·.action) ≠ some .cancel

instance InstructionEnabled.decidable (actions : List PayoutInstructionAction)
    (rewardEventId : ℕ) : Decidable (InstructionEnabled actions rewardEventId) := by
  unfold InstructionEnabled; infer_instance

/-- Whether an instruction or a transaction still blocks a withdrawal. -/
def RewardEventExists (db : RewardDatabase) (submissionId : Uuid) : Prop :=
  ∃ e ∈ db.events.rows, e.submissionId = submissionId ∧
    (¬ e.Unsigned ∨ InstructionEnabled db.actions.rows e.id)

instance RewardEventExists.decidable (db : RewardDatabase) (submissionId : Uuid) :
    Decidable (RewardEventExists db submissionId) :=
  inferInstanceAs (Decidable (∃ e ∈ _, _))

/-- The index has the last word on a stale correction. -/
def correctionError (current : ReviewDecision) : RewardError → RewardError
  | .integrityError "review_decisions_supersedes_unique" => .recordConflict (.stale current)
  | e => e

/-- Correct a binding decision by appending the row that supersedes it. -/
def correctHumanDecision (db : RewardDatabase) (seen : List Submission) (submissionId : Uuid)
    (supersedesId : ℕ) (r : Ruling) : Except RewardError (ReviewDecision × RewardDatabase) := do
  let s ← verifiedSubmission db submissionId
  let current ← need (latestBindingDecision db submissionId)
    (.recordConflict (.notDecided s.manualReviewStatus))
  require (current.id = supersedesId) (.recordConflict (.stale current))
  require (¬ (current.decision = .approved ∧ r.decision = .rejected ∧
      (s.rewardStatus = .rewarded ∨ s.rewardStatus = .failed ∨ RewardEventExists db submissionId)))
    (.recordConflict (.alreadyPaid s.rewardStatus))
  requireTargetFree (current.decision = .rejected ∧ r.decision = .approved) seen s
    ("another submission already holds this reward target's reward; this rejection " ++
      "cannot be corrected to an approval")
  let (corrected, db) ← (insertDecision db (r.of s (some current.id))).mapError
    (correctionError current)
  let db ← writeReview db s r.decision.state r.decision.reward
  return (corrected, db)

end Conjectures.Db

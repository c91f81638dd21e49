import Conjectures.Lib.Run
import Conjectures.Db.Intents
import Conjectures.Db.Payouts
import Conjectures.Db.Submissions

/-!
# The transactions that meet at a reward

Verifiers, reviewers, operators, the payout notifier and the payout watcher write the same
rows.  The steps of this system are their transactions, in any order and any number.  A
transaction locks the obligation, the payout and the submission it works on, and runs as one
step; what it reads without a lock is a snapshot of its own.

`payouts.confirm`, which settles an obligation and records no payout, is called by none of
them and is left out.
-/

namespace Conjectures.Rewards

open Lib Db

/-! ## Intake and obligations -/

/-- A submission nothing has happened to. -/
def Fresh (s : Submission) : Prop :=
  s.verificationStatus = .unverified ∧ s.manualReviewStatus = .unreviewed ∧
    s.rewardStatus = .ineligible

instance Fresh.decidable (s : Submission) : Decidable (Fresh s) := by
  unfold Fresh; infer_instance

/-- Both ways of intake insert fresh rows. -/
theorem fresh_row (r : NewSubmission) (id : Uuid) : Fresh (r.row id) := ⟨rfl, rfl, rfl⟩

theorem fresh_submission (i : SubmissionIntent) (c : Confirmation) (requestDigest
    proofSha256 : Digest) (creditLedgerId : ℕ) :
    Fresh (i.submission c requestDigest proofSha256 creditLedgerId) := ⟨rfl, rfl, rfl⟩

/-- A fresh row is inserted, on either path of intake. -/
def submitRow (row : Submission) (db : RewardDatabase) : RewardDatabase :=
  if Fresh row then
    match insertSubmission db.toDatabase row with
    | .ok db' => { db with toDatabase := db' }
    | .error _ => db
  else db

/-- An obligation the notifier seeds. -/
structure NewReward where
  submissionId : Uuid
  eligibilityReason : String
  amountRao : Rao
  destinationColdkey : Ss58
  createdAt : Instant

def NewReward.generationKey (r : NewReward) : String :=
  "submission:" ++ toString r.submissionId

def NewReward.row (r : NewReward) (id : ℕ) : RewardEvent where
  id := id
  submissionId := r.submissionId
  eligibilityReason := r.eligibilityReason
  amountRao := r.amountRao
  destinationColdkey := r.destinationColdkey
  destinationHotkey := none
  status := .pending
  chainObserved := false
  extrinsicReference := none
  submittedBlock := none
  finalizedBlock := none
  failureReason := none
  generationKey := some r.generationKey
  createdAt := r.createdAt
  submittedAt := none
  confirmedAt := none

theorem NewReward.row_id (r : NewReward) (id : ℕ) : (r.row id).id = id := rfl

/-- Insert an obligation for an eligible submission, once.  The trigger that asks for its
eligibility reads a snapshot of its own, `seen`; the prices it checks are any. -/
def seedRewardEvent (r : NewReward) (seen : Submission) : Txn RewardDatabase RewardError Unit :=
  fun db ↦
    if ∃ e ∈ db.events.rows, e.generationKey = some r.generationKey then .ok ((), db)
    else do
      require (seen.id = r.submissionId ∧ seen.rewardStatus = .eligible)
        (.integrityError "reward_event_requires_eligible_submission")
      require (∃ s ∈ db.submissions.rows, s.id = r.submissionId)
        (.integrityError "reward_events_submission_id_fkey")
      require (0 < r.amountRao) (.integrityError "reward_amount_positive")
      return ((), { db with events := db.events.append r.row r.row_id })

/-- The state of one notification becomes what it becomes. -/
def notify (d : PayoutDiscordDelivery) (db : RewardDatabase) : RewardDatabase :=
  match db.notifications.insert? d with
  | some notifications => { db with notifications }
  | none => { db with
      notifications := db.notifications.modify d.key (fun d' ↦ { d' with status := d.status })
        fun _ ↦ rfl }

/-! ## Steps -/

/-- One transaction of one client. -/
inductive Step where
  | submit (row : Submission)
  /-- a worker records a verdict on the row it locked -/
  | verify (submissionId : Uuid) (seen : List Submission) (v : VerifierVerdict)
  | decide (submissionId : Uuid) (seen : List Submission) (r : Ruling)
  | correct (submissionId : Uuid) (seen : List Submission) (supersedesId : ℕ) (r : Ruling)
  | instruct (action : InstructionAction) (r : InstructionRequest) (now : Instant)
  | withdraw (seen : List Submission) (r : InstructionRequest)
      (reasonCode notes notesPublic : String) (now : Instant)
  | seed (r : NewReward) (seen : Submission)
  | notify (d : PayoutDiscordDelivery)
  | mark (actions : List PayoutInstructionAction) (o : ObservedPayout)
  | revert (submitted : SubmittedPayout) (now : Instant)
  | record (o : ObservedPayout) (price : Option (ℚ × Instant))
  | claim (actions : List PayoutInstructionAction) (reserved : Bool) (payoutId : ℕ)
  | bind (reserved : Bool) (payoutId rewardEventId : ℕ) (note : String)
  | disregard (payoutId : ℕ) (note : String)

/-- The worker's transaction: the locked row, then the verdict. -/
def verify (submissionId : Uuid) (seen : List Submission) (v : VerifierVerdict) :
    Txn RewardDatabase RewardError (VerificationRun × Bool) := fun db ↦ do
  let s ← need (db.submissions.find? submissionId) (.recordNotFound "no such submission")
  recordVerificationResult db seen s v

/-- What a step leaves in the database.  A transaction that refuses leaves nothing. -/
def step (db : RewardDatabase) : Step → RewardDatabase
  | .submit row => submitRow row db
  | .verify submissionId seen v => commit (verify submissionId seen v) db
  | .decide submissionId seen r => commit (recordHumanDecision · seen submissionId r) db
  | .correct submissionId seen supersedesId r =>
    commit (correctHumanDecision · seen submissionId supersedesId r) db
  | .instruct action r now => commit (changeInstruction · action r now) db
  | .withdraw seen r reasonCode notes notesPublic now =>
    commit (cancelAndWithdraw · seen r reasonCode notes notesPublic now) db
  | .seed r seen => commit (seedRewardEvent r seen) db
  | .notify d => notify d db
  | .mark actions o => commit (markSubmitted · actions o.sighting) db
  | .revert submitted now => commit (revertSubmitted · submitted now) db
  | .record o price => commit (recordPayout · o price) db
  | .claim actions reserved payoutId => commit (claimPayout · actions reserved payoutId) db
  | .bind reserved payoutId rewardEventId note =>
    commit (bindPayout · reserved payoutId rewardEventId note) db
  | .disregard payoutId note => commit (disregardPayout · payoutId note) db

/-! ## An example -/

/-- A submission as intake leaves it. -/
def newcomer : Submission :=
  NewSubmission.row
    { signerColdkey := "miner"
      idempotencyKey := 1
      requestDigest := "request"
      taskId := "task"
      taskBundleSha256 := "bundle"
      problemId := "problem"
      rewardTargetId := "target"
      taskMode := .formalized
      proofContent := []
      proofSha256 := "proof"
      paymentReference := "5-1-1"
      paymentSender := "miner"
      paymentAmountRao := 10
      paymentBlock := 5
      signerSignature := []
      manualReviewRequired := true
      reviewPolicyVersion := "policy"
      bountyAmountRao := 100
      bountyPolicyVersion := "bounty"
      bountyInputs := none
      publicCredit := none } 1

def newcomerDatabase : RewardDatabase :=
  { RewardDatabase.empty with submissions := ⟨[newcomer], List.nodup_singleton _⟩ }

def acceptance : VerifierVerdict where
  accepted := true
  reasonCode := "OK"
  stage := "complete"
  verifierVersion := "1"
  containerDigest := "container"
  sandboxMode := "strict"
  checks := none
  report := none
  startedAt := 0
  finishedAt := 1

end Conjectures.Rewards

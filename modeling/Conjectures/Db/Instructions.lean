import Mathlib.Data.List.DropRight
import Conjectures.Db.Reviews

/-!
# Payout instructions

`conjectures_subnet/db/payout_instructions.py`: the audited cancellation of an unsigned
payout instruction, its restoration, and the withdrawal of an approval in one transaction
with the cancellation.
-/

namespace Conjectures.Db

open Lib

/-! ## Text -/

/-- The characters `str.strip` takes for white space. -/
def IsSpace (c : Char) : Prop :=
  c.toNat ∈ [0x20, 0x85, 0xa0, 0x1680, 0x2028, 0x2029, 0x202f, 0x205f, 0x3000] ∨
    (0x09 ≤ c.toNat ∧ c.toNat ≤ 0x0d) ∨ (0x1c ≤ c.toNat ∧ c.toNat ≤ 0x1f) ∨
    (0x2000 ≤ c.toNat ∧ c.toNat ≤ 0x200a)

instance IsSpace.decidable (c : Char) : Decidable (IsSpace c) := by
  unfold IsSpace; infer_instance

/-- `str.strip`. -/
def strip (text : String) : String :=
  String.ofList ((text.toList.dropWhile fun c ↦ IsSpace c).rdropWhile fun c ↦ IsSpace c)

/-- A text without white space is left as it is. -/
theorem strip_eq_self {text : String} (h : ∀ c ∈ text.toList, ¬ IsSpace c) : strip text = text := by
  have hspace : ∀ c ∈ text.toList, decide (IsSpace c) = false := fun c hc ↦ decide_eq_false (h c hc)
  have hleft : text.toList.dropWhile (fun c ↦ IsSpace c) = text.toList := by
    cases hlist : text.toList with
    | nil => rfl
    | cons c rest =>
      have hc := hspace c (hlist ▸ List.mem_cons_self)
      simp [hc]
  have hright : text.toList.rdropWhile (fun c ↦ IsSpace c) = text.toList :=
    List.rdropWhile_eq_self_iff.mpr fun hne ↦ by
      simpa using h _ (List.getLast_mem hne)
  rw [strip, hleft, hright, String.ofList_toList]

theorem not_isSpace_of_isDigit {c : Char} (h : c.isDigit) : ¬ IsSpace c := by
  obtain ⟨hlow, hhigh⟩ := Char.isDigit_iff_toNat.mp h
  change 48 ≤ c.toNat at hlow
  change c.toNat ≤ 57 at hhigh
  intro hspace
  simp only [IsSpace, List.mem_cons, List.not_mem_nil, or_false] at hspace
  omega

/-! ## The chain check -/

def refuse (message reasonCode : String) : RewardError :=
  .recordConflict (.instruction message reasonCode)

/-- Microseconds in a second. -/
def second : ℤ := 1000000

/-- Require a recent explicit operator check. -/
def validateChainEvidence (evidence : ChainEvidence) (now : Instant) :
    Except RewardError Unit := do
  let checked ← need evidence.checkedAt
    (refuse "missing dated chain check" "PAYOUT_CHAIN_CHECK_REQUIRED")
  require (0 ≤ now - checked ∧ now - checked ≤ 120 * second)
    (refuse "chain check is stale or future-dated" "PAYOUT_CHAIN_CHECK_STALE")
  require (evidence.network = some "finney" ∧ (evidence.multisigAddress.getD "") ≠ "" ∧
      evidence.pendingMultisigCount = some 0 ∧ evidence.noMatchingChainTransfer = some true ∧
      (evidence.finalizedBlockHash.getD "") ≠ "")
    (refuse "a clear multisig and chain check is required" "PAYOUT_CHAIN_CHECK_REQUIRED")

/-! ## Changing an instruction -/

def reviewerRole : String := "REVIEWER"

def adminRole : String := "ADMIN"

/-- A request to change one instruction. -/
structure InstructionRequest where
  rewardEventId : ℕ
  submissionId : Uuid
  expectedReviewId : ℕ
  expectedActionId : Option ℕ
  reviewer : Uuid
  reason : String
  chainEvidence : ChainEvidence

/-- A transfer that may already have paid the obligation, binding or not. -/
def TransferObserved (db : RewardDatabase) (e : RewardEvent) : Prop :=
  ∃ p ∈ db.payouts.rows, p.destinationColdkey = e.destinationColdkey ∧
    p.amountRao = e.amountRao ∧ e.createdAt - 5 * 60 * second ≤ p.blockTimestamp

instance TransferObserved.decidable (db : RewardDatabase) (e : RewardEvent) :
    Decidable (TransferObserved db e) :=
  inferInstanceAs (Decidable (∃ p ∈ _, _))

def InstructionRequest.row (r : InstructionRequest) (action : InstructionAction)
    (decisionId id : ℕ) : PayoutInstructionAction where
  id := id
  rewardEventId := r.rewardEventId
  action := action
  actor := toString r.reviewer
  reason := strip r.reason
  reviewDecisionId := decisionId
  chainEvidence := r.chainEvidence

theorem InstructionRequest.row_id (r : InstructionRequest) (action : InstructionAction)
    (decisionId id : ℕ) : (r.row action decisionId id).id = id := rfl

/-- A timeline entry, without its number. -/
structure NewTimelineEntry where
  submissionId : Uuid
  kind : String
  detail : String
  context : TimelineContext
  actor : String
  occurredAt : Option Instant

def NewTimelineEntry.row (t : NewTimelineEntry) (id : ℕ) : SubmissionEvent :=
  ⟨id, t.submissionId, t.kind, t.detail, t.context, t.actor, t.occurredAt⟩

theorem NewTimelineEntry.row_id (t : NewTimelineEntry) (id : ℕ) : (t.row id).id = id := rfl

def addTimeline (db : RewardDatabase) (t : NewTimelineEntry) : RewardDatabase :=
  { db with timeline := db.timeline.append t.row t.row_id }

def InstructionAction.kind : InstructionAction → String
  | .cancel => "PAYOUT_INSTRUCTION_CANCELLED"
  | .restore => "PAYOUT_INSTRUCTION_RESTORED"

/-- Insert the action and its timeline entry. -/
def insertAction (db : RewardDatabase) (r : InstructionRequest) (action : InstructionAction)
    (decisionId : ℕ) : Except RewardError (PayoutInstructionAction × RewardDatabase) := do
  let record := r.row action decisionId db.actions.nextId
  require (record.reason.length ≤ 20000) (.integrityError "payout_instruction_reason_nonempty")
  let actions := db.actions.append (r.row action decisionId) (r.row_id action decisionId)
  let db := { db with actions }
  return (record, addTimeline db
    ⟨r.submissionId, action.kind, strip r.reason,
      .instruction r.rewardEventId record.id decisionId, toString r.reviewer, none⟩)

/-- Cancel or restore an instruction nothing was ever sent for. -/
def changeInstruction (db : RewardDatabase) (action : InstructionAction)
    (r : InstructionRequest) (now : Instant) :
    Except RewardError (PayoutInstructionAction × RewardDatabase) := do
  require (strip r.reason ≠ "")
    (.valueError "CANCEL/RESTORE and a nonempty reason are required")
  validateChainEvidence r.chainEvidence now
  require ((r.reviewer, reviewerRole) ∈ db.roles ∨ (r.reviewer, adminRole) ∈ db.roles)
    (refuse "reviewer role required" "PAYOUT_REVIEWER_REQUIRED")
  let event ← need (db.events.find? r.rewardEventId)
    (.recordNotFound "payout does not belong to this submission")
  require (event.submissionId = r.submissionId)
    (.recordNotFound "payout does not belong to this submission")
  let decision ← need (latestBindingDecision db r.submissionId)
    (refuse "review changed" "REVIEW_CORRECTION_STALE")
  require (decision.id = r.expectedReviewId)
    (refuse "review changed" "REVIEW_CORRECTION_STALE")
  require event.Unsigned
    (refuse "payout has transaction or failure history" "PAYOUT_NOT_UNSIGNED")
  require (¬ TransferObserved db event)
    (refuse "matching treasury transfer exists" "PAYOUT_CHAIN_TRANSFER_EXISTS")
  require (∀ d ∈ db.notifications.rows, d.rewardEventId = event.id → d.status ≠ .sending)
    (refuse "a notification is in flight" "PAYOUT_NOTIFICATION_IN_FLIGHT")
  let latest := latestAction db.actions.rows event.id
  require (latest.map (·.id) = r.expectedActionId)
    (refuse "instruction changed" "PAYOUT_INSTRUCTION_STALE")
  require (latest.map (·.action) ≠ some action)
    (refuse "instruction already has this disposition" "PAYOUT_INSTRUCTION_UNCHANGED")
  require (action = .restore → latest.map (·.action) = some .cancel)
    (refuse "only a cancellation can be restored" "PAYOUT_NOT_CANCELLED")
  let s ← need (db.submissions.find? r.submissionId) (.integrityError "reward_events_submission")
  require (s.manualReviewStatus = .approved ∧ s.rewardStatus = .eligible)
    (refuse "instruction changes require an approved eligible review" "PAYOUT_NOT_ELIGIBLE")
  insertAction db r action decision.id

/-- A changed instruction is a row more, and a line in the timeline. -/
theorem changeInstruction_ok {db db' : RewardDatabase} {action : InstructionAction}
    {r : InstructionRequest} {now : Instant} {record : PayoutInstructionAction}
    (h : changeInstruction db action r now = .ok (record, db')) :
    ∃ (actions : Table PayoutInstructionAction.id) (timeline : Table SubmissionEvent.id),
      db' = { db with actions, timeline } := by
  simp only [changeInstruction, insertAction, bind_eq_ok] at h
  obtain ⟨-, -, -, -, -, -, event, -, -, -, decision, -, -, -, -, -, -, -, -, -, -, -, -, -, -, -,
    s, -, -, -, -, -, h⟩ := h
  cases h
  exact ⟨_, _, rfl⟩

/-! ## Withdrawing an approval -/

/-- `DISQUALIFICATION_CODES`: the published reasons a reward is refused for. -/
def disqualificationCodes : List String :=
  ["ADMITTED_DEPENDENCY", "TRIVIALISED_STATEMENT", "FORBIDDEN_IMPORT", "UNPERMITTED_AXIOM",
    "NOT_NOVEL", "PRIOR_EXTERNAL_FORMALIZATION", "DUPLICATE_OF_EARLIER_SUBMISSION",
    "MISATTRIBUTED_WORK", "ABUSE"]

/-- Suppress the instruction and append a rejection, in one transaction. -/
def cancelAndWithdraw (db : RewardDatabase) (seen : List Submission) (r : InstructionRequest)
    (reasonCode notes notesPublic : String) (now : Instant) :
    Except RewardError ((PayoutInstructionAction × ReviewDecision) × RewardDatabase) := do
  require (reasonCode ∈ disqualificationCodes ∧ strip notes ≠ "" ∧ strip notesPublic ≠ "")
    (.valueError "published rejection code and internal/public rationale required")
  let (action, db) ← changeInstruction db .cancel r now
  let (decision, db) ← correctHumanDecision db seen r.submissionId r.expectedReviewId
    ⟨.rejected, reasonCode, toString r.reviewer, some notes, some notesPublic⟩
  return ((action, decision), db)

end Conjectures.Db

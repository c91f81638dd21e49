import Mathlib.Data.List.MinMax
import Mathlib.Data.Prod.Lex
import Mathlib.Data.Rat.Defs
import Mathlib.Logic.Function.Basic
import Conjectures.Db.Models
import Conjectures.Lib.Transaction

/-!
# The competition database

`conjectures_subnet/competition`: registrations as the chain watcher saw them, submissions and
their queue, and which registration paid for which accepted submission.

Every method is one transaction.  Its row locks decide what a concurrent one sees: `locked` are
the rows others hold a lock on, which `SKIP LOCKED` passes over, and `unseen` is how many of the
newest claims were committed after the statement that looks for them had begun.
-/

namespace Conjectures.Db.Competition

open Lib
open scoped Instant

/-! ## Rows -/

/-- One registration of a hotkey, and one submission slot. -/
structure Registration where
  id : ℕ
  uid : ℕ
  ss58Hot : Ss58
  ss58Cold : Ss58
  /-- the block the uid registered at -/
  block : ℕ
  blockDate : Instant
  deriving DecidableEq

inductive SubmissionState where
  | queued
  | verifying
  | accepted
  | rejected
  | error
  deriving DecidableEq

/-- What the gate reports, under the name of its column. -/
inductive Score where
  | text (text : String)
  | number (value : ℚ)
  deriving DecidableEq

/-- `SCORE_FIELDS` -/
def scoreFields : List String :=
  ["exit_code", "report", "raw_bytes", "incumbent_bytes", "bytes", "incumbent_seconds",
    "parse_seconds", "time_ratio"]

/-- One upload, and what the gate made of it. -/
structure Submission where
  id : ℕ
  hotkey : Ss58
  digest : Digest
  submittedAt : Instant
  state : SubmissionState
  /-- the columns the gate fills in -/
  scores : String → Option Score
  workerId : Option String
  claimedAt : Option Instant
  finishedAt : Option Instant
  attempts : ℕ

/-- One registration spent on one accepted submission. -/
structure EntitlementClaim where
  registrationId : ℕ
  submissionId : ℕ
  deriving DecidableEq

structure CompetitionDatabase where
  registrations : Table Registration.id
  submissions : Table Submission.id
  claims : Table EntitlementClaim.registrationId

/-- `submission_id` is unique. -/
def EntitlementClaim.submissionIdx (c : EntitlementClaim) : Option ℕ := some c.submissionId

inductive CompetitionError where
  | valueError (message : String)
  | lookupError (message : String)
  | noSlot
  | integrityError (constraint : String)
  deriving DecidableEq

def CompetitionDatabase.empty : CompetitionDatabase := ⟨.empty _, .empty _, .empty _⟩

/-! ## Writes -/

def Submission.report (s : Submission) : String :=
  match s.scores "report" with
  | some (.text report) => report
  | _ => ""

def Submission.moved (state : SubmissionState) (s : Submission) : Submission :=
  { s with state }

/-- `setattr`, one field after the other, and the time it finished. -/
def Submission.scored (fields : List (String × Score)) (now : Instant) (s : Submission) :
    Submission :=
  { s with
    scores := fields.foldl (fun scores f ↦ Function.update scores f.1 (some f.2)) s.scores
    finishedAt := some now }

/-- What is appended to the report. -/
def Submission.noted (note : String) (s : Submission) : Submission :=
  { s with scores := Function.update s.scores "report" (some (.text (s.report ++ note))) }

def Submission.claimed (workerId : String) (now : Instant) (s : Submission) : Submission :=
  { s with
    state := .verifying
    workerId := some workerId
    claimedAt := some now
    attempts := s.attempts + 1 }

def Submission.abandoned (note : String) (now : Instant) (s : Submission) : Submission :=
  { s.noted note with
    state := .error
    finishedAt := some now
    workerId := none
    claimedAt := none }

def Submission.requeued (s : Submission) : Submission :=
  { s with state := .queued, workerId := none, claimedAt := none }

/-- As if never claimed. -/
def Submission.restarted (s : Submission) : Submission :=
  { s.requeued with
    finishedAt := none
    scores := Function.update s.scores "exit_code" none
    attempts := 0 }

theorem Submission.claimed_id (workerId : String) (now : Instant) (s : Submission) :
    (s.claimed workerId now).id = s.id := rfl

theorem Submission.abandoned_id (note : String) (now : Instant) (s : Submission) :
    (s.abandoned note now).id = s.id := rfl

theorem Submission.requeued_id (s : Submission) : s.requeued.id = s.id := rfl

theorem Submission.restarted_id (s : Submission) : s.restarted.id = s.id := rfl

/-- Write one row. -/
def writeSubmission (db : CompetitionDatabase) (id : ℕ) (f : Submission → Submission)
    (hf : ∀ s, (f s).id = s.id) : CompetitionDatabase :=
  { db with submissions := db.submissions.modify id f hf }

theorem mem_writeSubmission {db : CompetitionDatabase} {id : ℕ} {f : Submission → Submission}
    {hf : ∀ s, (f s).id = s.id} {s' : Submission} :
    s' ∈ (writeSubmission db id f hf).submissions.rows ↔
      (s' ∈ db.submissions.rows ∧ s'.id ≠ id) ∨ ∃ s ∈ db.submissions.rows, s.id = id ∧ f s = s' :=
  @Table.mem_modify _ _ _ _ _ hf _ _ _

theorem row_writeSubmission {db : CompetitionDatabase} {id : ℕ} {f : Submission → Submission}
    {hf : ∀ s, (f s).id = s.id} {s : Submission} (hs : s ∈ db.submissions.rows) :
    (if s.id = id then f s else s) ∈ (writeSubmission db id f hf).submissions.rows :=
  @Table.modify_row _ _ _ _ _ hf _ _ _ hs

/-- What `finish` leaves of a row. -/
def Submission.finished (fields : List (String × Score)) (now : Instant)
    (state : SubmissionState) (s : Submission) : Submission :=
  (s.scored fields now).moved state

theorem Submission.finished_id (fields : List (String × Score)) (now : Instant)
    (state : SubmissionState) (s : Submission) : (s.finished fields now state).id = s.id := rfl

def noSlotNote : String :=
  "\nREJECTED: accepted by the gate, but this hotkey has no unclaimed " ++
  "registration left. One registration buys one accepted submission; " ++
  "register again to submit again.\n"

/-- What `finish` leaves of a row that no slot was left for. -/
def Submission.unpaid (fields : List (String × Score)) (now : Instant) (s : Submission) :
    Submission :=
  ((s.scored fields now).moved .rejected).noted noSlotNote

theorem Submission.unpaid_id (fields : List (String × Score)) (now : Instant) (s : Submission) :
    (s.unpaid fields now).id = s.id := rfl

/-! ## The queue -/

/-- `add`: queue a submission, or find the one these files already are. -/
def add (hotkey : Ss58) (digest : Digest) (now : Instant) :
    Txn CompetitionDatabase CompetitionError (ℕ × Bool) := fun db ↦
  match db.submissions.rows.find? fun s ↦ s.hotkey = hotkey ∧ s.digest = digest with
  | some s => .ok ((s.id, false), db)
  | none =>
    let submissions := db.submissions.append
      (fun id ↦ ⟨id, hotkey, digest, now, .queued, fun _ ↦ none, none, none, none, 0⟩) fun _ ↦ rfl
    .ok ((db.submissions.nextId, true), { db with submissions })

/-- Take the oldest queued submission for this worker, in arrival order. -/
def claimNext (workerId : String) (locked : List ℕ) (now : Instant) :
    Txn CompetitionDatabase CompetitionError (Option Submission) := fun db ↦
  let candidates := db.submissions.rows.filter fun s ↦ s.state = .queued ∧ s.id ∉ locked
  match candidates.argmin fun s ↦ toLex (s.submittedAt, s.id) with
  | none => .ok (none, db)
  | some s => .ok (some (s.claimed workerId now), writeSubmission db s.id (·.claimed workerId now)
      (Submission.claimed_id workerId now))

/-- The oldest registration of the hotkey that no claim it can see has spent. -/
def freeRegistration (hotkey : Ss58) (locked : List ℕ) (unseen : ℕ) (db : CompetitionDatabase) :
    Option Registration :=
  let seen := db.claims.rows.take (db.claims.rows.length - unseen)
  (db.registrations.rows.filter fun r ↦
    r.ss58Hot = hotkey ∧ r.id ∉ seen.map (·.registrationId) ∧ r.id ∉ locked).argmin
      fun r ↦ toLex (r.block, r.id)

/-- Spend this hotkey's oldest unclaimed registration on the submission. -/
def claimSlot (hotkey : Ss58) (submissionId : ℕ) (locked : List ℕ) (unseen : ℕ) :
    Txn CompetitionDatabase CompetitionError ℕ := fun db ↦ do
  let r ← need (freeRegistration hotkey locked unseen db) .noSlot
  require (¬ Taken EntitlementClaim.submissionIdx db.claims.rows ⟨r.id, submissionId⟩)
    (.integrityError "entitlement_claims_submission_id_key")
  let claims ← need (db.claims.insert? ⟨r.id, submissionId⟩)
    (.integrityError "entitlement_claims_pkey")
  return (r.id, { db with claims })

/-- Record the gate's outcome, and only on acceptance spend a registration. -/
def finish (id : ℕ) (state : SubmissionState) (fields : List (String × Score))
    (locked : List ℕ) (unseen : ℕ) (now : Instant) :
    Txn CompetitionDatabase CompetitionError SubmissionState := fun db ↦ do
  require (∀ f ∈ fields, f.1 ∈ scoreFields) (.valueError "not submission columns")
  let row ← need (db.submissions.find? id) (.lookupError "no submission")
  if state = .accepted then
    match claimSlot row.hotkey id locked unseen db with
    | .ok (_, db) => return (.accepted, writeSubmission db id (·.finished fields now .accepted)
        (Submission.finished_id fields now .accepted))
    | .error .noSlot => return (.rejected, writeSubmission db id (·.unpaid fields now)
        (Submission.unpaid_id fields now))
    | .error e => .error e
  else return (state, writeSubmission db id (·.finished fields now state)
    (Submission.finished_id fields now state))

/-- Give up on a submission the gate keeps breaking on. -/
def abandon (id : ℕ) (note : String) (now : Instant) :
    Txn CompetitionDatabase CompetitionError Unit := fun db ↦ do
  let row ← need (db.submissions.find? id) (.lookupError "no submission")
  return ((), writeSubmission db row.id (·.abandoned note now) (Submission.abandoned_id note now))

/-- Put a submission back at the head of the queue. -/
def requeue (id : ℕ) : Txn CompetitionDatabase CompetitionError Unit := fun db ↦
  .ok ((), writeSubmission db id Submission.requeued Submission.requeued_id)

/-- The `WHERE` of `requeue_stale`. -/
def Stale (cutoff : Instant) (locked : List ℕ) (s : Submission) : Prop :=
  s.state = .verifying ∧ (∃ claimedAt ∈ s.claimedAt, claimedAt < cutoff) ∧ s.id ∉ locked

instance Stale.decidable (cutoff : Instant) (locked : List ℕ) (s : Submission) :
    Decidable (Stale cutoff locked s) :=
  decidable_of_iff
    (s.state = .verifying ∧ s.claimedAt.any (· < cutoff) = true ∧ s.id ∉ locked) <| by
      simp [Stale, Option.any_eq_true]

/-- Requeue anything left mid-gate by a worker that died; the rows in `locked` had left the
state when their turn came. -/
def requeueStale (cutoff : Instant) (locked : List ℕ) :
    Txn CompetitionDatabase CompetitionError ℕ := fun db ↦
  let submissions := db.submissions.update (fun s ↦ Stale cutoff locked s) Submission.requeued
    Submission.requeued_id
  .ok ((db.submissions.rows.filter fun s ↦ Stale cutoff locked s).length, { db with submissions })

/-- The operator's: only from `error` or `verifying`. -/
def requeueSubmission (id : ℕ) : Txn CompetitionDatabase CompetitionError (Option ℕ) := fun db ↦
  match db.submissions.find? id with
  | some s =>
    if s.state = .error ∨ s.state = .verifying then
      .ok (some id, writeSubmission db s.id Submission.restarted Submission.restarted_id)
    else .ok (none, db)
  | none => .ok (none, db)

/-! ## Registrations -/

/-- What `publish_snapshot` reads of a metagraph neuron. -/
structure Neuron where
  uid : ℕ
  hotkey : Ss58
  coldkey : Ss58
  blockAtRegistration : ℕ
  deriving DecidableEq

/-- `_latest_keys`: the pair on the newest row of a uid. -/
def latestKeys (db : CompetitionDatabase) (uid : ℕ) : Option (Ss58 × Ss58) :=
  ((db.registrations.rows.filter fun r ↦ r.uid = uid).argmax (·.block)).map
    fun r ↦ (r.ss58Hot, r.ss58Cold)

/-- The neurons whose pair moved. -/
def changedRows (latest : ℕ → Option (Ss58 × Ss58)) (neurons : List Neuron) : List Neuron :=
  neurons.filter fun n ↦ latest n.uid ≠ some (n.hotkey, n.coldkey)

/-- `INSERT … ON CONFLICT (uid, block) DO NOTHING`, one row. -/
def recordNeuron (registrations : Table Registration.id) (row : Neuron × Instant) :
    Table Registration.id :=
  if registrations.rows.any fun r ↦ r.uid = row.1.uid ∧ r.block = row.1.blockAtRegistration then
    registrations
  else registrations.append
    (fun id ↦ ⟨id, row.1.uid, row.1.hotkey, row.1.coldkey, row.1.blockAtRegistration, row.2⟩)
    fun _ ↦ rfl

/-- `resolve_block_dates` -/
def resolveBlockDates (blockTime : ℕ → Option Instant) (rows : List Neuron) :
    Except CompetitionError (List (Neuron × Instant)) :=
  rows.mapM fun n ↦ (need (blockTime n.blockAtRegistration)
    (.lookupError "no time for this height")).map (n, ·)

/-- Append a registration row for every uid whose hot/cold pair changed.  Where the time of a
height is not to be had nothing is written. -/
def publishSnapshot (neurons : List Neuron) (blockTime : ℕ → Option Instant) :
    Txn CompetitionDatabase CompetitionError ℕ := fun db ↦ do
  let rows ← resolveBlockDates blockTime (changedRows (latestKeys db) neurons)
  let registrations := rows.foldl recordNeuron db.registrations
  return (rows.length, { db with registrations })

end Conjectures.Db.Competition

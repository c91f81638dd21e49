import Conjectures.Db.Verification
import Conjectures.Rewards.Effects

/-!
# Verification workers

Any number of workers, each under an owner name of its own, take submissions off the queue,
verify them, and give them back or record a verdict.  A worker's transactions are the steps of
this system, with time passing before each, together with intake and everything the other
clients of these tables do.

`granted` is what the workers were told: until when each of them may believe that a submission
is its own.  `log` keeps the claims, the refunds and the verdicts.
-/

namespace Conjectures.Verification

open Lib Db Rewards

/-! ## The system -/

/-- What the workers of one deployment share, and `created_at` of every row. -/
structure Deployment where
  maxAttempts : ℤ
  /-- `_positive_int` -/
  maxAttempts_pos : 0 < maxAttempts
  createdAt : Uuid → Instant

/-- What a worker did to a submission. -/
inductive Entry where
  | claimed (owner : String) (submissionId : Uuid)
  | refunded (owner : String) (submissionId : Uuid)
  | ruled (owner : String) (submissionId : Uuid)
  deriving DecidableEq

def Entry.submissionId : Entry → Uuid
  | .claimed _ id | .refunded _ id | .ruled _ id => id

structure Queue where
  db : RewardDatabase
  clock : Instant
  granted : String → Uuid → Option Instant
  log : List Entry

/-- One transaction of a worker. -/
inductive Op where
  /-- `locked` are the rows other statements hold a lock on -/
  | claim (leaseSeconds : ℤ) (served : List ServedSubmissionKey) (excluded locked : List Uuid)
  | extend (submissionId : Uuid) (leaseSeconds : ℤ)
  | release (submissionId : Uuid)
  | releaseUnconsumed (submissionId : Uuid)
  /-- lock the row if it is still owned, and record the verdict in the same transaction -/
  | record (submissionId : Uuid) (seen : List Submission) (v : VerifierVerdict)

inductive Action where
  | worker (owner : String) (op : Op) (elapsed : ℕ)
  | submit (row : Submission) (elapsed : ℕ)
  | client (a : Rewards.Step) (elapsed : ℕ)

/-- Columns no intake writes have the schema's defaults. -/
def Unleased (s : Submission) : Prop :=
  s.verificationLeaseUntil = none ∧ s.verificationLeaseOwner = none ∧ s.verificationAttempts = 0

instance Unleased.decidable (s : Submission) : Decidable (Unleased s) := by
  unfold Unleased; infer_instance

theorem unleased_row (r : NewSubmission) (id : Uuid) : Unleased (r.row id) := ⟨rfl, rfl, rfl⟩

theorem unleased_submission (i : SubmissionIntent) (c : Confirmation) (requestDigest
    proofSha256 : Digest) (creditLedgerId : ℕ) :
    Unleased (i.submission c requestDigest proofSha256 creditLedgerId) := ⟨rfl, rfl, rfl⟩

/-- Not a verdict, and no intake. -/
def OfOthers : Rewards.Step → Prop
  | .submit .. | .verify .. => False
  | _ => True

instance OfOthers.decidable : (a : Rewards.Step) → Decidable (OfOthers a)
  | .submit .. | .verify .. => isFalse id
  | .decide .. | .correct .. | .instruct .. | .withdraw .. | .seed .. | .notify .. | .mark ..
  | .revert .. | .record .. | .claim .. | .bind .. | .disregard .. => isTrue trivial

/-- The last transaction of a pass. -/
def recordOwned (submissionId : Uuid) (owner : String) (now : Instant) (seen : List Submission)
    (v : VerifierVerdict) : Txn RewardDatabase RewardError (Option (VerificationRun × Bool)) :=
  fun db ↦
    match lockOwnedForRecording db submissionId owner now with
    | none => .ok (none, db)
    | some s => (recordVerificationResult db seen s v).map fun (verdict, db) ↦ (some verdict, db)

/-! ## Steps -/

/-- The worker has the submission until `expiry`, or not at all. -/
def Queue.grant (q : Queue) (w : String) (submissionId : Uuid) (expiry : Option Instant) :
    Queue :=
  { q with granted := fun w' id ↦
      if w' = w ∧ id = submissionId then expiry else q.granted w' id }

def Queue.note (q : Queue) (entry : Entry) : Queue := { q with log := entry :: q.log }

/-- One transaction of the worker `w`.  One that fails leaves everything as it was; after one
that finds the lease gone the worker gives the submission up. -/
def perform (d : Deployment) (q : Queue) (w : String) : Op → Queue
  | .claim leaseSeconds served excluded locked =>
    match claimNext d.createdAt ⟨w, leaseSeconds, d.maxAttempts, served, excluded⟩ locked q.clock
        q.db with
    | .ok (some c, db) =>
      (({ q with db }).grant w c.submissionId (some c.leaseUntil)).note
        (.claimed w c.submissionId)
    | .ok (none, _) | .error _ => q
  | .extend submissionId leaseSeconds =>
    match extend submissionId w leaseSeconds q.clock q.db with
    | .ok (true, db) =>
      ({ q with db }).grant w submissionId (some (q.clock + leaseSeconds * second))
    | .ok (false, _) => q.grant w submissionId none
    | .error _ => q
  | .release submissionId =>
    match release submissionId w q.db with
    | .ok (_, db) => ({ q with db }).grant w submissionId none
    | .error _ => q
  | .releaseUnconsumed submissionId =>
    match releaseUnconsumed submissionId w q.db with
    | .ok (true, db) =>
      (({ q with db }).grant w submissionId none).note (.refunded w submissionId)
    | .ok (false, _) => q.grant w submissionId none
    | .error _ => q
  | .record submissionId seen v =>
    match recordOwned submissionId w q.clock seen v q.db with
    | .ok (some (_, true), db) =>
      (({ q with db }).grant w submissionId none).note (.ruled w submissionId)
    | .ok (some (_, false), db) => ({ q with db }).grant w submissionId none
    | .ok (none, _) => q.grant w submissionId none
    | .error _ => q

def Action.elapsed : Action → ℕ
  | .worker _ _ elapsed | .submit _ elapsed | .client _ elapsed => elapsed

/-- Time passes, and one client runs a transaction. -/
def step (d : Deployment) (q : Queue) (a : Action) : Queue :=
  let q := { q with clock := q.clock + a.elapsed }
  match a with
  | .worker w op _ => perform d q w op
  | .submit row _ => if Unleased row then { q with db := submitRow row q.db } else q
  | .client a _ => if OfOthers a then { q with db := Rewards.step q.db a } else q

end Conjectures.Verification

import Conjectures.Api.Submissions
import Conjectures.Intents.Steps

/-!
# Requests that carry a key

A request is looked up when it arrives and written when its body is there, and anything may
happen in between.  The lock `lock_quote` takes is held to the commit by every path that
inserts a submission, so a write is one step.

`accepted` is not stored anywhere: it is the history of which request bought which
submission.
-/

namespace Conjectures.Intake

open Lib Db Api

structure Config where
  services : IntakeServices
  watcher : DepositWatcher.Settings

/-- The configuration of the transactions beside the three endpoints. -/
def Config.intents (c : Config) : Intents.Config where
  transfers := ⟨c.watcher, c.services.verifier⟩
  intents := c.services.intents

structure World where
  db : Database
  /-- past their lookup and not yet written -/
  waiting : List (Call × TaskEntry)
  accepted : List (Request × Uuid)

/-- A deployment nothing has happened in. -/
def World.start : World := ⟨Database.empty, [], []⟩

/-- A transaction of the rest of the system. -/
structure Elsewhere where
  step : Intents.Step
  notSubmission : ∀ request transfer id, step ≠ .payment (.submit request transfer id)

inductive Action where
  | arrive (call : Call) (door : Door)
  | write (call : Call) (entry : TaskEntry) (u : Upload)
  /-- a client that does not finish its upload -/
  | abandon (call : Call) (entry : TaskEntry)
  | elsewhere (a : Elsewhere)

/-- What a request is answered. -/
inductive Answer where
  /-- `200` with the submission the key bought -/
  | original (submission : Submission)
  /-- `201` -/
  | created (submission : Submission)
  | refused (e : SubmissionRefusal)
  /-- not yet -/
  | pending
  deriving DecidableEq

/-- What an action is answered and what it leaves. -/
def respond (c : Config) (w : World) : Action → Answer × World
  | .arrive call door =>
    match lookup c.services w.db door call with
    | .error e => (.refused e, w)
    | .ok (.original s) => (.original s, w)
    | .ok (.proceed entry) => (.pending, { w with waiting := (call, entry) :: w.waiting })
  | .write call entry u =>
    if (call, entry) ∈ w.waiting then
      let waiting := w.waiting.erase (call, entry)
      match write c.services entry u call w.db with
      | .error e => (.refused e, { w with waiting })
      | .ok (view, db) =>
        if view.replayed then (.original view.submission, { w with db, waiting })
        else (.created view.submission,
          ⟨db, waiting, (call.request, view.submission.id) :: w.accepted⟩)
    else (.pending, w)
  | .abandon call entry => (.pending, { w with waiting := w.waiting.erase (call, entry) })
  | .elsewhere a => (.pending, { w with db := Intents.step c.intents w.db a.step })

def step (c : Config) (w : World) (a : Action) : World := (respond c w a).2

/-! ## The law of a key -/

/-- The submission is this request's. -/
def Owns : Request → Submission → Prop
  | .extrinsic r, s => s.signerIdx = some (r.signerColdkey, r.idempotencyKey) ∧
      s.taskId = r.taskId ∧ s.taskBundleSha256 = r.taskBundleSha256 ∧
      s.proofDigest = r.proofSha256 ∧ s.publicCredit = r.publicCredit
  | .web r, s => s.sessionIdx = some (r.accountId, r.idempotencyKey) ∧
      s.signerColdkey = r.coldkey ∧ s.taskId = r.taskId ∧
      s.taskBundleSha256 = r.taskBundleSha256 ∧ s.publicCredit = r.publicCredit

/-- A key that bought a submission is looked up: that request is answered with it, and
another one is told of the conflict. -/
structure LawfulArrival (w : World) (r : Request) (out : Answer × World) : Prop where
  unwritten : out.2.db = w.db
  own : ∀ s, out.1 = .original s → s ∈ w.db.submissions.rows ∧ (r, s.id) ∈ w.accepted
  replay : ∀ id, (r, id) ∈ w.accepted → ∃ s, out.1 = .original s ∧ s.id = id ∧ Owns r s
  conflict : ∀ r' id, (r', id) ∈ w.accepted → r'.scope = r.scope → r' ≠ r →
    ∃ e, out.1 = .refused e ∧ e.Conflict

/-- What is written is one submission of this request, under a key nothing was accepted
for; and a request that is refused, or is answered with the submission of its own that came
first, writes nothing. -/
structure LawfulWrite (c : Config) (w : World) (call : Call) (entry : TaskEntry) (u : Upload)
    (out : Answer × World) : Prop where
  refused : ∀ e, out.1 = .refused e → out.2.db = w.db
  own : ∀ s, out.1 = .original s → out.2.db = w.db ∧ (call.request, s.id) ∈ w.accepted
  created : ∀ s, out.1 = .created s →
    out.2.db.submissions.rows = w.db.submissions.rows ++ [s] ∧ Owns call.request s ∧
      ∀ r id, (r, id) ∈ w.accepted → r.scope ≠ call.request.scope
  /-- where nothing but the submissions stands in its way, it is told of the conflict -/
  conflict : (call, entry) ∈ w.waiting →
    ∀ r id, (r, id) ∈ w.accepted → r.scope = call.request.scope →
      (∃ s, out.1 = .original s) ∨ ∃ e, out.1 = .refused e ∧
        ((∃ submissions view, write c.services entry u call { w.db with submissions } =
          .ok view) → e.Conflict)

def Lawful (c : Config) (w : World) (a : Action) : Prop :=
  match a with
  | .arrive call _ => LawfulArrival w call.request (respond c w a)
  | .write call entry u => LawfulWrite c w call entry u (respond c w a)
  | .abandon _ _ | .elsewhere _ => True

/-! ## When it holds -/

/-- The checks before the lookup let the request through. -/
def Admits (svc : IntakeServices) (db : Database) (door : Door) : Call → Prop
  | .extrinsic _ _ => door.paused = false ∧ door.entry.isSome
  | .web r _ expiresAt => door.paused = false ∧ authoriseWeb svc db r expiresAt door.now = .ok ()

instance Admits.decidable (svc : IntakeServices) (db : Database) (door : Door) :
    (call : Call) → Decidable (Admits svc db door call)
  | .extrinsic _ _ => inferInstanceAs (Decidable (_ ∧ _))
  | .web _ _ _ => inferInstanceAs (Decidable (_ ∧ _))

/-- What a browser's key has bought was bought by the request that names it now. -/
def KeyIsOwn (w : World) : Call → Prop
  | .extrinsic _ _ => True
  | .web r _ _ => ∀ s ∈ w.db.submissions.rows,
      s.sessionIdx = some (r.accountId, r.idempotencyKey) → (.web r, s.id) ∈ w.accepted

instance KeyIsOwn.decidable (w : World) : (call : Call) → Decidable (KeyIsOwn w call)
  | .extrinsic _ _ => inferInstanceAs (Decidable True)
  | .web r _ _ => inferInstanceAs (Decidable (∀ s ∈ w.db.submissions.rows,
      s.sessionIdx = some (r.accountId, r.idempotencyKey) → (.web r, s.id) ∈ w.accepted))

/-- A request whose key bought a submission gets as far as its lookup, and a browser's key is
its own. -/
def Proper (c : Config) (w : World) : Action → Prop
  | .arrive call door =>
    (∀ p ∈ w.accepted, p.1.scope = call.request.scope → Admits c.services w.db door call) ∧
      (Admits c.services w.db door call → KeyIsOwn w call)
  | .write _ _ _ | .abandon _ _ | .elsewhere _ => True

instance Proper.decidable (c : Config) (w : World) : (a : Action) → Decidable (Proper c w a)
  | .arrive _ _ => inferInstanceAs (Decidable (_ ∧ _))
  | .write _ _ _ | .abandon _ _ | .elsewhere _ => inferInstanceAs (Decidable True)

/-- No other document has the digest of this request. -/
def Distinct (svc : IntakeServices) (r : ExtrinsicRequest) : Prop :=
  ∀ d, svc.digest d = svc.digest (.extrinsic r) → d = .extrinsic r

/-- The digest of the request an action is about is its own. -/
def Action.Distinct (svc : IntakeServices) : Action → Prop
  | .arrive (.extrinsic r _) _ | .write (.extrinsic r _) _ _ => Intake.Distinct svc r
  | _ => True

end Conjectures.Intake

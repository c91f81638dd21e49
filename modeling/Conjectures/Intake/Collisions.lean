import Conjectures.Intake.Recording

/-!
# A write that comes second

Two requests with one key can both pass their lookups.  The second one to write finds the
first one's submission under its key, and is refused for that even if everything else about
it is in order.
-/

namespace Conjectures.Intake

open Lib Db Api

variable {svc : IntakeServices} {db : Database} {submissions : Table Submission.id}
  {entry : TaskEntry} {u : Upload}

/-! ## From a browser -/

/-- The submissions make no difference to opening an intent. -/
theorem openIntent_with {r : NewIntent} {now : Instant} {intent : SubmissionIntent}
    {balance : CreditBalance} {db₁ : Database}
    (h : openIntent { db with submissions } r now = .ok ((intent, balance), db₁)) :
    openIntent db r now = .ok ((intent, balance), { db₁ with submissions := db.submissions }) ∧
      db₁.submissions = submissions := by
  simp only [openIntent, bind_eq_ok, require_eq_ok, need_eq_ok] at h
  obtain ⟨_, hlock, _, henough, _, hvalid, intents, hins, h⟩ := h
  cases h
  refine ⟨?_, rfl⟩
  simp only [openIntent, bind_eq_ok, require_eq_ok, need_eq_ok]
  exact ⟨(), hlock, (), henough, (), hvalid, intents, hins, rfl⟩

/-- A row whose key is taken is not inserted. -/
theorem insertSubmission_taken {row s : Submission} {i : Uuid × Uuid}
    (hs : s ∈ db.submissions.rows) (hi : s.sessionIdx = some i) (hrow : row.sessionIdx = some i) :
    ∃ constraint, insertSubmission db row = .error constraint := by
  cases h : insertSubmission db row with
  | error constraint => exact ⟨constraint, rfl⟩
  | ok db' => exact absurd hi (not_taken (insertSubmission_keys h).1 hs hrow)

theorem confirmError_conflict (sha256 : Digest) (constraint : SubmissionsConstraint) :
    SubmissionRefusal.Conflict (.intent (.database (confirmError sha256 constraint))) := by
  cases constraint with
  | proofDigest => exact Or.inr (Or.inl ⟨_, _, rfl⟩)
  | check | primaryKey | paymentReference | creditLedgerId | intentId | sessionIdempotency
  | signerIdempotency => exact Or.inl rfl

/-- An intent that could be confirmed but for the submissions is refused for them. -/
theorem confirm_taken {intentId accountId key : Uuid} {c : Confirmation} {now : Instant}
    {out : ConfirmedIntent × Database} {s : Submission}
    (h : confirm { db with submissions } intentId accountId c now = .ok out)
    (hkey : c.idempotencyKey = some key) (hs : s ∈ db.submissions.rows)
    (hi : s.sessionIdx = some (accountId, key)) :
    ∃ sha256 constraint,
      confirm db intentId accountId c now = .error (confirmError sha256 constraint) := by
  simp only [confirm, confirmCopy, bind_eq_ok, mapError_eq_ok] at h
  obtain ⟨_, hlock, intent, hget, _, husable, _, hattached, content, hcontent, digest, hdigest,
    sha256, hsha256, ⟨spend, db₁⟩, hspend, -⟩ := h
  obtain ⟨haccepts, hr⟩ := recordEntry_eq_ok.mp hspend
  have haccount : intent.accountId = accountId := (getIntent_eq_ok.mp hget).2.2
  have hrow : (intent.submission c digest sha256 spend.id).sessionIdx = some (accountId, key) := by
    simp only [Submission.sessionIdx, SubmissionIntent.submission, hkey, haccount,
      Option.map_some, Option.getD_some]
  have hentry : recordEntry (ensureProof db content sha256) intent.spend = .ok (spend,
      { ensureProof db content sha256 with ledger := db₁.ledger }) := by
    rw [recordEntry_eq_ok]
    refine ⟨haccepts, ?_⟩
    obtain ⟨rfl, rfl⟩ := Prod.mk.inj hr
    rfl
  obtain ⟨constraint, hins⟩ := @insertSubmission_taken
    { ensureProof db content sha256 with ledger := db₁.ledger } _ s _ hs hi hrow
  refine ⟨sha256, constraint, ?_⟩
  have hlock' : lockAccount db accountId = .ok _ := hlock
  have hget' : getIntent db intentId accountId = .ok intent := hget
  unfold confirm confirmCopy
  rw [bind_of_ok hlock', bind_of_ok hget', bind_of_ok husable, bind_of_ok hattached,
    bind_of_ok hcontent, bind_of_ok hdigest, bind_of_ok hsha256]
  simp only [hentry, hins, bind, Except.bind, Except.mapError]

/-- A browser's write that could go through but for the submissions is told of the
conflict. -/
theorem writeWeb_taken {r : WebRequest} {signature : Bytes} {expiresAt : Instant}
    {out : SubmissionView × Database} {s : Submission}
    (h : writeWeb svc r signature expiresAt entry u { db with submissions } = .ok out)
    (hs : s ∈ db.submissions.rows) (hi : s.sessionIdx = some (r.accountId, r.idempotencyKey)) :
    ∃ e, writeWeb svc r signature expiresAt entry u db = .error e ∧ e.Conflict := by
  simp only [writeWeb, bind_eq_ok, mapError_eq_ok] at h
  obtain ⟨_, hadmitted, _, hbundle, _, hverify, ⟨⟨intent, balance⟩, db₁⟩, hopen, db₂, hattach,
    amountRao, hamount, confirmed, hconfirm, -⟩ := h
  obtain ⟨hopen', hsame⟩ := openIntent_with hopen
  obtain ⟨husable, hsave⟩ := attachBundle_eq_ok.mp hattach
  obtain ⟨_, -, -, -, hdb₂⟩ := saveIntent_spec hsave
  have hattach' : attachBundle { db₁ with submissions := db.submissions } intent u.proofContent
      u.proofSha256 (r.digest svc u expiresAt) u.now =
        .ok { db₂ with submissions := db.submissions } := by
    refine attachBundle_eq_ok.mpr ⟨husable, ?_⟩
    have hsave' := @saveIntent_congr _ _ _ _ hsave { db₁ with submissions := db.submissions } rfl
    rw [hsave', hdb₂]
  have hconfirm' : confirm { { db₂ with submissions := db.submissions } with
      submissions := submissions } intent.id r.accountId
      (r.confirmation svc entry u signature amountRao) u.now = .ok confirmed := by
    have hdb : db₂.submissions = submissions := by rw [hdb₂]; exact hsame
    rw [← hconfirm, ← hdb]
  obtain ⟨sha256, constraint, herror⟩ := confirm_taken hconfirm' rfl hs hi
  refine ⟨.intent (.database (confirmError sha256 constraint)), ?_, confirmError_conflict _ _⟩
  unfold writeWeb
  rw [bind_of_ok hadmitted, bind_of_ok hbundle, bind_of_ok hverify]
  simp only [hopen', hattach', hamount, herror, bind, Except.bind, Except.mapError,
    Function.comp]

/-! ## From a transfer -/

/-- A key that is taken is looked up: the store answers with the submission that took it,
or with the conflict. -/
theorem createSubmission_taken {request : NewSubmission} {id : Uuid} {s : Submission}
    (hs : s ∈ db.submissions.rows)
    (hi : s.signerIdx = some (request.signerColdkey, request.idempotencyKey)) :
    (∃ existing, createSubmission db request id = .ok (⟨existing, true⟩, db)) ∨
      ∃ message key, createSubmission db request id =
        .error (.idempotencyConflict message key) := by
  unfold createSubmission
  cases hfind : findByIdempotencyKey db request.signerColdkey request.idempotencyKey with
  | none => exact absurd hi (by simpa using List.find?_eq_none.mp hfind s hs)
  | some existing =>
    by_cases hdigest : existing.requestDigest = request.requestDigest
    · refine Or.inl ⟨existing, ?_⟩
      simp only [require, if_pos hdigest]
      rfl
    · exact Or.inr ⟨_, _, bind_of_error (require_eq_error.mpr ⟨hdigest, rfl⟩) _⟩

/-- A transfer's write that could go through but for the submissions is told of the
conflict, unless what it finds is its own. -/
theorem writeExtrinsic_taken {r : ExtrinsicRequest} {signature : Bytes}
    {out : SubmissionView × Database} {s : Submission} {e : SubmissionRefusal}
    (h : writeExtrinsic svc r signature entry u { db with submissions } = .ok out)
    (hs : s ∈ db.submissions.rows)
    (hi : s.signerIdx = some (r.signerColdkey, r.idempotencyKey))
    (herror : writeExtrinsic svc r signature entry u db = .error e) : e.Conflict := by
  simp only [writeExtrinsic, bind_eq_ok, mapError_eq_ok, submit] at h
  obtain ⟨_, hadmitted, _, hproof, _, hsigned, _, hnonce, amountRao, hamount, transfer, htransfer,
    _, ⟨_, hpayment, -⟩, -⟩ := h
  unfold writeExtrinsic submit at herror
  rw [bind_of_ok hadmitted, bind_of_ok hproof, bind_of_ok hsigned, bind_of_ok hnonce,
    bind_of_ok hamount, bind_of_ok htransfer, bind_of_ok hpayment] at herror
  rcases @createSubmission_taken db (NewSubmission.paidBy
      (r.submission svc entry u transfer signature amountRao) transfer) u.submissionId s hs hi with
    ⟨existing, hcreate⟩ | ⟨message, key, hcreate⟩
  · simp only [hcreate, Except.mapError, bind, Except.bind, if_true, pure, Except.pure, true_or,
      require] at herror
    cases herror
  · simp only [hcreate, Except.mapError, bind, Except.bind] at herror
    cases herror
    exact Or.inr (Or.inr ⟨message, key, rfl⟩)

end Conjectures.Intake

import Conjectures.Intake.Steps

/-!
# What the writes add

Every path that records a submission adds one row, under keys no other row has, and stores it
with the digest of the document its caller agreed to.  Only the path of a transfer stores the
digest of a transfer's request.
-/

namespace Conjectures.Intake

open Lib Db Api

/-! ## One row -/

/-- One more submission, under keys that were free. -/
structure Recorded (db : Database) (s : Submission) (db' : Database) : Prop where
  rows : db'.submissions.rows = db.submissions.rows ++ [s]
  fresh : ∀ s' ∈ db.submissions.rows, s'.id ≠ s.id
  session : ¬ Taken Submission.sessionIdx db.submissions.rows s
  signer : ¬ Taken Submission.signerIdx db.submissions.rows s

theorem recorded_insert {db db₀ db' : Database} {s : Submission}
    (h : insertSubmission db₀ s = .ok db') (hsame : db₀.submissions = db.submissions) :
    Recorded db s db' := by
  have hins := insertSubmission_spec h
  have hkeys := insertSubmission_keys h
  rw [hsame] at hkeys
  exact
    { rows := by rw [hins.rows, hsame]
      fresh := by rw [← hsame]; exact Table.fresh_of_insert? hins.fresh
      session := hkeys.1
      signer := hkeys.2 }

/-- A later change that leaves the submissions alone does not show. -/
theorem Recorded.of_same {db db₁ db' : Database} {s : Submission}
    (h : Recorded db s db₁) (hsame : db'.submissions = db₁.submissions) : Recorded db s db' :=
  { h with rows := by rw [hsame]; exact h.rows }

/-- The row `confirm` records, and what it leaves of the intents. -/
theorem confirm_recorded {db db' : Database} {intentId accountId : Uuid} {c : Confirmation}
    {now : Instant} {out : ConfirmedIntent}
    (h : confirm db intentId accountId c now = .ok (out, db')) :
    ∃ intent ∈ db.intents.rows, intent.id = intentId ∧ intent.accountId = accountId ∧
      (∃ digest sha256 ledgerId, intent.requestDigest = some digest ∧
        out.submission = intent.submission c digest sha256 ledgerId) ∧
      Recorded db out.submission db' ∧
      db'.intents = db.intents.modify intent.id (·.confirmedBy out.submission.id)
        (·.confirmedBy_id out.submission.id) := by
  obtain ⟨intent, hmem, hid, haccount, hspec⟩ := confirm_spec h
  have hget : getIntent db intentId accountId = .ok intent :=
    getIntent_eq_ok.mpr ⟨hmem, hid, haccount⟩
  simp only [confirm, confirmCopy, hget, bind_eq_ok, require_eq_ok, need_eq_ok, mapError_eq_ok,
    Except.ok.injEq, exists_eq_left'] at h
  obtain ⟨-, -, _, -, _, -, content, -, digest, hdigest, sha256, -, ⟨spend, db₁⟩, hspend, db₂, hins,
    db₃, hsave, h⟩ := h
  obtain ⟨-, hr⟩ := recordEntry_eq_ok.mp hspend
  obtain ⟨rfl, rfl⟩ := Prod.mk.inj hr
  have hrecorded := @recorded_insert db _ _ _ hins rfl
  obtain ⟨_, -, -, -, rfl⟩ := saveIntent_spec hsave
  cases h
  exact ⟨intent, hmem, hid, haccount, ⟨digest, sha256, _, hdigest, rfl⟩, hrecorded.of_same rfl,
    hspec.intents⟩

/-! ## The digests -/

/-- A digest of something else than a transfer's request. -/
def Foreign (svc : IntakeServices) (digest : Digest) : Prop :=
  ∃ d, (∀ r, d ≠ .extrinsic r) ∧ svc.digest d = digest

/-- Intents hold no transfer's request. -/
def ForeignIntents (svc : IntakeServices) (db : Database) : Prop :=
  ∀ i ∈ db.intents.rows, ∀ digest, i.requestDigest = some digest → Foreign svc digest

theorem foreign_intent (svc : IntakeServices) (i : SubmissionIntent) (sha256 : Digest) :
    Foreign svc (svc.intents.requestDigest i sha256) :=
  ⟨_, fun _ h ↦ Canonical.noConfusion h, rfl⟩

theorem foreign_web (svc : IntakeServices) (r : WebRequest) (u : Upload) (expiresAt : Instant) :
    Foreign svc (r.digest svc u expiresAt) := by
  unfold WebRequest.digest
  split
  · exact ⟨_, fun _ h ↦ Canonical.noConfusion h, rfl⟩
  · exact ⟨_, fun _ h ↦ Canonical.noConfusion h, rfl⟩

/-- A request that is distinct is no foreign document. -/
theorem Foreign.ne {svc : IntakeServices} {r : ExtrinsicRequest} {digest : Digest}
    (h : Foreign svc digest) (hr : Distinct svc r) : digest ≠ svc.digest (.extrinsic r) := by
  rintro rfl
  obtain ⟨d, hd, hdigest⟩ := h
  exact hd r (hr d hdigest)

section Intents

variable {svc : IntakeServices} {db db' : Database}

theorem ForeignIntents.of_same (h : ForeignIntents svc db) (hsame : db'.intents = db.intents) :
    ForeignIntents svc db' := by
  unfold ForeignIntents
  rw [hsame]
  exact h

theorem ForeignIntents.insert (h : ForeignIntents svc db) {row : SubmissionIntent}
    (hins : db.intents.insert? row = some db'.intents)
    (hrow : ∀ digest, row.requestDigest = some digest → Foreign svc digest) :
    ForeignIntents svc db' := by
  intro i hi digest hdigest
  rw [Table.rows_of_insert? hins, List.mem_append, List.mem_singleton] at hi
  rcases hi with hi | rfl
  · exact h i hi digest hdigest
  · exact hrow digest hdigest

theorem ForeignIntents.update (h : ForeignIntents svc db) {p : SubmissionIntent → Bool}
    {f : SubmissionIntent → SubmissionIntent}
    (hintents : db'.intents.rows = db.intents.rows.map fun i ↦ if p i then f i else i)
    (hrow : ∀ i ∈ db.intents.rows, ∀ digest, (f i).requestDigest = some digest →
      Foreign svc digest) : ForeignIntents svc db' := by
  intro i hi digest hdigest
  rw [hintents, List.mem_map] at hi
  obtain ⟨i₀, hi₀, rfl⟩ := hi
  split at hdigest
  · exact hrow i₀ hi₀ digest hdigest
  · exact h i₀ hi₀ digest hdigest

end Intents

/-! ## The rest of the system -/

/-- No submission comes. -/
def SameSubmissions (db db' : Database) : Prop := db'.submissions = db.submissions

theorem SameSubmissions.of_eq {db db₁ db' : Database} (h : db' = db₁)
    (hsame : db₁.submissions = db.submissions) : SameSubmissions db db' := by
  rw [h]
  exact hsame

/-- The transfer system records submissions only for the requests that cite a transfer. -/
theorem payment_submissions (c : DepositWatcher.Deployment) (db : Database)
    (a : DepositWatcher.Step)
    (ha : ∀ request transfer id, a ≠ .submit request transfer id) :
    SameSubmissions db (DepositWatcher.step c db a) := by
  have hrefl : SameSubmissions db db := rfl
  cases a with
  | accounts accounts wallets => rfl
  | expireDeposits now => rfl
  | submit request transfer id => exact absurd rfl (ha request transfer id)
  | declare id accountId amountRao treasuryAddress creditPriceRao expiresAt now =>
    refine @commit_induction _ _ _ _ _ (SameSubmissions db) hrefl fun _ db' h ↦ ?_
    obtain ⟨-, -, -, -, -, -, -, hdb'⟩ := createDeposit_spec h
    exact .of_eq hdb' rfl
  | claimDeposit accountId coldkey reference =>
    refine @commit_induction _ _ _ _ _ (SameSubmissions db) hrefl fun _ db' h ↦ ?_
    obtain ⟨deposit, -, -, hseen⟩ := claimDeposit_spec h
    exact .of_eq (markSeen_spec hseen).2 rfl
  | record arrival =>
    refine @commit_induction _ _ _ _ _ (SameSubmissions db) hrefl fun _ db' h ↦ ?_
    exact .of_eq (record_spec h).2.1 rfl
  | settle arrival recorded env =>
    refine @commit_induction _ _ _ _ _ (SameSubmissions db) hrefl fun _ db' h ↦ ?_
    obtain ⟨transfer, -, -, ⟨-, rfl⟩ | ⟨-, hignore | hleave | ⟨_, _, hcredit⟩⟩⟩ :=
      DepositWatcher.settle_spec h
    · rfl
    · exact .of_eq (ignore_spec hignore).2 rfl
    · exact .of_eq (noteTransfer_spec hleave) rfl
    · obtain ⟨-, deposit, db₁, db₂, hfound, -, -, hdep, hdb'⟩ := credit_spec hcredit
      have hrest : db'.submissions = db₁.submissions := by rw [hdb', hdep.rest]
      rcases hfound.rows with ⟨rfl, -⟩ | ⟨-, -, hdb₁⟩
      · exact hrest
      · exact hrest.trans (SameSubmissions.of_eq hdb₁ rfl)
  | noteConflict reference message =>
    refine @commit_induction _ _ _ _ _ (SameSubmissions db) hrefl fun _ db' h ↦ ?_
    rcases DepositWatcher.noteConflict_spec h with rfl | ⟨_, -, hleave⟩
    · rfl
    · exact .of_eq (noteTransfer_spec hleave) rfl
  | ignore reference note =>
    refine @commit_induction _ _ _ _ _ (SameSubmissions db) hrefl fun _ db' h ↦ ?_
    obtain ⟨transfer, -, hignore⟩ := DepositWatcher.ignoreTransfer_spec h
    exact .of_eq (ignore_spec hignore).2 rfl

/-- No submission comes, or one with the digest an intent held. -/
def Elsewhere.Records (db db' : Database) : Prop :=
  SameSubmissions db db' ∨
    ∃ s, Recorded db s db' ∧ ∃ i ∈ db.intents.rows, i.requestDigest = some s.requestDigest

theorem elsewhere_records (c : Config) (db : Database) (a : Elsewhere) :
    Elsewhere.Records db (Intents.step c.intents db a.step) := by
  have hsame : Elsewhere.Records db db := Or.inl rfl
  obtain ⟨a, ha⟩ := a
  cases a with
  | payment p => exact Or.inl (payment_submissions _ db p fun r t i h ↦ ha r t i (by rw [h]))
  | fund e =>
    refine commit_induction hsame fun _ db' h ↦ Or.inl ?_
    simp only [Intents.enter, bind_eq_ok, recordEntry_eq_ok] at h
    obtain ⟨-, -, -, h⟩ := h
    cases h
    rfl
  | openIntent r now =>
    refine commit_induction hsame fun _ db' h ↦ Or.inl ?_
    exact .of_eq (openIntent_spec h).2.2.1 rfl
  | uploadBundle r =>
    refine commit_induction hsame fun _ db' h ↦ Or.inl ?_
    obtain ⟨_, -, -, hdb'⟩ := uploadBundle_spec h
    exact .of_eq hdb' rfl
  | confirm r =>
    refine commit_induction hsame fun out db' h ↦ Or.inr ⟨out.submission, ?_⟩
    obtain ⟨confirmation, hconfirm⟩ := confirmIntent_spec h
    obtain ⟨i, hi, -, -, ⟨digest, _, _, hdigest, hs⟩, hrecorded, -⟩ := confirm_recorded hconfirm
    exact ⟨hrecorded, i, hi, by rw [hdigest, hs]; rfl⟩
  | cancel intentId accountId now =>
    refine commit_induction hsame fun _ db' h ↦ Or.inl ?_
    obtain ⟨_, -, -, hdb'⟩ := cancelIntent_spec h
    exact .of_eq hdb' rfl
  | expireLapsed now => exact Or.inl rfl

theorem elsewhere_foreign {c : Config} {db : Database} (h : ForeignIntents c.services db)
    (a : Elsewhere) : ForeignIntents c.services (Intents.step c.intents db a.step) := by
  obtain ⟨a, ha⟩ := a
  cases a with
  | payment p => exact h.of_same (Intents.income_step _ db p).intents
  | fund e => exact commit_induction h fun _ db' he ↦ h.of_same (Intents.income_enter he).intents
  | openIntent r now =>
    refine commit_induction h fun _ db' hopen ↦ ?_
    exact h.insert (openIntent_spec hopen).2.1 fun _ hd ↦ nomatch hd
  | uploadBundle r =>
    refine commit_induction h fun _ db' hupload ↦ ?_
    obtain ⟨intent, hmem, -, hdb'⟩ := uploadBundle_spec hupload
    refine h.update (congrArg (·.intents.rows) hdb') fun i hi digest hdigest ↦ ?_
    cases hdigest
    exact foreign_intent _ _ _
  | confirm r =>
    refine commit_induction h fun out db' hok ↦ ?_
    obtain ⟨confirmation, hconfirm⟩ := confirmIntent_spec hok
    obtain ⟨_, -, -, -, -, -, hintents⟩ := confirm_recorded hconfirm
    exact h.update (congrArg Table.rows hintents) h
  | cancel intentId accountId now =>
    refine commit_induction h fun _ db' hcancel ↦ ?_
    obtain ⟨_, -, -, hdb'⟩ := cancelIntent_spec hcancel
    refine h.update (congrArg (·.intents.rows) hdb') fun i hi digest hdigest ↦ ?_
    exact h i hi digest hdigest
  | expireLapsed now => exact h.update rfl h

/-! ## The endpoints -/

/-- What the transfer's path leaves: nothing, for a replay, or one row for this request. -/
theorem writeExtrinsic_spec {svc : IntakeServices} {r : ExtrinsicRequest} {signature : Bytes}
    {entry : TaskEntry} {u : Upload} {db db' : Database} {view : SubmissionView}
    (h : writeExtrinsic svc r signature entry u db = .ok (view, db')) :
    (view.replayed = true ∧ db' = db ∧ view.submission ∈ db.submissions.rows ∧
        view.submission.signerIdx = some (r.signerColdkey, r.idempotencyKey) ∧
        view.submission.requestDigest = svc.digest (.extrinsic r)) ∨
      (view.replayed = false ∧ db'.intents = db.intents ∧
        Recorded db view.submission db' ∧ Owns (.extrinsic r) view.submission ∧
        view.submission.requestDigest = svc.digest (.extrinsic r)) := by
  simp only [writeExtrinsic, bind_eq_ok, require_eq_ok, mapError_eq_ok, submit] at h
  obtain ⟨_, -, _, hproof, _, -, _, -, amountRao, -, transfer, -, ⟨view₁, db₁⟩,
    ⟨_, -, ⟨view₂, db₂⟩, hcreate, hspend⟩, _, -, h⟩ := h
  cases h
  unfold createSubmission at hcreate
  split at hcreate
  · rename_i existing hfind
    simp only [bind_eq_ok, require_eq_ok] at hcreate
    obtain ⟨_, hdigest, h⟩ := hcreate
    cases h
    cases hspend
    obtain ⟨hmem, hkey⟩ := findByIdempotencyKey_eq_some hfind
    exact Or.inl ⟨rfl, rfl, hmem, hkey, hdigest⟩
  · simp only [bind_eq_ok, mapError_eq_ok] at hcreate
    obtain ⟨db₃, hins, h⟩ := hcreate
    cases h
    simp only [Bool.false_eq_true, if_false, bind_eq_ok, mapError_eq_ok] at hspend
    obtain ⟨db₄, hclaim, h⟩ := hspend
    cases h
    obtain ⟨-, -, -, -, hdb⟩ := claimForSubmission_spec hclaim
    have hrecorded := @recorded_insert db _ _ _ hins rfl
    refine Or.inr ⟨rfl, ?_, hrecorded.of_same (by rw [hdb]), ⟨rfl, rfl, rfl, hproof, rfl⟩, rfl⟩
    rw [hdb, (insertSubmission_spec hins).rest]
    rfl

/-- What a browser's request leaves: one row for it. -/
theorem writeWeb_spec {svc : IntakeServices} {r : WebRequest} {signature : Bytes}
    {expiresAt : Instant} {entry : TaskEntry} {u : Upload} {db db' : Database}
    {view : SubmissionView} (h : writeWeb svc r signature expiresAt entry u db = .ok (view, db')) :
    view.replayed = false ∧ Recorded db view.submission db' ∧ Owns (.web r) view.submission ∧
      Foreign svc view.submission.requestDigest ∧
      (ForeignIntents svc db → ForeignIntents svc db') := by
  simp only [writeWeb, bind_eq_ok, require_eq_ok, mapError_eq_ok] at h
  obtain ⟨_, -, _, -, _, -, ⟨⟨intent, balance⟩, db₁⟩, hopen, db₂, hattach, amountRao, -,
    ⟨confirmed, db₃⟩, hconfirm, _, -, h⟩ := h
  cases h
  have hopened : intent = (r.intent svc u).row := by
    simp only [openIntent, bind_eq_ok, require_eq_ok, need_eq_ok] at hopen
    obtain ⟨_, -, _, -, _, -, intents, -, h⟩ := hopen
    cases h
    rfl
  subst hopened
  obtain ⟨-, hins, hdb₁, -⟩ := openIntent_spec hopen
  have hmem : (r.intent svc u).row ∈ db₁.intents.rows := by
    rw [Table.rows_of_insert? hins]
    exact List.mem_append_right _ (List.mem_singleton.mpr rfl)
  obtain ⟨-, hdb₂⟩ := attachBundle_spec hmem hattach
  obtain ⟨i, hi, hid, -, ⟨digest, sha256, ledgerId, hdigest, hs⟩, hrecorded, hintents⟩ :=
    confirm_recorded hconfirm
  -- the intent the confirmation reads is the one this request opened
  have hattached : i = (r.intent svc u).row.attached u.proofContent u.proofSha256
      (r.digest svc u expiresAt) := by
    refine db₂.intents.eq_of_key hi ?_ hid
    rw [hdb₂]
    exact (@Table.mem_modify_of_mem _ _ _ _ _ (·.attached_id u.proofContent u.proofSha256
      (r.digest svc u expiresAt)) _ _ _ hmem).mpr (Or.inr rfl)
  subst hattached
  have hdigest' : confirmed.submission.requestDigest = r.digest svc u expiresAt := by
    rw [hs]
    exact (Option.some.inj hdigest).symm
  have hsubmissions : db₂.submissions = db.submissions := by rw [hdb₂, hdb₁]
  refine ⟨rfl, ?_, ?_, ?_, ?_⟩
  · exact
      { rows := by rw [hrecorded.rows, hsubmissions]
        fresh := by rw [← hsubmissions]; exact hrecorded.fresh
        session := by rw [← hsubmissions]; exact hrecorded.session
        signer := by rw [← hsubmissions]; exact hrecorded.signer }
  · rw [hs]
    exact ⟨rfl, rfl, rfl, rfl, rfl⟩
  · rw [hdigest']
    exact foreign_web svc r u expiresAt
  · intro h
    have h₁ : ForeignIntents svc db₁ := h.insert hins fun _ hd ↦ by cases hd
    have h₂ : ForeignIntents svc db₂ := by
      refine h₁.update (congrArg (·.intents.rows) hdb₂) fun i hi digest hd ↦ ?_
      cases hd
      exact foreign_web svc r u expiresAt
    exact h₂.update (congrArg Table.rows hintents) h₂

end Conjectures.Intake

import Conjectures.Db.Competition
import Conjectures.Lib.Run

/-!
# The competition queue

Workers claim submissions, run the gate for as long as it takes and report; stale claims are
swept back into the queue, and an operator may do the same.  A worker's report may arrive after
its claim was taken away, and `finish`, `abandon` and `requeue` do not look at the state they
find.  The claims table and the states stay in step exactly while no report arrives on a
submission that is already decided (`Timely`).
-/

namespace Conjectures.Competition

open Lib Db.Competition
open Db (Ss58 Instant Digest)

/-! ## The system -/

inductive Action where
  | add (hotkey : Ss58) (digest : Digest) (now : Instant)
  | publish (neurons : List Neuron) (blockTime : ℕ → Option Instant)
  | claimNext (workerId : String) (locked : List ℕ) (now : Instant)
  | finish (id : ℕ) (state : SubmissionState) (fields : List (String × Score))
    (locked : List ℕ) (unseen : ℕ) (now : Instant)
  | abandon (id : ℕ) (note : String) (now : Instant)
  | requeue (id : ℕ)
  | requeueStale (cutoff : Instant) (locked : List ℕ)
  | requeueSubmission (id : ℕ)

def step (db : CompetitionDatabase) : Action → CompetitionDatabase
  | .add hotkey digest now => commit (Db.Competition.add hotkey digest now) db
  | .publish neurons blockTime => commit (publishSnapshot neurons blockTime) db
  | .claimNext workerId locked now => commit (Db.Competition.claimNext workerId locked now) db
  | .finish id state fields locked unseen now =>
    commit (Db.Competition.finish id state fields locked unseen now) db
  | .abandon id note now => commit (Db.Competition.abandon id note now) db
  | .requeue id => commit (Db.Competition.requeue id) db
  | .requeueStale cutoff locked => commit (Db.Competition.requeueStale cutoff locked) db
  | .requeueSubmission id => commit (Db.Competition.requeueSubmission id) db

/-! ## What is promised -/

/-- A verdict was recorded. -/
def Decided (state : SubmissionState) : Prop := state = .accepted ∨ state = .rejected

instance Decided.decidable (state : SubmissionState) : Decidable (Decided state) := by
  unfold Decided; infer_instance

/-- A submission is accepted where exactly one claim names it, and no registration is spent by
two. -/
structure Paid (db : CompetitionDatabase) : Prop where
  accepted : ∀ s ∈ db.submissions.rows,
    s.state = .accepted ↔ (db.claims.rows.filter (·.submissionId = s.id)).length = 1
  spent : ∀ c ∈ db.claims.rows, ∀ c' ∈ db.claims.rows, c.registrationId = c'.registrationId →
    c.submissionId = c'.submissionId

/-- What was decided is decided the same way afterwards. -/
def Final (db db' : CompetitionDatabase) : Prop :=
  ∀ s ∈ db.submissions.rows, Decided s.state →
    ∃ s' ∈ db'.submissions.rows, s'.id = s.id ∧ s'.state = s.state

/-- A step keeps to it. -/
def Keeps (db : CompetitionDatabase) (a : Action) : Prop :=
  Paid (step db a) ∧ Final db (step db a)

/-! ## When it holds -/

/-- The registration that would be spent is free, claims that were not seen included. -/
def Free (hotkey : Ss58) (locked : List ℕ) (unseen : ℕ) (db : CompetitionDatabase) : Prop :=
  ∃ r ∈ freeRegistration hotkey locked unseen db, ∀ c ∈ db.claims.rows, c.registrationId ≠ r.id

/-- A report that changes nothing on a submission in this state. -/
def Repeats (db : CompetitionDatabase) (hotkey : Ss58) (locked : List ℕ) (unseen : ℕ)
    (reported : SubmissionState) : SubmissionState → Prop
  | .accepted => reported = .accepted ∧ (freeRegistration hotkey locked unseen db).isSome
  | .rejected => reported = .rejected ∨
    (reported = .accepted ∧ ¬ Free hotkey locked unseen db)
  | _ => True

/-- No report arrives on a decided submission, unless it says what was decided. -/
def Timely (db : CompetitionDatabase) : Action → Prop
  | .finish id state fields locked unseen _ => (∀ f ∈ fields, f.1 ∈ scoreFields) →
    ∀ s ∈ db.submissions.rows, s.id = id → Repeats db s.hotkey locked unseen state s.state
  | .abandon id _ _ => ∀ s ∈ db.submissions.rows, s.id = id → ¬ Decided s.state
  | .requeue id => ∀ s ∈ db.submissions.rows, s.id = id → ¬ Decided s.state
  | _ => True

/-! ## The tables are in step -/

structure Balanced (db : CompetitionDatabase) : Prop where
  unique : Lib.Unique EntitlementClaim.submissionIdx db.claims.rows
  accepted : ∀ s ∈ db.submissions.rows,
    s.state = .accepted ↔ ∃ c ∈ db.claims.rows, c.submissionId = s.id
  known : ∀ c ∈ db.claims.rows, ∃ s ∈ db.submissions.rows, s.id = c.submissionId

theorem balanced_empty : Balanced .empty := by
  refine ⟨?_, ?_, ?_⟩ <;> simp [CompetitionDatabase.empty, Lib.Unique]

theorem Balanced.eq_of_submissionId {db : CompetitionDatabase} (h : Balanced db)
    {c c' : EntitlementClaim} (hc : c ∈ db.claims.rows) (hc' : c' ∈ db.claims.rows)
    (heq : c.submissionId = c'.submissionId) : c = c' :=
  h.unique c hc c' hc' c.submissionId rfl (congrArg some heq.symm)

theorem Balanced.paid {db : CompetitionDatabase} (h : Balanced db) : Paid db := by
  refine ⟨fun s hs ↦ (h.accepted s hs).trans ⟨fun ⟨c, hc, hid⟩ ↦ ?_, fun hone ↦ ?_⟩,
    fun c hc c' hc' heq ↦ congrArg _ (db.claims.eq_of_key hc hc' heq)⟩
  · refine le_antisymm (db.claims.length_filter_le_one fun c₁ h₁ c₂ h₂ hp₁ hp₂ ↦ ?_)
      (List.length_pos_of_mem (List.mem_filter.mpr ⟨hc, decide_eq_true hid⟩))
    exact h.eq_of_submissionId h₁ h₂
      ((of_decide_eq_true hp₁).trans (of_decide_eq_true hp₂).symm)
  · obtain ⟨c, hc⟩ := List.length_pos_iff_exists_mem.mp (by rw [hone]; exact Nat.one_pos)
    obtain ⟨hmem, hid⟩ := List.mem_filter.mp hc
    exact ⟨c, hmem, of_decide_eq_true hid⟩

/-! ## What the transactions do -/

/-- A slot is claimed where the registration is free and the submission holds none. -/
theorem claimSlot_ok {db db' : CompetitionDatabase} {hotkey : Ss58} {id registrationId : ℕ}
    {locked : List ℕ} {unseen : ℕ}
    (h : claimSlot hotkey id locked unseen db = .ok (registrationId, db')) :
    (∀ c ∈ db.claims.rows, c.submissionId ≠ id) ∧ Free hotkey locked unseen db ∧
      db'.submissions = db.submissions ∧
      db'.claims.rows = db.claims.rows ++ [⟨registrationId, id⟩] := by
  simp only [claimSlot, bind_eq_ok, need_eq_ok, require_eq_ok] at h
  obtain ⟨r, hr, -, htaken, claims, hinsert, h⟩ := h
  cases h
  refine ⟨fun c hc hid ↦ htaken ⟨c, hc, congrArg some hid, rfl⟩,
    ⟨r, hr, Table.fresh_of_insert? hinsert⟩, rfl, Table.rows_of_insert? hinsert⟩

theorem claimSlot_noSlot {db : CompetitionDatabase} {hotkey : Ss58} {id : ℕ}
    {locked : List ℕ} {unseen : ℕ} (h : claimSlot hotkey id locked unseen db = .error .noSlot) :
    freeRegistration hotkey locked unseen db = none := by
  simp only [claimSlot, bind_eq_error, need_eq_error, require_eq_error, need_eq_ok] at h
  rcases h with ⟨h, -⟩ | ⟨r, -, ⟨-, h⟩ | ⟨-, -, ⟨-, h⟩ | ⟨claims, -, h⟩⟩⟩
  · exact h
  · cases h
  · cases h
  · cases h

theorem claimSlot_of_free {db : CompetitionDatabase} {hotkey : Ss58} {id : ℕ}
    {locked : List ℕ} {unseen : ℕ} (hfree : Free hotkey locked unseen db)
    (hnone : ∀ c ∈ db.claims.rows, c.submissionId ≠ id) :
    ∃ registrationId db', claimSlot hotkey id locked unseen db = .ok (registrationId, db') := by
  obtain ⟨r, hr, hfree⟩ := hfree
  have htaken : ¬ Taken EntitlementClaim.submissionIdx db.claims.rows ⟨r.id, id⟩ := by
    rintro ⟨c, hc, heq, -⟩
    exact hnone c hc (Option.some.inj heq)
  cases hinsert : db.claims.insert? ⟨r.id, id⟩ with
  | none =>
    obtain ⟨c, hc, heq⟩ := Table.insert?_eq_none.mp hinsert
    exact absurd heq (hfree c hc)
  | some claims =>
    refine ⟨r.id, { db with claims }, ?_⟩
    simp only [claimSlot, bind_eq_ok, need_eq_ok, require_eq_ok]
    exact ⟨r, hr, (), htaken, claims, hinsert, rfl⟩

/-- What `finish` does to the row it finds. -/
inductive Finished (db : CompetitionDatabase) (s : Submission) (state : SubmissionState)
    (fields : List (String × Score)) (locked : List ℕ) (unseen : ℕ) (now : Instant) :
    CompetitionDatabase → Prop
  | recorded (hstate : state ≠ .accepted) : Finished db s state fields locked unseen now
      (writeSubmission db s.id (·.finished fields now state)
        (Submission.finished_id fields now state))
  | unpaid (hstate : state = .accepted)
    (hnone : freeRegistration s.hotkey locked unseen db = none) :
    Finished db s state fields locked unseen now
      (writeSubmission db s.id (·.unpaid fields now) (Submission.unpaid_id fields now))
  | paid (hstate : state = .accepted) (registrationId : ℕ) (db' : CompetitionDatabase)
    (hclaim : claimSlot s.hotkey s.id locked unseen db = .ok (registrationId, db')) :
    Finished db s state fields locked unseen now
      (writeSubmission db' s.id (·.finished fields now .accepted)
        (Submission.finished_id fields now .accepted))

theorem finish_ok {db db' : CompetitionDatabase} {id : ℕ} {state final : SubmissionState}
    {fields : List (String × Score)} {locked : List ℕ} {unseen : ℕ} {now : Instant}
    (h : finish id state fields locked unseen now db = .ok (final, db')) :
    (∀ f ∈ fields, f.1 ∈ scoreFields) ∧ ∃ s ∈ db.submissions.rows, s.id = id ∧
      Finished db s state fields locked unseen now db' := by
  simp only [finish, bind_eq_ok, require_eq_ok, need_eq_ok, Table.find?_eq_some] at h
  obtain ⟨-, hfields, s, ⟨hs, rfl⟩, h⟩ := h
  refine ⟨hfields, s, hs, rfl, ?_⟩
  split at h
  · rename_i hstate
    split at h
    · rename_i registrationId db₁ hclaim
      cases h
      exact .paid hstate registrationId db₁ hclaim
    · rename_i hclaim
      cases h
      exact .unpaid hstate (claimSlot_noSlot hclaim)
    · cases h
  · rename_i hstate
    cases h
    exact .recorded hstate

theorem claimSlot_of_none {db : CompetitionDatabase} {hotkey : Ss58} {id : ℕ}
    {locked : List ℕ} {unseen : ℕ} (hnone : freeRegistration hotkey locked unseen db = none) :
    claimSlot hotkey id locked unseen db = .error .noSlot := by
  simp only [claimSlot, bind_eq_error, need_eq_error]
  exact Or.inl ⟨hnone, trivial⟩

theorem finish_of_finished {db db' : CompetitionDatabase} {s : Submission}
    {state : SubmissionState} {fields : List (String × Score)} {locked : List ℕ} {unseen : ℕ}
    {now : Instant} (hs : s ∈ db.submissions.rows) (hfields : ∀ f ∈ fields, f.1 ∈ scoreFields)
    (h : Finished db s state fields locked unseen now db') :
    commit (finish s.id state fields locked unseen now) db = db' := by
  obtain ⟨final, hok⟩ : ∃ final, finish s.id state fields locked unseen now db =
      .ok (final, db') := by
    simp only [finish, bind_eq_ok, require_eq_ok, need_eq_ok, Table.find?_eq_some]
    cases h with
    | recorded hstate => exact ⟨state, (), hfields, s, ⟨hs, rfl⟩, if_neg hstate⟩
    | unpaid hstate hnone =>
      refine ⟨.rejected, (), hfields, s, ⟨hs, rfl⟩, ?_⟩
      rw [if_pos hstate, claimSlot_of_none hnone]
      rfl
    | paid hstate registrationId db₁ hclaim =>
      refine ⟨.accepted, (), hfields, s, ⟨hs, rfl⟩, ?_⟩
      rw [if_pos hstate, hclaim]
      rfl
  exact commit_of_ok hok

/-! ## One step -/

/-- The tables are in step afterwards, and what was decided stays. -/
def Good (db db' : CompetitionDatabase) : Prop := Balanced db' ∧ Final db db'

theorem final_refl (db : CompetitionDatabase) : Final db db := fun s hs _ ↦ ⟨s, hs, rfl, rfl⟩

theorem Balanced.good_refl {db : CompetitionDatabase} (h : Balanced db) : Good db db :=
  ⟨h, final_refl db⟩

/-- Registrations are not looked at. -/
theorem Balanced.good_registrations {db : CompetitionDatabase} (h : Balanced db)
    (registrations : Table Registration.id) : Good db { db with registrations } :=
  ⟨⟨h.unique, h.accepted, h.known⟩, final_refl db⟩

/-- A state is left as it was, or was not decided and is not accepted. -/
def Harmless (s s' : SubmissionState) : Prop := s' = s ∨ (¬ Decided s ∧ s' ≠ .accepted)

theorem Harmless.accepted_iff {s s' : SubmissionState} (h : Harmless s s') :
    s' = .accepted ↔ s = .accepted := by
  rcases h with rfl | ⟨hopen, hstate⟩
  · rfl
  · exact iff_of_false hstate fun haccepted ↦ hopen (Or.inl haccepted)

/-- Rewriting submissions in a harmless way, row by row. -/
theorem Balanced.good_map {db : CompetitionDatabase} {submissions : Table Submission.id}
    {g : Submission → Submission} (h : Balanced db)
    (hrows : submissions.rows = db.submissions.rows.map g) (hid : ∀ s, (g s).id = s.id)
    (hstate : ∀ s ∈ db.submissions.rows, Harmless s.state (g s).state) :
    Good db { db with submissions } := by
  refine ⟨⟨h.unique, fun s' hs' ↦ ?_, fun c hc ↦ ?_⟩, fun s hs hdecided ↦ ?_⟩
  · obtain ⟨s, hs, rfl⟩ := List.mem_map.mp (hrows ▸ hs')
    rw [(hstate s hs).accepted_iff, hid]
    exact h.accepted s hs
  · obtain ⟨s, hs, hc⟩ := h.known c hc
    exact ⟨g s, hrows ▸ List.mem_map_of_mem hs, (hid s).trans hc⟩
  · refine ⟨g s, hrows ▸ List.mem_map_of_mem hs, hid s, ?_⟩
    exact (hstate s hs).resolve_right fun hopen ↦ hopen.1 hdecided

theorem Balanced.good_write {db : CompetitionDatabase} {id : ℕ} {f : Submission → Submission}
    {hf : ∀ s, (f s).id = s.id} (h : Balanced db)
    (hstate : ∀ s ∈ db.submissions.rows, s.id = id → Harmless s.state (f s).state) :
    Good db (writeSubmission db id f hf) := by
  refine h.good_map (g := fun s ↦ if decide (s.id = id) then f s else s) rfl (fun s ↦ ?_)
    fun s hs ↦ ?_
  · split
    · exact hf s
    · rfl
  · split
    · exact hstate s hs (of_decide_eq_true ‹_›)
    · exact Or.inl rfl

theorem good_add {db db' : CompetitionDatabase} {hotkey : Ss58} {digest : Digest} {now : Instant}
    {r : ℕ × Bool} (h : Balanced db) (hok : add hotkey digest now db = .ok (r, db')) :
    Good db db' := by
  unfold add at hok
  split at hok
  · cases hok
    exact h.good_refl
  · cases hok
    refine ⟨⟨h.unique, fun s hs ↦ ?_, fun c hc ↦ ?_⟩, fun s hs _ ↦ ⟨s, ?_, rfl, rfl⟩⟩
    · rcases List.mem_append.mp hs with hs | hs
      · exact h.accepted s hs
      · rw [List.mem_singleton.mp hs]
        refine iff_of_false nofun ?_
        rintro ⟨c, hc, hid⟩
        obtain ⟨s', hs', hid'⟩ := h.known c hc
        exact absurd (hid'.trans hid) (Nat.ne_of_lt (Table.lt_nextId hs'))
    · obtain ⟨s, hs, hid⟩ := h.known c hc
      exact ⟨s, List.mem_append_left _ hs, hid⟩
    · exact List.mem_append_left _ hs

theorem good_claimNext {db db' : CompetitionDatabase} {workerId : String} {locked : List ℕ}
    {now : Instant} {r : Option Submission} (h : Balanced db)
    (hok : claimNext workerId locked now db = .ok (r, db')) : Good db db' := by
  simp only [claimNext] at hok
  split at hok
  · cases hok
    exact h.good_refl
  · rename_i s holdest
    cases hok
    obtain ⟨hs, hqueued⟩ := List.mem_filter.mp (List.argmin_mem holdest)
    refine h.good_write fun s' hs' hid ↦ Or.inr ⟨?_, nofun⟩
    rw [db.submissions.eq_of_key hs' hs hid, (of_decide_eq_true hqueued).1]
    decide

theorem good_requeueStale {db db' : CompetitionDatabase} {cutoff : Instant} {locked : List ℕ}
    {r : ℕ} (h : Balanced db) (hok : requeueStale cutoff locked db = .ok (r, db')) :
    Good db db' := by
  cases hok
  refine h.good_map (Table.rows_update _) (fun s ↦ ?_) fun s _ ↦ ?_
  · split <;> rfl
  · split
    · rename_i hstale
      exact Or.inr ⟨by rw [(of_decide_eq_true hstale).1]; decide, nofun⟩
    · exact Or.inl rfl

theorem good_requeueSubmission {db db' : CompetitionDatabase} {id : ℕ} {r : Option ℕ}
    (h : Balanced db) (hok : requeueSubmission id db = .ok (r, db')) : Good db db' := by
  unfold requeueSubmission at hok
  split at hok
  · rename_i s hfound
    obtain ⟨hs, -⟩ := Table.find?_eq_some.mp hfound
    split at hok
    · rename_i hstate
      cases hok
      refine h.good_write fun s' hs' hid ↦ Or.inr ⟨?_, nofun⟩
      rw [db.submissions.eq_of_key hs' hs hid]
      rcases hstate with hstate | hstate <;> rw [hstate] <;> decide
    · cases hok
      exact h.good_refl
  · cases hok
    exact h.good_refl

/-- The claim is recorded with the state that it pays for. -/
theorem good_paid {db db' : CompetitionDatabase} {s : Submission} {f : Submission → Submission}
    {hf : ∀ s, (f s).id = s.id} {locked : List ℕ} {unseen registrationId : ℕ} (h : Balanced db)
    (hs : s ∈ db.submissions.rows) (hopen : ¬ Decided s.state)
    (hclaim : claimSlot s.hotkey s.id locked unseen db = .ok (registrationId, db'))
    (hstate : ∀ s, (f s).state = .accepted) : Good db (writeSubmission db' s.id f hf) := by
  obtain ⟨hnone, -, hsubmissions, hclaims⟩ := claimSlot_ok hclaim
  have hrows : (writeSubmission db' s.id f hf).claims.rows =
      db.claims.rows ++ [⟨registrationId, s.id⟩] := hclaims
  refine ⟨⟨?_, fun s' hs' ↦ ?_, fun c hc ↦ ?_⟩, fun s' hs' hdecided ↦ ?_⟩
  · rw [hrows]
    refine h.unique.append ?_
    rintro ⟨c, hc, heq, -⟩
    exact hnone c hc (Option.some.inj heq)
  · rw [hrows]
    rcases mem_writeSubmission.mp hs' with ⟨hs', hne⟩ | ⟨s₁, hs₁, hid, rfl⟩
    · rw [h.accepted s' (hsubmissions ▸ hs')]
      simp only [List.mem_append, List.mem_singleton, or_and_right, exists_or, exists_eq_left]
      exact (or_iff_left hne.symm).symm
    · refine iff_of_true (hstate s₁) ⟨_, List.mem_append_right _ List.mem_cons_self, ?_⟩
      rw [hf, hid]
  · obtain ⟨s', hs', hid⟩ : ∃ s' ∈ db.submissions.rows, s'.id = c.submissionId := by
      rcases List.mem_append.mp (hrows ▸ hc) with hc | hc
      · exact h.known c hc
      · rw [List.mem_singleton.mp hc]
        exact ⟨s, hs, rfl⟩
    refine ⟨_, row_writeSubmission (hsubmissions ▸ hs'), ?_⟩
    split
    · rw [hf, hid]
    · exact hid
  · have hne : s'.id ≠ s.id := fun hid ↦ hopen (db.submissions.eq_of_key hs' hs hid ▸ hdecided)
    refine ⟨s', ?_, rfl, rfl⟩
    exact mem_writeSubmission.mpr (Or.inl ⟨hsubmissions ▸ hs', hne⟩)

theorem good_finish {db db' : CompetitionDatabase} {id : ℕ} {state final : SubmissionState}
    {fields : List (String × Score)} {locked : List ℕ} {unseen : ℕ} {now : Instant}
    (h : Balanced db) (htimely : Timely db (.finish id state fields locked unseen now))
    (hok : finish id state fields locked unseen now db = .ok (final, db')) : Good db db' := by
  obtain ⟨hfields, s, hs, rfl, hfinished⟩ := finish_ok hok
  have hrepeats := htimely hfields s hs rfl
  have hsame : ∀ s' ∈ db.submissions.rows, s'.id = s.id → s' = s := fun s' hs' hid ↦
    db.submissions.eq_of_key hs' hs hid
  cases hfinished with
  | recorded hstate =>
    refine h.good_write fun s' hs' hid ↦ ?_
    rw [hsame s' hs' hid]
    cases hrow : s.state with
    | accepted =>
      rw [hrow] at hrepeats
      exact absurd hrepeats.1 hstate
    | rejected =>
      rw [hrow] at hrepeats
      exact Or.inl (hrepeats.resolve_right fun hrepeats ↦ hstate hrepeats.1)
    | queued => exact Or.inr ⟨by decide, hstate⟩
    | verifying => exact Or.inr ⟨by decide, hstate⟩
    | error => exact Or.inr ⟨by decide, hstate⟩
  | unpaid hstate hnone =>
    refine h.good_write fun s' hs' hid ↦ ?_
    rw [hsame s' hs' hid]
    cases hrow : s.state with
    | accepted =>
      rw [hrow, Repeats, hnone] at hrepeats
      cases hrepeats.2
    | rejected => exact Or.inl rfl
    | queued => exact Or.inr ⟨by decide, nofun⟩
    | verifying => exact Or.inr ⟨by decide, nofun⟩
    | error => exact Or.inr ⟨by decide, nofun⟩
  | paid hstate registrationId db₁ hclaim =>
    refine good_paid h hs (fun hdecided ↦ ?_) hclaim fun _ ↦ rfl
    obtain ⟨hnone, hfree, -⟩ := claimSlot_ok hclaim
    rcases hdecided with hrow | hrow
    · obtain ⟨c, hc, hid⟩ := (h.accepted s hs).mp hrow
      exact hnone c hc hid
    · rw [hrow] at hrepeats
      rcases hrepeats with hrejected | ⟨-, htaken⟩
      · rw [hstate] at hrejected
        cases hrejected
      · exact htaken hfree

theorem step_good {db : CompetitionDatabase} {a : Action} (h : Balanced db) (ha : Timely db a) :
    Good db (step db a) := by
  have hrefl := h.good_refl
  cases a with
  | add hotkey digest now => exact commit_induction hrefl fun _ _ hok ↦ good_add h hok
  | publish neurons blockTime =>
    refine commit_induction hrefl fun _ _ hok ↦ ?_
    simp only [publishSnapshot, bind_eq_ok] at hok
    obtain ⟨rows, -, hok⟩ := hok
    cases hok
    exact h.good_registrations _
  | claimNext workerId locked now => exact commit_induction hrefl fun _ _ hok ↦ good_claimNext h hok
  | finish id state fields locked unseen now =>
    exact commit_induction hrefl fun _ _ hok ↦ good_finish h ha hok
  | abandon id note now =>
    refine commit_induction hrefl fun _ _ hok ↦ ?_
    simp only [abandon, bind_eq_ok, need_eq_ok, Table.find?_eq_some] at hok
    obtain ⟨s, ⟨hs, rfl⟩, hok⟩ := hok
    cases hok
    exact h.good_write fun s' hs' hid ↦ Or.inr ⟨ha s' hs' hid, fun h ↦ by cases h⟩
  | requeue id =>
    change Good db (writeSubmission db id Submission.requeued Submission.requeued_id)
    exact h.good_write fun s' hs' hid ↦ Or.inr ⟨ha s' hs' hid, fun h ↦ by cases h⟩
  | requeueStale cutoff locked =>
    exact commit_induction hrefl fun _ _ hok ↦ good_requeueStale h hok
  | requeueSubmission id => exact commit_induction hrefl fun _ _ hok ↦ good_requeueSubmission h hok

/-! ## Late reports do harm -/

/-- What a write that keeps decisions did to a decided row. -/
theorem state_of_final {db db' : CompetitionDatabase} {id : ℕ} {f : Submission → Submission}
    {hf : ∀ s, (f s).id = s.id} (hsubmissions : db'.submissions = db.submissions)
    (h : Final db (writeSubmission db' id f hf)) {s : Submission}
    (hs : s ∈ db.submissions.rows) (hid : s.id = id) (hdecided : Decided s.state) :
    (f s).state = s.state := by
  obtain ⟨s', hs', hid', hstate⟩ := h s hs hdecided
  rcases mem_writeSubmission.mp hs' with ⟨-, hne⟩ | ⟨s₁, hs₁, hid₁, rfl⟩
  · exact absurd (hid'.trans hid) hne
  · rw [← db.submissions.eq_of_key (hsubmissions ▸ hs₁) hs (hid₁.trans hid.symm)] at hstate ⊢
    exact hstate

theorem repeats_of_keeps {db : CompetitionDatabase} {s : Submission} {state : SubmissionState}
    {fields : List (String × Score)} {locked : List ℕ} {unseen : ℕ} {now : Instant}
    (h : Balanced db) (hs : s ∈ db.submissions.rows) (hfields : ∀ f ∈ fields, f.1 ∈ scoreFields)
    (hkeeps : Final db (commit (finish s.id state fields locked unseen now) db)) :
    Repeats db s.hotkey locked unseen state s.state := by
  have hrecorded : state ≠ .accepted → Decided s.state → state = s.state := by
    intro hstate hdecided
    rw [finish_of_finished hs hfields (.recorded hstate)] at hkeeps
    exact state_of_final rfl hkeeps hs rfl hdecided
  cases hrow : s.state with
  | accepted =>
    rw [hrow] at hrecorded
    have haccepted : state = .accepted := by
      by_contra hstate
      exact hstate (hrecorded hstate (Or.inl rfl))
    refine ⟨haccepted, Option.ne_none_iff_isSome.mp fun hnone ↦ ?_⟩
    rw [finish_of_finished hs hfields (.unpaid haccepted hnone)] at hkeeps
    have := state_of_final rfl hkeeps hs rfl (Or.inl hrow)
    rw [hrow] at this
    cases this
  | rejected =>
    rw [hrow] at hrecorded
    by_cases hstate : state = .accepted
    · refine Or.inr ⟨hstate, fun hfree ↦ ?_⟩
      have hnone : ∀ c ∈ db.claims.rows, c.submissionId ≠ s.id := fun c hc hid ↦ by
        have := (h.accepted s hs).mpr ⟨c, hc, hid⟩
        rw [hrow] at this
        cases this
      obtain ⟨registrationId, db', hclaim⟩ := claimSlot_of_free hfree hnone
      rw [finish_of_finished hs hfields (.paid hstate registrationId db' hclaim)] at hkeeps
      have := state_of_final (claimSlot_ok hclaim).2.2.1 hkeeps hs rfl (Or.inr hrow)
      rw [hrow] at this
      cases this
    · exact Or.inl (hrecorded hstate (Or.inr rfl))
  | queued => trivial
  | verifying => trivial
  | error => trivial

theorem timely_of_keeps {db : CompetitionDatabase} {a : Action} (h : Balanced db)
    (hkeeps : Keeps db a) : Timely db a := by
  have hfinal := hkeeps.2
  cases a with
  | finish id state fields locked unseen now =>
    rintro hfields s hs rfl
    exact repeats_of_keeps h hs hfields hfinal
  | abandon id note now =>
    rintro s hs rfl hdecided
    have hok : abandon s.id note now db = .ok ((), writeSubmission db s.id (·.abandoned note now)
        (Submission.abandoned_id note now)) := by
      simp only [abandon, bind_eq_ok, need_eq_ok, Table.find?_eq_some]
      exact ⟨s, ⟨hs, rfl⟩, rfl⟩
    rw [step, commit_of_ok hok] at hfinal
    have := state_of_final rfl hfinal hs rfl hdecided
    rw [← this] at hdecided
    rcases hdecided with hdecided | hdecided <;> cases hdecided
  | requeue id =>
    rintro s hs rfl hdecided
    have := @state_of_final db db s.id _ Submission.requeued_id rfl hfinal s hs rfl hdecided
    rw [← this] at hdecided
    rcases hdecided with hdecided | hdecided <;> cases hdecided
  | add hotkey digest now => trivial
  | publish neurons blockTime => trivial
  | claimNext workerId locked now => trivial
  | requeueStale cutoff locked => trivial
  | requeueSubmission id => trivial

/-! ## Every run -/

theorem verdicts_stay_paid (as : List Action) :
    Each step Timely .empty as ↔ Each step Keeps .empty as := by
  constructor
  · refine fun has ↦ Each.imp (fun db a ha h ↦ (step_good h ha).1) (fun db a ha h ↦ ?_) has
      balanced_empty
    obtain ⟨hbalanced, hfinal⟩ := step_good h ha
    exact ⟨hbalanced.paid, hfinal⟩
  · refine fun has ↦ Each.imp (fun db a ha h ↦ (step_good h (timely_of_keeps h ha)).1)
      (fun db a ha h ↦ timely_of_keeps h ha) has balanced_empty

/-! ## A slow worker -/

/-- The claim of the first worker goes stale, the second one's verdict is recorded, and then the
first one's gate is done too. -/
def lateVerdict : List Action :=
  [.publish [⟨0, "hotkey", "coldkey", 10⟩] fun _ ↦ some 0, .add "hotkey" "digest" 1,
    .claimNext "first" [] 2, .requeueStale 3 [], .claimNext "second" [] 4,
    .finish 1 .accepted [] [] 0 5, .finish 1 .rejected [] [] 0 6]

theorem late_verdict_overwrites : ¬ Paid (run step .empty lateVerdict) := by
  have hstate : (run step .empty lateVerdict).submissions.rows.map (fun s ↦ (s.id, s.state)) =
      [(1, .rejected)] := by decide +kernel
  have hclaims : (run step .empty lateVerdict).claims.rows = [⟨1, 1⟩] := by decide +kernel
  intro hpaid
  obtain ⟨s, hs, heq⟩ : ∃ s ∈ (run step .empty lateVerdict).submissions.rows,
      (s.id, s.state) = (1, .rejected) :=
    List.mem_map.mp (hstate ▸ List.mem_cons_self)
  obtain ⟨hid, hrejected⟩ := Prod.mk.inj heq
  have haccepted := (hpaid.accepted s hs).mpr (by rw [hclaims, hid]; rfl)
  rw [hrejected] at haccepted
  cases haccepted

end Conjectures.Competition

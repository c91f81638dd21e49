import Mathlib.Algebra.Order.Group.Nat
import Conjectures.Lib.Run
import Conjectures.Trajectories.Storage

/-!
# Storage stays within its quotas

Only the holder of the quota lock makes what is kept grow, and it checks what everyone else
keeps after it has the lock.  Until it commits the others can only release space, so what it
found room for still has room (`Fits`).
-/

namespace Conjectures.Trajectories

open Lib Db

/-! ## The system -/

structure Intake where
  db : TrajectoryStore
  /-- the transaction that holds the lock -/
  holder : Option Uncommitted
  /-- every upload id there has been, and whose it is -/
  issued : List (Uuid × Uuid)
  /-- what requests have read of uploads -/
  received : List Received

def Intake.fresh : Intake := ⟨.empty, none, [], []⟩

inductive Action where
  | start (accountId : Uuid) (byteLength : ℕ) (id : Uuid) (now : Instant)
  | deposit (claim : TrajectoryClaim) (r : Received) (now : Instant)
  /-- `accept_package`: the claim as it leaves it, its package still to be saved -/
  | revise (claim : TrajectoryClaim) (r : Received)
  /-- the holder of the lock is done -/
  | commit
  | rollback
  | append (uploadId accountId : Uuid) (offset : ℕ) (raw : Bytes) (free : ℕ) (now : Instant)
  | read (uploadId accountId : Uuid) (free : Option ℕ → ℕ) (now : Instant)
  | discard (uploadId accountId : Uuid)
  /-- a withdrawal, or the end of retention -/
  | clear (claimId : Uuid)
  /-- bound to its proof, or decided on -/
  | review (claimId : Uuid) (submissionId : Option Uuid) (status : TrajectoryStatus)
      (expiresAt : Instant)
  | purgeUploads (now : Instant)
  | purgeDeposits (now : Instant)
  | purgeRecords (claimIds : List Uuid)

/-- A transaction takes the lock, and runs up to its last check. -/
def Intake.lock (s : Intake) (t : TrajectoryStore → Except TrajectoryError Uncommitted) : Intake :=
  match s.holder with
  | some _ => s
  | none => { s with holder := (t s.db).toOption }

/-- A request has the bytes of its own body, or of an upload it has read. -/
def Intake.Holds (s : Intake) (r : Received) : Prop := r.uploadId = none ∨ r ∈ s.received

instance Intake.decidableHolds (s : Intake) (r : Received) : Decidable (s.Holds r) := by
  unfold Holds; infer_instance

def reviewed (submissionId : Option Uuid) (status : TrajectoryStatus) (expiresAt : Instant)
    (c : TrajectoryClaim) : TrajectoryClaim :=
  { c with submissionId, status, expiresAt }

theorem reviewed_id (submissionId : Option Uuid) (status : TrajectoryStatus)
    (expiresAt : Instant) (c : TrajectoryClaim) :
    (reviewed submissionId status expiresAt c).id = c.id := rfl

def step (s : Intake) : Action → Intake
  | .start accountId byteLength id now =>
    if id ∈ s.issued.map Prod.fst then s
    else { s with issued := (id, accountId) :: s.issued }.lock
      (Trajectories.start accountId byteLength id now)
  | .deposit claim r now => if s.Holds r then s.lock (depositPackage claim r now) else s
  | .revise claim r => if s.Holds r then s.lock (save [] claim r) else s
  | .commit =>
    match s.holder with
    | some t => { s with db := t.commit s.db, holder := none }
    | none => s
  | .rollback => { s with holder := none }
  | .append uploadId accountId offset raw free now =>
    { s with db := Lib.commit (Trajectories.append uploadId accountId offset raw free now) s.db }
  | .read uploadId accountId free now =>
    match Trajectories.read s.db uploadId accountId free now with
    | .ok r => { s with received := r :: s.received }
    | .error _ => s
  | .discard uploadId accountId =>
    { s with db := deleteUploads s.db fun u ↦ u.id = uploadId ∧ u.accountId = accountId }
  | .clear claimId =>
    { s with db := { s.db with claims := s.db.claims.modify claimId cleared cleared_id } }
  | .review claimId submissionId status expiresAt =>
    { s with db := { s.db with
        claims := s.db.claims.modify claimId (reviewed submissionId status expiresAt)
          (reviewed_id submissionId status expiresAt) } }
  | .purgeUploads now => { s with db := deleteUploads s.db fun u ↦ u.expiresAt ≤ now }
  | .purgeDeposits now =>
    { s with db := deleteClaims s.db fun c ↦
        c.status = .deposited ∧ c.submissionId = none ∧ c.expiresAt ≤ now }
  | .purgeRecords claimIds => { s with db := deleteClaims s.db fun c ↦ c.id ∈ claimIds }

/-! ## Bytes, row by row -/

/-- Keeping fewer rows keeps fewer bytes. -/
theorem sum_filter_le {ρ : Type} {w : ρ → ℕ} {p q : ρ → Bool} {l : List ρ}
    (h : ∀ r ∈ l, p r → q r) : ((l.filter p).map w).sum ≤ ((l.filter q).map w).sum := by
  have hsub : (l.filter p).Sublist (l.filter q) := by
    have hp : l.filter p = (l.filter q).filter p := by
      rw [List.filter_filter]
      refine List.filter_congr fun r hr ↦ Bool.eq_iff_iff.mpr ?_
      rw [Bool.and_eq_true]
      exact ⟨fun hp ↦ ⟨hp, h r hr hp⟩, And.left⟩
    exact hp ▸ List.filter_sublist
  exact (hsub.map w).sum_le_sum fun _ _ ↦ Nat.zero_le _

/-- Rewriting rows that stay in place, and weigh no more than they did. -/
theorem sum_map_filter_le {ρ : Type} {w : ρ → ℕ} {p : ρ → Bool} {f : ρ → ρ} {l : List ρ}
    (hp : ∀ r, p (f r) = p r) (hw : ∀ r, w (f r) ≤ w r) :
    (((l.map f).filter p).map w).sum ≤ ((l.filter p).map w).sum := by
  induction l with
  | nil => exact le_rfl
  | cons r l ih =>
    rw [List.map_cons, List.filter_cons, List.filter_cons, hp]
    split
    · rw [List.map_cons, List.map_cons, List.sum_cons, List.sum_cons]
      exact Nat.add_le_add (hw r) ih
    · exact ih

def claimBytes (p : Uuid → Bool) (claims : List TrajectoryClaim) : ℕ :=
  (claims.map fun c ↦ if p c.accountId then c.stored else 0).sum

def uploadBytes (p : Uuid → Bool) (uploads : List TrajectoryUpload) : ℕ :=
  (uploads.map fun u ↦ if p u.accountId then u.byteLength else 0).sum

theorem claimBytes_append (p : Uuid → Bool) (l l' : List TrajectoryClaim) :
    claimBytes p (l ++ l') = claimBytes p l + claimBytes p l' := by
  rw [claimBytes, List.map_append, List.sum_append]
  rfl

theorem uploadBytes_append (p : Uuid → Bool) (l l' : List TrajectoryUpload) :
    uploadBytes p (l ++ l') = uploadBytes p l + uploadBytes p l' := by
  rw [uploadBytes, List.map_append, List.sum_append]
  rfl

theorem bytesOf_append (p : Uuid → Bool) (l l' : List (Uuid × ℕ)) :
    bytesOf p (l ++ l') = bytesOf p l + bytesOf p l' := by
  rw [bytesOf, List.map_append, List.sum_append]
  rfl

theorem bytesOf_chunks (p : Uuid → Bool) (accountId : Uuid) (chunks : List Bytes) :
    bytesOf p (chunks.map fun data ↦ (accountId, data.length)) =
      if p accountId then (chunks.map List.length).sum else 0 := by
  induction chunks with
  | nil => rw [List.map_nil, List.map_nil, List.sum_nil, ite_self]; rfl
  | cons data chunks ih =>
    rw [List.map_cons, ← List.singleton_append, bytesOf_append, ih, List.map_cons, List.sum_cons]
    by_cases h : p accountId <;> simp [bytesOf, h]

/-- A package counts what is stored of it. -/
theorem bytesOf_claims (p : Uuid → Bool) (claims : List TrajectoryClaim) :
    bytesOf p (claims.filterMap fun c ↦ c.package.map fun package ↦
        (c.accountId, package.length)) +
      bytesOf p (claims.flatMap fun c ↦ c.chunks.map fun data ↦ (c.accountId, data.length)) =
    claimBytes p claims := by
  induction claims with
  | nil => rfl
  | cons c claims ih =>
    have hinline : bytesOf p ((c :: claims).filterMap fun c ↦ c.package.map fun package ↦
          (c.accountId, package.length)) =
        (if p c.accountId then (c.package.map List.length).getD 0 else 0) +
          bytesOf p (claims.filterMap fun c ↦ c.package.map fun package ↦
            (c.accountId, package.length)) := by
      cases hp : c.package <;> simp [bytesOf, hp]
    rw [hinline, List.flatMap_cons, bytesOf_append, bytesOf_chunks]
    rw [← List.singleton_append, claimBytes_append, ← ih]
    have hone : claimBytes p [c] = if p c.accountId then c.stored else 0 := by simp [claimBytes]
    rw [hone, TrajectoryClaim.stored]
    split <;> omega

theorem bytesOf_usage (p : Uuid → Bool) (db : TrajectoryStore) (claimId uploadId : Option Uuid) :
    bytesOf p (usage db claimId uploadId) =
      claimBytes p (db.claims.rows.filter fun c ↦ some c.id ≠ claimId) +
        uploadBytes p (db.uploads.rows.filter fun u ↦ some u.id ≠ uploadId) := by
  rw [usage, bytesOf_append, bytesOf_append, bytesOf_claims, bytesOf, List.map_map]
  rfl

/-- The bytes that stay when the holder commits. -/
def left (p : Uuid → Bool) (t : Uncommitted) (db : TrajectoryStore) : ℕ :=
  claimBytes p (db.claims.rows.filter fun c ↦ ¬ t.dropsClaim c) +
    uploadBytes p (db.uploads.rows.filter fun u ↦ ¬ t.dropsUpload u)

/-- The bytes it adds. -/
def Uncommitted.adds (p : Uuid → Bool) (t : Uncommitted) : ℕ :=
  match t.written with
  | none => 0
  | some (.upload u) => if p u.accountId then u.byteLength else 0
  | some (.claim c) => if p c.accountId then c.stored else 0

def space (p : Uuid → Bool) (db : TrajectoryStore) : ℕ :=
  claimBytes p db.claims.rows + uploadBytes p db.uploads.rows

theorem bytesOf_usage_none (p : Uuid → Bool) (db : TrajectoryStore) :
    bytesOf p (usage db none none) = space p db := by
  rw [bytesOf_usage, List.filter_eq_self.mpr fun _ _ ↦ by simp,
    List.filter_eq_self.mpr fun _ _ ↦ by simp, space]

theorem left_le_space (p : Uuid → Bool) (t : Uncommitted) (db : TrajectoryStore) :
    left p t db ≤ space p db := by
  refine Nat.add_le_add ?_ ?_
  all_goals
    refine (List.Sublist.map _ ?_).sum_le_sum fun _ _ ↦ Nat.zero_le _
    exact List.filter_sublist

theorem claimBytes_insertNew_le (p : Uuid → Bool) (t : Table TrajectoryClaim.id)
    (c : TrajectoryClaim) :
    claimBytes p (t.insertNew c).rows ≤
      claimBytes p t.rows + if p c.accountId then c.stored else 0 := by
  by_cases h : ∀ c' ∈ t.rows, c'.id ≠ c.id
  · rw [Table.rows_insertNew_of_fresh h, claimBytes_append]
    exact (congrArg (claimBytes p t.rows + ·) (by simp [claimBytes])).le
  · push Not at h
    obtain ⟨c', hc', hid⟩ := h
    rw [Table.insertNew_of_taken hc' hid]
    exact Nat.le_add_right _ _

theorem uploadBytes_insertNew_le (p : Uuid → Bool) (t : Table TrajectoryUpload.id)
    (u : TrajectoryUpload) :
    uploadBytes p (t.insertNew u).rows ≤
      uploadBytes p t.rows + if p u.accountId then u.byteLength else 0 := by
  by_cases h : ∀ u' ∈ t.rows, u'.id ≠ u.id
  · rw [Table.rows_insertNew_of_fresh h, uploadBytes_append]
    exact (congrArg (uploadBytes p t.rows + ·) (by simp [uploadBytes])).le
  · push Not at h
    obtain ⟨u', hu', hid⟩ := h
    rw [Table.insertNew_of_taken hu' hid]
    exact Nat.le_add_right _ _

theorem space_commit_le (p : Uuid → Bool) (t : Uncommitted) (db : TrajectoryStore) :
    space p (t.commit db) ≤ left p t db + t.adds p := by
  obtain ⟨uploads, claims, _ | u | c⟩ := t
  · exact le_rfl
  · refine (Nat.add_le_add_left (uploadBytes_insertNew_le p _ u) _).trans ?_
    exact (Nat.add_assoc _ _ _).ge
  · refine (Nat.add_le_add_right (claimBytes_insertNew_le p _ c) _).trans ?_
    exact (Nat.add_right_comm _ _ _).le

/-! ## The quotas -/

inductive Quota where
  | all
  | account (accountId : Uuid)

def Quota.covers : Quota → Uuid → Bool
  | .all, _ => true
  | .account accountId, id => id = accountId

def Quota.limit : Quota → ℕ
  | .all => globalBytes
  | .account _ => accountBytes

/-- What the check lets through fits every quota the rest fits. -/
theorem checkCapacity_fits {db : TrajectoryStore} {accountId : Uuid} {byteLength : ℕ}
    {claimId uploadId : Option Uuid} {a : Unit}
    (h : checkCapacity db accountId byteLength claimId uploadId = .ok a) (q : Quota)
    (hrest : bytesOf q.covers (usage db claimId uploadId) ≤ q.limit) :
    bytesOf q.covers (usage db claimId uploadId) +
      (if q.covers accountId then byteLength else 0) ≤ q.limit := by
  rw [checkCapacity, require_eq_ok] at h
  push Not at h
  obtain ⟨howned, htotal⟩ := h
  cases q with
  | all => exact htotal
  | account id =>
    by_cases heq : accountId = id
    · have hcovers : (Quota.account id).covers accountId = true := decide_eq_true heq
      rw [if_pos hcovers, ← heq]
      exact howned
    · have hcovers : (Quota.account id).covers accountId ≠ true :=
        fun h ↦ heq (of_decide_eq_true h)
      rw [if_neg hcovers]
      exact hrest

def Fits (db : TrajectoryStore) : Prop := ∀ q : Quota, space q.covers db ≤ q.limit

/-- The holder of the lock found room. -/
def Uncommitted.Fits (t : Uncommitted) (db : TrajectoryStore) : Prop :=
  ∀ q : Quota, left q.covers t db + t.adds q.covers ≤ q.limit

theorem Uncommitted.Fits.commit {t : Uncommitted} {db : TrajectoryStore} (h : t.Fits db) :
    Trajectories.Fits (t.commit db) :=
  fun q ↦ (space_commit_le q.covers t db).trans (h q)

/-- Without a write there is room. -/
theorem fits_of_none {t : Uncommitted} {db : TrajectoryStore} (hdb : Fits db)
    (ht : t.written = none) : t.Fits db := by
  intro q
  have hadds : t.adds q.covers = 0 := by rw [Uncommitted.adds, ht]
  rw [hadds]
  exact (left_le_space q.covers t db).trans (hdb q)

/-- What is seen before a write is no more than what is there. -/
theorem bytesOf_usage_le (p : Uuid → Bool) {db view : TrajectoryStore}
    (hclaims : view.claims.rows.Sublist db.claims.rows)
    (huploads : view.uploads.rows.Sublist db.uploads.rows) (claimId uploadId : Option Uuid) :
    bytesOf p (usage view claimId uploadId) ≤ space p db := by
  rw [bytesOf_usage]
  refine Nat.add_le_add ?_ ?_
  · refine (List.Sublist.map _ ?_).sum_le_sum fun _ _ ↦ Nat.zero_le _
    exact List.filter_sublist.trans hclaims
  · refine (List.Sublist.map _ ?_).sum_le_sum fun _ _ ↦ Nat.zero_le _
    exact List.filter_sublist.trans huploads

theorem checkCapacity_room {db view : TrajectoryStore} {accountId : Uuid} {byteLength : ℕ}
    {claimId uploadId : Option Uuid} {a : Unit} (hdb : Fits db)
    (h : checkCapacity view accountId byteLength claimId uploadId = .ok a)
    (hclaims : view.claims.rows.Sublist db.claims.rows)
    (huploads : view.uploads.rows.Sublist db.uploads.rows) (q : Quota) :
    bytesOf q.covers (usage view claimId uploadId) +
      (if q.covers accountId then byteLength else 0) ≤ q.limit :=
  checkCapacity_fits h q ((bytesOf_usage_le q.covers hclaims huploads _ _).trans (hdb q))

theorem deleteUploads_sublist (db : TrajectoryStore) (p : TrajectoryUpload → Bool) :
    (deleteUploads db p).uploads.rows.Sublist db.uploads.rows := List.filter_sublist

theorem deleteClaims_sublist (db : TrajectoryStore) (p : TrajectoryClaim → Bool) :
    (deleteClaims db p).claims.rows.Sublist db.claims.rows := List.filter_sublist

theorem start_fits {accountId : Uuid} {byteLength : ℕ} {id : Uuid} {now : Instant}
    {db : TrajectoryStore} {t : Uncommitted} (hdb : Fits db)
    (h : start accountId byteLength id now db = .ok t) : t.Fits db := by
  simp only [start, bind_eq_ok, require_eq_ok] at h
  obtain ⟨_, -, _, hcheck, _, -, h⟩ := h
  cases h
  intro q
  refine le_trans (Nat.add_le_add_right ?_ _)
    (checkCapacity_room hdb hcheck (List.Sublist.refl _) (deleteUploads_sublist db _) q)
  rw [bytesOf_usage]
  refine Nat.add_le_add (sum_filter_le fun _ _ _ ↦ by simp) ?_
  rw [deleteUploads, List.filter_filter]
  refine sum_filter_le fun u hu hkept ↦ ?_
  rw [Bool.and_eq_true]
  refine ⟨by simp, decide_eq_true fun hdrop ↦ of_decide_eq_true hkept (decide_eq_true ?_)⟩
  exact List.mem_map_of_mem (List.mem_filter.mpr ⟨hu, hdrop⟩)

/-- The upload a package came from is dropped with it: the check left out nothing else. -/
theorem save_fits {deleted : List Uuid} {claim : TrajectoryClaim} {r : Received}
    {db : TrajectoryStore} {t : Uncommitted} (hdb : Fits db)
    (howner : ∀ u ∈ db.uploads.rows, some u.id = r.uploadId → u.accountId = r.accountId)
    (h : save deleted claim r db = .ok t) : t.Fits db := by
  simp only [save, bind_eq_ok, require_eq_ok] at h
  obtain ⟨_, hcheck, _, -, h⟩ := h
  cases h
  intro q
  have hadds : Uncommitted.adds q.covers ⟨r.discarded db, deleted, some (.claim (packed r claim))⟩ =
      if q.covers claim.accountId then r.content.length else 0 := by
    simp only [Uncommitted.adds, packed_accountId, stored_packed]
  rw [hadds]
  refine le_trans (Nat.add_le_add_right ?_ _)
    (checkCapacity_room hdb hcheck (deleteClaims_sublist db _) (List.Sublist.refl _) q)
  rw [bytesOf_usage]
  refine Nat.add_le_add ?_ (sum_filter_le fun u hu hkept ↦ ?_)
  · rw [deleteClaims, List.filter_filter]
    refine sum_filter_le fun c _ hkept ↦ ?_
    have hkept := of_decide_eq_true hkept
    simp only [Uncommitted.dropsClaim, Bool.or_eq_true, not_or, packed_id] at hkept
    obtain ⟨hdeleted, hother⟩ := hkept
    rw [Bool.and_eq_true]
    refine ⟨decide_eq_true fun hid ↦ hother (decide_eq_true (Option.some.inj hid)), ?_⟩
    exact decide_eq_true hdeleted
  · refine decide_eq_true fun hid ↦ of_decide_eq_true hkept (decide_eq_true ?_)
    have hupload : some u.id = r.uploadId := by
      rw [Received.excluded] at hid
      split at hid
      · exact hid
      · cases hid
    exact List.mem_map_of_mem (List.mem_filter.mpr
      ⟨hu, decide_eq_true ⟨hupload, howner u hu hupload⟩⟩)

theorem depositPackage_fits {claim : TrajectoryClaim} {r : Received} {now : Instant}
    {db : TrajectoryStore} {t : Uncommitted} (hdb : Fits db)
    (howner : ∀ u ∈ db.uploads.rows, some u.id = r.uploadId → u.accountId = r.accountId)
    (h : depositPackage claim r now db = .ok t) : t.Fits db := by
  unfold depositPackage at h
  split at h
  · exact save_fits hdb howner h
  · simp only [bind_eq_ok, require_eq_ok] at h
    obtain ⟨_, -, _, -, h⟩ := h
    split at h
    · cases h
      exact fits_of_none hdb rfl
    · exact save_fits hdb howner h

/-! ## What others do meanwhile -/

/-- Nothing was added to what is kept. -/
structure Released (db db' : TrajectoryStore) : Prop where
  left_le : ∀ p t, left p t db' ≤ left p t db
  uploads : ∀ u' ∈ db'.uploads.rows,
    ∃ u ∈ db.uploads.rows, u.id = u'.id ∧ u.accountId = u'.accountId

theorem Released.refl (db : TrajectoryStore) : Released db db :=
  ⟨fun _ _ ↦ le_rfl, fun u hu ↦ ⟨u, hu, rfl, rfl⟩⟩

theorem Released.fits {db db' : TrajectoryStore} {t : Uncommitted} (h : Released db db')
    (ht : t.Fits db) : t.Fits db' :=
  fun q ↦ (Nat.add_le_add_right (h.left_le _ _) _).trans (ht q)

theorem left_nothing (p : Uuid → Bool) (db : TrajectoryStore) :
    left p ⟨[], [], none⟩ db = space p db := by
  rw [left, List.filter_eq_self.mpr fun _ _ ↦ by rfl, List.filter_eq_self.mpr fun _ _ ↦ by rfl,
    space]

theorem Released.space {db db' : TrajectoryStore} (h : Released db db') (hdb : Fits db) :
    Fits db' := by
  intro q
  rw [← left_nothing]
  refine (h.left_le _ _).trans ?_
  rw [left_nothing]
  exact hdb q

theorem released_deleteUploads (db : TrajectoryStore) (p : TrajectoryUpload → Bool) :
    Released db (deleteUploads db p) := by
  refine ⟨fun q t ↦ Nat.add_le_add_left ?_ _, fun u hu ↦ ⟨u, List.mem_of_mem_filter hu, rfl, rfl⟩⟩
  refine (List.Sublist.map _ ?_).sum_le_sum fun _ _ ↦ Nat.zero_le _
  exact (deleteUploads_sublist db p).filter _

theorem released_deleteClaims (db : TrajectoryStore) (p : TrajectoryClaim → Bool) :
    Released db (deleteClaims db p) := by
  refine ⟨fun q t ↦ Nat.add_le_add_right ?_ _, fun u hu ↦ ⟨u, hu, rfl, rfl⟩⟩
  refine (List.Sublist.map _ ?_).sum_le_sum fun _ _ ↦ Nat.zero_le _
  exact (deleteClaims_sublist db p).filter _

/-- A claim rewritten in place, that holds no more than it did. -/
theorem released_modify (db : TrajectoryStore) (id : Uuid) {f : TrajectoryClaim → TrajectoryClaim}
    (hf : ∀ c, (f c).id = c.id) (hacct : ∀ c, (f c).accountId = c.accountId)
    (hstored : ∀ c, (f c).stored ≤ c.stored) :
    Released db { db with claims := db.claims.modify id f hf } := by
  refine ⟨fun p t ↦ Nat.add_le_add_right ?_ _, fun u hu ↦ ⟨u, hu, rfl, rfl⟩⟩
  refine sum_map_filter_le (fun c ↦ ?_) fun c ↦ ?_
  · split
    · have hdrops : t.dropsClaim (f c) = t.dropsClaim c := by
        rw [Uncommitted.dropsClaim, Uncommitted.dropsClaim, hf]
      rw [hdrops]
    · rfl
  · by_cases hid : decide (c.id = id) = true
    · rw [if_pos hid, hacct]
      split
      · exact hstored c
      · exact le_rfl
    · rw [if_neg hid]

theorem released_append {uploadId accountId : Uuid} {offset : ℕ} {raw : Bytes} {free : ℕ}
    {now : Instant} {db db' : TrajectoryStore} {n : ℕ}
    (h : append uploadId accountId offset raw free now db = .ok (n, db')) : Released db db' := by
  simp only [append, bind_eq_ok, require_eq_ok] at h
  obtain ⟨u, -, _, -, _, -, h⟩ := h
  split at h
  · simp only [bind_eq_ok, require_eq_ok] at h
    obtain ⟨_, -, h⟩ := h
    cases h
    exact .refl db
  · simp only [bind_eq_ok, require_eq_ok] at h
    obtain ⟨_, -, h⟩ := h
    cases h
    refine ⟨fun p t ↦ Nat.add_le_add_left ?_ _, fun u' hu' ↦ ?_⟩
    · refine sum_map_filter_le (fun u' ↦ ?_) fun u' ↦ ?_
      · split <;> rfl
      · split <;> exact le_rfl
    · rcases (@Table.mem_modify _ _ _ _ _ (TrajectoryUpload.appended_id offset raw) _ _ _).mp hu'
        with ⟨hu', -⟩ | ⟨u₀, hu₀, -, rfl⟩
      · exact ⟨u', hu', rfl, rfl⟩
      · exact ⟨u₀, hu₀, rfl, rfl⟩

/-! ## Every run -/

/-- The quotas are kept, and the holder of the lock has its room. -/
structure Within (s : Intake) : Prop where
  fits : Fits s.db
  room : ∀ t, s.holder = some t → t.Fits s.db
  unique : (s.issued.map Prod.fst).Nodup
  uploads : ∀ u ∈ s.db.uploads.rows, (u.id, u.accountId) ∈ s.issued
  written : ∀ t u, s.holder = some t → t.written = some (.upload u) →
    (u.id, u.accountId) ∈ s.issued
  reads : ∀ r ∈ s.received, ∀ id, r.uploadId = some id → (id, r.accountId) ∈ s.issued

theorem Within.released {s : Intake} {db' : TrajectoryStore} (h : Within s)
    (hdb : Released s.db db') : Within { s with db := db' } := by
  refine ⟨hdb.space h.fits, fun t ht ↦ hdb.fits (h.room t ht), h.unique, fun u' hu' ↦ ?_,
    h.written, h.reads⟩
  obtain ⟨u, hu, hid, hacct⟩ := hdb.uploads u' hu'
  rw [← hid, ← hacct]
  exact h.uploads u hu

/-- An id is issued once. -/
theorem Within.issue {s : Intake} {id : Uuid} (h : Within s) (hfresh : id ∉ s.issued.map Prod.fst)
    (accountId : Uuid) : Within { s with issued := (id, accountId) :: s.issued } :=
  { h with
    unique := List.nodup_cons.mpr ⟨hfresh, h.unique⟩
    uploads := fun u hu ↦ List.mem_cons_of_mem _ (h.uploads u hu)
    written := fun t u ht hu ↦ List.mem_cons_of_mem _ (h.written t u ht hu)
    reads := fun r hr id hid ↦ List.mem_cons_of_mem _ (h.reads r hr id hid) }

theorem Within.lock {s : Intake} {t : TrajectoryStore → Except TrajectoryError Uncommitted}
    (h : Within s) (hfits : ∀ t', t s.db = .ok t' → t'.Fits s.db)
    (hwritten : ∀ t' u, t s.db = .ok t' → t'.written = some (.upload u) →
      (u.id, u.accountId) ∈ s.issued) : Within (s.lock t) := by
  unfold Intake.lock
  split
  · exact h
  · have hok : ∀ t', (t s.db).toOption = some t' → t s.db = .ok t' := by
      intro t' ht'
      cases ht : t s.db with
      | ok t'' => rw [ht] at ht'; exact congrArg _ (Option.some.inj ht')
      | error e => rw [ht] at ht'; cases ht'
    exact ⟨h.fits, fun t' ht' ↦ hfits t' (hok t' ht'), h.unique, h.uploads,
      fun t' u ht' ↦ hwritten t' u (hok t' ht'), h.reads⟩

theorem start_written {accountId : Uuid} {byteLength : ℕ} {id : Uuid} {now : Instant}
    {db : TrajectoryStore} {t : Uncommitted} {u : TrajectoryUpload}
    (h : start accountId byteLength id now db = .ok t) (ht : t.written = some (.upload u)) :
    (u.id, u.accountId) = (id, accountId) := by
  simp only [start, bind_eq_ok, require_eq_ok] at h
  obtain ⟨_, -, _, -, _, -, h⟩ := h
  cases h
  cases ht
  rfl

theorem save_written {deleted : List Uuid} {claim : TrajectoryClaim} {r : Received}
    {db : TrajectoryStore} {t : Uncommitted} {u : TrajectoryUpload}
    (h : save deleted claim r db = .ok t) : t.written ≠ some (.upload u) := by
  simp only [save, bind_eq_ok, require_eq_ok] at h
  obtain ⟨_, -, _, -, h⟩ := h
  cases h
  intro h
  cases h

theorem depositPackage_written {claim : TrajectoryClaim} {r : Received} {now : Instant}
    {db : TrajectoryStore} {t : Uncommitted} {u : TrajectoryUpload}
    (h : depositPackage claim r now db = .ok t) : t.written ≠ some (.upload u) := by
  unfold depositPackage at h
  split at h
  · exact save_written h
  · simp only [bind_eq_ok, require_eq_ok] at h
    obtain ⟨_, -, _, -, h⟩ := h
    split at h
    · cases h
      intro h
      cases h
    · exact save_written h

/-- A request's upload, while it is there, is its account's. -/
theorem Within.owner {s : Intake} {r : Received} (h : Within s) (hr : s.Holds r) :
    ∀ u ∈ s.db.uploads.rows, some u.id = r.uploadId → u.accountId = r.accountId := by
  intro u hu hid
  rcases hr with hnone | hread
  · rw [hnone] at hid
    cases hid
  · have hissued := List.inj_on_of_nodup_map h.unique (h.uploads u hu)
      (h.reads r hread u.id hid.symm) rfl
    exact congrArg Prod.snd hissued

/-- What is read is an upload of the account. -/
theorem read_upload {db : TrajectoryStore} {uploadId accountId : Uuid} {free : Option ℕ → ℕ}
    {now : Instant} {r : Received} (h : read db uploadId accountId free now = .ok r) :
    r.uploadId = some uploadId ∧ r.accountId = accountId ∧
      ∃ u ∈ db.uploads.rows, u.id = uploadId ∧ u.accountId = accountId := by
  simp only [read, ownedUpload, bind_eq_ok, require_eq_ok, need_eq_ok, Table.find?_eq_some] at h
  obtain ⟨u, ⟨u', ⟨hu', hid⟩, _, ⟨hacct, -⟩, h'⟩, _, -, _, -, content, -, h⟩ := h
  cases h
  cases h'
  exact ⟨rfl, rfl, u, hu', hid, hacct⟩

theorem step_within (s : Intake) (a : Action) (h : Within s) : Within (step s a) := by
  cases a with
  | start accountId byteLength id now =>
    simp only [step]
    split
    · exact h
    · rename_i hfresh
      have hissued := h.issue hfresh accountId
      refine hissued.lock (fun t ht ↦ start_fits h.fits ht) fun t u ht hu ↦ ?_
      rw [start_written ht hu]
      exact List.mem_cons_self
  | deposit claim r now =>
    simp only [step]
    split
    · rename_i hr
      exact h.lock (fun t ht ↦ depositPackage_fits h.fits (h.owner hr) ht)
        fun t u ht hu ↦ absurd hu (depositPackage_written ht)
    · exact h
  | revise claim r =>
    simp only [step]
    split
    · rename_i hr
      exact h.lock (fun t ht ↦ save_fits h.fits (h.owner hr) ht)
        fun t u ht hu ↦ absurd hu (save_written ht)
    · exact h
  | commit =>
    simp only [step]
    split
    · rename_i t ht
      refine { h with
        fits := (h.room t ht).commit
        room := fun _ hnone ↦ nomatch hnone
        uploads := fun u hu ↦ ?_
        written := fun _ _ hnone ↦ nomatch hnone }
      obtain ⟨uploads, claims, _ | u' | c⟩ := t
      · exact h.uploads u (List.mem_of_mem_filter hu)
      · rcases Table.mem_insertNew.mp hu with hu | ⟨rfl, -⟩
        · exact h.uploads u (List.mem_of_mem_filter hu)
        · exact h.written _ u ht rfl
      · exact h.uploads u (List.mem_of_mem_filter hu)
    · exact h
  | rollback =>
    exact { h with
      room := fun _ hnone ↦ nomatch hnone
      written := fun _ _ hnone ↦ nomatch hnone }
  | append uploadId accountId offset raw free now =>
    refine h.released ?_
    exact @commit_induction _ _ _ _ _ (Released s.db) (.refl s.db) fun _ _ hok ↦
      released_append hok
  | read uploadId accountId free now =>
    simp only [step]
    split
    · rename_i r hr
      obtain ⟨hid, hacct, u, hu, huid, huacct⟩ := read_upload hr
      refine { h with reads := fun r' hr' id hid' ↦ ?_ }
      rcases List.mem_cons.mp hr' with rfl | hr'
      · have hissued := h.uploads u hu
        rw [huid, huacct] at hissued
        rw [hacct, Option.some.inj (hid'.symm.trans hid)]
        exact hissued
      · exact h.reads r' hr' id hid'
    · exact h
  | discard uploadId accountId => exact h.released (released_deleteUploads _ _)
  | clear claimId =>
    exact h.released (released_modify _ _ _ (fun _ ↦ rfl) fun _ ↦ Nat.zero_le _)
  | review claimId submissionId status expiresAt =>
    exact h.released (released_modify _ _ _ (fun _ ↦ rfl) fun _ ↦ le_rfl)
  | purgeUploads now => exact h.released (released_deleteUploads _ _)
  | purgeDeposits now => exact h.released (released_deleteClaims _ _)
  | purgeRecords claimIds => exact h.released (released_deleteClaims _ _)

theorem fresh_within : Within .fresh where
  fits _ := Nat.zero_le _
  room _ hnone := nomatch hnone
  unique := List.nodup_nil
  uploads _ hu := absurd hu List.not_mem_nil
  written _ _ hnone := nomatch hnone
  reads _ hr := absurd hr List.not_mem_nil

/-- However uploads, packages and deletions are interleaved, what is kept is within the quotas. -/
theorem storage_within_quotas (as : List Action) :
    total (usage (run step .fresh as).db none none) ≤ globalBytes ∧
      ∀ accountId, owned accountId (usage (run step .fresh as).db none none) ≤ accountBytes := by
  have h := run_invariant step_within fresh_within as
  constructor
  · rw [total, bytesOf_usage_none]
    exact h.fits .all
  · intro accountId
    rw [owned, bytesOf_usage_none]
    exact h.fits (.account accountId)

end Conjectures.Trajectories

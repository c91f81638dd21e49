import Conjectures.Lib.Run
import Conjectures.Db.Invitations

/-!
# How often an invitation is spent

Operators issue and withdraw links, accounts redeem them, and everything else that moves
credits appends to the same ledger; each transaction holds the lock of the invitation it is
about.  The counter of an invitation, its redemption rows and the GRANT entries that name these
are three records of one number (`invitation_spent_as_granted`).
-/

namespace Conjectures.Invitations

open Lib Db

/-! ## The system -/

inductive Action where
  | signUp (account : Account)
  | create (n : NewInvitation)
  | redeem (r : RedeemRequest) (mailbox : Option Mailbox)
  | revoke (invitationId : Uuid) (now : Instant)
  /-- any other movement of credits; it is no GRANT -/
  | move (e : EntryFields)

/-- Append an entry that some other path of the credit store records. -/
def moveCredits (e : EntryFields) : Txn InvitationDatabase DatabaseError CreditLedgerEntry :=
  fun db ↦ (recordEntry db.toDatabase e).map fun (entry, toDatabase) ↦
    (entry, { db with toDatabase })

def step (svc : InvitationServices) (db : InvitationDatabase) : Action → InvitationDatabase
  | .signUp account => { db with accounts := db.accounts.insertNew account }
  | .create n => commit (createInvitation svc n) db
  | .redeem r mailbox => commit (redeem svc r mailbox) db
  | .revoke invitationId now => commit (revokeInvitation invitationId now) db
  | .move e => if e.kind = .grant then db else commit (moveCredits e) db

/-! ## The claim -/

/-- The uses of an invitation. -/
def redemptionsOf (db : InvitationDatabase) (invitationId : Uuid) : List InvitationRedemption :=
  db.redemptions.rows.filter fun x ↦ x.invitationId = invitationId

/-- The ledger entries that grant an invitation's credits. -/
def grantsOf (db : InvitationDatabase) (invitationId : Uuid) : List CreditLedgerEntry :=
  db.ledger.rows.filter fun e ↦ ∃ x ∈ db.redemptions.rows,
    x.invitationId = invitationId ∧ e.invitationRedemptionId = some x.id

/-- An invitation is spent as often as it was granted. -/
structure Spent (db : InvitationDatabase) (i : Invitation) : Prop where
  rows : i.redeemedCount = (redemptionsOf db i.id).length
  grants : i.redeemedCount = (grantsOf db i.id).length
  within : i.redeemedCount ≤ i.maxRedemptions
  /-- no account has used it twice -/
  accounts : ((redemptionsOf db i.id).map InvitationRedemption.accountId).Nodup

/-- What a step does about redemptions. -/
structure Redeems (svc : InvitationServices) (db : InvitationDatabase) (a : Action) : Prop where
  /-- a redemption is made of a link that is neither withdrawn nor past its expiry -/
  made : ∀ x ∈ (step svc db a).redemptions.rows, x ∉ db.redemptions.rows →
    ∃ r mailbox, a = .redeem r mailbox ∧ x.accountId = r.accountId ∧
      ∃ i ∈ db.invitations.rows, i.id = x.invitationId ∧ i.revokedAt = none ∧
        ∀ expiry ∈ i.expiresAt, r.now < expiry
  /-- a link that was withdrawn stays so, and one that expires keeps its expiry -/
  kept : ∀ i ∈ db.invitations.rows, ∃ i' ∈ (step svc db a).invitations.rows, i'.id = i.id ∧
    i'.expiresAt = i.expiresAt ∧ (i.revokedAt ≠ none → i'.revokedAt = i.revokedAt)
  /-- a redemption that fails changes nothing -/
  failed : ∀ r mailbox error, a = .redeem r mailbox → redeem svc r mailbox db = .error error →
    step svc db a = db

/-! ## The invariant -/

structure Granted (db : InvitationDatabase) : Prop where
  counted : ∀ i ∈ db.invitations.rows, i.redeemedCount = (redemptionsOf db i.id).length
  within : ∀ i ∈ db.invitations.rows, i.redeemedCount ≤ i.maxRedemptions
  known : ∀ x ∈ db.redemptions.rows, ∃ i ∈ db.invitations.rows, i.id = x.invitationId
  once : Lib.Unique InvitationRedemption.accountIdx db.redemptions.rows
  /-- an entry that names a redemption names one there is -/
  named : ∀ e ∈ db.ledger.rows, ∀ id ∈ e.invitationRedemptionId,
    ∃ x ∈ db.redemptions.rows, x.id = id
  granted : ∀ id, (grantsOf db id).length = (redemptionsOf db id).length

theorem Granted.spent {db : InvitationDatabase} (h : Granted db) {i : Invitation}
    (hi : i ∈ db.invitations.rows) : Spent db i := by
  refine ⟨h.counted i hi, ?_, h.within i hi, ?_⟩
  · rw [h.granted]
    exact h.counted i hi
  · refine (db.redemptions.rows_nodup.filter _).map_on fun x hx y hy hxy ↦ ?_
    obtain ⟨hx, hxi⟩ := List.mem_filter.mp hx
    obtain ⟨hy, hyi⟩ := List.mem_filter.mp hy
    refine h.once x hx y hy (i.id, x.accountId) ?_ ?_
    · rw [InvitationRedemption.accountIdx, of_decide_eq_true hxi]
    · rw [InvitationRedemption.accountIdx, of_decide_eq_true hyi, hxy]

/-! ## Steps -/

/-- Only the ledger is written, by entries that grant nothing. -/
theorem Granted.of_ledger {db : InvitationDatabase} {db' : Database}
    {es : List CreditLedgerEntry} (h : Granted db) (hrows : db'.ledger.rows = db.ledger.rows ++ es)
    (hes : ∀ e ∈ es, e.invitationRedemptionId = none) :
    Granted { db with toDatabase := db' } := by
  refine ⟨h.counted, h.within, h.known, h.once, fun e he id hid ↦ ?_, fun id ↦ ?_⟩
  · rcases List.mem_append.mp (hrows ▸ he) with he | he
    · exact h.named e he id hid
    · cases (hes e he).symm.trans hid
  · have hnone : (es.filter fun e ↦ ∃ x ∈ db.redemptions.rows,
        x.invitationId = id ∧ e.invitationRedemptionId = some x.id) = [] := by
      refine List.filter_eq_nil_iff.mpr fun e he hgrant ↦ ?_
      obtain ⟨x, -, -, hnames⟩ := of_decide_eq_true hgrant
      cases (hes e he).symm.trans hnames
    refine Eq.trans (congrArg List.length ?_) (h.granted id)
    show List.filter _ db'.ledger.rows = _
    rw [hrows, List.filter_append]
    exact (congrArg (grantsOf db id ++ ·) hnone).trans (List.append_nil _)

/-- One invitation is written, and its number of uses is not. -/
theorem Granted.of_modify {db : InvitationDatabase} {invitationId : Uuid}
    {f : Invitation → Invitation} (hf : ∀ i, (f i).id = i.id) (h : Granted db)
    (hcount : ∀ i, (f i).redeemedCount = i.redeemedCount)
    (hmax : ∀ i, (f i).maxRedemptions = i.maxRedemptions) :
    Granted { db with invitations := db.invitations.modify invitationId f hf } := by
  have hold : ∀ i' ∈ (db.invitations.modify invitationId f hf).rows, ∃ i ∈ db.invitations.rows,
      i'.id = i.id ∧ i'.redeemedCount = i.redeemedCount ∧
        i'.maxRedemptions = i.maxRedemptions := fun i' hi' ↦ by
    rcases Table.mem_modify.mp hi' with ⟨hi, -⟩ | ⟨i, hi, -, rfl⟩
    · exact ⟨i', hi, rfl, rfl, rfl⟩
    · exact ⟨i, hi, hf i, hcount i, hmax i⟩
  refine ⟨fun i' hi' ↦ ?_, fun i' hi' ↦ ?_, fun x hx ↦ ?_, h.once, h.named, h.granted⟩
  · obtain ⟨i, hi, hid, hcount, -⟩ := hold i' hi'
    rw [hcount, hid]
    exact h.counted i hi
  · obtain ⟨i, hi, -, hcount, hmax⟩ := hold i' hi'
    rw [hcount, hmax]
    exact h.within i hi
  · obtain ⟨i, hi, hid⟩ := h.known x hx
    refine ⟨_, @Table.modify_row _ _ _ _ f hf _ invitationId i hi, ?_⟩
    split
    · exact (hf i).trans hid
    · exact hid

/-- A new link has not been used. -/
theorem Granted.created {db : InvitationDatabase} {invitations : Table Invitation.id}
    {i : Invitation} (h : Granted db) (hrows : invitations.rows = db.invitations.rows ++ [i])
    (hfresh : ∀ i' ∈ db.invitations.rows, i'.id ≠ i.id) (hcount : i.redeemedCount = 0)
    (hmax : 1 ≤ i.maxRedemptions) : Granted { db with invitations } := by
  refine ⟨fun i' hi' ↦ ?_, fun i' hi' ↦ ?_, fun x hx ↦ ?_, h.once, h.named, h.granted⟩
  · rcases List.mem_append.mp (hrows ▸ hi') with hi' | hi'
    · exact h.counted i' hi'
    · rw [List.mem_singleton.mp hi', hcount, redemptionsOf, List.filter_eq_nil_iff.mpr]
      · rfl
      · intro x hx hof
        obtain ⟨i₀, hi₀, hid⟩ := h.known x hx
        exact hfresh i₀ hi₀ (hid.trans (of_decide_eq_true hof))
  · rcases List.mem_append.mp (hrows ▸ hi') with hi' | hi'
    · exact h.within i' hi'
    · rw [List.mem_singleton.mp hi', hcount]
      exact Int.zero_le_ofNat 1 |>.trans hmax
  · obtain ⟨i₀, hi₀, hid⟩ := h.known x hx
    exact ⟨i₀, hrows ▸ List.mem_append_left _ hi₀, hid⟩

section Redeemed

variable {db db' : InvitationDatabase} {r : RedeemRequest} {i : Invitation}

theorem redemptionsOf_redeemed (hr : Redeemed db r i db') (id : Uuid) :
    redemptionsOf db' id =
      redemptionsOf db id ++ if i.id = id then [r.row i.id] else [] := by
  rw [redemptionsOf, hr.redemptions, List.filter_append]
  by_cases hid : i.id = id
  · simp [redemptionsOf, RedeemRequest.row, hid]
  · simp [redemptionsOf, RedeemRequest.row, hid]

/-- The new entry grants the new redemption; no other entry comes to name it. -/
theorem grantsOf_redeemed (h : Granted db) (hr : Redeemed db r i db') (id : Uuid) :
    grantsOf db' id = grantsOf db id ++
      if i.id = id then [(r.grant i.credits).row db.ledger.nextId] else [] := by
  have hnew : ∀ x ∈ db'.redemptions.rows, x.id = r.redemptionId → x = r.row i.id :=
    fun x hx hid ↦ by
      rw [hr.redemptions] at hx
      rcases List.mem_append.mp hx with hx | hx
      · exact absurd hid (hr.fresh x hx)
      · exact List.mem_singleton.mp hx
  have hrow : r.row i.id ∈ db'.redemptions.rows := by
    rw [hr.redemptions]
    exact List.mem_append_right _ (List.mem_singleton_self _)
  rw [grantsOf, hr.ledger, List.filter_append]
  congr 1
  · refine List.filter_congr fun e he ↦ decide_eq_decide.mpr ⟨?_, ?_⟩
    · rintro ⟨x, hx, hid, hnames⟩
      obtain ⟨x₀, hx₀, hxid⟩ := h.named e he x.id hnames
      rw [hr.redemptions] at hx
      rcases List.mem_append.mp hx with hx | hx
      · exact ⟨x, hx, hid, hnames⟩
      · rw [List.mem_singleton.mp hx] at hxid
        exact absurd hxid (hr.fresh x₀ hx₀)
    · rintro ⟨x, hx, hid, hnames⟩
      exact ⟨x, hr.redemptions ▸ List.mem_append_left _ hx, hid, hnames⟩
  · by_cases hid : i.id = id
    · rw [if_pos hid, List.filter_eq_self]
      intro e he
      rw [List.mem_singleton.mp he]
      exact decide_eq_true ⟨r.row i.id, hrow, hid, rfl⟩
    · rw [if_neg hid, List.filter_eq_nil_iff]
      intro e he hgrant
      rw [List.mem_singleton.mp he] at hgrant
      obtain ⟨x, hx, hof, hnames⟩ := of_decide_eq_true hgrant
      rw [hnew x hx (Option.some.inj hnames).symm] at hof
      exact hid hof

theorem granted_redeemed (h : Granted db) (hr : Redeemed db r i db') : Granted db' := by
  have hnew : ∀ id, i.id = id → (redemptionsOf db' id).length = (redemptionsOf db id).length + 1 :=
    fun id hid ↦ by rw [redemptionsOf_redeemed hr, if_pos hid, List.length_append]; rfl
  have hold : ∀ id, i.id ≠ id → redemptionsOf db' id = redemptionsOf db id :=
    fun id hid ↦ by rw [redemptionsOf_redeemed hr, if_neg hid, List.append_nil]
  have hmem : ∀ i', i' ∈ db'.invitations.rows ↔
      (i' ∈ db.invitations.rows ∧ i'.id ≠ i.id) ∨ i' = i.counted := fun i' ↦ by
    rw [hr.counted]
    exact Table.mem_modify_of_mem hr.invitation
  refine ⟨fun i' hi' ↦ ?_, fun i' hi' ↦ ?_, fun x hx ↦ ?_, ?_, fun e he id hid ↦ ?_, fun id ↦ ?_⟩
  · rcases (hmem i').mp hi' with ⟨hi', hne⟩ | rfl
    · rw [hold i'.id (Ne.symm hne)]
      exact h.counted i' hi'
    · rw [hnew i.counted.id rfl, Nat.cast_add]
      exact congrArg (· + 1) (h.counted i hr.invitation)
  · rcases (hmem i').mp hi' with ⟨hi', -⟩ | rfl
    · exact h.within i' hi'
    · exact hr.left
  · have hkept : ∀ i' ∈ db.invitations.rows, ∃ i₁ ∈ db'.invitations.rows, i₁.id = i'.id :=
      fun i' hi' ↦ by
        by_cases hid : i'.id = i.id
        · exact ⟨i.counted, (hmem _).mpr (Or.inr rfl), hid.symm⟩
        · exact ⟨i', (hmem _).mpr (Or.inl ⟨hi', hid⟩), rfl⟩
    rw [hr.redemptions] at hx
    rcases List.mem_append.mp hx with hx | hx
    · obtain ⟨i', hi', hid⟩ := h.known x hx
      obtain ⟨i₁, hi₁, hid₁⟩ := hkept i' hi'
      exact ⟨i₁, hi₁, hid₁.trans hid⟩
    · rw [List.mem_singleton.mp hx]
      exact hkept i hr.invitation
  · rw [hr.redemptions]
    exact h.once.append hr.once
  · rw [hr.ledger] at he
    rcases List.mem_append.mp he with he | he
    · obtain ⟨x, hx, hxid⟩ := h.named e he id hid
      exact ⟨x, hr.redemptions ▸ List.mem_append_left _ hx, hxid⟩
    · rw [List.mem_singleton.mp he] at hid
      refine ⟨r.row i.id, ?_, Option.some.inj hid⟩
      rw [hr.redemptions]
      exact List.mem_append_right _ (List.mem_singleton_self _)
  · rw [grantsOf_redeemed h hr, redemptionsOf_redeemed hr, List.length_append, List.length_append,
      h.granted]
    split <;> rfl

end Redeemed

theorem granted_step (svc : InvitationServices) (db : InvitationDatabase) (a : Action)
    (h : Granted db) : Granted (step svc db a) := by
  cases a with
  | signUp account => exact ⟨h.counted, h.within, h.known, h.once, h.named, h.granted⟩
  | create n =>
    refine @commit_induction _ _ _ (createInvitation svc n) db Granted h fun i db' hok ↦ ?_
    obtain ⟨rfl, hmax, hfresh, hrows, hdb'⟩ := createInvitation_ok hok
    rw [hdb']
    exact h.created hrows hfresh rfl hmax
  | redeem r mailbox =>
    refine @commit_induction _ _ _ (redeem svc r mailbox) db Granted h fun _ db' hok ↦ ?_
    obtain ⟨i, hr⟩ := redeem_ok hok
    exact granted_redeemed h hr
  | revoke invitationId now =>
    refine @commit_induction _ _ _ (revokeInvitation invitationId now) db Granted h
      fun _ db' hok ↦ ?_
    obtain ⟨i, -, -, ⟨-, rfl⟩ | ⟨-, rfl⟩⟩ := revokeInvitation_ok hok
    · exact h
    · exact h.of_modify (Invitation.revoked_id now) (fun _ ↦ rfl) fun _ ↦ rfl
  | move e =>
    dsimp only [step]
    split
    · exact h
    rename_i hkind
    refine @commit_induction _ _ _ (moveCredits e) db Granted h fun _ db' hok ↦ ?_
    obtain ⟨⟨entry, database⟩, hentry, hr⟩ := map_eq_ok.mp hok
    cases hr
    obtain ⟨haccepts, hr⟩ := recordEntry_eq_ok.mp hentry
    cases hr
    refine h.of_ledger rfl fun e' he' ↦ ?_
    -- only a GRANT may name a redemption
    rw [List.mem_singleton.mp he']
    by_contra hnames
    exact hkind (haccepts.1.2.2.2.2.2.2.2.2 (Option.isSome_iff_ne_none.mpr hnames))

/-- A step that writes no redemption, and of the invitations no expiry and no withdrawal of
one that is withdrawn. -/
theorem Redeems.of_eq {svc : InvitationServices} {db : InvitationDatabase} {a : Action}
    (hredemptions : (step svc db a).redemptions = db.redemptions)
    (hkept : ∀ i ∈ db.invitations.rows, ∃ i' ∈ (step svc db a).invitations.rows, i'.id = i.id ∧
      i'.expiresAt = i.expiresAt ∧ (i.revokedAt ≠ none → i'.revokedAt = i.revokedAt))
    (ha : ∀ r mailbox, a ≠ .redeem r mailbox) : Redeems svc db a :=
  ⟨fun _ hx hnew ↦ absurd (hredemptions ▸ hx) hnew, hkept, fun r mailbox _ h ↦
    absurd h (ha r mailbox)⟩

theorem redeems_redeem (svc : InvitationServices) (db : InvitationDatabase) (r : RedeemRequest)
    (mailbox : Option Mailbox) : Redeems svc db (.redeem r mailbox) := by
  have hfailed : ∀ error, redeem svc r mailbox db = .error error →
      step svc db (.redeem r mailbox) = db := fun error herror ↦ commit_of_error herror
  cases hresult : redeem svc r mailbox db with
  | error error =>
    have heq := hfailed error hresult
    refine ⟨fun x hx hnew ↦ absurd (heq ▸ hx) hnew, fun i hi ↦ ?_, ?_⟩
    · exact ⟨i, heq.symm ▸ hi, rfl, rfl, fun _ ↦ rfl⟩
    · rintro _ _ error' ⟨⟩ herror
      exact hfailed error' herror
  | ok result =>
    obtain ⟨i, hr⟩ := redeem_ok hresult
    have heq : step svc db (.redeem r mailbox) = result.2 := commit_of_ok hresult
    refine ⟨fun x hx hnew ↦ ?_, fun i' hi' ↦ ?_, ?_⟩
    · rw [heq, hr.redemptions] at hx
      rcases List.mem_append.mp hx with hx | hx
      · exact absurd hx hnew
      · rw [List.mem_singleton.mp hx]
        exact ⟨r, mailbox, rfl, rfl, i, hr.invitation, rfl, hr.live, hr.unexpired⟩
    · refine ⟨_, heq.symm ▸ hr.counted ▸ @Table.modify_row _ _ _ _ _ Invitation.counted_id _ i.id i'
        hi', ?_⟩
      split <;> exact ⟨rfl, rfl, fun _ ↦ rfl⟩
    · rintro _ _ error' ⟨⟩ herror
      exact hfailed error' herror

theorem redeems_step (svc : InvitationServices) (db : InvitationDatabase) (a : Action) :
    Redeems svc db a := by
  have hsame : ∀ {db' : InvitationDatabase}, db'.invitations = db.invitations →
      ∀ i ∈ db.invitations.rows, ∃ i' ∈ db'.invitations.rows, i'.id = i.id ∧
        i'.expiresAt = i.expiresAt ∧ (i.revokedAt ≠ none → i'.revokedAt = i.revokedAt) :=
    fun heq i hi ↦ ⟨i, heq ▸ hi, rfl, rfl, fun _ ↦ rfl⟩
  cases a with
  | signUp account => exact .of_eq rfl (hsame rfl) nofun
  | create n =>
    cases hresult : createInvitation svc n db with
    | error error =>
      have heq : step svc db (.create n) = db := commit_of_error hresult
      exact .of_eq (by rw [heq]) (hsame (by rw [heq])) nofun
    | ok result =>
      have heq : step svc db (.create n) = result.2 := commit_of_ok hresult
      obtain ⟨-, -, -, hrows, hdb'⟩ := createInvitation_ok hresult
      refine .of_eq (by rw [heq, hdb']) (fun i hi ↦ ⟨i, ?_, rfl, rfl, fun _ ↦ rfl⟩) nofun
      rw [heq, hrows]
      exact List.mem_append_left _ hi
  | redeem r mailbox => exact redeems_redeem svc db r mailbox
  | revoke invitationId now =>
    cases hresult : revokeInvitation invitationId now db with
    | error error =>
      have heq : step svc db (.revoke invitationId now) = db := commit_of_error hresult
      exact .of_eq (by rw [heq]) (hsame (by rw [heq])) nofun
    | ok result =>
      have heq : step svc db (.revoke invitationId now) = result.2 := commit_of_ok hresult
      obtain ⟨i, hi, -, ⟨-, hdb'⟩ | ⟨hlive, hdb'⟩⟩ := revokeInvitation_ok hresult
      · exact .of_eq (by rw [heq, hdb']) (hsame (by rw [heq, hdb'])) nofun
      · refine .of_eq (by rw [heq, hdb']) (fun i' hi' ↦ ?_) nofun
        rw [heq, hdb']
        refine ⟨_, @Table.modify_row _ _ _ _ _ (Invitation.revoked_id now) _ i.id i' hi', ?_⟩
        split
        · rename_i hid
          rw [db.invitations.eq_of_key hi' hi hid]
          exact ⟨rfl, rfl, fun hrevoked ↦ absurd hlive hrevoked⟩
        · exact ⟨rfl, rfl, fun _ ↦ rfl⟩
  | move e =>
    have heq : (step svc db (.move e)).redemptions = db.redemptions ∧
        (step svc db (.move e)).invitations = db.invitations := by
      dsimp only [step]
      split
      · exact ⟨rfl, rfl⟩
      · refine @commit_induction _ _ _ (moveCredits e) db
          (fun db' ↦ db'.redemptions = db.redemptions ∧ db'.invitations = db.invitations)
          ⟨rfl, rfl⟩ fun _ db' hok ↦ ?_
        obtain ⟨_, -, hr⟩ := map_eq_ok.mp hok
        cases hr
        exact ⟨rfl, rfl⟩
    exact .of_eq heq.1 (hsame heq.2) nofun

/-! ## Whole runs -/

/-- No link has been used yet. -/
structure Opening (db : InvitationDatabase) : Prop where
  unused : ∀ i ∈ db.invitations.rows, i.redeemedCount = 0 ∧ 1 ≤ i.maxRedemptions
  redemptions : db.redemptions.rows = []
  ledger : ∀ e ∈ db.ledger.rows, e.invitationRedemptionId = none

theorem Opening.granted {db : InvitationDatabase} (h : Opening db) : Granted db := by
  have hnone : ∀ id, redemptionsOf db id = [] := fun id ↦ by
    rw [redemptionsOf, h.redemptions]
    rfl
  refine ⟨fun i hi ↦ ?_, fun i hi ↦ ?_, fun x hx ↦ ?_, fun x hx ↦ ?_, fun e he id hid ↦ ?_,
    fun id ↦ ?_⟩
  · rw [hnone]
    exact (h.unused i hi).1
  · rw [(h.unused i hi).1]
    exact (Int.zero_le_ofNat 1).trans (h.unused i hi).2
  · rw [h.redemptions] at hx
    cases hx
  · rw [h.redemptions] at hx
    cases hx
  · cases (h.ledger e he).symm.trans hid
  · have hgrants : grantsOf db id = [] := List.filter_eq_nil_iff.mpr fun e he hgrant ↦ by
      obtain ⟨x, -, -, hnames⟩ := of_decide_eq_true hgrant
      cases (h.ledger e he).symm.trans hnames
    rw [hnone, hgrants]
    rfl

/-- Whoever redeems, in whatever order: an invitation's counter, its redemptions and its grants
agree and stay within its maximum, no account uses it twice, nobody uses it once it was
withdrawn or has expired, and a redemption that fails changes nothing. -/
theorem invitation_spent_as_granted (svc : InvitationServices) (db : InvitationDatabase)
    (hdb : Opening db) (as : List Action) :
    Each (step svc) (Redeems svc) db as ∧
      ∀ i ∈ (run (step svc) db as).invitations.rows, Spent (run (step svc) db as) i :=
  ⟨each_of_invariant (granted_step svc) (fun db a _ ↦ redeems_step svc db a) hdb.granted as,
    fun _ hi ↦ (run_invariant (granted_step svc) hdb.granted as).spent hi⟩

/-! ## An example -/

def exampleServices : InvitationServices := ⟨id, id, id⟩

/-- Two accounts, and nothing else. -/
def exampleDatabase : InvitationDatabase where
  toDatabase := { Database.empty with accounts := ⟨[⟨1, none⟩, ⟨2, none⟩], by decide⟩ }
  invitations := .empty _
  redemptions := .empty _

def request (accountId redemptionId : Uuid) (now : Instant) : RedeemRequest where
  code := "code"
  accountId := accountId
  creditPriceRao := 10
  now := now
  redemptionId := redemptionId
  createdAt := now

/-- A link for two accounts.  The first one tries twice; it is withdrawn before the second
one comes. -/
def twiceThenRevoked : List Action :=
  [.create
    { id := 7
      code := "code"
      credits := 3
      note := "workshop"
      createdBy := 1
      maxRedemptions := 2
      expiresAt := some 100
      emailDomain := none
      createdAt := 0 },
    .redeem (request 1 1 5) none, .redeem (request 1 2 6) none, .revoke 7 8,
    .redeem (request 2 3 9) none]

theorem invitation_is_spent_once :
    ∃ i ∈ (run (step exampleServices) exampleDatabase twiceThenRevoked).invitations.rows,
      i.redeemedCount = 1 ∧
        Spent (run (step exampleServices) exampleDatabase twiceThenRevoked) i := by
  have hopening : Opening exampleDatabase := ⟨by decide, rfl, by decide⟩
  obtain ⟨i, hi, hcount⟩ : ∃ i ∈
      (run (step exampleServices) exampleDatabase twiceThenRevoked).invitations.rows,
      i.redeemedCount = 1 := by decide +kernel
  exact ⟨i, hi, hcount,
    (invitation_spent_as_granted exampleServices exampleDatabase hopening twiceThenRevoked).2 i hi⟩

end Conjectures.Invitations

import Conjectures.Db.Credits

/-!
# Invitation links, and the grants they turn into

`conjectures_subnet/db/invitations.py`.  An operator issues a link for a number of verification
attempts; a signed-in account redeems it once.  Redemption is serialised on the invitation row,
and the redemption row, the GRANT that names it and the counter are written together or not at
all.

Hashing, trimming and lower-casing are Python's own.  The identifiers and the code of a new
row are random, and so are arguments here.
-/

namespace Conjectures.Db

open Lib

/-! ## Rows -/

structure Invitation where
  id : Uuid
  codeSha256 : Digest
  /-- attempts, not rao -/
  credits : ℤ
  maxRedemptions : ℤ
  redeemedCount : ℤ
  /-- none means any address -/
  emailDomain : Option String
  expiresAt : Option Instant
  revokedAt : Option Instant
  note : String
  createdBy : Uuid
  createdAt : Instant
  deriving DecidableEq

/-- One account used one invitation. -/
structure InvitationRedemption where
  id : Uuid
  invitationId : Uuid
  accountId : Uuid
  createdAt : Instant
  deriving DecidableEq

/-- The address columns of an account. -/
structure Mailbox where
  email : Option String
  emailVerified : Bool
  deriving DecidableEq

structure InvitationDatabase extends Database where
  invitations : Table Invitation.id
  redemptions : Table InvitationRedemption.id

/-- The functions of Python's library that are called. -/
structure InvitationServices where
  /-- `code_digest` -/
  codeDigest : String → Digest
  strip : String → String
  lower : String → String

/-- `invitation_redemption_once_per_account` -/
def InvitationRedemption.accountIdx (x : InvitationRedemption) : Option (Uuid × Uuid) :=
  some (x.invitationId, x.accountId)

/-! ## Refusals -/

def maxGrantCredits : ℤ := 100

inductive InvitationError where
  | valueError (message : String)
  | notFound (message reasonCode : String)
  /-- `InvitationUnusable`, with the domain it is limited to -/
  | unusable (message reasonCode : String) (emailDomain : Option String)
  | conflict (message reasonCode : String)
  /-- raised by the credit store -/
  | credits (error : DatabaseError)
  | integrityError (constraint : String)
  deriving DecidableEq

/-- The three reasons a live link stops working, revocation first. -/
def refuseIfUnusable (row : Invitation) (now : Instant) : Except InvitationError Unit := do
  require (row.revokedAt = none)
    (.unusable "this invitation has been withdrawn" "INVITATION_REVOKED" none)
  require (∀ expiry ∈ row.expiresAt, now < expiry)
    (.unusable "this invitation has expired" "INVITATION_EXPIRED" none)
  require (row.redeemedCount < row.maxRedemptions)
    (.unusable "this invitation has been fully redeemed" "INVITATION_EXHAUSTED" none)

/-- The account's address must be verified and in `domain`. -/
def requireEmailDomain (svc : InvitationServices) (found : Option Mailbox) (domain : String) :
    Except InvitationError Unit :=
  let email := (found.bind Mailbox.email).getD ""
  let verified := (found.map Mailbox.emailVerified).getD false
  require (verified = true ∧ ("@" ++ domain).toList <:+ (svc.lower email).toList)
    (.unusable ("this invitation is limited to verified " ++ domain ++ " addresses")
      "INVITATION_EMAIL_DOMAIN_REQUIRED" (some domain))

/-- A link that is limited to a domain asks for an address in it. -/
def requireAddress (svc : InvitationServices) (found : Option Mailbox) (row : Invitation) :
    Except InvitationError Unit :=
  match row.emailDomain with
  | some domain => requireEmailDomain svc found domain
  | none => .ok ()

/-! ## Issuing -/

/-- `[a-z0-9]([a-z0-9-]*[a-z0-9])?` -/
def IsLabel (label : List Char) : Prop :=
  (∀ c ∈ label, c.isLower ∨ c.isDigit ∨ c = '-') ∧
    (∃ c ∈ label.head?, c ≠ '-') ∧ ∃ c ∈ label.getLast?, c ≠ '-'

instance IsLabel.decidable (label : List Char) : Decidable (IsLabel label) :=
  @instDecidableAnd _ _ (List.decidableBAll _ label)
    (@instDecidableAnd _ _ (Option.decidableExistsMem _) (Option.decidableExistsMem _))

/-- `invitation_email_domain_shape`: two labels at least, between dots. -/
def EmailDomainShape (domain : String) : Prop :=
  2 ≤ (domain.toList.splitOn '.').length ∧ ∀ label ∈ domain.toList.splitOn '.', IsLabel label

instance EmailDomainShape.decidable (domain : String) : Decidable (EmailDomainShape domain) := by
  unfold EmailDomainShape; infer_instance

structure NewInvitation where
  id : Uuid
  code : String
  credits : ℤ
  note : String
  createdBy : Uuid
  maxRedemptions : ℤ
  expiresAt : Option Instant
  emailDomain : Option String
  createdAt : Instant

def NewInvitation.row (svc : InvitationServices) (n : NewInvitation) : Invitation where
  id := n.id
  codeSha256 := svc.codeDigest n.code
  credits := n.credits
  maxRedemptions := n.maxRedemptions
  redeemedCount := 0
  emailDomain := (n.emailDomain.filter (· ≠ "")).map fun domain ↦ svc.lower (svc.strip domain)
  expiresAt := n.expiresAt
  revokedAt := none
  note := svc.strip n.note
  createdBy := n.createdBy
  createdAt := n.createdAt

/-- Issue a link. -/
def createInvitation (svc : InvitationServices) (n : NewInvitation) :
    Txn InvitationDatabase InvitationError Invitation := fun db ↦ do
  require (1 ≤ n.credits ∧ n.credits ≤ maxGrantCredits)
    (.valueError "credits must be between 1 and 100")
  require (1 ≤ n.maxRedemptions) (.valueError "max_redemptions must be at least 1")
  let row := n.row svc
  require (∀ domain ∈ row.emailDomain, EmailDomainShape domain)
    (.integrityError "invitation_email_domain_shape")
  require (1 ≤ row.note.length ∧ row.note.length ≤ 200) (.integrityError "invitation_note_present")
  require (db.accounts.find? n.createdBy).isSome (.integrityError "invitations_created_by_fkey")
  require (¬ ∃ i ∈ db.invitations.rows, i.codeSha256 = row.codeSha256)
    (.integrityError "invitations_code_sha256_key")
  let invitations ← need (db.invitations.insert? row) (.integrityError "invitations_pkey")
  return (row, { db with invitations })

/-! ## Redeeming -/

/-- `_by_code`: the row, locked. -/
def byCode (svc : InvitationServices) (db : InvitationDatabase) (code : String) :
    Except InvitationError Invitation :=
  need (db.invitations.rows.find? (·.codeSha256 = svc.codeDigest code))
    (.notFound "no such invitation" "INVITATION_NOT_FOUND")

structure RedeemRequest where
  code : String
  accountId : Uuid
  creditPriceRao : Rao
  now : Instant
  /-- what the database makes up: the row's id and its `created_at` -/
  redemptionId : Uuid
  createdAt : Instant

/-- What redeeming produced. -/
structure Redemption where
  redemptionId : Uuid
  invitationId : Uuid
  creditLedgerId : ℕ
  credits : ℤ
  amountRao : Rao
  deriving DecidableEq

def RedeemRequest.row (r : RedeemRequest) (invitationId : Uuid) : InvitationRedemption :=
  ⟨r.redemptionId, invitationId, r.accountId, r.createdAt⟩

/-- The GRANT: the link's attempts at the price in force. -/
def RedeemRequest.grant (r : RedeemRequest) (credits : ℤ) : EntryFields where
  accountId := r.accountId
  kind := .grant
  amountRao := credits * r.creditPriceRao
  creditPriceRao := some r.creditPriceRao
  invitationRedemptionId := some r.redemptionId
  createdBy := "invitation"

/-- Insert the redemption row, or report the account that has one. -/
def insertRedemption (db : InvitationDatabase) (row : InvitationRedemption) :
    Except InvitationError InvitationDatabase := do
  require (¬ Taken InvitationRedemption.accountIdx db.redemptions.rows row)
    (.conflict "this account has already redeemed that invitation" "INVITATION_ALREADY_REDEEMED")
  let redemptions ← need (db.redemptions.insert? row) (.integrityError "invitation_redemptions_pkey")
  return { db with redemptions }

/-- One more redemption. -/
def Invitation.counted (i : Invitation) : Invitation :=
  { i with redeemedCount := i.redeemedCount + 1 }

theorem Invitation.counted_id (i : Invitation) : i.counted.id = i.id := rfl

/-- Grant this account the link's credits, once.  `mailbox` is what the account's row says. -/
def redeem (svc : InvitationServices) (r : RedeemRequest) (mailbox : Option Mailbox) :
    Txn InvitationDatabase InvitationError Redemption := fun db ↦ do
  let row ← byCode svc db r.code
  refuseIfUnusable row r.now
  requireAddress svc mailbox row
  (lockAccount db.toDatabase r.accountId).mapError .credits
  let db ← insertRedemption db (r.row row.id)
  let (entry, ledgered) ← (recordEntry db.toDatabase (r.grant row.credits)).mapError .credits
  -- the lock makes this condition safe already
  require (row.redeemedCount < row.maxRedemptions)
    (.conflict "this invitation has been fully redeemed" "INVITATION_EXHAUSTED")
  return (
    { redemptionId := r.redemptionId
      invitationId := row.id
      creditLedgerId := entry.id
      credits := row.credits
      amountRao := row.credits * r.creditPriceRao },
    { toDatabase := ledgered
      invitations := db.invitations.modify row.id Invitation.counted Invitation.counted_id
      redemptions := db.redemptions })

/-! ## Withdrawing -/

def Invitation.revoked (now : Instant) (i : Invitation) : Invitation :=
  { i with revokedAt := some now }

theorem Invitation.revoked_id (now : Instant) (i : Invitation) : (i.revoked now).id = i.id := rfl

/-- Withdraw a link.  A link that was withdrawn before keeps its first timestamp. -/
def revokeInvitation (invitationId : Uuid) (now : Instant) :
    Txn InvitationDatabase InvitationError Invitation := fun db ↦ do
  let row ← need (db.invitations.find? invitationId)
    (.notFound "no such invitation" "INVITATION_NOT_FOUND")
  if row.revokedAt = none then do
    require (row.createdAt ≤ now) (.integrityError "invitation_revoked_after_created")
    return (row.revoked now, { db with
      invitations := db.invitations.modify row.id (·.revoked now) (Invitation.revoked_id now) })
  else
    return (row, db)

/-! ## What they do -/

/-- What `redeem` does when it goes through. -/
structure Redeemed (db : InvitationDatabase) (r : RedeemRequest) (i : Invitation)
    (db' : InvitationDatabase) : Prop where
  invitation : i ∈ db.invitations.rows
  live : i.revokedAt = none
  unexpired : ∀ expiry ∈ i.expiresAt, r.now < expiry
  left : i.redeemedCount < i.maxRedemptions
  once : ¬ Taken InvitationRedemption.accountIdx db.redemptions.rows (r.row i.id)
  fresh : ∀ x ∈ db.redemptions.rows, x.id ≠ r.redemptionId
  redemptions : db'.redemptions.rows = db.redemptions.rows ++ [r.row i.id]
  ledger : db'.ledger.rows =
    db.ledger.rows ++ [(r.grant i.credits).row db.ledger.nextId]
  counted : db'.invitations = db.invitations.modify i.id Invitation.counted Invitation.counted_id

theorem refuseIfUnusable_ok {row : Invitation} {now : Instant} {u : Unit} :
    refuseIfUnusable row now = .ok u ↔ row.revokedAt = none ∧
      (∀ expiry ∈ row.expiresAt, now < expiry) ∧ row.redeemedCount < row.maxRedemptions := by
  simp only [refuseIfUnusable, bind_eq_ok, require_eq_ok]
  constructor
  · rintro ⟨-, hlive, -, hunexpired, hleft⟩
    exact ⟨hlive, hunexpired, hleft⟩
  · rintro ⟨hlive, hunexpired, hleft⟩
    exact ⟨(), hlive, (), hunexpired, hleft⟩

theorem redeem_ok {svc : InvitationServices} {r : RedeemRequest} {mailbox : Option Mailbox}
    {db db' : InvitationDatabase} {result : Redemption}
    (h : redeem svc r mailbox db = .ok (result, db')) : ∃ i, Redeemed db r i db' := by
  simp only [redeem, byCode, bind_eq_ok, need_eq_ok, mapError_eq_ok, refuseIfUnusable_ok,
    require_eq_ok] at h
  obtain ⟨i, hfound, -, ⟨hlive, hunexpired, hleft⟩, -, -, -, -, db₁, hinsert, ⟨entry, ledgered⟩,
    hentry, -, -, h⟩ := h
  cases h
  simp only [insertRedemption, bind_eq_ok, require_eq_ok, need_eq_ok] at hinsert
  obtain ⟨-, honce, redemptions, hredemptions, hdb₁⟩ := hinsert
  cases hdb₁
  obtain ⟨-, hledgered⟩ := recordEntry_eq_ok.mp hentry
  obtain ⟨rfl, rfl⟩ := Prod.mk.inj hledgered
  exact ⟨i, List.mem_of_find?_eq_some hfound, hlive, hunexpired, hleft, honce,
    Table.fresh_of_insert? hredemptions, Table.rows_of_insert? hredemptions, rfl, rfl⟩

theorem revokeInvitation_ok {invitationId : Uuid} {now : Instant} {db db' : InvitationDatabase}
    {i : Invitation} (h : revokeInvitation invitationId now db = .ok (i, db')) :
    ∃ i ∈ db.invitations.rows, i.id = invitationId ∧
      ((i.revokedAt ≠ none ∧ db' = db) ∨ (i.revokedAt = none ∧ db' = { db with
        invitations := db.invitations.modify i.id (·.revoked now)
          (Invitation.revoked_id now) })) := by
  simp only [revokeInvitation, bind_eq_ok, need_eq_ok, Table.find?_eq_some] at h
  obtain ⟨i, ⟨hi, hid⟩, h⟩ := h
  refine ⟨i, hi, hid, ?_⟩
  split at h
  · rename_i hlive
    obtain ⟨-, -, h⟩ := bind_eq_ok.mp h
    cases h
    exact Or.inr ⟨hlive, rfl⟩
  · rename_i hrevoked
    cases h
    exact Or.inl ⟨hrevoked, rfl⟩

theorem createInvitation_ok {svc : InvitationServices} {n : NewInvitation}
    {db db' : InvitationDatabase} {i : Invitation}
    (h : createInvitation svc n db = .ok (i, db')) :
    i = n.row svc ∧ 1 ≤ i.maxRedemptions ∧ (∀ i' ∈ db.invitations.rows, i'.id ≠ i.id) ∧
      db'.invitations.rows = db.invitations.rows ++ [i] ∧
      db' = { db with invitations := db'.invitations } := by
  simp only [createInvitation, bind_eq_ok, require_eq_ok, need_eq_ok] at h
  obtain ⟨-, -, -, hmax, -, -, -, -, -, -, -, -, invitations, hinsert, h⟩ := h
  cases h
  exact ⟨rfl, hmax, Table.fresh_of_insert? hinsert, Table.rows_of_insert? hinsert, rfl⟩

end Conjectures.Db

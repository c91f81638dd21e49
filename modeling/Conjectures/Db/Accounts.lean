import Conjectures.Lib.Transaction
import Conjectures.Db.Models

/-!
# Accounts and the ways into them

`conjectures_subnet/db/accounts.py`: an account, its address and its password, the coldkeys
and the external identities that reach it, its sessions, and the challenges a sign-in answers.
-/

namespace Conjectures.Db

open Lib

/-- A finished hash, as text. -/
abbrev PasswordHash := String

/-! ## Rows -/

/-- An account, as far as signing in to it goes. -/
structure AuthAccount where
  id : Uuid
  email : Option String
  emailVerified : Bool
  passwordHash : Option PasswordHash
  failedPasswordAttempts : ℕ
  passwordThrottledUntil : Option Instant
  submissionColdkey : Option Ss58
  deriving DecidableEq

/-- A provider's stable subject, attached to an account. -/
structure AccountIdentity where
  provider : String
  subject : String
  accountId : Uuid
  email : String
  deriving DecidableEq

def AccountIdentity.key (i : AccountIdentity) : String × String := (i.provider, i.subject)

/-- `account_identities_provider_unique`: one subject of a provider to an account. -/
def AccountIdentity.providerIdx (i : AccountIdentity) : Option (Uuid × String) :=
  some (i.accountId, i.provider)

inductive AccountSessionKind where
  | cookie
  | bearer
  deriving DecidableEq

structure AccountSession where
  id : Uuid
  accountId : Uuid
  kind : AccountSessionKind
  tokenSha256 : Digest
  /-- the coldkey a bearer session is bounded to -/
  coldkeyScope : Option Ss58
  issuedAt : Instant
  lastSeenAt : Instant
  expiresAt : Instant
  revokedAt : Option Instant
  deriving DecidableEq

def AccountSession.tokenIdx (s : AccountSession) : Option Digest := some s.tokenSha256

inductive LoginChallengeKind where
  | email
  | wallet
  | coldkeyLink
  /-- a coldkey's exchange for a bearer token -/
  | coldkeySession
  | passwordSignup
  | passwordReset
  deriving DecidableEq

/-- Something a sign-in has to answer, once. -/
structure LoginChallenge where
  id : Uuid
  kind : LoginChallengeKind
  accountId : Option Uuid
  email : Option String
  ss58 : Option Ss58
  secretSha256 : Digest
  message : Option String
  passwordHash : Option PasswordHash
  attempts : ℤ
  createdAt : Instant
  expiresAt : Instant
  consumedAt : Option Instant
  deriving DecidableEq

structure AuthDatabase where
  accounts : Table AuthAccount.id
  identities : Table AccountIdentity.key
  wallets : Table AccountWallet.coldkey
  sessions : Table AccountSession.id
  challenges : Table LoginChallenge.id

def AuthDatabase.empty : AuthDatabase where
  accounts := .empty _
  identities := .empty _
  wallets := .empty _
  sessions := .empty _
  challenges := .empty _

/-! ## Finding an account -/

/-- Two ways to fold an address: the program's, trimmed and case-folded, and the database's
`lower`. -/
structure EmailText where
  normaliseEmail : String → String
  lower : String → String

/-- `accounts_email_idx`, over `lower(email)`. -/
def AuthAccount.emailIdx (t : EmailText) (a : AuthAccount) : Option String := a.email.map t.lower

/-- The account with an address in its stored form. -/
def accountAt (t : EmailText) (db : AuthDatabase) (key : String) : Option AuthAccount :=
  db.accounts.rows.find? fun a ↦ a.emailIdx t = some key

/-- `find_by_email`. -/
def findByEmail (t : EmailText) (db : AuthDatabase) (email : String) : Option AuthAccount :=
  accountAt t db (t.normaliseEmail email)

/-! ## Passwords -/

/-- The row after a wrong password.  Crossing the ceiling starts a pause and resets the
count. -/
def AuthAccount.failed (a : AuthAccount) (now : Instant) (attempts : ℕ) (throttle : ℤ) :
    AuthAccount :=
  if attempts ≤ a.failedPasswordAttempts + 1 then
    { a with failedPasswordAttempts := 0, passwordThrottledUntil := some (now + throttle) }
  else { a with failedPasswordAttempts := a.failedPasswordAttempts + 1 }

/-- The row after a right one. -/
def AuthAccount.cleared (a : AuthAccount) : AuthAccount :=
  { a with failedPasswordAttempts := 0, passwordThrottledUntil := none }

/-- The row with a stronger hash of the same password. -/
def AuthAccount.rehashed (a : AuthAccount) (passwordHash : PasswordHash) : AuthAccount :=
  { a.cleared with passwordHash := some passwordHash }

@[simp] theorem AuthAccount.failed_id (a : AuthAccount) (now : Instant)
    (attempts : ℕ) (throttle : ℤ) : (a.failed now attempts throttle).id = a.id := by unfold failed; split <;> rfl

@[simp] theorem AuthAccount.failed_email (a : AuthAccount) (now : Instant)
    (attempts : ℕ) (throttle : ℤ) : (a.failed now attempts throttle).email = a.email := by
  unfold failed; split <;> rfl

@[simp] theorem AuthAccount.failed_passwordHash (a : AuthAccount) (now : Instant)
    (attempts : ℕ) (throttle : ℤ) :
    (a.failed now attempts throttle).passwordHash = a.passwordHash := by
  unfold failed; split <;> rfl

@[simp] theorem AuthAccount.cleared_id (a : AuthAccount) : a.cleared.id = a.id := rfl

@[simp] theorem AuthAccount.rehashed_id (a : AuthAccount) (h : PasswordHash) :
    (a.rehashed h).id = a.id := rfl

/-- `record_password_failure`: count one wrong password on the row as it is now. -/
def recordPasswordFailure (db : AuthDatabase) (accountId : Uuid) (now : Instant)
    (attempts : ℕ) (throttle : ℤ) : AuthDatabase :=
  { db with
    accounts := db.accounts.modify accountId (·.failed now attempts throttle)
      (·.failed_id now attempts throttle) }

/-- `clear_password_failures`. -/
def clearPasswordFailures (db : AuthDatabase) (accountId : Uuid) : AuthDatabase :=
  { db with accounts := db.accounts.modify accountId (·.cleared) (·.cleared_id) }

/-- `rehash_password`. -/
def rehashPassword (db : AuthDatabase) (accountId : Uuid) (passwordHash : PasswordHash) :
    AuthDatabase :=
  { db with
    accounts := db.accounts.modify accountId (·.rehashed passwordHash)
      (·.rehashed_id passwordHash) }

/-- How much longer the password method is paused. -/
def passwordPauseRemaining (a : AuthAccount) (now : Instant) : Option ℤ :=
  match a.passwordThrottledUntil with
  | some paused => if 0 < paused - now then some (paused - now) else none
  | none => none

/-! ## Sessions -/

/-- The session takes requests. -/
def AccountSession.Live (s : AccountSession) (now : Instant) : Prop :=
  s.revokedAt = none ∧ now < s.expiresAt

instance AccountSession.decidableLive (s : AccountSession) (now : Instant) :
    Decidable (s.Live now) := by unfold AccountSession.Live; infer_instance

/-- The row after a revocation.  A revoked row stays as it is. -/
def AccountSession.revoked (s : AccountSession) (now : Instant) : AccountSession :=
  if s.revokedAt = none then { s with revokedAt := some now } else s

@[simp] theorem AccountSession.revoked_id (s : AccountSession) (now : Instant) :
    (s.revoked now).id = s.id := by unfold revoked; split <;> rfl

/-- Which sessions a revocation ends. -/
inductive Revocation where
  /-- `revoke_session` -/
  | session (id : Uuid)
  /-- `revoke_session_for_account` -/
  | sessionForAccount (id accountId : Uuid)
  /-- `revoke_all_sessions` -/
  | all (accountId : Uuid) (kind : Option AccountSessionKind) (exceptId : Option Uuid)
  /-- `revoke_sessions_for_coldkey` -/
  | coldkey (key : Ss58)

def Revocation.Selects (r : Revocation) (s : AccountSession) : Prop :=
  match r with
  | .session id => s.id = id
  | .sessionForAccount id accountId => s.id = id ∧ s.accountId = accountId
  | .all accountId kind exceptId =>
    s.accountId = accountId ∧ (kind = none ∨ kind = some s.kind) ∧ exceptId ≠ some s.id
  | .coldkey key => s.kind = .bearer ∧ s.coldkeyScope = some key

instance Revocation.decidableSelects (r : Revocation) (s : AccountSession) :
    Decidable (r.Selects s) := by
  unfold Revocation.Selects; cases r <;> infer_instance

/-- `UPDATE account_sessions SET revoked_at = now()`, over those of the rows that take
requests. -/
def revokeSessions (db : AuthDatabase) (p : AccountSession → Bool) (now : Instant) : AuthDatabase :=
  { db with sessions := db.sessions.update p (·.revoked now) (·.revoked_id now) }

/-- `revoke_all_sessions` of one kind. -/
def revokeAllSessions (db : AuthDatabase) (accountId : Uuid) (kind : AccountSessionKind)
    (now : Instant) : AuthDatabase :=
  revokeSessions db (fun s ↦ (Revocation.all accountId (some kind) none).Selects s) now

/-- The row of a new session. -/
structure NewSession where
  id : Uuid
  tokenSha256 : Digest
  accountId : Uuid
  kind : AccountSessionKind
  coldkeyScope : Option Ss58
  issuedAt : Instant
  expiresAt : Instant

def NewSession.row (n : NewSession) : AccountSession where
  id := n.id
  accountId := n.accountId
  kind := n.kind
  tokenSha256 := n.tokenSha256
  coldkeyScope := n.coldkeyScope
  issuedAt := n.issuedAt
  lastSeenAt := n.issuedAt
  expiresAt := n.expiresAt
  revokedAt := none

/-- The `CHECK` constraints of `account_sessions`. -/
def AccountSession.Valid (s : AccountSession) : Prop :=
  s.issuedAt < s.expiresAt ∧ (s.kind = .bearer ↔ s.coldkeyScope.isSome)

instance AccountSession.decidableValid (s : AccountSession) : Decidable s.Valid := by
  unfold AccountSession.Valid; infer_instance

/-- What an insert into the account tables is refused for. -/
inductive AuthError where
  | emailInUse
  | identityAlreadyLinked
  | providerAlreadyLinked
  | walletAlreadyLinked
  | coldkeyNotLinked
  | integrityError (constraint : String)
  deriving DecidableEq

/-- `create_session`. -/
def createSession (db : AuthDatabase) (n : NewSession) : Except AuthError AuthDatabase := do
  require n.row.Valid (.integrityError "account_sessions_check")
  let sessions ← need (db.sessions.insert? n.row) (.integrityError "account_sessions_pkey")
  require (¬ Taken AccountSession.tokenIdx db.sessions.rows n.row)
    (.integrityError "account_sessions_token_sha256_key")
  return { db with sessions }

end Conjectures.Db

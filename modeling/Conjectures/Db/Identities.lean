import Conjectures.Db.Sessions

/-!
# Accounts and what is attached to them

The statements of `conjectures_subnet/db/accounts.py` that open an account, attach a provider's
subject to it or change its password.
-/

namespace Conjectures.Db

open Lib
open scoped Instant

/-! ## Accounts -/

structure NewAccount where
  id : Uuid
  email : Option String
  emailVerified : Bool
  passwordHash : Option PasswordHash

/-- The row of a new account.  The address is stored folded. -/
def NewAccount.row (t : EmailText) (n : NewAccount) : AuthAccount where
  id := n.id
  email := n.email.map t.normaliseEmail
  emailVerified := n.emailVerified
  passwordHash := n.passwordHash
  failedPasswordAttempts := 0
  passwordThrottledUntil := none
  submissionColdkey := none

/-- `create_account`. -/
def createAccount (t : EmailText) (db : AuthDatabase) (n : NewAccount) :
    Except AuthError AuthDatabase := do
  -- `password_requires_an_email`
  require (n.passwordHash.isSome → n.email.isSome) .emailInUse
  let accounts ← need (db.accounts.insert? (n.row t)) .emailInUse
  require (¬ Taken (AuthAccount.emailIdx t) db.accounts.rows (n.row t)) .emailInUse
  return { db with accounts }

/-- The row after a password was chosen. -/
def AuthAccount.withPassword (a : AuthAccount) (passwordHash : PasswordHash) : AuthAccount :=
  { a with
    passwordHash := some passwordHash
    failedPasswordAttempts := 0
    passwordThrottledUntil := none }

/-- `set_password`. -/
def setPassword (db : AuthDatabase) (accountId : Uuid) (passwordHash : PasswordHash) :
    AuthDatabase :=
  { db with
    accounts := db.accounts.modify accountId (·.withPassword passwordHash) fun _ ↦ rfl }

/-- The row once the mailbox answered. -/
def AuthAccount.verified (a : AuthAccount) : AuthAccount := { a with emailVerified := true }

def setVerified (db : AuthDatabase) (accountId : Uuid) : AuthDatabase :=
  { db with accounts := db.accounts.modify accountId (·.verified) fun _ ↦ rfl }

/-- The row with an address. -/
def AuthAccount.withEmail (a : AuthAccount) (email : String) : AuthAccount :=
  { a with email := some email, emailVerified := true }

/-- The address of an account, if no other has it. -/
def setEmail (t : EmailText) (db : AuthDatabase) (a : AuthAccount) (email : String) :
    Except AuthError AuthDatabase := do
  require (∀ b ∈ db.accounts.rows, b.id ≠ a.id → b.emailIdx t ≠ some (t.lower email)) .emailInUse
  return { db with accounts := db.accounts.modify a.id (·.withEmail email) fun _ ↦ rfl }

/-! ## Identities -/

/-- `GOOGLE_PROVIDER`. -/
def googleProvider : String := "google"

/-- `find_by_identity`. -/
def findByIdentity (db : AuthDatabase) (provider subject : String) :
    Option (AuthAccount × AccountIdentity) :=
  (db.identities.find? (provider, subject)).bind fun i ↦
    (db.accounts.find? i.accountId).map fun a ↦ (a, i)

/-- `link_identity`. -/
def linkIdentity (db : AuthDatabase) (i : AccountIdentity) : Except AuthError AuthDatabase := do
  let identities ← need (db.identities.insert? i) .identityAlreadyLinked
  require (¬ Taken AccountIdentity.providerIdx db.identities.rows i) .providerAlreadyLinked
  return { db with identities }

/-- `touch_identity`. -/
def touchIdentity (db : AuthDatabase) (i : AccountIdentity) (email : String) : AuthDatabase :=
  { db with identities := db.identities.modify i.key (fun i ↦ { i with email }) fun _ ↦ rfl }

/-! ## Challenges -/

/-- `latest_open_challenge`. -/
def latestOpenChallenge (db : AuthDatabase) (kind : LoginChallengeKind) (ss58 : Ss58)
    (now : Instant) : Option LoginChallenge :=
  (db.challenges.rows.filter fun c ↦
    c.kind = kind ∧ c.ss58 = some ss58 ∧ c.consumedAt = none ∧ now < c.expiresAt).argmax
      (·.createdAt)

/-- `recent_challenge_count` of an address. -/
def recentChallengeCount (t : EmailText) (db : AuthDatabase) (kinds : List LoginChallengeKind)
    (since : Instant) (email : String) : ℕ :=
  db.challenges.rows.countP fun c ↦
    c.kind ∈ kinds ∧ since ≤ c.createdAt ∧ c.email.map t.lower = some (t.normaliseEmail email)

end Conjectures.Db

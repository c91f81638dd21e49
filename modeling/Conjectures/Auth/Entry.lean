import Conjectures.Auth.Password
import Conjectures.Db.Identities

/-!
# The ways in

The sign-in endpoints of `submission_api/routers/auth.py` and the two that attach a way in, of
`auth.py` and `me.py`.  Each is a transaction that finds or opens an account; those that sign in
go on with `_sign_in`.

A mail is its address and the digest of the secret in its link.  What Google says of a token is an
argument, checked before, with the fact that Google is authoritative for the address.  Cookies,
redirects and the limit on how many messages a coldkey may ask to sign are left out.
-/

namespace Conjectures.Auth

open Lib Db

/-! ## Settings, mail and credentials -/

structure EntrySettings extends AuthSettings where
  casefold : String → String
  /-- `verify_signature` -/
  verifySignature : Ss58 → String → String → Bool
  /-- `assert_acceptable`: the password in its normal form, if policy allows it -/
  assertAcceptable : String → Option String → Option String
  emailLinksPerHour : ℕ
  emailLinkMinutes : ℕ
  challengeMinutes : ℕ
  challengeAttempts : ℤ

/-- A mail with a link, on its way. -/
structure Mail where
  address : String
  /-- the digest of the token in the link -/
  secret : Digest
  deriving DecidableEq

/-- `GoogleIdentity`. -/
structure GoogleIdentity where
  subject : String
  email : String
  emailVerified : Bool
  hostedDomain : Option String
  deriving DecidableEq

/-- `email.rpartition("@")[2]`: what follows the last at sign. -/
def domainOf (email : String) : String :=
  String.ofList (email.toList.reverse.takeWhile (· ≠ '@')).reverse

/-- `authoritative_email`: Google mail, or a verified address of a hosted domain. -/
def GoogleIdentity.authoritativeEmail (casefold : String → String) (i : GoogleIdentity) : Bool :=
  i.emailVerified && (casefold (domainOf i.email) == "gmail.com" || i.hostedDomain.any (· ≠ ""))

/-- What a new challenge is drawn. -/
structure ChallengeDraw where
  id : Uuid
  secret : Digest

/-- What an endpoint answers with instead. -/
inductive EntryError where
  | badRequest (reasonCode : String)
  | unauthorized (reasonCode : String)
  | conflict (reasonCode : String)
  | store (e : AuthError)
  deriving DecidableEq

variable (cfg : EntrySettings)

/-! ## Mailed challenges -/

/-- `MAILED_CHALLENGE_KINDS`. -/
def mailedChallengeKinds : List LoginChallengeKind := [.email, .passwordSignup, .passwordReset]

/-- An hour. -/
def hour : ℤ := 3600000000

/-- A challenge that is mailed. -/
def mailed (db : AuthDatabase) (n : NewChallenge) (address : String) :
    Except EntryError (Option Mail × AuthDatabase) := do
  let db ← (createChallenge db n).mapError .store
  return (some ⟨address, n.secretSha256⟩, db)

/-- `request_email_link`. -/
def requestEmailLink (db : AuthDatabase) (email : String) (now : Instant) (draw : ChallengeDraw) :
    Except EntryError (Option Mail × AuthDatabase) :=
  if cfg.emailLinksPerHour ≤ recentChallengeCount cfg.emailText db [.email] (now - hour) email then
    .ok (none, db)
  else
    mailed db
      { id := draw.id
        kind := .email
        accountId := none
        email := some (cfg.emailText.normaliseEmail email)
        ss58 := none
        secretSha256 := draw.secret
        message := none
        passwordHash := none
        createdAt := now
        expiresAt := now + cfg.emailLinkMinutes * 60000000 }
      email

/-- A reset link for an account. -/
def resetChallenge (accountId : Uuid) (email : String) (now : Instant) (draw : ChallengeDraw) :
    NewChallenge where
  id := draw.id
  kind := .passwordReset
  accountId := some accountId
  email := some (cfg.emailText.normaliseEmail email)
  ss58 := none
  secretSha256 := draw.secret
  message := none
  passwordHash := none
  createdAt := now
  expiresAt := now + cfg.emailLinkMinutes * 60000000

/-- `_mail_budget_spent`. -/
def MailBudgetSpent (db : AuthDatabase) (email : String) (now : Instant) : Prop :=
  cfg.emailLinksPerHour ≤
    recentChallengeCount cfg.emailText db mailedChallengeKinds (now - hour) email

instance MailBudgetSpent.decidable (db : AuthDatabase) (email : String) (now : Instant) :
    Decidable (MailBudgetSpent cfg db email now) := by unfold MailBudgetSpent; infer_instance

/-- `register_password`: a confirmation link, or a reset link where the address has an
account. -/
def registerPassword (db : AuthDatabase) (email password : String) (now : Instant)
    (draw : ChallengeDraw) : Except EntryError (Option Mail × AuthDatabase) := do
  let password ← need (cfg.assertAcceptable password (some email)) (.badRequest "PASSWORD_REJECTED")
  if MailBudgetSpent cfg db email now then return (none, db)
  else
    match findByEmail cfg.emailText db email with
    | some existing => mailed db (resetChallenge cfg existing.id email now draw) email
    | none =>
      mailed db
        { id := draw.id
          kind := .passwordSignup
          accountId := none
          email := some (cfg.emailText.normaliseEmail email)
          ss58 := none
          secretSha256 := draw.secret
          message := none
          passwordHash := some (cfg.hash password)
          createdAt := now
          expiresAt := now + cfg.emailLinkMinutes * 60000000 }
        email

/-- `request_password_reset`. -/
def requestPasswordReset (db : AuthDatabase) (email : String) (now : Instant)
    (draw : ChallengeDraw) : Except EntryError (Option Mail × AuthDatabase) :=
  if MailBudgetSpent cfg db email now then .ok (none, db)
  else
    match findByEmail cfg.emailText db email with
    | none => .ok (none, db)
    | some account =>
      match account.email with
      | none => .ok (none, db)
      | some address => mailed db (resetChallenge cfg account.id address now draw) address

/-! ## Answering mail -/

/-- Claim a challenge, or answer that there is none. -/
def claimChallenge (db : AuthDatabase) (kind : LoginChallengeKind) (secret : Digest)
    (now : Instant) : Except EntryError (LoginChallenge × AuthDatabase) := do
  let c ← need (consumable db kind secret now) (.unauthorized "CHALLENGE_INVALID")
  return (c, consumeChallenge db c.id now)

/-- `verify_email`, up to the session: the account it signs in to. -/
def verifyEmail (db : AuthDatabase) (secret : Digest) (now : Instant) (newId : Uuid) :
    Except EntryError (Uuid × AuthDatabase) := do
  let (c, db) ← claimChallenge db .email secret now
  let email ← need c.email (.unauthorized "CHALLENGE_INVALID")
  match findByEmail cfg.emailText db email with
  | none => do
    let db ← (createAccount cfg.emailText db ⟨newId, some email, true, none⟩).mapError .store
    return (newId, db)
  | some account =>
    return (account.id, if account.emailVerified then db else setVerified db account.id)

/-- `verify_password_signup`. -/
def verifyPasswordSignup (db : AuthDatabase) (secret : Digest) (now : Instant) (newId : Uuid) :
    Except EntryError (Uuid × AuthDatabase) := do
  let (c, db) ← claimChallenge db .passwordSignup secret now
  let email ← need c.email (.unauthorized "CHALLENGE_INVALID")
  let hash ← need c.passwordHash (.unauthorized "CHALLENGE_INVALID")
  require (findByEmail cfg.emailText db email = none) (.conflict "EMAIL_IN_USE")
  let db ← (createAccount cfg.emailText db ⟨newId, some email, true, some hash⟩).mapError .store
  return (newId, db)

/-- `reset_password`. -/
def resetPassword (db : AuthDatabase) (secret : Digest) (password : String) (now : Instant) :
    Except EntryError (Uuid × AuthDatabase) := do
  let password ← need (cfg.assertAcceptable password none) (.badRequest "PASSWORD_REJECTED")
  let (c, db) ← claimChallenge db .passwordReset secret now
  let accountId ← need c.accountId (.unauthorized "CHALLENGE_INVALID")
  return (accountId, setVerified (setPassword db accountId (cfg.hash password)) accountId)

/-! ## Google -/

/-- `_google_account_for_sign_in`. -/
def googleAccountForSignIn (db : AuthDatabase) (i : GoogleIdentity) (newId : Uuid) :
    Except EntryError (Uuid × AuthDatabase) :=
  match findByIdentity db googleProvider i.subject with
  | some (account, stored) =>
    .ok (account.id, touchIdentity db stored (cfg.emailText.normaliseEmail i.email))
  | none => do
    require (findByEmail cfg.emailText db i.email = none) (.conflict "GOOGLE_ACCOUNT_LINK_REQUIRED")
    let db ← (createAccount cfg.emailText db
      ⟨newId, some i.email, i.authoritativeEmail cfg.casefold, none⟩).mapError
        fun _ ↦ .conflict "GOOGLE_ACCOUNT_LINK_REQUIRED"
    let db ← (linkIdentity db
      ⟨googleProvider, i.subject, newId, cfg.emailText.normaliseEmail i.email⟩).mapError
        fun _ ↦ .conflict "GOOGLE_ACCOUNT_LINK_REQUIRED"
    return (newId, db)

/-- The address an explicit link fills or verifies: one Google answers for, where the account
has none or the same. -/
def fillEmail (db : AuthDatabase) (account : AuthAccount) (i : GoogleIdentity) :
    Except EntryError AuthDatabase :=
  if i.authoritativeEmail cfg.casefold ∧
      (∀ e ∈ account.email, cfg.casefold e = cfg.casefold i.email) then
    match findByEmail cfg.emailText db i.email with
    | none => (setEmail cfg.emailText db account i.email).mapError .store
    | some collision =>
      if collision.id = account.id then
        (setEmail cfg.emailText db account i.email).mapError .store
      else .ok db
  else .ok db

/-- `link_google`, from a session of an account. -/
def linkGoogle (db : AuthDatabase) (account : AuthAccount) (i : GoogleIdentity) :
    Except EntryError AuthDatabase :=
  match findByIdentity db googleProvider i.subject with
  | some (other, stored) =>
    if other.id = account.id then
      .ok (touchIdentity db stored (cfg.emailText.normaliseEmail i.email))
    else .error (.conflict "GOOGLE_IDENTITY_ALREADY_LINKED")
  | none => do
    require (∀ j ∈ db.identities.rows, j.accountId = account.id → j.provider ≠ googleProvider)
      (.conflict "GOOGLE_PROVIDER_ALREADY_LINKED")
    let db ← (linkIdentity db
      ⟨googleProvider, i.subject, account.id, cfg.emailText.normaliseEmail i.email⟩).mapError .store
    fillEmail cfg db account i

/-! ## Coldkeys -/

/-- A challenge that is answered by a signature. -/
def signedChallenge (kind : LoginChallengeKind) (accountId : Option Uuid) (address : Ss58)
    (message : String) (now : Instant) (draw : ChallengeDraw) : NewChallenge where
  id := draw.id
  kind := kind
  accountId := accountId
  email := none
  ss58 := some address
  secretSha256 := draw.secret
  message := some message
  passwordHash := none
  createdAt := now
  expiresAt := now + cfg.challengeMinutes * 60000000

/-- `verify_wallet`. -/
def verifyWallet (db : AuthDatabase) (address : Ss58) (signature : String) (now : Instant)
    (newId : Uuid) : Except EntryError (Uuid × AuthDatabase) := do
  let c ← need (latestOpenChallenge db .wallet address now) (.unauthorized "CHALLENGE_INVALID")
  let message ← need c.message (.unauthorized "CHALLENGE_INVALID")
  require (cfg.verifySignature address message signature) (.unauthorized "SIGNATURE_INVALID")
  let (_, db) ← claimChallenge db .wallet c.secretSha256 now
  match findByColdkey db address with
  | some account => return (account.id, db)
  | none => do
    let db ← (createAccount cfg.emailText db ⟨newId, none, false, none⟩).mapError .store
    let db ← (linkWallet db ⟨address, newId⟩).mapError .store
    return (newId, db)

/-- `link_coldkey`, from a session of an account. -/
def linkColdkey (db : AuthDatabase) (accountId : Uuid) (coldkey : Ss58) (nonce : Digest)
    (signature : String) (now : Instant) : Except EntryError AuthDatabase := do
  let c ← need
    ((openChallengeByNonce db .coldkeyLink coldkey nonce now cfg.challengeAttempts).filter
      (·.accountId = some accountId)) (.unauthorized "CHALLENGE_INVALID")
  let message ← need c.message (.unauthorized "CHALLENGE_INVALID")
  require (cfg.verifySignature coldkey message signature) (.unauthorized "SIGNATURE_INVALID")
  let (_, db) ← claimChallenge db .coldkeyLink c.secretSha256 now
  (linkWallet db ⟨coldkey, accountId⟩).mapError .store

end Conjectures.Auth

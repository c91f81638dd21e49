import Conjectures.Db.Accounts
import Mathlib.Data.List.MinMax

/-!
# Challenges and bearer sessions

The statements of `conjectures_subnet/db/accounts.py` that a coldkey's exchange for a bearer
token is made of, and those that keep a session going or end it.
-/

namespace Conjectures.Db

open Lib
open scoped Instant

/-! ## Challenges -/

/-- `login_challenges_secret_sha256_key`. -/
def LoginChallenge.secretIdx (c : LoginChallenge) : Option Digest := some c.secretSha256

/-- A new challenge. -/
structure NewChallenge where
  id : Uuid
  kind : LoginChallengeKind
  accountId : Option Uuid
  email : Option String
  ss58 : Option Ss58
  secretSha256 : Digest
  message : Option String
  passwordHash : Option PasswordHash
  createdAt : Instant
  expiresAt : Instant

def NewChallenge.row (n : NewChallenge) : LoginChallenge where
  id := n.id
  kind := n.kind
  accountId := n.accountId
  email := n.email
  ss58 := n.ss58
  secretSha256 := n.secretSha256
  message := n.message
  passwordHash := n.passwordHash
  attempts := 0
  createdAt := n.createdAt
  expiresAt := n.expiresAt
  consumedAt := none

/-- The `CHECK` constraints of `login_challenges`. -/
structure LoginChallenge.Valid (c : LoginChallenge) : Prop where
  email : c.kind = .email ∨ c.kind = .passwordSignup ∨ c.kind = .passwordReset → c.email.isSome
  passwordHash : c.kind = .passwordSignup ↔ c.passwordHash.isSome
  reset : c.kind = .passwordReset → c.accountId.isSome
  attempts : 0 ≤ c.attempts
  wallet : c.kind = .wallet ∨ c.kind = .coldkeyLink ∨ c.kind = .coldkeySession →
    c.ss58.isSome ∧ c.message.isSome
  link : c.kind = .coldkeyLink → c.accountId.isSome
  expires : c.createdAt < c.expiresAt

instance LoginChallenge.decidableValid (c : LoginChallenge) : Decidable c.Valid :=
  decidable_of_iff
    ((c.kind = .email ∨ c.kind = .passwordSignup ∨ c.kind = .passwordReset → c.email.isSome) ∧
      (c.kind = .passwordSignup ↔ c.passwordHash.isSome) ∧
      (c.kind = .passwordReset → c.accountId.isSome) ∧ 0 ≤ c.attempts ∧
      (c.kind = .wallet ∨ c.kind = .coldkeyLink ∨ c.kind = .coldkeySession →
        c.ss58.isSome ∧ c.message.isSome) ∧
      (c.kind = .coldkeyLink → c.accountId.isSome) ∧ c.createdAt < c.expiresAt)
    ⟨fun ⟨h₁, h₂, h₃, h₄, h₅, h₆, h₇⟩ ↦ ⟨h₁, h₂, h₃, h₄, h₅, h₆, h₇⟩,
      fun h ↦ ⟨h.1, h.2, h.3, h.4, h.5, h.6, h.7⟩⟩

/-- `create_challenge`. -/
def createChallenge (db : AuthDatabase) (n : NewChallenge) : Except AuthError AuthDatabase := do
  require n.row.Valid (.integrityError "login_challenges_check")
  let challenges ← need (db.challenges.insert? n.row) (.integrityError "login_challenges_pkey")
  require (¬ Taken LoginChallenge.secretIdx db.challenges.rows n.row)
    (.integrityError "login_challenges_secret_sha256_key")
  return { db with challenges }

/-- The challenge can be answered. -/
def LoginChallenge.Open (c : LoginChallenge) (kind : LoginChallengeKind) (secret : Digest)
    (now : Instant) : Prop :=
  c.secretSha256 = secret ∧ c.kind = kind ∧ c.consumedAt = none ∧ now < c.expiresAt

instance LoginChallenge.decidableOpen (c : LoginChallenge) (kind : LoginChallengeKind)
    (secret : Digest) (now : Instant) : Decidable (c.Open kind secret now) := by
  unfold LoginChallenge.Open; infer_instance

/-- `open_challenge_by_nonce`. -/
def openChallengeByNonce (db : AuthDatabase) (kind : LoginChallengeKind) (ss58 : Ss58)
    (secret : Digest) (now : Instant) (maxAttempts : ℤ) : Option LoginChallenge :=
  db.challenges.rows.find? fun c ↦
    c.Open kind secret now ∧ c.ss58 = some ss58 ∧ c.attempts < maxAttempts

/-- The row that `consume_challenge` claims. -/
def consumable (db : AuthDatabase) (kind : LoginChallengeKind) (secret : Digest) (now : Instant) :
    Option LoginChallenge :=
  db.challenges.rows.find? fun c ↦ c.Open kind secret now

/-- The row after it was claimed. -/
def LoginChallenge.consumed (c : LoginChallenge) (now : Instant) : LoginChallenge :=
  { c with consumedAt := some now }

@[simp] theorem LoginChallenge.consumed_id (c : LoginChallenge) (now : Instant) :
    (c.consumed now).id = c.id := rfl

def consumeChallenge (db : AuthDatabase) (challengeId : Uuid) (now : Instant) : AuthDatabase :=
  { db with challenges := db.challenges.modify challengeId (·.consumed now) (·.consumed_id now) }

theorem mem_consumeChallenge {db : AuthDatabase} {c : LoginChallenge}
    (hc : c ∈ db.challenges.rows) (now : Instant) :
    c.consumed now ∈ (consumeChallenge db c.id now).challenges.rows :=
  (@Table.mem_modify_of_mem _ _ _ _ (·.consumed now) (·.consumed_id now) _ _ _ hc).mpr (Or.inr rfl)

/-- The row after a wrong signature. -/
def LoginChallenge.attempted (c : LoginChallenge) : LoginChallenge :=
  { c with attempts := c.attempts + 1 }

@[simp] theorem LoginChallenge.attempted_id (c : LoginChallenge) : c.attempted.id = c.id := rfl

/-- `record_failed_attempt`. -/
def recordFailedAttempt (db : AuthDatabase) (challengeId : Uuid) : AuthDatabase :=
  { db with challenges := db.challenges.modify challengeId (·.attempted) (·.attempted_id) }

/-! ## Coldkeys -/

/-- `find_by_coldkey`. -/
def findByColdkey (db : AuthDatabase) (coldkey : Ss58) : Option AuthAccount :=
  (db.wallets.find? coldkey).bind fun w ↦ db.accounts.find? w.accountId

/-- `coldkey_still_linked`. -/
def ColdkeyStillLinked (db : AuthDatabase) (coldkey : Ss58) (accountId : Uuid) : Prop :=
  ∃ w ∈ db.wallets.rows, w.coldkey = coldkey ∧ w.accountId = accountId

instance ColdkeyStillLinked.decidable (db : AuthDatabase) (coldkey : Ss58) (accountId : Uuid) :
    Decidable (ColdkeyStillLinked db coldkey accountId) :=
  inferInstanceAs (Decidable (∃ w ∈ db.wallets.rows, _))

/-- `link_wallet`. -/
def linkWallet (db : AuthDatabase) (w : AccountWallet) : Except AuthError AuthDatabase := do
  let wallets ← need (db.wallets.insert? w) .walletAlreadyLinked
  return { db with wallets }

/-! ## Sessions -/

/-- `authenticate`. -/
def authenticate (db : AuthDatabase) (token : Digest) (kind : AccountSessionKind)
    (now : Instant) : Option AccountSession :=
  db.sessions.rows.find? fun s ↦ s.tokenSha256 = token ∧ s.kind = kind ∧ s.Live now

/-- The row after a renewal, where one is due. -/
def AccountSession.touched (s : AccountSession) (now expiresAt : Instant) (refreshAfter : ℤ)
    (maxLifetime : Option ℤ) : AccountSession :=
  if s.Live now ∧ s.lastSeenAt < now - refreshAfter then
    { s with
      lastSeenAt := now
      expiresAt := match maxLifetime with
        | some max => min expiresAt (s.issuedAt + max)
        | none => expiresAt }
  else s

@[simp] theorem AccountSession.touched_id (s : AccountSession) (now expiresAt : Instant)
    (refreshAfter : ℤ) (maxLifetime : Option ℤ) :
    (s.touched now expiresAt refreshAfter maxLifetime).id = s.id := by
  unfold touched; split <;> rfl

/-- `touch_session`. -/
def touchSession (db : AuthDatabase) (sessionId : Uuid) (now expiresAt : Instant)
    (refreshAfter : ℤ) (maxLifetime : Option ℤ) : AuthDatabase :=
  { db with
    sessions := db.sessions.modify sessionId (·.touched now expiresAt refreshAfter maxLifetime)
      (·.touched_id now expiresAt refreshAfter maxLifetime) }

/-- A session of an account that takes requests. -/
def AccountSession.LiveOf (s : AccountSession) (accountId : Uuid) (kind : AccountSessionKind)
    (now : Instant) : Prop :=
  s.accountId = accountId ∧ s.kind = kind ∧ s.Live now

instance AccountSession.decidableLiveOf (s : AccountSession) (accountId : Uuid)
    (kind : AccountSessionKind) (now : Instant) : Decidable (s.LiveOf accountId kind now) := by
  unfold AccountSession.LiveOf; infer_instance

/-- `live_session_count` of one kind. -/
def liveSessionCount (db : AuthDatabase) (accountId : Uuid) (kind : AccountSessionKind)
    (now : Instant) : ℕ :=
  db.sessions.rows.countP fun s ↦ s.LiveOf accountId kind now

/-- `oldest_live_session`. -/
def oldestLiveSession (db : AuthDatabase) (accountId : Uuid) (kind : AccountSessionKind)
    (now : Instant) : Option AccountSession :=
  (db.sessions.rows.filter fun s ↦ s.LiveOf accountId kind now).argmin (·.issuedAt)

end Conjectures.Db

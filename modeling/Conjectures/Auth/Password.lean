import Conjectures.Auth.Limiter
import Conjectures.Db.Accounts

/-!
# Signing in with a password

`password_login` of `submission_api/routers/auth.py`.  Guessing is bounded twice: by a window of
the process over every address, and by a counter and a pause on the account's row.

Verifying a password, hashing it and asking whether a hash is out of date are parameters.  How long
they take is not modelled, so nothing is said about timing.  The zero of a monotonic clock is
arbitrary, and its reading is the time of the request.
-/

namespace Conjectures.Auth

open Lib Db

/-! ## Settings -/

/-- What the sign-in endpoints are configured with.  How passwords are hashed and addresses
folded is the libraries' doing. -/
structure AuthSettings where
  emailText : EmailText
  verify : String → PasswordHash → Bool
  needsRehash : PasswordHash → Bool
  hash : String → PasswordHash
  passwordAttempts : ℕ
  passwordThrottleMinutes : ℕ
  sessionDays : ℕ
  /-- `_positive_int` -/
  passwordAttempts_pos : 0 < passwordAttempts
  passwordThrottleMinutes_pos : 0 < passwordThrottleMinutes

/-- How long a pause and the window of the process are. -/
def AuthSettings.throttle (cfg : AuthSettings) : ℤ := cfg.passwordThrottleMinutes * 60 * 1000000

/-- `PASSWORD_FAILURE_KEYS`. -/
def passwordFailureKeys : ℕ := 50000

/-- One API process: the database it works on, and its window of failed sign-ins. -/
structure Process where
  db : AuthDatabase
  failures : SlidingWindowLimiter

/-- A process that has just started. -/
def Process.fresh (cfg : AuthSettings) (db : AuthDatabase) : Process where
  db := db
  failures := ⟨cfg.passwordAttempts, cfg.passwordThrottleMinutes * 60, passwordFailureKeys, []⟩

/-! ## Opening a session -/

/-- What a new session is drawn: its id and the digest of its token. -/
structure SessionDraw where
  id : Uuid
  tokenSha256 : Digest

/-- `_sign_in`: a fresh browser session, and the end of the account's earlier ones. -/
def signIn (cfg : AuthSettings) (db : AuthDatabase) (accountId : Uuid) (now : Instant)
    (draw : SessionDraw) : Except AuthError AuthDatabase :=
  createSession (revokeAllSessions db accountId .cookie now)
    { id := draw.id
      tokenSha256 := draw.tokenSha256
      accountId := accountId
      kind := .cookie
      coldkeyScope := none
      issuedAt := now
      expiresAt := now + cfg.sessionDays * 86400000000 }

theorem accounts_signIn {cfg : AuthSettings} {db db' : AuthDatabase} {accountId : Uuid}
    {now : Instant} {draw : SessionDraw} (h : signIn cfg db accountId now draw = .ok db') :
    db'.accounts = db.accounts := by
  simp only [signIn, createSession, bind_eq_ok, require_eq_ok, need_eq_ok] at h
  obtain ⟨_, -, sessions, -, _, -, h⟩ := h
  cases h
  rfl

/-! ## The endpoint -/

/-- A request, with the time it is handled at.  The monotonic clock's zero is arbitrary, so
its reading is that time too. -/
structure Attempt where
  email : String
  password : String
  now : Instant
  draw : SessionDraw

inductive LoginResponse where
  /-- `401 PASSWORD_INVALID` -/
  | invalid
  /-- `429 PASSWORD_ATTEMPTS_EXCEEDED` -/
  | tooManyAttempts (retryAfterSeconds : ℤ)
  | signedIn (accountId : Uuid)
  | failed (e : AuthError)
  deriving DecidableEq

/-- A right password: the hash is strengthened or the failures are forgotten, and a session
is opened. -/
def acceptPassword (cfg : AuthSettings) (σ : Process) (account : AuthAccount)
    (hash : PasswordHash) (a : Attempt) : LoginResponse × Process :=
  let db := if cfg.needsRehash hash then rehashPassword σ.db account.id (cfg.hash a.password)
    else clearPasswordFailures σ.db account.id
  match signIn cfg db account.id a.now a.draw with
  | .ok db => (.signedIn account.id, { σ with db })
  | .error e => (.failed e, σ)

/-- `password_login`. -/
def passwordLogin (cfg : AuthSettings) (σ : Process) (a : Attempt) : LoginResponse × Process :=
  let key := cfg.emailText.normaliseEmail a.email
  let (attempts, failures) := σ.failures.peek key a.now
  let σ := { σ with failures }
  if attempts.allowed then
    match findByEmail cfg.emailText σ.db a.email with
    | none => (.invalid, { σ with failures := σ.failures.check key a.now })
    | some account =>
      match account.passwordHash with
      -- a throwaway derivation takes as long as a real one
      | none => (.invalid, { σ with failures := σ.failures.check key a.now })
      | some hash =>
        match passwordPauseRemaining account a.now with
        | some remaining => (.tooManyAttempts (ceilSeconds remaining), σ)
        | none =>
          if cfg.verify a.password hash then acceptPassword cfg σ account hash a
          else
            (.invalid,
              { σ with
                failures := σ.failures.check key a.now
                db := recordPasswordFailure σ.db account.id a.now cfg.passwordAttempts
                  cfg.throttle })
  else (.tooManyAttempts attempts.resetSeconds, σ)

/-- The answers to those of the requests that name an address. -/
def answersTo (cfg : AuthSettings) (key : String) : Process → List Attempt → List LoginResponse
  | _, [] => []
  | σ, a :: as =>
    let (answer, σ') := passwordLogin cfg σ a
    if cfg.emailText.normaliseEmail a.email = key then answer :: answersTo cfg key σ' as
    else answersTo cfg key σ' as

end Conjectures.Auth

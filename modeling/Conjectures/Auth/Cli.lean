import Conjectures.Db.Sessions
import Conjectures.Lib.Run

/-!
# Bearer tokens

`cli_verify` of `submission_api/routers/auth.py` and the requests a bearer token authenticates,
one statement at a time.  A statement sees what was committed when it began and what its own
transaction wrote; an update waits for the rows that another transaction has written and not
yet committed.  The other transactions on these rows are one statement long, or have one
statement that matters here.

A request reads the clock before the statement that uses the reading.
-/

namespace Conjectures.Auth

open Lib Db

/-! ## Settings -/

structure CliSettings where
  /-- `verify_signature`: the address signed the message -/
  verifySignature : Ss58 → String → String → Bool
  challengeAttempts : ℤ
  cliSessionDays : ℕ
  cliSessionMaxDays : ℕ
  cliSessionsPerAccount : ℕ
  sessionRefreshMinutes : ℕ

def CliSettings.lifetime (cfg : CliSettings) : ℤ := cfg.cliSessionDays * 86400000000

def CliSettings.maxLifetime (cfg : CliSettings) : ℤ := cfg.cliSessionMaxDays * 86400000000

def CliSettings.refreshAfter (cfg : CliSettings) : ℤ := cfg.sessionRefreshMinutes * 60000000

/-- What a new session is drawn: its id and the digest of its token. -/
structure TokenDraw where
  id : Uuid
  tokenSha256 : Digest

/-! ## Exchanging a signature for a token -/

/-- What the transaction of a `cli_verify` has written and not committed: the challenge it
consumed and the sessions it revoked.  It holds their row locks. -/
structure Claim where
  challengeId : Uuid
  accountId : Uuid
  /-- the clock as the request read it -/
  now : Instant
  /-- when the transaction began, `now()` to the database -/
  started : Instant
  evicted : List Uuid

/-- The database as the transaction sees it, and as it leaves it. -/
def Claim.writes (c : Claim) (db : AuthDatabase) : AuthDatabase :=
  revokeSessions (consumeChallenge db c.challengeId c.now) (·.id ∈ c.evicted) c.started

/-- Where `_evict_surplus_cli_sessions` is. -/
inductive Eviction where
  | counting
  /-- more sessions than may stay -/
  | surplus
  | chosen (oldest : Uuid)
  /-- the last count said `live`.  Since then `overtaken` sessions of the account were opened,
  which the code does not know. -/
  | done (live overtaken : ℕ)

inductive VerifyPhase where
  | begun
  | wrongSignature (challengeId : Uuid)
  | opened (challenge : LoginChallenge) (started : Instant)
  | resolved (challenge : LoginChallenge) (started : Instant) (accountId : Uuid)
  | claimed (c : Claim) (e : Eviction)
  | minted (c : Claim) (sessionId : Uuid)
  | refused

/-- A `cli_verify` request. -/
structure CliVerify where
  id : ℕ
  address : Ss58
  /-- the digest of the nonce -/
  nonce : Digest
  signature : String
  now : Instant
  phase : VerifyPhase

def CliVerify.at (v : CliVerify) (phase : VerifyPhase) : CliVerify := { v with phase }

@[simp] theorem CliVerify.at_id (v : CliVerify) (phase : VerifyPhase) : (v.at phase).id = v.id :=
  rfl

/-! ## Requests with a token -/

inductive RequestPhase where
  | begun
  | resolved (s : AccountSession)
  | admitted (s : AccountSession)
  | answered (s : AccountSession)
  | refused

/-- A request that offers a bearer token. -/
structure BearerRequest where
  id : ℕ
  /-- the digest of the token -/
  token : Digest
  now : Instant
  phase : RequestPhase

def BearerRequest.at (r : BearerRequest) (phase : RequestPhase) : BearerRequest := { r with phase }

@[simp] theorem BearerRequest.at_id (r : BearerRequest) (phase : RequestPhase) :
    (r.at phase).id = r.id := rfl

/-! ## The site -/

/-- What was committed, the clock, and the requests. -/
structure Site where
  db : AuthDatabase
  clock : Instant
  verifying : Table CliVerify.id
  requests : Table BearerRequest.id

def Site.move (σ : Site) (v : CliVerify) (phase : VerifyPhase) : Site :=
  { σ with verifying := σ.verifying.modify v.id (·.at phase) (·.at_id phase) }

theorem Site.mem_move {σ : Site} {v w : CliVerify} {phase : VerifyPhase}
    (hv : v ∈ σ.verifying.rows) : w ∈ (σ.move v phase).verifying.rows ↔
      (w ∈ σ.verifying.rows ∧ w.id ≠ v.id) ∨ w = v.at phase :=
  @Table.mem_modify_of_mem _ _ _ _ (·.at phase) (·.at_id phase) _ _ _ hv

def Site.answer (σ : Site) (r : BearerRequest) (phase : RequestPhase) : Site :=
  { σ with requests := σ.requests.modify r.id (·.at phase) (·.at_id phase) }

theorem Site.mem_answer {σ : Site} {r q : BearerRequest} {phase : RequestPhase}
    (hr : r ∈ σ.requests.rows) : q ∈ (σ.answer r phase).requests.rows ↔
      (q ∈ σ.requests.rows ∧ q.id ≠ r.id) ∨ q = r.at phase :=
  @Table.mem_modify_of_mem _ _ _ _ (·.at phase) (·.at_id phase) _ _ _ hr

/-- The challenge is locked. -/
def Site.LocksChallenge (σ : Site) (id : Uuid) : Prop :=
  ∃ v ∈ σ.verifying.rows, match v.phase with
    | .claimed c _ => c.challengeId = id
    | _ => False

/-- The session is locked. -/
def Site.LocksSession (σ : Site) (id : Uuid) : Prop :=
  ∃ v ∈ σ.verifying.rows, match v.phase with
    | .claimed c _ => id ∈ c.evicted
    | _ => False

instance Site.decidableLocksChallenge (σ : Site) (id : Uuid) : Decidable (σ.LocksChallenge id) := by
  have : DecidablePred fun v : CliVerify ↦ match v.phase with
      | .claimed c _ => c.challengeId = id
      | _ => False := fun v ↦ by dsimp only; split <;> infer_instance
  unfold Site.LocksChallenge
  infer_instance

instance Site.decidableLocksSession (σ : Site) (id : Uuid) : Decidable (σ.LocksSession id) := by
  have : DecidablePred fun v : CliVerify ↦ match v.phase with
      | .claimed c _ => id ∈ c.evicted
      | _ => False := fun v ↦ by dsimp only; split <;> infer_instance
  unfold Site.LocksSession
  infer_instance

/-- A count of the sessions of an account is out of date by one more. -/
def CliVerify.overtake (v : CliVerify) (accountId : Uuid) : CliVerify :=
  match v.phase with
  | .claimed c (.done live overtaken) =>
    if c.accountId = accountId then v.at (.claimed c (.done live (overtaken + 1))) else v
  | _ => v

@[simp] theorem CliVerify.overtake_id (v : CliVerify) (accountId : Uuid) :
    (v.overtake accountId).id = v.id := by
  unfold overtake
  split
  · split <;> rfl
  · rfl

/-- A session of an account was opened. -/
def Site.opened (σ : Site) (db : AuthDatabase) (accountId : Uuid) : Site :=
  { σ with
    db
    verifying := σ.verifying.update (fun _ ↦ true) (·.overtake accountId)
      (·.overtake_id accountId) }

theorem Site.mem_opened {σ : Site} {db : AuthDatabase} {accountId : Uuid} {w : CliVerify} :
    w ∈ (σ.opened db accountId).verifying.rows ↔
      ∃ v ∈ σ.verifying.rows, v.overtake accountId = w :=
  List.mem_map

/-- The row of a new bearer session. -/
def bearerSession (cfg : CliSettings) (v : CliVerify) (c : Claim) (draw : TokenDraw) :
    NewSession where
  id := draw.id
  tokenSha256 := draw.tokenSha256
  accountId := c.accountId
  kind := .bearer
  coldkeyScope := some v.address
  issuedAt := c.started
  expiresAt := v.now + cfg.lifetime

/-- The session and the commit. -/
def mint (cfg : CliSettings) (σ : Site) (v : CliVerify) (c : Claim) (draw : TokenDraw) : Site :=
  match createSession (c.writes σ.db) (bearerSession cfg v c draw) with
  | .error _ => σ.move v .refused
  | .ok db => (σ.opened db c.accountId).move v (.minted c draw.id)

/-- The next statement of `_evict_surplus_cli_sessions`, and after the last one the mint. -/
def evictStep (cfg : CliSettings) (σ : Site) (v : CliVerify) (c : Claim) (draw : TokenDraw) :
    Eviction → Site
  | .counting =>
    let live := liveSessionCount (c.writes σ.db) c.accountId .bearer v.now
    σ.move v (.claimed c (if live < cfg.cliSessionsPerAccount then .done live 0 else .surplus))
  | .surplus =>
    match oldestLiveSession (c.writes σ.db) c.accountId .bearer v.now with
    | none => σ.move v (.claimed c (.done 0 0))
    | some s => σ.move v (.claimed c (.chosen s.id))
  | .chosen oldest =>
    if σ.LocksSession oldest then σ
    else if ∃ s ∈ σ.db.sessions.rows, s.id = oldest ∧ s.revokedAt = none then
      σ.move v (.claimed { c with evicted := oldest :: c.evicted } .counting)
    else σ.move v (.claimed c .counting)
  | .done _ _ => mint cfg σ v c draw

/-- The next statement of a `cli_verify`. -/
def verifyStep (cfg : CliSettings) (σ : Site) (v : CliVerify) (draw : TokenDraw) : Site :=
  match v.phase with
  | .begun =>
    match openChallengeByNonce σ.db .coldkeySession v.address v.nonce v.now
        cfg.challengeAttempts with
    | none => σ.move v .refused
    | some challenge =>
      match challenge.message with
      | none => σ.move v .refused
      | some message =>
        if cfg.verifySignature v.address message v.signature then
          σ.move v (.opened challenge σ.clock)
        else σ.move v (.wrongSignature challenge.id)
  | .wrongSignature challengeId =>
    if σ.LocksChallenge challengeId then σ
    else Site.move { σ with db := recordFailedAttempt σ.db challengeId } v .refused
  | .opened challenge started =>
    match findByColdkey σ.db v.address with
    | none => σ.move v .refused
    | some account => σ.move v (.resolved challenge started account.id)
  | .resolved challenge started accountId =>
    match consumable σ.db .coldkeySession challenge.secretSha256 v.now with
    | none => σ.move v .refused
    | some row =>
      if σ.LocksChallenge row.id then σ
      else σ.move v (.claimed ⟨row.id, accountId, v.now, started, []⟩ .counting)
  | .claimed c e => evictStep cfg σ v c draw e
  | .minted _ _ => σ
  | .refused => σ

/-! ## Authenticating -/

/-- The next statement of `get_optional_principal`, with a reading of the clock for the
renewal. -/
def requestStep (cfg : CliSettings) (σ : Site) (r : BearerRequest) (now : Instant) : Site :=
  match r.phase with
  | .begun =>
    match authenticate σ.db r.token .bearer r.now with
    | none => σ.answer r .refused
    | some s => σ.answer r (.resolved s)
  | .resolved s =>
    match s.coldkeyScope with
    | none => σ.answer r .refused
    | some coldkey =>
      if ColdkeyStillLinked σ.db coldkey s.accountId then σ.answer r (.admitted s)
      else σ.answer r .refused
  | .admitted s =>
    if r.now ≤ now ∧ now ≤ σ.clock ∧ ¬ σ.LocksSession s.id then
      Site.answer
        { σ with
          db := touchSession σ.db s.id now (now + cfg.lifetime) cfg.refreshAfter
            (some cfg.maxLifetime) }
        r (.answered s)
    else σ
  | .answered _ => σ
  | .refused => σ

/-! ## Steps -/

inductive CliAction where
  /-- time passes -/
  | tick (duration : ℕ)
  | createChallenge (n : NewChallenge)
  | linkWallet (w : AccountWallet)
  /-- no endpoint does; an operator may -/
  | unlinkWallet (coldkey : Ss58)
  /-- a revocation, of those of the rows it selects that its snapshot held if it had to wait -/
  | revoke (r : Revocation) (snapshot : List Uuid)
  /-- `put_submission_coldkey`, for a request that read `previous` -/
  | designate (accountId : Uuid) (coldkey previous : Option Ss58) (snapshot : List Uuid)
  | beginVerify (id : ℕ) (address : Ss58) (nonce : Digest) (signature : String)
  | verify (id : ℕ) (draw : TokenDraw)
  /-- the request fails, and its transaction is rolled back -/
  | abortVerify (id : ℕ)
  | beginRequest (id : ℕ) (token : Digest)
  | request (id : ℕ) (now : Instant)

/-- A row the revocation would change is locked. -/
def Site.Blocks (σ : Site) (r : Revocation) : Prop :=
  ∃ s ∈ σ.db.sessions.rows, r.Selects s ∧ s.revokedAt = none ∧ σ.LocksSession s.id

instance Site.decidableBlocks (σ : Site) (r : Revocation) : Decidable (σ.Blocks r) :=
  inferInstanceAs (Decidable (∃ s ∈ _, _))

/-- The sessions a revocation ends, of those its snapshot held. -/
def revokeSelected (db : AuthDatabase) (r : Revocation) (snapshot : List Uuid) (now : Instant) :
    AuthDatabase :=
  revokeSessions db (fun s ↦ r.Selects s ∧ s.id ∈ snapshot) now

def revokeStep (σ : Site) (r : Revocation) (snapshot : List Uuid) : Site :=
  if σ.Blocks r then σ else { σ with db := revokeSelected σ.db r snapshot σ.clock }

/-- `account_submission_coldkey_is_linked` -/
def setSubmissionColdkey (db : AuthDatabase) (accountId : Uuid) (coldkey : Option Ss58) :
    Except AuthError AuthDatabase := do
  require (∀ k ∈ coldkey, ColdkeyStillLinked db k accountId) .coldkeyNotLinked
  return { db with
    accounts := db.accounts.modify accountId (fun a ↦ { a with submissionColdkey := coldkey })
      fun _ ↦ rfl }

def designateStep (σ : Site) (accountId : Uuid) (coldkey previous : Option Ss58)
    (snapshot : List Uuid) : Site :=
  match setSubmissionColdkey σ.db accountId coldkey with
  | .error _ => σ
  | .ok db =>
    match previous with
    | none => { σ with db }
    | some key =>
      if previous = coldkey then { σ with db }
      else if σ.Blocks (.coldkey key) then σ
      else { σ with db := revokeSelected db (.coldkey key) snapshot σ.clock }

def unlinkWallet (db : AuthDatabase) (coldkey : Ss58) : AuthDatabase :=
  { db with
    wallets := ⟨db.wallets.rows.filter fun w ↦ w.coldkey ≠ coldkey,
      db.wallets.nodup.sublist (List.filter_sublist.map _)⟩
    -- `ON DELETE SET NULL`
    accounts := db.accounts.update (fun a ↦ a.submissionColdkey = some coldkey)
      (fun a ↦ { a with submissionColdkey := none }) fun _ ↦ rfl }

def cliStep (cfg : CliSettings) (σ : Site) : CliAction → Site
  | .tick duration => { σ with clock := σ.clock + duration }
  | .createChallenge n =>
    match createChallenge σ.db n with
    | .error _ => σ
    | .ok db => { σ with db }
  | .linkWallet w =>
    match linkWallet σ.db w with
    | .error _ => σ
    | .ok db => { σ with db }
  | .unlinkWallet coldkey => { σ with db := unlinkWallet σ.db coldkey }
  | .revoke r snapshot => revokeStep σ r snapshot
  | .designate accountId coldkey previous snapshot =>
    designateStep σ accountId coldkey previous snapshot
  | .beginVerify id address nonce signature =>
    { σ with
      verifying := σ.verifying.insertNew ⟨id, address, nonce, signature, σ.clock, .begun⟩ }
  | .verify id draw =>
    match σ.verifying.find? id with
    | none => σ
    | some v => verifyStep cfg σ v draw
  | .abortVerify id =>
    match σ.verifying.find? id with
    | none => σ
    | some v =>
      match v.phase with
      | .minted _ _ => σ
      | _ => σ.move v .refused
  | .beginRequest id token =>
    { σ with requests := σ.requests.insertNew ⟨id, token, σ.clock, .begun⟩ }
  | .request id now =>
    match σ.requests.find? id with
    | none => σ
    | some r => requestStep cfg σ r now

end Conjectures.Auth

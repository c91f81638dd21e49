import Conjectures.Auth.Entry
import Conjectures.Lib.Run

/-!
# Who signs in

The endpoints with the parties that use them.  Every way in is somebody's: mail is read by whom
the mailbox belongs to, a Google credential is presented by whom the subject belongs to, a
coldkey signs for its owner, and a password is typed by whoever chose it.
-/

namespace Conjectures.Auth

open Lib Db

/-! ## Ways in -/

inductive Way where
  | mailbox (address : String)
  | google (subject : String)
  | coldkey (key : Ss58)
  /-- the password behind a hash -/
  | password (hash : PasswordHash)

/-- Whose the ways in are, and what the services outside promise about them. -/
structure Parties (cfg : EntrySettings) (P : Type) where
  who : Way → P
  /-- who uses a password -/
  chooser : String → P
  /-- a mailbox goes by its address, however that is folded -/
  normalised : ∀ e, who (.mailbox (cfg.emailText.normaliseEmail e)) = who (.mailbox e)
  lowered : ∀ e, who (.mailbox (cfg.emailText.lower e)) = who (.mailbox e)
  casefolded : ∀ e e', cfg.casefold e = cfg.casefold e' → who (.mailbox e) = who (.mailbox e')
  /-- a hash opens to the password it was made of -/
  hashed : ∀ w, who (.password (cfg.hash w)) = chooser w
  /-- and to nobody else's -/
  verified : ∀ w h, cfg.verify w h = true → chooser w = who (.password h)
  /-- Google answers for the mailboxes it is authoritative for -/
  issues : GoogleIdentity → Bool
  authoritative : ∀ i, issues i = true → i.authoritativeEmail cfg.casefold = true →
    who (.mailbox i.email) = who (.google i.subject)

variable {cfg : EntrySettings} {P : Type} [DecidableEq P]

/-- The ways into an account. -/
def waysIn (db : AuthDatabase) (a : AuthAccount) : List Way :=
  a.email.toList.map .mailbox ++
    (db.identities.rows.filter fun i ↦ i.accountId = a.id ∧ i.provider = googleProvider).map
      (.google ·.subject) ++
    (db.wallets.rows.filter fun w ↦ w.accountId = a.id).map (.coldkey ·.coldkey) ++
    a.passwordHash.toList.map .password

/-- Who can sign in to an account. -/
def entrants (parties : Parties cfg P) (db : AuthDatabase) (a : AuthAccount) : List P :=
  (waysIn db a).map parties.who

/-! ## The realm -/

/-- Somebody attached a way in to an account, from a session of it. -/
structure ExplicitLink (P : Type) where
  linker : P
  /-- whose way in it is -/
  owner : P
  accountId : Uuid
  deriving DecidableEq

structure Realm (P : Type) where
  process : Process
  outbox : List Mail
  /-- to whom the token of a session was given -/
  held : List (Uuid × P)
  links : List (ExplicitLink P)

def Realm.db (σ : Realm P) : AuthDatabase := σ.process.db

def Realm.withDb (σ : Realm P) (db : AuthDatabase) : Realm P :=
  { σ with process := { σ.process with db } }

/-- Nobody has an account yet. -/
def Realm.start (cfg : EntrySettings) (P : Type) : Realm P :=
  ⟨.fresh cfg.toAuthSettings .empty, [], [], []⟩

/-- One of them linked the other's way in. -/
def Realm.Linked (σ : Realm P) (accountId : Uuid) (p q : P) : Prop :=
  ⟨p, q, accountId⟩ ∈ σ.links ∨ ⟨q, p, accountId⟩ ∈ σ.links

instance Realm.decidableLinked (σ : Realm P) (accountId : Uuid) (p q : P) :
    Decidable (σ.Linked accountId p q) := by unfold Realm.Linked; infer_instance

/-- The session takes the requests of whom its token was given to. -/
def Realm.Holds (σ : Realm P) (s : AccountSession) (p : P) (now : Instant) : Prop :=
  s.kind = .cookie ∧ s.Live now ∧ (s.id, p) ∈ σ.held

/-- Who has the link of a mail. -/
def reader (parties : Parties cfg P) (σ : Realm P) (secret : Digest) : Option P :=
  (σ.outbox.find? (·.secret = secret)).map fun m ↦ parties.who (.mailbox m.address)

/-! ## Requests -/

/-- A mail is sent, unless the endpoint refused. -/
def send (σ : Realm P) (r : Except EntryError (Option Mail × AuthDatabase)) : Realm P :=
  match r with
  | .error _ => σ
  | .ok (m, db) => { σ.withDb db with outbox := m.toList ++ σ.outbox }

/-- Somebody signs in, unless the endpoint refused. -/
def enter (cfg : EntrySettings) (σ : Realm P) (p : P) (now : Instant) (draw : SessionDraw)
    (r : Except EntryError (Uuid × AuthDatabase)) : Realm P :=
  match r with
  | .error _ => σ
  | .ok (accountId, db) =>
    match signIn cfg.toAuthSettings db accountId now draw with
    | .error _ => σ
    | .ok db => { σ.withDb db with held := (draw.id, p) :: σ.held }

/-- A way in of `owner` is attached by `linker`, unless the endpoint refused. -/
def attach (σ : Realm P) (linker owner : P) (accountId : Uuid)
    (r : Except EntryError AuthDatabase) : Realm P :=
  match r with
  | .error _ => σ
  | .ok db => { σ.withDb db with links := ⟨linker, owner, accountId⟩ :: σ.links }

inductive EntryAction where
  | requestEmailLink (email : String) (now : Instant) (draw : ChallengeDraw)
  | verifyEmail (secret : Digest) (now : Instant) (newId : Uuid) (draw : SessionDraw)
  | registerPassword (email password : String) (now : Instant) (draw : ChallengeDraw)
  | verifyPasswordSignup (secret : Digest) (now : Instant) (newId : Uuid) (draw : SessionDraw)
  | passwordLogin (a : Attempt)
  | requestPasswordReset (email : String) (now : Instant) (draw : ChallengeDraw)
  | resetPassword (secret : Digest) (password : String) (now : Instant) (draw : SessionDraw)
  | googleCallback (i : GoogleIdentity) (now : Instant) (newId : Uuid) (draw : SessionDraw)
  | linkGoogle (sessionId : Uuid) (i : GoogleIdentity) (now : Instant)
  | walletChallenge (address : Ss58) (message : String) (now : Instant) (draw : ChallengeDraw)
  | verifyWallet (address : Ss58) (signature : String) (now : Instant) (newId : Uuid)
      (draw : SessionDraw)
  | coldkeyLinkChallenge (sessionId : Uuid) (address : Ss58) (message : String) (now : Instant)
      (draw : ChallengeDraw)
  | linkColdkey (sessionId : Uuid) (coldkey : Ss58) (nonce : Digest) (signature : String)
      (now : Instant)

/-- The account and the holder of a browser session that takes requests. -/
def principalOf (σ : Realm P) (sessionId : Uuid) (now : Instant) : Option (AuthAccount × P) :=
  (σ.db.sessions.find? sessionId).bind fun s ↦
    if s.kind = .cookie ∧ s.Live now then
      (σ.db.accounts.find? s.accountId).bind fun a ↦
        (σ.held.find? (·.1 = sessionId)).map fun h ↦ (a, h.2)
    else none

/-- A challenge without mail. -/
def issue (σ : Realm P) (n : NewChallenge) : Realm P :=
  match createChallenge σ.db n with
  | .error _ => σ
  | .ok db => σ.withDb db

/-- A signature that does not verify is counted. -/
def countAttempt (cfg : EntrySettings) (db : AuthDatabase) (coldkey : Ss58) (nonce : Digest)
    (now : Instant) : AuthDatabase :=
  match openChallengeByNonce db .coldkeyLink coldkey nonce now cfg.challengeAttempts with
  | none => db
  | some c => recordFailedAttempt db c.id

/-- A request and what it does. -/
def entryStep (parties : Parties cfg P) (σ : Realm P) : EntryAction → Realm P
  | .requestEmailLink email now draw => send σ (requestEmailLink cfg σ.db email now draw)
  | .verifyEmail secret now newId draw =>
    match reader parties σ secret with
    | none => σ
    | some p => enter cfg σ p now draw (verifyEmail cfg σ.db secret now newId)
  | .registerPassword email password now draw =>
    send σ (registerPassword cfg σ.db email password now draw)
  | .verifyPasswordSignup secret now newId draw =>
    match reader parties σ secret with
    | none => σ
    | some p => enter cfg σ p now draw (verifyPasswordSignup cfg σ.db secret now newId)
  | .passwordLogin a =>
    match passwordLogin cfg.toAuthSettings σ.process a with
    | (.signedIn _, process) =>
      { σ with process, held := (a.draw.id, parties.chooser a.password) :: σ.held }
    | (_, process) => { σ with process }
  | .requestPasswordReset email now draw => send σ (requestPasswordReset cfg σ.db email now draw)
  | .resetPassword secret password now draw =>
    match reader parties σ secret with
    | none => σ
    | some p =>
      -- people choose their own passwords
      if (cfg.assertAcceptable password none).all fun w ↦ parties.chooser w = p then
        enter cfg σ p now draw (resetPassword cfg σ.db secret password now)
      else σ
  | .googleCallback i now newId draw =>
    if parties.issues i then
      enter cfg σ (parties.who (.google i.subject)) now draw
        (googleAccountForSignIn cfg σ.db i newId)
    else σ
  | .linkGoogle sessionId i now =>
    match principalOf σ sessionId now with
    | none => σ
    | some (account, p) =>
      if parties.issues i then
        attach σ p (parties.who (.google i.subject)) account.id (linkGoogle cfg σ.db account i)
      else σ
  | .walletChallenge address message now draw =>
    issue σ (signedChallenge cfg .wallet none address message now draw)
  | .verifyWallet address signature now newId draw =>
    enter cfg σ (parties.who (.coldkey address)) now draw
      (verifyWallet cfg σ.db address signature now newId)
  | .coldkeyLinkChallenge sessionId address message now draw =>
    match principalOf σ sessionId now with
    | none => σ
    | some (account, _) =>
      issue σ (signedChallenge cfg .coldkeyLink (some account.id) address message now draw)
  | .linkColdkey sessionId coldkey nonce signature now =>
    match principalOf σ sessionId now with
    | none => σ
    | some (account, p) =>
      match linkColdkey cfg σ.db account.id coldkey nonce signature now with
      | .error (.unauthorized "SIGNATURE_INVALID") =>
        σ.withDb (countAttempt cfg σ.db coldkey nonce now)
      | r => attach σ p (parties.who (.coldkey coldkey)) account.id r

end Conjectures.Auth

import Conjectures.Auth.Ways

/-!
# Whom the endpoints let in

Each endpoint that signs in opens an account for one party, or finds one that the party can enter
(`SignsIn`).  Each that attaches a way in lets its owner in, and nobody else (`Attaches`).

A link is answered by whom it was mailed to.  That whoever confirms a registration chose its
password, and that the address of a Google account that is opened is its owner's, the endpoints do
not see to: these are hypotheses of `Coherent.verifyPasswordSignup` and
`Coherent.googleAccountForSignIn`.
-/

namespace Conjectures.Auth

open Lib Db

variable {cfg : EntrySettings} {P : Type} {parties : Parties cfg P}
  {db db' : AuthDatabase} {accountId newId : Uuid} {p q : P} {new : Uuid → P → Prop}
  {secret : Digest} {now : Instant}

/-- The account was not there. -/
def Opens (db : AuthDatabase) (q : P) (id : Uuid) (p : P) : Prop :=
  p = q ∧ ∀ a ∈ db.accounts.rows, a.id ≠ id

/-- One party signs in: to an account that is opened, or to one it can enter. -/
structure SignsIn (parties : Parties cfg P) (q : P) (db : AuthDatabase) (accountId : Uuid)
    (db' : AuthDatabase) : Prop where
  admits : Admits parties (Opens db q) db db'
  enters : Entrant parties db' accountId q

/-- One party's way in is attached to an account. -/
abbrev Attaches (parties : Parties cfg P) (q : P) (db : AuthDatabase) (accountId : Uuid)
    (db' : AuthDatabase) : Prop :=
  Admits parties (fun id p ↦ id = accountId ∧ p = q) db db'

/-- The link with this secret was mailed to the party. -/
def Addressed (parties : Parties cfg P) (db : AuthDatabase) (secret : Digest) (q : P) : Prop :=
  ∀ c ∈ db.challenges.rows, c.secretSha256 = secret → ∃ e ∈ c.email, parties.who (.mailbox e) = q

/-! ## Answering mail -/

theorem Coherent.claimChallenge (new : Uuid → P → Prop) (h : Coherent parties db)
    {kind : LoginChallengeKind} {c : LoginChallenge}
    (hclaim : claimChallenge db kind secret now = .ok (c, db')) :
    c ∈ db.challenges.rows ∧ c.Open kind secret now ∧ db'.accounts = db.accounts ∧
      db'.wallets = db.wallets ∧ Admits parties new db db' := by
  simp only [Auth.claimChallenge, bind_eq_ok, need_eq_ok] at hclaim
  obtain ⟨_, hfind, hclaim⟩ := hclaim
  cases hclaim
  exact ⟨List.mem_of_find?_eq_some hfind, by simpa using List.find?_some hfind, rfl, rfl,
    h.consumeChallenge c.id now⟩

theorem Coherent.verifyEmail (h : Coherent parties db) (hmail : Addressed parties db secret q)
    (hok : verifyEmail cfg db secret now newId = .ok (accountId, db')) :
    SignsIn parties q db accountId db' := by
  simp only [Auth.verifyEmail, bind_eq_ok, need_eq_ok] at hok
  obtain ⟨⟨c, claimed⟩, hclaim, email, hemail, hok⟩ := hok
  obtain ⟨hc, hopen, haccounts, -, hclaimed⟩ := h.claimChallenge (Opens db q) hclaim
  obtain ⟨e, he, hq⟩ := hmail c hc hopen.1
  obtain rfl := Option.some.inj (hemail.symm.trans he)
  split at hok
  · obtain ⟨created, hcreate, hok⟩ := bind_eq_ok.mp hok
    cases hok
    obtain ⟨hcreated, -, -, henters⟩ := hclaimed.coherent.createAccount (Opens db q)
      (mapError_eq_ok.mp hcreate) (fun _ h ↦ absurd h (Option.not_mem_none _)) fun e he hfresh ↦ by
        obtain rfl := Option.some.inj he
        exact ⟨hq, haccounts ▸ hfresh⟩
    exact ⟨hclaimed.trans hcreated, hq ▸ henters email rfl⟩
  · rename_i account hfind
    cases hok
    have hentrant : Entrant parties claimed account.id q :=
      hq ▸ hclaimed.coherent.entrant_of_answers (answers_of_findByEmail hfind)
    split
    · exact ⟨hclaimed, hentrant⟩
    · have hverified : Admits parties (Opens db q) claimed (Db.setVerified claimed account.id) :=
        hclaimed.coherent.setVerified account.id
      exact ⟨hclaimed.trans hverified, hverified.entrants _ _ hentrant⟩

theorem Coherent.verifyPasswordSignup (h : Coherent parties db)
    (hmail : Addressed parties db secret q)
    (hchosen : ∀ c ∈ db.challenges.rows, c.secretSha256 = secret →
      (∀ e ∈ c.email, findByEmail cfg.emailText db e = none) →
        ∀ hash ∈ c.passwordHash, parties.who (.password hash) = q)
    (hok : verifyPasswordSignup cfg db secret now newId = .ok (accountId, db')) :
    SignsIn parties q db accountId db' := by
  simp only [Auth.verifyPasswordSignup, bind_eq_ok, need_eq_ok, require_eq_ok, mapError_eq_ok]
    at hok
  obtain ⟨⟨c, claimed⟩, hclaim, email, hemail, hash, hhash, -, hnone, created, hcreate, hok⟩ := hok
  cases hok
  obtain ⟨hc, hopen, haccounts, -, hclaimed⟩ := h.claimChallenge (Opens db q) hclaim
  obtain ⟨e, he, hq⟩ := hmail c hc hopen.1
  obtain rfl := Option.some.inj (hemail.symm.trans he)
  have hwho : parties.who (.password hash) = q := by
    refine hchosen c hc hopen.1 (fun e' he' ↦ ?_) hash hhash
    obtain rfl := Option.some.inj (hemail.symm.trans he')
    unfold findByEmail accountAt at hnone ⊢
    rwa [haccounts] at hnone
  obtain ⟨hcreated, -, -, henters⟩ := hclaimed.coherent.createAccount (Opens db q) hcreate
    (fun hash' hhash' ↦ ⟨email, rfl, by
      obtain rfl := Option.some.inj hhash'
      exact hq.trans hwho.symm⟩) fun e he hfresh ↦ by
      obtain rfl := Option.some.inj he
      exact ⟨hq, haccounts ▸ hfresh⟩
  exact ⟨hclaimed.trans hcreated, hq ▸ henters email rfl⟩

theorem Coherent.resetPassword (h : Coherent parties db) {password : String}
    (hreset : ∀ c ∈ db.challenges.rows, c.secretSha256 = secret → c.kind = .passwordReset →
      ∀ id ∈ c.accountId, Answers parties db id q)
    (hchosen : ∀ w ∈ cfg.assertAcceptable password none, parties.chooser w = q)
    (hok : resetPassword cfg db secret password now = .ok (accountId, db')) :
    SignsIn parties q db accountId db' := by
  simp only [Auth.resetPassword, bind_eq_ok, need_eq_ok] at hok
  obtain ⟨w, hw, ⟨c, claimed⟩, hclaim, id, hid, hok⟩ := hok
  cases hok
  obtain ⟨hc, hopen, -, -, hclaimed⟩ := h.claimChallenge (Opens db q) hclaim
  have hanswers := hclaimed.answers accountId q (hreset c hc hopen.1 hopen.2.1 accountId hid)
  have hset : Admits parties (Opens db q) claimed (Db.setPassword claimed accountId (cfg.hash w)) :=
    hclaimed.coherent.setPassword (by rwa [parties.hashed, hchosen w hw])
  have hverified : Admits parties (Opens db q) _ _ := hset.coherent.setVerified accountId
  exact ⟨hclaimed.trans (hset.trans hverified), hverified.coherent.entrant_of_answers
    (hverified.answers _ _ (hset.answers _ _ hanswers))⟩

/-! ## Google -/

theorem findByIdentity_eq_some {subject : String} {account : AuthAccount}
    {stored : AccountIdentity}
    (h : findByIdentity db googleProvider subject = some (account, stored)) :
    account ∈ db.accounts.rows ∧ Attached db account.id (.google subject) := by
  obtain ⟨i, hfind, h⟩ := Option.bind_eq_some_iff.mp h
  obtain ⟨a, hfind', h⟩ := Option.map_eq_some_iff.mp h
  cases h
  obtain ⟨hi, hkey⟩ := Table.find?_eq_some.mp hfind
  obtain ⟨ha, hid⟩ := Table.find?_eq_some.mp hfind'
  obtain ⟨hprovider, rfl⟩ := Prod.mk.inj hkey
  exact ⟨ha, .google hi hid.symm hprovider⟩

theorem Coherent.googleAccountForSignIn (h : Coherent parties db) {i : GoogleIdentity}
    (howner : findByIdentity db googleProvider i.subject = none →
      findByEmail cfg.emailText db i.email = none →
        parties.who (.mailbox i.email) = parties.who (.google i.subject))
    (hok : googleAccountForSignIn cfg db i newId = .ok (accountId, db')) :
    SignsIn parties (parties.who (.google i.subject)) db accountId db' := by
  unfold Auth.googleAccountForSignIn at hok
  split at hok
  · rename_i account stored hfind
    cases hok
    obtain ⟨-, hattached⟩ := findByIdentity_eq_some hfind
    have htouched : Admits parties (Opens db (parties.who (.google i.subject))) db _ :=
      h.touchIdentity stored (cfg.emailText.normaliseEmail i.email)
    exact ⟨htouched, htouched.entrants _ _ (h.entrant_iff.mpr (.inr ⟨_, hattached, rfl⟩))⟩
  · rename_i hfind
    simp only [bind_eq_ok, require_eq_ok, mapError_eq_ok] at hok
    obtain ⟨-, hnone, created, hcreate, linked, hlink, hok⟩ := hok
    cases hok
    have hwho := howner hfind hnone
    obtain ⟨hcreated, hfresh, haccount, -⟩ := h.createAccount
      (Opens db (parties.who (.google i.subject))) hcreate
      (fun _ h ↦ absurd h (Option.not_mem_none _)) fun e he hfresh ↦ by
        obtain rfl := Option.some.inj he
        exact ⟨hwho, hfresh⟩
    obtain ⟨hlinked, henters⟩ := hcreated.coherent.linkIdentity
      (Opens db (parties.who (.google i.subject))) hlink rfl haccount ⟨rfl, hfresh⟩
    exact ⟨hcreated.trans hlinked, henters⟩

/-- The address of a link is its owner's, and replaces no other mailbox. -/
theorem Coherent.fillEmail (h : Coherent parties db) {i : GoogleIdentity} {account : AuthAccount}
    (haccount : account ∈ db.accounts.rows) (hissued : parties.issues i = true)
    (hok : fillEmail cfg db account i = .ok db') :
    Attaches parties (parties.who (.google i.subject)) db account.id db' := by
  have hset (hauthoritative : i.authoritativeEmail cfg.casefold = true)
      (hsame : ∀ e ∈ account.email, cfg.casefold e = cfg.casefold i.email)
      (hok : setEmail cfg.emailText db account i.email = .ok db') :
      Attaches parties (parties.who (.google i.subject)) db account.id db' := by
    simp only [setEmail, bind_eq_ok, require_eq_ok] at hok
    obtain ⟨-, -, hok⟩ := hok
    cases hok
    refine .modify h (fun a ha hid e he ↦ ?_) (fun a ha hid hash hhash ↦ ?_) fun a ha hid e he ↦ ?_
    · obtain rfl := db.accounts.eq_of_key ha haccount hid
      exact ⟨i.email, rfl, (parties.casefolded _ _ (hsame e he)).symm⟩
    · obtain rfl := db.accounts.eq_of_key ha haccount hid
      obtain ⟨e, he, hwho⟩ := h.passwords a ha hash hhash
      exact ⟨i.email, rfl, (parties.casefolded _ _ (hsame e he)).symm.trans hwho⟩
    · obtain rfl := Option.some.inj he
      exact .inr ⟨rfl, parties.authoritative i hissued hauthoritative⟩
  unfold Auth.fillEmail at hok
  split at hok
  · rename_i hfill
    split at hok
    · exact hset hfill.1 hfill.2 (mapError_eq_ok.mp hok)
    · split at hok
      · exact hset hfill.1 hfill.2 (mapError_eq_ok.mp hok)
      · cases hok
        exact .refl h
  · cases hok
    exact .refl h

theorem Coherent.linkGoogle (h : Coherent parties db) {i : GoogleIdentity} {account : AuthAccount}
    (haccount : account ∈ db.accounts.rows) (hissued : parties.issues i = true)
    (hok : linkGoogle cfg db account i = .ok db') :
    Attaches parties (parties.who (.google i.subject)) db account.id db' := by
  unfold Auth.linkGoogle at hok
  split at hok
  · split at hok
    · cases hok
      exact h.touchIdentity _ _
    · cases hok
  · simp only [bind_eq_ok, require_eq_ok, mapError_eq_ok] at hok
    obtain ⟨-, -, linked, hlink, hfill⟩ := hok
    have haccounts : linked.accounts = db.accounts := by
      simp only [Db.linkIdentity, bind_eq_ok, require_eq_ok, need_eq_ok] at hlink
      obtain ⟨identities, -, -, -, hlink⟩ := hlink
      cases hlink
      rfl
    obtain ⟨hlinked, -⟩ := h.linkIdentity
      (fun id p ↦ id = account.id ∧ p = parties.who (.google i.subject)) hlink rfl
      ⟨account, haccount, rfl⟩ ⟨rfl, rfl⟩
    exact hlinked.trans (hlinked.coherent.fillEmail (haccounts ▸ haccount) hissued hfill)

/-! ## Coldkeys -/

theorem findByColdkey_eq_some {coldkey : Ss58} {account : AuthAccount}
    (h : findByColdkey db coldkey = some account) :
    Attached db account.id (.coldkey coldkey) := by
  obtain ⟨w, hfind, hfind'⟩ := Option.bind_eq_some_iff.mp h
  obtain ⟨hw, rfl⟩ := Table.find?_eq_some.mp hfind
  exact .coldkey hw (Table.find?_eq_some.mp hfind').2.symm

theorem Coherent.verifyWallet (h : Coherent parties db) {address : Ss58} {signature : String}
    (hok : verifyWallet cfg db address signature now newId = .ok (accountId, db')) :
    SignsIn parties (parties.who (.coldkey address)) db accountId db' := by
  simp only [Auth.verifyWallet, bind_eq_ok, need_eq_ok, require_eq_ok] at hok
  obtain ⟨c, -, _, -, -, -, ⟨_, claimed⟩, hclaim, hok⟩ := hok
  obtain ⟨-, -, haccounts, -, hclaimed⟩ := h.claimChallenge
    (Opens db (parties.who (.coldkey address))) hclaim
  split at hok
  · rename_i account hfind
    cases hok
    exact ⟨hclaimed, hclaimed.coherent.entrant_iff.mpr
      (.inr ⟨_, findByColdkey_eq_some hfind, rfl⟩)⟩
  · simp only [bind_eq_ok, mapError_eq_ok] at hok
    obtain ⟨created, hcreate, linked, hlink, hok⟩ := hok
    cases hok
    obtain ⟨hcreated, hfresh, haccount, -⟩ := hclaimed.coherent.createAccount
      (Opens db (parties.who (.coldkey address))) hcreate
      (fun _ h ↦ absurd h (Option.not_mem_none _)) fun _ h ↦ absurd h (Option.not_mem_none _)
    obtain ⟨hlinked, henters⟩ := hcreated.coherent.linkWallet
      (Opens db (parties.who (.coldkey address))) hlink haccount ⟨rfl, haccounts ▸ hfresh⟩
    exact ⟨hclaimed.trans (hcreated.trans hlinked), henters⟩

theorem Coherent.linkColdkey (h : Coherent parties db) {coldkey : Ss58} {nonce : Digest}
    {signature : String} (haccount : ∃ a ∈ db.accounts.rows, a.id = accountId)
    (hok : linkColdkey cfg db accountId coldkey nonce signature now = .ok db') :
    Attaches parties (parties.who (.coldkey coldkey)) db accountId db' := by
  simp only [Auth.linkColdkey, bind_eq_ok, need_eq_ok, require_eq_ok, mapError_eq_ok] at hok
  obtain ⟨c, -, _, -, -, -, ⟨_, claimed⟩, hclaim, hlink⟩ := hok
  obtain ⟨-, -, haccounts, -, hclaimed⟩ := h.claimChallenge
    (fun id p ↦ id = accountId ∧ p = parties.who (.coldkey coldkey)) hclaim
  obtain ⟨hlinked, -⟩ := hclaimed.coherent.linkWallet
    (fun id p ↦ id = accountId ∧ p = parties.who (.coldkey coldkey)) hlink
    (haccounts ▸ haccount) ⟨rfl, rfl⟩
  exact hclaimed.trans hlinked

theorem Coherent.countAttempt (h : Coherent parties db) (coldkey : Ss58) (nonce : Digest) :
    Admits parties new db (countAttempt cfg db coldkey nonce now) := by
  unfold Auth.countAttempt
  split
  · exact .refl h
  · exact .challenges h fun _ ↦ rfl

/-! ## Passwords -/

theorem Coherent.rehashPassword (h : Coherent parties db) {account : AuthAccount}
    (haccount : account ∈ db.accounts.rows) {hash : PasswordHash}
    (hhash : account.passwordHash = some hash) {password : String}
    (hverified : cfg.verify password hash = true) :
    Admits parties new db (Db.rehashPassword db account.id (cfg.hash password)) := by
  refine .modify_row h (fun _ _ _ ↦ rfl) fun a ha hid hash' hhash' ↦ ?_
  obtain rfl := db.accounts.eq_of_key ha haccount hid
  obtain rfl := Option.some.inj hhash'
  rw [parties.hashed, parties.verified _ _ hverified]
  exact h.passwords a ha hash hhash

theorem Coherent.clearPasswordFailures (h : Coherent parties db) (id : Uuid) :
    Admits parties new db (Db.clearPasswordFailures db id) :=
  .modify_row h (fun _ _ _ ↦ rfl) fun a ha _ ↦ h.passwords a ha

theorem Coherent.recordPasswordFailure (h : Coherent parties db) (id : Uuid) (attempts : ℕ)
    (throttle : ℤ) : Admits parties new db (Db.recordPasswordFailure db id now attempts throttle) :=
  .modify_row h (fun a _ _ ↦ a.failed_email now attempts throttle) fun a ha _ ↦ by
    rw [AuthAccount.failed_passwordHash]
    exact h.passwords a ha

/-- A request with a password signs in who chose it, or lets nobody in. -/
def Answered (parties : Parties cfg P) (db : AuthDatabase) (a : Attempt)
    (r : LoginResponse × Process) : Prop :=
  (∃ id accepted, r.1 = .signedIn id ∧
    SignsIn parties (parties.chooser a.password) db id accepted ∧
      signIn cfg.toAuthSettings accepted id a.now a.draw = .ok r.2.db) ∨
    (∀ id, r.1 ≠ .signedIn id) ∧ Admits parties (fun _ _ ↦ False) db r.2.db

theorem Coherent.acceptPassword {σ : Process} (h : Coherent parties db) (hdb : σ.db = db)
    {account : AuthAccount} (haccount : account ∈ db.accounts.rows) {hash : PasswordHash}
    (hhash : account.passwordHash = some hash) {a : Attempt}
    (hverified : cfg.verify a.password hash = true) :
    Answered parties db a (acceptPassword cfg.toAuthSettings σ account hash a) := by
  subst hdb
  have hentrant : Entrant parties σ.db account.id (parties.chooser a.password) :=
    ⟨account, haccount, rfl, mem_entrants.mpr
      (.inr (.inl ⟨hash, hhash, (parties.verified _ _ hverified).symm⟩))⟩
  have hadmits : Admits parties (Opens σ.db (parties.chooser a.password)) σ.db
      (if cfg.needsRehash hash then Db.rehashPassword σ.db account.id (cfg.hash a.password)
        else Db.clearPasswordFailures σ.db account.id) := by
    split
    · exact h.rehashPassword haccount hhash hverified
    · exact h.clearPasswordFailures account.id
  unfold Auth.acceptPassword
  dsimp only
  split
  · rename_i signed hsign
    exact .inl ⟨_, _, rfl, ⟨hadmits, hadmits.entrants _ _ hentrant⟩, hsign⟩
  · exact .inr ⟨fun _ ↦ by simp, .refl h⟩

theorem Coherent.passwordLogin {σ : Process} (h : Coherent parties σ.db) (a : Attempt) :
    Answered parties σ.db a (passwordLogin cfg.toAuthSettings σ a) := by
  have hrefused {r : LoginResponse × Process} (hanswer : ∀ id, r.1 ≠ .signedIn id)
      (hdb : r.2.db = σ.db) : Answered parties σ.db a r := by
    refine .inr ⟨hanswer, ?_⟩
    rw [hdb]
    exact .refl h
  unfold Auth.passwordLogin
  dsimp only
  split
  · split
    · exact hrefused (fun _ ↦ by simp) rfl
    · rename_i account hfind
      split
      · exact hrefused (fun _ ↦ by simp) rfl
      · rename_i hash hhash
        split
        · exact hrefused (fun _ ↦ by simp) rfl
        · split
          · rename_i hverified
            exact h.acceptPassword (by rfl) (List.mem_of_find?_eq_some hfind) hhash hverified
          · exact .inr ⟨fun _ ↦ by simp, h.recordPasswordFailure _ _ _⟩
  · exact hrefused (fun _ ↦ by simp) rfl

end Conjectures.Auth

import Conjectures.Auth.Answers
import Conjectures.Auth.SignIns

/-!
# Principals stay apart

Along a run of sign-ins whoever entered an account can enter it, and of two who can enter one
account, one linked the other's way in from a session of it.  That takes three things of each step
(`Careful`).  An account that Google opens is under an address of the subject's owner; a
confirmation is answered by who chose the password; and a way in is linked where everybody else who
enters is the linker, or is linked with its owner already.

The code sees to none of them.  The last is on purpose.  An account that Google opened under an
address it does not answer for is taken over by the first magic link to that address, and stays
open to the subject (`google_account_is_shared`).
-/

namespace Conjectures.Auth

open Lib Db

variable {cfg : EntrySettings} {P : Type} {parties : Parties cfg P}
  {db db' : AuthDatabase} {accountId : Uuid} {p q : P} {new : Uuid → P → Prop}
  {secret : Digest} {now : Instant} {σ σ' : Realm P}

/-! ## What holds along a run -/

/-- Whoever entered an account can, and two who can have linked. -/
structure Sound (parties : Parties cfg P) (σ : Realm P) : Prop where
  coherent : Coherent parties σ.db
  apart : ∀ id p q, Entrant parties σ.db id p → Entrant parties σ.db id q →
    p = q ∨ σ.Linked id p q
  /-- a link is mailed to the address of its challenge -/
  mailed : ∀ c ∈ σ.db.challenges.rows, ∀ m ∈ σ.outbox, m.secret = c.secretSha256 →
    ∃ e ∈ c.email, parties.who (.mailbox e) = parties.who (.mailbox m.address)
  challenged : ∀ m ∈ σ.outbox, ∃ c ∈ σ.db.challenges.rows, c.secretSha256 = m.secret
  /-- a reset is for an account of its address -/
  resets : ∀ c ∈ σ.db.challenges.rows, c.kind = .passwordReset → ∀ id ∈ c.accountId,
    ∀ e ∈ c.email, Answers parties σ.db id (parties.who (.mailbox e))
  held : ∀ s ∈ σ.db.sessions.rows, ∀ p, (s.id, p) ∈ σ.held → Entrant parties σ.db s.accountId p
  given : ∀ h ∈ σ.held, ∃ s ∈ σ.db.sessions.rows, s.id = h.1

theorem Sound.start : Sound parties (.start cfg P) where
  coherent := ⟨fun _ ha ↦ absurd ha List.not_mem_nil, fun _ _ hw ↦ by
    rcases hw with ⟨hi, -⟩ | ⟨hw, -⟩
    · exact absurd hi List.not_mem_nil
    · exact absurd hw List.not_mem_nil⟩
  apart := fun _ _ _ ⟨_, ha, _⟩ ↦ absurd ha List.not_mem_nil
  mailed := fun _ hc ↦ absurd hc List.not_mem_nil
  challenged := fun _ hm ↦ absurd hm List.not_mem_nil
  resets := fun _ hc ↦ absurd hc List.not_mem_nil
  held := fun _ hs ↦ absurd hs List.not_mem_nil
  given := fun _ hh ↦ absurd hh List.not_mem_nil

/-- The one who answers a link is the one it was mailed to. -/
theorem Sound.addressed (h : Sound parties σ) (hreader : reader parties σ secret = some p) :
    Addressed parties σ.db secret p := by
  intro c hc hsecret
  obtain ⟨m, hm, rfl⟩ := Option.map_eq_some_iff.mp hreader
  have hmatch : m.secret = secret := by simpa using List.find?_some hm
  exact h.mailed c hc m (List.mem_of_find?_eq_some hm) (hmatch.trans hsecret.symm)

theorem Sound.resets_of_reader (h : Sound parties σ) (hreader : reader parties σ secret = some p) :
    ∀ c ∈ σ.db.challenges.rows, c.secretSha256 = secret → c.kind = .passwordReset →
      ∀ id ∈ c.accountId, Answers parties σ.db id p := by
  intro c hc hsecret hkind id hid
  obtain ⟨e, he, rfl⟩ := h.addressed hreader c hc hsecret
  exact h.resets c hc hkind id hid e he

theorem Realm.Linked.mono {id : Uuid} (h : σ.Linked id p q)
    (hlinks : ∀ l ∈ σ.links, l ∈ σ'.links) : σ'.Linked id p q := h.imp (hlinks _) (hlinks _)

theorem Realm.Linked.symm {id : Uuid} (h : σ.Linked id p q) : σ.Linked id q p := Or.symm h

/-- What a transaction on the accounts keeps, where those it lets in are apart. -/
theorem Sound.admits (h : Sound parties σ) (hadmits : Admits parties new σ.db σ'.db)
    (houtbox : σ'.outbox = σ.outbox) (hheld : σ'.held = σ.held)
    (hlinks : ∀ l ∈ σ.links, l ∈ σ'.links)
    (hnew : ∀ id p q, new id p → Entrant parties σ.db id q ∨ new id q →
      p = q ∨ σ'.Linked id p q) : Sound parties σ' := by
  have hask : ∀ c' ∈ σ'.db.challenges.rows, ∃ c ∈ σ.db.challenges.rows, ask c = ask c' := by
    intro c' hc'
    exact List.mem_map.mp (hadmits.asks ▸ List.mem_map_of_mem hc')
  have hask' : ∀ c ∈ σ.db.challenges.rows, ∃ c' ∈ σ'.db.challenges.rows, ask c' = ask c := by
    intro c hc
    exact List.mem_map.mp (hadmits.asks.symm ▸ List.mem_map_of_mem hc)
  refine ⟨hadmits.coherent, fun id p q hp hq ↦ ?_, fun c' hc' m hm hsecret ↦ ?_, fun m hm ↦ ?_,
    fun c' hc' hkind id hid e he ↦ ?_, fun s hs p hp ↦ ?_, fun x hx ↦ ?_⟩
  · rcases hadmits.admitted id p hp with hp | hp
    · rcases hadmits.admitted id q hq with hq | hq
      · exact (h.apart id p q hp hq).imp_right (·.mono hlinks)
      · exact (hnew id q p hq (.inl hp)).imp Eq.symm Realm.Linked.symm
    · exact hnew id p q hp (hadmits.admitted id q hq)
  · obtain ⟨c, hc, hsame⟩ := hask c' hc'
    simp only [ask, Prod.mk.injEq] at hsame
    obtain ⟨-, -, hemail, -, hsecret'⟩ := hsame
    rw [← hemail]
    exact h.mailed c hc m (houtbox ▸ hm) (hsecret.trans hsecret'.symm)
  · obtain ⟨c, hc, hsecret⟩ := h.challenged m (houtbox ▸ hm)
    obtain ⟨c', hc', hsame⟩ := hask' c hc
    simp only [ask, Prod.mk.injEq] at hsame
    exact ⟨c', hc', hsame.2.2.2.2.trans hsecret⟩
  · obtain ⟨c, hc, hsame⟩ := hask c' hc'
    simp only [ask, Prod.mk.injEq] at hsame
    obtain ⟨hkind', hid', hemail, -⟩ := hsame
    exact hadmits.answers _ _
      (h.resets c hc (hkind'.trans hkind) id (hid' ▸ hid) e (hemail ▸ he))
  · rw [hadmits.sessions] at hs
    exact hadmits.entrants _ _ (h.held s hs p (hheld ▸ hp))
  · rw [hadmits.sessions]
    exact h.given x (hheld ▸ hx)

/-- What a transaction that lets nobody in keeps. -/
theorem Sound.admitsNobody (h : Sound parties σ)
    (hadmits : Admits parties (fun _ _ ↦ False) σ.db σ'.db) (houtbox : σ'.outbox = σ.outbox)
    (hheld : σ'.held = σ.held) (hlinks : σ'.links = σ.links) : Sound parties σ' :=
  h.admits hadmits houtbox hheld (fun _ hl ↦ hlinks ▸ hl) fun _ _ _ hnew ↦ hnew.elim

/-! ## Signing in -/

/-- A session is opened; the others are revoked, which changes neither their ids nor their
accounts. -/
theorem signIn_rows {cfg : AuthSettings} {draw : SessionDraw}
    (h : signIn cfg db accountId now draw = .ok db') :
    (∀ s ∈ db.sessions.rows, s.id ≠ draw.id) ∧
      (∀ s' ∈ db'.sessions.rows, (s'.id = draw.id ∧ s'.accountId = accountId) ∨
        ∃ s ∈ db.sessions.rows, s.id = s'.id ∧ s.accountId = s'.accountId) ∧
      (∀ s ∈ db.sessions.rows, ∃ s' ∈ db'.sessions.rows, s'.id = s.id) ∧
      (∃ s' ∈ db'.sessions.rows, s'.id = draw.id) ∧
      db'.identities = db.identities ∧ db'.wallets = db.wallets ∧
      db'.challenges = db.challenges := by
  have hrevoked (s : AccountSession) : (s.revoked now).accountId = s.accountId := by
    unfold AccountSession.revoked
    split <;> rfl
  simp only [signIn, createSession, bind_eq_ok, require_eq_ok, need_eq_ok] at h
  obtain ⟨_, -, sessions, hinsert, _, -, h⟩ := h
  cases h
  have hrows := Table.rows_of_insert? hinsert
  have hmem (s : AccountSession) :=
    @Table.mem_update _ _ _ (fun s ↦ (Revocation.all accountId (some .cookie) none).Selects s) _
      (·.revoked_id now) db.sessions s
  have hold : ∀ s ∈ db.sessions.rows,
      ∃ s' ∈ (revokeAllSessions db accountId .cookie now).sessions.rows,
        s'.id = s.id ∧ s'.accountId = s.accountId := by
    intro s hs
    refine ⟨_, (hmem _).mpr ⟨s, hs, rfl⟩, ?_⟩
    split
    · exact ⟨s.revoked_id now, hrevoked s⟩
    · exact ⟨rfl, rfl⟩
  have hkept (s : AccountSession)
      (hs : s ∈ (revokeAllSessions db accountId .cookie now).sessions.rows) :
      ∃ s' ∈ db.sessions.rows, s'.id = s.id ∧ s'.accountId = s.accountId := by
    obtain ⟨s', hs', rfl⟩ := (hmem s).mp hs
    refine ⟨s', hs', ?_⟩
    split
    · exact ⟨(s'.revoked_id now).symm, (hrevoked s').symm⟩
    · exact ⟨rfl, rfl⟩
  refine ⟨fun s hs hid ↦ ?_, fun s' hs' ↦ ?_, fun s hs ↦ ?_, ?_, rfl, rfl, rfl⟩
  · obtain ⟨s', hs', hid', -⟩ := hold s hs
    exact Table.fresh_of_insert? hinsert s' hs' (hid'.trans hid)
  · rw [hrows] at hs'
    rcases List.mem_append.mp hs' with hs' | hs'
    · exact .inr (hkept s' hs')
    · rw [List.mem_singleton.mp hs']
      exact .inl ⟨rfl, rfl⟩
  · obtain ⟨s', hs', hid, -⟩ := hold s hs
    exact ⟨s', hrows ▸ List.mem_append_left _ hs', hid⟩
  · exact ⟨_, hrows ▸ List.mem_append_right _ (List.mem_singleton_self _), rfl⟩

/-- The session of one who signed in. -/
theorem Sound.signIn {draw : SessionDraw} (h : Sound parties σ)
    (hentrant : Entrant parties σ.db accountId q)
    (hsign : Auth.signIn cfg.toAuthSettings σ.db accountId now draw = .ok σ'.db)
    (houtbox : σ'.outbox = σ.outbox) (hheld : σ'.held = (draw.id, q) :: σ.held)
    (hlinks : σ'.links = σ.links) : Sound parties σ' := by
  obtain ⟨hfresh, hrows, hkept, hnew, hidentities, hwallets, hchallenges⟩ := signIn_rows hsign
  have haccounts := accounts_signIn hsign
  -- the sessions aside, nothing of the accounts changed
  have hadmits : Admits parties (fun _ _ ↦ False) σ.db { σ'.db with sessions := σ.db.sessions } :=
    .of_same h.coherent haccounts (fun _ _ ↦ by rw [Attached, Attached, hidentities, hwallets]) rfl
      (by rw [hchallenges])
  have hlinked (id : Uuid) (p q : P) : σ.Linked id p q → σ'.Linked id p q := fun hlink ↦
    hlink.mono (hlinks ▸ fun _ hl ↦ hl)
  refine ⟨⟨hadmits.coherent.1, hadmits.coherent.2⟩, fun id p q hp hq ↦ ?_, ?_, ?_, ?_,
    fun s' hs' p hp ↦ ?_, fun x hx ↦ ?_⟩
  · have hp' := (hadmits.admitted id p hp).resolve_right not_false
    have hq' := (hadmits.admitted id q hq).resolve_right not_false
    exact (h.apart id p q hp' hq').imp_right (hlinked id p q)
  · rw [hchallenges, houtbox]
    exact h.mailed
  · rw [hchallenges, houtbox]
    exact h.challenged
  · rw [hchallenges]
    exact fun c hc hkind id hid e he ↦ hadmits.answers _ _ (h.resets c hc hkind id hid e he)
  · rw [hheld] at hp
    rcases hrows s' hs' with ⟨hid, haccount⟩ | ⟨s, hs, hid, haccount⟩
    · rcases List.mem_cons.mp hp with hp | hp
      · rw [haccount, (Prod.mk.inj hp).2]
        exact hadmits.entrants _ _ hentrant
      · obtain ⟨s, hs, hgiven⟩ := h.given _ hp
        exact absurd (hgiven.trans hid) (hfresh s hs)
    · rcases List.mem_cons.mp hp with hp | hp
      · exact absurd (hid.trans (Prod.mk.inj hp).1) (hfresh s hs)
      · rw [← haccount]
        exact hadmits.entrants _ _ (h.held s hs p (hid ▸ hp))
  · rw [hheld] at hx
    rcases List.mem_cons.mp hx with rfl | hx
    · exact hnew
    · obtain ⟨s, hs, hid⟩ := h.given x hx
      obtain ⟨s', hs', hid'⟩ := hkept s hs
      exact ⟨s', hs', hid'.trans hid⟩

/-- An endpoint let somebody in, and a session is opened. -/
theorem Sound.enter {draw : SessionDraw} {middle : AuthDatabase} (h : Sound parties σ)
    (hin : SignsIn parties q σ.db accountId middle)
    (hsign : Auth.signIn cfg.toAuthSettings middle accountId now draw = .ok σ'.db)
    (houtbox : σ'.outbox = σ.outbox) (hheld : σ'.held = (draw.id, q) :: σ.held)
    (hlinks : σ'.links = σ.links) : Sound parties σ' := by
  have hmiddle : Sound parties (σ.withDb middle) := by
    refine h.admits hin.admits rfl rfl (fun _ hl ↦ hl) ?_
    rintro id p q' ⟨rfl, hfresh⟩ (⟨a, ha, rfl, -⟩ | ⟨rfl, -⟩)
    · exact absurd rfl (hfresh a ha)
    · exact .inl rfl
  exact hmiddle.signIn hin.enters hsign houtbox hheld hlinks

theorem Sound.enterStep (h : Sound parties σ) {draw : SessionDraw}
    {r : Except EntryError (Uuid × AuthDatabase)}
    (hin : ∀ id db, r = .ok (id, db) → SignsIn parties q σ.db id db) :
    Sound parties (Auth.enter cfg σ q now draw r) := by
  unfold Auth.enter
  split
  · exact h
  · rename_i id middle
    split
    · exact h
    · rename_i signed hsign
      exact h.enter (hin id middle rfl) hsign rfl rfl rfl

/-! ## Challenges and links -/

/-- A challenge is asked, and perhaps mailed. -/
theorem Sound.challenge (mail : Option Mail) {n : NewChallenge} (h : Sound parties σ)
    (hcreate : createChallenge σ.db n = .ok db')
    (hmail : ∀ m ∈ mail, m.secret = n.secretSha256 ∧
      ∃ e ∈ n.email, parties.who (.mailbox e) = parties.who (.mailbox m.address))
    (hreset : n.kind = .passwordReset → ∀ id ∈ n.accountId, ∀ e ∈ n.email,
      Answers parties σ.db id (parties.who (.mailbox e))) :
    Sound parties { σ.withDb db' with outbox := mail.toList ++ σ.outbox } := by
  simp only [createChallenge, bind_eq_ok, require_eq_ok, need_eq_ok] at hcreate
  obtain ⟨-, -, challenges, hinsert, -, hsecret, hcreate⟩ := hcreate
  cases hcreate
  have hmem (c : LoginChallenge) : c ∈ challenges.rows ↔ c ∈ σ.db.challenges.rows ∨ c = n.row := by
    rw [Table.rows_of_insert? hinsert, List.mem_append, List.mem_singleton]
  have hother : ∀ c ∈ σ.db.challenges.rows, c.secretSha256 ≠ n.secretSha256 := fun c hc hsame ↦
    not_taken hsecret hc rfl (congrArg some hsame)
  refine ⟨⟨h.coherent.1, h.coherent.2⟩, h.apart, fun c hc m hm hmatch ↦ ?_, fun m hm ↦ ?_,
    fun c hc hkind id hid e he ↦ ?_, h.held, h.given⟩
  · rcases (hmem c).mp hc with hc | rfl
    · rcases List.mem_append.mp hm with hm | hm
      · exact absurd (hmatch.symm.trans (hmail m (Option.mem_toList.mp hm)).1) (hother c hc)
      · exact h.mailed c hc m hm hmatch
    · rcases List.mem_append.mp hm with hm | hm
      · exact (hmail m (Option.mem_toList.mp hm)).2
      · obtain ⟨c, hc, hsame⟩ := h.challenged m hm
        exact absurd (hsame.trans hmatch) (hother c hc)
  · rcases List.mem_append.mp hm with hm | hm
    · exact ⟨n.row, (hmem _).mpr (.inr rfl), (hmail m (Option.mem_toList.mp hm)).1.symm⟩
    · obtain ⟨c, hc, hsame⟩ := h.challenged m hm
      exact ⟨c, (hmem c).mpr (.inl hc), hsame⟩
  · rcases (hmem c).mp hc with hc | rfl
    · exact h.resets c hc hkind id hid e he
    · exact hreset hkind id hid e he

/-- A link is mailed to the address of its challenge, and a reset is for its account. -/
theorem Sound.mail (h : Sound parties σ) {n : NewChallenge} {address : String}
    {r : Option Mail × AuthDatabase} (hok : Auth.mailed σ.db n address = .ok r)
    (hemail : n.email = some (cfg.emailText.normaliseEmail address))
    (hreset : n.kind = .passwordReset → ∀ id ∈ n.accountId,
      Answers parties σ.db id (parties.who (.mailbox address))) :
    Sound parties { σ.withDb r.2 with outbox := r.1.toList ++ σ.outbox } := by
  simp only [Auth.mailed, bind_eq_ok, mapError_eq_ok] at hok
  obtain ⟨created, hcreate, hok⟩ := hok
  cases hok
  refine h.challenge _ hcreate (fun m hm ↦ ?_) fun hkind id hid e he ↦ ?_
  · obtain rfl := Option.some.inj hm
    exact ⟨rfl, _, hemail, parties.normalised address⟩
  · obtain rfl := Option.some.inj (hemail.symm.trans he)
    rw [parties.normalised]
    exact hreset hkind id hid

theorem Sound.sendStep (h : Sound parties σ) {r : Except EntryError (Option Mail × AuthDatabase)}
    (hsend : ∀ m db, r = .ok (m, db) →
      Sound parties { σ.withDb db with outbox := m.toList ++ σ.outbox }) :
    Sound parties (Auth.send σ r) := by
  unfold Auth.send
  split
  · exact h
  · rename_i m db
    exact hsend m db rfl

theorem Sound.requestEmailLink (h : Sound parties σ) (email : String) (now : Instant)
    (draw : ChallengeDraw) :
    Sound parties (send σ (Auth.requestEmailLink cfg σ.db email now draw)) := by
  refine h.sendStep fun m db hok ↦ ?_
  unfold Auth.requestEmailLink at hok
  split at hok
  · cases hok
    exact h
  · exact h.mail hok rfl fun hkind ↦ by cases hkind

theorem Sound.registerPassword (h : Sound parties σ) (email password : String) (now : Instant)
    (draw : ChallengeDraw) :
    Sound parties (send σ (Auth.registerPassword cfg σ.db email password now draw)) := by
  refine h.sendStep fun m db hok ↦ ?_
  simp only [Auth.registerPassword, bind_eq_ok, need_eq_ok] at hok
  obtain ⟨w, -, hok⟩ := hok
  split at hok
  · cases hok
    exact h
  · split at hok
    · rename_i existing hfind
      refine h.mail hok rfl fun _ id hid ↦ ?_
      obtain rfl := Option.some.inj hid
      exact answers_of_findByEmail hfind
    · exact h.mail hok rfl fun hkind ↦ by cases hkind

theorem Sound.requestPasswordReset (h : Sound parties σ) (email : String) (now : Instant)
    (draw : ChallengeDraw) :
    Sound parties (send σ (Auth.requestPasswordReset cfg σ.db email now draw)) := by
  refine h.sendStep fun m db hok ↦ ?_
  unfold Auth.requestPasswordReset at hok
  split at hok
  · cases hok
    exact h
  · split at hok
    · cases hok
      exact h
    · rename_i account hfind
      split at hok
      · cases hok
        exact h
      · rename_i address haddress
        refine h.mail hok rfl fun _ id hid ↦ ?_
        obtain rfl := Option.some.inj hid
        exact ⟨account, List.mem_of_find?_eq_some hfind, rfl, address, haddress, rfl⟩

/-- A challenge to be signed. -/
theorem Sound.issue (h : Sound parties σ) {n : NewChallenge} (hkind : n.kind ≠ .passwordReset) :
    Sound parties (Auth.issue σ n) := by
  unfold Auth.issue
  split
  · exact h
  · rename_i db hcreate
    exact h.challenge none hcreate (fun _ h ↦ absurd h (Option.not_mem_none _)) fun hreset ↦
      absurd hreset hkind

/-- Everybody else who enters the account is the linker or is linked with the owner already. -/
def Alone (parties : Parties cfg P) (σ : Realm P) (accountId : Uuid) (linker owner : P) : Prop :=
  ∀ a ∈ σ.db.accounts.rows, a.id = accountId → ∀ p ∈ entrants parties σ.db a,
    p = owner ∨ p = linker ∨ σ.Linked accountId p owner

instance Alone.decidable [DecidableEq P] (parties : Parties cfg P) (σ : Realm P) (accountId : Uuid)
    (linker owner : P) : Decidable (Alone parties σ accountId linker owner) := by
  unfold Alone; infer_instance

/-- A way in is attached from a session. -/
theorem Sound.attachStep (h : Sound parties σ) {linker owner : P}
    {r : Except EntryError AuthDatabase} (halone : Alone parties σ accountId linker owner)
    (hattach : ∀ db, r = .ok db → Attaches parties owner σ.db accountId db) :
    Sound parties (attach σ linker owner accountId r) := by
  unfold attach
  split
  · exact h
  · rename_i db
    refine h.admits
      (hattach db rfl) rfl rfl (fun _ hl ↦ List.mem_cons_of_mem _ hl) ?_
    rintro id p q ⟨rfl, rfl⟩ (⟨a, ha, hid, hq⟩ | ⟨-, rfl⟩)
    · rcases halone a ha hid q hq with rfl | rfl | hlinked
      · exact .inl rfl
      · exact .inr (.inr List.mem_cons_self)
      · exact .inr (Realm.Linked.symm
          (hlinked.mono
            fun _ hl ↦ List.mem_cons_of_mem _ hl))
    · exact .inl rfl

/-! ## Every step -/

/-- An account that Google opens is under its owner's address, a confirmation that opens one is
answered by who chose the password, and a way in is linked where nobody else enters. -/
def Careful (parties : Parties cfg P) (σ : Realm P) : EntryAction → Prop
  | .googleCallback i _ _ _ => findByIdentity σ.db googleProvider i.subject = none →
      findByEmail cfg.emailText σ.db i.email = none →
        parties.who (.mailbox i.email) = parties.who (.google i.subject)
  | .verifyPasswordSignup secret _ _ _ => ∀ c ∈ σ.db.challenges.rows, c.secretSha256 = secret →
      (∀ e ∈ c.email, findByEmail cfg.emailText σ.db e = none) →
        ∀ hash ∈ c.passwordHash, ∀ p ∈ reader parties σ secret, parties.who (.password hash) = p
  | .linkGoogle sessionId i now => ∀ x ∈ principalOf σ sessionId now,
      Alone parties σ x.1.id x.2 (parties.who (.google i.subject))
  | .linkColdkey sessionId coldkey _ _ now => ∀ x ∈ principalOf σ sessionId now,
      Alone parties σ x.1.id x.2 (parties.who (.coldkey coldkey))
  | _ => True

instance Careful.decidable [DecidableEq P] (parties : Parties cfg P) (σ : Realm P)
    (a : EntryAction) : Decidable (Careful parties σ a) :=
  match a with
  | .googleCallback i _ _ _ => inferInstanceAs (Decidable
      (findByIdentity σ.db googleProvider i.subject = none →
        findByEmail cfg.emailText σ.db i.email = none →
          parties.who (.mailbox i.email) = parties.who (.google i.subject)))
  | .verifyPasswordSignup secret _ _ _ => inferInstanceAs (Decidable
      (∀ c ∈ σ.db.challenges.rows, c.secretSha256 = secret →
        (∀ e ∈ c.email, findByEmail cfg.emailText σ.db e = none) → ∀ hash ∈ c.passwordHash,
          ∀ p ∈ reader parties σ secret, parties.who (.password hash) = p))
  | .linkGoogle sessionId i now => inferInstanceAs (Decidable
      (∀ x ∈ principalOf σ sessionId now,
        Alone parties σ x.1.id x.2 (parties.who (.google i.subject))))
  | .linkColdkey sessionId coldkey _ _ now => inferInstanceAs (Decidable
      (∀ x ∈ principalOf σ sessionId now,
        Alone parties σ x.1.id x.2 (parties.who (.coldkey coldkey))))
  | .requestEmailLink .. | .verifyEmail .. | .registerPassword .. | .passwordLogin _
  | .requestPasswordReset .. | .resetPassword .. | .walletChallenge .. | .verifyWallet ..
  | .coldkeyLinkChallenge .. => inferInstanceAs (Decidable True)

theorem principalOf_eq_some {sessionId : Uuid} {x : AuthAccount × P}
    (h : principalOf σ sessionId now = some x) : x.1 ∈ σ.db.accounts.rows := by
  obtain ⟨s, -, h⟩ := Option.bind_eq_some_iff.mp h
  split at h
  · obtain ⟨a, ha, h⟩ := Option.bind_eq_some_iff.mp h
    obtain ⟨_, -, rfl⟩ := Option.map_eq_some_iff.mp h
    exact (Table.find?_eq_some.mp ha).1
  · cases h

variable [DecidableEq P]

theorem Sound.passwordLogin (h : Sound parties σ) (a : Attempt) :
    Sound parties (entryStep parties σ (.passwordLogin a)) := by
  have hanswered : Answered parties σ.db a (Auth.passwordLogin cfg.toAuthSettings σ.process a) :=
    h.coherent.passwordLogin a
  simp only [entryStep]
  split
  · rename_i id process hresult
    rw [hresult] at hanswered
    rcases hanswered with ⟨_, accepted, -, hin, hsign⟩ | ⟨hrefused, -⟩
    · exact h.enter hin hsign rfl rfl rfl
    · exact absurd rfl (hrefused id)
  · rename_i answer process hother hresult
    rw [hresult] at hanswered
    rcases hanswered with ⟨id, _, hsigned, -⟩ | ⟨-, hadmits⟩
    · exact absurd hsigned (hother id)
    · exact h.admitsNobody hadmits rfl rfl rfl

theorem Sound.step (h : Sound parties σ) {a : EntryAction} (ha : Careful parties σ a) :
    Sound parties (entryStep parties σ a) := by
  cases a with
  | requestEmailLink email now draw => exact h.requestEmailLink email now draw
  | verifyEmail secret now newId draw =>
    simp only [entryStep]
    split
    · exact h
    · rename_i hreader
      exact h.enterStep fun _ _ hok ↦ h.coherent.verifyEmail (h.addressed hreader) hok
  | registerPassword email password now draw => exact h.registerPassword email password now draw
  | verifyPasswordSignup secret now newId draw =>
    simp only [entryStep]
    split
    · exact h
    · rename_i p hreader
      exact h.enterStep fun _ _ hok ↦ h.coherent.verifyPasswordSignup (h.addressed hreader)
        (fun c hc hsecret hnone hash hhash ↦ ha c hc hsecret hnone hash hhash p hreader) hok
  | passwordLogin a => exact h.passwordLogin a
  | requestPasswordReset email now draw => exact h.requestPasswordReset email now draw
  | resetPassword secret password now draw =>
    simp only [entryStep]
    split
    · exact h
    · rename_i p hreader
      split
      · rename_i hchosen
        refine h.enterStep fun _ _ hok ↦ h.coherent.resetPassword (h.resets_of_reader hreader)
          (fun w hw ↦ ?_) hok
        rw [hw] at hchosen
        exact of_decide_eq_true hchosen
      · exact h
  | googleCallback i now newId draw =>
    simp only [entryStep]
    split
    · exact h.enterStep fun _ _ hok ↦ h.coherent.googleAccountForSignIn ha hok
    · exact h
  | linkGoogle sessionId i now =>
    simp only [entryStep]
    split
    · exact h
    · rename_i account p hprincipal
      split
      · rename_i hissued
        exact h.attachStep (ha _ hprincipal) fun _ hok ↦
          h.coherent.linkGoogle (principalOf_eq_some hprincipal) hissued hok
      · exact h
  | walletChallenge address message now draw => exact h.issue fun hkind ↦ by cases hkind
  | verifyWallet address signature now newId draw =>
    exact h.enterStep fun _ _ hok ↦ h.coherent.verifyWallet hok
  | coldkeyLinkChallenge sessionId address message now draw =>
    simp only [entryStep]
    split
    · exact h
    · exact h.issue fun hkind ↦ by cases hkind
  | linkColdkey sessionId coldkey nonce signature now =>
    simp only [entryStep]
    split
    · exact h
    · rename_i account p hprincipal
      split
      · exact h.admitsNobody (h.coherent.countAttempt coldkey nonce) rfl rfl rfl
      · exact h.attachStep (ha _ hprincipal) fun _ hok ↦
          h.coherent.linkColdkey ⟨account, principalOf_eq_some hprincipal, rfl⟩ hok

end Conjectures.Auth

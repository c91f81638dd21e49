import Conjectures.Auth.Principals

/-!
# Who can enter an account

What the statements of the endpoints do to the ways in.  A password of an account is of one who
reads its mail, so that who can enter it reads its mail or has a way attached to it
(`Coherent.entrant_iff`).

Nobody is ever shut out.  Whom a transaction lets in is said by its `Admits`, which are put together
one after the other.
-/

namespace Conjectures.Auth

open Lib Db

variable {cfg : EntrySettings} {P : Type} {parties : Parties cfg P}
  {db db' db'' : AuthDatabase} {accountId : Uuid} {p q : P} {new new' : Uuid → P → Prop}

/-! ## Entrants -/

/-- The rows attach a provider's subject or a coldkey to the account. -/
inductive AttachedIn (identities : Table AccountIdentity.key)
    (wallets : Table AccountWallet.coldkey) (accountId : Uuid) : Way → Prop
  | google {i : AccountIdentity} (hi : i ∈ identities.rows) (haccount : i.accountId = accountId)
    (hprovider : i.provider = googleProvider) :
    AttachedIn identities wallets accountId (.google i.subject)
  | coldkey {w : AccountWallet} (hw : w ∈ wallets.rows) (haccount : w.accountId = accountId) :
    AttachedIn identities wallets accountId (.coldkey w.coldkey)

/-- A provider's subject or a coldkey is attached to the account. -/
abbrev Attached (db : AuthDatabase) : Uuid → Way → Prop := AttachedIn db.identities db.wallets

/-- The party reads the mail of the account. -/
def Answers (parties : Parties cfg P) (db : AuthDatabase) (accountId : Uuid) (p : P) : Prop :=
  ∃ a ∈ db.accounts.rows, a.id = accountId ∧ ∃ e ∈ a.email, parties.who (.mailbox e) = p

/-- The party can sign in to the account. -/
def Entrant (parties : Parties cfg P) (db : AuthDatabase) (accountId : Uuid) (p : P) : Prop :=
  ∃ a ∈ db.accounts.rows, a.id = accountId ∧ p ∈ entrants parties db a

/-- A password is of whom the mail is read by, and what is attached is attached to an account. -/
structure Coherent (parties : Parties cfg P) (db : AuthDatabase) : Prop where
  passwords : ∀ a ∈ db.accounts.rows, ∀ h ∈ a.passwordHash,
    ∃ e ∈ a.email, parties.who (.mailbox e) = parties.who (.password h)
  attached : ∀ id w, Attached db id w → ∃ a ∈ db.accounts.rows, a.id = id

theorem mem_entrants {a : AuthAccount} : p ∈ entrants parties db a ↔
    (∃ e ∈ a.email, parties.who (.mailbox e) = p) ∨
      (∃ h ∈ a.passwordHash, parties.who (.password h) = p) ∨
      ∃ w, Attached db a.id w ∧ parties.who w = p := by
  constructor
  · intro h
    obtain ⟨w, hw, rfl⟩ := List.mem_map.mp h
    simp only [waysIn, List.mem_append, List.mem_map, Option.mem_toList, List.mem_filter,
      decide_eq_true_eq] at hw
    rcases hw with ((⟨e, he, rfl⟩ | ⟨i, ⟨hi, haccount, hprovider⟩, rfl⟩) |
      ⟨x, ⟨hx, haccount⟩, rfl⟩) | ⟨hash, hhash, rfl⟩
    · exact .inl ⟨e, he, rfl⟩
    · exact .inr (.inr ⟨_, .google hi haccount hprovider, rfl⟩)
    · exact .inr (.inr ⟨_, .coldkey hx haccount, rfl⟩)
    · exact .inr (.inl ⟨hash, hhash, rfl⟩)
  · intro h
    refine List.mem_map.mpr ?_
    simp only [waysIn, List.mem_append, List.mem_map, Option.mem_toList, List.mem_filter,
      decide_eq_true_eq]
    rcases h with ⟨e, he, rfl⟩ | ⟨hash, hhash, rfl⟩ | ⟨_, ⟨hi, haccount, hprovider⟩ |
      ⟨hx, haccount⟩, rfl⟩
    · exact ⟨_, .inl (.inl (.inl ⟨e, he, rfl⟩)), rfl⟩
    · exact ⟨_, .inr ⟨hash, hhash, rfl⟩, rfl⟩
    · exact ⟨_, .inl (.inl (.inr ⟨_, ⟨hi, haccount, hprovider⟩, rfl⟩)), rfl⟩
    · exact ⟨_, .inl (.inr ⟨_, ⟨hx, haccount⟩, rfl⟩), rfl⟩

/-- Who can enter reads the mail or has a way attached. -/
theorem Coherent.entrant_iff (h : Coherent parties db) : Entrant parties db accountId p ↔
    Answers parties db accountId p ∨ ∃ w, Attached db accountId w ∧ parties.who w = p := by
  constructor
  · rintro ⟨a, ha, rfl, hp⟩
    rcases mem_entrants.mp hp with hmail | ⟨hash, hhash, rfl⟩ | hattached
    · exact .inl ⟨a, ha, rfl, hmail⟩
    · exact .inl ⟨a, ha, rfl, h.passwords a ha hash hhash⟩
    · exact .inr hattached
  · rintro (⟨a, ha, hid, hmail⟩ | ⟨w, hw, hp⟩)
    · exact ⟨a, ha, hid, mem_entrants.mpr (.inl hmail)⟩
    · obtain ⟨a, ha, rfl⟩ := h.attached accountId w hw
      exact ⟨a, ha, rfl, mem_entrants.mpr (.inr (.inr ⟨w, hw, hp⟩))⟩

/-! ## What a transaction does -/

/-- What a challenge asks, and of whom. -/
def ask (c : LoginChallenge) :
    LoginChallengeKind × Option Uuid × Option String × Option PasswordHash × Digest :=
  (c.kind, c.accountId, c.email, c.passwordHash, c.secretSha256)

/-- Nobody is shut out, and only the `new` ones are let in. -/
structure Admits (parties : Parties cfg P) (new : Uuid → P → Prop) (db db' : AuthDatabase) :
    Prop where
  coherent : Coherent parties db'
  entrants : ∀ id p, Entrant parties db id p → Entrant parties db' id p
  answers : ∀ id p, Answers parties db id p → Answers parties db' id p
  admitted : ∀ id p, Entrant parties db' id p → Entrant parties db id p ∨ new id p
  sessions : db'.sessions = db.sessions
  asks : db'.challenges.rows.map ask = db.challenges.rows.map ask

theorem Admits.trans (h : Admits parties new db db') (h' : Admits parties new db' db'') :
    Admits parties new db db'' where
  coherent := h'.coherent
  entrants id p hp := h'.entrants id p (h.entrants id p hp)
  answers id p hp := h'.answers id p (h.answers id p hp)
  admitted id p hp := (h'.admitted id p hp).elim (h.admitted id p) .inr
  sessions := h'.sessions.trans h.sessions
  asks := h'.asks.trans h.asks

theorem Admits.mono (h : Admits parties new db db') (hnew : ∀ id p, new id p → new' id p) :
    Admits parties new' db db' :=
  { h with admitted := fun id p hp ↦ (h.admitted id p hp).imp_right (hnew id p) }

/-- Accounts and what is attached to them are as they were. -/
theorem Admits.of_same (h : Coherent parties db) (haccounts : db'.accounts = db.accounts)
    (hidentities : ∀ id w, Attached db' id w ↔ Attached db id w)
    (hsessions : db'.sessions = db.sessions)
    (hasks : db'.challenges.rows.map ask =
      db.challenges.rows.map ask) : Admits parties new db db' := by
  have hanswers (id : Uuid) (p : P) : Answers parties db' id p ↔ Answers parties db id p := by
    unfold Answers
    rw [haccounts]
  have hcoherent : Coherent parties db' := by
    refine ⟨fun a ha ↦ h.passwords a (haccounts ▸ ha), fun id w hw ↦ ?_⟩
    rw [haccounts]
    exact h.attached id w ((hidentities id w).mp hw)
  have hentrants (id : Uuid) (p : P) : Entrant parties db' id p ↔ Entrant parties db id p := by
    rw [hcoherent.entrant_iff, h.entrant_iff, hanswers]
    simp only [hidentities]
  exact ⟨hcoherent, fun id p ↦ (hentrants id p).mpr, fun id p ↦ (hanswers id p).mpr,
    fun id p hp ↦ .inl ((hentrants id p).mp hp), hsessions, hasks⟩

theorem Admits.refl (h : Coherent parties db) : Admits parties new db db :=
  .of_same h rfl (fun _ _ ↦ Iff.rfl) rfl rfl

/-- An update of a challenge that leaves what it asks. -/
theorem Admits.challenges (h : Coherent parties db) {id : Uuid}
    {f : LoginChallenge → LoginChallenge} {hf : ∀ c, (f c).id = c.id}
    (hask : ∀ c, ask (f c) = ask c) :
    Admits parties new db { db with challenges := db.challenges.modify id f hf } := by
  refine .of_same h rfl (fun _ _ ↦ Iff.rfl) rfl ?_
  dsimp only
  rw [Table.modify, Table.rows_update, List.map_map]
  refine List.map_congr_left fun c _ ↦ ?_
  rw [Function.comp_apply]
  split
  · exact hask c
  · rfl

/-- An update of an account that keeps who reads its mail, and may give it to a new one. -/
theorem Admits.modify (h : Coherent parties db) {id : Uuid} {f : AuthAccount → AuthAccount}
    {hf : ∀ a, (f a).id = a.id}
    (hkept : ∀ a ∈ db.accounts.rows, a.id = id → ∀ e ∈ a.email,
      ∃ e' ∈ (f a).email, parties.who (.mailbox e') = parties.who (.mailbox e))
    (hpasswords : ∀ a ∈ db.accounts.rows, a.id = id → ∀ hash ∈ (f a).passwordHash,
      ∃ e ∈ (f a).email, parties.who (.mailbox e) = parties.who (.password hash))
    (hnew : ∀ a ∈ db.accounts.rows, a.id = id → ∀ e ∈ (f a).email,
      (∃ e' ∈ a.email, parties.who (.mailbox e') = parties.who (.mailbox e)) ∨
        new id (parties.who (.mailbox e))) :
    Admits parties new db { db with accounts := db.accounts.modify id f hf } := by
  have hmem (a' : AuthAccount) : a' ∈ (db.accounts.modify id f hf).rows ↔
      (a' ∈ db.accounts.rows ∧ a'.id ≠ id) ∨ ∃ a ∈ db.accounts.rows, a.id = id ∧ f a = a' :=
    Table.mem_modify
  have hanswers (id' : Uuid) (p : P) (hp : Answers parties db id' p) :
      Answers parties { db with accounts := db.accounts.modify id f hf } id' p := by
    obtain ⟨a, ha, rfl, e, he, rfl⟩ := hp
    by_cases hid : a.id = id
    · obtain ⟨e', he', hsame⟩ := hkept a ha hid e he
      exact ⟨f a, (hmem _).mpr (.inr ⟨a, ha, hid, rfl⟩), hf a, e', he', hsame⟩
    · exact ⟨a, (hmem _).mpr (.inl ⟨ha, hid⟩), rfl, e, he, rfl⟩
  have hcoherent : Coherent parties { db with accounts := db.accounts.modify id f hf } := by
    constructor
    · intro a' ha' hash hhash
      rcases (hmem a').mp ha' with ⟨ha, -⟩ | ⟨a, ha, hid, rfl⟩
      · exact h.passwords a' ha hash hhash
      · exact hpasswords a ha hid hash hhash
    · intro id' w hw
      obtain ⟨a, ha, hid'⟩ := h.attached id' w hw
      have hrow : _ ∈ (db.accounts.modify id f hf).rows := Table.modify_row ha
      refine ⟨_, hrow, ?_⟩
      split
      · exact (hf a).trans hid'
      · exact hid'
  refine ⟨hcoherent, fun id' p hp ↦ ?_, hanswers, fun id' p hp ↦ ?_, rfl, rfl⟩
  · rcases h.entrant_iff.mp hp with hp | hp
    · exact hcoherent.entrant_iff.mpr (.inl (hanswers id' p hp))
    · exact hcoherent.entrant_iff.mpr (.inr hp)
  · rcases hcoherent.entrant_iff.mp hp with ⟨a', ha', rfl, e, he, rfl⟩ | hp
    · rcases (hmem a').mp ha' with ⟨ha, -⟩ | ⟨a, ha, hid, rfl⟩
      · exact .inl (h.entrant_iff.mpr (.inl ⟨a', ha, rfl, e, he, rfl⟩))
      · rcases hnew a ha hid e he with ⟨e', he', hsame⟩ | hnew
        · exact .inl (h.entrant_iff.mpr (.inl ⟨a, ha, (hf a).symm, e', he', hsame⟩))
        · rw [hf, hid]
          exact .inr hnew
    · exact .inl (h.entrant_iff.mpr (.inr hp))

/-- An update that leaves the address, and the password to whom it was of. -/
theorem Admits.modify_row (h : Coherent parties db) {id : Uuid} {f : AuthAccount → AuthAccount}
    {hf : ∀ a, (f a).id = a.id} (hemail : ∀ a ∈ db.accounts.rows, a.id = id → (f a).email = a.email)
    (hpasswords : ∀ a ∈ db.accounts.rows, a.id = id → ∀ hash ∈ (f a).passwordHash,
      ∃ e ∈ a.email, parties.who (.mailbox e) = parties.who (.password hash)) :
    Admits parties new db { db with accounts := db.accounts.modify id f hf } := by
  refine .modify h (fun a ha hid e he ↦ ?_) (fun a ha hid hash hhash ↦ ?_) fun a ha hid e he ↦ ?_
  · rw [hemail a ha hid]
    exact ⟨e, he, rfl⟩
  · rw [hemail a ha hid]
    exact hpasswords a ha hid hash hhash
  · rw [hemail a ha hid] at he
    exact .inl ⟨e, he, rfl⟩

/-- One way in is attached to an account. -/
theorem Coherent.attach (h : Coherent parties db) {w : Way}
    (haccounts : db'.accounts = db.accounts)
    (hattached : ∀ id w', Attached db' id w' ↔ Attached db id w' ∨ id = accountId ∧ w' = w)
    (hsessions : db'.sessions = db.sessions) (hchallenges : db'.challenges = db.challenges)
    (haccount : ∃ a ∈ db.accounts.rows, a.id = accountId) (hnew : new accountId (parties.who w)) :
    Admits parties new db db' ∧ Entrant parties db' accountId (parties.who w) := by
  have hanswers (id : Uuid) (p : P) : Answers parties db' id p ↔ Answers parties db id p := by
    unfold Answers
    rw [haccounts]
  have hcoherent : Coherent parties db' := by
    refine ⟨fun a ha ↦ h.passwords a (haccounts ▸ ha), fun id w' hw ↦ ?_⟩
    rw [haccounts]
    rcases (hattached id w').mp hw with hw | ⟨rfl, -⟩
    · exact h.attached id w' hw
    · exact haccount
  refine ⟨⟨hcoherent, fun id p hp ↦ ?_, fun id p ↦ (hanswers id p).mpr, fun id p hp ↦ ?_, hsessions,
    by rw [hchallenges]⟩, hcoherent.entrant_iff.mpr (.inr ⟨w, ?_, rfl⟩)⟩
  · rw [hcoherent.entrant_iff, hanswers]
    rcases h.entrant_iff.mp hp with hp | ⟨w', hw, hp⟩
    · exact .inl hp
    · exact .inr ⟨w', (hattached id w').mpr (.inl hw), hp⟩
  · rw [h.entrant_iff]
    rcases hcoherent.entrant_iff.mp hp with hp | ⟨w', hw, rfl⟩
    · exact .inl (.inl ((hanswers id p).mp hp))
    · rcases (hattached id w').mp hw with hw | ⟨rfl, rfl⟩
      · exact .inl (.inr ⟨w', hw, rfl⟩)
      · exact .inr hnew
  · exact (hattached accountId w).mpr (.inr ⟨rfl, rfl⟩)

/-! ## The statements -/

theorem Coherent.createAccount (new : Uuid → P → Prop) (h : Coherent parties db) {n : NewAccount}
    (hcreate : Db.createAccount cfg.emailText db n = .ok db')
    (hpassword : ∀ hash ∈ n.passwordHash, ∃ e ∈ n.email,
      parties.who (.mailbox e) = parties.who (.password hash))
    (hnew : ∀ e ∈ n.email, (∀ a ∈ db.accounts.rows, a.id ≠ n.id) →
      new n.id (parties.who (.mailbox e))) :
    Admits parties new db db' ∧ (∀ a ∈ db.accounts.rows, a.id ≠ n.id) ∧
      (∃ a ∈ db'.accounts.rows, a.id = n.id) ∧
      ∀ e ∈ n.email, Entrant parties db' n.id (parties.who (.mailbox e)) := by
  simp only [Db.createAccount, bind_eq_ok, require_eq_ok, need_eq_ok] at hcreate
  obtain ⟨-, -, accounts, hinsert, -, -, hcreate⟩ := hcreate
  cases hcreate
  have hrows := Table.rows_of_insert? hinsert
  have hfresh := Table.fresh_of_insert? hinsert
  have hmem (a : AuthAccount) :
      a ∈ accounts.rows ↔ a ∈ db.accounts.rows ∨ a = n.row cfg.emailText := by
    rw [hrows, List.mem_append, List.mem_singleton]
  have hcoherent : Coherent parties { db with accounts } := by
    constructor
    · intro a ha hash hhash
      rcases (hmem a).mp ha with ha | rfl
      · exact h.passwords a ha hash hhash
      · obtain ⟨e, he, hwho⟩ := hpassword hash hhash
        refine ⟨cfg.emailText.normaliseEmail e, ?_, (parties.normalised e).trans hwho⟩
        exact Option.map_eq_some_iff.mpr ⟨e, he, rfl⟩
    · rintro id w hw
      obtain ⟨a, ha, hid⟩ := h.attached id w hw
      exact ⟨a, (hmem a).mpr (.inl ha), hid⟩
  have hanswers (id : Uuid) (p : P) (hp : Answers parties db id p) :
      Answers parties { db with accounts } id p := by
    obtain ⟨a, ha, hid, hp⟩ := hp
    exact ⟨a, (hmem a).mpr (.inl ha), hid, hp⟩
  have hrow : n.row cfg.emailText ∈ accounts.rows := (hmem _).mpr (.inr rfl)
  refine ⟨⟨hcoherent, fun id p hp ↦ ?_, hanswers, fun id p hp ↦ ?_, rfl, rfl⟩, hfresh,
    ⟨_, hrow, rfl⟩, fun e he ↦ ?_⟩
  · rw [hcoherent.entrant_iff]
    exact (h.entrant_iff.mp hp).imp_left (hanswers id p)
  · rw [h.entrant_iff]
    rcases hcoherent.entrant_iff.mp hp with ⟨a, ha, rfl, e, he, rfl⟩ | ⟨w, hw, hp⟩
    · rcases (hmem a).mp ha with ha | rfl
      · exact .inl (.inl ⟨a, ha, rfl, e, he, rfl⟩)
      · obtain ⟨e', he', rfl⟩ := Option.map_eq_some_iff.mp he
        rw [parties.normalised]
        exact .inr (hnew e' he' hfresh)
    · exact .inl (.inr ⟨w, hw, hp⟩)
  · refine hcoherent.entrant_iff.mpr (.inl ⟨_, hrow, rfl, _, Option.map_eq_some_iff.mpr
      ⟨e, he, rfl⟩, parties.normalised e⟩)

theorem Coherent.linkIdentity (new : Uuid → P → Prop) (h : Coherent parties db)
    {i : AccountIdentity} (hlink : Db.linkIdentity db i = .ok db')
    (hprovider : i.provider = googleProvider)
    (hexists : ∃ a ∈ db.accounts.rows, a.id = i.accountId)
    (hnew : new i.accountId (parties.who (.google i.subject))) :
    Admits parties new db db' ∧
      Entrant parties db' i.accountId (parties.who (.google i.subject)) := by
  simp only [Db.linkIdentity, bind_eq_ok, require_eq_ok, need_eq_ok] at hlink
  obtain ⟨identities, hinsert, -, -, hlink⟩ := hlink
  cases hlink
  have hmem (j : AccountIdentity) : j ∈ identities.rows ↔ j ∈ db.identities.rows ∨ j = i := by
    rw [Table.rows_of_insert? hinsert, List.mem_append, List.mem_singleton]
  refine h.attach rfl (fun id w ↦ ?_) rfl rfl hexists hnew
  constructor
  · rintro (⟨hj, haccount, hgoogle⟩ | ⟨hw, haccount⟩)
    · rcases (hmem _).mp hj with hj | rfl
      · exact .inl (.google hj haccount hgoogle)
      · exact .inr ⟨haccount.symm, rfl⟩
    · exact .inl (.coldkey hw haccount)
  · rintro ((⟨hj, haccount, hgoogle⟩ | ⟨hw, haccount⟩) | ⟨rfl, rfl⟩)
    · exact .google ((hmem _).mpr (.inl hj)) haccount hgoogle
    · exact .coldkey hw haccount
    · exact .google ((hmem i).mpr (.inr rfl)) rfl hprovider

theorem Coherent.linkWallet (new : Uuid → P → Prop) (h : Coherent parties db) {w : AccountWallet}
    (hlink : Db.linkWallet db w = .ok db')
    (hexists : ∃ a ∈ db.accounts.rows, a.id = w.accountId)
    (hnew : new w.accountId (parties.who (.coldkey w.coldkey))) :
    Admits parties new db db' ∧
      Entrant parties db' w.accountId (parties.who (.coldkey w.coldkey)) := by
  simp only [Db.linkWallet, bind_eq_ok, need_eq_ok] at hlink
  obtain ⟨wallets, hinsert, hlink⟩ := hlink
  cases hlink
  have hmem (x : AccountWallet) : x ∈ wallets.rows ↔ x ∈ db.wallets.rows ∨ x = w := by
    rw [Table.rows_of_insert? hinsert, List.mem_append, List.mem_singleton]
  refine h.attach rfl (fun id w' ↦ ?_) rfl rfl hexists hnew
  constructor
  · rintro (⟨hj, haccount, hgoogle⟩ | ⟨hx, haccount⟩)
    · exact .inl (.google hj haccount hgoogle)
    · rcases (hmem _).mp hx with hx | rfl
      · exact .inl (.coldkey hx haccount)
      · exact .inr ⟨haccount.symm, rfl⟩
  · rintro ((⟨hj, haccount, hgoogle⟩ | ⟨hx, haccount⟩) | ⟨rfl, rfl⟩)
    · exact .google hj haccount hgoogle
    · exact .coldkey ((hmem _).mpr (.inl hx)) haccount
    · exact .coldkey ((hmem w).mpr (.inr rfl)) rfl

/-- A provider's new address of a subject is not a way in. -/
theorem Coherent.touchIdentity (h : Coherent parties db) (i : AccountIdentity) (email : String) :
    Admits parties new db (Db.touchIdentity db i email) := by
  have hmem (j' : AccountIdentity) : j' ∈ (Db.touchIdentity db i email).identities.rows ↔
      (j' ∈ db.identities.rows ∧ j'.key ≠ i.key) ∨
        ∃ j ∈ db.identities.rows, j.key = i.key ∧ { j with email } = j' :=
    @Table.mem_modify _ _ _ _ (fun j : AccountIdentity ↦ { j with email }) (fun _ ↦ rfl) _ _ _
  refine .of_same h rfl (fun id w ↦ ?_) rfl rfl
  constructor
  · rintro (⟨hj, haccount, hgoogle⟩ | ⟨hx, haccount⟩)
    · rcases (hmem _).mp hj with ⟨hj, -⟩ | ⟨j, hj', -, rfl⟩
      · exact .google hj haccount hgoogle
      · exact .google (i := j) hj' haccount hgoogle
    · exact .coldkey hx haccount
  · rintro (⟨hj, haccount, hgoogle⟩ | ⟨hx, haccount⟩)
    · rename_i j
      by_cases hkey : j.key = i.key
      · exact .google (i := { j with email }) ((hmem _).mpr (.inr ⟨j, hj, hkey, rfl⟩)) haccount
          hgoogle
      · exact .google ((hmem j).mpr (.inl ⟨hj, hkey⟩)) haccount hgoogle
    · exact .coldkey hx haccount

theorem Coherent.consumeChallenge (h : Coherent parties db) (id : Uuid) (now : Instant) :
    Admits parties new db (Db.consumeChallenge db id now) := .challenges h fun _ ↦ rfl

/-- The account of an address is read by whom the address is. -/
theorem answers_of_findByEmail {email : String} {a : AuthAccount}
    (h : findByEmail cfg.emailText db email = some a) :
    Answers parties db a.id (parties.who (.mailbox email)) := by
  have hfold : a.emailIdx cfg.emailText = some (cfg.emailText.normaliseEmail email) := by
    simpa using List.find?_some h
  obtain ⟨e, he, hlower⟩ := Option.map_eq_some_iff.mp hfold
  refine ⟨a, List.mem_of_find?_eq_some h, rfl, e, he, ?_⟩
  rw [← parties.lowered e, hlower, parties.normalised]

theorem Coherent.entrant_of_answers (h : Coherent parties db)
    (hp : Answers parties db accountId p) : Entrant parties db accountId p :=
  h.entrant_iff.mpr (.inl hp)

theorem Coherent.setVerified (h : Coherent parties db) (id : Uuid) :
    Admits parties new db (Db.setVerified db id) :=
  .modify_row h (fun _ _ _ ↦ rfl) fun a ha _ ↦ h.passwords a ha

theorem Coherent.setPassword (h : Coherent parties db) {id : Uuid} {hash : PasswordHash}
    (hp : Answers parties db id (parties.who (.password hash))) :
    Admits parties new db (Db.setPassword db id hash) := by
  refine .modify_row h (fun _ _ _ ↦ rfl) fun a ha hid hash' hhash ↦ ?_
  obtain ⟨b, hb, hbid, e, he, hwho⟩ := hp
  obtain rfl := db.accounts.eq_of_key ha hb (hid.trans hbid.symm)
  obtain rfl := Option.some.inj hhash
  exact ⟨e, he, hwho⟩

end Conjectures.Auth

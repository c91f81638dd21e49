import Conjectures.Auth.Cli

/-!
# What a step does to the rows

Whatever a step is, a challenge keeps what it was issued for and is consumed by a mint only; a
revoked session stays as it is, an expired one stays expired, and a renewal stays under the cap.
-/

namespace Conjectures.Auth

open Lib Db

/-! ## Challenges -/

/-- What becomes of a challenge, where one may have been spent. -/
structure ChallengeStep (spent : Option Uuid) (c c' : LoginChallenge) : Prop where
  id : c'.id = c.id
  kind : c'.kind = c.kind
  ss58 : c'.ss58 = c.ss58
  secret : c'.secretSha256 = c.secretSha256
  consumed : c.consumedAt.isSome → c'.consumedAt.isSome
  unconsumed : spent ≠ some c.id → c.consumedAt = none → c'.consumedAt = none

theorem ChallengeStep.refl (spent : Option Uuid) (c : LoginChallenge) : ChallengeStep spent c c :=
  ⟨rfl, rfl, rfl, rfl, fun h ↦ h, fun _ h ↦ h⟩

/-! ## Sessions -/

/-- What becomes of a session by a step at a time. -/
structure SessionStep (cfg : CliSettings) (clock : Instant) (s s' : AccountSession) : Prop where
  id : s'.id = s.id
  accountId : s'.accountId = s.accountId
  kind : s'.kind = s.kind
  token : s'.tokenSha256 = s.tokenSha256
  scope : s'.coldkeyScope = s.coldkeyScope
  issuedAt : s'.issuedAt = s.issuedAt
  revoked : s.revokedAt ≠ none → s' = s
  expired : s.expiresAt ≤ clock → s'.expiresAt = s.expiresAt
  capped : s'.expiresAt ≠ s.expiresAt → s'.expiresAt ≤ s.issuedAt + cfg.maxLifetime

section Sessions

variable {cfg : CliSettings} {clock t : Instant} {s s' : AccountSession}

theorem SessionStep.refl (cfg : CliSettings) (clock : Instant) (s : AccountSession) :
    SessionStep cfg clock s s :=
  ⟨rfl, rfl, rfl, rfl, rfl, rfl, fun _ ↦ rfl, fun _ ↦ rfl, fun h ↦ absurd rfl h⟩

/-- Nothing comes to life. -/
theorem SessionStep.live (h : SessionStep cfg clock s s') (hle : t ≤ clock) (hlive : s'.Live t) :
    s.Live t := by
  obtain ⟨hrevoked, hexpires⟩ := hlive
  constructor
  · by_contra hne
    rw [h.revoked hne] at hrevoked
    exact hne hrevoked
  · by_contra hnot
    have hold : s.expiresAt ≤ t := not_lt.mp hnot
    rw [h.expired (hold.trans hle)] at hexpires
    exact hnot hexpires

theorem SessionStep.liveOf (h : SessionStep cfg clock s s') (hle : t ≤ clock) {accountId : Uuid}
    {kind : AccountSessionKind} (hlive : s'.LiveOf accountId kind t) : s.LiveOf accountId kind t :=
  ⟨h.accountId.symm.trans hlive.1, h.kind.symm.trans hlive.2.1, h.live hle hlive.2.2⟩

theorem sessionStep_revoked (cfg : CliSettings) (clock : Instant) (s : AccountSession)
    (now : Instant) : SessionStep cfg clock s (s.revoked now) := by
  unfold AccountSession.revoked
  split
  · rename_i hnone
    exact ⟨rfl, rfl, rfl, rfl, rfl, rfl, fun h ↦ absurd hnone h, fun _ ↦ rfl, fun h ↦ absurd rfl h⟩
  · exact .refl cfg clock s

/-- A renewal, of a session that has not expired while the request held its reading of the
clock. -/
theorem sessionStep_touched {now expiresAt : Instant} {refreshAfter : ℤ}
    (htimely : s.Live now → clock < s.expiresAt) :
    SessionStep cfg clock s (s.touched now expiresAt refreshAfter (some cfg.maxLifetime)) := by
  unfold AccountSession.touched
  split
  · rename_i hdue
    have hlive := htimely hdue.1
    exact ⟨rfl, rfl, rfl, rfl, rfl, rfl, fun h ↦ absurd hdue.1.1 h,
      fun h ↦ absurd hlive (not_lt.mpr h), fun _ ↦ min_le_right _ _⟩
  · exact .refl cfg clock s

end Sessions

/-! ## Databases -/

/-- The rows after a step at a time, which may have spent a challenge, opened sessions and
revoked some. -/
structure Evolves (cfg : CliSettings) (clock : Instant) (spent : Option Uuid)
    (opened : List AccountSession) (ended : AccountSession → Prop) (db db' : AuthDatabase) :
    Prop where
  challenges : ∀ c ∈ db.challenges.rows, ∃ c' ∈ db'.challenges.rows, ChallengeStep spent c c'
  secrets : Unique LoginChallenge.secretIdx db.challenges.rows →
    Unique LoginChallenge.secretIdx db'.challenges.rows
  sessions : ∃ f : AccountSession → AccountSession,
    db'.sessions.rows = db.sessions.rows.map f ++ opened ∧
      ∀ s ∈ db.sessions.rows, SessionStep cfg clock s (f s) ∧
        (s.revokedAt = none → ¬ ended s → (f s).revokedAt = none)

section Evolves

variable {cfg : CliSettings} {clock : Instant} {db db' : AuthDatabase} {spent : Option Uuid}
  {opened : List AccountSession} {ended : AccountSession → Prop}

/-- Neither table is touched. -/
theorem evolves_of_same (hchallenges : db'.challenges = db.challenges)
    (hsessions : db'.sessions = db.sessions) : Evolves cfg clock spent [] ended db db' where
  challenges := fun c hc ↦ ⟨c, by rw [hchallenges]; exact hc, .refl spent c⟩
  secrets := by rw [hchallenges]; exact id
  sessions := ⟨id, by rw [hsessions, List.map_id, List.append_nil],
    fun s _ ↦ ⟨.refl cfg clock s, fun h _ ↦ h⟩⟩

/-- What else the step wrote first does not matter. -/
theorem Evolves.of_same {db₀ : AuthDatabase} (h : Evolves cfg clock spent opened ended db db')
    (hchallenges : db.challenges = db₀.challenges) (hsessions : db.sessions = db₀.sessions) :
    Evolves cfg clock spent opened ended db₀ db' where
  challenges := fun c hc ↦ h.challenges c (by rw [hchallenges]; exact hc)
  secrets := fun hunique ↦ h.secrets (by rw [hchallenges]; exact hunique)
  sessions := by rw [← hsessions]; exact h.sessions

/-- A challenge is rewritten, and keeps what it was issued for. -/
theorem evolves_challenge {f : LoginChallenge → LoginChallenge} {hf : ∀ c, (f c).id = c.id}
    {id : Uuid} (hdb : db' = { db with challenges := db.challenges.modify id f hf })
    (hsecret : ∀ c, (f c).secretSha256 = c.secretSha256)
    (hstep : ∀ c, c.id = id → ChallengeStep spent c (f c)) :
    Evolves cfg clock spent [] ended db db' := by
  subst hdb
  refine ⟨fun c hc ↦ ⟨_, @Table.modify_row _ _ _ _ f hf _ _ _ hc, ?_⟩, fun h ↦ ?_,
    ⟨fun s ↦ s, by simp, fun s _ ↦ ⟨.refl cfg clock s, fun h _ ↦ h⟩⟩⟩
  · split
    · rename_i hid
      exact hstep c hid
    · exact .refl spent c
  · by_cases hmem : ∃ c ∈ db.challenges.rows, c.id = id
    · obtain ⟨c, hc, rfl⟩ := hmem
      refine @Unique.modify _ _ _ _ _ _ _ c f hf h hc fun i hi c' hc' hne hi' ↦ hne ?_
      have hi₀ : c.secretIdx = some i := by
        rw [← hi]
        unfold LoginChallenge.secretIdx
        rw [hsecret]
      rw [h c' hc' c hc i hi' hi₀]
    · have hrows : ∀ c, c ∈ (db.challenges.modify id f hf).rows → c ∈ db.challenges.rows :=
        fun c hc ↦ by
          rcases Table.mem_modify.mp hc with ⟨hc, -⟩ | ⟨c₀, hc₀, hid, -⟩
          · exact hc
          · exact absurd ⟨c₀, hc₀, hid⟩ hmem
      exact fun c hc c' hc' i hi hi' ↦ h c (hrows c hc) c' (hrows c' hc') i hi hi'

theorem evolves_recordFailedAttempt (id : Uuid) :
    Evolves cfg clock spent [] ended db (recordFailedAttempt db id) :=
  evolves_challenge rfl (fun _ ↦ rfl) fun _ _ ↦ ⟨rfl, rfl, rfl, rfl, fun h ↦ h, fun _ h ↦ h⟩

theorem evolves_consumeChallenge (id : Uuid) (now : Instant) :
    Evolves cfg clock (some id) [] ended db (consumeChallenge db id now) :=
  evolves_challenge rfl (fun _ ↦ rfl) fun c hid ↦
    ⟨rfl, rfl, rfl, rfl, fun _ ↦ rfl, fun h ↦ absurd (by rw [hid]) h⟩

theorem evolves_createChallenge {n : NewChallenge} (h : createChallenge db n = .ok db') :
    Evolves cfg clock spent [] ended db db' := by
  simp only [createChallenge, bind_eq_ok, require_eq_ok, need_eq_ok] at h
  obtain ⟨_, -, challenges, hinsert, _, hfresh, h⟩ := h
  cases h
  have hrows := Table.rows_of_insert? hinsert
  refine ⟨fun c hc ↦ ⟨c, ?_, .refl spent c⟩, fun hunique ↦ ?_,
    ⟨fun s ↦ s, by simp, fun s _ ↦ ⟨.refl cfg clock s, fun h _ ↦ h⟩⟩⟩
  · rw [hrows]
    exact List.mem_append_left _ hc
  · dsimp only
    rw [hrows]
    exact hunique.append hfresh

theorem evolves_revokeSessions {p : AccountSession → Bool} (now : Instant)
    (hended : ∀ s, p s = true → ended s) :
    Evolves cfg clock spent [] ended db (revokeSessions db p now) where
  challenges := fun c hc ↦ ⟨c, hc, .refl spent c⟩
  secrets := id
  sessions := by
    refine ⟨fun s ↦ if p s then s.revoked now else s, by simp [revokeSessions, Table.rows_update],
      fun s _ ↦ ?_⟩
    dsimp only
    split
    · rename_i hp
      exact ⟨sessionStep_revoked cfg clock s now, fun _ hnot ↦ absurd (hended s hp) hnot⟩
    · exact ⟨.refl cfg clock s, fun h _ ↦ h⟩

theorem evolves_touchSession {id : Uuid} {now expiresAt : Instant} {refreshAfter : ℤ}
    (htimely : ∀ s ∈ db.sessions.rows, s.id = id → s.Live now → clock < s.expiresAt) :
    Evolves cfg clock spent [] ended
      db (touchSession db id now expiresAt refreshAfter (some cfg.maxLifetime)) where
  challenges := fun c hc ↦ ⟨c, hc, .refl spent c⟩
  secrets := fun h ↦ h
  sessions := by
    refine ⟨fun s ↦ if s.id = id then
        s.touched now expiresAt refreshAfter (some cfg.maxLifetime) else s,
      by simp [touchSession, Table.modify, Table.rows_update], fun s hs ↦ ?_⟩
    dsimp only
    split
    · rename_i hid
      refine ⟨sessionStep_touched (htimely s hs hid), fun h _ ↦ ?_⟩
      unfold AccountSession.touched
      split <;> exact h
    · exact ⟨.refl cfg clock s, fun h _ ↦ h⟩

/-- What a mint commits: its challenge is spent, and one session is new. -/
theorem evolves_mint {c : Claim} {n : NewSession}
    (h : createSession (c.writes db) n = .ok db') :
    Evolves cfg clock (some c.challengeId) [n.row] (·.id ∈ c.evicted) db db' := by
  simp only [createSession, bind_eq_ok, require_eq_ok, need_eq_ok] at h
  obtain ⟨_, -, sessions, hinsert, _, -, h⟩ := h
  cases h
  have hconsumed : Evolves cfg clock (some c.challengeId) [] (fun _ ↦ False) db
      (consumeChallenge db c.challengeId c.now) := evolves_consumeChallenge c.challengeId c.now
  have hrevoked : Evolves cfg clock none [] (·.id ∈ c.evicted) db
      (revokeSessions db (·.id ∈ c.evicted) c.started) :=
    evolves_revokeSessions c.started fun s h ↦ of_decide_eq_true h
  obtain ⟨f, hrows, hstep⟩ := hrevoked.sessions
  refine ⟨hconsumed.challenges, hconsumed.secrets, f, ?_, hstep⟩
  rw [List.append_nil] at hrows
  have hwrites : (c.writes db).sessions.rows = db.sessions.rows.map f := hrows
  rw [← hwrites]
  exact Table.rows_of_insert? hinsert

end Evolves

/-! ## Counting sessions -/

section Counting

variable {cfg : CliSettings} {clock t : Instant} {db db' : AuthDatabase} {spent : Option Uuid}
  {opened : List AccountSession} {ended : AccountSession → Prop} {accountId : Uuid}
  {kind : AccountSessionKind}

/-- Time takes sessions away. -/
theorem liveSessionCount_antitone {t' : Instant} (hle : t ≤ t') :
    liveSessionCount db accountId kind t' ≤ liveSessionCount db accountId kind t := by
  refine List.countP_mono_left fun s _ h ↦ ?_
  obtain ⟨haccount, hkind, hrevoked, hexpires⟩ := of_decide_eq_true h
  exact decide_eq_true ⟨haccount, hkind, hrevoked, lt_of_le_of_lt hle hexpires⟩

/-- Only sessions that were opened are more. -/
theorem liveSessionCount_evolves (h : Evolves cfg clock spent opened ended db db')
    (hle : t ≤ clock) :
    liveSessionCount db' accountId kind t ≤
      liveSessionCount db accountId kind t + opened.countP (·.LiveOf accountId kind t) := by
  obtain ⟨f, hrows, hstep⟩ := h.sessions
  unfold liveSessionCount
  rw [hrows, List.countP_append, List.countP_map]
  refine Nat.add_le_add_right (List.countP_mono_left fun s hs hlive ↦ ?_) _
  exact decide_eq_true ((hstep s hs).1.liveOf hle (of_decide_eq_true hlive))

/-- What a transaction counts leaves out what it revoked. -/
theorem liveSessionCount_writes (c : Claim) :
    liveSessionCount (c.writes db) accountId kind t =
      db.sessions.rows.countP fun s ↦ s.LiveOf accountId kind t ∧ s.id ∉ c.evicted := by
  change List.countP _ (List.map _ _) = _
  rw [List.countP_map]
  refine List.countP_congr fun s _ ↦ ?_
  simp only [Function.comp_apply, decide_eq_true_eq]
  by_cases hevicted : s.id ∈ c.evicted
  · simp only [hevicted, if_true, not_true, and_false, iff_false]
    rintro ⟨-, -, hrevoked, -⟩
    unfold AccountSession.revoked at hrevoked
    split at hrevoked
    · cases hrevoked
    · rename_i hne
      exact hne hrevoked
  · simp [hevicted]

theorem liveSessionCount_writes_evolves (c : Claim)
    (h : Evolves cfg clock spent opened ended db db') (hle : t ≤ clock) :
    liveSessionCount (c.writes db') accountId kind t ≤
      liveSessionCount (c.writes db) accountId kind t +
        opened.countP (·.LiveOf accountId kind t) := by
  obtain ⟨f, hrows, hstep⟩ := h.sessions
  rw [liveSessionCount_writes, liveSessionCount_writes, hrows, List.countP_append, List.countP_map]
  refine Nat.add_le_add (List.countP_mono_left fun s hs hlive ↦ ?_)
    (List.countP_mono_left fun s _ hlive ↦ ?_)
  · obtain ⟨hstep, -⟩ := hstep s hs
    obtain ⟨hlive, hkept⟩ := of_decide_eq_true hlive
    exact decide_eq_true ⟨hstep.liveOf hle hlive, hstep.id ▸ hkept⟩
  · exact decide_eq_true (of_decide_eq_true hlive).1

/-- A session counts for its account alone. -/
theorem countP_singleton_le (s : AccountSession) :
    [s].countP (·.LiveOf accountId kind t) ≤ 1 := List.countP_le_length

theorem countP_singleton_of_ne {s : AccountSession} (h : s.accountId ≠ accountId) :
    [s].countP (·.LiveOf accountId kind t) = 0 := by
  rw [List.countP_eq_zero]
  intro s' hs' hlive
  rw [List.mem_singleton.mp hs'] at hlive
  exact h (of_decide_eq_true hlive).1

/-- What a mint leaves to its account: the sessions it counted and its own. -/
theorem liveSessionCount_mint {c : Claim} {n : NewSession}
    (h : createSession (c.writes db) n = .ok db') :
    liveSessionCount db' accountId kind t =
      liveSessionCount (c.writes db) accountId kind t +
        [n.row].countP (·.LiveOf accountId kind t) := by
  simp only [createSession, bind_eq_ok, require_eq_ok, need_eq_ok] at h
  obtain ⟨_, -, sessions, hinsert, _, -, h⟩ := h
  cases h
  unfold liveSessionCount
  rw [← List.countP_append, ← Table.rows_of_insert? hinsert]

/-- No session is live where none is the oldest. -/
theorem liveSessionCount_eq_zero (h : oldestLiveSession db accountId kind t = none) :
    liveSessionCount db accountId kind t = 0 := by
  unfold oldestLiveSession at h
  rw [List.argmin_eq_none] at h
  unfold liveSessionCount
  rw [List.countP_eq_length_filter, h, List.length_nil]

end Counting

end Conjectures.Auth

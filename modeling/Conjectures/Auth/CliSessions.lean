import Conjectures.Auth.CliSound

/-!
# What holds of bearer sessions

The ceiling is a count: it holds as long as the sessions opened between a request's last count
and its mint leave it room.  A reading of the clock is good as long as the session it is used on
does not expire meanwhile, and the two reads that authenticate a request say one thing as long
as the session is not revoked between them.
-/

namespace Conjectures.Auth

open Lib Db

/-! ## Orderly steps -/

/-- The session a request has read, before it read the link. -/
def BearerRequest.between (r : BearerRequest) : Option AccountSession :=
  match r.phase with
  | .resolved s => some s
  | _ => none

/-- No session is among these that a request has read and not yet decided on. -/
def Site.Spares (σ : Site) (ended : AccountSession → Prop) : Prop :=
  ∀ r ∈ σ.requests.rows, ∀ s ∈ r.between, ¬ ended s

/-- The sessions opened since the last count leave room for one more. -/
def CliVerify.HasRoom (cfg : CliSettings) (σ : Site) (v : CliVerify) : Prop :=
  match v.phase with
  | .claimed c (.done live overtaken) =>
    live + overtaken < cfg.cliSessionsPerAccount ∧ σ.Spares (·.id ∈ c.evicted)
  | _ => True

/-- The session of the token does not expire between a reading of the clock and its use, nor
between the two reads. -/
def Timely (σ : Site) (r : BearerRequest) (now : Instant) : Prop :=
  ∀ s ∈ σ.db.sessions.rows, s.tokenSha256 = r.token →
    match r.phase with
    | .begun => s.Live r.now → σ.clock < s.expiresAt
    | .resolved _ => σ.clock < s.expiresAt
    | .admitted _ => s.Live now → σ.clock < s.expiresAt
    | _ => True

instance Site.decidableSpares (σ : Site) (ended : AccountSession → Prop) [DecidablePred ended] :
    Decidable (σ.Spares ended) :=
  inferInstanceAs (Decidable (∀ r ∈ σ.requests.rows, _))

instance CliVerify.decidableHasRoom (cfg : CliSettings) (σ : Site) (v : CliVerify) :
    Decidable (v.HasRoom cfg σ) :=
  let decide : (phase : VerifyPhase) → Decidable (match phase with
      | .claimed c (.done live overtaken) =>
        live + overtaken < cfg.cliSessionsPerAccount ∧ σ.Spares (·.id ∈ c.evicted)
      | _ => True)
    | .claimed _ (.done _ _) => inferInstanceAs (Decidable (_ ∧ _))
    | .claimed _ .counting | .claimed _ .surplus | .claimed _ (.chosen _) | .begun
    | .wrongSignature _ | .opened _ _ | .resolved _ _ _ | .minted _ _ | .refused =>
      inferInstanceAs (Decidable True)
  decide v.phase

instance Timely.decidable (σ : Site) (r : BearerRequest) (now : Instant) :
    Decidable (Timely σ r now) := by
  unfold Timely; cases r.phase <;> infer_instance

def Orderly (cfg : CliSettings) (σ : Site) : CliAction → Prop
  | .verify id _ => ∀ v ∈ σ.verifying.rows, v.id = id → v.HasRoom cfg σ
  | .revoke r snapshot => σ.Spares fun s ↦ r.Selects s ∧ s.id ∈ snapshot
  | .designate _ coldkey previous snapshot => ∀ key ∈ previous, previous ≠ coldkey →
      σ.Spares fun s ↦ (Revocation.coldkey key).Selects s ∧ s.id ∈ snapshot
  | .request id now => ∀ r ∈ σ.requests.rows, r.id = id → Timely σ r now
  | _ => True

instance Orderly.decidable (cfg : CliSettings) (σ : Site) (a : CliAction) :
    Decidable (Orderly cfg σ a) := by
  unfold Orderly; cases a <;> infer_instance

/-! ## What is kept -/

/-- Of the state a run ends in. -/
structure Kept (cfg : CliSettings) (σ₀ σ : Site) : Prop where
  /-- a challenge mints one session at most -/
  once : ∀ v ∈ σ.verifying.rows, ∀ w ∈ σ.verifying.rows, ∀ c c' id id',
    v.phase = .minted c id → w.phase = .minted c' id' → c.challengeId = c'.challengeId → v = w
  /-- for the kind and the address it was issued for -/
  own : ∀ v ∈ σ.verifying.rows, ∀ c id, v.phase = .minted c id →
    ∃ ch ∈ σ.db.challenges.rows, ch.id = c.challengeId ∧ ch.kind = .coldkeySession ∧
      ch.consumedAt.isSome ∧ ∃ s ∈ σ.db.sessions.rows, s.id = id ∧ s.kind = .bearer ∧
        s.coldkeyScope = ch.ss58
  /-- and nothing else opens a bearer session -/
  origin : ∀ s ∈ σ.db.sessions.rows, (∃ s₀ ∈ σ₀.db.sessions.rows, s₀.id = s.id) ∨
    ∃ v ∈ σ.verifying.rows, ∃ c, v.phase = .minted c s.id
  /-- an account stays under the ceiling -/
  ceiling : ∀ accountId,
    liveSessionCount σ.db accountId .bearer σ.clock ≤ cfg.cliSessionsPerAccount

/-- Of a step. -/
structure StepKept (cfg : CliSettings) (σ σ' : Site) : Prop where
  /-- no session comes back, and no renewal passes the cap -/
  sessions : ∀ s ∈ σ.db.sessions.rows, ∃ s' ∈ σ'.db.sessions.rows, SessionStep cfg σ.clock s s'
  /-- a token is admitted while its session takes requests and its coldkey is linked to the
  account of the session -/
  admitted : ∀ r ∈ σ'.requests.rows, ∀ s, r.phase = .admitted s → r ∈ σ.requests.rows ∨
    ∃ s₁ ∈ σ.db.sessions.rows, s₁.id = s.id ∧ s₁.tokenSha256 = r.token ∧ s₁.kind = .bearer ∧
      s₁.Live σ.clock ∧ ∃ coldkey, s₁.coldkeyScope = some coldkey ∧
        ColdkeyStillLinked σ.db coldkey s₁.accountId

/-! ## The invariant -/

/-- The committed row of a session that was read. -/
structure SameSession (s s₁ : AccountSession) : Prop where
  id : s₁.id = s.id
  accountId : s₁.accountId = s.accountId
  kind : s₁.kind = s.kind
  scope : s₁.coldkeyScope = s.coldkeyScope

/-- What a request with a token stands on. -/
def RequestStands (db : AuthDatabase) (r : BearerRequest) : Prop :=
  match r.phase with
  | .resolved s => s.kind = .bearer ∧
      ∃ s₁ ∈ db.sessions.rows, SameSession s s₁ ∧ s₁.tokenSha256 = r.token ∧ s₁.revokedAt = none
  | .admitted s => ∃ s₁ ∈ db.sessions.rows, s₁.id = s.id ∧ s₁.tokenSha256 = r.token
  | _ => True

/-- The last count of a request, with what was opened since, is no less than what is live. -/
def Counted (db : AuthDatabase) (v : CliVerify) : Prop :=
  match v.phase with
  | .claimed c (.done live overtaken) =>
    liveSessionCount (c.writes db) c.accountId .bearer v.now ≤ live + overtaken
  | _ => True

structure CliInv (cfg : CliSettings) (σ₀ σ : Site) : Prop extends CliSound σ where
  requests : ∀ r ∈ σ.requests.rows, RequestStands σ.db r
  counted : ∀ v ∈ σ.verifying.rows, Counted σ.db v
  ceiling : ∀ accountId,
    liveSessionCount σ.db accountId .bearer σ.clock ≤ cfg.cliSessionsPerAccount
  origin : ∀ s ∈ σ.db.sessions.rows, (∃ s₀ ∈ σ₀.db.sessions.rows, s₀.id = s.id) ∨
    ∃ v ∈ σ.verifying.rows, ∃ c, v.phase = .minted c s.id

section Inv

variable {cfg : CliSettings} {σ₀ σ : Site} {db' : AuthDatabase} {clock clock' : Instant}
  {v : CliVerify} {spent : Option Uuid} {opened : List AccountSession}
  {ended : AccountSession → Prop}

/-- A request with a token outlasts a step that spares its session. -/
theorem requestStands_evolves {db : AuthDatabase} {r : BearerRequest}
    (h : Evolves cfg clock spent opened ended db db')
    (hspares : ∀ s ∈ r.between, ∀ s₁, SameSession s s₁ → ¬ ended s₁) (hr : RequestStands db r) :
    RequestStands db' r := by
  obtain ⟨f, hrows, hf⟩ := h.sessions
  have hmem : ∀ {s}, s ∈ db.sessions.rows → f s ∈ db'.sessions.rows := fun hs ↦ by
    rw [hrows]
    exact List.mem_append_left _ (List.mem_map_of_mem hs)
  unfold RequestStands BearerRequest.between at *
  split
  · rename_i s hphase
    simp only [hphase] at hr hspares
    obtain ⟨hkind, s₁, hs₁, hsame, htoken, hnone⟩ := hr
    obtain ⟨hstep, hlasts⟩ := hf s₁ hs₁
    exact ⟨hkind, f s₁, hmem hs₁,
      ⟨hstep.id.trans hsame.id, hstep.accountId.trans hsame.accountId,
        hstep.kind.trans hsame.kind, hstep.scope.trans hsame.scope⟩,
      hstep.token.trans htoken, hlasts hnone (hspares s rfl s₁ hsame)⟩
  · rename_i s hphase
    simp only [hphase] at hr
    obtain ⟨s₁, hs₁, hid, htoken⟩ := hr
    obtain ⟨hstep, -⟩ := hf s₁ hs₁
    exact ⟨f s₁, hmem hs₁, hstep.id.trans hid, hstep.token.trans htoken⟩
  · trivial

/-- A count stays good where no session is opened. -/
theorem counted_evolves (h : Evolves cfg clock spent [] ended σ.db db') (hle : v.now ≤ clock)
    (hv : Counted σ.db v) : Counted db' v := by
  unfold Counted at *
  split
  · rename_i c live overtaken hphase
    simp only [hphase] at hv
    exact (liveSessionCount_writes_evolves c h hle).trans (by simpa using hv)
  · trivial

/-- A step of the others. -/
theorem CliInv.evolves (h : CliInv cfg σ₀ σ) (hdb : Evolves cfg σ.clock none [] ended σ.db db')
    (hspares : ∀ r ∈ σ.requests.rows, ∀ s ∈ r.between, ∀ s₁, SameSession s s₁ → ¬ ended s₁) :
    CliInv cfg σ₀ { σ with db := db' } where
  toCliSound := h.toCliSound.evolves hdb le_rfl σ.requests
  requests := fun r hr ↦ requestStands_evolves hdb (hspares r hr) (h.requests r hr)
  counted := fun v hv ↦ counted_evolves hdb (h.past v hv) (h.counted v hv)
  ceiling := fun accountId ↦ (liveSessionCount_evolves hdb le_rfl).trans (by
    simpa using h.ceiling accountId)
  origin := fun s hs ↦ by
    obtain ⟨f, hrows, hf⟩ := hdb.sessions
    rw [List.append_nil] at hrows
    obtain ⟨s', hs', rfl⟩ := List.mem_map.mp (hrows ▸ hs)
    rw [(hf s' hs').1.id]
    exact h.origin s' hs'

theorem CliInv.evolves_nothing (h : CliInv cfg σ₀ σ)
    (hdb : Evolves cfg σ.clock none [] (fun _ ↦ False) σ.db db') :
    CliInv cfg σ₀ { σ with db := db' } :=
  h.evolves hdb fun _ _ _ _ _ _ ↦ id

/-- The next statement of a `cli_verify`, up to the mint. -/
theorem CliInv.move (h : CliInv cfg σ₀ σ) (hv : v ∈ σ.verifying.rows) {phase : VerifyPhase}
    (hsound : CliSound (σ.move v phase)) (hcounted : Counted σ.db (v.at phase))
    (hunminted : ∀ c id, v.phase ≠ .minted c id) : CliInv cfg σ₀ (σ.move v phase) where
  toCliSound := hsound
  requests := h.requests
  counted := fun w hw ↦ by
    rcases (Site.mem_move hv).mp hw with ⟨hw, -⟩ | rfl
    · exact h.counted w hw
    · exact hcounted
  ceiling := h.ceiling
  origin := fun s hs ↦ by
    rcases h.origin s hs with hold | ⟨w, hw, c, hminted⟩
    · exact Or.inl hold
    · refine Or.inr ⟨w, (Site.mem_move hv).mpr (Or.inl ⟨hw, fun hid ↦ ?_⟩), c, hminted⟩
      cases σ.verifying.eq_of_key hw hv hid
      exact hunminted c _ hminted

theorem SameSession.selects {s s₁ : AccountSession} (h : SameSession s s₁) {r : Revocation}
    (hr : r.Selects s₁) : r.Selects s := by
  unfold Revocation.Selects at *
  rw [h.id, h.accountId, h.kind, h.scope] at hr
  exact hr

/-! ## Minting -/

/-- The other counts, after a session was opened that none of them knows of. -/
theorem counted_overtake {n : NewSession} {accountId : Uuid}
    (h : Evolves cfg clock spent [n.row] ended σ.db db') (hle : v.now ≤ clock)
    (haccount : n.accountId = accountId) (hv : Counted σ.db v) :
    Counted db' (v.overtake accountId) := by
  unfold CliVerify.overtake
  split
  · rename_i c live overtaken hphase
    unfold Counted at hv
    simp only [hphase] at hv
    have hcount : liveSessionCount (c.writes db') c.accountId .bearer v.now ≤
        liveSessionCount (c.writes σ.db) c.accountId .bearer v.now +
          [n.row].countP (·.LiveOf c.accountId .bearer v.now) :=
      liveSessionCount_writes_evolves c h hle
    split
    · calc liveSessionCount (c.writes db') c.accountId .bearer v.now
          ≤ (live + overtaken) + 1 := hcount.trans (Nat.add_le_add hv (countP_singleton_le n.row))
        _ = live + (overtaken + 1) := Nat.add_assoc _ _ _
    · rename_i hne
      unfold Counted
      simp only [hphase]
      rw [countP_singleton_of_ne fun he ↦ hne (he.symm.trans haccount)] at hcount
      exact hcount.trans hv
  · rename_i hnot
    unfold Counted
    split
    · rename_i c live overtaken hphase
      exact absurd hphase (hnot c live overtaken)
    · trivial

theorem inv_mint (h : CliInv cfg σ₀ σ) (hv : v ∈ σ.verifying.rows) {c : Claim}
    {live overtaken : ℕ} (hphase : v.phase = .claimed c (.done live overtaken))
    (hroom : v.HasRoom cfg σ) (draw : TokenDraw) : CliInv cfg σ₀ (mint cfg σ v c draw) := by
  have hsound : CliSound (mint cfg σ v c draw) := sound_mint h.toCliSound hv hphase draw
  unfold CliVerify.HasRoom at hroom
  simp only [hphase] at hroom
  unfold mint at *
  split
  · rename_i e he
    rw [he] at hsound
    exact h.move hv hsound trivial fun c id hminted ↦ by rw [hphase] at hminted; cases hminted
  · rename_i db' hdb
    rw [hdb] at hsound
    have hevolves : Evolves cfg σ.clock (some c.challengeId) [(bearerSession cfg v c draw).row]
        (·.id ∈ c.evicted) σ.db db' := evolves_mint hdb
    refine ⟨hsound, fun r hr ↦ requestStands_evolves hevolves (fun s hs s₁ hsame ↦ ?_)
      (h.requests r hr), fun w hw ↦ ?_, fun accountId ↦ ?_, fun s hs ↦ ?_⟩
    · rw [hsame.id]
      exact hroom.2 r hr s hs
    · rcases (mem_minted hv).mp hw with ⟨u, hu, -, rfl⟩ | rfl
      · exact counted_overtake hevolves (h.past u hu) rfl (h.counted u hu)
      · trivial
    · by_cases haccount : c.accountId = accountId
      · subst haccount
        have hcounted := h.counted v hv
        unfold Counted at hcounted
        simp only [hphase] at hcounted
        have hnow := (liveSessionCount_antitone (h.past v hv)).trans hcounted
        calc liveSessionCount db' c.accountId .bearer σ.clock
            = liveSessionCount (c.writes σ.db) c.accountId .bearer σ.clock +
                [(bearerSession cfg v c draw).row].countP
                  (·.LiveOf c.accountId .bearer σ.clock) := liveSessionCount_mint hdb
          _ ≤ (live + overtaken) + 1 := Nat.add_le_add hnow (countP_singleton_le _)
          _ ≤ cfg.cliSessionsPerAccount := hroom.1
      · have hcount : liveSessionCount db' accountId .bearer σ.clock ≤
            liveSessionCount σ.db accountId .bearer σ.clock +
              [(bearerSession cfg v c draw).row].countP (·.LiveOf accountId .bearer σ.clock) :=
          liveSessionCount_evolves hevolves le_rfl
        rw [countP_singleton_of_ne haccount] at hcount
        exact hcount.trans (h.ceiling accountId)
    · obtain ⟨f, hrows, hf⟩ := hevolves.sessions
      rcases List.mem_append.mp (hrows ▸ hs : s ∈ _) with hs | hs
      · obtain ⟨s', hs', rfl⟩ := List.mem_map.mp hs
        rw [(hf s' hs').1.id]
        rcases h.origin s' hs' with hold | ⟨w, hw, c', hminted⟩
        · exact Or.inl hold
        · refine Or.inr ⟨w, ?_, c', hminted⟩
          have hne : w.id ≠ v.id := fun hid ↦ by
            rw [σ.verifying.eq_of_key hw hv hid, hphase] at hminted
            cases hminted
          have hsame : w.overtake c.accountId = w := by
            unfold CliVerify.overtake
            rw [hminted]
          exact (mem_minted hv).mpr (Or.inl ⟨w, hw, hne, hsame.symm⟩)
      · rw [List.mem_singleton.mp hs]
        exact Or.inr ⟨v.at (.minted c draw.id), (mem_minted hv).mpr (Or.inr rfl), c, rfl⟩

theorem inv_evictStep (h : CliInv cfg σ₀ σ) (hv : v ∈ σ.verifying.rows) {c : Claim}
    {e : Eviction} (hphase : v.phase = .claimed c e) (hroom : v.HasRoom cfg σ)
    (draw : TokenDraw) : CliInv cfg σ₀ (evictStep cfg σ v c draw e) := by
  have hunminted : ∀ c id, v.phase ≠ .minted c id := fun c id hminted ↦ by
    rw [hphase] at hminted
    cases hminted
  have hmove : ∀ {c' : Claim} {e' : Eviction}, c'.challengeId = c.challengeId →
      c'.started = c.started → Counted σ.db (v.at (.claimed c' e')) →
      CliInv cfg σ₀ (σ.move v (.claimed c' e')) := fun hid hstarted hcounted ↦
    h.move hv (h.toCliSound.move_claimed hv hphase hid hstarted) hcounted hunminted
  cases e with
  | counting =>
    refine hmove rfl rfl ?_
    by_cases hlive : liveSessionCount (c.writes σ.db) c.accountId .bearer v.now <
        cfg.cliSessionsPerAccount
    · rw [if_pos hlive]
      exact le_rfl
    · rw [if_neg hlive]
      trivial
  | surplus =>
    simp only [evictStep]
    split
    · rename_i hnone
      exact hmove rfl rfl (liveSessionCount_eq_zero hnone).le
    · exact hmove rfl rfl trivial
  | chosen oldest =>
    simp only [evictStep]
    split
    · exact h
    · split
      · exact hmove rfl rfl trivial
      · exact hmove rfl rfl trivial
  | done live overtaken => exact inv_mint h hv hphase hroom draw

theorem inv_verifyStep (h : CliInv cfg σ₀ σ) (hv : v ∈ σ.verifying.rows)
    (hroom : v.HasRoom cfg σ) (draw : TokenDraw) : CliInv cfg σ₀ (verifyStep cfg σ v draw) := by
  have hsound : CliSound (verifyStep cfg σ v draw) := sound_verifyStep h.toCliSound hv draw
  by_cases hminted : ∃ c id, v.phase = .minted c id
  · obtain ⟨c, id, hphase⟩ := hminted
    simp only [verifyStep, hphase]
    exact h
  have hmove : ∀ {phase : VerifyPhase}, CliSound (σ.move v phase) → Counted σ.db (v.at phase) →
      CliInv cfg σ₀ (σ.move v phase) := fun hsound hcounted ↦
    h.move hv hsound hcounted fun c id hphase ↦ hminted ⟨c, id, hphase⟩
  revert hsound
  unfold verifyStep
  split
  · split
    · exact fun hsound ↦ hmove hsound trivial
    · split
      · exact fun hsound ↦ hmove hsound trivial
      · split
        · exact fun hsound ↦ hmove hsound trivial
        · exact fun hsound ↦ hmove hsound trivial
  · split
    · exact fun _ ↦ h
    · rename_i challengeId _ _
      exact fun hsound ↦ (h.evolves_nothing (evolves_recordFailedAttempt challengeId)).move hv hsound
        trivial fun c id hphase ↦ hminted ⟨c, id, hphase⟩
  · split
    · exact fun hsound ↦ hmove hsound trivial
    · exact fun hsound ↦ hmove hsound trivial
  · split
    · exact fun hsound ↦ hmove hsound trivial
    · split
      · exact fun _ ↦ h
      · exact fun hsound ↦ hmove hsound trivial
  · rename_i c e hphase
    exact fun _ ↦ inv_evictStep h hv hphase hroom draw
  · exact fun _ ↦ h
  · exact fun _ ↦ h

/-! ## Requests with a token -/

theorem CliInv.answer (h : CliInv cfg σ₀ σ) {r : BearerRequest} (hr : r ∈ σ.requests.rows)
    {phase : RequestPhase} (hstands : RequestStands σ.db (r.at phase)) :
    CliInv cfg σ₀ (σ.answer r phase) where
  toCliSound := { h.toCliSound with }
  requests := fun q hq ↦ by
    rcases (Site.mem_answer hr).mp hq with ⟨hq, -⟩ | rfl
    · exact h.requests q hq
    · exact hstands
  counted := h.counted
  ceiling := h.ceiling
  origin := h.origin

theorem evolves_refresh (h : CliInv cfg σ₀ σ) {r : BearerRequest} (hr : r ∈ σ.requests.rows)
    {s : AccountSession} (hphase : r.phase = .admitted s) {now : Instant}
    (htimely : Timely σ r now) (expiresAt : Instant) :
    Evolves cfg σ.clock none [] (fun _ ↦ False) σ.db
      (touchSession σ.db s.id now expiresAt cfg.refreshAfter (some cfg.maxLifetime)) := by
  refine evolves_touchSession fun s₂ hs₂ hid hlive ↦ ?_
  have hstands := h.requests r hr
  unfold RequestStands at hstands
  simp only [hphase] at hstands
  obtain ⟨s₁, hs₁, hid₁, htoken⟩ := hstands
  cases σ.db.sessions.eq_of_key hs₂ hs₁ (hid.trans hid₁.symm)
  have := htimely s₂ hs₁ htoken
  simp only [hphase] at this
  exact this hlive

theorem inv_requestStep (h : CliInv cfg σ₀ σ) {r : BearerRequest} (hr : r ∈ σ.requests.rows)
    {now : Instant} (htimely : Timely σ r now) : CliInv cfg σ₀ (requestStep cfg σ r now) := by
  unfold requestStep
  split
  · split
    · exact h.answer hr trivial
    · rename_i s hs
      have hs' := List.find?_some hs
      simp only [decide_eq_true_eq] at hs'
      exact h.answer hr ⟨hs'.2.1, s, List.mem_of_find?_eq_some hs, ⟨rfl, rfl, rfl, rfl⟩, hs'.1,
        hs'.2.2.1⟩
  · rename_i s hphase
    have hstands := h.requests r hr
    unfold RequestStands at hstands
    simp only [hphase] at hstands
    obtain ⟨-, s₁, hs₁, hsame, htoken, -⟩ := hstands
    split
    · exact h.answer hr trivial
    · split
      · exact h.answer hr ⟨s₁, hs₁, hsame.id, htoken⟩
      · exact h.answer hr trivial
  · rename_i s hphase
    split
    · exact (h.evolves_nothing (evolves_refresh h hr hphase htimely _)).answer hr trivial
    · exact h
  · exact h
  · exact h

end Inv

/-! ## Every step -/

section Steps

variable {cfg : CliSettings} {σ₀ σ : Site}

theorem inv_revoke (h : CliInv cfg σ₀ σ) {r : Revocation} {snapshot : List Uuid}
    (hspares : σ.Spares fun s ↦ r.Selects s ∧ s.id ∈ snapshot) :
    CliInv cfg σ₀ { σ with db := revokeSelected σ.db r snapshot σ.clock } := by
  have hevolves : Evolves cfg σ.clock none [] (fun s ↦ r.Selects s ∧ s.id ∈ snapshot) σ.db
      (revokeSelected σ.db r snapshot σ.clock) :=
    evolves_revokeSessions σ.clock fun s hs ↦ of_decide_eq_true hs
  refine h.evolves hevolves fun q hq s hs s₁ hsame hended ↦ hspares q hq s hs ?_
  exact ⟨hsame.selects hended.1, hsame.id ▸ hended.2⟩

theorem inv_step (h : CliInv cfg σ₀ σ) (a : CliAction) (hok : Orderly cfg σ a) :
    CliInv cfg σ₀ (cliStep cfg σ a) := by
  cases a with
  | tick duration =>
    have hle : σ.clock ≤ σ.clock + duration := Int.le_add_of_nonneg_right (Int.natCast_nonneg _)
    have hsame : Evolves cfg σ.clock none [] (fun _ ↦ False) σ.db σ.db := evolves_of_same rfl rfl
    exact
      { toCliSound := h.toCliSound.evolves hsame hle σ.requests
        requests := h.requests
        counted := h.counted
        ceiling := fun accountId ↦ (liveSessionCount_antitone hle).trans (h.ceiling accountId)
        origin := h.origin }
  | createChallenge n =>
    simp only [cliStep]
    split
    · exact h
    · rename_i db hdb
      exact h.evolves_nothing (evolves_createChallenge hdb)
  | linkWallet w =>
    simp only [cliStep]
    split
    · exact h
    · rename_i db hdb
      simp only [linkWallet, bind_eq_ok, need_eq_ok] at hdb
      obtain ⟨wallets, -, hdb⟩ := hdb
      cases hdb
      exact h.evolves_nothing (evolves_of_same rfl rfl)
  | unlinkWallet coldkey => exact h.evolves_nothing (evolves_of_same rfl rfl)
  | revoke r snapshot =>
    simp only [cliStep, revokeStep]
    split
    · exact h
    · exact inv_revoke h hok
  | designate accountId coldkey previous snapshot =>
    simp only [cliStep, designateStep]
    split
    · exact h
    · rename_i db hdb
      simp only [setSubmissionColdkey, bind_eq_ok, require_eq_ok] at hdb
      obtain ⟨_, -, hdb⟩ := hdb
      cases hdb
      split
      · exact h.evolves_nothing (evolves_of_same rfl rfl)
      · rename_i key
        split
        · exact h.evolves_nothing (evolves_of_same rfl rfl)
        · rename_i hne
          split
          · exact h
          · exact (inv_revoke h (hok key rfl hne)).evolves_nothing (evolves_of_same rfl rfl)
  | beginVerify id address nonce signature =>
    have hmem : ∀ v ∈ (cliStep cfg σ (.beginVerify id address nonce signature)).verifying.rows,
        v ∈ σ.verifying.rows ∨ v = ⟨id, address, nonce, signature, σ.clock, .begun⟩ := fun v hv ↦
      (Table.mem_insertNew.mp hv).imp_right And.left
    exact
      { secrets := h.secrets
        once := fun v hv w hw i hi hi' ↦ by
          rcases hmem v hv with hv | rfl
          · rcases hmem w hw with hw | rfl
            · exact h.once v hv w hw i hi hi'
            · cases hi'
          · cases hi
        past := fun v hv ↦ by
          rcases hmem v hv with hv | rfl
          · exact h.past v hv
          · exact le_rfl
        stands := fun v hv ↦ by
          rcases hmem v hv with hv | rfl
          · exact h.stands v hv
          · trivial
        requests := h.requests
        counted := fun v hv ↦ by
          rcases hmem v hv with hv | rfl
          · exact h.counted v hv
          · trivial
        ceiling := h.ceiling
        origin := fun s hs ↦ (h.origin s hs).imp_right fun hminted ↦
          hminted.imp fun v hv ↦ ⟨Table.mem_insertNew.mpr (Or.inl hv.1), hv.2⟩ }
  | verify id draw =>
    simp only [cliStep]
    split
    · exact h
    · rename_i v hv
      obtain ⟨hv, hid⟩ := Table.find?_eq_some.mp hv
      exact inv_verifyStep h hv (hok v hv hid) draw
  | abortVerify id =>
    simp only [cliStep]
    split
    · exact h
    · rename_i v hv
      obtain ⟨hv, -⟩ := Table.find?_eq_some.mp hv
      split
      · exact h
      · rename_i hunminted
        exact h.move hv (h.toCliSound.move_free hv trivial rfl) trivial hunminted
  | beginRequest id token =>
    exact
      { toCliSound := { h.toCliSound with }
        requests := fun r hr ↦ by
          rcases Table.mem_insertNew.mp hr with hr | ⟨rfl, -⟩
          · exact h.requests r hr
          · trivial
        counted := h.counted
        ceiling := h.ceiling
        origin := h.origin }
  | request id now =>
    simp only [cliStep]
    split
    · exact h
    · rename_i r hr
      obtain ⟨hr, hid⟩ := Table.find?_eq_some.mp hr
      exact inv_requestStep h hr (hok r hr hid)

/-! ### What a step does -/

/-- A step that writes nothing but a phase. -/
theorem evolves_self (cfg : CliSettings) (σ : Site) :
    ∃ spent opened ended, Evolves cfg σ.clock spent opened ended σ.db σ.db :=
  ⟨none, [], fun _ ↦ False, evolves_of_same rfl rfl⟩

theorem evolves_evictStep (v : CliVerify) (c : Claim) (draw : TokenDraw) (e : Eviction) :
    ∃ spent opened ended, Evolves cfg σ.clock spent opened ended
      σ.db (evictStep cfg σ v c draw e).db := by
  cases e with
  | counting => exact evolves_self cfg σ
  | surplus => simp only [evictStep]; split <;> exact evolves_self cfg σ
  | chosen oldest =>
    simp only [evictStep]
    split
    · exact evolves_self cfg σ
    · split <;> exact evolves_self cfg σ
  | done live overtaken =>
    simp only [evictStep, mint]
    split
    · exact evolves_self cfg σ
    · rename_i db' hdb
      exact ⟨_, _, _, evolves_mint hdb⟩

theorem evolves_verifyStep (v : CliVerify) (draw : TokenDraw) :
    ∃ spent opened ended, Evolves cfg σ.clock spent opened ended
      σ.db (verifyStep cfg σ v draw).db := by
  unfold verifyStep
  split
  · split
    · exact evolves_self cfg σ
    · split
      · exact evolves_self cfg σ
      · split <;> exact evolves_self cfg σ
  · split
    · exact evolves_self cfg σ
    · exact ⟨none, [], fun _ ↦ False, evolves_recordFailedAttempt _⟩
  · split <;> exact evolves_self cfg σ
  · split
    · exact evolves_self cfg σ
    · split <;> exact evolves_self cfg σ
  · exact evolves_evictStep v _ draw _
  · exact evolves_self cfg σ
  · exact evolves_self cfg σ

/-- Every step does to the rows what a step may. -/
theorem evolves_step (h : CliInv cfg σ₀ σ) (a : CliAction) (hok : Orderly cfg σ a) :
    ∃ spent opened ended, Evolves cfg σ.clock spent opened ended σ.db (cliStep cfg σ a).db := by
  have hrevoke : ∀ {db : AuthDatabase} (r : Revocation) (snapshot : List Uuid),
      db.challenges = σ.db.challenges → db.sessions = σ.db.sessions →
      ∃ spent opened ended, Evolves cfg σ.clock spent opened ended σ.db
        (revokeSelected db r snapshot σ.clock) := fun {db} r snapshot hchallenges hsessions ↦ by
    have hevolves : Evolves cfg σ.clock none [] (fun s ↦ r.Selects s ∧ s.id ∈ snapshot) db
        (revokeSelected db r snapshot σ.clock) :=
      evolves_revokeSessions σ.clock fun s hs ↦ of_decide_eq_true hs
    exact ⟨_, _, _, hevolves.of_same hchallenges hsessions⟩
  cases a with
  | tick duration => exact evolves_self cfg σ
  | createChallenge n =>
    simp only [cliStep]
    split
    · exact evolves_self cfg σ
    · rename_i db hdb
      exact ⟨none, [], fun _ ↦ False, evolves_createChallenge hdb⟩
  | linkWallet w =>
    simp only [cliStep]
    split
    · exact evolves_self cfg σ
    · rename_i db hdb
      simp only [linkWallet, bind_eq_ok, need_eq_ok] at hdb
      obtain ⟨wallets, -, hdb⟩ := hdb
      cases hdb
      exact ⟨none, [], fun _ ↦ False, evolves_of_same rfl rfl⟩
  | unlinkWallet coldkey => exact ⟨none, [], fun _ ↦ False, evolves_of_same rfl rfl⟩
  | revoke r snapshot =>
    simp only [cliStep, revokeStep]
    split
    · exact evolves_self cfg σ
    · exact hrevoke r snapshot rfl rfl
  | designate accountId coldkey previous snapshot =>
    simp only [cliStep, designateStep]
    split
    · exact evolves_self cfg σ
    · rename_i db hdb
      simp only [setSubmissionColdkey, bind_eq_ok, require_eq_ok] at hdb
      obtain ⟨_, -, hdb⟩ := hdb
      cases hdb
      split
      · exact ⟨none, [], fun _ ↦ False, evolves_of_same rfl rfl⟩
      · rename_i key
        split
        · exact ⟨none, [], fun _ ↦ False, evolves_of_same rfl rfl⟩
        · split
          · exact evolves_self cfg σ
          · exact hrevoke (.coldkey key) snapshot rfl rfl
  | beginVerify id address nonce signature => exact evolves_self cfg σ
  | verify id draw =>
    simp only [cliStep]
    split
    · exact evolves_self cfg σ
    · exact evolves_verifyStep _ draw
  | abortVerify id =>
    simp only [cliStep]
    split
    · exact evolves_self cfg σ
    · split <;> exact evolves_self cfg σ
  | beginRequest id token => exact evolves_self cfg σ
  | request id now =>
    simp only [cliStep]
    split
    · exact evolves_self cfg σ
    · rename_i r hr
      obtain ⟨hr, hid⟩ := Table.find?_eq_some.mp hr
      unfold requestStep
      split
      · split <;> exact evolves_self cfg σ
      · split
        · exact evolves_self cfg σ
        · split <;> exact evolves_self cfg σ
      · rename_i s hphase
        split
        · exact ⟨_, _, _, evolves_refresh h hr hphase (hok r hr hid) _⟩
        · exact evolves_self cfg σ
      · exact evolves_self cfg σ
      · exact evolves_self cfg σ

/-- The other steps leave the requests alone, but for those that arrive. -/
theorem mem_requests_step {a : CliAction} (ha : ¬ ∃ id now, a = .request id now)
    {q : BearerRequest} (hq : q ∈ (cliStep cfg σ a).requests.rows) :
    q ∈ σ.requests.rows ∨ q.phase = .begun := by
  have hverify : ∀ (v : CliVerify) (draw : TokenDraw),
      (verifyStep cfg σ v draw).requests = σ.requests := fun v draw ↦ by
    unfold verifyStep evictStep mint
    repeat' split
    all_goals rfl
  cases a with
  | request id now => exact absurd ⟨id, now, rfl⟩ ha
  | beginRequest id token =>
    rcases Table.mem_insertNew.mp hq with hq | ⟨rfl, -⟩
    · exact Or.inl hq
    · exact Or.inr rfl
  | verify id draw =>
    simp only [cliStep] at hq
    split at hq
    · exact Or.inl hq
    · rw [hverify] at hq
      exact Or.inl hq
  | designate accountId coldkey previous snapshot =>
    simp only [cliStep, designateStep] at hq
    repeat' split at hq
    all_goals exact Or.inl hq
  | revoke r snapshot =>
    simp only [cliStep, revokeStep] at hq
    split at hq <;> exact Or.inl hq
  | createChallenge n =>
    simp only [cliStep] at hq
    split at hq <;> exact Or.inl hq
  | linkWallet w =>
    simp only [cliStep] at hq
    split at hq <;> exact Or.inl hq
  | abortVerify id =>
    simp only [cliStep] at hq
    repeat' split at hq
    all_goals exact Or.inl hq
  | tick duration => exact Or.inl hq
  | unlinkWallet coldkey => exact Or.inl hq
  | beginVerify id address nonce signature => exact Or.inl hq

/-- A request is admitted by the read of its link, where its session stands. -/
theorem admitted_requestStep (h : CliInv cfg σ₀ σ) {r : BearerRequest}
    (hr : r ∈ σ.requests.rows) {now : Instant} (htimely : Timely σ r now) {q : BearerRequest}
    (hq : q ∈ (requestStep cfg σ r now).requests.rows) {s : AccountSession}
    (hadmitted : q.phase = .admitted s) : q ∈ σ.requests.rows ∨
      ∃ s₁ ∈ σ.db.sessions.rows, s₁.id = s.id ∧ s₁.tokenSha256 = q.token ∧ s₁.kind = .bearer ∧
        s₁.Live σ.clock ∧ ∃ coldkey, s₁.coldkeyScope = some coldkey ∧
          ColdkeyStillLinked σ.db coldkey s₁.accountId := by
  have hanswer : ∀ {σ' : Site} {phase : RequestPhase}, σ'.requests = σ.requests →
      (∀ s, phase ≠ .admitted s) → q ∈ (σ'.answer r phase).requests.rows →
      q ∈ σ.requests.rows := fun {σ'} {phase} hsame hphase hq ↦ by
    have hq : q ∈ (σ.answer r phase).requests.rows := by
      unfold Site.answer at hq ⊢
      rw [hsame] at hq
      exact hq
    rcases (Site.mem_answer hr).mp hq with ⟨hq, -⟩ | rfl
    · exact hq
    · exact absurd hadmitted (hphase s)
  revert hq
  unfold requestStep
  split
  · split
    · exact fun hq ↦ Or.inl (hanswer rfl (by intro _ h; cases h) hq)
    · exact fun hq ↦ Or.inl (hanswer rfl (by intro _ h; cases h) hq)
  · rename_i s₀ hphase
    have hstands := h.requests r hr
    unfold RequestStands at hstands
    simp only [hphase] at hstands
    obtain ⟨hkind, s₁, hs₁, hsame, htoken, hnone⟩ := hstands
    split
    · exact fun hq ↦ Or.inl (hanswer rfl (by intro _ h; cases h) hq)
    · rename_i coldkey hscope
      split
      · rename_i hlinked
        intro hq
        rcases (Site.mem_answer hr).mp hq with ⟨hq, -⟩ | rfl
        · exact Or.inl hq
        · cases hadmitted
          have hexpires := htimely s₁ hs₁ htoken
          simp only [hphase] at hexpires
          exact Or.inr ⟨s₁, hs₁, hsame.id, htoken, hsame.kind.trans hkind, ⟨hnone, hexpires⟩,
            coldkey, hsame.scope.trans hscope, hsame.accountId ▸ hlinked⟩
      · exact fun hq ↦ Or.inl (hanswer rfl (by intro _ h; cases h) hq)
  · split
    · exact fun hq ↦ Or.inl (hanswer rfl (by intro _ h; cases h) hq)
    · exact Or.inl
  · exact Or.inl
  · exact Or.inl

theorem stepKept (h : CliInv cfg σ₀ σ) (a : CliAction) (hok : Orderly cfg σ a) :
    StepKept cfg σ (cliStep cfg σ a) where
  sessions := fun s hs ↦ by
    obtain ⟨spent, opened, ended, hevolves⟩ := evolves_step h a hok
    obtain ⟨f, hrows, hf⟩ := hevolves.sessions
    refine ⟨f s, ?_, (hf s hs).1⟩
    rw [hrows]
    exact List.mem_append_left _ (List.mem_map_of_mem hs)
  admitted := fun q hq s hadmitted ↦ by
    by_cases hrequest : ∃ id now, a = .request id now
    · obtain ⟨id, now, rfl⟩ := hrequest
      simp only [cliStep] at hq
      split at hq
      · exact Or.inl hq
      · rename_i r hr
        obtain ⟨hr, hid⟩ := Table.find?_eq_some.mp hr
        exact admitted_requestStep h hr (hok r hr hid) hq hadmitted
    · rcases mem_requests_step hrequest hq with hq | hbegun
      · exact Or.inl hq
      · rw [hbegun] at hadmitted
        cases hadmitted

/-! ## Every run -/

/-- Nobody is being served, no two challenges share a secret, and the ceiling holds. -/
structure Start (cfg : CliSettings) (σ : Site) : Prop where
  verifying : σ.verifying = .empty _
  requests : σ.requests = .empty _
  secrets : Unique LoginChallenge.secretIdx σ.db.challenges.rows
  ceiling : ∀ accountId,
    liveSessionCount σ.db accountId .bearer σ.clock ≤ cfg.cliSessionsPerAccount

theorem Start.inv (h : Start cfg σ₀) : CliInv cfg σ₀ σ₀ where
  secrets := h.secrets
  once := by rw [h.verifying]; intro v hv; cases hv
  past := by rw [h.verifying]; intro v hv; cases hv
  stands := by rw [h.verifying]; intro v hv; cases hv
  requests := by rw [h.requests]; intro r hr; cases hr
  counted := by rw [h.verifying]; intro v hv; cases hv
  ceiling := h.ceiling
  origin := fun s hs ↦ Or.inl ⟨s, hs, rfl⟩

theorem CliInv.kept (h : CliInv cfg σ₀ σ) : Kept cfg σ₀ σ where
  once := fun v hv w hw c c' id id' hminted hminted' hid ↦ by
    refine h.once v hv w hw c.challengeId ?_ ?_
    · unfold CliVerify.challengeIdx
      rw [hminted]
    · unfold CliVerify.challengeIdx
      rw [hminted', hid]
  own := fun v hv c id hminted ↦ by
    have hstands := h.stands v hv
    unfold Stands at hstands
    simp only [hminted] at hstands
    obtain ⟨⟨ch, hch, hid, hkind, hss58, hconsumed⟩, s, hs, hsid, -, hbearer, hscope⟩ := hstands
    exact ⟨ch, hch, hid, hkind, hconsumed, s, hs, hsid, hbearer, hscope.trans hss58.symm⟩
  origin := h.origin
  ceiling := h.ceiling

/-- In every orderly run: a challenge mints one session, for its kind and address; a token is
admitted while its session takes requests and its coldkey is linked; no session comes back and
no renewal passes the cap; and no account has more sessions than it may. -/
theorem cli_sessions_kept (cfg : CliSettings) {σ₀ : Site} (hstart : Start cfg σ₀)
    {as : List CliAction} (has : Each (cliStep cfg) (Orderly cfg) σ₀ as) :
    Kept cfg σ₀ (run (cliStep cfg) σ₀ as) ∧
      Each (cliStep cfg) (fun σ a ↦ StepKept cfg σ (cliStep cfg σ a)) σ₀ as := by
  have hstep : ∀ σ a, Orderly cfg σ a → CliInv cfg σ₀ σ → CliInv cfg σ₀ (cliStep cfg σ a) :=
    fun σ a hok h ↦ inv_step h a hok
  exact ⟨(has.invariant hstep hstart.inv).kept,
    has.imp hstep (fun σ a hok h ↦ stepKept h a hok) hstart.inv⟩

end Steps

/-! ### At the default settings -/

/-- Signatures that can be read. -/
def defaultCliSettings : CliSettings where
  verifySignature := fun address message signature ↦ signature = address ++ " signs " ++ message
  challengeAttempts := 5
  cliSessionDays := 14
  cliSessionMaxDays := 90
  cliSessionsPerAccount := 10
  sessionRefreshMinutes := 10

/-- One account with one coldkey, and with nine rigs signed in. -/
def nineRigs : Site where
  db :=
    { AuthDatabase.empty with
      accounts := ⟨[⟨1, none, false, none, 0, none, none⟩], by decide⟩
      wallets := ⟨[⟨"5Gx", 1⟩], by decide⟩
      sessions := ⟨(List.range 9).map fun i ↦
        ⟨i, 1, .bearer, "rig " ++ String.ofList (List.replicate i 'i'), some "5Gx", 0, 0,
          1209600000000, none⟩, by decide⟩ }
  clock := 1000000
  verifying := .empty _
  requests := .empty _

theorem start_nineRigs : Start defaultCliSettings nineRigs where
  verifying := rfl
  requests := rfl
  secrets := by intro c hc; cases hc
  ceiling := fun _ ↦ List.countP_le_length.trans (by decide)

/-- A challenge for the coldkey. -/
def challengeFor (id : Uuid) (nonce : Digest) : NewChallenge :=
  ⟨id, .coldkeySession, none, none, some "5Gx", nonce, some nonce, none, 1000000, 301000000⟩

/-- A tenth rig signs in and asks for something. -/
def tenthRig : List CliAction :=
  [.createChallenge (challengeFor 1 "a"), .beginVerify 1 "5Gx" "a" "5Gx signs a",
    .verify 1 ⟨100, "x"⟩, .verify 1 ⟨100, "x"⟩, .verify 1 ⟨100, "x"⟩, .verify 1 ⟨100, "x"⟩,
    .verify 1 ⟨100, "x"⟩, .tick 1000000, .beginRequest 1 "x", .request 1 0, .request 1 0,
    .request 1 2000000]

theorem cli_sessions_kept_tenthRig :
    Kept defaultCliSettings nineRigs (run (cliStep defaultCliSettings) nineRigs tenthRig) ∧
      Each (cliStep defaultCliSettings)
        (fun σ a ↦ StepKept defaultCliSettings σ (cliStep defaultCliSettings σ a))
        nineRigs tenthRig :=
  cli_sessions_kept defaultCliSettings start_nineRigs (by decide +kernel)

/-- Two rigs sign in at once: each counts nine. -/
def twoRigs : List CliAction :=
  [.createChallenge (challengeFor 1 "a"), .createChallenge (challengeFor 2 "b"),
    .beginVerify 1 "5Gx" "a" "5Gx signs a", .beginVerify 2 "5Gx" "b" "5Gx signs b",
    .verify 1 ⟨100, "x"⟩, .verify 1 ⟨100, "x"⟩, .verify 1 ⟨100, "x"⟩, .verify 1 ⟨100, "x"⟩,
    .verify 2 ⟨101, "y"⟩, .verify 2 ⟨101, "y"⟩, .verify 2 ⟨101, "y"⟩, .verify 2 ⟨101, "y"⟩,
    .verify 1 ⟨100, "x"⟩, .verify 2 ⟨101, "y"⟩]

theorem cli_sessions_pass_ceiling :
    ¬ ∀ (cfg : CliSettings) (σ₀ : Site), Start cfg σ₀ → ∀ as : List CliAction,
      Kept cfg σ₀ (run (cliStep cfg) σ₀ as) ∧
        Each (cliStep cfg) (fun σ a ↦ StepKept cfg σ (cliStep cfg σ a)) σ₀ as := by
  intro h
  have hceiling := (h defaultCliSettings nineRigs start_nineRigs twoRigs).1.ceiling 1
  revert hceiling
  decide +kernel

end Conjectures.Auth

import Conjectures.Auth.CliRows

/-!
# Challenges are spent once

A request that claimed a challenge holds its lock, so nobody else can claim it, and the commit
that opens the session is the commit that consumes the challenge.
-/

namespace Conjectures.Auth

open Lib Db

/-! ## The invariant -/

/-- The challenge a request has claimed or spent. -/
def CliVerify.challengeIdx (v : CliVerify) : Option Uuid :=
  match v.phase with
  | .claimed c _ => some c.challengeId
  | .minted c _ => some c.challengeId
  | _ => none

/-- What a request stands on. -/
def Stands (db : AuthDatabase) (clock : Instant) (v : CliVerify) : Prop :=
  match v.phase with
  | .opened challenge started => v.now ≤ started ∧ started ≤ clock ∧
      ∃ ch ∈ db.challenges.rows, ch.secretSha256 = challenge.secretSha256 ∧ ch.ss58 = some v.address
  | .resolved challenge started _ => v.now ≤ started ∧ started ≤ clock ∧
      ∃ ch ∈ db.challenges.rows, ch.secretSha256 = challenge.secretSha256 ∧ ch.ss58 = some v.address
  | .claimed c _ => v.now ≤ c.started ∧ c.started ≤ clock ∧
      ∃ ch ∈ db.challenges.rows, ch.id = c.challengeId ∧ ch.kind = .coldkeySession ∧
        ch.ss58 = some v.address ∧ ch.consumedAt = none
  | .minted c sessionId =>
      (∃ ch ∈ db.challenges.rows, ch.id = c.challengeId ∧ ch.kind = .coldkeySession ∧
        ch.ss58 = some v.address ∧ ch.consumedAt.isSome) ∧
      ∃ s ∈ db.sessions.rows, s.id = sessionId ∧ s.accountId = c.accountId ∧ s.kind = .bearer ∧
        s.coldkeyScope = some v.address
  | _ => True

structure CliSound (σ : Site) : Prop where
  secrets : Unique LoginChallenge.secretIdx σ.db.challenges.rows
  once : Unique CliVerify.challengeIdx σ.verifying.rows
  past : ∀ v ∈ σ.verifying.rows, v.now ≤ σ.clock
  stands : ∀ v ∈ σ.verifying.rows, Stands σ.db σ.clock v

section Sound

variable {cfg : CliSettings} {σ : Site} {db' : AuthDatabase} {clock clock' : Instant}
  {v : CliVerify} {spent : Option Uuid} {opened : List AccountSession}
  {ended : AccountSession → Prop}

/-- What a request stands on outlasts a step that does not spend its challenge. -/
theorem stands_evolves (h : Evolves cfg clock spent opened ended σ.db db') (hle : clock ≤ clock')
    (hspent : ∀ id ∈ spent, v.challengeIdx ≠ some id) (hv : Stands σ.db clock v) :
    Stands db' clock' v := by
  have hchallenge : ∀ {challenge : LoginChallenge},
      (∃ ch ∈ σ.db.challenges.rows, ch.secretSha256 = challenge.secretSha256 ∧
        ch.ss58 = some v.address) →
      ∃ ch ∈ db'.challenges.rows, ch.secretSha256 = challenge.secretSha256 ∧
        ch.ss58 = some v.address := by
    rintro challenge ⟨ch, hch, hsecret, hss58⟩
    obtain ⟨ch', hch', hstep⟩ := h.challenges ch hch
    exact ⟨ch', hch', hstep.secret.trans hsecret, hstep.ss58.trans hss58⟩
  unfold Stands CliVerify.challengeIdx at *
  split
  · rename_i challenge started hphase
    simp only [hphase] at hv
    exact ⟨hv.1, hv.2.1.trans hle, hchallenge hv.2.2⟩
  · rename_i challenge started accountId hphase
    simp only [hphase] at hv
    exact ⟨hv.1, hv.2.1.trans hle, hchallenge hv.2.2⟩
  · rename_i c e hphase
    simp only [hphase] at hv hspent
    obtain ⟨hnow, hstarted, ch, hch, hid, hkind, hss58, hnone⟩ := hv
    obtain ⟨ch', hch', hstep⟩ := h.challenges ch hch
    refine ⟨hnow, hstarted.trans hle, ch', hch', hstep.id.trans hid, hstep.kind.trans hkind,
      hstep.ss58.trans hss58, hstep.unconsumed (fun he ↦ ?_) hnone⟩
    exact hspent ch.id he (by rw [hid])
  · rename_i c sessionId hphase
    simp only [hphase] at hv
    obtain ⟨⟨ch, hch, hid, hkind, hss58, hsome⟩, s, hs, hsid, haccount, hbearer, hscope⟩ := hv
    obtain ⟨ch', hch', hstep⟩ := h.challenges ch hch
    obtain ⟨f, hrows, hf⟩ := h.sessions
    obtain ⟨hsession, -⟩ := hf s hs
    refine ⟨⟨ch', hch', hstep.id.trans hid, hstep.kind.trans hkind, hstep.ss58.trans hss58,
      hstep.consumed hsome⟩, f s, ?_, hsession.id.trans hsid, hsession.accountId.trans haccount,
      hsession.kind.trans hbearer, hsession.scope.trans hscope⟩
    rw [hrows]
    exact List.mem_append_left _ (List.mem_map_of_mem hs)
  · trivial

/-- A step of the others. -/
theorem CliSound.evolves (h : CliSound σ) (hdb : Evolves cfg σ.clock none [] ended σ.db db')
    (hle : σ.clock ≤ clock') (requests : Table BearerRequest.id) :
    CliSound ⟨db', clock', σ.verifying, requests⟩ where
  secrets := hdb.secrets h.secrets
  once := h.once
  past := fun v hv ↦ (h.past v hv).trans hle
  stands := fun v hv ↦ stands_evolves hdb hle (fun _ he ↦ nomatch he) (h.stands v hv)

/-- The next statement of a request, which stands where it gets to. -/
theorem CliSound.move (h : CliSound σ) (hv : v ∈ σ.verifying.rows) {phase : VerifyPhase}
    (hstands : Stands σ.db σ.clock (v.at phase))
    (honce : ∀ id, (v.at phase).challengeIdx = some id →
      ∀ w ∈ σ.verifying.rows, w.id ≠ v.id → w.challengeIdx ≠ some id) :
    CliSound (σ.move v phase) where
  secrets := h.secrets
  once := @Unique.modify _ _ _ _ _ _ _ v (·.at phase) (·.at_id phase) h.once hv honce
  past := fun w hw ↦ by
    rcases (Site.mem_move hv).mp hw with ⟨hw, -⟩ | rfl
    · exact h.past w hw
    · exact h.past v hv
  stands := fun w hw ↦ by
    rcases (Site.mem_move hv).mp hw with ⟨hw, -⟩ | rfl
    · exact h.stands w hw
    · exact hstands

/-- A request that holds no challenge afterwards. -/
theorem CliSound.move_free (h : CliSound σ) (hv : v ∈ σ.verifying.rows) {phase : VerifyPhase}
    (hstands : Stands σ.db σ.clock (v.at phase)) (hfree : (v.at phase).challengeIdx = none) :
    CliSound (σ.move v phase) :=
  h.move hv hstands fun id hid ↦ by rw [hfree] at hid; cases hid

/-- A request that holds the challenge it held. -/
theorem CliSound.move_claimed (h : CliSound σ) (hv : v ∈ σ.verifying.rows) {c c' : Claim}
    {e e' : Eviction} (hphase : v.phase = .claimed c e) (hid : c'.challengeId = c.challengeId)
    (hstarted : c'.started = c.started) : CliSound (σ.move v (.claimed c' e')) := by
  have hstands := h.stands v hv
  unfold Stands at hstands
  simp only [hphase] at hstands
  refine h.move hv ?_ fun id hchallenge w hw hne hw' ↦ hne ?_
  · unfold Stands CliVerify.at
    dsimp only
    rw [hstarted, hid]
    exact hstands
  · have hvid : v.challengeIdx = some id := by
      unfold CliVerify.challengeIdx
      rw [hphase, ← hchallenge]
      exact congrArg some hid.symm
    rw [h.once w hw v hv id hw' hvid]

end Sound

/-! ## Steps -/

section Steps

variable {cfg : CliSettings} {σ : Site} {v : CliVerify} {c : Claim}

theorem locksChallenge_of_claimed {w : CliVerify} (hw : w ∈ σ.verifying.rows) {e : Eviction}
    (hphase : w.phase = .claimed c e) : σ.LocksChallenge c.challengeId :=
  ⟨w, hw, by rw [hphase]⟩

/-- A challenge that can be consumed was not spent, and if it is not locked it was not
claimed. -/
theorem CliSound.unclaimed (h : CliSound σ) {ch : LoginChallenge} (hch : ch ∈ σ.db.challenges.rows)
    (hnone : ch.consumedAt = none) (hfree : ¬ σ.LocksChallenge ch.id) {w : CliVerify}
    (hw : w ∈ σ.verifying.rows) : w.challengeIdx ≠ some ch.id := by
  intro hid
  have hstands := h.stands w hw
  unfold CliVerify.challengeIdx at hid
  unfold Stands at hstands
  split at hid
  · rename_i c e hphase
    exact hfree (Option.some.inj hid ▸ locksChallenge_of_claimed hw hphase)
  · rename_i c sessionId hphase
    simp only [hphase] at hstands
    obtain ⟨⟨ch', hch', hid', -, -, hsome⟩, -⟩ := hstands
    rw [σ.db.challenges.eq_of_key hch' hch (hid'.trans (Option.some.inj hid)), hnone] at hsome
    cases hsome
  · cases hid

theorem overtake_challengeIdx (v : CliVerify) (accountId : Uuid) :
    (v.overtake accountId).challengeIdx = v.challengeIdx := by
  unfold CliVerify.overtake
  split
  · rename_i c live overtaken hphase
    split
    · unfold CliVerify.challengeIdx CliVerify.at
      rw [hphase]
    · rfl
  · rfl

theorem overtake_now (v : CliVerify) (accountId : Uuid) : (v.overtake accountId).now = v.now := by
  unfold CliVerify.overtake
  split
  · split <;> rfl
  · rfl

theorem overtake_stands {db : AuthDatabase} {clock : Instant} {accountId : Uuid}
    (h : Stands db clock v) : Stands db clock (v.overtake accountId) := by
  unfold CliVerify.overtake
  split
  · rename_i c live overtaken hphase
    split
    · unfold Stands CliVerify.at at *
      simp only [hphase] at h
      exact h
    · exact h
  · exact h

theorem overtake_at (v : CliVerify) (accountId : Uuid) (phase : VerifyPhase) :
    (v.overtake accountId).at phase = v.at phase := by
  unfold CliVerify.overtake
  split
  · split <;> rfl
  · rfl

/-- The requests after a session of an account was opened by one of them. -/
theorem mem_minted {db' : AuthDatabase} {accountId : Uuid} {phase : VerifyPhase} {w : CliVerify}
    (hv : v ∈ σ.verifying.rows) :
    w ∈ ((σ.opened db' accountId).move v phase).verifying.rows ↔
      (∃ u ∈ σ.verifying.rows, u.id ≠ v.id ∧ w = u.overtake accountId) ∨ w = v.at phase := by
  have hv' : v.overtake accountId ∈ (σ.opened db' accountId).verifying.rows :=
    Site.mem_opened.mpr ⟨v, hv, rfl⟩
  have hmove : (σ.opened db' accountId).move v phase =
      (σ.opened db' accountId).move (v.overtake accountId) phase := by
    unfold Site.move
    rw [v.overtake_id]
  rw [hmove, Site.mem_move hv', overtake_at, CliVerify.overtake_id]
  refine or_congr ⟨?_, ?_⟩ Iff.rfl
  · rintro ⟨hw, hne⟩
    obtain ⟨u, hu, rfl⟩ := Site.mem_opened.mp hw
    rw [CliVerify.overtake_id] at hne
    exact ⟨u, hu, hne, rfl⟩
  · rintro ⟨u, hu, hne, rfl⟩
    rw [CliVerify.overtake_id]
    exact ⟨Site.mem_opened.mpr ⟨u, hu, rfl⟩, hne⟩

theorem challenges_mint {db' : AuthDatabase} {n : NewSession}
    (h : createSession (c.writes σ.db) n = .ok db') :
    db'.challenges = (consumeChallenge σ.db c.challengeId c.now).challenges := by
  simp only [createSession, bind_eq_ok, require_eq_ok, need_eq_ok] at h
  obtain ⟨_, -, sessions, -, _, -, h⟩ := h
  cases h
  rfl

theorem sound_mint (h : CliSound σ) (hv : v ∈ σ.verifying.rows) {e : Eviction}
    (hphase : v.phase = .claimed c e) (draw : TokenDraw) : CliSound (mint cfg σ v c draw) := by
  unfold mint
  split
  · exact h.move_free hv trivial rfl
  · rename_i db' hdb
    have hevolves : Evolves cfg σ.clock (some c.challengeId) [(bearerSession cfg v c draw).row]
        (·.id ∈ c.evicted) σ.db db' := evolves_mint hdb
    have hvid : v.challengeIdx = some c.challengeId := by
      unfold CliVerify.challengeIdx
      rw [hphase]
    refine ⟨hevolves.secrets h.secrets, fun w hw w' hw' id hid hid' ↦ ?_, fun w hw ↦ ?_,
      fun w hw ↦ ?_⟩
    · have hsplit : ∀ {w : CliVerify}, (∃ u ∈ σ.verifying.rows, u.id ≠ v.id ∧
          w = u.overtake c.accountId) → w.challengeIdx ≠ some c.challengeId := by
        rintro w ⟨u, hu, hne, rfl⟩ hid
        rw [overtake_challengeIdx] at hid
        exact hne (congrArg CliVerify.id (h.once u hu v hv _ hid hvid))
      rcases (mem_minted hv).mp hw with hold | rfl <;>
        rcases (mem_minted hv).mp hw' with hold' | rfl
      · obtain ⟨u, hu, -, rfl⟩ := hold
        obtain ⟨u', hu', -, rfl⟩ := hold'
        rw [overtake_challengeIdx] at hid hid'
        rw [h.once u hu u' hu' id hid hid']
      · exact absurd (hid.trans hid'.symm) (hsplit hold)
      · exact absurd (hid'.trans hid.symm) (hsplit hold')
      · rfl
    · rcases (mem_minted hv).mp hw with ⟨u, hu, -, rfl⟩ | rfl
      · rw [overtake_now]
        exact h.past u hu
      · exact h.past v hv
    · rcases (mem_minted hv).mp hw with ⟨u, hu, hne, rfl⟩ | rfl
      · refine overtake_stands (stands_evolves hevolves le_rfl (fun id hid hu' ↦ hne ?_)
          (h.stands u hu))
        cases hid
        exact congrArg CliVerify.id (h.once u hu v hv _ hu' hvid)
      · have hstands := h.stands v hv
        unfold Stands at hstands
        simp only [hphase] at hstands
        obtain ⟨-, -, ch, hch, hid, hkind, hss58, -⟩ := hstands
        refine ⟨⟨ch.consumed c.now, ?_, hid, hkind, hss58, rfl⟩,
          (bearerSession cfg v c draw).row, ?_, rfl, rfl, rfl, rfl⟩
        · change _ ∈ db'.challenges.rows
          rw [challenges_mint hdb, ← hid]
          exact mem_consumeChallenge hch c.now
        · obtain ⟨f, hrows, -⟩ := hevolves.sessions
          change _ ∈ db'.sessions.rows
          rw [hrows]
          exact List.mem_append_right _ List.mem_cons_self

theorem sound_evictStep (h : CliSound σ) (hv : v ∈ σ.verifying.rows) {e : Eviction}
    (hphase : v.phase = .claimed c e) (draw : TokenDraw) :
    CliSound (evictStep cfg σ v c draw e) := by
  cases e with
  | counting => exact h.move_claimed hv hphase rfl rfl
  | surplus =>
    simp only [evictStep]
    split
    · exact h.move_claimed hv hphase rfl rfl
    · exact h.move_claimed hv hphase rfl rfl
  | chosen oldest =>
    simp only [evictStep]
    split
    · exact h
    · split
      · exact h.move_claimed hv hphase rfl rfl
      · exact h.move_claimed hv hphase rfl rfl
  | done live overtaken => exact sound_mint h hv hphase draw

theorem sound_verifyStep (h : CliSound σ) (hv : v ∈ σ.verifying.rows) (draw : TokenDraw) :
    CliSound (verifyStep cfg σ v draw) := by
  have hstands := h.stands v hv
  unfold Stands at hstands
  unfold verifyStep
  split
  · split
    · exact h.move_free hv trivial rfl
    · rename_i challenge hopen
      have hopen' := List.find?_some hopen
      simp only [decide_eq_true_eq] at hopen'
      split
      · exact h.move_free hv trivial rfl
      · split
        · exact h.move_free hv ⟨h.past v hv, le_rfl, challenge, List.mem_of_find?_eq_some hopen,
            rfl, hopen'.2.1⟩ rfl
        · exact h.move_free hv trivial rfl
  · split
    · exact h
    · rename_i challengeId _ _
      have hevolves : Evolves cfg σ.clock none [] (fun _ ↦ False) σ.db
          (recordFailedAttempt σ.db challengeId) := evolves_recordFailedAttempt challengeId
      exact (h.evolves hevolves le_rfl σ.requests).move_free hv trivial rfl
  · rename_i challenge started hphase
    simp only [hphase] at hstands
    split
    · exact h.move_free hv trivial rfl
    · exact h.move_free hv hstands rfl
  · rename_i challenge started accountId hphase
    simp only [hphase] at hstands
    obtain ⟨hnow, hstarted, ch, hch, hsecret, hss58⟩ := hstands
    split
    · exact h.move_free hv trivial rfl
    · rename_i row hrow
      have hmem := List.mem_of_find?_eq_some hrow
      have hrow' := List.find?_some hrow
      simp only [decide_eq_true_eq] at hrow'
      obtain ⟨hrowsecret, hkind, hnone, -⟩ := hrow'
      split
      · exact h
      · rename_i hfree
        -- the row that is claimed is the row that was read, since no two share a secret
        have hsame : row = ch := h.secrets row hmem ch hch challenge.secretSha256
          (congrArg some hrowsecret) (congrArg some hsecret)
        refine h.move hv ⟨hnow, hstarted, row, hmem, rfl, hkind, hsame ▸ hss58, hnone⟩
          fun id hid w hw _ ↦ ?_
        cases hid
        exact h.unclaimed hmem hnone hfree hw
  · rename_i c e hphase
    exact sound_evictStep h hv hphase draw
  · exact h
  · exact h

end Steps

end Conjectures.Auth

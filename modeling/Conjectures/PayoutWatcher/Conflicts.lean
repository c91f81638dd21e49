import Conjectures.PayoutWatcher.Tail

/-!
# Claims that raise a conflict

A payout of a finalized block is claimed through the reference it has.  An obligation that
carries this reference from an earlier sighting must be the one it pays; otherwise the claim
raises a conflict, the pass ends before it rolls anything back, and the next one ends at the
same place.  So two payouts that exchange their positions between a sighting and finality
hold the cursor for good (`exchanged_payouts_conflict`).  Where finality never reaches a
payout at a position that was seen for another obligation, no claim raises a conflict
(`claims_raise_no_conflict`).
-/

namespace Conjectures.PayoutWatcher

open Lib Db Chain Rewards

/-! ## Why a claim raises a conflict -/

/-- The submission is owed its reward, or has it. -/
def Owing (s : Submission) : Prop := s.rewardStatus = .eligible ∨ s.rewardStatus = .rewarded

instance Owing.decidable (s : Submission) : Decidable (Owing s) := by
  unfold Owing; infer_instance

/-- The writes of a settlement are refused by constraints only. -/
theorem saveEvent_error {db : RewardDatabase} {e : RewardEvent} {f : RewardEvent → RewardEvent}
    {hf : ∀ e, (f e).id = e.id} {error : RewardError} (h : saveEvent db e f hf = .error error) :
    ∃ name, error = .integrityError name := by
  simp only [saveEvent, bind_eq_error, require_eq_error] at h
  rcases h with ⟨-, h⟩ | ⟨-, -, ⟨-, h⟩ | ⟨-, -, h⟩⟩
  · exact ⟨_, h.symm⟩
  · exact ⟨_, h.symm⟩
  · cases h

theorem writeReview_error {db : RewardDatabase} {s : Submission} {review : ManualReviewState}
    {reward : RewardState} {error : RewardError}
    (h : writeReview db s review reward = .error error) :
    ∃ name, error = .integrityError name := by
  simp only [writeReview, bind_eq_error, require_eq_error] at h
  rcases h with ⟨-, h⟩ | ⟨-, -, h⟩
  · exact ⟨_, h.symm⟩
  · cases h

theorem bindRow_error {db : RewardDatabase} {p : TreasuryPayout} {e : RewardEvent}
    {error : RewardError} (h : bindRow db p e = .error error) :
    ∃ name, error = .integrityError name := by
  simp only [bindRow, bind_eq_error, require_eq_error] at h
  rcases h with ⟨-, h⟩ | ⟨-, -, h⟩
  · exact ⟨_, h.symm⟩
  · cases h

theorem settlePayout_conflict {db : RewardDatabase} {e : RewardEvent} {p : TreasuryPayout}
    {message : String} (h : settlePayout db e p = .error (.payoutConflict message)) :
    e.status = .failed ∨ ∀ s ∈ db.submissions.rows, s.id = e.submissionId → ¬ Owing s := by
  simp only [settlePayout, bind_eq_error, require_eq_error, submissionFor, need_eq_error,
    need_eq_ok, not_not] at h
  rcases h with ⟨hfailed, -⟩ | ⟨-, -, ⟨hnone, -⟩ | ⟨s, hs, h⟩⟩
  · exact Or.inl hfailed
  · exact Or.inr fun s hs hid ↦ absurd hid (Table.find?_eq_none.mp hnone s hs)
  · refine Or.inr fun s' hs' hid ↦ ?_
    obtain ⟨hs, hid'⟩ := Table.find?_eq_some.mp hs
    obtain rfl := db.submissions.eq_of_key hs hs' (hid'.trans hid.symm)
    split at h
    · rcases bind_eq_error.mp h with h | ⟨db', -, h⟩
      · obtain ⟨name, h⟩ := bindRow_error h
        cases h
      · cases h
    · simp only [bind_eq_error, require_eq_error] at h
      rcases h with ⟨howes, -⟩ | ⟨-, -, h | ⟨_, -, h | ⟨_, -, h | ⟨_, -, h⟩⟩⟩⟩
      · exact howes
      · obtain ⟨name, h⟩ := saveEvent_error h
        cases h
      · obtain ⟨name, h⟩ := writeReview_error h
        cases h
      · obtain ⟨name, h⟩ := bindRow_error h
        cases h
      · cases h

/-- A claim raises a conflict where its reference is another payout's, or where what it would
settle is not owed. -/
theorem claimPayout_conflict {db : RewardDatabase} {actions : List PayoutInstructionAction}
    {reserved : Bool} {payoutId : ℕ} {message : String}
    (h : claimPayout db actions reserved payoutId = .error (.payoutConflict message)) :
    ∃ p ∈ db.payouts.rows, ∃ e ∈ db.events.rows,
      (e.extrinsicReference = some p.extrinsicReference ∧ ¬ SamePayout e p.sighting) ∨
        e.status = .failed ∨ ∀ s ∈ db.submissions.rows, s.id = e.submissionId → ¬ Owing s := by
  simp only [claimPayout, bind_eq_error, need_eq_error, need_eq_ok, Table.find?_eq_some] at h
  rcases h with ⟨-, h⟩ | ⟨p, ⟨hp, -⟩, h⟩
  · cases h
  refine ⟨p, hp, ?_⟩
  split at h
  · cases h
  split at h
  · cases h
  rcases bind_eq_error.mp h with h | ⟨matched, hmatch, h⟩
  · unfold matchEvent at h
    split at h
    · rename_i e href
      obtain ⟨he, href⟩ := byReference_eq_some href
      simp only [bind_eq_error, require_eq_error] at h
      rcases h with ⟨hother, -⟩ | ⟨-, -, h⟩
      · exact ⟨e, he, Or.inl ⟨href, hother⟩⟩
      · cases h
    · cases h
  · cases matched with
    | none => cases h
    | some e =>
      obtain ⟨he, -, -⟩ := matchEvent_ok hmatch
      dsimp only at h
      rcases bind_eq_error.mp h with h | ⟨result, -, h⟩
      · exact ⟨e, he, Or.inr (settlePayout_conflict h)⟩
      · cases h

theorem recordPayout_conflict {db : RewardDatabase} {o : ObservedPayout}
    {price : Option (ℚ × Instant)} {message : String} :
    recordPayout db o price ≠ .error (.payoutConflict message) := by
  intro h
  unfold recordPayout at h
  split at h
  · cases h
  · simp only [bind_eq_error, require_eq_error] at h
    rcases h with ⟨-, h⟩ | ⟨-, -, ⟨-, h⟩ | ⟨-, -, h⟩⟩ <;> cases h

/-! ## What must not be exchanged -/

/-- Two payouts of the same Alpha to the same stake position. -/
def Alike (o o' : ObservedPayout) : Prop :=
  o.destinationColdkey = o'.destinationColdkey ∧ o.amountRao = o'.amountRao ∧
    o.destinationHotkey = o'.destinationHotkey ∧ o.sighting.movedHotkey = o'.sighting.movedHotkey

instance Alike.decidable (o o' : ObservedPayout) : Decidable (Alike o o') := by
  unfold Alike; infer_instance

theorem Alike.samePayout {o o' : ObservedPayout} {e : RewardEvent} (h : Alike o o')
    (hsame : SamePayout e o.sighting) : SamePayout e o'.sighting := by
  obtain ⟨hcoldkey, hamount, hhotkey, hmoved⟩ := h
  refine ⟨hsame.1.trans hcoldkey, hsame.2.1.trans hamount, ?_⟩
  rcases hsame.2.2 with h | h | h
  · exact Or.inl (hmoved ▸ h)
  · exact Or.inr (Or.inl h)
  · exact Or.inr (Or.inr (h.trans (congrArg some hhotkey)))

/-- The payouts that were read and are still to be marked. -/
def Phase.pending : Phase → List ObservedPayout
  | .marking _ _ _ _ rest => rest
  | _ => []

/-- An operator's or a reviewer's change of what was decided. -/
def OperatorEdit : Step → Prop
  | .correct .. | .instruct .. | .withdraw .. | .bind .. | .disregard .. => True
  | _ => False

/-- Where finality reaches a payout, what was seen under its reference and is not rolled back
was a payout of the same obligation.  No operator edits, and a seeded obligation is for a
submission as it is. -/
def Undisturbed (settings : Settings) (w : Watch) : Action → Prop
  | .watcher _ => True
  | .chain blocks finalized best =>
    ∀ o', Final settings (w.chain.reorganise blocks finalized best) o' →
      w.chain.finalizedHead < o'.block →
      (∀ o ∈ w.phase.pending, o.reference = o'.reference → Alike o o') ∧
      ∀ e ∈ w.db.events.rows, SeenOnChain e → e.extrinsicReference = some o'.reference →
        SamePayout e o'.sighting
  | .client a => ¬ OperatorEdit a ∧ ∀ r seen, a = .seed r seen → seen ∈ w.db.submissions.rows

/-! ## The invariant -/

/-- An obligation that a payout on the chain may be claimed for. -/
structure Sound (settings : Settings) (w : Watch) (e : RewardEvent) : Prop where
  live : e.status ≠ .failed
  owed : ∃ s ∈ w.db.submissions.rows, s.id = e.submissionId ∧ Owing s
  /-- its reference is of no other final payout -/
  named : ∀ o, Final settings w.chain o → e.extrinsicReference = some o.reference →
    SamePayout e o.sighting
  /-- its reference is from an unfinalized sighting, or final -/
  origin : ∀ reference, e.extrinsicReference = some reference → SeenOnChain e ∨
    ∃ o, Final settings w.chain o ∧ o.reference = reference

structure Harmless (settings : Settings) (w : Watch) : Prop where
  ledger : Ledger settings w
  events : ∀ e ∈ w.db.events.rows, Sound settings w e
  pending : ∀ o ∈ w.phase.pending, ∀ o', Final settings w.chain o' →
    o.reference = o'.reference → Alike o o'

/-- A row of the ledger shows a payout of the finalized chain. -/
theorem Ledger.final {settings : Settings} {w : Watch} (h : Ledger settings w)
    {p : TreasuryPayout} (hp : p ∈ w.db.payouts.rows) :
    ∃ o, Final settings w.chain o ∧ p.sighting = o.sighting := by
  obtain ⟨o, hfinal, hrow⟩ := h.rows (recorded p) (List.mem_map_of_mem hp)
  exact ⟨o, hfinal, congrArg TreasuryPayout.sighting hrow⟩

theorem Harmless.no_conflict {settings : Settings} {w : Watch} (h : Harmless settings w)
    (actions : List PayoutInstructionAction) (reserved : Bool) (payoutId : ℕ)
    (message : String) :
    claimPayout w.db actions reserved payoutId ≠ .error (.payoutConflict message) := by
  intro hconflict
  obtain ⟨p, hp, e, he, hcases⟩ := claimPayout_conflict hconflict
  have hsound := h.events e he
  obtain ⟨o, hfinal, hsighting⟩ := h.ledger.final hp
  rcases hcases with ⟨href, hother⟩ | hfailed | hunowed
  · rw [hsighting] at hother
    refine hother (hsound.named o hfinal ?_)
    rw [href]
    exact congrArg (some ·.reference) hsighting
  · exact hsound.live hfailed
  · obtain ⟨s, hs, hid, howing⟩ := hsound.owed
    exact hunowed s hs hid howing

/-! ## Transactions -/

/-- Who is owed something still is, or has it. -/
def KeepsOwing (db db' : RewardDatabase) : Prop :=
  ∀ s ∈ db.submissions.rows, Owing s → ∃ s' ∈ db'.submissions.rows, s'.id = s.id ∧ Owing s'

theorem keepsOwing_of_eq {db db' : RewardDatabase} (h : db'.submissions = db.submissions) :
    KeepsOwing db db' := fun s hs howing ↦ ⟨s, h ▸ hs, rfl, howing⟩

theorem KeepsOwing.trans {db db₁ db₂ : RewardDatabase} (h : KeepsOwing db db₁)
    (h' : KeepsOwing db₁ db₂) : KeepsOwing db db₂ := by
  intro s hs howing
  obtain ⟨s₁, hs₁, hid₁, howing₁⟩ := h s hs howing
  obtain ⟨s₂, hs₂, hid₂, howing₂⟩ := h' s₁ hs₁ howing₁
  exact ⟨s₂, hs₂, hid₂.trans hid₁, howing₂⟩

theorem keepsOwing_of_modify {db db' : RewardDatabase} {submissionId : Uuid}
    {f : Submission → Submission} (hf : ∀ s, (f s).id = s.id)
    (h : db'.submissions = db.submissions.modify submissionId f hf)
    (howing : ∀ s ∈ db.submissions.rows, s.id = submissionId → Owing s → Owing (f s)) :
    KeepsOwing db db' := by
  intro s hs hs'
  refine ⟨_, (congrArg Table.rows h).symm ▸ @Table.modify_row _ _ _ _ f hf _ submissionId s hs, ?_⟩
  split
  · rename_i hid
    exact ⟨hf s, howing s hs hid hs'⟩
  · exact ⟨rfl, hs'⟩

theorem keepsOwing_verify {db db' : RewardDatabase} {submissionId : Uuid}
    {seen : List Submission} {v : VerifierVerdict} {result : VerificationRun × Bool}
    (h : verify submissionId seen v db = .ok (result, db')) : KeepsOwing db db' := by
  obtain ⟨s, s', -, hverified⟩ := verify_verified h
  have howing : Owing s → Owing s' := fun howing ↦ by
    cases hverified.ruled with
    | again | judged | superseded => exact howing
    | approved => exact Or.inl rfl
  intro x hx hx'
  by_cases hid : x.id = s.id
  · obtain rfl := db.submissions.eq_of_key hx hverified.mem hid
    exact ⟨s', hverified.replaces.mem, hverified.replaces.1, howing hx'⟩
  · exact ⟨x, (hverified.replaces.2 x).mpr (Or.inl ⟨hx, hid⟩), rfl, hx'⟩

theorem keepsOwing_settled {db db' : RewardDatabase} {e : RewardEvent} {p : TreasuryPayout}
    {s : Submission} (h : Settled db db' e p s) : KeepsOwing db db' := by
  rcases h.result with ⟨-, -, -, rfl⟩ | ⟨-, -, -, timeline, rfl⟩
  · exact keepsOwing_of_eq rfl
  · exact keepsOwing_of_modify (Submission.reviewed_id _ _) rfl fun _ _ _ _ ↦ Or.inr rfl

theorem Sound.of_db {settings : Settings} {w : Watch} {db : RewardDatabase} {phase : Phase}
    {e : RewardEvent} (h : Sound settings w e) (hkeeps : KeepsOwing w.db db) :
    Sound settings { w with db, phase } e := by
  obtain ⟨s, hs, hid, howing⟩ := h.owed
  obtain ⟨s', hs', hid', howing'⟩ := hkeeps s hs howing
  exact ⟨h.live, ⟨s', hs', hid'.trans hid, howing'⟩, h.named, h.origin⟩

/-- A transaction after which every obligation is still sound. -/
theorem Harmless.of_db {settings : Settings} {w : Watch} {db : RewardDatabase} {phase : Phase}
    (h : Harmless settings w) (hledger : Ledger settings { w with db, phase })
    (hkeeps : KeepsOwing w.db db) (hpending : ∀ o ∈ phase.pending, o ∈ w.phase.pending)
    (hevents : ∀ e ∈ db.events.rows, e ∈ w.db.events.rows ∨ Sound settings w e) :
    Harmless settings { w with db, phase } := by
  refine ⟨hledger, fun e he ↦ ?_, fun o ho ↦ h.pending o (hpending o ho)⟩
  rcases hevents e he with he | hsound
  · exact (h.events e he).of_db hkeeps
  · exact hsound.of_db hkeeps

/-- One obligation is written, to a sound one. -/
theorem sound_of_modify {settings : Settings} {w : Watch} {db : RewardDatabase}
    {e₀ : RewardEvent} {f : RewardEvent → RewardEvent} (hf : ∀ e, (f e).id = e.id)
    (he₀ : e₀ ∈ w.db.events.rows) (hev : db.events = w.db.events.modify e₀.id f hf)
    (hsound : Sound settings w (f e₀)) {e : RewardEvent} (he : e ∈ db.events.rows) :
    e ∈ w.db.events.rows ∨ Sound settings w e := by
  rw [hev, Table.mem_modify_of_mem he₀] at he
  rcases he with ⟨he, -⟩ | rfl
  · exact Or.inl he
  · exact Or.inr hsound

theorem harmless_claimed {settings : Settings} {w : Watch} {db : RewardDatabase} {phase : Phase}
    {actions : List PayoutInstructionAction} {reserved : Bool} {payoutId : ℕ}
    {update : Option PayoutUpdate} (h : Harmless settings w)
    (hok : claimPayout w.db actions reserved payoutId = .ok (update, db))
    (hledger : Ledger settings { w with db, phase })
    (hpending : ∀ o ∈ phase.pending, o ∈ w.phase.pending) :
    Harmless settings { w with db, phase } := by
  rcases claimPayout_ok hok with ⟨-, rfl⟩ | ⟨p, hp, -, -, e, he, hsame, -, s, hsettled⟩
  · exact h.of_db hledger (keepsOwing_of_eq rfl) hpending fun e he ↦ Or.inl he
  · refine h.of_db hledger (keepsOwing_settled hsettled) hpending fun e' he' ↦ ?_
    rcases hsettled.result with ⟨-, -, -, rfl⟩ | ⟨-, -, -, timeline, rfl⟩
    · exact Or.inl he'
    · -- the obligation now names the finalized payout, and no other
      obtain ⟨o, hfinal, hsighting⟩ := h.ledger.final hp
      have href : p.extrinsicReference = o.reference := congrArg Sighting.reference hsighting
      refine sound_of_modify (RewardEvent.confirmed_id p.sighting) he rfl ?_ he'
      refine ⟨nofun, (h.events e he).owed, fun o' ho' hnames ↦ ?_, fun reference hnames ↦ ?_⟩
      · obtain rfl := hfinal.1.eq_of_reference ho'.1 (href.symm.trans (Option.some.inj hnames))
        rw [← hsighting]
        exact hsame
      · exact Or.inr ⟨o, hfinal, href.symm.trans (Option.some.inj hnames)⟩

theorem harmless_marked {settings : Settings} {w : Watch} {db : RewardDatabase} {phase : Phase}
    {actions : List PayoutInstructionAction} {o : ObservedPayout}
    {update : Option PayoutUpdate} (h : Harmless settings w) (ho : o ∈ w.phase.pending)
    (hok : markSubmitted w.db actions o.sighting = .ok (update, db))
    (hledger : Ledger settings { w with db, phase })
    (hpending : ∀ o ∈ phase.pending, o ∈ w.phase.pending) :
    Harmless settings { w with db, phase } := by
  rcases markSubmitted_ok hok with ⟨rfl, -⟩ | ⟨e, s, hmarked⟩
  · exact h.of_db hledger (keepsOwing_of_eq rfl) hpending fun e he ↦ Or.inl he
  · obtain ⟨timeline, rfl⟩ := hmarked.result
    refine h.of_db hledger (keepsOwing_of_modify (Submission.reviewed_id _ _) rfl
      fun _ _ _ _ ↦ Or.inl rfl) hpending fun e' he' ↦ ?_
    refine sound_of_modify (RewardEvent.submitted_id o.sighting) hmarked.event rfl ?_ he'
    refine ⟨nofun, (h.events e hmarked.event).owed, fun o' ho' hnames ↦ ?_,
      fun _ _ ↦ Or.inl ⟨rfl, rfl⟩⟩
    exact (h.pending o ho o' ho' (Option.some.inj hnames)).samePayout hmarked.same

theorem harmless_reverted {settings : Settings} {w : Watch} {db : RewardDatabase}
    {phase : Phase} {item : SubmittedPayout} {now : Instant} {changed : Bool}
    (h : Harmless settings w) (hok : revertSubmitted w.db item now = .ok (changed, db))
    (hledger : Ledger settings { w with db, phase })
    (hpending : ∀ o ∈ phase.pending, o ∈ w.phase.pending) :
    Harmless settings { w with db, phase } := by
  rcases revertSubmitted_ok hok with ⟨-, rfl, -⟩ | ⟨e, he, -, -, -, -, timeline, rfl⟩
  · exact h.of_db hledger (keepsOwing_of_eq rfl) hpending fun e he ↦ Or.inl he
  · refine h.of_db hledger (keepsOwing_of_eq rfl) hpending fun e' he' ↦ ?_
    exact sound_of_modify RewardEvent.reverted_id he rfl
      ⟨nofun, (h.events e he).owed, nofun, nofun⟩ he'

/-! ## Steps -/

/-- A move that runs no transaction, or one that writes neither obligations nor
submissions. -/
theorem Harmless.of_eq {settings : Settings} {w w' : Watch} (h : Harmless settings w)
    (hledger : Ledger settings w') (hchain : w'.chain = w.chain)
    (hev : w'.db.events = w.db.events) (hsub : w'.db.submissions = w.db.submissions)
    (hpending : ∀ o ∈ w'.phase.pending, w.chain.Carries o ∨ o ∈ w.phase.pending) :
    Harmless settings w' := by
  refine ⟨hledger, fun e he ↦ ?_, fun o ho o' ho' href ↦ ?_⟩
  · obtain ⟨hlive, howed, hnamed, horigin⟩ := h.events e (hev ▸ he)
    refine ⟨hlive, hsub ▸ howed, ?_, ?_⟩ <;> rw [hchain] <;> assumption
  · rw [hchain] at ho'
    rcases hpending o ho with hcarries | hold
    · obtain rfl := hcarries.eq_of_reference ho'.1 href
      exact ⟨rfl, rfl, rfl, rfl⟩
    · exact h.pending o hold o' ho' href

theorem harmless_move {settings : Settings} {w w' : Watch} (hmove : Moved settings w w')
    (h : Harmless settings w) : Harmless settings w' := by
  have hledger := ledger_move hmove h.ledger
  have hnone : ∀ {phase : Phase}, phase.pending = [] →
      ∀ o ∈ phase.pending, w.chain.Carries o ∨ o ∈ w.phase.pending := fun hphase o ho ↦ by
    rw [hphase] at ho
    cases ho
  cases hmove with
  | stays => exact h
  | opens startBlock now => exact h.of_eq hledger rfl rfl rfl fun _ ho ↦ Or.inr ho
  | records price hphase hok =>
    rcases recordPayout_ok hok with ⟨-, -, rfl⟩ | ⟨-, -, -, rfl⟩ <;>
      exact h.of_eq hledger rfl rfl rfl (hnone rfl)
  | claims actions reserved hphase hok => exact harmless_claimed h hok hledger nofun
  | reclaims actions reserved hphase hok => exact harmless_claimed h hok hledger nofun
  | readsTail hphase hfound =>
    exact h.of_eq hledger rfl rfl rfl fun o ho ↦ Or.inl ((mem_oursIn hfound).mp ho).1
  | marks actions hphase hok =>
    have hpending := congrArg Phase.pending hphase
    refine harmless_marked h ?_ hok hledger fun o ho ↦ ?_ <;> rw [hpending]
    · exact List.mem_cons_self
    · exact List.mem_cons_of_mem _ ho
  | reverts now hphase hok => exact harmless_reverted h hok hledger nofun
  | _ => exact h.of_eq hledger rfl rfl rfl (hnone rfl)

theorem harmless_reorganise {settings : Settings} {w : Watch} {blocks : ℕ → PayoutBlock}
    {finalized best : ℕ} (hundisturbed : Undisturbed settings w (.chain blocks finalized best))
    (h : Harmless settings w) :
    Harmless settings { w with chain := w.chain.reorganise blocks finalized best } := by
  have hknown : ∀ {o'}, Final settings (w.chain.reorganise blocks finalized best) o' →
      Final settings w.chain o' ∨ w.chain.finalizedHead < o'.block := fun {o'} ho' ↦ by
    rcases le_or_gt o'.block w.chain.finalizedHead with hle | hlt
    · exact Or.inl ⟨(BestChain.carries_reorganise hle _ _ _).mp ho'.1, ho'.2.1, hle⟩
    · exact Or.inr hlt
  refine ⟨ledger_step settings w (.chain blocks finalized best) h.ledger, fun e he ↦ ?_,
    fun o ho o' ho' href ↦ ?_⟩
  · obtain ⟨hlive, howed, hnamed, horigin⟩ := h.events e he
    refine ⟨hlive, howed, fun o' ho' href ↦ ?_, fun reference href ↦ ?_⟩
    · rcases hknown ho' with hold | hnew
      · exact hnamed o' hold href
      rcases horigin _ href with hseen | ⟨o, hfinal, hreference⟩
      · exact (hundisturbed o' ho' hnew).2 e he hseen href
      · -- a final payout is where it was
        have hcarries := (final_reorganise hfinal blocks finalized best).1
        obtain rfl := hcarries.eq_of_reference ho'.1 hreference
        exact hnamed o hfinal href
    · exact (horigin reference href).imp_right fun ⟨o, hfinal, hreference⟩ ↦
        ⟨o, final_reorganise hfinal blocks finalized best, hreference⟩
  · rcases hknown ho' with hold | hnew
    · exact h.pending o ho o' hold href
    · exact (hundisturbed o' ho' hnew).1 o ho href

/-- What is owed stays owed unless an operator edits: a human decides only on what is not. -/
theorem keepsOwing_client (db : RewardDatabase) {a : Step} (ha : ¬ OfWatcher a)
    (hedit : ¬ OperatorEdit a) : KeepsOwing db (step db a) := by
  have hcommit : ∀ {α : Type} (txn : Txn RewardDatabase RewardError α),
      (∀ x db', txn db = .ok (x, db') → KeepsOwing db db') → KeepsOwing db (commit txn db) :=
    fun txn h ↦ @commit_induction _ _ _ txn db (KeepsOwing db) (keepsOwing_of_eq rfl) h
  cases a with
  | submit row =>
    dsimp only [step, submitRow]
    split
    · split
      · rename_i db' hinsert
        intro s hs howing
        refine ⟨s, ?_, rfl, howing⟩
        show s ∈ db'.submissions.rows
        rw [(insertSubmission_spec hinsert).rows]
        exact List.mem_append_left _ hs
      · exact keepsOwing_of_eq rfl
    · exact keepsOwing_of_eq rfl
  | verify submissionId seen v => exact hcommit _ fun _ _ hok ↦ keepsOwing_verify hok
  | decide submissionId seen r =>
    refine hcommit (recordHumanDecision · seen submissionId r) fun _ _ hok ↦ ?_
    obtain ⟨s, hs, -, -, -, hineligible, rfl⟩ := recordHumanDecision_ok hok
    refine keepsOwing_of_modify (Submission.reviewed_id _ _) rfl fun s' hs' hid howing ↦ ?_
    rw [db.submissions.eq_of_key hs' hs hid, Owing, hineligible] at howing
    rcases howing with h | h <;> cases h
  | seed r seen =>
    refine hcommit (seedRewardEvent r seen) fun _ _ hok ↦ ?_
    rcases seedRewardEvent_ok hok with rfl | ⟨-, -, -, rfl⟩ <;> exact keepsOwing_of_eq rfl
  | notify d =>
    dsimp only [step, notify]
    split <;> exact keepsOwing_of_eq rfl
  | mark | revert | record | claim => exact absurd trivial ha
  | correct | instruct | withdraw | bind | disregard => exact absurd trivial hedit

theorem harmless_client {settings : Settings} {w : Watch} {a : Step} (ha : ¬ OfWatcher a)
    (hundisturbed : Undisturbed settings w (.client a)) (h : Harmless settings w) :
    Harmless settings { w with db := step w.db a } := by
  obtain ⟨hedit, hseed⟩ := hundisturbed
  have hstep : watchStep settings w (.client a) = { w with db := step w.db a } := if_neg ha
  have hledger := hstep ▸ ledger_step settings w (.client a) h.ledger
  refine h.of_db hledger (keepsOwing_client w.db ha hedit) (fun _ ho ↦ ho) fun e he ↦ ?_
  have hwritten := step_written w.db a
  generalize step w.db a = db' at hwritten he
  cases hwritten with
  | unpaid hunpaid => exact Or.inl (hunpaid.events ▸ he)
  | @seeded r seen hseen hs =>
    refine (List.mem_append.mp he).imp_right fun he ↦ ?_
    rw [List.mem_singleton.mp he]
    exact ⟨nofun, ⟨seen, hseed r seen rfl, hseen.1, Or.inl hseen.2⟩, nofun, nofun⟩
  | marked | reverted | recorded | claimed => exact absurd trivial ha
  | bound | disregarded => exact absurd trivial hedit

theorem harmless_step (settings : Settings) (w : Watch) (a : Action)
    (hundisturbed : Undisturbed settings w a) (h : Harmless settings w) :
    Harmless settings (watchStep settings w a) := by
  cases a with
  | watcher m => exact harmless_move (move_cases settings w m) h
  | chain blocks finalized best => exact harmless_reorganise hundisturbed h
  | client a =>
    dsimp only [watchStep]
    split
    · exact h
    · exact harmless_client ‹_› hundisturbed h

/-! ## Whole runs -/

/-- A watcher that has never run, and obligations nobody has paid yet. -/
structure Ready (w : Watch) : Prop where
  untouched : Untouched w
  unpaid : ∀ e ∈ w.db.events.rows, e.status = .pending ∧ e.extrinsicReference = none
  owed : ∀ e ∈ w.db.events.rows, ∃ s ∈ w.db.submissions.rows, s.id = e.submissionId ∧ Owing s

theorem Ready.harmless {settings : Settings} {w : Watch} (h : Ready w) : Harmless settings w := by
  refine ⟨h.untouched.ledger, fun e he ↦ ?_, fun o ho ↦ ?_⟩
  · obtain ⟨hpending, hnone⟩ := h.unpaid e he
    refine ⟨fun hfailed ↦ ?_, h.owed e he, fun o _ href ↦ ?_, fun reference href ↦ ?_⟩
    · cases hpending.symm.trans hfailed
    · cases hnone.symm.trans href
    · cases hnone.symm.trans href
  · rw [h.untouched.phase] at ho
    cases ho

/-- The transaction that records or claims the next payout of a finalized block raises no
conflict. -/
def NoConflict (w : Watch) : Prop :=
  (∀ number last head o rest price message,
    w.phase = .recording number last head (o :: rest) →
      recordPayout w.db o price ≠ .error (.payoutConflict message)) ∧
  ∀ payoutId number last head rest actions reserved message,
    w.phase = .claiming payoutId number last head rest →
      claimPayout w.db actions reserved payoutId ≠ .error (.payoutConflict message)

/-- In every run in which no operator edits, and in which finality reaches no payout at a
position that was seen for another obligation, no payout of a finalized block raises a
conflict. -/
theorem claims_raise_no_conflict (settings : Settings) (w : Watch) (hw : Ready w)
    (as : List Action) (has : Each (watchStep settings) (Undisturbed settings) w as) :
    NoConflict (run (watchStep settings) w as) := by
  have hharmless := has.invariant (harmless_step settings) hw.harmless
  exact ⟨fun _ _ _ _ _ _ _ _ ↦ recordPayout_conflict,
    fun payoutId _ _ _ _ actions reserved message _ ↦
      hharmless.no_conflict actions reserved payoutId message⟩

/-! ## An example -/

/-- The block a payout was seen in is finalized as it was. -/
def finalizeSix : Action :=
  .chain (fun n ↦ ⟨n * second, if n = 6 then payoutEvents 1 "miner" 100 else []⟩) 6 6

/-- A pass that marks the payout, and after finality the next one up to its claim. -/
def seenThenFinal : List Action :=
  markSix ++ [.watcher .finish, finalizeSix, .watcher .start, .watcher .head, .watcher .read,
    .watcher (.record none)]

theorem ready_owedWatch (chain : BestChain) : Ready (owedWatch chain) where
  untouched := untouched_owedWatch chain
  unpaid :=
    have hunpaid : ∀ e ∈ (run step newcomerDatabase owedSteps).events.rows,
      e.status = .pending ∧ e.extrinsicReference = none := by decide +kernel
    hunpaid
  owed :=
    have howed : ∀ e ∈ (run step newcomerDatabase owedSteps).events.rows,
      ∃ s ∈ (run step newcomerDatabase owedSteps).submissions.rows,
        s.id = e.submissionId ∧ Owing s := by decide +kernel
    howed

/-- Where finality leaves block 6 as it was seen, nothing is disturbed. -/
theorem undisturbed_finalizeSix :
    Undisturbed exampleSettings (run (watchStep exampleSettings) (owedWatch chainFive)
      (markSix ++ [.watcher .finish])) finalizeSix := by
  intro o ho hnew
  obtain ⟨⟨found, hfound, hmem⟩, -, hle⟩ := ho
  have hfive : (run (watchStep exampleSettings) (owedWatch chainFive)
      (markSix ++ [.watcher .finish])).chain.finalizedHead = 5 := by decide +kernel
  have hblock : o.block = 6 := by
    rw [hfive] at hnew
    refine le_antisymm (hle.trans_eq ?_) hnew
    decide +kernel
  have hsix : found = [payoutSix] := by
    rw [hblock] at hfound
    refine Except.ok.inj (hfound.symm.trans ?_)
    decide +kernel
  rw [hsix, List.mem_singleton] at hmem
  rw [hmem]
  constructor
  · decide +kernel
  · unfold SeenOnChain
    decide +kernel

theorem payout_seen_before_is_claimed :
    ∃ payoutId number last head rest,
      (run (watchStep exampleSettings) (owedWatch chainFive) seenThenFinal).phase =
        .claiming payoutId number last head rest ∧
      ∀ message, claimPayout
        (run (watchStep exampleSettings) (owedWatch chainFive) seenThenFinal).db [] false payoutId ≠
          .error (.payoutConflict message) := by
  have hmark : Each (watchStep exampleSettings) (Undisturbed exampleSettings)
      (owedWatch chainFive) (markSix ++ [.watcher .finish]) := by
    simp only [markSix, List.cons_append, List.nil_append, Each, Undisturbed, and_self]
  have hrun : Each (watchStep exampleSettings) (Undisturbed exampleSettings)
      (owedWatch chainFive) seenThenFinal := by
    rw [seenThenFinal, List.append_cons, each_append]
    refine ⟨hmark, undisturbed_finalizeSix, ?_⟩
    simp only [Each, Undisturbed, and_self]
  have hphase : (run (watchStep exampleSettings) (owedWatch chainFive) seenThenFinal).phase =
      .claiming 1 6 6 6 [] := by decide +kernel
  exact ⟨1, 6, 6, 6, [], hphase, fun message ↦ (claims_raise_no_conflict exampleSettings _
    (ready_owedWatch chainFive) _ hrun).2 _ _ _ _ _ [] false message hphase⟩

/-- A second submission, by another miner. -/
def secondcomer : Submission :=
  { newcomer with
    id := 2
    signerColdkey := some "friend"
    idempotencyKey := 2
    rewardTargetId := "other target"
    proofDigest := "other proof"
    paymentReference := some "5-2-1"
    paymentSender := some "friend" }

/-- Both are accepted and approved, and are owed 100 and 50 rao. -/
def owedBoth : RewardDatabase :=
  run step { newcomerDatabase with submissions := ⟨[newcomer, secondcomer], by decide⟩ }
    (owedSteps ++ [.verify 2 [] acceptance,
      .decide 2 [] ⟨.approved, "NOVEL", "ada", none, none⟩,
      .seed ⟨2, "proof", 50, "friend", 0⟩ { secondcomer with rewardStatus := .eligible }])

/-- Block 6 pays the miner first and the friend second. -/
def chainBoth : BestChain :=
  exampleChain 5 6 fun n ↦
    if n = 6 then payoutEvents 1 "miner" 100 ++ payoutEvents 2 "friend" 50 else []

/-- Block 6 is replaced by one that pays the friend first, and is finalized. -/
def exchange : Action :=
  .chain (fun n ↦ ⟨n * second,
    if n = 6 then payoutEvents 1 "friend" 50 ++ payoutEvents 2 "miner" 100 else []⟩) 6 6

/-- A pass that marks both payouts, the reorganisation, and the next pass up to its first
claim. -/
def exchangedRun : List Action :=
  [.watcher (.openCursor 5 0), .watcher .start, .watcher .head, .watcher .read,
    .watcher (.advance 0), .watcher (.unclaimed 0), .watcher .best, .watcher .read,
    .watcher (.mark []), .watcher (.mark []), .watcher .nextBlock, .watcher .submitted,
    .watcher .finish, exchange, .watcher .start, .watcher .head, .watcher .read,
    .watcher (.record none)]

def exchanged : Watch :=
  run (watchStep exampleSettings) ⟨owedBoth, none, chainBoth, .idle⟩ exchangedRun


/-- The claim of the first of two exchanged payouts raises a conflict. -/
theorem exchanged_payouts_conflict :
    ¬ ∀ (settings : Settings) (w : Watch), Ready w → ∀ as,
      (∀ a ∈ as, ∀ client, a ≠ .client client) → NoConflict (run (watchStep settings) w as) := by
  intro h
  have hready : Ready ⟨owedBoth, none, chainBoth, .idle⟩ := by
    refine ⟨⟨?_, rfl, rfl⟩, ?_, ?_⟩
    · have hpayouts : owedBoth.payouts.rows = [] := by decide +kernel
      exact hpayouts
    · have hunpaid : ∀ e ∈ owedBoth.events.rows,
          e.status = .pending ∧ e.extrinsicReference = none := by decide +kernel
      exact hunpaid
    · have howed : ∀ e ∈ owedBoth.events.rows, ∃ s ∈ owedBoth.submissions.rows,
          s.id = e.submissionId ∧ Owing s := by decide +kernel
      exact howed
  have hphase : exchanged.phase =
      .claiming 1 6 6 6 [{ payoutSix with extrinsicIndex := 2, eventIndex := 3 }] := by
    decide +kernel
  have hconflict : claimPayout exchanged.db [] false 1 =
      .error (.payoutConflict "reference 6-1-1 is attached to a different payout") := by
    have hrefused : (claimPayout exchanged.db [] false 1).map (fun _ ↦ ()) =
        .error (.payoutConflict "reference 6-1-1 is attached to a different payout") := by
      decide +kernel
    cases hresult : claimPayout exchanged.db [] false 1 with
    | ok r =>
      rw [hresult] at hrefused
      cases hrefused
    | error e =>
      rw [hresult] at hrefused
      cases hrefused
      rfl
  refine (h exampleSettings _ hready exchangedRun ?_).2 1 6 6 6 _ [] false _ hphase hconflict
  simp [exchangedRun, exchange]

end Conjectures.PayoutWatcher

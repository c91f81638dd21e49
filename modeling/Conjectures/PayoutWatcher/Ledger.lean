import Conjectures.Rewards.Matching
import Conjectures.PayoutWatcher.Steps

/-!
# The ledger has what the chain finalized

The columns a payout is recorded with are never written again, and no row is deleted, so the
ledger can be read as a list that only grows (`ledger`).  The cursor passes a block after the
last of its payouts was recorded, whatever became of claiming them: every payout of a block
between the cursor's start and its mark has a row (`Ledger`).
-/

namespace Conjectures.PayoutWatcher

open Lib Db Chain Rewards

/-! ## Columns -/

/-- A payout as it was recorded. -/
def recorded (p : TreasuryPayout) : TreasuryPayout :=
  { p with status := .unclaimed, rewardEventId := none, note := none }

def ledger (db : RewardDatabase) : List TreasuryPayout := db.payouts.rows.map recorded

/-- The payout has a row. -/
def Recorded (db : RewardDatabase) (o : ObservedPayout) : Prop :=
  ∃ p ∈ ledger db, p = o.row p.price p.id

theorem ledger_modify {db db' : RewardDatabase} {payoutId : ℕ}
    {f : TreasuryPayout → TreasuryPayout} (hf : ∀ p, (f p).id = p.id)
    (h : db'.payouts = db.payouts.modify payoutId f hf)
    (hcolumns : ∀ p, recorded (f p) = recorded p) : ledger db' = ledger db := by
  rw [ledger, h, Table.modify, Table.rows_update, List.map_map]
  refine List.map_congr_left fun p _ ↦ ?_
  dsimp only [Function.comp_apply]
  split
  · exact hcolumns p
  · rfl

theorem ledger_settled {db db₁ db' : RewardDatabase} {e : RewardEvent} {p : TreasuryPayout}
    {s : Submission} (h : Settled db₁ db' e p s) (hledger : ledger db₁ = ledger db) :
    ledger db' = ledger db := by
  rw [← hledger]
  rcases h.result with ⟨-, -, -, hresult⟩ | ⟨-, -, -, timeline, hresult⟩
  · exact ledger_modify (TreasuryPayout.claimed_id e.id) (by rw [hresult]) fun _ ↦ rfl
  · exact ledger_modify (TreasuryPayout.claimed_id e.id) (by rw [hresult]) fun _ ↦ rfl

theorem ledger_claimed {db db' : RewardDatabase} {actions : List PayoutInstructionAction}
    {reserved : Bool} {payoutId : ℕ} {update : Option PayoutUpdate}
    (h : claimPayout db actions reserved payoutId = .ok (update, db')) :
    ledger db' = ledger db := by
  rcases claimPayout_ok h with ⟨-, rfl⟩ | ⟨p, -, -, -, e, -, -, -, s, hsettled⟩
  · rfl
  · exact ledger_settled hsettled rfl

theorem ledger_marked {db db' : RewardDatabase} {actions : List PayoutInstructionAction}
    {o : Sighting} {update : Option PayoutUpdate}
    (h : markSubmitted db actions o = .ok (update, db')) : ledger db' = ledger db := by
  rcases markSubmitted_ok h with ⟨rfl, -⟩ | ⟨e, s, hmarked⟩
  · rfl
  · obtain ⟨timeline, rfl⟩ := hmarked.result
    rfl

theorem ledger_reverted {db db' : RewardDatabase} {item : SubmittedPayout} {now : Instant}
    {changed : Bool} (h : revertSubmitted db item now = .ok (changed, db')) :
    ledger db' = ledger db := by
  rcases revertSubmitted_ok h with ⟨-, rfl, -⟩ | ⟨e, -, -, -, -, -, timeline, rfl⟩ <;> rfl

/-- The other clients record nothing. -/
theorem ledger_client (db : RewardDatabase) (a : Step) (ha : ¬ OfWatcher a) :
    ledger (step db a) = ledger db := by
  have hwritten := step_written db a
  generalize step db a = db' at hwritten ⊢
  cases hwritten with
  | unpaid h => rw [ledger, h.payouts, ledger]
  | seeded => rfl
  | marked | reverted | recorded | claimed => exact absurd trivial ha
  | @bound _ _ _ note p e s _ _ _ _ _ _ h =>
    exact ledger_settled h (ledger_modify (TreasuryPayout.noted_id note) rfl fun _ ↦ rfl)
  | @disregarded _ note p hp hstatus =>
    exact ledger_modify (TreasuryPayout.disregarded_id note) rfl fun _ ↦ rfl

/-- A recorded payout is in the ledger, with every row that was there. -/
theorem ledger_recorded {db db' : RewardDatabase} {o : ObservedPayout}
    {price : Option (ℚ × Instant)} {p : TreasuryPayout}
    (h : recordPayout db o price = .ok (p, db')) :
    (p ∈ db'.payouts.rows ∧ p.extrinsicReference = o.reference) ∧
      (ledger db' = ledger db ∨ ∃ id, ledger db' = ledger db ++ [o.row price id]) := by
  rcases recordPayout_ok h with ⟨hp, href, rfl⟩ | ⟨rfl, -, -, rfl⟩
  · exact ⟨⟨hp, href⟩, Or.inl rfl⟩
  · refine ⟨⟨List.mem_append_right _ (List.mem_singleton_self _), rfl⟩,
      Or.inr ⟨db.payouts.nextId, ?_⟩⟩
    rw [ledger, Table.rows_append, List.map_append, ledger]
    rfl

/-! ## The invariant -/

/-- The payout is on the finalized chain, and the watcher's. -/
def Final (settings : Settings) (chain : BestChain) (o : ObservedPayout) : Prop :=
  chain.Carries o ∧ Ours settings o ∧ o.block ≤ chain.finalizedHead

theorem final_reorganise {settings : Settings} {chain : BestChain} {o : ObservedPayout}
    (h : Final settings chain o) (blocks : ℕ → PayoutBlock) (finalized best : ℕ) :
    Final settings (chain.reorganise blocks finalized best) o :=
  ⟨(BestChain.carries_reorganise h.2.2 blocks finalized best).mpr h.1, h.2.1,
    h.2.2.trans (le_max_left _ _)⟩

/-- Every payout of the block has a row. -/
def Covered (settings : Settings) (chain : BestChain) (db : RewardDatabase) (block : ℕ) : Prop :=
  block ≤ chain.finalizedHead ∧
    ∀ o, chain.Carries o → Ours settings o → o.block = block → Recorded db o

theorem Covered.reorganise {settings : Settings} {chain : BestChain} {db : RewardDatabase}
    {block : ℕ} (h : Covered settings chain db block) (blocks : ℕ → PayoutBlock)
    (finalized best : ℕ) :
    Covered settings (chain.reorganise blocks finalized best) db block := by
  refine ⟨h.1.trans (le_max_left _ _), fun o ho hours hblock ↦ ?_⟩
  rw [BestChain.carries_reorganise (hblock ▸ h.1)] at ho
  exact h.2 o ho hours hblock

/-- The cursor is not behind the block a pass is at. -/
def Reached (cursor : Option PayoutWatchCursor) (number : ℕ) : Prop :=
  ∃ c, cursor = some c ∧ (number : ℤ) ≤ c.lastScannedBlock + 1

/-- The payouts of a block that are still to be recorded, and that the others are. -/
structure InBlock (settings : Settings) (w : Watch) (number last : ℕ)
    (rest : List ObservedPayout) : Prop where
  reached : Reached w.cursor number
  last : last ≤ w.chain.finalizedHead
  final : number ≤ w.chain.finalizedHead
  left : ∀ o ∈ rest, w.chain.Carries o ∧ Ours settings o ∧ o.block = number
  done : ∀ o, w.chain.Carries o → Ours settings o → o.block = number →
    o ∈ rest ∨ Recorded w.db o

/-- What a pass over finalized blocks relies on. -/
def InPass (settings : Settings) (w : Watch) : Phase → Prop
  | .awaitingHead scanned => ∃ c, w.cursor = some c ∧ scanned ≤ c.lastScannedBlock
  | .scanning number last _ => Reached w.cursor number ∧ last ≤ w.chain.finalizedHead
  | .recording number last _ rest => InBlock settings w number last rest
  | .claiming payoutId number last _ rest =>
    InBlock settings w number last rest ∧ ∃ p ∈ ledger w.db, p.id = payoutId
  | _ => True

structure Ledger (settings : Settings) (w : Watch) : Prop where
  rows : ∀ p ∈ ledger w.db, ∃ o, Final settings w.chain o ∧ p = o.row p.price p.id
  mark : ∀ c, w.cursor = some c → 0 ≤ c.lastScannedBlock
  covered : ∀ c, w.cursor = some c → ∀ n : ℕ, c.startBlock ≤ n → (n : ℤ) ≤ c.lastScannedBlock →
    Covered settings w.chain w.db n
  pass : InPass settings w w.phase

/-! ## Steps -/

theorem Recorded.of_ledger {db db' : RewardDatabase} {o : ObservedPayout} (h : Recorded db o)
    (hledger : ∀ p ∈ ledger db, p ∈ ledger db') : Recorded db' o := by
  obtain ⟨p, hp, hrow⟩ := h
  exact ⟨p, hledger p hp, hrow⟩

/-- The ledger may grow by a row of the finalized chain. -/
theorem Ledger.of_db {settings : Settings} {w : Watch} {db : RewardDatabase} {phase : Phase}
    (h : Ledger settings w) (hold : ∀ p ∈ ledger w.db, p ∈ ledger db)
    (hnew : ∀ p ∈ ledger db, p ∈ ledger w.db ∨
      ∃ o, Final settings w.chain o ∧ p = o.row p.price p.id)
    (hpass : InPass settings { w with db, phase } phase) :
    Ledger settings { w with db, phase } := by
  refine ⟨fun p hp ↦ ?_, h.mark, fun c hc n hstart hlast ↦ ?_, hpass⟩
  · rcases hnew p hp with hp | hp
    · exact h.rows p hp
    · exact hp
  · obtain ⟨hfinal, hcovered⟩ := h.covered c hc n hstart hlast
    exact ⟨hfinal, fun o ho hours hblock ↦ (hcovered o ho hours hblock).of_ledger hold⟩

theorem InBlock.of_db {settings : Settings} {w : Watch} {db : RewardDatabase} {phase : Phase}
    {number last : ℕ} {rest : List ObservedPayout} (h : InBlock settings w number last rest)
    (hold : ∀ p ∈ ledger w.db, p ∈ ledger db) :
    InBlock settings { w with db, phase } number last rest :=
  ⟨h.reached, h.last, h.final, h.left, fun o ho hours hblock ↦
    (h.done o ho hours hblock).imp id fun hrecorded ↦ hrecorded.of_ledger hold⟩

/-- A transaction that records nothing. -/
theorem Ledger.of_ledger_eq {settings : Settings} {w : Watch} {db : RewardDatabase}
    {phase : Phase} (h : Ledger settings w) (heq : ledger db = ledger w.db)
    (hpass : InPass settings { w with db, phase } phase) :
    Ledger settings { w with db, phase } :=
  h.of_db (fun _ hp ↦ heq ▸ hp) (fun _ hp ↦ Or.inl (heq ▸ hp)) hpass

/-- A move that only changes the place in the pass. -/
theorem Ledger.of_phase {settings : Settings} {w : Watch} {phase : Phase}
    (h : Ledger settings w) (hpass : InPass settings { w with phase } phase) :
    Ledger settings { w with phase } :=
  ⟨h.rows, h.mark, h.covered, hpass⟩

theorem Ledger.opened {settings : Settings} {w : Watch} {startBlock : ℕ} {now : Instant}
    (h : Ledger settings w) (hcursor : w.cursor = none) :
    Ledger settings { w with cursor := openCursor settings startBlock now none } := by
  have hpass := h.pass
  refine ⟨h.rows, fun c hc ↦ ?_, fun c hc n hstart hlast ↦ ?_, ?_⟩
  · simp only [openCursor, Option.ite_none_right_eq_some, Option.some.injEq] at hc
    obtain ⟨hpos, rfl⟩ := hc
    show (0 : ℤ) ≤ startBlock - 1
    omega
  · -- nothing was scanned yet
    simp only [openCursor, Option.ite_none_right_eq_some, Option.some.injEq] at hc
    obtain ⟨hpos, rfl⟩ := hc
    dsimp only at hstart hlast
    omega
  · -- no pass is under way without a cursor
    have hnone : ∀ {c : PayoutWatchCursor}, w.cursor ≠ some c := fun hc ↦ by
      rw [hcursor] at hc
      cases hc
    cases hphase : w.phase <;> rw [hphase] at hpass
    case awaitingHead => exact absurd hpass.choose_spec.1 hnone
    case scanning => exact absurd hpass.1.choose_spec.1 hnone
    case recording => exact absurd hpass.reached.choose_spec.1 hnone
    case claiming => exact absurd hpass.1.reached.choose_spec.1 hnone
    all_goals trivial

theorem Ledger.advanced {settings : Settings} {w : Watch} {number last head : ℕ}
    (h : Ledger settings w) (hblock : InBlock settings w number last []) (now : Instant) :
    Ledger settings { w with
      cursor := w.cursor.map (·.advance number now), phase := .scanning (number + 1) last head } := by
  obtain ⟨c, hc, hreached⟩ := hblock.reached
  have hcovered : Covered settings w.chain w.db number :=
    ⟨hblock.final, fun o ho hours hnumber ↦
      (hblock.done o ho hours hnumber).resolve_left List.not_mem_nil⟩
  have hlast : (c.advance number now).lastScannedBlock = max c.lastScannedBlock number := by
    unfold PayoutWatchCursor.advance
    split
    · rename_i hlt
      exact (max_eq_right hlt.le).symm
    · rename_i hle
      exact (max_eq_left (not_lt.mp hle)).symm
  have hstart : (c.advance number now).startBlock = c.startBlock := by
    unfold PayoutWatchCursor.advance
    split <;> rfl
  have hmap : w.cursor.map (·.advance number now) = some (c.advance number now) := by
    rw [hc, Option.map_some]
  refine ⟨h.rows, fun c' hc' ↦ ?_, fun c' hc' n hn hle ↦ ?_,
    ⟨c.advance number now, hmap, ?_⟩, hblock.last⟩
  · cases hmap.symm.trans hc'
    have := h.mark c hc
    omega
  · cases hmap.symm.trans hc'
    rw [hstart] at hn
    by_cases hnumber : n = number
    · exact hnumber ▸ hcovered
    · exact h.covered c hc n hn (by omega)
  · omega

/-- Two rows under one reference are of one payout. -/
theorem Ledger.recorded_of_reference {settings : Settings} {w : Watch} {db : RewardDatabase}
    {p : TreasuryPayout} {o : ObservedPayout} (h : Ledger settings w)
    (hnew : ∀ q ∈ ledger db, q ∈ ledger w.db ∨
      ∃ o, Final settings w.chain o ∧ q = o.row q.price q.id)
    (hp : recorded p ∈ ledger db) (href : p.extrinsicReference = o.reference)
    (ho : w.chain.Carries o) : Recorded db o := by
  obtain ⟨o', ⟨hcarries, -, -⟩, hrow⟩ : ∃ o', Final settings w.chain o' ∧
      recorded p = o'.row p.price p.id := by
    rcases hnew _ hp with hold | hrow
    · exact h.rows _ hold
    · exact hrow
  have href' : o'.reference = o.reference := by
    rw [← href]
    exact (congrArg TreasuryPayout.extrinsicReference hrow).symm
  obtain rfl := hcarries.eq_of_reference ho href'
  exact ⟨recorded p, hp, hrow⟩

theorem ledger_move {settings : Settings} {w w' : Watch} (hmove : Moved settings w w')
    (h : Ledger settings w) : Ledger settings w' := by
  have hpass := h.pass
  cases hmove with
  | stays => exact h
  | stops => exact h.of_phase trivial
  | opens startBlock now =>
    cases hcursor : w.cursor with
    | some c =>
      have hw : { w with cursor := openCursor settings startBlock now (some c) } = w := by
        rw [openCursor, ← hcursor]
      rw [hw]
      exact h
    | none => exact h.opened hcursor
  | starts cursor hcursor => exact h.of_phase ⟨cursor, hcursor, le_rfl⟩
  | heads scanned hphase =>
    rw [hphase] at hpass
    obtain ⟨c, hc, hle⟩ := hpass
    refine h.of_phase ⟨⟨c, hc, ?_⟩, min_le_left _ _⟩
    have := h.mark c hc
    omega
  | @reads number last head found hphase hle hfound =>
    rw [hphase] at hpass
    refine h.of_phase ⟨hpass.1, hpass.2, hle.trans hpass.2, fun o ho ↦ ?_,
      fun o ho hours hblock ↦ Or.inl ((mem_oursIn hfound).mpr ⟨ho, hblock, hours⟩)⟩
    obtain ⟨hcarries, hblock, hours⟩ := (mem_oursIn hfound).mp ho
    exact ⟨hcarries, hours, hblock⟩
  | @records o number last head rest price p db hphase hok =>
    rw [hphase] at hpass
    obtain ⟨⟨hp, href⟩, hledger⟩ := ledger_recorded hok
    obtain ⟨hcarries, hours, hblock⟩ := hpass.left o List.mem_cons_self
    have hfinal : Final settings w.chain o := ⟨hcarries, hours, hblock ▸ hpass.final⟩
    have hold : ∀ p ∈ ledger w.db, p ∈ ledger db := fun q hq ↦ by
      rcases hledger with heq | ⟨id, heq⟩ <;> rw [heq]
      · exact hq
      · exact List.mem_append_left _ hq
    have hmem : recorded p ∈ ledger db := List.mem_map_of_mem hp
    have hnew : ∀ q ∈ ledger db, q ∈ ledger w.db ∨
        ∃ o, Final settings w.chain o ∧ q = o.row q.price q.id := fun q hq ↦ by
      rcases hledger with heq | ⟨id, heq⟩ <;> rw [heq] at hq
      · exact Or.inl hq
      · refine (List.mem_append.mp hq).imp_right fun hq ↦ ⟨o, hfinal, ?_⟩
        rw [List.mem_singleton.mp hq]
        rfl
    refine h.of_db hold hnew ⟨⟨hpass.reached, hpass.last, hpass.final,
      fun o' ho' ↦ hpass.left o' (List.mem_cons_of_mem _ ho'), fun o' ho' hours' hblock' ↦ ?_⟩,
      recorded p, hmem, rfl⟩
    rcases hpass.done o' ho' hours' hblock' with hrest | hdone
    · rcases List.mem_cons.mp hrest with rfl | hrest
      · exact Or.inr (h.recorded_of_reference hnew hmem href hcarries)
      · exact Or.inl hrest
    · exact Or.inr (hdone.of_ledger hold)
  | claims actions reserved hphase hok =>
    rw [hphase] at hpass
    have heq := ledger_claimed hok
    exact h.of_ledger_eq heq (hpass.1.of_db fun _ hp ↦ heq ▸ hp)
  | @advances number last head now hphase =>
    rw [hphase] at hpass
    exact h.advanced hpass now
  | waits now hphase => exact h.of_phase trivial
  | reclaims actions reserved hphase hok => exact h.of_ledger_eq (ledger_claimed hok) trivial
  | bests hphase => exact h.of_phase trivial
  | readsTail hphase hfound => exact h.of_phase trivial
  | marks actions hphase hok => exact h.of_ledger_eq (ledger_marked hok) trivial
  | goesOn hphase => exact h.of_phase trivial
  | submits hphase hlt => exact h.of_phase trivial
  | reverts now hphase hok => exact h.of_ledger_eq (ledger_reverted hok) trivial

theorem InPass.of_chain {settings : Settings} {w : Watch} {phase : Phase}
    (h : InPass settings w phase) (blocks : ℕ → PayoutBlock) (finalized best : ℕ) :
    InPass settings { w with chain := w.chain.reorganise blocks finalized best } phase := by
  have hhead : w.chain.finalizedHead ≤
    (w.chain.reorganise blocks finalized best).finalizedHead := le_max_left _ _
  have hblock : ∀ {number last rest}, InBlock settings w number last rest →
      InBlock settings { w with chain := w.chain.reorganise blocks finalized best } number last
        rest := by
    intro number last rest h
    refine ⟨h.reached, h.last.trans hhead, h.final.trans hhead, fun o ho ↦ ?_,
      fun o ho hours hnumber ↦ ?_⟩
    · obtain ⟨hcarries, hours, hnumber⟩ := h.left o ho
      exact ⟨(BestChain.carries_reorganise (hnumber ▸ h.final) blocks finalized best).mpr hcarries,
        hours, hnumber⟩
    · rw [BestChain.carries_reorganise (hnumber ▸ h.final)] at ho
      exact h.done o ho hours hnumber
  cases phase
  case scanning => exact ⟨h.1, h.2.trans hhead⟩
  case recording => exact hblock h
  case claiming => exact ⟨hblock h.1, h.2⟩
  all_goals exact h

theorem ledger_step (settings : Settings) (w : Watch) (a : Action) (h : Ledger settings w) :
    Ledger settings (watchStep settings w a) := by
  cases a with
  | watcher m => exact ledger_move (move_cases settings w m) h
  | chain blocks finalized best =>
    refine ⟨fun p hp ↦ ?_, h.mark, fun c hc n hstart hlast ↦ ?_, h.pass.of_chain _ _ _⟩
    · obtain ⟨o, hfinal, hrow⟩ := h.rows p hp
      exact ⟨o, final_reorganise hfinal _ _ _, hrow⟩
    · exact (h.covered c hc n hstart hlast).reorganise _ _ _
  | client a =>
    dsimp only [watchStep]
    split
    · exact h
    · rename_i ha
      have heq := ledger_client w.db a ha
      have hpass := h.pass
      refine h.of_ledger_eq heq ?_
      cases hphase : w.phase <;> rw [hphase] at hpass
      case recording => exact hpass.of_db fun _ hp ↦ heq ▸ hp
      case claiming =>
        obtain ⟨hblock, p, hp, hid⟩ := hpass
        exact ⟨hblock.of_db fun _ hp ↦ heq ▸ hp, p, heq ▸ hp, hid⟩
      all_goals exact hpass

/-! ## Whole runs -/

/-- A watcher that has never run. -/
structure Untouched (w : Watch) : Prop where
  payouts : w.db.payouts.rows = []
  cursor : w.cursor = none
  phase : w.phase = .idle

theorem Untouched.ledger {settings : Settings} {w : Watch} (h : Untouched w) :
    Ledger settings w := by
  refine ⟨fun p hp ↦ ?_, fun c hc ↦ ?_, fun c hc ↦ ?_, ?_⟩
  · rw [PayoutWatcher.ledger, h.payouts] at hp
    cases hp
  · rw [h.cursor] at hc
    cases hc
  · rw [h.cursor] at hc
    cases hc
  · rw [h.phase]
    trivial

theorem run_db (settings : Settings) (w : Watch) (as : List Action) :
    ∃ steps, (run (watchStep settings) w as).db = run Rewards.step w.db steps :=
  run_simulates Watch.db (watchStep_db settings) w as

/-- What is said of the two tables at one point. -/
structure OneToOne (db : RewardDatabase) : Prop where
  /-- a payout settles one obligation at most, and an obligation is settled by one at most -/
  one : ∀ p ∈ db.payouts.rows, ∀ p' ∈ db.payouts.rows, ∀ e ∈ db.events.rows,
    ∀ e' ∈ db.events.rows, Settles p e → Settles p' e' → (p = p' ↔ e = e')
  agree : ∀ p ∈ db.payouts.rows, ∀ e ∈ db.events.rows, Settles p e →
    e.amountRao = p.amountRao ∧ e.destinationColdkey = p.destinationColdkey
  /-- a payout is bound to nothing it did not settle -/
  claimed : ∀ p ∈ db.payouts.rows, ∀ i, p.rewardEventId = some i →
    ∃ e ∈ db.events.rows, e.id = i ∧ Settles p e
  settled : ∀ e ∈ db.events.rows, e.status = .confirmed → e.chainObserved = true →
    ∃ p ∈ db.payouts.rows, Settles p e
  rewarded : ∀ s ∈ db.submissions.rows, s.rewardStatus = .rewarded →
    ∃ e ∈ db.events.rows, e.submissionId = s.id ∧ e.status = .confirmed

theorem oneToOne_of_matched {db : RewardDatabase} (h : Matched db) : OneToOne db where
  one _ hp _ hp' _ he _ he' hs hs' := h.eq_iff hp hp' he he' hs hs'
  agree _ hp _ he hs :=
    have hsettled := (h.settledBy hp he hs).2
    ⟨hsettled.amount, hsettled.coldkey⟩
  claimed p hp i hi := by
    obtain ⟨e, he, hid, hsettled⟩ := h.settled p hp i hi
    exact ⟨e, he, hid, hsettled.status, hsettled.observed, Or.inl (hid ▸ hi)⟩
  settled e he hstatus hobserved := by
    obtain ⟨p, hp, hbound⟩ := h.bound e he hstatus hobserved
    exact ⟨p, hp, hstatus, hobserved, Or.inl hbound⟩
  rewarded := h.rewarded

/-- The payouts of the scanned blocks have their rows, and one that is about to be claimed
has its own already. -/
structure Complete (settings : Settings) (w : Watch) : Prop where
  scanned : ∀ c, w.cursor = some c → ∀ o, w.chain.Carries o → Ours settings o →
    c.startBlock ≤ o.block → (o.block : ℤ) ≤ c.lastScannedBlock →
    ∃ p ∈ w.db.payouts.rows, recorded p = o.row p.price p.id
  claiming : ∀ payoutId number last head rest,
    w.phase = .claiming payoutId number last head rest → ∃ p ∈ w.db.payouts.rows, p.id = payoutId

theorem Ledger.complete {settings : Settings} {w : Watch} (h : Ledger settings w) :
    Complete settings w := by
  refine ⟨fun c hc o ho hours hstart hlast ↦ ?_, fun payoutId number last head rest hphase ↦ ?_⟩
  · obtain ⟨_, hmem, hrow⟩ := (h.covered c hc o.block hstart hlast).2 o ho hours rfl
    obtain ⟨p, hp, rfl⟩ := List.mem_map.mp hmem
    exact ⟨p, hp, hrow⟩
  · have hpass := h.pass
    rw [hphase] at hpass
    obtain ⟨-, _, hmem, hid⟩ := hpass
    obtain ⟨p, hp, rfl⟩ := List.mem_map.mp hmem
    exact ⟨p, hp, hid⟩

/-- Whatever the order of the transactions, payouts and obligations are matched one to one;
and whatever becomes of claiming it, a payout of a scanned block is in the ledger. -/
theorem payouts_match_rewards (settings : Settings) :
    (∀ db, Opening db → ∀ steps, OneToOne (run Rewards.step db steps)) ∧
      ∀ w, Untouched w → ∀ as, Complete settings (run (watchStep settings) w as) :=
  ⟨fun _ hdb steps ↦ oneToOne_of_matched (run_matched hdb steps), fun _ hw as ↦
    (@run_invariant _ _ (watchStep settings) (Ledger settings) (ledger_step settings) _
      hw.ledger as).complete⟩

/-! ## An example -/

def exampleSettings : Settings := ⟨defaultNetwork, "treasury", "hotkey", defaultNetuid, 10⟩

/-- The events of a payout of Alpha to a coldkey. -/
def payoutEvents (extrinsic : ℕ) (coldkey : Ss58) (amount : ℤ) : List StakeRecord :=
  [⟨.added coldkey "hotkey" defaultNetuid amount, some extrinsic⟩,
    ⟨.transferred "treasury" coldkey "hotkey" defaultNetuid defaultNetuid 7, some extrinsic⟩]

/-- A chain with a block every second. -/
def exampleChain (finalized best : ℕ) (events : ℕ → List StakeRecord) : BestChain where
  blocks n := ⟨n * second, events n⟩
  finalizedHead := finalized
  bestHead := max finalized best
  finalized_le := le_max_left _ _

/-- An accepted and approved submission, whose reward of 100 rao is seeded. -/
def owedSteps : List Step :=
  [.verify 1 [] acceptance, .decide 1 [] ⟨.approved, "NOVEL", "ada", none, none⟩,
    .seed ⟨1, "proof", 100, "miner", 0⟩ { newcomer with rewardStatus := .eligible }]

def owedWatch (chain : BestChain) : Watch :=
  ⟨run Rewards.step newcomerDatabase owedSteps, none, chain, .idle⟩

/-- Scan blocks 5 and 6; the second one has a payout. -/
def scanSix : List Action :=
  [.watcher (.openCursor 5 0), .watcher .start, .watcher .head, .watcher .read,
    .watcher (.advance 0), .watcher .read, .watcher (.record none), .watcher (.claim [] false),
    .watcher (.advance 0)]

def chainSix : BestChain :=
  exampleChain 6 6 fun n ↦ if n = 6 then payoutEvents 1 "miner" 100 else []

/-- The payout in block 6, as it is read. -/
def payoutSix : ObservedPayout where
  block := 6
  blockTimestamp := 6 * second
  extrinsicIndex := 1
  eventIndex := 1
  originColdkey := "treasury"
  destinationColdkey := "miner"
  originHotkey := "hotkey"
  destinationHotkey := "hotkey"
  originNetuid := defaultNetuid
  destinationNetuid := defaultNetuid
  amountRao := 100
  taoEquivalentRao := some 7

theorem chainSix_carries : chainSix.Carries payoutSix :=
  ⟨[payoutSix], by decide +kernel, List.mem_singleton_self _⟩

theorem untouched_owedWatch (chain : BestChain) : Untouched (owedWatch chain) where
  payouts :=
    have hpayouts : (run step newcomerDatabase owedSteps).payouts.rows = [] := by decide +kernel
    hpayouts
  cursor := rfl
  phase := rfl

theorem opening_newcomerDatabase : Opening newcomerDatabase where
  payouts := rfl
  references := fun _ h ↦ absurd h List.not_mem_nil
  unobserved := fun _ h ↦ absurd h List.not_mem_nil
  rewarded := by decide

theorem payout_of_block_six_is_matched :
    (∃ p ∈ (run (watchStep exampleSettings) (owedWatch chainSix) scanSix).db.payouts.rows,
      p.extrinsicReference = payoutSix.reference ∧ p.amountRao = 100) ∧
    ∃ p ∈ (run step newcomerDatabase
        (owedSteps ++ [.record payoutSix none, .claim [] false 1])).payouts.rows,
      ∃ e ∈ (run step newcomerDatabase
        (owedSteps ++ [.record payoutSix none, .claim [] false 1])).events.rows,
      Settles p e ∧ e.amountRao = p.amountRao ∧ e.destinationColdkey = p.destinationColdkey := by
  obtain ⟨hmatch, hcomplete⟩ := payouts_match_rewards exampleSettings
  constructor
  · obtain ⟨c, hc, hstart, hlast⟩ : ∃ c,
        (run (watchStep exampleSettings) (owedWatch chainSix) scanSix).cursor = some c ∧
          c.startBlock = 5 ∧ c.lastScannedBlock = 6 := by
      refine ⟨_, rfl, ?_, ?_⟩ <;> decide +kernel
    obtain ⟨p, hp, hrow⟩ := (hcomplete _ (untouched_owedWatch _) scanSix).scanned c hc payoutSix
      chainSix_carries (by decide) (by rw [hstart]; decide) (by rw [hlast]; decide)
    exact ⟨p, hp, congrArg TreasuryPayout.extrinsicReference hrow,
      congrArg TreasuryPayout.amountRao hrow⟩
  · obtain ⟨p, hp, e, he, hstatus, hobserved, hbound⟩ : ∃ p ∈ (run step newcomerDatabase
        (owedSteps ++ [.record payoutSix none, .claim [] false 1])).payouts.rows,
        ∃ e ∈ (run step newcomerDatabase
          (owedSteps ++ [.record payoutSix none, .claim [] false 1])).events.rows,
        e.status = .confirmed ∧ e.chainObserved = true ∧ p.rewardEventId = some e.id := by
      decide +kernel
    have hsettles : Settles p e := ⟨hstatus, hobserved, Or.inl hbound⟩
    exact ⟨p, hp, e, he, hsettles,
      (hmatch _ opening_newcomerDatabase _).agree p hp e he hsettles⟩

end Conjectures.PayoutWatcher

import Conjectures.PayoutWatcher.Ledger

/-!
# What is SUBMITTED is on the best chain

A pass that has caught up with finality reads the unfinalized tail, marks the obligations it
finds paid there, and rolls back those whose payout it did not find.  It looks for the latter
only past the finalized head.  So an obligation is left behind when finality passes the block
its payout was seen in on a chain without that payout; short of that, and of a tail that
changes while it is read, every completed pass leaves what is SUBMITTED on the best chain
(`completed_pass_follows_chain`).
-/

namespace Conjectures.PayoutWatcher

open Lib Db Chain Rewards

/-! ## The claim -/

/-- The best chain has a payout of the watcher's under this reference. -/
def Shown (settings : Settings) (chain : BestChain) (reference : String) : Prop :=
  ∃ o, chain.Carries o ∧ Ours settings o ∧ o.reference = reference

/-- The watcher set the obligation to SUBMITTED, from the chain. -/
def SeenOnChain (e : RewardEvent) : Prop := e.status = .submitted ∧ e.chainObserved = true

/-- Every obligation the watcher has as SUBMITTED names a payout on the best chain, at or
below its tip. -/
def Followed (settings : Settings) (w : Watch) : Prop :=
  ∀ e ∈ w.db.events.rows, SeenOnChain e → ∃ o, w.chain.Carries o ∧ Ours settings o ∧
    o.block ≤ w.chain.bestHead ∧ e.extrinsicReference = some o.reference

/-- The next move completes a pass that caught up with the finalized head. -/
def Completes (w : Watch) (a : Action) : Prop :=
  a = .watcher .finish ∧ ∃ seen, w.phase = .rollingBack seen []

/-! ## What the chain has to keep -/

/-- The payouts of the tail that the pass under way has read. -/
def Phase.read : Phase → List String
  | .tail _ _ _ seen | .rollingBack seen _ => seen
  | .marking _ _ _ seen rest => seen ++ rest.map ObservedPayout.reference
  | _ => []

/-- A reorganisation keeps the payouts the pass under way has read, and finality passes the
block an obligation's payout was seen in only where the payout still is. -/
def ChainKeeps (settings : Settings) (w : Watch) : Action → Prop
  | .chain blocks finalized best =>
    (∀ reference ∈ w.phase.read,
      Shown settings (w.chain.reorganise blocks finalized best) reference) ∧
    ∀ e ∈ w.db.events.rows, SeenOnChain e → ∀ block ∈ e.submittedBlock,
      block ≤ (w.chain.reorganise blocks finalized best).finalizedHead →
      ∀ reference ∈ e.extrinsicReference,
        Shown settings (w.chain.reorganise blocks finalized best) reference
  | _ => True

/-! ## The invariant -/

/-- The obligation was seen where it says, and if that is final now the payout is there. -/
def Placed (settings : Settings) (chain : BestChain) (e : RewardEvent) : Prop :=
  ∃ reference block, e.extrinsicReference = some reference ∧ e.submittedBlock = some block ∧
    (block ≤ chain.finalizedHead → Shown settings chain reference)

/-- What the pass under way relies on. -/
def InTail (settings : Settings) (w : Watch) : Phase → Prop
  | .scanning _ _ head | .recording _ _ head _ | .claiming _ _ _ head _ | .catchingUp head _ =>
    head ≤ w.chain.finalizedHead
  | .tail _ _ head seen =>
    head ≤ w.chain.finalizedHead ∧ ∀ reference ∈ seen, Shown settings w.chain reference
  | .marking _ _ head seen rest =>
    head ≤ w.chain.finalizedHead ∧ (∀ reference ∈ seen, Shown settings w.chain reference) ∧
      ∀ o ∈ rest, Shown settings w.chain o.reference
  | .rollingBack seen rest =>
    (∀ reference ∈ seen, Shown settings w.chain reference) ∧
      ∀ e ∈ w.db.events.rows, SeenOnChain e →
        (∀ block ∈ e.submittedBlock, block ≤ w.chain.finalizedHead) ∨
        ∀ reference ∈ e.extrinsicReference, reference ∈ seen ∨
          ∃ item ∈ rest, item.rewardEventId = e.id ∧ item.reference = reference
  | _ => True

structure Follows (settings : Settings) (w : Watch) : Prop where
  placed : ∀ e ∈ w.db.events.rows, SeenOnChain e → Placed settings w.chain e
  pass : InTail settings w w.phase

/-- A pass with nothing left to roll back has followed the chain. -/
theorem Follows.followed {settings : Settings} {w : Watch} {seen : List String}
    (h : Follows settings w) (hphase : w.phase = .rollingBack seen []) :
    Followed settings w := by
  intro e he hseen
  have hpass := h.pass
  rw [hphase] at hpass
  obtain ⟨reference, block, href, hblock, hfinal⟩ := h.placed e he hseen
  have hshown : Shown settings w.chain reference := by
    rcases hpass.2 e he hseen with hle | hread
    · exact hfinal (hle block hblock)
    · rcases hread reference href with hread | ⟨item, hitem, -⟩
      · exact hpass.1 reference hread
      · cases hitem
  obtain ⟨o, ho, hours, rfl⟩ := hshown
  exact ⟨o, ho, hours, ho.le_bestHead, href⟩

/-! ## Transactions -/

/-- No obligation becomes SUBMITTED, and none that was is altered. -/
def Unmarked (db db' : RewardDatabase) : Prop :=
  ∀ e ∈ db'.events.rows, SeenOnChain e → e ∈ db.events.rows

theorem unmarked_of_modify {db db' : RewardDatabase} {eventId : ℕ}
    {f : RewardEvent → RewardEvent} (hf : ∀ e, (f e).id = e.id)
    (h : db'.events = db.events.modify eventId f hf) (hseen : ∀ e, ¬ SeenOnChain (f e)) :
    Unmarked db db' := by
  intro e he hs
  rw [h, Table.mem_modify] at he
  rcases he with ⟨he, -⟩ | ⟨e, -, -, rfl⟩
  · exact he
  · exact absurd hs (hseen e)

theorem unmarked_settled {db db₁ db' : RewardDatabase} {e : RewardEvent} {p : TreasuryPayout}
    {s : Submission} (h : Settled db₁ db' e p s) (hev : db₁.events = db.events) :
    Unmarked db db' := by
  rcases h.result with ⟨-, -, -, rfl⟩ | ⟨-, -, -, timeline, rfl⟩
  · exact fun e he _ ↦ hev ▸ he
  · exact unmarked_of_modify (RewardEvent.confirmed_id p.sighting) (by rw [← hev])
      fun _ h ↦ nomatch h.1

theorem unmarked_claimed {db db' : RewardDatabase} {actions : List PayoutInstructionAction}
    {reserved : Bool} {payoutId : ℕ} {update : Option PayoutUpdate}
    (h : claimPayout db actions reserved payoutId = .ok (update, db')) : Unmarked db db' := by
  rcases claimPayout_ok h with ⟨-, rfl⟩ | ⟨p, -, -, -, e, -, -, -, s, hsettled⟩
  · exact fun _ he _ ↦ he
  · exact unmarked_settled hsettled rfl

theorem unmarked_recorded {db db' : RewardDatabase} {o : ObservedPayout}
    {price : Option (ℚ × Instant)} {p : TreasuryPayout}
    (h : recordPayout db o price = .ok (p, db')) : Unmarked db db' := by
  rcases recordPayout_ok h with ⟨-, -, rfl⟩ | ⟨-, -, -, rfl⟩ <;> exact fun _ he _ ↦ he

theorem unmarked_reverted {db db' : RewardDatabase} {item : SubmittedPayout} {now : Instant}
    {changed : Bool} (h : revertSubmitted db item now = .ok (changed, db')) :
    Unmarked db db' ∧ ∀ e ∈ db'.events.rows, SeenOnChain e → item.rewardEventId = e.id →
      e.extrinsicReference ≠ some item.reference := by
  rcases revertSubmitted_ok h with ⟨-, rfl, hgone⟩ | ⟨e, he, hid, -, -, -, timeline, rfl⟩
  · exact ⟨fun _ he _ ↦ he, fun e he hseen hid ↦ hgone e he hid.symm hseen.1⟩
  · refine ⟨unmarked_of_modify RewardEvent.reverted_id rfl fun _ h ↦ (by cases h.1), ?_⟩
    intro e' he' hseen hid'
    rw [Table.mem_modify_of_mem he] at he'
    rcases he' with ⟨-, hne⟩ | rfl
    · exact absurd (hid'.symm.trans hid.symm) hne
    · cases hseen.1

/-- Only the watcher marks. -/
theorem unmarked_client (db : RewardDatabase) (a : Step) (ha : ¬ OfWatcher a) :
    Unmarked db (step db a) := by
  have hwritten := step_written db a
  generalize step db a = db' at hwritten ⊢
  cases hwritten with
  | unpaid h => exact fun _ he _ ↦ h.events ▸ he
  | @seeded r seen hseen hs =>
    intro e he hseen
    rcases List.mem_append.mp he with he | he
    · exact he
    · rw [List.mem_singleton.mp he] at hseen
      cases hseen.1
  | marked | reverted | recorded | claimed => exact absurd trivial ha
  | bound _ _ _ _ _ h => exact unmarked_settled h rfl
  | disregarded => exact fun _ he _ ↦ he

/-! ## Steps -/

/-- A transaction that marks nothing. -/
theorem Follows.of_unmarked {settings : Settings} {w : Watch} {db : RewardDatabase}
    {phase : Phase} (h : Follows settings w) (hdb : Unmarked w.db db)
    (hpass : InTail settings { w with db, phase } phase) :
    Follows settings { w with db, phase } :=
  ⟨fun e he hseen ↦ h.placed e (hdb e he hseen) hseen, hpass⟩

/-- A move that only changes the place in the pass. -/
theorem Follows.of_phase {settings : Settings} {w : Watch} {phase : Phase}
    (h : Follows settings w) (hpass : InTail settings { w with phase } phase) :
    Follows settings { w with phase } := ⟨h.placed, hpass⟩

theorem follows_move {settings : Settings} {w w' : Watch} (hmove : Moved settings w w')
    (h : Follows settings w) : Follows settings w' := by
  have hpass := h.pass
  cases hmove with
  | stays => exact h
  | stops => exact h.of_phase trivial
  | opens startBlock now => exact ⟨h.placed, hpass⟩
  | starts cursor hcursor => exact h.of_phase trivial
  | heads scanned hphase => exact h.of_phase le_rfl
  | reads hphase hle hfound =>
    rw [hphase] at hpass
    exact h.of_phase hpass
  | records price hphase hok =>
    rw [hphase] at hpass
    exact h.of_unmarked (unmarked_recorded hok) hpass
  | claims actions reserved hphase hok =>
    rw [hphase] at hpass
    exact h.of_unmarked (unmarked_claimed hok) hpass
  | advances now hphase =>
    rw [hphase] at hpass
    exact ⟨h.placed, hpass⟩
  | waits now hphase =>
    rw [hphase] at hpass
    exact h.of_phase hpass
  | reclaims actions reserved hphase hok =>
    rw [hphase] at hpass
    exact h.of_unmarked (unmarked_claimed hok) hpass
  | bests hphase =>
    rw [hphase] at hpass
    exact h.of_phase ⟨hpass, nofun⟩
  | readsTail hphase hfound =>
    rw [hphase] at hpass
    refine h.of_phase ⟨hpass.1, hpass.2, fun o ho ↦ ?_⟩
    obtain ⟨hcarries, -, hours⟩ := (mem_oursIn hfound).mp ho
    exact ⟨o, hcarries, hours, rfl⟩
  | @marks number best head seen o rest actions update db hphase hok =>
    rw [hphase] at hpass
    obtain ⟨hhead, hseen, hrest⟩ := hpass
    have ho := hrest o List.mem_cons_self
    refine ⟨fun e he hmarked ↦ ?_, hhead, fun reference href ↦ ?_,
      fun o' ho' ↦ hrest o' (List.mem_cons_of_mem _ ho')⟩
    · rcases markSubmitted_ok hok with ⟨rfl, -⟩ | ⟨e₀, s, h₀⟩
      · exact h.placed e he hmarked
      · obtain ⟨timeline, rfl⟩ := h₀.result
        rw [@Table.mem_modify_of_mem _ _ _ _ _ (RewardEvent.submitted_id o.sighting) _ _ _
          h₀.event] at he
        rcases he with ⟨he, -⟩ | rfl
        · exact h.placed e he hmarked
        · exact ⟨o.reference, o.block, rfl, rfl, fun _ ↦ ho⟩
    · rcases List.mem_cons.mp href with rfl | href
      · exact ho
      · exact hseen reference href
  | goesOn hphase =>
    rw [hphase] at hpass
    exact h.of_phase ⟨hpass.1, hpass.2.1⟩
  | @submits number best head seen hphase hlt =>
    rw [hphase] at hpass
    refine h.of_phase ⟨hpass.2, fun e he hmarked ↦ ?_⟩
    obtain ⟨reference, block, href, hblock, -⟩ := h.placed e he hmarked
    by_cases hfinal : block ≤ head
    · refine Or.inl fun block' hblock' ↦ ?_
      cases hblock.symm.trans hblock'
      exact hfinal.trans hpass.1
    · refine Or.inr fun reference' href' ↦ or_iff_not_imp_left.mpr fun hunseen ↦ ?_
      cases href.symm.trans href'
      refine ⟨⟨e.id, reference, block⟩, List.mem_filter.mpr ⟨?_, by simpa using hunseen⟩, rfl, rfl⟩
      refine List.mem_filterMap.mpr ⟨e, he, ?_⟩
      rw [RewardEvent.submittedAfter,
        if_pos (show e.status = .submitted ∧ e.chainObserved = true from hmarked), href, hblock]
      exact if_pos (not_le.mp hfinal)
  | @reverts seen item rest now changed db hphase hok =>
    rw [hphase] at hpass
    obtain ⟨hunmarked, hgone⟩ := unmarked_reverted hok
    refine h.of_unmarked hunmarked ⟨hpass.1, fun e he hmarked ↦ ?_⟩
    refine (hpass.2 e (hunmarked e he hmarked) hmarked).imp_right fun hread reference href ↦ ?_
    refine (hread reference href).imp_right ?_
    rintro ⟨item', hitem', hid, rfl⟩
    rcases List.mem_cons.mp hitem' with rfl | hitem'
    · exact absurd href (hgone e he hmarked hid)
    · exact ⟨item', hitem', hid, rfl⟩

theorem follows_reorganise {settings : Settings} {w : Watch} {blocks : ℕ → PayoutBlock}
    {finalized best : ℕ} (hkeeps : ChainKeeps settings w (.chain blocks finalized best))
    (h : Follows settings w) :
    Follows settings { w with chain := w.chain.reorganise blocks finalized best } := by
  obtain ⟨hread, hpassed⟩ := hkeeps
  have hhead : w.chain.finalizedHead ≤
    (w.chain.reorganise blocks finalized best).finalizedHead := le_max_left _ _
  refine ⟨fun e he hmarked ↦ ?_, ?_⟩
  · obtain ⟨reference, block, href, hblock, -⟩ := h.placed e he hmarked
    exact ⟨reference, block, href, hblock, fun hfinal ↦
      hpassed e he hmarked block hblock hfinal reference href⟩
  · have hpass := h.pass
    cases hphase : w.phase <;> rw [hphase] at hpass hread
    case tail => exact ⟨hpass.1.trans hhead, hread⟩
    case marking =>
      exact ⟨hpass.1.trans hhead, fun reference href ↦ hread reference (List.mem_append_left _ href),
        fun o ho ↦ hread _ (List.mem_append_right _ (List.mem_map_of_mem ho))⟩
    case rollingBack =>
      refine ⟨hread, fun e he hmarked ↦ ?_⟩
      exact (hpass.2 e he hmarked).imp_left fun hle block hblock ↦ (hle block hblock).trans hhead
    case idle | awaitingHead => trivial
    all_goals exact hpass.trans hhead

theorem follows_client {settings : Settings} {w : Watch} {a : Step} (ha : ¬ OfWatcher a)
    (h : Follows settings w) : Follows settings { w with db := step w.db a } := by
  have hunmarked := unmarked_client w.db a ha
  have hpass := h.pass
  refine h.of_unmarked hunmarked ?_
  cases hphase : w.phase <;> rw [hphase] at hpass
  case rollingBack =>
    exact ⟨hpass.1, fun e he hmarked ↦ hpass.2 e (hunmarked e he hmarked) hmarked⟩
  all_goals exact hpass

theorem follows_step (settings : Settings) (w : Watch) (a : Action)
    (hkeeps : ChainKeeps settings w a) (h : Follows settings w) :
    Follows settings (watchStep settings w a) := by
  cases a with
  | watcher m => exact follows_move (move_cases settings w m) h
  | chain blocks finalized best => exact follows_reorganise hkeeps h
  | client a =>
    dsimp only [watchStep]
    split
    · exact h
    · exact follows_client ‹_› h

/-! ## Whole runs -/

/-- The watcher is between passes, and has observed nothing yet. -/
structure Unseen (w : Watch) : Prop where
  phase : w.phase = .idle
  events : ∀ e ∈ w.db.events.rows, e.chainObserved = false

theorem Unseen.follows {settings : Settings} {w : Watch} (h : Unseen w) :
    Follows settings w := by
  refine ⟨fun e he hseen ↦ ?_, ?_⟩
  · rw [SeenOnChain, h.events e he] at hseen
    cases hseen.2
  · rw [h.phase]
    trivial

/-- In every run whose reorganisations keep what the pass under way has read, and in which
finality passes the block of an observed payout only on a chain that has it, each pass that
completes leaves every SUBMITTED obligation on the best chain. -/
theorem completed_pass_follows_chain (settings : Settings) (w : Watch) (hw : Unseen w)
    (as : List Action) (has : Each (watchStep settings) (ChainKeeps settings) w as) :
    Each (watchStep settings)
      (fun w a ↦ Completes w a → Followed settings (watchStep settings w a)) w as := by
  refine has.imp (follows_step settings) (fun w a _ h hcompletes ↦ ?_) hw.follows
  obtain ⟨rfl, seen, hphase⟩ := hcompletes
  have hfinish : watchStep settings w (.watcher .finish) = { w with phase := .idle } := by
    dsimp only [watchStep, move]
    rw [hphase]
  rw [hfinish]
  exact h.followed hphase

/-! ## An example -/

/-- One pass over the finalized block 5 and the unfinalized block 6, with a payout in it. -/
def markSix : List Action :=
  [.watcher (.openCursor 5 0), .watcher .start, .watcher .head, .watcher .read,
    .watcher (.advance 0), .watcher (.unclaimed 0), .watcher .best, .watcher .read,
    .watcher (.mark []), .watcher .nextBlock, .watcher .submitted]

def chainFive : BestChain :=
  exampleChain 5 6 fun n ↦ if n = 6 then payoutEvents 1 "miner" 100 else []

theorem unseen_owedWatch (chain : BestChain) : Unseen (owedWatch chain) where
  phase := rfl
  events :=
    have hevents : ∀ e ∈ (run step newcomerDatabase owedSteps).events.rows,
      e.chainObserved = false := by decide +kernel
    hevents

theorem marked_payout_is_on_chain :
    Followed exampleSettings
      (run (watchStep exampleSettings) (owedWatch chainFive) (markSix ++ [.watcher .finish])) := by
  have hkeeps : Each (watchStep exampleSettings) (ChainKeeps exampleSettings)
      (owedWatch chainFive) (markSix ++ [.watcher .finish]) := by
    simp only [markSix, List.cons_append, List.nil_append, Each, ChainKeeps, and_self]
  have hpass := completed_pass_follows_chain exampleSettings _ (unseen_owedWatch chainFive) _ hkeeps
  rw [run_append]
  exact (each_append.mp hpass).2.1 ⟨rfl, [payoutSix.reference], by decide +kernel⟩

/-- After the first pass the payout is moved from block 6 to block 8, and block 7 is
finalized. -/
def moveToEight : Action :=
  .chain (fun n ↦ ⟨n * second, if n = 8 then payoutEvents 1 "miner" 100 else []⟩) 7 8

/-- The second pass reads blocks 6 and 7, and the payout in block 8. -/
def secondPass : List Action :=
  [.watcher .start, .watcher .head, .watcher .read, .watcher (.advance 0), .watcher .read,
    .watcher (.advance 0), .watcher (.unclaimed 0), .watcher .best, .watcher .read,
    .watcher (.mark []), .watcher .nextBlock, .watcher .submitted]

/-- The obligation still names the payout in block 6 when the second pass is complete. -/
theorem reorganised_payout_stays_submitted :
    ¬ ∀ (settings : Settings) (w : Watch), Unseen w → ∀ as a,
      Completes (run (watchStep settings) w as) a →
      Followed settings (watchStep settings (run (watchStep settings) w as) a) := by
  intro h
  let w := run (watchStep exampleSettings) (owedWatch chainFive)
    (markSix ++ .watcher .finish :: moveToEight :: secondPass)
  obtain ⟨e, he, hstatus, hobserved, href⟩ :
      ∃ e ∈ (watchStep exampleSettings w (.watcher .finish)).db.events.rows,
        e.status = .submitted ∧ e.chainObserved = true ∧
          e.extrinsicReference = some payoutSix.reference := by
    decide +kernel
  have hempty : (watchStep exampleSettings w (.watcher .finish)).chain.payoutsIn 6 = .ok [] := by
    decide +kernel
  have hfollowed := h exampleSettings (owedWatch chainFive) (unseen_owedWatch _) _
    (.watcher .finish) ⟨rfl, ["8-1-1"], show w.phase = _ by decide +kernel⟩
  obtain ⟨o, ⟨found, hfound, ho⟩, -, -, hnames⟩ := hfollowed e he ⟨hstatus, hobserved⟩
  obtain ⟨hblock, -, -⟩ := position_injective (Option.some.inj (hnames.symm.trans href))
  rw [show o.block = 6 from hblock, hempty] at hfound
  cases hfound
  cases ho

end Conjectures.PayoutWatcher

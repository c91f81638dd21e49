import Conjectures.Chain.Payouts
import Conjectures.Rewards.Steps

/-!
# Passes of the payout watcher

`scan_once` of `payout_watcher/watcher.py`, cut at every chain read and every transaction:
the finalized blocks first, then the payouts that waited for their obligation, then the
unfinalized tail, and last the obligations whose payout is no longer in it.  Between any two
moves the process may stop, the chain may grow or be reorganised, and the other clients of
the reward tables run their transactions.

One watcher runs.  A read that fails, or a transaction that refuses, ends the pass.
-/

namespace Conjectures.PayoutWatcher

open Lib Db Chain

/-! ## Settings -/

def defaultNetwork : String := "finney"
def defaultNetuid : ℕ := 66
def defaultProxyFor : Ss58 := "5HMqFHmvUpzuAjEnse3hzMKS5LsFL428hffCfenF2smuGNhs"
def defaultOriginHotkey : Ss58 := "5DRPoRiBSPNvgSvRsehaUhtXqPgXYrds8VS42vdzT5MzcpZV"
def legacyOriginHotkey : Ss58 := "5Gn2SyG6PmBstAjiPD93CTuxADqYaYqf6fKeFuezKsX7Chf9"

/-- `PayoutWatcherSettings`: the stake position payouts leave, and the size of a batch. -/
structure Settings where
  network : String
  originColdkey : Ss58
  originHotkey : Ss58
  netuid : ℕ
  batchBlocks : ℕ

/-- Follow the treasury's present and historical delegation. -/
def Settings.acceptedOriginHotkeys (settings : Settings) : List Ss58 :=
  if settings.network = defaultNetwork ∧ settings.originColdkey = defaultProxyFor ∧
      settings.originHotkey = defaultOriginHotkey ∧ settings.netuid = defaultNetuid then
    [defaultOriginHotkey, legacyOriginHotkey]
  else [settings.originHotkey]

/-- `_ours`: the payout left the watched position. -/
def Ours (settings : Settings) (o : ObservedPayout) : Prop :=
  o.originColdkey = settings.originColdkey ∧ o.originHotkey ∈ settings.acceptedOriginHotkeys ∧
    o.originNetuid = settings.netuid ∧ o.destinationNetuid = settings.netuid

instance Ours.decidable (settings : Settings) (o : ObservedPayout) :
    Decidable (Ours settings o) := by
  unfold Ours; infer_instance

/-- `_require_same_watch`. -/
def SameWatch (settings : Settings) (cursor : PayoutWatchCursor) : Prop :=
  cursor.network = settings.network ∧ cursor.originColdkey = settings.originColdkey ∧
    cursor.netuid = settings.netuid ∧ cursor.originHotkey ∈ settings.acceptedOriginHotkeys

instance SameWatch.decidable (settings : Settings) (cursor : PayoutWatchCursor) :
    Decidable (SameWatch settings cursor) := by
  unfold SameWatch; infer_instance

/-- Open the cursor at the first block that may hold a payout of an obligation. -/
def openCursor (settings : Settings) (startBlock : ℕ) (now : Instant) :
    Option PayoutWatchCursor → Option PayoutWatchCursor
  | some cursor => some cursor
  | none =>
    if 0 < startBlock then some
      { network := settings.network
        originColdkey := settings.originColdkey
        originHotkey := settings.originHotkey
        netuid := settings.netuid
        startBlock
        lastScannedBlock := (startBlock : ℤ) - 1
        lastScannedAt := now }
    -- `payout_cursor_start_block_positive`
    else none

/-! ## The process -/

/-- Where the watcher is in a pass.  `head` is the finalized head the pass was told. -/
inductive Phase where
  /-- between passes, or started again after a crash -/
  | idle
  | awaitingHead (scanned : ℤ)
  /-- about to read the finalized block `number` of a pass that ends at `last` -/
  | scanning (number last head : ℕ)
  /-- the payouts of block `number` still to be recorded -/
  | recording (number last head : ℕ) (rest : List ObservedPayout)
  /-- the payout is in the ledger; claiming it is the next transaction -/
  | claiming (payoutId number last head : ℕ) (rest : List ObservedPayout)
  /-- payouts recorded before their obligation, to be claimed again -/
  | catchingUp (head : ℕ) (payoutIds : List ℕ)
  /-- about to read the unfinalized block `number`; `seen` are the payouts read so far -/
  | tail (number best head : ℕ) (seen : List String)
  /-- the payouts of block `number` still to be marked -/
  | marking (number best head : ℕ) (seen : List String) (rest : List ObservedPayout)
  /-- the obligations to be rolled back -/
  | rollingBack (seen : List String) (rest : List SubmittedPayout)
  deriving DecidableEq

/-- The database, the watcher's cursor, the chain, and the watcher's place. -/
structure Watch where
  db : RewardDatabase
  cursor : Option PayoutWatchCursor
  chain : BestChain
  phase : Phase

/-- What the watcher does next, with what the world contributes to it. -/
inductive Move where
  | openCursor (startBlock : ℕ) (now : Instant)
  /-- start a pass: read the cursor -/
  | start
  /-- the chain reports its finalized head -/
  | head
  /-- the chain answers for the next block -/
  | read
  | record (price : Option (ℚ × Instant))
  | claim (actions : List PayoutInstructionAction) (reserved : Bool)
  /-- every payout of the block went through: advance the cursor -/
  | advance (now : Instant)
  /-- the cursor is at the head: look for payouts that wait -/
  | unclaimed (now : Instant)
  /-- the chain reports its best head -/
  | best
  | mark (actions : List PayoutInstructionAction)
  | nextBlock
  /-- the tail was read: look for obligations whose payout was not in it -/
  | submitted
  | revert (now : Instant)
  /-- the pass is complete -/
  | finish
  | crash

/-- The blocks a pass covers: a batch at most. -/
def batchEnd (settings : Settings) (first head : ℕ) : ℕ :=
  min head (first + settings.batchBlocks - 1)

/-- The payouts of a block the watcher cares for. -/
def oursIn (settings : Settings) (chain : BestChain) (block : ℕ) :
    Except ChainUnavailable (List ObservedPayout) :=
  (chain.payoutsIn block).map (·.filter fun o ↦ Ours settings o)

/-- The ids of the oldest hundred payouts an automatic match could still reach. -/
def claimable (db : RewardDatabase) (now : Instant) : List ℕ :=
  (unclaimedPayouts db (some (now - chainClockTolerance)) 100).map TreasuryPayout.id

/-- A transaction, and where the watcher goes on after it. -/
def Watch.after {α : Type} (w : Watch) (result : Except RewardError (α × RewardDatabase))
    (next : α → Phase) : Watch :=
  match result with
  | .ok (a, db) => { w with db, phase := next a }
  | .error _ => { w with phase := .idle }

/-- One move.  A move that does not fit where the watcher is does nothing. -/
def move (settings : Settings) (w : Watch) : Move → Watch
  | .crash => { w with phase := .idle }
  | .openCursor startBlock now =>
    { w with cursor := openCursor settings startBlock now w.cursor }
  | .start =>
    match w.phase, w.cursor with
    | .idle, some cursor =>
      if SameWatch settings cursor then
        { w with phase := .awaitingHead cursor.lastScannedBlock }
      else w
    | _, _ => w
  | .head =>
    match w.phase with
    | .awaitingHead scanned =>
      let first := (scanned + 1).toNat
      let head := w.chain.finalizedHead
      { w with phase := .scanning first (batchEnd settings first head) head }
    | _ => w
  | .read =>
    match w.phase with
    | .scanning number last head =>
      if number ≤ last then
        match oursIn settings w.chain number with
        | .ok found => { w with phase := .recording number last head found }
        | .error _ => { w with phase := .idle }
      else w
    | .tail number best head seen =>
      if number ≤ best then
        match oursIn settings w.chain number with
        | .ok found => { w with phase := .marking number best head seen found }
        | .error _ => { w with phase := .idle }
      else w
    | _ => w
  | .record price =>
    match w.phase with
    | .recording number last head (o :: rest) =>
      w.after (recordPayout w.db o price) fun p ↦ .claiming p.id number last head rest
    | _ => w
  | .claim actions reserved =>
    match w.phase with
    | .claiming payoutId number last head rest =>
      w.after (claimPayout w.db actions reserved payoutId) fun _ ↦
        .recording number last head rest
    | .catchingUp head (payoutId :: payoutIds) =>
      w.after (claimPayout w.db actions reserved payoutId) fun _ ↦ .catchingUp head payoutIds
    | _ => w
  | .advance now =>
    match w.phase with
    | .recording number last head [] =>
      { w with
        cursor := w.cursor.map (·.advance number now)
        phase := .scanning (number + 1) last head }
    | _ => w
  | .unclaimed now =>
    match w.phase with
    | .scanning number last head =>
      if last < number ∧ head ≤ last then
        { w with phase := .catchingUp head (claimable w.db now) }
      else w
    | _ => w
  | .best =>
    match w.phase with
    | .catchingUp head [] =>
      { w with phase := .tail (head + 1) (max head w.chain.bestHead) head [] }
    | _ => w
  | .mark actions =>
    match w.phase with
    | .marking number best head seen (o :: rest) =>
      w.after (markSubmitted w.db actions o.sighting) fun _ ↦
        .marking number best head (o.reference :: seen) rest
    | _ => w
  | .nextBlock =>
    match w.phase with
    | .marking number best head seen [] => { w with phase := .tail (number + 1) best head seen }
    | _ => w
  | .submitted =>
    match w.phase with
    | .tail number best head seen =>
      if best < number then
        let submitted := (submittedAfter w.db head).filter fun item ↦ item.reference ∉ seen
        { w with phase := .rollingBack seen submitted }
      else w
    | _ => w
  | .revert now =>
    match w.phase with
    | .rollingBack seen (item :: rest) =>
      w.after (revertSubmitted w.db item now) fun _ ↦ .rollingBack seen rest
    | _ => w
  | .finish =>
    match w.phase with
    | .scanning number last head =>
      if last < number ∧ last < head then { w with phase := .idle } else w
    | .rollingBack _ [] => { w with phase := .idle }
    | _ => w

/-! ## The system -/

/-- A transaction only the watcher runs. -/
def OfWatcher : Rewards.Step → Prop
  | .mark .. | .revert .. | .record .. | .claim .. => True
  | _ => False

instance OfWatcher.decidable : (a : Rewards.Step) → Decidable (OfWatcher a)
  | .mark .. | .revert .. | .record .. | .claim .. => isTrue trivial
  | .submit .. | .verify .. | .decide .. | .correct .. | .instruct .. | .withdraw .. | .seed ..
  | .notify .. | .bind .. | .disregard .. => isFalse id

inductive Action where
  | watcher (m : Move)
  /-- the best chain becomes another one; finalized blocks stay -/
  | chain (blocks : ℕ → PayoutBlock) (finalized best : ℕ)
  /-- a transaction of another client -/
  | client (a : Rewards.Step)

def watchStep (settings : Settings) (w : Watch) : Action → Watch
  | .watcher m => move settings w m
  | .chain blocks finalized best =>
    { w with chain := w.chain.reorganise blocks finalized best }
  | .client a => if OfWatcher a then w else { w with db := Rewards.step w.db a }

/-! ## Moves and transactions -/

theorem mem_oursIn {settings : Settings} {chain : BestChain} {block : ℕ}
    {found : List ObservedPayout} (h : oursIn settings chain block = .ok found)
    {o : ObservedPayout} :
    o ∈ found ↔ chain.Carries o ∧ o.block = block ∧ Ours settings o := by
  unfold oursIn at h
  cases hread : chain.payoutsIn block with
  | error e => rw [hread] at h; cases h
  | ok all =>
    rw [hread] at h
    cases h
    rw [List.mem_filter, decide_eq_true_eq]
    constructor
    · rintro ⟨ho, hours⟩
      obtain ⟨hcarries, hblock⟩ := BestChain.carries_of_mem hread ho
      exact ⟨hcarries, hblock, hours⟩
    · rintro ⟨⟨found, hfound, ho⟩, rfl, hours⟩
      rw [hread] at hfound
      cases hfound
      exact ⟨ho, hours⟩

/-- A transaction that goes through, or the end of the pass. -/
theorem Watch.after_eq {α : Type} (w : Watch) (result : Except RewardError (α × RewardDatabase))
    (next : α → Phase) :
    (∃ a db, result = .ok (a, db) ∧ w.after result next = { w with db, phase := next a }) ∨
      w.after result next = { w with phase := .idle } := by
  cases result with
  | ok r => exact Or.inl ⟨r.1, r.2, rfl, rfl⟩
  | error e => exact Or.inr rfl

/-- What a move can do. -/
inductive Moved (settings : Settings) (w : Watch) : Watch → Prop
  | stays : Moved settings w w
  | stops : Moved settings w { w with phase := .idle }
  | opens (startBlock : ℕ) (now : Instant) :
    Moved settings w { w with cursor := openCursor settings startBlock now w.cursor }
  | starts (cursor : PayoutWatchCursor) (hcursor : w.cursor = some cursor) :
    Moved settings w { w with phase := .awaitingHead cursor.lastScannedBlock }
  | heads (scanned : ℤ) (hphase : w.phase = .awaitingHead scanned) :
    Moved settings w { w with
      phase := .scanning (scanned + 1).toNat
        (batchEnd settings (scanned + 1).toNat w.chain.finalizedHead) w.chain.finalizedHead }
  | reads {number last head : ℕ} {found : List ObservedPayout}
    (hphase : w.phase = .scanning number last head) (hle : number ≤ last)
    (hfound : oursIn settings w.chain number = .ok found) :
    Moved settings w { w with phase := .recording number last head found }
  | records {o : ObservedPayout} {number last head : ℕ} {rest : List ObservedPayout}
    (price : Option (ℚ × Instant)) {p : TreasuryPayout} {db : RewardDatabase}
    (hphase : w.phase = .recording number last head (o :: rest))
    (hok : recordPayout w.db o price = .ok (p, db)) :
    Moved settings w { w with db, phase := .claiming p.id number last head rest }
  | claims {payoutId number last head : ℕ} {rest : List ObservedPayout}
    (actions : List PayoutInstructionAction) (reserved : Bool) {update : Option PayoutUpdate}
    {db : RewardDatabase} (hphase : w.phase = .claiming payoutId number last head rest)
    (hok : claimPayout w.db actions reserved payoutId = .ok (update, db)) :
    Moved settings w { w with db, phase := .recording number last head rest }
  | advances {number last head : ℕ} (now : Instant)
    (hphase : w.phase = .recording number last head []) :
    Moved settings w { w with
      cursor := w.cursor.map (·.advance number now), phase := .scanning (number + 1) last head }
  | waits {number last head : ℕ} (now : Instant) (hphase : w.phase = .scanning number last head) :
    Moved settings w { w with phase := .catchingUp head (claimable w.db now) }
  | reclaims {head payoutId : ℕ} {payoutIds : List ℕ} (actions : List PayoutInstructionAction)
    (reserved : Bool) {update : Option PayoutUpdate} {db : RewardDatabase}
    (hphase : w.phase = .catchingUp head (payoutId :: payoutIds))
    (hok : claimPayout w.db actions reserved payoutId = .ok (update, db)) :
    Moved settings w { w with db, phase := .catchingUp head payoutIds }
  | bests {head : ℕ} (hphase : w.phase = .catchingUp head []) :
    Moved settings w { w with phase := .tail (head + 1) (max head w.chain.bestHead) head [] }
  | readsTail {number best head : ℕ} {seen : List String} {found : List ObservedPayout}
    (hphase : w.phase = .tail number best head seen)
    (hfound : oursIn settings w.chain number = .ok found) :
    Moved settings w { w with phase := .marking number best head seen found }
  | marks {number best head : ℕ} {seen : List String} {o : ObservedPayout}
    {rest : List ObservedPayout} (actions : List PayoutInstructionAction)
    {update : Option PayoutUpdate} {db : RewardDatabase}
    (hphase : w.phase = .marking number best head seen (o :: rest))
    (hok : markSubmitted w.db actions o.sighting = .ok (update, db)) :
    Moved settings w
      { w with db, phase := .marking number best head (o.reference :: seen) rest }
  | goesOn {number best head : ℕ} {seen : List String}
    (hphase : w.phase = .marking number best head seen []) :
    Moved settings w { w with phase := .tail (number + 1) best head seen }
  | submits {number best head : ℕ} {seen : List String}
    (hphase : w.phase = .tail number best head seen) (hlt : best < number) :
    Moved settings w { w with
      phase := .rollingBack seen ((submittedAfter w.db head).filter (·.reference ∉ seen)) }
  | reverts {seen : List String} {item : SubmittedPayout} {rest : List SubmittedPayout}
    (now : Instant) {changed : Bool} {db : RewardDatabase}
    (hphase : w.phase = .rollingBack seen (item :: rest))
    (hok : revertSubmitted w.db item now = .ok (changed, db)) :
    Moved settings w { w with db, phase := .rollingBack seen rest }

theorem move_cases (settings : Settings) (w : Watch) (m : Move) :
    Moved settings w (move settings w m) := by
  cases m with
  | openCursor startBlock now => exact .opens startBlock now
  | start =>
    dsimp only [move]
    split
    · split
      · exact .starts _ ‹_›
      · exact .stays
    · exact .stays
  | head =>
    dsimp only [move]
    split
    · exact .heads _ ‹_›
    · exact .stays
  | read =>
    dsimp only [move]
    split
    · split
      · split
        · exact .reads ‹_› ‹_› ‹_›
        · exact .stops
      · exact .stays
    · split
      · split
        · exact .readsTail ‹_› ‹_›
        · exact .stops
      · exact .stays
    · exact .stays
  | record price =>
    dsimp only [move]
    split
    · rcases w.after_eq (recordPayout w.db _ price) _ with ⟨p, db, hok, hw⟩ | hw
      · rw [hw]
        exact .records price ‹_› hok
      · rw [hw]
        exact .stops
    · exact .stays
  | claim actions reserved =>
    dsimp only [move]
    split
    · rcases w.after_eq (claimPayout w.db actions reserved _) _ with ⟨update, db, hok, hw⟩ | hw
      · rw [hw]
        exact .claims actions reserved ‹_› hok
      · rw [hw]
        exact .stops
    · rcases w.after_eq (claimPayout w.db actions reserved _) _ with ⟨update, db, hok, hw⟩ | hw
      · rw [hw]
        exact .reclaims actions reserved ‹_› hok
      · rw [hw]
        exact .stops
    · exact .stays
  | advance now =>
    dsimp only [move]
    split
    · exact .advances now ‹_›
    · exact .stays
  | unclaimed now =>
    dsimp only [move]
    split
    · split
      · exact .waits now ‹_›
      · exact .stays
    · exact .stays
  | best =>
    dsimp only [move]
    split
    · exact .bests ‹_›
    · exact .stays
  | mark actions =>
    dsimp only [move]
    split
    · rcases w.after_eq (markSubmitted w.db actions _) _ with ⟨update, db, hok, hw⟩ | hw
      · rw [hw]
        exact .marks actions ‹_› hok
      · rw [hw]
        exact .stops
    · exact .stays
  | nextBlock =>
    dsimp only [move]
    split
    · exact .goesOn ‹_›
    · exact .stays
  | submitted =>
    dsimp only [move]
    split
    · split
      · exact .submits ‹_› ‹_›
      · exact .stays
    · exact .stays
  | revert now =>
    dsimp only [move]
    split
    · rcases w.after_eq (revertSubmitted w.db _ now) _ with ⟨changed, db, hok, hw⟩ | hw
      · rw [hw]
        exact .reverts now ‹_› hok
      · rw [hw]
        exact .stops
    · exact .stays
  | finish =>
    dsimp only [move]
    split
    · split
      · exact .stops
      · exact .stays
    · exact .stops
    · exact .stays
  | crash => exact .stops

/-- A move is one transaction at most. -/
theorem Moved.db {settings : Settings} {w w' : Watch} (h : Moved settings w w') :
    ∃ steps, w'.db = run Rewards.step w.db steps := by
  have hone : ∀ {α : Type} {txn : Txn RewardDatabase RewardError α} {r : α × RewardDatabase}
      (a : Rewards.Step), Rewards.step w.db a = commit txn w.db → txn w.db = .ok r →
      ∃ steps, r.2 = run Rewards.step w.db steps := fun a ha hok ↦
    ⟨[a], (commit_of_ok hok).symm.trans ha.symm⟩
  cases h with
  | @records o number last head rest price p db hphase hok =>
    exact @hone _ (recordPayout · o price) _ (.record o price) rfl hok
  | @claims payoutId number last head rest actions reserved update db hphase hok =>
    exact @hone _ (claimPayout · actions reserved payoutId) _ (.claim actions reserved payoutId)
      rfl hok
  | @reclaims head payoutId payoutIds actions reserved update db hphase hok =>
    exact @hone _ (claimPayout · actions reserved payoutId) _ (.claim actions reserved payoutId)
      rfl hok
  | @marks number best head seen o rest actions update db hphase hok =>
    exact @hone _ (markSubmitted · actions o.sighting) _ (.mark actions o) rfl hok
  | @reverts seen item rest now changed db hphase hok =>
    exact @hone _ (revertSubmitted · item now) _ (.revert item now) rfl hok
  | _ => exact ⟨[], rfl⟩

theorem watchStep_db (settings : Settings) (w : Watch) (a : Action) :
    ∃ steps, (watchStep settings w a).db = run Rewards.step w.db steps := by
  cases a with
  | watcher m => exact (move_cases settings w m).db
  | chain blocks finalized best => exact ⟨[], rfl⟩
  | client a =>
    dsimp only [watchStep]
    split
    · exact ⟨[], rfl⟩
    · exact ⟨[a], rfl⟩

end Conjectures.PayoutWatcher

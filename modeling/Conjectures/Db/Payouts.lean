import Mathlib.Data.Prod.Lex
import Conjectures.Db.Instructions

/-!
# Reconciling payouts

`conjectures_subnet/db/payouts.py`: moving an obligation to SUBMITTED and CONFIRMED by what
the chain says, and back; the ledger of finalized payouts and the ways one is bound to the
obligation it pays.

The row of an obligation is locked before it is read, and so are the payout's and the
submission's, so each transaction works on them as they are.  Whether an instruction is
enabled is read without a lock: `actions` is what the statement's snapshot shows.
-/

namespace Conjectures.Db

open Lib
open scoped Instant

/-! ## What was seen -/

/-- One successful stake payout observed in a chain block. -/
structure ObservedPayout where
  block : ℕ
  blockTimestamp : Instant
  extrinsicIndex : ℕ
  eventIndex : ℕ
  originColdkey : Ss58
  destinationColdkey : Ss58
  originHotkey : Ss58
  destinationHotkey : Ss58
  originNetuid : ℕ
  destinationNetuid : ℕ
  amountRao : Rao
  taoEquivalentRao : Option Rao
  deriving DecidableEq

def ObservedPayout.reference (o : ObservedPayout) : String :=
  toString o.block ++ "-" ++ toString o.extrinsicIndex ++ "-" ++ toString o.eventIndex

/-- What a decoded event and a ledger row both say. -/
structure Sighting where
  reference : String
  block : ℕ
  blockTimestamp : Instant
  destinationColdkey : Ss58
  destinationHotkey : Ss58
  /-- the payout changed the stake's hotkey: it is a legacy one -/
  movedHotkey : Bool
  amountRao : Rao
  deriving DecidableEq

def ObservedPayout.sighting (o : ObservedPayout) : Sighting where
  reference := o.reference
  block := o.block
  blockTimestamp := o.blockTimestamp
  destinationColdkey := o.destinationColdkey
  destinationHotkey := o.destinationHotkey
  movedHotkey := o.originHotkey ≠ o.destinationHotkey
  amountRao := o.amountRao

def TreasuryPayout.sighting (p : TreasuryPayout) : Sighting where
  reference := p.extrinsicReference
  block := p.block
  blockTimestamp := p.blockTimestamp
  destinationColdkey := p.destinationColdkey
  destinationHotkey := p.destinationHotkey
  movedHotkey := p.originHotkey ≠ p.destinationHotkey
  amountRao := p.amountRao

/-! ## Matching -/

/-- Whether a stored destination hotkey agrees, where it may be compared at all. -/
def HotkeyAgrees (e : RewardEvent) (o : Sighting) : Prop :=
  o.movedHotkey = false ∨ e.destinationHotkey = none ∨
    e.destinationHotkey = some o.destinationHotkey

instance HotkeyAgrees.decidable (e : RewardEvent) (o : Sighting) :
    Decidable (HotkeyAgrees e o) := by
  unfold HotkeyAgrees; infer_instance

def SamePayout (e : RewardEvent) (o : Sighting) : Prop :=
  e.destinationColdkey = o.destinationColdkey ∧ e.amountRao = o.amountRao ∧ HotkeyAgrees e o

instance SamePayout.decidable (e : RewardEvent) (o : Sighting) : Decidable (SamePayout e o) := by
  unfold SamePayout; infer_instance

def byReference (db : RewardDatabase) (o : Sighting) : Option RewardEvent :=
  db.events.rows.find? fun e ↦ e.extrinsicReference = some o.reference

/-- `CHAIN_CLOCK_TOLERANCE`. -/
def chainClockTolerance : ℤ := 60 * second

/-- An obligation nothing on the chain was seen to pay. -/
def RewardEvent.Outstanding (e : RewardEvent) : Prop :=
  (e.status = .pending ∧ e.extrinsicReference = none) ∨
    ((e.status = .submitted ∨ e.status = .confirmed) ∧ e.chainObserved = false)

instance RewardEvent.decidableOutstanding (e : RewardEvent) : Decidable e.Outstanding := by
  unfold RewardEvent.Outstanding; infer_instance

/-- The oldest outstanding obligation this payout may settle. -/
def oldestMatch (db : RewardDatabase) (actions : List PayoutInstructionAction) (o : Sighting) :
    Option RewardEvent :=
  (db.events.rows.filter fun e ↦ InstructionEnabled actions e.id ∧ e.Outstanding ∧
    SamePayout e o ∧ e.createdAt ≤ o.blockTimestamp + chainClockTolerance).argmin
      fun e ↦ toLex (e.createdAt, e.id)

/-- The obligation a payout is about: by its reference, or else the oldest match. -/
def matchEvent (db : RewardDatabase) (actions : List PayoutInstructionAction) (o : Sighting) :
    Except RewardError (Option RewardEvent) :=
  match byReference db o with
  | some e => do
    require (SamePayout e o) (.payoutConflict
      ("reference " ++ o.reference ++ " is attached to a different payout"))
    return some e
  | none => .ok (oldestMatch db actions o)

theorem byReference_eq_some {db : RewardDatabase} {o : Sighting} {e : RewardEvent}
    (h : byReference db o = some e) :
    e ∈ db.events.rows ∧ e.extrinsicReference = some o.reference :=
  ⟨List.mem_of_find?_eq_some h, by simpa using List.find?_some h⟩

theorem oldestMatch_eq_some {db : RewardDatabase} {actions : List PayoutInstructionAction}
    {o : Sighting} {e : RewardEvent} (h : oldestMatch db actions o = some e) :
    e ∈ db.events.rows ∧ e.Outstanding ∧ SamePayout e o := by
  have hmem := List.argmin_mem (Option.mem_def.mpr h)
  simp only [List.mem_filter, decide_eq_true_eq] at hmem
  exact ⟨hmem.1, hmem.2.2.1, hmem.2.2.2.1⟩

/-- A matched obligation is for this payout: attached to it already, or outstanding. -/
theorem matchEvent_ok {db : RewardDatabase} {actions : List PayoutInstructionAction}
    {o : Sighting} {e : RewardEvent} (h : matchEvent db actions o = .ok (some e)) :
    e ∈ db.events.rows ∧ SamePayout e o ∧
      (e.extrinsicReference = some o.reference ∨ e.Outstanding) := by
  unfold matchEvent at h
  split at h
  · rename_i e' href
    simp only [bind_eq_ok, require_eq_ok] at h
    obtain ⟨-, hsame, h⟩ := h
    cases h
    obtain ⟨hmem, href⟩ := byReference_eq_some href
    exact ⟨hmem, hsame, Or.inl href⟩
  · obtain ⟨hmem, houtstanding, hsame⟩ := oldestMatch_eq_some (Except.ok.inj h)
    exact ⟨hmem, hsame, Or.inr houtstanding⟩

/-! ## Writing an obligation -/

/-- The CHECK constraints on `reward_events`. -/
def RewardEvent.Valid (e : RewardEvent) : Prop :=
  0 < e.amountRao ∧
    (e.status = .submitted ∨ e.status = .confirmed →
      e.extrinsicReference.isSome ∧ e.submittedAt.isSome) ∧
    (e.chainObserved = true → e.status = .submitted ∨ e.status = .confirmed) ∧
    (e.status = .confirmed → e.finalizedBlock.isSome ∧ e.confirmedAt.isSome) ∧
    (e.status = .failed → e.failureReason.isSome) ∧
    (∀ block ∈ e.submittedBlock, 0 < block) ∧ (∀ block ∈ e.finalizedBlock, 0 < block) ∧
    (∀ b ∈ e.submittedBlock, ∀ b' ∈ e.finalizedBlock, b ≤ b') ∧
    (∀ at' ∈ e.submittedAt, e.createdAt ≤ at') ∧
    (∀ at' ∈ e.confirmedAt, ∃ at'' ∈ e.submittedAt, at'' ≤ at')

instance RewardEvent.decidableValid (e : RewardEvent) : Decidable e.Valid := by
  have : Decidable (∀ at' ∈ e.confirmedAt, ∃ at'' ∈ e.submittedAt, at'' ≤ at') := by
    cases hs : e.submittedAt with
    | none =>
      cases hc : e.confirmedAt with
      | none => exact isTrue fun _ h ↦ by cases h
      | some c => exact isFalse fun h ↦ by obtain ⟨_, h, -⟩ := h c rfl; cases h
    | some s =>
      cases hc : e.confirmedAt with
      | none => exact isTrue fun _ h ↦ by cases h
      | some c =>
        exact decidable_of_iff (s ≤ c) ⟨fun h c' hc' ↦ by cases hc'; exact ⟨s, rfl, h⟩,
          fun h ↦ by obtain ⟨_, hs', hle⟩ := h c rfl; cases hs'; exact hle⟩
  unfold RewardEvent.Valid
  infer_instance

/-- The event was decoded from a best block. -/
def RewardEvent.submitted (o : Sighting) (e : RewardEvent) : RewardEvent :=
  { e with
    status := .submitted
    chainObserved := true
    extrinsicReference := some o.reference
    submittedBlock := some o.block
    submittedAt := some (max e.createdAt o.blockTimestamp)
    finalizedBlock := none
    confirmedAt := none
    failureReason := none }

/-- The event was decoded from a finalized block. -/
def RewardEvent.confirmed (o : Sighting) (e : RewardEvent) : RewardEvent :=
  { e with
    status := .confirmed
    chainObserved := true
    extrinsicReference := some o.reference
    submittedBlock := some o.block
    finalizedBlock := some o.block
    submittedAt := some (max e.createdAt o.blockTimestamp)
    confirmedAt := some (max e.createdAt o.blockTimestamp)
    failureReason := none }

/-- The event left the best chain. -/
def RewardEvent.reverted (e : RewardEvent) : RewardEvent :=
  { e with
    status := .pending
    chainObserved := false
    extrinsicReference := none
    submittedBlock := none
    submittedAt := none
    finalizedBlock := none
    confirmedAt := none
    failureReason := none }

theorem RewardEvent.submitted_id (o : Sighting) (e : RewardEvent) :
    (e.submitted o).id = e.id := rfl

theorem RewardEvent.confirmed_id (o : Sighting) (e : RewardEvent) :
    (e.confirmed o).id = e.id := rfl

theorem RewardEvent.reverted_id (e : RewardEvent) : e.reverted.id = e.id := rfl

/-- Write an obligation; its CHECKs and `reward_events_extrinsic_idx` have their say. -/
def saveEvent (db : RewardDatabase) (e : RewardEvent) (f : RewardEvent → RewardEvent)
    (hf : ∀ e, (f e).id = e.id) : Except RewardError RewardDatabase := do
  require (f e).Valid (.integrityError "reward_events_check")
  require (∀ e' ∈ db.events.rows, e'.id ≠ e.id →
      e'.extrinsicReference = none ∨ e'.extrinsicReference ≠ (f e).extrinsicReference)
    (.integrityError "reward_events_extrinsic_idx")
  return { db with events := db.events.modify e.id f hf }

theorem saveEvent_ok {db db' : RewardDatabase} {e : RewardEvent} {f : RewardEvent → RewardEvent}
    {hf : ∀ e, (f e).id = e.id} (h : saveEvent db e f hf = .ok db') :
    (f e).Valid ∧ (∀ e' ∈ db.events.rows, e'.id ≠ e.id →
        e'.extrinsicReference = none ∨ e'.extrinsicReference ≠ (f e).extrinsicReference) ∧
      db' = { db with events := db.events.modify e.id f hf } := by
  simp only [saveEvent, bind_eq_ok, require_eq_ok] at h
  obtain ⟨-, hvalid, -, hunique, h⟩ := h
  cases h
  exact ⟨hvalid, hunique, rfl⟩

/-! ## Settling -/

structure PayoutUpdate where
  rewardEventId : ℕ
  submissionId : Uuid
  changed : Bool
  deriving DecidableEq

def submissionFor (db : RewardDatabase) (e : RewardEvent) : Except RewardError Submission :=
  need (db.submissions.find? e.submissionId) (.payoutConflict
    ("reward event " ++ toString e.id ++ " names missing submission " ++
      toString e.submissionId))

def payoutTimeline (submissionId : Uuid) (kind detail : String) (o : Sighting)
    (previousReference : Option String) : NewTimelineEntry where
  submissionId := submissionId
  kind := kind
  detail := detail
  context := .payout o.reference o.block o.amountRao
    (if previousReference = some o.reference then none else previousReference)
  actor := "payout-watcher"
  occurredAt := some o.blockTimestamp

/-- Record a payout of the best chain as submitted, but not yet paid. -/
def markSubmitted (db : RewardDatabase) (actions : List PayoutInstructionAction)
    (o : Sighting) : Except RewardError (Option PayoutUpdate × RewardDatabase) := do
  match ← matchEvent db actions o with
  | none => return (none, db)
  | some e =>
    if e.extrinsicReference = some o.reference ∧ e.chainObserved = true ∧
        (e.status = .submitted ∨ e.status = .confirmed) then
      return (some ⟨e.id, e.submissionId, false⟩, db)
    else
      require (e.status ≠ .failed) (.payoutConflict
        ("reference " ++ o.reference ++ " belongs to reward event " ++ toString e.id ++ " in " ++
          e.status.text))
      let s ← submissionFor db e
      -- a cached REWARDED without provenance is demoted until finality is observed
      let reward := if s.rewardStatus = .rewarded ∧ e.chainObserved = false then .eligible
        else s.rewardStatus
      require (reward = .eligible) (.payoutConflict
        ("reward event " ++ toString e.id ++ " matched chain but submission " ++ toString s.id ++
          " is " ++ reward.text ++ ", not ELIGIBLE"))
      let db ← writeReview db s s.manualReviewStatus reward
      let db ← saveEvent db e (·.submitted o) (RewardEvent.submitted_id o)
      return (some ⟨e.id, e.submissionId, true⟩, addTimeline db
        (payoutTimeline s.id "PAYOUT_SUBMITTED"
          "The payout appeared on chain and is waiting for finality." o e.extrinsicReference))

/-- The row of a payout that settles an obligation. -/
def TreasuryPayout.claimed (rewardEventId : ℕ) (p : TreasuryPayout) : TreasuryPayout :=
  { p with status := .claimed, rewardEventId := some rewardEventId }

theorem TreasuryPayout.claimed_id (rewardEventId : ℕ) (p : TreasuryPayout) :
    (p.claimed rewardEventId).id = p.id := rfl

/-- Bind a ledger row; `treasury_payouts.reward_event_id` is unique. -/
def bindRow (db : RewardDatabase) (p : TreasuryPayout) (e : RewardEvent) :
    Except RewardError RewardDatabase := do
  require (∀ p' ∈ db.payouts.rows, p'.id ≠ p.id → p'.rewardEventId ≠ some e.id)
    (.integrityError "treasury_payouts_reward_event_id_key")
  return { db with
    payouts := db.payouts.modify p.id (·.claimed e.id) (TreasuryPayout.claimed_id e.id) }

theorem bindRow_ok {db db' : RewardDatabase} {p : TreasuryPayout} {e : RewardEvent}
    (h : bindRow db p e = .ok db') :
    (∀ p' ∈ db.payouts.rows, p'.id ≠ p.id → p'.rewardEventId ≠ some e.id) ∧
      db' = { db with
        payouts := db.payouts.modify p.id (·.claimed e.id) (TreasuryPayout.claimed_id e.id) } := by
  simp only [bindRow, bind_eq_ok, require_eq_ok] at h
  obtain ⟨-, hunique, h⟩ := h
  cases h
  exact ⟨hunique, rfl⟩

/-- `_settle`: move an obligation and its submission to paid, and bind the ledger row that
paid it. -/
def settlePayout (db : RewardDatabase) (e : RewardEvent) (claims : TreasuryPayout) :
    Except RewardError (PayoutUpdate × RewardDatabase) := do
  let o := claims.sighting
  require (e.status ≠ .failed) (.payoutConflict
    ("reference " ++ o.reference ++ " belongs to reward event " ++ toString e.id ++ " in " ++
      e.status.text ++ ", not a reconcilable state"))
  let s ← submissionFor db e
  if e.status = .confirmed ∧ e.chainObserved = true ∧ s.rewardStatus = .rewarded then
    let db ← bindRow db claims e
    return (⟨e.id, e.submissionId, false⟩, db)
  else
    require (s.rewardStatus = .eligible ∨ s.rewardStatus = .rewarded) (.payoutConflict
      ("reward event " ++ toString e.id ++ " matched finalized chain but submission " ++
        toString s.id ++ " is " ++ s.rewardStatus.text ++ ", not ELIGIBLE or REWARDED"))
    let db ← saveEvent db e (·.confirmed o) (RewardEvent.confirmed_id o)
    let db ← writeReview db s s.manualReviewStatus .rewarded
    let db ← bindRow db claims e
    return (⟨e.id, e.submissionId, true⟩, addTimeline db
      (payoutTimeline s.id "PAYOUT_CONFIRMED" "The payout finalized on chain." o
        e.extrinsicReference))

/-! ## The finalized ledger -/

/-- The row of a finalized payout. -/
def ObservedPayout.row (o : ObservedPayout) (price : Option (ℚ × Instant)) (id : ℕ) :
    TreasuryPayout where
  id := id
  extrinsicReference := o.reference
  block := o.block
  blockTimestamp := o.blockTimestamp
  extrinsicIndex := o.extrinsicIndex
  eventIndex := o.eventIndex
  originColdkey := o.originColdkey
  originHotkey := o.originHotkey
  destinationColdkey := o.destinationColdkey
  destinationHotkey := o.destinationHotkey
  originNetuid := o.originNetuid
  destinationNetuid := o.destinationNetuid
  amountRao := o.amountRao
  taoEquivalentRao := o.taoEquivalentRao
  price := price
  status := .unclaimed
  rewardEventId := none
  note := none

theorem ObservedPayout.row_id (o : ObservedPayout) (price : Option (ℚ × Instant)) (id : ℕ) :
    (o.row price id).id = id := rfl

/-- The CHECK constraints on the columns a payout is recorded with. -/
def ObservedPayout.Recordable (o : ObservedPayout) (price : Option (ℚ × Instant)) : Prop :=
  0 < o.block ∧ 0 < o.amountRao ∧ (∀ amount ∈ o.taoEquivalentRao, 0 < amount) ∧
    (∀ p ∈ price, 0 < p.1)

instance ObservedPayout.decidableRecordable (o : ObservedPayout)
    (price : Option (ℚ × Instant)) : Decidable (o.Recordable price) := by
  unfold ObservedPayout.Recordable; infer_instance

/-- Record one finalized payout, or find the row it has already. -/
def recordPayout (db : RewardDatabase) (o : ObservedPayout) (price : Option (ℚ × Instant)) :
    Except RewardError (TreasuryPayout × RewardDatabase) :=
  match db.payouts.rows.find? fun p ↦ p.extrinsicReference = o.reference with
  | some existing => .ok (existing, db)
  | none => do
    require (o.Recordable price) (.integrityError "treasury_payouts_check")
    require (∀ p ∈ db.payouts.rows,
        ¬ (p.block = o.block ∧ p.extrinsicIndex = o.extrinsicIndex ∧ p.eventIndex = o.eventIndex))
      (.integrityError "treasury_payouts_position_idx")
    return (o.row price db.payouts.nextId,
      { db with payouts := db.payouts.append (o.row price) (o.row_id price) })

/-- A recorded payout is a row: one that was there under its reference, or a new one. -/
theorem recordPayout_ok {db db' : RewardDatabase} {o : ObservedPayout}
    {price : Option (ℚ × Instant)} {p : TreasuryPayout}
    (h : recordPayout db o price = .ok (p, db')) :
    (p ∈ db.payouts.rows ∧ p.extrinsicReference = o.reference ∧ db' = db) ∨
      (p = o.row price db.payouts.nextId ∧ o.Recordable price ∧
        (∀ p' ∈ db.payouts.rows, p'.extrinsicReference ≠ o.reference) ∧
        db' = { db with payouts := db.payouts.append (o.row price) (o.row_id price) }) := by
  unfold recordPayout at h
  split at h
  · rename_i existing hfind
    cases h
    exact Or.inl ⟨List.mem_of_find?_eq_some hfind, by simpa using List.find?_some hfind, rfl⟩
  · rename_i hfind
    simp only [bind_eq_ok, require_eq_ok] at h
    obtain ⟨-, hrecordable, -, -, h⟩ := h
    cases h
    refine Or.inr ⟨rfl, hrecordable, fun p' hp' ↦ ?_, rfl⟩
    simpa using List.find?_eq_none.mp hfind p' hp'

/-- The separate bonus ledger reserves this transfer: `reserved` is what it answers. -/
def TreasuryPayout.Reserved (p : TreasuryPayout) (reserved : Bool) : Prop :=
  p.originNetuid = 66 ∧ reserved = true

instance TreasuryPayout.decidableReserved (p : TreasuryPayout) (reserved : Bool) :
    Decidable (p.Reserved reserved) := by
  unfold TreasuryPayout.Reserved; infer_instance

/-- Settle one recorded payout against the obligation it pays, if one can be found. -/
def claimPayout (db : RewardDatabase) (actions : List PayoutInstructionAction) (reserved : Bool)
    (payoutId : ℕ) : Except RewardError (Option PayoutUpdate × RewardDatabase) := do
  let payout ← need (db.payouts.find? payoutId)
    (.recordNotFound ("no treasury payout " ++ toString payoutId))
  if payout.status ≠ .unclaimed then return (none, db)
  else if payout.Reserved reserved then return (none, db)
  else
    match ← matchEvent db actions payout.sighting with
    | none => return (none, db)
    | some e => do
      let (update, db) ← settlePayout db e payout
      return (some update, db)

/-- Finalized money that settles nothing, oldest first. -/
def unclaimedPayouts (db : RewardDatabase) (claimableSince : Option Instant) (limit : ℕ) :
    List TreasuryPayout :=
  ((db.payouts.rows.filter fun p ↦ p.status = .unclaimed ∧
    ∀ since ∈ claimableSince, since ≤ p.blockTimestamp).mergeSort
      fun p p' ↦ toLex (p.block, p.id) ≤ toLex (p'.block, p'.id)).take limit

/-- A payout an operator may still decide about. -/
def undecidedPayout (db : RewardDatabase) (payoutId : ℕ) : Except RewardError TreasuryPayout := do
  let payout ← need (db.payouts.find? payoutId)
    (.recordNotFound ("no treasury payout " ++ toString payoutId))
  require (payout.status = .unclaimed) (.payoutConflict
    ("treasury payout " ++ toString payoutId ++ " is " ++ payout.status.text ++
      ", not UNCLAIMED"))
  return payout

theorem undecidedPayout_ok {db : RewardDatabase} {payoutId : ℕ} {p : TreasuryPayout}
    (h : undecidedPayout db payoutId = .ok p) :
    p ∈ db.payouts.rows ∧ p.id = payoutId ∧ p.status = .unclaimed := by
  simp only [undecidedPayout, bind_eq_ok, need_eq_ok, require_eq_ok, Table.find?_eq_some] at h
  obtain ⟨p', ⟨hmem, hid⟩, -, hstatus, h⟩ := h
  cases h
  exact ⟨hmem, hid, hstatus⟩

def TreasuryPayout.noted (note : String) (p : TreasuryPayout) : TreasuryPayout :=
  { p with note := some note }

theorem TreasuryPayout.noted_id (note : String) (p : TreasuryPayout) :
    (p.noted note).id = p.id := rfl

/-- `treasury_payout_note_length`. -/
def requireNote (note : String) : Except RewardError Unit :=
  require (1 ≤ note.length ∧ note.length ≤ 500) (.integrityError "treasury_payout_note_length")

/-- Bind a payout to an obligation by hand, on an operator's authority. -/
def bindPayout (db : RewardDatabase) (reserved : Bool) (payoutId rewardEventId : ℕ)
    (note : String) : Except RewardError (PayoutUpdate × RewardDatabase) := do
  let payout ← undecidedPayout db payoutId
  require (¬ payout.Reserved reserved) (.payoutConflict
    "this transfer matches a reserved historical bonus; reconcile that ledger first")
  let e ← need (db.events.find? rewardEventId)
    (.recordNotFound ("no reward event " ++ toString rewardEventId))
  require (e.amountRao = payout.amountRao) (.payoutConflict
    ("reward event " ++ toString rewardEventId ++ " is for " ++ toString e.amountRao ++
      " rao but treasury payout " ++ toString payoutId ++ " moved " ++ toString payout.amountRao))
  require (e.destinationColdkey = payout.destinationColdkey) (.payoutConflict
    ("reward event " ++ toString rewardEventId ++ " pays " ++ e.destinationColdkey ++
      " but treasury payout " ++ toString payoutId ++ " went to " ++ payout.destinationColdkey))
  requireNote note
  let payouts := db.payouts.modify payout.id (·.noted note) (TreasuryPayout.noted_id note)
  settlePayout { db with payouts } e payout

def TreasuryPayout.disregarded (note : String) (p : TreasuryPayout) : TreasuryPayout :=
  { p with status := .disregarded, note := some note }

theorem TreasuryPayout.disregarded_id (note : String) (p : TreasuryPayout) :
    (p.disregarded note).id = p.id := rfl

/-- Rule one payout out of reconciliation, with a recorded reason. -/
def disregardPayout (db : RewardDatabase) (payoutId : ℕ) (note : String) :
    Except RewardError (TreasuryPayout × RewardDatabase) := do
  let payout ← undecidedPayout db payoutId
  requireNote note
  let payouts := db.payouts.modify payout.id (·.disregarded note)
    (TreasuryPayout.disregarded_id note)
  return (payout.disregarded note, { db with payouts })

/-! ## The cursor -/

/-- The payout watcher's high-water mark, and the stake position it watches. -/
structure PayoutWatchCursor where
  network : String
  originColdkey : Ss58
  originHotkey : Ss58
  netuid : ℕ
  startBlock : ℕ
  lastScannedBlock : ℤ
  lastScannedAt : Instant
  deriving DecidableEq

/-- `advance_cursor`: the mark never goes back. -/
def PayoutWatchCursor.advance (cursor : PayoutWatchCursor) (throughBlock : ℕ) (now : Instant) :
    PayoutWatchCursor :=
  if cursor.lastScannedBlock < throughBlock then
    { cursor with lastScannedBlock := throughBlock, lastScannedAt := now }
  else cursor

/-! ## The best chain -/

structure SubmittedPayout where
  rewardEventId : ℕ
  reference : String
  submittedBlock : ℕ
  deriving DecidableEq

/-- What a SUBMITTED row says of the block it was seen in, past the finalized one. -/
def RewardEvent.submittedAfter (finalizedBlock : ℕ) (e : RewardEvent) :
    Option SubmittedPayout :=
  if e.status = .submitted ∧ e.chainObserved = true then
    match e.extrinsicReference, e.submittedBlock with
    | some reference, some block =>
      if finalizedBlock < block then some ⟨e.id, reference, block⟩ else none
    | _, _ => none
  else none

def submittedAfter (db : RewardDatabase) (finalizedBlock : ℕ) : List SubmittedPayout :=
  db.events.rows.filterMap (·.submittedAfter finalizedBlock)

/-- Return a best-chain payout to pending after its event was reorganized away.  Returns
whether anything changed. -/
def revertSubmitted (db : RewardDatabase) (submitted : SubmittedPayout) (now : Instant) :
    Except RewardError (Bool × RewardDatabase) :=
  match db.events.find? submitted.rewardEventId with
  | none => .ok (false, db)
  | some e =>
    if e.status ≠ .submitted ∨ e.extrinsicReference ≠ some submitted.reference then
      .ok (false, db)
    else do
      let db ← saveEvent db e RewardEvent.reverted RewardEvent.reverted_id
      return (true, addTimeline db
        ⟨e.submissionId, "PAYOUT_REORGED",
          "The unfinalized payout event left the best chain; the payout is pending again.",
          .reorged submitted.reference, "payout-watcher", some now⟩)

end Conjectures.Db

import Mathlib.Data.List.MinMax
import Conjectures.Lib.Transaction
import Conjectures.Chain.Transfers
import Conjectures.Db.Payouts

/-!
# Reading payouts off a block

`payouts_in_events` of `conjectures_subnet/transfers.py`: the stake transfers among the
events of one block, each with the Alpha amount of the `StakeAdded` event its call emitted
before it.  An event of an unknown shape is refused, so that the block is read again.

The best chain stands below: the blocks a node shows now, of which those up to the finalized
head never change again.

Attributes are modelled decoded, as in `Chain.Transfers`.
-/

namespace Conjectures.Chain

open Lib Db

/-! ## Events -/

/-- One event of a block, as far as payouts are read from it. -/
inductive StakeEvent where
  /-- `STAKE_ADDED_EVENT` -/
  | added (coldkey hotkey : Ss58) (netuid : ℕ) (alphaRao : ℤ)
  /-- `PAYOUT_EVENT`: the stake stays on its hotkey -/
  | transferred (originColdkey destinationColdkey hotkey : Ss58)
      (originNetuid destinationNetuid : ℕ) (amount : ℤ)
  /-- `LEGACY_PAYOUT_EVENT` -/
  | hotkeyTransferred (originColdkey destinationColdkey originHotkey destinationHotkey : Ss58)
      (originNetuid destinationNetuid : ℕ) (amount : ℤ)
  | other
  deriving DecidableEq

structure StakeRecord where
  event : StakeEvent
  extrinsicIdx : Option ℕ
  deriving DecidableEq

inductive ChainUnavailable where
  | noExtrinsicIdx
  | nonPositiveAmount
  /-- no `StakeAdded` event goes with the transfer -/
  | noCompanion (legacy : Bool)
  /-- there is no such block -/
  | noBlock (block : ℕ)
  deriving DecidableEq

structure StakeAddition where
  position : ℕ
  extrinsicIndex : ℕ
  coldkey : Ss58
  hotkey : Ss58
  netuid : ℕ
  alphaRao : ℤ
  deriving DecidableEq

/-- A stake transfer, before its amount is known. -/
structure StakeTransfer where
  position : ℕ
  extrinsicIndex : ℕ
  legacy : Bool
  originColdkey : Ss58
  destinationColdkey : Ss58
  originHotkey : Ss58
  destinationHotkey : Ss58
  originNetuid : ℕ
  destinationNetuid : ℕ
  taoEquivalent : ℤ
  deriving DecidableEq

/-- Sort the records of a block, the first of which is at `position`, into additions and
transfers. -/
def stakeEvents (position : ℕ) :
    List StakeRecord → Except ChainUnavailable (List StakeAddition × List StakeTransfer)
  | [] => .ok ([], [])
  | r :: records =>
    match r.event with
    | .added coldkey hotkey netuid alphaRao =>
      if alphaRao ≤ 0 then stakeEvents (position + 1) records
      else do
        let extrinsicIndex ← need r.extrinsicIdx .noExtrinsicIdx
        let (additions, transfers) ← stakeEvents (position + 1) records
        return (⟨position, extrinsicIndex, coldkey, hotkey, netuid, alphaRao⟩ :: additions,
          transfers)
    | .transferred originColdkey destinationColdkey hotkey originNetuid destinationNetuid amount =>
      do
        let extrinsicIndex ← need r.extrinsicIdx .noExtrinsicIdx
        let (additions, transfers) ← stakeEvents (position + 1) records
        return (additions, ⟨position, extrinsicIndex, false, originColdkey, destinationColdkey,
          hotkey, hotkey, originNetuid, destinationNetuid, amount⟩ :: transfers)
    | .hotkeyTransferred originColdkey destinationColdkey originHotkey destinationHotkey
        originNetuid destinationNetuid amount =>
      do
        let extrinsicIndex ← need r.extrinsicIdx .noExtrinsicIdx
        let (additions, transfers) ← stakeEvents (position + 1) records
        return (additions, ⟨position, extrinsicIndex, true, originColdkey, destinationColdkey,
          originHotkey, destinationHotkey, originNetuid, destinationNetuid, amount⟩ :: transfers)
    | .other => stakeEvents (position + 1) records

/-- The addition may be the transfer's own. -/
def StakeAddition.Precedes (a : StakeAddition) (t : StakeTransfer) : Prop :=
  a.extrinsicIndex = t.extrinsicIndex ∧ a.position < t.position ∧
    a.coldkey = t.destinationColdkey ∧ a.hotkey = t.destinationHotkey ∧
    a.netuid = t.destinationNetuid

instance StakeAddition.decidablePrecedes (a : StakeAddition) (t : StakeTransfer) :
    Decidable (a.Precedes t) := by
  unfold StakeAddition.Precedes; infer_instance

/-- The nearest addition before the transfer that no earlier transfer took, with its index. -/
def companion (additions : List StakeAddition) (used : List ℕ) (t : StakeTransfer) :
    Option (StakeAddition × ℕ) :=
  (additions.zipIdx.filter fun (a, index) ↦ index ∉ used ∧ a.Precedes t).argmax
    fun (a, _) ↦ a.position

def StakeTransfer.observed (t : StakeTransfer) (block : ℕ) (blockTimestamp : Instant)
    (amountRao : ℤ) : ObservedPayout where
  block := block
  blockTimestamp := blockTimestamp
  extrinsicIndex := t.extrinsicIndex
  eventIndex := t.position
  originColdkey := t.originColdkey
  destinationColdkey := t.destinationColdkey
  originHotkey := t.originHotkey
  destinationHotkey := t.destinationHotkey
  originNetuid := t.originNetuid
  destinationNetuid := t.destinationNetuid
  amountRao := amountRao
  taoEquivalentRao := some t.taoEquivalent

/-- Give each transfer, in order, the amount of its companion. -/
def pairPayouts (block : ℕ) (blockTimestamp : Instant) (additions : List StakeAddition) :
    List ℕ → List StakeTransfer → Except ChainUnavailable (List ObservedPayout)
  | _, [] => .ok []
  | used, t :: transfers => do
    require (0 < t.taoEquivalent) .nonPositiveAmount
    let (addition, index) ← need (companion additions used t) (.noCompanion t.legacy)
    let found ← pairPayouts block blockTimestamp additions (index :: used) transfers
    return t.observed block blockTimestamp addition.alphaRao :: found

/-- Successful stake-transfer payouts in one block, in either shape. -/
def payoutsInEvents (records : List StakeRecord) (block : ℕ) (blockTimestamp : Instant) :
    Except ChainUnavailable (List ObservedPayout) := do
  let (additions, transfers) ← stakeEvents 0 records
  pairPayouts block blockTimestamp additions [] transfers

/-! ## Positions -/

/-- Transfers stand in the order of their positions. -/
theorem stakeEvents_positions {records : List StakeRecord} {position : ℕ}
    {additions : List StakeAddition} {transfers : List StakeTransfer}
    (h : stakeEvents position records = .ok (additions, transfers)) :
    (∀ t ∈ transfers, position ≤ t.position) ∧
      transfers.Pairwise fun t t' ↦ t.position < t'.position := by
  induction records generalizing position additions transfers with
  | nil =>
    cases h
    exact ⟨nofun, List.Pairwise.nil⟩
  | cons r records ih =>
    have hskip : ∀ {additions transfers},
        stakeEvents (position + 1) records = .ok (additions, transfers) →
        (∀ t ∈ transfers, position + 1 ≤ t.position) ∧
          transfers.Pairwise fun t t' ↦ t.position < t'.position := fun h ↦ ih h
    have hcons : ∀ {additions transfers} {t : StakeTransfer}, t.position = position →
        stakeEvents (position + 1) records = .ok (additions, transfers) →
        (∀ t' ∈ t :: transfers, position ≤ t'.position) ∧
          (t :: transfers).Pairwise fun t t' ↦ t.position < t'.position := by
      rintro additions transfers t rfl h
      obtain ⟨hle, hpairwise⟩ := hskip h
      refine ⟨fun t' ht' ↦ ?_, List.pairwise_cons.mpr ⟨fun t' ht' ↦ hle t' ht', hpairwise⟩⟩
      rcases List.mem_cons.mp ht' with rfl | ht'
      · exact le_rfl
      · exact (Nat.le_succ _).trans (hle t' ht')
    have hlater : ∀ {additions transfers},
        stakeEvents (position + 1) records = .ok (additions, transfers) →
        (∀ t ∈ transfers, position ≤ t.position) ∧
          transfers.Pairwise fun t t' ↦ t.position < t'.position := fun h ↦
      ⟨fun t ht ↦ (Nat.le_succ _).trans ((hskip h).1 t ht), (hskip h).2⟩
    unfold stakeEvents at h
    split at h
    · split at h
      · exact hlater h
      · obtain ⟨_, -, h⟩ := bind_eq_ok.mp h
        obtain ⟨⟨additions', transfers'⟩, hrest, h⟩ := bind_eq_ok.mp h
        cases h
        exact hlater hrest
    · obtain ⟨_, -, h⟩ := bind_eq_ok.mp h
      obtain ⟨⟨additions', transfers'⟩, hrest, h⟩ := bind_eq_ok.mp h
      cases h
      exact hcons rfl hrest
    · obtain ⟨_, -, h⟩ := bind_eq_ok.mp h
      obtain ⟨⟨additions', transfers'⟩, hrest, h⟩ := bind_eq_ok.mp h
      cases h
      exact hcons rfl hrest
    · exact hlater h

/-- The payouts of a block are its transfers, in order. -/
theorem pairPayouts_positions {block : ℕ} {blockTimestamp : Instant}
    {additions : List StakeAddition} {used : List ℕ} {transfers : List StakeTransfer}
    {found : List ObservedPayout}
    (h : pairPayouts block blockTimestamp additions used transfers = .ok found) :
    found.map (·.eventIndex) = transfers.map (·.position) ∧ ∀ o ∈ found, o.block = block := by
  induction transfers generalizing used found with
  | nil =>
    cases h
    exact ⟨rfl, nofun⟩
  | cons t transfers ih =>
    simp only [pairPayouts, bind_eq_ok] at h
    obtain ⟨-, -, ⟨addition, index⟩, -, rest, hrest, h⟩ := h
    cases h
    obtain ⟨hpositions, hblock⟩ := ih hrest
    refine ⟨by rw [List.map_cons, List.map_cons, hpositions]; rfl, fun o ho ↦ ?_⟩
    rcases List.mem_cons.mp ho with rfl | ho
    · rfl
    · exact hblock o ho

theorem payoutsInEvents_spec {records : List StakeRecord} {block : ℕ} {blockTimestamp : Instant}
    {found : List ObservedPayout} (h : payoutsInEvents records block blockTimestamp = .ok found) :
    (found.map (·.eventIndex)).Nodup ∧ ∀ o ∈ found, o.block = block := by
  obtain ⟨⟨additions, transfers⟩, hevents, h⟩ := bind_eq_ok.mp h
  obtain ⟨hpositions, hblock⟩ := pairPayouts_positions h
  refine ⟨?_, hblock⟩
  rw [hpositions, List.Nodup, List.pairwise_map]
  exact (stakeEvents_positions hevents).2.imp fun h ↦ ne_of_lt h

/-! ## The best chain -/

structure PayoutBlock where
  timestamp : Instant
  records : List StakeRecord

/-- What a node shows of its best chain. -/
structure BestChain where
  blocks : ℕ → PayoutBlock
  finalizedHead : ℕ
  bestHead : ℕ
  finalized_le : finalizedHead ≤ bestHead

namespace BestChain

/-- `payouts_in`: the payouts of one block. -/
def payoutsIn (chain : BestChain) (block : ℕ) : Except ChainUnavailable (List ObservedPayout) :=
  if block ≤ chain.bestHead then
    payoutsInEvents (chain.blocks block).records block (chain.blocks block).timestamp
  else .error (.noBlock block)

/-- The payout is on the best chain, at or below its tip. -/
def Carries (chain : BestChain) (o : ObservedPayout) : Prop :=
  ∃ found, chain.payoutsIn o.block = .ok found ∧ o ∈ found

/-- New blocks come, and unfinalized ones are replaced. -/
def reorganise (chain : BestChain) (blocks : ℕ → PayoutBlock) (finalized best : ℕ) :
    BestChain where
  blocks n := if n ≤ chain.finalizedHead then chain.blocks n else blocks n
  finalizedHead := max chain.finalizedHead finalized
  bestHead := max (max chain.finalizedHead finalized) best
  finalized_le := le_max_left _ _

variable {chain : BestChain}

theorem carries_of_mem {block : ℕ} {found : List ObservedPayout} {o : ObservedPayout}
    (h : chain.payoutsIn block = .ok found) (ho : o ∈ found) :
    chain.Carries o ∧ o.block = block := by
  have hblock : o.block = block := by
    unfold payoutsIn at h
    split at h
    · exact (payoutsInEvents_spec h).2 o ho
    · cases h
  exact ⟨⟨found, hblock ▸ h, ho⟩, hblock⟩

theorem Carries.le_bestHead {o : ObservedPayout} (h : chain.Carries o) :
    o.block ≤ chain.bestHead := by
  obtain ⟨found, hfound, -⟩ := h
  unfold payoutsIn at hfound
  split at hfound
  · assumption
  · cases hfound

/-- Two payouts are at different positions. -/
theorem Carries.eq_of_reference {o o' : ObservedPayout} (h : chain.Carries o)
    (h' : chain.Carries o') (href : o.reference = o'.reference) : o = o' := by
  obtain ⟨found, hfound, ho⟩ := h
  obtain ⟨found', hfound', ho'⟩ := h'
  obtain ⟨hblock, -, hindex⟩ := position_injective href
  rw [hblock, hfound'] at hfound
  cases hfound
  unfold payoutsIn at hfound'
  split at hfound'
  · exact List.inj_on_of_nodup_map (payoutsInEvents_spec hfound').1 ho ho' hindex
  · cases hfound'

/-- A finalized block stays as it is. -/
theorem payoutsIn_reorganise (blocks : ℕ → PayoutBlock) (finalized best : ℕ) {block : ℕ}
    (h : block ≤ chain.finalizedHead) :
    (chain.reorganise blocks finalized best).payoutsIn block = chain.payoutsIn block := by
  have hbest := h.trans chain.finalized_le
  have hbest' : block ≤ (chain.reorganise blocks finalized best).bestHead :=
    h.trans ((le_max_left _ _).trans (le_max_left _ _))
  rw [payoutsIn, payoutsIn, if_pos hbest, if_pos hbest']
  simp only [reorganise, if_pos h]

theorem carries_reorganise {o : ObservedPayout} (h : o.block ≤ chain.finalizedHead)
    (blocks : ℕ → PayoutBlock) (finalized best : ℕ) :
    (chain.reorganise blocks finalized best).Carries o ↔ chain.Carries o := by
  rw [Carries, Carries, payoutsIn_reorganise blocks finalized best h]

end BestChain

end Conjectures.Chain

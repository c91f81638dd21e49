import Conjectures.Lib.Greedy
import Conjectures.Chain.Payouts

/-!
# Whose stake a payout moved

`payouts_in_events` gives each payout the nearest free `StakeAdded` event before it. The loop is
greedy, over the events of all extrinsics as they lie in the block; what makes the greed harmless
is that payouts of one extrinsic to one stake position see each other's candidates and more.
-/

namespace Conjectures.Chain

open Lib Db

/-! ## The events of a block -/

/-- The stake movement a record reports. -/
def StakeRecord.addition? (position : ℕ) : StakeRecord → Option StakeAddition
  | ⟨.added coldkey hotkey netuid alphaRao, some extrinsicIndex⟩ =>
    some ⟨position, extrinsicIndex, coldkey, hotkey, netuid, alphaRao⟩
  | _ => none

/-- The payout a record reports, in either shape. -/
def StakeRecord.transfer? (position : ℕ) : StakeRecord → Option StakeTransfer
  | ⟨.transferred originColdkey destinationColdkey hotkey originNetuid destinationNetuid amount,
      some extrinsicIndex⟩ =>
    some ⟨position, extrinsicIndex, false, originColdkey, destinationColdkey, hotkey, hotkey,
      originNetuid, destinationNetuid, amount⟩
  | ⟨.hotkeyTransferred originColdkey destinationColdkey originHotkey destinationHotkey
      originNetuid destinationNetuid amount, some extrinsicIndex⟩ =>
    some ⟨position, extrinsicIndex, true, originColdkey, destinationColdkey, originHotkey,
      destinationHotkey, originNetuid, destinationNetuid, amount⟩
  | _ => none

/-- The block has this `StakeAdded` event. -/
def Added (records : List StakeRecord) (a : StakeAddition) : Prop :=
  ∃ r, records[a.position]? = some r ∧ r.addition? a.position = some a

/-- The payouts of a block, in order. -/
def stakeTransfers (records : List StakeRecord) : List StakeTransfer :=
  records.zipIdx.filterMap fun (r, position) ↦ r.transfer? position

/-- The addition moved stake, before the payout, to where the payout says. -/
structure Owns (records : List StakeRecord) (t : StakeTransfer) (a : StakeAddition) : Prop where
  added : Added records a
  positive : 0 < a.alphaRao
  precedes : a.Precedes t

theorem StakeRecord.position_of_addition? {r : StakeRecord} {position : ℕ} {a : StakeAddition}
    (h : r.addition? position = some a) : a.position = position := by
  unfold StakeRecord.addition? at h
  split at h
  · cases h
    rfl
  · cases h

/-- What the scan of a block sorts out. -/
theorem stakeEvents_eq {records : List StakeRecord} {position : ℕ}
    {additions : List StakeAddition} {transfers : List StakeTransfer}
    (h : stakeEvents position records = .ok (additions, transfers)) :
    additions = ((records.zipIdx position).filterMap fun (r, i) ↦
        (r.addition? i).filter fun a ↦ 0 < a.alphaRao) ∧
      transfers = (records.zipIdx position).filterMap fun (r, i) ↦ r.transfer? i := by
  induction records generalizing position additions transfers with
  | nil =>
    cases h
    exact ⟨rfl, rfl⟩
  | cons r records ih =>
    obtain ⟨event, extrinsicIdx⟩ := r
    rw [List.zipIdx_cons, List.filterMap_cons, List.filterMap_cons]
    cases event with
    | added coldkey hotkey netuid alphaRao =>
      simp only [stakeEvents] at h
      split at h
      · rename_i halpha
        obtain ⟨rfl, rfl⟩ := ih h
        cases extrinsicIdx <;>
          simp [StakeRecord.addition?, StakeRecord.transfer?, Option.filter, not_lt.mpr halpha]
      · rename_i halpha
        simp only [bind_eq_ok, need_eq_ok] at h
        obtain ⟨extrinsicIndex, rfl, ⟨additions', transfers'⟩, hrest, h⟩ := h
        cases h
        obtain ⟨rfl, rfl⟩ := ih hrest
        simp [StakeRecord.addition?, StakeRecord.transfer?, Option.filter, not_le.mp halpha]
    | transferred | hotkeyTransferred =>
      simp only [stakeEvents, bind_eq_ok, need_eq_ok] at h
      obtain ⟨extrinsicIndex, rfl, ⟨additions', transfers'⟩, hrest, h⟩ := h
      cases h
      obtain ⟨rfl, rfl⟩ := ih hrest
      simp [StakeRecord.addition?, StakeRecord.transfer?]
    | other =>
      obtain ⟨rfl, rfl⟩ := ih h
      cases extrinsicIdx <;> simp [StakeRecord.addition?, StakeRecord.transfer?]

theorem mem_additions {records : List StakeRecord} {additions : List StakeAddition}
    {transfers : List StakeTransfer} (h : stakeEvents 0 records = .ok (additions, transfers))
    {a : StakeAddition} : a ∈ additions ↔ Added records a ∧ 0 < a.alphaRao := by
  rw [(stakeEvents_eq h).1]
  simp only [List.mem_filterMap, Prod.exists, List.mem_zipIdx_iff_getElem?, Option.filter_eq_some_iff,
    decide_eq_true_eq]
  constructor
  · rintro ⟨r, position, hr, ha, hpositive⟩
    have hposition := StakeRecord.position_of_addition? ha
    subst hposition
    exact ⟨⟨r, hr, ha⟩, hpositive⟩
  · rintro ⟨⟨r, hr, ha⟩, hpositive⟩
    exact ⟨r, a.position, hr, ha, hpositive⟩

/-- The scan itself pairs nothing. -/
theorem stakeEvents_ne_noCompanion {records : List StakeRecord} {position : ℕ} {legacy : Bool} :
    stakeEvents position records ≠ .error (.noCompanion legacy) := by
  induction records generalizing position with
  | nil => exact nofun
  | cons r records ih =>
    obtain ⟨event, extrinsicIdx⟩ := r
    intro h
    cases event with
    | added =>
      simp only [stakeEvents] at h
      split at h
      · exact ih h
      · simp only [bind_eq_error, need_eq_error] at h
        obtain ⟨-, h⟩ | ⟨_, -, h | ⟨_, -, h⟩⟩ := h
        · cases h
        · exact ih h
        · cases h
    | transferred | hotkeyTransferred =>
      simp only [stakeEvents, bind_eq_error, need_eq_error] at h
      obtain ⟨-, h⟩ | ⟨_, -, h | ⟨_, -, h⟩⟩ := h
      · cases h
      · exact ih h
      · cases h
    | other => exact ih h

/-- Additions stand in the order of their positions. -/
theorem stakeEvents_additions {records : List StakeRecord} {additions : List StakeAddition}
    {transfers : List StakeTransfer} (h : stakeEvents 0 records = .ok (additions, transfers)) :
    additions.Pairwise fun a b ↦ a.position < b.position := by
  have hpositions : records.zipIdx.Pairwise fun p q ↦ p.2 < q.2 := by
    rw [← List.pairwise_map, List.zipIdx_map_snd]
    exact List.pairwise_lt_range'
  rw [(stakeEvents_eq h).1, List.pairwise_filterMap]
  refine hpositions.imp fun {p q} hlt a ha b hb ↦ ?_
  rw [StakeRecord.position_of_addition? (Option.filter_eq_some_iff.mp ha).1,
    StakeRecord.position_of_addition? (Option.filter_eq_some_iff.mp hb).1]
  exact hlt

/-! ## The companions -/

/-- `pairPayouts`, with the companion each payout was given kept beside it. -/
def pairs (additions : List StakeAddition) : List ℕ → List StakeTransfer →
    Except ChainUnavailable (List (StakeTransfer × StakeAddition))
  | _, [] => .ok []
  | used, t :: transfers => do
    require (0 < t.taoEquivalent) .nonPositiveAmount
    let (addition, index) ← need (companion additions used t) (.noCompanion t.legacy)
    let rest ← pairs additions (index :: used) transfers
    return (t, addition) :: rest

/-- `payouts_in_events`, with the companions kept. -/
def pairsInEvents (records : List StakeRecord) :
    Except ChainUnavailable (List (StakeTransfer × StakeAddition)) := do
  let (additions, transfers) ← stakeEvents 0 records
  pairs additions [] transfers

theorem pairPayouts_eq_map {block : ℕ} {blockTimestamp : Instant} {additions : List StakeAddition}
    {used : List ℕ} {transfers : List StakeTransfer} :
    pairPayouts block blockTimestamp additions used transfers =
      (pairs additions used transfers).map
        (·.map fun p ↦ p.1.observed block blockTimestamp p.2.alphaRao) := by
  induction transfers generalizing used with
  | nil => rfl
  | cons t transfers ih =>
    simp only [pairPayouts, pairs]
    rcases require (0 < t.taoEquivalent) ChainUnavailable.nonPositiveAmount with e | _
    · rfl
    simp only [bind, Except.bind]
    rcases need (companion additions used t) (ChainUnavailable.noCompanion t.legacy) with e | found
    · rfl
    simp only [ih]
    rcases pairs additions (found.2 :: used) transfers with e | rest <;> rfl

/-- Reading a block is pairing its payouts and reporting each with its companion's amount. -/
theorem payoutsInEvents_eq_map {records : List StakeRecord} {block : ℕ}
    {blockTimestamp : Instant} :
    payoutsInEvents records block blockTimestamp = (pairsInEvents records).map
      (·.map fun p ↦ p.1.observed block blockTimestamp p.2.alphaRao) := by
  rw [payoutsInEvents, pairsInEvents]
  rcases stakeEvents 0 records with e | ⟨additions, transfers⟩
  · rfl
  · exact pairPayouts_eq_map

section Companions

variable {additions : List StakeAddition} {used : List ℕ} {t : StakeTransfer}

theorem companion_eq_some {a : StakeAddition} {index : ℕ}
    (h : companion additions used t = some (a, index)) :
    additions[index]? = some a ∧ index ∉ used ∧ a.Precedes t ∧
      ∀ b i, additions[i]? = some b → i ∉ used → b.Precedes t → b.position ≤ a.position := by
  have hmem := List.argmax_mem h
  simp only [List.mem_filter, List.mem_zipIdx_iff_getElem?, decide_eq_true_eq] at hmem
  refine ⟨hmem.1, hmem.2.1, hmem.2.2, fun b i hb hi hprecedes ↦ ?_⟩
  have hfree : (b, i) ∈ additions.zipIdx.filter fun (a, index) ↦ index ∉ used ∧ a.Precedes t := by
    simp only [List.mem_filter, List.mem_zipIdx_iff_getElem?, decide_eq_true_eq]
    exact ⟨hb, hi, hprecedes⟩
  exact @List.le_of_mem_argmax _ _ _ (fun p : StakeAddition × ℕ ↦ p.1.position) _ _ _ hfree h

theorem companion_eq_none (h : companion additions used t = none) {a : StakeAddition} {index : ℕ}
    (ha : additions[index]? = some a) (hprecedes : a.Precedes t) : index ∈ used := by
  by_contra hused
  have hempty := List.argmax_eq_none.mp h
  have hfree : (a, index) ∈
      additions.zipIdx.filter fun (a, index) ↦ index ∉ used ∧ a.Precedes t := by
    simp only [List.mem_filter, List.mem_zipIdx_iff_getElem?, decide_eq_true_eq]
    exact ⟨ha, hused, hprecedes⟩
  rw [hempty] at hfree
  cases hfree

end Companions

/-- Every payout is paired, in order, with an addition of its own that nobody took before. -/
theorem pairs_spec {additions : List StakeAddition} {used : List ℕ}
    {transfers : List StakeTransfer} {found : List (StakeTransfer × StakeAddition)}
    (hunique : additions.Nodup) (h : pairs additions used transfers = .ok found) :
    found.map Prod.fst = transfers ∧ (found.map Prod.snd).Nodup ∧
      (∀ p ∈ found, p.2 ∈ additions ∧ p.2.Precedes p.1) ∧
      ∀ p ∈ found, ∀ i ∈ used, additions[i]? ≠ some p.2 := by
  induction transfers generalizing used found with
  | nil =>
    cases h
    exact ⟨rfl, List.nodup_nil, nofun, nofun⟩
  | cons t transfers ih =>
    simp only [pairs, bind_eq_ok, require_eq_ok, need_eq_ok] at h
    obtain ⟨-, -, ⟨a, index⟩, hcompanion, rest, hrest, h⟩ := h
    cases h
    obtain ⟨ha, hindex, hprecedes, -⟩ := companion_eq_some hcompanion
    obtain ⟨htransfers, hnodup, hown, hfresh⟩ := ih hrest
    refine ⟨by rw [List.map_cons, htransfers], ?_, ?_, ?_⟩
    · refine List.nodup_cons.mpr ⟨fun hmem ↦ ?_, hnodup⟩
      obtain ⟨p, hp, hpa⟩ := List.mem_map.mp hmem
      exact hfresh p hp index List.mem_cons_self (hpa ▸ ha)
    · rintro p hp
      rcases List.mem_cons.mp hp with rfl | hp
      · exact ⟨List.mem_of_getElem? ha, hprecedes⟩
      · exact hown p hp
    · rintro p hp i hi heq
      rcases List.mem_cons.mp hp with rfl | hp
      · have hlt : i < additions.length := (List.getElem?_eq_some_iff.mp heq).1
        exact hindex ((List.getElem?_inj hlt hunique).mp (heq.trans ha.symm) ▸ hi)
      · exact hfresh p hp i (List.mem_cons_of_mem _ hi) heq

/-! ## The greed is harmless -/

/-- An addition a payout may take. -/
def MayTake (additions : List StakeAddition) (t : StakeTransfer) (a : StakeAddition) : Prop :=
  a ∈ additions ∧ a.Precedes t

/-- Payouts that share a candidate are of one extrinsic and to one stake position, so the later
one may take whatever the earlier one may. -/
theorem nested_mayTake {additions : List StakeAddition} {transfers : List StakeTransfer}
    (h : transfers.Pairwise fun s t ↦ s.position < t.position) :
    Nested (MayTake additions) transfers := by
  refine h.imp fun {s t} hlt b hs ht c hc ↦ ⟨hc.1, ?_⟩
  obtain ⟨-, hsextrinsic, -, hscoldkey, hshotkey, hsnetuid⟩ := hs
  obtain ⟨-, htextrinsic, -, htcoldkey, hthotkey, htnetuid⟩ := ht
  obtain ⟨-, hextrinsic, hbefore, hcoldkey, hhotkey, hnetuid⟩ := hc
  exact ⟨hextrinsic.trans (hsextrinsic.symm.trans htextrinsic), hbefore.trans hlt,
    hcoldkey.trans (hscoldkey.symm.trans htcoldkey),
    hhotkey.trans (hshotkey.symm.trans hthotkey), hnetuid.trans (hsnetuid.symm.trans htnetuid)⟩

/-- A payout that finds no free companion could not have been served whatever was given to the
payouts before it. -/
theorem pairs_exhausted {additions : List StakeAddition} {used : List ℕ}
    {transfers : List StakeTransfer} {taken : List (StakeTransfer × StakeAddition)} {legacy : Bool}
    (hsorted : (taken.map Prod.fst ++ transfers).Pairwise fun s t ↦ s.position < t.position)
    (htaken : ∀ p ∈ taken, MayTake additions p.1 p.2)
    (hused : ∀ i ∈ used, ∃ p ∈ taken, additions[i]? = some p.2)
    (h : pairs additions used transfers = .error (.noCompanion legacy))
    (own : StakeTransfer → StakeAddition) :
    ¬ Assigns (MayTake additions) (taken.map Prod.fst ++ transfers) own := by
  induction transfers generalizing used taken with
  | nil => cases h
  | cons t transfers ih =>
    simp only [pairs, bind_eq_error, require_eq_ok, require_eq_error, need_eq_ok,
      need_eq_error] at h
    obtain ⟨-, h⟩ | ⟨-, -, ⟨hnone, -⟩ | ⟨⟨a, index⟩, hcompanion, h | ⟨rest, -, h⟩⟩⟩ := h
    · cases h
    · refine (nested_mayTake hsorted).not_assigns ?_ htaken ?_ own
      · exact hsorted.imp fun hlt heq ↦ absurd (heq ▸ hlt) (lt_irrefl _)
      · rintro a ⟨ha, hprecedes⟩
        obtain ⟨i, hi⟩ := List.getElem?_of_mem ha
        obtain ⟨p, hp, hpi⟩ := hused i (companion_eq_none hnone hi hprecedes)
        exact ⟨p, hp, Option.some.inj (hpi.symm.trans hi)⟩
    · obtain ⟨ha, -, hprecedes, -⟩ := companion_eq_some hcompanion
      have happend : (taken ++ [(t, a)]).map Prod.fst ++ transfers =
          taken.map Prod.fst ++ t :: transfers := by
        rw [List.map_append, List.append_assoc]
        rfl
      rw [← happend]
      refine ih (happend ▸ hsorted) ?_ ?_ h
      · rintro p hp
        rcases List.mem_append.mp hp with hp | hp
        · exact htaken p hp
        · rw [List.mem_singleton.mp hp]
          exact ⟨List.mem_of_getElem? ha, hprecedes⟩
      · rintro i hi
        rcases List.mem_cons.mp hi with rfl | hi
        · exact ⟨(t, a), List.mem_append_right _ List.mem_cons_self, ha⟩
        · obtain ⟨p, hp, hpi⟩ := hused i hi
          exact ⟨p, List.mem_append_left _ hp, hpi⟩
    · cases h

/-- Where each payout's own addition is the last it may take, that is the one it is given. -/
theorem pairs_eq_own {additions : List StakeAddition} {used : List ℕ}
    {earlier transfers : List StakeTransfer} {own : StakeTransfer → StakeAddition}
    {found : List (StakeTransfer × StakeAddition)}
    (hposition : ∀ a ∈ additions, ∀ b ∈ additions, a.position = b.position → a = b)
    (hnodup : (earlier ++ transfers).Nodup)
    (hown : Assigns (MayTake additions) (earlier ++ transfers) own)
    (hlast : ∀ t ∈ transfers, ∀ a, MayTake additions t a → a.position ≤ (own t).position)
    (hused : ∀ i ∈ used, ∃ s ∈ earlier, additions[i]? = some (own s))
    (h : pairs additions used transfers = .ok found) :
    found = transfers.map fun t ↦ (t, own t) := by
  induction transfers generalizing used earlier found with
  | nil =>
    cases h
    rfl
  | cons t transfers ih =>
    simp only [pairs, bind_eq_ok, require_eq_ok, need_eq_ok] at h
    obtain ⟨-, -, ⟨a, index⟩, hcompanion, rest, hrest, h⟩ := h
    cases h
    obtain ⟨ha, -, hprecedes, hnearest⟩ := companion_eq_some hcompanion
    have ht : t ∈ earlier ++ t :: transfers := List.mem_append_right _ List.mem_cons_self
    obtain ⟨hmem, hmine⟩ := hown.candidate t ht
    obtain ⟨i, hi⟩ := List.getElem?_of_mem hmem
    -- nobody before it was given this payout's own addition
    have hfree : i ∉ used := by
      intro hi'
      obtain ⟨s, hs, hsi⟩ := hused i hi'
      have heq : own s = own t := Option.some.inj (hsi.symm.trans hi)
      obtain rfl := hown.injective s (List.mem_append_left _ hs) t ht heq
      exact (List.nodup_append.mp hnodup).2.2 s hs s List.mem_cons_self rfl
    have hle := hlast t List.mem_cons_self a ⟨List.mem_of_getElem? ha, hprecedes⟩
    have hge := hnearest (own t) i hi hfree hmine
    obtain rfl := hposition a (List.mem_of_getElem? ha) (own t) hmem (le_antisymm hle hge)
    have happend : earlier ++ t :: transfers = (earlier ++ [t]) ++ transfers := by
      rw [List.append_assoc]
      rfl
    rw [happend] at hnodup hown
    have htail := ih hnodup hown (fun s hs ↦ hlast s (List.mem_cons_of_mem _ hs)) (fun j hj ↦ ?_)
      hrest
    · rw [htail, List.map_cons]
    · rcases List.mem_cons.mp hj with rfl | hj
      · exact ⟨t, List.mem_append_right _ List.mem_cons_self, ha⟩
      · obtain ⟨s, hs, hsj⟩ := hused j hj
        exact ⟨s, List.mem_append_left _ hs, hsj⟩

/-! ## A block -/

section Block

variable {records : List StakeRecord} {additions : List StakeAddition}
  {transfers : List StakeTransfer} (h : stakeEvents 0 records = .ok (additions, transfers))
include h

theorem owns_iff {t : StakeTransfer} {a : StakeAddition} :
    Owns records t a ↔ MayTake additions t a := by
  rw [MayTake, mem_additions h]
  exact ⟨fun ⟨hadded, hpositive, hprecedes⟩ ↦ ⟨⟨hadded, hpositive⟩, hprecedes⟩,
    fun ⟨⟨hadded, hpositive⟩, hprecedes⟩ ↦ ⟨hadded, hpositive, hprecedes⟩⟩

theorem assigns_owns_iff {ts : List StakeTransfer} {own : StakeTransfer → StakeAddition} :
    Assigns (Owns records) ts own ↔ Assigns (MayTake additions) ts own := by
  have heq : Owns records = MayTake additions := by
    ext t a
    exact owns_iff h
  rw [heq]

end Block

/-- **Each payout is paired with its own stake movement.** In every block the companions are
distinct, each stands before its payout in one extrinsic with the payout's coldkey, hotkey and
netuid, and is the amount reported; a payout is refused for want of one only where no assignment
serves every payout; and where the payouts' own movements are the last that match before them,
those are the companions. -/
theorem payoutsInEvents_pairs (records : List StakeRecord) (block : ℕ) (blockTimestamp : Instant) :
    (∀ found, payoutsInEvents records block blockTimestamp = .ok found →
      ∃ companions, pairsInEvents records = .ok companions ∧
        found = companions.map (fun p ↦ p.1.observed block blockTimestamp p.2.alphaRao) ∧
        companions.map Prod.fst = stakeTransfers records ∧ (companions.map Prod.snd).Nodup ∧
        ∀ p ∈ companions, Owns records p.1 p.2) ∧
    (∀ legacy, payoutsInEvents records block blockTimestamp = .error (.noCompanion legacy) →
      ∀ own, ¬ Assigns (Owns records) (stakeTransfers records) own) ∧
    ∀ own, Assigns (Owns records) (stakeTransfers records) own →
      (∀ t ∈ stakeTransfers records, ∀ a, Owns records t a → a.position ≤ (own t).position) →
      ∀ found, payoutsInEvents records block blockTimestamp = .ok found →
        pairsInEvents records = .ok ((stakeTransfers records).map fun t ↦ (t, own t)) ∧
        found = (stakeTransfers records).map fun t ↦
          t.observed block blockTimestamp (own t).alphaRao := by
  rw [payoutsInEvents_eq_map, pairsInEvents]
  cases hevents : stakeEvents 0 records with
  | error e =>
    refine ⟨fun found h ↦ (nomatch h), fun legacy h ↦ ?_, fun own _ _ found h ↦ (nomatch h)⟩
    cases h
    exact absurd hevents stakeEvents_ne_noCompanion
  | ok events =>
    obtain ⟨additions, transfers⟩ := events
    have hadditions := stakeEvents_additions hevents
    have htransfers := (stakeEvents_positions hevents).2
    obtain rfl : transfers = stakeTransfers records := (stakeEvents_eq hevents).2
    rw [bind_of_ok rfl]
    refine ⟨fun found h ↦ ?_, fun legacy h own hown ↦ ?_, fun own hown hlast found h ↦ ?_⟩
    · obtain ⟨companions, hpairs, rfl⟩ := map_eq_ok.mp h
      have hunique : additions.Nodup :=
        hadditions.imp fun hlt heq ↦ absurd (heq ▸ hlt) (lt_irrefl _)
      obtain ⟨htransfers, hnodup, hown, -⟩ := pairs_spec hunique hpairs
      refine ⟨companions, hpairs, rfl, htransfers, hnodup, fun p hp ↦ ?_⟩
      exact (owns_iff hevents).mpr (hown p hp)
    · have herror : pairs additions [] (stakeTransfers records) = .error (.noCompanion legacy) :=
        map_eq_error.mp h
      have htaken : ∀ p ∈ ([] : List (StakeTransfer × StakeAddition)),
          MayTake additions p.1 p.2 := by
        intro p hp
        cases hp
      refine pairs_exhausted htransfers htaken ?_ herror own ((assigns_owns_iff hevents).mp hown)
      intro i hi
      cases hi
    · obtain ⟨companions, hpairs, rfl⟩ := map_eq_ok.mp h
      have hposition : ∀ a ∈ additions, ∀ b ∈ additions, a.position = b.position → a = b :=
        fun a ha b hb hab ↦ List.inj_on_of_nodup_map
          ((List.pairwise_map.mpr hadditions).imp ne_of_lt) ha hb hab
      have hnodup : (stakeTransfers records).Nodup :=
        htransfers.imp fun hlt heq ↦ absurd (heq ▸ hlt) (lt_irrefl _)
      have hgreatest : ∀ t ∈ stakeTransfers records, ∀ a, MayTake additions t a →
          a.position ≤ (own t).position :=
        fun t ht a ha ↦ hlast t ht a ((owns_iff hevents).mpr ha)
      have hused : ∀ i ∈ ([] : List ℕ), ∃ s ∈ ([] : List StakeTransfer),
          additions[i]? = some (own s) := by
        intro i hi
        cases hi
      have howned := pairs_eq_own hposition hnodup ((assigns_owns_iff hevents).mp hown) hgreatest
        hused hpairs
      subst howned
      exact ⟨hpairs, by rw [List.map_map]; rfl⟩

/-- Two payouts of one batch to one position, with another extrinsic's payout between them. -/
def batchRecords : List StakeRecord :=
  [⟨.added "solver" "validator" 66 500, some 3⟩, ⟨.added "other" "validator" 66 9, some 4⟩,
    ⟨.transferred "treasury" "solver" "validator" 66 66 40, some 3⟩,
    ⟨.transferred "treasury" "other" "validator" 66 66 1, some 4⟩,
    ⟨.added "solver" "validator" 66 700, some 3⟩,
    ⟨.transferred "treasury" "solver" "validator" 66 66 50, some 3⟩]

/-- Each payout of the batch is reported with its own amount. -/
theorem payoutsInEvents_pairs_batch :
    (payoutsInEvents batchRecords 8 0).map (·.map (·.amountRao)) = .ok [500, 9, 700] ∧
      ∃ companions, pairsInEvents batchRecords = .ok companions ∧
        (companions.map Prod.snd).Nodup := by
  have hrun : (payoutsInEvents batchRecords 8 0).map (·.map (·.amountRao)) = .ok [500, 9, 700] := by
    decide
  obtain ⟨found, hfound, -⟩ := map_eq_ok.mp hrun
  obtain ⟨companions, hpairs, -, -, hnodup, -⟩ :=
    (payoutsInEvents_pairs batchRecords 8 0).1 found hfound
  exact ⟨hrun, companions, hpairs, hnodup⟩

/-- An event that adds no stake is passed over, so the one payout after it is refused although
an event of its extrinsic with its coldkey, hotkey and netuid stands before it. -/
theorem payoutsInEvents_refuses_empty_addition :
    ∃ records : List StakeRecord,
      payoutsInEvents records 8 0 = .error (.noCompanion false) ∧
        ∃ own, Assigns (fun t a ↦ Added records a ∧ a.Precedes t) (stakeTransfers records) own := by
  refine ⟨[⟨.added "solver" "validator" 66 0, some 3⟩,
    ⟨.transferred "treasury" "solver" "validator" 66 66 40, some 3⟩], by decide,
    fun _ ↦ ⟨0, 3, "solver", "validator", 66, 0⟩, ?_, ?_⟩
  · intro t ht
    obtain rfl : t = ⟨1, 3, false, "treasury", "solver", "validator", "validator", 66, 66, 40⟩ :=
      List.mem_singleton.mp ht
    exact ⟨⟨_, rfl, rfl⟩, by decide⟩
  · intro s hs t ht _
    exact (List.mem_singleton.mp hs).trans (List.mem_singleton.mp ht).symm

end Conjectures.Chain

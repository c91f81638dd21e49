import Conjectures.Emissions.Vector
import Mathlib.Algebra.BigOperators.Ring.List
import Mathlib.Tactic.Linarith
import Mathlib.Tactic.Ring

/-!
# What the emission vector conserves

Before the small weights are left out the vector sums to one: every competition adds its share to
the weights and the unallocated together (`payCompetition_total`), and the treasury takes what is
unallocated.  The weights that are left out go to nobody, so the vector conserves everything exactly
if there is no such weight (`combine_conserves_iff`).
-/

namespace Conjectures.Emissions

open Lib

/-! ## What is due -/

/-- What a competition pays for a score. -/
def portion (slug : String) (scores : Scores) (score : ℚ) : ℚ :=
  share slug * (max score 0 / totalScore scores)

/-- What all competitions pay a hotkey. -/
def due (competitions : List (String × Scores)) (hotkey : String) : ℚ :=
  (competitions.map fun c ↦ portion c.1 c.2 (c.2.get hotkey)).sum

/-- What is scored by hotkeys that are not on the metagraph. -/
def deregistered (metagraph : List String) (competitions : List (String × Scores)) : ℚ :=
  (competitions.map fun c ↦ (c.2.map fun e ↦
    if e.1 ∈ metagraph then 0 else portion c.1 c.2 e.2).sum).sum

/-- The shares of the competitions that score nobody. -/
def unscoredShare (competitions : List (String × Scores)) : ℚ :=
  (competitionBps.map fun b ↦
    if 0 < totalScore ((competitions.lookup b.1).getD []) then 0 else share b.1).sum

/-- What is due to present hotkeys, but is not worth a uid. -/
def tooSmall (metagraph : List String) (treasuryUid : ℕ) (competitions : List (String × Scores)) :
    ℚ :=
  (metagraph.zipIdx.map fun p ↦
    if p.2 ≠ treasuryUid ∧ due competitions p.1 ≤ epsilon then due competitions p.1 else 0).sum

/-- What a vector gives a uid. -/
def weightOf (v : List ℕ × List ℚ) (uid : ℕ) : ℚ := Tally.get (v.1.zip v.2) uid

/-- A vector conserves everything. -/
structure Conserves (metagraph : List String) (treasuryUid : ℕ)
    (competitions : List (String × Scores)) (v : List ℕ × List ℚ) : Prop where
  total : v.2.sum = 1
  treasury : treasuryShare ≤ weightOf v treasuryUid
  /-- the hotkeys a competition pays get at most its share from it -/
  allocation : ∀ c ∈ competitions,
    (c.2.map fun e ↦ if e.1 ∈ metagraph then portion c.1 c.2 e.2 else 0).sum ≤ share c.1
  /-- a present hotkey gets what the competitions pay it, if that is worth a uid -/
  paid : ∀ uid hotkey, metagraph[uid]? = some hotkey → uid ≠ treasuryUid →
    epsilon < due competitions hotkey → weightOf v uid = due competitions hotkey
  /-- all else is the treasury's -/
  rest : ∀ hotkey, metagraph[treasuryUid]? = some hotkey →
    weightOf v treasuryUid = treasuryShare + due competitions hotkey +
      deregistered metagraph competitions + unscoredShare competitions +
        tooSmall metagraph treasuryUid competitions

/-! ## Shares and scores -/

section Shares

variable {slug : String} {scores : Scores}

theorem share_nonneg (slug : String) : 0 ≤ share slug :=
  div_nonneg (Nat.cast_nonneg _) (Nat.cast_nonneg _)

theorem share_of_mem {b : String × ℕ} (hb : b ∈ competitionBps) :
    share b.1 = (b.2 : ℚ) / basisPoints := by
  unfold share
  rw [(lookup_eq_some_iff distinctKeys_competitionBps).mpr hb, Option.getD_some]

theorem share_of_not_mem (h : slug ∉ competitionBps.map Prod.fst) : share slug = 0 := by
  unfold share
  rw [lookup_of_not_mem h, Option.getD_none, Nat.cast_zero, zero_div]

/-- The shares are all there is. -/
theorem share_total : treasuryShare + (competitionBps.map fun b ↦ share b.1).sum = 1 := by
  have hbps : (competitionBps.map fun b ↦ share b.1) =
      competitionBps.map fun b ↦ (b.2 : ℚ) / basisPoints :=
    List.map_congr_left fun b hb ↦ share_of_mem hb
  rw [hbps]
  norm_num [treasuryShare, treasuryBps, basisPoints, competitionBps]

theorem totalScore_eq (scores : Scores) :
    totalScore scores = (scores.map fun e ↦ max e.2 0).sum := by
  unfold totalScore
  induction scores with
  | nil => rfl
  | cons e scores ih =>
    rw [List.map_cons, List.map_cons, List.sum_cons, ← ih]
    by_cases he : 0 < e.2
    · rw [List.filter_cons_of_pos (by simpa using he), List.sum_cons, max_eq_left he.le]
    · rw [List.filter_cons_of_neg (by simpa using he), max_eq_right (not_lt.mp he), zero_add]

theorem totalScore_nonneg (scores : Scores) : 0 ≤ totalScore scores := by
  rw [totalScore_eq]
  refine List.sum_nonneg fun x hx ↦ ?_
  obtain ⟨e, -, rfl⟩ := List.mem_map.mp hx
  exact le_max_right _ _

theorem portion_nonneg (slug : String) (scores : Scores) (score : ℚ) :
    0 ≤ portion slug scores score :=
  mul_nonneg (share_nonneg slug) (div_nonneg (le_max_right _ _) (totalScore_nonneg scores))

@[simp] theorem portion_zero : portion slug scores 0 = 0 := by simp [portion]

/-- A competition that scores anybody pays its whole share. -/
theorem portion_sum : (scores.map fun e ↦ portion slug scores e.2).sum =
    if totalScore scores ≤ 0 then 0 else share slug := by
  have hsum : (scores.map fun e ↦ portion slug scores e.2).sum =
      share slug * ((scores.map fun e ↦ max e.2 0).sum / totalScore scores) := by
    unfold portion
    rw [List.sum_map_mul_left, div_eq_mul_inv, ← List.sum_map_mul_right]
    simp only [div_eq_mul_inv]
  rw [hsum, ← totalScore_eq]
  split
  · rename_i hle
    rw [le_antisymm hle (totalScore_nonneg scores), zero_div, mul_zero]
  · rename_i hpos
    rw [div_self (not_le.mp hpos).ne', mul_one]

end Shares

/-! ## One pass -/

/-- What a part of the pass adds: to every uid and to the unallocated (`none`), and in all. -/
structure Adds (paid paid' : Tally ℕ ℚ × ℚ) (credit : Option ℕ → ℚ) (amount : ℚ) : Prop where
  get : ∀ uid, Tally.get paid'.1 uid = Tally.get paid.1 uid + credit (some uid)
  unallocated : paid'.2 = paid.2 + credit none
  total : Tally.total paid'.1 + paid'.2 = Tally.total paid.1 + paid.2 + amount
  keys : DistinctKeys paid.1 → DistinctKeys paid'.1

section Pass

variable {paid paid' paid'' : Tally ℕ ℚ × ℚ} {credit credit' : Option ℕ → ℚ} {amount amount' : ℚ}

theorem Adds.nothing (paid : Tally ℕ ℚ × ℚ) : Adds paid paid (fun _ ↦ 0) 0 :=
  ⟨fun _ ↦ (add_zero _).symm, (add_zero _).symm, (add_zero _).symm, id⟩

theorem Adds.trans (h : Adds paid paid' credit amount) (h' : Adds paid' paid'' credit' amount') :
    Adds paid paid'' (fun dest ↦ credit dest + credit' dest) (amount + amount') where
  get := fun uid ↦ by rw [h'.get, h.get, add_assoc]
  unallocated := by rw [h'.unallocated, h.unallocated, add_assoc]
  total := by rw [h'.total, h.total, add_assoc]
  keys := fun hkeys ↦ h'.keys (h.keys hkeys)

/-- A loop adds what its steps add. -/
theorem Adds.foldl {α : Type*} {f : Tally ℕ ℚ × ℚ → α → Tally ℕ ℚ × ℚ}
    {credit : α → Option ℕ → ℚ} {amount : α → ℚ}
    (h : ∀ paid a, Adds paid (f paid a) (credit a) (amount a)) (as : List α)
    (paid : Tally ℕ ℚ × ℚ) :
    Adds paid (as.foldl f paid) (fun dest ↦ (as.map (credit · dest)).sum) (as.map amount).sum := by
  induction as generalizing paid with
  | nil => exact Adds.nothing paid
  | cons a as ih =>
    simp only [List.foldl_cons, List.map_cons, List.sum_cons]
    exact (h paid a).trans (ih (f paid a))

variable {metagraph : List String}

/-- An amount of a hotkey goes to its uid, or nowhere. -/
theorem payHotkey_adds (metagraph : List String) (budget total : ℚ) (paid : Tally ℕ ℚ × ℚ)
    (e : String × ℚ) :
    Adds paid (payHotkey metagraph budget total paid e)
      (fun dest ↦ if uidOf metagraph e.1 = dest then budget * (max e.2 0 / total) else 0)
      (budget * (max e.2 0 / total)) := by
  obtain ⟨weights, unallocated⟩ := paid
  obtain ⟨hotkey, score⟩ := e
  unfold payHotkey
  dsimp only
  split
  · rename_i hscore
    simp only [max_eq_right hscore, zero_div, mul_zero, ite_self]
    exact Adds.nothing _
  · rename_i hscore
    rw [max_eq_left (not_le.mp hscore).le]
    split
    · rename_i hnone
      refine ⟨fun uid ↦ ?_, ?_, ?_, id⟩
      · simp [hnone]
      · simp [hnone]
      · exact (add_assoc _ _ _).symm
    · rename_i uid hsome
      refine ⟨fun uid' ↦ ?_, ?_, ?_, Tally.distinctKeys_add⟩
      · simp only [hsome, Tally.get_add, Option.some.injEq, eq_comm]
      · simp [hsome]
      · rw [Tally.total_add]
        exact add_right_comm _ _ _

/-- What a competition adds to every uid and to the unallocated. -/
def routed (metagraph : List String) (c : String × Scores) (dest : Option ℕ) : ℚ :=
  (c.2.map fun e ↦ if uidOf metagraph e.1 = dest then portion c.1 c.2 e.2 else 0).sum +
    if dest = none ∧ totalScore c.2 ≤ 0 then share c.1 else 0

theorem portion_of_share (slug : String) (scores : Scores) (score : ℚ)
    (h : share slug ≤ 0 ∨ totalScore scores ≤ 0) : portion slug scores score = 0 := by
  unfold portion
  rcases h with h | h
  · rw [le_antisymm h (share_nonneg slug), zero_mul]
  · rw [le_antisymm h (totalScore_nonneg scores), div_zero, mul_zero]

/-- A competition adds its share, whole. -/
theorem payCompetition_adds (metagraph : List String) (paid : Tally ℕ ℚ × ℚ)
    (c : String × Scores) :
    Adds paid (payCompetition metagraph paid c) (routed metagraph c) (share c.1) := by
  obtain ⟨slug, scores⟩ := c
  unfold payCompetition
  dsimp only
  split
  · rename_i hshare
    have hnone : routed metagraph (slug, scores) = fun _ ↦ 0 := by
      funext dest
      unfold routed
      simp [portion_of_share slug scores _ (Or.inl hshare), le_antisymm hshare (share_nonneg slug)]
    rw [hnone, le_antisymm hshare (share_nonneg slug)]
    exact Adds.nothing paid
  · split
    · rename_i hscore
      have hrouted : routed metagraph (slug, scores) =
          fun dest ↦ if dest = none then share slug else 0 := by
        funext dest
        unfold routed
        simp [portion_of_share slug scores _ (Or.inr hscore), hscore]
      rw [hrouted]
      exact ⟨fun uid ↦ by simp, by simp, by simp [add_assoc], id⟩
    · rename_i hscore
      have hrouted : routed metagraph (slug, scores) = fun dest ↦ (scores.map fun e ↦
          if uidOf metagraph e.1 = dest then share slug * (max e.2 0 / totalScore scores)
          else 0).sum := by
        funext dest
        simp [routed, hscore, portion]
      have hamount : share slug =
          (scores.map fun e ↦ share slug * (max e.2 0 / totalScore scores)).sum := by
        have hsum := @portion_sum slug scores
        rw [if_neg hscore] at hsum
        exact hsum.symm
      rw [hrouted]
      have h := Adds.foldl (payHotkey_adds metagraph (share slug) (totalScore scores)) scores paid
      rwa [← hamount] at h

end Pass

/-! ## The weights -/

section Weigh

variable {metagraph : List String} {treasuryUid uid : ℕ} {hotkey : String}
  {competitions : List (String × Scores)}

theorem uidOf_eq_some (h : metagraph.Nodup) :
    uidOf metagraph hotkey = some uid ↔ metagraph[uid]? = some hotkey := by
  have hkeys : DistinctKeys metagraph.zipIdx.reverse := by
    unfold DistinctKeys
    rw [List.map_reverse, List.zipIdx_map_fst]
    exact List.nodup_reverse.mpr h
  unfold uidOf
  rw [lookup_eq_some_iff hkeys, List.mem_reverse, List.mem_zipIdx_iff_getElem?]

theorem uidOf_eq_none (h : metagraph.Nodup) :
    uidOf metagraph hotkey = none ↔ hotkey ∉ metagraph := by
  rw [← not_iff_not, not_not, ← ne_eq, Option.ne_none_iff_exists', List.mem_iff_getElem?]
  exact exists_congr fun uid ↦ uidOf_eq_some h

/-- What a competition pays a uid is what it pays the hotkey that holds it. -/
theorem routed_some (hmeta : metagraph.Nodup) {c : String × Scores} (hc : DistinctKeys c.2)
    (huid : metagraph[uid]? = some hotkey) :
    routed metagraph c (some uid) = portion c.1 c.2 (c.2.get hotkey) := by
  have hsame : ∀ k, uidOf metagraph k = some uid ↔ k = hotkey := fun k ↦ by
    rw [uidOf_eq_some hmeta, huid, Option.some.injEq, eq_comm]
  have hsum := sum_by_key hc (List.nodup_singleton hotkey)
    (f := fun k x ↦ if k = hotkey then portion c.1 c.2 x else 0) fun e _ hne ↦
      if_neg (List.mem_singleton.not.mp hne)
  unfold routed
  simp only [hsame, hsum, reduceCtorEq, false_and, if_false, add_zero]
  rw [List.map_singleton, List.sum_singleton, Tally.get]
  cases c.2.lookup hotkey <;> simp

theorem routed_none (hmeta : metagraph.Nodup) (c : String × Scores) :
    routed metagraph c none =
      (c.2.map fun e ↦ if e.1 ∈ metagraph then 0 else portion c.1 c.2 e.2).sum +
        if totalScore c.2 ≤ 0 then share c.1 else 0 := by
  unfold routed
  simp only [uidOf_eq_none hmeta, true_and, ite_not]

/-- The shares of the competitions with no scores at all are added to the unallocated. -/
theorem unscored_eq (competitions : List (String × Scores)) (unallocated : ℚ) :
    unscored competitions unallocated = unallocated + (competitionBps.map fun b ↦
      if b.1 ∈ competitions.map Prod.fst then 0 else share b.1).sum := by
  have hfold : ∀ (bps : List (String × ℕ)) (u : ℚ), bps ⊆ competitionBps →
      bps.foldl (fun u b ↦ if b.1 ∈ competitions.map Prod.fst then u
        else u + (b.2 : ℚ) / basisPoints) u =
      u + (bps.map fun b ↦ if b.1 ∈ competitions.map Prod.fst then 0 else share b.1).sum := by
    intro bps u hsub
    induction bps generalizing u with
    | nil => simp
    | cons b bps ih =>
      rw [List.foldl_cons, ih _ fun x hx ↦ hsub (List.mem_cons_of_mem b hx), List.map_cons,
        List.sum_cons, share_of_mem (hsub List.mem_cons_self)]
      split <;> ring
  exact hfold competitionBps unallocated (List.Subset.refl _)

/-- What the competitions leave unallocated: the scores of hotkeys that are gone, and the shares of
competitions that score nobody. -/
theorem unallocated_eq (hmeta : metagraph.Nodup) (hcomp : DistinctKeys competitions) :
    unscored competitions (competitions.map fun c ↦ routed metagraph c none).sum =
      deregistered metagraph competitions + unscoredShare competitions := by
  have hrouted : (competitions.map fun c ↦ routed metagraph c none).sum =
      deregistered metagraph competitions +
        (competitions.map fun c ↦ if totalScore c.2 ≤ 0 then share c.1 else 0).sum := by
    simp only [routed_none hmeta, List.sum_map_add]
    rfl
  have hbykey := sum_by_key hcomp distinctKeys_competitionBps
    (f := fun slug scores ↦ if totalScore scores ≤ 0 then share slug else 0)
    fun c _ hc ↦ by rw [share_of_not_mem hc, ite_self]
  rw [unscored_eq, hrouted, hbykey, add_assoc, List.map_map, ← List.sum_map_add]
  congr 1
  unfold unscoredShare
  congr 1
  refine List.map_congr_left fun b _ ↦ ?_
  -- a competition is scored and its scores are looked up, or it is not among them
  rw [Function.comp_apply, if_congr mem_keys_iff rfl rfl]
  cases hl : competitions.lookup b.1 with
  | none => simp [totalScore]
  | some scores =>
    by_cases hscore : 0 < totalScore scores
    · simp [hscore, not_le.mpr hscore]
    · simp [hscore, not_lt.mp hscore]

/-- All shares are added, of competitions that are scored and of those that are not. -/
theorem shares_added (hcomp : DistinctKeys competitions) :
    treasuryShare + unscored competitions (competitions.map fun c ↦ share c.1).sum = 1 := by
  have hbykey := sum_by_key hcomp distinctKeys_competitionBps
    (f := fun slug _ ↦ share slug) fun c _ hc ↦ share_of_not_mem hc
  rw [unscored_eq, hbykey, List.map_map, ← List.sum_map_add, ← share_total]
  congr 2
  refine List.map_congr_left fun b _ ↦ ?_
  rw [Function.comp_apply, if_congr mem_keys_iff rfl rfl]
  cases hl : competitions.lookup b.1 <;> simp

theorem competitions_adds (metagraph : List String) (competitions : List (String × Scores)) :
    Adds ([], 0) (competitions.foldl (payCompetition metagraph) ([], 0))
      (fun dest ↦ (competitions.map (routed metagraph · dest)).sum)
      (competitions.map fun c ↦ share c.1).sum :=
  Adds.foldl (payCompetition_adds metagraph) competitions ([], 0)

theorem distinctKeys_weigh : DistinctKeys (weigh metagraph treasuryUid competitions) :=
  Tally.distinctKeys_add ((competitions_adds metagraph competitions).keys List.nodup_nil)

/-- The weights: what the competitions pay, and to the treasury what they leave unallocated. -/
theorem get_weigh (metagraph : List String) (treasuryUid : ℕ)
    (competitions : List (String × Scores)) (uid : ℕ) :
    (weigh metagraph treasuryUid competitions).get uid =
      (competitions.map (routed metagraph · (some uid))).sum + if uid = treasuryUid then
        treasuryShare +
          unscored competitions (competitions.map fun c ↦ routed metagraph c none).sum
      else 0 := by
  have h := competitions_adds metagraph competitions
  have hunallocated := h.unallocated
  rw [zero_add] at hunallocated
  unfold weigh
  dsimp only
  rw [Tally.get_add, h.get, hunallocated]
  simp [Tally.get]

/-- They are all there is. -/
theorem total_weigh (hcomp : DistinctKeys competitions) :
    (weigh metagraph treasuryUid competitions).total = 1 := by
  have h := (competitions_adds metagraph competitions).total
  have hall := @shares_added competitions hcomp
  unfold weigh
  dsimp only
  rw [Tally.total_add]
  rw [unscored_eq] at hall ⊢
  simp only [Tally.total, List.map_nil, List.sum_nil, zero_add, add_zero] at h
  unfold Tally.total
  linarith

/-- What the competitions pay a uid is due to the hotkey that holds it. -/
theorem routed_sum (hmeta : metagraph.Nodup) (hscores : ∀ c ∈ competitions, DistinctKeys c.2)
    (huid : metagraph[uid]? = some hotkey) :
    (competitions.map (routed metagraph · (some uid))).sum = due competitions hotkey := by
  unfold due
  congr 1
  exact List.map_congr_left fun c hc ↦ routed_some hmeta (hscores c hc) huid

theorem routed_nonneg (metagraph : List String) (c : String × Scores) (dest : Option ℕ) :
    0 ≤ routed metagraph c dest := by
  refine add_nonneg (List.sum_nonneg fun x hx ↦ ?_) ?_
  · obtain ⟨e, -, rfl⟩ := List.mem_map.mp hx
    split
    · exact portion_nonneg _ _ _
    · exact le_rfl
  · split
    · exact share_nonneg _
    · exact le_rfl

theorem unscored_nonneg (competitions : List (String × Scores)) {unallocated : ℚ}
    (h : 0 ≤ unallocated) : 0 ≤ unscored competitions unallocated := by
  rw [unscored_eq]
  refine add_nonneg h (List.sum_nonneg fun x hx ↦ ?_)
  obtain ⟨b, -, rfl⟩ := List.mem_map.mp hx
  split
  · exact le_rfl
  · exact share_nonneg _

theorem routed_sum_nonneg (metagraph : List String) (competitions : List (String × Scores))
    (dest : Option ℕ) : 0 ≤ (competitions.map (routed metagraph · dest)).sum := by
  refine List.sum_nonneg fun x hx ↦ ?_
  obtain ⟨c, -, rfl⟩ := List.mem_map.mp hx
  exact routed_nonneg metagraph c dest

/-- The treasury's weight is at least its share, and no weight is negative. -/
theorem weigh_nonneg (metagraph : List String) (treasuryUid : ℕ)
    (competitions : List (String × Scores)) (uid : ℕ) :
    (if uid = treasuryUid then treasuryShare else 0) ≤
      (weigh metagraph treasuryUid competitions).get uid := by
  have hpaid := routed_sum_nonneg metagraph competitions (some uid)
  have hrest := unscored_nonneg competitions (routed_sum_nonneg metagraph competitions none)
  rw [get_weigh]
  split <;> linarith

theorem weight_nonneg (metagraph : List String) (treasuryUid : ℕ)
    (competitions : List (String × Scores)) (uid : ℕ) :
    0 ≤ (weigh metagraph treasuryUid competitions).get uid := by
  refine le_trans ?_ (weigh_nonneg metagraph treasuryUid competitions uid)
  split
  · exact div_nonneg (Nat.cast_nonneg _) (Nat.cast_nonneg _)
  · exact le_rfl

end Weigh

/-! ## The vector -/

section Combine

variable {metagraph : List String} {treasuryUid uid : ℕ} {hotkey : String}
  {competitions : List (String × Scores)}

/-- The entries of the vector: the weights that are worth a uid, in some order. -/
theorem combine_entries (metagraph : List String) (treasuryUid : ℕ)
    (competitions : List (String × Scores)) :
    ∃ ordered : Tally ℕ ℚ,
      ((weigh metagraph treasuryUid competitions).filter fun p ↦ epsilon < p.2).Perm ordered ∧
        combine metagraph treasuryUid competitions =
          (ordered.map Prod.fst, ordered.map Prod.snd) :=
  ⟨_, (List.perm_insertionSort _ _).symm, rfl⟩

theorem weightOf_combine :
    weightOf (combine metagraph treasuryUid competitions) uid =
      if epsilon < (weigh metagraph treasuryUid competitions).get uid then
        (weigh metagraph treasuryUid competitions).get uid
      else 0 := by
  obtain ⟨ordered, hperm, hcombine⟩ := combine_entries metagraph treasuryUid competitions
  have hkeys : DistinctKeys (weigh metagraph treasuryUid competitions) := distinctKeys_weigh
  have hentries : weightOf (combine metagraph treasuryUid competitions) uid =
      Tally.get ordered uid := by
    rw [hcombine, weightOf, List.zip_map']
    exact congrArg (Tally.get · uid) (List.map_id ordered)
  rw [hentries, ← Tally.get_perm (hkeys.sublist (List.filter_sublist.map _)) hperm,
    @Tally.get_filter _ _ _ _ _ uid (fun w ↦ decide (epsilon < w)) hkeys]
  simp only [decide_eq_true_eq]

/-- What is listed and what is left out come to one. -/
theorem combine_sum (hcomp : DistinctKeys competitions) :
    (combine metagraph treasuryUid competitions).2.sum +
      Tally.total ((weigh metagraph treasuryUid competitions).filter fun p ↦ !epsilon < p.2) =
        1 := by
  obtain ⟨ordered, hperm, hcombine⟩ := combine_entries metagraph treasuryUid competitions
  have hlisted : (combine metagraph treasuryUid competitions).2.sum = Tally.total
      ((weigh metagraph treasuryUid competitions).filter fun p ↦ epsilon < p.2) := by
    rw [hcombine]
    exact ((hperm.map Prod.snd).sum_eq).symm
  rw [hlisted, Tally.total_filter, total_weigh hcomp]

/-- No weight that is left out is anything, if the vector is all there is. -/
theorem eq_zero_of_sum (hcomp : DistinctKeys competitions)
    (hsum : (combine metagraph treasuryUid competitions).2.sum = 1)
    (hsmall : (weigh metagraph treasuryUid competitions).get uid ≤ epsilon) :
    (weigh metagraph treasuryUid competitions).get uid = 0 := by
  have hkeys : DistinctKeys (weigh metagraph treasuryUid competitions) := distinctKeys_weigh
  have hout := @combine_sum metagraph treasuryUid competitions hcomp
  rw [hsum, add_eq_left] at hout
  by_contra hne
  have hmem : (weigh metagraph treasuryUid competitions).get uid ∈
      ((weigh metagraph treasuryUid competitions).filter fun p ↦ !epsilon < p.2).map Prod.snd :=
    List.mem_map.mpr ⟨_, List.mem_filter.mpr
      ⟨Tally.mem_of_get hkeys hne, by simpa using hsmall⟩, rfl⟩
  have hnonneg : ∀ x ∈
      ((weigh metagraph treasuryUid competitions).filter fun p ↦ !epsilon < p.2).map Prod.snd,
      0 ≤ x := fun x hx ↦ by
    obtain ⟨p, hp, rfl⟩ := List.mem_map.mp hx
    rw [← Tally.get_of_mem hkeys (List.mem_filter.mp hp).1]
    exact weight_nonneg metagraph treasuryUid competitions p.1
  exact hne (List.all_zero_of_le_zero_le_of_sum_eq_zero hnonneg hout hmem)

theorem epsilon_lt_treasuryShare : epsilon < treasuryShare := by
  norm_num [epsilon, treasuryShare, treasuryBps, basisPoints]

/-- A uid that nobody holds is paid nothing. -/
theorem routed_of_absent (hmeta : metagraph.Nodup) (huid : metagraph[uid]? = none)
    (c : String × Scores) : routed metagraph c (some uid) = 0 := by
  have hnone : ∀ k, uidOf metagraph k ≠ some uid := fun k hk ↦ by
    rw [uidOf_eq_some hmeta, huid] at hk
    cases hk
  simp [routed, hnone]

/-- The weights of all but the treasury are what is due. -/
theorem get_weigh_present (hmeta : metagraph.Nodup) (hscores : ∀ c ∈ competitions, DistinctKeys c.2)
    (huid : metagraph[uid]? = some hotkey) (hne : uid ≠ treasuryUid) :
    (weigh metagraph treasuryUid competitions).get uid = due competitions hotkey := by
  rw [get_weigh, routed_sum hmeta hscores huid, if_neg hne, add_zero]

/-- The treasury's is its share, what is due and what is unallocated. -/
theorem get_weigh_treasury (hmeta : metagraph.Nodup) (hcomp : DistinctKeys competitions)
    (hscores : ∀ c ∈ competitions, DistinctKeys c.2)
    (huid : metagraph[treasuryUid]? = some hotkey) :
    (weigh metagraph treasuryUid competitions).get treasuryUid =
      treasuryShare + due competitions hotkey + deregistered metagraph competitions +
        unscoredShare competitions := by
  rw [get_weigh, routed_sum hmeta hscores huid, if_pos rfl, unallocated_eq hmeta hcomp]
  ring

theorem weightOf_treasury :
    weightOf (combine metagraph treasuryUid competitions) treasuryUid =
        (weigh metagraph treasuryUid competitions).get treasuryUid ∧
      treasuryShare ≤ (weigh metagraph treasuryUid competitions).get treasuryUid := by
  have hshare := weigh_nonneg metagraph treasuryUid competitions treasuryUid
  rw [if_pos rfl] at hshare
  exact ⟨weightOf_combine.trans (if_pos (epsilon_lt_treasuryShare.trans_le hshare)), hshare⟩

/-- If nothing that is due is not worth a uid, nothing is left out. -/
theorem left_out_eq_zero (hmeta : metagraph.Nodup) (hscores : ∀ c ∈ competitions, DistinctKeys c.2)
    (h : ∀ uid hotkey, metagraph[uid]? = some hotkey → uid ≠ treasuryUid →
      due competitions hotkey = 0 ∨ epsilon < due competitions hotkey)
    (hsmall : ¬ epsilon < (weigh metagraph treasuryUid competitions).get uid) :
    (weigh metagraph treasuryUid competitions).get uid = 0 := by
  by_cases hne : uid = treasuryUid
  · subst hne
    exact absurd (epsilon_lt_treasuryShare.trans_le weightOf_treasury.2) hsmall
  · cases huid : metagraph[uid]? with
    | none =>
      rw [get_weigh, if_neg hne, add_zero]
      refine List.sum_eq_zero fun x hx ↦ ?_
      obtain ⟨c, -, rfl⟩ := List.mem_map.mp hx
      exact routed_of_absent hmeta huid c
    | some hotkey =>
      rw [get_weigh_present hmeta hscores huid hne] at hsmall ⊢
      exact (h uid hotkey huid hne).resolve_right hsmall

theorem combine_sum_eq_one (hmeta : metagraph.Nodup) (hcomp : DistinctKeys competitions)
    (hscores : ∀ c ∈ competitions, DistinctKeys c.2)
    (h : ∀ uid hotkey, metagraph[uid]? = some hotkey → uid ≠ treasuryUid →
      due competitions hotkey = 0 ∨ epsilon < due competitions hotkey) :
    (combine metagraph treasuryUid competitions).2.sum = 1 := by
  have hout : Tally.total ((weigh metagraph treasuryUid competitions).filter
      fun p ↦ !epsilon < p.2) = 0 := by
    refine List.sum_eq_zero fun x hx ↦ ?_
    obtain ⟨p, hp, rfl⟩ := List.mem_map.mp hx
    obtain ⟨hmem, hle⟩ := List.mem_filter.mp hp
    have hget : (weigh metagraph treasuryUid competitions).get p.1 = p.2 :=
      Tally.get_of_mem distinctKeys_weigh hmem
    rw [← hget]
    refine left_out_eq_zero hmeta hscores h ?_
    rw [hget]
    simpa using hle
  have hsum := @combine_sum metagraph treasuryUid competitions hcomp
  rwa [hout, add_zero] at hsum

/-- Of the portions of a competition, those of present hotkeys are at most its share. -/
theorem allocation_le (metagraph : List String) (c : String × Scores) :
    (c.2.map fun e ↦ if e.1 ∈ metagraph then portion c.1 c.2 e.2 else 0).sum ≤ share c.1 := by
  have hall : (c.2.map fun e ↦ portion c.1 c.2 e.2).sum ≤ share c.1 := by
    rw [portion_sum]
    split
    · exact share_nonneg _
    · exact le_rfl
  refine le_trans (List.sum_le_sum fun e _ ↦ ?_) hall
  split
  · exact le_rfl
  · exact portion_nonneg _ _ _

/-- The vector conserves everything exactly if no present hotkey, the treasury's apart, is due
something that is not worth a uid. -/
theorem combine_conserves_iff (hmeta : metagraph.Nodup) (hcomp : DistinctKeys competitions)
    (hscores : ∀ c ∈ competitions, DistinctKeys c.2) :
    Conserves metagraph treasuryUid competitions (combine metagraph treasuryUid competitions) ↔
      ∀ uid hotkey, metagraph[uid]? = some hotkey → uid ≠ treasuryUid →
        due competitions hotkey = 0 ∨ epsilon < due competitions hotkey := by
  constructor
  · intro h uid hotkey huid hne
    refine or_iff_not_imp_right.mpr fun hsmall ↦ ?_
    rw [← get_weigh_present hmeta hscores huid hne] at hsmall ⊢
    exact eq_zero_of_sum hcomp h.total (not_lt.mp hsmall)
  · intro h
    obtain ⟨hlisted, hshare⟩ := @weightOf_treasury metagraph treasuryUid competitions
    have hsmall : tooSmall metagraph treasuryUid competitions = 0 := by
      refine List.sum_eq_zero fun x hx ↦ ?_
      obtain ⟨⟨hotkey, uid⟩, hmem, rfl⟩ := List.mem_map.mp hx
      dsimp only
      split
      · rename_i hdue
        exact (h uid hotkey (List.mem_zipIdx_iff_getElem?.mp hmem) hdue.1).resolve_right
          (not_lt.mpr hdue.2)
      · rfl
    refine ⟨combine_sum_eq_one hmeta hcomp hscores h, hlisted ▸ hshare,
      fun c _ ↦ allocation_le metagraph c, fun uid hotkey huid hne hdue ↦ ?_, fun hotkey huid ↦ ?_⟩
    · rw [weightOf_combine, get_weigh_present hmeta hscores huid hne, if_pos hdue]
    · rw [hlisted, get_weigh_treasury hmeta hcomp hscores huid, hsmall, add_zero]

/-- Two hotkeys that are scored, one that is gone and a competition without a share. -/
def epoch : List (String × Scores) :=
  [("deflate", [("a", 2), ("gone", 1), ("b", 1)]), ("inflate", [("a", 5)])]

theorem combine_conserves_iff_epoch :
    Conserves ["a", "b", "treasury"] 2 epoch (combine ["a", "b", "treasury"] 2 epoch) ∧
      combine ["a", "b", "treasury"] 2 epoch = ([0, 1, 2], [1 / 10, 1 / 20, 17 / 20]) := by
  refine ⟨(combine_conserves_iff (by decide) (by decide) (by decide)).mpr
    fun uid hotkey huid _ ↦ ?_, by decide +kernel⟩
  obtain rfl | rfl | rfl : hotkey = "a" ∨ hotkey = "b" ∨ hotkey = "treasury" := by
    simpa using List.mem_of_getElem? huid
  · exact Or.inr (by decide +kernel)
  · exact Or.inr (by decide +kernel)
  · exact Or.inl (by decide +kernel)

/-- A score a billionth of another's: the weight it is due is left out, and is not the treasury's
either. -/
theorem small_weight_dropped :
    ¬ ∀ (metagraph : List String) (treasuryUid : ℕ) (competitions : List (String × Scores)),
      metagraph.Nodup → treasuryUid < metagraph.length → DistinctKeys competitions →
        (∀ c ∈ competitions, DistinctKeys c.2 ∧ ∀ e ∈ c.2, 0 ≤ e.2) →
          Conserves metagraph treasuryUid competitions
            (combine metagraph treasuryUid competitions) := by
  intro h
  have hconserves := h ["a", "b", "treasury"] 2 [("deflate", [("a", 1000000000), ("b", 1)])]
    (by decide) (by decide) (by decide) (by decide +kernel)
  exact absurd hconserves.total (by decide +kernel)

end Combine

/-! ## The plan -/

/-- Whatever can be read, the weights of the plan come to one if nothing that is due is not worth
a uid. -/
theorem plan_sum (hotkeys : Option (Option (List String)))
    (source : Option (List (String × Scores)))
    (hkeys : ∀ competitions ∈ source, DistinctKeys competitions ∧
      ∀ c ∈ competitions, DistinctKeys c.2)
    (hdue : ∀ metagraph ∈ hotkeys.join, metagraph.Nodup ∧ ∀ competitions ∈ source,
      ∀ hotkey ∈ metagraph, due competitions hotkey = 0 ∨ epsilon < due competitions hotkey) :
    (plan hotkeys source).2.sum = 1 := by
  unfold plan
  split
  · exact List.sum_singleton
  · rename_i hotkeys
    split
    · exact List.sum_singleton
    · exact List.sum_singleton
    · exact List.sum_singleton
    · rename_i competitions metagraph _
      obtain ⟨hcomp, hscores⟩ := hkeys competitions rfl
      obtain ⟨hmeta, hall⟩ := hdue metagraph rfl
      exact combine_sum_eq_one hmeta hcomp hscores fun uid hotkey huid _ ↦
        hall competitions rfl hotkey (List.mem_of_getElem? huid)

end Conjectures.Emissions

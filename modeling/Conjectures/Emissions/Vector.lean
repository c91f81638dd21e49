import Conjectures.Lib.Tally
import Mathlib.Algebra.Order.Field.Rat
import Mathlib.Data.List.Sort
import Mathlib.Tactic.NormNum

/-!
# The emission vector

`emissions_worker/vector.py`, `allocation.py` and `worker.py`: every epoch one vector of weights is
set, over the uids of the metagraph.  The treasury and the competitions have fixed shares; a
competition's share is divided among its scored hotkeys, and what reaches no hotkey is the
treasury's.

Weights are exact here.  A dictionary is the list of its entries in order of insertion.
-/

namespace Conjectures.Emissions

open Lib

/-! ## `allocation.py` -/

def basisPoints : ℕ := 10000

/-- The treasury's share. -/
def treasuryBps : ℕ := 8000

/-- Each competition's share, by slug. -/
def competitionBps : List (String × ℕ) := [("deflate", 2000)]

/-- What is asserted at import. -/
theorem bps_total : treasuryBps + (competitionBps.map Prod.snd).sum = basisPoints := rfl

theorem distinctKeys_competitionBps : DistinctKeys competitionBps := by decide

/-- `share`: zero for a competition that has none. -/
def share (slug : String) : ℚ := ((competitionBps.lookup slug).getD 0 : ℕ) / basisPoints

def treasuryShare : ℚ := treasuryBps / basisPoints

/-! ## `vector.py` -/

/-- Scores by hotkey. -/
abbrev Scores := Tally String ℚ

/-- Below this a weight is not worth a uid. -/
def epsilon : ℚ := 1 / 1000000000

/-- `uid_of`: of two uids of one hotkey, the later. -/
def uidOf (metagraph : List String) (hotkey : String) : Option ℕ :=
  metagraph.zipIdx.reverse.lookup hotkey

/-- What a competition's scores come to: only positive ones count. -/
def totalScore (scores : Scores) : ℚ := ((scores.map Prod.snd).filter (0 < ·)).sum

/-- One scored hotkey of a competition: the weights so far, and what is unallocated so far. -/
def payHotkey (metagraph : List String) (budget total : ℚ) (paid : Tally ℕ ℚ × ℚ)
    (entry : String × ℚ) : Tally ℕ ℚ × ℚ :=
  let (weights, unallocated) := paid
  let (hotkey, score) := entry
  if score ≤ 0 then (weights, unallocated)
  else
    let portion := budget * (score / total)
    match uidOf metagraph hotkey with
    | none => (weights, unallocated + portion)
    | some uid => (weights.add uid portion, unallocated)

/-- One competition. -/
def payCompetition (metagraph : List String) (paid : Tally ℕ ℚ × ℚ)
    (competition : String × Scores) : Tally ℕ ℚ × ℚ :=
  let (slug, scores) := competition
  let budget := share slug
  -- scored but unfunded
  if budget ≤ 0 then paid
  else
    let total := totalScore scores
    if total ≤ 0 then (paid.1, paid.2 + budget)
    else scores.foldl (payHotkey metagraph budget total) paid

/-- The competitions with a share but no scores at all. -/
def unscored (competitions : List (String × Scores)) (unallocated : ℚ) : ℚ :=
  competitionBps.foldl (fun unallocated (slug, bps) ↦
    if slug ∈ competitions.map Prod.fst then unallocated
    else unallocated + (bps : ℚ) / basisPoints) unallocated

/-- The weights before those that are not worth a uid are left out. -/
def weigh (metagraph : List String) (treasuryUid : ℕ) (competitions : List (String × Scores)) :
    Tally ℕ ℚ :=
  let (weights, unallocated) := competitions.foldl (payCompetition metagraph) ([], 0)
  weights.add treasuryUid (treasuryShare + unscored competitions unallocated)

/-- The vector to submit: uids and weights. -/
def combine (metagraph : List String) (treasuryUid : ℕ) (competitions : List (String × Scores)) :
    List ℕ × List ℚ :=
  let ordered := ((weigh metagraph treasuryUid competitions).filter
    (epsilon < ·.2)).insertionSort fun p q ↦ p.1 < q.1 ∨ p.1 = q.1 ∧ p.2 ≤ q.2
  (ordered.map Prod.fst, ordered.map Prod.snd)

/-- `treasury_only`. -/
def treasuryOnly (treasuryUid : ℕ) : List ℕ × List ℚ := ([treasuryUid], [1])

/-! ## `worker.py` -/

/-- `TREASURY_UID`. -/
def treasury : ℕ := 121

/-- `plan`: what is submitted this epoch.  A worker may read no metagraph; the metagraph and the
scores are read from outside, and a reading that fails is none. -/
def plan (hotkeys : Option (Option (List String))) (source : Option (List (String × Scores))) :
    List ℕ × List ℚ :=
  match hotkeys with
  | none => treasuryOnly treasury
  | some hotkeys =>
    match source, hotkeys with
    | none, _ | some [], _ | some (_ :: _), none => treasuryOnly treasury
    | some competitions, some metagraph => combine metagraph treasury competitions

end Conjectures.Emissions

import Conjectures.Lib.Loop
import Conjectures.Lib.Bisection
import Conjectures.Lib.Transaction
import Conjectures.Db.Transfers

/-!
# From an instant to a block

`first_block_at_or_after` of `conjectures_subnet/transfers.py`: the height watching starts at. A
lower end is found by doubling backwards from the head, and the boundary between it and the
highest block known to be late enough is bisected.

The search keeps the heights it has read, in order.
-/

namespace Conjectures.Chain

open Lib Db

/-- `ObservedBlock`. -/
structure ObservedBlock where
  number : ℤ
  hash : String
  /-- the chain's time, not the reader's clock -/
  timestamp : Instant
  deriving DecidableEq

/-- A `datetime`, which may lack its timezone. -/
inductive Datetime where
  | naive (wallClock : Instant)
  | aware (instant : Instant)

inductive SearchError where
  | valueError (message : String)
  /-- the chain could not answer -/
  | chainUnavailable (message : String)
  /-- the finalized head is before the requested instant -/
  | headBefore (head : ℤ) (timestamp requested : Instant)
  | outOfFuel
  deriving DecidableEq

/-- What the search needs of a `TransferSource`. -/
structure TransferSource where
  finalizedHead : Except SearchError ℤ
  block : ℤ → Except SearchError ObservedBlock

/-- `BLOCKS_PER_DAY`: the opening guess, not a constant anything depends on being right. -/
def blocksPerDay : ℤ := 7200

theorem blocksPerDay_pos : 0 < blocksPerDay := by decide

/-- A search, with the heights read so far. -/
abbrev Search := StateT (List ℤ) (Except SearchError)

/-- One block, read. -/
def TransferSource.read (source : TransferSource) (number : ℤ) : Search ObservedBlock := fun reads ↦
  (source.block number).map (·, reads ++ [number])

/-- The head given, or the finalized one. -/
def TransferSource.top (source : TransferSource) : Option ℤ → Except SearchError ℤ
  | some head => .ok head
  | none => source.finalizedHead

/-- What the galloping loop changes. -/
structure Gallop where
  high : ℤ
  step : ℤ

/-- One pass of doubling backwards: the ends found, or a larger step. -/
def gallop (source : TransferSource) (time : Instant) (top : ℤ) (s : Gallop) :
    Search (Pass Gallop (ℤ × ℤ)) := do
  let candidate := top - s.step
  if candidate ≤ 1 then return .done (1, s.high)
  let probe ← source.read candidate
  if probe.timestamp < time then return .done (candidate, s.high)
  return .again ⟨candidate, s.step * 2⟩

/-- One pass of the bisection. -/
def bisect (source : TransferSource) (time : Instant) (ends : ℤ × ℤ) :
    Search (Pass (ℤ × ℤ) ℤ) := do
  if ¬ ends.1 + 1 < ends.2 then return .done ends.2
  let middle := (ends.1 + ends.2) / 2
  let probe ← source.read middle
  if probe.timestamp < time then return .again (middle, ends.2)
  return .again (ends.1, middle)

/-- The earliest finalized block whose own timestamp is at or after the requested instant. -/
def firstBlockAtOrAfter (source : TransferSource) (fuel : ℕ) (requested : Datetime)
    (head : Option ℤ) : Search ObservedBlock := do
  match requested with
  | .naive _ => throw (.valueError "the genesis timestamp must be timezone-aware")
  | .aware time =>
    let top ← source.top head
    let tip ← source.read top
    if tip.timestamp < time then throw (.headBefore top tip.timestamp time)
    let ends ← loop .outOfFuel (gallop source time top) fuel ⟨top, blocksPerDay⟩
    let high ← loop .outOfFuel (bisect source time) fuel ends
    source.read high

/-! ## The chain the source shows -/

/-- A chain up to `top` whose block times never decrease, as the source shows it. -/
structure Chronicle (source : TransferSource) (top : ℤ) where
  blocks : ℤ → ObservedBlock
  shows : ∀ n, 1 ≤ n → n ≤ top → source.block n = .ok (blocks n)
  ordered : ∀ m n, 1 ≤ m → m ≤ n → n ≤ top → (blocks m).timestamp ≤ (blocks n).timestamp

/-- Every height read so far is one of the chain's. -/
def WithinChain (top : ℤ) (reads : List ℤ) : Prop := ∀ n ∈ reads, 1 ≤ n ∧ n ≤ top

namespace Chronicle

variable {source : TransferSource} {top : ℤ} (chain : Chronicle source top) (time : Instant)

/-- The heights whose block is at or after an instant. -/
def due : Set ℤ := {n | 1 ≤ n ∧ n ≤ top ∧ time ≤ (chain.blocks n).timestamp}

variable {time}

theorem due_up {m n : ℤ} (hm : m ∈ chain.due time) (h : m ≤ n) (hn : n ≤ top) :
    n ∈ chain.due time :=
  ⟨Int.le_trans hm.1 h, hn, le_trans hm.2.2 (chain.ordered m n hm.1 h hn)⟩

/-- A height outside is below every height inside. -/
theorem lt_of_due {m n : ℤ} (hn : n ∉ chain.due time) (hm : m ∈ chain.due time) (htop : n ≤ top) :
    n < m := by
  by_contra hle
  exact hn (chain.due_up hm (not_lt.mp hle) htop)

/-- Reading a height of the chain shows its block, and stays on the chain. -/
theorem read_returns {n : ℤ} (hn : 1 ≤ n) (htop : n ≤ top) :
    Returns (WithinChain top) (source.read n) (· = chain.blocks n) := by
  intro reads hreads
  refine ⟨chain.blocks n, reads ++ [n], ?_, ?_, rfl⟩
  · simp only [TransferSource.read, chain.shows n hn htop]
    rfl
  · intro m hm
    rcases List.mem_append.mp hm with hm | hm
    · exact hreads m hm
    · rw [List.mem_singleton.mp hm]
      exact ⟨hn, htop⟩

/-! ## The loops -/

/-- What the galloping loop hands to the bisection: ends on either side of the boundary, but for
a chain of one block. -/
structure Bracketed (time : Instant) (ends : ℤ × ℤ) : Prop where
  pos : 1 ≤ ends.1
  due : ends.2 ∈ chain.due time
  brackets : top = 1 ∨ Brackets (chain.due time) ends.1 ends.2

variable (hstart : (chain.blocks 1).timestamp < time ∨ top = 1)
include hstart

/-- Each pass of the galloping loop keeps its upper end late enough and doubles its step. -/
theorem gallop_returns {s : Gallop} (hdue : s.high ∈ chain.due time) (hstep : 0 < s.step) :
    Returns (WithinChain top) (gallop source time top s) (Pass.Meets
      (fun s' ↦ (s'.high ∈ chain.due time ∧ 0 < s'.step) ∧
        (top - s'.step).toNat < (top - s.step).toNat) (chain.Bracketed time)) := by
  rw [gallop]
  split
  · -- the doubling has passed the first block, which is early enough by hypothesis
    refine .pure ⟨Int.le_refl 1, hdue, hstart.symm.imp_right fun hearly ↦ ?_⟩
    have hout : (1 : ℤ) ∉ chain.due time := fun h ↦ absurd hearly (not_lt.mpr h.2.2)
    exact ⟨chain.lt_of_due hout hdue (Int.le_trans hdue.1 hdue.2.1), hout, hdue⟩
  · rename_i hcandidate
    refine (chain.read_returns (by omega) (by omega)).bind ?_
    rintro _ rfl
    split
    · rename_i hearly
      have hout : top - s.step ∉ chain.due time := fun h ↦ absurd hearly (not_lt.mpr h.2.2)
      refine .pure ⟨by omega, hdue, .inr ⟨?_, hout, hdue⟩⟩
      exact chain.lt_of_due hout hdue (by omega)
    · rename_i hlate
      have hstep' : 0 < s.step * 2 := Int.mul_pos hstep (by decide)
      have hlow : 1 ≤ top - s.step := by omega
      have hhigh : top - s.step ≤ top := by omega
      refine .pure ⟨⟨⟨hlow, hhigh, not_lt.mp hlate⟩, hstep'⟩, ?_⟩
      change (top - s.step * 2).toNat < _
      omega

omit hstart

/-- Each pass of the bisection keeps the boundary between its ends and moves one of them. -/
theorem bisect_returns {ends : ℤ × ℤ} (h : chain.Bracketed time ends) :
    Returns (WithinChain top) (bisect source time ends) (Pass.Meets
      (fun ends' ↦ chain.Bracketed time ends' ∧
        (ends'.2 - ends'.1).toNat < (ends.2 - ends.1).toNat) (IsLeast (chain.due time))) := by
  obtain ⟨hpos, hdue, hbrackets⟩ := h
  rw [bisect]
  split
  · rename_i hadjacent
    refine .pure ?_
    rcases hbrackets with hone | hbrackets
    · -- a chain of one block
      refine ⟨hdue, fun m hm ↦ ?_⟩
      exact Int.le_trans (hone ▸ hdue.2.1) hm.1
    · exact hbrackets.isLeast hadjacent fun m hm n hmn hn ↦
        chain.due_up hm hmn (Int.le_trans hn hdue.2.1)
  · rename_i hapart
    obtain ⟨hlow, hhigh⟩ := Brackets.middle_mem (not_not.mp hapart)
    have htop := hdue.2.1
    have hwide : top ≠ 1 := by omega
    have hbrackets := hbrackets.resolve_left hwide
    refine (chain.read_returns (by omega) (by omega)).bind ?_
    rintro _ rfl
    split
    · rename_i hearly
      have hout : (ends.1 + ends.2) / 2 ∉ chain.due time :=
        fun h ↦ absurd hearly (not_lt.mpr h.2.2)
      refine .pure ⟨⟨?_, hdue, .inr (hbrackets.raise hhigh hout)⟩, ?_⟩
      · change 1 ≤ (ends.1 + ends.2) / 2
        omega
      · change (ends.2 - (ends.1 + ends.2) / 2).toNat < _
        omega
    · rename_i hlate
      have hin : (ends.1 + ends.2) / 2 ∈ chain.due time := ⟨by omega, by omega, not_lt.mp hlate⟩
      refine .pure ⟨⟨hpos, hin, .inr (hbrackets.lower hlow hin)⟩, ?_⟩
      change ((ends.1 + ends.2) / 2 - ends.1).toNat < _
      omega

end Chronicle

/-! ## The search -/

/-- **The search finds the least block.** On every chain whose block times never decrease, with a
head of at least one, it returns the least block at or after every instant after the first
block's and not after the tip's; both loops end, and no height outside the chain is read. -/
theorem firstBlockAtOrAfter_isLeast {source : TransferSource} {head : Option ℤ} {top : ℤ}
    (chain : Chronicle source top) {time : Instant} {fuel : ℕ} (hhead : source.top head = .ok top)
    (htop : 1 ≤ top) (htip : time ≤ (chain.blocks top).timestamp)
    (hstart : (chain.blocks 1).timestamp < time ∨ top = 1) (hfuel : top.toNat ≤ fuel) :
    ∃ n reads, firstBlockAtOrAfter source fuel (.aware time) head [] = .ok (chain.blocks n, reads) ∧
      IsLeast {n | 1 ≤ n ∧ n ≤ top ∧ time ≤ (chain.blocks n).timestamp} n ∧
      ∀ m ∈ reads, 1 ≤ m ∧ m ≤ top := by
  have hsearch : Returns (WithinChain top) (firstBlockAtOrAfter source fuel (.aware time) head)
      fun found ↦ ∃ n, found = chain.blocks n ∧ IsLeast (chain.due time) n := by
    rw [firstBlockAtOrAfter]
    refine (Returns.lift hhead).bind fun found hfound ↦ ?_
    obtain rfl := hfound.symm
    refine (chain.read_returns htop (Int.le_refl _)).bind ?_
    rintro _ rfl
    rw [if_neg (not_lt.mpr htip)]
    have hgallop : Returns (WithinChain top)
        (loop .outOfFuel (gallop source time top) fuel ⟨top, blocksPerDay⟩)
        (chain.Bracketed time) :=
      .loop (fun s ↦ s.high ∈ chain.due time ∧ 0 < s.step) (fun s ↦ (top - s.step).toNat)
        (fun s hs ↦ chain.gallop_returns hstart hs.1 hs.2)
        ⟨⟨htop, Int.le_refl _, htip⟩, blocksPerDay_pos⟩ (by change (top - 7200).toNat < fuel; omega)
    refine hgallop.bind fun ends hends ↦ ?_
    have hwidth : (ends.2 - ends.1).toNat < fuel := by
      have hlow := hends.pos
      have hhigh := hends.due.2.1
      omega
    have hbisect : Returns (WithinChain top) (loop .outOfFuel (bisect source time) fuel ends)
        (IsLeast (chain.due time)) :=
      .loop (chain.Bracketed time) (fun ends ↦ (ends.2 - ends.1).toNat)
        (fun s hs ↦ chain.bisect_returns hs) hends hwidth
    refine hbisect.bind fun high hhigh ↦ ?_
    refine (chain.read_returns hhigh.1.1 hhigh.1.2.1).mono ?_
    rintro _ rfl
    exact ⟨high, rfl, hhigh⟩
  obtain ⟨_, reads, hrun, hreads, n, rfl, hleast⟩ := hsearch [] (by intro n hn; cases hn)
  exact ⟨n, reads, hrun, hleast, hreads⟩

/-- A chain whose blocks come in pairs that share one time. -/
def pairedBlock (n : ℤ) : ObservedBlock := ⟨n, "0x00", n / 2⟩

/-- A node that holds the first twenty thousand of them and no others. -/
def pairedSource : TransferSource where
  finalizedHead := .ok 20000
  block n := if 1 ≤ n ∧ n ≤ 20000 then .ok (pairedBlock n)
    else .error (.chainUnavailable "chain returned no usable block")

/-- Of the two blocks at one instant the search returns the first. -/
theorem firstBlockAtOrAfter_paired : ∃ reads,
    firstBlockAtOrAfter pairedSource 20000 (.aware 9001) none [] =
      .ok (pairedBlock 18002, reads) := by
  let chain : Chronicle pairedSource 20000 :=
    { blocks := pairedBlock
      shows := fun n hn htop ↦ if_pos ⟨hn, htop⟩
      ordered := fun m n _ hmn _ ↦ Int.ediv_le_ediv (by decide) hmn }
  obtain ⟨n, reads, hrun, ⟨hmem, hleast⟩, -⟩ :=
    firstBlockAtOrAfter_isLeast chain (show pairedSource.top none = .ok 20000 from rfl) (by decide)
      (show (9001 : ℤ) ≤ 20000 / 2 by decide) (.inl (show (1 : ℤ) / 2 < 9001 by decide)) le_rfl
  have hle : n ≤ 18002 := hleast ⟨by decide, by decide, show (9001 : ℤ) ≤ 18002 / 2 by decide⟩
  have hge : (9001 : ℤ) ≤ n / 2 := hmem.2.2
  obtain rfl : n = 18002 := by omega
  exact ⟨reads, hrun⟩

end Conjectures.Chain

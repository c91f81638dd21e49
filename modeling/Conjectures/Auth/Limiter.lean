import Conjectures.Db.Models
import Mathlib.Data.List.Sort

/-!
# The sliding window limiter

`submission_api/ratelimit.py`.  A window is the times of the requests a key was admitted for,
oldest first; the table of windows is ordered by the last request, and a key whose window has
passed may be dropped from it.

What the limiter says of a key depends on that key's requests alone (`window_check_of_ne`,
`window_peek`): an eviction never forgets a request that still counts.
-/

namespace Conjectures.Auth

open Db

/-- Whole seconds, rounded up. -/
def ceilSeconds (t : ℤ) : ℤ := (t + 999999) / 1000000

/-- `_ceil_positive`: at least one second. -/
def ceilPositive (t : ℤ) : ℤ := max 1 (ceilSeconds t)

structure Decision where
  allowed : Bool
  limit : ℕ
  remaining : ℕ
  /-- seconds until the budget next increases -/
  resetSeconds : ℤ
  deriving DecidableEq

structure SlidingWindowLimiter where
  limit : ℕ
  windowSeconds : ℕ
  maxClients : ℕ
  hits : List (String × List Instant)

namespace SlidingWindowLimiter

/-- The length of the window. -/
def width (l : SlidingWindowLimiter) : ℤ := l.windowSeconds * 1000000

/-- `_prune`. -/
def prune (horizon : Instant) (window : List Instant) : List Instant :=
  window.dropWhile (· ≤ horizon)

/-- The requests on record for a key. -/
def recorded (l : SlidingWindowLimiter) (key : String) : Option (List Instant) :=
  (l.hits.find? fun p ↦ p.1 = key).map Prod.snd

/-- The requests of a key that count at a time. -/
def window (l : SlidingWindowLimiter) (key : String) (t : Instant) : List Instant :=
  prune (t - l.width) ((l.recorded key).getD [])

/-- The window of a key is replaced where it is. -/
def put (l : SlidingWindowLimiter) (key : String) (window : List Instant) :
    SlidingWindowLimiter :=
  { l with hits := l.hits.map fun p ↦ if p.1 = key then (key, window) else p }

/-- The window of a key is replaced and moved to the end. -/
def moveToEnd (l : SlidingWindowLimiter) (key : String) (window : List Instant) :
    SlidingWindowLimiter :=
  { l with hits := (l.hits.filter fun p ↦ p.1 ≠ key) ++ [(key, window)] }

/-- `_evict`: the coldest keys go until the table is within its cap, but none that is inside
its window. -/
def evicted (maxClients : ℕ) (horizon : Instant) :
    List (String × List Instant) → List (String × List Instant)
  | [] => []
  | (key, window) :: rest =>
    if rest.length + 1 ≤ maxClients ∨ ∃ last ∈ window.getLast?, horizon < last then
      (key, window) :: rest
    else evicted maxClients horizon rest

def evict (l : SlidingWindowLimiter) (now : Instant) : SlidingWindowLimiter :=
  { l with hits := evicted l.maxClients (now - l.width) l.hits }

/-- What is said of a window that holds these requests. -/
def judge (l : SlidingWindowLimiter) (window : List Instant) (now : Instant) : Decision :=
  match window with
  | [] => ⟨true, l.limit, l.limit, 1⟩
  | first :: _ =>
    ⟨window.length < l.limit, l.limit, l.limit - window.length,
      ceilPositive (first + l.width - now)⟩

/-- `peek`: would the key be admitted?  Nothing is spent. -/
def peek (l : SlidingWindowLimiter) (key : String) (now : Instant) :
    Decision × SlidingWindowLimiter :=
  match l.recorded key with
  | none => (⟨true, l.limit, l.limit, 1⟩, l)
  | some window =>
    let window := prune (now - l.width) window
    (l.judge window now, l.put key window)

/-- `check`, as far as what it records: a refused request is not recorded. -/
def check (l : SlidingWindowLimiter) (key : String) (now : Instant) : SlidingWindowLimiter :=
  let window := l.window key now
  if l.limit ≤ window.length then l.moveToEnd key window
  else (l.moveToEnd key (window ++ [now])).evict now

/-- `check`, as far as what it answers. -/
def verdict (l : SlidingWindowLimiter) (key : String) (now : Instant) : Decision :=
  let window := l.window key now
  if l.limit ≤ window.length then
    ⟨false, l.limit, 0, ceilPositive (window.headD now + l.width - now)⟩
  else
    let window := window ++ [now]
    ⟨true, l.limit, l.limit - window.length, ceilPositive (window.headD now + l.width - now)⟩

/-- `tracked_clients`. -/
def trackedClients (l : SlidingWindowLimiter) : ℕ := l.hits.length

/-! ## Windows -/

section Prune

variable {horizon horizon' x : Instant} {w : List Instant}

@[simp] theorem prune_nil : prune horizon [] = [] := rfl

theorem prune_prune (h : horizon ≤ horizon') :
    prune horizon' (prune horizon w) = prune horizon' w := by
  induction w with
  | nil => rfl
  | cons y w ih =>
    by_cases hy : y ≤ horizon
    · have hy' : y ≤ horizon' := hy.trans h
      simpa [prune, hy, hy'] using ih
    · simp [prune, hy]

theorem prune_eq_nil (h : ∀ y ∈ w, y ≤ horizon) : prune horizon w = [] := by
  induction w with
  | nil => rfl
  | cons y w ih =>
    have hy : y ≤ horizon := h y List.mem_cons_self
    simpa [prune, hy] using ih fun z hz ↦ h z (List.mem_cons_of_mem y hz)

/-- A request inside the window stays behind those that do. -/
theorem prune_append (h : horizon < x) : prune horizon (w ++ [x]) = prune horizon w ++ [x] := by
  induction w with
  | nil => simp [prune, not_le.mpr h]
  | cons y w ih =>
    by_cases hy : y ≤ horizon
    · simpa [prune, hy] using ih
    · simp [prune, hy]

theorem prune_sublist : (prune horizon w).Sublist w := List.dropWhile_sublist _

theorem prune_eq_self (h : ∀ y ∈ w.head?, horizon < y) : prune horizon w = w := by
  cases w with
  | nil => rfl
  | cons y w => simp [prune, not_le.mpr (h y rfl)]

end Prune

/-- Every key has one window, in order and of the past. -/
structure Sound (l : SlidingWindowLimiter) (now : Instant) : Prop where
  keys : (l.hits.map Prod.fst).Nodup
  sorted : ∀ p ∈ l.hits, p.2.Pairwise (· ≤ ·)
  past : ∀ p ∈ l.hits, ∀ x ∈ p.2, x ≤ now

section Recorded

variable {l : SlidingWindowLimiter} {key other : String} {w : List Instant} {now t : Instant}

@[simp] theorem width_put : (l.put key w).width = l.width := rfl

@[simp] theorem width_moveToEnd : (l.moveToEnd key w).width = l.width := rfl

@[simp] theorem width_evict : (l.evict now).width = l.width := rfl

theorem recorded_put_of_ne (h : other ≠ key) : (l.put key w).recorded other = l.recorded other := by
  unfold recorded put
  induction l.hits with
  | nil => rfl
  | cons p hits ih =>
    by_cases hp : p.1 = key
    · have hne : ¬ p.1 = other := fun ho ↦ h (ho.symm.trans hp)
      simpa [hp, hne, h.symm] using ih
    · by_cases ho : p.1 = other
      · simp [ho, h]
      · simpa [hp, ho] using ih

theorem recorded_put {w' : List Instant} (h : l.recorded key = some w') :
    (l.put key w).recorded key = some w := by
  unfold recorded put at *
  induction hl : l.hits generalizing l with
  | nil => rw [hl] at h; cases h
  | cons p hits ih =>
    by_cases hp : p.1 = key
    · simp [hp]
    · rw [hl] at h
      simp only [List.find?_cons, hp, decide_false] at h
      simpa [hp] using @ih ⟨l.limit, l.windowSeconds, l.maxClients, hits⟩ h rfl

theorem recorded_moveToEnd_of_ne (h : other ≠ key) :
    (l.moveToEnd key w).recorded other = l.recorded other := by
  have hlast : ([(key, w)].find? fun p ↦ p.1 = other) = none := by simp [h.symm]
  unfold recorded moveToEnd
  rw [List.find?_append, hlast, Option.or_none, List.find?_filter]
  congr 2
  funext p
  by_cases hp : p.1 = other
  · simp [hp, h]
  · simp [hp]

theorem recorded_moveToEnd : (l.moveToEnd key w).recorded key = some w := by
  have hfirst : ((l.hits.filter fun p ↦ p.1 ≠ key).find? fun p ↦ p.1 = key) = none := by
    simp [List.find?_eq_none]
  unfold recorded moveToEnd
  rw [List.find?_append, hfirst]
  simp

/-- Looking a key up in what is left of a table after an eviction. -/
theorem prune_evicted {horizon : Instant} {hits : List (String × List Instant)} (maxClients : ℕ)
    (hkeys : (hits.map Prod.fst).Nodup) (hsorted : ∀ p ∈ hits, p.2.Pairwise (· ≤ ·))
    (key : String) {horizon' : Instant} (h : horizon ≤ horizon') :
    prune horizon'
        ((((evicted maxClients horizon hits).find? fun p ↦ p.1 = key).map Prod.snd).getD []) =
      prune horizon' (((hits.find? fun p ↦ p.1 = key).map Prod.snd).getD []) := by
  induction hits with
  | nil => rfl
  | cons p hits ih =>
    obtain ⟨k, w⟩ := p
    unfold evicted
    split
    · rfl
    · rename_i hgoes
      rw [ih (List.nodup_cons.mp hkeys).2 fun p hp ↦ hsorted p (List.mem_cons_of_mem _ hp)]
      by_cases hk : k = key
      · subst hk
        have hnone : (hits.find? fun p ↦ p.1 = k) = none := by
          rw [List.find?_eq_none]
          intro p hp hpk
          exact (List.nodup_cons.mp hkeys).1 (List.mem_map.mpr ⟨p, hp, by simpa using hpk⟩)
        have hold : ∀ x ∈ w, x ≤ horizon' := by
          intro x hx
          obtain ⟨last, hlast⟩ : ∃ last, w.getLast? = some last :=
            ⟨_, List.getLast?_eq_some_getLast (List.ne_nil_of_mem hx)⟩
          have hle : last ≤ horizon := by
            by_contra hlt
            exact hgoes (Or.inr ⟨last, hlast, not_le.mp hlt⟩)
          have hxlast : x ≤ last := by
            obtain ⟨init, rfl⟩ := List.getLast?_eq_some_iff.mp hlast
            rcases List.mem_append.mp hx with hx | hx
            · exact (List.pairwise_append.mp (hsorted _ List.mem_cons_self)).2.2 x hx last
                (List.mem_singleton.mpr rfl)
            · rw [List.mem_singleton.mp hx]
          exact (hxlast.trans hle).trans h
        simp [hnone, prune_eq_nil hold]
      · simp [hk]

end Recorded

/-! ## One key at a time -/

section Keys

variable {l : SlidingWindowLimiter} {key other : String} {now t : Instant}

theorem Sound.mono (h : l.Sound now) (hle : now ≤ t) : l.Sound t where
  keys := h.keys
  sorted := h.sorted
  past := fun p hp x hx ↦ (h.past p hp x hx).trans hle

/-- What is recorded for a key is in order and of the past. -/
theorem Sound.recorded (h : l.Sound now) {w : List Instant} (hw : l.recorded key = some w) :
    w.Pairwise (· ≤ ·) ∧ ∀ x ∈ w, x ≤ now := by
  obtain ⟨p, hp, rfl⟩ := Option.map_eq_some_iff.mp hw
  have hmem := List.mem_of_find?_eq_some hp
  exact ⟨h.sorted p hmem, h.past p hmem⟩

theorem Sound.getD (h : l.Sound now) :
    ((l.recorded key).getD []).Pairwise (· ≤ ·) ∧ ∀ x ∈ (l.recorded key).getD [], x ≤ now := by
  cases hw : l.recorded key with
  | none => exact ⟨List.Pairwise.nil, fun x hx ↦ nomatch hx⟩
  | some w => exact h.recorded hw

theorem Sound.put (h : l.Sound now) {w : List Instant} (hsorted : w.Pairwise (· ≤ ·))
    (hpast : ∀ x ∈ w, x ≤ now) : (l.put key w).Sound now := by
  have hkeys : (l.put key w).hits.map Prod.fst = l.hits.map Prod.fst := by
    unfold SlidingWindowLimiter.put
    rw [List.map_map]
    refine List.map_congr_left fun p _ ↦ ?_
    by_cases hp : p.1 = key <;> simp [hp]
  refine ⟨by rw [hkeys]; exact h.keys, fun p hp ↦ ?_, fun p hp ↦ ?_⟩ <;>
    obtain ⟨q, hq, rfl⟩ := List.mem_map.mp hp <;> split
  · exact hsorted
  · exact h.sorted q hq
  · exact hpast
  · exact h.past q hq

theorem Sound.moveToEnd (h : l.Sound now) {w : List Instant} (hsorted : w.Pairwise (· ≤ ·))
    (hpast : ∀ x ∈ w, x ≤ now) : (l.moveToEnd key w).Sound now := by
  have hkeys : ((l.hits.filter fun p ↦ p.1 ≠ key).map Prod.fst).Nodup :=
    h.keys.sublist (List.filter_sublist.map _)
  refine ⟨?_, fun p hp ↦ ?_, fun p hp ↦ ?_⟩
  · unfold SlidingWindowLimiter.moveToEnd
    rw [List.map_append, List.nodup_append]
    refine ⟨hkeys, List.nodup_singleton _, fun k hk k' hk' hkk' ↦ ?_⟩
    obtain ⟨p, hp, rfl⟩ := List.mem_map.mp hk
    rw [List.map_singleton, List.mem_singleton] at hk'
    exact (by simpa using (List.mem_filter.mp hp).2 : p.1 ≠ key) (hkk'.trans hk')
  · rcases List.mem_append.mp hp with hp | hp
    · exact h.sorted p (List.mem_filter.mp hp).1
    · rw [List.mem_singleton.mp hp]
      exact hsorted
  · rcases List.mem_append.mp hp with hp | hp
    · exact h.past p (List.mem_filter.mp hp).1
    · rw [List.mem_singleton.mp hp]
      exact hpast

theorem evicted_sublist (maxClients : ℕ) (horizon : Instant)
    (hits : List (String × List Instant)) :
    (evicted maxClients horizon hits).Sublist hits := by
  induction hits with
  | nil => exact List.Sublist.refl _
  | cons p hits ih =>
    unfold evicted
    split
    · exact List.Sublist.refl _
    · exact ih.trans (List.sublist_cons_self p hits)

theorem Sound.evict (h : l.Sound now) : (l.evict t).Sound now where
  keys := h.keys.sublist ((evicted_sublist _ _ _).map _)
  sorted := fun p hp ↦ h.sorted p ((evicted_sublist _ _ _).subset hp)
  past := fun p hp ↦ h.past p ((evicted_sublist _ _ _).subset hp)

theorem sound_peek (h : l.Sound now) : (l.peek key now).2.Sound now := by
  unfold peek
  split
  · exact h
  · rename_i w hw
    obtain ⟨hsorted, hpast⟩ := h.recorded hw
    exact h.put (hsorted.sublist prune_sublist) fun x hx ↦ hpast x (prune_sublist.subset hx)

/-- So is what a request leaves. -/
theorem Sound.counted (h : l.Sound now) :
    (l.window key now ++ [now]).Pairwise (· ≤ ·) ∧ ∀ x ∈ l.window key now ++ [now], x ≤ now := by
  obtain ⟨hsorted, hpast⟩ := @Sound.getD l key now h
  have hpast' : ∀ x ∈ l.window key now, x ≤ now := fun x hx ↦ hpast x (prune_sublist.subset hx)
  refine ⟨?_, fun x hx ↦ ?_⟩
  · rw [List.pairwise_append]
    refine ⟨hsorted.sublist prune_sublist, List.pairwise_singleton _ _, fun x hx y hy ↦ ?_⟩
    rw [List.mem_singleton.mp hy]
    exact hpast' x hx
  · rcases List.mem_append.mp hx with hx | hx
    · exact hpast' x hx
    · rw [List.mem_singleton.mp hx]

theorem sound_check (h : l.Sound now) : (l.check key now).Sound now := by
  obtain ⟨hsorted, hpast⟩ := @Sound.counted l key now h
  unfold check
  dsimp only
  split
  · exact h.moveToEnd (hsorted.sublist (List.sublist_append_left _ _))
      fun x hx ↦ hpast x (List.mem_append_left _ hx)
  · exact (h.moveToEnd hsorted hpast).evict

/-- A peek shows no key anything else. -/
theorem window_peek (hle : now ≤ t) : (l.peek key now).2.window other t = l.window other t := by
  unfold peek
  split
  · rfl
  · rename_i w hw
    by_cases hk : other = key
    · subst hk
      unfold window
      rw [recorded_put hw, hw, width_put, Option.getD_some, Option.getD_some,
        prune_prune (Int.sub_le_sub_right hle _)]
    · unfold window
      rw [recorded_put_of_ne hk, width_put]

/-- An eviction shows no key anything else. -/
theorem window_evict (h : l.Sound now) (hle : now ≤ t) :
    (l.evict now).window other t = l.window other t :=
  prune_evicted l.maxClients h.keys h.sorted other (Int.sub_le_sub_right hle _)

/-- A request of one key shows another nothing. -/
theorem window_check_of_ne (h : l.Sound now) (hle : now ≤ t) (hk : other ≠ key) :
    (l.check key now).window other t = l.window other t := by
  obtain ⟨hsorted, hpast⟩ := @Sound.counted l key now h
  have hmove : ∀ w, (l.moveToEnd key w).window other t = l.window other t := fun w ↦ by
    unfold window
    rw [recorded_moveToEnd_of_ne hk, width_moveToEnd]
  unfold check
  dsimp only
  split
  · exact hmove _
  · exact (window_evict (h.moveToEnd hsorted hpast) hle).trans (hmove _)

/-- What a request leaves for its own key: itself, if the window was not full. -/
theorem window_check (h : l.Sound now) (hle : now ≤ t) :
    (l.check key now).window key t =
      if l.limit ≤ (l.window key now).length then l.window key t
      else prune (t - l.width) (l.window key now ++ [now]) := by
  obtain ⟨hsorted, hpast⟩ := @Sound.counted l key now h
  have hmove : ∀ w, (l.moveToEnd key w).window key t = prune (t - l.width) w := fun w ↦ by
    unfold window
    rw [recorded_moveToEnd, width_moveToEnd, Option.getD_some]
  unfold check
  dsimp only
  split
  · rw [hmove]
    exact prune_prune (Int.sub_le_sub_right hle _)
  · exact (window_evict (h.moveToEnd hsorted hpast) hle).trans (hmove _)

@[simp] theorem limit_peek : (l.peek key now).2.limit = l.limit := by
  unfold peek; split <;> rfl

@[simp] theorem width_peek : (l.peek key now).2.width = l.width := by
  unfold peek; split <;> rfl

@[simp] theorem limit_check : (l.check key now).limit = l.limit := by
  unfold check; dsimp only; split <;> rfl

@[simp] theorem width_check : (l.check key now).width = l.width := by
  unfold check; dsimp only; split <;> rfl

/-- Whether a key would be admitted is said of its window. -/
theorem peek_decision (l : SlidingWindowLimiter) (key : String) (now : Instant) :
    (l.peek key now).1 = l.judge (l.window key now) now := by
  unfold peek window
  split
  · rename_i hnone
    rw [hnone]
    rfl
  · rename_i w hw
    rw [hw]
    rfl

theorem judge_allowed (hpos : 0 < l.limit) (w : List Instant) :
    (l.judge w now).allowed = decide (w.length < l.limit) := by
  cases w with
  | nil => simp [judge, hpos]
  | cons x w => rfl

theorem judge_resetSeconds (hpos : 0 < l.limit) {w : List Instant} (hfull : ¬ w.length < l.limit) :
    (l.judge w now).resetSeconds = ceilPositive (w.headD now + l.width - now) := by
  cases w with
  | nil => exact absurd hpos hfull
  | cons x w => rfl

end Keys

end SlidingWindowLimiter

end Conjectures.Auth

import Conjectures.Auth.Limiter
import Conjectures.Lib.Run
import Conjectures.Lib.Windows
import Mathlib.Data.Finset.Card
import Mathlib.Data.Finset.Dedup
import Mathlib.Data.Finset.Order

/-!
# The limiter under traffic

`submission_api/ratelimit.py`, over whole runs: requests of any keys, each checked or only peeked
at, in the order of their times.

The limiter is a table of windows that is pruned, reordered and evicted from; what it answers is
what it would answer if it forgot nothing (`Remembers`): the requests it has admitted, key by key,
are spaced, and the table shows all of them that are still inside the window.
-/

namespace Conjectures.Auth

open Lib Db

/-- What is asked of the limiter. -/
inductive Call where
  | check (key : String)
  | peek (key : String)
  deriving DecidableEq

structure Request where
  now : Instant
  call : Call
  deriving DecidableEq

/-- The requests come in the order of their times. -/
def Chronological (rs : List Request) : Prop := rs.Pairwise fun r r' ↦ r.now ≤ r'.now

instance (rs : List Request) : Decidable (Chronological rs) :=
  inferInstanceAs (Decidable (rs.Pairwise _))

namespace SlidingWindowLimiter

/-- A limiter that nobody has asked anything. -/
def new (limit windowSeconds maxClients : ℕ) : SlidingWindowLimiter :=
  ⟨limit, windowSeconds, maxClients, []⟩

/-- What a request is answered. -/
def answer (l : SlidingWindowLimiter) (r : Request) : Decision :=
  match r.call with
  | .check key => l.verdict key r.now
  | .peek key => (l.peek key r.now).1

/-- What a request leaves. -/
def step (l : SlidingWindowLimiter) (r : Request) : SlidingWindowLimiter :=
  match r.call with
  | .check key => l.check key r.now
  | .peek key => (l.peek key r.now).2

/-- What the requests are answered, one after the other. -/
def answers : SlidingWindowLimiter → List Request → List Decision
  | _, [] => []
  | l, r :: rs => l.answer r :: (l.step r).answers rs

/-- The time of a request, if it is an admitted check of the key. -/
def admits (l : SlidingWindowLimiter) (key : String) (r : Request) : List Instant :=
  if r.call = .check key ∧ (l.answer r).allowed = true then [r.now] else []

/-- The times of the admitted checks of a key. -/
def admitted (key : String) : SlidingWindowLimiter → List Request → List Instant
  | _, [] => []
  | l, r :: rs => l.admits key r ++ admitted key (l.step r) rs

/-- The admitted times that lie in the window that ends at a time. -/
def inWindow (l : SlidingWindowLimiter) (now : Instant) (xs : List Instant) : List Instant :=
  xs.filter fun x ↦ now - l.width < x ∧ x ≤ now

/-! ## What the limiter remembers -/

section Remembers

variable {l : SlidingWindowLimiter} {key : String} {now t : Instant} {w : List Instant}

theorem prune_eq_filter {horizon : Instant} (hw : w.Pairwise (· ≤ ·)) :
    prune horizon w = w.filter (horizon < ·) := by
  induction w with
  | nil => rfl
  | cons x w ih =>
    obtain ⟨hle, hw⟩ := List.pairwise_cons.mp hw
    by_cases hx : x ≤ horizon
    · have hskip : prune horizon (x :: w) = prune horizon w := by simp [prune, hx]
      rw [hskip, ih hw, List.filter_cons_of_neg (by simpa using hx)]
    · have hall : (x :: w).filter (horizon < ·) = x :: w := by
        refine List.filter_eq_self.mpr fun y hy ↦ decide_eq_true ?_
        rcases List.mem_cons.mp hy with rfl | hy
        · exact not_le.mp hx
        · exact (not_le.mp hx).trans_le (hle y hy)
      rw [hall]
      simp [prune, hx]

/-- The table at a time, against the times that each key was admitted at. -/
structure Remembers (l : SlidingWindowLimiter) (now : Instant) (log : String → List Instant) :
    Prop where
  sound : l.Sound now
  /-- what a key has in the window is all it was admitted for in the window -/
  shows : ∀ key t, now ≤ t → l.window key t = prune (t - l.width) (log key)
  sorted : ∀ key, (log key).Pairwise (· ≤ ·)
  past : ∀ key, ∀ x ∈ log key, x ≤ now
  spaced : ∀ key, Spaced l.limit l.width (log key)

variable {log : String → List Instant}

theorem remembers_new (limit windowSeconds maxClients : ℕ) (now : Instant) :
    (new limit windowSeconds maxClients).Remembers now fun _ ↦ [] where
  sound := ⟨List.nodup_nil, fun _ h ↦ (List.not_mem_nil h).elim,
    fun _ h ↦ (List.not_mem_nil h).elim⟩
  shows := fun _ _ _ ↦ rfl
  sorted := fun _ ↦ List.Pairwise.nil
  past := fun _ _ h ↦ (List.not_mem_nil h).elim
  spaced := fun _ ↦ spaced_nil

theorem Remembers.mono (h : l.Remembers now log) (hle : now ≤ t) : l.Remembers t log where
  sound := h.sound.mono hle
  shows := fun key t' ht' ↦ h.shows key t' (hle.trans ht')
  sorted := h.sorted
  past := fun key x hx ↦ (h.past key x hx).trans hle
  spaced := h.spaced

/-- The window of a key holds the admitted times that lie in the window. -/
theorem Remembers.window_eq (h : l.Remembers now log) (key : String) :
    l.window key now = l.inWindow now (log key) := by
  rw [h.shows key now le_rfl, prune_eq_filter (h.sorted key)]
  refine List.filter_congr fun x hx ↦ decide_eq_decide.mpr ?_
  exact ⟨fun hlt ↦ ⟨hlt, h.past key x hx⟩, And.left⟩

theorem verdict_allowed : (l.verdict key now).allowed = decide ((l.window key now).length < l.limit)
    := by
  unfold verdict
  dsimp only
  split
  · rename_i hfull
    exact (decide_eq_false (not_lt.mpr hfull)).symm
  · rename_i hroom
    exact (decide_eq_true (not_le.mp hroom)).symm

theorem mem_admits {r : Request} {x : Instant} :
    x ∈ l.admits key r ↔ r.call = .check key ∧ (l.answer r).allowed = true ∧ x = r.now := by
  unfold admits
  split
  · rename_i h
    simp [h.1, h.2]
  · rename_i h
    simp only [List.not_mem_nil, false_iff]
    exact fun hx ↦ h ⟨hx.1, hx.2.1⟩

theorem prune_prune_append {horizon horizon' x : Instant} (hle : horizon ≤ horizon') :
    prune horizon' (prune horizon w ++ [x]) = prune horizon' (w ++ [x]) := by
  induction w with
  | nil => rfl
  | cons y w ih =>
    by_cases hy : y ≤ horizon
    · have hy' : y ≤ horizon' := hy.trans hle
      simpa [prune, hy, hy'] using ih
    · simp [prune, hy]

theorem Remembers.peek (h : l.Remembers now log) (key : String) :
    (l.peek key now).2.Remembers now log where
  sound := sound_peek h.sound
  shows := fun other t ht ↦ by rw [window_peek ht, width_peek]; exact h.shows other t ht
  sorted := h.sorted
  past := h.past
  spaced := by rw [limit_peek, width_peek]; exact h.spaced

/-- What is admitted is added to what is remembered. -/
theorem Remembers.check (h : l.Remembers now log) (key : String) :
    (l.check key now).Remembers now fun other ↦
      log other ++ l.admits other ⟨now, .check key⟩ := by
  have hsound : (l.check key now).Sound now := sound_check h.sound
  by_cases hfull : l.limit ≤ (l.window key now).length
  · have hnone : ∀ other, l.admits other ⟨now, .check key⟩ = [] := fun other ↦ by
      refine if_neg fun hadm ↦ ?_
      have hroom : (l.verdict key now).allowed = true := hadm.2
      rw [verdict_allowed, decide_eq_true_eq] at hroom
      omega
    simp only [hnone, List.append_nil]
    refine ⟨hsound, fun other t ht ↦ ?_, h.sorted, h.past, ?_⟩
    · rw [width_check]
      by_cases hk : other = key
      · rw [hk, window_check h.sound ht, if_pos hfull]
        exact h.shows key t ht
      · rw [window_check_of_ne h.sound ht hk]
        exact h.shows other t ht
    · rw [limit_check, width_check]
      exact h.spaced
  · have hother : ∀ other, other ≠ key → l.admits other ⟨now, .check key⟩ = [] :=
      fun other hne ↦ if_neg fun hadm ↦ hne (Call.check.inj hadm.1).symm
    have hkey : l.admits key ⟨now, .check key⟩ = [now] := by
      refine if_pos ⟨rfl, ?_⟩
      change (l.verdict key now).allowed = true
      rw [verdict_allowed]
      exact decide_eq_true (not_le.mp hfull)
    have hroom : (log key).countP (fun x ↦ now - l.width < x) < l.limit := by
      rw [h.shows key now le_rfl, prune_eq_filter (h.sorted key)] at hfull
      rw [List.countP_eq_length_filter]
      exact not_le.mp hfull
    refine ⟨hsound, fun other t ht ↦ ?_, fun other ↦ ?_, fun other x hx ↦ ?_, fun other ↦ ?_⟩
    · rw [width_check]
      by_cases hk : other = key
      · -- the window of the key was cut at `now`, and the new time is behind what was left
        subst hk
        rw [hkey, window_check h.sound ht, if_neg hfull, h.shows other now le_rfl]
        exact prune_prune_append (Int.sub_le_sub_right ht _)
      · rw [hother other hk, List.append_nil, window_check_of_ne h.sound ht hk]
        exact h.shows other t ht
    · by_cases hk : other = key
      · subst hk
        rw [hkey, List.pairwise_append]
        refine ⟨h.sorted other, List.pairwise_singleton _ _, fun x hx y hy ↦ ?_⟩
        rw [List.mem_singleton.mp hy]
        exact h.past other x hx
      · rw [hother other hk, List.append_nil]
        exact h.sorted other
    · rcases List.mem_append.mp hx with hx | hx
      · exact h.past other x hx
      · exact (mem_admits.mp hx).2.2.le
    · rw [limit_check, width_check]
      by_cases hk : other = key
      · subst hk
        rw [hkey]
        exact (h.spaced other).append hroom
      · rw [hother other hk, List.append_nil]
        exact h.spaced other

/-- What one request adds to what is remembered. -/
theorem Remembers.step (h : l.Remembers now log) {r : Request} (hle : now ≤ r.now) :
    (l.step r).Remembers r.now fun key ↦ log key ++ l.admits key r := by
  obtain ⟨t, call⟩ := r
  cases call with
  | check key => exact (h.mono hle).check key
  | peek key =>
    have hnone : ∀ other, l.admits other ⟨t, .peek key⟩ = [] := fun other ↦
      if_neg fun hadm ↦ nomatch hadm.1
    simp only [hnone, List.append_nil]
    exact (h.mono hle).peek key

/-- What a run adds to what is remembered. -/
theorem Remembers.along (h : l.Remembers now log) {rs : List Request} (hrs : Chronological rs)
    (hnow : ∀ r ∈ rs, now ≤ r.now) (hle : now ≤ t) (ht : ∀ r ∈ rs, r.now ≤ t) :
    (run SlidingWindowLimiter.step l rs).Remembers t fun key ↦ log key ++ admitted key l rs := by
  induction rs generalizing l now log with
  | nil => simpa [admitted] using h.mono hle
  | cons r rs ih =>
    obtain ⟨hfirst, hrs⟩ := List.pairwise_cons.mp hrs
    have hr : r ∈ r :: rs := List.mem_cons_self
    have hrun := ih (h.step (hnow r hr)) hrs hfirst (ht r hr)
      fun r' hr' ↦ ht r' (List.mem_cons_of_mem r hr')
    simpa only [run_cons, admitted, List.append_assoc] using hrun

/-- After any requests, the limiter remembers what it admitted. -/
theorem remembers_run (limit windowSeconds maxClients : ℕ) {rs : List Request}
    (hrs : Chronological rs) (ht : ∀ r ∈ rs, r.now ≤ t) :
    (run step (new limit windowSeconds maxClients) rs).Remembers t
      fun key ↦ admitted key (new limit windowSeconds maxClients) rs := by
  cases rs with
  | nil => exact remembers_new limit windowSeconds maxClients t
  | cons r rs =>
    have hfirst : ∀ r' ∈ r :: rs, r.now ≤ r'.now := fun r' hr' ↦ by
      rcases List.mem_cons.mp hr' with rfl | hr'
      · exact le_rfl
      · exact (List.pairwise_cons.mp hrs).1 r' hr'
    exact (remembers_new limit windowSeconds maxClients r.now).along hrs hfirst
      (ht r List.mem_cons_self) ht

end Remembers

/-! ## A peek changes nothing -/

section Alike

variable {l l' : SlidingWindowLimiter} {key : String} {now t : Instant}

/-- Two limiters that show the same of every key from a time on. -/
structure Alike (now : Instant) (l l' : SlidingWindowLimiter) : Prop where
  sound : l.Sound now
  sound' : l'.Sound now
  limit : l.limit = l'.limit
  width : l.width = l'.width
  shows : ∀ key t, now ≤ t → l.window key t = l'.window key t

theorem alike_peek (h : l.Sound now) (key : String) : Alike now (l.peek key now).2 l where
  sound := sound_peek h
  sound' := h
  limit := limit_peek
  width := width_peek
  shows := fun _ _ ht ↦ window_peek ht

theorem Alike.mono (h : Alike now l l') (hle : now ≤ t) : Alike t l l' where
  sound := h.sound.mono hle
  sound' := h.sound'.mono hle
  limit := h.limit
  width := h.width
  shows := fun key t' ht' ↦ h.shows key t' (hle.trans ht')

/-- They answer alike: an answer is read off the window of the key. -/
theorem Alike.answer (h : Alike now l l') {r : Request} (hle : now ≤ r.now) :
    l.answer r = l'.answer r := by
  obtain ⟨t, call⟩ := r
  cases call with
  | check key => simp only [SlidingWindowLimiter.answer, verdict, h.shows key t hle, h.limit, h.width]
  | peek key =>
    simp only [SlidingWindowLimiter.answer, peek_decision, judge, h.shows key t hle, h.limit, h.width]

theorem Alike.step (h : Alike now l l') {r : Request} (hle : now ≤ r.now) :
    Alike r.now (l.step r) (l'.step r) := by
  obtain ⟨now', call⟩ := r
  replace h := h.mono hle
  cases call with
  | check key =>
    refine ⟨sound_check h.sound, sound_check h.sound', ?_, ?_, fun other t ht ↦ ?_⟩
    · exact limit_check.trans (h.limit.trans limit_check.symm)
    · exact width_check.trans (h.width.trans width_check.symm)
    · change (l.check key now').window other t = (l'.check key now').window other t
      by_cases hk : other = key
      · subst hk
        rw [window_check h.sound ht, window_check h.sound' ht, h.shows other t ht,
          h.shows other now' le_rfl, h.limit, h.width]
      · rw [window_check_of_ne h.sound ht hk, window_check_of_ne h.sound' ht hk, h.shows other t ht]
  | peek key =>
    refine ⟨sound_peek h.sound, sound_peek h.sound', ?_, ?_, fun other t ht ↦ ?_⟩
    · exact limit_peek.trans (h.limit.trans limit_peek.symm)
    · exact width_peek.trans (h.width.trans width_peek.symm)
    · change (l.peek key now').2.window other t = (l'.peek key now').2.window other t
      rw [window_peek ht, window_peek ht, h.shows other t ht]

theorem Alike.answers (h : Alike now l l') {rs : List Request} (hrs : Chronological rs)
    (hnow : ∀ r ∈ rs, now ≤ r.now) : l.answers rs = l'.answers rs := by
  induction rs generalizing l l' now with
  | nil => rfl
  | cons r rs ih =>
    obtain ⟨hfirst, hrs⟩ := List.pairwise_cons.mp hrs
    have hle : now ≤ r.now := hnow r List.mem_cons_self
    simp only [SlidingWindowLimiter.answers, h.answer hle, ih (h.step hle) hrs hfirst]

end Alike

/-! ## Exactness -/

section Exact

variable {l : SlidingWindowLimiter} {key : String} {now : Instant}

theorem limit_step (r : Request) : (l.step r).limit = l.limit := by
  obtain ⟨t, call⟩ := r
  cases call with
  | check key => exact limit_check
  | peek key => exact limit_peek

theorem width_step (r : Request) : (l.step r).width = l.width := by
  obtain ⟨t, call⟩ := r
  cases call with
  | check key => exact width_check
  | peek key => exact width_peek

theorem limit_run (l : SlidingWindowLimiter) (rs : List Request) :
    (run step l rs).limit = l.limit :=
  run_invariant
    (fun (l' : SlidingWindowLimiter) r (h : l'.limit = l.limit) ↦ (limit_step r).trans h) rfl rs

theorem width_run (l : SlidingWindowLimiter) (rs : List Request) :
    (run step l rs).width = l.width :=
  run_invariant
    (fun (l' : SlidingWindowLimiter) r (h : l'.width = l.width) ↦ (width_step r).trans h) rfl rs

/-- Of spaced times, no more than the limit lie in the window that ends at a time. -/
theorem length_inWindow_le {n : ℕ} {xs : List Instant} (h : Spaced n l.width xs) :
    (l.inWindow now xs).length ≤ n := by
  have hcount := (h (now - l.width)).1
  rwa [Int.sub_add_cancel, List.countP_eq_length_filter] at hcount

theorem peek_allowed (hlimit : 0 < l.limit) :
    (l.peek key now).1.allowed = (l.verdict key now).allowed := by
  rw [peek_decision, judge_allowed hlimit, verdict_allowed]

theorem recorded_of_mem_window {x : Instant} (hx : x ∈ l.window key now) :
    ∃ w, l.recorded key = some w ∧ x ∈ w := by
  have hmem : x ∈ (l.recorded key).getD [] := prune_sublist.subset hx
  cases hw : l.recorded key with
  | none => rw [hw] at hmem; exact (List.not_mem_nil hmem).elim
  | some w => exact ⟨w, rfl, by simpa [hw] using hmem⟩

end Exact

/-- The limiter is exact.  No window of any run holds more than `limit` admitted checks of a key;
between any two requests, a check would be refused only if the window that ends there holds
`limit` of them, every one of those is on record, and a peek says of a check whether it would be
admitted and changes no answer that follows. -/
theorem limiter_exact (limit windowSeconds maxClients : ℕ) (hlimit : 1 ≤ limit)
    (rs : List Request) (hrs : Chronological rs) :
    let l₀ := new limit windowSeconds maxClients
    (∀ key, Spaced limit l₀.width (admitted key l₀ rs)) ∧
      ∀ before after, rs = before ++ after →
        ∀ now, (∀ r ∈ before, r.now ≤ now) → (∀ r ∈ after, now ≤ r.now) →
          let l := run step l₀ before
          (∀ key, (l.answer ⟨now, .check key⟩).allowed = false →
            (l₀.inWindow now (admitted key l₀ before)).length = limit) ∧
          (∀ key, ∀ x ∈ l₀.inWindow now (admitted key l₀ before),
            ∃ w, l.recorded key = some w ∧ x ∈ w) ∧
          ∀ key, (l.answer ⟨now, .peek key⟩).allowed = (l.answer ⟨now, .check key⟩).allowed ∧
            (l.step ⟨now, .peek key⟩).answers after = l.answers after := by
  intro l₀
  refine ⟨fun key ↦ ?_, fun before after hsplit now hbefore hafter ↦ ?_⟩
  · obtain ⟨t, hle⟩ := (rs.map Request.now).toFinset.exists_le
    have ht : ∀ r ∈ rs, r.now ≤ t := fun r hr ↦
      hle r.now (List.mem_toFinset.mpr (List.mem_map_of_mem hr))
    have h := (remembers_run limit windowSeconds maxClients hrs ht).spaced key
    rwa [limit_run, width_run] at h
  · subst hsplit
    obtain ⟨hfirst, hlast, -⟩ := List.pairwise_append.mp hrs
    have h : (run step l₀ before).Remembers now fun key ↦ admitted key l₀ before :=
      remembers_run limit windowSeconds maxClients hfirst hbefore
    have hwindow : ∀ key, (run step l₀ before).window key now =
        l₀.inWindow now (admitted key l₀ before) := fun key ↦ by
      rw [h.window_eq key]
      unfold inWindow
      rw [width_run]
    have hspaced : ∀ key, Spaced limit l₀.width (admitted key l₀ before) := fun key ↦ by
      have hkey := h.spaced key
      rwa [limit_run, width_run] at hkey
    refine ⟨fun key hrefused ↦ ?_, fun key x hx ↦ ?_, fun key ↦ ⟨?_, ?_⟩⟩
    · have hfull : ((run step l₀ before).verdict key now).allowed = false := hrefused
      rw [verdict_allowed, decide_eq_false_iff_not, limit_run, hwindow, not_lt] at hfull
      exact le_antisymm (length_inWindow_le (hspaced key)) hfull
    · exact recorded_of_mem_window (by rwa [hwindow key])
    · refine peek_allowed ?_
      rw [limit_run]
      exact hlimit
    · exact (alike_peek h.sound key).answers hlast hafter

/-- One request in ten seconds and a table for one key: a key that was put out of the table by
another is admitted when its window is over, and not before. -/
def traffic : List Request :=
  [⟨0, .check "a"⟩, ⟨5000000, .check "b"⟩, ⟨6000000, .check "a"⟩, ⟨11000000, .check "a"⟩]

theorem limiter_exact_traffic :
    Chronological traffic ∧
      (∀ key, Spaced 1 10000000 (admitted key (new 1 10 1) traffic)) ∧
        admitted "a" (new 1 10 1) traffic = [0, 11000000] :=
  ⟨by decide, (limiter_exact 1 10 1 le_rfl traffic (by decide)).1, by decide⟩

end SlidingWindowLimiter

end Conjectures.Auth

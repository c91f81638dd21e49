import Conjectures.Auth.Traffic

/-!
# How many clients the limiter tracks

`submission_api/ratelimit.py`.  The table of windows is cut to `max_clients` at every admitted
check, but no client inside its window is put out of it: while the coldest of them is, the table
stays as large as it is.

The table is in the order of the last checks, so if the coldest client has a request inside the
window then every client was last checked inside the window (`Coldest`).  What is tracked is at most
`max_clients`, or no more than the clients that were checked in some one window.
-/

namespace Conjectures.Auth

open Lib Db

namespace SlidingWindowLimiter

/-- The clients that were checked in the window that ends at a time. -/
def checkedIn (l : SlidingWindowLimiter) (rs : List Request) (now : Instant) : Finset String :=
  (rs.filterMap fun r ↦
    match r.call with
    | .check key => if now - l.width < r.now ∧ r.now ≤ now then some key else none
    | .peek _ => none).toFinset

variable {l : SlidingWindowLimiter} {rs : List Request} {key : String} {now t : Instant}

theorem mem_checkedIn :
    key ∈ l.checkedIn rs now ↔
      ∃ r ∈ rs, r.call = .check key ∧ now - l.width < r.now ∧ r.now ≤ now := by
  unfold checkedIn
  rw [List.mem_toFinset, List.mem_filterMap]
  refine exists_congr fun r ↦ and_congr_right fun _ ↦ ?_
  obtain ⟨t, call⟩ := r
  cases call with
  | check other =>
    simp only [Option.ite_none_right_eq_some, Option.some.injEq, Call.check.injEq]
    exact and_comm
  | peek other => simp

/-- The clients are in the order of their last checks, and no request on record is later than the
last check of its client. -/
structure Coldest (hits : List (String × List Instant)) (rs : List Request)
    (seen : String → Instant) : Prop where
  keys : (hits.map Prod.fst).Nodup
  order : hits.Pairwise fun p q ↦ seen p.1 ≤ seen q.1
  checked : ∀ p ∈ hits, ⟨seen p.1, .check p.1⟩ ∈ rs
  past : ∀ p ∈ hits, ∀ x ∈ p.2, x ≤ seen p.1

/-- The table is within its cap, or all its clients were checked in one window. -/
def Capped (l : SlidingWindowLimiter) (rs : List Request) : Prop :=
  l.trackedClients ≤ l.maxClients ∨
    ∃ t, ∀ p ∈ l.hits, p.1 ∈ l.checkedIn rs t

theorem Capped.le (h : l.Capped rs) (hkeys : (l.hits.map Prod.fst).Nodup) {n : ℕ}
    (hn : ∀ t, (l.checkedIn rs t).card ≤ n) : l.trackedClients ≤ max l.maxClients n := by
  rcases h with h | ⟨t, h⟩
  · exact h.trans (le_max_left _ _)
  · have hsub : (l.hits.map Prod.fst).toFinset ⊆ l.checkedIn rs t := fun key hkey ↦ by
      obtain ⟨p, hp, rfl⟩ := List.mem_map.mp (List.mem_toFinset.mp hkey)
      exact h p hp
    have hcard := Finset.card_le_card hsub
    rw [List.toFinset_card_of_nodup hkeys, List.length_map] at hcard
    exact (hcard.trans (hn t)).trans (le_max_right _ _)

/-- What ends an eviction. -/
theorem evicted_stops (maxClients : ℕ) (horizon : Instant) (hits : List (String × List Instant)) :
    (evicted maxClients horizon hits).length ≤ maxClients ∨
      ∃ p rest, evicted maxClients horizon hits = p :: rest ∧ ∃ x ∈ p.2, horizon < x := by
  induction hits with
  | nil => exact Or.inl (Nat.zero_le _)
  | cons p hits ih =>
    obtain ⟨k, w⟩ := p
    unfold evicted
    split
    · rename_i hstop
      rcases hstop with hlen | ⟨last, hlast, hlt⟩
      · exact Or.inl hlen
      · exact Or.inr ⟨_, _, rfl, last, List.mem_of_getLast? hlast, hlt⟩
    · exact ih

/-- If the coldest client has a request inside the window, every client was checked inside it. -/
theorem Coldest.inside {p : String × List Instant} {rest : List (String × List Instant)}
    {seen : String → Instant} (h : Coldest (p :: rest) rs seen) {x horizon : Instant}
    (hx : x ∈ p.2) (hlt : horizon < x) : ∀ q ∈ p :: rest, horizon < seen q.1 := by
  have hp : horizon < seen p.1 := hlt.trans_le (h.past p List.mem_cons_self x hx)
  intro q hq
  rcases List.mem_cons.mp hq with rfl | hq
  · exact hp
  · exact hp.trans_le ((List.pairwise_cons.mp h.order).1 q hq)

theorem Coldest.sublist {hits hits' : List (String × List Instant)} {seen : String → Instant}
    (h : Coldest hits rs seen) (hsub : hits'.Sublist hits) : Coldest hits' rs seen where
  keys := h.keys.sublist (hsub.map _)
  order := h.order.sublist hsub
  checked := fun p hp ↦ h.checked p (hsub.subset hp)
  past := fun p hp ↦ h.past p (hsub.subset hp)

/-- The key is moved to the end, and its last check is now. -/
theorem Coldest.moveToEnd {seen : String → Instant} (h : Coldest l.hits rs seen)
    (hnow : ∀ r ∈ rs, r.now ≤ now) {w : List Instant} (hw : ∀ x ∈ w, x ≤ now) :
    Coldest (l.moveToEnd key w).hits (rs ++ [⟨now, .check key⟩])
      (Function.update seen key now) := by
  have hne : ∀ p ∈ l.hits.filter fun p ↦ p.1 ≠ key,
      p ∈ l.hits ∧ Function.update seen key now p.1 = seen p.1 := fun p hp ↦ by
    obtain ⟨hp, hk⟩ := List.mem_filter.mp hp
    exact ⟨hp, Function.update_of_ne (of_decide_eq_true hk) _ _⟩
  refine ⟨?_, ?_, fun p hp ↦ ?_, fun p hp ↦ ?_⟩
  · unfold SlidingWindowLimiter.moveToEnd
    rw [List.map_append, List.nodup_append]
    refine ⟨h.keys.sublist (List.filter_sublist.map _), List.nodup_singleton _, ?_⟩
    rintro k hk k' hk' rfl
    obtain ⟨p, hp, rfl⟩ := List.mem_map.mp hk
    rw [List.map_singleton, List.mem_singleton] at hk'
    exact of_decide_eq_true (List.mem_filter.mp hp).2 hk'
  · refine List.pairwise_append.mpr ⟨?_, List.pairwise_singleton _ _, fun p hp q hq ↦ ?_⟩
    · refine (h.order.sublist List.filter_sublist).imp_of_mem fun hp hq hle ↦ ?_
      rw [(hne _ hp).2, (hne _ hq).2]
      exact hle
    · rw [List.mem_singleton.mp hq, (hne p hp).2, Function.update_self]
      exact hnow _ (h.checked p (hne p hp).1)
  · rcases List.mem_append.mp hp with hp | hp
    · rw [(hne p hp).2]
      exact List.mem_append_left _ (h.checked p (hne p hp).1)
    · rw [List.mem_singleton.mp hp, Function.update_self]
      exact List.mem_append_right _ List.mem_cons_self
  · rcases List.mem_append.mp hp with hp | hp
    · rw [(hne p hp).2]
      exact h.past p (hne p hp).1
    · rw [List.mem_singleton.mp hp, Function.update_self]
      exact hw

theorem Coldest.put {seen : String → Instant} (h : Coldest l.hits rs seen) {w : List Instant}
    (hw : ∀ x ∈ w, x ≤ seen key) (r : Request) :
    Coldest (l.put key w).hits (rs ++ [r]) seen := by
  have hfst : ∀ p : String × List Instant,
      (if p.1 = key then (key, w) else p).1 = p.1 := fun p ↦ by
    split
    · rename_i hp
      exact hp.symm
    · rfl
  refine ⟨?_, ?_, fun p hp ↦ ?_, fun p hp x hx ↦ ?_⟩
  · unfold SlidingWindowLimiter.put
    rw [List.map_map]
    exact (List.map_congr_left fun p _ ↦ hfst p : _ = l.hits.map Prod.fst) ▸ h.keys
  · refine List.pairwise_map.mpr (h.order.imp fun {p q} hle ↦ ?_)
    rw [hfst, hfst]
    exact hle
  · obtain ⟨q, hq, rfl⟩ := List.mem_map.mp hp
    rw [hfst]
    exact List.mem_append_left _ (h.checked q hq)
  · obtain ⟨q, hq, rfl⟩ := List.mem_map.mp hp
    rw [hfst]
    by_cases hk : q.1 = key
    · rw [if_pos hk] at hx
      rw [hk]
      exact hw x hx
    · rw [if_neg hk] at hx
      exact h.past q hq x hx

/-- The bound is a matter of which clients are in the table. -/
theorem Capped.congr {l' : SlidingWindowLimiter} {rs' : List Request} (h : l.Capped rs)
    (hkeys : (l.hits.map Prod.fst).Nodup) (hkeys' : (l'.hits.map Prod.fst).Nodup)
    (hsame : ∀ k, k ∈ l'.hits.map Prod.fst ↔ k ∈ l.hits.map Prod.fst)
    (hmax : l'.maxClients = l.maxClients) (hwidth : l'.width = l.width)
    (hrs : ∀ r ∈ rs, r ∈ rs') : l'.Capped rs' := by
  rcases h with h | ⟨t, h⟩
  · left
    have hlen := ((List.perm_ext_iff_of_nodup hkeys' hkeys).mpr hsame).length_eq
    rw [List.length_map, List.length_map] at hlen
    unfold trackedClients at *
    omega
  · right
    refine ⟨t, fun p hp ↦ ?_⟩
    obtain ⟨q, hq, hqp⟩ := List.mem_map.mp ((hsame p.1).mp (List.mem_map_of_mem hp))
    obtain ⟨r, hr, hcall, hin⟩ := mem_checkedIn.mp (h q hq)
    rw [hqp] at hcall
    exact mem_checkedIn.mpr ⟨r, hrs r hr, hcall, by rwa [hwidth]⟩

theorem keys_put {w : List Instant} :
    (l.put key w).hits.map Prod.fst = l.hits.map Prod.fst := by
  unfold put
  rw [List.map_map]
  refine List.map_congr_left fun p _ ↦ ?_
  by_cases hp : p.1 = key <;> simp [hp]

theorem mem_keys_moveToEnd {w : List Instant} {k : String} :
    k ∈ (l.moveToEnd key w).hits.map Prod.fst ↔ k = key ∨ k ∈ l.hits.map Prod.fst := by
  unfold moveToEnd
  rw [List.map_append, List.mem_append, List.map_singleton, List.mem_singleton]
  constructor
  · rintro (hk | rfl)
    · exact Or.inr ((List.filter_sublist.map _).subset hk)
    · exact Or.inl rfl
  · intro hk
    by_cases hkey : k = key
    · exact Or.inr hkey
    · obtain ⟨p, hp, rfl⟩ := List.mem_map.mp (hk.resolve_left hkey)
      exact Or.inl (List.mem_map_of_mem (List.mem_filter.mpr ⟨hp, decide_eq_true hkey⟩))

theorem maxClients_run (l : SlidingWindowLimiter) (rs : List Request) :
    (run step l rs).maxClients = l.maxClients := by
  refine run_invariant (fun (l' : SlidingWindowLimiter) r (h : l'.maxClients = l.maxClients) ↦ ?_)
    rfl rs
  obtain ⟨t, call⟩ := r
  cases call with
  | check key =>
    change (l'.check key t).maxClients = l.maxClients
    unfold check
    dsimp only
    split <;> exact h
  | peek key =>
    change (l'.peek key t).2.maxClients = l.maxClients
    unfold peek
    split <;> exact h

theorem mem_keys_of_recorded {w : List Instant} (h : l.recorded key = some w) :
    key ∈ l.hits.map Prod.fst := by
  obtain ⟨p, hp, -⟩ := Option.map_eq_some_iff.mp h
  exact List.mem_map.mpr ⟨p, List.mem_of_find?_eq_some hp, by simpa using List.find?_some hp⟩

/-- What is on record for a client is no later than its last check. -/
theorem Coldest.recorded {seen : String → Instant} (h : Coldest l.hits rs seen) {w : List Instant}
    (hw : l.recorded key = some w) : (∀ x ∈ w, x ≤ seen key) ∧ ⟨seen key, .check key⟩ ∈ rs := by
  obtain ⟨p, hp, rfl⟩ := Option.map_eq_some_iff.mp hw
  have hmem := List.mem_of_find?_eq_some hp
  obtain rfl : p.1 = key := by simpa using List.find?_some hp
  exact ⟨h.past p hmem, h.checked p hmem⟩

/-- What an admitted check leaves of the bound: the table is cut. -/
theorem Coldest.capped_evict {seen : String → Instant} (h : Coldest l.hits rs seen)
    (hnow : ∀ r ∈ rs, r.now ≤ now) : (l.evict now).Capped rs := by
  rcases evicted_stops l.maxClients (now - l.width) l.hits with hlen | ⟨p, rest, hp, x, hx, hlt⟩
  · exact Or.inl hlen
  · right
    refine ⟨now, fun q hq ↦ mem_checkedIn.mpr ?_⟩
    have hrest : Coldest (p :: rest) rs seen := hp ▸ h.sublist (evicted_sublist _ _ _)
    have hmem : q ∈ p :: rest := hp ▸ hq
    have hchecked := hrest.checked q hmem
    exact ⟨_, hchecked, rfl, hrest.inside hx hlt q hmem, hnow _ hchecked⟩

/-- What a check leaves of the order and of the bound. -/
theorem Capped.check (hlimit : 0 < l.limit) {seen : String → Instant}
    (hcold : Coldest l.hits rs seen) (hcap : l.Capped rs) (hnow : ∀ r ∈ rs, r.now ≤ now) :
    (∃ seen, Coldest (l.check key now).hits (rs ++ [⟨now, .check key⟩]) seen) ∧
      (l.check key now).Capped (rs ++ [⟨now, .check key⟩]) := by
  have hpast : ∀ x ∈ l.window key now, x ≤ now := fun x hx ↦ by
    obtain ⟨w, hw, hxw⟩ := recorded_of_mem_window hx
    obtain ⟨hle, hchecked⟩ := hcold.recorded hw
    exact (hle x hxw).trans (hnow _ hchecked)
  unfold SlidingWindowLimiter.check
  dsimp only
  split
  · -- refused: the client is in the table, which keeps its size
    rename_i hfull
    have hmoved : Coldest (l.moveToEnd key (l.window key now)).hits _ _ :=
      hcold.moveToEnd hnow hpast
    obtain ⟨x, hx⟩ := List.exists_mem_of_length_pos (hlimit.trans_le hfull)
    obtain ⟨w, hw, -⟩ := recorded_of_mem_window hx
    refine ⟨⟨_, hmoved⟩, hcap.congr hcold.keys hmoved.keys (fun k ↦ ?_) rfl rfl
      fun r hr ↦ List.mem_append_left _ hr⟩
    rw [mem_keys_moveToEnd, or_iff_right_of_imp]
    rintro rfl
    exact mem_keys_of_recorded hw
  · have hpast' : ∀ x ∈ l.window key now ++ [now], x ≤ now := fun x hx ↦ by
      rcases List.mem_append.mp hx with hx | hx
      · exact hpast x hx
      · exact (List.mem_singleton.mp hx).le
    have hmoved : Coldest (l.moveToEnd key (l.window key now ++ [now])).hits _ _ :=
      hcold.moveToEnd hnow hpast'
    refine ⟨⟨_, hmoved.sublist (evicted_sublist _ _ _)⟩, hmoved.capped_evict fun r hr ↦ ?_⟩
    rcases List.mem_append.mp hr with hr | hr
    · exact hnow r hr
    · rw [List.mem_singleton.mp hr]

/-- What a peek leaves of the order and of the bound. -/
theorem Capped.peek {seen : String → Instant} (hcold : Coldest l.hits rs seen) (hcap : l.Capped rs) :
    (∃ seen, Coldest (l.peek key now).2.hits (rs ++ [⟨now, .peek key⟩]) seen) ∧
      (l.peek key now).2.Capped (rs ++ [⟨now, .peek key⟩]) := by
  unfold SlidingWindowLimiter.peek
  split
  · have hmore : Coldest l.hits (rs ++ [⟨now, .peek key⟩]) seen :=
      ⟨hcold.keys, hcold.order, fun p hp ↦ List.mem_append_left _ (hcold.checked p hp), hcold.past⟩
    exact ⟨⟨seen, hmore⟩, hcap.congr hcold.keys hcold.keys (fun _ ↦ Iff.rfl) rfl rfl
      fun r hr ↦ List.mem_append_left _ hr⟩
  · rename_i w hw
    have hput : Coldest (l.put key (prune (now - l.width) w)).hits _ seen :=
      hcold.put (fun x hx ↦ (hcold.recorded hw).1 x (prune_sublist.subset hx)) ⟨now, .peek key⟩
    refine ⟨⟨seen, hput⟩, hcap.congr hcold.keys hput.keys (fun k ↦ ?_) rfl rfl
      fun r hr ↦ List.mem_append_left _ hr⟩
    dsimp only
    rw [keys_put]

/-- Along a run the clients stay in the order of their last checks, and the table is within its cap
or holds only clients that were checked in one window. -/
theorem capped_run (hlimit : 0 < l.limit) (hempty : l.hits = []) (hrs : Chronological rs) :
    (∃ seen, Coldest (run step l rs).hits rs seen) ∧ (run step l rs).Capped rs := by
  induction rs using List.reverseRecOn with
  | nil =>
    have hcold : Coldest l.hits [] fun _ ↦ 0 := by
      rw [hempty]
      exact ⟨List.nodup_nil, List.Pairwise.nil, fun _ h ↦ (List.not_mem_nil h).elim,
        fun _ h ↦ (List.not_mem_nil h).elim⟩
    refine ⟨⟨_, hcold⟩, Or.inl ?_⟩
    unfold trackedClients
    rw [run_nil, hempty]
    exact Nat.zero_le _
  | append_singleton rs r ih =>
    obtain ⟨hrs, -, hlast⟩ := List.pairwise_append.mp hrs
    obtain ⟨⟨seen, hcold⟩, hcap⟩ := ih hrs
    have hnow : ∀ r' ∈ rs, r'.now ≤ r.now := fun r' hr' ↦ hlast r' hr' r List.mem_cons_self
    rw [run_append, run_cons, run_nil]
    obtain ⟨now, call⟩ := r
    cases call with
    | check key => exact hcap.check (by rwa [limit_run]) hcold hnow
    | peek key => exact hcap.peek hcold

/-! ## The bound -/

/-- The clients the limiter tracks after any requests: at most `max_clients`, or no more than were
checked in some one window; and every client with an admitted check inside the window, however many
there are. -/
theorem clients_bounded (limit windowSeconds maxClients : ℕ) (hlimit : 1 ≤ limit)
    (rs : List Request) (hrs : Chronological rs) :
    let l₀ := new limit windowSeconds maxClients
    (∀ n, (∀ t, (l₀.checkedIn rs t).card ≤ n) →
      (run step l₀ rs).trackedClients ≤ max maxClients n) ∧
      ∀ now, (∀ r ∈ rs, r.now ≤ now) → ∀ keys : Finset String,
        (∀ key ∈ keys, l₀.inWindow now (admitted key l₀ rs) ≠ []) →
          keys.card ≤ (run step l₀ rs).trackedClients := by
  intro l₀
  obtain ⟨⟨seen, hcold⟩, hcap⟩ : (∃ seen, Coldest (run step l₀ rs).hits rs seen) ∧ _ :=
    capped_run hlimit rfl hrs
  have hmax : (run step l₀ rs).maxClients = maxClients := maxClients_run l₀ rs
  refine ⟨fun n hn ↦ ?_, fun now hnow keys hkeys ↦ ?_⟩
  · have hle := hcap.le hcold.keys (n := n) fun t ↦ by
      unfold checkedIn
      rw [width_run]
      exact hn t
    rwa [hmax] at hle
  · have h : (run step l₀ rs).Remembers now fun key ↦ admitted key l₀ rs :=
      remembers_run limit windowSeconds maxClients hrs hnow
    have hsub : keys ⊆ ((run step l₀ rs).hits.map Prod.fst).toFinset := fun key hkey ↦ by
      obtain ⟨x, hx⟩ := List.exists_mem_of_ne_nil _ (hkeys key hkey)
      have hwindow : x ∈ (run step l₀ rs).window key now := by
        rw [h.window_eq key]
        unfold inWindow
        rw [width_run]
        exact hx
      obtain ⟨w, hw, -⟩ := recorded_of_mem_window hwindow
      exact List.mem_toFinset.mpr (mem_keys_of_recorded hw)
    have hcard := Finset.card_le_card hsub
    rwa [List.toFinset_card_of_nodup hcold.keys, List.length_map] at hcard

/-- One request in a thousand seconds and a table for two: five clients that ask in one instant. -/
def crowd : List Request :=
  [⟨1, .check "0"⟩, ⟨1, .check "1"⟩, ⟨1, .check "2"⟩, ⟨1, .check "3"⟩, ⟨1, .check "4"⟩]

theorem clients_bounded_crowd :
    Chronological crowd ∧
      (run step (new 1 1000 2) crowd).trackedClients ≤ 5 ∧
        5 ≤ (run step (new 1 1000 2) crowd).trackedClients := by
  have hcrowd : Chronological crowd := by decide
  have h := clients_bounded 1 1000 2 le_rfl crowd hcrowd
  refine ⟨hcrowd, h.1 5 fun t ↦ ?_, h.2 1 (by decide) {"0", "1", "2", "3", "4"} (by decide)⟩
  exact (List.toFinset_card_le _).trans (List.length_filterMap_le _ _)

/-- The table is not held to one client over its cap. -/
theorem crowd_tracked :
    ¬ ∀ (limit windowSeconds maxClients : ℕ) (rs : List Request), 1 ≤ limit → Chronological rs →
      (∀ r ∈ rs, ∃ key, r.call = .check key) →
        (run step (new limit windowSeconds maxClients) rs).trackedClients ≤ maxClients + 1 := by
  intro h
  have hchecks : ∀ r ∈ crowd, ∃ key, r.call = .check key := by simp [crowd]
  exact absurd (h 1 1000 2 crowd le_rfl (by decide) hchecks) (by decide)

end SlidingWindowLimiter

end Conjectures.Auth

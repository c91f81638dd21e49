import Mathlib.Data.List.Sort

/-!
# Paging by keys

A feed served in pages. A page is the rows behind a position, in the order of their keys, cut to
the size of the page; a cursor is what the feed writes of the last row's key, and reads as the
next position. Where the cursors of the rows are read as their keys, whoever follows them gets
every row once and in order, whatever the size of the pages.
-/

namespace Conjectures.Lib

universe u

/-- Rows of type `ρ` with keys of type `κ`, cursors of type `γ` and refusals of type `ε`. -/
structure Feed (ρ κ γ ε : Type u) where
  key : ρ → κ
  /-- The cursor behind a row. -/
  issue : ρ → Except ε γ
  /-- The position of a cursor. -/
  read : γ → Except ε κ

namespace Feed

variable {ρ κ γ ε : Type u} [LinearOrder κ]

/-- The rows in the order of the feed. -/
def sorted (feed : Feed ρ κ γ ε) (rows : List ρ) : List ρ :=
  rows.insertionSort fun a b ↦ feed.key a ≤ feed.key b

/-- `SELECT … WHERE key > after ORDER BY key LIMIT limit` -/
def select (feed : Feed ρ κ γ ε) (rows : List ρ) (after : Option κ) (limit : ℕ) : List ρ :=
  (feed.sorted (rows.filter fun r ↦ after.all fun k ↦ k < feed.key r)).take limit

/-- One page, and the cursor for the next. One row more is read than served, so that there is a
cursor exactly where there are rows left. -/
def page (feed : Feed ρ κ γ ε) (rows : List ρ) (limit : ℕ) (cursor : Option γ) :
    Except ε (List ρ × Option γ) := do
  let after ← cursor.mapM feed.read
  let read := feed.select rows after (limit + 1)
  let page := read.take limit
  let next ← (if limit < read.length then page.getLast?.mapM feed.issue else .ok none)
  return (page, next)

/-- Page after page until there is no cursor, at most so many of them. -/
def follow (feed : Feed ρ κ γ ε) (rows : List ρ) (limit : ℕ) :
    ℕ → Option γ → Except ε (Option (List ρ))
  | 0, _ => .ok none
  | pages + 1, cursor =>
    match feed.page rows limit cursor with
    | .error e => .error e
    | .ok (served, none) => .ok (some served)
    | .ok (served, some next) =>
      (feed.follow rows limit pages (some next)).map fun rest ↦ rest.map (served ++ ·)

variable {feed : Feed ρ κ γ ε} {rows : List ρ}

/-! ## The order -/

theorem sorted_perm (feed : Feed ρ κ γ ε) (rows : List ρ) : (feed.sorted rows).Perm rows :=
  List.perm_insertionSort _ rows

/-- No two rows share a key, so each comes strictly before the next. -/
theorem sorted_pairwise (h : (rows.map feed.key).Nodup) :
    (feed.sorted rows).Pairwise fun a b ↦ feed.key a < feed.key b := by
  have hle : (feed.sorted rows).Pairwise fun a b ↦ feed.key a ≤ feed.key b :=
    List.pairwise_insertionSort _ rows
  have hnodup : ((feed.sorted rows).map feed.key).Nodup :=
    ((feed.sorted_perm rows).map feed.key).nodup_iff.mpr h
  exact (hle.and (List.pairwise_map.mp hnodup)).imp fun hab ↦ lt_of_le_of_ne hab.1 hab.2

/-- Rows can be left out before or after they are sorted. -/
theorem sorted_filter (h : (rows.map feed.key).Nodup) (p : ρ → Bool) :
    feed.sorted (rows.filter p) = (feed.sorted rows).filter p := by
  have hperm : (feed.sorted (rows.filter p)).Perm ((feed.sorted rows).filter p) :=
    (feed.sorted_perm _).trans ((feed.sorted_perm rows).filter p).symm
  have hsub : ((rows.filter p).map feed.key).Nodup :=
    h.sublist (List.filter_sublist.map feed.key)
  refine hperm.eq_of_pairwise (fun a b _ _ hab hba ↦ absurd (hab.trans hba) (lt_irrefl _))
    (sorted_pairwise hsub) ((sorted_pairwise h).filter p)

/-- What comes behind the last row of a page is what the page left. -/
theorem filter_behind {l : List ρ} (h : l.Pairwise fun a b ↦ feed.key a < feed.key b) {n : ℕ}
    {r : ρ} (hr : (l.take n).getLast? = some r) :
    l.filter (fun a ↦ feed.key r < feed.key a) = l.drop n := by
  obtain ⟨front, hfront⟩ : ∃ front, l.take n = front ++ [r] := List.getLast?_eq_some_iff.mp hr
  have hsplit : l = front ++ [r] ++ l.drop n := by rw [← hfront, List.take_append_drop]
  rw [hsplit] at h
  obtain ⟨hpage, -, hcross⟩ := List.pairwise_append.mp h
  have hserved : (front ++ [r]).filter (fun a ↦ feed.key r < feed.key a) = [] := by
    refine List.filter_eq_nil_iff.mpr fun a ha hlt ↦ ?_
    have hlt : feed.key r < feed.key a := of_decide_eq_true hlt
    rcases List.mem_append.mp ha with ha | ha
    · have := (List.pairwise_append.mp hpage).2.2 a ha r List.mem_cons_self
      exact absurd (hlt.trans this) (lt_irrefl _)
    · rw [List.mem_singleton.mp ha] at hlt
      exact absurd hlt (lt_irrefl _)
  have hleft : (l.drop n).filter (fun a ↦ feed.key r < feed.key a) = l.drop n := by
    refine List.filter_eq_self.mpr fun a ha ↦ decide_eq_true ?_
    exact hcross r (List.mem_append_right _ List.mem_cons_self) a ha
  conv_lhs => rw [hsplit]
  rw [List.filter_append, hserved, hleft, List.nil_append]

/-! ## Following the cursors -/

/-- The rows behind a position, in order. -/
def behind (feed : Feed ρ κ γ ε) (rows : List ρ) (after : Option κ) : List ρ :=
  (feed.sorted rows).filter fun r ↦ after.all fun k ↦ k < feed.key r

theorem select_eq (h : (rows.map feed.key).Nodup) (after : Option κ) (limit : ℕ) :
    feed.select rows after limit = (feed.behind rows after).take limit := by
  rw [select, sorted_filter h, behind]

/-- The position of a page's last row leaves what the page left. -/
theorem behind_next (h : (rows.map feed.key).Nodup) {after : Option κ} {limit : ℕ} {r : ρ}
    (hr : ((feed.behind rows after).take limit).getLast? = some r) :
    feed.behind rows (some (feed.key r)) = (feed.behind rows after).drop limit := by
  have hsorted := (sorted_pairwise h).filter fun r ↦ after.all fun k ↦ k < feed.key r
  have hleft : (feed.behind rows after).filter (fun a ↦ feed.key r < feed.key a) =
      (feed.behind rows after).drop limit := filter_behind hsorted hr
  rw [← hleft, behind, behind, List.filter_filter]
  -- whoever comes behind the last row comes behind the position before it
  have hlast : after.all fun k ↦ k < feed.key r := by
    have hmem := List.mem_of_mem_take (List.mem_of_getLast? hr)
    exact (List.mem_filter.mp hmem).2
  refine List.filter_congr fun a _ ↦ ?_
  cases after with
  | none => simp
  | some k =>
    have hk : k < feed.key r := by simpa using hlast
    by_cases ha : feed.key r < feed.key a
    · simp [ha, hk.trans ha]
    · simp [ha]

/-- From any position that was read, the rest of the rows is served in order. -/
theorem follow_behind (hkeys : (rows.map feed.key).Nodup)
    (hcursor : ∀ r ∈ rows, ∃ c, feed.issue r = .ok c ∧ feed.read c = .ok (feed.key r)) {limit : ℕ}
    (hlimit : 0 < limit) {pages : ℕ} {cursor : Option γ} {after : Option κ}
    (hafter : cursor.mapM feed.read = .ok after) (hpages : (feed.behind rows after).length < pages) :
    feed.follow rows limit pages cursor = .ok (some (feed.behind rows after)) := by
  induction pages generalizing cursor after with
  | zero => omega
  | succ pages ih =>
    have hread := select_eq hkeys after (limit + 1)
    have htake : (feed.select rows after (limit + 1)).take limit =
        (feed.behind rows after).take limit := by
      rw [hread, List.take_take, Nat.min_eq_left (Nat.le_succ limit)]
    by_cases hmore : limit < (feed.behind rows after).length
    · -- the page is full, and its last row starts the next one
      have hne : (feed.behind rows after).take limit ≠ [] :=
        List.ne_nil_of_length_pos (by rw [List.length_take]; omega)
      obtain ⟨r, hr⟩ : ∃ r, ((feed.behind rows after).take limit).getLast? = some r :=
        ⟨_, List.getLast?_eq_some_getLast hne⟩
      have hmem : r ∈ rows := by
        have := List.mem_of_mem_take (List.mem_of_getLast? hr)
        exact (feed.sorted_perm rows).mem_iff.mp (List.mem_of_mem_filter this)
      obtain ⟨c, hissue, hposition⟩ := hcursor r hmem
      have hpage : feed.page rows limit cursor =
          .ok ((feed.behind rows after).take limit, some c) := by
        have hlen : limit < (feed.select rows after (limit + 1)).length := by
          rw [hread, List.length_take]
          omega
        simp only [page, hafter, bind, Except.bind, if_pos hlen, htake, hr]
        simp only [Option.mapM_some, hissue, Functor.map, Except.map, pure, Except.pure]
      have hrest := @ih (some c) (some (feed.key r))
        (by simp only [Option.mapM_some, hposition, Functor.map, Except.map])
        (by rw [behind_next hkeys hr, List.length_drop]; omega)
      rw [follow, hpage]
      dsimp only
      rw [hrest, behind_next hkeys hr]
      simp only [Except.map, Option.map_some, List.take_append_drop]
    · have hpage : feed.page rows limit cursor = .ok (feed.behind rows after, none) := by
        have hlen : ¬ limit < (feed.select rows after (limit + 1)).length := by
          rw [hread, List.length_take]
          omega
        simp only [page, hafter, bind, Except.bind, if_neg hlen, htake]
        rw [List.take_of_length_le (by omega)]
        rfl
      rw [follow, hpage]

/-- Whoever follows the cursors from the start is served every row once, in order. -/
theorem follow_exact (hkeys : (rows.map feed.key).Nodup)
    (hcursor : ∀ r ∈ rows, ∃ c, feed.issue r = .ok c ∧ feed.read c = .ok (feed.key r)) {limit : ℕ}
    (hlimit : 0 < limit) {pages : ℕ} (hpages : rows.length < pages) :
    feed.follow rows limit pages none = .ok (some (feed.sorted rows)) := by
  have hall : feed.behind rows none = feed.sorted rows := by simp [behind]
  have hfollow := @follow_behind _ _ _ _ _ feed rows hkeys hcursor limit
    hlimit pages none none rfl (by rw [hall, (feed.sorted_perm rows).length_eq]; exact hpages)
  rwa [hall] at hfollow

end Feed

end Conjectures.Lib

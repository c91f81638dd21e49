import Mathlib.Algebra.BigOperators.Group.List.Basic
import Mathlib.Algebra.Order.BigOperators.Group.List
import Mathlib.Algebra.Order.Group.Int
import Mathlib.Data.List.Nodup
import Mathlib.Algebra.Group.Int.Defs
import Mathlib.Tactic.Abel

/-!
# Tables with a primary key

A table is a list of rows no two of which share a key; the proof of that is a
field, so a table with a duplicate cannot be built and no later proof has to
rule one out.  Rows are kept in the order they were inserted.

* `insert?` is `INSERT`, and `none` is its unique violation;
* `insertNew` is `INSERT … ON CONFLICT DO NOTHING`;
* `append` is `INSERT` into a table keyed by an identity column;
* `update` is `UPDATE … SET … WHERE`, for a `SET` that leaves the key alone;
* `delete` is `DELETE … WHERE` through the key.

`Unique` states a further, partial unique index and `Taken` is its refusal.  A program that
works on a copy of a row, read some time ago, writes it back column by column: `written`.
-/

namespace Conjectures.Lib

universe u v

variable {ρ : Type u} {κ : Type v}

/-- Rows of type `ρ` with the primary key `key`. -/
structure Table (key : ρ → κ) where
  /-- the rows, oldest insert first -/
  rows : List ρ
  /-- no two rows share a key -/
  nodup : (rows.map key).Nodup

namespace Table

variable {key : ρ → κ}

/-- The table without rows. -/
def empty (key : ρ → κ) : Table key := ⟨[], List.nodup_nil⟩

/-- The table of one row. -/
def singleton (r : ρ) : Table key := ⟨[r], List.nodup_singleton (key r)⟩

@[simp] theorem rows_empty : (empty key).rows = [] := rfl

/-- Two rows of a table with one key are one row. -/
theorem eq_of_key (t : Table key) {r r' : ρ} (h : r ∈ t.rows) (h' : r' ∈ t.rows)
    (hk : key r = key r') : r = r' := List.inj_on_of_nodup_map t.nodup h h' hk

theorem rows_nodup (t : Table key) : t.rows.Nodup := t.nodup.of_map

/-- A condition that tells no two rows apart selects one row at most. -/
theorem length_filter_le_one (t : Table key) {p : ρ → Bool}
    (h : ∀ r ∈ t.rows, ∀ r' ∈ t.rows, p r = true → p r' = true → r = r') :
    (t.rows.filter p).length ≤ 1 := by
  have hnd : (t.rows.filter p).Nodup := t.rows_nodup.filter p
  cases hl : t.rows.filter p with
  | nil => exact Nat.zero_le 1
  | cons r rest =>
    cases rest with
    | nil => exact le_rfl
    | cons r' rest =>
      have hr := List.mem_filter.mp (hl ▸ List.mem_cons_self : r ∈ t.rows.filter p)
      have hr' := List.mem_filter.mp
        (hl ▸ List.mem_cons_of_mem _ List.mem_cons_self : r' ∈ t.rows.filter p)
      rw [hl, h r hr.1 r' hr'.1 hr.2 hr'.2] at hnd
      exact absurd List.mem_cons_self (List.nodup_cons.mp hnd).1

variable [DecidableEq κ]

/-- Selecting by a row's key selects that row. -/
theorem filter_key (t : Table key) {r : ρ} (h : r ∈ t.rows) :
    t.rows.filter (fun r' ↦ key r' = key r) = [r] := by
  have hmem : r ∈ t.rows.filter (fun r' ↦ key r' = key r) :=
    List.mem_filter.mpr ⟨h, decide_eq_true rfl⟩
  have hone := @length_filter_le_one _ _ _ t (fun r' ↦ key r' = key r) fun r₁ h₁ r₂ h₂ hp₁ hp₂ ↦
    t.eq_of_key h₁ h₂ ((of_decide_eq_true hp₁).trans (of_decide_eq_true hp₂).symm)
  obtain ⟨r', hr'⟩ := List.length_eq_one_iff.mp
    (le_antisymm hone (List.length_pos_of_mem hmem))
  rw [hr'] at hmem ⊢
  rw [List.mem_singleton.mp hmem]

/-- The row with the given key. -/
def find? (t : Table key) (k : κ) : Option ρ := t.rows.find? fun r ↦ key r = k

theorem find?_eq_some {t : Table key} {k : κ} {r : ρ} :
    t.find? k = some r ↔ r ∈ t.rows ∧ key r = k := by
  constructor
  · intro h
    exact ⟨List.mem_of_find?_eq_some h, by simpa using List.find?_some h⟩
  · rintro ⟨hr, rfl⟩
    cases h : t.find? (key r) with
    | none =>
      have := List.find?_eq_none.mp h r hr
      simp at this
    | some r' =>
      have hr' : key r' = key r := by simpa using List.find?_some h
      rw [t.eq_of_key (List.mem_of_find?_eq_some h) hr hr']

theorem find?_eq_none {t : Table key} {k : κ} :
    t.find? k = none ↔ ∀ r ∈ t.rows, key r ≠ k := by
  simp [find?, List.find?_eq_none]

theorem find?_of_mem {t : Table key} {r : ρ} (h : r ∈ t.rows) : t.find? (key r) = some r :=
  find?_eq_some.mpr ⟨h, rfl⟩

/-! ## Inserting -/

/-- Append a row, or `none` where its key is taken. -/
def insert? (t : Table key) (r : ρ) : Option (Table key) :=
  if h : key r ∈ t.rows.map key then none
  else some ⟨t.rows ++ [r], by
    rw [List.map_append, List.map_singleton]
    exact List.concat_eq_append ▸ t.nodup.concat h⟩

theorem rows_of_insert? {t t' : Table key} {r : ρ} (h : t.insert? r = some t') :
    t'.rows = t.rows ++ [r] := by
  unfold insert? at h
  split at h
  · cases h
  · cases h; rfl

theorem fresh_of_insert? {t t' : Table key} {r : ρ} (h : t.insert? r = some t') :
    ∀ r' ∈ t.rows, key r' ≠ key r := by
  unfold insert? at h
  split at h
  · cases h
  · rename_i hk
    exact fun r' hr' he ↦ hk (he ▸ List.mem_map_of_mem hr')

theorem insert?_eq_none {t : Table key} {r : ρ} :
    t.insert? r = none ↔ ∃ r' ∈ t.rows, key r' = key r := by
  unfold insert?
  split
  · rename_i h; simpa using h
  · rename_i h; simpa using h

/-- Append a row unless its key is taken. -/
def insertNew (t : Table key) (r : ρ) : Table key := (t.insert? r).getD t

theorem insertNew_of_taken {t : Table key} {r r' : ρ} (h' : r' ∈ t.rows) (hk : key r' = key r) :
    t.insertNew r = t := by
  rw [insertNew, insert?_eq_none.mpr ⟨r', h', hk⟩, Option.getD_none]

theorem rows_insertNew_of_fresh {t : Table key} {r : ρ} (h : ∀ r' ∈ t.rows, key r' ≠ key r) :
    (t.insertNew r).rows = t.rows ++ [r] := by
  cases hi : t.insert? r with
  | none =>
    obtain ⟨r', hr', hk⟩ := insert?_eq_none.mp hi
    exact absurd hk (h r' hr')
  | some t' => rw [insertNew, hi, Option.getD_some, rows_of_insert? hi]

/-- A row of the table after `insertNew` was there before, or is the new one and
its key was free. -/
theorem mem_insertNew {t : Table key} {r r' : ρ} :
    r' ∈ (t.insertNew r).rows ↔
      r' ∈ t.rows ∨ (r' = r ∧ ∀ r'' ∈ t.rows, key r'' ≠ key r) := by
  by_cases h : ∀ r'' ∈ t.rows, key r'' ≠ key r
  · rw [rows_insertNew_of_fresh h, List.mem_append, List.mem_singleton, and_iff_left h]
  · obtain ⟨r'', hr'', hk⟩ : ∃ r'' ∈ t.rows, key r'' = key r := by
      simpa using h
    rw [insertNew_of_taken hr'' hk]
    constructor
    · exact Or.inl
    · rintro (h' | ⟨-, h'⟩)
      · exact h'
      · exact absurd hk (h' r'' hr'')

/-- The table with this row for its key, in the place of any other. -/
def upsert (t : Table key) (r : ρ) : Table key where
  rows := t.rows.filter (fun r' ↦ key r' ≠ key r) ++ [r]
  nodup := by
    rw [List.map_append, List.map_singleton, List.nodup_append]
    refine ⟨t.nodup.sublist (List.filter_sublist.map key), List.nodup_singleton _, ?_⟩
    intro k hk k' hk'
    obtain ⟨r', hr', rfl⟩ := List.mem_map.mp hk
    rw [List.mem_singleton.mp hk']
    simpa using (List.mem_filter.mp hr').2

theorem mem_upsert {t : Table key} {r r' : ρ} :
    r' ∈ (t.upsert r).rows ↔ r' = r ∨ (r' ∈ t.rows ∧ key r' ≠ key r) := by
  simp [upsert, or_comm]

/-! ## Identity columns

A table keyed by an identity column numbers its rows itself: a new row gets a
number above every number in the table. -/

section Identity

variable {ρ : Type u} {id : ρ → ℕ}

/-- The number the next row gets. -/
def nextId (t : Table id) : ℕ := (t.rows.map id).foldr max 0 + 1

theorem lt_nextId {t : Table id} {r : ρ} (h : r ∈ t.rows) : id r < t.nextId := by
  have hle : ∀ (l : List ℕ) (n : ℕ), n ∈ l → n ≤ l.foldr max 0 := by
    intro l
    induction l with
    | nil => intro n hn; cases hn
    | cons m l ih =>
      intro n hn
      rcases List.mem_cons.mp hn with rfl | hn
      · exact le_max_left _ _
      · exact le_trans (ih n hn) (le_max_right _ _)
  exact Nat.lt_succ_of_le (hle _ _ (List.mem_map_of_mem h))

/-- Append the row `mk` builds for the next number. -/
def append (t : Table id) (mk : ℕ → ρ) (hmk : ∀ n, id (mk n) = n) : Table id :=
  ⟨t.rows ++ [mk t.nextId], by
    have hfresh : t.nextId ∉ t.rows.map id := by
      intro h
      obtain ⟨r, hr, he⟩ := List.mem_map.mp h
      exact absurd he (Nat.ne_of_lt (lt_nextId hr))
    rw [List.map_append, List.map_singleton, hmk]
    exact List.concat_eq_append ▸ t.nodup.concat hfresh⟩

@[simp] theorem rows_append (t : Table id) (mk : ℕ → ρ) (hmk : ∀ n, id (mk n) = n) :
    (t.append mk hmk).rows = t.rows ++ [mk t.nextId] := rfl

end Identity

/-! ## Updating -/

/-- Rewrite the rows that satisfy `p` by `f`, which leaves the key alone. -/
def update (t : Table key) (p : ρ → Bool) (f : ρ → ρ) (hf : ∀ r, key (f r) = key r) :
    Table key :=
  ⟨t.rows.map fun r ↦ if p r then f r else r, by
    have : (t.rows.map fun r ↦ if p r then f r else r).map key = t.rows.map key := by
      rw [List.map_map]
      refine List.map_congr_left fun r _ ↦ ?_
      by_cases h : p r <;> simp [h, hf]
    rw [this]
    exact t.nodup⟩

/-- Rewrite the row with the given key. -/
def modify (t : Table key) (k : κ) (f : ρ → ρ) (hf : ∀ r, key (f r) = key r) : Table key :=
  t.update (fun r ↦ decide (key r = k)) f hf

variable {p : ρ → Bool} {f : ρ → ρ} {hf : ∀ r, key (f r) = key r}

omit [DecidableEq κ] in
theorem rows_update (t : Table key) :
    (t.update p f hf).rows = t.rows.map fun r ↦ if p r then f r else r := rfl

omit [DecidableEq κ] in
theorem mem_update {t : Table key} {r' : ρ} :
    r' ∈ (t.update p f hf).rows ↔ ∃ r ∈ t.rows, (if p r then f r else r) = r' := by
  simp [rows_update]

theorem mem_modify {t : Table key} {k : κ} {r' : ρ} :
    r' ∈ (t.modify k f hf).rows ↔
      (r' ∈ t.rows ∧ key r' ≠ k) ∨ ∃ r ∈ t.rows, key r = k ∧ f r = r' := by
  rw [modify, mem_update]
  constructor
  · rintro ⟨r, hr, he⟩
    by_cases hk : key r = k
    · exact Or.inr ⟨r, hr, hk, by simpa [hk] using he⟩
    · simp only [hk, decide_false, Bool.false_eq_true, if_false] at he
      subst he
      exact Or.inl ⟨hr, hk⟩
  · rintro (⟨hr, hk⟩ | ⟨r, hr, hk, rfl⟩)
    · exact ⟨r', hr, by simp [hk]⟩
    · exact ⟨r, hr, by simp [hk]⟩

/-- An update through a key touches one row: the others are as they were. -/
theorem mem_modify_of_mem {t : Table key} {r r' : ρ} (h : r ∈ t.rows) :
    r' ∈ (t.modify (key r) f hf).rows ↔ (r' ∈ t.rows ∧ key r' ≠ key r) ∨ r' = f r := by
  rw [mem_modify]
  constructor
  · rintro (h' | ⟨r₀, hr₀, hk, rfl⟩)
    · exact Or.inl h'
    · exact Or.inr (by rw [t.eq_of_key hr₀ h hk])
  · rintro (h' | rfl)
    · exact Or.inl h'
    · exact Or.inr ⟨r, h, rfl, rfl⟩

/-- What becomes of one row under an update through a key. -/
theorem modify_row {t : Table key} {k : κ} {r : ρ} (h : r ∈ t.rows) :
    (if key r = k then f r else r) ∈ (t.modify k f hf).rows := by
  rw [mem_modify]
  split
  · rename_i hk
    exact Or.inr ⟨r, h, hk, rfl⟩
  · rename_i hk
    exact Or.inl ⟨h, hk⟩

/-- An update through a key is determined by what it makes of its row. -/
theorem modify_congr {t : Table key} {r : ρ} (h : r ∈ t.rows) {g : ρ → ρ}
    {hg : ∀ r, key (g r) = key r} (hsame : f r = g r) :
    t.modify (key r) f hf = t.modify (key r) g hg := by
  have hrows : (t.modify (key r) f hf).rows = (t.modify (key r) g hg).rows := by
    simp only [modify, rows_update]
    refine List.map_congr_left fun r' hr' ↦ ?_
    by_cases hk : key r' = key r
    · obtain rfl := t.eq_of_key hr' h hk
      simp [hsame]
    · simp [hk]
  cases h' : t.modify (key r) f hf
  cases h'' : t.modify (key r) g hg
  rw [h', h''] at hrows
  cases hrows
  rfl

/-- An update that leaves its row alone leaves the table alone. -/
theorem modify_eq_self {t : Table key} {r : ρ} (h : r ∈ t.rows) (hsame : f r = r) :
    t.modify (key r) f hf = t := by
  have hrows : (t.modify (key r) f hf).rows = t.rows := by
    rw [modify, rows_update]
    refine (List.map_congr_left fun r' hr' ↦ ?_).trans (List.map_id _)
    by_cases hk : key r' = key r
    · obtain rfl := t.eq_of_key hr' h hk
      simp [hsame]
    · simp [hk]
  cases t
  cases h' : Table.modify _ _ f hf with
  | mk rows nodup =>
    rw [h'] at hrows
    cases hrows
    rfl

/-- The rows are as they were but for `r`, which has become `r'`. -/
def Replaces (t t' : Table key) (r r' : ρ) : Prop :=
  key r' = key r ∧ ∀ x, x ∈ t'.rows ↔ (x ∈ t.rows ∧ key x ≠ key r) ∨ x = r'

theorem replaces_modify {t : Table key} {r : ρ} (h : r ∈ t.rows) :
    t.Replaces (t.modify (key r) f hf) r (f r) :=
  ⟨hf r, fun _ ↦ mem_modify_of_mem h⟩

omit [DecidableEq κ] in
theorem replaces_refl {t : Table key} {r : ρ} (h : r ∈ t.rows) : t.Replaces t r r := by
  refine ⟨rfl, fun x ↦ ⟨fun hx ↦ ?_, ?_⟩⟩
  · by_cases hk : key x = key r
    · exact Or.inr (t.eq_of_key hx h hk)
    · exact Or.inl ⟨hx, hk⟩
  · rintro (⟨hx, -⟩ | rfl)
    · exact hx
    · exact h

omit [DecidableEq κ] in
theorem Replaces.trans {t t' t'' : Table key} {r r' r'' : ρ} (h : t.Replaces t' r r')
    (h' : t'.Replaces t'' r' r'') : t.Replaces t'' r r'' := by
  refine ⟨h'.1.trans h.1, fun x ↦ ?_⟩
  rw [h'.2, h.2, h.1]
  constructor
  · rintro (⟨hx | rfl, hk⟩ | rfl)
    · exact Or.inl ⟨hx.1, hk⟩
    · exact absurd h.1 hk
    · exact Or.inr rfl
  · rintro (⟨hx, hk⟩ | rfl)
    · exact Or.inl ⟨Or.inl ⟨hx, hk⟩, hk⟩
    · exact Or.inr rfl

omit [DecidableEq κ] in
theorem Replaces.mem {t t' : Table key} {r r' : ρ} (h : t.Replaces t' r r') : r' ∈ t'.rows :=
  (h.2 r').mpr (Or.inr rfl)

/-- A search for something an update does not change finds the same row, updated. -/
theorem find?_rows_modify {t : Table key} {k : κ} {q : ρ → Bool} (hq : ∀ r, q (f r) = q r) :
    (t.modify k f hf).rows.find? q =
      (t.rows.find? q).map fun r ↦ if key r = k then f r else r := by
  have hqr : ∀ r, q (if decide (key r = k) then f r else r) = q r := by
    intro r
    split
    · exact hq r
    · rfl
  rw [modify, rows_update]
  induction t.rows with
  | nil => rfl
  | cons r rows ih =>
    rw [List.map_cons, List.find?_cons, List.find?_cons, hqr, ih]
    cases q r with
    | false => rfl
    | true => simp

/-! ## Deleting -/

/-- The rows with other keys. -/
def delete (t : Table key) (k : κ) : Table key :=
  ⟨t.rows.filter fun r ↦ key r ≠ k, t.nodup.sublist (List.filter_sublist.map key)⟩

/-- The sum of `w` over the rows. -/
def sumBy (t : Table key) (w : ρ → ℤ) : ℤ := (t.rows.map w).sum

omit [DecidableEq κ] in
theorem sumBy_of_rows_append {t t' : Table key} {l : List ρ} (h : t'.rows = t.rows ++ l)
    (w : ρ → ℤ) : t'.sumBy w = t.sumBy w + (l.map w).sum := by
  simp [sumBy, h]

omit [DecidableEq κ] in
theorem sumBy_le_sumBy {t : Table key} {w w' : ρ → ℤ} (h : ∀ r ∈ t.rows, w r ≤ w' r) :
    t.sumBy w ≤ t.sumBy w' := List.sum_le_sum h

omit [DecidableEq κ] in
theorem sumBy_nonneg {t : Table key} {w : ρ → ℤ} (h : ∀ r ∈ t.rows, 0 ≤ w r) :
    0 ≤ t.sumBy w := by
  refine List.sum_nonneg fun x hx ↦ ?_
  obtain ⟨r, hr, rfl⟩ := List.mem_map.mp hx
  exact h r hr

omit [DecidableEq κ] in
/-- The sum after an update, row by row. -/
theorem sumBy_update (t : Table key) (w : ρ → ℤ) :
    (t.update p f hf).sumBy w = t.sumBy fun r ↦ if p r then w (f r) else w r := by
  simp only [sumBy, rows_update, List.map_map]
  congr 1
  refine List.map_congr_left fun r _ ↦ ?_
  by_cases h : p r <;> simp [h]

/-- Changing one row changes the sum by what that row changed. -/
theorem sumBy_modify {t : Table key} {r : ρ} (h : r ∈ t.rows) (w : ρ → ℤ) :
    (t.modify (key r) f hf).sumBy w = t.sumBy w - w r + w (f r) := by
  have key_lemma : ∀ rows : List ρ, (rows.map key).Nodup → r ∈ rows →
      (rows.map fun r' ↦ if decide (key r' = key r) then w (f r') else w r').sum =
        (rows.map w).sum - w r + w (f r) := by
    intro rows hnd hr
    induction rows with
    | nil => cases hr
    | cons r' rows ih =>
      rw [List.map_cons, List.nodup_cons] at hnd
      rcases List.mem_cons.mp hr with rfl | hr'
      · have hrest : (rows.map fun r' ↦ if decide (key r' = key r) then w (f r') else w r')
            = rows.map w := by
          refine List.map_congr_left fun r' hr' ↦ ?_
          have : key r' ≠ key r := fun he ↦ hnd.1 (he ▸ List.mem_map_of_mem hr')
          simp [this]
        simp only [List.map_cons, List.sum_cons, hrest, decide_true, if_true]
        abel
      · have hne : key r' ≠ key r := fun he ↦ hnd.1 (he ▸ List.mem_map_of_mem hr')
        simp only [List.map_cons, List.sum_cons, ih hnd.2 hr', hne, decide_false,
          Bool.false_eq_true, if_false]
        abel
  rw [modify, sumBy_update]
  exact key_lemma t.rows t.nodup h

end Table

/-! ## Writing a copy back -/

section Copies

variable {β : Type u} [DecidableEq β]

/-- A column that was changed in the copy is written, another keeps what the row has. -/
def written (seen new current : β) : β := if new = seen then current else new

@[simp] theorem written_same (seen current : β) : written seen seen current = current := if_pos rfl

@[simp] theorem written_current (current new : β) : written current new current = new := by
  unfold written
  split
  · rename_i h
    exact h.symm
  · rfl

/-- A column says what the row said, or what was written. -/
theorem written_cases (seen new current : β) :
    (new = seen ∧ written seen new current = current) ∨
      (new ≠ seen ∧ written seen new current = new) := by
  unfold written
  split
  · rename_i h
    exact Or.inl ⟨h, rfl⟩
  · rename_i h
    exact Or.inr ⟨h, rfl⟩

end Copies

/-! ## Further unique indexes

A partial unique index: among the rows that have a value under it, no two share
that value. -/

section Index

variable {ι : Type*} {idx : ρ → Option ι}

/-- Rows with one value under `idx` are one row. -/
def Unique (idx : ρ → Option ι) (rows : List ρ) : Prop :=
  ∀ r ∈ rows, ∀ r' ∈ rows, ∀ i, idx r = some i → idx r' = some i → r = r'

/-- The index refuses `r`: one of the rows has its value. -/
def Taken (idx : ρ → Option ι) (rows : List ρ) (r : ρ) : Prop :=
  ∃ r' ∈ rows, idx r' = idx r ∧ (idx r).isSome

instance Taken.decidable [DecidableEq ι] (rows : List ρ) (r : ρ) : Decidable (Taken idx rows r) :=
  inferInstanceAs (Decidable (∃ r' ∈ rows, _))

theorem not_taken {rows : List ρ} {r : ρ} (h : ¬ Taken idx rows r) {r' : ρ} (hr' : r' ∈ rows)
    {i : ι} (hi : idx r = some i) : idx r' ≠ some i := fun hi' ↦
  h ⟨r', hr', by rw [hi, hi'], by rw [hi]; rfl⟩

/-- Appending a row the index does not refuse keeps it unique. -/
theorem Unique.append {rows : List ρ} {r : ρ} (h : Unique idx rows) (hr : ¬ Taken idx rows r) :
    Unique idx (rows ++ [r]) := by
  intro r₁ h₁ r₂ h₂ i hi₁ hi₂
  rcases List.mem_append.mp h₁ with m₁ | m₁ <;> rcases List.mem_append.mp h₂ with m₂ | m₂
  · exact h r₁ m₁ r₂ m₂ i hi₁ hi₂
  · obtain rfl := List.mem_singleton.mp m₂
    exact absurd hi₁ (not_taken hr m₁ hi₂)
  · obtain rfl := List.mem_singleton.mp m₁
    exact absurd hi₂ (not_taken hr m₂ hi₁)
  · rw [List.mem_singleton.mp m₁, List.mem_singleton.mp m₂]

/-- Rows without a value under the index leave it unique. -/
theorem Unique.append_of_none {rows l : List ρ} (h : Unique idx rows)
    (hl : ∀ r ∈ l, idx r = none) : Unique idx (rows ++ l) := by
  have hold : ∀ r ∈ rows ++ l, ∀ i, idx r = some i → r ∈ rows := by
    intro r hr i hi
    rcases List.mem_append.mp hr with hr | hr
    · exact hr
    · rw [hl r hr] at hi
      cases hi
  intro r hr r' hr' i hi hi'
  exact h r (hold r hr i hi) r' (hold r' hr' i hi') i hi hi'

/-- Changing one row to a value no other row has keeps the index unique. -/
theorem Unique.modify [DecidableEq κ] {key : ρ → κ} {t : Table key} {r : ρ} {f : ρ → ρ}
    {hf : ∀ r, key (f r) = key r} (h : Unique idx t.rows) (hr : r ∈ t.rows)
    (hfresh : ∀ i, idx (f r) = some i → ∀ r' ∈ t.rows, key r' ≠ key r → idx r' ≠ some i) :
    Unique idx (t.modify (key r) f hf).rows := by
  intro r₁ h₁ r₂ h₂ i hi₁ hi₂
  rcases (Table.mem_modify_of_mem hr).mp h₁ with ⟨h₁, hk₁⟩ | rfl <;>
    rcases (Table.mem_modify_of_mem hr).mp h₂ with ⟨h₂, hk₂⟩ | rfl
  · exact h r₁ h₁ r₂ h₂ i hi₁ hi₂
  · exact absurd hi₁ (hfresh i hi₂ r₁ h₁ hk₁)
  · exact absurd hi₂ (hfresh i hi₁ r₂ h₂ hk₂)
  · rfl

/-- Looking a value up in a unique index finds the row that has it. -/
theorem Unique.find?_eq_some [DecidableEq ι] {rows : List ρ} (h : Unique idx rows) {r : ρ}
    {i : ι} : rows.find? (fun r' ↦ idx r' = some i) = some r ↔ r ∈ rows ∧ idx r = some i := by
  constructor
  · intro hfind
    exact ⟨List.mem_of_find?_eq_some hfind, by simpa using List.find?_some hfind⟩
  · rintro ⟨hr, hi⟩
    cases hfind : rows.find? (fun r' ↦ idx r' = some i) with
    | none => exact absurd hi (by simpa using List.find?_eq_none.mp hfind r hr)
    | some r' =>
      have hi' : idx r' = some i := by simpa using List.find?_some hfind
      rw [h r' (List.mem_of_find?_eq_some hfind) r hr i hi' hi]

end Index

end Conjectures.Lib

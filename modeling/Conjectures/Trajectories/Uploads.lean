import Conjectures.Lib.Tally
import Conjectures.Trajectories.Quota

/-!
# An upload in parts

`submission_api/trajectory_uploads.py`.  However parts are sent, sent again and sent out of order,
the stored parts of an upload lie one behind the other at the multiples of `CHUNK_BYTES` and end
where the counter stands (`Partitioned`); what is stored stays as it is (`Grows`), and what is read
is all of it in order.
-/

namespace Conjectures.Trajectories

open Lib Db

/-! ## The parts -/

def partBytes (parts : List (ℕ × Bytes)) : ℕ := (parts.map fun p ↦ p.2.length).sum

@[simp] theorem partBytes_append (parts parts' : List (ℕ × Bytes)) :
    partBytes (parts ++ parts') = partBytes parts + partBytes parts' := by
  unfold partBytes
  rw [List.map_append, List.sum_append]

@[simp] theorem partBytes_singleton (p : ℕ × Bytes) : partBytes [p] = p.2.length := by
  simp [partBytes]

theorem length_flatMap_parts (parts : List (ℕ × Bytes)) :
    (parts.flatMap Prod.snd).length = partBytes parts := by
  rw [List.length_flatMap, partBytes]

/-- The parts of an upload are one behind the other, each under the offset where it begins, and
they end where the counter stands. -/
structure Partitioned (u : TrajectoryUpload) : Prop where
  offsets : u.parts.map Prod.fst = (List.range u.parts.length).map (· * chunkBytes)
  adjacent : ∀ before p after, u.parts = before ++ p :: after → p.1 = partBytes before
  sizes : ∀ p ∈ u.parts, p.1 < u.byteLength ∧ p.2.length = min chunkBytes (u.byteLength - p.1)
  received : u.receivedBytes = partBytes u.parts
  filled : u.receivedBytes = min (u.parts.length * chunkBytes) u.byteLength

section Parts

variable {u : TrajectoryUpload} {offset : ℕ} {raw : Bytes}

theorem partitioned_new (u : TrajectoryUpload) (hparts : u.parts = [])
    (hreceived : u.receivedBytes = 0) : Partitioned u where
  offsets := by rw [hparts]; rfl
  adjacent := fun before p after h ↦ by simp [hparts] at h
  sizes := fun p hp ↦ by simp [hparts] at hp
  received := by rw [hparts, hreceived]; rfl
  filled := by simp [hparts, hreceived]

/-- The next part goes behind the others. -/
theorem Partitioned.appended (h : Partitioned u) (hoffset : offset = u.receivedBytes)
    (hmore : offset < u.byteLength)
    (hraw : raw.length = min chunkBytes (u.byteLength - offset)) :
    Partitioned (TrajectoryUpload.appended offset raw u) := by
  have hfilled := h.filled
  -- the parts before are full, or the upload would be complete
  have hat : offset = u.parts.length * chunkBytes := by omega
  refine ⟨?_, fun before p after hsplit ↦ ?_, fun p hp ↦ ?_, ?_, ?_⟩
  · change (u.parts ++ [(offset, raw)]).map Prod.fst = _
    rw [List.map_append, h.offsets, TrajectoryUpload.appended, List.length_append,
      List.length_singleton, List.range_succ, List.map_append, List.map_singleton,
      List.map_singleton, hat]
  · change u.parts ++ [(offset, raw)] = before ++ p :: after at hsplit
    rcases List.eq_nil_or_concat after with rfl | ⟨after, last, rfl⟩
    · obtain ⟨hbefore, hp⟩ := List.append_inj' hsplit rfl
      cases hp
      rw [← hbefore, hoffset, h.received]
    · have hinit : u.parts ++ [(offset, raw)] = (before ++ p :: after) ++ [last] := by
        rw [hsplit]
        simp
      exact h.adjacent before p after (List.append_inj' hinit rfl).1
  · rcases List.mem_append.mp hp with hp | hp
    · exact h.sizes p hp
    · rw [List.mem_singleton.mp hp]
      exact ⟨hmore, hraw⟩
  · change u.receivedBytes + raw.length = partBytes (u.parts ++ [(offset, raw)])
    rw [partBytes_append, partBytes_singleton, h.received]
  · change u.receivedBytes + raw.length = min ((u.parts ++ [(offset, raw)]).length * chunkBytes) _
    rw [List.length_append, List.length_singleton, Nat.succ_mul, hraw]
    change _ = min _ u.byteLength
    omega

/-- No two parts are stored under one offset. -/
theorem Partitioned.distinctKeys (h : Partitioned u) : DistinctKeys u.parts := by
  unfold DistinctKeys
  rw [h.offsets]
  exact List.nodup_range.map fun i j hij ↦ Nat.eq_of_mul_eq_mul_right (by decide) hij

/-- A part that is stored lies before the counter. -/
theorem Partitioned.offset_lt (h : Partitioned u) (hp : (offset, raw) ∈ u.parts) :
    offset < u.receivedBytes ∧ offset % chunkBytes = 0 := by
  obtain ⟨before, after, hsplit⟩ := List.append_of_mem hp
  have hstart := h.adjacent before _ after hsplit
  obtain ⟨hlt, hlen⟩ := h.sizes _ hp
  have hreceived := h.received
  rw [hsplit, ← List.singleton_append, partBytes_append, partBytes_append,
    partBytes_singleton] at hreceived
  have hchunk : 0 < chunkBytes := by decide
  refine ⟨by dsimp only at *; omega, ?_⟩
  have hmem : offset ∈ u.parts.map Prod.fst := List.mem_map_of_mem hp
  rw [h.offsets] at hmem
  obtain ⟨i, -, rfl⟩ := List.mem_map.mp hmem
  exact Nat.mul_mod_left i chunkBytes

end Parts

/-! ## One request -/

section Requests

variable {db db' : TrajectoryStore} {u : TrajectoryUpload} {accountId uploadId : Uuid}
  {offset free received : ℕ} {raw : Bytes} {now : Instant}

/-- The upload is the account's and has not expired. -/
def Live (u : TrajectoryUpload) (accountId : Uuid) (now : Instant) : Prop :=
  u.accountId = accountId ∧ now < u.expiresAt

theorem ownedUpload_ok (hu : u ∈ db.uploads.rows) (hlive : Live u accountId now) :
    ownedUpload db u.id accountId now = .ok u := by
  have hfind : db.uploads.find? u.id = some u := Table.find?_eq_some.mpr ⟨hu, rfl⟩
  simp only [ownedUpload, bind_eq_ok, require_eq_ok, need_eq_ok]
  exact ⟨u, hfind, (), hlive, rfl⟩

theorem ownedUpload_eq_ok :
    ownedUpload db uploadId accountId now = .ok u ↔
      u ∈ db.uploads.rows ∧ u.id = uploadId ∧ Live u accountId now := by
  constructor
  · intro h
    simp only [ownedUpload, bind_eq_ok, require_eq_ok, need_eq_ok, Table.find?_eq_some] at h
    obtain ⟨u', ⟨hu, hid⟩, _, hlive, h⟩ := h
    cases h
    exact ⟨hu, hid, hlive⟩
  · rintro ⟨hu, rfl, hlive⟩
    exact ownedUpload_ok hu hlive

/-- The upload with the next part. -/
def withPart (db : TrajectoryStore) (u : TrajectoryUpload) (offset : ℕ) (raw : Bytes) :
    TrajectoryStore :=
  let uploads := db.uploads.modify u.id (TrajectoryUpload.appended offset raw)
    (TrajectoryUpload.appended_id offset raw)
  { db with uploads }

/-- What an append leaves: the upload as it was, for a part that was stored before, or the upload
with the next part. -/
theorem append_cases
    (h : append uploadId accountId offset raw free now db = .ok (received, db')) :
    ∃ u ∈ db.uploads.rows, u.id = uploadId ∧ Live u accountId now ∧
      ((offset < u.receivedBytes ∧ u.parts.lookup offset = some raw ∧ received = u.receivedBytes ∧
          db' = db) ∨
        (offset = u.receivedBytes ∧ offset < u.byteLength ∧
          raw.length = min chunkBytes (u.byteLength - offset) ∧
          received = u.receivedBytes + raw.length ∧
          db' = withPart db u offset raw)) := by
  simp only [append, requireScratchSpace, bind_eq_ok, require_eq_ok, ownedUpload_eq_ok] at h
  obtain ⟨u, ⟨hu, hid, hlive⟩, _, -, _, ⟨-, hmore, hraw⟩, h⟩ := h
  refine ⟨u, hu, hid, hlive, ?_⟩
  split at h
  · rename_i hlt
    simp only [bind_eq_ok, require_eq_ok] at h
    obtain ⟨_, hsame, h⟩ := h
    cases h
    exact Or.inl ⟨hlt, hsame, rfl, rfl⟩
  · simp only [bind_eq_ok, require_eq_ok] at h
    obtain ⟨_, hnext, h⟩ := h
    cases h
    exact Or.inr ⟨hnext, hmore, hraw, rfl, rfl⟩

/-- A part that is stored may be sent again: nothing changes. -/
theorem append_again (hu : u ∈ db.uploads.rows) (hpart : Partitioned u)
    (hlive : Live u accountId now) (hstored : (offset, raw) ∈ u.parts)
    (hfree : raw.length + scratchReserve ≤ free) :
    append u.id accountId offset raw free now db = .ok (u.receivedBytes, db) := by
  obtain ⟨hlt, hmod⟩ := hpart.offset_lt hstored
  obtain ⟨hmore, hraw⟩ := hpart.sizes _ hstored
  have hsame : u.parts.lookup offset = some raw :=
    (lookup_eq_some_iff hpart.distinctKeys).mpr hstored
  simp only [append, requireScratchSpace, bind_eq_ok, require_eq_ok]
  refine ⟨u, ownedUpload_ok hu hlive, (), hfree, (), ⟨hmod, hmore, hraw⟩, ?_⟩
  rw [if_pos hlt]
  simp only [bind_eq_ok, require_eq_ok]
  exact ⟨(), hsame, rfl⟩

/-- The next part is taken. -/
theorem append_next (hu : u ∈ db.uploads.rows) (hpart : Partitioned u)
    (hlive : Live u accountId now) (hmore : u.receivedBytes < u.byteLength)
    (hraw : raw.length = min chunkBytes (u.byteLength - u.receivedBytes))
    (hfree : raw.length + scratchReserve ≤ free) :
    append u.id accountId u.receivedBytes raw free now db =
      .ok (u.receivedBytes + raw.length, withPart db u u.receivedBytes raw) := by
  have hmod : u.receivedBytes % chunkBytes = 0 := by
    have hfilled := hpart.filled
    have hat : u.receivedBytes = u.parts.length * chunkBytes := by omega
    rw [hat]
    exact Nat.mul_mod_left _ _
  simp only [append, requireScratchSpace, bind_eq_ok, require_eq_ok]
  refine ⟨u, ownedUpload_ok hu hlive, (), hfree, (), ⟨hmod, hmore, hraw⟩, ?_⟩
  rw [if_neg (lt_irrefl _)]
  simp only [bind_eq_ok, require_eq_ok]
  exact ⟨(), trivial, rfl⟩

/-- A part that differs from the stored one, or lies beyond the next, is refused. -/
theorem append_refused (hu : u ∈ db.uploads.rows) (hpart : Partitioned u)
    (hwrong : (∃ stored, (offset, stored) ∈ u.parts ∧ stored ≠ raw) ∨ u.receivedBytes < offset) :
    ∃ e, append u.id accountId offset raw free now db = .error e := by
  cases h : append u.id accountId offset raw free now db with
  | error e => exact ⟨e, rfl⟩
  | ok out =>
    obtain ⟨u', hu', hid, -, hcases⟩ := append_cases h
    obtain rfl : u' = u := db.uploads.eq_of_key hu' hu hid
    rcases hwrong with ⟨stored, hstored, hne⟩ | hbeyond
    · have hlookup := (lookup_eq_some_iff hpart.distinctKeys).mpr hstored
      obtain ⟨hlt, -⟩ := hpart.offset_lt hstored
      rcases hcases with ⟨-, hsame, -⟩ | ⟨hnext, -⟩
      · exact absurd (Option.some.inj (hlookup.symm.trans hsame)) hne
      · omega
    · rcases hcases with ⟨hlt, -⟩ | ⟨hnext, -⟩ <;> omega

/-- What the loop of `read` puts together, once the parts before are read. -/
theorem readParts_ok {free : ℕ → ℕ} (hpart : Partitioned u)
    (hfull : u.receivedBytes = u.byteLength) {before rest : List (ℕ × Bytes)}
    (hparts : u.parts = before ++ rest) {n : ℕ} (hn : u.byteLength - partBytes before ≤ n)
    {content : Bytes} (h : readParts free u n (partBytes before) = .ok content) :
    content = rest.flatMap Prod.snd := by
  induction rest generalizing before n content with
  | nil =>
    have hdone : u.byteLength ≤ partBytes before := by
      rw [← hfull, hpart.received, hparts, List.append_nil]
    cases n with
    | zero => cases h; rfl
    | succ n =>
      rw [readParts, if_pos hdone] at h
      cases h
      rfl
  | cons p rest ih =>
    have hstart := hpart.adjacent before p rest hparts
    have hmem : p ∈ u.parts := hparts ▸ List.mem_append_right _ List.mem_cons_self
    obtain ⟨hmore, hlen⟩ := hpart.sizes p hmem
    have hlookup : u.parts.lookup (partBytes before) = some p.2 :=
      (lookup_eq_some_iff hpart.distinctKeys).mpr (by rw [← hstart]; exact hmem)
    have hchunk : 0 < chunkBytes := by decide
    cases n with
    | zero => omega
    | succ n =>
      rw [readParts, if_neg (by omega)] at h
      simp only [requireScratchSpace, bind_eq_ok, require_eq_ok, need_eq_ok, hlookup] at h
      obtain ⟨data, hdata, _, -, _, -, more, hmore', h⟩ := h
      cases hdata
      cases h
      have hnext : partBytes before + p.2.length = partBytes (before ++ [p]) := by
        rw [partBytes_append, partBytes_singleton]
      rw [hnext] at hmore'
      rw [List.flatMap_cons, ih (by rw [hparts, List.append_assoc]; rfl) (by omega) hmore']

/-- What `read` returns: all the parts, in order. -/
theorem read_ok {free : Option ℕ → ℕ} {r : Received} (hall : ∀ u ∈ db.uploads.rows, Partitioned u)
    (h : read db uploadId accountId free now = .ok r) :
    ∃ u ∈ db.uploads.rows, u.id = uploadId ∧ Live u accountId now ∧
      r.content = u.parts.flatMap Prod.snd ∧ r.content.length = u.byteLength := by
  simp only [read, requireScratchSpace, bind_eq_ok, require_eq_ok, ownedUpload_eq_ok] at h
  obtain ⟨u, ⟨hu, hid, hlive⟩, _, hfull, _, -, content, hcontent, h⟩ := h
  cases h
  have hpart := hall u hu
  have hread := readParts_ok hpart hfull (List.nil_append _).symm le_rfl hcontent
  refine ⟨u, hu, hid, hlive, hread, ?_⟩
  rw [hread, length_flatMap_parts, ← hpart.received, hfull]

theorem exists_readParts {free : ℕ → ℕ} (hpart : Partitioned u)
    (hfree : ∀ offset, chunkBytes + scratchReserve ≤ free offset)
    {before rest : List (ℕ × Bytes)} (hparts : u.parts = before ++ rest)
    (hfull : u.receivedBytes = u.byteLength) (n : ℕ) :
    ∃ content, readParts free u n (partBytes before) = .ok content := by
  induction rest generalizing before n with
  | nil =>
    have hdone : u.byteLength ≤ partBytes before := by
      rw [← hfull, hpart.received, hparts, List.append_nil]
    cases n with
    | zero => exact ⟨[], rfl⟩
    | succ n => exact ⟨[], by rw [readParts, if_pos hdone]⟩
  | cons p rest ih =>
    have hstart := hpart.adjacent before p rest hparts
    have hmem : p ∈ u.parts := hparts ▸ List.mem_append_right _ List.mem_cons_self
    obtain ⟨hmore, hlen⟩ := hpart.sizes p hmem
    have hlookup : u.parts.lookup (partBytes before) = some p.2 :=
      (lookup_eq_some_iff hpart.distinctKeys).mpr (by rw [← hstart]; exact hmem)
    cases n with
    | zero => exact ⟨[], rfl⟩
    | succ n =>
      obtain ⟨content, hcontent⟩ := @ih (before ++ [p]) (by simp [hparts]) n
      rw [partBytes_append, partBytes_singleton] at hcontent
      have hroom : p.2.length + scratchReserve ≤ free (partBytes before) :=
        (Nat.add_le_add_right (hlen.trans_le (min_le_left _ _)) _).trans (hfree _)
      refine ⟨p.2 ++ content, ?_⟩
      rw [readParts, if_neg (by omega)]
      simp only [requireScratchSpace, bind_eq_ok, require_eq_ok, need_eq_ok, hlookup]
      exact ⟨p.2, rfl, (), by rw [hlen, hstart], (), hroom, content, hcontent, rfl⟩

/-- A complete upload is read, if there is room for it on the scratch disk. -/
theorem exists_read {free : Option ℕ → ℕ} (hu : u ∈ db.uploads.rows) (hpart : Partitioned u)
    (hlive : Live u accountId now) (hfull : u.receivedBytes = u.byteLength)
    (hroom : u.byteLength + scratchReserve ≤ free none)
    (hfree : ∀ offset, chunkBytes + scratchReserve ≤ free (some offset)) :
    ∃ r, read db u.id accountId free now = .ok r := by
  obtain ⟨content, hcontent⟩ :=
    exists_readParts hpart hfree (List.nil_append u.parts).symm hfull u.byteLength
  refine ⟨⟨accountId, content, some u.id⟩, ?_⟩
  simp only [read, requireScratchSpace, bind_eq_ok, require_eq_ok]
  exact ⟨u, ownedUpload_ok hu hlive, (), hfull, (), hroom, content, hcontent, rfl⟩

end Requests

/-! ## Every run -/

/-- One upload before and after: what is stored of it stays where it is. -/
structure Grows (u u' : TrajectoryUpload) : Prop where
  id : u'.id = u.id
  account : u'.accountId = u.accountId
  byteLength : u'.byteLength = u.byteLength
  expires : u'.expiresAt = u.expiresAt
  parts : u.parts <+: u'.parts

theorem Grows.refl (u : TrajectoryUpload) : Grows u u :=
  ⟨rfl, rfl, rfl, rfl, List.prefix_refl _⟩

theorem Grows.trans {u u' u'' : TrajectoryUpload} (h : Grows u u') (h' : Grows u' u'') :
    Grows u u'' :=
  ⟨h'.id.trans h.id, h'.account.trans h.account, h'.byteLength.trans h.byteLength,
    h'.expires.trans h.expires, h.parts.trans h'.parts⟩

/-- The uploads there are, and the one that is about to be. -/
def Intake.Has (s : Intake) (u : TrajectoryUpload) : Prop :=
  u ∈ s.db.uploads.rows ∨ ∃ t, s.holder = some t ∧ t.written = some (.upload u)

/-- Every upload is partitioned, and the one that is about to be is another. -/
structure Assembled (s : Intake) : Prop extends Within s where
  partitioned : ∀ u, s.Has u → Partitioned u
  other : ∀ t u, s.holder = some t → t.written = some (.upload u) →
    ∀ u' ∈ s.db.uploads.rows, u'.id ≠ u.id

/-- What a step does to the uploads: one that it leaves was there before, with no more parts, or
was issued since. -/
structure Follows (s s' : Intake) : Prop where
  issued : s.issued ⊆ s'.issued
  uploads : ∀ u', s'.Has u' → (∃ u, s.Has u ∧ Grows u u') ∨ u'.id ∉ s.issued.map Prod.fst

theorem Follows.refl (s : Intake) : Follows s s :=
  ⟨List.Subset.refl _, fun u hu ↦ Or.inl ⟨u, hu, .refl u⟩⟩

theorem Follows.trans {s s' s'' : Intake} (h : Follows s s') (h' : Follows s' s'') :
    Follows s s'' := by
  refine ⟨List.Subset.trans h.issued h'.issued, fun u'' hu'' ↦ ?_⟩
  rcases h'.uploads u'' hu'' with ⟨u', hu', hgrows'⟩ | hfresh
  · rcases h.uploads u' hu' with ⟨u, hu, hgrows⟩ | hfresh
    · exact Or.inl ⟨u, hu, hgrows.trans hgrows'⟩
    · exact Or.inr (hgrows'.id ▸ hfresh)
  · exact Or.inr fun hold ↦ hfresh ((List.map_subset _ h.issued) hold)

/-- The step leaves every upload as it was, if it leaves it. -/
theorem follows_of_has {s s' : Intake} (hissued : s'.issued = s.issued)
    (hhas : ∀ u, s'.Has u → s.Has u) : Follows s s' :=
  ⟨by rw [hissued]; exact List.Subset.refl _, fun u hu ↦ Or.inl ⟨u, hhas u hu, .refl u⟩⟩

/-- Steps that leave no upload that was not there, and begin none. -/
theorem Assembled.shrinks {s s' : Intake} (h : Assembled s) (hwithin : Within s')
    (hissued : s'.issued = s.issued)
    (hdb : ∀ u ∈ s'.db.uploads.rows, u ∈ s.db.uploads.rows)
    (hholder : ∀ t u, s'.holder = some t → t.written = some (.upload u) → s.holder = some t) :
    Assembled s' ∧ Follows s s' := by
  have hhas : ∀ u, s'.Has u → s.Has u := by
    rintro u (hu | ⟨t, ht, hu⟩)
    · exact Or.inl (hdb u hu)
    · exact Or.inr ⟨t, hholder t u ht hu, hu⟩
  refine ⟨⟨hwithin, fun u hu ↦ h.partitioned u (hhas u hu), fun t u ht hu u' hu' ↦ ?_⟩,
    follows_of_has hissued hhas⟩
  exact h.other t u (hholder t u ht hu) hu u' (hdb u' hu')

/-- A transaction that begins no upload takes the lock. -/
theorem Assembled.locks {s : Intake} {t : TrajectoryStore → Except TrajectoryError Uncommitted}
    (h : Assembled s) (hwithin : Within (s.lock t))
    (hnone : ∀ t' u, t s.db = .ok t' → t'.written ≠ some (.upload u)) :
    Assembled (s.lock t) ∧ Follows s (s.lock t) := by
  unfold Intake.lock at *
  cases hholder : s.holder with
  | some t' =>
    rw [hholder] at hwithin
    exact ⟨h, .refl s⟩
  | none =>
    rw [hholder] at hwithin
    refine h.shrinks hwithin rfl (fun u hu ↦ hu) fun t' u ht' hu ↦ ?_
    cases ht : t s.db with
    | error e => rw [ht] at ht'; cases ht'
    | ok t'' =>
      rw [ht] at ht'
      cases ht'
      exact absurd hu (hnone _ u ht)

theorem deleteUploads_subset (db : TrajectoryStore) (p : TrajectoryUpload → Bool) :
    ∀ u ∈ (deleteUploads db p).uploads.rows, u ∈ db.uploads.rows :=
  fun _ hu ↦ (deleteUploads_sublist db p).subset hu

/-- What a start is about to write is a new upload without parts. -/
theorem start_spec {accountId : Uuid} {byteLength : ℕ} {id : Uuid} {now : Instant}
    {db : TrajectoryStore} {t : Uncommitted} {u : TrajectoryUpload}
    (h : start accountId byteLength id now db = .ok t) (ht : t.written = some (.upload u)) :
    u.id = id ∧ u.parts = [] ∧ u.receivedBytes = 0 := by
  simp only [start, bind_eq_ok, require_eq_ok] at h
  obtain ⟨_, -, _, -, _, -, h⟩ := h
  cases h
  cases ht
  exact ⟨rfl, rfl, rfl⟩

/-- A start takes the lock, and is about to write an upload under an id that was not issued. -/
theorem Assembled.starts {s : Intake} {accountId : Uuid} {byteLength : ℕ} {id : Uuid}
    {now : Instant} (h : Assembled s) (hfresh : id ∉ s.issued.map Prod.fst) :
    ∀ s', s' = { s with issued := (id, accountId) :: s.issued }.lock
        (start accountId byteLength id now) → Within s' → Assembled s' ∧ Follows s s' := by
  intro s' hs' hwithin
  have hdb : s'.db = s.db := by
    rw [hs']
    unfold Intake.lock
    split <;> rfl
  have hissued : s.issued ⊆ s'.issued := by
    rw [hs']
    unfold Intake.lock
    split <;> exact List.subset_cons_self _ _
  have hholder : ∀ t u, s'.holder = some t → t.written = some (.upload u) →
      s.holder = some t ∨ (u.id = id ∧ Partitioned u) := by
    intro t u ht hu
    rw [hs'] at ht
    unfold Intake.lock at ht
    dsimp only at ht
    split at ht
    · exact Or.inl ht
    · cases hstart : start accountId byteLength id now s.db with
      | error e => rw [hstart] at ht; cases ht
      | ok t =>
        rw [hstart] at ht
        cases ht
        obtain ⟨hid, hparts, hreceived⟩ := start_spec hstart hu
        exact Or.inr ⟨hid, partitioned_new u hparts hreceived⟩
  have hhas : ∀ u, s'.Has u → s.Has u ∨ (u.id = id ∧ Partitioned u) := by
    rintro u (hu | ⟨t, ht, hu⟩)
    · exact Or.inl (Or.inl (hdb ▸ hu))
    · exact (hholder t u ht hu).imp_left fun hold ↦ Or.inr ⟨t, hold, hu⟩
  refine ⟨⟨hwithin, fun u hu ↦ ?_, fun t u ht hu u' hu' ↦ ?_⟩, ⟨hissued, fun u hu ↦ ?_⟩⟩
  · exact (hhas u hu).elim (h.partitioned u) And.right
  · rw [hdb] at hu'
    rcases hholder t u ht hu with hold | ⟨hid, -⟩
    · exact h.other t u hold hu u' hu'
    · rw [hid]
      exact fun heq ↦ hfresh (heq ▸ List.mem_map_of_mem (h.uploads u' hu'))
  · rcases hhas u hu with hold | ⟨hid, -⟩
    · exact Or.inl ⟨u, hold, .refl u⟩
    · exact Or.inr (hid ▸ hfresh)

/-- The holder of the lock commits: the upload that was about to be is. -/
theorem Assembled.commits {s : Intake} {t : Uncommitted} (h : Assembled s)
    (ht : s.holder = some t) (hwithin : Within { s with db := t.commit s.db, holder := none }) :
    Assembled { s with db := t.commit s.db, holder := none } ∧
      Follows s { s with db := t.commit s.db, holder := none } := by
  have hhas : ∀ u, Intake.Has { s with db := t.commit s.db, holder := none } u → s.Has u := by
    rintro u (hu | ⟨_, hnone, -⟩)
    · obtain ⟨uploads, claims, _ | u' | c⟩ := t
      · exact Or.inl (List.mem_of_mem_filter hu)
      · rcases Table.mem_insertNew.mp hu with hu | ⟨rfl, -⟩
        · exact Or.inl (List.mem_of_mem_filter hu)
        · exact Or.inr ⟨_, ht, rfl⟩
      · exact Or.inl (List.mem_of_mem_filter hu)
    · cases hnone
  exact ⟨⟨hwithin, fun u hu ↦ h.partitioned u (hhas u hu), fun _ _ hnone ↦ nomatch hnone⟩,
    follows_of_has rfl hhas⟩

/-- A part is taken, or changes nothing. -/
theorem Assembled.appends {s : Intake} (h : Assembled s) {uploadId accountId : Uuid} {offset free : ℕ}
    {raw : Bytes} {now : Instant} {received : ℕ} {db' : TrajectoryStore}
    (hok : append uploadId accountId offset raw free now s.db = .ok (received, db'))
    (hwithin : Within { s with db := db' }) :
    Assembled { s with db := db' } ∧ Follows s { s with db := db' } := by
  obtain ⟨u₀, hu₀, -, -, hcases⟩ := append_cases hok
  rcases hcases with ⟨-, -, -, rfl⟩ | ⟨hnext, hmore, hraw, -, rfl⟩
  · exact ⟨h, .refl s⟩
  · have hrow : ∀ u ∈ (withPart s.db u₀ offset raw).uploads.rows,
        u ∈ s.db.uploads.rows ∨ u = TrajectoryUpload.appended offset raw u₀ := by
      intro u hu
      rcases (@Table.mem_modify _ _ _ _ _ (TrajectoryUpload.appended_id offset raw) _ _ _).mp hu
        with ⟨hu, -⟩ | ⟨u₁, hu₁, hid, rfl⟩
      · exact Or.inl hu
      · exact Or.inr (by rw [s.db.uploads.eq_of_key hu₁ hu₀ hid])
    have hpart := (h.partitioned u₀ (Or.inl hu₀)).appended hnext hmore hraw
    have hgrows : Grows u₀ (TrajectoryUpload.appended offset raw u₀) :=
      ⟨rfl, rfl, rfl, rfl, List.prefix_append _ _⟩
    refine ⟨⟨hwithin, ?_, fun t u ht hu u' hu' ↦ ?_⟩, ⟨List.Subset.refl _, ?_⟩⟩
    · rintro u (hu | hpending)
      · rcases hrow u hu with hu | rfl
        · exact h.partitioned u (Or.inl hu)
        · exact hpart
      · exact h.partitioned u (Or.inr hpending)
    · rcases hrow u' hu' with hu' | rfl
      · exact h.other t u ht hu u' hu'
      · exact h.other t u ht hu u₀ hu₀
    · rintro u (hu | hpending)
      · rcases hrow u hu with hu | rfl
        · exact Or.inl ⟨u, Or.inl hu, .refl u⟩
        · exact Or.inl ⟨u₀, Or.inl hu₀, hgrows⟩
      · exact Or.inl ⟨u, Or.inr hpending, .refl u⟩

theorem step_follows (s : Intake) (a : Action) (h : Assembled s) :
    Assembled (step s a) ∧ Follows s (step s a) := by
  have hwithin := step_within s a h.toWithin
  cases a with
  | start accountId byteLength id now =>
    revert hwithin
    simp only [step]
    split
    · exact fun _ ↦ ⟨h, .refl s⟩
    · rename_i hfresh
      exact h.starts hfresh _ rfl
  | deposit claim r now =>
    revert hwithin
    simp only [step]
    split
    · exact fun hwithin ↦ h.locks hwithin fun t u ht ↦ depositPackage_written ht
    · exact fun _ ↦ ⟨h, .refl s⟩
  | revise claim r =>
    revert hwithin
    simp only [step]
    split
    · exact fun hwithin ↦ h.locks hwithin fun t u ht ↦ save_written ht
    · exact fun _ ↦ ⟨h, .refl s⟩
  | commit =>
    revert hwithin
    simp only [step]
    split
    · rename_i t ht
      exact h.commits ht
    · exact fun _ ↦ ⟨h, .refl s⟩
  | rollback => exact h.shrinks hwithin rfl (fun _ hu ↦ hu) fun _ _ hnone ↦ by cases hnone
  | append uploadId accountId offset raw free now =>
    revert hwithin
    simp only [step]
    cases hok : Trajectories.append uploadId accountId offset raw free now s.db with
    | ok out =>
      rw [commit_of_ok hok]
      exact h.appends hok
    | error e =>
      rw [commit_of_error hok]
      exact fun _ ↦ ⟨h, .refl s⟩
  | read uploadId accountId free now =>
    revert hwithin
    simp only [step]
    split <;> exact fun hwithin ↦ h.shrinks hwithin rfl (fun _ hu ↦ hu) fun _ _ ht _ ↦ ht
  | discard uploadId accountId =>
    exact h.shrinks hwithin rfl (deleteUploads_subset _ _) fun _ _ ht _ ↦ ht
  | clear claimId => exact h.shrinks hwithin rfl (fun _ hu ↦ hu) fun _ _ ht _ ↦ ht
  | review claimId submissionId status expiresAt =>
    exact h.shrinks hwithin rfl (fun _ hu ↦ hu) fun _ _ ht _ ↦ ht
  | purgeUploads now =>
    exact h.shrinks hwithin rfl (deleteUploads_subset _ _) fun _ _ ht _ ↦ ht
  | purgeDeposits now => exact h.shrinks hwithin rfl (fun _ hu ↦ hu) fun _ _ ht _ ↦ ht
  | purgeRecords claimIds => exact h.shrinks hwithin rfl (fun _ hu ↦ hu) fun _ _ ht _ ↦ ht

theorem fresh_assembled : Assembled .fresh where
  toWithin := fresh_within
  partitioned := by rintro u (hu | ⟨t, hnone, -⟩) <;> [cases hu; cases hnone]
  other := fun _ _ hnone ↦ nomatch hnone

theorem run_assembled (as : List Action) : Assembled (run step .fresh as) :=
  run_invariant (fun s a h ↦ (step_follows s a h).1) fresh_assembled as

theorem run_follows {s : Intake} (h : Assembled s) (as : List Action) :
    Follows s (run step s as) :=
  run_preorder Follows.refl (fun _ _ _ h h' ↦ h.trans h') (fun s a h ↦ (step_follows s a h).1)
    (fun s a h ↦ (step_follows s a h).2) h as

/-- An upload that is there, and there again later, is the same with no fewer parts. -/
theorem Assembled.grows {s : Intake} (h : Assembled s) {u u' : TrajectoryUpload} {as : List Action}
    (hu : u ∈ s.db.uploads.rows) (hu' : u' ∈ (run step s as).db.uploads.rows)
    (hid : u'.id = u.id) : Grows u u' := by
  rcases (run_follows h as).uploads u' (Or.inl hu') with ⟨u₀, hhas, hgrows⟩ | hfresh
  · have hsame : u₀.id = u.id := hgrows.id.symm.trans hid
    rcases hhas with hu₀ | ⟨t, ht, hwritten⟩
    · rwa [s.db.uploads.eq_of_key hu₀ hu hsame] at hgrows
    · exact absurd hsame.symm (h.other t u₀ ht hwritten u hu)
  · exact absurd (List.mem_map_of_mem (h.uploads u hu)) (hid ▸ hfresh)

/-- However uploads are started, sent in parts, read and discarded: the parts of every upload
partition what is received; whatever comes later, they stay; a part sent again changes nothing, and
succeeds unless the scratch disk is full; a different part, or one beyond the next, is refused; the
next part is taken; and what is read is the parts in order, of the declared length, once they are
complete. -/
theorem uploads_assemble (as : List Action) :
    let s := run step .fresh as
    (∀ u ∈ s.db.uploads.rows, Partitioned u) ∧
      (∀ u ∈ s.db.uploads.rows, ∀ bs, ∀ u' ∈ (run step s bs).db.uploads.rows, u'.id = u.id →
        Grows u u') ∧
      (∀ u ∈ s.db.uploads.rows, ∀ accountId offset raw free now,
        (Live u accountId now → (offset, raw) ∈ u.parts → raw.length + scratchReserve ≤ free →
          append u.id accountId offset raw free now s.db = .ok (u.receivedBytes, s.db)) ∧
        ((offset, raw) ∈ u.parts →
          (step s (.append u.id accountId offset raw free now)).db = s.db) ∧
        ((∃ stored, (offset, stored) ∈ u.parts ∧ stored ≠ raw) ∨ u.receivedBytes < offset →
          (∃ e, append u.id accountId offset raw free now s.db = .error e) ∧
            (step s (.append u.id accountId offset raw free now)).db = s.db) ∧
        (Live u accountId now → u.receivedBytes < u.byteLength →
          raw.length = min chunkBytes (u.byteLength - u.receivedBytes) →
          raw.length + scratchReserve ≤ free →
            append u.id accountId u.receivedBytes raw free now s.db =
              .ok (u.receivedBytes + raw.length, withPart s.db u u.receivedBytes raw))) ∧
      (∀ uploadId accountId free now r, read s.db uploadId accountId free now = .ok r →
        ∃ u ∈ s.db.uploads.rows, u.id = uploadId ∧ Live u accountId now ∧
          r.content = u.parts.flatMap Prod.snd ∧ r.content.length = u.byteLength) ∧
      ∀ u ∈ s.db.uploads.rows, ∀ accountId (free : Option ℕ → ℕ) now, Live u accountId now →
        u.receivedBytes = u.byteLength → u.byteLength + scratchReserve ≤ free none →
          (∀ offset, chunkBytes + scratchReserve ≤ free (some offset)) →
            ∃ r, read s.db u.id accountId free now = .ok r := by
  intro s
  have h : Assembled s := run_assembled as
  have hpartitioned : ∀ u ∈ s.db.uploads.rows, Partitioned u := fun u hu ↦
    h.partitioned u (Or.inl hu)
  refine ⟨hpartitioned, fun u hu bs u' hu' hid ↦ h.grows hu hu' hid,
    fun u hu accountId offset raw free now ↦ ⟨fun hlive hstored hfree ↦ ?_, fun hstored ↦ ?_,
      fun hwrong ↦ ?_, fun hlive hmore hraw hfree ↦ ?_⟩, fun uploadId accountId free now r hr ↦ ?_,
    fun u hu accountId free now hlive hfull hroom hfree ↦ ?_⟩
  · exact append_again hu (hpartitioned u hu) hlive hstored hfree
  · have hpart := hpartitioned u hu
    refine @commit_induction _ _ _ _ _ (fun db ↦ db = s.db) rfl fun received db' hok ↦ ?_
    obtain ⟨u', hu', hid, -, hcases⟩ := append_cases hok
    obtain rfl : u' = u := s.db.uploads.eq_of_key hu' hu hid
    rcases hcases with ⟨-, -, -, rfl⟩ | ⟨hnext, -⟩
    · rfl
    · have hbefore := (hpart.offset_lt hstored).1
      omega
  · obtain ⟨e, he⟩ := @append_refused s.db u accountId offset free raw now hu
      (hpartitioned u hu) hwrong
    exact ⟨⟨e, he⟩, commit_of_error he⟩
  · exact append_next hu (hpartitioned u hu) hlive hmore hraw hfree
  · exact read_ok hpartitioned hr
  · exact exists_read hu (hpartitioned u hu) hlive hfull hroom hfree

/-- Three bytes, in one part that is sent twice. -/
def threeBytes : List Action :=
  [.start 1 3 7 0, .commit, .append 7 1 0 [1, 2, 3] (100 * gibibyte) 0,
    .append 7 1 0 [1, 2, 3] (100 * gibibyte) 0]

theorem uploads_assemble_three_bytes :
    ∃ u ∈ (run step .fresh threeBytes).db.uploads.rows, u.id = 7 ∧ Live u 1 0 ∧
      [1, 2, 3] = u.parts.flatMap Prod.snd ∧ [1, 2, 3].length = u.byteLength := by
  have hread : read (run step .fresh threeBytes).db 7 1 (fun _ ↦ 100 * gibibyte) 0 =
      .ok ⟨1, [1, 2, 3], some 7⟩ := by decide +kernel
  exact (uploads_assemble threeBytes).2.2.2.1 7 1 _ 0 _ hread

end Conjectures.Trajectories

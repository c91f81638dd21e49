import Conjectures.Feeds.Cursors
import Conjectures.Lib.Keyset
import Mathlib.Data.Prod.Lex

/-!
# Feeds

The feeds that are paged by a timestamp among their keys: `ORDER BY created_at DESC, id DESC` of
the proofs, `_by_arrival` and `leaderboard` of the competition.

The queries are not modelled: a feed serves what stands behind a key in its order.  A page is exact
where the timestamp of a cursor comes back as that of its row (`cursors_exact_iff`).
-/

namespace Conjectures.Feeds

open Lib
open OrderDual (toDual)

section

variable {ρ : Type} (svc : CursorServices) (secret : List Char)

/-- Newest first: what comes behind a position is less than it. -/
def proofsFeed (position : ρ → Cursor) : Feed ρ (ℤ ×ₗ ℕ)ᵒᵈ (List Char) CursorError where
  key r := toDual (toLex ((position r).createdAt.micros, (position r).id.val))
  issue r := .ok ((position r).encode svc secret)
  read cursor := (decodeCursor svc secret cursor).map fun p ↦
    toDual (toLex (p.createdAt.micros, p.id.val))

/-- `_by_arrival` -/
def arrivalFeed (row : ρ → CompetitionRow) : Feed ρ (ℤ ×ₗ ℤ)ᵒᵈ (List Char) CursorError where
  key r := toDual (toLex ((row r).submittedAt.micros, (row r).id.val))
  issue r := feedCursor svc secret (row r)
  read cursor := (feedAfter svc secret cursor).map fun p ↦ toDual (toLex (p.1.micros, p.2))

/-- `leaderboard`: fewest bytes first, ties to the earlier submission. -/
def rankFeed (row : ρ → CompetitionRow) : Feed ρ (ℤ ×ₗ ℤ ×ₗ ℤ) (List Char) CursorError where
  key r := toLex ((row r).bytes.val, toLex ((row r).submittedAt.micros, (row r).id.val))
  issue r := rankCursor svc secret (row r)
  read cursor := (rankAfter svc secret cursor).map fun p ↦
    toLex (p.1, toLex (p.2.1.micros, p.2.2))

end

/-- Following the cursors, with pages of any size, serves every row exactly once in the order of
the keys. -/
def ServesAll {ρ κ γ ε : Type} [LinearOrder κ] (feed : Feed ρ κ γ ε) (rows : List ρ) : Prop :=
  ∃ served, served.Perm rows ∧ served.Pairwise (fun a b ↦ feed.key a < feed.key b) ∧
    ∀ limit pages, 0 < limit → rows.length < pages →
      feed.follow rows limit pages none = .ok (some served)

theorem servesAll {ρ κ γ ε : Type} [LinearOrder κ] {feed : Feed ρ κ γ ε} {rows : List ρ}
    (hkeys : (rows.map feed.key).Nodup)
    (hcursor : ∀ r ∈ rows, ∃ c, feed.issue r = .ok c ∧ feed.read c = .ok (feed.key r)) :
    ServesAll feed rows :=
  ⟨feed.sorted rows, feed.sorted_perm rows, Feed.sorted_pairwise hkeys,
    fun _ _ hlimit hpages ↦ Feed.follow_exact hkeys hcursor hlimit hpages⟩

section

variable {svc : CursorServices} {secret : List Char}

/-- What a decoder makes of a timestamp's text is the row's own key if the timestamp comes back. -/
theorem need_fromMicros_map {α : Type} {t : DateTime} {e : CursorError} {f : DateTime → α}
    (ht : 0 ≤ t.micros) (h : ComesBack t.micros.toNat) :
    (need (fromMicros t.cursorMicros) e).map f = .ok (f t) := by
  rw [(fromMicros_cursorMicros_iff ht).mpr h]
  rfl

/-- And only then, where the timestamp can be told from what is made of it. -/
theorem comesBack_of_map {α : Type} {t : DateTime} {e : CursorError} {f : DateTime → α}
    (ht : 0 ≤ t.micros) (hf : Function.Injective f)
    (h : (need (fromMicros t.cursorMicros) e).map f = .ok (f t)) : ComesBack t.micros.toNat := by
  obtain ⟨t', ht', hft⟩ := map_eq_ok.mp h
  exact (fromMicros_cursorMicros_iff ht).mp (need_eq_ok.mp (hf hft ▸ ht'))

theorem decodeCursor_encode_iff {cursor : Cursor} (ht : 0 ≤ cursor.createdAt.micros) :
    decodeCursor svc secret (cursor.encode svc secret) = .ok cursor ↔
      ComesBack cursor.createdAt.micros.toNat := by
  rw [decodeCursor_encode ht]
  constructor
  · intro h
    refine comesBack_of_map ht (f := (⟨·, cursor.id⟩ : DateTime → Cursor)) ?_ h
    intro a b hab
    exact congrArg Cursor.createdAt hab
  · exact need_fromMicros_map ht

theorem feedAfter_feedCursor_iff {row : CompetitionRow} (ht : 0 ≤ row.submittedAt.micros) :
    (∃ value, feedCursor svc secret row = .ok value ∧
      feedAfter svc secret value = .ok (row.submittedAt, row.id.val)) ↔
      ComesBack row.submittedAt.micros.toNat := by
  obtain ⟨value, hissue, hread⟩ := @feedAfter_feedCursor svc row secret ht
  constructor
  · rintro ⟨value', hissue', hread'⟩
    obtain rfl : value = value' := Except.ok.inj (hissue.symm.trans hissue')
    refine comesBack_of_map ht (f := (·, row.id.val)) ?_ (hread.symm.trans hread')
    intro a b hab
    exact congrArg Prod.fst hab
  · exact fun h ↦ ⟨value, hissue, hread.trans (need_fromMicros_map ht h)⟩

theorem rankAfter_rankCursor_iff {row : CompetitionRow} (ht : 0 ≤ row.submittedAt.micros) :
    (∃ value, rankCursor svc secret row = .ok value ∧
      rankAfter svc secret value = .ok (row.bytes.val, row.submittedAt, row.id.val)) ↔
      ComesBack row.submittedAt.micros.toNat := by
  obtain ⟨value, hissue, hread⟩ := @rankAfter_rankCursor svc row secret ht
  constructor
  · rintro ⟨value', hissue', hread'⟩
    obtain rfl : value = value' := Except.ok.inj (hissue.symm.trans hissue')
    refine comesBack_of_map ht (f := fun t ↦ (row.bytes.val, t, row.id.val)) ?_
      (hread.symm.trans hread')
    intro a b hab
    exact congrArg (fun p ↦ p.2.1) hab
  · exact fun h ↦ ⟨value, hissue, hread.trans (need_fromMicros_map ht h)⟩

end

/-- A cursor gives its timestamp and id back exactly if the timestamp comes back from its text.
Feeds whose timestamps all do are served whole, every row once and in order, whatever the size of
the pages and the ties. And no decoder accepts a cursor of another version. -/
theorem cursors_exact_iff (svc : CursorServices) (secret : List Char) :
    ((∀ cursor : Cursor, 0 ≤ cursor.createdAt.micros →
        (decodeCursor svc secret (cursor.encode svc secret) = .ok cursor ↔
          ComesBack cursor.createdAt.micros.toNat)) ∧
      ∀ row : CompetitionRow, 0 ≤ row.submittedAt.micros →
        ((∃ value, feedCursor svc secret row = .ok value ∧
            feedAfter svc secret value = .ok (row.submittedAt, row.id.val)) ↔
          ComesBack row.submittedAt.micros.toNat) ∧
        ((∃ value, rankCursor svc secret row = .ok value ∧
            rankAfter svc secret value = .ok (row.bytes.val, row.submittedAt, row.id.val)) ↔
          ComesBack row.submittedAt.micros.toNat)) ∧
    ((∀ {ρ : Type} (position : ρ → Cursor) (rows : List ρ),
        (rows.map (proofsFeed svc secret position).key).Nodup →
        (∀ r ∈ rows, 0 ≤ (position r).createdAt.micros ∧
          ComesBack (position r).createdAt.micros.toNat) →
        ServesAll (proofsFeed svc secret position) rows) ∧
      ∀ {ρ : Type} (row : ρ → CompetitionRow) (rows : List ρ),
        (∀ r ∈ rows, 0 ≤ (row r).submittedAt.micros ∧
          ComesBack (row r).submittedAt.micros.toNat) →
        ((rows.map (arrivalFeed svc secret row).key).Nodup →
          ServesAll (arrivalFeed svc secret row) rows) ∧
        ((rows.map (rankFeed svc secret row).key).Nodup →
          ServesAll (rankFeed svc secret row) rows)) ∧
    ((∀ version parts value, encodeParts svc secret version parts = .ok value →
        (∀ version' count fields,
          decodeParts svc secret value version' count = .ok fields → version' = version) ∧
        ∀ cursor, decodeCursor svc secret value = .ok cursor → version = cursorVersion) ∧
      ∀ (cursor : Cursor) version count fields,
        decodeParts svc secret (cursor.encode svc secret) version count = .ok fields →
        version = cursorVersion) := by
  refine ⟨⟨fun cursor ht ↦ decodeCursor_encode_iff ht, fun row ht ↦
    ⟨feedAfter_feedCursor_iff ht, rankAfter_rankCursor_iff ht⟩⟩, ⟨?_, ?_⟩, ?_, ?_⟩
  · intro ρ position rows hkeys hrows
    refine servesAll hkeys fun r hr ↦ ⟨_, rfl, ?_⟩
    have hback := (@decodeCursor_encode_iff svc secret _ (hrows r hr).1).mpr
      (hrows r hr).2
    exact congrArg (Except.map _) hback
  · intro ρ row rows hrows
    refine ⟨fun hkeys ↦ servesAll hkeys fun r hr ↦ ?_, fun hkeys ↦ servesAll hkeys fun r hr ↦ ?_⟩
    · obtain ⟨value, hissue, hread⟩ :=
        (@feedAfter_feedCursor_iff svc secret _ (hrows r hr).1).mpr
          (hrows r hr).2
      exact ⟨value, hissue, congrArg (Except.map _) hread⟩
    · obtain ⟨value, hissue, hread⟩ :=
        (@rankAfter_rankCursor_iff svc secret _ (hrows r hr).1).mpr
          (hrows r hr).2
      exact ⟨value, hissue, congrArg (Except.map _) hread⟩
  · intro version parts value hissue
    exact ⟨fun _ _ _ h ↦ version_of_decodeParts hissue h,
      fun _ h ↦ version_of_decodeCursor hissue h⟩
  · exact fun _ _ _ _ h ↦ version_of_encode h

/-- 2026-08-03T14:15:16.123456Z -/
def presentDay : DateTime := ⟨1785766516123456, by decide, by decide⟩

theorem presentDay_comes_back : ∀ (svc : CursorServices) (secret : List Char) (id : UuidInt),
    decodeCursor svc secret (Cursor.encode svc ⟨presentDay, id⟩ secret) = .ok ⟨presentDay, id⟩ :=
  fun svc secret id ↦ ((cursors_exact_iff svc secret).1.1 ⟨presentDay, id⟩
    (show (0 : ℤ) ≤ presentDay.micros by decide)).mpr
      (show ComesBack presentDay.micros.toNat by decide +kernel)

/-! ## A lost microsecond -/

/-- 2038-01-19T03:14:08.000003Z -/
def beforeLoss : DateTime := ⟨2147483648000003, by decide, by decide⟩

/-- 2038-01-19T03:14:08.000002Z -/
def afterLoss : DateTime := ⟨2147483648000002, by decide, by decide⟩

theorem fromMicros_beforeLoss : fromMicros beforeLoss.cursorMicros = some afterLoss := by
  decide +kernel

/-- Two rows of one transaction: the cursor behind the first of them leaves out the second. -/
theorem microsecond_lost :
    afterLoss ≠ beforeLoss ∧ ∀ (svc : CursorServices) (secret : List Char),
      (∀ id, decodeCursor svc secret (Cursor.encode svc ⟨beforeLoss, id⟩ secret) =
        .ok ⟨afterLoss, id⟩) ∧
      (proofsFeed svc secret id).follow [⟨beforeLoss, 2⟩, ⟨beforeLoss, 1⟩] 1 3 none =
        .ok (some [⟨beforeLoss, 2⟩]) := by
  refine ⟨by decide, fun svc secret ↦ ?_⟩
  have hdecode : ∀ id, decodeCursor svc secret (Cursor.encode svc ⟨beforeLoss, id⟩ secret) =
      .ok ⟨afterLoss, id⟩ := by
    intro id
    rw [decodeCursor_encode (show (0 : ℤ) ≤ beforeLoss.micros by decide), fromMicros_beforeLoss]
    rfl
  refine ⟨hdecode, ?_⟩
  have hfirst : (proofsFeed svc secret id).page [⟨beforeLoss, 2⟩, ⟨beforeLoss, 1⟩] 1 none =
      .ok ([⟨beforeLoss, 2⟩], some (Cursor.encode svc ⟨beforeLoss, 2⟩ secret)) := rfl
  have hsecond : (proofsFeed svc secret id).page [⟨beforeLoss, 2⟩, ⟨beforeLoss, 1⟩] 1
      (some (Cursor.encode svc ⟨beforeLoss, 2⟩ secret)) = .ok ([], none) := by
    have hread : (proofsFeed svc secret id).read (Cursor.encode svc ⟨beforeLoss, 2⟩ secret) =
        .ok (toDual (toLex (afterLoss.micros, 2))) := congrArg (Except.map _) (hdecode 2)
    rw [Feed.page, Option.mapM_some, hread]
    rfl
  rw [Feed.follow, hfirst]
  dsimp only
  rw [Feed.follow, hsecond]
  rfl

end Conjectures.Feeds

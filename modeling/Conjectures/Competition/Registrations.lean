import Conjectures.Db.Competition
import Conjectures.Lib.Run

/-!
# The registration history

The watcher publishes one metagraph snapshot after the other.  A row is written for a neuron
whose keys differ from the last ones recorded for its uid, so a uid that registered again with
the keys it had leaves no trace: what a snapshot shows is recorded exactly where the keys moved
(`snapshots_are_recorded`).
-/

namespace Conjectures.Competition

open Lib Db.Competition
open Db (Instant)

/-! ## The system -/

/-- A metagraph: one neuron a uid. -/
structure Snapshot where
  neurons : List Neuron
  nodup : (neurons.map (·.uid)).Nodup

/-- A snapshot, and what the chain answers when asked for the time of a height. -/
structure Poll where
  snapshot : Snapshot
  blockTime : ℕ → Option Instant

def publish (db : CompetitionDatabase) (p : Poll) : CompetitionDatabase :=
  commit (publishSnapshot p.snapshot.neurons p.blockTime) db

/-! ## What is promised -/

/-- `uq_registrations_uid_block` -/
def Registration.uidBlockIdx (r : Registration) : Option (ℕ × ℕ) := some (r.uid, r.block)

/-- Rows are never rewritten or removed, and a uid has one row a block. -/
def Appends (db : CompetitionDatabase) (p : Poll) : Prop :=
  db.registrations.rows <+: (publish db p).registrations.rows ∧
    Lib.Unique Registration.uidBlockIdx (publish db p).registrations.rows

/-- The row is this neuron's. -/
def Shows (n : Neuron) (r : Registration) : Prop :=
  r.uid = n.uid ∧ r.block = n.blockAtRegistration ∧ r.ss58Hot = n.hotkey ∧ r.ss58Cold = n.coldkey

/-- The height is not yet recorded for its uid. -/
def Unrecorded (db : CompetitionDatabase) (n : Neuron) : Prop :=
  ∀ r ∈ db.registrations.rows, r.uid = n.uid → r.block ≠ n.blockAtRegistration

/-- The snapshot was published. -/
def Published (db : CompetitionDatabase) (p : Poll) : Prop :=
  ∃ count db', publishSnapshot p.snapshot.neurons p.blockTime db = .ok (count, db')

/-- Every registration the snapshot shows is there to be spent. -/
def RecordsAll (db : CompetitionDatabase) (p : Poll) : Prop :=
  Published db p → ∀ n ∈ p.snapshot.neurons, Unrecorded db n →
    ∃ r ∈ (publish db p).registrations.rows, Shows n r

/-- A registration that is not recorded came with other keys than the last one of its uid. -/
def KeysMoved (db : CompetitionDatabase) (p : Poll) : Prop :=
  Published db p → ∀ n ∈ p.snapshot.neurons, Unrecorded db n →
    latestKeys db n.uid ≠ some (n.hotkey, n.coldkey)

/-! ## One snapshot -/

theorem resolveBlockDates_ok {blockTime : ℕ → Option Instant} {neurons : List Neuron}
    {rows : List (Neuron × Instant)} (h : resolveBlockDates blockTime neurons = .ok rows) :
    rows.map Prod.fst = neurons := by
  induction neurons generalizing rows with
  | nil =>
    cases h
    rfl
  | cons n neurons ih =>
    simp only [resolveBlockDates, List.mapM_cons, bind_eq_ok, map_eq_ok, need_eq_ok] at h
    obtain ⟨-, ⟨date, -, rfl⟩, rest, hrest, h⟩ := h
    cases h
    rw [List.map_cons, ih hrest]

/-- The index names the row to insert. -/
def Conflicts (row : Neuron × Instant) (r : Registration) : Prop :=
  r.uid = row.1.uid ∧ r.block = row.1.blockAtRegistration

theorem recordNeuron_cases (t : Table Registration.id) (row : Neuron × Instant) :
    (recordNeuron t row = t ∧ ∃ r ∈ t.rows, Conflicts row r) ∨
      ((∀ r ∈ t.rows, ¬ Conflicts row r) ∧
        ∃ r, Shows row.1 r ∧ (recordNeuron t row).rows = t.rows ++ [r]) := by
  unfold recordNeuron
  split
  · rename_i h
    obtain ⟨r, hr, hconflict⟩ := List.any_eq_true.mp h
    exact Or.inl ⟨rfl, r, hr, by simpa [Conflicts] using hconflict⟩
  · rename_i h
    refine Or.inr ⟨fun r hr hconflict ↦ h ?_, _, ⟨rfl, rfl, rfl, rfl⟩, rfl⟩
    exact List.any_eq_true.mpr ⟨r, hr, by simpa [Conflicts] using hconflict⟩

/-- What a batch of inserts leaves. -/
structure Recorded (t t' : Table Registration.id) (rows : List (Neuron × Instant)) : Prop where
  appends : t.rows <+: t'.rows
  unique : Lib.Unique Registration.uidBlockIdx t.rows →
    Lib.Unique Registration.uidBlockIdx t'.rows
  taken : ∀ row ∈ rows, ∃ r ∈ t'.rows, Conflicts row r
  shown : ∀ r ∈ t'.rows, r ∈ t.rows ∨ ∃ row ∈ rows, Shows row.1 r

theorem recorded_cons {t t' : Table Registration.id} {row : Neuron × Instant}
    {rows : List (Neuron × Instant)} (h : Recorded (recordNeuron t row) t' rows) :
    Recorded t t' (row :: rows) := by
  rcases recordNeuron_cases t row with ⟨heq, r, hr, hconflict⟩ | ⟨hfree, r, hshows, hrows⟩
  · rw [heq] at h
    refine ⟨h.appends, h.unique, fun row' hrow' ↦ ?_, fun r' hr' ↦ ?_⟩
    · rcases List.mem_cons.mp hrow' with rfl | hrow'
      · exact ⟨r, h.appends.subset hr, hconflict⟩
      · exact h.taken row' hrow'
    · refine (h.shown r' hr').imp_right ?_
      rintro ⟨row', hrow', hshows⟩
      exact ⟨row', List.mem_cons_of_mem _ hrow', hshows⟩
  · have hr : r ∈ (recordNeuron t row).rows := hrows ▸ List.mem_append_right _ List.mem_cons_self
    refine ⟨(hrows ▸ List.prefix_append _ _).trans h.appends, fun hunique ↦ h.unique ?_,
      fun row' hrow' ↦ ?_, fun r' hr' ↦ ?_⟩
    · rw [hrows]
      refine hunique.append ?_
      rintro ⟨r', hr', heq, -⟩
      obtain ⟨huid, hblock⟩ := Prod.mk.inj (Option.some.inj heq)
      exact hfree r' hr' ⟨huid.trans hshows.1, hblock.trans hshows.2.1⟩
    · rcases List.mem_cons.mp hrow' with rfl | hrow'
      · exact ⟨r, h.appends.subset hr, hshows.1, hshows.2.1⟩
      · exact h.taken row' hrow'
    · rcases h.shown r' hr' with hr' | ⟨row', hrow', hshows'⟩
      · rcases List.mem_append.mp (hrows ▸ hr') with hr' | hr'
        · exact Or.inl hr'
        · rw [List.mem_singleton.mp hr']
          exact Or.inr ⟨row, List.mem_cons_self, hshows⟩
      · exact Or.inr ⟨row', List.mem_cons_of_mem _ hrow', hshows'⟩

theorem recorded_foldl (t : Table Registration.id) (rows : List (Neuron × Instant)) :
    Recorded t (rows.foldl recordNeuron t) rows := by
  induction rows generalizing t with
  | nil => exact ⟨List.prefix_refl _, id, nofun, fun r hr ↦ Or.inl hr⟩
  | cons row rows ih => exact recorded_cons (ih (recordNeuron t row))

theorem publishSnapshot_ok {db db' : CompetitionDatabase} {neurons : List Neuron}
    {blockTime : ℕ → Option Instant} {count : ℕ}
    (h : publishSnapshot neurons blockTime db = .ok (count, db')) :
    ∃ rows, rows.map Prod.fst = changedRows (latestKeys db) neurons ∧
      Recorded db.registrations db'.registrations rows := by
  simp only [publishSnapshot, bind_eq_ok] at h
  obtain ⟨rows, hrows, h⟩ := h
  cases h
  exact ⟨rows, resolveBlockDates_ok hrows, recorded_foldl _ rows⟩

theorem appends_of_unique {db : CompetitionDatabase} {p : Poll}
    (h : Lib.Unique Registration.uidBlockIdx db.registrations.rows) : Appends db p := by
  refine @commit_induction _ _ _ (publishSnapshot p.snapshot.neurons p.blockTime) db
    (fun db' ↦ db.registrations.rows <+: db'.registrations.rows ∧
      Lib.Unique Registration.uidBlockIdx db'.registrations.rows)
    ⟨List.prefix_refl _, h⟩ fun count db' hok ↦ ?_
  obtain ⟨rows, -, hrecorded⟩ := publishSnapshot_ok hok
  exact ⟨hrecorded.appends, hrecorded.unique h⟩

/-- A registration that was not recorded is recorded exactly where the keys moved. -/
theorem shown_iff_moved {db db' : CompetitionDatabase} {s : Snapshot}
    {blockTime : ℕ → Option Instant} {count : ℕ} {n : Neuron}
    (h : publishSnapshot s.neurons blockTime db = .ok (count, db')) (hn : n ∈ s.neurons)
    (hunrecorded : Unrecorded db n) :
    (∃ r ∈ db'.registrations.rows, Shows n r) ↔
      latestKeys db n.uid ≠ some (n.hotkey, n.coldkey) := by
  obtain ⟨rows, hchanged, hrecorded⟩ := publishSnapshot_ok h
  -- a row for this uid at this height can only be this neuron's
  have hown : ∀ r ∈ db'.registrations.rows, r.uid = n.uid → r.block = n.blockAtRegistration →
      n ∈ changedRows (latestKeys db) s.neurons ∧ Shows n r := by
    intro r hr huid hblock
    rcases hrecorded.shown r hr with hr | ⟨row, hrow, hshows⟩
    · exact absurd hblock (hunrecorded r hr huid)
    · have hmem : row.1 ∈ changedRows (latestKeys db) s.neurons :=
        hchanged ▸ List.mem_map_of_mem hrow
      have hsame : row.1 = n := List.inj_on_of_nodup_map s.nodup (List.mem_of_mem_filter hmem) hn
        (hshows.1.symm.trans huid)
      exact ⟨hsame ▸ hmem, hsame ▸ hshows⟩
  constructor
  · rintro ⟨r, hr, hshows⟩
    exact of_decide_eq_true (List.mem_filter.mp (hown r hr hshows.1 hshows.2.1).1).2
  · intro hmoved
    have hmem : n ∈ changedRows (latestKeys db) s.neurons :=
      List.mem_filter.mpr ⟨hn, decide_eq_true hmoved⟩
    obtain ⟨row, hrow, rfl⟩ := List.mem_map.mp (hchanged ▸ hmem)
    obtain ⟨r, hr, huid, hblock⟩ := hrecorded.taken row hrow
    exact ⟨r, hr, (hown r hr huid hblock).2⟩

theorem keysMoved_iff {db : CompetitionDatabase} {p : Poll} :
    KeysMoved db p ↔ RecordsAll db p := by
  have hiff : ∀ (_ : Published db p), ∀ n ∈ p.snapshot.neurons, Unrecorded db n →
      ((∃ r ∈ (publish db p).registrations.rows, Shows n r) ↔
        latestKeys db n.uid ≠ some (n.hotkey, n.coldkey)) := by
    rintro ⟨count, db', hok⟩ n hn hunrecorded
    rw [publish, commit_of_ok hok]
    exact shown_iff_moved hok hn hunrecorded
  constructor
  · exact fun h hp n hn hunrecorded ↦ (hiff hp n hn hunrecorded).mpr (h hp n hn hunrecorded)
  · exact fun h hp n hn hunrecorded ↦ (hiff hp n hn hunrecorded).mp (h hp n hn hunrecorded)

/-! ## Every sequence of snapshots -/

theorem snapshots_are_recorded (polls : List Poll) :
    Each publish Appends .empty polls ∧
      (Each publish KeysMoved .empty polls ↔ Each publish RecordsAll .empty polls) := by
  have hempty : Lib.Unique Registration.uidBlockIdx
      CompetitionDatabase.empty.registrations.rows := fun r hr ↦ by cases hr
  have happends : ∀ db p, Lib.Unique Registration.uidBlockIdx db.registrations.rows →
      Appends db p := fun db p h ↦ appends_of_unique h
  refine ⟨each_of_invariant (fun db p h ↦ (happends db p h).2) happends hempty polls,
    Each.mono fun _ _ ↦ keysMoved_iff.mp, Each.mono fun _ _ ↦ keysMoved_iff.mpr⟩

/-! ## Registering again with the same keys -/

def onlyNeuron (block : ℕ) : Poll :=
  ⟨⟨[⟨0, "hotkey", "coldkey", block⟩], List.nodup_singleton 0⟩, fun height ↦ some (12 * height)⟩

theorem registration_lost :
    ¬ Each publish RecordsAll .empty [onlyNeuron 10, onlyNeuron 20] := by
  rintro ⟨-, hrecords, -⟩
  have hrows : (publish .empty (onlyNeuron 10)).registrations.rows =
      [⟨1, 0, "hotkey", "coldkey", 10, 120⟩] := by decide +kernel
  have hagain : (publish (publish .empty (onlyNeuron 10)) (onlyNeuron 20)).registrations.rows =
      [⟨1, 0, "hotkey", "coldkey", 10, 120⟩] := by decide +kernel
  obtain ⟨r, hr, hshows⟩ := hrecords ⟨_, _, rfl⟩ ⟨0, "hotkey", "coldkey", 20⟩
    List.mem_cons_self fun r hr _ ↦ by
      rw [hrows, List.mem_singleton] at hr
      rw [hr]
      decide
  rw [hagain, List.mem_singleton] at hr
  rw [hr] at hshows
  exact absurd hshows.2.1 (by decide)

end Conjectures.Competition

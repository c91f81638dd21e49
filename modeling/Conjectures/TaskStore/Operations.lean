import Conjectures.TaskStore.Invariant

/-!
# The operations of a publisher

One lemma for each operation of `publish` and `_seal`: it changes what it may, and the publisher
knows afterwards what its next operation relies on.
-/

namespace Conjectures.TaskStore

open Lib

variable {validate : Contents → Except VerifierError TaskId} {sha256 : Bytes → Digest}
  {s : State} {p : ℕ} {pub : Publisher}

theorem SameCall.refl (pub : Publisher) : SameCall pub pub := ⟨rfl, rfl, rfl⟩

/-- A call on the same bytes opens the same. -/
theorem SameCall.open {pub pub' : Publisher} (h : SameCall pub pub') :
    pub'.open validate sha256 = pub.open validate sha256 := by
  rw [Publisher.open, Publisher.open, h.taskId, h.inStaging, loadTaskBundle_congr h.staged]

/-- The publisher goes on, the store having kept its entries. -/
theorem Advanced.put {s₁ : State} {pub' : Publisher} {phase : Phase} (hkeeps : s.Keeps s₁)
    (hpublishers : s₁.publishers = s.publishers) (hlock : s₁.lock = s.lock)
    (hcall : SameCall pub pub')
    (hknows : Knows validate sha256 s₁ p { pub' with phase := phase })
    (hholding : s.lock = some p → phase.Holding) :
    Advanced validate sha256 s (s₁.put p pub' phase) p pub where
  evolves := hkeeps.evolves
  entries := .inl hkeeps
  publishers := ⟨{ pub' with phase := phase }, by rw [State.put, hpublishers],
    ⟨hcall.taskId, hcall.staged, hcall.inStaging⟩, hknows, fun h ↦ hholding (hlock ▸ h)⟩
  lock := .inl hlock

/-- The publisher goes on without the lock it held. -/
theorem Advanced.release {phase : Phase} (hheld : s.lock = some p)
    (hknows : Knows validate sha256 { s with lock := none } p { pub with phase := phase }) :
    Advanced validate sha256 s (s.release p pub phase) p pub where
  evolves := (State.Keeps.of_eq rfl).evolves
  entries := .inl (.of_eq rfl)
  publishers := ⟨{ pub with phase := phase }, rfl, ⟨rfl, rfl, rfl⟩, hknows, nofun⟩
  lock := .inr (.inr ⟨hheld, rfl⟩)

/-- A publisher that holds the lock is at a point where it does. -/
theorem Inv.holding (h : Inv validate sha256 s) (hpub : s.publishers p = some pub)
    (hlock : s.lock = some p) : pub.phase.Holding := by
  obtain ⟨pub', hpub', hholding⟩ := h.holder p hlock
  exact Option.some.inj (hpub'.symm.trans hpub) ▸ hholding

/-- Nothing happens. -/
theorem Advanced.stay (h : Inv validate sha256 s) (hpub : s.publishers p = some pub) :
    Advanced validate sha256 s s p pub where
  evolves := (State.Keeps.of_eq rfl).evolves
  entries := .inl (.of_eq rfl)
  publishers := ⟨pub, by rw [← hpub, Function.update_eq_self], .refl pub, h.knows p pub hpub,
    h.holding hpub⟩
  lock := .inl rfl

/-! ## Before the lock -/

theorem open_eq_ok {b : TaskBundle} : pub.open validate sha256 = .ok b ↔
    pub.inStaging = true ∧ loadTaskBundle validate sha256 pub.staged = .ok b ∧
      b.taskId = pub.taskId := by
  constructor
  · intro h
    simp only [Publisher.open, bind_eq_ok, require_eq_ok] at h
    obtain ⟨_, hstaging, b', hload, _, hid, h⟩ := h
    cases h
    exact ⟨hstaging, hload, hid⟩
  · rintro ⟨hstaging, hload, hid⟩
    simp only [Publisher.open, bind_eq_ok, require_eq_ok]
    exact ⟨(), hstaging, b, hload, (), hid, rfl⟩

theorem advanced_called (hphase : pub.phase = .called) (hfree : s.lock ≠ some p) :
    Advanced validate sha256 s (s.advance validate sha256 p pub) p pub := by
  obtain ⟨taskId, staged, inStaging, phase⟩ := pub
  obtain rfl : phase = .called := hphase
  unfold State.advance
  dsimp only
  split
  · rename_i error hopen
    refine .put (.of_eq rfl) rfl rfl (.refl _) ?_ fun h ↦ absurd h hfree
    rintro ⟨⟨b, hb⟩, -⟩
    cases hopen.symm.trans hb
  · rename_i b hopen
    refine .put (.of_eq rfl) rfl rfl (.refl _) ⟨hopen, fun f hf ↦ ?_⟩ fun h ↦ absurd h hfree
    exact .inr (List.mem_map.mpr ⟨f, hf, rfl⟩)

theorem advanced_syncFile {b : TaskBundle} {name : Name} {left : List Name}
    (hphase : pub.phase = .syncing b (name :: left)) (hfree : s.lock ≠ some p)
    (h : Knows validate sha256 s p pub) :
    Advanced validate sha256 s (s.advance validate sha256 p pub) p pub := by
  obtain ⟨taskId, staged, inStaging, phase⟩ := pub
  obtain rfl : phase = .syncing b (name :: left) := hphase
  have hcall : SameCall ⟨taskId, staged, inStaging, .syncing b (name :: left)⟩
      ⟨taskId, staged.flushFile name, inStaging, .syncing b (name :: left)⟩ :=
    ⟨rfl, (evolves_flushFile staged name).data, rfl⟩
  obtain ⟨hown, hfiles⟩ := h
  refine .put (.of_eq rfl) rfl rfl hcall ⟨hcall.open.trans hown, fun f' hf' ↦ ?_⟩
    fun h ↦ absurd h hfree
  obtain ⟨f, hf, rfl⟩ := List.mem_map.mp hf'
  by_cases hname : f.1 = name
  · rw [if_pos hname]
    exact .inl rfl
  · rw [if_neg hname]
    exact (hfiles f hf).imp_right fun hmem ↦ (List.mem_cons.mp hmem).resolve_left hname

theorem advanced_syncDirectory {b : TaskBundle} (hphase : pub.phase = .syncing b [])
    (hfree : s.lock ≠ some p) (h : Knows validate sha256 s p pub) :
    Advanced validate sha256 s (s.advance validate sha256 p pub) p pub := by
  obtain ⟨taskId, staged, inStaging, phase⟩ := pub
  obtain rfl : phase = .syncing b [] := hphase
  have hcall : SameCall ⟨taskId, staged, inStaging, .syncing b []⟩
      ⟨taskId, staged.flush, inStaging, .syncing b []⟩ :=
    ⟨rfl, (evolves_flush staged).data, rfl⟩
  obtain ⟨hown, hfiles⟩ := h
  refine .put (.of_eq rfl) rfl rfl hcall ⟨hcall.open.trans hown, rfl, fun f hf ↦ ?_⟩
    fun h ↦ absurd h hfree
  exact (hfiles f hf).resolve_right List.not_mem_nil

theorem advanced_synced {b : TaskBundle} (hphase : pub.phase = .synced b)
    (hfree : s.lock ≠ some p) (hinv : Inv validate sha256 s) (hpub : s.publishers p = some pub) :
    Advanced validate sha256 s (s.advance validate sha256 p pub) p pub := by
  have h := hinv.knows p pub hpub
  have hstay := Advanced.stay hinv hpub
  obtain ⟨taskId, staged, inStaging, phase⟩ := pub
  obtain rfl : phase = .synced b := hphase
  obtain ⟨hown, hflushed⟩ := h
  unfold State.advance
  dsimp only
  split
  · rename_i error hpath
    refine .put (.of_eq rfl) rfl rfl (.refl _) ?_ fun h ↦ absurd h hfree
    rintro ⟨-, hv2⟩
    cases hpath.symm.trans (require_eq_ok.mpr hv2 : pathFor taskId = .ok ())
  · rename_i hpath
    have hv2 : isV2TaskId taskId := require_eq_ok.mp hpath
    split
    · rename_i hlock
      exact {
        evolves := (State.Keeps.of_eq rfl).evolves
        entries := .inl (.of_eq rfl)
        publishers := ⟨_, rfl, ⟨rfl, rfl, rfl⟩, ⟨hown, hflushed, hv2, rfl⟩, fun _ ↦ trivial⟩
        lock := .inr (.inl ⟨hlock, rfl⟩) }
    · exact hstay

/-! ## Under the lock -/

/-- What `load` finds in an entry that is in order. -/
theorem load_eq {taskId : TaskId} {e : Entry} {b : TaskBundle} {expected : Option Digest}
    (he : s.entries taskId = some e) (hv2 : isV2TaskId taskId)
    (hload : loadTaskBundle validate sha256 e.directory = .ok b) (hid : b.taskId = taskId)
    (hexpected : ∀ digest ∈ expected, b.sha256 = digest) :
    s.load validate sha256 taskId expected = .ok (some b) := by
  have hpath : pathFor taskId = .ok () := require_eq_ok.mpr hv2
  simp only [State.load, he, bind_of_ok hpath, bind_of_ok hload, bind_eq_ok, require_eq_ok]
  exact ⟨(), hid, (), hexpected, rfl⟩

theorem advanced_locked {b : TaskBundle} (hphase : pub.phase = .locked b)
    (hinv : Inv validate sha256 s) (hpub : s.publishers p = some pub) :
    Advanced validate sha256 s (s.advance validate sha256 p pub) p pub := by
  have h := hinv.knows p pub hpub
  obtain ⟨taskId, staged, inStaging, phase⟩ := pub
  obtain rfl : phase = .locked b := hphase
  obtain ⟨hown, hflushed, hv2, hlock⟩ := h
  change Advanced _ _ _ (s.check validate sha256 p _ b) _ _
  unfold State.check
  dsimp only
  split
  · rename_i hnone
    exact .put (.of_eq rfl) rfl rfl (.refl _) ⟨hown, hflushed, hv2, hlock, hnone⟩
      fun _ ↦ trivial
  · rename_i e he
    obtain ⟨found, hload, hid⟩ := (hinv.entries taskId e he).valid
    rw [load_eq he hv2 hload hid (by simp)]
    dsimp only
    split
    · rename_i hsame
      refine .put (.of_eq rfl) rfl rfl (.refl _) ⟨hown, hlock, e, found, he, hload, hsame, ?_⟩
        fun _ ↦ trivial
      exact ⟨by simp, fun f hf ↦ .inr (List.mem_map.mpr ⟨f, hf, rfl⟩)⟩
    · rename_i hother
      refine .release hlock fun _ ↦ ?_
      exact ⟨rfl, b, found.sha256, hown, hother, e, found, he, hload, rfl, trivial⟩

theorem advanced_absent {b : TaskBundle} (hphase : pub.phase = .absent b)
    (h : Knows validate sha256 s p pub) :
    Advanced validate sha256 s (s.advance validate sha256 p pub) p pub := by
  obtain ⟨taskId, staged, inStaging, phase⟩ := pub
  obtain rfl : phase = .absent b := hphase
  obtain ⟨hown, hflushed, hv2, hlock, hnone⟩ := h
  obtain ⟨-, hload, hid⟩ := open_eq_ok.mp hown
  change Advanced _ _ _ (s.rename p _ b) _ _
  unfold State.rename
  simp only [hnone]
  have hnew : Function.update s.entries taskId (some ⟨staged, false⟩) taskId =
      some ⟨staged, false⟩ := Function.update_self ..
  exact {
    evolves := fun other e he ↦ by
      have hother : other ≠ taskId := by
        rintro rfl
        rw [hnone] at he
        cases he
      exact ⟨e, (Function.update_of_ne hother ..).trans he, .refl _, id⟩
    entries := .inr ⟨hlock, ⟨staged, false⟩, ⟨hv2, hflushed, b, hload, hid⟩, hnone, rfl⟩
    publishers := ⟨_, rfl, ⟨rfl, rfl, rfl⟩,
      ⟨hown, hlock, ⟨staged, false⟩, b, hnew, hload, rfl, trivial⟩, fun _ ↦ trivial⟩
    lock := .inl rfl }

/-- An operation on the entry brings it further. -/
theorem State.Agrees.onEntry {taskId : TaskId} {digest : Digest}
    {P Q : Directory → TaskBundle → Prop} {g : Directory → Directory}
    (h : s.Agrees validate sha256 taskId digest P) (hg : ∀ d : Directory, d.Evolves (g d))
    (hPQ : ∀ d b, P d b → Q (g d) b) :
    (s.onEntry taskId g).Agrees validate sha256 taskId digest Q := by
  obtain ⟨e, b, he, hload, hdigest, hP⟩ := h
  refine ⟨e.modify g, b, ?_, (loadTaskBundle_congr (hg e.directory).data).trans hload, hdigest,
    hPQ _ b hP⟩
  simp [State.onEntry, he]

theorem State.Agrees.imp {taskId : TaskId} {digest : Digest} {P Q : Directory → TaskBundle → Prop}
    (h : s.Agrees validate sha256 taskId digest P) (hPQ : ∀ d b, P d b → Q d b) :
    s.Agrees validate sha256 taskId digest Q := by
  obtain ⟨e, b, he, hload, hdigest, hP⟩ := h
  exact ⟨e, b, he, hload, hdigest, hPQ _ b hP⟩

theorem advanced_renamed {b : TaskBundle} (hphase : pub.phase = .renamed b)
    (h : Knows validate sha256 s p pub) :
    Advanced validate sha256 s (s.advance validate sha256 p pub) p pub := by
  obtain ⟨taskId, staged, inStaging, phase⟩ := pub
  obtain rfl : phase = .renamed b := hphase
  obtain ⟨hown, hlock, e, b', he, hload, hdigest, -⟩ := h
  unfold State.advance
  simp only [he]
  have hroot : s.flushRoot.entries taskId = some { e with flushed := true } := by
    simp [State.flushRoot, he]
  refine .put (keeps_flushRoot s) rfl rfl (.refl _)
    ⟨hown, hlock, _, b', hroot, hload, hdigest, by simp, fun f hf ↦ ?_⟩ fun _ ↦ trivial
  exact .inr (List.mem_map.mpr ⟨f, hf, rfl⟩)

theorem advanced_sealFile {b : TaskBundle} {existing : Option TaskBundle} {name : Name}
    {left : List Name} (hphase : pub.phase = .sealing b existing (.files (name :: left)))
    (h : Knows validate sha256 s p pub) :
    Advanced validate sha256 s (s.advance validate sha256 p pub) p pub := by
  obtain ⟨taskId, staged, inStaging, phase⟩ := pub
  obtain rfl : phase = .sealing b existing (.files (name :: left)) := hphase
  obtain ⟨hown, hlock, hagrees⟩ := h
  obtain ⟨e, b', he, hload, -⟩ := id hagrees
  change Advanced _ _ _ (s.sealFile p _ b existing name left) _ _
  unfold State.sealFile
  simp only [he]
  rw [if_pos fun f hf _ ↦ (loaded_of_load hload).regular f hf]
  have hg : ∀ d : Directory, d.Evolves (d.sealFile name) := fun d ↦ evolves_sealFile d name
  refine .put (keeps_onEntry taskId hg) rfl rfl (.refl _) ⟨hown, hlock, ?_⟩ fun _ ↦ trivial
  refine hagrees.onEntry hg fun d b'' hd ↦ ⟨hd.1, fun f' hf' ↦ ?_⟩
  obtain ⟨f, hf, rfl⟩ := List.mem_map.mp hf'
  by_cases hname : f.1 = name
  · rw [if_pos hname]
    exact .inl rfl
  · rw [if_neg hname]
    exact (hd.2 f hf).imp_right fun hmem ↦ (List.mem_cons.mp hmem).resolve_left hname

/-- The other operations of `_seal`. -/
theorem advanced_seal {b : TaskBundle} {existing : Option TaskBundle} {todo : SealStep}
    (htodo : ∀ name left, todo ≠ .files (name :: left))
    (hphase : pub.phase = .sealing b existing todo) (h : Knows validate sha256 s p pub) :
    Advanced validate sha256 s (s.advance validate sha256 p pub) p pub := by
  obtain ⟨taskId, staged, inStaging, phase⟩ := pub
  obtain rfl : phase = .sealing b existing todo := hphase
  obtain ⟨hown, hlock, hagrees⟩ := h
  cases todo with
  | files left =>
    cases left with
    | nil =>
      refine .put (.of_eq rfl) rfl rfl (.refl _) ⟨hown, hlock, hagrees.imp fun d b hd ↦ ?_⟩
        fun _ ↦ trivial
      exact ⟨hd.1, fun f hf ↦ (hd.2 f hf).resolve_right List.not_mem_nil⟩
    | cons name left => exact absurd rfl (htodo name left)
  | directory =>
    refine .put (keeps_onEntry taskId evolves_sealDirectory) rfl rfl (.refl _) ⟨hown, hlock, ?_⟩
      fun _ ↦ trivial
    exact hagrees.onEntry evolves_sealDirectory fun d b hd ↦ ⟨hd.1, rfl, hd.2⟩
  | flushDirectory =>
    refine .put (keeps_onEntry taskId evolves_flush) rfl rfl (.refl _) ⟨hown, hlock, ?_⟩
      fun _ ↦ trivial
    exact hagrees.onEntry evolves_flush fun d b hd ↦ ⟨hd.1, hd.2.1, hd.2.2⟩
  | flushRoot =>
    refine .put (keeps_flushRoot s) rfl rfl (.refl _) ⟨hown, hlock, ?_⟩ fun _ ↦ trivial
    exact hagrees.evolve (keeps_flushRoot s).evolves (lasting_sealedTo existing .flushRoot)

theorem advanced_sealed {b : TaskBundle} {existing : Option TaskBundle}
    (hphase : pub.phase = .sealed b existing) (h : Knows validate sha256 s p pub) :
    Advanced validate sha256 s (s.advance validate sha256 p pub) p pub := by
  obtain ⟨taskId, staged, inStaging, phase⟩ := pub
  obtain rfl : phase = .sealed b existing := hphase
  obtain ⟨hown, hlock, hagrees⟩ := h
  cases existing with
  | none =>
    refine .release hlock ⟨hown, ?_⟩
    exact State.Agrees.imp hagrees fun d b hd ↦ hd.2
  | some found =>
    refine .release hlock ⟨b, hown, ?_⟩
    exact State.Agrees.imp hagrees fun d b hd ↦ ⟨hd.1 found rfl, hd.2⟩

/-! ## After the lock -/

theorem advanced_reloading {b : TaskBundle} (hphase : pub.phase = .reloading b)
    (hfree : s.lock ≠ some p) (hinv : Inv validate sha256 s) (h : Knows validate sha256 s p pub) :
    Advanced validate sha256 s (s.advance validate sha256 p pub) p pub := by
  obtain ⟨taskId, staged, inStaging, phase⟩ := pub
  obtain rfl : phase = .reloading b := hphase
  obtain ⟨hown, e, found, he, hload, hdigest, hsealed⟩ := h
  have hok := hinv.entries taskId e he
  obtain ⟨found', hload', hid⟩ := hok.valid
  obtain rfl := Except.ok.inj (hload.symm.trans hload')
  unfold State.advance
  simp only
  rw [load_eq he hok.v2 hload hid (by simpa using hdigest)]
  exact .put (.of_eq rfl) rfl rfl (.refl _) ⟨b, hown, e, found, he, hload, hdigest, rfl, hsealed⟩
    fun h ↦ absurd h hfree

/-- Every operation of a publisher changes only what it may. -/
theorem advanced (hinv : Inv validate sha256 s) (hpub : s.publishers p = some pub) :
    Advanced validate sha256 s (s.advance validate sha256 p pub) p pub := by
  have hknows := hinv.knows p pub hpub
  have hfree : ¬ pub.phase.Holding → s.lock ≠ some p := fun hnot hlock ↦
    hnot (hinv.holding hpub hlock)
  cases hphase : pub.phase with
  | called => exact advanced_called hphase (hfree (by rw [hphase]; exact id))
  | syncing b left =>
    have hfree := hfree (by rw [hphase]; exact id)
    cases left with
    | nil => exact advanced_syncDirectory hphase hfree hknows
    | cons name left => exact advanced_syncFile hphase hfree hknows
  | synced b => exact advanced_synced hphase (hfree (by rw [hphase]; exact id)) hinv hpub
  | locked b => exact advanced_locked hphase hinv hpub
  | absent b => exact advanced_absent hphase hknows
  | renamed b => exact advanced_renamed hphase hknows
  | sealing b existing todo =>
    by_cases hfile : ∃ name left, todo = .files (name :: left)
    · obtain ⟨name, left, rfl⟩ := hfile
      exact advanced_sealFile hphase hknows
    · exact advanced_seal (fun name left h ↦ hfile ⟨name, left, h⟩) hphase hknows
  | sealed b existing => exact advanced_sealed hphase hknows
  | reloading b =>
    exact advanced_reloading hphase (hfree (by rw [hphase]; exact id)) hinv hknows
  | returned b | failed error | raised =>
    have hstay : s.advance validate sha256 p pub = s := by
      unfold State.advance
      rw [hphase]
    rw [hstay]
    exact .stay hinv hpub

end Conjectures.TaskStore

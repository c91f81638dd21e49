import Conjectures.Lib.Run
import Conjectures.TaskStore.Operations

/-!
# The store publishes once

Along every run of publishers, killed wherever they may be and with the power failing at any
time, an entry is one complete valid bundle that stays as it is.  Whoever publishes the same
bytes again ends with that entry, sealed; whoever publishes others is refused.
-/

namespace Conjectures.TaskStore

open Lib

variable {validate : Contents → Except VerifierError TaskId} {sha256 : Bytes → Digest}
  {s : State} {p : ℕ} {pub : Publisher}

/-! ## Along a run -/

theorem inv_empty : Inv validate sha256 .empty :=
  ⟨by rintro _ _ ⟨⟩, by rintro _ _ ⟨⟩, by rintro _ ⟨⟩⟩

/-- What was flushed is what the disk shows. -/
theorem data_of_survives {d d' : Directory} (hflushed : d.Flushed) (h : d.Survives d') :
    d'.onDisk.data = d.data := by
  have hdata : ∀ {fs fs' : List (Name × File)}, (∀ f ∈ fs, f.2.flushed) →
      List.Forall₂ FileSurvives fs fs' →
      fs'.map (fun f ↦ (f.1, f.2.regular, f.2.content)) =
        fs.map fun f ↦ (f.1, f.2.regular, f.2.content) := fun hflushed h ↦ by
    induction h with
    | nil => rfl
    | @cons f f' fs fs' hf _ ih =>
      obtain ⟨hregular, hcontent⟩ := hf.2 (hflushed f List.mem_cons_self)
      rw [List.map_cons, List.map_cons, hf.1, hregular, hcontent,
        ih fun g hg ↦ hflushed g (List.mem_cons_of_mem _ hg)]
  have hsame : d'.onDisk.data = d'.files.map fun f ↦ (f.1, f.2.regular, f.2.content) := by
    simp [Directory.data, Directory.onDisk]
  rw [hsame]
  exact hdata hflushed.2 (h hflushed.1)

theorem survives_self (d : Directory) : d.Survives d :=
  fun _ ↦ List.forall₂_same.mpr fun _ _ ↦ ⟨rfl, fun _ ↦ ⟨rfl, rfl⟩⟩

/-- After a loss of power an entry is what it was before, as far as it is there. -/
theorem powerLoss_entries {disk : TaskId → Option Entry} {taskId : TaskId} {e' : Entry}
    (hok : ∀ e, s.entries taskId = some e → e.directory.Flushed)
    (he' : (s.powerLoss disk).entries taskId = some e') :
    ∃ e, s.entries taskId = some e ∧ e'.directory.data = e.directory.data ∧
      e'.directory.Flushed ∧ e'.flushed := by
  obtain ⟨shown, hshown, rfl⟩ := Option.map_eq_some_iff.mp he'
  obtain ⟨e, he, hsurvives⟩ : ∃ e, s.entries taskId = some e ∧
      e.directory.Survives shown.directory := by
    split at hshown
    · rename_i hmay
      cases he : s.entries taskId with
      | none =>
        rw [he, hshown] at hmay
        cases hmay
      | some e =>
        rw [he, hshown] at hmay
        exact ⟨e, rfl, hmay⟩
    · exact ⟨shown, hshown, survives_self _⟩
  refine ⟨e, he, data_of_survives (hok e he) hsurvives, ⟨rfl, fun f hf ↦ ?_⟩, rfl⟩
  obtain ⟨f, -, rfl⟩ := List.mem_map.mp hf
  rfl

theorem step_inv (h : Inv validate sha256 s) (a : Action) :
    Inv validate sha256 (step validate sha256 s a) := by
  cases a with
  | begin p taskId staged inStaging =>
    unfold step
    dsimp only
    split
    · rename_i hnone
      refine ⟨h.entries, fun q pubq hq ↦ ?_, fun q hq ↦ ?_⟩
      · change Function.update s.publishers p _ q = some pubq at hq
        by_cases hqp : q = p
        · subst hqp
          rw [Function.update_self] at hq
          cases hq
          trivial
        · rw [Function.update_of_ne hqp] at hq
          exact (h.knows q pubq hq).spared ⟨(State.Keeps.of_eq rfl).evolves, id, fun _ _ ↦ id⟩
      · obtain ⟨pubq, hpubq, hholding⟩ := h.holder q hq
        have hqp : q ≠ p := by
          rintro rfl
          rw [hnone] at hpubq
          cases hpubq
        exact ⟨pubq, (Function.update_of_ne hqp ..).trans hpubq, hholding⟩
    · exact h
  | advance p =>
    unfold step
    dsimp only
    split
    · exact h
    · rename_i pub hpub
      exact (advanced h hpub).inv h
  | kill p =>
    refine ⟨h.entries, fun q pubq hq ↦ ?_, fun q hq ↦ ?_⟩
    · change Function.update s.publishers p none q = some pubq at hq
      have hqp : q ≠ p := by
        rintro rfl
        rw [Function.update_self] at hq
        cases hq
      rw [Function.update_of_ne hqp] at hq
      refine (h.knows q pubq hq).spared
        ⟨(State.Keeps.of_eq rfl).evolves, fun hlock ↦ ?_, fun _ _ ↦ id⟩
      change (if s.lock = some p then none else s.lock) = some q
      rw [if_neg (by rw [hlock]; exact fun heq ↦ hqp (Option.some.inj heq)), hlock]
    · change (if s.lock = some p then none else s.lock) = some q at hq
      split at hq
      · cases hq
      · rename_i hother
        obtain ⟨pubq, hpubq, hholding⟩ := h.holder q hq
        have hqp : q ≠ p := by
          rintro rfl
          exact hother hq
        exact ⟨pubq, (Function.update_of_ne hqp ..).trans hpubq, hholding⟩
  | powerLoss disk =>
    refine ⟨fun taskId e' he' ↦ ?_, by rintro _ _ ⟨⟩, by rintro _ ⟨⟩⟩
    obtain ⟨e, he, hdata, hflushed, -⟩ :=
      powerLoss_entries (fun e he ↦ (h.entries taskId e he).flushed) he'
    obtain ⟨b, hload, hid⟩ := (h.entries taskId e he).valid
    exact ⟨(h.entries taskId e he).v2, hflushed, b, (loadTaskBundle_congr hdata).trans hload, hid⟩

theorem run_inv (h : Inv validate sha256 s) (as : List Action) :
    Inv validate sha256 (run (step validate sha256) s as) :=
  @run_invariant _ _ (step validate sha256) (Inv validate sha256) (fun _ a h ↦ step_inv h a) s h as

/-! ## Entries stay -/

/-- No entry is lost, and each holds the bytes it held. -/
def State.Retains (s s' : State) : Prop :=
  ∀ taskId e, s.entries taskId = some e →
    ∃ e', s'.entries taskId = some e' ∧ e'.directory.data = e.directory.data

theorem State.Evolves.retains {s' : State} (h : s.Evolves s') : s.Retains s' := by
  intro taskId e he
  obtain ⟨e', he', hdirectory, -⟩ := h taskId e he
  exact ⟨e', he', hdirectory.data⟩

/-- Nothing but a loss of power takes an entry away. -/
theorem step_evolves (h : Inv validate sha256 s) {a : Action} (ha : ∀ disk, a ≠ .powerLoss disk) :
    s.Evolves (step validate sha256 s a) := by
  cases a with
  | begin p taskId staged inStaging =>
    unfold step
    dsimp only
    split <;> exact (State.Keeps.of_eq rfl).evolves
  | advance p =>
    unfold step
    dsimp only
    split
    · exact (State.Keeps.of_eq rfl).evolves
    · rename_i pub hpub
      exact (advanced h hpub).evolves
  | kill p => exact (State.Keeps.of_eq rfl).evolves
  | powerLoss disk => exact absurd rfl (ha disk)

theorem run_retains (h : Inv validate sha256 s) {as : List Action}
    (has : ∀ a ∈ as, ∀ disk, a ≠ .powerLoss disk) :
    s.Retains (run (step validate sha256) s as) := by
  suffices hevolves : s.Evolves (run (step validate sha256) s as) from hevolves.retains
  induction as generalizing s with
  | nil => exact (State.Keeps.of_eq rfl).evolves
  | cons a as ih =>
    exact (step_evolves h (has a List.mem_cons_self)).trans
      (ih (step_inv h a) fun b hb ↦ has b (List.mem_cons_of_mem _ hb))

/-- What the root was flushed with is there for good. -/
def State.Lasts (s s' : State) : Prop :=
  ∀ taskId e, s.entries taskId = some e → e.flushed →
    ∃ e', s'.entries taskId = some e' ∧ e'.directory.data = e.directory.data ∧ e'.flushed

theorem powerLoss_lasts (h : Inv validate sha256 s) (disk : TaskId → Option Entry) :
    s.Lasts (s.powerLoss disk) := by
  intro taskId e he hflushed
  obtain ⟨e', he'⟩ : ∃ e', (s.powerLoss disk).entries taskId = some e' := by
    change ∃ e', Option.map _ _ = some e'
    split
    · rename_i hmay
      cases hdisk : disk taskId with
      | none =>
        rw [he, hdisk] at hmay
        exact absurd hflushed hmay
      | some shown => exact ⟨shown.onDisk, rfl⟩
    · exact ⟨e.onDisk, by rw [he]; rfl⟩
  obtain ⟨e₁, he₁, hdata, -, hflushed'⟩ :=
    powerLoss_entries (fun e he ↦ (h.entries taskId e he).flushed) he'
  obtain rfl := Option.some.inj (he.symm.trans he₁)
  exact ⟨e', he', hdata, hflushed'⟩

theorem run_lasts (h : Inv validate sha256 s) (as : List Action) :
    s.Lasts (run (step validate sha256) s as) := by
  induction as generalizing s with
  | nil => exact fun taskId e he hflushed ↦ ⟨e, he, rfl, hflushed⟩
  | cons a as ih =>
    intro taskId e he hflushed
    obtain ⟨e', he', hdata, hflushed'⟩ : ∃ e', (step validate sha256 s a).entries taskId =
        some e' ∧ e'.directory.data = e.directory.data ∧ e'.flushed := by
      by_cases ha : ∃ disk, a = .powerLoss disk
      · obtain ⟨disk, rfl⟩ := ha
        exact powerLoss_lasts h disk taskId e he hflushed
      · obtain ⟨e', he', hdirectory, hstill⟩ :=
          step_evolves h (fun disk hd ↦ ha ⟨disk, hd⟩) taskId e he
        exact ⟨e', he', hdirectory.data, hstill hflushed⟩
    obtain ⟨e'', he'', hdata', hflushed''⟩ := ih (step_inv h a) taskId e' he' hflushed'
    exact ⟨e'', he'', hdata'.trans hdata, hflushed''⟩

/-! ## A publisher that is left alone gets to an end -/

/-- Nothing is left to do. -/
def Phase.Final : Phase → Prop
  | .returned _ | .failed _ | .raised => True
  | _ => False

def SealStep.rank : SealStep → ℕ × ℕ
  | .files left => (6, left.length)
  | .directory => (5, 0)
  | .flushDirectory => (4, 0)
  | .flushRoot => (3, 0)

/-- How far the end is: the stage, and the files left in it. -/
def Phase.rank : Phase → ℕ × ℕ
  | .called => (12, 0)
  | .syncing _ left => (11, left.length)
  | .synced _ => (10, 0)
  | .locked _ => (9, 0)
  | .absent _ => (8, 0)
  | .renamed _ => (7, 0)
  | .sealing _ _ todo => todo.rank
  | .sealed .. => (2, 0)
  | .reloading _ => (1, 0)
  | _ => (0, 0)

/-- Nobody else holds the lock. -/
def State.FreeFor (s : State) (p : ℕ) : Prop := s.lock = none ∨ s.lock = some p

theorem Advanced.freeFor {s' : State} (h : Advanced validate sha256 s s' p pub)
    (hfree : s.FreeFor p) : s'.FreeFor p := by
  rcases h.lock with heq | ⟨-, hheld⟩ | ⟨-, hnone⟩
  · exact hfree.imp heq.trans heq.trans
  · exact .inr hheld
  · exact .inl hnone

theorem descends {a b : ℕ × ℕ} (h : a.1 < b.1 ∨ a.1 = b.1 ∧ a.2 < b.2) :
    Prod.Lex (· < ·) (· < ·) a b := Prod.lex_def.mpr h

/-- Every operation brings the end nearer. -/
theorem advance_descends (hinv : Inv validate sha256 s) (hpub : s.publishers p = some pub)
    (hfree : s.FreeFor p) (hfinal : ¬ pub.phase.Final) :
    ∃ pub', (s.advance validate sha256 p pub).publishers p = some pub' ∧
      Prod.Lex (· < ·) (· < ·) pub'.phase.rank pub.phase.rank := by
  have hholding := hinv.holding hpub
  have hself : ∀ pub' : Publisher, Function.update s.publishers p (some pub') p = some pub' :=
    fun _ ↦ Function.update_self ..
  obtain ⟨taskId, staged, inStaging, phase⟩ := pub
  unfold State.advance
  cases phase with
  | called =>
    dsimp only
    split <;> exact ⟨_, hself _, descends (by simp [Phase.rank])⟩
  | syncing b left =>
    cases left <;> exact ⟨_, hself _, descends (by simp [Phase.rank])⟩
  | synced b =>
    have hnone : s.lock = none := hfree.resolve_right fun hlock ↦ hholding hlock
    dsimp only
    split
    · exact ⟨_, hself _, descends (by simp [Phase.rank])⟩
    · rw [if_pos hnone]
      exact ⟨_, hself _, descends (by simp [Phase.rank])⟩
  | locked b =>
    dsimp only
    unfold State.check
    split
    · exact ⟨_, hself _, descends (by simp [Phase.rank])⟩
    · split
      · exact ⟨_, hself _, descends (by simp [Phase.rank])⟩
      · exact ⟨_, hself _, descends (by simp [Phase.rank])⟩
      · split <;> exact ⟨_, hself _, descends (by simp [Phase.rank, SealStep.rank])⟩
  | absent b =>
    dsimp only
    unfold State.rename
    split <;> exact ⟨_, hself _, descends (by simp [Phase.rank])⟩
  | renamed b =>
    dsimp only
    split <;> exact ⟨_, hself _, descends (by simp [Phase.rank, SealStep.rank])⟩
  | sealing b existing todo =>
    cases todo with
    | files left =>
      cases left with
      | nil => exact ⟨_, hself _, descends (by simp [Phase.rank, SealStep.rank])⟩
      | cons name left =>
        dsimp only
        unfold State.sealFile
        split
        · exact ⟨_, hself _, descends (by simp [Phase.rank, SealStep.rank])⟩
        · split <;> exact ⟨_, hself _, descends (by simp [Phase.rank, SealStep.rank])⟩
    | directory | flushDirectory | flushRoot =>
      exact ⟨_, hself _, descends (by simp [Phase.rank, SealStep.rank])⟩
  | sealed b existing =>
    cases existing <;> exact ⟨_, hself _, descends (by simp [Phase.rank])⟩
  | reloading b =>
    dsimp only
    split <;> exact ⟨_, hself _, descends (by simp [Phase.rank])⟩
  | returned b | failed error | raised => exact absurd trivial hfinal

/-- The publisher alone takes this many operations. -/
def State.alone (validate : Contents → Except VerifierError TaskId) (sha256 : Bytes → Digest)
    (s : State) (p n : ℕ) : State := run (step validate sha256) s (List.replicate n (.advance p))

/-- What a publisher comes to, left alone. -/
structure Finishes (validate : Contents → Except VerifierError TaskId) (sha256 : Bytes → Digest)
    (s s' : State) (p : ℕ) (pub pub' : Publisher) : Prop where
  inv : Inv validate sha256 s'
  publisher : s'.publishers p = some pub'
  final : pub'.phase.Final
  call : SameCall pub pub'
  evolves : s.Evolves s'

theorem finishes (hinv : Inv validate sha256 s) (hpub : s.publishers p = some pub)
    (hfree : s.FreeFor p) :
    ∃ n pub', Finishes validate sha256 s (s.alone validate sha256 p n) p pub pub' := by
  have hwf : WellFounded (Prod.Lex (· < · : ℕ → ℕ → Prop) (· < · : ℕ → ℕ → Prop)) :=
    ⟨fun rank ↦ Prod.lexAccessible (Nat.lt_wfRel.wf.apply _) (fun b ↦ Nat.lt_wfRel.wf.apply b) _⟩
  induction hrank : pub.phase.rank using hwf.induction generalizing s pub with
  | _ rank ih =>
    by_cases hfinal : pub.phase.Final
    · exact ⟨0, pub, hinv, hpub, hfinal, .refl pub, (State.Keeps.of_eq rfl).evolves⟩
    · have hadvanced := advanced hinv hpub
      obtain ⟨pub', hpub', hdescends⟩ := advance_descends hinv hpub hfree hfinal
      have hcall : SameCall pub pub' := by
        obtain ⟨pub'', hpublishers, hcall, -⟩ := hadvanced.publishers
        rw [hpublishers, Function.update_self] at hpub'
        exact Option.some.inj hpub' ▸ hcall
      obtain ⟨n, pub'', hfinishes⟩ := ih _ (hrank ▸ hdescends) (hadvanced.inv hinv) hpub'
        (hadvanced.freeFor hfree) rfl
      have hstep : step validate sha256 s (.advance p) = s.advance validate sha256 p pub := by
        simp only [step, hpub]
      refine ⟨n + 1, pub'', ?_⟩
      rw [State.alone, List.replicate_succ, run_cons, hstep]
      exact ⟨hfinishes.inv, hfinishes.publisher, hfinishes.final,
        ⟨hfinishes.call.taskId.trans hcall.taskId, hfinishes.call.staged.trans hcall.staged,
          hfinishes.call.inStaging.trans hcall.inStaging⟩,
        hadvanced.evolves.trans hfinishes.evolves⟩

/-! ## The same bytes, and others -/

/-- The hash does not collide on these two. -/
def NoCollision (sha256 : Bytes → Digest) (d d' : Directory) : Prop :=
  sha256 (hashed d.contents) = sha256 (hashed d'.contents) → hashed d.contents = hashed d'.contents

theorem Publisher.Publishable.of_call {pub' : Publisher} (h : pub.Publishable validate sha256)
    (hcall : SameCall pub pub') : pub'.Publishable validate sha256 := by
  obtain ⟨⟨b, hopen⟩, hv2⟩ := h
  exact ⟨⟨b, hcall.open.trans hopen⟩, hcall.taskId ▸ hv2⟩

/-- A publisher that has returned found its digest in the entry, sealed. -/
theorem returned_sealed (hinv : Inv validate sha256 s) (hpub : s.publishers p = some pub)
    {found : TaskBundle} (hphase : pub.phase = .returned found) :
    ∃ e b, s.entries pub.taskId = some e ∧ e.directory.IsSealed ∧
      loadTaskBundle validate sha256 e.directory = .ok found ∧
      loadTaskBundle validate sha256 pub.staged = .ok b ∧ found.sha256 = b.sha256 := by
  have h := hinv.knows p pub hpub
  unfold Knows at h
  rw [hphase] at h
  obtain ⟨b, hown, e, b', he, hload, hdigest, rfl, hsealed⟩ := h
  exact ⟨e, b, he, hsealed, hload, (open_eq_ok.mp hown).2.1, hdigest⟩

/-- Whoever publishes the bytes of an entry returns with it. -/
theorem converges (hinv : Inv validate sha256 s) (hpub : s.publishers p = some pub)
    (hpublishable : pub.Publishable validate sha256) {e : Entry}
    (he : s.entries pub.taskId = some e)
    (hcontents : e.directory.contents = pub.staged.contents) (hfree : s.FreeFor p) :
    ∃ n pub' found, (s.alone validate sha256 p n).publishers p = some pub' ∧
      pub'.phase = .returned found ∧ SameCall pub pub' ∧
      ∃ e', (s.alone validate sha256 p n).entries pub.taskId = some e' ∧
        e'.directory.data = e.directory.data ∧ e'.directory.IsSealed := by
  obtain ⟨n, pub', h⟩ := finishes hinv hpub hfree
  obtain ⟨e', he', hdirectory, -⟩ := h.evolves pub.taskId e he
  have hknows := h.inv.knows p pub' h.publisher
  have hfinal := h.final
  unfold Knows at hknows
  refine ⟨n, pub', ?_⟩
  cases hphase : pub'.phase with
  | returned found =>
    obtain ⟨e₁, b, he₁, hsealed, -⟩ := returned_sealed h.inv h.publisher hphase
    obtain rfl : e₁ = e' := Option.some.inj ((h.call.taskId ▸ he₁).symm.trans he')
    exact ⟨found, h.publisher, rfl, h.call, e₁, he', hdirectory.data, hsealed⟩
  | failed error =>
    rw [hphase] at hknows
    obtain ⟨-, b, digest, hown, hne, e₁, b₁, he₁, hload, hdigest, -⟩ :=
      hknows (hpublishable.of_call h.call)
    obtain rfl : e₁ = e' := Option.some.inj ((h.call.taskId ▸ he₁).symm.trans he')
    have hsame : e₁.directory.contents = pub'.staged.contents := by
      rw [contents_eq_of_data hdirectory.data, hcontents, contents_eq_of_data h.call.staged]
    have hbundle := (loaded_of_load hload).eq_of_contents
      (loaded_of_load (open_eq_ok.mp hown).2.1) hsame
    exact absurd (hdigest.symm.trans (congrArg TaskBundle.sha256 hbundle)) hne
  | raised =>
    rw [hphase] at hknows
    exact hknows.elim
  | _ =>
    rw [hphase] at hfinal
    exact hfinal.elim

/-- The bytes under the id are others. -/
def State.HoldsOthers (sha256 : Bytes → Digest) (s : State) (pub : Publisher) : Prop :=
  ∃ e, s.entries pub.taskId = some e ∧ e.directory.contents ≠ pub.staged.contents ∧
    NoCollision sha256 e.directory pub.staged

/-- No entry has the digest of other bytes. -/
theorem not_agrees {P : Directory → TaskBundle → Prop} {b : TaskBundle}
    (hothers : s.HoldsOthers sha256 pub) (hown : pub.Own validate sha256 b)
    (h : s.Agrees validate sha256 pub.taskId b.sha256 P) : False := by
  obtain ⟨e, he, hne, hcollision⟩ := hothers
  obtain ⟨e', b', he', hload, hdigest, -⟩ := h
  obtain rfl := Option.some.inj (he.symm.trans he')
  exact hne ((loaded_of_load hload).contents_eq (loaded_of_load (open_eq_ok.mp hown).2.1)
    hdigest hcollision)

/-- A publisher of other bytes leaves every entry as it is. -/
theorem advance_entries (hinv : Inv validate sha256 s) (hpub : s.publishers p = some pub)
    (hothers : s.HoldsOthers sha256 pub) :
    (s.advance validate sha256 p pub).entries = s.entries := by
  have h := hinv.knows p pub hpub
  obtain ⟨taskId, staged, inStaging, phase⟩ := pub
  unfold State.advance
  cases phase with
  | called =>
    dsimp only
    split <;> rfl
  | syncing b left => cases left <;> rfl
  | synced b =>
    dsimp only
    split
    · rfl
    · split <;> rfl
  | locked b =>
    dsimp only
    unfold State.check
    split
    · rfl
    · split
      · rfl
      · rfl
      · split <;> rfl
  | absent b =>
    obtain ⟨e, he, -⟩ := hothers
    cases h.2.2.2.2.symm.trans he
  | renamed b => exact (not_agrees hothers h.1 h.2.2).elim
  | sealing b existing todo => exact (not_agrees hothers h.1 h.2.2).elim
  | sealed b existing => exact (not_agrees hothers h.1 h.2.2).elim
  | reloading b => exact (not_agrees hothers h.1 h.2).elim
  | returned found | failed error | raised => rfl

theorem State.HoldsOthers.of_call {s' : State} {pub' : Publisher} (h : s.HoldsOthers sha256 pub)
    (hentries : s'.entries = s.entries) (hcall : SameCall pub pub') :
    s'.HoldsOthers sha256 pub' := by
  obtain ⟨e, he, hne, hcollision⟩ := h
  have hcontents := contents_eq_of_data hcall.staged
  refine ⟨e, by rw [hentries, hcall.taskId, he], hcontents ▸ hne, ?_⟩
  unfold NoCollision at hcollision ⊢
  rwa [hcontents]

theorem alone_entries (hinv : Inv validate sha256 s) (hpub : s.publishers p = some pub)
    (hothers : s.HoldsOthers sha256 pub) (n : ℕ) :
    (s.alone validate sha256 p n).entries = s.entries := by
  induction n generalizing s pub with
  | zero => rfl
  | succ n ih =>
    have hadvanced := advanced hinv hpub
    have hentries := advance_entries hinv hpub hothers
    obtain ⟨pub', hpublishers, hcall, -⟩ := hadvanced.publishers
    have hpub' : (s.advance validate sha256 p pub).publishers p = some pub' := by
      rw [hpublishers, Function.update_self]
    have hstep : step validate sha256 s (.advance p) = s.advance validate sha256 p pub := by
      simp only [step, hpub]
    rw [State.alone, List.replicate_succ, run_cons, hstep]
    exact (ih (hadvanced.inv hinv) hpub' (hothers.of_call hentries hcall)).trans hentries

/-- Whoever publishes other bytes under the id of an entry is refused. -/
theorem refuses (hinv : Inv validate sha256 s) (hpub : s.publishers p = some pub)
    (hpublishable : pub.Publishable validate sha256) (hothers : s.HoldsOthers sha256 pub)
    (hfree : s.FreeFor p) :
    ∃ n pub' error, (s.alone validate sha256 p n).publishers p = some pub' ∧
      pub'.phase = .failed error ∧ error.reason = .taskCommitmentMismatch ∧
      (s.alone validate sha256 p n).entries = s.entries := by
  obtain ⟨n, pub', h⟩ := finishes hinv hpub hfree
  have hentries := alone_entries hinv hpub hothers n
  have hothers' := hothers.of_call hentries h.call
  have hknows := h.inv.knows p pub' h.publisher
  have hfinal := h.final
  unfold Knows at hknows
  refine ⟨n, pub', ?_⟩
  cases hphase : pub'.phase with
  | returned found =>
    rw [hphase] at hknows
    obtain ⟨b, hown, hagrees⟩ := hknows
    exact (not_agrees hothers' hown hagrees).elim
  | failed error =>
    rw [hphase] at hknows
    exact ⟨error, h.publisher, rfl, (hknows (hpublishable.of_call h.call)).1, hentries⟩
  | raised =>
    rw [hphase] at hknows
    exact hknows.elim
  | _ =>
    rw [hphase] at hfinal
    exact hfinal.elim

/-! ## The store publishes once -/

structure PublishesOnce (validate : Contents → Except VerifierError TaskId)
    (sha256 : Bytes → Digest) (s : State) : Prop where
  /-- an entry holds one complete valid bundle of its id -/
  complete : ∀ taskId e, s.entries taskId = some e →
    ∃ b, loadTaskBundle validate sha256 e.directory = .ok b ∧ b.taskId = taskId
  /-- its bytes do not change, whatever the publishers do and wherever they are killed -/
  stays : ∀ as : List Action, (∀ a ∈ as, ∀ disk, a ≠ .powerLoss disk) →
    s.Retains (run (step validate sha256) s as)
  /-- a loss of power takes away nothing that the root was flushed with -/
  lasts : ∀ as, s.Lasts (run (step validate sha256) s as)
  /-- who has returned has found its digest in the entry, sealed -/
  returned : ∀ p pub found, s.publishers p = some pub → pub.phase = .returned found →
    ∃ e b, s.entries pub.taskId = some e ∧ e.directory.IsSealed ∧
      loadTaskBundle validate sha256 e.directory = .ok found ∧
      loadTaskBundle validate sha256 pub.staged = .ok b ∧ found.sha256 = b.sha256
  /-- who publishes the bytes of an entry returns with it and leaves it sealed -/
  converges : ∀ p pub e, s.publishers p = some pub → pub.Publishable validate sha256 →
    s.entries pub.taskId = some e → e.directory.contents = pub.staged.contents → s.FreeFor p →
    ∃ n pub' found, (s.alone validate sha256 p n).publishers p = some pub' ∧
      pub'.phase = .returned found ∧ SameCall pub pub' ∧
      ∃ e', (s.alone validate sha256 p n).entries pub.taskId = some e' ∧
        e'.directory.data = e.directory.data ∧ e'.directory.IsSealed
  /-- who publishes other bytes changes nothing of the store -/
  spares : ∀ p pub, s.publishers p = some pub → s.HoldsOthers sha256 pub →
    (step validate sha256 s (.advance p)).entries = s.entries
  /-- and is refused -/
  refuses : ∀ p pub, s.publishers p = some pub → pub.Publishable validate sha256 →
    s.HoldsOthers sha256 pub → s.FreeFor p →
    ∃ n pub' error, (s.alone validate sha256 p n).publishers p = some pub' ∧
      pub'.phase = .failed error ∧ error.reason = .taskCommitmentMismatch ∧
      (s.alone validate sha256 p n).entries = s.entries
  /-- the lock is not kept -/
  releases : ∀ p, s.lock = some p → ∃ n, (s.alone validate sha256 p n).lock = none

theorem alone_freeFor (hinv : Inv validate sha256 s) (hpub : s.publishers p = some pub)
    (hfree : s.FreeFor p) (n : ℕ) : (s.alone validate sha256 p n).FreeFor p := by
  induction n generalizing s pub with
  | zero => exact hfree
  | succ n ih =>
    have hadvanced := advanced hinv hpub
    obtain ⟨pub', hpublishers, -⟩ := hadvanced.publishers
    have hpub' : (s.advance validate sha256 p pub).publishers p = some pub' := by
      rw [hpublishers, Function.update_self]
    have hstep : step validate sha256 s (.advance p) = s.advance validate sha256 p pub := by
      simp only [step, hpub]
    rw [State.alone, List.replicate_succ, run_cons, hstep]
    exact ih (hadvanced.inv hinv) hpub' (hadvanced.freeFor hfree)

/-- Nobody is at an end with the lock. -/
theorem not_holding_of_final {phase : Phase} (h : phase.Final) : ¬ phase.Holding := by
  cases phase with
  | returned b | failed error | raised => exact id
  | _ => exact h.elim

theorem lock_released (hinv : Inv validate sha256 s) (hlock : s.lock = some p) :
    ∃ n, (s.alone validate sha256 p n).lock = none := by
  obtain ⟨pub, hpub, -⟩ := hinv.holder p hlock
  obtain ⟨n, pub', h⟩ := finishes hinv hpub (.inr hlock)
  refine ⟨n, (alone_freeFor hinv hpub (.inr hlock) n).resolve_right fun hheld ↦ ?_⟩
  exact not_holding_of_final h.final (h.inv.holding h.publisher hheld)

theorem Inv.publishesOnce (hinv : Inv validate sha256 s) : PublishesOnce validate sha256 s where
  complete taskId e he := (hinv.entries taskId e he).valid
  stays _ has := run_retains hinv has
  lasts := run_lasts hinv
  returned _ _ _ hpub hphase := returned_sealed hinv hpub hphase
  converges _ _ _ hpub hpublishable he hcontents hfree :=
    TaskStore.converges hinv hpub hpublishable he hcontents hfree
  spares p pub hpub hothers := by
    have hstep : step validate sha256 s (.advance p) = s.advance validate sha256 p pub := by
      simp only [step, hpub]
    rw [hstep, advance_entries hinv hpub hothers]
  refuses _ _ hpub hpublishable hothers hfree :=
    TaskStore.refuses hinv hpub hpublishable hothers hfree
  releases _ hlock := lock_released hinv hlock

/-- However publishers interleave, and wherever they are killed or the power fails, the store
publishes once. -/
theorem store_publishes_once (validate : Contents → Except VerifierError TaskId)
    (sha256 : Bytes → Digest) (as : List Action) :
    PublishesOnce validate sha256 (run (step validate sha256) .empty as) :=
  (run_inv inv_empty as).publishesOnce

/-- A bundle of files that are not yet on the disk. -/
def looseBundle : Directory :=
  ⟨taskFileNames.map fun name ↦ (name, ⟨true, [65], 0o644, false⟩), 0o755, false⟩

def looseTaskId : TaskId := "fc-v2-a-000000000000000000000000-formalized"

/-- A publisher is killed between its rename and its seal; the next one leaves the entry sealed. -/
theorem store_publishes_once_killed :
    let validate : Contents → Except VerifierError TaskId := fun _ ↦ .ok looseTaskId
    let sha256 : Bytes → Digest := fun bytes ↦ String.ofList (bytes.map fun b ↦ Char.ofNat b.toNat)
    let s := run (step validate sha256) .empty ([.begin 0 looseTaskId looseBundle true] ++
      List.replicate 12 (.advance 0) ++ [.kill 0, .begin 1 looseTaskId looseBundle true])
    ∃ n e, (s.alone validate sha256 1 n).entries looseTaskId = some e ∧
      e.directory.IsSealed := by
  intro validate sha256 s
  have h : PublishesOnce validate sha256 s := store_publishes_once validate sha256 _
  have hentry : (s.entries looseTaskId).map (·.directory.contents) = some looseBundle.contents := by
    decide +kernel
  obtain ⟨e, he, hcontents⟩ := Option.map_eq_some_iff.mp hentry
  obtain ⟨n, -, -, -, -, -, e', he', -, hsealed⟩ :=
    h.converges 1 ⟨looseTaskId, looseBundle, true, .called⟩ e (by decide +kernel)
      ⟨⟨_, rfl⟩, by decide +kernel⟩ he hcontents (.inl (by decide +kernel))
  exact ⟨n, e', he', hsealed⟩

end Conjectures.TaskStore

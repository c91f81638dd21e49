import Conjectures.TaskStore.Publishers

/-!
# What holds while publishers are at work

Entries only evolve: their bytes stay, and what is sealed or flushed stays so.  What a publisher
knows of the store is kept by everything the others do.
-/

namespace Conjectures.TaskStore

open Lib

variable {validate : Contents → Except VerifierError TaskId} {sha256 : Bytes → Digest}

/-! ## Entries evolve -/

/-- The file keeps its bytes; it may become read-only, and its bytes may reach the disk. -/
structure FileEvolves (f f' : Name × File) : Prop where
  name : f'.1 = f.1
  regular : f'.2.regular = f.2.regular
  content : f'.2.content = f.2.content
  sealed : f.2.mode = sealedFileMode → f'.2.mode = sealedFileMode
  flushed : f.2.flushed → f'.2.flushed

theorem FileEvolves.refl (f : Name × File) : FileEvolves f f := ⟨rfl, rfl, rfl, id, id⟩

theorem FileEvolves.trans {f f' f'' : Name × File} (h : FileEvolves f f')
    (h' : FileEvolves f' f'') : FileEvolves f f'' where
  name := h'.name.trans h.name
  regular := h'.regular.trans h.regular
  content := h'.content.trans h.content
  sealed hf := h'.sealed (h.sealed hf)
  flushed hf := h'.flushed (h.flushed hf)

structure Directory.Evolves (d d' : Directory) : Prop where
  files : List.Forall₂ FileEvolves d.files d'.files
  sealed : d.mode = sealedDirectoryMode → d'.mode = sealedDirectoryMode
  flushed : d.flushed → d'.flushed

theorem Directory.Evolves.refl (d : Directory) : d.Evolves d :=
  ⟨List.forall₂_same.mpr fun f _ ↦ .refl f, id, id⟩

theorem forall₂_evolves_trans {fs fs' fs'' : List (Name × File)}
    (h : List.Forall₂ FileEvolves fs fs') (h' : List.Forall₂ FileEvolves fs' fs'') :
    List.Forall₂ FileEvolves fs fs'' := by
  induction h generalizing fs'' with
  | nil =>
    cases h'
    exact .nil
  | cons hf _ ih =>
    cases h' with
    | cons hf' h' => exact .cons (hf.trans hf') (ih h')

theorem Directory.Evolves.trans {d d' d'' : Directory} (h : d.Evolves d')
    (h' : d'.Evolves d'') : d.Evolves d'' where
  files := forall₂_evolves_trans h.files h'.files
  sealed hd := h'.sealed (h.sealed hd)
  flushed hd := h'.flushed (h.flushed hd)

/-- A map of the files under which each evolves. -/
theorem forall₂_map {fs : List (Name × File)} {g : Name × File → Name × File}
    (h : ∀ f ∈ fs, FileEvolves f (g f)) : List.Forall₂ FileEvolves fs (fs.map g) := by
  rw [List.forall₂_map_right_iff, List.forall₂_same]
  exact h

theorem Directory.Evolves.data {d d' : Directory} (h : d.Evolves d') : d'.data = d.data := by
  have hdata : ∀ {fs fs' : List (Name × File)}, List.Forall₂ FileEvolves fs fs' →
      fs'.map (fun f ↦ (f.1, f.2.regular, f.2.content)) =
        fs.map fun f ↦ (f.1, f.2.regular, f.2.content) := fun h ↦ by
    induction h with
    | nil => rfl
    | cons hf _ ih => rw [List.map_cons, List.map_cons, ih, hf.name, hf.regular, hf.content]
  exact hdata h.files

/-- Every file has its bytes on the disk, and so has the directory its names. -/
def Directory.Flushed (d : Directory) : Prop := d.flushed ∧ ∀ f ∈ d.files, f.2.flushed

theorem mem_of_forall₂ {R : Name × File → Name × File → Prop} {fs fs' : List (Name × File)}
    (h : List.Forall₂ R fs fs') {f' : Name × File} (hf' : f' ∈ fs') : ∃ f ∈ fs, R f f' := by
  induction h with
  | nil => cases hf'
  | cons hf _ ih =>
    rcases List.mem_cons.mp hf' with rfl | hf'
    · exact ⟨_, List.mem_cons_self, hf⟩
    · obtain ⟨f, hmem, h⟩ := ih hf'
      exact ⟨f, List.mem_cons_of_mem _ hmem, h⟩

/-- A file of what a directory became was there before. -/
theorem Directory.Evolves.mem {d d' : Directory} (h : d.Evolves d') {f' : Name × File}
    (hf' : f' ∈ d'.files) : ∃ f ∈ d.files, FileEvolves f f' := mem_of_forall₂ h.files hf'

theorem Directory.Evolves.flushed_of {d d' : Directory} (h : d.Evolves d') (hd : d.Flushed) :
    d'.Flushed := by
  refine ⟨h.flushed hd.1, fun f' hf' ↦ ?_⟩
  obtain ⟨f, hf, hevolves⟩ := h.mem hf'
  exact hevolves.flushed (hd.2 f hf)

/-- The files that are sealed stay sealed, the rest apart. -/
theorem Directory.Evolves.sealed_files {d d' : Directory} (h : d.Evolves d') {left : List Name}
    (hd : ∀ f ∈ d.files, f.2.mode = sealedFileMode ∨ f.1 ∈ left) :
    ∀ f ∈ d'.files, f.2.mode = sealedFileMode ∨ f.1 ∈ left := by
  intro f' hf'
  obtain ⟨f, hf, hevolves⟩ := h.mem hf'
  rw [hevolves.name]
  exact (hd f hf).imp_left hevolves.sealed

theorem Directory.Evolves.isSealed {d d' : Directory} (h : d.Evolves d') (hd : d.IsSealed) :
    d'.IsSealed := by
  refine ⟨h.sealed hd.1, fun f' hf' ↦ ?_⟩
  obtain ⟨f, hf, hevolves⟩ := h.mem hf'
  exact hevolves.sealed (hd.2 f hf)

/-! ### The operations -/

theorem evolves_flushFile (d : Directory) (name : Name) : d.Evolves (d.flushFile name) := by
  refine ⟨forall₂_map fun f _ ↦ ?_, id, id⟩
  split
  · exact ⟨rfl, rfl, rfl, id, fun _ ↦ rfl⟩
  · exact .refl f

theorem evolves_flush (d : Directory) : d.Evolves d.flush :=
  ⟨List.forall₂_same.mpr fun f _ ↦ .refl f, id, fun _ ↦ rfl⟩

theorem evolves_sealFile (d : Directory) (name : Name) : d.Evolves (d.sealFile name) := by
  refine ⟨forall₂_map fun f _ ↦ ?_, id, id⟩
  split
  · exact ⟨rfl, rfl, rfl, fun _ ↦ rfl, id⟩
  · exact .refl f

theorem evolves_sealDirectory (d : Directory) : d.Evolves d.sealDirectory :=
  ⟨List.forall₂_same.mpr fun f _ ↦ .refl f, fun _ ↦ rfl, id⟩

/-! ## The store evolves -/

/-- No entry is lost; each evolves, and none is cut from the disk. -/
def State.Evolves (s s' : State) : Prop :=
  ∀ taskId e, s.entries taskId = some e → ∃ e', s'.entries taskId = some e' ∧
    e.directory.Evolves e'.directory ∧ (e.flushed → e'.flushed)

theorem State.Evolves.trans {s s' s'' : State} (h : s.Evolves s') (h' : s'.Evolves s'') :
    s.Evolves s'' := by
  intro taskId e he
  obtain ⟨e', he', hdirectory, hflushed⟩ := h taskId e he
  obtain ⟨e'', he'', hdirectory', hflushed'⟩ := h' taskId e' he'
  exact ⟨e'', he'', hdirectory.trans hdirectory', fun hf ↦ hflushed' (hflushed hf)⟩

/-- The store evolves, and has no entry that it had not. -/
def State.Keeps (s s' : State) : Prop :=
  ∀ taskId, (s.entries taskId = none ∧ s'.entries taskId = none) ∨
    ∃ e e', s.entries taskId = some e ∧ s'.entries taskId = some e' ∧
      e.directory.Evolves e'.directory ∧ (e.flushed → e'.flushed)

theorem State.Keeps.evolves {s s' : State} (h : s.Keeps s') : s.Evolves s' := by
  intro taskId e he
  rcases h taskId with ⟨hnone, -⟩ | ⟨e₁, e', he₁, he', hdirectory, hflushed⟩
  · rw [hnone] at he
    cases he
  · obtain rfl := Option.some.inj (he₁.symm.trans he)
    exact ⟨e', he', hdirectory, hflushed⟩

theorem State.Keeps.absent {s s' : State} (h : s.Keeps s') {taskId : TaskId}
    (hnone : s.entries taskId = none) : s'.entries taskId = none := by
  rcases h taskId with ⟨-, hnone'⟩ | ⟨e, e', he, -⟩
  · exact hnone'
  · rw [hnone] at he
    cases he

theorem State.Keeps.before {s s' : State} (h : s.Keeps s') {taskId : TaskId} {e' : Entry}
    (he' : s'.entries taskId = some e') :
    ∃ e, s.entries taskId = some e ∧ e.directory.Evolves e'.directory := by
  rcases h taskId with ⟨-, hnone⟩ | ⟨e, e₁, he, he₁, hdirectory, -⟩
  · rw [hnone] at he'
    cases he'
  · obtain rfl := Option.some.inj (he₁.symm.trans he')
    exact ⟨e, he, hdirectory⟩

theorem State.Keeps.of_eq {s s' : State} (h : s'.entries = s.entries) : s.Keeps s' := by
  intro taskId
  cases he : s.entries taskId with
  | none => exact .inl ⟨rfl, by rw [h, he]⟩
  | some e => exact .inr ⟨e, e, rfl, by rw [h, he], .refl _, id⟩

theorem keeps_onEntry {s : State} (taskId : TaskId) {g : Directory → Directory}
    (hg : ∀ d : Directory, d.Evolves (g d)) : s.Keeps (s.onEntry taskId g) := by
  intro other
  cases he : s.entries other with
  | none =>
    refine .inl ⟨rfl, ?_⟩
    by_cases hother : other = taskId
    · subst hother
      simp [State.onEntry, he]
    · simp [State.onEntry, Function.update_of_ne hother, he]
  | some e =>
    by_cases hother : other = taskId
    · subst hother
      exact .inr ⟨e, e.modify g, rfl, by simp [State.onEntry, he], hg _, id⟩
    · exact .inr ⟨e, e, rfl, by simp [State.onEntry, Function.update_of_ne hother, he], .refl _, id⟩

theorem keeps_flushRoot (s : State) : s.Keeps s.flushRoot := by
  intro taskId
  cases he : s.entries taskId with
  | none => exact .inl ⟨rfl, by simp [State.flushRoot, he]⟩
  | some e =>
    exact .inr ⟨e, { e with flushed := true }, rfl, by simp [State.flushRoot, he], .refl _,
      fun _ ↦ rfl⟩

/-! ## What a publisher knows -/

/-- The bytes under the id are valid, and of this digest. -/
def State.Agrees (validate : Contents → Except VerifierError TaskId) (sha256 : Bytes → Digest)
    (s : State) (taskId : TaskId) (digest : Digest) (P : Directory → TaskBundle → Prop) : Prop :=
  ∃ e b, s.entries taskId = some e ∧ loadTaskBundle validate sha256 e.directory = .ok b ∧
    b.sha256 = digest ∧ P e.directory b

/-- What a directory keeps as it evolves. -/
def Lasting (P : Directory → TaskBundle → Prop) : Prop :=
  ∀ d d' b, d.Evolves d' → P d b → P d' b

theorem State.Agrees.evolve {s s' : State} {taskId : TaskId} {digest : Digest}
    {P : Directory → TaskBundle → Prop} (h : s.Agrees validate sha256 taskId digest P)
    (hevolves : s.Evolves s') (hP : Lasting P) : s'.Agrees validate sha256 taskId digest P := by
  obtain ⟨e, b, he, hload, hdigest, hp⟩ := h
  obtain ⟨e', he', hdirectory, -⟩ := hevolves taskId e he
  exact ⟨e', b, he', (loadTaskBundle_congr hdirectory.data).trans hload, hdigest,
    hP _ _ b hdirectory hp⟩

/-- How far the entry is sealed, and which bundle was found in it. -/
def SealedTo (existing : Option TaskBundle) (todo : SealStep) (d : Directory)
    (b : TaskBundle) : Prop :=
  (∀ found ∈ existing, found = b) ∧
    match todo with
    | .files left => ∀ f ∈ d.files, f.2.mode = sealedFileMode ∨ f.1 ∈ left
    | .directory => ∀ f ∈ d.files, f.2.mode = sealedFileMode
    | .flushDirectory | .flushRoot => d.IsSealed

theorem lasting_sealedTo (existing : Option TaskBundle) (todo : SealStep) :
    Lasting (SealedTo existing todo) := by
  rintro d d' b h ⟨hexisting, hsealed⟩
  refine ⟨hexisting, ?_⟩
  cases todo with
  | files left => exact h.sealed_files hsealed
  | directory =>
    have hnone := @Directory.Evolves.sealed_files d d' h [] fun f hf ↦ .inl (hsealed f hf)
    exact fun f hf ↦ (hnone f hf).resolve_right (List.not_mem_nil)
  | flushDirectory | flushRoot => exact h.isSealed hsealed

/-- The bundle in the entry is this one, and sealed. -/
def SealedAs (bundle : TaskBundle) (d : Directory) (b : TaskBundle) : Prop :=
  bundle = b ∧ d.IsSealed

theorem lasting_sealedAs (bundle : TaskBundle) : Lasting (SealedAs bundle) :=
  fun _ _ _ h hd ↦ ⟨hd.1, h.isSealed hd.2⟩

/-- The bundle passes what `publish` asks of it before it takes the lock. -/
def Publisher.Publishable (validate : Contents → Except VerifierError TaskId)
    (sha256 : Bytes → Digest) (pub : Publisher) : Prop :=
  (∃ b, pub.open validate sha256 = .ok b) ∧ isV2TaskId pub.taskId

/-- The staged bundle, as it was loaded. -/
def Publisher.Own (validate : Contents → Except VerifierError TaskId) (sha256 : Bytes → Digest)
    (pub : Publisher) (bundle : TaskBundle) : Prop := pub.open validate sha256 = .ok bundle

/-- What is known of the store at each point of a publication. -/
def Knows (validate : Contents → Except VerifierError TaskId) (sha256 : Bytes → Digest)
    (s : State) (p : ℕ) (pub : Publisher) : Prop :=
  match pub.phase with
  | .called => True
  | .syncing b left => pub.Own validate sha256 b ∧
      ∀ f ∈ pub.staged.files, f.2.flushed ∨ f.1 ∈ left
  | .synced b => pub.Own validate sha256 b ∧ pub.staged.Flushed
  | .locked b => pub.Own validate sha256 b ∧ pub.staged.Flushed ∧ isV2TaskId pub.taskId ∧
      s.lock = some p
  | .absent b => pub.Own validate sha256 b ∧ pub.staged.Flushed ∧ isV2TaskId pub.taskId ∧
      s.lock = some p ∧ s.entries pub.taskId = none
  | .renamed b => pub.Own validate sha256 b ∧ s.lock = some p ∧
      s.Agrees validate sha256 pub.taskId b.sha256 fun _ _ ↦ True
  | .sealing b existing todo => pub.Own validate sha256 b ∧ s.lock = some p ∧
      s.Agrees validate sha256 pub.taskId b.sha256 (SealedTo existing todo)
  | .sealed b existing => pub.Own validate sha256 b ∧ s.lock = some p ∧
      s.Agrees validate sha256 pub.taskId b.sha256 (SealedTo existing .flushRoot)
  | .reloading b => pub.Own validate sha256 b ∧
      s.Agrees validate sha256 pub.taskId b.sha256 fun d _ ↦ d.IsSealed
  | .returned found => ∃ b, pub.Own validate sha256 b ∧
      s.Agrees validate sha256 pub.taskId b.sha256 (SealedAs found)
  | .failed error => pub.Publishable validate sha256 →
      error.reason = .taskCommitmentMismatch ∧ ∃ b digest, pub.Own validate sha256 b ∧
        digest ≠ b.sha256 ∧ s.Agrees validate sha256 pub.taskId digest fun _ _ ↦ True
  | .raised => False

/-- What the others do leaves what a publisher knows. -/
structure Spares (s s' : State) (p : ℕ) : Prop where
  evolves : s.Evolves s'
  lock : s.lock = some p → s'.lock = some p
  absent : s.lock = some p → ∀ taskId, s.entries taskId = none → s'.entries taskId = none

theorem Knows.spared {s s' : State} {p : ℕ} {pub : Publisher}
    (h : Knows validate sha256 s p pub) (hs : Spares s s' p) :
    Knows validate sha256 s' p pub := by
  have htrue : Lasting fun _ _ ↦ True := fun _ _ _ _ _ ↦ trivial
  unfold Knows at h ⊢
  cases hphase : pub.phase with
  | called => trivial
  | syncing b left => simpa only [hphase] using h
  | synced b => simpa only [hphase] using h
  | locked b =>
    simp only [hphase] at h ⊢
    exact ⟨h.1, h.2.1, h.2.2.1, hs.lock h.2.2.2⟩
  | absent b =>
    simp only [hphase] at h ⊢
    obtain ⟨hown, hflushed, hv2, hlock, hnone⟩ := h
    exact ⟨hown, hflushed, hv2, hs.lock hlock, hs.absent hlock _ hnone⟩
  | renamed b =>
    simp only [hphase] at h ⊢
    exact ⟨h.1, hs.lock h.2.1, h.2.2.evolve hs.evolves htrue⟩
  | sealing b existing todo =>
    simp only [hphase] at h ⊢
    exact ⟨h.1, hs.lock h.2.1, h.2.2.evolve hs.evolves (lasting_sealedTo existing todo)⟩
  | sealed b existing =>
    simp only [hphase] at h ⊢
    exact ⟨h.1, hs.lock h.2.1, h.2.2.evolve hs.evolves (lasting_sealedTo existing .flushRoot)⟩
  | reloading b =>
    simp only [hphase] at h ⊢
    exact ⟨h.1, h.2.evolve hs.evolves fun _ _ _ hevolves hd ↦ hevolves.isSealed hd⟩
  | returned found =>
    simp only [hphase] at h ⊢
    obtain ⟨b, hown, hagrees⟩ := h
    exact ⟨b, hown, hagrees.evolve hs.evolves (lasting_sealedAs found)⟩
  | failed error =>
    simp only [hphase] at h ⊢
    intro hpublishable
    obtain ⟨hreason, b, digest, hown, hne, hagrees⟩ := h hpublishable
    exact ⟨hreason, b, digest, hown, hne, hagrees.evolve hs.evolves htrue⟩
  | raised => simp only [hphase] at h

/-! ## One operation -/

/-- An entry is one complete valid bundle of its id, all of it on the disk. -/
structure EntryOk (validate : Contents → Except VerifierError TaskId) (sha256 : Bytes → Digest)
    (taskId : TaskId) (d : Directory) : Prop where
  v2 : isV2TaskId taskId
  flushed : d.Flushed
  valid : ∃ b, loadTaskBundle validate sha256 d = .ok b ∧ b.taskId = taskId

theorem EntryOk.evolve {taskId : TaskId} {d d' : Directory}
    (h : EntryOk validate sha256 taskId d) (hevolves : d.Evolves d') :
    EntryOk validate sha256 taskId d' := by
  obtain ⟨b, hload, hid⟩ := h.valid
  exact ⟨h.v2, hevolves.flushed_of h.flushed,
    b, (loadTaskBundle_congr hevolves.data).trans hload, hid⟩

structure Inv (validate : Contents → Except VerifierError TaskId) (sha256 : Bytes → Digest)
    (s : State) : Prop where
  entries : ∀ taskId e, s.entries taskId = some e →
    EntryOk validate sha256 taskId e.directory
  knows : ∀ p pub, s.publishers p = some pub → Knows validate sha256 s p pub
  holder : ∀ p, s.lock = some p → ∃ pub, s.publishers p = some pub ∧ pub.phase.Holding

/-- The call is the one it was, though its bytes may have reached the disk. -/
structure SameCall (pub pub' : Publisher) : Prop where
  taskId : pub'.taskId = pub.taskId
  staged : pub'.staged.data = pub.staged.data
  inStaging : pub'.inStaging = pub.inStaging

/-- What an operation of a publisher may change. -/
structure Advanced (validate : Contents → Except VerifierError TaskId)
    (sha256 : Bytes → Digest) (s s' : State) (p : ℕ) (pub : Publisher) : Prop where
  evolves : s.Evolves s'
  /-- an entry that was not there is put in place under the lock -/
  entries : s.Keeps s' ∨ s.lock = some p ∧ ∃ e, EntryOk validate sha256 pub.taskId e.directory ∧
    s.entries pub.taskId = none ∧ s'.entries = Function.update s.entries pub.taskId (some e)
  publishers : ∃ pub', s'.publishers = Function.update s.publishers p (some pub') ∧
    SameCall pub pub' ∧ Knows validate sha256 s' p pub' ∧
    (s'.lock = some p → pub'.phase.Holding)
  lock : s'.lock = s.lock ∨ s.lock = none ∧ s'.lock = some p ∨ s.lock = some p ∧ s'.lock = none

theorem Advanced.spares {s s' : State} {p q : ℕ} {pub : Publisher}
    (h : Advanced validate sha256 s s' p pub) (hq : q ≠ p) : Spares s s' q where
  evolves := h.evolves
  lock hlock := by
    rcases h.lock with heq | ⟨hfree, -⟩ | ⟨hheld, -⟩
    · rw [heq, hlock]
    · rw [hfree] at hlock
      cases hlock
    · exact absurd (Option.some.inj (hlock.symm.trans hheld)) hq
  absent hlock taskId hnone := by
    rcases h.entries with hkeeps | ⟨hheld, -⟩
    · exact hkeeps.absent hnone
    · exact absurd (Option.some.inj (hlock.symm.trans hheld)) hq

/-- An operation that does what it may keeps the invariant. -/
theorem Advanced.inv {s s' : State} {p : ℕ} {pub : Publisher}
    (h : Advanced validate sha256 s s' p pub) (hinv : Inv validate sha256 s) :
    Inv validate sha256 s' := by
  obtain ⟨pub', hpublishers, -, hknows, hholding⟩ := h.publishers
  refine ⟨fun taskId e' he' ↦ ?_, fun q pubq hq ↦ ?_, fun q hq ↦ ?_⟩
  · rcases h.entries with hkeeps | ⟨-, e, hok, -, hentries⟩
    · obtain ⟨e, he, hevolves⟩ := hkeeps.before he'
      exact (hinv.entries taskId e he).evolve hevolves
    · rw [hentries] at he'
      by_cases hid : taskId = pub.taskId
      · subst hid
        rw [Function.update_self] at he'
        exact Option.some.inj he' ▸ hok
      · rw [Function.update_of_ne hid] at he'
        exact hinv.entries taskId e' he'
  · rw [hpublishers] at hq
    by_cases hqp : q = p
    · subst hqp
      rw [Function.update_self] at hq
      exact Option.some.inj hq ▸ hknows
    · rw [Function.update_of_ne hqp] at hq
      exact (hinv.knows q pubq hq).spared (h.spares hqp)
  · rw [hpublishers]
    by_cases hqp : q = p
    · subst hqp
      exact ⟨pub', Function.update_self .., hholding hq⟩
    · rw [Function.update_of_ne hqp]
      rcases h.lock with heq | ⟨-, hheld⟩ | ⟨-, hfree⟩
      · exact hinv.holder q (heq ▸ hq)
      · exact absurd (Option.some.inj (hq.symm.trans hheld)) hqp
      · rw [hfree] at hq
        cases hq

end Conjectures.TaskStore

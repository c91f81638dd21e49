import Conjectures.Lib.Run
import Conjectures.Publication.Recovery

/-!
# No crash loses a commit

Along every run of writers the checkout is sound against the last completed commit (`Inv`), so a
writer that gets into the body of `checkout_writer` finds one committed state and no journal.
Whatever was left when the lock is free, the next writer does get there.
-/

namespace Conjectures.Publication

open Lib

variable {sha256 : Bytes → Digest}

/-! ## Along a run -/

/-- The checkout is sound against the last completed commit; `Q` is what is known of the release
that is under way, given what was committed before. -/
def Inv (sha256 : Bytes → Digest) (Q : List CheckoutSnapshot → Release → Prop) (w : World) :
    Prop :=
  ∃ last ∈ w.committed.head?, Sound sha256 (Q w.committed) last w.checkout w.lock

/-- Nobody has worked on the checkout since it was last committed. -/
structure Opening (w : World) : Prop where
  lock : w.lock = none
  journal : w.checkout.journal = none
  committed : w.committed = [w.checkout.snapshot]

theorem Opening.inv {Q : List CheckoutSnapshot → Release → Prop} {w : World} (h : Opening w) :
    Inv sha256 Q w := by
  refine ⟨w.checkout.snapshot, by rw [h.committed]; rfl, .settled ⟨h.journal, rfl⟩ ?_⟩
  rw [h.lock]
  exact .free

theorem step_inv {Q : List CheckoutSnapshot → Release → Prop} {w : World} {a : Action}
    (hcommit : ∀ p previous recovered, a = .commit p previous →
      w.lock = some (.ready recovered) → Q w.committed p) (h : Inv sha256 Q w) :
    Inv sha256 Q (step sha256 w a) := by
  obtain ⟨last, hlast, hsound⟩ := h
  cases step_stepped hcommit hsound with
  | stays hcommitted hsound hchange => exact ⟨last, hcommitted ▸ hlast, hcommitted ▸ hsound⟩
  | completes p hQ hcommitted hsettled hquiet =>
    exact ⟨p.after last, by rw [hcommitted]; rfl, .settled hsettled hquiet⟩

theorem run_inv {w : World} (h : Opening w) (as : List Action) :
    Inv sha256 (fun _ _ ↦ True) (run (step sha256) w as) :=
  run_invariant (fun _ _ ↦ step_inv fun _ _ _ _ _ ↦ trivial) h.inv as

/-- In the body of `checkout_writer` nothing is pending. -/
theorem Sound.settled_of_ready {Q : Release → Prop} {last : CheckoutSnapshot} {c : Checkout}
    {recovered : Option Digest} (h : Sound sha256 Q last c (some (.ready recovered))) :
    Settled c last := by
  cases h with
  | settled h => exact h
  | pending p hp hQ h hlock => rcases hlock with hlock | hlock <;> cases hlock
  | rolling p hp hQ hjournal todo recovered h hlock => cases hlock
  | executing p hp hQ todo recovered h hlock => cases hlock

/-! ## No completed commit is lost -/

/-- No completed commit is lost by a step. -/
structure KeepsHistory (sha256 : Bytes → Digest) (w : World) (a : Action) : Prop where
  kept : w.committed <:+ (step sha256 w a).committed
  /-- the registry it replaces is the one the last completed commit wrote -/
  replaced : (step sha256 w a).checkout.registry ≠ w.checkout.registry →
    w.committed.head?.map (·.registry) = some w.checkout.registry
  /-- a commit goes ahead only where it was derived from that registry -/
  derived : ∀ p previous recovered, a = .commit p previous → w.lock = some (.ready recovered) →
    p.Named w.checkout → (step sha256 w a).lock ≠ none →
    w.committed.head?.map (fun last ↦ last.registry.map sha256) = some previous

theorem Change.registry_eq {last : CheckoutSnapshot} {p : Release} {c c' : Checkout}
    (h : Change last p c c') : c'.registry = c.registry ∨ c.registry = last.registry := by
  cases h with
  | nothing hjournal hsnapshot => exact Or.inl (congrArg CheckoutSnapshot.registry hsnapshot)
  | journals hnone hsome hsnapshot => exact Or.inl (congrArg CheckoutSnapshot.registry hsnapshot)
  | allowlist hjournal hsome hold hregistry => exact Or.inr hold
  | registry hjournal hsome hold hnew => exact Or.inr hold
  | unlinks hnone hnew hsnapshot => exact Or.inl (congrArg CheckoutSnapshot.registry hsnapshot)

theorem keepsHistory_of_inv {w : World} {a : Action} (h : Inv sha256 (fun _ _ ↦ True) w) :
    KeepsHistory sha256 w a := by
  obtain ⟨last, hlast, hsound⟩ := h
  have hregistry : ∀ {p : Release}, Change last p w.checkout (step sha256 w a).checkout →
      (step sha256 w a).checkout.registry ≠ w.checkout.registry →
      w.committed.head?.map (·.registry) = some w.checkout.registry := fun hchange hne ↦ by
    rw [Option.mem_def.mp hlast]
    exact congrArg some (hchange.registry_eq.resolve_left hne).symm
  have hderived : ∀ p previous recovered, a = .commit p previous →
      w.lock = some (.ready recovered) → p.Named w.checkout → (step sha256 w a).lock ≠ none →
      w.committed.head?.map (fun last ↦ last.registry.map sha256) = some previous := by
    rintro p previous recovered rfl hready hnamed hgoes
    rw [hready] at hsound
    rw [Option.mem_def.mp hlast, Option.map_some, ← hsound.settled_of_ready.2]
    by_contra hother
    have hdigest : w.checkout.digest sha256 registryName ≠ previous :=
      fun hdigest ↦ hother (congrArg some hdigest)
    refine hgoes ?_
    simp only [step, hready, World.commit, if_pos hnamed, if_neg hdigest]
    rfl
  cases step_stepped (fun _ _ _ _ _ ↦ trivial) hsound with
  | stays hcommitted hsound hchange =>
    refine ⟨hcommitted ▸ List.suffix_refl _, fun hne ↦ ?_, hderived⟩
    rcases hchange with hsame | ⟨p, -, hchange⟩
    · exact absurd (by rw [hsame]) hne
    · exact hregistry hchange hne
  | completes p hQ hcommitted hsettled hquiet hchange =>
    exact ⟨hcommitted ▸ List.suffix_cons _ _, hregistry hchange, hderived⟩

/-! ## The next writer gets there -/

/-- The holder of the lock gets into the body of `checkout_writer`. -/
def Reaches (sha256 : Bytes → Digest) (w : World) : Prop :=
  ∃ n recovered, (run (step sha256) w (List.replicate n .advance)).lock =
    some (.ready recovered)

theorem Reaches.of_step {w : World} (h : Reaches sha256 (step sha256 w .advance)) :
    Reaches sha256 w := by
  obtain ⟨n, recovered, h⟩ := h
  exact ⟨n + 1, recovered, h⟩

/-- Whatever was committed last, and whatever is under way. -/
def AnySound (sha256 : Bytes → Digest) (w : World) : Prop :=
  ∃ last, Sound sha256 (fun _ ↦ True) last w.checkout w.lock

theorem step_anySound {w : World} {a : Action} (h : AnySound sha256 w) :
    AnySound sha256 (step sha256 w a) := by
  obtain ⟨last, h⟩ := h
  cases step_stepped (fun _ _ _ _ _ ↦ trivial) h with
  | stays hcommitted hsound => exact ⟨last, hsound⟩
  | completes p hQ hcommitted hsettled hquiet => exact ⟨p.after last, .settled hsettled hquiet⟩

theorem Sound.apply {Q : Release → Prop} {last : CheckoutSnapshot} {c : Checkout} {op : FileOp}
    {todo : List FileOp} {recovered : Option Digest}
    (h : Sound sha256 Q last c (some (.executing (op :: todo) recovered))) :
    ∃ c', op.apply c = some c' := by
  cases h with
  | settled h hlock =>
    cases hlock with
    | closed todo' htodo =>
      rcases htodo with htodo | htodo
      · cases htodo
      · cases htodo
        exact ⟨c, rfl⟩
  | pending p hp hQ h hlock => rcases hlock with hlock | hlock <;> cases hlock
  | rolling p hp hQ hjournal todo recovered h hlock => cases hlock
  | executing p hp hQ todo' recovered' h hlock =>
    cases hlock
    obtain ⟨c', happly, -⟩ := h.step hp
    exact ⟨c', happly⟩

theorem reaches_executing {todo : List FileOp} {recovered : Option Digest} {w : World}
    (h : AnySound sha256 w) (hlock : w.lock = some (.executing todo recovered)) :
    Reaches sha256 w := by
  induction todo generalizing w with
  | nil =>
    refine ⟨1, recovered, ?_⟩
    simp only [List.replicate_one, run_cons, run_nil, step, hlock, World.advance]
  | cons op todo ih =>
    refine Reaches.of_step (ih (step_anySound h) ?_)
    obtain ⟨last, hsound⟩ := h
    obtain ⟨c', happly⟩ := (hlock ▸ hsound).apply
    simp only [step, hlock, World.advance, World.execute, happly]

theorem reaches_rolling {todo : List JournalStep} {recovered : Digest} {w : World}
    (h : AnySound sha256 w) (hlock : w.lock = some (.rolling todo recovered)) :
    Reaches sha256 w := by
  induction todo generalizing w with
  | nil =>
    refine Reaches.of_step
      (@reaches_executing sha256 closing (some recovered) _ (step_anySound h) ?_)
    simp only [step, hlock, World.advance]
  | cons s todo ih =>
    refine Reaches.of_step (ih (step_anySound h) ?_)
    obtain ⟨last, hsound⟩ := h
    rw [hlock] at hsound
    obtain ⟨c', hroll⟩ : ∃ c', rollForward sha256 w.checkout s = some c' := by
      cases hsound with
      | settled h hquiet => cases hquiet
      | pending p hp hQ h hlock => rcases hlock with hlock | hlock <;> cases hlock
      | rolling p hp hQ hjournal todo' recovered' h hlock =>
        cases hlock
        obtain ⟨c', hroll, -⟩ := h.step hp (by rw [hjournal]; intro h; cases h)
        exact ⟨c', hroll⟩
      | executing p hp hQ todo recovered h hlock => cases hlock
    simp only [step, hlock, World.advance, hroll]

/-- The next writer finishes what was interrupted. -/
theorem reaches_acquire {w : World} (h : AnySound sha256 w) (hlock : w.lock = none) :
    Reaches sha256 (step sha256 w .acquire) := by
  have hopening : step sha256 w .acquire = { w with lock := some .opening } := by
    simp only [step, hlock, Option.isNone_none, if_true]
  have hany := @step_anySound sha256 w .acquire h
  rw [hopening] at hany ⊢
  obtain ⟨last, hsound⟩ := id hany
  cases hsound with
  | settled h =>
    have hjournal : w.checkout.journal = none := h.1
    refine ⟨1, none, ?_⟩
    simp only [List.replicate_one, run_cons, run_nil, step, World.advance, hjournal]
  | pending p hp hQ h =>
    have hjournal : w.checkout.journal = some (.steps (p.steps sha256)) := h.journal
    refine Reaches.of_step (@reaches_rolling sha256 (p.steps sha256)
      (((p.steps sha256).getLast?.map (·.sha256)).getD "") _ (step_anySound hany) ?_)
    simp only [step, World.advance, hjournal, accepted_steps]
  | rolling p hp hQ hjournal todo recovered h hlock => cases hlock
  | executing p hp hQ todo recovered h hlock => cases hlock

/-! ## One commit, and what its crash leaves -/

/-- What became of one commit in `w`, where `old` is what was committed before it. -/
structure Survives (sha256 : Bytes → Digest) (p : Release) (old : CheckoutSnapshot) (w : World) :
    Prop where
  /-- the next writer finishes its recovery, unless it dies -/
  completes : w.lock = none → Reaches sha256 (step sha256 w .acquire)
  clean : ∀ recovered, w.lock = some (.ready recovered) → w.checkout.journal = none
  whole : ∀ recovered, w.lock = some (.ready recovered) →
    w.checkout.snapshot = old ∨ w.checkout.snapshot = p.after old
  /-- a second recovery changes nothing -/
  again : ∀ recovered, w.lock = some (.ready recovered) →
    run (step sha256) w [.crash, .acquire, .advance] = { w with lock := some (.ready none) }

/-- What `Inv` knows of the one release under way. -/
def OnlyRelease (p : Release) (old : List CheckoutSnapshot) (committed : List CheckoutSnapshot)
    (p' : Release) : Prop :=
  p' = p ∧ committed = old

/-- Without another commit, only this one completes. -/
def OneCommit (sha256 : Bytes → Digest) (p : Release) (last : CheckoutSnapshot)
    (old : List CheckoutSnapshot) (w : World) : Prop :=
  Inv sha256 (OnlyRelease p old) w ∧
    (w.committed = old ∨ w.committed = p.after last :: old)

theorem step_oneCommit {p : Release} {last : CheckoutSnapshot} {old : List CheckoutSnapshot}
    {w : World} {a : Action} (hold : old.head? = some last)
    (hcommit : ∀ p' previous recovered, a = .commit p' previous →
      w.lock = some (.ready recovered) → OnlyRelease p old w.committed p')
    (h : OneCommit sha256 p last old w) : OneCommit sha256 p last old (step sha256 w a) := by
  obtain ⟨hinv, hcommitted⟩ := h
  refine ⟨step_inv hcommit hinv, ?_⟩
  obtain ⟨last', hlast, hsound⟩ := hinv
  cases step_stepped hcommit hsound with
  | stays hsame => exact hsame ▸ hcommitted
  | completes p' hQ hnew =>
    obtain ⟨rfl, hfirst⟩ := hQ
    rw [hfirst, hold] at hlast
    cases hlast
    exact Or.inr (by rw [hnew, hfirst])

theorem OneCommit.survives {p : Release} {last : CheckoutSnapshot} {old : List CheckoutSnapshot}
    {w : World} (hold : old.head? = some last) (h : OneCommit sha256 p last old w) :
    Survives sha256 p last w := by
  obtain ⟨⟨last', hlast, hsound⟩, hcommitted⟩ := h
  have hsettled : ∀ recovered, w.lock = some (.ready recovered) → Settled w.checkout last' :=
    fun recovered hready ↦ by
      rw [hready] at hsound
      exact hsound.settled_of_ready
  have hwhole : last' = last ∨ last' = p.after last := by
    rcases hcommitted with hcommitted | hcommitted
    · rw [hcommitted, hold] at hlast
      exact Or.inl (Option.some.inj hlast).symm
    · rw [hcommitted] at hlast
      exact Or.inr (Option.some.inj hlast).symm
  refine ⟨fun hlock ↦ reaches_acquire ⟨last', hsound.mono fun _ _ ↦ trivial⟩ hlock,
    fun recovered hready ↦ (hsettled recovered hready).1, fun recovered hready ↦ ?_,
    fun recovered hready ↦ ?_⟩
  · rw [(hsettled recovered hready).2]
    exact hwhole
  · simp only [run_cons, run_nil, step, World.release, World.advance, Option.isNone_none, if_true,
      (hsettled recovered hready).1]

/-- An action that is not a call of `commit_publication`. -/
def Action.Commits : Action → Prop
  | .commit _ _ => True
  | _ => False

/-- The state before a commit, as the writer that calls it finds it. -/
theorem oneCommit_of_ready {p : Release} {last : CheckoutSnapshot} {w : World}
    {recovered : Option Digest} (hlast : w.committed.head? = some last)
    (hsettled : Settled w.checkout last) (hready : w.lock = some (.ready recovered)) :
    OneCommit sha256 p last w.committed w :=
  ⟨⟨last, hlast, .settled hsettled (hready ▸ .ready recovered)⟩, Or.inl rfl⟩

theorem run_oneCommit {p : Release} {last : CheckoutSnapshot} {old : List CheckoutSnapshot}
    {w : World} {as : List Action} (hold : old.head? = some last)
    (has : ∀ a ∈ as, ¬ a.Commits) (h : OneCommit sha256 p last old w) :
    OneCommit sha256 p last old (run (step sha256) w as) := by
  induction as generalizing w with
  | nil => exact h
  | cons a as ih =>
    refine ih (fun b hb ↦ has b (List.mem_cons_of_mem _ hb)) (step_oneCommit hold ?_ h)
    rintro p' previous recovered rfl -
    exact absurd trivial (has _ List.mem_cons_self)

theorem publication_survives_crashes (sha256 : Bytes → Digest) (w : World) (hw : Opening w)
    (as : List Action) :
    Each (step sha256) (KeepsHistory sha256) w as ∧
      ∀ before p previous after recovered, as = before ++ .commit p previous :: after →
        (∀ a ∈ after, ¬ a.Commits) →
        (run (step sha256) w before).lock = some (.ready recovered) →
        Survives sha256 p (run (step sha256) w before).checkout.snapshot
          (run (step sha256) w as) := by
  refine ⟨@each_of_invariant _ _ _ _ (Inv sha256 fun _ _ ↦ True)
    (fun _ _ ↦ step_inv fun _ _ _ _ _ ↦ trivial) (fun _ _ ↦ keepsHistory_of_inv) _ hw.inv as, ?_⟩
  rintro before p previous after recovered rfl hafter hready
  obtain ⟨last, hlast, hsound⟩ := @run_inv sha256 w hw before
  rw [run_append, run_cons]
  rw [hready] at hsound
  generalize run (step sha256) w before = w₁ at hready hlast hsound ⊢
  have hsettled := hsound.settled_of_ready
  rw [hsettled.2]
  refine OneCommit.survives hlast (run_oneCommit hlast hafter ?_)
  refine step_oneCommit hlast ?_ (oneCommit_of_ready hlast hsettled hready)
  rintro p' previous' recovered' ⟨⟩ -
  exact ⟨rfl, rfl⟩

/-! ## One crash of a commit, and one of its recovery -/

def sizeDigest (content : Bytes) : Digest := toString content.length

def sampleCheckout : Checkout where
  files := fun name ↦
    if name = registryName then some [1] else if name = allowlistName then some [2] else none
  journal := none

def sampleWorld : World where
  checkout := sampleCheckout
  lock := none
  readers := fun _ ↦ ⟨true, .idle⟩
  committed := [sampleCheckout.snapshot]

def sampleRelease : Release where
  registry := [3, 3]
  allowlist := some [4, 4, 4]
  stagedRegistry := ".publication-registry-a"
  stagedAllowlist := ".publication-allowlist-b"

def sampleOpened : List Action := [.acquire, .advance]

/-- The commit dies between its two renames, and the first recovery before it unlinks. -/
def sampleCrashes : List Action :=
  List.replicate 10 .advance ++ [.crash, .acquire] ++ List.replicate 3 .advance ++
    [.crash, .acquire] ++ List.replicate 8 .advance

def sampleRun : List Action :=
  sampleOpened ++ .commit sampleRelease (some "1") :: sampleCrashes

theorem sample_survives_crashes :
    (run (step sizeDigest) sampleWorld sampleRun).checkout.snapshot =
        ⟨some [3, 3], some [4, 4, 4]⟩ ∧
      Survives sizeDigest sampleRelease sampleCheckout.snapshot
        (run (step sizeDigest) sampleWorld sampleRun) :=
  ⟨by decide +kernel, (publication_survives_crashes sizeDigest sampleWorld ⟨rfl, rfl, rfl⟩
    sampleRun).2 sampleOpened sampleRelease (some "1") sampleCrashes none rfl
    (by simp [sampleCrashes, Action.Commits]) rfl⟩

end Conjectures.Publication

import Conjectures.Publication.Crashes

/-!
# Readers see one committed state

A reader holds no lock, so what it reads may be on its way out, or not committed yet.  What it
read first is followed through every step of the writers: the registry bytes are the ones in
place, or were committed and are no longer in place, and then never will be again.  The registry
is replaced last, so an allowlist read under the registry that is in place goes with it, unless
a journal exists; and the reader checks that none does before it reads again.
-/

namespace Conjectures.Publication

open Lib

variable {sha256 : Bytes → Digest}

/-! ## What is asked of writers -/

/-- These registry bytes were never committed. -/
def Fresh (committed : List CheckoutSnapshot) (p : Release) : Prop :=
  some p.registry ∉ committed.map (·.registry)

/-- A commit that is called publishes a registry that was never committed. -/
def PublishesFresh (w : World) (a : Action) : Prop :=
  ∀ p previous recovered, a = .commit p previous → w.lock = some (.ready recovered) →
    Fresh w.committed p

/-! ## What a reader holds -/

/-- The part of a checkout a reader was asked for. -/
def Reader.view (r : Reader) (s : CheckoutSnapshot) : CheckoutSnapshot :=
  ⟨s.registry, if r.allowlist then s.allowlist else none⟩

/-- These registry bytes were replaced. -/
def Stale (committed : List CheckoutSnapshot) (c : Checkout) (registry : Option Bytes) : Prop :=
  registry ∈ committed.map (·.registry) ∧ registry ≠ c.registry

/-- The allowlist may have been replaced, and the registry is not yet. -/
def Midway (last : CheckoutSnapshot) (c : Checkout) : Prop :=
  c.journal ≠ none ∧ c.registry = last.registry

/-- What was read is in place, as far as one can tell. -/
def Current (last : CheckoutSnapshot) (c : Checkout) (r : Reader) (s : CheckoutSnapshot) : Prop :=
  s.registry = c.registry ∧ (Midway last c ∨ s = r.view c.snapshot)

/-- What was read is one committed state. -/
def Whole (committed : List CheckoutSnapshot) (r : Reader) (s : CheckoutSnapshot) : Prop :=
  ∃ t ∈ committed, s = r.view t

/-- What is known of a reader, phase by phase. -/
def Reads (committed : List CheckoutSnapshot) (last : CheckoutSnapshot) (c : Checkout)
    (r : Reader) : Prop :=
  match r.phase with
  | .idle => True
  | .start _ => True
  | .capture _ => True
  | .captureAllowlist _ registry => Stale committed c registry ∨ registry = c.registry
  | .use _ s => Stale committed c s.registry ∨ Current last c r s
  | .recheck _ s _ => Stale committed c s.registry ∨ Current last c r s
  | .recapture _ s _ => Stale committed c s.registry ∨ Whole committed r s
  | .recaptureAllowlist _ s _ registry => registry ≠ s.registry ∨ Whole committed r s
  | .returned s => Whole committed r s
  | .raised => True

/-! ## Writers -/

/-- A writer's step, as far as readers can tell: what was committed stays so, and what changes
is described by `Change`. -/
structure Moves (committed committed' : List CheckoutSnapshot) (last : CheckoutSnapshot)
    (p : Release) (c c' : Checkout) : Prop where
  kept : ∀ t ∈ committed, t ∈ committed'
  known : last ∈ committed
  fresh : Fresh committed p
  change : Change last p c c'

section Moves

variable {committed committed' : List CheckoutSnapshot} {last last' : CheckoutSnapshot}
  {p : Release} {c c' : Checkout} {r : Reader} {s : CheckoutSnapshot} {registry : Option Bytes}

theorem Moves.registry_known (h : Moves committed committed' last p c c') :
    last.registry ∈ committed.map (·.registry) :=
  List.mem_map_of_mem h.known

/-- The registry changes from a committed one to a fresh one. -/
theorem Moves.registry_eq (h : Moves committed committed' last p c c') :
    c'.registry = c.registry ∨ (c.registry = last.registry ∧ c'.registry = some p.registry) := by
  cases h.change with
  | nothing hjournal hsnapshot => exact Or.inl (congrArg CheckoutSnapshot.registry hsnapshot)
  | journals hnone hsome hsnapshot => exact Or.inl (congrArg CheckoutSnapshot.registry hsnapshot)
  | allowlist hjournal hsome hold hregistry => exact Or.inl (hregistry.trans hold.symm)
  | registry hjournal hsome hold hnew => exact Or.inr ⟨hold, hnew⟩
  | unlinks hnone hnew hsnapshot => exact Or.inl (congrArg CheckoutSnapshot.registry hsnapshot)

theorem Moves.known_of_known (h : Moves committed committed' last p c c')
    (hknown : registry ∈ committed.map (·.registry)) :
    registry ∈ committed'.map (·.registry) := by
  obtain ⟨t, ht, rfl⟩ := List.mem_map.mp hknown
  exact List.mem_map_of_mem (h.kept t ht)

theorem Moves.stale (h : Moves committed committed' last p c c')
    (hstale : Stale committed c registry) : Stale committed' c' registry := by
  refine ⟨h.known_of_known hstale.1, ?_⟩
  rcases h.registry_eq with heq | ⟨-, hnew⟩
  · rw [heq]
    exact hstale.2
  · rintro rfl
    rw [hnew] at hstale
    exact h.fresh hstale.1

/-- The registry in place stays there, or is stale from now on. -/
theorem Moves.stale_of_current (h : Moves committed committed' last p c c')
    (hregistry : registry = c.registry) :
    Stale committed' c' registry ∨
      (registry = c'.registry ∧ c'.registry = c.registry) := by
  rcases h.registry_eq with heq | ⟨hold, hnew⟩
  · exact Or.inr ⟨hregistry.trans heq.symm, heq⟩
  · rw [hregistry, hold]
    refine Or.inl ⟨h.known_of_known h.registry_known, fun hsame ↦ h.fresh ?_⟩
    rw [← hnew, ← hsame]
    exact h.registry_known

theorem Moves.current (h : Moves committed committed' last p c c')
    (hlast : last' = last ∨ c'.journal = none) (hcurrent : Current last c r s) :
    Stale committed' c' s.registry ∨ Current last' c' r s := by
  obtain ⟨hregistry, hallowlist⟩ := hcurrent
  have hview : c'.snapshot = c.snapshot → ¬ Midway last c →
      Stale committed' c' s.registry ∨ Current last' c' r s := fun hsnapshot hmidway ↦
    Or.inr ⟨hregistry.trans (congrArg CheckoutSnapshot.registry hsnapshot.symm),
      Or.inr (hsnapshot ▸ hallowlist.resolve_left hmidway)⟩
  cases h.change with
  | nothing hjournal hsnapshot =>
    rcases hlast with rfl | hnone
    · refine Or.inr ⟨hregistry.trans (congrArg CheckoutSnapshot.registry hsnapshot.symm), ?_⟩
      rcases hallowlist with ⟨hpending, hold⟩ | hallowlist
      · exact Or.inl ⟨hjournal ▸ hpending,
          (congrArg CheckoutSnapshot.registry hsnapshot).trans hold⟩
      · exact Or.inr (hsnapshot ▸ hallowlist)
    · exact hview hsnapshot fun hmidway ↦ hmidway.1 (hjournal ▸ hnone)
  | journals hnone hsome hsnapshot => exact hview hsnapshot fun hmidway ↦ hmidway.1 hnone
  | allowlist hjournal hsome hold hnew =>
    rcases hlast with rfl | hnone
    · exact Or.inr ⟨hregistry.trans (hold.trans hnew.symm), Or.inl ⟨hjournal ▸ hsome, hnew⟩⟩
    · exact absurd (hjournal ▸ hnone) hsome
  | registry hjournal hsome hold hnew =>
    refine (h.stale_of_current hregistry).imp_right fun ⟨_, hsame⟩ ↦ absurd h.registry_known ?_
    rw [← hold, ← hsame, hnew]
    exact h.fresh
  | unlinks hnone hnew hsnapshot =>
    refine hview hsnapshot fun hmidway ↦ h.fresh ?_
    rw [← hnew, hmidway.2]
    exact h.registry_known

theorem Moves.whole (h : Moves committed committed' last p c c') (hwhole : Whole committed r s) :
    Whole committed' r s := by
  obtain ⟨t, ht, hs⟩ := hwhole
  exact ⟨t, h.kept t ht, hs⟩

/-- What is known of a reader stays so while writers work. -/
theorem Moves.reads (h : Moves committed committed' last p c c')
    (hlast : last' = last ∨ c'.journal = none) (hreads : Reads committed last c r) :
    Reads committed' last' c' r := by
  obtain ⟨asked, phase⟩ := r
  cases phase with
  | idle => trivial
  | start attempt => trivial
  | capture attempt => trivial
  | captureAllowlist attempt registry =>
    rcases hreads with hstale | hregistry
    · exact Or.inl (h.stale hstale)
    · exact (h.stale_of_current hregistry).imp_right And.left
  | use attempt s =>
    rcases hreads with hstale | hcurrent
    · exact Or.inl (h.stale hstale)
    · exact h.current hlast hcurrent
  | recheck attempt s returned =>
    rcases hreads with hstale | hcurrent
    · exact Or.inl (h.stale hstale)
    · exact h.current hlast hcurrent
  | recapture attempt s returned => exact Or.imp h.stale h.whole hreads
  | recaptureAllowlist attempt s returned registry => exact Or.imp_right h.whole hreads
  | returned s => exact h.whole hreads
  | raised => trivial

end Moves

/-! ## A reader's own step -/

/-- Without a journal the checkout is the last committed state. -/
theorem Sound.settled_of_clean {Q : Release → Prop} {last : CheckoutSnapshot} {c : Checkout}
    {lock : Option Phase} (h : Sound sha256 Q last c lock) (hnone : c.journal = none) :
    Settled c last := by
  rcases h.released with h | ⟨p, hp, hQ, h⟩ | ⟨p, hp, hQ, hjournal, todo, recovered, h, hlock⟩ |
    ⟨p, hp, hQ, todo, recovered, h, hlock⟩
  · exact h
  · rw [h.journal] at hnone
    cases hnone
  · cases hlock
  · cases hlock

section Next

variable {committed : List CheckoutSnapshot} {last : CheckoutSnapshot} {c : Checkout} {r : Reader}

theorem readAllowlist_ok {allowlist : Option Bytes} (h : r.readAllowlist c = .ok allowlist) :
    allowlist = if r.allowlist then c.allowlist else none := by
  rw [Reader.readAllowlist] at h
  split at h
  · rw [if_pos ‹_›]
    exact readOnce_ok h
  · rw [if_neg ‹_›]
    exact (Except.ok.inj h).symm

theorem next_reads (hknown : last ∈ committed) (hsettled : c.journal = none → c.snapshot = last)
    (h : Reads committed last c r) (returns : Bool) :
    Reads committed last c { r with phase := r.next c returns } := by
  obtain ⟨asked, phase⟩ := r
  cases phase with
  | idle => trivial
  | start attempt =>
    dsimp only [Reader.next]
    split <;> trivial
  | capture attempt =>
    dsimp only [Reader.next]
    split
    · exact Or.inr (readOnce_ok ‹_›)
    · trivial
  | captureAllowlist attempt registry =>
    dsimp only [Reader.next]
    split
    · rename_i allowlist hread
      refine Or.imp_right (fun hregistry ↦ ⟨hregistry, Or.inr ?_⟩) h
      rw [Reader.view, readAllowlist_ok hread]
      exact congrArg (CheckoutSnapshot.mk · _) hregistry
    · trivial
  | use attempt s => exact h
  | recheck attempt s returned =>
    dsimp only [Reader.next]
    split
    · rename_i hnone
      refine Or.imp_right (fun hcurrent ↦ ⟨last, hknown, ?_⟩) h
      rw [← hsettled hnone]
      exact hcurrent.2.resolve_left fun hmidway ↦ hmidway.1 hnone
    · trivial
  | recapture attempt s returned =>
    dsimp only [Reader.next]
    split
    · rename_i registry hread
      refine Or.imp_left (fun hstale ↦ ?_) h
      rw [readOnce_ok hread]
      exact hstale.2.symm
    · trivial
  | recaptureAllowlist attempt s returned registry =>
    dsimp only [Reader.next]
    split
    · rename_i allowlist hread
      rw [conclude]
      split
      · rename_i hsame
        have hwhole := h.resolve_left fun hne ↦ hne (congrArg CheckoutSnapshot.registry hsame)
        cases returned with
        | true => exact hwhole
        | false => trivial
      · split <;> trivial
    · trivial
  | returned s => exact h
  | raised => trivial

end Next

/-! ## The system -/

theorem readers_advance {w : World} (phase : Phase) :
    (w.advance sha256 phase).readers = w.readers := by
  unfold World.advance
  split
  · split
    · rfl
    · split <;> rfl
  · rfl
  · split <;> rfl
  · rfl
  · rw [World.execute]
    split <;> rfl
  · rfl

theorem readers_commit {w : World} (p : Release) (previous : Option Digest) :
    (w.commit sha256 p previous).readers = w.readers := by
  rw [World.commit]
  split
  · split <;> rfl
  · rfl

/-- The checkout is sound, and each reader is where it is with what is known of it. -/
def ReadersInv (sha256 : Bytes → Digest) (w : World) : Prop :=
  ∃ last ∈ w.committed.head?, Sound sha256 (Fresh w.committed) last w.checkout w.lock ∧
    ∀ i, Reads w.committed last w.checkout (w.readers i)

theorem Opening.readersInv {w : World} (h : Opening w) (hidle : ∀ i, (w.readers i).phase = .idle) :
    ReadersInv sha256 w := by
  obtain ⟨last, hlast, hsound⟩ := @Opening.inv sha256 (fun committed p ↦ Fresh committed p) w h
  refine ⟨last, hlast, hsound, fun i ↦ ?_⟩
  rw [Reads, hidle]
  trivial

/-- A writer's step. -/
theorem writer_readersInv {w : World} {a : Action} (ha : PublishesFresh w a)
    (hreaders : (step sha256 w a).readers = w.readers) (h : ReadersInv sha256 w) :
    ReadersInv sha256 (step sha256 w a) := by
  obtain ⟨last, hlast, hsound, hreads⟩ := h
  have hknown : last ∈ w.committed := List.mem_of_mem_head? hlast
  cases step_stepped ha hsound with
  | stays hcommitted hsound' hchange =>
    refine ⟨last, hcommitted ▸ hlast, hcommitted ▸ hsound', fun i ↦ ?_⟩
    rw [hcommitted, hreaders]
    rcases hchange with hsame | ⟨p, hfresh, hchange⟩
    · rw [hsame]
      exact hreads i
    · exact Moves.reads ⟨fun _ ht ↦ ht, hknown, hfresh, hchange⟩ (Or.inl rfl) (hreads i)
  | completes p hfresh hcommitted hsettled hquiet hchange =>
    refine ⟨p.after last, by rw [hcommitted]; rfl, .settled hsettled hquiet, fun i ↦ ?_⟩
    rw [hcommitted, hreaders]
    exact Moves.reads ⟨fun _ ht ↦ List.mem_cons_of_mem _ ht, hknown, hfresh, hchange⟩
      (Or.inr hsettled.1) (hreads i)

/-- A reader's step. -/
theorem reader_readersInv {w : World} {i : ℕ} {r : Reader}
    (hr : ∀ last ∈ w.committed.head?, Sound sha256 (Fresh w.committed) last w.checkout w.lock →
      Reads w.committed last w.checkout (w.readers i) → Reads w.committed last w.checkout r)
    (h : ReadersInv sha256 w) :
    ReadersInv sha256 { w with readers := Function.update w.readers i r } := by
  obtain ⟨last, hlast, hsound, hreads⟩ := h
  refine ⟨last, hlast, hsound, fun j ↦ ?_⟩
  change Reads w.committed last w.checkout (Function.update w.readers i r j)
  by_cases hj : j = i
  · subst hj
    rw [Function.update_self]
    exact hr last hlast hsound (hreads j)
  · rw [Function.update_of_ne hj]
    exact hreads j

theorem step_readersInv {w : World} {a : Action} (ha : PublishesFresh w a)
    (h : ReadersInv sha256 w) : ReadersInv sha256 (step sha256 w a) := by
  cases a with
  | acquire =>
    refine writer_readersInv ha ?_ h
    dsimp only [step]
    split <;> rfl
  | advance =>
    refine writer_readersInv ha ?_ h
    dsimp only [step]
    split
    · exact readers_advance _
    · rfl
  | commit p previous =>
    refine writer_readersInv ha ?_ h
    dsimp only [step]
    split
    · exact readers_commit p previous
    · rfl
  | crash => exact writer_readersInv ha rfl h
  | begin i allowlist => exact reader_readersInv (fun _ _ _ _ ↦ trivial) h
  | read i returns =>
    refine reader_readersInv (fun last hlast hsound hreads ↦ ?_) h
    exact next_reads (List.mem_of_mem_head? hlast) (fun hnone ↦ (hsound.settled_of_clean hnone).2)
      hreads returns

/-! ## Committed states -/

/-- What is recorded as committed was at some point there to be read, with no journal. -/
theorem committed_visible {w : World} (hw : Opening w) (as : List Action) :
    ∀ t ∈ (run (step sha256) w as).committed, ∃ before, before <+: as ∧
      (run (step sha256) w before).checkout.journal = none ∧
      (run (step sha256) w before).checkout.snapshot = t := by
  induction as using List.reverseRecOn with
  | nil =>
    intro t ht
    rw [run_nil, hw.committed, List.mem_singleton] at ht
    exact ⟨[], List.prefix_refl _, hw.journal, ht.symm⟩
  | append_singleton as a ih =>
    intro t ht
    have hkept : t ∈ (run (step sha256) w as).committed → ∃ before, before <+: as ++ [a] ∧
        (run (step sha256) w before).checkout.journal = none ∧
        (run (step sha256) w before).checkout.snapshot = t := fun ht ↦ by
      obtain ⟨before, hbefore, h⟩ := ih t ht
      exact ⟨before, hbefore.trans (List.prefix_append as [a]), h⟩
    obtain ⟨last, hlast, hsound⟩ := @run_inv sha256 w hw as
    rw [run_append, run_cons, run_nil] at ht
    cases @step_stepped _ _ _ _ a (fun _ _ _ _ _ ↦ trivial) hsound with
    | stays hcommitted => exact hkept (hcommitted ▸ ht)
    | completes p hQ hcommitted hsettled =>
      rw [hcommitted, List.mem_cons] at ht
      rcases ht with rfl | ht
      · refine ⟨as ++ [a], List.prefix_refl _, ?_⟩
        rw [run_append, run_cons, run_nil]
        exact hsettled
      · exact hkept ht

theorem readers_see_one_commit (sha256 : Bytes → Digest) (w : World) (hw : Opening w)
    (hidle : ∀ i, (w.readers i).phase = .idle) (as : List Action)
    (has : Each (step sha256) PublishesFresh w as) (i : ℕ) (s : CheckoutSnapshot)
    (hs : ((run (step sha256) w as).readers i).phase = .returned s) :
    ∃ before, before <+: as ∧ (run (step sha256) w before).checkout.journal = none ∧
      s = ((run (step sha256) w as).readers i).view
        (run (step sha256) w before).checkout.snapshot := by
  obtain ⟨last, hlast, hsound, hreads⟩ :=
    has.invariant (fun _ _ ↦ step_readersInv) (hw.readersInv hidle)
  have hwhole := hreads i
  rw [Reads, hs] at hwhole
  obtain ⟨t, ht, rfl⟩ := hwhole
  obtain ⟨before, hbefore, hjournal, rfl⟩ := committed_visible hw as t ht
  exact ⟨before, hbefore, hjournal, rfl⟩

/-! ## A read that a commit overtakes -/

theorem publishesFresh_of_not_commits {w : World} {as : List Action}
    (has : ∀ a ∈ as, ¬ a.Commits) : Each (step sha256) PublishesFresh w as := by
  induction as generalizing w with
  | nil => trivial
  | cons a as ih =>
    refine ⟨?_, ih fun b hb ↦ has b (List.mem_cons_of_mem _ hb)⟩
    rintro p previous recovered rfl -
    exact absurd trivial (has _ List.mem_cons_self)

/-- The registry is read before the commit, the allowlist after its first rename. -/
def sampleReads : List Action :=
  [.begin 0 true, .read 0 true, .read 0 true, .acquire, .advance]

def sampleOvertakes : List Action :=
  List.replicate 10 .advance ++ .read 0 true :: List.replicate 5 .advance ++
    List.replicate 11 (.read 0 true)

theorem sample_sees_one_commit :
    ((run (step sizeDigest) sampleWorld
        (sampleReads ++ .commit sampleRelease (some "1") :: sampleOvertakes)).readers 0).phase =
        .returned ⟨some [3, 3], some [4, 4, 4]⟩ ∧
      ∃ before, before <+: sampleReads ++ .commit sampleRelease (some "1") :: sampleOvertakes ∧
        (run (step sizeDigest) sampleWorld before).checkout.journal = none ∧
        ⟨some [3, 3], some [4, 4, 4]⟩ =
          ((run (step sizeDigest) sampleWorld (sampleReads ++ .commit sampleRelease (some "1") ::
            sampleOvertakes)).readers 0).view
          (run (step sizeDigest) sampleWorld before).checkout.snapshot :=
  have hreturned : ((run (step sizeDigest) sampleWorld
      (sampleReads ++ .commit sampleRelease (some "1") :: sampleOvertakes)).readers 0).phase =
      .returned ⟨some [3, 3], some [4, 4, 4]⟩ := by decide +kernel
  have hfresh : Fresh (run (step sizeDigest) sampleWorld sampleReads).committed sampleRelease := by
    unfold Fresh
    decide +kernel
  have heach : Each (step sizeDigest) PublishesFresh sampleWorld
      (sampleReads ++ .commit sampleRelease (some "1") :: sampleOvertakes) :=
    each_append.mpr ⟨publishesFresh_of_not_commits (by simp [sampleReads, Action.Commits]),
      by rintro p previous recovered ⟨⟩ -; exact hfresh,
      publishesFresh_of_not_commits (by simp [sampleOvertakes, Action.Commits])⟩
  ⟨hreturned, readers_see_one_commit sizeDigest sampleWorld ⟨rfl, rfl, rfl⟩ (fun _ ↦ rfl) _ heach 0
    _ hreturned⟩

end Conjectures.Publication

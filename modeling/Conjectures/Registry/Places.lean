import Conjectures.Registry.AppendOnly
import Mathlib.Data.Set.Basic

/-!
# One place for paid work

What an instance serves, as the set of the submissions it takes, each known by its task, its bundle
and its problem.  Where the problem ids of a registry do not collide, the sets of two instances are
disjoint, and a submission that was ever admitted is in exactly one of them.

Along a history of registries the sets only grow, and an admitted submission keeps its instance, the
location of its source and its provenance.  Only the ids within each registry are asked to be free
of collisions, not the digest as a function.
-/

namespace Conjectures.Registry

open Lib

namespace VersionRegistry

/-- The problem ids of two commits of the registry differ, for the theorem of any version. -/
def CollisionFree (py : Python) (r : VersionRegistry) : Prop :=
  ∀ record ∈ r.versions, ∀ i ∈ r.instances, ∀ i' ∈ r.instances,
    Collide py i.repositoryCommit i'.repositoryCommit record.theorems →
      i.repositoryCommit = i'.repositoryCommit

/-- The submissions that an instance serves. -/
def served (r : VersionRegistry) (i : Instance) : Set (Text × Text × Text) :=
  {claim | ∃ key, Serves r i key ∧ key.claim = claim}

/-- The submissions that were ever admitted. -/
def everAdmitted (r : VersionRegistry) : Set (Text × Text × Text) :=
  {claim | ∃ record ∈ r.versions, ∃ a ∈ record.admissions, (record.keyAt a).claim = claim}

/-- Every admitted submission is served in one place. -/
structure OnePlace (r : VersionRegistry) : Prop where
  disjoint : Pairwise fun i i' ↦ r.served i ∩ r.served i' = ∅
  placed : ∀ claim ∈ r.everAdmitted, ∃! i, claim ∈ r.served i

/-- What was served is served still, by the same instance and with the same key. -/
structure Keeps (previous current : VersionRegistry) : Prop where
  grows : ∀ i, previous.served i ⊆ current.served i
  stays : ∀ i i' key key', Serves previous i key → Serves current i' key' →
    key.claim = key'.claim → i' = i ∧ key' = key

variable {py : Python} {r previous current : VersionRegistry} {i i' : Instance}
  {key key' : ServedKey} {claim : Text × Text × Text}

/-- Only listed instances serve. -/
theorem Valid.instance_of_serves (hr : r.Valid py) (h : Serves r i key) : i ∈ r.instances := by
  obtain ⟨-, record, hrecord, a, ha, rfl, -⟩ := (serves_iff hr).mp h
  exact ((hr.versions record hrecord).admitted a ha).1

/-- Without a collision, two instances that serve one submission are one. -/
theorem Valid.serves_unique_of_free (hr : r.Valid py) (hfree : r.CollisionFree py)
    (h : Serves r i key) (h' : Serves r i' key') (hclaim : key.claim = key'.claim) :
    i = i' ∧ key = key' := by
  rcases serves_unique hr h h' hclaim with hsame | ⟨hne, record, hrecord, -, hcollide⟩
  · exact hsame
  · exact absurd (hfree record hrecord i (hr.instance_of_serves h) i' (hr.instance_of_serves h')
      hcollide) hne

/-- An admitted submission is served by the instance that admitted it. -/
theorem Valid.exists_served (hr : r.Valid py) (h : claim ∈ r.everAdmitted) :
    ∃ i, claim ∈ r.served i := by
  obtain ⟨record, hrecord, a, ha, rfl⟩ := h
  have hcommit := (hr.instances _ ((hr.versions record hrecord).admitted a ha).1).1
  exact ⟨a.inInstance, record.keyAt a,
    (serves_iff hr).mpr ⟨hcommit, record, hrecord, a, ha, rfl, rfl⟩, rfl⟩

theorem Valid.onePlace (hr : r.Valid py) (hfree : r.CollisionFree py) : r.OnePlace := by
  have hunique {i i' : Instance} {claim : Text × Text × Text} (h : claim ∈ r.served i)
      (h' : claim ∈ r.served i') : i = i' := by
    obtain ⟨key, hkey, rfl⟩ := h
    obtain ⟨key', hkey', hclaim⟩ := h'
    exact (hr.serves_unique_of_free hfree hkey hkey' hclaim.symm).1
  constructor
  · intro i i' hne
    rw [Set.eq_empty_iff_forall_notMem]
    rintro claim ⟨h, h'⟩
    exact hne (hunique h h')
  · intro claim hclaim
    obtain ⟨i, hi⟩ := hr.exists_served hclaim
    exact ⟨i, hi, fun i' hi' ↦ hunique hi' hi⟩

/-- A registry that follows another keeps what it served. -/
theorem keeps_of_follows (h : Follows py previous current) (hfree : current.CollisionFree py) :
    previous.Keeps current := by
  obtain ⟨hprevious, hcurrent, happended⟩ := h
  constructor
  · intro i claim hclaim
    obtain ⟨key, hkey, rfl⟩ := hclaim
    exact ⟨key, happended.serves hprevious hcurrent hkey, rfl⟩
  · intro i i' key key' hkey hkey' hclaim
    have hlater := happended.serves hprevious hcurrent hkey
    obtain ⟨rfl, rfl⟩ := hcurrent.serves_unique_of_free hfree hlater hkey' hclaim
    exact ⟨rfl, rfl⟩

end VersionRegistry

/-- **One place for paid work.** By an accepted registry whose problem ids do not collide, an
admitted submission is served by exactly one instance.  Along a history, each registry passes the
check against every one before it, what an instance serves only grows, and a submission never moves
and keeps the location and the provenance it was admitted with. -/
theorem paid_work_has_one_place (py : Python) :
    (∀ content r, VersionRegistry.fromBytes py content = .ok r → r.CollisionFree py →
      r.OnePlace) ∧
    ∀ history, History py history → (∀ r ∈ history, r.CollisionFree py) →
      history.Pairwise fun previous current ↦
        assertAppendOnly py previous current = .ok () ∧ previous.Keeps current := by
  constructor
  · intro content r hload hfree
    exact (VersionRegistry.valid_of_fromBytes hload).onePlace hfree
  · intro history hhistory hfree
    refine hhistory.pairwise.imp_of_mem fun {previous current} _ hcurrent hfollows ↦ ⟨?_, ?_⟩
    · exact assertAppendOnly_eq_ok.mpr hfollows.2.2
    · exact VersionRegistry.keeps_of_follows hfollows (hfree current hcurrent)

/-- Two publications of one version, in two instances. -/
theorem paid_work_has_one_place_example :
    (exampleRegistry true).OnePlace ∧ (exampleRegistry false).Keeps (exampleRegistry true) := by
  have hfree (r : VersionRegistry) : r.CollisionFree examplePython :=
    fun _ _ _ _ _ _ hcollide ↦ example_apart hcollide
  obtain ⟨hone, hkeeps⟩ := paid_work_has_one_place examplePython
  obtain ⟨content, hload⟩ := exampleHistory.loaded (exampleRegistry true) (by simp)
  have hpair := List.pairwise_pair.mp (hkeeps _ exampleHistory fun r _ ↦ hfree r)
  exact ⟨hone content _ hload (hfree _), hpair.2⟩

end Conjectures.Registry

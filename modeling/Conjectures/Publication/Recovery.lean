import Conjectures.Publication.Steps

/-!
# Publication survives crashes

Without a journal the checkout is what the last completed commit left.  With one, the journal
names staged files that hold what is being published, and some of them were renamed into place
in the journal's order; `_recover` renames the rest.  Every place a commit or a recovery can die
at is one of these (`Sound`), so every run of writers keeps it.

The release a pending journal is of is one that was committed: `Q` is what is known of it.
-/

namespace Conjectures.Publication

open Lib

/-! ## Between two commits -/

/-- Nothing is pending, and the checkout is what was last committed. -/
def Settled (c : Checkout) (last : CheckoutSnapshot) : Prop :=
  c.journal = none ∧ c.snapshot = last

/-- Everything is staged. -/
structure Staged (c : Checkout) (p : Release) : Prop where
  registry : c.files p.stagedRegistry = some p.registry
  allowlist : ∀ a ∈ p.allowlist, c.files p.stagedAllowlist = some a

structure NothingReplaced (c : Checkout) (last : CheckoutSnapshot) (p : Release) : Prop where
  staged : Staged c p
  old : c.snapshot = last

structure AllowlistReplaced (c : Checkout) (last : CheckoutSnapshot) (p : Release) : Prop where
  staged : c.files p.stagedRegistry = some p.registry
  gone : p.allowlist ≠ none → c.files p.stagedAllowlist = none
  allowlist : c.allowlist = (p.after last).allowlist
  registry : c.registry = last.registry

structure RegistryReplaced (c : Checkout) (last : CheckoutSnapshot) (p : Release) : Prop where
  gone_registry : c.files p.stagedRegistry = none
  gone_allowlist : p.allowlist ≠ none → c.files p.stagedAllowlist = none
  new : c.snapshot = p.after last

/-- How far the renames got. -/
def Replaced (c : Checkout) (last : CheckoutSnapshot) (p : Release) : Prop :=
  NothingReplaced c last p ∨ AllowlistReplaced c last p ∨ RegistryReplaced c last p

/-- Without an allowlist to publish, the registry is all that is left. -/
theorem NothingReplaced.of_none {c : Checkout} {last : CheckoutSnapshot} {p : Release}
    (h : NothingReplaced c last p) (hnone : p.allowlist = none) : AllowlistReplaced c last p where
  staged := h.staged.registry
  gone hsome := absurd hnone hsome
  allowlist := by
    rw [Release.after, hnone]
    exact congrArg CheckoutSnapshot.allowlist h.old
  registry := congrArg CheckoutSnapshot.registry h.old

/-! ## One rename -/

theorem snapshot_put {c : Checkout} {name : String} {content : Option Bytes}
    (hregistry : name ≠ registryName) (hallowlist : name ≠ allowlistName) :
    (c.put name content).snapshot = c.snapshot := by
  rw [Checkout.snapshot, Checkout.registry, Checkout.allowlist,
    files_put_of_ne _ _ hregistry.symm, files_put_of_ne _ _ hallowlist.symm]
  rfl

theorem replace_allowlist {c : Checkout} {last : CheckoutSnapshot} {p : Release} {a : Bytes}
    (hp : p.WellNamed) (ha : p.allowlist = some a) (h : NothingReplaced c last p) :
    ∃ c', (FileOp.replace p.stagedAllowlist allowlistName).apply c = some c' ∧
      c'.journal = c.journal ∧ AllowlistReplaced c' last p := by
  refine ⟨(c.put allowlistName (some a)).put p.stagedAllowlist none, ?_, rfl, ?_, fun _ ↦ ?_, ?_,
    ?_⟩
  · rw [FileOp.apply, h.staged.allowlist a ha]
    rfl
  · rw [files_put_of_ne _ _ hp.staged, files_put_of_ne _ _ hp.registry_allowlist]
    exact h.staged.registry
  · exact files_put_self ..
  · rw [Release.after, ha, Checkout.allowlist, files_put_of_ne _ _ hp.allowlist_allowlist.symm]
    exact files_put_self ..
  · rw [Checkout.registry, files_put_of_ne _ _ hp.allowlist_registry.symm,
      files_put_of_ne _ _ registryName_ne_allowlistName]
    exact congrArg CheckoutSnapshot.registry h.old

theorem replace_registry {c : Checkout} {last : CheckoutSnapshot} {p : Release}
    (hp : p.WellNamed) (h : AllowlistReplaced c last p) :
    ∃ c', (FileOp.replace p.stagedRegistry registryName).apply c = some c' ∧
      c'.journal = c.journal ∧ RegistryReplaced c' last p := by
  refine ⟨(c.put registryName (some p.registry)).put p.stagedRegistry none, ?_, rfl, ?_,
    fun hsome ↦ ?_, ?_⟩
  · rw [FileOp.apply, h.staged]
    rfl
  · exact files_put_self ..
  · rw [files_put_of_ne _ _ hp.staged.symm, files_put_of_ne _ _ hp.allowlist_registry]
    exact h.gone hsome
  · have hregistry : ((c.put registryName (some p.registry)).put p.stagedRegistry none).registry =
        some p.registry := by
      rw [Checkout.registry, files_put_of_ne _ _ hp.registry_registry.symm]
      exact files_put_self ..
    have hallowlist : ((c.put registryName (some p.registry)).put p.stagedRegistry none).allowlist =
        (p.after last).allowlist := by
      rw [Checkout.allowlist, files_put_of_ne _ _ hp.registry_allowlist.symm,
        files_put_of_ne _ _ registryName_ne_allowlistName.symm]
      exact h.allowlist
    rw [Checkout.snapshot, hregistry, hallowlist]
    rfl

/-- What one operation changes of what readers see. -/
inductive Change (last : CheckoutSnapshot) (p : Release) (c c' : Checkout) : Prop
  | nothing (hjournal : c'.journal = c.journal) (hsnapshot : c'.snapshot = c.snapshot)
  | journals (hnone : c.journal = none) (hsome : c'.journal ≠ none)
    (hsnapshot : c'.snapshot = c.snapshot)
  /-- the allowlist is replaced, and the registry is not yet -/
  | allowlist (hjournal : c'.journal = c.journal) (hsome : c.journal ≠ none)
    (hold : c.registry = last.registry) (hregistry : c'.registry = last.registry)
  | registry (hjournal : c'.journal = c.journal) (hsome : c.journal ≠ none)
    (hold : c.registry = last.registry) (hnew : c'.registry = some p.registry)
  | unlinks (hnone : c'.journal = none) (hnew : c.registry = some p.registry)
    (hsnapshot : c'.snapshot = c.snapshot)

section Invariant

variable {sha256 : Bytes → Digest}

/-! ## Rolling forward -/

/-- What is left of the journal, in the loop of `_recover`. -/
inductive Rolling (sha256 : Bytes → Digest) (c : Checkout) (last : CheckoutSnapshot) (p : Release)
    (todo : List JournalStep) : Prop
  | both (htodo : todo = p.steps sha256) (h : Replaced c last p)
  | registry (htodo : todo = [p.registryStep sha256])
    (h : AllowlistReplaced c last p ∨ RegistryReplaced c last p)
  | done (htodo : todo = []) (h : RegistryReplaced c last p)

theorem AllowlistReplaced.change {c c' : Checkout} {last : CheckoutSnapshot} {p : Release}
    (h : AllowlistReplaced c last p) (h' : RegistryReplaced c' last p)
    (hjournal : c'.journal = c.journal) (hsome : c.journal ≠ none) : Change last p c c' :=
  .registry hjournal hsome h.registry (congrArg CheckoutSnapshot.registry h'.new)

theorem NothingReplaced.change {c c' : Checkout} {last : CheckoutSnapshot} {p : Release}
    (h : NothingReplaced c last p) (h' : AllowlistReplaced c' last p)
    (hjournal : c'.journal = c.journal) (hsome : c.journal ≠ none) : Change last p c c' :=
  .allowlist hjournal hsome (congrArg CheckoutSnapshot.registry h.old) h'.registry

/-- The registry is put in place, or is there. -/
theorem rollForward_registry {c : Checkout} {last : CheckoutSnapshot} {p : Release}
    (hp : p.WellNamed) (hsome : c.journal ≠ none)
    (h : AllowlistReplaced c last p ∨ RegistryReplaced c last p) :
    ∃ c', rollForward sha256 c (p.registryStep sha256) = some c' ∧ c'.journal = c.journal ∧
      Change last p c c' ∧ RegistryReplaced c' last p := by
  rw [rollForward, if_pos ⟨Or.inr rfl, hp.registry⟩]
  rcases h with h | h
  · rw [if_pos (by rw [Checkout.digest, Release.registryStep, h.staged]; rfl)]
    obtain ⟨c', happly, hjournal, hreplaced⟩ := replace_registry hp h
    exact ⟨c', happly, hjournal, h.change hreplaced hjournal hsome, hreplaced⟩
  · have hregistry : c.files registryName = some p.registry :=
      congrArg CheckoutSnapshot.registry h.new
    rw [if_neg (by rw [Checkout.digest, Release.registryStep, h.gone_registry]; nofun),
      if_pos (by rw [Checkout.digest, Release.registryStep, hregistry]; rfl)]
    exact ⟨c, rfl, rfl, .nothing rfl rfl, h⟩

/-- The allowlist is put in place, or is there. -/
theorem rollForward_allowlist {c : Checkout} {last : CheckoutSnapshot} {p : Release} {a : Bytes}
    (hp : p.WellNamed) (hsome : c.journal ≠ none) (ha : p.allowlist = some a)
    (h : Replaced c last p) :
    ∃ c', rollForward sha256 c (p.allowlistStep sha256 a) = some c' ∧ c'.journal = c.journal ∧
      Change last p c c' ∧ (AllowlistReplaced c' last p ∨ RegistryReplaced c' last p) := by
  rw [rollForward, if_pos ⟨Or.inl rfl, hp.allowlist⟩]
  have hthere : c.files p.stagedAllowlist = none → c.allowlist = (p.after last).allowlist →
      ∃ c', (if c.digest sha256 (p.allowlistStep sha256 a).staged =
          some (p.allowlistStep sha256 a).sha256 then
        (FileOp.replace (p.allowlistStep sha256 a).staged (p.allowlistStep sha256 a).target).apply c
      else if c.digest sha256 (p.allowlistStep sha256 a).target =
          some (p.allowlistStep sha256 a).sha256 then some c else none) = some c' ∧ c' = c := by
    intro hgone hallowlist
    have hfile : c.files allowlistName = some a := by
      rw [Release.after, ha] at hallowlist
      exact hallowlist
    rw [if_neg (by rw [Checkout.digest, Release.allowlistStep, hgone]; nofun),
      if_pos (by rw [Checkout.digest, Release.allowlistStep, hfile]; rfl)]
    exact ⟨c, rfl, rfl⟩
  have hpublished : p.allowlist ≠ none := by rw [ha]; nofun
  rcases h with h | h | h
  · rw [if_pos (by rw [Checkout.digest, Release.allowlistStep, h.staged.allowlist a ha]; rfl)]
    obtain ⟨c', happly, hjournal, hreplaced⟩ := replace_allowlist hp ha h
    exact ⟨c', happly, hjournal, h.change hreplaced hjournal hsome, Or.inl hreplaced⟩
  · obtain ⟨c', hroll, rfl⟩ := hthere (h.gone hpublished) h.allowlist
    exact ⟨_, hroll, rfl, .nothing rfl rfl, Or.inl h⟩
  · obtain ⟨c', hroll, rfl⟩ := hthere (h.gone_allowlist hpublished)
      (congrArg CheckoutSnapshot.allowlist h.new)
    exact ⟨_, hroll, rfl, .nothing rfl rfl, Or.inr h⟩

/-- One pass of the loop goes through. -/
theorem Rolling.step {c : Checkout} {last : CheckoutSnapshot} {p : Release} {s : JournalStep}
    {todo : List JournalStep} (hp : p.WellNamed) (hsome : c.journal ≠ none)
    (h : Rolling sha256 c last p (s :: todo)) :
    ∃ c', rollForward sha256 c s = some c' ∧ c'.journal = c.journal ∧ Change last p c c' ∧
      Rolling sha256 c' last p todo := by
  have hregistry : s :: todo = [p.registryStep sha256] →
      AllowlistReplaced c last p ∨ RegistryReplaced c last p →
      ∃ c', rollForward sha256 c s = some c' ∧ c'.journal = c.journal ∧ Change last p c c' ∧
        Rolling sha256 c' last p todo := by
    intro htodo hreplaced
    cases htodo
    obtain ⟨c', hroll, hjournal, hchange, hdone⟩ := rollForward_registry hp hsome hreplaced
    exact ⟨c', hroll, hjournal, hchange, .done rfl hdone⟩
  cases h with
  | both htodo h =>
    cases ha : p.allowlist with
    | none =>
      rw [Release.steps, ha] at htodo
      refine hregistry htodo ?_
      rcases h with h | h
      · exact Or.inl (h.of_none ha)
      · exact h
    | some a =>
      rw [Release.steps, ha] at htodo
      cases htodo
      obtain ⟨c', hroll, hjournal, hchange, hreplaced⟩ := rollForward_allowlist hp hsome ha h
      exact ⟨c', hroll, hjournal, hchange, .registry rfl hreplaced⟩
  | registry htodo h => exact hregistry htodo h
  | done htodo h => cases htodo

theorem Rolling.replaced {c : Checkout} {last : CheckoutSnapshot} {p : Release}
    {todo : List JournalStep} (h : Rolling sha256 c last p todo) : Replaced c last p := by
  cases h with
  | both htodo h => exact h
  | registry htodo h => exact Or.inr h
  | done htodo h => exact Or.inr (Or.inr h)

/-- `_recover` accepts the journal of a release. -/
theorem accepted_steps (p : Release) : (Journal.steps (p.steps sha256)).accepted =
    some (p.steps sha256) := by
  rw [Journal.accepted, Release.steps, List.getLast?_concat]
  exact if_pos rfl

/-! ## Committing -/

/-- Run operations one after the other. -/
def execute : List FileOp → Checkout → Option Checkout
  | [], c => some c
  | op :: ops, c => (op.apply c).bind (execute ops)

/-- The operations that only prepare. -/
inductive Stages (p : Release) : FileOp → Prop
  | registry (create : Bool) : Stages p
      (if create then .create p.stagedRegistry else .write p.stagedRegistry p.registry)
  | allowlist (a : Bytes) (create : Bool) : Stages p
      (if create then .create p.stagedAllowlist else .write p.stagedAllowlist a)
  | flush : Stages p .flush

/-- What is left of a commit from the journal on. -/
def Release.publishing (sha256 : Bytes → Digest) (p : Release) : List FileOp :=
  .journal (p.steps sha256) :: .flush :: p.replacing ++ closing

/-- Where a commit is, up to the end of its journal. -/
inductive Executing (sha256 : Bytes → Digest) (c : Checkout) (last : CheckoutSnapshot)
    (p : Release) (todo : List FileOp) : Prop
  | staging (ops : List FileOp) (htodo : todo = ops ++ p.publishing sha256)
    (hsettled : Settled c last) (hops : ∀ op ∈ ops, Stages p op)
    (hstaged : ∃ c', execute ops c = some c' ∧ Staged c' p)
  | journaled (htodo : todo = .flush :: p.replacing ++ closing)
    (hjournal : c.journal = some (.steps (p.steps sha256))) (h : NothingReplaced c last p)
  | replacing (htodo : todo = p.replacing ++ closing)
    (hjournal : c.journal = some (.steps (p.steps sha256))) (h : NothingReplaced c last p)
  | registry (htodo : todo = .replace p.stagedRegistry registryName :: closing)
    (hjournal : c.journal = some (.steps (p.steps sha256))) (h : AllowlistReplaced c last p)
  | closing (htodo : todo = closing)
    (hjournal : c.journal = some (.steps (p.steps sha256))) (h : RegistryReplaced c last p)
  | unlinking (htodo : todo = [.unlink, .flush])
    (hjournal : c.journal = some (.steps (p.steps sha256))) (h : RegistryReplaced c last p)

/-- Staging touches nothing a reader reads. -/
theorem Stages.apply {c : Checkout} {p : Release} {op : FileOp} (hp : p.WellNamed)
    (h : Stages p op) : ∃ c', op.apply c = some c' ∧ c'.journal = c.journal ∧
      c'.snapshot = c.snapshot := by
  cases h with
  | registry create =>
    cases create <;>
      exact ⟨_, rfl, rfl, snapshot_put hp.registry_registry hp.registry_allowlist⟩
  | allowlist a create =>
    cases create <;>
      exact ⟨_, rfl, rfl, snapshot_put hp.allowlist_registry hp.allowlist_allowlist⟩
  | flush => exact ⟨c, rfl, rfl, rfl⟩

theorem Stages.ne_unlink {p : Release} {op : FileOp} (h : Stages p op) : op ≠ .unlink := by
  cases h with
  | registry create => cases create <;> nofun
  | allowlist a create => cases create <;> nofun
  | flush => nofun

/-- A commit starts by staging. -/
theorem executing_ops {c : Checkout} {last : CheckoutSnapshot} {p : Release}
    (hp : p.WellNamed) (h : Settled c last) : Executing sha256 c last p (p.ops sha256) := by
  refine .staging (p.staging ++ [.flush]) ?_ h (fun op hop ↦ ?_) ?_
  · simp [Release.ops, Release.publishing]
  · rw [Release.staging] at hop
    cases ha : p.allowlist with
    | none =>
      simp only [ha, List.append_nil, List.mem_append, List.mem_cons, List.not_mem_nil,
        or_false] at hop
      rcases hop with (rfl | rfl | rfl) | rfl
      · exact .registry true
      · exact .registry false
      · exact .flush
      · exact .flush
    | some a =>
      simp only [ha, List.mem_append, List.mem_cons, List.not_mem_nil, or_false] at hop
      rcases hop with ((rfl | rfl | rfl) | rfl | rfl | rfl) | rfl
      · exact .registry true
      · exact .registry false
      · exact .flush
      · exact .allowlist a true
      · exact .allowlist a false
      · exact .flush
      · exact .flush
  · rw [Release.staging]
    cases ha : p.allowlist with
    | none =>
      refine ⟨_, rfl, files_put_self .., fun a h ↦ ?_⟩
      rw [ha] at h
      cases h
    | some a =>
      refine ⟨_, rfl, ?_, fun a' h ↦ ?_⟩
      · rw [files_put_of_ne _ _ hp.staged, files_put_of_ne _ _ hp.staged]
        exact files_put_self ..
      · rw [ha] at h
        cases h
        exact files_put_self ..

/-- One operation of a commit goes through.  The commit has completed where its journal goes. -/
theorem Executing.step {c : Checkout} {last : CheckoutSnapshot} {p : Release} {op : FileOp}
    {todo : List FileOp} (hp : p.WellNamed) (h : Executing sha256 c last p (op :: todo)) :
    ∃ c', op.apply c = some c' ∧ Change last p c c' ∧
      ((op ≠ .unlink ∧ Executing sha256 c' last p todo) ∨
        (op = .unlink ∧ todo = [.flush] ∧ Settled c' (p.after last))) := by
  have hpending : c.journal = some (.steps (p.steps sha256)) → c.journal ≠ none := fun h ↦ by
    rw [h]
    nofun
  have hregistry : (op :: todo) = .replace p.stagedRegistry registryName :: Publication.closing →
      c.journal = some (.steps (p.steps sha256)) → AllowlistReplaced c last p →
      ∃ c', op.apply c = some c' ∧ Change last p c c' ∧
        ((op ≠ .unlink ∧ Executing sha256 c' last p todo) ∨
          (op = .unlink ∧ todo = [.flush] ∧ Settled c' (p.after last))) := by
    intro htodo hjournal hallowlist
    cases htodo
    obtain ⟨c', happly, hjournal', hreplaced⟩ := replace_registry hp hallowlist
    exact ⟨c', happly, hallowlist.change hreplaced hjournal' (hpending hjournal),
      Or.inl ⟨nofun, .closing rfl (hjournal'.trans hjournal) hreplaced⟩⟩
  cases h with
  | staging ops htodo hsettled hops hstaged =>
    obtain ⟨c', hexecute, hstaged⟩ := hstaged
    cases ops with
    | nil =>
      cases htodo
      cases hexecute
      exact ⟨_, rfl, .journals hsettled.1 nofun rfl,
        Or.inl ⟨nofun, .journaled rfl rfl ⟨⟨hstaged.1, hstaged.2⟩, hsettled.2⟩⟩⟩
    | cons op' ops =>
      cases htodo
      have hop := hops op List.mem_cons_self
      obtain ⟨c₁, happly, hjournal, hsnapshot⟩ := hop.apply hp
      rw [execute, happly] at hexecute
      exact ⟨c₁, happly, .nothing hjournal hsnapshot, Or.inl ⟨hop.ne_unlink, .staging ops rfl
        ⟨hjournal.trans hsettled.1, hsnapshot.trans hsettled.2⟩
        (fun op hop ↦ hops op (List.mem_cons_of_mem _ hop)) ⟨c', hexecute, hstaged⟩⟩⟩
  | journaled htodo hjournal h =>
    cases htodo
    exact ⟨c, rfl, .nothing rfl rfl, Or.inl ⟨nofun, .replacing rfl hjournal h⟩⟩
  | replacing htodo hjournal h =>
    rw [Release.replacing] at htodo
    cases ha : p.allowlist with
    | none =>
      rw [ha] at htodo
      exact hregistry htodo hjournal (h.of_none ha)
    | some a =>
      rw [ha] at htodo
      cases htodo
      obtain ⟨c', happly, hjournal', hreplaced⟩ := replace_allowlist hp ha h
      exact ⟨c', happly, h.change hreplaced hjournal' (hpending hjournal),
        Or.inl ⟨nofun, .registry rfl (hjournal'.trans hjournal) hreplaced⟩⟩
  | registry htodo hjournal h => exact hregistry htodo hjournal h
  | closing htodo hjournal h =>
    cases htodo
    exact ⟨c, rfl, .nothing rfl rfl, Or.inl ⟨nofun, .unlinking rfl hjournal h⟩⟩
  | unlinking htodo hjournal h =>
    cases htodo
    exact ⟨_, rfl, .unlinks rfl (congrArg CheckoutSnapshot.registry h.new) rfl,
      Or.inr ⟨rfl, rfl, rfl, h.new⟩⟩

theorem Executing.ne_nil {c : Checkout} {last : CheckoutSnapshot} {p : Release}
    (h : Executing sha256 c last p []) : False := by
  cases h with
  | staging ops htodo => cases ops <;> cases htodo
  | journaled htodo => cases htodo
  | replacing htodo =>
    rw [Release.replacing] at htodo
    split at htodo <;> cases htodo
  | registry htodo => cases htodo
  | closing htodo => cases htodo
  | unlinking htodo => cases htodo

/-! ## Any state a run can reach -/

/-- A journal is pending. -/
structure Pending (sha256 : Bytes → Digest) (c : Checkout) (last : CheckoutSnapshot)
    (p : Release) : Prop where
  journal : c.journal = some (.steps (p.steps sha256))
  replaced : Replaced c last p

/-- A commit that dies leaves nothing visible, or its journal. -/
theorem Executing.crashed {c : Checkout} {last : CheckoutSnapshot} {p : Release}
    {todo : List FileOp} (h : Executing sha256 c last p todo) :
    Settled c last ∨ Pending sha256 c last p := by
  cases h with
  | staging ops htodo hsettled => exact Or.inl hsettled
  | journaled htodo hjournal h => exact Or.inr ⟨hjournal, Or.inl h⟩
  | replacing htodo hjournal h => exact Or.inr ⟨hjournal, Or.inl h⟩
  | registry htodo hjournal h => exact Or.inr ⟨hjournal, Or.inr (Or.inl h)⟩
  | closing htodo hjournal h => exact Or.inr ⟨hjournal, Or.inr (Or.inr h)⟩
  | unlinking htodo hjournal h => exact Or.inr ⟨hjournal, Or.inr (Or.inr h)⟩

/-- The holder of the lock has nothing under way. -/
inductive Quiet : Option Phase → Prop
  | free : Quiet none
  | opening : Quiet (some .opening)
  | ready (recovered : Option Digest) : Quiet (some (.ready recovered))
  | closed (todo : List FileOp) (h : todo = [] ∨ todo = [.flush]) (recovered : Option Digest) :
    Quiet (some (.executing todo recovered))

/-- The state of the checkout against the last completed commit. -/
inductive Sound (sha256 : Bytes → Digest) (Q : Release → Prop) (last : CheckoutSnapshot)
    (c : Checkout) (lock : Option Phase) : Prop
  | settled (h : Settled c last) (hlock : Quiet lock)
  | pending (p : Release) (hp : p.WellNamed) (hQ : Q p) (h : Pending sha256 c last p)
    (hlock : lock = none ∨ lock = some .opening)
  | rolling (p : Release) (hp : p.WellNamed) (hQ : Q p)
    (hjournal : c.journal = some (.steps (p.steps sha256))) (todo : List JournalStep)
    (recovered : Digest) (h : Rolling sha256 c last p todo)
    (hlock : lock = some (.rolling todo recovered))
  | executing (p : Release) (hp : p.WellNamed) (hQ : Q p) (todo : List FileOp)
    (recovered : Option Digest) (h : Executing sha256 c last p todo)
    (hlock : lock = some (.executing todo recovered))

/-- Whoever holds the lock, if he dies here. -/
theorem Sound.released {Q : Release → Prop} {last : CheckoutSnapshot} {c : Checkout}
    {lock : Option Phase} (h : Sound sha256 Q last c lock) : Sound sha256 Q last c none := by
  cases h with
  | settled h => exact .settled h .free
  | pending p hp hQ h => exact .pending p hp hQ h (Or.inl rfl)
  | rolling p hp hQ hjournal todo recovered h =>
    exact .pending p hp hQ ⟨hjournal, h.replaced⟩ (Or.inl rfl)
  | executing p hp hQ todo recovered h =>
    rcases h.crashed with h | h
    · exact .settled h .free
    · exact .pending p hp hQ h (Or.inl rfl)

theorem Sound.mono {Q Q' : Release → Prop} {last : CheckoutSnapshot} {c : Checkout}
    {lock : Option Phase} (hQ : ∀ p, Q p → Q' p) (h : Sound sha256 Q last c lock) :
    Sound sha256 Q' last c lock := by
  cases h with
  | settled h hlock => exact .settled h hlock
  | pending p hp hQp h hlock => exact .pending p hp (hQ p hQp) h hlock
  | rolling p hp hQp hjournal todo recovered h hlock =>
    exact .rolling p hp (hQ p hQp) hjournal todo recovered h hlock
  | executing p hp hQp todo recovered h hlock =>
    exact .executing p hp (hQ p hQp) todo recovered h hlock

/-- What a step does to the checkout and to what was committed. -/
inductive Stepped (sha256 : Bytes → Digest) (Q : Release → Prop) (last : CheckoutSnapshot)
    (w w' : World) : Prop
  | stays (hcommitted : w'.committed = w.committed)
    (hsound : Sound sha256 Q last w'.checkout w'.lock)
    (hchange : w'.checkout = w.checkout ∨ ∃ p, Q p ∧ Change last p w.checkout w'.checkout)
  | completes (p : Release) (hQ : Q p) (hcommitted : w'.committed = p.after last :: w.committed)
    (hsettled : Settled w'.checkout (p.after last)) (hquiet : Quiet w'.lock)
    (hchange : Change last p w.checkout w'.checkout)

theorem Stepped.refl {Q : Release → Prop} {last : CheckoutSnapshot} {w : World}
    (h : Sound sha256 Q last w.checkout w.lock) : Stepped sha256 Q last w w :=
  .stays rfl h (Or.inl rfl)

theorem Stepped.release {Q : Release → Prop} {last : CheckoutSnapshot} {w : World}
    (h : Sound sha256 Q last w.checkout w.lock) : Stepped sha256 Q last w w.release :=
  .stays rfl h.released (Or.inl rfl)

/-- The holder's next operation, where nothing is under way. -/
theorem advance_quiet {Q : Release → Prop} {last : CheckoutSnapshot} {w : World} {phase : Phase}
    (h : Settled w.checkout last) (hphase : Quiet (some phase)) :
    Stepped sha256 Q last w (w.advance sha256 phase) := by
  cases hphase with
  | opening =>
    rw [World.advance, h.1]
    exact .stays rfl (.settled h (.ready none)) (Or.inl rfl)
  | ready recovered => exact .stays rfl (.settled h (.ready recovered)) (Or.inl rfl)
  | closed todo htodo recovered =>
    rcases htodo with rfl | rfl
    · exact .stays rfl (.settled h (.ready recovered)) (Or.inl rfl)
    · exact .stays rfl (.settled h (.closed [] (Or.inl rfl) recovered)) (Or.inl rfl)

theorem advance_stepped {Q : Release → Prop} {last : CheckoutSnapshot} {w : World} {phase : Phase}
    (hphase : w.lock = some phase) (h : Sound sha256 Q last w.checkout w.lock) :
    Stepped sha256 Q last w (w.advance sha256 phase) := by
  cases h with
  | settled h hlock => exact advance_quiet h (hphase ▸ hlock)
  | pending p hp hQ h hlock =>
    rw [hphase] at hlock
    rcases hlock with hlock | hlock
    · cases hlock
    · cases hlock
      simp only [World.advance, h.journal, accepted_steps]
      exact .stays rfl (.rolling p hp hQ h.journal _ _ (.both rfl h.replaced) rfl) (Or.inl rfl)
  | rolling p hp hQ hjournal todo recovered h hlock =>
    cases hphase.symm.trans hlock
    cases todo with
    | nil =>
      refine .stays rfl (.executing p hp hQ _ _ (.closing rfl hjournal ?_) rfl) (Or.inl rfl)
      cases h with
      | both htodo => simp [Release.steps] at htodo
      | registry htodo => cases htodo
      | done htodo h => exact h
    | cons s todo =>
      obtain ⟨c', hroll, hjournal', hchange, hrolling⟩ :=
        h.step hp (by rw [hjournal]; nofun)
      simp only [World.advance, hroll]
      exact .stays rfl (.rolling p hp hQ (hjournal'.trans hjournal) todo recovered hrolling rfl)
        (Or.inr ⟨p, hQ, hchange⟩)
  | executing p hp hQ todo recovered h hlock =>
    cases hphase.symm.trans hlock
    cases todo with
    | nil => exact h.ne_nil.elim
    | cons op todo =>
      obtain ⟨c', happly, hchange, hcases⟩ := h.step hp
      simp only [World.advance, World.execute, happly]
      rcases hcases with ⟨hop, hexecuting⟩ | ⟨hop, rfl, hsettled⟩
      · exact .stays (if_neg hop) (.executing p hp hQ todo recovered hexecuting rfl)
          (Or.inr ⟨p, hQ, hchange⟩)
      · refine .completes p hQ ?_ hsettled (.closed _ (Or.inr rfl) recovered) hchange
        rw [if_pos hop, hsettled.2]

/-- One step of anybody, if what is committed is what `Q` says. -/
theorem step_stepped {Q : Release → Prop} {last : CheckoutSnapshot} {w : World} {a : Action}
    (hcommit : ∀ p previous recovered, a = .commit p previous →
      w.lock = some (.ready recovered) → Q p)
    (h : Sound sha256 Q last w.checkout w.lock) : Stepped sha256 Q last w (step sha256 w a) := by
  cases a with
  | acquire =>
    dsimp only [Publication.step]
    split
    · rename_i hfree
      rw [Option.isNone_iff_eq_none] at hfree
      rw [hfree] at h
      refine .stays rfl ?_ (Or.inl rfl)
      cases h with
      | settled h => exact .settled h .opening
      | pending p hp hQ h => exact .pending p hp hQ h (Or.inr rfl)
      | rolling p hp hQ hjournal todo recovered h hlock => cases hlock
      | executing p hp hQ todo recovered h hlock => cases hlock
    · exact .refl h
  | advance =>
    dsimp only [Publication.step]
    split
    · rename_i phase hphase
      exact advance_stepped hphase h
    · exact .refl h
  | commit p previous =>
    dsimp only [Publication.step]
    split
    · rename_i recovered hphase
      have hsettled : Settled w.checkout last := by
        rw [hphase] at h
        cases h with
        | settled h => exact h
        | pending p hp hQ h hlock => rcases hlock with hlock | hlock <;> cases hlock
        | rolling p hp hQ hjournal todo recovered h hlock => cases hlock
        | executing p hp hQ todo recovered h hlock => cases hlock
      rw [World.commit]
      split
      · rename_i hnamed
        split
        · exact .stays rfl (.executing p hnamed.wellNamed (hcommit p previous recovered rfl hphase) _ none
            (executing_ops hnamed.wellNamed hsettled) rfl) (Or.inl rfl)
        · exact .release h
      · exact .refl h
    · exact .refl h
  | crash => exact .release h
  | begin i allowlist => exact .stays rfl h (Or.inl rfl)
  | read i returns => exact .stays rfl h (Or.inl rfl)

end Invariant

end Conjectures.Publication

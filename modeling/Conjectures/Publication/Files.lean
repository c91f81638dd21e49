import Mathlib.Data.List.Infix
import Mathlib.Logic.Function.Basic
import Conjectures.Lib.Transaction

/-!
# A tasks checkout and its publications

`verifier/publication.py`: the files of a checkout, and the sequence of file operations by
which a commit replaces two of them.

The checkout is the directory as every process sees it.  The journal is kept apart from the
other files: it is read back by its steps, not by its bytes.  Flushing changes nothing that can
be seen, and stands in the sequence only as a place to crash at.  The digest function is any;
nothing here depends on what it computes.
-/

namespace Conjectures.Publication

open Lib

abbrev Bytes := List UInt8
abbrev Digest := String

/-! ## Names -/

def journalName : String := ".publication-journal.json"
def registryName : String := "task-versions.json"
def allowlistName : String := "allowlist.json"
def stagedPrefix : String := ".publication-"

/-- `name.startswith(start)`, and it names a file of the directory itself. -/
def NamedFrom (start name : String) : Prop := start.toList <+: name.toList ∧ '/' ∉ name.toList

instance NamedFrom.decidable (start name : String) : Decidable (NamedFrom start name) := by
  unfold NamedFrom; infer_instance

/-! ## The directory -/

structure JournalStep where
  staged : String
  target : String
  sha256 : Digest
  deriving DecidableEq

/-- What the journal file holds. -/
inductive Journal where
  | unreadable
  | steps (steps : List JournalStep)
  deriving DecidableEq

/-- The files of a checkout, the journal apart. -/
structure Checkout where
  files : String → Option Bytes
  journal : Option Journal

def Checkout.registry (c : Checkout) : Option Bytes := c.files registryName

def Checkout.allowlist (c : Checkout) : Option Bytes := c.files allowlistName

/-- The registry and allowlist bytes of a checkout; a file that does not exist has none. -/
structure CheckoutSnapshot where
  registry : Option Bytes
  allowlist : Option Bytes
  deriving DecidableEq

def Checkout.snapshot (c : Checkout) : CheckoutSnapshot := ⟨c.registry, c.allowlist⟩

/-- `_digest` -/
def Checkout.digest (sha256 : Bytes → Digest) (c : Checkout) (name : String) : Option Digest :=
  (c.files name).map sha256

/-! ## File operations -/

inductive FileOp where
  /-- `mkstemp`: an empty file -/
  | create (name : String)
  | write (name : String) (content : Bytes)
  /-- `fsync` and `chmod`, and the temporary file a journal is written to -/
  | flush
  /-- the finished journal is renamed into place -/
  | journal (steps : List JournalStep)
  /-- `os.replace` -/
  | replace (staged target : String)
  /-- the journal is unlinked -/
  | unlink
  deriving DecidableEq

def Checkout.put (c : Checkout) (name : String) (content : Option Bytes) : Checkout :=
  { c with files := Function.update c.files name content }

/-- What an operation leaves; nothing where it raises. -/
def FileOp.apply (c : Checkout) : FileOp → Option Checkout
  | .create name => some (c.put name (some []))
  | .write name content => some (c.put name (some content))
  | .flush => some c
  | .journal steps => some { c with journal := some (.steps steps) }
  | .replace staged target =>
    (c.files staged).map fun content ↦ (c.put target (some content)).put staged none
  | .unlink => some { c with journal := none }

@[simp] theorem files_put_self (c : Checkout) (name : String) (content : Option Bytes) :
    (c.put name content).files name = content := Function.update_self ..

theorem files_put_of_ne (c : Checkout) {name other : String} (content : Option Bytes)
    (h : other ≠ name) : (c.put name content).files other = c.files other :=
  Function.update_of_ne h ..

@[simp] theorem journal_put (c : Checkout) (name : String) (content : Option Bytes) :
    (c.put name content).journal = c.journal := rfl

/-! ## One publication -/

/-- What a commit publishes, and the names it is staged under. -/
structure Release where
  registry : Bytes
  allowlist : Option Bytes
  stagedRegistry : String
  stagedAllowlist : String

/-- `mkstemp` gives names with the prefix it is asked for, of files that do not exist. -/
structure Release.Named (c : Checkout) (p : Release) : Prop where
  registry : NamedFrom ".publication-registry-" p.stagedRegistry
  allowlist : NamedFrom ".publication-allowlist-" p.stagedAllowlist
  registry_fresh : c.files p.stagedRegistry = none
  allowlist_fresh : c.files p.stagedAllowlist = none

instance Release.decidableNamed (c : Checkout) (p : Release) : Decidable (p.Named c) :=
  decidable_of_iff (NamedFrom ".publication-registry-" p.stagedRegistry ∧
      NamedFrom ".publication-allowlist-" p.stagedAllowlist ∧
      c.files p.stagedRegistry = none ∧ c.files p.stagedAllowlist = none)
    ⟨fun ⟨h₁, h₂, h₃, h₄⟩ ↦ ⟨h₁, h₂, h₃, h₄⟩, fun ⟨h₁, h₂, h₃, h₄⟩ ↦ ⟨h₁, h₂, h₃, h₄⟩⟩

/-- What the checkout holds once the publication is visible. -/
def Release.after (p : Release) (last : CheckoutSnapshot) : CheckoutSnapshot :=
  ⟨some p.registry, p.allowlist.or last.allowlist⟩

section Commit

variable (sha256 : Bytes → Digest)

def Release.registryStep (p : Release) : JournalStep :=
  ⟨p.stagedRegistry, registryName, sha256 p.registry⟩

def Release.allowlistStep (p : Release) (allowlist : Bytes) : JournalStep :=
  ⟨p.stagedAllowlist, allowlistName, sha256 allowlist⟩

/-- The allowlist first, the registry last. -/
def Release.steps (p : Release) : List JournalStep :=
  (p.allowlist.map (p.allowlistStep sha256)).toList ++ [p.registryStep sha256]

/-- Both files are written under their staged names. -/
def Release.staging (p : Release) : List FileOp :=
  [.create p.stagedRegistry, .write p.stagedRegistry p.registry, .flush] ++
    match p.allowlist with
    | some allowlist => [.create p.stagedAllowlist, .write p.stagedAllowlist allowlist, .flush]
    | none => []

/-- The staged files are renamed into place. -/
def Release.replacing (p : Release) : List FileOp :=
  match p.allowlist with
  | some _ => [.replace p.stagedAllowlist allowlistName, .replace p.stagedRegistry registryName]
  | none => [.replace p.stagedRegistry registryName]

/-- The journal is removed last. -/
def closing : List FileOp := [.flush, .unlink, .flush]

/-- The operations of `commit_publication`, once its check went through. -/
def Release.ops (p : Release) : List FileOp :=
  p.staging ++ .flush :: .journal (p.steps sha256) :: .flush :: p.replacing ++ closing

end Commit

/-! ## Names are apart -/

theorem not_prefix_of_ne {l₁ l₂ l : List Char} (h : ¬ l₁ <+: l₂) (h' : ¬ l₂ <+: l₁)
    (h₁ : l₁ <+: l) : ¬ l₂ <+: l := fun h₂ ↦ by
  rcases le_total l₁.length l₂.length with hle | hle
  · exact h (List.prefix_of_prefix_length_le h₁ h₂ hle)
  · exact h' (List.prefix_of_prefix_length_le h₂ h₁ hle)

theorem staged_ne_target {start name target : String} (h : NamedFrom start name)
    (hne : ¬ start.toList <+: target.toList) : name ≠ target := by
  rintro rfl
  exact hne h.1

/-- Staged names are names `_recover` accepts, and the four a commit works with differ. -/
structure Release.WellNamed (p : Release) : Prop where
  registry : NamedFrom stagedPrefix p.stagedRegistry
  allowlist : NamedFrom stagedPrefix p.stagedAllowlist
  staged : p.stagedRegistry ≠ p.stagedAllowlist
  registry_registry : p.stagedRegistry ≠ registryName
  registry_allowlist : p.stagedRegistry ≠ allowlistName
  allowlist_registry : p.stagedAllowlist ≠ registryName
  allowlist_allowlist : p.stagedAllowlist ≠ allowlistName

theorem Release.Named.wellNamed {c : Checkout} {p : Release} (h : p.Named c) : p.WellNamed where
  registry := ⟨List.IsPrefix.trans (by decide) h.registry.1, h.registry.2⟩
  allowlist := ⟨List.IsPrefix.trans (by decide) h.allowlist.1, h.allowlist.2⟩
  staged heq := not_prefix_of_ne (by decide) (by decide) h.registry.1 (heq ▸ h.allowlist.1)
  registry_registry := staged_ne_target h.registry (by decide)
  registry_allowlist := staged_ne_target h.registry (by decide)
  allowlist_registry := staged_ne_target h.allowlist (by decide)
  allowlist_allowlist := staged_ne_target h.allowlist (by decide)

theorem registryName_ne_allowlistName : registryName ≠ allowlistName := by decide

end Conjectures.Publication

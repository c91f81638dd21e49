import Conjectures.Publication.Files

/-!
# Writers and readers of a checkout

Writers are serialised by an exclusive lock: whoever holds it first finishes an interrupted
commit, then may commit a publication, one file operation after the other, and may die between
any two of them, which releases the lock.  Readers take no lock; a reader's checks, reads and
its one use of what it read are operations of their own.  The steps are taken in any order.

The state also records which commits have completed, newest first; no operation reads it.
-/

namespace Conjectures.Publication

open Lib

/-! ## Writers -/

/-- Where the holder of the lock is. -/
inductive Phase where
  /-- in `_recover`, before it looks for a journal -/
  | opening
  /-- in the loop of `_recover` -/
  | rolling (todo : List JournalStep) (recovered : Digest)
  /-- the operations left of a recovery or of a commit -/
  | executing (todo : List FileOp) (recovered : Option Digest)
  /-- in the body of `checkout_writer`, with what it yielded -/
  | ready (recovered : Option Digest)

/-- `READ_ATTEMPTS` -/
def readAttempts : ℕ := 3

/-- `MAX_METADATA_BYTES` -/
def maxMetadataBytes : ℕ := 256 * 1024 * 1024

/-! ## Readers -/

/-- Where a reader is in `read_coherently`.  `returned` is whether `use` did return. -/
inductive ReadPhase where
  | idle
  /-- about to check that no journal exists -/
  | start (attempt : ℕ)
  /-- in the first `capture` -/
  | capture (attempt : ℕ)
  | captureAllowlist (attempt : ℕ) (registry : Option Bytes)
  /-- about to use what was captured -/
  | use (attempt : ℕ) (snapshot : CheckoutSnapshot)
  | recheck (attempt : ℕ) (snapshot : CheckoutSnapshot) (returned : Bool)
  /-- in the second `capture` -/
  | recapture (attempt : ℕ) (snapshot : CheckoutSnapshot) (returned : Bool)
  | recaptureAllowlist (attempt : ℕ) (snapshot : CheckoutSnapshot) (returned : Bool)
      (registry : Option Bytes)
  /-- the result of `use` on this snapshot was returned -/
  | returned (snapshot : CheckoutSnapshot)
  | raised
  deriving DecidableEq

/-- A reader, and whether it was asked for the allowlist of the checkout too. -/
structure Reader where
  allowlist : Bool
  phase : ReadPhase

/-- `_read_once` -/
def readOnce (c : Checkout) (name : String) : Except Unit (Option Bytes) :=
  match c.files name with
  | none => .ok none
  | some content => if content.length ≤ maxMetadataBytes then .ok (some content) else .error ()

theorem readOnce_ok {c : Checkout} {name : String} {content : Option Bytes}
    (h : readOnce c name = .ok content) : content = c.files name := by
  unfold readOnce at h
  split at h
  · rename_i hnone
    cases h
    exact hnone.symm
  · rename_i b hsome
    split at h
    · cases h
      exact hsome.symm
    · cases h

/-- The second half of `capture`: the allowlist, where there is one to read. -/
def Reader.readAllowlist (r : Reader) (c : Checkout) : Except Unit (Option Bytes) :=
  if r.allowlist then readOnce c allowlistName else .ok none

/-- The end of an attempt: what was captured is still there, or the read is repeated. -/
def conclude (attempt : ℕ) (snapshot again : CheckoutSnapshot) (returned : Bool) : ReadPhase :=
  if again = snapshot then
    if returned then .returned snapshot else .raised
  else if attempt + 1 < readAttempts then .start (attempt + 1)
  else .raised

/-- The next operation of a reader; `returns` is whether `use` returns, where that is it. -/
def Reader.next (r : Reader) (c : Checkout) (returns : Bool) : ReadPhase :=
  match r.phase with
  | .idle => .idle
  | .start attempt => if c.journal = none then .capture attempt else .raised
  | .capture attempt =>
    match readOnce c registryName with
    | .ok registry => .captureAllowlist attempt registry
    | .error _ => .raised
  | .captureAllowlist attempt registry =>
    match r.readAllowlist c with
    | .ok allowlist => .use attempt ⟨registry, allowlist⟩
    | .error _ => .raised
  | .use attempt snapshot => .recheck attempt snapshot returns
  | .recheck attempt snapshot returned =>
    if c.journal = none then .recapture attempt snapshot returned else .raised
  | .recapture attempt snapshot returned =>
    match readOnce c registryName with
    | .ok registry => .recaptureAllowlist attempt snapshot returned registry
    | .error _ => .raised
  | .recaptureAllowlist attempt snapshot returned registry =>
    match r.readAllowlist c with
    | .ok allowlist => conclude attempt snapshot ⟨registry, allowlist⟩ returned
    | .error _ => .raised
  | .returned snapshot => .returned snapshot
  | .raised => .raised

/-! ## The system -/

structure World where
  checkout : Checkout
  /-- where the holder of the writer lock is, if anyone holds it -/
  lock : Option Phase
  readers : ℕ → Reader
  committed : List CheckoutSnapshot

inductive Action where
  /-- a writer is granted the lock -/
  | acquire
  /-- its next operation -/
  | advance
  /-- `commit_publication` is called -/
  | commit (p : Release) (previous : Option Digest)
  /-- the holder dies, or leaves -/
  | crash
  /-- reader `i` calls `read_coherently` -/
  | begin (i : ℕ) (allowlist : Bool)
  /-- its next operation -/
  | read (i : ℕ) (returns : Bool)

section Step

variable (sha256 : Bytes → Digest)

/-- The journal's steps, where `_recover` accepts them as a whole. -/
def Journal.accepted : Journal → Option (List JournalStep)
  | .unreadable => none
  | .steps l => if l.getLast?.map (·.target) = some registryName then some l else none

/-- One pass of the loop of `_recover`; nothing where it raises. -/
def rollForward (c : Checkout) (s : JournalStep) : Option Checkout :=
  if (s.target = allowlistName ∨ s.target = registryName) ∧ NamedFrom stagedPrefix s.staged then
    if c.digest sha256 s.staged = some s.sha256 then (FileOp.replace s.staged s.target).apply c
    else if c.digest sha256 s.target = some s.sha256 then some c
    else none
  else none

/-- The lock is released. -/
def World.release (w : World) : World := { w with lock := none }

/-- A commit has completed where the journal goes. -/
def World.execute (w : World) (op : FileOp) (todo : List FileOp) (recovered : Option Digest) :
    World :=
  match op.apply w.checkout with
  | none => w.release
  | some c =>
    { w with
      checkout := c
      lock := some (.executing todo recovered)
      committed := if op = .unlink then c.snapshot :: w.committed else w.committed }

/-- The next operation of the holder of the lock. -/
def World.advance (w : World) : Phase → World
  | .opening =>
    match w.checkout.journal with
    | none => { w with lock := some (.ready none) }
    | some journal =>
      match journal.accepted with
      | none => w.release
      | some steps =>
        { w with lock := some (.rolling steps ((steps.getLast?.map (·.sha256)).getD "")) }
  | .rolling [] recovered => { w with lock := some (.executing closing (some recovered)) }
  | .rolling (s :: todo) recovered =>
    match rollForward sha256 w.checkout s with
    | none => w.release
    | some c => { w with checkout := c, lock := some (.rolling todo recovered) }
  | .executing [] recovered => { w with lock := some (.ready recovered) }
  | .executing (op :: todo) recovered => w.execute op todo recovered
  | .ready recovered => { w with lock := some (.ready recovered) }

/-- `commit_publication` checks that the registry is the one it was derived from. -/
def World.commit (w : World) (p : Release) (previous : Option Digest) : World :=
  if p.Named w.checkout then
    if w.checkout.digest sha256 registryName = previous then
      { w with lock := some (.executing (p.ops sha256) none) }
    else w.release
  else w

def step (w : World) : Action → World
  | .acquire => if w.lock.isNone then { w with lock := some .opening } else w
  | .advance =>
    match w.lock with
    | some phase => w.advance sha256 phase
    | none => w
  | .commit p previous =>
    match w.lock with
    | some (.ready _) => w.commit sha256 p previous
    | _ => w
  | .crash => w.release
  | .begin i allowlist => { w with readers := Function.update w.readers i ⟨allowlist, .start 0⟩ }
  | .read i returns =>
    { w with
      readers := Function.update w.readers i
        { w.readers i with phase := (w.readers i).next w.checkout returns } }

end Step

end Conjectures.Publication

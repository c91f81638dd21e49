import Conjectures.Intents.Copies

/-!
# One confirmation, one charge

A confirmation writes to four tables: the proof, the entry that spends the credit, the
submission, and the intent that names it.  `Charged` is what holds between the last three after
every transaction, however old the copies are that the sessions work on: an intent that names a
submission, and a SPEND entry with the submission it paid for, are the same thing twice.

That such an intent is CONFIRMED holds as well (`Named`), unless an upload that read the intent
before its first bundle stores its bundle after the confirmation, which sets the status back.
-/

namespace Conjectures.Intents

open Lib Db Api

/-! ## What an intent was charged -/

/-- The submissions that an entry of the ledger paid for. -/
def paidBy (db : Database) (entryId : ℕ) : List Submission :=
  db.submissions.rows.filter fun s ↦ s.creditLedgerId = some entryId

/-! ## The invariant -/

/-- Intents that name a submission, SPEND entries and the submissions they paid for go
together. -/
structure Charged (db : Database) : Prop where
  confirmed : ∀ i ∈ db.intents.rows, i.status = .confirmed → i.submissionId.isSome
  digest : ∀ i ∈ db.intents.rows, i.submissionId.isSome → i.requestDigest.isSome
  spend : ∀ e ∈ db.ledger.rows, e.kind = .spend → ∃ i ∈ db.intents.rows,
    e.intentId = some i.id ∧ i.submissionId.isSome ∧ e.amountRao = -i.heldRao
  bought : ∀ i ∈ db.intents.rows, i.submissionId.isSome → ∃ e ∈ db.ledger.rows,
    e.kind = .spend ∧ e.intentId = some i.id ∧ ∃ s ∈ db.submissions.rows,
      s.creditLedgerId = some e.id ∧ i.submissionId = some s.id
  spends : Unique CreditLedgerEntry.spendIdx db.ledger.rows
  paid : Unique Submission.creditLedgerId db.submissions.rows

theorem charged_empty : Charged Database.empty where
  confirmed := by intro i hi; cases hi
  digest := by intro i hi; cases hi
  spend := by intro e he; cases he
  bought := by intro i hi; cases hi
  spends := by intro e he; cases he
  paid := by intro s hs; cases hs

/-- Actions that sell nothing keep the charges as they are. -/
theorem Charged.unsold {kept : Prop} {db db' : Database} (h : Charged db)
    (hunsold : Unsold kept db db') : Charged db' := by
  obtain ⟨entries, hledger, hnospend⟩ := hunsold.ledger
  obtain ⟨rows, hsubmissions, hunpaid⟩ := hunsold.submissions
  -- an intent that names a submission is a later version of one that named it
  have hold : ∀ i' ∈ db'.intents.rows, i'.submissionId.isSome →
      ∃ i ∈ db.intents.rows, Uncharged kept i i' := by
    intro i' hi' hsome
    rcases hunsold.origin i' hi' with h | ⟨-, hnone⟩
    · exact h
    · rw [hnone] at hsome
      cases hsome
  exact
    { confirmed := by
        intro i' hi' hstatus
        rcases hunsold.origin i' hi' with ⟨i, hi, hu⟩ | ⟨hother, -⟩
        · rw [hu.same]
          exact h.confirmed i hi (hu.confirmed hstatus)
        · exact absurd hstatus hother
      digest := by
        intro i' hi' hsome
        obtain ⟨i, hi, hu⟩ := hold i' hi' hsome
        exact hu.digest (h.digest i hi (by rw [← hu.same]; exact hsome))
      spend := by
        intro e he hkind
        rw [hledger] at he
        rcases List.mem_append.mp he with he | he
        · obtain ⟨i, hi, hnames, hsome, hamount⟩ := h.spend e he hkind
          obtain ⟨i', hi', hu⟩ := hunsold.later i hi
          exact ⟨i', hi', by rw [hu.id]; exact hnames, by rw [hu.same]; exact hsome,
            by rw [hu.held]; exact hamount⟩
        · exact absurd hkind (hnospend e he)
      bought := by
        intro i' hi' hsome
        obtain ⟨i, hi, hu⟩ := hold i' hi' hsome
        obtain ⟨e, he, hkind, hnames, s, hs, hpaid, hid⟩ :=
          h.bought i hi (by rw [← hu.same]; exact hsome)
        rw [hledger, hsubmissions]
        exact ⟨e, List.mem_append_left _ he, hkind, by rw [hu.id]; exact hnames, s,
          List.mem_append_left _ hs, hpaid, by rw [hu.same]; exact hid⟩
      spends := by
        rw [hledger]
        refine h.spends.append_of_none fun e he ↦ ?_
        rw [CreditLedgerEntry.spendIdx, if_neg (hnospend e he)]
      paid := by
        rw [hsubmissions]
        exact h.paid.append_of_none hunpaid }

section Confirmation

variable {db db' : Database} {copy i : SubmissionIntent} {c : Confirmation} {now : Instant}
  {s : Submission}

/-- An intent that was charged is not charged again, whatever copy of it is confirmed. -/
theorem Charged.unspent (h : Charged db) (hi : i ∈ db.intents.rows) (hid : i.id = copy.id)
    (hspec : CopyConfirmed db copy c now s db') : i.submissionId = none := by
  by_contra hsome
  obtain ⟨e, he, hkind, hnames, -⟩ := h.bought i hi (Option.isSome_iff_ne_none.mpr hsome)
  have hidx : e.spendIdx = some copy.id := by
    rw [CreditLedgerEntry.spendIdx, if_pos hkind, hnames, hid]
  exact not_taken hspec.accepted.2.1 he rfl hidx

/-- The row of an intent after its confirmation, and the other rows. -/
theorem confirmed_rows (hspec : CopyConfirmed db copy c now s db') (hi : i ∈ db.intents.rows)
    (hid : i.id = copy.id) (j : SubmissionIntent) : j ∈ db'.intents.rows ↔
      (j ∈ db.intents.rows ∧ j.id ≠ i.id) ∨
        j = SubmissionIntent.flush copy (copy.confirmedBy s.id) i := by
  rw [hspec.intents, ← hid]
  exact Table.mem_modify_of_mem hi

/-- A confirmation writes the three together. -/
theorem Charged.confirm (h : Charged db) (hi : i ∈ db.intents.rows) (hfollows : Follows copy i)
    (hspec : CopyConfirmed db copy c now s db') : Charged db' := by
  have hsubmissions : db'.submissions.rows = db.submissions.rows ++ [s] :=
    Table.rows_of_insert? hspec.fresh
  have hrows := confirmed_rows hspec hi hfollows.id
  have hnone : i.submissionId = none := h.unspent hi hfollows.id hspec
  -- neither the row nor the copy names a submission, so the new name is written
  have hcopy : copy.submissionId = none := by
    by_contra hsome
    have hsame := hfollows.names (Option.isSome_iff_ne_none.mpr hsome)
    rw [hnone] at hsame
    exact hsome hsame.symm
  have hname : (SubmissionIntent.flush copy (copy.confirmedBy s.id) i).submissionId =
      some s.id := by
    show written copy.submissionId (some s.id) i.submissionId = some s.id
    rw [hcopy, hnone, written_current]
  -- what was charged is about other intents
  have hother : ∀ j ∈ db.intents.rows, j.submissionId.isSome →
      j ∈ db'.intents.rows := by
    intro j hj hsome
    refine (hrows j).mpr (Or.inl ⟨hj, fun hid ↦ ?_⟩)
    rw [db.intents.eq_of_key hj hi hid, hnone] at hsome
    cases hsome
  exact
    { confirmed := by
        intro j hj hstatus
        rcases (hrows j).mp hj with ⟨hj, -⟩ | rfl
        · exact h.confirmed j hj hstatus
        · rw [hname]
          rfl
      digest := by
        intro j hj hsome
        rcases (hrows j).mp hj with ⟨hj, -⟩ | rfl
        · exact h.digest j hj hsome
        · show (written copy.requestDigest copy.requestDigest i.requestDigest).isSome
          rw [written_same]
          exact hfollows.digest hspec.digest
      spend := by
        intro e he hkind
        rw [hspec.ledger] at he
        rcases List.mem_append.mp he with he | he
        · obtain ⟨j, hj, hnames, hsome, hamount⟩ := h.spend e he hkind
          exact ⟨j, hother j hj hsome, hnames, hsome, hamount⟩
        · rw [List.mem_singleton.mp he]
          refine ⟨_, (hrows _).mpr (Or.inr rfl), ?_, by rw [hname]; rfl, ?_⟩
          · exact congrArg some hfollows.id.symm
          · exact congrArg (- ·) hfollows.held.symm
      bought := by
        intro j hj hsome
        rw [hspec.ledger, hsubmissions]
        rcases (hrows j).mp hj with ⟨hj, -⟩ | rfl
        · obtain ⟨e, he, hkind, hnames, s', hs', hpaid, hid⟩ := h.bought j hj hsome
          exact ⟨e, List.mem_append_left _ he, hkind, hnames, s', List.mem_append_left _ hs',
            hpaid, hid⟩
        · exact ⟨_, List.mem_append_right _ List.mem_cons_self, rfl,
            congrArg some hfollows.id.symm, s, List.mem_append_right _ List.mem_cons_self,
            hspec.names, hname⟩
      spends := by
        rw [hspec.ledger]
        exact h.spends.append hspec.accepted.2.1
      paid := by
        rw [hsubmissions]
        exact h.paid.append hspec.unclaimed }

end Confirmation

/-! ## Every action -/

/-- The charges go together, and the copies in flight are of intents of the table. -/
structure Inv (s : State) : Prop where
  charged : Charged s.db
  copies : Copies s

theorem inv_empty : Inv .empty := ⟨charged_empty, copies_empty⟩

/-- An intent that names a submission is confirmed. -/
def Named (db : Database) : Prop :=
  ∀ i ∈ db.intents.rows, i.submissionId.isSome → i.status = .confirmed

section Runs

variable {db : Database} {i : SubmissionIntent}

end Runs

end Conjectures.Intents

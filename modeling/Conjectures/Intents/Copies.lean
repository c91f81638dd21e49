import Conjectures.Lib.Run
import Conjectures.Intents.Steps

/-!
# Copies in flight

An upload reads its intent, and then it awaits the archive and has it admitted.  A
confirmation reads its intent, and then it waits for the bounty's lock and for the account's.
Neither locks what it read: under READ COMMITTED anything may be committed in between, and the
session goes on with the copy it has (`storeBundle`, `confirmCopied`).

All other transactions, and uploads and confirmations that nothing comes between, are steps of
`Intents.step`.
-/

namespace Conjectures.Intents

open Lib Db Api

/-- A session that read an intent and holds the copy. -/
structure Session where
  number : ℕ
  intent : SubmissionIntent
  deriving DecidableEq

structure State where
  db : Database
  sessions : Table Session.number

def State.empty : State := ⟨Database.empty, .empty Session.number⟩

inductive Action where
  /-- a transaction of its own -/
  | serial (a : Step)
  /-- an upload or a confirmation reads its intent -/
  | read (number : ℕ) (intentId accountId : Uuid)
  /-- the upload goes on: the archive was admitted -/
  | upload (number : ℕ) (r : BundleUpload)
  /-- the confirmation goes on: it has the locks -/
  | confirm (number : ℕ) (r : ConfirmRequest)
  /-- the session ends without a write -/
  | drop (number : ℕ)

/-- A later version of an intent.  What it holds is fixed when it is opened, and a submission
it names and a digest to sign are never taken away. -/
structure Follows (i i' : SubmissionIntent) : Prop where
  id : i'.id = i.id
  held : i'.heldRao = i.heldRao
  names : i.submissionId.isSome → i'.submissionId = i.submissionId
  digest : i.requestDigest.isSome → i'.requestDigest.isSome

theorem Follows.refl (i : SubmissionIntent) : Follows i i := ⟨rfl, rfl, fun _ ↦ rfl, fun h ↦ h⟩

theorem Follows.trans {i₁ i₂ i₃ : SubmissionIntent} (h : Follows i₁ i₂) (h' : Follows i₂ i₃) :
    Follows i₁ i₃ where
  id := h'.id.trans h.id
  held := h'.held.trans h.held
  names hn := (h'.names (by rw [h.names hn]; exact hn)).trans (h.names hn)
  digest hd := h'.digest (h.digest hd)

/-- A later version of an intent that was charged nothing in between, and not confirmed.  If it
was confirmed before, it still is, given `kept`. -/
structure Uncharged (kept : Prop) (i i' : SubmissionIntent) : Prop extends Follows i i' where
  same : i'.submissionId = i.submissionId
  confirmed : i'.status = .confirmed → i.status = .confirmed
  stays : kept → i.status = .confirmed → i'.status = .confirmed

section Versions

variable {kept : Prop} {i : SubmissionIntent}

theorem Uncharged.refl (i : SubmissionIntent) : Uncharged kept i i :=
  ⟨.refl i, rfl, fun h ↦ h, fun _ h ↦ h⟩

end Versions

/-! ## What an action writes -/

/-- No bundle is stored on a copy that was read before the intent's first bundle, once the
intent is confirmed. -/
def InTime (s : State) : Action → Prop
  | .upload number _ => ∀ x ∈ s.sessions.rows, x.number = number → x.intent.status = .opened →
      ∀ i ∈ s.db.intents.rows, i.id = x.intent.id → i.status ≠ .confirmed
  | _ => True

instance InTime.decidable (s : State) (a : Action) : Decidable (InTime s a) := by
  unfold InTime; split <;> infer_instance

/-- Nothing is sold: the intents are later versions of those there were, or new ones, no entry
spends anything, and no submission is paid for by the ledger. -/
structure Unsold (kept : Prop) (db db' : Database) : Prop where
  later : ∀ i ∈ db.intents.rows, ∃ i' ∈ db'.intents.rows, Uncharged kept i i'
  origin : ∀ i' ∈ db'.intents.rows, (∃ i ∈ db.intents.rows, Uncharged kept i i') ∨
    (i'.status ≠ .confirmed ∧ i'.submissionId = none)
  ledger : ∃ entries, db'.ledger.rows = db.ledger.rows ++ entries ∧ ∀ e ∈ entries, e.kind ≠ .spend
  submissions : ∃ rows, db'.submissions.rows = db.submissions.rows ++ rows ∧
    ∀ s ∈ rows, s.creditLedgerId = none

section Rules

variable {kept : Prop} {db db' : Database}

theorem Unsold.income (h : Income db db') : Unsold kept db db' where
  later i hi := ⟨i, by rw [h.intents]; exact hi, .refl i⟩
  origin i hi := Or.inl ⟨i, by rw [← h.intents]; exact hi, .refl i⟩
  ledger := by
    obtain ⟨entries, hledger, hpositive⟩ := h.ledger
    exact ⟨entries, hledger, fun e he ↦ (hpositive e he).1⟩
  submissions := h.submissions

theorem Unsold.refl (db : Database) : Unsold kept db db := .income (.of_same rfl rfl rfl)

/-- An update of the intents. -/
theorem Unsold.update {p : SubmissionIntent → Bool} {f : SubmissionIntent → SubmissionIntent}
    (hf : ∀ i, (f i).id = i.id) (h : db' = { db with intents := db.intents.update p f hf })
    (hlater : ∀ i ∈ db.intents.rows, p i = true → Uncharged kept i (f i)) :
    Unsold kept db db' := by
  have heach : ∀ i ∈ db.intents.rows, Uncharged kept i (if p i then f i else i) := by
    intro i hi
    split
    · rename_i hp
      exact hlater i hi hp
    · exact .refl i
  have hmem : ∀ i', i' ∈ (db.intents.update p f hf).rows ↔
      ∃ i ∈ db.intents.rows, (if p i then f i else i) = i' := fun _ ↦ Table.mem_update
  subst h
  exact
    { later := fun i hi ↦ ⟨_, (hmem _).mpr ⟨i, hi, rfl⟩, heach i hi⟩
      origin := by
        intro i' hi'
        obtain ⟨i, hi, rfl⟩ := (hmem i').mp hi'
        exact Or.inl ⟨i, hi, heach i hi⟩
      ledger := ⟨[], (List.append_nil _).symm, by simp⟩
      submissions := ⟨[], (List.append_nil _).symm, by simp⟩ }

/-- An update of one intent. -/
theorem Unsold.modify {i : SubmissionIntent} (hi : i ∈ db.intents.rows)
    {f : SubmissionIntent → SubmissionIntent} (hf : ∀ i, (f i).id = i.id)
    (h : db' = { db with intents := db.intents.modify i.id f hf })
    (hlater : Uncharged kept i (f i)) : Unsold kept db db' := by
  refine .update hf h fun j hj hp ↦ ?_
  rw [db.intents.eq_of_key hj hi (of_decide_eq_true hp)]
  exact hlater

theorem Unsold.insert {i : SubmissionIntent} (hins : db.intents.insert? i = some db'.intents)
    (h : db' = { db with intents := db'.intents }) (hstatus : i.status ≠ .confirmed)
    (hnone : i.submissionId = none) : Unsold kept db db' where
  later j hj := by
    refine ⟨j, ?_, .refl j⟩
    rw [Table.rows_of_insert? hins]
    exact List.mem_append_left _ hj
  origin j hj := by
    rw [Table.rows_of_insert? hins] at hj
    rcases List.mem_append.mp hj with hj | hj
    · exact Or.inl ⟨j, hj, .refl j⟩
    · rw [List.mem_singleton.mp hj]
      exact Or.inr ⟨hstatus, hnone⟩
  ledger := ⟨[], by rw [h, List.append_nil], by simp⟩
  submissions := ⟨[], by rw [h, List.append_nil], by simp⟩

end Rules

/-- An action sells nothing, or it confirms one intent, from a copy that is older than the row
or as old. -/
inductive Effect (kept : Prop) (db db' : Database) : Prop
  | unsold (h : Unsold kept db db')
  | confirmed (copy i : SubmissionIntent) (c : Confirmation) (now : Instant) (s : Submission)
      (mem : i ∈ db.intents.rows) (follows : Follows copy i)
      (h : CopyConfirmed db copy c now s db')

/-- Every copy in flight is of an intent of the table, and no newer than the row. -/
def Copies (s : State) : Prop :=
  ∀ x ∈ s.sessions.rows, ∃ i ∈ s.db.intents.rows, Follows x.intent i

theorem copies_empty : Copies .empty := by intro x hx; cases hx

end Conjectures.Intents

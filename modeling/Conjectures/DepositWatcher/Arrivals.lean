import Conjectures.DepositWatcher.Scan

/-!
# No arrival is lost

The chain, the cursor and `chain_transfers` are written at different times by
different transactions.  What holds them together is that the cursor comes last:
below it every transfer to the recipient has its row, and a watcher in the middle
of a block knows of each of the block's transfers that it is recorded or still in
its hands (`PcSound`).

A row is never lost or rewritten in what it says of the chain (`Evolves`), and a
reference names one event of the chain, so one row is the row of one transfer.
-/

namespace Conjectures.DepositWatcher

open Lib Db Api Chain

/-! ## Rows and transfers -/

/-- Two rows say the same of the chain. -/
def SameFacts (t t' : ChainTransfer) : Prop :=
  t.extrinsicReference = t'.extrinsicReference ∧ t.senderColdkey = t'.senderColdkey ∧
    t.amountRao = t'.amountRao

theorem SameFacts.refl (t : ChainTransfer) : SameFacts t t := ⟨rfl, rfl, rfl⟩

theorem SameFacts.trans {t t' t'' : ChainTransfer} (h : SameFacts t t')
    (h' : SameFacts t' t'') : SameFacts t t'' :=
  ⟨h.1.trans h'.1, h.2.1.trans h'.2.1, h.2.2.trans h'.2.2⟩

/-- The rows of `t` are still there in `t'`, and a row that is new in what it says is
that of `new`. -/
structure Evolves (t t' : Table ChainTransfer.extrinsicReference)
    (new : Option IncomingTransfer) : Prop where
  keeps : ∀ row ∈ t.rows, ∃ row' ∈ t'.rows, SameFacts row' row
  origin : ∀ row' ∈ t'.rows,
    (∃ row ∈ t.rows, SameFacts row' row) ∨ ∃ a, new = some a ∧ SameFacts row' a.row

theorem Evolves.refl (t : Table ChainTransfer.extrinsicReference)
    (new : Option IncomingTransfer) : Evolves t t new where
  keeps row hrow := ⟨row, hrow, .refl row⟩
  origin row hrow := Or.inl ⟨row, hrow, .refl row⟩

theorem Evolves.trans {t t' t'' : Table ChainTransfer.extrinsicReference}
    {new : Option IncomingTransfer} (h : Evolves t t' new) (h' : Evolves t' t'' none) :
    Evolves t t'' new where
  keeps row hrow := by
    obtain ⟨row', hrow', hs⟩ := h.keeps row hrow
    obtain ⟨row'', hrow'', hs'⟩ := h'.keeps row' hrow'
    exact ⟨row'', hrow'', hs'.trans hs⟩
  origin row'' hrow'' := by
    obtain ⟨row', hrow', hs'⟩ | ⟨_, ⟨⟩, _⟩ := h'.origin row'' hrow''
    obtain ⟨row, hrow, hs⟩ | ⟨a, ha, hs⟩ := h.origin row' hrow'
    · exact Or.inl ⟨row, hrow, hs'.trans hs⟩
    · exact Or.inr ⟨a, ha, hs'.trans hs⟩

theorem evolves_insertNew (t : Table ChainTransfer.extrinsicReference) (a : IncomingTransfer) :
    Evolves t (t.insertNew a.row) (some a) where
  keeps row hrow := ⟨row, Table.mem_insertNew.mpr (Or.inl hrow), .refl row⟩
  origin row hrow := by
    rcases Table.mem_insertNew.mp hrow with hrow | ⟨rfl, -⟩
    · exact Or.inl ⟨row, hrow, .refl row⟩
    · exact Or.inr ⟨a, rfl, .refl _⟩

theorem evolves_modify (t : Table ChainTransfer.extrinsicReference) (reference : String)
    (new : Option IncomingTransfer) (f : ChainTransfer → ChainTransfer)
    (hf : ∀ r, (f r).extrinsicReference = r.extrinsicReference)
    (hfacts : ∀ r, SameFacts (f r) r) : Evolves t (t.modify reference f hf) new where
  keeps row hrow := by
    by_cases hk : row.extrinsicReference = reference
    · exact ⟨f row, Table.mem_modify.mpr (Or.inr ⟨row, hrow, hk, rfl⟩), hfacts row⟩
    · exact ⟨row, Table.mem_modify.mpr (Or.inl ⟨hrow, hk⟩), .refl row⟩
  origin row' hrow' := by
    rcases Table.mem_modify.mp hrow' with ⟨hrow', -⟩ | ⟨row, hrow, -, rfl⟩
    · exact Or.inl ⟨row', hrow', .refl row'⟩
    · exact Or.inl ⟨row, hrow, hfacts row⟩

/-- A transaction that leaves the cursor alone and evolves the transfers. -/
def Evolved (new : Option IncomingTransfer) (db db' : Database) : Prop :=
  Evolves db.transfers db'.transfers new ∧ db'.cursor = db.cursor

theorem Evolved.refl (new : Option IncomingTransfer) (db : Database) : Evolved new db db :=
  ⟨.refl _ _, rfl⟩

theorem evolved_noteTransfer {db db' : Database} {reference note : String}
    {status : Option ChainTransferState} (new : Option IncomingTransfer)
    (h : noteTransfer db reference status note = .ok db') : Evolved new db db' := by
  rw [noteTransfer_spec h]
  exact ⟨evolves_modify _ reference new (·.noted status note) (fun _ ↦ rfl)
    fun _ ↦ ⟨rfl, rfl, rfl⟩, rfl⟩

theorem evolved_ignore {db db' : Database} {transfer : ChainTransfer} {note : String}
    (new : Option IncomingTransfer) (h : ignore db transfer note = .ok db') :
    Evolved new db db' := by
  obtain ⟨-, -, h⟩ := bind_eq_ok.mp h
  exact evolved_noteTransfer new h

theorem evolved_credit {db db' : Database} {transfer : ChainTransfer} {accountId : Uuid}
    {terms : CreditTerms} {entry : CreditLedgerEntry} (new : Option IncomingTransfer)
    (h : credit db transfer accountId terms = .ok (entry, db')) : Evolved new db db' := by
  obtain ⟨-, deposit, db₁, db₂, hfound, -, -, hdep, hdb'⟩ := credit_spec h
  have h₁ : db₁.transfers = db.transfers ∧ db₁.cursor = db.cursor := by
    rcases hfound.rows with ⟨rfl, -⟩ | ⟨-, -, hdb₁⟩
    · exact ⟨rfl, rfl⟩
    · rw [hdb₁]; exact ⟨rfl, rfl⟩
  have h₂ : db₂.transfers = db.transfers ∧ db₂.cursor = db.cursor := by
    rw [hdep.rest]; exact h₁
  rw [hdb', Evolved, ← h₂.1]
  exact ⟨evolves_modify _ _ new (·.creditedTo accountId deposit.id terms.creditPriceRao)
    (fun _ ↦ rfl) fun _ ↦ ⟨rfl, rfl, rfl⟩, h₂.2⟩

theorem evolved_settle {settings : Settings} {arrival : IncomingTransfer} {recorded : Bool}
    {env : SettleEnv} {db db' : Database} {admitted : Admitted}
    (h : settle settings arrival recorded env db = .ok (admitted, db')) :
    Evolved none db db' := by
  obtain ⟨transfer, -, -, ⟨-, rfl⟩ | ⟨-, hignore | hleave | ⟨_, _, hcredit⟩⟩⟩ := settle_spec h
  · exact .refl _ _
  · exact evolved_ignore _ hignore
  · exact evolved_noteTransfer _ hleave
  · exact evolved_credit _ hcredit

theorem evolved_noteConflict {reference message : String} {db db' : Database}
    (h : noteConflict reference message db = .ok ((), db')) : Evolved none db db' := by
  rcases noteConflict_spec h with rfl | ⟨_, -, hleave⟩
  · exact .refl _ _
  · exact evolved_noteTransfer _ hleave

theorem evolved_recordArrival {arrival : IncomingTransfer} {db db' : Database}
    {r : RecordedTransfer} (h : recordArrival arrival db = .ok (r, db')) :
    Evolved (some arrival) db db' := by
  obtain ⟨-, hdb', -, -⟩ := record_spec h
  rw [hdb']
  exact ⟨evolves_insertNew _ _, rfl⟩

/-- Every client's transaction leaves the cursor alone, keeps the rows and adds the one
it brings at most. -/
theorem evolved_step (c : Deployment) (db : Database) (a : Step) :
    Evolved a.brings db (step c db a) := by
  cases a with
  | accounts accounts wallets => exact .refl _ _
  | declare id accountId amountRao treasuryAddress creditPriceRao expiresAt now =>
    refine commit_induction (Evolved.refl _ _) fun deposit db' hcreate ↦ ?_
    obtain ⟨-, -, -, -, -, -, -, hdb'⟩ := createDeposit_spec hcreate
    rw [hdb']
    exact .refl _ _
  | claimDeposit accountId coldkey reference =>
    refine commit_induction (Evolved.refl _ _) fun _ db' hclaim ↦ ?_
    obtain ⟨deposit, -, -, hseen⟩ := claimDeposit_spec hclaim
    obtain ⟨-, hdb'⟩ := markSeen_spec hseen
    rw [hdb']
    exact .refl _ _
  | expireDeposits now => exact .refl _ _
  | record arrival =>
    exact commit_induction (Evolved.refl _ _) fun _ _ h ↦ evolved_recordArrival h
  | settle arrival recorded env =>
    exact commit_induction (Evolved.refl _ _) fun _ _ h ↦ evolved_settle h
  | noteConflict reference message =>
    exact commit_induction (Evolved.refl _ _) fun _ _ h ↦ evolved_noteConflict h
  | submit request transfer id =>
    refine commit_induction (Evolved.refl _ _) fun _ db' hsubmit ↦ ?_
    rcases submit_spec hsubmit with rfl | ⟨db₁, hins, hclaim⟩
    · exact .refl _ _
    · obtain ⟨row, -, -, -, hdb'⟩ := claimForSubmission_spec hclaim
      rw [hdb', hins.rest]
      refine ⟨(evolves_insertNew _ transfer).trans ?_, rfl⟩
      exact evolves_modify _ _ none
        (·.noted (some .ignored) s!"funded submission {id} directly") (fun _ ↦ rfl)
        fun _ ↦ ⟨rfl, rfl, rfl⟩
  | ignore reference note =>
    refine commit_induction (Evolved.refl _ _) fun _ db' hignore ↦ ?_
    obtain ⟨transfer, -, hignore⟩ := ignoreTransfer_spec hignore
    exact evolved_ignore _ hignore

/-! ## What a watcher in the middle of a pass knows -/

/-- The transfer has its row. -/
def Recorded (db : Database) (t : IncomingTransfer) : Prop :=
  ∃ row ∈ db.transfers.rows, SameFacts row t.row

/-- Nothing that was recorded is lost, and the cursor keeps its start and does not go
back. -/
structure Extends (db db' : Database) : Prop where
  recorded : ∀ t, Recorded db t → Recorded db' t
  cursor : ∀ cursor, db.cursor = some cursor → ∃ cursor', db'.cursor = some cursor' ∧
    cursor'.startBlock = cursor.startBlock ∧ cursor.lastScannedBlock ≤ cursor'.lastScannedBlock

theorem Extends.refl (db : Database) : Extends db db where
  recorded _ h := h
  cursor cursor h := ⟨cursor, h, rfl, le_rfl⟩

theorem Extends.trans {db db' db'' : Database} (h : Extends db db') (h' : Extends db' db'') :
    Extends db db'' where
  recorded t ht := h'.recorded t (h.recorded t ht)
  cursor cursor hc := by
    obtain ⟨cursor', hc', hstart, hle⟩ := h.cursor cursor hc
    obtain ⟨cursor'', hc'', hstart', hle'⟩ := h'.cursor cursor' hc'
    exact ⟨cursor'', hc'', hstart'.trans hstart, hle.trans hle'⟩

theorem Evolved.extends {new : Option IncomingTransfer} {db db' : Database}
    (h : Evolved new db db') : Extends db db' where
  recorded := by
    rintro t ⟨row, hrow, hs⟩
    obtain ⟨row', hrow', hs'⟩ := h.1.keeps row hrow
    exact ⟨row', hrow', hs'.trans hs⟩
  cursor cursor hc := ⟨cursor, h.2.trans hc, rfl, le_rfl⟩

section Sound

variable (recipient : Ss58) (chain : FinalizedChain)

/-- Every transfer to the recipient from the cursor's start block to before `upTo` has
its row. -/
def Covered (db : Database) (upTo : ℤ) : Prop :=
  ∃ cursor, db.cursor = some cursor ∧ ∀ block ≥ cursor.startBlock, (block : ℤ) < upTo →
    ∀ t ∈ chain.transfersTo recipient block, Recorded db t

/-- Of the arrivals of block `number`, those not in `rest` have their rows. -/
structure Admitting (db : Database) (number : ℕ) (rest : List IncomingTransfer) : Prop where
  below : Covered recipient chain db number
  split : ∀ t ∈ chain.transfersTo recipient number, Recorded db t ∨ t ∈ rest
  carried : ∀ t ∈ rest, chain.Carries t

/-- What a watcher's place says about the database. -/
def PcSound (db : Database) : Pc → Prop
  | .idle => True
  | .awaitingHead scanned => Covered recipient chain db (scanned + 1)
  | .scanning number _ => Covered recipient chain db number
  | .admitting number _ rest => Admitting recipient chain db number rest
  | .settling number _ _ _ rest => Admitting recipient chain db number rest
  | .noting number _ _ _ rest => Admitting recipient chain db number rest

/-- Rows come from the chain, the cursor is behind everything that has none, and every
watcher is where its place says. -/
structure Sound (s : Watch) : Prop where
  origin : ∀ row ∈ s.db.transfers.rows, ∃ t, chain.Carries t ∧ SameFacts row t.row
  cursor : ∀ cursor, s.db.cursor = some cursor →
    Covered recipient chain s.db (cursor.lastScannedBlock + 1)
  pcs : ∀ w, PcSound recipient chain s.db (s.pc w)

variable {recipient chain}

theorem Covered.mono {db db' : Database} {upTo : ℤ} (h : Covered recipient chain db upTo)
    (hext : Extends db db') : Covered recipient chain db' upTo := by
  obtain ⟨cursor, hc, hcov⟩ := h
  obtain ⟨cursor', hc', hstart, -⟩ := hext.cursor cursor hc
  refine ⟨cursor', hc', fun block hblock hlt t ht ↦ hext.recorded t ?_⟩
  exact hcov block (hstart ▸ hblock) hlt t ht

theorem Admitting.mono {db db' : Database} {number : ℕ} {rest : List IncomingTransfer}
    (h : Admitting recipient chain db number rest) (hext : Extends db db') :
    Admitting recipient chain db' number rest where
  below := h.below.mono hext
  split t ht := (h.split t ht).imp_left (hext.recorded t)
  carried := h.carried

theorem PcSound.mono {db db' : Database} {p : Pc} (h : PcSound recipient chain db p)
    (hext : Extends db db') : PcSound recipient chain db' p := by
  cases p with
  | idle => trivial
  | awaitingHead scanned => exact Covered.mono h hext
  | scanning number last => exact Covered.mono h hext
  | admitting number last rest => exact Admitting.mono h hext
  | settling number last arrival recorded rest => exact Admitting.mono h hext
  | noting number last arrival message rest => exact Admitting.mono h hext

/-- When the last arrival of a block is out of the watcher's hands, the block is
covered. -/
theorem Admitting.covered {db : Database} {number : ℕ}
    (h : Admitting recipient chain db number []) :
    Covered recipient chain db ((number : ℤ) + 1) := by
  obtain ⟨cursor, hc, hcov⟩ := h.below
  refine ⟨cursor, hc, fun block hblock hlt t ht ↦ ?_⟩
  rcases lt_or_eq_of_le (Int.lt_add_one_iff.mp hlt) with hlt | heq
  · exact hcov block hblock hlt t ht
  · rw [Int.ofNat_inj.mp heq] at ht
    exact (h.split t ht).resolve_right List.not_mem_nil

/-! ## The invariant -/

theorem sound_initial : Sound recipient chain Watch.initial where
  origin := by intro row hrow; cases hrow
  cursor := by intro cursor hc; cases hc
  pcs _ := trivial

/-- A watcher that only changes its place. -/
theorem Sound.at {s : Watch} (h : Sound recipient chain s) (w : ℕ) {p : Pc}
    (hp : PcSound recipient chain s.db p) : Sound recipient chain (s.at w p) where
  origin := h.origin
  cursor := h.cursor
  pcs w' := by
    show PcSound recipient chain s.db (Function.update s.pc w p w')
    by_cases hw : w' = w
    · rw [hw, Function.update_self]; exact hp
    · rw [Function.update_of_ne hw]; exact h.pcs w'

/-- A transaction that brings a transfer of the chain at most. -/
theorem Sound.evolved {s : Watch} (h : Sound recipient chain s) {db : Database}
    {new : Option IncomingTransfer} (hdb : Evolved new s.db db)
    (hnew : ∀ t, new = some t → chain.Carries t) :
    Sound recipient chain { s with db } where
  origin row hrow := by
    rcases hdb.1.origin row hrow with ⟨row', hrow', hs⟩ | ⟨t, ht, hs⟩
    · obtain ⟨t, ht, hs'⟩ := h.origin row' hrow'
      exact ⟨t, ht, hs.trans hs'⟩
    · exact ⟨t, hnew t ht, hs⟩
  cursor cursor hc := (h.cursor cursor (hdb.2 ▸ hc)).mono hdb.extends
  pcs w := (h.pcs w).mono hdb.extends

/-- A row under the reference of a transfer of the chain is that transfer's. -/
theorem Sound.recorded {s : Watch} (h : Sound recipient chain s) {t : IncomingTransfer}
    (ht : chain.Carries t) {row : ChainTransfer} (hrow : row ∈ s.db.transfers.rows)
    (hkey : row.extrinsicReference = t.reference) : SameFacts row t.row := by
  obtain ⟨t', ht', href, hsender, hamount⟩ := h.origin row hrow
  obtain ⟨hsender', hamount'⟩ := ht'.eq_of_reference ht (href.symm.trans hkey)
  exact ⟨hkey, hsender.trans hsender', hamount.trans hamount'⟩

theorem sound_record {s : Watch} (h : Sound recipient chain s) {arrival : IncomingTransfer}
    (harrival : chain.Carries arrival) {r : RecordedTransfer} {db : Database}
    (hrecord : recordArrival arrival s.db = .ok (r, db)) :
    Sound recipient chain { s with db } ∧ Recorded db arrival := by
  have hsound : Sound recipient chain { s with db } :=
    h.evolved (evolved_recordArrival hrecord) fun t ht ↦ Option.some.inj ht ▸ harrival
  obtain ⟨-, -, hmem, hkey⟩ := record_spec hrecord
  exact ⟨hsound, r.transfer, hmem, hsound.recorded harrival hmem hkey⟩

theorem extends_resolveCursor (settings : Settings) (startBlock : ℕ) (now : Instant)
    (db : Database) : Extends db (resolveCursor settings startBlock now db) := by
  unfold resolveCursor
  split
  · rename_i hnone
    exact ⟨fun _ ht ↦ ht, fun cursor hc ↦ by rw [hnone] at hc; cases hc⟩
  · exact .refl _

/-- A new cursor covers nothing yet. -/
theorem sound_resolveCursor {s : Watch} (h : Sound recipient chain s) (settings : Settings)
    (startBlock : ℕ) (now : Instant) :
    Sound recipient chain { s with db := resolveCursor settings startBlock now s.db } where
  origin row hrow := by
    have htransfers : (resolveCursor settings startBlock now s.db).transfers =
        s.db.transfers := by unfold resolveCursor; split <;> rfl
    exact h.origin row (htransfers ▸ hrow)
  cursor := by
    intro cursor hc
    show Covered recipient chain (resolveCursor settings startBlock now s.db) _
    cases hold : s.db.cursor with
    | some old =>
      have hsame : resolveCursor settings startBlock now s.db = s.db := by
        simp only [resolveCursor, hold]
      rw [hsame]
      exact h.cursor cursor (hsame ▸ hc)
    | none =>
      refine ⟨cursor, hc, fun block hblock hlt ↦ ?_⟩
      simp only [resolveCursor, hold, openCursor, Option.some.injEq] at hc
      subst hc
      have hge : startBlock ≤ block := hblock
      simp only [sub_add_cancel] at hlt
      omega
  pcs w := (h.pcs w).mono (extends_resolveCursor settings startBlock now s.db)

theorem advanceCursor_spec {db db' : Database} {number : ℕ} {now : Instant}
    (h : advanceCursor db number now = .ok db') :
    ∃ row, db.cursor = some row ∧ (db' = db ∨ (row.lastScannedBlock < number ∧
      db' = { db with
        cursor := some { row with lastScannedBlock := number, lastScannedAt := now } })) := by
  simp only [advanceCursor, bind_eq_ok, need_eq_ok] at h
  obtain ⟨row, hrow, h⟩ := h
  refine ⟨row, hrow, ?_⟩
  split at h
  · rename_i hlt
    cases h
    exact Or.inr ⟨hlt, rfl⟩
  · cases h
    exact Or.inl rfl

theorem extends_advanceCursor {db db' : Database} {number : ℕ} {now : Instant}
    (h : advanceCursor db number now = .ok db') : Extends db db' := by
  obtain ⟨row, hrow, rfl | ⟨hlt, hdb'⟩⟩ := advanceCursor_spec h
  · exact .refl _
  · rw [hdb']
    refine ⟨fun _ ht ↦ ht, fun cursor hc ↦ ⟨_, rfl, ?_, ?_⟩⟩
    · rw [hrow] at hc; cases hc; rfl
    · rw [hrow] at hc; cases hc; exact hlt.le

/-- The cursor moves to a block whose arrivals all have their rows. -/
theorem sound_advance {s : Watch} (h : Sound recipient chain s) {number : ℕ} {now : Instant}
    {db : Database} (hadmitted : Admitting recipient chain s.db number [])
    (hadvance : advanceCursor s.db number now = .ok db) :
    Sound recipient chain { s with db } := by
  have hext := extends_advanceCursor hadvance
  obtain ⟨row, hrow, rfl | ⟨hlt, rfl⟩⟩ := advanceCursor_spec hadvance
  · exact h
  · refine ⟨h.origin, fun cursor hc ↦ ?_, fun w ↦ (h.pcs w).mono hext⟩
    have hcursor := Option.some.inj hc
    subst hcursor
    exact hadmitted.covered.mono hext

/-! ## One action -/

theorem PcSound.scanning {db : Database} {cursor : ℤ} {first : ℕ}
    (h : PcSound recipient chain db (.awaitingHead cursor)) (hfirst : first = (cursor + 1).toNat)
    (last : ℕ) : PcSound recipient chain db (.scanning first last) := by
  obtain ⟨row, hc, hcov⟩ := h
  refine ⟨row, hc, fun block hblock hlt t ht ↦ hcov block hblock ?_ t ht⟩
  omega

theorem PcSound.admitting {db : Database} {number last : ℕ}
    (h : PcSound recipient chain db (.scanning number last)) :
    PcSound recipient chain db (.admitting number last (chain.transfersTo recipient number)) where
  below := h
  split _ ht := Or.inr ht
  carried _ ht := FinalizedChain.carries_of_mem_transfersInEvents ht

/-- The arrival just recorded leaves the watcher's hands. -/
theorem Admitting.recorded {db db' : Database} {number : ℕ} {arrival : IncomingTransfer}
    {rest : List IncomingTransfer} (h : Admitting recipient chain db number (arrival :: rest))
    (hext : Extends db db') (harrival : Recorded db' arrival) :
    Admitting recipient chain db' number rest where
  below := h.below.mono hext
  split t ht := by
    rcases h.split t ht with hrec | hmem
    · exact Or.inl (hext.recorded t hrec)
    · rcases List.mem_cons.mp hmem with rfl | hmem
      · exact Or.inl harrival
      · exact Or.inr hmem
  carried t ht := h.carried t (List.mem_cons_of_mem _ ht)

/-- What every move keeps, and that it takes nothing back. -/
theorem sound_move {settings : Settings} {s : Watch} (h : Sound settings.recipient chain s)
    (w : ℕ) (m : Move) : Sound settings.recipient chain (move settings chain s w m) ∧
      Extends s.db (move settings chain s w m).db := by
  have hpc := h.pcs w
  have hidle : Sound settings.recipient chain (s.at w .idle) ∧ Extends s.db (s.at w .idle).db :=
    ⟨h.at w trivial, .refl _⟩
  cases m with
  | crash => exact hidle
  | openCursor startBlock now =>
    exact ⟨sound_resolveCursor h settings startBlock now, extends_resolveCursor ..⟩
  | start =>
    dsimp only [move]
    split
    · rename_i cursor _ hc
      exact ⟨h.at w (h.cursor cursor hc), .refl _⟩
    · exact ⟨h, .refl _⟩
  | head reported =>
    dsimp only [move]
    split
    · exact hidle
    · rename_i scanned head hp
      rw [hp] at hpc
      split
      · exact hidle
      · exact ⟨h.at w (hpc.scanning rfl _), .refl _⟩
    · exact ⟨h, .refl _⟩
  | read answered =>
    dsimp only [move]
    split
    · rename_i number last hp
      rw [hp] at hpc
      split
      · exact hidle
      · split
        · exact ⟨h.at w hpc.admitting, .refl _⟩
        · exact hidle
    · exact ⟨h, .refl _⟩
  | record =>
    dsimp only [move]
    split
    · rename_i number last arrival rest hp
      rw [hp] at hpc
      split
      · rename_i r db hrecord
        have hcarried := hpc.carried arrival List.mem_cons_self
        obtain ⟨hsound, hrec⟩ := sound_record h hcarried hrecord
        have hext := (evolved_recordArrival hrecord).extends
        have hrest := Admitting.recorded hpc hext hrec
        show Sound settings.recipient chain (ite _ _ _) ∧ Extends s.db (ite _ _ _ : Watch).db
        split
        · exact ⟨hsound.at w hrest, hext⟩
        · exact ⟨hsound.at w hrest, hext⟩
      · exact hidle
    · exact ⟨h, .refl _⟩
  | settle env =>
    dsimp only [move]
    split
    · rename_i number last arrival recorded rest hp
      rw [hp] at hpc
      split
      · rename_i admitted db hsettle
        have hevolved := evolved_settle hsettle
        exact ⟨(h.evolved hevolved (by simp)).at w (Admitting.mono hpc hevolved.extends),
          hevolved.extends⟩
      · split
        · exact ⟨h.at w hpc, .refl _⟩
        · exact hidle
    · exact ⟨h, .refl _⟩
  | note =>
    dsimp only [move]
    split
    · rename_i number last arrival message rest hp
      rw [hp] at hpc
      split
      · rename_i db hnote
        have hevolved := evolved_noteConflict hnote
        exact ⟨(h.evolved hevolved (by simp)).at w (Admitting.mono hpc hevolved.extends),
          hevolved.extends⟩
      · exact hidle
    · exact ⟨h, .refl _⟩
  | advance now =>
    dsimp only [move]
    split
    · rename_i number last hp
      rw [hp] at hpc
      split
      · rename_i db hadvance
        have hext := extends_advanceCursor hadvance
        have hnext : Covered settings.recipient chain s.db ((number + 1 : ℕ) : ℤ) := by
          push_cast
          exact hpc.covered
        exact ⟨(sound_advance h hpc hadvance).at w (hnext.mono hext), hext⟩
      · exact hidle
    · exact ⟨h, .refl _⟩

theorem sound_watchStep (c : Deployment) {s : Watch} (h : Sound c.watcher.recipient chain s)
    (a : Action) : Sound c.watcher.recipient chain (watchStep c chain s a) ∧
      Extends s.db (watchStep c chain s a).db := by
  cases a with
  | watcher w m => exact sound_move h w m
  | submit request block index id =>
    dsimp only [watchStep]
    split
    · rename_i transfer hcited
      have hcarried : chain.Carries transfer :=
        FinalizedChain.carries_of_mem_transfersInEvents (List.mem_of_getElem? hcited)
      have hevolved := evolved_step c s.db (.submit request transfer id)
      exact ⟨h.evolved hevolved fun t ht ↦ Option.some.inj ht ▸ hcarried, hevolved.extends⟩
    · exact ⟨h, .refl _⟩
  | client a =>
    dsimp only [watchStep]
    split
    · rename_i hbrings
      have hevolved := evolved_step c s.db a
      exact ⟨h.evolved hevolved (by rw [hbrings]; simp), hevolved.extends⟩
    · exact ⟨h, .refl _⟩

end Sound

/-! ## Whole runs -/

/-- The event at `position` of `block` is a payment to the recipient. -/
def PaysAt (chain : FinalizedChain) (recipient : Ss58) (block position : ℕ) (r : EventRecord) :
    Prop :=
  (chain block).events[position]? = some r ∧ (r.moduleId, r.eventId) = transferEvent ∧
    r.recipient = recipient ∧ 0 < r.amount

/-- A payment is among the transfers the watcher reads from its block, under the
reference of its position. -/
theorem PaysAt.mem_transfersTo {chain : FinalizedChain} {recipient : Ss58}
    {block position : ℕ} {r : EventRecord} (h : PaysAt chain recipient block position r) :
    ∃ t ∈ chain.transfersTo recipient block,
      t.reference = s!"{block}-{r.extrinsicIdx.getD 0}-{position}" ∧ t.sender = r.sender ∧
        t.amountRao = r.amount := by
  obtain ⟨hr, hevent, hrecipient, hamount⟩ := h
  obtain ⟨t, ht⟩ := EventRecord.exists_transfer? hevent hrecipient hamount block
    (chain block).timestamp position
  obtain ⟨hblock, hindex, hextrinsic, hfacts⟩ := EventRecord.transfer?_eq_some ht
  refine ⟨t, mem_transfersInEvents.mpr ⟨r, position, hr, ht⟩, ?_, hfacts⟩
  rw [IncomingTransfer.reference, hblock, hindex, hextrinsic]

/-- In every run, every payment to the recipient in a block the cursor has passed has
exactly one row, with its reference, its sender and its amount; and the cursor, once
there, does not go back. -/
theorem no_arrival_is_lost (c : Deployment) (chain : FinalizedChain) (actions : List Action)
    (cursor : ChainWatchCursor)
    (hcursor : (run (watchStep c chain) Watch.initial actions).db.cursor = some cursor) :
    (∀ block position r, cursor.startBlock ≤ block → (block : ℤ) ≤ cursor.lastScannedBlock →
      PaysAt chain c.watcher.recipient block position r →
      ∃ row : ChainTransfer,
        (run (watchStep c chain) Watch.initial actions).db.transfers.rows.filter
          (fun t ↦ t.extrinsicReference = s!"{block}-{r.extrinsicIdx.getD 0}-{position}")
            = [row] ∧ row.senderColdkey = r.sender ∧ row.amountRao = r.amount) ∧
    ∀ more, ∃ cursor', (run (watchStep c chain) Watch.initial (actions ++ more)).db.cursor
      = some cursor' ∧ cursor.lastScannedBlock ≤ cursor'.lastScannedBlock := by
  have hstep : ∀ s a, Sound c.watcher.recipient chain s →
      Sound c.watcher.recipient chain (watchStep c chain s a) := fun _ a h ↦
    (sound_watchStep c h a).1
  have hsound := run_invariant hstep sound_initial actions
  constructor
  · intro block position r hstart hlast hpays
    obtain ⟨t, ht, href, hsender, hamount⟩ := hpays.mem_transfersTo
    obtain ⟨cursor', hc', hcov⟩ := hsound.cursor cursor hcursor
    rw [hcursor] at hc'
    cases hc'
    obtain ⟨row, hrow, hkey, hs, ha⟩ :=
      hcov block hstart (Int.lt_add_one_of_le hlast) t ht
    refine ⟨row, ?_, hs.trans hsender, ha.trans hamount⟩
    rw [← href, ← show row.extrinsicReference = t.reference from hkey]
    exact Table.filter_key _ hrow
  · intro more
    have hforward : ∀ s a, Sound c.watcher.recipient chain s →
        Extends s.db (watchStep c chain s a).db := fun _ a h ↦ (sound_watchStep c h a).2
    have hext := @run_preorder _ _ (watchStep c chain) _ (fun s s' ↦ Extends s.db s'.db)
      (fun s ↦ .refl s.db) (fun _ _ _ ↦ Extends.trans) hstep hforward _ hsound more
    rw [run_append]
    obtain ⟨cursor', hc', -, hle⟩ := hext.cursor cursor hcursor
    exact ⟨cursor', hc', hle⟩

/-- The miner's payment, as an event. -/
def examplePayment : EventRecord := ⟨"Balances", "Transfer", some 2, "miner", "treasury", 5⟩

/-- A chain on which the miner pays in block 7 and nobody pays anywhere else. -/
def exampleChain : FinalizedChain := fun block ↦ ⟨0, if block = 7 then [examplePayment] else []⟩

/-- One pass over block 7. -/
def exampleActions : List Action :=
  [.openCursor 7 0, .start, .head (some 7), .read true, .record, .settle ⟨10, 0, []⟩,
    .advance 0].map (.watcher 0)

/-- The payment of block 7 has its row once the cursor has passed the block. -/
theorem payment_in_block_seven_is_recorded :
    ∃ row : ChainTransfer,
      (run (watchStep exampleDeployment exampleChain) Watch.initial
        exampleActions).db.transfers.rows.filter (fun t ↦ t.extrinsicReference =
          s!"{7}-{examplePayment.extrinsicIdx.getD 0}-{0}") = [row] ∧
      row.senderColdkey = examplePayment.sender ∧ row.amountRao = examplePayment.amount := by
  have hcursor : (run (watchStep exampleDeployment exampleChain) Watch.initial
      exampleActions).db.cursor = some ⟨"treasury", 7, 7, 0⟩ := by decide +kernel
  have hpays : PaysAt exampleChain exampleDeployment.watcher.recipient 7 0 examplePayment :=
    ⟨rfl, rfl, rfl, by decide⟩
  exact (no_arrival_is_lost exampleDeployment exampleChain exampleActions _ hcursor).1 7 0
    examplePayment le_rfl le_rfl hpays

end Conjectures.DepositWatcher

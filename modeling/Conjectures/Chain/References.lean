import Conjectures.Lib.Decimals
import Conjectures.Lib.Transaction
import Conjectures.Chain.Transfers
import Conjectures.Db.Instructions

/-!
# Spellings of a transfer

A payment reference is `block-extrinsic` or `block-extrinsic-event`, in digits of any script and
with any leading zeros. `parse_reference` and `finalized_transfer` of
`conjectures_subnet/transfers.py` and the reader of `submission_api/chain_payments.py` turn it
into the one spelling that is stored.
-/

namespace Conjectures.Chain

open Lib Db

/-- A parsed `block-extrinsic[-event]`. -/
structure TransferReference where
  block : ℕ
  extrinsicIndex : ℕ
  eventIndex : Option ℕ
  deriving DecidableEq

/-- `__str__`. -/
def TransferReference.text (r : TransferReference) : String :=
  match r.eventIndex with
  | none => s!"{r.block}-{r.extrinsicIndex}"
  | some eventIndex => s!"{r.block}-{r.extrinsicIndex}-{eventIndex}"

/-- The rest of a text after the dash it starts with. -/
def dash? : List Char → Option (List Char)
  | '-' :: text => some text
  | _ => none

/-- `REFERENCE.fullmatch` of the stripped text, and the numbers its groups spell. -/
def parseReference (u : Decimals) (raw : String) : Option TransferReference := do
  let (block, text) ← u.run? 12 (strip raw).toList
  let text ← dash? text
  let (extrinsicIndex, text) ← u.run? 6 text
  if text = [] then return ⟨block, extrinsicIndex, none⟩
  let text ← dash? text
  let (eventIndex, text) ← u.run? 6 text
  if text = [] then return ⟨block, extrinsicIndex, some eventIndex⟩
  none

/-- The reference names an extrinsic that emitted more than one transfer. -/
structure AmbiguousReference where
  message : String
  deriving DecidableEq

/-- The transfers of the extrinsic a reference names. -/
def inExtrinsic (chain : FinalizedChain) (reference : TransferReference) : List IncomingTransfer :=
  (chain.transfersIn reference.block).filter (·.extrinsicIndex = reference.extrinsicIndex)

/-- Resolve one reference to the transfer it names, or none if there is no such finalized one. -/
def finalizedTransfer (chain : FinalizedChain) (head : ℕ) (reference : TransferReference) :
    Except AmbiguousReference (Option IncomingTransfer) :=
  if head < reference.block then .ok none
  else
    let found := inExtrinsic chain reference
    if found = [] then .ok none
    else match reference.eventIndex with
    | some eventIndex => .ok (found.find? (·.eventIndex = eventIndex))
    | none =>
      if 1 < found.length then
        .error ⟨s!"extrinsic {reference.text} emitted {found.length} transfers; "
          ++ "name the event index as well, e.g. "
          ++ ", ".intercalate (found.map (·.reference))⟩
      else .ok found.head?

/-- `FinalizedTransfer`: what the payment verifier is told. -/
structure FinalizedTransfer where
  /-- canonical, `block-extrinsic-event` -/
  reference : String
  sender : Ss58
  recipient : Ss58
  amountRao : Rao
  block : ℕ
  blockTimestamp : Instant
  deriving DecidableEq

def finalized (t : IncomingTransfer) : FinalizedTransfer :=
  ⟨t.reference, t.sender, t.recipient, t.amountRao, t.block, t.blockTimestamp⟩

/-- `SubtensorTransferReader.finalized_transfer`. -/
def readFinalizedTransfer (u : Decimals) (chain : FinalizedChain) (head : ℕ) (reference : String) :
    Except AmbiguousReference (Option FinalizedTransfer) :=
  match parseReference u reference with
  | none => .ok none
  | some parsed => (finalizedTransfer chain head parsed).map (·.map finalized)

/-! ## What a reference denotes -/

/-- The reference's parts are the transfer's. -/
structure TransferReference.Names (r : TransferReference) (t : IncomingTransfer) : Prop where
  block : t.block = r.block
  extrinsic : t.extrinsicIndex = r.extrinsicIndex
  event : ∀ eventIndex ∈ r.eventIndex, t.eventIndex = eventIndex

/-- The text spells a reference to a transfer on the chain. -/
def Denotes (u : Decimals) (chain : FinalizedChain) (raw : String) (t : IncomingTransfer) : Prop :=
  ∃ r, parseReference u raw = some r ∧ r.Names t ∧ t ∈ chain.transfersIn r.block

section Resolve

variable {chain : FinalizedChain} {block head : ℕ} {t t' : IncomingTransfer}

theorem block_of_mem_transfersIn (h : t ∈ chain.transfersIn block) : t.block = block := by
  obtain ⟨r, position, -, ht⟩ := mem_transfersInEvents.mp h
  exact (EventRecord.transfer?_eq_some ht).1

/-- A block's transfers are told apart by their positions. -/
theorem eq_of_mem_transfersIn (h : t ∈ chain.transfersIn block) (h' : t' ∈ chain.transfersIn block)
    (heq : t.eventIndex = t'.eventIndex) : t = t' := by
  obtain ⟨r, position, hr, ht⟩ := mem_transfersInEvents.mp h
  obtain ⟨r', position', hr', ht'⟩ := mem_transfersInEvents.mp h'
  obtain rfl : t.eventIndex = position := (EventRecord.transfer?_eq_some ht).2.1
  obtain rfl : t'.eventIndex = position' := (EventRecord.transfer?_eq_some ht').2.1
  rw [heq, hr'] at hr
  cases hr
  rw [heq, ht'] at ht
  cases ht
  rfl

theorem mem_inExtrinsic {r : TransferReference} : t ∈ inExtrinsic chain r ↔
    t ∈ chain.transfersIn r.block ∧ t.extrinsicIndex = r.extrinsicIndex := by
  simp only [inExtrinsic, List.mem_filter, decide_eq_true_eq]

/-- What is resolved is the one transfer the reference names. -/
theorem finalizedTransfer_eq_some {r : TransferReference}
    (h : finalizedTransfer chain head r = .ok (some t)) :
    r.block ≤ head ∧ t ∈ chain.transfersIn r.block ∧ r.Names t ∧
      ∀ s ∈ chain.transfersIn r.block, r.Names s → s = t := by
  unfold finalizedTransfer at h
  split at h
  · cases h
  rename_i hhead
  dsimp only at h
  split at h
  · cases h
  refine ⟨not_lt.mp hhead, ?_⟩
  cases hevent : r.eventIndex with
  | some eventIndex =>
    rw [hevent] at h
    have hfind := Except.ok.inj h
    obtain ⟨hmem, hextrinsic⟩ := mem_inExtrinsic.mp (List.mem_of_find?_eq_some hfind)
    have hindex : t.eventIndex = eventIndex := by simpa using List.find?_some hfind
    refine ⟨hmem, ⟨block_of_mem_transfersIn hmem, hextrinsic, ?_⟩, ?_⟩
    · intro e he
      rw [hevent] at he
      cases he
      exact hindex
    · intro s hs hnames
      exact eq_of_mem_transfersIn hs hmem ((hnames.event eventIndex hevent).trans hindex.symm)
  | none =>
    rw [hevent] at h
    dsimp only at h
    split at h
    · cases h
    · rename_i hlength
      have hsingle : inExtrinsic chain r = [t] := by
        have hfirst := Except.ok.inj h
        match hfound : inExtrinsic chain r with
        | [] => rw [hfound] at hfirst; cases hfirst
        | [t'] => rw [hfound] at hfirst; cases hfirst; rfl
        | _ :: _ :: rest => simp [hfound] at hlength
      obtain ⟨hmem, hextrinsic⟩ := mem_inExtrinsic.mp (hsingle ▸ List.mem_singleton_self t)
      refine ⟨hmem, ⟨block_of_mem_transfersIn hmem, hextrinsic, ?_⟩, ?_⟩
      · intro e he
        rw [hevent] at he
        cases he
      · intro s hs hnames
        have hin := mem_inExtrinsic.mpr ⟨hs, hnames.extrinsic⟩
        exact List.mem_singleton.mp (hsingle ▸ hin)

/-- A full reference to a transfer of a finalized block resolves to it. -/
theorem finalizedTransfer_of_mem (hhead : t.block ≤ head) (h : t ∈ chain.transfersIn t.block) :
    finalizedTransfer chain head ⟨t.block, t.extrinsicIndex, some t.eventIndex⟩ =
      .ok (some t) := by
  have hmem : t ∈ inExtrinsic chain ⟨t.block, t.extrinsicIndex, some t.eventIndex⟩ :=
    mem_inExtrinsic.mpr ⟨h, rfl⟩
  rw [finalizedTransfer, if_neg (not_lt.mpr hhead)]
  dsimp only
  rw [if_neg (List.ne_nil_of_mem hmem)]
  refine congrArg Except.ok ?_
  cases hfind : (inExtrinsic chain ⟨t.block, t.extrinsicIndex, some t.eventIndex⟩).find?
      (·.eventIndex = t.eventIndex) with
  | none => exact absurd (decide_eq_true rfl) (List.find?_eq_none.mp hfind t hmem)
  | some s =>
    have hindex : s.eventIndex = t.eventIndex := by simpa using List.find?_some hfind
    have hs := (mem_inExtrinsic.mp (List.mem_of_find?_eq_some hfind)).1
    rw [eq_of_mem_transfersIn hs h hindex]

/-- A reference to an extrinsic that emitted two transfers resolves to neither. -/
theorem finalizedTransfer_ambiguous {r : TransferReference} (hevent : r.eventIndex = none)
    (ht : t ∈ inExtrinsic chain r) (ht' : t' ∈ inExtrinsic chain r) (hne : t ≠ t')
    (hhead : r.block ≤ head) : ∃ message, finalizedTransfer chain head r = .error ⟨message⟩ := by
  have hlength : 1 < (inExtrinsic chain r).length := by
    match hfound : inExtrinsic chain r with
    | [] => rw [hfound] at ht; cases ht
    | [s] =>
      rw [hfound] at ht ht'
      exact absurd ((List.mem_singleton.mp ht).trans (List.mem_singleton.mp ht').symm) hne
    | _ :: _ :: rest => simp
  rw [finalizedTransfer, if_neg (not_lt.mpr hhead)]
  dsimp only
  rw [if_neg (List.ne_nil_of_mem ht), hevent]
  dsimp only
  rw [if_pos hlength]
  exact ⟨_, rfl⟩

end Resolve

/-! ## The canonical spelling -/

/-- A canonical reference has nothing to strip. -/
theorem strip_reference (t : IncomingTransfer) : strip t.reference = t.reference := by
  refine strip_eq_self fun c hc ↦ ?_
  have hlist : t.reference.toList = _ := toList_position t.block t.extrinsicIndex t.eventIndex
  rw [hlist] at hc
  have hdigit : ∀ n, c ∈ Nat.toDigits 10 n → ¬ IsSpace c := fun n hn ↦
    not_isSpace_of_isDigit (Nat.isDigit_of_mem_toDigits (by decide) (by decide) hn)
  simp only [List.mem_append, List.mem_cons] at hc
  obtain hc | rfl | hc | rfl | hc := hc
  · exact hdigit _ hc
  · decide
  · exact hdigit _ hc
  · decide
  · exact hdigit _ hc

variable {u : Decimals}

theorem value_dash : u.value '-' = none := u.ascii (by decide)

/-- A parsed reference is as short as its pattern allows. -/
theorem parseReference_bounds {raw : String} {r : TransferReference}
    (h : parseReference u raw = some r) : r.block < 10 ^ 12 ∧ r.extrinsicIndex < 10 ^ 6 := by
  simp only [parseReference, Option.bind_eq_bind, Option.bind_eq_some_iff] at h
  obtain ⟨⟨block, text⟩, hblock, text', -, ⟨extrinsicIndex, text''⟩, hextrinsic, h⟩ := h
  have hbounds := And.intro (Decimals.lt_of_run? hblock) (Decimals.lt_of_run? hextrinsic)
  split at h
  · cases h
    exact hbounds
  · simp only [Option.bind_eq_some_iff] at h
    obtain ⟨text₃, -, ⟨eventIndex, text₄⟩, -, h⟩ := h
    split at h
    · cases h
      exact hbounds
    · cases h

/-- The canonical spelling is read back exactly where its event index has no more digits than the
pattern has room for. -/
theorem parseReference_reference {t : IncomingTransfer} (hblock : t.block < 10 ^ 12)
    (hextrinsic : t.extrinsicIndex < 10 ^ 6) :
    parseReference u t.reference =
      if t.eventIndex < 10 ^ 6 then some ⟨t.block, t.extrinsicIndex, some t.eventIndex⟩
      else none := by
  have hlist : t.reference.toList = _ := toList_position t.block t.extrinsicIndex t.eventIndex
  have hend : Nat.toDigits 10 t.eventIndex = Nat.toDigits 10 t.eventIndex ++ [] :=
    (List.append_nil _).symm
  have hdash : ∀ rest : List Char, ∀ c ∈ ('-' :: rest).head?, u.value c = none := by
    intro rest c hc
    cases hc
    exact value_dash
  rw [parseReference, strip_reference, hlist,
    Decimals.run?_toDigits (by decide) hblock (hdash _)]
  simp only [Option.bind_eq_bind, Option.bind_some, dash?]
  rw [Decimals.run?_toDigits (by decide) hextrinsic (hdash _)]
  simp only [Option.bind_some, List.cons_ne_nil, if_false]
  rw [hend]
  split
  · rename_i hevent
    rw [Decimals.run?_toDigits (by decide) hevent (by simp)]
    rfl
  · rename_i hevent
    rw [Decimals.run?_toDigits_eq_none (by decide) hevent (by simp)]
    rfl

/-! ## Every spelling settles as one -/

theorem readFinalizedTransfer_eq_some {chain : FinalizedChain} {head : ℕ} {raw : String}
    {f : FinalizedTransfer} (h : readFinalizedTransfer u chain head raw = .ok (some f)) :
    ∃ r t, parseReference u raw = some r ∧ finalizedTransfer chain head r = .ok (some t) ∧
      f = finalized t := by
  unfold readFinalizedTransfer at h
  split at h
  · cases h
  · rename_i r hr
    obtain ⟨found, hfound, hmap⟩ := map_eq_ok.mp h
    obtain ⟨t, rfl, rfl⟩ := Option.map_eq_some_iff.mp hmap
    exact ⟨r, t, hr, hfound, rfl⟩

/-- A resolved text denotes one transfer, the one it is resolved to. -/
theorem readFinalizedTransfer_denotes {chain : FinalizedChain} {head : ℕ} {raw : String}
    {f : FinalizedTransfer} (h : readFinalizedTransfer u chain head raw = .ok (some f)) :
    ∃ t, (∀ s, Denotes u chain raw s ↔ s = t) ∧ f = finalized t ∧ t.block ≤ head ∧
      t.block < 10 ^ 12 ∧ t.extrinsicIndex < 10 ^ 6 ∧ t ∈ chain.transfersIn t.block := by
  obtain ⟨r, t, hr, ht, rfl⟩ := readFinalizedTransfer_eq_some h
  obtain ⟨hhead, hmem, hnames, hunique⟩ := finalizedTransfer_eq_some ht
  obtain ⟨hblock, hextrinsic⟩ := parseReference_bounds hr
  refine ⟨t, fun s ↦ ⟨?_, ?_⟩, rfl, hnames.block ▸ hhead, hnames.block ▸ hblock,
    hnames.extrinsic ▸ hextrinsic, hnames.block ▸ hmem⟩
  · rintro ⟨r', hr', hs, hsmem⟩
    rw [hr] at hr'
    cases hr'
    exact hunique s hsmem hs
  · rintro rfl
    exact ⟨r, hr, hnames, hmem⟩

/-- **Every spelling of a transfer settles as one.** Two resolved references get one canonical
spelling exactly where they denote one event; the canonical spelling parses and resolves back to
itself exactly where the event's index has at most six digits; and a two-part reference that
denotes two transfers is refused. -/
theorem readFinalizedTransfer_canonical (u : Decimals) (chain : FinalizedChain) :
    (∀ head head' raw raw' f f', readFinalizedTransfer u chain head raw = .ok (some f) →
      readFinalizedTransfer u chain head' raw' = .ok (some f') →
      ∃ t t', (∀ s, Denotes u chain raw s ↔ s = t) ∧ (∀ s, Denotes u chain raw' s ↔ s = t') ∧
        f = finalized t ∧ f' = finalized t' ∧
        (f.reference = f'.reference ↔ t.block = t'.block ∧ t.eventIndex = t'.eventIndex)) ∧
    (∀ head raw f, readFinalizedTransfer u chain head raw = .ok (some f) →
      ∀ t, Denotes u chain raw t →
      (parseReference u f.reference = none ↔ 10 ^ 6 ≤ t.eventIndex) ∧
      (t.eventIndex < 10 ^ 6 →
        (∃ r, parseReference u f.reference = some r ∧ r.Names t ∧ r.text = f.reference) ∧
        readFinalizedTransfer u chain head f.reference = .ok (some f))) ∧
    (∀ head raw r, parseReference u raw = some r → r.eventIndex = none →
      ∀ t t', Denotes u chain raw t → Denotes u chain raw t' → t ≠ t' →
      (∀ f, readFinalizedTransfer u chain head raw ≠ .ok (some f)) ∧
      (r.block ≤ head → ∃ message, readFinalizedTransfer u chain head raw = .error ⟨message⟩)) := by
  refine ⟨fun head head' raw raw' f f' h h' ↦ ?_, fun head raw f h t ht ↦ ?_,
    fun head raw r hr hevent t t' ht ht' hne ↦ ?_⟩
  · obtain ⟨t, hdenotes, rfl, -, -, -, hmem⟩ := readFinalizedTransfer_denotes h
    obtain ⟨t', hdenotes', rfl, -, -, -, hmem'⟩ := readFinalizedTransfer_denotes h'
    refine ⟨t, t', hdenotes, hdenotes', rfl, rfl, fun heq ↦ ?_, fun ⟨hblock, hindex⟩ ↦ ?_⟩
    · obtain ⟨hblock, -, hindex⟩ := reference_injective heq
      exact ⟨hblock, hindex⟩
    · rw [← hblock] at hmem'
      rw [eq_of_mem_transfersIn hmem hmem' hindex]
  · obtain ⟨s, hdenotes, rfl, hhead, hblock, hextrinsic, hmem⟩ := readFinalizedTransfer_denotes h
    obtain rfl := (hdenotes t).mp ht
    have hparse := parseReference_reference (u := u) hblock hextrinsic
    refine ⟨?_, fun hsmall ↦ ?_⟩
    · change parseReference u t.reference = none ↔ _
      rw [hparse]
      split
      · rename_i hsmall
        exact ⟨fun h ↦ (nomatch h), fun hlarge ↦ absurd hsmall (not_lt.mpr hlarge)⟩
      · rename_i hlarge
        exact ⟨fun _ ↦ not_lt.mp hlarge, fun _ ↦ rfl⟩
    · rw [if_pos hsmall] at hparse
      refine ⟨⟨_, hparse, ⟨rfl, rfl, ?_⟩, rfl⟩, ?_⟩
      · intro eventIndex heq
        cases heq
        rfl
      · change readFinalizedTransfer u chain head t.reference = _
        unfold readFinalizedTransfer
        rw [hparse]
        dsimp only
        rw [finalizedTransfer_of_mem hhead hmem]
        rfl
  · obtain ⟨_, hr₁, hnames, hmem⟩ := ht
    obtain ⟨_, hr₂, hnames', hmem'⟩ := ht'
    rw [hr] at hr₁ hr₂
    cases hr₁
    cases hr₂
    refine ⟨fun f h ↦ ?_, fun hhead ↦ ?_⟩
    · obtain ⟨s, hdenotes, -⟩ := readFinalizedTransfer_denotes h
      have hs := (hdenotes t).mp ⟨r, hr, hnames, hmem⟩
      have hs' := (hdenotes t').mp ⟨r, hr, hnames', hmem'⟩
      exact hne (hs.trans hs'.symm)
    · obtain ⟨message, hmessage⟩ := finalizedTransfer_ambiguous hevent
        (mem_inExtrinsic.mpr ⟨hmem, hnames.extrinsic⟩)
        (mem_inExtrinsic.mpr ⟨hmem', hnames'.extrinsic⟩) hne hhead
      refine ⟨message, ?_⟩
      unfold readFinalizedTransfer
      rw [hr]
      dsimp only
      rw [hmessage]
      rfl

/-- A block with one transfer, in its extrinsic 13, after a fee event. -/
def paidChain : FinalizedChain := fun _ ↦
  ⟨0, [⟨"TransactionPayment", "TransactionFeePaid", some 13, "", "", 0⟩,
    ⟨"Balances", "Transfer", some 13, "solver", "treasury", 500⟩]⟩

/-- An explorer's spelling and one in Arabic digits settle as one. -/
theorem readFinalizedTransfer_canonical_spellings :
    ∃ f, readFinalizedTransfer unicodeDecimals paidChain 9 " 007-13 " = .ok (some f) ∧
      readFinalizedTransfer unicodeDecimals paidChain 9 "٧-١٣-١" = .ok (some f) ∧
      f.reference = "7-13-1" ∧
      ∃ t t', Denotes unicodeDecimals paidChain " 007-13 " t ∧
        Denotes unicodeDecimals paidChain "٧-١٣-١" t' ∧
        t.block = t'.block ∧ t.eventIndex = t'.eventIndex := by
  let f : FinalizedTransfer := ⟨"7-13-1", "solver", "treasury", 500, 7, 0⟩
  have h : readFinalizedTransfer unicodeDecimals paidChain 9 " 007-13 " = .ok (some f) := by
    decide +kernel
  have h' : readFinalizedTransfer unicodeDecimals paidChain 9 "٧-١٣-١" = .ok (some f) := by
    decide +kernel
  obtain ⟨t, t', hdenotes, hdenotes', -, -, heq⟩ :=
    (readFinalizedTransfer_canonical unicodeDecimals paidChain).1 _ _ _ _ f f h h'
  exact ⟨f, h, h', rfl, t, t', (hdenotes t).mpr rfl, (hdenotes' t').mpr rfl, heq.mp rfl⟩

/-- A block whose one transfer stands after a million other events. -/
def crowdedChain : FinalizedChain := fun _ ↦
  ⟨0, List.replicate 1000000 ⟨"System", "ExtrinsicSuccess", some 0, "", "", 0⟩ ++
    [⟨"Balances", "Transfer", some 13, "solver", "treasury", 500⟩]⟩

theorem transfersIn_crowdedChain : crowdedChain.transfersIn 7 =
    [⟨7, 0, 13, 1000000, "solver", "treasury", 500⟩] := by
  rw [FinalizedChain.transfersIn, transfersInEvents, crowdedChain, List.zipIdx_append,
    List.filterMap_append]
  rw [List.filterMap_eq_nil_iff (l := (List.replicate 1000000
    (⟨"System", "ExtrinsicSuccess", some 0, "", "", 0⟩ : EventRecord)).zipIdx).mpr, List.nil_append,
    List.length_replicate]
  · rfl
  · rintro ⟨r, position⟩ hr
    obtain rfl : r = _ := List.eq_of_mem_replicate (List.fst_mem_of_mem_zipIdx hr)
    rfl

/-- Its two-part reference is resolved to a spelling that is no reference. -/
theorem readFinalizedTransfer_crowded :
    ∃ f, readFinalizedTransfer unicodeDecimals crowdedChain 7 "7-13" = .ok (some f) ∧
      parseReference unicodeDecimals f.reference = none := by
  have hparse : parseReference unicodeDecimals "7-13" = some ⟨7, 13, none⟩ := by decide +kernel
  refine ⟨⟨"7-13-1000000", "solver", "treasury", 500, 7, 0⟩, ?_, by decide +kernel⟩
  unfold readFinalizedTransfer
  rw [hparse]
  dsimp only
  rw [finalizedTransfer, inExtrinsic, transfersIn_crowdedChain]
  decide +kernel

end Conjectures.Chain

import Std.Data.String.ToNat
import Conjectures.Db.Transfers

/-!
# Reading transfers off a block

`transfers_in_events` of `conjectures_subnet/transfers.py`: which events of a block
are transfers, and what each one is called.  A transfer's name is its position, so
two transfers on one chain never share one (`reference_injective`); that is what
lets the database's unique index stand for the transfer itself.

Attributes are modelled decoded: an address is the text `decode_ss58` returns.
-/

namespace Conjectures.Chain

open Db

/-- One event of a block. -/
structure EventRecord where
  moduleId : String
  eventId : String
  /-- absent on events of a block's initialisation or finalisation phase -/
  extrinsicIdx : Option ℕ
  sender : Ss58
  recipient : Ss58
  amount : ℤ
  deriving DecidableEq

/-- A block: its own time, and its events in order. -/
structure Block where
  timestamp : Instant
  events : List EventRecord

/-- `TRANSFER_EVENT`. -/
def transferEvent : String × String := ("Balances", "Transfer")

/-- The transfer an event is, if it is one the caller wants: to the recipient, where
one is given, and of a positive amount. -/
def EventRecord.transfer? (r : EventRecord) (recipient : Option Ss58) (block : ℕ)
    (timestamp : Instant) (position : ℕ) : Option IncomingTransfer :=
  if (r.moduleId, r.eventId) ≠ transferEvent then none
  else if recipient.isSome ∧ recipient ≠ some r.recipient then none
  else if r.amount ≤ 0 then none
  else some
    { block
      blockTimestamp := timestamp
      extrinsicIndex := r.extrinsicIdx.getD 0
      eventIndex := position
      sender := r.sender
      recipient := r.recipient
      amountRao := r.amount }

/-- Transfers among one block's events, optionally filtered by recipient. -/
def transfersInEvents (events : List EventRecord) (recipient : Option Ss58) (block : ℕ)
    (timestamp : Instant) : List IncomingTransfer :=
  events.zipIdx.filterMap fun (r, position) ↦ r.transfer? recipient block timestamp position

theorem mem_transfersInEvents {events : List EventRecord} {recipient : Option Ss58} {block : ℕ}
    {timestamp : Instant} {t : IncomingTransfer} :
    t ∈ transfersInEvents events recipient block timestamp ↔
      ∃ (r : EventRecord) (position : ℕ), events[position]? = some r ∧
        r.transfer? recipient block timestamp position = some t := by
  simp only [transfersInEvents, List.mem_filterMap, Prod.exists, List.mem_zipIdx_iff_getElem?]

/-- What a transfer says about the event it was read from. -/
theorem EventRecord.transfer?_eq_some {r : EventRecord} {recipient : Option Ss58} {block : ℕ}
    {timestamp : Instant} {position : ℕ} {t : IncomingTransfer}
    (h : r.transfer? recipient block timestamp position = some t) :
    t.block = block ∧ t.eventIndex = position ∧ t.extrinsicIndex = r.extrinsicIdx.getD 0 ∧
      t.sender = r.sender ∧ t.amountRao = r.amount := by
  unfold EventRecord.transfer? at h
  split at h
  · cases h
  split at h
  · cases h
  split at h
  · cases h
  cases h
  exact ⟨rfl, rfl, rfl, rfl, rfl⟩

/-- A payment of a positive amount to the recipient is a transfer the caller wants. -/
theorem EventRecord.exists_transfer? {r : EventRecord} {recipient : Ss58}
    (hevent : (r.moduleId, r.eventId) = transferEvent) (hrecipient : r.recipient = recipient)
    (hamount : 0 < r.amount) (block : ℕ) (timestamp : Instant) (position : ℕ) :
    ∃ t, r.transfer? (some recipient) block timestamp position = some t := by
  unfold EventRecord.transfer?
  rw [if_neg (not_not.mpr hevent), if_neg (by simp [hrecipient]), if_neg (not_le.mpr hamount)]
  exact ⟨_, rfl⟩

/-! ## Names -/

/-- Two texts that agree up to and past their first separator agree on both sides of
it. -/
theorem append_cons_inj {α : Type*} {c : α} {l l' r r' : List α} (hl : c ∉ l) (hl' : c ∉ l')
    (h : l ++ c :: r = l' ++ c :: r') : l = l' ∧ r = r' := by
  induction l generalizing l' with
  | nil =>
    cases l' with
    | nil => exact ⟨rfl, List.tail_eq_of_cons_eq h⟩
    | cons a l' =>
      have ha : c = a := List.head_eq_of_cons_eq h
      exact absurd (ha ▸ List.mem_cons_self) hl'
  | cons a l ih =>
    cases l' with
    | nil =>
      have ha : a = c := List.head_eq_of_cons_eq h
      exact absurd (ha ▸ List.mem_cons_self) hl
    | cons b l' =>
      obtain ⟨rfl, hrest⟩ := List.cons_eq_cons.mp h
      obtain ⟨rfl, hr⟩ := ih (fun hc ↦ hl (List.mem_cons_of_mem _ hc))
        (fun hc ↦ hl' (List.mem_cons_of_mem _ hc)) hrest
      exact ⟨rfl, hr⟩

theorem dash_notMem_digits (n : ℕ) : '-' ∉ Nat.toDigits 10 n := fun h ↦ by
  have := Nat.isDigit_of_mem_toDigits (by decide) (by decide) h
  exact absurd this (by decide)

theorem digits_injective {m n : ℕ} (h : Nat.toDigits 10 m = Nat.toDigits 10 n) : m = n := by
  have := congrArg (Nat.ofDigitChars 10 · 0) h
  simpa [Nat.ofDigitChars_ten_toDigits] using this

theorem toList_position (block extrinsicIndex eventIndex : ℕ) :
    (toString block ++ "-" ++ toString extrinsicIndex ++ "-" ++ toString eventIndex).toList =
      Nat.toDigits 10 block ++
        '-' :: (Nat.toDigits 10 extrinsicIndex ++ '-' :: Nat.toDigits 10 eventIndex) := by
  simp [toString, Nat.toList_repr]

/-- The text of a position names one position. -/
theorem position_injective {b e i b' e' i' : ℕ}
    (h : toString b ++ "-" ++ toString e ++ "-" ++ toString i =
      toString b' ++ "-" ++ toString e' ++ "-" ++ toString i') : b = b' ∧ e = e' ∧ i = i' := by
  have hlist := congrArg String.toList h
  rw [toList_position, toList_position] at hlist
  obtain ⟨hblock, hrest⟩ := append_cons_inj (dash_notMem_digits _) (dash_notMem_digits _) hlist
  obtain ⟨hextrinsic, hevent⟩ :=
    append_cons_inj (dash_notMem_digits _) (dash_notMem_digits _) hrest
  exact ⟨digits_injective hblock, digits_injective hextrinsic, digits_injective hevent⟩

/-- A reference names one position. -/
theorem reference_injective {t t' : IncomingTransfer} (h : t.reference = t'.reference) :
    t.block = t'.block ∧ t.extrinsicIndex = t'.extrinsicIndex ∧ t.eventIndex = t'.eventIndex :=
  position_injective h

/-! ## The finalized chain -/

/-- The finalized chain, by block number.  Blocks on it never change. -/
abbrev FinalizedChain := ℕ → Block

namespace FinalizedChain

/-- `transfers_to`: a block's transfers to one recipient. -/
def transfersTo (chain : FinalizedChain) (recipient : Ss58) (block : ℕ) :
    List IncomingTransfer :=
  transfersInEvents (chain block).events (some recipient) block (chain block).timestamp

/-- `transfers_in`: all of a block's transfers. -/
def transfersIn (chain : FinalizedChain) (block : ℕ) : List IncomingTransfer :=
  transfersInEvents (chain block).events none block (chain block).timestamp

/-- A transfer that is on the chain. -/
def Carries (chain : FinalizedChain) (t : IncomingTransfer) : Prop :=
  ∃ recipient, t ∈ transfersInEvents (chain t.block).events recipient t.block
    (chain t.block).timestamp

variable {chain : FinalizedChain}

theorem carries_of_mem_transfersInEvents {recipient : Option Ss58} {block : ℕ}
    {t : IncomingTransfer} (h : t ∈ transfersInEvents (chain block).events recipient block
      (chain block).timestamp) : chain.Carries t := by
  obtain ⟨r, position, -, ht⟩ := mem_transfersInEvents.mp h
  obtain ⟨rfl, -⟩ := EventRecord.transfer?_eq_some ht
  exact ⟨recipient, h⟩

/-- Two transfers on the chain with one reference are one event: they have one sender
and one amount. -/
theorem Carries.eq_of_reference {t t' : IncomingTransfer} (h : chain.Carries t)
    (h' : chain.Carries t') (href : t.reference = t'.reference) :
    t.sender = t'.sender ∧ t.amountRao = t'.amountRao := by
  obtain ⟨hblock, -, hevent⟩ := reference_injective href
  obtain ⟨_, h⟩ := h
  obtain ⟨_, h'⟩ := h'
  obtain ⟨r, position, hr, ht⟩ := mem_transfersInEvents.mp h
  obtain ⟨r', position', hr', ht'⟩ := mem_transfersInEvents.mp h'
  obtain ⟨-, hp, -, hsender, hamount⟩ := EventRecord.transfer?_eq_some ht
  obtain ⟨-, hp', -, hsender', hamount'⟩ := EventRecord.transfer?_eq_some ht'
  rw [← hp, hblock, hevent, hp', hr'] at hr
  cases hr
  exact ⟨hsender.trans hsender'.symm, hamount.trans hamount'.symm⟩

end FinalizedChain

end Conjectures.Chain

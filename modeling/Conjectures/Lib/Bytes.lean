import Mathlib.Algebra.GroupWithZero.Nat
import Mathlib.Data.List.Infix

/-!
# Reading byte strings

The last occurrence of a word, what a reader sees from a place on, and the little-endian numbers
of a record. Two readers who look for the same word in different windows of one string agree as
soon as one of them finds it in the smaller window.
-/

namespace Conjectures.Lib

universe u

/-! ## The last occurrence of a word -/

section Rfind

variable {α : Type u} [DecidableEq α] {word : List α}

/-- Where the last occurrence of `word` begins. -/
def rfind (word : List α) : List α → Option ℕ
  | [] => if word = [] then some 0 else none
  | x :: xs =>
    match rfind word xs with
    | some i => some (i + 1)
    | none => if word <+: x :: xs then some 0 else none

theorem rfind_cons_of_some {x : α} {xs : List α} {i : ℕ} (h : rfind word xs = some i) :
    rfind word (x :: xs) = some (i + 1) := by
  simp only [rfind, h]

theorem rfind_ne_none {l : List α} {j : ℕ} (hj : j ≤ l.length) (hw : word <+: l.drop j) :
    rfind word l ≠ none := by
  induction l generalizing j with
  | nil => simp_all [rfind]
  | cons x xs ih =>
    unfold rfind
    split
    next => simp
    next hnone =>
      cases j with
      | zero =>
        have hw : word <+: x :: xs := by simpa using hw
        simp [hw]
      | succ j => exact absurd hnone (ih (by simpa using hj) (by simpa using hw))

/-- No occurrence comes after the last one. -/
theorem le_of_rfind {l : List α} {i j : ℕ} (h : rfind word l = some i) (hj : j ≤ l.length)
    (hw : word <+: l.drop j) : j ≤ i := by
  induction l generalizing i j with
  | nil => simp_all
  | cons x xs ih =>
    cases j with
    | zero => exact Nat.zero_le i
    | succ j =>
      have hj' : j ≤ xs.length := by simpa using hj
      unfold rfind at h
      split at h
      next k hk =>
        have := ih hk hj' (by simpa using hw)
        obtain rfl : k + 1 = i := by simpa using h
        omega
      next hnone =>
        exact absurd hnone (rfind_ne_none hj' (by simpa using hw))

/-- An occurrence found in the end of a string is the last one of the whole. -/
theorem rfind_of_drop {l : List α} {n i : ℕ} (hn : n ≤ l.length)
    (h : rfind word (l.drop n) = some i) : rfind word l = some (n + i) := by
  induction n generalizing l with
  | zero => simpa using h
  | succ n ih =>
    cases l with
    | nil => simp at hn
    | cons x xs =>
      have := rfind_cons_of_some (x := x) (ih (by simpa using hn) h)
      rwa [Nat.add_right_comm] at this

/-- Two windows onto the end of one string: what the smaller one finds, the larger one finds at
the same place. -/
theorem rfind_window {l : List α} {m n i : ℕ} (hmn : m ≤ n) (hn : n ≤ l.length)
    (h : rfind word (l.drop n) = some i) : rfind word (l.drop m) = some (n - m + i) := by
  refine rfind_of_drop (by simpa using Nat.sub_le_sub_right hn m) ?_
  rwa [List.drop_drop, Nat.add_sub_cancel' hmn]

end Rfind

/-! ## Records -/

/-- `source.seek(position)` and `source.read(n)` -/
def readAt (source : List UInt8) (position n : ℕ) : List UInt8 := (source.drop position).take n

theorem length_readAt (source : List UInt8) (position n : ℕ) :
    (readAt source position n).length = min n (source.length - position) := by
  simp [readAt]

/-- A read inside what was read. -/
theorem readAt_readAt {source : List UInt8} {a b m n : ℕ} (h : b + n ≤ m) :
    readAt (readAt source a m) b n = readAt source (a + b) n := by
  unfold readAt
  rw [List.drop_take, List.take_take, List.drop_drop]
  congr 1
  omega

/-- The number that little-endian bytes spell. -/
def littleEndian : List UInt8 → ℕ
  | [] => 0
  | b :: bs => b.toNat + 256 * littleEndian bs

/-- The fields of a record, with the widths of a `struct` format of little-endian numbers. -/
def unpack : List ℕ → List UInt8 → List ℕ
  | [], _ => []
  | w :: ws, bytes => littleEndian (bytes.take w) :: unpack ws (bytes.drop w)

/-- Only the record's own bytes count. -/
theorem unpack_take {ws : List ℕ} {bytes : List UInt8} {n : ℕ} (h : ws.sum ≤ n) :
    unpack ws (bytes.take n) = unpack ws bytes := by
  induction ws generalizing bytes n with
  | nil => rfl
  | cons w ws ih =>
    rw [List.sum_cons] at h
    have hw : min w n = w := by omega
    have hws : ws.sum ≤ n - w := by omega
    simp only [unpack, List.take_take, hw, List.drop_take, ih hws]

end Conjectures.Lib

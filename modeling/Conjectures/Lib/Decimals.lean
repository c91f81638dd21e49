import Mathlib.Data.List.TakeWhile
import Mathlib.Tactic.Ring

/-!
# Decimal digits of every script

Which characters are decimal digits, and what each is worth, is a table of the language's
runtime and grows from one version to the next. `Decimals` is what every such table has in
common: digits are worth less than ten, and of the ASCII characters only the ten digits are
digits, worth what they say.

`run?` reads a bounded run of digits off a text, which is what a regular expression's `\d{1,n}`
before a character that is no digit and `int` of the group amount to.
-/

namespace Conjectures.Lib

/-- A table of decimal digits. -/
structure Decimals where
  value : Char → Option ℕ
  value_lt : ∀ {c d}, value c = some d → d < 10
  ascii : ∀ {c}, c.toNat < 128 →
    value c = if 48 ≤ c.toNat ∧ c.toNat ≤ 57 then some (c.toNat - 48) else none

namespace Decimals

variable (u : Decimals)

/-- `str.isdecimal`, of one character. -/
def isDecimal (c : Char) : Bool := (u.value c).isSome

/-- `int`, of a text of digits. -/
def int (text : List Char) : ℕ := text.foldl (fun n c ↦ 10 * n + (u.value c).getD 0) 0

/-- The run of digits a text starts with, if there is one of at most `most`, and what follows. -/
def run? (most : ℕ) (text : List Char) : Option (ℕ × List Char) :=
  let digits := text.takeWhile u.isDecimal
  if 0 < digits.length ∧ digits.length ≤ most then
    some (u.int digits, text.dropWhile u.isDecimal)
  else none

variable {u}

theorem value_of_isDigit {c : Char} (h : c.isDigit) : u.value c = some (c.toNat - 48) := by
  obtain ⟨hlow, hhigh⟩ := Char.isDigit_iff_toNat.mp h
  change 48 ≤ c.toNat at hlow
  change c.toNat ≤ 57 at hhigh
  rw [u.ascii (by omega), if_pos ⟨hlow, hhigh⟩]

theorem isDecimal_of_isDigit {c : Char} (h : c.isDigit) : u.isDecimal c := by
  rw [isDecimal, value_of_isDigit h]
  rfl

theorem foldl_lt {text : List Char} (n : ℕ) :
    text.foldl (fun n c ↦ 10 * n + (u.value c).getD 0) n < (n + 1) * 10 ^ text.length := by
  induction text generalizing n with
  | nil => simp
  | cons c text ih =>
    have hdigit : (u.value c).getD 0 < 10 := by
      cases h : u.value c with
      | none => simp
      | some d => exact u.value_lt h
    have hnext : 10 * n + (u.value c).getD 0 + 1 ≤ (n + 1) * 10 := by omega
    calc _ < (10 * n + (u.value c).getD 0 + 1) * 10 ^ text.length := ih _
      _ ≤ (n + 1) * 10 * 10 ^ text.length := Nat.mul_le_mul_right _ hnext
      _ = (n + 1) * 10 ^ (c :: text).length := by
        rw [List.length_cons, Nat.pow_succ, Nat.mul_comm (10 ^ _) 10, ← Nat.mul_assoc]

theorem foldl_eq (text : List Char) (n : ℕ) :
    text.foldl (fun n c ↦ 10 * n + (u.value c).getD 0) n = n * 10 ^ text.length + u.int text := by
  induction text generalizing n with
  | nil => simp [int]
  | cons c text ih =>
    rw [int, List.foldl_cons, List.foldl_cons, ih, ih (10 * 0 + _), List.length_cons, Nat.pow_succ]
    ring

/-- A text is worth its first part moved up by the places of the second. -/
theorem int_append (a b : List Char) : u.int (a ++ b) = u.int a * 10 ^ b.length + u.int b := by
  conv_lhs => rw [int, List.foldl_append, foldl_eq]
  rfl

theorem int_lt (text : List Char) : u.int text < 10 ^ text.length := by
  have hlt := @foldl_lt u text 0
  rwa [Nat.zero_add, Nat.one_mul] at hlt

@[simp] theorem int_replicate_zero (k : ℕ) : u.int (List.replicate k '0') = 0 := by
  have hzero : u.value '0' = some 0 := value_of_isDigit (by decide)
  induction k with
  | zero => rfl
  | succ k ih =>
    rw [List.replicate_succ, int, List.foldl_cons, hzero]
    exact ih

/-- A run of at most `most` digits is a number of at most so many. -/
theorem lt_of_run? {most n : ℕ} {text rest : List Char} (h : u.run? most text = some (n, rest)) :
    n < 10 ^ most := by
  unfold run? at h
  dsimp only at h
  split at h
  · rename_i hlength
    cases h
    exact (int_lt _).trans_le (Nat.pow_le_pow_right (by omega) hlength.2)
  · cases h

/-- The ASCII digits of a number are worth the number. -/
theorem int_toDigits (n : ℕ) : u.int (Nat.toDigits 10 n) = n := by
  have hdigits : ∀ text : List Char, (∀ c ∈ text, c.isDigit) → ∀ m,
      text.foldl (fun n c ↦ 10 * n + (u.value c).getD 0) m = Nat.ofDigitChars 10 text m := by
    intro text htext
    induction text with
    | nil => exact fun m ↦ Nat.ofDigitChars_nil.symm
    | cons c text ih =>
      intro m
      rw [List.foldl_cons, Nat.ofDigitChars_cons, value_of_isDigit (htext c List.mem_cons_self)]
      exact ih (fun c hc ↦ htext c (List.mem_cons_of_mem _ hc)) _
  rw [int, hdigits _ fun c hc ↦ Nat.isDigit_of_mem_toDigits (by decide) (by decide) hc]
  exact Nat.ofDigitChars_ten_toDigits

/-- What digits are followed by, if it starts with no digit, is left as it is. -/
theorem span_digits {digits rest : List Char} (hdigits : ∀ c ∈ digits, c.isDigit)
    (h : ∀ c ∈ rest.head?, u.value c = none) :
    (digits ++ rest).takeWhile u.isDecimal = digits ∧
      (digits ++ rest).dropWhile u.isDecimal = rest := by
  have hdecimal : ∀ c ∈ digits, u.isDecimal c = true := fun c hc ↦
    isDecimal_of_isDigit (hdigits c hc)
  have hrest : rest.takeWhile u.isDecimal = [] ∧ rest.dropWhile u.isDecimal = rest := by
    cases rest with
    | nil => exact ⟨rfl, rfl⟩
    | cons c rest =>
      have hc : u.isDecimal c = false := by
        rw [isDecimal, h c rfl]
        rfl
      simp [hc]
  rw [List.takeWhile_append_of_pos hdecimal, List.dropWhile_append_of_pos hdecimal, hrest.1,
    hrest.2, List.append_nil]
  exact ⟨rfl, rfl⟩

theorem isDigit_toDigits {n : ℕ} {c : Char} (h : c ∈ Nat.toDigits 10 n) : c.isDigit :=
  Nat.isDigit_of_mem_toDigits (by decide) (by decide) h

/-- A number's digits are read back where there are not too many of them. -/
theorem run?_toDigits {n most : ℕ} (hmost : 0 < most) (hn : n < 10 ^ most) {rest : List Char}
    (h : ∀ c ∈ rest.head?, u.value c = none) :
    u.run? most (Nat.toDigits 10 n ++ rest) = some (n, rest) := by
  obtain ⟨htake, hdrop⟩ := span_digits (u := u) (fun c ↦ isDigit_toDigits) h
  unfold run?
  rw [htake, hdrop]
  exact (if_pos ⟨Nat.length_toDigits_pos, (Nat.length_toDigits_le_iff (by decide) hmost).mpr hn⟩).trans
    (by rw [int_toDigits])

/-- And are no run where there are. -/
theorem run?_toDigits_eq_none {n most : ℕ} (hmost : 0 < most) (hn : ¬ n < 10 ^ most)
    {rest : List Char} (h : ∀ c ∈ rest.head?, u.value c = none) :
    u.run? most (Nat.toDigits 10 n ++ rest) = none := by
  obtain ⟨htake, -⟩ := span_digits (u := u) (fun c ↦ isDigit_toDigits) h
  unfold run?
  rw [htake]
  exact if_neg fun hlength ↦ hn ((Nat.length_toDigits_le_iff (by decide) hmost).mp hlength.2)

end Decimals

/-! ## Unicode -/

/-- The zeros of the scripts of Unicode 15 that have decimal digits. -/
def zeros : List ℕ :=
  [0x30, 0x660, 0x6f0, 0x7c0, 0x966, 0x9e6, 0xa66, 0xae6, 0xb66, 0xbe6, 0xc66, 0xce6, 0xd66, 0xde6,
    0xe50, 0xed0, 0xf20, 0x1040, 0x1090, 0x17e0, 0x1810, 0x1946, 0x19d0, 0x1a80, 0x1a90, 0x1b50,
    0x1bb0, 0x1c40, 0x1c50, 0xa620, 0xa8d0, 0xa900, 0xa9d0, 0xa9f0, 0xaa50, 0xabf0, 0xff10, 0x104a0,
    0x10d30, 0x11066, 0x110f0, 0x11136, 0x111d0, 0x112f0, 0x11450, 0x114d0, 0x11650, 0x116c0,
    0x11730, 0x118e0, 0x11950, 0x11c50, 0x11d50, 0x11da0, 0x11f50, 0x16a60, 0x16ac0, 0x16b50,
    0x1d7ce, 0x1d7d8, 0x1d7e2, 0x1d7ec, 0x1d7f6, 0x1e140, 0x1e2f0, 0x1e4f0, 0x1e950, 0x1fbf0]

/-- The digits of each of them stand in order after their zero. -/
def unicodeDecimals : Decimals where
  value c := (zeros.find? fun first ↦ first ≤ c.toNat ∧ c.toNat < first + 10).map (c.toNat - ·)
  value_lt {c d} h := by
    obtain ⟨first, hfirst, rfl⟩ := Option.map_eq_some_iff.mp h
    have hrange := List.find?_some hfirst
    simp only [decide_eq_true_eq] at hrange
    omega
  ascii {c} h := by
    rw [zeros, List.find?_cons]
    by_cases hdigit : 48 ≤ c.toNat ∧ c.toNat ≤ 57
    · have hfirst : 48 ≤ c.toNat ∧ c.toNat < 48 + 10 := by omega
      rw [if_pos hdigit]
      simp only [decide_eq_true hfirst, Option.map_some]
    · have hfirst : ¬ (48 ≤ c.toNat ∧ c.toNat < 48 + 10) := by omega
      rw [if_neg hdigit]
      simp only [decide_eq_false hfirst, Option.map_eq_none_iff, List.find?_eq_none,
        decide_eq_true_eq]
      intro first hmem hrange
      have hlarge : ∀ first ∈ zeros.tail, 128 ≤ first := by decide
      have := hlarge first hmem
      omega

end Conjectures.Lib

import Mathlib.Algebra.Order.Floor.Ring
import Mathlib.Algebra.Order.Field.Power
import Mathlib.Data.Rat.Floor
import Mathlib.Data.Nat.Log
import Mathlib.Tactic.Linarith
import Mathlib.Tactic.FieldSimp
import Mathlib.Tactic.Ring

/-!
# Rounding half to even

`roundEven` is the rounding of decimal arithmetic. Rounding to a multiple of a unit `10 ^ t` can
only turn a number into an integer that is within half a unit of it, and it always does so where
there is one: an integer is an even multiple of every smaller unit, so ties go to it too.
-/

namespace Conjectures.Lib

/-- The nearest integer, or the even one of the two nearest. -/
def roundEven (x : ℚ) : ℤ :=
  if x - ⌊x⌋ < 1 / 2 then ⌊x⌋
  else if 1 / 2 < x - ⌊x⌋ then ⌊x⌋ + 1
  else if Even ⌊x⌋ then ⌊x⌋
  else ⌊x⌋ + 1

theorem abs_sub_roundEven_le (x : ℚ) : |x - roundEven x| ≤ 1 / 2 := by
  have hlow := Int.floor_le x
  have hhigh := Int.lt_floor_add_one x
  unfold roundEven
  split
  · rw [abs_of_nonneg (by linarith)]
    linarith
  · split
    · push_cast
      rw [abs_of_nonpos (by linarith)]
      linarith
    · split
      · rw [abs_of_nonneg (by linarith)]
        linarith
      · push_cast
        rw [abs_of_nonpos (by linarith)]
        linarith

/-- An even integer within a half is what a number is rounded to. -/
theorem roundEven_eq_of_even {x : ℚ} {k : ℤ} (hk : Even k) (h : |x - k| ≤ 1 / 2) :
    roundEven x = k := by
  obtain ⟨hlow, hhigh⟩ := abs_le.mp h
  have hfloor_le := Int.floor_le x
  have hlt_floor := Int.lt_floor_add_one x
  by_cases hle : (k : ℚ) ≤ x
  · have hfloor : ⌊x⌋ = k := Int.floor_eq_iff.mpr ⟨hle, by linarith⟩
    unfold roundEven
    rw [hfloor]
    split
    · rfl
    · rw [if_neg (by linarith)]
  · have hfloor : ⌊x⌋ = k - 1 := by
      refine Int.floor_eq_iff.mpr ⟨?_, ?_⟩
      · push_cast
        linarith
      · push_cast
        linarith [not_le.mp hle]
    have hodd : ¬ Even (k - 1) := by
      rw [Int.even_sub_one]
      exact not_not.mpr hk
    unfold roundEven
    rw [hfloor]
    push_cast
    rw [if_neg (by linarith)]
    split <;> ring

/-- An integer within less than a half is what a number is rounded to. -/
theorem roundEven_eq_of_abs_lt {x : ℚ} {k : ℤ} (h : |x - k| < 1 / 2) : roundEven x = k := by
  obtain ⟨hlow, hhigh⟩ := abs_lt.mp h
  by_cases hle : (k : ℚ) ≤ x
  · have hfloor : ⌊x⌋ = k := Int.floor_eq_iff.mpr ⟨hle, by linarith⟩
    unfold roundEven
    rw [hfloor, if_pos (by linarith)]
  · have hfloor : ⌊x⌋ = k - 1 := by
      refine Int.floor_eq_iff.mpr ⟨?_, ?_⟩
      · push_cast
        linarith
      · push_cast
        linarith [not_le.mp hle]
    unfold roundEven
    rw [hfloor]
    push_cast
    rw [if_neg (by linarith), if_pos (by linarith)]
    ring

theorem roundEven_intCast (k : ℤ) : roundEven k = k := by
  have hfloor : ⌊(k : ℚ)⌋ = k := Int.floor_intCast k
  unfold roundEven
  rw [hfloor, sub_self, if_pos (by norm_num)]

theorem floor_le_roundEven (x : ℚ) : ⌊x⌋ ≤ roundEven x ∧ roundEven x ≤ ⌊x⌋ + 1 := by
  unfold roundEven
  split
  · omega
  · split
    · omega
    · split <;> omega

/-- Rounding does not pass an integer from above. -/
theorem le_roundEven {x : ℚ} {k : ℤ} (h : (k : ℚ) ≤ x) : k ≤ roundEven x :=
  (Int.le_floor.mpr h).trans (floor_le_roundEven x).1

/-- Nor from below. -/
theorem roundEven_le {x : ℚ} {k : ℤ} (h : x ≤ k) : roundEven x ≤ k := by
  rcases (Int.floor_le_iff.mpr (h.trans_lt (lt_add_one _))).lt_or_eq with hlt | heq
  · exact (floor_le_roundEven x).2.trans hlt
  · have hx : x = k := le_antisymm h (heq ▸ Int.floor_le x)
    rw [hx, roundEven_intCast]

/-- An even integer is reached from a half below it on. -/
theorem even_le_roundEven_iff {x : ℚ} {k : ℤ} (hk : Even k) :
    k ≤ roundEven x ↔ (k : ℚ) - 1 / 2 ≤ x := by
  constructor
  · intro h
    have hcast : (k : ℚ) ≤ roundEven x := Int.cast_le.mpr h
    have hnear := (abs_le.mp (abs_sub_roundEven_le x)).1
    linarith
  · intro h
    by_cases hle : (k : ℚ) ≤ x
    · exact le_roundEven hle
    · refine (roundEven_eq_of_even hk (abs_le.mpr ⟨by linarith, ?_⟩)).ge
      linarith [not_le.mp hle]

/-- The half goes to no odd integer. -/
theorem even_roundEven_of_abs_eq {x : ℚ} (h : |x - roundEven x| = 1 / 2) : Even (roundEven x) := by
  by_contra hodd
  rcases abs_eq (by norm_num : (0 : ℚ) ≤ 1 / 2) |>.mp h with hx | hx
  · have heven : Even (roundEven x + 1) := Int.even_add_one.mpr hodd
    have := roundEven_eq_of_even (x := x) heven
      (abs_le.mpr ⟨by push_cast; linarith, by push_cast; linarith⟩)
    omega
  · have heven : Even (roundEven x - 1) := Int.even_sub_one.mpr hodd
    have := roundEven_eq_of_even (x := x) heven
      (abs_le.mpr ⟨by push_cast; linarith, by push_cast; linarith⟩)
    omega

/-- A fraction is rounded to `k` where twice what is missing is less than the denominator, or
equal to it and `k` is even. -/
theorem roundEven_div_eq_iff {a k q : ℤ} (hq : 0 < q) :
    roundEven ((a : ℚ) / q) = k ↔
      (-q < 2 * (a - k * q) ∧ 2 * (a - k * q) < q) ∨
        ((2 * (a - k * q) = q ∨ 2 * (a - k * q) = -q) ∧ Even k) := by
  have hpos : (0 : ℚ) < q := Int.cast_pos.mpr hq
  have hdist : (a : ℚ) / q - k = ((a - k * q : ℤ) : ℚ) / q := by
    push_cast
    rw [sub_div, mul_div_cancel_right₀ _ hpos.ne']
  have habs : |(a : ℚ) / q - k| = |((a - k * q : ℤ) : ℚ)| / q := by
    rw [hdist, abs_div, abs_of_pos hpos]
  have hlt : |(a : ℚ) / q - k| < 1 / 2 ↔ 2 * |a - k * q| < q := by
    rw [habs, div_lt_iff₀ hpos, ← Int.cast_abs, ← @Int.cast_lt ℚ]
    push_cast
    constructor <;> intro h <;> linarith
  have heq : |(a : ℚ) / q - k| = 1 / 2 ↔ 2 * |a - k * q| = q := by
    rw [habs, div_eq_iff hpos.ne', ← Int.cast_abs, ← @Int.cast_inj ℚ]
    push_cast
    constructor <;> intro h <;> linarith
  have hsplit : 2 * |a - k * q| < q ↔ -q < 2 * (a - k * q) ∧ 2 * (a - k * q) < q := by
    rcases abs_cases (a - k * q) with ⟨h, _⟩ | ⟨h, _⟩ <;> rw [h] <;> omega
  have hsplit' : 2 * |a - k * q| = q ↔ 2 * (a - k * q) = q ∨ 2 * (a - k * q) = -q := by
    rcases abs_cases (a - k * q) with ⟨h, _⟩ | ⟨h, _⟩ <;> rw [h] <;> omega
  rw [← hsplit, ← hsplit', ← hlt, ← heq]
  constructor
  · rintro rfl
    rcases (abs_sub_roundEven_le ((a : ℚ) / q)).lt_or_eq with h | h
    · exact Or.inl h
    · exact Or.inr ⟨h, even_roundEven_of_abs_eq h⟩
  · rintro (h | ⟨h, heven⟩)
    · exact roundEven_eq_of_abs_lt h
    · exact roundEven_eq_of_even heven h.le

/-! ## Rounding to a unit -/

/-- Round to a multiple of `10 ^ t`. -/
def roundTo (t : ℤ) (x : ℚ) : ℚ := roundEven (x / 10 ^ t) * 10 ^ t

theorem abs_sub_roundTo_le (t : ℤ) (x : ℚ) : |x - roundTo t x| ≤ 10 ^ t / 2 := by
  have hunit : (0 : ℚ) < 10 ^ t := zpow_pos (by norm_num) t
  have heq : x - roundTo t x = (x / 10 ^ t - roundEven (x / 10 ^ t)) * 10 ^ t := by
    rw [roundTo, sub_mul, div_mul_cancel₀ _ hunit.ne']
  rw [heq, abs_mul, abs_of_pos hunit]
  calc _ ≤ 1 / 2 * 10 ^ t := mul_le_mul_of_nonneg_right (abs_sub_roundEven_le _) hunit.le
    _ = 10 ^ t / 2 := by ring

/-- A multiple of the unit is left as it is. -/
theorem roundTo_mul (t : ℤ) (k : ℤ) : roundTo t (k * 10 ^ t) = k * 10 ^ t := by
  have hunit : (10 : ℚ) ^ t ≠ 0 := zpow_ne_zero t (by norm_num)
  rw [roundTo, mul_div_cancel_right₀ _ hunit, roundEven_intCast]

/-- What is left as it is is a multiple of the unit. -/
theorem roundTo_eq_self_iff {t : ℤ} {x : ℚ} : roundTo t x = x ↔ ∃ k : ℤ, x = k * 10 ^ t := by
  constructor
  · intro h
    exact ⟨roundEven (x / 10 ^ t), h.symm⟩
  · rintro ⟨k, rfl⟩
    exact roundTo_mul t k

theorem zpow_eq_mul {t k : ℤ} (h : t ≤ k) :
    (10 : ℚ) ^ k = ((10 ^ (k - t).toNat : ℤ) : ℚ) * 10 ^ t := by
  push_cast
  rw [← zpow_natCast, Int.toNat_of_nonneg (by omega), ← zpow_add₀ (by norm_num)]
  congr 1
  ring

/-- Rounding does not pass a power of ten that is a multiple of the unit from above. -/
theorem zpow_le_roundTo {t k : ℤ} {x : ℚ} (htk : t ≤ k) (h : (10 : ℚ) ^ k ≤ x) :
    (10 : ℚ) ^ k ≤ roundTo t x := by
  have hunit : (0 : ℚ) < 10 ^ t := zpow_pos (by norm_num) t
  rw [zpow_eq_mul htk] at h ⊢
  refine mul_le_mul_of_nonneg_right (Int.cast_le.mpr (le_roundEven ?_)) hunit.le
  exact (le_div_iff₀ hunit).mpr h

/-- Nor from below. -/
theorem roundTo_le_zpow {t k : ℤ} {x : ℚ} (htk : t ≤ k) (h : x ≤ (10 : ℚ) ^ k) :
    roundTo t x ≤ (10 : ℚ) ^ k := by
  have hunit : (0 : ℚ) < 10 ^ t := zpow_pos (by norm_num) t
  rw [zpow_eq_mul htk] at h ⊢
  refine mul_le_mul_of_nonneg_right (Int.cast_le.mpr (roundEven_le ?_)) hunit.le
  exact (div_le_iff₀ hunit).mpr h

/-- The rounded number is an integer exactly where there is an integer within half a unit. -/
theorem exists_roundTo_eq_intCast_iff {t : ℤ} {x : ℚ} :
    (∃ m : ℤ, roundTo t x = m) ↔ ∃ m : ℤ, |x - m| ≤ 10 ^ t / 2 := by
  constructor
  · rintro ⟨m, hm⟩
    exact ⟨m, hm ▸ abs_sub_roundTo_le t x⟩
  · rintro ⟨m, hm⟩
    have hunit : (0 : ℚ) < 10 ^ t := zpow_pos (by norm_num) t
    rcases le_or_gt 0 t with ht | ht
    · -- every multiple of the unit is an integer
      refine ⟨roundEven (x / 10 ^ t) * 10 ^ t.toNat, ?_⟩
      rw [roundTo]
      push_cast
      rw [← zpow_natCast, Int.toNat_of_nonneg ht]
    · -- the integer is an even multiple of the unit
      refine ⟨m, ?_⟩
      have hpow : (10 : ℚ) ^ (-t).toNat * 10 ^ t = 1 := by
        rw [← zpow_natCast, Int.toNat_of_nonneg (by omega), ← zpow_add₀ (by norm_num)]
        simp
      have heven : Even (m * 10 ^ (-t).toNat) := by
        have hne : (-t).toNat ≠ 0 := by omega
        exact (Int.even_pow.mpr ⟨by decide, hne⟩).mul_left m
      have hnear : |x / 10 ^ t - ((m * 10 ^ (-t).toNat : ℤ) : ℚ)| ≤ 1 / 2 := by
        have heq : x / 10 ^ t - ((m * 10 ^ (-t).toNat : ℤ) : ℚ) = (x - m) / 10 ^ t := by
          push_cast
          rw [sub_div]
          congr 1
          rw [eq_div_iff hunit.ne', mul_assoc, hpow, mul_one]
        rw [heq, abs_div, abs_of_pos hunit, div_le_iff₀ hunit]
        linarith
      rw [roundTo, roundEven_eq_of_even heven hnear]
      push_cast
      rw [mul_assoc, hpow, mul_one]

end Conjectures.Lib

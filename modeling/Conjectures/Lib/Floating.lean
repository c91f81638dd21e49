import Mathlib.Data.Int.Log
import Conjectures.Lib.Rounding

/-!
# Doubles

The results of IEEE double arithmetic that neither overflow nor fall into the subnormal range, as
rationals: the exact result, rounded to 53 bits, half to even. What a power of two scales into a
fixed range is rounded to a multiple of one unit, which turns a computation with doubles into one
with integers.
-/

namespace Conjectures.Lib

/-- The exponent of the last of the 53 places of a number. -/
def lastPlace (x : ℚ) : ℤ := Int.log 2 |x| - 52

/-- The double nearest to a number. -/
def double (x : ℚ) : ℚ := roundEven (x / 2 ^ lastPlace x) * 2 ^ lastPlace x

/-- `int` of a double: towards zero. -/
def truncate (x : ℚ) : ℤ := if 0 ≤ x then ⌊x⌋ else ⌈x⌉

@[simp] theorem double_zero : double 0 = 0 := by
  have hround : roundEven 0 = 0 := by simpa using roundEven_intCast 0
  rw [double, zero_div, hround, Int.cast_zero, zero_mul]

/-- From one power of two to the next, both of them included, doubles are the multiples of one
unit. -/
theorem double_of_mem {x : ℚ} {k : ℤ} (hlow : (2 : ℚ) ^ k ≤ x) (hhigh : x ≤ (2 : ℚ) ^ (k + 1)) :
    double x = roundEven (x / 2 ^ (k - 52)) * 2 ^ (k - 52) := by
  have hpos : (0 : ℚ) < x := (zpow_pos (by norm_num) k).trans_le hlow
  rcases hhigh.lt_or_eq with hlt | rfl
  · have hlog : Int.log 2 x = k := by
      refine le_antisymm (Int.lt_add_one_iff.mp ?_) ?_
      · exact (Int.lt_zpow_iff_log_lt (by norm_num) hpos).mp hlt
      · exact (Int.zpow_le_iff_le_log (by norm_num) hpos).mp hlow
    rw [double, lastPlace, abs_of_pos hpos, hlog]
  · -- a power of two is a multiple of either unit
    have hself : ∀ {e : ℤ} {n : ℕ}, e + n = k + 1 →
        (roundEven ((2 : ℚ) ^ (k + 1) / 2 ^ e) : ℚ) * 2 ^ e = 2 ^ (k + 1) := by
      intro e n hn
      have hsplit : (2 : ℚ) ^ (k + 1) = ((2 ^ n : ℤ) : ℚ) * 2 ^ e := by
        push_cast
        rw [← hn, zpow_add₀ (by norm_num), zpow_natCast, mul_comm]
      rw [hsplit, mul_div_cancel_right₀ _ (zpow_ne_zero e (by norm_num)), roundEven_intCast]
    have hlog : Int.log 2 ((2 : ℚ) ^ (k + 1)) = k + 1 := by
      exact_mod_cast Int.log_zpow (R := ℚ) (b := 2) (by norm_num) (k + 1)
    rw [double, lastPlace, abs_of_pos hpos, hlog, hself (n := 52) (by push_cast; ring),
      hself (n := 53) (by push_cast; ring)]

/-- A number below a power of two is at most half of the last place below it from its double. -/
theorem abs_double_sub_le {x : ℚ} {k : ℤ} (hpos : 0 < x) (hlt : x < (2 : ℚ) ^ k) :
    |double x - x| ≤ 2 ^ (k - 54) := by
  have hlog : Int.log 2 x < k := (Int.lt_zpow_iff_log_lt (by norm_num) hpos).mp hlt
  have hunit : (0 : ℚ) < 2 ^ lastPlace x := zpow_pos (by norm_num) _
  have hdist : double x - x =
      -(x / 2 ^ lastPlace x - roundEven (x / 2 ^ lastPlace x)) * 2 ^ lastPlace x := by
    rw [double, neg_sub, sub_mul, div_mul_cancel₀ _ hunit.ne']
  rw [hdist, abs_mul, abs_neg, abs_of_pos hunit]
  calc _ ≤ 1 / 2 * 2 ^ lastPlace x :=
        mul_le_mul_of_nonneg_right (abs_sub_roundEven_le _) hunit.le
    _ = 2 ^ (lastPlace x - 1) := by
        rw [zpow_sub_one₀ (by norm_num)]
        ring
    _ ≤ 2 ^ (k - 54) := by
        refine zpow_le_zpow_right₀ (by norm_num) ?_
        rw [lastPlace, abs_of_pos hpos]
        omega

theorem double_nonneg {x : ℚ} (h : 0 ≤ x) : 0 ≤ double x := by
  have hunit : (0 : ℚ) < 2 ^ lastPlace x := zpow_pos (by norm_num) _
  refine mul_nonneg (Int.cast_nonneg (le_roundEven ?_)) hunit.le
  exact div_nonneg h hunit.le

/-- No power of two is passed. -/
theorem double_le_pow {x : ℚ} {k : ℕ} (hpos : 0 ≤ x) (h : x ≤ 2 ^ k) : double x ≤ 2 ^ k := by
  rcases hpos.eq_or_lt with rfl | hpos
  · simp
  · have hunit : (0 : ℚ) < 2 ^ lastPlace x := zpow_pos (by norm_num) _
    have hlog : Int.log 2 x ≤ k := by
      have hpow : Int.log 2 ((2 : ℚ) ^ k) = k := by
        exact_mod_cast Int.log_zpow (R := ℚ) (b := 2) (by norm_num) k
      exact hpow ▸ Int.log_mono_right hpos h
    have hplace : lastPlace x ≤ k := by
      rw [lastPlace, abs_of_pos hpos]
      omega
    have hsplit : (2 : ℚ) ^ k = ((2 ^ (k - lastPlace x).toNat : ℤ) : ℚ) * 2 ^ lastPlace x := by
      push_cast
      rw [← zpow_natCast, ← zpow_natCast, Int.toNat_of_nonneg (by omega), ← zpow_add₀ (by norm_num)]
      congr 1
      ring
    rw [hsplit] at h ⊢
    exact mul_le_mul_of_nonneg_right (Int.cast_le.mpr (roundEven_le ((div_le_iff₀ hunit).mpr h)))
      hunit.le

/-! ## In integers -/

section Scaled

variable {a q : ℤ} {s g : ℕ}

/-- What a power of two brings between `2 ^ 52` and `2 ^ 53` is rounded to an integer there. -/
theorem double_scaled (hq : 0 < q) (hlow : 2 ^ (g + 52) * q ≤ a) (hhigh : a ≤ 2 ^ (g + 53) * q) :
    double ((a : ℚ) / (q * 2 ^ s)) =
      ((roundEven ((a : ℚ) / ((2 ^ g * q : ℤ) : ℚ)) * 2 ^ g : ℤ) : ℚ) / 2 ^ s := by
  have hqpos : (0 : ℚ) < q := Int.cast_pos.mpr hq
  have hspos : (0 : ℚ) < 2 ^ s := by positivity
  have hlow' : (2 : ℚ) ^ (g + 52) * q ≤ a := by exact_mod_cast hlow
  have hhigh' : (a : ℚ) ≤ 2 ^ (g + 53) * q := by exact_mod_cast hhigh
  have hexp : ∀ n : ℕ, (2 : ℚ) ^ ((g : ℤ) - s + n) = 2 ^ (g + n) / 2 ^ s := by
    intro n
    rw [show (g : ℤ) - s + n = ((g + n : ℕ) : ℤ) - (s : ℕ) by push_cast; ring,
      zpow_sub₀ (by norm_num), zpow_natCast, zpow_natCast]
  have hmem := double_of_mem (x := (a : ℚ) / (q * 2 ^ s)) (k := (g : ℤ) - s + 52) (by
      have := hexp 52
      push_cast at this
      rw [this, div_le_div_iff₀ hspos (by positivity)]
      nlinarith [hspos]) (by
      have := hexp 53
      push_cast at this
      rw [show (g : ℤ) - s + 52 + 1 = g - s + 53 by ring, this,
        div_le_div_iff₀ (by positivity) hspos]
      nlinarith [hspos])
  have hunit : (2 : ℚ) ^ ((g : ℤ) - s + 52 - 52) = 2 ^ g / 2 ^ s := by
    have := hexp 0
    rw [show (g : ℤ) - s + 52 - 52 = g - s + (0 : ℕ) by push_cast; ring, this, add_zero]
  have harg : (a : ℚ) / (q * 2 ^ s) / (2 ^ g / 2 ^ s) = (a : ℚ) / ((2 ^ g * q : ℤ) : ℚ) := by
    push_cast
    field_simp
  rw [hmem, hunit, harg]
  push_cast
  rw [mul_div_assoc]

end Scaled

end Conjectures.Lib

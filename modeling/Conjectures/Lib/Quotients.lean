import Conjectures.Lib.Rounding
import Mathlib.Data.Int.Log

/-!
# Quotients of bounded precision

A quotient rounded half to even to a number of significant digits.  A quotient of whole numbers
that are small for the precision is rounded on its own side of every integer, so its ceiling is
that of the exact quotient (`ceil_significant`).
-/

namespace Conjectures.Lib

/-- The unit in the last of the significant digits of a number. -/
def lowestPlace (prec : ℕ) (x : ℚ) : ℤ := Int.log 10 |x| + 1 - prec

/-- Round half to even to so many significant digits. -/
def significant (prec : ℕ) (x : ℚ) : ℚ := roundTo (lowestPlace prec x) x

variable {prec : ℕ} {x : ℚ}

theorem zpow_lowestPlace_le (hx : 0 < x) : (10 : ℚ) ^ lowestPlace prec x * 10 ^ prec ≤ 10 * x := by
  have hlog : (10 : ℚ) ^ Int.log 10 x ≤ x := by
    exact_mod_cast Int.zpow_log_le_self (b := 10) (by norm_num) hx
  have hsplit : (10 : ℚ) ^ lowestPlace prec x * 10 ^ prec = 10 * 10 ^ Int.log 10 x := by
    rw [lowestPlace, abs_of_pos hx, ← zpow_natCast, ← zpow_add₀ (by norm_num), sub_add_cancel,
      zpow_add_one₀ (by norm_num), mul_comm]
  rw [hsplit]
  exact mul_le_mul_of_nonneg_left hlog (by norm_num)

/-- The rounded number is within a part of `10 ^ prec` of the number, five times. -/
theorem abs_sub_significant_le (hx : 0 < x) : |x - significant prec x| * 10 ^ prec ≤ 5 * x := by
  have hround := abs_sub_roundTo_le (lowestPlace prec x) x
  have hplace := @zpow_lowestPlace_le prec x hx
  have hpow : (0 : ℚ) ≤ 10 ^ prec := by positivity
  calc |x - significant prec x| * 10 ^ prec
      ≤ 10 ^ lowestPlace prec x / 2 * 10 ^ prec := mul_le_mul_of_nonneg_right hround hpow
    _ = 10 ^ lowestPlace prec x * 10 ^ prec / 2 := by ring
    _ ≤ 5 * x := by linarith

/-- A whole number that has few enough digits is left as it is. -/
theorem significant_intCast {k : ℤ} (hk : |(k : ℚ)| < 10 ^ prec) : significant prec k = k := by
  rcases eq_or_ne k 0 with rfl | hne
  · rw [significant, roundTo, Int.cast_zero, zero_div]
    have : roundEven 0 = 0 := by exact_mod_cast roundEven_intCast 0
    rw [this, Int.cast_zero, zero_mul]
  · have hpos : (0 : ℚ) < |(k : ℚ)| := abs_pos.mpr (Int.cast_ne_zero.mpr hne)
    have hlog : Int.log 10 |(k : ℚ)| < prec := by
      rw [← Int.lt_zpow_iff_log_lt (by norm_num) hpos]
      exact_mod_cast hk
    have hplace : lowestPlace prec (k : ℚ) ≤ 0 := by
      unfold lowestPlace
      omega
    refine roundTo_eq_self_iff.mpr ⟨k * 10 ^ (-lowestPlace prec (k : ℚ)).toNat, ?_⟩
    push_cast
    rw [mul_assoc, ← zpow_natCast, Int.toNat_of_nonneg (by omega), ← zpow_add₀ (by norm_num),
      neg_add_cancel, zpow_zero, mul_one]

/-- Rounding a quotient of whole numbers does not cross an integer. -/
theorem ceil_significant {m p : ℕ} (hm : 0 < m) (hp : 0 < p) (h : 5 * m < 10 ^ prec) :
    ⌈significant prec (m / p)⌉ = ⌈(m / p : ℚ)⌉ := by
  set x : ℚ := m / p
  have hpos : (0 : ℚ) < p := by exact_mod_cast hp
  have hx : 0 < x := div_pos (by exact_mod_cast hm) hpos
  have hxp : x * p = m := div_mul_cancel₀ _ hpos.ne'
  -- the error is less than a part of the divisor
  have herror : |x - significant prec x| * p < 1 := by
    have hbound := mul_le_mul_of_nonneg_right (@abs_sub_significant_le prec _ hx) hpos.le
    have hsmall : (5 * m : ℚ) < 10 ^ prec := by exact_mod_cast h
    have hpow : (0 : ℚ) < 10 ^ prec := by positivity
    have hscaled : |x - significant prec x| * p * 10 ^ prec < 1 * 10 ^ prec := by
      calc |x - significant prec x| * p * 10 ^ prec
          = |x - significant prec x| * 10 ^ prec * p := by ring
        _ ≤ 5 * x * p := hbound
        _ = 5 * m := by rw [mul_assoc, hxp]
        _ < 1 * 10 ^ prec := by rwa [one_mul]
    exact lt_of_mul_lt_mul_right hscaled hpow.le
  rcases eq_or_ne (⌈x⌉ : ℚ) x with hint | hint
  · -- a whole quotient is exact
    have hle : x ≤ m := by
      rw [← hxp]
      exact le_mul_of_one_le_right hx.le (by exact_mod_cast hp)
    have hfew : |((⌈x⌉ : ℤ) : ℚ)| < 10 ^ prec := by
      rw [hint, abs_of_pos hx]
      refine hle.trans_lt ?_
      exact_mod_cast lt_of_le_of_lt (Nat.le_mul_of_pos_left m (by norm_num)) h
    have := significant_intCast hfew
    rw [hint] at this
    rw [this]
  · have habove : x < ⌈x⌉ := lt_of_le_of_ne (Int.le_ceil x) (Ne.symm hint)
    have hbelow : ((⌈x⌉ - 1 : ℤ) : ℚ) < x := by
      push_cast
      linarith [Int.ceil_lt_add_one x]
    -- both integers are at least a part of the divisor away
    have habove' : 1 ≤ (⌈x⌉ - x) * p := by
      have hlt : (m : ℚ) < (⌈x⌉ * p : ℤ) := by
        push_cast
        rw [← hxp]
        exact mul_lt_mul_of_pos_right habove hpos
      have hstep : (m : ℤ) + 1 ≤ ⌈x⌉ * p := by exact_mod_cast hlt
      have : ((m : ℚ) + 1) ≤ ⌈x⌉ * p := by exact_mod_cast hstep
      rw [sub_mul, hxp]
      linarith
    have hbelow' : 1 ≤ (x - (⌈x⌉ - 1 : ℤ)) * p := by
      have hlt : (((⌈x⌉ - 1) * p : ℤ) : ℚ) < m := by
        rw [← hxp, Int.cast_mul, Int.cast_natCast]
        exact mul_lt_mul_of_pos_right hbelow hpos
      have hstep : (⌈x⌉ - 1) * p + 1 ≤ (m : ℤ) := by exact_mod_cast hlt
      have : (((⌈x⌉ - 1 : ℤ) : ℚ)) * p + 1 ≤ m := by exact_mod_cast hstep
      rw [sub_mul, hxp]
      linarith
    rw [Int.ceil_eq_iff]
    obtain ⟨hlow, hhigh⟩ := abs_le.mp (le_refl |x - significant prec x|)
    constructor
    · have : (x - significant prec x) * p < (x - ((⌈x⌉ - 1 : ℤ) : ℚ)) * p :=
        (mul_le_mul_of_nonneg_right hhigh hpos.le).trans_lt (herror.trans_le hbelow')
      have := lt_of_mul_lt_mul_right this hpos.le
      push_cast at this
      linarith
    · have : (significant prec x - x) * p < (⌈x⌉ - x) * p := by
        refine lt_of_le_of_lt (mul_le_mul_of_nonneg_right ?_ hpos.le) (herror.trans_le habove')
        linarith
      have := lt_of_mul_lt_mul_right this hpos.le
      linarith

end Conjectures.Lib

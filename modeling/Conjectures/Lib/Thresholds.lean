import Conjectures.Lib.Quotients

/-!
# Rounding twice

A number that is rounded to some decimals and then to a whole number goes up where it lies within
half a unit of the last decimal below the half: where it was rounded to the half first.  Two ways
of rounding agree where their thresholds do.
-/

namespace Conjectures.Lib

/-- To the nearest whole number, a half away from zero. -/
def roundAway (x : ℚ) : ℤ := if 0 ≤ x then ⌊x + 1 / 2⌋ else -⌊-x + 1 / 2⌋

/-- To so many decimals, a half away from zero. -/
def roundAwayTo (s : ℕ) (x : ℚ) : ℚ := roundAway (x * 10 ^ s) / 10 ^ s

variable {x y : ℚ} {n : ℤ} {s t : ℕ}

theorem le_roundAway_iff (hx : 0 ≤ x) {k : ℤ} : k ≤ roundAway x ↔ (k : ℚ) - 1 / 2 ≤ x := by
  rw [roundAway, if_pos hx, Int.le_floor, sub_le_iff_le_add]

theorem abs_sub_roundAway_le (hx : 0 ≤ x) : |x - roundAway x| ≤ 1 / 2 := by
  have hlow := Int.floor_le (x + 1 / 2)
  have hhigh := Int.lt_floor_add_one (x + 1 / 2)
  rw [roundAway, if_pos hx, abs_le]
  constructor <;> linarith

/-- A number near another one is rounded to its whole part, or to one more from the half on. -/
theorem roundAway_of_near (hy : 0 ≤ y) (hlow : (n : ℚ) - 1 / 2 ≤ y) (hhigh : y < n + 3 / 2) :
    roundAway y = if (n : ℚ) + 1 / 2 ≤ y then n + 1 else n := by
  rw [roundAway, if_pos hy]
  split
  · next h =>
    rw [Int.floor_eq_iff]
    push_cast
    constructor <;> linarith
  · next h =>
    rw [Int.floor_eq_iff]
    constructor <;> linarith

/-- So is one that was rounded to a decimal or more. -/
theorem roundAway_of_rounded (hy : 0 ≤ y) (ht : 1 ≤ t) (h : |x - y| ≤ 1 / (2 * 10 ^ t)) :
    roundAway y = if (⌊x⌋ : ℚ) + 1 / 2 ≤ y then ⌊x⌋ + 1 else ⌊x⌋ := by
  have hfloor := Int.floor_le x
  have hlt := Int.lt_floor_add_one x
  have hunit : (1 : ℚ) / (2 * 10 ^ t) ≤ 1 / (2 * 10 ^ 1) := by gcongr; norm_num
  obtain ⟨hlow, hhigh⟩ := abs_le.mp (h.trans hunit)
  exact roundAway_of_near hy (by linarith) (by linarith)

theorem zpow_neg_div_two (t : ℕ) : (10 : ℚ) ^ (-(t : ℤ)) / 2 = 1 / (2 * 10 ^ t) := by
  rw [zpow_neg, zpow_natCast, ← one_div, div_div, mul_comm]

theorem roundTo_nonneg (t : ℤ) (hx : 0 ≤ x) : 0 ≤ roundTo t x := by
  have hunit : (0 : ℚ) < 10 ^ t := zpow_pos (by norm_num) t
  have hround : 0 ≤ roundEven (x / 10 ^ t) :=
    le_roundEven (by exact_mod_cast div_nonneg hx hunit.le)
  exact mul_nonneg (by exact_mod_cast hround) hunit.le

/-- The half is so many units of the last decimal. -/
theorem half_eq_mul (n : ℤ) (ht : 0 < t) :
    (n : ℚ) + 1 / 2 = ((2 * n + 1) * 5 * 10 ^ (t - 1) : ℤ) / 10 ^ t := by
  obtain ⟨k, rfl⟩ : ∃ k, t = k + 1 := ⟨t - 1, by omega⟩
  rw [eq_div_iff (by positivity)]
  push_cast
  rw [pow_succ]
  ring

/-- Rounded half away, a number reaches the half from half a unit below it on. -/
theorem half_le_roundAwayTo_iff (hx : 0 ≤ x) (hs : 0 < s) :
    (n : ℚ) + 1 / 2 ≤ roundAwayTo s x ↔ (n : ℚ) + 1 / 2 - 1 / (2 * 10 ^ s) ≤ x := by
  have hunit : (0 : ℚ) < 10 ^ s := by positivity
  rw [half_eq_mul n hs, roundAwayTo, div_le_div_iff_of_pos_right hunit, Int.cast_le,
    le_roundAway_iff (mul_nonneg hx hunit.le), ← div_le_iff₀ hunit, sub_div, div_div]

/-- Rounded half to even likewise: with two decimals or more the half is an even one. -/
theorem half_le_roundTo_iff (ht : 2 ≤ t) :
    (n : ℚ) + 1 / 2 ≤ roundTo (-t) x ↔ (n : ℚ) + 1 / 2 - 1 / (2 * 10 ^ t) ≤ x := by
  have hunit : (0 : ℚ) < 10 ^ t := by positivity
  have hten : Even ((10 : ℤ) ^ (t - 1)) :=
    (by decide : Even (10 : ℤ)).pow_of_ne_zero (by omega)
  have heven : Even ((2 * n + 1) * 5 * 10 ^ (t - 1) : ℤ) := hten.mul_left _
  have hround : roundTo (-t) x = roundEven (x * 10 ^ t) / 10 ^ t := by
    rw [roundTo, zpow_neg, zpow_natCast, div_inv_eq_mul, div_eq_mul_inv]
  rw [half_eq_mul (t := t) n (by omega), hround, div_le_div_iff_of_pos_right hunit, Int.cast_le,
    even_le_roundEven_iff heven, ← div_le_iff₀ hunit, sub_div, div_div]

theorem abs_sub_roundAwayTo_le (hx : 0 ≤ x) : |x - roundAwayTo s x| ≤ 1 / (2 * 10 ^ s) := by
  have hunit : (0 : ℚ) < 10 ^ s := by positivity
  have hround := abs_sub_roundAway_le (mul_nonneg hx hunit.le)
  have heq : x - roundAwayTo s x = (x * 10 ^ s - roundAway (x * 10 ^ s)) / 10 ^ s := by
    rw [roundAwayTo, sub_div, mul_div_cancel_right₀ _ hunit.ne']
  rw [heq, abs_div, abs_of_pos hunit, ← div_div]
  exact (div_le_div_iff_of_pos_right hunit).mpr hround

theorem roundAwayTo_nonneg (hx : 0 ≤ x) : 0 ≤ roundAwayTo s x := by
  have hunit : (0 : ℚ) < 10 ^ s := by positivity
  have hround : 0 ≤ roundAway (x * 10 ^ s) :=
    (le_roundAway_iff (mul_nonneg hx hunit.le)).mpr (by
      push_cast
      linarith [mul_nonneg hx hunit.le])
  exact div_nonneg (by exact_mod_cast hround) hunit.le

/-- The ceiling after rounding to decimals is that before it, but for a number that is not whole
and was rounded down to a whole one. -/
theorem ceil_roundAwayTo (hx : 0 ≤ x) :
    ⌈roundAwayTo s x⌉ = ⌈x⌉ ↔ x = ⌊x⌋ ∨ 1 / (2 * 10 ^ s) ≤ x - ⌊x⌋ := by
  have hunit : (0 : ℚ) < 10 ^ s := by positivity
  have hscaled := mul_nonneg hx hunit.le
  have hfloor := Int.floor_le x
  have hlt := Int.lt_floor_add_one x
  by_cases hwhole : x = ⌊x⌋
  · refine iff_of_true ?_ (.inl hwhole)
    rw [hwhole, roundAwayTo]
    have hround : roundAway ((⌊x⌋ : ℚ) * 10 ^ s) = ⌊x⌋ * 10 ^ s := by
      have hcast : ((⌊x⌋ : ℚ) * 10 ^ s) = ((⌊x⌋ * 10 ^ s : ℤ) : ℚ) := by push_cast; rfl
      rw [roundAway, if_pos (hwhole ▸ hscaled), hcast, Int.floor_eq_iff]
      constructor <;> norm_num
    rw [hround]
    push_cast
    rw [mul_div_cancel_right₀ _ hunit.ne']
  · have hpos : (⌊x⌋ : ℚ) < x := lt_of_le_of_ne hfloor (Ne.symm hwhole)
    have hceil : ⌈x⌉ = ⌊x⌋ + 1 := by
      rw [Int.ceil_eq_iff]
      push_cast
      constructor <;> linarith
    have hround (k : ℤ) : k ≤ roundAway (x * 10 ^ s) ↔ (k : ℚ) - 1 / 2 ≤ x * 10 ^ s :=
      le_roundAway_iff hscaled
    -- it is not rounded across the next whole number
    have hle : roundAwayTo s x ≤ ((⌊x⌋ + 1 : ℤ) : ℚ) := by
      rw [roundAwayTo, div_le_iff₀ hunit]
      by_contra hnot
      have hinteger : (⌊x⌋ + 1) * 10 ^ s + 1 ≤ roundAway (x * 10 ^ s) := by
        exact_mod_cast not_le.mp hnot
      have hhigh := (hround _).mp hinteger
      push_cast at hhigh
      have hbound := mul_le_mul_of_nonneg_right hlt.le hunit.le
      linarith
    have hlow : ((⌊x⌋ + 1 : ℤ) : ℚ) - 1 < roundAwayTo s x ↔
        1 / (2 * 10 ^ s) ≤ x - ⌊x⌋ := by
      have hinteger : ((⌊x⌋ + 1 : ℤ) : ℚ) - 1 < roundAwayTo s x ↔
          ⌊x⌋ * 10 ^ s + 1 ≤ roundAway (x * 10 ^ s) := by
        rw [roundAwayTo, lt_div_iff₀ hunit, Int.add_one_le_iff]
        push_cast
        rw [add_sub_cancel_right]
        exact_mod_cast Iff.rfl
      rw [hinteger, hround, ← div_div, div_le_iff₀ hunit]
      push_cast
      constructor <;> intro h <;> linarith
    rw [hceil, Int.ceil_eq_iff, and_iff_left hle, hlow]
    exact ⟨.inr, fun h ↦ h.resolve_left hwhole⟩

end Conjectures.Lib

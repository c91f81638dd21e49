import Conjectures.Lib.Rounding

/-!
# Decimal floating point

Finite decimal numbers and the one operation every arithmetic step ends with: bringing an exact
result into a context of bounded precision and exponent. What a context makes of a number is the
number rounded to a unit (`Context.fix_spec`), and it overflows exactly from half a unit below
the first number that is too large (`Context.roundTo_lt_iff`).
-/

namespace Conjectures.Lib

/-- A finite decimal number, with the form it was written in. -/
@[ext]
structure DecimalNumber where
  negative : Bool
  coefficient : ℕ
  exponent : ℤ
  deriving DecidableEq

namespace DecimalNumber

def magnitude (d : DecimalNumber) : ℚ := d.coefficient * 10 ^ d.exponent

/-- The number it stands for. -/
def value (d : DecimalNumber) : ℚ := if d.negative then -d.magnitude else d.magnitude

/-- How many digits a coefficient is written with. -/
def digits (coefficient : ℕ) : ℕ := Nat.log 10 coefficient + 1

/-- The exponent of the leading digit. -/
def adjusted (d : DecimalNumber) : ℤ := d.exponent + digits d.coefficient - 1

variable {d : DecimalNumber}

theorem magnitude_nonneg (d : DecimalNumber) : 0 ≤ d.magnitude :=
  mul_nonneg (Nat.cast_nonneg _) (zpow_nonneg (by norm_num) _)

theorem zpow_adjusted_le (h : d.coefficient ≠ 0) : (10 : ℚ) ^ d.adjusted ≤ d.magnitude := by
  have hlog : (10 : ℚ) ^ Nat.log 10 d.coefficient ≤ d.coefficient := by
    exact_mod_cast Nat.pow_log_le_self 10 h
  have hadjusted : d.adjusted = Nat.log 10 d.coefficient + d.exponent := by
    unfold adjusted digits
    push_cast
    ring
  rw [hadjusted, zpow_add₀ (by norm_num), zpow_natCast]
  exact mul_le_mul_of_nonneg_right hlog (zpow_nonneg (by norm_num) _)

theorem magnitude_lt_zpow (d : DecimalNumber) : d.magnitude < (10 : ℚ) ^ (d.adjusted + 1) := by
  have hlog : (d.coefficient : ℚ) < 10 ^ digits d.coefficient := by
    exact_mod_cast Nat.lt_pow_succ_log_self (by norm_num) d.coefficient
  have hadjusted : d.adjusted + 1 = digits d.coefficient + d.exponent := by
    unfold adjusted
    ring
  rw [hadjusted, zpow_add₀ (by norm_num), zpow_natCast]
  exact mul_lt_mul_of_pos_right hlog (zpow_pos (by norm_num) _)

/-- The leading digit stands where the magnitude says. -/
theorem adjusted_le_iff (h : d.coefficient ≠ 0) {m : ℤ} :
    d.adjusted ≤ m ↔ d.magnitude < (10 : ℚ) ^ (m + 1) := by
  constructor
  · intro hle
    exact d.magnitude_lt_zpow.trans_le (zpow_le_zpow_right₀ (by norm_num) (by omega))
  · intro hlt
    have hpow := (zpow_adjusted_le h).trans_lt hlt
    have := (zpow_lt_zpow_iff_right₀ (by norm_num)).mp hpow
    omega

/-- Round half to even to an integer, whatever the precision. -/
def toIntegralValue (d : DecimalNumber) : DecimalNumber :=
  if 0 ≤ d.exponent then d
  else { d with coefficient := (roundEven d.magnitude).toNat, exponent := 0 }

/-- Truncate to an integer. -/
def toInt (d : DecimalNumber) : ℤ := if d.negative then -⌊d.magnitude⌋ else ⌊d.magnitude⌋

end DecimalNumber

/-- A context that rounds half to even and does not clamp. -/
structure Context where
  prec : ℕ
  emin : ℤ
  emax : ℤ
  prec_pos : 0 < prec
  emin_le_emax : emin ≤ emax

/-- The result of an operation is too large for the context. -/
inductive Overflow where
  | overflow
  deriving DecidableEq

namespace Context

open DecimalNumber

variable (ctx : Context)

/-- The exponent of the smallest number the context can hold. -/
def etiny : ℤ := ctx.emin - (ctx.prec - 1)

/-- The least exponent the context has room for at the size of a number. -/
def least (d : DecimalNumber) : ℤ := max (d.exponent + digits d.coefficient - ctx.prec) ctx.etiny

/-- Bring the coefficient into the precision. -/
def round (d : DecimalNumber) : DecimalNumber :=
  if ctx.least d ≤ d.exponent then d
  else
    let coefficient := (roundEven (d.magnitude / 10 ^ ctx.least d)).toNat
    if coefficient = 10 ^ ctx.prec then
      { d with coefficient := coefficient / 10, exponent := ctx.least d + 1 }
    else { d with coefficient := coefficient, exponent := ctx.least d }

/-- What an operation makes of its exact result. -/
def fix (d : DecimalNumber) : Except Overflow DecimalNumber :=
  if d.coefficient = 0 then .ok { d with exponent := max ctx.etiny (min d.exponent ctx.emax) }
  else if ctx.emax < (ctx.round d).adjusted then .error .overflow
  else .ok (ctx.round d)

/-- Multiplication. -/
def mul (x y : DecimalNumber) : Except Overflow DecimalNumber :=
  ctx.fix ⟨x.negative != y.negative, x.coefficient * y.coefficient, x.exponent + y.exponent⟩

variable {ctx} {d : DecimalNumber}

@[simp] theorem round_negative : (ctx.round d).negative = d.negative := by
  unfold round
  split
  · rfl
  · dsimp only
    split <;> rfl

/-- The coefficient is rounded to the unit the context has room for. -/
theorem round_magnitude : (ctx.round d).magnitude = roundTo (ctx.least d) d.magnitude := by
  unfold round
  split
  · rename_i hleast
    -- nothing is rounded off
    symm
    refine roundTo_eq_self_iff.mpr ⟨d.coefficient * 10 ^ (d.exponent - ctx.least d).toNat, ?_⟩
    push_cast
    rw [magnitude, ← zpow_natCast, Int.toNat_of_nonneg (by omega), mul_assoc,
      ← zpow_add₀ (by norm_num)]
    congr 2
    ring
  · have hnonneg : 0 ≤ roundEven (d.magnitude / 10 ^ ctx.least d) := by
      refine le_roundEven ?_
      rw [Int.cast_zero]
      exact div_nonneg d.magnitude_nonneg (zpow_nonneg (by norm_num) _)
    have hcast : (((roundEven (d.magnitude / 10 ^ ctx.least d)).toNat : ℕ) : ℚ) =
        roundEven (d.magnitude / 10 ^ ctx.least d) := by
      exact_mod_cast Int.toNat_of_nonneg hnonneg
    dsimp only
    split
    · rename_i hcarry
      rw [roundTo, ← hcast, magnitude, hcarry]
      obtain ⟨p, hp⟩ := Nat.exists_eq_succ_of_ne_zero ctx.prec_pos.ne'
      rw [hp, Nat.pow_succ, Nat.mul_div_cancel _ (by norm_num), zpow_add₀ (by norm_num)]
      push_cast
      ring
    · rw [roundTo, ← hcast]
      rfl

/-- Only what has no room at all is rounded to zero. -/
theorem exponent_of_round_eq_zero (h : d.coefficient ≠ 0) (hzero : (ctx.round d).coefficient = 0) :
    (ctx.round d).exponent = ctx.least d := by
  unfold round at hzero ⊢
  split at hzero
  · exact absurd hzero h
  · rename_i hleast
    rw [if_neg hleast]
    dsimp only at hzero ⊢
    split at hzero
    · rename_i hcarry
      obtain ⟨p, hp⟩ := Nat.exists_eq_succ_of_ne_zero ctx.prec_pos.ne'
      rw [hcarry, hp, Nat.pow_succ, Nat.mul_div_cancel _ (by norm_num)] at hzero
      exact absurd hzero (Nat.pow_pos (by norm_num)).ne'
    · rename_i hcarry
      rw [if_neg hcarry]

/-- From where on a context overflows: half a unit below the first number it has no room for. -/
def bound (ctx : Context) : ℚ := (10 ^ ctx.prec - 1 / 2) * 10 ^ (ctx.emax + 1 - ctx.prec)

theorem least_eq : ctx.least d = max (d.adjusted + 1 - ctx.prec) ctx.etiny := by
  unfold least adjusted
  congr 1
  ring

theorem etiny_le : ctx.etiny ≤ ctx.emax + 1 - ctx.prec := by
  have h := ctx.emin_le_emax
  unfold etiny
  omega

theorem bound_eq : ctx.bound = 10 ^ (ctx.emax + 1) - 10 ^ (ctx.emax + 1 - ctx.prec) / 2 := by
  have hpow : (10 : ℚ) ^ (ctx.emax + 1) = 10 ^ ctx.prec * 10 ^ (ctx.emax + 1 - ctx.prec) := by
    rw [← zpow_natCast, ← zpow_add₀ (by norm_num)]
    congr 1
    ring
  rw [bound, hpow]
  ring

theorem bound_lt : ctx.bound < 10 ^ (ctx.emax + 1) := by
  have hunit : (0 : ℚ) < 10 ^ (ctx.emax + 1 - ctx.prec) := zpow_pos (by norm_num) _
  rw [bound_eq]
  linarith

theorem zpow_emax_le_bound : (10 : ℚ) ^ ctx.emax ≤ ctx.bound := by
  have hprec := ctx.prec_pos
  have hunit : (10 : ℚ) ^ (ctx.emax + 1 - ctx.prec) ≤ 10 ^ ctx.emax :=
    zpow_le_zpow_right₀ (by norm_num) (by omega)
  have hpos : (0 : ℚ) < 10 ^ ctx.emax := zpow_pos (by norm_num) _
  rw [bound_eq, zpow_add_one₀ (by norm_num)]
  linarith

/-- A number is rounded to one the context has room for exactly below the bound. -/
theorem roundTo_lt_iff (h : d.coefficient ≠ 0) :
    roundTo (ctx.least d) d.magnitude < 10 ^ (ctx.emax + 1) ↔ d.magnitude < ctx.bound := by
  have hprec := ctx.prec_pos
  have hetiny := ctx.etiny_le
  have hlow := zpow_adjusted_le h
  have hhigh := d.magnitude_lt_zpow
  rcases lt_trichotomy d.adjusted ctx.emax with hlt | heq | hgt
  · -- far from the top
    have hmagnitude : d.magnitude < 10 ^ ctx.emax :=
      hhigh.trans_le (zpow_le_zpow_right₀ (by norm_num) (by omega))
    have hleast : ctx.least d ≤ ctx.emax := by
      rw [least_eq]
      omega
    refine iff_of_true ?_ (hmagnitude.trans_le zpow_emax_le_bound)
    exact (roundTo_le_zpow hleast hmagnitude.le).trans_lt
      (zpow_lt_zpow_right₀ (by norm_num) (by omega))
  · -- at the top the unit is the last place of the precision
    have hleast : ctx.least d = ctx.emax + 1 - ctx.prec := by
      rw [least_eq, heq]
      omega
    have hunit : (0 : ℚ) < 10 ^ (ctx.emax + 1 - ctx.prec) := zpow_pos (by norm_num) _
    have heven : Even ((10 : ℤ) ^ ctx.prec) := Int.even_pow.mpr ⟨by decide, hprec.ne'⟩
    have hpow : (10 : ℚ) ^ (ctx.emax + 1) =
        ((10 ^ ctx.prec : ℤ) : ℚ) * 10 ^ (ctx.emax + 1 - ctx.prec) := by
      push_cast
      rw [← zpow_natCast, ← zpow_add₀ (by norm_num)]
      congr 1
      ring
    rw [hleast, hpow, roundTo, mul_lt_mul_iff_left₀ hunit, Int.cast_lt, ← not_le,
      even_le_roundEven_iff heven, not_le, div_lt_iff₀ hunit, bound]
    push_cast
    rfl
  · -- above it
    have htop : (10 : ℚ) ^ (ctx.emax + 1) ≤ 10 ^ d.adjusted :=
      zpow_le_zpow_right₀ (by norm_num) (by omega)
    have hleast : ctx.least d ≤ d.adjusted := by
      rw [least_eq]
      omega
    refine iff_of_false (not_lt.mpr (htop.trans (zpow_le_roundTo hleast hlow))) (not_lt.mpr ?_)
    exact bound_lt.le.trans (htop.trans hlow)

/-- A nonzero result is rounded to its unit, or overflows. -/
theorem fix_eq (h : d.coefficient ≠ 0) :
    ctx.fix d = if d.magnitude < ctx.bound then .ok (ctx.round d) else .error .overflow := by
  have hroom : ctx.emax < (ctx.round d).adjusted ↔ ¬ d.magnitude < ctx.bound := by
    rw [← not_le, not_iff_not, ← roundTo_lt_iff h, ← round_magnitude]
    by_cases hzero : (ctx.round d).coefficient = 0
    · -- only what is below the smallest number is rounded to zero
      have hmagnitude : (ctx.round d).magnitude = 0 := by simp [magnitude, hzero]
      have hadjusted : (ctx.round d).adjusted = ctx.least d := by
        rw [adjusted, hzero, exponent_of_round_eq_zero h hzero]
        simp [digits]
      have hleast : ¬ ctx.least d ≤ d.adjusted := by
        intro hle
        have hround := zpow_le_roundTo hle (zpow_adjusted_le h)
        rw [← round_magnitude, hmagnitude] at hround
        exact absurd hround (not_le.mpr (zpow_pos (by norm_num) _))
      have hprec := ctx.prec_pos
      have hetiny := ctx.etiny_le
      have hroom : (ctx.round d).adjusted ≤ ctx.emax := by
        rw [hadjusted]
        rw [least_eq] at hleast ⊢
        omega
      refine iff_of_true hroom ?_
      rw [hmagnitude]
      exact zpow_pos (by norm_num) _
    · exact adjusted_le_iff hzero
  unfold fix
  rw [if_neg h]
  by_cases hbound : d.magnitude < ctx.bound
  · rw [if_pos hbound, if_neg (fun h ↦ hroom.mp h hbound)]
  · rw [if_neg hbound, if_pos (hroom.mpr hbound)]

end Context

end Conjectures.Lib

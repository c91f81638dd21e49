import Conjectures.Lib.Thresholds
import Conjectures.Pricing.Bonus

/-!
# What the database recomputes

The triggers divide again, in `NUMERIC`, and refuse a row whose amount is another.  Python divides
to 80 or to 28 digits, `NUMERIC` to some decimals: the amounts differ where the quotient lies
between what the one and the other round to a whole number or to a half.
-/

namespace Conjectures.Pricing

open Lib

/-- How many decimals the division of two `NUMERIC` values keeps: no fewer than either operand
has, and 16 significant digits. -/
structure NumericDivision where
  scale : ℚ → ℕ → ℚ → ℕ → ℕ
  operands : ∀ x sx y sy, sx ≤ scale x sx y sy ∧ sy ≤ scale x sx y sy
  significant : ∀ x sx y sy, 0 < x → 0 < y → 10 ^ 15 ≤ x / y * 10 ^ scale x sx y sy

/-- `x / y`, of values with these scales. -/
def NumericDivision.quotient (pg : NumericDivision) (x : ℚ) (sx : ℕ) (y : ℚ) (sy : ℕ) : ℚ :=
  roundAwayTo (pg.scale x sx y sy) (x / y)

/-! ## The bonus -/

/-- The scale of `trajectory_payments.alpha_usd`. -/
def alphaUsdScale : ℕ := 18

/-- `ceil(NEW.amount_usd_cents::numeric * 10000000 / NEW.alpha_usd)` -/
def paymentAmount (pg : NumericDivision) (cents : ℤ) (d : DecimalNumber) : ℤ :=
  ⌈pg.quotient (cents * raoPerCent) 0 d.value alphaUsdScale⌉

/-- The quotient is whole, or exceeds its whole part by half a unit of its last decimal. -/
def PaymentAgrees (pg : NumericDivision) (cents : ℤ) (d : DecimalNumber) : Prop :=
  bonusQuotient cents d = ⌊bonusQuotient cents d⌋ ∨
    1 / (2 * 10 ^ pg.scale (cents * raoPerCent) 0 d.value alphaUsdScale) ≤
      bonusQuotient cents d - ⌊bonusQuotient cents d⌋

/-! ## The award -/

/-- `FORMALIZATION_DEFECT_AWARD_USD * RAO_PER_ALPHA`, of scale 2 in the database. -/
def awardUnits : ℚ := 750 * 10 ^ 9

/-- What the award is at the price. -/
def awardQuotient (d : DecimalNumber) : ℚ := awardUnits / d.value

/-- The precision of the default context. -/
def awardPrecision : ℕ := 28

/-- The award of `quote_formalization_defect_award`: a quotient of 28 digits, quantized half up.
An amount of more digits is an invalid operation. -/
def defectAward (d : DecimalNumber) : Option ℤ :=
  let amount := roundAway (significant awardPrecision (awardQuotient d))
  if amount < 10 ^ awardPrecision then some amount else none

/-- The digits a `NUMERIC` may have before the point and after it. -/
def numericDigits : ℕ × ℕ := (131072, 16383)

/-- `str(alpha_usd)` is read as a `NUMERIC`. -/
def NumericFits (d : DecimalNumber) : Prop :=
  d.value < 10 ^ numericDigits.1 ∧ -(numericDigits.2 : ℤ) ≤ d.exponent

/-- The decimals of `str(alpha_usd)`. -/
def decimals (d : DecimalNumber) : ℕ := (-d.exponent).toNat

instance (d : DecimalNumber) : Decidable (NumericFits d) := inferInstanceAs (Decidable (_ ∧ _))

/-- `round(award_usd * 1000000000 / alpha_usd)::BIGINT` -/
def triggerAward (pg : NumericDivision) (d : DecimalNumber) : Option ℤ :=
  if NumericFits d then
    let amount := roundAway (pg.quotient awardUnits 2 d.value (decimals d))
    if amount < 2 ^ 63 then some amount else none
  else none

/-- The price is a `NUMERIC`, the award a `BIGINT`, and the quotient is on the same side of the
two thresholds below the half: half a unit of its 28th digit, and half a unit of the last decimal
the database keeps. -/
def AwardAgrees (pg : NumericDivision) (d : DecimalNumber) : Prop :=
  let quotient := awardQuotient d
  NumericFits d ∧ quotient + 1 / 2 + 1 / (2 * 10 ^ 9) < 2 ^ 63 ∧
    ((⌊quotient⌋ : ℚ) + 1 / 2 - 10 ^ lowestPlace awardPrecision quotient / 2 ≤ quotient ↔
      (⌊quotient⌋ : ℚ) + 1 / 2 - 1 / (2 * 10 ^ pg.scale awardUnits 2 d.value (decimals d)) ≤
        quotient)

variable {pg : NumericDivision} {cents amount : ℤ} {d : DecimalNumber} {price : Numeral}

theorem awardQuotient_pos (h : 0 < d.value) : 0 < awardQuotient d :=
  div_pos (by norm_num [awardUnits]) h

/-- A quotient below `2 ^ 63` keeps nine decimals at least. -/
theorem exists_places {q : ℚ} (hq : 0 < q) (hmax : q < 2 ^ 63) :
    ∃ t : ℕ, 9 ≤ t ∧ lowestPlace awardPrecision q = -t ∧ (2 ^ 63 - 1 ≤ q → t = 9) := by
  have hlog : Int.log 10 q < 19 :=
    (Int.lt_zpow_iff_log_lt (by norm_num) hq).mp (hmax.trans (by norm_num))
  have hplace : lowestPlace awardPrecision q = Int.log 10 q - 27 := by
    rw [lowestPlace, abs_of_pos hq]
    norm_num [awardPrecision]
    ring
  refine ⟨(27 - Int.log 10 q).toNat, by omega, by omega, fun hlow ↦ ?_⟩
  have hge : 18 ≤ Int.log 10 q :=
    (Int.zpow_le_iff_le_log (by norm_num) hq).mp ((by norm_num : (_ : ℚ) ≤ _).trans hlow)
  omega

/-- The award of a quotient below `2 ^ 63`. -/
theorem roundAway_significant {q : ℚ} (hq : 0 < q) (hmax : q < 2 ^ 63) :
    roundAway (significant awardPrecision q) =
      if (⌊q⌋ : ℚ) + 1 / 2 - 10 ^ lowestPlace awardPrecision q / 2 ≤ q then ⌊q⌋ + 1 else ⌊q⌋ := by
  obtain ⟨t, ht, hplace, -⟩ := exists_places hq hmax
  have hnear : |q - roundTo (-t) q| ≤ 1 / (2 * 10 ^ t) := by
    rw [← zpow_neg_div_two]
    exact abs_sub_roundTo_le _ _
  rw [significant, hplace, roundAway_of_rounded (roundTo_nonneg _ hq.le) (by omega) hnear,
    zpow_neg_div_two]
  simp only [half_le_roundTo_iff (show 2 ≤ t by omega)]

theorem roundAway_quotient {x y : ℚ} {sx sy : ℕ} (hx : 0 < x) (hy : 0 < y) (hsx : 2 ≤ sx) :
    roundAway (pg.quotient x sx y sy) =
      if (⌊x / y⌋ : ℚ) + 1 / 2 - 1 / (2 * 10 ^ pg.scale x sx y sy) ≤ x / y then ⌊x / y⌋ + 1
      else ⌊x / y⌋ := by
  have hq : 0 ≤ x / y := (div_pos hx hy).le
  have hscale : 2 ≤ pg.scale x sx y sy := hsx.trans (pg.operands x sx y sy).1
  rw [NumericDivision.quotient, roundAway_of_rounded (roundAwayTo_nonneg hq) (by omega)
    (abs_sub_roundAwayTo_le hq)]
  simp only [half_le_roundAwayTo_iff hq (show 0 < pg.scale x sx y sy by omega)]

/-- An award is a `BIGINT` where its quotient is below, but for what is rounded up. -/
theorem award_lt_iff {q : ℚ} (hq : 0 < q) :
    roundAway (significant awardPrecision q) < 2 ^ 63 ↔ q + 1 / 2 + 1 / (2 * 10 ^ 9) < 2 ^ 63 := by
  by_cases hmax : q < 2 ^ 63
  · have hfloor := Int.floor_le q
    have hlt := Int.lt_floor_add_one q
    have hfloor_lt : ⌊q⌋ < 2 ^ 63 := Int.floor_lt.mpr (by exact_mod_cast hmax)
    obtain ⟨t, ht, hplace, hlast⟩ := exists_places hq hmax
    rw [roundAway_significant hq hmax, hplace, zpow_neg_div_two]
    by_cases hn : ⌊q⌋ = 2 ^ 63 - 1
    · have hcast : (⌊q⌋ : ℚ) = 2 ^ 63 - 1 := by
        rw [hn]
        norm_num
      obtain rfl := hlast (hcast ▸ hfloor)
      rw [hcast, hn]
      split
      · next h => exact iff_of_false (by norm_num) (by linarith)
      · next h => exact iff_of_true (by norm_num) (by linarith)
    · have hsmall : (⌊q⌋ : ℚ) ≤ 2 ^ 63 - 2 := by
        have : ⌊q⌋ ≤ 2 ^ 63 - 2 := by omega
        exact_mod_cast this
      refine iff_of_true ?_ (by norm_num; linarith)
      split <;> omega
  · refine iff_of_false (not_lt.mpr ?_) (by norm_num; linarith)
    have hclose := @abs_sub_significant_le awardPrecision _ hq
    have hp : 0 ≤ significant awardPrecision q := roundTo_nonneg _ hq.le
    have hlow := (le_abs_self _).trans ((le_div_iff₀ (by positivity)).mpr hclose)
    have hfine : 5 * q / 10 ^ awardPrecision ≤ q / 10 ^ 27 := by
      norm_num [awardPrecision]
      linarith
    rw [le_roundAway_iff hp]
    norm_num at hmax hfine ⊢
    linarith

/-! ## Where the amounts agree -/

theorem paymentAmount_eq_iff (hcents : 0 < cents) (hmax : cents < 2 ^ 63)
    (hprice : AcceptedPrice price d) (h : alphaAmount cents price = .ok amount) :
    paymentAmount pg cents d = amount ↔ PaymentAgrees pg cents d := by
  rw [alphaAmount_of_accepted hcents hmax hprice] at h
  split at h
  · next hrange =>
    obtain rfl := Except.ok.inj h
    have hq : 0 ≤ bonusQuotient cents d := by
      by_contra hneg
      have := Int.ceil_le_ceil (not_le.mp hneg).le
      rw [Int.ceil_zero] at this
      omega
    exact ceil_roundAwayTo hq
  · cases h

/-- One more or not, on either side. -/
theorem step_eq_iff {p q : Prop} [Decidable p] [Decidable q] {n : ℤ} :
    ((if q then n + 1 else n) = if p then n + 1 else n) ↔ (p ↔ q) := by
  by_cases hp : p <;> by_cases hq : q <;> simp [hp, hq]

theorem triggerAward_eq_iff (h : 0 < d.value) (haward : defectAward d = some amount) :
    triggerAward pg d = some amount ↔ AwardAgrees pg d := by
  have hq := awardQuotient_pos h
  have hamount : roundAway (significant awardPrecision (awardQuotient d)) = amount := by
    unfold defectAward at haward
    dsimp only at haward
    split at haward
    · exact Option.some.inj haward
    · cases haward
  have hrange := award_lt_iff hq
  rw [hamount] at hrange
  have htrigger : triggerAward pg d = some amount ↔ NumericFits d ∧ amount < 2 ^ 63 ∧
      roundAway (pg.quotient awardUnits 2 d.value (decimals d)) = amount := by
    unfold triggerAward
    split
    · next hfits =>
      dsimp only
      split
      · next hlt =>
        rw [Option.some.injEq]
        exact ⟨fun heq ↦ ⟨hfits, heq ▸ hlt, heq⟩, fun heq ↦ heq.2.2⟩
      · next hlt => exact iff_of_false nofun fun heq ↦ hlt (heq.2.2.symm ▸ heq.2.1)
    · next hfits => exact iff_of_false nofun fun heq ↦ hfits heq.1
  rw [htrigger, AwardAgrees, hrange]
  refine and_congr_right fun _ ↦ and_congr_right fun hlt ↦ ?_
  have hmax : awardQuotient d < 2 ^ 63 := by
    have : (0 : ℚ) < 1 / (2 * 10 ^ 9) := by norm_num
    linarith
  rw [← hamount, roundAway_significant hq hmax,
    roundAway_quotient (by norm_num [awardUnits]) h le_rfl]
  exact step_eq_iff

/-- Whatever decimals the database keeps: the payment trigger recomputes the amount of a bonus
exactly where its quotient is whole or exceeds its whole part by half a unit of the last decimal,
and the award trigger that of an award exactly where price and award fit and the quotient is on
one side of both thresholds below the half. -/
theorem recomputed_iff (pg : NumericDivision) :
    (∀ (cents amount : ℤ) (price : Numeral) (d : DecimalNumber), 0 < cents → cents < 2 ^ 63 →
      AcceptedPrice price d → alphaAmount cents price = .ok amount →
      (paymentAmount pg cents d = amount ↔ PaymentAgrees pg cents d)) ∧
    ∀ (d : DecimalNumber) (amount : ℤ), 0 < d.value → defectAward d = some amount →
      (triggerAward pg d = some amount ↔ AwardAgrees pg d) :=
  ⟨fun _ _ _ _ ↦ paymentAmount_eq_iff, fun _ _ ↦ triggerAward_eq_iff⟩

/-! ## Prices at which they differ -/

/-- As many decimals as the operands have, and more only for 16 significant digits. -/
def fewestDecimals : NumericDivision where
  scale x sx y sy :=
    if 10 ^ 15 ≤ x / y * 10 ^ max sx sy then max sx sy
    else max sx sy + (15 - Int.log 10 (x / y)).toNat
  operands x sx y sy := by
    split <;> omega
  significant x sx y sy hx hy := by
    split
    · next h => exact h
    · have hq : 0 < x / y := div_pos hx hy
      have hlog : (10 : ℚ) ^ Int.log 10 (x / y) ≤ x / y := by
        exact_mod_cast Int.zpow_log_le_self (by norm_num) hq
      calc (10 : ℚ) ^ 15
          ≤ 10 ^ (Int.log 10 (x / y) + ((15 - Int.log 10 (x / y)).toNat : ℤ)) := by
            rw [← zpow_natCast]
            exact zpow_le_zpow_right₀ (by norm_num) (by push_cast; omega)
        _ = 10 ^ Int.log 10 (x / y) * 10 ^ (15 - Int.log 10 (x / y)).toNat := by
            rw [zpow_add₀ (by norm_num), zpow_natCast]
        _ ≤ x / y * 10 ^ (15 - Int.log 10 (x / y)).toNat := by gcongr
        _ ≤ x / y * 10 ^ (max sx sy + (15 - Int.log 10 (x / y)).toNat) := by
            gcongr
            · norm_num
            · omega

/-- Neither the bonus nor the award is a whole number of rao, and both are recomputed. -/
theorem recomputed_sevenths :
    paymentAmount fewestDecimals 25000 sevenDollars = 35714285715 ∧
      triggerAward fewestDecimals sevenDollars = some 107142857143 := by
  have hpos : 0 < sevenDollars.value := by
    norm_num [sevenDollars_value]
  constructor
  · have hquotient : bonusQuotient 25000 sevenDollars = 250000000000 / 7 := by
      norm_num [bonusQuotient, sevenDollars_value, raoPerCent]
    have hceil : ⌈bonusQuotient 25000 sevenDollars⌉ = 35714285715 := by
      rw [hquotient, Int.ceil_eq_iff]
      norm_num
    have hfloor : ⌊bonusQuotient 25000 sevenDollars⌋ = 35714285714 := by
      rw [hquotient, Int.floor_eq_iff]
      norm_num
    have hamount : alphaAmount 25000 (.finite sevenDollars) = .ok 35714285715 := by
      rw [alphaAmount_of_accepted (by norm_num) (by norm_num) sevenDollars_accepted, hceil]
      norm_num
    refine ((recomputed_iff fewestDecimals).1 25000 _ _ _ (by norm_num) (by norm_num)
      sevenDollars_accepted hamount).mpr (.inr ?_)
    -- two sevenths are more than half of any unit
    have hunit : (1 : ℚ) / (2 * 10 ^ fewestDecimals.scale (25000 * raoPerCent) 0
        sevenDollars.value alphaUsdScale) ≤ 1 / (2 * 10 ^ 18) := by
      gcongr
      · norm_num
      · exact (fewestDecimals.operands _ _ _ _).2
    rw [hfloor, hquotient]
    refine le_trans ?_ (hunit.trans ?_) <;> norm_num
  · have hquotient : awardQuotient sevenDollars = 750000000000 / 7 := by
      norm_num [awardQuotient, awardUnits, sevenDollars_value]
    have hfloor : ⌊awardQuotient sevenDollars⌋ = 107142857142 := by
      rw [hquotient, Int.floor_eq_iff]
      norm_num
    have hhalf : (⌊awardQuotient sevenDollars⌋ : ℚ) + 1 / 2 ≤ awardQuotient sevenDollars := by
      rw [hfloor, hquotient]
      norm_num
    have hround : (⌊awardQuotient sevenDollars⌋ : ℚ) + 1 / 2 -
        10 ^ lowestPlace awardPrecision (awardQuotient sevenDollars) / 2 ≤
          awardQuotient sevenDollars :=
      (sub_le_self _ (by positivity)).trans hhalf
    have haward : defectAward sevenDollars = some 107142857143 := by
      have hmax : awardQuotient sevenDollars < 2 ^ 63 := by
        rw [hquotient]
        norm_num
      rw [defectAward, roundAway_significant (awardQuotient_pos hpos) hmax, if_pos hround, hfloor]
      rfl
    have hfits : NumericFits sevenDollars := by
      refine ⟨lt_of_lt_of_le ?_ (pow_le_pow_right₀ (by norm_num)
        (by decide : 1 ≤ numericDigits.1)), by decide⟩
      norm_num [sevenDollars_value]
    refine ((recomputed_iff fewestDecimals).2 _ _ hpos haward).mpr ⟨hfits, ?_, ?_⟩
    · rw [hquotient]
      norm_num
    · exact iff_of_true hround ((sub_le_self _ (by positivity)).trans hhalf)

/-- 250 USD at a price of 18 decimals. -/
def paymentPrice : DecimalNumber := ⟨false, 50000000010000000002, -18⟩

/-- A price of 8 decimals. -/
def awardPrice : DecimalNumber := ⟨false, 467933331, -8⟩

/-- The bonus is prepared and is one rao more than the trigger's; the award is quoted and is one
less. -/
theorem recomputed_otherwise :
    (alphaAmount 25000 (.finite paymentPrice) = .ok 5000000000 ∧
      paymentAmount fewestDecimals 25000 paymentPrice = 4999999999) ∧
    defectAward awardPrice = some 160279242856 ∧
      triggerAward fewestDecimals awardPrice = some 160279242857 := by
  have hpayment : paymentPrice.value = 50000000010000000002 / 10 ^ 18 := by
    norm_num [paymentPrice, DecimalNumber.value, DecimalNumber.magnitude]
  have haward : awardPrice.value = 467933331 / 10 ^ 8 := by
    norm_num [awardPrice, DecimalNumber.value, DecimalNumber.magnitude]
  have hquotient : awardQuotient awardPrice = 75000000000000000000 / 467933331 := by
    rw [awardQuotient, haward]
    norm_num [awardUnits]
  have hfloor : ⌊awardQuotient awardPrice⌋ = 160279242856 := by
    rw [hquotient, Int.floor_eq_iff]
    norm_num
  have hpos : 0 < awardQuotient awardPrice := by
    rw [hquotient]
    norm_num
  have hmax : awardQuotient awardPrice < 2 ^ 63 := by
    rw [hquotient]
    norm_num
  refine ⟨⟨?_, ?_⟩, ?_, ?_⟩
  · have hprice : AcceptedPrice (.finite paymentPrice) paymentPrice := by
      refine ⟨rfl, ?_, le_rfl, ?_⟩ <;> rw [hpayment] <;> norm_num
    have hceil : ⌈bonusQuotient 25000 paymentPrice⌉ = 5000000000 := by
      rw [bonusQuotient, hpayment, Int.ceil_eq_iff]
      norm_num [raoPerCent]
    rw [alphaAmount_of_accepted (by norm_num) (by norm_num) hprice, hceil]
    norm_num
  · have hscale : fewestDecimals.scale (25000 * raoPerCent) 0 paymentPrice.value alphaUsdScale =
        18 := if_pos (by rw [hpayment]; norm_num [raoPerCent, alphaUsdScale])
    have hround : roundAway ((25000 : ℤ) * raoPerCent / paymentPrice.value * 10 ^ 18) =
        4999999999 * 10 ^ 18 := by
      rw [hpayment, roundAway, if_pos (by norm_num [raoPerCent]), Int.floor_eq_iff]
      norm_num [raoPerCent]
    have hcents : (((25000 : ℤ) : ℚ) * raoPerCent) = 25000 * raoPerCent := by norm_num
    rw [paymentAmount, NumericDivision.quotient, hcents, hscale, roundAwayTo, ← hcents, hround]
    norm_num
  · obtain ⟨t, ht, hplace, -⟩ := exists_places hpos hmax
    have hunit : (1 : ℚ) / (2 * 10 ^ t) ≤ 1 / (2 * 10 ^ 9) := by
      gcongr
      norm_num
    have hround : roundAway (significant awardPrecision (awardQuotient awardPrice)) =
        160279242856 := by
      rw [roundAway_significant hpos hmax, hfloor, hplace, zpow_neg_div_two, if_neg]
      rw [hquotient, not_le]
      norm_num at hunit ⊢
      linarith
    rw [defectAward, hround]
    rfl
  · have hfits : NumericFits awardPrice := by
      refine ⟨lt_of_lt_of_le ?_ (pow_le_pow_right₀ (by norm_num)
        (by decide : 1 ≤ numericDigits.1)), by decide⟩
      rw [haward]
      norm_num
    have hdecimals : decimals awardPrice = 8 := rfl
    have hscale : fewestDecimals.scale awardUnits 2 awardPrice.value (decimals awardPrice) = 8 :=
      if_pos (by rw [haward, hdecimals]; norm_num [awardUnits])
    have hround : roundAway (fewestDecimals.quotient awardUnits 2 awardPrice.value
        (decimals awardPrice)) = 160279242857 := by
      rw [roundAway_quotient (by norm_num [awardUnits]) (by rw [haward]; norm_num) le_rfl, hscale]
      change (if (⌊awardQuotient awardPrice⌋ : ℚ) + 1 / 2 - 1 / (2 * 10 ^ 8) ≤
        awardQuotient awardPrice then ⌊awardQuotient awardPrice⌋ + 1
        else ⌊awardQuotient awardPrice⌋) = _
      rw [hfloor, if_pos]
      · norm_num
      · rw [hquotient]
        norm_num
    rw [triggerAward, if_pos hfits, hround]
    rfl

end Conjectures.Pricing

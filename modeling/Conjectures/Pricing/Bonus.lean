import Conjectures.Lib.Numerals
import Conjectures.Lib.Quotients

/-!
# The bonus in Alpha

`alpha_amount`: cents at a price, rounded up to whole rao, in decimal arithmetic of 80 digits.

Eighty digits are enough: cents fit a signed column of 64 bits and a price has at most 38 digits, so
that rounding the quotient never crosses a whole number (`ceil_bonus`).
-/

namespace Conjectures.Pricing

open Lib

/-- What `alpha_amount` refuses with. -/
inductive PriceRefusal where
  /-- Alpha price must be positive with at most 18 decimal places. -/
  | price
  /-- Converted bonus is outside the supported Alpha range. -/
  | range
  deriving DecidableEq

/-- The number of `0.01 USD` in a rao at a price of `1`, for each cent. -/
def raoPerCent : ℤ := 10000000

/-- `context.prec` -/
def bonusPrecision : ℕ := 80

/-- `alpha_amount` -/
def alphaAmount (cents : ℤ) (price : Numeral) : Except PriceRefusal ℤ :=
  match price with
  | .special => .error .price
  | .finite d =>
    if d.value ≤ 0 ∨ d.exponent < -18 ∨ 10 ^ 20 ≤ d.value then .error .price
    else
      let scaled := significant bonusPrecision (cents * raoPerCent : ℤ)
      let amount := ⌈significant bonusPrecision (scaled / d.value)⌉
      if 0 < amount ∧ amount < 2 ^ 63 then .ok amount else .error .range

/-- The prices that are accepted: finite, positive, with 18 decimals, below `10 ^ 20`. -/
def AcceptedPrice (price : Numeral) (d : DecimalNumber) : Prop :=
  price = .finite d ∧ 0 < d.value ∧ -18 ≤ d.exponent ∧ d.value < 10 ^ 20

/-- What the cents are at the price. -/
def bonusQuotient (cents : ℤ) (d : DecimalNumber) : ℚ := cents * raoPerCent / d.value

variable {cents : ℤ} {d : DecimalNumber} {price : Numeral}

theorem value_eq_magnitude (h : 0 < d.value) : d.value = d.magnitude := by
  unfold DecimalNumber.value at h ⊢
  split
  · next hneg =>
    rw [if_pos hneg] at h
    exact absurd d.magnitude_nonneg (not_le.mpr (neg_pos.mp h))
  · rfl

/-- With 18 decimals at most, the quotient is one of whole numbers. -/
theorem bonusQuotient_eq (hcents : 0 < cents) (hvalue : 0 < d.value)
    (hexponent : -18 ≤ d.exponent) :
    0 < d.coefficient * 10 ^ (d.exponent + 18).toNat ∧
      bonusQuotient cents d = ((cents * raoPerCent).toNat * 10 ^ 18 : ℕ) /
        (d.coefficient * 10 ^ (d.exponent + 18).toNat : ℕ) := by
  have hmagnitude := value_eq_magnitude hvalue
  have hscale : ((d.coefficient * 10 ^ (d.exponent + 18).toNat : ℕ) : ℚ) = d.value * 10 ^ 18 := by
    rw [hmagnitude, DecimalNumber.magnitude]
    push_cast
    rw [← zpow_natCast, Int.toNat_of_nonneg (by omega), zpow_add₀ (by norm_num), ← mul_assoc]
    norm_num
  constructor
  · have : (0 : ℚ) < (d.coefficient * 10 ^ (d.exponent + 18).toNat : ℕ) := by
      rw [hscale]
      positivity
    exact_mod_cast this
  · have hnumerator : (((cents * raoPerCent).toNat * 10 ^ 18 : ℕ) : ℚ) =
        cents * raoPerCent * 10 ^ 18 := by
      have hnonneg : 0 ≤ cents * raoPerCent := by
        unfold raoPerCent
        omega
      have hcast : (((cents * raoPerCent).toNat : ℤ) : ℚ) = ((cents * raoPerCent : ℤ) : ℚ) := by
        rw [Int.toNat_of_nonneg hnonneg]
      rw [Nat.cast_mul, Nat.cast_pow, ← Int.cast_natCast, hcast, Int.cast_mul]
      rfl
    rw [hnumerator, hscale, bonusQuotient, mul_div_mul_right _ _ (by norm_num)]

/-- The amount is the exact ceiling. -/
theorem ceil_bonus (hcents : 0 < cents) (hmax : cents < 2 ^ 63) (hvalue : 0 < d.value)
    (hexponent : -18 ≤ d.exponent) :
    ⌈significant bonusPrecision
        (significant bonusPrecision (cents * raoPerCent : ℤ) / d.value)⌉ =
      ⌈bonusQuotient cents d⌉ := by
  have hpos : 0 < cents * raoPerCent := by
    unfold raoPerCent
    omega
  have hfew : cents * raoPerCent < 10 ^ 27 := by
    unfold raoPerCent
    omega
  have hscaled : significant bonusPrecision (cents * raoPerCent : ℤ) =
      ((cents * raoPerCent : ℤ) : ℚ) := by
    refine significant_intCast ?_
    rw [abs_of_pos (by exact_mod_cast hpos)]
    exact_mod_cast hfew.trans (by norm_num [bonusPrecision])
  rw [hscaled]
  push_cast
  change ⌈significant bonusPrecision (bonusQuotient cents d)⌉ = _
  obtain ⟨hdivisor, hquotient⟩ := bonusQuotient_eq hcents hvalue hexponent
  rw [hquotient]
  refine ceil_significant ?_ hdivisor ?_
  · exact Nat.mul_pos (by omega) (by norm_num)
  · unfold bonusPrecision
    omega

theorem alphaAmount_of_accepted (hcents : 0 < cents) (hmax : cents < 2 ^ 63)
    (hprice : AcceptedPrice price d) :
    alphaAmount cents price =
      if 0 < ⌈bonusQuotient cents d⌉ ∧ ⌈bonusQuotient cents d⌉ < 2 ^ 63 then
        .ok ⌈bonusQuotient cents d⌉ else .error .range := by
  obtain ⟨rfl, hvalue, hexponent, hbound⟩ := hprice
  have haccepted : ¬ (d.value ≤ 0 ∨ d.exponent < -18 ∨ 10 ^ 20 ≤ d.value) := by
    rintro (h | h | h)
    · exact absurd hvalue (not_lt.mpr h)
    · omega
    · exact absurd hbound (not_lt.mpr h)
  rw [alphaAmount, if_neg haccepted]
  dsimp only
  rw [ceil_bonus hcents hmax hvalue hexponent]

/-- More cents at a lower price are no fewer rao. -/
theorem bonusQuotient_mono {cents' : ℤ} {d' : DecimalNumber} (hcents : 0 < cents')
    (hle : cents' ≤ cents) (hvalue : 0 < d.value) (hprice : d.value ≤ d'.value) :
    bonusQuotient cents' d' ≤ bonusQuotient cents d := by
  have hnumerator : (cents' : ℚ) * raoPerCent ≤ cents * raoPerCent := by
    have : cents' * raoPerCent ≤ cents * raoPerCent :=
      mul_le_mul_of_nonneg_right hle (by decide)
    exact_mod_cast this
  have hnonneg : (0 : ℚ) ≤ cents * raoPerCent := by
    have : 0 ≤ cents * raoPerCent := mul_nonneg (by omega) (by decide)
    exact_mod_cast this
  exact div_le_div₀ hnonneg hnumerator hvalue hprice

/-- For every amount of cents and every price that is accepted, `alpha_amount` is the ceiling of
the exact quotient, and refuses where that is out of range.  The bonus is not underpaid; it does
not fall with the cents, and does not rise with the price. -/
theorem alphaAmount_exact (cents : ℤ) (hcents : 0 < cents) (hmax : cents < 2 ^ 63)
    (price : Numeral) (d : DecimalNumber) (hprice : AcceptedPrice price d) :
    (∀ amount, alphaAmount cents price = .ok amount ↔
      amount = ⌈(cents * 10 ^ 7 : ℚ) / d.value⌉ ∧ 0 < amount ∧ amount < 2 ^ 63) ∧
    (alphaAmount cents price = .error .range ↔
      ¬ (0 < ⌈(cents * 10 ^ 7 : ℚ) / d.value⌉ ∧ ⌈(cents * 10 ^ 7 : ℚ) / d.value⌉ < 2 ^ 63)) ∧
    alphaAmount cents price ≠ .error .price ∧
    (∀ amount, alphaAmount cents price = .ok amount → (cents * 10 ^ 7 : ℚ) ≤ amount * d.value) ∧
    ∀ cents' price' d' amount amount', 0 < cents' → cents' ≤ cents → AcceptedPrice price' d' →
      d.value ≤ d'.value → alphaAmount cents price = .ok amount →
      alphaAmount cents' price' = .ok amount' → amount' ≤ amount := by
  have hquotient : bonusQuotient cents d = (cents * 10 ^ 7 : ℚ) / d.value := by
    norm_num [bonusQuotient, raoPerCent]
  have hamount := alphaAmount_of_accepted hcents hmax hprice
  rw [← hquotient]
  have hok (amount : ℤ) : alphaAmount cents price = .ok amount ↔
      amount = ⌈bonusQuotient cents d⌉ ∧ 0 < amount ∧ amount < 2 ^ 63 := by
    rw [hamount]
    split
    next hrange =>
      rw [Except.ok.injEq]
      exact ⟨by rintro rfl; exact ⟨rfl, hrange⟩, fun h ↦ h.1.symm⟩
    next hrange =>
      refine ⟨nofun, ?_⟩
      rintro ⟨rfl, hrange'⟩
      exact absurd hrange' hrange
  refine ⟨hok, ?_, ?_, ?_, ?_⟩
  · rw [hamount]
    split <;> simp_all
  · rw [hamount]
    split <;> simp
  · intro amount h
    obtain ⟨rfl, -⟩ := (hok amount).mp h
    have hle := Int.le_ceil (bonusQuotient cents d)
    rw [hquotient, div_le_iff₀ hprice.2.1] at hle
    rwa [hquotient]
  · intro cents' price' d' amount amount' hcents' hle hprice' hvalue h h'
    obtain ⟨rfl, -⟩ := (hok amount).mp h
    rw [alphaAmount_of_accepted hcents' (hle.trans_lt hmax) hprice'] at h'
    split at h'
    · obtain rfl := Except.ok.inj h'
      exact Int.ceil_mono (bonusQuotient_mono hcents' hle hprice.2.1 hvalue)
    · cases h'

/-! ## An example -/

def sevenDollars : DecimalNumber := ⟨false, 7, 0⟩

theorem sevenDollars_value : sevenDollars.value = 7 := by
  norm_num [sevenDollars, DecimalNumber.value, DecimalNumber.magnitude]

theorem sevenDollars_accepted : AcceptedPrice (.finite sevenDollars) sevenDollars := by
  refine ⟨rfl, ?_, by decide, ?_⟩ <;> norm_num [sevenDollars_value]

/-- 250 USD are no whole number of rao. -/
theorem alphaAmount_of_sevenths :
    alphaAmount 25000 (.finite sevenDollars) = .ok 35714285715 := by
  refine ((alphaAmount_exact 25000 (by norm_num) (by norm_num) _ _ sevenDollars_accepted).1 _).mpr
    ⟨?_, by norm_num, by norm_num⟩
  rw [sevenDollars_value, eq_comm, Int.ceil_eq_iff]
  norm_num

end Conjectures.Pricing

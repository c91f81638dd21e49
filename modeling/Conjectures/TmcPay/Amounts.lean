import Conjectures.Lib.Numerals
import Conjectures.Db.Instructions

/-!
# From TAO to rao and back

`rao_from_tao` and `tao_from_rao` of `submission_api/tmc_pay.py`. The first reads a decimal text
exactly and then multiplies it in the default arithmetic, which keeps 28 digits; its test for a
whole number of rao is made of the product, after the rounding.
-/

namespace Conjectures.TmcPay

open Lib Db

/-- `RAO_PER_TAO`. -/
def raoPerTao : ℕ := 1000000000

/-- The default context of the arithmetic. -/
def defaultContext : Context where
  prec := 28
  emin := -999999
  emax := 999999
  prec_pos := by decide
  emin_le_emax := by decide

/-- `Decimal(text)`. -/
def decimal? (u : Decimals) (text : String) : Option Numeral := u.number? (strip text).toList

inductive AmountError where
  /-- invoice amount is not a decimal number -/
  | notADecimal (amount : String)
  /-- invoice amount is not finite and positive -/
  | notPositive (amount : String)
  /-- invoice amount is finer than one rao and cannot be credited exactly -/
  | finerThanOneRao (amount : String)
  /-- the arithmetic's own exception, which nothing catches -/
  | overflow
  /-- a TAO amount cannot be negative -/
  | negative
  deriving DecidableEq

/-- The product whose fraction is looked at. -/
def product (value : DecimalNumber) : DecimalNumber :=
  ⟨value.negative != false, value.coefficient * raoPerTao, value.exponent + 0⟩

/-- Integer rao from a decimal TAO string. -/
def raoFromTao (u : Decimals) (amount : String) : Except AmountError Rao :=
  match decimal? u (strip amount) with
  | none => .error (.notADecimal amount)
  | some .special => .error (.notPositive amount)
  | some (.finite value) =>
    if value.value ≤ 0 then .error (.notPositive amount)
    else
      match defaultContext.mul value ⟨false, raoPerTao, 0⟩ with
      | .error _ => .error .overflow
      | .ok scaled =>
        if scaled.value ≠ scaled.toIntegralValue.value then .error (.finerThanOneRao amount)
        else .ok scaled.toInt

/-- A decimal TAO string from integer rao, by string arithmetic. -/
def taoFromRao (amountRao : Rao) : Except AmountError String := do
  require (0 ≤ amountRao) .negative
  let whole := Nat.toDigits 10 (amountRao.toNat / raoPerTao)
  let fraction := (Nat.toDigits 10 (amountRao.toNat % raoPerTao)).leftpad 9 '0'
  let rendered := ((whole ++ '.' :: fraction).rdropWhile (· = '0')).rdropWhile (· = '.')
  return String.ofList (if rendered = [] then ['0'] else rendered)

/-! ## What a text denotes -/

/-- The rational number a text denotes, read exactly. -/
def Denotes (u : Decimals) (amount : String) (v : ℚ) : Prop :=
  ∃ d, u.numeral? (strip (strip amount)).toList = some (.finite d) ∧ d.value = v

/-- The text's amount in rao is this integer, exactly. -/
def DenotesRao (u : Decimals) (amount : String) (n : ℤ) : Prop :=
  0 < n ∧ ∃ v, Denotes u amount v ∧ v * raoPerTao = n

/-- The conversion is exact or refuses. -/
structure ExactOrRefused (u : Decimals) (amount : String) : Prop where
  exact : ∀ n, raoFromTao u amount = .ok n ↔ DenotesRao u amount n
  refuses : (¬ ∃ n, DenotesRao u amount n) → ∃ e, raoFromTao u amount = .error e ∧ e ≠ .overflow

/-- The place of the last digit the arithmetic keeps of a number's amount in rao. -/
def lastPlace (d : DecimalNumber) : ℤ := defaultContext.least (product d)

/-- Multiplying the number by the rao in a TAO is within the arithmetic: the result has room, and
either loses no digit or stays clear of every integer by more than what is lost. -/
structure Kept (d : DecimalNumber) : Prop where
  room : d.magnitude * raoPerTao < defaultContext.bound
  clear : (∃ k : ℤ, d.magnitude * raoPerTao = k * 10 ^ lastPlace d) ∨
    ∀ m : ℤ, 10 ^ lastPlace d / 2 < |d.magnitude * raoPerTao - m|

/-- Every positive number the text denotes is kept, if the type can hold it. -/
def Safe (u : Decimals) (amount : String) : Prop :=
  ∀ d, u.numeral? (strip (strip amount)).toList = some (.finite d) → 0 < d.value →
    minEtiny ≤ d.exponent → Kept d

/-! ## The product -/

theorem product_magnitude (d : DecimalNumber) :
    (product d).magnitude = d.magnitude * raoPerTao := by
  unfold product DecimalNumber.magnitude
  push_cast
  rw [add_zero]
  ring

/-- A number at least zero is written without a minus, or is zero. -/
theorem negative_of_value_pos {d : DecimalNumber} (h : 0 < d.value) :
    d.negative = false ∧ d.coefficient ≠ 0 := by
  have hnonneg := d.magnitude_nonneg
  unfold DecimalNumber.value at h
  split at h
  · linarith
  · rename_i hnegative
    refine ⟨Bool.eq_false_iff.mpr hnegative, ?_⟩
    intro hzero
    rw [DecimalNumber.magnitude, hzero] at h
    simp at h

/-- A number is what rounding it to an integer leaves exactly where it is an integer. -/
theorem value_eq_toIntegralValue_iff {d : DecimalNumber} (h : d.negative = false) :
    d.value = d.toIntegralValue.value ↔ ∃ m : ℤ, d.magnitude = m := by
  unfold DecimalNumber.toIntegralValue
  split
  · rename_i hexponent
    refine iff_of_true rfl ⟨d.coefficient * 10 ^ d.exponent.toNat, ?_⟩
    push_cast
    rw [DecimalNumber.magnitude, ← zpow_natCast, Int.toNat_of_nonneg hexponent]
  · have hnonneg : 0 ≤ roundEven d.magnitude := le_roundEven (by exact_mod_cast d.magnitude_nonneg)
    have hcast : (((roundEven d.magnitude).toNat : ℕ) : ℚ) = roundEven d.magnitude := by
      exact_mod_cast Int.toNat_of_nonneg hnonneg
    simp only [DecimalNumber.value, h, Bool.false_eq_true, if_false]
    conv_lhs => rhs; rw [DecimalNumber.magnitude, hcast, zpow_zero, mul_one]
    constructor
    · intro heq
      exact ⟨_, heq⟩
    · rintro ⟨m, hm⟩
      rw [hm, roundEven_intCast]

/-! ## What the code makes of a number -/

section Finite

variable {u : Decimals} {amount : String} {d : DecimalNumber}
  (hd : u.numeral? (strip (strip amount)).toList = some (.finite d))
include hd

theorem decimal?_of_finite :
    decimal? u (strip amount) = if d.Fits then some (.finite d) else none := by
  unfold decimal? Decimals.number?
  rw [hd]

theorem raoFromTao_of_not_fits (h : ¬ d.Fits) :
    raoFromTao u amount = .error (.notADecimal amount) := by
  unfold raoFromTao
  rw [decimal?_of_finite hd, if_neg h]

theorem raoFromTao_of_not_pos (h : d.Fits) (hvalue : d.value ≤ 0) :
    raoFromTao u amount = .error (.notPositive amount) := by
  unfold raoFromTao
  rw [decimal?_of_finite hd, if_pos h]
  exact if_pos hvalue

variable (hvalue : 0 < d.value)
include hvalue

theorem raoFromTao_of_overflow (h : d.Fits)
    (hroom : ¬ d.magnitude * raoPerTao < defaultContext.bound) :
    raoFromTao u amount = .error .overflow := by
  have hcoefficient : (product d).coefficient ≠ 0 :=
    Nat.mul_ne_zero (negative_of_value_pos hvalue).2 (by decide)
  have hmul : defaultContext.mul d ⟨false, raoPerTao, 0⟩ = .error .overflow := by
    change defaultContext.fix (product d) = _
    rw [Context.fix_eq hcoefficient, product_magnitude, if_neg hroom]
  unfold raoFromTao
  rw [decimal?_of_finite hd, if_pos h]
  dsimp only
  rw [if_neg (not_le.mpr hvalue), hmul]

/-- Within the limits the code returns the rounded product where that is an integer, and refuses
where it is not. -/
theorem raoFromTao_of_room (h : d.Fits) (hroom : d.magnitude * raoPerTao < defaultContext.bound) :
    (∀ m : ℤ, roundTo (lastPlace d) (d.magnitude * raoPerTao) = m →
      raoFromTao u amount = .ok m) ∧
    ((¬ ∃ m : ℤ, roundTo (lastPlace d) (d.magnitude * raoPerTao) = m) →
      raoFromTao u amount = .error (.finerThanOneRao amount)) := by
  obtain ⟨hnegative, hcoefficient⟩ := negative_of_value_pos hvalue
  have hproduct : (product d).coefficient ≠ 0 := Nat.mul_ne_zero hcoefficient (by decide)
  have hsign : (defaultContext.round (product d)).negative = false := by
    rw [Context.round_negative, product, hnegative]
    rfl
  have hmagnitude : (defaultContext.round (product d)).magnitude =
      roundTo (lastPlace d) (d.magnitude * raoPerTao) := by
    rw [Context.round_magnitude, product_magnitude]
    rfl
  have hmul : defaultContext.mul d ⟨false, raoPerTao, 0⟩ =
      .ok (defaultContext.round (product d)) := by
    change defaultContext.fix (product d) = _
    rw [Context.fix_eq hproduct, product_magnitude, if_pos hroom]
  have hcode : raoFromTao u amount =
      if (defaultContext.round (product d)).value ≠
          (defaultContext.round (product d)).toIntegralValue.value then
        .error (.finerThanOneRao amount)
      else .ok (defaultContext.round (product d)).toInt := by
    unfold raoFromTao
    rw [decimal?_of_finite hd, if_pos h]
    dsimp only
    rw [if_neg (not_le.mpr hvalue), hmul]
  have hwhole := value_eq_toIntegralValue_iff hsign
  rw [hmagnitude] at hwhole
  refine ⟨fun m hm ↦ ?_, fun hfraction ↦ ?_⟩
  · rw [hcode, if_neg (not_not.mpr (hwhole.mpr ⟨m, hm⟩)), DecimalNumber.toInt, hsign, hmagnitude, hm,
      Int.floor_intCast]
    rfl
  · rw [hcode, if_pos fun heq ↦ hfraction (hwhole.mp heq)]

end Finite

/-! ## The texts the conversion is given -/

/-- Digits and points have no white space among them. -/
theorem strip_of_digits {text : String} (h : ∀ c ∈ text.toList, c.isDigit ∨ c = '.') :
    strip text = text := by
  refine strip_eq_self fun c hc ↦ ?_
  rcases h c hc with hdigit | rfl
  · exact not_isSpace_of_isDigit hdigit
  · decide

theorem length_strip_le (text : String) : (strip text).toList.length ≤ text.toList.length := by
  rw [strip, String.toList_ofList]
  exact (List.rdropWhile_prefix _ _).length_le.trans (List.dropWhile_sublist _).length_le

section Short

variable {u : Decimals} {amount : String} (hlength : amount.toList.length ≤ 64) {d : DecimalNumber}
  (hd : u.numeral? (strip (strip amount)).toList = some (.finite d))
include hlength hd

theorem coefficient_lt : (d.coefficient : ℚ) < 10 ^ 64 := by
  have hlt := Decimals.coefficient_lt_of_numeral? hd
  have hle := (length_strip_le (strip amount)).trans ((length_strip_le amount).trans hlength)
  exact_mod_cast hlt.trans_le (Nat.pow_le_pow_right (by norm_num) hle)

omit hlength hd in
theorem rao_eq (d : DecimalNumber) :
    d.magnitude * raoPerTao = d.coefficient * 10 ^ (d.exponent + 9) := by
  have hrao : (raoPerTao : ℚ) = 10 ^ (9 : ℤ) := by norm_num [raoPerTao]
  rw [DecimalNumber.magnitude, hrao, mul_assoc, ← zpow_add₀ (by norm_num)]

/-- What is too large for the arithmetic is a whole number of rao. -/
theorem exists_rao_of_bound_le (h : defaultContext.bound ≤ d.magnitude * raoPerTao) :
    ∃ n : ℤ, d.magnitude * raoPerTao = n := by
  have hexponent : 0 ≤ d.exponent + 9 := by
    by_contra hneg
    have hscale : (10 : ℚ) ^ (d.exponent + 9) ≤ 1 :=
      zpow_le_one_of_nonpos₀ (by norm_num) (by omega)
    have hsmall : d.magnitude * raoPerTao < 10 ^ (64 : ℤ) := by
      rw [rao_eq]
      calc _ ≤ (d.coefficient : ℚ) * 1 := mul_le_mul_of_nonneg_left hscale (Nat.cast_nonneg _)
        _ = d.coefficient := mul_one _
        _ < 10 ^ (64 : ℤ) := by exact_mod_cast coefficient_lt hlength hd
    have hlarge : (10 : ℚ) ^ (64 : ℤ) ≤ 10 ^ defaultContext.emax :=
      zpow_le_zpow_right₀ (by norm_num) (by decide)
    exact absurd (hsmall.trans_le (hlarge.trans Context.zpow_emax_le_bound)) (not_lt.mpr h)
  refine ⟨d.coefficient * 10 ^ (d.exponent + 9).toNat, ?_⟩
  rw [rao_eq]
  push_cast
  rw [← zpow_natCast, Int.toNat_of_nonneg hexponent]

/-- What is below the limits of the type is less than one rao. -/
theorem rao_lt_one (h : ¬ minEtiny ≤ d.exponent) : d.magnitude * raoPerTao < 1 := by
  have hscale : (10 : ℚ) ^ (d.exponent + 9) ≤ 10 ^ (-64 : ℤ) := by
    refine zpow_le_zpow_right₀ (by norm_num) ?_
    unfold minEtiny at h
    omega
  rw [rao_eq]
  calc _ ≤ (d.coefficient : ℚ) * 10 ^ (-64 : ℤ) :=
        mul_le_mul_of_nonneg_left hscale (Nat.cast_nonneg _)
    _ < 10 ^ 64 * 10 ^ (-64 : ℤ) :=
        mul_lt_mul_of_pos_right (coefficient_lt hlength hd) (zpow_pos (by norm_num) _)
    _ = 1 := by norm_num

end Short

/-! ## Exact or refused -/

theorem value_eq_magnitude {d : DecimalNumber} (h : 0 < d.value) : d.value = d.magnitude := by
  rw [DecimalNumber.value, (negative_of_value_pos h).1]
  rfl

/-- A number the arithmetic has room for is below the limits of the type. -/
theorem fits_of_room {d : DecimalNumber} (hvalue : 0 < d.value)
    (hroom : d.magnitude * raoPerTao < defaultContext.bound) : d.adjusted ≤ maxEmax := by
  have hmagnitude : d.magnitude ≤ d.magnitude * raoPerTao :=
    le_mul_of_one_le_right d.magnitude_nonneg (by norm_num [raoPerTao])
  refine (DecimalNumber.adjusted_le_iff (negative_of_value_pos hvalue).2).mpr ?_
  refine hmagnitude.trans_lt ((hroom.trans Context.bound_lt).trans_le ?_)
  exact zpow_le_zpow_right₀ (by norm_num) (by decide)

section Exact

variable {u : Decimals} {amount : String} {d : DecimalNumber}

theorem denotesRao_iff (hd : u.numeral? (strip (strip amount)).toList = some (.finite d))
    (hvalue : 0 < d.value) {n : ℤ} :
    DenotesRao u amount n ↔ d.magnitude * raoPerTao = n := by
  constructor
  · rintro ⟨-, v, ⟨d', hd', rfl⟩, hv⟩
    rw [hd] at hd'
    cases hd'
    rwa [← value_eq_magnitude hvalue]
  · intro h
    refine ⟨?_, d.value, ⟨d, hd, rfl⟩, by rw [value_eq_magnitude hvalue, h]⟩
    have hpos : (0 : ℚ) < n := by
      rw [← h, ← value_eq_magnitude hvalue]
      exact mul_pos hvalue (by norm_num [raoPerTao])
    exact_mod_cast hpos

/-- Where the text denotes no positive number the conversion refuses, rightly. -/
theorem exactOrRefused_of_not_pos (h : ∀ d, u.numeral? (strip (strip amount)).toList =
    some (.finite d) → ¬ 0 < d.value) : ExactOrRefused u amount := by
  have hdenotes : ∀ n, ¬ DenotesRao u amount n := by
    rintro n ⟨hn, v, ⟨d, hd, rfl⟩, hv⟩
    refine h d hd ?_
    have hpos : (0 : ℚ) < d.value * raoPerTao := by
      rw [hv]
      exact_mod_cast hn
    exact pos_of_mul_pos_left hpos (by norm_num [raoPerTao])
  have herror : ∃ e, raoFromTao u amount = .error e ∧ e ≠ .overflow := by
    cases hnumeral : u.numeral? (strip (strip amount)).toList with
    | none =>
      refine ⟨.notADecimal amount, ?_, nofun⟩
      unfold raoFromTao decimal? Decimals.number?
      rw [hnumeral]
    | some numeral =>
      cases numeral with
      | special =>
        refine ⟨.notPositive amount, ?_, nofun⟩
        unfold raoFromTao decimal? Decimals.number?
        rw [hnumeral]
      | finite d =>
        by_cases hfits : d.Fits
        · exact ⟨_, raoFromTao_of_not_pos hnumeral hfits (not_lt.mp (h d hnumeral)), nofun⟩
        · exact ⟨_, raoFromTao_of_not_fits hnumeral hfits, nofun⟩
  obtain ⟨e, he, hne⟩ := herror
  refine ⟨fun n ↦ ⟨fun h ↦ ?_, fun h ↦ absurd h (hdenotes n)⟩, fun _ ↦ ⟨e, he, hne⟩⟩
  rw [he] at h
  cases h

/-- A number that is kept is converted exactly or refused. -/
theorem exactOrRefused_of_kept (hd : u.numeral? (strip (strip amount)).toList = some (.finite d))
    (hvalue : 0 < d.value) (hfits : d.Fits) (h : Kept d) : ExactOrRefused u amount := by
  obtain ⟨hwhole, hfraction⟩ := raoFromTao_of_room hd hvalue hfits h.room
  -- what the arithmetic returns is an integer only where the amount is that integer
  have hround : ∀ m : ℤ, roundTo (lastPlace d) (d.magnitude * raoPerTao) = m ↔
      d.magnitude * raoPerTao = m := by
    intro m
    rcases h.clear with hmultiple | hclear
    · rw [roundTo_eq_self_iff.mpr hmultiple]
    · have hunit : (0 : ℚ) < 10 ^ lastPlace d := zpow_pos (by norm_num) _
      refine iff_of_false (fun hm ↦ ?_) fun hm ↦ ?_
      · obtain ⟨k, hk⟩ := exists_roundTo_eq_intCast_iff.mp ⟨m, hm⟩
        exact absurd hk (not_le.mpr (hclear k))
      · have hfar := hclear m
        rw [hm, sub_self, abs_zero] at hfar
        linarith
  refine ⟨fun n ↦ ?_, fun hnone ↦ ?_⟩
  · rw [denotesRao_iff hd hvalue]
    constructor
    · intro hcode
      by_cases hinteger : ∃ m : ℤ, roundTo (lastPlace d) (d.magnitude * raoPerTao) = m
      · obtain ⟨m, hm⟩ := hinteger
        rw [hwhole m hm] at hcode
        cases hcode
        exact (hround _).mp hm
      · rw [hfraction hinteger] at hcode
        cases hcode
    · intro hn
      exact hwhole n ((hround n).mpr hn)
  · refine ⟨_, hfraction ?_, nofun⟩
    rintro ⟨m, hm⟩
    exact hnone ⟨m, (denotesRao_iff hd hvalue).mpr ((hround m).mp hm)⟩

/-- A number the type cannot hold is less than a rao, and refused. -/
theorem exactOrRefused_of_tiny (hlength : amount.toList.length ≤ 64)
    (hd : u.numeral? (strip (strip amount)).toList = some (.finite d)) (hvalue : 0 < d.value)
    (hexponent : ¬ minEtiny ≤ d.exponent) : ExactOrRefused u amount := by
  have herror := raoFromTao_of_not_fits hd fun hfits ↦ hexponent hfits.1
  have hdenotes : ∀ n, ¬ DenotesRao u amount n := by
    intro n hn
    have hsmall := rao_lt_one hlength hd hexponent
    rw [(denotesRao_iff hd hvalue).mp hn] at hsmall
    have hpos := hn.1
    have hlt : n < 1 := by exact_mod_cast hsmall
    omega
  refine ⟨fun n ↦ ⟨fun h ↦ ?_, fun h ↦ absurd h (hdenotes n)⟩, fun _ ↦ ⟨_, herror, nofun⟩⟩
  rw [herror] at h
  cases h

/-- A number that is not kept is converted to another or lost. -/
theorem kept_of_exactOrRefused (hlength : amount.toList.length ≤ 64)
    (hd : u.numeral? (strip (strip amount)).toList = some (.finite d)) (hvalue : 0 < d.value)
    (h : ExactOrRefused u amount) (hfits : d.exponent ≥ minEtiny) : Kept d := by
  have hroom : d.magnitude * raoPerTao < defaultContext.bound := by
    by_contra hover
    obtain ⟨n, hn⟩ := exists_rao_of_bound_le hlength hd (not_lt.mp hover)
    have hcode := (h.exact n).mpr ((denotesRao_iff hd hvalue).mpr hn)
    by_cases hfits : d.Fits
    · rw [raoFromTao_of_overflow hd hvalue hfits hover] at hcode
      cases hcode
    · rw [raoFromTao_of_not_fits hd hfits] at hcode
      cases hcode
  refine ⟨hroom, ?_⟩
  by_contra hclear
  obtain ⟨hmultiple, hnear⟩ := not_or.mp hclear
  have hnear : ∃ m : ℤ, |d.magnitude * raoPerTao - m| ≤ 10 ^ lastPlace d / 2 := by
    simpa only [not_forall, not_lt] using hnear
  obtain ⟨m, hm⟩ := exists_roundTo_eq_intCast_iff.mpr hnear
  have hcode := (raoFromTao_of_room hd hvalue ⟨hfits, fits_of_room hvalue hroom⟩ hroom).1 m hm
  have hexact := (denotesRao_iff hd hvalue).mp ((h.exact m).mp hcode)
  exact hmultiple (roundTo_eq_self_iff.mp (hm.trans hexact.symm))

end Exact

end Conjectures.TmcPay

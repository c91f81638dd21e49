import Conjectures.Api.TmcPay
import Conjectures.TmcPay.Amounts

/-!
# Quotes and the band

The fiat figure a purchase is quoted at, and the band of amounts an invoice for it may lock:
`quote_fiat_amount` and `quote_ceiling` of `submission_api/tmc_pay.py`, `_invoice_problem` and
the requoting of `submission_api/routers/tmc_pay.py`.

Decimals are read as exact rationals here: the arithmetic of quotes is the one that is meant, not
the one that keeps 28 digits.
-/

namespace Conjectures.TmcPay

open Lib Db Api

inductive QuoteError where
  | valueError (message : String)
  | tmcPayUnavailable (message : String)
  deriving DecidableEq

/-- The TAO one fiat unit buys, read off a TAO invoice's exchange rate. -/
def taoPerFiatUnit (u : Decimals) (exchangeRate : String) : Option ℚ :=
  match decimal? u (strip exchangeRate) with
  | some (.finite fiatPerTao) => if fiatPerTao.value ≤ 0 then none else some (1 / fiatPerTao.value)
  | _ => none

/-- The exact price of a purchase in fiat, with the margin. -/
def fiatPrice (requiredRao : Rao) (cryptoPerFiatUnit : ℚ) (marginBps : ℤ) : ℚ :=
  requiredRao / raoPerTao / cryptoPerFiatUnit * ((10000 + marginBps) / 10000)

/-- The fiat amount to ask for, so the invoice locks at least what the purchase requires. -/
def quoteFiatAmount (requiredRao : Rao) (cryptoPerFiatUnit : ℚ) (marginBps decimals : ℤ) :
    Except QuoteError String := do
  require (0 < requiredRao) (.valueError "the required amount must be positive")
  require (0 < cryptoPerFiatUnit) (.tmcPayUnavailable "no usable TAO exchange rate is available")
  require (0 ≤ marginBps) (.valueError "the quote margin cannot be negative")
  require (0 ≤ decimals) (.valueError "a currency cannot have negative decimals")
  let quantised := ⌈fiatPrice requiredRao cryptoPerFiatUnit marginBps / 10 ^ (-decimals)⌉
  return fixedPoint (if quantised ≤ 0 then 1 else quantised).toNat decimals.toNat

/-- The most rao an invoice may lock at a rate: the slippage, and one minor unit of fiat. -/
def ceilingAt (requiredRao : Rao) (rate : ℚ) (slippageBps decimals : ℤ) : Rao :=
  ⌈(requiredRao * (10000 + slippageBps) / 10000 + 10 ^ (-decimals) * rate * raoPerTao : ℚ)⌉

/-- The most rao an invoice may lock and still be an honest price. -/
def quoteCeiling (u : Decimals) (requiredRao : Rao) (exchangeRate : String)
    (slippageBps decimals : ℤ) : Except QuoteError (Option Rao) :=
  match taoPerFiatUnit u exchangeRate with
  | none => .ok none
  | some rate => do
    require (0 ≤ slippageBps) (.valueError "acceptable slippage cannot be negative")
    return some (ceilingAt requiredRao rate slippageBps decimals)

/-! ## The invoice check -/

/-- What the quotes of a deployment are made with, as its settings admit it. -/
structure QuoteSettings where
  merchantId : String
  fiatCurrency : String
  fiatDecimals : ℤ
  quoteMarginBps : ℤ
  maxSlippageBps : ℤ
  quoteAttempts : ℕ
  decimals_nonneg : 0 ≤ fiatDecimals
  margin_nonneg : 0 ≤ quoteMarginBps
  /-- a tighter tolerance would reject every invoice this deployment asks for -/
  margin_le_slippage : quoteMarginBps ≤ maxSlippageBps

/-- The currency and network one purchase is to be invoiced in. -/
structure PaymentPair where
  currency : String
  network : String
  deriving DecidableEq

def PaymentPair.isTao (pair : PaymentPair) : Bool := pair.currency = taoCurrency

/-- Why an invoice cannot be used. -/
inductive InvoiceProblem where
  | currency (offered requested : String)
  | network (offered requested : String)
  | merchant (merchantId : String)
  | fiatCurrency (offered expected : String)
  | fiatAmount (offered asked : String)
  /-- invoice reports an unusable TAO amount -/
  | unusableAmount (amount : String)
  /-- invoice reports an unusable exchange rate -/
  | unusableRate (exchangeRate : String)
  | belowCost (locked requiredRao : Rao)
  | aboveCeiling (locked ceiling requiredRao : Rao) (slippageBps : ℤ)
  deriving DecidableEq

/-- Whether requoting could fix it. -/
def InvoiceProblem.repriceable : InvoiceProblem → Bool
  | belowCost _ _ | aboveCeiling _ _ _ _ => true
  | _ => false

/-- The problem is one of the band's: the rate, the amount, or where the amount lies. -/
def InvoiceProblem.OfBand : InvoiceProblem → Prop
  | unusableAmount _ | unusableRate _ | belowCost _ _ | aboveCeiling _ _ _ _ => True
  | _ => False

/-- Whether two fiat texts are the same amount. -/
def sameFiatAmount (u : Decimals) (offered asked : String) : Bool :=
  match decimal? u (strip offered), decimal? u (strip asked) with
  | some (.finite offered), some (.finite asked) => offered.value = asked.value
  | _, _ => false

/-- Why this invoice cannot be used, or none if it can. -/
def invoiceProblem (u : Decimals) (settings : QuoteSettings) (invoice : Invoice)
    (requiredRao : Rao) (pair : PaymentPair) (fiatAsked : String) :
    Except QuoteError (Option InvoiceProblem) :=
  if invoice.cryptoCurrency ≠ pair.currency then
    .ok (some (.currency invoice.cryptoCurrency pair.currency))
  else if invoice.cryptoNetwork ≠ pair.network then
    .ok (some (.network invoice.cryptoNetwork pair.network))
  else if settings.merchantId ≠ "" ∧ invoice.merchantId ≠ settings.merchantId then
    .ok (some (.merchant invoice.merchantId))
  else if invoice.fiatCurrency ≠ settings.fiatCurrency then
    .ok (some (.fiatCurrency invoice.fiatCurrency settings.fiatCurrency))
  else if pair.currency ≠ taoCurrency then
    if sameFiatAmount u invoice.fiatAmount fiatAsked then .ok none
    else .ok (some (.fiatAmount invoice.fiatAmount fiatAsked))
  else match invoice.cryptoAmountRao with
    | none => .ok (some (.unusableAmount invoice.cryptoAmount))
    | some locked => do
      let ceiling ← quoteCeiling u requiredRao invoice.exchangeRate settings.maxSlippageBps
        settings.fiatDecimals
      match ceiling with
      | none => return some (.unusableRate invoice.exchangeRate)
      | some ceiling =>
        if locked < requiredRao then return some (.belowCost locked requiredRao)
        else if ceiling < locked then
          return some (.aboveCeiling locked ceiling requiredRao settings.maxSlippageBps)
        else return none

/-! ## Quoting and converting back -/

section Quote

variable {u : Decimals} {requiredRao : Rao} {rate : ℚ} {marginBps slippageBps decimals : ℤ}

theorem raoPerTao_pos : (0 : ℚ) < raoPerTao := by norm_num [raoPerTao]

theorem minorUnit_pos (decimals : ℤ) : (0 : ℚ) < 10 ^ (-decimals) := zpow_pos (by norm_num) _

theorem fiatPrice_pos (hrequired : 0 < requiredRao) (hrate : 0 < rate) (hmargin : 0 ≤ marginBps) :
    0 < fiatPrice requiredRao rate marginBps := by
  have hcast : (0 : ℚ) < requiredRao := Int.cast_pos.mpr hrequired
  have hbps : (0 : ℚ) ≤ marginBps := Int.cast_nonneg hmargin
  exact mul_pos (div_pos (div_pos hcast raoPerTao_pos) hrate) (by linarith)

/-- Converted back at its own rate the exact price is the required amount and the margin. -/
theorem fiatPrice_mul (hrate : 0 < rate) : fiatPrice requiredRao rate marginBps * rate * raoPerTao =
    requiredRao * (10000 + marginBps) / 10000 := by
  have hrao := raoPerTao_pos.ne'
  rw [fiatPrice]
  field_simp

/-- A fixed-point text denotes its minor units. -/
theorem denotes_fixedPoint (coefficient places : ℕ) :
    Denotes u (fixedPoint coefficient places) (coefficient * 10 ^ (-(places : ℤ))) := by
  have hstrip : strip (fixedPoint coefficient places) = fixedPoint coefficient places :=
    strip_of_digits fun c ↦ Decimals.isDigit_or_point_fixedPoint
  refine ⟨⟨false, coefficient, -places⟩, ?_, rfl⟩
  rw [hstrip, hstrip]
  exact Decimals.numeral?_fixedPoint

/-- The figure asked for is the exact price, rounded up to a minor unit. -/
theorem quoteFiatAmount_spec (hrequired : 0 < requiredRao) (hrate : 0 < rate)
    (hmargin : 0 ≤ marginBps) (hdecimals : 0 ≤ decimals) :
    ∃ text v, quoteFiatAmount requiredRao rate marginBps decimals = .ok text ∧ Denotes u text v ∧
      fiatPrice requiredRao rate marginBps ≤ v ∧
      v < fiatPrice requiredRao rate marginBps + 10 ^ (-decimals) := by
  have hunit := minorUnit_pos decimals
  have hprice := fiatPrice_pos hrequired hrate hmargin
  have hceil : 0 < ⌈fiatPrice requiredRao rate marginBps / 10 ^ (-decimals)⌉ :=
    Int.ceil_pos.mpr (div_pos hprice hunit)
  refine ⟨fixedPoint ⌈fiatPrice requiredRao rate marginBps / 10 ^ (-decimals)⌉.toNat decimals.toNat,
    ⌈fiatPrice requiredRao rate marginBps / 10 ^ (-decimals)⌉ * 10 ^ (-decimals), ?_, ?_, ?_, ?_⟩
  · simp only [quoteFiatAmount, bind_eq_ok, require_eq_ok]
    refine ⟨(), hrequired, (), hrate, (), hmargin, (), hdecimals, ?_⟩
    rw [if_neg (not_le.mpr hceil)]
    rfl
  · have hread := denotes_fixedPoint (u := u)
      ⌈fiatPrice requiredRao rate marginBps / 10 ^ (-decimals)⌉.toNat decimals.toNat
    have hcast : (((⌈fiatPrice requiredRao rate marginBps / 10 ^ (-decimals)⌉.toNat : ℕ) : ℤ) : ℚ) =
        ⌈fiatPrice requiredRao rate marginBps / 10 ^ (-decimals)⌉ := by
      rw [Int.toNat_of_nonneg hceil.le]
    rw [Int.toNat_of_nonneg hdecimals, ← Int.cast_natCast, hcast] at hread
    exact hread
  · exact (div_le_iff₀ hunit).mp (Int.le_ceil _)
  · calc _ < (fiatPrice requiredRao rate marginBps / 10 ^ (-decimals) + 1) * 10 ^ (-decimals) :=
          mul_lt_mul_of_pos_right (Int.ceil_lt_add_one _) hunit
      _ = fiatPrice requiredRao rate marginBps + 10 ^ (-decimals) := by
          rw [add_mul, div_mul_cancel₀ _ hunit.ne', one_mul]

/-- A figure less than one minor unit above the exact price converts back into the band. -/
theorem converted_in_band {v : ℚ} (hrequired : 0 < requiredRao) (hrate : 0 < rate)
    (hmargin : 0 ≤ marginBps) (hslippage : marginBps ≤ slippageBps)
    (hlow : fiatPrice requiredRao rate marginBps ≤ v)
    (hhigh : v < fiatPrice requiredRao rate marginBps + 10 ^ (-decimals)) :
    requiredRao ≤ ⌊v * rate * raoPerTao⌋ ∧
      ⌈v * rate * raoPerTao⌉ ≤ ceilingAt requiredRao rate slippageBps decimals := by
  have hcast : (0 : ℚ) < requiredRao := Int.cast_pos.mpr hrequired
  have hbps : (0 : ℚ) ≤ marginBps := Int.cast_nonneg hmargin
  have hbps' : (marginBps : ℚ) ≤ slippageBps := Int.cast_le.mpr hslippage
  constructor
  · refine Int.le_floor.mpr ?_
    calc (requiredRao : ℚ) ≤ requiredRao * (10000 + marginBps) / 10000 := by
          rw [le_div_iff₀ (by norm_num)]
          exact mul_le_mul_of_nonneg_left (by linarith) hcast.le
      _ = fiatPrice requiredRao rate marginBps * rate * raoPerTao := (fiatPrice_mul hrate).symm
      _ ≤ v * rate * raoPerTao := by
          exact mul_le_mul_of_nonneg_right (mul_le_mul_of_nonneg_right hlow hrate.le)
            raoPerTao_pos.le
  · refine Int.ceil_le_ceil ?_
    calc v * rate * raoPerTao
        ≤ (fiatPrice requiredRao rate marginBps + 10 ^ (-decimals)) * rate * raoPerTao := by
          exact mul_le_mul_of_nonneg_right (mul_le_mul_of_nonneg_right hhigh.le hrate.le)
            raoPerTao_pos.le
      _ = fiatPrice requiredRao rate marginBps * rate * raoPerTao +
            10 ^ (-decimals) * rate * raoPerTao := by ring
      _ = requiredRao * (10000 + marginBps) / 10000 + 10 ^ (-decimals) * rate * raoPerTao := by
          rw [fiatPrice_mul hrate]
      _ ≤ requiredRao * (10000 + slippageBps) / 10000 + 10 ^ (-decimals) * rate * raoPerTao := by
          refine add_le_add_left ?_ _
          exact div_le_div_of_nonneg_right
            (mul_le_mul_of_nonneg_left (by linarith) hcast.le) (by norm_num)

end Quote

/-! ## The band -/

theorem quoteCeiling_of_rate {u : Decimals} {settings : QuoteSettings} {requiredRao : Rao}
    {exchangeRate : String} {rate : ℚ} (h : taoPerFiatUnit u exchangeRate = some rate) :
    quoteCeiling u requiredRao exchangeRate settings.maxSlippageBps settings.fiatDecimals =
      .ok (some (ceilingAt requiredRao rate settings.maxSlippageBps settings.fiatDecimals)) := by
  have hslippage := settings.margin_nonneg.trans settings.margin_le_slippage
  have hrequire : require (0 ≤ settings.maxSlippageBps)
      (QuoteError.valueError "acceptable slippage cannot be negative") = .ok () :=
    require_eq_ok.mpr hslippage
  unfold quoteCeiling
  rw [h]
  dsimp only
  rw [bind_of_ok hrequire]
  rfl

/-- A TAO invoice that locks an amount within the band is not refused for its band. -/
theorem invoiceProblem_of_band {u : Decimals} {settings : QuoteSettings} {invoice : Invoice}
    {requiredRao locked ceiling : Rao} {pair : PaymentPair} (hpair : pair.currency = taoCurrency)
    (hlocked : invoice.cryptoAmountRao = some locked)
    (hceiling : quoteCeiling u requiredRao invoice.exchangeRate settings.maxSlippageBps
      settings.fiatDecimals = .ok (some ceiling))
    (hlow : requiredRao ≤ locked) (hhigh : locked ≤ ceiling) (fiatAsked : String) :
    invoiceProblem u settings invoice requiredRao pair fiatAsked = .ok none ∨
      ∃ p : InvoiceProblem, invoiceProblem u settings invoice requiredRao pair fiatAsked =
        .ok (some p) ∧ ¬ p.OfBand := by
  unfold invoiceProblem
  split
  · exact .inr ⟨_, rfl, id⟩
  split
  · exact .inr ⟨_, rfl, id⟩
  split
  · exact .inr ⟨_, rfl, id⟩
  split
  · exact .inr ⟨_, rfl, id⟩
  rw [if_neg (not_not.mpr hpair), hlocked]
  dsimp only
  rw [bind_of_ok hceiling]
  dsimp only
  rw [if_neg (not_lt.mpr hlow), if_neg (not_lt.mpr hhigh)]
  exact .inl rfl

/-- **A requote lands in its band.** At every positive rate the figure asked for is the exact
price with the margin, rounded up by less than a minor unit; at the same rate it converts back,
however it is rounded to whole rao, to an amount from the required one to the ceiling; and an
invoice at that rate for that amount is not refused for its band. -/
theorem quoteFiatAmount_in_band (u : Decimals) (settings : QuoteSettings) {requiredRao : Rao}
    (hrequired : 0 < requiredRao) {rate : ℚ} (hrate : 0 < rate) :
    ∃ text v, quoteFiatAmount requiredRao rate settings.quoteMarginBps settings.fiatDecimals =
        .ok text ∧ Denotes u text v ∧
      fiatPrice requiredRao rate settings.quoteMarginBps ≤ v ∧
      v < fiatPrice requiredRao rate settings.quoteMarginBps + 10 ^ (-settings.fiatDecimals) ∧
      requiredRao ≤ ⌊v * rate * raoPerTao⌋ ∧
      ⌈v * rate * raoPerTao⌉ ≤
        ceilingAt requiredRao rate settings.maxSlippageBps settings.fiatDecimals ∧
      ∀ (invoice : Invoice) (locked : Rao) (pair : PaymentPair), pair.currency = taoCurrency →
        taoPerFiatUnit u invoice.exchangeRate = some rate →
        invoice.cryptoAmountRao = some locked → ⌊v * rate * raoPerTao⌋ ≤ locked →
        locked ≤ ⌈v * rate * raoPerTao⌉ →
        quoteCeiling u requiredRao invoice.exchangeRate settings.maxSlippageBps
            settings.fiatDecimals =
          .ok (some (ceilingAt requiredRao rate settings.maxSlippageBps settings.fiatDecimals)) ∧
        (invoiceProblem u settings invoice requiredRao pair text = .ok none ∨
          ∃ p : InvoiceProblem, invoiceProblem u settings invoice requiredRao pair text =
            .ok (some p) ∧ ¬ p.OfBand) := by
  obtain ⟨text, v, hquote, hdenotes, hlow, hhigh⟩ := quoteFiatAmount_spec (u := u) hrequired hrate
    settings.margin_nonneg settings.decimals_nonneg
  obtain ⟨hfloor, hceil⟩ := converted_in_band hrequired hrate settings.margin_nonneg
    settings.margin_le_slippage hlow hhigh
  refine ⟨text, v, hquote, hdenotes, hlow, hhigh, hfloor, hceil, ?_⟩
  intro invoice locked pair hpair hinvoice hlocked hle hge
  have hceiling := @quoteCeiling_of_rate u settings requiredRao _ _ hinvoice
  exact ⟨hceiling, invoiceProblem_of_band hpair hlocked hceiling (hfloor.trans hle)
    (hge.trans hceil) text⟩

/-- Prices in cents, with a margin of one percent and a slippage of two. -/
def centSettings : QuoteSettings where
  merchantId := "m"
  fiatCurrency := "USD"
  fiatDecimals := 2
  quoteMarginBps := 100
  maxSlippageBps := 200
  quoteAttempts := 2
  decimals_nonneg := by decide
  margin_nonneg := by decide
  margin_le_slippage := by decide

/-- Half a TAO at 225 USD: 112.50 and the margin is 113.625, asked for as 113.63. -/
theorem quoteFiatAmount_in_band_cents :
    quoteFiatAmount 500000000 (1 / 225) 100 2 = .ok "113.63" ∧
      ∃ text v, quoteFiatAmount 500000000 (1 / 225) centSettings.quoteMarginBps
          centSettings.fiatDecimals = .ok text ∧ Denotes unicodeDecimals text v ∧
        500000000 ≤ ⌊v * (1 / 225) * raoPerTao⌋ ∧
        ⌈v * (1 / 225) * raoPerTao⌉ ≤ ceilingAt 500000000 (1 / 225)
          centSettings.maxSlippageBps centSettings.fiatDecimals := by
  refine ⟨by decide +kernel, ?_⟩
  obtain ⟨text, v, hquote, hdenotes, -, -, hfloor, hceil, -⟩ :=
    @quoteFiatAmount_in_band unicodeDecimals centSettings 500000000 (by decide) (1 / 225)
      (by norm_num)
  exact ⟨text, v, hquote, hdenotes, hfloor, hceil⟩

/-! ## Requoting -/

/-- Why no invoice came of a purchase. -/
inductive QuoteFailure where
  | quote (error : QuoteError)
  /-- TMC PAY is unavailable, or refused to create an invoice -/
  | upstream (reason : String)
  /-- the attempts are used up, or the last problem is not one of the price -/
  | unusable (problem : Option InvoiceProblem)
  deriving DecidableEq

/-- An invoice priced inside the band: the first attempt at a rate that is estimated, a later one
at the rate the previous invoice locked.  `create` is what TMC PAY answers an attempt. -/
def quoteInvoice (u : Decimals) (settings : QuoteSettings)
    (create : ℕ → String → Except String Invoice) (requiredRao : Rao) (pair : PaymentPair) :
    ℕ → ℕ → Option InvoiceProblem → ℚ → Except QuoteFailure (Invoice × ℕ)
  | 0, _, failure, _ => .error (.unusable failure)
  | attempts + 1, attempt, _, rate => do
    let fiatAmount ← (quoteFiatAmount requiredRao rate
      (if pair.isTao then settings.quoteMarginBps else 0) settings.fiatDecimals).mapError .quote
    let invoice ← (create attempt fiatAmount).mapError .upstream
    let problem ← (invoiceProblem u settings invoice requiredRao pair fiatAmount).mapError .quote
    match problem with
    | none => return (invoice, attempt)
    | some problem =>
      if problem.repriceable then
        match taoPerFiatUnit u invoice.exchangeRate with
        | none => .error (.unusable (some problem))
        | some locked =>
          quoteInvoice u settings create requiredRao pair attempts (attempt + 1) (some problem)
            locked
      else .error (.unusable (some problem))

section Requote

variable {u : Decimals} {settings : QuoteSettings} {create : ℕ → String → Except String Invoice}
  {requiredRao : Rao} {pair : PaymentPair}

/-- The loop returns nothing but an invoice that the check has no problem with. -/
theorem quoteInvoice_ok {attempts attempt : ℕ} {failure : Option InvoiceProblem} {rate : ℚ}
    {invoice : Invoice} {k : ℕ}
    (h : quoteInvoice u settings create requiredRao pair attempts attempt failure rate =
      .ok (invoice, k)) :
    attempt ≤ k ∧ k < attempt + attempts ∧ ∃ fiatAmount, create k fiatAmount = .ok invoice ∧
      invoiceProblem u settings invoice requiredRao pair fiatAmount = .ok none := by
  induction attempts generalizing attempt failure rate with
  | zero => cases h
  | succ attempts ih =>
    unfold quoteInvoice at h
    simp only [bind_eq_ok, mapError_eq_ok] at h
    obtain ⟨fiatAmount, -, answered, hcreate, problem, hproblem, h⟩ := h
    split at h
    · cases h
      exact ⟨le_refl _, by omega, fiatAmount, hcreate, hproblem⟩
    · split at h
      · split at h
        · cases h
        · obtain ⟨hle, hlt, hinvoice⟩ := ih h
          exact ⟨by omega, by omega, hinvoice⟩
      · cases h

/-- One attempt of a TAO purchase, from what the quote, TMC PAY and the check answer. -/
theorem quoteInvoice_attempt {attempts attempt : ℕ} {failure : Option InvoiceProblem} {rate : ℚ}
    {text : String} {invoice : Invoice} {problem : Option InvoiceProblem}
    (hpair : pair.currency = taoCurrency)
    (hquote : quoteFiatAmount requiredRao rate settings.quoteMarginBps settings.fiatDecimals =
      .ok text)
    (hcreate : create attempt text = .ok invoice)
    (hproblem : invoiceProblem u settings invoice requiredRao pair text = .ok problem) :
    (problem = none → quoteInvoice u settings create requiredRao pair (attempts + 1) attempt failure
      rate = .ok (invoice, attempt)) ∧
    ∀ p locked, problem = some p → p.repriceable = true →
      taoPerFiatUnit u invoice.exchangeRate = some locked →
      quoteInvoice u settings create requiredRao pair (attempts + 1) attempt failure rate =
        quoteInvoice u settings create requiredRao pair attempts (attempt + 1) (some p) locked := by
  have htao : pair.isTao = true := decide_eq_true hpair
  have hmargin : (if pair.isTao = true then settings.quoteMarginBps else 0) =
      settings.quoteMarginBps := if_pos htao
  constructor
  · rintro rfl
    unfold quoteInvoice
    rw [hmargin, bind_of_ok (mapError_eq_ok.mpr hquote),
      bind_of_ok (mapError_eq_ok.mpr hcreate), bind_of_ok (mapError_eq_ok.mpr hproblem)]
    rfl
  · rintro p locked rfl hp hlocked
    conv_lhs => unfold quoteInvoice
    rw [hmargin, bind_of_ok (mapError_eq_ok.mpr hquote),
      bind_of_ok (mapError_eq_ok.mpr hcreate), bind_of_ok (mapError_eq_ok.mpr hproblem)]
    dsimp only
    rw [if_pos hp, hlocked]

/-- An invoice is the one that was asked for, but for what it locks. -/
structure Answers (settings : QuoteSettings) (pair : PaymentPair) (invoice : Invoice) :
    Prop where
  currency : invoice.cryptoCurrency = pair.currency
  network : invoice.cryptoNetwork = pair.network
  merchant : invoice.merchantId = settings.merchantId
  fiatCurrency : invoice.fiatCurrency = settings.fiatCurrency

/-- A TAO invoice that was asked for has no problem, or one that asking again can fix. -/
theorem Answers.repriceable {invoice : Invoice} (h : Answers settings pair invoice)
    {locked ceiling : Rao} (hpair : pair.currency = taoCurrency)
    (hlocked : invoice.cryptoAmountRao = some locked)
    (hceiling : quoteCeiling u requiredRao invoice.exchangeRate settings.maxSlippageBps
      settings.fiatDecimals = .ok (some ceiling)) (fiatAsked : String) :
    (requiredRao ≤ locked → locked ≤ ceiling →
      invoiceProblem u settings invoice requiredRao pair fiatAsked = .ok none) ∧
    (invoiceProblem u settings invoice requiredRao pair fiatAsked = .ok none ∨
      ∃ p : InvoiceProblem, invoiceProblem u settings invoice requiredRao pair fiatAsked =
        .ok (some p) ∧ p.repriceable) := by
  unfold invoiceProblem
  rw [if_neg (not_not.mpr h.currency), if_neg (not_not.mpr h.network),
    if_neg (fun hm ↦ hm.2 h.merchant), if_neg (not_not.mpr h.fiatCurrency),
    if_neg (not_not.mpr hpair), hlocked]
  dsimp only
  rw [bind_of_ok hceiling]
  dsimp only
  split
  · exact ⟨fun hle ↦ absurd hle (not_le.mpr ‹_›), .inr ⟨_, rfl, rfl⟩⟩
  split
  · exact ⟨fun _ hle ↦ absurd hle (not_le.mpr ‹_›), .inr ⟨_, rfl, rfl⟩⟩
  · exact ⟨fun _ _ ↦ rfl, .inl rfl⟩

/-- TMC PAY locks one rate: every answer is the invoice asked for, at that rate, and locks the
conversion of the amount asked for, rounded either way. -/
structure Steady (u : Decimals) (settings : QuoteSettings) (pair : PaymentPair) (rate : ℚ)
    (create : ℕ → String → Except String Invoice) : Prop where
  answer : ∀ attempt fiatAmount v, Denotes u fiatAmount v → ∃ invoice locked,
    create attempt fiatAmount = .ok invoice ∧ Answers settings pair invoice ∧
      taoPerFiatUnit u invoice.exchangeRate = some rate ∧
      invoice.cryptoAmountRao = some locked ∧ ⌊v * rate * raoPerTao⌋ ≤ locked ∧
      locked ≤ ⌈v * rate * raoPerTao⌉

/-- At the rate that is locked one attempt is enough. -/
theorem Steady.quoteInvoice_once {rate : ℚ} (h : Steady u settings pair rate create)
    (hpair : pair.currency = taoCurrency) (hrequired : 0 < requiredRao) (hrate : 0 < rate)
    (attempts attempt : ℕ) (failure : Option InvoiceProblem) :
    ∃ invoice, quoteInvoice u settings create requiredRao pair (attempts + 1) attempt failure rate =
      .ok (invoice, attempt) := by
  obtain ⟨text, v, hquote, hdenotes, hlow, hhigh⟩ := quoteFiatAmount_spec (u := u) hrequired hrate
    settings.margin_nonneg settings.decimals_nonneg
  obtain ⟨hfloor, hceil⟩ := converted_in_band hrequired hrate settings.margin_nonneg
    settings.margin_le_slippage hlow hhigh
  obtain ⟨invoice, locked, hcreate, hanswers, hinvoice, hlocked, hle, hge⟩ :=
    h.answer attempt text v hdenotes
  have hproblem := (hanswers.repriceable hpair hlocked (quoteCeiling_of_rate hinvoice) text).1
    (hfloor.trans hle) (hge.trans hceil)
  exact ⟨invoice, (quoteInvoice_attempt hpair hquote hcreate hproblem).1 rfl⟩

/-- **Two attempts are enough.** While TMC PAY locks one rate, a purchase that any positive
estimate starts ends with an invoice, at the first or the second attempt. -/
theorem Steady.quoteInvoice_twice {rate : ℚ} (h : Steady u settings pair rate create)
    (hpair : pair.currency = taoCurrency) (hrequired : 0 < requiredRao) (hrate : 0 < rate)
    {seed : ℚ} (hseed : 0 < seed) {attempts : ℕ} (hattempts : 2 ≤ attempts) :
    ∃ invoice k, quoteInvoice u settings create requiredRao pair attempts 1 none seed =
      .ok (invoice, k) ∧ k ≤ 2 := by
  obtain ⟨attempts, rfl⟩ := Nat.exists_eq_add_of_le' hattempts
  obtain ⟨text, v, hquote, hdenotes, -, -⟩ := quoteFiatAmount_spec (u := u) hrequired hseed
    settings.margin_nonneg settings.decimals_nonneg
  obtain ⟨invoice, locked, hcreate, hanswers, hinvoice, hlocked, -, -⟩ :=
    h.answer 1 text v hdenotes
  rcases (hanswers.repriceable hpair hlocked (quoteCeiling_of_rate hinvoice) text).2 with
    hproblem | ⟨p, hproblem, hp⟩
  · exact ⟨invoice, 1, (quoteInvoice_attempt hpair hquote hcreate hproblem).1 rfl, by omega⟩
  · obtain ⟨second, hsecond⟩ := h.quoteInvoice_once hpair hrequired hrate attempts 2 (some p)
    refine ⟨second, 2, ?_, le_refl _⟩
    rw [(quoteInvoice_attempt hpair hquote hcreate hproblem).2 p rate rfl hp hinvoice]
    exact hsecond

end Requote

end Conjectures.TmcPay

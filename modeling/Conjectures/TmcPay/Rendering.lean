import Conjectures.TmcPay.Amounts

/-!
# What `tao_from_rao` writes

The rendered text denotes the amount it was rendered from, exactly, at every size. Reading it
back with `rao_from_tao` gives the amount again as long as the arithmetic has room for its digits.
-/

namespace Conjectures.TmcPay

open Lib Db

variable {u : Decimals}

/-! ## Digits before and after the point -/

/-- A list with nothing to drop at its end, behind one that is dropped. -/
theorem rdropWhile_append_cons {α : Type*} (p : α → Bool) (a : List α) {c : α} (hc : p c = false)
    (f : List α) : (a ++ c :: f).rdropWhile p = a ++ c :: f.rdropWhile p := by
  rw [List.rdropWhile, List.rdropWhile, List.reverse_append, List.reverse_cons, List.append_assoc,
    List.dropWhile_append]
  split
  · rename_i hempty
    rw [List.isEmpty_iff.mp hempty]
    simp [hc]
  · simp

/-- The digits of an amount's fraction of a TAO, all nine of them. -/
def fractionDigits (amount : ℕ) : List Char := (Nat.toDigits 10 (amount % raoPerTao)).leftpad 9 '0'

/-- Those that are written. -/
def writtenFraction (amount : ℕ) : List Char := (fractionDigits amount).rdropWhile (· = '0')

def writtenWhole (amount : ℕ) : List Char := Nat.toDigits 10 (amount / raoPerTao)

theorem isDigit_fractionDigits {amount : ℕ} {c : Char} (h : c ∈ fractionDigits amount) :
    c.isDigit := by
  rcases List.mem_append.mp h with h | h
  · rw [List.eq_of_mem_replicate h]
    decide
  · exact Decimals.isDigit_toDigits h

theorem isDigit_writtenFraction {amount : ℕ} {c : Char} (h : c ∈ writtenFraction amount) :
    c.isDigit :=
  isDigit_fractionDigits ((List.rdropWhile_prefix _ _).subset h)

theorem length_fractionDigits (amount : ℕ) : (fractionDigits amount).length = 9 := by
  have hlt : amount % raoPerTao < 10 ^ 9 := Nat.mod_lt _ (by decide)
  have hle := (Nat.length_toDigits_le_iff (by decide) (by decide)).mpr hlt
  rw [fractionDigits, List.length_leftpad]
  omega

theorem int_fractionDigits (amount : ℕ) : u.int (fractionDigits amount) = amount % raoPerTao := by
  rw [fractionDigits, List.leftpad, Decimals.int_append, Decimals.int_replicate_zero, Nat.zero_mul,
    Nat.zero_add, Decimals.int_toDigits]

/-- The digits that are not written are zeros. -/
theorem fractionDigits_eq (amount : ℕ) : fractionDigits amount =
    writtenFraction amount ++ List.replicate (9 - (writtenFraction amount).length) '0' := by
  have hsplit : (fractionDigits amount).rdropWhile (· = '0') ++
      (fractionDigits amount).rtakeWhile (· = '0') = fractionDigits amount :=
    List.rdropWhile_append_rtakeWhile
  have hlength := congrArg List.length hsplit
  rw [List.length_append, length_fractionDigits] at hlength
  have hzeros : (fractionDigits amount).rtakeWhile (· = '0') =
      List.replicate (9 - (writtenFraction amount).length) '0' := by
    refine List.eq_replicate_iff.mpr ⟨?_, fun c hc ↦ by simpa using List.mem_rtakeWhile_imp hc⟩
    rw [writtenFraction]
    omega
  rw [← hzeros]
  exact hsplit.symm

theorem length_writtenFraction_le (amount : ℕ) : (writtenFraction amount).length ≤ 9 :=
  (List.rdropWhile_prefix _ _).length_le.trans_eq (length_fractionDigits amount)

/-- The written digits, as a whole number, are the amount without its trailing zeros. -/
theorem int_written (amount : ℕ) : u.int (writtenWhole amount ++ writtenFraction amount) *
    10 ^ (9 - (writtenFraction amount).length) = amount := by
  have hall : u.int (writtenWhole amount ++ fractionDigits amount) = amount := by
    rw [Decimals.int_append, length_fractionDigits, int_fractionDigits, writtenWhole,
      Decimals.int_toDigits]
    exact Nat.div_add_mod' amount raoPerTao
  rw [fractionDigits_eq, ← List.append_assoc, Decimals.int_append, List.length_replicate,
    Decimals.int_replicate_zero, Nat.add_zero] at hall
  exact hall

theorem rdropWhile_point {text : List Char} (h : ∀ c ∈ text, c.isDigit) :
    text.rdropWhile (· = '.') = text := by
  refine List.rdropWhile_eq_self_iff.mpr fun hne hpoint ↦ ?_
  have hdigit := h _ (List.getLast_mem hne)
  rw [of_decide_eq_true hpoint] at hdigit
  exact absurd hdigit (by decide)

/-- The text an amount is written as. -/
def writtenAmount (amount : ℕ) : String := String.ofList
  (if writtenFraction amount = [] then writtenWhole amount
    else writtenWhole amount ++ '.' :: writtenFraction amount)

/-- The text is the whole TAO, and the point and the fraction where there is one. -/
theorem taoFromRao_eq (amount : ℕ) : taoFromRao amount = .ok (writtenAmount amount) := by
  have hrendered : ((writtenWhole amount ++ '.' :: fractionDigits amount).rdropWhile
      (· = '0')).rdropWhile (· = '.') = if writtenFraction amount = [] then writtenWhole amount
        else writtenWhole amount ++ '.' :: writtenFraction amount := by
    rw [rdropWhile_append_cons _ _ (by decide)]
    change (writtenWhole amount ++ '.' :: writtenFraction amount).rdropWhile (· = '.') = _
    split
    · rename_i hempty
      rw [hempty, List.rdropWhile_concat_pos _ _ _ (by decide)]
      exact rdropWhile_point fun c hc ↦ Decimals.isDigit_toDigits hc
    · rename_i hne
      obtain ⟨f, c, hf⟩ := (List.eq_nil_or_concat' (writtenFraction amount)).resolve_left hne
      have hpoint : ¬ decide (c = '.') = true := by
        intro hc
        have hdigit : c.isDigit := isDigit_writtenFraction (hf ▸ List.mem_append_right f
          (List.mem_singleton_self c))
        rw [of_decide_eq_true hc] at hdigit
        exact absurd hdigit (by decide)
      have happend : writtenWhole amount ++ '.' :: writtenFraction amount =
          (writtenWhole amount ++ '.' :: f) ++ [c] := by
        rw [hf, List.append_assoc]
        rfl
      rw [happend]
      exact List.rdropWhile_concat_neg _ _ _ hpoint
  have hne : ¬ (if writtenFraction amount = [] then writtenWhole amount
      else writtenWhole amount ++ '.' :: writtenFraction amount) = [] := by
    split
    · exact Nat.toDigits_ne_nil
    · exact List.append_ne_nil_of_right_ne_nil _ (List.cons_ne_nil _ _)
  have hrequire : require (0 ≤ (amount : Rao)) AmountError.negative = .ok () :=
    require_eq_ok.mpr (Int.natCast_nonneg amount)
  unfold taoFromRao
  rw [bind_of_ok hrequire]
  change Except.ok (String.ofList (if ((writtenWhole amount ++
    '.' :: fractionDigits amount).rdropWhile (· = '0')).rdropWhile (· = '.') = [] then ['0']
      else ((writtenWhole amount ++ '.' :: fractionDigits amount).rdropWhile
        (· = '0')).rdropWhile (· = '.'))) = _
  rw [hrendered, if_neg hne]
  rfl

/-! ## Reading it back -/

/-- There is nothing to strip from it. -/
theorem strip_writtenAmount (amount : ℕ) : strip (writtenAmount amount) = writtenAmount amount := by
  refine strip_of_digits fun c hc ↦ ?_
  have hdigit : ∀ c ∈ writtenWhole amount ++ writtenFraction amount, c.isDigit := by
    intro c hc
    rcases List.mem_append.mp hc with hc | hc
    · exact Decimals.isDigit_toDigits hc
    · exact isDigit_writtenFraction hc
  rw [writtenAmount, String.toList_ofList] at hc
  split at hc
  · exact .inl (hdigit c (List.mem_append_left _ hc))
  · rcases List.mem_append.mp hc with hc | hc
    · exact .inl (hdigit c (List.mem_append_left _ hc))
    · rcases List.mem_cons.mp hc with hc | hc
      · exact .inr hc
      · exact .inl (hdigit c (List.mem_append_right _ hc))

/-- The number it is read as. -/
def writtenNumber (u : Decimals) (amount : ℕ) : DecimalNumber :=
  ⟨false, u.int (writtenWhole amount ++ writtenFraction amount), -(writtenFraction amount).length⟩

theorem numeral?_writtenAmount (amount : ℕ) :
    u.numeral? (strip (strip (writtenAmount amount))).toList =
      some (.finite (writtenNumber u amount)) := by
  rw [strip_writtenAmount, strip_writtenAmount, writtenAmount, String.toList_ofList]
  exact Decimals.numeral?_of_digits Nat.toDigits_ne_nil (fun c ↦ Decimals.isDigit_toDigits)
    (fun c ↦ isDigit_writtenFraction)

/-- It denotes the amount it was rendered from. -/
theorem writtenNumber_rao (amount : ℕ) :
    (writtenNumber u amount).magnitude * raoPerTao = amount := by
  have hlength := length_writtenFraction_le amount
  have hwritten : ((u.int (writtenWhole amount ++ writtenFraction amount) : ℕ) : ℚ) *
      10 ^ (9 - (writtenFraction amount).length) = amount := by
    exact_mod_cast int_written (u := u) amount
  have hplaces : -((writtenFraction amount).length : ℤ) + 9 =
      ((9 - (writtenFraction amount).length : ℕ) : ℤ) := by omega
  rw [rao_eq, writtenNumber]
  dsimp only
  rw [hplaces, zpow_natCast]
  exact hwritten

/-! ## How many digits there is room for -/

theorem exists_mul_zpow_iff {n : ℕ} {t : ℤ} :
    (∃ k : ℤ, (n : ℚ) = k * 10 ^ t) ↔ 10 ^ t.toNat ∣ n := by
  rcases le_or_gt t 0 with ht | ht
  · refine iff_of_true ⟨n * 10 ^ (-t).toNat, ?_⟩ ?_
    · push_cast
      rw [← zpow_natCast, Int.toNat_of_nonneg (by omega), mul_assoc, ← zpow_add₀ (by norm_num)]
      simp
    · rw [Int.toNat_of_nonpos ht, pow_zero]
      exact one_dvd n
  · have hpow : (10 : ℚ) ^ t = ((10 ^ t.toNat : ℕ) : ℚ) := by
      push_cast
      rw [← zpow_natCast, Int.toNat_of_nonneg ht.le]
    rw [hpow]
    constructor
    · rintro ⟨k, hk⟩
      have hint : (n : ℤ) = k * ((10 ^ t.toNat : ℕ) : ℤ) := by exact_mod_cast hk
      exact Int.natCast_dvd_natCast.mp (Dvd.intro_left k hint.symm)
    · rintro ⟨k, rfl⟩
      refine ⟨k, ?_⟩
      push_cast
      ring

/-- The place of the last digit kept of a whole number of rao. -/
theorem lastPlace_eq {d : DecimalNumber} {n : ℕ} (hn : 0 < n)
    (h : d.magnitude * raoPerTao = n) :
    (lastPlace d).toNat = DecimalNumber.digits n - 28 := by
  let whole : DecimalNumber := ⟨false, n, 0⟩
  have hmagnitude : (product d).magnitude = whole.magnitude := by
    rw [product_magnitude, h, DecimalNumber.magnitude]
    simp [whole]
  have hwhole : whole.coefficient ≠ 0 := hn.ne'
  have hproduct : (product d).coefficient ≠ 0 := by
    intro hzero
    have hpos : (0 : ℚ) < n := by exact_mod_cast hn
    rw [product_magnitude, h] at hmagnitude
    have hmagnitude' : (product d).magnitude = 0 := by simp [DecimalNumber.magnitude, hzero]
    rw [product_magnitude, h] at hmagnitude'
    exact hpos.ne' hmagnitude'
  have hadjusted : (product d).adjusted = whole.adjusted := by
    refine le_antisymm ?_ ?_
    · exact (DecimalNumber.adjusted_le_iff hproduct).mpr (hmagnitude ▸ whole.magnitude_lt_zpow)
    · exact (DecimalNumber.adjusted_le_iff hwhole).mpr (hmagnitude ▸ (product d).magnitude_lt_zpow)
  have hplaces : whole.adjusted + 1 = DecimalNumber.digits n := by
    simp [whole, DecimalNumber.adjusted]
  have hetiny : defaultContext.etiny = -1000026 := by decide
  have hprec : defaultContext.prec = 28 := rfl
  rw [lastPlace, Context.least_eq, hadjusted, hplaces, hetiny, hprec]
  omega

/-- Reading a rendered amount back gives it again where the arithmetic keeps all its digits. -/
theorem raoFromTao_taoFromRao_iff {n : ℕ} (hn : 0 < n) :
    (∃ tao, taoFromRao n = .ok tao ∧ raoFromTao u tao = .ok (n : ℤ)) ↔
      (n : ℚ) < defaultContext.bound ∧ 10 ^ (DecimalNumber.digits n - 28) ∣ n := by
  have hd := numeral?_writtenAmount (u := u) n
  have hrao := writtenNumber_rao (u := u) n
  have hmagnitude : 0 < (writtenNumber u n).magnitude := by
    refine pos_of_mul_pos_left (b := (raoPerTao : ℚ)) ?_ (by norm_num [raoPerTao])
    rw [hrao]
    exact_mod_cast hn
  have hvalue : 0 < (writtenNumber u n).value := hmagnitude
  have hexponent : minEtiny ≤ (writtenNumber u n).exponent := by
    have hlength := length_writtenFraction_le n
    unfold minEtiny writtenNumber
    dsimp only
    omega
  have hmultiple : 10 ^ (DecimalNumber.digits n - 28) ∣ n ↔ ∃ k : ℤ,
      (writtenNumber u n).magnitude * raoPerTao = k * 10 ^ lastPlace (writtenNumber u n) := by
    rw [hrao, exists_mul_zpow_iff, lastPlace_eq hn hrao]
  rw [hmultiple, ← hrao]
  constructor
  · rintro ⟨tao, htao, hcode⟩
    rw [taoFromRao_eq] at htao
    cases htao
    have hroom : (writtenNumber u n).magnitude * raoPerTao < defaultContext.bound := by
      by_contra hover
      by_cases hfits : (writtenNumber u n).Fits
      · rw [raoFromTao_of_overflow hd hvalue hfits hover] at hcode
        cases hcode
      · rw [raoFromTao_of_not_fits hd hfits] at hcode
        cases hcode
    -- the amount is an integer, so the product was rounded to one
    obtain ⟨m, hm⟩ := exists_roundTo_eq_intCast_iff.mpr
      ⟨(n : ℤ), show |(writtenNumber u n).magnitude * raoPerTao - ((n : ℤ) : ℚ)| ≤
        10 ^ lastPlace (writtenNumber u n) / 2 by
        rw [hrao, Int.cast_natCast, sub_self, abs_zero]
        exact div_nonneg (zpow_nonneg (by norm_num) _) (by norm_num)⟩
    have hwhole := (raoFromTao_of_room hd hvalue ⟨hexponent, fits_of_room hvalue hroom⟩ hroom).1 m hm
    rw [hwhole] at hcode
    cases hcode
    refine ⟨hroom, roundTo_eq_self_iff.mp (hm.trans ?_)⟩
    rw [hrao, Int.cast_natCast]
  · rintro ⟨hroom, hmultiple⟩
    refine ⟨writtenAmount n, taoFromRao_eq n, ?_⟩
    have hexact := exactOrRefused_of_kept hd hvalue ⟨hexponent, fits_of_room hvalue hroom⟩
      ⟨hroom, .inl hmultiple⟩
    exact (hexact.exact n).mpr ((denotesRao_iff hd hvalue).mpr (by rw [hrao, Int.cast_natCast]))

/-! ## The two together -/

/-- **When the conversion is exact or refuses.** For every text of at most 64 characters that is
so exactly where every positive number it denotes, if the type can hold it, keeps what matters of
its digits through the multiplication; and an amount comes back from its own rendering exactly
where it has room in the arithmetic and at most 28 significant digits. -/
theorem raoFromTao_exact_iff (u : Decimals) :
    (∀ amount : String, amount.length ≤ 64 → (ExactOrRefused u amount ↔ Safe u amount)) ∧
    ∀ n : ℕ, 0 < n →
      ((∃ tao, taoFromRao n = .ok tao ∧ raoFromTao u tao = .ok (n : ℤ)) ↔
        (n : ℚ) < defaultContext.bound ∧ 10 ^ (DecimalNumber.digits n - 28) ∣ n) := by
  refine ⟨fun amount hlength ↦ ?_, fun n hn ↦ raoFromTao_taoFromRao_iff hn⟩
  rw [← String.length_toList] at hlength
  constructor
  · intro h d hd hvalue hexponent
    exact kept_of_exactOrRefused hlength hd hvalue h hexponent
  · intro h
    by_cases hpos : ∃ d, u.numeral? (strip (strip amount)).toList = some (.finite d) ∧ 0 < d.value
    · obtain ⟨d, hd, hvalue⟩ := hpos
      by_cases hexponent : minEtiny ≤ d.exponent
      · have hkept := h d hd hvalue hexponent
        exact exactOrRefused_of_kept hd hvalue ⟨hexponent, fits_of_room hvalue hkept.room⟩ hkept
      · exact exactOrRefused_of_tiny hlength hd hvalue hexponent
    · exact exactOrRefused_of_not_pos fun d hd hvalue ↦ hpos ⟨d, hd, hvalue⟩

/-- A text with a thirtieth decimal place is credited as if it were not there. -/
theorem raoFromTao_rounds :
    raoFromTao unicodeDecimals "1.00000000000000000000000000001" = .ok 1000000000 ∧
      ¬ ExactOrRefused unicodeDecimals "1.00000000000000000000000000001" := by
  have hcode : raoFromTao unicodeDecimals "1.00000000000000000000000000001" = .ok 1000000000 := by
    decide +kernel
  have hnumeral : unicodeDecimals.numeral?
      (strip (strip "1.00000000000000000000000000001")).toList =
        some (.finite ⟨false, 100000000000000000000000000001, -29⟩) := by
    decide +kernel
  refine ⟨hcode, fun h ↦ ?_⟩
  have hexact := (denotesRao_iff hnumeral (by norm_num [DecimalNumber.value,
    DecimalNumber.magnitude])).mp ((h.exact _).mp hcode)
  norm_num [DecimalNumber.magnitude, raoPerTao] at hexact

/-- A price of half a TAO is read exactly, and an amount of one rao comes back. -/
theorem raoFromTao_exact_iff_ordinary :
    (ExactOrRefused unicodeDecimals " 0.50 " ↔ Safe unicodeDecimals " 0.50 ") ∧
      raoFromTao unicodeDecimals " 0.50 " = .ok 500000000 ∧
      ((∃ tao, taoFromRao (1 : ℕ) = .ok tao ∧ raoFromTao unicodeDecimals tao = .ok 1) ↔
        ((1 : ℕ) : ℚ) < defaultContext.bound ∧ 10 ^ (DecimalNumber.digits 1 - 28) ∣ 1) :=
  ⟨(raoFromTao_exact_iff unicodeDecimals).1 " 0.50 " (by decide), by decide +kernel,
    (raoFromTao_exact_iff unicodeDecimals).2 1 (by decide)⟩

end Conjectures.TmcPay

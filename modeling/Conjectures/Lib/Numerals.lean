import Conjectures.Lib.Decimals
import Conjectures.Lib.DecimalArithmetic

/-!
# Texts of decimal numbers

The numeric strings of decimal arithmetic: a sign, digits with a point among them or around
them, an exponent; or the name of an infinity or of a quiet or signalling NaN. Underscores are
passed over. The text is exact: no digit of it is lost.
-/

namespace Conjectures.Lib

inductive Numeral where
  | finite (d : DecimalNumber)
  /-- an infinity, or not a number -/
  | special
  deriving DecidableEq

/-- An optional sign. -/
def signed : List Char → Bool × List Char
  | '-' :: text => (true, text)
  | '+' :: text => (false, text)
  | text => (false, text)

namespace Decimals

variable (u : Decimals)

/-- `Infinity`, `Inf`, `NaN`, `sNaN`, in any case, a NaN with digits of its own. -/
def isSpecial (text : List Char) : Bool :=
  let text := text.map Char.toLower
  let nan := if text.head? = some 's' then text.tail else text
  decide (text = "inf".toList) || decide (text = "infinity".toList) ||
    (decide (nan.take 3 = "nan".toList) && (nan.drop 3).all u.isDecimal)

/-- The exponent a text ends with. -/
def exponent? : List Char → Option ℤ
  | [] => some 0
  | c :: text =>
    let (negative, digits) := signed text
    if (c = 'e' ∨ c = 'E') ∧ digits ≠ [] ∧ digits.all u.isDecimal then
      some (if negative then -(u.int digits : ℤ) else u.int digits)
    else none

/-- The digits after a point, and what follows them. -/
def fraction : List Char → List Char × List Char
  | '.' :: text => (text.takeWhile u.isDecimal, text.dropWhile u.isDecimal)
  | text => ([], text)

/-- What a text denotes, exactly. -/
def numeral? (text : List Char) : Option Numeral :=
  let (negative, text) := signed (text.filter (· ≠ '_'))
  if u.isSpecial text then some .special
  else
    let whole := text.takeWhile u.isDecimal
    let (fraction, text) := u.fraction (text.dropWhile u.isDecimal)
    if whole ++ fraction = [] then none
    else (u.exponent? text).map fun exponent ↦
      .finite ⟨negative, u.int (whole ++ fraction), exponent - fraction.length⟩

end Decimals

/-- The largest exponent a leading digit can have. -/
def maxEmax : ℤ := 999999999999999999

/-- The least exponent a last digit can have. -/
def minEtiny : ℤ := -1999999999999999997

/-- The number is within the limits of the type. -/
def DecimalNumber.Fits (d : DecimalNumber) : Prop :=
  minEtiny ≤ d.exponent ∧ d.adjusted ≤ maxEmax

instance DecimalNumber.Fits.decidable (d : DecimalNumber) : Decidable d.Fits := by
  unfold Fits; infer_instance

/-- The constructor: what the text denotes, unless that is beyond the limits of the type. -/
def Decimals.number? (u : Decimals) (text : List Char) : Option Numeral :=
  match u.numeral? text with
  | some (.finite d) => if d.Fits then some (.finite d) else none
  | numeral => numeral

namespace Decimals

variable {u : Decimals}

theorem length_signed_le (text : List Char) : (signed text).2.length ≤ text.length := by
  unfold signed
  split
  · exact Nat.le_succ _
  · exact Nat.le_succ _
  · exact le_rfl

theorem length_fraction_le (text : List Char) : (u.fraction text).1.length ≤ text.length := by
  unfold fraction
  split
  · exact ((List.takeWhile_sublist _).length_le).trans (Nat.le_succ _)
  · exact Nat.zero_le _

/-- A coefficient has no more digits than its text has characters. -/
theorem coefficient_lt_of_numeral? {text : List Char} {d : DecimalNumber}
    (h : u.numeral? text = some (.finite d)) : d.coefficient < 10 ^ text.length := by
  unfold numeral? at h
  dsimp only at h
  generalize hbody : (signed (text.filter (· ≠ '_'))).2 = body at h
  have hlength : body.length ≤ text.length :=
    hbody ▸ (length_signed_le _).trans (List.length_filter_le _ _)
  split at h
  · cases h
  · split at h
    · cases h
    · obtain ⟨exponent, -, hd⟩ := Option.map_eq_some_iff.mp h
      cases hd
      refine (int_lt _).trans_le (Nat.pow_le_pow_right (by norm_num) ?_)
      have hsplit := congrArg List.length (@List.takeWhile_append_dropWhile _ u.isDecimal body)
      have hfraction := @length_fraction_le u (body.dropWhile u.isDecimal)
      rw [List.length_append] at hsplit ⊢
      omega

/-- A text that starts with a digit is no name. -/
theorem isSpecial_of_isDigit {c : Char} (h : c.isDigit) (text : List Char) :
    u.isSpecial (c :: text) = false := by
  have hlower : c.toLower = c := by
    obtain ⟨-, hhigh⟩ := Char.isDigit_iff_toNat.mp h
    change c.val.toNat ≤ 57 at hhigh
    unfold Char.toLower
    split
    · rename_i hupper
      have hlow : 65 ≤ c.val.toNat := UInt32.le_iff_toNat_le.mp hupper.1
      omega
    · rfl
  have hne : ∀ letter : Char, letter.isDigit = false → c ≠ letter := by
    rintro _ hletter rfl
    rw [h] at hletter
    cases hletter
  unfold isSpecial
  rw [List.map_cons, hlower]
  simp [hne 'i' (by decide), hne 's' (by decide), hne 'n' (by decide)]

/-- A text of digits and a point denotes its digits, moved behind the point. -/
theorem numeral?_of_digits {whole fraction : List Char} (hwhole : whole ≠ [])
    (hdigits : ∀ c ∈ whole, c.isDigit) (hfraction : ∀ c ∈ fraction, c.isDigit) :
    u.numeral? (if fraction = [] then whole else whole ++ '.' :: fraction) =
      some (.finite ⟨false, u.int (whole ++ fraction), -fraction.length⟩) := by
  -- whatever follows the whole part, it starts with no digit and leaves nothing to read
  obtain ⟨rest, hrest, hhead, hunderscore, hparts⟩ : ∃ rest, (if fraction = [] then whole
      else whole ++ '.' :: fraction) = whole ++ rest ∧ (∀ c ∈ rest.head?, u.value c = none) ∧
        (∀ c ∈ rest, c ≠ '_') ∧ u.fraction rest = (fraction, []) := by
    split
    · rename_i hempty
      subst hempty
      exact ⟨[], (List.append_nil _).symm, nofun, nofun, rfl⟩
    · refine ⟨'.' :: fraction, rfl, ?_, ?_, ?_⟩
      · intro c hc
        cases hc
        exact u.ascii (by decide)
      · intro c hc heq
        rcases List.mem_cons.mp hc with rfl | hc
        · exact absurd heq (by decide)
        · exact absurd (heq ▸ hfraction c hc) (by decide)
      · obtain ⟨htake, hdrop⟩ := @span_digits u _ [] hfraction nofun
        rw [List.append_nil] at htake hdrop
        rw [Decimals.fraction, htake, hdrop]
  have hfilter : (whole ++ rest).filter (· ≠ '_') = whole ++ rest := by
    refine List.filter_eq_self.mpr fun c hc ↦ decide_eq_true ?_
    rcases List.mem_append.mp hc with hc | hc
    · intro heq
      exact absurd (heq ▸ hdigits c hc) (by decide)
    · exact hunderscore c hc
  obtain ⟨c, tail, rfl⟩ := List.exists_cons_of_ne_nil hwhole
  have hc := hdigits c List.mem_cons_self
  have hsigned : signed (c :: tail ++ rest) = (false, c :: tail ++ rest) := by
    rw [List.cons_append, signed]
    · rintro _ ⟨rfl, -⟩
      exact absurd hc (by decide)
    · rintro _ ⟨rfl, -⟩
      exact absurd hc (by decide)
  obtain ⟨htake, hdrop⟩ := @span_digits u _ _ hdigits hhead
  unfold numeral?
  dsimp only
  rw [hrest, hfilter, hsigned]
  dsimp only
  rw [List.cons_append, isSpecial_of_isDigit hc, if_neg Bool.false_ne_true, ← List.cons_append,
    htake, hdrop, hparts]
  dsimp only
  rw [if_neg (by simp), exponent?, Option.map_some, Int.zero_sub]

end Decimals

/-! ## Fixed-point texts -/

/-- The digits of a coefficient, as many of them behind a point as there are decimals. -/
def fixedDigits (coefficient decimals : ℕ) : List Char :=
  (Nat.toDigits 10 coefficient).leftpad (decimals + 1) '0'

/-- A number of a currency's minor units, as the format `f` writes it. -/
def fixedPoint (coefficient decimals : ℕ) : String :=
  let digits := fixedDigits coefficient decimals
  let whole := digits.take (digits.length - decimals)
  let fraction := digits.drop (digits.length - decimals)
  String.ofList (if fraction = [] then whole else whole ++ '.' :: fraction)

namespace Decimals

variable {u : Decimals} {coefficient decimals : ℕ}

theorem isDigit_fixedDigits {c : Char} (h : c ∈ fixedDigits coefficient decimals) : c.isDigit := by
  rcases List.mem_append.mp h with h | h
  · rw [List.eq_of_mem_replicate h]
    decide
  · exact isDigit_toDigits h

theorem lt_length_fixedDigits : decimals < (fixedDigits coefficient decimals).length := by
  rw [fixedDigits, List.length_leftpad]
  omega

theorem isDigit_or_point_fixedPoint {c : Char}
    (h : c ∈ (fixedPoint coefficient decimals).toList) : c.isDigit ∨ c = '.' := by
  have hdigit : ∀ k, ∀ c ∈ (fixedDigits coefficient decimals).take k ++
      (fixedDigits coefficient decimals).drop k, c.isDigit := by
    intro k c hc
    rw [List.take_append_drop] at hc
    exact isDigit_fixedDigits hc
  rw [fixedPoint, String.toList_ofList] at h
  split at h
  · exact .inl (hdigit _ c (List.mem_append_left _ h))
  · rcases List.mem_append.mp h with h | h
    · exact .inl (hdigit _ c (List.mem_append_left _ h))
    · rcases List.mem_cons.mp h with h | h
      · exact .inr h
      · exact .inl (hdigit _ c (List.mem_append_right _ h))

/-- A fixed-point text denotes its coefficient, moved behind the point. -/
theorem numeral?_fixedPoint : u.numeral? (fixedPoint coefficient decimals).toList =
    some (.finite ⟨false, coefficient, -decimals⟩) := by
  have hlength := @lt_length_fixedDigits coefficient decimals
  have hwhole : (fixedDigits coefficient decimals).take
      ((fixedDigits coefficient decimals).length - decimals) ≠ [] := by
    refine List.ne_nil_of_length_pos ?_
    rw [List.length_take]
    omega
  have hint : u.int (fixedDigits coefficient decimals) = coefficient := by
    rw [fixedDigits, List.leftpad, int_append, int_replicate_zero, Nat.zero_mul, Nat.zero_add,
      int_toDigits]
  have hfraction : ∀ c ∈ (fixedDigits coefficient decimals).drop
      ((fixedDigits coefficient decimals).length - decimals), c.isDigit :=
    fun c hc ↦ isDigit_fixedDigits (List.mem_of_mem_drop hc)
  have hread := @numeral?_of_digits u _ _ hwhole
    (fun c hc ↦ isDigit_fixedDigits (List.mem_of_mem_take hc)) hfraction
  rw [List.take_append_drop, hint, List.length_drop] at hread
  rw [fixedPoint, String.toList_ofList, hread]
  congr 3
  omega

end Decimals

end Conjectures.Lib

import Conjectures.Lib.Floating

/-!
# Timestamps of cursors

How `submission_api/pagination.py` and `submission_api/competition_pagination.py` write the
timestamp of a row into a cursor, and read it back: through `datetime.timestamp()`, which is a
double, and whole microseconds.

A timestamp is a number of microseconds, and a double of that size a whole number of units of a
power of two.  Rounding is to nearest, ties to even; `ComesBack` is the condition under which the
way there and back ends at the microsecond it began with.
-/

namespace Conjectures.Feeds

open Lib

/-- 0001-01-01, in microseconds since the epoch -/
def firstMicros : ℤ := -62135596800000000

/-- The end of 9999-12-31. -/
def endMicros : ℤ := 253402300800000000

/-- An aware `datetime`, as its distance from the epoch in microseconds. -/
@[ext]
structure DateTime where
  micros : ℤ
  first_le : firstMicros ≤ micros
  lt_end : micros < endMicros
  deriving DecidableEq

/-- `datetime.timestamp()` -/
def DateTime.timestamp (t : DateTime) : ℚ := double (t.micros / 1000000)

/-- `int(created_at.astimezone(UTC).timestamp() * 1_000_000)`, also `_micros` -/
def DateTime.cursorMicros (t : DateTime) : ℤ := truncate (double (t.timestamp * 1000000))

/-- `datetime.fromtimestamp`, to the nearest microsecond, half to even; none where it raises. -/
def fromTimestamp (x : ℚ) : Option DateTime :=
  let micros := roundEven (x * 1000000)
  if h : firstMicros ≤ micros ∧ micros < endMicros then some ⟨micros, h.1, h.2⟩ else none

/-- `datetime.fromtimestamp(int(micros) / 1_000_000)`, also `_from_micros` -/
def fromMicros (micros : ℤ) : Option DateTime := fromTimestamp (double (micros / 1000000))

theorem fromMicros_eq_some_iff {n : ℤ} {t : DateTime} :
    fromMicros n = some t ↔ roundEven (double ((n : ℚ) / 1000000) * 1000000) = t.micros := by
  unfold fromMicros fromTimestamp
  dsimp only
  constructor
  · intro h
    split at h
    · cases h
      rfl
    · cases h
  · intro h
    rw [dif_pos (h ▸ ⟨t.first_le, t.lt_end⟩)]
    exact congrArg some (DateTime.ext h)

/-- The text is a number of at most 18 digits. -/
theorem cursorMicros_range {t : DateTime} (ht : 0 ≤ t.micros) :
    0 ≤ t.cursorMicros ∧ t.cursorMicros ≤ 2 ^ 58 := by
  have hend := t.lt_end
  rw [endMicros] at hend
  have hseconds : (0 : ℚ) ≤ t.micros / 1000000 := div_nonneg (Int.cast_nonneg ht) (by norm_num)
  have hseconds' : (t.micros : ℚ) / 1000000 ≤ 2 ^ 38 := by
    rw [div_le_iff₀ (by norm_num)]
    have : (t.micros : ℚ) ≤ 253402300800000000 := by exact_mod_cast hend.le
    linarith
  have hstamp : 0 ≤ t.timestamp ∧ t.timestamp ≤ 2 ^ 38 :=
    ⟨double_nonneg hseconds, double_le_pow hseconds hseconds'⟩
  have hproduct : 0 ≤ t.timestamp * 1000000 ∧ t.timestamp * 1000000 ≤ 2 ^ 58 :=
    ⟨by linarith [hstamp.1], by linarith [hstamp.2]⟩
  have hnonneg := double_nonneg hproduct.1
  have hle := double_le_pow hproduct.1 hproduct.2
  rw [DateTime.cursorMicros, truncate, if_pos hnonneg]
  refine ⟨Int.floor_nonneg.mpr hnonneg, ?_⟩
  have := (Int.floor_le (double (t.timestamp * 1000000))).trans hle
  exact_mod_cast this

/-! ## The instants that come back -/

/-- How often `m` microseconds are doubled until the seconds lie between `2 ^ 52` and `2 ^ 53`,
where a double has no place left behind the point. -/
def scale (m : ℕ) : ℕ := 72 - Nat.log 2 (m * 2 ^ 20 / 1000000)

/-- The multiple of `1000000` nearest to a number. -/
def nearestMillion (a : ℕ) : ℕ := (a + 500000) / 1000000 * 1000000

/-- Whether an instant comes back from a cursor: with `a` its microseconds scaled up, and `b` the
multiple of a million nearest to `a`.

Before `2 ^ 33` seconds, in the year 2242, it does unless `b` is less than `2 ^ 72` and more than
`2 ^ 18` below `a`. After that an instant has to be the nearest one to `b`, and `b`, from `2 ^ 72`
on, not far from a multiple of `2 ^ 20`. -/
def ComesBack (m : ℕ) : Prop :=
  let s := scale m
  let a := m * 2 ^ s
  let b := nearestMillion a
  m = 0 ∨
    if 20 ≤ s then 2 ^ 72 ≤ b ∨ a ≤ b + 2 ^ 18
    else
      (2 * b < 2 * a + 2 ^ s ∧ 2 * a < 2 * b + 2 ^ s ∨
        (2 * b = 2 * a + 2 ^ s ∨ 2 * a = 2 * b + 2 ^ s) ∧ Even m) ∧
      (b < 2 ^ 72 ∨ b % 2 ^ 20 < 500000 ∨ 548576 < b % 2 ^ 20)

instance ComesBack.decidable (m : ℕ) : Decidable (ComesBack m) := by
  unfold ComesBack; infer_instance

theorem scale_spec {m : ℕ} (hm : 0 < m) (hend : m < 253402300800000000) :
    15 ≤ scale m ∧ 1000000 * 2 ^ 52 ≤ m * 2 ^ scale m ∧ m * 2 ^ scale m < 1000000 * 2 ^ 53 := by
  have hx : m * 2 ^ 20 / 1000000 ≠ 0 := by omega
  obtain ⟨L, hL⟩ : ∃ L, L = Nat.log 2 (m * 2 ^ 20 / 1000000) := ⟨_, rfl⟩
  have hlow : 2 ^ L ≤ m * 2 ^ 20 / 1000000 := hL ▸ Nat.pow_log_le_self 2 hx
  have hhigh : m * 2 ^ 20 / 1000000 < 2 ^ (L + 1) :=
    hL ▸ Nat.lt_pow_succ_log_self (by norm_num) _
  have hL57 : L ≤ 57 := by
    have : 2 ^ L < 2 ^ 58 := by omega
    exact Nat.lt_succ_iff.mp ((Nat.pow_lt_pow_iff_right (by norm_num)).mp this)
  have hscale : scale m = 72 - L := by rw [scale, hL]
  have hpow : 2 ^ L * 2 ^ scale m = 2 ^ 72 := by
    rw [hscale, ← pow_add]
    congr 1
    omega
  have hpos : 0 < 2 ^ L := by positivity
  rw [pow_succ] at hhigh
  refine ⟨by omega, ?_, ?_⟩
  · refine Nat.le_of_mul_le_mul_left ?_ hpos
    calc 2 ^ L * (1000000 * 2 ^ 52) = 2 ^ L * 1000000 * 2 ^ 52 := by ring
      _ ≤ m * 2 ^ 20 * 2 ^ 52 := Nat.mul_le_mul_right _ (by omega)
      _ = 2 ^ L * (m * 2 ^ scale m) := by
        rw [mul_left_comm, hpow]
        ring
  · refine Nat.lt_of_mul_lt_mul_left (a := 2 ^ L) ?_
    calc 2 ^ L * (m * 2 ^ scale m) = m * 2 ^ 20 * 2 ^ 52 := by
          rw [mul_left_comm, hpow]
          ring
      _ < 2 ^ L * 2 * 1000000 * 2 ^ 52 := Nat.mul_lt_mul_of_pos_right (by omega) (by positivity)
      _ = 2 ^ L * (1000000 * 2 ^ 53) := by ring

/-! ## In integers -/

/-- A scaled number of microseconds is no odd multiple of half a million, so the nearest multiple
of a million is the one of the double. -/
theorem roundEven_nearestMillion {a : ℕ} (ha : 64 ∣ a) :
    roundEven ((a : ℚ) / 1000000) * 1000000 = (nearestMillion a : ℤ) := by
  have hround := (roundEven_div_eq_iff (a := a) (k := ((a + 500000) / 1000000 : ℕ))
    (q := 1000000) (by norm_num)).mpr (Or.inl (by omega))
  push_cast at hround
  rw [hround, nearestMillion]
  push_cast
  rfl

theorem roundEven_div_two_pow {b g : ℕ} {k : ℤ}
    (h : (-2 ^ g < 2 * ((b : ℤ) - k * 2 ^ g) ∧ 2 * ((b : ℤ) - k * 2 ^ g) < 2 ^ g) ∨
      ((2 * ((b : ℤ) - k * 2 ^ g) = 2 ^ g ∨ 2 * ((b : ℤ) - k * 2 ^ g) = -2 ^ g) ∧ Even k)) :
    roundEven ((b : ℚ) / 2 ^ g) = k := by
  have hround := (roundEven_div_eq_iff (a := b) (k := k) (q := 2 ^ g) (by positivity)).mpr h
  push_cast at hround
  exact hround

theorem nearestMillion_spec {a : ℕ} (ha : 64 ∣ a) :
    a < nearestMillion a + 500000 ∧ nearestMillion a < a + 500000 ∧ 64 ∣ nearestMillion a ∧
      1000000 ∣ nearestMillion a := by
  unfold nearestMillion
  omega

section Encode

variable {t : DateTime} {m s : ℕ}

theorem timestamp_eq (ht : t.micros = m) (hs : 15 ≤ s) (hlow : 1000000 * 2 ^ 52 ≤ m * 2 ^ s)
    (hhigh : m * 2 ^ s < 1000000 * 2 ^ 53) :
    t.timestamp * 1000000 = ((nearestMillion (m * 2 ^ s) : ℤ) : ℚ) / ((1 : ℤ) * 2 ^ s) := by
  have hdvd : 64 ∣ m * 2 ^ s :=
    (show 64 ∣ 2 ^ s from pow_dvd_pow 2 (show 6 ≤ s by omega)).mul_left m
  have harg : (t.micros : ℚ) / 1000000 = ((m * 2 ^ s : ℤ) : ℚ) / ((1000000 : ℤ) * 2 ^ s) := by
    rw [ht]
    push_cast
    field_simp
  have hlow' : (2 : ℤ) ^ (0 + 52) * 1000000 ≤ m * 2 ^ s := by
    rw [zero_add, mul_comm]
    exact_mod_cast hlow
  have hhigh' : (m : ℤ) * 2 ^ s ≤ 2 ^ (0 + 53) * 1000000 := by
    rw [zero_add, mul_comm (2 ^ 53)]
    exact_mod_cast hhigh.le
  have hscaled := double_scaled (s := s) (by norm_num) hlow' hhigh'
  rw [DateTime.timestamp, harg, hscaled, ← roundEven_nearestMillion hdvd]
  push_cast
  ring_nf

/-- The text of the timestamp: twice rounded, then cut off. -/
theorem cursorMicros_eq (ht : t.micros = m) (hs : 15 ≤ s)
    (hlow : 1000000 * 2 ^ 52 ≤ m * 2 ^ s) (hhigh : m * 2 ^ s < 1000000 * 2 ^ 53) {g : ℕ}
    (hg : (g = 19 ∧ nearestMillion (m * 2 ^ s) ≤ 2 ^ 72) ∨
      (g = 20 ∧ 2 ^ 72 ≤ nearestMillion (m * 2 ^ s))) :
    t.cursorMicros =
      roundEven ((nearestMillion (m * 2 ^ s) : ℚ) / 2 ^ g) * 2 ^ g / 2 ^ s := by
  have hdvd : 64 ∣ m * 2 ^ s :=
    (show 64 ∣ 2 ^ s from pow_dvd_pow 2 (show 6 ≤ s by omega)).mul_left m
  obtain ⟨hb, hb', -, -⟩ := nearestMillion_spec hdvd
  have hscaled := double_scaled (a := (nearestMillion (m * 2 ^ s) : ℤ)) (q := 1) (s := s) (g := g)
    (by norm_num)
    (by rcases hg with ⟨rfl, h⟩ | ⟨rfl, h⟩ <;> norm_num <;> omega)
    (by rcases hg with ⟨rfl, h⟩ | ⟨rfl, h⟩ <;> norm_num <;> omega)
  have hunit : (((2 ^ g * 1 : ℤ) : ℤ) : ℚ) = 2 ^ g := by push_cast; ring
  rw [hunit, Int.cast_natCast] at hscaled
  have hnonneg : 0 ≤ roundEven ((nearestMillion (m * 2 ^ s) : ℚ) / 2 ^ g) :=
    le_roundEven (div_nonneg (Nat.cast_nonneg _) (by positivity))
  have htimestamp := timestamp_eq ht hs hlow hhigh
  rw [Int.cast_natCast] at htimestamp
  rw [DateTime.cursorMicros, htimestamp, hscaled, truncate, if_pos (by positivity)]
  exact_mod_cast Rat.floor_intCast_div_natCast _ (2 ^ s)

end Encode

/-! ## Before 2242 -/

/-- Up to `2 ^ 33` seconds, what is read back is what was written. -/
theorem fromMicros_exact {n : ℕ} (hn : n < 2 ^ 33 * 1000000) :
    roundEven (double ((n : ℚ) / 1000000) * 1000000) = n := by
  rcases Nat.eq_zero_or_pos n with rfl | hpos
  · simpa using roundEven_intCast 0
  · have hx : (0 : ℚ) < n / 1000000 := div_pos (Nat.cast_pos.mpr hpos) (by norm_num)
    have hlt : (n : ℚ) / 1000000 < 2 ^ (33 : ℤ) := by
      rw [div_lt_iff₀ (by norm_num)]
      exact_mod_cast hn
    have hclose := abs_le.mp (abs_double_sub_le hx hlt)
    norm_num at hclose
    refine roundEven_eq_of_abs_lt (abs_lt.mpr ⟨?_, ?_⟩)
    · push_cast
      linarith [hclose.1]
    · push_cast
      linarith [hclose.2]

/-- The text is the microseconds, or one less where the product falls below them by more than a
quarter of the unit of its double. -/
theorem cursorMicros_early {t : DateTime} {m s : ℕ} (ht : t.micros = m) (hs : 20 ≤ s)
    (hlow : 1000000 * 2 ^ 52 ≤ m * 2 ^ s) (hhigh : m * 2 ^ s < 1000000 * 2 ^ 53) :
    t.cursorMicros =
      if 2 ^ 72 ≤ nearestMillion (m * 2 ^ s) ∨ m * 2 ^ s ≤ nearestMillion (m * 2 ^ s) + 2 ^ 18
      then (m : ℤ) else m - 1 := by
  obtain ⟨w, hw, hwpos⟩ : ∃ w : ℤ, (2 : ℤ) ^ s = 2 ^ 20 * w ∧ 0 < w := by
    refine ⟨2 ^ (s - 20), ?_, by positivity⟩
    rw [← pow_add]
    congr 1
    omega
  have hdvd : 64 ∣ m * 2 ^ s :=
    (show 64 ∣ 2 ^ s from pow_dvd_pow 2 (show 6 ≤ s by omega)).mul_left m
  obtain ⟨hb, hb', -, -⟩ := nearestMillion_spec hdvd
  have hencode := @cursorMicros_eq t m s ht (by omega) hlow hhigh
  have hcast : ((m * 2 ^ s : ℕ) : ℤ) = 2 ^ 20 * (m * w) := by
    push_cast
    rw [hw]
    ring
  generalize nearestMillion (m * 2 ^ s) = b at *
  generalize m * 2 ^ s = a at *
  have hP : (0 : ℤ) < 2 ^ s := by positivity
  by_cases hlarge : 2 ^ 72 ≤ b
  · have hC := roundEven_div_two_pow (b := b) (g := 20) (k := m * w) (Or.inl (by omega))
    rw [hencode (Or.inr ⟨rfl, hlarge⟩), hC, if_pos (Or.inl hlarge)]
    refine (Int.ediv_eq_iff_of_pos hP).mpr ⟨?_, ?_⟩ <;> rw [hw] <;> nlinarith
  · have hsmall : b ≤ 2 ^ 72 := by omega
    rw [hencode (Or.inl ⟨rfl, hsmall⟩)]
    by_cases hbelow : a ≤ b + 2 ^ 18
    · rw [if_pos (Or.inr hbelow)]
      by_cases hnear : b ≤ a + 2 ^ 18
      · have hC := roundEven_div_two_pow (b := b) (g := 19) (k := 2 * (m * w)) (by
          rcases (show (-2 ^ 19 < 2 * ((b : ℤ) - 2 * (m * w) * 2 ^ 19) ∧
            2 * ((b : ℤ) - 2 * (m * w) * 2 ^ 19) < 2 ^ 19) ∨
            (2 * ((b : ℤ) - 2 * (m * w) * 2 ^ 19) = 2 ^ 19 ∨
              2 * ((b : ℤ) - 2 * (m * w) * 2 ^ 19) = -2 ^ 19) by omega) with h | h
          · exact Or.inl h
          · exact Or.inr ⟨h, even_two_mul _⟩)
        rw [hC]
        refine (Int.ediv_eq_iff_of_pos hP).mpr ⟨?_, ?_⟩ <;> rw [hw] <;> nlinarith
      · have hC := roundEven_div_two_pow (b := b) (g := 19) (k := 2 * (m * w) + 1) (Or.inl (by omega))
        rw [hC]
        refine (Int.ediv_eq_iff_of_pos hP).mpr ⟨?_, ?_⟩ <;> rw [hw] <;> nlinarith
    · rw [if_neg (by omega)]
      have hC := roundEven_div_two_pow (b := b) (g := 19) (k := 2 * (m * w) - 1) (Or.inl (by omega))
      rw [hC]
      refine (Int.ediv_eq_iff_of_pos hP).mpr ⟨?_, ?_⟩ <;> rw [hw] <;> nlinarith

/-! ## From 2242 on -/

/-- The text is a multiple of a power of two, and is read back as one of the doubles near it. -/
theorem fromMicros_late {n : ℤ} {c s : ℕ} (hn : n * 2 ^ s = c) (hlow : 1000000 * 2 ^ 52 ≤ c)
    (hhigh : c ≤ 1000000 * 2 ^ 53) :
    double ((n : ℚ) / 1000000) * 1000000 =
      ((roundEven ((c : ℚ) / 1000000) * 1000000 : ℤ) : ℚ) / (((2 ^ s : ℕ) : ℤ) : ℚ) := by
  have harg : (n : ℚ) / 1000000 = ((c : ℤ) : ℚ) / ((1000000 : ℤ) * 2 ^ s) := by
    rw [← hn]
    push_cast
    field_simp
  have hlow' : (2 : ℤ) ^ (0 + 52) * 1000000 ≤ c := by
    rw [zero_add, mul_comm]
    exact_mod_cast hlow
  have hhigh' : (c : ℤ) ≤ 2 ^ (0 + 53) * 1000000 := by
    rw [zero_add, mul_comm (2 ^ 53)]
    exact_mod_cast hhigh
  rw [harg, double_scaled (s := s) (by norm_num) hlow' hhigh']
  push_cast
  ring_nf

/-- The double of the product, scaled up, for a product in one of two ranges. -/
theorem late_text {a b g : ℕ} (hg : (g = 19 ∧ b ≤ 2 ^ 72) ∨ (g = 20 ∧ 2 ^ 72 ≤ b))
    (hb : a < b + 500000 ∧ b < a + 500000 ∧ 64 ∣ b ∧ 1000000 ∣ b)
    (hlow : 1000000 * 2 ^ 52 ≤ a) (hhigh : a ≤ 1000000 * 2 ^ 53) :
    ∃ c : ℕ, roundEven ((b : ℚ) / 2 ^ g) * 2 ^ g = c ∧ 2 ^ g ∣ c ∧
      (2 * c ≤ 2 * b + 2 ^ g ∧ 2 * b ≤ 2 * c + 2 ^ g) ∧
      1000000 * 2 ^ 52 ≤ c ∧ c ≤ 1000000 * 2 ^ 53 := by
  have hbounds : 1000000 * 2 ^ 52 ≤ b ∧ b ≤ 1000000 * 2 ^ 53 := by omega
  have hnonneg : 0 ≤ roundEven ((b : ℚ) / 2 ^ g) :=
    le_roundEven (div_nonneg (Nat.cast_nonneg _) (by positivity))
  obtain ⟨C, hC⟩ := Int.eq_ofNat_of_zero_le hnonneg
  have hq : (((2 ^ g : ℕ) : ℤ) : ℚ) = 2 ^ g := by push_cast; rfl
  have hclose := (roundEven_div_eq_iff (a := b) (q := ((2 ^ g : ℕ) : ℤ))
    (Int.natCast_pos.mpr (by positivity))).mp rfl
  rw [hq, Int.cast_natCast, hC] at hclose
  -- no multiple of the unit is passed
  have hpass : ∀ n : ℕ, (n * 2 ^ g ≤ b → n ≤ C) ∧ (b ≤ n * 2 ^ g → C ≤ n) := by
    intro n
    constructor
    · intro h
      have : (n : ℤ) ≤ roundEven ((b : ℚ) / 2 ^ g) :=
        le_roundEven ((le_div_iff₀ (by positivity)).mpr (by exact_mod_cast h))
      omega
    · intro h
      have : roundEven ((b : ℚ) / 2 ^ g) ≤ (n : ℤ) :=
        roundEven_le ((div_le_iff₀ (by positivity)).mpr (by exact_mod_cast h))
      omega
  refine ⟨C * 2 ^ g, by rw [hC]; push_cast; rfl, dvd_mul_left _ _, ?_, ?_⟩
  · generalize 2 ^ g = P at hclose ⊢
    rcases hclose with h | ⟨h, -⟩ <;> omega
  · rcases hg with ⟨rfl, -⟩ | ⟨rfl, -⟩
    · have hfloor := (hpass (1000000 * 2 ^ 33)).1 (by omega)
      have hceil := (hpass (1000000 * 2 ^ 34)).2 (by omega)
      omega
    · have hfloor := (hpass (1000000 * 2 ^ 32)).1 (by omega)
      have hceil := (hpass (1000000 * 2 ^ 33)).2 (by omega)
      omega

/-- Which of the multiples of a million near a text is the instant's own. -/
theorem late_iff {m a b c P : ℕ} {d : ℤ} (hP : P ≤ 2 ^ 19) (ha : a = m * P)
    (hb : a < b + 500000 ∧ b < a + 500000 ∧ 64 ∣ b ∧ 1000000 ∣ b) (hc : 64 ∣ c)
    (hd : -1000000 ≤ 2 * (c - d * 1000000) ∧ 2 * (c - d * 1000000) ≤ 1000000) :
    ((-(P : ℤ) < 2 * (d * 1000000 - (m : ℤ) * P) ∧ 2 * (d * 1000000 - (m : ℤ) * P) < P) ∨
        ((2 * (d * 1000000 - (m : ℤ) * P) = P ∨ 2 * (d * 1000000 - (m : ℤ) * P) = -P) ∧
          Even (m : ℤ))) ↔
      ((2 * b < 2 * a + P ∧ 2 * a < 2 * b + P ∨
          (2 * b = 2 * a + P ∨ 2 * a = 2 * b + P) ∧ Even m) ∧
        (c < b + 500000 ∧ b < c + 500000)) := by
  rw [Int.even_coe_nat, ← Int.natCast_mul, ← ha]
  obtain ⟨hab, hba, h64, B, rfl⟩ := hb
  constructor
  · intro h
    have hdb : d * 1000000 = ((1000000 * B : ℕ) : ℤ) := by
      rcases h with h | ⟨h, -⟩ <;> omega
    rw [hdb] at h hd
    refine ⟨?_, by omega, by omega⟩
    rcases h with h | ⟨h, heven⟩
    · exact Or.inl (by omega)
    · exact Or.inr ⟨by omega, heven⟩
  · rintro ⟨h, hcb, hbc⟩
    have hdb : d * 1000000 = ((1000000 * B : ℕ) : ℤ) := by omega
    rw [hdb]
    rcases h with h | ⟨h, heven⟩
    · exact Or.inl (by omega)
    · exact Or.inr ⟨by omega, heven⟩

/-! ## Every instant -/

/-- An instant at or after the epoch comes back from its text exactly if `ComesBack` says so. -/
theorem fromMicros_cursorMicros_iff {t : DateTime} (ht : 0 ≤ t.micros) :
    fromMicros t.cursorMicros = some t ↔ ComesBack t.micros.toNat := by
  obtain ⟨m, hm⟩ := Int.eq_ofNat_of_zero_le ht
  have hend := t.lt_end
  rw [hm, endMicros] at hend
  rw [fromMicros_eq_some_iff, hm, Int.toNat_natCast]
  rcases Nat.eq_zero_or_pos m with rfl | hpos
  · have htext : t.cursorMicros = 0 := by
      rw [DateTime.cursorMicros, DateTime.timestamp, hm]
      norm_num [truncate]
    rw [htext]
    refine iff_of_true ?_ (Or.inl rfl)
    simpa using roundEven_intCast 0
  · obtain ⟨hs, hlow, hhigh⟩ := scale_spec hpos (by omega)
    unfold ComesBack
    dsimp only
    rw [or_iff_right hpos.ne']
    obtain ⟨s, hscale⟩ : ∃ s, s = scale m := ⟨_, rfl⟩
    rw [← hscale] at hs hlow hhigh ⊢
    have h64 : 64 ∣ m * 2 ^ s :=
      (show 64 ∣ 2 ^ s from pow_dvd_pow 2 (show 6 ≤ s by omega)).mul_left m
    have hspec := nearestMillion_spec h64
    by_cases hearly : 20 ≤ s
    · have htext := cursorMicros_early hm hearly hlow hhigh
      have hm33 : m < 2 ^ 33 * 1000000 := by
        have hpow : 2 ^ 20 ≤ 2 ^ s := Nat.pow_le_pow_right (by norm_num) hearly
        by_contra hge
        have := Nat.mul_le_mul (not_lt.mp hge) hpow
        omega
      rw [if_pos hearly, htext]
      split
      next hkept =>
        have hback := fromMicros_exact hm33
        rw [Int.cast_natCast]
        exact iff_of_true hback hkept
      next hlost =>
        obtain ⟨n, rfl⟩ : ∃ n, m = n + 1 := ⟨m - 1, by omega⟩
        refine iff_of_false ?_ hlost
        have hback := fromMicros_exact (n := n) (by omega)
        push_cast
        rw [add_sub_cancel_right, hback]
        omega
    · rw [if_neg hearly]
      have hP : (0 : ℤ) < ((2 ^ s : ℕ) : ℤ) := Int.natCast_pos.mpr (by positivity)
      have hP19 : 2 ^ s ≤ 2 ^ 19 := Nat.pow_le_pow_right (by norm_num) (by omega)
      generalize hb : nearestMillion (m * 2 ^ s) = b at *
      -- the double of the product is the multiple of one unit nearest to it
      obtain ⟨g, hg, hg19, hside⟩ : ∃ g, ((g = 19 ∧ b ≤ 2 ^ 72) ∨ (g = 20 ∧ 2 ^ 72 ≤ b)) ∧
          19 ≤ g ∧ (g = 19 ↔ b < 2 ^ 72) := by
        rcases lt_or_ge b (2 ^ 72) with hlt | hge
        · exact ⟨19, Or.inl ⟨rfl, hlt.le⟩, le_rfl, iff_of_true rfl hlt⟩
        · exact ⟨20, Or.inr ⟨rfl, hge⟩, by norm_num, iff_of_false (by norm_num) (by omega)⟩
      have htext := cursorMicros_eq hm hs hlow hhigh (hb ▸ hg)
      rw [hb] at htext
      obtain ⟨c, hc, hcg, hcb, hclow, hchigh⟩ := late_text hg hspec hlow hhigh.le
      have hn : t.cursorMicros * 2 ^ s = c := by
        rw [htext, ← hc, Int.ediv_mul_cancel]
        exact (pow_dvd_pow 2 (by omega)).mul_left _
      have hd := (roundEven_div_eq_iff (a := c) (q := 1000000) (by norm_num)).mp rfl
      push_cast at hd
      have h64c : 64 ∣ c := (pow_dvd_pow 2 (show 6 ≤ g by omega)).trans hcg
      rw [fromMicros_late hn hclow hchigh, roundEven_div_eq_iff hP,
        late_iff hP19 rfl hspec h64c (by rcases hd with hd | ⟨hd, -⟩ <;> omega)]
      refine and_congr_right fun _ ↦ ?_
      obtain ⟨C, rfl⟩ := hcg
      rcases hg with ⟨rfl, hsmall⟩ | ⟨rfl, hlarge⟩
      · refine iff_of_true (by omega) (Or.inl (hside.mp rfl))
      · have hC : C = b / 2 ^ 20 ∨ C = b / 2 ^ 20 + 1 := by omega
        rcases hC with rfl | rfl <;> omega

end Conjectures.Feeds

import Mathlib.Data.Rat.Floor
import Mathlib.Tactic.FieldSimp
import Conjectures.Bounty.Pricing

/-!
# The formula is one interpolation

`calculate_bounty_rao` works in integers throughout. Over the rationals it is the line from the
base share of the balance to the maximum share of it, stopped at the end of the ramp, and the
code rounds that line exactly once.
-/

namespace Conjectures.Bounty

open Lib Db

/-- What `calculate_bounty_rao` accepts. -/
structure Admitted (balance age ramp cn cd mn md : ℤ) : Prop where
  balance_nonneg : 0 ≤ balance
  age_nonneg : 0 ≤ age
  ramp_pos : 0 < ramp
  constant_pos : 0 < cn ∧ 0 < cd
  max_pos : 0 < mn ∧ 0 < md
  max_le_treasury : mn ≤ md
  start_le_max : cn * md ≤ mn * cd

/-! ## The line -/

/-- How far along its ramp a target of this age is, from `0` to `1`. -/
def rampPart (age ramp : ℤ) : ℚ := (min age ramp : ℤ) / ramp

/-- The line between two shares of a balance. -/
def interpolation (balance : ℤ) (base cap along : ℚ) : ℚ := balance * (base + (cap - base) * along)

theorem rampPart_nonneg {age ramp : ℤ} (hage : 0 ≤ age) (hramp : 0 < ramp) :
    0 ≤ rampPart age ramp := by
  apply div_nonneg
  · exact Int.cast_nonneg (le_min hage hramp.le)
  · exact Int.cast_nonneg hramp.le

theorem rampPart_le_one {age ramp : ℤ} (hramp : 0 < ramp) : rampPart age ramp ≤ 1 := by
  refine (div_le_one (Int.cast_pos.mpr hramp)).mpr ?_
  exact Int.cast_le.mpr (min_le_right _ _)

theorem rampPart_mono {age age' ramp : ℤ} (hramp : 0 < ramp) (h : age ≤ age') :
    rampPart age ramp ≤ rampPart age' ramp := by
  apply div_le_div_of_nonneg_right
  · exact Int.cast_le.mpr (min_le_min_right ramp h)
  · exact Int.cast_nonneg hramp.le

theorem rampPart_zero {ramp : ℤ} (hramp : 0 < ramp) : rampPart 0 ramp = 0 := by
  simp [rampPart, min_eq_left hramp.le]

theorem rampPart_of_le {age ramp : ℤ} (hramp : 0 < ramp) (h : ramp ≤ age) :
    rampPart age ramp = 1 := by
  rw [rampPart, min_eq_right h]
  exact div_self (Int.cast_ne_zero.mpr hramp.ne')

/-- The line starts at the base share. -/
@[simp] theorem interpolation_zero (balance : ℤ) (base cap : ℚ) :
    interpolation balance base cap 0 = balance * base := by simp [interpolation]

/-- The line ends at the maximum share. -/
@[simp] theorem interpolation_one (balance : ℤ) (base cap : ℚ) :
    interpolation balance base cap 1 = balance * cap := by simp [interpolation]

/-- The line rises with the balance and with the way along it. -/
theorem interpolation_mono {balance balance' : ℤ} {base cap along along' : ℚ}
    (hbalance : 0 ≤ balance) (hbase : 0 ≤ base) (hcap : base ≤ cap) (halong : 0 ≤ along)
    (hb : balance ≤ balance') (ha : along ≤ along') :
    interpolation balance base cap along ≤ interpolation balance' base cap along' := by
  have hgap : 0 ≤ cap - base := sub_nonneg.mpr hcap
  have hshare : base + (cap - base) * along ≤ base + (cap - base) * along' :=
    add_le_add_right (mul_le_mul_of_nonneg_left ha hgap) base
  have hshare_nonneg : 0 ≤ base + (cap - base) * along := add_nonneg hbase (mul_nonneg hgap halong)
  have hbalance' : (0 : ℚ) ≤ balance' := Int.cast_nonneg (hbalance.trans hb)
  exact mul_le_mul (Int.cast_le.mpr hb) hshare hshare_nonneg hbalance'

/-! ## The code computes its floor -/

/-- The checks are passed exactly by the admitted inputs, and nothing after them can fail. -/
theorem calculateBountyRao_eq_ok {balance age ramp cn cd mn md amount : ℤ} :
    calculateBountyRao balance age ramp cn cd mn md = .ok amount ↔
      Admitted balance age ramp cn cd mn md ∧
        balance * (cn * md * ramp + (mn * cd - cn * md) * min age ramp) / (cd * md * ramp) =
          amount := by
  simp only [calculateBountyRao, bind_eq_ok, require_eq_ok, List.forall_mem_cons,
    List.not_mem_nil, false_imp_iff, implies_true, and_true]
  constructor
  · rintro ⟨-, ⟨hbalance, hage, hramp, hcn, hcd, hmn, hmd⟩, -, htreasury, -, hstart, h⟩
    cases h
    exact ⟨⟨hbalance, hage, hramp, ⟨hcn, hcd⟩, ⟨hmn, hmd⟩, htreasury, hstart⟩, rfl⟩
  · rintro ⟨⟨hbalance, hage, hramp, ⟨hcn, hcd⟩, ⟨hmn, hmd⟩, htreasury, hstart⟩, rfl⟩
    exact ⟨(), ⟨hbalance, hage, hramp, hcn, hcd, hmn, hmd⟩, (), htreasury, (), hstart, rfl⟩

section

variable {balance age ramp cn cd mn md : ℤ} (h : Admitted balance age ramp cn cd mn md)
include h

theorem Admitted.shares : (0 : ℚ) ≤ cn / cd ∧ (cn / cd : ℚ) ≤ mn / md ∧ (mn / md : ℚ) ≤ 1 := by
  have hcd : (0 : ℚ) < cd := Int.cast_pos.mpr h.constant_pos.2
  have hmd : (0 : ℚ) < md := Int.cast_pos.mpr h.max_pos.2
  refine ⟨div_nonneg (Int.cast_nonneg h.constant_pos.1.le) hcd.le, ?_, ?_⟩
  · rw [div_le_div_iff₀ hcd hmd]
    exact_mod_cast h.start_le_max
  · exact (div_le_one hmd).mpr (Int.cast_le.mpr h.max_le_treasury)

/-- The single division of the code is the line, over one common denominator. -/
theorem Admitted.interpolation_eq :
    interpolation balance (cn / cd) (mn / md) (rampPart age ramp) =
      (balance * (cn * md * ramp + (mn * cd - cn * md) * min age ramp) : ℤ) /
        (cd * md * ramp : ℤ) := by
  have hcd : (cd : ℚ) ≠ 0 := Int.cast_ne_zero.mpr h.constant_pos.2.ne'
  have hmd : (md : ℚ) ≠ 0 := Int.cast_ne_zero.mpr h.max_pos.2.ne'
  have hramp : (ramp : ℚ) ≠ 0 := Int.cast_ne_zero.mpr h.ramp_pos.ne'
  rw [interpolation, rampPart]
  push_cast
  field_simp

/-- One rounding, not several. -/
theorem Admitted.calculateBountyRao_eq : calculateBountyRao balance age ramp cn cd mn md =
    .ok ⌊interpolation balance (cn / cd) (mn / md) (rampPart age ramp)⌋ := by
  refine calculateBountyRao_eq_ok.mpr ⟨h, ?_⟩
  have hdenominator : 0 ≤ cd * md * ramp :=
    (Int.mul_pos (Int.mul_pos h.constant_pos.2 h.max_pos.2) h.ramp_pos).le
  rw [h.interpolation_eq, Int.floor_div_cast_of_nonneg hdenominator, Int.floor_intCast]

end

/-- **The bounty is the floor of one exact interpolation.** Every admitted input is priced; the
price is the floor of the line between the base and the maximum share of the balance, is the
floor of the one at age zero and of the other from the end of the ramp on, lies between the
two and within the balance, and rises with the balance and with the age. -/
theorem calculateBountyRao_interpolates {balance age ramp cn cd mn md : ℤ}
    (h : Admitted balance age ramp cn cd mn md) :
    ∃ amount, calculateBountyRao balance age ramp cn cd mn md = .ok amount ∧
      amount = ⌊interpolation balance (cn / cd) (mn / md) (rampPart age ramp)⌋ ∧
      (age = 0 → amount = ⌊(balance * (cn / cd) : ℚ)⌋) ∧
      (ramp ≤ age → amount = ⌊(balance * (mn / md) : ℚ)⌋) ∧
      ⌊(balance * (cn / cd) : ℚ)⌋ ≤ amount ∧ amount ≤ ⌊(balance * (mn / md) : ℚ)⌋ ∧
      amount ≤ balance ∧
      ∀ balance' age' amount', balance ≤ balance' → age ≤ age' →
        calculateBountyRao balance' age' ramp cn cd mn md = .ok amount' → amount ≤ amount' := by
  obtain ⟨hbase, hcap, hwhole⟩ := h.shares
  have hpart := rampPart_nonneg h.age_nonneg h.ramp_pos
  have hline {b : ℤ} {x y : ℚ} (hx : 0 ≤ x) (hb : balance ≤ b) (hxy : x ≤ y) :=
    Int.floor_le_floor (interpolation_mono h.balance_nonneg hbase hcap hx hb hxy)
  refine ⟨_, h.calculateBountyRao_eq, rfl, ?_, ?_, ?_, ?_, ?_, ?_⟩
  · rintro rfl
    rw [rampPart_zero h.ramp_pos, interpolation_zero]
  · intro hage
    rw [rampPart_of_le h.ramp_pos hage, interpolation_one]
  · have hlow := hline le_rfl le_rfl hpart
    rwa [interpolation_zero] at hlow
  · have hhigh := hline hpart le_rfl (rampPart_le_one h.ramp_pos)
    rwa [interpolation_one] at hhigh
  · have hhigh := hline hpart le_rfl (rampPart_le_one h.ramp_pos)
    rw [interpolation_one] at hhigh
    refine hhigh.trans (Int.floor_le_iff.mpr ?_)
    have hb : (0 : ℚ) ≤ balance := Int.cast_nonneg h.balance_nonneg
    calc (balance * (mn / md) : ℚ) ≤ balance * 1 := mul_le_mul_of_nonneg_left hwhole hb
      _ < balance + 1 := by simp
  · intro balance' age' amount' hb hage h'
    have hadmitted := (calculateBountyRao_eq_ok.mp h').1
    rw [hadmitted.calculateBountyRao_eq] at h'
    cases h'
    exact hline hpart hb (rampPart_mono h.ramp_pos hage)

/-- The default policy, half way up its ramp. -/
theorem calculateBountyRao_interpolates_halfway :
    Admitted 1000000007 648000 1296000 1 20 1 8 ∧
      ∃ amount, calculateBountyRao 1000000007 648000 1296000 1 20 1 8 = .ok amount ∧
        amount = 87500000 ∧ amount = ⌊interpolation 1000000007 ((1 : ℤ) / (20 : ℤ))
          ((1 : ℤ) / (8 : ℤ)) (rampPart 648000 1296000)⌋ := by
  have h : Admitted 1000000007 648000 1296000 1 20 1 8 :=
    ⟨by decide, by decide, by decide, by decide, by decide, by decide, by decide⟩
  obtain ⟨amount, hamount, hfloor, -⟩ := calculateBountyRao_interpolates h
  refine ⟨h, amount, hamount, ?_, hfloor⟩
  have hrun : calculateBountyRao 1000000007 648000 1296000 1 20 1 8 = .ok 87500000 := by decide
  exact Except.ok.inj (hamount.symm.trans hrun)

/-! ## What the pricer asks for -/

variable (p : DynamicBountyPricer)

/-- The policy of a pricer is admitted at every age and balance, whatever share a target opened
with: one above a since-lowered cap starts at the cap. -/
theorem DynamicBountyPricer.startShare_admitted (task : BountyTask) (openedAt now : Instant)
    {balance : Rao} (hbalance : 0 ≤ balance) :
    Admitted balance (ageSeconds openedAt now) p.rampSeconds (p.startShare task).1
      (p.startShare task).2 p.maxBountyShareNumerator p.maxBountyShareDenominator := by
  refine ⟨hbalance, le_max_left _ _, p.ramp_positive, ?_, ⟨p.max_share.1, p.max_share.2.1⟩,
    p.max_share.2.2, ?_⟩
  · rw [startShare]
    split
    · exact ⟨p.max_share.1, p.max_share.2.1⟩
    · exact task.start_share_positive
  · rw [startShare]
    split
    · exact le_rfl
    · rename_i hstart
      exact not_lt.mp hstart

end Conjectures.Bounty

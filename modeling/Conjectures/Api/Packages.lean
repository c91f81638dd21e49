import Mathlib.Data.List.Sort
import Conjectures.Lib.Decimals
import Conjectures.Db.Credits
import Conjectures.Db.Instructions

/-!
# Purchase packages

`CREDIT_PACKAGES` and the deals it makes: `parse_packages` and `bonus_schedule` of
`submission_api/credits.py`.  A bonus is extra credits, never a discount.

Entries stand between commas, each a number of credits and perhaps a bonus, in digits of any script;
of two entries of one size the later counts.  A setting that is refused keeps the process from
starting.
-/

namespace Conjectures.Api

open Lib Db

/-- One purchasable bundle: `credits` are paid for, `bonusCredits` are not. -/
structure CreditPackage where
  credits : ℕ
  bonusCredits : ℕ
  priceRao : Rao
  deriving DecidableEq

def maxPackages : ℕ := 8

/-- How many credits one purchase may pay for. -/
def maxCreditsPerPurchase : ℕ := 10

/-- The credit configuration is unusable and the process must not start. -/
inductive CreditsConfigError where
  /-- an entry must be 'credits' or 'credits:bonus' -/
  | entry (item : String)
  /-- a credit package must contain at least one credit -/
  | noCredits
  | tooManyCredits (credits : ℕ)
  | bonusExceeds (bonus credits : ℕ)
  | tooManyPackages (packages : ℕ)
  deriving DecidableEq

/-- `PACKAGE_SPEC.fullmatch`, and the numbers its groups spell. -/
def packageSpec? (u : Decimals) (item : String) : Option (ℕ × ℕ) := do
  let (credits, text) ← u.run? 6 item.toList
  match text with
  | [] => return (credits, 0)
  | ':' :: text =>
    let (bonus, text) ← u.run? 6 text
    if text = [] then return (credits, bonus) else none
  | _ => none

/-- One entry of the specification. -/
def parsePackage (u : Decimals) (item : String) (creditPriceRao : Rao) :
    Except CreditsConfigError CreditPackage := do
  let (credits, bonus) ← need (packageSpec? u item) (.entry item)
  require (0 < credits) .noCredits
  require (credits ≤ maxCreditsPerPurchase) (.tooManyCredits credits)
  require (bonus ≤ credits) (.bonusExceeds bonus credits)
  return ⟨credits, bonus, credits * creditPriceRao⟩

/-- The packages read so far with one more; a later one replaces one of the same size. -/
def addPackage (u : Decimals) (creditPriceRao : Rao) (packages : Table CreditPackage.credits)
    (item : String) : Except CreditsConfigError (Table CreditPackage.credits) :=
  if item = "" then .ok packages
  else do
    let package ← parsePackage u item creditPriceRao
    return packages.upsert package

/-- Read `CREDIT_PACKAGES`, e.g. `1,5:1,10:3`, ordered by size. -/
def parsePackages (u : Decimals) (spec : String) (creditPriceRao : Rao) :
    Except CreditsConfigError (List CreditPackage) := do
  let items := (spec.toList.splitOn ',').map fun part ↦ strip (String.ofList part)
  let packages ← items.foldlM (addPackage u creditPriceRao) (.empty CreditPackage.credits)
  require (packages.rows.length ≤ maxPackages) (.tooManyPackages packages.rows.length)
  return packages.rows.insertionSort fun p q ↦ p.credits ≤ q.credits

/-- Paid credit count to bonus credits, for the packages that actually grant one. -/
def bonusSchedule (packages : List CreditPackage) : BonusSchedule :=
  (packages.filter fun p ↦ 0 < p.bonusCredits).map fun p ↦ (p.credits, p.bonusCredits)

/-! ## What is on offer -/

/-- The package keeps to the bounds, and costs the price of its credits. -/
structure CreditPackage.Offered (creditPriceRao : Rao) (p : CreditPackage) : Prop where
  positive : 0 < p.credits
  bounded : p.credits ≤ maxCreditsPerPurchase
  bonus : p.bonusCredits ≤ p.credits
  price : p.priceRao = p.credits * creditPriceRao

theorem parsePackage_offered {u : Decimals} {item : String} {creditPriceRao : Rao}
    {p : CreditPackage} (h : parsePackage u item creditPriceRao = .ok p) :
    p.Offered creditPriceRao := by
  simp only [parsePackage, bind_eq_ok, need_eq_ok, require_eq_ok] at h
  obtain ⟨⟨credits, bonus⟩, -, -, hpositive, -, hbounded, -, hbonus, h⟩ := h
  cases h
  exact ⟨hpositive, hbounded, hbonus, rfl⟩

theorem addPackages_offered {u : Decimals} {creditPriceRao : Rao} {items : List String}
    {packages packages' : Table CreditPackage.credits}
    (h : items.foldlM (addPackage u creditPriceRao) packages = .ok packages')
    (hoffered : ∀ p ∈ packages.rows, p.Offered creditPriceRao) :
    ∀ p ∈ packages'.rows, p.Offered creditPriceRao := by
  induction items generalizing packages with
  | nil =>
    cases h
    exact hoffered
  | cons item items ih =>
    rw [List.foldlM_cons, bind_eq_ok] at h
    obtain ⟨added, hadded, h⟩ := h
    refine ih h ?_
    unfold addPackage at hadded
    split at hadded
    · cases hadded
      exact hoffered
    · obtain ⟨package, hpackage, hadded⟩ := bind_eq_ok.mp hadded
      cases hadded
      intro p hp
      rcases Table.mem_upsert.mp hp with rfl | ⟨hp, -⟩
      · exact parsePackage_offered hpackage
      · exact hoffered p hp

/-- No two packages are of one size, and each is on offer. -/
theorem parsePackages_spec {u : Decimals} {spec : String} {creditPriceRao : Rao}
    {packages : List CreditPackage} (h : parsePackages u spec creditPriceRao = .ok packages) :
    (packages.map CreditPackage.credits).Nodup ∧
      ∀ p ∈ packages, p.Offered creditPriceRao := by
  simp only [parsePackages, bind_eq_ok, require_eq_ok] at h
  obtain ⟨table, htable, -, -, h⟩ := h
  cases h
  have hperm := List.perm_insertionSort (fun p q ↦ p.credits ≤ q.credits) table.rows
  refine ⟨(hperm.map _).nodup_iff.mpr table.nodup, fun p hp ↦ ?_⟩
  exact addPackages_offered htable (by simp [Table.empty]) p (hperm.mem_iff.mp hp)

/-! ## The deals -/

/-- The amount is, at this price of a credit, exactly that of a package that grants a bonus. -/
def Deal (packages : List CreditPackage) (creditPriceRao amountRao : Rao) : Prop :=
  ∃ p ∈ packages, 0 < p.bonusCredits ∧ amountRao = p.credits * creditPriceRao

/-- A schedule looks up the bonus of the one package of a size. -/
theorem lookup_bonusSchedule {packages : List CreditPackage}
    (hsizes : (packages.map CreditPackage.credits).Nodup) {credits : ℤ} {bonus : ℕ} :
    (bonusSchedule packages).lookup credits = some bonus ↔
      ∃ p ∈ packages, (p.credits : ℤ) = credits ∧ p.bonusCredits = bonus ∧ 0 < bonus := by
  induction packages with
  | nil => simp [bonusSchedule]
  | cons p packages ih =>
    obtain ⟨hfresh, hsizes⟩ := List.nodup_cons.mp hsizes
    have hother : ∀ q ∈ packages, q.credits ≠ p.credits := fun q hq heq ↦
      hfresh (heq ▸ List.mem_map_of_mem hq)
    have ih := ih hsizes
    by_cases hbonus : 0 < p.bonusCredits
    · have hcons : bonusSchedule (p :: packages) =
          ((p.credits : ℤ), p.bonusCredits) :: bonusSchedule packages := by
        simp [bonusSchedule, hbonus]
      rw [hcons, List.lookup_cons]
      by_cases hcredits : credits = p.credits
      · subst hcredits
        simp only [beq_self_eq_true, List.mem_cons]
        constructor
        · rintro ⟨⟩
          exact ⟨p, .inl rfl, rfl, rfl, hbonus⟩
        · rintro ⟨q, rfl | hq, hq', rfl, -⟩
          · rfl
          · exact absurd (Int.natCast_inj.mp hq') (hother q hq)
      · have hne : (credits == (p.credits : ℤ)) = false := beq_eq_false_iff_ne.mpr hcredits
        rw [hne]
        dsimp only
        rw [ih]
        constructor
        · rintro ⟨q, hq, hrest⟩
          exact ⟨q, List.mem_cons_of_mem _ hq, hrest⟩
        · rintro ⟨q, hq, hq', hrest⟩
          rcases List.mem_cons.mp hq with rfl | hq
          · exact absurd hq'.symm hcredits
          · exact ⟨q, hq, hq', hrest⟩
    · have hcons : bonusSchedule (p :: packages) = bonusSchedule packages := by
        simp [bonusSchedule, hbonus]
      rw [hcons, ih]
      constructor
      · rintro ⟨q, hq, hrest⟩
        exact ⟨q, List.mem_cons_of_mem _ hq, hrest⟩
      · rintro ⟨q, hq, hq', rfl, hpos⟩
        rcases List.mem_cons.mp hq with rfl | hq
        · exact absurd hpos hbonus
        · exact ⟨q, hq, hq', rfl, hpos⟩

/-- What a payment is granted: the bonus of the package whose amount it is exactly, or nothing. -/
theorem packageBonusRao_spec {packages : List CreditPackage}
    (hsizes : (packages.map CreditPackage.credits).Nodup) {paidRao creditPriceRao : Rao}
    (hprice : 0 < creditPriceRao) :
    (∃ p ∈ packages, 0 < p.bonusCredits ∧ paidRao = p.credits * creditPriceRao ∧
      packageBonusRao paidRao creditPriceRao (bonusSchedule packages) =
        p.bonusCredits * creditPriceRao) ∨
    (¬ Deal packages creditPriceRao paidRao ∧
      packageBonusRao paidRao creditPriceRao (bonusSchedule packages) = 0) := by
  unfold packageBonusRao
  split
  · rename_i hexact
    have hpaid : paidRao = paidRao / creditPriceRao * creditPriceRao :=
      (Int.ediv_mul_cancel (Int.dvd_of_emod_eq_zero hexact)).symm
    unfold bonusRaoForCredits
    cases hlookup : (bonusSchedule packages).lookup (paidRao / creditPriceRao) with
    | none =>
      refine .inr ⟨?_, by simp⟩
      rintro ⟨p, hp, hbonus, hamount⟩
      have hcredits : (p.credits : ℤ) = paidRao / creditPriceRao := by
        rw [hamount, Int.mul_ediv_cancel _ hprice.ne']
      rw [(lookup_bonusSchedule hsizes).mpr ⟨p, hp, hcredits, rfl, hbonus⟩] at hlookup
      cases hlookup
    | some bonus =>
      obtain ⟨p, hp, hcredits, rfl, hbonus⟩ := (lookup_bonusSchedule hsizes).mp hlookup
      exact .inl ⟨p, hp, hbonus, by rw [hcredits]; exact hpaid, rfl⟩
  · rename_i hremainder
    refine .inr ⟨?_, rfl⟩
    rintro ⟨p, -, -, hamount⟩
    exact hremainder (by rw [hamount]; exact Int.mul_emod_left _ _)

end Conjectures.Api

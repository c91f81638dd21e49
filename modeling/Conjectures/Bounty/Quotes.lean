import Conjectures.Bounty.Pricing

/-!
# Quotes

`quote_many` prices several targets against one balance and one clock reading, and opens those
no quote has seen yet.  `lock_quote` is its answer for one target, under a lock that lasts until
the submission it is for is inserted; `assertPayableQuote` is what intake asks of it.

What a locked quote promises is `lockQuote_ok`.
-/

namespace Conjectures.Bounty

open Lib Db

/-! ## Answers -/

/-- A value of the inputs a quote is published with. -/
inductive QuoteInput where
  | number (n : ℤ)
  | text (s : String)
  /-- in ISO format -/
  | instant (t : Instant)
  deriving DecidableEq

abbrev QuoteInputs := List (String × QuoteInput)

/-- `{**inputs, key: value}` -/
def QuoteInputs.assign (inputs : QuoteInputs) (key : String) (value : QuoteInput) : QuoteInputs :=
  if key ∈ inputs.map (·.1) then inputs.map fun e ↦ if e.1 = key then (key, value) else e
  else inputs ++ [(key, value)]

/-- One live answer from the pricing policy. -/
structure LiveBounty where
  amountRao : Option Rao
  policyVersion : String
  available : Bool
  reason : String
  asOf : Instant
  inputs : QuoteInputs
  deriving DecidableEq

/-- A consistent set of quotes produced from one balance and one clock reading. -/
structure BountyPoolSnapshot where
  quotes : List (String × LiveBounty)
  policyVersion : String
  newTargetPolicyVersion : String
  balanceRao : Rao
  availableBalanceRao : Rao
  walletColdkey : Ss58
  walletHotkey : Ss58
  netuid : ℤ
  asset : String
  openTargets : ℕ
  totalAgeWeight : ℤ
  asOf : Instant
  constantNumerator : ℤ
  constantDenominator : ℤ
  rampSeconds : ℤ
  maxAgeWeight : ℤ
  maxBountyShareNumerator : ℤ
  maxBountyShareDenominator : ℤ

/-- What the quotes of one snapshot share. -/
structure Pool where
  now : Instant
  gross : Rao
  committed : Rao
  /-- the open targets and their age weights -/
  weights : List (String × ℤ)

def Pool.balance (pool : Pool) : Rao := max 0 (pool.gross - pool.committed)

def Pool.totalWeight (pool : Pool) : ℤ := (pool.weights.map (·.2)).sum

/-- Minute precision keeps otherwise identical catalog reads cacheable. -/
def minute (clock : Instant) : Instant := clock - clock % (60 * second)

variable (p : DynamicBountyPricer)

def DynamicBountyPricer.baseInputs (pool : Pool) (requiresLogs : Bool) : QuoteInputs :=
  [("balance_rao", .number pool.balance), ("treasury_balance_rao", .number pool.gross),
    ("committed_bounty_rao", .number pool.committed),
    ("available_balance_rao", .number pool.balance), ("balance_asset", .text "alpha"),
    ("balance_coldkey", .text p.balanceColdkey), ("balance_hotkey", .text p.balanceHotkey),
    ("balance_netuid", .number p.balanceNetuid),
    ("constant_denominator", .number p.constantDenominator),
    ("constant_numerator", .number p.constantNumerator),
    ("ramp_seconds", .number p.rampSeconds), ("max_age_weight", .number p.maxAgeWeight),
    ("max_bounty_share_denominator", .number p.maxBountyShareDenominator),
    ("max_bounty_share_numerator", .number p.maxBountyShareNumerator),
    ("max_bounty_rao",
      .number (p.maxBountyShareNumerator * pool.balance / p.maxBountyShareDenominator)),
    ("open_targets", .number pool.weights.length),
    ("total_age_weight", .number pool.totalWeight)] ++
  if requiresLogs then [("chat_logs_required", .text "true")] else []

/-! ## One target -/

/-- Nobody holds the target, or the claimant does. -/
def Admits (held claimant : Option Uuid) : Prop := held = none ∨ claimant = held

instance Admits.decidable (held claimant : Option Uuid) : Decidable (Admits held claimant) := by
  unfold Admits; infer_instance

/-- Price one target against the pool. -/
def DynamicBountyPricer.quoteTarget (db : BountyDatabase) (pool : Pool)
    (claimants : String → Option Uuid) (target : String) : Except PricingError LiveBounty :=
  let requiresLogs := decide ((db.tasks.find? target).map (·.pricingPolicy) = some .treasuryChat)
  let policyVersion := if requiresLogs then treasuryChatPolicy else p.policyVersion
  let baseInputs := p.baseInputs pool requiresLogs
  let closed (reason : String) : LiveBounty :=
    ⟨none, policyVersion, false, reason, pool.now, baseInputs⟩
  if target ∉ p.rewardTargetIds then .ok (closed "NOT_IN_BOUNTY_POOL")
  else if ¬ Admits (holder db target) (claimants target) then .ok (closed "ALREADY_SOLVED")
  else if ¬ Admits (pending db target) (claimants target) then
    .ok (closed "SOLVED_DOCUMENTATION_PENDING")
  else do
    let weight ← need (pool.weights.lookup target) (.keyError target)
    let task ← need (db.tasks.find? target) (.keyError target)
    let age := ageSeconds task.openedAt pool.now
    let share := p.startShare task
    let amount ← calculateBountyRao pool.balance age p.rampSeconds share.1 share.2
      p.maxBountyShareNumerator p.maxBountyShareDenominator
    let funded := decide (0 < amount)
    return {
      amountRao := some amount
      policyVersion := policyVersion
      available := funded && (!requiresLogs || p.requiredEvidenceAvailable)
      reason :=
        if requiresLogs && !p.requiredEvidenceAvailable then "CHAT_LOG_REVIEW_UNAVAILABLE"
        else if !funded then "TREASURY_RESERVED"
        else if (holder db target).isNone then "OPEN"
        else "CLAIM_HELD"
      asOf := pool.now
      inputs := ((((baseInputs.assign "constant_numerator" (.number share.1)).assign
        "constant_denominator" (.number share.2)).assign
        "age_weight" (.number weight)).assign
        "age_seconds" (.number age)).assign
        "opened_at" (.instant task.openedAt) }

/-- A configured target is opened the first time any quote sees it. -/
def DynamicBountyPricer.openTasks (db : BountyDatabase) (now : Instant) : BountyDatabase :=
  let unopened := p.rewardTargetIds.filter fun target ↦ db.tasks.find? target = none
  { db with
    tasks := unopened.foldl (fun tasks target ↦ tasks.insertNew
      { rewardTargetId := target
        pricingPolicy := p.newTargetPolicy
        openedAt := now
        startShareNumerator := p.constantNumerator
        startShareDenominator := p.constantDenominator
        start_share_positive := p.constant_positive }) db.tasks }

def DynamicBountyPricer.openTargets (db : BountyDatabase) (claimants : String → Option Uuid) :
    List String :=
  p.rewardTargetIds.filter fun target ↦ Admits (holder db target) (claimants target) ∧
    Admits (pending db target) (claimants target)

/-- The age weight of an open target. -/
def DynamicBountyPricer.weigh (db : BountyDatabase) (now : Instant) (target : String) :
    Except PricingError (String × ℤ) := do
  let task ← need (db.tasks.find? target) (.keyError target)
  let weight ← calculateAgeWeight task.openedAt now p.agePeriodSeconds p.maxAgeWeight
  return (target, weight)

/-- Price several targets against one pool. -/
def DynamicBountyPricer.quoteMany (db : BountyDatabase) (clock : Instant) (grossBalance : Rao)
    (rewardTargetIds : List String) (claimants : String → Option Uuid) :
    Except PricingError (BountyPoolSnapshot × BountyDatabase) := do
  let now := minute clock
  let db := p.openTasks db now
  let weights ← (p.openTargets db claimants).mapM (p.weigh db now)
  require (0 ≤ grossBalance) (.runtimeError "treasury balance cannot be negative")
  let pool : Pool := ⟨now, grossBalance, p.committed db now, weights⟩
  let quotes ← rewardTargetIds.eraseDups.mapM (p.quoteTarget db pool claimants)
  let snapshot : BountyPoolSnapshot :=
    { quotes := rewardTargetIds.eraseDups.zip quotes
      policyVersion := p.policyVersion
      newTargetPolicyVersion := match p.newTargetPolicy with
        | .legacy => p.policyVersion
        | .treasuryChat => treasuryChatPolicy
      balanceRao := grossBalance
      availableBalanceRao := pool.balance
      walletColdkey := p.balanceColdkey
      walletHotkey := p.balanceHotkey
      netuid := p.balanceNetuid
      asset := "alpha"
      openTargets := weights.length
      totalAgeWeight := pool.totalWeight
      asOf := now
      constantNumerator := p.constantNumerator
      constantDenominator := p.constantDenominator
      rampSeconds := p.rampSeconds
      maxAgeWeight := p.maxAgeWeight
      maxBountyShareNumerator := p.maxBountyShareNumerator
      maxBountyShareDenominator := p.maxBountyShareDenominator }
  return (snapshot, db)

/-- Price one target. -/
def DynamicBountyPricer.quote (db : BountyDatabase) (clock : Instant) (grossBalance : Rao)
    (target : String) (claimant : Option Uuid) :
    Except PricingError (LiveBounty × BountyDatabase) := do
  let (snapshot, db) ← p.quoteMany db clock grossBalance [target]
    fun target' ↦ if target' = target then claimant else none
  let quote ← need (snapshot.quotes.lookup target) (.keyError target)
  return (quote, db)

/-- The amount a submission will retain, priced under the pool's lock. -/
def DynamicBountyPricer.lockQuote (db : BountyDatabase) (clock : Instant) (grossBalance : Rao)
    (target : String) : Except PricingError (LiveBounty × BountyDatabase) :=
  p.quote db clock grossBalance target none

/-! ## What intake asks of a quote -/

inductive QuoteRefusal where
  /-- `CHAT_LOG_REVIEW_UNAVAILABLE` -/
  | reviewUnavailable
  /-- `BOUNTY_CLOSED` -/
  | bountyClosed (rewardTargetId : String)
  /-- `BOUNTY_UNFUNDED` -/
  | bountyUnfunded
  deriving DecidableEq

def QuoteRefusal.message : QuoteRefusal → String
  | .reviewUnavailable =>
    "Required chat-log review is not open; this bounty is not accepting submissions."
  | .bountyClosed _ => "this bounty has already been solved"
  | .bountyUnfunded => "the bounty treasury has no uncommitted payable balance"

/-- `_assert_payable_quote`, with the amount it leaves. -/
def assertPayableQuote (quote : LiveBounty) (target : String) : Except QuoteRefusal Rao := do
  require (quote.available ∨ quote.reason ≠ "CHAT_LOG_REVIEW_UNAVAILABLE") .reviewUnavailable
  require (quote.available ∨
      quote.reason ∉ ["ALREADY_SOLVED", "SOLVED_DOCUMENTATION_PENDING", "NOT_IN_BOUNTY_POOL"])
    (.bountyClosed target)
  require quote.available .bountyUnfunded
  let amount ← need quote.amountRao .bountyUnfunded
  require (0 < amount) .bountyUnfunded
  return amount

end Conjectures.Bounty

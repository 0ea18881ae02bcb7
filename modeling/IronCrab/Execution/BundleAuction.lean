/-
  File:      IronCrab/Execution/BundleAuction.lean
  Subject:   THE BUDGET OF A BUNDLE TIP (src/execution/bundle_auction.rs): what a transaction costs,
             the gate on the tip, and the search for the least profit that lands.

  `none` is a panic: of `clamp` whose bounds are out of order, or of an overflow in a build that
  checks for it.

  * `Auction` -- the numbers an auction is decided by, with what the gate computes from them;
  * `gate_eq` -- the gate in these terms: the clamp panics as soon as the tip's budget covers a
    floor above the cap;
  * `Lands.mono` -- what lands with a profit lands with every greater one;
  * `landing_iff` -- the gate is sound at a profit, and the search exact, under exactly these
    conditions;
  * `floor_above_cap_panics` -- a floor above the cap is not turned away.
-/
import IronCrab.Lib.Arith
import IronCrab.Lib.Bisect
import Mathlib.Algebra.Order.Floor.Div
import Mathlib.Order.Bounds.Basic

namespace IronCrab.Execution

open Arith

/-! ## 1. The cost of a transaction -/

def bundleTipMinLamportsDefault : Nat := 100000

/-- A signature's base fee in lamports. -/
def solanaTxBaseFeeLamports : Nat := 5000

def estimatePriorityFeeLamports (microLamportsPerCu computeUnits : Nat) : Nat :=
  trunc 64 (microLamportsPerCu * computeUnits / 1000000)

/-- The base fee and the priority fee. -/
def estimateTxCostLamports (checks : Bool) (priorityFeeMicroLamports computeUnits : Nat) :
    Option Nat :=
  add checks 64 solanaTxBaseFeeLamports
    (estimatePriorityFeeLamports priorityFeeMicroLamports computeUnits)

/-- The return less the cost in basis points of the capital, and whether it is enough. -/
def profitabilityAfterTxFeesBps (checks : Bool)
    (priorityFeeMicroLamports computeUnits requiredCapitalLamports : Nat)
    (expectedRoiBps minProfitAfterFeesBps : Int) : Option (Bool × Int) :=
  if requiredCapitalLamports = 0 then some (false, 0)
  else do
    let totalCost ← estimateTxCostLamports checks priorityFeeMicroLamports computeUnits
    let costBps := truncInt 32 (totalCost * 10000 / requiredCapitalLamports : Nat)
    let profitAfterFees ← fitInt checks 32 (expectedRoiBps - costBps)
    some (decide (minProfitAfterFeesBps ≤ profitAfterFees), profitAfterFees)

/-! ## 2. The tip gate -/

/-- `BundleAuctionParams`, the amounts in lamports. -/
structure BundleAuctionParams where
  tipMinLamports : Nat
  tipMaxLamports : Nat
  tipDefaultBps : Nat
  auctionMaxSpendBps : Nat
  jitoTipFloorLamports : Nat
  bundleMinProfitOverride : Nat
  arbComputeUnits : Nat
  defaultPriorityFeeMicroLamports : Nat
  configJitoTipLamports : Nat

/-- `CrossDexBundleTipOutcome`. -/
inductive CrossDexBundleTipOutcome where
  | ok (tip : Nat)
  | rejected (estimatedProfit priorityCost maxAuctionSpend computedTip : Nat)
  deriving DecidableEq

def CrossDexBundleTipOutcome.isOk : CrossDexBundleTipOutcome → Bool
  | .ok _ => true
  | .rejected .. => false

def maxAuctionSpendLamports (estimatedProfit auctionMaxSpendBps : Nat) : Nat :=
  trunc 64 (estimatedProfit * auctionMaxSpendBps / 10000)

/-- `Ord::clamp`. -/
def clamp (n lower upper : Nat) : Option Nat :=
  if lower ≤ upper then some (if n < lower then lower else if upper < n then upper else n)
  else none

/-- The share of the profit that goes into the tip, between the floor and the smaller cap. -/
def crossDexEffectiveBundleTipLamports (estimatedProfit tipBps priorityCostLamports : Nat)
    (params : BundleAuctionParams) : Option CrossDexBundleTipOutcome :=
  let maxAuctionSpend := maxAuctionSpendLamports estimatedProfit params.auctionMaxSpendBps
  if params.jitoTipFloorLamports > maxAuctionSpend then
    some (.rejected estimatedProfit priorityCostLamports maxAuctionSpend 0)
  else
    let profitTip := trunc 64 (estimatedProfit * tipBps / 10000)
    let upper := min params.tipMaxLamports maxAuctionSpend
    (clamp profitTip params.jitoTipFloorLamports upper).map fun tip =>
      let totalCost := satAdd 64 (satAdd 64 solanaTxBaseFeeLamports priorityCostLamports) tip
      if totalCost > estimatedProfit then
        .rejected estimatedProfit priorityCostLamports maxAuctionSpend tip
      else .ok tip

/-! ## 3. The search -/

def u64Max : Nat := maxU 64

/-- Where the search starts: the floor fits the tip's budget, and the costs the profit. -/
def landingStart (jitoTipFloorLamports assumedPriorityLamports auctionMaxSpendBps : Nat) : Nat :=
  let floorMinProfit := satMul 64 jitoTipFloorLamports 10000 ⌈/⌉ auctionMaxSpendBps
  let costFloor := satAdd 64 (satAdd 64 solanaTxBaseFeeLamports assumedPriorityLamports)
    jitoTipFloorLamports
  max floorMinProfit costFloor

/-- `hi` doubles until the gate accepts, then the interval is halved. Sixty-four rounds reach the
    bound from any number (`Bisect.grow_spec`). -/
def minProfitForBundleLanding (checks : Bool) (jitoTipFloorLamports assumedPriorityLamports
    tipDefaultBps auctionMaxSpendBps tipMaxLamports : Nat) : Option Nat :=
  if auctionMaxSpendBps = 0 then some u64Max
  else
    let params : BundleAuctionParams :=
      { tipMinLamports := bundleTipMinLamportsDefault
        tipMaxLamports := tipMaxLamports
        tipDefaultBps := tipDefaultBps
        auctionMaxSpendBps := auctionMaxSpendBps
        jitoTipFloorLamports := jitoTipFloorLamports
        bundleMinProfitOverride := 0
        arbComputeUnits := 400000
        defaultPriorityFeeMicroLamports := 100000
        configJitoTipLamports := 0 }
    let accepts := fun profit => (crossDexEffectiveBundleTipLamports profit tipDefaultBps
      assumedPriorityLamports params).map CrossDexBundleTipOutcome.isOk
    let lo := landingStart jitoTipFloorLamports assumedPriorityLamports auctionMaxSpendBps
    match accepts lo with
    | none => none
    | some true => some lo
    | some false => do
        let next ← add checks 64 lo 1
        let hi ← Bisect.grow accepts (u64Max / 4) u64Max 64 (max (satMul 64 lo 2) next)
        match accepts hi with
        | none => none
        | some false => some u64Max
        | some true => Bisect.least accepts lo hi

/-! ## 4. What an auction is decided by -/

/-- The numbers the gate reads beside the profit, in the ranges of their types; no share is above
    the whole. -/
structure Auction where
  floor : Nat
  tipMax : Nat
  spendBps : Nat
  tipBps : Nat
  priority : Nat
  floor_le : floor ≤ u64Max
  tipMax_le : tipMax ≤ u64Max
  spendBps_le : spendBps ≤ 10000
  tipBps_le : tipBps ≤ 10000
  priority_le : priority ≤ u64Max

namespace Auction

variable (a : Auction)

/-- What of a profit may go into the tip. -/
def budget (profit : Nat) : Nat := profit * a.spendBps / 10000

/-- The share of the profit, not above the caps and not below the floor. -/
def tip (profit : Nat) : Nat :=
  max a.floor (min (profit * a.tipBps / 10000) (min a.tipMax (a.budget profit)))

/-- What landing costs: the base fee, the priority fee and the tip. -/
def cost (profit : Nat) : Nat := solanaTxBaseFeeLamports + a.priority + a.tip profit

/-- **A profit lands**: its budget covers the floor, and it covers its cost as far as a `u64`
    can say. -/
def Lands (profit : Nat) : Prop :=
  a.floor ≤ a.budget profit ∧ min (a.cost profit) u64Max ≤ profit

theorem share_mono {bps x y : Nat} (h : x ≤ y) : x * bps / 10000 ≤ y * bps / 10000 :=
  Nat.div_le_div_right (Nat.mul_le_mul_right bps h)

theorem share_le {bps : Nat} (h : bps ≤ 10000) (x : Nat) : x * bps / 10000 ≤ x :=
  Nat.div_le_of_le_mul (by rw [Nat.mul_comm 10000]; exact Nat.mul_le_mul_left x h)

/-- A share grows by at most what the whole grows by. -/
theorem share_add_le {bps x y : Nat} (hb : bps ≤ 10000) (h : x ≤ y) :
    y * bps / 10000 ≤ x * bps / 10000 + (y - x) := by
  have e : y * bps = x * bps + (y - x) * bps := by
    rw [← Nat.add_mul, Nat.add_sub_cancel' h]
  have hd : (y - x) * bps ≤ (y - x) * 10000 := Nat.mul_le_mul_left _ hb
  rw [e]
  calc (x * bps + (y - x) * bps) / 10000
      ≤ (x * bps + (y - x) * 10000) / 10000 := Nat.div_le_div_right (Nat.add_le_add_left hd _)
    _ = x * bps / 10000 + (y - x) := Nat.add_mul_div_right _ _ (by decide)

theorem floor_le_tip (profit : Nat) : a.floor ≤ a.tip profit := Nat.le_max_left _ _

theorem tip_le {profit : Nat} (hmax : a.floor ≤ a.tipMax) (h : a.floor ≤ a.budget profit) :
    a.tip profit ≤ min a.tipMax (a.budget profit) :=
  Nat.max_le.mpr ⟨Nat.le_min.mpr ⟨hmax, h⟩, Nat.min_le_right _ _⟩

/-- **A greater profit lands too**: the tip grows by no more than the profit does. -/
theorem Lands.mono {a : Auction} {x y : Nat} (hx : a.Lands x) (h : x ≤ y) : a.Lands y := by
  refine ⟨hx.1.trans (share_mono h), ?_⟩
  have htip : a.tip y ≤ a.tip x + (y - x) := by
    have h1 := share_add_le a.tipBps_le h
    have h2 : a.budget y ≤ a.budget x + (y - x) := share_add_le a.spendBps_le h
    unfold tip
    omega
  have hcost : min (a.cost x) u64Max ≤ x := hx.2
  unfold cost at *
  omega

/-! ## 5. The gate on an auction -/

def params : BundleAuctionParams where
  tipMinLamports := bundleTipMinLamportsDefault
  tipMaxLamports := a.tipMax
  tipDefaultBps := a.tipBps
  auctionMaxSpendBps := a.spendBps
  jitoTipFloorLamports := a.floor
  bundleMinProfitOverride := 0
  arbComputeUnits := 400000
  defaultPriorityFeeMicroLamports := 100000
  configJitoTipLamports := 0

/-- The parameters of a gate call that asks for this auction; the gate reads no other. -/
structure IsParams (params : BundleAuctionParams) : Prop where
  floor : params.jitoTipFloorLamports = a.floor
  tipMax : params.tipMaxLamports = a.tipMax
  spendBps : params.auctionMaxSpendBps = a.spendBps

theorem lt_size_of_le {n : Nat} (h : n ≤ u64Max) : n < 2 ^ 64 := by
  unfold u64Max maxU at h
  omega

theorem clamp_eq {n lower upper : Nat} (h : lower ≤ upper) :
    clamp n lower upper = some (max lower (min n upper)) := by
  unfold clamp
  rw [if_pos h]
  split
  · rw [Nat.max_eq_left (by omega)]
  · split
    · rw [Nat.min_eq_right (by omega), Nat.max_eq_right h]
    · rw [Nat.min_eq_left (by omega), Nat.max_eq_right (by omega)]

variable {a}

/-- **The gate, in the auction's terms.** -/
theorem gate_eq {params : BundleAuctionParams} (hp : a.IsParams params) {profit : Nat}
    (h : profit ≤ u64Max) :
    crossDexEffectiveBundleTipLamports profit a.tipBps a.priority params =
      if a.budget profit < a.floor then
        some (.rejected profit a.priority (a.budget profit) 0)
      else if a.tipMax < a.floor then none
      else if profit < min (a.cost profit) u64Max then
        some (.rejected profit a.priority (a.budget profit) (a.tip profit))
      else some (.ok (a.tip profit)) := by
  have hspend : maxAuctionSpendLamports profit a.spendBps = a.budget profit :=
    trunc_of_lt (lt_size_of_le ((share_le a.spendBps_le profit).trans h))
  have hshare : trunc 64 (profit * a.tipBps / 10000) = profit * a.tipBps / 10000 :=
    trunc_of_lt (lt_size_of_le ((share_le a.tipBps_le profit).trans h))
  unfold crossDexEffectiveBundleTipLamports
  rw [hp.floor, hp.tipMax, hp.spendBps, hspend, hshare]
  by_cases hbudget : a.budget profit < a.floor
  · rw [if_pos hbudget, if_pos hbudget]
  · rw [if_neg hbudget, if_neg hbudget]
    by_cases hmax : a.tipMax < a.floor
    · have hupper : ¬ a.floor ≤ min a.tipMax (a.budget profit) := by omega
      rw [if_pos hmax]
      show (clamp _ a.floor (min a.tipMax (a.budget profit))).map _ = none
      rw [clamp, if_neg hupper]
      rfl
    · have hupper : a.floor ≤ min a.tipMax (a.budget profit) := by omega
      have hcost : satAdd 64 (satAdd 64 solanaTxBaseFeeLamports a.priority) (a.tip profit) =
          min (a.cost profit) u64Max := by
        unfold satAdd cost u64Max
        omega
      rw [if_neg hmax]
      show (clamp _ a.floor (min a.tipMax (a.budget profit))).map _ = _
      rw [clamp_eq hupper]
      show some (if satAdd 64 (satAdd 64 solanaTxBaseFeeLamports a.priority) (a.tip profit) >
        profit then _ else _) = _
      rw [hcost]
      by_cases hlt : profit < min (a.cost profit) u64Max
      · rw [if_pos hlt, if_pos hlt]
        rfl
      · rw [if_neg hlt, if_neg hlt]
        rfl

/-! ## 6. A gate call -/

/-- A profit lands exactly if the gate returns a tip for it, as long as the clamp is in order. -/
theorem gate_ok_iff {params : BundleAuctionParams} (hp : a.IsParams params) {profit : Nat}
    (h : profit ≤ u64Max) {t : Nat} :
    crossDexEffectiveBundleTipLamports profit a.tipBps a.priority params = some (.ok t) ↔
      a.floor ≤ a.tipMax ∧ a.Lands profit ∧ t = a.tip profit := by
  rw [gate_eq hp h]
  by_cases hbudget : a.budget profit < a.floor
  · rw [if_pos hbudget]
    constructor
    · intro e
      cases e
    · rintro ⟨_, hl, _⟩
      exact absurd hl.1 (Nat.not_le_of_lt hbudget)
  · rw [if_neg hbudget]
    by_cases hmax : a.tipMax < a.floor
    · rw [if_pos hmax]
      constructor
      · intro e
        cases e
      · rintro ⟨hl, _⟩
        exact absurd hl (Nat.not_le_of_lt hmax)
    · rw [if_neg hmax]
      by_cases hlt : profit < min (a.cost profit) u64Max
      · rw [if_pos hlt]
        constructor
        · intro e
          cases e
        · rintro ⟨_, hl, _⟩
          exact absurd hl.2 (Nat.not_le_of_lt hlt)
      · rw [if_neg hlt]
        constructor
        · intro e
          cases e
          exact ⟨Nat.le_of_not_lt hmax, ⟨Nat.le_of_not_lt hbudget, Nat.le_of_not_lt hlt⟩, rfl⟩
        · rintro ⟨_, _, rfl⟩
          rfl

/-- The gate panics exactly when a floor above the cap fits the budget. -/
theorem gate_none_iff {params : BundleAuctionParams} (hp : a.IsParams params) {profit : Nat}
    (h : profit ≤ u64Max) :
    crossDexEffectiveBundleTipLamports profit a.tipBps a.priority params = none ↔
      a.floor ≤ a.budget profit ∧ a.tipMax < a.floor := by
  rw [gate_eq hp h]
  by_cases hbudget : a.budget profit < a.floor
  · rw [if_pos hbudget]
    exact ⟨fun e => (Option.some_ne_none _ e).elim, fun e => absurd e.1 (Nat.not_le_of_lt hbudget)⟩
  · rw [if_neg hbudget]
    by_cases hmax : a.tipMax < a.floor
    · rw [if_pos hmax]
      exact ⟨fun _ => ⟨Nat.le_of_not_lt hbudget, hmax⟩, fun _ => rfl⟩
    · rw [if_neg hmax]
      constructor
      · split
        · intro e
          cases e
        · intro e
          cases e
      · intro e
        exact absurd e.2 hmax

variable (a)

/-- What the gate promises at a profit: it returns, the tip stays between the floor and the caps
    and the profit pays for the whole cost, and what it accepts it accepts of every greater
    profit. -/
structure GateSound (params : BundleAuctionParams) (profit : Nat) : Prop where
  returns : ∃ outcome,
    crossDexEffectiveBundleTipLamports profit a.tipBps a.priority params = some outcome
  sound : ∀ t,
    crossDexEffectiveBundleTipLamports profit a.tipBps a.priority params = some (.ok t) →
      a.floor ≤ t ∧ t ≤ min a.tipMax (profit * a.spendBps / 10000) ∧
        t + a.priority + solanaTxBaseFeeLamports ≤ profit
  closed : ∀ t,
    crossDexEffectiveBundleTipLamports profit a.tipBps a.priority params = some (.ok t) →
      ∀ more, profit ≤ more → more ≤ u64Max → ∃ t',
        crossDexEffectiveBundleTipLamports more a.tipBps a.priority params = some (.ok t')

/-- **When the gate keeps its promise**: the floor is not above the cap or does not fit the budget,
    and the greatest `u64` is not offered for a cost beyond it. -/
structure GateSafe (profit : Nat) : Prop where
  ordered : a.floor ≤ a.tipMax ∨ profit * a.spendBps / 10000 < a.floor
  covered : profit < u64Max ∨ a.tipMax < a.floor ∨ profit * a.spendBps / 10000 < a.floor ∨
    solanaTxBaseFeeLamports + a.priority +
      max a.floor (min (profit * a.tipBps / 10000)
        (min a.tipMax (profit * a.spendBps / 10000))) ≤ u64Max

variable {a}

/-- **The gate is sound at a profit** exactly under `GateSafe`. -/
theorem gateSound_iff {params : BundleAuctionParams} (hp : a.IsParams params) {profit : Nat}
    (h : profit ≤ u64Max) : a.GateSound params profit ↔ a.GateSafe profit := by
  constructor
  · intro hs
    refine ⟨?_, ?_⟩
    · obtain ⟨outcome, hreturns⟩ := hs.returns
      by_cases hmax : a.floor ≤ a.tipMax
      · exact .inl hmax
      · refine .inr (Nat.lt_of_not_le fun hbudget => ?_)
        have := (gate_none_iff hp h).mpr ⟨hbudget, Nat.lt_of_not_le hmax⟩
        rw [this] at hreturns
        cases hreturns
    · by_cases hlt : profit < u64Max
      · exact .inl hlt
      · by_cases hmax : a.tipMax < a.floor
        · exact .inr (.inl hmax)
        · by_cases hbudget : a.budget profit < a.floor
          · exact .inr (.inr (.inl hbudget))
          · refine .inr (.inr (.inr ?_))
            have hlands : a.Lands profit := ⟨Nat.le_of_not_lt hbudget, by omega⟩
            have hok := (gate_ok_iff hp h).mpr ⟨Nat.le_of_not_lt hmax, hlands, rfl⟩
            obtain ⟨_, _, hcost⟩ := hs.sound _ hok
            unfold tip budget at hcost
            omega
  · intro hs
    refine ⟨?_, fun t ht => ?_, fun t ht more hmore hle => ?_⟩
    · cases e : crossDexEffectiveBundleTipLamports profit a.tipBps a.priority params with
      | some outcome => exact ⟨outcome, rfl⟩
      | none =>
          obtain ⟨hbudget, hmax⟩ := (gate_none_iff hp h).mp e
          rcases hs.ordered with ho | ho
          · exact absurd ho (Nat.not_le_of_lt hmax)
          · exact absurd ho (Nat.not_lt_of_le hbudget)
    · obtain ⟨hmax, hlands, rfl⟩ := (gate_ok_iff hp h).mp ht
      refine ⟨a.floor_le_tip profit, a.tip_le hmax hlands.1, ?_⟩
      have hpaid : min (a.cost profit) u64Max ≤ profit := hlands.2
      have hbudget : ¬ profit * a.spendBps / 10000 < a.floor := Nat.not_lt_of_le hlands.1
      have hcost : a.cost profit = solanaTxBaseFeeLamports + a.priority + a.tip profit := rfl
      rcases hs.covered with hc | hc | hc | hc
      · omega
      · exact absurd hmax (Nat.not_le_of_lt hc)
      · exact absurd hc hbudget
      · have hc' : a.cost profit ≤ u64Max := hc
        omega
    · obtain ⟨hmax, hlands, _⟩ := (gate_ok_iff hp h).mp ht
      exact ⟨_, (gate_ok_iff hp hle).mpr ⟨hmax, hlands.mono hmore, rfl⟩⟩

/-! ## 7. The search on an auction -/

theorem params_isParams (a : Auction) : a.IsParams a.params := ⟨rfl, rfl, rfl⟩

/-- What the search asks the gate. -/
def accepts (a : Auction) (profit : Nat) : Option Bool :=
  (crossDexEffectiveBundleTipLamports profit a.tipBps a.priority a.params).map
    CrossDexBundleTipOutcome.isOk

/-- The search for the least profit that lands. -/
def search (checks : Bool) (a : Auction) : Option Nat :=
  minProfitForBundleLanding checks a.floor a.priority a.tipBps a.spendBps a.tipMax

/-- The profit the search asks for first. -/
def start (a : Auction) : Nat :=
  max (min (a.floor * 10000) u64Max ⌈/⌉ a.spendBps)
    (min (solanaTxBaseFeeLamports + a.priority + a.floor) u64Max)

theorem landingStart_eq (a : Auction) : landingStart a.floor a.priority a.spendBps = a.start := by
  have hcost : satAdd 64 (satAdd 64 solanaTxBaseFeeLamports a.priority) a.floor =
      min (solanaTxBaseFeeLamports + a.priority + a.floor) u64Max := by
    unfold satAdd u64Max
    omega
  unfold landingStart
  rw [hcost]
  rfl

theorem u64Max_eq : u64Max = 2 ^ 64 - 1 := rfl

theorem base_le_start (a : Auction) : solanaTxBaseFeeLamports ≤ a.start := by
  refine le_trans ?_ (Nat.le_max_right _ _)
  rw [u64Max_eq]
  unfold solanaTxBaseFeeLamports
  omega

theorem start_le (a : Auction) (hspend : 0 < a.spendBps) : a.start ≤ u64Max := by
  refine Nat.max_le.mpr ⟨?_, Nat.min_le_right _ _⟩
  rw [ceilDiv_le_iff_le_mul hspend]
  exact (Nat.min_le_right _ _).trans (Nat.le_mul_of_pos_left _ hspend)

/-- A budget covers the floor from the floor's share on. -/
theorem floor_le_budget_iff {profit : Nat} :
    a.floor ≤ a.budget profit ↔ a.floor * 10000 ≤ profit * a.spendBps :=
  Nat.le_div_iff_mul_le (by decide)

/-- **No profit below the start lands.** -/
theorem start_le_of_lands (hspend : 0 < a.spendBps) {profit : Nat}
    (hl : a.Lands profit) : a.start ≤ profit := by
  refine Nat.max_le.mpr ⟨?_, ?_⟩
  · rw [ceilDiv_le_iff_le_mul hspend, Nat.mul_comm a.spendBps]
    exact (Nat.min_le_left _ _).trans (floor_le_budget_iff.mp hl.1)
  · refine le_trans ?_ hl.2
    have hfloor := a.floor_le_tip profit
    unfold cost
    omega

theorem accepts_of_ordered (hmax : a.floor ≤ a.tipMax) {profit : Nat} (h : profit ≤ u64Max) :
    a.accepts profit = some true ∧ a.Lands profit ∨
      a.accepts profit = some false ∧ ¬ a.Lands profit := by
  unfold accepts
  rw [gate_eq a.params_isParams h]
  by_cases hbudget : a.budget profit < a.floor
  · rw [if_pos hbudget]
    exact .inr ⟨rfl, fun hl => absurd hl.1 (Nat.not_le_of_lt hbudget)⟩
  · rw [if_neg hbudget, if_neg (Nat.not_lt_of_le hmax)]
    by_cases hlt : profit < min (a.cost profit) u64Max
    · rw [if_pos hlt]
      exact .inr ⟨rfl, fun hl => absurd hl.2 (Nat.not_le_of_lt hlt)⟩
    · rw [if_neg hlt]
      exact .inl ⟨rfl, Nat.le_of_not_lt hbudget, Nat.le_of_not_lt hlt⟩

/-- A floor above the cap: the gate never accepts, and panics once the budget covers the floor. -/
theorem accepts_of_unordered (hmax : a.tipMax < a.floor) {profit : Nat} (h : profit ≤ u64Max) :
    a.accepts profit = if a.floor ≤ a.budget profit then none else some false := by
  unfold accepts
  rw [gate_eq a.params_isParams h]
  by_cases hbudget : a.budget profit < a.floor
  · rw [if_pos hbudget, if_neg (Nat.not_le_of_lt hbudget)]
    rfl
  · rw [if_neg hbudget, if_pos hmax, if_pos (Nat.le_of_not_lt hbudget)]
    rfl

/-- What the search does once the start is turned away. -/
def searchOn (a : Auction) (hi : Nat) : Option Nat :=
  match a.accepts hi with
  | none => none
  | some false => some u64Max
  | some true => Bisect.least a.accepts a.start hi

theorem search_eq (checks : Bool) (hspend : 0 < a.spendBps) : a.search checks =
    match a.accepts a.start with
    | none => none
    | some true => some a.start
    | some false => (add checks 64 a.start 1).bind fun next =>
        (Bisect.grow a.accepts (u64Max / 4) u64Max 64 (max (satMul 64 a.start 2) next)).bind
          a.searchOn := by
  unfold search minProfitForBundleLanding
  rw [if_neg (Nat.pos_iff_ne_zero.mp hspend), landingStart_eq]
  rfl

/-- The profit the doubling begins with. -/
def second (a : Auction) : Nat := min (2 * a.start) u64Max

theorem second_pos (a : Auction) : 0 < a.second := by
  have h := a.base_le_start
  unfold second solanaTxBaseFeeLamports at *
  rw [u64Max_eq]
  omega

/-- Unless the start is the greatest `u64`, its successor is one. -/
theorem next_eq (checks : Bool) (h : a.start < u64Max) :
    (add checks 64 a.start 1).map (max (satMul 64 a.start 2)) = some a.second := by
  have hfit : a.start + 1 < 2 ^ 64 := by
    rw [u64Max_eq] at h
    omega
  have hbase := a.base_le_start
  unfold add
  rw [fit_of_lt hfit]
  refine congrArg some ?_
  unfold satMul second
  change max (min (a.start * 2) u64Max) _ = _
  unfold solanaTxBaseFeeLamports at hbase
  omega

/-- **The search where the start is turned away and is not the greatest `u64`.** -/
theorem search_of_rejected (checks : Bool) (hspend : 0 < a.spendBps) (h : a.start < u64Max)
    (hrej : a.accepts a.start = some false) :
    a.search checks =
      (Bisect.grow a.accepts (u64Max / 4) u64Max 64 a.second).bind a.searchOn := by
  rw [search_eq checks hspend, hrej]
  have hnext := a.next_eq checks h
  rw [Option.map_eq_some_iff] at hnext
  obtain ⟨next, hadd, hmax⟩ := hnext
  show (add checks 64 a.start 1).bind _ = _
  rw [hadd, Option.bind_some, hmax]

/-- **The search from the greatest `u64`**: its successor is computed all the same. -/
theorem search_at_end (checks : Bool) (hspend : 0 < a.spendBps) (h : a.start = u64Max)
    (hrej : a.accepts a.start = some false) :
    a.search checks = if checks then none else some u64Max := by
  have hgrow (n : Nat) (hn : n ≤ u64Max) :
      Bisect.grow a.accepts (u64Max / 4) u64Max 64 (max (satMul 64 u64Max 2) n) = some u64Max := by
    have e : max (satMul 64 u64Max 2) n = u64Max := by
      unfold satMul
      rw [u64Max_eq] at hn ⊢
      unfold maxU
      omega
    rw [e, Bisect.grow, if_neg (by decide)]
  rw [search_eq checks hspend, hrej, h]
  cases checks with
  | true => rfl
  | false =>
      show (Bisect.grow a.accepts (u64Max / 4) u64Max 64 (max (satMul 64 u64Max 2) 0)).bind
        a.searchOn = some u64Max
      rw [hgrow 0 (Nat.zero_le _), Option.bind_some, searchOn, ← h, hrej, h]

/-! ## 8. When the search is exact -/

/-- The gate accepts a profit at the default share. -/
def Accepted (a : Auction) (profit : Nat) : Prop :=
  profit ≤ u64Max ∧ ∃ t,
    crossDexEffectiveBundleTipLamports profit a.tipBps a.priority a.params = some (.ok t)

theorem accepted_iff {profit : Nat} :
    a.Accepted profit ↔ profit ≤ u64Max ∧ a.floor ≤ a.tipMax ∧ a.Lands profit := by
  refine and_congr_right fun h => ⟨fun ⟨t, ht⟩ => ?_, fun ⟨hmax, hl⟩ => ⟨a.tip profit, ?_⟩⟩
  · obtain ⟨hmax, hl, _⟩ := (gate_ok_iff a.params_isParams h).mp ht
    exact ⟨hmax, hl⟩
  · exact (gate_ok_iff a.params_isParams h).mpr ⟨hmax, hl, rfl⟩

/-- What the search promises: it returns the least profit the gate accepts, or the greatest `u64`
    where the gate accepts none below `2^62`. -/
def SearchExact (checks : Bool) (a : Auction) : Prop :=
  ∃ least, a.search checks = some least ∧
    (IsLeast {profit | a.Accepted profit} least ∨
      least = u64Max ∧ ∀ profit, profit < 2 ^ 62 → ¬ a.Accepted profit)

/-- **When the search keeps its promise.** With no share to spend it gives up at once, which is
    right unless the floor is zero too. Otherwise the start must have a successor where it is
    needed, and a floor above the cap must not fit the budget of a profit the search asks for. -/
structure SearchSafe (checks : Bool) (a : Auction) : Prop where
  unspent : a.spendBps = 0 → 0 < a.floor ∨ 2 ^ 62 ≤ solanaTxBaseFeeLamports + a.priority
  successor : 0 < a.spendBps → checks = true → a.floor ≤ u64Max * a.spendBps / 10000 ∨
    a.spendBps ≠ 1 ∧ solanaTxBaseFeeLamports + a.priority + a.floor < u64Max
  ordered : 0 < a.spendBps → a.tipMax < a.floor →
    a.start * a.spendBps / 10000 < a.floor ∧ a.second * a.spendBps / 10000 < a.floor ∧
      ∀ k, 2 ^ k * a.second < u64Max / 4 → 2 ^ (k + 1) * a.second * a.spendBps / 10000 < a.floor

theorem searchExact_unspent (checks : Bool) (h : a.spendBps = 0) :
    a.SearchExact checks ↔ 0 < a.floor ∨ 2 ^ 62 ≤ solanaTxBaseFeeLamports + a.priority := by
  have hsearch : a.search checks = some u64Max := if_pos h
  have hbudget (profit : Nat) : a.budget profit = 0 := by
    unfold budget
    rw [h, Nat.mul_zero, Nat.zero_div]
  have htip (hfloor : a.floor = 0) (profit : Nat) : a.tip profit = 0 := by
    unfold tip
    rw [hbudget, hfloor]
    omega
  have haccept (hfloor : a.floor = 0) {profit : Nat} (hle : profit ≤ u64Max) :
      a.Accepted profit ↔ min (solanaTxBaseFeeLamports + a.priority) u64Max ≤ profit := by
    rw [accepted_iff]
    unfold Lands cost
    rw [htip hfloor, hfloor]
    exact ⟨fun hc => hc.2.2.2, fun hc => ⟨hle, Nat.zero_le _, Nat.zero_le _, hc⟩⟩
  have hsize : (2 : Nat) ^ 62 ≤ u64Max := by decide
  constructor
  · rintro ⟨least, hleast, hexact⟩
    rw [hsearch] at hleast
    cases hleast
    rcases Nat.eq_zero_or_pos a.floor with hfloor | hfloor
    · refine .inr (Nat.le_of_not_lt fun hlt => ?_)
      have hacc := (haccept hfloor (hlt.le.trans hsize)).mpr (Nat.min_le_left _ _)
      rcases hexact with ⟨_, hlow⟩ | ⟨_, hnone⟩
      · exact absurd (hlow hacc) (Nat.not_le_of_lt (hlt.trans_le hsize))
      · exact hnone _ hlt hacc
    · exact .inl hfloor
  · intro hsafe
    refine ⟨u64Max, hsearch, .inr ⟨rfl, fun profit hlt hacc => ?_⟩⟩
    have hle : profit ≤ u64Max := hlt.le.trans hsize
    rcases hsafe with hfloor | hfee
    · have hfit := (accepted_iff.mp hacc).2.2.1
      rw [hbudget] at hfit
      exact absurd hfit (Nat.not_le_of_lt hfloor)
    · rcases Nat.eq_zero_or_pos a.floor with hfloor | hfloor
      · have := (haccept hfloor hle).mp hacc
        omega
      · have hfit := (accepted_iff.mp hacc).2.2.1
        rw [hbudget] at hfit
        exact absurd hfit (Nat.not_le_of_lt hfloor)

/-- Where no budget covers the floor, the search starts at the greatest `u64` only with the
    smallest share or a cost beyond it. -/
theorem start_eq_max_iff (hspend : 0 < a.spendBps) (h : u64Max * a.spendBps / 10000 < a.floor) :
    a.start = u64Max ↔
      a.spendBps = 1 ∨ u64Max ≤ solanaTxBaseFeeLamports + a.priority + a.floor := by
  constructor
  · intro hstart
    by_cases hone : a.spendBps = 1
    · exact .inl hone
    · refine .inr (Nat.le_of_not_lt fun hlt => ?_)
      have hceil : min (a.floor * 10000) u64Max ⌈/⌉ a.spendBps ≤ u64Max - 1 := by
        rw [ceilDiv_le_iff_le_mul hspend]
        have htwo : 2 * (u64Max - 1) ≤ a.spendBps * (u64Max - 1) :=
          Nat.mul_le_mul_right _ (by omega)
        rw [u64Max_eq] at htwo ⊢
        omega
      unfold start at hstart
      rw [u64Max_eq] at hstart hceil hlt
      omega
  · rintro (hone | hcost)
    · refine Nat.le_antisymm (a.start_le hspend) (le_trans ?_ (Nat.le_max_left _ _))
      rw [hone] at h ⊢
      rw [ceilDiv_one]
      rw [u64Max_eq] at h ⊢
      omega
    · refine Nat.le_antisymm (a.start_le hspend) (le_trans ?_ (Nat.le_max_right _ _))
      exact Nat.le_min.mpr ⟨hcost, le_rfl⟩

/-- A start below the greatest `u64` is safe to step from. -/
theorem successor_of_lt (hspend : 0 < a.spendBps) (h : a.start < u64Max) :
    a.floor ≤ u64Max * a.spendBps / 10000 ∨
      a.spendBps ≠ 1 ∧ solanaTxBaseFeeLamports + a.priority + a.floor < u64Max := by
  by_cases hbudget : a.floor ≤ u64Max * a.spendBps / 10000
  · exact .inl hbudget
  · have hne := mt (start_eq_max_iff hspend (Nat.lt_of_not_le hbudget)).mpr h.ne
    exact .inr ⟨fun hone => hne (.inl hone), Nat.lt_of_not_le fun hc => hne (.inr hc)⟩

/-- Turned away at the greatest `u64`, a search is exact if its build does not mind the overflow. -/
theorem searchExact_at_end (checks : Bool) (hspend : 0 < a.spendBps) (h : a.start = u64Max)
    (hrej : a.accepts a.start = some false) (hbudget : a.budget u64Max < a.floor) :
    a.SearchExact checks ↔ checks = false := by
  have hsearch := search_at_end checks hspend h hrej
  constructor
  · rintro ⟨least, hleast, _⟩
    cases checks with
    | false => rfl
    | true =>
        rw [hsearch] at hleast
        cases hleast
  · intro hc
    subst hc
    refine ⟨u64Max, hsearch, .inr ⟨rfl, fun profit _ hacc => ?_⟩⟩
    obtain ⟨hle, _, hl⟩ := accepted_iff.mp hacc
    exact absurd (hl.mono hle).1 (Nat.not_le_of_lt hbudget)

theorem ordered_passes (hmax : a.floor ≤ a.tipMax) :
    Bisect.Ordered a.accepts a.Lands a.start u64Max :=
  ⟨fun _ _ hx => accepts_of_ordered hmax hx, fun _ _ _ hxy _ hl => hl.mono hxy⟩

/-- **A floor within the cap**: the search is exact wherever it gets past the start. -/
theorem searchExact_of_ordered (checks : Bool) (hspend : 0 < a.spendBps)
    (hmax : a.floor ≤ a.tipMax) (hstart : a.start < u64Max ∨ a.Lands a.start) :
    a.SearchExact checks := by
  have hlow : ∀ profit, a.Accepted profit → a.start ≤ profit := fun profit hacc =>
    start_le_of_lands hspend (accepted_iff.mp hacc).2.2
  rcases accepts_of_ordered hmax (a.start_le hspend) with ⟨hacc, hl⟩ | ⟨hrej, hl⟩
  · refine ⟨a.start, ?_, .inl ⟨accepted_iff.mpr ⟨a.start_le hspend, hmax, hl⟩, hlow⟩⟩
    rw [search_eq checks hspend, hacc]
  · have hlt : a.start < u64Max := by
      rcases hstart with hlt | hl'
      · exact hlt
      · exact absurd hl' hl
    have hle : a.start ≤ a.second := by
      unfold second
      omega
    have hreach : u64Max / 4 ≤ 2 ^ 63 * a.second :=
      le_trans (by decide) (Nat.le_mul_of_pos_right _ a.second_pos)
    obtain ⟨hi, hgrow, hsecond, hhi, hend⟩ := Bisect.grow_spec (by decide) a.start
      (ordered_passes hmax) 63 a.second hle a.second_pos (Nat.min_le_right _ _) hreach
    have hsearch : a.search checks = a.searchOn hi := by
      rw [search_of_rejected checks hspend hlt hrej, hgrow, Option.bind_some]
    rcases accepts_of_ordered hmax hhi with ⟨hacc, hlands⟩ | ⟨hno, hlands⟩
    · have hstart' : a.start ≤ hi := hle.trans hsecond
      obtain ⟨least, hleast, hge, hleHi, hlandsLeast, hbelow⟩ :=
        Bisect.least_spec hstart' ((ordered_passes hmax).mono_interval le_rfl hhi) hlands
      refine ⟨least, ?_, .inl ⟨?_, fun profit hp => ?_⟩⟩
      · rw [hsearch, searchOn, hacc]
        exact hleast
      · exact accepted_iff.mpr ⟨hleHi.trans hhi, hmax, hlandsLeast⟩
      · exact Nat.le_of_not_lt fun hplt =>
          hbelow profit (hlow profit hp) hplt (accepted_iff.mp hp).2.2
    · refine ⟨u64Max, ?_, .inr ⟨rfl, fun profit hplt hp => ?_⟩⟩
      · rw [hsearch, searchOn, hno]
      · have hbound : u64Max / 4 ≤ hi := by
          rcases hend with hl' | hb
          · exact absurd hl' hlands
          · exact hb
        have hple : profit ≤ hi := by
          rw [u64Max_eq] at hbound
          omega
        exact hlands ((accepted_iff.mp hp).2.2.mono hple)

/-- **A floor above the cap**: the gate accepts nothing, so the search is exact if it does not
    panic on the way. -/
theorem searchExact_of_unordered (checks : Bool) (hspend : 0 < a.spendBps)
    (hmax : a.tipMax < a.floor) (hlt : a.start < u64Max) :
    a.SearchExact checks ↔
      a.budget a.start < a.floor ∧ a.budget a.second < a.floor ∧
        ∀ k, 2 ^ k * a.second < u64Max / 4 → a.budget (2 ^ (k + 1) * a.second) < a.floor := by
  have hnone : ∀ profit, ¬ a.Accepted profit := fun profit hacc =>
    absurd (accepted_iff.mp hacc).2.1 (Nat.not_le_of_lt hmax)
  have hexact : a.SearchExact checks ↔ a.search checks = some u64Max := by
    constructor
    · rintro ⟨least, hleast, ⟨hacc, _⟩ | ⟨rfl, _⟩⟩
      · exact absurd hacc (hnone least)
      · exact hleast
    · exact fun h => ⟨u64Max, h, .inr ⟨rfl, fun profit _ => hnone profit⟩⟩
  have haccepts := accepts_of_unordered hmax (a.start_le hspend)
  rw [hexact]
  by_cases hbudget : a.floor ≤ a.budget a.start
  · rw [if_pos hbudget] at haccepts
    rw [search_eq checks hspend, haccepts]
    constructor
    · intro h
      cases h
    · rintro ⟨h, _⟩
      exact absurd hbudget (Nat.not_le_of_lt h)
  · rw [if_neg hbudget] at haccepts
    have hreach : u64Max / 4 ≤ 2 ^ 63 * a.second :=
      le_trans (by decide) (Nat.le_mul_of_pos_right _ a.second_pos)
    have hgrow := Bisect.grow_rejects_iff (fun profit => a.floor ≤ a.budget profit)
      (fun _ hx => accepts_of_unordered hmax hx) (by decide) 63 a.second a.second_pos
      (Nat.min_le_right _ _) hreach
    rw [search_of_rejected checks hspend hlt haccepts, Option.bind_eq_some_iff]
    have hon {hi : Nat} (hhi : hi ≤ u64Max) :
        a.searchOn hi = some u64Max ↔ a.accepts hi = some false := by
      rw [searchOn, accepts_of_unordered hmax hhi]
      by_cases hfits : a.floor ≤ a.budget hi
      · rw [if_pos hfits]
        constructor <;> intro h <;> cases h
      · rw [if_neg hfits]
        exact ⟨fun _ => rfl, fun _ => rfl⟩
    have hfound : (∃ hi, Bisect.grow a.accepts (u64Max / 4) u64Max 64 a.second = some hi ∧
        a.searchOn hi = some u64Max) ↔
        ∃ hi, Bisect.grow a.accepts (u64Max / 4) u64Max 64 a.second = some hi ∧
          a.accepts hi = some false :=
      exists_congr fun hi => and_congr_right fun h =>
        hon (Bisect.le_of_grow (Nat.min_le_right _ _) h)
    rw [hfound, hgrow]
    simp only [Nat.not_le]
    exact ⟨fun h => ⟨Nat.lt_of_not_le hbudget, h⟩, fun h => h.2⟩

/-- **The search is exact** under exactly the conditions of `SearchSafe`. -/
theorem searchExact_iff (checks : Bool) (a : Auction) :
    a.SearchExact checks ↔ a.SearchSafe checks := by
  rcases Nat.eq_zero_or_pos a.spendBps with hspend | hspend
  · rw [searchExact_unspent checks hspend]
    exact ⟨fun h => ⟨fun _ => h, fun hpos => absurd hspend hpos.ne',
      fun hpos => absurd hspend hpos.ne'⟩, fun h => h.unspent hspend⟩
  · have hne : a.spendBps ≠ 0 := hspend.ne'
    rcases Nat.lt_or_ge a.start u64Max with hlt | hge
    · have hsucc := successor_of_lt hspend hlt
      rcases Nat.lt_or_ge a.tipMax a.floor with hmax | hmax
      · rw [searchExact_of_unordered checks hspend hmax hlt]
        exact ⟨fun h => ⟨fun h0 => absurd h0 hne, fun _ _ => hsucc, fun _ _ => h⟩,
          fun h => h.ordered hspend hmax⟩
      · exact ⟨fun _ => ⟨fun h0 => absurd h0 hne, fun _ _ => hsucc,
          fun _ h => absurd hmax (Nat.not_le_of_lt h)⟩,
          fun _ => searchExact_of_ordered checks hspend hmax (.inl hlt)⟩
    · have hstart : a.start = u64Max := Nat.le_antisymm (a.start_le hspend) hge
      have hsecond : a.second = u64Max := by
        unfold second
        omega
      have hpast (k : Nat) : ¬ 2 ^ k * a.second < u64Max / 4 := by
        rw [hsecond]
        exact Nat.not_lt_of_le ((Nat.div_le_self _ _).trans
          (Nat.le_mul_of_pos_left _ (Nat.two_pow_pos k)))
      by_cases hbudget : a.floor ≤ a.budget u64Max
      · have hl : a.Lands u64Max := ⟨hbudget, Nat.min_le_right _ _⟩
        rcases Nat.lt_or_ge a.tipMax a.floor with hmax | hmax
        · have hnone := accepts_of_unordered hmax (a.start_le hspend)
          rw [hstart, if_pos hbudget] at hnone
          constructor
          · rintro ⟨least, hleast, _⟩
            rw [search_eq checks hspend, hstart, hnone] at hleast
            cases hleast
          · intro h
            have := (h.ordered hspend hmax).1
            rw [hstart] at this
            exact absurd hbudget (Nat.not_le_of_lt this)
        · exact ⟨fun _ => ⟨fun h0 => absurd h0 hne, fun _ _ => .inl hbudget,
            fun _ h => absurd hmax (Nat.not_le_of_lt h)⟩,
            fun _ => searchExact_of_ordered checks hspend hmax (.inr (hstart ▸ hl))⟩
      · have hlow : a.budget u64Max < a.floor := Nat.lt_of_not_le hbudget
        have hrej : a.accepts a.start = some false := by
          rw [hstart]
          unfold accepts
          rw [gate_eq a.params_isParams le_rfl, if_pos hlow]
          rfl
        have hcost := (start_eq_max_iff hspend hlow).mp hstart
        rw [searchExact_at_end checks hspend hstart hrej hlow]
        constructor
        · intro hc
          refine ⟨fun h0 => absurd h0 hne, fun _ ht => absurd ht (by rw [hc]; decide),
            fun _ _ => ⟨by rw [hstart]; exact hlow, by rw [hsecond]; exact hlow,
              fun k hk => absurd hk (hpast k)⟩⟩
        · intro h
          cases hc : checks with
          | false => rfl
          | true =>
              rcases h.successor hspend hc with hfit | ⟨hone, hsum⟩
              · exact absurd hfit hbudget
              · rcases hcost with h1 | h1
                · exact absurd h1 hone
                · exact absurd hsum (Nat.not_lt_of_le h1)

/-- **The tip gate and the landing search.** In either build the gate is sound at a profit exactly
    under `GateSafe`, and the search for the least profit is exact exactly under `SearchSafe`. -/
theorem landing_iff (checks : Bool) (a : Auction) (profit : UInt64)
    (params : BundleAuctionParams) (hp : a.IsParams params) :
    (a.GateSound params profit.toNat ↔ a.GateSafe profit.toNat) ∧
      (a.SearchExact checks ↔ a.SearchSafe checks) := by
  have hle : profit.toNat ≤ u64Max := by
    have := profit.toNat_lt
    rw [u64Max_eq]
    omega
  exact ⟨gateSound_iff hp hle, searchExact_iff checks a⟩

/-- An auction of the usual floor, cap and shares. -/
def usual : Auction where
  floor := 1000
  tipMax := 2000000
  spendBps := 1500
  tipBps := 1000
  priority := 45000
  floor_le := by decide
  tipMax_le := by decide
  spendBps_le := by decide
  tipBps_le := by decide
  priority_le := by decide

theorem usual_lands : usual.GateSound usual.params 959889 ∧ usual.SearchExact true :=
  ⟨((landing_iff true usual 959889 usual.params ⟨rfl, rfl, rfl⟩).1).mpr
      ⟨.inl (by decide), .inl (by decide)⟩,
    ((landing_iff true usual 959889 usual.params ⟨rfl, rfl, rfl⟩).2).mpr
      ⟨fun h => absurd h (by decide), fun _ _ => .inl (by decide), fun _ h => absurd h (by decide)⟩⟩

/-- The same auction with a cap below its floor. -/
def floorAboveCap : Auction := { usual with tipMax := 999, tipMax_le := by decide }

/-- **A floor above the cap** passes the test of the budget, and the clamp panics; with no share
    to spend and no floor the search gives up on profits that land. -/
theorem floor_above_cap_panics :
    crossDexEffectiveBundleTipLamports 959889 1000 45000 floorAboveCap.params = none ∧
      ¬ floorAboveCap.GateSound floorAboveCap.params 959889 ∧
      minProfitForBundleLanding true 1000 45000 1000 1500 999 = none ∧
      minProfitForBundleLanding true 0 45000 1000 0 2000000 = some u64Max ∧
      crossDexEffectiveBundleTipLamports 50000 1000 45000
        { usual.params with auctionMaxSpendBps := 0, jitoTipFloorLamports := 0 } =
          some (.ok 0) := by
  have hpanic : crossDexEffectiveBundleTipLamports 959889 1000 45000 floorAboveCap.params = none :=
    by decide
  refine ⟨hpanic, fun hs => ?_, by decide, by decide, by decide⟩
  obtain ⟨outcome, hreturns⟩ := hs.returns
  exact Option.some_ne_none outcome (hreturns.symm.trans hpanic)

end Auction

end IronCrab.Execution

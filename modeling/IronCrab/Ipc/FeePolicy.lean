/-
  File:      IronCrab/Ipc/FeePolicy.lean
  Subject:   THE PROFITABILITY GATE, TWICE (`FeePolicy` of src/ipc/schema.rs and
             `profitability_after_tx_fees_bps` of src/execution/bundle_auction.rs).

  * `FeePolicy` -- the fee and the compute units of an intent, and the policy's own gate;
  * `isProfitableAfterFees_eq` -- the two gates are one function of the same numbers;
  * `gateExact_iff` -- the gate computes with the unbounded numbers exactly if the cost is a `u64`,
    its share of the capital an `i32`, and the difference to the return an `i32`;
  * `raised_fee_accepted` -- beyond that a greater fee is accepted where a smaller one is not.
-/
import IronCrab.Execution.BundleAuction
import IronCrab.Ipc.Records

namespace IronCrab.Ipc

open Arith Execution

/-! ## 1. The policy -/

/-- `FeePolicy`, the part the gate reads. -/
structure FeePolicy where
  defaultComputeUnits : UInt32
  maxComputeUnits : UInt32
  arbComputeUnits : UInt32
  defaultPriorityFeeMicroLamports : UInt64
  maxPriorityFeeMicroLamports : UInt64
  tier0PriorityFeeMicroLamports : UInt64
  urgencyMultiplierElevated : F64
  urgencyMultiplierUrgent : F64
  minProfitAfterFeesBps : Signed 32

def TradeIntent.requiresBundle (intent : TradeIntent) : Bool := intent.requireBundle.getD false

def TradeIntent.urgency (intent : TradeIntent) : UInt8 := intent.hintUrgency.getD 0

namespace FeePolicy

/-- The hint, up to the limit; without one the policy's own. -/
def computeUnitsForIntent (policy : FeePolicy) (intent : TradeIntent) : Nat :=
  match intent.hintComputeUnits with
  | some hint => min hint.toNat policy.maxComputeUnits.toNat
  | none =>
      if intent.requiresBundle then policy.arbComputeUnits.toNat
      else policy.defaultComputeUnits.toNat

/-- `1.0`. -/
def one : F64 := ⟨0x3FF0000000000000, by decide⟩

/-- The tier's fee before the urgency; the mean of the two for arbitrage. -/
def baseFee (checks : Bool) (policy : FeePolicy) (intent : TradeIntent) : Option Nat :=
  match intent.tier with
  | .tier0 => some policy.tier0PriorityFeeMicroLamports.toNat
  | .tier1 => some policy.defaultPriorityFeeMicroLamports.toNat
  | .arb => (add checks 64 policy.defaultPriorityFeeMicroLamports.toNat
      policy.tier0PriorityFeeMicroLamports.toNat).map (· / 2)

/-- `scaled` is the product of a `u64` with an `f64`, as a `u64`. -/
def priorityFeeForIntent (scaled : Nat → F64 → UInt64) (checks : Bool) (policy : FeePolicy)
    (intent : TradeIntent) : Option Nat :=
  (policy.baseFee checks intent).map fun fee =>
    let multiplier :=
      if intent.urgency = 0 then one
      else if intent.urgency = 1 then policy.urgencyMultiplierElevated
      else policy.urgencyMultiplierUrgent
    min (intent.hintPriorityFeeMicroLamports.getD (scaled fee multiplier)).toNat
      policy.maxPriorityFeeMicroLamports.toNat

/-- The base fee, the priority fee and their sum. -/
def estimateTxCost (scaled : Nat → F64 → UInt64) (checks : Bool) (policy : FeePolicy)
    (intent : TradeIntent) : Option (Nat × Nat × Nat) := do
  let computeUnits := policy.computeUnitsForIntent intent
  let priorityFeePerCu ← policy.priorityFeeForIntent scaled checks intent
  let baseFee := 5000
  let priorityFee := trunc 64 (priorityFeePerCu * computeUnits / 1000000)
  let total ← add checks 64 baseFee priorityFee
  some (baseFee, priorityFee, total)

def isProfitableAfterFees (scaled : Nat → F64 → UInt64) (checks : Bool) (policy : FeePolicy)
    (intent : TradeIntent) : Option (Bool × Int) := do
  let (_, _, totalCost) ← policy.estimateTxCost scaled checks intent
  let capital := intent.requiredCapital.raw.toNat
  if capital = 0 then some (false, 0)
  else
    let costBps := truncInt 32 (totalCost * 10000 / capital : Nat)
    let profitAfterFees ← fitInt checks 32 (intent.expectedRoiBps.1 - costBps)
    some (decide (policy.minProfitAfterFeesBps.1 ≤ profitAfterFees), profitAfterFees)

end FeePolicy

/-! ## 2. The numbers of the gate -/

/-- What the gate is asked: the capital is positive. -/
structure GateInput where
  priorityFeeMicroLamports : UInt64
  computeUnits : UInt32
  requiredCapitalLamports : UInt64
  positive : 0 < requiredCapitalLamports.toNat
  expectedRoiBps : Signed 32
  minProfitAfterFeesBps : Signed 32

namespace GateInput

variable (g : GateInput)

def gate (checks : Bool) : Option (Bool × Int) :=
  profitabilityAfterTxFeesBps checks g.priorityFeeMicroLamports.toNat g.computeUnits.toNat
    g.requiredCapitalLamports.toNat g.expectedRoiBps.1 g.minProfitAfterFeesBps.1

/-- The cost without a bound. -/
def totalCost : Nat :=
  solanaTxBaseFeeLamports + g.priorityFeeMicroLamports.toNat * g.computeUnits.toNat / 1000000

/-- The cost in basis points of the capital, without a bound. -/
def costBps : Nat := g.totalCost * 10000 / g.requiredCapitalLamports.toNat

/-- The return after the cost, without a bound. -/
def profit : Int := g.expectedRoiBps.1 - g.costBps

/-- An intent and a policy that arrive at the same numbers. -/
structure SameNumbers (scaled : Nat → F64 → UInt64) (checks : Bool) (policy : FeePolicy)
    (intent : TradeIntent) : Prop where
  fee : policy.priorityFeeForIntent scaled checks intent = some g.priorityFeeMicroLamports.toNat
  units : policy.computeUnitsForIntent intent = g.computeUnits.toNat
  capital : intent.requiredCapital.raw = g.requiredCapitalLamports
  roi : intent.expectedRoiBps = g.expectedRoiBps
  threshold : policy.minProfitAfterFeesBps = g.minProfitAfterFeesBps

/-- The same trade at a fee that is no greater, with a capital that is no smaller. -/
structure Eases (h : GateInput) : Prop where
  fee : h.priorityFeeMicroLamports.toNat ≤ g.priorityFeeMicroLamports.toNat
  units : h.computeUnits = g.computeUnits
  capital : g.requiredCapitalLamports.toNat ≤ h.requiredCapitalLamports.toNat
  roi : h.expectedRoiBps = g.expectedRoiBps
  threshold : h.minProfitAfterFeesBps = g.minProfitAfterFeesBps

def Accepts (checks : Bool) : Prop := ∃ profit, g.gate checks = some (true, profit)

/-- What the gate promises: no cast drops a bit, no operation overflows, the verdict is that of the
    unbounded numbers, the policy's gate agrees, and what is accepted stays accepted at a smaller
    fee or with more capital. -/
structure GateExact : Prop where
  fee : estimatePriorityFeeLamports g.priorityFeeMicroLamports.toNat g.computeUnits.toNat =
    g.priorityFeeMicroLamports.toNat * g.computeUnits.toNat / 1000000
  share : truncInt 32 g.costBps = g.costBps
  returns : (g.gate true).isSome
  verdict : ∀ checks verdict profit, g.gate checks = some (verdict, profit) →
    (verdict = true ↔ g.expectedRoiBps.1 - (g.totalCost * 10000 / g.requiredCapitalLamports.toNat :
      Nat) ≥ g.minProfitAfterFeesBps.1)
  policy : ∀ scaled checks policy intent, g.SameNumbers scaled checks policy intent →
    policy.isProfitableAfterFees scaled checks intent = g.gate checks
  eases : ∀ checks h, g.Eases h → g.Accepts checks → h.Accepts checks

/-- **When the numbers fit**: the cost is a `u64`, its share of the capital an `i32`, and the return
    less that share an `i32`. -/
structure Fits : Prop where
  cost : g.totalCost < 2 ^ 64
  share : g.costBps < 2 ^ 31
  profit : -2 ^ 31 ≤ g.profit

variable {g}

/-! ## 3. The two gates are one -/

/-- **The policy's gate is the other one** on the numbers the policy arrives at. -/
theorem isProfitableAfterFees_eq {scaled : Nat → F64 → UInt64} {checks : Bool}
    {policy : FeePolicy} {intent : TradeIntent} (h : g.SameNumbers scaled checks policy intent) :
    policy.isProfitableAfterFees scaled checks intent = g.gate checks := by
  have hcapital : g.requiredCapitalLamports.toNat ≠ 0 := g.positive.ne'
  unfold FeePolicy.isProfitableAfterFees FeePolicy.estimateTxCost gate profitabilityAfterTxFeesBps
    estimateTxCostLamports estimatePriorityFeeLamports solanaTxBaseFeeLamports
  rw [h.fee, h.units, h.capital, h.roi, h.threshold, if_neg hcapital]
  simp only [Option.bind_eq_bind, Option.bind_some, Option.bind_assoc, if_neg hcapital]

/-! ## 4. The gate on numbers that fit -/

theorem inRange_roi (roi : Signed 32) : InRange 32 roi.1 := roi.2

/-- The gate past its test of the capital. -/
theorem gate_eq (checks : Bool) : g.gate checks =
    (add checks 64 solanaTxBaseFeeLamports (estimatePriorityFeeLamports
        g.priorityFeeMicroLamports.toNat g.computeUnits.toNat)).bind fun totalCost =>
      (fitInt checks 32 (g.expectedRoiBps.1 -
          truncInt 32 (totalCost * 10000 / g.requiredCapitalLamports.toNat : Nat))).bind
        fun profit => some (decide (g.minProfitAfterFeesBps.1 ≤ profit), profit) :=
  if_neg g.positive.ne'

theorem truncInt_of_lt {n : Nat} (h : n < 2 ^ 31) : truncInt 32 n = n :=
  Int.bmod_eq_of_le (by omega) (by omega)

/-- **Numbers that fit are computed with exactly**, in either build. -/
theorem gate_of_fits (checks : Bool) (h : g.Fits) :
    g.gate checks = some (decide (g.minProfitAfterFeesBps.1 ≤ g.profit), g.profit) := by
  have hcost := h.cost
  unfold totalCost at hcost
  have hfee : estimatePriorityFeeLamports g.priorityFeeMicroLamports.toNat g.computeUnits.toNat =
      g.priorityFeeMicroLamports.toNat * g.computeUnits.toNat / 1000000 :=
    trunc_of_lt (by omega)
  have hrange : InRange 32 g.profit := by
    have hroi := (inRange_roi g.expectedRoiBps).2
    refine ⟨h.profit, ?_⟩
    unfold profit
    omega
  rw [gate_eq, hfee, add, fit_of_lt hcost, Option.bind_some]
  change (fitInt checks 32 (g.expectedRoiBps.1 - truncInt 32 g.costBps)).bind _ = _
  rw [truncInt_of_lt h.share]
  change (fitInt checks 32 g.profit).bind _ = _
  rw [fitInt_of_inRange hrange, Option.bind_some]

theorem accepts_of_fits {checks : Bool} (h : g.Fits) :
    g.Accepts checks ↔ g.minProfitAfterFeesBps.1 ≤ g.profit := by
  unfold Accepts
  rw [gate_of_fits checks h]
  constructor
  · rintro ⟨profit, e⟩
    exact of_decide_eq_true (congrArg Prod.fst (Option.some.inj e))
  · intro hle
    exact ⟨g.profit, by rw [decide_eq_true hle]⟩

theorem Eases.totalCost_le {h : GateInput} (e : g.Eases h) : h.totalCost ≤ g.totalCost := by
  unfold totalCost
  rw [e.units]
  exact Nat.add_le_add_left (Nat.div_le_div_right (Nat.mul_le_mul_right _ e.fee)) _

/-- A smaller fee or a greater capital never costs a greater share. -/
theorem Eases.costBps_le {h : GateInput} (e : g.Eases h) : h.costBps ≤ g.costBps :=
  calc h.costBps
      ≤ g.totalCost * 10000 / h.requiredCapitalLamports.toNat :=
        Nat.div_le_div_right (Nat.mul_le_mul_right _ e.totalCost_le)
    _ ≤ g.costBps := Nat.div_le_div_left e.capital g.positive

theorem Eases.profit_le {h : GateInput} (e : g.Eases h) : g.profit ≤ h.profit := by
  have hle := e.costBps_le
  unfold profit
  rw [e.roi]
  omega

theorem Eases.fits {h : GateInput} (e : g.Eases h) (hg : g.Fits) : h.Fits :=
  ⟨e.totalCost_le.trans_lt hg.cost, e.costBps_le.trans_lt hg.share, hg.profit.trans e.profit_le⟩

/-! ## 5. The gate is exact where the numbers fit -/

theorem gateExact_of_fits (h : g.Fits) : g.GateExact where
  fee := by
    have hcost := h.cost
    unfold totalCost at hcost
    exact trunc_of_lt (by omega)
  share := truncInt_of_lt h.share
  returns := by
    rw [gate_of_fits true h]
    rfl
  verdict := by
    intro checks verdict profit e
    rw [gate_of_fits checks h] at e
    cases e
    exact decide_eq_true_iff
  policy := fun _ _ _ _ same => isProfitableAfterFees_eq same
  eases := by
    intro checks k e hacc
    have hle := (accepts_of_fits h).mp hacc
    refine (accepts_of_fits (e.fits h)).mpr ?_
    rw [e.threshold]
    exact hle.trans e.profit_le

theorem fits_of_gateExact (h : g.GateExact) : g.Fits := by
  have hreturns := h.returns
  rw [gate_eq, h.fee, Option.isSome_iff_exists] at hreturns
  obtain ⟨answer, e⟩ := hreturns
  obtain ⟨total, hadd, e⟩ := Option.bind_eq_some_iff.mp e
  obtain ⟨profit, hfit, _⟩ := Option.bind_eq_some_iff.mp e
  obtain ⟨hlt, htotal⟩ := fit_checked.mp hadd
  have hcost : g.totalCost = total := htotal
  have hshare : truncInt 32 (total * 10000 / g.requiredCapitalLamports.toNat : Nat) =
      g.costBps := by
    rw [← hcost]
    exact h.share
  rw [hshare] at hfit
  obtain ⟨hrange, _⟩ := fitInt_checked.mp hfit
  refine ⟨hlt, ?_, hrange.1⟩
  have hbound : truncInt 32 g.costBps < 2 ^ 31 := Int.bmod_lt (by decide)
  rw [h.share] at hbound
  exact_mod_cast hbound

/-- **The gate is exact integer arithmetic** exactly where the numbers fit. -/
theorem gateExact_iff (g : GateInput) : g.GateExact ↔ g.Fits :=
  ⟨fits_of_gateExact, gateExact_of_fits⟩

/-- A quarter of a million compute units at one lamport each, for a capital of one lamport. -/
def tinyCapital : GateInput where
  priorityFeeMicroLamports := 1000000
  computeUnits := 250000
  requiredCapitalLamports := 1
  positive := by decide
  expectedRoiBps := ⟨0, zero_inI32⟩
  minProfitAfterFeesBps := ⟨10, by decide⟩

/-- **A cost above the capital by far** comes out as a gain: at a tenth of the fee the same trade is
    turned away. -/
theorem raised_fee_accepted :
    ¬ tinyCapital.GateExact ∧
      tinyCapital.gate true = some (true, 1744967296) ∧
      tinyCapital.profit = -2550000000 ∧
      ({ tinyCapital with priorityFeeMicroLamports := 100000 } : GateInput).gate true =
        some (false, -300000000) := by
  have hgate : tinyCapital.gate true = some (true, 1744967296) := by decide
  refine ⟨fun h => ?_, hgate, by decide, by decide⟩
  have hprofit := (h.verdict true true 1744967296 hgate).mp rfl
  exact absurd hprofit (by decide)

end GateInput

end IronCrab.Ipc

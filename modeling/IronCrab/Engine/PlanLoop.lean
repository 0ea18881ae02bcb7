/-
  File:      IronCrab/Engine/PlanLoop.lean
  Subject:   THE LOOP THAT PLANS AND SIMULATES (src/bin/execution_engine.rs, `process_intent`, the
             loop `'tx_plan_retry`) and the send after it. Definitions only.

  What planning, discovery, the cache and the RPC node answer is a stream of records, one for each
  round, and each field is any function of what is asked. A stage ends its round early by
  `continue` (`again`) or by `break` and `return` (`done`).

  Left out: log lines, metrics, the lock manager, and the refreshes that are published without
  waiting, none of which the loop reads; after the loop, the check list and the decision records.
-/
import IronCrab.Engine.FallbackRoutes
import IronCrab.Engine.TxSimulation
import IronCrab.Ipc.FeePolicy
import IronCrab.Lib.Retry
import IronCrab.Solana.DexParser

namespace IronCrab.Engine.PlanRetry

open Track (Pubkey)
open Track.TextCodec (base58Text)
open Cache (parsePubkey)
open Execution (BundleAuctionParams CrossDexBundleTipOutcome crossDexEffectiveBundleTipLamports
  estimatePriorityFeeLamports)
open Ipc (CheckResult FeePolicy SimulationResult)
open PumpAmm (Derivation Instruction inferredSellIxAccountCount pubkeyConst
  sellExtendedV2TotalAccounts)
open Solana (Hash LoadedAlt parseU64 pumpfunProgram)

/-! ## 1. Reject reasons and checks -/

/-- `RejectReason`. -/
inductive RejectReason where
  | ttlExpired | deadlineSlotPassed
  | riskDailyLossLimit | riskMaxPosition | riskMaxOpenPositions | riskDrawdownLimit
  | riskCooldownActive
  | simFailed | simSlippageExceeded | simInsufficientBalance | simTimeout
  | lockCapitalConflict | lockResourceConflict | lockDuplicateIntent
  | missingDecimals | invalidMint | poolNotFound | quoteUnavailable | invalidIntent
  | unsupportedIntent
  | killSwitchActive | internalError | sendFailed | unknown
  | bundleFailed | bundleTimeout | bundleNotConfigured
  | feeComputeExceedsLimit | feePriorityExceedsLimit | feeExceedsMaxCost | feeUnprofitable
  | fairnessStarved | fairnessBlocked
  | arbSpreadInsufficient | arbValidationError | arbHandlerNotConfigured | arbQuoteUnavailable

/-- `RejectReason::as_str`. -/
def RejectReason.asStr : RejectReason → String
  | .ttlExpired => "TTL_EXPIRED"
  | .deadlineSlotPassed => "DEADLINE_SLOT_PASSED"
  | .riskDailyLossLimit => "RISK_DAILY_LOSS_LIMIT"
  | .riskMaxPosition => "RISK_MAX_POSITION"
  | .riskMaxOpenPositions => "RISK_MAX_OPEN_POSITIONS"
  | .riskDrawdownLimit => "RISK_DRAWDOWN_LIMIT"
  | .riskCooldownActive => "RISK_COOLDOWN_ACTIVE"
  | .simFailed => "SIM_FAILED"
  | .simSlippageExceeded => "SIM_SLIPPAGE_EXCEEDED"
  | .simInsufficientBalance => "SIM_INSUFFICIENT_BALANCE"
  | .simTimeout => "SIM_TIMEOUT"
  | .lockCapitalConflict => "LOCK_CAPITAL_CONFLICT"
  | .lockResourceConflict => "LOCK_RESOURCE_CONFLICT"
  | .lockDuplicateIntent => "LOCK_DUPLICATE_INTENT"
  | .missingDecimals => "MISSING_DECIMALS"
  | .invalidMint => "INVALID_MINT"
  | .poolNotFound => "POOL_NOT_FOUND"
  | .quoteUnavailable => "QUOTE_UNAVAILABLE"
  | .invalidIntent => "INVALID_INTENT"
  | .unsupportedIntent => "UNSUPPORTED_INTENT"
  | .killSwitchActive => "KILL_SWITCH_ACTIVE"
  | .internalError => "INTERNAL_ERROR"
  | .sendFailed => "SEND_FAILED"
  | .unknown => "UNKNOWN"
  | .bundleFailed => "BUNDLE_FAILED"
  | .bundleTimeout => "BUNDLE_TIMEOUT"
  | .bundleNotConfigured => "BUNDLE_NOT_CONFIGURED"
  | .feeComputeExceedsLimit => "FEE_COMPUTE_EXCEEDS_LIMIT"
  | .feePriorityExceedsLimit => "FEE_PRIORITY_EXCEEDS_LIMIT"
  | .feeExceedsMaxCost => "FEE_EXCEEDS_MAX_COST"
  | .feeUnprofitable => "FEE_UNPROFITABLE"
  | .fairnessStarved => "FAIRNESS_STARVED"
  | .fairnessBlocked => "FAIRNESS_BLOCKED"
  | .arbSpreadInsufficient => "ARB_SPREAD_INSUFFICIENT"
  | .arbValidationError => "ARB_VALIDATION_ERROR"
  | .arbHandlerNotConfigured => "ARB_HANDLER_NOT_CONFIGURED"
  | .arbQuoteUnavailable => "ARB_QUOTE_UNAVAILABLE"

/-- `checks`. -/
abbrev Checks := List CheckResult

def Checks.passed (checks : Checks) (checkName : String) (details : String) : Checks :=
  checks ++ [⟨checkName, true, none, some details⟩]

def Checks.failed (checks : Checks) (checkName reasonCode : String) (details : Option String) :
    Checks :=
  checks ++ [⟨checkName, false, some reasonCode, details⟩]

/-! ## 2. What the loop reads -/

/-- **The context, the configuration and what was chosen before the loop.** -/
structure Context where
  replayMode : Bool
  walletPubkey : Option Pubkey
  crossDexHandler : Bool
  livePoolCache : Bool
  jitoClient : Bool
  treasury : Bool
  addressLookupTable : Option LoadedAlt
  runtime : Runtime
  text : JsonText
  derivation : Derivation
  /-- `TxPlan::hash_string`. -/
  hashString : List Instruction → String
  /-- An error code in `{:?}`. -/
  debugText : Option String → String
  sendEnabled : Bool
  jitoTipLamports : UInt64
  bundleAuction : BundleAuctionParams
  /-- `bundle_auction.min_profit_for_landing()`. -/
  minProfitForLanding : UInt64
  effectiveFeePolicy : FeePolicy
  /-- The total of `estimate_tx_cost_with_compute_units` under the policy. -/
  totalCostLamports : Ipc.TradeIntent → UInt64
  /-- `priority_fee_selection.fee_micro_lamports`. -/
  priorityFeeMicroLamports : UInt64
  computeUnits : UInt32

/-- `DiscoveryRequestOutcome`. -/
inductive DiscoveryRequestOutcome where
  | ok
  | notFound
  | error (msg : String)
  | timeout

def DiscoveryRequestOutcome.isOk : DiscoveryRequestOutcome → Bool
  | .ok => true
  | _ => false

/-- `CrossDexValidation`, what the loop reads of it. -/
structure CrossDexValidation where
  isValid : Bool
  actualSpreadBps : Int
  estimatedProfitLamports : Int
  rejectReason : Option String

/-- `CrossDexSwapPlan`, what the loop reads of it. -/
structure CrossDexSwapPlan where
  buyInstructions : List Instruction
  sellInstructions : List Instruction
  totalComputeUnits : UInt32
  buyDex : String
  sellDex : String

/-- `TxPlanOutcome`. -/
inductive TxPlanOutcome where
  | planned (instructions : List Instruction)
  | unsupported (reason : RejectReason) (details : String)

/-- **The answers of one round**, each to what it is asked. -/
structure RoundAnswers where
  /-- `validate_arb_opportunity`, then `build_swap_plan`. -/
  validation : Ipc.TradeIntent → Except String CrossDexValidation
  swapPlan : Ipc.TradeIntent → CrossDexValidation → Except String CrossDexSwapPlan
  /-- `get_priority_fee_for_intent`. -/
  microLamportsPerCu : Ipc.TradeIntent → UInt64
  /-- `pump_amm_hint_pool_cache_usable_for_tx_plan_builder`. -/
  hintPoolCacheUsable : Pubkey → Bool
  /-- `request_discovery_and_wait` before the plan: the base mint and the pool hint. -/
  preplanDiscovery : String → String → DiscoveryRequestOutcome
  /-- `wait_for_pump_amm_pool_hint_ready_for_tx_plan_builder`. -/
  preplanPoolReady : Pubkey → Bool
  /-- `build_tx_plan`. -/
  txPlan : Ipc.TradeIntent → Pubkey → TxPlanOutcome
  /-- `random_tip_account`. -/
  tipAccount : Pubkey
  /-- `pump_amm_hot_path_quote_not_ready_detail`. -/
  quoteNotReady : Ipc.TradeIntent → Option String
  /-- `get_latest_blockhash`. -/
  blockhash : Except String Hash
  /-- `simulate_transaction_with_config`. -/
  simulation : VersionedTransaction → SimulateReply
  /-- `get_pump_amm_pool_address_by_base_mint`. -/
  cachedPumpAmmPool : Pubkey → Option Pubkey
  /-- `sell_requires_pre_fee_metas` of the snapshot before the discovery. -/
  preFeeMetasBefore : Pubkey → Option Bool
  /-- `request_discovery_and_wait` after the simulation. -/
  pumpAmmDiscovery : String → Pubkey → DiscoveryRequestOutcome
  /-- `wait_for_pump_amm_slave_after_recovery`, then what the cache says of the SELL. -/
  pumpAmmSlaveFresh : Pubkey → Bool
  sellRequiresPreFeeMetas : Pubkey → Bool
  sellRequiresFeeTail : Pubkey → Bool
  sellRequiresExtended : Pubkey → Bool
  /-- `PumpFunDex::new` succeeds. -/
  pumpfunDex : Bool
  /-- `request_pumpfun_bonding_recovery_and_wait`. -/
  pumpfunDiscovery : String → DiscoveryRequestOutcome
  /-- `wait_for_pumpfun_bonding_cache_refresh`. -/
  pumpfunCacheFresh : Pubkey → Bool
  /-- `request_orca_whirlpool_recovery_and_wait` for the SELL leg of an arbitrage, then
      `wait_for_orca_whirlpool_slave_after_recovery`. -/
  crossDexOrcaDiscovery : String → String → DiscoveryRequestOutcome
  crossDexOrcaFresh : Pubkey → Bool
  /-- The same for a cold-path SELL. -/
  coldPathOrcaDiscovery : String → Pubkey → DiscoveryRequestOutcome
  coldPathOrcaFresh : Pubkey → Bool

/-! ## 3. The intent and the error of a simulation -/

section Intent

variable (intent : Ipc.TradeIntent)

/-- `intent.metadata.get(key) == Some(value)`. -/
def metaIs (key value : String) : Bool := decide (intent.metadata.lookup key = some value)

/-- A SELL for a liquidation or by the kill switch. -/
def isLiquidationSell : Bool :=
  decide (intent.side = .sell) &&
    (metaIs intent "purpose" "liquidation" || metaIs intent "kill_switch" "true")

/-- `is_cold_path_recovery_sell`. -/
def isColdPathRecoverySell : Bool :=
  if intent.side ≠ .sell then false
  else if metaIs intent "sell_all" "true" then true
  else metaIs intent "purpose" "liquidation" || metaIs intent "kill_switch" "true"

/-- `CrossDexHandler::is_cross_dex_arb_intent`. -/
def isCrossDexArbIntent : Bool :=
  if (intent.swapPath.map fun path => !path.isEmpty).getD false then false
  else decide (intent.resources.pools.length = 2) && decide (intent.source = "arb-strategy")

/-- `is_cross_dex_arb_bundle`. -/
def isCrossDexArbBundle : Bool := isCrossDexArbIntent intent || metaIs intent "cross_dex_arb" "true"

/-- `pump_amm_pool_market_hint_pk`: the pool of the intent before the cached one. -/
def pumpAmmPoolMarketHintPk (cachePool : Option Pubkey) : Option Pubkey :=
  let intentPool := intent.resources.pools.head?.bind parsePubkey
  match parsePubkey intent.resources.inputMint with
  | none => none
  | some _ => intentPool <|> cachePool

end Intent

/-- An error code with one of some texts inside. -/
def containsAny (texts : List String) (errorCode : Option String) : Bool :=
  match errorCode with
  | none => false
  | some e => texts.any fun text => decide (List.IsInfix text.toList e.toList)

/-- `is_pump_amm_structural_sim_error`. -/
def isPumpAmmStructuralSimError : Option String → Bool :=
  containsAny
    ["6023", "6013", "InvalidProtocolFeeRecipient", "Overflow", "0x1787", "0x177d", "0x177D"]

/-- `is_pumpfun_bonding_curve_structural_sim_error`. -/
def isPumpfunBondingCurveStructuralSimError : Option String → Bool :=
  containsAny ["6023", "6024", "Overflow", "0x1787", "0x1788"]

/-- `is_orca_structural_sim_error`. -/
def isOrcaStructuralSimError : Option String → Bool :=
  containsAny ["6023", "6024", "Overflow", "0x1787", "0x1788"]

/-- `cold_path_dex_sim_failure_triggers_discovery_recovery`. -/
def coldPathDexSimFailureTriggersDiscoveryRecovery (intent : Ipc.TradeIntent)
    (errorCode : Option String) (isStructural : Option String → Bool) : Bool :=
  if isLiquidationSell intent then true else isStructural errorCode

/-- `cross_dex_orca_recovery_eligible`. -/
def crossDexOrcaRecoveryEligible (orcaRecoveryAttempted isCrossDexArb : Bool)
    (sellDex simErrorCode : Option String) : Bool :=
  !orcaRecoveryAttempted && isCrossDexArb && decide (sellDex = some "orca") &&
    isOrcaStructuralSimError simErrorCode

/-! ## 4. The state of the loop and how a round ends -/

/-- What the loop rewrites from round to round. -/
structure LoopState where
  intent : Ipc.TradeIntent
  checks : Checks
  pumpAmmPreplanDiscoveryAttempted : Bool
  pumpAmmRecoveryAttempted : Bool
  pumpfunBondingRecoveryAttempted : Bool
  orcaRecoveryAttempted : Bool
  multiPoolTxPlanFallbackAttempted : Bool

/-- Before the first round. -/
def LoopState.start (intent : Ipc.TradeIntent) (checks : Checks) : LoopState :=
  ⟨intent, checks, false, false, false, false, false⟩

/-- On a retry the checks of the round before are dropped. -/
def LoopState.truncate (s : LoopState) (checksLenBeforeTxPlanBuild : Nat) : LoopState :=
  if s.pumpAmmPreplanDiscoveryAttempted || s.pumpAmmRecoveryAttempted ||
      s.pumpfunBondingRecoveryAttempted || s.orcaRecoveryAttempted ||
      s.multiPoolTxPlanFallbackAttempted then
    { s with checks := s.checks.take checksLenBeforeTxPlanBuild }
  else s

/-- The recoveries that may start the loop again. -/
inductive Recovery where
  | preplanDiscovery
  | pumpAmm
  | pumpfun
  | orca
  deriving DecidableEq

/-- Why the loop starts again. -/
inductive Cause where
  | recovery (r : Recovery)
  | fallbackRoute (route : MultiPoolFallbackRouteWire)
  deriving DecidableEq

/-- **What the loop hands on**: the plan, its tip, and the simulation with what it was of. -/
structure Planned where
  txPlan : List Instruction
  planHashStr : String
  simResult : SimulationResult
  requiresBundle : Bool
  bundleTipIx : Option Instruction
  walletPubkey : Pubkey
  bundleTipLamports : Option Nat
  simWalletDeltaLamports : Option Int
  simulated : TxRequest

/-- How the loop ends: by `break`, by the `return` of a rejected decision, or in a panic. -/
inductive LoopEnd where
  | broke (planned : Planned) (intent : Ipc.TradeIntent) (checks : Checks)
  | rejected (intent : Ipc.TradeIntent) (checks : Checks) (reason : RejectReason)
  | panicked

/-- A stage of a round. -/
abbrev LoopStage := Retry.Stage Cause LoopState LoopEnd

/-- A failed check, the locks released, and a rejected decision. -/
def reject {A : Type} (intent : Ipc.TradeIntent) (checks : Checks) (checkName : String)
    (reason : RejectReason) (details : Option String) : LoopStage A :=
  Retry.Stage.done (.rejected intent (checks.failed checkName reason.asStr details) reason)

/-! ## 5. Planning -/

/-- A plan, its hash, and the checks so far. -/
structure PlanBuilt where
  instructions : List Instruction
  planHashStr : String
  checks : Checks

/-- `compute_budget_helper::program_id`. -/
def computeBudgetProgram : Pubkey := pubkeyConst "ComputeBudget111111111111111111111111111111"

/-- `set_compute_unit_limit`. -/
def setComputeUnitLimit (units : Nat) : Instruction :=
  ⟨computeBudgetProgram, [], 2 :: (List.range 4).map fun i => (units / 256 ^ i).toUInt8⟩

/-- `set_compute_unit_price`. -/
def setComputeUnitPrice (microLamports : UInt64) : Instruction :=
  ⟨computeBudgetProgram, [], 3 :: PumpAmm.toLeBytes microLamports⟩

/-- `cross_dex_effective_compute_units`. -/
def crossDexEffectiveComputeUnits (planCu policyCu : Nat) : Nat := max planCu policyCu

section Stages

variable (ctx : Context) (isCrossDexArb : Bool) (answers : RoundAnswers) (s : LoopState)

/-- The plan of a cross-DEX arbitrage: validated with live quotes, then two legs. -/
def planCrossDex : LoopStage PlanBuilt :=
  if !ctx.crossDexHandler then
    reject s.intent s.checks "cross_dex_handler" .arbHandlerNotConfigured
      (some "Cross-DEX handler not initialized")
  else
    match answers.validation s.intent with
    | .error e => reject s.intent s.checks "cross_dex_validation" .arbValidationError (some e)
    | .ok validation =>
        if !validation.isValid then
          reject s.intent s.checks "cross_dex_validation" .arbSpreadInsufficient
            validation.rejectReason
        else
          let checks := s.checks.passed "cross_dex_validation"
            (s!"spread={validation.actualSpreadBps}bps" ++
              s!" profit={validation.estimatedProfitLamports}lamports" ++
              s!" tx_cost={ctx.totalCostLamports s.intent}lamports")
          match answers.swapPlan s.intent validation with
          | .error e =>
              reject s.intent checks "tx_plan" .unsupportedIntent
                (some ("cross_dex_plan_error:" ++ e))
          | .ok plan =>
              let policyCu := ctx.effectiveFeePolicy.computeUnitsForIntent s.intent
              let computeUnits := min
                (crossDexEffectiveComputeUnits plan.totalComputeUnits.toNat policyCu)
                ctx.effectiveFeePolicy.maxComputeUnits.toNat
              let microLamportsPerCu := answers.microLamportsPerCu s.intent
              let price :=
                if microLamportsPerCu > 0 then [setComputeUnitPrice microLamportsPerCu] else []
              let ixs := [setComputeUnitLimit computeUnits] ++ price ++ plan.buyInstructions ++
                plan.sellInstructions
              let planHashStr := ctx.hashString ixs
              .ok ⟨ixs, planHashStr, checks.passed "tx_plan"
                (s!"ix_count={ixs.length} plan_hash={planHashStr} buy_dex={plan.buyDex}" ++
                  s!" sell_dex={plan.sellDex} compute_units={computeUnits}" ++
                  s!" plan_cu={plan.totalComputeUnits} policy_cu={policyCu}")⟩

/-- Before the first plan of a cold-path PumpSwap SELL whose hint pool the builder cannot use: one
    discovery, then a wait for the cache. -/
def preplanDiscovery : LoopStage Unit :=
  if !ctx.replayMode && !s.pumpAmmPreplanDiscoveryAttempted && isColdPathRecoverySell s.intent &&
      metaIs s.intent "dex" "pump_amm" && s.intent.resources.accounts.isEmpty then
    match s.intent.resources.pools with
    | [pool] =>
        match parsePubkey s.intent.resources.inputMint, parsePubkey pool with
        | some _, some poolPk =>
            let cacheOkForBuilder := ctx.livePoolCache && answers.hintPoolCacheUsable poolPk
            let discovery := answers.preplanDiscovery s.intent.resources.inputMint pool
            if !cacheOkForBuilder && discovery.isOk && ctx.livePoolCache &&
                answers.preplanPoolReady poolPk then
              Retry.Stage.again (.recovery .preplanDiscovery)
                { s with pumpAmmPreplanDiscoveryAttempted := true }
            else .ok ()
        | _, _ => .ok ()
    | _ => .ok ()
  else .ok ()

/-- `build_tx_plan`; where it does not support the intent, the next fallback route of a cold-path
    SELL. -/
def buildTxPlan (walletPubkey : Pubkey) : LoopStage PlanBuilt :=
  match answers.txPlan s.intent walletPubkey with
  | .planned instructions =>
      let planHashStr := ctx.hashString instructions
      .ok ⟨instructions, planHashStr, s.checks.passed "tx_plan"
        s!"ix_count={instructions.length} plan_hash={planHashStr}"⟩
  | .unsupported reason details =>
      let next :=
        if isColdPathRecoverySell s.intent then
          takeNextMultiPoolBuildableFallbackRoute ctx.text s.intent
        else none
      match next with
      | some (route, intent) =>
          Retry.Stage.again (.fallbackRoute route)
            { s with intent, multiPoolTxPlanFallbackAttempted := true }
      | none => reject s.intent s.checks "tx_plan" reason (some details)

/-- The plan of a round, with the wallet it is for. -/
def planTx : LoopStage (Pubkey × PlanBuilt) :=
  match ctx.walletPubkey with
  | none =>
      reject s.intent s.checks "tx_plan" .internalError
        (some "wallet_pubkey_unavailable (keys not loaded)")
  | some walletPubkey =>
      if isCrossDexArb then do
        let built ← planCrossDex ctx answers s
        return (walletPubkey, built)
      else do
        preplanDiscovery ctx answers s
        let built ← buildTxPlan ctx answers s walletPubkey
        return (walletPubkey, built)

/-! ## 6. The tip and the simulation -/

/-- `EffectiveBundleTip`. -/
inductive EffectiveBundleTip where
  | ok (lamports : Nat)
  | auctionBudgetInsufficient (estimatedProfit priorityCost maxAuctionSpend computedTip : Nat)

/-- A number of the metadata. -/
def metaU64 (intent : Ipc.TradeIntent) (key : String) : Option Nat :=
  ((intent.metadata.lookup key).bind parseU64).map UInt64.toNat

/-- `effective_bundle_tip_lamports`; none is the panic of the clamp. -/
def effectiveBundleTipLamports (intent : Ipc.TradeIntent) : Option EffectiveBundleTip :=
  let priorityCost := estimatePriorityFeeLamports ctx.priorityFeeMicroLamports.toNat
    ctx.computeUnits.toNat
  let profit := metaU64 intent "estimated_profit_lamports"
  match (if isCrossDexArbBundle intent then profit else none) with
  | some profit =>
      let tipBps := (metaU64 intent "bundle_tip_bps").getD ctx.bundleAuction.tipDefaultBps
      (crossDexEffectiveBundleTipLamports profit tipBps priorityCost ctx.bundleAuction).map
        fun
        | .ok tip => .ok tip
        | .rejected estimatedProfit priorityCost maxAuctionSpend computedTip =>
            .auctionBudgetInsufficient estimatedProfit priorityCost maxAuctionSpend computedTip
  | none =>
      let tip := (intent.bundleTipLamports.getD ctx.jitoTipLamports).toNat
      if tip < ctx.bundleAuction.jitoTipFloorLamports then
        some (.auctionBudgetInsufficient (profit.getD 0) priorityCost 0 tip)
      else some (.ok tip)

/-- The tip of a round: its instruction and its lamports. -/
structure BundleTip where
  ix : Option Instruction
  lamports : Option Nat

/-- The tip instruction of a bundle that will be sent. -/
def bundleTip (walletPubkey : Pubkey) (checks : Checks) : LoopStage BundleTip :=
  if s.intent.requiresBundle && ctx.sendEnabled then
    if !ctx.jitoClient then
      reject s.intent checks "bundle_config" .bundleNotConfigured
        (some "Intent requires atomic bundle but Jito not configured")
    else
      match effectiveBundleTipLamports ctx s.intent with
      | none => Retry.Stage.done .panicked
      | some (.ok tipLamports) =>
          .ok ⟨some (buildSystemTransfer walletPubkey answers.tipAccount (.ofNat tipLamports)),
            some tipLamports⟩
      | some (.auctionBudgetInsufficient estimatedProfit priorityCost maxAuctionSpend
          computedTip) =>
          reject s.intent checks "bundle_auction_budget" .feeUnprofitable
            (some (s!"estimated_profit={estimatedProfit} priority_cost={priorityCost}" ++
              s!" max_auction_spend={maxAuctionSpend} computed_tip={computedTip}" ++
              s!" jito_min_tip={ctx.bundleAuction.jitoTipFloorLamports}"))
  else .ok ⟨none, none⟩

/-- A hot-path PumpSwap SELL is not simulated before its quote is ready. -/
def quoteReady (checks : Checks) : LoopStage Unit :=
  match (if ctx.replayMode then none else answers.quoteNotReady s.intent) with
  | some detail =>
      reject s.intent checks "pump_amm_quote_ready" .quoteUnavailable (some detail)
  | none => .ok ()

/-- `ix.accounts[1].pubkey` of a tip instruction. -/
def tipAccountOf (ix : Instruction) : Option Pubkey := ix.accounts[1]?.map (·.pubkey)

/-- The plan as it is simulated: with its tip, and the tip account kept out of the table. -/
def requestForSim (built : PlanBuilt) (tip : BundleTip) : TxRequest where
  plan :=
    match tip.ix with
    | some ix => built.instructions ++ [ix]
    | none => built.instructions
  excludeTipFromAlt := tip.ix.bind tipAccountOf

/-- The simulation of a round, with all that a `break` would hand on. -/
def simulate (walletPubkey : Pubkey) (built : PlanBuilt) (tip : BundleTip) : Planned :=
  let request := requestForSim built tip
  let simOutcome := simulateTransaction ctx.runtime ctx.addressLookupTable walletPubkey request
    answers.blockhash answers.simulation
  { txPlan := built.instructions
    planHashStr := built.planHashStr
    simResult := simOutcome.result
    requiresBundle := s.intent.requiresBundle
    bundleTipIx := tip.ix
    walletPubkey
    bundleTipLamports := tip.lamports
    simWalletDeltaLamports := simOutcome.walletSolDeltaLamports
    simulated := request }

/-! ## 7. Recoveries -/

section Recoveries

variable (planned : Planned)

/-- `break`. -/
def breakLoop {A : Type} (s : LoopState) (planned : Planned) : LoopStage A :=
  Retry.Stage.done (.broke planned s.intent s.checks)

/-- A simulation that succeeded ends the loop. -/
def breakOnSuccess : LoopStage Unit :=
  if planned.simResult.success then breakLoop s planned else .ok ()

/-- The recovery of a cold-path PumpSwap SELL: the accounts of the pool are refreshed. -/
def recoverPumpAmm : LoopStage Unit :=
  if !s.pumpAmmRecoveryAttempted && isColdPathRecoverySell s.intent &&
      metaIs s.intent "dex" "pump_amm" &&
      coldPathDexSimFailureTriggersDiscoveryRecovery s.intent planned.simResult.errorCode
        isPumpAmmStructuralSimError then
    match parsePubkey s.intent.resources.inputMint with
    | none => breakLoop s planned
    | some baseMint =>
        let cachePool := if ctx.livePoolCache then answers.cachedPumpAmmPool baseMint else none
        match pumpAmmPoolMarketHintPk s.intent cachePool with
        | none => .ok ()
        | some poolPk =>
            let discovery := answers.pumpAmmDiscovery s.intent.resources.inputMint poolPk
            if discovery.isOk && ctx.livePoolCache && answers.pumpAmmSlaveFresh poolPk then
              let sellRequiresPreFeeMetas := answers.sellRequiresPreFeeMetas poolPk
              let sellIxAccountCount := inferredSellIxAccountCount sellRequiresPreFeeMetas
                (answers.sellRequiresFeeTail poolPk) (answers.sellRequiresExtended poolPk)
              let beforePreFee := (answers.preFeeMetasBefore poolPk).getD false
              -- a layout that lost its pre-fee metas is not retried
              if beforePreFee && !sellRequiresPreFeeMetas then breakLoop s planned
              else if beforePreFee && decide (sellIxAccountCount < sellExtendedV2TotalAccounts) then
                breakLoop s planned
              else
                Retry.Stage.again (.recovery .pumpAmm) { s with pumpAmmRecoveryAttempted := true }
            else .ok ()
  else .ok ()

/-- The recovery of a cold-path SELL on a PumpFun bonding curve. -/
def recoverPumpfun : LoopStage Unit :=
  if !s.pumpfunBondingRecoveryAttempted && isColdPathRecoverySell s.intent &&
      metaIs s.intent "dex" "pumpfun" &&
      coldPathDexSimFailureTriggersDiscoveryRecovery s.intent planned.simResult.errorCode
        isPumpfunBondingCurveStructuralSimError then
    match s.intent.resources.pools with
    | [pool] =>
        match parsePubkey s.intent.resources.inputMint with
        | none => breakLoop s planned
        | some baseMint =>
            if !answers.pumpfunDex then breakLoop s planned
            else
              let bondingCurve := ctx.derivation.findProgramAddress
                [.text "bonding-curve", .key baseMint] pumpfunProgram
              let poolOk := decide (parsePubkey pool = some bondingCurve)
              let discovery := answers.pumpfunDiscovery s.intent.resources.inputMint
              if poolOk && discovery.isOk && ctx.livePoolCache &&
                  answers.pumpfunCacheFresh bondingCurve then
                Retry.Stage.again (.recovery .pumpfun)
                  { s with pumpfunBondingRecoveryAttempted := true }
              else .ok ()
    | _ => .ok ()
  else .ok ()

/-- The recovery of a cross-DEX arbitrage that sells on Orca. It leaves a check. -/
def recoverOrcaCrossDex : LoopStage Checks :=
  let simError := planned.simResult.errorCode
  if crossDexOrcaRecoveryEligible s.orcaRecoveryAttempted isCrossDexArb
      (s.intent.metadata.lookup "sell_dex") simError then
    let name := "orca_cross_dex_recovery"
    match s.intent.metadata.lookup "sell_pool" <|> s.intent.resources.pools[1]? with
    | none =>
        let checks := s.checks.failed name "missing_sell_pool" simError
        breakLoop { s with checks } planned
    | some sellPool =>
        match parsePubkey sellPool with
        | none =>
            let checks := s.checks.failed name "invalid_sell_pool" (some sellPool)
            breakLoop { s with checks } planned
        | some poolPk =>
            let discovery := answers.crossDexOrcaDiscovery s.intent.resources.outputMint sellPool
            if discovery.isOk && ctx.livePoolCache && answers.crossDexOrcaFresh poolPk then
              let checks := s.checks.passed name
                ("pool=" ++ base58Text poolPk ++ " sim_error=" ++ ctx.debugText simError)
              Retry.Stage.again (.recovery .orca) { s with checks, orcaRecoveryAttempted := true }
            else .ok (s.checks.failed name "recovery_no_fresh_slave" simError)
  else .ok s.checks

/-- The recovery of a cold-path SELL on an Orca whirlpool. -/
def recoverOrcaColdPath : LoopStage Unit :=
  if !s.orcaRecoveryAttempted && isColdPathRecoverySell s.intent &&
      metaIs s.intent "dex" "orca" &&
      coldPathDexSimFailureTriggersDiscoveryRecovery s.intent planned.simResult.errorCode
        isOrcaStructuralSimError then
    match s.intent.resources.pools with
    | [pool] =>
        match parsePubkey s.intent.resources.inputMint, parsePubkey pool with
        | some _, some poolPk =>
            let discovery := answers.coldPathOrcaDiscovery s.intent.resources.inputMint poolPk
            if discovery.isOk && ctx.livePoolCache && answers.coldPathOrcaFresh poolPk then
              Retry.Stage.again (.recovery .orca) { s with orcaRecoveryAttempted := true }
            else .ok ()
        | _, _ => breakLoop s planned
    | _ => .ok ()
  else .ok ()

end Recoveries

end Stages

/-! ## 8. The loop -/

/-- What follows the simulation of a round: success ends the loop, else the recoveries in turn. -/
def afterSimulation (ctx : Context) (isCrossDexArb : Bool) (answers : RoundAnswers)
    (s : LoopState) (planned : Planned) : LoopStage LoopEnd := do
  breakOnSuccess s planned
  recoverPumpAmm ctx answers s planned
  recoverPumpfun ctx answers s planned
  let checks ← recoverOrcaCrossDex ctx isCrossDexArb answers s planned
  recoverOrcaColdPath ctx answers { s with checks } planned
  breakLoop { s with checks } planned

/-- **One round of `'tx_plan_retry`.** -/
def round (ctx : Context) (isCrossDexArb : Bool) (checksLenBeforeTxPlanBuild : Nat)
    (answers : RoundAnswers) (before : LoopState) : LoopStage LoopEnd := do
  let s := before.truncate checksLenBeforeTxPlanBuild
  let plan ← planTx ctx isCrossDexArb answers s
  let tip ← bundleTip ctx answers s plan.1 plan.2.checks
  quoteReady ctx answers s plan.2.checks
  afterSimulation ctx isCrossDexArb answers { s with checks := plan.2.checks }
    (simulate ctx answers s plan.1 plan.2 tip)

/-- The body of the loop, whose round `k` has the answers of round `k`. -/
def body (ctx : Context) (isCrossDexArb : Bool) (checksLenBeforeTxPlanBuild : Nat)
    (answers : Nat → RoundAnswers) (k : Nat) (s : LoopState) :
    Retry.Turn Cause LoopState LoopEnd :=
  (round ctx isCrossDexArb checksLenBeforeTxPlanBuild (answers k) s).turn

/-- **The loop `'tx_plan_retry`** for an intent and the checks it has so far, for at most so many
    rounds. -/
def txPlanRetry (ctx : Context) (answers : Nat → RoundAnswers) (fuel : Nat)
    (intent : Ipc.TradeIntent) (checks : Checks) :
    Option (Retry.Outcome Cause LoopState LoopEnd) :=
  Retry.loop (body ctx (isCrossDexArbIntent intent) checks.length answers) fuel 0
    (.start intent checks)

/-! ## 9. The send -/

/-- `cross_dex_post_sim_min_profit_lamports`. -/
def crossDexPostSimMinProfitLamports (ctx : Context) (intent : Ipc.TradeIntent) : Int :=
  let bundleMin : Int := ctx.minProfitForLanding.toNat
  match metaU64 intent "estimated_profit_lamports" with
  | some e => max ((e * 80 / 100 : Nat) : Int) bundleMin
  | none => bundleMin

/-- A transaction that leaves, with what it was built from. -/
structure SentTransaction where
  request : TxRequest
  blockhash : Hash
  transaction : VersionedTransaction

/-- The transaction of a request, signed and small enough. -/
def buildForSend (ctx : Context) (walletPubkey : Pubkey) (request : TxRequest) (hash : Hash) :
    Option SentTransaction :=
  match buildSignedVersionedTx ctx.runtime ctx.addressLookupTable walletPubkey request hash with
  | .error _ => none
  | .ok tx =>
      match checkVersionedTxSize ctx.runtime tx with
      | .error _ => none
      | .ok () => some ⟨request, hash, tx⟩

/-- The simulated change of the wallet is enough for a cross-DEX bundle. -/
def postSimPnlPasses (ctx : Context) (intent : Ipc.TradeIntent) (planned : Planned) : Bool :=
  if isCrossDexArbBundle intent && ctx.sendEnabled then
    match planned.simWalletDeltaLamports with
    | some simDelta => decide (crossDexPostSimMinProfitLamports ctx intent ≤ simDelta)
    | none => true
  else true

/-- What is submitted after the loop, given the blockhash for the send: a bundle with its tip, or
    the plan alone (`send_transaction_with_fallback`). -/
def sendTransaction (ctx : Context) (planned : Planned) (intent : Ipc.TradeIntent)
    (blockhashForSend : Except String Hash) : Option SentTransaction :=
  if !planned.simResult.success || !postSimPnlPasses ctx intent planned || !ctx.sendEnabled ||
      !ctx.treasury then none
  else
    match blockhashForSend with
    | .error _ => none
    | .ok hash =>
        if planned.requiresBundle then
          match planned.bundleTipIx with
          | none => none
          | some tipIx =>
              match tipAccountOf tipIx with
              | none => none
              | some tipAccount =>
                  buildForSend ctx planned.walletPubkey
                    ⟨planned.txPlan ++ [tipIx], some tipAccount⟩ hash
        else buildForSend ctx planned.walletPubkey ⟨planned.txPlan, none⟩ hash

end IronCrab.Engine.PlanRetry

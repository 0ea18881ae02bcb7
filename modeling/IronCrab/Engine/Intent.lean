/-
  File:      IronCrab/Engine/Intent.lean
  Subject:   INTENTS, CONFIGURATION AND THE GATES THAT ONLY READ THEM
             (src/ipc/schema.rs, src/bin/execution_engine.rs). Definitions only.

  A trade intent is read through the fields that `process_intent` uses; its `metadata` is the
  string map of the source, and the JSON list of fallback routes that the source keeps under one
  metadata key is the field `fallbackRoutes`. Numbers are the source's unsigned types, except
  that `usize` counts and milliseconds are `Nat`; `as i64` is `asI64`.
-/
import IronCrab.Storage.Locks

namespace IronCrab

/-! ## 1. Intents -/

inductive TradeSide where
  | buy
  | sell
  deriving DecidableEq

/-- Priority tier (lower = higher priority). -/
inductive IntentTier where
  | tier0
  | tier1
  | arb
  deriving DecidableEq

/-- `intent.tier as u8`. -/
def IntentTier.toU8 : IntentTier → UInt8
  | tier0 => 0
  | tier1 => 1
  | arb => 2

structure TradeResources where
  inputMint : Mint
  outputMint : Mint
  pools : List ResourceId
  accounts : List String
  deriving DecidableEq

/-- A pre-filtered buildable route of a cold-path multi-pool sell. -/
structure MultiPoolFallbackRouteWire where
  dex : String
  poolId : ResourceId
  amountOut : UInt64
  accounts : List String
  creator : Option String
  executionMinOutLamports : Option UInt64
  deriving DecidableEq

structure TradeIntent where
  tsUnixMs : Nat
  intentId : IntentId
  source : String
  tier : IntentTier
  ttlMs : Option Nat
  /-- Amount-in, raw: SOL lamports for a BUY, token units for a SELL. -/
  requiredCapital : UInt64
  resources : TradeResources
  maxSlippageBps : Nat
  side : TradeSide
  requireBundle : Option Bool
  /-- The multi-hop path is present and not empty. -/
  hasSwapPath : Bool
  metadata : Finmap fun _ : String => String
  fallbackRoutes : List MultiPoolFallbackRouteWire
  /-- `execution.min_out`. -/
  minOut : Option UInt64

namespace TradeIntent

/-- `intent.metadata.get(key).map(|v| v == value).unwrap_or(false)`. -/
def metaIs (i : TradeIntent) (key value : String) : Bool :=
  decide (i.metadata.lookup key = some value)

/-- `requires_bundle`. -/
def requiresBundle (i : TradeIntent) : Bool := i.requireBundle.getD false

/-- `is_liquidation_sell`. -/
def isLiquidationSell (i : TradeIntent) : Bool :=
  decide (i.side = .sell) && (i.metaIs "purpose" "liquidation" || i.metaIs "kill_switch" "true")

/-- `is_cold_path_recovery_sell`. -/
def isColdPathRecoverySell (i : TradeIntent) : Bool :=
  decide (i.side = .sell) &&
    (i.metaIs "sell_all" "true" || i.metaIs "purpose" "liquidation" ||
      i.metaIs "kill_switch" "true")

/-- `CrossDexHandler::is_cross_dex_arb_intent`. -/
def isCrossDexArb (i : TradeIntent) : Bool :=
  !i.hasSwapPath && decide (i.resources.pools.length = 2) && decide (i.source = "arb-strategy")

/-- `is_regular_momentum_hot_path_sell`. -/
def isRegularMomentumHotPathSell (i : TradeIntent) : Bool :=
  decide (i.side = .sell) && decide (i.source = "momentum-bot") && !i.metaIs "sell_all" "true" &&
    !i.isColdPathRecoverySell

/-- `is_cross_dex_arb_bundle`. -/
def isCrossDexArbBundle (i : TradeIntent) : Bool :=
  i.isCrossDexArb || i.metaIs "cross_dex_arb" "true"

/-- `take_next_multi_pool_buildable_fallback_route`: the intent with the next route's pool, if
    there is a next route. -/
def takeNextMultiPoolBuildableFallbackRoute (i : TradeIntent) : Option TradeIntent :=
  if i.metaIs "sell_routing" "multi_pool" then
    match i.fallbackRoutes with
    | [] => none
    | next :: rest =>
        let minLamports := next.executionMinOutLamports.getD
          (next.amountOut.toNat * (10000 - i.maxSlippageBps) / 10000).toUInt64
        let metadata := i.metadata.insert "dex" next.dex
        some { i with
          metadata := match next.creator with
            | some c => metadata.insert "creator" c
            | none => metadata.erase "creator"
          resources := { i.resources with pools := [next.poolId], accounts := next.accounts }
          fallbackRoutes := rest
          minOut := some minLamports }
  else none

/-- What a taken route leaves alone, and that it uses up one route. -/
theorem takeNext_spec {i i' : TradeIntent}
    (h : i.takeNextMultiPoolBuildableFallbackRoute = some i') :
    i'.intentId = i.intentId ∧ i'.side = i.side ∧ i'.requiredCapital = i.requiredCapital ∧
      i'.resources.inputMint = i.resources.inputMint ∧
      i'.resources.outputMint = i.resources.outputMint ∧
      i'.fallbackRoutes.length < i.fallbackRoutes.length := by
  unfold takeNextMultiPoolBuildableFallbackRoute at h
  split at h
  · cases hr : i.fallbackRoutes with
    | nil =>
        rw [hr] at h
        cases h
    | cons next rest =>
        rw [hr] at h
        cases h
        exact ⟨rfl, rfl, rfl, rfl, rfl, Nat.lt_succ_self _⟩
  · cases h

end TradeIntent

/-! ## 2. Reject reasons -/

inductive RejectReason where
  | ttlExpired
  | riskDailyLossLimit
  | riskMaxPosition
  | riskMaxOpenPositions
  | simFailed
  | simSlippageExceeded
  | simInsufficientBalance
  | simTimeout
  | lockCapitalConflict
  | lockResourceConflict
  | lockDuplicateIntent
  | quoteUnavailable
  | unsupportedIntent
  | killSwitchActive
  | internalError
  | sendFailed
  | feeComputeExceedsLimit
  | feePriorityExceedsLimit
  | feeExceedsMaxCost
  | feeUnprofitable
  | arbHandlerNotConfigured
  | arbValidationError
  | arbSpreadInsufficient
  | bundleNotConfigured
  | bundleFailed
  | bundleTimeout
  deriving DecidableEq

/-- `sim_failure_reject_reason`. -/
def simFailureRejectReason (errorCode : Option String) : RejectReason :=
  if errorCode = some "sim_timeout" then .simTimeout else .simFailed

/-! ## 3. Configuration and gates -/

structure ExecutionConfig where
  sendEnabled : Bool
  intentTtlMs : Nat
  maxPositionSizeLamports : UInt64
  maxSlippageBps : Nat
  maxOpenPositions : Nat
  dailyLossLimitLamports : UInt64
  simulationTimeoutMs : Nat
  capitalLockTtlBufferMs : Nat
  /-- `bundle_auction.min_profit_for_landing()`. -/
  minProfitForLanding : UInt64

/-- What is configured for the process. -/
structure EngineSetup where
  replayMode : Bool
  walletLoaded : Bool
  crossDexHandler : Bool
  jitoClient : Bool
  treasury : Bool
  nats : Bool

/-- `u64::saturating_add` on milliseconds. -/
def satAddMs (a b : Nat) : Nat := min (a + b) (Word.size - 1)

/-- `effective_intent_ttl_ms`. -/
def effectiveIntentTtlMs (intentTtlMs : Option Nat) (defaultTtlMs : Nat) : Nat :=
  (intentTtlMs.filter fun t => decide (0 < t)).getD defaultTtlMs

/-- `intent_is_expired`. -/
def intentIsExpired (nowUnixMs intentTsUnixMs : Nat) (intentTtlMs : Option Nat)
    (defaultTtlMs : Nat) : Bool :=
  decide (satAddMs intentTsUnixMs (effectiveIntentTtlMs intentTtlMs defaultTtlMs) < nowUnixMs)

/-- `compute_pre_send_capital_lock_ttl`: the longest discovery (45 s + 20 s cold, 10 s + 20 s
    warm), the simulation timeout and a buffer. -/
def computePreSendCapitalLockTtl (config : ExecutionConfig) : Duration :=
  let coldDiscoveryMs := 45 * 1000 + 20000
  let warmDiscoveryMs := 10000 + 20000
  satAddMs (satAddMs (max coldDiscoveryMs warmDiscoveryMs) config.simulationTimeoutMs)
    config.capitalLockTtlBufferMs

/-- `s.parse::<usize>()` on decimal digits, with an optional plus sign. -/
def parseUsize (s : String) : Option Nat :=
  let digits := match s.toList with
    | '+' :: rest => rest
    | cs => cs
  if digits.isEmpty || digits.any (fun c => !c.isDigit) then none
  else
    let n := digits.foldl (fun n c => 10 * n + (c.toNat - '0'.toNat)) 0
    if n < Word.size then some n else none

/-- The open-position count that the strategy put into the metadata. -/
def TradeIntent.currentOpenPositions (i : TradeIntent) : Nat :=
  ((i.metadata.lookup "current_open_positions").bind parseUsize).getD 0

/-- `cross_dex_post_sim_min_profit_lamports`. -/
def crossDexPostSimMinProfitLamports (i : TradeIntent) (config : ExecutionConfig) : Int :=
  let bundleMin : Int := config.minProfitForLanding.toNat
  match (i.metadata.lookup "estimated_profit_lamports").bind parseUsize with
  | some p => max ((p * 80 / 100 : Nat) : Int) bundleMin
  | none => bundleMin

/-- `max_open_positions_buy_gate` (the verdict). -/
def maxOpenPositionsBuyGate (metadataCurrent : Nat) (authorityCurrent : Option Nat)
    (lockmanagerCurrent maxOpen : Nat) : Bool :=
  let effectiveCurrent := match authorityCurrent with
    | some authority => max metadataCurrent authority
    | none => max metadataCurrent lockmanagerCurrent
  decide (effectiveCurrent < maxOpen)

/-- `scale_in_max_open_positions_skip_details` (whether the gate is skipped), given the balance
    that it reads for `output_mint`. -/
def scaleInSkipsMaxOpenPositions (entryKind : Option String) (existingBalanceRaw : UInt64) :
    Bool :=
  decide (entryKind = some "scale_in") && !decide (existingBalanceRaw = 0)

/-- `x as i64`. -/
def asI64 (x : UInt64) : Int := if x.toNat < 2 ^ 63 then x.toNat else x.toNat - 2 ^ 64

/-- The test of the daily loss gate. -/
def dailyLossReached (dailyLoss : Int) (limitLamports : UInt64) : Bool :=
  decide (asI64 limitLamports ≤ dailyLoss)

/-- `sell_token_balance_gate` (the verdict): the smaller of the two ledgers, where the authority
    knows the mint. -/
def sellTokenBalanceGate (lockmanagerAvailable : UInt64) (authorityTradable : Option UInt64)
    (requiredRaw : UInt64) : Bool :=
  decide (requiredRaw ≤ match authorityTradable with
    | some auth => min lockmanagerAvailable auth
    | none => lockmanagerAvailable)

/-- Whether a string contains another. -/
def containsStr (s part : String) : Bool := s.toList.tails.any fun t => part.toList.isPrefixOf t

/-- An error code that contains one of the signatures. -/
def errorCodeHas (signatures : List String) (errorCode : Option String) : Bool :=
  match errorCode with
  | some e => signatures.any fun part => containsStr e part
  | none => false

/-- `is_pump_amm_structural_sim_error`. -/
def isPumpAmmStructuralSimError : Option String → Bool :=
  errorCodeHas
    ["6023", "6013", "InvalidProtocolFeeRecipient", "Overflow", "0x1787", "0x177d", "0x177D"]

/-- `is_pumpfun_bonding_curve_structural_sim_error`. -/
def isPumpfunBondingCurveStructuralSimError : Option String → Bool :=
  errorCodeHas ["6023", "6024", "Overflow", "0x1787", "0x1788"]

/-- `is_orca_structural_sim_error`. -/
def isOrcaStructuralSimError : Option String → Bool :=
  errorCodeHas ["6023", "6024", "Overflow", "0x1787", "0x1788"]

/-- `cold_path_dex_sim_failure_triggers_discovery_recovery`. -/
def coldPathDexSimFailureTriggersDiscoveryRecovery (i : TradeIntent) (errorCode : Option String)
    (isStructural : Option String → Bool) : Bool :=
  i.isLiquidationSell || isStructural errorCode

/-- `scope48_confirmed_sell_close_decision` (`full_close`). -/
def scope48FullClose (isColdPathRecovery : Bool) (soldRaw totalPos : UInt64)
    (walletTokenBalanceAbsentAfterTx : Bool) : Bool :=
  isColdPathRecovery || (decide (totalPos ≤ soldRaw) || walletTokenBalanceAbsentAfterTx)

end IronCrab

/-
  File:      IronCrab/Ipc/Records.lean
  Subject:   INTENTS, DECISIONS AND RESULTS ON THE WIRE (src/ipc/schema.rs), and the round trip of
             every IPC record.

  * `Survives` -- an object that is written has no key twice and reads back;
  * `ipc_records_survive` -- every record of the schema survives the wire.
-/
import IronCrab.Ipc.MarketEvent
import IronCrab.Ipc.Control

namespace IronCrab.Ipc

open Wire

/-! ## 1. Trade intents -/

/-- `IntentTier`. -/
inductive IntentTier where
  | tier0 | tier1 | arb
  deriving DecidableEq

def IntentTier.name : IntentTier → String
  | .tier0 => "Tier0"
  | .tier1 => "Tier1"
  | .arb => "Arb"

def IntentTier.codec : Codec F64 IntentTier :=
  unitEnum [.tier0, .tier1, .arb]
    name fun a => by cases a <;> rfl

/-- `IntentOrigin`. -/
inductive IntentOrigin where
  | strategyA | executionMevB
  deriving DecidableEq

def IntentOrigin.name : IntentOrigin → String
  | .strategyA => "StrategyA"
  | .executionMevB => "ExecutionMevB"

def IntentOrigin.codec : Codec F64 IntentOrigin :=
  unitEnum [.strategyA, .executionMevB]
    name fun a => by cases a <;> rfl

/-- `TradingRegime`. -/
inductive TradingRegime where
  | early | established | notApplicable
  deriving DecidableEq

def TradingRegime.name : TradingRegime → String
  | .early => "Early"
  | .established => "Established"
  | .notApplicable => "NotApplicable"

def TradingRegime.codec : Codec F64 TradingRegime :=
  unitEnum [.early, .established, .notApplicable]
    name fun a => by cases a <;> rfl

/-- `TradeSide`. -/
inductive TradeSide where
  | buy | sell
  deriving DecidableEq

def TradeSide.name : TradeSide → String
  | .buy => "Buy"
  | .sell => "Sell"

def TradeSide.codec : Codec F64 TradeSide :=
  unitEnum [.buy, .sell]
    name fun a => by cases a <;> rfl

/-- `TradeExecutionConstraints`. -/
structure TradeExecutionConstraints where
  minOut : Option ExplicitAmount

def TradeExecutionConstraints.codec (S : Serde) : Codec F64 TradeExecutionConstraints :=
  .object <| (Fields.part
    (.cons (.optional "min_out" (ExplicitAmount.codec S)) .nil)
    (of_decide_eq_true rfl)).map
    (fun (minOut, ()) =>
      ⟨minOut⟩)
    (fun r => (r.minOut, ()))
    (fun _ => rfl)

/-- `TradeResources`. -/
structure TradeResources where
  inputMint : String
  outputMint : String
  pools : List String
  accounts : List String
  tokenProgram : Option String

def TradeResources.codec : Codec F64 TradeResources :=
  .object <| (Fields.part
    (.cons (.required "input_mint" string) <|
      .cons (.required "output_mint" string) <|
      .cons (.required "pools" (.list string)) <|
      .cons (.skipped "accounts" (.list string) [] List.isEmpty (fun _ => List.isEmpty_iff.mp)) <|
      .cons (.optional "token_program" string) .nil)
    (by decide)).map
    (fun (inputMint, outputMint, pools, accounts, tokenProgram, ()) =>
      ⟨inputMint, outputMint, pools, accounts, tokenProgram⟩)
    (fun r => (r.inputMint, r.outputMint, r.pools, r.accounts, r.tokenProgram, ()))
    (fun _ => rfl)

/-- `PoolAlternative`. -/
structure PoolAlternative where
  poolAddress : String
  dex : String
  expectedOutput : UInt64

def PoolAlternative.codec : Codec F64 PoolAlternative :=
  .object <| (Fields.part
    (.cons (.required "pool_address" string) <|
      .cons (.required "dex" string) <|
      .cons (.withDefault "expected_output" u64 0) .nil)
    (by decide)).map
    (fun (poolAddress, dex, expectedOutput, ()) =>
      ⟨poolAddress, dex, expectedOutput⟩)
    (fun r => (r.poolAddress, r.dex, r.expectedOutput, ()))
    (fun _ => rfl)

/-- `SwapHop`. -/
structure SwapHop where
  poolAddress : String
  dex : String
  inputMint : String
  outputMint : String
  expectedOutput : UInt64
  poolAlternatives : List PoolAlternative

def SwapHop.codec : Codec F64 SwapHop :=
  .object <| (Fields.part
    (.cons (.required "pool_address" string) <|
      .cons (.required "dex" string) <|
      .cons (.required "input_mint" string) <|
      .cons (.required "output_mint" string) <|
      .cons (.required "expected_output" u64) <|
      .cons (.skipped "pool_alternatives" (.list PoolAlternative.codec) [] List.isEmpty
        (fun _ => List.isEmpty_iff.mp)) .nil)
    (by decide)).map
    (fun (poolAddress, dex, inputMint, outputMint, expectedOutput, poolAlternatives, ()) =>
      ⟨poolAddress, dex, inputMint, outputMint, expectedOutput, poolAlternatives⟩)
    (fun r => (r.poolAddress, r.dex, r.inputMint, r.outputMint, r.expectedOutput,
      r.poolAlternatives, ()))
    (fun _ => rfl)

/-- `TradeIntent`. -/
structure TradeIntent where
  header : RecordHeader
  intentId : String
  source : String
  tier : IntentTier
  originType : IntentOrigin
  deadlineSlot : Option UInt64
  ttlMs : Option UInt64
  requiredCapital : ExplicitAmount
  resources : TradeResources
  expectedRoiBps : Signed 32
  maxSlippageBps : UInt32
  side : TradeSide
  regime : TradingRegime
  triggerEventId : Option String
  requireBundle : Option Bool
  bundleTipLamports : Option UInt64
  hintComputeUnits : Option UInt32
  hintPriorityFeeMicroLamports : Option UInt64
  hintUrgency : Option UInt8
  metadata : StringMap
  execution : Option TradeExecutionConstraints
  swapPath : Option (List SwapHop)

def TradeIntent.part (S : Serde) : Part F64 TradeIntent :=
  ((Fields.part
    (.cons (.required "intent_id" string) <|
      .cons (.required "source" string) <|
      .cons (.required "tier" IntentTier.codec) <|
      .cons (.required "origin_type" IntentOrigin.codec) <|
      .cons (.optional "deadline_slot" u64) <|
      .cons (.optional "ttl_ms" u64) <|
      .cons (.required "required_capital" (ExplicitAmount.codec S)) <|
      .cons (.required "resources" TradeResources.codec) <|
      .cons (.required "expected_roi_bps" (signed 32)) <|
      .cons (.required "max_slippage_bps" u32) <|
      .cons (.required "side" TradeSide.codec) <|
      .cons (.required "regime" TradingRegime.codec) <|
      .cons (.optional "trigger_event_id" string) <|
      .cons (.optional "require_bundle" bool) <|
      .cons (.optional "bundle_tip_lamports" u64) <|
      .cons (.optional "hint_compute_units" u32) <|
      .cons (.optional "hint_priority_fee_micro_lamports" u64) <|
      .cons (.optional "hint_urgency" u8) <|
      .cons (.skipped "metadata" (stringMap S) ∅ (fun m => m = ∅) (fun _ => of_decide_eq_true)) <|
      .cons (.optional "execution" (TradeExecutionConstraints.codec S)) <|
      .cons (.optional "swap_path" (.list SwapHop.codec)) .nil)
    (of_decide_eq_true rfl)).flatten true RecordHeader.part (of_decide_eq_true rfl)).map
    (fun ((intentId, source, tier, originType, deadlineSlot, ttlMs, requiredCapital, resources,
      expectedRoiBps, maxSlippageBps, side, regime, triggerEventId, requireBundle,
      bundleTipLamports, hintComputeUnits, hintPriorityFeeMicroLamports, hintUrgency, metadata,
      execution, swapPath, ()), header) =>
      ⟨header, intentId, source, tier, originType, deadlineSlot, ttlMs, requiredCapital,
       resources, expectedRoiBps, maxSlippageBps, side, regime, triggerEventId, requireBundle,
       bundleTipLamports, hintComputeUnits, hintPriorityFeeMicroLamports, hintUrgency, metadata,
       execution, swapPath⟩)
    (fun r => ((r.intentId, r.source, r.tier, r.originType, r.deadlineSlot, r.ttlMs,
      r.requiredCapital, r.resources, r.expectedRoiBps, r.maxSlippageBps, r.side, r.regime,
      r.triggerEventId, r.requireBundle, r.bundleTipLamports, r.hintComputeUnits,
      r.hintPriorityFeeMicroLamports, r.hintUrgency, r.metadata, r.execution, r.swapPath, ()),
      r.header))
    (fun _ => rfl)

/-! ## 2. Decisions -/

/-- `CheckResult`. -/
structure CheckResult where
  checkName : String
  passed : Bool
  reasonCode : Option String
  details : Option String

def CheckResult.codec : Codec F64 CheckResult :=
  .object <| (Fields.part
    (.cons (.required "check_name" string) <|
      .cons (.required "passed" bool) <|
      .cons (.nullable "reason_code" string) <|
      .cons (.nullable "details" string) .nil)
    (by decide)).map
    (fun (checkName, passed, reasonCode, details, ()) =>
      ⟨checkName, passed, reasonCode, details⟩)
    (fun r => (r.checkName, r.passed, r.reasonCode, r.details, ()))
    (fun _ => rfl)

/-- `KillSwitchContext`. -/
structure KillSwitchContext where
  reason : Option String
  source : Option String
  liquidatePositions : Option Bool
  requestId : Option String

def KillSwitchContext.codec : Codec F64 KillSwitchContext :=
  .object <| (Fields.part
    (.cons (.optional "reason" string) <|
      .cons (.optional "source" string) <|
      .cons (.optional "liquidate_positions" bool) <|
      .cons (.optional "request_id" string) .nil)
    (by decide)).map
    (fun (reason, source, liquidatePositions, requestId, ()) =>
      ⟨reason, source, liquidatePositions, requestId⟩)
    (fun r => (r.reason, r.source, r.liquidatePositions, r.requestId, ()))
    (fun _ => rfl)

/-- `SimulationResult`. -/
structure SimulationResult where
  success : Bool
  errorCode : Option String
  logsPreview : Option String
  computeUnitsConsumed : Option UInt64

def SimulationResult.codec : Codec F64 SimulationResult :=
  .object <| (Fields.part
    (.cons (.required "success" bool) <|
      .cons (.optional "error_code" string) <|
      .cons (.optional "logs_preview" string) <|
      .cons (.optional "compute_units_consumed" u64) .nil)
    (by decide)).map
    (fun (success, errorCode, logsPreview, computeUnitsConsumed, ()) =>
      ⟨success, errorCode, logsPreview, computeUnitsConsumed⟩)
    (fun r => (r.success, r.errorCode, r.logsPreview, r.computeUnitsConsumed, ()))
    (fun _ => rfl)

/-- `SendResult`. -/
structure SendResult where
  signature : Option String
  bundleId : Option String
  sentAtMs : UInt64
  sendMethod : Option String

def SendResult.codec : Codec F64 SendResult :=
  .object <| (Fields.part
    (.cons (.optional "signature" string) <|
      .cons (.optional "bundle_id" string) <|
      .cons (.required "sent_at_ms" u64) <|
      .cons (.optional "send_method" string) .nil)
    (by decide)).map
    (fun (signature, bundleId, sentAtMs, sendMethod, ()) =>
      ⟨signature, bundleId, sentAtMs, sendMethod⟩)
    (fun r => (r.signature, r.bundleId, r.sentAtMs, r.sendMethod, ()))
    (fun _ => rfl)

/-- `DecisionOutcome`. -/
inductive DecisionOutcome where
  | rejected | expired | simFailed | sent | confirmed | failedConfirmed
  deriving DecidableEq

def DecisionOutcome.name : DecisionOutcome → String
  | .rejected => "Rejected"
  | .expired => "Expired"
  | .simFailed => "SimFailed"
  | .sent => "Sent"
  | .confirmed => "Confirmed"
  | .failedConfirmed => "FailedConfirmed"

def DecisionOutcome.codec : Codec F64 DecisionOutcome :=
  unitEnum [.rejected, .expired, .simFailed, .sent, .confirmed, .failedConfirmed]
    name fun a => by cases a <;> rfl

/-- `DecisionRecord`. -/
structure DecisionRecord where
  header : RecordHeader
  decisionId : String
  intentId : String
  source : String
  originType : IntentOrigin
  regime : TradingRegime
  checks : List CheckResult
  primaryRejectReason : Option String
  killSwitch : Option KillSwitchContext
  planHash : Option String
  simulate : Option SimulationResult
  send : Option SendResult
  outcome : DecisionOutcome
  configSnapshotId : Option String
  inputSnapshots : StringMap

def DecisionRecord.part (S : Serde) : Part F64 DecisionRecord :=
  ((Fields.part
    (.cons (.required "decision_id" string) <|
      .cons (.required "intent_id" string) <|
      .cons (.required "source" string) <|
      .cons (.required "origin_type" IntentOrigin.codec) <|
      .cons (.required "regime" TradingRegime.codec) <|
      .cons (.required "checks" (.list CheckResult.codec)) <|
      .cons (.optional "primary_reject_reason" string) <|
      .cons (.optional "kill_switch" KillSwitchContext.codec) <|
      .cons (.optional "plan_hash" string) <|
      .cons (.optional "simulate" SimulationResult.codec) <|
      .cons (.optional "send" SendResult.codec) <|
      .cons (.required "outcome" DecisionOutcome.codec) <|
      .cons (.optional "config_snapshot_id" string) <|
      .cons (.skipped "input_snapshots" (stringMap S) ∅ (fun m => m = ∅)
        (fun _ => of_decide_eq_true)) .nil)
    (of_decide_eq_true rfl)).flatten true RecordHeader.part (of_decide_eq_true rfl)).map
    (fun ((decisionId, intentId, source, originType, regime, checks, primaryRejectReason,
      killSwitch, planHash, simulate, send, outcome, configSnapshotId, inputSnapshots, ()),
      header) =>
      ⟨header, decisionId, intentId, source, originType, regime, checks, primaryRejectReason,
       killSwitch, planHash, simulate, send, outcome, configSnapshotId, inputSnapshots⟩)
    (fun r => ((r.decisionId, r.intentId, r.source, r.originType, r.regime, r.checks,
      r.primaryRejectReason, r.killSwitch, r.planHash, r.simulate, r.send, r.outcome,
      r.configSnapshotId, r.inputSnapshots, ()), r.header))
    (fun _ => rfl)

/-! ## 3. Positions and results -/

/-- `PositionAuthorityStatus`. -/
inductive PositionAuthorityStatus where
  | open | closed | reconcileNeeded
  deriving DecidableEq

def PositionAuthorityStatus.name : PositionAuthorityStatus → String
  | .open => "open"
  | .closed => "closed"
  | .reconcileNeeded => "reconcile_needed"

def PositionAuthorityStatus.codec : Codec F64 PositionAuthorityStatus :=
  unitEnum [.open, .closed, .reconcileNeeded]
    name fun a => by cases a <;> rfl

/-- `PositionAuthorityUpdateSource`. -/
inductive PositionAuthorityUpdateSource where
  | execution | walletSnapshot
  deriving DecidableEq

def PositionAuthorityUpdateSource.name : PositionAuthorityUpdateSource → String
  | .execution => "execution"
  | .walletSnapshot => "wallet_snapshot"

def PositionAuthorityUpdateSource.codec : Codec F64 PositionAuthorityUpdateSource :=
  unitEnum [.execution, .walletSnapshot]
    name fun a => by cases a <;> rfl

/-- `PositionAuthoritySnapshot`. -/
structure PositionAuthoritySnapshot where
  mint : String
  balanceRaw : UInt64
  decimals : UInt8
  status : PositionAuthorityStatus
  lastUpdateSource : PositionAuthorityUpdateSource
  soldRawTotal : Option UInt64

def PositionAuthoritySnapshot.part : Part F64 PositionAuthoritySnapshot :=
  (Fields.part
    (.cons (.required "mint" string) <|
      .cons (.required "balance_raw" u64) <|
      .cons (.required "decimals" u8) <|
      .cons (.required "status" PositionAuthorityStatus.codec) <|
      .cons (.required "last_update_source" PositionAuthorityUpdateSource.codec) <|
      .cons (.optional "sold_raw_total" u64) .nil)
    (by decide)).map
    (fun (mint, balanceRaw, decimals, status, lastUpdateSource, soldRawTotal, ()) =>
      ⟨mint, balanceRaw, decimals, status, lastUpdateSource, soldRawTotal⟩)
    (fun r => (r.mint, r.balanceRaw, r.decimals, r.status, r.lastUpdateSource, r.soldRawTotal, ()))
    (fun _ => rfl)

/-- `ExecutionStatus`. -/
inductive ExecutionStatus where
  | sent | confirmed | failed | timeout
  deriving DecidableEq

def ExecutionStatus.name : ExecutionStatus → String
  | .sent => "sent"
  | .confirmed => "confirmed"
  | .failed => "failed"
  | .timeout => "timeout"

/-- The names that are read, with the aliases. -/
def ExecutionStatus.ofName (text : String) : Option ExecutionStatus :=
  if text ∈ ["sent", "Sent", "SENT"] then some .sent
  else if text ∈ ["confirmed", "Confirmed", "CONFIRMED"] then some .confirmed
  else if text ∈ ["failed", "Failed", "FAILED"] then some .failed
  else if text ∈ ["timeout", "Timeout", "TIMEOUT"] then some .timeout
  else none

def ExecutionStatus.codec : Codec F64 ExecutionStatus :=
  .text name ofName fun a => by cases a <;> rfl

/-- `FillStatus`. -/
inductive FillStatus where
  | complete | partialFill | unavailable
  deriving DecidableEq

def FillStatus.name : FillStatus → String
  | .complete => "complete"
  | .partialFill => "partial"
  | .unavailable => "unavailable"

def FillStatus.codec : Codec F64 FillStatus :=
  unitEnum [.complete, .partialFill, .unavailable]
    name fun a => by cases a <;> rfl

/-- `FillUnavailableReason`. -/
inductive FillUnavailableReason where
  | rpcTxFetchFailed | txMetaMissing | walletAccountIndexMissing
  | lamportDeltaGatedAccountLifecycleNoise | tokenBalanceDeltaMissing
  deriving DecidableEq

def FillUnavailableReason.name : FillUnavailableReason → String
  | .rpcTxFetchFailed => "rpc_tx_fetch_failed"
  | .txMetaMissing => "tx_meta_missing"
  | .walletAccountIndexMissing => "wallet_account_index_missing"
  | .lamportDeltaGatedAccountLifecycleNoise => "lamport_delta_gated_account_lifecycle_noise"
  | .tokenBalanceDeltaMissing => "token_balance_delta_missing"

def FillUnavailableReason.codec : Codec F64 FillUnavailableReason :=
  unitEnum [.rpcTxFetchFailed, .txMetaMissing, .walletAccountIndexMissing,
     .lamportDeltaGatedAccountLifecycleNoise, .tokenBalanceDeltaMissing]
    name fun a => by cases a <;> rfl

/-- `ExecutionFees`. -/
structure ExecutionFees where
  networkFeeLamports : UInt64
  tipLamports : UInt64
  computeUnits : UInt64

def ExecutionFees.codec : Codec F64 ExecutionFees :=
  .object <| (Fields.part
    (.cons (.required "network_fee_lamports" u64) <|
      .cons (.required "tip_lamports" u64) <|
      .cons (.required "compute_units" u64) .nil)
    (by decide)).map
    (fun (networkFeeLamports, tipLamports, computeUnits, ()) =>
      ⟨networkFeeLamports, tipLamports, computeUnits⟩)
    (fun r => (r.networkFeeLamports, r.tipLamports, r.computeUnits, ()))
    (fun _ => rfl)

/-- `ExecutionPnl`. -/
structure ExecutionPnl where
  grossLamports : Signed 64
  netLamports : Signed 64
  decimals : UInt8

def ExecutionPnl.codec : Codec F64 ExecutionPnl :=
  .object <| (Fields.part
    (.cons (.required "gross_lamports" (signed 64)) <|
      .cons (.required "net_lamports" (signed 64)) <|
      .cons (.required "decimals" u8) .nil)
    (by decide)).map
    (fun (grossLamports, netLamports, decimals, ()) =>
      ⟨grossLamports, netLamports, decimals⟩)
    (fun r => (r.grossLamports, r.netLamports, r.decimals, ()))
    (fun _ => rfl)

/-- `ExecutionResult`. -/
structure ExecutionResult where
  header : RecordHeader
  executionId : String
  decisionId : String
  intentId : String
  source : String
  tokenMint : Option String
  signature : Option String
  bundleId : Option String
  status : ExecutionStatus
  fillIn : Option ExplicitAmount
  fillOut : Option ExplicitAmount
  fillStatus : Option FillStatus
  fillUnavailableReason : Option FillUnavailableReason
  confirmedSlot : Option UInt64
  blockTimeUnixMs : Option UInt64
  fees : Option ExecutionFees
  pnl : Option ExecutionPnl
  walletSolDeltaLamports : Option (Signed 128)
  errorMessage : Option String
  errorCode : Option String
  latencyMs : Option UInt64
  metadata : StringMap

def ExecutionResult.part (S : Serde) : Part F64 ExecutionResult :=
  ((Fields.part
    (.cons (.required "execution_id" string) <|
      .cons (.required "decision_id" string) <|
      .cons (.required "intent_id" string) <|
      .cons (.required "source" string) <|
      .cons (.optional "token_mint" string) <|
      .cons (.optional "signature" string) <|
      .cons (.optional "bundle_id" string) <|
      .cons (.required "status" ExecutionStatus.codec) <|
      .cons (.optional "fill_in" (ExplicitAmount.codec S)) <|
      .cons (.optional "fill_out" (ExplicitAmount.codec S)) <|
      .cons (.optional "fill_status" FillStatus.codec) <|
      .cons (.optional "fill_unavailable_reason" FillUnavailableReason.codec) <|
      .cons (.optional "confirmed_slot" u64) <|
      .cons (.optional "block_time_unix_ms" u64) <|
      .cons (.optional "fees" ExecutionFees.codec) <|
      .cons (.optional "pnl" ExecutionPnl.codec) <|
      .cons (.optional "wallet_sol_delta_lamports" (signed 128)) <|
      .cons (.optional "error_message" string) <|
      .cons (.optional "error_code" string) <|
      .cons (.optional "latency_ms" u64) <|
      .cons (.skipped "metadata" (stringMap S) ∅ (fun m => m = ∅)
        (fun _ => of_decide_eq_true)) .nil)
    (of_decide_eq_true rfl)).flatten true RecordHeader.part (of_decide_eq_true rfl)).map
    (fun ((executionId, decisionId, intentId, source, tokenMint, signature, bundleId, status,
      fillIn, fillOut, fillStatus, fillUnavailableReason, confirmedSlot, blockTimeUnixMs, fees,
      pnl, walletSolDeltaLamports, errorMessage, errorCode, latencyMs, metadata, ()), header) =>
      ⟨header, executionId, decisionId, intentId, source, tokenMint, signature, bundleId, status,
       fillIn, fillOut, fillStatus, fillUnavailableReason, confirmedSlot, blockTimeUnixMs, fees,
       pnl, walletSolDeltaLamports, errorMessage, errorCode, latencyMs, metadata⟩)
    (fun r => ((r.executionId, r.decisionId, r.intentId, r.source, r.tokenMint, r.signature,
      r.bundleId, r.status, r.fillIn, r.fillOut, r.fillStatus, r.fillUnavailableReason,
      r.confirmedSlot, r.blockTimeUnixMs, r.fees, r.pnl, r.walletSolDeltaLamports, r.errorMessage,
      r.errorCode, r.latencyMs, r.metadata, ()), r.header))
    (fun _ => rfl)

/-! ## 4. The round trip -/

/-- **A record survives the wire**: the object that is written has no key twice, and reads back. -/
def Survives {A : Type} (p : Part F64 A) : Prop :=
  ∀ a, (Json.obj (p.write a)).Unique ∧ p.read (p.write a) = some a

theorem survives {A : Type} (p : Part F64 A) : Survives p := fun a =>
  ⟨p.unique_write a, p.read_write_self a⟩

/-- **Every record of the schema survives the wire.** -/
theorem ipc_records_survive (S : Serde) :
    Survives (MarketEvent.part S) ∧ Survives (TradeIntent.part S) ∧
      Survives (DecisionRecord.part S) ∧ Survives ControlRequest.part ∧
      Survives ControlResponse.part ∧ Survives (ExecutionResult.part S) ∧
      Survives PositionAuthoritySnapshot.part :=
  ⟨survives _, survives _, survives _, survives _, survives _, survives _, survives _⟩

end IronCrab.Ipc

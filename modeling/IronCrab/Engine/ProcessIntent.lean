/-
  File:      IronCrab/Engine/ProcessIntent.lean
  Subject:   `process_intent` (src/bin/execution_engine.rs), gate by gate and exit by exit, as a
             program over the actions of the context. Definitions only.

  Each definition is one section of the source's function and takes the rest as `k`. An exit by
  `return` or by `?` is a program that does not go on with `k`.

  Left out: the check list of the decision record, log lines, metrics, and reads that only feed
  them. The arithmetic of the fee policy, quotes, instructions and signatures is behind the
  answers `feeGates`, `planCrossDex`, `buildTxPlan`, `buildTipInstruction` and `buildBundleTx`,
  each of which says whether (and with which reason) the source rejects at that point.
-/
import IronCrab.Engine.FillAccounting

namespace IronCrab

/-- `Ok(())` or `Err(_)`. -/
inductive Exit where
  | ok
  | err
  deriving DecidableEq

namespace ProcessIntent

/-! ## 1. Records -/

section Records

variable (setup : EngineSetup) (i : TradeIntent)

/-- The mint that execution results name. -/
def tokenMint : Mint := i.tradedMint

def sideText : String :=
  match i.side with
  | .buy => "BUY"
  | .sell => "SELL"

/-- An execution result of the intent without fills, with the side in its metadata. -/
def plainExecution (status : ExecutionStatus) : ExecutionResult where
  intentId := i.intentId
  status
  tokenMint := some (tokenMint i)
  side := some (sideText i)
  fillIn := none
  fillOut := none
  walletSolDeltaLamports := none

/-- `decision_writer.write(..)?`, then `nats.publish(..).await?`. -/
def recordDecision (decision : DecisionRecord) (k : Pipeline Exit) : Pipeline Exit :=
  .act (.writeDecision decision) fun written =>
  if !written then .ret .err
  else if setup.nats then
    .act (.publishDecision decision) fun published => if !published then .ret .err else k
  else k

/-- `execution_writer.write(..)?`, then `nats.jetstream_publish(..).await?`. -/
def recordExecution (exec : ExecutionResult) (k : Pipeline Exit) : Pipeline Exit :=
  .act (.writeExecution exec) fun written =>
  if !written then .ret .err
  else if setup.nats then
    .act (.publishExecution exec) fun published => if !published then .ret .err else k
  else k

/-- The same two calls where their errors are only logged. -/
def recordExecutionBestEffort (exec : ExecutionResult) (k : Pipeline Exit) : Pipeline Exit :=
  .act (.writeExecution exec) fun _ =>
  if setup.nats then .act (.publishExecution exec) fun _ => k else k

/-- `emit_rejected_decision`. -/
def emitRejectedDecision (reason : RejectReason) : Pipeline Exit :=
  recordDecision setup ⟨i.intentId, .rejected, some (.reason reason)⟩ (.ret .ok)

/-- `emit_expired_decision`. -/
def emitExpiredDecision (reason : RejectReason) : Pipeline Exit :=
  recordDecision setup ⟨i.intentId, .expired, some (.reason reason)⟩ <|
  .act (.markProcessed i.intentId) fun _ => .ret .ok

/-- `emit_sim_failed_decision`. -/
def emitSimFailedDecision (errorCode : Option String) : Pipeline Exit :=
  recordDecision setup ⟨i.intentId, .simFailed, some (.errorCode errorCode)⟩ <|
  recordExecutionBestEffort setup (plainExecution i .failed) (.ret .err)

/-- `release_locks`, then `emit_rejected_decision`. -/
def releaseAndReject (reason : RejectReason) : Pipeline Exit :=
  releaseLocks i.intentId (emitRejectedDecision setup i reason)

/-- `publish_arb_terminal_execution_result_on_reject`. -/
def publishArbTerminalExecutionResultOnReject (k : Pipeline Exit) : Pipeline Exit :=
  if i.source ≠ "arb-strategy" then k
  else recordExecutionBestEffort setup
    { plainExecution i .failed with
      tokenMint := some i.resources.outputMint
      side := i.metadata.lookup "side" } k

end Records

/-! ## 2. Gates -/

section Gates

variable (setup : EngineSetup) (config : ExecutionConfig) (i : TradeIntent) (k : Pipeline Exit)

/-- Check 1: idempotency. -/
def idempotencyGate : Pipeline Exit :=
  .act (.isDuplicate i.intentId) fun duplicate =>
  if duplicate then emitRejectedDecision setup i .lockDuplicateIntent else k

/-- Check 2: TTL (skipped in replay mode). -/
def ttlGate : Pipeline Exit :=
  if setup.replayMode then k
  else .act .wallClockUnixMs fun nowUnixMs =>
    if intentIsExpired nowUnixMs i.tsUnixMs i.ttlMs config.intentTtlMs then
      emitExpiredDecision setup i .ttlExpired
    else k

/-- Check 3: kill switch. -/
def killSwitchGate : Pipeline Exit :=
  if i.side = .buy then
    .act .isKillSwitchActive fun active =>
    if active then emitRejectedDecision setup i .killSwitchActive else k
  else k

/-- Check 3a: maximal position size. -/
def maxPositionGate : Pipeline Exit :=
  if i.side = .buy ∧ config.maxPositionSizeLamports < i.requiredCapital then
    emitRejectedDecision setup i .riskMaxPosition
  else k

/-- Check 3b: maximal slippage. -/
def maxSlippageGate : Pipeline Exit :=
  if i.side = .sell ∨ i.metaIs "market_order" "true" then k
  else if config.maxSlippageBps < i.maxSlippageBps then
    emitRejectedDecision setup i .simSlippageExceeded
  else k

/-- Check 3c without the bypass: the count. -/
def openPositionsCountGate : Pipeline Exit :=
  .act .openPositionsCount fun authorityCurrent =>
  .act .countNonZeroTokenBalances fun lockmanagerCurrent =>
  if maxOpenPositionsBuyGate i.currentOpenPositions (some authorityCurrent) lockmanagerCurrent
      config.maxOpenPositions then k
  else emitRejectedDecision setup i .riskMaxOpenPositions

/-- Check 3c: open positions; a scale-in BUY of a mint that the lock manager holds skips it. -/
def openPositionsGate : Pipeline Exit :=
  if i.side = .buy then
    let entryKind := i.metadata.lookup "entry_kind"
    if entryKind = some "scale_in" then
      .act (.availableTokenBalance i.resources.outputMint) fun existingBalanceRaw =>
      if scaleInSkipsMaxOpenPositions entryKind existingBalanceRaw then k
      else openPositionsCountGate setup config i k
    else openPositionsCountGate setup config i k
  else k

/-- Check 3d: daily loss. -/
def dailyLossGate : Pipeline Exit :=
  if i.side = .buy then
    .act .getDailyLossLamports fun dailyLoss =>
    if dailyLossReached dailyLoss config.dailyLossLimitLamports then
      emitRejectedDecision setup i .riskDailyLossLimit
    else k
  else k

/-- Check 3e: SELL token balance. -/
def sellBalanceGate : Pipeline Exit :=
  if i.side = .sell then
    if !setup.walletLoaded then emitRejectedDecision setup i .internalError
    else
      .act (.availableTokenBalance i.resources.inputMint) fun lockmanagerAvailable =>
      .act (.tradableBalanceRaw i.resources.inputMint) fun authorityTradable =>
      if sellTokenBalanceGate lockmanagerAvailable authorityTradable i.requiredCapital then k
      else emitRejectedDecision setup i .simInsufficientBalance
  else k

/-- Fee and compute policy. -/
def feeGate : Pipeline Exit :=
  .act (.feeGates i) fun refusal =>
  match refusal with
  | some reason => emitRejectedDecision setup i reason.1
  | none => k

/-- Everything that can reject the intent before a lock is tried. -/
def gates : Pipeline Exit :=
  idempotencyGate setup i <|
  ttlGate setup config i <|
  .act .maybeResetDaily fun _ =>
  killSwitchGate setup i <|
  maxPositionGate setup config i <|
  maxSlippageGate setup config i <|
  openPositionsGate setup config i <|
  dailyLossGate setup config i <|
  sellBalanceGate setup i <|
  feeGate setup i k

end Gates

/-! ## 3. Locks -/

section Locks

variable (setup : EngineSetup) (config : ExecutionConfig) (i : TradeIntent) (k : Pipeline Exit)

def holder : LockHolder := ⟨i.intentId, none, i.tier.toU8, some i.source⟩

/-- Check 4: a resource lock on every pool. -/
def lockResources : List ResourceId → Pipeline Exit
  | [] => k
  | pool :: pools =>
      .act (.tryLockResource (holder i) pool (computePreSendCapitalLockTtl config)) fun result =>
      match result with
      | .conflict _ => releaseAndReject setup i .lockResourceConflict
      | _ => lockResources pools

/-- The token side of the capital lock. -/
def lockedTokens : TokenMap :=
  match i.side with
  | .buy => ∅
  | .sell => (∅ : TokenMap).insert i.resources.inputMint i.requiredCapital

/-- Check 5: the capital lock. -/
def lockCapital : Pipeline Exit :=
  .act (.tryLockCapital (holder i) (if i.side = .buy then i.requiredCapital else 0)
    (lockedTokens i) (computePreSendCapitalLockTtl config)) fun result =>
  if result.isAcquired then k else releaseAndReject setup i .lockCapitalConflict

/-- `mint.starts_with(text)`. -/
def startsWith (text mint : String) : Bool := text.toList.isPrefixOf mint.toList

/-- The exits of golden replay. -/
def replayExits : Pipeline Exit :=
  if setup.replayMode ∧ i.resources.outputMint = "SIMFAIL6005" ∧ i.metaIs "dex" "pumpfun" then
    (emitSimFailedDecision setup i (some "Simulation failed: Custom(6005)")).bind fun _ =>
    releaseLocks i.intentId (.ret .err)
  else if setup.replayMode ∧ startsWith "SIMFAIL" i.resources.outputMint then
    releaseLocks i.intentId <| emitSimFailedDecision setup i (some "Custom program error: 0x1")
  else if setup.replayMode ∧ startsWith "SIMSUCC" i.resources.outputMint then
    releaseLocks i.intentId <|
    recordDecision setup ⟨i.intentId, .rejected, some (.text "send_disabled")⟩ (.ret .ok)
  else k

end Locks

/-! ## 4. Planning and simulation -/

/-- The attempts that the retry loop makes at most once. -/
structure RetryFlags where
  pumpAmmPrePlanDiscovery : Bool
  pumpAmmRecovery : Bool
  pumpfunBondingRecovery : Bool
  orcaRecovery : Bool

section Planning

variable (setup : EngineSetup) (config : ExecutionConfig)

/-- Planning a cross-DEX arbitrage. -/
def planCrossDex (i : TradeIntent) (planned : Pipeline Exit) : Pipeline Exit :=
  if !setup.crossDexHandler then releaseAndReject setup i .arbHandlerNotConfigured
  else .act (.planCrossDex i) fun refusal =>
    match refusal with
    | some reason => releaseAndReject setup i reason.1
    | none => planned

/-- `build_tx_plan`; an unsupported cold-path sell goes on with its next fallback route. -/
def buildTxPlan (i : TradeIntent) (again : TradeIntent → Pipeline Exit) (planned : Pipeline Exit) :
    Pipeline Exit :=
  .act (.buildTxPlan i) fun refusal =>
  match refusal with
  | none => planned
  | some reason =>
      if i.isColdPathRecoverySell then
        match i.takeNextMultiPoolBuildableFallbackRoute with
        | some i' => again i'
        | none => releaseAndReject setup i reason.1
      else releaseAndReject setup i reason.1

/-- Planning a single swap, with the discovery before the first plan of a cold PumpSwap sell. -/
def planSwap (flags : RetryFlags) (i : TradeIntent)
    (again : RetryFlags → TradeIntent → Pipeline Exit) (planned : Pipeline Exit) : Pipeline Exit :=
  if !setup.replayMode && !flags.pumpAmmPrePlanDiscovery && i.isColdPathRecoverySell &&
      i.metaIs "dex" "pump_amm" && i.resources.accounts.isEmpty &&
      decide (i.resources.pools.length = 1) then
    .act (.prePlanDiscovery i) fun ready =>
    if ready then again { flags with pumpAmmPrePlanDiscovery := true } i
    else buildTxPlan setup i (again flags) planned
  else buildTxPlan setup i (again flags) planned

/-- Bundles need the Jito client and a tip. -/
def bundleGates (i : TradeIntent) (k : Pipeline Exit) : Pipeline Exit :=
  if i.requiresBundle && config.sendEnabled then
    if !setup.jitoClient then releaseAndReject setup i .bundleNotConfigured
    else .act (.buildTipInstruction i) fun refusal =>
      match refusal with
      | some reason => releaseAndReject setup i reason.1
      | none => k
  else k

/-- A regular PumpSwap sell is not simulated before its quote is ready. -/
def quoteGate (i : TradeIntent) (k : Pipeline Exit) : Pipeline Exit :=
  if !setup.replayMode && i.isRegularMomentumHotPathSell && i.metaIs "dex" "pump_amm" then
    .act (.pumpAmmQuoteNotReady i) fun notReady =>
    if notReady then releaseAndReject setup i .quoteUnavailable else k
  else k

end Planning

section Recoveries

variable (config : ExecutionConfig) (flags : RetryFlags) (i : TradeIntent) (sim : SimOutcome)
  (again : RetryFlags → Pipeline Exit) (done next : Pipeline Exit)

/-- One recovery: rebuild with its flag set, leave the loop, or go on. -/
def attemptRecovery (kind : RecoveryKind) (flags' : RetryFlags) : Pipeline Exit :=
  .act (.recover kind i) fun outcome =>
  match outcome with
  | .rebuild => again flags'
  | .giveUp => done
  | .fallThrough => next

/-- PumpSwap: refresh the pool accounts; the only recovery that renews the capital lock. -/
def pumpAmmRecovery : Pipeline Exit :=
  if !flags.pumpAmmRecovery && i.isColdPathRecoverySell && i.metaIs "dex" "pump_amm" &&
      coldPathDexSimFailureTriggersDiscoveryRecovery i sim.errorCode
        isPumpAmmStructuralSimError then
    .act (.pumpAmmPoolHint i) fun hint =>
    match hint with
    | .unparsableMint => done
    | .missing => next
    | .found =>
        .act (.renewCapitalLockTtl i.intentId (computePreSendCapitalLockTtl config)) fun _ =>
        attemptRecovery i again done next .pumpAmm { flags with pumpAmmRecovery := true }
  else next

/-- PumpFun bonding curve. -/
def pumpfunBondingRecovery : Pipeline Exit :=
  if !flags.pumpfunBondingRecovery && i.isColdPathRecoverySell && i.metaIs "dex" "pumpfun" &&
      decide (i.resources.pools.length = 1) &&
      coldPathDexSimFailureTriggersDiscoveryRecovery i sim.errorCode
        isPumpfunBondingCurveStructuralSimError then
    attemptRecovery i again done next .pumpfunBonding { flags with pumpfunBondingRecovery := true }
  else next

/-- Orca leg of a cross-DEX arbitrage (`cross_dex_orca_recovery_eligible`). -/
def crossDexOrcaRecovery (isCrossDexArb : Bool) : Pipeline Exit :=
  if !flags.orcaRecovery && isCrossDexArb && i.metaIs "sell_dex" "orca" &&
      isOrcaStructuralSimError sim.errorCode then
    attemptRecovery i again done next .crossDexOrca { flags with orcaRecovery := true }
  else next

/-- Orca Whirlpool. -/
def orcaRecovery : Pipeline Exit :=
  if !flags.orcaRecovery && i.isColdPathRecoverySell && i.metaIs "dex" "orca" &&
      decide (i.resources.pools.length = 1) &&
      coldPathDexSimFailureTriggersDiscoveryRecovery i sim.errorCode isOrcaStructuralSimError then
    attemptRecovery i again done next .orca { flags with orcaRecovery := true }
  else next

end Recoveries

section Loop

variable (setup : EngineSetup) (config : ExecutionConfig) (isCrossDexArb : Bool)
  (done : TradeIntent → SimOutcome → Pipeline Exit)

/-- After the plan: bundle and quote gates, simulation, recoveries. -/
def simulatePlan (flags : RetryFlags) (i : TradeIntent)
    (again : RetryFlags → TradeIntent → Pipeline Exit) : Pipeline Exit :=
  bundleGates setup config i <|
  quoteGate setup i <|
  .act (.simulate i) fun sim =>
  if sim.success then done i sim
  else
    pumpAmmRecovery config flags i sim (fun f => again f i) (done i sim) <|
    pumpfunBondingRecovery flags i sim (fun f => again f i) (done i sim) <|
    crossDexOrcaRecovery flags i sim (fun f => again f i) (done i sim)
      (orcaRecovery flags i sim (fun f => again f i) (done i sim) (done i sim)) isCrossDexArb

/-- One round of the retry loop. -/
def planRound (flags : RetryFlags) (i : TradeIntent)
    (again : RetryFlags → TradeIntent → Pipeline Exit) : Pipeline Exit :=
  if !setup.walletLoaded then releaseAndReject setup i .internalError
  else if isCrossDexArb then
    planCrossDex setup i (simulatePlan setup config isCrossDexArb done flags i again)
  else planSwap setup flags i again (simulatePlan setup config isCrossDexArb done flags i again)

/-- `'tx_plan_retry: loop`, with a bound on the number of rounds. Every further round uses up a
    flag or a route, so with `roundBound` rounds the bound is never reached. -/
def txPlanRetry : Nat → RetryFlags → TradeIntent → Pipeline Exit
  | 0, _, _ => .ret .err
  | n + 1, flags, i => planRound setup config isCrossDexArb done flags i (txPlanRetry n)

end Loop

/-- The attempts that are still allowed. -/
def RetryFlags.unused (flags : RetryFlags) : Nat :=
  (!flags.pumpAmmPrePlanDiscovery).toNat + (!flags.pumpAmmRecovery).toNat +
    (!flags.pumpfunBondingRecovery).toNat + (!flags.orcaRecovery).toNat

def noAttempts : RetryFlags := ⟨false, false, false, false⟩

/-- One round, four attempts and the routes. -/
def roundBound (i : TradeIntent) : Nat := 5 + i.fallbackRoutes.length

/-! ## 5. Sending and confirming -/

inductive SendState where
  | disabled
  | sent
  | failed
  deriving DecidableEq

section Sending

variable (setup : EngineSetup) (config : ExecutionConfig) (i : TradeIntent)

/-- The simulated result of a cross-DEX bundle must be worth landing. -/
def postSimGate (sim : SimOutcome) (k : Pipeline Exit) : Pipeline Exit :=
  if i.isCrossDexArbBundle && config.sendEnabled then
    match sim.walletSolDeltaLamports with
    | some simDelta =>
        if simDelta < crossDexPostSimMinProfitLamports i config then
          releaseLocks i.intentId <|
          publishArbTerminalExecutionResultOnReject setup i <|
          emitRejectedDecision setup i .feeUnprofitable
        else k
    | none => k
  else k

/-- The send section. The source's check for a missing tip is behind `bundleGates` here: a
    bundle that is sent has passed it. -/
def send (k : SendState → Pipeline Exit) : Pipeline Exit :=
  if !config.sendEnabled then k .disabled
  else if i.requiresBundle then
    if !setup.treasury then releaseAndReject setup i .internalError
    else .act (.buildBundleTx i) fun refusal =>
      match refusal with
      | some reason => releaseAndReject setup i reason.1
      | none => .act (.submit i true) fun ok => k (if ok then .sent else .failed)
  else .act (.submit i false) fun ok => k (if ok then .sent else .failed)

/-- Mark as processed, unless the submission failed. -/
def markAfterSend (state : SendState) (k : Pipeline Exit) : Pipeline Exit :=
  if state = .failed then k else .act (.markProcessed i.intentId) fun _ => k

/-- `promote_capital_lock_to_in_flight` after a successful send. -/
def promoteAfterSend (state : SendState) (k : Pipeline Exit) : Pipeline Exit :=
  if state = .sent then
    .act (.promoteCapital i.intentId) fun promoted =>
    if promoted then .act (.releaseResources i.intentId) fun _ => k else k
  else k

/-- `publish_pre_confirm_execution_result`; its errors are only logged. -/
def publishPreConfirm (state : SendState) (k : Pipeline Exit) : Pipeline Exit :=
  if state = .sent then
    .act (.writeExecution (plainExecution i .sent)) fun written =>
    if written && setup.nats then .act (.publishExecution (plainExecution i .sent)) fun _ => k
    else k
  else k

/-- The final outcome for what the confirmation reports. -/
def outcomeOf (bundle : Bool) : ConfirmReport → DecisionOutcome
  | .confirmed _ => .confirmed
  | .failedConfirmed _ => .failedConfirmed
  | .timeoutSent => if bundle then .rejected else .sent
  | .error => if bundle then .failedConfirmed else .sent

/-- `tx_landing_slot`. -/
def landingSlot : ConfirmReport → Option UInt64
  | .confirmed slot => slot
  | .failedConfirmed slot => slot
  | _ => none

/-- The decision record after the send section. -/
def finalDecision (state : SendState) (outcome : DecisionOutcome) : DecisionRecord where
  intentId := i.intentId
  outcome
  primaryRejectReason := match state with
    | .sent => if outcome = .rejected then some (.reason .bundleTimeout) else none
    | .failed => some (.reason .sendFailed)
    | .disabled => some (.text "send_disabled")

/-- The status of the execution result. -/
def statusOf : DecisionOutcome → ExecutionStatus
  | .confirmed => .confirmed
  | .failedConfirmed => .failed
  | .sent => .sent
  | .rejected => .failed
  | .simFailed => .failed
  | .expired => .timeout

/-- The execution result with the fills of the confirmed transaction. -/
def finalExecution (outcome : DecisionOutcome) (fills : Option ComputedIntentFills) :
    ExecutionResult :=
  { plainExecution i (statusOf outcome) with
    fillIn := fills.bind fun f => f.fillIn
    fillOut := fills.bind fun f => f.fillOut
    walletSolDeltaLamports := fills.bind fun f => f.walletSolDelta }

/-- What the accounting is told of the confirmed transaction. -/
def confirmedFill (fills : Option ComputedIntentFills) (slot : Option UInt64) : ConfirmedFill where
  buyFillOutRaw := if i.side = .buy then fills.bind fun f => f.fillOut else none
  sellFillInRaw := if i.side = .sell then fills.bind fun f => f.fillIn else none
  sellWalletBalanceAbsentAfterTx :=
    decide (i.side = .sell) && (fills.map fun f => f.walletTokenBalanceAbsentAfterTx).getD false
  txLandingSlot := slot

/-- `should_publish_open_position_pool_pin_after_confirmed_buy`. -/
def shouldPublishPoolPin : Bool :=
  decide (i.side = .buy) && decide (i.source = "momentum-bot") &&
    !decide (i.resources.outputMint = "") && !isSolOrWsolMint i.resources.outputMint &&
    match i.resources.pools with
    | [] => false
    | pool :: _ => !decide (pool = "")

/-- After the execution result is out: the position authority and, for a BUY, the pool pin. -/
def applyConfirmed (outcome : DecisionOutcome) (exec : ExecutionResult) (k : Pipeline Exit) :
    Pipeline Exit :=
  if outcome = .confirmed then
    .act (.applyPositionAuthority exec) fun _ =>
    if shouldPublishPoolPin i && setup.nats then .act (.publishPoolPin i) fun _ => k else k
  else k

/-- The execution result (when something was sent or its sending failed), then the accounting
    and the final release. -/
def settle (outcome : DecisionOutcome) (fills : Option ComputedIntentFills)
    (slot : Option UInt64) : Pipeline Exit :=
  recordExecution setup (finalExecution i outcome fills) <|
  applyConfirmed setup i outcome (finalExecution i outcome fills) <|
  fillAccounting i outcome (confirmedFill i fills slot) <|
  terminalRelease i outcome (.ret .ok)

/-- Decision record, execution result, accounting, release. -/
def report (state : SendState) (outcome : DecisionOutcome) (slot : Option UInt64) :
    Pipeline Exit :=
  recordDecision setup (finalDecision i state outcome) <|
  if state = .disabled then terminalRelease i outcome (.ret .ok)
  else if outcome = .confirmed then
    .act (.computeIntentFills i) fun fills => settle setup i outcome fills slot
  else settle setup i outcome none slot

/-- Wait for the confirmation of what was sent. -/
def confirmAndReport (state : SendState) : Pipeline Exit :=
  if state = .sent then
    .act (.confirm i i.requiresBundle) fun confirmation =>
    report setup i state (outcomeOf i.requiresBundle confirmation) (landingSlot confirmation)
  else report setup i state .rejected none

/-- Everything after the retry loop. -/
def afterSimulation (sim : SimOutcome) : Pipeline Exit :=
  if !sim.success then releaseLocks i.intentId <| emitSimFailedDecision setup i sim.errorCode
  else
    postSimGate setup config i sim <|
    send setup config i fun state =>
    markAfterSend i state <|
    promoteAfterSend i state <|
    publishPreConfirm setup i state <|
    confirmAndReport setup i state

end Sending

end ProcessIntent

open ProcessIntent in
/-- **`process_intent`.** -/
def processIntent (setup : EngineSetup) (config : ExecutionConfig) (i : TradeIntent) :
    Pipeline Exit :=
  gates setup config i <|
  lockResources setup config i
    (lockCapital setup config i <|
     replayExits setup i <|
     txPlanRetry setup config i.isCrossDexArb (afterSimulation setup config) (roundBound i)
       noAttempts i)
    i.resources.pools

end IronCrab

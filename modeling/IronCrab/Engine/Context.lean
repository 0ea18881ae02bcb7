/-
  File:      IronCrab/Engine/Context.lean
  Subject:   WHAT A TASK OF THE ENGINE CAN DO (src/bin/execution_engine.rs, `ExecutionContext`):
             the actions of `process_intent`, their answers, and what they do to the context.
             Definitions only.

  An action is one access to the shared context, one answer of the outside world, or one write
  of a record. Between two actions of a task every other task may act.

  * Calls of the lock manager that take a lock are one action, with the expiry cleanup they start
    with; releases, the promotion and the balance updates after a confirmation are one action
    for each critical section.
  * Planning, discovery, simulation, submission, confirmation and the fills of a confirmed
    transaction are answers of the `World`, and so are the clocks and whether a writer or a
    publisher succeeds. An action reads the fields of the world it needs.
-/
import IronCrab.Engine.Intent
import IronCrab.PositionAuthority
import IronCrab.Lib.Effect

namespace IronCrab

/-! ## 1. Records -/

inductive DecisionOutcome where
  | rejected
  | expired
  | simFailed
  | sent
  | confirmed
  | failedConfirmed
  deriving DecidableEq

/-- `primary_reject_reason`: the text of a reject reason, an error code, or a fixed text. -/
inductive PrimaryRejectReason where
  | reason (r : RejectReason)
  | errorCode (e : Option String)
  | text (s : String)
  deriving DecidableEq

structure DecisionRecord where
  intentId : IntentId
  outcome : DecisionOutcome
  primaryRejectReason : Option PrimaryRejectReason
  deriving DecidableEq

/-! ## 2. Answers of the outside world -/

structure SimOutcome where
  success : Bool
  errorCode : Option String
  walletSolDeltaLamports : Option Int
  deriving DecidableEq

/-- Where the PumpSwap recovery finds the pool to refresh. -/
inductive PoolHint where
  | unparsableMint
  | missing
  | found
  deriving DecidableEq

/-- How a recovery after a failed simulation ends: rebuild the transaction, leave the loop, or
    go on to the next recovery. -/
inductive Recovery where
  | rebuild
  | giveUp
  | fallThrough
  deriving DecidableEq

/-- The recoveries after a failed simulation. -/
inductive RecoveryKind where
  | pumpAmm
  | pumpfunBonding
  | crossDexOrca
  | orca
  deriving DecidableEq

/-- What waiting for the confirmation reports (`Result<ConfirmOutcome, String>`). -/
inductive ConfirmReport where
  | confirmed (slot : Option UInt64)
  | failedConfirmed (slot : Option UInt64)
  | timeoutSent
  | error
  deriving DecidableEq

/-- `ComputedIntentFills`, as far as it is used. -/
structure ComputedIntentFills where
  fillIn : Option UInt64
  fillOut : Option UInt64
  walletSolDelta : Option Int
  walletTokenBalanceAbsentAfterTx : Bool
  deriving DecidableEq

/-- The reasons of the fee policy, the planners and the bundle builder. -/
def planningReasons : List RejectReason :=
  [.feeComputeExceedsLimit, .feePriorityExceedsLimit, .feeExceedsMaxCost, .feeUnprofitable,
    .arbValidationError, .arbSpreadInsufficient, .unsupportedIntent, .bundleFailed,
    .internalError]

abbrev Refusal := {reason : RejectReason // reason ∈ planningReasons}

/-- The clocks and what the outside world would answer at one moment. -/
structure World where
  unixMs : Nat := 0
  /-- The UTC calendar day. -/
  day : Nat := 0
  /-- The monotonic clock, at the cleanup of a lock attempt and at its later readings. -/
  now : Instant := 0
  nowStarved : Instant := 0
  nowRecord : Instant := 0
  createdAt : Instant := 0
  /-- The verdict of fee gates, planners and the bundle builder: why they refuse. -/
  refusal : Option Refusal := none
  /-- Whether a write, a publish, a submission or a discovery succeeds. -/
  ok : Bool := true
  poolHint : PoolHint := .found
  recovery : Recovery := .fallThrough
  sim : SimOutcome := ⟨true, none, none⟩
  report : ConfirmReport := .confirmed none
  fills : Option ComputedIntentFills := none

/-! ## 3. The context -/

structure ExecutionContext where
  lockManager : LockManager
  positionAuthority : PositionAuthority
  dailyLossLamports : Int
  currentDay : Nat
  killSwitchActive : Bool

namespace ExecutionContext

/-- `maybe_reset_daily`. -/
def maybeResetDaily (c : ExecutionContext) (today : Nat) : ExecutionContext :=
  if c.currentDay ≠ today then { c with currentDay := today, dailyLossLamports := 0 } else c

/-- `record_pnl_lamports` (positive = loss); `fetch_add` on an `i64` wraps. -/
def recordPnlLamports (c : ExecutionContext) (pnl : Int) : ExecutionContext :=
  { c with dailyLossLamports := (c.dailyLossLamports + pnl + 2 ^ 63) % 2 ^ 64 - 2 ^ 63 }

end ExecutionContext

/-! ## 4. Actions -/

inductive Act where
  -- the lock manager
  | isDuplicate (intentId : IntentId)
  | availableTokenBalance (mint : Mint)
  | countNonZeroTokenBalances
  | tryLockResource (holder : LockHolder) (pool : ResourceId) (ttl : Duration)
  | tryLockCapital (holder : LockHolder) (solLamports : UInt64) (tokens : TokenMap)
      (ttl : Duration)
  | renewCapitalLockTtl (intentId : IntentId) (ttl : Duration)
  | markProcessed (intentId : IntentId)
  | promoteCapital (intentId : IntentId)
  | releaseCapital (intentId : IntentId) (restoreTokens : Bool)
  | releaseResources (intentId : IntentId)
  | lockedTokensForIntent (intentId : IntentId) (mint : Mint)
  | tokenPositionTotalAtLock (intentId : IntentId) (mint : Mint)
  | insertAvailableToken (mint : Mint) (newTotal : UInt64)
  | removeTokenWalletAtaPresent (mint : Mint)
  | removeAvailableToken (mint : Mint)
  | insertClearedAtSlot (mint : Mint) (slot : Option UInt64)
  -- the engine's own state
  | wallClockUnixMs
  | maybeResetDaily
  | isKillSwitchActive
  | getDailyLossLamports
  | recordPnlLamports (pnl : Int)
  -- the position authority
  | openPositionsCount
  | tradableBalanceRaw (mint : Mint)
  | applyPositionAuthority (exec : ExecutionResult)
  -- the outside world
  | feeGates (i : TradeIntent)
  | planCrossDex (i : TradeIntent)
  | prePlanDiscovery (i : TradeIntent)
  | buildTxPlan (i : TradeIntent)
  | buildTipInstruction (i : TradeIntent)
  | pumpAmmQuoteNotReady (i : TradeIntent)
  | simulate (i : TradeIntent)
  | pumpAmmPoolHint (i : TradeIntent)
  | recover (kind : RecoveryKind) (i : TradeIntent)
  | buildBundleTx (i : TradeIntent)
  | submit (i : TradeIntent) (bundle : Bool)
  | confirm (i : TradeIntent) (bundle : Bool)
  | computeIntentFills (i : TradeIntent)
  -- records
  | writeDecision (decision : DecisionRecord)
  | publishDecision (decision : DecisionRecord)
  | writeExecution (exec : ExecutionResult)
  | publishExecution (exec : ExecutionResult)
  | publishPoolPin (i : TradeIntent)

/-- The type of the answer to an action. -/
@[reducible] def Answer : Act → Type
  | .isDuplicate _ => Bool
  | .availableTokenBalance _ => UInt64
  | .countNonZeroTokenBalances => Nat
  | .tryLockResource .. => LockResult
  | .tryLockCapital .. => LockResult
  | .renewCapitalLockTtl .. => Bool
  | .promoteCapital _ => Bool
  | .lockedTokensForIntent .. => UInt64
  | .tokenPositionTotalAtLock .. => Option UInt64
  | .wallClockUnixMs => Nat
  | .isKillSwitchActive => Bool
  | .getDailyLossLamports => Int
  | .openPositionsCount => Nat
  | .tradableBalanceRaw _ => Option UInt64
  | .feeGates _ => Option Refusal
  | .planCrossDex _ => Option Refusal
  | .prePlanDiscovery _ => Bool
  | .buildTxPlan _ => Option Refusal
  | .buildTipInstruction _ => Option Refusal
  | .pumpAmmQuoteNotReady _ => Bool
  | .simulate _ => SimOutcome
  | .pumpAmmPoolHint _ => PoolHint
  | .recover .. => Recovery
  | .buildBundleTx _ => Option Refusal
  | .submit .. => Bool
  | .confirm .. => ConfirmReport
  | .computeIntentFills _ => Option ComputedIntentFills
  | .writeDecision _ => Bool
  | .publishDecision _ => Bool
  | .writeExecution _ => Bool
  | .publishExecution _ => Bool
  | .publishPoolPin _ => Bool
  | .markProcessed _ => Unit
  | .releaseCapital .. => Unit
  | .releaseResources _ => Unit
  | .insertAvailableToken .. => Unit
  | .removeTokenWalletAtaPresent _ => Unit
  | .removeAvailableToken _ => Unit
  | .insertClearedAtSlot .. => Unit
  | .maybeResetDaily => Unit
  | .recordPnlLamports _ => Unit
  | .applyPositionAuthority _ => Unit

namespace ExecutionContext

/-- What an action that changes the lock manager makes of it. -/
def locksAfter (m : LockManager) (w : World) : Act → LockManager
  | .tryLockResource holder pool ttl =>
      (m.tryLockResourceWithTtl holder pool .pool (some ttl) w.now w.nowStarved w.nowRecord
        w.createdAt).2
  | .tryLockCapital holder sol tokens ttl =>
      (m.tryLockCapitalWithTtl holder sol tokens (some ttl) w.now w.createdAt).2
  | .renewCapitalLockTtl id ttl => (m.renewCapitalLockTtl id ttl w.createdAt).2
  | .markProcessed id => m.markProcessed id
  | .promoteCapital id => (m.promoteCapital id).2
  | .releaseCapital id restoreTokens => m.releaseCapitalLockRestoreTokens id restoreTokens
  | .releaseResources id => m.releaseResourceLocksForIntent id
  | .insertAvailableToken mint newTotal => m.insertAvailableToken mint newTotal
  | .removeTokenWalletAtaPresent mint => m.removeTokenWalletAtaPresent mint
  | .removeAvailableToken mint => m.removeAvailableToken mint
  | .insertClearedAtSlot mint slot => m.insertClearedAtSlot mint slot
  | _ => m

/-- The context after an action. -/
def after (c : ExecutionContext) (w : World) : Act → ExecutionContext
  | .maybeResetDaily => c.maybeResetDaily w.day
  | .recordPnlLamports pnl => c.recordPnlLamports pnl
  | .applyPositionAuthority exec =>
      { c with
        positionAuthority :=
          c.positionAuthority.applyFromConfirmedExecutionResult exec (w.unixMs / 1000) }
  | a => { c with lockManager := locksAfter c.lockManager w a }

/-- The answer to an action. -/
def answer (c : ExecutionContext) (w : World) : (a : Act) → Answer a
  | .isDuplicate id => c.lockManager.isDuplicate id
  | .availableTokenBalance mint => c.lockManager.availableTokenBalance mint
  | .countNonZeroTokenBalances => c.lockManager.countNonZeroTokenBalances
  | .tryLockResource holder pool ttl =>
      (c.lockManager.tryLockResourceWithTtl holder pool .pool (some ttl) w.now w.nowStarved
        w.nowRecord w.createdAt).1
  | .tryLockCapital holder sol tokens ttl =>
      (c.lockManager.tryLockCapitalWithTtl holder sol tokens (some ttl) w.now w.createdAt).1
  | .renewCapitalLockTtl id ttl => (c.lockManager.renewCapitalLockTtl id ttl w.createdAt).1
  | .promoteCapital id => (c.lockManager.promoteCapital id).1
  | .lockedTokensForIntent id mint => c.lockManager.lockedTokensForIntent id mint
  | .tokenPositionTotalAtLock id mint => c.lockManager.intentTokenPositionTotalAtLock id mint
  | .wallClockUnixMs => w.unixMs
  | .isKillSwitchActive => c.killSwitchActive
  | .getDailyLossLamports => c.dailyLossLamports
  | .openPositionsCount => c.positionAuthority.openPositionsCount
  | .tradableBalanceRaw mint => c.positionAuthority.tradableBalanceRaw mint
  | .feeGates _ => w.refusal
  | .planCrossDex _ => w.refusal
  | .prePlanDiscovery _ => w.ok
  | .buildTxPlan _ => w.refusal
  | .buildTipInstruction _ => w.refusal
  | .pumpAmmQuoteNotReady _ => !w.ok
  | .simulate _ => w.sim
  | .pumpAmmPoolHint _ => w.poolHint
  | .recover .. => w.recovery
  | .buildBundleTx _ => w.refusal
  | .submit .. => w.ok
  | .confirm .. => w.report
  | .computeIntentFills _ => w.fills
  | .writeDecision _ => w.ok
  | .publishDecision _ => w.ok
  | .writeExecution _ => w.ok
  | .publishExecution _ => w.ok
  | .publishPoolPin _ => w.ok
  | .markProcessed _ => ()
  | .releaseCapital .. => ()
  | .releaseResources _ => ()
  | .insertAvailableToken .. => ()
  | .removeTokenWalletAtaPresent _ => ()
  | .removeAvailableToken _ => ()
  | .insertClearedAtSlot .. => ()
  | .maybeResetDaily => ()
  | .recordPnlLamports _ => ()
  | .applyPositionAuthority _ => ()

/-- One action: the context after it, and its answer. -/
def perform (c : ExecutionContext) (w : World) (a : Act) : ExecutionContext × Answer a :=
  (c.after w a, c.answer w a)

end ExecutionContext

/-- A piece of the pipeline that ends with `α`. -/
abbrev Pipeline (α : Type) := Effect.Prog Act Answer α

end IronCrab

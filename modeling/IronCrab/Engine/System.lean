/-
  File:      IronCrab/Engine/System.lean
  Subject:   THE ENGINE AS A SYSTEM OF TASKS: every intent that the dispatcher takes from its
             channel is a task that runs `process_intent`, and all tasks share one context.

  * `engine_invariant` -- the invariant rule for the engine: only what the protocol allows has to
    be looked at;
  * section 2 says, once for all actions, what an action does to each part of the context.
-/
import IronCrab.Engine.Conformance
import IronCrab.Storage.LockFrame

namespace IronCrab

open Effect (Setting Sys Event Label)
open Machine (Along foldSteps)

/-! ## 1. The system -/

/-- What the tasks have done. -/
abbrev Log := List (Event Act Answer World)

/-- The engine's context, its tasks and the log. -/
abbrev Engine := Sys TradeIntent Act Answer Exit Stage ExecutionContext World

/-- The engine in an environment that changes the context by itself. -/
def engine (setup : EngineSetup) (config : ExecutionConfig) {E : Type}
    (env : ExecutionContext → E → ExecutionContext) :
    Setting TradeIntent Act Answer Exit Stage ExecutionContext World E where
  start := processIntent setup config
  protocol := intentProtocol config
  init _ := .start
  perform := ExecutionContext.perform
  env

/-- An engine that has not taken any intent yet. -/
def Engine.idle (c : ExecutionContext) : Engine := ⟨c, [], []⟩

/-- What a task is about to do: its intent, its stage, the action. -/
def Engine.standing (s : Engine) (t : Nat) : Option (TradeIntent × Stage × Act) :=
  match s.tasks[t]? with
  | some ⟨i, .act a _, g⟩ => some (i, g, a)
  | _ => none

theorem Engine.standing_eq {s : Engine} {t : Nat} {i : TradeIntent} {g : Stage} {a : Act}
    {k : Answer a → Pipeline Exit} (h : s.tasks[t]? = some ⟨i, .act a k, g⟩) :
    s.standing t = some (i, g, a) := by
  unfold standing
  rw [h]

theorem Engine.standing_none {s : Engine} {t : Nat}
    (h : ∀ i g a k, s.tasks[t]? ≠ some ⟨i, .act a k, g⟩) : s.standing t = none := by
  unfold standing
  split
  · next i a k g ht => exact absurd ht (h i g a k)
  · rfl

/-- What the rest of the process may change: the ledgers (wallet events, other bookkeeping) and
    the kill switch. -/
structure Outside where
  lockManager : LockManager
  positionAuthority : PositionAuthority
  killSwitchActive : Bool

/-- The context after it. -/
def ExecutionContext.outside (c : ExecutionContext) (o : Outside) : ExecutionContext :=
  { c with
    lockManager := o.lockManager
    positionAuthority := o.positionAuthority
    killSwitchActive := o.killSwitchActive }

section System

variable {setup : EngineSetup} {config : ExecutionConfig} {E : Type}
  {env : ExecutionContext → E → ExecutionContext}

theorem engine_follows (i : TradeIntent) :
    Effect.Follows ((engine setup config env).protocol i) (fun g _ => g.Ended)
      ((engine setup config env).init i) ((engine setup config env).start i) :=
  processIntent_follows setup config i

section Invariant

variable {good : Engine → Label TradeIntent World E → Prop} {I : Engine → Prop}
  (hspawn : ∀ s i, I s → good s (.spawn i) → I ((engine setup config env).step s (.spawn i)))
  (henv : ∀ s e, I s → good s (.env e) → I ((engine setup config env).step s (.env e)))
  (hact : ∀ s t w i g a k, s.tasks[t]? = some ⟨i, .act a k, g⟩ → Allows i g a → I s →
    good s (.run t w) → I ((engine setup config env).acted s t w i g a k))
  {c : ExecutionContext} (h : I (Engine.idle c)) {l : List (Label TradeIntent World E)}
  (hgood : Along (engine setup config env).step good (Engine.idle c) l)

theorem conforms_idle :
    (engine setup config env).Conforms (fun _ g _ => g.Ended) (Engine.idle c) :=
  fun _ hmem => by cases hmem

include hspawn henv hact h hgood

/-- **The invariant rule for the engine.** -/
theorem engine_invariant : I (foldSteps (engine setup config env).step (Engine.idle c) l) :=
  Setting.invariant engine_follows hspawn henv hact conforms_idle h hgood

/-- The invariant at every step, with what the protocol allows at it. -/
theorem engine_along : Along (engine setup config env).step
    (fun s x => (engine setup config env).Conforms (fun _ g _ => g.Ended) s ∧ I s ∧ good s x)
    (Engine.idle c) l :=
  Setting.invariant_along engine_follows hspawn henv hact conforms_idle h hgood

end Invariant

end System

/-! ## 2. What an action changes -/

namespace ExecutionContext

variable (c : ExecutionContext) (w : World)

/-- The lock manager after any action. -/
theorem lockManager_after (a : Act) :
    (c.after w a).lockManager = locksAfter c.lockManager w a := by
  cases a with
  | maybeResetDaily =>
      show (c.maybeResetDaily w.day).lockManager = _
      unfold maybeResetDaily
      split <;> rfl
  | _ => rfl

/-- The position authority changes with confirmed executions only. -/
theorem positionAuthority_after {a : Act} (h : ∀ exec, a ≠ .applyPositionAuthority exec) :
    (c.after w a).positionAuthority = c.positionAuthority := by
  cases a with
  | applyPositionAuthority exec => exact absurd rfl (h exec)
  | maybeResetDaily =>
      show (c.maybeResetDaily w.day).positionAuthority = _
      unfold maybeResetDaily
      split <;> rfl
  | _ => rfl

/-- The daily loss counter is reset, or moved by `record_pnl_lamports`. -/
theorem dailyLossLamports_after {a : Act} (h : ∀ pnl, a ≠ .recordPnlLamports pnl) :
    (c.after w a).dailyLossLamports = c.dailyLossLamports ∨
      (c.after w a).dailyLossLamports = 0 := by
  cases a with
  | recordPnlLamports pnl => exact absurd rfl (h pnl)
  | maybeResetDaily =>
      show (c.maybeResetDaily w.day).dailyLossLamports = _ ∨
        (c.maybeResetDaily w.day).dailyLossLamports = 0
      unfold maybeResetDaily
      split
      · exact .inr rfl
      · exact .inl rfl
  | _ => exact .inl rfl

end ExecutionContext

/-- The attempts to lock, which clean up expired locks first. -/
def Act.isLockAttempt : Act → Bool
  | .tryLockResource .. => true
  | .tryLockCapital .. => true
  | _ => false

/-- The actions on the capital lock of an intent. -/
def Act.touches (id : IntentId) : Act → Bool
  | .tryLockCapital holder .. => decide (holder.intentId = id)
  | .renewCapitalLockTtl id' _ => decide (id' = id)
  | .promoteCapital id' => decide (id' = id)
  | .releaseCapital id' _ => decide (id' = id)
  | _ => false

/-- The actions on pool locks. -/
def Act.touchesPools : Act → Bool
  | .tryLockResource .. => true
  | .tryLockCapital .. => true
  | .releaseResources _ => true
  | _ => false

open ExecutionContext (locksAfter)

/-- **An action that is not on the intent's capital lock leaves it alone**, unless the cleanup
    before a lock attempt finds it expired. -/
theorem lookup_locksAfter (m : LockManager) (w : World) {a : Act} {id : IntentId}
    (h : a.touches id = false) :
    (locksAfter m w a).capitalLocks.lookup id =
      if a.isLockAttempt then (m.capitalLocks.lookup id).filter fun l => !l.expired w.now
      else m.capitalLocks.lookup id := by
  have hne : ∀ {id' : IntentId}, decide (id' = id) = false → id' ≠ id := of_decide_eq_false
  cases a with
  | tryLockResource holder pool ttl =>
      show ((m.cleanupExpired w.now).acquireResource ..).2.capitalLocks.lookup id = _
      rw [LockManager.capitalLocks_acquireResource]
      exact m.lookup_capitalLocks_cleanupExpired w.now id
  | tryLockCapital holder sol tokens ttl =>
      show ((m.cleanupExpired w.now).acquireCapital ..).2.capitalLocks.lookup id = _
      rw [LockManager.lookup_acquireCapital_ne _ _ _ _ _ _ _ (hne h)]
      exact m.lookup_capitalLocks_cleanupExpired w.now id
  | renewCapitalLockTtl id' ttl => exact m.lookup_renew_ne (hne h) ttl w.createdAt
  | promoteCapital id' => exact m.lookup_promote_ne (hne h)
  | releaseCapital id' rt => exact LockOp.lookup_release_ne m (hne h).symm rt
  | _ => rfl

/-- An action that is not on pool locks leaves them alone. -/
theorem resourceLocks_locksAfter (m : LockManager) (w : World) {a : Act}
    (h : a.touchesPools = false) : (locksAfter m w a).resourceLocks = m.resourceLocks := by
  cases a with
  | tryLockResource holder pool ttl => cases h
  | tryLockCapital holder sol tokens ttl => cases h
  | releaseResources id => cases h
  | renewCapitalLockTtl id ttl => exact (m.capitalOnly_renew id ttl w.createdAt).resourceLocks
  | promoteCapital id => exact (m.capitalOnly_promote id).resourceLocks
  | releaseCapital id rt => exact (m.capitalOnly_release id rt).resourceLocks
  | _ => rfl

/-- Only a mark changes the processed intents. -/
theorem processedIntents_locksAfter (m : LockManager) (w : World) {a : Act}
    (h : ∀ id, a ≠ .markProcessed id) :
    (locksAfter m w a).processedIntents = m.processedIntents := by
  cases a with
  | markProcessed id => exact absurd rfl (h id)
  | tryLockResource holder pool ttl =>
      show ((m.cleanupExpired w.now).acquireResource ..).2.processedIntents = _
      rw [LockManager.processedIntents_acquireResource]
      exact m.processedIntents_cleanupExpired w.now
  | tryLockCapital holder sol tokens ttl =>
      show ((m.cleanupExpired w.now).acquireCapital ..).2.processedIntents = _
      rw [(LockManager.capitalOnly_acquireCapital _ _ _ _ _ _ _).processedIntents]
      exact m.processedIntents_cleanupExpired w.now
  | renewCapitalLockTtl id ttl => exact (m.capitalOnly_renew id ttl w.createdAt).processedIntents
  | promoteCapital id => exact (m.capitalOnly_promote id).processedIntents
  | releaseCapital id rt => exact (m.capitalOnly_release id rt).processedIntents
  | _ => rfl

/-! ## 3. A small engine

The concrete runs of the modules below. -/

namespace Small

/-- A wallet, nothing else: no NATS, no Jito, no replay. -/
def setup : EngineSetup := ⟨false, true, false, false, false, false⟩

def config : ExecutionConfig where
  sendEnabled := true
  intentTtlMs := 60000
  maxPositionSizeLamports := 1000000
  maxSlippageBps := 500
  maxOpenPositions := 1
  dailyLossLimitLamports := 1000
  simulationTimeoutMs := 5000
  capitalLockTtlBufferMs := 5000
  minProfitForLanding := 0

/-- A BUY for 2000 lamports. -/
def buy (id : IntentId) (mint : Mint) : TradeIntent where
  tsUnixMs := 0
  intentId := id
  source := "momentum-bot"
  tier := .tier1
  ttlMs := none
  requiredCapital := 2000
  resources := ⟨nativeSolMint, mint, ["pool"], []⟩
  maxSlippageBps := 100
  side := .buy
  requireBundle := none
  hasSwapPath := false
  metadata := ∅
  fallbackRoutes := []
  minOut := none

/-- 100000 lamports, no positions. -/
def context : ExecutionContext where
  lockManager := .new 100000
  positionAuthority := .new
  dailyLossLamports := 0
  currentDay := 0
  killSwitchActive := false

/-- Everything succeeds; 2000 lamports bring 5 tokens. -/
def world : World where
  report := .confirmed (some 7)
  fills := some ⟨some 2000, some 5, some (-2000), false⟩

/-- `n` actions of task `t`. -/
def runs {E : Type} (t n : Nat) : List (Label TradeIntent World E) :=
  List.replicate n (.run t world)

end Small

end IronCrab

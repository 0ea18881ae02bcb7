/-
  File:      IronCrab/Storage/Locks.lean
  Subject:   THE LOCK MANAGER (src/storage/locks.rs), operation by operation. Definitions only.

  Reading of the source's data:

  * amounts are `UInt64`; `+=`, `-=` and `.sum()` on them wrap in a release build and panic in a
    debug build. The field `overflowed` is a GHOST: it is set when some `+=`, `-=` or `.sum()`
    leaves the range of `u64`, so "no arithmetic fails" is "the flag stays as it was";
  * `Instant` and `Duration` are numbers of the same unit, and `a.duration_since(b)`, which
    saturates at zero, is `a - b` on `Nat`. Every operation takes its clock readings as
    arguments, in the order in which the source reads the clock;
  * maps that the source iterates over are `AList`s (the list order is the hash order), maps
    that it only reads by key are `Finmap`s, sets are `Finset`s;
  * the `RwLock`s are not fields: each definition named here is what one call computes when
    nobody interferes, and each critical section has a definition of its own
    (`cleanupExpiredCapital`, `acquireCapital`, `releaseCapitalLockRestoreTokens`, …), so that
    a finer-grained model can take the sections as its steps.
-/
import IronCrab.Lib.Word
import IronCrab.Lib.Table

namespace IronCrab

abbrev IntentId := String
abbrev Mint := String
abbrev ResourceId := String
abbrev Instant := Nat
abbrev Duration := Nat

/-- A `HashMap<Mint, u64>` that is iterated over. -/
abbrev TokenMap := AList fun _ : Mint => UInt64

/-! ## 1. Locks and results -/

/-- Unique identifier for a lock holder. -/
structure LockHolder where
  intentId : IntentId
  decisionId : Option String
  /-- Priority tier (lower = higher priority). -/
  tier : UInt8
  source : Option String
  deriving DecidableEq

/-- `LockHolder::new`. -/
def LockHolder.new (intentId : IntentId) : LockHolder := ⟨intentId, none, 255, none⟩

/-- Lifecycle phase of a capital lock (I-20). -/
inductive CapitalLockPhase where
  | preSend
  | inFlight
  deriving DecidableEq

structure CapitalLock where
  holder : LockHolder
  solLamports : UInt64
  /-- `solLamports` came from the WSOL trading bucket, not from native SOL. -/
  reservesTradingWsol : Bool
  tokens : TokenMap
  tokenPositionTotalAtLock : TokenMap
  createdAt : Instant
  ttl : Duration
  phase : CapitalLockPhase
  deriving DecidableEq

inductive ResourceType where
  | pool
  | account
  | mint
  deriving DecidableEq

structure ResourceLock where
  holder : LockHolder
  resourceId : ResourceId
  resourceType : ResourceType
  createdAt : Instant
  ttl : Duration
  deriving DecidableEq

inductive LockResult where
  | acquired
  | acquiredByPreemption (preempted : LockHolder)
  | conflict (holder : LockHolder)
  | insufficientCapital (available requested : UInt64)
  deriving DecidableEq

/-- The call got the lock. -/
def LockResult.isAcquired : LockResult → Bool
  | .acquired => true
  | .acquiredByPreemption _ => true
  | .conflict _ => false
  | .insufficientCapital _ _ => false

/-! ## 2. Fairness tracker -/

structure FairnessTracker where
  preemptionCounts : AList fun _ : String => List Instant
  starvedSources : Finmap fun _ : String => Instant
  maxPreemptions : UInt32
  windowDuration : Duration
  protectionDuration : Duration
  enabled : Bool

namespace FairnessTracker

def new (maxPreemptions : UInt32) (window protection : Duration) (enabled : Bool) :
    FairnessTracker :=
  ⟨∅, ∅, maxPreemptions, window, protection, enabled⟩

/-- `record_preemption`: drop the events before the window, add this one, and protect the
    preempted source once the window holds `max_preemptions` of them. -/
def recordPreemption (f : FairnessTracker) (preemptedSource : String) (now : Instant) :
    Bool × FairnessTracker :=
  if !f.enabled then (false, f)
  else
    let cutoff := now - f.windowDuration
    let old := (f.preemptionCounts.lookup preemptedSource).getD []
    let events := old.dropWhile (fun t => decide (t < cutoff)) ++ [now]
    let f := { f with preemptionCounts := f.preemptionCounts.insert preemptedSource events }
    if f.maxPreemptions ≤ events.length.toUInt32 then
      (true, { f with
        starvedSources := f.starvedSources.insert preemptedSource (now + f.protectionDuration) })
    else (false, f)

/-- `is_starved`. -/
def isStarved (f : FairnessTracker) (source : String) (now : Instant) : Bool :=
  f.enabled && match f.starvedSources.lookup source with
    | some protectionUntil => decide (now < protectionUntil)
    | none => false

/-- `should_block_preemption`. -/
def shouldBlockPreemption (f : FairnessTracker) (preemptedSource : String) (now : Instant) :
    Bool :=
  f.enabled && f.isStarved preemptedSource now

end FairnessTracker

/-! ## 3. The manager -/

structure LockManager where
  /-- Native SOL that no lock holds (gas). -/
  availableSol : UInt64
  /-- WSOL that no lock holds (BUY side). -/
  availableWsol : UInt64
  wsolInitialized : Bool
  availableTokens : Finmap fun _ : Mint => UInt64
  tokenWalletAtaPresent : Finset Mint
  /-- Slot of the confirmed full close per mint (`None`: closed, slot unknown). -/
  tokenWalletAtaClearedAtSlot : Finmap fun _ : Mint => Option UInt64
  capitalLocks : AList fun _ : IntentId => CapitalLock
  resourceLocks : AList fun _ : ResourceId => ResourceLock
  processedIntents : Finset IntentId
  defaultTtl : Duration
  fairness : FairnessTracker
  /-- Ghost: some `+=`, `-=` or `.sum()` has left the range of `u64`. -/
  overflowed : Bool

/-- The amount of `mint` in a token map (`get(mint).copied().unwrap_or(0)`). -/
def TokenMap.amount (t : TokenMap) (mint : Mint) : UInt64 := (t.lookup mint).getD 0

/-- The part of a lock that belongs to native SOL. -/
def CapitalLock.nativePart (l : CapitalLock) : Nat :=
  if l.reservesTradingWsol then 0 else l.solLamports.toNat

/-- The part of a lock that belongs to WSOL. -/
def CapitalLock.wsolPart (l : CapitalLock) : Nat :=
  if l.reservesTradingWsol then l.solLamports.toNat else 0

/-- The part of a lock that belongs to `mint`. -/
def CapitalLock.tokenPart (mint : Mint) (l : CapitalLock) : Nat := (l.tokens.amount mint).toNat

namespace LockManager

/-- `LockManager::new`: 30 s default TTL, five preemptions per minute, 30 s protection. -/
def new (initialSol : UInt64) : LockManager where
  availableSol := initialSol
  availableWsol := 0
  wsolInitialized := false
  availableTokens := ∅
  tokenWalletAtaPresent := ∅
  tokenWalletAtaClearedAtSlot := ∅
  capitalLocks := ∅
  resourceLocks := ∅
  processedIntents := ∅
  defaultTtl := 30000
  fairness := .new 5 60000 30000 true
  overflowed := false

/-- `with_fairness`. -/
def withFairness (m : LockManager) (maxPreemptions : UInt32) (window protection : Duration)
    (enabled : Bool) : LockManager :=
  { m with fairness := .new maxPreemptions window protection enabled }

/-- `with_ttl`. -/
def withTtl (m : LockManager) (ttl : Duration) : LockManager := { m with defaultTtl := ttl }

/-- `available_token_balance`. -/
def availableTokenBalance (m : LockManager) (mint : Mint) : UInt64 :=
  m.availableTokens.getOr 0 mint

/-! ### Buckets: `+=` and `-=` -/

/-- `*available_sol += x`. -/
def creditSol (m : LockManager) (x : UInt64) : LockManager :=
  { m with
    availableSol := m.availableSol + x
    overflowed := m.overflowed || decide (Word.AddOverflows m.availableSol x) }

/-- `*available_wsol += x`. -/
def creditWsol (m : LockManager) (x : UInt64) : LockManager :=
  { m with
    availableWsol := m.availableWsol + x
    overflowed := m.overflowed || decide (Word.AddOverflows m.availableWsol x) }

/-- `*available_tokens.entry(mint).or_insert(0) += x`. -/
def creditToken (m : LockManager) (mint : Mint) (x : UInt64) : LockManager :=
  { m with
    availableTokens := m.availableTokens.insert mint (m.availableTokenBalance mint + x)
    overflowed := m.overflowed || decide (Word.AddOverflows (m.availableTokenBalance mint) x) }

/-- `*available_sol -= x`. -/
def debitSol (m : LockManager) (x : UInt64) : LockManager :=
  { m with
    availableSol := m.availableSol - x
    overflowed := m.overflowed || decide (m.availableSol < x) }

/-- `*available_wsol -= x`. -/
def debitWsol (m : LockManager) (x : UInt64) : LockManager :=
  { m with
    availableWsol := m.availableWsol - x
    overflowed := m.overflowed || decide (m.availableWsol < x) }

/-- `if let Some(avail) = available_tokens.get_mut(mint) { *avail -= x; … }`. -/
def debitToken (m : LockManager) (mint : Mint) (x : UInt64) : LockManager :=
  match m.availableTokens.lookup mint with
  | none => m
  | some avail =>
      { m with
        availableTokens := m.availableTokens.insert mint (avail - x)
        overflowed := m.overflowed || decide (avail < x) }

/-! ### Locked sums -/

/-- `sum_locked_native_sol`. -/
def sumLockedNativeSol (m : LockManager) : UInt64 :=
  Word.wrapSum (((m.capitalLocks.entries.map Sigma.snd).filter
    fun l => !l.reservesTradingWsol).map fun l => l.solLamports)

/-- `sum_locked_wsol_trading`. -/
def sumLockedWsolTrading (m : LockManager) : UInt64 :=
  Word.wrapSum (((m.capitalLocks.entries.map Sigma.snd).filter
    fun l => l.reservesTradingWsol).map fun l => l.solLamports)

/-- The per-mint sum inside `set_available_token_balance`. -/
def sumLockedForMint (m : LockManager) (mint : Mint) : UInt64 :=
  Word.wrapSum ((m.capitalLocks.entries.map Sigma.snd).map fun l => l.tokens.amount mint)

/-- The exact native SOL held by the capital locks. -/
def lockedNative (m : LockManager) : Nat := m.capitalLocks.total CapitalLock.nativePart

/-- The exact WSOL held by the capital locks. -/
def lockedWsol (m : LockManager) : Nat := m.capitalLocks.total CapitalLock.wsolPart

/-- The exact amount of `mint` held by the capital locks. -/
def lockedTokens (m : LockManager) (mint : Mint) : Nat :=
  m.capitalLocks.total (CapitalLock.tokenPart mint)

/-! ### Balance refreshes -/

/-- The `overflowed` flag after a `.sum()` whose exact value is `n`. -/
def noteSum (m : LockManager) (n : Nat) : LockManager :=
  { m with overflowed := m.overflowed || decide (Word.size ≤ n) }

/-- The native half of every refresh: subtract what native capital locks hold. -/
def updateNativeSolOnly (m : LockManager) (solLamports : UInt64) : LockManager :=
  { m.noteSum m.lockedNative with
    availableSol := Word.satSub solLamports m.sumLockedNativeSol }

/-- `update_wsol_only`. -/
def updateWsolOnly (m : LockManager) (wsolLamports : UInt64) : LockManager :=
  { m.noteSum m.lockedWsol with
    availableWsol := Word.satSub wsolLamports m.sumLockedWsolTrading
    wsolInitialized := true }

/-- `update_balances`: the SOL arm subtracts the locked sum, the token map is written as it
    comes. -/
def updateBalances (m : LockManager) (solLamports : UInt64)
    (tokens : Finmap fun _ : Mint => UInt64) : LockManager :=
  { m.noteSum m.lockedNative with
    availableSol := Word.satSub solLamports m.sumLockedNativeSol
    availableTokens := tokens }

/-- `update_wallet_balances`. -/
def updateWalletBalances (m : LockManager) (solLamports : UInt64)
    (wsolLamports : Option UInt64) : LockManager :=
  let m := { m.noteSum m.lockedNative with
    availableSol := Word.satSub solLamports m.sumLockedNativeSol }
  match wsolLamports with
  | none => m
  | some wsol =>
      { m.noteSum m.lockedWsol with
        availableWsol := Word.satSub wsol m.sumLockedWsolTrading
        wsolInitialized := true }

/-- `set_available_token_balance`: what is reported, less what capital locks hold of the mint. -/
def setAvailableTokenBalance (m : LockManager) (mint : Mint) (amountRaw : UInt64) :
    LockManager :=
  { m.noteSum (m.lockedTokens mint) with
    availableTokens :=
      m.availableTokens.insert mint (Word.satSub amountRaw (m.sumLockedForMint mint)) }

/-- The writing half of `add_available_token_balance`. -/
def insertAvailableToken (m : LockManager) (mint : Mint) (newTotal : UInt64) : LockManager :=
  { m with availableTokens := m.availableTokens.insert mint newTotal }

/-- `add_available_token_balance`, both halves with nobody in between. -/
def addAvailableTokenBalance (m : LockManager) (mint : Mint) (additionalRaw : UInt64) :
    LockManager :=
  m.insertAvailableToken mint (Word.satAdd (m.availableTokenBalance mint) additionalRaw)

/-- `mark_token_wallet_ata_present`. -/
def markTokenWalletAtaPresent (m : LockManager) (mint : Mint) : LockManager :=
  { m with tokenWalletAtaPresent := insert mint m.tokenWalletAtaPresent }

/-- `wallet_token_snapshot_stale_after_close`: whether the snapshot predates a confirmed full
    close. A slot-less zero snapshot after a close heals the balance and is dropped as well. -/
def walletTokenSnapshotStaleAfterClose (m : LockManager) (mint : Mint) (amountRaw : UInt64)
    (snapshotSlot : Option UInt64) : Bool × LockManager :=
  match m.tokenWalletAtaClearedAtSlot.lookup mint with
  | none => (false, m)
  | some closedAtSlot =>
      match closedAtSlot, snapshotSlot with
      | some closedSlot, some snapSlot => (decide (snapSlot ≤ closedSlot), m)
      | none, some _ => (true, m)
      | _, none =>
          if amountRaw = 0 then (true, m.setAvailableTokenBalance mint 0) else (false, m)

/-- `apply_wallet_token_snapshot`. -/
def applyWalletTokenSnapshot (m : LockManager) (mint : Mint) (amountRaw : UInt64)
    (snapshotSlot : Option UInt64) : LockManager :=
  match m.walletTokenSnapshotStaleAfterClose mint amountRaw snapshotSlot with
  | (true, m) => m
  | (false, m) =>
      let m := { m with
        tokenWalletAtaClearedAtSlot := m.tokenWalletAtaClearedAtSlot.erase mint }
      (m.markTokenWalletAtaPresent mint).setAvailableTokenBalance mint amountRaw

/-- First section of `clear_token_wallet_presence`. -/
def removeTokenWalletAtaPresent (m : LockManager) (mint : Mint) : LockManager :=
  { m with tokenWalletAtaPresent := m.tokenWalletAtaPresent.erase mint }

/-- Second section of `clear_token_wallet_presence`. -/
def removeAvailableToken (m : LockManager) (mint : Mint) : LockManager :=
  { m with availableTokens := m.availableTokens.erase mint }

/-- Third section of `clear_token_wallet_presence`. -/
def insertClearedAtSlot (m : LockManager) (mint : Mint) (closedAtSlot : Option UInt64) :
    LockManager :=
  { m with
    tokenWalletAtaClearedAtSlot := m.tokenWalletAtaClearedAtSlot.insert mint closedAtSlot }

/-- `clear_token_wallet_presence`. -/
def clearTokenWalletPresence (m : LockManager) (mint : Mint) (closedAtSlot : Option UInt64) :
    LockManager :=
  ((m.removeTokenWalletAtaPresent mint).removeAvailableToken mint).insertClearedAtSlot mint
    closedAtSlot

/-- `count_non_zero_token_balances`. -/
def countNonZeroTokenBalances (m : LockManager) : Nat :=
  Multiset.card (m.availableTokens.entries.filter fun e => 0 < e.2)

/-! ### Idempotency -/

/-- `is_duplicate`. -/
def isDuplicate (m : LockManager) (intentId : IntentId) : Bool :=
  decide (intentId ∈ m.processedIntents)

/-- `mark_processed`. -/
def markProcessed (m : LockManager) (intentId : IntentId) : LockManager :=
  { m with processedIntents := insert intentId m.processedIntents }

/-- `set_processed_intents`. -/
def setProcessedIntents (m : LockManager) (intents : Finset IntentId) : LockManager :=
  { m with processedIntents := intents }

/-! ### Releases and expiry -/

/-- Give a removed lock's amounts back: lamports to the bucket they came from, tokens (if asked
    for) to their mints. -/
def restoreLock (m : LockManager) (lock : CapitalLock) (restoreTokens : Bool) : LockManager :=
  let m := if lock.reservesTradingWsol then m.creditWsol lock.solLamports
    else m.creditSol lock.solLamports
  if restoreTokens then lock.tokens.entries.foldl (fun m e => m.creditToken e.1 e.2) m else m

/-- `release_capital_lock_restore_tokens`. -/
def releaseCapitalLockRestoreTokens (m : LockManager) (intentId : IntentId)
    (restoreTokens : Bool) : LockManager :=
  match m.capitalLocks.lookup intentId with
  | none => m
  | some lock =>
      { m with capitalLocks := m.capitalLocks.erase intentId }.restoreLock lock restoreTokens

/-- `release_resource_locks_for_intent`. -/
def releaseResourceLocksForIntent (m : LockManager) (intentId : IntentId) : LockManager :=
  { m with
    resourceLocks := m.resourceLocks.eraseAll
      (m.resourceLocks.keysWhere fun l => decide (l.holder.intentId = intentId)) }

/-- `release_locks`. -/
def releaseLocks (m : LockManager) (intentId : IntentId) : LockManager :=
  (m.releaseCapitalLockRestoreTokens intentId true).releaseResourceLocksForIntent intentId

/-- `release_locks_after_confirmed_sell`: the locked input tokens are sold, not returned. -/
def releaseLocksAfterConfirmedSell (m : LockManager) (intentId : IntentId) : LockManager :=
  (m.releaseCapitalLockRestoreTokens intentId false).releaseResourceLocksForIntent intentId

end LockManager

/-- A pre-send capital lock past its TTL. -/
def CapitalLock.expired (now : Instant) (l : CapitalLock) : Bool :=
  decide (l.phase = .preSend) && decide (l.ttl < now - l.createdAt)

/-- A resource lock past its TTL. -/
def ResourceLock.expired (now : Instant) (l : ResourceLock) : Bool :=
  decide (l.ttl < now - l.createdAt)

namespace LockManager

/-- The capital half of `cleanup_expired`: collect the expired pre-send locks, then remove and
    restore them one by one. In-flight reservations are never released here. -/
def cleanupExpiredCapital (m : LockManager) (now : Instant) : LockManager :=
  (m.capitalLocks.keysWhere (CapitalLock.expired now)).foldl
    (fun m key => m.releaseCapitalLockRestoreTokens key true) m

/-- The resource half of `cleanup_expired`. -/
def cleanupExpiredResources (m : LockManager) (now : Instant) : LockManager :=
  { m with
    resourceLocks := m.resourceLocks.eraseAll
      (m.resourceLocks.keysWhere (ResourceLock.expired now)) }

/-- `cleanup_expired`. -/
def cleanupExpired (m : LockManager) (now : Instant) : LockManager :=
  (m.cleanupExpiredCapital now).cleanupExpiredResources now

/-! ### Acquiring -/

/-- `buy_reserves_wsol`: read from the flag before any lock is taken. -/
def buyReservesWsol (m : LockManager) (solLamports : UInt64) (tokens : TokenMap) : Bool :=
  tokens.entries.isEmpty && decide (0 < solLamports) && m.wsolInitialized

/-- The first mint (in iteration order) of which the request asks for more than is free. -/
def firstInsufficientToken (m : LockManager) (tokens : TokenMap) :
    Option (UInt64 × UInt64) :=
  (tokens.entries.find? fun e => decide (m.availableTokenBalance e.1 < e.2)).map
    fun e => (m.availableTokenBalance e.1, e.2)

/-- `token_position_total_at_lock`: per tracked mint of the request, what was free before. The
    source fills it while subtracting; each mint is visited once, so the value is the one
    before the whole loop. -/
def positionTotals (m : LockManager) (tokens : TokenMap) : TokenMap :=
  tokens.entries.foldl (fun acc e => match m.availableTokens.lookup e.1 with
    | none => acc
    | some avail => acc.insert e.1 avail) ∅

/-- The part of `try_lock_capital_with_ttl` under the four write locks. -/
def acquireCapital (m : LockManager) (holder : LockHolder) (solLamports : UInt64)
    (tokens : TokenMap) (ttl : Option Duration) (reservesWsol : Bool) (now : Instant) :
    LockResult × LockManager :=
  if holder.intentId ∈ m.capitalLocks then (.conflict holder, m)
  else if reservesWsol && decide (m.availableWsol < solLamports) then
    (.insufficientCapital m.availableWsol solLamports, m)
  else if !reservesWsol && decide (0 < solLamports) && decide (m.availableSol < solLamports) then
    (.insufficientCapital m.availableSol solLamports, m)
  else match m.firstInsufficientToken tokens with
    | some (available, requested) => (.insufficientCapital available requested, m)
    | none =>
        let m₁ := if reservesWsol then m.debitWsol solLamports
          else if 0 < solLamports then m.debitSol solLamports else m
        let m₂ := tokens.entries.foldl (fun m e => m.debitToken e.1 e.2) m₁
        let lock : CapitalLock := {
          holder
          solLamports
          reservesTradingWsol := reservesWsol
          tokens
          tokenPositionTotalAtLock := m.positionTotals tokens
          createdAt := now
          ttl := ttl.getD m.defaultTtl
          phase := .preSend }
        (.acquired, { m₂ with capitalLocks := m₂.capitalLocks.insert holder.intentId lock })

/-- `try_lock_capital_with_ttl`; the clock is read by the cleanup and again for `created_at`. -/
def tryLockCapitalWithTtl (m : LockManager) (holder : LockHolder) (solLamports : UInt64)
    (tokens : TokenMap) (ttl : Option Duration) (now createdAt : Instant) :
    LockResult × LockManager :=
  let m := m.cleanupExpired now
  m.acquireCapital holder solLamports tokens ttl (m.buyReservesWsol solLamports tokens) createdAt

/-- `try_lock_capital`. -/
def tryLockCapital (m : LockManager) (holder : LockHolder) (solLamports : UInt64)
    (tokens : TokenMap) (now createdAt : Instant) : LockResult × LockManager :=
  m.tryLockCapitalWithTtl holder solLamports tokens none now createdAt

/-- Write a fresh resource lock for `holder`. -/
def insertResource (m : LockManager) (holder : LockHolder) (resourceId : ResourceId)
    (resourceType : ResourceType) (ttl : Option Duration) (now : Instant) : LockManager :=
  { m with
    resourceLocks := m.resourceLocks.insert resourceId
      ⟨holder, resourceId, resourceType, now, ttl.getD m.defaultTtl⟩ }

/-- The part of `try_lock_resource_with_ttl` under the write lock. A lower tier number takes a
    lock away from a higher one unless the fairness tracker protects the holder's source. The
    clock is read for the protection, for the preemption record and for `created_at`. -/
def acquireResource (m : LockManager) (holder : LockHolder) (resourceId : ResourceId)
    (resourceType : ResourceType) (ttl : Option Duration) (nowStarved nowRecord now : Instant) :
    LockResult × LockManager :=
  match m.resourceLocks.lookup resourceId with
  | none => (.acquired, m.insertResource holder resourceId resourceType ttl now)
  | some existing =>
      if existing.holder.intentId = holder.intentId then
        (.acquired, m.insertResource holder resourceId resourceType ttl now)
      else if holder.tier < existing.holder.tier then
        let preemptedSource := existing.holder.source.getD "unknown"
        if m.fairness.shouldBlockPreemption preemptedSource nowStarved then
          (.conflict existing.holder, m)
        else
          let m := { m with
            fairness := (m.fairness.recordPreemption preemptedSource nowRecord).2 }
          (.acquiredByPreemption existing.holder,
            m.insertResource holder resourceId resourceType ttl now)
      else (.conflict existing.holder, m)

/-- `try_lock_resource_with_ttl`. -/
def tryLockResourceWithTtl (m : LockManager) (holder : LockHolder) (resourceId : ResourceId)
    (resourceType : ResourceType) (ttl : Option Duration)
    (now nowStarved nowRecord createdAt : Instant) : LockResult × LockManager :=
  (m.cleanupExpired now).acquireResource holder resourceId resourceType ttl nowStarved nowRecord
    createdAt

/-! ### Renewal, promotion, views -/

/-- `renew_capital_lock_ttl`. -/
def renewCapitalLockTtl (m : LockManager) (intentId : IntentId) (ttl : Duration)
    (now : Instant) : Bool × LockManager :=
  match m.capitalLocks.lookup intentId with
  | some lock =>
      if lock.phase = .preSend then
        (true, { m with
          capitalLocks := m.capitalLocks.insert intentId { lock with ttl, createdAt := now } })
      else (false, m)
  | none => (false, m)

/-- The capital half of `promote_capital_lock_to_in_flight`. -/
def promoteCapital (m : LockManager) (intentId : IntentId) : Bool × LockManager :=
  match m.capitalLocks.lookup intentId with
  | some lock =>
      (true, { m with
        capitalLocks := m.capitalLocks.insert intentId { lock with phase := .inFlight } })
  | none => (false, m)

/-- `promote_capital_lock_to_in_flight`: the reservation stays, the pool locks go. -/
def promoteCapitalLockToInFlight (m : LockManager) (intentId : IntentId) :
    Bool × LockManager :=
  match m.promoteCapital intentId with
  | (true, m) => (true, m.releaseResourceLocksForIntent intentId)
  | (false, m) => (false, m)

/-- The locked half of `available_and_locked_tokens_for_intent`. -/
def lockedTokensForIntent (m : LockManager) (intentId : IntentId) (mint : Mint) : UInt64 :=
  match m.capitalLocks.lookup intentId with
  | some lock => lock.tokens.amount mint
  | none => 0

/-- `intent_token_position_total_at_lock`. -/
def intentTokenPositionTotalAtLock (m : LockManager) (intentId : IntentId) (mint : Mint) :
    Option UInt64 :=
  (m.capitalLocks.lookup intentId).bind fun lock => lock.tokenPositionTotalAtLock.lookup mint

end LockManager

end IronCrab

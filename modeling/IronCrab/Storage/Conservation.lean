/-
  File:      IronCrab/Storage/Conservation.lean
  Subject:   CAPITAL CONSERVATION (I-20) over any sequence of lock operations.

  `LockOp` lists the operations that take, give back, renew and promote capital locks, each with
  its clock readings. `LockOp.Lawful` is the law of one operation:

  * every bucket's total stays, except that `release_locks_after_confirmed_sell` lowers each
    token bucket by exactly the released lock's amount;
  * an attempt that is not granted changes nothing beyond the expiry cleanup at its start;
  * a lock in flight is still there, unchanged, unless a release named its intent;
  * no `+=` overflows and no `-=` underflows.

  `lawful` proves the law for one operation in any state whose totals are `u64`s, and
  **`capital_conservation`** along every sequence of operations from any such state.
-/
import IronCrab.Storage.Buckets
import IronCrab.Lib.Machine

namespace IronCrab

namespace LockManager

/-! ## 1. Acquiring capital -/

/-- What a granted request leaves behind. -/
def takeCapital (m : LockManager) (holder : LockHolder) (solLamports : UInt64)
    (tokens : TokenMap) (ttl : Option Duration) (reservesWsol : Bool) (now : Instant) :
    LockManager :=
  let m₁ := if reservesWsol then m.debitWsol solLamports
    else if 0 < solLamports then m.debitSol solLamports else m
  let m₂ := tokens.entries.foldl (fun m e => m.debitToken e.1 e.2) m₁
  { m₂ with capitalLocks := m₂.capitalLocks.insert holder.intentId {
      holder
      solLamports
      reservesTradingWsol := reservesWsol
      tokens
      tokenPositionTotalAtLock := m.positionTotals tokens
      createdAt := now
      ttl := ttl.getD m.defaultTtl
      phase := .preSend } }

/-- What a request must find to be granted. -/
structure Affordable (m : LockManager) (holder : LockHolder) (solLamports : UInt64)
    (tokens : TokenMap) (reservesWsol : Bool) : Prop where
  fresh : holder.intentId ∉ m.capitalLocks
  wsol : reservesWsol = true → solLamports ≤ m.availableWsol
  native : reservesWsol = false → solLamports ≤ m.availableSol
  tokens : ∀ mint, tokens.amount mint ≤ m.availableTokenBalance mint

theorem amount_le_of_firstInsufficientToken {m : LockManager} {tokens : TokenMap}
    (h : m.firstInsufficientToken tokens = none) (mint : Mint) :
    tokens.amount mint ≤ m.availableTokenBalance mint := by
  have hall := List.find?_eq_none.mp (Option.map_eq_none_iff.mp h)
  cases hl : tokens.lookup mint with
  | none =>
      have h0 : tokens.amount mint = 0 := by
        unfold TokenMap.amount
        rw [hl]
        rfl
      rw [h0, UInt64.le_iff_toNat_le]
      exact Nat.zero_le _
  | some x =>
      have hx : tokens.amount mint = x := by
        unfold TokenMap.amount
        rw [hl]
        rfl
      have hmem := hall ⟨mint, x⟩ (List.of_mem_dlookup hl)
      rw [hx]
      exact UInt64.not_lt.mp fun hlt => hmem (decide_eq_true hlt)

/-- **The two ways an attempt under the write locks can end.** -/
theorem acquireCapital_cases (m : LockManager) (holder : LockHolder) (solLamports : UInt64)
    (tokens : TokenMap) (ttl : Option Duration) (reservesWsol : Bool) (now : Instant) :
    ((m.acquireCapital holder solLamports tokens ttl reservesWsol now).1.isAcquired = false ∧
      (m.acquireCapital holder solLamports tokens ttl reservesWsol now).2 = m) ∨
    (m.Affordable holder solLamports tokens reservesWsol ∧
      m.acquireCapital holder solLamports tokens ttl reservesWsol now =
        (.acquired, m.takeCapital holder solLamports tokens ttl reservesWsol now)) := by
  unfold acquireCapital
  by_cases hk : holder.intentId ∈ m.capitalLocks
  · rw [if_pos hk]
    exact .inl ⟨rfl, rfl⟩
  rw [if_neg hk]
  by_cases hw : (reservesWsol && decide (m.availableWsol < solLamports)) = true
  · rw [if_pos hw]
    exact .inl ⟨rfl, rfl⟩
  rw [if_neg hw]
  by_cases hs : (!reservesWsol && decide (0 < solLamports) &&
      decide (m.availableSol < solLamports)) = true
  · rw [if_pos hs]
    exact .inl ⟨rfl, rfl⟩
  rw [if_neg hs]
  cases ht : m.firstInsufficientToken tokens with
  | some p => exact .inl ⟨rfl, rfl⟩
  | none =>
      refine .inr ⟨⟨hk, fun hr => ?_, fun hr => ?_, amount_le_of_firstInsufficientToken ht⟩, rfl⟩
      · rw [hr, Bool.true_and, decide_eq_true_eq] at hw
        exact UInt64.not_lt.mp hw
      · rw [hr, Bool.not_false, Bool.true_and, Bool.and_eq_true, decide_eq_true_eq,
          decide_eq_true_eq] at hs
        by_cases h0 : 0 < solLamports
        · exact UInt64.not_lt.mp fun hlt => hs ⟨h0, hlt⟩
        · have hz := UInt64.le_iff_toNat_le.mp (UInt64.not_lt.mp h0)
          rw [UInt64.le_iff_toNat_le]
          exact Nat.le_trans hz (Nat.zero_le _)

/-- The lamport half of `takeCapital`. -/
def debitLamports (m : LockManager) (solLamports : UInt64) (reservesWsol : Bool) : LockManager :=
  if reservesWsol then m.debitWsol solLamports
  else if 0 < solLamports then m.debitSol solLamports else m

section Taken

variable {m : LockManager} {holder : LockHolder} {solLamports : UInt64} {tokens : TokenMap}
  {reservesWsol : Bool}

theorem availableTokenBalance_debitLamports (mint : Mint) :
    (m.debitLamports solLamports reservesWsol).availableTokenBalance mint =
      m.availableTokenBalance mint := by
  unfold debitLamports
  cases reservesWsol with
  | true => rfl
  | false => by_cases h : 0 < solLamports <;> simp only [h] <;> rfl

/-- A debit of lamports that are there. -/
theorem debitLamports_exact (h : m.Affordable holder solLamports tokens reservesWsol) :
    (m.debitLamports solLamports reservesWsol).availableSol =
        (if reservesWsol then m.availableSol else m.availableSol - solLamports) ∧
      (m.debitLamports solLamports reservesWsol).availableWsol =
        (if reservesWsol then m.availableWsol - solLamports else m.availableWsol) ∧
      (m.debitLamports solLamports reservesWsol).overflowed = m.overflowed ∧
      (m.debitLamports solLamports reservesWsol).capitalLocks = m.capitalLocks := by
  unfold debitLamports
  cases hr : reservesWsol with
  | true =>
      refine ⟨rfl, rfl, ?_, rfl⟩
      show (m.overflowed || decide (m.availableWsol < solLamports)) = m.overflowed
      rw [decide_eq_false (UInt64.not_lt.mpr (h.wsol hr)), Bool.or_false]
  | false =>
      by_cases h0 : 0 < solLamports
      · rw [if_neg Bool.false_ne_true, if_pos h0]
        refine ⟨rfl, rfl, ?_, rfl⟩
        show (m.overflowed || decide (m.availableSol < solLamports)) = m.overflowed
        rw [decide_eq_false (UInt64.not_lt.mpr (h.native hr)), Bool.or_false]
      · have hz : solLamports = 0 := by
          have := UInt64.le_iff_toNat_le.mp (UInt64.not_lt.mp h0)
          exact UInt64.toNat_inj.mp (Nat.le_zero.mp this)
        rw [if_neg Bool.false_ne_true, if_neg h0, hz]
        exact ⟨(UInt64.sub_zero _).symm, rfl, rfl, rfl⟩

/-- A granted request writes its lock over the state with the debits. -/
theorem takeCapital_eq (m : LockManager) (holder : LockHolder) (solLamports : UInt64)
    (tokens : TokenMap) (reservesWsol : Bool) (ttl : Option Duration) (now : Instant) :
    ∃ t o lock, m.takeCapital holder solLamports tokens ttl reservesWsol now =
      { m.debitLamports solLamports reservesWsol with
        availableTokens := t
        overflowed := o
        capitalLocks :=
          (m.debitLamports solLamports reservesWsol).capitalLocks.insert holder.intentId lock } ∧
      lock.solLamports = solLamports ∧ lock.reservesTradingWsol = reservesWsol ∧
      lock.tokens = tokens ∧ lock.phase = .preSend ∧
      (tokens.entries.foldl (fun m e => m.debitToken e.1 e.2)
        (m.debitLamports solLamports reservesWsol)).availableTokens = t ∧
      (tokens.entries.foldl (fun m e => m.debitToken e.1 e.2)
        (m.debitLamports solLamports reservesWsol)).overflowed = o := by
  obtain ⟨t, o, h⟩ := sameButTokens_debits tokens.entries
    (m.debitLamports solLamports reservesWsol)
  refine ⟨t, o, ⟨holder, solLamports, reservesWsol, tokens, m.positionTotals tokens, now,
    ttl.getD m.defaultTtl, .preSend⟩, ?_, rfl, rfl, rfl, rfl, by rw [h], by rw [h]⟩
  have htake : m.takeCapital holder solLamports tokens ttl reservesWsol now =
      { tokens.entries.foldl (fun m e => m.debitToken e.1 e.2)
          (m.debitLamports solLamports reservesWsol) with
        capitalLocks := (tokens.entries.foldl (fun m e => m.debitToken e.1 e.2)
          (m.debitLamports solLamports reservesWsol)).capitalLocks.insert holder.intentId
            ⟨holder, solLamports, reservesWsol, tokens, m.positionTotals tokens, now,
              ttl.getD m.defaultTtl, .preSend⟩ } := rfl
  rw [htake, h]

/-- **A granted request moves its amounts from free to held**, bucket by bucket. -/
theorem total_takeCapital (h : m.Affordable holder solLamports tokens reservesWsol)
    (ttl : Option Duration) (now : Instant) (b : Bucket) :
    (m.takeCapital holder solLamports tokens ttl reservesWsol now).total b = m.total b := by
  obtain ⟨t, o, lock, heq, hsol, hwsol, htok, _, ht, _⟩ :=
    takeCapital_eq m holder solLamports tokens reservesWsol ttl now
  obtain ⟨dSol, dWsol, _, dLocks⟩ := debitLamports_exact h
  have hlocks := AList.total_insert_fresh (CapitalLock.part b) (v := lock) h.fresh
  unfold total locked
  rw [heq]
  show _ + AList.total _ (AList.insert _ _ _) = _
  rw [dLocks, hlocks]
  cases b with
  | native =>
      show ((m.debitLamports solLamports reservesWsol).availableSol).toNat +
        (lock.nativePart + _) = m.availableSol.toNat + _
      rw [dSol]
      unfold CapitalLock.nativePart
      rw [hwsol, hsol]
      cases hr : reservesWsol with
      | true => simp
      | false =>
          have hle := UInt64.le_iff_toNat_le.mp (h.native hr)
          rw [if_neg Bool.false_ne_true, if_neg Bool.false_ne_true, Word.toNat_sub_exact hle]
          omega
  | wsol =>
      show ((m.debitLamports solLamports reservesWsol).availableWsol).toNat +
        (lock.wsolPart + _) = m.availableWsol.toNat + _
      rw [dWsol]
      unfold CapitalLock.wsolPart
      rw [hwsol, hsol]
      cases hr : reservesWsol with
      | true =>
          have hle := UInt64.le_iff_toNat_le.mp (h.wsol hr)
          rw [if_pos rfl, if_pos rfl, Word.toNat_sub_exact hle]
          omega
      | false => simp
  | token mint =>
      have hbal := (debits_exact tokens.nodupKeys (m.debitLamports solLamports reservesWsol)
        (fun mint => by
          rw [availableTokenBalance_debitLamports]
          exact h.tokens mint)).1 mint
      rw [availableTokenBalance_debitLamports] at hbal
      unfold availableTokenBalance at hbal
      rw [ht] at hbal
      show (t.getOr 0 mint).toNat + (lock.tokenPart mint + _) =
        (m.availableTokenBalance mint).toNat + _
      have hpart : lock.tokenPart mint = (tokens.amount mint).toNat := by
        unfold CapitalLock.tokenPart
        rw [htok]
      have hle := UInt64.le_iff_toNat_le.mp (h.tokens mint)
      have hsub : (t.getOr 0 mint).toNat =
          (m.availableTokenBalance mint).toNat - (tokens.amount mint).toNat := by
        rw [hbal, ← amount_eq_entryAmount]
        exact Word.toNat_sub_exact hle
      rw [hpart, hsub]
      omega

theorem overflowed_takeCapital (h : m.Affordable holder solLamports tokens reservesWsol)
    (ttl : Option Duration) (now : Instant) :
    (m.takeCapital holder solLamports tokens ttl reservesWsol now).overflowed = m.overflowed := by
  obtain ⟨t, o, lock, heq, _, _, _, _, _, ho⟩ :=
    takeCapital_eq m holder solLamports tokens reservesWsol ttl now
  have hflag := (debits_exact tokens.nodupKeys (m.debitLamports solLamports reservesWsol)
    (fun mint => by
      rw [availableTokenBalance_debitLamports]
      exact h.tokens mint)).2
  rw [heq]
  show o = m.overflowed
  rw [← ho, hflag]
  exact (debitLamports_exact h).2.2.1

/-- The locks after a granted request: the old ones and the new one. -/
theorem capitalLocks_takeCapital (h : m.Affordable holder solLamports tokens reservesWsol)
    (ttl : Option Duration) (now : Instant) :
    ∃ lock, (m.takeCapital holder solLamports tokens ttl reservesWsol now).capitalLocks =
      m.capitalLocks.insert holder.intentId lock ∧ lock.phase = .preSend := by
  obtain ⟨t, o, lock, heq, _, _, _, hp, _⟩ :=
    takeCapital_eq m holder solLamports tokens reservesWsol ttl now
  refine ⟨lock, ?_, hp⟩
  rw [heq]
  show AList.insert _ _ _ = _
  rw [(debitLamports_exact h).2.2.2]

end Taken

/-- A lock that stays in place, with the same parts, under another record. -/
theorem total_replaceLock {m m' : LockManager} {id : IntentId} {l l' : CapitalLock} {b : Bucket}
    (hl : m.capitalLocks.lookup id = some l) (ha : m'.available b = m.available b)
    (hc : m'.capitalLocks = m.capitalLocks.insert id l') (hp : l'.part b = l.part b) :
    m'.total b = m.total b := by
  have h := AList.total_insert_over (CapitalLock.part b) (w := l') hl
  unfold total locked
  rw [ha, hc]
  omega

theorem total_renew (m : LockManager) (id : IntentId) (ttl : Duration) (now : Instant)
    (b : Bucket) : (m.renewCapitalLockTtl id ttl now).2.total b = m.total b := by
  unfold renewCapitalLockTtl
  cases hl : m.capitalLocks.lookup id with
  | none => rfl
  | some lock =>
      by_cases hp : lock.phase = .preSend
      · simp only [if_pos hp]
        exact total_replaceLock hl (by cases b <;> rfl) rfl (by cases b <;> rfl)
      · simp only [if_neg hp]

theorem total_promoteCapital (m : LockManager) (id : IntentId) (b : Bucket) :
    (m.promoteCapital id).2.total b = m.total b := by
  unfold promoteCapital
  cases hl : m.capitalLocks.lookup id with
  | none => rfl
  | some lock => exact total_replaceLock hl (by cases b <;> rfl) rfl (by cases b <;> rfl)

theorem total_promote (m : LockManager) (id : IntentId) (b : Bucket) :
    (m.promoteCapitalLockToInFlight id).2.total b = m.total b := by
  rw [← m.total_promoteCapital id b]
  unfold promoteCapitalLockToInFlight promoteCapital
  cases m.capitalLocks.lookup id with
  | none => rfl
  | some lock => exact total_congr (by cases b <;> rfl) rfl

/-! ## 2. Operations -/

end LockManager

/-- The operations on capital locks. -/
inductive LockOp where
  | tryLockCapital (holder : LockHolder) (solLamports : UInt64) (tokens : TokenMap)
      (now createdAt : Instant)
  | tryLockCapitalWithTtl (holder : LockHolder) (solLamports : UInt64) (tokens : TokenMap)
      (ttl : Option Duration) (now createdAt : Instant)
  | releaseLocks (intentId : IntentId)
  | releaseLocksAfterConfirmedSell (intentId : IntentId)
  | cleanupExpired (now : Instant)
  | renewCapitalLockTtl (intentId : IntentId) (ttl : Duration) (now : Instant)
  | promoteCapitalLockToInFlight (intentId : IntentId)

namespace LockOp

open LockManager

/-- What the operation leaves behind. -/
def apply (m : LockManager) : LockOp → LockManager
  | tryLockCapital holder sol tokens now createdAt =>
      (m.tryLockCapital holder sol tokens now createdAt).2
  | tryLockCapitalWithTtl holder sol tokens ttl now createdAt =>
      (m.tryLockCapitalWithTtl holder sol tokens ttl now createdAt).2
  | releaseLocks id => m.releaseLocks id
  | releaseLocksAfterConfirmedSell id => m.releaseLocksAfterConfirmedSell id
  | cleanupExpired now => m.cleanupExpired now
  | renewCapitalLockTtl id ttl now => (m.renewCapitalLockTtl id ttl now).2
  | promoteCapitalLockToInFlight id => (m.promoteCapitalLockToInFlight id).2

/-- The result of an attempt and the state its expiry cleanup leaves. -/
def attempt (m : LockManager) : LockOp → Option (LockResult × LockManager)
  | tryLockCapital holder sol tokens now createdAt =>
      some ((m.tryLockCapital holder sol tokens now createdAt).1, m.cleanupExpired now)
  | tryLockCapitalWithTtl holder sol tokens ttl now createdAt =>
      some ((m.tryLockCapitalWithTtl holder sol tokens ttl now createdAt).1, m.cleanupExpired now)
  | _ => none

/-- The tokens of `mint` that leave the manager for good: the released lock's, after a confirmed
    sell. -/
def soldTokens (m : LockManager) (mint : Mint) : LockOp → Nat
  | releaseLocksAfterConfirmedSell id => (m.lockedTokensForIntent id mint).toNat
  | _ => 0

/-- The intent whose locks the operation releases. -/
def releases : LockOp → Option IntentId
  | releaseLocks id => some id
  | releaseLocksAfterConfirmedSell id => some id
  | _ => none

/-- **The law of one operation.** -/
structure Lawful (m : LockManager) (op : LockOp) : Prop where
  /-- Native SOL, free and held. -/
  native : (op.apply m).availableSol.toNat + (op.apply m).lockedNative =
    m.availableSol.toNat + m.lockedNative
  /-- WSOL, free and held. -/
  wsol : (op.apply m).availableWsol.toNat + (op.apply m).lockedWsol =
    m.availableWsol.toNat + m.lockedWsol
  /-- Each mint, free and held. -/
  tokens : ∀ mint, ((op.apply m).availableTokenBalance mint).toNat +
      (op.apply m).lockedTokens mint + op.soldTokens m mint =
    (m.availableTokenBalance mint).toNat + m.lockedTokens mint
  /-- An attempt that is not granted only cleans up. -/
  rejected : ∀ r m', op.attempt m = some (r, m') → r.isAcquired = false → op.apply m = m'
  /-- A lock in flight goes only by a release that names its intent. -/
  inFlight : ∀ id lock, m.capitalLocks.lookup id = some lock → lock.phase = .inFlight →
    op.releases ≠ some id → (op.apply m).capitalLocks.lookup id = some lock
  /-- No `+=` and no `-=` leaves the range of `u64`. -/
  exact : (op.apply m).overflowed = m.overflowed

/-- What the operation takes out of a bucket for good. -/
def sold (m : LockManager) (op : LockOp) : Bucket → Nat
  | .token mint => op.soldTokens m mint
  | _ => 0

theorem sold_eq_zero {m : LockManager} {op : LockOp}
    (h : ∀ id, op ≠ releaseLocksAfterConfirmedSell id) (b : Bucket) : op.sold m b = 0 := by
  cases b with
  | token mint =>
      cases op with
      | releaseLocksAfterConfirmedSell id => exact absurd rfl (h id)
      | _ => rfl
  | _ => rfl

theorem sold_afterConfirmedSell (m : LockManager) (id : IntentId) (b : Bucket) :
    (releaseLocksAfterConfirmedSell id).sold m b = m.keptBack id false b := by
  cases b with
  | token mint =>
      show (m.lockedTokensForIntent id mint).toNat = _
      unfold lockedTokensForIntent LockManager.keptBack
      cases m.capitalLocks.lookup id <;> rfl
  | _ =>
      unfold LockManager.keptBack
      cases m.capitalLocks.lookup id <;> rfl

theorem total_tryLock (m : LockManager) (holder : LockHolder) (sol : UInt64) (tokens : TokenMap)
    (ttl : Option Duration) (now createdAt : Instant) (b : Bucket)
    (h : m.total b < Word.size) :
    (m.tryLockCapitalWithTtl holder sol tokens ttl now createdAt).2.total b = m.total b := by
  have hclean := total_cleanupExpired m now b h
  unfold LockManager.tryLockCapitalWithTtl
  rcases acquireCapital_cases (m.cleanupExpired now) holder sol tokens ttl
    ((m.cleanupExpired now).buyReservesWsol sol tokens) createdAt with ⟨_, heq⟩ | ⟨haff, heq⟩
  · rw [heq, hclean]
  · rw [heq, total_takeCapital haff, hclean]

/-- **One operation keeps the total of a bucket that fits**, less what a confirmed sell takes. -/
theorem total_apply (m : LockManager) (op : LockOp) (b : Bucket) (h : m.total b < Word.size) :
    (op.apply m).total b + op.sold m b = m.total b := by
  cases op with
  | tryLockCapital holder sol tokens now createdAt =>
      rw [sold_eq_zero (fun id he => by cases he)]
      exact total_tryLock m holder sol tokens none now createdAt b h
  | tryLockCapitalWithTtl holder sol tokens ttl now createdAt =>
      rw [sold_eq_zero (fun id he => by cases he)]
      exact total_tryLock m holder sol tokens ttl now createdAt b h
  | releaseLocks id =>
      have hrel := total_release m id true b h
      rw [keptBack_restoring] at hrel
      rw [sold_eq_zero (fun id he => by cases he), ← hrel]
      exact congrArg (· + 0) (total_congr (by cases b <;> rfl) rfl)
  | releaseLocksAfterConfirmedSell id =>
      have hrel := total_release m id false b h
      rw [sold_afterConfirmedSell, ← hrel]
      exact congrArg (· + _) (total_congr (by cases b <;> rfl) rfl)
  | cleanupExpired now =>
      rw [sold_eq_zero (fun id he => by cases he)]
      exact total_cleanupExpired m now b h
  | renewCapitalLockTtl id ttl now =>
      rw [sold_eq_zero (fun id he => by cases he)]
      exact total_renew m id ttl now b
  | promoteCapitalLockToInFlight id =>
      rw [sold_eq_zero (fun id he => by cases he)]
      exact total_promote m id b

theorem overflowed_tryLock (m : LockManager) (holder : LockHolder) (sol : UInt64)
    (tokens : TokenMap) (ttl : Option Duration) (now createdAt : Instant) (h : m.Fits) :
    (m.tryLockCapitalWithTtl holder sol tokens ttl now createdAt).2.overflowed =
      m.overflowed := by
  have hclean := overflowed_cleanupExpired m now h
  unfold LockManager.tryLockCapitalWithTtl
  rcases acquireCapital_cases (m.cleanupExpired now) holder sol tokens ttl
    ((m.cleanupExpired now).buyReservesWsol sol tokens) createdAt with ⟨_, heq⟩ | ⟨haff, heq⟩
  · rw [heq, hclean]
  · rw [heq]
    exact (overflowed_takeCapital haff ttl createdAt).trans hclean

/-- With every bucket in range no operation overflows. -/
theorem overflowed_apply (m : LockManager) (op : LockOp) (h : m.Fits) :
    (op.apply m).overflowed = m.overflowed := by
  cases op with
  | tryLockCapital holder sol tokens now createdAt =>
      exact overflowed_tryLock m holder sol tokens none now createdAt h
  | tryLockCapitalWithTtl holder sol tokens ttl now createdAt =>
      exact overflowed_tryLock m holder sol tokens ttl now createdAt h
  | releaseLocks id => exact overflowed_release m id true h
  | releaseLocksAfterConfirmedSell id => exact overflowed_release m id false h
  | cleanupExpired now => exact overflowed_cleanupExpired m now h
  | renewCapitalLockTtl id ttl now =>
      show (m.renewCapitalLockTtl id ttl now).2.overflowed = m.overflowed
      unfold LockManager.renewCapitalLockTtl
      cases m.capitalLocks.lookup id with
      | none => rfl
      | some lock => by_cases hp : lock.phase = .preSend <;> simp only [hp] <;> rfl
  | promoteCapitalLockToInFlight id =>
      show (m.promoteCapitalLockToInFlight id).2.overflowed = m.overflowed
      unfold LockManager.promoteCapitalLockToInFlight promoteCapital
      cases m.capitalLocks.lookup id <;> rfl

theorem rejected_tryLock (m : LockManager) (holder : LockHolder) (sol : UInt64)
    (tokens : TokenMap) (ttl : Option Duration) (now createdAt : Instant)
    (h : (m.tryLockCapitalWithTtl holder sol tokens ttl now createdAt).1.isAcquired = false) :
    (m.tryLockCapitalWithTtl holder sol tokens ttl now createdAt).2 = m.cleanupExpired now := by
  unfold LockManager.tryLockCapitalWithTtl at h ⊢
  rcases acquireCapital_cases (m.cleanupExpired now) holder sol tokens ttl
    ((m.cleanupExpired now).buyReservesWsol sol tokens) createdAt with ⟨_, heq⟩ | ⟨haff, heq⟩
  · exact heq
  · rw [heq] at h
    cases h

/-- **An attempt that is not granted changes nothing beyond its expiry cleanup.** -/
theorem rejected_apply (m : LockManager) (op : LockOp) (r : LockResult) (m' : LockManager)
    (h : op.attempt m = some (r, m')) (hr : r.isAcquired = false) : op.apply m = m' := by
  cases op with
  | tryLockCapital holder sol tokens now createdAt =>
      cases h
      exact rejected_tryLock m holder sol tokens none now createdAt hr
  | tryLockCapitalWithTtl holder sol tokens ttl now createdAt =>
      cases h
      exact rejected_tryLock m holder sol tokens ttl now createdAt hr
  | _ => cases h

theorem inFlight_tryLock {m : LockManager} {id : IntentId} {lock : CapitalLock}
    (hl : m.capitalLocks.lookup id = some lock) (hp : lock.phase = .inFlight)
    (holder : LockHolder) (sol : UInt64) (tokens : TokenMap) (ttl : Option Duration)
    (now createdAt : Instant) :
    (m.tryLockCapitalWithTtl holder sol tokens ttl now createdAt).2.capitalLocks.lookup id =
      some lock := by
  have hclean := inFlight_cleanupExpired hl hp now
  unfold LockManager.tryLockCapitalWithTtl
  rcases acquireCapital_cases (m.cleanupExpired now) holder sol tokens ttl
    ((m.cleanupExpired now).buyReservesWsol sol tokens) createdAt with ⟨_, heq⟩ | ⟨haff, heq⟩
  · rw [heq, hclean]
  · obtain ⟨l, hcap, _⟩ := capitalLocks_takeCapital haff ttl createdAt
    have hne : id ≠ holder.intentId := by
      intro he
      exact haff.fresh (AList.lookup_isSome.mp (by rw [← he, hclean]; rfl))
    rw [heq]
    show (takeCapital _ _ _ _ _ _ _).capitalLocks.lookup id = _
    rw [hcap, AList.lookup_insert_ne hne, hclean]

theorem lookup_release_ne (m : LockManager) {id id' : IntentId} (h : id ≠ id') (rt : Bool) :
    (m.releaseCapitalLockRestoreTokens id' rt).capitalLocks.lookup id =
      m.capitalLocks.lookup id := by
  rw [capitalLocks_release, AList.lookup_erase_ne h]

/-- **A lock in flight is untouched by everything but a release that names its intent.** -/
theorem inFlight_apply (m : LockManager) (op : LockOp) (id : IntentId) (lock : CapitalLock)
    (hl : m.capitalLocks.lookup id = some lock) (hp : lock.phase = .inFlight)
    (hop : op.releases ≠ some id) : (op.apply m).capitalLocks.lookup id = some lock := by
  cases op with
  | tryLockCapital holder sol tokens now createdAt =>
      exact inFlight_tryLock hl hp holder sol tokens none now createdAt
  | tryLockCapitalWithTtl holder sol tokens ttl now createdAt =>
      exact inFlight_tryLock hl hp holder sol tokens ttl now createdAt
  | releaseLocks id' =>
      have hne : id ≠ id' := fun he => hop (by rw [he]; rfl)
      exact (lookup_release_ne m hne true).trans hl
  | releaseLocksAfterConfirmedSell id' =>
      have hne : id ≠ id' := fun he => hop (by rw [he]; rfl)
      exact (lookup_release_ne m hne false).trans hl
  | cleanupExpired now => exact inFlight_cleanupExpired hl hp now
  | renewCapitalLockTtl id' ttl now =>
      show (m.renewCapitalLockTtl id' ttl now).2.capitalLocks.lookup id = _
      unfold LockManager.renewCapitalLockTtl
      cases hl' : m.capitalLocks.lookup id' with
      | none => exact hl
      | some lock' =>
          by_cases hp' : lock'.phase = .preSend
          · have hne : id ≠ id' := by
              intro he
              rw [← he, hl] at hl'
              cases hl'
              rw [hp] at hp'
              cases hp'
            simp only [if_pos hp']
            exact (AList.lookup_insert_ne hne).trans hl
          · simp only [if_neg hp']
            exact hl
  | promoteCapitalLockToInFlight id' =>
      show (m.promoteCapitalLockToInFlight id').2.capitalLocks.lookup id = _
      unfold LockManager.promoteCapitalLockToInFlight promoteCapital
      cases hl' : m.capitalLocks.lookup id' with
      | none => exact hl
      | some lock' =>
          show (AList.insert id' { lock' with phase := .inFlight } m.capitalLocks).lookup id = _
          by_cases hid : id = id'
          · subst hid
            rw [hl] at hl'
            cases hl'
            rw [AList.lookup_insert, ← hp]
          · rw [AList.lookup_insert_ne hid, hl]

/-- **Every operation is lawful in every state whose totals are `u64`s.** -/
theorem lawful (m : LockManager) (op : LockOp) (h : m.Fits) : op.Lawful m where
  native := total_apply m op .native (h _)
  wsol := total_apply m op .wsol (h _)
  tokens mint := total_apply m op (.token mint) (h _)
  rejected := rejected_apply m op
  inFlight := inFlight_apply m op
  exact := overflowed_apply m op h

theorem fits_apply {m : LockManager} (op : LockOp) (h : m.Fits) : (op.apply m).Fits := by
  intro b
  have hb := h b
  have ht := total_apply m op b hb
  omega

/-! ## 3. Sequences -/

/-- The tokens of `mint` that the confirmed sells of a sequence take out for good. -/
def soldAlong (mint : Mint) : LockManager → List LockOp → Nat
  | _, [] => 0
  | m, op :: ops => op.soldTokens m mint + soldAlong mint (op.apply m) ops

theorem fits_along (ops : List LockOp) {m : LockManager} (h : m.Fits) :
    (Machine.foldSteps apply m ops).Fits := by
  induction ops generalizing m with
  | nil => exact h
  | cons op ops ih => exact ih (fits_apply op h)

/-- The totals after a sequence. -/
theorem total_along (ops : List LockOp) {m : LockManager} (h : m.Fits) :
    (Machine.foldSteps apply m ops).total .native = m.total .native ∧
      (Machine.foldSteps apply m ops).total .wsol = m.total .wsol ∧
      ∀ mint, (Machine.foldSteps apply m ops).total (.token mint) + soldAlong mint m ops =
        m.total (.token mint) := by
  induction ops generalizing m with
  | nil => exact ⟨rfl, rfl, fun mint => rfl⟩
  | cons op ops ih =>
      obtain ⟨hn, hw, ht⟩ := ih (fits_apply op h)
      refine ⟨hn.trans (total_apply m op .native (h _)), hw.trans (total_apply m op .wsol (h _)),
        fun mint => ?_⟩
      have hop := total_apply m op (.token mint) (h _)
      have hmint := ht mint
      rw [Machine.foldSteps_cons]
      show _ + (op.soldTokens m mint + soldAlong mint (op.apply m) ops) = _
      have hsold : op.sold m (.token mint) = op.soldTokens m mint := rfl
      omega

/-- **CAPITAL CONSERVATION (I-20).** From every state whose totals are `u64`s, after every
    sequence of operations at any clock readings: free and held amounts of native SOL, of WSOL
    and (less what confirmed sells took out) of every mint are what they were; nothing has
    overflowed; and the next operation, whichever it is, is lawful. -/
theorem capital_conservation (m : LockManager) (h : m.Fits) (ops : List LockOp) :
    let m' := Machine.foldSteps apply m ops
    m'.availableSol.toNat + m'.lockedNative = m.availableSol.toNat + m.lockedNative ∧
    m'.availableWsol.toNat + m'.lockedWsol = m.availableWsol.toNat + m.lockedWsol ∧
    (∀ mint, (m'.availableTokenBalance mint).toNat + m'.lockedTokens mint +
      soldAlong mint m ops = (m.availableTokenBalance mint).toNat + m.lockedTokens mint) ∧
    m'.overflowed = m.overflowed ∧
    ∀ op : LockOp, op.Lawful m' := by
  obtain ⟨hn, hw, ht⟩ := total_along ops h
  have hflag : ∀ ops : List LockOp, ∀ m : LockManager, m.Fits →
      (Machine.foldSteps apply m ops).overflowed = m.overflowed := by
    intro ops
    induction ops with
    | nil => exact fun m _ => rfl
    | cons op ops ih =>
        intro m h
        exact (ih _ (fits_apply op h)).trans (overflowed_apply m op h)
  exact ⟨hn, hw, ht, hflag ops m h, fun op => lawful _ op (fits_along ops h)⟩

/-- A sell of 40 out of 100, locked, sent, and confirmed. -/
def sellRun : List LockOp :=
  [tryLockCapital (.new "sell") 0 (AList.singleton "mint" 40) 0 0,
    promoteCapitalLockToInFlight "sell", cleanupExpired 1000000,
    releaseLocksAfterConfirmedSell "sell"]

/-- `capital_conservation` along that sell: 60 are free, 40 were sold. -/
theorem capital_conservation_sellRun :
    let m := (LockManager.new 10).setAvailableTokenBalance "mint" 100
    let m' := Machine.foldSteps apply m sellRun
    (m'.availableTokenBalance "mint").toNat + m'.lockedTokens "mint" + 40 = 100 ∧
      m'.overflowed = false := by
  have h := capital_conservation ((LockManager.new 10).setAvailableTokenBalance "mint" 100)
    (fits_of_no_locks rfl) sellRun
  exact ⟨h.2.2.1 "mint", h.2.2.2.1⟩

end LockOp

end IronCrab

/-
  File:      IronCrab/Storage/LockFrame.lean
  Subject:   WHAT AN OPERATION LEAVES ALONE: for each operation of the lock manager, the locks of
             the other intents, the pool locks and the processed intents after it.

  * `CapitalOnly` -- what an operation on capital leaves alone: pool locks, processed intents,
    close slots, fairness; `SameTables` -- what a refresh leaves alone as well;
  * `lookup_acquireCapital_ne`, `lookup_release_self`, `lookup_renew`, `lookup_promote` -- the
    capital locks, intent by intent;
  * `lookup_acquireResource`, `lookup_releaseResources` -- the pool locks, pool by pool.
-/
import IronCrab.Storage.Conservation

namespace IronCrab

namespace LockManager

/-! ## 1. What operations on capital leave alone -/

/-- The tables of `m'` that the capital locks and the free balances do not live in are those
    of `m`. -/
structure CapitalOnly (m m' : LockManager) : Prop where
  resourceLocks : m'.resourceLocks = m.resourceLocks
  processedIntents : m'.processedIntents = m.processedIntents
  tokenWalletAtaClearedAtSlot :
    m'.tokenWalletAtaClearedAtSlot = m.tokenWalletAtaClearedAtSlot
  fairness : m'.fairness = m.fairness

theorem CapitalOnly.refl (m : LockManager) : CapitalOnly m m := ⟨rfl, rfl, rfl, rfl⟩

theorem CapitalOnly.trans {m m' m'' : LockManager} (h : CapitalOnly m m')
    (h' : CapitalOnly m' m'') : CapitalOnly m m'' where
  resourceLocks := h'.resourceLocks.trans h.resourceLocks
  processedIntents := h'.processedIntents.trans h.processedIntents
  tokenWalletAtaClearedAtSlot :=
    h'.tokenWalletAtaClearedAtSlot.trans h.tokenWalletAtaClearedAtSlot
  fairness := h'.fairness.trans h.fairness

theorem capitalOnly_restoreLock (m : LockManager) (lock : CapitalLock) (rt : Bool) :
    CapitalOnly m (m.restoreLock lock rt) := by
  obtain ⟨t, o, h⟩ := sameButTokens_restoreLock m lock rt
  rw [h]
  unfold restoreLamports
  split <;> exact ⟨rfl, rfl, rfl, rfl⟩

theorem capitalOnly_release (m : LockManager) (id : IntentId) (rt : Bool) :
    CapitalOnly m (m.releaseCapitalLockRestoreTokens id rt) := by
  unfold releaseCapitalLockRestoreTokens
  cases m.capitalLocks.lookup id with
  | none => exact .refl m
  | some lock =>
      have herase : CapitalOnly m { m with capitalLocks := m.capitalLocks.erase id } :=
        ⟨rfl, rfl, rfl, rfl⟩
      exact herase.trans (capitalOnly_restoreLock _ lock rt)

theorem capitalOnly_releases (ks : List IntentId) (m : LockManager) :
    CapitalOnly m (ks.foldl (fun m k => m.releaseCapitalLockRestoreTokens k true) m) := by
  induction ks generalizing m with
  | nil => exact .refl m
  | cons k ks ih => exact (capitalOnly_release m k true).trans (ih _)

theorem capitalOnly_cleanupExpiredCapital (m : LockManager) (now : Instant) :
    CapitalOnly m (m.cleanupExpiredCapital now) := capitalOnly_releases _ m

theorem capitalOnly_takeCapital (m : LockManager) (holder : LockHolder) (sol : UInt64)
    (tokens : TokenMap) (ttl : Option Duration) (reservesWsol : Bool) (now : Instant) :
    CapitalOnly m (m.takeCapital holder sol tokens ttl reservesWsol now) := by
  obtain ⟨t, o, lock, h, _⟩ := takeCapital_eq m holder sol tokens reservesWsol ttl now
  rw [h]
  unfold debitLamports
  split
  · exact ⟨rfl, rfl, rfl, rfl⟩
  · split <;> exact ⟨rfl, rfl, rfl, rfl⟩

theorem capitalOnly_acquireCapital (m : LockManager) (holder : LockHolder) (sol : UInt64)
    (tokens : TokenMap) (ttl : Option Duration) (reservesWsol : Bool) (now : Instant) :
    CapitalOnly m (m.acquireCapital holder sol tokens ttl reservesWsol now).2 := by
  rcases acquireCapital_cases m holder sol tokens ttl reservesWsol now with ⟨_, h⟩ | ⟨_, h⟩
  · rw [h]
    exact .refl m
  · rw [h]
    exact capitalOnly_takeCapital m holder sol tokens ttl reservesWsol now

theorem capitalOnly_renew (m : LockManager) (id : IntentId) (ttl : Duration) (now : Instant) :
    CapitalOnly m (m.renewCapitalLockTtl id ttl now).2 := by
  unfold renewCapitalLockTtl
  cases m.capitalLocks.lookup id with
  | none => exact .refl m
  | some lock =>
      dsimp only
      split <;> exact ⟨rfl, rfl, rfl, rfl⟩

theorem capitalOnly_promote (m : LockManager) (id : IntentId) :
    CapitalOnly m (m.promoteCapital id).2 := by
  unfold promoteCapital
  cases m.capitalLocks.lookup id <;> exact ⟨rfl, rfl, rfl, rfl⟩

/-- The tables that neither an operation on capital nor a refresh touches. -/
structure SameTables (m m' : LockManager) : Prop where
  resourceLocks : m'.resourceLocks = m.resourceLocks
  processedIntents : m'.processedIntents = m.processedIntents

theorem CapitalOnly.sameTables {m m' : LockManager} (h : CapitalOnly m m') : SameTables m m' :=
  ⟨h.resourceLocks, h.processedIntents⟩

/-- What expiry leaves of the pool locks. -/
theorem lookup_resourceLocks_cleanupExpired (m : LockManager) (now : Instant) (r : ResourceId) :
    (m.cleanupExpired now).resourceLocks.lookup r =
      (m.resourceLocks.lookup r).filter fun l => !l.expired now := by
  have hsame := (m.capitalOnly_cleanupExpiredCapital now).resourceLocks
  show ((m.cleanupExpiredCapital now).resourceLocks.eraseAll
    ((m.cleanupExpiredCapital now).resourceLocks.keysWhere _)).lookup r = _
  rw [hsame, AList.lookup_eraseAll_keysWhere]

theorem clearedAtSlot_cleanupExpired (m : LockManager) (now : Instant) :
    (m.cleanupExpired now).tokenWalletAtaClearedAtSlot = m.tokenWalletAtaClearedAtSlot :=
  (m.capitalOnly_cleanupExpiredCapital now).tokenWalletAtaClearedAtSlot

theorem processedIntents_cleanupExpired (m : LockManager) (now : Instant) :
    (m.cleanupExpired now).processedIntents = m.processedIntents :=
  (m.capitalOnly_cleanupExpiredCapital now).processedIntents

theorem fairness_cleanupExpired (m : LockManager) (now : Instant) :
    (m.cleanupExpired now).fairness = m.fairness :=
  (m.capitalOnly_cleanupExpiredCapital now).fairness

/-! ## 2. Capital locks, intent by intent -/

/-- Another intent's attempt leaves the lock alone. -/
theorem lookup_acquireCapital_ne (m : LockManager) (holder : LockHolder) (sol : UInt64)
    (tokens : TokenMap) (ttl : Option Duration) (reservesWsol : Bool) (now : Instant)
    {id : IntentId} (h : holder.intentId ≠ id) :
    (m.acquireCapital holder sol tokens ttl reservesWsol now).2.capitalLocks.lookup id =
      m.capitalLocks.lookup id := by
  rcases acquireCapital_cases m holder sol tokens ttl reservesWsol now with ⟨_, heq⟩ | ⟨haff, heq⟩
  · rw [heq]
  · obtain ⟨lock, hlocks, _⟩ := capitalLocks_takeCapital haff ttl now
    rw [heq]
    show (m.takeCapital ..).capitalLocks.lookup id = _
    rw [hlocks, AList.lookup_insert_ne h.symm]

/-- A granted attempt leaves a lock. -/
theorem lookup_acquireCapital_self (m : LockManager) (holder : LockHolder) (sol : UInt64)
    (tokens : TokenMap) (ttl : Option Duration) (reservesWsol : Bool) (now : Instant)
    (h : (m.acquireCapital holder sol tokens ttl reservesWsol now).1.isAcquired = true) :
    ∃ lock, (m.acquireCapital holder sol tokens ttl reservesWsol now).2.capitalLocks.lookup
      holder.intentId = some lock := by
  rcases acquireCapital_cases m holder sol tokens ttl reservesWsol now with ⟨hno, _⟩ | ⟨haff, heq⟩
  · rw [h] at hno
    cases hno
  · obtain ⟨lock, hlocks, _⟩ := capitalLocks_takeCapital haff ttl now
    refine ⟨lock, ?_⟩
    rw [heq]
    show (m.takeCapital ..).capitalLocks.lookup _ = _
    rw [hlocks, AList.lookup_insert]

theorem lookup_release_self (m : LockManager) (id : IntentId) (rt : Bool) :
    (m.releaseCapitalLockRestoreTokens id rt).capitalLocks.lookup id = none := by
  rw [capitalLocks_release, AList.lookup_erase]

theorem lookup_renew_ne (m : LockManager) {id id' : IntentId} (h : id' ≠ id) (ttl : Duration)
    (now : Instant) :
    (m.renewCapitalLockTtl id' ttl now).2.capitalLocks.lookup id = m.capitalLocks.lookup id := by
  unfold renewCapitalLockTtl
  cases m.capitalLocks.lookup id' with
  | none => rfl
  | some lock =>
      dsimp only
      split
      · exact AList.lookup_insert_ne h.symm
      · rfl

/-- A renewal keeps the lock. -/
theorem isSome_renew (m : LockManager) (id : IntentId) (ttl : Duration) (now : Instant) :
    ((m.renewCapitalLockTtl id ttl now).2.capitalLocks.lookup id).isSome =
      (m.capitalLocks.lookup id).isSome := by
  unfold renewCapitalLockTtl
  cases hl : m.capitalLocks.lookup id with
  | none => simp [hl]
  | some lock =>
      dsimp only
      split
      · simp
      · simp [hl]

theorem lookup_promote_ne (m : LockManager) {id id' : IntentId} (h : id' ≠ id) :
    (m.promoteCapital id').2.capitalLocks.lookup id = m.capitalLocks.lookup id := by
  unfold promoteCapital
  cases m.capitalLocks.lookup id' with
  | none => rfl
  | some lock => exact AList.lookup_insert_ne h.symm

/-- A promotion keeps the lock. -/
theorem isSome_promote (m : LockManager) (id : IntentId) :
    ((m.promoteCapital id).2.capitalLocks.lookup id).isSome =
      (m.capitalLocks.lookup id).isSome := by
  unfold promoteCapital
  cases hl : m.capitalLocks.lookup id with
  | none => simp [hl]
  | some lock => simp

/-- A removed entry counts as zero. -/
theorem available_removeAvailableToken_le (m : LockManager) (mint : Mint) (b : Bucket) :
    (m.removeAvailableToken mint).available b ≤ m.available b := by
  cases b with
  | native => exact UInt64.le_refl _
  | wsol => exact UInt64.le_refl _
  | token k =>
      show Finmap.getOr 0 k (m.availableTokens.erase mint) ≤ Finmap.getOr 0 k m.availableTokens
      by_cases hk : k = mint
      · subst hk
        rw [Finmap.getOr_erase_self, UInt64.le_iff_toNat_le]
        exact Nat.zero_le _
      · rw [Finmap.getOr_erase_ne 0 hk]
        exact UInt64.le_refl _

/-! ## 3. Pool locks, pool by pool -/

theorem capitalLocks_acquireResource (m : LockManager) (holder : LockHolder) (r : ResourceId)
    (ty : ResourceType) (ttl : Option Duration) (nowStarved nowRecord now : Instant) :
    (m.acquireResource holder r ty ttl nowStarved nowRecord now).2.capitalLocks =
      m.capitalLocks := by
  unfold acquireResource
  cases m.resourceLocks.lookup r with
  | none => rfl
  | some existing =>
      dsimp only
      split
      · rfl
      · split
        · split <;> rfl
        · rfl

theorem processedIntents_acquireResource (m : LockManager) (holder : LockHolder) (r : ResourceId)
    (ty : ResourceType) (ttl : Option Duration) (nowStarved nowRecord now : Instant) :
    (m.acquireResource holder r ty ttl nowStarved nowRecord now).2.processedIntents =
      m.processedIntents := by
  unfold acquireResource
  cases m.resourceLocks.lookup r with
  | none => rfl
  | some existing =>
      dsimp only
      split
      · rfl
      · split
        · split <;> rfl
        · rfl

/-- **The two ways an attempt on a pool can end**: refused, with all pool locks as they were, or
    granted, with this pool locked for the holder. -/
theorem acquireResource_cases (m : LockManager) (holder : LockHolder) (r : ResourceId)
    (ty : ResourceType) (ttl : Option Duration) (nowStarved nowRecord now : Instant) :
    ((∃ other, (m.acquireResource holder r ty ttl nowStarved nowRecord now).1 = .conflict other) ∧
      (m.acquireResource holder r ty ttl nowStarved nowRecord now).2.resourceLocks =
        m.resourceLocks) ∨
    ((m.acquireResource holder r ty ttl nowStarved nowRecord now).1.isAcquired = true ∧
      (m.acquireResource holder r ty ttl nowStarved nowRecord now).2.resourceLocks =
        m.resourceLocks.insert r ⟨holder, r, ty, now, ttl.getD m.defaultTtl⟩) := by
  unfold acquireResource
  cases m.resourceLocks.lookup r with
  | none => exact .inr ⟨rfl, rfl⟩
  | some existing =>
      dsimp only
      split
      · exact .inr ⟨rfl, rfl⟩
      · split
        · split
          · exact .inl ⟨⟨_, rfl⟩, rfl⟩
          · exact .inr ⟨rfl, rfl⟩
        · exact .inl ⟨⟨_, rfl⟩, rfl⟩

/-- An attempt that beats the holder of a lock: a lower tier number, and the holder's source is
    not protected. -/
def Preempts (m : LockManager) (holder : LockHolder) (lock : ResourceLock)
    (nowStarved : Instant) : Prop :=
  holder.tier < lock.holder.tier ∧
    m.fairness.shouldBlockPreemption (lock.holder.source.getD "unknown") nowStarved = false

/-- Another intent's attempt on a locked pool that does not preempt is refused. -/
theorem acquireResource_refused {m : LockManager} {holder : LockHolder} {r : ResourceId}
    {lock : ResourceLock} {nowStarved : Instant} (hl : m.resourceLocks.lookup r = some lock)
    (hid : lock.holder.intentId ≠ holder.intentId) (hno : ¬ m.Preempts holder lock nowStarved)
    (ty : ResourceType) (ttl : Option Duration) (nowRecord now : Instant) :
    (m.acquireResource holder r ty ttl nowStarved nowRecord now).2 = m := by
  unfold acquireResource
  rw [hl]
  dsimp only
  rw [if_neg hid]
  split
  · next htier =>
      cases hblock : m.fairness.shouldBlockPreemption (lock.holder.source.getD "unknown")
          nowStarved with
      | true => rfl
      | false => exact absurd ⟨htier, hblock⟩ hno
  · rfl

/-- The pool locks of an intent are gone after its release. -/
theorem lookup_releaseResources (m : LockManager) (id : IntentId) (r : ResourceId) :
    (m.releaseResourceLocksForIntent id).resourceLocks.lookup r =
      (m.resourceLocks.lookup r).filter fun l => !decide (l.holder.intentId = id) :=
  AList.lookup_eraseAll_keysWhere _ _ _

end LockManager

end IronCrab

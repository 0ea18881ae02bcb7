/-
  File:      IronCrab/Cache/LivePoolCache.lean
  Subject:   THE LIVE POOL CACHE (`live_pool_cache.rs`): the pool rows, the vault index, and the
             operations that write them.

  `upsert` reads and merges under one guard of `pools` and writes under another; the two are
  `prepareEntry` and `storeEntry`. Run by itself it finds at the second guard what it read at the
  first, and is one write: `upsert_eq`. Every operation is described by what it does to the row of
  each pool and to the index entry of each vault:

  * `upsert_eq`, `lookup_registerVaults` -- an upsert stores one row and maps its two vaults to it;
  * `lookup_updateVaultBalance` -- a balance update changes at most the row that the index names;
  * `lookup_evictStale` -- an eviction leaves the rows that are not stale;
  * `setPumpAmmPoolAccountsAtSlot_eq` -- the account list is written to the row that is ensured.

  `slot` is the slot of the last material change of a row, `last_seen_slot` the greatest slot an
  upsert brought. Time is the `now` of the operation. Counters and the vault watch channel have no
  part in a row and are left out.
-/
import IronCrab.Cache.PoolState
import IronCrab.Lib.Table

namespace IronCrab.Cache

open Track (Pubkey)

/-! ## 1. The cache -/

/-- What the code takes from elsewhere: the default hasher, `pump_amm_canonical_global_config`
    and `pump_amm_canonical_event_authority_pub`. -/
structure Ambient where
  finish : List HashWrite → Nat
  globalConfig : Pubkey
  eventAuthority : Pubkey

/-- An ambient whose hasher weighs the written values. -/
def Ambient.weighing : Ambient where
  finish := fun ws => ws.foldl (fun h w => match w with
    | .opt none => 31 * h
    | .opt (some v) => 31 * h + v + 1
    | .u64 v => 31 * h + v
    | .i32 v => 31 * h + v.toNat
    | .u16 v => 31 * h + v
    | .bool v => 31 * h + v.toNat) 7
  globalConfig := 101
  eventAuthority := 102

/-- `CacheEntry`. -/
structure CacheEntry where
  state : CachedPoolState
  slot : Nat
  updatedAt : Nat
  lastSeenSlot : Nat
  deriving DecidableEq

/-- `CacheEntry::new`. -/
def CacheEntry.new (state : CachedPoolState) (slot now : Nat) : CacheEntry :=
  { state, slot, updatedAt := now, lastSeenSlot := slot }

/-- `is_stale`. -/
def CacheEntry.isStale (entry : CacheEntry) (maxAgeMs now : Nat) : Bool :=
  decide (maxAgeMs < now - entry.updatedAt)

/-- `pools`. -/
abbrev PoolMap := AList fun _ : Pubkey => CacheEntry

/-- `vault_to_pool`. -/
abbrev VaultIndex := AList fun _ : Pubkey => Pubkey × VaultPosition

/-- `LivePoolCache`: the rows and what their writes read. -/
structure LivePoolCache where
  pools : PoolMap
  vaultToPool : VaultIndex
  mintPrograms : AList fun _ : Pubkey => Pubkey
  maxAgeMs : Nat

/-- `SetPumpAmmPoolAccountsResult`. -/
inductive SetPumpAmmPoolAccountsResult where
  | written
  | missIncompleteAccounts
  | missNoCacheEntry
  deriving DecidableEq

namespace LivePoolCache

/-- `LivePoolCache::with_max_age_ms`. -/
def withMaxAgeMs (maxAgeMs : Nat) : LivePoolCache := ⟨∅, ∅, ∅, maxAgeMs⟩

/-- `LivePoolCache::new`. -/
def new : LivePoolCache := withMaxAgeMs 10000

/-- `get_mint_program`. -/
def getMintProgram (c : LivePoolCache) (mint : Pubkey) : Option Pubkey := c.mintPrograms.lookup mint

/-! ## 2. Upsert -/

/-- The token programs of an Orca row that are known by mint. -/
def fillTokenPrograms (c : LivePoolCache) : CachedPoolState → CachedPoolState
  | .orca o => .orca { o with
      tokenAProgram := orExisting o.tokenAProgram (c.getMintProgram o.tokenMintA)
      tokenBProgram := orExisting o.tokenBProgram (c.getMintProgram o.tokenMintB) }
  | state => state

/-- The slot is behind what the row has seen. -/
def BehindSeen (slot : Nat) (prev : CacheEntry) : Prop := 0 < slot ∧ slot < prev.lastSeenSlot

instance (slot : Nat) (prev : CacheEntry) : Decidable (BehindSeen slot prev) :=
  inferInstanceAs (Decidable (_ ∧ _))

/-- The entry of a state merged over a present row. -/
def mergeEntry (env : Ambient) (prev : CacheEntry) (state : CachedPoolState) (slot now : Nat) :
    CacheEntry :=
  let merged := mergeAccountParsePreservesExisting prev.state state slot
  let refreshAge := poolStateHasReserveBasis merged
  let newFingerprint := poolStateMaterialFingerprint env.finish merged
  let materialChanged := newFingerprint ≠ poolStateMaterialFingerprint env.finish prev.state
  { state := merged
    slot := if slot = 0 then prev.slot else if materialChanged then slot else prev.slot
    updatedAt := if refreshAge = true ∧ materialChanged then now else prev.updatedAt
    lastSeenSlot := if 0 < slot then max prev.lastSeenSlot slot else prev.lastSeenSlot }

/-- The first guard: `entry_to_store` and `prepared_as_insert`, unless the slot is stale. -/
def prepareEntry (env : Ambient) (pools : PoolMap) (pool : Pubkey) (state : CachedPoolState)
    (slot now : Nat) : Option (CacheEntry × Bool) :=
  match pools.lookup pool with
  | some prev =>
      if BehindSeen slot prev then none else some (mergeEntry env prev state slot now, false)
  | none => some (.new state (if slot = 0 then 0 else slot) now, true)

/-- `register_vaults`. -/
def registerVaults (index : VaultIndex) (pool : Pubkey) (state : CachedPoolState) : VaultIndex :=
  match state.vaultPair with
  | some (vaultA, vaultB) => (index.insert vaultA (pool, .a)).insert vaultB (pool, .b)
  | none => index

/-- The second guard. -/
def storeEntry (env : Ambient) (pools : PoolMap) (pool : Pubkey) (entryToStore : CacheEntry)
    (preparedAsInsert : Bool) (slot now : Nat) : PoolMap × Bool :=
  match pools.lookup pool with
  | none => (pools.insert pool entryToStore, true)
  | some prev =>
      if BehindSeen slot prev then (pools, false)
      else
        let entry := if preparedAsInsert then mergeEntry env prev entryToStore.state slot now
          else entryToStore
        (pools.insert pool entry, true)

/-- `upsert`. -/
def upsert (env : Ambient) (c : LivePoolCache) (pool : Pubkey) (state : CachedPoolState)
    (slot now : Nat) : LivePoolCache × Bool :=
  match prepareEntry env c.pools pool (c.fillTokenPrograms state) slot now with
  | none => (c, false)
  | some (entryToStore, preparedAsInsert) =>
      let index := registerVaults c.vaultToPool pool entryToStore.state
      let stored := storeEntry env c.pools pool entryToStore preparedAsInsert slot now
      ({ c with vaultToPool := index, pools := stored.1 }, stored.2)

/-! ## 3. The other writers -/

/-- `remove`. -/
def remove (c : LivePoolCache) (pool : Pubkey) : LivePoolCache × Bool :=
  match c.pools.lookup pool with
  | some entry =>
      ({ c with
        pools := c.pools.erase pool
        vaultToPool := c.vaultToPool.eraseAll (vaultPubkeysForPoolState entry.state) }, true)
  | none => (c, false)

/-- `touch_freshness_on_existing_reserve_basis`. -/
def touchFreshnessOnExistingReserveBasis (c : LivePoolCache) (pool : Pubkey) (now : Nat) :
    LivePoolCache × Bool :=
  match c.pools.lookup pool with
  | some entry =>
      if poolStateHasReserveBasis entry.state then
        ({ c with pools := c.pools.insert pool { entry with updatedAt := now } }, true)
      else (c, false)
  | none => (c, false)

/-- What `update_vault_balance` makes of the entry it finds, if it writes it. -/
def tickEntry (entry : CacheEntry) (position : VaultPosition) (balance slot now : Nat) :
    Option CacheEntry :=
  if balanceChanged entry.state position balance then
    if 0 < slot ∧ slot < entry.slot then none
    else some { entry with
      state := writeBalance entry.state position balance
      slot := if 0 < slot then slot else entry.slot
      updatedAt := now }
  else none

/-- The second guard of `update_vault_balance`. -/
def tickPools (pools : PoolMap) (pool : Pubkey) (position : VaultPosition)
    (balance slot now : Nat) : PoolMap :=
  match pools.lookup pool with
  | none => pools
  | some entry =>
      match tickEntry entry position balance slot now with
      | none => pools
      | some entry' => pools.insert pool entry'

/-- `update_vault_balance`. -/
def updateVaultBalance (c : LivePoolCache) (vault : Pubkey) (balance slot now : Nat) :
    LivePoolCache :=
  match c.vaultToPool.lookup vault with
  | none => c
  | some (poolAddr, position) =>
      { c with pools := tickPools c.pools poolAddr position balance slot now }

/-- `evict_stale`. -/
def evictStale (c : LivePoolCache) (now : Nat) : LivePoolCache × Nat :=
  let pools := c.pools.eraseAll (c.pools.keysWhere fun entry => entry.isStale c.maxAgeMs now)
  ({ c with pools }, c.pools.entries.length - pools.entries.length)

/-! ## 4. The account list of a PumpAmm row -/

/-- `pump_amm_layer_c_complete`. -/
def pumpAmmLayerCComplete (pool : Pubkey) (accounts : List Pubkey) : Bool :=
  decide (14 ≤ accounts.length) && decide (accounts.head? = some pool)

/-- `pump_amm_normalize_v14_pool_accounts`: the list and whether a slot was replaced. -/
def pumpAmmNormalizeV14PoolAccounts (env : Ambient) (accounts : List Pubkey) :
    List Pubkey × Bool :=
  if accounts.length < 14 then (accounts, false)
  else ((accounts.set 1 env.globalConfig).set 8 env.eventAuthority,
    decide (accounts[1]? ≠ some env.globalConfig ∨ accounts[8]? ≠ some env.eventAuthority))

/-- `accounts.get(i).copied().filter(|p| *p != Pubkey::default())`. -/
def knownAccount (accounts : List Pubkey) (i : Nat) : Option Pubkey :=
  accounts[i]?.filter fun p => decide (p ≠ Pubkey.default)

/-- The layout that `ensure_pump_amm_tx_layout_from_accounts` seeds. -/
def pumpAmmTxLayout (accounts : List Pubkey) : Option CachedPoolState :=
  (knownAccount accounts 2).bind fun baseMint =>
    (knownAccount accounts 3).bind fun quoteMint =>
      (knownAccount accounts 4).bind fun baseVault =>
        (knownAccount accounts 5).map fun quoteVault =>
          pumpAmmTxLayoutSeed baseMint quoteMint baseVault quoteVault

/-- `ensure_pump_amm_tx_layout_from_accounts`. -/
def ensurePumpAmmTxLayoutFromAccounts (env : Ambient) (c : LivePoolCache) (pool : Pubkey)
    (accounts : List Pubkey) (slot now : Nat) : LivePoolCache × Bool :=
  if (c.pools.lookup pool).isSome then (c, true)
  else
    match pumpAmmTxLayout accounts with
    | none => (c, false)
    | some seed => ((c.upsert env pool seed slot now).1, true)

/-- The entry with the account list written, when it is a PumpAmm row. -/
def accountsEntry (entry : CacheEntry) (accounts : List Pubkey) : Option CacheEntry :=
  match entry.state with
  | .pumpAmm s => some { entry with state := .pumpAmm { s with poolAccounts := accounts } }
  | _ => none

/-- The last guard of `set_pump_amm_pool_accounts_at_slot`. -/
def writeAccounts (pools : PoolMap) (pool : Pubkey) (accounts : List Pubkey) :
    PoolMap × SetPumpAmmPoolAccountsResult :=
  match (pools.lookup pool).bind fun entry => accountsEntry entry accounts with
  | some entry => (pools.insert pool entry, .written)
  | none => (pools, .missNoCacheEntry)

/-- `set_pump_amm_pool_accounts_at_slot`. -/
def setPumpAmmPoolAccountsAtSlot (env : Ambient) (c : LivePoolCache) (pool : Pubkey)
    (accounts : List Pubkey) (slot now : Nat) : LivePoolCache × SetPumpAmmPoolAccountsResult :=
  if pumpAmmLayerCComplete pool accounts then
    let accounts := (pumpAmmNormalizeV14PoolAccounts env accounts).1
    let ensured := if (c.pools.lookup pool).isSome then (c, true)
      else c.ensurePumpAmmTxLayoutFromAccounts env pool accounts slot now
    if ensured.2 then
      let written := writeAccounts ensured.1.pools pool accounts
      ({ ensured.1 with pools := written.1 }, written.2)
    else (ensured.1, .missNoCacheEntry)
  else (c, .missIncompleteAccounts)

/-! ## 5. What the operations do to a row and to an index entry -/

variable {env : Ambient} {c : LivePoolCache}

theorem reported_fillTokenPrograms (c : LivePoolCache) (state : CachedPoolState)
    (pos : VaultPosition) : (c.fillTokenPrograms state).reported pos = state.reported pos := by
  cases state <;> rfl

theorem dexName_fillTokenPrograms (c : LivePoolCache) (state : CachedPoolState) :
    (c.fillTokenPrograms state).dexName = state.dexName := by
  cases state <;> rfl

/-- The row that an upsert stores. -/
def storedEntry (env : Ambient) (c : LivePoolCache) (pool : Pubkey) (state : CachedPoolState)
    (slot now : Nat) : Option CacheEntry :=
  (prepareEntry env c.pools pool (c.fillTokenPrograms state) slot now).map Prod.fst

/-- **An upsert by itself is one write of a row and of its index entries.** -/
theorem upsert_eq (pool : Pubkey) (state : CachedPoolState) (slot now : Nat) :
    c.upsert env pool state slot now = match storedEntry env c pool state slot now with
      | none => (c, false)
      | some entry => ({ c with
          pools := c.pools.insert pool entry
          vaultToPool := registerVaults c.vaultToPool pool entry.state }, true) := by
  unfold upsert storedEntry prepareEntry
  cases hl : c.pools.lookup pool with
  | none =>
      dsimp only
      unfold storeEntry
      rw [hl]
      rfl
  | some prev =>
      dsimp only
      by_cases hb : BehindSeen slot prev
      · rw [if_pos hb]
        rfl
      · rw [if_neg hb]
        dsimp only
        unfold storeEntry
        rw [hl]
        dsimp only
        rw [if_neg hb]
        rfl

theorem storedEntry_of_none {pool : Pubkey} (h : c.pools.lookup pool = none)
    (state : CachedPoolState) (slot now : Nat) :
    storedEntry env c pool state slot now = some (.new (c.fillTokenPrograms state) slot now) := by
  unfold storedEntry prepareEntry
  rw [h]
  by_cases hs : slot = 0
  · subst hs
    rfl
  · dsimp only
    rw [if_neg hs]
    rfl

theorem storedEntry_of_some {pool : Pubkey} {prev : CacheEntry}
    (h : c.pools.lookup pool = some prev) (state : CachedPoolState) (slot now : Nat) :
    storedEntry env c pool state slot now =
      if BehindSeen slot prev then none
      else some (mergeEntry env prev (c.fillTokenPrograms state) slot now) := by
  unfold storedEntry prepareEntry
  rw [h]
  dsimp only
  split_ifs <;> rfl

/-- What an upsert does to the row of a pool. -/
theorem lookup_upsert (pool q : Pubkey) (state : CachedPoolState) (slot now : Nat) :
    (c.upsert env pool state slot now).1.pools.lookup q =
      if q = pool then (storedEntry env c pool state slot now).or (c.pools.lookup q)
      else c.pools.lookup q := by
  rw [upsert_eq]
  cases storedEntry env c pool state slot now with
  | none => simp
  | some entry =>
      by_cases hq : q = pool
      · subst hq
        simp
      · simp [hq, AList.lookup_insert_ne hq]

/-- **What registering a row does to the index entry of a vault.** -/
theorem lookup_registerVaults (index : VaultIndex) (pool : Pubkey) (state : CachedPoolState)
    (vault : Pubkey) :
    (registerVaults index pool state).lookup vault = match state.vaultPair with
      | some (vaultA, vaultB) =>
          if vault = vaultB then some (pool, .b)
          else if vault = vaultA then some (pool, .a)
          else index.lookup vault
      | none => index.lookup vault := by
  unfold registerVaults
  cases state.vaultPair with
  | none => rfl
  | some pair =>
      obtain ⟨vaultA, vaultB⟩ := pair
      dsimp only
      by_cases hB : vault = vaultB
      · subst hB
        rw [if_pos rfl, AList.lookup_insert]
      · rw [if_neg hB, AList.lookup_insert_ne hB]
        by_cases hA : vault = vaultA
        · subst hA
          rw [if_pos rfl, AList.lookup_insert]
        · rw [if_neg hA, AList.lookup_insert_ne hA]

/-- A write of a balance happens only to a row with vaults. -/
theorem tickEntry_eq_some {entry entry' : CacheEntry} {position : VaultPosition}
    {balance slot now : Nat} :
    tickEntry entry position balance slot now = some entry' ↔
      (entry.state.vaultPair.isSome = true ∧ entry.state.sideBalance position ≠ some balance) ∧
      ¬ (0 < slot ∧ slot < entry.slot) ∧
      entry' = { entry with
        state := writeBalance entry.state position balance
        slot := if 0 < slot then slot else entry.slot
        updatedAt := now } := by
  unfold tickEntry
  by_cases hb : balanceChanged entry.state position balance = true
  · rw [if_pos hb]
    by_cases hs : 0 < slot ∧ slot < entry.slot
    · rw [if_pos hs]
      exact ⟨fun h => (nomatch h), fun h => absurd hs h.2.1⟩
    · rw [if_neg hs]
      exact ⟨fun h => ⟨CachedPoolState.balanceChanged_iff.mp hb, hs, (Option.some.inj h).symm⟩,
        fun h => by rw [h.2.2]⟩
  · rw [if_neg hb]
    exact ⟨fun h => (nomatch h), fun h => absurd (CachedPoolState.balanceChanged_iff.mpr h.1) hb⟩

theorem tickEntry_eq_none {entry : CacheEntry} {position : VaultPosition}
    {balance slot now : Nat} :
    tickEntry entry position balance slot now = none ↔
      (entry.state.vaultPair.isSome = true → entry.state.sideBalance position = some balance) ∨
      (0 < slot ∧ slot < entry.slot) := by
  have hch := @CachedPoolState.balanceChanged_iff entry.state position balance
  unfold tickEntry
  by_cases hb : balanceChanged entry.state position balance = true
  · have hne := hch.mp hb
    rw [if_pos hb]
    by_cases hs : 0 < slot ∧ slot < entry.slot
    · rw [if_pos hs]
      exact ⟨fun _ => .inr hs, fun _ => rfl⟩
    · rw [if_neg hs]
      refine ⟨fun h => (nomatch h), fun h => ?_⟩
      rcases h with h | h
      · exact absurd (h hne.1) hne.2
      · exact absurd h hs
  · rw [if_neg hb]
    refine ⟨fun _ => .inl fun hp => ?_, fun _ => rfl⟩
    exact Classical.byContradiction fun hne => hb (hch.mpr ⟨hp, hne⟩)

/-- What a write of a balance does to the row of a pool. -/
theorem lookup_tickPools (pools : PoolMap) (pool q : Pubkey) (position : VaultPosition)
    (balance slot now : Nat) :
    (tickPools pools pool position balance slot now).lookup q =
      if q = pool then
        (pools.lookup q).map fun entry =>
          (tickEntry entry position balance slot now).getD entry
      else pools.lookup q := by
  unfold tickPools
  by_cases hq : q = pool
  · subst hq
    rw [if_pos rfl]
    cases hl : pools.lookup q with
    | none => exact hl
    | some entry =>
        dsimp only
        cases ht : tickEntry entry position balance slot now with
        | none =>
            dsimp only
            rw [hl, Option.map_some, ht]
            rfl
        | some entry' =>
            dsimp only
            rw [AList.lookup_insert, Option.map_some, ht]
            rfl
  · rw [if_neg hq]
    split
    · rfl
    · split
      · rfl
      · exact AList.lookup_insert_ne hq

/-- **A balance update changes at most the row that the index names.** -/
theorem lookup_updateVaultBalance (vault q : Pubkey) (balance slot now : Nat) :
    (c.updateVaultBalance vault balance slot now).pools.lookup q =
      match c.vaultToPool.lookup vault with
      | some (pool, position) =>
          if q = pool then
            (c.pools.lookup q).map fun entry =>
              (tickEntry entry position balance slot now).getD entry
          else c.pools.lookup q
      | none => c.pools.lookup q := by
  unfold updateVaultBalance
  cases c.vaultToPool.lookup vault with
  | none => rfl
  | some target => exact lookup_tickPools _ _ _ _ _ _ _

theorem updateVaultBalance_vaultToPool (vault : Pubkey) (balance slot now : Nat) :
    (c.updateVaultBalance vault balance slot now).vaultToPool = c.vaultToPool := by
  unfold updateVaultBalance
  split <;> rfl

/-- The rows that an eviction leaves. -/
theorem lookup_evictStale (now : Nat) (q : Pubkey) :
    (c.evictStale now).1.pools.lookup q =
      (c.pools.lookup q).filter fun entry => !entry.isStale c.maxAgeMs now :=
  AList.lookup_eraseAll_keysWhere _ _ _

theorem fillTokenPrograms_pumpAmmTxLayout {accounts : List Pubkey} {seed : CachedPoolState}
    (h : pumpAmmTxLayout accounts = some seed) (c : LivePoolCache) :
    c.fillTokenPrograms seed = seed := by
  unfold pumpAmmTxLayout at h
  obtain ⟨_, _, h⟩ := Option.bind_eq_some_iff.mp h
  obtain ⟨_, _, h⟩ := Option.bind_eq_some_iff.mp h
  obtain ⟨_, _, h⟩ := Option.bind_eq_some_iff.mp h
  obtain ⟨_, _, rfl⟩ := Option.map_eq_some_iff.mp h
  rfl

/-- The two tests for the row are one: the list is written to the row that is ensured. -/
theorem setPumpAmmPoolAccountsAtSlot_eq (pool : Pubkey) (accounts : List Pubkey)
    (slot now : Nat) :
    c.setPumpAmmPoolAccountsAtSlot env pool accounts slot now =
      if pumpAmmLayerCComplete pool accounts then
        let accounts := (pumpAmmNormalizeV14PoolAccounts env accounts).1
        let ensured := c.ensurePumpAmmTxLayoutFromAccounts env pool accounts slot now
        if ensured.2 then
          ({ ensured.1 with pools := (writeAccounts ensured.1.pools pool accounts).1 },
            (writeAccounts ensured.1.pools pool accounts).2)
        else (ensured.1, .missNoCacheEntry)
      else (c, .missIncompleteAccounts) := by
  have hens : (if (c.pools.lookup pool).isSome then (c, true)
      else c.ensurePumpAmmTxLayoutFromAccounts env pool
        (pumpAmmNormalizeV14PoolAccounts env accounts).1 slot now) =
      c.ensurePumpAmmTxLayoutFromAccounts env pool
        (pumpAmmNormalizeV14PoolAccounts env accounts).1 slot now := by
    by_cases hrow : (c.pools.lookup pool).isSome = true
    · rw [if_pos hrow]
      exact (if_pos hrow).symm
    · rw [if_neg hrow]
  unfold setPumpAmmPoolAccountsAtSlot
  dsimp only
  rw [hens]

end LivePoolCache

end IronCrab.Cache

/-
  File:      IronCrab/Cache/PoolCacheSync.lean
  Subject:   THE SLAVE CACHE (`pool_cache_sync.rs`): how a pool cache update is applied.

  A message is turned into a whole row, the row is patched with what the stored row knows, and the
  result goes through `upsert`, which patches once more. The patches differ by DEX and by kind of
  message:

  * `mergeDiscovered`, `keepDlmmStructure` -- for `PoolDiscovered`;
  * `mergedReserves` before the row is built, `balanceOver` after it -- for `BalanceUpdated`.

  Beside the row a message writes the side maps (`PoolSides.mergeUpdate`) and the decimals.
-/
import IronCrab.Cache.SideMaps

namespace IronCrab.Cache

open Track (Pubkey)

/-! ## 1. The cache of a consumer -/

/-- `PoolCacheApplyOutcome`. -/
inductive PoolCacheApplyOutcome where
  | applied
  | skippedRestoredDex
  | skippedNoOp
  | rejectedStaleSlot
  | rejectedBuildNone
  | rejectedUnsupportedDex
  | rejectedInvalidPoolAddress
  deriving DecidableEq

/-- A `LivePoolCache` with the maps that only messages write. -/
structure SlaveCache extends LivePoolCache where
  mintDecimals : AList fun _ : Pubkey => Nat
  sides : Pubkey → PoolSides

/-- An empty cache. -/
def SlaveCache.new : SlaveCache := { LivePoolCache.new with mintDecimals := ∅, sides := fun _ => .empty }

/-- A reserve that a message reports, or the one that was known; 0 is none. -/
def mergeLeg (incoming existing : Nat) : Nat := if 0 < incoming then incoming else existing

/-- A vault that is filled in where there is none. -/
def fillDefault (incoming other : Pubkey) : Pubkey :=
  if incoming = Pubkey.default then other else incoming

/-! ## 2. Patches of a discovered pool -/

/-- The `match` over the stored and the new row. -/
def mergeDiscovered : CachedPoolState → CachedPoolState → CachedPoolState
  | .pumpAmm ex, .pumpAmm inc => .pumpAmm { inc with
      poolAccounts := if inc.poolAccounts.isEmpty && !ex.poolAccounts.isEmpty then ex.poolAccounts
        else inc.poolAccounts
      creator := orExisting inc.creator ex.creator
      baseReserve := some (mergeLeg (inc.baseReserve.getD 0) (ex.baseReserve.getD 0))
      quoteReserve := some (mergeLeg (inc.quoteReserve.getD 0) (ex.quoteReserve.getD 0)) }
  | .orca ex, .orca inc => .orca { inc with
      vaultABalance := some (mergeLeg (inc.vaultABalance.getD 0) (ex.vaultABalance.getD 0))
      vaultBBalance := some (mergeLeg (inc.vaultBBalance.getD 0) (ex.vaultBBalance.getD 0)) }
  | .raydiumCpmm ex, .raydiumCpmm inc => .raydiumCpmm { inc with
      reserve0 := some (mergeLeg (inc.reserve0.getD 0) (ex.reserve0.getD 0))
      reserve1 := some (mergeLeg (inc.reserve1.getD 0) (ex.reserve1.getD 0)) }
  | .meteora ex, .meteora inc => .meteora { inc with
      reserveXBalance := some (mergeLeg (inc.reserveXBalance.getD 0) (ex.reserveXBalance.getD 0))
      reserveYBalance := some (mergeLeg (inc.reserveYBalance.getD 0) (ex.reserveYBalance.getD 0)) }
  | _, new => new

/-- The vaults of a `raydium_cpmm` message. -/
def writeRaydiumCpmmVaults (u : PoolCacheUpdate) : CachedPoolState → CachedPoolState
  | .raydiumCpmm new =>
      match u.pairAt .raydiumCpmmVaults with
      | some (v0, v1) => .raydiumCpmm { new with token0Vault := v0, token1Vault := v1 }
      | none => .raydiumCpmm new
  | new => new

/-- The structural fields of a DLMM row that the message does not carry. -/
def keepDlmmStructure (u : PoolCacheUpdate) : CachedPoolState → CachedPoolState → CachedPoolState
  | .meteora ex, .meteora new => .meteora { new with
      reserveX := preserveLayoutPubkey new.reserveX ex.reserveX
      reserveY := preserveLayoutPubkey new.reserveY ex.reserveY
      activeId := if (u.get .meteoraDlmmActiveId).isNone then ex.activeId else new.activeId
      binStep := if (u.get .meteoraDlmmBinStep).isNone then ex.binStep else new.binStep }
  | _, new => new

/-- The row of a `PoolDiscovered` message, over the stored one. -/
def discoveredOver (u : PoolCacheUpdate) (existing : Option CachedPoolState)
    (minimal : CachedPoolState) : CachedPoolState :=
  match existing with
  | some ex => keepDlmmStructure u ex (writeRaydiumCpmmVaults u (mergeDiscovered ex minimal))
  | none => writeRaydiumCpmmVaults u minimal

/-! ## 3. Patches of a balance update -/

/-- The reserves of a `BalanceUpdated` message, those it does not report from the stored row. -/
def mergedReserves (u : PoolCacheUpdate) : Option CachedPoolState → Nat × Nat
  | some ex => (mergeLeg u.baseReserve (extractReserves ex).1,
      mergeLeg u.quoteReserve (extractReserves ex).2)
  | none => (u.baseReserve, u.quoteReserve)

/-- A balance by the mint of its side. -/
def balanceOfMint {A : Type} (mint baseMint quoteMint : Pubkey) (base quote other : A) : A :=
  if mint = baseMint then base else if mint = quoteMint then quote else other

section BalanceOver

variable (u : PoolCacheUpdate) (baseMint quoteMint : Pubkey) (base quote : Nat)

/-- `pump_amm`. -/
def balanceOverPumpAmm (ex new : PumpAmmState) : PumpAmmState :=
  { new with
    poolAccounts := if new.poolAccounts.isEmpty && !ex.poolAccounts.isEmpty then ex.poolAccounts
      else new.poolAccounts
    creator := orExisting new.creator ex.creator }

/-- `pumpfun`. -/
def balanceOverPumpFun (ex new : PumpFunState) : PumpFunState :=
  { new with
    cashbackEnabled := if (u.get .cashbackEnabled).isNone then ex.cashbackEnabled
      else new.cashbackEnabled }

/-- `raydium_cpmm`: the stored vaults when both are known, else those of the metadata. -/
def balanceOverRaydiumCpmm (ex : Option RaydiumCpmmState) (new : RaydiumCpmmState) :
    RaydiumCpmmState :=
  let fromExisting := ex.bind fun s =>
    if s.token0Vault ≠ Pubkey.default ∧ s.token1Vault ≠ Pubkey.default then
      some (s.token0Vault, s.token1Vault)
    else none
  match fromExisting.or (u.pairAt .raydiumCpmmVaults) with
  | some (v0, v1) => { new with
      token0Vault := fillDefault new.token0Vault v0
      token1Vault := fillDefault new.token1Vault v1 }
  | none => new

/-- The mints of a stored Meteora CPMM row, and the reserves on their sides. -/
def keepMeteoraCpmmMints (ex new : MeteoraCpmmState) : MeteoraCpmmState :=
  if (u.get .meteoraCpmmOnchainMints).isSome then new
  else { new with
    token0Mint := ex.token0Mint
    token1Mint := ex.token1Mint
    reserve0 := balanceOfMint ex.token0Mint baseMint quoteMint base quote new.reserve0
    reserve1 := balanceOfMint ex.token1Mint baseMint quoteMint base quote new.reserve1 }

/-- The vaults of a Meteora CPMM row: stored ones stay on their sides, those of the metadata go by
    mint. -/
def fillMeteoraCpmmVaults (ex : Option MeteoraCpmmState) (new : MeteoraCpmmState) :
    MeteoraCpmmState :=
  let fromExisting := ex.bind fun s =>
    if s.token0Vault ≠ Pubkey.default ∧ s.token1Vault ≠ Pubkey.default then
      some (s.token0Vault, s.token1Vault)
    else none
  match fromExisting with
  | some (v0, v1) => { new with
      token0Vault := fillDefault new.token0Vault v0
      token1Vault := fillDefault new.token1Vault v1 }
  | none =>
      match u.pairAt .meteoraCpmmVaults with
      | some (baseVault, quoteVault) =>
          let mints := match ex with
            | some s => (s.token0Mint, s.token1Mint)
            | none => (new.token0Mint, new.token1Mint)
          { new with
            token0Vault := fillDefault new.token0Vault
              (vaultOfMint baseMint quoteMint mints.1 baseVault quoteVault)
            token1Vault := fillDefault new.token1Vault
              (vaultOfMint baseMint quoteMint mints.2 baseVault quoteVault) }
      | none => new

/-- The static fields of a stored Meteora CPMM row. -/
def keepMeteoraCpmmStatics (ex new : MeteoraCpmmState) : MeteoraCpmmState :=
  { new with
    mint0Decimals := ex.mint0Decimals
    mint1Decimals := ex.mint1Decimals
    status := ex.status
    token0Vault := preserveLayoutPubkey new.token0Vault ex.token0Vault
    token1Vault := preserveLayoutPubkey new.token1Vault ex.token1Vault
    ammConfig := preserveLayoutPubkey new.ammConfig ex.ammConfig
    observationKey := preserveLayoutPubkey new.observationKey ex.observationKey
    token0Program := preserveLayoutPubkey new.token0Program ex.token0Program
    token1Program := preserveLayoutPubkey new.token1Program ex.token1Program }

/-- `meteora_cpmm`. -/
def balanceOverMeteoraCpmm (ex : Option MeteoraCpmmState) (new : MeteoraCpmmState) :
    MeteoraCpmmState :=
  match ex with
  | some s => keepMeteoraCpmmStatics s (fillMeteoraCpmmVaults u baseMint quoteMint (some s)
      (keepMeteoraCpmmMints u baseMint quoteMint base quote s new))
  | none => fillMeteoraCpmmVaults u baseMint quoteMint none new

/-- `raydium`. -/
def balanceOverRaydium (ex new : RaydiumAmmState) : RaydiumAmmState :=
  { new with
    marketId := preserveLayoutPubkey new.marketId ex.marketId
    serumBids := orExisting new.serumBids ex.serumBids
    serumAsks := orExisting new.serumAsks ex.serumAsks
    serumEventQueue := orExisting new.serumEventQueue ex.serumEventQueue
    serumBaseVault := orExisting new.serumBaseVault ex.serumBaseVault
    serumQuoteVault := orExisting new.serumQuoteVault ex.serumQuoteVault
    coinVault := fillDefault new.coinVault ex.coinVault
    pcVault := fillDefault new.pcVault ex.pcVault }

/-- `orca`. -/
def balanceOverOrca (ex new : OrcaWhirlpoolState) : OrcaWhirlpoolState :=
  let balances := mapNormalizedReserves ex.tokenMintA ex.tokenMintB baseMint quoteMint base quote
  { new with
    tokenMintA := ex.tokenMintA
    tokenMintB := ex.tokenMintB
    vaultABalance := some balances.1
    vaultBBalance := some balances.2
    tokenVaultA := preserveLayoutPubkey new.tokenVaultA ex.tokenVaultA
    tokenVaultB := preserveLayoutPubkey new.tokenVaultB ex.tokenVaultB
    tickCurrentIndex := if (u.get .orcaTickCurrentIndex).isNone then ex.tickCurrentIndex
      else new.tickCurrentIndex
    tickSpacing := if (u.get .orcaTickSpacing).isNone then ex.tickSpacing else new.tickSpacing
    sqrtPrice := if (u.get .orcaSqrtPrice).isNone then ex.sqrtPrice else new.sqrtPrice
    liquidity := if (u.get .orcaLiquidity).isNone then ex.liquidity else new.liquidity
    feeRate := if (u.get .orcaFeeRate).isNone then ex.feeRate else new.feeRate
    protocolFeeRate := if (u.get .orcaProtocolFeeRate).isNone then ex.protocolFeeRate
      else new.protocolFeeRate
    tokenAProgram := if (u.get .orcaTokenAProgram).isNone then ex.tokenAProgram
      else new.tokenAProgram
    tokenBProgram := if (u.get .orcaTokenBProgram).isNone then ex.tokenBProgram
      else new.tokenBProgram
    whirlpoolQuoteAccountSeeded :=
      ex.whirlpoolQuoteAccountSeeded || new.whirlpoolQuoteAccountSeeded }

/-- The mints of a stored DLMM row, and the reserves on their sides. -/
def keepMeteoraDlmmMints (ex new : MeteoraState) : MeteoraState :=
  if (u.get .meteoraDlmmOnchainMints).isSome then new
  else { new with
    tokenXMint := ex.tokenXMint
    tokenYMint := ex.tokenYMint
    reserveXBalance :=
      balanceOfMint ex.tokenXMint baseMint quoteMint (some base) (some quote) new.reserveXBalance
    reserveYBalance :=
      balanceOfMint ex.tokenYMint baseMint quoteMint (some base) (some quote) new.reserveYBalance }

/-- `meteora_dlmm`. -/
def balanceOverMeteoraDlmm (ex new : MeteoraState) : MeteoraState :=
  let new := keepMeteoraDlmmMints u baseMint quoteMint base quote ex new
  { new with
    reserveX := preserveLayoutPubkey new.reserveX ex.reserveX
    reserveY := preserveLayoutPubkey new.reserveY ex.reserveY
    activeId := if (u.get .meteoraDlmmActiveId).isNone then ex.activeId else new.activeId
    binStep := if (u.get .meteoraDlmmBinStep).isNone then ex.binStep else new.binStep
    dlmmBinParamsAccountSeeded :=
      ex.dlmmBinParamsAccountSeeded || new.dlmmBinParamsAccountSeeded }

/-- The row of a `BalanceUpdated` message, over the stored one. -/
def balanceOver (existing : Option CachedPoolState) (minimal : CachedPoolState) :
    CachedPoolState :=
  match existing, minimal with
  | some (.pumpAmm ex), .pumpAmm new => .pumpAmm (balanceOverPumpAmm ex new)
  | some (.pumpFun ex), .pumpFun new => .pumpFun (balanceOverPumpFun u ex new)
  | some (.raydiumCpmm ex), .raydiumCpmm new =>
      .raydiumCpmm (balanceOverRaydiumCpmm u (some ex) new)
  | _, .raydiumCpmm new => .raydiumCpmm (balanceOverRaydiumCpmm u none new)
  | some (.meteoraCpmm ex), .meteoraCpmm new =>
      .meteoraCpmm (balanceOverMeteoraCpmm u baseMint quoteMint base quote (some ex) new)
  | _, .meteoraCpmm new =>
      .meteoraCpmm (balanceOverMeteoraCpmm u baseMint quoteMint base quote none new)
  | some (.raydiumAmm ex), .raydiumAmm new => .raydiumAmm (balanceOverRaydium ex new)
  | some (.orca ex), .orca new =>
      .orca (balanceOverOrca u baseMint quoteMint base quote ex new)
  | some (.meteora ex), .meteora new =>
      .meteora (balanceOverMeteoraDlmm u baseMint quoteMint base quote ex new)
  | _, minimal => minimal

end BalanceOver

/-! ## 4. The type of a patched row -/

theorem dex_writeRaydiumCpmmVaults (u : PoolCacheUpdate) (state : CachedPoolState) :
    (writeRaydiumCpmmVaults u state).dex = state.dex := by
  cases state with
  | raydiumCpmm s =>
      unfold writeRaydiumCpmmVaults
      dsimp only
      split <;> rfl
  | _ => rfl

theorem dex_discoveredOver (u : PoolCacheUpdate) (existing : Option CachedPoolState)
    (minimal : CachedPoolState) : (discoveredOver u existing minimal).dex = minimal.dex := by
  unfold discoveredOver
  cases existing with
  | none => exact dex_writeRaydiumCpmmVaults u minimal
  | some ex =>
      have hm : (mergeDiscovered ex minimal).dex = minimal.dex := by
        cases ex <;> cases minimal <;> rfl
      have hk : ∀ state, (keepDlmmStructure u ex state).dex = state.dex := by
        intro state
        cases ex <;> cases state <;> rfl
      dsimp only
      rw [hk, dex_writeRaydiumCpmmVaults, hm]

theorem dex_balanceOver (u : PoolCacheUpdate) (baseMint quoteMint : Pubkey) (base quote : Nat)
    (existing : Option CachedPoolState) (minimal : CachedPoolState) :
    (balanceOver u baseMint quoteMint base quote existing minimal).dex = minimal.dex := by
  cases existing with
  | none => cases minimal <;> rfl
  | some ex => cases ex <;> cases minimal <;> rfl

/-! ## 5. Applying a message -/

namespace SlaveCache

/-- `cache.get`. -/
def stateOf (c : SlaveCache) (pool : Pubkey) : Option CachedPoolState :=
  (c.pools.lookup pool).map CacheEntry.state

/-- `set_mint_decimals`. -/
def setMintDecimals (decimals : AList fun _ : Pubkey => Nat) (mint : Pubkey) (d : Nat) :
    AList fun _ : Pubkey => Nat :=
  if (decimals.lookup mint).isSome then decimals else decimals.insert mint d

/-- The decimals of one mint, when the message names it and carries them. -/
def applyMintDecimals (decimals : AList fun _ : Pubkey => Nat) (mint : String)
    (carried : Option String) : AList fun _ : Pubkey => Nat :=
  match parsePubkey mint, carried.bind (parseUnsigned 256) with
  | some mint, some d => setMintDecimals decimals mint d
  | _, _ => decimals

/-- `apply_decimals_from_metadata`. -/
def applyDecimalsFromMetadata (c : SlaveCache) (u : PoolCacheUpdate) : SlaveCache :=
  let afterBase := applyMintDecimals c.mintDecimals u.baseMint (u.get .baseDecimals)
  { c with mintDecimals := applyMintDecimals afterBase u.quoteMint (u.get .quoteDecimals) }

/-- What follows the row: the side maps and the decimals. -/
def mergeSides (c : SlaveCache) (pool : Pubkey) (u : PoolCacheUpdate) : SlaveCache :=
  applyDecimalsFromMetadata
    { c with sides := Function.update c.sides pool ((c.sides pool).mergeUpdate u) } u

/-- The branch of `PoolDiscovered`. -/
def applyPoolDiscovered (env : Ambient) (c : SlaveCache) (u : PoolCacheUpdate) (now : Nat) :
    SlaveCache × PoolCacheApplyOutcome :=
  match buildMinimalPoolState u with
  | none => (c, .rejectedBuildNone)
  | some (pool, minimal) =>
      let upserted := c.upsert env pool (discoveredOver u (c.stateOf pool) minimal) u.geyserSlot now
      if upserted.2 then
        (mergeSides { c with toLivePoolCache := upserted.1 } pool u, .applied)
      else (c, .rejectedStaleSlot)

/-- The row that a `BalanceUpdated` message brings for its pool. -/
def balanceRow (c : SlaveCache) (pool : Pubkey) (u : PoolCacheUpdate) : Option CachedPoolState :=
  let existing := c.stateOf pool
  let reserves := mergedReserves u existing
  (buildMinimalPoolStateWithReserves u reserves.1 reserves.2).map fun built =>
    -- a row was built, so both mints parse
    balanceOver u ((parsePubkey u.baseMint).getD Pubkey.default)
      ((parsePubkey u.quoteMint).getD Pubkey.default) reserves.1 reserves.2 existing built.2

/-- The branch of `BalanceUpdated`. -/
def applyBalanceUpdated (env : Ambient) (c : SlaveCache) (u : PoolCacheUpdate) (now : Nat) :
    SlaveCache × PoolCacheApplyOutcome :=
  match parsePubkey u.poolAddress with
  | none => (c, .rejectedInvalidPoolAddress)
  | some pool =>
      match c.balanceRow pool u with
      | none => (c, .rejectedBuildNone)
      | some state =>
          let upserted := c.upsert env pool state u.geyserSlot now
          if upserted.2 then
            let after := upserted.1
            let sameFingerprint :=
              decide ((c.stateOf pool).map (poolStateMaterialFingerprint env.finish) =
                (after.pools.lookup pool).map fun e =>
                  poolStateMaterialFingerprint env.finish e.state)
            let touched := if poolStateHasReserveBasis state && sameFingerprint then
                (after.touchFreshnessOnExistingReserveBasis pool now).1
              else after
            (mergeSides { c with toLivePoolCache := touched } pool u, .applied)
          else if 0 < u.geyserSlot then
            let touched := c.touchFreshnessOnExistingReserveBasis pool now
            -- a stale balance update with reserves sustains the age of the row, and goes on
            if poolStateHasReserveBasis state && touched.2 then
              (mergeSides { c with toLivePoolCache := touched.1 } pool u, .applied)
            else (c, .rejectedStaleSlot)
          else (c, .rejectedStaleSlot)

/-- `apply_pool_cache_update_outcome`. -/
def applyPoolCacheUpdateOutcome (env : Ambient) (c : SlaveCache) (u : PoolCacheUpdate)
    (now : Nat) : SlaveCache × PoolCacheApplyOutcome :=
  if u.dex = .restored then (c, .skippedRestoredDex)
  else
    match u.updateType with
    | .poolDiscovered => c.applyPoolDiscovered env u now
    | .balanceUpdated => c.applyBalanceUpdated env u now
    | .poolRemoved => (c, .skippedNoOp)

/-- `apply_pool_state_update_to_cache`. -/
def applyPoolStateUpdateToCache (env : Ambient) (c : SlaveCache) (poolAddress : String) (dex : Dex)
    (reserveBase reserveQuote : Nat) (baseMint quoteMint : String) (updateSlot now : Nat) :
    SlaveCache × PoolCacheApplyOutcome :=
  if dex = .restored then (c, .skippedRestoredDex)
  else if reserveBase = 0 ∧ reserveQuote = 0 then (c, .skippedNoOp)
  else c.applyPoolCacheUpdateOutcome env
    (.newBalanceUpdated poolAddress dex baseMint quoteMint reserveBase reserveQuote updateSlot) now

/-! ## 6. What applying a message does to the row -/

variable {env : Ambient} {c : SlaveCache} {u : PoolCacheUpdate} {pool : Pubkey}

/-- The row that a message brings to `upsert`. -/
def builtRow (c : SlaveCache) (pool : Pubkey) (u : PoolCacheUpdate) : Option CachedPoolState :=
  match u.updateType with
  | .poolDiscovered =>
      (buildMinimalPoolState u).map fun built => discoveredOver u (c.stateOf pool) built.2
  | .balanceUpdated => c.balanceRow pool u
  | .poolRemoved => none

/-- The row after `upsert` has taken a state. -/
def upserted (c : SlaveCache) (pool : Pubkey) (state : CachedPoolState) (slot : Nat) :
    CachedPoolState :=
  match c.stateOf pool with
  | none => c.fillTokenPrograms state
  | some ex => mergeAccountParsePreservesExisting ex (c.fillTokenPrograms state) slot

/-- No row of the pool has seen a later slot. -/
def NotBehind (c : SlaveCache) (pool : Pubkey) (slot : Nat) : Prop :=
  ∀ row, c.pools.lookup pool = some row → ¬ LivePoolCache.BehindSeen slot row

/-- A built row is one of the message's pool. -/
theorem address_of_build {base quote : Nat} {built : Pubkey × CachedPoolState}
    (h : buildMinimalPoolStateWithReserves u base quote = some built) :
    parsePubkey u.poolAddress = some built.1 := by
  unfold buildMinimalPoolStateWithReserves at h
  obtain ⟨poolAddr, hpool, h⟩ := Option.bind_eq_some_iff.mp h
  obtain ⟨baseMint, _, h⟩ := Option.bind_eq_some_iff.mp h
  obtain ⟨quoteMint, _, h⟩ := Option.bind_eq_some_iff.mp h
  obtain ⟨state, _, rfl⟩ := Option.map_eq_some_iff.mp h
  exact hpool

theorem dex_of_build {base quote : Nat} {built : Pubkey × CachedPoolState}
    (h : buildMinimalPoolStateWithReserves u base quote = some built) : built.2.dex = u.dex := by
  unfold buildMinimalPoolStateWithReserves at h
  obtain ⟨poolAddr, _, h⟩ := Option.bind_eq_some_iff.mp h
  obtain ⟨baseMint, _, h⟩ := Option.bind_eq_some_iff.mp h
  obtain ⟨quoteMint, _, h⟩ := Option.bind_eq_some_iff.mp h
  obtain ⟨state, hs, rfl⟩ := Option.map_eq_some_iff.mp h
  exact dex_minimalState hs

/-- A message brings a row of its own DEX. -/
theorem dex_of_built {state : CachedPoolState} (h : c.builtRow pool u = some state) :
    state.dex = u.dex := by
  unfold builtRow at h
  cases ht : u.updateType with
  | poolRemoved =>
      rw [ht] at h
      cases h
  | poolDiscovered =>
      rw [ht] at h
      obtain ⟨built, hb, rfl⟩ := Option.map_eq_some_iff.mp h
      exact (dex_discoveredOver _ _ _).trans (dex_of_build hb)
  | balanceUpdated =>
      rw [ht] at h
      obtain ⟨built, hb, rfl⟩ := Option.map_eq_some_iff.mp h
      exact (dex_balanceOver _ _ _ _ _ _ _).trans (dex_of_build hb)

/-- `upsert` by whether it takes the state. -/
theorem upsert_cases (env : Ambient) (c : SlaveCache) (pool : Pubkey) (state : CachedPoolState)
    (slot now : Nat) :
    ((c.upsert env pool state slot now).2 = true ∧ c.NotBehind pool slot ∧
      (((c.upsert env pool state slot now).1).pools.lookup pool).map CacheEntry.state =
        some (c.upserted pool state slot)) ∨
    ((c.upsert env pool state slot now).2 = false ∧ ¬ c.NotBehind pool slot ∧
      (c.upsert env pool state slot now).1 = c.toLivePoolCache) := by
  rw [LivePoolCache.upsert_eq]
  unfold NotBehind upserted stateOf
  cases hl : c.pools.lookup pool with
  | none =>
      rw [LivePoolCache.storedEntry_of_none hl]
      refine .inl ⟨rfl, fun row hrow => (nomatch hrow), ?_⟩
      dsimp only
      rw [AList.lookup_insert]
      rfl
  | some prev =>
      rw [LivePoolCache.storedEntry_of_some hl]
      by_cases hb : LivePoolCache.BehindSeen slot prev
      · rw [if_pos hb]
        exact .inr ⟨rfl, fun hn => hn prev rfl hb, rfl⟩
      · rw [if_neg hb]
        refine .inl ⟨rfl, ?_, ?_⟩
        · rintro row hrow
          cases hrow
          exact hb
        · dsimp only
          rw [AList.lookup_insert]
          rfl

/-- A touch leaves the states of the rows. -/
theorem stateOf_touch (l : LivePoolCache) (q : Pubkey) (now : Nat) :
    ((l.touchFreshnessOnExistingReserveBasis q now).1.pools.lookup pool).map CacheEntry.state =
      (l.pools.lookup pool).map CacheEntry.state := by
  unfold LivePoolCache.touchFreshnessOnExistingReserveBasis
  cases hl : l.pools.lookup q with
  | none => rfl
  | some entry =>
      dsimp only
      by_cases hb : poolStateHasReserveBasis entry.state = true
      · rw [if_pos hb]
        dsimp only
        by_cases hq : pool = q
        · subst hq
          rw [AList.lookup_insert, hl]
          rfl
        · rw [AList.lookup_insert_ne hq]
      · rw [if_neg hb]

/-- What a message that is applied does to the state of its pool's row: it is written, or it only
    sustains the age. -/
inductive AppliedRow (c c' : SlaveCache) (pool : Pubkey) (u : PoolCacheUpdate) : Prop where
  | written (state : CachedPoolState) (built : c.builtRow pool u = some state)
      (fresh : c.NotBehind pool u.geyserSlot)
      (row : c'.stateOf pool = some (c.upserted pool state u.geyserSlot))
  | sustained (kind : u.updateType = .balanceUpdated) (behind : ¬ c.NotBehind pool u.geyserSlot)
      (row : c'.stateOf pool = c.stateOf pool)

/-- A `PoolDiscovered` message is applied, or the cache stays as it is. -/
theorem discovered_cases (env : Ambient) (c : SlaveCache) (now : Nat)
    (hp : parsePubkey u.poolAddress = some pool) (ht : u.updateType = .poolDiscovered) :
    ((c.applyPoolDiscovered env u now).2 = .applied ∧
      AppliedRow c (c.applyPoolDiscovered env u now).1 pool u) ∨
    ((c.applyPoolDiscovered env u now).2 ≠ .applied ∧
      (c.applyPoolDiscovered env u now).1 = c) := by
  unfold applyPoolDiscovered
  cases hb : buildMinimalPoolState u with
  | none => exact .inr ⟨fun h => (nomatch h), rfl⟩
  | some built =>
      obtain ⟨q, minimal⟩ := built
      have hq : q = pool := Option.some.inj ((address_of_build hb).symm.trans hp)
      subst hq
      dsimp only
      obtain ⟨htrue, hfresh, hrow⟩ | ⟨hfalse, _, _⟩ := upsert_cases env c q
        (discoveredOver u (c.stateOf q) minimal) u.geyserSlot now
      · rw [if_pos htrue]
        refine .inl ⟨rfl, .written (discoveredOver u (c.stateOf q) minimal) ?_ hfresh hrow⟩
        unfold builtRow
        rw [ht]
        dsimp only
        rw [hb]
        rfl
      · rw [if_neg (by rw [hfalse]; decide)]
        exact .inr ⟨fun h => (nomatch h), rfl⟩

/-- A `BalanceUpdated` message is applied, or the cache stays as it is. -/
theorem balance_cases (env : Ambient) (c : SlaveCache) (now : Nat)
    (hp : parsePubkey u.poolAddress = some pool) (ht : u.updateType = .balanceUpdated) :
    ((c.applyBalanceUpdated env u now).2 = .applied ∧
      AppliedRow c (c.applyBalanceUpdated env u now).1 pool u) ∨
    ((c.applyBalanceUpdated env u now).2 ≠ .applied ∧
      (c.applyBalanceUpdated env u now).1 = c) := by
  unfold applyBalanceUpdated
  rw [hp]
  dsimp only
  cases hb : c.balanceRow pool u with
  | none => exact .inr ⟨fun h => (nomatch h), rfl⟩
  | some state =>
      have hbuilt : c.builtRow pool u = some state := by
        unfold builtRow
        rw [ht]
        exact hb
      dsimp only
      obtain ⟨htrue, hfresh, hrow⟩ | ⟨hfalse, hbehind, _⟩ :=
        upsert_cases env c pool state u.geyserSlot now
      · rw [if_pos htrue]
        refine .inl ⟨rfl, .written state hbuilt hfresh ?_⟩
        refine Eq.trans ?_ hrow
        unfold mergeSides applyDecimalsFromMetadata stateOf
        dsimp only
        split
        · exact stateOf_touch _ _ _
        · rfl
      · rw [if_neg (by rw [hfalse]; decide)]
        split
        · split
          · exact .inl ⟨rfl, .sustained ht hbehind (stateOf_touch _ _ _)⟩
          · exact .inr ⟨fun h => (nomatch h), rfl⟩
        · exact .inr ⟨fun h => (nomatch h), rfl⟩

/-- **A message is applied, or the cache stays as it is.** -/
theorem apply_cases (env : Ambient) (c : SlaveCache) (now : Nat)
    (hp : parsePubkey u.poolAddress = some pool) :
    ((c.applyPoolCacheUpdateOutcome env u now).2 = .applied ∧
      AppliedRow c (c.applyPoolCacheUpdateOutcome env u now).1 pool u) ∨
    ((c.applyPoolCacheUpdateOutcome env u now).2 ≠ .applied ∧
      (c.applyPoolCacheUpdateOutcome env u now).1 = c) := by
  unfold applyPoolCacheUpdateOutcome
  by_cases hd : u.dex = .restored
  · rw [if_pos hd]
    exact .inr ⟨fun h => (nomatch h), rfl⟩
  rw [if_neg hd]
  cases ht : u.updateType with
  | poolRemoved => exact .inr ⟨fun h => (nomatch h), rfl⟩
  | poolDiscovered => exact discovered_cases env c now hp ht
  | balanceUpdated => exact balance_cases env c now hp ht

end SlaveCache

end IronCrab.Cache

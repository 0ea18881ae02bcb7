/-
  File:      IronCrab/Cache/KeptFields.lean
  Subject:   THE STATIC FIELDS OF A ROW under a message (`pool_cache_sync.rs`,
             `live_pool_cache.rs`).

  A row is built from each message as if nothing were known, and patched back field by field; a
  field whose key the message lacks should come back. It does where a patch was written for it:

  * `KeepsFields` -- the fields whose keys are absent have their old values, type by type;
  * `DiscoveredFields`, `BalanceFields` -- what the row must hold for that: where a patch is
    missing, the value that the field is reset to;
  * **`fields_discovered_iff`**, **`fields_balance_iff`** -- the fields come back exactly then.
-/
import IronCrab.Cache.RowSides

namespace IronCrab.Cache

open Track (Pubkey)

/-! ## 1. Fields that a message does not carry -/

/-- A field whose key the message lacks has its old value. -/
def PoolCacheUpdate.Keeps {A : Type} (u : PoolCacheUpdate) (key : MetadataKey) (old new : A) :
    Prop :=
  u.get key = none → new = old

/-- A field whose key the message lacks holds what it is reset to. -/
def PoolCacheUpdate.AtReset {A : Type} (u : PoolCacheUpdate) (key : MetadataKey) (old reset : A) :
    Prop :=
  u.get key = none → old = reset

/-- The message carries no decimals. -/
def PoolCacheUpdate.NoDecimals (u : PoolCacheUpdate) : Prop :=
  u.get .baseDecimals = none ∧ u.get .quoteDecimals = none

/-- `orca`. -/
structure KeepsOrca (u : PoolCacheUpdate) (ex new : OrcaWhirlpoolState) : Prop where
  tokenMintA : u.Keeps .orcaOnchainMints ex.tokenMintA new.tokenMintA
  tokenMintB : u.Keeps .orcaOnchainMints ex.tokenMintB new.tokenMintB
  tokenVaultA : u.Keeps .orcaWhirlpoolVaults ex.tokenVaultA new.tokenVaultA
  tokenVaultB : u.Keeps .orcaWhirlpoolVaults ex.tokenVaultB new.tokenVaultB
  tokenAProgram : u.Keeps .orcaTokenAProgram ex.tokenAProgram new.tokenAProgram
  tokenBProgram : u.Keeps .orcaTokenBProgram ex.tokenBProgram new.tokenBProgram
  tickCurrentIndex : u.Keeps .orcaTickCurrentIndex ex.tickCurrentIndex new.tickCurrentIndex
  tickSpacing : u.Keeps .orcaTickSpacing ex.tickSpacing new.tickSpacing
  sqrtPrice : u.Keeps .orcaSqrtPrice ex.sqrtPrice new.sqrtPrice
  liquidity : u.Keeps .orcaLiquidity ex.liquidity new.liquidity
  feeRate : u.Keeps .orcaFeeRate ex.feeRate new.feeRate
  protocolFeeRate : u.Keeps .orcaProtocolFeeRate ex.protocolFeeRate new.protocolFeeRate
  seeded : ex.whirlpoolQuoteAccountSeeded = true → new.whirlpoolQuoteAccountSeeded = true

/-- `raydium`. -/
structure KeepsRaydium (u : PoolCacheUpdate) (ex new : RaydiumAmmState) : Prop where
  coinVault : new.coinVault = ex.coinVault
  pcVault : new.pcVault = ex.pcVault
  baseDecimals : u.Keeps .baseDecimals ex.baseDecimals new.baseDecimals
  quoteDecimals : u.Keeps .quoteDecimals ex.quoteDecimals new.quoteDecimals
  marketId : u.Keeps .marketId ex.marketId new.marketId
  serumBids : u.Keeps .serumBids ex.serumBids new.serumBids
  serumAsks : u.Keeps .serumAsks ex.serumAsks new.serumAsks
  serumEventQueue : u.Keeps .serumEventQueue ex.serumEventQueue new.serumEventQueue
  serumBaseVault : u.Keeps .serumBaseVault ex.serumBaseVault new.serumBaseVault
  serumQuoteVault : u.Keeps .serumQuoteVault ex.serumQuoteVault new.serumQuoteVault

/-- `raydium_cpmm`. -/
structure KeepsRaydiumCpmm (u : PoolCacheUpdate) (ex new : RaydiumCpmmState) : Prop where
  token0Vault : u.Keeps .raydiumCpmmVaults ex.token0Vault new.token0Vault
  token1Vault : u.Keeps .raydiumCpmmVaults ex.token1Vault new.token1Vault

/-- `meteora_dlmm`. -/
structure KeepsMeteora (u : PoolCacheUpdate) (ex new : MeteoraState) : Prop where
  tokenXMint : u.Keeps .meteoraDlmmOnchainMints ex.tokenXMint new.tokenXMint
  tokenYMint : u.Keeps .meteoraDlmmOnchainMints ex.tokenYMint new.tokenYMint
  reserveX : u.Keeps .meteoraDlmmVaults ex.reserveX new.reserveX
  reserveY : u.Keeps .meteoraDlmmVaults ex.reserveY new.reserveY
  activeId : u.Keeps .meteoraDlmmActiveId ex.activeId new.activeId
  binStep : u.Keeps .meteoraDlmmBinStep ex.binStep new.binStep
  seeded : ex.dlmmBinParamsAccountSeeded = true → new.dlmmBinParamsAccountSeeded = true

/-- `meteora_cpmm`. -/
structure KeepsMeteoraCpmm (u : PoolCacheUpdate) (ex new : MeteoraCpmmState) : Prop where
  token0Mint : u.Keeps .meteoraCpmmOnchainMints ex.token0Mint new.token0Mint
  token1Mint : u.Keeps .meteoraCpmmOnchainMints ex.token1Mint new.token1Mint
  token0Vault : u.Keeps .meteoraCpmmVaults ex.token0Vault new.token0Vault
  token1Vault : u.Keeps .meteoraCpmmVaults ex.token1Vault new.token1Vault
  ammConfig : new.ammConfig = ex.ammConfig
  observationKey : new.observationKey = ex.observationKey
  token0Program : new.token0Program = ex.token0Program
  token1Program : new.token1Program = ex.token1Program
  mint0Decimals : u.NoDecimals → new.mint0Decimals = ex.mint0Decimals
  mint1Decimals : u.NoDecimals → new.mint1Decimals = ex.mint1Decimals
  status : new.status = ex.status

/-- `pumpfun`. -/
structure KeepsPumpFun (u : PoolCacheUpdate) (ex new : PumpFunState) : Prop where
  creator : u.Keeps .creator ex.creator new.creator
  associatedBondingCurve :
    u.Keeps .associatedBondingCurve ex.associatedBondingCurve new.associatedBondingCurve
  complete : u.Keeps .complete ex.complete new.complete
  realTokenReserves : u.Keeps .realTokenReserves ex.realTokenReserves new.realTokenReserves
  realSolReserves : u.Keeps .realSolReserves ex.realSolReserves new.realSolReserves
  cashbackEnabled : u.Keeps .cashbackEnabled ex.cashbackEnabled new.cashbackEnabled

/-- `pump_amm`. -/
structure KeepsPumpAmm (u : PoolCacheUpdate) (ex new : PumpAmmState) : Prop where
  poolAccounts : u.Keeps .poolAccounts ex.poolAccounts new.poolAccounts
  creator : u.Keeps .creator ex.creator new.creator
  poolBaseTokenAccount : new.poolBaseTokenAccount = ex.poolBaseTokenAccount
  poolQuoteTokenAccount : new.poolQuoteTokenAccount = ex.poolQuoteTokenAccount

/-- The static fields that a message does not carry have their old values. -/
def KeepsFields (u : PoolCacheUpdate) : CachedPoolState → CachedPoolState → Prop
  | .orca ex, .orca new => KeepsOrca u ex new
  | .raydiumAmm ex, .raydiumAmm new => KeepsRaydium u ex new
  | .raydiumCpmm ex, .raydiumCpmm new => KeepsRaydiumCpmm u ex new
  | .meteora ex, .meteora new => KeepsMeteora u ex new
  | .meteoraCpmm ex, .meteoraCpmm new => KeepsMeteoraCpmm u ex new
  | .pumpFun ex, .pumpFun new => KeepsPumpFun u ex new
  | .pumpAmm ex, .pumpAmm new => KeepsPumpAmm u ex new
  | _, _ => False

/-! ## 2. When they come back -/

/-- An Orca row that a `PoolDiscovered` message resets to itself. -/
structure OrcaDiscoveredFields (c : LivePoolCache) (u : PoolCacheUpdate)
    (ex : OrcaWhirlpoolState) : Prop where
  tokenMintA : u.get .orcaOnchainMints = none →
    u.baseKey = ex.tokenMintA ∨ u.baseKey = Pubkey.default
  tokenMintB : u.get .orcaOnchainMints = none →
    u.quoteKey = ex.tokenMintB ∨ u.quoteKey = Pubkey.default
  tokenAProgram : u.get .orcaTokenAProgram = none →
    c.getMintProgram u.ownMints.1 = none ∨ c.getMintProgram u.ownMints.1 = ex.tokenAProgram
  tokenBProgram : u.get .orcaTokenBProgram = none →
    c.getMintProgram u.ownMints.2 = none ∨ c.getMintProgram u.ownMints.2 = ex.tokenBProgram
  tickCurrentIndex : u.AtReset .orcaTickCurrentIndex ex.tickCurrentIndex 0
  tickSpacing : u.AtReset .orcaTickSpacing ex.tickSpacing 0
  sqrtPrice : u.AtReset .orcaSqrtPrice ex.sqrtPrice 0
  liquidity : u.AtReset .orcaLiquidity ex.liquidity 0
  feeRate : u.AtReset .orcaFeeRate ex.feeRate 0
  protocolFeeRate : u.AtReset .orcaProtocolFeeRate ex.protocolFeeRate 0

/-- A Meteora CPMM row that a `PoolDiscovered` message resets to itself. -/
structure MeteoraCpmmDiscoveredFields (u : PoolCacheUpdate) (ex : MeteoraCpmmState) : Prop where
  token0Mint : u.AtReset .meteoraCpmmOnchainMints ex.token0Mint u.baseKey
  token1Mint : u.AtReset .meteoraCpmmOnchainMints ex.token1Mint u.quoteKey
  token0Vault : u.AtReset .meteoraCpmmVaults ex.token0Vault Pubkey.default
  token1Vault : u.AtReset .meteoraCpmmVaults ex.token1Vault Pubkey.default
  ammConfig : ex.ammConfig = Pubkey.default
  observationKey : ex.observationKey = Pubkey.default
  token0Program : ex.token0Program = Pubkey.default
  token1Program : ex.token1Program = Pubkey.default
  mint0Decimals : u.NoDecimals → ex.mint0Decimals = 0
  mint1Decimals : u.NoDecimals → ex.mint1Decimals = 0
  status : ex.status = 0

/-- The fields of a bonding curve that either message resets are at their resets. -/
structure PumpFunFields (u : PoolCacheUpdate) (ex : PumpFunState) : Prop where
  creator : u.AtReset .creator ex.creator Pubkey.default
  associatedBondingCurve :
    u.AtReset .associatedBondingCurve ex.associatedBondingCurve Pubkey.default
  complete : u.AtReset .complete ex.complete false
  realTokenReserves : u.AtReset .realTokenReserves ex.realTokenReserves 0
  realSolReserves : u.AtReset .realSolReserves ex.realSolReserves 0

/-- The decimals of a Raydium row, which either message resets. -/
def RaydiumFields (u : PoolCacheUpdate) (ex : RaydiumAmmState) : Prop :=
  u.AtReset .baseDecimals ex.baseDecimals 0 ∧ u.AtReset .quoteDecimals ex.quoteDecimals 0

/-- The fields of the row come back from a `PoolDiscovered` message. -/
def DiscoveredFields (c : LivePoolCache) (u : PoolCacheUpdate) : CachedPoolState → Prop
  | .orca ex => OrcaDiscoveredFields c u ex
  | .raydiumAmm ex => RaydiumFields u ex
  | .meteora ex => u.get .meteoraDlmmOnchainMints = none →
      (u.baseKey = ex.tokenXMint ∨ u.baseKey = Pubkey.default) ∧
        (u.quoteKey = ex.tokenYMint ∨ u.quoteKey = Pubkey.default)
  | .meteoraCpmm ex => MeteoraCpmmDiscoveredFields u ex
  | .pumpFun ex => PumpFunFields u ex ∧ u.AtReset .cashbackEnabled ex.cashbackEnabled false
  | .raydiumCpmm _ | .pumpAmm _ => True

/-- The fields of the row come back from a `BalanceUpdated` message. -/
def BalanceFields (c : LivePoolCache) (u : PoolCacheUpdate) : CachedPoolState → Prop
  | .orca ex =>
      (u.get .orcaTokenAProgram = none → ex.tokenAProgram = none →
        c.getMintProgram ex.tokenMintA = none) ∧
      (u.get .orcaTokenBProgram = none → ex.tokenBProgram = none →
        c.getMintProgram ex.tokenMintB = none)
  | .raydiumAmm ex => RaydiumFields u ex
  | .pumpFun ex => PumpFunFields u ex
  | .raydiumCpmm _ | .meteora _ | .meteoraCpmm _ | .pumpAmm _ => True

/-! ## 3. Absent keys -/

variable {u : PoolCacheUpdate} {c : LivePoolCache} {key : MetadataKey}

theorem pairAt_of_lacks (h : u.get key = none) : u.pairAt key = none := by
  unfold PoolCacheUpdate.pairAt
  rw [h]
  rfl

theorem vaultsAt_of_lacks (h : u.get key = none) :
    (u.pairAt key).getD (Pubkey.default, Pubkey.default) = (Pubkey.default, Pubkey.default) := by
  rw [pairAt_of_lacks h]
  rfl

theorem pubkeyAt_of_lacks (h : u.get key = none) : u.pubkeyAt key = none := by
  unfold PoolCacheUpdate.pubkeyAt
  rw [h]
  rfl

theorem unsignedAt_of_lacks (h : u.get key = none) (bound : Nat) : u.unsignedAt key bound = 0 := by
  unfold PoolCacheUpdate.unsignedAt
  rw [h]
  rfl

theorem trueAt_of_lacks (h : u.get key = none) : u.trueAt key = false := by
  unfold PoolCacheUpdate.trueAt
  rw [h]
  rfl

/-- A field that is reset comes back when it was at its reset. -/
theorem keeps_iff_of_reset {P : Prop} {A : Type} {old new reset : A} (h : P → new = reset) :
    (P → new = old) ↔ (P → old = reset) :=
  ⟨fun hk hp => (hk hp).symm.trans (h hp), fun hr hp => (h hp).trans (hr hp).symm⟩

theorem preserveLayoutPubkey_default (x : Pubkey) :
    preserveLayoutPubkey Pubkey.default x = x := by
  unfold preserveLayoutPubkey
  by_cases hx : x = Pubkey.default
  · rw [if_neg fun h => h.2 hx, hx]
  · rw [if_pos ⟨rfl, hx⟩]

theorem fillDefault_default (x : Pubkey) : fillDefault Pubkey.default x = x := if_pos rfl

/-- A mint stays when the new one is the same, or unknown. -/
theorem preserveLayoutPubkey_eq_iff (x y : Pubkey) :
    preserveLayoutPubkey x y = y ↔ x = y ∨ x = Pubkey.default := by
  by_cases hx : x = Pubkey.default
  · rw [hx, preserveLayoutPubkey_default]
    exact ⟨fun _ => .inr rfl, fun _ => rfl⟩
  · rw [preserveLayoutPubkey_of_ne hx]
    exact ⟨.inl, fun h => h.resolve_right hx⟩

theorem orExisting_none {A : Type} (x : Option A) : orExisting none x = x := rfl

theorem orExisting_eq_iff {A : Type} (x y : Option A) : orExisting x y = y ↔ x = none ∨ x = y := by
  cases x with
  | none => exact ⟨fun _ => .inl rfl, fun _ => rfl⟩
  | some a => exact ⟨.inr, fun h => h.resolve_left fun h => nomatch h⟩

/-- The row that `upsert` leaves of a new one over a stored one. -/
def laidOver (c : LivePoolCache) (slot : Nat) (ex new : CachedPoolState) : CachedPoolState :=
  mergeAccountParsePreservesExisting ex (c.fillTokenPrograms new) slot

variable {baseMint quoteMint : Pubkey} {base quote slot : Nat}

/-- The program of a mint whose key is absent, after a row of the message alone. -/
theorem program_keeps_iff (hl : u.get key = none) (known ex : Option Pubkey) :
    orExisting (orExisting ((u.get key).bind fun s => parsePubkey (trim s)) known) ex = ex ↔
      known = none ∨ known = ex := by
  rw [hl, Option.bind_none, orExisting_none]
  exact orExisting_eq_iff known ex

theorem onchainOrder_of_lacks (h : u.get key = none) :
    onchainOrder u baseMint quoteMint base quote key = ((baseMint, quoteMint), (base, quote)) := by
  unfold onchainOrder
  rw [pairAt_of_lacks h]

/-- The mints of a built row are those the message tells. -/
theorem onchainOrder_fst (hk : onchainKey u.dex = some key) (base quote : Nat) :
    (onchainOrder u u.baseKey u.quoteKey base quote key).1 = u.ownMints := by
  unfold PoolCacheUpdate.ownMints onchainOrder
  rw [hk]
  show _ = (u.pairAt key).getD (u.baseKey, u.quoteKey)
  cases u.pairAt key <;> rfl

/-- A stored mint comes back from a row in the order of the message where it is the same. -/
theorem mintA_keeps_iff (base quote : Nat) (old : Pubkey) :
    u.Keeps key old (preserveLayoutPubkey
      (onchainOrder u u.baseKey u.quoteKey base quote key).1.1 old) ↔
      (u.get key = none → u.baseKey = old ∨ u.baseKey = Pubkey.default) :=
  imp_congr_right fun hl => by
    rw [onchainOrder_of_lacks hl]
    exact preserveLayoutPubkey_eq_iff _ _

theorem mintB_keeps_iff (base quote : Nat) (old : Pubkey) :
    u.Keeps key old (preserveLayoutPubkey
      (onchainOrder u u.baseKey u.quoteKey base quote key).1.2 old) ↔
      (u.get key = none → u.quoteKey = old ∨ u.quoteKey = Pubkey.default) :=
  imp_congr_right fun hl => by
    rw [onchainOrder_of_lacks hl]
    exact preserveLayoutPubkey_eq_iff _ _

/-- A stored vault comes back where the message lists none. -/
theorem vaultA_keeps (old : Pubkey) : u.Keeps key old
    (preserveLayoutPubkey ((u.pairAt key).getD (Pubkey.default, Pubkey.default)).1 old) := by
  intro hl
  rw [vaultsAt_of_lacks hl, preserveLayoutPubkey_default]

theorem vaultB_keeps (old : Pubkey) : u.Keeps key old
    (preserveLayoutPubkey ((u.pairAt key).getD (Pubkey.default, Pubkey.default)).2 old) := by
  intro hl
  rw [vaultsAt_of_lacks hl, preserveLayoutPubkey_default]

/-- A field that has been kept once is kept by `upsert`. -/
theorem keeps_preserved {old x : Pubkey} (h : u.Keeps key old x) :
    u.Keeps key old (preserveLayoutPubkey x old) := by
  intro hl
  rw [h hl, preserveLayoutPubkey_self]

/-- A field that is taken from the stored row where the message lacks its key. -/
theorem kept_of_lacks {A : Type} (hl : u.get key = none) (x y : A) :
    (if (u.get key).isNone then x else y) = x := by
  rw [hl]
  rfl

/-- A flag is raised, and not lowered. -/
theorem seeded_or {old new : Bool} (h : old = true) : (old || new) = true := by
  rw [h]
  rfl

/-! ## 4. Type by type -/

theorem fields_discovered_orca (ex : OrcaWhirlpoolState) (hd : u.dex = .orca) :
    KeepsFields u (.orca ex) (laidOver c slot (.orca ex) (discoveredOver u (some (.orca ex))
      (.orca (minimalOrca u u.baseKey u.quoteKey base quote)))) ↔
      DiscoveredFields c u (.orca ex) := by
  have hmints := onchainOrder_fst (u := u) (show onchainKey u.dex = some .orcaOnchainMints by rw [hd]; rfl)
    base quote
  have htick : u.get .orcaTickCurrentIndex = none →
      (((u.get .orcaTickCurrentIndex).bind parseI32).getD 0 : Int) = 0 := by
    intro hl
    rw [hl]
    rfl
  have hspacing := fun hl : u.get .orcaTickSpacing = none => unsignedAt_of_lacks hl (2 ^ 16)
  have hsqrt := fun hl : u.get .orcaSqrtPrice = none => unsignedAt_of_lacks hl (2 ^ 128)
  have hliquidity := fun hl : u.get .orcaLiquidity = none => unsignedAt_of_lacks hl (2 ^ 128)
  have hfee := fun hl : u.get .orcaFeeRate = none => unsignedAt_of_lacks hl (2 ^ 16)
  have hprotocol := fun hl : u.get .orcaProtocolFeeRate = none => unsignedAt_of_lacks hl (2 ^ 16)
  have hprogA := fun hl : u.get .orcaTokenAProgram = none =>
    program_keeps_iff hl (c.getMintProgram u.ownMints.1) ex.tokenAProgram
  have hprogB := fun hl : u.get .orcaTokenBProgram = none =>
    program_keeps_iff hl (c.getMintProgram u.ownMints.2) ex.tokenBProgram
  rw [← hmints] at hprogA hprogB
  show _ ↔ OrcaDiscoveredFields c u ex
  constructor
  · intro h
    refine ⟨(mintA_keeps_iff base quote _).mp h.tokenMintA,
      (mintB_keeps_iff base quote _).mp h.tokenMintB, ?_, ?_,
      (keeps_iff_of_reset htick).mp h.tickCurrentIndex,
      (keeps_iff_of_reset hspacing).mp h.tickSpacing, (keeps_iff_of_reset hsqrt).mp h.sqrtPrice,
      (keeps_iff_of_reset hliquidity).mp h.liquidity, (keeps_iff_of_reset hfee).mp h.feeRate,
      (keeps_iff_of_reset hprotocol).mp h.protocolFeeRate⟩
    · rw [← hmints]
      exact fun hl => (hprogA hl).mp (h.tokenAProgram hl)
    · rw [← hmints]
      exact fun hl => (hprogB hl).mp (h.tokenBProgram hl)
  · intro h
    have hpA := h.tokenAProgram
    have hpB := h.tokenBProgram
    rw [← hmints] at hpA hpB
    exact
      { tokenMintA := (mintA_keeps_iff base quote _).mpr h.tokenMintA
        tokenMintB := (mintB_keeps_iff base quote _).mpr h.tokenMintB
        tokenVaultA := vaultA_keeps ex.tokenVaultA
        tokenVaultB := vaultB_keeps ex.tokenVaultB
        tokenAProgram := fun hl => (hprogA hl).mpr (hpA hl)
        tokenBProgram := fun hl => (hprogB hl).mpr (hpB hl)
        tickCurrentIndex := (keeps_iff_of_reset htick).mpr h.tickCurrentIndex
        tickSpacing := (keeps_iff_of_reset hspacing).mpr h.tickSpacing
        sqrtPrice := (keeps_iff_of_reset hsqrt).mpr h.sqrtPrice
        liquidity := (keeps_iff_of_reset hliquidity).mpr h.liquidity
        feeRate := (keeps_iff_of_reset hfee).mpr h.feeRate
        protocolFeeRate := (keeps_iff_of_reset hprotocol).mpr h.protocolFeeRate
        seeded := seeded_or }

theorem orExisting_pubkeyAt (hl : u.get key = none) (x : Option Pubkey) :
    orExisting (u.pubkeyAt key) x = x := by
  rw [pubkeyAt_of_lacks hl, orExisting_none]

theorem preserve_pubkeyAt (hl : u.get key = none) (x : Pubkey) :
    preserveLayoutPubkey ((u.pubkeyAt key).getD Pubkey.default) x = x := by
  rw [pubkeyAt_of_lacks hl]
  exact preserveLayoutPubkey_default x

theorem poolAccounts_of_lacks (hl : u.get .poolAccounts = none) :
    (minimalPumpAmm u baseMint quoteMint base quote).poolAccounts = [] := by
  unfold minimalPumpAmm
  rw [hl]
  rfl

/-- An empty list of pool accounts gives way to the stored one. -/
theorem keep_poolAccounts (x : List Pubkey) :
    (if ([] : List Pubkey).isEmpty && !x.isEmpty then x else []) = x := by
  cases x <;> rfl

theorem keep_poolAccounts_self (x : List Pubkey) :
    (if x.isEmpty && !x.isEmpty then x else x) = x := by
  split_ifs <;> rfl

theorem fields_discovered_raydium (ex : RaydiumAmmState) :
    KeepsFields u (.raydiumAmm ex) (laidOver c slot (.raydiumAmm ex)
      (discoveredOver u (some (.raydiumAmm ex))
        (.raydiumAmm (minimalRaydium u baseMint quoteMint base quote)))) ↔
      DiscoveredFields c u (.raydiumAmm ex) := by
  constructor
  · intro h
    exact ⟨(keeps_iff_of_reset fun _ => rfl).mp h.baseDecimals,
      (keeps_iff_of_reset fun _ => rfl).mp h.quoteDecimals⟩
  · rintro ⟨hb, hq⟩
    exact
      { coinVault := preserveLayoutPubkey_default _
        pcVault := preserveLayoutPubkey_default _
        baseDecimals := (keeps_iff_of_reset fun _ => rfl).mpr hb
        quoteDecimals := (keeps_iff_of_reset fun _ => rfl).mpr hq
        marketId := fun hl => preserve_pubkeyAt hl _
        serumBids := fun hl => orExisting_pubkeyAt hl _
        serumAsks := fun hl => orExisting_pubkeyAt hl _
        serumEventQueue := fun hl => orExisting_pubkeyAt hl _
        serumBaseVault := fun hl => orExisting_pubkeyAt hl _
        serumQuoteVault := fun hl => orExisting_pubkeyAt hl _ }

theorem fields_balance_raydium (ex : RaydiumAmmState) :
    KeepsFields u (.raydiumAmm ex) (laidOver c slot (.raydiumAmm ex)
      (balanceOver u baseMint quoteMint base quote (some (.raydiumAmm ex))
        (.raydiumAmm (minimalRaydium u baseMint quoteMint base quote)))) ↔
      BalanceFields c u (.raydiumAmm ex) := by
  constructor
  · intro h
    exact ⟨(keeps_iff_of_reset fun _ => rfl).mp h.baseDecimals,
      (keeps_iff_of_reset fun _ => rfl).mp h.quoteDecimals⟩
  · rintro ⟨hb, hq⟩
    have hserum {key : MetadataKey} (hl : u.get key = none) (x : Option Pubkey) :
        orExisting (orExisting (u.pubkeyAt key) x) x = x := by
      rw [orExisting_pubkeyAt hl]
      exact (orExisting_eq_iff x x).mpr (.inr rfl)
    exact
      { coinVault := preserveLayoutPubkey_self ex.coinVault
        pcVault := preserveLayoutPubkey_self ex.pcVault
        baseDecimals := (keeps_iff_of_reset fun _ => rfl).mpr hb
        quoteDecimals := (keeps_iff_of_reset fun _ => rfl).mpr hq
        marketId := keeps_preserved fun hl => preserve_pubkeyAt hl _
        serumBids := fun hl => hserum hl _
        serumAsks := fun hl => hserum hl _
        serumEventQueue := fun hl => hserum hl _
        serumBaseVault := fun hl => hserum hl _
        serumQuoteVault := fun hl => hserum hl _ }

theorem fields_discovered_raydiumCpmm (ex : RaydiumCpmmState) :
    KeepsFields u (.raydiumCpmm ex) (laidOver c slot (.raydiumCpmm ex)
      (discoveredOver u (some (.raydiumCpmm ex))
        (.raydiumCpmm (minimalRaydiumCpmm baseMint quoteMint base quote)))) := by
  unfold discoveredOver writeRaydiumCpmmVaults mergeDiscovered
  dsimp only
  cases hp : u.pairAt .raydiumCpmmVaults with
  | none => exact ⟨fun _ => preserveLayoutPubkey_default _, fun _ => preserveLayoutPubkey_default _⟩
  | some pair =>
      have hn : u.get .raydiumCpmmVaults ≠ none := fun hl => by
        rw [pairAt_of_lacks hl] at hp
        cases hp
      exact ⟨fun hl => absurd hl hn, fun hl => absurd hl hn⟩

theorem fields_discovered_meteora (ex : MeteoraState) :
    KeepsFields u (.meteora ex) (laidOver c slot (.meteora ex) (discoveredOver u (some (.meteora ex))
      (.meteora (minimalMeteora u u.baseKey u.quoteKey base quote)))) ↔
      DiscoveredFields c u (.meteora ex) := by
  constructor
  · intro h hl
    exact ⟨(mintA_keeps_iff base quote _).mp h.tokenXMint hl,
      (mintB_keeps_iff base quote _).mp h.tokenYMint hl⟩
  · intro h
    exact
      { tokenXMint := (mintA_keeps_iff base quote _).mpr fun hl => (h hl).1
        tokenYMint := (mintB_keeps_iff base quote _).mpr fun hl => (h hl).2
        reserveX := keeps_preserved (vaultA_keeps ex.reserveX)
        reserveY := keeps_preserved (vaultB_keeps ex.reserveY)
        activeId := fun hl => kept_of_lacks hl _ _
        binStep := fun hl => kept_of_lacks hl _ _
        seeded := seeded_or }

/-- Of a new Meteora CPMM row `upsert` changes the reserves at most. -/
theorem laidOver_meteoraCpmm (c : LivePoolCache) (slot : Nat) (ex inc : MeteoraCpmmState) :
    ∃ r0 r1, laidOver c slot (.meteoraCpmm ex) (.meteoraCpmm inc) =
      .meteoraCpmm { inc with reserve0 := r0, reserve1 := r1 } := by
  show ∃ r0 r1, CachedPoolState.meteoraCpmm
    (if 0 < slot then mergeMeteoraCpmmAccountReservesFromPrior inc ex else inc) = _
  unfold mergeMeteoraCpmmAccountReservesFromPrior
  split_ifs
  · exact ⟨_, _, rfl⟩
  · exact ⟨inc.reserve0, inc.reserve1, rfl⟩
  · exact ⟨inc.reserve0, inc.reserve1, rfl⟩

/-- A message without vaults builds a Meteora CPMM row without vaults. -/
theorem vaults_minimalMeteoraCpmm (hl : u.get .meteoraCpmmVaults = none)
    (baseMint quoteMint : Pubkey) (base quote : Nat) :
    (minimalMeteoraCpmm u baseMint quoteMint base quote).token0Vault = Pubkey.default ∧
      (minimalMeteoraCpmm u baseMint quoteMint base quote).token1Vault = Pubkey.default := by
  unfold minimalMeteoraCpmm
  rw [pairAt_of_lacks hl]
  dsimp only
  split_ifs <;> exact ⟨rfl, rfl⟩

theorem mints_minimalMeteoraCpmm (hl : u.get .meteoraCpmmOnchainMints = none)
    (baseMint quoteMint : Pubkey) (base quote : Nat) :
    (minimalMeteoraCpmm u baseMint quoteMint base quote).token0Mint = baseMint ∧
      (minimalMeteoraCpmm u baseMint quoteMint base quote).token1Mint = quoteMint := by
  unfold minimalMeteoraCpmm
  rw [onchainOrder_of_lacks hl]
  exact ⟨rfl, rfl⟩

theorem fields_discovered_meteoraCpmm (ex : MeteoraCpmmState) :
    KeepsFields u (.meteoraCpmm ex) (laidOver c slot (.meteoraCpmm ex)
      (discoveredOver u (some (.meteoraCpmm ex))
        (.meteoraCpmm (minimalMeteoraCpmm u u.baseKey u.quoteKey base quote)))) ↔
      DiscoveredFields c u (.meteoraCpmm ex) := by
  have hbuilt : discoveredOver u (some (.meteoraCpmm ex))
      (.meteoraCpmm (minimalMeteoraCpmm u u.baseKey u.quoteKey base quote)) =
      .meteoraCpmm (minimalMeteoraCpmm u u.baseKey u.quoteKey base quote) := rfl
  obtain ⟨r0, r1, hrow⟩ := laidOver_meteoraCpmm c slot ex
    (minimalMeteoraCpmm u u.baseKey u.quoteKey base quote)
  rw [hbuilt, hrow]
  have hmints := fun hl => mints_minimalMeteoraCpmm (u := u) hl u.baseKey u.quoteKey base quote
  have hvaults := fun hl => vaults_minimalMeteoraCpmm (u := u) hl u.baseKey u.quoteKey base quote
  constructor
  · intro h
    exact
      { token0Mint := (keeps_iff_of_reset fun hl => (hmints hl).1).mp h.token0Mint
        token1Mint := (keeps_iff_of_reset fun hl => (hmints hl).2).mp h.token1Mint
        token0Vault := (keeps_iff_of_reset fun hl => (hvaults hl).1).mp h.token0Vault
        token1Vault := (keeps_iff_of_reset fun hl => (hvaults hl).2).mp h.token1Vault
        ammConfig := h.ammConfig.symm
        observationKey := h.observationKey.symm
        token0Program := h.token0Program.symm
        token1Program := h.token1Program.symm
        mint0Decimals := fun hn => (h.mint0Decimals hn).symm
        mint1Decimals := fun hn => (h.mint1Decimals hn).symm
        status := h.status.symm }
  · intro h
    exact
      { token0Mint := (keeps_iff_of_reset fun hl => (hmints hl).1).mpr h.token0Mint
        token1Mint := (keeps_iff_of_reset fun hl => (hmints hl).2).mpr h.token1Mint
        token0Vault := (keeps_iff_of_reset fun hl => (hvaults hl).1).mpr h.token0Vault
        token1Vault := (keeps_iff_of_reset fun hl => (hvaults hl).2).mpr h.token1Vault
        ammConfig := h.ammConfig.symm
        observationKey := h.observationKey.symm
        token0Program := h.token0Program.symm
        token1Program := h.token1Program.symm
        mint0Decimals := fun hn => (h.mint0Decimals hn).symm
        mint1Decimals := fun hn => (h.mint1Decimals hn).symm
        status := h.status.symm }

/-- The fields of a bonding curve that any message builds. -/
theorem pumpFunFields_iff (ex : PumpFunState) (poolAddr : Pubkey) (cashback : Bool) :
    KeepsPumpFun u ex { minimalPumpFun u poolAddr baseMint base quote with
      cashbackEnabled := cashback } ↔
      PumpFunFields u ex ∧ u.Keeps .cashbackEnabled ex.cashbackEnabled cashback := by
  have hkey {key : MetadataKey} (hl : u.get key = none) :
      (u.pubkeyAt key).getD Pubkey.default = Pubkey.default := by
    rw [pubkeyAt_of_lacks hl]
    rfl
  constructor
  · intro h
    exact ⟨
      { creator := (keeps_iff_of_reset hkey).mp h.creator
        associatedBondingCurve := (keeps_iff_of_reset hkey).mp h.associatedBondingCurve
        complete := (keeps_iff_of_reset trueAt_of_lacks).mp h.complete
        realTokenReserves :=
          (keeps_iff_of_reset fun hl => unsignedAt_of_lacks hl _).mp h.realTokenReserves
        realSolReserves :=
          (keeps_iff_of_reset fun hl => unsignedAt_of_lacks hl _).mp h.realSolReserves },
      h.cashbackEnabled⟩
  · rintro ⟨h, hc⟩
    exact
      { creator := (keeps_iff_of_reset hkey).mpr h.creator
        associatedBondingCurve := (keeps_iff_of_reset hkey).mpr h.associatedBondingCurve
        complete := (keeps_iff_of_reset trueAt_of_lacks).mpr h.complete
        realTokenReserves :=
          (keeps_iff_of_reset fun hl => unsignedAt_of_lacks hl _).mpr h.realTokenReserves
        realSolReserves :=
          (keeps_iff_of_reset fun hl => unsignedAt_of_lacks hl _).mpr h.realSolReserves
        cashbackEnabled := hc }

theorem fields_discovered_pumpFun (ex : PumpFunState) (poolAddr : Pubkey) :
    KeepsFields u (.pumpFun ex) (laidOver c slot (.pumpFun ex) (discoveredOver u (some (.pumpFun ex))
      (.pumpFun (minimalPumpFun u poolAddr baseMint base quote)))) ↔
      DiscoveredFields c u (.pumpFun ex) := by
  refine Iff.trans (pumpFunFields_iff ex poolAddr (u.trueAt .cashbackEnabled)) ?_
  exact and_congr_right fun _ => keeps_iff_of_reset trueAt_of_lacks

/-- A PumpSwap row is patched in one way by both messages, but for its reserves. -/
theorem fields_pumpAmm (ex : PumpAmmState) (baseReserve quoteReserve : Option Nat) :
    KeepsFields u (.pumpAmm ex) (laidOver c slot (.pumpAmm ex) (.pumpAmm
      { balanceOverPumpAmm ex (minimalPumpAmm u baseMint quoteMint base quote) with
        baseReserve := baseReserve, quoteReserve := quoteReserve })) := by
  have haccounts (hl : u.get .poolAccounts = none) : (balanceOverPumpAmm ex
      (minimalPumpAmm u baseMint quoteMint base quote)).poolAccounts = ex.poolAccounts := by
    unfold balanceOverPumpAmm
    rw [poolAccounts_of_lacks hl]
    exact keep_poolAccounts ex.poolAccounts
  exact
    { poolAccounts := fun hl => by
        show (if (balanceOverPumpAmm ex (minimalPumpAmm u baseMint quoteMint base
          quote)).poolAccounts.isEmpty && !ex.poolAccounts.isEmpty then ex.poolAccounts
          else (balanceOverPumpAmm ex (minimalPumpAmm u baseMint quoteMint base
            quote)).poolAccounts) = _
        rw [haccounts hl, keep_poolAccounts_self]
      creator := fun hl => by
        show orExisting (orExisting (u.pubkeyAt .creator) ex.creator) ex.creator = _
        rw [orExisting_pubkeyAt hl]
        exact (orExisting_eq_iff _ _).mpr (.inr rfl)
      poolBaseTokenAccount := preserveLayoutPubkey_default _
      poolQuoteTokenAccount := preserveLayoutPubkey_default _ }

theorem fields_discovered_pumpAmm (ex : PumpAmmState) :
    KeepsFields u (.pumpAmm ex) (laidOver c slot (.pumpAmm ex) (discoveredOver u (some (.pumpAmm ex))
      (.pumpAmm (minimalPumpAmm u baseMint quoteMint base quote)))) :=
  fields_pumpAmm ex _ _

/-- A stored program comes back; an unknown one is filled by what is known of its mint. -/
theorem orExisting_known_iff (known ex : Option Pubkey) :
    orExisting (orExisting ex known) ex = ex ↔ (ex = none → known = none) := by
  cases ex with
  | none => cases known <;> simp [orExisting]
  | some x => simp [orExisting]

theorem fields_balance_orca (ex : OrcaWhirlpoolState) :
    KeepsFields u (.orca ex) (laidOver c slot (.orca ex)
      (balanceOver u baseMint quoteMint base quote (some (.orca ex))
        (.orca (minimalOrca u baseMint quoteMint base quote)))) ↔
      BalanceFields c u (.orca ex) := by
  have hprog {key : MetadataKey} (hl : u.get key = none) (known ex carried : Option Pubkey) :
      orExisting (orExisting (if (u.get key).isNone then ex else carried) known) ex = ex ↔
        (ex = none → known = none) := by
    rw [kept_of_lacks hl]
    exact orExisting_known_iff known ex
  constructor
  · intro h
    exact ⟨fun hl => (hprog hl _ _ _).mp (h.tokenAProgram hl),
      fun hl => (hprog hl _ _ _).mp (h.tokenBProgram hl)⟩
  · rintro ⟨hA, hB⟩
    exact
      { tokenMintA := fun _ => preserveLayoutPubkey_self _
        tokenMintB := fun _ => preserveLayoutPubkey_self _
        tokenVaultA := keeps_preserved (vaultA_keeps ex.tokenVaultA)
        tokenVaultB := keeps_preserved (vaultB_keeps ex.tokenVaultB)
        tokenAProgram := fun hl => (hprog hl _ _ _).mpr (hA hl)
        tokenBProgram := fun hl => (hprog hl _ _ _).mpr (hB hl)
        tickCurrentIndex := fun hl => kept_of_lacks hl _ _
        tickSpacing := fun hl => kept_of_lacks hl _ _
        sqrtPrice := fun hl => kept_of_lacks hl _ _
        liquidity := fun hl => kept_of_lacks hl _ _
        feeRate := fun hl => kept_of_lacks hl _ _
        protocolFeeRate := fun hl => kept_of_lacks hl _ _
        seeded := seeded_or }

theorem isSome_of_lacks (hl : u.get key = none) : ¬ (u.get key).isSome = true := by
  rw [hl]
  exact Bool.false_ne_true

theorem vaults_keepMeteoraDlmmMints (ex new : MeteoraState) :
    (keepMeteoraDlmmMints u baseMint quoteMint base quote ex new).reserveX = new.reserveX ∧
      (keepMeteoraDlmmMints u baseMint quoteMint base quote ex new).reserveY = new.reserveY := by
  unfold keepMeteoraDlmmMints
  split_ifs <;> exact ⟨rfl, rfl⟩

theorem mints_keepMeteoraDlmmMints (hl : u.get .meteoraDlmmOnchainMints = none)
    (ex new : MeteoraState) :
    (keepMeteoraDlmmMints u baseMint quoteMint base quote ex new).tokenXMint = ex.tokenXMint ∧
      (keepMeteoraDlmmMints u baseMint quoteMint base quote ex new).tokenYMint =
        ex.tokenYMint := by
  unfold keepMeteoraDlmmMints
  rw [if_neg (isSome_of_lacks hl)]
  exact ⟨rfl, rfl⟩

theorem fields_balance_meteora (ex : MeteoraState) :
    KeepsFields u (.meteora ex) (laidOver c slot (.meteora ex)
      (balanceOver u baseMint quoteMint base quote (some (.meteora ex))
        (.meteora (minimalMeteora u baseMint quoteMint base quote)))) := by
  have hvault {x old : Pubkey} (hx : x = Pubkey.default) :
      preserveLayoutPubkey (preserveLayoutPubkey x old) old = old := by
    rw [hx, preserveLayoutPubkey_default, preserveLayoutPubkey_self]
  have hmint {x old : Pubkey} (hx : x = old) : preserveLayoutPubkey x old = old := by
    rw [hx, preserveLayoutPubkey_self]
  exact
    { tokenXMint := fun hl => hmint (mints_keepMeteoraDlmmMints hl _ _).1
      tokenYMint := fun hl => hmint (mints_keepMeteoraDlmmMints hl _ _).2
      reserveX := fun hl => hvault
        ((vaults_keepMeteoraDlmmMints _ _).1.trans (congrArg Prod.fst (vaultsAt_of_lacks hl)))
      reserveY := fun hl => hvault
        ((vaults_keepMeteoraDlmmMints _ _).2.trans (congrArg Prod.snd (vaultsAt_of_lacks hl)))
      activeId := fun hl => kept_of_lacks hl _ _
      binStep := fun hl => kept_of_lacks hl _ _
      seeded := seeded_or }

theorem mints_fillMeteoraCpmmVaults (u : PoolCacheUpdate) (baseMint quoteMint : Pubkey)
    (ex : Option MeteoraCpmmState) (new : MeteoraCpmmState) :
    (fillMeteoraCpmmVaults u baseMint quoteMint ex new).token0Mint = new.token0Mint ∧
      (fillMeteoraCpmmVaults u baseMint quoteMint ex new).token1Mint = new.token1Mint := by
  unfold fillMeteoraCpmmVaults
  dsimp only
  split
  · exact ⟨rfl, rfl⟩
  · split <;> exact ⟨rfl, rfl⟩

/-- Vaults that neither the row nor the message brings are those that are stored. -/
theorem vaults_fillMeteoraCpmmVaults (hl : u.get .meteoraCpmmVaults = none)
    (baseMint quoteMint : Pubkey) (ex new : MeteoraCpmmState) (h0 : new.token0Vault = Pubkey.default)
    (h1 : new.token1Vault = Pubkey.default) :
    preserveLayoutPubkey (fillMeteoraCpmmVaults u baseMint quoteMint (some ex) new).token0Vault
        ex.token0Vault = ex.token0Vault ∧
      preserveLayoutPubkey (fillMeteoraCpmmVaults u baseMint quoteMint (some ex) new).token1Vault
        ex.token1Vault = ex.token1Vault := by
  unfold fillMeteoraCpmmVaults
  rw [pairAt_of_lacks hl, Option.bind_some]
  by_cases hk : ex.token0Vault ≠ Pubkey.default ∧ ex.token1Vault ≠ Pubkey.default
  · rw [if_pos hk]
    show preserveLayoutPubkey (fillDefault new.token0Vault ex.token0Vault) _ = _ ∧
      preserveLayoutPubkey (fillDefault new.token1Vault ex.token1Vault) _ = _
    rw [h0, h1, fillDefault_default, fillDefault_default]
    exact ⟨preserveLayoutPubkey_self _, preserveLayoutPubkey_self _⟩
  · rw [if_neg hk]
    show preserveLayoutPubkey new.token0Vault _ = _ ∧ preserveLayoutPubkey new.token1Vault _ = _
    rw [h0, h1]
    exact ⟨preserveLayoutPubkey_default _, preserveLayoutPubkey_default _⟩

theorem vaults_keepMeteoraCpmmMints (u : PoolCacheUpdate) (baseMint quoteMint : Pubkey)
    (base quote : Nat) (ex new : MeteoraCpmmState) :
    (keepMeteoraCpmmMints u baseMint quoteMint base quote ex new).token0Vault = new.token0Vault ∧
      (keepMeteoraCpmmMints u baseMint quoteMint base quote ex new).token1Vault =
        new.token1Vault := by
  unfold keepMeteoraCpmmMints
  split_ifs <;> exact ⟨rfl, rfl⟩

theorem mints_keepMeteoraCpmmMints (hl : u.get .meteoraCpmmOnchainMints = none)
    (baseMint quoteMint : Pubkey) (base quote : Nat) (ex new : MeteoraCpmmState) :
    (keepMeteoraCpmmMints u baseMint quoteMint base quote ex new).token0Mint = ex.token0Mint ∧
      (keepMeteoraCpmmMints u baseMint quoteMint base quote ex new).token1Mint =
        ex.token1Mint := by
  unfold keepMeteoraCpmmMints
  rw [if_neg (isSome_of_lacks hl)]
  exact ⟨rfl, rfl⟩

/-- The pubkeys of a Meteora CPMM row that no message brings. -/
def MeteoraCpmmState.statics (s : MeteoraCpmmState) : List Pubkey :=
  [s.ammConfig, s.observationKey, s.token0Program, s.token1Program]

theorem statics_fillMeteoraCpmmVaults (u : PoolCacheUpdate) (baseMint quoteMint : Pubkey)
    (ex : Option MeteoraCpmmState) (new : MeteoraCpmmState) :
    (fillMeteoraCpmmVaults u baseMint quoteMint ex new).statics = new.statics := by
  unfold fillMeteoraCpmmVaults
  dsimp only
  split
  · rfl
  · split <;> rfl

theorem statics_keepMeteoraCpmmMints (u : PoolCacheUpdate) (baseMint quoteMint : Pubkey)
    (base quote : Nat) (ex new : MeteoraCpmmState) :
    (keepMeteoraCpmmMints u baseMint quoteMint base quote ex new).statics = new.statics := by
  unfold keepMeteoraCpmmMints
  split_ifs <;> rfl

theorem fields_balance_meteoraCpmm (ex : MeteoraCpmmState) :
    KeepsFields u (.meteoraCpmm ex) (laidOver c slot (.meteoraCpmm ex)
      (balanceOver u baseMint quoteMint base quote (some (.meteoraCpmm ex))
        (.meteoraCpmm (minimalMeteoraCpmm u baseMint quoteMint base quote)))) := by
  have hbare := fun hl => vaults_minimalMeteoraCpmm (u := u) hl baseMint quoteMint base quote
  have hstatics : (minimalMeteoraCpmm u baseMint quoteMint base quote).statics =
      [Pubkey.default, Pubkey.default, Pubkey.default, Pubkey.default] := rfl
  generalize minimalMeteoraCpmm u baseMint quoteMint base quote = minimal at hbare hstatics ⊢
  show KeepsFields u (.meteoraCpmm ex) (laidOver c slot (.meteoraCpmm ex) (.meteoraCpmm
    (keepMeteoraCpmmStatics ex (fillMeteoraCpmmVaults u baseMint quoteMint (some ex)
      (keepMeteoraCpmmMints u baseMint quoteMint base quote ex minimal)))))
  have hmints := fun hl => mints_keepMeteoraCpmmMints (u := u) hl baseMint quoteMint base quote ex
    minimal
  have hkept := vaults_keepMeteoraCpmmMints u baseMint quoteMint base quote ex minimal
  have hstatics := (statics_keepMeteoraCpmmMints u baseMint quoteMint base quote ex minimal).trans
    hstatics
  generalize keepMeteoraCpmmMints u baseMint quoteMint base quote ex minimal = kept
    at hmints hkept hstatics ⊢
  have hfilled := mints_fillMeteoraCpmmVaults u baseMint quoteMint (some ex) kept
  have hvaults := fun hl => vaults_fillMeteoraCpmmVaults hl baseMint quoteMint ex kept
    (hkept.1.trans (hbare hl).1) (hkept.2.trans (hbare hl).2)
  have hstatics := (statics_fillMeteoraCpmmVaults u baseMint quoteMint (some ex) kept).trans
    hstatics
  generalize fillMeteoraCpmmVaults u baseMint quoteMint (some ex) kept = filled
    at hfilled hvaults hstatics ⊢
  obtain ⟨r0, r1, hrow⟩ := laidOver_meteoraCpmm c slot ex (keepMeteoraCpmmStatics ex filled)
  rw [hrow]
  injection hstatics with hconfig hstatics
  injection hstatics with hobservation hstatics
  injection hstatics with hprogram0 hstatics
  injection hstatics with hprogram1 _
  have hstatic {x old : Pubkey} (hx : x = Pubkey.default) : preserveLayoutPubkey x old = old := by
    rw [hx, preserveLayoutPubkey_default]
  exact
    { token0Mint := fun hl => hfilled.1.trans (hmints hl).1
      token1Mint := fun hl => hfilled.2.trans (hmints hl).2
      token0Vault := fun hl => (hvaults hl).1
      token1Vault := fun hl => (hvaults hl).2
      ammConfig := hstatic hconfig
      observationKey := hstatic hobservation
      token0Program := hstatic hprogram0
      token1Program := hstatic hprogram1
      mint0Decimals := fun _ => rfl
      mint1Decimals := fun _ => rfl
      status := rfl }

theorem fields_balance_raydiumCpmm (ex : RaydiumCpmmState) :
    KeepsFields u (.raydiumCpmm ex) (laidOver c slot (.raydiumCpmm ex)
      (balanceOver u baseMint quoteMint base quote (some (.raydiumCpmm ex))
        (.raydiumCpmm (minimalRaydiumCpmm baseMint quoteMint base quote)))) := by
  have hvaults (hl : u.get .raydiumCpmmVaults = none) :
      preserveLayoutPubkey (balanceOverRaydiumCpmm u (some ex) (minimalRaydiumCpmm baseMint
        quoteMint base quote)).token0Vault ex.token0Vault = ex.token0Vault ∧
      preserveLayoutPubkey (balanceOverRaydiumCpmm u (some ex) (minimalRaydiumCpmm baseMint
        quoteMint base quote)).token1Vault ex.token1Vault = ex.token1Vault := by
    unfold balanceOverRaydiumCpmm
    rw [pairAt_of_lacks hl, Option.bind_some]
    by_cases hk : ex.token0Vault ≠ Pubkey.default ∧ ex.token1Vault ≠ Pubkey.default
    · rw [if_pos hk]
      show preserveLayoutPubkey (fillDefault Pubkey.default ex.token0Vault) _ = _ ∧
        preserveLayoutPubkey (fillDefault Pubkey.default ex.token1Vault) _ = _
      rw [fillDefault_default, fillDefault_default]
      exact ⟨preserveLayoutPubkey_self _, preserveLayoutPubkey_self _⟩
    · rw [if_neg hk]
      exact ⟨preserveLayoutPubkey_default _, preserveLayoutPubkey_default _⟩
  exact ⟨fun hl => (hvaults hl).1, fun hl => (hvaults hl).2⟩

theorem fields_balance_pumpFun (ex : PumpFunState) (poolAddr : Pubkey) :
    KeepsFields u (.pumpFun ex) (laidOver c slot (.pumpFun ex)
      (balanceOver u baseMint quoteMint base quote (some (.pumpFun ex))
        (.pumpFun (minimalPumpFun u poolAddr baseMint base quote)))) ↔
      BalanceFields c u (.pumpFun ex) := by
  refine Iff.trans (pumpFunFields_iff ex poolAddr
    (if (u.get .cashbackEnabled).isNone then ex.cashbackEnabled else u.trueAt .cashbackEnabled)) ?_
  exact ⟨fun h => h.1, fun h => ⟨h, fun hl => kept_of_lacks hl _ _⟩⟩

theorem fields_balance_pumpAmm (ex : PumpAmmState) :
    KeepsFields u (.pumpAmm ex) (laidOver c slot (.pumpAmm ex)
      (balanceOver u baseMint quoteMint base quote (some (.pumpAmm ex))
        (.pumpAmm (minimalPumpAmm u baseMint quoteMint base quote)))) :=
  fields_pumpAmm ex _ _

/-- **The fields of a discovered row come back exactly when the row holds what they are reset
    to.** -/
theorem fields_discovered_iff {ex minimal : CachedPoolState} {poolAddr : Pubkey}
    (hu : u.dex = ex.dex)
    (hm : minimalState u poolAddr u.baseKey u.quoteKey base quote = some minimal) :
    KeepsFields u ex (laidOver c slot ex (discoveredOver u (some ex) minimal)) ↔
      DiscoveredFields c u ex := by
  unfold minimalState at hm
  rw [hu] at hm
  cases ex with
  | orca ex =>
      cases Option.some.inj hm
      exact fields_discovered_orca ex hu
  | raydiumAmm ex =>
      cases Option.some.inj hm
      exact fields_discovered_raydium ex
  | raydiumCpmm ex =>
      cases Option.some.inj hm
      exact iff_of_true (fields_discovered_raydiumCpmm ex) trivial
  | meteora ex =>
      cases Option.some.inj hm
      exact fields_discovered_meteora ex
  | meteoraCpmm ex =>
      cases Option.some.inj hm
      exact fields_discovered_meteoraCpmm ex
  | pumpFun ex =>
      cases Option.some.inj hm
      exact fields_discovered_pumpFun ex poolAddr
  | pumpAmm ex =>
      cases Option.some.inj hm
      exact iff_of_true (fields_discovered_pumpAmm ex) trivial

/-- **The same for the row of a `BalanceUpdated` message.** -/
theorem fields_balance_iff {ex minimal : CachedPoolState} {poolAddr : Pubkey}
    (hu : u.dex = ex.dex)
    (hm : minimalState u poolAddr u.baseKey u.quoteKey base quote = some minimal) :
    KeepsFields u ex (laidOver c slot ex
      (balanceOver u u.baseKey u.quoteKey base quote (some ex) minimal)) ↔
      BalanceFields c u ex := by
  unfold minimalState at hm
  rw [hu] at hm
  cases ex with
  | orca ex =>
      cases Option.some.inj hm
      exact fields_balance_orca ex
  | raydiumAmm ex =>
      cases Option.some.inj hm
      exact fields_balance_raydium ex
  | raydiumCpmm ex =>
      cases Option.some.inj hm
      exact iff_of_true (fields_balance_raydiumCpmm ex) trivial
  | meteora ex =>
      cases Option.some.inj hm
      exact iff_of_true (fields_balance_meteora ex) trivial
  | meteoraCpmm ex =>
      cases Option.some.inj hm
      exact iff_of_true (fields_balance_meteoraCpmm ex) trivial
  | pumpFun ex =>
      cases Option.some.inj hm
      exact fields_balance_pumpFun ex poolAddr
  | pumpAmm ex =>
      cases Option.some.inj hm
      exact iff_of_true (fields_balance_pumpAmm ex) trivial

end IronCrab.Cache

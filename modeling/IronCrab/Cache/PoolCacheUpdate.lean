/-
  File:      IronCrab/Cache/PoolCacheUpdate.lean
  Subject:   THE POOL CACHE UPDATE (`schema.rs`, `pool_cache_sync.rs`): a message of the market data
             side, its metadata, and the row that is built from it alone.

  A message names its two mints in NORMALIZED order, base and quote, with the other mint first when
  one of them is SOL, and reports a reserve for each; 0 stands for a reserve it does not know. A
  row holds mints and balances by side. Which side is the base of a message is settled in four
  places:

  * `mapNormalizedReserves` -- by the on-chain mints of the metadata, when a row is built;
  * `extractReserves` -- by position, or by where SOL stands, when an old row is read;
  * the two merges (`PoolCacheSync.lean`).

  Metadata is text by key. Pubkeys are Base58, numbers decimal, lists comma separated; what does not
  parse is taken as absent.
-/
import IronCrab.Cache.LivePoolCache
import IronCrab.Track.Snapshot

namespace IronCrab.Cache

open Track (Pubkey TextCodec)

/-! ## 1. Text -/

/-- `Pubkey::from_str`. -/
def parsePubkey (text : String) : Option Pubkey := TextCodec.base58Pubkey text

/-- `char::is_whitespace`. -/
def isWhitespace (ch : Char) : Bool :=
  let n := ch.toNat
  (9 ≤ n && n ≤ 13) || n == 0x20 || n == 0x85 || n == 0xA0 || n == 0x1680 ||
    (0x2000 ≤ n && n ≤ 0x200A) || n == 0x2028 || n == 0x2029 || n == 0x202F || n == 0x205F ||
    n == 0x3000

/-- `str::trim`. -/
def trim (text : String) : String :=
  .ofList ((text.toList.dropWhile isWhitespace).reverse.dropWhile isWhitespace).reverse

/-- `str::split(',')`. -/
def splitComma (text : String) : List String := (text.toList.splitOn ',').map String.ofList

/-- `str::parse` for an unsigned number below `bound`. -/
def parseUnsigned (bound : Nat) (text : String) : Option Nat :=
  let digits := if text.toList.head? = some '+' then text.toList.tail else text.toList
  if digits = [] then none
  else (TextCodec.decimal.read digits).filter fun n => decide (n < bound)

/-- `str::parse::<i32>`. -/
def parseI32 (text : String) : Option Int :=
  if text.toList.head? = some '-' then
    if text.toList.tail = [] then none
    else ((TextCodec.decimal.read text.toList.tail).filter fun n => decide (n ≤ 2 ^ 31)).map
      fun n => -(n : Int)
  else (parseUnsigned (2 ^ 31) text).map fun n => (n : Int)

/-- `str::parse::<bool>`. -/
def parseBool (text : String) : Option Bool :=
  if text = "true" then some true else if text = "false" then some false else none

/-- The first two pubkeys of a comma separated list that parse. -/
def pubkeyPair (text : String) : Option (Pubkey × Pubkey) :=
  match (splitComma text).filterMap fun a => parsePubkey (trim a) with
  | first :: second :: _ => some (first, second)
  | _ => none

/-! ## 2. The message -/

/-- `PoolCacheUpdateType`. -/
inductive PoolCacheUpdateType where
  | poolDiscovered
  | balanceUpdated
  | poolRemoved
  deriving DecidableEq

/-- The DEX names that the code compares with. -/
inductive Dex where
  | orca
  | raydium
  | raydiumCpmm
  | meteoraDlmm
  | meteoraCpmm
  | pumpAmm
  | pumpfun
  | restored
  | other
  deriving DecidableEq

/-- The metadata keys that the code reads. -/
inductive MetadataKey where
  | dexPoolReadiness
  | baseDecimals
  | quoteDecimals
  | orcaWhirlpoolVaults
  | orcaOnchainMints
  | orcaTickCurrentIndex
  | orcaTickSpacing
  | orcaSqrtPrice
  | orcaLiquidity
  | orcaFeeRate
  | orcaProtocolFeeRate
  | orcaTokenAProgram
  | orcaTokenBProgram
  | marketId
  | serumBids
  | serumAsks
  | serumEventQueue
  | serumBaseVault
  | serumQuoteVault
  | raydiumCpmmVaults
  | meteoraDlmmVaults
  | meteoraDlmmOnchainMints
  | meteoraDlmmActiveId
  | meteoraDlmmBinStep
  | meteoraDlmmHasBitmapExtension
  | meteoraDlmmBinArrayBitmap
  | meteoraDlmmBitmapExtensionPayload
  | meteoraCpmmVaults
  | meteoraCpmmOnchainMints
  | creator
  | poolAccounts
  | associatedBondingCurve
  | complete
  | realTokenReserves
  | realSolReserves
  | cashbackEnabled
  | pumpAmmLayoutGeneration
  | pumpAmmSellLayoutReady
  | pumpAmmSellLayoutAuthoritative
  | pumpAmmSellCashbackRemaining
  | pumpAmmSellCashbackThirdMeta
  | pumpAmmSellExtendedTail0
  | pumpAmmSellExtendedTail1
  | pumpAmmSellExtendedFeeTail0
  | pumpAmmSellExtendedFeeTail1
  | pumpAmmSellRequiresFeeTail
  | pumpAmmSellRequiresPreFeeMetas
  | pumpAmmSellPreFeeMeta1
  deriving DecidableEq

/-- The metadata of a message. -/
abbrev Metadata := AList fun _ : MetadataKey => String

/-- `PoolCacheUpdate`. -/
structure PoolCacheUpdate where
  updateType : PoolCacheUpdateType
  poolAddress : String
  dex : Dex
  baseMint : String
  quoteMint : String
  baseReserve : Nat
  quoteReserve : Nat
  geyserSlot : Nat
  metadata : Option Metadata

namespace PoolCacheUpdate

/-- `update.metadata.as_ref().and_then(|m| m.get(key))`. -/
def get (u : PoolCacheUpdate) (key : MetadataKey) : Option String :=
  u.metadata.bind fun m => m.lookup key

/-- A pubkey under a key. -/
def pubkeyAt (u : PoolCacheUpdate) (key : MetadataKey) : Option Pubkey := (u.get key).bind parsePubkey

/-- A pair of pubkeys under a key. -/
def pairAt (u : PoolCacheUpdate) (key : MetadataKey) : Option (Pubkey × Pubkey) :=
  (u.get key).bind pubkeyPair

/-- An unsigned number under a key, 0 without it. -/
def unsignedAt (u : PoolCacheUpdate) (key : MetadataKey) (bound : Nat) : Nat :=
  ((u.get key).bind (parseUnsigned bound)).getD 0

/-- Whether `"true"` stands under a key. -/
def trueAt (u : PoolCacheUpdate) (key : MetadataKey) : Bool := decide (u.get key = some "true")

/-- `PoolCacheUpdate::new_balance_updated`. -/
def newBalanceUpdated (poolAddress : String) (dex : Dex) (baseMint quoteMint : String)
    (baseReserve quoteReserve geyserSlot : Nat) : PoolCacheUpdate :=
  { updateType := .balanceUpdated, poolAddress, dex, baseMint, quoteMint, baseReserve,
    quoteReserve, geyserSlot, metadata := none }

end PoolCacheUpdate

/-! ## 3. Readiness -/

/-- `DexPoolReadiness`. -/
inductive DexPoolReadiness where
  | observed
  | partialReady
  | ready
  deriving DecidableEq

/-- `DexPoolReadiness::merge`. -/
def DexPoolReadiness.merge : DexPoolReadiness → DexPoolReadiness → DexPoolReadiness
  | .ready, _ | _, .ready => .ready
  | .observed, .observed => .observed
  | _, _ => .partialReady

/-- `DexPoolReadiness::parse_from_metadata`. -/
def DexPoolReadiness.parseFromMetadata (text : String) : Option DexPoolReadiness :=
  match trim text with
  | "OBSERVED" => some .observed
  | "PARTIAL" => some .partialReady
  | "READY" => some .ready
  | _ => none

/-- `legacy_pump_amm_metadata_implies_ready`. -/
def PoolCacheUpdate.legacyPumpAmmMetadataImpliesReady (u : PoolCacheUpdate) : Bool :=
  decide (u.dex = .pumpAmm) && decide (u.updateType ≠ .poolRemoved) &&
    !(decide (u.baseReserve = 0) || decide (u.quoteReserve = 0)) &&
    match u.get .poolAccounts with
    | none => false
    | some text => decide (14 ≤ (((splitComma text).filter fun x => !x.isEmpty).filterMap
        fun a => parsePubkey (trim a)).length)

/-- `effective_dex_readiness`. -/
def PoolCacheUpdate.effectiveDexReadiness (u : PoolCacheUpdate) : DexPoolReadiness :=
  match (u.get .dexPoolReadiness).bind DexPoolReadiness.parseFromMetadata with
  | some r => r
  | none => if u.legacyPumpAmmMetadataImpliesReady then .ready else .observed

/-! ## 4. The row of a message -/

/-- The balances of two on-chain mints, from the reserves of the normalized ones
    (`orca_map_normalized_reserves_to_vault_balances` and its two copies). -/
def mapNormalizedReserves {A : Type} (onchainA onchainB baseMint quoteMint : Pubkey)
    (baseReserve quoteReserve : A) : A × A :=
  if onchainA = baseMint ∧ onchainB = quoteMint then (baseReserve, quoteReserve)
  else if onchainA = quoteMint ∧ onchainB = baseMint then (quoteReserve, baseReserve)
  else (baseReserve, quoteReserve)

/-- `NATIVE_SOL_MINT`. -/
def nativeSolMint : Pubkey :=
  (parsePubkey "So11111111111111111111111111111111111111112").getD Pubkey.default

/-- `extract_reserves`. -/
def extractReserves : CachedPoolState → Nat × Nat
  | .orca s => (s.vaultABalance.getD 0, s.vaultBBalance.getD 0)
  | .raydiumAmm s => (s.coinReserve.getD 0, s.pcReserve.getD 0)
  | .raydiumCpmm s => (s.reserve0.getD 0, s.reserve1.getD 0)
  | .meteora s =>
      let rx := s.reserveXBalance.getD 0
      let ry := s.reserveYBalance.getD 0
      if s.tokenYMint = nativeSolMint then (rx, ry)
      else if s.tokenXMint = nativeSolMint then (ry, rx)
      else (rx, ry)
  | .pumpAmm s => (s.baseReserve.getD 0, s.quoteReserve.getD 0)
  | .pumpFun s => (s.virtualTokenReserves, s.virtualSolReserves)
  | .meteoraCpmm s =>
      if s.token1Mint = nativeSolMint then (s.reserve0, s.reserve1)
      else if s.token0Mint = nativeSolMint then (s.reserve1, s.reserve0)
      else (s.reserve0, s.reserve1)

section Minimal

variable (u : PoolCacheUpdate) (poolAddr baseMint quoteMint : Pubkey)
  (baseReserve quoteReserve : Nat)

/-- The mints and balances of a row: by the on-chain mints of the metadata, else as they come. -/
def onchainOrder (key : MetadataKey) : (Pubkey × Pubkey) × (Nat × Nat) :=
  match u.pairAt key with
  | some (mintA, mintB) =>
      ((mintA, mintB),
        mapNormalizedReserves mintA mintB baseMint quoteMint baseReserve quoteReserve)
  | none => ((baseMint, quoteMint), (baseReserve, quoteReserve))

/-- The row of an `orca` message. -/
def minimalOrca : OrcaWhirlpoolState :=
  let vaults := (u.pairAt .orcaWhirlpoolVaults).getD (Pubkey.default, Pubkey.default)
  let order := onchainOrder u baseMint quoteMint baseReserve quoteReserve .orcaOnchainMints
  { tokenMintA := order.1.1
    tokenMintB := order.1.2
    tokenVaultA := vaults.1
    tokenVaultB := vaults.2
    tickCurrentIndex := ((u.get .orcaTickCurrentIndex).bind parseI32).getD 0
    sqrtPrice := u.unsignedAt .orcaSqrtPrice (2 ^ 128)
    liquidity := u.unsignedAt .orcaLiquidity (2 ^ 128)
    feeRate := u.unsignedAt .orcaFeeRate (2 ^ 16)
    protocolFeeRate := u.unsignedAt .orcaProtocolFeeRate (2 ^ 16)
    tickSpacing := u.unsignedAt .orcaTickSpacing (2 ^ 16)
    vaultABalance := some order.2.1
    vaultBBalance := some order.2.2
    tokenAProgram := (u.get .orcaTokenAProgram).bind fun s => parsePubkey (trim s)
    tokenBProgram := (u.get .orcaTokenBProgram).bind fun s => parsePubkey (trim s)
    whirlpoolQuoteAccountSeeded :=
      (u.get .orcaTickCurrentIndex).isSome || (u.get .orcaTickSpacing).isSome ||
        (u.get .orcaSqrtPrice).isSome || (u.get .orcaLiquidity).isSome }

/-- The row of a `raydium` message. -/
def minimalRaydium : RaydiumAmmState :=
  { baseMint, quoteMint
    coinVault := Pubkey.default
    pcVault := Pubkey.default
    baseDecimals := 0
    quoteDecimals := 0
    coinReserve := some baseReserve
    pcReserve := some quoteReserve
    marketId := (u.pubkeyAt .marketId).getD Pubkey.default
    serumBids := u.pubkeyAt .serumBids
    serumAsks := u.pubkeyAt .serumAsks
    serumEventQueue := u.pubkeyAt .serumEventQueue
    serumBaseVault := u.pubkeyAt .serumBaseVault
    serumQuoteVault := u.pubkeyAt .serumQuoteVault }

/-- The row of a `raydium_cpmm` message. -/
def minimalRaydiumCpmm : RaydiumCpmmState :=
  { token0Mint := baseMint
    token1Mint := quoteMint
    token0Vault := Pubkey.default
    token1Vault := Pubkey.default
    reserve0 := some baseReserve
    reserve1 := some quoteReserve }

/-- The row of a `meteora_dlmm` message. -/
def minimalMeteora : MeteoraState :=
  let vaults := (u.pairAt .meteoraDlmmVaults).getD (Pubkey.default, Pubkey.default)
  let order := onchainOrder u baseMint quoteMint baseReserve quoteReserve .meteoraDlmmOnchainMints
  { tokenXMint := order.1.1
    tokenYMint := order.1.2
    reserveX := vaults.1
    reserveY := vaults.2
    activeId := ((u.get .meteoraDlmmActiveId).bind parseI32).getD 0
    binStep := u.unsignedAt .meteoraDlmmBinStep (2 ^ 16)
    reserveXBalance := some order.2.1
    reserveYBalance := some order.2.2
    dlmmBinParamsAccountSeeded :=
      (u.get .meteoraDlmmActiveId).isSome || (u.get .meteoraDlmmBinStep).isSome }

/-- The vault of a mint, from those of the base and the quote. -/
def vaultOfMint (mint baseVault quoteVault : Pubkey) : Pubkey :=
  if mint = baseMint then baseVault
  else if mint = quoteMint then quoteVault
  else Pubkey.default

/-- The row of a `meteora_cpmm` message; its vaults are set only where the order is known. -/
def minimalMeteoraCpmm : MeteoraCpmmState :=
  let order := onchainOrder u baseMint quoteMint baseReserve quoteReserve .meteoraCpmmOnchainMints
  let vaults :=
    if (u.get .meteoraCpmmOnchainMints).isSome then
      match u.pairAt .meteoraCpmmVaults with
      | some (baseVault, quoteVault) =>
          (vaultOfMint baseMint quoteMint order.1.1 baseVault quoteVault,
            vaultOfMint baseMint quoteMint order.1.2 baseVault quoteVault)
      | none => (Pubkey.default, Pubkey.default)
    else (Pubkey.default, Pubkey.default)
  { token0Mint := order.1.1
    token1Mint := order.1.2
    token0Vault := vaults.1
    token1Vault := vaults.2
    ammConfig := Pubkey.default
    observationKey := Pubkey.default
    token0Program := Pubkey.default
    token1Program := Pubkey.default
    reserve0 := order.2.1
    reserve1 := order.2.2
    mint0Decimals := 0
    mint1Decimals := 0
    status := 0 }

/-- The row of a `pump_amm` message. -/
def minimalPumpAmm : PumpAmmState :=
  { baseMint, quoteMint
    poolBaseTokenAccount := Pubkey.default
    poolQuoteTokenAccount := Pubkey.default
    baseReserve := some baseReserve
    quoteReserve := some quoteReserve
    poolAccounts := ((u.get .poolAccounts).map fun s => (splitComma s).filterMap parsePubkey).getD []
    creator := u.pubkeyAt .creator }

/-- The row of a `pumpfun` message. -/
def minimalPumpFun : PumpFunState :=
  { tokenMint := baseMint
    bondingCurve := poolAddr
    associatedBondingCurve := (u.pubkeyAt .associatedBondingCurve).getD Pubkey.default
    virtualSolReserves := quoteReserve
    virtualTokenReserves := baseReserve
    realSolReserves := u.unsignedAt .realSolReserves (2 ^ 64)
    realTokenReserves := u.unsignedAt .realTokenReserves (2 ^ 64)
    complete := u.trueAt .complete
    creator := (u.pubkeyAt .creator).getD Pubkey.default
    cashbackEnabled := u.trueAt .cashbackEnabled }

/-- The row by the DEX of the message. -/
def minimalState : Option CachedPoolState :=
  match u.dex with
  | .orca => some (.orca (minimalOrca u baseMint quoteMint baseReserve quoteReserve))
  | .raydium => some (.raydiumAmm (minimalRaydium u baseMint quoteMint baseReserve quoteReserve))
  | .raydiumCpmm =>
      some (.raydiumCpmm (minimalRaydiumCpmm baseMint quoteMint baseReserve quoteReserve))
  | .meteoraDlmm => some (.meteora (minimalMeteora u baseMint quoteMint baseReserve quoteReserve))
  | .meteoraCpmm =>
      some (.meteoraCpmm (minimalMeteoraCpmm u baseMint quoteMint baseReserve quoteReserve))
  | .pumpAmm => some (.pumpAmm (minimalPumpAmm u baseMint quoteMint baseReserve quoteReserve))
  | .pumpfun => some (.pumpFun (minimalPumpFun u poolAddr baseMint baseReserve quoteReserve))
  | .restored | .other => none

end Minimal

/-- `build_minimal_pool_state_with_reserves`. -/
def buildMinimalPoolStateWithReserves (u : PoolCacheUpdate) (baseReserve quoteReserve : Nat) :
    Option (Pubkey × CachedPoolState) :=
  (parsePubkey u.poolAddress).bind fun poolAddr =>
    (parsePubkey u.baseMint).bind fun baseMint =>
      (parsePubkey u.quoteMint).bind fun quoteMint =>
        (minimalState u poolAddr baseMint quoteMint baseReserve quoteReserve).map fun state =>
          (poolAddr, state)

/-- `build_minimal_pool_state`. -/
def buildMinimalPoolState (u : PoolCacheUpdate) : Option (Pubkey × CachedPoolState) :=
  buildMinimalPoolStateWithReserves u u.baseReserve u.quoteReserve

/-! ## 5. The type of a row -/

/-- The DEX of a row. -/
def CachedPoolState.dex : CachedPoolState → Dex
  | .orca _ => .orca
  | .raydiumAmm _ => .raydium
  | .raydiumCpmm _ => .raydiumCpmm
  | .meteora _ => .meteoraDlmm
  | .meteoraCpmm _ => .meteoraCpmm
  | .pumpFun _ => .pumpfun
  | .pumpAmm _ => .pumpAmm

theorem sameType_of_dex {ex inc : CachedPoolState} (h : inc.dex = ex.dex) :
    CachedPoolState.SameType ex inc := by
  cases ex <;> cases inc <;> first | constructor | cases h

theorem dex_merge {ex inc : CachedPoolState} (slot : Nat) :
    (mergeAccountParsePreservesExisting ex inc slot).dex = inc.dex := by
  cases ex <;> cases inc <;> rfl

theorem dex_fillTokenPrograms (c : LivePoolCache) (state : CachedPoolState) :
    (c.fillTokenPrograms state).dex = state.dex := by
  cases state <;> rfl

theorem dex_minimalState {u : PoolCacheUpdate} {poolAddr baseMint quoteMint : Pubkey}
    {base quote : Nat} {state : CachedPoolState}
    (h : minimalState u poolAddr baseMint quoteMint base quote = some state) :
    state.dex = u.dex := by
  unfold minimalState at h
  cases hd : u.dex <;> rw [hd] at h <;> first | (cases Option.some.inj h; rfl) | cases h

end IronCrab.Cache

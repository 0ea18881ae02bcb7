/-
  File:      IronCrab/Cache/PoolState.lean
  Subject:   THE CACHED POOL ROWS (`live_pool_cache.rs`): seven row types, their two sides, their
             fingerprint, and the merge of an account parse over an existing row.

  A row of every type but PumpFun has two vaults, A and B. What the code does to a row by its type,
  it does to a side: `sideBalance` and `vaultAt` read a side of any row, and the type-by-type
  functions of the source are read off through them:

  * `sideBalance_writeBalance_self`, `sideBalance_writeBalance_other` -- a balance write sets its
    own side and no other;
  * **`sideBalance_merge`** -- in a merge of two rows of one type a side holds what the incoming
    row reports, else what the row held.

  A side is REPORTED by an incoming row when it carries a balance for it: `None` is the absence of
  the optional reserves, `0/0` that of the two plain ones.
-/
import IronCrab.Track.Ownership

namespace IronCrab.Cache

open Track (Pubkey)

/-! ## 1. Rows -/

/-- `Pubkey::default()`. -/
def Pubkey.default : Pubkey := 0

/-- `OrcaWhirlpoolState`. -/
structure OrcaWhirlpoolState where
  tokenMintA : Pubkey
  tokenMintB : Pubkey
  tokenVaultA : Pubkey
  tokenVaultB : Pubkey
  tickCurrentIndex : Int
  sqrtPrice : Nat
  liquidity : Nat
  feeRate : Nat
  protocolFeeRate : Nat
  tickSpacing : Nat
  vaultABalance : Option Nat
  vaultBBalance : Option Nat
  tokenAProgram : Option Pubkey
  tokenBProgram : Option Pubkey
  whirlpoolQuoteAccountSeeded : Bool
  deriving DecidableEq

/-- `RaydiumAmmState`. -/
structure RaydiumAmmState where
  baseMint : Pubkey
  quoteMint : Pubkey
  coinVault : Pubkey
  pcVault : Pubkey
  baseDecimals : Nat
  quoteDecimals : Nat
  coinReserve : Option Nat
  pcReserve : Option Nat
  marketId : Pubkey
  serumBids : Option Pubkey
  serumAsks : Option Pubkey
  serumEventQueue : Option Pubkey
  serumBaseVault : Option Pubkey
  serumQuoteVault : Option Pubkey
  deriving DecidableEq

/-- `RaydiumCpmmState`. -/
structure RaydiumCpmmState where
  token0Mint : Pubkey
  token1Mint : Pubkey
  token0Vault : Pubkey
  token1Vault : Pubkey
  reserve0 : Option Nat
  reserve1 : Option Nat
  deriving DecidableEq

/-- `MeteoraState`. -/
structure MeteoraState where
  tokenXMint : Pubkey
  tokenYMint : Pubkey
  reserveX : Pubkey
  reserveY : Pubkey
  activeId : Int
  binStep : Nat
  reserveXBalance : Option Nat
  reserveYBalance : Option Nat
  dlmmBinParamsAccountSeeded : Bool
  deriving DecidableEq

/-- `MeteoraCpmmState`. -/
structure MeteoraCpmmState where
  token0Mint : Pubkey
  token1Mint : Pubkey
  token0Vault : Pubkey
  token1Vault : Pubkey
  ammConfig : Pubkey
  observationKey : Pubkey
  token0Program : Pubkey
  token1Program : Pubkey
  reserve0 : Nat
  reserve1 : Nat
  mint0Decimals : Nat
  mint1Decimals : Nat
  status : Nat
  deriving DecidableEq

/-- `PumpFunState`. -/
structure PumpFunState where
  tokenMint : Pubkey
  bondingCurve : Pubkey
  associatedBondingCurve : Pubkey
  virtualSolReserves : Nat
  virtualTokenReserves : Nat
  realSolReserves : Nat
  realTokenReserves : Nat
  complete : Bool
  creator : Pubkey
  cashbackEnabled : Bool
  deriving DecidableEq

/-- `PumpAmmState`. -/
structure PumpAmmState where
  baseMint : Pubkey
  quoteMint : Pubkey
  poolBaseTokenAccount : Pubkey
  poolQuoteTokenAccount : Pubkey
  baseReserve : Option Nat
  quoteReserve : Option Nat
  poolAccounts : List Pubkey
  creator : Option Pubkey
  deriving DecidableEq

/-- `CachedPoolState`. -/
inductive CachedPoolState where
  | orca (s : OrcaWhirlpoolState)
  | raydiumAmm (s : RaydiumAmmState)
  | raydiumCpmm (s : RaydiumCpmmState)
  | meteora (s : MeteoraState)
  | meteoraCpmm (s : MeteoraCpmmState)
  | pumpFun (s : PumpFunState)
  | pumpAmm (s : PumpAmmState)
  deriving DecidableEq

/-- `pump_amm_tx_layout_seed`. -/
def pumpAmmTxLayoutSeed (baseMint quoteMint poolBaseTokenAccount poolQuoteTokenAccount : Pubkey) :
    CachedPoolState :=
  .pumpAmm ⟨baseMint, quoteMint, poolBaseTokenAccount, poolQuoteTokenAccount, none, none, [], none⟩

/-- A Raydium CPMM row of the mints 1 and 2 with the vaults 3 and 4. -/
def cpmmRow (reserve0 reserve1 : Option Nat) : CachedPoolState :=
  .raydiumCpmm ⟨1, 2, 3, 4, reserve0, reserve1⟩

/-! ## 2. Fingerprint and reserve basis -/

/-- One value written to a `Hasher`. -/
inductive HashWrite where
  | opt (value : Option Nat)
  | u64 (value : Nat)
  | i32 (value : Int)
  | u16 (value : Nat)
  | bool (value : Bool)
  deriving DecidableEq

/-- The values that `pool_state_material_fingerprint` hashes. -/
def CachedPoolState.material : CachedPoolState → List HashWrite
  | .raydiumCpmm s => [.opt s.reserve0, .opt s.reserve1]
  | .meteoraCpmm s => [.u64 s.reserve0, .u64 s.reserve1]
  | .meteora s => [.opt s.reserveXBalance, .opt s.reserveYBalance, .i32 s.activeId, .u16 s.binStep]
  | .pumpAmm s => [.opt s.baseReserve, .opt s.quoteReserve]
  | .orca s => [.opt s.vaultABalance, .opt s.vaultBBalance]
  | .raydiumAmm s => [.opt s.coinReserve, .opt s.pcReserve]
  | .pumpFun s => [.u64 s.virtualSolReserves, .u64 s.virtualTokenReserves, .bool s.complete]

/-- `pool_state_material_fingerprint`; `finish` is the default hasher on the values written. -/
def poolStateMaterialFingerprint (finish : List HashWrite → Nat) (state : CachedPoolState) : Nat :=
  finish state.material

/-- `opt.is_some_and(|v| v > 0)`. -/
def fresh (opt : Option Nat) : Bool := opt.any fun v => decide (0 < v)

/-- `pool_state_has_reserve_basis`. -/
def poolStateHasReserveBasis : CachedPoolState → Bool
  | .raydiumCpmm s => fresh s.reserve0 || fresh s.reserve1
  | .meteoraCpmm s => decide (0 < s.reserve0) || decide (0 < s.reserve1)
  | .meteora s => fresh s.reserveXBalance || fresh s.reserveYBalance
  | .pumpAmm s => fresh s.baseReserve || fresh s.quoteReserve
  | .orca s => fresh s.vaultABalance || fresh s.vaultBBalance
  | .raydiumAmm s => fresh s.coinReserve || fresh s.pcReserve
  | .pumpFun s =>
      !s.complete && decide (0 < s.virtualSolReserves) && decide (0 < s.virtualTokenReserves)

/-! ## 3. The merge of an account parse -/

/-- `preserve_option_reserve`. -/
def preserveOptionReserve (incoming existing : Option Nat) : Option Nat :=
  match incoming with
  | none => existing
  | some v => some v

/-- `merge_meteora_cpmm_account_reserves_from_prior`. -/
def mergeMeteoraCpmmAccountReservesFromPrior (inc ex : MeteoraCpmmState) : MeteoraCpmmState :=
  if inc.reserve0 = 0 ∧ inc.reserve1 = 0 then
    { inc with reserve0 := ex.reserve0, reserve1 := ex.reserve1 }
  else inc

/-- `preserve_layout_pubkey`. -/
def preserveLayoutPubkey (incoming existing : Pubkey) : Pubkey :=
  if incoming = Pubkey.default ∧ existing ≠ Pubkey.default then existing else incoming

/-- `if inc.field.is_none() { inc.field = ex.field }`. -/
def orExisting {A : Type} (incoming existing : Option A) : Option A :=
  if incoming.isNone then existing else incoming

/-- `merge_raydium_amm_account_fields_from_prior`. -/
def mergeRaydiumAmmAccountFieldsFromPrior (newAm ex : RaydiumAmmState) : RaydiumAmmState :=
  { newAm with
    baseMint := preserveLayoutPubkey newAm.baseMint ex.baseMint
    quoteMint := preserveLayoutPubkey newAm.quoteMint ex.quoteMint
    coinVault := preserveLayoutPubkey newAm.coinVault ex.coinVault
    pcVault := preserveLayoutPubkey newAm.pcVault ex.pcVault
    coinReserve := preserveOptionReserve newAm.coinReserve ex.coinReserve
    pcReserve := preserveOptionReserve newAm.pcReserve ex.pcReserve
    marketId := if newAm.marketId = Pubkey.default ∧ ex.marketId ≠ Pubkey.default then ex.marketId
      else newAm.marketId
    serumBids := orExisting newAm.serumBids ex.serumBids
    serumAsks := orExisting newAm.serumAsks ex.serumAsks
    serumEventQueue := orExisting newAm.serumEventQueue ex.serumEventQueue
    serumBaseVault := orExisting newAm.serumBaseVault ex.serumBaseVault
    serumQuoteVault := orExisting newAm.serumQuoteVault ex.serumQuoteVault }

/-- `merge_account_parse_preserves_existing`. -/
def mergeAccountParsePreservesExisting (existing incoming : CachedPoolState) (slot : Nat) :
    CachedPoolState :=
  match existing, incoming with
  | .pumpAmm ex, .pumpAmm inc => .pumpAmm { inc with
      baseMint := preserveLayoutPubkey inc.baseMint ex.baseMint
      quoteMint := preserveLayoutPubkey inc.quoteMint ex.quoteMint
      poolBaseTokenAccount :=
        preserveLayoutPubkey inc.poolBaseTokenAccount ex.poolBaseTokenAccount
      poolQuoteTokenAccount :=
        preserveLayoutPubkey inc.poolQuoteTokenAccount ex.poolQuoteTokenAccount
      baseReserve := preserveOptionReserve inc.baseReserve ex.baseReserve
      quoteReserve := preserveOptionReserve inc.quoteReserve ex.quoteReserve
      poolAccounts := if inc.poolAccounts.isEmpty && !ex.poolAccounts.isEmpty then ex.poolAccounts
        else inc.poolAccounts
      creator := orExisting inc.creator ex.creator }
  | .orca ex, .orca inc => .orca { inc with
      tokenMintA := preserveLayoutPubkey inc.tokenMintA ex.tokenMintA
      tokenMintB := preserveLayoutPubkey inc.tokenMintB ex.tokenMintB
      tokenVaultA := preserveLayoutPubkey inc.tokenVaultA ex.tokenVaultA
      tokenVaultB := preserveLayoutPubkey inc.tokenVaultB ex.tokenVaultB
      vaultABalance := preserveOptionReserve inc.vaultABalance ex.vaultABalance
      vaultBBalance := preserveOptionReserve inc.vaultBBalance ex.vaultBBalance
      tokenAProgram := orExisting inc.tokenAProgram ex.tokenAProgram
      tokenBProgram := orExisting inc.tokenBProgram ex.tokenBProgram
      whirlpoolQuoteAccountSeeded :=
        ex.whirlpoolQuoteAccountSeeded || inc.whirlpoolQuoteAccountSeeded }
  | .raydiumAmm ex, .raydiumAmm inc => .raydiumAmm (mergeRaydiumAmmAccountFieldsFromPrior inc ex)
  | .raydiumCpmm ex, .raydiumCpmm inc => .raydiumCpmm { inc with
      token0Mint := preserveLayoutPubkey inc.token0Mint ex.token0Mint
      token1Mint := preserveLayoutPubkey inc.token1Mint ex.token1Mint
      token0Vault := preserveLayoutPubkey inc.token0Vault ex.token0Vault
      token1Vault := preserveLayoutPubkey inc.token1Vault ex.token1Vault
      reserve0 := preserveOptionReserve inc.reserve0 ex.reserve0
      reserve1 := preserveOptionReserve inc.reserve1 ex.reserve1 }
  | .meteora ex, .meteora inc => .meteora { inc with
      tokenXMint := preserveLayoutPubkey inc.tokenXMint ex.tokenXMint
      tokenYMint := preserveLayoutPubkey inc.tokenYMint ex.tokenYMint
      reserveX := preserveLayoutPubkey inc.reserveX ex.reserveX
      reserveY := preserveLayoutPubkey inc.reserveY ex.reserveY
      reserveXBalance := preserveOptionReserve inc.reserveXBalance ex.reserveXBalance
      reserveYBalance := preserveOptionReserve inc.reserveYBalance ex.reserveYBalance
      dlmmBinParamsAccountSeeded :=
        ex.dlmmBinParamsAccountSeeded || inc.dlmmBinParamsAccountSeeded }
  | .meteoraCpmm ex, .meteoraCpmm inc => .meteoraCpmm
      -- slot 0 is a cold-path hydration, whose zero balances were observed
      (if 0 < slot then mergeMeteoraCpmmAccountReservesFromPrior inc ex else inc)
  | _, incoming => incoming

/-- `CachedPoolState::dex_name`. -/
def CachedPoolState.dexName : CachedPoolState → String
  | .orca _ => "orca"
  | .raydiumAmm _ => "raydium"
  | .raydiumCpmm _ => "raydium_cpmm"
  | .meteora _ => "meteora_dlmm"
  | .meteoraCpmm _ => "meteora_cpmm"
  | .pumpFun _ => "pumpfun"
  | .pumpAmm _ => "pump_amm"

/-! ## 4. Sides -/

/-- `VaultPosition`. -/
inductive VaultPosition where
  | a
  | b
  deriving DecidableEq

/-- The other side. -/
def VaultPosition.other : VaultPosition → VaultPosition
  | a => b
  | b => a

/-- What stands on a side. -/
def VaultPosition.pick {A : Type} (pos : VaultPosition) (x y : A) : A :=
  match pos with
  | a => x
  | b => y

/-- The two vault pubkeys of a row, on their sides (`register_vaults`). -/
def CachedPoolState.vaultPair : CachedPoolState → Option (Pubkey × Pubkey)
  | .orca s => some (s.tokenVaultA, s.tokenVaultB)
  | .raydiumAmm s => some (s.coinVault, s.pcVault)
  | .raydiumCpmm s => some (s.token0Vault, s.token1Vault)
  | .meteora s => some (s.reserveX, s.reserveY)
  | .meteoraCpmm s => some (s.token0Vault, s.token1Vault)
  | .pumpAmm s => some (s.poolBaseTokenAccount, s.poolQuoteTokenAccount)
  | .pumpFun _ => none

/-- `vault_pubkeys_for_pool_state`. -/
def vaultPubkeysForPoolState (state : CachedPoolState) : List Pubkey :=
  match state.vaultPair with
  | some (vaultA, vaultB) => [vaultA, vaultB]
  | none => []

/-- The known vault of a side. -/
def CachedPoolState.vaultAt (state : CachedPoolState) (pos : VaultPosition) : Option Pubkey :=
  (state.vaultPair.map fun pair => pos.pick pair.1 pair.2).filter fun v =>
    decide (v ≠ Pubkey.default)

/-- The stored balance of a side; a bonding curve's sides are its token and its SOL. -/
def CachedPoolState.sideBalance (state : CachedPoolState) (pos : VaultPosition) : Option Nat :=
  match state with
  | .orca s => pos.pick s.vaultABalance s.vaultBBalance
  | .raydiumAmm s => pos.pick s.coinReserve s.pcReserve
  | .raydiumCpmm s => pos.pick s.reserve0 s.reserve1
  | .meteora s => pos.pick s.reserveXBalance s.reserveYBalance
  | .meteoraCpmm s => some (pos.pick s.reserve0 s.reserve1)
  | .pumpFun s => some (pos.pick s.virtualTokenReserves s.virtualSolReserves)
  | .pumpAmm s => pos.pick s.baseReserve s.quoteReserve

/-- The balance that an incoming row carries for a side. -/
def CachedPoolState.reported (state : CachedPoolState) (pos : VaultPosition) : Option Nat :=
  match state with
  | .meteoraCpmm s =>
      if s.reserve0 = 0 ∧ s.reserve1 = 0 then none else some (pos.pick s.reserve0 s.reserve1)
  | state => state.sideBalance pos

/-- The first `match` of `update_vault_balance`. -/
def balanceChanged (state : CachedPoolState) (pos : VaultPosition) (balance : Nat) : Bool :=
  match state with
  | .orca s => decide (pos.pick s.vaultABalance s.vaultBBalance ≠ some balance)
  | .raydiumAmm s => decide (pos.pick s.coinReserve s.pcReserve ≠ some balance)
  | .raydiumCpmm s => decide (pos.pick s.reserve0 s.reserve1 ≠ some balance)
  | .meteora s => decide (pos.pick s.reserveXBalance s.reserveYBalance ≠ some balance)
  | .meteoraCpmm s => decide (pos.pick s.reserve0 s.reserve1 ≠ balance)
  | .pumpAmm s => decide (pos.pick s.baseReserve s.quoteReserve ≠ some balance)
  | .pumpFun _ => false

/-- The second `match` of `update_vault_balance`. -/
def writeBalance (state : CachedPoolState) (pos : VaultPosition) (balance : Nat) :
    CachedPoolState :=
  match state, pos with
  | .orca s, .a => .orca { s with vaultABalance := some balance }
  | .orca s, .b => .orca { s with vaultBBalance := some balance }
  | .raydiumAmm s, .a => .raydiumAmm { s with coinReserve := some balance }
  | .raydiumAmm s, .b => .raydiumAmm { s with pcReserve := some balance }
  | .raydiumCpmm s, .a => .raydiumCpmm { s with reserve0 := some balance }
  | .raydiumCpmm s, .b => .raydiumCpmm { s with reserve1 := some balance }
  | .meteora s, .a => .meteora { s with reserveXBalance := some balance }
  | .meteora s, .b => .meteora { s with reserveYBalance := some balance }
  | .meteoraCpmm s, .a => .meteoraCpmm { s with reserve0 := balance }
  | .meteoraCpmm s, .b => .meteoraCpmm { s with reserve1 := balance }
  | .pumpAmm s, .a => .pumpAmm { s with baseReserve := some balance }
  | .pumpAmm s, .b => .pumpAmm { s with quoteReserve := some balance }
  | .pumpFun s, _ => .pumpFun s

/-! ## 5. What the functions do to a side -/

namespace CachedPoolState

theorem balanceChanged_iff {state : CachedPoolState} {pos : VaultPosition} {balance : Nat} :
    balanceChanged state pos balance = true ↔
      state.vaultPair.isSome = true ∧ state.sideBalance pos ≠ some balance := by
  cases state <;> simp [balanceChanged, vaultPair, sideBalance]

theorem vaultPair_writeBalance (state : CachedPoolState) (pos : VaultPosition) (balance : Nat) :
    (writeBalance state pos balance).vaultPair = state.vaultPair := by
  cases state <;> cases pos <;> rfl

theorem vaultAt_writeBalance (state : CachedPoolState) (pos q : VaultPosition) (balance : Nat) :
    (writeBalance state pos balance).vaultAt q = state.vaultAt q := by
  unfold vaultAt
  rw [vaultPair_writeBalance]

theorem sideBalance_writeBalance_self {state : CachedPoolState}
    (h : state.vaultPair.isSome = true) (pos : VaultPosition) (balance : Nat) :
    (writeBalance state pos balance).sideBalance pos = some balance := by
  cases state <;> cases pos <;> first | rfl | cases h

theorem sideBalance_writeBalance_other (state : CachedPoolState) (pos : VaultPosition)
    (balance : Nat) :
    (writeBalance state pos balance).sideBalance pos.other = state.sideBalance pos.other := by
  cases state <;> cases pos <;> rfl

theorem dexName_writeBalance (state : CachedPoolState) (pos : VaultPosition) (balance : Nat) :
    (writeBalance state pos balance).dexName = state.dexName := by
  cases state <;> cases pos <;> rfl

/-- A side with a known vault is a side of a row with vaults. -/
theorem vaultPair_of_vaultAt {state : CachedPoolState} {pos : VaultPosition} {vault : Pubkey}
    (h : state.vaultAt pos = some vault) : state.vaultPair.isSome = true := by
  unfold vaultAt at h
  cases hp : state.vaultPair with
  | none => rw [hp] at h; cases h
  | some pair => rfl

/-- A known vault is one of the row's vault pubkeys. -/
theorem mem_vaultPubkeys {state : CachedPoolState} {pos : VaultPosition} {vault : Pubkey}
    (h : state.vaultAt pos = some vault) : vault ∈ vaultPubkeysForPoolState state := by
  unfold vaultAt at h
  unfold vaultPubkeysForPoolState
  cases hp : state.vaultPair with
  | none => rw [hp] at h; cases h
  | some pair =>
      rw [hp] at h
      have hv := Option.eq_some_of_filter_eq_some h
      cases pos <;> simp_all [VaultPosition.pick]

@[simp] theorem reported_meteoraCpmm (s : MeteoraCpmmState) (pos : VaultPosition) :
    (meteoraCpmm s).reported pos =
      if s.reserve0 = 0 ∧ s.reserve1 = 0 then none else some (pos.pick s.reserve0 s.reserve1) := rfl

@[simp] theorem pick_preserveOptionReserve (pos : VaultPosition) (x y x' y' : Option Nat) :
    pos.pick (preserveOptionReserve x x') (preserveOptionReserve y y') =
      preserveOptionReserve (pos.pick x y) (pos.pick x' y') := by
  cases pos <;> rfl

/-- What a row reports for a side it stores there. -/
theorem sideBalance_of_reported {state : CachedPoolState} {pos : VaultPosition} {balance : Nat}
    (h : state.reported pos = some balance) : state.sideBalance pos = some balance := by
  cases state with
  | meteoraCpmm s =>
      rw [reported_meteoraCpmm] at h
      split_ifs at h with hz
      exact h
  | _ => exact h

/-- Rows of different types are not merged. -/
theorem merge_of_dexName_ne {ex inc : CachedPoolState} (h : inc.dexName ≠ ex.dexName)
    (slot : Nat) : mergeAccountParsePreservesExisting ex inc slot = inc := by
  cases ex <;> cases inc <;> first | rfl | exact absurd rfl h

theorem mergeMeteoraCpmm_cases (inc ex : MeteoraCpmmState) :
    (inc.reserve0 = 0 ∧ inc.reserve1 = 0 ∧
      mergeMeteoraCpmmAccountReservesFromPrior inc ex =
        { inc with reserve0 := ex.reserve0, reserve1 := ex.reserve1 }) ∨
    ¬ (inc.reserve0 = 0 ∧ inc.reserve1 = 0) ∧
      mergeMeteoraCpmmAccountReservesFromPrior inc ex = inc := by
  unfold mergeMeteoraCpmmAccountReservesFromPrior
  split_ifs with h
  · exact .inl ⟨h.1, h.2, rfl⟩
  · exact .inr ⟨h, rfl⟩

/-- Two rows of one type. -/
inductive SameType : CachedPoolState → CachedPoolState → Prop where
  | orca (ex inc : OrcaWhirlpoolState) : SameType (.orca ex) (.orca inc)
  | raydiumAmm (ex inc : RaydiumAmmState) : SameType (.raydiumAmm ex) (.raydiumAmm inc)
  | raydiumCpmm (ex inc : RaydiumCpmmState) : SameType (.raydiumCpmm ex) (.raydiumCpmm inc)
  | meteora (ex inc : MeteoraState) : SameType (.meteora ex) (.meteora inc)
  | meteoraCpmm (ex inc : MeteoraCpmmState) : SameType (.meteoraCpmm ex) (.meteoraCpmm inc)
  | pumpFun (ex inc : PumpFunState) : SameType (.pumpFun ex) (.pumpFun inc)
  | pumpAmm (ex inc : PumpAmmState) : SameType (.pumpAmm ex) (.pumpAmm inc)

theorem sameType_of_dexName {ex inc : CachedPoolState} (h : inc.dexName = ex.dexName) :
    SameType ex inc := by
  cases ex <;> cases inc <;> first | constructor | exact absurd h (by simp [dexName])

/-- **In a merge of two rows of one type a side holds what the incoming row reports, else what
    the row held.** -/
theorem sideBalance_merge {ex inc : CachedPoolState} (hd : inc.dexName = ex.dexName) {slot : Nat}
    (hs : 0 < slot) (pos : VaultPosition) :
    (mergeAccountParsePreservesExisting ex inc slot).sideBalance pos =
      preserveOptionReserve (inc.reported pos) (ex.sideBalance pos) := by
  cases sameType_of_dexName hd with
  | meteoraCpmm ex inc =>
      have he : mergeAccountParsePreservesExisting (.meteoraCpmm ex) (.meteoraCpmm inc) slot =
          .meteoraCpmm (mergeMeteoraCpmmAccountReservesFromPrior inc ex) :=
        congrArg CachedPoolState.meteoraCpmm (if_pos hs)
      rw [he, reported_meteoraCpmm]
      obtain ⟨h0, h1, hm⟩ | ⟨hn, hm⟩ := mergeMeteoraCpmm_cases inc ex
      · rw [hm, if_pos ⟨h0, h1⟩]
        rfl
      · rw [hm, if_neg hn]
        rfl
  | pumpFun ex inc => rfl
  | _ => exact pick_preserveOptionReserve pos _ _ _ _

/-- **A merged row holds what the incoming row reports.** -/
theorem sideBalance_merge_of_reported {inc : CachedPoolState} {pos : VaultPosition} {balance : Nat}
    (h : inc.reported pos = some balance) (ex : CachedPoolState) {slot : Nat} (hs : 0 < slot) :
    (mergeAccountParsePreservesExisting ex inc slot).sideBalance pos = some balance := by
  by_cases hd : inc.dexName = ex.dexName
  · rw [sideBalance_merge hd hs, h]
    rfl
  · rw [merge_of_dexName_ne hd]
    exact sideBalance_of_reported h

/-- **A merged row keeps the side that the incoming row of its type does not report.** -/
theorem sideBalance_merge_of_silent {ex inc : CachedPoolState} {pos : VaultPosition}
    (hd : inc.dexName = ex.dexName) (h : inc.reported pos = none) {slot : Nat} (hs : 0 < slot) :
    (mergeAccountParsePreservesExisting ex inc slot).sideBalance pos = ex.sideBalance pos := by
  rw [sideBalance_merge hd hs, h]
  rfl

end CachedPoolState

end IronCrab.Cache

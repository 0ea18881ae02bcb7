/-
  File:      IronCrab/Ipc/MarketEvent.lean
  Subject:   THE MARKET EVENTS ON THE WIRE (src/ipc/schema.rs): every `MarketEventKind`, flattened
             with the header into one object.
-/
import IronCrab.Ipc.Header

namespace IronCrab.Ipc

open Wire

/-! ## 1. What the events carry -/

/-- `BinData`. -/
structure BinData where
  offset : UInt8
  amountX : UInt64
  amountY : UInt64

def BinData.codec : Codec F64 BinData :=
  .object <| (Fields.part
    (.cons (.required "offset" u8) <|
      .cons (.required "amount_x" u64) <|
      .cons (.required "amount_y" u64) .nil)
    (by decide)).map
    (fun (offset, amountX, amountY, ()) =>
      ⟨offset, amountX, amountY⟩)
    (fun r => (r.offset, r.amountX, r.amountY, ()))
    (fun _ => rfl)

/-- `OrcaTickSnapshot`. -/
structure OrcaTickSnapshot where
  tickIndex : Signed 32
  initialized : Bool
  liquidityNet : String

def OrcaTickSnapshot.codec : Codec F64 OrcaTickSnapshot :=
  .object <| (Fields.part
    (.cons (.required "tick_index" (signed 32)) <|
      .cons (.required "initialized" bool) <|
      .cons (.required "liquidity_net" string) .nil)
    (by decide)).map
    (fun (tickIndex, initialized, liquidityNet, ()) =>
      ⟨tickIndex, initialized, liquidityNet⟩)
    (fun r => (r.tickIndex, r.initialized, r.liquidityNet, ()))
    (fun _ => rfl)

/-- `WalletType`. -/
inductive WalletType where
  | smartMoney | devWallet | earlyBuyer | insider | knownBadActor | whale
  deriving DecidableEq

def WalletType.name : WalletType → String
  | .smartMoney => "SmartMoney"
  | .devWallet => "DevWallet"
  | .earlyBuyer => "EarlyBuyer"
  | .insider => "Insider"
  | .knownBadActor => "KnownBadActor"
  | .whale => "Whale"

def WalletType.codec : Codec F64 WalletType :=
  unitEnum [.smartMoney, .devWallet, .earlyBuyer, .insider, .knownBadActor, .whale]
    name fun a => by cases a <;> rfl

/-- `WalletAction`. -/
inductive WalletAction where
  | buy | sell | transfer | addLiquidity | removeLiquidity
  deriving DecidableEq

def WalletAction.name : WalletAction → String
  | .buy => "Buy"
  | .sell => "Sell"
  | .transfer => "Transfer"
  | .addLiquidity => "AddLiquidity"
  | .removeLiquidity => "RemoveLiquidity"

def WalletAction.codec : Codec F64 WalletAction :=
  unitEnum [.buy, .sell, .transfer, .addLiquidity, .removeLiquidity]
    name fun a => by cases a <;> rfl

/-- `InsiderAlertType`. -/
inductive InsiderAlertType where
  | coordinatedBuying | devSelling | badActorActive | walletClusterActive | whaleDumping
  deriving DecidableEq

def InsiderAlertType.name : InsiderAlertType → String
  | .coordinatedBuying => "CoordinatedBuying"
  | .devSelling => "DevSelling"
  | .badActorActive => "BadActorActive"
  | .walletClusterActive => "WalletClusterActive"
  | .whaleDumping => "WhaleDumping"

def InsiderAlertType.codec : Codec F64 InsiderAlertType :=
  unitEnum [.coordinatedBuying, .devSelling, .badActorActive, .walletClusterActive, .whaleDumping]
    name fun a => by cases a <;> rfl

/-- `AlertSeverity`. -/
inductive AlertSeverity where
  | info | warning | critical
  deriving DecidableEq

def AlertSeverity.name : AlertSeverity → String
  | .info => "Info"
  | .warning => "Warning"
  | .critical => "Critical"

def AlertSeverity.codec : Codec F64 AlertSeverity :=
  unitEnum [.info, .warning, .critical] name fun a => by cases a <;> rfl

/-! ## 2. The kinds of events -/

/-- `MarketEventKind`. -/
inductive MarketEventKind where
  | poolCreated (poolAddress baseMint quoteMint dex : String)
      (initialLiquiditySol : Option Decimal)
  | dexPoolAccounts (dex poolAddress baseMint quoteMint : String) (accounts : List String)
  | trade (poolAddress mint quoteMint trader : String) (isBuy : Bool)
      (solAmount tokenAmount : UInt64) (tokenDecimals : UInt8) (signature : Option String)
      (dex : String) (creator tokenProgram : Option String)
  | swapObserved (poolAddress signature side : String) (amountIn amountOut : ExplicitAmount)
  | priceUpdate (poolAddress baseMint quoteMint : String) (price : Decimal)
      (liquiditySol : Option Decimal)
  | liquidityRemoved (poolAddress mint : String) (solAmount tokenAmount : UInt64)
      (signature : Option String)
  | devWalletIdentified (mint devWallet : String) (supplyPercentage : F64)
  | tokenMintInfo (mint tokenProgram : String) (decimals : UInt8) (supply : UInt64)
      (mintAuthority freezeAuthority : Option String)
  | slotUpdate (currentSlot : UInt64)
  | latestBlockhash (blockhash : String) (slot blockHeight : UInt64)
  | poolStateUpdate (poolAddress dex : String) (reserveBase reserveQuote : UInt64)
      (baseMint quoteMint : String) (updateSlot : UInt64) (activeId : Option (Signed 32))
      (binStep : Option UInt16)
  | binArrayUpdate (poolAddress : String) (binArrayIndex : Signed 64) (bins : List BinData)
      (updateSlot : UInt64)
  | orcaTickArrayUpdate (poolAddress : String) (startTickIndex : Signed 32)
      (ticks : List OrcaTickSnapshot) (updateSlot : UInt64)
  | bondingCurveProgress (mint bondingCurve : String) (progressBps : UInt32) (complete : Bool)
  | accountUpdate (pubkey owner : String) (dataLen : UInt64)
  | transactionDetected (signature program : String)
  | walletBalanceSnapshot (mint : String) (balanceRaw : UInt64) (decimals : UInt8)
      (tokenProgram : String)
  | walletSnapshotComplete (mintsInWallet : List String) (wallet : String) (isPeriodic : Bool)
  | walletTxConfirmed (wallet signature : String) (err : Option String)
  | walletActivity (wallet : String) (walletType : WalletType) (action : WalletAction)
      (mint : String) (amountSol amountTokens : UInt64) (signature : String)
      (walletWinRate : Option F64)
  | earlyBuyerDetected (mint buyerWallet : String)
      (buySlot slotsAfterCreation amountSol amountTokens : UInt64) (buyerRank : UInt32)
  | insiderAlert (mint : String) (alertType : InsiderAlertType) (walletsInvolved : List String)
      (description : String) (severity : AlertSeverity)

def MarketEventKind.variants (S : Serde) : Variants F64 MarketEventKind where
  tag := "kind"
  variants :=
    [.of "PoolCreated"
        (.cons (.required "pool_address" string) <|
          .cons (.required "base_mint" string) <|
          .cons (.withDefault "quote_mint" string nativeSolMint) <|
          .cons (.required "dex" string) <|
          .cons (.nullable "initial_liquidity_sol" (decimal S)) .nil)
        (of_decide_eq_true rfl)
        (fun (poolAddress, baseMint, quoteMint, dex, initialLiquiditySol, ()) =>
          .poolCreated poolAddress baseMint quoteMint dex initialLiquiditySol)
        (fun
          | .poolCreated poolAddress baseMint quoteMint dex initialLiquiditySol =>
            some (poolAddress, baseMint, quoteMint, dex, initialLiquiditySol, ())
          | _ => none)
        (fun k p h => by
          split at h <;> cases h
          rfl),
      .of "DexPoolAccounts"
        (.cons (.required "dex" string) <|
          .cons (.required "pool_address" string) <|
          .cons (.required "base_mint" string) <|
          .cons (.withDefault "quote_mint" string nativeSolMint) <|
          .cons (.required "accounts" (.list string)) .nil)
        (by decide)
        (fun (dex, poolAddress, baseMint, quoteMint, accounts, ()) =>
          .dexPoolAccounts dex poolAddress baseMint quoteMint accounts)
        (fun
          | .dexPoolAccounts dex poolAddress baseMint quoteMint accounts =>
            some (dex, poolAddress, baseMint, quoteMint, accounts, ())
          | _ => none)
        (fun k p h => by
          split at h <;> cases h
          rfl),
      .of "Trade"
        (.cons (.required "pool_address" string) <|
          .cons (.required "mint" string) <|
          .cons (.withDefault "quote_mint" string nativeSolMint) <|
          .cons (.required "trader" string) <|
          .cons (.required "is_buy" bool) <|
          .cons (.required "sol_amount" u64) <|
          .cons (.required "token_amount" u64) <|
          .cons (.required "token_decimals" u8) <|
          .cons (.nullable "signature" string) <|
          .cons (.required "dex" string) <|
          .cons (.optional "creator" string) <|
          .cons (.optional "token_program" string) .nil)
        (by decide)
        (fun (poolAddress, mint, quoteMint, trader, isBuy, solAmount, tokenAmount, tokenDecimals,
            signature, dex, creator, tokenProgram, ()) =>
          .trade poolAddress mint quoteMint trader isBuy solAmount tokenAmount tokenDecimals
            signature dex creator tokenProgram)
        (fun
          | .trade poolAddress mint quoteMint trader isBuy solAmount tokenAmount tokenDecimals
            signature dex creator tokenProgram =>
            some (poolAddress, mint, quoteMint, trader, isBuy, solAmount, tokenAmount,
              tokenDecimals,            signature, dex, creator, tokenProgram, ())
          | _ => none)
        (fun k p h => by
          split at h <;> cases h
          rfl),
      .of "SwapObserved"
        (.cons (.required "pool_address" string) <|
          .cons (.required "signature" string) <|
          .cons (.required "side" string) <|
          .cons (.required "amount_in" (ExplicitAmount.codec S)) <|
          .cons (.required "amount_out" (ExplicitAmount.codec S)) .nil)
        (of_decide_eq_true rfl)
        (fun (poolAddress, signature, side, amountIn, amountOut, ()) =>
          .swapObserved poolAddress signature side amountIn amountOut)
        (fun
          | .swapObserved poolAddress signature side amountIn amountOut =>
            some (poolAddress, signature, side, amountIn, amountOut, ())
          | _ => none)
        (fun k p h => by
          split at h <;> cases h
          rfl),
      .of "PriceUpdate"
        (.cons (.required "pool_address" string) <|
          .cons (.required "base_mint" string) <|
          .cons (.withDefault "quote_mint" string nativeSolMint) <|
          .cons (.required "price" (decimal S)) <|
          .cons (.nullable "liquidity_sol" (decimal S)) .nil)
        (of_decide_eq_true rfl)
        (fun (poolAddress, baseMint, quoteMint, price, liquiditySol, ()) =>
          .priceUpdate poolAddress baseMint quoteMint price liquiditySol)
        (fun
          | .priceUpdate poolAddress baseMint quoteMint price liquiditySol =>
            some (poolAddress, baseMint, quoteMint, price, liquiditySol, ())
          | _ => none)
        (fun k p h => by
          split at h <;> cases h
          rfl),
      .of "LiquidityRemoved"
        (.cons (.required "pool_address" string) <|
          .cons (.required "mint" string) <|
          .cons (.required "sol_amount" u64) <|
          .cons (.required "token_amount" u64) <|
          .cons (.nullable "signature" string) .nil)
        (by decide)
        (fun (poolAddress, mint, solAmount, tokenAmount, signature, ()) =>
          .liquidityRemoved poolAddress mint solAmount tokenAmount signature)
        (fun
          | .liquidityRemoved poolAddress mint solAmount tokenAmount signature =>
            some (poolAddress, mint, solAmount, tokenAmount, signature, ())
          | _ => none)
        (fun k p h => by
          split at h <;> cases h
          rfl),
      .of "DevWalletIdentified"
        (.cons (.required "mint" string) <|
          .cons (.required "dev_wallet" string) <|
          .cons (.required "supply_percentage" f64) .nil)
        (by decide)
        (fun (mint, devWallet, supplyPercentage, ()) =>
          .devWalletIdentified mint devWallet supplyPercentage)
        (fun
          | .devWalletIdentified mint devWallet supplyPercentage =>
            some (mint, devWallet, supplyPercentage, ())
          | _ => none)
        (fun k p h => by
          split at h <;> cases h
          rfl),
      .of "TokenMintInfo"
        (.cons (.required "mint" string) <|
          .cons (.required "token_program" string) <|
          .cons (.required "decimals" u8) <|
          .cons (.required "supply" u64) <|
          .cons (.nullable "mint_authority" string) <|
          .cons (.nullable "freeze_authority" string) .nil)
        (by decide)
        (fun (mint, tokenProgram, decimals, supply, mintAuthority, freezeAuthority, ()) =>
          .tokenMintInfo mint tokenProgram decimals supply mintAuthority freezeAuthority)
        (fun
          | .tokenMintInfo mint tokenProgram decimals supply mintAuthority freezeAuthority =>
            some (mint, tokenProgram, decimals, supply, mintAuthority, freezeAuthority, ())
          | _ => none)
        (fun k p h => by
          split at h <;> cases h
          rfl),
      .of "SlotUpdate"
        (.cons (.required "current_slot" u64) .nil)
        (by decide)
        (fun (currentSlot, ()) =>
          .slotUpdate currentSlot)
        (fun
          | .slotUpdate currentSlot =>
            some (currentSlot, ())
          | _ => none)
        (fun k p h => by
          split at h <;> cases h
          rfl),
      .of "LatestBlockhash"
        (.cons (.required "blockhash" string) <|
          .cons (.required "blockhash_slot" u64) <|
          .cons (.required "block_height" u64) .nil)
        (by decide)
        (fun (blockhash, slot, blockHeight, ()) =>
          .latestBlockhash blockhash slot blockHeight)
        (fun
          | .latestBlockhash blockhash slot blockHeight =>
            some (blockhash, slot, blockHeight, ())
          | _ => none)
        (fun k p h => by
          split at h <;> cases h
          rfl),
      .of "PoolStateUpdate"
        (.cons (.required "pool_address" string) <|
          .cons (.required "dex" string) <|
          .cons (.required "reserve_base" u64) <|
          .cons (.required "reserve_quote" u64) <|
          .cons (.required "base_mint" string) <|
          .cons (.withDefault "quote_mint" string nativeSolMint) <|
          .cons (.required "update_slot" u64) <|
          .cons (.optional "active_id" (signed 32)) <|
          .cons (.optional "bin_step" u16) .nil)
        (by decide)
        (fun (poolAddress, dex, reserveBase, reserveQuote, baseMint, quoteMint, updateSlot,
            activeId, binStep, ()) =>
          .poolStateUpdate poolAddress dex reserveBase reserveQuote baseMint quoteMint
            updateSlot activeId binStep)
        (fun
          | .poolStateUpdate poolAddress dex reserveBase reserveQuote baseMint quoteMint
            updateSlot activeId binStep =>
            some (poolAddress, dex, reserveBase, reserveQuote, baseMint, quoteMint, updateSlot,
            activeId, binStep, ())
          | _ => none)
        (fun k p h => by
          split at h <;> cases h
          rfl),
      .of "BinArrayUpdate"
        (.cons (.required "pool_address" string) <|
          .cons (.required "bin_array_index" (signed 64)) <|
          .cons (.required "bins" (.list BinData.codec)) <|
          .cons (.required "update_slot" u64) .nil)
        (by decide)
        (fun (poolAddress, binArrayIndex, bins, updateSlot, ()) =>
          .binArrayUpdate poolAddress binArrayIndex bins updateSlot)
        (fun
          | .binArrayUpdate poolAddress binArrayIndex bins updateSlot =>
            some (poolAddress, binArrayIndex, bins, updateSlot, ())
          | _ => none)
        (fun k p h => by
          split at h <;> cases h
          rfl),
      .of "OrcaTickArrayUpdate"
        (.cons (.required "pool_address" string) <|
          .cons (.required "start_tick_index" (signed 32)) <|
          .cons (.required "ticks" (.list OrcaTickSnapshot.codec)) <|
          .cons (.required "update_slot" u64) .nil)
        (by decide)
        (fun (poolAddress, startTickIndex, ticks, updateSlot, ()) =>
          .orcaTickArrayUpdate poolAddress startTickIndex ticks updateSlot)
        (fun
          | .orcaTickArrayUpdate poolAddress startTickIndex ticks updateSlot =>
            some (poolAddress, startTickIndex, ticks, updateSlot, ())
          | _ => none)
        (fun k p h => by
          split at h <;> cases h
          rfl),
      .of "BondingCurveProgress"
        (.cons (.required "mint" string) <|
          .cons (.required "bonding_curve" string) <|
          .cons (.required "progress_bps" u32) <|
          .cons (.required "complete" bool) .nil)
        (by decide)
        (fun (mint, bondingCurve, progressBps, complete, ()) =>
          .bondingCurveProgress mint bondingCurve progressBps complete)
        (fun
          | .bondingCurveProgress mint bondingCurve progressBps complete =>
            some (mint, bondingCurve, progressBps, complete, ())
          | _ => none)
        (fun k p h => by
          split at h <;> cases h
          rfl),
      .of "AccountUpdate"
        (.cons (.required "pubkey" string) <|
          .cons (.required "owner" string) <|
          .cons (.required "data_len" u64) .nil)
        (by decide)
        (fun (pubkey, owner, dataLen, ()) =>
          .accountUpdate pubkey owner dataLen)
        (fun
          | .accountUpdate pubkey owner dataLen =>
            some (pubkey, owner, dataLen, ())
          | _ => none)
        (fun k p h => by
          split at h <;> cases h
          rfl),
      .of "TransactionDetected"
        (.cons (.required "signature" string) <|
          .cons (.required "program" string) .nil)
        (by decide)
        (fun (signature, program, ()) =>
          .transactionDetected signature program)
        (fun
          | .transactionDetected signature program =>
            some (signature, program, ())
          | _ => none)
        (fun k p h => by
          split at h <;> cases h
          rfl),
      .of "WalletBalanceSnapshot"
        (.cons (.required "mint" string) <|
          .cons (.required "balance_raw" u64) <|
          .cons (.required "decimals" u8) <|
          .cons (.required "token_program" string) .nil)
        (by decide)
        (fun (mint, balanceRaw, decimals, tokenProgram, ()) =>
          .walletBalanceSnapshot mint balanceRaw decimals tokenProgram)
        (fun
          | .walletBalanceSnapshot mint balanceRaw decimals tokenProgram =>
            some (mint, balanceRaw, decimals, tokenProgram, ())
          | _ => none)
        (fun k p h => by
          split at h <;> cases h
          rfl),
      .of "WalletSnapshotComplete"
        (.cons (.required "mints_in_wallet" (.list string)) <|
          .cons (.required "wallet" string) <|
          .cons (.required "is_periodic" bool) .nil)
        (by decide)
        (fun (mintsInWallet, wallet, isPeriodic, ()) =>
          .walletSnapshotComplete mintsInWallet wallet isPeriodic)
        (fun
          | .walletSnapshotComplete mintsInWallet wallet isPeriodic =>
            some (mintsInWallet, wallet, isPeriodic, ())
          | _ => none)
        (fun k p h => by
          split at h <;> cases h
          rfl),
      .of "WalletTxConfirmed"
        (.cons (.required "wallet" string) <|
          .cons (.required "signature" string) <|
          .cons (.nullable "err" string) .nil)
        (by decide)
        (fun (wallet, signature, err, ()) =>
          .walletTxConfirmed wallet signature err)
        (fun
          | .walletTxConfirmed wallet signature err =>
            some (wallet, signature, err, ())
          | _ => none)
        (fun k p h => by
          split at h <;> cases h
          rfl),
      .of "WalletActivity"
        (.cons (.required "wallet" string) <|
          .cons (.required "wallet_type" WalletType.codec) <|
          .cons (.required "action" WalletAction.codec) <|
          .cons (.required "mint" string) <|
          .cons (.required "amount_sol" u64) <|
          .cons (.required "amount_tokens" u64) <|
          .cons (.required "signature" string) <|
          .cons (.nullable "wallet_win_rate" f64) .nil)
        (by decide)
        (fun (wallet, walletType, action, mint, amountSol, amountTokens, signature, walletWinRate,
            ()) =>
          .walletActivity wallet walletType action mint amountSol amountTokens signature
            walletWinRate)
        (fun
          | .walletActivity wallet walletType action mint amountSol amountTokens signature
            walletWinRate =>
            some (wallet, walletType, action, mint, amountSol, amountTokens, signature,
              walletWinRate, ())
          | _ => none)
        (fun k p h => by
          split at h <;> cases h
          rfl),
      .of "EarlyBuyerDetected"
        (.cons (.required "mint" string) <|
          .cons (.required "buyer_wallet" string) <|
          .cons (.required "buy_slot" u64) <|
          .cons (.required "slots_after_creation" u64) <|
          .cons (.required "amount_sol" u64) <|
          .cons (.required "amount_tokens" u64) <|
          .cons (.required "buyer_rank" u32) .nil)
        (by decide)
        (fun (mint, buyerWallet, buySlot, slotsAfterCreation, amountSol, amountTokens, buyerRank,
            ()) =>
          .earlyBuyerDetected mint buyerWallet buySlot slotsAfterCreation amountSol amountTokens
            buyerRank)
        (fun
          | .earlyBuyerDetected mint buyerWallet buySlot slotsAfterCreation amountSol amountTokens
            buyerRank =>
            some (mint, buyerWallet, buySlot, slotsAfterCreation, amountSol, amountTokens,
              buyerRank, ())
          | _ => none)
        (fun k p h => by
          split at h <;> cases h
          rfl),
      .of "InsiderAlert"
        (.cons (.required "mint" string) <|
          .cons (.required "alert_type" InsiderAlertType.codec) <|
          .cons (.required "wallets_involved" (.list string)) <|
          .cons (.required "description" string) <|
          .cons (.required "severity" AlertSeverity.codec) .nil)
        (by decide)
        (fun (mint, alertType, walletsInvolved, description, severity, ()) =>
          .insiderAlert mint alertType walletsInvolved description severity)
        (fun
          | .insiderAlert mint alertType walletsInvolved description severity =>
            some (mint, alertType, walletsInvolved, description, severity, ())
          | _ => none)
        (fun k p h => by
          split at h <;> cases h
          rfl)]
  nodup := of_decide_eq_true rfl
  tag_new := of_decide_eq_true rfl
  complete k := by cases k <;> rfl

/-! ## 3. The event -/

/-- `MarketEvent`. -/
structure MarketEvent where
  header : RecordHeader
  eventId : String
  source : String
  slot : Option UInt64
  kind : MarketEventKind

/-- The header before the event's own fields, the kind behind them. -/
def MarketEvent.part (S : Serde) : Part F64 MarketEvent :=
  (((Fields.part
    (.cons (.required "event_id" string) <|
      .cons (.required "source" string) <|
      .cons (.optional "slot" u64) .nil)
    (of_decide_eq_true rfl)).flatten true RecordHeader.part
      (of_decide_eq_true rfl)).flatten false
      (MarketEventKind.variants S).part
      (of_decide_eq_true rfl)).map
    (fun (((eventId, source, slot, ()), header), kind) => ⟨header, eventId, source, slot, kind⟩)
    (fun r => (((r.eventId, r.source, r.slot, ()), r.header), r.kind))
    (fun _ => rfl)

end IronCrab.Ipc

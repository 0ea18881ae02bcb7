/-
  File:      IronCrab/Solana/DexParser.lean
  Subject:   THE POSITIONAL DEX PARSERS (src/solana/dex_parser.rs): one parser for each program,
             from the accounts and the data of an instruction to an event.

  A parser reads the accounts of the instruction by position, the balances of the transaction by
  row, and the data at fixed offsets. What the parsers share:

  * `trader` -- the fee payer, or an account of the instruction where the transaction lists none;
  * `calculateTokenBalanceChange`, `calculateNativeBalanceChange` -- the amounts from the balances;
  * `parseProgram` -- the parser of a program.

  How addresses are derived and instruction names hashed is a `Derivation`; the pool lookup for
  Orca is a parameter.
-/
import IronCrab.PumpAmm.SellLayout
import IronCrab.Lib.Word

namespace IronCrab.Solana

open Track (Pubkey TextCodec)
open Cache (parsePubkey parseUnsigned)
open PumpAmm

/-! ## 1. Transactions -/

/-- `TokenBalance`, the fields the parsers read. -/
structure TokenBalance where
  accountIndex : UInt8
  mint : String
  decimals : UInt8
  amount : String
  programId : Option String
  deriving DecidableEq

/-- `InnerInstruction`. -/
structure InnerInstruction where
  programIdIndex : UInt8
  accounts : List UInt8
  data : List UInt8
  deriving DecidableEq

/-- `GeyserTransactionUpdate`, the fields the parsers read. -/
structure GeyserTransactionUpdate where
  signature : String
  slot : UInt64
  accountKeys : List Pubkey
  instructionAccounts : List Pubkey
  instructionData : List UInt8
  innerInstructions : List InnerInstruction
  preTokenBalances : List TokenBalance
  postTokenBalances : List TokenBalance
  preBalances : List UInt64
  postBalances : List UInt64
  deriving DecidableEq

/-- `DexType`. -/
inductive DexType where
  | raydiumAmmV4 | raydiumCpmm | orcaWhirlpool | meteoraDlmm | pumpFun | pumpFunAmm
  deriving DecidableEq

/-- What a PumpSwap `sell` shows of its layout, as the trade event carries it. -/
structure PumpAmmSellFields where
  requiresCashbackRemaining : Bool
  cashbackThirdMeta : Option Pubkey
  extendedTail0 : Option Pubkey
  extendedTail1 : Option Pubkey
  extendedFeeTail0 : Option Pubkey
  extendedFeeTail1 : Option Pubkey
  requiresFeeTail : Bool
  requiresPreFeeMetas : Bool
  preFeeMeta1 : Option Pubkey
  deriving DecidableEq

/-- What every other trade carries there. -/
def PumpAmmSellFields.none : PumpAmmSellFields :=
  ⟨false, .none, .none, .none, .none, .none, false, false, .none⟩

/-- `ParsedDexEvent::Trade`. -/
structure Trade where
  poolAddress : Pubkey
  mint : Pubkey
  quoteMint : Pubkey
  trader : Pubkey
  dex : DexType
  isBuy : Bool
  solAmount : UInt64
  tokenAmount : UInt64
  tokenDecimals : UInt8
  signature : String
  slot : UInt64
  poolAccounts : Option (List Pubkey)
  creator : Option Pubkey
  tokenProgram : Option Pubkey
  pumpAmmSell : PumpAmmSellFields
  deriving DecidableEq

/-- `ParsedDexEvent::PoolCreated`. -/
structure PoolCreated where
  poolAddress : Pubkey
  baseMint : Pubkey
  quoteMint : Pubkey
  dex : DexType
  initialLiquidityLamports : UInt64
  slot : UInt64
  creator : Option Pubkey
  poolAccounts : Option (List Pubkey)
  deriving DecidableEq

/-- `ParsedDexEvent`, the events a transaction parses into. -/
inductive ParsedDexEvent where
  | poolCreated (created : PoolCreated)
  | trade (trade : Trade)
  deriving DecidableEq

/-- `OrcaPoolInfo`, the fields the parser reads. -/
structure OrcaPoolInfo where
  tokenMintA : Pubkey
  tokenMintB : Pubkey
  tokenVaultA : Pubkey
  tokenVaultB : Pubkey
  tokenAProgram : Option Pubkey
  tokenBProgram : Option Pubkey

/-- `PoolLookupFn`. -/
abbrev PoolLookup := Option (Pubkey → Option OrcaPoolInfo)

/-! ## 2. Programs and discriminators -/

/-- `RAYDIUM_AMM_V4`. -/
def raydiumAmmV4 : Pubkey := pubkeyConst "675kPX9MHTjS2zt1qfr1NYHuzeLXfQM9H24wFSUt1Mp8"

/-- `RAYDIUM_CPMM`. -/
def raydiumCpmm : Pubkey := pubkeyConst "CPMMoo8L3F4NbTegBCKVNunggL7H1ZpdTHKxQB5qKP1C"

/-- `ORCA_WHIRLPOOL`. -/
def orcaWhirlpool : Pubkey := pubkeyConst "whirLbMiicVdio4qvUfM5KAg6Ct8VwpYzGff3uctyCc"

/-- `METEORA_DLMM`. -/
def meteoraDlmm : Pubkey := pubkeyConst "LBUZKhRxPF3XUpBCjp4YzTKgLccjZhTSDM9YuVaPwxo"

/-- `PUMPFUN_PROGRAM`. -/
def pumpfunProgram : Pubkey := pubkeyConst "6EF8rrecthR5Dkzon8Nwu78hRvfCKubJ14M5uBEwF6P"

/-- `SOL_MINT`. -/
def solMintText : String := "So11111111111111111111111111111111111111112"

/-- `SOL_MINT_PUBKEY`. -/
def solMint : Pubkey := pubkeyConst solMintText

/-- SPL Token. -/
def splTokenText : String := "TokenkegQfeZyiNwAJbNbGKPFXCWuBvf9Ss623VQ5DA"

/-- Token-2022. -/
def token2022Text : String := "TokenzQdBNbLqP5VEhdkAS6EPFLC1PHnBqCXEpPxuEb"

/-- `PUMPFUN_CREATE`. -/
def pumpfunCreate : List UInt8 := [0x18, 0x1e, 0xc8, 0x28, 0x05, 0x1c, 0x07, 0x77]

/-- `PUMPFUN_BUY`. -/
def pumpfunBuy : List UInt8 := [0x66, 0x06, 0x3d, 0x12, 0x01, 0xda, 0xeb, 0xea]

/-- `PUMPFUN_SELL`. -/
def pumpfunSell : List UInt8 := [0x33, 0xe6, 0x85, 0xa4, 0x01, 0x7f, 0x83, 0xad]

/-- `PUMPFUN_BUY_EXACT_SOL_IN_DISCRIMINATOR`. -/
def pumpfunBuyExactSolIn : List UInt8 := [56, 252, 116, 8, 158, 223, 205, 95]

/-- `PUMPFUN_AMM_CREATE_POOL`. -/
def pumpfunAmmCreatePool : List UInt8 := [233, 146, 209, 142, 207, 104, 64, 188]

/-- `RAYDIUM_SWAP_BASE_IN`. -/
def raydiumSwapBaseIn : UInt8 := 9

/-- `RAYDIUM_SWAP_BASE_OUT`. -/
def raydiumSwapBaseOut : UInt8 := 11

/-- `METEORA_SWAP`. -/
def meteoraSwap : List UInt8 := [0xf8, 0xc6, 0x9e, 0x91, 0xe1, 0x75, 0x87, 0xc8]

/-- `ORCA_SWAP`. -/
def orcaSwap : List UInt8 := [0xf8, 0xc6, 0x9e, 0x91, 0xe1, 0x75, 0x87, 0xc8]

/-- `RAYDIUM_CPMM_SWAP`. -/
def raydiumCpmmSwap : List UInt8 := [0xf8, 0xc6, 0x9e, 0x91, 0xe1, 0x75, 0x87, 0xc8]

/-! ## 3. What the parsers share -/

/-- `u64::from_le_bytes` of the eight bytes at an offset. -/
def u64At (data : List UInt8) (offset : Nat) : UInt64 :=
  .ofNat (((data.drop offset).take 8).foldr (fun b n => b.toNat + 256 * n) 0)

/-- `str::parse::<u64>`. -/
def parseU64 (text : String) : Option UInt64 := (parseUnsigned (2 ^ 64) text).map UInt64.ofNat

/-- `abs_diff`. -/
def absDiff (a b : UInt64) : UInt64 := if a ≤ b then b - a else a - b

/-- `extract_quote_mint`. -/
def extractQuoteMint (balances : List TokenBalance) (baseMint : Pubkey) : Pubkey :=
  ((balances.filterMap fun b => parsePubkey b.mint).find? fun m => m ≠ baseMint).getD solMint

/-- `calculate_token_balance_change`: the largest change of an account that holds the mint. An amount
    that does not parse ends the search. -/
def calculateTokenBalanceChange (preBalances postBalances : List TokenBalance) (mint : Pubkey) :
    Option UInt64 := do
  let maxChange ← (postBalances.filter fun b => b.mint = TextCodec.base58Text mint).foldlM
    (fun (maxChange : UInt64) post => do
      let postAmount ← parseU64 post.amount
      match preBalances.find? fun b => b.accountIndex = post.accountIndex with
      | none => return maxChange
      | some pre =>
          let preAmount ← parseU64 pre.amount
          return max maxChange (absDiff postAmount preAmount)) 0
  if 0 < maxChange then some maxChange else none

/-- `calculate_native_balance_change`. -/
def calculateNativeBalanceChange (accountKeys : List Pubkey) (preBalances postBalances : List UInt64)
    (account : Pubkey) : Option UInt64 := do
  let accountIndex ← accountKeys.findIdx? fun k => k = account
  let pre ← preBalances[accountIndex]?
  let post ← postBalances[accountIndex]?
  return absDiff post pre

/-- `native_lamports_signed_delta`. -/
def nativeLamportsSignedDelta (accountKeys : List Pubkey) (preBalances postBalances : List UInt64)
    (account : Pubkey) : Option Int := do
  let accountIndex ← accountKeys.findIdx? fun k => k = account
  let pre ← preBalances[accountIndex]?
  let post ← postBalances[accountIndex]?
  return (post.toNat : Int) - pre.toNat

/-- `get_token_decimals`. -/
def getTokenDecimals (postBalances : List TokenBalance) (mint : Pubkey) : UInt8 :=
  ((postBalances.find? fun b => b.mint = TextCodec.base58Text mint).map
    TokenBalance.decimals).getD 9

/-- The token program of a mint, from the balances after the transaction. -/
def tokenProgramOf (postBalances : List TokenBalance) (mint : Pubkey) : Option Pubkey := do
  let row ← postBalances.find? fun b => parsePubkey b.mint = some mint
  let text ← row.programId
  let tp ← parsePubkey text
  if TextCodec.base58Text tp = splTokenText ∨ TextCodec.base58Text tp = token2022Text then some tp
  else none

namespace GeyserTransactionUpdate

variable (d : Derivation) (update : GeyserTransactionUpdate)

/-- The fee payer, or the account at a position of the instruction. -/
def traderOr (position : Nat) : Option Pubkey :=
  update.accountKeys.head? <|> update.instructionAccounts[position]?

/-- The absolute change of the mint's balance, 0 where it cannot be told. -/
def tokenChange (mint : Pubkey) : UInt64 :=
  (calculateTokenBalanceChange update.preTokenBalances update.postTokenBalances mint).getD 0

/-- The absolute change of an account's lamports, 0 where it cannot be told. -/
def nativeChange (account : Pubkey) : UInt64 :=
  (calculateNativeBalanceChange update.accountKeys update.preBalances update.postBalances
    account).getD 0

/-! ## 4. Raydium -/

/-- The base mint of `parse_raydium_swap`: from the first row after a buy at account index 15, or the
    first row before a sell at account index 14. -/
def raydiumBaseMint (isBuy : Bool) : Pubkey :=
  (if isBuy then
    (update.postTokenBalances.find? fun b => b.accountIndex = 15).bind fun b => parsePubkey b.mint
  else
    (update.preTokenBalances.find? fun b => b.accountIndex = 14).bind fun b =>
      parsePubkey b.mint).getD defaultPubkey

/-- `parse_raydium_swap`. -/
def parseRaydiumSwap (isBaseIn : Bool) : Option ParsedDexEvent := do
  if update.instructionAccounts.length < 17 then none
  else
    let poolAddress ← update.instructionAccounts[1]?
    let trader ← update.traderOr 16
    if update.instructionData.length < 17 then none
    else
      let amountIn := u64At update.instructionData 1
      let isBuy := !isBaseIn
      let baseMint := update.raydiumBaseMint isBuy
      let (solAmount, tokenAmount) :=
        if isBuy then (amountIn, update.tokenChange baseMint)
        else (update.nativeChange trader, amountIn)
      return .trade
        { poolAddress, mint := baseMint
          quoteMint := extractQuoteMint update.postTokenBalances baseMint
          trader, dex := .raydiumAmmV4, isBuy, solAmount, tokenAmount
          tokenDecimals := getTokenDecimals update.postTokenBalances baseMint
          signature := update.signature, slot := update.slot
          poolAccounts := none, creator := none, tokenProgram := none, pumpAmmSell := .none }

/-- `parse_raydium_transaction`. -/
def parseRaydiumTransaction : Option ParsedDexEvent :=
  match update.instructionData.head? with
  | none => none
  | some discriminator =>
      if discriminator = raydiumSwapBaseIn ∨ discriminator = raydiumSwapBaseOut then
        update.parseRaydiumSwap (discriminator = raydiumSwapBaseIn)
      else none

/-- `parse_raydium_cpmm_transaction`. -/
def parseRaydiumCpmmTransaction : Option ParsedDexEvent := do
  if update.instructionData.length < 8 then none
  else if update.instructionData.take 8 ≠ raydiumCpmmSwap then none
  else if update.instructionAccounts.length < 12 then none
  else
    let poolAddress ← update.instructionAccounts[3]?
    let trader ← update.traderOr 0
    if update.instructionData.length < 24 then none
    else
      let amountIn := u64At update.instructionData 8
      let vault0Mint ← update.instructionAccounts[10]?
      let vault1Mint ← update.instructionAccounts[11]?
      let (baseMint, isBuy) :=
        if vault0Mint = solMint then (vault1Mint, true)
        else if vault1Mint = solMint then (vault0Mint, false)
        else (vault0Mint, true)
      let quoteMint := if baseMint = vault0Mint then vault1Mint else vault0Mint
      let (solAmount, tokenAmount) :=
        if isBuy then (amountIn, update.tokenChange baseMint)
        else (update.nativeChange trader, amountIn)
      return .trade
        { poolAddress, mint := baseMint, quoteMint, trader, dex := .raydiumCpmm, isBuy, solAmount
          tokenAmount, tokenDecimals := getTokenDecimals update.postTokenBalances baseMint
          signature := update.signature, slot := update.slot
          poolAccounts := none, creator := none, tokenProgram := none, pumpAmmSell := .none }

/-! ## 5. Orca -/

/-- `str::parse::<u64>().unwrap_or(0)` of a row's amount, 0 without a row. -/
def amountOr0 (row : Option TokenBalance) : UInt64 :=
  (row.bind fun b => parseU64 b.amount).getD 0

/-- The row of another list for the same account and mint. -/
def sameRow (rows : List TokenBalance) (b : TokenBalance) : Option TokenBalance :=
  rows.find? fun b' => b'.mint = b.mint ∧ b'.accountIndex = b.accountIndex

/-- The base mint of `parse_orca_transaction` without the pool: the first other mint whose balance
    moves as the direction says. -/
def orcaFallbackMint (aToB : Bool) : Pubkey :=
  ((if !aToB then
      update.postTokenBalances.find? fun post =>
        amountOr0 (sameRow update.preTokenBalances post) < amountOr0 (some post) ∧
          post.mint ≠ solMintText
    else
      update.preTokenBalances.find? fun pre =>
        amountOr0 (sameRow update.postTokenBalances pre) < amountOr0 (some pre) ∧
          pre.mint ≠ solMintText).bind fun b => parsePubkey b.mint).getD defaultPubkey

/-- Base mint, quote mint and direction from the pool. -/
def orcaSides (info : OrcaPoolInfo) (aToB : Bool) : Pubkey × Pubkey × Bool :=
  if info.tokenMintA = solMint ∧ info.tokenMintB ≠ solMint then (info.tokenMintB, solMint, aToB)
  else if info.tokenMintB = solMint ∧ info.tokenMintA ≠ solMint then
    (info.tokenMintA, solMint, !aToB)
  else (info.tokenMintA, info.tokenMintB, !aToB)

/-- `parse_orca_transaction`. -/
def parseOrcaTransaction (poolLookup : PoolLookup) : Option ParsedDexEvent := do
  if update.instructionData.length < 8 then none
  else if update.instructionData.take 8 ≠ orcaSwap then none
  else if update.instructionAccounts.length < 4 then none
  else
    let poolAddress ← update.instructionAccounts[2]?
    let trader ← update.traderOr 3
    if update.instructionData.length < 42 then none
    else
      let amount := u64At update.instructionData 8
      let amountSpecifiedIsInput := update.instructionData[40]? = some 1
      let aToB := decide (update.instructionData[41]? = some 1)
      let (baseMint, quoteMint, isBuy, tokenProgram, poolAccounts) :=
        match poolLookup.bind fun f => f poolAddress with
        | some info =>
            let (baseMint, quoteMint, isBuy) := orcaSides info aToB
            let tokenProgram :=
              if baseMint = info.tokenMintA then info.tokenAProgram
              else if baseMint = info.tokenMintB then info.tokenBProgram
              else none
            (baseMint, quoteMint, isBuy, tokenProgram,
              some ([poolAddress, info.tokenMintA, info.tokenMintB, info.tokenVaultA,
                info.tokenVaultB].filter fun pk => pk ≠ defaultPubkey))
        | none =>
            let baseMint := update.orcaFallbackMint aToB
            (baseMint, solMint, !aToB, tokenProgramOf update.postTokenBalances baseMint, none)
      let tokensChanged := update.tokenChange baseMint
      let solChanged := if quoteMint = solMint then update.nativeChange trader else 0
      let tokenAmount := if 0 < tokensChanged then tokensChanged else amount
      let solAmount :=
        if 0 < solChanged then solChanged
        else if quoteMint = solMint ∧ amountSpecifiedIsInput then amount
        else 0
      return .trade
        { poolAddress, mint := baseMint, quoteMint, trader, dex := .orcaWhirlpool, isBuy, solAmount
          tokenAmount, tokenDecimals := getTokenDecimals update.postTokenBalances baseMint
          signature := update.signature, slot := update.slot
          poolAccounts, creator := none, tokenProgram, pumpAmmSell := .none }

/-! ## 6. Meteora -/

/-- The position of an account among the keys, as the balance rows name it. -/
def accountIndexOf (account : Pubkey) : Option UInt8 :=
  (update.accountKeys.findIdx? fun key => key = account).bind fun i =>
    if i < 256 then some i.toUInt8 else none

/-- `user_token_delta`: the mint of a user account and by how much its balance moved. -/
def userTokenDelta (account : Pubkey) : Option (Pubkey × Int) := do
  let accountIndex ← update.accountIndexOf account
  let post ← update.postTokenBalances.find? fun balance => balance.accountIndex = accountIndex
  let pre ← update.preTokenBalances.find? fun balance =>
    balance.accountIndex = accountIndex ∧ balance.mint = post.mint
  let preAmount ← parseU64 pre.amount
  let postAmount ← parseU64 post.amount
  let mint ← parsePubkey post.mint
  return (mint, (postAmount.toNat : Int) - preAmount.toNat)

/-- The event of `parse_meteora_transaction` from the two user deltas, of opposite signs. -/
def meteoraTrade (poolAddress trader mintX : Pubkey) (deltaX : Int) (mintY : Pubkey)
    (deltaY : Int) : Trade :=
  let absX := UInt64.ofNat deltaX.natAbs
  let absY := UInt64.ofNat deltaY.natAbs
  let (baseMint, quoteMint, isBuy, solAmount, tokenAmount) :=
    if mintX = solMint then
      if deltaX < 0 then (mintY, mintX, true, absX, absY) else (mintY, mintX, false, absX, absY)
    else if mintY = solMint then
      if deltaY < 0 then (mintX, mintY, true, absY, absX) else (mintX, mintY, false, absY, absX)
    else if deltaX < 0 then (mintY, mintX, true, absX, absY)
    else (mintX, mintY, true, absY, absX)
  { poolAddress, mint := baseMint, quoteMint, trader, dex := .meteoraDlmm, isBuy, solAmount
    tokenAmount, tokenDecimals := getTokenDecimals update.postTokenBalances baseMint
    signature := update.signature, slot := update.slot
    poolAccounts := none, creator := none, tokenProgram := none, pumpAmmSell := .none }

/-- `parse_meteora_transaction`. -/
def parseMeteoraTransaction : Option ParsedDexEvent := do
  if update.instructionData.length < 8 then none
  else if update.instructionData.take 8 ≠ meteoraSwap then none
  else if update.instructionAccounts.length < 7 then none
  else
    let poolAddress ← update.instructionAccounts[0]?
    let trader ← update.traderOr 5
    if update.instructionData.length < 24 then none
    else
      let userX ← update.instructionAccounts[3]?
      let userY ← update.instructionAccounts[4]?
      let (mintX, deltaX) ← update.userTokenDelta userX
      let (mintY, deltaY) ← update.userTokenDelta userY
      if mintX = mintY ∨ deltaX = 0 ∨ deltaY = 0 ∨ deltaX.sign = deltaY.sign then none
      else return .trade (update.meteoraTrade poolAddress trader mintX deltaX mintY deltaY)

/-! ## 7. Pump.fun -/

/-- `parse_pumpfun_create`. -/
def parsePumpfunCreate : Option ParsedDexEvent := do
  if update.instructionAccounts.length < 8 then none
  else
    let tokenMint ← update.instructionAccounts[0]?
    let creator ← update.instructionAccounts[7]?
    let bondingCurve := d.findProgramAddress [.text "bonding-curve", .key tokenMint] pumpfunProgram
    return .poolCreated
      { poolAddress := bondingCurve, baseMint := tokenMint, quoteMint := solMint, dex := .pumpFun
        initialLiquidityLamports := 30000000000, slot := update.slot, creator := some creator
        poolAccounts := none }

/-- `build_pumpfun_trade_event`. -/
def buildPumpfunTradeEvent (bondingCurve mint trader : Pubkey) (isBuy : Bool)
    (solAmount tokenAmount : UInt64) (creator : Option Pubkey) : ParsedDexEvent :=
  .trade
    { poolAddress := bondingCurve, mint, quoteMint := solMint, trader, dex := .pumpFun, isBuy
      solAmount, tokenAmount, tokenDecimals := getTokenDecimals update.postTokenBalances mint
      signature := update.signature, slot := update.slot, poolAccounts := none, creator
      tokenProgram := tokenProgramOf update.postTokenBalances mint, pumpAmmSell := .none }

/-- `parse_pumpfun_buy_exact_sol_in`. -/
def parsePumpfunBuyExactSolIn : Option ParsedDexEvent := do
  if update.instructionAccounts.length < 7 then none
  else if update.instructionData.length < 24 then none
  else
    let mint ← update.instructionAccounts[2]?
    let bondingCurve ← update.instructionAccounts[3]?
    let trader ← update.traderOr 6
    let swapSolUsed := u64At update.instructionData 8
    let tokensReceived := update.tokenChange mint
    if tokensReceived = 0 then none
    else some (update.buildPumpfunTradeEvent bondingCurve mint trader true swapSolUsed
      tokensReceived none)

/-- `parse_pumpfun_swap`. -/
def parsePumpfunSwap (isBuy : Bool) : Option ParsedDexEvent := do
  if update.instructionAccounts.length < 7 then none
  else
    let mint ← update.instructionAccounts[2]?
    let bondingCurve ← update.instructionAccounts[3]?
    let trader ← update.traderOr 6
    if update.instructionData.length < 24 then none
    else
      let tokenAmountParam := u64At update.instructionData 8
      let curveDelta := nativeLamportsSignedDelta update.accountKeys update.preBalances
        update.postBalances bondingCurve
      if isBuy then
        let swapSolUsed ← (curveDelta.filter fun delta => 0 < delta).map fun delta =>
          UInt64.ofNat delta.toNat
        let tokensReceived := update.tokenChange mint
        if tokensReceived = 0 then none
        else some (update.buildPumpfunTradeEvent bondingCurve mint trader true swapSolUsed
          tokensReceived none)
      else
        let swapSolOut := (curveDelta.filter fun delta => delta < 0).map fun delta =>
          UInt64.ofNat (-delta).toNat
        some (update.buildPumpfunTradeEvent bondingCurve mint trader false
          (swapSolOut.getD (update.nativeChange trader)) tokenAmountParam none)

/-- `parse_pumpfun_transaction`. -/
def parsePumpfunTransaction : Option ParsedDexEvent :=
  if update.instructionData.length < 8 then none
  else
    let disc := update.instructionData.take 8
    if disc = pumpfunCreate then update.parsePumpfunCreate d
    else if disc = pumpfunBuyExactSolIn then update.parsePumpfunBuyExactSolIn
    else if disc = pumpfunBuy then update.parsePumpfunSwap true
    else if disc = pumpfunSell then update.parsePumpfunSwap false
    else none

/-! ## 8. PumpSwap -/

/-- The accounts an instruction's indices resolve to: an index outside the keys is dropped. -/
def resolvedAccounts (indices : List UInt8) : List Pubkey :=
  indices.filterMap fun idx => update.accountKeys[idx.toNat]?

/-- The event of a `create_pool` with these accounts. -/
def createdPool (accounts : List Pubkey) : Option ParsedDexEvent := do
  if accounts.length < 18 then none
  else
    let pool ← accounts[0]?
    let creator ← accounts[2]?
    let baseMint ← accounts[3]?
    let quoteMint ← accounts[4]?
    return .poolCreated
      { poolAddress := pool, baseMint, quoteMint, dex := .pumpFunAmm, initialLiquidityLamports := 0
        slot := update.slot, creator := some creator, poolAccounts := none }

/-- The scan of the inner instructions for a `create_pool`. A program index outside the keys ends
    it. -/
def scanCreatePool : List InnerInstruction → Option ParsedDexEvent
  | [] => none
  | inner :: rest =>
      if inner.data.length < 8 then scanCreatePool rest
      else if inner.data.take 8 ≠ pumpfunAmmCreatePool then scanCreatePool rest
      else
        match update.accountKeys[inner.programIdIndex.toNat]? with
        | none => none
        | some programId =>
            if programId ≠ pumpfunAmmProgramId then scanCreatePool rest
            else if (update.resolvedAccounts inner.accounts).length < 18 then scanCreatePool rest
            else update.createdPool (update.resolvedAccounts inner.accounts)

/-- `try_parse_pumpfun_amm_create_pool`. -/
def tryParsePumpfunAmmCreatePool : Option ParsedDexEvent :=
  if 8 ≤ update.instructionData.length ∧ update.instructionData.take 8 = pumpfunAmmCreatePool ∧
      18 ≤ update.instructionAccounts.length then
    update.createdPool update.instructionAccounts
  else update.scanCreatePool update.innerInstructions

/-- `pump_amm_sell_ix_discriminator`. -/
def pumpAmmSellIxDiscriminator : List UInt8 := d.anchorDisc "sell"

/-- `pump_amm_normalize_v14_pool_accounts`. -/
def normalizeV14PoolAccounts (accounts : List Pubkey) : List Pubkey :=
  if accounts.length < 14 then accounts
  else (accounts.set 1 pumpfunAmmGlobalConfig).set 8 d.canonicalEventAuthority

/-- What the event carries of a sell's layout; nothing where a layout lacks an account it needs. -/
def pumpAmmSellFields (isBuy : Bool) : Option PumpAmmSellFields :=
  match if isBuy then none else sellExtendedFieldsFromIxAccounts update.instructionAccounts with
  | none => some .none
  | some ext =>
      if ext.requiresExtended ∧ ext.thirdMeta.isNone then none
      else if ext.requiresFeeTail ∧ (ext.feeTail0.isNone ∨ ext.feeTail1.isNone) then none
      else if ext.requiresPreFeeMetas ∧ ext.preFeeMeta1.isNone then none
      else some ⟨ext.requiresExtended, ext.thirdMeta, ext.tail0, ext.tail1, ext.feeTail0,
        ext.feeTail1, ext.requiresFeeTail, ext.requiresPreFeeMetas, ext.preFeeMeta1⟩

/-- A PumpSwap swap, once its discriminator and its number of accounts are accepted. -/
def pumpAmmTrade (isBuy : Bool) : Option ParsedDexEvent := do
  let sell ← update.pumpAmmSellFields isBuy
  let account (i : Nat) : Option Pubkey := update.instructionAccounts[i]?
  let poolMarket ← account 0
  let trader ← update.traderOr 1
  let globalConfig ← account 2
  let baseMint ← account 3
  let quoteMint := (account 4).getD solMint
  let poolBaseVault ← account 7
  let poolQuoteVault ← account 8
  let protocolFeeRecipient ← account 9
  let protocolFeeRecipientTa ← account 10
  let eventAuthority ← account 15
  let globalVolumeAccumulator ←
    if isBuy then account 16 else some d.singletonGlobalVolumeAccumulator
  let coinCreatorVaultAta ← account 17
  let coinCreatorVaultAuthority ← account 18
  let amountIn := u64At update.instructionData 8
  let (solAmount, tokenAmount) :=
    if isBuy then (amountIn, update.tokenChange baseMint)
    else (update.nativeChange trader, amountIn)
  let poolAccounts := normalizeV14PoolAccounts d
    [poolMarket, globalConfig, baseMint, quoteMint, poolBaseVault, poolQuoteVault,
      protocolFeeRecipient, protocolFeeRecipientTa, eventAuthority, coinCreatorVaultAta,
      coinCreatorVaultAuthority, globalVolumeAccumulator, pumpfunAmmFeeConfig,
      pumpfunAmmFeeProgramId]
  return .trade
    { poolAddress := poolMarket, mint := baseMint, quoteMint := solMint, trader, dex := .pumpFunAmm
      isBuy, solAmount, tokenAmount
      tokenDecimals := getTokenDecimals update.postTokenBalances baseMint
      signature := update.signature, slot := update.slot, poolAccounts := some poolAccounts
      creator := none, tokenProgram := tokenProgramOf update.postTokenBalances baseMint
      pumpAmmSell := sell }

/-- `parse_pumpfun_amm_transaction`. -/
def parsePumpfunAmmTransaction : Option ParsedDexEvent :=
  match update.tryParsePumpfunAmmCreatePool with
  | some created => some created
  | none =>
      if update.instructionData.length < 24 then none
      else
        let disc := update.instructionData.take 8
        if disc = d.anchorDisc "buy_exact_quote_in" then
          if update.instructionAccounts.length < 23 then none else update.pumpAmmTrade d true
        else if disc = pumpAmmSellIxDiscriminator d then
          if !sellIxAccountLenSupported update.instructionAccounts.length then none
          else update.pumpAmmTrade d false
        else none

/-! ## 9. The parser of a program -/

/-- `known`, in the order of the source. -/
def known : List Pubkey :=
  [meteoraDlmm, raydiumCpmm, pumpfunAmmProgramId, pumpfunProgram, raydiumAmmV4, orcaWhirlpool]

/-- The parser that a program's instructions are given to. -/
def parseProgram (poolLookup : PoolLookup) (program : Pubkey) : Option ParsedDexEvent :=
  if program = meteoraDlmm then update.parseMeteoraTransaction
  else if program = raydiumCpmm then update.parseRaydiumCpmmTransaction
  else if program = pumpfunAmmProgramId then update.parsePumpfunAmmTransaction d
  else if program = pumpfunProgram then update.parsePumpfunTransaction d
  else if program = raydiumAmmV4 then update.parseRaydiumTransaction
  else if program = orcaWhirlpool then update.parseOrcaTransaction poolLookup
  else none

/-! ## 10. Which parser it is -/

theorem raydiumAmmV4_eq : raydiumAmmV4 =
    0x4bd949c43602c33f207790ed16a3524ca1b9975cf121a2a90cffec7df8b68acd := by decide +kernel

theorem raydiumCpmm_eq : raydiumCpmm =
    0xa92a5a8b4f295952842550aa93fd5b95b5ace6a8eb920c93942e43690c20ec73 := by decide +kernel

theorem orcaWhirlpool_eq : orcaWhirlpool =
    0x0e03685f8e909053e458121c66f5a76aedc7706aa11c82f8aa952a8f2b7879a9 := by decide +kernel

theorem meteoraDlmm_eq : meteoraDlmm =
    0x04e9e12fbc84e826c932cce9e2640cce15590c1c6273b0925708ba3b8520b0bc := by decide +kernel

theorem pumpfunProgram_eq : pumpfunProgram =
    0x0156e0f693665acf44db1568bf175baa5189cb97f5d2ff3b655d2bb6fd6d18b0 := by decide +kernel

theorem pumpfunAmmProgramId_eq : pumpfunAmmProgramId =
    0x0c14defc825ec67694250818bb654065f4298d3156d571b4d4f8090c18e9a863 := by decide +kernel

theorem solMint_eq : solMint =
    0x069b8857feab8184fb687f634618c035dac439dc1aeb3b5598a0f00000000001 := by decide +kernel

/-- **No two known programs are one.** -/
theorem nodup_known : known.Nodup := by
  rw [known, meteoraDlmm_eq, raydiumCpmm_eq, pumpfunAmmProgramId_eq, pumpfunProgram_eq,
    raydiumAmmV4_eq, orcaWhirlpool_eq]
  decide +kernel

section Programs

variable {d update} (poolLookup : PoolLookup)

theorem parseProgram_meteora :
    update.parseProgram d poolLookup meteoraDlmm = update.parseMeteoraTransaction := if_pos rfl

theorem parseProgram_raydiumCpmm :
    update.parseProgram d poolLookup raydiumCpmm = update.parseRaydiumCpmmTransaction := by
  have h := nodup_known
  simp only [known, List.nodup_cons, List.mem_cons, not_or] at h
  rw [parseProgram, if_neg (Ne.symm h.1.1), if_pos rfl]

theorem parseProgram_pumpfunAmm :
    update.parseProgram d poolLookup pumpfunAmmProgramId =
      update.parsePumpfunAmmTransaction d := by
  have h := nodup_known
  simp only [known, List.nodup_cons, List.mem_cons, not_or] at h
  rw [parseProgram, if_neg (Ne.symm h.1.2.1), if_neg (Ne.symm h.2.1.1), if_pos rfl]

theorem parseProgram_raydiumAmmV4 :
    update.parseProgram d poolLookup raydiumAmmV4 = update.parseRaydiumTransaction := by
  have h := nodup_known
  simp only [known, List.nodup_cons, List.mem_cons, not_or] at h
  rw [parseProgram, if_neg (Ne.symm h.1.2.2.2.1), if_neg (Ne.symm h.2.1.2.2.1),
    if_neg (Ne.symm h.2.2.1.2.1), if_neg (Ne.symm h.2.2.2.1.1), if_pos rfl]

theorem parseProgram_orca :
    update.parseProgram d poolLookup orcaWhirlpool = update.parseOrcaTransaction poolLookup := by
  have h := nodup_known
  simp only [known, List.nodup_cons, List.mem_cons, not_or] at h
  rw [parseProgram, if_neg (Ne.symm h.1.2.2.2.2.1), if_neg (Ne.symm h.2.1.2.2.2.1),
    if_neg (Ne.symm h.2.2.1.2.2.1), if_neg (Ne.symm h.2.2.2.1.2.1),
    if_neg (Ne.symm h.2.2.2.2.1.1), if_pos rfl]

end Programs

end GeyserTransactionUpdate

end IronCrab.Solana

/-
  File:      IronCrab/Arbitrage/RoundTrip.lean
  Subject:   THE CHOICE OF A ROUND TRIP (`select_round_trip_pools_with_orca` of `pool_quote.rs`):
             of the pools of a token, the one to buy on and the one of another DEX to sell on.

  Reading of the source's data:

  * what a pool pays for an input, the cap that DLMM bins put on a sell, prices and fees are
    parameters (`Market`), all read at one time `now`;
  * a `Decimal` is a rational number, an `Instant` a number of nanoseconds;
  * a map from reasons to counts is a `Multiset`; which of the most frequent reasons an iteration
    finds first is a parameter.

  * `consider_spec` -- a round of the search: a sale, an incompatible kind, or a reason why not;
  * `search_spec` -- the search keeps the first sale of the greatest profit;
  * **`select_exact`** -- a round trip is found exactly if there is one, no other has a greater
    profit, and what an error says is so;
  * `fresh_buy_yet_none` -- `NoFreshBuyQuote` although a pool has a fresh buy quote.
-/
import IronCrab.Lib.Champion
import IronCrab.Arbitrage.DlmmQuote
import Mathlib.Data.Finmap
import Mathlib.Data.Int.ConditionallyCompleteOrder
import Mathlib.Order.ConditionallyCompleteLattice.Finset
import Mathlib.Data.Rat.Defs

namespace IronCrab.Arbitrage

/-- `NATIVE_SOL_MINT`. -/
def nativeSolMint : String := "So11111111111111111111111111111111111111112"

/-! ## 1. Pools and quotes -/

/-- `QuoteKind`. -/
inductive QuoteKind where
  | executableMarginal
  | lastTradeMid
  deriving DecidableEq

/-- `QuoteSide`. -/
inductive QuoteSide where
  | buy
  | sell
  deriving DecidableEq

/-- `PoolQuote`. -/
structure PoolQuote where
  poolAddress : String
  dex : String
  kind : QuoteKind
  side : QuoteSide
  asOfSlot : UInt64
  asOfTs : Nat
  fresh : Bool
  stateFingerprint : UInt64
  amountIn : UInt64
  amountOut : UInt64
  deriving DecidableEq

/-- `QuotePoolInput`. -/
structure QuotePoolInput where
  poolAddress : String
  dex : String
  tokenMint : String
  tradePriceBuy : Option Rat
  tradePriceSell : Option Rat
  tradeUpdatedAt : Nat
  hasReserveData : Bool
  tokenDecimals : UInt8

/-- `QuoteVaultInput`. -/
structure QuoteVaultInput where
  reserveBase : UInt64
  reserveQuote : UInt64
  updateSlot : UInt64
  updatedAt : Nat
  activeId : Option Int32
  binStep : Option UInt16
  dlmmSolIsX : Bool
  dlmmTokenXMint : Option String

/-- `vault_dlmm_sol_is_x`. -/
def vaultDlmmSolIsX (vault : QuoteVaultInput) : Bool :=
  (vault.dlmmTokenXMint.map fun m => decide (m = nativeSolMint)).getD vault.dlmmSolIsX

/-- `OrcaExecCtx`, of any type of whirlpools and of tick windows. -/
structure OrcaExecCtx (W T : Type) where
  whirlpool : Option W
  ticks : Option T

/-- `OrcaExecCtx::NONE`. -/
def OrcaExecCtx.outside {W T : Type} : OrcaExecCtx W T := ⟨none, none⟩

/-- `RoundTripPoolCandidate`. -/
structure RoundTripPoolCandidate where
  pool : QuotePoolInput
  vault : Option QuoteVaultInput
  dlmmBins : Option DlmmBinArrays
  dex : String

/-- `QuoteFreshnessConfig`. -/
structure QuoteFreshnessConfig where
  tradeTtlMs : UInt64
  stateTtlMs : UInt64

/-- `Duration::from_millis`. -/
def fromMillis (ms : UInt64) : Nat := ms.toNat * 1000000

/-- `is_meteora_dlmm_dex`. -/
def isMeteoraDlmmDex (dex : String) : Bool := dex = "meteora_dlmm"

/-- `is_orca_dex`. -/
def isOrcaDex (dex : String) : Bool := dex = "orca"

/-- `supports_cpmm`. -/
def supportsCpmm (dex : String) : Bool :=
  dex = "pump_amm" || dex = "raydium" || dex = "raydium_cpmm" || dex = "meteora_cpmm"

/-- `quote_side_from_mints`. -/
def quoteSideFromMints (tokenMint mintIn mintOut : String) : Option QuoteSide :=
  if mintIn = nativeSolMint ∧ mintOut = tokenMint then some .buy
  else if mintIn = tokenMint ∧ mintOut = nativeSolMint then some .sell
  else none

/-! ## 2. Reasons -/

/-- `QuoteNotFreshCause`. -/
inductive QuoteNotFreshCause where
  | ageExceeded
  | fingerprintMismatch
  deriving DecidableEq

/-- `QuoteNotFreshDiagnosis`; its kind is that of the quote. -/
structure QuoteNotFreshDiagnosis where
  kind : QuoteKind
  cause : QuoteNotFreshCause
  deriving DecidableEq

/-- `FreshnessAgeBucket`. -/
inductive FreshnessAgeBucket where
  | le30s
  | le120s
  | le300s
  | gt300s
  deriving DecidableEq

/-- `freshness_age_bucket`. -/
def freshnessAgeBucket (ageMs : Nat) : FreshnessAgeBucket :=
  if ageMs ≤ 30000 then .le30s
  else if ageMs ≤ 120000 then .le120s
  else if ageMs ≤ 300000 then .le300s
  else .gt300s

/-- `NoFreshBuyQuoteSubreason`. -/
inductive NoFreshBuyQuoteSubreason where
  | noExecutableMarginal
  | stateStale
  | tradeStale
  | notFreshAfterQuote
  | orcaTicksMissing
  | orcaWalkNone
  | dlmmActiveBinMissing
  | dlmmWalkerZero
  | dlmmMarginalReject
  | reservesImplausible
  | cpmmMathNone
  | feeConfigMissing
  | unsupportedDex
  deriving DecidableEq

/-- `SellQuoteNoneDetailReason`. -/
inductive SellQuoteNoneDetailReason where
  | stateStale
  | reservesImplausible
  | dlmmActiveBinMissing
  | dlmmWalkerZero
  | dlmmMarginalReject
  | orcaTicksMissing
  | orcaWalkNone
  | cpmmMathNone
  | unsupportedDex
  | noExecutableMarginal
  | mintDirectionInvalid
  deriving DecidableEq

/-- `NoCrossDexSellDetailReason`. -/
inductive NoCrossDexSellDetailReason where
  | sellMissingVault
  | sellMissingDlmmBins
  | sellMissingOrcaTicks
  | sellQuoteNone
  | sellNotFresh
  | sellZeroOut
  deriving DecidableEq

/-- `RoundTripInsufficientSubreason`. -/
inductive RoundTripInsufficientSubreason where
  | candidatesLt2
  | noFreshBuyQuote
  | noCrossDexSell
  | singleDexCandidates
  deriving DecidableEq

/-- `RoundTripInsufficient`. -/
structure RoundTripInsufficient where
  subreason : RoundTripInsufficientSubreason
  noCrossDexSellDetail : Option NoCrossDexSellDetailReason := none
  sellQuoteNoneDetailCounts : Option (Multiset SellQuoteNoneDetailReason) := none
  sellNotFreshDetailCounts : Option (Multiset QuoteNotFreshDiagnosis) := none
  noFreshBuyQuoteDetail : Option NoFreshBuyQuoteSubreason := none
  stateStaleAgeBucketCounts : Option (Multiset FreshnessAgeBucket) := none

/-- `RoundTripSelectFailure`. -/
inductive RoundTripSelectFailure where
  | insufficientPools (insufficient : RoundTripInsufficient)
  | incompatibleQuoteKind
  | quoteStale

/-! ## 3. Quoting a pool -/

/-- What the quotes rest on: the state of the pools as it is read at one time. -/
structure Market (W T : Type) where
  now : Nat
  /-- The output of `executable_marginal_quote`: the freshness of the state, the DEX's formula and
      the plausibility of the price. -/
  executableAmountOut : QuotePoolInput → QuoteVaultInput → Option DlmmBinArrays → OrcaExecCtx W T →
    QuoteSide → UInt64 → Option UInt64
  /-- `state_fingerprint_for_executable`. -/
  stateFingerprint : QuoteVaultInput → Option DlmmBinArrays → OrcaExecCtx W T → UInt64
  /-- `dlmm_max_sell_token_in`. -/
  dlmmMaxSellTokenIn : Int32 → UInt16 → DlmmBinArrays → Bool → UInt64
  /-- `reserves_plausible`. -/
  reservesPlausible : UInt64 → UInt64 → UInt8 → String → Bool
  /-- `cpmm_fee_bps_for_pool`, with the creator it looks up. -/
  cpmmFeeBpsForPool : String → String → UInt64 → UInt64 → Option Nat
  /-- `pump_amm_global_fee_config_loaded`. -/
  feeConfigLoaded : Bool
  /-- `trade_implied_sol_per_token`. -/
  tradeImpliedSolPerToken : UInt64 → UInt64 → UInt8 → Rat
  /-- `diagnose_buy_quote_none_with_orca`. -/
  diagnoseBuyQuoteNone : QuotePoolInput → Option QuoteVaultInput → Option DlmmBinArrays →
    OrcaExecCtx W T → UInt64 → NoFreshBuyQuoteSubreason
  /-- `diagnose_sell_quote_none_with_orca`. -/
  diagnoseSellQuoteNone : QuotePoolInput → Option QuoteVaultInput → Option DlmmBinArrays →
    OrcaExecCtx W T → UInt64 → SellQuoteNoneDetailReason
  /-- The reason that `max_by_key` finds first. -/
  dominantBuyDetail : Multiset NoFreshBuyQuoteSubreason → Option NoFreshBuyQuoteSubreason
  /-- `dominant_no_cross_dex_sell_detail`. -/
  dominantSellDetail : Multiset NoCrossDexSellDetailReason → Option NoCrossDexSellDetailReason

/-- `cpmm_amount_out`. -/
def cpmmAmountOut (reserveIn reserveOut amountIn feeBps : Nat) : Option Nat :=
  if reserveIn = 0 ∨ reserveOut = 0 ∨ amountIn = 0 then none
  else do
    let product ← Solana.BinWalk.checkedMul amountIn (10000 - feeBps)
    let amountAfterFee := product / 10000
    if amountAfterFee = 0 then none
    else do
      let numerator ← Solana.BinWalk.checkedMul reserveOut amountAfterFee
      let denominator ← Solana.BinWalk.checkedAdd reserveIn amountAfterFee
      if denominator = 0 then none else some (Arith.trunc 64 (numerator / denominator))

namespace Market

variable {W T : Type} (m : Market W T)

/-- `executable_marginal_quote`. -/
def executableMarginalQuote (pool : QuotePoolInput) (vault : QuoteVaultInput)
    (dlmmBins : Option DlmmBinArrays) (orca : OrcaExecCtx W T) (side : QuoteSide)
    (amountIn : UInt64) : Option PoolQuote :=
  (m.executableAmountOut pool vault dlmmBins orca side amountIn).map fun amountOut =>
    { poolAddress := pool.poolAddress
      dex := pool.dex
      kind := .executableMarginal
      side := side
      asOfSlot := vault.updateSlot
      asOfTs := vault.updatedAt
      fresh := true
      stateFingerprint := m.stateFingerprint vault dlmmBins orca
      amountIn := amountIn
      amountOut := amountOut }

/-- `quote_exact_in_with_orca`. -/
def quoteExactInWithOrca (pool : QuotePoolInput) (vault : Option QuoteVaultInput)
    (dlmmBins : Option DlmmBinArrays) (orca : OrcaExecCtx W T) (mintIn mintOut : String)
    (amountIn : UInt64) : Option PoolQuote :=
  if amountIn = 0 then none
  else do
    let side ← quoteSideFromMints pool.tokenMint mintIn mintOut
    let vault ← vault
    m.executableMarginalQuote pool vault dlmmBins orca side amountIn

/-- `cap_sell_token_in`. -/
def capSellTokenIn (pool : QuotePoolInput) (vault : QuoteVaultInput)
    (dlmmBins : Option DlmmBinArrays) (tokenAmountIn : UInt64) : UInt64 :=
  if pool.dex = "meteora_dlmm" then
    match vault.activeId, vault.binStep, dlmmBins with
    | some activeId, some binStep, some bins =>
        let maxIn := m.dlmmMaxSellTokenIn activeId binStep bins (vaultDlmmSolIsX vault)
        if maxIn > 0 ∧ tokenAmountIn > maxIn then maxIn else tokenAmountIn
    | _, _, _ => tokenAmountIn
  else if supportsCpmm pool.dex ∧ m.reservesPlausible vault.reserveBase vault.reserveQuote
      pool.tokenDecimals pool.tokenMint then
    let feeBps := (m.cpmmFeeBpsForPool pool.dex pool.tokenMint vault.reserveBase
      vault.reserveQuote).getD 0
    if feeBps = 0 ∧ pool.dex = "pump_amm" then 0
    else
      let lo := (Bisect.last (fun mid => some (cpmmAmountOut vault.reserveBase.toNat
        vault.reserveQuote.toNat mid feeBps).isSome) 0 tokenAmountIn.toNat).getD 0
      if lo > 0 ∧ lo < tokenAmountIn.toNat then .ofNat lo else tokenAmountIn
  else tokenAmountIn

/-- `quote_sell_exact_in_with_cap`. -/
def quoteSellExactInWithCap (pool : QuotePoolInput) (vault : QuoteVaultInput)
    (dlmmBins : Option DlmmBinArrays) (orca : OrcaExecCtx W T) (tokenAmountIn : UInt64) :
    Option PoolQuote :=
  m.quoteExactInWithOrca pool (some vault) dlmmBins orca pool.tokenMint nativeSolMint
    (m.capSellTokenIn pool vault dlmmBins tokenAmountIn)

/-- `diagnose_quote_not_fresh_with_orca`. -/
def diagnoseQuoteNotFresh (quote : PoolQuote) (config : QuoteFreshnessConfig)
    (currentVault : Option QuoteVaultInput) (dlmmBins : Option DlmmBinArrays)
    (orca : OrcaExecCtx W T) : Option QuoteNotFreshDiagnosis :=
  match quote.kind with
  | .lastTradeMid =>
      if m.now - quote.asOfTs ≤ fromMillis config.tradeTtlMs then none
      else some ⟨quote.kind, .ageExceeded⟩
  | .executableMarginal =>
      if m.now - quote.asOfTs > fromMillis config.stateTtlMs then some ⟨quote.kind, .ageExceeded⟩
      else
        match currentVault with
        | some vault =>
            if m.stateFingerprint vault dlmmBins orca ≠ quote.stateFingerprint then
              some ⟨quote.kind, .fingerprintMismatch⟩
            else none
        | none => none

/-- `is_quote_fresh_with_orca`. -/
def isQuoteFresh (quote : PoolQuote) (config : QuoteFreshnessConfig)
    (currentVault : Option QuoteVaultInput) (dlmmBins : Option DlmmBinArrays)
    (orca : OrcaExecCtx W T) : Bool :=
  (m.diagnoseQuoteNotFresh quote config currentVault dlmmBins orca).isNone

/-- `vault_state_age_ms`. -/
def vaultStateAgeMs (vault : QuoteVaultInput) : Nat := (m.now - vault.updatedAt) / 1000000

/-- `diagnose_no_fresh_buy_quote_with_orca`. -/
def diagnoseNoFreshBuyQuote (pool : QuotePoolInput) (vault : Option QuoteVaultInput)
    (dlmmBins : Option DlmmBinArrays) (orca : OrcaExecCtx W T) (probeLamports : UInt64)
    (freshness : QuoteFreshnessConfig) : NoFreshBuyQuoteSubreason :=
  match m.quoteExactInWithOrca pool vault dlmmBins orca nativeSolMint pool.tokenMint
      probeLamports with
  | none => m.diagnoseBuyQuoteNone pool vault dlmmBins orca probeLamports
  | some buyQuote =>
      match m.diagnoseQuoteNotFresh buyQuote freshness vault dlmmBins orca with
      | none => .notFreshAfterQuote
      | some ⟨.lastTradeMid, _⟩ => .tradeStale
      | some ⟨.executableMarginal, _⟩ => .stateStale

/-- `quotes_pairable`. -/
def quotesPairable (a b : PoolQuote) : Bool := a.kind = b.kind

/-- `sol_per_token_from_buy_quote`. -/
def solPerTokenFromBuyQuote (quote : PoolQuote) (tokenDecimals : UInt8) : Rat :=
  m.tradeImpliedSolPerToken quote.amountIn quote.amountOut tokenDecimals

/-- `sol_per_token_from_sell_quote`. -/
def solPerTokenFromSellQuote (quote : PoolQuote) (tokenDecimals : UInt8) : Rat :=
  m.tradeImpliedSolPerToken quote.amountOut quote.amountIn tokenDecimals

/-- `dlmm_active_bin_in_map`; bins whose ids overflow are not found. -/
def dlmmActiveBinInMap (vault : QuoteVaultInput) (dlmmBins : Option DlmmBinArrays) : Bool :=
  match vault.activeId, dlmmBins with
  | some activeId, some bins => (flattenBinsForWalker bins).any (activeBinPresent activeId)
  | _, _ => false

/-- `v2_executable_quote_inputs_complete`. -/
def v2ExecutableQuoteInputsComplete (pool : QuotePoolInput) (vault : Option QuoteVaultInput)
    (dlmmBins : Option DlmmBinArrays) (orca : OrcaExecCtx W T) : Bool :=
  if pool.dex = "pump_amm" then vault.isSome && m.feeConfigLoaded
  else if isOrcaDex pool.dex then vault.isSome && orca.whirlpool.isSome && orca.ticks.isSome
  else if isMeteoraDlmmDex pool.dex then
    match vault with
    | none => false
    | some vault =>
        vault.activeId.isSome && vault.binStep.any (0 < ·) && dlmmActiveBinInMap vault dlmmBins
  else if supportsCpmm pool.dex then vault.isSome
  else false

end Market

/-! ## 4. The search -/

/-- A candidate with its buy quote. -/
structure BuyCandidate where
  candidate : RoundTripPoolCandidate
  quote : PoolQuote

/-- A candidate with its sell quote. -/
structure SellCandidate where
  candidate : RoundTripPoolCandidate
  quote : PoolQuote

/-- `RoundTripPoolSelection`. -/
structure RoundTripPoolSelection where
  buyPoolAddress : String
  buyDex : String
  sellPoolAddress : String
  sellDex : String
  buyQuote : PoolQuote
  sellQuote : PoolQuote

/-- `i64::MIN`. -/
def i64Min : Int := -2 ^ 63

/-- The variables of the search. -/
structure PairSearch where
  bestPair : Option (BuyCandidate × SellCandidate)
  bestRoundTripProfit : Int
  sawIncompatibleKind : Bool
  sellFailCounts : Multiset NoCrossDexSellDetailReason
  sellQuoteNoneDetailCounts : Multiset SellQuoteNoneDetailReason
  sellNotFreshDetailCounts : Multiset QuoteNotFreshDiagnosis
  stateStaleAgeBucketCounts : Multiset FreshnessAgeBucket

namespace PairSearch

def start : PairSearch := ⟨none, i64Min, false, 0, 0, 0, 0⟩

variable (s : PairSearch)

/-- A sell leg that failed. -/
def fail (reason : NoCrossDexSellDetailReason) : PairSearch :=
  { s with sellFailCounts := reason ::ₘ s.sellFailCounts }

/-- A sell leg without a quote; `bucket` is the age of its vault. -/
def failNone (sub : SellQuoteNoneDetailReason) (bucket : FreshnessAgeBucket) : PairSearch :=
  let counted := { s with sellQuoteNoneDetailCounts := sub ::ₘ s.sellQuoteNoneDetailCounts }
  if sub = .stateStale then
    { counted with
      stateStaleAgeBucketCounts := bucket ::ₘ s.stateStaleAgeBucketCounts
      sellNotFreshDetailCounts :=
        ⟨.executableMarginal, .ageExceeded⟩ ::ₘ s.sellNotFreshDetailCounts }.fail .sellNotFresh
  else counted.fail .sellQuoteNone

/-- A sell leg whose quote is not fresh. -/
def failNotFresh (diagnosis : QuoteNotFreshDiagnosis) : PairSearch :=
  { s with sellNotFreshDetailCounts := diagnosis ::ₘ s.sellNotFreshDetailCounts }.fail .sellNotFresh

/-- A pair with its profit. -/
def offer (pair : BuyCandidate × SellCandidate) (roundTripProfit : Int) : PairSearch :=
  if s.bestRoundTripProfit < roundTripProfit then
    { s with bestPair := some pair, bestRoundTripProfit := roundTripProfit }
  else s

section Kept

variable (sub : SellQuoteNoneDetailReason) (bucket : FreshnessAgeBucket)

theorem failNone_bestPair : (s.failNone sub bucket).bestPair = s.bestPair := by
  unfold failNone
  split
  · rfl
  · rfl

theorem failNone_profit :
    (s.failNone sub bucket).bestRoundTripProfit = s.bestRoundTripProfit := by
  unfold failNone
  split
  · rfl
  · rfl

theorem failNone_saw : (s.failNone sub bucket).sawIncompatibleKind = s.sawIncompatibleKind := by
  unfold failNone
  split
  · rfl
  · rfl

theorem offer_saw (pair : BuyCandidate × SellCandidate) (roundTripProfit : Int) :
    (s.offer pair roundTripProfit).sawIncompatibleKind = s.sawIncompatibleKind := by
  unfold offer
  split
  · rfl
  · rfl

end Kept

section Ranked

variable (rank : BuyCandidate × SellCandidate → Int)

/-- The profit kept is that of the pair kept. -/
def Ranked : Prop := s.bestRoundTripProfit = (s.bestPair.map rank).getD i64Min

variable {s rank}

/-- **An offer keeps the better of two pairs.** -/
theorem offer_spec (hs : s.Ranked rank) {pair : BuyCandidate × SellCandidate}
    (hpair : i64Min < rank pair) :
    (s.offer pair (rank pair)).bestPair = Champion.keep rank s.bestPair pair ∧
      (s.offer pair (rank pair)).Ranked rank := by
  unfold offer Ranked at *
  cases hbest : s.bestPair with
  | none =>
      rw [hbest] at hs
      have hlt : s.bestRoundTripProfit < rank pair := hs.trans_lt hpair
      rw [if_pos hlt]
      exact ⟨rfl, rfl⟩
  | some best =>
      rw [hbest] at hs
      have hbest' : s.bestRoundTripProfit = rank best := hs
      rw [hbest', Champion.keep_some]
      by_cases hlt : rank best < rank pair
      · rw [if_pos hlt, Champion.pick_of_lt hlt]
        exact ⟨rfl, rfl⟩
      · rw [if_neg hlt, hbest, Champion.pick_of_le (not_lt.mp hlt)]
        exact ⟨rfl, hs⟩

end Ranked

end PairSearch

/-- A choice to be made: the pools of a token, each under its own DEX as the callers label it, and
    amounts below `2^63`. -/
structure RoundTripRequest (W T : Type) where
  market : Market W T
  candidates : List RoundTripPoolCandidate
  orcaByPoolAddress : Finmap fun _ : String => OrcaExecCtx W T
  probeLamports : UInt64
  freshness : QuoteFreshnessConfig
  labelled : ∀ c ∈ candidates, c.dex = c.pool.dex
  probe_lt : probeLamports.toNat < 2 ^ 63
  out_lt : ∀ pool vault bins orca side amountIn amountOut,
    market.executableAmountOut pool vault bins orca side amountIn = some amountOut →
      amountOut.toNat < 2 ^ 63

namespace RoundTripRequest

variable {W T : Type} (R : RoundTripRequest W T)

def tokenDecimals : UInt8 := (R.candidates.head?.map (·.pool.tokenDecimals)).getD 6

/-- `orca_for`. -/
def orcaFor (poolAddress : String) : OrcaExecCtx W T :=
  (R.orcaByPoolAddress.lookup poolAddress).getD .outside

def complete (c : RoundTripPoolCandidate) : Bool :=
  R.market.v2ExecutableQuoteInputsComplete c.pool c.vault c.dlmmBins (R.orcaFor c.pool.poolAddress)

def pairingCandidates : List RoundTripPoolCandidate := R.candidates.filter R.complete

/-- The buy quote of a candidate for the probe. -/
def buyQuote (c : RoundTripPoolCandidate) : Option PoolQuote :=
  R.market.quoteExactInWithOrca c.pool c.vault c.dlmmBins (R.orcaFor c.pool.poolAddress)
    nativeSolMint c.pool.tokenMint R.probeLamports

/-- A quote that counts as a buy: fresh, at a positive price. -/
def validBuy (c : RoundTripPoolCandidate) : Option BuyCandidate :=
  match R.buyQuote c with
  | none => none
  | some quote =>
      if ¬ R.market.isQuoteFresh quote R.freshness c.vault c.dlmmBins
          (R.orcaFor c.pool.poolAddress) then none
      else if R.market.solPerTokenFromBuyQuote quote R.tokenDecimals ≤ 0 then none
      else some ⟨c, quote⟩

def validBuys : List BuyCandidate := R.pairingCandidates.filterMap R.validBuy

/-- `sell_quote.amount_out as i64 - probe_lamports as i64`. -/
def roundTripProfit (sellQuote : PoolQuote) : Int :=
  Arith.truncInt 64 (Arith.truncInt 64 sellQuote.amountOut.toNat -
    Arith.truncInt 64 R.probeLamports.toNat)

/-- One round of the search. -/
def consider (buy : BuyCandidate) (s : PairSearch) (sell : RoundTripPoolCandidate) : PairSearch :=
  if sell.dex = buy.candidate.dex then s
  else if isMeteoraDlmmDex sell.dex && sell.dlmmBins.isNone then s.fail .sellMissingDlmmBins
  else
    let sellOrca := R.orcaFor sell.pool.poolAddress
    if isOrcaDex sell.dex && sellOrca.ticks.isNone then s.fail .sellMissingOrcaTicks
    else
      match sell.vault with
      | none => s.fail .sellMissingVault
      | some sellVault =>
          match R.market.quoteSellExactInWithCap sell.pool sellVault sell.dlmmBins sellOrca
              buy.quote.amountOut with
          | none =>
              s.failNone (R.market.diagnoseSellQuoteNone sell.pool sell.vault sell.dlmmBins sellOrca
                  buy.quote.amountOut)
                (freshnessAgeBucket (R.market.vaultStateAgeMs sellVault))
          | some sellQuote =>
              match R.market.diagnoseQuoteNotFresh sellQuote R.freshness sell.vault sell.dlmmBins
                  sellOrca with
              | some diagnosis => s.failNotFresh diagnosis
              | none =>
                  if ¬ Market.quotesPairable buy.quote sellQuote then
                    { s with sawIncompatibleKind := true }
                  else if R.market.solPerTokenFromSellQuote sellQuote R.tokenDecimals ≤ 0 then
                    s.fail .sellZeroOut
                  else s.offer (buy, ⟨sell, sellQuote⟩) (R.roundTripProfit sellQuote)

def search : PairSearch :=
  R.validBuys.foldl (fun s buy => R.pairingCandidates.foldl (R.consider buy) s) .start

/-- The reasons of the candidates that have no buy quote. -/
def buyQuoteNoneReasons : Multiset NoFreshBuyQuoteSubreason :=
  (R.candidates.filter fun c => (R.buyQuote c).isNone).map fun c =>
    R.market.diagnoseBuyQuoteNone c.pool c.vault c.dlmmBins (R.orcaFor c.pool.poolAddress)
      R.probeLamports

/-- The reason of every candidate. -/
def noFreshBuyReasons : Multiset NoFreshBuyQuoteSubreason :=
  R.candidates.map fun c =>
    R.market.diagnoseNoFreshBuyQuote c.pool c.vault c.dlmmBins (R.orcaFor c.pool.poolAddress)
      R.probeLamports R.freshness

/-- `(!counts.is_empty()).then_some(counts)`. -/
def thenSome {A : Type} [DecidableEq A] (counts : Multiset A) : Option (Multiset A) :=
  if counts = 0 then none else some counts

/-- `select_round_trip_pools_with_orca`. -/
def select : Except RoundTripSelectFailure RoundTripPoolSelection :=
  if R.pairingCandidates.length < 2 then
    if R.candidates.length < 2 then .error (.insufficientPools { subreason := .candidatesLt2 })
    else
      .error (.insufficientPools
        { subreason := .noFreshBuyQuote
          noFreshBuyQuoteDetail := R.market.dominantBuyDetail R.buyQuoteNoneReasons })
  else if R.validBuys.isEmpty then
    .error (.insufficientPools
      { subreason := .noFreshBuyQuote
        noFreshBuyQuoteDetail := R.market.dominantBuyDetail R.noFreshBuyReasons })
  else if (R.pairingCandidates.map (·.dex)).toFinset.card < 2 then
    .error (.insufficientPools { subreason := .singleDexCandidates })
  else
    match R.search.bestPair with
    | none =>
        if R.search.sawIncompatibleKind then .error .incompatibleQuoteKind
        else
          .error (.insufficientPools
            { subreason := .noCrossDexSell
              noCrossDexSellDetail := R.market.dominantSellDetail R.search.sellFailCounts
              sellQuoteNoneDetailCounts := thenSome R.search.sellQuoteNoneDetailCounts
              sellNotFreshDetailCounts := thenSome R.search.sellNotFreshDetailCounts
              stateStaleAgeBucketCounts := thenSome R.search.stateStaleAgeBucketCounts })
    | some (buy, sell) =>
        .ok { buyPoolAddress := buy.candidate.pool.poolAddress
              buyDex := buy.candidate.dex
              sellPoolAddress := sell.candidate.pool.poolAddress
              sellDex := sell.candidate.dex
              buyQuote := buy.quote
              sellQuote := sell.quote }

/-! ## 5. What a round trip is -/

/-- A candidate whose inputs are complete and which has a fresh buy quote at a positive price. -/
structure Buys (c : RoundTripPoolCandidate) (quote : PoolQuote) : Prop where
  mem : c ∈ R.candidates
  complete : R.complete c = true
  quoted : R.buyQuote c = some quote
  fresh : R.market.isQuoteFresh quote R.freshness c.vault c.dlmmBins
    (R.orcaFor c.pool.poolAddress) = true
  price : 0 < R.market.solPerTokenFromBuyQuote quote R.tokenDecimals

/-- A sell of what a buy gives, on another DEX: quoted with its cap, and fresh. -/
structure Sells (buy : BuyCandidate) (c : RoundTripPoolCandidate) (quote : PoolQuote) : Prop where
  mem : c ∈ R.candidates
  complete : R.complete c = true
  dex : c.dex ≠ buy.candidate.dex
  quoted : ∃ vault, c.vault = some vault ∧ R.market.quoteSellExactInWithCap c.pool vault c.dlmmBins
    (R.orcaFor c.pool.poolAddress) buy.quote.amountOut = some quote
  fresh : R.market.isQuoteFresh quote R.freshness c.vault c.dlmmBins
    (R.orcaFor c.pool.poolAddress) = true

/-- **A valid pair**: a buy, and a sell that pairs with it at a positive price. -/
structure ValidPair (buy : BuyCandidate) (sell : SellCandidate) : Prop where
  buys : R.Buys buy.candidate buy.quote
  sells : R.Sells buy sell.candidate sell.quote
  pairable : buy.quote.kind = sell.quote.kind
  price : 0 < R.market.solPerTokenFromSellQuote sell.quote R.tokenDecimals

/-- What a round trip gains. -/
def gain (sell : SellCandidate) : Int := sell.quote.amountOut.toNat - R.probeLamports.toNat

/-- **A selection is of a valid pair**, its quotes are those of its pools, it sells no more than it
    buys, and no valid pair gains more. -/
structure Best (sel : RoundTripPoolSelection) (buy : BuyCandidate) (sell : SellCandidate) :
    Prop where
  selected : sel = ⟨buy.candidate.pool.poolAddress, buy.candidate.dex,
    sell.candidate.pool.poolAddress, sell.candidate.dex, buy.quote, sell.quote⟩
  valid : R.ValidPair buy sell
  buy_belongs : buy.quote.poolAddress = buy.candidate.pool.poolAddress ∧
    buy.quote.dex = buy.candidate.dex
  sell_belongs : sell.quote.poolAddress = sell.candidate.pool.poolAddress ∧
    sell.quote.dex = sell.candidate.dex
  amountIn_le : sell.quote.amountIn ≤ buy.quote.amountOut
  greatest : ∀ buy' sell', R.ValidPair buy' sell' → R.gain sell' ≤ R.gain sell

/-- What is so when the subreason is given. -/
def Insufficient : RoundTripInsufficientSubreason → Prop
  | .candidatesLt2 => R.candidates.length < 2
  | .noFreshBuyQuote => R.pairingCandidates.length < 2 ∨ ∀ c quote, ¬ R.Buys c quote
  | .singleDexCandidates => ∀ c ∈ R.candidates, ∀ c' ∈ R.candidates, R.complete c = true →
      R.complete c' = true → c.dex = c'.dex
  | .noCrossDexSell => (∃ c quote, R.Buys c quote) ∧ ∀ buy sell, ¬ R.ValidPair buy sell

/-- **The choice is exact.** -/
structure Exact : Prop where
  ok_iff : (∃ sel, R.select = .ok sel) ↔ ∃ buy sell, R.ValidPair buy sell
  best : ∀ sel, R.select = .ok sel → ∃ buy sell, R.Best sel buy sell
  insufficient : ∀ i, R.select = .error (.insufficientPools i) → R.Insufficient i.subreason
  incompatible : R.select = .error .incompatibleQuoteKind → ∃ buy c quote,
    R.Buys buy.candidate buy.quote ∧ R.Sells buy c quote ∧ buy.quote.kind ≠ quote.kind
  stale : R.select ≠ .error .quoteStale

/-! ## 6. What a quote carries -/

section Quotes

variable {m : Market W T} {pool : QuotePoolInput} {vault : Option QuoteVaultInput}
  {bins : Option DlmmBinArrays} {orca : OrcaExecCtx W T} {mintIn mintOut : String}
  {amountIn : UInt64} {quote : PoolQuote}

/-- **A quote is of its pool and of the input it was asked for.** -/
theorem of_quoteExactIn
    (h : m.quoteExactInWithOrca pool vault bins orca mintIn mintOut amountIn = some quote) :
    quote.poolAddress = pool.poolAddress ∧ quote.dex = pool.dex ∧ quote.amountIn = amountIn ∧
      ∃ v side, m.executableAmountOut pool v bins orca side amountIn = some quote.amountOut := by
  unfold Market.quoteExactInWithOrca at h
  split at h
  · cases h
  · obtain ⟨side, _, h⟩ := Option.bind_eq_some_iff.mp h
    obtain ⟨v, _, h⟩ := Option.bind_eq_some_iff.mp h
    obtain ⟨out, hout, rfl⟩ := Option.map_eq_some_iff.mp h
    exact ⟨rfl, rfl, rfl, v, side, hout⟩

/-- **The cap never raises an input.** -/
theorem capSellTokenIn_le (v : QuoteVaultInput) (tokenAmountIn : UInt64) :
    m.capSellTokenIn pool v bins tokenAmountIn ≤ tokenAmountIn := by
  unfold Market.capSellTokenIn
  split
  · split
    · dsimp only
      split
      · next h => exact UInt64.le_of_lt h.2
      · exact UInt64.le_refl _
    · exact UInt64.le_refl _
  · split
    · dsimp only
      split
      · exact UInt64.zero_le
      · split
        · next h =>
            rw [UInt64.le_iff_toNat_le, UInt64.toNat_ofNat']
            exact (Nat.mod_le _ _).trans h.2.le
        · exact UInt64.le_refl _
    · exact UInt64.le_refl _

end Quotes

variable {R}

/-- A candidate with complete inputs has what the search asks of a sell leg. -/
theorem of_complete {c : RoundTripPoolCandidate} (hc : c ∈ R.candidates)
    (h : R.complete c = true) :
    (∃ vault, c.vault = some vault) ∧
      (isMeteoraDlmmDex c.dex && c.dlmmBins.isNone) = false ∧
      (isOrcaDex c.dex && (R.orcaFor c.pool.poolAddress).ticks.isNone) = false := by
  rw [R.labelled c hc]
  unfold complete Market.v2ExecutableQuoteInputsComplete at h
  split at h
  · next hpump =>
      rw [hpump]
      exact ⟨Option.isSome_iff_exists.mp (Bool.and_eq_true_iff.mp h).1, rfl, rfl⟩
  · split at h
    · next horca =>
        have hdex : c.pool.dex = "orca" := of_decide_eq_true horca
        obtain ⟨h, hticks⟩ := Bool.and_eq_true_iff.mp h
        rw [hdex]
        refine ⟨Option.isSome_iff_exists.mp (Bool.and_eq_true_iff.mp h).1, rfl, ?_⟩
        rw [Option.isNone_eq_false_iff.mpr hticks, Bool.and_false]
    · next horca =>
        rw [Bool.eq_false_iff.mpr horca, Bool.false_and]
        split at h
        · next hdlmm =>
            cases hvault : c.vault with
            | none =>
                rw [hvault] at h
                cases h
            | some vault =>
                rw [hvault] at h
                refine ⟨⟨vault, rfl⟩, ?_, rfl⟩
                have hbins : Market.dlmmActiveBinInMap vault c.dlmmBins = true :=
                  (Bool.and_eq_true_iff.mp h).2
                unfold Market.dlmmActiveBinInMap at hbins
                cases hb : c.dlmmBins with
                | none =>
                    rw [hb] at hbins
                    split at hbins
                    · next heq => cases heq
                    · cases hbins
                | some bins => exact Bool.and_false _
        · next hdlmm =>
            rw [Bool.eq_false_iff.mpr hdlmm, Bool.false_and]
            split at h
            · exact ⟨Option.isSome_iff_exists.mp h, rfl, rfl⟩
            · cases h

/-! ## 7. A round, and the search -/

/-- The sell of a round, if it is one. -/
def sale (R : RoundTripRequest W T) (buy : BuyCandidate) (c : RoundTripPoolCandidate) :
    Option SellCandidate := do
  let vault ← c.vault
  let quote ← R.market.quoteSellExactInWithCap c.pool vault c.dlmmBins
    (R.orcaFor c.pool.poolAddress) buy.quote.amountOut
  if c.dex ≠ buy.candidate.dex ∧ R.market.isQuoteFresh quote R.freshness c.vault c.dlmmBins
      (R.orcaFor c.pool.poolAddress) = true ∧ buy.quote.kind = quote.kind ∧
      0 < R.market.solPerTokenFromSellQuote quote R.tokenDecimals then
    some ⟨c, quote⟩
  else none

/-- **The sells of a buy** are the second halves of the valid pairs with it. -/
theorem sale_iff {buy : BuyCandidate} {sell : SellCandidate}
    (hbuy : R.Buys buy.candidate buy.quote) {c : RoundTripPoolCandidate} (hc : c ∈ R.candidates)
    (hcomplete : R.complete c = true) :
    R.sale buy c = some sell ↔ sell.candidate = c ∧ R.ValidPair buy sell := by
  unfold sale
  constructor
  · intro h
    obtain ⟨vault, hvault, h⟩ := Option.bind_eq_some_iff.mp h
    obtain ⟨quote, hquote, h⟩ := Option.bind_eq_some_iff.mp h
    split at h
    · next hvalid =>
        obtain ⟨hdex, hfresh, hkind, hprice⟩ := hvalid
        cases h
        exact ⟨rfl, hbuy, ⟨hc, hcomplete, hdex, ⟨vault, hvault, hquote⟩, hfresh⟩, hkind, hprice⟩
    · cases h
  · rintro ⟨rfl, hpair⟩
    obtain ⟨vault, hvault, hquote⟩ := hpair.sells.quoted
    refine Option.bind_eq_some_iff.mpr ⟨vault, hvault, ?_⟩
    refine Option.bind_eq_some_iff.mpr ⟨sell.quote, hquote, ?_⟩
    exact if_pos ⟨hpair.sells.dex, hpair.sells.fresh, hpair.pairable, hpair.price⟩

/-- The profit of a pair. -/
def profit (R : RoundTripRequest W T) (pair : BuyCandidate × SellCandidate) : Int :=
  R.roundTripProfit pair.2.quote

/-- What rounds do: their sales are offered in turn, and a kind that cannot be paired is seen. -/
structure Rounds (R : RoundTripRequest W T) (s s' : PairSearch)
    (pairs : List (BuyCandidate × SellCandidate)) (incompatible : Prop) : Prop where
  bestPair : s'.bestPair = pairs.foldl (Champion.keep R.profit) s.bestPair
  ranked : s'.Ranked R.profit
  saw : s'.sawIncompatibleKind = true ↔ s.sawIncompatibleKind = true ∨ incompatible

/-- A sell that cannot be paired because of its kind. -/
def Incompatible (R : RoundTripRequest W T) (buy : BuyCandidate) (c : RoundTripPoolCandidate) :
    Prop :=
  ∃ quote, R.Sells buy c quote ∧ buy.quote.kind ≠ quote.kind

theorem Rounds.unchanged {s : PairSearch} (s' : PairSearch) (hs : s.Ranked R.profit)
    (hpair : s'.bestPair = s.bestPair) (hprofit : s'.bestRoundTripProfit = s.bestRoundTripProfit)
    (hsaw : s'.sawIncompatibleKind = s.sawIncompatibleKind) {incompatible : Prop}
    (hnot : ¬ incompatible) : R.Rounds s s' [] incompatible where
  bestPair := hpair
  ranked := by
    unfold PairSearch.Ranked at *
    rw [hprofit, hpair]
    exact hs
  saw := by
    rw [hsaw]
    exact (or_iff_left hnot).symm

/-- **Rounds one after another.** -/
theorem Rounds.foldl {A : Type} {f : PairSearch → A → PairSearch}
    {pairs : A → List (BuyCandidate × SellCandidate)} {incompatible : A → Prop} :
    ∀ {l : List A} {s : PairSearch}, s.Ranked R.profit →
      (∀ a ∈ l, ∀ s : PairSearch, s.Ranked R.profit →
        R.Rounds s (f s a) (pairs a) (incompatible a)) →
      R.Rounds s (l.foldl f s) (l.flatMap pairs) (∃ a ∈ l, incompatible a)
  | [], s, hs, _ => .unchanged s hs rfl rfl rfl (by
      rintro ⟨a, ha, _⟩
      exact absurd ha List.not_mem_nil)
  | a :: l, s, hs, hstep => by
      have hfirst := hstep a List.mem_cons_self s hs
      have hrest := Rounds.foldl hfirst.ranked
        fun b hb => hstep b (List.mem_cons_of_mem a hb)
      refine ⟨?_, hrest.ranked, ?_⟩
      · rw [List.foldl_cons, hrest.bestPair, hfirst.bestPair, List.flatMap_cons,
          List.foldl_append]
      · rw [List.foldl_cons, hrest.saw, hfirst.saw, or_assoc]
        exact or_congr_right (by simp only [List.mem_cons, exists_eq_or_imp])

/-- **A quoted output keeps its gain** through the signed arithmetic. -/
theorem profit_eq {pool : QuotePoolInput} {vault : Option QuoteVaultInput}
    {bins : Option DlmmBinArrays} {orca : OrcaExecCtx W T} {mintIn mintOut : String}
    {amountIn : UInt64} {quote : PoolQuote}
    (h : R.market.quoteExactInWithOrca pool vault bins orca mintIn mintOut amountIn = some quote) :
    R.roundTripProfit quote = quote.amountOut.toNat - R.probeLamports.toNat ∧
      i64Min < R.roundTripProfit quote := by
  obtain ⟨_, _, _, v, side, hout⟩ := of_quoteExactIn h
  have hlt := R.out_lt _ _ _ _ _ _ _ hout
  have hprobe := R.probe_lt
  have hsmall : ∀ z : Int, -2 ^ 63 ≤ z → z < 2 ^ 63 → Arith.truncInt 64 z = z :=
    fun z hlo hhi => @Arith.truncInt_of_inRange 63 z ⟨hlo, hhi⟩
  have hdiff : R.roundTripProfit quote = quote.amountOut.toNat - R.probeLamports.toNat := by
    unfold roundTripProfit
    rw [hsmall quote.amountOut.toNat (by omega) (by omega),
      hsmall R.probeLamports.toNat (by omega) (by omega)]
    exact hsmall _ (by omega) (by omega)
  refine ⟨hdiff, ?_⟩
  unfold i64Min
  rw [hdiff]
  omega

/-- **A round of the search.** -/
theorem consider_spec {buy : BuyCandidate} {s : PairSearch} (hs : s.Ranked R.profit)
    {c : RoundTripPoolCandidate} (hc : c ∈ R.candidates) (hcomplete : R.complete c = true) :
    R.Rounds s (R.consider buy s c) ((R.sale buy c).map (buy, ·)).toList
      (R.Incompatible buy c) := by
  obtain ⟨⟨vault, hvault⟩, hdlmm, horca⟩ := of_complete hc hcomplete
  by_cases hdex : c.dex = buy.candidate.dex
  · have hsale : R.sale buy c = none := by
      unfold sale
      rw [hvault, Option.bind_eq_bind, Option.bind_some]
      refine Option.bind_eq_none_iff.mpr fun quote _ => ?_
      exact if_neg fun h => h.1 hdex
    unfold consider
    rw [hsale, if_pos hdex]
    refine .unchanged s hs rfl rfl rfl ?_
    rintro ⟨quote, hsells, _⟩
    exact hsells.dex hdex
  · unfold consider
    rw [if_neg hdex, if_neg (Bool.eq_false_iff.mp hdlmm)]
    dsimp only
    rw [if_neg (Bool.eq_false_iff.mp horca), hvault]
    dsimp only
    cases hquote : R.market.quoteSellExactInWithCap c.pool vault c.dlmmBins
        (R.orcaFor c.pool.poolAddress) buy.quote.amountOut with
    | none =>
        have hsale : R.sale buy c = none := by
          unfold sale
          rw [hvault, Option.bind_eq_bind, Option.bind_some, hquote]
          rfl
        rw [hsale]
        refine .unchanged _ hs (PairSearch.failNone_bestPair _ _ _)
          (PairSearch.failNone_profit _ _ _) (PairSearch.failNone_saw _ _ _) ?_
        rintro ⟨quote, hsells, _⟩
        obtain ⟨vault', hvault', hquote'⟩ := hsells.quoted
        cases hvault.symm.trans hvault'
        cases hquote.symm.trans hquote'
    | some quote =>
        have hsale : R.sale buy c = if c.dex ≠ buy.candidate.dex ∧
            R.market.isQuoteFresh quote R.freshness c.vault c.dlmmBins
              (R.orcaFor c.pool.poolAddress) = true ∧ buy.quote.kind = quote.kind ∧
            0 < R.market.solPerTokenFromSellQuote quote R.tokenDecimals then some ⟨c, quote⟩
          else none := by
          unfold sale
          rw [hvault, Option.bind_eq_bind, Option.bind_some, hquote]
          rfl
        have hquoted : ∀ {quote'}, R.Sells buy c quote' → quote' = quote := fun hsells => by
          obtain ⟨vault', hvault', hquote'⟩ := hsells.quoted
          cases hvault.symm.trans hvault'
          cases hquote.symm.trans hquote'
          rfl
        have hfresh : R.market.isQuoteFresh quote R.freshness c.vault c.dlmmBins
            (R.orcaFor c.pool.poolAddress) = (R.market.diagnoseQuoteNotFresh quote R.freshness
              (some vault) c.dlmmBins (R.orcaFor c.pool.poolAddress)).isNone := by
          unfold Market.isQuoteFresh
          rw [hvault]
        rw [hsale]
        cases hdiagnosis : R.market.diagnoseQuoteNotFresh quote R.freshness (some vault) c.dlmmBins
            (R.orcaFor c.pool.poolAddress) with
        | some diagnosis =>
            rw [hdiagnosis] at hfresh
            rw [if_neg fun h => Bool.false_ne_true (hfresh.symm.trans h.2.1)]
            dsimp only
            rw [hdiagnosis]
            dsimp only
            refine .unchanged (s.failNotFresh diagnosis) hs rfl rfl rfl ?_
            rintro ⟨quote', hsells, _⟩
            cases hquoted hsells
            exact Bool.false_ne_true (hfresh.symm.trans hsells.fresh)
        | none =>
            rw [hdiagnosis] at hfresh
            dsimp only
            rw [hdiagnosis]
            dsimp only
            have hpairable : Market.quotesPairable buy.quote quote = true ↔
                buy.quote.kind = quote.kind := decide_eq_true_iff
            by_cases hkind : buy.quote.kind = quote.kind
            · rw [if_neg (not_not_intro (hpairable.mpr hkind))]
              have hnot : ¬ R.Incompatible buy c := by
                rintro ⟨quote', hsells, hne⟩
                cases hquoted hsells
                exact hne hkind
              by_cases hprice : R.market.solPerTokenFromSellQuote quote R.tokenDecimals ≤ 0
              · rw [if_pos hprice, if_neg fun h => not_lt_of_ge hprice h.2.2.2]
                exact .unchanged (s.fail .sellZeroOut) hs rfl rfl rfl hnot
              · rw [if_neg hprice, if_pos ⟨hdex, hfresh, hkind, not_le.mp hprice⟩]
                obtain ⟨hkeep, hranked⟩ := @PairSearch.offer_spec s R.profit hs
                  (buy, ⟨c, quote⟩) (profit_eq hquote).2
                refine ⟨hkeep, hranked, ?_⟩
                rw [PairSearch.offer_saw]
                exact (or_iff_left hnot).symm
            · rw [if_pos fun h => hkind (hpairable.mp h), if_neg fun h => hkind h.2.2.1]
              have hincompatible : R.Incompatible buy c :=
                ⟨quote, ⟨hc, hcomplete, hdex, ⟨vault, hvault, hquote⟩, hfresh⟩, hkind⟩
              exact ⟨rfl, hs, iff_of_true rfl (.inr hincompatible)⟩

theorem mem_pairingCandidates {c : RoundTripPoolCandidate} :
    c ∈ R.pairingCandidates ↔ c ∈ R.candidates ∧ R.complete c = true := List.mem_filter

/-- **The buys of the search** are those with a fresh quote at a positive price. -/
theorem mem_validBuys {buy : BuyCandidate} :
    buy ∈ R.validBuys ↔ R.Buys buy.candidate buy.quote := by
  unfold validBuys validBuy
  rw [List.mem_filterMap]
  constructor
  · rintro ⟨c, hc, h⟩
    obtain ⟨hmem, hcomplete⟩ := mem_pairingCandidates.mp hc
    cases hquote : R.buyQuote c with
    | none =>
        rw [hquote] at h
        cases h
    | some quote =>
        rw [hquote] at h
        dsimp only at h
        split at h
        · cases h
        · next hfresh =>
            split at h
            · cases h
            · next hprice =>
                cases h
                exact ⟨hmem, hcomplete, hquote, not_not.mp hfresh, not_le.mp hprice⟩
  · intro h
    refine ⟨buy.candidate, mem_pairingCandidates.mpr ⟨h.mem, h.complete⟩, ?_⟩
    rw [h.quoted]
    dsimp only
    rw [if_neg (not_not_intro h.fresh), if_neg (not_le.mpr h.price)]

/-- The pairs of the search, in its order. -/
def pairs (R : RoundTripRequest W T) : List (BuyCandidate × SellCandidate) :=
  R.validBuys.flatMap fun buy => R.pairingCandidates.flatMap fun c =>
    ((R.sale buy c).map (buy, ·)).toList

/-- **The pairs of the search are the valid ones.** -/
theorem mem_pairs {pair : BuyCandidate × SellCandidate} :
    pair ∈ R.pairs ↔ R.ValidPair pair.1 pair.2 := by
  unfold pairs
  simp only [List.mem_flatMap, Option.mem_toList, Option.map_eq_some_iff]
  constructor
  · rintro ⟨buy, hbuy, c, hc, sell, hsale, rfl⟩
    obtain ⟨hmem, hcomplete⟩ := mem_pairingCandidates.mp hc
    exact ((sale_iff (mem_validBuys.mp hbuy) hmem hcomplete).mp hsale).2
  · intro h
    refine ⟨pair.1, mem_validBuys.mpr h.buys, pair.2.candidate,
      mem_pairingCandidates.mpr ⟨h.sells.mem, h.sells.complete⟩, pair.2, ?_, rfl⟩
    exact (sale_iff h.buys h.sells.mem h.sells.complete).mpr ⟨rfl, h⟩

/-- **The search keeps the first pair of the greatest profit**, and sees a kind that cannot be
    paired. -/
theorem search_spec :
    R.search.bestPair = List.argmax R.profit R.pairs ∧
      (R.search.sawIncompatibleKind = true ↔
        ∃ buy ∈ R.validBuys, ∃ c ∈ R.pairingCandidates, R.Incompatible buy c) := by
  have hstart : PairSearch.start.Ranked R.profit := rfl
  have hrounds : R.Rounds .start R.search R.pairs
      (∃ buy ∈ R.validBuys, ∃ c ∈ R.pairingCandidates, R.Incompatible buy c) :=
    .foldl hstart fun buy hbuy s hs => .foldl hs fun c hc s hs => by
      obtain ⟨hmem, hcomplete⟩ := mem_pairingCandidates.mp hc
      exact consider_spec hs hmem hcomplete
  refine ⟨?_, ?_⟩
  · rw [hrounds.bestPair]
    exact Champion.foldl_keep _
  · rw [hrounds.saw]
    exact or_iff_right Bool.false_ne_true

/-! ## 8. The choice -/

/-- Two pools of different DEXes are two pools. -/
theorem two_le_length {l : List RoundTripPoolCandidate} {c c' : RoundTripPoolCandidate}
    (hc : c ∈ l) (hc' : c' ∈ l) (h : c.dex ≠ c'.dex) : 2 ≤ l.length := by
  match l with
  | [] => exact absurd hc List.not_mem_nil
  | [x] =>
      rw [List.mem_singleton] at hc hc'
      exact absurd (by rw [hc, hc']) h
  | _ :: _ :: _ => exact Nat.le_add_left 2 _

theorem two_le_card {l : List RoundTripPoolCandidate} :
    2 ≤ (l.map (·.dex)).toFinset.card ↔ ∃ c ∈ l, ∃ c' ∈ l, c.dex ≠ c'.dex := by
  rw [← Nat.lt_iff_add_one_le, Finset.one_lt_card]
  simp only [List.mem_toFinset, List.mem_map]
  constructor
  · rintro ⟨_, ⟨c, hc, rfl⟩, _, ⟨c', hc', rfl⟩, h⟩
    exact ⟨c, hc, c', hc', h⟩
  · rintro ⟨c, hc, c', hc', h⟩
    exact ⟨c.dex, ⟨c, hc, rfl⟩, c'.dex, ⟨c', hc', rfl⟩, h⟩

/-- **A valid pair leads to a selection.** -/
theorem exists_select {buy : BuyCandidate} {sell : SellCandidate} (h : R.ValidPair buy sell) :
    ∃ sel, R.select = .ok sel := by
  have hbuy := mem_pairingCandidates.mpr ⟨h.buys.mem, h.buys.complete⟩
  have hsell := mem_pairingCandidates.mpr ⟨h.sells.mem, h.sells.complete⟩
  have hpairing : ¬ R.pairingCandidates.length < 2 :=
    Nat.not_lt_of_le (two_le_length hsell hbuy h.sells.dex)
  have hcard : ¬ (R.pairingCandidates.map (·.dex)).toFinset.card < 2 :=
    Nat.not_lt_of_le (two_le_card.mpr ⟨_, hsell, _, hbuy, h.sells.dex⟩)
  have hbuys : ¬ R.validBuys.isEmpty = true := fun hempty => by
    have hmem := mem_validBuys.mpr h.buys
    rw [List.isEmpty_iff.mp hempty] at hmem
    exact absurd hmem List.not_mem_nil
  have hpair : R.search.bestPair ≠ none := by
    rw [search_spec.1, Ne, List.argmax_eq_none]
    intro hnil
    have hmem := mem_pairs.mpr (show R.ValidPair (buy, sell).1 (buy, sell).2 from h)
    rw [hnil] at hmem
    exact absurd hmem List.not_mem_nil
  obtain ⟨pair, hbest⟩ := Option.ne_none_iff_exists'.mp hpair
  unfold select
  rw [if_neg hpairing, if_neg hbuys, if_neg hcard, hbest]
  exact ⟨_, rfl⟩

/-- What a selection was made from. -/
theorem of_select_ok {sel : RoundTripPoolSelection} (h : R.select = .ok sel) :
    ∃ buy sell, R.search.bestPair = some (buy, sell) ∧
      sel = ⟨buy.candidate.pool.poolAddress, buy.candidate.dex,
        sell.candidate.pool.poolAddress, sell.candidate.dex, buy.quote, sell.quote⟩ := by
  unfold select at h
  split at h
  · split at h
    · cases h
    · cases h
  · split at h
    · cases h
    · split at h
      · cases h
      · cases hbest : R.search.bestPair with
        | none =>
            rw [hbest] at h
            dsimp only at h
            split at h
            · cases h
            · cases h
        | some pair =>
            rw [hbest] at h
            cases h
            exact ⟨pair.1, pair.2, rfl, rfl⟩

/-- **A selection is the best pair.** -/
theorem best_of_select {sel : RoundTripPoolSelection} (h : R.select = .ok sel) :
    ∃ buy sell, R.Best sel buy sell := by
  obtain ⟨buy, sell, hbest, rfl⟩ := of_select_ok h
  have hargmax : (buy, sell) ∈ List.argmax R.profit R.pairs := search_spec.1 ▸ hbest
  have hvalid := mem_pairs.mp (List.argmax_mem hargmax)
  have hgain : ∀ {buy sell}, R.ValidPair buy sell → R.profit (buy, sell) = R.gain sell :=
    fun hpair => by
      obtain ⟨_, _, hquote⟩ := hpair.sells.quoted
      exact (profit_eq hquote).1
  obtain ⟨_, _, hquote⟩ := hvalid.sells.quoted
  have hsell := of_quoteExactIn hquote
  have hbuy := of_quoteExactIn hvalid.buys.quoted
  refine ⟨buy, sell, rfl, hvalid, ⟨hbuy.1, ?_⟩, ⟨hsell.1, ?_⟩, ?_, fun buy' sell' hpair => ?_⟩
  · rw [R.labelled _ hvalid.buys.mem]
    exact hbuy.2.1
  · rw [R.labelled _ hvalid.sells.mem]
    exact hsell.2.1
  · rw [hsell.2.2.1]
    exact capSellTokenIn_le _ _
  · rw [← hgain hpair, ← hgain hvalid]
    have hmem := mem_pairs.mpr (show R.ValidPair (buy', sell').1 (buy', sell').2 from hpair)
    exact List.le_of_mem_argmax hmem hargmax

/-- No pair was valid where the search kept none. -/
theorem not_validPair_of_none (h : R.search.bestPair = none) (buy : BuyCandidate)
    (sell : SellCandidate) : ¬ R.ValidPair buy sell := fun hpair => by
  have hmem := mem_pairs.mpr (show R.ValidPair (buy, sell).1 (buy, sell).2 from hpair)
  rw [search_spec.1, List.argmax_eq_none] at h
  rw [h] at hmem
  exact absurd hmem List.not_mem_nil

/-- **What the subreason says is so.** -/
theorem insufficient_of_select {i : RoundTripInsufficient}
    (h : R.select = .error (.insufficientPools i)) : R.Insufficient i.subreason := by
  unfold select at h
  split at h
  · next hfew =>
      split at h
      · next hcandidates =>
          cases h
          exact hcandidates
      · cases h
        exact .inl hfew
  · split at h
    · next hbuys =>
        cases h
        refine .inr fun c quote hbuy => ?_
        have hmem : (⟨c, quote⟩ : BuyCandidate) ∈ R.validBuys := mem_validBuys.mpr hbuy
        rw [List.isEmpty_iff.mp hbuys] at hmem
        exact absurd hmem List.not_mem_nil
    · next hbuys =>
        split at h
        · next hcard =>
            cases h
            intro c hc c' hc' hcomplete hcomplete'
            by_contra hne
            exact absurd (two_le_card.mpr ⟨c, mem_pairingCandidates.mpr ⟨hc, hcomplete⟩, c',
              mem_pairingCandidates.mpr ⟨hc', hcomplete'⟩, hne⟩) (Nat.not_le_of_lt hcard)
        · cases hbest : R.search.bestPair with
          | some pair =>
              rw [hbest] at h
              cases h
          | none =>
              rw [hbest] at h
              dsimp only at h
              split at h
              · cases h
              · cases h
                refine ⟨?_, not_validPair_of_none hbest⟩
                obtain ⟨buy, hbuy⟩ := List.exists_mem_of_ne_nil R.validBuys
                  fun hnil => hbuys (List.isEmpty_iff.mpr hnil)
                exact ⟨buy.candidate, buy.quote, mem_validBuys.mp hbuy⟩

/-- The other failures. -/
theorem of_select_error {failure : RoundTripSelectFailure} (h : R.select = .error failure) :
    (∃ i, failure = .insufficientPools i) ∨
      failure = .incompatibleQuoteKind ∧ R.search.sawIncompatibleKind = true := by
  unfold select at h
  split at h
  · split at h
    · cases h
      exact .inl ⟨_, rfl⟩
    · cases h
      exact .inl ⟨_, rfl⟩
  · split at h
    · cases h
      exact .inl ⟨_, rfl⟩
    · split at h
      · cases h
        exact .inl ⟨_, rfl⟩
      · cases hbest : R.search.bestPair with
        | some pair =>
            rw [hbest] at h
            cases h
        | none =>
            rw [hbest] at h
            dsimp only at h
            split at h
            · next hsaw =>
                cases h
                exact .inr ⟨rfl, hsaw⟩
            · cases h
              exact .inl ⟨_, rfl⟩

/-- **The choice of a round trip is exact.** -/
theorem select_exact (R : RoundTripRequest W T) : R.Exact where
  ok_iff := by
    constructor
    · rintro ⟨sel, h⟩
      obtain ⟨buy, sell, hbest⟩ := best_of_select h
      exact ⟨buy, sell, hbest.valid⟩
    · rintro ⟨buy, sell, h⟩
      exact exists_select h
  best _ h := best_of_select h
  insufficient _ h := insufficient_of_select h
  incompatible h := by
    rcases of_select_error h with ⟨i, hi⟩ | ⟨_, hsaw⟩
    · cases hi
    · obtain ⟨buy, hbuy, c, _, quote, hsells, hkind⟩ := search_spec.2.mp hsaw
      exact ⟨buy, c, quote, mem_validBuys.mp hbuy, hsells, hkind⟩
  stale h := by
    rcases of_select_error h with ⟨i, hi⟩ | ⟨hi, _⟩
    · cases hi
    · cases hi

/-! ### A pool that buys, next to one without inputs -/

/-- Every quote gives 1000. -/
def flatMarket : Market Unit Unit where
  now := 0
  executableAmountOut _ _ _ _ _ _ := some 1000
  stateFingerprint _ _ _ := 0
  dlmmMaxSellTokenIn _ _ _ _ := 0
  reservesPlausible _ _ _ _ := true
  cpmmFeeBpsForPool _ _ _ _ := some 25
  feeConfigLoaded := true
  tradeImpliedSolPerToken _ _ _ := 1
  diagnoseBuyQuoteNone _ _ _ _ _ := .noExecutableMarginal
  diagnoseSellQuoteNone _ _ _ _ _ := .noExecutableMarginal
  dominantBuyDetail _ := none
  dominantSellDetail _ := none

def poolOn (dex : String) (vault : Option QuoteVaultInput) : RoundTripPoolCandidate where
  pool := ⟨dex, dex, "mint", none, none, 0, true, 6⟩
  vault := vault
  dlmmBins := none
  dex := dex

def raydiumPool : RoundTripPoolCandidate :=
  poolOn "raydium" (some ⟨5, 5, 1, 0, none, none, false, none⟩)

/-- The Raydium pool has its vault, the Orca pool nothing. -/
def lonely : RoundTripRequest Unit Unit where
  market := flatMarket
  candidates := [raydiumPool, poolOn "orca" none]
  orcaByPoolAddress := ∅
  probeLamports := 100
  freshness := ⟨30000, 120000⟩
  labelled := by
    intro c hc
    rcases List.mem_pair.mp hc with rfl | rfl
    · rfl
    · rfl
  probe_lt := by decide
  out_lt := by
    intro _ _ _ _ _ _ amountOut h
    cases h
    decide

/-- **`NoFreshBuyQuote` does not say that no candidate has a fresh buy quote.** -/
theorem fresh_buy_yet_none : ¬ ∀ i, lonely.select = .error (.insufficientPools i) →
    i.subreason = .noFreshBuyQuote → ∀ c quote, ¬ lonely.Buys c quote := fun h => by
  have hselect : lonely.select =
      .error (.insufficientPools { subreason := .noFreshBuyQuote }) := rfl
  have hbuys : lonely.Buys raydiumPool
      ⟨"raydium", "raydium", .executableMarginal, .buy, 1, 0, true, 0, 100, 1000⟩ :=
    ⟨List.mem_cons_self, rfl, rfl, by decide +kernel, by decide⟩
  exact h _ hselect rfl _ _ hbuys

end RoundTripRequest

end IronCrab.Arbitrage

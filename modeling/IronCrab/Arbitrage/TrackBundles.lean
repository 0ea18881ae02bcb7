/-
  File:      IronCrab/Arbitrage/TrackBundles.lean
  Subject:   THE BUNDLE OF A MINT (`build_mint_bundle` of `track_selection.rs`): the two or three
             pools of a mint that are pinned together.

  Reading of the source's data:

  * quotes are those of a `Market`, read at one time; without an Orca context, as here, every
    pool is quoted under `OrcaExecCtx.outside`;
  * of `select_round_trip_pools` only what `.ok()` leaves is used, so its counts are left out;
  * a `String` is compared as Rust compares one, and a stable sort by a rank is `insertionSort`.

  * `selectRoundTripPools_eq` -- the choice of a round trip is that of `RoundTripRequest.select`;
  * `Trip`, `best_trip` -- what the search for a round trip ends with;
  * `MintBundle.Of` -- what a bundle is made of;
  * **`of_buildMintBundle`** -- every constructor builds such a bundle.
-/
import IronCrab.Arbitrage.RoundTrip
import IronCrab.Lib.Keyed
import Mathlib.Data.Prod.Lex
import Mathlib.Data.String.Basic

namespace IronCrab.Arbitrage

/-! ## 1. Candidates -/

/-- `TrackPoolReadiness`. -/
inductive TrackPoolReadiness where
  | rejected
  | warmable
  | quoteReady
  | executable
  deriving DecidableEq

namespace TrackPoolReadiness

/-- The discriminant, which the derived order compares. -/
def ordinal : TrackPoolReadiness → Nat
  | rejected => 0
  | warmable => 1
  | quoteReady => 2
  | executable => 3

theorem ordinal_injective : Function.Injective ordinal := by
  intro a b h
  cases a <;> cases b <;> first | rfl | cases h

instance : LinearOrder TrackPoolReadiness := LinearOrder.lift' ordinal ordinal_injective

end TrackPoolReadiness

/-- `TrackPoolInput`, under the address and the DEX of its quote input. -/
structure TrackPoolInput where
  poolAddress : String
  dex : String
  known : Bool
  quotePool : QuotePoolInput
  vault : Option QuoteVaultInput
  dlmmBins : Option DlmmBinArrays
  lastActivityUnixMs : Nat
  addressed : quotePool.poolAddress = poolAddress
  labelled : quotePool.dex = dex

/-- `TrackMintInput`: the pools of a mint's tracker, one for each address, quoted with the decimals
    of the mint. -/
structure TrackMintInput where
  mint : String
  pools : List TrackPoolInput
  tradeSignalPools : Option (String × String)
  lastActivityUnixMs : Nat
  nodup : (pools.map (·.poolAddress)).Nodup
  decimals : ∀ p ∈ pools, ∀ q ∈ pools, p.quotePool.tokenDecimals = q.quotePool.tokenDecimals

/-- `TrackSelectionConfig`. -/
structure TrackSelectionConfig where
  maxPools : Nat
  maxPoolsPerMint : Nat
  probeLamports : UInt64
  freshness : QuoteFreshnessConfig

/-- `ArbTrackActiveReason`, as far as the selection gives one. -/
inductive ArbTrackActiveReason where
  | tradeSignal
  | multiDex
  deriving DecidableEq

/-- `SelectedTrackPool`. -/
structure SelectedTrackPool where
  mint : String
  pool : String
  readiness : TrackPoolReadiness
  activeReason : ArbTrackActiveReason
  deriving DecidableEq

/-- `is_arb_track_dex`. -/
def isArbTrackDex (dex : String) : Bool :=
  dex = "raydium" || dex = "raydium_cpmm" || dex = "orca" || dex = "meteora_dlmm" ||
    dex = "pump_amm"

/-- `is_structurally_quote_capable`. -/
def isStructurallyQuoteCapable (pool : TrackPoolInput) : Bool :=
  if !pool.known || !isArbTrackDex pool.dex then false
  else if pool.quotePool.dex = "meteora_dlmm" then
    pool.vault.any (fun vault => vault.activeId.isSome && vault.binStep.isSome) ||
      (pool.dlmmBins.isSome || pool.known)
  else pool.quotePool.dex = "orca" || pool.quotePool.dex = "raydium" ||
    pool.quotePool.dex = "raydium_cpmm" || pool.quotePool.dex = "pump_amm"

/-- `probe_token_amount_for_sell`; the products are of 128 bits. -/
def probeTokenAmountForSell (pool : TrackPoolInput) (probeLamports : UInt64) : UInt64 :=
  match pool.vault with
  | none => 1
  | some vault =>
      if vault.reserveBase = 0 ∨ vault.reserveQuote = 0 then 1
      else
        let token := vault.reserveBase.toNat
        let sol := vault.reserveQuote.toNat
        let solIn := probeLamports.toNat
        .ofNat (max (Arith.satMul 128 token solIn / Arith.satAdd 128 sol solIn) 1)

/-! ## 2. The probe, and the round trip -/

namespace Market

variable {W T : Type} (m : Market W T)

section Probe

variable (config : TrackSelectionConfig) (pool : TrackPoolInput)

/-- A quote of a pool for an input, and whether it is fresh. -/
def canFreshQuote (mintIn mintOut : String) (amountIn : UInt64) : Bool :=
  match m.quoteExactInWithOrca pool.quotePool pool.vault pool.dlmmBins .outside mintIn mintOut
      amountIn with
  | none => false
  | some quote => m.isQuoteFresh quote config.freshness pool.vault pool.dlmmBins .outside

/-- `can_fresh_buy_quote`. -/
def canFreshBuyQuote : Bool :=
  m.canFreshQuote config pool nativeSolMint pool.quotePool.tokenMint config.probeLamports

/-- `can_fresh_sell_quote`. -/
def canFreshSellQuote : Bool :=
  m.canFreshQuote config pool pool.quotePool.tokenMint nativeSolMint
    (probeTokenAmountForSell pool config.probeLamports)

/-- `is_warmable_pool`. -/
def isWarmablePool : Bool :=
  if !pool.known || !isStructurallyQuoteCapable pool then false
  else if m.canFreshBuyQuote config pool || m.canFreshSellQuote config pool then false
  else true

/-- `classify_pool_readiness`. -/
def classifyPoolReadiness : TrackPoolReadiness :=
  if !pool.known || !isArbTrackDex pool.dex then .rejected
  else if !isStructurallyQuoteCapable pool then .rejected
  else if m.canFreshBuyQuote config pool || m.canFreshSellQuote config pool then .quoteReady
  else if m.isWarmablePool config pool then .warmable
  else .rejected

end Probe

section RoundTrip

variable (probeLamports : UInt64) (freshness : QuoteFreshnessConfig)

/-- The inputs of a candidate are complete without an Orca context. -/
def inputsComplete (c : RoundTripPoolCandidate) : Bool :=
  m.v2ExecutableQuoteInputsComplete c.pool c.vault c.dlmmBins .outside

/-- A candidate with a quote that counts as a buy. -/
def buyLeg (tokenDecimals : UInt8) (c : RoundTripPoolCandidate) : Option BuyCandidate :=
  match m.quoteExactInWithOrca c.pool c.vault c.dlmmBins .outside nativeSolMint c.pool.tokenMint
      probeLamports with
  | none => none
  | some quote =>
      if ¬ m.isQuoteFresh quote freshness c.vault c.dlmmBins .outside then none
      else if m.solPerTokenFromBuyQuote quote tokenDecimals ≤ 0 then none
      else some ⟨c, quote⟩

/-- A candidate with a quote that counts as the sell of a buy. -/
def sellLeg (tokenDecimals : UInt8) (buy : BuyCandidate) (c : RoundTripPoolCandidate) :
    Option SellCandidate :=
  if c.dex = buy.candidate.dex then none
  else if isMeteoraDlmmDex c.dex && c.dlmmBins.isNone then none
  else if isOrcaDex c.dex && (OrcaExecCtx.outside : OrcaExecCtx W T).ticks.isNone then none
  else
    match c.vault with
    | none => none
    | some vault =>
        match m.quoteSellExactInWithCap c.pool vault c.dlmmBins .outside buy.quote.amountOut with
        | none => none
        | some quote =>
            match m.diagnoseQuoteNotFresh quote freshness c.vault c.dlmmBins .outside with
            | some _ => none
            | none =>
                if ¬ quotesPairable buy.quote quote then none
                else if m.solPerTokenFromSellQuote quote tokenDecimals ≤ 0 then none
                else some ⟨c, quote⟩

/-- `sell_quote.amount_out as i64 - probe_lamports as i64`. -/
def tripProfit (pair : BuyCandidate × SellCandidate) : Int :=
  Arith.truncInt 64 (Arith.truncInt 64 pair.2.quote.amountOut.toNat -
    Arith.truncInt 64 probeLamports.toNat)

/-- One round of the search: the best pair so far with its profit. -/
def tryTrip (tokenDecimals : UInt8) (buy : BuyCandidate)
    (best : Option (BuyCandidate × SellCandidate) × Int) (c : RoundTripPoolCandidate) :
    Option (BuyCandidate × SellCandidate) × Int :=
  match m.sellLeg freshness tokenDecimals buy c with
  | none => best
  | some sell =>
      if best.2 < tripProfit probeLamports (buy, sell) then
        (some (buy, sell), tripProfit probeLamports (buy, sell))
      else best

/-- The selection of a pair. -/
def selectionOf (pair : BuyCandidate × SellCandidate) : RoundTripPoolSelection where
  buyPoolAddress := pair.1.candidate.pool.poolAddress
  buyDex := pair.1.candidate.dex
  sellPoolAddress := pair.2.candidate.pool.poolAddress
  sellDex := pair.2.candidate.dex
  buyQuote := pair.1.quote
  sellQuote := pair.2.quote

/-- `select_round_trip_pools(..).ok()`. -/
def selectRoundTripPools (candidates : List RoundTripPoolCandidate) :
    Option RoundTripPoolSelection :=
  let tokenDecimals := (candidates.head?.map (·.pool.tokenDecimals)).getD 6
  let pairing := candidates.filter m.inputsComplete
  let buys := pairing.filterMap (m.buyLeg probeLamports freshness tokenDecimals)
  if pairing.length < 2 then none
  else if buys.isEmpty then none
  else if (pairing.map (·.dex)).toFinset.card < 2 then none
  else
    (buys.foldl (fun best buy => pairing.foldl (m.tryTrip probeLamports freshness tokenDecimals buy)
        best) (none, i64Min)).1.map selectionOf

end RoundTrip

end Market

/-! ## 3. Bundles -/

/-- `MintBundle`. -/
structure MintBundle where
  mint : String
  priority : TrackPoolReadiness
  lastActivityUnixMs : Nat
  pools : List SelectedTrackPool

/-- `per_pool_readiness`. -/
abbrev PerPoolReadiness := Finmap fun _ : String => TrackPoolReadiness

/-- `pool_readiness`. -/
def poolReadiness (pool : TrackPoolInput) (perPoolReadiness : PerPoolReadiness) :
    TrackPoolReadiness :=
  (perPoolReadiness.lookup pool.poolAddress).getD .rejected

/-- `selected_pool`: never less ready than its bundle says. -/
def selectedPool (mint : TrackMintInput) (pool : TrackPoolInput)
    (defaultReadiness : TrackPoolReadiness) (reason : ArbTrackActiveReason)
    (perPoolReadiness : PerPoolReadiness) : SelectedTrackPool where
  mint := mint.mint
  pool := pool.poolAddress
  readiness := max (poolReadiness pool perPoolReadiness) defaultReadiness
  activeReason := reason

/-- The order of pools to be pinned: the readiest first, then `dex_then_pool_cmp`. -/
def pinRank (perPoolReadiness : PerPoolReadiness) (pool : TrackPoolInput) :
    TrackPoolReadinessᵒᵈ ×ₗ String ×ₗ String :=
  toLex (OrderDual.toDual (poolReadiness pool perPoolReadiness), toLex (pool.dex, pool.poolAddress))

section Build

variable {W T : Type} (m : Market W T) (config : TrackSelectionConfig)
  (perPoolReadiness : PerPoolReadiness)

/-- `is_pinable_pool`. -/
def isPinablePool (pool : TrackPoolInput) : Bool :=
  decide (.warmable ≤ poolReadiness pool perPoolReadiness) || m.isWarmablePool config pool

/-- Pools in the order in which they are to be pinned. -/
def pinSorted (pools : List TrackPoolInput) : List TrackPoolInput :=
  (pools.filter (isPinablePool m config perPoolReadiness)).insertionSort fun a b =>
    pinRank perPoolReadiness a ≤ pinRank perPoolReadiness b

/-- `maybe_add_third_pool`. -/
def maybeAddThirdPool (mint : TrackMintInput) (pools : List SelectedTrackPool)
    (eligible : List TrackPoolInput) : List SelectedTrackPool :=
  if config.maxPoolsPerMint ≤ pools.length then pools
  else
    let used := pools.map (·.pool)
    let usedDexes := pools.filterMap fun sp =>
      (eligible.find? fun p => decide (p.poolAddress = sp.pool)).map (·.dex)
    let candidates := pinSorted m config perPoolReadiness
      ((eligible.filter fun p => !decide (p.poolAddress ∈ used)).filter fun p =>
        !decide (p.dex ∈ usedDexes))
    match candidates.head? with
    | none => pools
    | some third =>
        pools ++ [selectedPool mint third (poolReadiness third perPoolReadiness) .multiDex
          perPoolReadiness]

/-- Two pools, with a third one where it may be added, by address. -/
def pairBundle (mint : TrackMintInput) (buyPool sellPool : TrackPoolInput)
    (defaultReadiness : TrackPoolReadiness) (reason : ArbTrackActiveReason)
    (priority : TrackPoolReadiness) (eligible : List TrackPoolInput) : MintBundle where
  mint := mint.mint
  priority := priority
  lastActivityUnixMs := mint.lastActivityUnixMs
  pools := (maybeAddThirdPool m config perPoolReadiness mint
    [selectedPool mint buyPool defaultReadiness reason perPoolReadiness,
      selectedPool mint sellPool defaultReadiness reason perPoolReadiness] eligible).insertionSort
    fun a b => a.pool ≤ b.pool

/-- `bundle_from_trade_signal`. -/
def bundleFromTradeSignal (mint : TrackMintInput) (buy sell : String)
    (eligible : List TrackPoolInput) : Option MintBundle := do
  let buyPool ← eligible.find? fun p => decide (p.poolAddress = buy)
  let sellPool ← eligible.find? fun p => decide (p.poolAddress = sell)
  if buyPool.dex = sellPool.dex then none
  else some (pairBundle m config perPoolReadiness mint buyPool sellPool .executable .tradeSignal
    .executable eligible)

/-- `RoundTripPoolCandidate` of a pool. -/
def TrackPoolInput.candidate (pool : TrackPoolInput) : RoundTripPoolCandidate where
  pool := pool.quotePool
  vault := pool.vault
  dlmmBins := pool.dlmmBins
  dex := pool.dex

/-- `bundle_from_round_trip`. -/
def bundleFromRoundTrip (mint : TrackMintInput) (eligible : List TrackPoolInput) :
    Option MintBundle := do
  let selection ← m.selectRoundTripPools config.probeLamports config.freshness
    (eligible.map (·.candidate))
  let buyPool ← eligible.find? fun p => decide (p.poolAddress = selection.buyPoolAddress)
  let sellPool ← eligible.find? fun p => decide (p.poolAddress = selection.sellPoolAddress)
  some (pairBundle m config perPoolReadiness mint buyPool sellPool .quoteReady .multiDex
    .quoteReady eligible)

/-- The best pair so far, with its priority. -/
abbrev BestPair := Option (TrackPoolInput × TrackPoolInput × TrackPoolReadiness)

/-- The inner loop's body. -/
def considerPinable (a : TrackPoolInput) (best : BestPair) (b : TrackPoolInput) : BestPair :=
  if a.dex = b.dex then best
  else
    let bundlePriority := min (poolReadiness a perPoolReadiness) (poolReadiness b perPoolReadiness)
    let replace :=
      match best with
      | none => true
      | some (bestA, bestB, currentPriority) =>
          if bundlePriority ≠ currentPriority then decide (currentPriority < bundlePriority)
          else decide (max bestA.lastActivityUnixMs bestB.lastActivityUnixMs <
            max a.lastActivityUnixMs b.lastActivityUnixMs)
    if replace then some (a, b, bundlePriority) else best

/-- The two loops: every pool with every later one. -/
def bestPinablePair (best : BestPair) : List TrackPoolInput → BestPair
  | [] => best
  | a :: rest => bestPinablePair (rest.foldl (considerPinable perPoolReadiness a) best) rest

/-- `bundle_from_pinable_pair`. -/
def bundleFromPinablePair (mint : TrackMintInput) (eligible : List TrackPoolInput) :
    Option MintBundle := do
  let (buyPool, sellPool, bundlePriority) ←
    bestPinablePair perPoolReadiness none (pinSorted m config perPoolReadiness eligible)
  some (pairBundle m config perPoolReadiness mint buyPool sellPool .quoteReady .multiDex
    bundlePriority eligible)

/-- The pools of a mint that are not rejected. -/
def eligiblePools (mint : TrackMintInput) : List TrackPoolInput :=
  mint.pools.filter fun p => !decide (poolReadiness p perPoolReadiness = .rejected)

/-- `build_mint_bundle`. -/
def buildMintBundle (mint : TrackMintInput) : Option MintBundle :=
  let eligible := eligiblePools perPoolReadiness mint
  if (eligible.map (·.dex)).toFinset.card < 2 then none
  else
    ((mint.tradeSignalPools.bind fun (buy, sell) =>
        bundleFromTradeSignal m config perPoolReadiness mint buy sell eligible).or
      (bundleFromRoundTrip m config perPoolReadiness mint eligible)).or
      (bundleFromPinablePair m config perPoolReadiness mint eligible)

end Build

/-! ## 4. The round trip of a bundle -/

namespace RoundTripRequest

variable {W T : Type} {R : RoundTripRequest W T}

/-- A round of this search is a round of the one that keeps count. -/
theorem tryTrip_eq (h : R.orcaByPoolAddress = ∅) (buy : BuyCandidate) (s : PairSearch)
    (c : RoundTripPoolCandidate) :
    R.market.tryTrip R.probeLamports R.freshness R.tokenDecimals buy
        (s.bestPair, s.bestRoundTripProfit) c =
      ((R.consider buy s c).bestPair, (R.consider buy s c).bestRoundTripProfit) := by
  have horca : ∀ a, R.orcaFor a = .outside := fun a => by
    unfold orcaFor
    rw [h]
    rfl
  unfold Market.tryTrip Market.sellLeg consider
  simp only [horca]
  split_ifs with hdex hbins hticks
  · rfl
  · rfl
  · rfl
  · cases c.vault with
    | none => rfl
    | some vault =>
        dsimp only
        cases R.market.quoteSellExactInWithCap c.pool vault c.dlmmBins .outside
            buy.quote.amountOut with
        | none =>
            dsimp only
            rw [PairSearch.failNone_bestPair, PairSearch.failNone_profit]
        | some quote =>
            dsimp only
            cases R.market.diagnoseQuoteNotFresh quote R.freshness (some vault) c.dlmmBins
                .outside with
            | some diagnosis => rfl
            | none =>
                dsimp only
                by_cases hkind : Market.quotesPairable buy.quote quote = true
                · rw [if_neg (not_not_intro hkind), if_neg (not_not_intro hkind)]
                  by_cases hprice : R.market.solPerTokenFromSellQuote quote R.tokenDecimals ≤ 0
                  · rw [if_pos hprice, if_pos hprice]
                    rfl
                  · rw [if_neg hprice, if_neg hprice]
                    have hprofit : Market.tripProfit R.probeLamports (buy, ⟨c, quote⟩) =
                        R.roundTripProfit quote := rfl
                    dsimp only
                    rw [hprofit]
                    unfold PairSearch.offer
                    by_cases hbetter : s.bestRoundTripProfit < R.roundTripProfit quote
                    · rw [if_pos hbetter, if_pos hbetter]
                    · rw [if_neg hbetter, if_neg hbetter]
                · rw [if_pos hkind, if_pos hkind]

/-- The search itself, from any variables. -/
theorem foldl_tryTrip_eq (h : R.orcaByPoolAddress = ∅) (buys : List BuyCandidate)
    (pairing : List RoundTripPoolCandidate) (s : PairSearch) :
    buys.foldl (fun best buy => pairing.foldl
        (R.market.tryTrip R.probeLamports R.freshness R.tokenDecimals buy) best)
        (s.bestPair, s.bestRoundTripProfit) =
      ((buys.foldl (fun s buy => pairing.foldl (R.consider buy) s) s).bestPair,
        (buys.foldl (fun s buy => pairing.foldl (R.consider buy) s) s).bestRoundTripProfit) := by
  have hinner : ∀ (buy : BuyCandidate) (pairing : List RoundTripPoolCandidate) (s : PairSearch),
      pairing.foldl (R.market.tryTrip R.probeLamports R.freshness R.tokenDecimals buy)
          (s.bestPair, s.bestRoundTripProfit) =
        ((pairing.foldl (R.consider buy) s).bestPair,
          (pairing.foldl (R.consider buy) s).bestRoundTripProfit) := by
    intro buy pairing
    induction pairing with
    | nil => exact fun s => rfl
    | cons c pairing ih =>
        intro s
        rw [List.foldl_cons, List.foldl_cons, tryTrip_eq h]
        exact ih (R.consider buy s c)
  induction buys generalizing s with
  | nil => rfl
  | cons buy buys ih =>
      rw [List.foldl_cons, List.foldl_cons, hinner]
      exact ih _

/-- **Without an Orca context the choice is the one of `RoundTripRequest.select`.** -/
theorem selectRoundTripPools_eq (h : R.orcaByPoolAddress = ∅) :
    R.market.selectRoundTripPools R.probeLamports R.freshness R.candidates =
      R.select.toOption := by
  have horca : ∀ a, R.orcaFor a = .outside := fun a => by
    unfold orcaFor
    rw [h]
    rfl
  have hcomplete : R.market.inputsComplete = R.complete := by
    funext c
    unfold Market.inputsComplete complete
    rw [horca]
  have hbuy : R.market.buyLeg R.probeLamports R.freshness R.tokenDecimals = R.validBuy := by
    funext c
    unfold Market.buyLeg validBuy buyQuote
    rw [horca] <;> rfl
  have hsearch := congrArg Prod.fst
    (foldl_tryTrip_eq h R.validBuys R.pairingCandidates PairSearch.start)
  have hbest : (R.validBuys.foldl (fun best buy => R.pairingCandidates.foldl
      (R.market.tryTrip R.probeLamports R.freshness R.tokenDecimals buy) best)
      (none, i64Min)).1 = R.search.bestPair := hsearch
  have hdecimals : (R.candidates.head?.map (·.pool.tokenDecimals)).getD 6 = R.tokenDecimals := rfl
  have hpairs : R.candidates.filter R.complete = R.pairingCandidates := rfl
  have hvalid : R.pairingCandidates.filterMap R.validBuy = R.validBuys := rfl
  unfold Market.selectRoundTripPools
  dsimp only
  rw [hdecimals, hcomplete, hpairs, hbuy, hvalid]
  rw [hbest]
  unfold select
  by_cases hpairing : R.pairingCandidates.length < 2
  · rw [if_pos hpairing, if_pos hpairing]
    split
    · rfl
    · rfl
  · rw [if_neg hpairing, if_neg hpairing]
    by_cases hbuys : R.validBuys.isEmpty = true
    · rw [if_pos hbuys, if_pos hbuys]
      rfl
    · rw [if_neg hbuys, if_neg hbuys]
      by_cases hcard : (R.pairingCandidates.map (·.dex)).toFinset.card < 2
      · rw [if_pos hcard, if_pos hcard]
        rfl
      · rw [if_neg hcard, if_neg hcard]
        cases R.search.bestPair with
        | none =>
            dsimp only
            split
            · rfl
            · rfl
        | some pair => rfl

end RoundTripRequest

namespace Market

variable {W T : Type} (m : Market W T) (probeLamports : UInt64) (freshness : QuoteFreshnessConfig)

/-- The pairs the search tries, in its order. -/
def trips (tokenDecimals : UInt8) (pairing : List RoundTripPoolCandidate) :
    List (BuyCandidate × SellCandidate) :=
  (pairing.filterMap (m.buyLeg probeLamports freshness tokenDecimals)).flatMap fun buy =>
    pairing.filterMap fun c => (m.sellLeg freshness tokenDecimals buy c).map (buy, ·)

/-- A pair the search may end with: no other has a greater profit. -/
structure BestTrip (candidates : List RoundTripPoolCandidate)
    (pair : BuyCandidate × SellCandidate) : Prop where
  mem : pair ∈ m.trips probeLamports freshness
    ((candidates.head?.map (·.pool.tokenDecimals)).getD 6) (candidates.filter m.inputsComplete)
  floor : i64Min < tripProfit probeLamports pair
  greatest : ∀ pair' ∈ m.trips probeLamports freshness
    ((candidates.head?.map (·.pool.tokenDecimals)).getD 6) (candidates.filter m.inputsComplete),
    tripProfit probeLamports pair' ≤ tripProfit probeLamports pair

variable {m probeLamports freshness} {tokenDecimals : UInt8}
  {pairing candidates : List RoundTripPoolCandidate} {pair : BuyCandidate × SellCandidate}

theorem of_buyLeg {c : RoundTripPoolCandidate} {buy : BuyCandidate}
    (h : m.buyLeg probeLamports freshness tokenDecimals c = some buy) : buy.candidate = c := by
  unfold buyLeg at h
  split at h
  · cases h
  · split at h
    · cases h
    · split at h
      · cases h
      · cases h
        rfl

theorem of_sellLeg {buy : BuyCandidate} {c : RoundTripPoolCandidate} {sell : SellCandidate}
    (h : m.sellLeg freshness tokenDecimals buy c = some sell) :
    sell.candidate = c ∧ c.dex ≠ buy.candidate.dex := by
  unfold sellLeg at h
  split at h
  · cases h
  · next hdex =>
      split at h
      · cases h
      · split at h
        · cases h
        · split at h
          · cases h
          · split at h
            · cases h
            · split at h
              · cases h
              · split at h
                · cases h
                · split at h
                  · cases h
                  · cases h
                    exact ⟨rfl, hdex⟩

/-- **A trip** buys on one candidate and sells on another one. -/
theorem mem_trips : pair ∈ m.trips probeLamports freshness tokenDecimals pairing ↔
    ∃ c ∈ pairing, m.buyLeg probeLamports freshness tokenDecimals c = some pair.1 ∧
      ∃ c' ∈ pairing, m.sellLeg freshness tokenDecimals pair.1 c' = some pair.2 := by
  unfold trips
  simp only [List.mem_flatMap, List.mem_filterMap, Option.map_eq_some_iff]
  constructor
  · rintro ⟨buy, ⟨c, hc, hbuy⟩, c', hc', sell, hsell, rfl⟩
    exact ⟨c, hc, hbuy, c', hc', hsell⟩
  · rintro ⟨c, hc, hbuy, c', hc', hsell⟩
    exact ⟨pair.1, ⟨c, hc, hbuy⟩, c', hc', pair.2, hsell, rfl⟩

/-- The candidates of a trip. -/
theorem candidates_of_mem_trips
    (h : pair ∈ m.trips probeLamports freshness tokenDecimals pairing) :
    pair.1.candidate ∈ pairing ∧ pair.2.candidate ∈ pairing ∧
      pair.2.candidate.dex ≠ pair.1.candidate.dex := by
  obtain ⟨c, hc, hbuy, c', hc', hsell⟩ := mem_trips.mp h
  obtain ⟨hcandidate, hdex⟩ := of_sellLeg hsell
  exact ⟨of_buyLeg hbuy ▸ hc, hcandidate ▸ hc', hcandidate ▸ hdex⟩

/-- The search offers its trips one after the other. -/
theorem foldl_tryTrip (buys : List BuyCandidate)
    (best : Option (BuyCandidate × SellCandidate) × Int) :
    buys.foldl (fun best buy => pairing.foldl
        (m.tryTrip probeLamports freshness tokenDecimals buy) best) best =
      (buys.flatMap fun buy => pairing.filterMap fun c =>
        (m.sellLeg freshness tokenDecimals buy c).map (buy, ·)).foldl
        (Champion.offer (tripProfit probeLamports)) best := by
  rw [List.foldl_flatMap]
  congr 1
  funext best buy
  rw [List.foldl_filterMap]
  congr 1
  funext best c
  unfold tryTrip
  cases m.sellLeg freshness tokenDecimals buy c with
  | none => rfl
  | some sell => rfl

variable (m probeLamports freshness) in
/-- **What the choice ends with**: nothing, where there is no best trip, or one of them. -/
theorem selectRoundTripPools_cases (candidates : List RoundTripPoolCandidate) :
    (m.selectRoundTripPools probeLamports freshness candidates = none ∧
      ∀ pair, ¬ m.BestTrip probeLamports freshness candidates pair) ∨
    ∃ pair, m.BestTrip probeLamports freshness candidates pair ∧
      m.selectRoundTripPools probeLamports freshness candidates = some (selectionOf pair) := by
  have hfold := Champion.foldl_offer (tripProfit probeLamports) i64Min
    (m.trips probeLamports freshness ((candidates.head?.map (·.pool.tokenDecimals)).getD 6)
      (candidates.filter m.inputsComplete))
  unfold trips at hfold
  rw [← foldl_tryTrip] at hfold
  rcases hfold with ⟨heq, hle⟩ | ⟨pair, hmem, heq, hfloor, hle⟩
  · left
    refine ⟨?_, fun pair hbest => absurd (hle pair hbest.mem) (not_le.mpr hbest.floor)⟩
    unfold selectRoundTripPools
    dsimp only
    rw [heq]
    split
    · rfl
    · split
      · rfl
      · split
        · rfl
        · rfl
  · right
    refine ⟨pair, ⟨hmem, hfloor, hle⟩, ?_⟩
    obtain ⟨hbuy, hsell, hdex⟩ := candidates_of_mem_trips hmem
    obtain ⟨c, hc, hleg, _⟩ := mem_trips.mp hmem
    have hbuys := List.mem_filterMap.mpr ⟨c, hc, hleg⟩
    unfold selectRoundTripPools
    dsimp only
    rw [heq, if_neg (Nat.not_lt_of_le (RoundTripRequest.two_le_length hsell hbuy hdex)),
      if_neg fun hempty => List.ne_nil_of_mem hbuys (List.isEmpty_iff.mp hempty),
      if_neg (Nat.not_lt_of_le (RoundTripRequest.two_le_card.mpr ⟨_, hsell, _, hbuy, hdex⟩))]
    rfl

end Market

/-! ## 5. What a bundle is made of -/

/-- **Two or three pools of a mint, each on a DEX of its own.** -/
def TrackMintInput.Paired (mint : TrackMintInput) (addresses : List String) : Prop :=
  ∃ chosen : List TrackPoolInput, chosen ⊆ mint.pools ∧ (chosen.map (·.dex)).Nodup ∧
    2 ≤ chosen.length ∧ chosen.length ≤ 3 ∧ addresses.Perm (chosen.map (·.poolAddress))

section Paired

variable {mint : TrackMintInput} {addresses : List String}

theorem TrackMintInput.Paired.length (h : mint.Paired addresses) :
    2 ≤ addresses.length ∧ addresses.length ≤ 3 := by
  obtain ⟨chosen, -, -, htwo, hthree, hperm⟩ := h
  rw [hperm.length_eq, List.length_map]
  exact ⟨htwo, hthree⟩

theorem TrackMintInput.Paired.subset (h : mint.Paired addresses) :
    addresses ⊆ mint.pools.map (·.poolAddress) := by
  obtain ⟨chosen, hsub, -, -, -, hperm⟩ := h
  intro a ha
  obtain ⟨p, hp, rfl⟩ := List.mem_map.mp (hperm.mem_iff.mp ha)
  exact List.mem_map_of_mem (hsub hp)

/-- They are two or three different pools. -/
theorem TrackMintInput.Paired.nodup (h : mint.Paired addresses) : addresses.Nodup := by
  obtain ⟨chosen, hsub, hdex, -, -, hperm⟩ := h
  rw [hperm.nodup_iff]
  exact hdex.of_map.map_on fun p hp q hq heq =>
    List.inj_on_of_nodup_map mint.nodup (hsub hp) (hsub hq) heq

end Paired

/-- **What a bundle is made of**: pools of its mint that pair. -/
structure MintBundle.Of (b : MintBundle) (input : TrackMintInput) : Prop where
  mint : b.mint = input.mint
  tagged : ∀ s ∈ b.pools, s.mint = input.mint
  paired : input.Paired (b.pools.map (·.pool))

section Bundles

variable {W T : Type} {m : Market W T} {config : TrackSelectionConfig}
  {perPoolReadiness : PerPoolReadiness} {mint : TrackMintInput} {eligible : List TrackPoolInput}

theorem of_mem_pinSorted {pools : List TrackPoolInput} {p : TrackPoolInput}
    (h : p ∈ pinSorted m config perPoolReadiness pools) : p ∈ pools :=
  (List.mem_filter.mp ((List.mem_insertionSort _).mp h)).1

variable (m config perPoolReadiness mint) in
/-- **A third pool is of a third DEX.** -/
theorem maybeAddThirdPool_cases (hnodup : (eligible.map (·.poolAddress)).Nodup)
    (pools : List SelectedTrackPool) :
    maybeAddThirdPool m config perPoolReadiness mint pools eligible = pools ∨
    ∃ third ∈ eligible,
      (∀ p ∈ eligible, p.poolAddress ∈ pools.map (·.pool) → third.dex ≠ p.dex) ∧
      maybeAddThirdPool m config perPoolReadiness mint pools eligible =
        pools ++ [selectedPool mint third (poolReadiness third perPoolReadiness) .multiDex
          perPoolReadiness] := by
  unfold maybeAddThirdPool
  split
  · exact .inl rfl
  · dsimp only
    split
    · exact .inl rfl
    · next third hhead =>
        right
        have hthird := of_mem_pinSorted (List.mem_of_mem_head? hhead)
        obtain ⟨hfresh, hdex⟩ := List.mem_filter.mp hthird
        refine ⟨third, (List.mem_filter.mp hfresh).1, ?_, rfl⟩
        intro p hp hused heq
        obtain ⟨sp, hsp, haddress⟩ := List.mem_map.mp hused
        have hfind : (eligible.find? fun q => decide (q.poolAddress = sp.pool)) = some p :=
          (Keyed.find?_eq_some_iff hnodup).mpr ⟨hp, haddress.symm⟩
        have hin : third.dex ∈ pools.filterMap fun sp =>
            (eligible.find? fun q => decide (q.poolAddress = sp.pool)).map (·.dex) :=
          List.mem_filterMap.mpr ⟨sp, hsp, by rw [hfind, heq]; rfl⟩
        rw [decide_eq_true hin] at hdex
        exact absurd hdex Bool.false_ne_true

/-- **Two pools on two DEXes make a bundle.** -/
theorem pairBundle_of (hel : eligible.Sublist mint.pools) {buyPool sellPool : TrackPoolInput}
    (hbuy : buyPool ∈ eligible) (hsell : sellPool ∈ eligible) (hdex : buyPool.dex ≠ sellPool.dex)
    (defaultReadiness : TrackPoolReadiness) (reason : ArbTrackActiveReason)
    (priority : TrackPoolReadiness) :
    (pairBundle m config perPoolReadiness mint buyPool sellPool defaultReadiness reason priority
      eligible).Of mint := by
  have hnodup : (eligible.map (·.poolAddress)).Nodup := mint.nodup.sublist (hel.map _)
  have hperm := List.perm_insertionSort (fun a b : SelectedTrackPool => a.pool ≤ b.pool)
    (maybeAddThirdPool m config perPoolReadiness mint
      [selectedPool mint buyPool defaultReadiness reason perPoolReadiness,
        selectedPool mint sellPool defaultReadiness reason perPoolReadiness] eligible)
  rcases maybeAddThirdPool_cases m config perPoolReadiness mint hnodup
      [selectedPool mint buyPool defaultReadiness reason perPoolReadiness,
        selectedPool mint sellPool defaultReadiness reason perPoolReadiness] with
    heq | ⟨third, hthird, hnew, heq⟩
  · rw [heq] at hperm
    refine ⟨rfl, ?_, [buyPool, sellPool], ?_, ?_, le_rfl, Nat.le_succ 2, ?_⟩
    · intro s hs
      unfold pairBundle at hs
      rw [heq] at hs
      rcases List.mem_pair.mp (hperm.mem_iff.mp hs) with rfl | rfl
      · rfl
      · rfl
    · intro p hp
      rcases List.mem_pair.mp hp with rfl | rfl
      · exact hel.subset hbuy
      · exact hel.subset hsell
    · simpa using hdex
    · unfold pairBundle
      rw [heq]
      exact hperm.map (·.pool)
  · rw [heq] at hperm
    have hthirdBuy : third.dex ≠ buyPool.dex := hnew buyPool hbuy List.mem_cons_self
    have hthirdSell : third.dex ≠ sellPool.dex :=
      hnew sellPool hsell (List.mem_cons_of_mem _ List.mem_cons_self)
    refine ⟨rfl, ?_, [buyPool, sellPool, third], ?_, ?_, Nat.le_succ 2, le_rfl, ?_⟩
    · intro s hs
      unfold pairBundle at hs
      rw [heq] at hs
      have hs := hperm.mem_iff.mp hs
      rw [List.mem_append, List.mem_pair, List.mem_singleton] at hs
      rcases hs with (rfl | rfl) | rfl
      · rfl
      · rfl
      · rfl
    · intro p hp
      rw [List.mem_cons, List.mem_pair] at hp
      rcases hp with rfl | rfl | rfl
      · exact hel.subset hbuy
      · exact hel.subset hsell
      · exact hel.subset hthird
    · simp [hdex, hthirdBuy.symm, hthirdSell.symm]
    · unfold pairBundle
      rw [heq]
      exact hperm.map (·.pool)

variable {b : MintBundle}

theorem of_bundleFromTradeSignal (hel : eligible.Sublist mint.pools) {buy sell : String}
    (h : bundleFromTradeSignal m config perPoolReadiness mint buy sell eligible = some b) :
    b.Of mint := by
  unfold bundleFromTradeSignal at h
  obtain ⟨buyPool, hbuy, h⟩ := Option.bind_eq_some_iff.mp h
  obtain ⟨sellPool, hsell, h⟩ := Option.bind_eq_some_iff.mp h
  split at h
  · cases h
  · next hdex =>
      cases h
      exact pairBundle_of hel (List.mem_of_find?_eq_some hbuy) (List.mem_of_find?_eq_some hsell)
        hdex _ _ _

/-- The pool found for a candidate's address is the candidate's. -/
theorem find?_candidate (hnodup : (eligible.map (·.poolAddress)).Nodup)
    {c : RoundTripPoolCandidate} (hc : c ∈ eligible.map (·.candidate)) :
    ∃ p ∈ eligible, p.candidate = c ∧
      eligible.find? (fun q => decide (q.poolAddress = c.pool.poolAddress)) = some p := by
  obtain ⟨p, hp, rfl⟩ := List.mem_map.mp hc
  exact ⟨p, hp, rfl, (Keyed.find?_eq_some_iff hnodup).mpr ⟨hp, p.addressed.symm⟩⟩

theorem of_bundleFromRoundTrip (hel : eligible.Sublist mint.pools)
    (h : bundleFromRoundTrip m config perPoolReadiness mint eligible = some b) : b.Of mint := by
  have hnodup : (eligible.map (·.poolAddress)).Nodup := mint.nodup.sublist (hel.map _)
  unfold bundleFromRoundTrip at h
  obtain ⟨selection, hselect, h⟩ := Option.bind_eq_some_iff.mp h
  rcases Market.selectRoundTripPools_cases m config.probeLamports config.freshness
      (eligible.map (·.candidate)) with
    ⟨hnone, -⟩ | ⟨pair, hbest, hsome⟩
  · rw [hnone] at hselect
    cases hselect
  · rw [hsome] at hselect
    cases hselect
    obtain ⟨hbuy, hsell, hdex⟩ := Market.candidates_of_mem_trips hbest.mem
    obtain ⟨buyPool, hbuyPool, hbuyEq, hfindBuy⟩ :=
      find?_candidate hnodup (List.mem_filter.mp hbuy).1
    obtain ⟨sellPool, hsellPool, hsellEq, hfindSell⟩ :=
      find?_candidate hnodup (List.mem_filter.mp hsell).1
    have hne : buyPool.dex ≠ sellPool.dex := by
      rw [← hbuyEq, ← hsellEq] at hdex
      exact hdex.symm
    rw [Option.bind_eq_bind] at h
    unfold Market.selectionOf at h
    dsimp only at h
    rw [hfindBuy, Option.bind_some] at h
    rw [hfindSell] at h
    cases h
    exact pairBundle_of hel hbuyPool hsellPool hne _ _ _

/-- The pair kept is of pools of the list, on two DEXes. -/
def PairIn (pools : List TrackPoolInput) (best : BestPair) : Prop :=
  ∀ a b r, best = some (a, b, r) → a ∈ pools ∧ b ∈ pools ∧ a.dex ≠ b.dex

theorem considerPinable_pairIn {pools : List TrackPoolInput} {best : BestPair}
    (hbest : PairIn pools best) {a b : TrackPoolInput} (ha : a ∈ pools) (hb : b ∈ pools) :
    PairIn pools (considerPinable perPoolReadiness a best b) := by
  unfold considerPinable
  split
  · exact hbest
  · next hdex =>
      have hnew : PairIn pools (some (a, b,
          min (poolReadiness a perPoolReadiness) (poolReadiness b perPoolReadiness))) := by
        intro a' b' r heq
        cases heq
        exact ⟨ha, hb, hdex⟩
      dsimp only
      split_ifs
      · exact hnew
      · exact hbest

theorem bestPinablePair_pairIn {pools : List TrackPoolInput} {best : BestPair}
    (hbest : PairIn pools best) (l : List TrackPoolInput) (hl : l ⊆ pools) :
    PairIn pools (bestPinablePair perPoolReadiness best l) := by
  induction l generalizing best with
  | nil => exact hbest
  | cons a rest ih =>
      obtain ⟨ha, hrest⟩ := List.cons_subset.mp hl
      unfold bestPinablePair
      refine ih ?_ hrest
      have hinner : ∀ (rest : List TrackPoolInput) (best : BestPair), rest ⊆ pools →
          PairIn pools best →
          PairIn pools (rest.foldl (considerPinable perPoolReadiness a) best) := by
        intro rest
        induction rest with
        | nil => exact fun best _ hbest => hbest
        | cons b rest ih =>
            intro best hrest hbest
            obtain ⟨hb, hrest⟩ := List.cons_subset.mp hrest
            exact ih _ hrest (considerPinable_pairIn hbest ha hb)
      exact hinner rest best hrest hbest

theorem of_bundleFromPinablePair (hel : eligible.Sublist mint.pools)
    (h : bundleFromPinablePair m config perPoolReadiness mint eligible = some b) : b.Of mint := by
  unfold bundleFromPinablePair at h
  obtain ⟨⟨buyPool, sellPool, priority⟩, hpair, h⟩ := Option.bind_eq_some_iff.mp h
  have hstart : PairIn eligible none := fun a b r hnone => by cases hnone
  obtain ⟨hbuy, hsell, hdex⟩ := bestPinablePair_pairIn hstart _
    (fun p hp => of_mem_pinSorted hp) buyPool sellPool priority hpair
  cases h
  exact pairBundle_of hel hbuy hsell hdex _ _ _

variable (perPoolReadiness mint) in
theorem eligiblePools_sublist : (eligiblePools perPoolReadiness mint).Sublist mint.pools :=
  List.filter_sublist

/-- **Whichever constructor builds a bundle, its pools pair.** -/
theorem of_buildMintBundle (h : buildMintBundle m config perPoolReadiness mint = some b) :
    b.Of mint := by
  have hel := eligiblePools_sublist perPoolReadiness mint
  unfold buildMintBundle at h
  dsimp only at h
  split at h
  · cases h
  · rw [Option.or_eq_some_iff, Option.or_eq_some_iff] at h
    rcases h with (h | ⟨-, h⟩) | ⟨-, h⟩
    · obtain ⟨⟨buy, sell⟩, -, h⟩ := Option.bind_eq_some_iff.mp h
      exact of_bundleFromTradeSignal hel h
    · exact of_bundleFromRoundTrip hel h
    · exact of_bundleFromPinablePair hel h

end Bundles

/-! ## 6. The pools of a mint in another order -/

/-- The same mint, its pools in another order. -/
structure TrackMintInput.Reordered (a b : TrackMintInput) : Prop where
  mint : a.mint = b.mint
  pools : a.pools.Perm b.pools
  signal : a.tradeSignalPools = b.tradeSignalPools
  activity : a.lastActivityUnixMs = b.lastActivityUnixMs

theorem TrackMintInput.Reordered.refl (a : TrackMintInput) : a.Reordered a :=
  ⟨rfl, .refl _, rfl, rfl⟩

/-- **No tie**: the best trips of some pools buy on one pool and sell on one pool. -/
def Untied {W T : Type} (m : Market W T) (config : TrackSelectionConfig)
    (eligible : List TrackPoolInput) : Prop :=
  ∀ pair pair',
    m.BestTrip config.probeLamports config.freshness (eligible.map (·.candidate)) pair →
    m.BestTrip config.probeLamports config.freshness (eligible.map (·.candidate)) pair' →
    pair.1.candidate.pool.poolAddress = pair'.1.candidate.pool.poolAddress ∧
      pair.2.candidate.pool.poolAddress = pair'.2.candidate.pool.poolAddress

section Order

variable {W T : Type} {m : Market W T} {config : TrackSelectionConfig}
  {perPoolReadiness : PerPoolReadiness} {mint mint' : TrackMintInput}
  {l l' : List TrackPoolInput}

theorem pinRank_injOn (hnodup : (l.map (·.poolAddress)).Nodup) (a : TrackPoolInput) (ha : a ∈ l)
    (b : TrackPoolInput) (hb : b ∈ l)
    (h : pinRank perPoolReadiness a = pinRank perPoolReadiness b) : a = b := by
  have hrest := congrArg (fun r => (ofLex (ofLex r).2).2) h
  exact List.inj_on_of_nodup_map hnodup ha hb hrest

variable (m config perPoolReadiness) in
theorem pinSorted_perm (hnodup : (l.map (·.poolAddress)).Nodup) (h : l.Perm l') :
    pinSorted m config perPoolReadiness l = pinSorted m config perPoolReadiness l' := by
  unfold pinSorted
  exact Keyed.insertionSort_perm_eq
    (pinRank_injOn (hnodup.sublist (List.filter_sublist.map _))) (h.filter _)

theorem maybeAddThirdPool_perm (hmint : mint.mint = mint'.mint)
    (hnodup : (l.map (·.poolAddress)).Nodup) (h : l.Perm l') (pools : List SelectedTrackPool) :
    maybeAddThirdPool m config perPoolReadiness mint pools l =
      maybeAddThirdPool m config perPoolReadiness mint' pools l' := by
  unfold maybeAddThirdPool
  simp only [Keyed.find?_perm hnodup h]
  have hsorted := fun p q => pinSorted_perm m config perPoolReadiness
    (hnodup.sublist ((List.filter_sublist.trans List.filter_sublist).map _))
    ((h.filter p).filter q)
  rw [hsorted]
  have hselected : ∀ third r reason,
      selectedPool mint third r reason perPoolReadiness =
        selectedPool mint' third r reason perPoolReadiness := by
    intro third r reason
    unfold selectedPool
    rw [hmint]
  simp only [hselected]

theorem pairBundle_perm (hmint : mint.Reordered mint') (hnodup : (l.map (·.poolAddress)).Nodup)
    (h : l.Perm l') (buyPool sellPool : TrackPoolInput) (defaultReadiness : TrackPoolReadiness)
    (reason : ArbTrackActiveReason) (priority : TrackPoolReadiness) :
    pairBundle m config perPoolReadiness mint buyPool sellPool defaultReadiness reason priority l =
      pairBundle m config perPoolReadiness mint' buyPool sellPool defaultReadiness reason priority
        l' := by
  unfold pairBundle
  rw [maybeAddThirdPool_perm hmint.mint hnodup h]
  unfold selectedPool
  rw [hmint.mint, hmint.activity]

theorem bundleFromTradeSignal_perm (hmint : mint.Reordered mint')
    (hnodup : (l.map (·.poolAddress)).Nodup) (h : l.Perm l') (buy sell : String) :
    bundleFromTradeSignal m config perPoolReadiness mint buy sell l =
      bundleFromTradeSignal m config perPoolReadiness mint' buy sell l' := by
  unfold bundleFromTradeSignal
  rw [Keyed.find?_perm hnodup h, Keyed.find?_perm hnodup h]
  simp only [pairBundle_perm hmint hnodup h]

theorem bundleFromPinablePair_perm (hmint : mint.Reordered mint')
    (hnodup : (l.map (·.poolAddress)).Nodup) (h : l.Perm l') :
    bundleFromPinablePair m config perPoolReadiness mint l =
      bundleFromPinablePair m config perPoolReadiness mint' l' := by
  unfold bundleFromPinablePair
  rw [pinSorted_perm m config perPoolReadiness hnodup h]
  simp only [pairBundle_perm hmint hnodup h]

/-- The best trips do not depend on the order of pools of one number of decimals. -/
theorem bestTrip_perm
    (hdecimals : ∀ p ∈ l, ∀ q ∈ l, p.quotePool.tokenDecimals = q.quotePool.tokenDecimals)
    (h : l.Perm l') {pair : BuyCandidate × SellCandidate}
    (hbest : m.BestTrip config.probeLamports config.freshness (l.map (·.candidate)) pair) :
    m.BestTrip config.probeLamports config.freshness (l'.map (·.candidate)) pair := by
  have hhead : (((l.map (·.candidate)).head?.map (·.pool.tokenDecimals)).getD 6) =
      (((l'.map (·.candidate)).head?.map (·.pool.tokenDecimals)).getD 6) := by
    cases l with
    | nil => rw [List.nil_perm.mp h]
    | cons p l =>
        cases l' with
        | nil => exact absurd (List.perm_nil.mp h) (List.cons_ne_nil _ _)
        | cons q l' =>
            exact hdecimals p List.mem_cons_self q (h.mem_iff.mpr List.mem_cons_self)
  have hmem : ∀ c, c ∈ (l.map (·.candidate)).filter m.inputsComplete ↔
      c ∈ (l'.map (·.candidate)).filter m.inputsComplete :=
    fun c => ((h.map _).filter _).mem_iff
  have htrips : ∀ tokenDecimals pair,
      pair ∈ m.trips config.probeLamports config.freshness tokenDecimals
          ((l.map (·.candidate)).filter m.inputsComplete) ↔
        pair ∈ m.trips config.probeLamports config.freshness tokenDecimals
          ((l'.map (·.candidate)).filter m.inputsComplete) := by
    intro tokenDecimals pair
    simp only [Market.mem_trips, hmem]
  refine ⟨?_, hbest.floor, fun pair' hpair' => hbest.greatest pair' ?_⟩
  · rw [← hhead]
    exact (htrips _ _).mp hbest.mem
  · rw [← hhead] at hpair'
    exact (htrips _ _).mpr hpair'

theorem bundleFromRoundTrip_perm (hmint : mint.Reordered mint')
    (hnodup : (l.map (·.poolAddress)).Nodup)
    (hdecimals : ∀ p ∈ l, ∀ q ∈ l, p.quotePool.tokenDecimals = q.quotePool.tokenDecimals)
    (h : l.Perm l') (huntied : Untied m config l) :
    bundleFromRoundTrip m config perPoolReadiness mint l =
      bundleFromRoundTrip m config perPoolReadiness mint' l' := by
  have hdecimals' : ∀ p ∈ l', ∀ q ∈ l',
      p.quotePool.tokenDecimals = q.quotePool.tokenDecimals :=
    fun p hp q hq => hdecimals p (h.mem_iff.mpr hp) q (h.mem_iff.mpr hq)
  unfold bundleFromRoundTrip
  rcases Market.selectRoundTripPools_cases m config.probeLamports config.freshness
      (l.map (·.candidate)) with
    ⟨hnone, hno⟩ | ⟨pair, hbest, hsome⟩
  · rcases Market.selectRoundTripPools_cases m config.probeLamports config.freshness
        (l'.map (·.candidate)) with
      ⟨hnone', -⟩ | ⟨pair', hbest', -⟩
    · rw [hnone, hnone']
      rfl
    · exact absurd (bestTrip_perm hdecimals' h.symm hbest') (hno pair')
  · rcases Market.selectRoundTripPools_cases m config.probeLamports config.freshness
        (l'.map (·.candidate)) with
      ⟨-, hno'⟩ | ⟨pair', hbest', hsome'⟩
    · exact absurd (bestTrip_perm hdecimals h hbest) (hno' pair)
    · obtain ⟨hbuy, hsell⟩ := huntied pair pair' hbest (bestTrip_perm hdecimals' h.symm hbest')
      rw [hsome, hsome']
      unfold Market.selectionOf
      simp only [Option.bind_eq_bind, Option.bind_some, hbuy, hsell, Keyed.find?_perm hnodup h,
        pairBundle_perm hmint hnodup h]

/-- **The bundle of a mint does not depend on the order of its pools**, where there is no tie. -/
theorem buildMintBundle_reordered (h : mint.Reordered mint')
    (huntied : Untied m config (eligiblePools perPoolReadiness mint)) :
    buildMintBundle m config perPoolReadiness mint =
      buildMintBundle m config perPoolReadiness mint' := by
  have hperm : (eligiblePools perPoolReadiness mint).Perm (eligiblePools perPoolReadiness mint') :=
    h.pools.filter _
  have hel := eligiblePools_sublist perPoolReadiness mint
  have hnodup : ((eligiblePools perPoolReadiness mint).map (·.poolAddress)).Nodup :=
    mint.nodup.sublist (hel.map _)
  have hdecimals := fun p (hp : p ∈ eligiblePools perPoolReadiness mint) q
      (hq : q ∈ eligiblePools perPoolReadiness mint) =>
    mint.decimals p (hel.subset hp) q (hel.subset hq)
  unfold buildMintBundle
  dsimp only
  rw [bundleFromRoundTrip_perm h hnodup hdecimals hperm huntied,
    bundleFromPinablePair_perm h hnodup hperm, List.toFinset_eq_of_perm _ _ (hperm.map _),
    h.signal]
  simp only [bundleFromTradeSignal_perm h hnodup hperm]

end Order

end IronCrab.Arbitrage

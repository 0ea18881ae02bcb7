/-
  File:      IronCrab/Arbitrage/PoolRanker.lean
  Subject:   RANKING THE POOLS OF A TOKEN (src/arbitrage/pool_ranker.rs and the ranked pools of
             src/arbitrage/types.rs): edge ratios from probe quotes, and the greatest ratio seen per
             token, which the search prunes by.

  Reading of the source's data:

  * an `f64` is a value of any `Floating` format: every operation is rounded as the format rounds,
    and a power is the format's own; no NaN and no infinity arises, since the probe amount and the
    liquidity baseline (10 000 000 and 100 000) are not zero;
  * the quote provider is any pair of answers, and the answers do not change while a token is
    ranked; the counter of missing quotes is left out;
  * a stable sort is `insertionSort`.

  Main results:

  * `mem_rankPoolsFrom` -- the neighbours of a token with the ranked pools to each;
  * `lookup_updateMaxEdgeRatios`, `Settled.update` -- what ranking a token leaves in the table;
  * `Settled.maxEdgeRatioFor` -- a settled table bounds by the greatest ratio, or by the default,
    which is no smaller.
-/
import IronCrab.Arbitrage.PoolGraph
import IronCrab.Lib.Floating
import IronCrab.Lib.Keyed

namespace IronCrab.Arbitrage.CycleFinder

open Track (Pubkey)

/-! ## 1. Ranked pools -/

section Definitions

variable {F : Type} [Floating F]

/-- `MIN_EDGE_RATIO`. -/
def minEdgeRatio : F := Floating.lit (1 / 100)

/-- `MAX_EDGE_RATIO`. -/
def maxEdgeRatio : F := Floating.lit (105 / 100)

/-- `clamp_edge_ratio`. -/
def clampEdgeRatio (edgeRatio : F) : F := Floating.clamp minEdgeRatio maxEdgeRatio edgeRatio

omit [Floating F] in
/-- `RankedPool`. -/
structure RankedPool (F : Type) where
  edge : PoolEdge F
  edgeRatio : F
  liquidityScore : F
  deriving DecidableEq

/-- `RankedPool::combined_score`. -/
def RankedPool.combinedScore (pool : RankedPool F) : F :=
  Floating.mul (clampEdgeRatio pool.edgeRatio) pool.liquidityScore

/-- `QuoteProvider`: the two questions the ranker asks. -/
structure QuoteProvider where
  isPoolQuoteReady : Pubkey → Bool
  getCachedProbeQuote : Pubkey → DexType → Pubkey → Pubkey → UInt64 → Option UInt64

/-- `RankerConfig`. -/
structure RankerConfig (F : Type) [Floating F] where
  probeAmount : UInt64
  liquidityBaselineUsd : F
  minLiquidityScore : F
  maxLiquidityScore : F
  -- `f64::clamp` panics on bounds in the wrong order
  scores : minLiquidityScore ≤ maxLiquidityScore

/-- `PoolRanker` without its table of ratios. -/
structure PoolRanker (F : Type) [Floating F] where
  config : RankerConfig F
  quoteProvider : QuoteProvider

namespace PoolRanker

variable (R : PoolRanker F) (g : PoolGraph F)

/-- `rank_single_pool`. -/
def rankSinglePool (edge : PoolEdge F) (inputMint outputMint : Pubkey) : Option (RankedPool F) :=
  match R.quoteProvider.getCachedProbeQuote edge.poolAddress edge.dex inputMint outputMint
      R.config.probeAmount with
  | none => none
  | some quoteOut =>
      some {
        edge
        edgeRatio :=
          Floating.div (Floating.ofNat quoteOut.toNat) (Floating.ofNat R.config.probeAmount.toNat)
        liquidityScore :=
          Floating.clamp R.config.minLiquidityScore R.config.maxLiquidityScore
            (Floating.div edge.liquidityUsd R.config.liquidityBaselineUsd) }

/-- The inner loop of `rank_pools_from`: the pools to one neighbour that are ready and quoted. -/
def quotedPools (inputMint outputMint : Pubkey) (pools : List (PoolEdge F)) : List (RankedPool F) :=
  pools.filterMap fun edge =>
    if R.quoteProvider.isPoolQuoteReady edge.poolAddress then
      R.rankSinglePool edge inputMint outputMint
    else none

omit R in
/-- Sorting by combined score, highest first. -/
def sortByScore (pools : List (RankedPool F)) : List (RankedPool F) :=
  pools.insertionSort fun a b => b.combinedScore ≤ a.combinedScore

omit R in
/-- The score of the best pool to a neighbour. -/
def bestScore (entry : Pubkey × List (RankedPool F)) : F :=
  (entry.2.head?.map (·.combinedScore)).getD (Floating.lit 0)

/-- `rank_pools_from`: the neighbours with their ranked pools, best first. -/
def rankPoolsFrom (inputMint : Pubkey) : List (Pubkey × List (RankedPool F)) :=
  let results := (g.neighbors inputMint).filterMap fun e =>
    let rankedPools := sortByScore (R.quotedPools inputMint e.1 e.2)
    if rankedPools.isEmpty then none else some (e.1, rankedPools)
  results.insertionSort fun a b => bestScore b ≤ bestScore a

/-- The updates `rank_pools_from` collects for the table of ratios. -/
def maxEdgeUpdates (inputMint : Pubkey) : List F :=
  (g.neighbors inputMint).flatMap fun e =>
    (R.quotedPools inputMint e.1 e.2).map fun ranked => clampEdgeRatio ranked.edgeRatio

/-- `hop_has_cached_quote`. -/
def hopHasCachedQuote (poolAddress : Pubkey) (dex : DexType) (inputMint outputMint : Pubkey) :
    Bool :=
  (R.quoteProvider.getCachedProbeQuote poolAddress dex inputMint outputMint
    R.config.probeAmount).isSome

end PoolRanker

omit [Floating F] in
/-- `max_edge_ratio`: the table of the greatest ratio per token. -/
abbrev MaxEdgeRatios (F : Type) := Finmap fun _ : Pubkey => F

/-- One update of `update_max_edge_ratios`. -/
def updateMaxEdgeRatio (token : Pubkey) (table : MaxEdgeRatios F) (ratio : F) : MaxEdgeRatios F :=
  let entry := (table.lookup token).getD (Floating.lit 0)
  table.insert token (if entry < ratio then ratio else entry)

/-- `update_max_edge_ratios`, for the updates of one token. -/
def updateMaxEdgeRatios (token : Pubkey) (table : MaxEdgeRatios F) (updates : List F) :
    MaxEdgeRatios F :=
  updates.foldl (updateMaxEdgeRatio token) table

/-- `max_edge_ratio_for`: optimistic without data. -/
def maxEdgeRatioFor (table : MaxEdgeRatios F) (token : Pubkey) : F :=
  (table.lookup token).getD (Floating.lit (3 / 2))

/-- `compute_upper_bound`. -/
def computeUpperBound (table : MaxEdgeRatios F) (currentProfit : F) (currentToken : Pubkey)
    (remainingHops : Nat) : F :=
  Floating.mul currentProfit (Floating.powi (maxEdgeRatioFor table currentToken) remainingHops)

end Definitions

/-! ## 2. Edge ratios -/

section Ratios

variable {F : Type} [Floating F]

theorem minEdgeRatio_le_maxEdgeRatio : (minEdgeRatio : F) ≤ maxEdgeRatio :=
  Floating.lit_mono (by norm_num)

theorem zero_le_clampEdgeRatio (ratio : F) : Floating.lit 0 ≤ clampEdgeRatio ratio :=
  (Floating.lit_mono (by norm_num)).trans (Floating.le_clamp minEdgeRatio_le_maxEdgeRatio)

theorem clampEdgeRatio_le (ratio : F) : clampEdgeRatio ratio ≤ Floating.lit (3 / 2) :=
  (Floating.clamp_le minEdgeRatio_le_maxEdgeRatio).trans (Floating.lit_mono (by norm_num))

end Ratios

/-! ## 3. The neighbours of a token -/

section Neighbours

variable {F : Type} [Floating F]

namespace PoolRanker

variable (R : PoolRanker F) (g : PoolGraph F)

/-- **The ranked pools from one token to another**, best first. -/
def ranked (inputMint outputMint : Pubkey) : List (RankedPool F) :=
  sortByScore (R.quotedPools inputMint outputMint
    (sortByLiquidity (g.poolsBetween inputMint outputMint)))

variable {R g} {a b : Pubkey}

theorem perm_sortByScore (pools : List (RankedPool F)) : (sortByScore pools).Perm pools :=
  List.perm_insertionSort _ _

/-- What `neighbors` lists: the pools of a pair, sorted. -/
theorem mem_neighbors {pools : List (PoolEdge F)} (h : (b, pools) ∈ g.neighbors a) :
    pools = sortByLiquidity (g.poolsBetween a b) := by
  unfold PoolGraph.neighbors at h
  cases hadj : g.adj.lookup a with
  | none =>
      rw [hadj] at h
      cases h
  | some neighbors =>
      rw [hadj] at h
      obtain ⟨e, hmem, heq⟩ := List.mem_map.mp h
      obtain ⟨rfl, rfl⟩ := Prod.mk.inj heq
      have hlook : neighbors.lookup e.1 = some e.2 := AList.mem_lookup_iff.mpr hmem
      unfold PoolGraph.poolsBetween listed
      rw [hadj, Option.bind_some, hlook]
      rfl

/-- The tokens that `neighbors` lists are distinct. -/
theorem nodup_neighbors (g : PoolGraph F) (a : Pubkey) : ((g.neighbors a).map Prod.fst).Nodup := by
  unfold PoolGraph.neighbors
  cases hadj : g.adj.lookup a with
  | none => exact List.nodup_nil
  | some neighbors =>
      have hkeys : (neighbors.entries.map fun e => (e.1, sortByLiquidity e.2)).map Prod.fst =
          neighbors.keys := by
        rw [List.map_map]
        rfl
      rw [hkeys]
      exact neighbors.keys_nodup

/-- A pair with pools is listed by `neighbors`. -/
theorem neighbors_of_pools (h : g.poolsBetween a b ≠ []) :
    (b, sortByLiquidity (g.poolsBetween a b)) ∈ g.neighbors a := by
  unfold PoolGraph.poolsBetween listed at h ⊢
  unfold PoolGraph.neighbors
  cases hadj : g.adj.lookup a with
  | none =>
      rw [hadj] at h
      exact absurd rfl h
  | some neighbors =>
      rw [hadj] at h
      rw [Option.bind_some] at h ⊢
      cases hlook : neighbors.lookup b with
      | none =>
          rw [hlook] at h
          exact absurd rfl h
      | some pools =>
          exact List.mem_map.mpr ⟨⟨b, pools⟩, AList.mem_lookup_iff.mp hlook, rfl⟩

theorem ranked_ne_nil (h : R.ranked g a b ≠ []) : g.poolsBetween a b ≠ [] := by
  intro hnil
  unfold ranked at h
  rw [hnil] at h
  exact h rfl

/-- **What `rank_pools_from` lists**: a neighbour with all its ranked pools, if it has any. -/
theorem mem_rankPoolsFrom {l : List (RankedPool F)} :
    (b, l) ∈ R.rankPoolsFrom g a ↔ l = R.ranked g a b ∧ l ≠ [] := by
  unfold rankPoolsFrom
  dsimp only
  rw [List.mem_insertionSort, List.mem_filterMap]
  constructor
  · intro h
    obtain ⟨⟨b', pools⟩, hmem, heq⟩ := h
    dsimp only at heq
    by_cases hempty : (sortByScore (R.quotedPools a b' pools)).isEmpty = true
    · rw [if_pos hempty] at heq
      cases heq
    · rw [if_neg hempty] at heq
      obtain ⟨rfl, rfl⟩ := Prod.mk.inj (Option.some.inj heq)
      refine ⟨?_, fun hnil => hempty (by rw [hnil]; rfl)⟩
      rw [mem_neighbors hmem]
      rfl
  · intro h
    obtain ⟨rfl, hne⟩ := h
    refine ⟨(b, _), neighbors_of_pools (ranked_ne_nil hne), ?_⟩
    have hempty : ¬ (R.ranked g a b).isEmpty = true := fun h => hne (List.isEmpty_iff.mp h)
    exact if_neg hempty

/-- The tokens that `rank_pools_from` lists are distinct. -/
theorem nodup_rankPoolsFrom (R : PoolRanker F) (g : PoolGraph F) (a : Pubkey) :
    ((R.rankPoolsFrom g a).map Prod.fst).Nodup := by
  unfold rankPoolsFrom
  dsimp only
  refine ((List.perm_insertionSort _ _).map Prod.fst).nodup_iff.mpr ?_
  refine (nodup_neighbors g a).sublist (Keyed.sublist_map_filterMap fun e _ entry he => ?_)
  split at he
  · cases he
  · rw [← Option.some.inj he]

/-- A ranked pool has the quote it was ranked by. -/
theorem hopHasCachedQuote_of_ranked {pool : RankedPool F} (h : pool ∈ R.ranked g a b) :
    R.hopHasCachedQuote pool.edge.poolAddress pool.edge.dex a b = true := by
  have hquoted := (perm_sortByScore _).mem_iff.mp h
  obtain ⟨edge, _, heq⟩ := List.mem_filterMap.mp hquoted
  by_cases hready : R.quoteProvider.isPoolQuoteReady edge.poolAddress = true
  · rw [if_pos hready] at heq
    unfold rankSinglePool at heq
    cases hquote : R.quoteProvider.getCachedProbeQuote edge.poolAddress edge.dex a b
        R.config.probeAmount with
    | none =>
        rw [hquote] at heq
        cases heq
    | some quoteOut =>
        rw [hquote] at heq
        obtain rfl := Option.some.inj heq
        exact Option.isSome_iff_exists.mpr ⟨quoteOut, hquote⟩
  · rw [if_neg hready] at heq
    cases heq

/-- The updates of a token are the clamped ratios of its ranked pools. -/
theorem mem_maxEdgeUpdates {ratio : F} :
    ratio ∈ R.maxEdgeUpdates g a ↔
      ∃ b, ∃ pool ∈ R.ranked g a b, ratio = clampEdgeRatio pool.edgeRatio := by
  unfold maxEdgeUpdates
  rw [List.mem_flatMap]
  constructor
  · intro h
    obtain ⟨⟨b, pools⟩, hmem, hratio⟩ := h
    obtain ⟨pool, hpool, rfl⟩ := List.mem_map.mp hratio
    refine ⟨b, pool, (perm_sortByScore _).mem_iff.mpr ?_, rfl⟩
    rw [← mem_neighbors hmem]
    exact hpool
  · intro h
    obtain ⟨b, pool, hpool, rfl⟩ := h
    have hne : R.ranked g a b ≠ [] := List.ne_nil_of_mem hpool
    refine ⟨_, neighbors_of_pools (ranked_ne_nil hne), List.mem_map_of_mem ?_⟩
    exact (perm_sortByScore _).mem_iff.mp hpool

end PoolRanker

end Neighbours

/-! ## 4. The table of ratios -/

section Table

variable {F : Type} [Floating F] {R : PoolRanker F} {g : PoolGraph F}

/-- The greatest of some ratios, from the entry a table starts with. -/
def greatestRatio (entry : F) (updates : List F) : F := updates.foldl max entry

theorem le_greatestRatio (entry : F) (updates : List F) : entry ≤ greatestRatio entry updates := by
  induction updates generalizing entry with
  | nil => exact le_refl entry
  | cons ratio updates ih => exact (le_max_left entry ratio).trans (ih (max entry ratio))

theorem greatestRatio_le {entry bound : F} {updates : List F} (hentry : entry ≤ bound)
    (h : ∀ ratio ∈ updates, ratio ≤ bound) : greatestRatio entry updates ≤ bound := by
  induction updates generalizing entry with
  | nil => exact hentry
  | cons ratio updates ih =>
      refine ih (max_le hentry (h ratio List.mem_cons_self)) fun r hr => ?_
      exact h r (List.mem_cons_of_mem _ hr)

/-- The greatest ratio stays once it is reached. -/
theorem greatestRatio_again (entry : F) (updates : List F) :
    greatestRatio (greatestRatio entry updates) updates = greatestRatio entry updates := by
  refine le_antisymm (greatestRatio_le (le_refl _) fun ratio hratio => ?_) (le_greatestRatio _ _)
  induction updates generalizing entry with
  | nil => cases hratio
  | cons r updates ih =>
      rcases List.mem_cons.mp hratio with rfl | hratio
      · exact (le_max_right entry ratio).trans (le_greatestRatio _ _)
      · exact ih (max entry r) hratio

theorem updateMaxEdgeRatio_eq (token : Pubkey) (table : MaxEdgeRatios F) (ratio : F) :
    updateMaxEdgeRatio token table ratio =
      table.insert token (max ((table.lookup token).getD (Floating.lit 0)) ratio) := by
  unfold updateMaxEdgeRatio
  dsimp only
  congr 1
  rw [max_def]
  split
  · rw [if_pos (le_of_lt ‹_›)]
  · split
    · exact le_antisymm ‹_› (not_lt.mp ‹_›)
    · rfl

/-- **What updates leave in the table.** -/
theorem lookup_updateMaxEdgeRatios (token : Pubkey) (table : MaxEdgeRatios F) (updates : List F)
    (t : Pubkey) :
    (updateMaxEdgeRatios token table updates).lookup t =
      if t = token ∧ updates ≠ [] then
        some (greatestRatio ((table.lookup token).getD (Floating.lit 0)) updates)
      else table.lookup t := by
  induction updates generalizing table with
  | nil => simp [updateMaxEdgeRatios]
  | cons ratio updates ih =>
      have hfold : updateMaxEdgeRatios token table (ratio :: updates) =
          updateMaxEdgeRatios token (updateMaxEdgeRatio token table ratio) updates := rfl
      rw [hfold, ih, updateMaxEdgeRatio_eq, Finmap.lookup_insert, Option.getD_some]
      by_cases ht : t = token
      · subst ht
        rw [Finmap.lookup_insert]
        by_cases hnil : updates = []
        · subst hnil
          simp [greatestRatio]
        · simp [greatestRatio, hnil]
      · rw [if_neg fun h => ht h.1, if_neg fun h => ht h.1, Finmap.lookup_insert_of_ne _ ht]

variable (R g)

/-- **The greatest ratio out of a token.** -/
def maxRatio (t : Pubkey) : F := greatestRatio (Floating.lit 0) (R.maxEdgeUpdates g t)

/-- **A table that was filled from this graph and these quotes**: it lists tokens with a ranked
    pool, each with its greatest ratio. -/
def Settled (table : MaxEdgeRatios F) : Prop :=
  ∀ t ratio, table.lookup t = some ratio → ratio = maxRatio R g t

variable {R g}

theorem settled_empty : Settled R g (∅ : MaxEdgeRatios F) := by
  intro t ratio h
  rw [Finmap.lookup_empty] at h
  cases h

theorem zero_le_maxRatio (t : Pubkey) : Floating.lit 0 ≤ maxRatio R g t := le_greatestRatio _ _

theorem maxRatio_le (t : Pubkey) : maxRatio R g t ≤ Floating.lit (3 / 2) := by
  refine greatestRatio_le (Floating.lit_mono (by norm_num)) fun ratio hratio => ?_
  obtain ⟨_, pool, _, rfl⟩ := PoolRanker.mem_maxEdgeUpdates.mp hratio
  exact clampEdgeRatio_le pool.edgeRatio

variable {table : MaxEdgeRatios F}

/-- Ranking a token again gives the entry it had, or the greatest ratio. -/
theorem Settled.lookup_update (h : Settled R g table) (token t : Pubkey) :
    (updateMaxEdgeRatios token table (R.maxEdgeUpdates g token)).lookup t =
      if t = token ∧ R.maxEdgeUpdates g token ≠ [] then some (maxRatio R g t)
      else table.lookup t := by
  rw [lookup_updateMaxEdgeRatios]
  by_cases ht : t = token ∧ R.maxEdgeUpdates g token ≠ []
  · rw [if_pos ht, if_pos ht, ht.1]
    cases hlook : table.lookup token with
    | none => rfl
    | some ratio =>
        rw [Option.getD_some, h token ratio hlook]
        exact congrArg some (greatestRatio_again _ _)
  · rw [if_neg ht, if_neg ht]

/-- **Ranking a token keeps a table settled.** -/
theorem Settled.update (h : Settled R g table) (token : Pubkey) :
    Settled R g (updateMaxEdgeRatios token table (R.maxEdgeUpdates g token)) := by
  intro t ratio hlook
  rw [h.lookup_update] at hlook
  by_cases ht : t = token ∧ R.maxEdgeUpdates g token ≠ []
  · rw [if_pos ht] at hlook
    exact (Option.some.inj hlook).symm
  · rw [if_neg ht] at hlook
    exact h t ratio hlook

/-- **A settled table never bounds below the greatest ratio.** -/
theorem Settled.le_maxEdgeRatioFor (h : Settled R g table) (t : Pubkey) :
    maxRatio R g t ≤ maxEdgeRatioFor table t := by
  unfold maxEdgeRatioFor
  cases hlook : table.lookup t with
  | none => exact maxRatio_le t
  | some ratio => exact (h t ratio hlook).ge

/-- A listed token is bounded by its greatest ratio. -/
theorem Settled.maxEdgeRatioFor_of_mem (h : Settled R g table) {t : Pubkey}
    (hmem : (table.lookup t).isSome) : maxEdgeRatioFor table t = maxRatio R g t := by
  obtain ⟨ratio, hlook⟩ := Option.isSome_iff_exists.mp hmem
  unfold maxEdgeRatioFor
  rw [hlook, Option.getD_some]
  exact h t ratio hlook

end Table

end IronCrab.Arbitrage.CycleFinder

/-
  File:      IronCrab/Arbitrage/PoolGraph.lean
  Subject:   THE POOL GRAPH (src/arbitrage/pool_graph.rs): adjacency lists in both directions, and
             the reverse index from pools to mints.

  Reading of the source's data:

  * a liquidity is a value of any type `L` with a decidable `<`; nothing is assumed of the order
    (the results hold for whatever order the sort leaves values that do not compare in);
  * the maps that `refresh_stats_locked`, `neighbors` and `all_tokens` walk over are `AList`s
    (the list order is the hash order), the reverse index is read by key only;
  * the three locks are taken together, so an operation is one step.

  Main results:

  * `poolsBetween_addEdgeToAdj`, `poolsBetween_removePoolFromAdj` -- one direction, pair by pair;
  * `coherent_upsertOne`, `coherent_removePool` -- the contract of the two directions is kept;
  * **`adjacency_in_step`** -- what holds after every sequence of operations, and that the index
    lists exactly the listed pools when no pool is added to a full pair;
  * `evicted_pool_stays_indexed` -- the fourth pool of a pair.
-/
import IronCrab.Track.Ownership
import IronCrab.Lib.Table
import Mathlib.Data.List.Sort

namespace IronCrab.Arbitrage

open Track (Pubkey)
open Machine (Along foldSteps)

/-! ## 1. Edges -/

/-- `DexType`. -/
inductive DexType where
  | raydiumAmmV4
  | raydiumCpmm
  | orca
  | meteoraDlmm
  | meteoraCpmm
  | pumpSwapAmm
  deriving DecidableEq

/-- `PoolEdge`: a pool between two mints. -/
structure PoolEdge (L : Type) where
  poolAddress : Pubkey
  dex : DexType
  mintA : Pubkey
  mintB : Pubkey
  liquidityUsd : L
  feeBps : UInt16
  updatedAt : UInt64
  deriving DecidableEq

/-- `PoolEdge::new`: the mints in canonical order. -/
def PoolEdge.new {L : Type} (poolAddress : Pubkey) (dex : DexType) (mintA mintB : Pubkey)
    (liquidityUsd : L) (feeBps : UInt16) (nowMs : UInt64) : PoolEdge L :=
  if mintA < mintB then ⟨poolAddress, dex, mintA, mintB, liquidityUsd, feeBps, nowMs⟩
  else ⟨poolAddress, dex, mintB, mintA, liquidityUsd, feeBps, nowMs⟩

/-- Sorting by liquidity, highest first; pools that do not compare keep their order. -/
def sortByLiquidity {L : Type} [LT L] [DecidableLT L] (pools : List (PoolEdge L)) :
    List (PoolEdge L) :=
  pools.insertionSort fun p q => ¬ p.liquidityUsd < q.liquidityUsd

/-- `MAX_POOLS_PER_PAIR`. -/
def maxPoolsPerPair : Nat := 3

/-- What `add_edge_to_adj` does to the list of one direction: update the pool, or add it and keep
    the top of the list. -/
def addToPools {L : Type} [LT L] [DecidableLT L] (pools : List (PoolEdge L)) (edge : PoolEdge L) :
    List (PoolEdge L) :=
  match pools.findIdx? fun p => decide (p.poolAddress = edge.poolAddress) with
  | some idx => pools.set idx edge
  | none =>
      let pools := pools ++ [edge]
      if maxPoolsPerPair < pools.length then (sortByLiquidity pools).take maxPoolsPerPair
      else pools

/-! ## 2. The graph -/

/-- The neighbours of a token with the pools to each. -/
abbrev Neighbors (L : Type) := AList fun _ : Pubkey => List (PoolEdge L)

abbrev Adj (L : Type) := AList fun _ : Pubkey => Neighbors L

structure GraphStats where
  totalVertices : Nat
  totalEdges : Nat
  totalPools : Nat
  lastUpdateTs : UInt64

structure PoolGraph (L : Type) where
  adj : Adj L
  poolIndex : Finmap fun _ : Pubkey => Pubkey × Pubkey
  stats : GraphStats

section Definitions

variable {L : Type} [LT L] [DecidableLT L]

/-- `add_edge_to_adj`. -/
def addEdgeToAdj (adj : Adj L) (src dst : Pubkey) (edge : PoolEdge L) : Adj L :=
  let neighbors := (adj.lookup src).getD ∅
  let pools := (neighbors.lookup dst).getD []
  adj.insert src (neighbors.insert dst (addToPools pools edge))

omit [LT L] [DecidableLT L] in
/-- What one direction of `remove_pool_from_adj` does to the neighbours of a token: an emptied
    list goes. -/
def removeFromNeighbors (neighbors : Neighbors L) (poolAddress dst : Pubkey) : Neighbors L :=
  match neighbors.lookup dst with
  | none => neighbors
  | some pools =>
      let pools := pools.filter fun p => decide (p.poolAddress ≠ poolAddress)
      if pools.isEmpty then neighbors.erase dst else neighbors.insert dst pools

omit [LT L] [DecidableLT L] in
/-- One direction of `remove_pool_from_adj`: an emptied map goes as well. -/
def removeDirection (adj : Adj L) (poolAddress src dst : Pubkey) : Adj L :=
  match adj.lookup src with
  | none => adj
  | some neighbors =>
      let neighbors := removeFromNeighbors neighbors poolAddress dst
      if neighbors.entries.isEmpty then adj.erase src else adj.insert src neighbors

omit [LT L] [DecidableLT L] in
/-- `remove_pool_from_adj`. -/
def removePoolFromAdj (adj : Adj L) (poolAddress mintA mintB : Pubkey) : Adj L :=
  removeDirection (removeDirection adj poolAddress mintA mintB) poolAddress mintB mintA

omit [LT L] [DecidableLT L] in
/-- The pools listed under `src -> dst`. -/
def listed (adj : Adj L) (src dst : Pubkey) : List (PoolEdge L) :=
  ((adj.lookup src).bind fun neighbors => neighbors.lookup dst).getD []

namespace PoolGraph

omit [LT L] [DecidableLT L] in
/-- `PoolGraph::new`. -/
def new : PoolGraph L := ⟨∅, ∅, ⟨0, 0, 0, 0⟩⟩

omit [LT L] [DecidableLT L] in
/-- `refresh_stats_locked`; both directions are stored, so the counts are halved. -/
def refreshStats (g : PoolGraph L) (nowMs : UInt64) : PoolGraph L :=
  { g with
    stats := {
      totalVertices := g.adj.entries.length
      totalEdges := (g.adj.total fun neighbors => neighbors.entries.length) / 2
      totalPools := (g.adj.total fun neighbors => neighbors.total List.length) / 2
      lastUpdateTs := nowMs } }

omit [LT L] [DecidableLT L] in
/-- The adjacency without the old entry of a pool whose mints change. -/
def clearMoved (g : PoolGraph L) (edge : PoolEdge L) : Adj L :=
  match g.poolIndex.lookup edge.poolAddress with
  | some (oldMintA, oldMintB) =>
      if oldMintA ≠ edge.mintA ∨ oldMintB ≠ edge.mintB then
        removePoolFromAdj g.adj edge.poolAddress oldMintA oldMintB
      else g.adj
  | none => g.adj

/-- What `upsert_pool` and each round of `bulk_upsert` do before the stats. -/
def upsertOne (g : PoolGraph L) (edge : PoolEdge L) : PoolGraph L :=
  let adj := addEdgeToAdj (g.clearMoved edge) edge.mintA edge.mintB edge
  let adj := addEdgeToAdj adj edge.mintB edge.mintA edge
  { g with adj, poolIndex := g.poolIndex.insert edge.poolAddress (edge.mintA, edge.mintB) }

/-- `upsert_pool`. -/
def upsertPool (g : PoolGraph L) (edge : PoolEdge L) (nowMs : UInt64) : PoolGraph L :=
  (g.upsertOne edge).refreshStats nowMs

/-- `bulk_upsert`. -/
def bulkUpsert (g : PoolGraph L) (edges : List (PoolEdge L)) (nowMs : UInt64) : PoolGraph L :=
  (edges.foldl upsertOne g).refreshStats nowMs

omit [LT L] [DecidableLT L] in
/-- `remove_pool`. -/
def removePool (g : PoolGraph L) (poolAddress : Pubkey) (nowMs : UInt64) : PoolGraph L :=
  match g.poolIndex.lookup poolAddress with
  | none => g
  | some (mintA, mintB) =>
      { g with
        adj := removePoolFromAdj g.adj poolAddress mintA mintB
        poolIndex := g.poolIndex.erase poolAddress }.refreshStats nowMs

omit [LT L] [DecidableLT L] in
/-- `pools_between`. -/
def poolsBetween (g : PoolGraph L) (mintA mintB : Pubkey) : List (PoolEdge L) :=
  listed g.adj mintA mintB

omit [LT L] [DecidableLT L] in
/-- `has_token`. -/
def hasToken (g : PoolGraph L) (mint : Pubkey) : Bool := (g.adj.lookup mint).isSome

/-- `neighbors`: the pools to each neighbour, highest liquidity first. -/
def neighbors (g : PoolGraph L) (mint : Pubkey) : List (Pubkey × List (PoolEdge L)) :=
  match g.adj.lookup mint with
  | none => []
  | some neighbors => neighbors.entries.map fun e => (e.1, sortByLiquidity e.2)

end PoolGraph

end Definitions

/-! ## 3. One list -/

section Lists

variable {L : Type} [LT L] [DecidableLT L] {pools : List (PoolEdge L)} {edge f : PoolEdge L}

/-- The addresses of a list of pools. -/
def addresses {L : Type} (pools : List (PoolEdge L)) : List Pubkey := pools.map (·.poolAddress)

omit [LT L] [DecidableLT L] in
theorem findIdx?_none (h : edge.poolAddress ∉ addresses pools) :
    pools.findIdx? (fun p => decide (p.poolAddress = edge.poolAddress)) = none := by
  refine List.findIdx?_eq_none_iff.mpr fun p hp => decide_eq_false fun he => h ?_
  rw [← he]
  exact List.mem_map_of_mem hp

omit [LT L] [DecidableLT L] in
/-- Where a listed pool stands. -/
theorem findIdx?_some (h : edge.poolAddress ∈ addresses pools) :
    ∃ front old back, pools = front ++ old :: back ∧ old.poolAddress = edge.poolAddress ∧
      pools.findIdx? (fun p => decide (p.poolAddress = edge.poolAddress)) = some front.length := by
  induction pools with
  | nil => cases h
  | cons q rest ih =>
      by_cases hq : q.poolAddress = edge.poolAddress
      · exact ⟨[], q, rest, rfl, hq, by simp [List.findIdx?_cons, hq]⟩
      · have hrest : edge.poolAddress ∈ addresses rest :=
          (List.mem_cons.mp h).resolve_left (Ne.symm hq)
        obtain ⟨front, old, back, rfl, hold, hidx⟩ := ih hrest
        refine ⟨q :: front, old, back, rfl, hold, ?_⟩
        rw [List.findIdx?_cons, decide_eq_false hq, hidx]
        rfl

/-- **The two ways a list takes a pool**: in place of the old entry, or among the best. -/
theorem addToPools_cases (pools : List (PoolEdge L)) (edge : PoolEdge L) :
    (∃ front old back, pools = front ++ old :: back ∧ old.poolAddress = edge.poolAddress ∧
      addToPools pools edge = front ++ edge :: back) ∨
    (edge.poolAddress ∉ addresses pools ∧
      ((pools.length < maxPoolsPerPair ∧ addToPools pools edge = pools ++ [edge]) ∨
        (maxPoolsPerPair ≤ pools.length ∧ addToPools pools edge =
          (sortByLiquidity (pools ++ [edge])).take maxPoolsPerPair))) := by
  by_cases h : edge.poolAddress ∈ addresses pools
  · obtain ⟨front, old, back, hpools, hold, hidx⟩ := findIdx?_some h
    refine .inl ⟨front, old, back, hpools, hold, ?_⟩
    unfold addToPools
    rw [hidx]
    dsimp only
    rw [hpools, List.set_append_right _ _ (Nat.le_refl _), Nat.sub_self]
    rfl
  · refine .inr ⟨h, ?_⟩
    unfold addToPools
    rw [findIdx?_none h]
    dsimp only
    rw [List.length_append, List.length_singleton]
    by_cases hfull : maxPoolsPerPair < pools.length + 1
    · exact .inr ⟨Nat.lt_succ_iff.mp hfull, if_pos hfull⟩
    · exact .inl ⟨by omega, if_neg hfull⟩

theorem perm_sortByLiquidity (pools : List (PoolEdge L)) : (sortByLiquidity pools).Perm pools :=
  List.perm_insertionSort _ _

omit [LT L] [DecidableLT L] in
theorem nodup_concat (h : (addresses pools).Nodup) (hnew : edge.poolAddress ∉ addresses pools) :
    (addresses (pools ++ [edge])).Nodup := by
  unfold addresses at h hnew ⊢
  rw [List.map_append, List.map_singleton, List.nodup_append]
  refine ⟨h, List.nodup_singleton _, fun a ha b hb he => hnew ?_⟩
  rw [← List.mem_singleton.mp hb, ← he]
  exact ha

/-- No pool twice. -/
theorem nodup_addToPools (h : (addresses pools).Nodup) :
    (addresses (addToPools pools edge)).Nodup := by
  rcases addToPools_cases pools edge with ⟨front, old, back, rfl, hold, heq⟩ |
    ⟨hnew, ⟨_, heq⟩ | ⟨_, heq⟩⟩
  · have haddr : addresses (front ++ edge :: back) = addresses (front ++ old :: back) := by
      simp [addresses, hold]
    rw [heq, haddr]
    exact h
  · rw [heq]
    exact nodup_concat h hnew
  · have hperm : (addresses (sortByLiquidity (pools ++ [edge]))).Nodup :=
      ((perm_sortByLiquidity _).map _).nodup_iff.mpr (nodup_concat h hnew)
    rw [heq]
    exact hperm.sublist ((List.take_sublist _ _).map _)

/-- Never more than the cap. -/
theorem length_addToPools (h : pools.length ≤ maxPoolsPerPair) :
    (addToPools pools edge).length ≤ maxPoolsPerPair := by
  rcases addToPools_cases pools edge with ⟨front, old, back, rfl, _, heq⟩ |
    ⟨_, ⟨hlen, heq⟩ | ⟨_, heq⟩⟩
  · rw [heq]
    simpa using h
  · rw [heq, List.length_append, List.length_singleton]
    exact hlen
  · rw [heq]
    exact List.length_take_le _ _

theorem addToPools_ne_nil (pools : List (PoolEdge L)) (edge : PoolEdge L) :
    addToPools pools edge ≠ [] := by
  rcases addToPools_cases pools edge with ⟨front, old, back, _, _, heq⟩ |
    ⟨_, ⟨_, heq⟩ | ⟨hlen, heq⟩⟩
  · rw [heq]
    exact List.append_ne_nil_of_right_ne_nil _ (List.cons_ne_nil _ _)
  · rw [heq]
    exact List.append_ne_nil_of_right_ne_nil _ (List.cons_ne_nil _ _)
  · have hpos : 0 < (addToPools pools edge).length := by
      rw [heq, List.length_take, (perm_sortByLiquidity _).length_eq, List.length_append]
      have hcap : 0 < maxPoolsPerPair := by decide
      simp only [List.length_singleton]
      omega
    exact List.ne_nil_of_length_pos hpos

/-- What is listed afterwards: the pool itself, or another pool that was listed before. -/
theorem mem_addToPools (h : (addresses pools).Nodup) (hf : f ∈ addToPools pools edge) :
    f = edge ∨ (f ∈ pools ∧ f.poolAddress ≠ edge.poolAddress) := by
  have hold : edge.poolAddress ∉ addresses pools → f ∈ pools ++ [edge] →
      f = edge ∨ (f ∈ pools ∧ f.poolAddress ≠ edge.poolAddress) := by
    intro hnew hmem
    rcases List.mem_append.mp hmem with hmem | hmem
    · exact .inr ⟨hmem, fun he => hnew (he ▸ List.mem_map_of_mem hmem)⟩
    · exact .inl (List.mem_singleton.mp hmem)
  rcases addToPools_cases pools edge with ⟨front, old, back, rfl, haddr, heq⟩ |
    ⟨hnew, ⟨_, heq⟩ | ⟨_, heq⟩⟩
  · rw [heq] at hf
    unfold addresses at h
    rw [List.map_append, List.map_cons, List.nodup_append, List.nodup_cons] at h
    obtain ⟨_, ⟨hback, _⟩, hfront⟩ := h
    rcases List.mem_append.mp hf with hf | hf
    · refine .inr ⟨List.mem_append_left _ hf, fun he => ?_⟩
      exact hfront _ (List.mem_map_of_mem hf) _ List.mem_cons_self (he.trans haddr.symm)
    · rcases List.mem_cons.mp hf with rfl | hf
      · exact .inl rfl
      · refine .inr ⟨List.mem_append_right _ (List.mem_cons_of_mem _ hf), fun he => hback ?_⟩
        rw [haddr, ← he]
        exact List.mem_map_of_mem hf
  · rw [heq] at hf
    exact hold hnew hf
  · rw [heq] at hf
    exact hold hnew ((perm_sortByLiquidity _).mem_iff.mp (List.mem_of_mem_take hf))

/-- The pools of a list other than `address`. -/
def others {L : Type} (pools : List (PoolEdge L)) (address : Pubkey) : List (PoolEdge L) :=
  pools.filter fun p => decide (p.poolAddress ≠ address)

omit [LT L] [DecidableLT L] in
/-- Room for a pool: it is listed, or the list is not full. -/
theorem room_cases {address : Pubkey} (h : (others pools address).length < maxPoolsPerPair) :
    address ∈ addresses pools ∨ pools.length < maxPoolsPerPair := by
  by_cases hin : address ∈ addresses pools
  · exact .inl hin
  · have hall : others pools address = pools := by
      refine List.filter_eq_self.mpr fun p hp => decide_eq_true fun he => hin ?_
      rw [← he]
      exact List.mem_map_of_mem hp
    rw [hall] at h
    exact .inr h

/-- **With room for it a pool is added and nothing is lost.** -/
theorem subset_addToPools
    (h : edge.poolAddress ∈ addresses pools ∨ pools.length < maxPoolsPerPair) :
    addresses pools ⊆ addresses (addToPools pools edge) ∧
      edge.poolAddress ∈ addresses (addToPools pools edge) := by
  rcases addToPools_cases pools edge with ⟨front, old, back, rfl, haddr, heq⟩ |
    ⟨hnew, ⟨_, heq⟩ | ⟨hfull, _⟩⟩
  · have hsame : addresses (front ++ edge :: back) = addresses (front ++ old :: back) := by
      simp [addresses, haddr]
    rw [heq, hsame]
    refine ⟨List.Subset.refl _, ?_⟩
    rw [← haddr]
    exact List.mem_map_of_mem (List.mem_append_right _ List.mem_cons_self)
  · rw [heq]
    unfold addresses
    rw [List.map_append]
    exact ⟨List.subset_append_left _ _, List.mem_append_right _ (List.mem_singleton.mpr rfl)⟩
  · rcases h with hin | hlen
    · exact absurd hin hnew
    · omega

omit [LT L] [DecidableLT L] in
theorem mem_others {address : Pubkey} :
    f ∈ others pools address ↔ f ∈ pools ∧ f.poolAddress ≠ address := by
  simp [others]

omit [LT L] [DecidableLT L] in
theorem mem_addresses_others {address p : Pubkey} :
    p ∈ addresses (others pools address) ↔ p ∈ addresses pools ∧ p ≠ address := by
  unfold addresses
  simp only [List.mem_map, mem_others]
  constructor
  · rintro ⟨f, ⟨hf, hne⟩, rfl⟩
    exact ⟨⟨f, hf, rfl⟩, hne⟩
  · rintro ⟨⟨f, hf, rfl⟩, hne⟩
    exact ⟨f, ⟨hf, hne⟩, rfl⟩

end Lists

/-! ## 4. One direction -/

section Directions

variable {L : Type} [LT L] [DecidableLT L]

/-- No map and no list of the adjacency is empty. -/
def NoEmpty (adj : Adj L) : Prop :=
  ∀ src neighbors, adj.lookup src = some neighbors → neighbors.entries ≠ [] ∧
    ∀ dst pools, neighbors.lookup dst = some pools → pools ≠ []

/-- **Adding in one direction** changes the list of that direction. -/
theorem listed_addEdgeToAdj (adj : Adj L) (src dst : Pubkey) (edge : PoolEdge L)
    (a b : Pubkey) : listed (addEdgeToAdj adj src dst edge) a b =
      if a = src ∧ b = dst then addToPools (listed adj src dst) edge else listed adj a b := by
  unfold listed addEdgeToAdj
  dsimp only
  by_cases ha : a = src
  · subst ha
    rw [AList.lookup_insert, Option.bind_some]
    by_cases hb : b = dst
    · subst hb
      rw [AList.lookup_insert, if_pos ⟨rfl, rfl⟩]
      cases adj.lookup a <;> rfl
    · rw [AList.lookup_insert_ne hb, if_neg fun h => hb h.2]
      cases adj.lookup a <;> rfl
  · rw [AList.lookup_insert_ne ha, if_neg fun h => ha h.1]

theorem noEmpty_addEdgeToAdj {adj : Adj L} (h : NoEmpty adj) (src dst : Pubkey)
    (edge : PoolEdge L) : NoEmpty (addEdgeToAdj adj src dst edge) := by
  intro a neighbors ha
  unfold addEdgeToAdj at ha
  by_cases hsrc : a = src
  · subst hsrc
    rw [AList.lookup_insert] at ha
    cases ha
    refine ⟨fun hnil => ?_, fun b pools hb => ?_⟩
    · rw [AList.entries_insert] at hnil
      cases hnil
    · by_cases hdst : b = dst
      · subst hdst
        rw [AList.lookup_insert] at hb
        cases hb
        exact addToPools_ne_nil _ _
      · rw [AList.lookup_insert_ne hdst] at hb
        cases hl : adj.lookup a with
        | none =>
            rw [hl] at hb
            cases hb
        | some old =>
            rw [hl] at hb
            exact (h a old hl).2 b pools hb
  · rw [AList.lookup_insert_ne hsrc] at ha
    exact h a neighbors ha

omit [LT L] [DecidableLT L] in
theorem lookup_removeFromNeighbors (neighbors : Neighbors L) (address dst b : Pubkey) :
    ((removeFromNeighbors neighbors address dst).lookup b).getD [] =
      if b = dst then others ((neighbors.lookup dst).getD []) address
      else (neighbors.lookup b).getD [] := by
  unfold removeFromNeighbors
  cases hdst : neighbors.lookup dst with
  | none =>
      dsimp only
      by_cases hb : b = dst
      · rw [if_pos hb, hb, hdst]
        rfl
      · rw [if_neg hb]
  | some pools =>
      dsimp only
      by_cases hempty : (pools.filter fun p => decide (p.poolAddress ≠ address)).isEmpty = true
      · rw [if_pos hempty]
        by_cases hb : b = dst
        · rw [if_pos hb, hb, AList.lookup_erase]
          exact (List.isEmpty_iff.mp hempty).symm
        · rw [if_neg hb, AList.lookup_erase_ne hb]
      · rw [if_neg hempty]
        by_cases hb : b = dst
        · rw [if_pos hb, hb, AList.lookup_insert]
          rfl
        · rw [if_neg hb, AList.lookup_insert_ne hb]

omit [LT L] [DecidableLT L] in
/-- **Removing in one direction** filters the list of that direction. -/
theorem listed_removeDirection (adj : Adj L) (address src dst a b : Pubkey) :
    listed (removeDirection adj address src dst) a b =
      if a = src ∧ b = dst then others (listed adj src dst) address else listed adj a b := by
  unfold removeDirection
  cases hsrc : adj.lookup src with
  | none =>
      dsimp only
      split
      · next h =>
          obtain ⟨rfl, rfl⟩ := h
          unfold listed
          rw [hsrc]
          rfl
      · rfl
  | some neighbors =>
      dsimp only
      have hlookup := lookup_removeFromNeighbors neighbors address dst
      have hold : ∀ b, listed adj src b = (neighbors.lookup b).getD [] := by
        intro b
        unfold listed
        rw [hsrc]
        rfl
      by_cases ha : a = src
      · subst ha
        have hself : listed (if (removeFromNeighbors neighbors address dst).entries.isEmpty then
            adj.erase a else adj.insert a (removeFromNeighbors neighbors address dst)) a b =
            ((removeFromNeighbors neighbors address dst).lookup b).getD [] := by
          unfold listed
          by_cases hempty : (removeFromNeighbors neighbors address dst).entries.isEmpty = true
          · have hnil : removeFromNeighbors neighbors address dst = ∅ :=
              AList.ext (List.isEmpty_iff.mp hempty)
            rw [if_pos hempty, AList.lookup_erase, hnil]
            rfl
          · rw [if_neg hempty, AList.lookup_insert]
            rfl
        rw [hself, hlookup, hold, hold]
        simp
      · have hother : ¬ (a = src ∧ b = dst) := fun h => ha h.1
        rw [if_neg hother]
        unfold listed
        by_cases hempty : (removeFromNeighbors neighbors address dst).entries.isEmpty = true
        · rw [if_pos hempty, AList.lookup_erase_ne ha]
        · rw [if_neg hempty, AList.lookup_insert_ne ha]

omit [LT L] [DecidableLT L] in
theorem noEmpty_removeDirection {adj : Adj L} (h : NoEmpty adj) (address src dst : Pubkey) :
    NoEmpty (removeDirection adj address src dst) := by
  unfold removeDirection
  cases hsrc : adj.lookup src with
  | none => exact h
  | some old =>
      dsimp only
      intro a neighbors ha
      by_cases hempty : (removeFromNeighbors old address dst).entries.isEmpty = true
      · rw [if_pos hempty] at ha
        by_cases has : a = src
        · rw [has, AList.lookup_erase] at ha
          cases ha
        · rw [AList.lookup_erase_ne has] at ha
          exact h a neighbors ha
      · rw [if_neg hempty] at ha
        by_cases has : a = src
        · rw [has, AList.lookup_insert] at ha
          cases ha
          refine ⟨fun hnil => hempty (List.isEmpty_iff.mpr hnil), fun b pools hb => ?_⟩
          unfold removeFromNeighbors at hb
          cases hdst : old.lookup dst with
          | none =>
              rw [hdst] at hb
              exact (h src old hsrc).2 b pools hb
          | some pools' =>
              rw [hdst] at hb
              dsimp only at hb
              split at hb
              · by_cases hbd : b = dst
                · rw [hbd, AList.lookup_erase] at hb
                  cases hb
                · rw [AList.lookup_erase_ne hbd] at hb
                  exact (h src old hsrc).2 b pools hb
              · next hne =>
                  by_cases hbd : b = dst
                  · rw [hbd, AList.lookup_insert] at hb
                    cases hb
                    exact fun hnil => hne (List.isEmpty_iff.mpr hnil)
                  · rw [AList.lookup_insert_ne hbd] at hb
                    exact (h src old hsrc).2 b pools hb
        · rw [AList.lookup_insert_ne has] at ha
          exact h a neighbors ha

/-- The two are the ends of the pair. -/
def SamePair (a b mintA mintB : Pubkey) : Prop :=
  (a = mintA ∧ b = mintB) ∨ (a = mintB ∧ b = mintA)

instance (a b mintA mintB : Pubkey) : Decidable (SamePair a b mintA mintB) := by
  unfold SamePair
  infer_instance

omit [LT L] [DecidableLT L] in
theorem samePair_comm {a b : Pubkey} (mintA mintB : Pubkey) :
    SamePair a b mintA mintB ↔ SamePair b a mintA mintB := by
  unfold SamePair
  constructor <;> rintro (⟨h₁, h₂⟩ | ⟨h₁, h₂⟩) <;> simp [h₁, h₂]

omit [LT L] [DecidableLT L] in
/-- **Removing a pool** filters the lists of its pair, in both directions. -/
theorem listed_removePoolFromAdj (adj : Adj L) (address mintA mintB a b : Pubkey) :
    listed (removePoolFromAdj adj address mintA mintB) a b =
      if SamePair a b mintA mintB then others (listed adj a b) address else listed adj a b := by
  have htwice : ∀ pools : List (PoolEdge L),
      others (others pools address) address = others pools address := by
    intro pools
    unfold others
    rw [List.filter_filter]
    simp
  unfold removePoolFromAdj SamePair
  rw [listed_removeDirection, listed_removeDirection, listed_removeDirection]
  by_cases h₁ : a = mintA ∧ b = mintB <;> by_cases h₂ : a = mintB ∧ b = mintA
  · obtain ⟨rfl, rfl⟩ := h₁
    obtain ⟨rfl, _⟩ := h₂
    simp [htwice]
  · obtain ⟨rfl, rfl⟩ := h₁
    have hab : a ≠ b := fun h => h₂ ⟨h, h.symm⟩
    simp [hab, hab.symm]
  · obtain ⟨rfl, rfl⟩ := h₂
    have hab : a ≠ b := fun h => h₁ ⟨h, h.symm⟩
    simp [hab, hab.symm]
  · simp [h₁, h₂]

/-- **Adding in both directions**; a pool between a mint and itself is added twice. -/
theorem listed_addBoth (adj : Adj L) (mintA mintB : Pubkey) (edge : PoolEdge L)
    (a b : Pubkey) :
    listed (addEdgeToAdj (addEdgeToAdj adj mintA mintB edge) mintB mintA edge) a b =
      if SamePair a b mintA mintB then
        if mintA = mintB then addToPools (addToPools (listed adj a b) edge) edge
        else addToPools (listed adj a b) edge
      else listed adj a b := by
  unfold SamePair
  rw [listed_addEdgeToAdj, listed_addEdgeToAdj, listed_addEdgeToAdj]
  by_cases hsame : mintA = mintB
  · subst hsame
    by_cases h : a = mintA ∧ b = mintA
    · obtain ⟨rfl, rfl⟩ := h
      simp
    · simp [h]
  · by_cases h₁ : a = mintA ∧ b = mintB <;> by_cases h₂ : a = mintB ∧ b = mintA
    · exact absurd (h₁.1.symm.trans h₂.1) hsame
    · obtain ⟨rfl, rfl⟩ := h₁
      simp [hsame, Ne.symm hsame]
    · obtain ⟨rfl, rfl⟩ := h₂
      simp [hsame, Ne.symm hsame]
    · simp [h₁, h₂]

end Directions

/-! ## 5. The contract -/

namespace PoolGraph

variable {L : Type}

/-- **The contract of the two directions and the index.** -/
structure Coherent (g : PoolGraph L) : Prop where
  symmetric : ∀ a b, g.poolsBetween a b = g.poolsBetween b a
  nodup : ∀ a b, (addresses (g.poolsBetween a b)).Nodup
  cap : ∀ a b, (g.poolsBetween a b).length ≤ maxPoolsPerPair
  noEmpty : NoEmpty g.adj
  /-- A listed pool is a key of the index, with its mints, which are the pair it is listed under. -/
  recorded : ∀ a b, ∀ e ∈ g.poolsBetween a b,
    g.poolIndex.lookup e.poolAddress = some (e.mintA, e.mintB) ∧ SamePair a b e.mintA e.mintB

/-- Every key of the index is listed under the mints recorded there. -/
def IndexListed (g : PoolGraph L) : Prop :=
  ∀ p a b, g.poolIndex.lookup p = some (a, b) → p ∈ addresses (g.poolsBetween a b)

/-- No trace of a pool. -/
structure Gone (g : PoolGraph L) (poolAddress : Pubkey) : Prop where
  index : poolAddress ∉ g.poolIndex
  lists : ∀ a b, poolAddress ∉ addresses (g.poolsBetween a b)

/-- The pair of the pool lists fewer than the cap of other pools. -/
def Room (g : PoolGraph L) (edge : PoolEdge L) : Prop :=
  (others (g.poolsBetween edge.mintA edge.mintB) edge.poolAddress).length < maxPoolsPerPair

instance (g : PoolGraph L) (edge : PoolEdge L) : Decidable (g.Room edge) :=
  inferInstanceAs (Decidable (_ < _))

theorem coherent_new : Coherent (PoolGraph.new : PoolGraph L) where
  symmetric _ _ := rfl
  nodup _ _ := List.nodup_nil
  cap _ _ := Nat.zero_le _
  noEmpty _ _ h := nomatch h
  recorded _ _ _ h := absurd h List.not_mem_nil

/-- The list of a pair without the old entry of a moved pool. -/
theorem listed_clearMoved (g : PoolGraph L) (edge : PoolEdge L) (a b : Pubkey) :
    listed (g.clearMoved edge) a b = g.poolsBetween a b ∨
      listed (g.clearMoved edge) a b = others (g.poolsBetween a b) edge.poolAddress := by
  unfold clearMoved
  split
  · split
    · rw [listed_removePoolFromAdj]
      split
      · exact .inr rfl
      · exact .inl rfl
    · exact .inl rfl
  · exact .inl rfl

/-- After the clearing the pool is listed under its new pair only. -/
theorem mem_clearMoved {g : PoolGraph L} (h : g.Coherent) {edge f : PoolEdge L} {a b : Pubkey}
    (hf : f ∈ listed (g.clearMoved edge) a b) :
    f ∈ g.poolsBetween a b ∧
      (f.poolAddress = edge.poolAddress → SamePair a b edge.mintA edge.mintB) := by
  have hold : f ∈ g.poolsBetween a b := by
    rcases listed_clearMoved g edge a b with heq | heq
    · rw [← heq]
      exact hf
    · rw [heq] at hf
      exact (mem_others.mp hf).1
  refine ⟨hold, fun haddr => ?_⟩
  obtain ⟨hindex, hpair⟩ := h.recorded a b f hold
  rw [haddr] at hindex
  unfold clearMoved at hf
  rw [hindex] at hf
  dsimp only at hf
  by_cases hmoved : f.mintA ≠ edge.mintA ∨ f.mintB ≠ edge.mintB
  · rw [if_pos hmoved, listed_removePoolFromAdj, if_pos hpair] at hf
    exact absurd haddr (mem_others.mp hf).2
  · obtain ⟨hA, hB⟩ := not_or.mp hmoved
    rw [not_not.mp hA, not_not.mp hB] at hpair
    exact hpair

theorem symmetric_clearMoved {g : PoolGraph L} (h : g.Coherent) (edge : PoolEdge L)
    (a b : Pubkey) : listed (g.clearMoved edge) a b = listed (g.clearMoved edge) b a := by
  have hsymm : listed g.adj a b = listed g.adj b a := h.symmetric a b
  unfold clearMoved
  split
  · split
    · rw [listed_removePoolFromAdj, listed_removePoolFromAdj, hsymm]
      simp only [samePair_comm (a := a) (b := b)]
    · exact hsymm
  · exact hsymm

theorem nodup_clearMoved {g : PoolGraph L} (h : g.Coherent) (edge : PoolEdge L) (a b : Pubkey) :
    (addresses (listed (g.clearMoved edge) a b)).Nodup := by
  rcases listed_clearMoved g edge a b with heq | heq
  · rw [heq]
    exact h.nodup a b
  · rw [heq]
    exact (h.nodup a b).sublist (List.filter_sublist.map _)

theorem noEmpty_clearMoved {g : PoolGraph L} (h : g.Coherent) (edge : PoolEdge L) :
    NoEmpty (g.clearMoved edge) := by
  unfold clearMoved
  split
  · split
    · exact noEmpty_removeDirection (noEmpty_removeDirection h.noEmpty _ _ _) _ _ _
    · exact h.noEmpty
  · exact h.noEmpty

section Upsert

variable [LT L] [DecidableLT L]

/-- The list of a pair after an upsert, from the cleared lists. -/
theorem poolsBetween_upsertOne (g : PoolGraph L) (edge : PoolEdge L) (a b : Pubkey) :
    (g.upsertOne edge).poolsBetween a b =
      if SamePair a b edge.mintA edge.mintB then
        if edge.mintA = edge.mintB then
          addToPools (addToPools (listed (g.clearMoved edge) a b) edge) edge
        else addToPools (listed (g.clearMoved edge) a b) edge
      else listed (g.clearMoved edge) a b :=
  listed_addBoth _ edge.mintA edge.mintB edge a b

/-- What holds of every list that a pool is added to at most twice holds of the lists after an
    upsert. -/
theorem upsertOne_lists {g : PoolGraph L} (edge : PoolEdge L)
    {P : List (PoolEdge L) → Prop} (hadd : ∀ pools, P pools → P (addToPools pools edge))
    {a b : Pubkey} (hP : P (listed (g.clearMoved edge) a b)) :
    P ((g.upsertOne edge).poolsBetween a b) := by
  rw [poolsBetween_upsertOne g]
  split
  · split
    · exact hadd _ (hadd _ hP)
    · exact hadd _ hP
  · exact hP

/-- **An upsert keeps the contract.** -/
theorem coherent_upsertOne {g : PoolGraph L} (h : g.Coherent) (edge : PoolEdge L) :
    (g.upsertOne edge).Coherent where
  symmetric a b := by
    rw [poolsBetween_upsertOne, poolsBetween_upsertOne, symmetric_clearMoved h edge a b]
    simp only [samePair_comm (a := a) (b := b)]
  nodup a b := by
    have hP := nodup_clearMoved h edge a b
    exact upsertOne_lists (P := fun pools => (addresses pools).Nodup) edge
      (fun pools => nodup_addToPools) hP
  cap a b := by
    have hP : (listed (g.clearMoved edge) a b).length ≤ maxPoolsPerPair := by
      rcases listed_clearMoved g edge a b with heq | heq
      · rw [heq]
        exact h.cap a b
      · rw [heq]
        exact Nat.le_trans (List.length_filter_le _ _) (h.cap a b)
    exact upsertOne_lists (P := fun pools => pools.length ≤ maxPoolsPerPair) edge
      (fun pools => length_addToPools) hP
  noEmpty := noEmpty_addEdgeToAdj (noEmpty_addEdgeToAdj (noEmpty_clearMoved h edge) _ _ _) _ _ _
  recorded a b f hf := by
    -- a listed pool is the new one under its pair, or another one that was listed before
    have hfrom : (f = edge ∧ SamePair a b edge.mintA edge.mintB) ∨
        (f ∈ listed (g.clearMoved edge) a b ∧ f.poolAddress ≠ edge.poolAddress) := by
      rw [poolsBetween_upsertOne g] at hf
      have hnodup := nodup_clearMoved h edge a b
      split at hf
      · next hpair =>
          split at hf
          · rcases mem_addToPools (nodup_addToPools hnodup) hf with rfl | ⟨hf, hne⟩
            · exact .inl ⟨rfl, hpair⟩
            · rcases mem_addToPools hnodup hf with rfl | ⟨hf, _⟩
              · exact .inl ⟨rfl, hpair⟩
              · exact .inr ⟨hf, hne⟩
          · rcases mem_addToPools hnodup hf with rfl | ⟨hf, hne⟩
            · exact .inl ⟨rfl, hpair⟩
            · exact .inr ⟨hf, hne⟩
      · next hpair => exact .inr ⟨hf, fun he => hpair ((mem_clearMoved h hf).2 he)⟩
    rcases hfrom with ⟨rfl, hpair⟩ | ⟨hf, hne⟩
    · exact ⟨Finmap.lookup_insert _, hpair⟩
    · obtain ⟨hindex, hpair⟩ := h.recorded a b f (mem_clearMoved h hf).1
      refine ⟨?_, hpair⟩
      show (g.poolIndex.insert edge.poolAddress _).lookup f.poolAddress = _
      rw [Finmap.lookup_insert_of_ne _ hne]
      exact hindex

/-- **An upsert with room keeps every key listed.** -/
theorem indexListed_upsertOne {g : PoolGraph L} (h : g.Coherent) (hall : g.IndexListed)
    {edge : PoolEdge L} (hroom : g.Room edge) : (g.upsertOne edge).IndexListed := by
  have hpair : ∀ a b, SamePair a b edge.mintA edge.mintB →
      (others (g.poolsBetween a b) edge.poolAddress).length < maxPoolsPerPair := by
    rintro a b (⟨rfl, rfl⟩ | ⟨rfl, rfl⟩)
    · exact hroom
    · rw [h.symmetric]
      exact hroom
  have hclear : ∀ a b, SamePair a b edge.mintA edge.mintB →
      edge.poolAddress ∈ addresses (listed (g.clearMoved edge) a b) ∨
        (listed (g.clearMoved edge) a b).length < maxPoolsPerPair := by
    intro a b hab
    have hlen := hpair a b hab
    rcases listed_clearMoved g edge a b with heq | heq
    · rw [heq]
      exact room_cases hlen
    · rw [heq]
      exact .inr hlen
  intro p a b hp
  have hindex : (g.poolIndex.insert edge.poolAddress (edge.mintA, edge.mintB)).lookup p =
      some (a, b) := hp
  rw [poolsBetween_upsertOne g]
  by_cases hself : p = edge.poolAddress
  · subst hself
    rw [Finmap.lookup_insert] at hindex
    cases hindex
    have hab : SamePair edge.mintA edge.mintB edge.mintA edge.mintB := .inl ⟨rfl, rfl⟩
    have hadded := (subset_addToPools (hclear _ _ hab)).2
    rw [if_pos hab]
    split
    · exact (subset_addToPools (.inl hadded)).2
    · exact hadded
  · rw [Finmap.lookup_insert_of_ne _ hself] at hindex
    have hkept : p ∈ addresses (listed (g.clearMoved edge) a b) := by
      rcases listed_clearMoved g edge a b with heq | heq
      · rw [heq]
        exact hall p a b hindex
      · rw [heq]
        exact mem_addresses_others.mpr ⟨hall p a b hindex, hself⟩
    split
    · next hab =>
        have hadded := subset_addToPools (hclear _ _ hab)
        split
        · exact (subset_addToPools (.inl hadded.2)).1 (hadded.1 hkept)
        · exact hadded.1 hkept
    · exact hkept

end Upsert

/-! ## 6. Removing -/

theorem poolsBetween_removePool {g : PoolGraph L} (p : Pubkey) (nowMs : UInt64) (a b : Pubkey) :
    (g.removePool p nowMs).poolsBetween a b = match g.poolIndex.lookup p with
      | none => g.poolsBetween a b
      | some (mintA, mintB) =>
          if SamePair a b mintA mintB then others (g.poolsBetween a b) p
          else g.poolsBetween a b := by
  unfold removePool
  cases hp : g.poolIndex.lookup p with
  | none => rfl
  | some mints => exact listed_removePoolFromAdj _ _ _ _ _ _

theorem lookup_removePool {g : PoolGraph L} (p : Pubkey) (nowMs : UInt64) (q : Pubkey) :
    (g.removePool p nowMs).poolIndex.lookup q =
      if q = p then none else g.poolIndex.lookup q := by
  unfold removePool
  cases hp : g.poolIndex.lookup p with
  | none =>
      dsimp only
      split
      · next hq => rw [hq, hp]
      · rfl
  | some mints =>
      show (g.poolIndex.erase p).lookup q = _
      by_cases hq : q = p
      · rw [if_pos hq, hq, Finmap.lookup_erase]
      · rw [if_neg hq, Finmap.lookup_erase_ne hq]

/-- **After its removal there is no trace of a pool.** -/
theorem gone_removePool {g : PoolGraph L} (h : g.Coherent) (p : Pubkey) (nowMs : UInt64) :
    (g.removePool p nowMs).Gone p where
  index := by
    rw [← Finmap.lookup_eq_none, lookup_removePool, if_pos rfl]
  lists a b hin := by
    rw [poolsBetween_removePool] at hin
    have hrecorded : p ∈ addresses (g.poolsBetween a b) →
        ∃ mints, g.poolIndex.lookup p = some mints ∧ SamePair a b mints.1 mints.2 := by
      intro hp
      obtain ⟨f, hf, rfl⟩ := List.mem_map.mp hp
      exact ⟨_, h.recorded a b f hf⟩
    cases hp : g.poolIndex.lookup p with
    | none =>
        rw [hp] at hin
        obtain ⟨mints, hmints, _⟩ := hrecorded hin
        rw [hp] at hmints
        cases hmints
    | some mints =>
        rw [hp] at hin
        dsimp only at hin
        split at hin
        · exact (mem_addresses_others.mp hin).2 rfl
        · next hpair =>
            obtain ⟨mints', hmints, hab⟩ := hrecorded hin
            rw [hp] at hmints
            cases hmints
            exact hpair hab

/-- **A removal keeps the contract.** -/
theorem coherent_removePool {g : PoolGraph L} (h : g.Coherent) (p : Pubkey) (nowMs : UInt64) :
    (g.removePool p nowMs).Coherent := by
  have hsub : ∀ a b, ((g.removePool p nowMs).poolsBetween a b).Sublist (g.poolsBetween a b) := by
    intro a b
    rw [poolsBetween_removePool]
    split
    · exact List.Sublist.refl _
    · split
      · exact List.filter_sublist
      · exact List.Sublist.refl _
  have hgone := gone_removePool h p nowMs
  exact {
    symmetric := fun a b => by
      rw [poolsBetween_removePool, poolsBetween_removePool, h.symmetric a b]
      simp only [samePair_comm (a := a) (b := b)]
    nodup := fun a b => (h.nodup a b).sublist ((hsub a b).map _)
    cap := fun a b => Nat.le_trans (hsub a b).length_le (h.cap a b)
    noEmpty := by
      unfold removePool
      cases g.poolIndex.lookup p with
      | none => exact h.noEmpty
      | some mints =>
          exact noEmpty_removeDirection (noEmpty_removeDirection h.noEmpty _ _ _) _ _ _
    recorded := fun a b f hf => by
      obtain ⟨hindex, hpair⟩ := h.recorded a b f ((hsub a b).subset hf)
      have hin : f.poolAddress ∈ addresses ((g.removePool p nowMs).poolsBetween a b) :=
        List.mem_map_of_mem hf
      have hne : f.poolAddress ≠ p := fun he => hgone.lists a b (by rw [← he]; exact he ▸ hin)
      rw [lookup_removePool, if_neg hne]
      exact ⟨hindex, hpair⟩ }

theorem indexListed_removePool {g : PoolGraph L} (hall : g.IndexListed) (p : Pubkey)
    (nowMs : UInt64) : (g.removePool p nowMs).IndexListed := by
  intro q a b hq
  rw [lookup_removePool] at hq
  by_cases hqp : q = p
  · rw [if_pos hqp] at hq
    cases hq
  · rw [if_neg hqp] at hq
    have hin := hall q a b hq
    rw [poolsBetween_removePool]
    split
    · exact hin
    · split
      · exact mem_addresses_others.mpr ⟨hin, hqp⟩
      · exact hin

end PoolGraph

/-! ## 7. Runs -/

/-- The operations that change the graph: single, bulk and removal. -/
inductive GraphOp (L : Type) where
  | upsertPool (edge : PoolEdge L) (nowMs : UInt64)
  | bulkUpsert (edges : List (PoolEdge L)) (nowMs : UInt64)
  | removePool (poolAddress : Pubkey) (nowMs : UInt64)

namespace GraphOp

open PoolGraph

variable {L : Type} [LT L] [DecidableLT L]

/-- What the operation leaves behind. -/
def apply (g : PoolGraph L) : GraphOp L → PoolGraph L
  | upsertPool edge nowMs => g.upsertPool edge nowMs
  | bulkUpsert edges nowMs => g.bulkUpsert edges nowMs
  | removePool p nowMs => g.removePool p nowMs

/-- No pool is added to a pair that lists three others; in a bulk, pool by pool. -/
def Room (g : PoolGraph L) : GraphOp L → Prop
  | upsertPool edge _ => g.Room edge
  | bulkUpsert edges _ => Along upsertOne PoolGraph.Room g edges
  | removePool _ _ => True

instance (g : PoolGraph L) (op : GraphOp L) : Decidable (op.Room g) := by
  unfold Room
  split <;> infer_instance

theorem coherent_apply {g : PoolGraph L} (h : g.Coherent) (op : GraphOp L) :
    (op.apply g).Coherent := by
  have hstats : ∀ {g : PoolGraph L} (nowMs : UInt64), g.Coherent →
      (g.refreshStats nowMs).Coherent :=
    fun _ h => ⟨h.symmetric, h.nodup, h.cap, h.noEmpty, h.recorded⟩
  cases op with
  | upsertPool edge nowMs => exact hstats nowMs (coherent_upsertOne h edge)
  | bulkUpsert edges nowMs =>
      have hbulk : (foldSteps upsertOne g edges).Coherent :=
        Machine.foldSteps_invariant (I := fun g : PoolGraph L => g.Coherent)
          (fun g edge hg => coherent_upsertOne hg edge) h edges
      exact hstats nowMs hbulk
  | removePool p nowMs => exact coherent_removePool h p nowMs

theorem indexListed_apply {g : PoolGraph L} (h : g.Coherent) (hall : g.IndexListed)
    {op : GraphOp L} (hroom : op.Room g) : (op.apply g).IndexListed := by
  cases op with
  | upsertPool edge nowMs => exact indexListed_upsertOne h hall hroom
  | bulkUpsert edges nowMs =>
      exact (Machine.foldSteps_of_along (I := fun g : PoolGraph L => g.Coherent ∧ g.IndexListed)
        (fun g edge hr hg =>
          ⟨coherent_upsertOne hg.1 edge, indexListed_upsertOne hg.1 hg.2 hr⟩)
        ⟨h, hall⟩ hroom).2
  | removePool p nowMs => exact indexListed_removePool hall p nowMs

end GraphOp

open PoolGraph

variable {L : Type} [LT L] [DecidableLT L]

/-- **THE ADJACENCY AND THE INDEX.** After every sequence of operations from the empty graph the
    two directions list the same pools, none twice, at most three to a pair, without empty maps
    or lists, each recorded in the index with the pair it is listed under; a removal leaves no
    trace; and when no operation adds a pool to a pair that lists three others, every key of the
    index is listed as well. -/
theorem adjacency_in_step (ops : List (GraphOp L)) :
    let g := foldSteps GraphOp.apply (PoolGraph.new : PoolGraph L) ops
    g.Coherent ∧ (∀ p nowMs, (g.removePool p nowMs).Gone p) ∧
      (Along GraphOp.apply GraphOp.Room (PoolGraph.new : PoolGraph L) ops → g.IndexListed) := by
  have hcoherent : (foldSteps GraphOp.apply (PoolGraph.new : PoolGraph L) ops).Coherent :=
    Machine.foldSteps_invariant (I := fun g : PoolGraph L => g.Coherent)
      (fun g op h => GraphOp.coherent_apply h op) coherent_new ops
  refine ⟨hcoherent, fun p nowMs => gone_removePool hcoherent p nowMs, fun hroom => ?_⟩
  have hlisted : (PoolGraph.new : PoolGraph L).IndexListed := fun _ _ _ h => nomatch h
  exact (Machine.foldSteps_of_along (I := fun g : PoolGraph L => g.Coherent ∧ g.IndexListed)
    (fun g op hr hg => ⟨GraphOp.coherent_apply hg.1 op, GraphOp.indexListed_apply hg.1 hg.2 hr⟩)
    ⟨coherent_new, hlisted⟩ hroom).2

/-- **THE FOURTH POOL OF A PAIR.** Four pools of one pair, the first with the least liquidity: it
    is dropped from both lists and stays in the index. -/
theorem evicted_pool_stays_indexed :
    let edge (pool : Pubkey) (liquidity : Nat) : PoolEdge Nat :=
      .new pool .raydiumAmmV4 1 2 liquidity 30 0
    let g := foldSteps GraphOp.apply PoolGraph.new
      [.upsertPool (edge 16 100) 0, .upsertPool (edge 17 400) 0, .upsertPool (edge 18 300) 0,
        .upsertPool (edge 19 200) 0]
    g.poolIndex.lookup 16 = some (1, 2) ∧ 16 ∉ addresses (g.poolsBetween 1 2) ∧
      16 ∉ addresses (g.poolsBetween 2 1) := by
  decide

end IronCrab.Arbitrage

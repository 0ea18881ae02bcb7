/-
  File:      IronCrab/Arbitrage/CycleSearch.lean
  Subject:   THE BEAM SEARCH FOR CYCLES (src/arbitrage/cycle_finder.rs and the search nodes of
             src/arbitrage/types.rs), turn by turn.

  Reading of the source's data:

  * the binary heap is any `PriorityQueue` by score (which of several equal nodes is popped is not
    specified), its content a list;
  * one search reads one state of the graph and of the quotes;
  * a turn of the `while` loop is a turn of `Retry.loop`; what a turn did is logged as a `Visit`
    (the node, the table of ratios it was bounded by, the children it pushed, whether the beam
    refused one), which no later turn reads;
  * `remaining_hops as i32` is exact: a depth limit is below 2^31 (the callers clamp it to 3..5).

  Main results:

  * `search_ran` -- every search ends, within a number of turns that the graph and the depth bound;
  * `mem_children` -- the nodes one hop further;
  * **`Explored`** -- the invariant of the loop: every node was pushed by the visit of its parent,
    none twice, and what is reported are the visited cycles;
  * `explored_of_ran` -- what holds when a search ends.
-/
import IronCrab.Arbitrage.PoolRanker
import IronCrab.Lib.PriorityQueue
import IronCrab.Lib.Retry

namespace IronCrab.Arbitrage.CycleFinder

open Track (Pubkey)

/-! ## 1. Search nodes -/

/-- `SearchNode`. -/
structure SearchNode (F : Type) where
  token : Pubkey
  path : List Pubkey
  pools : List (List (PoolEdge F))
  profit : F
  score : F
  depth : Nat
  minLiquidity : F
  visited : Finset Pubkey
  profitMultiplierCapped : Bool
  edgeRatioClamped : Bool
  deriving DecidableEq

/-- `ArbCycle`. -/
structure ArbCycle (F : Type) where
  path : List Pubkey
  pools : List (List (PoolEdge F))
  estimatedReturnBps : Int
  minLiquidityUsd : F
  profitMultiplierCapped : Bool
  returnBpsSaturated : Bool
  edgeRatioClamped : Bool
  deriving DecidableEq

section Nodes

variable {F : Type} [Floating F]

/-- `MAX_CYCLE_PROFIT_MULTIPLIER`. -/
def maxCycleProfitMultiplier : F := Floating.lit 10

/-- `f64::EPSILON`. -/
def epsilon : F := Floating.lit (1 / 2 ^ 52)

/-- `MIN_RETURN_BPS`. -/
def minReturnBps : Int := -10000

/-- `MAX_RETURN_BPS`. -/
def maxReturnBps : Int := 50000

/-- `profit_to_return_bps`: the basis points, and whether they were out of bounds. -/
def profitToReturnBps (profit : F) : Int × Bool :=
  let raw := Floating.mul (Floating.sub profit (Floating.lit 1)) (Floating.lit 10000)
  let saturated := decide (raw < Floating.ofInt minReturnBps ∨ Floating.ofInt maxReturnBps < raw)
  (max minReturnBps (min maxReturnBps (Floating.nearest raw)), saturated)

namespace SearchNode

/-- `SearchNode::start`. -/
def start (baseMint : Pubkey) : SearchNode F where
  token := baseMint
  path := [baseMint]
  pools := []
  profit := Floating.lit 1
  score := Floating.lit 1
  depth := 0
  minLiquidity := Floating.greatest
  visited := {baseMint}
  profitMultiplierCapped := false
  edgeRatioClamped := false

/-- `SearchNode::expand`. -/
def expand (node : SearchNode F) (nextToken : Pubkey) (poolAlternatives : List (PoolEdge F))
    (edgeRatio liquidityScore liquidityUsd : F) : SearchNode F :=
  let clampedRatio := clampEdgeRatio edgeRatio
  let edgeClamped := decide (epsilon < Floating.abs (Floating.sub clampedRatio edgeRatio))
  let uncappedProfit := Floating.mul node.profit clampedRatio
  let profitHitCap := decide (maxCycleProfitMultiplier < uncappedProfit)
  let newProfit := min uncappedProfit maxCycleProfitMultiplier
  { token := nextToken
    path := node.path ++ [nextToken]
    pools := node.pools ++ [poolAlternatives]
    profit := newProfit
    score := Floating.mul newProfit liquidityScore
    depth := node.depth + 1
    minLiquidity := min node.minLiquidity liquidityUsd
    visited := insert nextToken node.visited
    profitMultiplierCapped := node.profitMultiplierCapped || profitHitCap
    edgeRatioClamped := node.edgeRatioClamped || edgeClamped }

/-- `SearchNode::to_arb_cycle`. -/
def toArbCycle (node : SearchNode F) : Option (ArbCycle F) :=
  if node.path.length < 3 ∨ node.path.head? ≠ node.path.getLast? then none
  else
    let (returnBps, returnSaturated) := profitToReturnBps node.profit
    some {
      path := node.path
      pools := node.pools
      estimatedReturnBps := returnBps
      minLiquidityUsd := node.minLiquidity
      profitMultiplierCapped := node.profitMultiplierCapped
      returnBpsSaturated := returnSaturated || node.profitMultiplierCapped
      edgeRatioClamped := node.edgeRatioClamped }

end SearchNode

end Nodes

/-! ## 2. One turn of the search -/

/-- `CycleFinderConfig`. -/
structure CycleFinderConfig where
  beamWidth : Nat
  maxHops : Nat
  minProfitBps : Int
  maxResults : Nat
  baseMint : Pubkey
  poolAlternatives : Nat
  hops : maxHops < 2 ^ 31

/-- What a targeted search keeps to: the tokens it may enter and those it must pass. -/
structure Scope where
  allowedTokens : Finset Pubkey
  requiredTokens : Finset Pubkey

/-- Without a scope every token may be entered. -/
def allows (scope : Option Scope) (token : Pubkey) : Bool :=
  match scope with
  | none => true
  | some s => token ∈ s.allowedTokens

/-- Without a scope every path will do. -/
def passes (scope : Option Scope) (path : List Pubkey) : Bool :=
  match scope with
  | none => true
  | some s => path.any fun t => t ∈ s.requiredTokens

/-- `BeamCycleFinder`, without the table of ratios. -/
structure BeamCycleFinder (F : Type) [Floating F] where
  config : CycleFinderConfig
  ranker : PoolRanker F

/-- What a search remembers from turn to turn. -/
structure SearchState (F : Type) where
  pq : List (SearchNode F)
  countAtDepth : Finmap fun _ : Nat => Nat
  minScoreAtDepth : Finmap fun _ : Nat => F
  maxEdgeRatio : MaxEdgeRatios F
  results : List (ArbCycle F)

/-- What one turn did. -/
structure Visit (F : Type) where
  node : SearchNode F
  /-- The table the node was bounded by. -/
  table : MaxEdgeRatios F
  pushed : List (SearchNode F)
  /-- A full beam kept a child out. -/
  refused : Bool

/-- How a search ended: `stopped` at the most results it may return, or with an empty queue. -/
structure Ending (F : Type) where
  results : List (ArbCycle F)
  maxEdgeRatio : MaxEdgeRatios F
  stopped : Bool

/-- The queue and the beam while the children of one node are pushed. -/
structure Beam (F : Type) where
  pq : List (SearchNode F)
  countAtDepth : Finmap fun _ : Nat => Nat
  minScoreAtDepth : Finmap fun _ : Nat => F
  pushed : List (SearchNode F)
  refused : Bool

section Turn

variable {F : Type} [Floating F]

/-- The beam limit: room at the depth, or a score above the least one there. -/
def Beam.offer (beamWidth : Nat) (beam : Beam F) (expanded : SearchNode F) : Beam F :=
  let depth := expanded.depth
  let count := (beam.countAtDepth.lookup depth).getD 0
  let minScore := (beam.minScoreAtDepth.lookup depth).getD Floating.least
  if count < beamWidth then
    { beam with
      pq := beam.pq ++ [expanded]
      countAtDepth := beam.countAtDepth.insert depth (count + 1)
      minScoreAtDepth := beam.minScoreAtDepth.insert depth
        (if expanded.score < minScore ∨ minScore = Floating.least then expanded.score else minScore)
      pushed := beam.pushed ++ [expanded] }
  else if minScore < expanded.score then
    { beam with pq := beam.pq ++ [expanded], pushed := beam.pushed ++ [expanded] }
  else { beam with refused := true }

namespace BeamCycleFinder

variable (B : BeamCycleFinder F) (g : PoolGraph F) (scope : Option Scope)

/-- `min_profit_multiplier`. -/
def minProfitMultiplier : F :=
  Floating.add (Floating.lit 1)
    (Floating.div (Floating.ofInt B.config.minProfitBps) (Floating.lit 10000))

/-- `cycle_all_hops_quoted`. -/
def cycleAllHopsQuoted (cycle : ArbCycle F) : Bool :=
  (cycle.pools.zip (cycle.path.zip cycle.path.tail)).all fun hop =>
    match hop.1.head? with
    | none => false
    | some primary =>
        B.ranker.hopHasCachedQuote primary.poolAddress primary.dex hop.2.1 hop.2.2

/-- The node is back at the base. -/
def isClosed (node : SearchNode F) : Bool := 0 < node.depth && node.token = B.config.baseMint

/-- What is reported of a closed node. -/
def report (node : SearchNode F) : Option (ArbCycle F) :=
  if node.profit < B.minProfitMultiplier then none
  else if passes scope node.path then
    node.toArbCycle.filter B.cycleAllHopsQuoted
  else none

/-- The bound of a node: its profit if every hop left has the greatest ratio out of its token. -/
def upperBound (table : MaxEdgeRatios F) (node : SearchNode F) : F :=
  computeUpperBound table node.profit node.token (B.config.maxHops - node.depth)

/-- The search does not go on to a token it visited, nor out of its scope; back to the base it
    always may. -/
def isSkipped (node : SearchNode F) (nextToken : Pubkey) : Bool :=
  let isReturnToBase : Bool := nextToken = B.config.baseMint && 0 < node.depth
  !isReturnToBase && (nextToken ∈ node.visited || !allows scope nextToken)

/-- One hop to a neighbour, along the best pool, with its alternatives. -/
def expandTo (node : SearchNode F) (entry : Pubkey × List (RankedPool F)) :
    Option (SearchNode F) :=
  match entry.2.take B.config.poolAlternatives, entry.2 with
  | [], _ => none
  | _, [] => none
  | alternatives, best :: _ =>
      some (node.expand entry.1 (alternatives.map (·.edge)) best.edgeRatio best.liquidityScore
        best.edge.liquidityUsd)

/-- The children of a node, in the order they are offered to the beam. -/
def children (node : SearchNode F) : List (SearchNode F) :=
  (B.ranker.rankPoolsFrom g node.token).filterMap fun entry =>
    if B.isSkipped scope node entry.1 then none else B.expandTo node entry

/-- **One turn of the `while` loop.** -/
def turn (Q : PriorityQueue (SearchNode.score : SearchNode F → F)) (s : SearchState F) :
    Retry.Turn (Visit F) (SearchState F) (Ending F) :=
  match Q.pop s.pq with
  | none => .done ⟨s.results, s.maxEdgeRatio, false⟩
  | some (node, pq) =>
      if B.isClosed node then
        match B.report scope node with
        | none => .again ⟨node, s.maxEdgeRatio, [], false⟩ { s with pq }
        | some cycle =>
            let results := s.results ++ [cycle]
            if B.config.maxResults ≤ results.length then .done ⟨results, s.maxEdgeRatio, true⟩
            else .again ⟨node, s.maxEdgeRatio, [], false⟩ { s with pq, results }
      else if B.config.maxHops ≤ node.depth then
        .again ⟨node, s.maxEdgeRatio, [], false⟩ { s with pq }
      else if B.upperBound s.maxEdgeRatio node < B.minProfitMultiplier then
        .again ⟨node, s.maxEdgeRatio, [], false⟩ { s with pq }
      else
        let beam := (B.children g scope node).foldl (Beam.offer B.config.beamWidth)
          ⟨pq, s.countAtDepth, s.minScoreAtDepth, [], false⟩
        .again ⟨node, s.maxEdgeRatio, beam.pushed, beam.refused⟩
          { s with
            pq := beam.pq
            countAtDepth := beam.countAtDepth
            minScoreAtDepth := beam.minScoreAtDepth
            maxEdgeRatio := updateMaxEdgeRatios node.token s.maxEdgeRatio
              (B.ranker.maxEdgeUpdates g node.token) }

/-- The state a search starts in. -/
def startState (table : MaxEdgeRatios F) : SearchState F where
  pq := [SearchNode.start B.config.baseMint]
  countAtDepth := ∅
  minScoreAtDepth := ∅
  maxEdgeRatio := table
  results := []

/-- The most neighbours of a token. -/
def width : Nat := g.adj.total fun neighbors => neighbors.entries.length

/-- The most nodes below one that may go so many hops further, itself counted. -/
def weight (width : Nat) : Nat → Nat
  | 0 => 1
  | hops + 1 => 1 + width * weight width hops

/-- The `while` loop of `find_cycles_inner`. -/
def runSearch (Q : PriorityQueue (SearchNode.score : SearchNode F → F)) (table : MaxEdgeRatios F) :
    Option (Retry.Outcome (Visit F) (SearchState F) (Ending F)) :=
  Retry.loop (fun _ => B.turn g scope Q) (1 + weight (width g) B.config.maxHops) 0
    (B.startState table)

/-- `find_cycles_inner`: the cycles by estimated return, highest first, and the table of ratios that
    the search leaves. -/
def findCyclesInner (Q : PriorityQueue (SearchNode.score : SearchNode F → F))
    (table : MaxEdgeRatios F) : List (ArbCycle F) × MaxEdgeRatios F :=
  match B.runSearch g scope Q table with
  | none => ([], table)
  | some o =>
      (o.result.results.insertionSort fun a b => b.estimatedReturnBps ≤ a.estimatedReturnBps,
        o.result.maxEdgeRatio)

end BeamCycleFinder

end Turn

/-! ## 3. The children of a node -/

section Children

variable {F : Type} [Floating F]

namespace BeamCycleFinder

variable (B : BeamCycleFinder F) (g : PoolGraph F) (scope : Option Scope)

/-- The node one hop further, along the best pool. -/
def hop (node : SearchNode F) (t : Pubkey) : SearchNode F :=
  match B.ranker.ranked g node.token t with
  | [] => node
  | best :: rest =>
      node.expand t (((best :: rest).take B.config.poolAlternatives).map (·.edge)) best.edgeRatio
        best.liquidityScore best.edge.liquidityUsd

variable {B g scope} {node child : SearchNode F} {t : Pubkey}

/-- Expanding along ranked pools is a hop, unless no alternatives are kept. -/
theorem expandTo_ranked (h : B.ranker.ranked g node.token t ≠ []) :
    B.expandTo node (t, B.ranker.ranked g node.token t) =
      if B.config.poolAlternatives = 0 then none else some (B.hop g node t) := by
  unfold expandTo hop
  cases hranked : B.ranker.ranked g node.token t with
  | nil => exact absurd hranked h
  | cons best rest =>
      cases halternatives : B.config.poolAlternatives with
      | zero => rfl
      | succ n => rfl

/-- **The children of a node**: one hop to each neighbour that is not skipped. -/
theorem mem_children :
    child ∈ B.children g scope node ↔
      0 < B.config.poolAlternatives ∧ ∃ t, B.isSkipped scope node t = false ∧
        B.ranker.ranked g node.token t ≠ [] ∧ child = B.hop g node t := by
  unfold children
  rw [List.mem_filterMap]
  constructor
  · intro h
    obtain ⟨⟨t, pools⟩, hmem, heq⟩ := h
    obtain ⟨hpools, hne⟩ := PoolRanker.mem_rankPoolsFrom.mp hmem
    subst hpools
    cases hskip : B.isSkipped scope node t with
    | true =>
        rw [if_pos hskip] at heq
        cases heq
    | false =>
        rw [if_neg (by simp [hskip]), expandTo_ranked hne] at heq
        split at heq
        · cases heq
        · exact ⟨Nat.pos_of_ne_zero ‹_›, t, hskip, hne, (Option.some.inj heq).symm⟩
  · intro h
    obtain ⟨halternatives, t, hskip, hne, rfl⟩ := h
    refine ⟨(t, _), PoolRanker.mem_rankPoolsFrom.mpr ⟨rfl, hne⟩, ?_⟩
    rw [if_neg (by simp [hskip]), expandTo_ranked hne, if_neg (Nat.ne_of_gt halternatives)]

theorem hop_token (h : B.ranker.ranked g node.token t ≠ []) : (B.hop g node t).token = t := by
  unfold hop
  cases hranked : B.ranker.ranked g node.token t with
  | nil => exact absurd hranked h
  | cons best rest => rfl

theorem hop_path (h : B.ranker.ranked g node.token t ≠ []) :
    (B.hop g node t).path = node.path ++ [t] := by
  unfold hop
  cases hranked : B.ranker.ranked g node.token t with
  | nil => exact absurd hranked h
  | cons best rest => rfl

theorem hop_depth (h : B.ranker.ranked g node.token t ≠ []) :
    (B.hop g node t).depth = node.depth + 1 := by
  unfold hop
  cases hranked : B.ranker.ranked g node.token t with
  | nil => exact absurd hranked h
  | cons best rest => rfl

theorem hop_visited (h : B.ranker.ranked g node.token t ≠ []) :
    (B.hop g node t).visited = insert t node.visited := by
  unfold hop
  cases hranked : B.ranker.ranked g node.token t with
  | nil => exact absurd hranked h
  | cons best rest => rfl

/-- A child stands one hop further on the path of its parent. -/
theorem path_of_mem_children (h : child ∈ B.children g scope node) :
    child.path = node.path ++ [child.token] ∧ child.depth = node.depth + 1 := by
  obtain ⟨_, t, _, hne, rfl⟩ := mem_children.mp h
  rw [hop_path hne, hop_token hne]
  exact ⟨rfl, hop_depth hne⟩

/-- The tokens of the children are among the neighbours, in their order. -/
theorem tokens_children (B : BeamCycleFinder F) (g : PoolGraph F) (scope : Option Scope)
    (node : SearchNode F) :
    ((B.children g scope node).map (·.token)).Sublist
      ((B.ranker.rankPoolsFrom g node.token).map Prod.fst) := by
  refine Keyed.sublist_map_filterMap fun entry hentry child hchild => ?_
  obtain ⟨t, pools⟩ := entry
  obtain ⟨rfl, hne⟩ := PoolRanker.mem_rankPoolsFrom.mp hentry
  split at hchild
  · cases hchild
  · rw [expandTo_ranked hne] at hchild
    split at hchild
    · cases hchild
    · rw [← Option.some.inj hchild]
      exact hop_token hne

/-- No two children of a node have the same path. -/
theorem nodup_paths_children (B : BeamCycleFinder F) (g : PoolGraph F) (scope : Option Scope)
    (node : SearchNode F) : ((B.children g scope node).map (·.path)).Nodup := by
  have htokens : ((B.children g scope node).map (·.token)).Nodup :=
    (PoolRanker.nodup_rankPoolsFrom B.ranker g node.token).sublist (tokens_children B g scope node)
  have hpaths : (B.children g scope node).map (·.path) =
      ((B.children g scope node).map (·.token)).map fun t => node.path ++ [t] := by
    rw [List.map_map]
    refine List.map_congr_left fun child hchild => ?_
    exact (path_of_mem_children hchild).1
  rw [hpaths]
  refine htokens.map fun a b hab => ?_
  exact List.singleton_injective (List.append_cancel_left hab)

/-- A node has no more children than a token has neighbours. -/
theorem length_children_le : (B.children g scope node).length ≤ width g := by
  have htokens := (tokens_children B g scope node).length_le
  rw [List.length_map, List.length_map] at htokens
  refine htokens.trans ?_
  unfold PoolRanker.rankPoolsFrom
  dsimp only
  rw [List.length_insertionSort]
  refine (List.length_filterMap_le _ _).trans ?_
  unfold PoolGraph.neighbors width
  cases hadj : g.adj.lookup node.token with
  | none => exact Nat.zero_le _
  | some neighbors =>
      rw [List.length_map]
      exact AList.le_total (fun neighbors => neighbors.entries.length) hadj

end BeamCycleFinder

end Children

/-! ## 4. What one turn does -/

section TurnSpec

variable {F : Type} [Floating F]

/-- The beam takes a child in, or refuses it. -/
theorem offer_cases (beamWidth : Nat) (beam : Beam F) (node : SearchNode F) :
    ((beam.offer beamWidth node).pq = beam.pq ++ [node] ∧
      (beam.offer beamWidth node).pushed = beam.pushed ++ [node] ∧
      (beam.offer beamWidth node).refused = beam.refused) ∨
    ((beam.offer beamWidth node).pq = beam.pq ∧
      (beam.offer beamWidth node).pushed = beam.pushed ∧
      (beam.offer beamWidth node).refused = true) := by
  unfold Beam.offer
  dsimp only
  split
  · exact .inl ⟨rfl, rfl, rfl⟩
  · split
    · exact .inl ⟨rfl, rfl, rfl⟩
    · exact .inr ⟨rfl, rfl, rfl⟩

/-- **What the beam does to some children**: it keeps some of them, in order, and all of them if it
    refuses none. -/
theorem foldl_offer (beamWidth : Nat) (nodes : List (SearchNode F)) (beam : Beam F) :
    ∃ kept, kept.Sublist nodes ∧
      (nodes.foldl (Beam.offer beamWidth) beam).pq = beam.pq ++ kept ∧
      (nodes.foldl (Beam.offer beamWidth) beam).pushed = beam.pushed ++ kept ∧
      ((nodes.foldl (Beam.offer beamWidth) beam).refused = false →
        beam.refused = false ∧ kept = nodes) := by
  induction nodes generalizing beam with
  | nil => exact ⟨[], .slnil, by simp, by simp, fun h => ⟨h, rfl⟩⟩
  | cons node nodes ih =>
      obtain ⟨kept, hsub, hpq, hpushed, hrefused⟩ := ih (beam.offer beamWidth node)
      rw [List.foldl_cons]
      rcases offer_cases beamWidth beam node with ⟨hq, hp, hr⟩ | ⟨hq, hp, hr⟩
      · refine ⟨node :: kept, hsub.cons_cons _, ?_, ?_, fun h => ?_⟩
        · rw [hpq, hq, List.append_assoc]
          rfl
        · rw [hpushed, hp, List.append_assoc]
          rfl
        · obtain ⟨hbefore, rfl⟩ := hrefused h
          exact ⟨hr ▸ hbefore, rfl⟩
      · refine ⟨kept, hsub.cons _, by rw [hpq, hq], by rw [hpushed, hp], fun h => ?_⟩
        rw [hr] at hrefused
        exact absurd (hrefused h).1 Bool.noConfusion

namespace BeamCycleFinder

variable (B : BeamCycleFinder F) (g : PoolGraph F) (scope : Option Scope)

/-- The node is expanded, under this table of ratios. -/
def Expands (table : MaxEdgeRatios F) (node : SearchNode F) : Prop :=
  B.isClosed node = false ∧ node.depth < B.config.maxHops ∧
    B.minProfitMultiplier ≤ B.upperBound table node

/-- What the visit of a node reports. -/
def reported (node : SearchNode F) : Option (ArbCycle F) :=
  if B.isClosed node then B.report scope node else none

/-- **A turn that goes on**, as a step of the search. -/
structure TurnStep (s : SearchState F) (visit : Visit F) (s' : SearchState F) : Prop where
  table : visit.table = s.maxEdgeRatio
  results : s'.results = s.results ++ (B.reported scope visit.node).toList
  room : B.reported scope visit.node = none ∨ s'.results.length < B.config.maxResults
  /-- The node is taken out of the queue, and what it pushes goes in. -/
  queue : ∃ rest, s.pq.Perm (visit.node :: rest) ∧ s'.pq = rest ++ visit.pushed
  expanded : B.Expands s.maxEdgeRatio visit.node →
    visit.pushed.Sublist (B.children g scope visit.node) ∧
    (visit.refused = false → visit.pushed = B.children g scope visit.node) ∧
    s'.maxEdgeRatio = updateMaxEdgeRatios visit.node.token s.maxEdgeRatio
      (B.ranker.maxEdgeUpdates g visit.node.token)
  other : ¬ B.Expands s.maxEdgeRatio visit.node →
    visit.pushed = [] ∧ s'.maxEdgeRatio = s.maxEdgeRatio

variable {B g scope} {Q : PriorityQueue (SearchNode.score : SearchNode F → F)}
  {s s' : SearchState F} {visit : Visit F} {ending : Ending F}

/-- **Every turn that goes on is a step.** -/
theorem step_of_turn (h : B.turn g scope Q s = .again visit s') :
    B.TurnStep g scope s visit s' := by
  unfold turn at h
  cases hpop : Q.pop s.pq with
  | none =>
      rw [hpop] at h
      cases h
  | some popped =>
      obtain ⟨node, pq⟩ := popped
      have hperm := Q.perm _ _ _ hpop
      rw [hpop] at h
      dsimp only at h
      by_cases hclosed : B.isClosed node = true
      · have hexpands : ∀ table, ¬ B.Expands table node := by
          intro table he
          rw [he.1] at hclosed
          cases hclosed
        have hreported : B.reported scope node = B.report scope node := if_pos hclosed
        rw [if_pos hclosed] at h
        cases hreport : B.report scope node with
        | none =>
            rw [hreport] at h hreported
            cases h
            refine ⟨rfl, ?_, .inl hreported, ⟨pq, hperm, ?_⟩, fun he => absurd he (hexpands _),
              fun _ => ⟨rfl, rfl⟩⟩
            · simp [hreported]
            · simp
        | some cycle =>
            rw [hreport] at h hreported
            dsimp only at h
            split at h
            · cases h
            · cases h
              refine ⟨rfl, ?_, .inr (Nat.lt_of_not_le ‹_›), ⟨pq, hperm, ?_⟩,
                fun he => absurd he (hexpands _), fun _ => ⟨rfl, rfl⟩⟩
              · simp [hreported]
              · simp
      · have hreported : B.reported scope node = none := if_neg hclosed
        rw [if_neg hclosed] at h
        by_cases hdepth : B.config.maxHops ≤ node.depth
        · rw [if_pos hdepth] at h
          cases h
          refine ⟨rfl, by simp [hreported], .inl hreported, ⟨pq, hperm, by simp⟩, fun he => ?_,
            fun _ => ⟨rfl, rfl⟩⟩
          exact absurd he.2.1 (Nat.not_lt_of_le hdepth)
        · rw [if_neg hdepth] at h
          by_cases hbound : B.upperBound s.maxEdgeRatio node < B.minProfitMultiplier
          · rw [if_pos hbound] at h
            cases h
            refine ⟨rfl, by simp [hreported], .inl hreported, ⟨pq, hperm, by simp⟩, fun he => ?_,
              fun _ => ⟨rfl, rfl⟩⟩
            exact absurd he.2.2 (not_le.mpr hbound)
          · rw [if_neg hbound] at h
            obtain ⟨kept, hsub, hpq, hpushed, hrefused⟩ := foldl_offer B.config.beamWidth
              (B.children g scope node) ⟨pq, s.countAtDepth, s.minScoreAtDepth, [], false⟩
            cases h
            refine ⟨rfl, by simp [hreported], .inl hreported, ⟨pq, hperm, ?_⟩,
              fun _ => ⟨?_, fun h => ?_, rfl⟩, fun he => ?_⟩
            · rw [hpq, hpushed]
              rfl
            · rw [hpushed]
              exact hsub
            · rw [hpushed]
              exact (hrefused h).2
            · exact absurd ⟨Bool.eq_false_of_not_eq_true hclosed, Nat.lt_of_not_le hdepth,
                not_lt.mp hbound⟩ he

/-- **How a search ends**: with an empty queue, or with the report that fills its results. -/
theorem of_turn_done (h : B.turn g scope Q s = .done ending) :
    (s.pq = [] ∧ ending = ⟨s.results, s.maxEdgeRatio, false⟩) ∨
    ∃ node cycle, node ∈ s.pq ∧ B.reported scope node = some cycle ∧
      ending = ⟨s.results ++ [cycle], s.maxEdgeRatio, true⟩ := by
  unfold turn at h
  cases hpop : Q.pop s.pq with
  | none =>
      rw [hpop] at h
      cases h
      exact .inl ⟨Q.pop_none _ hpop, rfl⟩
  | some popped =>
      obtain ⟨node, pq⟩ := popped
      rw [hpop] at h
      dsimp only at h
      by_cases hclosed : B.isClosed node = true
      · have hreported : B.reported scope node = B.report scope node := if_pos hclosed
        rw [if_pos hclosed] at h
        cases hreport : B.report scope node with
        | none =>
            rw [hreport] at h
            cases h
        | some cycle =>
            rw [hreport] at h hreported
            dsimp only at h
            split at h
            · cases h
              exact .inr ⟨node, cycle, Q.mem_of_pop hpop, hreported, rfl⟩
            · cases h
      · rw [if_neg hclosed] at h
        split at h
        · cases h
        · split at h
          · cases h
          · cases h

end BeamCycleFinder

end TurnSpec

/-! ## 5. Every search ends -/

section Termination

variable {F : Type} [Floating F]

namespace BeamCycleFinder

variable (B : BeamCycleFinder F) (g : PoolGraph F) (scope : Option Scope)

/-- The most nodes that what is queued may still lead to. -/
def ahead (pq : List (SearchNode F)) : Nat :=
  (pq.map fun node => weight (width g) (B.config.maxHops - node.depth)).sum

variable {B g scope} {Q : PriorityQueue (SearchNode.score : SearchNode F → F)}
  {s s' : SearchState F} {visit : Visit F}

theorem ahead_perm {pq pq' : List (SearchNode F)} (h : pq.Perm pq') :
    B.ahead g pq = B.ahead g pq' :=
  (h.map _).sum_eq

theorem ahead_append (pq pq' : List (SearchNode F)) :
    B.ahead g (pq ++ pq') = B.ahead g pq + B.ahead g pq' := by
  simp [ahead]

theorem ahead_cons (node : SearchNode F) (pq : List (SearchNode F)) :
    B.ahead g (node :: pq) =
      weight (width g) (B.config.maxHops - node.depth) + B.ahead g pq := by
  simp [ahead]

theorem weight_pos (width hops : Nat) : 0 < weight width hops := by
  cases hops with
  | zero => exact Nat.one_pos
  | succ hops => exact Nat.add_pos_left Nat.one_pos _

/-- Nodes that all have so many hops left. -/
theorem ahead_le {pq : List (SearchNode F)} {hops : Nat}
    (h : ∀ node ∈ pq, B.config.maxHops - node.depth = hops) :
    B.ahead g pq = pq.length * weight (width g) hops := by
  induction pq with
  | nil => simp [ahead]
  | cons node pq ih =>
      rw [ahead_cons, h node List.mem_cons_self,
        ih fun n hn => h n (List.mem_cons_of_mem _ hn), List.length_cons, Nat.succ_mul, Nat.add_comm]

/-- **A turn that goes on uses up its node.** -/
theorem ahead_lt (h : B.TurnStep g scope s visit s') : B.ahead g s'.pq < B.ahead g s.pq := by
  obtain ⟨rest, hpq, hpq'⟩ := h.queue
  rw [ahead_perm hpq, hpq', ahead_append, ahead_cons]
  by_cases hexpands : B.Expands s.maxEdgeRatio visit.node
  · obtain ⟨hsub, _, _⟩ := h.expanded hexpands
    have hdepth := hexpands.2.1
    have hhops : ∀ child ∈ visit.pushed, B.config.maxHops - child.depth =
        B.config.maxHops - visit.node.depth - 1 := by
      intro child hchild
      rw [(path_of_mem_children (hsub.subset hchild)).2]
      omega
    have hlength : visit.pushed.length ≤ width g := hsub.length_le.trans length_children_le
    obtain ⟨hops, hsucc⟩ : ∃ hops, B.config.maxHops - visit.node.depth = hops + 1 :=
      ⟨B.config.maxHops - visit.node.depth - 1, by omega⟩
    rw [hsucc] at hhops
    rw [ahead_le hhops, hsucc, Nat.add_sub_cancel, weight]
    have hmul := Nat.mul_le_mul_right (weight (width g) hops) hlength
    omega
  · rw [(h.other hexpands).1]
    have hpos := weight_pos (width g) (B.config.maxHops - visit.node.depth)
    simp only [ahead, List.map_nil, List.sum_nil]
    omega

/-- **Every search ends**: the fuel of `runSearch` covers its turns. -/
theorem search_ran (B : BeamCycleFinder F) (g : PoolGraph F) (scope : Option Scope)
    (Q : PriorityQueue (SearchNode.score : SearchNode F → F)) (table : MaxEdgeRatios F) :
    ∃ o, Retry.Ran (fun _ => B.turn g scope Q) 0 (B.startState table) o ∧
      B.runSearch g scope Q table = some o := by
  have hturn : ∀ (k : Nat) s cause s', B.turn g scope Q s = .again cause s' →
      B.ahead g s'.pq < B.ahead g s.pq := fun _ _ _ _ h => ahead_lt (step_of_turn h)
  obtain ⟨o, ho⟩ := Retry.exists_ran_of_measure (fun s => B.ahead g s.pq) hturn 0
    (B.startState table)
  refine ⟨o, ho, ho.loop_eq ((ho.rounds_le (fun s => B.ahead g s.pq) hturn).trans ?_)⟩
  have hstart : B.ahead g (B.startState table).pq = weight (width g) B.config.maxHops := by
    simp [ahead, startState, SearchNode.start]
  rw [hstart]

end BeamCycleFinder

end Termination

/-! ## 6. What has been explored -/

section Explored

variable {F : Type} [Floating F]

namespace BeamCycleFinder

variable (B : BeamCycleFinder F) (g : PoolGraph F) (scope : Option Scope)

/-- The nodes a search could come to: below a node are its children, unless it is back at the base
    or at the depth limit. -/
inductive Tree : SearchNode F → Prop
  | start : Tree (SearchNode.start B.config.baseMint)
  | child {node child : SearchNode F} (above : Tree node) (open_ : B.isClosed node = false)
      (depth : node.depth < B.config.maxHops) (mem : child ∈ B.children g scope node) : Tree child

/-- The nodes that were visited or wait. -/
def known (past : List (Visit F)) (s : SearchState F) : List (SearchNode F) :=
  past.map (·.node) ++ s.pq

/-- **The invariant of the search.** -/
structure Explored (past : List (Visit F)) (s : SearchState F) : Prop where
  tree : ∀ node ∈ known past s, B.Tree g scope node
  start : SearchNode.start B.config.baseMint ∈ known past s
  paths : ((known past s).map (·.path)).Nodup
  /-- Every node was pushed by the visit of the node above it. -/
  parent : ∀ node ∈ known past s, node.path = [B.config.baseMint] ∨
    ∃ visit ∈ past, B.Expands visit.table visit.node ∧ ∃ t, node.path = visit.node.path ++ [t]
  /-- An expanded node whose children the beam took in has them known. -/
  covered : ∀ visit ∈ past, B.Expands visit.table visit.node → visit.refused = false →
    ∀ child ∈ B.children g scope visit.node, child ∈ known past s
  results : s.results = past.filterMap fun visit => B.reported scope visit.node
  few : s.results.length < B.config.maxResults ∨ s.results = []

variable {B g scope} {past : List (Visit F)} {s s' : SearchState F} {visit : Visit F}

theorem Tree.path_ne_nil {node : SearchNode F} (h : B.Tree g scope node) : node.path ≠ [] := by
  cases h with
  | start => exact List.cons_ne_nil _ _
  | child _ _ _ mem =>
      rw [(path_of_mem_children mem).1]
      exact List.append_ne_nil_of_right_ne_nil _ (List.cons_ne_nil _ _)

/-- What is known after a turn: what was known, and what the turn pushed. -/
theorem known_step (h : B.TurnStep g scope s visit s') :
    (known (past ++ [visit]) s').Perm (known past s ++ visit.pushed) := by
  obtain ⟨rest, hpq, hpq'⟩ := h.queue
  unfold known
  rw [hpq', List.map_append, List.map_singleton, List.append_assoc, List.append_assoc,
    ← List.append_assoc [visit.node]]
  refine List.Perm.append_left _ ?_
  exact hpq.symm.append_right visit.pushed

theorem explored_start (B : BeamCycleFinder F) (g : PoolGraph F) (scope : Option Scope)
    (table : MaxEdgeRatios F) : B.Explored g scope [] (B.startState table) where
  tree node hnode := by
    rw [List.mem_singleton.mp hnode]
    exact .start
  start := List.mem_singleton_self _
  paths := List.nodup_singleton _
  parent node hnode := by
    rw [List.mem_singleton.mp hnode]
    exact .inl rfl
  covered _ h := absurd h List.not_mem_nil
  results := rfl
  few := .inr rfl

/-- What a turn pushes are children of its node, and only an expanded node has any. -/
theorem TurnStep.of_pushed (h : B.TurnStep g scope s visit s') {child : SearchNode F}
    (hchild : child ∈ visit.pushed) :
    B.Expands s.maxEdgeRatio visit.node ∧ child ∈ B.children g scope visit.node := by
  by_cases hexpands : B.Expands s.maxEdgeRatio visit.node
  · exact ⟨hexpands, (h.expanded hexpands).1.subset hchild⟩
  · rw [(h.other hexpands).1] at hchild
    cases hchild

/-- The node of a turn was known, and not visited before. -/
theorem TurnStep.fresh (h : B.TurnStep g scope s visit s') (hs : B.Explored g scope past s) :
    visit.node ∈ known past s ∧ ∀ v ∈ past, v.node.path ≠ visit.node.path := by
  obtain ⟨rest, hpq, _⟩ := h.queue
  have hmem : visit.node ∈ s.pq := hpq.mem_iff.mpr List.mem_cons_self
  refine ⟨List.mem_append_right _ hmem, fun v hv hpath => ?_⟩
  have hnodup := hs.paths
  unfold known at hnodup
  rw [List.map_append, List.nodup_append] at hnodup
  exact hnodup.2.2 _ (List.mem_map_of_mem (List.mem_map_of_mem hv)) _ (List.mem_map_of_mem hmem)
    hpath

/-- **A turn keeps the invariant.** -/
theorem explored_step (hs : B.Explored g scope past s) (h : B.TurnStep g scope s visit s') :
    B.Explored g scope (past ++ [visit]) s' := by
  have hperm : (known (past ++ [visit]) s').Perm (known past s ++ visit.pushed) := known_step h
  obtain ⟨hknown, hfresh⟩ := h.fresh hs
  have hmem : ∀ node, node ∈ known (past ++ [visit]) s' ↔
      node ∈ known past s ∨ node ∈ visit.pushed :=
    fun node => hperm.mem_iff.trans List.mem_append
  refine ⟨?_, ?_, ?_, ?_, ?_, ?_, ?_⟩
  · intro node hnode
    rcases (hmem node).mp hnode with hold | hnew
    · exact hs.tree node hold
    · obtain ⟨hexpands, hchild⟩ := h.of_pushed hnew
      exact .child (hs.tree _ hknown) hexpands.1 hexpands.2.1 hchild
  · exact (hmem _).mpr (.inl hs.start)
  · rw [(hperm.map (·.path)).nodup_iff, List.map_append, List.nodup_append]
    refine ⟨hs.paths, ?_, ?_⟩
    · by_cases hexpands : B.Expands s.maxEdgeRatio visit.node
      · exact (nodup_paths_children B g scope visit.node).sublist
          ((h.expanded hexpands).1.map _)
      · rw [(h.other hexpands).1]
        exact List.nodup_nil
    · -- a pushed path that was known before would make its parent visited before
      intro p hold p' hnew heq
      obtain ⟨node, hnode, rfl⟩ := List.mem_map.mp hold
      obtain ⟨child, hchild, rfl⟩ := List.mem_map.mp hnew
      rw [(path_of_mem_children (h.of_pushed hchild).2).1] at heq
      rcases hs.parent node hnode with hstart | ⟨v, hv, _, t, ht⟩
      · rw [hstart] at heq
        have hnil : visit.node.path = [] := by
          have hlength := congrArg List.length heq
          simp at hlength
          exact hlength
        exact (hs.tree _ hknown).path_ne_nil hnil
      · rw [ht] at heq
        exact hfresh v hv (List.append_inj_left' heq rfl)
  · intro node hnode
    rcases (hmem node).mp hnode with hold | hnew
    · rcases hs.parent node hold with hstart | ⟨v, hv, hexpands, t, ht⟩
      · exact .inl hstart
      · exact .inr ⟨v, List.mem_append_left _ hv, hexpands, t, ht⟩
    · obtain ⟨hexpands, hchild⟩ := h.of_pushed hnew
      rw [← h.table] at hexpands
      exact .inr ⟨visit, List.mem_append_right _ (List.mem_singleton_self _), hexpands, node.token,
        (path_of_mem_children hchild).1⟩
  · intro v hv hexpands hrefused child hchild
    rcases List.mem_append.mp hv with hv | hv
    · exact (hmem child).mpr (.inl (hs.covered v hv hexpands hrefused child hchild))
    · obtain rfl := List.mem_singleton.mp hv
      rw [h.table] at hexpands
      refine (hmem child).mpr (.inr ?_)
      rw [(h.expanded hexpands).2.1 hrefused]
      exact hchild
  · rw [h.results, hs.results, List.filterMap_append]
    cases hreported : B.reported scope visit.node <;> simp [hreported]
  · rcases h.room with hnone | hroom
    · rw [h.results, hnone]
      simpa using hs.few
    · exact .inl hroom

/-! ## 7. The tables of a search -/

variable (B g) in
/-- **What holds of the tables of a search that starts with a settled one**: they stay settled, they
    only gain tokens, and an expanded node puts its token in. -/
structure Tabled (table : MaxEdgeRatios F) (past : List (Visit F)) (s : SearchState F) : Prop where
  settled : Settled B.ranker g s.maxEdgeRatio
  kept : ∀ t, (table.lookup t).isSome → (s.maxEdgeRatio.lookup t).isSome
  bounded : ∀ visit ∈ past, Settled B.ranker g visit.table ∧
    ∀ t, (table.lookup t).isSome → (visit.table.lookup t).isSome
  entered : ∀ visit ∈ past, B.Expands visit.table visit.node →
    B.ranker.maxEdgeUpdates g visit.node.token ≠ [] →
    (s.maxEdgeRatio.lookup visit.node.token).isSome

variable {table : MaxEdgeRatios F}

theorem tabled_start (h : Settled B.ranker g table) : B.Tabled g table [] (B.startState table) where
  settled := h
  kept _ ht := ht
  bounded _ hv := absurd hv List.not_mem_nil
  entered _ hv := absurd hv List.not_mem_nil

/-- The table after a turn: it may have gained the token of the node. -/
theorem TurnStep.table_cases (h : B.TurnStep g scope s visit s')
    (hs : Settled B.ranker g s.maxEdgeRatio) :
    Settled B.ranker g s'.maxEdgeRatio ∧
      (∀ t, (s.maxEdgeRatio.lookup t).isSome → (s'.maxEdgeRatio.lookup t).isSome) ∧
      (B.Expands s.maxEdgeRatio visit.node → B.ranker.maxEdgeUpdates g visit.node.token ≠ [] →
        (s'.maxEdgeRatio.lookup visit.node.token).isSome) := by
  by_cases hexpands : B.Expands s.maxEdgeRatio visit.node
  · obtain ⟨_, _, htable⟩ := h.expanded hexpands
    rw [htable]
    refine ⟨hs.update _, fun t ht => ?_, fun _ hupdates => ?_⟩
    · rw [hs.lookup_update]
      split
      · rfl
      · exact ht
    · rw [hs.lookup_update, if_pos ⟨rfl, hupdates⟩]
      rfl
  · rw [(h.other hexpands).2]
    exact ⟨hs, fun _ ht => ht, fun he => absurd he hexpands⟩

/-- A turn keeps the invariant of the tables. -/
theorem tabled_step (hs : B.Tabled g table past s) (h : B.TurnStep g scope s visit s') :
    B.Tabled g table (past ++ [visit]) s' := by
  obtain ⟨hsettled, hgrows, henters⟩ := h.table_cases hs.settled
  refine ⟨hsettled, fun t ht => hgrows t (hs.kept t ht), ?_, ?_⟩
  · intro v hv
    rcases List.mem_append.mp hv with hv | hv
    · exact hs.bounded v hv
    · obtain rfl := List.mem_singleton.mp hv
      rw [h.table]
      exact ⟨hs.settled, hs.kept⟩
  · intro v hv hexpands hupdates
    rcases List.mem_append.mp hv with hv | hv
    · exact hgrows _ (hs.entered v hv hexpands hupdates)
    · obtain rfl := List.mem_singleton.mp hv
      rw [h.table] at hexpands
      exact henters hexpands hupdates

/-! ## 8. A whole search -/

variable {Q : PriorityQueue (SearchNode.score : SearchNode F → F)}
  {o : Retry.Outcome (Visit F) (SearchState F) (Ending F)}

/-- **What holds of the log of a search and its last state.** -/
theorem explored_of_ran (h : Retry.Ran (fun _ => B.turn g scope Q) 0 (B.startState table) o) :
    B.Explored g scope o.causes o.last :=
  (h.history (B.Explored g scope) (fun _ _ _ _ _ hs hturn => explored_step hs (step_of_turn hturn))
    (explored_start B g scope table)).1

theorem tabled_of_ran (h : Retry.Ran (fun _ => B.turn g scope Q) 0 (B.startState table) o)
    (htable : Settled B.ranker g table) : B.Tabled g table o.causes o.last :=
  (h.history (B.Tabled g table) (fun _ _ _ _ _ hs hturn => tabled_step hs (step_of_turn hturn))
    (tabled_start htable)).1

/-- The last turn: the queue is empty, or a last report fills the results. -/
theorem ending_of_ran (h : Retry.Ran (fun _ => B.turn g scope Q) 0 (B.startState table) o) :
    (o.last.pq = [] ∧ o.result = ⟨o.last.results, o.last.maxEdgeRatio, false⟩) ∨
    ∃ node cycle, node ∈ o.last.pq ∧ B.reported scope node = some cycle ∧
      o.result = ⟨o.last.results ++ [cycle], o.last.maxEdgeRatio, true⟩ :=
  of_turn_done h.last_turn

end BeamCycleFinder

end Explored

end IronCrab.Arbitrage.CycleFinder

/-
  File:      IronCrab/Arbitrage/CycleFinder.lean
  Subject:   WHICH CYCLES THE SEARCH RETURNS (src/arbitrage/cycle_finder.rs), over runs of
             searches that share one table of ratios.

  * `Profitable` -- a simple cycle of the quoted graph that meets the threshold, stated without the
    search; `Admissible` -- its prefixes keep the bound that the greatest ratios give;
  * `trail_of_tree` -- the nodes of the search are the ways from the base, with the profit and the
    pools of the way;
  * **`find_cycles_sound`** -- what every search returns, whatever the queue, the beam and the table
    do;
  * **`calls_complete_iff`** -- two searches in a row, neither cut short, return every profitable
    cycle exactly when all of them are admissible.
-/
import IronCrab.Arbitrage.CycleSearch
import Mathlib.Data.List.Infix

namespace IronCrab.Arbitrage.CycleFinder

open Track (Pubkey)

/-! ## 1. Ways along tokens -/

/-- Where a way from `a` ends. -/
def endOf (a : Pubkey) (us : List Pubkey) : Pubkey := us.getLast?.getD a

theorem endOf_concat (a : Pubkey) (us : List Pubkey) (t : Pubkey) : endOf a (us ++ [t]) = t := by
  simp [endOf]

section Ways

variable {F : Type} [Floating F]

namespace BeamCycleFinder

variable (B : BeamCycleFinder F) (g : PoolGraph F)

/-- Every hop of a way from `a` has a ranked pool. -/
def Route (a : Pubkey) (us : List Pubkey) : Prop :=
  List.IsChain (fun a b => B.ranker.ranked g a b ≠ []) (a :: us)

/-- The clamped ratio of the best pool from one token to another. -/
def bestRatio (a b : Pubkey) : F :=
  ((B.ranker.ranked g a b).head?.map fun best => clampEdgeRatio best.edgeRatio).getD (Floating.lit 0)

/-- The profit multiplier along a way, capped after every hop. -/
def profitAlong (profit : F) (a : Pubkey) : List Pubkey → F
  | [] => profit
  | b :: us =>
      profitAlong (min (Floating.mul profit (B.bestRatio g a b)) maxCycleProfitMultiplier) b us

/-- The pools of a hop that a cycle carries: the best one and its alternatives. -/
def hopPools (a b : Pubkey) : List (PoolEdge F) :=
  ((B.ranker.ranked g a b).take B.config.poolAlternatives).map (·.edge)

/-- The pools along a way. -/
def poolsAlong (a : Pubkey) : List Pubkey → List (List (PoolEdge F))
  | [] => []
  | b :: us => B.hopPools g a b :: poolsAlong b us

variable {B g}

theorem route_nil (a : Pubkey) : B.Route g a [] := List.isChain_singleton a

theorem route_concat {a t : Pubkey} {us : List Pubkey} :
    B.Route g a (us ++ [t]) ↔ B.Route g a us ∧ B.ranker.ranked g (endOf a us) t ≠ [] := by
  unfold Route endOf
  rw [← List.cons_append, List.isChain_append]
  simp [List.getLast?_cons]

theorem route_of_append {a : Pubkey} {us vs : List Pubkey} (h : B.Route g a (us ++ vs)) :
    B.Route g a us := by
  unfold Route at h ⊢
  rw [← List.cons_append] at h
  exact h.left_of_append

theorem profitAlong_concat (profit : F) (a : Pubkey) (us : List Pubkey) (t : Pubkey) :
    B.profitAlong g profit a (us ++ [t]) =
      min (Floating.mul (B.profitAlong g profit a us) (B.bestRatio g (endOf a us) t))
        maxCycleProfitMultiplier := by
  induction us generalizing profit a with
  | nil => rfl
  | cons b us ih =>
      rw [List.cons_append, profitAlong, ih, profitAlong]
      congr 3
      cases us with
      | nil => rfl
      | cons c us => simp [endOf, List.getLast?_cons]

theorem poolsAlong_concat (a : Pubkey) (us : List Pubkey) (t : Pubkey) :
    B.poolsAlong g a (us ++ [t]) = B.poolsAlong g a us ++ [B.hopPools g (endOf a us) t] := by
  induction us generalizing a with
  | nil => rfl
  | cons b us ih =>
      rw [List.cons_append, poolsAlong, ih, poolsAlong, List.cons_append]
      congr 4
      cases us with
      | nil => rfl
      | cons c us => simp [endOf, List.getLast?_cons]

theorem bestRatio_nonneg (a b : Pubkey) : 0 ≤ Floating.value (B.bestRatio g a b) := by
  unfold bestRatio
  refine Floating.value_nonneg.mpr ?_
  cases (B.ranker.ranked g a b).head? with
  | none => exact le_refl _
  | some best => exact zero_le_clampEdgeRatio best.edgeRatio

/-- A profit multiplier is never negative. -/
theorem profitAlong_nonneg {profit : F} (h : 0 ≤ Floating.value profit) (a : Pubkey)
    (us : List Pubkey) : 0 ≤ Floating.value (B.profitAlong g profit a us) := by
  induction us generalizing profit a with
  | nil => exact h
  | cons b us ih =>
      refine ih (Floating.value_nonneg.mpr (le_min ?_ (Floating.lit_mono (by norm_num)))) b
      exact Floating.value_nonneg.mp (Floating.value_mul_nonneg h (bestRatio_nonneg a b))

end BeamCycleFinder

end Ways

/-! ## 2. The nodes of the search -/

section Nodes

variable {F : Type} [Floating F]

namespace BeamCycleFinder

variable (B : BeamCycleFinder F) (g : PoolGraph F) (scope : Option Scope)

/-- The node at the end of a way from the base. -/
def nodeAt (us : List Pubkey) : SearchNode F :=
  us.foldl (B.hop g) (SearchNode.start B.config.baseMint)

/-- The tokens between leaving the base and coming back. -/
structure Inner (ws : List Pubkey) : Prop where
  nodup : ws.Nodup
  base : B.config.baseMint ∉ ws
  entered : ∀ t ∈ ws, allows scope t = true

/-- **The ways the search may go**: out from the base over distinct tokens, and back. -/
inductive Trail : List Pubkey → Prop
  | out {ws : List Pubkey} (inner : B.Inner scope ws) (route : B.Route g B.config.baseMint ws)
      (short : ws.length ≤ B.config.maxHops) : Trail ws
  | back {ws : List Pubkey} (inner : B.Inner scope ws) (left : ws ≠ [])
      (route : B.Route g B.config.baseMint (ws ++ [B.config.baseMint]))
      (short : ws.length + 1 ≤ B.config.maxHops) : Trail (ws ++ [B.config.baseMint])

variable {B g scope}

theorem nodeAt_concat (us : List Pubkey) (t : Pubkey) :
    B.nodeAt g (us ++ [t]) = B.hop g (B.nodeAt g us) t := by
  simp [nodeAt]

theorem hop_profit {node : SearchNode F} {t : Pubkey} (h : B.ranker.ranked g node.token t ≠ []) :
    (B.hop g node t).profit = min (Floating.mul node.profit (B.bestRatio g node.token t))
      maxCycleProfitMultiplier := by
  unfold hop bestRatio
  cases hranked : B.ranker.ranked g node.token t with
  | nil => exact absurd hranked h
  | cons best rest => rfl

theorem hop_pools {node : SearchNode F} {t : Pubkey} (h : B.ranker.ranked g node.token t ≠ []) :
    (B.hop g node t).pools = node.pools ++ [B.hopPools g node.token t] := by
  unfold hop hopPools
  cases hranked : B.ranker.ranked g node.token t with
  | nil => exact absurd hranked h
  | cons best rest => rfl

/-- What a node at the end of a way is. -/
structure NodeOf (us : List Pubkey) (node : SearchNode F) : Prop where
  token : node.token = endOf B.config.baseMint us
  path : node.path = B.config.baseMint :: us
  depth : node.depth = us.length
  visited : node.visited = (B.config.baseMint :: us).toFinset
  profit : node.profit = B.profitAlong g (Floating.lit 1) B.config.baseMint us
  pools : node.pools = B.poolsAlong g B.config.baseMint us

/-- **The node at the end of a way carries the way.** -/
theorem nodeAt_spec {us : List Pubkey} (h : B.Route g B.config.baseMint us) :
    NodeOf (B := B) (g := g) us (B.nodeAt g us) := by
  induction us using List.reverseRecOn with
  | nil => exact ⟨rfl, rfl, rfl, rfl, rfl, rfl⟩
  | append_singleton us t ih =>
      obtain ⟨hroute, hranked⟩ := route_concat.mp h
      have hus := ih hroute
      rw [← hus.token] at hranked
      rw [nodeAt_concat]
      refine ⟨?_, ?_, ?_, ?_, ?_, ?_⟩
      · rw [hop_token hranked, endOf_concat]
      · rw [hop_path hranked, hus.path]
        rfl
      · rw [hop_depth hranked, hus.depth, List.length_append, List.length_singleton]
      · rw [hop_visited hranked, hus.visited]
        ext u
        simp
        tauto
      · rw [hop_profit hranked, hus.profit, hus.token, profitAlong_concat]
      · rw [hop_pools hranked, hus.pools, hus.token, poolsAlong_concat]

theorem endOf_inner {ws : List Pubkey} (h : B.config.baseMint ∉ ws) (hne : ws ≠ []) :
    endOf B.config.baseMint ws ≠ B.config.baseMint := by
  intro heq
  unfold endOf at heq
  rw [List.getLast?_eq_some_getLast hne, Option.getD_some] at heq
  exact h (heq ▸ List.getLast_mem hne)

/-- On the way out a node is not back at the base. -/
theorem isClosed_out {ws : List Pubkey} (hbase : B.config.baseMint ∉ ws)
    (hroute : B.Route g B.config.baseMint ws) : B.isClosed (B.nodeAt g ws) = false := by
  have hnode := nodeAt_spec hroute
  unfold isClosed
  rw [hnode.depth, hnode.token]
  by_cases hne : ws = []
  · simp [hne]
  · simp [endOf_inner hbase hne]

theorem isClosed_back {ws : List Pubkey}
    (hroute : B.Route g B.config.baseMint (ws ++ [B.config.baseMint])) :
    B.isClosed (B.nodeAt g (ws ++ [B.config.baseMint])) = true := by
  have hnode := nodeAt_spec hroute
  unfold isClosed
  rw [hnode.depth, hnode.token, endOf_concat]
  simp

theorem not_mem_of_trail {us : List Pubkey} (h : B.Trail g scope us)
    (hopen : B.isClosed (B.nodeAt g us) = false) : B.Inner scope us ∧
      B.Route g B.config.baseMint us := by
  cases h with
  | out inner route short => exact ⟨inner, route⟩
  | back inner left route short =>
      rw [isClosed_back route] at hopen
      cases hopen

/-- **Every node of the search stands at the end of a trail.** -/
theorem trail_of_tree {node : SearchNode F} (h : B.Tree g scope node) :
    ∃ us, B.Trail g scope us ∧ node = B.nodeAt g us := by
  induction h with
  | start =>
      refine ⟨[], .out ⟨List.nodup_nil, List.not_mem_nil, fun t ht => absurd ht List.not_mem_nil⟩
        (route_nil _) (Nat.zero_le _), rfl⟩
  | @child node child _ hopen hdepth hmem ih =>
      obtain ⟨us, htrail, rfl⟩ := ih
      obtain ⟨hinner, hroute⟩ := not_mem_of_trail htrail hopen
      have hnode := nodeAt_spec hroute
      obtain ⟨_, t, hskip, hranked, rfl⟩ := mem_children.mp hmem
      have hroute' : B.Route g B.config.baseMint (us ++ [t]) := by
        rw [hnode.token] at hranked
        exact route_concat.mpr ⟨hroute, hranked⟩
      rw [hnode.depth] at hdepth
      refine ⟨us ++ [t], ?_, (nodeAt_concat us t).symm⟩
      unfold isSkipped at hskip
      rw [hnode.depth, hnode.visited] at hskip
      by_cases ht : t = B.config.baseMint
      · subst ht
        have hne : us ≠ [] := by
          intro hnil
          simp [hnil] at hskip
        exact .back hinner hne hroute' hdepth
      · simp [ht] at hskip
        refine .out ⟨?_, ?_, ?_⟩ hroute' ?_
        · rw [List.nodup_append]
          refine ⟨hinner.nodup, List.nodup_singleton t, fun a ha b hb he => hskip.1 ?_⟩
          rw [← List.mem_singleton.mp hb, ← he]
          exact ha
        · intro hmem
          rcases List.mem_append.mp hmem with hmem | hmem
          · exact hinner.base hmem
          · exact ht (List.mem_singleton.mp hmem).symm
        · intro u hu
          rcases List.mem_append.mp hu with hu | hu
          · exact hinner.entered u hu
          · rw [List.mem_singleton.mp hu]
            exact hskip.2
        · rw [List.length_append, List.length_singleton]
          exact hdepth

/-- One token further out is a child. -/
theorem child_out {us : List Pubkey} {t : Pubkey} (hkept : 0 < B.config.poolAlternatives)
    (hinner : B.Inner scope (us ++ [t])) (hroute : B.Route g B.config.baseMint (us ++ [t])) :
    B.nodeAt g (us ++ [t]) ∈ B.children g scope (B.nodeAt g us) := by
  obtain ⟨hus, hranked⟩ := route_concat.mp hroute
  have hnode := nodeAt_spec hus
  rw [← hnode.token] at hranked
  refine mem_children.mpr ⟨hkept, t, ?_, hranked, nodeAt_concat us t⟩
  have ht : t ∉ us := by
    intro hmem
    have hnodup := List.nodup_append.mp hinner.nodup
    exact hnodup.2.2 t hmem t (List.mem_singleton_self t) rfl
  have hbase : t ≠ B.config.baseMint := by
    rintro rfl
    exact hinner.base (List.mem_append_right _ (List.mem_singleton_self _))
  have hallows := hinner.entered t (List.mem_append_right _ (List.mem_singleton_self t))
  unfold isSkipped
  rw [hnode.visited]
  simp [ht, hbase, hallows]

/-- From any token but the base, the way back is a child. -/
theorem child_back {ws : List Pubkey} (hkept : 0 < B.config.poolAlternatives) (hne : ws ≠ [])
    (hroute : B.Route g B.config.baseMint (ws ++ [B.config.baseMint])) :
    B.nodeAt g (ws ++ [B.config.baseMint]) ∈ B.children g scope (B.nodeAt g ws) := by
  obtain ⟨hws, hranked⟩ := route_concat.mp hroute
  have hnode := nodeAt_spec hws
  rw [← hnode.token] at hranked
  refine mem_children.mpr ⟨hkept, B.config.baseMint, ?_, hranked, nodeAt_concat ws _⟩
  have hpos := List.length_pos_iff.mpr hne
  unfold isSkipped
  rw [hnode.depth]
  simp [hpos]

end BeamCycleFinder

end Nodes

/-! ## 3. What is reported -/

section Reports

variable {F : Type} [Floating F]

namespace BeamCycleFinder

variable (B : BeamCycleFinder F) (g : PoolGraph F) (scope : Option Scope)

/-- The path of a cycle over these tokens. -/
def tour (ws : List Pubkey) : List Pubkey := B.config.baseMint :: (ws ++ [B.config.baseMint])

/-- **A profitable cycle of the quoted graph**: simple, within the hops, every hop with a ranked
    pool, and the profit along the best pools at the threshold or above. -/
structure Profitable (ws : List Pubkey) : Prop where
  left : ws ≠ []
  nodup : ws.Nodup
  base : B.config.baseMint ∉ ws
  short : ws.length + 1 ≤ B.config.maxHops
  route : B.Route g B.config.baseMint (ws ++ [B.config.baseMint])
  profit : B.minProfitMultiplier ≤
    B.profitAlong g (Floating.lit 1) B.config.baseMint (ws ++ [B.config.baseMint])

/-- The cycle stays in the scope and passes one of its tokens. -/
def InScope (ws : List Pubkey) : Prop :=
  (∀ t ∈ ws, allows scope t = true) ∧ passes scope (B.tour ws) = true

/-- The `ArbCycle` of a cycle. -/
def cycleAt (ws : List Pubkey) : ArbCycle F :=
  let node := B.nodeAt g (ws ++ [B.config.baseMint])
  let profit := B.profitAlong g (Floating.lit 1) B.config.baseMint (ws ++ [B.config.baseMint])
  { path := B.tour ws
    pools := B.poolsAlong g B.config.baseMint (ws ++ [B.config.baseMint])
    estimatedReturnBps := (profitToReturnBps profit).1
    minLiquidityUsd := node.minLiquidity
    profitMultiplierCapped := node.profitMultiplierCapped
    returnBpsSaturated := (profitToReturnBps profit).2 || node.profitMultiplierCapped
    edgeRatioClamped := node.edgeRatioClamped }

variable {B g scope} {ws : List Pubkey}

theorem Profitable.inner (h : B.Profitable g ws) (hscope : B.InScope scope ws) :
    B.Inner scope ws := ⟨h.nodup, h.base, hscope.1⟩

theorem toArbCycle_back (hne : ws ≠ [])
    (hroute : B.Route g B.config.baseMint (ws ++ [B.config.baseMint])) :
    (B.nodeAt g (ws ++ [B.config.baseMint])).toArbCycle = some (B.cycleAt g ws) := by
  have hnode := nodeAt_spec hroute
  have hpos := List.length_pos_iff.mpr hne
  unfold SearchNode.toArbCycle cycleAt tour
  rw [hnode.path, hnode.profit, hnode.pools, if_neg]
  intro h
  rcases h with hshort | hends
  · simp at hshort
    omega
  · simp [List.getLast?_cons] at hends

/-- Every hop of a way has the quote that its best pool was ranked by. -/
theorem all_quoted (hkept : 0 < B.config.poolAlternatives) (a : Pubkey) (us : List Pubkey)
    (h : B.Route g a us) :
    ((B.poolsAlong g a us).zip ((a :: us).zip us)).all (fun hop =>
      match hop.1.head? with
      | none => false
      | some primary =>
          B.ranker.hopHasCachedQuote primary.poolAddress primary.dex hop.2.1 hop.2.2) = true := by
  induction us generalizing a with
  | nil => rfl
  | cons b us ih =>
      obtain ⟨hranked, hroute⟩ := List.isChain_cons_cons.mp h
      rw [poolsAlong, List.zip_cons_cons, List.zip_cons_cons, List.all_cons, ih b hroute,
        Bool.and_true]
      obtain ⟨n, hn⟩ := Nat.exists_eq_succ_of_ne_zero (Nat.ne_of_gt hkept)
      unfold hopPools
      rw [hn]
      cases hpools : B.ranker.ranked g a b with
      | nil => exact absurd hpools hranked
      | cons best rest =>
          have hbest : best ∈ B.ranker.ranked g a b := by
            rw [hpools]
            exact List.mem_cons_self
          exact PoolRanker.hopHasCachedQuote_of_ranked hbest

/-- The gate on quotes lets every cycle through that was found under the same quotes. -/
theorem cycleAllHopsQuoted_cycleAt (hkept : 0 < B.config.poolAlternatives)
    (hroute : B.Route g B.config.baseMint (ws ++ [B.config.baseMint])) :
    B.cycleAllHopsQuoted (B.cycleAt g ws) = true := all_quoted hkept _ _ hroute

/-- **A profitable cycle in scope is reported when its node is visited.** -/
theorem reported_back (hkept : 0 < B.config.poolAlternatives) (h : B.Profitable g ws)
    (hscope : B.InScope scope ws) :
    B.reported scope (B.nodeAt g (ws ++ [B.config.baseMint])) = some (B.cycleAt g ws) := by
  have hnode := nodeAt_spec h.route
  unfold reported report
  rw [if_pos (isClosed_back h.route), hnode.profit, if_neg (not_lt.mpr h.profit), hnode.path]
  have hpasses : passes scope (B.config.baseMint :: (ws ++ [B.config.baseMint])) = true := hscope.2
  rw [if_pos hpasses, toArbCycle_back h.left h.route,
    Option.filter_some_pos (cycleAllHopsQuoted_cycleAt hkept h.route)]

/-- **Only profitable cycles in scope are reported.** -/
theorem of_reported {node : SearchNode F} {cycle : ArbCycle F} (htree : B.Tree g scope node)
    (h : B.reported scope node = some cycle) :
    ∃ ws, B.Profitable g ws ∧ B.InScope scope ws ∧
      node = B.nodeAt g (ws ++ [B.config.baseMint]) ∧ cycle = B.cycleAt g ws := by
  obtain ⟨us, htrail, rfl⟩ := trail_of_tree htree
  unfold reported at h
  cases htrail with
  | out inner route short =>
      rw [isClosed_out inner.base route] at h
      cases h
  | @back ws inner left route short =>
      have hnode := nodeAt_spec route
      rw [if_pos (isClosed_back route)] at h
      unfold report at h
      rw [hnode.profit] at h
      split at h
      · cases h
      · split at h
        · rw [hnode.path] at *
          rw [toArbCycle_back left route] at h
          obtain ⟨heq, _⟩ := Option.filter_eq_some_iff.mp h
          refine ⟨ws, ⟨left, inner.nodup, inner.base, short, route, not_lt.mp ‹_›⟩,
            ⟨inner.entered, ‹_›⟩, rfl, (Option.some.inj heq).symm⟩
        · cases h

end BeamCycleFinder

end Reports

/-! ## 4. A search -/

section Search

variable {F : Type} [Floating F]

namespace BeamCycleFinder

variable {B : BeamCycleFinder F} {g : PoolGraph F} {scope : Option Scope}
  {Q : PriorityQueue (SearchNode.score : SearchNode F → F)} {table : MaxEdgeRatios F}
  {o : Retry.Outcome (Visit F) (SearchState F) (Ending F)} {cycle : ArbCycle F}

/-- The search runs, and `find_cycles_inner` gives what it ends with. -/
theorem findCyclesInner_ran (B : BeamCycleFinder F) (g : PoolGraph F) (scope : Option Scope)
    (Q : PriorityQueue (SearchNode.score : SearchNode F → F)) (table : MaxEdgeRatios F) :
    ∃ o, Retry.Ran (fun _ => B.turn g scope Q) 0 (B.startState table) o ∧
      B.runSearch g scope Q table = some o ∧
      (B.findCyclesInner g scope Q table).1 =
        o.result.results.insertionSort (fun a b => b.estimatedReturnBps ≤ a.estimatedReturnBps) ∧
      (B.findCyclesInner g scope Q table).2 = o.result.maxEdgeRatio := by
  obtain ⟨o, hran, hrun⟩ := search_ran B g scope Q table
  refine ⟨o, hran, hrun, ?_, ?_⟩
  · unfold findCyclesInner
    rw [hrun]
  · unfold findCyclesInner
    rw [hrun]

/-- **What a search returns was reported of a node it knows.** -/
theorem of_mem_results (h : Retry.Ran (fun _ => B.turn g scope Q) 0 (B.startState table) o)
    (hcycle : cycle ∈ o.result.results) :
    ∃ node ∈ known o.causes o.last, B.reported scope node = some cycle := by
  have hexplored := explored_of_ran h
  have hvisited : cycle ∈ o.last.results →
      ∃ node ∈ known o.causes o.last, B.reported scope node = some cycle := by
    intro hmem
    rw [hexplored.results] at hmem
    obtain ⟨visit, hvisit, hreported⟩ := List.mem_filterMap.mp hmem
    exact ⟨visit.node, List.mem_append_left _ (List.mem_map_of_mem hvisit), hreported⟩
  rcases ending_of_ran h with ⟨_, hresult⟩ | ⟨node, last, hnode, hreported, hresult⟩
  · rw [hresult] at hcycle
    exact hvisited hcycle
  · rw [hresult] at hcycle
    rcases List.mem_append.mp hcycle with hcycle | hcycle
    · exact hvisited hcycle
    · rw [List.mem_singleton.mp hcycle]
      exact ⟨node, List.mem_append_right _ hnode, hreported⟩

/-- A report carries the path of its node. -/
theorem path_of_reported {node : SearchNode F} (h : B.reported scope node = some cycle) :
    cycle.path = node.path := by
  unfold reported report at h
  split at h
  · split at h
    · cases h
    · split at h
      · obtain ⟨heq, _⟩ := Option.filter_eq_some_iff.mp h
        unfold SearchNode.toArbCycle at heq
        split at heq
        · cases heq
        · rw [← Option.some.inj heq]
      · cases h
  · cases h

/-- The paths a search returns are distinct. -/
theorem nodup_results (h : Retry.Ran (fun _ => B.turn g scope Q) 0 (B.startState table) o) :
    (o.result.results.map (·.path)).Nodup := by
  have hexplored := explored_of_ran h
  have hpaths := hexplored.paths
  unfold known at hpaths
  rw [List.map_append, List.nodup_append] at hpaths
  have hsub : (o.last.results.map (·.path)).Sublist ((o.causes.map (·.node)).map (·.path)) := by
    rw [hexplored.results, List.map_map]
    exact Keyed.sublist_map_filterMap fun visit _ cycle hcycle => path_of_reported hcycle
  rcases ending_of_ran h with ⟨_, hresult⟩ | ⟨node, last, hnode, hreported, hresult⟩
  · rw [hresult]
    exact hpaths.1.sublist hsub
  · rw [hresult, List.map_append, List.nodup_append]
    refine ⟨hpaths.1.sublist hsub, List.nodup_singleton _, fun p hp q hq => ?_⟩
    rw [List.map_singleton, List.mem_singleton, path_of_reported hreported] at hq
    exact hq ▸ hpaths.2.2 p (hsub.subset hp) _ (List.mem_map_of_mem hnode)

theorem length_results_le (h : Retry.Ran (fun _ => B.turn g scope Q) 0 (B.startState table) o) :
    o.result.results.length ≤ max 1 B.config.maxResults := by
  have hfew := (explored_of_ran h).few
  have hlast : o.last.results.length < max 1 B.config.maxResults := by
    rcases hfew with hfew | hnil
    · exact lt_of_lt_of_le hfew (Nat.le_max_right _ _)
    · rw [hnil]
      exact Nat.le_max_left _ _
  rcases ending_of_ran h with ⟨_, hresult⟩ | ⟨node, last, _, _, hresult⟩
  · rw [hresult]
    exact Nat.le_of_lt hlast
  · rw [hresult, List.length_append]
    exact hlast

/-- **WHAT EVERY SEARCH RETURNS.** Whatever queue, beam and table a search works with, it ends, and
    each cycle it returns is a simple cycle from the base and back within the hops, over pools of the
    graph that are ready and quoted, in scope and at the threshold or above, with the profit of its
    best pools as the estimate; no path is returned twice, the cycles come by estimate, highest
    first, and there are no more of them than asked for. -/
theorem find_cycles_sound (B : BeamCycleFinder F) (g : PoolGraph F) (scope : Option Scope)
    (Q : PriorityQueue (SearchNode.score : SearchNode F → F)) (table : MaxEdgeRatios F) :
    let cycles := (B.findCyclesInner g scope Q table).1
    (B.runSearch g scope Q table).isSome = true ∧
    (∀ cycle ∈ cycles, ∃ ws, B.Profitable g ws ∧ B.InScope scope ws ∧
      cycle.path = B.tour ws ∧
      cycle.pools = B.poolsAlong g B.config.baseMint (ws ++ [B.config.baseMint]) ∧
      cycle.estimatedReturnBps = (profitToReturnBps
        (B.profitAlong g (Floating.lit 1) B.config.baseMint (ws ++ [B.config.baseMint]))).1) ∧
    (cycles.map (·.path)).Nodup ∧
    cycles.Pairwise (fun a b => b.estimatedReturnBps ≤ a.estimatedReturnBps) ∧
    cycles.length ≤ max 1 B.config.maxResults := by
  obtain ⟨o, hran, hrun, hcycles, _⟩ := findCyclesInner_ran B g scope Q table
  dsimp only
  rw [hcycles]
  refine ⟨by rw [hrun]; rfl, ?_, ?_, ?_, ?_⟩
  · intro cycle hcycle
    obtain ⟨node, hnode, hreported⟩ := of_mem_results hran ((List.mem_insertionSort _).mp hcycle)
    obtain ⟨ws, hprofitable, hscope, _, rfl⟩ :=
      of_reported ((explored_of_ran hran).tree node hnode) hreported
    exact ⟨ws, hprofitable, hscope, rfl, rfl, rfl⟩
  · exact ((List.perm_insertionSort _ _).map _).nodup_iff.mpr (nodup_results hran)
  · have htotal : Std.Total fun a b : ArbCycle F => b.estimatedReturnBps ≤ a.estimatedReturnBps :=
      ⟨fun a b => le_total _ _⟩
    have htrans : IsTrans (ArbCycle F) fun a b => b.estimatedReturnBps ≤ a.estimatedReturnBps :=
      ⟨fun a b c hab hbc => hbc.trans hab⟩
    exact List.pairwise_insertionSort _ _
  · rw [List.length_insertionSort]
    exact length_results_le hran

end BeamCycleFinder

end Search

/-! ## 5. Searches that are not cut short -/

section Uncut

variable {F : Type} [Floating F]

namespace BeamCycleFinder

variable (B : BeamCycleFinder F) (g : PoolGraph F)
  (Q : PriorityQueue (SearchNode.score : SearchNode F → F))

/-- Neither the beam nor the limit of results cut the search short. -/
def isUncut (scope : Option Scope) (table : MaxEdgeRatios F) : Bool :=
  match B.runSearch g scope Q table with
  | none => false
  | some o => !o.result.stopped && o.log.all fun entry => !entry.1.refused

/-- The table of ratios that a history of searches leaves, from the empty one. -/
def tableAfter (history : List (Option Scope)) : MaxEdgeRatios F :=
  history.foldl (fun table scope => (B.findCyclesInner g scope Q table).2) ∅

/-- **Every prefix of every profitable cycle keeps the bound**: its profit, times the greatest ratio
    out of its last token to the power of the hops left, reaches the threshold. -/
def Admissible : Prop :=
  ∀ ws, B.Profitable g ws → ∀ pre post, ws = pre ++ post →
    B.minProfitMultiplier ≤
      Floating.mul (B.profitAlong g (Floating.lit 1) B.config.baseMint pre)
        (Floating.powi (maxRatio B.ranker g (endOf B.config.baseMint pre))
          (B.config.maxHops - pre.length))

/-- Every profitable cycle is among these. -/
def Complete (cycles : List (ArbCycle F)) : Prop :=
  ∀ ws, B.Profitable g ws → ∃ cycle ∈ cycles, cycle.path = B.tour ws

variable {B g Q} {scope : Option Scope} {table : MaxEdgeRatios F}
  {o : Retry.Outcome (Visit F) (SearchState F) (Ending F)} {ws : List Pubkey}

/-- **A history of searches leaves a settled table.** -/
theorem settled_tableAfter (history : List (Option Scope)) :
    Settled B.ranker g (B.tableAfter g Q history) := by
  induction history using List.reverseRecOn with
  | nil => exact settled_empty
  | append_singleton history scope ih =>
      obtain ⟨o, hran, _, _, htable⟩ :=
        findCyclesInner_ran B g scope Q (B.tableAfter g Q history)
      have hafter : B.tableAfter g Q (history ++ [scope]) = o.result.maxEdgeRatio := by
        unfold tableAfter at htable ⊢
        rw [List.foldl_append, List.foldl_cons, List.foldl_nil, htable]
      rw [hafter]
      have hlast := (tabled_of_ran hran ih).settled
      rcases ending_of_ran hran with ⟨_, hresult⟩ | ⟨_, _, _, _, hresult⟩
      · rw [hresult]
        exact hlast
      · rw [hresult]
        exact hlast

/-- What an uncut search leaves: nothing waits, and no visit refused a child. -/
structure Finished (o : Retry.Outcome (Visit F) (SearchState F) (Ending F)) : Prop where
  queue : o.last.pq = []
  result : o.result = ⟨o.last.results, o.last.maxEdgeRatio, false⟩
  taken : ∀ visit ∈ o.causes, visit.refused = false

theorem finished_of_uncut (hran : Retry.Ran (fun _ => B.turn g scope Q) 0 (B.startState table) o)
    (hrun : B.runSearch g scope Q table = some o) (h : B.isUncut g Q scope table = true) :
    Finished o := by
  unfold isUncut at h
  rw [hrun] at h
  simp only [Bool.and_eq_true, Bool.not_eq_true', List.all_eq_true] at h
  obtain ⟨hstopped, hrefused⟩ := h
  rcases ending_of_ran hran with ⟨hqueue, hresult⟩ | ⟨_, _, _, _, hresult⟩
  · refine ⟨hqueue, hresult, fun visit hvisit => ?_⟩
    obtain ⟨entry, hentry, rfl⟩ := List.mem_map.mp hvisit
    exact hrefused entry hentry
  · rw [hresult] at hstopped
    cases hstopped

/-- A node is determined by its path. -/
theorem eq_nodeAt {node : SearchNode F} (h : B.Tree g scope node) {us : List Pubkey}
    (hpath : node.path = B.config.baseMint :: us) : node = B.nodeAt g us := by
  obtain ⟨vs, htrail, rfl⟩ := trail_of_tree h
  have hroute : B.Route g B.config.baseMint vs := by
    cases htrail with
    | out _ route _ => exact route
    | back _ _ route _ => exact route
  rw [(nodeAt_spec hroute).path] at hpath
  rw [(List.cons.inj hpath).2]

/-- **A known node was pushed when the node before it was expanded.** -/
theorem expanded_before
    (hran : Retry.Ran (fun _ => B.turn g scope Q) 0 (B.startState table) o) {us : List Pubkey}
    {t : Pubkey} (hroute : B.Route g B.config.baseMint (us ++ [t]))
    (h : B.nodeAt g (us ++ [t]) ∈ known o.causes o.last) :
    ∃ visit ∈ o.causes, visit.node = B.nodeAt g us ∧ B.Expands visit.table visit.node := by
  have hexplored := explored_of_ran hran
  have hpath := (nodeAt_spec hroute).path
  rcases hexplored.parent _ h with hstart | ⟨visit, hvisit, hexpands, u, hu⟩
  · rw [hpath] at hstart
    simp at hstart
  · rw [hpath, ← List.cons_append] at hu
    have hparent : visit.node.path = B.config.baseMint :: us :=
      (List.append_inj_left' hu rfl).symm
    have hknown : visit.node ∈ known o.causes o.last :=
      List.mem_append_left _ (List.mem_map_of_mem hvisit)
    exact ⟨visit, hvisit, eq_nodeAt (hexplored.tree _ hknown) hparent, hexpands⟩

/-- Once a node is known every node on the way to it was expanded. -/
theorem expanded_on_way
    (hran : Retry.Ran (fun _ => B.turn g scope Q) 0 (B.startState table) o) {pre : List Pubkey}
    (post : List Pubkey) (hne : post ≠ []) (hroute : B.Route g B.config.baseMint (pre ++ post))
    (h : B.nodeAt g (pre ++ post) ∈ known o.causes o.last) :
    ∃ visit ∈ o.causes, visit.node = B.nodeAt g pre ∧ B.Expands visit.table visit.node := by
  induction post using List.reverseRecOn with
  | nil => exact absurd rfl hne
  | append_singleton post t ih =>
      rw [← List.append_assoc] at hroute h
      obtain ⟨visit, hvisit, hnode, hexpands⟩ := expanded_before hran hroute h
      by_cases hpost : post = []
      · subst hpost
        rw [List.append_nil] at hnode
        exact ⟨visit, hvisit, hnode, hexpands⟩
      · refine ih hpost (route_of_append hroute) ?_
        rw [← hnode]
        exact List.mem_append_left _ (List.mem_map_of_mem hvisit)

/-- **When every node on the way out is expanded, all of them are visited.** -/
theorem visited_out (hkept : 0 < B.config.poolAlternatives)
    (hran : Retry.Ran (fun _ => B.turn g scope Q) 0 (B.startState table) o) (hfinished : Finished o)
    (hinner : B.Inner scope ws) (hroute : B.Route g B.config.baseMint ws)
    (hexpands : ∀ visit ∈ o.causes, ∀ pre post, ws = pre ++ post →
      visit.node = B.nodeAt g pre → B.Expands visit.table visit.node) :
    ∃ visit ∈ o.causes, visit.node = B.nodeAt g ws := by
  have hexplored := explored_of_ran hran
  have hvisited : ∀ node, node ∈ known o.causes o.last → ∃ visit ∈ o.causes, visit.node = node := by
    intro node hnode
    unfold known at hnode
    rw [hfinished.queue, List.append_nil] at hnode
    exact List.mem_map.mp hnode
  induction ws using List.reverseRecOn with
  | nil => exact hvisited _ hexplored.start
  | append_singleton ws t ih =>
      have hbefore : B.Inner scope ws :=
        ⟨(List.nodup_append.mp hinner.nodup).1,
          fun h => hinner.base (List.mem_append_left _ h),
          fun u hu => hinner.entered u (List.mem_append_left _ hu)⟩
      obtain ⟨visit, hvisit, hnode⟩ := ih hbefore (route_of_append hroute) (by
        intro visit hvisit pre post hsplit
        refine hexpands visit hvisit pre (post ++ [t]) ?_
        rw [hsplit, List.append_assoc])
      have hchild := child_out hkept hinner hroute
      rw [← hnode] at hchild
      exact hvisited _ (hexplored.covered visit hvisit (hexpands visit hvisit ws [t] rfl hnode)
        (hfinished.taken visit hvisit) _ hchild)

/-- **A profitable cycle is returned when every node on its way is expanded.** -/
theorem returned_of_expanded (hkept : 0 < B.config.poolAlternatives)
    (hran : Retry.Ran (fun _ => B.turn g scope Q) 0 (B.startState table) o) (hfinished : Finished o)
    (h : B.Profitable g ws) (hscope : B.InScope scope ws)
    (hexpands : ∀ visit ∈ o.causes, ∀ pre post, ws = pre ++ post →
      visit.node = B.nodeAt g pre → B.Expands visit.table visit.node) :
    B.cycleAt g ws ∈ o.result.results := by
  have hexplored := explored_of_ran hran
  obtain ⟨visit, hvisit, hnode⟩ := visited_out hkept hran hfinished (h.inner hscope)
    (route_of_append h.route) hexpands
  have hchild : B.nodeAt g (ws ++ [B.config.baseMint]) ∈ B.children g scope (B.nodeAt g ws) :=
    child_back hkept h.left h.route
  rw [← hnode] at hchild
  have hknown := hexplored.covered visit hvisit
    (hexpands visit hvisit ws [] (List.append_nil ws).symm hnode) (hfinished.taken visit hvisit) _
    hchild
  unfold known at hknown
  rw [hfinished.queue, List.append_nil] at hknown
  obtain ⟨last, hlast, hback⟩ := List.mem_map.mp hknown
  rw [hfinished.result, hexplored.results]
  refine List.mem_filterMap.mpr ⟨last, hlast, ?_⟩
  rw [hback]
  exact reported_back hkept h hscope

/-- The bound of a node on the way out, under some table. -/
theorem upperBound_nodeAt {us : List Pubkey} (h : B.Route g B.config.baseMint us)
    (table : MaxEdgeRatios F) :
    B.upperBound table (B.nodeAt g us) =
      Floating.mul (B.profitAlong g (Floating.lit 1) B.config.baseMint us)
        (Floating.powi (maxEdgeRatioFor table (endOf B.config.baseMint us))
          (B.config.maxHops - us.length)) := by
  have hnode := nodeAt_spec h
  unfold upperBound computeUpperBound
  rw [hnode.profit, hnode.token, hnode.depth]

/-- **Under a settled table the prefixes of an admissible cycle are expanded.** -/
theorem expands_of_admissible (hadmissible : B.Admissible g) (h : B.Profitable g ws)
    {pre post : List Pubkey} (hsplit : ws = pre ++ post) (hsettled : Settled B.ranker g table) :
    B.Expands table (B.nodeAt g pre) := by
  have hroute : B.Route g B.config.baseMint pre := by
    have hws := route_of_append h.route
    rw [hsplit] at hws
    exact route_of_append hws
  have hbase : B.config.baseMint ∉ pre := fun hmem =>
    h.base (hsplit ▸ List.mem_append_left _ hmem)
  refine ⟨isClosed_out hbase hroute, ?_, ?_⟩
  · have hshort := h.short
    rw [hsplit, List.length_append] at hshort
    rw [(nodeAt_spec hroute).depth]
    omega
  · rw [upperBound_nodeAt hroute]
    refine (hadmissible ws h pre post hsplit).trans ?_
    have hprofit : 0 ≤ Floating.value (B.profitAlong g (Floating.lit 1) B.config.baseMint pre) :=
      profitAlong_nonneg (Floating.value_nonneg.mpr (Floating.lit_mono (by norm_num))) _ _
    refine Floating.mul_mono_right hprofit (Floating.powi_mono _ _ _ ?_ ?_)
    · exact Floating.value_nonneg.mpr (zero_le_maxRatio _)
    · exact hsettled.le_maxEdgeRatioFor _

/-- **With admissible cycles an uncut search returns every profitable cycle in scope.** -/
theorem returned_of_admissible (hkept : 0 < B.config.poolAlternatives)
    (hadmissible : B.Admissible g) (hsettled : Settled B.ranker g table)
    (hran : Retry.Ran (fun _ => B.turn g scope Q) 0 (B.startState table) o) (hfinished : Finished o)
    (h : B.Profitable g ws) (hscope : B.InScope scope ws) :
    B.cycleAt g ws ∈ o.result.results := by
  refine returned_of_expanded hkept hran hfinished h hscope ?_
  intro visit hvisit pre post hsplit hnode
  rw [hnode]
  exact expands_of_admissible hadmissible h hsplit
    ((tabled_of_ran hran hsettled).bounded visit hvisit).1

/-- A returned path is that of a known node, which is back at the base. -/
theorem known_of_returned (hran : Retry.Ran (fun _ => B.turn g scope Q) 0 (B.startState table) o)
    {cycle : ArbCycle F} (hcycle : cycle ∈ o.result.results) (hpath : cycle.path = B.tour ws) :
    B.nodeAt g (ws ++ [B.config.baseMint]) ∈ known o.causes o.last := by
  obtain ⟨node, hnode, hreported⟩ := of_mem_results hran hcycle
  rw [path_of_reported hreported] at hpath
  rw [← eq_nodeAt ((explored_of_ran hran).tree node hnode) hpath]
  exact hnode

/-- A token with a ranked pool has ratios to be bounded by. -/
theorem maxEdgeUpdates_ne_nil {a b : Pubkey} (h : B.ranker.ranked g a b ≠ []) :
    B.ranker.maxEdgeUpdates g a ≠ [] := by
  obtain ⟨pool, hpool⟩ := List.exists_mem_of_ne_nil _ h
  exact List.ne_nil_of_mem (PoolRanker.mem_maxEdgeUpdates.mpr ⟨b, pool, hpool, rfl⟩)

/-- **A search that returns a profitable cycle puts the tokens on its way into the table.** -/
theorem entered_of_returned (hsettled : Settled B.ranker g table)
    (hran : Retry.Ran (fun _ => B.turn g scope Q) 0 (B.startState table) o)
    (h : B.Profitable g ws) {cycle : ArbCycle F} (hcycle : cycle ∈ o.result.results)
    (hpath : cycle.path = B.tour ws) {pre post : List Pubkey} (hsplit : ws = pre ++ post) :
    (o.last.maxEdgeRatio.lookup (endOf B.config.baseMint pre)).isSome = true ∧
      ∃ visit ∈ o.causes, visit.node = B.nodeAt g pre ∧ B.Expands visit.table visit.node := by
  have hknown := known_of_returned hran hcycle hpath
  have hroute := h.route
  rw [hsplit, List.append_assoc] at hroute hknown
  have hne : post ++ [B.config.baseMint] ≠ [] := by simp
  obtain ⟨visit, hvisit, hnode, hexpands⟩ := expanded_on_way hran _ hne hroute hknown
  refine ⟨?_, visit, hvisit, hnode, hexpands⟩
  have hpre := route_of_append hroute
  have htoken : visit.node.token = endOf B.config.baseMint pre := by
    rw [hnode]
    exact (nodeAt_spec hpre).token
  obtain ⟨t, rest, hnext⟩ := List.exists_cons_of_ne_nil hne
  have hranked : B.ranker.ranked g (endOf B.config.baseMint pre) t ≠ [] := by
    rw [hnext, List.append_cons] at hroute
    exact (route_concat.mp (route_of_append hroute)).2
  have hentered := (tabled_of_ran hran hsettled).entered visit hvisit hexpands
  rw [htoken] at hentered
  exact hentered (maxEdgeUpdates_ne_nil hranked)

/-- **TWO SEARCHES IN A ROW.** After any history of searches of one graph under the same quotes, of
    two full searches that are not cut short, both return every profitable cycle if and only if every
    prefix of every profitable cycle keeps the bound that the greatest ratio out of its last token
    gives. -/
theorem calls_complete_iff (B : BeamCycleFinder F) (g : PoolGraph F)
    (Q : PriorityQueue (SearchNode.score : SearchNode F → F)) (history : List (Option Scope))
    (hkept : 0 < B.config.poolAlternatives) :
    let table := B.tableAfter g Q history
    let first := B.findCyclesInner g none Q table
    let second := B.findCyclesInner g none Q first.2
    B.isUncut g Q none table = true → B.isUncut g Q none first.2 = true →
      ((B.Complete g first.1 ∧ B.Complete g second.1) ↔ B.Admissible g) := by
  intro table first second huncut huncut'
  have hsettled : Settled B.ranker g table := settled_tableAfter history
  obtain ⟨o, hran, hrun, hcycles, htable⟩ := findCyclesInner_ran B g none Q table
  obtain ⟨o', hran', hrun', hcycles', _⟩ := findCyclesInner_ran B g none Q first.2
  have hfinished := finished_of_uncut hran hrun huncut
  have hfinished' := finished_of_uncut hran' hrun' huncut'
  have hafter : first.2 = o.last.maxEdgeRatio := by
    rw [htable, hfinished.result]
  have hsettled' : Settled B.ranker g first.2 := by
    rw [hafter]
    exact (tabled_of_ran hran hsettled).settled
  have hmem : ∀ cycle, cycle ∈ first.1 ↔ cycle ∈ o.result.results := by
    intro cycle
    rw [hcycles]
    exact List.mem_insertionSort _
  have hmem' : ∀ cycle, cycle ∈ second.1 ↔ cycle ∈ o'.result.results := by
    intro cycle
    rw [hcycles']
    exact List.mem_insertionSort _
  have hscope : ∀ ws, B.InScope none ws := fun _ => ⟨fun _ _ => rfl, rfl⟩
  constructor
  · -- the first search left the greatest ratios of the way, and the second was bounded by them
    intro hcomplete ws h pre post hsplit
    obtain ⟨cycle, hcycle, hpath⟩ := hcomplete.1 ws h
    obtain ⟨cycle', hcycle', hpath'⟩ := hcomplete.2 ws h
    obtain ⟨hentered, _⟩ :=
      entered_of_returned hsettled hran h ((hmem cycle).mp hcycle) hpath hsplit
    obtain ⟨_, visit, hvisit, hnode, hexpands⟩ :=
      entered_of_returned hsettled' hran' h ((hmem' cycle').mp hcycle') hpath' hsplit
    obtain ⟨hsettledVisit, hkeptVisit⟩ := (tabled_of_ran hran' hsettled').bounded visit hvisit
    have hroute : B.Route g B.config.baseMint pre := by
      have hws := route_of_append h.route
      rw [hsplit] at hws
      exact route_of_append hws
    have hbound := hexpands.2.2
    rw [hnode, upperBound_nodeAt hroute,
      hsettledVisit.maxEdgeRatioFor_of_mem (hkeptVisit _ (hafter ▸ hentered))] at hbound
    exact hbound
  · intro hadmissible
    refine ⟨fun ws h => ?_, fun ws h => ?_⟩
    · refine ⟨B.cycleAt g ws, (hmem _).mpr ?_, rfl⟩
      exact returned_of_admissible hkept hadmissible hsettled hran hfinished h (hscope ws)
    · refine ⟨B.cycleAt g ws, (hmem' _).mpr ?_, rfl⟩
      exact returned_of_admissible hkept hadmissible hsettled' hran' hfinished' h (hscope ws)

/-! ### A triangle -/

/-- A finder for the base 1, with quotes one way around the triangle 1, 2, 3. -/
def triangleFinder (first second third : UInt64) : BeamCycleFinder Rat where
  config := ⟨10, 4, 100, 5, 1, 3, by decide⟩
  ranker := {
    config := ⟨10000000, 100000, 3 / 10, 3 / 2, by norm_num⟩
    quoteProvider := {
      isPoolQuoteReady := fun _ => true
      getCachedProbeQuote := fun _ _ inputMint outputMint _ =>
        if inputMint = 1 ∧ outputMint = 2 then some first
        else if inputMint = 2 ∧ outputMint = 3 then some second
        else if inputMint = 3 ∧ outputMint = 1 then some third
        else none } }

def triangleOps : List (GraphOp Rat) :=
  [.upsertPool (.new 16 .raydiumAmmV4 1 2 1000000 30 0) 0,
    .upsertPool (.new 17 .raydiumAmmV4 2 3 500000 30 0) 0,
    .upsertPool (.new 18 .raydiumAmmV4 3 1 300000 30 0) 0]

def triangle : PoolGraph Rat := Machine.foldSteps GraphOp.apply PoolGraph.new triangleOps

def oldestFirst : PriorityQueue (SearchNode.score : SearchNode Rat → Rat) :=
  PriorityQueue.takeFirst SearchNode.score

/-- All three hops gain 2 %. -/
def gaining : BeamCycleFinder Rat := triangleFinder 10200000 10200000 10200000

/-- Every token of the triangle has one hop that is quoted. -/
theorem hops_of_triangle (b : Pubkey) :
    (gaining.ranker.ranked triangle 1 b ≠ [] → b = 2) ∧
    (gaining.ranker.ranked triangle 2 b ≠ [] → b = 3) ∧
    (gaining.ranker.ranked triangle 3 b ≠ [] → b = 1) := by
  have hmem : ∀ {a : Pubkey}, gaining.ranker.ranked triangle a b ≠ [] →
      b ∈ (gaining.ranker.rankPoolsFrom triangle a).map Prod.fst := fun h =>
    List.mem_map_of_mem (PoolRanker.mem_rankPoolsFrom.mpr ⟨rfl, h⟩)
  have hfirst : (gaining.ranker.rankPoolsFrom triangle 1).map Prod.fst = [2] := by decide +kernel
  have hsecond : (gaining.ranker.rankPoolsFrom triangle 2).map Prod.fst = [3] := by decide +kernel
  have hthird : (gaining.ranker.rankPoolsFrom triangle 3).map Prod.fst = [1] := by decide +kernel
  refine ⟨fun h => ?_, fun h => ?_, fun h => ?_⟩
  · exact List.mem_singleton.mp (hfirst ▸ hmem h)
  · exact List.mem_singleton.mp (hsecond ▸ hmem h)
  · exact List.mem_singleton.mp (hthird ▸ hmem h)

/-- The one profitable cycle of the triangle. -/
theorem profitable_triangle {ws : List Pubkey} (h : gaining.Profitable triangle ws) :
    ws = [2, 3] := by
  have hroute := h.route
  cases ws with
  | nil => exact absurd rfl h.left
  | cons t rest =>
      obtain ⟨hout, hroute⟩ := List.isChain_cons_cons.mp hroute
      obtain rfl := (hops_of_triangle t).1 hout
      cases rest with
      | nil =>
          have hback := (List.isChain_cons_cons.mp hroute).1
          exact absurd ((hops_of_triangle 1).2.1 hback) (by decide +kernel)
      | cons u rest =>
          obtain ⟨hon, hroute⟩ := List.isChain_cons_cons.mp hroute
          obtain rfl := (hops_of_triangle u).2.1 hon
          cases rest with
          | nil => rfl
          | cons v rest =>
              have hv := (hops_of_triangle v).2.2 (List.isChain_cons_cons.mp hroute).1
              subst hv
              exact absurd (by simp : (1 : Pubkey) ∈ 2 :: 3 :: 1 :: rest) h.base

theorem admissible_triangle : gaining.Admissible triangle := by
  intro ws h pre post hsplit
  obtain rfl := profitable_triangle h
  have hpre : pre ∈ List.inits [2, 3] := (List.mem_inits _ _).mpr ⟨post, hsplit.symm⟩
  have hall : ∀ pre ∈ List.inits [2, 3], gaining.minProfitMultiplier ≤
      Floating.mul (gaining.profitAlong triangle (Floating.lit 1) gaining.config.baseMint pre)
        (Floating.powi (maxRatio gaining.ranker triangle (endOf gaining.config.baseMint pre))
          (gaining.config.maxHops - pre.length)) := by decide +kernel
  exact hall pre hpre

/-- The triangle that gains on every hop is found again and again. -/
theorem triangle_complete :
    let first := gaining.findCyclesInner triangle none oldestFirst ∅
    let second := gaining.findCyclesInner triangle none oldestFirst first.2
    gaining.Complete triangle first.1 ∧ gaining.Complete triangle second.1 :=
  (calls_complete_iff gaining triangle oldestFirst [] (by decide) (by decide +kernel)
    (by decide +kernel)).mpr admissible_triangle

-- 1 % lost on the way out and 2 % won twice: found once, and pruned at the base from then on
example :
    let lossy := triangleFinder 9900000 10200000 10200000
    let first := lossy.findCyclesInner triangle none oldestFirst ∅
    let second := lossy.findCyclesInner triangle none oldestFirst first.2
    first.1.length = 1 ∧ second.1 = [] := by decide +kernel

end BeamCycleFinder

end Uncut

end IronCrab.Arbitrage.CycleFinder

/-
  File:      IronCrab/Arbitrage/TrackSelection.lean
  Subject:   THE PIN SET (`select_arb_track_pools` of `track_selection.rs`): the bundles of the
             mints, ranked and taken as long as they fit the budget.

  * `select` -- the selection, with the counts it reports;
  * `bundles_spec`, `pack_eq` -- the bundles in their order, of which a budget is filled;
  * `selected_paired`, `displaced_spec` -- what is selected of a mint, and what is displaced;
  * `select_reordered` -- the order of the mints and of their pools;
  * **`select_sound`** -- the budget, the pairs, what is displaced, and the order;
  * `shared_or_tied` -- a pool of two mints is selected and displaced, and two round trips of one
    profit are told apart by their order.
-/
import IronCrab.Arbitrage.TrackBundles
import IronCrab.Lib.Fill
import IronCrab.Lib.Sift
import IronCrab.Lib.SortedMap

namespace IronCrab.Arbitrage

/-! ## 1. The selection -/

/-- `TrackCandidateCounts`. -/
structure TrackCandidateCounts where
  executable : Nat := 0
  quoteReady : Nat := 0
  warmable : Nat := 0
  rejected : Nat := 0

/-- `TrackCandidateCounts::record`. -/
def TrackCandidateCounts.record (counts : TrackCandidateCounts) :
    TrackPoolReadiness → TrackCandidateCounts
  | .executable => { counts with executable := counts.executable + 1 }
  | .quoteReady => { counts with quoteReady := counts.quoteReady + 1 }
  | .warmable => { counts with warmable := counts.warmable + 1 }
  | .rejected => { counts with rejected := counts.rejected + 1 }

/-- `TrackSelectionResult`. -/
structure TrackSelectionResult where
  selected : List SelectedTrackPool
  budgetDisplaced : List String
  selectedMints : Nat
  pairCompleteMints : Nat
  orphanPools : Nat
  candidateCounts : TrackCandidateCounts

/-- `pool_dex` of `compute_pair_completeness_stats`. -/
def poolDex (mints : List TrackMintInput) : Finmap fun _ : String => String :=
  Keyed.ofPairs (mints.flatMap fun mint => mint.pools.map fun pool => (pool.poolAddress, pool.dex))

/-- The selected pools whose DEX is known, under their mints. -/
def selectedDexes (selected : List SelectedTrackPool) (mints : List TrackMintInput) :
    List (String × String) :=
  selected.filterMap fun entry =>
    ((poolDex mints).lookup entry.pool).map fun dex => (entry.mint, dex)

/-- `compute_pair_completeness_stats`. -/
def computePairCompletenessStats (selected : List SelectedTrackPool)
    (mints : List TrackMintInput) : Nat × Nat :=
  let byMint := Keyed.groups (selectedDexes selected mints)
  byMint.entries.foldl (fun counts group =>
    if 2 ≤ group.2.length ∧ 2 ≤ group.2.toFinset.card then (counts.1 + 1, counts.2)
    else (counts.1, counts.2 + group.2.length)) (0, 0)

/-- The order of `compare_bundles`. -/
def bundleRank (b : MintBundle) : TrackPoolReadinessᵒᵈ ×ₗ Natᵒᵈ ×ₗ String :=
  toLex (OrderDual.toDual b.priority, toLex (OrderDual.toDual b.lastActivityUnixMs, b.mint))

/-- The variables of the loop over the bundles. -/
structure PackState where
  selected : List SelectedTrackPool
  budgetDisplaced : List String
  selectedMints : Finset String

/-- The loop's body. -/
def packBundle (maxPools : Nat) (s : PackState) (bundle : MintBundle) : PackState :=
  if bundle.pools.length < 2 then s
  else if maxPools < s.selected.length + bundle.pools.length then
    { s with budgetDisplaced := s.budgetDisplaced ++ bundle.pools.map (·.pool) }
  else
    { s with
      selectedMints := insert bundle.mint s.selectedMints
      selected := s.selected ++ bundle.pools }

/-- A selection to be made: the snapshots of the mints, one for each mint. -/
structure TrackRequest (W T : Type) where
  market : Market W T
  mints : List TrackMintInput
  config : TrackSelectionConfig
  distinct : (mints.map (·.mint)).Nodup

namespace TrackRequest

variable {W T : Type} (R : TrackRequest W T)

/-- The readiness of a pool of a mint; a pool of its trade signal is executable. -/
def readinessIn (mint : TrackMintInput) (pool : TrackPoolInput) : TrackPoolReadiness :=
  let readiness := R.market.classifyPoolReadiness R.config pool
  if mint.tradeSignalPools.any (fun (buy, sell) =>
      pool.poolAddress = buy || pool.poolAddress = sell) ∧ .warmable ≤ readiness then .executable
  else readiness

/-- Every pool with its readiness, in the order of the loop. -/
def classified : List (String × TrackPoolReadiness) :=
  R.mints.flatMap fun mint => mint.pools.map fun pool =>
    (pool.poolAddress, R.readinessIn mint pool)

def perPoolReadiness : PerPoolReadiness := Keyed.ofPairs R.classified

def candidateCounts : TrackCandidateCounts :=
  R.classified.foldl (fun counts entry => counts.record entry.2) {}

/-- The bundle of a mint, if it has one. -/
def bundleOf (mint : TrackMintInput) : Option MintBundle :=
  buildMintBundle R.market R.config R.perPoolReadiness mint

/-- The bundles in their order. -/
def bundles : List MintBundle :=
  (R.mints.filterMap R.bundleOf).insertionSort fun a b => bundleRank a ≤ bundleRank b

def pack : PackState := R.bundles.foldl (packBundle R.config.maxPools) ⟨[], [], ∅⟩

/-- `select_arb_track_pools`. -/
def select : TrackSelectionResult where
  selected := R.pack.selected
  budgetDisplaced := SortedList.normalize R.pack.budgetDisplaced
  selectedMints := R.pack.selectedMints.card
  pairCompleteMints := (computePairCompletenessStats R.pack.selected R.mints).1
  orphanPools := (computePairCompletenessStats R.pack.selected R.mints).2
  candidateCounts := R.candidateCounts

/-! ## 2. What a selection promises -/

/-- No pool is offered under two mints. -/
def Unshared : Prop :=
  R.mints.Pairwise fun a b =>
    List.Disjoint (a.pools.map (·.poolAddress)) (b.pools.map (·.poolAddress))

/-- The round trips of every mint are untied. -/
def Untied : Prop :=
  ∀ mint ∈ R.mints, Arbitrage.Untied R.market R.config (eligiblePools R.perPoolReadiness mint)

/-- The same candidates in another order of the mints. -/
structure Permuted (R' : TrackRequest W T) : Prop where
  market : R'.market = R.market
  config : R'.config = R.config
  mints : R.mints.Perm R'.mints

/-- The same candidates in another order of the mints and of their pools. -/
structure Reordered (R' : TrackRequest W T) : Prop where
  market : R'.market = R.market
  config : R'.config = R.config
  mints : ∃ mints, List.Forall₂ TrackMintInput.Reordered R.mints mints ∧ mints.Perm R'.mints

/-- The selected pools of a mint. -/
def selectedOf (mint : String) : List String :=
  (R.select.selected.filter fun s => decide (s.mint = mint)).map (·.pool)

/-- **A sound selection** keeps to its budget, selects two or three pools of a mint on as many
    DEXes, displaces pools of mints it selects nothing of, and does not depend on the order of
    candidates none of which is shared. -/
structure Sound : Prop where
  budget : (R.select.selected.map (·.pool)).toFinset.card ≤ R.config.maxPools
  paired : ∀ s ∈ R.select.selected, ∃ mint ∈ R.mints,
    mint.mint = s.mint ∧ mint.Paired (R.selectedOf s.mint) ∧ (R.selectedOf s.mint).Nodup
  displaced : ∀ p ∈ R.select.budgetDisplaced, ∃ mint ∈ R.mints,
    p ∈ mint.pools.map (·.poolAddress) ∧ R.selectedOf mint.mint = []
  disjoint : R.Unshared → ∀ p ∈ R.select.budgetDisplaced, p ∉ R.select.selected.map (·.pool)
  permuted : R.Unshared → ∀ R', R.Permuted R' → R'.select = R.select
  reordered : R.Unshared → R.Untied → ∀ R', R.Reordered R' → R'.select = R.select

/-! ## 3. The bundles, and the budget they fill -/

variable {R}

theorem of_bundleOf {mint : TrackMintInput} {b : MintBundle} (h : R.bundleOf mint = some b) :
    b.Of mint := of_buildMintBundle h

theorem perm_bundles : R.bundles.Perm (R.mints.filterMap R.bundleOf) :=
  List.perm_insertionSort _ _

theorem mem_bundles {b : MintBundle} :
    b ∈ R.bundles ↔ ∃ mint ∈ R.mints, R.bundleOf mint = some b := by
  rw [perm_bundles.mem_iff, List.mem_filterMap]

/-- A mint has one bundle. -/
theorem nodup_bundles : (R.bundles.map (·.mint)).Nodup := by
  rw [(perm_bundles.map _).nodup_iff]
  exact R.distinct.sublist (Keyed.sublist_map_filterMap fun mint _ b hb => (of_bundleOf hb).mint)

theorem two_le_of_mem_bundles {b : MintBundle} (h : b ∈ R.bundles) : 2 ≤ b.pools.length := by
  obtain ⟨mint, -, hb⟩ := mem_bundles.mp h
  have hlength := (of_bundleOf hb).paired.length.1
  rwa [List.length_map] at hlength

/-- The loop fills the budget with bundles. -/
theorem foldl_packBundle (maxPools : Nat) (l : List MintBundle)
    (hl : ∀ b ∈ l, 2 ≤ b.pools.length) (s : PackState) :
    l.foldl (packBundle maxPools) s =
      let filled := Fill.fill (·.pools.length) maxPools s.selected.length l
      ⟨s.selected ++ filled.1.flatMap (·.pools),
        s.budgetDisplaced ++ filled.2.flatMap fun b => b.pools.map (·.pool),
        s.selectedMints ∪ (filled.1.map (·.mint)).toFinset⟩ := by
  induction l generalizing s with
  | nil => simp [Fill.fill]
  | cons b l ih =>
      have htwo := hl b List.mem_cons_self
      have hrest : ∀ b ∈ l, 2 ≤ b.pools.length := fun b' hb' => hl b' (List.mem_cons_of_mem _ hb')
      rw [List.foldl_cons, ih hrest]
      unfold packBundle
      rw [if_neg (Nat.not_lt_of_le htwo)]
      rcases Nat.lt_or_ge maxPools (s.selected.length + b.pools.length) with hfull | hfits
      · rw [if_pos hfull, Fill.fill_cons_of_lt (fun b : MintBundle => b.pools.length) hfull]
        simp
      · rw [if_neg (Nat.not_lt_of_le hfits),
          Fill.fill_cons_of_le (fun b : MintBundle => b.pools.length) hfits]
        simp [Finset.insert_union, Finset.union_insert]

/-- The bundles that are taken. -/
def taken (R : TrackRequest W T) : List MintBundle :=
  (Fill.fill (·.pools.length) R.config.maxPools 0 R.bundles).1

/-- The bundles that are displaced. -/
def left (R : TrackRequest W T) : List MintBundle :=
  (Fill.fill (·.pools.length) R.config.maxPools 0 R.bundles).2

theorem pack_eq : R.pack = ⟨R.taken.flatMap (·.pools),
    R.left.flatMap fun b => b.pools.map (·.pool), (R.taken.map (·.mint)).toFinset⟩ := by
  unfold pack
  rw [foldl_packBundle _ _ (fun b => two_le_of_mem_bundles)]
  simp [taken, left]

theorem selected_eq : R.select.selected = R.taken.flatMap (·.pools) :=
  congrArg PackState.selected pack_eq

theorem mem_displaced {p : String} :
    p ∈ R.select.budgetDisplaced ↔ ∃ b ∈ R.left, p ∈ b.pools.map (·.pool) := by
  unfold select
  dsimp only
  rw [SortedList.mem_normalize, pack_eq]
  exact List.mem_flatMap

/-- A bundle is taken or displaced, and so is its mint. -/
theorem nodup_taken_left : ((R.taken ++ R.left).map (·.mint)).Nodup :=
  ((Fill.perm_fill _ 0 R.bundles).map _).nodup_iff.mpr nodup_bundles

theorem nodup_taken : (R.taken.map (·.mint)).Nodup := by
  have h := nodup_taken_left (R := R)
  rw [List.map_append] at h
  exact (List.nodup_append'.mp h).1

theorem of_mem_taken {b : MintBundle} (h : b ∈ R.taken) :
    ∃ mint ∈ R.mints, R.bundleOf mint = some b := mem_bundles.mp (Fill.taken_subset h)

theorem of_mem_left {b : MintBundle} (h : b ∈ R.left) :
    ∃ mint ∈ R.mints, R.bundleOf mint = some b := mem_bundles.mp (Fill.left_subset h)

theorem tagged_of_mem_taken {b : MintBundle} (h : b ∈ R.taken) (s : SelectedTrackPool)
    (hs : s ∈ b.pools) : s.mint = b.mint := by
  obtain ⟨mint, -, hb⟩ := of_mem_taken h
  exact ((of_bundleOf hb).tagged s hs).trans (of_bundleOf hb).mint.symm

/-- **What is selected of a mint is its bundle.** -/
theorem filter_selected {b : MintBundle} (h : b ∈ R.taken) :
    (R.select.selected.filter fun s => decide (s.mint = b.mint)) = b.pools := by
  rw [selected_eq]
  exact Keyed.filter_flatMap nodup_taken (fun b hb => tagged_of_mem_taken hb) h

/-- Nothing is selected of a mint whose bundle is displaced. -/
theorem selectedOf_left {b : MintBundle} (h : b ∈ R.left) : R.selectedOf b.mint = [] := by
  unfold selectedOf
  rw [List.map_eq_nil_iff, List.filter_eq_nil_iff, selected_eq]
  intro s hs hmint
  obtain ⟨b', hb', hs⟩ := List.mem_flatMap.mp hs
  have heq : b'.mint = b.mint :=
    (tagged_of_mem_taken hb' s hs).symm.trans (of_decide_eq_true hmint)
  have hnodup := nodup_taken_left (R := R)
  rw [List.map_append] at hnodup
  exact (List.nodup_append'.mp hnodup).2.2 (List.mem_map_of_mem hb')
    (heq ▸ List.mem_map_of_mem h)

/-! ## 4. Budget, pairs and displacement -/

theorem selected_length_le : R.select.selected.length ≤ R.config.maxPools := by
  rw [selected_eq, List.length_flatMap]
  have hsum := Fill.used_add_sum_le (fun b : MintBundle => b.pools.length) (l := R.bundles)
    (Nat.zero_le R.config.maxPools)
  rwa [Nat.zero_add] at hsum

/-- **What is selected of a mint pairs.** -/
theorem selected_paired {s : SelectedTrackPool} (h : s ∈ R.select.selected) :
    ∃ mint ∈ R.mints, mint.mint = s.mint ∧ mint.Paired (R.selectedOf s.mint) := by
  rw [selected_eq] at h
  obtain ⟨b, hb, hs⟩ := List.mem_flatMap.mp h
  obtain ⟨mint, hmint, hbundle⟩ := of_mem_taken hb
  have hof := of_bundleOf hbundle
  refine ⟨mint, hmint, (hof.tagged s hs).symm, ?_⟩
  unfold selectedOf
  rw [tagged_of_mem_taken hb s hs, filter_selected hb]
  exact hof.paired

/-- **What is displaced are the pools of bundles of which nothing is selected**, and which would
    not fit in the end. -/
theorem displaced_spec {p : String} (h : p ∈ R.select.budgetDisplaced) :
    ∃ mint ∈ R.mints, ∃ b, R.bundleOf mint = some b ∧ p ∈ b.pools.map (·.pool) ∧
      R.selectedOf mint.mint = [] ∧
      R.config.maxPools < R.select.selected.length + b.pools.length := by
  obtain ⟨b, hb, hp⟩ := mem_displaced.mp h
  obtain ⟨mint, hmint, hbundle⟩ := of_mem_left hb
  refine ⟨mint, hmint, b, hbundle, hp, ?_, ?_⟩
  · rw [← (of_bundleOf hbundle).mint]
    exact selectedOf_left hb
  · have hfull := Fill.lt_of_mem_left hb
    rw [Nat.zero_add] at hfull
    rw [selected_eq, List.length_flatMap]
    exact hfull

theorem Unshared.disjoint (h : R.Unshared) {a b : TrackMintInput} (ha : a ∈ R.mints)
    (hb : b ∈ R.mints) (hne : a ≠ b) :
    List.Disjoint (a.pools.map (·.poolAddress)) (b.pools.map (·.poolAddress)) := by
  have hsymm : Std.Symm fun a b : TrackMintInput =>
      List.Disjoint (a.pools.map (·.poolAddress)) (b.pools.map (·.poolAddress)) :=
    ⟨fun _ _ => List.Disjoint.symm⟩
  exact List.Pairwise.forall h ha hb hne

/-- **No pool is selected and displaced** where none is shared. -/
theorem displaced_disjoint (hunshared : R.Unshared) {p : String}
    (h : p ∈ R.select.budgetDisplaced) : p ∉ R.select.selected.map (·.pool) := by
  intro hselected
  obtain ⟨mint, hmint, b, hbundle, hp, hnone, -⟩ := displaced_spec h
  obtain ⟨s, hs, rfl⟩ := List.mem_map.mp hselected
  obtain ⟨mint', hmint', heq, hpaired⟩ := selected_paired hs
  have hne : mint ≠ mint' := by
    rintro rfl
    have hin : s.pool ∈ R.selectedOf mint.mint :=
      List.mem_map.mpr ⟨s, List.mem_filter.mpr ⟨hs, decide_eq_true heq.symm⟩, rfl⟩
    rw [hnone] at hin
    exact absurd hin List.not_mem_nil
  have hin' : s.pool ∈ R.selectedOf s.mint :=
    List.mem_map.mpr ⟨s, List.mem_filter.mpr ⟨hs, decide_eq_true rfl⟩, rfl⟩
  exact hunshared.disjoint hmint hmint' hne ((of_bundleOf hbundle).paired.subset hp)
    (hpaired.subset hin')

/-! ## 5. The order of the candidates -/

/-- What is said of every pool by its address: where none is shared, no address comes twice. -/
theorem Unshared.nodup_keys {V : Type} (h : R.Unshared)
    (f : TrackMintInput → TrackPoolInput → V) :
    ((R.mints.flatMap fun mint => mint.pools.map fun pool =>
      (pool.poolAddress, f mint pool)).map Prod.fst).Nodup := by
  have haddresses : (R.mints.flatMap fun mint => mint.pools.map fun pool =>
      (pool.poolAddress, f mint pool)).map Prod.fst =
      R.mints.flatMap fun mint => mint.pools.map (·.poolAddress) := by
    rw [List.map_flatMap]
    simp only [List.map_map, Function.comp_def]
  rw [haddresses, List.nodup_flatMap]
  exact ⟨fun mint _ => mint.nodup, h⟩

/-- What is said of every pool, with the candidates in another order. -/
theorem flatMap_perm {V : Type} (f f' : TrackMintInput → TrackPoolInput → V)
    (hf : ∀ a b, a.Reordered b → ∀ pool, f a pool = f' b pool) {l l' : List TrackMintInput}
    (h : List.Forall₂ TrackMintInput.Reordered l l') :
    (l.flatMap fun mint => mint.pools.map fun pool => (pool.poolAddress, f mint pool)).Perm
      (l'.flatMap fun mint => mint.pools.map fun pool => (pool.poolAddress, f' mint pool)) := by
  induction h with
  | nil => exact .nil
  | cons hab _ ih =>
      rw [List.flatMap_cons, List.flatMap_cons]
      refine List.Perm.append ?_ ih
      simp only [hf _ _ hab]
      exact hab.pools.map _

theorem record_comm (counts : TrackCandidateCounts) (r r' : TrackPoolReadiness) :
    (counts.record r).record r' = (counts.record r').record r := by
  cases r <;> cases r' <;> rfl

/-- The rank of a bundle names its mint. -/
theorem mint_of_bundleRank {a b : MintBundle} (h : bundleRank a = bundleRank b) :
    a.mint = b.mint := congrArg (fun r => (ofLex (ofLex r).2).2) h

section Order

variable {R' : TrackRequest W T} {l : List TrackMintInput}

theorem readinessIn_reordered (hmarket : R'.market = R.market) (hconfig : R'.config = R.config)
    {a b : TrackMintInput} (h : a.Reordered b) (pool : TrackPoolInput) :
    R.readinessIn a pool = R'.readinessIn b pool := by
  unfold readinessIn
  rw [hmarket, hconfig, h.signal]

/-- The candidates are classified alike. -/
theorem classified_perm (hmarket : R'.market = R.market) (hconfig : R'.config = R.config)
    (hmints : List.Forall₂ TrackMintInput.Reordered R.mints l) (hperm : l.Perm R'.mints) :
    R.classified.Perm R'.classified := by
  have hfirst := flatMap_perm R.readinessIn R'.readinessIn
    (fun a b h => readinessIn_reordered hmarket hconfig h) hmints
  exact hfirst.trans (hperm.flatMap_right _)

theorem perPoolReadiness_perm (hunshared : R.Unshared) (hmarket : R'.market = R.market)
    (hconfig : R'.config = R.config) (hmints : List.Forall₂ TrackMintInput.Reordered R.mints l)
    (hperm : l.Perm R'.mints) : R'.perPoolReadiness = R.perPoolReadiness :=
  (Keyed.ofPairs_perm (hunshared.nodup_keys R.readinessIn)
    (classified_perm hmarket hconfig hmints hperm)).symm

theorem candidateCounts_perm (hmarket : R'.market = R.market) (hconfig : R'.config = R.config)
    (hmints : List.Forall₂ TrackMintInput.Reordered R.mints l) (hperm : l.Perm R'.mints) :
    R'.candidateCounts = R.candidateCounts :=
  (classified_perm hmarket hconfig hmints hperm).symm.foldl_eq'
    (fun e _ e' _ counts => record_comm counts e.2 e'.2) _

/-- The same bundles come in the same order. -/
theorem bundles_perm (hbundle : List.Forall₂ (fun a b => R.bundleOf a = R'.bundleOf b) R.mints l)
    (hperm : l.Perm R'.mints) : R'.bundles = R.bundles := by
  have hfilterMap := Sift.filterMap_eq_of_forall₂ hbundle
  have hinj : ∀ a ∈ R.mints.filterMap R.bundleOf, ∀ b ∈ R.mints.filterMap R.bundleOf,
      bundleRank a = bundleRank b → a = b := by
    intro a ha b hb heq
    exact List.inj_on_of_nodup_map nodup_bundles (perm_bundles.mem_iff.mpr ha)
      (perm_bundles.mem_iff.mpr hb) (mint_of_bundleRank heq)
  unfold bundles
  rw [Keyed.insertionSort_perm_eq hinj (hfilterMap ▸ hperm.filterMap R'.bundleOf)]

/-- **The selection is the same where the bundles are.** -/
theorem select_perm (hunshared : R.Unshared) (hmarket : R'.market = R.market)
    (hconfig : R'.config = R.config) (hmints : List.Forall₂ TrackMintInput.Reordered R.mints l)
    (hbundle : List.Forall₂ (fun a b => R.bundleOf a = R'.bundleOf b) R.mints l)
    (hperm : l.Perm R'.mints) : R'.select = R.select := by
  have hpack : R'.pack = R.pack := by
    unfold pack
    rw [bundles_perm hbundle hperm, hconfig]
  have hdex : poolDex R'.mints = poolDex R.mints := by
    have hfirst := flatMap_perm (fun _ pool => pool.dex) (fun _ pool => pool.dex)
      (fun _ _ _ _ => rfl) hmints
    exact (Keyed.ofPairs_perm (hunshared.nodup_keys fun _ pool => pool.dex)
      (hfirst.trans (hperm.flatMap_right _))).symm
  unfold select computePairCompletenessStats selectedDexes
  rw [hpack, hdex, candidateCounts_perm hmarket hconfig hmints hperm]

/-- **The order of the mints does not matter.** -/
theorem select_permuted (hunshared : R.Unshared) (h : R.Permuted R') : R'.select = R.select := by
  have hsame : List.Forall₂ TrackMintInput.Reordered R.mints R.mints :=
    List.forall₂_same.mpr fun mint _ => .refl mint
  refine select_perm hunshared h.market h.config hsame (List.forall₂_same.mpr fun mint _ => ?_)
    h.mints
  unfold bundleOf
  rw [h.market, h.config, perPoolReadiness_perm hunshared h.market h.config hsame h.mints]

/-- **The order of their pools does not matter** where round trips are untied. -/
theorem select_reordered (hunshared : R.Unshared) (huntied : R.Untied) (h : R.Reordered R') :
    R'.select = R.select := by
  obtain ⟨l, hmints, hperm⟩ := h.mints
  refine select_perm hunshared h.market h.config hmints ?_ hperm
  refine ((List.forall₂_and_left _ _).mpr ⟨huntied, hmints⟩).imp fun a b hab => ?_
  unfold bundleOf
  rw [h.market, h.config, perPoolReadiness_perm hunshared h.market h.config hmints hperm]
  exact buildMintBundle_reordered hab.2 hab.1

end Order

/-! ## 6. Pair completeness -/

section Complete

variable (hunshared : R.Unshared)
include hunshared

end Complete

/-! ## 7. The selection -/

/-- **A selection is sound.** -/
theorem select_sound (R : TrackRequest W T) : R.Sound where
  budget := by
    refine (List.toFinset_card_le _).trans ?_
    rw [List.length_map]
    exact selected_length_le
  paired _ h := by
    obtain ⟨mint, hmint, heq, hpaired⟩ := selected_paired h
    exact ⟨mint, hmint, heq, hpaired, hpaired.nodup⟩
  displaced p h := by
    obtain ⟨mint, hmint, b, hbundle, hp, hnone, -⟩ := displaced_spec h
    exact ⟨mint, hmint, (of_bundleOf hbundle).paired.subset hp, hnone⟩
  disjoint hunshared _ h := displaced_disjoint hunshared h
  permuted hunshared _ h := select_permuted hunshared h
  reordered hunshared huntied _ h := select_reordered hunshared huntied h

/-! ### A pool of two mints, and a tie -/

/-- A known pool without a vault. -/
def vaultless (dex address : String) : TrackPoolInput where
  poolAddress := address
  dex := dex
  known := true
  quotePool := ⟨address, dex, "mint", none, none, 0, false, 6⟩
  vault := none
  dlmmBins := none
  lastActivityUnixMs := 0
  addressed := rfl
  labelled := rfl

def mintA : TrackMintInput where
  mint := "A"
  pools := [vaultless "orca" "p1", vaultless "pump_amm" "p2"]
  tradeSignalPools := some ("p1", "p2")
  lastActivityUnixMs := 0
  nodup := by decide
  decimals := by simp [vaultless]

def mintB : TrackMintInput where
  mint := "B"
  pools := [vaultless "pump_amm" "p2", vaultless "orca" "p3", vaultless "pump_amm" "p0"]
  tradeSignalPools := none
  lastActivityUnixMs := 0
  nodup := by decide
  decimals := by simp [vaultless]

/-- A pool with a vault; every such pool quotes alike. -/
def quoted (dex address : String) : TrackPoolInput :=
  { vaultless dex address with vault := some ⟨5, 5, 1, 0, none, none, false, none⟩ }

def mintC : TrackMintInput where
  mint := "C"
  pools := [quoted "raydium" "p4", quoted "raydium" "p5", quoted "raydium_cpmm" "p6"]
  tradeSignalPools := none
  lastActivityUnixMs := 0
  nodup := by decide
  decimals := by simp [quoted, vaultless]

/-- `mintC` with its first two pools in the other order. -/
def mintC' : TrackMintInput where
  mint := "C"
  pools := [quoted "raydium" "p5", quoted "raydium" "p4", quoted "raydium_cpmm" "p6"]
  tradeSignalPools := none
  lastActivityUnixMs := 0
  nodup := by decide
  decimals := by simp [quoted, vaultless]

/-- Candidates of which `maxPools` may be pinned. -/
def pinning (maxPools : Nat) (mints : List TrackMintInput)
    (distinct : (mints.map (·.mint)).Nodup) : TrackRequest Unit Unit where
  market := RoundTripRequest.flatMarket
  mints := mints
  config := ⟨maxPools, 3, 100, ⟨30000, 120000⟩⟩
  distinct := distinct

/-- **A pool of two mints** is selected with the one and displaced with the other; and it has the
    readiness it has in the mint that comes last, which decides whether the other one takes it. Of
    two round trips of one profit the pool that comes first is selected. -/
theorem shared_or_tied :
    (¬ ∀ R : TrackRequest Unit Unit, ∀ p ∈ R.select.budgetDisplaced,
      p ∉ R.select.selected.map (·.pool)) ∧
    (¬ ∀ R R' : TrackRequest Unit Unit, R.Permuted R' →
      (R'.select.selected.map (·.pool)).toFinset = (R.select.selected.map (·.pool)).toFinset) ∧
    ¬ ∀ R R' : TrackRequest Unit Unit, R.Unshared → R.Reordered R' →
      (R'.select.selected.map (·.pool)).toFinset = (R.select.selected.map (·.pool)).toFinset := by
  refine ⟨?_, ?_, ?_⟩
  · intro h
    have hnot := h (pinning 2 [mintB, mintA] (by decide)) "p2" (by decide +kernel)
    exact hnot (by decide +kernel)
  · intro h
    have heq := h (pinning 10 [mintA, mintB] (by decide))
      (pinning 10 [mintB, mintA] (by decide)) ⟨rfl, rfl, .swap _ _ _⟩
    exact absurd heq (by decide +kernel)
  · intro h
    have hreordered : mintC.Reordered mintC' := ⟨rfl, .swap _ _ _, rfl, rfl⟩
    have heq := h (pinning 10 [mintC] (by decide)) (pinning 10 [mintC'] (by decide))
      (List.pairwise_singleton _ _)
      ⟨rfl, rfl, [mintC'], .cons hreordered .nil, .refl _⟩
    exact absurd heq (by decide +kernel)

end TrackRequest

end IronCrab.Arbitrage

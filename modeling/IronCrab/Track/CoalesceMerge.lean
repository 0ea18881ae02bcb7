/-
  File:      IronCrab/Track/CoalesceMerge.lean
  Subject:   MERGING A BURST AGAINST APPLYING IT (`coalesce.rs`, `worker.rs`, `market_data.rs`):
             what the track worker does to the pins of the hot pool registry.

  Reading of the source's data:

  * the sets of the registry that a reconcile walks over are `AList`s (the list order is the hash
    order); the merged update may carry its entries in any order (`IsMerge`);
  * mints and pools are texts in an update and in the merge, the worker trims and parses them and
    skips what is no pubkey;
  * of clearing and activating an entry only the pins are modelled; admission, reserves and gauges
    do not touch the registry.

  A reconcile is skipped when its target is the one of the last reconcile. Where something else
  was pinned since, it stays: the theorems here are about runs in which a skipped reconcile has
  nothing to do (`Settled`).

  * `momentum_apply_eq`, `arb_apply_eq` -- the worker, chunked or not, applies a batch;
  * `sum_momentumMerge`, `sum_arbMerge` -- the merges are accumulators of batches;
  * `held_iff_heldPosition` -- when the merge holds a pair as a position;
  * **`burst_merges`** -- the merged update against the updates one by one;
  * `merged_differs` -- the reason, the spelling and the skipped reconcile each make a difference.
-/
import IronCrab.Lib.Overwrite
import IronCrab.Track.WorkerCommands
import IronCrab.Cache.PoolCacheUpdate

namespace IronCrab.Track

open Cache (parsePubkey trim)
open Machine (foldSteps Along)
open Overwrite (Board Feed Reading OneSpelling)

/-! ## 1. The registry -/

/-- A mint and a pool. -/
abbrev MomentumPair := Pubkey × Pubkey

/-- `UnifiedHotPoolRegistry`: momentum rows and arbitrage pins. -/
structure UnifiedHotPoolRegistry where
  momentumPairs : AList fun _ : MomentumPair => Unit
  /-- The rows that were opened as positions. -/
  momentumPositionPairs : Finset MomentumPair
  arbPools : AList fun _ : Pubkey => Unit
  /-- The readiness a pool was last pinned with. -/
  arbPoolReadiness : Finmap fun _ : Pubkey => ArbTrackReadiness
  position_sub : ∀ pair ∈ momentumPositionPairs, pair ∈ momentumPairs
  readiness_sub : ∀ pool ∈ arbPoolReadiness, pool ∈ arbPools

namespace UnifiedHotPoolRegistry

/-- `UnifiedHotPoolRegistry::new`. -/
def new : UnifiedHotPoolRegistry where
  momentumPairs := ∅
  momentumPositionPairs := ∅
  arbPools := ∅
  arbPoolReadiness := ∅
  position_sub := fun _ h => absurd h (Finset.notMem_empty _)
  readiness_sub := fun _ h => absurd h Finmap.notMem_empty

/-- `pin_pool_with_reason`. -/
def pinPoolWithReason (r : UnifiedHotPoolRegistry) (pair : MomentumPair) (isPosition : Bool) :
    UnifiedHotPoolRegistry :=
  { r with
    momentumPairs := r.momentumPairs.insert pair ()
    momentumPositionPairs :=
      if isPosition then insert pair r.momentumPositionPairs else r.momentumPositionPairs.erase pair
    position_sub := fun pair' h => by
      rw [AList.mem_insert]
      cases isPosition with
      | true => exact (Finset.mem_insert.mp h).imp_right (r.position_sub pair')
      | false => exact .inr (r.position_sub pair' (Finset.mem_of_mem_erase h)) }

/-- `unpin_pool`. -/
def unpinPool (r : UnifiedHotPoolRegistry) (pair : MomentumPair) : UnifiedHotPoolRegistry :=
  { r with
    momentumPairs := r.momentumPairs.erase pair
    momentumPositionPairs := r.momentumPositionPairs.erase pair
    position_sub := fun pair' h => by
      rw [Finset.mem_erase] at h
      exact AList.mem_erase.mpr ⟨h.1, r.position_sub pair' h.2⟩ }

/-- `snapshot_pairs`. -/
def snapshotPairs (r : UnifiedHotPoolRegistry) : List MomentumPair := r.momentumPairs.keys

/-- `pin_arb_pool`. -/
def pinArbPool (r : UnifiedHotPoolRegistry) (pool : Pubkey) : UnifiedHotPoolRegistry :=
  { r with
    arbPools := r.arbPools.insert pool ()
    readiness_sub := fun pool' h => (AList.mem_insert _).mpr (.inr (r.readiness_sub pool' h)) }

theorem mem_pinArbPool (r : UnifiedHotPoolRegistry) (pool : Pubkey) :
    pool ∈ (r.pinArbPool pool).arbPools := (AList.mem_insert _).mpr (.inl rfl)

/-- `set_arb_pool_readiness`, of a pinned pool. -/
def setArbPoolReadiness (r : UnifiedHotPoolRegistry) (pool : Pubkey) (readiness : ArbTrackReadiness)
    (h : pool ∈ r.arbPools) : UnifiedHotPoolRegistry :=
  { r with
    arbPoolReadiness := r.arbPoolReadiness.insert pool readiness
    readiness_sub := fun pool' h' => by
      rcases Finmap.mem_insert.mp h' with rfl | h'
      · exact h
      · exact r.readiness_sub pool' h' }

/-- `clear_arb_pool_readiness`. -/
def clearArbPoolReadiness (r : UnifiedHotPoolRegistry) (pool : Pubkey) : UnifiedHotPoolRegistry :=
  { r with
    arbPoolReadiness := r.arbPoolReadiness.erase pool
    readiness_sub := fun pool' h => r.readiness_sub pool' (Finmap.mem_erase.mp h).2 }

/-- `unpin_arb_pool`. -/
def unpinArbPool (r : UnifiedHotPoolRegistry) (pool : Pubkey) : UnifiedHotPoolRegistry :=
  { r with
    arbPools := r.arbPools.erase pool
    arbPoolReadiness := r.arbPoolReadiness.erase pool
    readiness_sub := fun pool' h => by
      rw [Finmap.mem_erase] at h
      exact AList.mem_erase.mpr ⟨h.1, r.readiness_sub pool' h.2⟩ }

/-- `snapshot_arb_pools`. -/
def snapshotArbPools (r : UnifiedHotPoolRegistry) : List Pubkey := r.arbPools.keys

/-- How a pair is pinned. -/
def momentumPin (r : UnifiedHotPoolRegistry) (pair : MomentumPair) :
    Option MomentumActivePinReason :=
  if pair ∈ r.momentumPairs then
    some (if pair ∈ r.momentumPositionPairs then .position else .tracker)
  else none

/-- How a pool is pinned: its readiness, if there is one. -/
def arbPin (r : UnifiedHotPoolRegistry) (pool : Pubkey) : Option (Option ArbTrackReadiness) :=
  if pool ∈ r.arbPools then some (r.arbPoolReadiness.lookup pool) else none

section Pins

variable (r : UnifiedHotPoolRegistry)

theorem mem_snapshotPairs (pair : MomentumPair) :
    pair ∈ r.snapshotPairs ↔ (r.momentumPin pair).isSome := by
  unfold momentumPin
  by_cases hp : pair ∈ r.momentumPairs
  · rw [if_pos hp]
    exact ⟨fun _ => rfl, fun _ => hp⟩
  · rw [if_neg hp]
    exact ⟨fun h => absurd h hp, fun h => nomatch h⟩

theorem momentumPin_pinPoolWithReason (pair pair' : MomentumPair)
    (reason : MomentumActivePinReason) :
    (r.pinPoolWithReason pair (reason = .position)).momentumPin pair' =
      if pair' = pair then some reason else r.momentumPin pair' := by
  unfold momentumPin pinPoolWithReason
  simp only [AList.mem_insert]
  by_cases hp : pair' = pair
  · cases reason <;> simp [hp]
  · cases reason <;> simp [hp]

theorem momentumPin_unpinPool (pair pair' : MomentumPair) :
    (r.unpinPool pair).momentumPin pair' = if pair' = pair then none else r.momentumPin pair' := by
  unfold momentumPin unpinPool
  simp only [AList.mem_erase, Finset.mem_erase]
  by_cases hp : pair' = pair
  · simp [hp]
  · simp [hp]

/-- A row is a position when it is pinned as one. -/
theorem mem_momentumPositionPairs (pair : MomentumPair) :
    pair ∈ r.momentumPositionPairs ↔ ∃ v, r.momentumPin pair = some v ∧ v = .position := by
  unfold momentumPin
  by_cases hp : pair ∈ r.momentumPositionPairs
  · rw [if_pos hp, if_pos (r.position_sub pair hp)]
    exact ⟨fun _ => ⟨_, rfl, rfl⟩, fun _ => hp⟩
  · rw [if_neg hp]
    refine ⟨fun h => absurd h hp, ?_⟩
    rintro ⟨v, hv, rfl⟩
    split at hv <;> cases hv

/-- The readiness of a pool that is not pinned is not known. -/
theorem lookup_arbPoolReadiness (pool : Pubkey) :
    r.arbPoolReadiness.lookup pool = (r.arbPin pool).join := by
  unfold arbPin
  by_cases hp : pool ∈ r.arbPools
  · rw [if_pos hp]
    rfl
  · rw [if_neg hp]
    exact Finmap.lookup_eq_none.mpr fun h => hp (r.readiness_sub pool h)

theorem mem_snapshotArbPools (pool : Pubkey) :
    pool ∈ r.snapshotArbPools ↔ (r.arbPin pool).isSome := by
  unfold arbPin
  by_cases hp : pool ∈ r.arbPools
  · rw [if_pos hp]
    exact ⟨fun _ => rfl, fun _ => hp⟩
  · rw [if_neg hp]
    exact ⟨fun h => absurd h hp, fun h => nomatch h⟩

theorem arbPin_setArbPoolReadiness (pool pool' : Pubkey) (readiness : ArbTrackReadiness) :
    ((r.pinArbPool pool).setArbPoolReadiness pool readiness (mem_pinArbPool r pool)).arbPin pool' =
      if pool' = pool then some (some readiness) else r.arbPin pool' := by
  unfold arbPin setArbPoolReadiness pinArbPool
  simp only [AList.mem_insert]
  by_cases hp : pool' = pool
  · subst hp
    simp
  · simp [hp, Finmap.lookup_insert_of_ne _ hp]

theorem arbPin_clearArbPoolReadiness (pool pool' : Pubkey) :
    ((r.pinArbPool pool).clearArbPoolReadiness pool).arbPin pool' =
      if pool' = pool then some none else r.arbPin pool' := by
  unfold arbPin clearArbPoolReadiness pinArbPool
  simp only [AList.mem_insert]
  by_cases hp : pool' = pool
  · subst hp
    simp [Finmap.lookup_erase]
  · simp [hp, Finmap.lookup_erase_ne hp]

theorem arbPin_unpinArbPool (pool pool' : Pubkey) :
    (r.unpinArbPool pool).arbPin pool' = if pool' = pool then none else r.arbPin pool' := by
  unfold arbPin unpinArbPool
  simp only [AList.mem_erase]
  by_cases hp : pool' = pool
  · simp [hp]
  · simp [hp, Finmap.lookup_erase_ne hp]

end Pins

end UnifiedHotPoolRegistry

/-- The pins and the remembered reconcile targets of the worker's context. -/
structure TrackPins where
  hotPoolRegistry : UnifiedHotPoolRegistry
  lastMomentumSnapshotTarget : Option (Finset MomentumPair)
  lastArbSnapshotTarget : Option (Finset Pubkey)

/-! ## 2. The worker's apply order -/

/-- The mint and the pool of a momentum entry. -/
@[irreducible] def momentumPairOf (key : MomentumPoolKey) : Option MomentumPair :=
  (parsePubkey (trim (ofLex key).1)).bind fun mint =>
    (parsePubkey (trim (ofLex key).2)).map fun pool => (mint, pool)

/-- The pool of an arbitrage entry. -/
@[irreducible] def arbPoolOf (pool : String) : Option Pubkey := parsePubkey (trim pool)

/-- The momentum rows as a store of pins. -/
def momentumBoard : Board TrackPins MomentumPair MomentumActivePinReason where
  pinned ctx := ctx.hotPoolRegistry.snapshotPairs
  pin ctx pair reason :=
    { ctx with
      hotPoolRegistry := ctx.hotPoolRegistry.pinPoolWithReason pair (reason = .position) }
  unpin ctx pair := { ctx with hotPoolRegistry := ctx.hotPoolRegistry.unpinPool pair }
  lastTarget := TrackPins.lastMomentumSnapshotTarget
  remember ctx target := { ctx with lastMomentumSnapshotTarget := some target }
  view ctx pair := ctx.hotPoolRegistry.momentumPin pair
  mem_pinned ctx := ctx.hotPoolRegistry.mem_snapshotPairs
  view_pin ctx pair reason pair' :=
    ctx.hotPoolRegistry.momentumPin_pinPoolWithReason pair pair' reason
  view_unpin ctx := ctx.hotPoolRegistry.momentumPin_unpinPool
  view_remember _ _ := rfl

/-- The arbitrage pins as a store. Every pin of an update comes with a readiness. -/
def arbBoard : Board TrackPins Pubkey (Option ArbTrackReadiness) where
  pinned ctx := ctx.hotPoolRegistry.snapshotArbPools
  pin ctx pool readiness :=
    let r := ctx.hotPoolRegistry.pinArbPool pool
    { ctx with
      hotPoolRegistry := match readiness with
        | some readiness =>
            r.setArbPoolReadiness pool readiness (UnifiedHotPoolRegistry.mem_pinArbPool ..)
        | none => r.clearArbPoolReadiness pool }
  unpin ctx pool := { ctx with hotPoolRegistry := ctx.hotPoolRegistry.unpinArbPool pool }
  lastTarget := TrackPins.lastArbSnapshotTarget
  remember ctx target := { ctx with lastArbSnapshotTarget := some target }
  view ctx pool := ctx.hotPoolRegistry.arbPin pool
  mem_pinned ctx := ctx.hotPoolRegistry.mem_snapshotArbPools
  view_pin ctx pool readiness pool' := by
    cases readiness with
    | none => exact ctx.hotPoolRegistry.arbPin_clearArbPoolReadiness pool pool'
    | some readiness => exact ctx.hotPoolRegistry.arbPin_setArbPoolReadiness pool pool' readiness
  view_unpin ctx := ctx.hotPoolRegistry.arbPin_unpinArbPool
  view_remember _ _ := rfl

/-- `slice::chunks`, of a size that is not 0. -/
def chunks {α : Type} (size : Nat) : List α → List (List α)
  | [] => []
  | x :: xs => (x :: xs.take (size - 1)) :: chunks size (xs.drop (size - 1))
  termination_by l => l.length
  decreasing_by
    rw [List.length_drop, List.length_cons]
    omega

theorem flatten_chunks {α : Type} (size : Nat) (l : List α) : (chunks size l).flatten = l := by
  fun_induction chunks size l with
  | case1 => rfl
  | case2 x xs ih => rw [List.flatten_cons, ih, List.cons_append, List.take_append_drop]

section Apply

variable (ctx : TrackPins)

/-! ### Momentum -/

/-- `MARKET_DATA_MOMENTUM_APPLY_CHUNK_THRESHOLD`. -/
def marketDataMomentumApplyChunkThreshold : Nat := 32

/-- `MARKET_DATA_MOMENTUM_APPLY_CHUNK_SIZE`. -/
def marketDataMomentumApplyChunkSize : Nat := 16

/-- `apply_momentum_snapshot_reconcile`. -/
def applyMomentumSnapshotReconcile (active : List MomentumActivePoolEntry) : TrackPins :=
  momentumBoard.reconcile ctx
    (active.filterMap fun a => momentumPairOf (toLex (a.mint, a.pool))).toFinset

/-- `apply_momentum_removed_entries`. -/
def applyMomentumRemovedEntries (removed : List MomentumRemovedPoolEntry) : TrackPins :=
  removed.foldl (fun ctx r =>
    (momentumPairOf (toLex (r.mint, r.pool))).elim ctx fun pair => momentumBoard.unpin ctx pair) ctx

/-- `apply_momentum_active_entries`. -/
def applyMomentumActiveEntries (active : List MomentumActivePoolEntry) : TrackPins :=
  active.foldl (fun ctx a =>
    (momentumPairOf (toLex (a.mint, a.pool))).elim ctx fun pair =>
      momentumBoard.pin ctx pair a.pinReason) ctx

/-- `apply_momentum_active_pools_update`. -/
def applyMomentumActivePoolsUpdate (u : MomentumActivePoolsUpdate) : TrackPins :=
  let ctx := if u.fullActiveSnapshot then applyMomentumSnapshotReconcile ctx u.active else ctx
  applyMomentumActiveEntries (applyMomentumRemovedEntries ctx u.removed) u.active

/-- `apply_momentum_active_pools_on_track_worker`: long updates are applied in chunks. -/
def applyMomentumActivePoolsOnTrackWorker (u : MomentumActivePoolsUpdate) : TrackPins :=
  if u.active.length + u.removed.length ≤ marketDataMomentumApplyChunkThreshold then
    applyMomentumActivePoolsUpdate ctx u
  else
    let ctx := if u.fullActiveSnapshot then applyMomentumSnapshotReconcile ctx u.active else ctx
    let ctx := (chunks marketDataMomentumApplyChunkSize u.removed).foldl
      applyMomentumRemovedEntries ctx
    (chunks marketDataMomentumApplyChunkSize u.active).foldl applyMomentumActiveEntries ctx

/-! ### Arbitrage -/

/-- `MARKET_DATA_ARB_APPLY_CHUNK_THRESHOLD`. -/
def marketDataArbApplyChunkThreshold : Nat := 32

/-- `MARKET_DATA_ARB_APPLY_CHUNK_SIZE`. -/
def marketDataArbApplyChunkSize : Nat := 16

/-- `apply_arb_snapshot_reconcile`. -/
def applyArbSnapshotReconcile (active : List ArbTrackActiveEntry) : TrackPins :=
  arbBoard.reconcile ctx (active.filterMap fun a => arbPoolOf a.pool).toFinset

/-- `apply_arb_removed_entries`. -/
def applyArbRemovedEntries (removed : List ArbTrackRemovedEntry) : TrackPins :=
  removed.foldl (fun ctx r => (arbPoolOf r.pool).elim ctx fun pool => arbBoard.unpin ctx pool) ctx

/-- `apply_arb_active_entries`. -/
def applyArbActiveEntries (active : List ArbTrackActiveEntry) : TrackPins :=
  active.foldl (fun ctx a =>
    (arbPoolOf a.pool).elim ctx fun pool => arbBoard.pin ctx pool (some a.readiness)) ctx

/-- `apply_arb_track_requests_update`. -/
def applyArbTrackRequestsUpdate (u : ArbTrackRequestsUpdate) : TrackPins :=
  let ctx := if u.reconcile then applyArbSnapshotReconcile ctx u.active else ctx
  applyArbActiveEntries (applyArbRemovedEntries ctx u.removed) u.active

/-- `apply_arb_track_requests_on_track_worker`: long updates are applied in chunks. -/
def applyArbTrackRequestsOnTrackWorker (u : ArbTrackRequestsUpdate) : TrackPins :=
  if u.active.length + u.removed.length ≤ marketDataArbApplyChunkThreshold then
    applyArbTrackRequestsUpdate ctx u
  else
    let ctx := if u.reconcile then applyArbSnapshotReconcile ctx u.active else ctx
    let ctx := (chunks marketDataArbApplyChunkSize u.removed).foldl applyArbRemovedEntries ctx
    (chunks marketDataArbApplyChunkSize u.active).foldl applyArbActiveEntries ctx

end Apply

/-! ## 3. The worker applies batches -/

/-- How a momentum update and its merge are read. -/
def momentumReading : Reading MomentumPoolKey MomentumActivePoolEntry MomentumRemovedPoolEntry
    MomentumActivePinReason where
  keyOf a := toLex (a.mint, a.pool)
  value := MomentumActivePoolEntry.pinReason
  droppedKey r := toLex (r.mint, r.pool)
  combine existing a :=
    { a with pinReason := mergeMomentumActivePinReason existing.pinReason a.pinReason }
  join := mergeMomentumActivePinReason
  key_combine _ _ := rfl
  value_combine _ _ := rfl

/-- Momentum updates as batches. -/
def momentumFeed : Feed MomentumActivePoolsUpdate MomentumActivePoolEntry MomentumRemovedPoolEntry
    MomentumPoolKey MomentumPair MomentumActivePinReason where
  wipe := MomentumActivePoolsUpdate.fullActiveSnapshot
  removed := MomentumActivePoolsUpdate.removed
  active := MomentumActivePoolsUpdate.active
  reading := momentumReading
  read := momentumPairOf

/-- How an arbitrage update and its merge are read: the last entry of a pool replaces the others. -/
def arbReading : Reading String ArbTrackActiveEntry ArbTrackRemovedEntry
    (Option ArbTrackReadiness) where
  keyOf := ArbTrackActiveEntry.pool
  value a := some a.readiness
  droppedKey := ArbTrackRemovedEntry.pool
  combine _ a := a
  join := Overwrite.overwrite
  key_combine _ _ := rfl
  value_combine _ _ := rfl

/-- Arbitrage updates as batches. -/
def arbFeed : Feed ArbTrackRequestsUpdate ArbTrackActiveEntry ArbTrackRemovedEntry String Pubkey
    (Option ArbTrackReadiness) where
  wipe := ArbTrackRequestsUpdate.reconcile
  removed := ArbTrackRequestsUpdate.removed
  active := ArbTrackRequestsUpdate.active
  reading := arbReading
  read := arbPoolOf

/-- Chunks are applied like the whole list. -/
theorem foldl_chunks {α : Type} (f : TrackPins → α → TrackPins) (size : Nat) (l : List α)
    (ctx : TrackPins) :
    (chunks size l).foldl (fun ctx chunk => chunk.foldl f ctx) ctx = l.foldl f ctx := by
  rw [← List.foldl_flatten, flatten_chunks]

/-- **The worker applies a momentum update as a batch**, in chunks or not. -/
theorem momentum_apply_eq (ctx : TrackPins) (u : MomentumActivePoolsUpdate) :
    applyMomentumActivePoolsOnTrackWorker ctx u = momentumFeed.apply momentumBoard ctx u := by
  have hplain : applyMomentumActivePoolsOnTrackWorker ctx u =
      applyMomentumActivePoolsUpdate ctx u := by
    unfold applyMomentumActivePoolsOnTrackWorker
    split
    · rfl
    · refine (foldl_chunks _ _ _ _).trans ?_
      show applyMomentumActiveEntries (List.foldl _ _ _) u.active = _
      exact congrArg (applyMomentumActiveEntries · u.active) (foldl_chunks _ _ _ _)
  rw [hplain, Feed.apply_eq]
  simp only [momentumFeed, momentumReading]
  rfl

/-- The worker applies an arbitrage update like one that is not chunked. -/
theorem applyArbTrackRequestsOnTrackWorker_eq (ctx : TrackPins) (u : ArbTrackRequestsUpdate) :
    applyArbTrackRequestsOnTrackWorker ctx u = applyArbTrackRequestsUpdate ctx u := by
  unfold applyArbTrackRequestsOnTrackWorker
  split
  · rfl
  · refine (foldl_chunks _ _ _ _).trans ?_
    show applyArbActiveEntries (List.foldl _ _ _) u.active = _
    exact congrArg (applyArbActiveEntries · u.active) (foldl_chunks _ _ _ _)

/-- **The worker applies an arbitrage update as a batch**, in chunks or not. -/
theorem arb_apply_eq (ctx : TrackPins) (u : ArbTrackRequestsUpdate) :
    applyArbTrackRequestsOnTrackWorker ctx u = arbFeed.apply arbBoard ctx u := by
  rw [applyArbTrackRequestsOnTrackWorker_eq, Feed.apply_eq]
  simp only [arbFeed, arbReading]
  rfl

/-! ## 4. The merges are accumulators -/

/-- The maps of the momentum merge. -/
def MomentumMerge.accum (m : MomentumMerge) :
    Overwrite.Accum MomentumPoolKey MomentumActivePoolEntry MomentumRemovedPoolEntry :=
  ⟨m.activeMap, m.removedMap, m.sawFullSnapshot⟩

theorem MomentumMerge.accum_activate (m : MomentumMerge) (a : MomentumActivePoolEntry) :
    (m.activate a).accum = m.accum.activate momentumReading a := by
  unfold MomentumMerge.activate Overwrite.Accum.activate MomentumMerge.accum
  simp only [momentumReading]
  cases m.activeMap.lookup (toLex (a.mint, a.pool)) <;> rfl

theorem MomentumMerge.accum_restart (m : MomentumMerge) (target : List MomentumPoolKey) :
    (m.restart target).accum = m.accum.restart target := by
  unfold MomentumMerge.restart Overwrite.Accum.restart MomentumMerge.accum
  congr! 3
  funext key
  exact decide_eq_decide.mpr Iff.rfl

/-- **One update of a momentum burst** is one batch. -/
theorem MomentumMerge.accum_update (m : MomentumMerge) (u : MomentumActivePoolsUpdate) :
    (m.update u).accum =
      m.accum.step momentumReading u.fullActiveSnapshot u.removed u.active := by
  have hactivate : ∀ (l : List MomentumActivePoolEntry) (m : MomentumMerge),
      (l.foldl activate m).accum = l.foldl (Overwrite.Accum.activate momentumReading) m.accum :=
    fun l m => (List.foldl_hom MomentumMerge.accum fun m a => (m.accum_activate a).symm).symm
  have hremove : ∀ (l : List MomentumRemovedPoolEntry) (m : MomentumMerge),
      (l.foldl remove m).accum = l.foldl (Overwrite.Accum.remove momentumReading) m.accum :=
    fun l m => (List.foldl_hom MomentumMerge.accum fun _ _ => rfl).symm
  unfold MomentumMerge.update Overwrite.Accum.step
  rw [hactivate, hremove]
  cases u.fullActiveSnapshot with
  | false => rfl
  | true => rw [if_pos rfl, if_pos rfl, accum_restart]; rfl

/-- **The merge of a momentum burst** says what the accumulators hold. -/
theorem isMerge_momentum {updates : List MomentumActivePoolsUpdate}
    {merged : MomentumActivePoolsUpdate}
    (h : mergeMomentumActivePoolsUpdates updates = some merged) :
    momentumFeed.IsMerge merged (momentumFeed.sum updates) := by
  have hfold : ∀ m : MomentumMerge,
      updates.foldl (fun acc u =>
        acc.step momentumReading u.fullActiveSnapshot u.removed u.active) m.accum =
      (updates.foldl MomentumMerge.update m).accum :=
    fun m => List.foldl_hom MomentumMerge.accum fun m u => (m.accum_update u).symm
  have hsum : momentumFeed.sum updates =
      (updates.foldl MomentumMerge.update ⟨.empty, .empty, false, 0, 0⟩).accum :=
    hfold ⟨.empty, .empty, false, 0, 0⟩
  unfold mergeMomentumActivePoolsUpdates at h
  split at h
  · cases h
  · rw [hsum]
    cases h
    exact ⟨rfl, .refl _, .refl _⟩

/-- The maps of the arbitrage merge. -/
def ArbMerge.accum (m : ArbMerge) :
    Overwrite.Accum String ArbTrackActiveEntry ArbTrackRemovedEntry :=
  ⟨m.activeMap, m.removedMap, m.sawReconcile⟩

theorem ArbMerge.accum_activate (m : ArbMerge) (a : ArbTrackActiveEntry) :
    (m.activate a).accum = m.accum.activate arbReading a := by
  unfold ArbMerge.activate Overwrite.Accum.activate ArbMerge.accum
  simp only [arbReading]
  cases m.activeMap.lookup a.pool <;> rfl

/-- **One update of an arbitrage burst** is one batch. -/
theorem ArbMerge.accum_update (m : ArbMerge) (u : ArbTrackRequestsUpdate) :
    (m.update u).accum = m.accum.step arbReading u.reconcile u.removed u.active := by
  have hactivate : ∀ (l : List ArbTrackActiveEntry) (m : ArbMerge),
      (l.foldl activate m).accum = l.foldl (Overwrite.Accum.activate arbReading) m.accum :=
    fun l m => (List.foldl_hom ArbMerge.accum fun m a => (m.accum_activate a).symm).symm
  have hremove : ∀ (l : List ArbTrackRemovedEntry) (m : ArbMerge),
      (l.foldl remove m).accum = l.foldl (Overwrite.Accum.remove arbReading) m.accum :=
    fun l m => (List.foldl_hom ArbMerge.accum fun _ _ => rfl).symm
  unfold ArbMerge.update Overwrite.Accum.step
  rw [hactivate, hremove]
  cases u.reconcile <;> rfl

/-- **The merge of an arbitrage burst** says what the accumulators hold. -/
theorem isMerge_arb {updates : List ArbTrackRequestsUpdate} {merged : ArbTrackRequestsUpdate}
    (h : mergeArbTrackRequestsUpdates updates = some merged) :
    arbFeed.IsMerge merged (arbFeed.sum updates) := by
  have hfold : ∀ m : ArbMerge,
      updates.foldl (fun acc u => acc.step arbReading u.reconcile u.removed u.active) m.accum =
      (updates.foldl ArbMerge.update m).accum :=
    fun m => List.foldl_hom ArbMerge.accum fun m u => (m.accum_update u).symm
  have hsum : arbFeed.sum updates =
      (updates.foldl ArbMerge.update ⟨.empty, .empty, false, 0, 0⟩).accum :=
    hfold ⟨.empty, .empty, false, 0, 0⟩
  unfold mergeArbTrackRequestsUpdates at h
  split at h
  · cases h
  · rw [hsum]
    cases h
    exact ⟨rfl, .refl _, .refl _⟩

/-! ## 5. Positions that are held -/

/-- The update lists the pair as a position. -/
def ListsPosition (pair : MomentumPair) (u : MomentumActivePoolsUpdate) : Prop :=
  ∃ a ∈ u.active, momentumPairOf (toLex (a.mint, a.pool)) = some pair ∧ a.pinReason = .position

/-- The update removes the pair, or starts over with a full snapshot. -/
def Unlists (pair : MomentumPair) (u : MomentumActivePoolsUpdate) : Prop :=
  u.fullActiveSnapshot = true ∨ ∃ r ∈ u.removed, momentumPairOf (toLex (r.mint, r.pool)) = some pair

/-- Some update of the burst lists the pair as a position, and no later one unlists it. -/
def HeldPosition (updates : List MomentumActivePoolsUpdate) (pair : MomentumPair) : Prop :=
  ∃ before u after, updates = before ++ u :: after ∧ ListsPosition pair u ∧
    ∀ u' ∈ after, ¬ Unlists pair u'

theorem heldPosition_snoc {updates : List MomentumActivePoolsUpdate}
    {u : MomentumActivePoolsUpdate} {pair : MomentumPair} :
    HeldPosition (updates ++ [u]) pair ↔
      ListsPosition pair u ∨ HeldPosition updates pair ∧ ¬ Unlists pair u := by
  constructor
  · rintro ⟨before, u', after, heq, hlist, hafter⟩
    rcases List.eq_nil_or_concat after with rfl | ⟨after, last, rfl⟩
    · obtain ⟨_, h⟩ := List.append_inj' heq rfl
      cases h
      exact .inl hlist
    · rw [List.concat_eq_append, ← List.cons_append, ← List.append_assoc] at heq
      obtain ⟨rfl, h⟩ := List.append_inj' heq rfl
      cases h
      refine .inr ⟨⟨before, u', after, rfl, hlist, fun v hv => hafter v ?_⟩, hafter u ?_⟩
      · rw [List.concat_eq_append]
        exact List.mem_append_left _ hv
      · rw [List.concat_eq_append]
        exact List.mem_append_right _ (List.mem_singleton_self _)
  · rintro (hlist | ⟨⟨before, u', after, rfl, hlist, hafter⟩, hu⟩)
    · exact ⟨updates, u, [], rfl, hlist, fun v hv => nomatch hv⟩
    · refine ⟨before, u', after ++ [u], by simp, hlist, fun v hv => ?_⟩
      rcases List.mem_append.mp hv with hv | hv
      · exact hafter v hv
      · rwa [List.mem_singleton.mp hv]

theorem merge_eq_position (w v : MomentumActivePinReason) :
    momentumFeed.reading.join w v = .position ↔ w = .position ∨ v = .position := by
  cases w <;> cases v <;> decide

/-- What a burst comes to at a pair when positions are not downgraded. -/
def heldOutcome (updates : List MomentumActivePoolsUpdate) (pair : MomentumPair) :
    Overwrite.Outcome MomentumActivePinReason :=
  Overwrite.outcome momentumFeed.reading.join
    (Overwrite.rekey momentumFeed.read (momentumFeed.edits updates)) pair

/-- **The merge holds a pair as a position exactly when the burst does.** -/
theorem held_iff_heldPosition (updates : List MomentumActivePoolsUpdate) (pair : MomentumPair) :
    (heldOutcome updates pair).Has (· = .position) ↔ HeldPosition updates pair := by
  induction updates using List.reverseRecOn with
  | nil =>
      constructor
      · rintro ⟨v, hv, _⟩
        cases hv
      · rintro ⟨before, u, after, heq, _⟩
        exact absurd heq.symm (by simp)
  | append_singleton updates u ih =>
      rw [heldPosition_snoc, ← ih]
      unfold heldOutcome
      rw [Feed.edits_snoc, Overwrite.rekey_append, Overwrite.outcome_append, Feed.rekey_edits,
        Overwrite.has_foldSteps_batch merge_eq_position]
      refine or_congr ?_ (and_congr_right fun _ => not_congr (or_congr_right ?_))
      · constructor
        · rintro ⟨v, hv, hpos⟩
          obtain ⟨a, ha, hput⟩ := List.mem_filterMap.mp hv
          obtain ⟨k, hk, heq⟩ := Option.map_eq_some_iff.mp hput
          cases heq
          exact ⟨a, ha, hk, hpos⟩
        · rintro ⟨a, ha, hpair, hpos⟩
          refine ⟨.position, List.mem_filterMap.mpr ⟨a, ha, ?_⟩, rfl⟩
          exact Option.map_eq_some_iff.mpr ⟨pair, hpair, by rw [← hpos]; rfl⟩
      · exact List.mem_filterMap

/-! ## 6. One update against many -/

/-- The entries of a merged update in any order. -/
def MomentumActivePoolsUpdate.SameEntries (u merged : MomentumActivePoolsUpdate) : Prop :=
  u.fullActiveSnapshot = merged.fullActiveSnapshot ∧ u.removed.Perm merged.removed ∧
    u.active.Perm merged.active

/-- The entries of a merged update in any order. -/
def ArbTrackRequestsUpdate.SameEntries (u merged : ArbTrackRequestsUpdate) : Prop :=
  u.reconcile = merged.reconcile ∧ u.removed.Perm merged.removed ∧ u.active.Perm merged.active

/-- Where a full snapshot repeats the target of the last one, nothing else is pinned. -/
def MomentumSettled (ctx : TrackPins) (u : MomentumActivePoolsUpdate) : Prop :=
  let target := (u.active.filterMap fun a => momentumPairOf (toLex (a.mint, a.pool))).toFinset
  u.fullActiveSnapshot = true → ctx.lastMomentumSnapshotTarget = some target →
    ∀ pair ∈ ctx.hotPoolRegistry.momentumPairs, pair ∈ target

/-- Where a reconcile repeats the target of the last one, nothing else is pinned. -/
def ArbSettled (ctx : TrackPins) (u : ArbTrackRequestsUpdate) : Prop :=
  let target := (u.active.filterMap fun a => arbPoolOf a.pool).toFinset
  u.reconcile = true → ctx.lastArbSnapshotTarget = some target →
    ∀ pool ∈ ctx.hotPoolRegistry.arbPools, pool ∈ target

theorem momentumSettled_iff (ctx : TrackPins) (u : MomentumActivePoolsUpdate) :
    momentumFeed.Settled momentumBoard ctx u ↔ MomentumSettled ctx u := by
  unfold Feed.Settled
  rw [Feed.map_fst_puts]
  rfl

theorem arbSettled_iff (ctx : TrackPins) (u : ArbTrackRequestsUpdate) :
    arbFeed.Settled arbBoard ctx u ↔ ArbSettled ctx u := by
  unfold Feed.Settled
  rw [Feed.map_fst_puts]
  rfl

/-- The pins after the updates one by one. -/
theorem momentumPin_run {ctx : TrackPins} {updates : List MomentumActivePoolsUpdate}
    (h : Along applyMomentumActivePoolsOnTrackWorker MomentumSettled ctx updates)
    (pair : MomentumPair) :
    (foldSteps applyMomentumActivePoolsOnTrackWorker ctx updates).hotPoolRegistry.momentumPin pair =
      (Overwrite.outcome Overwrite.overwrite
        (Overwrite.rekey momentumFeed.read (momentumFeed.edits updates)) pair).onto
        (ctx.hotPoolRegistry.momentumPin pair) := by
  have happly : applyMomentumActivePoolsOnTrackWorker = momentumFeed.apply momentumBoard :=
    funext₂ momentum_apply_eq
  rw [happly] at h ⊢
  exact Feed.view_run (Machine.along_mono (fun _ _ => (momentumSettled_iff _ _).mpr) h) pair

/-- The pins after the merged update. -/
theorem momentumPin_merged {ctx : TrackPins} {updates : List MomentumActivePoolsUpdate}
    {sent : MomentumActivePoolsUpdate} (hs : momentumFeed.IsMerge sent (momentumFeed.sum updates))
    (hone : OneSpelling momentumPairOf (momentumFeed.names updates))
    (h : MomentumSettled ctx sent) (pair : MomentumPair) :
    (applyMomentumActivePoolsOnTrackWorker ctx sent).hotPoolRegistry.momentumPin pair =
      (heldOutcome updates pair).onto (ctx.hotPoolRegistry.momentumPin pair) := by
  rw [momentum_apply_eq]
  exact (Feed.view_apply ((momentumSettled_iff ctx sent).mpr h) pair).trans
    (congrArg _ (Feed.outcome_isMerge hs hone Overwrite.overwrite pair))

/-- **Momentum**: the pairs are the same, and a pair that the burst holds as a position is one. -/
theorem momentum_merges {ctx : TrackPins} {updates : List MomentumActivePoolsUpdate}
    {sent : MomentumActivePoolsUpdate} (hs : momentumFeed.IsMerge sent (momentumFeed.sum updates))
    (hone : OneSpelling momentumPairOf (momentumFeed.names updates))
    (h : MomentumSettled ctx sent)
    (heach : Along applyMomentumActivePoolsOnTrackWorker MomentumSettled ctx updates)
    (pair : MomentumPair) :
    let one := (applyMomentumActivePoolsOnTrackWorker ctx sent).hotPoolRegistry
    let each := (foldSteps applyMomentumActivePoolsOnTrackWorker ctx updates).hotPoolRegistry
    (pair ∈ one.momentumPairs ↔ pair ∈ each.momentumPairs) ∧
      (pair ∈ one.momentumPositionPairs ↔
        pair ∈ each.momentumPositionPairs ∨ HeldPosition updates pair) := by
  intro one each
  have hsent : one.momentumPin pair = _ := momentumPin_merged hs hone h pair
  have hrun : each.momentumPin pair = _ := momentumPin_run heach pair
  have hkind := Overwrite.kind_outcome momentumFeed.reading.join Overwrite.overwrite
    (Overwrite.rekey momentumFeed.read (momentumFeed.edits updates)) pair
  constructor
  · show pair ∈ one.snapshotPairs ↔ pair ∈ each.snapshotPairs
    rw [one.mem_snapshotPairs, each.mem_snapshotPairs, hsent, hrun, heldOutcome,
      Overwrite.isSome_onto_of_kind hkind]
  · rw [one.mem_momentumPositionPairs, each.mem_momentumPositionPairs, hsent, hrun,
      ← held_iff_heldPosition]
    exact Overwrite.onto_has_iff hkind
      (Overwrite.has_of_overwrite fun w v hv => (merge_eq_position w v).mpr (.inr hv)) _

/-- **Arbitrage**: the pools and their readiness are the same. -/
theorem arb_merges {ctx : TrackPins} {updates : List ArbTrackRequestsUpdate}
    {sent : ArbTrackRequestsUpdate} (hs : arbFeed.IsMerge sent (arbFeed.sum updates))
    (hone : OneSpelling arbPoolOf (arbFeed.names updates)) (h : ArbSettled ctx sent)
    (heach : Along applyArbTrackRequestsOnTrackWorker ArbSettled ctx updates) (pool : Pubkey) :
    let one := (applyArbTrackRequestsOnTrackWorker ctx sent).hotPoolRegistry
    let each := (foldSteps applyArbTrackRequestsOnTrackWorker ctx updates).hotPoolRegistry
    (pool ∈ one.arbPools ↔ pool ∈ each.arbPools) ∧
      one.arbPoolReadiness.lookup pool = each.arbPoolReadiness.lookup pool := by
  intro one each
  have hsent : one.arbPin pool = _ :=
    (congrArg (fun ctx : TrackPins => ctx.hotPoolRegistry.arbPin pool)
      (arb_apply_eq ctx sent)).trans
      (Feed.view_apply ((arbSettled_iff ctx sent).mpr h) pool)
  have happly : applyArbTrackRequestsOnTrackWorker = arbFeed.apply arbBoard :=
    funext₂ arb_apply_eq
  have hrun : each.arbPin pool = _ :=
    (congrArg (fun f => (foldSteps f ctx updates).hotPoolRegistry.arbPin pool) happly).trans
      (Feed.view_run (Machine.along_mono (fun _ _ => (arbSettled_iff _ _).mpr) (happly ▸ heach))
        pool)
  have heq : one.arbPin pool = each.arbPin pool := by
    rw [hsent, hrun]
    exact congrArg _ (Feed.outcome_isMerge hs hone Overwrite.overwrite pool)
  constructor
  · show pool ∈ one.snapshotArbPools ↔ pool ∈ each.snapshotArbPools
    rw [one.mem_snapshotArbPools, each.mem_snapshotArbPools, heq]
  · rw [one.lookup_arbPoolReadiness, each.lookup_arbPoolReadiness, heq]

/-! ### Single updates -/

/-- The worker's context at the start. -/
def TrackPins.new : TrackPins := ⟨.new, none, none⟩

/-- A momentum update that pins, or a full snapshot. -/
def momentumPins (full : Bool) (reason : MomentumActivePinReason) (mint pool : String) :
    MomentumActivePoolsUpdate :=
  ⟨1, 0, [⟨mint, pool, reason⟩], [], full⟩

/-- An arbitrage update that pins, or a reconcile. -/
def arbPins (reconcile : Bool) (pool : String) : ArbTrackRequestsUpdate :=
  ⟨1, 0, [⟨pool, .baseline, .quoteReady⟩], [], reconcile⟩

/-- An arbitrage update that removes. -/
def arbRemoves (pool : String) : ArbTrackRequestsUpdate := ⟨1, 0, [], [⟨pool, .stale⟩], false⟩

/-- **A burst merges into one update** that leaves the pins of the updates one by one, except that
    a pair the burst holds as a position stays one. -/
theorem burst_merges :
    (∀ (ctx : TrackPins) (updates : List MomentumActivePoolsUpdate), updates ≠ [] →
      OneSpelling momentumPairOf (momentumFeed.names updates) →
      Along applyMomentumActivePoolsOnTrackWorker MomentumSettled ctx updates →
      ∃ merged, mergeMomentumActivePoolsUpdates updates = some merged ∧
        ∀ sent : MomentumActivePoolsUpdate, sent.SameEntries merged → MomentumSettled ctx sent →
          ∀ pair,
            let one := (applyMomentumActivePoolsOnTrackWorker ctx sent).hotPoolRegistry
            let each :=
              (foldSteps applyMomentumActivePoolsOnTrackWorker ctx updates).hotPoolRegistry
            (pair ∈ one.momentumPairs ↔ pair ∈ each.momentumPairs) ∧
              (pair ∈ one.momentumPositionPairs ↔
                pair ∈ each.momentumPositionPairs ∨ HeldPosition updates pair)) ∧
    (∀ (ctx : TrackPins) (updates : List ArbTrackRequestsUpdate), updates ≠ [] →
      OneSpelling arbPoolOf (arbFeed.names updates) →
      Along applyArbTrackRequestsOnTrackWorker ArbSettled ctx updates →
      ∃ merged, mergeArbTrackRequestsUpdates updates = some merged ∧
        ∀ sent : ArbTrackRequestsUpdate, sent.SameEntries merged → ArbSettled ctx sent →
          ∀ pool,
            let one := (applyArbTrackRequestsOnTrackWorker ctx sent).hotPoolRegistry
            let each := (foldSteps applyArbTrackRequestsOnTrackWorker ctx updates).hotPoolRegistry
            (pool ∈ one.arbPools ↔ pool ∈ each.arbPools) ∧
              one.arbPoolReadiness.lookup pool = each.arbPoolReadiness.lookup pool) := by
  constructor
  · intro ctx updates hne hone heach
    obtain ⟨merged, hm⟩ : ∃ merged, mergeMomentumActivePoolsUpdates updates = some merged :=
      ⟨_, if_neg hne⟩
    refine ⟨merged, hm, fun sent hsame hsent pair => ?_⟩
    have hmerge := isMerge_momentum hm
    exact momentum_merges ⟨hsame.1.trans hmerge.wipe, hsame.2.1.trans hmerge.removed,
      hsame.2.2.trans hmerge.active⟩ hone hsent heach pair
  · intro ctx updates hne hone heach
    obtain ⟨merged, hm⟩ : ∃ merged, mergeArbTrackRequestsUpdates updates = some merged :=
      ⟨_, if_neg hne⟩
    refine ⟨merged, hm, fun sent hsame hsent pool => ?_⟩
    have hmerge := isMerge_arb hm
    exact arb_merges ⟨hsame.1.trans hmerge.wipe, hsame.2.1.trans hmerge.removed,
      hsame.2.2.trans hmerge.active⟩ hone hsent heach pool

/-- A snapshot with a position that becomes a tracker, and a reconcile, a removal and a re-add. -/
theorem burst_merges_readded :
    (let burst := [momentumPins true .position "11111111111111111111111111111112"
        "11111111111111111111111111111113",
        momentumPins false .tracker "11111111111111111111111111111112"
        "11111111111111111111111111111113"]
     ∃ merged, mergeMomentumActivePoolsUpdates burst = some merged ∧ ∀ pair,
      let one := (applyMomentumActivePoolsOnTrackWorker .new merged).hotPoolRegistry
      let each := (foldSteps applyMomentumActivePoolsOnTrackWorker .new burst).hotPoolRegistry
      (pair ∈ one.momentumPairs ↔ pair ∈ each.momentumPairs) ∧
        (pair ∈ one.momentumPositionPairs ↔
          pair ∈ each.momentumPositionPairs ∨ HeldPosition burst pair)) ∧
    (let burst := [arbPins true "11111111111111111111111111111112",
        arbRemoves "11111111111111111111111111111112",
        arbPins false "11111111111111111111111111111112"]
     ∃ merged, mergeArbTrackRequestsUpdates burst = some merged ∧ ∀ pool,
      let one := (applyArbTrackRequestsOnTrackWorker .new merged).hotPoolRegistry
      let each := (foldSteps applyArbTrackRequestsOnTrackWorker .new burst).hotPoolRegistry
      (pool ∈ one.arbPools ↔ pool ∈ each.arbPools) ∧
        one.arbPoolReadiness.lookup pool = each.arbPoolReadiness.lookup pool) := by
  constructor
  · obtain ⟨merged, hm, h⟩ := burst_merges.1 .new
      [momentumPins true .position "11111111111111111111111111111112"
        "11111111111111111111111111111113",
        momentumPins false .tracker "11111111111111111111111111111112"
        "11111111111111111111111111111113"] (List.cons_ne_nil _ _)
      (Overwrite.oneSpelling_of_eq (by decide +kernel))
      ⟨(fun _ h => nomatch h), (fun h => nomatch h), trivial⟩
    exact ⟨merged, hm, h merged ⟨rfl, .refl _, .refl _⟩ fun _ h => nomatch h⟩
  · obtain ⟨merged, hm, h⟩ := burst_merges.2 .new
      [arbPins true "11111111111111111111111111111112",
        arbRemoves "11111111111111111111111111111112",
        arbPins false "11111111111111111111111111111112"] (List.cons_ne_nil _ _)
      (Overwrite.oneSpelling_of_eq (by decide +kernel))
      ⟨(fun _ h => nomatch h), (fun h => nomatch h), (fun h => nomatch h), trivial⟩
    exact ⟨merged, hm, h merged ⟨rfl, .refl _, .refl _⟩ fun _ h => nomatch h⟩

/-! ### Where they differ -/

/-- **The merged update differs** from the updates one by one: a position that becomes a tracker,
    a pool in two spellings, and a reconcile that is skipped with another pool pinned. -/
theorem merged_differs :
    (let burst := [momentumPins false .position "11111111111111111111111111111112"
        "11111111111111111111111111111113",
        momentumPins false .tracker "11111111111111111111111111111112"
        "11111111111111111111111111111113"]
     ∃ merged, mergeMomentumActivePoolsUpdates burst = some merged ∧
      (applyMomentumActivePoolsOnTrackWorker .new merged).hotPoolRegistry.momentumPin (1, 2) =
        some .position ∧
      (foldSteps applyMomentumActivePoolsOnTrackWorker .new
        burst).hotPoolRegistry.momentumPin (1, 2) = some .tracker) ∧
    (let burst := [arbPins false " 11111111111111111111111111111112",
        arbRemoves "11111111111111111111111111111112"]
     ∃ merged, mergeArbTrackRequestsUpdates burst = some merged ∧
      (applyArbTrackRequestsOnTrackWorker .new merged).hotPoolRegistry.arbPin 1 =
        some (some .quoteReady) ∧
      (foldSteps applyArbTrackRequestsOnTrackWorker .new burst).hotPoolRegistry.arbPin 1 = none) ∧
    (let ctx := applyArbTrackRequestsOnTrackWorker .new
        (arbPins true "11111111111111111111111111111112")
     let burst := [arbPins false "11111111111111111111111111111113",
        arbPins true "11111111111111111111111111111112"]
     ∃ merged, mergeArbTrackRequestsUpdates burst = some merged ∧
      (applyArbTrackRequestsOnTrackWorker ctx merged).hotPoolRegistry.arbPin 2 = none ∧
      (foldSteps applyArbTrackRequestsOnTrackWorker ctx burst).hotPoolRegistry.arbPin 2 =
        some (some .quoteReady)) := by
  refine ⟨⟨_, rfl, ?_⟩, ⟨_, rfl, ?_⟩, ⟨_, rfl, ?_⟩⟩
  · decide +kernel
  · decide +kernel
  · decide +kernel

end IronCrab.Track

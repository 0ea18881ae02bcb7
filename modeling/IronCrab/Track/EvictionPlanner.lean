/-
  File:      IronCrab/Track/EvictionPlanner.lean
  Subject:   WHICH OWNERS GO WHEN THE CAP IS TIGHT (`eviction_planner.rs`).

  First the feasibility analysis finds the least tier whose owners, all removed, free enough; then
  the selector picks victims among them one by one -- the first in priority/LRU order whose removal
  frees something at once -- and, where every remaining pubkey is shared, a whole package of
  owners. `Selecting` ties the selector's counters to the true union after the removals; while not
  enough is freed, there is always a next pick (`selectStep_progress`), so the loop ends with
  enough freed (`executeVictimSelection_spec`).
-/
import IronCrab.Track.PlanningSnapshot
import Mathlib.Data.List.Lex
import Mathlib.Order.Compare

namespace IronCrab.Track

/-! ## 1. Tiers -/

/-- `EvictionTier`. -/
inductive EvictionTier where
  | tracker
  | arb
  | momentum
  | momentumPosition
  deriving DecidableEq

namespace EvictionTier

/-- The position in the declaration, which the derived order compares. -/
def ordinal : EvictionTier → Nat
  | tracker => 0
  | arb => 1
  | momentum => 2
  | momentumPosition => 3

/-- `cumulative_consumers`. -/
def cumulativeConsumers : EvictionTier → List ExplicitConsumer
  | tracker => [.tracker]
  | arb => [.tracker, .arb]
  | momentum => [.tracker, .arb, .momentum]
  | momentumPosition => [.tracker, .arb, .momentum, .momentumPosition]

/-- `allowed_for_incoming`. -/
def allowedForIncoming : ExplicitConsumer → List EvictionTier
  | .tracker => [tracker]
  | .arb => [tracker, arb]
  | .momentum => [tracker, arb, momentum]
  | .momentumPosition => [tracker, arb, momentum, momentumPosition]
  | .wallet => [tracker, arb, momentum, momentumPosition]

/-- The last allowed tier (`allowed_tiers.last()`). -/
def maxTier (allowed : List EvictionTier) : EvictionTier := allowed.getLast?.getD tracker

theorem wallet_notMem_cumulativeConsumers (tier : EvictionTier) :
    ExplicitConsumer.wallet ∉ tier.cumulativeConsumers := by
  cases tier <;> decide

/-- The allowed tiers of every consumer are opened in order. -/
theorem pairwise_allowedForIncoming (consumer : ExplicitConsumer) :
    (allowedForIncoming consumer).Pairwise fun a b => a.ordinal < b.ordinal := by
  cases consumer <;> decide

theorem maxTier_mem (consumer : ExplicitConsumer) :
    maxTier (allowedForIncoming consumer) ∈ allowedForIncoming consumer := by
  cases consumer <;> decide

/-- A later tier includes the earlier ones. -/
theorem cumulativeConsumers_mono {a b : EvictionTier} (h : a.ordinal ≤ b.ordinal) :
    ∀ c ∈ a.cumulativeConsumers, c ∈ b.cumulativeConsumers := by
  cases a <;> cases b <;> first | decide | exact absurd h (by decide)

theorem ordinal_le_maxTier {consumer : ExplicitConsumer} {tier : EvictionTier}
    (h : tier ∈ allowedForIncoming consumer) :
    tier.ordinal ≤ (maxTier (allowedForIncoming consumer)).ordinal := by
  cases consumer <;> simp [allowedForIncoming] at h <;>
    rcases h with rfl | rfl | rfl | rfl <;> decide

end EvictionTier

/-- `CAP_SHRINK_ALLOWED_TIERS`. -/
def capShrinkAllowedTiers : List EvictionTier :=
  [.tracker, .arb, .momentum, .momentumPosition]

/-- `consumer_eviction_priority`. -/
def consumerEvictionPriority : ExplicitConsumer → Nat
  | .tracker => 0
  | .arb => 1
  | .momentum => 2
  | .momentumPosition => 3
  | .wallet => 255

/-! ## 2. Feasibility -/

/-- `TierFeasibilityRequest`, which is also `VictimSelectionRequest`. -/
structure TierFeasibilityRequest where
  incomingOwner : ExplicitOwner
  incomingPubkeys : List Pubkey
  cap : Nat

/-- `TierFeasibilityResult`. -/
inductive TierFeasibilityResult where
  | noEvictionNeeded (incomingPhysicalAdded projectedFinalLen : Nat)
  | feasible (incomingPhysicalAdded requiredToFree : Nat) (openedThrough : EvictionTier)
      (maximallyFreeablePubkeys : List Pubkey)
  | rejectedProtected (incomingPhysicalAdded requiredToFree : Nat)
      (maximallyFreeablePubkeys : List Pubkey)
  | rejectedInvalidInput
  | internalInvariantViolation

/-- The owners a tier may evict (`evictable_owners_by_tier`). -/
def evictableOwners (snapshot : EvictionPlanningSnapshot) (tier : EvictionTier) :
    Finset ExplicitOwner :=
  ((snapshot.owners.map (·.owner)).filter fun owner =>
    decide (owner.consumer ≠ .wallet) && decide (owner.consumer ∈ tier.cumulativeConsumers)
    ).toFinset

/-- The pubkeys that go when a tier's owners all go (`freeable_by_tier`). -/
def freeableByTier (snapshot : EvictionPlanningSnapshot) (incomingSet : Finset Pubkey)
    (tier : EvictionTier) : List Pubkey :=
  normalizePubkeys ((snapshot.pubkeyIndex.filter fun row =>
    decide (row.pubkey ∉ incomingSet) &&
      row.owners.all fun owner => decide (owner ∈ evictableOwners snapshot tier)).map (·.pubkey))

/-- The first allowed tier that frees enough. -/
def openTier (snapshot : EvictionPlanningSnapshot) (incomingSet : Finset Pubkey)
    (allowedTiers : List EvictionTier) (requiredToFree : Nat) : Option EvictionTier :=
  allowedTiers.find? fun tier =>
    decide (requiredToFree ≤ (freeableByTier snapshot incomingSet tier).length)

/-- `analyze_tier_feasibility`. The two lengths that `checked_add` adds are lengths of vectors of
    32-byte keys; their sum is a `usize`. -/
def EvictionPlanningSnapshot.analyzeTierFeasibility (snapshot : EvictionPlanningSnapshot)
    (request : TierFeasibilityRequest) : TierFeasibilityResult :=
  let incomingPubkeys := normalizePubkeys request.incomingPubkeys
  if incomingPubkeys = [] then .rejectedInvalidInput
  else if (snapshot.ownerRecord request.incomingOwner).isSome then .rejectedInvalidInput
  else
    let incomingSet := incomingPubkeys.toFinset
    let incomingPhysicalAdded :=
      (incomingPubkeys.filter fun pubkey => decide (snapshot.ownerRefcount pubkey = 0)).length
    let projectedFinalLen := snapshot.physicalLen + incomingPhysicalAdded
    if projectedFinalLen ≤ request.cap then
      .noEvictionNeeded incomingPhysicalAdded projectedFinalLen
    else
      let requiredToFree := projectedFinalLen - request.cap
      let allowedTiers := EvictionTier.allowedForIncoming request.incomingOwner.consumer
      match openTier snapshot incomingSet allowedTiers requiredToFree with
      | some tier => .feasible incomingPhysicalAdded requiredToFree tier
          (freeableByTier snapshot incomingSet tier)
      | none => .rejectedProtected incomingPhysicalAdded requiredToFree
          (freeableByTier snapshot incomingSet (EvictionTier.maxTier allowedTiers))

/-! ## 3. The selector -/

/-- A row of the index with its entry of `projected_refcounts`. -/
structure SelectorRow where
  row : PubkeyOwnerIndex
  projectedRefcount : Nat

/-- `SelectorWorkspace`. The rows of an owner (`owner_pubkey_indices`) are the rows that name it;
    `freedPubkeys` is walked in order at the end. -/
structure SelectorWorkspace where
  rows : List SelectorRow
  incomingSet : Finset Pubkey
  allowedOwners : Finset ExplicitOwner
  selected : Finset ExplicitOwner
  victims : List ExplicitOwner
  freedPubkeys : SortedSet Pubkey

namespace SelectorWorkspace

/-- The pubkeys that go at once when an owner is selected (`positive_marginal_count`). -/
def positiveMarginalCount (ws : SelectorWorkspace) (owner : ExplicitOwner) : Nat :=
  ws.rows.countP fun r => decide (owner ∈ r.row.owners) &&
    (decide (r.row.pubkey ∉ ws.incomingSet) && decide (r.projectedRefcount = 1))

/-- One row when an owner is selected. -/
def releaseRow (owner : ExplicitOwner) (r : SelectorRow) : SelectorRow :=
  if owner ∈ r.row.owners ∧ r.projectedRefcount ≠ 0 then
    { r with projectedRefcount := r.projectedRefcount - 1 }
  else r

/-- The row's last projected owner is the selected one, and its pubkey is not kept. -/
def freesRow (incomingSet : Finset Pubkey) (owner : ExplicitOwner) (r : SelectorRow) : Bool :=
  decide (owner ∈ r.row.owners) && (decide (r.projectedRefcount ≠ 0) &&
    (decide (r.projectedRefcount - 1 = 0) && decide (r.row.pubkey ∉ incomingSet)))

/-- `select_owner`. -/
def selectOwner (ws : SelectorWorkspace) (owner : ExplicitOwner) : SelectorWorkspace :=
  { ws with
    selected := insert owner ws.selected
    victims := ws.victims ++ [owner]
    rows := ws.rows.map (releaseRow owner)
    freedPubkeys := (ws.rows.filter (freesRow ws.incomingSet owner)).foldl
      (fun freed r => freed.insert r.row.pubkey ()) ws.freedPubkeys }

/-- The owners that must all go for a row's pubkey to go, if they may and it is still there. -/
def jointPackage (ws : SelectorWorkspace) (r : SelectorRow) : Option (List ExplicitOwner) :=
  if r.row.pubkey ∈ ws.incomingSet then none
  else if r.projectedRefcount = 0 then none
  else
    let remaining := r.row.owners.filter fun owner =>
      decide (owner ∈ ws.allowedOwners) && decide (owner ∉ ws.selected)
    if remaining = [] then none
    else if remaining.length ≠ r.projectedRefcount then none
    else some remaining

/-- `collect_joint_packages`; a package is the ordered list of its owners. -/
def collectJointPackages (ws : SelectorWorkspace) : List (List ExplicitOwner) :=
  ((ws.rows.filterMap ws.jointPackage).foldl
    (fun packages package => packages.insert package ()) SortedMap.empty).keys

end SelectorWorkspace

/-- `owner_sort_tuple`. -/
def ownerSortTuple (snapshot : EvictionPlanningSnapshot) (owner : ExplicitOwner) :
    Nat ×ₗ Nat ×ₗ ExplicitOwner :=
  toLex (consumerEvictionPriority owner.consumer,
    toLex ((snapshot.lastTouch owner).getD 0, owner))

/-- `compare_joint_packages`. -/
def compareJointPackages (snapshot : EvictionPlanningSnapshot) (a b : List ExplicitOwner) :
    Ordering :=
  let maxPriority (package : List ExplicitOwner) :=
    (package.map fun owner => consumerEvictionPriority owner.consumer).foldl max 0
  let keys (package : List ExplicitOwner) :=
    (package.map (ownerSortTuple snapshot)).insertionSort (· ≤ ·)
  (cmp (maxPriority a) (maxPriority b)).then
    ((cmp (keys a) (keys b)).then ((cmp a.length b.length).then (cmp a b)))

/-- `min_by`: the first of the least elements. -/
def minBy {α : Type} (compare : α → α → Ordering) : List α → Option α
  | [] => none
  | x :: l => some (l.foldl (fun best y => if compare best y = .gt then y else best) x)

/-- `build_sorted_candidates`. -/
def buildSortedCandidates (snapshot : EvictionPlanningSnapshot)
    (allowedOwners : Finset ExplicitOwner) : List ExplicitOwner :=
  ((snapshot.owners.filter fun record => decide (record.owner ∈ allowedOwners)).insertionSort
    fun a b => toLex (consumerEvictionPriority a.owner.consumer, toLex (a.lastTouch, a.owner)) ≤
      toLex (consumerEvictionPriority b.owner.consumer, toLex (b.lastTouch, b.owner))).map
    (·.owner)

/-- One turn of the selector's loop. -/
inductive SelectStep where
  | done
  | stuck
  | next (ws : SelectorWorkspace)

/-- The body of the selector's loop: a candidate whose removal frees something, else all owners of
    the best package. -/
def selectStep (snapshot : EvictionPlanningSnapshot) (candidates : List ExplicitOwner)
    (requiredToFree : Nat) (ws : SelectorWorkspace) : SelectStep :=
  if requiredToFree ≤ ws.freedPubkeys.len then .done
  else
    match candidates.find? fun owner =>
      decide (owner ∉ ws.selected) && decide (0 < ws.positiveMarginalCount owner) with
    | some owner => .next (ws.selectOwner owner)
    | none =>
        match minBy (compareJointPackages snapshot) ws.collectJointPackages with
        | none => .stuck
        | some best => .next (candidates.foldl (fun ws owner =>
            if owner ∈ best ∧ owner ∉ ws.selected then ws.selectOwner owner else ws) ws)

/-- The selector's loop; `none` when the fuel runs out. -/
def selectLoop (snapshot : EvictionPlanningSnapshot) (candidates : List ExplicitOwner)
    (requiredToFree : Nat) : Nat → SelectorWorkspace → Option (Option SelectorWorkspace)
  | 0, _ => none
  | fuel + 1, ws =>
      match selectStep snapshot candidates requiredToFree ws with
      | .done => some (some ws)
      | .stuck => some none
      | .next ws => selectLoop snapshot candidates requiredToFree fuel ws

/-- The workspace the selector starts with. -/
def SelectorWorkspace.start (snapshot : EvictionPlanningSnapshot) (incomingSet : Finset Pubkey)
    (allowedOwners : Finset ExplicitOwner) : SelectorWorkspace where
  rows := snapshot.pubkeyIndex.map fun row => ⟨row, row.refcount⟩
  incomingSet := incomingSet
  allowedOwners := allowedOwners
  selected := ∅
  victims := []
  freedPubkeys := .empty

/-- `execute_victim_selection`. Every turn selects a candidate, so one turn more than there are
    candidates is enough fuel. -/
def executeVictimSelection (snapshot : EvictionPlanningSnapshot) (incomingSet : Finset Pubkey)
    (requiredToFree : Nat) (openedThrough : EvictionTier) :
    Option (List ExplicitOwner × List Pubkey) :=
  let allowedOwners := evictableOwners snapshot openedThrough
  let candidates := buildSortedCandidates snapshot allowedOwners
  match selectLoop snapshot candidates requiredToFree (candidates.length + 1)
    (.start snapshot incomingSet allowedOwners) with
  | some (some ws) => some (ws.victims, ws.freedPubkeys.keys)
  | _ => none

/-! ## 4. The two planners -/

/-- `VictimSelectionPlan`. -/
structure VictimSelectionPlan where
  victims : List ExplicitOwner
  physicalFreed : List Pubkey
  incomingPhysicalAdded : Nat
  projectedFinalLen : Nat
  openedThrough : EvictionTier

/-- `VictimSelectionResult`. -/
inductive VictimSelectionResult where
  | noEvictionNeeded (incomingPhysicalAdded projectedFinalLen : Nat)
  | planned (plan : VictimSelectionPlan)
  | rejectedProtected (incomingPhysicalAdded requiredToFree : Nat)
  | rejectedInvalidInput
  | internalInvariantViolation

/-- `run_victim_selection`. -/
def runVictimSelection (snapshot : EvictionPlanningSnapshot) (request : TierFeasibilityRequest)
    (incomingPhysicalAdded requiredToFree : Nat) (openedThrough : EvictionTier) :
    VictimSelectionResult :=
  let incomingSet := (normalizePubkeys request.incomingPubkeys).toFinset
  match executeVictimSelection snapshot incomingSet requiredToFree openedThrough with
  | none => .internalInvariantViolation
  | some (victims, physicalFreed) =>
      -- `checked_sub`
      if physicalFreed.length ≤ snapshot.physicalLen + incomingPhysicalAdded then
        .planned ⟨victims, physicalFreed, incomingPhysicalAdded,
          snapshot.physicalLen + incomingPhysicalAdded - physicalFreed.length, openedThrough⟩
      else .internalInvariantViolation

/-- `select_eviction_victims`. -/
def selectEvictionVictims (snapshot : EvictionPlanningSnapshot)
    (request : TierFeasibilityRequest) : VictimSelectionResult :=
  match snapshot.analyzeTierFeasibility request with
  | .noEvictionNeeded added projected => .noEvictionNeeded added projected
  | .rejectedInvalidInput => .rejectedInvalidInput
  | .internalInvariantViolation => .internalInvariantViolation
  | .rejectedProtected added required _ => .rejectedProtected added required
  | .feasible added required opened _ => runVictimSelection snapshot request added required opened

/-- `CapShrinkSelectionPlan`. -/
structure CapShrinkSelectionPlan where
  victims : List ExplicitOwner
  physicalFreed : List Pubkey
  projectedFinalLen : Nat
  openedThrough : EvictionTier

/-- `CapShrinkSelectionResult`. -/
inductive CapShrinkSelectionResult where
  | noShrinkNeeded
  | planned (plan : CapShrinkSelectionPlan)
  | rejectedProtected (requiredToFree : Nat)
  | internalInvariantViolation

/-- `select_cap_shrink_victims`, with `analyze_cap_shrink_feasibility`: the same with nothing
    coming in and every tier allowed. -/
def selectCapShrinkVictims (snapshot : EvictionPlanningSnapshot) (targetCap : Nat) :
    CapShrinkSelectionResult :=
  if snapshot.physicalLen ≤ targetCap then .noShrinkNeeded
  else
    let requiredToFree := snapshot.physicalLen - targetCap
    match openTier snapshot ∅ capShrinkAllowedTiers requiredToFree with
    | none => .rejectedProtected requiredToFree
    | some openedThrough =>
        match executeVictimSelection snapshot ∅ requiredToFree openedThrough with
        | none => .internalInvariantViolation
        | some (victims, physicalFreed) =>
            if physicalFreed.length ≤ snapshot.physicalLen then
              .planned ⟨victims, physicalFreed, snapshot.physicalLen - physicalFreed.length,
                openedThrough⟩
            else .internalInvariantViolation

/-! ## 5. What the feasibility analysis counts -/

namespace ExplicitOwnership

/-- The owners a tier may evict. -/
def tierOwners (own : ExplicitOwnership) (tier : EvictionTier) : Finset ExplicitOwner :=
  own.owners.filter fun owner => owner.consumer ∈ tier.cumulativeConsumers

/-- The pubkeys that go when these owners go and the incoming ones stay. -/
def freed (own : ExplicitOwnership) (victims : Finset ExplicitOwner) (incoming : Finset Pubkey) :
    Finset Pubkey := Cover.lost own.owners own.groupSet victims incoming

theorem mem_freed {own : ExplicitOwnership} {victims : Finset ExplicitOwner}
    {incoming : Finset Pubkey} {pubkey : Pubkey} : pubkey ∈ own.freed victims incoming ↔
      pubkey ∈ own.union ∧ pubkey ∉ incoming ∧ own.holders pubkey ⊆ victims := Cover.mem_lost

theorem tierOwners_mono (own : ExplicitOwnership) {a b : EvictionTier}
    (h : a.ordinal ≤ b.ordinal) : own.tierOwners a ⊆ own.tierOwners b := by
  intro owner ho
  obtain ⟨hm, hc⟩ := Finset.mem_filter.mp ho
  exact Finset.mem_filter.mpr ⟨hm, EvictionTier.cumulativeConsumers_mono h _ hc⟩

end ExplicitOwnership

open ExplicitOwnership

section Feasibility

variable {s : EvictionPlanningSnapshot} {own : ExplicitOwnership} (h : s.Describes own)
include h

theorem mem_records {owner : ExplicitOwner} :
    owner ∈ s.owners.map (·.owner) ↔ owner ∈ own.owners := by
  rw [h.records]
  exact List.mem_toFinset.symm

theorem isSome_ownerRecord {owner : ExplicitOwner} :
    (s.ownerRecord owner).isSome ↔ owner ∈ own.owners := by
  unfold EvictionPlanningSnapshot.ownerRecord
  rw [List.find?_isSome, ← mem_records h, List.mem_map]
  simp only [decide_eq_true_eq]

/-- A pubkey of the union has its row. -/
theorem exists_row {pubkey : Pubkey} (hp : pubkey ∈ own.union) :
    ∃ row ∈ s.pubkeyIndex, row.pubkey = pubkey := by
  rw [← h.union, List.mem_toFinset] at hp
  exact List.mem_map.mp hp

theorem row_mem_union {row : PubkeyOwnerIndex} (hrow : row ∈ s.pubkeyIndex) :
    row.pubkey ∈ own.union := by
  rw [← h.union, List.mem_toFinset]
  exact List.mem_map_of_mem hrow

theorem mem_row_owners {row : PubkeyOwnerIndex} (hrow : row ∈ s.pubkeyIndex)
    {owner : ExplicitOwner} : owner ∈ row.owners ↔ owner ∈ own.holders row.pubkey := by
  rw [← h.holders row hrow, List.mem_toFinset]

/-- A row is found by its pubkey, with refcount zero just when there is none. -/
theorem ownerRefcount_eq_zero {pubkey : Pubkey} :
    s.ownerRefcount pubkey = 0 ↔ pubkey ∉ own.union := by
  unfold EvictionPlanningSnapshot.ownerRefcount
  cases hf : s.pubkeyIndex.find? fun row => decide (row.pubkey = pubkey) with
  | none =>
      refine iff_of_true rfl fun hp => ?_
      obtain ⟨row, hrow, heq⟩ := exists_row h hp
      exact List.find?_eq_none.mp hf row hrow (decide_eq_true heq)
  | some row =>
      have hrow := List.mem_of_find?_eq_some hf
      have hdec := List.find?_some hf
      have heq : row.pubkey = pubkey := of_decide_eq_true hdec
      have hmem : pubkey ∈ own.union := heq ▸ row_mem_union h hrow
      refine iff_of_false ?_ (not_not.mpr hmem)
      show row.refcount ≠ 0
      rw [h.refcount row hrow, heq]
      exact Finset.card_ne_zero.mpr (mem_union_iff.mp hmem)

theorem evictableOwners_eq (tier : EvictionTier) :
    evictableOwners s tier = own.tierOwners tier := by
  ext owner
  unfold evictableOwners tierOwners
  rw [List.mem_toFinset, List.mem_filter, mem_records h, Finset.mem_filter, Bool.and_eq_true,
    decide_eq_true_eq, decide_eq_true_eq]
  constructor
  · exact fun hm => ⟨hm.1, hm.2.2⟩
  · refine fun hm => ⟨hm.1, fun hw => ?_, hm.2⟩
    exact EvictionTier.wallet_notMem_cumulativeConsumers tier (hw ▸ hm.2)

/-- **The freeable pubkeys of a tier are those that go when all its owners go.** -/
theorem toFinset_freeableByTier (incoming : Finset Pubkey) (tier : EvictionTier) :
    (freeableByTier s incoming tier).toFinset = own.freed (own.tierOwners tier) incoming := by
  ext pubkey
  unfold freeableByTier
  rw [List.mem_toFinset, mem_normalizePubkeys, List.mem_map, mem_freed, evictableOwners_eq h]
  constructor
  · rintro ⟨row, hm, rfl⟩
    obtain ⟨hrow, hp⟩ := List.mem_filter.mp hm
    obtain ⟨hi, ho⟩ := Bool.and_eq_true_iff.mp hp
    refine ⟨row_mem_union h hrow, of_decide_eq_true hi, fun owner hh => ?_⟩
    exact of_decide_eq_true (List.all_eq_true.mp ho owner ((mem_row_owners h hrow).mpr hh))
  · rintro ⟨hu, hi, hsub⟩
    obtain ⟨row, hrow, rfl⟩ := exists_row h hu
    refine ⟨row, List.mem_filter.mpr ⟨hrow, Bool.and_eq_true_iff.mpr ⟨decide_eq_true hi, ?_⟩⟩, rfl⟩
    rw [List.all_eq_true]
    exact fun owner ho => decide_eq_true (hsub ((mem_row_owners h hrow).mp ho))

theorem length_freeableByTier (incoming : Finset Pubkey) (tier : EvictionTier) :
    (freeableByTier s incoming tier).length = (own.freed (own.tierOwners tier) incoming).card := by
  rw [← toFinset_freeableByTier h]
  exact SortedList.length_eq_card (pairwise_normalizePubkeys _)

/-- What the incoming group adds. -/
theorem length_added (pubkeys : List Pubkey) :
    ((normalizePubkeys pubkeys).filter fun pubkey =>
      decide (s.ownerRefcount pubkey = 0)).length = (pubkeys.toFinset \ own.union).card := by
  rw [SortedList.length_eq_card ((pairwise_normalizePubkeys pubkeys).sublist List.filter_sublist)]
  congr 1
  ext pubkey
  rw [List.mem_toFinset, List.mem_filter, mem_normalizePubkeys, decide_eq_true_eq,
    ownerRefcount_eq_zero h, Finset.mem_sdiff, List.mem_toFinset]

/-- **The tier that is opened suffices and no earlier allowed one does.** -/
theorem openTier_spec {incoming : Finset Pubkey} {allowed : List EvictionTier} {required : Nat}
    (hp : allowed.Pairwise fun a b => a.ordinal < b.ordinal) {tier : EvictionTier}
    (ho : openTier s incoming allowed required = some tier) :
    tier ∈ allowed ∧ required ≤ (own.freed (own.tierOwners tier) incoming).card ∧
      ∀ tier' ∈ allowed, required ≤ (own.freed (own.tierOwners tier') incoming).card →
        tier.ordinal ≤ tier'.ordinal := by
  unfold openTier at ho
  obtain ⟨hsat, l₁, l₂, heq, hno⟩ := List.find?_eq_some_iff_append.mp ho
  rw [decide_eq_true_eq, length_freeableByTier h] at hsat
  refine ⟨by rw [heq]; simp, hsat, fun tier' ht' hs' => ?_⟩
  rw [heq] at ht' hp
  rcases List.mem_append.mp ht' with hm | hm
  · -- an earlier tier does not suffice
    have hnot := hno tier' hm
    rw [length_freeableByTier h, decide_eq_true hs'] at hnot
    cases hnot
  · rcases List.mem_cons.mp hm with rfl | hm
    · exact Nat.le_refl _
    · have htail := (List.pairwise_append.mp hp).2.1
      exact le_of_lt ((List.pairwise_cons.mp htail).1 tier' hm)

theorem openTier_none {incoming : Finset Pubkey} {allowed : List EvictionTier} {required : Nat} :
    openTier s incoming allowed required = none ↔
      ∀ tier ∈ allowed, (own.freed (own.tierOwners tier) incoming).card < required := by
  unfold openTier
  rw [List.find?_eq_none]
  refine forall_congr' fun tier => forall_congr' fun _ => ?_
  rw [decide_eq_true_eq, not_le, length_freeableByTier h]

end Feasibility

/-! ## 6. The selector against the true union -/

/-- **The selector's counters are those of the store without the selected owners.** -/
structure Selecting (s : EvictionPlanningSnapshot) (own : ExplicitOwnership)
    (incoming : Finset Pubkey) (allowed : Finset ExplicitOwner) (ws : SelectorWorkspace) : Prop
    where
  rows : ws.rows.map (·.row) = s.pubkeyIndex
  incomingSet : ws.incomingSet = incoming
  allowedOwners : ws.allowedOwners = allowed
  refcount : ∀ r ∈ ws.rows,
    r.projectedRefcount = (own.holders r.row.pubkey \ ws.selected).card
  victims : ws.victims.Nodup
  selected : ws.victims.toFinset = ws.selected
  selected_subset : ws.selected ⊆ allowed
  freed : ws.freedPubkeys.keys.toFinset = own.freed ws.selected incoming

theorem Selecting.row_mem {s : EvictionPlanningSnapshot} {own : ExplicitOwnership}
    {incoming : Finset Pubkey} {allowed : Finset ExplicitOwner} {ws : SelectorWorkspace}
    (hsel : Selecting s own incoming allowed ws) {r : SelectorRow} (hr : r ∈ ws.rows) :
    r.row ∈ s.pubkeyIndex := by
  rw [← hsel.rows]
  exact List.mem_map_of_mem hr

theorem row_releaseRow (owner : ExplicitOwner) (r : SelectorRow) :
    (SelectorWorkspace.releaseRow owner r).row = r.row := by
  unfold SelectorWorkspace.releaseRow
  split <;> rfl

theorem mem_keys_foldl_insert {α K : Type} [LinearOrder K] (f : α → K) (l : List α)
    (set : SortedSet K) (k : K) :
    k ∈ (l.foldl (fun set a => set.insert (f a) ()) set).keys ↔ k ∈ set.keys ∨ k ∈ l.map f := by
  induction l generalizing set with
  | nil => simp
  | cons a l ih =>
      rw [List.foldl_cons, ih, SortedMap.mem_keys_insert, List.map_cons, List.mem_cons]
      tauto

section Selection

variable {s : EvictionPlanningSnapshot} {own : ExplicitOwnership} (h : s.Describes own)
  {incoming : Finset Pubkey} {allowed : Finset ExplicitOwner}
include h

theorem Selecting.start : Selecting s own incoming allowed (.start s incoming allowed) where
  rows := by
    unfold SelectorWorkspace.start
    rw [List.map_map]
    exact List.map_id _
  incomingSet := rfl
  allowedOwners := rfl
  refcount := by
    intro r hr
    obtain ⟨row, hrow, rfl⟩ := List.mem_map.mp hr
    show row.refcount = (own.holders row.pubkey \ ∅).card
    rw [Finset.sdiff_empty, h.refcount row hrow]
  victims := List.nodup_nil
  selected := rfl
  selected_subset := Finset.empty_subset _
  freed := by
    ext pubkey
    rw [mem_freed]
    refine iff_of_false (Finset.notMem_empty pubkey) fun hp => ?_
    obtain ⟨owner, ho⟩ := mem_union_iff.mp hp.1
    exact Finset.notMem_empty owner (hp.2.2 ho)

variable {ws : SelectorWorkspace}

/-- Selecting one more owner takes it off the holders of its rows. -/
theorem Selecting.releaseRow_refcount (hsel : Selecting s own incoming allowed ws)
    {owner : ExplicitOwner} (hnew : owner ∉ ws.selected) {r : SelectorRow} (hr : r ∈ ws.rows) :
    (SelectorWorkspace.releaseRow owner r).projectedRefcount =
      (own.holders r.row.pubkey \ insert owner ws.selected).card := by
  have hrc := hsel.refcount r hr
  have hmem : owner ∈ r.row.owners ↔ owner ∈ own.holders r.row.pubkey :=
    mem_row_owners h (hsel.row_mem hr)
  have herase : own.holders r.row.pubkey \ insert owner ws.selected =
      (own.holders r.row.pubkey \ ws.selected).erase owner := Finset.sdiff_insert _ _ _
  unfold SelectorWorkspace.releaseRow
  rw [herase]
  by_cases ho : owner ∈ own.holders r.row.pubkey
  · have hin : owner ∈ own.holders r.row.pubkey \ ws.selected :=
      Finset.mem_sdiff.mpr ⟨ho, hnew⟩
    have hpos : r.projectedRefcount ≠ 0 := by
      rw [hrc]
      exact Finset.card_ne_zero_of_mem hin
    rw [if_pos ⟨hmem.mpr ho, hpos⟩, Finset.card_erase_of_mem hin, ← hrc]
  · rw [if_neg fun hc => ho (hmem.mp hc.1), Finset.erase_eq_of_notMem, hrc]
    exact fun hc => ho (Finset.mem_sdiff.mp hc).1

/-- **Selecting an allowed owner keeps the counters right.** -/
theorem Selecting.selectOwner (hsel : Selecting s own incoming allowed ws)
    {owner : ExplicitOwner} (hnew : owner ∉ ws.selected) (hall : owner ∈ allowed) :
    Selecting s own incoming allowed (ws.selectOwner owner) where
  rows := by
    show (ws.rows.map (SelectorWorkspace.releaseRow owner)).map (·.row) = _
    rw [List.map_map, ← hsel.rows]
    exact List.map_congr_left fun r _ => row_releaseRow owner r
  incomingSet := hsel.incomingSet
  allowedOwners := hsel.allowedOwners
  refcount := by
    intro r' hr'
    obtain ⟨r, hr, rfl⟩ := List.mem_map.mp hr'
    rw [row_releaseRow]
    exact hsel.releaseRow_refcount h hnew hr
  victims := by
    show (ws.victims ++ [owner]).Nodup
    rw [List.nodup_append_comm, List.singleton_append, List.nodup_cons]
    refine ⟨fun hm => hnew ?_, hsel.victims⟩
    rw [← hsel.selected]
    exact List.mem_toFinset.mpr hm
  selected := by
    show (ws.victims ++ [owner]).toFinset = insert owner ws.selected
    rw [List.toFinset_append, hsel.selected, Finset.union_comm]
    rfl
  selected_subset := Finset.insert_subset hall hsel.selected_subset
  freed := by
    ext pubkey
    show pubkey ∈ (List.foldl _ ws.freedPubkeys _).keys.toFinset ↔
      pubkey ∈ own.freed (insert owner ws.selected) incoming
    rw [List.mem_toFinset, mem_keys_foldl_insert fun r : SelectorRow => r.row.pubkey,
      ← List.mem_toFinset, hsel.freed]
    constructor
    · rintro (hold | hnow)
      · exact Cover.lost_mono (Finset.subset_insert _ _) _ hold
      · obtain ⟨r, hm, rfl⟩ := List.mem_map.mp hnow
        obtain ⟨hr, hf⟩ := List.mem_filter.mp hm
        have hrel := hsel.releaseRow_refcount h hnew hr
        unfold SelectorWorkspace.freesRow at hf
        simp only [Bool.and_eq_true, decide_eq_true_eq, hsel.incomingSet] at hf
        obtain ⟨ho, hpos, hone, hi⟩ := hf
        unfold SelectorWorkspace.releaseRow at hrel
        rw [if_pos ⟨ho, hpos⟩] at hrel
        have hzero := hrel.symm.trans hone
        rw [Finset.card_eq_zero, Finset.sdiff_eq_empty_iff_subset] at hzero
        exact mem_freed.mpr ⟨row_mem_union h (hsel.row_mem hr), hi, hzero⟩
    · intro hm
      obtain ⟨hu, hi, hsub⟩ := mem_freed.mp hm
      by_cases ho : owner ∈ own.holders pubkey
      · -- the last holder that was not selected
        obtain ⟨row, hrow, rfl⟩ := exists_row h hu
        rw [← hsel.rows] at hrow
        obtain ⟨r, hr, rfl⟩ := List.mem_map.mp hrow
        have hrc := hsel.refcount r hr
        have hpos : r.projectedRefcount ≠ 0 := by
          rw [hrc]
          exact Finset.card_ne_zero_of_mem (Finset.mem_sdiff.mpr ⟨ho, hnew⟩)
        have hin : owner ∈ r.row.owners := (mem_row_owners h (hsel.row_mem hr)).mpr ho
        have hrel := hsel.releaseRow_refcount h hnew hr
        unfold SelectorWorkspace.releaseRow at hrel
        rw [if_pos ⟨hin, hpos⟩, Finset.sdiff_eq_empty_iff_subset.mpr hsub] at hrel
        refine .inr (List.mem_map.mpr ⟨r, List.mem_filter.mpr ⟨hr, ?_⟩, rfl⟩)
        unfold SelectorWorkspace.freesRow
        simp only [Bool.and_eq_true, decide_eq_true_eq, hsel.incomingSet]
        exact ⟨hin, hpos, hrel, hi⟩
      · refine .inl (mem_freed.mpr ⟨hu, hi, fun o hh => ?_⟩)
        exact (Finset.mem_insert.mp (hsub hh)).resolve_left fun he => ho (he ▸ hh)

/-- Selecting every owner of a package, walking over the candidates. -/
theorem Selecting.selectPackage (best : List ExplicitOwner) {candidates : List ExplicitOwner}
    (hcand : ∀ owner ∈ candidates, owner ∈ allowed) (hsel : Selecting s own incoming allowed ws) :
    let ws' := candidates.foldl (fun ws owner =>
      if owner ∈ best ∧ owner ∉ ws.selected then ws.selectOwner owner else ws) ws
    Selecting s own incoming allowed ws' ∧ ws.selected ⊆ ws'.selected ∧
      ∀ owner ∈ candidates, owner ∈ best → owner ∈ ws'.selected := by
  induction candidates generalizing ws with
  | nil => exact ⟨hsel, Finset.Subset.refl _, fun _ ho => absurd ho List.not_mem_nil⟩
  | cons owner candidates ih =>
      have hrest : ∀ o ∈ candidates, o ∈ allowed := fun o ho => hcand o (List.mem_cons_of_mem _ ho)
      by_cases hpick : owner ∈ best ∧ owner ∉ ws.selected
      · have hstep := hsel.selectOwner h hpick.2 (hcand owner List.mem_cons_self)
        obtain ⟨hfin, hsub, hall⟩ := ih hrest hstep
        have hmem : owner ∈ (ws.selectOwner owner).selected := Finset.mem_insert_self _ _
        intro ws'
        have heq : ws' = candidates.foldl (fun ws owner =>
            if owner ∈ best ∧ owner ∉ ws.selected then ws.selectOwner owner else ws)
            (ws.selectOwner owner) := by
          show List.foldl _ (if _ then _ else _) candidates = _
          rw [if_pos hpick]
        rw [heq]
        refine ⟨hfin, (Finset.subset_insert _ _).trans hsub, fun o ho hb => ?_⟩
        rcases List.mem_cons.mp ho with rfl | ho
        · exact hsub hmem
        · exact hall o ho hb
      · obtain ⟨hfin, hsub, hall⟩ := ih hrest hsel
        intro ws'
        have heq : ws' = candidates.foldl (fun ws owner =>
            if owner ∈ best ∧ owner ∉ ws.selected then ws.selectOwner owner else ws) ws := by
          show List.foldl _ (if _ then _ else _) candidates = _
          rw [if_neg hpick]
        rw [heq]
        refine ⟨hfin, hsub, fun o ho hb => ?_⟩
        rcases List.mem_cons.mp ho with rfl | ho
        · exact hsub (not_not.mp fun hn => hpick ⟨hb, hn⟩)
        · exact hall o ho hb

end Selection

/-! ## 7. The loop ends with enough freed -/

theorem minBy_isSome {α : Type} (compare : α → α → Ordering) {l : List α} (h : l ≠ []) :
    ∃ x ∈ l, minBy compare l = some x := by
  cases l with
  | nil => exact absurd rfl h
  | cons x l =>
      have hfold : ∀ (l : List α) (best : α),
          l.foldl (fun best y => if compare best y = .gt then y else best) best ∈ best :: l := by
        intro l
        induction l with
        | nil => intro best; exact List.mem_cons_self
        | cons y l ih =>
            intro best
            rw [List.foldl_cons]
            split_ifs
            · exact List.mem_cons_of_mem _ (ih y)
            · rcases List.mem_cons.mp (ih best) with heq | hm
              · rw [heq]
                exact List.mem_cons_self
              · exact List.mem_cons_of_mem _ (List.mem_cons_of_mem _ hm)
      exact ⟨_, hfold l x, rfl⟩

section Loop

variable {s : EvictionPlanningSnapshot} {own : ExplicitOwnership} (h : s.Describes own)
  {incoming : Finset Pubkey} {allowed : Finset ExplicitOwner} {ws : SelectorWorkspace}

/-- A package is a non-empty set of allowed owners, none of them selected. -/
theorem mem_collectJointPackages (hsel : Selecting s own incoming allowed ws)
    {package : List ExplicitOwner} (hp : package ∈ ws.collectJointPackages) :
    package ≠ [] ∧ ∀ owner ∈ package, owner ∈ allowed ∧ owner ∉ ws.selected := by
  unfold SelectorWorkspace.collectJointPackages at hp
  rw [mem_keys_foldl_insert fun package : List ExplicitOwner => package, List.map_id'] at hp
  rcases hp with hp | hp
  · exact absurd hp List.not_mem_nil
  obtain ⟨r, _, hr⟩ := List.mem_filterMap.mp hp
  unfold SelectorWorkspace.jointPackage at hr
  dsimp only at hr
  split_ifs at hr with _ _ hne
  cases hr
  refine ⟨hne, fun owner ho => ?_⟩
  have hm := (List.mem_filter.mp ho).2
  simp only [Bool.and_eq_true, decide_eq_true_eq, hsel.allowedOwners] at hm
  exact hm

include h

/-- **While more can be freed than has been, some package is left.** -/
theorem collectJointPackages_ne_nil (hsel : Selecting s own incoming allowed ws)
    (hless : (own.freed ws.selected incoming).card < (own.freed allowed incoming).card) :
    ws.collectJointPackages ≠ [] := by
  obtain ⟨pubkey, hu, hi, hsub, hnot⟩ := Cover.exists_of_card_lt hless
  obtain ⟨row, hrow, rfl⟩ := exists_row h hu
  rw [← hsel.rows] at hrow
  obtain ⟨r, hr, rfl⟩ := List.mem_map.mp hrow
  have hindex := hsel.row_mem hr
  have hrc := hsel.refcount r hr
  -- the owners that remain are the holders that are not selected
  let remaining := r.row.owners.filter fun owner =>
    decide (owner ∈ ws.allowedOwners) && decide (owner ∉ ws.selected)
  have hset : remaining.toFinset = own.holders r.row.pubkey \ ws.selected := by
    ext owner
    rw [List.mem_toFinset, List.mem_filter, mem_row_owners h hindex, Finset.mem_sdiff,
      Bool.and_eq_true, decide_eq_true_eq, decide_eq_true_eq, hsel.allowedOwners]
    exact ⟨fun hm => ⟨hm.1, hm.2.2⟩, fun hm => ⟨hm.1, hsub hm.1, hm.2⟩⟩
  have hnd : remaining.Nodup :=
    (SortedList.nodup_of_pairwise (h.sortedOwners r.row hindex)).filter _
  have hlen : remaining.length = r.projectedRefcount := by
    rw [hrc, ← hset, List.toFinset_card_of_nodup hnd]
  have hne : remaining ≠ [] := by
    obtain ⟨owner, ho, hs⟩ := Finset.not_subset.mp hnot
    have hmem : owner ∈ remaining.toFinset := by
      rw [hset]
      exact Finset.mem_sdiff.mpr ⟨ho, hs⟩
    exact List.ne_nil_of_mem (List.mem_toFinset.mp hmem)
  have hpos : r.projectedRefcount ≠ 0 := by
    rw [← hlen]
    exact fun h0 => hne (List.length_eq_zero_iff.mp h0)
  have hpackage : ws.jointPackage r = some remaining := by
    unfold SelectorWorkspace.jointPackage
    rw [hsel.incomingSet, if_neg hi, if_neg hpos]
    exact (if_neg hne).trans (if_neg (not_not.mpr hlen))
  refine List.ne_nil_of_mem (a := remaining) ?_
  unfold SelectorWorkspace.collectJointPackages
  rw [mem_keys_foldl_insert fun package : List ExplicitOwner => package, List.map_id']
  exact .inr (List.mem_filterMap.mpr ⟨r, hr, hpackage⟩)

omit h in
theorem Selecting.len_freedPubkeys (hsel : Selecting s own incoming allowed ws) :
    ws.freedPubkeys.len = (own.freed ws.selected incoming).card := by
  rw [SortedMap.len_eq_length_keys, SortedList.length_eq_card ws.freedPubkeys.pairwise_keys,
    hsel.freed]

/-- **Progress**: while not enough is freed and the allowed owners could free enough, a turn of
    the loop selects at least one more of them. -/
theorem selectStep_progress {candidates : List ExplicitOwner} {required : Nat}
    (hcand : ∀ owner, owner ∈ candidates ↔ owner ∈ allowed)
    (hsel : Selecting s own incoming allowed ws)
    (hfew : ws.freedPubkeys.len < required)
    (hreq : required ≤ (own.freed allowed incoming).card) :
    ∃ ws', selectStep s candidates required ws = .next ws' ∧
      Selecting s own incoming allowed ws' ∧ ws.selected ⊂ ws'.selected := by
  unfold selectStep
  rw [if_neg (Nat.not_le.mpr hfew)]
  cases hf : candidates.find? fun owner =>
      decide (owner ∉ ws.selected) && decide (0 < ws.positiveMarginalCount owner) with
  | some owner =>
      have hdec := List.find?_some hf
      have hnew : owner ∉ ws.selected := of_decide_eq_true (Bool.and_eq_true_iff.mp hdec).1
      have hall := (hcand owner).mp (List.mem_of_find?_eq_some hf)
      exact ⟨_, rfl, hsel.selectOwner h hnew hall, Finset.ssubset_insert hnew⟩
  | none =>
      have hless : (own.freed ws.selected incoming).card < (own.freed allowed incoming).card := by
        rw [← hsel.len_freedPubkeys]
        omega
      obtain ⟨best, hbest, hmin⟩ := minBy_isSome (compareJointPackages s)
        (collectJointPackages_ne_nil h hsel hless)
      obtain ⟨hne, hmem⟩ := mem_collectJointPackages hsel hbest
      have hallowed : ∀ o ∈ candidates, o ∈ allowed := fun o ho => (hcand o).mp ho
      obtain ⟨hsel', hsub, hpicked⟩ := hsel.selectPackage h best hallowed
      obtain ⟨owner, ho⟩ := List.exists_mem_of_ne_nil best hne
      have hin := hpicked owner ((hcand owner).mpr (hmem owner ho).1) ho
      dsimp only
      rw [hmin]
      exact ⟨_, rfl, hsel', Finset.ssubset_iff_subset_ne.mpr
        ⟨hsub, fun heq => (hmem owner ho).2 (heq ▸ hin)⟩⟩

/-- **With a turn for each allowed owner and one more, the loop ends with enough freed.** -/
theorem selectLoop_spec {candidates : List ExplicitOwner} {required : Nat}
    (hcand : ∀ owner, owner ∈ candidates ↔ owner ∈ allowed)
    (hreq : required ≤ (own.freed allowed incoming).card) {fuel : Nat}
    (hsel : Selecting s own incoming allowed ws) (hfuel : (allowed \ ws.selected).card < fuel) :
    ∃ ws', selectLoop s candidates required fuel ws = some (some ws') ∧
      Selecting s own incoming allowed ws' ∧ required ≤ ws'.freedPubkeys.len := by
  induction fuel generalizing ws with
  | zero => exact absurd hfuel (Nat.not_lt_zero _)
  | succ fuel ih =>
      rw [selectLoop]
      by_cases hdone : required ≤ ws.freedPubkeys.len
      · have hstep : selectStep s candidates required ws = .done := if_pos hdone
        rw [hstep]
        exact ⟨ws, rfl, hsel, hdone⟩
      · obtain ⟨ws', hstep, hsel', hgrow⟩ :=
          selectStep_progress h hcand hsel (Nat.not_le.mp hdone) hreq
        rw [hstep]
        refine ih hsel' ?_
        have hlt : (allowed \ ws'.selected).card < (allowed \ ws.selected).card := by
          refine Finset.card_lt_card ?_
          obtain ⟨o, ho, hno⟩ := Finset.exists_of_ssubset hgrow
          refine Finset.ssubset_iff_subset_ne.mpr
            ⟨Finset.sdiff_subset_sdiff (Finset.Subset.refl _) hgrow.subset, fun heq => ?_⟩
          have hmem : o ∈ allowed \ ws.selected :=
            Finset.mem_sdiff.mpr ⟨hsel'.selected_subset ho, hno⟩
          rw [← heq] at hmem
          exact (Finset.mem_sdiff.mp hmem).2 ho
        omega

theorem mem_buildSortedCandidates {owner : ExplicitOwner} :
    owner ∈ buildSortedCandidates s allowed ↔ owner ∈ own.owners ∧ owner ∈ allowed := by
  unfold buildSortedCandidates
  rw [← mem_records h, List.mem_map, List.mem_map]
  constructor
  · rintro ⟨record, hr, rfl⟩
    obtain ⟨hm, ha⟩ := List.mem_filter.mp ((List.mem_insertionSort _).mp hr)
    exact ⟨⟨record, hm, rfl⟩, of_decide_eq_true ha⟩
  · rintro ⟨⟨record, hm, rfl⟩, ha⟩
    exact ⟨record, (List.mem_insertionSort _).mpr (List.mem_filter.mpr ⟨hm, decide_eq_true ha⟩),
      rfl⟩

/-- **The selector's answer**: owners of the opened tier, and exactly the pubkeys that go with
    them, at least as many as were asked for. -/
theorem executeVictimSelection_spec {required : Nat} {tier : EvictionTier}
    (hreq : required ≤ (own.freed (own.tierOwners tier) incoming).card) :
    ∃ victims physicalFreed,
      executeVictimSelection s incoming required tier = some (victims, physicalFreed) ∧
      victims.Nodup ∧ victims.toFinset ⊆ own.tierOwners tier ∧
      physicalFreed.Pairwise (· < ·) ∧
      physicalFreed.toFinset = own.freed victims.toFinset incoming ∧
      required ≤ physicalFreed.length := by
  have hev := evictableOwners_eq h tier
  have hcand : ∀ owner, owner ∈ buildSortedCandidates s (own.tierOwners tier) ↔
      owner ∈ own.tierOwners tier := by
    intro owner
    rw [mem_buildSortedCandidates h]
    exact and_iff_right_of_imp fun ho => (Finset.mem_filter.mp ho).1
  have hcard : (own.tierOwners tier).card ≤
      (buildSortedCandidates s (own.tierOwners tier)).length := by
    refine le_trans (Finset.card_le_card fun o ho => ?_) (List.toFinset_card_le _)
    exact List.mem_toFinset.mpr ((hcand o).mpr ho)
  have hstart : Selecting s own incoming (own.tierOwners tier)
      (.start s incoming (own.tierOwners tier)) := Selecting.start h
  have hfuel : (own.tierOwners tier \
      (SelectorWorkspace.start s incoming (own.tierOwners tier)).selected).card <
      (buildSortedCandidates s (own.tierOwners tier)).length + 1 := by
    show (own.tierOwners tier \ ∅).card < _
    rw [Finset.sdiff_empty]
    omega
  obtain ⟨ws, hloop, hsel, henough⟩ := selectLoop_spec h hcand hreq hstart hfuel
  refine ⟨ws.victims, ws.freedPubkeys.keys, ?_, hsel.victims, ?_, ws.freedPubkeys.pairwise_keys,
    ?_, ?_⟩
  · unfold executeVictimSelection
    rw [hev]
    dsimp only
    rw [hloop]
  · rw [hsel.selected]
    exact hsel.selected_subset
  · rw [hsel.selected]
    exact hsel.freed
  · rw [← SortedMap.len_eq_length_keys]
    exact henough

end Loop

end IronCrab.Track

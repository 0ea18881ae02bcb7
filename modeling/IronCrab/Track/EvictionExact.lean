/-
  File:      IronCrab/Track/EvictionExact.lean
  Subject:   EVICTION PLANNING IS EXACT AND ITS PLANS ARE SOUND.

  For a snapshot of a well-formed store and an incoming group of an absent owner, what there is to
  hold is the union with the incoming pubkeys; what may go is what all owners of the allowed tiers
  give up together.

  * `SelectionExact` -- the planner answers by these two sizes and the cap alone;
  * `SelectionSound` -- what a plan promises, said with the store's own operations: remove the
    victims, insert the group;
  * **`eviction_planning_exact`** -- both, for an incoming group and for a cap shrink;
    `planned_iff_freeable_fails` is the request that fits as it is, which is not planned for.
-/
import IronCrab.Track.EvictionPlanner

namespace IronCrab.Track

open ExplicitOwnership

/-! ## 1. The store after a plan -/

namespace ExplicitOwnership

/-- The store without these owners. -/
def removeAll (own : ExplicitOwnership) (victims : List ExplicitOwner) : ExplicitOwnership :=
  victims.foldl (fun own victim => (own.removeGroup victim).2) own

/-- All owners of these tiers. -/
def allowedOwners (own : ExplicitOwnership) (tiers : List EvictionTier) : Finset ExplicitOwner :=
  own.owners.filter fun owner => ∃ tier ∈ tiers, owner.consumer ∈ tier.cumulativeConsumers

theorem groups_removeGroup (own : ExplicitOwnership) (owner : ExplicitOwner) :
    (own.removeGroup owner).2.groups = own.groups.erase owner := by
  unfold removeGroup
  cases hl : own.groups.lookup owner with
  | none => exact (SortedMap.erase_of_notMem (SortedMap.lookup_eq_none.mp hl)).symm
  | some pubkeys => rfl

theorem wellFormed_removeAll {own : ExplicitOwnership} (h : own.WellFormed)
    (victims : List ExplicitOwner) : (own.removeAll victims).WellFormed := by
  induction victims generalizing own with
  | nil => exact h
  | cons victim victims ih => exact ih (wellFormed_removeGroup h victim)

theorem lookup_removeAll (own : ExplicitOwnership) (victims : List ExplicitOwner)
    (owner : ExplicitOwner) : (own.removeAll victims).groups.lookup owner =
      if owner ∈ victims then none else own.groups.lookup owner := by
  induction victims generalizing own with
  | nil => rfl
  | cons victim victims ih =>
      show ((own.removeGroup victim).2.removeAll victims).groups.lookup owner = _
      rw [ih, groups_removeGroup, SortedMap.lookup_erase]
      by_cases hv : owner = victim
      · simp [hv]
      · simp [hv]

/-- What is left covers what the other owners hold. -/
theorem union_removeAll (own : ExplicitOwnership) (victims : List ExplicitOwner) :
    (own.removeAll victims).union = (own.owners \ victims.toFinset).biUnion own.groupSet := by
  ext pubkey
  rw [mem_union, Finset.mem_biUnion]
  constructor
  · rintro ⟨owner, group, hl, hp⟩
    rw [lookup_removeAll] at hl
    split_ifs at hl with hv
    refine ⟨owner, Finset.mem_sdiff.mpr ⟨mem_owners.mpr ⟨group, hl⟩, ?_⟩,
      mem_groupSet.mpr ⟨group, hl, hp⟩⟩
    rw [List.mem_toFinset]
    exact hv
  · rintro ⟨owner, ho, hp⟩
    obtain ⟨group, hl, hp⟩ := mem_groupSet.mp hp
    refine ⟨owner, group, ?_, hp⟩
    have hv := (Finset.mem_sdiff.mp ho).2
    rw [List.mem_toFinset] at hv
    rw [lookup_removeAll, if_neg hv, hl]

/-- A new owner's group joins the union. -/
theorem union_put_new {own own' : ExplicitOwnership} {owner : ExplicitOwner}
    {group : List Pubkey} (hl : own.groups.lookup owner = none)
    (h : own'.groups = own.groups.insert owner group) :
    own'.union = own.union ∪ group.toFinset := by
  ext pubkey
  rw [mem_union_put h, Finset.erase_eq_of_notMem (notMem_holders hl pubkey), ← mem_union_iff,
    Finset.mem_union, List.mem_toFinset]
  exact Or.comm

end ExplicitOwnership

/-! ## 2. What a plan promises -/

/-- **What a plan for an incoming group promises.** -/
structure SelectionSound (own : ExplicitOwnership) (request : TierFeasibilityRequest)
    (plan : VictimSelectionPlan) : Prop where
  distinct : plan.victims.Nodup
  /-- Every victim is an owner, no Wallet, and no more protected than the opened tier. -/
  victims : ∀ victim ∈ plan.victims, victim ∈ own.owners ∧ victim.consumer ≠ .wallet ∧
    victim.consumer ∈ plan.openedThrough.cumulativeConsumers
  /-- The store without the victims and with the incoming group has the promised size. -/
  len : ((own.removeAll plan.victims).upsertGroup request.incomingOwner
    request.incomingPubkeys).2.union.card = plan.projectedFinalLen
  fits : plan.projectedFinalLen ≤ request.cap
  added : plan.incomingPhysicalAdded = (request.incomingPubkeys.toFinset \ own.union).card
  /-- The freed pubkeys are the lost ones. -/
  freedNodup : plan.physicalFreed.Nodup
  freed : plan.physicalFreed.toFinset = own.union \
    ((own.removeAll plan.victims).upsertGroup request.incomingOwner
      request.incomingPubkeys).2.union
  kept : ∀ pubkey ∈ request.incomingPubkeys, pubkey ∉ plan.physicalFreed
  /-- The opened tier is the least allowed one that suffices. -/
  allowed : plan.openedThrough ∈
    EvictionTier.allowedForIncoming request.incomingOwner.consumer
  least : ∀ tier ∈ EvictionTier.allowedForIncoming request.incomingOwner.consumer,
    (own.union ∪ request.incomingPubkeys.toFinset).card - request.cap ≤
      (own.freed (own.tierOwners tier) request.incomingPubkeys.toFinset).card ↔
    plan.openedThrough.ordinal ≤ tier.ordinal

/-- **The planner answers by the demand, the cap and what may go.** -/
def SelectionExact (own : ExplicitOwnership) (request : TierFeasibilityRequest)
    (result : VictimSelectionResult) : Prop :=
  let incoming := request.incomingPubkeys.toFinset
  let demand := (own.union ∪ incoming).card
  let freeable := (own.freed (own.allowedOwners
    (EvictionTier.allowedForIncoming request.incomingOwner.consumer)) incoming).card
  match result with
  | .noEvictionNeeded added projected =>
      demand ≤ request.cap ∧ added = (incoming \ own.union).card ∧ projected = demand
  | .planned plan =>
      request.cap < demand ∧ demand - request.cap ≤ freeable ∧ SelectionSound own request plan
  | .rejectedProtected added required =>
      request.cap < demand ∧ freeable < demand - request.cap ∧
        added = (incoming \ own.union).card ∧ required = demand - request.cap
  | .rejectedInvalidInput => False
  | .internalInvariantViolation => False

/-- **What a plan for a cap shrink promises.** -/
structure ShrinkSound (own : ExplicitOwnership) (targetCap : Nat) (plan : CapShrinkSelectionPlan) :
    Prop where
  distinct : plan.victims.Nodup
  victims : ∀ victim ∈ plan.victims, victim ∈ own.owners ∧ victim.consumer ≠ .wallet ∧
    victim.consumer ∈ plan.openedThrough.cumulativeConsumers
  len : (own.removeAll plan.victims).union.card = plan.projectedFinalLen
  fits : plan.projectedFinalLen ≤ targetCap
  freedNodup : plan.physicalFreed.Nodup
  freed : plan.physicalFreed.toFinset = own.union \ (own.removeAll plan.victims).union
  least : ∀ tier ∈ capShrinkAllowedTiers,
    own.union.card - targetCap ≤ (own.freed (own.tierOwners tier) ∅).card ↔
    plan.openedThrough.ordinal ≤ tier.ordinal

/-- The same for a cap shrink. -/
def ShrinkExact (own : ExplicitOwnership) (targetCap : Nat) (result : CapShrinkSelectionResult) :
    Prop :=
  let freeable := (own.freed (own.allowedOwners capShrinkAllowedTiers) ∅).card
  match result with
  | .noShrinkNeeded => own.union.card ≤ targetCap
  | .planned plan => targetCap < own.union.card ∧ own.union.card - targetCap ≤ freeable ∧
      ShrinkSound own targetCap plan
  | .rejectedProtected required => targetCap < own.union.card ∧
      freeable < own.union.card - targetCap ∧ required = own.union.card - targetCap
  | .internalInvariantViolation => False

/-! ## 3. Both hold -/

/-- The allowed tiers together are the last of them. -/
theorem allowedOwners_eq (own : ExplicitOwnership) (consumer : ExplicitConsumer) :
    own.allowedOwners (EvictionTier.allowedForIncoming consumer) =
      own.tierOwners (EvictionTier.maxTier (EvictionTier.allowedForIncoming consumer)) := by
  ext owner
  unfold allowedOwners tierOwners
  rw [Finset.mem_filter, Finset.mem_filter]
  refine and_congr_right fun _ => ⟨?_, fun hc => ⟨_, EvictionTier.maxTier_mem consumer, hc⟩⟩
  rintro ⟨tier, ht, hc⟩
  exact EvictionTier.cumulativeConsumers_mono (EvictionTier.ordinal_le_maxTier ht) _ hc

section Exact

variable {own : ExplicitOwnership} {s : EvictionPlanningSnapshot} (h : s.Describes own)
include h

/-- No allowed tier suffices just when all allowed owners together do not. -/
theorem openTier_eq_none {incoming : Finset Pubkey} (consumer : ExplicitConsumer)
    {required : Nat} :
    openTier s incoming (EvictionTier.allowedForIncoming consumer) required = none ↔
      (own.freed (own.allowedOwners (EvictionTier.allowedForIncoming consumer)) incoming).card <
        required := by
  rw [openTier_none h, allowedOwners_eq]
  constructor
  · exact fun hall => hall _ (EvictionTier.maxTier_mem consumer)
  · intro hmax tier ht
    refine lt_of_le_of_lt (Finset.card_le_card ?_) hmax
    exact Cover.lost_mono (own.tierOwners_mono (EvictionTier.ordinal_le_maxTier ht)) _

/-- An opened tier is the least allowed one that suffices. -/
theorem openTier_eq_some {incoming : Finset Pubkey} (consumer : ExplicitConsumer)
    {required : Nat} {tier : EvictionTier}
    (ho : openTier s incoming (EvictionTier.allowedForIncoming consumer) required = some tier) :
    tier ∈ EvictionTier.allowedForIncoming consumer ∧
      required ≤ (own.freed (own.tierOwners tier) incoming).card ∧
      required ≤ (own.freed (own.allowedOwners (EvictionTier.allowedForIncoming consumer))
        incoming).card ∧
      ∀ tier' ∈ EvictionTier.allowedForIncoming consumer,
        required ≤ (own.freed (own.tierOwners tier') incoming).card ↔
          tier.ordinal ≤ tier'.ordinal := by
  obtain ⟨hmem, hsat, hleast⟩ :=
    openTier_spec h (EvictionTier.pairwise_allowedForIncoming consumer) ho
  refine ⟨hmem, hsat, ?_, fun tier' ht' => ⟨hleast tier' ht', fun hle => ?_⟩⟩
  · rw [allowedOwners_eq]
    refine le_trans hsat (Finset.card_le_card ?_)
    exact Cover.lost_mono (own.tierOwners_mono (EvictionTier.ordinal_le_maxTier hmem)) _
  · exact le_trans hsat (Finset.card_le_card (Cover.lost_mono (own.tierOwners_mono hle) _))

omit h in
/-- A victim of a tier is an owner, no Wallet, and in the tier. -/
theorem victim_of_tierOwners {tier : EvictionTier} {victims : List ExplicitOwner}
    (hv : victims.toFinset ⊆ own.tierOwners tier) :
    ∀ victim ∈ victims, victim ∈ own.owners ∧ victim.consumer ≠ .wallet ∧
      victim.consumer ∈ tier.cumulativeConsumers := by
  intro victim hm
  obtain ⟨ho, hc⟩ := Finset.mem_filter.mp (hv (List.mem_toFinset.mpr hm))
  exact ⟨ho, fun hw => EvictionTier.wallet_notMem_cumulativeConsumers tier (hw ▸ hc), hc⟩

omit h in
theorem card_union_add (incoming : Finset Pubkey) :
    own.union.card + (incoming \ own.union).card = (own.union ∪ incoming).card := by
  rw [Finset.union_comm, ← Finset.card_sdiff_add_card, Nat.add_comm]

omit h in
/-- What a plan frees is what the store loses, and the sizes balance. -/
theorem plan_balance {victims : List ExplicitOwner} {incoming : Finset Pubkey}
    {physicalFreed : List Pubkey} (hsorted : physicalFreed.Pairwise (· < ·))
    (hfreed : physicalFreed.toFinset = own.freed victims.toFinset incoming) :
    ((own.owners \ victims.toFinset).biUnion own.groupSet ∪ incoming).card +
        physicalFreed.length = own.union.card + (incoming \ own.union).card ∧
      physicalFreed.toFinset =
        own.union \ ((own.owners \ victims.toFinset).biUnion own.groupSet ∪ incoming) := by
  have hlength : physicalFreed.length = (own.freed victims.toFinset incoming).card := by
    rw [← hfreed]
    exact SortedList.length_eq_card hsorted
  refine ⟨?_, hfreed.trans
    (Cover.lost_eq_sdiff (G := own.owners) (S := own.groupSet) victims.toFinset incoming)⟩
  rw [hlength]
  exact Cover.card_after (G := own.owners) (S := own.groupSet) victims.toFinset incoming

/-- **The planner's answer for an incoming group.** -/
theorem selectionExact (request : TierFeasibilityRequest)
    (habs : own.groups.lookup request.incomingOwner = none)
    (hne : request.incomingPubkeys ≠ []) :
    SelectionExact own request (selectEvictionVictims s request) := by
  have hnorm : normalizePubkeys request.incomingPubkeys ≠ [] :=
    fun hnil => hne (normalizePubkeys_eq_nil.mp hnil)
  have hrecord : ¬ (s.ownerRecord request.incomingOwner).isSome = true := by
    rw [isSome_ownerRecord h, mem_owners, habs]
    rintro ⟨_, hg⟩
    cases hg
  have hset : (normalizePubkeys request.incomingPubkeys).toFinset =
      request.incomingPubkeys.toFinset := SortedList.toFinset_normalize _
  have hdemand : own.union.card + (request.incomingPubkeys.toFinset \ own.union).card =
      (own.union ∪ request.incomingPubkeys.toFinset).card := card_union_add _
  unfold selectEvictionVictims EvictionPlanningSnapshot.analyzeTierFeasibility
  dsimp only
  rw [if_neg hnorm, if_neg hrecord, length_added h, h.physicalLen, hdemand, hset]
  by_cases hfit : (own.union ∪ request.incomingPubkeys.toFinset).card ≤ request.cap
  · rw [if_pos hfit]
    exact ⟨hfit, rfl, rfl⟩
  rw [if_neg hfit]
  have hover := Nat.not_le.mp hfit
  cases ho : openTier s request.incomingPubkeys.toFinset
      (EvictionTier.allowedForIncoming request.incomingOwner.consumer)
      ((own.union ∪ request.incomingPubkeys.toFinset).card - request.cap) with
  | none => exact ⟨hover, (openTier_eq_none h _).mp ho, rfl, rfl⟩
  | some tier =>
      obtain ⟨hallowed, hsat, hmax, hleast⟩ := openTier_eq_some h _ ho
      obtain ⟨victims, physicalFreed, hex, hnd, hsub, hsorted, hfreed, henough⟩ :=
        executeVictimSelection_spec h hsat
      -- the store after the plan
      have hgone : (own.removeAll victims).groups.lookup request.incomingOwner = none := by
        rw [lookup_removeAll, habs]
        split <;> rfl
      have hafter : ((own.removeAll victims).upsertGroup request.incomingOwner
          request.incomingPubkeys).2.union =
          (own.owners \ victims.toFinset).biUnion own.groupSet ∪
            request.incomingPubkeys.toFinset := by
        rw [union_put_new hgone (groups_upsertGroup _ _ hnorm), union_removeAll, hset]
      obtain ⟨hcard, hlost⟩ := plan_balance hsorted hfreed
      rw [← hafter] at hcard hlost
      rw [hdemand] at hcard
      dsimp only
      unfold runVictimSelection
      dsimp only
      rw [hset, hex]
      dsimp only
      rw [h.physicalLen, hdemand, if_pos (by omega)]
      refine ⟨hover, hmax, ?_⟩
      exact {
        distinct := hnd
        victims := victim_of_tierOwners hsub
        len := by dsimp only; omega
        fits := by dsimp only; omega
        added := rfl
        freedNodup := SortedList.nodup_of_pairwise hsorted
        freed := hlost
        kept := by
          intro pubkey hp hf
          rw [← List.mem_toFinset, hfreed] at hf
          exact (mem_freed.mp hf).2.1 (List.mem_toFinset.mpr hp)
        allowed := hallowed
        least := hleast }

/-- **The planner's answer for a cap shrink.** -/
theorem shrinkExact (targetCap : Nat) :
    ShrinkExact own targetCap (selectCapShrinkVictims s targetCap) := by
  unfold selectCapShrinkVictims
  rw [h.physicalLen]
  by_cases hfit : own.union.card ≤ targetCap
  · rw [if_pos hfit]
    unfold ShrinkExact
    exact hfit
  rw [if_neg hfit]
  have hover := Nat.not_le.mp hfit
  -- the shrink's tiers are those of an incoming Wallet group
  have htiers : capShrinkAllowedTiers = EvictionTier.allowedForIncoming .wallet := rfl
  unfold ShrinkExact
  dsimp only
  rw [htiers]
  cases ho : openTier s ∅ (EvictionTier.allowedForIncoming .wallet)
      (own.union.card - targetCap) with
  | none => exact ⟨hover, (openTier_eq_none h _).mp ho, rfl⟩
  | some tier =>
      obtain ⟨hallowed, hsat, hmax, hleast⟩ := openTier_eq_some h _ ho
      obtain ⟨victims, physicalFreed, hex, hnd, hsub, hsorted, hfreed, henough⟩ :=
        executeVictimSelection_spec h hsat
      obtain ⟨hcard, hlost⟩ := plan_balance hsorted hfreed
      rw [Finset.union_empty, ← union_removeAll] at hcard hlost
      rw [Finset.empty_sdiff, Finset.card_empty, add_zero] at hcard
      dsimp only
      rw [hex]
      dsimp only
      rw [if_pos (by omega)]
      refine ⟨hover, hmax, ?_⟩
      exact {
        distinct := hnd
        victims := victim_of_tierOwners hsub
        len := by dsimp only; omega
        fits := by dsimp only; omega
        freedNodup := SortedList.nodup_of_pairwise hsorted
        freed := hlost
        least := hleast }

end Exact

/-- A plan was returned. -/
def VictimSelectionResult.IsPlanned (result : VictimSelectionResult) : Prop :=
  ∃ plan, result = .planned plan

theorem SelectionExact.isPlanned_iff {own : ExplicitOwnership} {request : TierFeasibilityRequest}
    {result : VictimSelectionResult} (h : SelectionExact own request result) :
    result.IsPlanned ↔
      request.cap < (own.union ∪ request.incomingPubkeys.toFinset).card ∧
        (own.union ∪ request.incomingPubkeys.toFinset).card - request.cap ≤
          (own.freed (own.allowedOwners
            (EvictionTier.allowedForIncoming request.incomingOwner.consumer))
            request.incomingPubkeys.toFinset).card := by
  unfold SelectionExact at h
  constructor
  · rintro ⟨plan, rfl⟩
    exact ⟨h.1, h.2.1⟩
  · rintro ⟨hover, hfree⟩
    cases result with
    | noEvictionNeeded added projected => exact absurd h.1 (Nat.not_le.mpr hover)
    | planned plan => exact ⟨plan, rfl⟩
    | rejectedProtected added required => exact absurd h.2.1 (Nat.not_lt.mpr hfree)
    | rejectedInvalidInput => exact h.elim
    | internalInvariantViolation => exact h.elim

/-- **Eviction planning is exact and its plans are sound.** For every snapshot of a well-formed
    store: an incoming group that fits as it is needs no eviction; otherwise a plan is returned
    just when the owners of the allowed tiers together free enough, and else the request is
    rejected as protected; every plan keeps its promises. The same for a cap shrink. -/
theorem eviction_planning_exact {own : ExplicitOwnership} {rows : List OwnerLruEntry}
    {s : EvictionPlanningSnapshot}
    (hs : EvictionPlanningSnapshot.fromOwnership own rows = .ok s) :
    (∀ request : TierFeasibilityRequest, own.groups.lookup request.incomingOwner = none →
      request.incomingPubkeys ≠ [] →
      SelectionExact own request (selectEvictionVictims s request) ∧
      ((selectEvictionVictims s request).IsPlanned ↔
        request.cap < (own.union ∪ request.incomingPubkeys.toFinset).card ∧
          (own.union ∪ request.incomingPubkeys.toFinset).card - request.cap ≤
            (own.freed (own.allowedOwners
              (EvictionTier.allowedForIncoming request.incomingOwner.consumer))
              request.incomingPubkeys.toFinset).card)) ∧
    ∀ targetCap, ShrinkExact own targetCap (selectCapShrinkVictims s targetCap) := by
  have hd := EvictionPlanningSnapshot.describes_of_ok hs
  refine ⟨fun request habs hne => ?_, shrinkExact hd⟩
  have hexact := selectionExact hd request habs hne
  exact ⟨hexact, hexact.isPlanned_iff⟩

/-- `eviction_planning_exact` at a store of two Arb groups that share a pubkey. -/
theorem eviction_planning_exact_shared :
    let own := (ExplicitOwnership.new.upsertGroup ⟨.arb, .wallet⟩ [1, 2]).2.upsertGroup
      ⟨.arb, .generic 1⟩ [2, 3] |>.2
    ∃ s, EvictionPlanningSnapshot.fromOwnership own
        [⟨⟨.arb, .wallet⟩, 5⟩, ⟨⟨.arb, .generic 1⟩, 4⟩] = .ok s ∧
      SelectionExact own ⟨⟨.momentum, .wallet⟩, [7, 8], 3⟩
        (selectEvictionVictims s ⟨⟨.momentum, .wallet⟩, [7, 8], 3⟩) := by
  intro own
  obtain ⟨s, hs⟩ : ∃ s, EvictionPlanningSnapshot.fromOwnership own
      [⟨⟨.arb, .wallet⟩, 5⟩, ⟨⟨.arb, .generic 1⟩, 4⟩] = .ok s := ⟨_, rfl⟩
  exact ⟨s, hs,
    ((eviction_planning_exact hs).1 ⟨⟨.momentum, .wallet⟩, [7, 8], 3⟩ rfl (by decide)).1⟩

/-- **A group that fits as it is gets no plan**, although the allowed tiers free the nothing that
    is needed. -/
theorem planned_iff_freeable_fails :
    ¬ ∀ (own : ExplicitOwnership) (rows : List OwnerLruEntry) (s : EvictionPlanningSnapshot),
      own.WellFormed → EvictionPlanningSnapshot.fromOwnership own rows = .ok s →
      ∀ request : TierFeasibilityRequest, own.groups.lookup request.incomingOwner = none →
      request.incomingPubkeys ≠ [] →
      ((selectEvictionVictims s request).IsPlanned ↔
        (own.union ∪ request.incomingPubkeys.toFinset).card - request.cap ≤
          (own.freed (own.allowedOwners
            (EvictionTier.allowedForIncoming request.incomingOwner.consumer))
            request.incomingPubkeys.toFinset).card) := by
  intro hall
  have hx := hall .new [] ⟨0, [], [], []⟩ wellFormed_new rfl
    ⟨⟨.arb, .wallet⟩, [0], 1⟩ rfl (by decide)
  obtain ⟨plan, hplan⟩ := hx.mpr (by decide)
  have hres : selectEvictionVictims ⟨0, [], [], []⟩ ⟨⟨.arb, .wallet⟩, [0], 1⟩ =
      .noEvictionNeeded 1 1 := rfl
  rw [hres] at hplan
  cases hplan

end IronCrab.Track

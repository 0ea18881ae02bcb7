/-
  File:      IronCrab/Track/AdmissionEviction.lean
  Subject:   ADMISSION WITH EVICTION: A CANDIDATE IS BUILT, VALIDATED AND SWAPPED IN.

  A candidate is the store built anew from the survivors' groups; a well-formed store is determined
  by its groups, so it is the store without the victims (`rebuildSurvivors_eq`). The plan it was
  built from is sound (`SelectionSound`), so every check of the validation passes.

  * `EvictingCandidate.validate` -- no check fails;
  * `tryAdmitWithEviction_spec` -- what each result means.
-/
import IronCrab.Track.AdmissionOps

namespace IronCrab.Track

open ExplicitOwnership

namespace FixedCapAdmission

/-! ## 1. The survivors' store -/

theorem rebuildSurvivors_survivor {victims : Finset ExplicitOwner} {group : OwnerGroupSnapshot}
    (hv : group.owner ∉ victims) {own own' : ExplicitOwnership} {change : GroupChange}
    (hup : own.upsertGroup group.owner group.pubkeys = (.ok change, own'))
    (groups : List OwnerGroupSnapshot) :
    rebuildSurvivors victims (group :: groups) own = rebuildSurvivors victims groups own' := by
  rw [rebuildSurvivors, if_neg hv, hup]

/-- The rebuild of a part of the groups onto a store. -/
theorem rebuildSurvivors_entries (victims : Finset ExplicitOwner)
    {l : List (ExplicitOwner × List Pubkey)} (hs : (l.map Prod.fst).Pairwise (· < ·))
    (hne : ∀ e ∈ l, e.2 ≠ []) (hsorted : ∀ e ∈ l, e.2.Pairwise (· < ·))
    {acc : ExplicitOwnership} (hwf : acc.WellFormed) :
    ∃ own, rebuildSurvivors victims (l.map fun e => .fromOwner e.1 e.2) acc = some own ∧
      own.WellFormed ∧ ∀ o, own.groups.lookup o =
        if o ∈ victims then acc.groups.lookup o
        else (SortedMap.lookupEntry o l).or (acc.groups.lookup o) := by
  induction l generalizing acc with
  | nil =>
      refine ⟨acc, rfl, hwf, fun o => ?_⟩
      split_ifs <;> rfl
  | cons e l ih =>
      obtain ⟨owner, group⟩ := e
      obtain ⟨hlt, hs⟩ := List.pairwise_cons.mp hs
      have hne' := fun e he => hne e (List.mem_cons_of_mem _ he)
      have hsorted' := fun e he => hsorted e (List.mem_cons_of_mem _ he)
      have hnotin : SortedMap.lookupEntry owner l = none :=
        SortedMap.lookupEntry_eq_none fun hm => lt_irrefl _ (hlt owner hm)
      rw [List.map_cons]
      by_cases hv : owner ∈ victims
      · obtain ⟨own, hr, hown, hl⟩ := ih hs hne' hsorted' hwf
        refine ⟨own, ?_, hown, fun o => ?_⟩
        · rw [rebuildSurvivors]
          exact (if_pos hv).trans hr
        rw [hl]
        by_cases ho : o ∈ victims
        · rw [if_pos ho, if_pos ho]
        · have hno : owner ≠ o := fun he => ho (he ▸ hv)
          rw [if_neg ho, if_neg ho, SortedMap.lookupEntry, if_neg hno]
      · have hnorm : normalizePubkeys group = group :=
          SortedList.normalize_eq_self (hsorted _ List.mem_cons_self)
        have hgne : normalizePubkeys group ≠ [] := by
          rw [hnorm]
          exact hne _ List.mem_cons_self
        have hgroups := groups_upsertGroup acc owner hgne
        have hok : ∃ change, (acc.upsertGroup owner group).1 = .ok change := by
          cases hl : acc.groups.lookup owner with
          | none => exact ⟨_, upsertGroup_new hwf hgne hl⟩
          | some old =>
              by_cases hold : old = normalizePubkeys group
              · rw [hold] at hl
                exact ⟨_, congrArg Prod.fst (upsertGroup_unchanged hwf hl)⟩
              · exact ⟨_, upsertGroup_replaced hwf hgne hl hold⟩
        obtain ⟨change, hchange⟩ := hok
        obtain ⟨own, hr, hown, hl⟩ := ih hs hne' hsorted' (wellFormed_upsertGroup hwf owner group)
        refine ⟨own, ?_, hown, fun o => ?_⟩
        · have hup : acc.upsertGroup owner group = (.ok change, (acc.upsertGroup owner group).2) :=
            Prod.ext hchange rfl
          exact (rebuildSurvivors_survivor hv hup _).trans hr
        · rw [hl, hgroups, hnorm, SortedMap.lookupEntry]
          by_cases ho : o = owner
          · subst ho
            rw [if_neg hv, if_neg hv, hnotin, if_pos rfl, SortedMap.lookup_insert_self]
            rfl
          · rw [SortedMap.lookup_insert_ne _ ho, if_neg (Ne.symm ho)]

/-- **The rebuilt store is the store without the victims.** -/
theorem rebuildSurvivors_eq {own : ExplicitOwnership} (h : own.WellFormed)
    (victims : List ExplicitOwner) :
    rebuildSurvivors victims.toFinset own.snapshotOwnerGroups .new =
      some (own.removeAll victims) := by
  obtain ⟨own', hr, hown, hl⟩ := rebuildSurvivors_entries victims.toFinset own.groups.sorted
    (fun e he => h.nonempty e.1 e.2 (SortedMap.mem_entries.mp he))
    (fun e he => h.sorted e.1 e.2 (SortedMap.mem_entries.mp he)) wellFormed_new
  have heq : own' = own.removeAll victims := by
    refine hown.eq_of_groups (wellFormed_removeAll h victims) (SortedMap.ext_lookup fun o => ?_)
    rw [hl, lookup_removeAll]
    by_cases hv : o ∈ victims
    · rw [if_pos (List.mem_toFinset.mpr hv), if_pos hv]
      rfl
    · rw [if_neg (fun hm => hv (List.mem_toFinset.mp hm)), if_neg hv]
      exact Option.or_none
  rw [← heq]
  exact hr

/-! ## 2. The checks of the validation -/

theorem ownersOf_eq (own : ExplicitOwnership) : ownersOf own = own.owners := by
  unfold ownersOf owners
  rw [owners_snapshotOwnerGroups]

/-- The sorted difference of two stores is what a list reports. -/
theorem differenceOf_eq {own other : ExplicitOwnership} (h : own.WellFormed)
    (h' : other.WellFormed) {l : List Pubkey} (hl : ListsExactly l (own.union \ other.union)) :
    differenceOf own other = l.insertionSort (· ≤ ·) := by
  unfold differenceOf
  refine SortedList.insertionSort_eq_of_toFinset ((nodup_normalizePubkeys _).filter _) hl.1 ?_
  rw [hl.2, h'.toFinset_snapshotPubkeys]
  ext pubkey
  rw [List.mem_toFinset, List.mem_filter, mem_normalizePubkeys, h.mem_snapshotPubkeys,
    decide_eq_true_eq, Finset.mem_sdiff]

theorem lookup_eraseAll (lru : OwnerLru) (victims : List ExplicitOwner) (o : ExplicitOwner) :
    (eraseAll lru victims).lookup o = if o ∈ victims then none else lru.lookup o := by
  rw [eraseAll_eq, SortedMap.lookup_retain_keys]
  by_cases hv : o ∈ victims
  · simp [hv]
  · simp [hv]

/-- A candidate whose owners have one stamp each can be planned with. -/
theorem planningOk_of {candidate : EvictingCandidateState} (h : candidate.ownership.WellFormed)
    (howners : ∀ o, o ∈ candidate.ownerLru.keys ↔ o ∈ candidate.ownership.groups.keys) :
    planningOk candidate = true := by
  have hrows : (candidate.ownerLru.entries.map fun e => (⟨e.1, e.2⟩ : OwnerLruEntry)).map
      (·.owner) = candidate.ownerLru.keys := by
    rw [List.map_map]
    rfl
  obtain ⟨s, hs⟩ := EvictionPlanningSnapshot.fromOwnership_isOk h
    (by rw [hrows]; exact candidate.ownerLru.nodup_keys)
    (fun o => by rw [hrows]; exact howners o)
  unfold planningOk
  rw [hs]

/-- Sorting a part of the owners by their stamps gives that part of the order. -/
theorem sortedByStamp_eq {lru : OwnerLru} {next : Nat} (h : Recency.Stamped lru next)
    (p : ExplicitOwner → Bool) :
    sortedByStamp lru (lru.keys.filter p) = (Recency.order lru).filter p := by
  have hrow : ∀ e ∈ lru.entries, (e.1, Recency.stamp lru e.1) = e := by
    intro e he
    rw [Recency.stamp_of_lookup (SortedMap.mem_entries.mp (show (e.1, e.2) ∈ _ from he))]
  have hmap : (lru.keys.filter p).map (fun owner => (owner, Recency.stamp lru owner)) =
      lru.entries.filter fun e => p e.1 := by
    unfold SortedMap.keys
    rw [List.filter_map, List.map_map]
    refine (List.map_congr_left fun e he => ?_).trans (List.map_id _)
    exact hrow e (List.mem_of_mem_filter he)
  unfold sortedByStamp
  rw [hmap]
  refine Recency.eq_order_filter h (fun e => ?_)
    (((List.perm_insertionSort Recency.StampLe _).nodup_iff).mpr (lru.nodup_entries.filter _))
    ((List.pairwise_insertionSort Recency.StampLe _).imp fun hab => hab.snd_le)
  rw [List.mem_insertionSort, List.mem_filter]

/-- The greatest of some stamps is below what all are below. -/
theorem foldl_max_lt {l : List Nat} {bound acc : Nat} (hacc : acc < bound)
    (h : ∀ x ∈ l, x < bound) : l.foldl max acc < bound := by
  induction l generalizing acc with
  | nil => exact hacc
  | cons x l ih =>
      exact ih (max_lt hacc (h x List.mem_cons_self)) fun y hy => h y (List.mem_cons_of_mem _ hy)

/-- **What the evicting candidate is.** -/
structure EvictingCandidate (adm : FixedCapAdmission) (victims : List ExplicitOwner)
    (owner : ExplicitOwner) (group : List Pubkey) (candidate : EvictingCandidateState) : Prop where
  wellFormed : candidate.ownership.WellFormed
  groups : candidate.ownership.groups = (adm.ownership.removeAll victims).groups.insert owner group
  stamps : StampPlanned (eraseAll adm.ownerLru victims) adm.nextTouchStamp owner
    ⟨candidate.ownerLru, candidate.nextTouchStamp⟩
  len : candidate.physicalLen = candidate.ownership.union.card

section Evicting

variable {adm : FixedCapAdmission} (h : adm.Inv) {victims : List ExplicitOwner}
  {owner : ExplicitOwner} {group : List Pubkey} {candidate : EvictingCandidateState}
  (hc : EvictingCandidate adm victims owner group candidate)
include h hc

omit h in
theorem EvictingCandidate.lookup {o : ExplicitOwner} (ho : o ≠ owner) (hv : o ∉ victims) :
    candidate.ownership.groups.lookup o = adm.ownership.groups.lookup o := by
  rw [hc.groups, SortedMap.lookup_insert_ne _ ho, lookup_removeAll, if_neg hv]

/-- Every owner of the candidate has a stamp and the other way round. -/
theorem EvictingCandidate.owners_iff (o : ExplicitOwner) :
    o ∈ candidate.ownerLru.keys ↔ o ∈ candidate.ownership.groups.keys := by
  have hdrop := (h.drop victims).1.owners o
  have hkeys := hc.stamps.keys o
  rw [hkeys, hc.groups, SortedMap.mem_keys_insert]
  exact or_congr_right hdrop

omit h in
theorem EvictingCandidate.ownersOf_eq :
    ownersOf candidate.ownership = insert owner (ownersOf adm.ownership \ victims.toFinset) := by
  rw [FixedCapAdmission.ownersOf_eq, FixedCapAdmission.ownersOf_eq]
  ext o
  rw [mem_owners, hc.groups, Finset.mem_insert, Finset.mem_sdiff, mem_owners, List.mem_toFinset]
  by_cases ho : o = owner
  · subst ho
    rw [SortedMap.lookup_insert_self]
    exact ⟨fun _ => .inl rfl, fun _ => ⟨group, rfl⟩⟩
  · rw [SortedMap.lookup_insert_ne _ ho, lookup_removeAll]
    by_cases hv : o ∈ victims
    · simp [ho, hv]
    · simp [ho, hv]

theorem EvictingCandidate.victimsGone (hnew : owner ∉ victims) :
    FixedCapAdmission.victimsGone candidate victims = true := by
  unfold FixedCapAdmission.victimsGone
  rw [List.all_eq_true]
  intro victim hv
  have hne : victim ≠ owner := fun he => hnew (he ▸ hv)
  have hgroup : candidate.ownership.ownerGroup victim = none := by
    show candidate.ownership.groups.lookup victim = none
    rw [hc.groups, SortedMap.lookup_insert_ne _ hne, lookup_removeAll, if_pos hv]
  have hstamp : candidate.ownerLru.lookup victim = none := by
    rw [SortedMap.lookup_eq_none, hc.owners_iff h, ← SortedMap.lookup_eq_none]
    exact hgroup
  unfold SortedMap.contains
  rw [hgroup, hstamp]
  rfl

theorem EvictingCandidate.survivors :
    (adm.snapshotOwnerGroups.all fun g =>
      decide (g.owner ∈ victims.toFinset) || (decide (g.owner = owner) ||
        (decide (adm.ownership.ownerGroup g.owner = candidate.ownership.ownerGroup g.owner) &&
          (decide (adm.nextTouchStamp = u64Max) ||
            sameStamp adm.ownerLru candidate.ownerLru g.owner)))) = true := by
  rw [List.all_eq_true]
  intro g hg
  obtain ⟨e, he, rfl⟩ := List.mem_map.mp hg
  show (decide (e.1 ∈ victims.toFinset) || (decide (e.1 = owner) || _)) = true
  by_cases hv : e.1 ∈ victims
  · rw [decide_eq_true (List.mem_toFinset.mpr hv)]
    rfl
  by_cases ho : e.1 = owner
  · rw [decide_eq_true ho, Bool.true_or, Bool.or_true]
  have hsame : adm.ownership.ownerGroup e.1 = candidate.ownership.ownerGroup e.1 :=
    (hc.lookup ho hv).symm
  have hstamps : (decide (adm.nextTouchStamp = u64Max) ||
      sameStamp adm.ownerLru candidate.ownerLru e.1) = true := by
    by_cases hmax : adm.nextTouchStamp = u64Max
    · rw [decide_eq_true hmax]
      rfl
    · obtain ⟨stamp, hs⟩ := h.exists_stamp (SortedMap.mem_entries.mp (show (e.1, e.2) ∈ _ from he))
      have hcand := hc.stamps.others hmax e.1 ho
      rw [lookup_eraseAll, if_neg hv, hs] at hcand
      unfold sameStamp
      rw [hs, hcand]
      simp
  show (decide (e.1 ∈ victims.toFinset) || (decide (e.1 = owner) ||
    (decide (adm.ownership.ownerGroup e.1 = candidate.ownership.ownerGroup e.1) && _))) = true
  rw [decide_eq_true hsame]
  exact (congrArg (fun b => _ || (_ || (true && b))) hstamps).trans (by simp)

theorem EvictingCandidate.survivorOrderKept (hnew : owner ∉ adm.ownerLru.keys) :
    FixedCapAdmission.survivorOrderKept adm candidate victims.toFinset owner = true := by
  have hlive := sortedByStamp_eq h.stamped fun o => decide (o ∉ victims.toFinset)
  have hcand := sortedByStamp_eq hc.stamps.stamped fun o => decide (o ≠ owner)
  have horder : (Recency.order candidate.ownerLru).filter (fun o => decide (o ≠ owner)) =
      (Recency.order adm.ownerLru).filter fun o => decide (o ∉ victims.toFinset) := by
    have hstamps := hc.stamps.order
    dsimp only at hstamps
    rw [hstamps, eraseAll_eq, Recency.order_retain h.stamped, List.filter_append]
    have hlast : ([owner].filter fun o => decide (o ≠ owner)) = [] := by simp
    rw [hlast, List.append_nil, List.filter_filter, List.filter_filter]
    refine List.filter_congr fun o ho => ?_
    have hne : o ≠ owner := fun he => hnew (he ▸ Recency.mem_order.mp ho)
    simp [hne]
  have hsort : sortedByStamp adm.ownerLru
        (adm.ownerLru.keys.filter fun o => decide (o ∉ victims.toFinset)) =
      sortedByStamp candidate.ownerLru
        (candidate.ownerLru.keys.filter fun o => decide (o ≠ owner)) := by
    rw [hlive, hcand, horder]
  have hlength : ∀ (lru : OwnerLru) (l : List ExplicitOwner),
      (sortedByStamp lru l).length = l.length := by
    intro lru l
    unfold sortedByStamp
    rw [List.length_map, List.length_insertionSort, List.length_map]
  have hlen := congrArg List.length hsort
  rw [hlength, hlength] at hlen
  unfold FixedCapAdmission.survivorOrderKept
  dsimp only
  rw [decide_eq_true hlen, decide_eq_true hsort]
  rfl

omit h in
theorem EvictingCandidate.incomingStampNewest :
    FixedCapAdmission.incomingStampNewest candidate owner = true := by
  obtain ⟨stamp, hs, hnext⟩ := hc.stamps.newest
  dsimp only at hs hnext
  have hstamped := hc.stamps.stamped
  have hbound := hc.stamps.bounded
  dsimp only at hstamped hbound
  have hothers : (candidate.ownerLru.entries.all fun e =>
      decide (e.1 = owner) || decide (e.2 < stamp)) = true := by
    rw [List.all_eq_true]
    intro e he
    have hl := SortedMap.mem_entries.mp (show (e.1, e.2) ∈ candidate.ownerLru.entries from he)
    by_cases ho : e.1 = owner
    · rw [decide_eq_true ho]
      rfl
    · have hlt := hstamped.below e.1 e.2 hl
      have hne : e.2 ≠ stamp := fun heq => ho (hstamped.distinct e.1 owner stamp (heq ▸ hl) hs)
      rw [decide_eq_true (show e.2 < stamp by omega), Bool.or_true]
  have hmax : candidate.ownerLru.values.foldl max 0 < candidate.nextTouchStamp := by
    refine foldl_max_lt (by omega) fun x hx => ?_
    obtain ⟨e, he, rfl⟩ := List.mem_map.mp hx
    exact hstamped.below e.1 e.2 (SortedMap.mem_entries.mp he)
  have hmin : candidate.nextTouchStamp = min (stamp + 1) u64Max := by
    rw [Nat.min_eq_left (by omega)]
    exact hnext
  unfold FixedCapAdmission.incomingStampNewest
  rw [hs]
  dsimp only
  rw [hothers, decide_eq_true hmax, decide_eq_true hmin]
  rfl

/-- The candidate's store is the one the plan is about. -/
theorem EvictingCandidate.store_eq (hsorted : group.Pairwise (· < ·)) (hne : group ≠ []) :
    ((adm.ownership.removeAll victims).upsertGroup owner group).2 = candidate.ownership := by
  have hnorm : normalizePubkeys group = group := SortedList.normalize_eq_self hsorted
  have hnorm' : normalizePubkeys group ≠ [] := by
    rw [hnorm]
    exact hne
  refine (wellFormed_upsertGroup (wellFormed_removeAll h.wellFormed _) owner group).eq_of_groups
    hc.wellFormed ?_
  rw [groups_upsertGroup _ _ hnorm', hc.groups, hnorm]

omit h in
/-- What the candidate adds to the union. -/
theorem EvictingCandidate.added (habs : adm.ownership.groups.lookup owner = none)
    (hnd : group.Nodup) :
    ListsExactly (adm.ownership.absent group)
      (candidate.ownership.union \ adm.ownership.union) := by
  have hunion : candidate.ownership.union =
      (adm.ownership.removeAll victims).union ∪ group.toFinset := by
    refine union_put_new ?_ hc.groups
    rw [lookup_removeAll, habs]
    split <;> rfl
  refine ⟨hnd.filter _, ?_⟩
  ext pubkey
  unfold absent
  rw [hunion, List.mem_toFinset, List.mem_filter, decide_eq_true_eq, Finset.mem_sdiff,
    Finset.mem_union, List.mem_toFinset]
  refine and_congr_left fun hno => (or_iff_right fun hin => hno ?_).symm
  exact union_removeAll_subset _ _ hin

end Evicting

/-- A plan for a new group does not pick its owner. -/
theorem owner_notMem_victims {own : ExplicitOwnership} {request : TierFeasibilityRequest}
    {plan : VictimSelectionPlan} (hplan : SelectionSound own request plan)
    (habs : own.groups.lookup request.incomingOwner = none) :
    request.incomingOwner ∉ plan.victims := by
  intro hv
  obtain ⟨ho, _⟩ := hplan.victims _ hv
  obtain ⟨_, hg⟩ := mem_owners.mp ho
  rw [habs] at hg
  cases hg

section Planned

variable {adm : FixedCapAdmission} (h : adm.Inv) {owner : ExplicitOwner} {group : List Pubkey}
  {plan : VictimSelectionPlan} {candidate : EvictingCandidateState}
  (hc : EvictingCandidate adm plan.victims owner group candidate)
  (hplan : SelectionSound adm.ownership ⟨owner, group, adm.cap⟩ plan)
  (hsorted : group.Pairwise (· < ·)) (hne : group ≠ [])
include h hc hplan hsorted hne

theorem EvictingCandidate.freed : ListsExactly plan.physicalFreed
    (adm.ownership.union \ candidate.ownership.union) := by
  have hfreed := hplan.freed
  dsimp only at hfreed
  rw [hc.store_eq h hsorted hne] at hfreed
  exact ⟨hplan.freedNodup, hfreed⟩

theorem EvictingCandidate.len_eq : candidate.physicalLen = plan.projectedFinalLen := by
  have hlen := hplan.len
  dsimp only at hlen
  rw [hc.store_eq h hsorted hne] at hlen
  rw [hc.len, hlen]

theorem EvictingCandidate.fits : candidate.physicalLen ≤ adm.cap := by
  rw [hc.len_eq h hplan hsorted hne]
  exact hplan.fits

/-- **The candidate of a sound plan passes the validation.** -/
theorem EvictingCandidate.validate (habs : adm.ownership.groups.lookup owner = none) :
    adm.validateEvictingCandidate candidate plan owner group (adm.ownership.absent group) =
      true := by
  have hnd := SortedList.nodup_of_pairwise hsorted
  have hnew : owner ∉ plan.victims := owner_notMem_victims hplan habs
  have hnostamp : owner ∉ adm.ownerLru.keys := by
    rw [h.owners_iff, habs]
    rintro ⟨_, hg⟩
    cases hg
  have hgroup : candidate.ownership.ownerGroup owner = some group := by
    show candidate.ownership.groups.lookup owner = some group
    rw [hc.groups, SortedMap.lookup_insert_self]
  have horder : (!decide (adm.nextTouchStamp = u64Max) ||
      FixedCapAdmission.survivorOrderKept adm candidate plan.victims.toFinset owner) = true := by
    rw [hc.survivorOrderKept h hnostamp, Bool.or_true]
  have hcount : (adm.ownership.absent group).length = plan.incomingPhysicalAdded := by
    rw [card_absent hnd, hplan.added]
  have hstorelen : candidate.physicalLen = candidate.ownership.len := by
    rw [hc.len, hc.wellFormed.len_eq]
  unfold validateEvictingCandidate
  dsimp only
  rw [decide_eq_true hc.ownersOf_eq, hc.victimsGone h hnew, decide_eq_true hgroup,
    hc.survivors h, horder, hc.incomingStampNewest,
    decide_eq_true (differenceOf_eq h.wellFormed hc.wellFormed (hc.freed h hplan hsorted hne)),
    decide_eq_true (differenceOf_eq hc.wellFormed h.wellFormed (hc.added habs hnd)),
    decide_eq_true hcount, decide_eq_true (hc.len_eq h hplan hsorted hne),
    decide_eq_true (hc.fits h hplan hsorted hne), decide_eq_true hstorelen,
    planningOk_of hc.wellFormed (hc.owners_iff h)]
  rfl

end Planned

/-! ## 3. Admission with eviction -/

/-- What may go for an incoming group of this consumer. -/
def freeable (adm : FixedCapAdmission) (consumer : ExplicitConsumer) (pubkeys : List Pubkey) :
    Finset Pubkey :=
  adm.ownership.freed (adm.ownership.allowedOwners (EvictionTier.allowedForIncoming consumer))
    pubkeys.toFinset

/-- The group of a new owner is in, and these victims had to go. -/
structure Evicts (adm : FixedCapAdmission) (owner : ExplicitOwner) (pubkeys : List Pubkey)
    (victims : List ExplicitOwner) (openedThrough : EvictionTier) (adm' : FixedCapAdmission) :
    Prop where
  nonempty : pubkeys ≠ []
  absent : adm.ownership.groups.lookup owner = none
  overfull : adm.cap < (adm.ownership.union ∪ pubkeys.toFinset).card
  /-- What may go is enough. -/
  feasible : (adm.ownership.union ∪ pubkeys.toFinset).card - adm.cap ≤
    (adm.freeable owner.consumer pubkeys).card
  distinct : victims.Nodup
  evictable : ∀ victim ∈ victims, victim ∈ adm.ownership.owners ∧ victim.consumer ≠ .wallet ∧
    victim.consumer ∈ openedThrough.cumulativeConsumers
  allowed : openedThrough ∈ EvictionTier.allowedForIncoming owner.consumer
  inv : adm'.Inv
  book : adm'.book = (adm.book.drop victims).put owner (normalizePubkeys pubkeys)

/-- What the result of an admission with eviction means. -/
def EvictExact (adm : FixedCapAdmission) (owner : ExplicitOwner) (pubkeys : List Pubkey) :
    EvictingAdmissionResult → FixedCapAdmission → Prop
  | .insertedNoEviction physicalAdded, adm' => adm.Admits owner pubkeys adm' ∧
      ListsExactly physicalAdded (adm'.ownership.union \ adm.ownership.union)
  | .insertedWithEviction physicalAdded physicalRemoved victims openedThrough, adm' =>
      adm.Evicts owner pubkeys victims openedThrough adm' ∧
      ListsExactly physicalAdded (adm'.ownership.union \ adm.ownership.union) ∧
      ListsExactly physicalRemoved (adm.ownership.union \ adm'.ownership.union)
  | .rejectedExistingOwner, adm' =>
      (∃ group, adm.ownership.groups.lookup owner = some group) ∧ adm' = adm
  | .rejectedProtected _ _, adm' => pubkeys ≠ [] ∧ adm.ownership.groups.lookup owner = none ∧
      adm.cap < (adm.ownership.union ∪ pubkeys.toFinset).card ∧
      (adm.freeable owner.consumer pubkeys).card <
        (adm.ownership.union ∪ pubkeys.toFinset).card - adm.cap ∧ adm' = adm
  | .rejectedInvalidInput, adm' => pubkeys = [] ∧ adm' = adm
  | .internalInvariantViolation, adm' => ¬ adm.HasRoom ∧ adm' = adm

theorem len_eraseAll_le (lru : OwnerLru) (victims : List ExplicitOwner) :
    (eraseAll lru victims).len ≤ lru.len := by
  rw [eraseAll_eq]
  exact List.length_filter_le _ _

section EvictSpec

variable {adm : FixedCapAdmission} (h : adm.Inv)
include h

theorem exists_snapshot :
    ∃ s, EvictionPlanningSnapshot.fromOwnership adm.ownership adm.snapshotLruEntries = .ok s := by
  have hrows : adm.snapshotLruEntries.map (·.owner) = adm.ownerLru.keys := by
    unfold snapshotLruEntries SortedMap.keys
    rw [List.map_map]
    rfl
  refine EvictionPlanningSnapshot.fromOwnership_isOk h.wellFormed ?_ fun o => ?_
  · rw [hrows]
    exact adm.ownerLru.nodup_keys
  · rw [hrows]
    exact h.owners o

/-- The planner's answer for a new group that does not fit. -/
theorem planAdmitWithEviction_spec {owner : ExplicitOwner} {group : List Pubkey}
    (hsorted : group.Pairwise (· < ·)) (hne : group ≠ [])
    (habs : adm.ownership.groups.lookup owner = none) :
    SelectionExact adm.ownership ⟨owner, group, adm.cap⟩
      (adm.planAdmitWithEviction owner group) := by
  obtain ⟨s, hs⟩ := exists_snapshot h
  unfold planAdmitWithEviction
  rw [hs]
  dsimp only
  rw [show normalizePubkeys group = group from SortedList.normalize_eq_self hsorted]
  exact selectionExact (EvictionPlanningSnapshot.describes_of_ok hs) ⟨owner, group, adm.cap⟩ habs
    hne

section Candidate

variable {plan : VictimSelectionPlan} {owner : ExplicitOwner} {pubkeys : List Pubkey}
  {own own' : ExplicitOwnership} {change : GroupChange} (hnew : owner ∉ plan.victims)
  (hr : rebuildSurvivors plan.victims.toFinset adm.snapshotOwnerGroups .new = some own)
  (hup : own.upsertGroup owner pubkeys = (.ok change, own'))
include hnew hr hup

omit h in
theorem buildEvictingCandidate_of_ok {stamps : StampPlan}
    (hp : planStampAssign (eraseAll adm.ownerLru plan.victims) adm.nextTouchStamp owner =
      .ok stamps) :
    adm.buildEvictingCandidate owner pubkeys plan =
      some ⟨own', stamps.ownerLru, stamps.nextTouchStamp, own'.len⟩ := by
  unfold eraseAll at hp
  unfold buildEvictingCandidate
  rw [if_neg (fun hm => hnew (List.mem_toFinset.mp hm)), hr]
  dsimp only
  rw [hup]
  dsimp only
  rw [hp]

omit h in
theorem buildEvictingCandidate_of_error {e : StampPlanError}
    (hp : planStampAssign (eraseAll adm.ownerLru plan.victims) adm.nextTouchStamp owner =
      .error e) : adm.buildEvictingCandidate owner pubkeys plan = none := by
  unfold eraseAll at hp
  unfold buildEvictingCandidate
  rw [if_neg (fun hm => hnew (List.mem_toFinset.mp hm)), hr]
  dsimp only
  rw [hup]
  dsimp only
  rw [hp]

end Candidate

/-- The candidate is built, or no stamp is left. -/
theorem buildEvictingCandidate_spec {owner : ExplicitOwner} {pubkeys : List Pubkey}
    {plan : VictimSelectionPlan} (hne : normalizePubkeys pubkeys ≠ [])
    (habs : adm.ownership.groups.lookup owner = none) (hnew : owner ∉ plan.victims) :
    (∃ candidate, adm.buildEvictingCandidate owner (normalizePubkeys pubkeys) plan =
        some candidate ∧
      EvictingCandidate adm plan.victims owner (normalizePubkeys pubkeys) candidate) ∨
    adm.buildEvictingCandidate owner (normalizePubkeys pubkeys) plan = none ∧ ¬ adm.HasRoom := by
  have hgone : (adm.ownership.removeAll plan.victims).groups.lookup owner = none := by
    rw [lookup_removeAll, habs]
    split <;> rfl
  obtain ⟨own', hup, hwf, hgroups⟩ :=
    upsert_new (wellFormed_removeAll h.wellFormed plan.victims) hne hgone
  have hstamped : Recency.Stamped (eraseAll adm.ownerLru plan.victims) adm.nextTouchStamp :=
    (h.drop plan.victims).1.stamped
  have hr := rebuildSurvivors_eq h.wellFormed plan.victims
  rcases planStampAssign_spec hstamped h.bounded owner with ⟨stamps, hp, hst⟩ | ⟨⟨e, hp⟩, hroom⟩
  · refine .inl ⟨_, buildEvictingCandidate_of_ok hnew hr hup hp, ?_⟩
    exact ⟨hwf, hgroups, hst, hwf.len_eq⟩
  · refine .inr ⟨buildEvictingCandidate_of_error hnew hr hup hp, fun hr => hroom fun hmax => ?_⟩
    have hlen := len_eraseAll_le adm.ownerLru plan.victims
    have hspace := hr hmax
    omega

/-- The path without eviction, for a new group that fits. -/
theorem mapFastPathAdmit_spec {owner : ExplicitOwner} {pubkeys : List Pubkey} (hne : pubkeys ≠ [])
    (habs : adm.ownership.groups.lookup owner = none)
    (hfits : (adm.ownership.union ∪ pubkeys.toFinset).card ≤ adm.cap) :
    EvictExact adm owner pubkeys (adm.mapFastPathAdmit owner (normalizePubkeys pubkeys)).1
      (adm.mapFastPathAdmit owner (normalizePubkeys pubkeys)).2 := by
  have hset : (normalizePubkeys pubkeys).toFinset = pubkeys.toFinset :=
    SortedList.toFinset_normalize _
  have hadmits : ∀ adm', adm.Admits owner (normalizePubkeys pubkeys) adm' →
      adm.Admits owner pubkeys adm' := by
    intro adm' ha
    have hbook := ha.book
    have hunion := ha.union
    rw [normalizePubkeys_normalizePubkeys] at hbook
    rw [hset] at hunion
    exact ⟨hne, habs, hfits, ha.inv, hbook, hunion⟩
  have hspec := tryAdmitNewGroup_spec h owner (normalizePubkeys pubkeys)
  unfold mapFastPathAdmit
  cases hres : adm.tryAdmitNewGroup owner (normalizePubkeys pubkeys) with
  | mk res adm' =>
      rw [hres] at hspec
      cases res with
      | inserted added => exact ⟨hadmits _ hspec.1, hspec.2⟩
      | ownerAddedNoNewPubkey =>
          refine ⟨hadmits _ hspec.1, List.nodup_nil, ?_⟩
          have hsame : adm'.ownership.union = adm.ownership.union := hspec.2
          show (∅ : Finset Pubkey) = adm'.ownership.union \ adm.ownership.union
          rw [hsame, Finset.sdiff_self]
      | rejectedExistingOwner =>
          obtain ⟨⟨_, hg⟩, _⟩ := hspec
          rw [habs] at hg
          cases hg
      | rejectedInvalidGroup => exact absurd (normalizePubkeys_eq_nil.mp hspec.1) hne
      | rejectedCap required available =>
          obtain ⟨_, _, hover, _⟩ := hspec
          rw [hset] at hover
          exact absurd hfits (Nat.not_le.mpr hover)
      | internalInvariantViolation => exact hspec

/-- **An admission with eviction.** -/
theorem tryAdmitWithEviction_spec (owner : ExplicitOwner) (pubkeys : List Pubkey) :
    EvictExact adm owner pubkeys (adm.tryAdmitWithEviction owner pubkeys).1
      (adm.tryAdmitWithEviction owner pubkeys).2 := by
  unfold tryAdmitWithEviction ExplicitOwnership.ownerGroup
  dsimp only
  by_cases hnil : normalizePubkeys pubkeys = []
  · rw [if_pos hnil]
    exact ⟨normalizePubkeys_eq_nil.mp hnil, rfl⟩
  have hne : pubkeys ≠ [] := fun he => hnil (normalizePubkeys_eq_nil.mpr he)
  rw [if_neg hnil]
  cases hl : adm.ownership.groups.lookup owner with
  | some group => exact ⟨⟨group, hl⟩, rfl⟩
  | none =>
      have hnd := nodup_normalizePubkeys pubkeys
      have hset : (normalizePubkeys pubkeys).toFinset = pubkeys.toFinset :=
        SortedList.toFinset_normalize _
      rw [if_neg (by simp), planInsert_eq h hnd, hset, h.wellFormed.filter_refcount]
      by_cases hover : adm.cap < (adm.ownership.union ∪ pubkeys.toFinset).card
      · rw [if_pos hover]
        dsimp only
        have hplan := planAdmitWithEviction_spec h (pairwise_normalizePubkeys pubkeys) hnil hl
        unfold SelectionExact at hplan
        dsimp only at hplan
        rw [hset] at hplan
        cases hres : adm.planAdmitWithEviction owner (normalizePubkeys pubkeys) with
        | noEvictionNeeded added projected =>
            rw [hres] at hplan
            exact absurd hplan.1 (Nat.not_le.mpr hover)
        | rejectedProtected added required =>
            rw [hres] at hplan
            exact ⟨hne, hl, hover, hplan.2.1, rfl⟩
        | rejectedInvalidInput =>
            rw [hres] at hplan
            exact hplan.elim
        | internalInvariantViolation =>
            rw [hres] at hplan
            exact hplan.elim
        | planned plan =>
            rw [hres] at hplan
            obtain ⟨_, hfeasible, hsound⟩ := hplan
            dsimp only
            have hnew : owner ∉ plan.victims := owner_notMem_victims hsound hl
            have hsorted := pairwise_normalizePubkeys pubkeys
            rcases buildEvictingCandidate_spec h hnil hl hnew with ⟨candidate, hb, hc⟩ | ⟨hb, hroom⟩
            · rw [hb]
              dsimp only
              rw [if_pos (hc.validate h hsound hsorted hnil hl)]
              obtain ⟨hdrop, hdropbook⟩ := h.drop plan.victims
              obtain ⟨hinv, hbook⟩ := hdrop.put hc.wellFormed hc.groups hc.stamps hc.len
                (hc.fits h hsound hsorted hnil)
              rw [hdropbook] at hbook
              refine ⟨?_, hc.added hl hnd, hc.freed h hsound hsorted hnil⟩
              exact {
                nonempty := hne
                absent := hl
                overfull := hover
                feasible := hfeasible
                distinct := hsound.distinct
                evictable := hsound.victims
                allowed := hsound.allowed
                inv := hinv
                book := hbook }
            · rw [hb]
              exact ⟨hroom, rfl⟩
      · rw [if_neg hover]
        exact mapFastPathAdmit_spec h hne hl (Nat.not_lt.mp hover)

end EvictSpec

end FixedCapAdmission

end IronCrab.Track

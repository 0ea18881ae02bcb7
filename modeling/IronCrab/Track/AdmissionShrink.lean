/-
  File:      IronCrab/Track/AdmissionShrink.lean
  Subject:   THE OPERATIONS THAT ONLY TAKE AWAY: THE CAP SHRINK AND SHEDDING.

  * `tryShrinkCap_spec` -- what each result means; what no Wallet owner holds may always go, so a
    shrink is refused only for Wallet demand above the new cap;
  * `shedOwnerGroupsForConsumers_spec`, `shedArbOwnerGroups_spec` -- who is shed.
-/
import IronCrab.Track.AdmissionEviction

namespace IronCrab.Track

open ExplicitOwnership

/-! ## 1. The cap shrink -/

namespace ExplicitOwnership

/-- What Wallet owners hold. -/
def walletUnion (own : ExplicitOwnership) : Finset Pubkey :=
  (own.owners.filter fun owner => owner.consumer = .wallet).biUnion own.groupSet

theorem mem_walletUnion {own : ExplicitOwnership} {pubkey : Pubkey} :
    pubkey ∈ own.walletUnion ↔ ∃ owner ∈ own.holders pubkey, owner.consumer = .wallet := by
  unfold walletUnion
  rw [Finset.mem_biUnion]
  constructor
  · rintro ⟨owner, ho, hp⟩
    exact ⟨owner, mem_holders.mpr (mem_groupSet.mp hp), (Finset.mem_filter.mp ho).2⟩
  · rintro ⟨owner, ho, hw⟩
    have hm := mem_holders.mp ho
    exact ⟨owner, Finset.mem_filter.mpr ⟨mem_owners.mpr (hm.imp fun _ hg => hg.1), hw⟩,
      mem_groupSet.mpr hm⟩

theorem walletUnion_subset (own : ExplicitOwnership) : own.walletUnion ⊆ own.union :=
  Finset.biUnion_subset_biUnion_of_subset_left _ (Finset.filter_subset _ _)

/-- A cap shrink may free all that no Wallet owner holds. -/
theorem sdiff_walletUnion_subset (own : ExplicitOwnership) :
    own.union \ own.walletUnion ⊆ own.freed (own.allowedOwners capShrinkAllowedTiers) ∅ := by
  intro pubkey hp
  obtain ⟨hu, hw⟩ := Finset.mem_sdiff.mp hp
  refine mem_freed.mpr ⟨hu, Finset.notMem_empty _, fun owner ho => ?_⟩
  obtain ⟨group, hl, _⟩ := mem_holders.mp ho
  have hne : owner.consumer ≠ .wallet := fun he => hw (mem_walletUnion.mpr ⟨owner, ho, he⟩)
  refine Finset.mem_filter.mpr ⟨mem_owners.mpr ⟨group, hl⟩, .momentumPosition, by decide, ?_⟩
  cases hc : owner.consumer with
  | wallet => exact absurd hc hne
  | momentumPosition => decide
  | momentum => decide
  | arb => decide
  | tracker => decide

end ExplicitOwnership

namespace FixedCapAdmission

/-- `wallet_physical_len` counts what Wallet owners hold. -/
theorem walletPhysicalLen_eq (adm : FixedCapAdmission) :
    adm.walletPhysicalLen = adm.ownership.walletUnion.card := by
  unfold walletPhysicalLen FixedCapAdmission.snapshotOwnerGroups
  congr 1
  ext pubkey
  rw [List.mem_toFinset, List.mem_flatMap, mem_walletUnion]
  constructor
  · rintro ⟨group, hg, hp⟩
    obtain ⟨hg, hw⟩ := List.mem_filter.mp hg
    obtain ⟨e, he, rfl⟩ := List.mem_map.mp hg
    exact ⟨e.1, mem_holders.mpr ⟨e.2, SortedMap.mem_entries.mp he, hp⟩, of_decide_eq_true hw⟩
  · rintro ⟨owner, ho, hw⟩
    obtain ⟨group, hl, hp⟩ := mem_holders.mp ho
    exact ⟨.fromOwner owner group, List.mem_filter.mpr
      ⟨List.mem_map.mpr ⟨(owner, group), SortedMap.mem_entries.mpr hl, rfl⟩,
        decide_eq_true hw⟩, hp⟩

/-- What the result of a cap shrink means. -/
def ShrinkCapExact (adm : FixedCapAdmission) (newCap : Nat) :
    CapShrinkResult → FixedCapAdmission → Prop
  | .converged oldCap newCap' physicalRemoved victims openedThrough, adm' =>
      oldCap = adm.cap ∧ newCap' = newCap ∧ newCap ≤ adm.cap ∧
      newCap < adm.ownership.union.card ∧ victims.Nodup ∧
      (∀ victim ∈ victims, victim ∈ adm.ownership.owners ∧ victim.consumer ≠ .wallet ∧
        victim.consumer ∈ openedThrough.cumulativeConsumers) ∧
      adm'.Inv ∧ adm'.book = { adm.book.drop victims with cap := newCap } ∧
      ListsExactly physicalRemoved (adm.ownership.union \ adm'.ownership.union) ∧
      adm'.ownership.union ⊆ adm.ownership.union
  | .noOpAlreadyWithinCap oldCap newCap', adm' => oldCap = adm.cap ∧ newCap' = newCap ∧
      newCap ≤ adm.cap ∧ adm'.Inv ∧ adm' = { adm with cap := newCap }
  | .rejectedCapIncrease _ _, adm' => adm.cap < newCap ∧ adm' = adm
  | .protectedOverflow _ _, adm' => newCap < adm.ownership.walletUnion.card ∧ adm' = adm
  | .rejectedInvalidInput, _ => False
  | .internalInvariantViolation, _ => False

section ShrinkSpec

variable {adm : FixedCapAdmission} (h : adm.Inv)
include h

/-- A state without some owners under another cap that it fits. -/
theorem Inv.dropUnder {victims : List ExplicitOwner} {newCap : Nat}
    (hfits : (adm.ownership.removeAll victims).union.card ≤ newCap) :
    Inv { adm.dropAll victims with cap := newCap } := by
  obtain ⟨hinv, _⟩ := h.drop victims
  exact {
    wellFormed := hinv.wellFormed
    len := hinv.len
    fits := hfits
    owners := hinv.owners
    stamped := hinv.stamped
    bounded := hinv.bounded }

theorem dropAll_nil : adm.dropAll [] = adm := by
  have hlen := h.len
  unfold dropAll eraseAll removeAll
  dsimp only [List.foldl_nil]
  rw [← hlen]

theorem planCapShrink_spec (targetCap : Nat) :
    ShrinkExact adm.ownership targetCap (adm.planCapShrink targetCap) := by
  obtain ⟨s, hs⟩ := exists_snapshot h
  unfold planCapShrink
  rw [hs]
  exact shrinkExact (EvictionPlanningSnapshot.describes_of_ok hs) targetCap

/-- The candidate of a shrink. -/
theorem buildShrinkCandidate_eq (plan : CapShrinkSelectionPlan) :
    adm.buildShrinkCandidate plan = some
      { ownership := adm.ownership.removeAll plan.victims
        ownerLru := eraseAll adm.ownerLru plan.victims
        nextTouchStamp := adm.nextTouchStamp
        physicalLen := (adm.ownership.removeAll plan.victims).union.card } := by
  unfold buildShrinkCandidate snapshotOwnerGroups
  rw [rebuildSurvivors_eq h.wellFormed]
  dsimp only
  rw [(wellFormed_removeAll h.wellFormed plan.victims).len_eq]
  rfl

/-- **The candidate of a sound shrink plan passes the validation.** -/
theorem validateShrinkCandidate_ok {newCap : Nat} {plan : CapShrinkSelectionPlan}
    (hplan : ShrinkSound adm.ownership newCap plan) :
    adm.validateShrinkCandidate
      { ownership := adm.ownership.removeAll plan.victims
        ownerLru := eraseAll adm.ownerLru plan.victims
        nextTouchStamp := adm.nextTouchStamp
        physicalLen := (adm.ownership.removeAll plan.victims).union.card } plan newCap = true := by
  have hwf := wellFormed_removeAll h.wellFormed plan.victims
  have howners : ownersOf (adm.ownership.removeAll plan.victims) =
      ownersOf adm.ownership \ plan.victims.toFinset := by
    rw [ownersOf_eq, ownersOf_eq]
    ext o
    rw [mem_owners, lookup_removeAll, Finset.mem_sdiff, mem_owners, List.mem_toFinset]
    by_cases hv : o ∈ plan.victims
    · simp [hv]
    · simp [hv]
  have hgone : victimsGone ⟨adm.ownership.removeAll plan.victims,
      eraseAll adm.ownerLru plan.victims, adm.nextTouchStamp,
      (adm.ownership.removeAll plan.victims).union.card⟩ plan.victims = true := by
    unfold victimsGone ExplicitOwnership.ownerGroup SortedMap.contains
    rw [List.all_eq_true]
    intro victim hv
    dsimp only
    rw [lookup_removeAll, lookup_eraseAll, if_pos hv, if_pos hv]
    rfl
  have hsurvivors : (adm.snapshotOwnerGroups.all fun group =>
      decide (group.owner ∈ plan.victims.toFinset) ||
        (decide (adm.ownership.ownerGroup group.owner =
          (adm.ownership.removeAll plan.victims).ownerGroup group.owner) &&
          sameStamp adm.ownerLru (eraseAll adm.ownerLru plan.victims) group.owner)) = true := by
    rw [List.all_eq_true]
    intro g hg
    obtain ⟨e, he, rfl⟩ := List.mem_map.mp hg
    show (decide (e.1 ∈ plan.victims.toFinset) || (decide (_ = _) && sameStamp _ _ e.1)) = true
    by_cases hv : e.1 ∈ plan.victims
    · rw [decide_eq_true (List.mem_toFinset.mpr hv)]
      rfl
    · obtain ⟨stamp, hs⟩ := h.exists_stamp (SortedMap.mem_entries.mp (show (e.1, e.2) ∈ _ from he))
      have hsame : adm.ownership.ownerGroup e.1 =
          (adm.ownership.removeAll plan.victims).ownerGroup e.1 := by
        unfold ExplicitOwnership.ownerGroup
        rw [lookup_removeAll, if_neg hv]
      have hstamp : sameStamp adm.ownerLru (eraseAll adm.ownerLru plan.victims) e.1 = true := by
        unfold sameStamp
        rw [lookup_eraseAll, if_neg hv, hs]
        exact decide_eq_true rfl
      rw [hstamp, Bool.and_true, Bool.or_eq_true]
      exact .inr (decide_eq_true hsame)
  have hsub : (adm.ownership.removeAll plan.victims).snapshotPubkeys.toFinset ⊆
      adm.ownership.snapshotPubkeys.toFinset := by
    rw [hwf.toFinset_snapshotPubkeys, h.wellFormed.toFinset_snapshotPubkeys]
    exact union_removeAll_subset _ _
  have hfits : (adm.ownership.removeAll plan.victims).union.card ≤ newCap := by
    rw [hplan.len]
    exact hplan.fits
  unfold validateShrinkCandidate
  dsimp only
  rw [decide_eq_true howners, hgone, hsurvivors, decide_eq_true rfl,
    decide_eq_true (differenceOf_eq h.wellFormed hwf ⟨hplan.freedNodup, hplan.freed⟩),
    decide_eq_true hsub, decide_eq_true hplan.len, decide_eq_true hfits,
    decide_eq_true hwf.len_eq.symm, planningOk_of hwf (h.drop plan.victims).1.owners]
  rfl

/-- **A cap shrink.** -/
theorem tryShrinkCap_spec (newCap : Nat) :
    ShrinkCapExact adm newCap (adm.tryShrinkCap newCap).1 (adm.tryShrinkCap newCap).2 := by
  unfold tryShrinkCap walletDemandExceedsCap
  dsimp only
  rw [walletPhysicalLen_eq]
  by_cases hup : adm.cap < newCap
  · rw [if_pos hup]
    exact ⟨hup, rfl⟩
  rw [if_neg hup]
  have hle := Nat.not_lt.mp hup
  by_cases hwallet : newCap < adm.ownership.walletUnion.card
  · rw [if_pos (decide_eq_true hwallet)]
    exact ⟨hwallet, rfl⟩
  have hno : ¬ decide (newCap < adm.ownership.walletUnion.card) = true :=
    fun hd => hwallet (of_decide_eq_true hd)
  rw [if_neg hno]
  by_cases hfit : adm.physicalLen ≤ newCap
  · rw [if_pos hfit]
    have hcard : (adm.ownership.removeAll []).union.card ≤ newCap := by
      show adm.ownership.union.card ≤ newCap
      rw [← h.len]
      exact hfit
    have hinv := h.dropUnder hcard
    rw [dropAll_nil h] at hinv
    exact ⟨rfl, rfl, hle, hinv, rfl⟩
  rw [if_neg hfit]
  rw [h.len] at hfit
  have hplan := planCapShrink_spec h newCap
  unfold ShrinkExact at hplan
  dsimp only at hplan
  cases hres : adm.planCapShrink newCap with
  | noShrinkNeeded =>
      rw [hres] at hplan
      exact absurd hplan hfit
  | rejectedProtected required =>
      rw [hres] at hplan
      have hfree := Finset.card_le_card (sdiff_walletUnion_subset adm.ownership)
      have hsize := Finset.card_sdiff_of_subset (walletUnion_subset adm.ownership)
      have hlt := hplan.2.1
      omega
  | internalInvariantViolation =>
      rw [hres] at hplan
      exact hplan.elim
  | planned plan =>
      rw [hres] at hplan
      obtain ⟨hover, _, hsound⟩ := hplan
      dsimp only
      rw [buildShrinkCandidate_eq h]
      dsimp only
      rw [if_pos (validateShrinkCandidate_ok h hsound)]
      have hfits : (adm.ownership.removeAll plan.victims).union.card ≤ newCap := by
        rw [hsound.len]
        exact hsound.fits
      refine ⟨rfl, rfl, hle, hover, hsound.distinct, hsound.victims, h.dropUnder hfits, ?_,
        ⟨hsound.freedNodup, hsound.freed⟩, union_removeAll_subset _ _⟩
      have hbook := (h.drop plan.victims).2
      exact congrArg (fun b : Book => { b with cap := newCap }) hbook

end ShrinkSpec

/-! ## 2. Shedding -/

section Shed

variable {adm : FixedCapAdmission} (h : adm.Inv)
include h

/-- The candidates for shedding are the owners of the consumers in recency order. -/
theorem shedVictims_eq (allowed : ExplicitConsumer → Bool) :
    adm.shedVictims allowed = adm.recency.filter fun o => allowed o.consumer := by
  unfold shedVictims recency
  refine Recency.eq_order_filter h.stamped (fun e => ?_)
    (((List.perm_insertionSort _ _).nodup_iff).mpr (adm.ownerLru.nodup_entries.filter _))
    (List.pairwise_insertionSort (fun a b : ExplicitOwner × Nat => a.2 ≤ b.2) _)
  rw [List.mem_insertionSort, List.mem_filter]

theorem exists_group_of_mem_recency {owner : ExplicitOwner} (ho : owner ∈ adm.recency) :
    ∃ group, adm.ownership.groups.lookup owner = some group :=
  (h.owners_iff owner).mp (Recency.mem_order.mp ho)

/-- One shed owner: the state, and the pubkeys that go. -/
theorem removeGroup_of_lookup {owner : ExplicitOwner}
    (hl : ∃ group, adm.ownership.groups.lookup owner = some group) :
    ∃ physicalRemoved, adm.removeGroup owner = (.removed physicalRemoved, adm.dropAll [owner]) ∧
      physicalRemoved.length =
        (adm.ownership.union \ (adm.dropAll [owner]).ownership.union).card := by
  have hspec := removeGroup_spec h owner
  cases hres : adm.removeGroup owner with
  | mk res adm' =>
      rw [hres] at hspec
      cases res with
      | removed physicalRemoved =>
          obtain ⟨_, rfl, hexact⟩ := hspec
          exact ⟨physicalRemoved, rfl, hexact.length⟩
      | notFound =>
          obtain ⟨group, hg⟩ := hl
          rw [hspec.1] at hg
          cases hg
      | planningInvariantViolation => exact hspec.elim
      | internalInvariantViolation recovery => exact hspec.elim

omit h in
/-- What goes with an owner and then with more owners is what goes with all of them. -/
theorem card_dropped (owner : ExplicitOwner) (owners : List ExplicitOwner) :
    (adm.ownership.union \ (adm.dropAll [owner]).ownership.union).card +
      ((adm.dropAll [owner]).ownership.union \
        ((adm.dropAll [owner]).dropAll owners).ownership.union).card =
      (adm.ownership.union \ (adm.dropAll (owner :: owners)).ownership.union).card := by
  have h₁ : (adm.dropAll [owner]).ownership.union ⊆ adm.ownership.union :=
    union_removeAll_subset _ _
  have h₂ : ((adm.dropAll [owner]).dropAll owners).ownership.union ⊆
      (adm.dropAll [owner]).ownership.union := union_removeAll_subset _ _
  have hsame : (adm.dropAll (owner :: owners)).ownership.union =
      ((adm.dropAll [owner]).dropAll owners).ownership.union := rfl
  rw [hsame, Finset.card_sdiff_of_subset h₁, Finset.card_sdiff_of_subset h₂,
    Finset.card_sdiff_of_subset (h₂.trans h₁)]
  have hle₁ := Finset.card_le_card h₁
  have hle₂ := Finset.card_le_card h₂
  omega

omit h in
/-- Another owner stays when one is dropped. -/
theorem exists_group_dropAll {owner o : ExplicitOwner} (hne : o ≠ owner)
    (hl : ∃ group, adm.ownership.groups.lookup o = some group) :
    ∃ group, (adm.dropAll [owner]).ownership.groups.lookup o = some group := by
  obtain ⟨group, hg⟩ := hl
  refine ⟨group, ?_⟩
  show (adm.ownership.removeAll [owner]).groups.lookup o = some group
  rw [lookup_removeAll, if_neg (by simpa using hne), hg]

/-- **Shedding a list of owners drops them all**, and counts them and their pubkeys. -/
theorem shedLoop_spec {owners : List ExplicitOwner} (hnd : owners.Nodup)
    (hall : ∀ o ∈ owners, ∃ group, adm.ownership.groups.lookup o = some group)
    (res : ShedOwnerGroupsResult) :
    shedLoop owners res adm =
      (⟨res.groupsEvicted + owners.length,
        res.pubkeysEvicted +
          (adm.ownership.union \ (adm.dropAll owners).ownership.union).card,
        res.groupsSkippedMustHot⟩, adm.dropAll owners) := by
  induction owners generalizing adm res with
  | nil =>
      rw [dropAll_nil h, Finset.sdiff_self]
      rfl
  | cons owner owners ih =>
      obtain ⟨hno, hnd⟩ := List.nodup_cons.mp hnd
      obtain ⟨removed, hrem, hlen⟩ := removeGroup_of_lookup h (hall owner List.mem_cons_self)
      have hall' : ∀ o ∈ owners,
          ∃ group, (adm.dropAll [owner]).ownership.groups.lookup o = some group := fun o ho =>
        exists_group_dropAll (fun he => hno (he ▸ ho)) (hall o (List.mem_cons_of_mem _ ho))
      have hgroups : res.groupsEvicted + 1 + owners.length =
          res.groupsEvicted + (owner :: owners).length := by
        rw [List.length_cons]
        omega
      rw [shedLoop, hrem]
      dsimp only
      rw [ih (h.drop [owner]).1 hnd hall', hlen]
      dsimp only
      rw [hgroups, Nat.add_assoc, card_dropped]
      rfl

/-- **Shedding by consumer**: the least recent owners of these consumers go. -/
theorem shedOwnerGroupsForConsumers_spec (consumers : List ExplicitConsumer) (maxGroups : Nat) :
    let victims := (adm.recency.filter fun o => decide (o.consumer ∈ consumers)).take maxGroups
    adm.shedOwnerGroupsForConsumers consumers maxGroups =
      (⟨victims.length, (adm.ownership.union \ (adm.dropAll victims).ownership.union).card, 0⟩,
        adm.dropAll victims) := by
  intro victims
  have hsub : ∀ o ∈ victims, o ∈ adm.recency := fun o ho =>
    List.mem_of_mem_filter (List.mem_of_mem_take ho)
  have hnd : victims.Nodup :=
    ((Recency.nodup_order h.stamped).filter _).sublist (List.take_sublist _ _)
  unfold shedOwnerGroupsForConsumers
  split_ifs with hzero
  · have hnil : victims = [] := by
      rcases hzero with h0 | h0
      · show List.take maxGroups _ = []
        rw [h0]
        rfl
      · show List.take maxGroups (List.filter _ _) = []
        rw [h0]
        simp
    rw [hnil, dropAll_nil h, Finset.sdiff_self]
    rfl
  · rw [shedVictims_eq h, shedLoop_spec h hnd fun o ho => exists_group_of_mem_recency h (hsub o ho)]
    simp

/-- The owners that are not hot, up to a number. -/
theorem shedArbLoop_spec {maxGroups : Nat} {isMustHot : Pubkey → Bool}
    {owners : List ExplicitOwner} (hnd : owners.Nodup)
    (hall : ∀ o ∈ owners, ∃ group, adm.ownership.groups.lookup o = some group)
    (res : ShedOwnerGroupsResult) (hres : res.groupsEvicted ≤ maxGroups) :
    let victims := (owners.filter fun o => !mustStayHot isMustHot o).take
      (maxGroups - res.groupsEvicted)
    ∃ skipped, shedArbLoop maxGroups isMustHot owners res adm =
      (⟨res.groupsEvicted + victims.length,
        res.pubkeysEvicted +
          (adm.ownership.union \ (adm.dropAll victims).ownership.union).card, skipped⟩,
        adm.dropAll victims) := by
  induction owners generalizing adm res with
  | nil =>
      refine ⟨res.groupsSkippedMustHot, ?_⟩
      simp only [List.filter_nil, List.take_nil, dropAll_nil h, Finset.sdiff_self]
      rfl
  | cons owner owners ih =>
      obtain ⟨hno, hnd⟩ := List.nodup_cons.mp hnd
      have hall' : ∀ o ∈ owners, ∃ group, adm.ownership.groups.lookup o = some group :=
        fun o ho => hall o (List.mem_cons_of_mem _ ho)
      rw [shedArbLoop]
      by_cases hfull : maxGroups ≤ res.groupsEvicted
      · rw [if_pos hfull, Nat.sub_eq_zero_of_le hfull]
        refine ⟨res.groupsSkippedMustHot, ?_⟩
        simp only [List.take_zero, dropAll_nil h, Finset.sdiff_self]
        rfl
      rw [if_neg hfull]
      by_cases hhot : mustStayHot isMustHot owner = true
      · obtain ⟨skipped, hs⟩ := ih h hnd hall'
          { res with groupsSkippedMustHot := res.groupsSkippedMustHot + 1 } hres
        refine ⟨skipped, ?_⟩
        rw [if_pos hhot, hs]
        simp [hhot]
      · obtain ⟨removed, hrem, hlen⟩ := removeGroup_of_lookup h (hall owner List.mem_cons_self)
        have hrest : ∀ o ∈ owners,
            ∃ group, (adm.dropAll [owner]).ownership.groups.lookup o = some group := fun o ho =>
          exists_group_dropAll (fun he => hno (he ▸ ho)) (hall' o ho)
        obtain ⟨skipped, hs⟩ := ih (h.drop [owner]).1 hnd hrest
          { res with
            groupsEvicted := res.groupsEvicted + 1
            pubkeysEvicted := res.pubkeysEvicted + removed.length } (by dsimp only; omega)
        refine ⟨skipped, ?_⟩
        have hleft : maxGroups - res.groupsEvicted = maxGroups - (res.groupsEvicted + 1) + 1 := by
          omega
        have hcool : ((owner :: owners).filter fun o => !mustStayHot isMustHot o) =
            owner :: owners.filter fun o => !mustStayHot isMustHot o :=
          List.filter_cons_of_pos (by simp [hhot])
        have hgroups : ∀ n, res.groupsEvicted + 1 + n = res.groupsEvicted + (n + 1) := by
          intro n
          omega
        rw [if_neg hhot, hrem]
        dsimp only
        rw [hs, hcool, hleft, List.take_succ_cons, hlen, List.length_cons]
        dsimp only
        rw [hgroups, Nat.add_assoc, card_dropped]
        rfl

/-- **Shedding arb groups**: the least recent ones that are not hot go. -/
theorem shedArbOwnerGroups_spec (maxGroups : Nat) (isMustHot : Pubkey → Bool) :
    let victims := ((adm.recency.filter fun o => decide (o.consumer = .arb)).filter
      fun o => !mustStayHot isMustHot o).take maxGroups
    ∃ skipped, adm.shedArbOwnerGroups maxGroups isMustHot =
      (⟨victims.length, (adm.ownership.union \ (adm.dropAll victims).ownership.union).card,
        skipped⟩, adm.dropAll victims) := by
  intro victims
  unfold shedArbOwnerGroups
  by_cases hzero : maxGroups = 0
  · have hnil : victims = [] := by
      show List.take maxGroups _ = []
      rw [hzero]
      rfl
    refine ⟨0, ?_⟩
    rw [if_pos hzero, hnil, dropAll_nil h, Finset.sdiff_self]
    rfl
  · have hnd : (adm.recency.filter fun o => decide (o.consumer = .arb)).Nodup :=
      (Recency.nodup_order h.stamped).filter _
    have hall : ∀ o ∈ adm.recency.filter fun o => decide (o.consumer = .arb),
        ∃ group, adm.ownership.groups.lookup o = some group := fun o ho =>
      exists_group_of_mem_recency h (List.mem_of_mem_filter ho)
    have hstart : (⟨0, 0, 0⟩ : ShedOwnerGroupsResult).groupsEvicted ≤ maxGroups := Nat.zero_le _
    obtain ⟨skipped, hs⟩ := shedArbLoop_spec h hnd hall ⟨0, 0, 0⟩ hstart
    refine ⟨skipped, ?_⟩
    rw [if_neg hzero, shedVictims_eq h, hs]
    simp only [Nat.zero_add, Nat.sub_zero]
    rfl

end Shed

end FixedCapAdmission

end IronCrab.Track

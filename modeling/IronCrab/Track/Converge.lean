/-
  File:      IronCrab/Track/Converge.lean
  Subject:   RECONCILING A DEMAND WITH THE ADMISSION (`admission_wiring.rs`).

  `convergeAdmissionFromGroups` removes the owners that the demand does not name and admits the
  demand's groups in the order of their owners; `restoreAdmissionFromOwnerGroups` does the same on
  an emptied admission. Both stop at the first group that is not admitted.
-/
import IronCrab.Track.AdmissionWiring

namespace IronCrab.Track

open ExplicitOwnership

/-! ## 1. The functions -/

/-- `AdmissionConvergeResult`. -/
inductive AdmissionConvergeResult where
  | converged
  | protectedOverflow
  | unconverged
  deriving DecidableEq

/-- `AdmissionRestoreResult`. -/
inductive AdmissionRestoreResult where
  | restored
  | protectedOverflow
  | unconverged
  deriving DecidableEq

/-- The groups that a demand names are admitted one by one, up to the first that is rejected. -/
def admitInOrder : List (ExplicitOwner × List Pubkey) → FixedCapAdmission →
    Bool × FixedCapAdmission
  | [], admission => (true, admission)
  | (owner, pubkeys) :: ordered, admission =>
      match tryAdmitOwnerGroup admission owner pubkeys with
      | (true, admission) => admitInOrder ordered admission
      | (false, admission) => (false, admission)

/-- The owners that the demand does not name are removed. -/
def removeStale (authKeys : Finset ExplicitOwner) : List OwnerGroupSnapshot →
    FixedCapAdmission → FixedCapAdmission
  | [], admission => admission
  | group :: groups, admission =>
      if group.owner ∈ authKeys then removeStale authKeys groups admission
      else removeStale authKeys groups (admission.removeGroup group.owner).2

/-- The demand by owner; the sort is stable. -/
def orderedByOwner (authoritative : List (ExplicitOwner × List Pubkey)) :
    List (ExplicitOwner × List Pubkey) :=
  authoritative.insertionSort fun a b => a.1 ≤ b.1

/-- `converge_admission_from_groups`. -/
def convergeAdmissionFromGroups (admission : FixedCapAdmission)
    (authoritative : List (ExplicitOwner × List Pubkey)) :
    AdmissionConvergeResult × FixedCapAdmission :=
  let cap := admission.cap
  if admission.walletDemandExceedsCap cap then (.protectedOverflow, admission)
  else
    let authKeys := (authoritative.map (·.1)).toFinset
    let admission := removeStale authKeys admission.snapshotOwnerGroups admission
    match admitInOrder (orderedByOwner authoritative) admission with
    | (false, admission) =>
        if admission.walletDemandExceedsCap cap then (.protectedOverflow, admission)
        else (.unconverged, admission)
    | (true, admission) =>
        if cap < admission.len ∨ admission.walletDemandExceedsCap cap then
          if admission.walletDemandExceedsCap cap then (.protectedOverflow, admission)
          else (.unconverged, admission)
        else (.converged, admission)

/-- `restore_admission_from_owner_groups`. -/
def restoreAdmissionFromOwnerGroups (admission : FixedCapAdmission)
    (groups : List OwnerGroupSnapshot) : AdmissionRestoreResult × FixedCapAdmission :=
  let admission := admission.clearForRestore
  let cap := admission.cap
  let walletPubkeys := ((groups.filter fun g => g.consumer = .wallet).flatMap (·.pubkeys)).toFinset
  if cap < walletPubkeys.card then (.protectedOverflow, admission)
  else
    match admitInOrder (orderedByOwner (groups.map fun g => (g.owner, g.pubkeys))) admission with
    | (false, admission) =>
        if admission.walletDemandExceedsCap cap then (.protectedOverflow, admission)
        else (.unconverged, admission)
    | (true, admission) =>
        if cap < admission.len then (.unconverged, admission)
        else if admission.walletDemandExceedsCap cap then (.protectedOverflow, admission)
        else (.restored, admission)

/-! ## 2. What every admission keeps -/

/-- An admission keeps the invariant and the cap, whatever it returns. -/
theorem tryAdmitOwnerGroup_inv {adm : FixedCapAdmission} (h : adm.Inv) (owner : ExplicitOwner)
    (pubkeys : List Pubkey) :
    (tryAdmitOwnerGroup adm owner pubkeys).2.Inv ∧
      (tryAdmitOwnerGroup adm owner pubkeys).2.cap = adm.cap := by
  by_cases hne : pubkeys = []
  · unfold tryAdmitOwnerGroup
    rw [if_pos hne]
    exact ⟨h, rfl⟩
  · have hout : GroupAdmission adm owner pubkeys (tryAdmitOwnerGroup adm owner pubkeys).1
        (tryAdmitOwnerGroup adm owner pubkeys).2 := tryAdmitOwnerGroup_spec h hne
    generalize tryAdmitOwnerGroup adm owner pubkeys = res at hout ⊢
    obtain ⟨ok, adm'⟩ := res
    dsimp only at hout ⊢
    cases hout with
    | admitted victims _ inv into least pressed =>
        have hcap := congrArg Book.cap into.book
        exact ⟨inv, hcap⟩
    | stale hl room => exact ⟨h, rfl⟩
    | refused habs overfull => exact ⟨h, rfl⟩
    | lost present overfull => exact ⟨(h.drop [owner]).1, rfl⟩

theorem admitInOrder_inv {adm : FixedCapAdmission} (h : adm.Inv)
    (ordered : List (ExplicitOwner × List Pubkey)) :
    (admitInOrder ordered adm).2.Inv ∧ (admitInOrder ordered adm).2.cap = adm.cap := by
  induction ordered generalizing adm with
  | nil => exact ⟨h, rfl⟩
  | cons e ordered ih =>
      have hone := tryAdmitOwnerGroup_inv h e.1 e.2
      unfold admitInOrder
      generalize tryAdmitOwnerGroup adm e.1 e.2 = res at hone ⊢
      obtain ⟨ok, adm'⟩ := res
      cases ok with
      | false => exact hone
      | true =>
          have hrest := ih hone.1
          exact ⟨hrest.1, hrest.2.trans hone.2⟩

/-- What the owners that go leave behind. -/
theorem removeStale_eq {adm : FixedCapAdmission} (h : adm.Inv) (authKeys : Finset ExplicitOwner)
    {groups : List OwnerGroupSnapshot} (hnd : (groups.map (·.owner)).Nodup)
    (hall : ∀ group ∈ groups, ∃ held, adm.ownership.groups.lookup group.owner = some held) :
    removeStale authKeys groups adm =
      adm.dropAll ((groups.map (·.owner)).filter fun o => decide (o ∉ authKeys)) := by
  induction groups generalizing adm with
  | nil => exact (FixedCapAdmission.dropAll_nil h).symm
  | cons group groups ih =>
      obtain ⟨hno, hnd⟩ := List.nodup_cons.mp hnd
      have hrest : ∀ g ∈ groups, ∃ held, adm.ownership.groups.lookup g.owner = some held :=
        fun g hg => hall g (List.mem_cons_of_mem _ hg)
      unfold removeStale
      rw [List.map_cons]
      by_cases hauth : group.owner ∈ authKeys
      · rw [if_pos hauth, List.filter_cons_of_neg (by simpa using hauth)]
        exact ih h hnd hrest
      · obtain ⟨removed, hrem, _⟩ :=
          FixedCapAdmission.removeGroup_of_lookup h (hall group List.mem_cons_self)
        rw [if_neg hauth, List.filter_cons_of_pos (by simpa using hauth), hrem]
        refine ih (h.drop [group.owner]).1 hnd fun g hg => ?_
        have hne : g.owner ≠ group.owner := fun he =>
          hno (List.mem_map.mpr ⟨g, hg, he⟩)
        exact FixedCapAdmission.exists_group_dropAll hne (hrest g hg)

/-- The owners of a state that the demand does not name. -/
def FixedCapAdmission.staleOwners (adm : FixedCapAdmission) (authKeys : Finset ExplicitOwner) :
    List ExplicitOwner :=
  adm.ownership.groups.keys.filter fun o => decide (o ∉ authKeys)

theorem removeStale_snapshot {adm : FixedCapAdmission} (h : adm.Inv)
    (authKeys : Finset ExplicitOwner) :
    removeStale authKeys adm.snapshotOwnerGroups adm =
      adm.dropAll (adm.staleOwners authKeys) := by
  have howners := owners_snapshotOwnerGroups adm.ownership
  unfold FixedCapAdmission.staleOwners
  rw [← howners]
  refine removeStale_eq h authKeys ?_ fun group hg => ?_
  · show (adm.ownership.snapshotOwnerGroups.map (·.owner)).Nodup
    rw [howners]
    exact adm.ownership.groups.nodup_keys
  · have hm : group.owner ∈ adm.ownership.groups.keys := howners ▸ List.mem_map_of_mem hg
    exact SortedMap.mem_keys.mp hm

/-! ## 3. The wallet demand -/

/-- An admitted state holds no more for Wallet owners than the cap. -/
theorem walletDemandExceedsCap_eq_false {adm : FixedCapAdmission} (h : adm.Inv) :
    adm.walletDemandExceedsCap adm.cap = false := by
  have hwallet := Finset.card_le_card (walletUnion_subset adm.ownership)
  have hlen := h.len
  have hfits := h.fits
  unfold FixedCapAdmission.walletDemandExceedsCap
  rw [FixedCapAdmission.walletPhysicalLen_eq]
  exact decide_eq_false (by omega)

/-- What is left of `convergeAdmissionFromGroups` on a state that meets the invariant. -/
theorem convergeAdmissionFromGroups_eq {adm : FixedCapAdmission} (h : adm.Inv)
    (authoritative : List (ExplicitOwner × List Pubkey)) :
    convergeAdmissionFromGroups adm authoritative =
      match admitInOrder (orderedByOwner authoritative)
        (adm.dropAll (adm.staleOwners (authoritative.map (·.1)).toFinset)) with
      | (false, adm') => (.unconverged, adm')
      | (true, adm') => (.converged, adm') := by
  have hdrop := (h.drop (adm.staleOwners (authoritative.map (·.1)).toFinset)).1
  have hpass := admitInOrder_inv hdrop (orderedByOwner authoritative)
  unfold convergeAdmissionFromGroups
  dsimp only
  rw [walletDemandExceedsCap_eq_false h, removeStale_snapshot h]
  generalize admitInOrder (orderedByOwner authoritative)
    (adm.dropAll (adm.staleOwners (authoritative.map (·.1)).toFinset)) = res at hpass ⊢
  obtain ⟨ok, adm'⟩ := res
  have hcap : adm'.cap = adm.cap := hpass.2
  have hwallet := walletDemandExceedsCap_eq_false hpass.1
  rw [hcap] at hwallet
  have hlen : ¬ adm.cap < adm'.len := by
    have hfits : adm'.physicalLen ≤ adm'.cap := hpass.1.fits
    show ¬ adm.cap < adm'.physicalLen
    omega
  cases ok with
  | false => simp [hwallet]
  | true => simp [hwallet, hlen]

/-- The pubkeys of the Wallet groups of a demand. -/
def walletDemand (authoritative : List (ExplicitOwner × List Pubkey)) : Finset Pubkey :=
  ((authoritative.filter fun e => e.1.consumer = .wallet).flatMap (·.2)).toFinset

/-- The demand as snapshot groups. -/
def demandSnapshots (authoritative : List (ExplicitOwner × List Pubkey)) :
    List OwnerGroupSnapshot :=
  authoritative.map fun e => .fromOwner e.1 e.2

/-- Converge and restore report that the wallet demand does not fit, and what the Wallet owners
    held they still hold. -/
structure FailsClosed (adm : FixedCapAdmission)
    (authoritative : List (ExplicitOwner × List Pubkey)) : Prop where
  converge : (convergeAdmissionFromGroups adm authoritative).1 = .protectedOverflow
  restore : (restoreAdmissionFromOwnerGroups adm (demandSnapshots authoritative)).1 =
    .protectedOverflow
  kept : adm.ownership.walletUnion ⊆
    (convergeAdmissionFromGroups adm authoritative).2.ownership.walletUnion

/-- Converge never reports a protected overflow, on any demand. -/
theorem convergeAdmissionFromGroups_ne_protectedOverflow {adm : FixedCapAdmission} (h : adm.Inv)
    (authoritative : List (ExplicitOwner × List Pubkey)) :
    (convergeAdmissionFromGroups adm authoritative).1 ≠ .protectedOverflow := by
  rw [convergeAdmissionFromGroups_eq h]
  generalize admitInOrder (orderedByOwner authoritative)
    (adm.dropAll (adm.staleOwners (authoritative.map (·.1)).toFinset)) = res
  obtain ⟨ok, adm'⟩ := res
  cases ok <;> exact fun hno => (nomatch hno)

/-- Restore reports every wallet demand beyond the cap. -/
theorem restore_protectedOverflow {adm : FixedCapAdmission}
    {authoritative : List (ExplicitOwner × List Pubkey)}
    (hover : adm.cap < (walletDemand authoritative).card) :
    (restoreAdmissionFromOwnerGroups adm (demandSnapshots authoritative)).1 =
      .protectedOverflow := by
  have hdemand : (((demandSnapshots authoritative).filter fun g => g.consumer = .wallet).flatMap
      (·.pubkeys)).toFinset = walletDemand authoritative := by
    unfold demandSnapshots walletDemand
    rw [List.filter_map, List.flatMap_map]
    rfl
  have hcap : adm.clearForRestore.cap < (walletDemand authoritative).card := hover
  unfold restoreAdmissionFromOwnerGroups
  dsimp only
  rw [hdemand, if_pos hcap]

/-- What is left of `restoreAdmissionFromOwnerGroups` where the wallet demand fits. -/
theorem restoreAdmissionFromOwnerGroups_eq {adm : FixedCapAdmission}
    {groups : List OwnerGroupSnapshot}
    (hwallet : ((groups.filter fun g => g.consumer = .wallet).flatMap
      (·.pubkeys)).toFinset.card ≤ adm.cap) :
    restoreAdmissionFromOwnerGroups adm groups =
      match admitInOrder (orderedByOwner (groups.map fun g => (g.owner, g.pubkeys)))
        adm.clearForRestore with
      | (false, adm') => (.unconverged, adm')
      | (true, adm') => (.restored, adm') := by
  have hpass := admitInOrder_inv (FixedCapAdmission.inv_clearForRestore adm)
    (orderedByOwner (groups.map fun g => (g.owner, g.pubkeys)))
  have hnot : ¬ adm.clearForRestore.cap < ((groups.filter fun g => g.consumer = .wallet).flatMap
      (·.pubkeys)).toFinset.card := Nat.not_lt.mpr hwallet
  unfold restoreAdmissionFromOwnerGroups
  dsimp only
  rw [if_neg hnot]
  generalize admitInOrder (orderedByOwner (groups.map fun g => (g.owner, g.pubkeys)))
    adm.clearForRestore = res at hpass ⊢
  obtain ⟨ok, adm'⟩ := res
  have hcap : adm'.cap = adm.clearForRestore.cap := hpass.2
  have hexceeds := walletDemandExceedsCap_eq_false hpass.1
  rw [hcap] at hexceeds
  have hlen : ¬ adm.clearForRestore.cap < adm'.len := by
    have hfits : adm'.physicalLen ≤ adm'.cap := hpass.1.fits
    show ¬ adm.clearForRestore.cap < adm'.physicalLen
    omega
  cases ok with
  | false => simp [hexceeds]
  | true => simp [hexceeds, hlen]

/-- **Converge does not fail closed on a wallet demand beyond the cap.** It looks at what is
    admitted, which is never beyond the cap, where restore looks at the demand: whatever the state
    and the demand, restore reports the overflow and converge does not. -/
theorem wallet_overflow_unreported {cap : Nat} {start : UInt64}
    {tr : List (AdmissionOp × AdmissionOutcome)} {adm : FixedCapAdmission}
    (hr : Machine.Run AdmissionStep (FixedCapAdmission.start cap start) tr adm)
    (authoritative : List (ExplicitOwner × List Pubkey))
    (hover : adm.cap < (walletDemand authoritative).card) :
    ¬ FailsClosed adm authoritative ∧
      (restoreAdmissionFromOwnerGroups adm (demandSnapshots authoritative)).1 =
        .protectedOverflow ∧
      (convergeAdmissionFromGroups adm authoritative).1 ≠ .protectedOverflow := by
  have hne := convergeAdmissionFromGroups_ne_protectedOverflow (runInv_of_run hr).inv authoritative
  exact ⟨fun hclosed => hne hclosed.converge, restore_protectedOverflow hover, hne⟩

/-- `wallet_overflow_unreported` on an empty admission. -/
theorem wallet_overflow_unreported_when_empty :
    ¬ FailsClosed (.start 1 1) [(⟨.wallet, .wallet⟩, [1, 2])] ∧
      (restoreAdmissionFromOwnerGroups (.start 1 1)
        (demandSnapshots [(⟨.wallet, .wallet⟩, [1, 2])])).1 = .protectedOverflow ∧
      (convergeAdmissionFromGroups (.start 1 1) [(⟨.wallet, .wallet⟩, [1, 2])]).1 ≠
        .protectedOverflow :=
  have hr : Machine.Run AdmissionStep (.start 1 1) [] (.start 1 1) := .start
  wallet_overflow_unreported hr [(⟨.wallet, .wallet⟩, [1, 2])] (by decide +kernel)

/-- **A wallet that loses what it held.** Cap 2: the wallet holds the account 1 and now demands
    three. Converge reports `unconverged`, and the wallet holds nothing. -/
theorem overfull_wallet_is_lost :
    let wallet : ExplicitOwner := ⟨.wallet, .wallet⟩
    let first := AdmissionOp.tryAdmitNewGroup wallet [1]
    let adm := (first.run (FixedCapAdmission.start 2 1)).2
    (∃ tr, Machine.Run AdmissionStep (FixedCapAdmission.start 2 1) tr adm) ∧
      adm.cap < (walletDemand [(wallet, [1, 2, 3])]).card ∧
      (convergeAdmissionFromGroups adm [(wallet, [1, 2, 3])]).1 = .unconverged ∧
      adm.ownerGroup wallet = some [1] ∧
      (convergeAdmissionFromGroups adm [(wallet, [1, 2, 3])]).2.ownerGroup wallet = none ∧
      ¬ FailsClosed adm [(wallet, [1, 2, 3])] := by
  intro wallet first adm
  have halloc : adm.Allocated := by decide +kernel
  have hresult : (convergeAdmissionFromGroups adm [(wallet, [1, 2, 3])]).1 = .unconverged := by
    decide +kernel
  refine ⟨⟨_, Machine.Run.single (first.step halloc)⟩, by decide +kernel, hresult,
    by decide +kernel, by decide +kernel, fun hclosed => ?_⟩
  exact absurd (hresult.symm.trans hclosed.converge) (by decide)

/-! ## 4. One pass over a demand -/

theorem consumer_of_lt {o owner : ExplicitOwner} (hlt : o < owner) :
    o.consumer.ordinal ≤ owner.consumer.ordinal := by
  have hrank : o.rank < owner.rank := hlt
  rcases Prod.Lex.toLex_lt_toLex.mp hrank with hc | ⟨hc, _⟩
  · exact Nat.le_of_lt hc
  · exact Nat.le_of_eq hc

/-- An owner that came before may only be evicted by its own consumer, and no wallet may. -/
theorem consumer_of_evictable {o owner : ExplicitOwner} (hlt : o < owner)
    (h : Evictable owner.consumer o) : o.consumer = owner.consumer ∧ o.consumer ≠ .wallet := by
  have hle := consumer_of_lt hlt
  obtain ⟨tier, ht, hc⟩ := h
  generalize owner.consumer = c at *
  generalize o.consumer = c' at *
  revert c c' tier
  intro c c' hle tier
  revert hle
  cases c <;> cases c' <;> cases tier <;> decide

namespace AdmittedInto

variable {adm adm' : FixedCapAdmission} {owner : ExplicitOwner} {pubkeys : List Pubkey}
  {victims : List ExplicitOwner}

/-- Every owner's group after the admission. -/
theorem lookup (h : AdmittedInto adm owner pubkeys victims adm') (o : ExplicitOwner) :
    adm'.ownership.groups.lookup o =
      if o = owner then some (normalizePubkeys pubkeys)
      else if o ∈ victims then none else adm.ownership.groups.lookup o := by
  have hgroups : adm'.ownership.groups = (adm.ownership.groups.retain fun o _ =>
      decide (o ∉ victims)).insert owner (normalizePubkeys pubkeys) := congrArg Book.groups h.book
  rw [hgroups, SortedMap.lookup_insert, SortedMap.lookup_retain_keys]
  by_cases hv : o ∈ victims
  · simp [hv]
  · simp [hv]

theorem union_subset (h : AdmittedInto adm owner pubkeys victims adm') :
    adm'.ownership.union ⊆ pubkeys.toFinset ∪ adm.ownership.union := by
  intro pubkey hp
  obtain ⟨o, group, hl, hm⟩ := mem_union.mp hp
  rw [h.lookup] at hl
  split_ifs at hl with ho hv
  · cases hl
    refine Finset.mem_union_left _ ?_
    rw [List.mem_toFinset]
    exact (mem_normalizePubkeys).mp hm
  · exact Finset.mem_union_right _ (mem_union.mpr ⟨o, group, hl, hm⟩)

/-- The recency list grows by one at most. -/
theorem length_recency (h : AdmittedInto adm owner pubkeys victims adm') :
    adm'.ownerLru.len ≤ adm.ownerLru.len + 1 := by
  have hrecency : adm'.recency = ((adm.recency.filter fun o => decide (o ∉ victims)).filter
      fun o => decide (o ≠ owner)) ++ [owner] := congrArg Book.recency h.book
  have hlen := congrArg List.length hrecency
  unfold FixedCapAdmission.recency at hlen
  rw [length_order, List.length_append] at hlen
  have h₁ := List.length_filter_le (fun o => decide (o ≠ owner))
    ((Recency.order adm.ownerLru).filter fun o => decide (o ∉ victims))
  have h₂ := List.length_filter_le (fun o => decide (o ∉ victims)) (Recency.order adm.ownerLru)
  rw [length_order] at h₂
  simp only [List.length_singleton] at hlen
  omega

end AdmittedInto

/-- The owner was evicted for a later one of its own consumer, under the pressure of the cap. -/
structure Displaced (adm : FixedCapAdmission) (demanded : Finset Pubkey)
    (passed : List (ExplicitOwner × List Pubkey)) (owner : ExplicitOwner) : Prop where
  notWallet : owner.consumer ≠ .wallet
  pressed : adm.cap < demanded.card
  later : ∃ e ∈ passed, owner < e.1 ∧ e.1.consumer = owner.consumer

/-- **What a pass over a demand keeps.** `demanded` bounds what was held and what is demanded. -/
structure Passed (adm : FixedCapAdmission) (demanded : Finset Pubkey)
    (passed : List (ExplicitOwner × List Pubkey)) (adm' : FixedCapAdmission) : Prop where
  inv : adm'.Inv
  cap : adm'.cap = adm.cap
  union : adm'.ownership.union ⊆ demanded
  known : ∀ owner group, adm'.ownership.groups.lookup owner = some group →
    owner ∈ passed.map (·.1) ∨ adm.ownership.groups.lookup owner = some group
  settled : ∀ e ∈ passed,
    adm'.ownership.groups.lookup e.1 = some (normalizePubkeys e.2) ∨
      adm'.ownership.groups.lookup e.1 = none ∧ Displaced adm demanded passed e.1

namespace Passed

variable {adm adm' adm'' : FixedCapAdmission} {demanded : Finset Pubkey}
  {passed : List (ExplicitOwner × List Pubkey)} {owner : ExplicitOwner} {pubkeys : List Pubkey}

theorem start (h : adm.Inv) (hu : adm.ownership.union ⊆ demanded) :
    Passed adm demanded [] adm :=
  ⟨h, rfl, hu, fun _ _ hl => Or.inr hl, fun _ he => absurd he List.not_mem_nil⟩

theorem displaced_append (h : Displaced adm demanded passed owner)
    (more : List (ExplicitOwner × List Pubkey)) :
    Displaced adm demanded (passed ++ more) owner := by
  obtain ⟨e, he, hlater⟩ := h.later
  exact ⟨h.notWallet, h.pressed, e, List.mem_append_left _ he, hlater⟩

/-- The next group comes in; those that have to go for it are displaced by it. -/
theorem admitted (h : Passed adm demanded passed adm') {victims : List ExplicitOwner}
    (hinv : adm''.Inv) (into : AdmittedInto adm' owner pubkeys victims adm'')
    (pressed : victims ≠ [] →
      adm'.cap < (pubkeys.toFinset ∪ adm'.ownership.othersUnion owner).card)
    (hsub : pubkeys.toFinset ⊆ demanded) (hlt : ∀ e ∈ passed, e.1 < owner) :
    Passed adm demanded (passed ++ [(owner, pubkeys)]) adm'' where
  inv := hinv
  cap := (congrArg Book.cap into.book).trans h.cap
  union := into.union_subset.trans (Finset.union_subset hsub h.union)
  known := by
    intro o group hl
    rw [List.map_append, List.mem_append]
    rw [into.lookup] at hl
    split_ifs at hl with ho hv
    · exact Or.inl (Or.inr (List.mem_singleton.mpr ho))
    · exact (h.known o group hl).imp_left Or.inl
  settled := by
    intro e he
    rw [into.lookup]
    rcases List.mem_append.mp he with hold | hnew
    · have hne : e.1 ≠ owner := ne_of_lt (hlt e hold)
      rw [if_neg hne]
      by_cases hv : e.1 ∈ victims
      · obtain ⟨hsame, hnotWallet⟩ :=
          consumer_of_evictable (hlt e hold) (into.evictable e.1 hv).2.2
        have hcap := pressed (List.ne_nil_of_mem hv)
        have hcard : (pubkeys.toFinset ∪ adm'.ownership.othersUnion owner).card ≤
            demanded.card := by
          refine Finset.card_le_card (Finset.union_subset hsub ?_)
          exact (Finset.biUnion_subset_biUnion_of_subset_left _
            (Finset.erase_subset _ _)).trans h.union
        rw [if_pos hv]
        refine Or.inr ⟨rfl, hnotWallet, ?_, (owner, pubkeys), ?_, hlt e hold, hsame.symm⟩
        · rw [← h.cap]
          omega
        · exact List.mem_append_right _ List.mem_cons_self
      · rw [if_neg hv]
        exact (h.settled e hold).imp_right fun hd => ⟨hd.1, displaced_append hd.2 _⟩
    · rw [List.mem_singleton.mp hnew, if_pos rfl]
      exact Or.inl rfl

/-- The next group was there already and could not be touched. -/
theorem stale (h : Passed adm demanded passed adm')
    (hl : adm'.ownership.groups.lookup owner = some (normalizePubkeys pubkeys)) :
    Passed adm demanded (passed ++ [(owner, pubkeys)]) adm' where
  inv := h.inv
  cap := h.cap
  union := h.union
  known := by
    intro o group ho
    rw [List.map_append, List.mem_append]
    exact (h.known o group ho).imp_left Or.inl
  settled := by
    intro e he
    rcases List.mem_append.mp he with hold | hnew
    · exact (h.settled e hold).imp_right fun hd => ⟨hd.1, displaced_append hd.2 _⟩
    · rw [List.mem_singleton.mp hnew]
      exact Or.inl hl

/-- One admission of a pass. -/
theorem step (h : Passed adm demanded passed adm') (hne : pubkeys ≠ [])
    (hsub : pubkeys.toFinset ⊆ demanded) (hlt : ∀ e ∈ passed, e.1 < owner)
    (hok : tryAdmitOwnerGroup adm' owner pubkeys = (true, adm'')) :
    Passed adm demanded (passed ++ [(owner, pubkeys)]) adm'' := by
  have hout : GroupAdmission adm' owner pubkeys (tryAdmitOwnerGroup adm' owner pubkeys).1
      (tryAdmitOwnerGroup adm' owner pubkeys).2 := tryAdmitOwnerGroup_spec h.inv hne
  rw [hok] at hout
  cases hout with
  | admitted victims _ inv into least pressed => exact h.admitted inv into pressed hsub hlt
  | stale hl room => exact h.stale hl

/-- **A pass that admits every group.** -/
theorem run {ordered : List (ExplicitOwner × List Pubkey)} (h : Passed adm demanded passed adm')
    (hsorted : ((passed ++ ordered).map (·.1)).Pairwise (· < ·))
    (hne : ∀ e ∈ ordered, e.2 ≠ []) (hsub : ∀ e ∈ ordered, e.2.toFinset ⊆ demanded)
    (hok : admitInOrder ordered adm' = (true, adm'')) :
    Passed adm demanded (passed ++ ordered) adm'' := by
  induction ordered generalizing passed adm' with
  | nil =>
      cases hok
      rw [List.append_nil]
      exact h
  | cons e ordered ih =>
      have hlt : ∀ e' ∈ passed, e'.1 < e.1 := by
        intro e' he'
        rw [List.map_append, List.pairwise_append] at hsorted
        exact hsorted.2.2 _ (List.mem_map_of_mem he') _ List.mem_cons_self
      unfold admitInOrder at hok
      cases hone : tryAdmitOwnerGroup adm' e.1 e.2 with
      | mk ok next =>
          rw [hone] at hok
          cases ok with
          | false => cases hok
          | true =>
              have hstep := h.step (hne e List.mem_cons_self) (hsub e List.mem_cons_self) hlt hone
              have happend : passed ++ e :: ordered = passed ++ [(e.1, e.2)] ++ ordered := by
                rw [List.append_assoc]
                rfl
              rw [happend] at hsorted ⊢
              exact ih hstep hsorted (fun e' he' => hne e' (List.mem_cons_of_mem _ he'))
                (fun e' he' => hsub e' (List.mem_cons_of_mem _ he')) hok

end Passed

/-- A group that fits, with the others, under the cap is admitted where the maps have space. -/
theorem tryAdmitOwnerGroup_fits {adm : FixedCapAdmission} (h : adm.Inv) (hroom : adm.HasRoom)
    (owner : ExplicitOwner) {pubkeys : List Pubkey} (hne : pubkeys ≠ [])
    (hfits : (pubkeys.toFinset ∪ adm.ownership.union).card ≤ adm.cap) :
    ∃ adm', tryAdmitOwnerGroup adm owner pubkeys = (true, adm') ∧ adm'.Inv ∧
      adm'.cap = adm.cap ∧ adm'.ownership.union ⊆ pubkeys.toFinset ∪ adm.ownership.union ∧
      adm'.ownerLru.len ≤ adm.ownerLru.len + 1 := by
  have hleast : adm.LeastFits owner pubkeys := by
    refine leastFits_of_fits (le_trans (Finset.card_le_card ?_) hfits)
    refine Finset.union_subset_union_right ?_
    exact Finset.biUnion_subset_biUnion_of_subset_left _ (Finset.erase_subset _ _)
  have hout : GroupAdmission adm owner pubkeys (tryAdmitOwnerGroup adm owner pubkeys).1
      (tryAdmitOwnerGroup adm owner pubkeys).2 := tryAdmitOwnerGroup_spec h hne
  generalize tryAdmitOwnerGroup adm owner pubkeys = res at hout ⊢
  obtain ⟨ok, adm'⟩ := res
  dsimp only at hout
  cases hout with
  | admitted victims _ inv into least pressed =>
      exact ⟨adm', rfl, inv, congrArg Book.cap into.book, into.union_subset, into.length_recency⟩
  | stale hl room => exact absurd hroom room
  | refused habs overfull => exact absurd hleast (overfull hroom)
  | lost present overfull => exact absurd hleast (overfull hroom)

/-- **A demand that fits as a whole is admitted**, from any state that fits with it. -/
theorem admitInOrder_fits {demanded : Finset Pubkey} {adm : FixedCapAdmission}
    {ordered : List (ExplicitOwner × List Pubkey)} (h : adm.Inv)
    (hunion : adm.ownership.union ⊆ demanded) (hcard : demanded.card ≤ adm.cap)
    (hlen : adm.ownerLru.len + ordered.length ≤ isizeMax)
    (hne : ∀ e ∈ ordered, e.2 ≠ []) (hsub : ∀ e ∈ ordered, e.2.toFinset ⊆ demanded) :
    (admitInOrder ordered adm).1 = true := by
  induction ordered generalizing adm with
  | nil => rfl
  | cons e ordered ih =>
      rw [List.length_cons] at hlen
      have halloc : adm.Allocated := by
        unfold FixedCapAdmission.Allocated
        omega
      have hboth := Finset.union_subset (hsub e List.mem_cons_self) hunion
      obtain ⟨adm', hone, hinv, hcap, hunion', hlen'⟩ :=
        tryAdmitOwnerGroup_fits h halloc.hasRoom e.1 (hne e List.mem_cons_self)
          (le_trans (Finset.card_le_card hboth) hcard)
      unfold admitInOrder
      rw [hone]
      refine ih hinv (hunion'.trans hboth) (hcap ▸ hcard) ?_
        (fun e' he' => hne e' (List.mem_cons_of_mem _ he'))
        (fun e' he' => hsub e' (List.mem_cons_of_mem _ he'))
      omega

/-! ## 5. Converged -/

theorem mem_orderedByOwner {authoritative : List (ExplicitOwner × List Pubkey)}
    {e : ExplicitOwner × List Pubkey} : e ∈ orderedByOwner authoritative ↔ e ∈ authoritative :=
  List.mem_insertionSort _

/-- Distinct owners are in strictly increasing order. -/
theorem pairwise_orderedByOwner {authoritative : List (ExplicitOwner × List Pubkey)}
    (hdistinct : (authoritative.map (·.1)).Nodup) :
    ((orderedByOwner authoritative).map (·.1)).Pairwise (· < ·) := by
  have hsorted : (orderedByOwner authoritative).Pairwise fun a b => a.1 ≤ b.1 :=
    List.pairwise_insertionSort (fun a b : ExplicitOwner × List Pubkey => a.1 ≤ b.1) _
  have hnd : ((orderedByOwner authoritative).map (·.1)).Nodup :=
    (((List.perm_insertionSort _ _).map _).nodup_iff).mpr hdistinct
  rw [List.pairwise_map]
  exact (hsorted.and (List.pairwise_map.mp hnd)).imp fun hboth => lt_of_le_of_ne hboth.1 hboth.2

/-- What the demand asks for, and what its owners hold already. -/
def FixedCapAdmission.demanded (adm : FixedCapAdmission)
    (authoritative : List (ExplicitOwner × List Pubkey)) : Finset Pubkey :=
  (authoritative.map (·.1)).toFinset.biUnion adm.ownership.groupSet ∪
    (authoritative.flatMap (·.2)).toFinset

theorem subset_demanded {adm : FixedCapAdmission}
    {authoritative : List (ExplicitOwner × List Pubkey)} {e : ExplicitOwner × List Pubkey}
    (he : e ∈ authoritative) : e.2.toFinset ⊆ adm.demanded authoritative := by
  intro pubkey hp
  refine Finset.mem_union_right _ ?_
  rw [List.mem_toFinset, List.mem_flatMap]
  exact ⟨e, he, List.mem_toFinset.mp hp⟩

/-- The owners that the demand names hold nothing else. -/
theorem lookup_dropStale (adm : FixedCapAdmission) (authKeys : Finset ExplicitOwner)
    (owner : ExplicitOwner) :
    (adm.dropAll (adm.staleOwners authKeys)).ownership.groups.lookup owner =
      if owner ∈ authKeys then adm.ownership.groups.lookup owner else none := by
  show (adm.ownership.removeAll (adm.staleOwners authKeys)).groups.lookup owner = _
  rw [lookup_removeAll]
  unfold FixedCapAdmission.staleOwners
  by_cases hauth : owner ∈ authKeys
  · simp [hauth]
  · cases hl : adm.ownership.groups.lookup owner with
    | none => simp
    | some group =>
        have hk : owner ∈ adm.ownership.groups.keys := SortedMap.mem_keys.mpr ⟨group, hl⟩
        simp [hauth, hk]

theorem union_dropStale_subset (adm : FixedCapAdmission)
    (authoritative : List (ExplicitOwner × List Pubkey)) :
    (adm.dropAll (adm.staleOwners (authoritative.map (·.1)).toFinset)).ownership.union ⊆
      adm.demanded authoritative := by
  intro pubkey hp
  obtain ⟨owner, group, hl, hm⟩ := mem_union.mp hp
  rw [lookup_dropStale] at hl
  split_ifs at hl with hauth
  refine Finset.mem_union_left _ (Finset.mem_biUnion.mpr ⟨owner, hauth, ?_⟩)
  exact mem_groupSet.mpr ⟨group, hl, hm⟩

section Converged

variable {adm adm' : FixedCapAdmission} {authoritative : List (ExplicitOwner × List Pubkey)}

/-- What a converged pass has kept. -/
theorem passed_of_converged (h : adm.Inv) (hdistinct : (authoritative.map (·.1)).Nodup)
    (hnonempty : ∀ e ∈ authoritative, e.2 ≠ [])
    (hconv : convergeAdmissionFromGroups adm authoritative = (.converged, adm')) :
    Passed (adm.dropAll (adm.staleOwners (authoritative.map (·.1)).toFinset))
      (adm.demanded authoritative) (orderedByOwner authoritative) adm' := by
  have hdrop := (h.drop (adm.staleOwners (authoritative.map (·.1)).toFinset)).1
  have hstart := Passed.start hdrop (union_dropStale_subset adm authoritative)
  rw [convergeAdmissionFromGroups_eq h] at hconv
  cases hpass : admitInOrder (orderedByOwner authoritative)
      (adm.dropAll (adm.staleOwners (authoritative.map (·.1)).toFinset)) with
  | mk ok next =>
      rw [hpass] at hconv
      cases ok with
      | false => cases hconv
      | true =>
          cases hconv
          exact hstart.run (pairwise_orderedByOwner hdistinct)
            (fun e he => hnonempty e (mem_orderedByOwner.mp he))
            (fun e he => subset_demanded (mem_orderedByOwner.mp he)) hpass

/-- A group that is in stays as it is. -/
theorem tryAdmitOwnerGroup_settled (h : adm.Inv) {owner : ExplicitOwner} {pubkeys : List Pubkey}
    (hl : adm.ownership.groups.lookup owner = some (normalizePubkeys pubkeys)) :
    (tryAdmitOwnerGroup adm owner pubkeys).1 = true ∧
      (tryAdmitOwnerGroup adm owner pubkeys).2.Inv ∧
      (tryAdmitOwnerGroup adm owner pubkeys).2.ownership.groups = adm.ownership.groups := by
  unfold tryAdmitOwnerGroup FixedCapAdmission.ownerGroup ExplicitOwnership.ownerGroup
  by_cases hne : pubkeys = []
  · rw [if_pos hne]
    exact ⟨rfl, h, rfl⟩
  · rw [if_neg hne, hl]
    have hset : (normalizePubkeys pubkeys).toFinset = pubkeys.toFinset :=
      SortedList.toFinset_normalize pubkeys
    dsimp only
    rw [if_pos hset]
    have hspec := FixedCapAdmission.touchGroup_spec h owner
    generalize adm.touchGroup owner = res at hspec ⊢
    obtain ⟨result, adm'⟩ := res
    cases result with
    | touched => exact ⟨rfl, hspec.2.1, congrArg Book.groups hspec.2.2⟩
    | notFound =>
        obtain ⟨_, hsame⟩ := hspec
        obtain rfl := hsame.symm
        exact ⟨rfl, h, rfl⟩
    | internalInvariantViolation =>
        obtain ⟨_, hsame⟩ := hspec
        obtain rfl := hsame.symm
        exact ⟨rfl, h, rfl⟩

theorem admitInOrder_settled (h : adm.Inv) {ordered : List (ExplicitOwner × List Pubkey)}
    (hall : ∀ e ∈ ordered,
      adm.ownership.groups.lookup e.1 = some (normalizePubkeys e.2)) :
    (admitInOrder ordered adm).1 = true ∧
      (admitInOrder ordered adm).2.ownership.groups = adm.ownership.groups := by
  induction ordered generalizing adm with
  | nil => exact ⟨rfl, rfl⟩
  | cons e ordered ih =>
      have hone := tryAdmitOwnerGroup_settled h (hall e List.mem_cons_self)
      unfold admitInOrder
      generalize tryAdmitOwnerGroup adm e.1 e.2 = res at hone ⊢
      obtain ⟨ok, next⟩ := res
      obtain ⟨rfl, hinv, hgroups⟩ := hone
      have hgroups' : next.ownership.groups = adm.ownership.groups := hgroups
      have hrest := ih hinv fun e' he' => by
        rw [hgroups']
        exact hall e' (List.mem_cons_of_mem _ he')
      exact ⟨hrest.1, hrest.2.trans hgroups'⟩

/-- Converging a demand that is admitted changes no group. -/
theorem converge_settled (h : adm.Inv)
    (hall : ∀ e ∈ authoritative,
      adm.ownership.groups.lookup e.1 = some (normalizePubkeys e.2))
    (hknown : ∀ owner group, adm.ownership.groups.lookup owner = some group →
      owner ∈ authoritative.map (·.1)) :
    (convergeAdmissionFromGroups adm authoritative).1 = .converged ∧
      (convergeAdmissionFromGroups adm authoritative).2.ownership.groups =
        adm.ownership.groups := by
  have hstale : adm.staleOwners (authoritative.map (·.1)).toFinset = [] := by
    refine List.filter_eq_nil_iff.mpr fun owner ho => ?_
    obtain ⟨group, hl⟩ := SortedMap.mem_keys.mp ho
    simpa using hknown owner group hl
  have hpass := admitInOrder_settled h fun e he => hall e (mem_orderedByOwner.mp he)
  rw [convergeAdmissionFromGroups_eq h, hstale, FixedCapAdmission.dropAll_nil h]
  generalize admitInOrder (orderedByOwner authoritative) adm = res at hpass ⊢
  obtain ⟨ok, next⟩ := res
  obtain ⟨rfl, hgroups⟩ := hpass
  exact ⟨rfl, hgroups⟩

end Converged

/-- What converging leaves: only demanded groups, and none missing but those that had to make room
    for a later group of their own consumer. -/
structure Converged (adm : FixedCapAdmission) (authoritative : List (ExplicitOwner × List Pubkey))
    (adm' : FixedCapAdmission) : Prop where
  admitted : ∀ owner group, adm'.ownerGroup owner = some group →
    ∃ pubkeys, (owner, pubkeys) ∈ authoritative ∧ group = normalizePubkeys pubkeys
  missing : ∀ e ∈ authoritative, adm'.ownerGroup e.1 = none →
    e.1.consumer ≠ .wallet ∧ adm.cap < (adm.demanded authoritative).card ∧
      ∃ e' ∈ authoritative, e.1 < e'.1 ∧ e'.1.consumer = e.1.consumer
  stable : (∀ e ∈ authoritative, adm'.ownerGroup e.1 ≠ none) →
    (convergeAdmissionFromGroups adm' authoritative).1 = .converged ∧
      (convergeAdmissionFromGroups adm' authoritative).2.ownership.groups =
        adm'.ownership.groups

/-- **Converged leaves only demanded groups.** A demanded group is missing only if it is no
    wallet's, a later one of its consumer took its place, and the demand with what its owners held
    before is beyond the cap. Where none is missing, converging again changes no group. -/
theorem converged_exact {cap : Nat} {start : UInt64}
    {tr : List (AdmissionOp × AdmissionOutcome)} {adm adm' : FixedCapAdmission}
    (hr : Machine.Run AdmissionStep (FixedCapAdmission.start cap start) tr adm)
    {authoritative : List (ExplicitOwner × List Pubkey)}
    (hdistinct : (authoritative.map (·.1)).Nodup)
    (hnonempty : ∀ e ∈ authoritative, e.2 ≠ [])
    (hconv : convergeAdmissionFromGroups adm authoritative = (.converged, adm')) :
    Converged adm authoritative adm' := by
  have hpassed := passed_of_converged (runInv_of_run hr).inv hdistinct hnonempty hconv
  have hknown : ∀ owner group, adm'.ownership.groups.lookup owner = some group →
      owner ∈ authoritative.map (·.1) := by
    intro owner group hl
    rcases hpassed.known owner group hl with hmem | hold
    · obtain ⟨e, he, rfl⟩ := List.mem_map.mp hmem
      exact List.mem_map_of_mem (mem_orderedByOwner.mp he)
    · rw [lookup_dropStale] at hold
      split_ifs at hold with hauth
      exact List.mem_toFinset.mp hauth
  have hsettled : ∀ e ∈ authoritative, adm'.ownerGroup e.1 ≠ none →
      adm'.ownership.groups.lookup e.1 = some (normalizePubkeys e.2) := by
    intro e he hin
    exact (hpassed.settled e (mem_orderedByOwner.mpr he)).resolve_right fun hgone => hin hgone.1
  refine ⟨fun owner group hl => ?_, fun e he hgone => ?_, fun hall => ?_⟩
  · obtain ⟨e, he, rfl⟩ := List.mem_map.mp (hknown owner group hl)
    have hin : adm'.ownerGroup e.1 ≠ none := by
      rw [hl]
      exact Option.some_ne_none group
    have hsame := hl.symm.trans (hsettled e he hin)
    exact ⟨e.2, he, Option.some.inj hsame⟩
  · rcases hpassed.settled e (mem_orderedByOwner.mpr he) with hin | hout
    · exact absurd (hgone.symm.trans hin) (Option.some_ne_none _).symm
    · obtain ⟨e', he', hlater⟩ := hout.2.later
      exact ⟨hout.2.notWallet, hout.2.pressed, e', mem_orderedByOwner.mp he', hlater⟩
  · exact converge_settled hpassed.inv (fun e he => hsettled e he (hall e he)) hknown

/-- `converged_exact` for two groups that fit. -/
theorem converged_exact_when_fitting :
    let demand : List (ExplicitOwner × List Pubkey) :=
      [(⟨.arb, .pool 2⟩, [5, 4, 5]), (⟨.wallet, .wallet⟩, [4])]
    Converged (.start 2 1) demand (convergeAdmissionFromGroups (.start 2 1) demand).2 := by
  intro demand
  have hr : Machine.Run AdmissionStep (.start 2 1) [] (.start 2 1) := .start
  have hresult : (convergeAdmissionFromGroups (.start 2 1) demand).1 = .converged := by
    decide +kernel
  exact converged_exact hr (by decide) (by decide) (Prod.ext hresult rfl)

/-- **A demand that never settles.** Cap 4: pool 1 holds the account 5, an arbitrage pool the
    accounts 1 and 2. Converging reports `converged` without the demanded group of pool 1, and a
    second call with the same demand admits it. -/
theorem converged_is_not_exact :
    let pool₁ : ExplicitOwner := ⟨.momentum, .pool 1⟩
    let arb₂ : ExplicitOwner := ⟨.arb, .pool 2⟩
    let demand : List (ExplicitOwner × List Pubkey) :=
      [(pool₁, [3]), (⟨.momentum, .pool 2⟩, [5, 1]), (⟨.momentum, .pool 3⟩, [2, 0, 4]), (arb₂, [3])]
    let first := AdmissionOp.tryAdmitNewGroup pool₁ [5]
    let second := AdmissionOp.tryAdmitNewGroup arb₂ [1, 2]
    let start := FixedCapAdmission.start 4 1
    let adm := (second.run (first.run start).2).2
    let once := convergeAdmissionFromGroups adm demand
    let twice := convergeAdmissionFromGroups once.2 demand
    (∃ tr, Machine.Run AdmissionStep start tr adm) ∧
      (demand.map (·.1)).Nodup ∧ (∀ e ∈ demand, e.2 ≠ []) ∧
      once.1 = .converged ∧ once.2.ownerGroup pool₁ = none ∧
      twice.1 = .converged ∧ twice.2.ownerGroup pool₁ = some [3] := by
  intro pool₁ arb₂ demand first second start adm once twice
  have hone : (first.run start).2.Allocated := by decide +kernel
  have htwo : adm.Allocated := by decide +kernel
  have hr := Machine.Run.cons (first.step hone) (Machine.Run.single (second.step htwo))
  exact ⟨⟨_, hr⟩, by decide, by decide, by decide +kernel, by decide +kernel, by decide +kernel,
    by decide +kernel⟩

end IronCrab.Track

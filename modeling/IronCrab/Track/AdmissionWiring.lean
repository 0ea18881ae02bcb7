/-
  File:      IronCrab/Track/AdmissionWiring.lean
  Subject:   ADMITTING ONE OWNER GROUP (`admission_wiring.rs`).

  `tryAdmitOwnerGroup` touches, replaces, inserts or evicts. When the cap rejects the bigger group
  of a known owner it removes the owner first and then admits it as a new one; if that fails too,
  the owner's old group is gone.

  * `tryAdmitOwnerGroup_spec` -- every outcome;
  * **`atomic_iff`** -- the admission is atomic exactly for a new owner, or when the incoming
    group fits beside the groups that it may not evict; `grown_group_is_lost` is a position group
    that is lost.
-/
import IronCrab.Track.AdmissionRefinement

namespace IronCrab.Track

open ExplicitOwnership

/-! ## 1. The functions -/

/-- The result says that the group is in. -/
def EvictingAdmissionResult.isInserted : EvictingAdmissionResult → Bool
  | insertedNoEviction _ | insertedWithEviction _ _ _ _ => true
  | _ => false

/-- `try_admit_owner_group`. -/
def tryAdmitOwnerGroup (admission : FixedCapAdmission) (owner : ExplicitOwner)
    (pubkeys : List Pubkey) : Bool × FixedCapAdmission :=
  if pubkeys = [] then (true, admission)
  else
    match admission.ownerGroup owner with
    | some current =>
        if current.toFinset = pubkeys.toFinset then (true, (admission.touchGroup owner).2)
        else
          match admission.tryReplaceGroup owner pubkeys with
          | (.replaced _ _, admission) | (.unchanged, admission) => (true, admission)
          | (.rejectedCap _ _, admission) =>
              let admission := (admission.removeGroup owner).2
              (admission.tryAdmitWithEviction owner pubkeys).map (·.isInserted) id
          | (.rejectedInvalidGroup, admission) | (.rejectedMissingOwner, admission)
          | (.planningInvariantViolation, admission)
          | (.internalInvariantViolation _, admission) => (false, admission)
    | none =>
        match admission.tryAdmitNewGroup owner pubkeys with
        | (.inserted _, admission) | (.ownerAddedNoNewPubkey, admission) => (true, admission)
        | (.rejectedCap _ _, admission) =>
            (admission.tryAdmitWithEviction owner pubkeys).map (·.isInserted) id
        | (.rejectedInvalidGroup, admission) | (.rejectedExistingOwner, admission)
        | (.internalInvariantViolation, admission) => (false, admission)

/-! ## 2. What may be evicted -/

/-- An incoming group of this consumer may evict the owner. -/
def Evictable (incoming : ExplicitConsumer) (owner : ExplicitOwner) : Prop :=
  ∃ tier ∈ EvictionTier.allowedForIncoming incoming, owner.consumer ∈ tier.cumulativeConsumers

instance (incoming : ExplicitConsumer) (owner : ExplicitOwner) :
    Decidable (Evictable incoming owner) := by
  unfold Evictable
  infer_instance

/-- What the others hold that an incoming group may not evict. -/
def ExplicitOwnership.keptUnion (own : ExplicitOwnership) (owner : ExplicitOwner) :
    Finset Pubkey :=
  ((own.owners.erase owner).filter fun o => ¬ Evictable owner.consumer o).biUnion own.groupSet

/-- The incoming group fits beside what it may not evict. -/
def FixedCapAdmission.LeastFits (adm : FixedCapAdmission) (owner : ExplicitOwner)
    (pubkeys : List Pubkey) : Prop :=
  (pubkeys.toFinset ∪ adm.ownership.keptUnion owner).card ≤ adm.cap

instance (adm : FixedCapAdmission) (owner : ExplicitOwner) (pubkeys : List Pubkey) :
    Decidable (adm.LeastFits owner pubkeys) := inferInstanceAs (Decidable (_ ≤ _))

namespace ExplicitOwnership

theorem keptUnion_subset_othersUnion (own : ExplicitOwnership) (owner : ExplicitOwner) :
    own.keptUnion owner ⊆ own.othersUnion owner :=
  Finset.biUnion_subset_biUnion_of_subset_left _ (Finset.filter_subset _ _)

theorem owner_notMem_owners {own : ExplicitOwnership} {owner : ExplicitOwner}
    (habs : own.groups.lookup owner = none) : owner ∉ own.owners := by
  rw [mem_owners, habs]
  rintro ⟨_, hg⟩
  cases hg

/-- For a new owner: what is left at least, and what may go. -/
theorem card_least {own : ExplicitOwnership} {owner : ExplicitOwner}
    (habs : own.groups.lookup owner = none) (incoming : Finset Pubkey) :
    (incoming ∪ own.keptUnion owner).card +
      (own.freed (own.allowedOwners (EvictionTier.allowedForIncoming owner.consumer))
        incoming).card = (own.union ∪ incoming).card := by
  have hcover := Cover.card_after (G := own.owners) (S := own.groupSet)
    (own.allowedOwners (EvictionTier.allowedForIncoming owner.consumer)) incoming
  have hleft : own.owners \ own.allowedOwners (EvictionTier.allowedForIncoming owner.consumer) =
      (own.owners.erase owner).filter fun o => ¬ Evictable owner.consumer o := by
    rw [Finset.erase_eq_of_notMem (owner_notMem_owners habs)]
    ext o
    unfold allowedOwners Evictable
    rw [Finset.mem_sdiff, Finset.mem_filter, Finset.mem_filter, not_and]
    exact ⟨fun hm => ⟨hm.1, hm.2 hm.1⟩, fun hm => ⟨hm.1, fun _ => hm.2⟩⟩
  rw [hleft] at hcover
  rw [Finset.union_comm incoming, ← card_union_add]
  exact hcover

end ExplicitOwnership

/-! ## 3. Every outcome -/

namespace Book

theorem drop_nil (b : Book) : b.drop [] = b := by
  unfold drop
  have hgroups : (b.groups.retain fun o _ => decide (o ∉ ([] : List ExplicitOwner))) = b.groups :=
    SortedMap.ext_lookup fun o => by
      rw [SortedMap.lookup_retain_keys]
      simp
  have hrecency : (b.recency.filter fun o => decide (o ∉ ([] : List ExplicitOwner))) =
      b.recency := List.filter_eq_self.mpr fun o _ => by simp
  rw [hgroups, hrecency]

/-- Dropping an owner that is then put in makes no difference. -/
theorem put_drop_self (b : Book) (owner : ExplicitOwner) (victims : List ExplicitOwner)
    (group : List Pubkey) :
    ((b.drop [owner]).drop victims).put owner group = (b.drop victims).put owner group := by
  have hgroups : (((b.drop [owner]).drop victims).put owner group).groups =
      ((b.drop victims).put owner group).groups := by
    refine SortedMap.ext_lookup fun o => ?_
    show (((b.drop [owner]).groups.retain _).insert owner group).lookup o =
      ((b.groups.retain _).insert owner group).lookup o
    rw [SortedMap.lookup_insert, SortedMap.lookup_insert]
    split_ifs with ho
    · rfl
    · unfold drop
      dsimp only
      rw [SortedMap.lookup_retain_keys, SortedMap.lookup_retain_keys, SortedMap.lookup_retain_keys]
      simp [ho]
  have hrecency : (((b.drop [owner]).drop victims).put owner group).recency =
      ((b.drop victims).put owner group).recency := by
    show ((((b.recency.filter _).filter _).filter _) ++ [owner]) =
      ((b.recency.filter _).filter _) ++ [owner]
    congr 1
    rw [List.filter_filter, List.filter_filter, List.filter_filter]
    refine List.filter_congr fun o _ => ?_
    by_cases ho : o = owner
    · simp [ho]
    · simp [ho]
  exact congrArg₂ (fun g r => (⟨b.cap, g, r⟩ : Book)) hgroups hrecency

/-- Touching an owner is putting its group in again. -/
theorem touch_eq_put {b : Book} {owner : ExplicitOwner} {group : List Pubkey}
    (h : b.groups.lookup owner = some group) : b.touch owner = b.put owner group := by
  unfold put
  rw [SortedMap.insert_lookup h]
  rfl

end Book

/-- The group is in, and only owners that it may evict had to go. -/
structure AdmittedInto (adm : FixedCapAdmission) (owner : ExplicitOwner) (pubkeys : List Pubkey)
    (victims : List ExplicitOwner) (adm' : FixedCapAdmission) : Prop where
  evictable : ∀ victim ∈ victims, victim ∈ adm.ownership.owners ∧ victim ≠ owner ∧
    Evictable owner.consumer victim
  book : adm'.book = (adm.book.drop victims).put owner (normalizePubkeys pubkeys)

/-- **The outcomes of one admission.** -/
inductive GroupAdmission (adm : FixedCapAdmission) (owner : ExplicitOwner)
    (pubkeys : List Pubkey) : Bool → FixedCapAdmission → Prop where
  /-- Nobody goes unless the group does not fit beside all others. -/
  | admitted (victims : List ExplicitOwner) (adm' : FixedCapAdmission) (inv : adm'.Inv)
      (into : AdmittedInto adm owner pubkeys victims adm') (least : adm.LeastFits owner pubkeys)
      (pressed : victims ≠ [] →
        adm.cap < (pubkeys.toFinset ∪ adm.ownership.othersUnion owner).card) :
      GroupAdmission adm owner pubkeys true adm'
  /-- The group is there and no stamp is left for it. -/
  | stale (hl : adm.ownership.groups.lookup owner = some (normalizePubkeys pubkeys))
      (room : ¬ adm.HasRoom) : GroupAdmission adm owner pubkeys true adm
  | refused (habs : adm.HasRoom → adm.ownership.groups.lookup owner = none)
      (overfull : adm.HasRoom → ¬ adm.LeastFits owner pubkeys) :
      GroupAdmission adm owner pubkeys false adm
  /-- The owner was removed and could not be admitted again. -/
  | lost (present : ∃ group, adm.ownership.groups.lookup owner = some group)
      (overfull : adm.HasRoom → ¬ adm.LeastFits owner pubkeys) :
      GroupAdmission adm owner pubkeys false (adm.dropAll [owner])

section Spec

variable {adm : FixedCapAdmission} (h : adm.Inv) {owner : ExplicitOwner} {pubkeys : List Pubkey}
  (hne : pubkeys ≠ [])
include h hne

omit h hne in
theorem evictable_of_tier {tier : EvictionTier} {victim : ExplicitOwner}
    (ht : tier ∈ EvictionTier.allowedForIncoming owner.consumer)
    (hc : victim.consumer ∈ tier.cumulativeConsumers) : Evictable owner.consumer victim :=
  ⟨tier, ht, hc⟩

omit h hne in
theorem leastFits_of_fits
    (hfits : (pubkeys.toFinset ∪ adm.ownership.othersUnion owner).card ≤ adm.cap) :
    adm.LeastFits owner pubkeys := by
  refine le_trans (Finset.card_le_card ?_) hfits
  exact Finset.union_subset_union_right (keptUnion_subset_othersUnion _ _)

/-- The admission with eviction of a new owner. -/
theorem evict_outcome (habs : adm.ownership.groups.lookup owner = none) :
    GroupAdmission adm owner pubkeys (adm.tryAdmitWithEviction owner pubkeys).1.isInserted
      (adm.tryAdmitWithEviction owner pubkeys).2 := by
  have hothers := othersUnion_of_none habs
  have hleast := card_least habs pubkeys.toFinset
  have hnotowner : ∀ victim ∈ adm.ownership.owners, victim ≠ owner :=
    fun victim hv he => owner_notMem_owners habs (he ▸ hv)
  have hspec := FixedCapAdmission.tryAdmitWithEviction_spec h owner pubkeys
  generalize adm.tryAdmitWithEviction owner pubkeys = res at hspec
  obtain ⟨result, adm'⟩ := res
  cases result with
  | insertedNoEviction added =>
      obtain ⟨hadmits, _⟩ := hspec
      refine .admitted [] adm' hadmits.inv ⟨fun _ hv => absurd hv List.not_mem_nil, ?_⟩ ?_
        fun hno => absurd rfl hno
      · rw [Book.drop_nil]
        exact hadmits.book
      · refine leastFits_of_fits ?_
        rw [hothers, Finset.union_comm]
        exact hadmits.demand
  | insertedWithEviction added removed victims tier =>
      obtain ⟨hevicts, _⟩ := hspec
      have hover := hevicts.overfull
      have hfeasible := hevicts.feasible
      refine .admitted victims adm' hevicts.inv ⟨fun victim hv => ?_, hevicts.book⟩ ?_ fun _ => ?_
      · obtain ⟨ho, _, hc⟩ := hevicts.evictable victim hv
        exact ⟨ho, hnotowner victim ho, evictable_of_tier hevicts.allowed hc⟩
      · unfold FixedCapAdmission.LeastFits
        unfold FixedCapAdmission.freeable at hfeasible
        omega
      · rw [hothers, Finset.union_comm]
        exact hover
  | rejectedExistingOwner =>
      obtain ⟨⟨_, hg⟩, _⟩ := hspec
      rw [habs] at hg
      cases hg
  | rejectedProtected added required =>
      obtain ⟨_, _, hover, hfree, rfl⟩ := hspec
      refine .refused (fun _ => habs) fun _ hfits => ?_
      unfold FixedCapAdmission.LeastFits at hfits
      unfold FixedCapAdmission.freeable at hfree
      omega
  | rejectedInvalidInput => exact absurd hspec.1 hne
  | internalInvariantViolation =>
      obtain ⟨hroom, rfl⟩ := hspec
      exact .refused (fun hr => absurd hr hroom) fun hr => absurd hr hroom

end Spec

section Spec

variable {adm : FixedCapAdmission} {owner : ExplicitOwner} {pubkeys : List Pubkey}

theorem hasRoom_dropAll {victims : List ExplicitOwner} (hroom : adm.HasRoom) :
    (adm.dropAll victims).HasRoom := by
  intro hmax
  have hspace := hroom hmax
  have hlen := FixedCapAdmission.len_eraseAll_le adm.ownerLru victims
  show (FixedCapAdmission.eraseAll adm.ownerLru victims).len + 2 ≤ u64Max
  omega

/-- Without an owner the others hold what they held. -/
theorem keptUnion_dropAll :
    (adm.dropAll [owner]).ownership.keptUnion owner = adm.ownership.keptUnion owner := by
  have howners : (adm.dropAll [owner]).ownership.owners = adm.ownership.owners.erase owner := by
    ext o
    show o ∈ (adm.ownership.removeAll [owner]).owners ↔ _
    rw [mem_owners, lookup_removeAll, Finset.mem_erase, mem_owners]
    by_cases ho : o = owner
    · simp [ho]
    · simp [ho]
  unfold keptUnion
  rw [howners, Finset.erase_idem]
  refine Finset.biUnion_congr rfl fun o ho => ?_
  have hne := Finset.ne_of_mem_erase (Finset.mem_of_mem_filter o ho)
  show (adm.ownership.removeAll [owner]).groupSet o = adm.ownership.groupSet o
  unfold groupSet
  rw [lookup_removeAll, if_neg (by simpa using hne)]

theorem lookup_dropAll_self (adm : FixedCapAdmission) (owner : ExplicitOwner) :
    (adm.dropAll [owner]).ownership.groups.lookup owner = none := by
  show (adm.ownership.removeAll [owner]).groups.lookup owner = none
  rw [lookup_removeAll, if_pos List.mem_cons_self]

theorem othersUnion_dropAll :
    (adm.dropAll [owner]).ownership.othersUnion owner = adm.ownership.othersUnion owner := by
  have hgone : (adm.ownership.removeAll [owner]).groups.lookup owner = none := by
    rw [lookup_removeAll, if_pos List.mem_cons_self]
  refine (othersUnion_of_none hgone).trans ?_
  exact union_drop (groups_removeGroup adm.ownership owner)

/-- The outcome on the state without the owner, as an outcome on the state with it. -/
theorem lost_or_admitted {ok : Bool} {adm' : FixedCapAdmission}
    (present : ∃ group, adm.ownership.groups.lookup owner = some group)
    (hbook : (adm.dropAll [owner]).book = adm.book.drop [owner])
    (hout : GroupAdmission (adm.dropAll [owner]) owner pubkeys ok adm') :
    GroupAdmission adm owner pubkeys ok adm' := by
  have hleast : (adm.dropAll [owner]).LeastFits owner pubkeys ↔ adm.LeastFits owner pubkeys := by
    unfold FixedCapAdmission.LeastFits
    rw [keptUnion_dropAll]
    rfl
  have hgone := lookup_dropAll_self adm owner
  have hover : ((adm.dropAll [owner]).HasRoom → ¬ (adm.dropAll [owner]).LeastFits owner pubkeys) →
      adm.HasRoom → ¬ adm.LeastFits owner pubkeys := by
    intro hno hroom hfits
    exact hno (hasRoom_dropAll hroom) (hleast.mpr hfits)
  cases hout with
  | admitted victims _ inv into least pressed =>
      refine .admitted victims adm' inv ⟨fun victim hv => ?_, ?_⟩ (hleast.mp least) fun hvne => ?_
      · obtain ⟨ho, hne', hev⟩ := into.evictable victim hv
        obtain ⟨group, hg⟩ := mem_owners.mp ho
        have hg' : (adm.ownership.removeAll [owner]).groups.lookup victim = some group := hg
        rw [lookup_removeAll, if_neg (by simpa using hne')] at hg'
        exact ⟨mem_owners.mpr ⟨group, hg'⟩, hne', hev⟩
      · rw [into.book, hbook, Book.put_drop_self]
      · have hp := pressed hvne
        rw [othersUnion_dropAll] at hp
        exact hp
  | stale hl room =>
      rw [hgone] at hl
      cases hl
  | refused habs overfull => exact .lost present (hover overfull)
  | lost present' overfull =>
      obtain ⟨_, hg⟩ := present'
      rw [hgone] at hg
      cases hg

/-- **Every outcome of one admission.** -/
theorem tryAdmitOwnerGroup_spec (h : adm.Inv) (hne : pubkeys ≠ []) :
    GroupAdmission adm owner pubkeys (tryAdmitOwnerGroup adm owner pubkeys).1
      (tryAdmitOwnerGroup adm owner pubkeys).2 := by
  unfold tryAdmitOwnerGroup FixedCapAdmission.ownerGroup ExplicitOwnership.ownerGroup
  rw [if_neg hne]
  cases hl : adm.ownership.groups.lookup owner with
  | none =>
      dsimp only
      have hspec := FixedCapAdmission.tryAdmitNewGroup_spec h owner pubkeys
      have hothers := othersUnion_of_none hl
      cases hres : adm.tryAdmitNewGroup owner pubkeys with
      | mk result adm' =>
          rw [hres] at hspec
          -- an insert admits without a victim
          have hadmitted : adm.Admits owner pubkeys adm' →
              GroupAdmission adm owner pubkeys true adm' := by
            intro hadmits
            have hfits : (pubkeys.toFinset ∪ adm.ownership.othersUnion owner).card ≤ adm.cap := by
              rw [hothers, Finset.union_comm]
              exact hadmits.demand
            refine .admitted [] adm' hadmits.inv ⟨fun _ hv => absurd hv List.not_mem_nil, ?_⟩
              (leastFits_of_fits hfits) fun hno => absurd rfl hno
            rw [Book.drop_nil]
            exact hadmits.book
          cases result with
          | inserted added => exact hadmitted hspec.1
          | ownerAddedNoNewPubkey => exact hadmitted hspec.1
          | rejectedCap required available =>
              obtain ⟨_, _, _, _, _, rfl⟩ := hspec
              exact evict_outcome h hne hl
          | rejectedInvalidGroup => exact absurd hspec.1 hne
          | rejectedExistingOwner =>
              obtain ⟨⟨_, hg⟩, _⟩ := hspec
              rw [hl] at hg
              cases hg
          | internalInvariantViolation =>
              obtain ⟨hroom, rfl⟩ := hspec
              exact .refused (fun hr => absurd hr hroom) fun hr => absurd hr hroom
  | some current =>
      dsimp only
      by_cases hsame : current.toFinset = pubkeys.toFinset
      · rw [if_pos hsame]
        have hnorm : current = normalizePubkeys pubkeys := by
          refine SortedList.eq_of_toFinset_eq (h.wellFormed.sorted owner current hl)
            (pairwise_normalizePubkeys pubkeys) ?_
          rw [hsame]
          exact (SortedList.toFinset_normalize pubkeys).symm
        have hspec := FixedCapAdmission.touchGroup_spec h owner
        generalize adm.touchGroup owner = res at hspec
        obtain ⟨result, adm'⟩ := res
        cases result with
        | touched =>
            obtain ⟨_, hinv, hbook⟩ := hspec
            have hunion : adm.ownership.union =
                pubkeys.toFinset ∪ adm.ownership.othersUnion owner := by
              rw [← hsame]
              exact union_put (SortedMap.insert_lookup hl).symm
            have hfits : (pubkeys.toFinset ∪ adm.ownership.othersUnion owner).card ≤ adm.cap := by
              rw [← hunion, ← h.len]
              exact h.fits
            refine .admitted [] adm' hinv ⟨fun _ hv => absurd hv List.not_mem_nil, ?_⟩
              (leastFits_of_fits hfits) fun hno => absurd rfl hno
            rw [Book.drop_nil, hbook]
            exact Book.touch_eq_put (hnorm ▸ hl)
        | notFound =>
            rw [hspec.1] at hl
            cases hl
        | internalInvariantViolation =>
            obtain ⟨hroom, rfl⟩ := hspec
            exact .stale (hnorm ▸ hl) hroom
      · rw [if_neg hsame]
        have hspec := FixedCapAdmission.tryReplaceGroup_spec h owner pubkeys
        cases hres : adm.tryReplaceGroup owner pubkeys with
        | mk result adm' =>
            rw [hres] at hspec
            cases result with
            | replaced added removed =>
                obtain ⟨_, _, hfits, hinv, hbook, _⟩ := hspec
                refine .admitted [] adm' hinv ⟨fun _ hv => absurd hv List.not_mem_nil, ?_⟩
                  (leastFits_of_fits hfits) fun hno => absurd rfl hno
                rw [Book.drop_nil]
                exact hbook
            | unchanged =>
                obtain ⟨_, hg, _⟩ := hspec
                rw [hl] at hg
                cases hg
                exact absurd (SortedList.toFinset_normalize pubkeys) hsame
            | rejectedCap required available =>
                obtain ⟨_, _, _, hkept⟩ := hspec
                obtain rfl := hkept.symm
                obtain ⟨removed, hrem, _⟩ :=
                  FixedCapAdmission.removeGroup_of_lookup h ⟨current, hl⟩
                have hgone := lookup_dropAll_self adm owner
                dsimp only
                rw [hrem]
                have hout := evict_outcome (h.drop [owner]).1 hne hgone
                exact lost_or_admitted ⟨current, hl⟩ (h.drop [owner]).2 hout
            | rejectedInvalidGroup => exact absurd hspec.1 hne
            | rejectedMissingOwner =>
                rw [hspec.1] at hl
                cases hl
            | planningInvariantViolation =>
                obtain ⟨hroom, rfl⟩ := hspec
                exact .refused (fun hr => absurd hr hroom) fun hr => absurd hr hroom
            | internalInvariantViolation recovery => exact hspec.elim

end Spec

/-! ## 4. When the admission is atomic -/

/-- A rejected group changes nothing; an admitted one is in, and only owners that it may evict
    had to go. -/
structure AtomicAdmission (adm : FixedCapAdmission) (owner : ExplicitOwner) (pubkeys : List Pubkey)
    (ok : Bool) (adm' : FixedCapAdmission) : Prop where
  rejected : ok = false → adm'.book = adm.book ∧ adm'.ownership.union = adm.ownership.union
  admitted : ok = true → ∃ victims, AdmittedInto adm owner pubkeys victims adm'

theorem AtomicAdmission.kept {adm adm' : FixedCapAdmission} {owner : ExplicitOwner}
    {pubkeys : List Pubkey} {ok : Bool} (h : AtomicAdmission adm owner pubkeys ok adm')
    (hno : ok = false) : adm'.ownerGroup owner = adm.ownerGroup owner := by
  have hgroups : adm'.ownership.groups = adm.ownership.groups :=
    congrArg Book.groups (h.rejected hno).1
  unfold FixedCapAdmission.ownerGroup ExplicitOwnership.ownerGroup
  rw [hgroups]

/-- **An admission is atomic exactly for a new owner, or when the incoming group fits under the cap
    beside the groups that it may not evict.** Everywhere else the known owner's group is lost. -/
theorem atomic_iff {cap : Nat} {start : UInt64} {tr : List (AdmissionOp × AdmissionOutcome)}
    {adm : FixedCapAdmission}
    (hr : Machine.Run AdmissionStep (FixedCapAdmission.start cap start) tr adm)
    (owner : ExplicitOwner) {pubkeys : List Pubkey} (hne : pubkeys ≠ []) :
    AtomicAdmission adm owner pubkeys (tryAdmitOwnerGroup adm owner pubkeys).1
        (tryAdmitOwnerGroup adm owner pubkeys).2 ↔
      adm.ownership.groups.lookup owner = none ∨ adm.LeastFits owner pubkeys := by
  have hrun := runInv_of_run hr
  have hroom := hrun.allocated.hasRoom
  have hout : GroupAdmission adm owner pubkeys (tryAdmitOwnerGroup adm owner pubkeys).1
      (tryAdmitOwnerGroup adm owner pubkeys).2 := tryAdmitOwnerGroup_spec hrun.inv hne
  generalize tryAdmitOwnerGroup adm owner pubkeys = res at hout ⊢
  obtain ⟨ok, adm'⟩ := res
  dsimp only at hout ⊢
  constructor
  · intro hatomic
    cases hout with
    | admitted victims _ inv into least pressed => exact Or.inr least
    | stale hl room => exact absurd hroom room
    | refused habs overfull => exact Or.inl (habs hroom)
    | lost present overfull =>
        obtain ⟨group, hg⟩ := present
        have hkept := hatomic.kept rfl
        unfold FixedCapAdmission.ownerGroup ExplicitOwnership.ownerGroup at hkept
        rw [lookup_dropAll_self, hg] at hkept
        cases hkept
  · intro hcond
    cases hout with
    | admitted victims _ inv into least pressed =>
        exact ⟨fun h => (nomatch h), fun _ => ⟨victims, into⟩⟩
    | stale hl room => exact absurd hroom room
    | refused habs overfull => exact ⟨fun _ => ⟨rfl, rfl⟩, fun h => (nomatch h)⟩
    | lost present overfull =>
        obtain ⟨group, hg⟩ := present
        rcases hcond with habs | hfits
        · rw [habs] at hg
          cases hg
        · exact absurd hfits (overfull hroom)

/-- `atomic_iff` for a position that grows while there is space. -/
theorem atomic_for_grown_group :
    let position : ExplicitOwner := ⟨.momentumPosition, .pool 9⟩
    let first := AdmissionOp.tryAdmitNewGroup position [1]
    let adm := (first.run (FixedCapAdmission.start 2 1)).2
    AtomicAdmission adm position [3, 1] (tryAdmitOwnerGroup adm position [3, 1]).1
      (tryAdmitOwnerGroup adm position [3, 1]).2 := by
  intro position first adm
  have halloc : adm.Allocated := by decide +kernel
  exact (atomic_iff (Machine.Run.single (first.step halloc)) position (by decide)).mpr
    (Or.inr (by decide +kernel))

/-- **A position group that is lost.** Cap 2: the position of pool 9 holds the account 1, the wallet
    the account 2. The position grows by the account 3, and then holds nothing. -/
theorem grown_group_is_lost :
    let position : ExplicitOwner := ⟨.momentumPosition, .pool 9⟩
    let first := AdmissionOp.tryAdmitNewGroup position [1]
    let second := AdmissionOp.tryAdmitNewGroup ⟨.wallet, .wallet⟩ [2]
    let start := FixedCapAdmission.start 2 1
    let adm := (second.run (first.run start).2).2
    (∃ tr, Machine.Run AdmissionStep start tr adm) ∧
      adm.ownerGroup position = some [1] ∧
      (tryAdmitOwnerGroup adm position [1, 3]).1 = false ∧
      (tryAdmitOwnerGroup adm position [1, 3]).2.ownerGroup position = none ∧
      ¬ AtomicAdmission adm position [1, 3] (tryAdmitOwnerGroup adm position [1, 3]).1
        (tryAdmitOwnerGroup adm position [1, 3]).2 := by
  intro position first second start adm
  have hrejected : (tryAdmitOwnerGroup adm position [1, 3]).1 = false := by decide +kernel
  have hgone : (tryAdmitOwnerGroup adm position [1, 3]).2.ownerGroup position = none := by
    decide +kernel
  have hheld : adm.ownerGroup position = some [1] := by decide +kernel
  have hone : (first.run start).2.Allocated := by decide +kernel
  have htwo : adm.Allocated := by decide +kernel
  have hr := Machine.Run.cons (first.step hone) (Machine.Run.single (second.step htwo))
  refine ⟨⟨_, hr⟩, hheld, hrejected, hgone, fun hatomic => ?_⟩
  exact Option.some_ne_none _ (hheld.symm.trans ((hatomic.kept hrejected).symm.trans hgone))

end IronCrab.Track

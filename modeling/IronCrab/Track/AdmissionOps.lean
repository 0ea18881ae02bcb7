/-
  File:      IronCrab/Track/AdmissionOps.lean
  Subject:   THE OPERATIONS THAT WRITE IN PLACE: TOUCH, INSERT, REPLACE, REMOVE.

  For each operation one `…_spec` lemma says what each of its results means, in terms of the book
  and of the sets of pubkeys. The plan always agrees with what the store reports, so no rollback
  is ever taken; the results that report a violation are met only when no stamp is left to give,
  and then nothing has changed.
-/
import IronCrab.Track.AdmissionInvariant

namespace IronCrab.Track

open ExplicitOwnership

/-! ## 1. What enters and leaves the union -/

/-- A reported list is this set, without repetitions. -/
def ListsExactly (l : List Pubkey) (s : Finset Pubkey) : Prop := l.Nodup ∧ l.toFinset = s

theorem ListsExactly.length {l : List Pubkey} {s : Finset Pubkey} (h : ListsExactly l s) :
    l.length = s.card := by
  rw [← h.2, List.toFinset_card_of_nodup h.1]

namespace ExplicitOwnership

/-- Those of the pubkeys that nobody holds. -/
def absent (own : ExplicitOwnership) (pubkeys : List Pubkey) : List Pubkey :=
  pubkeys.filter fun pubkey => decide (pubkey ∉ own.union)

/-- Those of an owner's pubkeys that nobody else holds and the new group does not want. -/
def orphaned (own : ExplicitOwnership) (owner : ExplicitOwner) (old group : List Pubkey) :
    List Pubkey :=
  old.filter fun pubkey => decide ((own.holders pubkey).erase owner = ∅ ∧ pubkey ∉ group)

/-- What the other owners hold. -/
def othersUnion (own : ExplicitOwnership) (owner : ExplicitOwner) : Finset Pubkey :=
  (own.owners.erase owner).biUnion own.groupSet

theorem WellFormed.filter_refcount {own : ExplicitOwnership} (h : own.WellFormed)
    (pubkeys : List Pubkey) :
    (pubkeys.filter fun pubkey => decide (own.ownerRefcount pubkey = 0)) = own.absent pubkeys :=
  List.filter_congr fun _ _ => decide_eq_decide.mpr h.ownerRefcount_eq_zero

theorem mem_othersUnion {own : ExplicitOwnership} {owner : ExplicitOwner} {pubkey : Pubkey} :
    pubkey ∈ own.othersUnion owner ↔ ((own.holders pubkey).erase owner).Nonempty := by
  unfold othersUnion
  rw [Finset.mem_biUnion]
  constructor
  · rintro ⟨o, ho, hp⟩
    exact ⟨o, Finset.mem_erase.mpr ⟨Finset.ne_of_mem_erase ho, mem_holders.mpr
      (mem_groupSet.mp hp)⟩⟩
  · rintro ⟨o, ho⟩
    have hm := mem_holders.mp (Finset.mem_of_mem_erase ho)
    exact ⟨o, Finset.mem_erase.mpr ⟨Finset.ne_of_mem_erase ho, mem_owners.mpr
      (hm.imp fun _ hg => hg.1)⟩, mem_groupSet.mpr hm⟩

/-- The union after an owner's group has been written. -/
theorem union_put {own own' : ExplicitOwnership} {owner : ExplicitOwner} {group : List Pubkey}
    (h : own'.groups = own.groups.insert owner group) :
    own'.union = group.toFinset ∪ own.othersUnion owner := by
  ext pubkey
  rw [mem_union_put h, Finset.mem_union, List.mem_toFinset, mem_othersUnion]

/-- The union after an owner has gone. -/
theorem union_drop {own own' : ExplicitOwnership} {owner : ExplicitOwner}
    (h : own'.groups = own.groups.erase owner) : own'.union = own.othersUnion owner := by
  ext pubkey
  rw [mem_union_drop h, mem_othersUnion]

theorem othersUnion_subset (own : ExplicitOwnership) (owner : ExplicitOwner) :
    own.othersUnion owner ⊆ own.union :=
  Finset.biUnion_subset_biUnion_of_subset_left _ (Finset.erase_subset _ _)

/-- Without a group the others hold everything. -/
theorem othersUnion_of_none {own : ExplicitOwnership} {owner : ExplicitOwner}
    (hl : own.groups.lookup owner = none) : own.othersUnion owner = own.union := by
  have hno : owner ∉ own.owners := by
    rw [mem_owners, hl]
    rintro ⟨_, hg⟩
    cases hg
  unfold othersUnion
  rw [Finset.erase_eq_of_notMem hno]
  rfl

section Reports

variable {own : ExplicitOwnership} {owner : ExplicitOwner} {group : List Pubkey}

/-- The pubkeys of a new group that nobody held, as what enters the union. -/
theorem listsExactly_absent {own' : ExplicitOwnership} (hnd : group.Nodup)
    (h : own'.groups = own.groups.insert owner group) :
    ListsExactly (own.absent group) (own'.union \ own.union) :=
  ⟨hnd.filter _, added_eq h⟩

theorem listsExactly_orphaned {own' : ExplicitOwnership} {old : List Pubkey} (hnd : old.Nodup)
    (hl : own.groups.lookup owner = some old)
    (h : own'.groups = own.groups.insert owner group) :
    ListsExactly (own.orphaned owner old group) (own.union \ own'.union) :=
  ⟨hnd.filter _, removed_eq hl h⟩

/-- The pubkeys of an owner that nobody else holds, as what its removal throws out. -/
theorem listsExactly_drop {own' : ExplicitOwnership} {old : List Pubkey} (hnd : old.Nodup)
    (hl : own.groups.lookup owner = some old) (h : own'.groups = own.groups.erase owner) :
    ListsExactly (own.orphaned owner old []) (own.union \ own'.union) := by
  refine ⟨hnd.filter _, ?_⟩
  ext pubkey
  unfold orphaned
  rw [List.mem_toFinset, List.mem_filter, decide_eq_true_eq, Finset.mem_sdiff, mem_union_drop h,
    Finset.not_nonempty_iff_eq_empty, mem_union_iff]
  constructor
  · rintro ⟨hm, he, _⟩
    exact ⟨⟨owner, mem_holders.mpr ⟨old, hl, hm⟩⟩, he⟩
  · rintro ⟨⟨o, ho⟩, he⟩
    have heq : o = owner := by
      by_contra hne
      exact Finset.ne_empty_of_mem (Finset.mem_erase.mpr ⟨hne, ho⟩) he
    subst heq
    obtain ⟨g, hg, hp⟩ := mem_holders.mp ho
    rw [hl] at hg
    cases hg
    exact ⟨hp, he, List.not_mem_nil⟩

end Reports

/-- The refcount of an owner's pubkey is one just when nobody else holds it. -/
theorem WellFormed.refcount_eq_one {own : ExplicitOwnership} (h : own.WellFormed)
    {owner : ExplicitOwner} {pubkey : Pubkey} (hm : owner ∈ own.holders pubkey) :
    own.ownerRefcount pubkey = 1 ↔ (own.holders pubkey).erase owner = ∅ := by
  have hcard := Finset.card_erase_of_mem hm
  have hpos := Finset.card_pos.mpr ⟨owner, hm⟩
  rw [h.ownerRefcount_eq, ← Finset.card_eq_zero]
  omega

/-- The new pubkeys that nobody holds. -/
def replaceAdded (own : ExplicitOwnership) (old new : List Pubkey) : List Pubkey :=
  new.filter fun pubkey => decide (pubkey ∉ old ∧ own.ownerRefcount pubkey = 0)

/-- The old pubkeys that only the owner holds. -/
def replaceRemoved (own : ExplicitOwnership) (old new : List Pubkey) : List Pubkey :=
  old.filter fun pubkey => decide (own.ownerRefcount pubkey = 1 ∧ pubkey ∉ new)

section Walk

variable (own : ExplicitOwnership) {k : Pubkey} {old new : List Pubkey}

theorem replaceAdded_old (hk : k ∉ new) :
    replaceAdded own (k :: old) new = replaceAdded own old new := by
  refine List.filter_congr fun pubkey hm => ?_
  have hne : pubkey ≠ k := fun he => hk (he ▸ hm)
  simp [hne]

theorem replaceAdded_new (hk : k ∉ old) :
    replaceAdded own old (k :: new) =
      if own.ownerRefcount k = 0 then k :: replaceAdded own old new
      else replaceAdded own old new := by
  unfold replaceAdded
  rw [List.filter_cons]
  by_cases hrc : own.ownerRefcount k = 0
  · rw [if_pos hrc, if_pos (decide_eq_true ⟨hk, hrc⟩)]
  · rw [if_neg hrc, if_neg (by simp [hrc])]

theorem replaceAdded_both :
    replaceAdded own (k :: old) (k :: new) = replaceAdded own (k :: old) new := by
  unfold replaceAdded
  rw [List.filter_cons, if_neg (by simp)]

theorem replaceRemoved_new (hk : k ∉ old) :
    replaceRemoved own old (k :: new) = replaceRemoved own old new := by
  refine List.filter_congr fun pubkey hm => ?_
  have hne : pubkey ≠ k := fun he => hk (he ▸ hm)
  simp [hne]

theorem replaceRemoved_old (hk : k ∉ new) :
    replaceRemoved own (k :: old) new =
      if own.ownerRefcount k = 1 then k :: replaceRemoved own old new
      else replaceRemoved own old new := by
  unfold replaceRemoved
  rw [List.filter_cons]
  by_cases hrc : own.ownerRefcount k = 1
  · rw [if_pos hrc, if_pos (decide_eq_true ⟨hrc, hk⟩)]
  · rw [if_neg hrc, if_neg (by simp [hrc])]

theorem replaceRemoved_both :
    replaceRemoved own (k :: old) (k :: new) = replaceRemoved own old (k :: new) := by
  unfold replaceRemoved
  rw [List.filter_cons, if_neg (by simp)]

/-- **The merge walk of two sorted lists.** -/
theorem replaceWalk_eq {fuel : Nat} (hold : old.Pairwise (· < ·)) (hnew : new.Pairwise (· < ·))
    (hfuel : old.length + new.length ≤ fuel) :
    FixedCapAdmission.replaceWalk own fuel old new =
      (replaceAdded own old new, replaceRemoved own old new) := by
  induction fuel generalizing old new with
  | zero =>
      have ho : old = [] := List.eq_nil_of_length_eq_zero (by omega)
      have hn : new = [] := List.eq_nil_of_length_eq_zero (by omega)
      rw [ho, hn]
      rfl
  | succ fuel ih =>
      -- an element below all of a list is not in it
      have hnotin : ∀ {k : Pubkey} {l : List Pubkey}, (∀ k' ∈ l, k < k') → k ∉ l :=
        fun h hm => lt_irrefl _ (h _ hm)
      cases old with
      | nil =>
          cases new with
          | nil => rfl
          | cons k new =>
              obtain ⟨_, hnew'⟩ := List.pairwise_cons.mp hnew
              rw [FixedCapAdmission.replaceWalk, ih hold hnew' (by simp at hfuel ⊢; omega),
                replaceAdded_new own List.not_mem_nil]
              split_ifs <;> rfl
      | cons k old =>
          obtain ⟨hk, hold'⟩ := List.pairwise_cons.mp hold
          cases new with
          | nil =>
              rw [FixedCapAdmission.replaceWalk, ih hold' hnew (by simp at hfuel ⊢; omega),
                replaceRemoved_old own List.not_mem_nil]
              split_ifs <;> rfl
          | cons k' new =>
              obtain ⟨hk', hnew'⟩ := List.pairwise_cons.mp hnew
              rw [FixedCapAdmission.replaceWalk]
              rcases lt_trichotomy k k' with hlt | rfl | hgt
              · have hout : k ∉ k' :: new := hnotin fun a ha => by
                  rcases List.mem_cons.mp ha with rfl | ha
                  · exact hlt
                  · exact hlt.trans (hk' a ha)
                rw [if_neg (ne_of_lt hlt), if_pos hlt, ih hold' hnew (by simp at hfuel ⊢; omega),
                  replaceAdded_old own hout, replaceRemoved_old own hout]
                split_ifs <;> rfl
              · rw [if_pos rfl, ih hold' hnew' (by simp at hfuel ⊢; omega), replaceAdded_both,
                  replaceAdded_old own (hnotin hk'), replaceRemoved_both,
                  replaceRemoved_new own (hnotin hk)]
              · have hout : k' ∉ k :: old := hnotin fun a ha => by
                  rcases List.mem_cons.mp ha with rfl | ha
                  · exact hgt
                  · exact hgt.trans (hk a ha)
                rw [if_neg (ne_of_gt hgt), if_neg (lt_asymm hgt),
                  ih hold hnew' (by simp at hfuel ⊢; omega), replaceAdded_new own hout,
                  replaceRemoved_new own hout]
                split_ifs <;> rfl

end Walk

end ExplicitOwnership

namespace ExplicitOwnership

section Upserts

variable {own : ExplicitOwnership} (h : own.WellFormed) {owner : ExplicitOwner}
  {pubkeys : List Pubkey}
include h

/-- The upsert that an insert commits. -/
theorem upsert_new (hne : normalizePubkeys pubkeys ≠ []) (hl : own.groups.lookup owner = none) :
    ∃ own', own.upsertGroup owner (normalizePubkeys pubkeys) =
        (.ok (.newGroup (own.absent (normalizePubkeys pubkeys))), own') ∧
      own'.WellFormed ∧ own'.groups = own.groups.insert owner (normalizePubkeys pubkeys) := by
  have hnorm : normalizePubkeys (normalizePubkeys pubkeys) ≠ [] := by
    rw [normalizePubkeys_normalizePubkeys]
    exact hne
  have hres := upsertGroup_new h hnorm hl
  have hgroups := groups_upsertGroup own owner hnorm
  rw [normalizePubkeys_normalizePubkeys] at hres hgroups
  exact ⟨_, Prod.ext hres rfl, wellFormed_upsertGroup h owner _, hgroups⟩

/-- The upsert that a replacement commits. -/
theorem upsert_replaced {old : List Pubkey} (hne : normalizePubkeys pubkeys ≠ [])
    (hl : own.groups.lookup owner = some old) (hold : old ≠ normalizePubkeys pubkeys) :
    ∃ own', own.upsertGroup owner (normalizePubkeys pubkeys) =
        (.ok (.replaced (own.absent (normalizePubkeys pubkeys))
          (own.orphaned owner old (normalizePubkeys pubkeys))), own') ∧
      own'.WellFormed ∧ own'.groups = own.groups.insert owner (normalizePubkeys pubkeys) := by
  have hnorm : normalizePubkeys (normalizePubkeys pubkeys) ≠ [] := by
    rw [normalizePubkeys_normalizePubkeys]
    exact hne
  have hold' : old ≠ normalizePubkeys (normalizePubkeys pubkeys) := by
    rw [normalizePubkeys_normalizePubkeys]
    exact hold
  have hres := upsertGroup_replaced h hnorm hl hold'
  have hgroups := groups_upsertGroup own owner hnorm
  rw [normalizePubkeys_normalizePubkeys] at hres hgroups
  exact ⟨_, Prod.ext hres rfl, wellFormed_upsertGroup h owner _, hgroups⟩

/-- The removal of an owner. -/
theorem removal {old : List Pubkey} (hl : own.groups.lookup owner = some old) :
    ∃ own', own.removeGroup owner = (some (.fromOwner owner old), own') ∧ own'.WellFormed ∧
      own'.groups = own.groups.erase owner := by
  have hfst : (own.removeGroup owner).1 = some (.fromOwner owner old) := by
    unfold removeGroup
    rw [hl]
  exact ⟨_, Prod.ext hfst rfl, wellFormed_removeGroup h owner, groups_removeGroup own owner⟩

end Upserts

end ExplicitOwnership

/-! ## 2. What the plans compute -/

namespace FixedCapAdmission

/-- The pubkeys with refcount one are those that nobody else holds. -/
theorem removed_of_refcounts {own : ExplicitOwnership} (h : own.WellFormed)
    {owner : ExplicitOwner} {old : List Pubkey} (hl : own.groups.lookup owner = some old) :
    ((old.map fun pubkey => (pubkey, own.ownerRefcount pubkey)).filter fun e =>
      decide (e.2 = 1)).map Prod.fst = own.orphaned owner old [] := by
  rw [List.filter_map, List.map_map]
  refine (List.map_id _).trans (List.filter_congr fun pubkey hm => decide_eq_decide.mpr ?_)
  show own.ownerRefcount pubkey = 1 ↔ _
  rw [h.refcount_eq_one (mem_holders.mpr ⟨old, hl, hm⟩)]
  exact (and_iff_left List.not_mem_nil).symm

section Plans

variable {adm : FixedCapAdmission} (h : adm.Inv)
include h

omit h in
theorem card_absent {group : List Pubkey} (hnd : group.Nodup) :
    (adm.ownership.absent group).length = (group.toFinset \ adm.ownership.union).card := by
  have hset : (adm.ownership.absent group).toFinset = group.toFinset \ adm.ownership.union := by
    ext pubkey
    unfold absent
    rw [List.mem_toFinset, List.mem_filter, decide_eq_true_eq, Finset.mem_sdiff, List.mem_toFinset]
  have hnd' : (adm.ownership.absent group).Nodup := hnd.filter _
  rw [← hset, List.toFinset_card_of_nodup hnd']

/-- **The insert plan**: the demand with the new group against the cap. -/
theorem planInsert_eq {group : List Pubkey} (hnd : group.Nodup) :
    adm.planInsert group =
      if adm.cap < (adm.ownership.union ∪ group.toFinset).card then
        .rejectCap (adm.ownership.absent group).length (adm.cap - adm.physicalLen)
      else
        .ready ⟨adm.physicalLen, (adm.ownership.union ∪ group.toFinset).card,
          adm.ownership.absent group⟩ := by
  have hdemand : adm.physicalLen + (adm.ownership.absent group).length =
      (adm.ownership.union ∪ group.toFinset).card := by
    rw [h.len, card_absent hnd]
    exact card_union_add _
  have hfits := h.fits
  unfold planInsert
  dsimp only
  rw [h.wellFormed.filter_refcount, hdemand]
  by_cases hover : adm.cap < (adm.ownership.union ∪ group.toFinset).card
  · rw [if_pos (by omega), if_pos hover]
  · rw [if_neg (by omega), if_neg hover, if_neg hover]

/-- The sizes before and after a write, by what comes and what goes. -/
theorem len_after {own' : ExplicitOwnership} {added removed : List Pubkey}
    (hadded : ListsExactly added (own'.union \ adm.ownership.union))
    (hremoved : ListsExactly removed (adm.ownership.union \ own'.union)) :
    adm.physicalLen + added.length = own'.union.card + removed.length := by
  rw [h.len, hadded.length, hremoved.length, Nat.add_comm, Finset.card_sdiff_add_card,
    Nat.add_comm own'.union.card, Finset.card_sdiff_add_card, Finset.union_comm]

/-- **The replace plan**: the union after the write against the cap. -/
theorem planReplace_eq {owner : ExplicitOwner} {old group : List Pubkey}
    {own' : ExplicitOwnership} (hl : adm.ownership.groups.lookup owner = some old)
    (hs : group.Pairwise (· < ·)) (hne : old ≠ group)
    (hgroups : own'.groups = adm.ownership.groups.insert owner group) :
    adm.planReplace old group =
      if adm.cap < own'.union.card then
        .rejectCap (adm.ownership.absent group).length
          (adm.cap - adm.physicalLen + (adm.ownership.orphaned owner old group).length)
      else
        .ready ⟨adm.physicalLen, own'.union.card, old, adm.ownership.absent group,
          adm.ownership.orphaned owner old group⟩ := by
  have hsold := h.wellFormed.sorted owner old hl
  have hnd := SortedList.nodup_of_pairwise hs
  have hndold := SortedList.nodup_of_pairwise hsold
  -- in terms of the holders, the walk's two lists
  have hadded : adm.ownership.replaceAdded old group = adm.ownership.absent group := by
    refine List.filter_congr fun pubkey _ => decide_eq_decide.mpr ?_
    rw [h.wellFormed.ownerRefcount_eq_zero]
    exact and_iff_right_of_imp fun hno hm => hno (mem_union.mpr ⟨owner, old, hl, hm⟩)
  have hremoved : adm.ownership.replaceRemoved old group =
      adm.ownership.orphaned owner old group := by
    refine List.filter_congr fun pubkey hm => decide_eq_decide.mpr ?_
    rw [h.wellFormed.refcount_eq_one (mem_holders.mpr ⟨old, hl, hm⟩)]
  have hwalk := replaceWalk_eq adm.ownership hsold hs (le_refl _)
  rw [hadded, hremoved] at hwalk
  have hafter := len_after h (listsExactly_absent hnd hgroups)
    (listsExactly_orphaned hndold hl hgroups)
  have hfits := h.fits
  have hsub : (adm.ownership.orphaned owner old group).length ≤ adm.physicalLen := by
    rw [(listsExactly_orphaned hndold hl hgroups).length, h.len]
    exact Finset.card_le_card Finset.sdiff_subset
  unfold planReplace
  rw [if_neg hne, hwalk]
  dsimp only
  have hlen : adm.physicalLen - (adm.ownership.orphaned owner old group).length +
      (adm.ownership.absent group).length = own'.union.card := by omega
  rw [if_neg (Nat.not_lt.mpr hsub), hlen]
  by_cases hover : adm.cap < own'.union.card
  · rw [if_pos (by omega), if_pos hover]
  · rw [if_neg (by omega), if_neg hover, if_neg hover]

/-- The refcounts that a removal plan remembers. -/
theorem planRemove_eq {owner : ExplicitOwner} {old : List Pubkey} {own' : ExplicitOwnership}
    (hl : adm.ownership.groups.lookup owner = some old)
    (hgroups : own'.groups = adm.ownership.groups.erase owner) :
    adm.planRemove old = .ready ⟨adm.physicalLen, own'.union.card, old,
      adm.ownership.orphaned owner old [],
      old.map fun pubkey => (pubkey, adm.ownership.ownerRefcount pubkey)⟩ := by
  have hndold := SortedList.nodup_of_pairwise (h.wellFormed.sorted owner old hl)
  have hheld : ∀ pubkey ∈ old, owner ∈ adm.ownership.holders pubkey :=
    fun pubkey hm => mem_holders.mpr ⟨old, hl, hm⟩
  have hpos : ¬ ((old.map fun pubkey => (pubkey, adm.ownership.ownerRefcount pubkey)).any fun e =>
      decide (e.2 = 0)) = true := by
    rw [List.any_eq_true]
    rintro ⟨e, he, h0⟩
    obtain ⟨pubkey, hm, rfl⟩ := List.mem_map.mp he
    have h0 := of_decide_eq_true h0
    rw [h.wellFormed.ownerRefcount_eq_zero, mem_union_iff] at h0
    exact h0 ⟨owner, hheld pubkey hm⟩
  have hremoved := removed_of_refcounts h.wellFormed hl
  have hexact := listsExactly_drop hndold hl hgroups
  have hsub : own'.union ⊆ adm.ownership.union := by
    rw [union_drop hgroups]
    exact othersUnion_subset _ _
  have hlen : adm.physicalLen - (adm.ownership.orphaned owner old []).length =
      own'.union.card := by
    rw [hexact.length, h.len, Finset.card_sdiff_of_subset hsub]
    have hle := Finset.card_le_card hsub
    omega
  have hle : (adm.ownership.orphaned owner old []).length ≤ adm.physicalLen := by
    rw [hexact.length, h.len]
    exact Finset.card_le_card Finset.sdiff_subset
  unfold planRemove
  dsimp only
  rw [if_neg hpos, hremoved, if_neg (Nat.not_lt.mpr hle), hlen]

end Plans

/-- **The store after a removal is the planned one.** -/
theorem removedGroupMatchesPlan_ok {own own' : ExplicitOwnership} (h : own.WellFormed)
    (h' : own'.WellFormed) {owner : ExplicitOwner} {old : List Pubkey} {preLen len : Nat}
    (hl : own.groups.lookup owner = some old) (hgroups : own'.groups = own.groups.erase owner) :
    removedGroupMatchesPlan (some (.fromOwner owner old)) owner
      ⟨preLen, len, old, own.orphaned owner old [],
        old.map fun pubkey => (pubkey, own.ownerRefcount pubkey)⟩
      (own.orphaned owner old []) own' = true := by
  have hheld : ∀ pubkey ∈ old, owner ∈ own.holders pubkey :=
    fun pubkey hm => mem_holders.mpr ⟨old, hl, hm⟩
  have hgone : (own'.ownerGroup owner).isNone = true := by
    unfold ExplicitOwnership.ownerGroup
    rw [hgroups, SortedMap.lookup_erase_self]
    rfl
  have hcounts : ((old.map fun pubkey => (pubkey, own.ownerRefcount pubkey)).all fun e =>
      decide (1 ≤ e.2) && decide (own'.ownerRefcount e.1 = e.2 - 1)) = true := by
    rw [List.all_eq_true]
    intro e he
    obtain ⟨pubkey, hm, rfl⟩ := List.mem_map.mp he
    have hcard := Finset.card_erase_of_mem (hheld pubkey hm)
    have hpos := Finset.card_pos.mpr ⟨owner, hheld pubkey hm⟩
    rw [Bool.and_eq_true, decide_eq_true_eq, decide_eq_true_eq, h.ownerRefcount_eq,
      h'.ownerRefcount_eq, holders_drop hgroups]
    exact ⟨hpos, hcard⟩
  have hremoved : ((old.map fun pubkey => (pubkey, own.ownerRefcount pubkey)).filter fun e =>
      decide (e.2 = 1)).map Prod.fst = own.orphaned owner old [] := removed_of_refcounts h hl
  unfold removedGroupMatchesPlan
  dsimp only
  rw [hgone, hcounts, hremoved]
  simp [OwnerGroupSnapshot.owner, OwnerGroupSnapshot.fromOwner]

/-! ## 3. What each operation does -/

/-- A touch makes the owner the newest. -/
def TouchExact (adm : FixedCapAdmission) (owner : ExplicitOwner) :
    TouchResult → FixedCapAdmission → Prop
  | .touched, adm' => (∃ group, adm.ownership.groups.lookup owner = some group) ∧ adm'.Inv ∧
      adm'.book = adm.book.touch owner
  | .notFound, adm' => adm.ownership.groups.lookup owner = none ∧ adm' = adm
  | .internalInvariantViolation, adm' => ¬ adm.HasRoom ∧ adm' = adm

/-- The group of a new owner is in, and nobody had to go. -/
structure Admits (adm : FixedCapAdmission) (owner : ExplicitOwner) (pubkeys : List Pubkey)
    (adm' : FixedCapAdmission) : Prop where
  nonempty : pubkeys ≠ []
  absent : adm.ownership.groups.lookup owner = none
  demand : (adm.ownership.union ∪ pubkeys.toFinset).card ≤ adm.cap
  inv : adm'.Inv
  book : adm'.book = adm.book.put owner (normalizePubkeys pubkeys)
  union : adm'.ownership.union = adm.ownership.union ∪ pubkeys.toFinset

/-- What an insert's result means. -/
def AdmitExact (adm : FixedCapAdmission) (owner : ExplicitOwner) (pubkeys : List Pubkey) :
    FixedCapAdmissionResult → FixedCapAdmission → Prop
  | .inserted physicalAdded, adm' => adm.Admits owner pubkeys adm' ∧
      ListsExactly physicalAdded (adm'.ownership.union \ adm.ownership.union)
  | .ownerAddedNoNewPubkey, adm' => adm.Admits owner pubkeys adm' ∧
      adm'.ownership.union = adm.ownership.union
  | .rejectedCap requiredUnique availableUnique, adm' => pubkeys ≠ [] ∧
      adm.ownership.groups.lookup owner = none ∧
      adm.cap < (adm.ownership.union ∪ pubkeys.toFinset).card ∧
      requiredUnique = (pubkeys.toFinset \ adm.ownership.union).card ∧
      availableUnique = adm.cap - adm.ownership.union.card ∧ adm' = adm
  | .rejectedInvalidGroup, adm' => pubkeys = [] ∧ adm' = adm
  | .rejectedExistingOwner, adm' =>
      (∃ group, adm.ownership.groups.lookup owner = some group) ∧ adm' = adm
  | .internalInvariantViolation, adm' => ¬ adm.HasRoom ∧ adm' = adm

/-- What a replacement's result means. -/
def ReplaceExact (adm : FixedCapAdmission) (owner : ExplicitOwner) (pubkeys : List Pubkey) :
    FixedCapReplaceResult → FixedCapAdmission → Prop
  | .replaced physicalAdded physicalRemoved, adm' => pubkeys ≠ [] ∧
      (∃ old, adm.ownership.groups.lookup owner = some old ∧ old ≠ normalizePubkeys pubkeys) ∧
      (pubkeys.toFinset ∪ adm.ownership.othersUnion owner).card ≤ adm.cap ∧
      adm'.Inv ∧ adm'.book = adm.book.put owner (normalizePubkeys pubkeys) ∧
      ListsExactly physicalAdded (adm'.ownership.union \ adm.ownership.union) ∧
      ListsExactly physicalRemoved (adm.ownership.union \ adm'.ownership.union)
  | .unchanged, adm' => pubkeys ≠ [] ∧
      adm.ownership.groups.lookup owner = some (normalizePubkeys pubkeys) ∧ adm' = adm
  | .rejectedCap _ _, adm' => pubkeys ≠ [] ∧
      (∃ old, adm.ownership.groups.lookup owner = some old ∧ old ≠ normalizePubkeys pubkeys) ∧
      adm.cap < (pubkeys.toFinset ∪ adm.ownership.othersUnion owner).card ∧ adm' = adm
  | .rejectedInvalidGroup, adm' => pubkeys = [] ∧ adm' = adm
  | .rejectedMissingOwner, adm' => adm.ownership.groups.lookup owner = none ∧ adm' = adm
  | .planningInvariantViolation, adm' => ¬ adm.HasRoom ∧ adm' = adm
  | .internalInvariantViolation _, _ => False

/-- What a removal's result means. -/
def RemoveExact (adm : FixedCapAdmission) (owner : ExplicitOwner) :
    FixedCapRemoveResult → FixedCapAdmission → Prop
  | .removed physicalRemoved, adm' =>
      (∃ group, adm.ownership.groups.lookup owner = some group) ∧ adm' = adm.dropAll [owner] ∧
      ListsExactly physicalRemoved (adm.ownership.union \ adm'.ownership.union)
  | .notFound, adm' => adm.ownership.groups.lookup owner = none ∧ adm' = adm
  | .planningInvariantViolation, _ => False
  | .internalInvariantViolation _, _ => False

section Specs

variable {adm : FixedCapAdmission} (h : adm.Inv) (owner : ExplicitOwner)
include h

/-- **A touch.** -/
theorem touchGroup_spec :
    TouchExact adm owner (adm.touchGroup owner).1 (adm.touchGroup owner).2 := by
  unfold touchGroup ExplicitOwnership.ownerGroup
  cases hl : adm.ownership.groups.lookup owner with
  | none => exact ⟨hl, rfl⟩
  | some group =>
      obtain ⟨stamp, hs⟩ := h.exists_stamp hl
      dsimp only
      rw [hs]
      rcases planStampAssign_spec h.stamped h.bounded owner with
        ⟨plan, hp, hplan⟩ | ⟨⟨e, hp⟩, hroom⟩
      · rw [hp]
        have hmem : owner ∈ adm.ownerLru.keys := (h.owners_iff owner).mpr ⟨group, hl⟩
        obtain ⟨hinv, hbook⟩ := h.touch hmem hplan
        exact ⟨⟨group, hl⟩, hinv, hbook⟩
      · rw [hp]
        exact ⟨hroom, rfl⟩

/-- **An insert.** -/
theorem tryAdmitNewGroup_spec (pubkeys : List Pubkey) :
    AdmitExact adm owner pubkeys (adm.tryAdmitNewGroup owner pubkeys).1
      (adm.tryAdmitNewGroup owner pubkeys).2 := by
  unfold tryAdmitNewGroup ExplicitOwnership.ownerGroup
  dsimp only
  by_cases hnil : normalizePubkeys pubkeys = []
  · rw [if_pos hnil]
    exact ⟨normalizePubkeys_eq_nil.mp hnil, rfl⟩
  have hne : pubkeys ≠ [] := fun he => hnil (normalizePubkeys_eq_nil.mpr he)
  rw [if_neg hnil]
  cases hl : adm.ownership.groups.lookup owner with
  | some group => exact ⟨⟨group, hl⟩, rfl⟩
  | none =>
      have hnd := nodup_normalizePubkeys pubkeys
      have hset : (normalizePubkeys pubkeys).toFinset = pubkeys.toFinset :=
        SortedList.toFinset_normalize _
      rw [if_neg (by simp), planInsert_eq h hnd, hset]
      by_cases hover : adm.cap < (adm.ownership.union ∪ pubkeys.toFinset).card
      · rw [if_pos hover]
        refine ⟨hne, hl, hover, ?_, ?_, rfl⟩
        · rw [card_absent hnd, hset]
        · rw [h.len]
      rw [if_neg hover]
      dsimp only
      rcases planStampAssign_spec h.stamped h.bounded owner with
        ⟨plan, hp, hplan⟩ | ⟨⟨e, hp⟩, hroom⟩
      · rw [hp]
        dsimp only
        obtain ⟨own', hup, hwf, hgroups⟩ := upsert_new h.wellFormed hnil hl
        rw [hup]
        dsimp only
        have hunion := union_put_new hl hgroups
        rw [hset] at hunion
        have hcard : (adm.ownership.union ∪ pubkeys.toFinset).card = own'.union.card := by
          rw [hunion]
        obtain ⟨hinv, hbook⟩ := h.put hwf hgroups hplan hcard (Nat.not_lt.mp hover)
        have hadm : adm.Admits owner pubkeys
            (adm.commit own' plan (adm.ownership.union ∪ pubkeys.toFinset).card) :=
          ⟨hne, hl, Nat.not_lt.mp hover, hinv, hbook, hunion⟩
        have hexact := listsExactly_absent hnd hgroups
        have hmatch : newGroupMatchesPlan
            (.newGroup (adm.ownership.absent (normalizePubkeys pubkeys)))
            (adm.ownership.absent (normalizePubkeys pubkeys)) = true := decide_eq_true rfl
        rw [if_pos hmatch]
        by_cases hemp : adm.ownership.absent (normalizePubkeys pubkeys) = []
        · rw [if_pos hemp]
          refine ⟨hadm, Finset.Subset.antisymm ?_ (union_subset_put hl hgroups)⟩
          rw [← Finset.sdiff_eq_empty_iff_subset]
          exact (hexact.2).symm.trans (by rw [hemp]; rfl)
        · rw [if_neg hemp]
          exact ⟨hadm, hexact⟩
      · rw [hp]
        exact ⟨hroom, rfl⟩

/-- **A replacement.** -/
theorem tryReplaceGroup_spec (pubkeys : List Pubkey) :
    ReplaceExact adm owner pubkeys (adm.tryReplaceGroup owner pubkeys).1
      (adm.tryReplaceGroup owner pubkeys).2 := by
  unfold tryReplaceGroup ExplicitOwnership.ownerGroup
  dsimp only
  by_cases hnil : normalizePubkeys pubkeys = []
  · rw [if_pos hnil]
    exact ⟨normalizePubkeys_eq_nil.mp hnil, rfl⟩
  have hne : pubkeys ≠ [] := fun he => hnil (normalizePubkeys_eq_nil.mpr he)
  rw [if_neg hnil]
  cases hl : adm.ownership.groups.lookup owner with
  | none => exact ⟨hl, rfl⟩
  | some old =>
      obtain ⟨stamp, hs⟩ := h.exists_stamp hl
      unfold requiredExistingStamp
      dsimp only
      rw [hs]
      dsimp only
      by_cases hold : old = normalizePubkeys pubkeys
      · rw [if_pos hold]
        exact ⟨hne, by rw [hl, hold], rfl⟩
      rw [if_neg hold]
      have hset : (normalizePubkeys pubkeys).toFinset = pubkeys.toFinset :=
        SortedList.toFinset_normalize _
      obtain ⟨own', hup, hwf, hgroups⟩ := upsert_replaced h.wellFormed hnil hl hold
      have hunion := union_put hgroups
      rw [hset] at hunion
      rw [planReplace_eq h hl (pairwise_normalizePubkeys pubkeys) hold hgroups, hunion]
      by_cases hover : adm.cap < (pubkeys.toFinset ∪ adm.ownership.othersUnion owner).card
      · rw [if_pos hover]
        exact ⟨hne, ⟨old, hl, hold⟩, hover, rfl⟩
      rw [if_neg hover]
      dsimp only
      rcases planStampAssign_spec h.stamped h.bounded owner with
        ⟨plan, hp, hplan⟩ | ⟨⟨e, hp⟩, hroom⟩
      · rw [hp]
        dsimp only
        rw [hup]
        dsimp only
        have hcard : (pubkeys.toFinset ∪ adm.ownership.othersUnion owner).card =
            own'.union.card := by
          rw [hunion]
        obtain ⟨hinv, hbook⟩ := h.put hwf hgroups hplan hcard (Nat.not_lt.mp hover)
        have hndold := SortedList.nodup_of_pairwise (h.wellFormed.sorted owner old hl)
        have hmatch : replacedGroupMatchesPlan
            (.replaced (adm.ownership.absent (normalizePubkeys pubkeys))
              (adm.ownership.orphaned owner old (normalizePubkeys pubkeys)))
            (adm.ownership.absent (normalizePubkeys pubkeys))
            (adm.ownership.orphaned owner old (normalizePubkeys pubkeys)) = true := by
          unfold replacedGroupMatchesPlan
          dsimp only
          rw [decide_eq_true rfl, decide_eq_true rfl]
          rfl
        rw [if_pos hmatch]
        exact ⟨hne, ⟨old, hl, hold⟩, Nat.not_lt.mp hover, hinv, hbook,
          listsExactly_absent (nodup_normalizePubkeys pubkeys) hgroups,
          listsExactly_orphaned hndold hl hgroups⟩
      · rw [hp]
        exact ⟨hroom, rfl⟩

/-- **A removal.** -/
theorem removeGroup_spec :
    RemoveExact adm owner (adm.removeGroup owner).1 (adm.removeGroup owner).2 := by
  unfold removeGroup ExplicitOwnership.ownerGroup
  cases hl : adm.ownership.groups.lookup owner with
  | none => exact ⟨hl, rfl⟩
  | some old =>
      obtain ⟨stamp, hs⟩ := h.exists_stamp hl
      unfold requiredExistingStamp
      dsimp only
      rw [hs]
      dsimp only
      obtain ⟨own', hrem, hwf, hgroups⟩ := removal h.wellFormed hl
      have hall : adm.ownership.removeAll [owner] = own' := congrArg Prod.snd hrem
      rw [planRemove_eq h hl hgroups, hrem]
      dsimp only
      have hndold := SortedList.nodup_of_pairwise (h.wellFormed.sorted owner old hl)
      rw [if_pos (removedGroupMatchesPlan_ok h.wellFormed hwf hl hgroups)]
      refine ⟨⟨old, hl⟩, ?_, listsExactly_drop hndold hl hgroups⟩
      unfold dropAll applyStampPlan planStampRemove
      rw [hall]
      rfl

end Specs

end FixedCapAdmission

end IronCrab.Track

/-
  File:      IronCrab/Track/AdmissionInvariant.lean
  Subject:   THE INVARIANT OF ADMISSION AND WHAT A STATE MEANS.

  `Inv` ties the four redundant structures together: the store is well-formed, `physicalLen` is
  the size of its union and at most the cap, and every owner has one stamp, below the next one.
  `book` is what the state means: the cap, the groups, and the owners in the order they were last
  inserted, replaced or touched.

  * `planStampAssign_spec` -- a stamp plan keeps its promises, or no stamp is left (`StampRoom`);
  * `Inv.put`, `Inv.touch`, `Inv.drop` -- the three ways a state changes.
-/
import IronCrab.Track.Admission

namespace IronCrab.Track

open ExplicitOwnership

/-! ## 1. Stamps -/

/-- There are stamps left: after the owners are numbered anew there are two more. -/
def StampRoom (ownerLru : OwnerLru) (nextTouchStamp : Nat) : Prop :=
  nextTouchStamp = u64Max → ownerLru.len + 2 ≤ u64Max

theorem checkedAdd_eq_some {a b : Nat} (h : a + b ≤ u64Max) : checkedAdd a b = some (a + b) :=
  if_pos h

theorem checkedAdd_eq_none {a b : Nat} (h : ¬ a + b ≤ u64Max) : checkedAdd a b = none := if_neg h

theorem renormalizeLoop_eq {rank : Nat} (hr : rank ≤ u64Max) (m : OwnerLru)
    (owners : List ExplicitOwner) : renormalizeLoop rank m owners =
      if rank + owners.length ≤ u64Max then .ok (Recency.ranks rank m owners)
      else .error .overflow := by
  induction owners generalizing rank m with
  | nil => exact (if_pos hr).symm
  | cons owner owners ih =>
      rw [renormalizeLoop]
      by_cases hlt : rank + 1 ≤ u64Max
      · have hlen : rank + (owner :: owners).length = rank + 1 + owners.length := by
          rw [List.length_cons]
          omega
        rw [checkedAdd_eq_some hlt, hlen]
        exact ih hlt _
      · rw [checkedAdd_eq_none hlt, if_neg]
        rw [List.length_cons]
        omega

theorem length_order (lru : OwnerLru) : (Recency.order lru).length = lru.len := by
  unfold Recency.order SortedMap.len
  rw [List.length_map, List.length_insertionSort]

/-- The stamps numbered anew: as many as there are owners, in the same order. -/
theorem renormalizeStampsFallible_eq (lru : OwnerLru) :
    renormalizeStampsFallible lru =
      if lru.len ≤ u64Max then .ok (Recency.ranks 0 .empty (Recency.order lru))
      else .error .overflow := by
  unfold renormalizeStampsFallible
  by_cases h0 : lru.len = 0
  · have hnil : Recency.order lru = [] :=
      List.eq_nil_of_length_eq_zero ((length_order lru).trans h0)
    rw [if_pos h0, if_pos (by omega), hnil]
    rfl
  · rw [if_neg h0, renormalizeLoop_eq (Nat.zero_le _), Nat.zero_add, length_order]

/-- **What a stamp plan for an owner promises.** -/
structure StampPlanned (lru : OwnerLru) (next : Nat) (owner : ExplicitOwner) (plan : StampPlan) :
    Prop where
  keys : ∀ o, o ∈ plan.ownerLru.keys ↔ o = owner ∨ o ∈ lru.keys
  stamped : Recency.Stamped plan.ownerLru plan.nextTouchStamp
  bounded : plan.nextTouchStamp ≤ u64Max
  order : Recency.order plan.ownerLru =
    ((Recency.order lru).filter fun o => decide (o ≠ owner)) ++ [owner]
  /-- The owner's stamp is the newest. -/
  newest : ∃ stamp, plan.ownerLru.lookup owner = some stamp ∧ plan.nextTouchStamp = stamp + 1
  /-- The other stamps stay unless they had to be numbered anew. -/
  others : next ≠ u64Max → ∀ o, o ≠ owner → plan.ownerLru.lookup o = lru.lookup o

/-- The base a stamp is given on: the same order, and a stamp above all. -/
theorem prepareStampBase_spec {lru : OwnerLru} {next : Nat} (h : Recency.Stamped lru next) :
    (∃ map assign, prepareStampBase lru next = .ok (map, assign) ∧
      Recency.Stamped map assign ∧ Recency.order map = Recency.order lru ∧
      (next ≠ u64Max → map = lru ∧ assign = next) ∧
      (next = u64Max → assign = lru.len + 1)) ∨
    (∃ e, prepareStampBase lru next = .error e) ∧ ¬ StampRoom lru next := by
  unfold prepareStampBase
  by_cases hmax : next = u64Max
  · rw [if_pos hmax, renormalizeStampsFallible_eq]
    have hnd := Recency.nodup_order h
    have horder : Recency.order (Recency.ranks 0 .empty (Recency.order lru)) =
        Recency.order lru := by
      refine (Recency.order_ranks (Recency.stamped_empty 1) hnd fun k _ => ?_).trans ?_
      · exact List.not_mem_nil
      · exact List.nil_append _
    have hstamped : Recency.Stamped (Recency.ranks 0 .empty (Recency.order lru))
        (lru.len + 1) := by
      have hr := Recency.stamped_ranks (n := 0) (Recency.stamped_empty 1) (Recency.order lru)
      rw [length_order, Nat.zero_add] at hr
      exact hr
    have hlen : (Recency.ranks 0 .empty (Recency.order lru)).len = lru.len := by
      rw [← length_order, horder, length_order]
    by_cases hfits : lru.len ≤ u64Max
    · rw [if_pos hfits]
      dsimp only
      rw [hlen]
      by_cases hroom : lru.len + 1 ≤ u64Max
      · rw [checkedAdd_eq_some hroom]
        exact .inl ⟨_, _, rfl, hstamped, horder, fun hne => absurd hmax hne, fun _ => rfl⟩
      · rw [checkedAdd_eq_none hroom]
        refine .inr ⟨⟨_, rfl⟩, fun hr => ?_⟩
        have hspace := hr hmax
        omega
    · rw [if_neg hfits]
      refine .inr ⟨⟨_, rfl⟩, fun hr => ?_⟩
      have hspace := hr hmax
      omega
  · rw [if_neg hmax]
    exact .inl ⟨lru, next, rfl, h, rfl, fun _ => ⟨rfl, rfl⟩, fun he => absurd he hmax⟩

/-- **A stamp plan keeps its promises, or no stamp is left.** -/
theorem planStampAssign_spec {lru : OwnerLru} {next : Nat} (h : Recency.Stamped lru next)
    (hb : next ≤ u64Max) (owner : ExplicitOwner) :
    (∃ plan, planStampAssign lru next owner = .ok plan ∧ StampPlanned lru next owner plan) ∨
    (∃ e, planStampAssign lru next owner = .error e) ∧ ¬ StampRoom lru next := by
  unfold planStampAssign
  rcases prepareStampBase_spec h with ⟨map, assign, hp, hstamped, horder, hkeep, hnew⟩ |
    ⟨⟨e, hp⟩, hroom⟩
  · rw [hp]
    dsimp only
    by_cases hadd : assign + 1 ≤ u64Max
    · rw [checkedAdd_eq_some hadd]
      refine .inl ⟨_, rfl, ?_⟩
      exact {
        keys := by
          intro o
          rw [SortedMap.mem_keys_insert, ← Recency.mem_order (m := map), horder,
            Recency.mem_order]
        stamped := Recency.stamped_insert hstamped owner
        bounded := hadd
        order := by rw [Recency.order_insert hstamped, horder]
        newest := ⟨assign, SortedMap.lookup_insert_self .., rfl⟩
        others := by
          intro hne o ho
          rw [SortedMap.lookup_insert_ne _ ho, (hkeep hne).1] }
    · rw [checkedAdd_eq_none hadd]
      refine .inr ⟨⟨_, rfl⟩, fun hroom => ?_⟩
      by_cases hmax : next = u64Max
      · have hspace := hroom hmax
        have hassign := hnew hmax
        omega
      · have hassign := (hkeep hmax).2
        omega
  · rw [hp]
    exact .inr ⟨⟨e, rfl⟩, hroom⟩

/-! ## 2. The book -/

/-- **What an admission state means**: the cap, the groups, and the owners in the order they were
    last inserted, replaced or touched. -/
structure Book where
  cap : Nat
  groups : SortedMap ExplicitOwner (List Pubkey)
  recency : List ExplicitOwner

namespace Book

/-- The owner is the newest. -/
def touch (b : Book) (owner : ExplicitOwner) : Book :=
  { b with recency := (b.recency.filter fun o => decide (o ≠ owner)) ++ [owner] }

/-- The owner holds this group and is the newest. -/
def put (b : Book) (owner : ExplicitOwner) (group : List Pubkey) : Book :=
  { b.touch owner with groups := b.groups.insert owner group }

/-- These owners are gone. -/
def drop (b : Book) (victims : List ExplicitOwner) : Book :=
  { b with
    groups := b.groups.retain fun o _ => decide (o ∉ victims)
    recency := b.recency.filter fun o => decide (o ∉ victims) }

end Book

namespace FixedCapAdmission

/-- The owners, least recently inserted, replaced or touched first. -/
def recency (adm : FixedCapAdmission) : List ExplicitOwner := Recency.order adm.ownerLru

/-- The book of a state. -/
def book (adm : FixedCapAdmission) : Book := ⟨adm.cap, adm.ownership.groups, adm.recency⟩

/-- **The four structures agree.** -/
structure Inv (adm : FixedCapAdmission) : Prop where
  wellFormed : adm.ownership.WellFormed
  len : adm.physicalLen = adm.ownership.union.card
  fits : adm.physicalLen ≤ adm.cap
  /-- One stamp for each owner. -/
  owners : ∀ owner, owner ∈ adm.ownerLru.keys ↔ owner ∈ adm.ownership.groups.keys
  stamped : Recency.Stamped adm.ownerLru adm.nextTouchStamp
  bounded : adm.nextTouchStamp ≤ u64Max

/-- A stamp can be given. -/
def HasRoom (adm : FixedCapAdmission) : Prop := StampRoom adm.ownerLru adm.nextTouchStamp

theorem inv_new (cap : Nat) {next : Nat} (hn : next ≤ u64Max) :
    Inv { new cap with nextTouchStamp := next } where
  wellFormed := wellFormed_new
  len := rfl
  fits := Nat.zero_le _
  owners := fun _ => Iff.rfl
  stamped := Recency.stamped_empty next
  bounded := hn

theorem inv_clearForRestore (adm : FixedCapAdmission) : adm.clearForRestore.Inv :=
  inv_new adm.cap (by decide)

theorem Inv.owners_iff {adm : FixedCapAdmission} (h : adm.Inv) (owner : ExplicitOwner) :
    owner ∈ adm.ownerLru.keys ↔ ∃ group, adm.ownership.groups.lookup owner = some group := by
  rw [h.owners, SortedMap.mem_keys]

/-- An owner with a group has a stamp. -/
theorem Inv.exists_stamp {adm : FixedCapAdmission} (h : adm.Inv) {owner : ExplicitOwner}
    {group : List Pubkey} (hl : adm.ownership.groups.lookup owner = some group) :
    ∃ stamp, adm.ownerLru.lookup owner = some stamp :=
  SortedMap.mem_keys.mp ((h.owners_iff owner).mpr ⟨group, hl⟩)

/-- A state with another store, stamps and size. -/
def commit (adm : FixedCapAdmission) (ownership : ExplicitOwnership) (plan : StampPlan)
    (physicalLen : Nat) : FixedCapAdmission :=
  ⟨adm.cap, physicalLen, ownership, plan.ownerLru, plan.nextTouchStamp⟩

/-- **A written group with a stamp plan keeps the invariant.** -/
theorem Inv.put {adm : FixedCapAdmission} (h : adm.Inv) {own : ExplicitOwnership}
    {owner : ExplicitOwner} {group : List Pubkey} {plan : StampPlan} {len : Nat}
    (hwf : own.WellFormed) (hgroups : own.groups = adm.ownership.groups.insert owner group)
    (hplan : StampPlanned adm.ownerLru adm.nextTouchStamp owner plan)
    (hlen : len = own.union.card) (hfits : len ≤ adm.cap) :
    (adm.commit own plan len).Inv ∧ (adm.commit own plan len).book = adm.book.put owner group := by
  refine ⟨?_, ?_⟩
  · exact {
      wellFormed := hwf
      len := hlen
      fits := hfits
      owners := by
        intro o
        show o ∈ plan.ownerLru.keys ↔ o ∈ own.groups.keys
        rw [hplan.keys, hgroups, SortedMap.mem_keys_insert, h.owners]
      stamped := hplan.stamped
      bounded := hplan.bounded }
  · unfold book Book.put Book.touch recency commit
    rw [hplan.order, hgroups]

/-- Another stamp for an owner keeps the invariant. -/
theorem Inv.touch {adm : FixedCapAdmission} (h : adm.Inv) {owner : ExplicitOwner}
    {plan : StampPlan} (hmem : owner ∈ adm.ownerLru.keys)
    (hplan : StampPlanned adm.ownerLru adm.nextTouchStamp owner plan) :
    (adm.applyStampPlan plan).Inv ∧ (adm.applyStampPlan plan).book = adm.book.touch owner := by
  refine ⟨?_, ?_⟩
  · exact {
      wellFormed := h.wellFormed
      len := h.len
      fits := h.fits
      owners := by
        intro o
        show o ∈ plan.ownerLru.keys ↔ o ∈ adm.ownership.groups.keys
        rw [hplan.keys, ← h.owners]
        refine or_iff_right_of_imp fun ho => ?_
        rw [ho]
        exact hmem
      stamped := hplan.stamped
      bounded := hplan.bounded }
  · unfold book Book.touch recency applyStampPlan
    rw [hplan.order]

/-! ### Owners that go -/

/-- The stamps without these owners. -/
def eraseAll (lru : OwnerLru) (victims : List ExplicitOwner) : OwnerLru :=
  victims.foldl (fun lru victim => lru.erase victim) lru

theorem eraseAll_eq (lru : OwnerLru) (victims : List ExplicitOwner) :
    eraseAll lru victims = lru.retain fun o _ => decide (o ∉ victims) := by
  refine SortedMap.ext_lookup fun o => ?_
  have hfold : (eraseAll lru victims).lookup o = if o ∈ victims then none else lru.lookup o := by
    unfold eraseAll
    induction victims generalizing lru with
    | nil => rfl
    | cons victim victims ih =>
        rw [List.foldl_cons, ih, SortedMap.lookup_erase]
        by_cases hv : o = victim
        · simp [hv]
        · simp [hv]
  rw [hfold, SortedMap.lookup_retain_keys]
  by_cases hm : o ∈ victims
  · simp [hm]
  · simp [hm]

theorem groups_removeAll (own : ExplicitOwnership) (victims : List ExplicitOwner) :
    (own.removeAll victims).groups = own.groups.retain fun o _ => decide (o ∉ victims) := by
  refine SortedMap.ext_lookup fun o => ?_
  rw [lookup_removeAll, SortedMap.lookup_retain_keys]
  by_cases hm : o ∈ victims
  · simp [hm]
  · simp [hm]

theorem union_removeAll_subset (own : ExplicitOwnership) (victims : List ExplicitOwner) :
    (own.removeAll victims).union ⊆ own.union := by
  rw [union_removeAll]
  exact Finset.biUnion_subset_biUnion_of_subset_left _ Finset.sdiff_subset

/-- The state without these owners. -/
def dropAll (adm : FixedCapAdmission) (victims : List ExplicitOwner) : FixedCapAdmission :=
  { adm with
    physicalLen := (adm.ownership.removeAll victims).union.card
    ownership := adm.ownership.removeAll victims
    ownerLru := eraseAll adm.ownerLru victims }

/-- **Owners that go keep the invariant.** -/
theorem Inv.drop {adm : FixedCapAdmission} (h : adm.Inv) (victims : List ExplicitOwner) :
    (adm.dropAll victims).Inv ∧ (adm.dropAll victims).book = adm.book.drop victims := by
  refine ⟨?_, ?_⟩
  · exact {
      wellFormed := wellFormed_removeAll h.wellFormed victims
      len := rfl
      fits := by
        refine le_trans (Finset.card_le_card (union_removeAll_subset _ _)) ?_
        show adm.ownership.union.card ≤ adm.cap
        rw [← h.len]
        exact h.fits
      owners := by
        intro o
        show o ∈ (eraseAll adm.ownerLru victims).keys ↔
          o ∈ (adm.ownership.removeAll victims).groups.keys
        rw [← Recency.mem_order, eraseAll_eq, Recency.order_retain h.stamped, List.mem_filter,
          Recency.mem_order, h.owners, SortedMap.mem_keys, SortedMap.mem_keys, decide_eq_true_eq]
        constructor
        · rintro ⟨⟨group, hl⟩, hv⟩
          exact ⟨group, by rw [lookup_removeAll, if_neg hv, hl]⟩
        · rintro ⟨group, hl⟩
          rw [lookup_removeAll] at hl
          split_ifs at hl with hv
          exact ⟨⟨group, hl⟩, hv⟩
      stamped := by
        show Recency.Stamped (eraseAll adm.ownerLru victims) adm.nextTouchStamp
        rw [eraseAll_eq]
        exact Recency.stamped_retain h.stamped _
      bounded := h.bounded }
  · unfold book Book.drop recency dropAll
    dsimp only
    rw [groups_removeAll, eraseAll_eq, Recency.order_retain h.stamped]

end FixedCapAdmission

end IronCrab.Track

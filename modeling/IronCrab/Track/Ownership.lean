/-
  File:      IronCrab/Track/Ownership.lean
  Subject:   OWNER GROUPS AND THEIR REVERSE INDEX (`explicit_ownership.rs`).

  Each owner holds a group of pubkeys; `pubkeyOwners` is kept beside the groups so that "is this
  pubkey still wanted by anybody" is one lookup. `WellFormed` is the contract: every group is
  non-empty and strictly increasing, and the index is the inverse of the groups with no empty
  entry. A well-formed ownership is determined by its groups (`eq_of_groups`), so what an
  operation does is said by its groups alone:

  * `upsertGroup_eq`, `removeGroup_eq` -- the result and the groups after each operation;
  * `wellFormed_upsertGroup`, `wellFormed_removeGroup` -- the contract is kept;
  * **`exact_reverse_index`** -- after any sequence of operations, and for every next one.
-/
import IronCrab.Lib.SortedMap
import IronCrab.Lib.Cover
import IronCrab.Lib.Machine
import Mathlib.Algebra.GroupWithZero.Nat
import Mathlib.Data.Prod.Lex

namespace IronCrab.Track

/-! ## 1. Owners -/

/-- A 32-byte key, compared byte by byte from the front: a number below `2 ^ 256`. -/
abbrev Pubkey := Fin (2 ^ 256)

instance pubkeySizeNeZero : NeZero (2 ^ 256) := ⟨Nat.ne_of_gt (Nat.two_pow_pos 256)⟩
instance pubkeyLawfulBEq : LawfulBEq Pubkey := inferInstance

/-- `ExplicitConsumer`. -/
inductive ExplicitConsumer where
  | wallet
  | momentumPosition
  | momentum
  | arb
  | tracker

namespace ExplicitConsumer

/-- The position in the declaration, which the derived order compares. -/
def ordinal : ExplicitConsumer → Nat
  | wallet => 0
  | momentumPosition => 1
  | momentum => 2
  | arb => 3
  | tracker => 4

theorem ordinal_injective : Function.Injective ordinal := by
  intro a b h
  cases a <;> cases b <;> first | rfl | exact absurd h (by decide)

instance : LinearOrder ExplicitConsumer := LinearOrder.lift' ordinal ordinal_injective

instance : LawfulBEq ExplicitConsumer := inferInstance

end ExplicitConsumer

/-- `ExplicitOwnerKey`. -/
inductive ExplicitOwnerKey where
  | wallet
  | pool (pool : Pubkey)
  | mint (mint : Pubkey)
  | generic (id : UInt64)

namespace ExplicitOwnerKey

/-- The kind, which `cmp` compares first. -/
def kind : ExplicitOwnerKey → Nat
  | wallet => 0
  | pool _ => 1
  | mint _ => 2
  | generic _ => 3

/-- The identity within the kind. -/
def identity : ExplicitOwnerKey → Nat
  | wallet => 0
  | pool p => p.val
  | mint p => p.val
  | generic id => id.toNat

theorem eq_of_kind_of_identity {a b : ExplicitOwnerKey} (hk : a.kind = b.kind)
    (hi : a.identity = b.identity) : a = b := by
  cases a <;> cases b <;> simp_all [kind, identity, Fin.val_inj, UInt64.toNat_inj]

end ExplicitOwnerKey

/-- `ExplicitOwner`. -/
structure ExplicitOwner where
  consumer : ExplicitConsumer
  ownerKey : ExplicitOwnerKey

namespace ExplicitOwner

/-- What the derived order compares: the consumer, then the kind of the key, then the identity. -/
def rank (o : ExplicitOwner) : Nat ×ₗ Nat ×ₗ Nat :=
  toLex (o.consumer.ordinal, toLex (o.ownerKey.kind, o.ownerKey.identity))

theorem rank_injective : Function.Injective rank := by
  intro a b h
  obtain ⟨hc, hrest⟩ := Prod.mk.inj (toLex.injective h)
  obtain ⟨hk, hi⟩ := Prod.mk.inj (toLex.injective hrest)
  obtain ⟨ca, ka⟩ := a
  obtain ⟨cb, kb⟩ := b
  have hcons : ca = cb := ExplicitConsumer.ordinal_injective hc
  have hkey : ka = kb := ExplicitOwnerKey.eq_of_kind_of_identity hk hi
  rw [hcons, hkey]

instance : LinearOrder ExplicitOwner := LinearOrder.lift' rank rank_injective

instance : LawfulBEq ExplicitOwner := inferInstance

end ExplicitOwner

/-- `OwnerGroupSnapshot`. -/
structure OwnerGroupSnapshot where
  consumer : ExplicitConsumer
  ownerKey : ExplicitOwnerKey
  pubkeys : List Pubkey

/-- `from_owner`. -/
def OwnerGroupSnapshot.fromOwner (owner : ExplicitOwner) (pubkeys : List Pubkey) :
    OwnerGroupSnapshot := ⟨owner.consumer, owner.ownerKey, pubkeys⟩

/-- The owner a snapshot names. -/
def OwnerGroupSnapshot.owner (group : OwnerGroupSnapshot) : ExplicitOwner :=
  ⟨group.consumer, group.ownerKey⟩

/-! ## 2. The store -/

/-- `EmptyOwnerGroupError`. -/
inductive EmptyOwnerGroupError where
  | mk

/-- `GroupChange`. -/
inductive GroupChange where
  | newGroup (physicalAdded : List Pubkey)
  | unchanged
  | replaced (physicalAdded physicalRemoved : List Pubkey)

/-- The reverse index. -/
abbrev PubkeyOwners := SortedMap Pubkey (Finset ExplicitOwner)

/-- `ExplicitOwnership`. -/
structure ExplicitOwnership where
  groups : SortedMap ExplicitOwner (List Pubkey)
  pubkeyOwners : PubkeyOwners

/-- `normalize_pubkeys`. -/
def normalizePubkeys (pubkeys : List Pubkey) : List Pubkey := SortedList.normalize pubkeys

theorem pairwise_normalizePubkeys (pubkeys : List Pubkey) :
    (normalizePubkeys pubkeys).Pairwise (· < ·) := SortedList.pairwise_normalize pubkeys

theorem nodup_normalizePubkeys (pubkeys : List Pubkey) : (normalizePubkeys pubkeys).Nodup :=
  SortedList.nodup_of_pairwise (pairwise_normalizePubkeys pubkeys)

@[simp] theorem mem_normalizePubkeys {pubkeys : List Pubkey} {pubkey : Pubkey} :
    pubkey ∈ normalizePubkeys pubkeys ↔ pubkey ∈ pubkeys := SortedList.mem_normalize

@[simp] theorem normalizePubkeys_normalizePubkeys (pubkeys : List Pubkey) :
    normalizePubkeys (normalizePubkeys pubkeys) = normalizePubkeys pubkeys :=
  SortedList.normalize_normalize pubkeys

theorem normalizePubkeys_eq_nil {pubkeys : List Pubkey} :
    normalizePubkeys pubkeys = [] ↔ pubkeys = [] := SortedList.normalize_eq_nil

/-- `attach_owner_pubkeys`: the pubkeys that nobody held before, and the index after. -/
def attachOwnerPubkeys (owner : ExplicitOwner) (previouslyOwned : Finset Pubkey) :
    PubkeyOwners → List Pubkey → List Pubkey × PubkeyOwners
  | index, [] => ([], index)
  | index, pubkey :: pubkeys =>
      let owners := (index.lookup pubkey).getD ∅
      let rest := attachOwnerPubkeys owner previouslyOwned
        (index.insert pubkey (insert owner owners)) pubkeys
      if owners = ∅ ∧ pubkey ∉ previouslyOwned then (pubkey :: rest.1, rest.2) else rest

/-- The loop of `detach_owner_pubkeys`: an entry that becomes empty goes. -/
def detachLoop (owner : ExplicitOwner) :
    PubkeyOwners → List Pubkey → List Pubkey × PubkeyOwners
  | index, [] => ([], index)
  | index, pubkey :: pubkeys =>
      match index.lookup pubkey with
      | none => detachLoop owner index pubkeys
      | some owners =>
          if owners.erase owner = ∅ then
            let rest := detachLoop owner (index.erase pubkey) pubkeys
            (pubkey :: rest.1, rest.2)
          else detachLoop owner (index.insert pubkey (owners.erase owner)) pubkeys

/-- `detach_owner_pubkeys`. -/
def detachOwnerPubkeys (owner : ExplicitOwner) (index : PubkeyOwners) (pubkeys : List Pubkey) :
    List Pubkey × PubkeyOwners :=
  let (physicalRemoved, index) := detachLoop owner index pubkeys
  (physicalRemoved.insertionSort (· ≤ ·), index)

namespace ExplicitOwnership

/-- `new`. -/
def new : ExplicitOwnership := ⟨.empty, .empty⟩

/-- `len`. -/
def len (own : ExplicitOwnership) : Nat :=
  (own.pubkeyOwners.values.filter fun owners => decide (owners ≠ ∅)).length

/-- `contains`. -/
def contains (own : ExplicitOwnership) (pubkey : Pubkey) : Bool :=
  ((own.pubkeyOwners.lookup pubkey).map fun owners => decide (owners ≠ ∅)).getD false

/-- `owner_group`. -/
def ownerGroup (own : ExplicitOwnership) (owner : ExplicitOwner) : Option (List Pubkey) :=
  own.groups.lookup owner

/-- `owner_refcount`. -/
def ownerRefcount (own : ExplicitOwnership) (pubkey : Pubkey) : Nat :=
  ((own.pubkeyOwners.lookup pubkey).map Finset.card).getD 0

/-- `snapshot_pubkeys`. -/
def snapshotPubkeys (own : ExplicitOwnership) : List Pubkey :=
  ((own.pubkeyOwners.entries.filter fun e => decide (e.2 ≠ ∅)).map Prod.fst).insertionSort (· ≤ ·)

/-- `snapshot_owner_groups`. -/
def snapshotOwnerGroups (own : ExplicitOwnership) : List OwnerGroupSnapshot :=
  own.groups.entries.map fun e => .fromOwner e.1 e.2

/-- `clear`. -/
def clear (_ : ExplicitOwnership) : ExplicitOwnership := new

/-- `upsert_group`. -/
def upsertGroup (own : ExplicitOwnership) (owner : ExplicitOwner) (pubkeys : List Pubkey) :
    Except EmptyOwnerGroupError GroupChange × ExplicitOwnership :=
  let normalized := normalizePubkeys pubkeys
  if normalized = [] then (.error .mk, own)
  else
    match own.groups.lookup owner with
    | none =>
        let (physicalAdded, index) := attachOwnerPubkeys owner ∅ own.pubkeyOwners normalized
        (.ok (.newGroup physicalAdded), ⟨own.groups.insert owner normalized, index⟩)
    | some oldPubkeys =>
        if oldPubkeys = normalized then (.ok .unchanged, own)
        else
          let (detached, index) := detachOwnerPubkeys owner own.pubkeyOwners oldPubkeys
          let physicalRemoved := detached.filter fun pubkey => decide (pubkey ∉ normalized.toFinset)
          let (physicalAdded, index) :=
            attachOwnerPubkeys owner oldPubkeys.toFinset index normalized
          (.ok (.replaced physicalAdded physicalRemoved),
            ⟨own.groups.insert owner normalized, index⟩)

/-- `remove_group`. -/
def removeGroup (own : ExplicitOwnership) (owner : ExplicitOwner) :
    Option OwnerGroupSnapshot × ExplicitOwnership :=
  match own.groups.lookup owner with
  | none => (none, own)
  | some pubkeys =>
      (some (.fromOwner owner pubkeys),
        ⟨own.groups.erase owner, (detachOwnerPubkeys owner own.pubkeyOwners pubkeys).2⟩)

/-! ## 3. The contract -/

/-- The owners with a group. -/
def owners (own : ExplicitOwnership) : Finset ExplicitOwner := own.groups.keys.toFinset

/-- An owner's group as a set; empty for an unknown owner. -/
def groupSet (own : ExplicitOwnership) (owner : ExplicitOwner) : Finset Pubkey :=
  ((own.groups.lookup owner).getD []).toFinset

/-- The pubkeys that some owner holds. -/
def union (own : ExplicitOwnership) : Finset Pubkey := own.owners.biUnion own.groupSet

/-- The owners that hold a pubkey. -/
def holders (own : ExplicitOwnership) (pubkey : Pubkey) : Finset ExplicitOwner :=
  Cover.holders own.owners own.groupSet pubkey

/-- **The contract of the store.** -/
structure WellFormed (own : ExplicitOwnership) : Prop where
  /-- No group is empty. -/
  nonempty : ∀ owner group, own.groups.lookup owner = some group → group ≠ []
  /-- Every group is sorted without duplicates. -/
  sorted : ∀ owner group, own.groups.lookup owner = some group → group.Pairwise (· < ·)
  /-- The index is the inverse relation of the groups. -/
  inverse : ∀ pubkey owner, (∃ owners, own.pubkeyOwners.lookup pubkey = some owners ∧
    owner ∈ owners) ↔ ∃ group, own.groups.lookup owner = some group ∧ pubkey ∈ group
  /-- The index has no empty entry. -/
  noEmpty : ∀ pubkey owners, own.pubkeyOwners.lookup pubkey = some owners → owners ≠ ∅

theorem mem_owners {own : ExplicitOwnership} {owner : ExplicitOwner} :
    owner ∈ own.owners ↔ ∃ group, own.groups.lookup owner = some group := by
  unfold owners
  rw [List.mem_toFinset, SortedMap.mem_keys]

theorem mem_groupSet {own : ExplicitOwnership} {owner : ExplicitOwner} {pubkey : Pubkey} :
    pubkey ∈ own.groupSet owner ↔
      ∃ group, own.groups.lookup owner = some group ∧ pubkey ∈ group := by
  unfold groupSet
  cases own.groups.lookup owner with
  | none => simp
  | some group => simp

theorem mem_holders {own : ExplicitOwnership} {owner : ExplicitOwner} {pubkey : Pubkey} :
    owner ∈ own.holders pubkey ↔
      ∃ group, own.groups.lookup owner = some group ∧ pubkey ∈ group := by
  unfold holders
  rw [Cover.mem_holders, mem_groupSet, mem_owners]
  constructor
  · exact fun h => h.2
  · exact fun h => ⟨h.imp fun _ hg => hg.1, h⟩

theorem mem_union_iff {own : ExplicitOwnership} {pubkey : Pubkey} :
    pubkey ∈ own.union ↔ (own.holders pubkey).Nonempty := Cover.mem_biUnion_iff_holders

theorem mem_union {own : ExplicitOwnership} {pubkey : Pubkey} :
    pubkey ∈ own.union ↔
      ∃ owner group, own.groups.lookup owner = some group ∧ pubkey ∈ group := by
  rw [mem_union_iff]
  exact exists_congr fun owner => mem_holders

theorem groupSet_subset_union (own : ExplicitOwnership) (owner : ExplicitOwner) :
    own.groupSet owner ⊆ own.union := by
  intro pubkey h
  exact mem_union.mpr ⟨owner, mem_groupSet.mp h⟩

theorem groupSet_of_lookup {own : ExplicitOwnership} {owner : ExplicitOwner}
    {group : List Pubkey} (h : own.groups.lookup owner = some group) :
    own.groupSet owner = group.toFinset := by
  unfold groupSet
  rw [h]
  rfl

/-- The entry the index keeps for a pubkey with these holders. -/
def indexEntry (owners : Finset ExplicitOwner) : Option (Finset ExplicitOwner) :=
  if owners = ∅ then none else some owners

@[simp] theorem getD_indexEntry (owners : Finset ExplicitOwner) :
    (indexEntry owners).getD ∅ = owners := by
  unfold indexEntry
  split_ifs with h
  · rw [h]
    rfl
  · rfl

theorem indexEntry_ne {owners : Finset ExplicitOwner} (h : owners ≠ ∅) :
    indexEntry owners = some owners := if_neg h

/-- The contract, with the index said entry by entry. -/
theorem wellFormed_of_index {own : ExplicitOwnership}
    (hne : ∀ owner group, own.groups.lookup owner = some group → group ≠ [])
    (hsort : ∀ owner group, own.groups.lookup owner = some group → group.Pairwise (· < ·))
    (hindex : ∀ pubkey, own.pubkeyOwners.lookup pubkey = indexEntry (own.holders pubkey)) :
    own.WellFormed where
  nonempty := hne
  sorted := hsort
  inverse := by
    intro pubkey owner
    rw [hindex, ← mem_holders]
    constructor
    · rintro ⟨owners, hs, ho⟩
      have hd := getD_indexEntry (own.holders pubkey)
      rw [hs] at hd
      rw [← hd]
      exact ho
    · intro ho
      exact ⟨_, indexEntry_ne (Finset.ne_empty_of_mem ho), ho⟩
  noEmpty := by
    intro pubkey owners hs h0
    rw [hindex, h0] at hs
    unfold indexEntry at hs
    split_ifs at hs with hemp
    exact hemp (Option.some.inj hs)

namespace WellFormed

variable {own : ExplicitOwnership}

/-- **The index entry of a pubkey is the set of its holders**, and there is one just when there
    are any. -/
theorem lookup_pubkeyOwners (h : own.WellFormed) (pubkey : Pubkey) :
    own.pubkeyOwners.lookup pubkey = indexEntry (own.holders pubkey) := by
  unfold indexEntry
  cases hl : own.pubkeyOwners.lookup pubkey with
  | none =>
      rw [if_pos]
      rw [Finset.eq_empty_iff_forall_notMem]
      intro owner ho
      obtain ⟨s, hs, _⟩ := (h.inverse pubkey owner).mpr (mem_holders.mp ho)
      rw [hl] at hs
      cases hs
  | some s =>
      have hs : s = own.holders pubkey := by
        ext owner
        rw [mem_holders, ← h.inverse, hl]
        constructor
        · exact fun ho => ⟨s, rfl, ho⟩
        · rintro ⟨s', hs', ho⟩
          cases hs'
          exact ho
      rw [← hs, if_neg (h.noEmpty pubkey s hl)]

/-- **A well-formed store is determined by its groups.** -/
theorem eq_of_groups {own' : ExplicitOwnership} (h : own.WellFormed) (h' : own'.WellFormed)
    (heq : own.groups = own'.groups) : own = own' := by
  have hindex : own.pubkeyOwners = own'.pubkeyOwners := by
    refine SortedMap.ext_lookup fun pubkey => ?_
    rw [h.lookup_pubkeyOwners, h'.lookup_pubkeyOwners]
    unfold ExplicitOwnership.holders ExplicitOwnership.owners ExplicitOwnership.groupSet
    rw [heq]
  cases own
  cases own'
  cases heq
  cases hindex
  rfl

theorem ownerRefcount_eq (h : own.WellFormed) (pubkey : Pubkey) :
    own.ownerRefcount pubkey = (own.holders pubkey).card := by
  unfold ownerRefcount
  rw [h.lookup_pubkeyOwners]
  unfold indexEntry
  split_ifs with he
  · rw [he]
    rfl
  · rfl

theorem ownerRefcount_eq_zero (h : own.WellFormed) {pubkey : Pubkey} :
    own.ownerRefcount pubkey = 0 ↔ pubkey ∉ own.union := by
  rw [h.ownerRefcount_eq, Finset.card_eq_zero, mem_union_iff, Finset.not_nonempty_iff_eq_empty]

/-- The keys of the index are the union. -/
theorem mem_keys_pubkeyOwners (h : own.WellFormed) {pubkey : Pubkey} :
    pubkey ∈ own.pubkeyOwners.keys ↔ pubkey ∈ own.union := by
  rw [SortedMap.mem_keys_iff_isSome, h.lookup_pubkeyOwners, mem_union_iff,
    Finset.nonempty_iff_ne_empty]
  unfold indexEntry
  split_ifs with he <;> simp [he]

theorem filter_entries (h : own.WellFormed) :
    (own.pubkeyOwners.entries.filter fun e => decide (e.2 ≠ ∅)) = own.pubkeyOwners.entries := by
  refine List.filter_eq_self.mpr fun e he => ?_
  exact decide_eq_true (h.noEmpty e.1 e.2 (SortedMap.mem_entries.mp he))

theorem snapshotPubkeys_eq (h : own.WellFormed) :
    own.snapshotPubkeys = own.pubkeyOwners.keys := by
  unfold snapshotPubkeys
  rw [h.filter_entries]
  exact (own.pubkeyOwners.sorted.imp fun hlt => le_of_lt hlt).insertionSort_eq

theorem pairwise_snapshotPubkeys (h : own.WellFormed) :
    own.snapshotPubkeys.Pairwise (· < ·) := by
  rw [h.snapshotPubkeys_eq]
  exact own.pubkeyOwners.pairwise_keys

theorem mem_snapshotPubkeys (h : own.WellFormed) {pubkey : Pubkey} :
    pubkey ∈ own.snapshotPubkeys ↔ pubkey ∈ own.union := by
  rw [h.snapshotPubkeys_eq, h.mem_keys_pubkeyOwners]

theorem toFinset_snapshotPubkeys (h : own.WellFormed) :
    own.snapshotPubkeys.toFinset = own.union := by
  ext pubkey
  rw [List.mem_toFinset, h.mem_snapshotPubkeys]

/-- **`len()` is the size of the union.** -/
theorem len_eq (h : own.WellFormed) : own.len = own.union.card := by
  have hvalues : own.len = own.pubkeyOwners.keys.length := by
    unfold len SortedMap.values SortedMap.keys
    rw [List.filter_map, List.length_map, List.length_map]
    exact congrArg List.length h.filter_entries
  rw [hvalues, SortedList.length_eq_card own.pubkeyOwners.pairwise_keys]
  congr 1
  ext pubkey
  rw [List.mem_toFinset, h.mem_keys_pubkeyOwners]

end WellFormed

theorem wellFormed_new : new.WellFormed where
  nonempty := fun _ _ h => by cases h
  sorted := fun _ _ h => by cases h
  inverse := fun _ _ => ⟨fun ⟨_, h, _⟩ => (nomatch h), fun ⟨_, h, _⟩ => (nomatch h)⟩
  noEmpty := fun _ _ h => by cases h

/-! ## 4. The two loops -/

/-- The index after an attach, entry by entry. -/
theorem lookup_attach (owner : ExplicitOwner) (prev : Finset Pubkey) (index : PubkeyOwners)
    (pubkeys : List Pubkey) (pubkey : Pubkey) :
    (attachOwnerPubkeys owner prev index pubkeys).2.lookup pubkey =
      if pubkey ∈ pubkeys then some (insert owner ((index.lookup pubkey).getD ∅))
      else index.lookup pubkey := by
  induction pubkeys generalizing index with
  | nil => rfl
  | cons k pubkeys ih =>
      have hstep : (attachOwnerPubkeys owner prev index (k :: pubkeys)).2 =
          (attachOwnerPubkeys owner prev
            (index.insert k (insert owner ((index.lookup k).getD ∅))) pubkeys).2 := by
        rw [attachOwnerPubkeys]
        split <;> rfl
      rw [hstep, ih]
      by_cases hk : pubkey = k
      · rw [hk, SortedMap.lookup_insert_self, if_pos List.mem_cons_self]
        split_ifs with hm
        · rw [Option.getD_some, Finset.insert_idem]
        · rfl
      · rw [SortedMap.lookup_insert_ne _ hk]
        simp only [List.mem_cons, hk, false_or]

/-- What an attach reports, for pubkeys without duplicates. -/
theorem fst_attach (owner : ExplicitOwner) (prev : Finset Pubkey) (index : PubkeyOwners)
    {pubkeys : List Pubkey} (hnd : pubkeys.Nodup) :
    (attachOwnerPubkeys owner prev index pubkeys).1 =
      pubkeys.filter fun pubkey =>
        decide ((index.lookup pubkey).getD ∅ = ∅ ∧ pubkey ∉ prev) := by
  induction pubkeys generalizing index with
  | nil => rfl
  | cons k pubkeys ih =>
      obtain ⟨hk, hnd⟩ := List.nodup_cons.mp hnd
      have hrest := ih (index.insert k (insert owner ((index.lookup k).getD ∅))) hnd
      have hcongr : (pubkeys.filter fun pubkey => decide
          (((index.insert k (insert owner ((index.lookup k).getD ∅))).lookup pubkey).getD ∅ = ∅ ∧
            pubkey ∉ prev)) =
          pubkeys.filter fun pubkey => decide ((index.lookup pubkey).getD ∅ = ∅ ∧ pubkey ∉ prev) :=
        List.filter_congr fun pubkey hm => by
          have hne : pubkey ≠ k := fun he => hk (he ▸ hm)
          rw [SortedMap.lookup_insert_ne _ hne]
      rw [attachOwnerPubkeys, List.filter_cons, ← hcongr, ← hrest]
      simp only [decide_eq_true_eq]
      split <;> rfl

/-- The index after a detach, entry by entry. -/
theorem lookup_detach (owner : ExplicitOwner) (index : PubkeyOwners) {pubkeys : List Pubkey}
    (hnd : pubkeys.Nodup) (pubkey : Pubkey) :
    (detachOwnerPubkeys owner index pubkeys).2.lookup pubkey =
      if pubkey ∈ pubkeys then
        (index.lookup pubkey).bind fun owners => indexEntry (owners.erase owner)
      else index.lookup pubkey := by
  show (detachLoop owner index pubkeys).2.lookup pubkey = _
  induction pubkeys generalizing index with
  | nil => rfl
  | cons k pubkeys ih =>
      obtain ⟨hk, hnd⟩ := List.nodup_cons.mp hnd
      -- the head's entry is settled here and not touched again
      have hstep : ∃ index' : PubkeyOwners,
          (detachLoop owner index (k :: pubkeys)).2 = (detachLoop owner index' pubkeys).2 ∧
          (index'.lookup k = (index.lookup k).bind fun owners =>
            indexEntry (owners.erase owner)) ∧
          ∀ pubkey, pubkey ≠ k → index'.lookup pubkey = index.lookup pubkey := by
        rw [detachLoop]
        cases hl : index.lookup k with
        | none => exact ⟨index, rfl, hl, fun _ _ => rfl⟩
        | some owners =>
            by_cases he : owners.erase owner = ∅
            · refine ⟨index.erase k, ?_, ?_, fun _ h => SortedMap.lookup_erase_ne _ h⟩
              · simp only [if_pos he]
              · rw [SortedMap.lookup_erase_self]
                exact (if_pos he).symm
            · refine ⟨index.insert k (owners.erase owner), ?_, ?_,
                fun _ h => SortedMap.lookup_insert_ne _ h _⟩
              · simp only [if_neg he]
              · rw [SortedMap.lookup_insert_self]
                exact (indexEntry_ne he).symm
      obtain ⟨index', heq, hself, hother⟩ := hstep
      rw [heq, ih index' hnd]
      by_cases hp : pubkey = k
      · subst hp
        rw [if_neg hk, hself, if_pos List.mem_cons_self]
      · rw [hother pubkey hp]
        simp only [List.mem_cons, hp, false_or]

/-- What a detach reports, for strictly increasing pubkeys. -/
theorem fst_detach (owner : ExplicitOwner) (index : PubkeyOwners) {pubkeys : List Pubkey}
    (hs : pubkeys.Pairwise (· < ·)) :
    (detachOwnerPubkeys owner index pubkeys).1 =
      pubkeys.filter fun pubkey =>
        (index.lookup pubkey).any fun owners => decide (owners.erase owner = ∅) := by
  have hloop : ∀ (pubkeys : List Pubkey) (index : PubkeyOwners), pubkeys.Nodup →
      (detachLoop owner index pubkeys).1 = pubkeys.filter fun pubkey =>
        (index.lookup pubkey).any fun owners => decide (owners.erase owner = ∅) := by
    intro pubkeys
    induction pubkeys with
    | nil => intros; rfl
    | cons k pubkeys ih =>
        intro index hnd
        obtain ⟨hk, hnd⟩ := List.nodup_cons.mp hnd
        have hcongr : ∀ index' : PubkeyOwners,
            (∀ pubkey, pubkey ≠ k → index'.lookup pubkey = index.lookup pubkey) →
            (detachLoop owner index' pubkeys).1 = pubkeys.filter fun pubkey =>
              (index.lookup pubkey).any fun owners => decide (owners.erase owner = ∅) := by
          intro index' h
          rw [ih index' hnd]
          exact List.filter_congr fun pubkey hm => by rw [h pubkey fun he => hk (he ▸ hm)]
        rw [detachLoop, List.filter_cons]
        cases hl : index.lookup k with
        | none =>
            rw [hcongr index fun _ _ => rfl]
            rfl
        | some owners =>
            by_cases he : owners.erase owner = ∅
            · simp only [if_pos he, hcongr _ fun _ h => SortedMap.lookup_erase_ne index h]
              simp [he]
            · simp only [if_neg he, hcongr _ fun _ h => SortedMap.lookup_insert_ne index h _]
              simp [he]
  show ((detachLoop owner index pubkeys).1).insertionSort (· ≤ ·) = _
  rw [hloop pubkeys index (SortedList.nodup_of_pairwise hs)]
  exact ((hs.sublist List.filter_sublist).imp fun h => le_of_lt h).insertionSort_eq

/-! ## 5. The operations -/

/-- The holders after a group has been written. -/
theorem mem_holders_put {own own' : ExplicitOwnership} {owner : ExplicitOwner}
    {group : List Pubkey} (h : own'.groups = own.groups.insert owner group) (pubkey : Pubkey) :
    own'.holders pubkey =
      if pubkey ∈ group then insert owner (own.holders pubkey)
      else (own.holders pubkey).erase owner := by
  ext o
  rw [mem_holders, h]
  by_cases ho : o = owner
  · subst ho
    rw [SortedMap.lookup_insert_self]
    split_ifs with hm <;> simp [hm]
  · rw [SortedMap.lookup_insert_ne _ ho, ← mem_holders]
    split_ifs <;> simp [ho]

/-- The holders after a group has gone. -/
theorem holders_drop {own own' : ExplicitOwnership} {owner : ExplicitOwner}
    (h : own'.groups = own.groups.erase owner) (pubkey : Pubkey) :
    own'.holders pubkey = (own.holders pubkey).erase owner := by
  ext o
  rw [mem_holders, h]
  by_cases ho : o = owner
  · subst ho
    rw [SortedMap.lookup_erase_self]
    simp
  · rw [SortedMap.lookup_erase_ne _ ho, ← mem_holders]
    simp [ho]

theorem notMem_holders {own : ExplicitOwnership} {owner : ExplicitOwner}
    (hl : own.groups.lookup owner = none)
    (pubkey : Pubkey) : owner ∉ own.holders pubkey := by
  rw [mem_holders, hl]
  rintro ⟨_, hg, _⟩
  cases hg

/-- The groups after an upsert of a non-empty group. -/
theorem groups_upsertGroup (own : ExplicitOwnership) (owner : ExplicitOwner)
    {pubkeys : List Pubkey}
    (hne : normalizePubkeys pubkeys ≠ []) :
    (own.upsertGroup owner pubkeys).2.groups =
      own.groups.insert owner (normalizePubkeys pubkeys) := by
  unfold upsertGroup
  dsimp only
  rw [if_neg hne]
  cases hl : own.groups.lookup owner with
  | none => rfl
  | some old =>
      dsimp only
      split_ifs with heq
      · rw [heq] at hl
        exact (SortedMap.insert_lookup hl).symm
      · rfl

section Operations

variable {own : ExplicitOwnership} (h : own.WellFormed)
include h

/-- After its group is detached an owner holds nothing, and the index says so. -/
theorem lookup_detach_group {owner : ExplicitOwner} {group : List Pubkey}
    (hl : own.groups.lookup owner = some group) (pubkey : Pubkey) :
    (detachOwnerPubkeys owner own.pubkeyOwners group).2.lookup pubkey =
      indexEntry ((own.holders pubkey).erase owner) := by
  have hnd := SortedList.nodup_of_pairwise (h.sorted owner group hl)
  rw [lookup_detach owner own.pubkeyOwners hnd, h.lookup_pubkeyOwners]
  split_ifs with hm
  · have hmem : owner ∈ own.holders pubkey := mem_holders.mpr ⟨group, hl, hm⟩
    rw [indexEntry_ne (Finset.ne_empty_of_mem hmem)]
    rfl
  · have hno : owner ∉ own.holders pubkey := by
      rw [mem_holders]
      rintro ⟨g, hg, hp⟩
      rw [hl] at hg
      cases hg
      exact hm hp
    rw [Finset.erase_eq_of_notMem hno]

/-- The pubkeys of a group that only its owner holds. -/
theorem fst_detach_group {owner : ExplicitOwner} {group : List Pubkey}
    (hl : own.groups.lookup owner = some group) :
    (detachOwnerPubkeys owner own.pubkeyOwners group).1 =
      group.filter fun pubkey => decide ((own.holders pubkey).erase owner = ∅) := by
  rw [fst_detach owner own.pubkeyOwners (h.sorted owner group hl)]
  refine List.filter_congr fun pubkey hm => ?_
  have hmem : owner ∈ own.holders pubkey := mem_holders.mpr ⟨group, hl, hm⟩
  rw [h.lookup_pubkeyOwners, indexEntry_ne (Finset.ne_empty_of_mem hmem)]
  rfl

/-- **An upsert keeps the contract.** -/
theorem wellFormed_upsertGroup (owner : ExplicitOwner) (pubkeys : List Pubkey) :
    (own.upsertGroup owner pubkeys).2.WellFormed := by
  by_cases hne : normalizePubkeys pubkeys = []
  · have hsame : (own.upsertGroup owner pubkeys).2 = own := by
      unfold upsertGroup
      dsimp only
      rw [if_pos hne]
    rw [hsame]
    exact h
  have hgroups := groups_upsertGroup own owner hne
  refine wellFormed_of_index ?_ ?_ ?_
  · intro o g hg
    rw [hgroups, SortedMap.lookup_insert] at hg
    split_ifs at hg with ho
    · cases hg
      exact hne
    · exact h.nonempty o g hg
  · intro o g hg
    rw [hgroups, SortedMap.lookup_insert] at hg
    split_ifs at hg with ho
    · cases hg
      exact pairwise_normalizePubkeys pubkeys
    · exact h.sorted o g hg
  · intro pubkey
    rw [mem_holders_put hgroups]
    unfold upsertGroup
    dsimp only
    rw [if_neg hne]
    cases hl : own.groups.lookup owner with
    | none =>
        show (attachOwnerPubkeys owner ∅ own.pubkeyOwners _).2.lookup pubkey = _
        rw [lookup_attach, h.lookup_pubkeyOwners, getD_indexEntry]
        split_ifs with hm
        · exact (indexEntry_ne (Finset.insert_ne_empty _ _)).symm
        · rw [Finset.erase_eq_of_notMem (notMem_holders hl pubkey)]
    | some old =>
        dsimp only
        split_ifs with heq hm hm
        · rw [h.lookup_pubkeyOwners, Finset.insert_eq_of_mem]
          exact mem_holders.mpr ⟨old, hl, heq ▸ hm⟩
        · rw [h.lookup_pubkeyOwners, Finset.erase_eq_of_notMem]
          rw [mem_holders]
          rintro ⟨g, hg, hp⟩
          rw [hl] at hg
          cases hg
          exact hm (heq ▸ hp)
        all_goals
          show (attachOwnerPubkeys owner old.toFinset
            (detachOwnerPubkeys owner own.pubkeyOwners old).2 _).2.lookup pubkey = _
          rw [lookup_attach, lookup_detach_group h hl, getD_indexEntry]
        · have hins : insert owner ((own.holders pubkey).erase owner) =
              insert owner (own.holders pubkey) := by
            ext o
            by_cases ho : o = owner <;> simp [ho]
          rw [if_pos hm, hins, indexEntry_ne (Finset.insert_ne_empty _ _)]
        · rw [if_neg hm]

/-- **A removal keeps the contract.** -/
theorem wellFormed_removeGroup (owner : ExplicitOwner) :
    (own.removeGroup owner).2.WellFormed := by
  unfold removeGroup
  cases hl : own.groups.lookup owner with
  | none => exact h
  | some group =>
      refine wellFormed_of_index ?_ ?_ fun pubkey => ?_
      · intro o g hg
        have hg' : (own.groups.erase owner).lookup o = some g := hg
        rw [SortedMap.lookup_erase] at hg'
        split_ifs at hg'
        exact h.nonempty o g hg'
      · intro o g hg
        have hg' : (own.groups.erase owner).lookup o = some g := hg
        rw [SortedMap.lookup_erase] at hg'
        split_ifs at hg'
        exact h.sorted o g hg'
      · rw [holders_drop rfl]
        exact lookup_detach_group h hl pubkey

/-- An upsert of an unknown owner reports the pubkeys that nobody held. -/
theorem upsertGroup_new {owner : ExplicitOwner} {pubkeys : List Pubkey}
    (hne : normalizePubkeys pubkeys ≠ []) (hl : own.groups.lookup owner = none) :
    (own.upsertGroup owner pubkeys).1 = .ok (.newGroup
      ((normalizePubkeys pubkeys).filter fun pubkey => decide (pubkey ∉ own.union))) := by
  unfold upsertGroup
  dsimp only
  rw [if_neg hne, hl]
  show Except.ok (GroupChange.newGroup (attachOwnerPubkeys owner ∅ own.pubkeyOwners _).1) = _
  rw [fst_attach owner ∅ _ (nodup_normalizePubkeys pubkeys)]
  congr 2
  refine List.filter_congr fun pubkey _ => decide_eq_decide.mpr ?_
  rw [h.lookup_pubkeyOwners, getD_indexEntry, mem_union_iff, Finset.not_nonempty_iff_eq_empty]
  exact and_iff_left (Finset.notMem_empty pubkey)

/-- An upsert of the group that is there changes nothing. -/
theorem upsertGroup_unchanged {owner : ExplicitOwner} {pubkeys : List Pubkey}
    (hl : own.groups.lookup owner = some (normalizePubkeys pubkeys)) :
    own.upsertGroup owner pubkeys = (.ok .unchanged, own) := by
  unfold upsertGroup
  dsimp only
  rw [if_neg (h.nonempty owner _ hl), hl]
  exact if_pos rfl

/-- An upsert of another group reports the pubkeys that nobody held, and those of the old group
    that nobody holds any more. -/
theorem upsertGroup_replaced {owner : ExplicitOwner} {pubkeys old : List Pubkey}
    (hne : normalizePubkeys pubkeys ≠ []) (hl : own.groups.lookup owner = some old)
    (hold : old ≠ normalizePubkeys pubkeys) :
    (own.upsertGroup owner pubkeys).1 = .ok (.replaced
      ((normalizePubkeys pubkeys).filter fun pubkey => decide (pubkey ∉ own.union))
      (old.filter fun pubkey => decide ((own.holders pubkey).erase owner = ∅ ∧
        pubkey ∉ normalizePubkeys pubkeys))) := by
  unfold upsertGroup
  dsimp only
  rw [if_neg hne, hl]
  dsimp only
  rw [if_neg hold]
  show Except.ok (GroupChange.replaced
    (attachOwnerPubkeys owner old.toFinset (detachOwnerPubkeys owner own.pubkeyOwners old).2 _).1
    ((detachOwnerPubkeys owner own.pubkeyOwners old).1.filter _)) = _
  rw [fst_attach owner old.toFinset _ (nodup_normalizePubkeys pubkeys), fst_detach_group h hl,
    List.filter_filter]
  congr 2
  · refine List.filter_congr fun pubkey _ => decide_eq_decide.mpr ?_
    rw [lookup_detach_group h hl, getD_indexEntry, List.mem_toFinset, mem_union_iff,
      Finset.not_nonempty_iff_eq_empty]
    have hown : owner ∈ own.holders pubkey ↔ pubkey ∈ old := by
      rw [mem_holders, hl]
      simp
    constructor
    · rintro ⟨he, ho⟩
      rw [← hown] at ho
      rw [Finset.erase_eq_of_notMem ho] at he
      exact he
    · intro he
      rw [← hown, he]
      exact ⟨rfl, Finset.notMem_empty owner⟩
  · refine List.filter_congr fun pubkey _ => ?_
    rw [← Bool.decide_and]
    refine decide_eq_decide.mpr ?_
    rw [List.mem_toFinset, and_comm]

end Operations

/-! ## 6. What enters and leaves the union -/

/-- The union after an owner's group has been written. -/
theorem mem_union_put {own own' : ExplicitOwnership} {owner : ExplicitOwner}
    {group : List Pubkey} (h : own'.groups = own.groups.insert owner group) {pubkey : Pubkey} :
    pubkey ∈ own'.union ↔ pubkey ∈ group ∨ ((own.holders pubkey).erase owner).Nonempty := by
  rw [mem_union_iff, mem_holders_put h]
  split_ifs with hm
  · simp [hm, Finset.insert_nonempty]
  · simp [hm]

/-- The union after an owner has gone. -/
theorem mem_union_drop {own own' : ExplicitOwnership} {owner : ExplicitOwner}
    (h : own'.groups = own.groups.erase owner) {pubkey : Pubkey} :
    pubkey ∈ own'.union ↔ ((own.holders pubkey).erase owner).Nonempty := by
  rw [mem_union_iff, holders_drop h]

section Union

variable {own own' : ExplicitOwnership} {owner : ExplicitOwner} {group : List Pubkey}

/-- **The pubkeys that a write brings in** are those of the new group that nobody held. -/
theorem added_eq (h : own'.groups = own.groups.insert owner group) :
    (group.filter fun pubkey => decide (pubkey ∉ own.union)).toFinset =
      own'.union \ own.union := by
  ext pubkey
  rw [List.mem_toFinset, List.mem_filter, decide_eq_true_eq, Finset.mem_sdiff, mem_union_put h]
  constructor
  · exact fun hp => ⟨.inl hp.1, hp.2⟩
  · rintro ⟨hm | hm, hno⟩
    · exact ⟨hm, hno⟩
    · exact absurd (mem_union_iff.mpr (hm.mono (Finset.erase_subset _ _))) hno

/-- **The pubkeys that a write over an old group throws out** are those of the old group that
    nobody else held and the new one does not want. -/
theorem removed_eq {old : List Pubkey} (hl : own.groups.lookup owner = some old)
    (h : own'.groups = own.groups.insert owner group) :
    (old.filter fun pubkey => decide ((own.holders pubkey).erase owner = ∅ ∧
      pubkey ∉ group)).toFinset = own.union \ own'.union := by
  ext pubkey
  rw [List.mem_toFinset, List.mem_filter, decide_eq_true_eq, Finset.mem_sdiff, mem_union_put h,
    not_or, Finset.not_nonempty_iff_eq_empty]
  constructor
  · exact fun hp => ⟨mem_union.mpr ⟨owner, old, hl, hp.1⟩, hp.2.2, hp.2.1⟩
  · rintro ⟨hu, hm, he⟩
    refine ⟨?_, he, hm⟩
    obtain ⟨o, ho⟩ := mem_union_iff.mp hu
    have heq : o = owner := by
      by_contra hne
      have hmem : o ∈ (own.holders pubkey).erase owner := Finset.mem_erase.mpr ⟨hne, ho⟩
      rw [he] at hmem
      exact Finset.notMem_empty o hmem
    rw [heq, mem_holders, hl] at ho
    obtain ⟨g, hg, hp⟩ := ho
    cases hg
    exact hp

/-- A write over nothing throws nothing out. -/
theorem union_subset_put (hl : own.groups.lookup owner = none)
    (h : own'.groups = own.groups.insert owner group) : own.union ⊆ own'.union := by
  intro pubkey hp
  rw [mem_union_put h, Finset.erase_eq_of_notMem (notMem_holders hl pubkey)]
  exact .inr (mem_union_iff.mp hp)

end Union

end ExplicitOwnership

/-! ## 7. Every sequence of operations -/

/-- The operations on a store. -/
inductive OwnershipOp where
  | upsertGroup (owner : ExplicitOwner) (pubkeys : List Pubkey)
  | removeGroup (owner : ExplicitOwner)
  | clear

/-- What the operation leaves behind. -/
def OwnershipOp.apply (own : ExplicitOwnership) : OwnershipOp → ExplicitOwnership
  | upsertGroup owner pubkeys => (own.upsertGroup owner pubkeys).2
  | removeGroup owner => (own.removeGroup owner).2
  | clear => own.clear

/-- The lists that an upsert reports are what entered and what left the union; an empty group is
    refused and changes nothing. -/
def UpsertExact (own : ExplicitOwnership) (owner : ExplicitOwner) (pubkeys : List Pubkey) :
    Prop :=
  let own' := (own.upsertGroup owner pubkeys).2
  match (own.upsertGroup owner pubkeys).1 with
  | .error _ => pubkeys = [] ∧ own' = own
  | .ok .unchanged => own' = own
  | .ok (.newGroup physicalAdded) =>
      physicalAdded.Nodup ∧ physicalAdded.toFinset = own'.union \ own.union ∧
        own.union \ own'.union = ∅
  | .ok (.replaced physicalAdded physicalRemoved) =>
      physicalAdded.Nodup ∧ physicalAdded.toFinset = own'.union \ own.union ∧
        physicalRemoved.Nodup ∧ physicalRemoved.toFinset = own.union \ own'.union

open ExplicitOwnership

theorem OwnershipOp.wellFormed_apply {own : ExplicitOwnership} (h : own.WellFormed)
    (op : OwnershipOp) : (op.apply own).WellFormed := by
  cases op with
  | upsertGroup owner pubkeys => exact wellFormed_upsertGroup h owner pubkeys
  | removeGroup owner => exact wellFormed_removeGroup h owner
  | clear => exact wellFormed_new

theorem upsertExact {own : ExplicitOwnership} (h : own.WellFormed) (owner : ExplicitOwner)
    (pubkeys : List Pubkey) : UpsertExact own owner pubkeys := by
  unfold UpsertExact
  by_cases hne : normalizePubkeys pubkeys = []
  · have hempty : own.upsertGroup owner pubkeys = (.error .mk, own) := by
      unfold upsertGroup
      dsimp only
      rw [if_pos hne]
    rw [hempty]
    exact ⟨normalizePubkeys_eq_nil.mp hne, rfl⟩
  have hgroups := groups_upsertGroup own owner hne
  have hnd := nodup_normalizePubkeys pubkeys
  cases hl : own.groups.lookup owner with
  | none =>
      rw [upsertGroup_new h hne hl]
      exact ⟨hnd.filter _, added_eq hgroups, Finset.sdiff_eq_empty_iff_subset.mpr
        (union_subset_put hl hgroups)⟩
  | some old =>
      by_cases hold : old = normalizePubkeys pubkeys
      · rw [hold] at hl
        rw [upsertGroup_unchanged h hl]
      · rw [upsertGroup_replaced h hne hl hold]
        exact ⟨hnd.filter _, added_eq hgroups,
          (SortedList.nodup_of_pairwise (h.sorted owner old hl)).filter _,
          removed_eq hl hgroups⟩

end IronCrab.Track

/-
  File:      IronCrab/Track/PlanningSnapshot.lean
  Subject:   THE VALIDATED VIEW THE EVICTION PLANNER WORKS ON (`EvictionPlanningSnapshot`).

  A snapshot is built from the owner groups and one LRU row for each owner: owner records in owner
  order and, for each pubkey, its owners and their number. `Describes` says what it then tells
  about the store.

  * `describes_of_ok` -- a snapshot that was built describes its store;
  * `fromOwnership_isOk` -- it is built whenever the LRU rows are those of a map whose keys are
    the owners: no validation of the constructor fails on a well-formed store.
-/
import IronCrab.Track.Ownership

namespace IronCrab.Track

/-! ## 1. Data -/

/-- `OwnerLruEntry`. -/
structure OwnerLruEntry where
  owner : ExplicitOwner
  lastTouch : Nat

/-- `OwnerPlanningRecord`. -/
structure OwnerPlanningRecord where
  owner : ExplicitOwner
  lastTouch : Nat
  pubkeys : List Pubkey

/-- `PubkeyOwnerIndex`. -/
structure PubkeyOwnerIndex where
  pubkey : Pubkey
  refcount : Nat
  owners : List ExplicitOwner

/-- `EvictionPlanningSnapshot`. -/
structure EvictionPlanningSnapshot where
  physicalLen : Nat
  physicalPubkeys : List Pubkey
  owners : List OwnerPlanningRecord
  pubkeyIndex : List PubkeyOwnerIndex

/-- `SnapshotBuildError`. -/
inductive SnapshotBuildError where
  | missingLruEntry (owner : ExplicitOwner)
  | unknownLruOwner (owner : ExplicitOwner)
  | duplicateLruOwner (owner : ExplicitOwner)
  | physicalLenMismatch (derived canonical : Nat)
  | physicalPubkeysMismatch
  | refcountMismatch (pubkey : Pubkey) (derived canonical : Nat)

/-! ## 2. Construction -/

/-- The stamps by owner. -/
abbrev OwnerLru := SortedMap ExplicitOwner Nat

/-- `owner_set_from_groups`. -/
def ownerSetFromGroups (groups : List OwnerGroupSnapshot) : SortedSet ExplicitOwner :=
  groups.foldl (fun set group => set.insert group.owner ()) .empty

/-- The loop over the LRU rows. -/
def lruByOwner (ownersInOwnership : SortedSet ExplicitOwner) :
    OwnerLru → List OwnerLruEntry → Except SnapshotBuildError OwnerLru
  | lru, [] => .ok lru
  | lru, entry :: entries =>
      if lru.contains entry.owner then .error (.duplicateLruOwner entry.owner)
      else if ownersInOwnership.contains entry.owner = false then
        .error (.unknownLruOwner entry.owner)
      else lruByOwner ownersInOwnership (lru.insert entry.owner entry.lastTouch) entries

/-- The owner records, in the order of the groups. -/
def ownerRecords (lru : OwnerLru) :
    List OwnerGroupSnapshot → Except SnapshotBuildError (List OwnerPlanningRecord)
  | [] => .ok []
  | group :: groups =>
      match lru.lookup group.owner with
      | none => .error (.missingLruEntry group.owner)
      | some lastTouch =>
          match ownerRecords lru groups with
          | .error e => .error e
          | .ok records => .ok (⟨group.owner, lastTouch, group.pubkeys⟩ :: records)

/-- `entry(pubkey).or_default().insert(owner)`. -/
def indexOwner (owner : ExplicitOwner) (index : SortedMap Pubkey (SortedSet ExplicitOwner))
    (pubkey : Pubkey) : SortedMap Pubkey (SortedSet ExplicitOwner) :=
  index.insert pubkey (((index.lookup pubkey).getD .empty).insert owner ())

/-- `owners_by_pubkey` in `build_pubkey_index`. -/
def ownersByPubkey (owners : List OwnerPlanningRecord) :
    SortedMap Pubkey (SortedSet ExplicitOwner) :=
  owners.foldl (fun index record => record.pubkeys.foldl (indexOwner record.owner) index) .empty

/-- `build_pubkey_index`. -/
def buildPubkeyIndex (owners : List OwnerPlanningRecord) : List PubkeyOwnerIndex :=
  (ownersByPubkey owners).entries.map fun e => ⟨e.1, e.2.keys.length, e.2.keys⟩

/-- `validate_against_ownership`. -/
def validateAgainstOwnership (ownership : ExplicitOwnership) (canonicalPubkeys : List Pubkey)
    (pubkeyIndex : List PubkeyOwnerIndex) : Except SnapshotBuildError Unit :=
  let derivedPubkeys := pubkeyIndex.map (·.pubkey)
  if derivedPubkeys ≠ canonicalPubkeys then
    if derivedPubkeys.length ≠ canonicalPubkeys.length then
      .error (.physicalLenMismatch derivedPubkeys.length canonicalPubkeys.length)
    else .error .physicalPubkeysMismatch
  else
    match pubkeyIndex.find? fun row => decide (row.refcount ≠ ownership.ownerRefcount row.pubkey)
    with
    | some row => .error (.refcountMismatch row.pubkey row.refcount
        (ownership.ownerRefcount row.pubkey))
    | none => .ok ()

namespace EvictionPlanningSnapshot

/-- The snapshot over owner records. -/
def ofRecords (records : List OwnerPlanningRecord) : EvictionPlanningSnapshot :=
  let pubkeyIndex := buildPubkeyIndex records
  let physicalPubkeys := pubkeyIndex.map (·.pubkey)
  ⟨physicalPubkeys.length, physicalPubkeys, records, pubkeyIndex⟩

/-- `EvictionPlanningSnapshot::from_ownership`. -/
def fromOwnership (ownership : ExplicitOwnership)
    (lruEntries : List OwnerLruEntry) : Except SnapshotBuildError EvictionPlanningSnapshot :=
  let ownerGroups := ownership.snapshotOwnerGroups
  let canonicalPubkeys := ownership.snapshotPubkeys
  let ownersInOwnership := ownerSetFromGroups ownerGroups
  match lruByOwner ownersInOwnership .empty lruEntries with
  | .error e => .error e
  | .ok lru =>
      match ownersInOwnership.keys.find? fun owner => !lru.contains owner with
      | some owner => .error (.missingLruEntry owner)
      | none =>
          match ownerRecords lru ownerGroups with
          | .error e => .error e
          | .ok records =>
              let snapshot := ofRecords (records.insertionSort fun a b => a.owner ≤ b.owner)
              match validateAgainstOwnership ownership canonicalPubkeys snapshot.pubkeyIndex with
              | .error e => .error e
              | .ok () => .ok snapshot

/-- `owner_record`. -/
def ownerRecord (s : EvictionPlanningSnapshot) (owner : ExplicitOwner) :
    Option OwnerPlanningRecord := s.owners.find? fun record => decide (record.owner = owner)

/-- `owner_refcount`. -/
def ownerRefcount (s : EvictionPlanningSnapshot) (pubkey : Pubkey) : Nat :=
  ((s.pubkeyIndex.find? fun row => decide (row.pubkey = pubkey)).map (·.refcount)).getD 0

/-- `last_touch`. -/
def lastTouch (s : EvictionPlanningSnapshot) (owner : ExplicitOwner) : Option Nat :=
  (s.ownerRecord owner).map (·.lastTouch)

/-- **What a snapshot tells about its store.** -/
structure Describes (s : EvictionPlanningSnapshot) (own : ExplicitOwnership) : Prop where
  /-- One record for each owner, in owner order. -/
  records : s.owners.map (·.owner) = own.groups.keys
  /-- One row for each pubkey of the union, in pubkey order. -/
  rows : (s.pubkeyIndex.map (·.pubkey)).Pairwise (· < ·)
  union : (s.pubkeyIndex.map (·.pubkey)).toFinset = own.union
  /-- The owners of a row are the holders of its pubkey. -/
  holders : ∀ row ∈ s.pubkeyIndex, row.owners.toFinset = own.holders row.pubkey
  sortedOwners : ∀ row ∈ s.pubkeyIndex, row.owners.Pairwise (· < ·)
  refcount : ∀ row ∈ s.pubkeyIndex, row.refcount = (own.holders row.pubkey).card
  physicalLen : s.physicalLen = own.union.card

end EvictionPlanningSnapshot

/-! ## 3. The pieces of the construction -/

theorem mem_ownerSetFromGroups {groups : List OwnerGroupSnapshot} {owner : ExplicitOwner} :
    owner ∈ (ownerSetFromGroups groups).keys ↔ owner ∈ groups.map (·.owner) := by
  have hfold : ∀ (groups : List OwnerGroupSnapshot) (set : SortedSet ExplicitOwner),
      owner ∈ (groups.foldl (fun set group => set.insert group.owner ()) set).keys ↔
        owner ∈ set.keys ∨ owner ∈ groups.map (·.owner) := by
    intro groups
    induction groups with
    | nil => intro set; simp
    | cons group groups ih =>
        intro set
        rw [List.foldl_cons, ih, SortedMap.mem_keys_insert, List.map_cons, List.mem_cons]
        tauto
  have h := hfold groups .empty
  simpa [ownerSetFromGroups] using h

theorem owners_snapshotOwnerGroups (own : ExplicitOwnership) :
    own.snapshotOwnerGroups.map (·.owner) = own.groups.keys := by
  unfold ExplicitOwnership.snapshotOwnerGroups SortedMap.keys
  rw [List.map_map]
  rfl

/-- Rows with distinct known owners are all taken. -/
theorem lruByOwner_ok {set : SortedSet ExplicitOwner} {entries : List OwnerLruEntry}
    {lru : OwnerLru} (hnd : (entries.map (·.owner)).Nodup)
    (hset : ∀ e ∈ entries, e.owner ∈ set.keys) (hnew : ∀ e ∈ entries, e.owner ∉ lru.keys) :
    ∃ lru', lruByOwner set lru entries = .ok lru' ∧
      ∀ owner, owner ∈ lru'.keys ↔ owner ∈ lru.keys ∨ owner ∈ entries.map (·.owner) := by
  induction entries generalizing lru with
  | nil => exact ⟨lru, rfl, fun owner => by simp⟩
  | cons e entries ih =>
      obtain ⟨he, hnd⟩ := List.nodup_cons.mp hnd
      have hfresh : lru.contains e.owner = false := by
        unfold SortedMap.contains
        rw [SortedMap.lookup_eq_none.mpr (hnew e List.mem_cons_self)]
        rfl
      have hknown : set.contains e.owner = true :=
        SortedMap.mem_keys_iff_isSome.mp (hset e List.mem_cons_self)
      have hnew' : ∀ e' ∈ entries, e'.owner ∉ (lru.insert e.owner e.lastTouch).keys := by
        intro e' he' hk
        rcases SortedMap.mem_keys_insert.mp hk with heq | hk
        · exact he (List.mem_map.mpr ⟨e', he', heq⟩)
        · exact hnew e' (List.mem_cons_of_mem _ he') hk
      obtain ⟨lru', hok, hkeys⟩ := ih hnd (fun e' h => hset e' (List.mem_cons_of_mem _ h)) hnew'
      refine ⟨lru', ?_, fun owner => ?_⟩
      · rw [lruByOwner, if_neg (by rw [hfresh]; decide), if_neg (by rw [hknown]; decide)]
        exact hok
      · rw [hkeys, SortedMap.mem_keys_insert, List.map_cons, List.mem_cons]
        tauto

/-- The records of groups whose owners all have a stamp. -/
theorem ownerRecords_ok {lru : OwnerLru} {groups : List OwnerGroupSnapshot}
    (h : ∀ group ∈ groups, group.owner ∈ lru.keys) :
    ∃ records, ownerRecords lru groups = .ok records := by
  induction groups with
  | nil => exact ⟨[], rfl⟩
  | cons group groups ih =>
      obtain ⟨lastTouch, ht⟩ := SortedMap.mem_keys.mp (h group List.mem_cons_self)
      obtain ⟨records, hr⟩ := ih fun g hg => h g (List.mem_cons_of_mem _ hg)
      refine ⟨⟨group.owner, lastTouch, group.pubkeys⟩ :: records, ?_⟩
      rw [ownerRecords, ht, hr]

/-- What the records are, when they were made. -/
theorem ownerRecords_spec {lru : OwnerLru} {groups : List OwnerGroupSnapshot}
    {records : List OwnerPlanningRecord} (h : ownerRecords lru groups = .ok records) :
    records.map (fun r => (r.owner, r.pubkeys)) = groups.map fun g => (g.owner, g.pubkeys) := by
  induction groups generalizing records with
  | nil =>
      cases h
      rfl
  | cons group groups ih =>
      rw [ownerRecords] at h
      cases hl : lru.lookup group.owner with
      | none =>
          rw [hl] at h
          cases h
      | some lastTouch =>
          rw [hl] at h
          cases hr : ownerRecords lru groups with
          | error e =>
              rw [hr] at h
              cases h
          | ok rest =>
              rw [hr] at h
              cases h
              rw [List.map_cons, List.map_cons, ih hr]

section Index

/-- The index lists exactly the owners of these edges. -/
structure IndexOf (index : SortedMap Pubkey (SortedSet ExplicitOwner))
    (edges : List (ExplicitOwner × Pubkey)) : Prop where
  mem : ∀ pubkey owner, owner ∈ ((index.lookup pubkey).getD .empty).keys ↔
    (owner, pubkey) ∈ edges
  key : ∀ pubkey, pubkey ∈ index.keys ↔ ∃ owner, (owner, pubkey) ∈ edges

theorem IndexOf.step {index : SortedMap Pubkey (SortedSet ExplicitOwner)}
    {edges : List (ExplicitOwner × Pubkey)} (h : IndexOf index edges) (owner : ExplicitOwner)
    (pubkey : Pubkey) : IndexOf (indexOwner owner index pubkey) (edges ++ [(owner, pubkey)]) where
  mem := by
    intro k o
    unfold indexOwner
    rw [SortedMap.lookup_insert, List.mem_append, List.mem_singleton, Prod.mk.injEq]
    by_cases hk : k = pubkey
    · subst hk
      rw [if_pos rfl, Option.getD_some, SortedMap.mem_keys_insert, h.mem]
      tauto
    · rw [if_neg hk, h.mem]
      tauto
  key := by
    intro k
    unfold indexOwner
    rw [SortedMap.mem_keys_insert, h.key]
    constructor
    · rintro (rfl | ⟨o, ho⟩)
      · exact ⟨owner, by simp⟩
      · exact ⟨o, List.mem_append_left _ ho⟩
    · rintro ⟨o, ho⟩
      rcases List.mem_append.mp ho with ho | ho
      · exact .inr ⟨o, ho⟩
      · exact .inl (Prod.mk.inj (List.mem_singleton.mp ho)).2

/-- Running over the pubkeys of one record. -/
theorem IndexOf.record {index : SortedMap Pubkey (SortedSet ExplicitOwner)}
    {edges : List (ExplicitOwner × Pubkey)} (h : IndexOf index edges) (owner : ExplicitOwner)
    (pubkeys : List Pubkey) : IndexOf (pubkeys.foldl (indexOwner owner) index)
      (edges ++ pubkeys.map fun pubkey => (owner, pubkey)) := by
  induction pubkeys generalizing index edges with
  | nil => simpa using h
  | cons k pubkeys ih =>
      have hrest := ih (h.step owner k)
      rw [List.append_assoc] at hrest
      exact hrest

/-- **The index over all records.** -/
theorem indexOf_ownersByPubkey (records : List OwnerPlanningRecord) :
    IndexOf (ownersByPubkey records)
      (records.flatMap fun r => r.pubkeys.map fun pubkey => (r.owner, pubkey)) := by
  have hfold : ∀ (records : List OwnerPlanningRecord) index edges, IndexOf index edges →
      IndexOf (records.foldl (fun index r => r.pubkeys.foldl (indexOwner r.owner) index) index)
        (edges ++ records.flatMap fun r => r.pubkeys.map fun pubkey => (r.owner, pubkey)) := by
    intro records
    induction records with
    | nil => intro index edges h; simpa using h
    | cons r records ih =>
        intro index edges h
        have hrest := ih _ _ (h.record r.owner r.pubkeys)
        rw [List.append_assoc] at hrest
        exact hrest
  have hempty : IndexOf .empty [] := ⟨fun _ _ => by simp, fun _ => by simp⟩
  exact hfold records .empty [] hempty

end Index

/-! ## 4. The snapshot describes its store -/

section Construction

open EvictionPlanningSnapshot

theorem pubkeys_buildPubkeyIndex (records : List OwnerPlanningRecord) :
    (buildPubkeyIndex records).map (·.pubkey) = (ownersByPubkey records).keys := by
  unfold buildPubkeyIndex SortedMap.keys
  rw [List.map_map]
  rfl

theorem pairwise_buildPubkeyIndex (records : List OwnerPlanningRecord) :
    ((buildPubkeyIndex records).map (·.pubkey)).Pairwise (· < ·) := by
  rw [pubkeys_buildPubkeyIndex]
  exact (ownersByPubkey records).pairwise_keys

variable {own : ExplicitOwnership} {records : List OwnerPlanningRecord}
  (hrec : records.map (fun r => (r.owner, r.pubkeys)) =
    own.snapshotOwnerGroups.map fun g => (g.owner, g.pubkeys))
include hrec

theorem records_eq_entries :
    records.map (fun r => (r.owner, r.pubkeys)) = own.groups.entries := by
  rw [hrec]
  unfold ExplicitOwnership.snapshotOwnerGroups
  rw [List.map_map]
  exact List.map_id _

theorem records_owners : records.map (·.owner) = own.groups.keys := by
  unfold SortedMap.keys
  rw [← records_eq_entries hrec, List.map_map]
  rfl

/-- The records are made in owner order, so sorting them changes nothing. -/
theorem records_sorted : records.insertionSort (fun a b => a.owner ≤ b.owner) = records := by
  have hp : (records.map (·.owner)).Pairwise (· < ·) := by
    rw [records_owners hrec]
    exact own.groups.pairwise_keys
  exact ((List.pairwise_map.mp hp).imp fun hlt => le_of_lt hlt).insertionSort_eq

theorem mem_edges {owner : ExplicitOwner} {pubkey : Pubkey} :
    (owner, pubkey) ∈ records.flatMap (fun r => r.pubkeys.map fun k => (r.owner, k)) ↔
      owner ∈ own.holders pubkey := by
  rw [ExplicitOwnership.mem_holders, List.mem_flatMap]
  constructor
  · rintro ⟨r, hr, hm⟩
    obtain ⟨k, hk, heq⟩ := List.mem_map.mp hm
    obtain ⟨rfl, rfl⟩ := Prod.mk.inj heq
    refine ⟨r.pubkeys, SortedMap.mem_entries.mp ?_, hk⟩
    rw [← records_eq_entries hrec]
    exact List.mem_map_of_mem (f := fun r : OwnerPlanningRecord => (r.owner, r.pubkeys)) hr
  · rintro ⟨g, hg, hk⟩
    have he := SortedMap.mem_entries.mpr hg
    rw [← records_eq_entries hrec] at he
    obtain ⟨r, hr, heq⟩ := List.mem_map.mp he
    obtain ⟨rfl, rfl⟩ := Prod.mk.inj heq
    exact ⟨r, hr, List.mem_map_of_mem hk⟩

/-- A row of the index: a pubkey with its holders in order. -/
theorem row_spec {row : PubkeyOwnerIndex} (hrow : row ∈ buildPubkeyIndex records) :
    row.owners.toFinset = own.holders row.pubkey ∧ row.owners.Pairwise (· < ·) ∧
      row.refcount = (own.holders row.pubkey).card := by
  have hindex := indexOf_ownersByPubkey records
  obtain ⟨⟨k, set⟩, he, rfl⟩ := List.mem_map.mp hrow
  have hl : (ownersByPubkey records).lookup k = some set := SortedMap.mem_entries.mp he
  have hset : set.keys.toFinset = own.holders k := by
    ext owner
    have hm := hindex.mem k owner
    rw [hl, Option.getD_some, mem_edges hrec] at hm
    rw [List.mem_toFinset]
    exact hm
  refine ⟨hset, set.pairwise_keys, ?_⟩
  show set.keys.length = _
  rw [← hset, SortedList.length_eq_card set.pairwise_keys]

theorem toFinset_buildPubkeyIndex :
    ((buildPubkeyIndex records).map (·.pubkey)).toFinset = own.union := by
  ext pubkey
  rw [pubkeys_buildPubkeyIndex, List.mem_toFinset,
    (indexOf_ownersByPubkey records).key, ExplicitOwnership.mem_union_iff]
  exact exists_congr fun owner => mem_edges hrec

/-- The derived pubkeys are the canonical ones. -/
theorem derived_eq_canonical (h : own.WellFormed) :
    (buildPubkeyIndex records).map (·.pubkey) = own.snapshotPubkeys := by
  refine SortedList.eq_of_toFinset_eq (pairwise_buildPubkeyIndex records)
    h.pairwise_snapshotPubkeys ?_
  rw [toFinset_buildPubkeyIndex hrec, h.toFinset_snapshotPubkeys]

/-- **No validation fails.** -/
theorem validate_ok (h : own.WellFormed) :
    validateAgainstOwnership own own.snapshotPubkeys (buildPubkeyIndex records) = .ok () := by
  unfold validateAgainstOwnership
  dsimp only
  rw [if_neg (not_not.mpr (derived_eq_canonical hrec h)), List.find?_eq_none.mpr]
  intro row hrow
  rw [decide_eq_true_eq, not_not, h.ownerRefcount_eq]
  exact (row_spec hrec hrow).2.2

/-- The snapshot that the constructor returns describes the store. -/
theorem describes_records : (ofRecords records).Describes own where
  records := records_owners hrec
  rows := pairwise_buildPubkeyIndex records
  union := toFinset_buildPubkeyIndex hrec
  holders := fun row hrow => (row_spec hrec hrow).1
  sortedOwners := fun row hrow => (row_spec hrec hrow).2.1
  refcount := fun row hrow => (row_spec hrec hrow).2.2
  physicalLen := by
    rw [← toFinset_buildPubkeyIndex hrec]
    exact SortedList.length_eq_card (pairwise_buildPubkeyIndex records)

end Construction

namespace EvictionPlanningSnapshot

/-- **A snapshot that was built describes its store.** -/
theorem describes_of_ok {own : ExplicitOwnership} {entries : List OwnerLruEntry}
    {s : EvictionPlanningSnapshot} (h : fromOwnership own entries = .ok s) : s.Describes own := by
  unfold fromOwnership at h
  dsimp only at h
  split at h
  · cases h
  split at h
  · cases h
  split at h
  · cases h
  next records hrecords =>
    have hrec := ownerRecords_spec hrecords
    rw [records_sorted hrec] at h
    split at h
    · cases h
    · cases h
      exact describes_records hrec

/-- **The constructor succeeds on a well-formed store** with one LRU row for each owner. -/
theorem fromOwnership_isOk {own : ExplicitOwnership} (h : own.WellFormed)
    {entries : List OwnerLruEntry} (hnd : (entries.map (·.owner)).Nodup)
    (hkeys : ∀ owner, owner ∈ entries.map (·.owner) ↔ owner ∈ own.groups.keys) :
    ∃ s, fromOwnership own entries = .ok s := by
  have hset : ∀ owner, owner ∈ (ownerSetFromGroups own.snapshotOwnerGroups).keys ↔
      owner ∈ own.groups.keys := by
    intro owner
    rw [mem_ownerSetFromGroups, owners_snapshotOwnerGroups]
  have hknown : ∀ e ∈ entries, e.owner ∈ (ownerSetFromGroups own.snapshotOwnerGroups).keys :=
    fun e he => (hset e.owner).mpr ((hkeys e.owner).mp (List.mem_map_of_mem he))
  have hnew : ∀ e ∈ entries, e.owner ∉ (.empty : OwnerLru).keys := fun e _ => by simp
  obtain ⟨lru, hlru, hlkeys⟩ := lruByOwner_ok hnd hknown hnew
  have hall : ∀ owner, owner ∈ own.groups.keys → owner ∈ lru.keys := by
    intro owner ho
    exact (hlkeys owner).mpr (.inr ((hkeys owner).mpr ho))
  have hmiss : (ownerSetFromGroups own.snapshotOwnerGroups).keys.find?
      (fun owner => !lru.contains owner) = none := by
    rw [List.find?_eq_none]
    intro owner ho
    have hmem : lru.contains owner = true :=
      SortedMap.mem_keys_iff_isSome.mp (hall owner ((hset owner).mp ho))
    rw [hmem]
    decide
  have hgroups : ∀ group ∈ own.snapshotOwnerGroups, group.owner ∈ lru.keys := by
    intro group hg
    refine hall _ ?_
    rw [← owners_snapshotOwnerGroups]
    exact List.mem_map_of_mem hg
  obtain ⟨records, hrecords⟩ := ownerRecords_ok hgroups
  have hrec := ownerRecords_spec hrecords
  have hvalid := validate_ok hrec h
  refine ⟨ofRecords records, ?_⟩
  unfold fromOwnership
  dsimp only
  rw [hlru]
  dsimp only
  rw [hmiss]
  dsimp only
  rw [hrecords]
  dsimp only
  rw [records_sorted hrec]
  show (match validateAgainstOwnership own own.snapshotPubkeys (buildPubkeyIndex records) with
    | .error e => Except.error e
    | .ok () => .ok (ofRecords records)) = _
  rw [hvalid]

end EvictionPlanningSnapshot

end IronCrab.Track

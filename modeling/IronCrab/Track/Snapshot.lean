/-
  File:      IronCrab/Track/Snapshot.lean
  Subject:   THE OWNER GROUPS ON DISK (`snapshot.rs`).

  Keys and pubkeys are written as text and read back by partial decoders that drop what they cannot
  read. The two text codecs are a parameter, `TextCodec`; `TextCodec.solana` is Base58 and decimal.

  * `snapshotOwnerGroupToDomain_toDisk` -- a written group reads back as itself;
  * **`persist_restore_identity`** -- restoring what was persisted gives exactly the groups that are
    not the tracker's.
-/
import IronCrab.Track.Converge
import IronCrab.Lib.Numeral

namespace IronCrab.Track

open ExplicitOwnership

/-! ## 1. The records -/

/-- `SnapshotConsumer`. -/
inductive SnapshotConsumer where
  | wallet
  | momentumPosition
  | momentum
  | arb
  | tracker
  deriving DecidableEq

/-- `SnapshotConsumer::from(ExplicitConsumer)`. -/
def SnapshotConsumer.ofExplicit : ExplicitConsumer → SnapshotConsumer
  | .wallet => wallet
  | .momentumPosition => momentumPosition
  | .momentum => momentum
  | .arb => arb
  | .tracker => tracker

/-- `snapshot_consumer_to_domain`. -/
def snapshotConsumerToDomain : SnapshotConsumer → ExplicitConsumer
  | .wallet => .wallet
  | .momentumPosition => .momentumPosition
  | .momentum => .momentum
  | .arb => .arb
  | .tracker => .tracker

/-- `ExplicitSnapshotRow`. -/
structure ExplicitSnapshotRow where
  pubkey : String
  consumer : SnapshotConsumer
  pool : Option String
  deriving DecidableEq

/-- `SnapshotOwnerKey`. -/
structure SnapshotOwnerKey where
  kind : String
  pubkey : Option String
  deriving DecidableEq

/-- `SnapshotOwnerGroup`. -/
structure SnapshotOwnerGroup where
  consumer : SnapshotConsumer
  owner : SnapshotOwnerKey
  pubkeys : List String
  deriving DecidableEq

/-- `ExplicitSetSnapshot`: what the owner groups are read from. -/
structure ExplicitSetSnapshot where
  rows : List ExplicitSnapshotRow
  ownerGroups : List SnapshotOwnerGroup
  deriving DecidableEq

/-- `ExplicitSetSnapshot::new`. -/
def ExplicitSetSnapshot.new : ExplicitSetSnapshot := ⟨[], []⟩

/-- How pubkeys and 64-bit numbers are written and read. -/
structure TextCodec where
  /-- `Pubkey::to_string`. -/
  pubkeyToString : Pubkey → String
  /-- `Pubkey::from_str`. -/
  pubkeyFromStr : String → Option Pubkey
  /-- `u64::to_string`. -/
  u64ToString : UInt64 → String
  /-- `str::parse::<u64>`. -/
  parseU64 : String → Option UInt64

/-- What is written reads back. -/
structure TextCodec.RoundTrips (codec : TextCodec) : Prop where
  pubkey : ∀ pubkey, codec.pubkeyFromStr (codec.pubkeyToString pubkey) = some pubkey
  u64 : ∀ id, codec.parseU64 (codec.u64ToString id) = some id

/-! ## 2. The codecs -/

section Codec

variable (codec : TextCodec)

/-- `explicit_owner_key_to_snapshot`. -/
def explicitOwnerKeyToSnapshot : ExplicitOwnerKey → SnapshotOwnerKey
  | .wallet => ⟨"wallet", none⟩
  | .pool pk => ⟨"pool", some (codec.pubkeyToString pk)⟩
  | .mint pk => ⟨"mint", some (codec.pubkeyToString pk)⟩
  | .generic id => ⟨"generic", some (codec.u64ToString id)⟩

/-- `snapshot_owner_key_to_domain`. -/
def snapshotOwnerKeyToDomain (key : SnapshotOwnerKey) : Option ExplicitOwnerKey :=
  match key.kind with
  | "wallet" => some .wallet
  | "pool" => (key.pubkey.bind codec.pubkeyFromStr).map .pool
  | "mint" => (key.pubkey.bind codec.pubkeyFromStr).map .mint
  | "generic" => (key.pubkey.bind codec.parseU64).map .generic
  | _ => none

/-- `snapshot_owner_group_to_domain`. -/
def snapshotOwnerGroupToDomain (group : SnapshotOwnerGroup) : Option OwnerGroupSnapshot :=
  (snapshotOwnerKeyToDomain codec group.owner).bind fun ownerKey =>
    let pubkeys := group.pubkeys.filterMap codec.pubkeyFromStr
    if pubkeys = [] then none
    else some ⟨snapshotConsumerToDomain group.consumer, ownerKey, pubkeys⟩

/-- `owner_group_snapshot_to_disk`. -/
def ownerGroupSnapshotToDisk (group : OwnerGroupSnapshot) : SnapshotOwnerGroup :=
  ⟨.ofExplicit group.consumer, explicitOwnerKeyToSnapshot codec group.ownerKey,
    group.pubkeys.map codec.pubkeyToString⟩

/-- The owner of a row; none when its pool cannot be read. -/
def rowOwner (row : ExplicitSnapshotRow) (pk : Pubkey) : Option ExplicitOwner :=
  let consumer := snapshotConsumerToDomain row.consumer
  if consumer = .wallet then some ⟨consumer, .wallet⟩
  else
    match row.pool with
    | some pool => (codec.pubkeyFromStr pool).map fun pool => ⟨consumer, .pool pool⟩
    | none => some ⟨consumer, .mint pk⟩

/-- `rows_to_owner_group_snapshots`. -/
def rowsToOwnerGroupSnapshots (rows : List ExplicitSnapshotRow) : List OwnerGroupSnapshot :=
  let groups : SortedMap ExplicitOwner (List Pubkey) := rows.foldl (fun groups row =>
    match codec.pubkeyFromStr row.pubkey with
    | none => groups
    | some pk =>
        match rowOwner codec row pk with
        | none => groups
        | some owner =>
            groups.insert owner (normalizePubkeys (pk :: (groups.lookup owner).getD []))) .empty
  groups.entries.map fun e => .fromOwner e.1 e.2

/-- `to_owner_group_snapshots`: rows are only read where there are no groups. -/
def ExplicitSetSnapshot.toOwnerGroupSnapshots (snapshot : ExplicitSetSnapshot) :
    List OwnerGroupSnapshot :=
  if snapshot.ownerGroups ≠ [] then
    snapshot.ownerGroups.filterMap (snapshotOwnerGroupToDomain codec)
  else rowsToOwnerGroupSnapshots codec snapshot.rows

end Codec

/-- `snapshot_consumer_is_persistable`. -/
def snapshotConsumerIsPersistable : SnapshotConsumer → Bool
  | .tracker => false
  | _ => true

/-- `snapshot_owner_groups_for_persist`. -/
def snapshotOwnerGroupsForPersist (groups : List SnapshotOwnerGroup) : List SnapshotOwnerGroup :=
  groups.filter fun g => snapshotConsumerIsPersistable g.consumer

/-- The snapshot of an admission: its owner groups, beside these rows. -/
def FixedCapAdmission.persisted (codec : TextCodec) (adm : FixedCapAdmission)
    (rows : List ExplicitSnapshotRow) : ExplicitSetSnapshot :=
  { rows := rows
    ownerGroups := snapshotOwnerGroupsForPersist
      (adm.snapshotOwnerGroups.map (ownerGroupSnapshotToDisk codec)) }

/-! ## 3. Reading back what was written -/

theorem snapshotConsumerToDomain_ofExplicit (consumer : ExplicitConsumer) :
    snapshotConsumerToDomain (.ofExplicit consumer) = consumer := by
  cases consumer <;> rfl

theorem snapshotConsumerIsPersistable_ofExplicit (consumer : ExplicitConsumer) :
    snapshotConsumerIsPersistable (.ofExplicit consumer) = decide (consumer ≠ .tracker) := by
  cases consumer <;> rfl

section Written

variable {codec : TextCodec} (hc : codec.RoundTrips)
include hc

theorem snapshotOwnerKeyToDomain_toSnapshot (key : ExplicitOwnerKey) :
    snapshotOwnerKeyToDomain codec (explicitOwnerKeyToSnapshot codec key) = some key := by
  cases key with
  | wallet => rfl
  | pool pk =>
      show ((some (codec.pubkeyToString pk)).bind codec.pubkeyFromStr).map _ = _
      rw [Option.bind_some, hc.pubkey, Option.map_some]
  | mint pk =>
      show ((some (codec.pubkeyToString pk)).bind codec.pubkeyFromStr).map _ = _
      rw [Option.bind_some, hc.pubkey, Option.map_some]
  | generic id =>
      show ((some (codec.u64ToString id)).bind codec.parseU64).map _ = _
      rw [Option.bind_some, hc.u64, Option.map_some]

theorem filterMap_pubkeyFromStr (pubkeys : List Pubkey) :
    (pubkeys.map codec.pubkeyToString).filterMap codec.pubkeyFromStr = pubkeys := by
  rw [List.filterMap_map]
  have hid : (codec.pubkeyFromStr ∘ codec.pubkeyToString) = some := funext hc.pubkey
  rw [hid, List.filterMap_some]

/-- **A written group reads back as itself.** -/
theorem snapshotOwnerGroupToDomain_toDisk {group : OwnerGroupSnapshot} (hne : group.pubkeys ≠ []) :
    snapshotOwnerGroupToDomain codec (ownerGroupSnapshotToDisk codec group) = some group := by
  unfold snapshotOwnerGroupToDomain ownerGroupSnapshotToDisk
  dsimp only
  rw [snapshotOwnerKeyToDomain_toSnapshot hc, Option.bind_some, filterMap_pubkeyFromStr hc,
    if_neg hne, snapshotConsumerToDomain_ofExplicit]

/-- What is read back: the groups that are not the tracker's. -/
theorem toOwnerGroupSnapshots_persisted {adm : FixedCapAdmission} (h : adm.Inv)
    {rows : List ExplicitSnapshotRow}
    (hrows : rows = [] ∨ ∃ group ∈ adm.snapshotOwnerGroups, group.consumer ≠ .tracker) :
    (adm.persisted codec rows).toOwnerGroupSnapshots codec =
      adm.snapshotOwnerGroups.filter fun g => decide (g.consumer ≠ .tracker) := by
  have hkept : (adm.persisted codec rows).ownerGroups =
      (adm.snapshotOwnerGroups.filter fun g => decide (g.consumer ≠ .tracker)).map
        (ownerGroupSnapshotToDisk codec) := by
    show ((adm.snapshotOwnerGroups.map _).filter _) = _
    rw [List.filter_map]
    congr 1
    refine List.filter_congr fun g _ => ?_
    exact snapshotConsumerIsPersistable_ofExplicit g.consumer
  have hread : ∀ g ∈ adm.snapshotOwnerGroups.filter fun g => decide (g.consumer ≠ .tracker),
      (snapshotOwnerGroupToDomain codec ∘ ownerGroupSnapshotToDisk codec) g = some g := by
    intro g hg
    obtain ⟨e, he, rfl⟩ := List.mem_map.mp (List.mem_filter.mp hg).1
    have hne := h.wellFormed.nonempty e.1 e.2 (SortedMap.mem_entries.mp he)
    exact snapshotOwnerGroupToDomain_toDisk hc hne
  unfold ExplicitSetSnapshot.toOwnerGroupSnapshots
  by_cases hnil : (adm.persisted codec rows).ownerGroups = []
  · rw [if_neg (not_not.mpr hnil)]
    rw [hkept, List.map_eq_nil_iff] at hnil
    rw [hnil]
    rcases hrows with rfl | ⟨g, hg, hne⟩
    · rfl
    · exact absurd (List.mem_filter.mpr ⟨hg, decide_eq_true hne⟩) (hnil ▸ List.not_mem_nil)
  · rw [if_pos hnil, hkept, List.filterMap_map, List.filterMap_congr hread, List.filterMap_some]

end Written

/-! ## 4. Restoring what was persisted -/

/-- The picked groups as a demand. -/
theorem demand_snapshot (adm : FixedCapAdmission) (p : ExplicitOwner → Bool) :
    (adm.snapshotOwnerGroups.filter fun g => p g.owner).map (fun g => (g.owner, g.pubkeys)) =
      adm.ownership.groups.entries.filter fun e => p e.1 := by
  show ((adm.ownership.groups.entries.map _).filter _).map _ = _
  rw [List.filter_map, List.map_map]
  exact List.map_id _

section Restore

variable {adm : FixedCapAdmission} (h : adm.Inv) (p : ExplicitOwner → Bool)
include h

omit h in
theorem mem_picked {e : ExplicitOwner × List Pubkey} :
    e ∈ orderedByOwner (adm.ownership.groups.entries.filter fun e => p e.1) ↔
      adm.ownership.groups.lookup e.1 = some e.2 ∧ p e.1 = true := by
  rw [mem_orderedByOwner, List.mem_filter]
  exact and_congr_left fun _ => SortedMap.mem_entries

/-- There are no more picked groups than stamps. -/
theorem length_picked :
    (orderedByOwner (adm.ownership.groups.entries.filter fun e => p e.1)).length ≤
      adm.ownerLru.len := by
  have hkeys : adm.ownerLru.keys = adm.ownership.groups.keys :=
    adm.ownerLru.pairwise_keys.eq_of_mem_iff adm.ownership.groups.pairwise_keys h.owners
  have hsame := congrArg List.length hkeys
  rw [← SortedMap.len_eq_length_keys, ← SortedMap.len_eq_length_keys] at hsame
  have hfilter := List.length_filter_le (fun e : ExplicitOwner × List Pubkey => p e.1)
    adm.ownership.groups.entries
  unfold SortedMap.len at hsame ⊢
  unfold orderedByOwner
  rw [List.length_insertionSort]
  omega

/-- The wallet's picked groups fit under the cap. -/
theorem card_picked_wallet :
    (((adm.snapshotOwnerGroups.filter fun g => p g.owner).filter fun g =>
      g.consumer = .wallet).flatMap (·.pubkeys)).toFinset.card ≤ adm.cap := by
  refine le_trans (Finset.card_le_card fun pubkey hp => ?_) (h.len ▸ h.fits)
  obtain ⟨g, hg, hm⟩ := List.mem_flatMap.mp (List.mem_toFinset.mp hp)
  have hg' := List.mem_of_mem_filter (List.mem_of_mem_filter hg)
  obtain ⟨e, he, rfl⟩ := List.mem_map.mp hg'
  exact mem_union.mpr ⟨e.1, e.2, SortedMap.mem_entries.mp he, hm⟩

/-- **Some of an admission's groups are restored as they are**, whichever are picked. -/
theorem restore_picked (halloc : adm.Allocated) {target : FixedCapAdmission}
    (hcap : target.cap = adm.cap) :
    ∃ restored, restoreAdmissionFromOwnerGroups target
        (adm.snapshotOwnerGroups.filter fun g => p g.owner) = (.restored, restored) ∧
      restored.ownership.groups = adm.ownership.groups.retain fun o _ => p o := by
  have hinv := FixedCapAdmission.inv_clearForRestore target
  have hsub : ∀ e ∈ orderedByOwner (adm.ownership.groups.entries.filter fun e => p e.1),
      e.2.toFinset ⊆ adm.ownership.union := by
    intro e he
    rw [← groupSet_of_lookup ((mem_picked p).mp he).1]
    exact groupSet_subset_union _ _
  have hne : ∀ e ∈ orderedByOwner (adm.ownership.groups.entries.filter fun e => p e.1),
      e.2 ≠ [] := fun e he => h.wellFormed.nonempty e.1 e.2 ((mem_picked p).mp he).1
  have hcard : adm.ownership.union.card ≤ target.clearForRestore.cap := by
    show _ ≤ target.cap
    rw [hcap, ← h.len]
    exact h.fits
  have hdistinct : ((adm.ownership.groups.entries.filter fun e => p e.1).map (·.1)).Nodup :=
    adm.ownership.groups.nodup_keys.sublist (List.filter_sublist.map _)
  have hstart : target.clearForRestore.ownership.union ⊆ adm.ownership.union :=
    Finset.empty_subset _
  have hlen := length_picked h p
  have hall := admitInOrder_fits hinv hstart hcard (show 0 + _ ≤ _ by
    unfold FixedCapAdmission.Allocated at halloc
    omega) hne hsub
  rw [restoreAdmissionFromOwnerGroups_eq (hcap ▸ card_picked_wallet h p), demand_snapshot]
  cases hpass : admitInOrder
      (orderedByOwner (adm.ownership.groups.entries.filter fun e => p e.1))
      target.clearForRestore with
  | mk ok restored =>
      rw [hpass] at hall
      obtain rfl : ok = true := hall
      have hpassed := (Passed.start hinv hstart).run (pairwise_orderedByOwner hdistinct) hne hsub
        hpass
      refine ⟨restored, rfl, SortedMap.ext_lookup fun o => ?_⟩
      rw [SortedMap.lookup_retain_keys]
      by_cases hpicked : ∃ group, adm.ownership.groups.lookup o = some group ∧ p o = true
      · obtain ⟨group, hl, hp⟩ := hpicked
        rw [if_pos hp, hl]
        rcases hpassed.settled (o, group) ((mem_picked p).mpr ⟨hl, hp⟩) with hin | hout
        · rw [hin]
          exact congrArg some (SortedList.normalize_eq_self (h.wellFormed.sorted o group hl))
        · exact absurd hout.2.pressed (Nat.not_lt.mpr hcard)
      · have hout : restored.ownership.groups.lookup o = none := by
          cases hr : restored.ownership.groups.lookup o with
          | none => rfl
          | some group =>
              rcases hpassed.known o group hr with hm | hold
              · obtain ⟨e, he, rfl⟩ := List.mem_map.mp hm
                exact absurd ⟨e.2, (mem_picked p).mp he⟩ hpicked
              · cases hold
        rw [hout]
        by_cases hp : p o = true
        · rw [if_pos hp]
          cases hl : adm.ownership.groups.lookup o with
          | none => rfl
          | some group => exact absurd ⟨group, hl, hp⟩ hpicked
        · rw [if_neg hp]

end Restore

/-- **Persist and restore is the identity on what may be persisted.** Whatever the admission
    restored into held, it then holds exactly the groups that are not the tracker's, with the same
    pubkeys. Rows matter only where there are no such groups. -/
theorem persist_restore_identity {codec : TextCodec} (hc : codec.RoundTrips) {cap : Nat}
    {start : UInt64} {tr : List (AdmissionOp × AdmissionOutcome)} {adm : FixedCapAdmission}
    (hr : Machine.Run AdmissionStep (FixedCapAdmission.start cap start) tr adm)
    {rows : List ExplicitSnapshotRow}
    (hrows : rows = [] ∨ ∃ group ∈ adm.snapshotOwnerGroups, group.consumer ≠ .tracker)
    {target : FixedCapAdmission} (hcap : target.cap = adm.cap) :
    ∃ restored, restoreAdmissionFromOwnerGroups target
        ((adm.persisted codec rows).toOwnerGroupSnapshots codec) = (.restored, restored) ∧
      restored.snapshotOwnerGroups =
        adm.snapshotOwnerGroups.filter fun g => decide (g.consumer ≠ .tracker) := by
  have hrun := runInv_of_run hr
  obtain ⟨restored, hres, hgroups⟩ := restore_picked hrun.inv
    (fun o => decide (o.consumer ≠ .tracker)) hrun.allocated hcap
  refine ⟨restored, ?_, ?_⟩
  · rw [toOwnerGroupSnapshots_persisted hc hrun.inv hrows]
    exact hres
  · show restored.ownership.groups.entries.map _ = _
    rw [hgroups]
    show (adm.ownership.groups.entries.filter _).map _ =
      (adm.ownership.groups.entries.map _).filter _
    rw [List.filter_map]
    rfl

/-! ## 5. Base58 and decimal -/

namespace TextCodec

/-- The Base58 alphabet. -/
def base58 : Numeral.Alphabet where
  chars := "123456789ABCDEFGHJKLMNPQRSTUVWXYZabcdefghijkmnopqrstuvwxyz".toList
  nodup := by decide
  two := by decide

/-- The decimal digits. -/
def decimal : Numeral.Alphabet where
  chars := "0123456789".toList
  nodup := by decide
  two := by decide

/-- A `1` for each leading zero byte, then the number. -/
def base58Text (pubkey : Pubkey) : String :=
  .ofList (List.replicate (32 - (Nat.digits 256 pubkey.val).length) (base58.char 0) ++
    base58.write pubkey.val)

/-- A text of the one pubkey that is written so; every other text has another number of bytes. -/
def base58Pubkey (text : String) : Option Pubkey :=
  (base58.read text.toList).bind fun n =>
    if h : n < 2 ^ 256 then if base58Text ⟨n, h⟩ = text then some ⟨n, h⟩ else none else none

/-- A number in decimal. -/
def decimalText (id : UInt64) : String :=
  .ofList (if id.toNat = 0 then ['0'] else decimal.write id.toNat)

/-- An optional sign, then at least one digit; no overflow. -/
def decimalU64 (text : String) : Option UInt64 :=
  let digits := if text.toList.head? = some '+' then text.toList.tail else text.toList
  if digits = [] then none
  else (decimal.read digits).bind fun n => if n < 2 ^ 64 then some (.ofNat n) else none

/-- The codecs of `Pubkey` and `u64`. -/
def solana : TextCodec := ⟨base58Text, base58Pubkey, decimalText, decimalU64⟩

theorem read_decimalText (id : UInt64) : decimal.read (decimalText id).toList = some id.toNat := by
  unfold decimalText
  rw [String.toList_ofList]
  split_ifs with h0
  · have hread := Numeral.Alphabet.read_write (A := decimal) 1 0
    rw [h0]
    exact hread
  · exact Numeral.Alphabet.read_write 0 id.toNat

theorem mem_decimalText {id : UInt64} {ch : Char} (h : ch ∈ (decimalText id).toList) :
    ch ∈ decimal.chars := by
  unfold decimalText at h
  rw [String.toList_ofList] at h
  split_ifs at h with h0
  · rw [List.mem_singleton.mp h]
    decide
  · exact Numeral.Alphabet.mem_chars_of_mem_write h

theorem decimalText_ne_nil (id : UInt64) : (decimalText id).toList ≠ [] := by
  unfold decimalText
  rw [String.toList_ofList]
  split_ifs with h0
  · exact List.cons_ne_nil _ _
  · exact fun hnil => h0 (Numeral.Alphabet.write_eq_nil.mp hnil)

theorem base58Pubkey_text (pubkey : Pubkey) : base58Pubkey (base58Text pubkey) = some pubkey := by
  have hread : base58.read (base58Text pubkey).toList = some pubkey.val := by
    unfold base58Text
    rw [String.toList_ofList]
    exact Numeral.Alphabet.read_write _ _
  unfold base58Pubkey
  rw [hread, Option.bind_some, dif_pos pubkey.isLt, if_pos rfl]

theorem decimalU64_text (id : UInt64) : decimalU64 (decimalText id) = some id := by
  have hhead : ¬ (decimalText id).toList.head? = some '+' := fun hsign =>
    absurd (mem_decimalText (List.mem_of_head? hsign)) (by decide)
  unfold decimalU64
  dsimp only
  rw [if_neg hhead, if_neg (decimalText_ne_nil id), read_decimalText, Option.bind_some,
    if_pos id.toNat_lt, UInt64.ofNat_toNat]

theorem solana_roundTrips : solana.RoundTrips where
  pubkey := by
    unfold solana
    dsimp only
    exact base58Pubkey_text
  u64 := by
    unfold solana
    dsimp only
    exact decimalU64_text

end TextCodec

/-- `persist_restore_identity` for an arbitrage and a tracker group. -/
theorem persist_restore_arb_group :
    let first := AdmissionOp.tryAdmitNewGroup ⟨.arb, .generic 7⟩ [2, 1]
    let second := AdmissionOp.tryAdmitNewGroup ⟨.tracker, .mint 5⟩ [5]
    let start := FixedCapAdmission.start 3 1
    let adm := (second.run (first.run start).2).2
    ∃ restored, restoreAdmissionFromOwnerGroups (.start 3 9)
        ((adm.persisted TextCodec.solana []).toOwnerGroupSnapshots TextCodec.solana) =
          (.restored, restored) ∧
      restored.snapshotOwnerGroups =
        adm.snapshotOwnerGroups.filter fun g => decide (g.consumer ≠ .tracker) := by
  intro first second start adm
  have hone : (first.run start).2.Allocated := by decide +kernel
  have htwo : adm.Allocated := by decide +kernel
  have hr := Machine.Run.cons (first.step hone) (Machine.Run.single (second.step htwo))
  exact persist_restore_identity TextCodec.solana_roundTrips hr (Or.inl rfl)
    (by decide +kernel : (FixedCapAdmission.start 3 9).cap = adm.cap)

end IronCrab.Track

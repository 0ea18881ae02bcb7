/-
  File:      IronCrab/Cache/StaleUpdate.lean
  Subject:   A MESSAGE THAT IS BEHIND THE ROW OF ITS POOL (`pool_cache_sync.rs`).

  The row refuses it in either branch. `PoolDiscovered` returns there; `BalanceUpdated` with
  reserves touches the age of the row and GOES ON to the side maps, which have no slot of their
  own. So the old message changes nothing but freshness exactly when it does not get that far, or
  brings nothing that the side maps do not hold (`KnownSides`).

  * `mergeUpdate_eq_self_iff` -- when a message leaves the side maps as they are;
  * **`stale_update_keeps_iff`** -- when a stale message changes nothing but freshness;
  * `stale_layout_replaces` -- a layout of slot 10, replaced by one of slot 5.
-/
import IronCrab.Cache.PoolCacheSync

namespace IronCrab.Cache

open Track (Pubkey)
open LivePoolCache

/-! ## 1. Nothing new for the side maps -/

/-- The order of readiness. -/
def DexPoolReadiness.rank : DexPoolReadiness → Nat
  | .observed => 0
  | .partialReady => 1
  | .ready => 2

theorem DexPoolReadiness.merge_eq_self_iff (r incoming : DexPoolReadiness) :
    r.merge incoming = r ↔ incoming.rank ≤ r.rank := by
  cases r <;> cases incoming <;> decide

theorem mergeReadiness_eq_self_iff (stored : Option DexPoolReadiness)
    (incoming : DexPoolReadiness) :
    mergeReadiness stored incoming = stored ↔
      ∃ r, stored = some r ∧ incoming.rank ≤ r.rank := by
  unfold mergeReadiness
  cases stored with
  | none => simp
  | some r => simp [DexPoolReadiness.merge_eq_self_iff]

theorem overwrite_eq_self_iff {A : Type} (stored carried : Option A) :
    overwrite stored carried = stored ↔ ∀ a, carried = some a → stored = some a := by
  unfold overwrite
  cases carried with
  | none => simp
  | some a => simp [eq_comm]

theorem raise_eq_self_iff (stored : Option Bool) (carried : Bool) :
    raise stored carried = stored ↔ (carried = true → stored = some true) := by
  unfold raise
  cases carried with
  | false => simp
  | true => simp [eq_comm]

theorem mergeLayoutGeneration_eq_self_iff (stored carried : Option Nat) :
    mergeLayoutGeneration stored carried = stored ↔
      ∀ g, carried = some g → ∃ g₀, stored = some g₀ ∧ g ≤ g₀ := by
  unfold mergeLayoutGeneration
  cases carried with
  | none => simp
  | some g =>
      cases stored with
      | none => simp
      | some g₀ => simp

/-- The sell layout has the very shape of an authoritative message. -/
structure SameShape (u : PoolCacheUpdate) (l : PumpAmmSellLayout) : Prop where
  extendedFlag : l.extendedFlag = some (u.trueAt .pumpAmmSellCashbackRemaining)
  requiresFeeTail : l.requiresFeeTail = some (u.trueAt .pumpAmmSellRequiresFeeTail)
  requiresPreFeeMetas : l.requiresPreFeeMetas = some (u.trueAt .pumpAmmSellRequiresPreFeeMetas)
  preFeeMeta1 : l.preFeeMeta1 = u.knownPubkeyAt .pumpAmmSellPreFeeMeta1
  extendedThirdMeta : l.extendedThirdMeta = u.knownPubkeyAt .pumpAmmSellCashbackThirdMeta
  extendedTail0 : l.extendedTail0 = u.knownPubkeyAt .pumpAmmSellExtendedTail0
  extendedTail1 : l.extendedTail1 = u.knownPubkeyAt .pumpAmmSellExtendedTail1
  extendedFeeTail0 : l.extendedFeeTail0 = u.knownPubkeyAt .pumpAmmSellExtendedFeeTail0
  extendedFeeTail1 : l.extendedFeeTail1 = u.knownPubkeyAt .pumpAmmSellExtendedFeeTail1

/-- The sell layout has what a message shows of its shape. -/
structure KnownShape (u : PoolCacheUpdate) (l : PumpAmmSellLayout) : Prop where
  extendedFlag : u.trueAt .pumpAmmSellCashbackRemaining = true → l.extendedFlag = some true
  requiresFeeTail : u.trueAt .pumpAmmSellRequiresFeeTail = true → l.requiresFeeTail = some true
  requiresPreFeeMetas : u.trueAt .pumpAmmSellRequiresPreFeeMetas = true →
    l.requiresPreFeeMetas = some true
  preFeeMeta1 : ∀ pk, u.knownPubkeyAt .pumpAmmSellPreFeeMeta1 = some pk → l.preFeeMeta1 = some pk
  extendedThirdMeta : ∀ pk, u.knownPubkeyAt .pumpAmmSellCashbackThirdMeta = some pk →
    l.extendedThirdMeta = some pk
  extendedTail0 : ∀ pk, u.knownPubkeyAt .pumpAmmSellExtendedTail0 = some pk →
    l.extendedTail0 = some pk
  extendedTail1 : ∀ pk, u.knownPubkeyAt .pumpAmmSellExtendedTail1 = some pk →
    l.extendedTail1 = some pk
  extendedFeeTail0 : ∀ pk, u.knownPubkeyAt .pumpAmmSellExtendedFeeTail0 = some pk →
    l.extendedFeeTail0 = some pk
  extendedFeeTail1 : ∀ pk, u.knownPubkeyAt .pumpAmmSellExtendedFeeTail1 = some pk →
    l.extendedFeeTail1 = some pk

/-- The sell layout holds what the message says of it. -/
structure KnownLayout (u : PoolCacheUpdate) (l : PumpAmmSellLayout) : Prop where
  generation : ∀ g, (u.get .pumpAmmLayoutGeneration).bind (parseUnsigned (2 ^ 64)) = some g →
    ∃ g₀, l.layoutGeneration = some g₀ ∧ g ≤ g₀
  ready : ∀ text, u.get .pumpAmmSellLayoutReady = some text →
    l.layoutReady = some (decide (text = "true"))
  shape : if u.trueAt .pumpAmmSellLayoutAuthoritative then SameShape u l else KnownShape u l

theorem PumpAmmSellLayout.mergeFromMetadata_eq_self_iff (u : PoolCacheUpdate)
    (l : PumpAmmSellLayout) : l.mergeFromMetadata u = l ↔ KnownLayout u l := by
  obtain ⟨flag, third, t0, t1, f0, f1, pre, feeTail, preFee, ready, gen⟩ := l
  have hready : overwrite ready
      ((u.get .pumpAmmSellLayoutReady).map fun v => decide (v = "true")) = ready ↔
      ∀ text, u.get .pumpAmmSellLayoutReady = some text →
        ready = some (decide (text = "true")) := by
    rw [overwrite_eq_self_iff]
    simp
  unfold mergeFromMetadata
  dsimp only
  by_cases ha : u.trueAt .pumpAmmSellLayoutAuthoritative = true
  · rw [if_pos ha]
    unfold setAuthoritative
    constructor
    · intro h
      injection h with h1 h2 h3 h4 h5 h6 h7 h8 h9 h10 h11
      refine ⟨(mergeLayoutGeneration_eq_self_iff _ _).mp h11, hready.mp h10, ?_⟩
      rw [if_pos ha]
      exact ⟨h1.symm, h8.symm, h9.symm, h7.symm, h2.symm, h3.symm, h4.symm, h5.symm, h6.symm⟩
    · rintro ⟨hg, hr, hs⟩
      rw [if_pos ha] at hs
      obtain ⟨h1, h2, h3, h4, h5, h6, h7, h8, h9⟩ := hs
      dsimp only at h1 h2 h3 h4 h5 h6 h7 h8 h9
      rw [(mergeLayoutGeneration_eq_self_iff gen _).mpr hg, hready.mpr hr, h1, h2, h3, h4, h5, h6,
        h7, h8, h9]
  · rw [if_neg ha]
    unfold mergeObserved
    constructor
    · intro h
      injection h with h1 h2 h3 h4 h5 h6 h7 h8 h9 h10 h11
      refine ⟨(mergeLayoutGeneration_eq_self_iff _ _).mp h11, hready.mp h10, ?_⟩
      rw [if_neg ha]
      exact ⟨(raise_eq_self_iff _ _).mp h1, (raise_eq_self_iff _ _).mp h8,
        (raise_eq_self_iff _ _).mp h9, (overwrite_eq_self_iff _ _).mp h7,
        (overwrite_eq_self_iff _ _).mp h2, (overwrite_eq_self_iff _ _).mp h3,
        (overwrite_eq_self_iff _ _).mp h4, (overwrite_eq_self_iff _ _).mp h5,
        (overwrite_eq_self_iff _ _).mp h6⟩
    · rintro ⟨hg, hr, hs⟩
      rw [if_neg ha] at hs
      obtain ⟨h1, h2, h3, h4, h5, h6, h7, h8, h9⟩ := hs
      dsimp only at h1 h2 h3 h4 h5 h6 h7 h8 h9 ⊢
      rw [(mergeLayoutGeneration_eq_self_iff gen _).mpr hg, hready.mpr hr,
        (raise_eq_self_iff _ _).mpr h1, (raise_eq_self_iff _ _).mpr h2,
        (raise_eq_self_iff _ _).mpr h3, (overwrite_eq_self_iff _ _).mpr h4,
        (overwrite_eq_self_iff _ _).mpr h5, (overwrite_eq_self_iff _ _).mpr h6,
        (overwrite_eq_self_iff _ _).mpr h7, (overwrite_eq_self_iff _ _).mpr h8,
        (overwrite_eq_self_iff _ _).mpr h9]

/-- The readiness map of a DEX holds at least what the message says. -/
def KnownReadiness (u : PoolCacheUpdate) (stored : Option DexPoolReadiness) : Prop :=
  ∃ r, stored = some r ∧ u.effectiveDexReadiness.rank ≤ r.rank

/-- The bitmap maps hold what the message carries. -/
structure KnownBitmaps (u : PoolCacheUpdate) (s : PoolSides) : Prop where
  hasExtension : ∀ b, (u.get .meteoraDlmmHasBitmapExtension).bind parseBool = some b →
    s.hasBitmapExtension = some b
  bitmap : ∀ words, (u.get .meteoraDlmmBinArrayBitmap).bind parseBinArrayBitmapTag = some words →
    s.binArrayBitmap = some words
  payload : ∀ bytes, (u.get .meteoraDlmmBitmapExtensionPayload).bind
    decodeMeteoraExtensionPayloadHex = some bytes → s.bitmapExtensionPayload = some bytes

/-- The side maps hold what the message would write to them. -/
def KnownSides (u : PoolCacheUpdate) (s : PoolSides) : Prop :=
  match u.dex with
  | .pumpAmm => KnownLayout u s.sellLayout ∧
      if (u.get .pumpAmmSellLayoutReady).isSome then
        s.readiness .pumpAmm = some u.effectiveDexReadiness
      else KnownReadiness u (s.readiness .pumpAmm)
  | .meteoraDlmm => KnownReadiness u (s.readiness .meteoraDlmm) ∧ KnownBitmaps u s
  | .restored | .other => True
  | dex => KnownReadiness u (s.readiness dex)

namespace PoolSides

theorem mergeReadinessOf_eq_self_iff (u : PoolCacheUpdate) (s : PoolSides) (dex : Dex) :
    s.mergeReadinessOf dex u.effectiveDexReadiness = s ↔ KnownReadiness u (s.readiness dex) := by
  unfold mergeReadinessOf KnownReadiness
  rw [← mergeReadiness_eq_self_iff]
  obtain ⟨readiness, layout, has, bitmap, payload⟩ := s
  simp [Function.update_eq_self_iff]

theorem mergeBitmaps_eq_self_iff (u : PoolCacheUpdate) (s : PoolSides) :
    s.mergeMeteoraDlmmBitmapExtensionFromMetadata u = s ↔ KnownBitmaps u s := by
  obtain ⟨readiness, layout, has, bitmap, payload⟩ := s
  unfold mergeMeteoraDlmmBitmapExtensionFromMetadata
  constructor
  · intro h
    injection h with _ _ h1 h2 h3
    exact ⟨(overwrite_eq_self_iff _ _).mp h1, (overwrite_eq_self_iff _ _).mp h2,
      (overwrite_eq_self_iff _ _).mp h3⟩
  · rintro ⟨h1, h2, h3⟩
    dsimp only
    rw [(overwrite_eq_self_iff _ _).mpr h1, (overwrite_eq_self_iff _ _).mpr h2,
      (overwrite_eq_self_iff _ _).mpr h3]

/-- **A message leaves the side maps as they are exactly when they hold what it brings.** -/
theorem mergeUpdate_eq_self_iff (u : PoolCacheUpdate) (s : PoolSides) :
    s.mergeUpdate u = s ↔ KnownSides u s := by
  unfold mergeUpdate KnownSides
  cases u.dex with
  | pumpAmm =>
      dsimp only
      rw [← PumpAmmSellLayout.mergeFromMetadata_eq_self_iff]
      by_cases hr : (u.get .pumpAmmSellLayoutReady).isSome = true
      · rw [if_pos hr, if_pos hr]
        unfold setPumpAmmPoolAccountsReadinessAuthoritative
        obtain ⟨readiness, layout, has, bitmap, payload⟩ := s
        simp [and_comm, eq_comm]
      · rw [if_neg hr, if_neg hr, ← mergeReadinessOf_eq_self_iff]
        unfold mergeReadinessOf
        obtain ⟨readiness, layout, has, bitmap, payload⟩ := s
        simp [and_comm]
  | meteoraDlmm =>
      dsimp only
      rw [← mergeReadinessOf_eq_self_iff, ← mergeBitmaps_eq_self_iff]
      unfold mergeMeteoraDlmmBitmapExtensionFromMetadata mergeReadinessOf
      obtain ⟨readiness, layout, has, bitmap, payload⟩ := s
      simp
  | restored => exact ⟨fun _ => trivial, fun _ => rfl⟩
  | other => exact ⟨fun _ => trivial, fun _ => rfl⟩
  | _ => exact mergeReadinessOf_eq_self_iff u s _

end PoolSides

/-! ## 2. A message behind the row -/

/-- A message for a pool whose row has seen a later slot. -/
structure Stale (c : SlaveCache) (u : PoolCacheUpdate) (pool : Pubkey) (row : CacheEntry) :
    Prop where
  address : parsePubkey u.poolAddress = some pool
  found : c.pools.lookup pool = some row
  behind : BehindSeen u.geyserSlot row

/-- Of what is known of a pool nothing has changed but the age of its row, and that only by a
    balance update of a row with reserves. -/
structure OnlyFreshness (c c' : SlaveCache) (u : PoolCacheUpdate) (pool : Pubkey)
    (row : CacheEntry) : Prop where
  row : ∃ row', c'.pools.lookup pool = some row' ∧ row'.state = row.state ∧
    row'.slot = row.slot ∧ row'.lastSeenSlot = row.lastSeenSlot ∧
    (row'.updatedAt = row.updatedAt ∨
      u.updateType = .balanceUpdated ∧ poolStateHasReserveBasis row.state = true)
  sides : c'.sides pool = c.sides pool

/-- A stale message that is not turned away: a balance update with a reserve basis, for a row with
    one. -/
def SustainsAge (c : SlaveCache) (u : PoolCacheUpdate) (pool : Pubkey) (row : CacheEntry) : Prop :=
  u.updateType = .balanceUpdated ∧ poolStateHasReserveBasis row.state = true ∧
    ∃ state, c.balanceRow pool u = some state ∧ poolStateHasReserveBasis state = true

variable {env : Ambient} {c : SlaveCache} {u : PoolCacheUpdate} {pool : Pubkey} {row : CacheEntry}

theorem OnlyFreshness.refl (h : c.pools.lookup pool = some row) : OnlyFreshness c c u pool row :=
  ⟨⟨row, h, rfl, rfl, rfl, .inl rfl⟩, rfl⟩

theorem Stale.upsert_eq (h : Stale c u pool row) (state : CachedPoolState) (now : Nat) :
    c.upsert env pool state u.geyserSlot now = (c.toLivePoolCache, false) := by
  rw [LivePoolCache.upsert_eq, storedEntry_of_some h.found, if_pos h.behind]

theorem touch_of_basis {l : LivePoolCache} (h : l.pools.lookup pool = some row)
    (hb : poolStateHasReserveBasis row.state = true) (now : Nat) :
    l.touchFreshnessOnExistingReserveBasis pool now =
      ({ l with pools := l.pools.insert pool { row with updatedAt := now } }, true) := by
  unfold touchFreshnessOnExistingReserveBasis
  rw [h]
  exact if_pos hb

theorem touch_of_no_basis {l : LivePoolCache} (h : l.pools.lookup pool = some row)
    (hb : ¬ poolStateHasReserveBasis row.state = true) (now : Nat) :
    l.touchFreshnessOnExistingReserveBasis pool now = (l, false) := by
  unfold touchFreshnessOnExistingReserveBasis
  rw [h]
  exact if_neg hb

theorem balanceRow_restored (h : u.dex = .restored) : c.balanceRow pool u = none := by
  unfold SlaveCache.balanceRow buildMinimalPoolStateWithReserves minimalState
  rw [h]
  dsimp only
  cases parsePubkey u.poolAddress with
  | none => rfl
  | some poolAddr =>
      cases parsePubkey u.baseMint with
      | none => rfl
      | some baseMint =>
          cases parsePubkey u.quoteMint with
          | none => rfl
          | some quoteMint => rfl

/-- A stale message that does not sustain the age is turned away. -/
theorem apply_turned_away (h : Stale c u pool row) (hs : ¬ SustainsAge c u pool row) (now : Nat) :
    (c.applyPoolCacheUpdateOutcome env u now).1 = c := by
  unfold SlaveCache.applyPoolCacheUpdateOutcome
  by_cases hd : u.dex = .restored
  · rw [if_pos hd]
  rw [if_neg hd]
  cases ht : u.updateType with
  | poolRemoved => rfl
  | poolDiscovered =>
      dsimp only
      unfold SlaveCache.applyPoolDiscovered
      cases hb : buildMinimalPoolState u with
      | none => rfl
      | some built =>
          have hpool : built.1 = pool :=
            Option.some.inj ((SlaveCache.address_of_build hb).symm.trans h.address)
          dsimp only
          rw [hpool, h.upsert_eq]
          rfl
  | balanceUpdated =>
      dsimp only
      unfold SlaveCache.applyBalanceUpdated
      rw [h.address]
      dsimp only
      cases hrow : c.balanceRow pool u with
      | none => rfl
      | some state =>
          dsimp only
          rw [h.upsert_eq, if_neg Bool.false_ne_true, if_pos h.behind.1]
          by_cases hbasis : poolStateHasReserveBasis row.state = true
          · have hstate : ¬ poolStateHasReserveBasis state = true :=
              fun hst => hs ⟨ht, hbasis, state, hrow, hst⟩
            rw [if_neg (by simp [hstate])]
          · rw [touch_of_no_basis h.found hbasis, if_neg (by simp)]

/-- A stale message that sustains the age goes on to the side maps. -/
theorem apply_sustained (h : Stale c u pool row) (hs : SustainsAge c u pool row) (now : Nat) :
    (c.applyPoolCacheUpdateOutcome env u now).1 =
      SlaveCache.mergeSides { c with
        pools := c.pools.insert pool { row with updatedAt := now } } pool u := by
  obtain ⟨ht, hbasis, state, hrow, hstate⟩ := hs
  have hd : ¬ u.dex = .restored := by
    intro hd
    rw [balanceRow_restored hd] at hrow
    cases hrow
  unfold SlaveCache.applyPoolCacheUpdateOutcome
  rw [if_neg hd, ht]
  dsimp only
  unfold SlaveCache.applyBalanceUpdated
  rw [h.address]
  dsimp only
  rw [hrow]
  dsimp only
  rw [h.upsert_eq, if_neg Bool.false_ne_true, if_pos h.behind.1, touch_of_basis h.found hbasis,
    if_pos (by simp [hstate])]

/-- **A message behind the row of its pool changes nothing but freshness exactly when it is turned
    away, or the side maps hold what it brings.** -/
theorem stale_update_keeps_iff (env : Ambient) (c : SlaveCache) (u : PoolCacheUpdate) (now : Nat)
    (pool : Pubkey) (row : CacheEntry) (h : Stale c u pool row) :
    OnlyFreshness c (c.applyPoolCacheUpdateOutcome env u now).1 u pool row ↔
      (¬ SustainsAge c u pool row ∨ KnownSides u (c.sides pool)) := by
  by_cases hs : SustainsAge c u pool row
  · rw [apply_sustained h hs]
    have hsides : (SlaveCache.mergeSides { c with
        pools := c.pools.insert pool { row with updatedAt := now } } pool u).sides pool =
        (c.sides pool).mergeUpdate u := Function.update_self pool _ c.sides
    constructor
    · intro hk
      exact .inr ((PoolSides.mergeUpdate_eq_self_iff _ _).mp (hsides.symm.trans hk.sides))
    · rintro (hn | hk)
      · exact absurd hs hn
      · refine ⟨⟨{ row with updatedAt := now }, ?_, rfl, rfl, rfl, .inr ⟨hs.1, hs.2.1⟩⟩, ?_⟩
        · exact AList.lookup_insert _
        · exact hsides.trans ((PoolSides.mergeUpdate_eq_self_iff _ _).mpr hk)
  · rw [apply_turned_away h hs]
    exact ⟨fun _ => .inl hs, fun _ => .refl h.found⟩

/-- A PumpSwap message for the pool 9, with a sell layout of this readiness. -/
def layoutUpdate (kind : PoolCacheUpdateType) (slot : Nat) (layoutReady readiness : String) :
    PoolCacheUpdate where
  updateType := kind
  poolAddress := "1111111111111111111111111111111A"
  dex := .pumpAmm
  baseMint := "11111111111111111111111111111112"
  quoteMint := "11111111111111111111111111111113"
  baseReserve := 100
  quoteReserve := 200
  geyserSlot := slot
  metadata := some ((AList.singleton .pumpAmmSellLayoutReady layoutReady).insert .dexPoolReadiness
    readiness)

/-- A cache that has taken a layout of slot 10 that is not ready. -/
def layoutCache : SlaveCache :=
  (SlaveCache.new.applyPoolCacheUpdateOutcome .weighing
    (layoutUpdate .balanceUpdated 10 "false" "PARTIAL") 0).1

theorem stale_layoutUpdate (kind : PoolCacheUpdateType) :
    Stale layoutCache (layoutUpdate kind 5 "true" "READY") 9
      (.new (.pumpAmm ⟨1, 2, 0, 0, some 100, some 200, [], none⟩) 10 0) := by
  refine ⟨?_, ?_, ?_⟩
  · show parsePubkey "1111111111111111111111111111111A" = some 9
    decide +kernel
  · decide +kernel
  · show BehindSeen 5 _
    decide

/-- A discovery of slot 5 leaves the layout of slot 10. -/
theorem stale_update_keeps_discovery :
    OnlyFreshness layoutCache (layoutCache.applyPoolCacheUpdateOutcome .weighing
        (layoutUpdate .poolDiscovered 5 "true" "READY") 1).1
      (layoutUpdate .poolDiscovered 5 "true" "READY") 9
      (.new (.pumpAmm ⟨1, 2, 0, 0, some 100, some 200, [], none⟩) 10 0) :=
  (stale_update_keeps_iff .weighing layoutCache _ 1 9 _ (stale_layoutUpdate .poolDiscovered)).mpr
    (.inl fun h => (nomatch h.1))

/-- **A balance update of slot 5 replaces the layout of slot 10.** -/
theorem stale_layout_replaces :
    ¬ ∀ (env : Ambient) (c : SlaveCache) (u : PoolCacheUpdate) (now : Nat) (pool : Pubkey)
      (row : CacheEntry), Stale c u pool row →
      OnlyFreshness c (c.applyPoolCacheUpdateOutcome env u now).1 u pool row := by
  intro h
  have hsides := (h .weighing layoutCache _ 1 9 _ (stale_layoutUpdate .balanceUpdated)).sides
  have hready := congrArg (fun s => s.sellLayout.layoutReady) hsides
  exact absurd hready (by decide +kernel)

end IronCrab.Cache

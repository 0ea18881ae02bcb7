/-
  File:      IronCrab/Cache/Knowledge.lean
  Subject:   WHAT A MESSAGE LEAVES OF THE ROW IT IS LAID OVER (`pool_cache_sync.rs`).

  A reserve that is reported as 0 is not known to the message, and should come back from the row,
  like a field whose key is absent (`KeptFields.lean`):

  * `KeepsReserves` -- each balance of a mint that is reported as 0 is still that of the mint;
  * `DiscoveredKeepsLeg`, `BalanceKeepsLeg` -- when a balance comes back;
  * **`update_keeps_iff`** -- a message that is applied keeps what it does not carry exactly when
    the fields and the balances come back;
  * `creator_erased` -- a bonding curve loses its creator to two new reserves.
-/
import IronCrab.Cache.KeptFields

namespace IronCrab.Cache

open Track (Pubkey)
open LivePoolCache

/-! ## 1. Reserves that a message does not report -/

/-- A mint that the message names, with no reserve for it. -/
structure PoolCacheUpdate.Silent (u : PoolCacheUpdate) (mint : Pubkey) : Prop where
  named : mint = u.baseKey ∨ mint = u.quoteKey
  base : mint = u.baseKey → u.baseReserve = 0
  quote : mint = u.quoteKey → u.quoteReserve = 0

/-- One of the sides is that of the mint, with this balance. -/
def HoldsFor (s : Side × Side) (mint : Pubkey) (v : Nat) : Prop :=
  ∃ pos : VaultPosition, pos.of s = (mint, some v)

/-- The row has a side of the mint, with this balance. -/
def CachedPoolState.Holds (state : CachedPoolState) (mint : Pubkey) (v : Nat) : Prop :=
  ∃ s, state.sides = some s ∧ HoldsFor s mint v

/-- Each reserve that is reported as 0 has its old value, if that is not 0: on a side of its mint,
    and on a bonding curve its virtual reserve. -/
def KeepsReserves (u : PoolCacheUpdate) : CachedPoolState → CachedPoolState → Prop
  | .pumpFun ex, .pumpFun new =>
      (u.baseReserve = 0 → 0 < ex.virtualTokenReserves →
        new.virtualTokenReserves = ex.virtualTokenReserves) ∧
      (u.quoteReserve = 0 → 0 < ex.virtualSolReserves →
        new.virtualSolReserves = ex.virtualSolReserves)
  | ex, new => ∀ mint v, u.Silent mint → 0 < v → ex.Holds mint v → new.Holds mint v

/-! ## 2. When they come back -/

/-- The message names two mints, which are the two of the row, in whatever order; the metadata
    lists no other. -/
structure SameMints (u : PoolCacheUpdate) (row : Side × Side) : Prop where
  distinct : u.baseKey ≠ u.quoteKey
  baseKnown : u.baseKey ≠ Pubkey.default
  quoteKnown : u.quoteKey ≠ Pubkey.default
  told : ∃ pos : VaultPosition,
    u.ownMints = (pos.pick u.baseKey u.quoteKey, pos.pick u.quoteKey u.baseKey)
  stored : ∃ pos : VaultPosition,
    (row.1.1, row.2.1) = (pos.pick u.baseKey u.quoteKey, pos.pick u.quoteKey u.baseKey)

/-- Where the message's order has the mint, the row holds this balance. -/
def KeepsPlace (u : PoolCacheUpdate) (row : Side × Side) (mint : Pubkey) (v : Nat) : Prop :=
  ∃ pos : VaultPosition, pos.pick u.ownMints.1 u.ownMints.2 = mint ∧ (pos.of row).2 = some v

/-- A balance of a mint comes back from a `PoolDiscovered` message that reports 0 for it. -/
def DiscoveredKeepsLeg (u : PoolCacheUpdate) (row : Side × Side) (mint : Pubkey) (v : Nat) : Prop :=
  match u.dex with
  | .raydium => False
  | .meteoraCpmm =>
      (u.baseReserve = 0 ∧ u.quoteReserve = 0 ∧ 0 < u.geyserSlot) ∧ KeepsPlace u row mint v
  | _ => KeepsPlace u row mint v

/-- A balance of a mint comes back from a `BalanceUpdated` message that reports 0 for it:
    `extract_reserves` takes it for the reserve of that mint. -/
def BalanceKeepsLeg (u : PoolCacheUpdate) (state : CachedPoolState) (mint : Pubkey) (v : Nat) :
    Prop :=
  if mint = u.baseKey then (extractReserves state).1 = v else (extractReserves state).2 = v

/-- The reserves of a `BalanceUpdated` message over a row. -/
def PoolCacheUpdate.completed (u : PoolCacheUpdate) (state : CachedPoolState) : Nat × Nat :=
  mergedReserves u (some state)

/-- Every balance that the message reports as 0 comes back: `keepsLeg` where the message and the
    row are of the same mints, else as the sides of the message are laid over those of the row. -/
def LegsReturn (u : PoolCacheUpdate) (row laid : Side × Side) (keepsLeg : Pubkey → Nat → Prop) :
    Prop :=
  ∀ mint v, u.Silent mint → 0 < v → HoldsFor row mint v →
    (SameMints u row → keepsLeg mint v) ∧
    (¬ SameMints u row → HoldsFor (upsertSides u.dex u.geyserSlot laid row) mint v)

/-- The reserves of the row come back from a `PoolDiscovered` message. -/
def DiscoveredReserves (u : PoolCacheUpdate) (state : CachedPoolState) : Prop :=
  match state with
  | .pumpFun ex =>
      (u.baseReserve = 0 → ex.virtualTokenReserves = 0) ∧
        (u.quoteReserve = 0 → ex.virtualSolReserves = 0)
  | state => ∀ row, state.sides = some row →
      LegsReturn u row (u.discoveredSides row) (DiscoveredKeepsLeg u row)

/-- The reserves of the row come back from a `BalanceUpdated` message. -/
def BalanceReserves (u : PoolCacheUpdate) (state : CachedPoolState) : Prop :=
  ∀ row, state.sides = some row →
    LegsReturn u row (u.balanceSides row (u.completed state).1 (u.completed state).2)
      (BalanceKeepsLeg u state)

/-! ## 3. Reserves -/

section Reserves

variable {u : PoolCacheUpdate} {row s : Side × Side} {mint : Pubkey} {v base quote : Nat}

/-- Two mints that the message names, and not a third. -/
theorem SameMints.ownSides_eq (h : SameMints u row) : ∃ pos : VaultPosition,
    u.ownMints = (pos.pick u.baseKey u.quoteKey, pos.pick u.quoteKey u.baseKey) ∧
      ∀ base quote, u.ownSides base quote = sidesAt pos u.baseKey u.quoteKey base quote := by
  obtain ⟨pos, hpos⟩ := h.told
  exact ⟨pos, hpos, ownSides_of_mints h.distinct hpos⟩

/-- A message of the row's mints brings its reserves on the sides of their mints. -/
theorem SameMints.balanceSides_eq (h : SameMints u row) (base quote : Nat) :
    ∃ pos : VaultPosition, u.balanceSides row base quote =
      sidesAt pos u.baseKey u.quoteKey base quote := by
  obtain ⟨own, hown⟩ := h.told
  obtain ⟨pos, hpos⟩ := h.stored
  injection hpos with hA hB
  exact ⟨u.laidPos own pos, balanceSides_of_mints h.distinct hown hA hB base quote⟩

theorem SameMints.upsert_sidesAt (h : SameMints u row) (pos : VaultPosition) (base quote : Nat) :
    mergeSidesByUpsert (sidesAt pos u.baseKey u.quoteKey base quote) row =
      sidesAt pos u.baseKey u.quoteKey base quote :=
  mergeSidesByUpsert_sidesAt (.inr ⟨h.baseKnown, h.quoteKnown⟩)

/-- Known mints with balances of their own are what `upsert` leaves. -/
theorem mergeSidesByUpsert_of_known (hA : s.1.1 ≠ Pubkey.default) (hB : s.2.1 ≠ Pubkey.default)
    {x y : Nat} (hx : s.1.2 = some x) (hy : s.2.2 = some y) (row : Side × Side) :
    mergeSidesByUpsert s row = s := by
  unfold mergeSidesByUpsert
  rw [preserveLayoutPubkey_of_ne hA, preserveLayoutPubkey_of_ne hB, hx, hy]
  obtain ⟨⟨a, x'⟩, b, y'⟩ := s
  cases hx
  cases hy
  rfl

theorem of_mergeSidesByPosition (pos : VaultPosition) (inc row : Side × Side) :
    pos.of (mergeSidesByPosition inc row) =
      ((pos.of inc).1, some (mergeLeg ((pos.of inc).2.getD 0) ((pos.of row).2.getD 0))) := by
  cases pos <;> rfl

theorem getD_eq_iff {o : Option Nat} (hv : 0 < v) : o.getD 0 = v ↔ o = some v := by
  cases o with
  | none => simp; omega
  | some x => simp

theorem holdsFor_sidesAt (pos : VaultPosition) :
    HoldsFor (sidesAt pos u.baseKey u.quoteKey base quote) mint v ↔
      mint = u.baseKey ∧ base = v ∨ mint = u.quoteKey ∧ quote = v := by
  constructor
  · rintro ⟨p, hp⟩
    cases pos <;> cases p <;> injection hp with hm hv <;> injection hv with hv
    · exact .inl ⟨hm.symm, hv⟩
    · exact .inr ⟨hm.symm, hv⟩
    · exact .inr ⟨hm.symm, hv⟩
    · exact .inl ⟨hm.symm, hv⟩
  · rintro (⟨rfl, rfl⟩ | ⟨rfl, rfl⟩)
    · exact ⟨pos, by cases pos <;> rfl⟩
    · exact ⟨pos.other, by cases pos <;> rfl⟩

/-- The mints on the two sides of a message. -/
theorem mint_of_sidesAt (p pos : VaultPosition) (base quote : Nat) :
    (p.of (sidesAt pos u.baseKey u.quoteKey base quote)).1 =
      p.pick (pos.pick u.baseKey u.quoteKey) (pos.pick u.quoteKey u.baseKey) := by
  cases p <;> cases pos <;> rfl

/-- A message tells 0 on the side of a mint it is silent on. -/
theorem told_of_silent (hs : u.Silent mint) {p pos : VaultPosition}
    (hm : (p.of (sidesAt pos u.baseKey u.quoteKey u.baseReserve u.quoteReserve)).1 = mint) :
    (p.of (sidesAt pos u.baseKey u.quoteKey u.baseReserve u.quoteReserve)).2 = some 0 := by
  cases p <;> cases pos
  · exact congrArg some (hs.base hm.symm)
  · exact congrArg some (hs.quote hm.symm)
  · exact congrArg some (hs.quote hm.symm)
  · exact congrArg some (hs.base hm.symm)

/-- The mints on both sides are known, and so are the balances. -/
theorem known_sidesAt (h : SameMints u row) (pos : VaultPosition) (base quote : Nat) :
    (sidesAt pos u.baseKey u.quoteKey base quote).1.1 ≠ Pubkey.default ∧
      (sidesAt pos u.baseKey u.quoteKey base quote).2.1 ≠ Pubkey.default := by
  cases pos
  · exact ⟨h.baseKnown, h.quoteKnown⟩
  · exact ⟨h.quoteKnown, h.baseKnown⟩

/-- A row that is patched by position keeps the balances that stay in their place. -/
theorem patched_leg_iff (h : SameMints u row) (hs : u.Silent mint) (hv : 0 < v) :
    HoldsFor (mergeSidesByUpsert
      (mergeSidesByPosition (u.ownSides u.baseReserve u.quoteReserve) row) row) mint v ↔
      KeepsPlace u row mint v := by
  obtain ⟨pos, hmints, hown⟩ := h.ownSides_eq
  obtain ⟨hA, hB⟩ := known_sidesAt h pos u.baseReserve u.quoteReserve
  rw [hown, mergeSidesByUpsert_of_known
    (s := mergeSidesByPosition (sidesAt pos u.baseKey u.quoteKey _ _) row) hA hB rfl rfl]
  unfold HoldsFor KeepsPlace
  refine exists_congr fun p => ?_
  rw [of_mergeSidesByPosition, hmints, Prod.mk.injEq, ← mint_of_sidesAt p pos u.baseReserve
    u.quoteReserve]
  refine and_congr_right fun hm => ?_
  rw [told_of_silent hs hm, Option.getD_some]
  have hzero : mergeLeg 0 ((p.of row).2.getD 0) = (p.of row).2.getD 0 := if_neg (lt_irrefl 0)
  rw [hzero, Option.some.injEq]
  exact getD_eq_iff hv

/-- A row that is not patched holds nothing that the message does not tell. -/
theorem unpatched_leg (h : SameMints u row) (hs : u.Silent mint) (hv : 0 < v) :
    ¬ HoldsFor (u.ownSides u.baseReserve u.quoteReserve) mint v := by
  obtain ⟨pos, _, hown⟩ := h.ownSides_eq
  rw [hown, holdsFor_sidesAt]
  rintro (⟨hm, hb⟩ | ⟨hm, hq⟩)
  · have := hs.base hm
    omega
  · have := hs.quote hm
    omega

/-- **A balance comes back from a `PoolDiscovered` message of the row's mints.** -/
theorem discovered_leg_iff (h : SameMints u row) (hs : u.Silent mint) (hv : 0 < v) :
    HoldsFor (upsertSides u.dex u.geyserSlot (u.discoveredSides row) row) mint v ↔
      DiscoveredKeepsLeg u row mint v := by
  obtain ⟨pos, hmints, hown⟩ := h.ownSides_eq
  unfold upsertSides PoolCacheUpdate.discoveredSides DiscoveredKeepsLeg
  cases u.dex with
  | raydium =>
      dsimp only
      rw [hown, h.upsert_sidesAt, ← hown]
      exact iff_of_false (unpatched_leg h hs hv) fun hf => hf
  | meteoraCpmm =>
      dsimp only
      by_cases hz : u.baseReserve = 0 ∧ u.quoteReserve = 0 ∧ 0 < u.geyserSlot
      · rw [hown, if_pos ⟨hz.2.2, (noReserve_sidesAt pos).mpr ⟨hz.1, hz.2.1⟩⟩]
        refine Iff.trans (exists_congr fun p => ?_) (and_iff_right hz).symm
        rw [hmints, ← mint_of_sidesAt p pos u.baseReserve u.quoteReserve]
        cases p <;> exact Prod.mk_inj
      · rw [hown, if_neg fun hn => hz ⟨((noReserve_sidesAt pos).mp hn.2).1,
          ((noReserve_sidesAt pos).mp hn.2).2, hn.1⟩, ← hown]
        exact iff_of_false (unpatched_leg h hs hv) fun hk => hz hk.1
  | _ => exact patched_leg_iff h hs hv

/-- The reserve that a `BalanceUpdated` message is given for a mint it is silent on. -/
theorem completed_leg_iff (h : SameMints u row) (hs : u.Silent mint) (state : CachedPoolState)
    (pos : VaultPosition) :
    HoldsFor (sidesAt pos u.baseKey u.quoteKey (u.completed state).1 (u.completed state).2)
      mint v ↔ BalanceKeepsLeg u state mint v := by
  rw [holdsFor_sidesAt]
  unfold BalanceKeepsLeg PoolCacheUpdate.completed mergedReserves
  dsimp only
  have hzero (x : Nat) : mergeLeg 0 x = x := if_neg (lt_irrefl 0)
  by_cases hb : mint = u.baseKey
  · rw [if_pos hb, hs.base hb, hzero]
    refine ⟨fun hor => ?_, fun he => .inl ⟨hb, he⟩⟩
    rcases hor with ⟨_, he⟩ | ⟨hq, _⟩
    · exact he
    · exact absurd (hb.symm.trans hq) h.distinct
  · have hq := hs.named.resolve_left hb
    rw [if_neg hb, hs.quote hq, hzero]
    refine ⟨fun hor => ?_, fun he => .inr ⟨hq, he⟩⟩
    exact (hor.resolve_left fun hh => hb hh.1).2

/-- A Meteora CPMM row from which nothing is read holds nothing. -/
theorem no_leg_of_extract {ex : MeteoraCpmmState} (hv : 0 < v)
    (he : (CachedPoolState.meteoraCpmm ex).sides = some row)
    (h : (extractReserves (.meteoraCpmm ex)).1 = 0 ∧ (extractReserves (.meteoraCpmm ex)).2 = 0) :
    ¬ HoldsFor row mint v := by
  have hzero : ex.reserve0 = 0 ∧ ex.reserve1 = 0 := by
    unfold extractReserves at h
    dsimp only at h
    split_ifs at h
    · exact h
    · exact h.symm
    · exact h
  cases Option.some.inj he
  rintro ⟨p, hp⟩
  cases p
  · injection hp with _ hp
    injection hp with hp
    omega
  · injection hp with _ hp
    injection hp with hp
    omega

/-- **A balance comes back from a `BalanceUpdated` message of the row's mints.** -/
theorem balance_leg_iff {ex : CachedPoolState} (h : SameMints u row) (hu : u.dex = ex.dex)
    (he : ex.sides = some row) (hs : u.Silent mint) (hv : 0 < v) (hheld : HoldsFor row mint v) :
    HoldsFor (upsertSides u.dex u.geyserSlot
      (u.balanceSides row (u.completed ex).1 (u.completed ex).2) row) mint v ↔
      BalanceKeepsLeg u ex mint v := by
  obtain ⟨pos, hsides⟩ := h.balanceSides_eq (u.completed ex).1 (u.completed ex).2
  rw [hsides]
  by_cases hcpmm : u.dex = .meteoraCpmm
  · have hpart : ¬ NoReserve (sidesAt pos u.baseKey u.quoteKey (u.completed ex).1
        (u.completed ex).2) := by
      rw [noReserve_sidesAt]
      rintro ⟨hb, hq⟩
      cases ex with
      | meteoraCpmm ex =>
          exact no_leg_of_extract hv he ⟨zero_of_mergeLeg hb, zero_of_mergeLeg hq⟩ hheld
      | _ => cases hcpmm.symm.trans hu
    unfold upsertSides
    rw [hcpmm]
    dsimp only
    rw [if_neg fun hh => hpart hh.2]
    exact completed_leg_iff h hs ex pos
  · rw [upsertSides_of_ne hcpmm, h.upsert_sidesAt]
    exact completed_leg_iff h hs ex pos

/-- Every leg of the row comes back, or its sides are as those that are laid over it. -/
theorem legsReturn_iff {laid : Side × Side} {keepsLeg : Pubkey → Nat → Prop}
    (h : ∀ mint v, SameMints u row → u.Silent mint → 0 < v → HoldsFor row mint v →
      (HoldsFor (upsertSides u.dex u.geyserSlot laid row) mint v ↔ keepsLeg mint v)) :
    (∀ mint v, u.Silent mint → 0 < v → HoldsFor row mint v →
      HoldsFor (upsertSides u.dex u.geyserSlot laid row) mint v) ↔
      LegsReturn u row laid keepsLeg := by
  unfold LegsReturn
  refine forall₅_congr fun mint v hs hv hheld => ?_
  by_cases hm : SameMints u row
  · rw [h mint v hm hs hv hheld]
    exact ⟨fun hk => ⟨fun _ => hk, fun hn => absurd hm hn⟩, fun hk => hk.1 hm⟩
  · exact ⟨fun hk => ⟨fun hy => absurd hy hm, fun _ => hk⟩, fun hk => hk.2 hm⟩

variable {c : LivePoolCache} {poolAddr : Pubkey} {ex minimal new : CachedPoolState}

theorem holds_iff (he : ex.sides = some row) : ex.Holds mint v ↔ HoldsFor row mint v := by
  refine ⟨fun ⟨s, hs, hh⟩ => ?_, fun hh => ⟨row, he, hh⟩⟩
  cases hs.symm.trans he
  exact hh

/-- Of rows with sides the sides alone matter. -/
theorem keepsReserves_iff_of_sides (he : ex.sides = some row) (hn : new.sides = some s) :
    KeepsReserves u ex new ↔
      ∀ mint v, u.Silent mint → 0 < v → HoldsFor row mint v → HoldsFor s mint v := by
  cases ex with
  | pumpFun ex => cases he
  | _ => exact forall₄_congr fun mint v _ _ => imp_congr (holds_iff he) (holds_iff hn)

theorem sides_of_dex (h : ex.dex ≠ .pumpfun) : ∃ row, ex.sides = some row := by
  cases ex with
  | pumpFun ex => exact absurd rfl h
  | _ => exact ⟨_, rfl⟩

/-- **The reserves of a discovered row.** -/
theorem reserves_discovered_iff (hu : u.dex = ex.dex)
    (hm : minimalState u poolAddr u.baseKey u.quoteKey u.baseReserve u.quoteReserve =
      some minimal) :
    KeepsReserves u ex (laidOver c u.geyserSlot ex (discoveredOver u (some ex) minimal)) ↔
      DiscoveredReserves u ex := by
  by_cases hp : ex.dex = .pumpfun
  · cases ex with
    | pumpFun ex =>
        unfold minimalState at hm
        rw [hu] at hm
        cases Option.some.inj hm
        have hleg (told old : Nat) : (told = 0 → 0 < old → told = old) ↔ (told = 0 → old = 0) := by
          omega
        exact and_congr (hleg u.baseReserve ex.virtualTokenReserves)
          (hleg u.quoteReserve ex.virtualSolReserves)
    | _ => cases hp
  · obtain ⟨row, he⟩ := sides_of_dex hp
    have hsides := sides_discovered c hu (by rwa [hu]) he hm
    rw [laidOver, keepsReserves_iff_of_sides he hsides,
      legsReturn_iff fun mint v h hs hv _ => discovered_leg_iff h hs hv]
    cases ex with
    | pumpFun ex => cases he
    | _ => exact ⟨fun h row' hr => Option.some.inj (he.symm.trans hr) ▸ h, fun h => h row he⟩

/-- **The reserves of the row of a `BalanceUpdated` message.** -/
theorem reserves_balance_iff (hu : u.dex = ex.dex)
    (hm : minimalState u poolAddr u.baseKey u.quoteKey (u.completed ex).1 (u.completed ex).2 =
      some minimal) :
    KeepsReserves u ex (laidOver c u.geyserSlot ex (balanceOver u u.baseKey u.quoteKey
      (u.completed ex).1 (u.completed ex).2 (some ex) minimal)) ↔ BalanceReserves u ex := by
  by_cases hp : ex.dex = .pumpfun
  · cases ex with
    | pumpFun ex =>
        unfold minimalState at hm
        rw [hu] at hm
        cases Option.some.inj hm
        have hleg (told old : Nat) : told = 0 → mergeLeg told old = old := by
          rintro rfl
          exact if_neg (lt_irrefl 0)
        exact iff_of_true ⟨fun hb _ => hleg _ _ hb, fun hq _ => hleg _ _ hq⟩
          fun row hr => (nomatch hr)
    | _ => cases hp
  · obtain ⟨row, he⟩ := sides_of_dex hp
    have hsides := sides_balance c hu (by rwa [hu]) he hm
    unfold BalanceReserves
    rw [laidOver, keepsReserves_iff_of_sides he hsides,
      legsReturn_iff fun mint v h hs hv hheld => balance_leg_iff h hu he hs hv hheld]
    exact ⟨fun h row' hr => Option.some.inj (he.symm.trans hr) ▸ h, fun h => h row he⟩

end Reserves

/-! ## 4. A message that is applied -/

/-- **What a message does not carry is still known.** -/
structure KeepsKnowledge (u : PoolCacheUpdate) (ex new : CachedPoolState) : Prop where
  fields : KeepsFields u ex new
  reserves : KeepsReserves u ex new

/-- What a message does not carry comes back to the row it meets. One that is behind the row does
    not write it. -/
def Returns (c : LivePoolCache) (u : PoolCacheUpdate) (row : CacheEntry) : Prop :=
  BehindSeen u.geyserSlot row ∨
    match u.updateType with
    | .poolDiscovered => DiscoveredFields c u row.state ∧ DiscoveredReserves u row.state
    | .balanceUpdated => BalanceFields c u row.state ∧ BalanceReserves u row.state
    | .poolRemoved => True

/-- What a consumer hands to its cache: a message, or a `PoolStateUpdate` of the core. -/
inductive Delivery where
  | update (u : PoolCacheUpdate)
  | bridged (poolAddress : String) (dex : Dex) (reserveBase reserveQuote : Nat)
      (baseMint quoteMint : String) (updateSlot : Nat)

namespace Delivery

/-- The message of a delivery. -/
def message : Delivery → PoolCacheUpdate
  | update u => u
  | bridged poolAddress dex reserveBase reserveQuote baseMint quoteMint updateSlot =>
      .newBalanceUpdated poolAddress dex baseMint quoteMint reserveBase reserveQuote updateSlot

/-- A delivery reaches the cache. -/
def apply (env : Ambient) (c : SlaveCache) (now : Nat) :
    Delivery → SlaveCache × PoolCacheApplyOutcome
  | update u => c.applyPoolCacheUpdateOutcome env u now
  | bridged poolAddress dex reserveBase reserveQuote baseMint quoteMint updateSlot =>
      c.applyPoolStateUpdateToCache env poolAddress dex reserveBase reserveQuote baseMint quoteMint
        updateSlot now

/-- A delivery that is applied is its message. -/
theorem apply_of_applied {env : Ambient} {c : SlaveCache} {now : Nat} {d : Delivery}
    (h : (d.apply env c now).2 = .applied) :
    d.apply env c now = c.applyPoolCacheUpdateOutcome env d.message now := by
  cases d with
  | update u => rfl
  | bridged poolAddress dex reserveBase reserveQuote baseMint quoteMint updateSlot =>
      unfold apply SlaveCache.applyPoolStateUpdateToCache at h ⊢
      dsimp only at h ⊢
      by_cases hd : dex = .restored
      · rw [if_pos hd] at h
        cases h
      · rw [if_neg hd] at h ⊢
        by_cases hz : reserveBase = 0 ∧ reserveQuote = 0
        · rw [if_pos hz] at h
          cases h
        · rw [if_neg hz]
          rfl

end Delivery

theorem minimalState_of_own {u : PoolCacheUpdate} {base quote : Nat}
    {built : Pubkey × CachedPoolState}
    (h : buildMinimalPoolStateWithReserves u base quote = some built) :
    minimalState u built.1 u.baseKey u.quoteKey base quote = some built.2 := by
  unfold buildMinimalPoolStateWithReserves at h
  obtain ⟨poolAddr, _, h⟩ := Option.bind_eq_some_iff.mp h
  obtain ⟨baseMint, hb, h⟩ := Option.bind_eq_some_iff.mp h
  obtain ⟨quoteMint, hq, h⟩ := Option.bind_eq_some_iff.mp h
  obtain ⟨state, hs, rfl⟩ := Option.map_eq_some_iff.mp h
  unfold PoolCacheUpdate.baseKey PoolCacheUpdate.quoteKey
  rw [hb, hq]
  exact hs

/-- A row keeps itself. -/
theorem KeepsKnowledge.refl (u : PoolCacheUpdate) (state : CachedPoolState) :
    KeepsKnowledge u state state := by
  refine ⟨?_, ?_⟩
  · cases state <;> constructor <;> first | exact fun _ => rfl | exact rfl | exact fun h => h
  · cases state with
    | pumpFun s => exact ⟨fun _ _ => rfl, fun _ _ => rfl⟩
    | _ => exact fun _ _ _ _ h => h

/-- The row that a message writes over a stored one. -/
theorem keeps_written_iff {c : SlaveCache} {u : PoolCacheUpdate} {pool : Pubkey} {row : CacheEntry}
    {state : CachedPoolState} (hrow : c.pools.lookup pool = some row)
    (hd : u.dex = row.state.dex) (hfresh : ¬ BehindSeen u.geyserSlot row)
    (hb : c.builtRow pool u = some state) :
    KeepsKnowledge u row.state (laidOver c.toLivePoolCache u.geyserSlot row.state state) ↔
      Returns c.toLivePoolCache u row := by
  have hstate : c.stateOf pool = some row.state := by
    unfold SlaveCache.stateOf
    rw [hrow]
    rfl
  unfold Returns
  rw [or_iff_right hfresh]
  unfold SlaveCache.builtRow at hb
  cases ht : u.updateType with
  | poolRemoved =>
      rw [ht] at hb
      cases hb
  | poolDiscovered =>
      rw [ht] at hb
      obtain ⟨built, hbuilt, rfl⟩ := Option.map_eq_some_iff.mp hb
      have hm := minimalState_of_own hbuilt
      rw [hstate]
      dsimp only
      rw [← fields_discovered_iff hd hm, ← reserves_discovered_iff hd hm]
      exact ⟨fun h => ⟨h.fields, h.reserves⟩, fun h => ⟨h.1, h.2⟩⟩
  | balanceUpdated =>
      rw [ht] at hb
      unfold SlaveCache.balanceRow at hb
      rw [hstate] at hb
      obtain ⟨built, hbuilt, rfl⟩ := Option.map_eq_some_iff.mp hb
      have hm := minimalState_of_own hbuilt
      dsimp only
      rw [← fields_balance_iff hd hm, ← reserves_balance_iff hd hm]
      exact ⟨fun h => ⟨h.fields, h.reserves⟩, fun h => ⟨h.1, h.2⟩⟩

/-- **A message that is applied keeps what it does not carry exactly when that comes back to the
    row it meets.** -/
theorem update_keeps_iff (env : Ambient) (c : SlaveCache) (d : Delivery) (now : Nat) (pool : Pubkey)
    (row : CacheEntry) (hp : parsePubkey d.message.poolAddress = some pool)
    (hrow : c.pools.lookup pool = some row) (hd : d.message.dex = row.state.dex)
    (happ : (d.apply env c now).2 = .applied) :
    ∃ new, (d.apply env c now).1.stateOf pool = some new ∧
      (KeepsKnowledge d.message row.state new ↔ Returns c.toLivePoolCache d.message row) := by
  have heq := Delivery.apply_of_applied happ
  rw [heq] at happ ⊢
  have hstate : c.stateOf pool = some row.state := by
    unfold SlaveCache.stateOf
    rw [hrow]
    rfl
  obtain ⟨_, hw⟩ | ⟨hn, _⟩ := SlaveCache.apply_cases env c now hp
  · cases hw with
    | sustained kind behind same =>
        refine ⟨row.state, same.trans hstate, iff_of_true (.refl _ _) (.inl ?_)⟩
        refine Classical.byContradiction fun hb => behind fun row' hrow' => ?_
        cases hrow.symm.trans hrow'
        exact hb
    | written state built fresh same =>
        refine ⟨_, same, ?_⟩
        unfold SlaveCache.upserted
        rw [hstate]
        exact keeps_written_iff hrow hd (fresh row hrow) built
  · exact absurd happ hn

/-- A message for the pool 9 of the mints 1 and 2. -/
def pumpUpdate (kind : PoolCacheUpdateType) (dex : Dex) (base quote slot : Nat)
    (metadata : Option Metadata) : PoolCacheUpdate where
  updateType := kind
  poolAddress := "1111111111111111111111111111111A"
  dex := dex
  baseMint := "11111111111111111111111111111112"
  quoteMint := "11111111111111111111111111111113"
  baseReserve := base
  quoteReserve := quote
  geyserSlot := slot
  metadata := metadata

/-- A cache that has discovered the pool, with the creator 3. -/
def pumpCache (dex : Dex) : SlaveCache :=
  (SlaveCache.new.applyPoolCacheUpdateOutcome .weighing (pumpUpdate .poolDiscovered dex 100 200 1
    (some (AList.singleton .creator "11111111111111111111111111111114"))) 0).1

/-- The new quote reserve of a PumpSwap pool alone. -/
def quoteOnly : PoolCacheUpdate := pumpUpdate .balanceUpdated .pumpAmm 0 250 2 none

theorem keys_quoteOnly : quoteOnly.baseKey = 1 ∧ quoteOnly.quoteKey = 2 := by decide +kernel

theorem sameMints_quoteOnly : SameMints quoteOnly ((1, some 100), (2, some 200)) := by
  obtain ⟨hbase, hquote⟩ := keys_quoteOnly
  exact
    { distinct := by rw [hbase, hquote]; decide
      baseKnown := by rw [hbase]; decide
      quoteKnown := by rw [hquote]; decide
      told := ⟨.a, rfl⟩
      stored := ⟨.a, by rw [hbase, hquote]; rfl⟩ }

/-- It leaves the base reserve and the creator of the row. -/
theorem update_keeps_quoteOnly :
    ∃ new, ((Delivery.update quoteOnly).apply .weighing (pumpCache .pumpAmm) 0).1.stateOf 9 =
        some new ∧
      KeepsKnowledge quoteOnly (.pumpAmm ⟨1, 2, 0, 0, some 100, some 200, [], some 3⟩) new := by
  obtain ⟨hbase, hquote⟩ := keys_quoteOnly
  obtain ⟨new, hnew, hiff⟩ := update_keeps_iff .weighing (pumpCache .pumpAmm) (.update quoteOnly) 0 9
    (.new (.pumpAmm ⟨1, 2, 0, 0, some 100, some 200, [], some 3⟩) 1 0)
    (by show parsePubkey "1111111111111111111111111111111A" = some 9; decide +kernel)
    (by decide +kernel) rfl (by decide +kernel)
  refine ⟨new, hnew, hiff.mpr (.inr ⟨trivial, fun row hr mint v hs _ hheld => ?_⟩)⟩
  cases Option.some.inj hr
  obtain ⟨p, hp⟩ := hheld
  cases p with
  | a =>
      cases hp
      refine ⟨fun _ => ?_, fun hn => absurd sameMints_quoteOnly hn⟩
      show if (1 : Pubkey) = quoteOnly.baseKey then 100 = 100 else 200 = 100
      rw [if_pos hbase.symm]
  | b =>
      cases hp
      exact absurd (hs.quote hquote.symm) (by decide)

/-- **A bonding curve loses its creator to two new reserves.** -/
theorem creator_erased :
    ¬ ∀ (env : Ambient) (c : SlaveCache) (d : Delivery) (now : Nat) (pool : Pubkey)
      (row : CacheEntry), parsePubkey d.message.poolAddress = some pool →
      c.pools.lookup pool = some row → d.message.dex = row.state.dex →
      (d.apply env c now).2 = .applied →
      ∃ new, (d.apply env c now).1.stateOf pool = some new ∧
        KeepsKnowledge d.message row.state new := by
  intro h
  obtain ⟨new, hnew, hk⟩ := h .weighing (pumpCache .pumpfun)
    (.bridged "1111111111111111111111111111111A" .pumpfun 110 190
      "11111111111111111111111111111112" "11111111111111111111111111111113" 2) 0 9
    (.new (.pumpFun ⟨1, 9, 0, 200, 100, 0, 0, false, 3, false⟩) 1 0)
    (by show parsePubkey "1111111111111111111111111111111A" = some 9; decide +kernel)
    (by decide +kernel) rfl (by decide +kernel)
  have hrow : ((Delivery.bridged "1111111111111111111111111111111A" .pumpfun 110 190
      "11111111111111111111111111111112" "11111111111111111111111111111113" 2).apply .weighing
      (pumpCache .pumpfun) 0).1.stateOf 9 =
      some (.pumpFun ⟨1, 9, 0, 190, 110, 0, 0, false, 0, false⟩) := by
    decide +kernel
  cases hnew.symm.trans hrow
  exact absurd (hk.fields.creator rfl) (by decide)

end IronCrab.Cache

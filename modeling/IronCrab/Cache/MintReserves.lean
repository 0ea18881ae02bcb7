/-
  File:      IronCrab/Cache/MintReserves.lean
  Subject:   RESERVES AND THEIR MINTS over a run of messages for one pool (`pool_cache_sync.rs`).

  Every message names the same base and quote; its metadata may tell the on-chain order. The row
  holds each reserve on the side of its mint as long as every message KEEPS THE LEGS
  (`KeepsLegs`). A leg that a message does not report is read back from the stored row, and that
  goes wrong where

  * the row is rebuilt in another order, and patched by position (`PoolDiscovered`);
  * the row is rebuilt and not patched at all (Raydium AMM and Meteora CPMM);
  * the row is read by position, though its base stands second (`BalanceUpdated`).

  * **`reserves_stay_with_mint`** -- over every run of messages that keep the legs, each side holds
    the last reserve reported for its mint;
  * `orca_reserves_swapped` -- an Orca pool whose quote stands first, and one vault's balance.
-/
import IronCrab.Cache.RowSides
import IronCrab.Lib.Machine

namespace IronCrab.Cache

open Track (Pubkey)
open Machine LivePoolCache

/-! ## 1. Legs -/

/-- A row of these two mints, with these reserves on their sides. -/
def CachedPoolState.Attached (state : CachedPoolState) (base quote : Pubkey) (b q : Nat) : Prop :=
  ∃ pos, state.sides = some (sidesAt pos base quote b q)

/-- Where the base of a pool stands in its row. -/
def CachedPoolState.basePos (state : CachedPoolState) (base : Pubkey) : VaultPosition :=
  match state.sides with
  | some (a, _) => if a.1 = base then .a else .b
  | none => .a

/-- The balance of a side. -/
def CachedPoolState.leg (state : CachedPoolState) (pos : VaultPosition) : Nat :=
  match state.sides with
  | some (a, b) => (pos.pick a b).2.getD 0
  | none => 0

/-- A message for the pool, of these mints, with this on-chain order where it tells one. -/
structure Names (pool base quote : Pubkey) (dex : Dex) (order : VaultPosition)
    (u : PoolCacheUpdate) : Prop where
  address : parsePubkey u.poolAddress = some pool
  ofDex : u.dex = dex
  baseMint : parsePubkey u.baseMint = some base
  quoteMint : parsePubkey u.quoteMint = some quote
  onchain : ∀ key, onchainKey dex = some key → ∀ text, u.get key = some text →
    pubkeyPair text = some (order.pick base quote, order.pick quote base)

/-! ## 2. When a message keeps the legs -/

/-- Where the base stands in a row that is built from a message: `rest` where it tells no order. -/
def PoolCacheUpdate.orderOr (u : PoolCacheUpdate) (order rest : VaultPosition) : VaultPosition :=
  if u.tellsOrder then order else rest

/-- The reserves that the message leaves out were 0. -/
def DropsNothing (u : PoolCacheUpdate) (b q : Nat) : Prop :=
  (u.baseReserve = 0 → b = 0) ∧ (u.quoteReserve = 0 → q = 0)

/-- The sides change places without harm: neither mint is the default, and where a leg is not
    reported the two legs are equal. -/
def SwapsEvenly (u : PoolCacheUpdate) (base quote : Pubkey) (b q : Nat) : Prop :=
  base ≠ Pubkey.default ∧ quote ≠ Pubkey.default ∧
    (u.baseReserve = 0 ∨ u.quoteReserve = 0 → b = q)

/-- A `PoolDiscovered` message keeps the legs `b` and `q` of a row whose base stands at `pos`. -/
def DiscoveredKeeps (u : PoolCacheUpdate) (base quote : Pubkey) (order pos : VaultPosition)
    (b q : Nat) : Prop :=
  match u.dex with
  | .raydium => DropsNothing u b q
  | .meteoraCpmm =>
      if u.baseReserve = 0 ∧ u.quoteReserve = 0 ∧ 0 < u.geyserSlot then
        u.orderOr order .a = pos ∨ b = q
      else DropsNothing u b q
  | .orca | .meteoraDlmm => u.orderOr order .a = pos ∨ SwapsEvenly u base quote b q
  | _ => True

/-- A `BalanceUpdated` message keeps the legs of a row: what `extract_reserves` takes for a leg
    that the message does not report is that leg. -/
def BalanceKeeps (u : PoolCacheUpdate) (base quote : Pubkey) (order pos : VaultPosition)
    (state : CachedPoolState) (b q : Nat) : Prop :=
  (u.baseReserve = 0 → (extractReserves state).1 = b) ∧
    (u.quoteReserve = 0 → (extractReserves state).2 = q) ∧
    (u.dex = .meteoraDlmm → u.orderOr order pos = pos ∨
      base ≠ Pubkey.default ∧ quote ≠ Pubkey.default)

/-- A message keeps the legs of the row it meets. One that is behind the row is applied only to
    sustain its age, and must not report another reserve. -/
def KeepsLegs (base quote : Pubkey) (order : VaultPosition) (row : CacheEntry)
    (u : PoolCacheUpdate) : Prop :=
  let pos := row.state.basePos base
  let b := row.state.leg pos
  let q := row.state.leg pos.other
  if BehindSeen u.geyserSlot row then
    u.updateType = .balanceUpdated →
      (u.baseReserve = 0 ∨ u.baseReserve = b) ∧ (u.quoteReserve = 0 ∨ u.quoteReserve = q)
  else
    match u.updateType with
    | .poolDiscovered => DiscoveredKeeps u base quote order pos b q
    | .balanceUpdated => BalanceKeeps u base quote order pos row.state b q
    | .poolRemoved => True

/-! ## 3. The sides of the row after a message -/

variable {base quote : Pubkey} {pos : VaultPosition} {b q : Nat}

theorem basePos_of_sides {state : CachedPoolState} (hne : base ≠ quote)
    (h : state.sides = some (sidesAt pos base quote b q)) : state.basePos base = pos := by
  unfold CachedPoolState.basePos
  rw [h]
  cases pos with
  | a => exact if_pos rfl
  | b => exact if_neg fun heq => hne heq.symm

theorem leg_of_sides {state : CachedPoolState}
    (h : state.sides = some (sidesAt pos base quote b q)) :
    state.leg pos = b ∧ state.leg pos.other = q := by
  unfold CachedPoolState.leg
  rw [h]
  cases pos <;> exact ⟨rfl, rfl⟩

/-- Where the base stands in a row of a `BalanceUpdated` message, over a row where it stands at
    `pos`. -/
def PoolCacheUpdate.balancePos (u : PoolCacheUpdate) (order pos : VaultPosition) : VaultPosition :=
  match u.dex with
  | .orca => pos
  | _ => u.orderOr order pos

theorem orderOr_of_no_key {u : PoolCacheUpdate} (h : onchainKey u.dex = none)
    (order rest : VaultPosition) : u.orderOr order rest = rest := by
  unfold PoolCacheUpdate.orderOr PoolCacheUpdate.tellsOrder
  rw [h]
  rfl

section Step

variable {u : PoolCacheUpdate} {pool : Pubkey} {dex : Dex} {order : VaultPosition}

theorem Names.keys (hn : Names pool base quote dex order u) :
    u.baseKey = base ∧ u.quoteKey = quote := by
  unfold PoolCacheUpdate.baseKey PoolCacheUpdate.quoteKey
  rw [hn.baseMint, hn.quoteMint]
  exact ⟨rfl, rfl⟩

/-- The mints of a message, in the order it tells. -/
theorem Names.ownMints_eq (hn : Names pool base quote dex order u) :
    u.ownMints = ((u.orderOr order .a).pick base quote, (u.orderOr order .a).pick quote base) := by
  unfold PoolCacheUpdate.ownMints PoolCacheUpdate.orderOr PoolCacheUpdate.tellsOrder
  rw [hn.ofDex, hn.keys.1, hn.keys.2]
  cases hkey : onchainKey dex with
  | none => rfl
  | some key =>
      dsimp only
      unfold PoolCacheUpdate.pairAt
      by_cases hs : (u.get key).isSome = true
      · obtain ⟨text, hg⟩ := Option.isSome_iff_exists.mp hs
        rw [if_pos hs, hg, Option.bind_some, hn.onchain key hkey text hg]
        rfl
      · rw [if_neg hs, Option.not_isSome_iff_eq_none.mp hs]
        rfl

theorem Names.ownSides_eq (hn : Names pool base quote dex order u) (hne : base ≠ quote)
    (b q : Nat) : u.ownSides b q = sidesAt (u.orderOr order .a) base quote b q := by
  obtain ⟨rfl, rfl⟩ := hn.keys
  exact ownSides_of_mints hne hn.ownMints_eq b q

theorem mints_of_sidesAt (pos : VaultPosition) (base quote : Pubkey) (b q : Nat) :
    (sidesAt pos base quote b q).1.1 = pos.pick base quote ∧
      (sidesAt pos base quote b q).2.1 = pos.pick quote base := by
  cases pos <;> exact ⟨rfl, rfl⟩

/-- **A `PoolDiscovered` message that keeps the legs.** -/
theorem discoveredSides_keep (hn : Names pool base quote dex order u) (hne : base ≠ quote)
    (hpos : onchainKey dex = none → pos = .a)
    (hk : DiscoveredKeeps u base quote order pos b q) :
    upsertSides u.dex u.geyserSlot (u.discoveredSides (sidesAt pos base quote b q))
        (sidesAt pos base quote b q) =
      sidesAt (u.orderOr order .a) base quote (mergeLeg u.baseReserve b)
        (mergeLeg u.quoteReserve q) := by
  have hsame : onchainKey u.dex = none → u.orderOr order .a = pos := by
    intro hkey
    rw [orderOr_of_no_key hkey, hpos (by rw [← hn.ofDex]; exact hkey)]
  -- a patch by position, in the row's order or where the sides swap evenly
  have hpatched (h : u.orderOr order .a = pos ∨ SwapsEvenly u base quote b q) :
      mergeSidesByUpsert (mergeSidesByPosition
        (sidesAt (u.orderOr order .a) base quote u.baseReserve u.quoteReserve)
        (sidesAt pos base quote b q)) (sidesAt pos base quote b q) =
        sidesAt (u.orderOr order .a) base quote (mergeLeg u.baseReserve b)
          (mergeLeg u.quoteReserve q) := by
    rw [mergeSidesByPosition_sidesAt (h.imp_right fun hs => hs.2.2)]
    refine mergeSidesByUpsert_sidesAt (h.imp ?_ fun hs => ⟨hs.1, hs.2.1⟩)
    intro hp
    rw [hp]
    exact mints_of_sidesAt pos base quote b q
  unfold DiscoveredKeeps at hk
  unfold upsertSides PoolCacheUpdate.discoveredSides
  rw [hn.ownSides_eq hne]
  cases hd : u.dex with
  | orca =>
      rw [hd] at hk
      exact hpatched hk
  | meteoraDlmm =>
      rw [hd] at hk
      exact hpatched hk
  | raydium =>
      rw [hd] at hk
      rw [mergeLeg_of_drop hk.1, mergeLeg_of_drop hk.2]
      refine mergeSidesByUpsert_sidesAt (.inl ?_)
      rw [hsame (by rw [hd]; rfl)]
      exact mints_of_sidesAt pos base quote b q
  | meteoraCpmm =>
      rw [hd] at hk
      dsimp only at hk ⊢
      by_cases hz : u.baseReserve = 0 ∧ u.quoteReserve = 0 ∧ 0 < u.geyserSlot
      · rw [if_pos hz] at hk
        rw [if_pos ⟨hz.2.2, (noReserve_sidesAt _).mpr ⟨hz.1, hz.2.1⟩⟩, hz.1, hz.2.1]
        rcases hk with hp | rfl
        · rw [hp]
          cases pos <;> rfl
        · cases u.orderOr order .a <;> cases pos <;> rfl
      · rw [if_neg hz] at hk
        rw [if_neg fun hh => hz ⟨((noReserve_sidesAt _).mp hh.2).1,
          ((noReserve_sidesAt _).mp hh.2).2, hh.1⟩, mergeLeg_of_drop hk.1, mergeLeg_of_drop hk.2]
  | _ => exact hpatched (.inl (hsame (by rw [hd]; rfl)))

/-- Where the base stands in the row of a `BalanceUpdated` message. -/
theorem laidPos_eq (hn : Names pool base quote dex order u)
    (hpos : onchainKey dex = none → pos = .a) :
    u.laidPos (u.orderOr order .a) pos = u.balancePos order pos := by
  unfold PoolCacheUpdate.laidPos PoolCacheUpdate.balancePos PoolCacheUpdate.orderOr
  cases hd : u.dex with
  | orca => rfl
  | meteoraDlmm =>
      dsimp only
      split_ifs <;> rfl
  | meteoraCpmm =>
      dsimp only
      split_ifs <;> rfl
  | _ =>
      dsimp only
      rw [hpos (by rw [← hn.ofDex, hd]; rfl)]

/-- **A `BalanceUpdated` message that keeps the legs.** -/
theorem balanceSides_keep {ex : CachedPoolState} (hn : Names pool base quote dex order u)
    (hne : base ≠ quote) (hpos : onchainKey dex = none → pos = .a)
    (hk : BalanceKeeps u base quote order pos ex b q) :
    upsertSides u.dex u.geyserSlot (u.balanceSides (sidesAt pos base quote b q)
        (mergeLeg u.baseReserve (extractReserves ex).1)
        (mergeLeg u.quoteReserve (extractReserves ex).2)) (sidesAt pos base quote b q) =
      sidesAt (u.balancePos order pos) base quote (mergeLeg u.baseReserve b)
        (mergeLeg u.quoteReserve q) := by
  obtain ⟨hkb, hkq, hdlmm⟩ := hk
  obtain ⟨hA, hB⟩ := mints_of_sidesAt pos base quote b q
  have hlaid : u.balanceSides (sidesAt pos base quote b q) (mergeLeg u.baseReserve b)
      (mergeLeg u.quoteReserve q) = sidesAt (u.balancePos order pos) base quote
        (mergeLeg u.baseReserve b) (mergeLeg u.quoteReserve q) := by
    rw [← laidPos_eq hn hpos]
    obtain ⟨rfl, rfl⟩ := hn.keys
    exact balanceSides_of_mints hne hn.ownMints_eq hA hB _ _
  rw [mergeLeg_congr hkb, mergeLeg_congr hkq, hlaid]
  by_cases hcpmm : u.dex = .meteoraCpmm
  · unfold upsertSides
    rw [hcpmm]
    dsimp only
    by_cases hz : mergeLeg u.baseReserve b = 0 ∧ mergeLeg u.quoteReserve q = 0
    · have hb := zero_of_mergeLeg hz.1
      have hq := zero_of_mergeLeg hz.2
      rw [hz.1, hz.2, hb, hq]
      split_ifs
      · cases u.balancePos order pos <;> cases pos <;> rfl
      · rfl
    · rw [if_neg fun hh => hz ((noReserve_sidesAt _).mp hh.2)]
  · rw [upsertSides_of_ne hcpmm]
    refine mergeSidesByUpsert_sidesAt ?_
    unfold PoolCacheUpdate.balancePos
    cases hd : u.dex with
    | orca => exact .inl ⟨hA, hB⟩
    | meteoraDlmm => exact (hdlmm hd).imp (fun hp => by rw [hp]; exact ⟨hA, hB⟩) fun h => h
    | meteoraCpmm => exact absurd hd hcpmm
    | _ =>
        dsimp only
        rw [orderOr_of_no_key (by rw [hd]; rfl)]
        exact .inl ⟨hA, hB⟩

variable {c : LivePoolCache} {ex minimal : CachedPoolState}

/-- The sides of the row that is built from a message. -/
theorem sides_minimalState (hn : Names pool base quote dex order u) (hne : base ≠ quote)
    (hp : dex ≠ .pumpfun) (h : minimalState u pool base quote b q = some minimal) :
    minimal.sides = some (sidesAt (u.orderOr order .a) base quote b q) := by
  rw [← hn.ownSides_eq hne]
  obtain ⟨rfl, rfl⟩ := hn.keys
  exact sides_minimalState_own (by rw [hn.ofDex]; exact hp) h

/-- A discovered row over a stored one whose legs it keeps. -/
theorem sides_upserted_discovered (hn : Names pool base quote dex order u) (hne : base ≠ quote)
    (hp : dex ≠ .pumpfun) (hex : ex.dex = dex) (hpos : onchainKey dex = none → pos = .a)
    (he : ex.sides = some (sidesAt pos base quote b q))
    (hm : minimalState u pool base quote u.baseReserve u.quoteReserve = some minimal)
    (hk : DiscoveredKeeps u base quote order pos b q) :
    (mergeAccountParsePreservesExisting ex
      (c.fillTokenPrograms (discoveredOver u (some ex) minimal)) u.geyserSlot).sides =
      some (sidesAt (u.orderOr order .a) base quote (mergeLeg u.baseReserve b)
        (mergeLeg u.quoteReserve q)) := by
  rw [← discoveredSides_keep hn hne hpos hk]
  obtain ⟨rfl, rfl⟩ := hn.keys
  exact sides_discovered c (hn.ofDex.trans hex.symm) (by rw [hn.ofDex]; exact hp) he hm

/-- A `BalanceUpdated` row over a stored one whose legs it keeps. -/
theorem sides_upserted_balance (hn : Names pool base quote dex order u) (hne : base ≠ quote)
    (hp : dex ≠ .pumpfun) (hex : ex.dex = dex) (hpos : onchainKey dex = none → pos = .a)
    (he : ex.sides = some (sidesAt pos base quote b q))
    (hm : minimalState u pool base quote (mergeLeg u.baseReserve (extractReserves ex).1)
      (mergeLeg u.quoteReserve (extractReserves ex).2) = some minimal)
    (hk : BalanceKeeps u base quote order pos ex b q) :
    (mergeAccountParsePreservesExisting ex
      (c.fillTokenPrograms (balanceOver u base quote
        (mergeLeg u.baseReserve (extractReserves ex).1)
        (mergeLeg u.quoteReserve (extractReserves ex).2) (some ex) minimal)) u.geyserSlot).sides =
      some (sidesAt (u.balancePos order pos) base quote (mergeLeg u.baseReserve b)
        (mergeLeg u.quoteReserve q)) := by
  rw [← balanceSides_keep hn hne hpos hk]
  obtain ⟨rfl, rfl⟩ := hn.keys
  exact sides_balance c (hn.ofDex.trans hex.symm) (by rw [hn.ofDex]; exact hp) he hm

end Step

/-! ## 4. Runs of messages -/

/-- The cache, with the last reserve of each mint that a message which was applied reported. -/
structure Reported where
  cache : SlaveCache
  base : Nat
  quote : Nat

namespace Reported

variable {env : Ambient} {pool : Pubkey} {dex : Dex} {order : VaultPosition} {s : Reported}
  {u : PoolCacheUpdate}

/-- A message is delivered at a time. -/
def deliver (env : Ambient) (s : Reported) (m : PoolCacheUpdate × Nat) : Reported :=
  let r := s.cache.applyPoolCacheUpdateOutcome env m.1 m.2
  if r.2 = .applied then
    ⟨r.1, mergeLeg m.1.baseReserve s.base, mergeLeg m.1.quoteReserve s.quote⟩
  else ⟨r.1, s.base, s.quote⟩

/-- The message names the pool and its mints, and keeps the legs of the row it meets. -/
def Keeps (pool base quote : Pubkey) (dex : Dex) (order : VaultPosition) (s : Reported)
    (m : PoolCacheUpdate × Nat) : Prop :=
  Names pool base quote dex order m.1 ∧
    ∀ row, s.cache.pools.lookup pool = some row → KeepsLegs base quote order row m.1

/-- The row of the pool, when there is one, has the reported reserves on the sides of their
    mints. -/
structure Inv (pool base quote : Pubkey) (dex : Dex) (s : Reported) : Prop where
  unseen : s.cache.stateOf pool = none → s.base = 0 ∧ s.quote = 0
  attached : ∀ state, s.cache.stateOf pool = some state → state.dex = dex ∧
    ∃ pos, (onchainKey dex = none → pos = .a) ∧
      state.sides = some (sidesAt pos base quote s.base s.quote)

theorem minimalState_of_build {b q : Nat} {built : Pubkey × CachedPoolState}
    (hn : Names pool base quote dex order u)
    (h : buildMinimalPoolStateWithReserves u b q = some built) :
    minimalState u pool base quote b q = some built.2 := by
  unfold buildMinimalPoolStateWithReserves at h
  rw [hn.address, hn.baseMint, hn.quoteMint, Option.bind_some, Option.bind_some,
    Option.bind_some] at h
  obtain ⟨state, hs, rfl⟩ := Option.map_eq_some_iff.mp h
  exact hs

/-- The first row of a pool has the sides of the message it is built from. -/
theorem sides_first {state : CachedPoolState} {c : SlaveCache}
    (hn : Names pool base quote dex order u) (hne : base ≠ quote) (hp : dex ≠ .pumpfun)
    (hnone : c.stateOf pool = none) (hb : c.builtRow pool u = some state) :
    state.dex = dex ∧
      state.sides = some (sidesAt (u.orderOr order .a) base quote u.baseReserve
        u.quoteReserve) := by
  unfold SlaveCache.builtRow at hb
  cases ht : u.updateType with
  | poolRemoved =>
      rw [ht] at hb
      cases hb
  | poolDiscovered =>
      rw [ht] at hb
      obtain ⟨built, hbuilt, rfl⟩ := Option.map_eq_some_iff.mp hb
      have hm := minimalState_of_build hn hbuilt
      rw [hnone]
      refine ⟨(dex_discoveredOver u none built.2).trans ((dex_minimalState hm).trans hn.ofDex), ?_⟩
      show (writeRaydiumCpmmVaults u built.2).sides = _
      rw [sides_writeRaydiumCpmmVaults]
      exact sides_minimalState hn hne hp hm
  | balanceUpdated =>
      rw [ht] at hb
      unfold SlaveCache.balanceRow at hb
      rw [hnone] at hb
      obtain ⟨built, hbuilt, rfl⟩ := Option.map_eq_some_iff.mp hb
      have hm := minimalState_of_build hn hbuilt
      have hsides := sides_minimalState hn hne hp hm
      have hdex := (dex_minimalState hm).trans hn.ofDex
      obtain ⟨q, minimal⟩ := built
      dsimp only at hsides hdex ⊢
      cases minimal with
      | raydiumCpmm new => exact ⟨hdex, (sides_balanceOverRaydiumCpmm none new).trans hsides⟩
      | meteoraCpmm new =>
          exact ⟨hdex, (sides_fillMeteoraCpmmVaults u _ _ none new).trans hsides⟩
      | _ => exact ⟨hdex, hsides⟩

/-- A row that a message writes over another one. -/
theorem sides_next {ex state : CachedPoolState} {row : CacheEntry} {c : SlaveCache} {b q : Nat}
    {pos : VaultPosition} (hn : Names pool base quote dex order u) (hne : base ≠ quote)
    (hp : dex ≠ .pumpfun) (hrow : c.pools.lookup pool = some row) (hex : row.state = ex)
    (hdex : ex.dex = dex) (hpos : onchainKey dex = none → pos = .a)
    (he : ex.sides = some (sidesAt pos base quote b q))
    (hfresh : ¬ BehindSeen u.geyserSlot row) (hk : KeepsLegs base quote order row u)
    (hb : c.builtRow pool u = some state) :
    ∃ pos', (onchainKey dex = none → pos' = .a) ∧
      (mergeAccountParsePreservesExisting ex (c.fillTokenPrograms state) u.geyserSlot).sides =
        some (sidesAt pos' base quote (mergeLeg u.baseReserve b) (mergeLeg u.quoteReserve q)) := by
  have hstate : c.stateOf pool = some ex := by
    unfold SlaveCache.stateOf
    rw [hrow, ← hex]
    rfl
  have hbase := basePos_of_sides hne he
  obtain ⟨hleg, hleg'⟩ := leg_of_sides he
  unfold KeepsLegs at hk
  dsimp only at hk
  rw [hex, hbase, hleg, hleg', if_neg hfresh] at hk
  have hnokey : ∀ rest, onchainKey dex = none → u.orderOr order rest = rest := fun rest h =>
    orderOr_of_no_key (by rw [hn.ofDex]; exact h) order rest
  unfold SlaveCache.builtRow at hb
  cases ht : u.updateType with
  | poolRemoved =>
      rw [ht] at hb
      cases hb
  | poolDiscovered =>
      rw [ht] at hb hk
      obtain ⟨built, hbuilt, rfl⟩ := Option.map_eq_some_iff.mp hb
      have hm := minimalState_of_build hn hbuilt
      rw [hstate]
      refine ⟨u.orderOr order .a, hnokey .a, ?_⟩
      exact sides_upserted_discovered hn hne hp hdex hpos he hm hk
  | balanceUpdated =>
      rw [ht] at hb hk
      unfold SlaveCache.balanceRow at hb
      rw [hstate] at hb
      obtain ⟨built, hbuilt, rfl⟩ := Option.map_eq_some_iff.mp hb
      have hm := minimalState_of_build hn hbuilt
      refine ⟨u.balancePos order pos, ?_, ?_⟩
      · intro hkey
        obtain rfl := hpos hkey
        unfold PoolCacheUpdate.balancePos
        split
        · rfl
        · exact hnokey .a hkey
      · rw [hn.baseMint, hn.quoteMint]
        exact sides_upserted_balance hn hne hp hdex hpos he hm hk

/-- A message that only sustains the age of the row reports what the row holds. -/
theorem inv_sustained (hne : base ≠ quote) {c' : SlaveCache} (h : Inv pool base quote dex s)
    (hk : ∀ row, s.cache.pools.lookup pool = some row → KeepsLegs base quote order row u)
    (kind : u.updateType = .balanceUpdated) (behind : ¬ s.cache.NotBehind pool u.geyserSlot)
    (same : c'.stateOf pool = s.cache.stateOf pool) :
    Inv pool base quote dex
      ⟨c', mergeLeg u.baseReserve s.base, mergeLeg u.quoteReserve s.quote⟩ := by
  obtain ⟨row, hrow, hb⟩ : ∃ row, s.cache.pools.lookup pool = some row ∧
      BehindSeen u.geyserSlot row := by
    refine Classical.byContradiction fun hno => behind fun row hrow hb => ?_
    exact hno ⟨row, hrow, hb⟩
  have hstate : s.cache.stateOf pool = some row.state := by
    unfold SlaveCache.stateOf
    rw [hrow]
    rfl
  obtain ⟨hdex, pos, hpos, hsides⟩ := h.attached _ hstate
  have hkeep := hk row hrow
  unfold KeepsLegs at hkeep
  dsimp only at hkeep
  rw [if_pos hb, basePos_of_sides hne hsides, (leg_of_sides hsides).1,
    (leg_of_sides hsides).2] at hkeep
  obtain ⟨hkb, hkq⟩ := hkeep kind
  rw [mergeLeg_of_same hkb, mergeLeg_of_same hkq]
  exact ⟨fun hnone => h.unseen (same.symm.trans hnone),
    fun state hs => h.attached state (same.symm.trans hs)⟩

/-- A message that writes the row keeps its legs. -/
theorem inv_written (hne : base ≠ quote) (hp : dex ≠ .pumpfun) {c' : SlaveCache}
    {state : CachedPoolState} (h : Inv pool base quote dex s)
    (hn : Names pool base quote dex order u)
    (hk : ∀ row, s.cache.pools.lookup pool = some row → KeepsLegs base quote order row u)
    (built : s.cache.builtRow pool u = some state) (fresh : s.cache.NotBehind pool u.geyserSlot)
    (hrow : c'.stateOf pool = some (s.cache.upserted pool state u.geyserSlot)) :
    Inv pool base quote dex
      ⟨c', mergeLeg u.baseReserve s.base, mergeLeg u.quoteReserve s.quote⟩ := by
  refine ⟨fun hnone => ?_, fun state' hs => ?_⟩
  · dsimp only at hnone
    rw [hrow] at hnone
    cases hnone
  · dsimp only at hs
    rw [hrow] at hs
    obtain rfl := Option.some.inj hs
    unfold SlaveCache.upserted
    cases hst : s.cache.stateOf pool with
    | none =>
        obtain ⟨hb0, hq0⟩ := h.unseen hst
        obtain ⟨hdex, hsides⟩ := sides_first hn hne hp hst built
        dsimp only
        rw [dex_fillTokenPrograms, sides_fillTokenPrograms, hb0, hq0,
          mergeLeg_of_drop fun _ => rfl, mergeLeg_of_drop fun _ => rfl]
        refine ⟨hdex, u.orderOr order .a, fun hkey => ?_, hsides⟩
        exact orderOr_of_no_key (by rw [hn.ofDex]; exact hkey) order .a
    | some ex =>
        obtain ⟨hdex, pos, hpos, hsides⟩ := h.attached ex hst
        obtain ⟨row', hrow', hex⟩ := Option.map_eq_some_iff.mp hst
        obtain ⟨pos', hpos', hsides'⟩ := sides_next hn hne hp hrow' hex hdex hpos hsides
          (fresh row' hrow') (hk row' hrow') built
        dsimp only
        refine ⟨?_, pos', hpos', hsides'⟩
        rw [dex_merge, dex_fillTokenPrograms, SlaveCache.dex_of_built built]
        exact hn.ofDex

/-- **What one message keeps.** -/
theorem inv_deliver (env : Ambient) (hne : base ≠ quote) (hp : dex ≠ .pumpfun)
    (m : PoolCacheUpdate × Nat) (h : Inv pool base quote dex s)
    (hm : Keeps pool base quote dex order s m) : Inv pool base quote dex (s.deliver env m) := by
  obtain ⟨u, now⟩ := m
  obtain ⟨hn, hk⟩ := hm
  unfold deliver
  dsimp only
  obtain ⟨hout, happ⟩ | ⟨hout, hsame⟩ := SlaveCache.apply_cases env s.cache now hn.address
  · rw [if_pos hout]
    cases happ with
    | sustained kind behind same => exact inv_sustained hne h hk kind behind same
    | written state built fresh row => exact inv_written hne hp h hn hk built fresh row
  · rw [if_neg hout, hsame]
    exact h

/-- **Over every run of messages that keep the legs, after each of them, each side of the row holds
    the last reserve that was reported for its mint.** -/
theorem reserves_stay_with_mint (env : Ambient) (pool base quote : Pubkey) (dex : Dex)
    (order : VaultPosition) (c : SlaveCache) (ms : List (PoolCacheUpdate × Nat))
    (hne : base ≠ quote) (hp : dex ≠ .pumpfun) (hempty : c.pools.lookup pool = none)
    (hgood : Along (deliver env) (Keeps pool base quote dex order) ⟨c, 0, 0⟩ ms) (n : Nat)
    (state : CachedPoolState)
    (hrow : (foldSteps (deliver env) ⟨c, 0, 0⟩ (ms.take n)).cache.stateOf pool = some state) :
    state.Attached base quote (foldSteps (deliver env) ⟨c, 0, 0⟩ (ms.take n)).base
      (foldSteps (deliver env) ⟨c, 0, 0⟩ (ms.take n)).quote := by
  have hnone : c.stateOf pool = none := by
    unfold SlaveCache.stateOf
    rw [hempty]
    rfl
  have hstart : Inv pool base quote dex ⟨c, 0, 0⟩ :=
    ⟨fun _ => ⟨rfl, rfl⟩, fun state hs => by rw [hnone] at hs; cases hs⟩
  rw [← List.take_append_drop n ms] at hgood
  have hinv : Inv pool base quote dex (foldSteps (deliver env) ⟨c, 0, 0⟩ (ms.take n)) :=
    foldSteps_of_along (fun s m hm h => inv_deliver env hne hp m h hm) hstart
      (along_append hgood).1
  obtain ⟨_, pos, _, hsides⟩ := hinv.attached state hrow
  exact ⟨pos, hsides⟩

/-- A message for the pool 9 of the mints 1 and 2. -/
def orcaUpdate (kind : PoolCacheUpdateType) (base quote slot : Nat) (metadata : Option Metadata) :
    PoolCacheUpdate where
  updateType := kind
  poolAddress := "1111111111111111111111111111111A"
  dex := .orca
  baseMint := "11111111111111111111111111111112"
  quoteMint := "11111111111111111111111111111113"
  baseReserve := base
  quoteReserve := quote
  geyserSlot := slot
  metadata := metadata

theorem names_orcaUpdate (kind : PoolCacheUpdateType) (base quote slot : Nat)
    {order : VaultPosition} {text : String}
    (h : pubkeyPair text = some (order.pick 1 2, order.pick 2 1)) (told : Bool) :
    Names 9 1 2 .orca order (orcaUpdate kind base quote slot
      (if told then some (AList.singleton .orcaOnchainMints text) else none)) := by
  refine ⟨?_, rfl, ?_, ?_, ?_⟩
  · show parsePubkey "1111111111111111111111111111111A" = some 9
    decide +kernel
  · show parsePubkey "11111111111111111111111111111112" = some 1
    decide +kernel
  · show parsePubkey "11111111111111111111111111111113" = some 2
    decide +kernel
  · rintro key hkey text' htext
    cases Option.some.inj hkey
    cases told with
    | false => cases htext
    | true =>
        cases Option.some.inj htext
        exact h

/-- A pool whose base stands first, and then the balance of its quote vault alone. -/
def baseFirst : List (PoolCacheUpdate × Nat) :=
  [(orcaUpdate .poolDiscovered 100 200 1 (some (AList.singleton .orcaOnchainMints
      "11111111111111111111111111111112,11111111111111111111111111111113")), 0),
    (orcaUpdate .balanceUpdated 0 250 2 none, 0)]

/-- The row of `baseFirst` after its first message. -/
def baseFirstRow : CacheEntry :=
  .new (.orca ⟨1, 2, 0, 0, 0, 0, 0, 0, 0, 0, some 100, some 200, none, none, false⟩) 1 0

theorem reserves_stay_with_mint_baseFirst :
    ∃ state, (foldSteps (deliver .weighing) ⟨.new, 0, 0⟩ (baseFirst.take 2)).cache.stateOf 9 =
        some state ∧ state.Attached 1 2 100 250 := by
  have hrow : (foldSteps (deliver .weighing) ⟨.new, 0, 0⟩ (baseFirst.take 2)).cache.stateOf 9 =
      some (.orca ⟨1, 2, 0, 0, 0, 0, 0, 0, 0, 0, some 100, some 250, none, none, false⟩) := by
    decide +kernel
  have hfirst : (deliver .weighing ⟨.new, 0, 0⟩ (orcaUpdate .poolDiscovered 100 200 1
      (some (AList.singleton .orcaOnchainMints
        "11111111111111111111111111111112,11111111111111111111111111111113")),
      0)).cache.pools.lookup 9 = some baseFirstRow := by
    decide +kernel
  have hpair : pubkeyPair "11111111111111111111111111111112,11111111111111111111111111111113" =
      some (VaultPosition.a.pick 1 2, VaultPosition.a.pick 2 1) := by
    decide +kernel
  refine ⟨_, hrow, ?_⟩
  have h := reserves_stay_with_mint .weighing 9 1 2 .orca .a .new baseFirst (by decide) (by decide)
    rfl ⟨⟨names_orcaUpdate .poolDiscovered 100 200 1 hpair true, fun row hr => (nomatch hr)⟩,
      ⟨names_orcaUpdate .balanceUpdated 0 250 2 hpair false, fun row hr => ?_⟩, trivial⟩ 2 _ hrow
  · have hb : (foldSteps (deliver .weighing) ⟨.new, 0, 0⟩ (baseFirst.take 2)).base = 100 := by
      decide +kernel
    have hq : (foldSteps (deliver .weighing) ⟨.new, 0, 0⟩ (baseFirst.take 2)).quote = 250 := by
      decide +kernel
    rwa [hb, hq] at h
  · have hr' : row = baseFirstRow := Option.some.inj (hr.symm.trans hfirst)
    subst hr'
    have hfresh : ¬ BehindSeen (orcaUpdate .balanceUpdated 0 250 2 none).geyserSlot
        baseFirstRow := by
      decide
    unfold KeepsLegs
    dsimp only
    rw [if_neg hfresh]
    exact ⟨fun _ => rfl, fun h => absurd h (by decide), fun h => (nomatch h)⟩

/-- A pool whose quote stands first on chain, and then the balance of one vault. -/
def quoteFirst : List (PoolCacheUpdate × Nat) :=
  [(orcaUpdate .poolDiscovered 100 200 1 (some (AList.singleton .orcaOnchainMints
      "11111111111111111111111111111113,11111111111111111111111111111112")), 0),
    (orcaUpdate .balanceUpdated 0 250 2 none, 0)]

/-- **The reserve that a message does not report is taken from the other side**: the base shows 200,
    the old reserve of the quote. -/
theorem orca_reserves_swapped :
    ¬ ∀ (env : Ambient) (pool base quote : Pubkey) (dex : Dex) (order : VaultPosition)
      (c : SlaveCache) (ms : List (PoolCacheUpdate × Nat)), base ≠ quote → dex ≠ .pumpfun →
      c.pools.lookup pool = none → (∀ m ∈ ms, Names pool base quote dex order m.1) →
      ∀ n state, (foldSteps (deliver env) ⟨c, 0, 0⟩ (ms.take n)).cache.stateOf pool =
          some state →
        state.Attached base quote (foldSteps (deliver env) ⟨c, 0, 0⟩ (ms.take n)).base
          (foldSteps (deliver env) ⟨c, 0, 0⟩ (ms.take n)).quote := by
  intro h
  have hpair : pubkeyPair "11111111111111111111111111111113,11111111111111111111111111111112" =
      some (VaultPosition.b.pick 1 2, VaultPosition.b.pick 2 1) := by
    decide +kernel
  have hrow : (foldSteps (deliver .weighing) ⟨.new, 0, 0⟩ (quoteFirst.take 2)).cache.stateOf 9 =
      some (.orca ⟨2, 1, 0, 0, 0, 0, 0, 0, 0, 0, some 250, some 200, none, none, false⟩) := by
    decide +kernel
  have hb : (foldSteps (deliver .weighing) ⟨.new, 0, 0⟩ (quoteFirst.take 2)).base = 100 := by
    decide +kernel
  obtain ⟨pos, hsides⟩ := h .weighing 9 1 2 .orca .b .new quoteFirst (by decide) (by decide) rfl
    (fun m hm => by
      rcases List.mem_cons.mp hm with rfl | hm
      · exact names_orcaUpdate .poolDiscovered 100 200 1 hpair true
      · cases List.mem_singleton.mp hm
        exact names_orcaUpdate .balanceUpdated 0 250 2 hpair false) 2 _ hrow
  rw [hb] at hsides
  cases pos with
  | a => exact absurd (congrArg (Option.map fun s => s.1.1) hsides) (by decide)
  | b => exact absurd (congrArg (Option.map fun s => s.2.2) hsides) (by decide)

end Reported

end IronCrab.Cache

/-
  File:      IronCrab/Cache/RowSides.lean
  Subject:   WHAT A MESSAGE DOES TO THE SIDES OF A ROW (`pool_cache_sync.rs`, `live_pool_cache.rs`).

  A side is a mint and its balance. Seven row types, two kinds of message and three places of
  patching come down to a few functions of the two sides:

  * `ownSides` -- the sides that a message tells by itself;
  * `discoveredSides`, `balanceSides` -- these over the sides of the row, before `upsert`;
  * `upsertSides` -- what `upsert` makes of them.

  **`sides_discovered`** and **`sides_balance`** say that the row of a message has exactly these
  sides, whatever mints the message and its metadata name. Where only two mints are named, the
  sides are given by the place of the base (`sidesAt`), and so are the functions (section 4).
-/
import IronCrab.Cache.PoolCacheSync

namespace IronCrab.Cache

open Track (Pubkey)

/-! ## 1. Sides by mint -/

/-- A mint and its balance. -/
abbrev Side := Pubkey × Option Nat

/-- The sides of a row; a bonding curve stores one mint only. -/
def CachedPoolState.sides : CachedPoolState → Option (Side × Side)
  | .orca s => some ((s.tokenMintA, s.vaultABalance), (s.tokenMintB, s.vaultBBalance))
  | .raydiumAmm s => some ((s.baseMint, s.coinReserve), (s.quoteMint, s.pcReserve))
  | .raydiumCpmm s => some ((s.token0Mint, s.reserve0), (s.token1Mint, s.reserve1))
  | .meteora s => some ((s.tokenXMint, s.reserveXBalance), (s.tokenYMint, s.reserveYBalance))
  | .meteoraCpmm s => some ((s.token0Mint, some s.reserve0), (s.token1Mint, some s.reserve1))
  | .pumpAmm s => some ((s.baseMint, s.baseReserve), (s.quoteMint, s.quoteReserve))
  | .pumpFun _ => none

/-- The sides of a row whose base stands at `pos`. -/
def sidesAt (pos : VaultPosition) (base quote : Pubkey) (b q : Nat) : Side × Side :=
  (pos.pick (base, some b) (quote, some q), pos.pick (quote, some q) (base, some b))

/-- One of two sides. -/
def VaultPosition.of (pos : VaultPosition) (s : Side × Side) : Side := pos.pick s.1 s.2

/-- The key of the on-chain mints. -/
def onchainKey : Dex → Option MetadataKey
  | .orca => some .orcaOnchainMints
  | .meteoraDlmm => some .meteoraDlmmOnchainMints
  | .meteoraCpmm => some .meteoraCpmmOnchainMints
  | _ => none

/-- The message tells the on-chain order. -/
def PoolCacheUpdate.tellsOrder (u : PoolCacheUpdate) : Bool :=
  match onchainKey u.dex with
  | some key => (u.get key).isSome
  | none => false

/-- The base mint of a message. -/
def PoolCacheUpdate.baseKey (u : PoolCacheUpdate) : Pubkey :=
  (parsePubkey u.baseMint).getD Pubkey.default

/-- The quote mint of a message. -/
def PoolCacheUpdate.quoteKey (u : PoolCacheUpdate) : Pubkey :=
  (parsePubkey u.quoteMint).getD Pubkey.default

/-- The mints of a message in the order that it tells, normalized where it tells none. -/
def PoolCacheUpdate.ownMints (u : PoolCacheUpdate) : Pubkey × Pubkey :=
  match onchainKey u.dex with
  | some key => (u.pairAt key).getD (u.baseKey, u.quoteKey)
  | none => (u.baseKey, u.quoteKey)

/-! ## 2. Functions of the sides -/

/-- The balances of two rows, side by side, as a patch by position takes them. -/
def mergeSidesByPosition (inc ex : Side × Side) : Side × Side :=
  ((inc.1.1, some (mergeLeg (inc.1.2.getD 0) (ex.1.2.getD 0))),
    (inc.2.1, some (mergeLeg (inc.2.2.getD 0) (ex.2.2.getD 0))))

/-- The sides of two rows, as `upsert` merges them: a mint stays where the new one is the
    default. -/
def mergeSidesByUpsert (inc ex : Side × Side) : Side × Side :=
  ((preserveLayoutPubkey inc.1.1 ex.1.1, preserveOptionReserve inc.1.2 ex.1.2),
    (preserveLayoutPubkey inc.2.1 ex.2.1, preserveOptionReserve inc.2.2 ex.2.2))

/-- The sides that a message tells by itself, with these reserves. -/
def PoolCacheUpdate.ownSides (u : PoolCacheUpdate) (base quote : Nat) : Side × Side :=
  let mints := u.ownMints
  let balances := mapNormalizedReserves mints.1 mints.2 u.baseKey u.quoteKey base quote
  ((mints.1, some balances.1), (mints.2, some balances.2))

/-- The sides of a discovered row, over those of the stored one. -/
def PoolCacheUpdate.discoveredSides (u : PoolCacheUpdate) (row : Side × Side) : Side × Side :=
  let own := u.ownSides u.baseReserve u.quoteReserve
  match u.dex with
  | .raydium | .meteoraCpmm => own
  | _ => mergeSidesByPosition own row

/-- The stored mints, each with the reserve of its mint. -/
def PoolCacheUpdate.onStoredMints (u : PoolCacheUpdate) (row : Side × Side) (base quote : Nat) :
    Side × Side :=
  ((row.1.1, some (balanceOfMint row.1.1 u.baseKey u.quoteKey base quote base)),
    (row.2.1, some (balanceOfMint row.2.1 u.baseKey u.quoteKey base quote quote)))

/-- The sides of a `BalanceUpdated` row with these reserves, over those of the stored one. -/
def PoolCacheUpdate.balanceSides (u : PoolCacheUpdate) (row : Side × Side) (base quote : Nat) :
    Side × Side :=
  match u.dex with
  | .orca =>
      let balances := mapNormalizedReserves row.1.1 row.2.1 u.baseKey u.quoteKey base quote
      ((row.1.1, some balances.1), (row.2.1, some balances.2))
  | .meteoraDlmm | .meteoraCpmm =>
      if u.tellsOrder then u.ownSides base quote else u.onStoredMints row base quote
  | _ => u.ownSides base quote

/-- Sides that come to `upsert` without any reserve. -/
def NoReserve (inc : Side × Side) : Prop := inc.1.2 = some 0 ∧ inc.2.2 = some 0

instance (inc : Side × Side) : Decidable (NoReserve inc) := inferInstanceAs (Decidable (_ ∧ _))

/-- The sides after `upsert` has merged these over those of the row. -/
def upsertSides (dex : Dex) (slot : Nat) (inc row : Side × Side) : Side × Side :=
  match dex with
  | .meteoraCpmm =>
      if 0 < slot ∧ NoReserve inc then ((inc.1.1, row.1.2), (inc.2.1, row.2.2)) else inc
  | _ => mergeSidesByUpsert inc row

/-! ## 3. The row of a message has these sides -/

variable {u : PoolCacheUpdate} {poolAddr : Pubkey} {base quote : Nat}
  {ex minimal : CachedPoolState} {row : Side × Side}

theorem sides_writeRaydiumCpmmVaults (u : PoolCacheUpdate) (state : CachedPoolState) :
    (writeRaydiumCpmmVaults u state).sides = state.sides := by
  cases state with
  | raydiumCpmm s =>
      unfold writeRaydiumCpmmVaults
      dsimp only
      split <;> rfl
  | _ => rfl

theorem sides_keepDlmmStructure (u : PoolCacheUpdate) (ex state : CachedPoolState) :
    (keepDlmmStructure u ex state).sides = state.sides := by
  cases ex <;> cases state <;> rfl

/-- The types whose discovered rows are patched by position. -/
def PatchedByPosition : Dex → Prop
  | .orca | .raydiumCpmm | .meteoraDlmm | .pumpAmm => True
  | _ => False

/-- The sides of a discovered row over a stored one. -/
theorem sides_mergeDiscovered {ex inc : CachedPoolState} (hd : inc.dex = ex.dex)
    {incSides exSides : Side × Side} (hi : inc.sides = some incSides)
    (he : ex.sides = some exSides) :
    (PatchedByPosition inc.dex →
      (mergeDiscovered ex inc).sides = some (mergeSidesByPosition incSides exSides)) ∧
    (¬ PatchedByPosition inc.dex → (mergeDiscovered ex inc).sides = some incSides) := by
  cases sameType_of_dex hd with
  | raydiumAmm ex inc => exact ⟨fun h => h.elim, fun _ => hi⟩
  | meteoraCpmm ex inc => exact ⟨fun h => h.elim, fun _ => hi⟩
  | pumpFun ex inc => cases hi
  | _ =>
      cases Option.some.inj hi
      cases Option.some.inj he
      exact ⟨fun _ => rfl, fun h => absurd trivial h⟩

theorem sides_discoveredOver (u : PoolCacheUpdate) (ex minimal : CachedPoolState) :
    (discoveredOver u (some ex) minimal).sides = (mergeDiscovered ex minimal).sides := by
  unfold discoveredOver
  dsimp only
  rw [sides_keepDlmmStructure, sides_writeRaydiumCpmmVaults]

theorem sides_fillTokenPrograms (c : LivePoolCache) (state : CachedPoolState) :
    (c.fillTokenPrograms state).sides = state.sides := by
  cases state <;> rfl

theorem sides_fillMeteoraCpmmVaults (u : PoolCacheUpdate) (baseMint quoteMint : Pubkey)
    (ex : Option MeteoraCpmmState) (new : MeteoraCpmmState) :
    (CachedPoolState.meteoraCpmm (fillMeteoraCpmmVaults u baseMint quoteMint ex new)).sides =
      (CachedPoolState.meteoraCpmm new).sides := by
  unfold fillMeteoraCpmmVaults
  dsimp only
  split
  · rfl
  · split <;> rfl

/-- The mints and balances of a row, where they are told by a key. -/
theorem ownSides_of_key {key : MetadataKey} (h : onchainKey u.dex = some key) :
    u.ownSides base quote =
      (((onchainOrder u u.baseKey u.quoteKey base quote key).1.1,
          some (onchainOrder u u.baseKey u.quoteKey base quote key).2.1),
        ((onchainOrder u u.baseKey u.quoteKey base quote key).1.2,
          some (onchainOrder u u.baseKey u.quoteKey base quote key).2.2)) := by
  unfold PoolCacheUpdate.ownSides PoolCacheUpdate.ownMints onchainOrder
  rw [h]
  dsimp only
  cases u.pairAt key with
  | none =>
      have hmap : mapNormalizedReserves u.baseKey u.quoteKey u.baseKey u.quoteKey base quote =
          (base, quote) := if_pos ⟨rfl, rfl⟩
      rw [Option.getD_none, hmap]
  | some pair => rfl

theorem ownSides_of_no_key (h : onchainKey u.dex = none) :
    u.ownSides base quote = ((u.baseKey, some base), (u.quoteKey, some quote)) := by
  unfold PoolCacheUpdate.ownSides PoolCacheUpdate.ownMints
  rw [h]
  dsimp only
  have hmap : mapNormalizedReserves u.baseKey u.quoteKey u.baseKey u.quoteKey base quote =
      (base, quote) := if_pos ⟨rfl, rfl⟩
  rw [hmap]

/-- A row that is built from a message has the sides that the message tells. -/
theorem sides_minimalState_own (hp : u.dex ≠ .pumpfun)
    (h : minimalState u poolAddr u.baseKey u.quoteKey base quote = some minimal) :
    minimal.sides = some (u.ownSides base quote) := by
  unfold minimalState at h
  cases hd : u.dex with
  | orca =>
      rw [hd] at h
      cases Option.some.inj h
      rw [ownSides_of_key (by rw [hd]; rfl)]
      rfl
  | meteoraDlmm =>
      rw [hd] at h
      cases Option.some.inj h
      rw [ownSides_of_key (by rw [hd]; rfl)]
      rfl
  | meteoraCpmm =>
      rw [hd] at h
      cases Option.some.inj h
      rw [ownSides_of_key (by rw [hd]; rfl)]
      rfl
  | raydium =>
      rw [hd] at h
      cases Option.some.inj h
      rw [ownSides_of_no_key (by rw [hd]; rfl)]
      rfl
  | raydiumCpmm =>
      rw [hd] at h
      cases Option.some.inj h
      rw [ownSides_of_no_key (by rw [hd]; rfl)]
      rfl
  | pumpAmm =>
      rw [hd] at h
      cases Option.some.inj h
      rw [ownSides_of_no_key (by rw [hd]; rfl)]
      rfl
  | pumpfun => exact absurd hd hp
  | restored =>
      rw [hd] at h
      cases h
  | other =>
      rw [hd] at h
      cases h

theorem balanceOfMint_some (mint baseMint quoteMint : Pubkey) (x y z : Nat) :
    balanceOfMint mint baseMint quoteMint (some x) (some y) (some z) =
      some (balanceOfMint mint baseMint quoteMint x y z) := by
  unfold balanceOfMint
  split_ifs <;> rfl

/-- A message without the key of the on-chain mints tells its mints as they come. -/
theorem balances_of_silent_order {key : MetadataKey} (h : ¬ (u.get key).isSome = true)
    (base quote : Nat) :
    (onchainOrder u u.baseKey u.quoteKey base quote key).2 = (base, quote) := by
  have hnone : u.get key = none := Option.not_isSome_iff_eq_none.mp h
  unfold onchainOrder PoolCacheUpdate.pairAt
  rw [hnone]
  rfl

/-- The balances of sides that a message without an order tells. -/
theorem balances_of_ownSides {key : MetadataKey} (hk : onchainKey u.dex = some key)
    (h : ¬ (u.get key).isSome = true) {mintA mintB : Pubkey} {x y : Option Nat}
    (hi : some ((mintA, x), (mintB, y)) = some (u.ownSides base quote)) :
    x = some base ∧ y = some quote := by
  rw [ownSides_of_key hk, balances_of_silent_order h base quote] at hi
  injection hi with hi
  injection hi with hx hy
  injection hx with _ hx
  injection hy with _ hy
  exact ⟨hx, hy⟩

theorem sides_balanceOverMeteoraDlmm {ex new : MeteoraState} (hu : u.dex = .meteoraDlmm)
    (hi : (CachedPoolState.meteora new).sides = some (u.ownSides base quote)) :
    (CachedPoolState.meteora
      (balanceOverMeteoraDlmm u u.baseKey u.quoteKey base quote ex new)).sides =
      some (if (u.get .meteoraDlmmOnchainMints).isSome then u.ownSides base quote
        else u.onStoredMints ((ex.tokenXMint, ex.reserveXBalance),
          (ex.tokenYMint, ex.reserveYBalance)) base quote) := by
  unfold balanceOverMeteoraDlmm keepMeteoraDlmmMints
  by_cases hk : (u.get .meteoraDlmmOnchainMints).isSome = true
  · rw [if_pos hk, if_pos hk]
    exact hi
  · obtain ⟨hx, hy⟩ := balances_of_ownSides (by rw [hu]; rfl) hk hi
    rw [if_neg hk, if_neg hk]
    unfold PoolCacheUpdate.onStoredMints
    show some ((ex.tokenXMint, balanceOfMint ex.tokenXMint u.baseKey u.quoteKey (some base)
      (some quote) new.reserveXBalance), (ex.tokenYMint, balanceOfMint ex.tokenYMint u.baseKey
      u.quoteKey (some base) (some quote) new.reserveYBalance)) = _
    rw [hx, hy, balanceOfMint_some, balanceOfMint_some]

theorem sides_balanceOverMeteoraCpmm {ex new : MeteoraCpmmState} (hu : u.dex = .meteoraCpmm)
    (hi : (CachedPoolState.meteoraCpmm new).sides = some (u.ownSides base quote)) :
    (CachedPoolState.meteoraCpmm
      (balanceOverMeteoraCpmm u u.baseKey u.quoteKey base quote (some ex) new)).sides =
      some (if (u.get .meteoraCpmmOnchainMints).isSome then u.ownSides base quote
        else u.onStoredMints ((ex.token0Mint, some ex.reserve0),
          (ex.token1Mint, some ex.reserve1)) base quote) := by
  refine Eq.trans (sides_fillMeteoraCpmmVaults u u.baseKey u.quoteKey (some ex)
    (keepMeteoraCpmmMints u u.baseKey u.quoteKey base quote ex new)) ?_
  unfold keepMeteoraCpmmMints
  by_cases hk : (u.get .meteoraCpmmOnchainMints).isSome = true
  · rw [if_pos hk, if_pos hk]
    exact hi
  · obtain ⟨hx, hy⟩ := balances_of_ownSides (by rw [hu]; rfl) hk hi
    rw [if_neg hk, if_neg hk, Option.some.inj hx, Option.some.inj hy]
    rfl

theorem sides_balanceOverRaydiumCpmm (ex : Option RaydiumCpmmState) (new : RaydiumCpmmState) :
    (CachedPoolState.raydiumCpmm (balanceOverRaydiumCpmm u ex new)).sides =
      (CachedPoolState.raydiumCpmm new).sides := by
  unfold balanceOverRaydiumCpmm
  dsimp only
  split <;> rfl

theorem tellsOrder_eq {key : MetadataKey} (h : onchainKey u.dex = some key) :
    u.tellsOrder = (u.get key).isSome := by
  unfold PoolCacheUpdate.tellsOrder
  rw [h]

/-- **The sides of the row of a `BalanceUpdated` message before `upsert`.** -/
theorem sides_balanceOver_eq (hd : minimal.dex = ex.dex) (hu : u.dex = ex.dex)
    (he : ex.sides = some row) (hi : minimal.sides = some (u.ownSides base quote)) :
    (balanceOver u u.baseKey u.quoteKey base quote (some ex) minimal).sides =
      some (u.balanceSides row base quote) := by
  unfold PoolCacheUpdate.balanceSides
  rw [hu]
  cases sameType_of_dex hd with
  | orca ex inc =>
      cases Option.some.inj he
      rfl
  | meteora ex inc =>
      cases Option.some.inj he
      dsimp only [CachedPoolState.dex]
      rw [tellsOrder_eq (by rw [hu]; rfl)]
      exact sides_balanceOverMeteoraDlmm hu hi
  | meteoraCpmm ex inc =>
      cases Option.some.inj he
      dsimp only [CachedPoolState.dex]
      rw [tellsOrder_eq (by rw [hu]; rfl)]
      exact sides_balanceOverMeteoraCpmm hu hi
  | raydiumAmm ex inc => exact hi
  | raydiumCpmm ex inc => exact (sides_balanceOverRaydiumCpmm (some ex) inc).trans hi
  | pumpAmm ex inc => exact hi
  | pumpFun ex inc => cases he

/-- **The sides after `upsert`.** -/
theorem sides_merge_eq {inc : CachedPoolState} {s : Side × Side} (hd : inc.dex = ex.dex)
    (he : ex.sides = some row) (hi : inc.sides = some s) (slot : Nat) :
    (mergeAccountParsePreservesExisting ex inc slot).sides =
      some (upsertSides ex.dex slot s row) := by
  cases sameType_of_dex hd with
  | meteoraCpmm ex inc =>
      cases Option.some.inj he
      cases Option.some.inj hi
      have hzero : NoReserve ((inc.token0Mint, some inc.reserve0), (inc.token1Mint,
          some inc.reserve1)) ↔ inc.reserve0 = 0 ∧ inc.reserve1 = 0 := by
        unfold NoReserve
        simp
      show (CachedPoolState.meteoraCpmm
        (if 0 < slot then mergeMeteoraCpmmAccountReservesFromPrior inc ex else inc)).sides =
          some (if 0 < slot ∧ NoReserve _ then _ else _)
      unfold mergeMeteoraCpmmAccountReservesFromPrior
      by_cases hs : 0 < slot
      · by_cases hz : inc.reserve0 = 0 ∧ inc.reserve1 = 0
        · rw [if_pos hs, if_pos hz, if_pos ⟨hs, hzero.mpr hz⟩]
          rfl
        · rw [if_pos hs, if_neg hz, if_neg fun h => hz (hzero.mp h.2)]
          rfl
      · rw [if_neg hs, if_neg fun h => hs h.1]
        rfl
  | pumpFun ex inc => cases he
  | _ =>
      cases Option.some.inj he
      cases Option.some.inj hi
      rfl

/-- **The sides of a discovered row over a stored one.** -/
theorem sides_discovered (c : LivePoolCache) (hu : u.dex = ex.dex) (hp : u.dex ≠ .pumpfun)
    (he : ex.sides = some row)
    (hm : minimalState u poolAddr u.baseKey u.quoteKey u.baseReserve u.quoteReserve =
      some minimal) :
    (mergeAccountParsePreservesExisting ex
      (c.fillTokenPrograms (discoveredOver u (some ex) minimal)) u.geyserSlot).sides =
      some (upsertSides u.dex u.geyserSlot (u.discoveredSides row) row) := by
  have hmd : minimal.dex = ex.dex := (dex_minimalState hm).trans hu
  have hi := sides_minimalState_own hp hm
  obtain ⟨hpatched, hplain⟩ := sides_mergeDiscovered hmd hi he
  have hbuilt : (discoveredOver u (some ex) minimal).sides = some (u.discoveredSides row) := by
    rw [sides_discoveredOver]
    unfold PoolCacheUpdate.discoveredSides
    rw [hmd, ← hu] at hpatched hplain
    cases hd : u.dex with
    | raydium =>
        rw [hd] at hplain
        exact hplain fun h => h
    | meteoraCpmm =>
        rw [hd] at hplain
        exact hplain fun h => h
    | pumpfun => exact absurd hd hp
    | restored => cases ex <;> cases hd.symm.trans hu
    | other => cases ex <;> cases hd.symm.trans hu
    | _ =>
        rw [hd] at hpatched
        exact hpatched trivial
  rw [hu]
  refine sides_merge_eq ?_ he ((sides_fillTokenPrograms c _).trans hbuilt) u.geyserSlot
  rw [dex_fillTokenPrograms, dex_discoveredOver]
  exact hmd

/-- **The sides of a `BalanceUpdated` row over a stored one.** -/
theorem sides_balance (c : LivePoolCache) (hu : u.dex = ex.dex) (hp : u.dex ≠ .pumpfun)
    (he : ex.sides = some row)
    (hm : minimalState u poolAddr u.baseKey u.quoteKey base quote = some minimal) :
    (mergeAccountParsePreservesExisting ex (c.fillTokenPrograms
      (balanceOver u u.baseKey u.quoteKey base quote (some ex) minimal)) u.geyserSlot).sides =
      some (upsertSides u.dex u.geyserSlot (u.balanceSides row base quote) row) := by
  have hmd : minimal.dex = ex.dex := (dex_minimalState hm).trans hu
  have hbuilt := sides_balanceOver_eq hmd hu he (sides_minimalState_own hp hm)
  rw [hu]
  refine sides_merge_eq ?_ he ((sides_fillTokenPrograms c _).trans hbuilt) u.geyserSlot
  rw [dex_fillTokenPrograms, dex_balanceOver]
  exact hmd

/-! ## 4. Two mints -/

section TwoMints

variable {baseMint quoteMint : Pubkey} {pos p : VaultPosition} {b q : Nat}

theorem preserveLayoutPubkey_self (x : Pubkey) : preserveLayoutPubkey x x = x := by
  unfold preserveLayoutPubkey
  split_ifs <;> rfl

theorem preserveLayoutPubkey_of_ne {x : Pubkey} (h : x ≠ Pubkey.default) (y : Pubkey) :
    preserveLayoutPubkey x y = x :=
  if_neg fun hh => h hh.1

theorem mergeLeg_congr {r x y : Nat} (h : r = 0 → x = y) : mergeLeg r x = mergeLeg r y := by
  unfold mergeLeg
  by_cases hr : 0 < r
  · rw [if_pos hr, if_pos hr]
  · rw [if_neg hr, if_neg hr]
    exact h (by omega)

theorem mergeLeg_of_drop {r x : Nat} (h : r = 0 → x = 0) : mergeLeg r x = r := by
  unfold mergeLeg
  by_cases hr : 0 < r
  · rw [if_pos hr]
  · rw [if_neg hr]
    have h0 : r = 0 := by omega
    rw [h h0, h0]

theorem mergeLeg_of_same {r x : Nat} (h : r = 0 ∨ r = x) : mergeLeg r x = x := by
  unfold mergeLeg
  split_ifs <;> omega

theorem zero_of_mergeLeg {r x : Nat} (h : mergeLeg r x = 0) : x = 0 := by
  unfold mergeLeg at h
  split_ifs at h with hr
  · omega
  · exact h

theorem mapNormalizedReserves_pick {A : Type} (hne : baseMint ≠ quoteMint) (x y : A) :
    mapNormalizedReserves (pos.pick baseMint quoteMint) (pos.pick quoteMint baseMint) baseMint quoteMint x y =
      (pos.pick x y, pos.pick y x) := by
  unfold mapNormalizedReserves
  cases pos with
  | a => exact if_pos ⟨rfl, rfl⟩
  | b =>
      show (if quoteMint = baseMint ∧ baseMint = quoteMint then (x, y) else
        if quoteMint = quoteMint ∧ baseMint = baseMint then (y, x) else (x, y)) = (y, x)
      rw [if_neg fun hh => hne hh.2, if_pos ⟨rfl, rfl⟩]

theorem balanceOfMint_pick {A : Type} (hne : baseMint ≠ quoteMint) (x y z : A) :
    balanceOfMint (pos.pick baseMint quoteMint) baseMint quoteMint x y z = pos.pick x y := by
  unfold balanceOfMint
  cases pos with
  | a => exact if_pos rfl
  | b =>
      show (if quoteMint = baseMint then x else if quoteMint = quoteMint then y else z) = y
      rw [if_neg fun hh => hne hh.symm, if_pos rfl]

/-- A patch by position keeps the legs of rows in one order, or that swap evenly. -/
theorem mergeSidesByPosition_sidesAt {b' q' : Nat}
    (h : p = pos ∨ (b' = 0 ∨ q' = 0 → b = q)) :
    mergeSidesByPosition (sidesAt p baseMint quoteMint b' q') (sidesAt pos baseMint quoteMint b q) =
      sidesAt p baseMint quoteMint (mergeLeg b' b) (mergeLeg q' q) := by
  by_cases hpp : p = pos
  · subst hpp
    cases p <;> rfl
  · have hbq := h.resolve_left hpp
    have hb : mergeLeg b' q = mergeLeg b' b := mergeLeg_congr fun hb => (hbq (.inl hb)).symm
    have hq : mergeLeg q' b = mergeLeg q' q := mergeLeg_congr fun hq => hbq (.inr hq)
    cases p <;> cases pos
    · exact absurd rfl hpp
    · show ((baseMint, some (mergeLeg b' q)), (quoteMint, some (mergeLeg q' b))) = _
      rw [hb, hq]
      rfl
    · show ((quoteMint, some (mergeLeg q' b)), (baseMint, some (mergeLeg b' q))) = _
      rw [hb, hq]
      rfl
    · exact absurd rfl hpp

/-- `upsert` keeps the sides that stay in their order, or whose mints are both known. -/
theorem mergeSidesByUpsert_sidesAt {row : Side × Side}
    (h : row.1.1 = p.pick baseMint quoteMint ∧ row.2.1 = p.pick quoteMint baseMint ∨
      baseMint ≠ Pubkey.default ∧ quoteMint ≠ Pubkey.default) :
    mergeSidesByUpsert (sidesAt p baseMint quoteMint b q) row =
      sidesAt p baseMint quoteMint b q := by
  obtain ⟨⟨mintA, x⟩, mintB, y⟩ := row
  have hA : preserveLayoutPubkey (p.pick baseMint quoteMint) mintA = p.pick baseMint quoteMint := by
    rcases h with ⟨rfl, _⟩ | ⟨hb, hq⟩
    · exact preserveLayoutPubkey_self _
    · cases p
      · exact preserveLayoutPubkey_of_ne hb mintA
      · exact preserveLayoutPubkey_of_ne hq mintA
  have hB : preserveLayoutPubkey (p.pick quoteMint baseMint) mintB = p.pick quoteMint baseMint := by
    rcases h with ⟨_, rfl⟩ | ⟨hb, hq⟩
    · exact preserveLayoutPubkey_self _
    · cases p
      · exact preserveLayoutPubkey_of_ne hq mintB
      · exact preserveLayoutPubkey_of_ne hb mintB
  cases p
  · show ((preserveLayoutPubkey baseMint mintA, some b),
      (preserveLayoutPubkey quoteMint mintB, some q)) = _
    rw [show preserveLayoutPubkey baseMint mintA = baseMint from hA,
      show preserveLayoutPubkey quoteMint mintB = quoteMint from hB]
    rfl
  · show ((preserveLayoutPubkey quoteMint mintA, some q),
      (preserveLayoutPubkey baseMint mintB, some b)) = _
    rw [show preserveLayoutPubkey quoteMint mintA = quoteMint from hA,
      show preserveLayoutPubkey baseMint mintB = baseMint from hB]
    rfl

theorem noReserve_sidesAt (pos : VaultPosition) :
    NoReserve (sidesAt pos baseMint quoteMint b q) ↔ b = 0 ∧ q = 0 := by
  unfold NoReserve
  cases pos
  · simp [sidesAt, VaultPosition.pick]
  · simp [sidesAt, VaultPosition.pick, and_comm]

theorem upsertSides_of_ne {dex : Dex} (h : dex ≠ .meteoraCpmm) (slot : Nat)
    (inc row : Side × Side) : upsertSides dex slot inc row = mergeSidesByUpsert inc row := by
  cases dex with
  | meteoraCpmm => exact absurd rfl h
  | _ => rfl

/-- A message that lists its own two mints tells them on their sides. -/
theorem ownSides_of_mints (hne : u.baseKey ≠ u.quoteKey)
    (h : u.ownMints = (pos.pick u.baseKey u.quoteKey, pos.pick u.quoteKey u.baseKey)) (b q : Nat) :
    u.ownSides b q = sidesAt pos u.baseKey u.quoteKey b q := by
  unfold PoolCacheUpdate.ownSides
  dsimp only
  rw [h, mapNormalizedReserves_pick hne]
  cases pos <;> rfl

/-- Where the base stands in the row of a `BalanceUpdated` message that lists it at `own`, over a
    row where it stands at `pos`. -/
def PoolCacheUpdate.laidPos (u : PoolCacheUpdate) (own pos : VaultPosition) : VaultPosition :=
  match u.dex with
  | .orca => pos
  | .meteoraDlmm | .meteoraCpmm => if u.tellsOrder then own else pos
  | _ => own

/-- A `BalanceUpdated` message of the row's two mints lays its reserves on their sides. -/
theorem balanceSides_of_mints {own : VaultPosition} (hne : u.baseKey ≠ u.quoteKey)
    (h : u.ownMints = (own.pick u.baseKey u.quoteKey, own.pick u.quoteKey u.baseKey))
    (hA : row.1.1 = pos.pick u.baseKey u.quoteKey) (hB : row.2.1 = pos.pick u.quoteKey u.baseKey)
    (b q : Nat) :
    u.balanceSides row b q = sidesAt (u.laidPos own pos) u.baseKey u.quoteKey b q := by
  have hown := ownSides_of_mints hne h b q
  have hmap : mapNormalizedReserves row.1.1 row.2.1 u.baseKey u.quoteKey b q =
      (pos.pick b q, pos.pick q b) := by
    rw [hA, hB]
    exact mapNormalizedReserves_pick hne b q
  have hstored : u.onStoredMints row b q = sidesAt pos u.baseKey u.quoteKey b q := by
    have hother : pos.pick u.quoteKey u.baseKey = pos.other.pick u.baseKey u.quoteKey := by
      cases pos <;> rfl
    unfold PoolCacheUpdate.onStoredMints
    rw [hA, hB, balanceOfMint_pick hne, hother, balanceOfMint_pick hne]
    cases pos <;> rfl
  unfold PoolCacheUpdate.balanceSides PoolCacheUpdate.laidPos
  cases u.dex with
  | orca =>
      dsimp only
      rw [hmap, hA, hB]
      cases pos <;> rfl
  | meteoraDlmm =>
      dsimp only
      split_ifs
      · exact hown
      · exact hstored
  | meteoraCpmm =>
      dsimp only
      split_ifs
      · exact hown
      · exact hstored
  | _ => exact hown

end TwoMints

end IronCrab.Cache

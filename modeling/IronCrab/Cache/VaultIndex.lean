/-
  File:      IronCrab/Cache/VaultIndex.lean
  Subject:   THE VAULT INDEX AND THE ROWS (`register_vaults`, `remove`, `evict_stale`,
             `update_vault_balance`, `set_pump_amm_pool_accounts`).

  An upsert adds the two vaults of the row it stores and takes none away; `remove` takes away the
  vaults of its row, `evict_stale` does not. So the index points at nothing after an eviction, at
  the default pubkey after a row without layout, at a vault the row no longer has after a layout
  change, and forgets a vault of a row when another row that shares it is removed.

  * `IndexSound` -- the index and the rows agree; `KeepsIndex` -- the operations that keep it so;
  * **`index_points_at_live_vaults`** -- in every run of such operations the index points at live
    vaults, every known vault is mapped, and a balance update writes its own side only;
  * `evicted_row_stays_mapped` -- a row, and an eviction.
-/
import IronCrab.Cache.LivePoolCache
import IronCrab.Lib.Machine

namespace IronCrab.Cache

open Track (Pubkey)
open Machine LivePoolCache

/-! ## 1. Operations -/

/-- An operation on the cache. -/
inductive CacheOp where
  | upsert (pool : Pubkey) (state : CachedPoolState) (slot now : Nat)
  | remove (pool : Pubkey)
  | evictStale (now : Nat)
  | updateVaultBalance (vault : Pubkey) (balance slot now : Nat)
  | setPumpAmmPoolAccounts (pool : Pubkey) (accounts : List Pubkey) (slot now : Nat)

namespace LivePoolCache

/-- The cache after an operation. -/
def perform (env : Ambient) (c : LivePoolCache) : CacheOp → LivePoolCache
  | .upsert pool state slot now => (c.upsert env pool state slot now).1
  | .remove pool => (c.remove pool).1
  | .evictStale now => (c.evictStale now).1
  | .updateVaultBalance vault balance slot now => c.updateVaultBalance vault balance slot now
  | .setPumpAmmPoolAccounts pool accounts slot now =>
      (c.setPumpAmmPoolAccountsAtSlot env pool accounts slot now).1

/-- The row of `pool` has `vault` on a side. -/
def HasVault (c : LivePoolCache) (pool : Pubkey) (pos : VaultPosition) (vault : Pubkey) : Prop :=
  ∃ e, c.pools.lookup pool = some e ∧ e.state.vaultAt pos = some vault

/-- The index points at vaults of rows, and every vault of a row is in the index. -/
structure IndexSound (c : LivePoolCache) : Prop where
  live : ∀ vault pool pos, c.vaultToPool.lookup vault = some (pool, pos) →
    c.HasVault pool pos vault
  mapped : ∀ vault pool pos, c.HasVault pool pos vault →
    (c.vaultToPool.lookup vault).isSome = true

/-- No two rows share a vault. -/
def Unshared (c : LivePoolCache) : Prop :=
  ∀ vault pool pos pool' pos', c.HasVault pool pos vault → c.HasVault pool' pos' vault →
    pool = pool'

/-- A balance update changes the balance of its vault's own side, or nothing. -/
def WritesOwnSide (c : LivePoolCache) : Prop :=
  ∀ vault balance slot now pool,
    (c.updateVaultBalance vault balance slot now).pools.lookup pool = c.pools.lookup pool ∨
    ∃ e e' pos, c.pools.lookup pool = some e ∧ e.state.vaultAt pos = some vault ∧
      (c.updateVaultBalance vault balance slot now).pools.lookup pool = some e' ∧
      e'.state = writeBalance e.state pos balance

/-- The state that an upsert would leave in the row. -/
def stateAfter (c : LivePoolCache) (pool : Pubkey) (state : CachedPoolState) (slot : Nat) :
    CachedPoolState :=
  match c.pools.lookup pool with
  | some prev =>
      mergeAccountParsePreservesExisting prev.state (c.fillTokenPrograms state) slot
  | none => c.fillTokenPrograms state

/-- The slot of an upsert is stale. -/
def StaleUpsert (c : LivePoolCache) (pool : Pubkey) (slot : Nat) : Prop :=
  ∃ prev, c.pools.lookup pool = some prev ∧ BehindSeen slot prev

/-- The operations that keep the index: an upsert that is stale or leaves a row with two known
    vaults, among them those that are mapped to it; the removal of a row that shares no vault; an
    eviction of rows that no vault is mapped to. -/
def KeepsIndex (c : LivePoolCache) : CacheOp → Prop
  | .upsert pool state slot _ => c.StaleUpsert pool slot ∨
      (∀ vault ∈ vaultPubkeysForPoolState (c.stateAfter pool state slot),
        vault ≠ Pubkey.default) ∧
      ∀ vault pos, c.vaultToPool.lookup vault = some (pool, pos) →
        vault ∈ vaultPubkeysForPoolState (c.stateAfter pool state slot)
  | .remove pool => ∀ vault pos pool' pos', c.HasVault pool pos vault →
      c.HasVault pool' pos' vault → pool = pool'
  | .evictStale now => ∀ pool e, c.pools.lookup pool = some e →
      e.isStale c.maxAgeMs now = true → ∀ vault pos,
        c.vaultToPool.lookup vault ≠ some (pool, pos)
  | .updateVaultBalance _ _ _ _ => True
  | .setPumpAmmPoolAccounts _ _ _ _ => True

variable {env : Ambient} {c : LivePoolCache}

/-! ## 2. Upsert -/

theorem vaultAt_eq_some {state : CachedPoolState} {pos : VaultPosition} {vault : Pubkey} :
    state.vaultAt pos = some vault ↔
      ∃ pair, state.vaultPair = some pair ∧ pos.pick pair.1 pair.2 = vault ∧
        vault ≠ Pubkey.default := by
  unfold CachedPoolState.vaultAt
  rw [Option.filter_eq_some_iff, Option.map_eq_some_iff]
  constructor
  · rintro ⟨⟨pair, hp, hv⟩, hd⟩
    exact ⟨pair, hp, hv, of_decide_eq_true hd⟩
  · rintro ⟨pair, hp, hv, hd⟩
    exact ⟨⟨pair, hp, hv⟩, decide_eq_true hd⟩

theorem mem_vaultPubkeys_iff {state : CachedPoolState} {vault : Pubkey} :
    vault ∈ vaultPubkeysForPoolState state ↔
      ∃ pair, state.vaultPair = some pair ∧ (vault = pair.1 ∨ vault = pair.2) := by
  unfold vaultPubkeysForPoolState
  cases state.vaultPair with
  | none => simp
  | some pair => simp

/-- A registered vault is mapped to the side it stands on. -/
theorem lookup_registerVaults_of_mem (index : VaultIndex) (pool : Pubkey) {vault : Pubkey}
    {state : CachedPoolState} (hm : vault ∈ vaultPubkeysForPoolState state)
    (hd : vault ≠ Pubkey.default) :
    ∃ pos, (registerVaults index pool state).lookup vault = some (pool, pos) ∧
      state.vaultAt pos = some vault := by
  obtain ⟨⟨vaultA, vaultB⟩, hp, hv⟩ := mem_vaultPubkeys_iff.mp hm
  rw [lookup_registerVaults, hp]
  dsimp only at hv ⊢
  by_cases hB : vault = vaultB
  · exact ⟨.b, if_pos hB, vaultAt_eq_some.mpr ⟨_, hp, hB.symm, hd⟩⟩
  · have hA : vault = vaultA := hv.resolve_right hB
    exact ⟨.a, by rw [if_neg hB, if_pos hA], vaultAt_eq_some.mpr ⟨_, hp, hA.symm, hd⟩⟩

/-- Every other vault is mapped as it was. -/
theorem lookup_registerVaults_of_notMem {index : VaultIndex} {pool vault : Pubkey}
    {state : CachedPoolState} (hm : vault ∉ vaultPubkeysForPoolState state) :
    (registerVaults index pool state).lookup vault = index.lookup vault := by
  rw [lookup_registerVaults]
  cases hp : state.vaultPair with
  | none => rfl
  | some pair =>
      rw [mem_vaultPubkeys_iff] at hm
      dsimp only
      rw [if_neg fun h => hm ⟨pair, hp, .inr h⟩, if_neg fun h => hm ⟨pair, hp, .inl h⟩]

/-- **A write of a row and of its index entries**, when its vaults are known and it keeps what is
    mapped to it. -/
theorem indexSound_write (h : IndexSound c) {pool : Pubkey} {e : CacheEntry}
    (hknown : ∀ vault ∈ vaultPubkeysForPoolState e.state, vault ≠ Pubkey.default)
    (hkept : ∀ vault pos, c.vaultToPool.lookup vault = some (pool, pos) →
      vault ∈ vaultPubkeysForPoolState e.state) :
    IndexSound { c with
      pools := c.pools.insert pool e
      vaultToPool := registerVaults c.vaultToPool pool e.state } where
  live := by
    intro vault q pos hl
    by_cases hm : vault ∈ vaultPubkeysForPoolState e.state
    · obtain ⟨pos', hl', hv⟩ := lookup_registerVaults_of_mem c.vaultToPool pool hm (hknown vault hm)
      cases hl'.symm.trans hl
      exact ⟨e, AList.lookup_insert _, hv⟩
    · have hold := (lookup_registerVaults_of_notMem hm).symm.trans hl
      have hq : q ≠ pool := by
        rintro rfl
        exact hm (hkept vault pos hold)
      obtain ⟨e', he', hv⟩ := h.live vault q pos hold
      exact ⟨e', (AList.lookup_insert_ne hq).trans he', hv⟩
  mapped := by
    rintro vault q pos ⟨e', he', hv⟩
    by_cases hm : vault ∈ vaultPubkeysForPoolState e.state
    · obtain ⟨pos', hl', _⟩ := lookup_registerVaults_of_mem c.vaultToPool pool hm (hknown vault hm)
      exact Option.isSome_iff_exists.mpr ⟨_, hl'⟩
    · have hq : q ≠ pool := by
        rintro rfl
        cases (AList.lookup_insert _).symm.trans he'
        exact hm (CachedPoolState.mem_vaultPubkeys hv)
      have hold := h.mapped vault q pos ⟨e', (AList.lookup_insert_ne hq).symm.trans he', hv⟩
      show ((registerVaults c.vaultToPool pool e.state).lookup vault).isSome = true
      rw [lookup_registerVaults_of_notMem hm]
      exact hold

/-- The rows keep their vaults: no row comes, goes, or changes a vault. -/
theorem indexSound_of_hasVault {c' : LivePoolCache} (h : IndexSound c)
    (hix : c'.vaultToPool = c.vaultToPool)
    (hv : ∀ pool pos vault, c'.HasVault pool pos vault ↔ c.HasVault pool pos vault) :
    IndexSound c' where
  live := fun vault pool pos hl => (hv pool pos vault).mpr (h.live vault pool pos (hix ▸ hl))
  mapped := fun vault pool pos hh => by
    rw [hix]
    exact h.mapped vault pool pos ((hv pool pos vault).mp hh)

theorem storedEntry_state {pool : Pubkey} {state : CachedPoolState} {slot now : Nat}
    {e : CacheEntry} (h : storedEntry env c pool state slot now = some e) :
    e.state = c.stateAfter pool state slot ∧ ¬ c.StaleUpsert pool slot := by
  unfold stateAfter StaleUpsert
  cases hl : c.pools.lookup pool with
  | none =>
      rw [storedEntry_of_none hl] at h
      cases Option.some.inj h
      exact ⟨rfl, fun ⟨_, hp, _⟩ => (nomatch hp)⟩
  | some prev =>
      rw [storedEntry_of_some hl] at h
      split_ifs at h with hb
      cases Option.some.inj h
      refine ⟨rfl, fun ⟨prev', hp, hb'⟩ => ?_⟩
      cases Option.some.inj hp
      exact hb hb'

theorem indexSound_upsert (h : IndexSound c) {pool : Pubkey} {state : CachedPoolState}
    {slot now : Nat} (hg : KeepsIndex c (.upsert pool state slot now)) :
    IndexSound (c.upsert env pool state slot now).1 := by
  rw [upsert_eq]
  cases hs : storedEntry env c pool state slot now with
  | none => exact h
  | some e =>
      obtain ⟨hstate, hfresh⟩ := storedEntry_state hs
      obtain ⟨hknown, hkept⟩ := hg.resolve_left hfresh
      rw [← hstate] at hknown hkept
      exact indexSound_write h hknown hkept

/-! ## 3. The other operations -/

theorem indexSound_remove (h : IndexSound c) {pool : Pubkey}
    (hg : KeepsIndex c (.remove pool)) : IndexSound (c.remove pool).1 := by
  unfold remove
  cases hl : c.pools.lookup pool with
  | none => exact h
  | some e =>
      refine ⟨fun vault q pos hix => ?_, fun vault q pos hv => ?_⟩
      · have hix' : (c.vaultToPool.eraseAll (vaultPubkeysForPoolState e.state)).lookup vault =
            some (q, pos) := hix
        rw [AList.lookup_eraseAll] at hix'
        split_ifs at hix' with hm
        obtain ⟨e', he', hv⟩ := h.live vault q pos hix'
        have hq : q ≠ pool := by
          rintro rfl
          cases hl.symm.trans he'
          exact hm (CachedPoolState.mem_vaultPubkeys hv)
        exact ⟨e', (AList.lookup_erase_ne hq).trans he', hv⟩
      · obtain ⟨e', he', hat⟩ := hv
        have hq : q ≠ pool := by
          rintro rfl
          rw [AList.lookup_erase] at he'
          cases he'
        have hold : c.HasVault q pos vault :=
          ⟨e', (AList.lookup_erase_ne hq).symm.trans he', hat⟩
        have hm : vault ∉ vaultPubkeysForPoolState e.state := by
          intro hm
          obtain ⟨_, _, _, hd⟩ := vaultAt_eq_some.mp hat
          obtain ⟨pos', _, hat'⟩ := lookup_registerVaults_of_mem ∅ pool hm hd
          exact hq (hg vault pos' q pos ⟨e, hl, hat'⟩ hold).symm
        show ((c.vaultToPool.eraseAll (vaultPubkeysForPoolState e.state)).lookup vault).isSome = _
        rw [AList.lookup_eraseAll, if_neg hm]
        exact h.mapped vault q pos hold

theorem indexSound_evictStale (h : IndexSound c) {now : Nat}
    (hg : KeepsIndex c (.evictStale now)) : IndexSound (c.evictStale now).1 where
  live := by
    intro vault pool pos hix
    obtain ⟨e, he, hv⟩ := h.live vault pool pos hix
    refine ⟨e, ?_, hv⟩
    rw [lookup_evictStale, he, Option.filter_some]
    cases hst : e.isStale c.maxAgeMs now with
    | false => rfl
    | true => exact absurd hix (hg pool e he hst vault pos)
  mapped := by
    rintro vault pool pos ⟨e, he, hv⟩
    rw [lookup_evictStale] at he
    exact h.mapped vault pool pos ⟨e, (Option.filter_eq_some_iff.mp he).1, hv⟩

/-- A row after a balance update. -/
theorem updateVaultBalance_row (c : LivePoolCache) (vault q : Pubkey) (balance slot now : Nat) :
    (c.updateVaultBalance vault balance slot now).pools.lookup q = c.pools.lookup q ∨
    ∃ e e' pos, c.vaultToPool.lookup vault = some (q, pos) ∧ c.pools.lookup q = some e ∧
      (c.updateVaultBalance vault balance slot now).pools.lookup q = some e' ∧
      e'.state = writeBalance e.state pos balance := by
  rw [lookup_updateVaultBalance]
  cases hix : c.vaultToPool.lookup vault with
  | none => exact .inl rfl
  | some target =>
      obtain ⟨pool, pos⟩ := target
      dsimp only
      by_cases hq : q = pool
      · subst hq
        rw [if_pos rfl]
        cases hl : c.pools.lookup q with
        | none => exact .inl rfl
        | some e =>
            rw [Option.map_some]
            cases ht : tickEntry e pos balance slot now with
            | none => exact .inl rfl
            | some e' =>
                obtain ⟨_, _, he'⟩ := tickEntry_eq_some.mp ht
                exact .inr ⟨e, e', pos, rfl, rfl, rfl, by rw [he']⟩
      · rw [if_neg hq]
        exact .inl rfl

theorem indexSound_updateVaultBalance (h : IndexSound c) (vault : Pubkey)
    (balance slot now : Nat) :
    IndexSound (c.updateVaultBalance vault balance slot now) := by
  refine indexSound_of_hasVault h (updateVaultBalance_vaultToPool _ _ _ _) fun pool pos v => ?_
  unfold HasVault
  rcases updateVaultBalance_row c vault pool balance slot now with
    hrow | ⟨e, e', pos', _, he, he', hs⟩
  · rw [hrow]
  · rw [he, he']
    simp only [Option.some.injEq, exists_eq_left', hs, CachedPoolState.vaultAt_writeBalance]

theorem writesOwnSide_of_sound (h : IndexSound c) : WritesOwnSide c := by
  intro vault balance slot now pool
  rcases updateVaultBalance_row c vault pool balance slot now with
    hrow | ⟨e, e', pos, hix, he, he', hs⟩
  · exact .inl hrow
  · obtain ⟨e₀, he₀, hv⟩ := h.live vault pool pos hix
    cases he.symm.trans he₀
    exact .inr ⟨e, e', pos, he, hv, he', hs⟩

theorem vaultPair_accountsEntry {e e' : CacheEntry} {accounts : List Pubkey}
    (h : accountsEntry e accounts = some e') : e'.state.vaultPair = e.state.vaultPair := by
  unfold accountsEntry at h
  cases hs : e.state with
  | pumpAmm s =>
      rw [hs] at h
      cases Option.some.inj h
      rfl
  | _ => rw [hs] at h; cases h

/-- Writing the account list of a row leaves its vaults. -/
theorem hasVault_writeAccounts (pool : Pubkey) (accounts : List Pubkey) (q : Pubkey)
    (pos : VaultPosition) (vault : Pubkey) :
    HasVault { c with pools := (writeAccounts c.pools pool accounts).1 } q pos vault ↔
      c.HasVault q pos vault := by
  unfold writeAccounts HasVault
  cases hw : (c.pools.lookup pool).bind fun e => accountsEntry e accounts with
  | none => exact Iff.rfl
  | some e' =>
      obtain ⟨e, he, hacc⟩ := Option.bind_eq_some_iff.mp hw
      have hpair := vaultPair_accountsEntry hacc
      by_cases hq : q = pool
      · subst hq
        dsimp only
        rw [AList.lookup_insert, he]
        simp only [Option.some.injEq, exists_eq_left']
        unfold CachedPoolState.vaultAt
        rw [hpair]
      · dsimp only
        rw [AList.lookup_insert_ne hq]

theorem knownAccount_ne_default {accounts : List Pubkey} {i : Nat} {key : Pubkey}
    (h : knownAccount accounts i = some key) : key ≠ Pubkey.default :=
  of_decide_eq_true (Option.filter_eq_some_iff.mp h).2

/-- The seeded layout has two known vaults. -/
theorem known_pumpAmmTxLayout {accounts : List Pubkey} {seed : CachedPoolState}
    (h : pumpAmmTxLayout accounts = some seed) :
    ∀ vault ∈ vaultPubkeysForPoolState seed, vault ≠ Pubkey.default := by
  obtain ⟨_, _, h⟩ := Option.bind_eq_some_iff.mp h
  obtain ⟨_, _, h⟩ := Option.bind_eq_some_iff.mp h
  obtain ⟨baseVault, hb, h⟩ := Option.bind_eq_some_iff.mp h
  obtain ⟨quoteVault, hq, rfl⟩ := Option.map_eq_some_iff.mp h
  intro vault hm
  rcases List.mem_cons.mp hm with rfl | hm
  · exact knownAccount_ne_default hb
  · cases List.mem_singleton.mp hm
    exact knownAccount_ne_default hq

/-- A layout is seeded only where no row is, and no vault is mapped there. -/
theorem indexSound_ensure (env : Ambient) (h : IndexSound c) (pool : Pubkey) (accounts : List Pubkey)
    (slot now : Nat) :
    IndexSound (c.ensurePumpAmmTxLayoutFromAccounts env pool accounts slot now).1 := by
  unfold ensurePumpAmmTxLayoutFromAccounts
  split_ifs with hrow
  · exact h
  · have hnone : c.pools.lookup pool = none := by
      cases hl : c.pools.lookup pool with
      | none => rfl
      | some e => rw [hl] at hrow; exact absurd rfl hrow
    cases hs : pumpAmmTxLayout accounts with
    | none => exact h
    | some seed =>
        refine indexSound_upsert h (.inr ⟨?_, fun vault pos hix => ?_⟩)
        · have hfill := fillTokenPrograms_pumpAmmTxLayout hs c
          unfold stateAfter
          rw [hnone]
          dsimp only
          rw [hfill]
          exact known_pumpAmmTxLayout hs
        · obtain ⟨e, he, _⟩ := h.live vault pool pos hix
          rw [hnone] at he
          cases he

theorem indexSound_setPumpAmmPoolAccounts (h : IndexSound c) (pool : Pubkey)
    (accounts : List Pubkey) (slot now : Nat) :
    IndexSound (c.setPumpAmmPoolAccountsAtSlot env pool accounts slot now).1 := by
  rw [setPumpAmmPoolAccountsAtSlot_eq]
  by_cases hc : pumpAmmLayerCComplete pool accounts = true
  · rw [if_pos hc]
    dsimp only
    have hens := indexSound_ensure env h pool
      (pumpAmmNormalizeV14PoolAccounts env accounts).1 slot now
    generalize c.ensurePumpAmmTxLayoutFromAccounts env pool
      (pumpAmmNormalizeV14PoolAccounts env accounts).1 slot now = ensured at hens ⊢
    by_cases hok : ensured.2 = true
    · rw [if_pos hok]
      exact indexSound_of_hasVault hens rfl fun q pos v => hasVault_writeAccounts _ _ q pos v
    · rw [if_neg hok]
      exact hens
  · rw [if_neg hc]
    exact h

/-! ## 4. Runs -/

/-- **One operation that keeps the index.** -/
theorem indexSound_perform {op : CacheOp} (hg : KeepsIndex c op) (h : IndexSound c) :
    IndexSound (c.perform env op) := by
  cases op with
  | upsert pool state slot now => exact indexSound_upsert h hg
  | remove pool => exact indexSound_remove h hg
  | evictStale now => exact indexSound_evictStale h hg
  | updateVaultBalance vault balance slot now =>
      exact indexSound_updateVaultBalance h vault balance slot now
  | setPumpAmmPoolAccounts pool accounts slot now =>
      exact indexSound_setPumpAmmPoolAccounts h pool accounts slot now

/-- A cache without rows. -/
def empty (mintPrograms : AList fun _ : Pubkey => Pubkey) (maxAgeMs : Nat) : LivePoolCache :=
  ⟨∅, ∅, mintPrograms, maxAgeMs⟩

theorem indexSound_empty (mintPrograms : AList fun _ : Pubkey => Pubkey) (maxAgeMs : Nat) :
    IndexSound (empty mintPrograms maxAgeMs) where
  live := fun _ _ _ h => (nomatch h)
  mapped := fun _ _ _ ⟨_, h, _⟩ => (nomatch h)

/-- The vault index points at live vaults. -/
structure PointsAtLiveVaults (c : LivePoolCache) : Prop where
  live : ∀ vault pool pos, c.vaultToPool.lookup vault = some (pool, pos) →
    c.HasVault pool pos vault
  mapped : c.Unshared → ∀ vault pool pos, c.HasVault pool pos vault →
    ∃ pos', c.vaultToPool.lookup vault = some (pool, pos')
  ownSide : c.WritesOwnSide

theorem pointsAtLiveVaults_of_sound (h : IndexSound c) : PointsAtLiveVaults c where
  live := h.live
  mapped := by
    intro hu vault pool pos hv
    obtain ⟨⟨q, pos'⟩, hix⟩ := Option.isSome_iff_exists.mp (h.mapped vault pool pos hv)
    cases hu vault pool pos q pos' hv (h.live vault q pos' hix)
    exact ⟨pos', hix⟩
  ownSide := writesOwnSide_of_sound h

/-- **The vault index points at live vaults** in every state that operations that keep the index
    reach: what is mapped is a known vault of a cached row on that side, every known vault is mapped
    to its row unless rows share it, and a balance update writes the side of its vault only. -/
theorem index_points_at_live_vaults (mintPrograms : AList fun _ : Pubkey => Pubkey)
    (maxAgeMs : Nat) (ops : List CacheOp)
    (h : Along (perform env) KeepsIndex (empty mintPrograms maxAgeMs) ops) :
    PointsAtLiveVaults (foldSteps (perform env) (empty mintPrograms maxAgeMs) ops) :=
  pointsAtLiveVaults_of_sound
    (foldSteps_of_along (fun _ _ => indexSound_perform) (indexSound_empty _ _) h)

/-- A row, and a balance of its first vault. -/
def tickedRow : List CacheOp :=
  [.upsert 9 (cpmmRow (some 10) (some 10)) 1 0, .updateVaultBalance 3 20 5 0]

theorem index_points_at_live_vaults_tickedRow :
    PointsAtLiveVaults (foldSteps (perform .weighing) (empty ∅ 10000) tickedRow) := by
  refine index_points_at_live_vaults ∅ 10000 tickedRow
    ⟨.inr ⟨fun vault hm => ?_, ?_⟩, trivial, trivial⟩
  · rcases List.mem_cons.mp hm with rfl | hm
    · decide
    · cases List.mem_singleton.mp hm
      decide
  · exact fun _ _ h => (nomatch h)

/-- A row, and an eviction ten seconds and more after it. -/
def evictedRow : List CacheOp :=
  [.upsert 9 (cpmmRow (some 10) (some 10)) 1 0, .evictStale 10001]

/-- **The vaults of an evicted row stay mapped to it**, where `remove` takes them away. -/
theorem evicted_row_stays_mapped :
    ¬ ∃ env : Ambient, ∀ (mintPrograms : AList fun _ : Pubkey => Pubkey) (maxAgeMs : Nat)
      (ops : List CacheOp),
      PointsAtLiveVaults (foldSteps (perform env) (empty mintPrograms maxAgeMs) ops) := by
  rintro ⟨env, hall⟩
  obtain ⟨e, he, _⟩ := (hall ∅ 10000 evictedRow).live 3 9 .a rfl
  cases he

end LivePoolCache

end IronCrab.Cache

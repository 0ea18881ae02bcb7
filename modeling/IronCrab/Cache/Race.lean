/-
  File:      IronCrab/Cache/Race.lean
  Subject:   TWO CALLS ON ONE POOL AT THE SAME TIME (`upsert` against `upsert`,
             `update_vault_balance` and `set_pump_amm_pool_accounts`).

  Each guard scope is one atomic step. `upsert` merges over the row it read under its first guard
  and stores the result under its second; there it looks at `last_seen_slot` again, and merges again
  if it had found no row, but it does not see what else was written to the row in between.

  `Race` is the cache with the two threads, `Race.step` a turn of one of them. A turn is
  UNDISTURBED (`Undisturbed`) when the row an upsert is about to replace is the one it merged over,
  and the layout seed of an account list meets no row of the other thread.

  * `lookup_storeEntry` -- over the row that was seen, or after another look, the write is the
    upsert on the row;
  * **`upsertStep_spec`** -- what one guard scope of an upsert does to the row.
-/
import IronCrab.Cache.LivePoolCache
import IronCrab.Lib.Linearize
import IronCrab.Lib.Machine

namespace IronCrab.Cache

open Track (Pubkey)
open Machine Linearize LivePoolCache

/-! ## 1. Threads -/

/-- The token program of mint A of an Orca row, read on its own. -/
def LivePoolCache.fillTokenProgramA (c : LivePoolCache) : CachedPoolState → CachedPoolState
  | .orca o => .orca { o with
      tokenAProgram := orExisting o.tokenAProgram (c.getMintProgram o.tokenMintA) }
  | state => state

/-- The token program of mint B of an Orca row, read on its own. -/
def LivePoolCache.fillTokenProgramB (c : LivePoolCache) : CachedPoolState → CachedPoolState
  | .orca o => .orca { o with
      tokenBProgram := orExisting o.tokenBProgram (c.getMintProgram o.tokenMintB) }
  | state => state

/-- One insert of `register_vaults`. -/
def registerVault (index : VaultIndex) (pool : Pubkey) (state : CachedPoolState)
    (pos : VaultPosition) : VaultIndex :=
  match state.vaultPair with
  | some pair => index.insert (pos.pick pair.1 pair.2) (pool, pos)
  | none => index

/-- The arguments of an upsert. -/
structure UpsertCall where
  pool : Pubkey
  state : CachedPoolState
  slot : Nat
  now : Nat

/-- What an upsert prepared under its first guard; `seen` is the row it found there. -/
structure Prepared where
  entryToStore : CacheEntry
  preparedAsInsert : Bool
  seen : Option CacheEntry

/-- Where an upsert stands between two guard scopes. -/
inductive UpsertPhase where
  | programA (state : CachedPoolState)
  | programB (state : CachedPoolState)
  | read (state : CachedPoolState)
  | registerA (p : Prepared)
  | registerB (p : Prepared)
  | write (p : Prepared)
  | done

/-- A guard scope of an upsert. -/
def upsertStep (env : Ambient) (call : UpsertCall) (c : LivePoolCache) :
    UpsertPhase → LivePoolCache × UpsertPhase
  | .programA state => (c, .programB (c.fillTokenProgramA state))
  | .programB state => (c, .read (c.fillTokenProgramB state))
  | .read state =>
      match prepareEntry env c.pools call.pool state call.slot call.now with
      | none => (c, .done)
      | some (entry, asInsert) => (c, .registerA ⟨entry, asInsert, c.pools.lookup call.pool⟩)
  | .registerA p =>
      ({ c with vaultToPool := registerVault c.vaultToPool call.pool p.entryToStore.state .a },
        .registerB p)
  | .registerB p =>
      ({ c with vaultToPool := registerVault c.vaultToPool call.pool p.entryToStore.state .b },
        .write p)
  | .write p =>
      ({ c with pools := (storeEntry env c.pools call.pool p.entryToStore p.preparedAsInsert
        call.slot call.now).1 }, .done)
  | .done => (c, .done)

/-- A call on another thread. -/
inductive RowCall where
  | upsert (call : UpsertCall)
  | updateVaultBalance (vault : Pubkey) (balance slot now : Nat)
  | setPumpAmmPoolAccounts (pool : Pubkey) (accounts : List Pubkey) (slot now : Nat)

/-- Where a thread stands between two guard scopes. -/
inductive Thread where
  | upsert (call : UpsertCall) (phase : UpsertPhase)
  /-- Before the index is read. -/
  | tickRead (vault : Pubkey) (balance slot now : Nat)
  /-- Before the row is written. -/
  | tickWrite (vault pool : Pubkey) (position : VaultPosition) (balance slot now : Nat)
  /-- Before the first `contains_key`. -/
  | setCheck (pool : Pubkey) (accounts : List Pubkey) (slot now : Nat)
  /-- Before the `contains_key` of `ensure_pump_amm_tx_layout_from_accounts`. -/
  | setEnsure (pool : Pubkey) (accounts : List Pubkey) (slot now : Nat)
  /-- In the upsert of the layout seed. -/
  | setSeed (call : UpsertCall) (accounts : List Pubkey) (phase : UpsertPhase)
  /-- Before the account list is written; `seeded` when this thread has inserted the row. -/
  | setWrite (pool : Pubkey) (accounts : List Pubkey) (seeded : Bool)
  /-- A balance update that has written this side. -/
  | ticked (pool : Pubkey) (position : VaultPosition) (balance : Nat)
  | done

/-- The thread of a call. -/
def RowCall.start (env : Ambient) : RowCall → Thread
  | .upsert call => .upsert call (.programA call.state)
  | .updateVaultBalance vault balance slot now => .tickRead vault balance slot now
  | .setPumpAmmPoolAccounts pool accounts slot now =>
      if pumpAmmLayerCComplete pool accounts then
        .setCheck pool (pumpAmmNormalizeV14PoolAccounts env accounts).1 slot now
      else .done

/-- The call by itself. -/
def LivePoolCache.runCall (env : Ambient) (c : LivePoolCache) : RowCall → LivePoolCache
  | .upsert call => (c.upsert env call.pool call.state call.slot call.now).1
  | .updateVaultBalance vault balance slot now => c.updateVaultBalance vault balance slot now
  | .setPumpAmmPoolAccounts pool accounts slot now =>
      (c.setPumpAmmPoolAccountsAtSlot env pool accounts slot now).1

/-- A guard scope of a thread. -/
def Thread.step (env : Ambient) (c : LivePoolCache) : Thread → LivePoolCache × Thread
  | .upsert call phase =>
      let r := upsertStep env call c phase
      (r.1, .upsert call r.2)
  | .tickRead vault balance slot now =>
      match c.vaultToPool.lookup vault with
      | none => (c, .done)
      | some (pool, position) => (c, .tickWrite vault pool position balance slot now)
  | .tickWrite _ pool position balance slot now =>
      ({ c with pools := tickPools c.pools pool position balance slot now },
        if ((c.pools.lookup pool).bind fun e => tickEntry e position balance slot now).isSome then
          .ticked pool position balance
        else .done)
  | .setCheck pool accounts slot now =>
      (c, if (c.pools.lookup pool).isSome then .setWrite pool accounts false
        else .setEnsure pool accounts slot now)
  | .setEnsure pool accounts slot now =>
      (c, if (c.pools.lookup pool).isSome then .setWrite pool accounts false
        else
          match pumpAmmTxLayout accounts with
          | none => .done
          | some seed => .setSeed ⟨pool, seed, slot, now⟩ accounts (.programA seed))
  | .setSeed call accounts phase =>
      match upsertStep env call c phase with
      | (c', .done) => (c', .setWrite call.pool accounts true)
      | (c', phase') => (c', .setSeed call accounts phase')
  | .setWrite pool accounts _ =>
      ({ c with pools := (writeAccounts c.pools pool accounts).1 }, .done)
  | .ticked pool position balance => (c, .ticked pool position balance)
  | .done => (c, .done)

/-- The call has returned. -/
def Thread.isDone : Thread → Bool
  | .upsert _ .done | .ticked _ _ _ | .done => true
  | _ => false

/-- The vault of a balance update that has not returned. -/
def Thread.tickVault : Thread → Option Pubkey
  | .tickRead vault _ _ _ => some vault
  | .tickWrite vault _ _ _ _ _ => some vault
  | _ => none

/-! ## 2. Interleavings -/

/-- The cache and the two threads. -/
structure Race where
  cache : LivePoolCache
  left : Thread
  right : Thread

/-- Whose turn it is. -/
inductive Turn where
  | left
  | right
  deriving DecidableEq

namespace Race

/-- A turn. -/
def step (env : Ambient) (s : Race) : Turn → Race
  | .left => let r := s.left.step env s.cache; { s with cache := r.1, left := r.2 }
  | .right => let r := s.right.step env s.cache; { s with cache := r.1, right := r.2 }

/-- An upsert that is about to write finds the row that it merged over, or looks again: it had
    found no row, or it is stale by now. -/
def WritesOverSeen (c : LivePoolCache) (call : UpsertCall) (p : Prepared) : Prop :=
  p.preparedAsInsert = true ∨ c.pools.lookup call.pool = p.seen ∨
    ∃ e, c.pools.lookup call.pool = some e ∧ BehindSeen call.slot e

/-- An upsert does not move the vault of a running tick from one side of its pool to the other. -/
def RegistersInPlace (c : LivePoolCache) (other : Thread) (call : UpsertCall) (p : Prepared)
    (pos : VaultPosition) : Prop :=
  ∀ vault pair, other.tickVault = some vault → p.entryToStore.state.vaultPair = some pair →
    pos.pick pair.1 pair.2 = vault →
    c.vaultToPool.lookup vault ≠ some (call.pool, pos.other)

/-- The turn of a thread, while the other stands where it stands, is undisturbed. -/
def ThreadUndisturbed (c : LivePoolCache) (other : Thread) : Thread → Prop
  | .upsert call (.write p) => WritesOverSeen c call p ∧
      ∀ pool accounts, other ≠ .setWrite pool accounts true
  | .upsert call (.registerA p) => RegistersInPlace c other call p .a
  | .upsert call (.registerB p) => RegistersInPlace c other call p .b
  | .setSeed call _ (.read _) => c.pools.lookup call.pool = none
  | .setSeed call _ (.write _) => c.pools.lookup call.pool = none
  | _ => True

/-- An undisturbed turn. -/
def Undisturbed (s : Race) : Turn → Prop
  | .left => ThreadUndisturbed s.cache s.right s.left
  | .right => ThreadUndisturbed s.cache s.left s.right

end Race

/-! ## 3. What a call does to the row -/

/-- An upsert of a filled state on a row. -/
def upsertRow (env : Ambient) (state : CachedPoolState) (slot now : Nat)
    (row : Option CacheEntry) : Option CacheEntry :=
  match row with
  | none => some (.new state slot now)
  | some prev => if BehindSeen slot prev then some prev
      else some (mergeEntry env prev state slot now)

/-- A balance update on a row of `pool`, by what the index says of its vault. -/
def tickRow (pool : Pubkey) (target : Option (Pubkey × VaultPosition)) (balance slot now : Nat)
    (row : Option CacheEntry) : Option CacheEntry :=
  match target with
  | some (q, position) =>
      if q = pool then row.map fun e => (tickEntry e position balance slot now).getD e else row
  | none => row

/-- A write of the account list on a row. -/
def accountsRow (accounts : List Pubkey) (row : Option CacheEntry) : Option CacheEntry :=
  row.map fun e => (accountsEntry e accounts).getD e

/-- `set_pump_amm_pool_accounts` with a complete, normalized list on a row. -/
def setRow (accounts : List Pubkey) (slot now : Nat) (row : Option CacheEntry) :
    Option CacheEntry :=
  match row with
  | some e => accountsRow accounts (some e)
  | none => accountsRow accounts ((pumpAmmTxLayout accounts).map fun seed => .new seed slot now)

variable {env : Ambient} {c c' : LivePoolCache} {call : UpsertCall} {filled : CachedPoolState}

theorem lookup_upsert_self (pool : Pubkey) (state : CachedPoolState) (slot now : Nat) :
    (c.upsert env pool state slot now).1.pools.lookup pool =
      upsertRow env (c.fillTokenPrograms state) slot now (c.pools.lookup pool) := by
  rw [lookup_upsert, if_pos rfl]
  cases hl : c.pools.lookup pool with
  | none =>
      rw [storedEntry_of_none hl]
      rfl
  | some prev =>
      rw [storedEntry_of_some hl]
      unfold upsertRow
      dsimp only
      split_ifs <;> rfl

theorem upsert_mintPrograms (pool : Pubkey) (state : CachedPoolState) (slot now : Nat) :
    (c.upsert env pool state slot now).1.mintPrograms = c.mintPrograms := by
  rw [upsert_eq]
  split <;> rfl

theorem updateVaultBalance_mintPrograms (vault : Pubkey) (balance slot now : Nat) :
    (c.updateVaultBalance vault balance slot now).mintPrograms = c.mintPrograms := by
  unfold updateVaultBalance
  split <;> rfl

theorem fillTokenPrograms_congr (h : c'.mintPrograms = c.mintPrograms)
    (state : CachedPoolState) : c'.fillTokenPrograms state = c.fillTokenPrograms state := by
  unfold fillTokenPrograms getMintProgram
  rw [h]

theorem fillTokenProgramB_congr (h : c'.mintPrograms = c.mintPrograms)
    (state : CachedPoolState) : c'.fillTokenProgramB state = c.fillTokenProgramB state := by
  unfold fillTokenProgramB getMintProgram
  rw [h]

theorem fillTokenProgramB_fillTokenProgramA (state : CachedPoolState) :
    c.fillTokenProgramB (c.fillTokenProgramA state) = c.fillTokenPrograms state := by
  cases state <;> rfl

theorem registerVaults_eq (index : VaultIndex) (pool : Pubkey) (state : CachedPoolState) :
    registerVaults index pool state =
      registerVault (registerVault index pool state .a) pool state .b := by
  unfold registerVaults registerVault
  cases state.vaultPair with
  | none => rfl
  | some pair => rfl

theorem prepareEntry_of_none {pools : PoolMap} {pool : Pubkey} (h : pools.lookup pool = none)
    (state : CachedPoolState) (slot now : Nat) :
    prepareEntry env pools pool state slot now = some (.new state slot now, true) := by
  unfold prepareEntry
  rw [h]
  dsimp only
  by_cases hs : slot = 0
  · rw [if_pos hs, hs]
  · rw [if_neg hs]

theorem prepareEntry_of_some {pools : PoolMap} {pool : Pubkey} {prev : CacheEntry}
    (h : pools.lookup pool = some prev) (state : CachedPoolState) (slot now : Nat) :
    prepareEntry env pools pool state slot now =
      if BehindSeen slot prev then none else some (mergeEntry env prev state slot now, false) := by
  unfold prepareEntry
  rw [h]

/-! ## 4. The steps of an upsert -/

/-- What an upsert of a filled state has prepared, from the row it saw. -/
def Prepared.Of (env : Ambient) (call : UpsertCall) (filled : CachedPoolState) (p : Prepared) :
    Prop :=
  match p.seen with
  | none => p.entryToStore = .new filled call.slot call.now ∧ p.preparedAsInsert = true
  | some prev => ¬ BehindSeen call.slot prev ∧
      p.entryToStore = mergeEntry env prev filled call.slot call.now ∧ p.preparedAsInsert = false

/-- The phases that an upsert of a state that is `filled` once it is filled goes through. -/
def UpsertPhase.Sound (env : Ambient) (call : UpsertCall) (filled : CachedPoolState)
    (c : LivePoolCache) : UpsertPhase → Prop
  | .programA state => c.fillTokenPrograms state = filled
  | .programB state => c.fillTokenProgramB state = filled
  | .read state => state = filled
  | .registerA p | .registerB p | .write p => p.Of env call filled
  | .done => True

def UpsertPhase.isDone : UpsertPhase → Bool
  | .done => true
  | _ => false

theorem UpsertPhase.Sound.congr {phase : UpsertPhase} (h : phase.Sound env call filled c)
    (hm : c'.mintPrograms = c.mintPrograms) : phase.Sound env call filled c' := by
  cases phase with
  | programA state => exact (fillTokenPrograms_congr hm state).trans h
  | programB state => exact (fillTokenProgramB_congr hm state).trans h
  | _ => exact h

/-- What a step of an upsert does to the row: nothing, or it is refused and returns, or it writes
    what the upsert makes of the row. -/
inductive UpsertEffect (env : Ambient) (call : UpsertCall) (filled : CachedPoolState)
    (row row' : Option CacheEntry) (phase phase' : UpsertPhase) : Prop where
  | silent (done : phase'.isDone = phase.isDone) (same : row' = row)
  | refused (before : phase.isDone = false) (after : phase' = .done)
      (stale : ∃ prev, row = some prev ∧ BehindSeen call.slot prev) (same : row' = row)
  | wrote (p : Prepared) (before : phase = .write p) (after : phase' = .done)
      (row_eq : row' = upsertRow env filled call.slot call.now row)

/-- A write over the row that was seen, or after another look, is the upsert on the row. -/
theorem lookup_storeEntry {p : Prepared} (hp : p.Of env call filled)
    (hw : Race.WritesOverSeen c call p) :
    (storeEntry env c.pools call.pool p.entryToStore p.preparedAsInsert call.slot
      call.now).1.lookup call.pool =
      upsertRow env filled call.slot call.now (c.pools.lookup call.pool) := by
  unfold Prepared.Of at hp
  unfold storeEntry upsertRow
  cases hl : c.pools.lookup call.pool with
  | none =>
      dsimp only
      rw [AList.lookup_insert]
      cases hs : p.seen with
      | none =>
          rw [hs] at hp
          rw [hp.1]
      | some prev =>
          rw [hs] at hp
          rcases hw with hi | hsame | ⟨e, he, _⟩
          · rw [hp.2.2] at hi
            cases hi
          · rw [hl, hs] at hsame
            cases hsame
          · rw [hl] at he
            cases he
  | some e =>
      dsimp only
      by_cases hb : BehindSeen call.slot e
      · rw [if_pos hb, if_pos hb]
        exact hl
      · rw [if_neg hb, if_neg hb]
        dsimp only
        rw [AList.lookup_insert]
        cases hs : p.seen with
        | none =>
            rw [hs] at hp
            rw [if_pos hp.2, hp.1]
            rfl
        | some prev =>
            rw [hs] at hp
            rw [if_neg (by rw [hp.2.2]; decide), hp.2.1]
            rcases hw with hi | hsame | ⟨e', he', hb'⟩
            · rw [hp.2.2] at hi
              cases hi
            · rw [hl, hs] at hsame
              cases hsame
              rfl
            · rw [hl] at he'
              cases he'
              exact absurd hb' hb

theorem upsertStep_read_of_none (h : c.pools.lookup call.pool = none)
    (state : CachedPoolState) :
    upsertStep env call c (.read state) =
      (c, .registerA ⟨.new state call.slot call.now, true, none⟩) := by
  unfold upsertStep
  dsimp only
  rw [prepareEntry_of_none h, h]

theorem upsertStep_read_of_behind {prev : CacheEntry} (h : c.pools.lookup call.pool = some prev)
    (hb : BehindSeen call.slot prev) (state : CachedPoolState) :
    upsertStep env call c (.read state) = (c, .done) := by
  unfold upsertStep
  dsimp only
  rw [prepareEntry_of_some h, if_pos hb]

theorem upsertStep_read_of_some {prev : CacheEntry} (h : c.pools.lookup call.pool = some prev)
    (hb : ¬ BehindSeen call.slot prev) (state : CachedPoolState) :
    upsertStep env call c (.read state) =
      (c, .registerA ⟨mergeEntry env prev state call.slot call.now, false, some prev⟩) := by
  unfold upsertStep
  dsimp only
  rw [prepareEntry_of_some h, if_neg hb, h]

/-- **A step of an upsert** that is undisturbed when it writes. -/
theorem upsertStep_spec {phase : UpsertPhase} (hs : phase.Sound env call filled c)
    (hw : ∀ p, phase = .write p → Race.WritesOverSeen c call p) :
    (upsertStep env call c phase).1.mintPrograms = c.mintPrograms ∧
      (upsertStep env call c phase).2.Sound env call filled (upsertStep env call c phase).1 ∧
      UpsertEffect env call filled (c.pools.lookup call.pool)
        ((upsertStep env call c phase).1.pools.lookup call.pool) phase
        (upsertStep env call c phase).2 := by
  cases phase with
  | programA state =>
      exact ⟨rfl, (fillTokenProgramB_fillTokenProgramA state).trans hs, .silent rfl rfl⟩
  | programB state => exact ⟨rfl, hs, .silent rfl rfl⟩
  | read state =>
      have hst : state = filled := hs
      subst hst
      rcases hl : c.pools.lookup call.pool with _ | prev
      · rw [upsertStep_read_of_none hl]
        exact ⟨rfl, ⟨rfl, rfl⟩, .silent rfl hl⟩
      · by_cases hb : BehindSeen call.slot prev
        · rw [upsertStep_read_of_behind hl hb]
          exact ⟨rfl, trivial, .refused rfl rfl ⟨prev, rfl, hb⟩ hl⟩
        · rw [upsertStep_read_of_some hl hb]
          exact ⟨rfl, ⟨hb, rfl, rfl⟩, .silent rfl hl⟩
  | registerA p => exact ⟨rfl, hs, .silent rfl rfl⟩
  | registerB p => exact ⟨rfl, hs, .silent rfl rfl⟩
  | write p => exact ⟨rfl, trivial, .wrote p rfl rfl (lookup_storeEntry hs (hw p rfl))⟩
  | done => exact ⟨rfl, trivial, .silent rfl rfl⟩

end IronCrab.Cache

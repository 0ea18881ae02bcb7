/-
  File:      IronCrab/Cache/Linearizable.lean
  Subject:   UNDISTURBED INTERLEAVINGS OF TWO CALLS ON ONE POOL ARE ONE OF THE TWO ORDERS.

  An upsert takes effect where it writes the row, or where it is refused. The other call takes
  effect

  * where it writes, when it is an upsert (`upsertRace_step`);
  * where it writes the account list, or already where it inserts the layout seed, since nobody
    writes the row before the list is in it (`setRace_step`);
  * where it writes the balance, when it is a tick. A tick that read the index before the upsert
    registered its vault counts as the first call even when it comes last, since it then writes
    nothing of this row (`tickRace_step`).

  **`race_linearizable`** puts the three together; `tick_lost` is an upsert with a newer tick
  between its two guards.
-/
import IronCrab.Cache.Race

namespace IronCrab.Cache

open Track (Pubkey)
open Machine Linearize LivePoolCache

variable {env : Ambient} {c₀ : LivePoolCache} {l : UpsertCall} {s : Race}

/-- The upsert of a call on the row of its pool. -/
def UpsertCall.onRow (env : Ambient) (c₀ : LivePoolCache) (call : UpsertCall) :
    Option CacheEntry → Option CacheEntry :=
  upsertRow env (c₀.fillTokenPrograms call.state) call.slot call.now

/-- An upsert's step by whether it takes effect. -/
theorem UpsertEffect.effect {call : UpsertCall} {filled : CachedPoolState}
    {row row' : Option CacheEntry} {phase phase' : UpsertPhase}
    (h : UpsertEffect env call filled row row' phase phase') :
    (phase'.isDone = phase.isDone ∧ row' = row) ∨
    phase.isDone = false ∧ phase'.isDone = true ∧
      row' = upsertRow env filled call.slot call.now row := by
  cases h with
  | silent done same => exact .inl ⟨done, same⟩
  | refused before after stale same =>
      obtain ⟨prev, hrow, hb⟩ := stale
      refine .inr ⟨before, by rw [after]; rfl, ?_⟩
      rw [same, hrow]
      exact (if_pos hb).symm
  | wrote p before after row_eq =>
      exact .inr ⟨by rw [before]; rfl, by rw [after]; rfl, row_eq⟩

/-- An undisturbed upsert writes over what it saw. -/
theorem writesOverSeen_of_undisturbed {c : LivePoolCache} {other : Thread} {call : UpsertCall}
    {phase : UpsertPhase} (h : Race.ThreadUndisturbed c other (.upsert call phase)) (p : Prepared)
    (hp : phase = .write p) : Race.WritesOverSeen c call p := by
  subst hp
  exact h.1

/-! ## 1. Upsert against upsert -/

/-- Two upserts of one pool on the way. -/
structure UpsertRace (env : Ambient) (c₀ : LivePoolCache) (l r : UpsertCall) (s : Race)
    (phL phR : UpsertPhase) : Prop where
  left : s.left = .upsert l phL
  right : s.right = .upsert r phR
  mint : s.cache.mintPrograms = c₀.mintPrograms
  soundL : phL.Sound env l (c₀.fillTokenPrograms l.state) s.cache
  soundR : phR.Sound env r (c₀.fillTokenPrograms r.state) s.cache
  row : Linearized (l.onRow env c₀) (r.onRow env c₀) (r.onRow env c₀)
    (c₀.pools.lookup l.pool) phL.isDone phR.isDone (s.cache.pools.lookup l.pool)

theorem upsertRace_step {r : UpsertCall} (hpool : r.pool = l.pool) {phL phR : UpsertPhase}
    (h : UpsertRace env c₀ l r s phL phR) (turn : Turn) (hu : s.Undisturbed turn) :
    ∃ phL' phR', UpsertRace env c₀ l r (s.step env turn) phL' phR' := by
  obtain ⟨hl, hr, hm, hsl, hsr, hrow⟩ := h
  cases turn with
  | left =>
      have hu' : Race.ThreadUndisturbed s.cache s.right (.upsert l phL) := hl ▸ hu
      obtain ⟨hm', hs', he⟩ := upsertStep_spec hsl (writesOverSeen_of_undisturbed hu')
      refine ⟨(upsertStep env l s.cache phL).2, phR, ?_⟩
      have hstep : s.step env .left = ⟨(upsertStep env l s.cache phL).1,
          .upsert l (upsertStep env l s.cache phL).2, s.right⟩ := by
        unfold Race.step
        rw [hl]
        rfl
      rw [hstep]
      refine ⟨rfl, hr, hm'.trans hm, hs', hsr.congr hm', ?_⟩
      show Linearized _ _ _ _ _ _ ((upsertStep env l s.cache phL).1.pools.lookup l.pool)
      rcases he.effect with ⟨hd, hsame⟩ | ⟨hb, ha, hw⟩
      · rw [hd, hsame]
        exact hrow
      · rw [hb] at hrow
        rw [ha, hw]
        exact hrow.stepLeft
  | right =>
      have hu' : Race.ThreadUndisturbed s.cache s.left (.upsert r phR) := hr ▸ hu
      obtain ⟨hm', hs', he⟩ := upsertStep_spec hsr (writesOverSeen_of_undisturbed hu')
      refine ⟨phL, (upsertStep env r s.cache phR).2, ?_⟩
      have hstep : s.step env .right = ⟨(upsertStep env r s.cache phR).1, s.left,
          .upsert r (upsertStep env r s.cache phR).2⟩ := by
        unfold Race.step
        rw [hr]
        rfl
      rw [hstep]
      refine ⟨hl, rfl, hm'.trans hm, hsl.congr hm', hs', ?_⟩
      show Linearized _ _ _ _ _ _ ((upsertStep env r s.cache phR).1.pools.lookup l.pool)
      rw [hpool] at he
      rcases he.effect with ⟨hd, hsame⟩ | ⟨hb, ha, hw⟩
      · rw [hd, hsame]
        exact hrow
      · rw [hb] at hrow
        rw [ha, hw]
        exact hrow.stepRight

/-! ## 2. Upsert against an account list -/

/-- The row with the list that the other thread is about to write into its own seed. -/
def viewRow (right : Thread) (row : Option CacheEntry) : Option CacheEntry :=
  match right with
  | .setWrite _ accounts true => accountsRow accounts row
  | _ => row

theorem viewRow_of_ne {right : Thread} (h : ∀ pool accounts, right ≠ .setWrite pool accounts true)
    (row : Option CacheEntry) : viewRow right row = row := by
  unfold viewRow
  split
  · exact absurd rfl (h _ _)
  · rfl

/-- Where the thread of an account list stands, and whether it has taken effect. -/
inductive SetSound (env : Ambient) (pool : Pubkey) (accounts : List Pubkey) (slot now : Nat)
    (c : LivePoolCache) : Thread → Bool → Prop where
  | check : SetSound env pool accounts slot now c (.setCheck pool accounts slot now) false
  | ensure : SetSound env pool accounts slot now c (.setEnsure pool accounts slot now) false
  | seed {seed : CachedPoolState} {phase : UpsertPhase}
      (layout : pumpAmmTxLayout accounts = some seed)
      (sound : phase.Sound env ⟨pool, seed, slot, now⟩ seed c) (running : phase.isDone = false)
      (insert : ∀ p, phase = .registerA p ∨ phase = .registerB p ∨ phase = .write p →
        p.preparedAsInsert = true) :
      SetSound env pool accounts slot now c (.setSeed ⟨pool, seed, slot, now⟩ accounts phase) false
  | write (row : (c.pools.lookup pool).isSome = true) :
      SetSound env pool accounts slot now c (.setWrite pool accounts false) false
  | seeded : SetSound env pool accounts slot now c (.setWrite pool accounts true) true
  | done : SetSound env pool accounts slot now c .done true

theorem SetSound.congr {pool : Pubkey} {accounts : List Pubkey} {slot now : Nat}
    {c c' : LivePoolCache} {t : Thread} {b : Bool} (h : SetSound env pool accounts slot now c t b)
    (hm : c'.mintPrograms = c.mintPrograms)
    (hrow : (c.pools.lookup pool).isSome = true → (c'.pools.lookup pool).isSome = true) :
    SetSound env pool accounts slot now c' t b := by
  cases h with
  | check => exact .check
  | ensure => exact .ensure
  | seed layout sound running insert => exact .seed layout (sound.congr hm) running insert
  | write row => exact .write (hrow row)
  | seeded => exact .seeded
  | done => exact .done

theorem lastSeenSlot_accountsEntry {e e' : CacheEntry} {accounts : List Pubkey}
    (h : accountsEntry e accounts = some e') : e'.lastSeenSlot = e.lastSeenSlot := by
  unfold accountsEntry at h
  split at h
  · cases Option.some.inj h
    rfl
  · cases h

/-- An upsert that is refused by a row is refused by it with the list in it. -/
theorem upsertRow_accountsRow {state : CachedPoolState} {slot now : Nat} {prev : CacheEntry}
    (hb : BehindSeen slot prev) (accounts : List Pubkey) :
    upsertRow env state slot now (accountsRow accounts (some prev)) =
      accountsRow accounts (some prev) := by
  unfold accountsRow
  rw [Option.map_some]
  refine if_pos ⟨hb.1, ?_⟩
  cases ha : accountsEntry prev accounts with
  | none => exact hb.2
  | some e' =>
      show slot < e'.lastSeenSlot
      rw [lastSeenSlot_accountsEntry ha]
      exact hb.2

theorem isSome_upsertRow (state : CachedPoolState) (slot now : Nat) (row : Option CacheEntry) :
    (upsertRow env state slot now row).isSome = true := by
  unfold upsertRow
  cases row with
  | none => rfl
  | some prev =>
      dsimp only
      split_ifs <;> rfl

theorem lookup_writeAccounts (pools : PoolMap) (pool : Pubkey) (accounts : List Pubkey) :
    (writeAccounts pools pool accounts).1.lookup pool =
      accountsRow accounts (pools.lookup pool) := by
  unfold writeAccounts accountsRow
  cases hl : pools.lookup pool with
  | none =>
      rw [Option.bind_none]
      exact hl
  | some e =>
      rw [Option.bind_some, Option.map_some]
      cases ha : accountsEntry e accounts with
      | none => exact hl
      | some e' => exact AList.lookup_insert _

/-- An upsert and an account list of one pool on the way; `g` is what the list does to a row. -/
structure SetRace (env : Ambient) (c₀ : LivePoolCache) (l : UpsertCall)
    (g : Option CacheEntry → Option CacheEntry) (accounts : List Pubkey) (slot now : Nat)
    (s : Race) (phL : UpsertPhase) (b : Bool) : Prop where
  left : s.left = .upsert l phL
  right : SetSound env l.pool accounts slot now s.cache s.right b
  effect : b = false → g = setRow accounts slot now
  mint : s.cache.mintPrograms = c₀.mintPrograms
  sound : phL.Sound env l (c₀.fillTokenPrograms l.state) s.cache
  row : Linearized (l.onRow env c₀) g g (c₀.pools.lookup l.pool) phL.isDone b
    (viewRow s.right (s.cache.pools.lookup l.pool))

theorem setRace_left {g : Option CacheEntry → Option CacheEntry} {accounts : List Pubkey}
    {slot now : Nat} {phL : UpsertPhase} {b : Bool}
    (h : SetRace env c₀ l g accounts slot now s phL b) (hu : s.Undisturbed .left) :
    ∃ phL' b', SetRace env c₀ l g accounts slot now (s.step env .left) phL' b' := by
  obtain ⟨hl, hr, hg, hm, hs, hrow⟩ := h
  have hu' : Race.ThreadUndisturbed s.cache s.right (.upsert l phL) := hl ▸ hu
  obtain ⟨hm', hs', he⟩ := upsertStep_spec hs (writesOverSeen_of_undisturbed hu')
  refine ⟨(upsertStep env l s.cache phL).2, b, ?_⟩
  have hstep : s.step env .left = ⟨(upsertStep env l s.cache phL).1,
      .upsert l (upsertStep env l s.cache phL).2, s.right⟩ := by
    unfold Race.step
    rw [hl]
    rfl
  rw [hstep]
  have hkept : (s.cache.pools.lookup l.pool).isSome = true →
      ((upsertStep env l s.cache phL).1.pools.lookup l.pool).isSome = true := by
    intro hsome
    rcases he.effect with ⟨_, hsame⟩ | ⟨_, _, hw⟩
    · rwa [hsame]
    · rw [hw]
      exact isSome_upsertRow _ _ _ _
  refine ⟨rfl, hr.congr hm' hkept, hg, hm'.trans hm, hs', ?_⟩
  show Linearized _ _ _ _ _ _ (viewRow s.right
    ((upsertStep env l s.cache phL).1.pools.lookup l.pool))
  cases he with
  | silent done same =>
      rw [done, same]
      exact hrow
  | refused before after stale same =>
      obtain ⟨prev, hprev, hb⟩ := stale
      rw [before] at hrow
      rw [after, same]
      have hview : l.onRow env c₀ (viewRow s.right (s.cache.pools.lookup l.pool)) =
          viewRow s.right (s.cache.pools.lookup l.pool) := by
        rw [hprev]
        unfold viewRow
        split
        · exact upsertRow_accountsRow hb _
        · exact if_pos hb
      rw [← hview]
      exact hrow.stepLeft
  | wrote p before after row_eq =>
      have hne : ∀ pool accounts, s.right ≠ .setWrite pool accounts true := by
        subst before
        exact hu'.2
      rw [viewRow_of_ne hne] at hrow ⊢
      rw [before] at hrow
      rw [after, row_eq]
      exact hrow.stepLeft

/-- A step in the upsert of the seed. -/
theorem step_setSeed (c : LivePoolCache) (call : UpsertCall) (accounts : List Pubkey)
    (phase : UpsertPhase) :
    Thread.step env c (.setSeed call accounts phase) = ((upsertStep env call c phase).1,
      if (upsertStep env call c phase).2.isDone then .setWrite call.pool accounts true
      else .setSeed call accounts (upsertStep env call c phase).2) := by
  unfold Thread.step
  dsimp only
  generalize upsertStep env call c phase = r
  obtain ⟨c', phase'⟩ := r
  cases phase' <;> rfl

/-- The seed's upsert prepares an insert as long as it finds no row. -/
theorem insert_upsertStep {call : UpsertCall} {phase : UpsertPhase} {c : LivePoolCache}
    (h : ∀ p, phase = .registerA p ∨ phase = .registerB p ∨ phase = .write p →
      p.preparedAsInsert = true)
    (hread : ∀ state, phase = .read state → c.pools.lookup call.pool = none) (p : Prepared)
    (hp : (upsertStep env call c phase).2 = .registerA p ∨
      (upsertStep env call c phase).2 = .registerB p ∨
      (upsertStep env call c phase).2 = .write p) : p.preparedAsInsert = true := by
  cases phase with
  | programA state => rcases hp with hp | hp | hp <;> cases hp
  | programB state => rcases hp with hp | hp | hp <;> cases hp
  | read state =>
      unfold upsertStep at hp
      dsimp only at hp
      rw [prepareEntry_of_none (hread state rfl)] at hp
      rcases hp with hp | hp | hp <;> cases hp
      rfl
  | registerA q =>
      rcases hp with hp | hp | hp <;> cases hp
      exact h _ (.inl rfl)
  | registerB q =>
      rcases hp with hp | hp | hp <;> cases hp
      exact h _ (.inr (.inl rfl))
  | write q => rcases hp with hp | hp | hp <;> cases hp
  | done => rcases hp with hp | hp | hp <;> cases hp

/-- A turn of the thread of an account list: silent, or what the list does to the row. -/
theorem setThread_step {pool : Pubkey} {accounts : List Pubkey} {slot now : Nat}
    {c : LivePoolCache} {t other : Thread} {b : Bool}
    (h : SetSound env pool accounts slot now c t b) (hu : Race.ThreadUndisturbed c other t) :
    (t.step env c).1.mintPrograms = c.mintPrograms ∧
      ∃ b', SetSound env pool accounts slot now (t.step env c).1 (t.step env c).2 b' ∧
        ((b' = b ∧ viewRow (t.step env c).2 ((t.step env c).1.pools.lookup pool) =
            viewRow t (c.pools.lookup pool)) ∨
          b = false ∧ b' = true ∧ viewRow (t.step env c).2 ((t.step env c).1.pools.lookup pool) =
            setRow accounts slot now (viewRow t (c.pools.lookup pool))) := by
  cases h with
  | check =>
      unfold Thread.step
      dsimp only
      split_ifs with hrow
      · exact ⟨rfl, false, .write hrow, .inl ⟨rfl, rfl⟩⟩
      · exact ⟨rfl, false, .ensure, .inl ⟨rfl, rfl⟩⟩
  | ensure =>
      unfold Thread.step
      dsimp only
      split_ifs with hrow
      · exact ⟨rfl, false, .write hrow, .inl ⟨rfl, rfl⟩⟩
      · cases hlay : pumpAmmTxLayout accounts with
        | none =>
            have hnone : c.pools.lookup pool = none := by
              cases hl : c.pools.lookup pool with
              | none => rfl
              | some e => rw [hl] at hrow; exact absurd rfl hrow
            refine ⟨rfl, true, .done, .inr ⟨rfl, rfl, ?_⟩⟩
            show c.pools.lookup pool = setRow accounts slot now (c.pools.lookup pool)
            rw [hnone]
            unfold setRow
            rw [hlay]
            rfl
        | some seed =>
            refine ⟨rfl, false, .seed hlay ?_ rfl ?_, .inl ⟨rfl, rfl⟩⟩
            · exact fillTokenPrograms_pumpAmmTxLayout hlay c
            · intro p hp
              rcases hp with hp | hp | hp <;> cases hp
  | @seed seed phase layout sound running insert =>
      have hread : ∀ state, phase = .read state → c.pools.lookup pool = none := by
        rintro state rfl
        exact hu
      have hw : ∀ p, phase = .write p → Race.WritesOverSeen c ⟨pool, seed, slot, now⟩ p :=
        fun p hp => .inl (insert p (.inr (.inr hp)))
      obtain ⟨hm', hs', he⟩ := upsertStep_spec sound hw
      rw [step_setSeed]
      dsimp only
      rcases he.effect with ⟨hd, hsame⟩ | ⟨_, hd, hrow⟩
      · rw [if_neg (by rw [hd, running]; decide)]
        refine ⟨hm', false, .seed layout hs' (hd.trans running) ?_, .inl ⟨rfl, hsame⟩⟩
        exact insert_upsertStep insert hread
      · rw [if_pos hd]
        refine ⟨hm', true, .seeded, .inr ⟨rfl, rfl, ?_⟩⟩
        have hnone : c.pools.lookup pool = none := by
          cases phase with
          | read state => exact hu
          | write p => exact hu
          | done => cases running
          | _ => cases hd
        show accountsRow accounts ((upsertStep env ⟨pool, seed, slot, now⟩ c phase).1.pools.lookup
          pool) = setRow accounts slot now (c.pools.lookup pool)
        have hrow' : (upsertStep env ⟨pool, seed, slot, now⟩ c phase).1.pools.lookup pool =
            upsertRow env seed slot now (c.pools.lookup pool) := hrow
        rw [hrow', hnone]
        unfold setRow
        rw [layout]
        rfl
  | write row =>
      obtain ⟨e, he⟩ := Option.isSome_iff_exists.mp row
      refine ⟨rfl, true, .done, .inr ⟨rfl, rfl, ?_⟩⟩
      show (writeAccounts c.pools pool accounts).1.lookup pool =
        setRow accounts slot now (c.pools.lookup pool)
      rw [lookup_writeAccounts, he]
      rfl
  | seeded =>
      refine ⟨rfl, true, .done, .inl ⟨rfl, ?_⟩⟩
      exact lookup_writeAccounts c.pools pool accounts
  | done => exact ⟨rfl, true, .done, .inl ⟨rfl, rfl⟩⟩

theorem setRace_step {g : Option CacheEntry → Option CacheEntry} {accounts : List Pubkey}
    {slot now : Nat} {phL : UpsertPhase} {b : Bool}
    (h : SetRace env c₀ l g accounts slot now s phL b) (turn : Turn) (hu : s.Undisturbed turn) :
    ∃ phL' b', SetRace env c₀ l g accounts slot now (s.step env turn) phL' b' := by
  cases turn with
  | left => exact setRace_left h hu
  | right =>
      obtain ⟨hl, hr, hg, hm, hs, hrow⟩ := h
      obtain ⟨hm', b', hr', he⟩ := setThread_step hr hu
      refine ⟨phL, b', hl, hr', fun hb' => hg ?_, hm'.trans hm, hs.congr hm', ?_⟩
      · rcases he with ⟨hsame, _⟩ | ⟨_, htrue, _⟩
        · exact hsame.symm.trans hb'
        · rw [htrue] at hb'
          cases hb'
      · show Linearized _ _ _ _ _ _ (viewRow (s.right.step env s.cache).2
          ((s.right.step env s.cache).1.pools.lookup l.pool))
        rcases he with ⟨hsame, hview⟩ | ⟨hfalse, htrue, hview⟩
        · rw [hsame, hview]
          exact hrow
        · rw [hfalse] at hrow
          rw [htrue, hview, ← hg hfalse]
          exact hrow.stepRight

/-! ## 3. Upsert against a tick -/

/-- What an upsert that has prepared carries along. -/
def UpsertPhase.prepared : UpsertPhase → Option Prepared
  | .registerA p | .registerB p | .write p => some p
  | _ => none

/-- The index while an upsert is on its way alone. -/
def indexAt (env : Ambient) (c₀ : LivePoolCache) (l : UpsertCall) : UpsertPhase → VaultIndex
  | .registerB p => registerVault c₀.vaultToPool l.pool p.entryToStore.state .a
  | .write p => registerVaults c₀.vaultToPool l.pool p.entryToStore.state
  | .done => (c₀.runCall env (.upsert l)).vaultToPool
  | _ => c₀.vaultToPool

/-- A balance update: vault, balance, slot and time. -/
structure TickCall where
  vault : Pubkey
  balance : Nat
  slot : Nat
  now : Nat

/-- A tick on the row of a pool, by the index of a cache. -/
def TickCall.onRow (t : TickCall) (pool : Pubkey) (c : LivePoolCache) :
    Option CacheEntry → Option CacheEntry :=
  tickRow pool (c.vaultToPool.lookup t.vault) t.balance t.slot t.now

theorem lookup_tickPools_pool (pools : PoolMap) (q pool : Pubkey) (position : VaultPosition)
    (balance slot now : Nat) :
    (tickPools pools q position balance slot now).lookup pool =
      tickRow pool (some (q, position)) balance slot now (pools.lookup pool) := by
  rw [lookup_tickPools]
  unfold tickRow
  dsimp only
  by_cases hq : q = pool
  · rw [if_pos hq.symm, if_pos hq]
  · rw [if_neg fun h => hq h.symm, if_neg hq]

/-- A tick of a vault that is not mapped to the pool leaves its row. -/
theorem TickCall.onRow_of_unmapped {t : TickCall} {pool : Pubkey} {c : LivePoolCache}
    (h : ∀ x, c.vaultToPool.lookup t.vault ≠ some (pool, x)) (row : Option CacheEntry) :
    t.onRow pool c row = row := by
  unfold TickCall.onRow tickRow
  cases hix : c.vaultToPool.lookup t.vault with
  | none => rfl
  | some target =>
      obtain ⟨q, x⟩ := target
      refine if_neg ?_
      rintro rfl
      exact h x hix

/-- Before the tick has taken effect: its vault stays where it was mapped, and the upsert is on its
    way alone. -/
structure TickPending (env : Ambient) (c₀ : LivePoolCache) (l : UpsertCall) (t : TickCall)
    (s : Race) (phL : UpsertPhase) : Prop where
  left : s.left = .upsert l phL
  right : s.right = .tickRead t.vault t.balance t.slot t.now ∨
    ∃ q x, s.right = .tickWrite t.vault q x t.balance t.slot t.now ∧
      (q = l.pool → s.cache.vaultToPool.lookup t.vault = some (q, x)) ∧
      (q ≠ l.pool → ∀ y, c₀.vaultToPool.lookup t.vault ≠ some (l.pool, y))
  index : s.cache.vaultToPool = indexAt env c₀ l phL
  stays : ∀ x, c₀.vaultToPool.lookup t.vault = some (l.pool, x) →
    s.cache.vaultToPool.lookup t.vault = some (l.pool, x)
  seen : ∀ p, phL.prepared = some p → p.seen = c₀.pools.lookup l.pool
  mint : s.cache.mintPrograms = c₀.mintPrograms
  sound : phL.Sound env l (c₀.fillTokenPrograms l.state) s.cache
  row : s.cache.pools.lookup l.pool = if phL.isDone then l.onRow env c₀ (c₀.pools.lookup l.pool)
    else c₀.pools.lookup l.pool

/-- The upsert is about to write over another row than the one it merged over. -/
structure Doomed (l : UpsertCall) (row : Option CacheEntry) (phL : UpsertPhase) (p : Prepared)
    (prev e : CacheEntry) : Prop where
  prepared : phL.prepared = some p
  update : p.preparedAsInsert = false
  seen : p.seen = some prev
  found : row = some e
  other : e ≠ prev
  fresh : ¬ BehindSeen l.slot e

/-- After the tick has taken effect. -/
structure TickDone (env : Ambient) (c₀ : LivePoolCache) (l : UpsertCall) (t : TickCall)
    (s : Race) (phL : UpsertPhase) : Prop where
  left : s.left = .upsert l phL
  right : s.right = .done ∨ ∃ q x, s.right = .ticked q x t.balance
  mint : s.cache.mintPrograms = c₀.mintPrograms
  sound : phL.Sound env l (c₀.fillTokenPrograms l.state) s.cache
  row : Linearized (l.onRow env c₀) (t.onRow l.pool c₀)
      (t.onRow l.pool (c₀.runCall env (.upsert l))) (c₀.pools.lookup l.pool) phL.isDone true
      (s.cache.pools.lookup l.pool) ∨
    ∃ p prev e, Doomed l (s.cache.pools.lookup l.pool) phL p prev e
  stands : ∀ x, s.right = .ticked l.pool x t.balance → 0 < l.slot → l.state.reported x = none →
    (∀ prev, c₀.pools.lookup l.pool = some prev → l.state.dexName = prev.state.dexName) →
    ∃ e, s.cache.pools.lookup l.pool = some e ∧ e.state.sideBalance x = some t.balance ∧
      (phL.isDone = false → l.state.dexName = e.state.dexName)

/-- Registering in place leaves a vault on its side. -/
theorem lookup_registerVault_stays {c : LivePoolCache} {other : Thread} {p : Prepared}
    {pos x : VaultPosition} {vault : Pubkey} (hother : other.tickVault = some vault)
    (hu : Race.RegistersInPlace c other l p pos)
    (h : c.vaultToPool.lookup vault = some (l.pool, x)) :
    (registerVault c.vaultToPool l.pool p.entryToStore.state pos).lookup vault =
      some (l.pool, x) := by
  unfold registerVault
  cases hp : p.entryToStore.state.vaultPair with
  | none => exact h
  | some pair =>
      dsimp only
      by_cases hv : pos.pick pair.1 pair.2 = vault
      · have hne := hu vault pair hother hp hv
        rw [h] at hne
        subst hv
        rw [AList.lookup_insert]
        cases pos <;> cases x <;> first | rfl | exact absurd rfl hne
      · rw [AList.lookup_insert_ne fun hk => hv hk.symm]
        exact h

/-- The row and the index after the upsert alone. -/
theorem runCall_upsert_vaultToPool {c : LivePoolCache} {p : Prepared}
    (hp : p.Of env l (c.fillTokenPrograms l.state)) (hs : p.seen = c.pools.lookup l.pool) :
    (c.runCall env (.upsert l)).vaultToPool =
      registerVaults c.vaultToPool l.pool p.entryToStore.state := by
  have hstored : storedEntry env c l.pool l.state l.slot l.now = some p.entryToStore := by
    unfold Prepared.Of at hp
    rw [hs] at hp
    cases hl : c.pools.lookup l.pool with
    | none =>
        rw [hl] at hp
        rw [storedEntry_of_none hl, hp.1]
    | some prev =>
        rw [hl] at hp
        rw [storedEntry_of_some hl, if_neg hp.1, hp.2.1]
  show (c.upsert env l.pool l.state l.slot l.now).1.vaultToPool = _
  rw [upsert_eq, hstored]

theorem runCall_upsert_refused {c : LivePoolCache} {prev : CacheEntry}
    (h : c.pools.lookup l.pool = some prev) (hb : BehindSeen l.slot prev) :
    (c.runCall env (.upsert l)).vaultToPool = c.vaultToPool := by
  show (c.upsert env l.pool l.state l.slot l.now).1.vaultToPool = _
  rw [upsert_eq, storedEntry_of_some h, if_pos hb]

theorem step_left_upsert {phL : UpsertPhase} (h : s.left = .upsert l phL) :
    s.step env .left = ⟨(upsertStep env l s.cache phL).1,
      .upsert l (upsertStep env l s.cache phL).2, s.right⟩ := by
  unfold Race.step
  rw [h]
  rfl

/-- A turn of the upsert while the tick has not taken effect. -/
theorem tickPending_left {t : TickCall} {phL : UpsertPhase} (h : TickPending env c₀ l t s phL)
    (hu : s.Undisturbed .left) :
    ∃ phL', TickPending env c₀ l t (s.step env .left) phL' := by
  obtain ⟨hl, hr, hix, hst, hseen, hm, hs, hrow⟩ := h
  have hu' : Race.ThreadUndisturbed s.cache s.right (.upsert l phL) := hl ▸ hu
  have hvault : s.right.tickVault = some t.vault := by
    rcases hr with hr | ⟨q, x, hr, _⟩ <;> rw [hr] <;> rfl
  obtain ⟨hm', hs', he⟩ := upsertStep_spec hs (writesOverSeen_of_undisturbed hu')
  rw [step_left_upsert hl]
  cases phL with
  | programA state => exact ⟨_, rfl, hr, hix, hst, fun _ hp => (nomatch hp), hm, hs', hrow⟩
  | programB state => exact ⟨_, rfl, hr, hix, hst, fun _ hp => (nomatch hp), hm, hs', hrow⟩
  | read state =>
      have hst' : state = c₀.fillTokenPrograms l.state := hs
      subst hst'
      have hrow₀ : s.cache.pools.lookup l.pool = c₀.pools.lookup l.pool := hrow
      rcases hlk : s.cache.pools.lookup l.pool with _ | prev
      · rw [upsertStep_read_of_none hlk] at hs' ⊢
        refine ⟨_, rfl, hr, hix, hst, ?_, hm, hs', hrow⟩
        rintro p hp
        cases Option.some.inj hp
        exact hlk.symm.trans hrow₀
      · by_cases hb : BehindSeen l.slot prev
        · rw [upsertStep_read_of_behind hlk hb]
          refine ⟨.done, rfl, hr, ?_, hst, fun _ hp => (nomatch hp), hm, trivial, ?_⟩
          · exact hix.trans (runCall_upsert_refused (hrow₀.symm.trans hlk) hb).symm
          · show s.cache.pools.lookup l.pool = l.onRow env c₀ (c₀.pools.lookup l.pool)
            rw [← hrow₀, hlk]
            exact (if_pos hb).symm
        · rw [upsertStep_read_of_some hlk hb] at hs' ⊢
          refine ⟨_, rfl, hr, hix, hst, ?_, hm, hs', hrow⟩
          rintro p hp
          cases Option.some.inj hp
          exact hlk.symm.trans hrow₀
  | registerA p =>
      have hstays := fun x => lookup_registerVault_stays (x := x) hvault hu'
      refine ⟨.registerB p, rfl, ?_, ?_, fun x hx => hstays x (hst x hx), hseen, hm, hs, hrow⟩
      · rcases hr with hr | ⟨q, x, hr, hq, hn⟩
        · exact .inl hr
        · refine .inr ⟨q, x, hr, fun hqp => ?_, hn⟩
          subst hqp
          exact hstays x (hq rfl)
      · have hix' : s.cache.vaultToPool = c₀.vaultToPool := hix
        show registerVault s.cache.vaultToPool l.pool p.entryToStore.state .a = _
        rw [hix']
        rfl
  | registerB p =>
      have hstays := fun x => lookup_registerVault_stays (x := x) hvault hu'
      refine ⟨.write p, rfl, ?_, ?_, fun x hx => hstays x (hst x hx), hseen, hm, hs, hrow⟩
      · rcases hr with hr | ⟨q, x, hr, hq, hn⟩
        · exact .inl hr
        · refine .inr ⟨q, x, hr, fun hqp => ?_, hn⟩
          subst hqp
          exact hstays x (hq rfl)
      · have hix' : s.cache.vaultToPool =
            registerVault c₀.vaultToPool l.pool p.entryToStore.state .a := hix
        show registerVault s.cache.vaultToPool l.pool p.entryToStore.state .b = _
        rw [hix']
        exact (registerVaults_eq _ _ _).symm
  | write p =>
      refine ⟨.done, rfl, hr, ?_, hst, fun _ hp => (nomatch hp), hm, trivial, ?_⟩
      · exact hix.trans (runCall_upsert_vaultToPool hs (hseen p rfl)).symm
      · have hrow₀ : s.cache.pools.lookup l.pool = c₀.pools.lookup l.pool := hrow
        have hw := lookup_storeEntry hs (writesOverSeen_of_undisturbed hu' p rfl)
        rw [hrow₀] at hw
        exact hw
  | done => exact ⟨.done, rfl, hr, hix, hst, hseen, hm, trivial, hrow⟩

/-- A tick that writes a row. -/
theorem tickRow_of_ticked (pool : Pubkey) {x : VaultPosition} {balance slot now : Nat}
    {row : Option CacheEntry}
    (h : (row.bind fun e => tickEntry e x balance slot now).isSome = true) :
    ∃ prev e, row = some prev ∧ tickEntry prev x balance slot now = some e ∧
      tickRow pool (some (pool, x)) balance slot now row = some e := by
  cases row with
  | none => cases h
  | some prev =>
      obtain ⟨e, he⟩ := Option.isSome_iff_exists.mp h
      have hentry : tickEntry prev x balance slot now = some e := he
      refine ⟨prev, e, rfl, hentry, ?_⟩
      unfold tickRow
      dsimp only
      rw [if_pos rfl, Option.map_some, hentry]
      rfl

/-- A tick that writes nothing leaves the row. -/
theorem tickRow_of_silent {pool : Pubkey} {x : VaultPosition} {balance slot now : Nat}
    {row : Option CacheEntry}
    (h : ¬ (row.bind fun e => tickEntry e x balance slot now).isSome = true) :
    tickRow pool (some (pool, x)) balance slot now row = row := by
  unfold tickRow
  dsimp only
  rw [if_pos rfl]
  cases row with
  | none => rfl
  | some prev =>
      rw [Option.map_some]
      cases ht : tickEntry prev x balance slot now with
      | none => rfl
      | some e =>
          refine absurd ?_ h
          rw [Option.bind_some, ht]
          rfl

/-- A tick that leaves the row is the first of the two calls. -/
theorem linearized_of_unmapped {t : TickCall} {b : Bool} {row : Option CacheEntry}
    (hunmapped : ∀ x, c₀.vaultToPool.lookup t.vault ≠ some (l.pool, x))
    (h : row = if b then l.onRow env c₀ (c₀.pools.lookup l.pool) else c₀.pools.lookup l.pool) :
    Linearized (l.onRow env c₀) (t.onRow l.pool c₀)
      (t.onRow l.pool (c₀.runCall env (.upsert l))) (c₀.pools.lookup l.pool) b true row := by
  have hid := TickCall.onRow_of_unmapped hunmapped (c₀.pools.lookup l.pool)
  rw [h]
  cases b with
  | false =>
      have hright : Linearized (l.onRow env c₀) (t.onRow l.pool c₀)
          (t.onRow l.pool (c₀.runCall env (.upsert l))) (c₀.pools.lookup l.pool) false true
          (t.onRow l.pool c₀ (c₀.pools.lookup l.pool)) := .right
      rwa [hid] at hright
  | true =>
      have hboth : Linearized (l.onRow env c₀) (t.onRow l.pool c₀)
          (t.onRow l.pool (c₀.runCall env (.upsert l))) (c₀.pools.lookup l.pool) true true
          (l.onRow env c₀ (t.onRow l.pool c₀ (c₀.pools.lookup l.pool))) := .rightLeft
      rwa [hid] at hboth

/-- Only an upsert that has registered its first vault has moved the index. -/
theorem prepared_of_index_ne {phL : UpsertPhase} (hdone : phL.isDone = false)
    (h : indexAt env c₀ l phL ≠ c₀.vaultToPool) : ∃ p, phL.prepared = some p := by
  cases phL with
  | registerB p => exact ⟨p, rfl⟩
  | write p => exact ⟨p, rfl⟩
  | done => cases hdone
  | _ => exact absurd rfl h

/-- A tick that writes the row of the pool takes effect, or the upsert is about to write over it. -/
theorem tickPending_write {t : TickCall} {phL : UpsertPhase} {x : VaultPosition}
    (h : TickPending env c₀ l t s phL)
    (hx : s.cache.vaultToPool.lookup t.vault = some (l.pool, x)) {row' : Option CacheEntry}
    (hrow' : row' = tickRow l.pool (some (l.pool, x)) t.balance t.slot t.now
      (s.cache.pools.lookup l.pool)) :
    Linearized (l.onRow env c₀) (t.onRow l.pool c₀)
      (t.onRow l.pool (c₀.runCall env (.upsert l))) (c₀.pools.lookup l.pool) phL.isDone true row' ∨
    ∃ p prev e, Doomed l row' phL p prev e := by
  obtain ⟨_, _, hix, hst, hseen, _, hs, hrow⟩ := h
  cases hd : phL.isDone with
  | true =>
      -- the upsert has returned: the tick goes by its index
      have hix' : s.cache.vaultToPool = (c₀.runCall env (.upsert l)).vaultToPool := by
        cases phL <;> first | exact hix | cases hd
      rw [hd, if_pos rfl] at hrow
      have hafter : row' = t.onRow l.pool (c₀.runCall env (.upsert l))
          (l.onRow env c₀ (c₀.pools.lookup l.pool)) := by
        unfold TickCall.onRow
        rw [← hix', hx, hrow', hrow]
      rw [hafter]
      exact .inl .leftRight
  | false =>
      rw [hd, if_neg (by decide)] at hrow
      rw [hrow] at hrow'
      by_cases hm : ∃ y, c₀.vaultToPool.lookup t.vault = some (l.pool, y)
      · obtain ⟨y, hy⟩ := hm
        have hyx : y = x := by
          have := (hst y hy).symm.trans hx
          cases this
          rfl
        subst hyx
        have hfirst : row' = t.onRow l.pool c₀ (c₀.pools.lookup l.pool) := by
          unfold TickCall.onRow
          rw [hy, hrow']
        rw [hfirst]
        exact .inl .right
      · have hunmapped : ∀ y, c₀.vaultToPool.lookup t.vault ≠ some (l.pool, y) :=
          fun y hy => hm ⟨y, hy⟩
        by_cases hsame : row' = c₀.pools.lookup l.pool
        · exact .inl (linearized_of_unmapped hunmapped hsame)
        · -- the upsert has registered the vault, and merged over the row before the tick
          refine .inr ?_
          have hmoved : indexAt env c₀ l phL ≠ c₀.vaultToPool := by
            intro heq
            rw [← hix] at heq
            rw [heq] at hx
            exact hunmapped x hx
          obtain ⟨p, hp⟩ := prepared_of_index_ne hd hmoved
          have hwrites : ((c₀.pools.lookup l.pool).bind fun e =>
              tickEntry e x t.balance t.slot t.now).isSome = true := by
            refine Classical.byContradiction fun hn => hsame ?_
            rw [hrow', tickRow_of_silent hn]
          obtain ⟨prev, e, hprev, he, hset⟩ := tickRow_of_ticked l.pool hwrites
          have hof : p.Of env l (c₀.fillTokenPrograms l.state) := by
            cases phL <;> first | (cases Option.some.inj hp; exact hs) | cases hp
          have hpseen : p.seen = some prev := (hseen p hp).trans hprev
          unfold Prepared.Of at hof
          rw [hpseen] at hof
          obtain ⟨_, _, rfl⟩ := tickEntry_eq_some.mp he
          refine ⟨p, prev, _, hp, hof.2.2, hpseen, hrow'.trans hset, ?_, hof.1⟩
          intro heq
          exact hsame (hrow'.trans (hset.trans ((congrArg some heq).trans hprev.symm)))

/-- A turn of the tick before it has taken effect. -/
theorem tickPending_right {t : TickCall} {phL : UpsertPhase} (h : TickPending env c₀ l t s phL) :
    TickPending env c₀ l t (s.step env .right) phL ∨ TickDone env c₀ l t (s.step env .right) phL := by
  have hpending := h
  obtain ⟨hl, hr, hix, hst, hseen, hm, hs, hrow⟩ := h
  rcases hr with hr | ⟨q, x, hr, hq, hn⟩
  · cases hlk : s.cache.vaultToPool.lookup t.vault with
    | none =>
        refine .inr ?_
        have hstep : s.step env .right = ⟨s.cache, s.left, .done⟩ := by
          unfold Race.step Thread.step
          rw [hr]
          dsimp only
          rw [hlk]
        have hunmapped : ∀ y, c₀.vaultToPool.lookup t.vault ≠ some (l.pool, y) := by
          intro y hy
          rw [hst y hy] at hlk
          cases hlk
        rw [hstep]
        exact ⟨hl, .inl rfl, hm, hs, .inl (linearized_of_unmapped hunmapped hrow),
          fun _ hx => (nomatch hx)⟩
    | some target =>
        obtain ⟨q, x⟩ := target
        refine .inl ?_
        have hstep : s.step env .right =
            ⟨s.cache, s.left, .tickWrite t.vault q x t.balance t.slot t.now⟩ := by
          unfold Race.step Thread.step
          rw [hr]
          dsimp only
          rw [hlk]
        rw [hstep]
        refine ⟨hl, .inr ⟨q, x, rfl, fun _ => hlk, fun hne y hy => ?_⟩, hix, hst, hseen, hm, hs,
          hrow⟩
        rw [hst y hy] at hlk
        cases hlk
        exact hne rfl
  · refine .inr ?_
    have hstep : s.step env .right =
        ⟨{ s.cache with pools := tickPools s.cache.pools q x t.balance t.slot t.now }, s.left,
          if ((s.cache.pools.lookup q).bind fun e => tickEntry e x t.balance t.slot t.now).isSome
          then .ticked q x t.balance else .done⟩ := by
      unfold Race.step Thread.step
      rw [hr]
    have hlookup := lookup_tickPools_pool s.cache.pools q l.pool x t.balance t.slot t.now
    rw [hstep]
    refine ⟨hl, ?_, hm, hs.congr rfl, ?_, ?_⟩
    · dsimp only
      split_ifs
      · exact .inr ⟨q, x, rfl⟩
      · exact .inl rfl
    · by_cases hqp : q = l.pool
      · subst hqp
        exact tickPending_write hpending (hq rfl) hlookup
      · refine .inl (linearized_of_unmapped (hn hqp) ?_)
        refine Eq.trans ?_ hrow
        show (tickPools s.cache.pools q x t.balance t.slot t.now).lookup l.pool = _
        rw [hlookup]
        exact if_neg hqp
    · intro y hy _ _ hdex
      dsimp only at hy ⊢
      split_ifs at hy with hwrites
      cases hy
      obtain ⟨prev, e, hprev, he, hset⟩ := tickRow_of_ticked l.pool hwrites
      refine ⟨e, hlookup.trans hset, ?_, fun hd => ?_⟩
      · obtain ⟨⟨hpair, _⟩, _, rfl⟩ := tickEntry_eq_some.mp he
        exact CachedPoolState.sideBalance_writeBalance_self hpair _ _
      · rw [hd, if_neg (by decide)] at hrow
        obtain ⟨_, _, rfl⟩ := tickEntry_eq_some.mp he
        rw [CachedPoolState.dexName_writeBalance]
        exact hdex prev (hrow.symm.trans hprev)

/-- A row that an upsert merges over keeps the side that the upsert does not report. -/
theorem upsertRow_keeps (env : Ambient) (c : LivePoolCache) {e : CacheEntry} {x : VaultPosition} {balance : Nat}
    (hx : e.state.sideBalance x = some balance) (hslot : 0 < l.slot)
    (hrep : l.state.reported x = none) (hdex : l.state.dexName = e.state.dexName) :
    ∃ e', upsertRow env (c.fillTokenPrograms l.state) l.slot l.now (some e) = some e' ∧
      e'.state.sideBalance x = some balance := by
  by_cases hb : BehindSeen l.slot e
  · exact ⟨e, if_pos hb, hx⟩
  · refine ⟨_, if_neg hb, ?_⟩
    refine Eq.trans ?_ hx
    refine CachedPoolState.sideBalance_merge_of_silent ?_ ?_ hslot
    · rw [dexName_fillTokenPrograms]
      exact hdex
    · rw [reported_fillTokenPrograms]
      exact hrep

/-- A doomed upsert stays so until it writes. -/
theorem Doomed.step {c : LivePoolCache} {phL : UpsertPhase} {p : Prepared} {prev e : CacheEntry}
    (h : Doomed l (c.pools.lookup l.pool) phL p prev e)
    (hw : ∀ p, phL = .write p → Race.WritesOverSeen c l p) :
    Doomed l ((upsertStep env l c phL).1.pools.lookup l.pool) (upsertStep env l c phL).2 p prev
      e := by
  obtain ⟨hp, hupd, hseen, hfound, hother, hfresh⟩ := h
  cases phL with
  | registerA q => exact ⟨hp, hupd, hseen, hfound, hother, hfresh⟩
  | registerB q => exact ⟨hp, hupd, hseen, hfound, hother, hfresh⟩
  | write q =>
      cases Option.some.inj hp
      rcases hw _ rfl with hi | hsame | ⟨e', he', hb⟩
      · rw [hupd] at hi
        cases hi
      · rw [hfound, hseen] at hsame
        exact absurd (Option.some.inj hsame) hother
      · rw [hfound] at he'
        cases he'
        exact absurd hb hfresh
  | _ => cases hp

/-- A turn of the upsert after the tick has taken effect. -/
theorem tickDone_left {t : TickCall} {phL : UpsertPhase} (h : TickDone env c₀ l t s phL)
    (hu : s.Undisturbed .left) : ∃ phL', TickDone env c₀ l t (s.step env .left) phL' := by
  obtain ⟨hl, hr, hm, hs, hrow, hst⟩ := h
  have hu' : Race.ThreadUndisturbed s.cache s.right (.upsert l phL) := hl ▸ hu
  have hw := writesOverSeen_of_undisturbed hu'
  obtain ⟨hm', hs', he⟩ := upsertStep_spec hs hw
  refine ⟨(upsertStep env l s.cache phL).2, ?_⟩
  rw [step_left_upsert hl]
  refine ⟨rfl, hr, hm'.trans hm, hs', ?_, ?_⟩
  · show Linearized _ _ _ _ _ _ ((upsertStep env l s.cache phL).1.pools.lookup l.pool) ∨ _
    rcases hrow with hrow | ⟨p, prev, e, hdoom⟩
    · refine .inl ?_
      rcases he.effect with ⟨hd, hsame⟩ | ⟨hb, ha, hwrite⟩
      · rw [hd, hsame]
        exact hrow
      · rw [hb] at hrow
        rw [ha, hwrite]
        exact hrow.stepLeft
    · exact .inr ⟨p, prev, e, hdoom.step hw⟩
  · intro x hx hslot hrep hdex
    obtain ⟨e, hfound, hbal, hty⟩ := hst x hx hslot hrep hdex
    show ∃ e', (upsertStep env l s.cache phL).1.pools.lookup l.pool = some e' ∧ _
    cases he with
    | silent done same => exact ⟨e, same.trans hfound, hbal, fun hd => hty (done.symm.trans hd)⟩
    | refused before after stale same =>
        exact ⟨e, same.trans hfound, hbal, fun _ => hty before⟩
    | wrote p before after row_eq =>
        have hrunning : phL.isDone = false := by
          rw [before]
          rfl
        obtain ⟨e', he', hbal'⟩ := upsertRow_keeps env c₀ hbal hslot hrep (hty hrunning)
        rw [row_eq, hfound, after]
        exact ⟨e', he', hbal', fun hd => (nomatch hd)⟩

/-- A tick that has returned does nothing. -/
theorem tickDone_right {t : TickCall} {phL : UpsertPhase} (h : TickDone env c₀ l t s phL) :
    TickDone env c₀ l t (s.step env .right) phL := by
  have hstep : s.step env .right = s := by
    obtain ⟨c, left, right⟩ := s
    rcases h.right with hr | ⟨q, x, hr⟩ <;> (cases hr; rfl)
  rw [hstep]
  exact h

/-- Where the race of an upsert and a tick stands. -/
def TickRace (env : Ambient) (c₀ : LivePoolCache) (l : UpsertCall) (t : TickCall) (s : Race) :
    Prop :=
  ∃ phL, TickPending env c₀ l t s phL ∨ TickDone env c₀ l t s phL

theorem tickRace_step {t : TickCall} (h : TickRace env c₀ l t s) (turn : Turn)
    (hu : s.Undisturbed turn) : TickRace env c₀ l t (s.step env turn) := by
  obtain ⟨phL, h | h⟩ := h
  · cases turn with
    | left =>
        obtain ⟨phL', h'⟩ := tickPending_left h hu
        exact ⟨phL', .inl h'⟩
    | right => exact ⟨phL, tickPending_right h⟩
  · cases turn with
    | left =>
        obtain ⟨phL', h'⟩ := tickDone_left h hu
        exact ⟨phL', .inr h'⟩
    | right => exact ⟨phL, .inr (tickDone_right h)⟩

/-! ## 4. Every interleaving -/

/-- A call that writes the row of a pool, or that ticks some vault. -/
def RowCall.Concerns (pool : Pubkey) : RowCall → Prop
  | .upsert call => call.pool = pool
  | .updateVaultBalance _ _ _ _ => True
  | .setPumpAmmPoolAccounts q _ _ _ => q = pool

/-- The row after the call alone. -/
def RowCall.alone (env : Ambient) (c : LivePoolCache) (pool : Pubkey) :
    RowCall → Option CacheEntry → Option CacheEntry
  | .upsert call => call.onRow env c
  | .updateVaultBalance vault balance slot now =>
      TickCall.onRow ⟨vault, balance, slot, now⟩ pool c
  | .setPumpAmmPoolAccounts _ accounts slot now =>
      if pumpAmmLayerCComplete pool accounts then
        setRow (pumpAmmNormalizeV14PoolAccounts env accounts).1 slot now
      else id

theorem lookup_runCall_upsert (c : LivePoolCache) :
    (c.runCall env (.upsert l)).pools.lookup l.pool =
      l.onRow env c (c.pools.lookup l.pool) :=
  lookup_upsert_self l.pool l.state l.slot l.now

theorem onRow_congr {c c' : LivePoolCache} (h : c'.mintPrograms = c.mintPrograms) :
    l.onRow env c' = l.onRow env c := by
  unfold UpsertCall.onRow
  rw [fillTokenPrograms_congr h]

theorem ensurePumpAmmTxLayoutFromAccounts_mintPrograms (c : LivePoolCache) (pool : Pubkey)
    (accounts : List Pubkey) (slot now : Nat) :
    (c.ensurePumpAmmTxLayoutFromAccounts env pool accounts slot now).1.mintPrograms =
      c.mintPrograms := by
  unfold ensurePumpAmmTxLayoutFromAccounts
  split_ifs
  · rfl
  · split
    · rfl
    · exact upsert_mintPrograms _ _ _ _

theorem runCall_mintPrograms (c : LivePoolCache) (call : RowCall) :
    (c.runCall env call).mintPrograms = c.mintPrograms := by
  cases call with
  | upsert call => exact upsert_mintPrograms _ _ _ _
  | updateVaultBalance vault balance slot now => exact updateVaultBalance_mintPrograms _ _ _ _
  | setPumpAmmPoolAccounts pool accounts slot now =>
      unfold runCall
      dsimp only
      rw [setPumpAmmPoolAccountsAtSlot_eq]
      dsimp only
      split_ifs
      · exact ensurePumpAmmTxLayoutFromAccounts_mintPrograms _ _ _ _ _
      · exact ensurePumpAmmTxLayoutFromAccounts_mintPrograms _ _ _ _ _
      · rfl

/-- The row after `set_pump_amm_pool_accounts_at_slot`. -/
theorem lookup_setPumpAmmPoolAccountsAtSlot (c : LivePoolCache) (pool : Pubkey)
    (accounts : List Pubkey) (slot now : Nat) (h : pumpAmmLayerCComplete pool accounts = true) :
    (c.setPumpAmmPoolAccountsAtSlot env pool accounts slot now).1.pools.lookup pool =
      setRow (pumpAmmNormalizeV14PoolAccounts env accounts).1 slot now (c.pools.lookup pool) := by
  rw [setPumpAmmPoolAccountsAtSlot_eq, if_pos h]
  dsimp only
  generalize (pumpAmmNormalizeV14PoolAccounts env accounts).1 = accounts'
  rcases hrow : c.pools.lookup pool with _ | e
  · have hnone : (c.pools.lookup pool).isSome = false := by rw [hrow]; rfl
    unfold setRow ensurePumpAmmTxLayoutFromAccounts
    rw [hnone, if_neg Bool.false_ne_true]
    cases hlay : pumpAmmTxLayout accounts' with
    | none => exact hrow
    | some seed =>
        dsimp only
        rw [if_pos rfl, lookup_writeAccounts, lookup_upsert_self, hrow,
          fillTokenPrograms_pumpAmmTxLayout hlay]
        rfl
  · have hsome : (c.pools.lookup pool).isSome = true := by rw [hrow]; rfl
    unfold ensurePumpAmmTxLayoutFromAccounts
    rw [if_pos hsome, if_pos rfl, lookup_writeAccounts, hrow]
    rfl

/-- What a call does to the row by itself. -/
theorem lookup_runCall {call : RowCall} {pool : Pubkey} (h : call.Concerns pool)
    (c : LivePoolCache) :
    (c.runCall env call).pools.lookup pool = call.alone env c pool (c.pools.lookup pool) := by
  cases call with
  | upsert call =>
      cases h
      exact lookup_runCall_upsert c
  | updateVaultBalance vault balance slot now =>
      show (c.updateVaultBalance vault balance slot now).pools.lookup pool =
        tickRow pool (c.vaultToPool.lookup vault) balance slot now (c.pools.lookup pool)
      rw [lookup_updateVaultBalance]
      unfold tickRow
      cases c.vaultToPool.lookup vault with
      | none => rfl
      | some target =>
          obtain ⟨q, x⟩ := target
          dsimp only
          by_cases hq : q = pool
          · rw [if_pos hq.symm, if_pos hq]
          · rw [if_neg fun h => hq h.symm, if_neg hq]
  | setPumpAmmPoolAccounts q accounts slot now =>
      obtain rfl : q = pool := h
      unfold RowCall.alone
      dsimp only
      by_cases hc : pumpAmmLayerCComplete q accounts = true
      · rw [if_pos hc]
        exact lookup_setPumpAmmPoolAccountsAtSlot c _ accounts slot now hc
      · rw [if_neg hc]
        show (c.setPumpAmmPoolAccountsAtSlot env q accounts slot now).1.pools.lookup q = _
        unfold setPumpAmmPoolAccountsAtSlot
        rw [if_neg hc]
        rfl

/-- The row is that of one of the two sequential orders. -/
def InSomeOrder (env : Ambient) (c₀ : LivePoolCache) (l : UpsertCall) (call : RowCall)
    (row : Option CacheEntry) : Prop :=
  row = ((c₀.runCall env (.upsert l)).runCall env call).pools.lookup l.pool ∨
    row = ((c₀.runCall env call).runCall env (.upsert l)).pools.lookup l.pool

theorem inSomeOrder_of_linearized {call : RowCall} (hc : call.Concerns l.pool)
    {row : Option CacheEntry}
    (h : Linearized (l.onRow env c₀) (call.alone env c₀ l.pool)
      (call.alone env (c₀.runCall env (.upsert l)) l.pool) (c₀.pools.lookup l.pool) true true
      row) : InSomeOrder env c₀ l call row := by
  rcases h.both with h | h
  · refine .inl ?_
    rw [h, lookup_runCall hc, lookup_runCall_upsert]
  · refine .inr ?_
    rw [h, lookup_runCall_upsert, lookup_runCall hc, onRow_congr (runCall_mintPrograms c₀ call)]

/-- The cache and the two threads before the first turn. -/
def Race.start (env : Ambient) (c₀ : LivePoolCache) (l : UpsertCall) (call : RowCall) : Race :=
  ⟨c₀, (RowCall.upsert l).start env, call.start env⟩

theorem UpsertPhase.isDone_of_thread {phL : UpsertPhase}
    (h : (Thread.upsert l phL).isDone = true) : phL.isDone = true := by
  cases phL <;> first | rfl | cases h

theorem race_upserts {r : UpsertCall} (hpool : r.pool = l.pool) {schedule : List Turn}
    (hu : Along (Race.step env) Race.Undisturbed (Race.start env c₀ l (.upsert r)) schedule)
    (hs : foldSteps (Race.step env) (Race.start env c₀ l (.upsert r)) schedule = s)
    (hl : s.left.isDone = true) (hr : s.right.isDone = true) :
    (∃ phR, s.right = .upsert r phR) ∧
      InSomeOrder env c₀ l (.upsert r) (s.cache.pools.lookup l.pool) := by
  have hinv : ∃ phL phR, UpsertRace env c₀ l r s phL phR := by
    subst hs
    refine foldSteps_of_along (I := fun s => ∃ phL phR, UpsertRace env c₀ l r s phL phR) ?_ ?_ hu
    · rintro s turn hu ⟨phL, phR, h⟩
      exact upsertRace_step hpool h turn hu
    · refine ⟨.programA l.state, .programA r.state, rfl, rfl, rfl, rfl, rfl, ?_⟩
      exact Linearized.neither
  obtain ⟨phL, phR, hinv⟩ := hinv
  have hrow := hinv.row
  rw [hinv.left] at hl
  rw [hinv.right] at hr
  rw [UpsertPhase.isDone_of_thread hl, UpsertPhase.isDone_of_thread hr] at hrow
  have hc : (RowCall.upsert r).Concerns l.pool := hpool
  refine ⟨⟨phR, hinv.right⟩, inSomeOrder_of_linearized hc ?_⟩
  have hcongr : (RowCall.upsert r).alone env (c₀.runCall env (.upsert l)) l.pool =
      r.onRow env c₀ := onRow_congr (runCall_mintPrograms c₀ (.upsert l))
  rw [hcongr]
  exact hrow

theorem race_accounts {accounts : List Pubkey} {slot now : Nat} {schedule : List Turn}
    (hu : Along (Race.step env) Race.Undisturbed
      (Race.start env c₀ l (.setPumpAmmPoolAccounts l.pool accounts slot now)) schedule)
    (hs : foldSteps (Race.step env)
      (Race.start env c₀ l (.setPumpAmmPoolAccounts l.pool accounts slot now)) schedule = s)
    (hl : s.left.isDone = true) (hr : s.right.isDone = true) :
    s.right = .done ∧ InSomeOrder env c₀ l (.setPumpAmmPoolAccounts l.pool accounts slot now)
      (s.cache.pools.lookup l.pool) := by
  have hinv : ∃ phL b, SetRace env c₀ l
      ((RowCall.setPumpAmmPoolAccounts l.pool accounts slot now).alone env c₀ l.pool)
      (pumpAmmNormalizeV14PoolAccounts env accounts).1 slot now s phL b := by
    subst hs
    refine foldSteps_of_along (I := fun s => ∃ phL b, SetRace env c₀ l
      ((RowCall.setPumpAmmPoolAccounts l.pool accounts slot now).alone env c₀ l.pool)
      (pumpAmmNormalizeV14PoolAccounts env accounts).1 slot now s phL b) ?_ ?_ hu
    · rintro s turn hu ⟨phL, b, h⟩
      exact setRace_step h turn hu
    · unfold Race.start RowCall.start RowCall.alone
      dsimp only
      by_cases hc : pumpAmmLayerCComplete l.pool accounts = true
      · rw [if_pos hc, if_pos hc]
        exact ⟨.programA l.state, false, rfl, .check, fun _ => rfl, rfl, rfl, .neither⟩
      · rw [if_neg hc, if_neg hc]
        exact ⟨.programA l.state, true, rfl, .done, fun h => (nomatch h), rfl, rfl, .right⟩
  obtain ⟨phL, b, hinv⟩ := hinv
  have hrow := hinv.row
  rw [hinv.left] at hl
  have hc : (RowCall.setPumpAmmPoolAccounts l.pool accounts slot now).Concerns l.pool := rfl
  have hright := hinv.right
  generalize s.right = t at hr hright hrow
  cases hright with
  | done =>
      rw [UpsertPhase.isDone_of_thread hl] at hrow
      exact ⟨rfl, inSomeOrder_of_linearized hc hrow⟩
  | _ => cases hr

theorem race_tick {t : TickCall} {schedule : List Turn}
    (hu : Along (Race.step env) Race.Undisturbed
      (Race.start env c₀ l (.updateVaultBalance t.vault t.balance t.slot t.now)) schedule)
    (hs : foldSteps (Race.step env)
      (Race.start env c₀ l (.updateVaultBalance t.vault t.balance t.slot t.now)) schedule = s)
    (hl : s.left.isDone = true) (hr : s.right.isDone = true) :
    ∃ phL, TickDone env c₀ l t s phL ∧
      InSomeOrder env c₀ l (.updateVaultBalance t.vault t.balance t.slot t.now)
        (s.cache.pools.lookup l.pool) := by
  have hinv : TickRace env c₀ l t s := by
    subst hs
    refine foldSteps_of_along (I := TickRace env c₀ l t) ?_ ?_ hu
    · exact fun s turn hu h => tickRace_step h turn hu
    · exact ⟨.programA l.state, .inl ⟨rfl, .inl rfl, rfl, fun _ hx => hx,
        fun _ hp => (nomatch hp), rfl, rfl, rfl⟩⟩
  obtain ⟨phL, h | h⟩ := hinv
  · exfalso
    rcases h.right with hright | ⟨q, x, hright, _⟩ <;> (rw [hright] at hr; cases hr)
  · refine ⟨phL, h, ?_⟩
    rw [h.left] at hl
    have hdone := UpsertPhase.isDone_of_thread hl
    have hc : (RowCall.updateVaultBalance t.vault t.balance t.slot t.now).Concerns l.pool :=
      trivial
    refine inSomeOrder_of_linearized hc ?_
    rcases h.row with hrow | ⟨p, prev, e, hdoom⟩
    · rw [hdone] at hrow
      exact hrow
    · -- an upsert that has returned has nothing left to write
      have hp := hdoom.prepared
      cases phL with
      | done => cases hp
      | _ => cases hdone

/-- **After every interleaving of undisturbed turns of an upsert and another call on its pool the
    row is that of one of the two sequential orders, and a tick that was written stands, unless
    the upsert reports its side.** -/
theorem race_linearizable (env : Ambient) (c₀ : LivePoolCache) (l : UpsertCall) (call : RowCall)
    (schedule : List Turn) (hc : call.Concerns l.pool)
    (hu : Along (Race.step env) Race.Undisturbed (Race.start env c₀ l call) schedule)
    (hl : (foldSteps (Race.step env) (Race.start env c₀ l call) schedule).left.isDone = true)
    (hr : (foldSteps (Race.step env) (Race.start env c₀ l call) schedule).right.isDone = true) :
    InSomeOrder env c₀ l call
      ((foldSteps (Race.step env) (Race.start env c₀ l call) schedule).cache.pools.lookup
        l.pool) ∧
    ∀ x balance,
      (foldSteps (Race.step env) (Race.start env c₀ l call) schedule).right =
        .ticked l.pool x balance →
      0 < l.slot → l.state.reported x = none →
      (∀ prev, c₀.pools.lookup l.pool = some prev → l.state.dexName = prev.state.dexName) →
      ∃ e, (foldSteps (Race.step env) (Race.start env c₀ l call) schedule).cache.pools.lookup
          l.pool = some e ∧ e.state.sideBalance x = some balance := by
  cases call with
  | upsert r =>
      obtain ⟨⟨phR, hright⟩, horder⟩ := race_upserts hc hu rfl hl hr
      refine ⟨horder, fun x balance hx => ?_⟩
      rw [hright] at hx
      cases hx
  | updateVaultBalance vault balance slot now =>
      obtain ⟨phL, h, horder⟩ := race_tick (t := ⟨vault, balance, slot, now⟩) hu rfl hl hr
      refine ⟨horder, fun x b hx hslot hrep hdex => ?_⟩
      have hb : b = balance := by
        rcases h.right with hright | ⟨q, y, hright⟩
        · cases hright.symm.trans hx
        · cases hright.symm.trans hx
          rfl
      subst hb
      obtain ⟨e, he, hbal, _⟩ := h.stands x hx hslot hrep hdex
      exact ⟨e, he, hbal⟩
  | setPumpAmmPoolAccounts q accounts slot now =>
      obtain rfl : q = l.pool := hc
      obtain ⟨hright, horder⟩ := race_accounts hu rfl hl hr
      refine ⟨horder, fun x balance hx => ?_⟩
      rw [hright] at hx
      cases hx

/-- A tick that reads the index once its vault is registered, and writes after the upsert. -/
theorem race_linearizable_registered :
    InSomeOrder .weighing .new ⟨9, cpmmRow none (some 300), 5, 10⟩
      (.updateVaultBalance 3 50 7 11)
      ((foldSteps (Race.step .weighing) (Race.start .weighing .new
        ⟨9, cpmmRow none (some 300), 5, 10⟩ (.updateVaultBalance 3 50 7 11))
        [.left, .left, .left, .left, .left, .right, .left, .right]).cache.pools.lookup 9) ∧
    ∃ e, (foldSteps (Race.step .weighing) (Race.start .weighing .new
        ⟨9, cpmmRow none (some 300), 5, 10⟩ (.updateVaultBalance 3 50 7 11))
        [.left, .left, .left, .left, .left, .right, .left, .right]).cache.pools.lookup 9 = some e ∧
      e.state.sideBalance .a = some 50 := by
  have h := race_linearizable .weighing .new ⟨9, cpmmRow none (some 300), 5, 10⟩
    (.updateVaultBalance 3 50 7 11) [.left, .left, .left, .left, .left, .right, .left, .right]
    trivial ?_ rfl rfl
  · exact ⟨h.1, h.2 .a 50 rfl (by decide) rfl fun prev hp => (nomatch hp)⟩
  · refine ⟨trivial, trivial, trivial, ?_, ?_, trivial, ?_, trivial, trivial⟩
    · intro vault pair _ _ _ hmapped
      cases hmapped
    · intro vault pair hv hp hb
      cases hv
      cases hp
      exact absurd hb (by decide)
    · exact ⟨.inl rfl, fun pool accounts h => (nomatch h)⟩

/-- **A tick of slot 7 between the two guards of an upsert of slot 5 is lost**: the row is that of
    neither order. -/
theorem tick_lost :
    ¬ ∀ (env : Ambient) (c₀ : LivePoolCache) (l : UpsertCall) (call : RowCall)
      (schedule : List Turn), call.Concerns l.pool →
      (foldSteps (Race.step env) (Race.start env c₀ l call) schedule).left.isDone = true →
      (foldSteps (Race.step env) (Race.start env c₀ l call) schedule).right.isDone = true →
      InSomeOrder env c₀ l call
        ((foldSteps (Race.step env) (Race.start env c₀ l call) schedule).cache.pools.lookup
          l.pool) := by
  intro h
  have h := h .weighing (LivePoolCache.new.upsert .weighing 9 (cpmmRow (some 100) (some 200)) 1 0).1
    ⟨9, cpmmRow none (some 300), 5, 10⟩ (.updateVaultBalance 3 50 7 11)
    [.left, .left, .left, .right, .right, .left, .left, .left] trivial rfl rfl
  rcases h with h | h
  · exact absurd (congrArg (Option.map CacheEntry.state) h) (by decide)
  · exact absurd (congrArg (Option.map CacheEntry.state) h) (by decide)

end IronCrab.Cache

/-
  File:      IronCrab/Cache/Reorder.lean
  Subject:   MESSAGES FOR A POOL ROW THAT ARRIVE OUT OF ORDER (`upsert`, `update_vault_balance`).

  A row has two watermarks. An upsert is checked against `last_seen_slot`, which only upserts
  advance; a vault tick against `slot`, which both advance, the tick when it changes the balance.
  So an old upsert passes a newer tick, an old tick passes a newer one that repeated the balance,
  and a tick of one vault stands in the way of a tick of the other.

  `Watched` is the cache with a log of the messages delivered for the two sides of one pool. A
  message MEETS ITS WATERMARK (`MeetsWatermark`) when the check of its path lets it through exactly
  if its slot lies over what was delivered for each side it would change.

  * **`reordered_never_regress`** -- when every message meets its watermark, the slots of the row
    never decrease and each side holds the balance of the greatest slot delivered for it;
  * `upsert_regresses_tick` -- a tick at slot 5 and then an upsert of slot 3.
-/
import IronCrab.Cache.LivePoolCache
import IronCrab.Lib.Latest
import IronCrab.Lib.Machine

namespace IronCrab.Cache

open Track (Pubkey)
open Machine Latest LivePoolCache

/-! ## 1. Messages and what they carry for a pool -/

/-- A message of the delivery order. -/
inductive RowMessage where
  | tick (vault : Pubkey) (balance slot now : Nat)
  | upsert (pool : Pubkey) (state : CachedPoolState) (slot now : Nat)

def RowMessage.slot : RowMessage → Nat
  | tick _ _ slot _ => slot
  | upsert _ _ slot _ => slot

namespace LivePoolCache

/-- The cache after a message. -/
def deliver (env : Ambient) (c : LivePoolCache) : RowMessage → LivePoolCache
  | .tick vault balance slot now => c.updateVaultBalance vault balance slot now
  | .upsert pool state slot now => (c.upsert env pool state slot now).1

/-- The balance that a message carries for a side of the row of `pool`: a tick of that side's
    vault, an upsert that reports the side. -/
def carried (c : LivePoolCache) (pool : Pubkey) (m : RowMessage) (pos : VaultPosition) :
    Option Nat :=
  match m with
  | .tick vault balance _ _ =>
      if ((c.pools.lookup pool).bind fun e => e.state.vaultAt pos) = some vault then some balance
      else none
  | .upsert q state _ _ => if q = pool then state.reported pos else none

end LivePoolCache

/-- The cache, and for each side of one pool the slots and balances delivered for it. -/
structure Watched where
  cache : LivePoolCache
  log : VaultPosition → List (Nat × Nat)

namespace Watched

variable {env : Ambient} {pool : Pubkey} {s : Watched} {m : RowMessage}

/-- A message is delivered and logged. -/
def watch (env : Ambient) (pool : Pubkey) (s : Watched) (m : RowMessage) : Watched :=
  ⟨s.cache.deliver env m, fun pos =>
    s.log pos ++ ((s.cache.carried pool m pos).map fun balance => (m.slot, balance)).toList⟩

/-- The index and the row agree on where the vault of a tick belongs, and the tick passes the slot
    of the row exactly when it is the newest for its side. -/
structure TickMeets (pool : Pubkey) (s : Watched) (vault : Pubkey) (balance slot : Nat) : Prop where
  mapped : ∀ pos, s.cache.vaultToPool.lookup vault = some (pool, pos) ↔
    ((s.cache.pools.lookup pool).bind fun e => e.state.vaultAt pos) = some vault
  order : ∀ e pos, s.cache.pools.lookup pool = some e → e.state.vaultAt pos = some vault →
    e.state.sideBalance pos ≠ some balance → (e.slot ≤ slot ↔ Over (s.log pos) slot)

/-- An upsert passes `last_seen_slot` exactly when it is the newest for each side it would change;
    one that passes is not behind the slot that it writes, and changes the type of the row only if
    it reports each side that was delivered. -/
structure UpsertMeets (env : Ambient) (s : Watched) (e : CacheEntry) (state : CachedPoolState)
    (slot : Nat) : Prop where
  order : ∀ pos balance, state.reported pos = some balance →
    e.state.sideBalance pos ≠ some balance → (e.lastSeenSlot ≤ slot ↔ Over (s.log pos) slot)
  material : e.lastSeenSlot ≤ slot →
    poolStateMaterialFingerprint env.finish (mergeAccountParsePreservesExisting e.state
      (s.cache.fillTokenPrograms state) slot) ≠ poolStateMaterialFingerprint env.finish e.state →
    e.slot ≤ slot
  sides : e.lastSeenSlot ≤ slot → state.dexName ≠ e.state.dexName →
    ∀ pos, s.log pos ≠ [] → (state.reported pos).isSome = true

/-- The message meets its watermark. -/
def MeetsWatermark (env : Ambient) (pool : Pubkey) (s : Watched) : RowMessage → Prop
  | .tick vault balance slot _ => TickMeets pool s vault balance slot
  | .upsert q state slot _ => q = pool → ∀ e, s.cache.pools.lookup pool = some e →
      UpsertMeets env s e state slot

/-! ## 2. One message -/

/-- What is delivered for a pool is delivered for its row. -/
structure Inv (pool : Pubkey) (ms : List RowMessage) (s : Watched) : Prop where
  row : ∀ pos, s.log pos ≠ [] → (s.cache.pools.lookup pool).isSome = true
  stamps : ∀ pos, ∀ d ∈ s.log pos, ∃ m ∈ ms, m.slot = d.1
  shows : ∀ e pos, s.cache.pools.lookup pool = some e →
    ShowsLatest (s.log pos) (e.state.sideBalance pos)

/-- The slots of the row of `pool` do not decrease from one cache to another. -/
def SlotsKept (pool : Pubkey) (c c' : LivePoolCache) : Prop :=
  ∀ e, c.pools.lookup pool = some e → ∃ e', c'.pools.lookup pool = some e' ∧
    e.slot ≤ e'.slot ∧ e.lastSeenSlot ≤ e'.lastSeenSlot

theorem SlotsKept.refl (pool : Pubkey) (c : LivePoolCache) : SlotsKept pool c c :=
  fun e he => ⟨e, he, le_rfl, le_rfl⟩

theorem SlotsKept.trans {c c' c'' : LivePoolCache} (h : SlotsKept pool c c')
    (h' : SlotsKept pool c' c'') : SlotsKept pool c c'' := by
  intro e he
  obtain ⟨e', he', hs, hl⟩ := h e he
  obtain ⟨e'', he'', hs', hl'⟩ := h' e' he'
  exact ⟨e'', he'', hs.trans hs', hl.trans hl'⟩

/-- A side after a message: what it carried was taken, or left, in the order of the slots. -/
def SideFollows (s : Watched) (m : RowMessage) (pool : Pubkey) (pos : VaultPosition)
    (old new : Option Nat) : Prop :=
  match s.cache.carried pool m pos with
  | none => new = old ∨ s.log pos = []
  | some balance =>
      (new = some balance ∧ (Over (s.log pos) m.slot ∨ old = some balance)) ∨
      (new = old ∧ ¬ Over (s.log pos) m.slot)

/-- **A side that follows its messages shows the latest of them.** -/
theorem SideFollows.shows {pos : VaultPosition} {old new : Option Nat}
    (h : SideFollows s m pool pos old new) (hs : ShowsLatest (s.log pos) old)
    (hne : ∀ d ∈ s.log pos, d.1 ≠ m.slot) :
    ShowsLatest (s.log pos ++
      ((s.cache.carried pool m pos).map fun balance => (m.slot, balance)).toList) new := by
  unfold SideFollows at h
  cases hc : s.cache.carried pool m pos with
  | none =>
      rw [hc] at h
      rcases h with rfl | hnil
      · simpa using hs
      · rw [hnil]
        exact .nil new
  | some balance =>
      rw [hc] at h
      rcases h with ⟨rfl, hov | rfl⟩ | ⟨rfl, hu⟩
      · exact .snoc_over hov
      · exact hs.snoc_same
      · exact hs.snoc_under hu hne

theorem eq_other_of_ne {pos q : VaultPosition} (h : q ≠ pos) : q = pos.other := by
  cases pos <;> cases q <;> first | rfl | exact absurd rfl h

/-- The sides of a row that is there before and after a message. -/
def RowFollows (s : Watched) (m : RowMessage) (pool : Pubkey) (c' : LivePoolCache) : Prop :=
  ∀ e', c'.pools.lookup pool = some e' → ∀ pos,
    (∃ e, s.cache.pools.lookup pool = some e ∧
      SideFollows s m pool pos (e.state.sideBalance pos) (e'.state.sideBalance pos)) ∨
    s.cache.pools.lookup pool = none ∧
      ∀ balance, s.cache.carried pool m pos = some balance →
        e'.state.sideBalance pos = some balance

/-- A written balance, or the one that stays. -/
theorem sideFollows_tickEntry {e : CacheEntry} {pos : VaultPosition} {vault : Pubkey}
    {balance slot now : Nat} (he : s.cache.pools.lookup pool = some e)
    (hv : e.state.vaultAt pos = some vault) (hpos : 0 < slot)
    (hm : TickMeets pool s vault balance slot) :
    SideFollows s (.tick vault balance slot now) pool pos (e.state.sideBalance pos)
      (((tickEntry e pos balance slot now).getD e).state.sideBalance pos) := by
  have hc : s.cache.carried pool (.tick vault balance slot now) pos = some balance := by
    unfold LivePoolCache.carried
    rw [he]
    exact if_pos hv
  unfold SideFollows
  rw [hc]
  have hpair := CachedPoolState.vaultPair_of_vaultAt hv
  cases ht : tickEntry e pos balance slot now with
  | some e' =>
      obtain ⟨⟨_, hne⟩, hfresh, rfl⟩ := tickEntry_eq_some.mp ht
      have hle : e.slot ≤ slot := Nat.le_of_not_lt fun hlt => hfresh ⟨hpos, hlt⟩
      refine .inl ⟨?_, .inl ((hm.order e pos he hv hne).mp hle)⟩
      exact CachedPoolState.sideBalance_writeBalance_self hpair pos balance
  | none =>
      by_cases hb : e.state.sideBalance pos = some balance
      · exact .inl ⟨hb, .inr hb⟩
      · rcases tickEntry_eq_none.mp ht with hsame | hold
        · exact absurd (hsame hpair) hb
        · refine .inr ⟨rfl, fun hov => ?_⟩
          exact Nat.not_lt.mpr ((hm.order e pos he hv hb).mpr hov) hold.2

/-- A tick does not touch the side whose vault it does not name. -/
theorem sideBalance_tickEntry_other {e : CacheEntry} {pos q : VaultPosition}
    {balance slot now : Nat} (hq : q ≠ pos) :
    ((tickEntry e pos balance slot now).getD e).state.sideBalance q = e.state.sideBalance q := by
  cases ht : tickEntry e pos balance slot now with
  | none => rfl
  | some e' =>
      obtain ⟨_, _, rfl⟩ := tickEntry_eq_some.mp ht
      rw [eq_other_of_ne hq]
      exact CachedPoolState.sideBalance_writeBalance_other _ _ _

/-- **What a tick that meets its watermark does to the row.** -/
theorem rowFollows_tick {vault : Pubkey} {balance slot now : Nat} (hpos : 0 < slot)
    (hm : TickMeets pool s vault balance slot) :
    RowFollows s (.tick vault balance slot now) pool
      (s.cache.deliver env (.tick vault balance slot now)) := by
  intro e' he' pos
  have hl : (s.cache.updateVaultBalance vault balance slot now).pools.lookup pool = some e' := he'
  rw [lookup_updateVaultBalance] at hl
  cases he : s.cache.pools.lookup pool with
  | none => rw [he] at hl; split at hl <;> [split_ifs at hl; skip] <;> cases hl
  | some e =>
      refine .inl ⟨e, rfl, ?_⟩
      by_cases hv : e.state.vaultAt pos = some vault
      · have hix := (hm.mapped pos).mpr (by rw [he]; exact hv)
        rw [hix, he] at hl
        simp only [if_true, Option.map_some, Option.some.injEq] at hl
        subst hl
        exact sideFollows_tickEntry he hv hpos hm
      · have hc : s.cache.carried pool (.tick vault balance slot now) pos = none := by
          unfold LivePoolCache.carried
          rw [he]
          exact if_neg hv
        unfold SideFollows
        rw [hc]
        refine .inl ?_
        rw [he] at hl
        split at hl
        · next q pos' hix =>
          split_ifs at hl with hq
          · subst hq
            have hne : pos ≠ pos' := by
              rintro rfl
              exact hv (by have h := (hm.mapped pos).mp hix; rwa [he] at h)
            cases Option.some.inj hl
            exact sideBalance_tickEntry_other hne
          · cases hl
            rfl
        · cases hl
          rfl

/-- A merged row: each side as the upsert carried it. -/
theorem sideFollows_mergeEntry {e : CacheEntry} {state : CachedPoolState} {slot now : Nat}
    (pos : VaultPosition) (hpos : 0 < slot) (hle : e.lastSeenSlot ≤ slot)
    (hm : UpsertMeets env s e state slot) :
    SideFollows s (.upsert pool state slot now) pool pos (e.state.sideBalance pos)
      ((mergeEntry env e (s.cache.fillTokenPrograms state) slot now).state.sideBalance pos) := by
  have hc : s.cache.carried pool (.upsert pool state slot now) pos = state.reported pos :=
    if_pos rfl
  have hrep := reported_fillTokenPrograms s.cache state pos
  unfold SideFollows
  rw [hc]
  cases hr : state.reported pos with
  | some balance =>
      refine .inl ⟨CachedPoolState.sideBalance_merge_of_reported (hrep.trans hr) _ hpos, ?_⟩
      by_cases hb : e.state.sideBalance pos = some balance
      · exact .inr hb
      · exact .inl ((hm.order pos balance hr hb).mp hle)
  | none =>
      by_cases hd : state.dexName = e.state.dexName
      · have hd' := (dexName_fillTokenPrograms s.cache state).trans hd
        exact .inl (CachedPoolState.sideBalance_merge_of_silent hd' (hrep.trans hr) hpos)
      · refine .inr (Classical.byContradiction fun hlog => ?_)
        have hsome := hm.sides hle hd pos hlog
        rw [hr] at hsome
        cases hsome

/-- **What an upsert that meets its watermark does to the row.** -/
theorem rowFollows_upsert {q : Pubkey} {state : CachedPoolState} {slot now : Nat}
    (hpos : 0 < slot) (hm : q = pool → ∀ e, s.cache.pools.lookup pool = some e →
      UpsertMeets env s e state slot) :
    RowFollows s (.upsert q state slot now) pool
      (s.cache.deliver env (.upsert q state slot now)) := by
  intro e' he' pos
  have hl : (s.cache.upsert env q state slot now).1.pools.lookup pool = some e' := he'
  rw [lookup_upsert] at hl
  by_cases hq : q = pool
  · subst hq
    rw [if_pos rfl] at hl
    cases he : s.cache.pools.lookup q with
    | none =>
        rw [storedEntry_of_none he] at hl
        cases Option.some.inj hl
        refine .inr ⟨rfl, fun balance hcar => ?_⟩
        have hr : state.reported pos = some balance := (if_pos rfl).symm.trans hcar
        have hrep := reported_fillTokenPrograms s.cache state pos
        exact CachedPoolState.sideBalance_of_reported (hrep.trans hr)
    | some e =>
        refine .inl ⟨e, rfl, ?_⟩
        have hmeets := hm rfl e he
        rw [storedEntry_of_some he, he] at hl
        by_cases hb : BehindSeen slot e
        · rw [if_pos hb] at hl
          cases Option.some.inj hl
          have hc : s.cache.carried q (.upsert q state slot now) pos = state.reported pos :=
            if_pos rfl
          unfold SideFollows
          rw [hc]
          cases hr : state.reported pos with
          | none => exact .inl rfl
          | some balance =>
              by_cases hsame : e'.state.sideBalance pos = some balance
              · exact .inl ⟨hsame, .inr hsame⟩
              · refine .inr ⟨rfl, fun hov => ?_⟩
                exact Nat.not_lt.mpr ((hmeets.order pos balance hr hsame).mpr hov) hb.2
        · rw [if_neg hb] at hl
          cases Option.some.inj hl
          have hle : e.lastSeenSlot ≤ slot := Nat.le_of_not_lt fun hlt => hb ⟨hpos, hlt⟩
          exact sideFollows_mergeEntry pos hpos hle hmeets
  · rw [if_neg fun h => hq h.symm] at hl
    have hc : s.cache.carried pool (.upsert q state slot now) pos = none := if_neg hq
    refine .inl ⟨e', hl, ?_⟩
    unfold SideFollows
    rw [hc]
    exact .inl rfl

theorem slotsKept_tick (c : LivePoolCache) (pool vault : Pubkey) (balance slot now : Nat) :
    SlotsKept pool c (c.updateVaultBalance vault balance slot now) := by
  intro e he
  rw [lookup_updateVaultBalance]
  split
  · next q pos _ =>
    split_ifs with hq
    · refine ⟨(tickEntry e pos balance slot now).getD e, by rw [he]; rfl, ?_⟩
      cases ht : tickEntry e pos balance slot now with
      | none => exact ⟨le_rfl, le_rfl⟩
      | some e' =>
          obtain ⟨_, hfresh, rfl⟩ := tickEntry_eq_some.mp ht
          refine ⟨?_, le_rfl⟩
          show e.slot ≤ if 0 < slot then slot else e.slot
          split_ifs with h0
          · exact Nat.le_of_not_lt fun hlt => hfresh ⟨h0, hlt⟩
          · exact le_rfl
    · exact ⟨e, he, le_rfl, le_rfl⟩
  · exact ⟨e, he, le_rfl, le_rfl⟩

/-- `last_seen_slot` never decreases; `slot` does not when the upsert is not behind it. -/
theorem slots_mergeEntry {e : CacheEntry} {state : CachedPoolState} {slot now : Nat}
    (h : poolStateMaterialFingerprint env.finish
        (mergeAccountParsePreservesExisting e.state state slot) ≠
      poolStateMaterialFingerprint env.finish e.state → e.slot ≤ slot) :
    e.slot ≤ (mergeEntry env e state slot now).slot ∧
      e.lastSeenSlot ≤ (mergeEntry env e state slot now).lastSeenSlot := by
  unfold mergeEntry
  dsimp only
  constructor
  · split_ifs with h0 hch
    · exact le_rfl
    · exact h hch
    · exact le_rfl
  · split_ifs with h0
    · exact le_max_left _ _
    · exact le_rfl

theorem slotsKept_upsert {q : Pubkey} {state : CachedPoolState} {slot now : Nat}
    (hpos : 0 < slot) (hm : q = pool → ∀ e, s.cache.pools.lookup pool = some e →
      UpsertMeets env s e state slot) :
    SlotsKept pool s.cache (s.cache.upsert env q state slot now).1 := by
  intro e he
  rw [lookup_upsert]
  by_cases hq : q = pool
  · subst hq
    rw [if_pos rfl, storedEntry_of_some he, he]
    by_cases hb : BehindSeen slot e
    · rw [if_pos hb]
      exact ⟨e, rfl, le_rfl, le_rfl⟩
    · rw [if_neg hb]
      have hle : e.lastSeenSlot ≤ slot := Nat.le_of_not_lt fun hlt => hb ⟨hpos, hlt⟩
      exact ⟨_, rfl, slots_mergeEntry ((hm rfl e he).material hle)⟩
  · rw [if_neg fun h => hq h.symm]
    exact ⟨e, he, le_rfl, le_rfl⟩

/-- **One message that meets its watermark.** -/
theorem step_spec (hpos : 0 < m.slot) (hm : MeetsWatermark env pool s m) :
    RowFollows s m pool (s.cache.deliver env m) ∧
      SlotsKept pool s.cache (s.cache.deliver env m) := by
  cases m with
  | tick vault balance slot now => exact ⟨rowFollows_tick hpos hm, slotsKept_tick _ _ _ _ _ _⟩
  | upsert q state slot now => exact ⟨rowFollows_upsert hpos hm, slotsKept_upsert hpos hm⟩

/-- A message that carries a balance for a side finds or leaves a row. -/
theorem row_of_carried {pos : VaultPosition} {balance : Nat}
    (h : s.cache.carried pool m pos = some balance)
    (hk : SlotsKept pool s.cache (s.cache.deliver env m)) :
    ((s.cache.deliver env m).pools.lookup pool).isSome = true := by
  cases he : s.cache.pools.lookup pool with
  | some e =>
      obtain ⟨e', he', _⟩ := hk e he
      rw [he']
      rfl
  | none =>
      cases m with
      | tick vault b slot now =>
          unfold LivePoolCache.carried at h
          rw [he] at h
          cases h
      | upsert q state slot now =>
          have hq : q = pool := Classical.byContradiction fun hq => by
            have hn : s.cache.carried pool (.upsert q state slot now) pos = none := if_neg hq
            rw [hn] at h
            cases h
          subst hq
          show ((s.cache.upsert env q state slot now).1.pools.lookup q).isSome = true
          rw [lookup_upsert, if_pos rfl, storedEntry_of_none he]
          rfl

/-! ## 3. A run of messages -/

theorem inv_start (pool : Pubkey) (c : LivePoolCache) : Inv pool [] ⟨c, fun _ => []⟩ where
  row := fun _ h => absurd rfl h
  stamps := fun _ _ h => (nomatch h)
  shows := fun _ _ _ => .nil _

/-- The invariant after a message whose slot no earlier message had. -/
theorem inv_watch {ms : List RowMessage} (hi : Inv pool ms s)
    (hm : MeetsWatermark env pool s m) (hpos : 0 < m.slot) (hnew : ∀ m' ∈ ms, m'.slot ≠ m.slot) :
    Inv pool (ms ++ [m]) (watch env pool s m) ∧
      SlotsKept pool s.cache (watch env pool s m).cache := by
  obtain ⟨hfollows, hkept⟩ := step_spec hpos hm
  have hne : ∀ pos, ∀ d ∈ s.log pos, d.1 ≠ m.slot := by
    intro pos d hd
    obtain ⟨m', hm', hslot⟩ := hi.stamps pos d hd
    rw [← hslot]
    exact hnew m' hm'
  refine ⟨⟨fun pos hlog => ?_, fun pos d hd => ?_, fun e' pos he' => ?_⟩, hkept⟩
  · cases hc : s.cache.carried pool m pos with
    | some balance => exact row_of_carried hc hkept
    | none =>
        have hold : s.log pos ≠ [] := by
          intro hnil
          apply hlog
          show s.log pos ++ _ = []
          rw [hnil, hc]
          rfl
        obtain ⟨e, he⟩ := Option.isSome_iff_exists.mp (hi.row pos hold)
        obtain ⟨e', he', _⟩ := hkept e he
        show ((s.cache.deliver env m).pools.lookup pool).isSome = true
        rw [he']
        rfl
  · rcases List.mem_append.mp hd with hl | hn
    · obtain ⟨m', hm', hslot⟩ := hi.stamps pos d hl
      exact ⟨m', List.mem_append_left _ hm', hslot⟩
    · refine ⟨m, List.mem_append_right _ (List.mem_singleton.mpr rfl), ?_⟩
      obtain ⟨balance, _, rfl⟩ := Option.map_eq_some_iff.mp (Option.mem_toList.mp hn)
      rfl
  · rcases hfollows e' he' pos with ⟨e, he, hside⟩ | ⟨hnone, hcar⟩
    · exact hside.shows (hi.shows e pos he) (hne pos)
    · have hnil : s.log pos = [] := Classical.byContradiction fun h => by
        have hrow := hi.row pos h
        rw [hnone] at hrow
        cases hrow
      show ShowsLatest (s.log pos ++ _) _
      rw [hnil]
      cases hc : s.cache.carried pool m pos with
      | none => exact .nil _
      | some balance =>
          rw [hcar balance hc]
          exact .snoc_over fun d hd => (nomatch hd)

/-- The invariant after a list of messages with new slots. -/
theorem inv_run {ms₁ ms₂ : List RowMessage} (hi : Inv pool ms₁ s)
    (h : Along (watch env pool) (MeetsWatermark env pool) s ms₂) (hpos : ∀ m ∈ ms₂, 0 < m.slot)
    (hdist : ((ms₁ ++ ms₂).map RowMessage.slot).Nodup) :
    Inv pool (ms₁ ++ ms₂) (foldSteps (watch env pool) s ms₂) ∧
      SlotsKept pool s.cache (foldSteps (watch env pool) s ms₂).cache := by
  induction ms₂ generalizing s ms₁ with
  | nil =>
      rw [List.append_nil]
      exact ⟨hi, .refl _ _⟩
  | cons m ms ih =>
      obtain ⟨hm, hrest⟩ := h
      have hnew : ∀ m' ∈ ms₁, m'.slot ≠ m.slot := by
        intro m' hm' heq
        rw [List.map_append, List.nodup_append] at hdist
        exact hdist.2.2 _ (List.mem_map_of_mem hm') _ (List.mem_map_of_mem List.mem_cons_self) heq
      obtain ⟨hi', hk⟩ := inv_watch hi hm (hpos m List.mem_cons_self) hnew
      have hsplit : ms₁ ++ m :: ms = (ms₁ ++ [m]) ++ ms := (List.append_cons _ _ _)
      rw [hsplit] at hdist ⊢
      obtain ⟨hi'', hk'⟩ := ih hi' hrest (fun m hm => hpos m (List.mem_cons_of_mem _ hm)) hdist
      exact ⟨hi'', hk.trans hk'⟩

/-- The cache after messages, with what they carried for a pool. -/
def after (env : Ambient) (pool : Pubkey) (c : LivePoolCache) (ms : List RowMessage) : Watched :=
  foldSteps (watch env pool) ⟨c, fun _ => []⟩ ms

/-- **Messages out of order never regress a row.** In every delivery of ticks and upserts with
    positive, pairwise distinct slots that all meet their watermark: from any moment to any later
    one the slots of the row do not decrease, and each side holds the balance of the greatest slot
    that was delivered for it. -/
theorem reordered_never_regress (c : LivePoolCache) (ms₁ ms₂ : List RowMessage)
    (h : Along (watch env pool) (MeetsWatermark env pool) ⟨c, fun _ => []⟩ (ms₁ ++ ms₂))
    (hpos : ∀ m ∈ ms₁ ++ ms₂, 0 < m.slot) (hdist : ((ms₁ ++ ms₂).map RowMessage.slot).Nodup) :
    SlotsKept pool (after env pool c ms₁).cache (after env pool c (ms₁ ++ ms₂)).cache ∧
      ∀ e pos, (after env pool c (ms₁ ++ ms₂)).cache.pools.lookup pool = some e →
        ShowsLatest ((after env pool c (ms₁ ++ ms₂)).log pos) (e.state.sideBalance pos) := by
  obtain ⟨h₁, h₂⟩ := along_append h
  have hdist₁ : (([] ++ ms₁).map RowMessage.slot).Nodup := by
    rw [List.map_append] at hdist
    exact hdist.of_append_left
  have hi₁ := (inv_run (inv_start pool c) h₁
    (fun m hm => hpos m (List.mem_append_left _ hm)) hdist₁).1
  obtain ⟨hi₂, hk⟩ := inv_run hi₁ h₂ (fun m hm => hpos m (List.mem_append_right _ hm)) hdist
  unfold after
  rw [foldSteps_append]
  exact ⟨hk, hi₂.shows⟩

/-- A row, a tick of its first vault, and an upsert that reports the first side. -/
def inOrder : List RowMessage :=
  [.upsert 9 (cpmmRow (some 10) (some 10)) 1 0, .tick 3 20 5 0,
    .upsert 9 (cpmmRow (some 30) none) 7 0]

theorem inOrder_along :
    Along (watch .weighing 9) (MeetsWatermark .weighing 9) ⟨.new, fun _ => []⟩ inOrder := by
  refine ⟨fun _ e he => (nomatch he), ⟨fun pos => ?_, fun e pos he hv hb => ?_⟩,
    fun _ e he => ⟨fun pos balance hr hb => ?_, fun _ _ => ?_, fun _ hd => ?_⟩, trivial⟩
  · cases pos <;> decide
  · cases Option.some.inj he
    cases pos with
    | a => decide
    | b => exact absurd hv (by decide)
  · cases Option.some.inj he
    cases pos with
    | a => decide
    | b => cases hr
  · cases Option.some.inj he
    decide
  · cases Option.some.inj he
    exact absurd rfl hd

theorem reordered_never_regress_inOrder :
    SlotsKept 9 (after .weighing 9 .new (inOrder.take 2)).cache
        (after .weighing 9 .new inOrder).cache ∧
      ∀ e pos, (after .weighing 9 .new inOrder).cache.pools.lookup 9 = some e →
        ShowsLatest ((after .weighing 9 .new inOrder).log pos) (e.state.sideBalance pos) :=
  reordered_never_regress .new (inOrder.take 2) (inOrder.drop 2) inOrder_along (by decide)
    (by decide)

/-- A row, a tick of its first vault at slot 5, and an upsert of slot 3. -/
def outOfOrder : List RowMessage :=
  [.upsert 9 (cpmmRow (some 10) (some 10)) 1 0, .tick 3 20 5 0,
    .upsert 9 (cpmmRow (some 15) none) 3 0]

/-- **An upsert passes a newer tick**: the row keeps the balance of slot 3, not that of slot 5. -/
theorem upsert_regresses_tick :
    ¬ ∃ env : Ambient, ∀ (pool : Pubkey) (c : LivePoolCache) (ms : List RowMessage),
      (∀ m ∈ ms, 0 < m.slot) → (ms.map RowMessage.slot).Nodup →
        ∀ e pos, (after env pool c ms).cache.pools.lookup pool = some e →
          ShowsLatest ((after env pool c ms).log pos) (e.state.sideBalance pos) := by
  rintro ⟨env, hall⟩
  have hlog : (after env 9 .new outOfOrder).log .a = [(1, 10), (5, 20), (3, 15)] := rfl
  have hrow : ((after env 9 .new outOfOrder).cache.pools.lookup 9).map
      (fun e => e.state.sideBalance .a) = some (some 15) := rfl
  obtain ⟨e, he, hbal⟩ := Option.map_eq_some_iff.mp hrow
  have hs := hall 9 .new outOfOrder (by decide) (by decide) e .a he
  rw [hlog, hbal] at hs
  exact absurd (hs (5, 20) (by decide) (by decide)) (by decide)

end Watched

end IronCrab.Cache

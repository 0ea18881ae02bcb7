/-
  File:      IronCrab/Storage/ResourceHandover.lean
  Subject:   HOW A RESOURCE LOCK CHANGES HANDS: every operation of the lock manager, in every
             state, at any clock readings.

  A lock leaves its holder's intent in three ways: the intent gives its pool locks back (a
  release, or the promotion after the send), the lock is past its TTL when an operation sweeps,
  or a request of a strictly better tier beats it while its source is not protected.

  * `untouched_apply` -- a lock to which none of that happens stays, record and all;
  * `lookup_forIntent` -- an operation for one intent and the locks of the others;
  * `conflict_apply` -- a refused request leaves what its sweep leaves;
  * **`resource_handover`** -- the law of every operation, and what an operation for a preempted
    intent does to the winner's locks, in every run after the preemption;
  * `promotion_gives_up_pool` -- a promotion takes the pool lock away from a live intent, and a
    refused request removes an expired lock of another pool.
-/
import IronCrab.Storage.Refresh

namespace IronCrab

/-! ## 1. What an operation may do to a key -/

namespace LockManager

/-- `try_lock_resource`: the default TTL. -/
def tryLockResource (m : LockManager) (holder : LockHolder) (resourceId : ResourceId)
    (resourceType : ResourceType) (now nowStarved nowRecord createdAt : Instant) :
    LockResult × LockManager :=
  m.tryLockResourceWithTtl holder resourceId resourceType none now nowStarved nowRecord createdAt

/-- The key is locked for the intent. -/
def HeldBy (m : LockManager) (key : ResourceId) (id : IntentId) : Prop :=
  ∃ l, m.resourceLocks.lookup key = some l ∧ l.holder.intentId = id

end LockManager

open LockManager

namespace Op

/-- What an attempt to lock returns. -/
def result (m : LockManager) : Op → Option LockResult
  | lock (.tryLockCapital holder sol tokens now createdAt) =>
      some (m.tryLockCapital holder sol tokens now createdAt).1
  | lock (.tryLockCapitalWithTtl holder sol tokens ttl now createdAt) =>
      some (m.tryLockCapitalWithTtl holder sol tokens ttl now createdAt).1
  | tryLockResourceWithTtl holder rid ty ttl now nowStarved nowRecord createdAt =>
      some (m.tryLockResourceWithTtl holder rid ty ttl now nowStarved nowRecord createdAt).1
  | _ => none

/-- The clock reading of the `cleanup_expired` that the operation runs. -/
def sweptAt : Op → Option Instant
  | lock (.tryLockCapital _ _ _ now _) => some now
  | lock (.tryLockCapitalWithTtl _ _ _ _ now _) => some now
  | lock (.cleanupExpired now) => some now
  | tryLockResourceWithTtl _ _ _ _ now _ _ _ => some now
  | _ => none

/-- The intent that a release, a renewal or a promotion names. -/
def forIntent : Op → Option IntentId
  | lock (.releaseLocks id) => some id
  | lock (.releaseLocksAfterConfirmedSell id) => some id
  | lock (.renewCapitalLockTtl id _ _) => some id
  | lock (.promoteCapitalLockToInFlight id) => some id
  | _ => none

/-- The operation gives back the pool locks of `id`: a release, or a promotion that finds the
    capital lock it promotes. -/
def GivesBack (m : LockManager) (id : IntentId) : Op → Prop
  | lock (.releaseLocks id') => id' = id
  | lock (.releaseLocksAfterConfirmedSell id') => id' = id
  | lock (.promoteCapitalLockToInFlight id') => id' = id ∧ (m.capitalLocks.lookup id).isSome
  | _ => False

/-- The operation sweeps, and the lock's TTL has passed at that reading. -/
def Expires (l : ResourceLock) (op : Op) : Prop :=
  ∃ now, op.sweptAt = some now ∧ l.ttl < now - l.createdAt

/-- Another intent's request for the key beats the lock. -/
def Beats (m : LockManager) (key : ResourceId) (l : ResourceLock) : Op → Prop
  | tryLockResourceWithTtl holder rid _ _ _ nowStarved _ _ =>
      rid = key ∧ holder.intentId ≠ l.holder.intentId ∧ m.Preempts holder l nowStarved
  | _ => False

/-- A request for the key by `id` itself. -/
def AsksAgain (key : ResourceId) (id : IntentId) : Op → Prop
  | tryLockResourceWithTtl holder rid _ _ _ _ _ _ => rid = key ∧ holder.intentId = id
  | _ => False

/-- **How one operation may treat the resource locks.** -/
structure HandsOver (m : LockManager) (op : Op) : Prop where
  /-- A holder loses a key in the three ways only. -/
  handover : ∀ key l, m.resourceLocks.lookup key = some l →
    ¬ (op.apply m).HeldBy key l.holder.intentId →
      op.GivesBack m l.holder.intentId ∨ op.Expires l ∨ op.Beats m key l
  /-- A lock to which none of them happens, and which is not asked for again, is as it was. -/
  untouched : ∀ key l, m.resourceLocks.lookup key = some l →
    ¬ op.GivesBack m l.holder.intentId → ¬ op.Expires l → ¬ op.Beats m key l →
      ¬ op.AsksAgain key l.holder.intentId → (op.apply m).resourceLocks.lookup key = some l
  /-- A release, a renewal or a promotion leaves the locks of the other intents as they were. -/
  others : ∀ id, op.forIntent = some id → ∀ key l, m.resourceLocks.lookup key = some l →
    l.holder.intentId ≠ id → (op.apply m).resourceLocks.lookup key = some l
  /-- A refused request removes the locks that are past their TTL, and that is all. -/
  conflict : ∀ other, op.result m = some (.conflict other) → ∃ now, op.sweptAt = some now ∧
    (∀ key, (op.apply m).resourceLocks.lookup key =
      (m.resourceLocks.lookup key).filter fun l => !l.expired now) ∧
    ∀ id, (op.apply m).capitalLocks.lookup id =
      (m.capitalLocks.lookup id).filter fun l => !l.expired now

end Op

/-! ## 2. Sweeps, releases and attempts, key by key -/

namespace LockManager

variable {m : LockManager} {key : ResourceId} {l : ResourceLock}

/-- A sweep leaves a lock whose TTL has not passed. -/
theorem lookup_sweep_fresh {now : Instant} (hl : m.resourceLocks.lookup key = some l)
    (h : ¬ l.ttl < now - l.createdAt) :
    (m.cleanupExpired now).resourceLocks.lookup key = some l := by
  have hfresh : l.expired now = false := decide_eq_false h
  rw [lookup_resourceLocks_cleanupExpired, hl, Option.filter_some, hfresh]
  rfl

theorem lookup_releaseResources_ne {id : IntentId} (hl : m.resourceLocks.lookup key = some l)
    (h : l.holder.intentId ≠ id) :
    (m.releaseResourceLocksForIntent id).resourceLocks.lookup key = some l := by
  rw [lookup_releaseResources, hl, Option.filter_some, decide_eq_false h]
  rfl

/-- A release of either kind leaves the locks of the other intents. -/
theorem lookup_release_resource_ne {id : IntentId} (rt : Bool)
    (hl : m.resourceLocks.lookup key = some l) (h : l.holder.intentId ≠ id) :
    ((m.releaseCapitalLockRestoreTokens id rt).releaseResourceLocksForIntent
      id).resourceLocks.lookup key = some l := by
  have hsame := (m.capitalOnly_release id rt).resourceLocks
  exact lookup_releaseResources_ne (by rw [hsame]; exact hl) h

/-- A promotion that finds no capital lock, or another intent's, leaves the lock. -/
theorem lookup_promote_resource {id : IntentId} (hl : m.resourceLocks.lookup key = some l)
    (h : ¬ (id = l.holder.intentId ∧ (m.capitalLocks.lookup l.holder.intentId).isSome)) :
    (m.promoteCapitalLockToInFlight id).2.resourceLocks.lookup key = some l := by
  have hsame := (m.capitalOnly_promote id).resourceLocks
  unfold promoteCapitalLockToInFlight
  unfold promoteCapital at hsame ⊢
  cases hc : m.capitalLocks.lookup id with
  | none => exact hl
  | some lock =>
      rw [hc] at hsame
      have hne : l.holder.intentId ≠ id := by
        intro he
        refine h ⟨he.symm, ?_⟩
        rw [he, hc]
        rfl
      exact lookup_releaseResources_ne (by rw [hsame]; exact hl) hne

/-- An attempt on capital leaves to the resource locks what its sweep leaves. -/
theorem resourceLocks_tryLockCapital (m : LockManager) (holder : LockHolder) (sol : UInt64)
    (tokens : TokenMap) (ttl : Option Duration) (now createdAt : Instant) :
    (m.tryLockCapitalWithTtl holder sol tokens ttl now createdAt).2.resourceLocks =
      (m.cleanupExpired now).resourceLocks :=
  ((m.cleanupExpired now).capitalOnly_acquireCapital holder sol tokens ttl _ createdAt).resourceLocks

theorem preempts_sweep {holder : LockHolder} {now nowStarved : Instant} :
    (m.cleanupExpired now).Preempts holder l nowStarved ↔ m.Preempts holder l nowStarved := by
  unfold Preempts
  rw [fairness_cleanupExpired]

/-- **An attempt and a live lock of another intent** that it does not beat. -/
theorem lookup_attempt_ne {holder : LockHolder} {rid : ResourceId} {now nowStarved : Instant}
    (hl : m.resourceLocks.lookup key = some l) (hfresh : ¬ l.ttl < now - l.createdAt)
    (h : rid = key → holder.intentId ≠ l.holder.intentId ∧ ¬ m.Preempts holder l nowStarved)
    (ty : ResourceType) (ttl : Option Duration) (nowRecord createdAt : Instant) :
    (m.tryLockResourceWithTtl holder rid ty ttl now nowStarved nowRecord
      createdAt).2.resourceLocks.lookup key = some l := by
  have hswept := lookup_sweep_fresh hl hfresh
  unfold tryLockResourceWithTtl
  by_cases hrid : rid = key
  · subst hrid
    obtain ⟨hne, hno⟩ := h rfl
    rw [acquireResource_refused hswept hne.symm (fun hp => hno (preempts_sweep.mp hp)) ty ttl
      nowRecord createdAt]
    exact hswept
  · rcases acquireResource_cases (m.cleanupExpired now) holder rid ty ttl nowStarved nowRecord
      createdAt with ⟨_, heq⟩ | ⟨_, heq⟩
    · rw [heq]
      exact hswept
    · rw [heq, AList.lookup_insert_ne (Ne.symm hrid)]
      exact hswept

/-- An intent that asks again for a lock it holds keeps it. -/
theorem heldBy_attempt_own {holder : LockHolder} {now : Instant}
    (hl : m.resourceLocks.lookup key = some l) (hfresh : ¬ l.ttl < now - l.createdAt)
    (h : holder.intentId = l.holder.intentId) (ty : ResourceType) (ttl : Option Duration)
    (nowStarved nowRecord createdAt : Instant) :
    (m.tryLockResourceWithTtl holder key ty ttl now nowStarved nowRecord createdAt).2.HeldBy key
      l.holder.intentId := by
  have hswept := lookup_sweep_fresh hl hfresh
  unfold tryLockResourceWithTtl acquireResource
  rw [hswept]
  dsimp only
  rw [if_pos h.symm]
  exact ⟨_, AList.lookup_insert _, h⟩

/-- A refused attempt on a resource leaves what its sweep leaves. -/
theorem attempt_conflict {holder : LockHolder} {rid : ResourceId} {ty : ResourceType}
    {ttl : Option Duration} {now nowStarved nowRecord createdAt : Instant} {other : LockHolder}
    (h : (m.tryLockResourceWithTtl holder rid ty ttl now nowStarved nowRecord createdAt).1 =
      .conflict other) :
    (m.tryLockResourceWithTtl holder rid ty ttl now nowStarved nowRecord createdAt).2 =
      m.cleanupExpired now := by
  unfold tryLockResourceWithTtl acquireResource at h ⊢
  cases hr : (m.cleanupExpired now).resourceLocks.lookup rid with
  | none => rw [hr] at h; cases h
  | some existing =>
      rw [hr] at h
      dsimp only at h ⊢
      split at h
      · cases h
      · next hid =>
          rw [if_neg hid]
          split at h
          · next htier =>
              rw [if_pos htier]
              split at h
              · next hblock => rw [if_pos hblock]
              · cases h
          · next htier => rw [if_neg htier]

/-- The winner of a preemption is another intent. -/
theorem attempt_preempted {holder : LockHolder} {rid : ResourceId} {ty : ResourceType}
    {ttl : Option Duration} {now nowStarved nowRecord createdAt : Instant}
    {preempted : LockHolder}
    (h : (m.tryLockResourceWithTtl holder rid ty ttl now nowStarved nowRecord createdAt).1 =
      .acquiredByPreemption preempted) : holder.intentId ≠ preempted.intentId := by
  unfold tryLockResourceWithTtl acquireResource at h
  cases hr : (m.cleanupExpired now).resourceLocks.lookup rid with
  | none => rw [hr] at h; cases h
  | some existing =>
      rw [hr] at h
      dsimp only at h
      split at h
      · cases h
      · next hid =>
          split at h
          · split at h
            · cases h
            · cases h
              exact Ne.symm hid
          · cases h

end LockManager

/-! ## 3. The law -/

namespace Op

/-- **A lock to which nothing happens is as it was.** -/
theorem untouched_apply {m : LockManager} {op : Op} {key : ResourceId} {l : ResourceLock}
    (hl : m.resourceLocks.lookup key = some l) (hback : ¬ op.GivesBack m l.holder.intentId)
    (hexp : ¬ op.Expires l) (hbeat : ¬ op.Beats m key l)
    (hask : ¬ op.AsksAgain key l.holder.intentId) :
    (op.apply m).resourceLocks.lookup key = some l := by
  have hfresh : ∀ now, op.sweptAt = some now → ¬ l.ttl < now - l.createdAt :=
    fun now hs hlt => hexp ⟨now, hs, hlt⟩
  cases op with
  | lock o =>
      cases o with
      | tryLockCapital holder sol tokens now createdAt =>
          show (m.tryLockCapitalWithTtl holder sol tokens none now
            createdAt).2.resourceLocks.lookup key = _
          rw [resourceLocks_tryLockCapital]
          exact lookup_sweep_fresh hl (hfresh now rfl)
      | tryLockCapitalWithTtl holder sol tokens ttl now createdAt =>
          show (m.tryLockCapitalWithTtl holder sol tokens ttl now
            createdAt).2.resourceLocks.lookup key = _
          rw [resourceLocks_tryLockCapital]
          exact lookup_sweep_fresh hl (hfresh now rfl)
      | releaseLocks id => exact lookup_release_resource_ne true hl (Ne.symm hback)
      | releaseLocksAfterConfirmedSell id =>
          exact lookup_release_resource_ne false hl (Ne.symm hback)
      | cleanupExpired now => exact lookup_sweep_fresh hl (hfresh now rfl)
      | renewCapitalLockTtl id ttl now =>
          show (m.renewCapitalLockTtl id ttl now).2.resourceLocks.lookup key = _
          rw [(m.capitalOnly_renew id ttl now).resourceLocks]
          exact hl
      | promoteCapitalLockToInFlight id => exact lookup_promote_resource hl hback
  | refresh r =>
      show (r.apply m).resourceLocks.lookup key = _
      rw [(RefreshOp.sameTables_apply m r).resourceLocks]
      exact hl
  | tryLockResourceWithTtl holder rid ty ttl now nowStarved nowRecord createdAt =>
      refine lookup_attempt_ne hl (hfresh now rfl) (fun hrid => ?_) ty ttl nowRecord createdAt
      have hne : holder.intentId ≠ l.holder.intentId := fun hid => hask ⟨hrid, hid⟩
      exact ⟨hne, fun hp => hbeat ⟨hrid, hne, hp⟩⟩
  | _ => exact hl

/-- A holder whose lock is neither given back nor expired nor beaten still holds it. -/
theorem heldBy_apply {m : LockManager} {op : Op} {key : ResourceId} {l : ResourceLock}
    (hl : m.resourceLocks.lookup key = some l) (hback : ¬ op.GivesBack m l.holder.intentId)
    (hexp : ¬ op.Expires l) (hbeat : ¬ op.Beats m key l) :
    (op.apply m).HeldBy key l.holder.intentId := by
  by_cases hask : op.AsksAgain key l.holder.intentId
  · cases op with
    | tryLockResourceWithTtl holder rid ty ttl now nowStarved nowRecord createdAt =>
        obtain ⟨rfl, hid⟩ := hask
        exact heldBy_attempt_own hl (fun hlt => hexp ⟨now, rfl, hlt⟩) hid ty ttl nowStarved
          nowRecord createdAt
    | _ => exact hask.elim
  · exact ⟨l, untouched_apply hl hback hexp hbeat hask, rfl⟩

/-- **An operation for one intent leaves the locks of the others alone.** -/
theorem lookup_forIntent {m : LockManager} {op : Op} {id : IntentId}
    (hop : op.forIntent = some id) {key : ResourceId} {l : ResourceLock}
    (hl : m.resourceLocks.lookup key = some l) (h : l.holder.intentId ≠ id) :
    (op.apply m).resourceLocks.lookup key = some l := by
  cases op with
  | lock o =>
      cases o with
      | releaseLocks id' =>
          cases hop
          exact lookup_release_resource_ne true hl h
      | releaseLocksAfterConfirmedSell id' =>
          cases hop
          exact lookup_release_resource_ne false hl h
      | renewCapitalLockTtl id' ttl now =>
          show (m.renewCapitalLockTtl id' ttl now).2.resourceLocks.lookup key = _
          rw [(m.capitalOnly_renew id' ttl now).resourceLocks]
          exact hl
      | promoteCapitalLockToInFlight id' =>
          cases hop
          exact lookup_promote_resource hl fun ⟨he, _⟩ => h he.symm
      | _ => cases hop
  | _ => cases hop

/-- **A refused request leaves what its sweep leaves.** -/
theorem conflict_apply {m : LockManager} {op : Op} {other : LockHolder}
    (h : op.result m = some (.conflict other)) :
    ∃ now, op.sweptAt = some now ∧ op.apply m = m.cleanupExpired now := by
  cases op with
  | lock o =>
      cases o with
      | tryLockCapital holder sol tokens now createdAt =>
          refine ⟨now, rfl, LockOp.rejected_tryLock m holder sol tokens none now createdAt ?_⟩
          have hr : (m.tryLockCapitalWithTtl holder sol tokens none now createdAt).1 =
              .conflict other := Option.some.inj h
          rw [hr]
          rfl
      | tryLockCapitalWithTtl holder sol tokens ttl now createdAt =>
          refine ⟨now, rfl, LockOp.rejected_tryLock m holder sol tokens ttl now createdAt ?_⟩
          have hr : (m.tryLockCapitalWithTtl holder sol tokens ttl now createdAt).1 =
              .conflict other := Option.some.inj h
          rw [hr]
          rfl
      | _ => cases h
  | tryLockResourceWithTtl holder rid ty ttl now nowStarved nowRecord createdAt =>
      exact ⟨now, rfl, attempt_conflict (Option.some.inj h)⟩
  | _ => cases h

theorem handsOver (m : LockManager) (op : Op) : op.HandsOver m where
  handover key l hl hlost := by
    by_contra hno
    obtain ⟨hback, hrest⟩ := not_or.mp hno
    obtain ⟨hexp, hbeat⟩ := not_or.mp hrest
    exact hlost (heldBy_apply hl hback hexp hbeat)
  untouched _ _ hl hback hexp hbeat hask := untouched_apply hl hback hexp hbeat hask
  others _ hop _ _ hl h := lookup_forIntent hop hl h
  conflict other h := by
    obtain ⟨now, hs, heq⟩ := conflict_apply h
    refine ⟨now, hs, fun key => ?_, fun id => ?_⟩
    · rw [heq, lookup_resourceLocks_cleanupExpired]
    · rw [heq, lookup_capitalLocks_cleanupExpired]

end Op

/-- **RESOURCE LOCKS CHANGE HANDS LEGITIMATELY.** In every state every operation hands over as
    the law says; and after `holder` took the key from `preempted`, in every run, an operation
    for the preempted intent leaves every lock of the winner as it finds it. -/
theorem resource_handover (m : LockManager) :
    (∀ op : Op, op.HandsOver m) ∧
    ∀ (holder preempted : LockHolder) (rid : ResourceId) (ty : ResourceType)
      (ttl : Option Duration) (now nowStarved nowRecord createdAt : Instant),
      (m.tryLockResourceWithTtl holder rid ty ttl now nowStarved nowRecord createdAt).1 =
        .acquiredByPreemption preempted →
      ∀ tr m', Machine.Run Op.Step
        (m.tryLockResourceWithTtl holder rid ty ttl now nowStarved nowRecord createdAt).2 tr m' →
      ∀ op : Op, op.forIntent = some preempted.intentId →
      ∀ key l, m'.resourceLocks.lookup key = some l → l.holder.intentId = holder.intentId →
        (op.apply m').resourceLocks.lookup key = some l := by
  refine ⟨Op.handsOver m, ?_⟩
  intro holder preempted rid ty ttl now nowStarved nowRecord createdAt hres tr m' _ op hop key l
    hl hown
  have hne := attempt_preempted hres
  exact Op.lookup_forIntent hop hl (by rw [hown]; exact hne)

/-- A low-tier intent with capital and a pool. -/
def lowOnPool : LockManager :=
  let holder : LockHolder := ⟨"low", none, 3, some "momentum"⟩
  let m := ((LockManager.new 100).tryLockCapital holder 10 ∅ 0 0).2
  (m.tryLockResource holder "pool" .pool 0 0 0 0).2

/-- `resource_handover` after a preemption: the release of the loser leaves the winner's lock. -/
theorem resource_handover_preempted :
    ((lowOnPool.tryLockResource ⟨"high", none, 0, none⟩ "pool" .pool 5 5 5
      5).2.releaseLocks "low").resourceLocks.lookup "pool" =
      some ⟨⟨"high", none, 0, none⟩, "pool", .pool, 5, 30000⟩ :=
  (resource_handover lowOnPool).2 ⟨"high", none, 0, none⟩ ⟨"low", none, 3, some "momentum"⟩ "pool"
    .pool none 5 5 5 5 (by decide) [] _ .start (.lock (.releaseLocks "low")) rfl "pool" _
    (by decide) rfl

/-- **A promotion gives up the pool, a refused request sweeps other pools.** The promotion is no
    release, no sweep and no request, and the lock of `low` is gone after it; and a request that
    is refused for `pool` removes the lock of `other`, whose TTL has passed. -/
theorem promotion_gives_up_pool :
    (let promotion : LockOp := .promoteCapitalLockToInFlight "low"
     (lowOnPool.resourceLocks.lookup "pool").map (·.holder.intentId) = some "low" ∧
       ((Op.lock promotion).apply lowOnPool).resourceLocks.lookup "pool" = none ∧
       promotion.releases = none ∧ (Op.lock promotion).sweptAt = none ∧
       (Op.lock promotion).result lowOnPool = none) ∧
    (let m := (lowOnPool.tryLockResourceWithTtl (.new "idle") "other" .pool (some 10) 0 0 0 0).2
     let request : Op := .tryLockResourceWithTtl (.new "late") "pool" .pool none 20 20 20 20
     request.result m = some (.conflict ⟨"low", none, 3, some "momentum"⟩) ∧
       (m.resourceLocks.lookup "other").isSome = true ∧
       (request.apply m).resourceLocks.lookup "other" = none) := by
  decide

end IronCrab

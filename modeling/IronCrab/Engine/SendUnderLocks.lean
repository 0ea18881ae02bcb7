/-
  File:      IronCrab/Engine/SendUnderLocks.lean
  Subject:   A SUBMISSION AND ITS LOCKS (src/bin/execution_engine.rs, `process_intent`): one run,
             with the lock operations, preemptions and cleanups of other intents in between.

  The locks are taken once, for the pools the intent comes with, and nothing looks at them again
  before the submission. They are there when nobody took them away meanwhile, and they are the
  right ones when the pools did not change.

  * `linked_own`, `linked_foreign` -- one action of the run, one of another intent;
  * **`sent_under_locks`** -- every submission is made under the capital lock and a lock on every
    pool of the intent, in runs whose steps are good;
  * `fallback_sent_without_lock` -- a cold-path SELL that takes a fallback route is submitted for
    a pool it never locked.
-/
import IronCrab.Engine.System
import IronCrab.Storage.Refresh

namespace IronCrab

open Effect (Setting Sys Event Label)
open Machine (Along foldSteps)
open ExecutionContext (locksAfter)

/-- The intent whose locks an action is on. -/
def Act.actor : Act → Option IntentId
  | .tryLockResource holder .. => some holder.intentId
  | .tryLockCapital holder .. => some holder.intentId
  | .renewCapitalLockTtl id _ => some id
  | .promoteCapital id => some id
  | .releaseCapital id _ => some id
  | .releaseResources id => some id
  | _ => none

/-- The intent that an action submits. -/
def Act.submitted : Act → Option TradeIntent
  | .submit j _ => some j
  | _ => none

/-- The locks have to be there: some are taken and nothing is sent. -/
def Phase.relies : Phase → Bool
  | .locking _ => true
  | .holding => true
  | _ => false

namespace SendUnderLocks

/-! ## 1. The run and its surroundings -/

/-- What happens beside the run: other intents, the cleanup timer, wallet events. -/
inductive Foreign where
  | act (w : World) (a : Act)
  | cleanup (now : Instant)
  | wallet (r : RefreshOp)

/-- The context after it. -/
def applyForeign (c : ExecutionContext) : Foreign → ExecutionContext
  | .act w a => c.after w a
  | .cleanup now => c.setLocks (c.lockManager.cleanupExpired now)
  | .wallet r => c.setLocks (r.apply c.lockManager)

inductive Move where
  | own (w : World)
  | foreign (f : Foreign)

/-- One action of the run or beside it. -/
def move (setup : EngineSetup) (config : ExecutionConfig) (s : Engine) : Move → Engine
  | .own w => (engine setup config applyForeign).step s (.run 0 w)
  | .foreign f => (engine setup config applyForeign).step s (.env f)

/-- The run before its first action. -/
def begin (setup : EngineSetup) (config : ExecutionConfig) (c : ExecutionContext)
    (i : TradeIntent) : Engine :=
  (engine setup config applyForeign).step (Engine.idle c) (.spawn i)

/-- The run has taken locks and sent nothing. -/
def relying (s : Engine) : Bool := (s.tasks[0]?).any fun task => task.stage.phase.relies

/-! ## 2. The property and the condition -/

def LockedBy (m : LockManager) (id : IntentId) (pool : ResourceId) : Prop :=
  ∃ lock, m.resourceLocks.lookup pool = some lock ∧ lock.holder.intentId = id

/-- **The intent holds its capital and each of its pools.** -/
structure UnderLocks (m : LockManager) (j : TradeIntent) : Prop where
  capital : (m.capitalLocks.lookup j.intentId).isSome = true
  pools : ∀ pool ∈ j.resources.pools, LockedBy m j.intentId pool

/-- If the move is a submission, it is made under the intent's locks. -/
def Covered (s : Engine) : Move → Prop
  | .own _ => ∀ x ∈ s.standing 0, ∀ j ∈ x.2.2.submitted, UnderLocks s.ctx.lockManager j
  | .foreign _ => True

/-- No lock of the intent has expired. -/
structure Unexpired (m : LockManager) (i : TradeIntent) (now : Instant) : Prop where
  capital : ∀ lock ∈ m.capitalLocks.lookup i.intentId, lock.expired now = false
  pools : ∀ pool ∈ i.resources.pools, ∀ lock ∈ m.resourceLocks.lookup pool,
    lock.holder.intentId = i.intentId → lock.expired now = false

/-- The action of another intent takes no lock of `i` away, by expiry or by preemption. -/
def Harmless (m : LockManager) (i : TradeIntent) (w : World) (a : Act) : Prop :=
  (a.isLockAttempt = true → Unexpired m i w.now) ∧
    match a with
    | .tryLockResource holder pool _ => pool ∈ i.resources.pools →
        ∀ lock ∈ m.resourceLocks.lookup pool, lock.holder.intentId = i.intentId →
          ¬ m.Preempts holder lock w.nowStarved
    | _ => True

/-- The other intents have other ids; while the run relies on its locks, they do not take them
    away. -/
def GoodForeign (i : TradeIntent) (s : Engine) : Foreign → Prop
  | .act w a => a.actor ≠ some i.intentId ∧
      (relying s = true → Harmless s.ctx.lockManager i w a)
  | .cleanup now => relying s = true → Unexpired s.ctx.lockManager i now
  | .wallet _ => True

/-- The attempts of the run itself find none of its locks expired; it is submitted for pools that
    it was accepted with. -/
def GoodOwn (i : TradeIntent) (m : LockManager) (now : Instant) (g : Stage) : Act → Prop
  | .tryLockResource .. => g.phase.relies = true → Unexpired m i now
  | .tryLockCapital .. => g.phase.relies = true → Unexpired m i now
  | .submit j _ => ∀ pool ∈ j.resources.pools, pool ∈ i.resources.pools
  | _ => True

def Good (i : TradeIntent) (s : Engine) : Move → Prop
  | .own w => ∀ x ∈ s.standing 0, GoodOwn i s.ctx.lockManager w.now x.2.1 x.2.2
  | .foreign f => GoodForeign i s f

section Decidable

variable (m : LockManager) (i : TradeIntent) (w : World) (now : Instant) (s : Engine)

instance : Decidable (Unexpired m i now) :=
  decidable_of_iff ((∀ lock ∈ m.capitalLocks.lookup i.intentId, lock.expired now = false) ∧
    ∀ pool ∈ i.resources.pools, ∀ lock ∈ m.resourceLocks.lookup pool,
      lock.holder.intentId = i.intentId → lock.expired now = false)
    ⟨fun h => ⟨h.1, h.2⟩, fun h => ⟨h.capital, h.pools⟩⟩

instance (id : IntentId) (pool : ResourceId) : Decidable (LockedBy m id pool) :=
  decidable_of_iff ((m.resourceLocks.lookup pool).any fun lock =>
    decide (lock.holder.intentId = id)) (by simp [LockedBy, Option.any_eq_true])

instance : Decidable (UnderLocks m i) :=
  decidable_of_iff ((m.capitalLocks.lookup i.intentId).isSome = true ∧
    ∀ pool ∈ i.resources.pools, LockedBy m i.intentId pool)
    ⟨fun h => ⟨h.1, h.2⟩, fun h => ⟨h.capital, h.pools⟩⟩

instance : ∀ x, Decidable (Covered s x)
  | .own _ => inferInstanceAs (Decidable (∀ x ∈ s.standing 0, ∀ j ∈ x.2.2.submitted, _))
  | .foreign _ => .isTrue trivial

instance (holder : LockHolder) (lock : ResourceLock) (nowStarved : Instant) :
    Decidable (m.Preempts holder lock nowStarved) := inferInstanceAs (Decidable (_ ∧ _))

/-- The holder and the pool of a lock attempt on a pool. -/
def resourceAttempt : Act → Option (LockHolder × ResourceId)
  | .tryLockResource holder pool _ => some (holder, pool)
  | _ => none

instance (a : Act) : Decidable (Harmless m i w a) :=
  decidable_of_iff ((a.isLockAttempt = true → Unexpired m i w.now) ∧
    ∀ x ∈ resourceAttempt a, x.2 ∈ i.resources.pools →
      ∀ lock ∈ m.resourceLocks.lookup x.2, lock.holder.intentId = i.intentId →
        ¬ m.Preempts x.1 lock w.nowStarved)
    (by cases a <;> simp [Harmless, resourceAttempt])

instance : ∀ f, Decidable (GoodForeign i s f)
  | .act w a => inferInstanceAs (Decidable (a.actor ≠ some i.intentId ∧
      (relying s = true → Harmless s.ctx.lockManager i w a)))
  | .cleanup now => inferInstanceAs (Decidable (_ → Unexpired s.ctx.lockManager i now))
  | .wallet _ => .isTrue trivial

instance (g : Stage) (a : Act) : Decidable (GoodOwn i m now g a) :=
  decidable_of_iff ((a.isLockAttempt = true → g.phase.relies = true → Unexpired m i now) ∧
    ∀ j ∈ a.submitted, ∀ pool ∈ j.resources.pools, pool ∈ i.resources.pools)
    (by cases a <;> simp [GoodOwn, Act.isLockAttempt, Act.submitted])

instance : ∀ x, Decidable (Good i s x)
  | .own w => inferInstanceAs (Decidable (∀ x ∈ s.standing 0,
      GoodOwn i s.ctx.lockManager w.now x.2.1 x.2.2))
  | .foreign f => inferInstanceAs (Decidable (GoodForeign i s f))

end Decidable

/-! ## 3. One action -/

/-- What each phase relies on. -/
def Linked (i : TradeIntent) (m : LockManager) : Phase → Prop
  | .locking got => ∀ pool ∈ got, pool ∈ i.resources.pools ∧ LockedBy m i.intentId pool
  | .holding => UnderLocks m i
  | _ => True

section Step

variable {config : ExecutionConfig} {i : TradeIntent} {m m' : LockManager} {ph : Phase} {g : Stage}
  {c : ExecutionContext} {w : World} {a : Act}

/-- The intent keeps what it has. -/
structure Keeps (i : TradeIntent) (m m' : LockManager) : Prop where
  capital : (m.capitalLocks.lookup i.intentId).isSome = true →
    (m'.capitalLocks.lookup i.intentId).isSome = true
  pools : ∀ pool ∈ i.resources.pools, LockedBy m i.intentId pool → LockedBy m' i.intentId pool

theorem keeps_same (hcap : m'.capitalLocks = m.capitalLocks)
    (hpools : m'.resourceLocks = m.resourceLocks) : Keeps i m m' := by
  refine ⟨fun h => ?_, fun pool _ h => ?_⟩
  · rw [hcap]
    exact h
  · unfold LockedBy
    rw [hpools]
    exact h

theorem Keeps.trans {m'' : LockManager} (h : Keeps i m m') (h' : Keeps i m' m'') :
    Keeps i m m'' :=
  ⟨fun hc => h'.capital (h.capital hc), fun pool hp hl => h'.pools pool hp (h.pools pool hp hl)⟩

/-- What is kept is still enough. -/
theorem Linked.keep (h : Linked i m ph) (hk : Keeps i m m') : Linked i m' ph := by
  cases ph with
  | locking got => exact fun pool hp => ⟨(h pool hp).1, hk.pools pool (h pool hp).1 (h pool hp).2⟩
  | holding => exact ⟨hk.capital h.capital, fun pool hp => hk.pools pool hp (h.pools pool hp)⟩
  | _ => trivial

/-- The phase stays, and so do the locks. -/
theorem Linked.stay (h : Linked i m ph) (hcap : m'.capitalLocks = m.capitalLocks)
    (hpools : m'.resourceLocks = m.resourceLocks) (d : Did) : Linked i m' (ph.noting d) := by
  have hkept := h.keep (keeps_same hcap hpools)
  cases ph with
  | booking fills slot done => trivial
  | _ => exact hkept

theorem Linked.recorded (h : Linked i m ph) (ok : Bool) : Linked i m (ph.recorded ok) := by
  cases ph with
  | gating => trivial
  | lossStop => trivial
  | reporting outcome computed slot => cases ok <;> trivial
  | _ => exact h

/-- A cleanup that finds none of the intent's locks expired. -/
theorem keeps_cleanupExpired {now : Instant} (h : Unexpired m i now) :
    Keeps i m (m.cleanupExpired now) := by
  refine ⟨fun hc => ?_, fun pool hp => ?_⟩
  · obtain ⟨lock, hl⟩ := Option.isSome_iff_exists.mp hc
    rw [m.lookup_capitalLocks_cleanupExpired now, hl]
    simp [h.capital lock hl]
  · rintro ⟨lock, hl, hid⟩
    refine ⟨lock, ?_, hid⟩
    rw [m.lookup_resourceLocks_cleanupExpired now, hl]
    simp [h.pools pool hp lock hl hid]

/-- A pool lock that is not refused for the intent. -/
theorem keeps_acquireResource (pool : ResourceId) (holder : LockHolder)
    (hid : holder.intentId = i.intentId) (ty : ResourceType) (ttl : Option Duration)
    (nowStarved nowRecord now : Instant) :
    Keeps i m (m.acquireResource holder pool ty ttl nowStarved nowRecord now).2 := by
  have hcap := m.capitalLocks_acquireResource holder pool ty ttl nowStarved nowRecord now
  rcases m.acquireResource_cases holder pool ty ttl nowStarved nowRecord now with
    ⟨_, hsame⟩ | ⟨_, hins⟩
  · exact keeps_same hcap hsame
  · refine ⟨fun h => ?_, fun pool' _ h => ?_⟩
    · rw [hcap]
      exact h
    · unfold LockedBy
      rw [hins]
      by_cases hp : pool' = pool
      · subst hp
        rw [AList.lookup_insert]
        exact ⟨_, rfl, hid⟩
      · rw [AList.lookup_insert_ne hp]
        exact h

theorem keeps_sameTables
    (hcap : m'.capitalLocks.lookup i.intentId = m.capitalLocks.lookup i.intentId)
    (h : m.SameTables m') : Keeps i m m' := by
  refine ⟨fun hc => ?_, fun pool _ hl => ?_⟩
  · rw [hcap]
    exact hc
  · unfold LockedBy
    rw [h.resourceLocks]
    exact hl

/-- **An attempt of the run itself.** -/
theorem linked_tryLockResource {holder : LockHolder} {pool : ResourceId} {ttl : Duration}
    (ha : Allows i g (.tryLockResource holder pool ttl)) (h : Linked i c.lockManager g.phase)
    (hgood : g.phase.relies = true → Unexpired c.lockManager i w.now) :
    Linked i (locksAfter c.lockManager w (.tryLockResource holder pool ttl))
      (g.phase.next config (.tryLockResource holder pool ttl)
        (c.answer w (.tryLockResource holder pool ttl))) := by
  obtain ⟨rfl, hpool, _, hgot⟩ := ha
  show Linked i ((c.lockManager.cleanupExpired w.now).acquireResource _ _ _ _ _ _ _).2
    (if ((c.lockManager.cleanupExpired w.now).acquireResource _ _ _ _ _ _ _).1.isConflict
      then Phase.denied else .locking _)
  split
  · trivial
  · next hno =>
      intro pool' hp
      rcases List.mem_append.mp hp with hold | hnew
      · cases hph : g.phase with
        | locking got =>
            rw [hph] at h hgood hold
            obtain ⟨hin, hlocked⟩ := h pool' hold
            have hkeep := (keeps_cleanupExpired (hgood rfl)).trans
              (keeps_acquireResource pool (ProcessIntent.holder i) rfl .pool (some ttl)
                w.nowStarved w.nowRecord w.createdAt)
            exact ⟨hin, hkeep.pools pool' hin hlocked⟩
        | _ =>
            rw [hph] at hold
            cases hold
      · rw [List.mem_singleton.mp hnew]
        refine ⟨hpool, ?_⟩
        rcases (c.lockManager.cleanupExpired w.now).acquireResource_cases (ProcessIntent.holder i)
            pool .pool (some ttl) w.nowStarved w.nowRecord w.createdAt with
          ⟨⟨other, hconf⟩, _⟩ | ⟨_, hins⟩
        · rw [hconf] at hno
          exact absurd rfl hno
        · unfold LockedBy
          rw [hins, AList.lookup_insert]
          exact ⟨_, rfl, rfl⟩

theorem linked_tryLockCapital {holder : LockHolder} {sol : UInt64} {tokens : TokenMap}
    {ttl : Duration} (ha : Allows i g (.tryLockCapital holder sol tokens ttl))
    (h : Linked i c.lockManager g.phase)
    (hgood : g.phase.relies = true → Unexpired c.lockManager i w.now) :
    Linked i (locksAfter c.lockManager w (.tryLockCapital holder sol tokens ttl))
      (g.phase.next config (.tryLockCapital holder sol tokens ttl)
        (c.answer w (.tryLockCapital holder sol tokens ttl))) := by
  obtain ⟨rfl, _, got, hgot, hall⟩ := ha
  show Linked i ((c.lockManager.cleanupExpired w.now).acquireCapital _ _ _ _ _ _).2
    (if ((c.lockManager.cleanupExpired w.now).acquireCapital _ _ _ _ _ _).1.isAcquired
      then Phase.holding else .denied)
  split
  · next hacq =>
      obtain ⟨lock, hlock⟩ := LockManager.lookup_acquireCapital_self _ _ _ _ _ _ _ hacq
      refine ⟨Option.isSome_iff_exists.mpr ⟨lock, hlock⟩, fun pool hp => ?_⟩
      cases hph : g.phase with
      | gating =>
          rw [hph] at hgot
          cases hgot
          cases hall pool hp
      | locking got' =>
          rw [hph] at hgot h hgood
          cases hgot
          have hclean := (keeps_cleanupExpired (hgood rfl)).pools pool hp (h pool (hall pool hp)).2
          unfold LockedBy
          rw [(LockManager.capitalOnly_acquireCapital _ _ _ _ _ _ _).resourceLocks]
          exact hclean
      | _ =>
          rw [hph] at hgot
          cases hgot
  · trivial

/-- **One action of the run.** -/
theorem linked_own (ha : Allows i g a) (h : Linked i c.lockManager g.phase)
    (hgood : GoodOwn i c.lockManager w.now g a) :
    Linked i (locksAfter c.lockManager w a) (g.phase.next config a (c.answer w a)) := by
  cases a with
  | tryLockResource holder pool ttl => exact linked_tryLockResource ha h hgood
  | tryLockCapital holder sol tokens ttl => exact linked_tryLockCapital ha h hgood
  | renewCapitalLockTtl id ttl =>
      obtain ⟨rfl, hph⟩ := ha
      rw [hph] at h ⊢
      refine ⟨(c.lockManager.isSome_renew i.intentId ttl w.createdAt).trans h.capital,
        fun pool hp => ?_⟩
      have hsame := (c.lockManager.capitalOnly_renew i.intentId ttl w.createdAt).resourceLocks
      unfold LockedBy
      show ∃ lock, (c.lockManager.renewCapitalLockTtl i.intentId ttl w.createdAt).2.resourceLocks.lookup
        pool = some lock ∧ _
      rw [hsame]
      exact h.pools pool hp
  | promoteCapital id =>
      rw [ha.2]
      trivial
  | markProcessed id =>
      rcases ha.2 with hph | hph | hph <;>
        · rw [hph]
          trivial
  | releaseCapital id rt => trivial
  | releaseResources id =>
      rcases ha.2 with hph | hph <;>
        · rw [hph]
          trivial
  | getDailyLossLamports =>
      show Linked i _ (if _ then Phase.lossStop else g.phase)
      split
      · trivial
      · exact h
  | submit j bundle =>
      show Linked i _ (if _ then Phase.sent else _)
      split <;> trivial
  | confirm j bundle => trivial
  | computeIntentFills j =>
      obtain ⟨computed, slot, hph⟩ := ha
      rw [hph]
      trivial
  | applyPositionAuthority exec =>
      obtain ⟨_, fills, slot, hph, _⟩ := ha
      rw [hph]
      trivial
  | writeDecision decision => exact h.recorded _
  | publishDecision decision => exact h.recorded _
  | writeExecution exec => exact h.recorded _
  | publishExecution exec => exact h.recorded _
  | _ =>
      refine h.stay ?_ ?_ _
      · rfl
      · rfl

/-- Another intent's action is not on the intent's capital lock. -/
theorem touches_of_actor {id : IntentId} (h : a.actor ≠ some id) : a.touches id = false := by
  cases a with
  | tryLockCapital holder sol tokens ttl => exact decide_eq_false fun he => h (congrArg some he)
  | renewCapitalLockTtl id' ttl => exact decide_eq_false fun he => h (congrArg some he)
  | promoteCapital id' => exact decide_eq_false fun he => h (congrArg some he)
  | releaseCapital id' rt => exact decide_eq_false fun he => h (congrArg some he)
  | _ => rfl

/-- An attempt on a pool that does not preempt the intent. -/
theorem keeps_foreign_attempt {holder : LockHolder} {pool : ResourceId} (ty : ResourceType)
    (ttl : Option Duration) {nowStarved : Instant} (nowRecord now : Instant)
    (hid : holder.intentId ≠ i.intentId)
    (hno : pool ∈ i.resources.pools → ∀ lock ∈ m.resourceLocks.lookup pool,
      lock.holder.intentId = i.intentId → ¬ m.Preempts holder lock nowStarved) :
    Keeps i m (m.acquireResource holder pool ty ttl nowStarved nowRecord now).2 := by
  refine ⟨fun hc => ?_, fun pool' hp => ?_⟩
  · rw [m.capitalLocks_acquireResource]
    exact hc
  · rintro ⟨lock, hl, hlock⟩
    by_cases hpool : pool' = pool
    · subst hpool
      have hne : lock.holder.intentId ≠ holder.intentId := fun he => hid (he.symm.trans hlock)
      rw [LockManager.acquireResource_refused hl hne (hno hp lock hl hlock)]
      exact ⟨lock, hl, hlock⟩
    · unfold LockedBy
      rcases m.acquireResource_cases holder pool ty ttl nowStarved nowRecord now with
        ⟨_, hsame⟩ | ⟨_, hins⟩
      · rw [hsame]
        exact ⟨lock, hl, hlock⟩
      · rw [hins, AList.lookup_insert_ne hpool]
        exact ⟨lock, hl, hlock⟩

/-- **One action of another intent.** -/
theorem keeps_foreign_act (hactor : a.actor ≠ some i.intentId) (h : Harmless m i w a) :
    Keeps i m (locksAfter m w a) := by
  obtain ⟨hclean, hno⟩ := h
  cases a with
  | tryLockResource holder pool ttl =>
      refine (keeps_cleanupExpired (hclean rfl)).trans
        (keeps_foreign_attempt .pool (some ttl) w.nowRecord w.createdAt
          (fun he => hactor (congrArg some he)) fun hp lock hl hlock => ?_)
      have hold : lock ∈ m.resourceLocks.lookup pool := by
        rw [Option.mem_def, m.lookup_resourceLocks_cleanupExpired w.now] at hl
        exact (Option.filter_eq_some_iff.mp hl).1
      unfold LockManager.Preempts
      rw [m.fairness_cleanupExpired w.now]
      exact hno hp lock hold hlock
  | tryLockCapital holder sol tokens ttl =>
      refine (keeps_cleanupExpired (hclean rfl)).trans (keeps_sameTables ?_
        (LockManager.capitalOnly_acquireCapital _ _ _ _ _ _ _).sameTables)
      exact LockManager.lookup_acquireCapital_ne _ _ _ _ _ _ _ fun he => hactor (congrArg some he)
  | releaseResources id =>
      refine ⟨fun hc => hc, fun pool _ => ?_⟩
      rintro ⟨lock, hl, hlock⟩
      refine ⟨lock, ?_, hlock⟩
      show (m.releaseResourceLocksForIntent id).resourceLocks.lookup pool = some lock
      rw [m.lookup_releaseResources id pool, hl]
      have hne : lock.holder.intentId ≠ id := by
        rw [hlock]
        exact fun he => hactor (congrArg some he.symm)
      simp [hne]
  | _ =>
      refine ⟨fun hc => ?_, fun pool _ hl => ?_⟩
      · rw [lookup_locksAfter m w (touches_of_actor hactor)]
        exact hc
      · unfold LockedBy
        rw [resourceLocks_locksAfter m w rfl]
        exact hl

theorem keeps_foreign {f : Foreign} {s : Engine} (h : GoodForeign i s f)
    (hrely : relying s = true) : Keeps i s.ctx.lockManager (applyForeign s.ctx f).lockManager := by
  cases f with
  | act w a =>
      show Keeps i s.ctx.lockManager (s.ctx.after w a).lockManager
      rw [s.ctx.lockManager_after w a]
      exact keeps_foreign_act h.1 (h.2 hrely)
  | cleanup now => exact keeps_cleanupExpired (h hrely)
  | wallet r =>
      exact keeps_same (r.capitalLocks_apply s.ctx.lockManager)
        (r.sameTables_apply s.ctx.lockManager).resourceLocks

end Step

/-! ## 4. Runs -/

section Runs

variable {setup : EngineSetup} {config : ExecutionConfig} {i : TradeIntent} {s : Engine}

/-- The run, in a phase that is linked to the lock manager. -/
def RunInv (config : ExecutionConfig) (i : TradeIntent) (s : Engine) : Prop :=
  ∃ p g, s.tasks = [⟨i, p, g⟩] ∧ IronCrab.Runs config i g p ∧ Linked i s.ctx.lockManager g.phase

theorem runInv_begin (c : ExecutionContext) : RunInv config i (begin setup config c i) :=
  ⟨_, .start, rfl, processIntent_follows setup config i, trivial⟩

theorem runInv_own {w : World} (h : RunInv config i s) (hgood : Good i s (.own w)) :
    RunInv config i (move setup config s (.own w)) := by
  have hinv := h
  obtain ⟨p, g, htasks, hruns, hlinked⟩ := h
  have htask : s.tasks[0]? = some ⟨i, p, g⟩ := by
    rw [htasks]
    rfl
  cases p with
  | ret x =>
      have hstep : move setup config s (.own w) = s := by
        unfold move Setting.step
        simp only [htask]
      rw [hstep]
      exact hinv
  | act a k =>
      have hstep : move setup config s (.own w) =
          (engine setup config applyForeign).acted s 0 w i g a k := by
        unfold move Setting.step
        simp only [htask]
      rw [hstep]
      refine ⟨k (s.ctx.answer w a), g.next config i a (s.ctx.answer w a), ?_, hruns.2 _, ?_⟩
      · show s.tasks.set 0 _ = _
        rw [htasks]
        rfl
      · show Linked i (s.ctx.after w a).lockManager _
        rw [s.ctx.lockManager_after w a]
        exact linked_own hruns.1 hlinked (hgood _ (Engine.standing_eq htask))

theorem runInv_foreign {f : Foreign} (h : RunInv config i s) (hgood : GoodForeign i s f) :
    RunInv config i (move setup config s (.foreign f)) := by
  obtain ⟨p, g, htasks, hruns, hlinked⟩ := h
  refine ⟨p, g, htasks, hruns, ?_⟩
  show Linked i (applyForeign s.ctx f).lockManager g.phase
  cases hrely : g.phase.relies with
  | true =>
      refine hlinked.keep (keeps_foreign hgood ?_)
      unfold relying
      rw [htasks]
      exact hrely
  | false =>
      cases hph : g.phase with
      | locking got =>
          rw [hph] at hrely
          cases hrely
      | holding =>
          rw [hph] at hrely
          cases hrely
      | _ => trivial

theorem covered_of_inv {x : Move} (h : RunInv config i s) (hgood : Good i s x) : Covered s x := by
  cases x with
  | foreign f => trivial
  | own w =>
      obtain ⟨p, g, htasks, hruns, hlinked⟩ := h
      intro x hx j hsubmit
      have htask : s.tasks[0]? = some ⟨i, p, g⟩ := by
        rw [htasks]
        rfl
      cases p with
      | ret r =>
          unfold Engine.standing at hx
          rw [htask] at hx
          cases hx
      | act a k =>
          have hpools := hgood x hx
          rw [Engine.standing_eq htask] at hx
          cases hx
          cases a with
          | submit j' bundle =>
              cases hsubmit
              obtain ⟨hph, _, hid, _⟩ := hruns.1
              rw [hph] at hlinked
              refine ⟨?_, fun pool hp => ?_⟩
              · rw [hid]
                exact hlinked.capital
              · rw [hid]
                exact hlinked.pools pool (hpools pool hp)
          | _ => cases hsubmit

/-- **Every submission is made under its locks**, in every run of `process_intent` whose moves are
    good: any intent, any answers, any operations of other intents at any clock readings. -/
theorem sent_under_locks (setup : EngineSetup) (config : ExecutionConfig) (c : ExecutionContext)
    (i : TradeIntent) (l : List Move)
    (hgood : Along (move setup config) (Good i) (begin setup config c i) l) :
    Along (move setup config) Covered (begin setup config c i) l := by
  have halong := Machine.along_invariant (I := RunInv config i)
    (fun s x hx h => match x with
      | .own _ => runInv_own h hx
      | .foreign _ => runInv_foreign h hx)
    (runInv_begin c) hgood
  exact Machine.along_mono (fun s x ⟨h, hg⟩ => covered_of_inv h hg) halong

end Runs

/-! ## 5. Two runs -/

/-- A BUY; when it has locked its pool, another intent of its tier tries that pool, and the timer
    cleans up. -/
def contestedRun : List Move :=
  List.replicate 9 (.own Small.world) ++
    [.foreign (.act Small.world (.tryLockResource ⟨"rival", none, 1, none⟩ "pool" 1000)),
      .foreign (.cleanup 0)] ++
    List.replicate 18 (.own Small.world)

/-- `sent_under_locks` for a BUY whose pool another intent wants. -/
theorem sent_under_locks_contested : Along (move Small.setup Small.config) Covered
    (begin Small.setup Small.config Small.context (Small.buy "buy" "mint")) contestedRun :=
  sent_under_locks Small.setup Small.config Small.context (Small.buy "buy" "mint") contestedRun
    (by decide +kernel)

/-- A SELL of 50 tokens on the cold path, with a second pool to fall back to. -/
def coldSell : TradeIntent :=
  { Small.buy "sell" "mint" with
    side := .sell
    requiredCapital := 50
    resources := ⟨"mint", nativeSolMint, ["pool"], []⟩
    metadata := ((∅ : Finmap fun _ : String => String).insert "sell_all" "true").insert
      "sell_routing" "multi_pool"
    fallbackRoutes := [⟨"raydium", "fallback", 10, [], none, none⟩] }

/-- A wallet with these 50 tokens. -/
def sellContext : ExecutionContext :=
  Small.context.setLocks (Small.context.lockManager.insertAvailableToken "mint" 50)

/-- Everything succeeds, but the plan for the first pool. -/
def fallbackRun : List Move :=
  List.replicate 8 (.own Small.world) ++
    [.own { Small.world with refusal := some ⟨.unsupportedIntent, by decide⟩ }] ++
    List.replicate 3 (.own Small.world)

/-- **A FALLBACK ROUTE IS SENT WITHOUT A LOCK ON ITS POOL**: the route replaces the intent's pools,
    and the retry loop takes no locks. -/
theorem fallback_sent_without_lock :
    ¬ ∀ (setup : EngineSetup) (config : ExecutionConfig) (c : ExecutionContext)
      (i : TradeIntent) (l : List Move),
      Along (move setup config) Covered (begin setup config c i) l := by
  intro h
  have hrun := h Small.setup Small.config sellContext coldSell fallbackRun
  revert hrun
  decide +kernel

end SendUnderLocks

end IronCrab

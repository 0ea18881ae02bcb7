/-
  File:      IronCrab/Storage/Fairness.lean
  Subject:   PREEMPTION IS RATE LIMITED (fairness tracker of the lock manager), in every run of
             operations with non-decreasing clock readings.

  The tracker counts the preemptions of a source in a window and protects the source for a while
  once the count reaches the maximum. The count is `events.len() as u32`.

  * `Op.takes` -- the source that an operation takes a lock from, and the reading at which the
    tracker is told; `lostBy` -- those of one source along a run;
  * `Guards` -- the tracker keeps the window of the source's log, and a full window is behind a
    protection; `guards_apply` -- one operation;
  * `takes_unprotected` -- no operation takes a lock from a protected source;
  * **`preemption_rate_limited`** -- no interval shorter than window and protection holds more
    than `max 1 max_preemptions`, in runs whose counts are not cut below the maximum;
  * `cut_count_lets_through` -- 2³² preemptions in the window are counted as none.
-/
import Mathlib.Data.List.TakeWhile
import IronCrab.Lib.Throttle
import IronCrab.Storage.ResourceHandover

namespace IronCrab

open LockManager Throttle
open Machine (Along foldSteps)

/-! ## 1. The tracker -/

namespace FairnessTracker

/-- The events of a source that `record_preemption` finds in the window. -/
def eventsInWindow (f : FairnessTracker) (source : String) (now : Instant) : List Instant :=
  ((f.preemptionCounts.lookup source).getD []).dropWhile
    fun t => decide (t < now - f.windowDuration)

/-- If the preemptions in the window, this one included, reach the maximum, then so does their
    number as a `u32`. -/
def CountFits (f : FairnessTracker) (source : String) (now : Instant) : Prop :=
  f.maxPreemptions.toNat ≤ (f.eventsInWindow source now).length + 1 →
    f.maxPreemptions ≤ ((f.eventsInWindow source now).length + 1).toUInt32

variable {f : FairnessTracker} {source : String} {now : Instant}

/-- A count that is a `u32` fits. -/
theorem countFits_of_lt (h : (f.eventsInWindow source now).length + 1 < 2 ^ 32) :
    f.CountFits source now := by
  intro hmax
  rw [UInt32.le_iff_toNat_le, Nat.toUInt32_eq, UInt32.toNat_ofNat_of_lt' h]
  exact hmax

/-- What `record_preemption` writes. -/
theorem recordPreemption_eq (he : f.enabled = true) :
    (f.recordPreemption source now).2 =
      { f with
        preemptionCounts :=
          f.preemptionCounts.insert source (f.eventsInWindow source now ++ [now])
        starvedSources :=
          if f.maxPreemptions ≤ ((f.eventsInWindow source now).length + 1).toUInt32 then
            f.starvedSources.insert source (now + f.protectionDuration)
          else f.starvedSources } := by
  have hlen : (f.eventsInWindow source now ++ [now]).length =
      (f.eventsInWindow source now).length + 1 := List.length_append
  unfold recordPreemption
  rw [he]
  simp only [Bool.not_true, Bool.false_eq_true, if_false]
  show (if f.maxPreemptions ≤ (f.eventsInWindow source now ++ [now]).length.toUInt32 then _
    else _ : Bool × FairnessTracker).2 = _
  rw [hlen]
  split <;> rfl

theorem isStarved_of_le {t t' : Instant} (h : f.isStarved source t = false) (hle : t ≤ t') :
    f.isStarved source t' = false := by
  unfold isStarved at h ⊢
  cases he : f.enabled with
  | false => rfl
  | true =>
      cases hl : f.starvedSources.lookup source with
      | none => rfl
      | some u =>
          rw [he, hl] at h
          have hu : ¬ t < u := of_decide_eq_false h
          exact decide_eq_false (fun hlt => hu (Nat.lt_of_le_of_lt hle hlt))

/-- A source that is not protected has no protection that lasts. -/
theorem le_of_not_isStarved (he : f.enabled = true) (h : f.isStarved source now = false)
    {u : Instant} (hu : f.starvedSources.lookup source = some u) : u ≤ now := by
  unfold isStarved at h
  rw [he, hu] at h
  exact Nat.not_lt.mp (of_decide_eq_false h)

end FairnessTracker

/-! ## 2. What an operation takes -/

namespace Op

/-- The source that loses a lock to the operation, and the reading at which the tracker is told:
    a holder without a source counts as "unknown". -/
def takes (m : LockManager) : Op → Option (String × Instant)
  | tryLockResourceWithTtl holder rid ty ttl now nowStarved nowRecord createdAt =>
      match (m.tryLockResourceWithTtl holder rid ty ttl now nowStarved nowRecord createdAt).1 with
      | .acquiredByPreemption preempted => some (preempted.source.getD "unknown", nowRecord)
      | _ => none
  | _ => none

/-- The clock readings of an operation, in order. -/
def readings : Op → List Instant
  | lock (.tryLockCapital _ _ _ now createdAt) => [now, createdAt]
  | lock (.tryLockCapitalWithTtl _ _ _ _ now createdAt) => [now, createdAt]
  | lock (.cleanupExpired now) => [now]
  | lock (.renewCapitalLockTtl _ _ now) => [now]
  | tryLockResourceWithTtl _ _ _ _ now nowStarved nowRecord createdAt =>
      [now, nowStarved, nowRecord, createdAt]
  | _ => []

/-- A request that is about to beat a live lock finds a count that fits. -/
def CountFits (m : LockManager) (op : Op) : Prop :=
  match op with
  | tryLockResourceWithTtl _ rid _ _ _ _ nowRecord _ =>
      ∀ l, m.resourceLocks.lookup rid = some l → op.Beats m rid l → ¬ op.Expires l →
        m.fairness.CountFits (l.holder.source.getD "unknown") nowRecord
  | _ => True

/-- **The two ways an attempt on a resource can leave the tracker**: as it was, or told of the
    preemption of a live lock whose source is not protected. -/
theorem takes_cases (m : LockManager) (holder : LockHolder) (rid : ResourceId)
    (ty : ResourceType) (ttl : Option Duration) (now nowStarved nowRecord createdAt : Instant) :
    let op : Op := tryLockResourceWithTtl holder rid ty ttl now nowStarved nowRecord createdAt
    (op.takes m = none ∧ (op.apply m).fairness = m.fairness) ∨
    ∃ l, m.resourceLocks.lookup rid = some l ∧ op.Beats m rid l ∧ ¬ op.Expires l ∧
      op.takes m = some (l.holder.source.getD "unknown", nowRecord) ∧
      (op.apply m).fairness =
        (m.fairness.recordPreemption (l.holder.source.getD "unknown") nowRecord).2 := by
  have hfair := m.fairness_cleanupExpired now
  dsimp only [takes, apply]
  unfold LockManager.tryLockResourceWithTtl acquireResource
  cases hr : (m.cleanupExpired now).resourceLocks.lookup rid with
  | none => exact .inl ⟨rfl, hfair⟩
  | some l =>
      rw [lookup_resourceLocks_cleanupExpired, Option.filter_eq_some_iff] at hr
      obtain ⟨hl, hfresh⟩ := hr
      dsimp only
      by_cases hid : l.holder.intentId = holder.intentId
      · simp only [if_pos hid]
        exact .inl ⟨trivial, hfair⟩
      simp only [if_neg hid]
      by_cases htier : holder.tier < l.holder.tier
      · simp only [if_pos htier]
        cases hblock : (m.cleanupExpired now).fairness.shouldBlockPreemption
            (l.holder.source.getD "unknown") nowStarved with
        | true => exact .inl ⟨rfl, hfair⟩
        | false =>
            rw [hfair] at hblock
            refine .inr ⟨l, hl, ⟨rfl, Ne.symm hid, htier, hblock⟩, ?_, rfl, ?_⟩
            · rintro ⟨now', hs, hlt⟩
              cases hs
              have hexp : l.expired now = true := decide_eq_true hlt
              rw [hexp] at hfresh
              cases hfresh
            · show ((m.cleanupExpired now).fairness.recordPreemption _ nowRecord).2 = _
              rw [hfair]
      · simp only [if_neg htier]
        exact .inl ⟨trivial, hfair⟩

/-- Every other operation leaves the tracker alone. -/
theorem fairness_apply {m : LockManager} {op : Op} (h : op.takes m = none) :
    (op.apply m).fairness = m.fairness := by
  have hcapital : ∀ holder sol tokens ttl now createdAt,
      (m.tryLockCapitalWithTtl holder sol tokens ttl now createdAt).2.fairness = m.fairness := by
    intro holder sol tokens ttl now createdAt
    have hacq := (m.cleanupExpired now).capitalOnly_acquireCapital holder sol tokens ttl
      ((m.cleanupExpired now).buyReservesWsol sol tokens) createdAt
    exact hacq.fairness.trans (m.fairness_cleanupExpired now)
  cases op with
  | lock o =>
      cases o with
      | tryLockCapital holder sol tokens now createdAt =>
          exact hcapital holder sol tokens none now createdAt
      | tryLockCapitalWithTtl holder sol tokens ttl now createdAt =>
          exact hcapital holder sol tokens ttl now createdAt
      | releaseLocks id => exact (m.capitalOnly_release id true).fairness
      | releaseLocksAfterConfirmedSell id => exact (m.capitalOnly_release id false).fairness
      | cleanupExpired now => exact m.fairness_cleanupExpired now
      | renewCapitalLockTtl id ttl now => exact (m.capitalOnly_renew id ttl now).fairness
      | promoteCapitalLockToInFlight id =>
          show (m.promoteCapitalLockToInFlight id).2.fairness = m.fairness
          unfold promoteCapitalLockToInFlight promoteCapital
          cases m.capitalLocks.lookup id <;> rfl
  | refresh r =>
      cases r with
      | updateWalletBalances sol wsol => cases wsol <;> rfl
      | applyWalletTokenSnapshot mint amount slot =>
          show (m.applyWalletTokenSnapshot mint amount slot).fairness = m.fairness
          rcases RefreshOp.snapshot_cases m mint amount slot with ⟨_, h⟩ | ⟨_, h | h⟩ <;>
            rw [h] <;> rfl
      | _ => rfl
  | tryLockResourceWithTtl holder rid ty ttl now nowStarved nowRecord createdAt =>
      rcases takes_cases m holder rid ty ttl now nowStarved nowRecord createdAt with
        ⟨_, hf⟩ | ⟨l, _, _, _, htakes, _⟩
      · exact hf
      · rw [htakes] at h
        cases h
  | _ => rfl

/-- **No operation takes a lock from a protected source.** -/
theorem takes_unprotected {m : LockManager} {op : Op} {source : String} {t : Instant}
    (hclock : op.readings.Pairwise (· ≤ ·)) (h : op.takes m = some (source, t)) :
    m.fairness.isStarved source t = false := by
  cases op with
  | tryLockResourceWithTtl holder rid ty ttl now nowStarved nowRecord createdAt =>
      rcases takes_cases m holder rid ty ttl now nowStarved nowRecord createdAt with
        ⟨hnone, _⟩ | ⟨l, _, hbeats, _, htakes, _⟩
      · rw [hnone] at h
        cases h
      · have hle : nowStarved ≤ nowRecord := by
          simp only [readings, List.pairwise_cons, List.mem_cons] at hclock
          exact hclock.2.1 nowRecord (.inl rfl)
        rw [htakes] at h
        cases h
        have hblock := hbeats.2.2.2
        refine FairnessTracker.isStarved_of_le ?_ hle
        unfold FairnessTracker.shouldBlockPreemption at hblock
        unfold FairnessTracker.isStarved at hblock ⊢
        cases henabled : m.fairness.enabled with
        | false => rfl
        | true =>
            rw [henabled] at hblock
            exact hblock
  | _ => cases h

/-- The reading at which the operation takes a lock from the source. -/
def lost (source : String) (m : LockManager) (op : Op) : List Instant :=
  match op.takes m with
  | some (source', t) => if source' = source then [t] else []
  | none => []

end Op

/-- The readings at which locks are taken from the source along a run. -/
def lostBy (source : String) : LockManager → List Op → List Instant
  | _, [] => []
  | m, op :: ops => op.lost source m ++ lostBy source (op.apply m) ops

theorem lostBy_append (source : String) (ops ops' : List Op) (m : LockManager) :
    lostBy source m (ops ++ ops') =
      lostBy source m ops ++ lostBy source (foldSteps Op.apply m ops) ops' := by
  induction ops generalizing m with
  | nil => rfl
  | cons op ops ih =>
      show op.lost source m ++ lostBy source (op.apply m) (ops ++ ops') = _
      rw [ih, ← List.append_assoc]
      rfl

/-! ## 3. The invariant -/

/-- **The tracker guards a source** whose preemptions so far are `log`, up to the reading `now`:
    what it has dropped is behind the window, and a full window is behind a protection. -/
structure Guards (source : String) (window protection : Nat) (maxPreemptions : UInt32)
    (log : List Nat) (now : Nat) (f : FairnessTracker) : Prop where
  enabled : f.enabled = true
  windowIs : f.windowDuration = window
  protectionIs : f.protectionDuration = protection
  maxIs : f.maxPreemptions = maxPreemptions
  paced : Paced window protection maxPreemptions.toNat log
  past : ∀ t ∈ log, t ≤ now
  kept : ∃ dropped, log = dropped ++ (f.preemptionCounts.lookup source).getD [] ∧
    ∀ t ∈ dropped, t + window < now
  shield : ∀ last : Nat, log.getLast? = some last →
    maxPreemptions.toNat ≤ within window last log →
      last + protection ≤ now ∨ ∃ u : Nat, f.starvedSources.lookup source = some u ∧
        last + protection ≤ u

section Invariant

variable {source : String} {window protection : Nat} {maxPreemptions : UInt32}
  {log : List Nat} {now : Nat} {f : FairnessTracker}

theorem guards_new : Guards source window protection maxPreemptions [] now
    (.new maxPreemptions window protection true) where
  enabled := rfl
  windowIs := rfl
  protectionIs := rfl
  maxIs := rfl
  paced := .nil
  past := List.forall_mem_nil _
  kept := ⟨[], rfl, List.forall_mem_nil _⟩
  shield := fun _ hl => nomatch hl

/-- The next preemption of the source comes after the pause. -/
theorem Guards.pause (h : Guards source window protection maxPreemptions log now f)
    {nowStarved t : Nat} (hle : now ≤ nowStarved) (hle' : nowStarved ≤ t)
    (hno : f.isStarved source nowStarved = false) :
    ∀ last : Nat, log.getLast? = some last → maxPreemptions.toNat ≤ within window last log →
      last + protection ≤ t := by
  intro last hlast hfull
  rcases h.shield last hlast hfull with hnow | ⟨u, hu, hlu⟩
  · omega
  · have hu' : u ≤ nowStarved := FairnessTracker.le_of_not_isStarved h.enabled hno hu
    omega

/-- **A preemption of the source is recorded.** -/
theorem Guards.record (h : Guards source window protection maxPreemptions log now f)
    {nowStarved t : Nat} (hle : now ≤ nowStarved) (hle' : nowStarved ≤ t)
    (hno : f.isStarved source nowStarved = false) (hfits : f.CountFits source t) :
    Guards source window protection maxPreemptions (log ++ [t]) t
      (f.recordPreemption source t).2 := by
  have hpast : ∀ e ∈ log, e ≤ t := fun e he => by have := h.past e he; omega
  -- what the window still holds, and what it has left behind by now
  obtain ⟨dropped, hlog, hdropped⟩ := h.kept
  have hsplit : ∃ gone, log = gone ++ f.eventsInWindow source t ∧
      ∀ e ∈ gone, e + window < t := by
    refine ⟨dropped ++ ((f.preemptionCounts.lookup source).getD []).takeWhile
      (fun e => decide (e < t - f.windowDuration)), ?_, fun e he => ?_⟩
    · rw [List.append_assoc]
      show log = dropped ++ (_ ++ List.dropWhile _ _)
      rw [List.takeWhile_append_dropWhile]
      exact hlog
    · rcases List.mem_append.mp he with he | he
      · have := hdropped e he
        omega
      · have hlt := List.mem_takeWhile_imp he
        rw [decide_eq_true_eq, h.windowIs] at hlt
        exact Nat.add_lt_of_lt_sub hlt
  obtain ⟨gone, hgone, hbehind⟩ := hsplit
  have hlog' : log ++ [t] = gone ++ (f.eventsInWindow source t ++ [t]) := by
    rw [← List.append_assoc, ← hgone]
  rw [FairnessTracker.recordPreemption_eq h.enabled]
  exact {
    enabled := h.enabled
    windowIs := h.windowIs
    protectionIs := h.protectionIs
    maxIs := h.maxIs
    paced := .snoc log t h.paced hpast (h.pause hle hle' hno)
    past := fun e he => by
      rcases List.mem_append.mp he with he | he
      · exact hpast e he
      · exact Nat.le_of_eq (List.mem_singleton.mp he)
    kept := by
      refine ⟨gone, ?_, hbehind⟩
      rw [AList.lookup_insert]
      exact hlog'
    shield := by
      intro last hlast hfull
      rw [List.getLast?_concat] at hlast
      cases hlast
      -- a full window means a full list, and a full list is seen as full
      rw [hlog'] at hfull
      have hcount := Nat.le_trans hfull (within_append_le hbehind)
      rw [List.length_append] at hcount
      have hmax : f.maxPreemptions ≤ ((f.eventsInWindow source t).length + 1).toUInt32 := by
        refine hfits ?_
        rw [h.maxIs]
        exact hcount
      refine .inr ⟨t + protection, ?_, Nat.le_refl _⟩
      dsimp only
      rw [if_pos hmax, Finmap.lookup_insert, h.protectionIs] }

/-- A preemption of another source is recorded. -/
theorem Guards.record_ne (h : Guards source window protection maxPreemptions log now f)
    {source' : String} (hne : source' ≠ source) (t : Instant) :
    Guards source window protection maxPreemptions log now (f.recordPreemption source' t).2 := by
  rw [FairnessTracker.recordPreemption_eq h.enabled]
  exact { h with
    kept := by
      rw [AList.lookup_insert_ne hne.symm]
      exact h.kept
    shield := by
      intro last hlast hfull
      dsimp only
      split
      · rw [Finmap.lookup_insert_of_ne _ hne.symm]
        exact h.shield last hlast hfull
      · exact h.shield last hlast hfull }

/-- **One operation keeps the guard.** -/
theorem guards_apply {m : LockManager} {op : Op}
    (h : Guards source window protection maxPreemptions log now m.fairness)
    (hclock : (now :: op.readings).Pairwise (· ≤ ·)) (hfits : op.CountFits m) :
    ∃ now', (now' = now ∨ now' ∈ op.readings) ∧
      Guards source window protection maxPreemptions (log ++ op.lost source m) now'
        (op.apply m).fairness := by
  cases htakes : op.takes m with
  | none =>
      refine ⟨now, .inl rfl, ?_⟩
      unfold Op.lost
      rw [htakes, Op.fairness_apply htakes]
      simpa using h
  | some taken =>
      cases op with
      | tryLockResourceWithTtl holder rid ty ttl now₁ nowStarved nowRecord createdAt =>
          rcases Op.takes_cases m holder rid ty ttl now₁ nowStarved nowRecord createdAt with
            ⟨hnone, _⟩ | ⟨l, hl, hbeats, hfresh, hsome, hfair⟩
          · rw [hnone] at htakes
            cases htakes
          · unfold Op.lost
            rw [hsome, hfair]
            dsimp only
            split
            · next heq =>
                have hle : now ≤ nowStarved ∧ nowStarved ≤ nowRecord := by
                  simp only [Op.readings, List.pairwise_cons, List.mem_cons] at hclock
                  exact ⟨hclock.1 _ (.inr (.inl rfl)), hclock.2.2.1 _ (.inl rfl)⟩
                have hno : m.fairness.isStarved source nowStarved = false := by
                  have hblock := hbeats.2.2.2
                  unfold FairnessTracker.shouldBlockPreemption at hblock
                  rw [h.enabled, heq] at hblock
                  exact hblock
                have hcount := hfits l hl hbeats hfresh
                rw [heq] at hcount ⊢
                exact ⟨nowRecord, .inr (by simp [Op.readings]),
                  h.record hle.1 hle.2 hno hcount⟩
            · next hne =>
                rw [List.append_nil]
                exact ⟨now, .inl rfl, h.record_ne hne nowRecord⟩
      | _ => cases htakes

/-- A run keeps the guard. -/
theorem guards_run (ops : List Op) {m : LockManager}
    (h : Guards source window protection maxPreemptions log now m.fairness)
    (hclock : (now :: ops.flatMap Op.readings).Pairwise (· ≤ ·))
    (hfits : Along Op.apply Op.CountFits m ops) :
    ∃ now', Guards source window protection maxPreemptions (log ++ lostBy source m ops) now'
      (foldSteps Op.apply m ops).fairness := by
  induction ops generalizing m log now with
  | nil => exact ⟨now, by simpa [lostBy] using h⟩
  | cons op ops ih =>
      obtain ⟨hop, hrest⟩ := hfits
      rw [List.flatMap_cons, ← List.cons_append, List.pairwise_append] at hclock
      obtain ⟨hfirst, hlater, hcross⟩ := hclock
      obtain ⟨now', hnow', h'⟩ := guards_apply h hfirst hop
      have hmem : now' ∈ now :: op.readings := by
        rcases hnow' with rfl | hin
        · exact List.mem_cons_self
        · exact List.mem_cons_of_mem _ hin
      have hclock' : (now' :: ops.flatMap Op.readings).Pairwise (· ≤ ·) :=
        List.pairwise_cons.mpr ⟨hcross now' hmem, hlater⟩
      obtain ⟨now'', h''⟩ := ih h' hclock' hrest
      refine ⟨now'', ?_⟩
      rw [List.append_assoc] at h''
      exact h''

end Invariant

/-! ## 4. The limit -/

/-- **PREEMPTION IS RATE LIMITED.** In every run from a fresh, enabled tracker, with non-decreasing
    clock readings and counts that fit: in an interval shorter than window and protection a source
    loses at most `max 1 max_preemptions` locks, and while it is protected it loses none. -/
theorem preemption_rate_limited (m : LockManager) (maxPreemptions : UInt32)
    (window protection : Duration)
    (hfair : m.fairness = .new maxPreemptions window protection true) (ops : List Op)
    (hclock : (ops.flatMap Op.readings).Pairwise (· ≤ ·))
    (hfits : Along Op.apply Op.CountFits m ops) (source : String) :
    (∀ a b, b < a + min window protection →
      (between a b (lostBy source m ops)).length ≤ max 1 maxPreemptions.toNat) ∧
    ∀ before op after t, ops = before ++ op :: after →
      op.takes (foldSteps Op.apply m before) = some (source, t) →
      (foldSteps Op.apply m before).fairness.isStarved source t = false := by
  constructor
  · intro a b hab
    have hstart : Guards source window protection maxPreemptions [] 0 m.fairness := by
      rw [hfair]
      exact guards_new
    have hclock' : (0 :: ops.flatMap Op.readings).Pairwise (· ≤ ·) :=
      List.pairwise_cons.mpr ⟨fun t _ => Nat.zero_le t, hclock⟩
    obtain ⟨now, hend⟩ := guards_run ops hstart hclock' hfits
    exact hend.paced.interval_bound a b hab
  · intro before op after t hops htakes
    rw [hops, List.flatMap_append, List.flatMap_cons, List.pairwise_append,
      List.pairwise_append] at hclock
    exact Op.takes_unprotected hclock.2.1.1 htakes

/-- `preemption_rate_limited` of one preemption under the default policy. -/
theorem preemption_rate_limited_once :
    let ops : List Op := [
      .tryLockResourceWithTtl ⟨"low", none, 3, some "s"⟩ "pool" .pool none 1 1 1 1,
      .tryLockResourceWithTtl ⟨"high", none, 0, none⟩ "pool" .pool none 2 2 2 2]
    (between 0 9 (lostBy "s" (LockManager.new 0) ops)).length ≤ max 1 5 := by
  intro ops
  have hfits : Along Op.apply Op.CountFits (LockManager.new 0) ops :=
    ⟨fun l hl => (nomatch hl), fun l hl _ _ => by
      cases hl
      exact FairnessTracker.countFits_of_lt (by decide), trivial⟩
  exact (preemption_rate_limited (LockManager.new 0) 5 60000 30000 rfl ops (by decide) hfits
    "s").1 0 9 (by decide)

/-! ## 5. A count that is cut -/

namespace CutCount

/-- One round at `t`: `low` (source "s") takes the pool, `high` takes it away and lets it go. -/
def round (t : Instant) : List Op :=
  [.tryLockResourceWithTtl ⟨"low", none, 3, some "s"⟩ "pool" .pool none t t t t,
    .tryLockResourceWithTtl ⟨"high", none, 0, none⟩ "pool" .pool none t t t t,
    .lock (.releaseLocks "high")]

/-- A manager without locks and with this tracker. -/
def withTracker (f : FairnessTracker) : LockManager :=
  { LockManager.new 0 with fairness := f }

/-- The tracker: up to 4294967295 preemptions an hour, then one second of protection. -/
structure Shows (events : List Nat) (protectedUntil : Option Nat) (f : FairnessTracker) :
    Prop where
  enabled : f.enabled = true
  window : f.windowDuration = 3600
  protection : f.protectionDuration = 1
  max : f.maxPreemptions = 4294967295
  counts : (f.preemptionCounts.lookup "s").getD [] = events
  starved : f.starvedSources.lookup "s" = protectedUntil

variable {events : List Nat} {u : Option Nat} {f : FairnessTracker} {t : Nat}

/-- The manager with the pool locked. -/
def withPool (f : FairnessTracker) (holder : LockHolder) (t : Instant) : LockManager :=
  { withTracker f with
    resourceLocks := AList.singleton "pool" ⟨holder, "pool", .pool, t, 30000⟩ }

/-- A sweep at the reading of the lock drops nothing. -/
theorem sweep_withPool (f : FairnessTracker) (holder : LockHolder) (t : Instant) :
    (withPool f holder t).cleanupExpired t = withPool f holder t := by
  have hkeys : (AList.singleton "pool" ⟨holder, "pool", .pool, t, 30000⟩ :
      AList fun _ : ResourceId => ResourceLock).keysWhere (ResourceLock.expired t) = [] := by
    simp [AList.keysWhere, AList.singleton, ResourceLock.expired]
  have hlocks : ((withPool f holder t).cleanupExpired t).resourceLocks =
      (withPool f holder t).resourceLocks := by
    show AList.eraseAll (AList.keysWhere _ (AList.singleton "pool" _)) (AList.singleton "pool" _) = _
    rw [hkeys]
    rfl
  show { withPool f holder t with
    resourceLocks := ((withPool f holder t).cleanupExpired t).resourceLocks } = _
  rw [hlocks]

/-- One round in which `low` is not protected is one preemption. -/
theorem round_eq (h : Shows events u f) (hu : ∀ v, u = some v → v ≤ t) :
    foldSteps Op.apply (withTracker f) (round t) = withTracker (f.recordPreemption "s" t).2 ∧
      lostBy "s" (withTracker f) (round t) = [t] := by
  have hno : f.shouldBlockPreemption "s" t = false := by
    unfold FairnessTracker.shouldBlockPreemption FairnessTracker.isStarved
    rw [h.enabled, h.starved]
    cases u with
    | none => rfl
    | some v => simpa using hu v rfl
  have hlow : (withTracker f).tryLockResourceWithTtl ⟨"low", none, 3, some "s"⟩ "pool" .pool none
      t t t t = (.acquired, withPool f ⟨"low", none, 3, some "s"⟩ t) := rfl
  have hhigh : (withPool f ⟨"low", none, 3, some "s"⟩ t).tryLockResourceWithTtl
      ⟨"high", none, 0, none⟩ "pool" .pool none t t t t =
      (.acquiredByPreemption ⟨"low", none, 3, some "s"⟩,
        withPool (f.recordPreemption "s" t).2 ⟨"high", none, 0, none⟩ t) := by
    unfold LockManager.tryLockResourceWithTtl
    rw [sweep_withPool]
    show (if f.shouldBlockPreemption "s" t = true then _ else _ : LockResult × LockManager) = _
    rw [hno]
    rfl
  have hrelease : (withPool (f.recordPreemption "s" t).2 ⟨"high", none, 0, none⟩ t).releaseLocks
      "high" = withTracker (f.recordPreemption "s" t).2 := rfl
  constructor
  · show (((withPool f _ t).tryLockResourceWithTtl _ _ _ _ _ _ _ _).2).releaseLocks "high" = _
    rw [hhigh]
    exact hrelease
  · show Op.lost "s" (withTracker f) _ ++ (Op.lost "s" (withPool f _ t) _ ++ ([] ++ [])) = [t]
    unfold Op.lost Op.takes
    dsimp only
    rw [hlow, hhigh]
    rfl

/-- What the tracker shows after one more preemption, all earlier ones in the window. -/
theorem shows_record (h : Shows events u f) (hin : ∀ e ∈ events, t < e + 3600) :
    Shows (events ++ [t])
      (if (4294967295 : UInt32) ≤ (events.length + 1).toUInt32 then some (t + 1) else u)
      (f.recordPreemption "s" t).2 := by
  have hkept : f.eventsInWindow "s" t = events := by
    unfold FairnessTracker.eventsInWindow
    rw [h.counts, h.window, List.dropWhile_eq_self_iff]
    intro hpos
    have hfirst := hin _ (List.getElem_mem hpos)
    simp only [decide_eq_true_eq]
    intro hlt
    have : events[0] + 3600 < t := Nat.add_lt_of_lt_sub hlt
    omega
  rw [FairnessTracker.recordPreemption_eq h.enabled, hkept]
  refine ⟨h.enabled, h.window, h.protection, h.max, ?_, ?_⟩
  · rw [AList.lookup_insert]
    rfl
  · dsimp only
    rw [h.max, h.protection]
    split
    · exact Finmap.lookup_insert _
    · exact h.starved

/-- `n` rounds at `t` lead from the tracker `f` to one that shows them. -/
structure Rounds (f : FairnessTracker) (events : List Nat) (t n : Nat)
    (protectedUntil : Option Nat) (f' : FairnessTracker) : Prop where
  run : foldSteps Op.apply (withTracker f) (List.replicate n (round t)).flatten = withTracker f'
  shows : Shows (events ++ List.replicate n t) protectedUntil f'
  lost : lostBy "s" (withTracker f) (List.replicate n (round t)).flatten = List.replicate n t

/-- One more round. -/
theorem Rounds.succ {f' : FairnessTracker} {n : Nat} (h : Rounds f events t n u f')
    (hu : ∀ v, u = some v → v ≤ t) (hin : ∀ e ∈ events, t < e + 3600) :
    ∃ f'', Rounds f events t (n + 1)
      (if (4294967295 : UInt32) ≤ (events.length + n + 1).toUInt32 then some (t + 1) else u)
      f'' := by
  have hin' : ∀ e ∈ events ++ List.replicate n t, t < e + 3600 := by
    intro e he
    rcases List.mem_append.mp he with he | he
    · exact hin e he
    · rw [List.eq_of_mem_replicate he]
      omega
  obtain ⟨hround, htaken⟩ := round_eq h.shows hu
  have hnext := shows_record h.shows hin'
  rw [List.length_append, List.length_replicate, List.append_assoc, ← List.replicate_succ']
    at hnext
  refine ⟨_, ?_, hnext, ?_⟩
  · rw [List.replicate_succ', List.flatten_append, List.flatten_singleton,
      Machine.foldSteps_append, h.run, hround]
  · rw [List.replicate_succ', List.flatten_append, List.flatten_singleton, lostBy_append,
      h.lost, h.run, htaken, List.replicate_succ']

/-- **Rounds whose counts stay below the maximum** leave the protection as it was. -/
theorem rounds_below (h : Shows events u f) (hu : ∀ v, u = some v → v ≤ t)
    (hin : ∀ e ∈ events, t < e + 3600) (n : Nat)
    (hbelow : ∀ j, j < n → ¬ (4294967295 : UInt32) ≤ (events.length + j + 1).toUInt32) :
    ∃ f', Rounds f events t n u f' := by
  induction n with
  | zero => exact ⟨f, rfl, by simpa using h, rfl⟩
  | succ n ih =>
      obtain ⟨f', hrounds⟩ := ih fun j hj => hbelow j (Nat.lt_succ_of_lt hj)
      obtain ⟨f'', hnext⟩ := hrounds.succ hu hin
      rw [if_neg (hbelow n (Nat.lt_succ_self n))] at hnext
      exact ⟨f'', hnext⟩

/-- Rounds up to the one whose count reaches the maximum: `low` is protected after them. -/
theorem rounds_full (h : Shows events u f) (hu : ∀ v, u = some v → v ≤ t)
    (hin : ∀ e ∈ events, t < e + 3600) (n : Nat)
    (hbelow : ∀ j, j < n → ¬ (4294967295 : UInt32) ≤ (events.length + j + 1).toUInt32)
    (hfull : (4294967295 : UInt32) ≤ (events.length + n + 1).toUInt32) :
    ∃ f', Rounds f events t (n + 1) (some (t + 1)) f' := by
  obtain ⟨f', hrounds⟩ := rounds_below h hu hin n hbelow
  obtain ⟨f'', hnext⟩ := hrounds.succ hu hin
  rw [if_pos hfull] at hnext
  exact ⟨f'', hnext⟩

/-- `n` rounds at 0, `n + 1` at 1. -/
def run (n : Nat) : List Op :=
  (List.replicate n (round 0)).flatten ++ (List.replicate (n + 1) (round 1)).flatten

theorem mem_readings {n : Nat} {x : Nat}
    (h : x ∈ (List.replicate n (round t)).flatten.flatMap Op.readings) : x = t := by
  obtain ⟨op, hop, hx⟩ := List.mem_flatMap.mp h
  obtain ⟨l, hl, hmem⟩ := List.mem_flatten.mp hop
  rw [List.eq_of_mem_replicate hl] at hmem
  simp only [round, List.mem_cons, List.not_mem_nil, or_false] at hmem
  rcases hmem with rfl | rfl | rfl <;> simp [Op.readings] at hx <;> exact hx

/-- The readings of the run never go back. -/
theorem run_clock (n : Nat) : ((run n).flatMap Op.readings).Pairwise (· ≤ ·) := by
  unfold run
  rw [List.flatMap_append, List.pairwise_append]
  refine ⟨?_, ?_, fun x hx y hy => ?_⟩
  · exact List.pairwise_of_forall_mem_list fun x hx y hy => by
      rw [mem_readings hx, mem_readings hy]
  · exact List.pairwise_of_forall_mem_list fun x hx y hy => by
      rw [mem_readings hx, mem_readings hy]
  · rw [mem_readings hx, mem_readings hy]
    exact Nat.zero_le 1

/-- A `u32` count. -/
theorem max_le_iff (c : Nat) : (4294967295 : UInt32) ≤ c.toUInt32 ↔ 4294967295 ≤ c % 2 ^ 32 := by
  rw [UInt32.le_iff_toNat_le, Nat.toUInt32_eq, UInt32.toNat_ofNat']
  rfl

/-- What the run takes from "s". -/
theorem lostBy_run (n : Nat) (hn : n + 1 = 2 ^ 32) :
    lostBy "s" (withTracker (.new 4294967295 3600 1 true)) (run n) =
      List.replicate n 0 ++ List.replicate (n + 1) 1 := by
  obtain ⟨k, rfl⟩ : ∃ k, n = k + 1 := ⟨n - 1, by omega⟩
  have hstart : Shows [] none (.new 4294967295 3600 1 true) := ⟨rfl, rfl, rfl, rfl, rfl, rfl⟩
  obtain ⟨f, hzero⟩ := rounds_full (t := 0) hstart (fun v hv => nomatch hv)
    (List.forall_mem_nil _) k
    (fun j hj => by rw [max_le_iff, List.length_nil]; omega)
    (by rw [max_le_iff, List.length_nil]; omega)
  have hin : ∀ e ∈ [] ++ List.replicate (k + 1) 0, 1 < e + 3600 := by
    intro e _
    omega
  have hlen : ([] ++ List.replicate (k + 1) 0).length = k + 1 := by simp
  obtain ⟨f', hone⟩ := rounds_full (t := 1) hzero.shows (fun v hv => by cases hv; omega) hin
    (k + 1)
    (fun j hj => by rw [max_le_iff, hlen]; omega)
    (by rw [max_le_iff, hlen]; omega)
  unfold run
  rw [lostBy_append, hzero.lost, hzero.run, hone.lost]

end CutCount

open CutCount in
/-- **2³² PREEMPTIONS COUNT AS NONE.** With at most 4294967295 preemptions an hour and one second
    of protection, "s" loses 4294967295 locks at second 0 and, after its protection, 4294967296
    at second 1: an interval of length 0 holds one more than the maximum. -/
theorem cut_count_lets_through :
    let m := (LockManager.new 0).withFairness 4294967295 3600 1 true
    let ops := run 4294967295
    (ops.flatMap Op.readings).Pairwise (· ≤ ·) ∧ 1 < 1 + min 3600 1 ∧
      max 1 (4294967295 : UInt32).toNat < (between 1 1 (lostBy "s" m ops)).length := by
  refine ⟨run_clock _, by decide, ?_⟩
  show max 1 4294967295 < (between 1 1 (lostBy "s" (withTracker _) (run 4294967295))).length
  rw [lostBy_run 4294967295 rfl]
  unfold between
  rw [List.filter_append, List.filter_replicate, List.filter_replicate, if_neg (by decide),
    if_pos (by decide), List.nil_append, List.length_replicate]
  decide

end IronCrab

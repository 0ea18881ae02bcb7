/-
  File:      IronCrab/Engine/SendOnce.lean
  Subject:   ONE SEND FOR ONE INTENT ID, over whole runs of the engine with redelivered intents
             (src/bin/execution_engine.rs, `process_intent`; src/storage/locks.rs, `is_duplicate`).

  A task reads `is_duplicate` first, locks under the intent's id much later, and marks the id only
  after its send. Between its first lock attempt and the mark it is in its WINDOW. In runs where
  no task comes to its first attempt while another task of the same id is in its window, or after
  the id has been marked, the id alone is a lock.

  * `inWindow_of_next`, `unsent_of_next` -- the way into the window is a lock attempt;
  * `sentOnce_acted` -- the invariant of the sends;
  * **`send_once`** -- at most one successful send per id in every state, and no step of a task
    disturbs the capital lock of another;
  * `redelivery_sends_twice` -- two deliveries that both pass `is_duplicate`.
-/
import IronCrab.Engine.System
import IronCrab.Storage.Refresh

namespace IronCrab

open Effect (Setting Sys Event Label Task)
open Machine (Along foldSteps)
open ExecutionContext (locksAfter)

/-! ## 1. Where a task stands -/

/-- Between the first lock attempt and the end of the accounting. -/
def Phase.inWindow : Phase → Bool
  | .locking _ => true
  | .denied => true
  | .holding => true
  | .sent => true
  | .marked => true
  | .reporting .. => true
  | .booking .. => true
  | _ => false

/-- In the window, and a send may follow or locks are given up without one. -/
def Phase.unsent : Phase → Bool
  | .locking _ => true
  | .denied => true
  | .holding => true
  | _ => false

/-- The task has its capital lock. -/
def Phase.holdsCapital : Phase → Bool
  | .holding => true
  | .sent => true
  | .marked => true
  | .reporting .. => true
  | .booking .. => true
  | _ => false

theorem Phase.inWindow_of_holdsCapital {ph : Phase} (h : ph.holdsCapital = true) :
    ph.inWindow = true := by
  cases ph with
  | holding => rfl
  | sent => rfl
  | marked => rfl
  | reporting outcome computed slot => rfl
  | booking fills slot done => rfl
  | _ => cases h

theorem Phase.inWindow_of_unsent {ph : Phase} (h : ph.unsent = true) : ph.inWindow = true := by
  cases ph with
  | locking got => rfl
  | denied => rfl
  | holding => rfl
  | _ => cases h

namespace SendOnce

abbrev IntentTask := Task TradeIntent Act Answer Exit Stage

/-- The tasks beside `t`. -/
def others (s : Engine) (t : Nat) : List IntentTask := s.tasks.eraseIdx t

/-- A successful send for the intent `id`. -/
def isSend (id : IntentId) : Event Act Answer World → Bool
  | ⟨_, _, .submit j _, ok⟩ => decide (j.intentId = id) && ok
  | _ => false

/-- How often the intent `id` was sent. -/
def sends (log : Log) (id : IntentId) : Nat := log.countP (isSend id)

/-! ## 2. The environment, the condition and the property -/

/-- What happens beside the tasks: wallet events, the cleanup timer, changes of the positions and
    of the kill switch. -/
inductive Beside where
  | wallet (r : RefreshOp)
  | cleanup (now : Instant)
  | positions (authority : PositionAuthority)
  | killSwitch (active : Bool)

/-- The context after it. -/
def applyBeside (c : ExecutionContext) : Beside → ExecutionContext
  | .wallet r => c.setLocks (r.apply c.lockManager)
  | .cleanup now => c.setLocks (c.lockManager.cleanupExpired now)
  | .positions authority => { c with positionAuthority := authority }
  | .killSwitch active => { c with killSwitchActive := active }

/-- A task comes to its first lock attempt before its id is marked, and with no other task of
    the id in its window; no attempt finds the lock of another task expired. -/
def GoodAct (s : Engine) (t : Nat) (now : Instant) (i : TradeIntent) (g : Stage) (a : Act) : Prop :=
  a.isLockAttempt = true →
    (g.phase.isGating = true → i.intentId ∉ s.ctx.lockManager.processedIntents ∧
      ∀ task ∈ others s t, task.arg.intentId = i.intentId → task.stage.phase.inWindow = false) ∧
    ∀ task ∈ others s t, task.stage.phase.holdsCapital = true →
      ∀ lock ∈ s.ctx.lockManager.capitalLocks.lookup task.arg.intentId, lock.expired now = false

def Good (s : Engine) : Label TradeIntent World Beside → Prop
  | .run t w => ∀ x ∈ s.standing t, GoodAct s t w.now x.1 x.2.1 x.2.2
  | _ => True

instance (s : Engine) (t : Nat) (now : Instant) (i : TradeIntent) (g : Stage) (a : Act) :
    Decidable (GoodAct s t now i g a) :=
  inferInstanceAs (Decidable (_ → _ ∧ _))

instance (s : Engine) : ∀ x, Decidable (Good s x)
  | .spawn _ => .isTrue trivial
  | .env _ => .isTrue trivial
  | .run t w => inferInstanceAs (Decidable (∀ x ∈ s.standing t, GoodAct s t w.now x.1 x.2.1 x.2.2))

/-- Between `m` and `m'` the locks of the tasks stay in place, and nothing is given back that is
    still locked: what is free and what is locked together does not grow. (The balance that a
    confirmed BUY writes is not given back.) -/
structure Undisturbed (tasks : List IntentTask) (a : Act) (m m' : LockManager) : Prop where
  locks : ∀ task ∈ tasks, task.stage.phase.holdsCapital = true →
    m'.capitalLocks.lookup task.arg.intentId = m.capitalLocks.lookup task.arg.intentId
  totals : (∀ mint total, a ≠ .insertAvailableToken mint total) →
    ∀ b, m.total b < Word.size → m'.total b ≤ m.total b

/-- The step does not disturb the tasks beside the one that acts. -/
def Peaceful (setup : EngineSetup) (config : ExecutionConfig) (s : Engine) :
    Label TradeIntent World Beside → Prop
  | .run t w => ∀ x ∈ s.standing t, Undisturbed (others s t) x.2.2 s.ctx.lockManager
      ((engine setup config applyBeside).step s (.run t w)).ctx.lockManager
  | _ => True

/-- **At most one send for each id, and no task disturbs the capital lock of another.** -/
structure Holds (setup : EngineSetup) (config : ExecutionConfig) (c : ExecutionContext)
    (l : List (Label TradeIntent World Beside)) : Prop where
  once : ∀ id, sends (foldSteps (engine setup config applyBeside).step (Engine.idle c) l).log id ≤ 1
  peaceful : Along (engine setup config applyBeside).step (Peaceful setup config) (Engine.idle c) l

/-! ## 3. One action -/

section Next

variable {config : ExecutionConfig} {i : TradeIntent} {g : Stage} {a : Act} {r : Answer a}

/-- Pool locks are tried from the gates on, or from pool to pool. -/
theorem gating_or_locking {got : List ResourceId} (h : g.phase.got = some got) :
    g.phase.isGating = true ∨ g.phase.unsent = true := by
  cases hph : g.phase with
  | gating => exact .inl rfl
  | locking got' => exact .inr rfl
  | _ =>
      rw [hph] at h
      cases h

theorem recorded_inWindow {ph : Phase} {ok : Bool} (h : (ph.recorded ok).inWindow = true) :
    ph.inWindow = true := by
  cases ph with
  | gating => cases h
  | lossStop => cases h
  | reporting outcome computed slot => rfl
  | _ => exact h

theorem recorded_unsent {ph : Phase} {ok : Bool} (h : (ph.recorded ok).unsent = true) :
    ph.unsent = true := by
  cases ph with
  | gating => cases h
  | lossStop => cases h
  | reporting outcome computed slot => cases ok <;> cases h
  | _ => exact h

theorem noting_inWindow {ph : Phase} {d : Did} : (ph.noting d).inWindow = ph.inWindow := by
  cases ph <;> rfl

theorem noting_unsent {ph : Phase} {d : Did} : (ph.noting d).unsent = ph.unsent := by
  cases ph <;> rfl

/-- **The way into the window is a lock attempt.** -/
theorem inWindow_of_next (h : Allows i g a) (hnext : (g.phase.next config a r).inWindow = true) :
    g.phase.inWindow = true ∨ (g.phase.isGating = true ∧ a.isLockAttempt = true) := by
  cases a with
  | tryLockResource holder pool ttl =>
      obtain ⟨got, hgot⟩ := Option.ne_none_iff_exists'.mp h.2.2.2
      exact (gating_or_locking hgot).symm.imp Phase.inWindow_of_unsent fun hg => ⟨hg, rfl⟩
  | tryLockCapital holder sol tokens ttl =>
      obtain ⟨_, _, got, hgot, _⟩ := h
      exact (gating_or_locking hgot).symm.imp Phase.inWindow_of_unsent fun hg => ⟨hg, rfl⟩
  | getDailyLossLamports =>
      have hif : Phase.inWindow (if _ then Phase.lossStop else g.phase) = true := hnext
      rw [h.1] at hif
      split at hif <;> cases hif
  | markProcessed id =>
      rcases h.2 with hph | hph | hph
      · rw [hph] at hnext
        cases hnext
      · rw [hph]
        exact .inl rfl
      · rw [hph]
        exact .inl rfl
  | releaseResources id =>
      rcases h.2 with hph | hph
      · rw [hph]
        exact .inl rfl
      · rw [hph] at hnext
        cases hnext
  | submit j bundle =>
      rw [h.1]
      exact .inl rfl
  | confirm j bundle =>
      have hph : g.phase = .marked := h
      rw [hph]
      exact .inl rfl
  | computeIntentFills j =>
      obtain ⟨computed, slot, hph⟩ := h
      rw [hph]
      exact .inl rfl
  | applyPositionAuthority exec =>
      obtain ⟨_, fills, slot, hph, _⟩ := h
      rw [hph]
      exact .inl rfl
  | releaseCapital id restoreTokens => cases hnext
  | writeDecision decision => exact .inl (recorded_inWindow hnext)
  | publishDecision decision => exact .inl (recorded_inWindow hnext)
  | writeExecution exec => exact .inl (recorded_inWindow hnext)
  | publishExecution exec => exact .inl (recorded_inWindow hnext)
  | _ => exact .inl (noting_inWindow.symm.trans hnext)

/-- A task with the send before it had it before it already, or has just tried its first lock. -/
theorem unsent_of_next (h : Allows i g a) (hnext : (g.phase.next config a r).unsent = true) :
    g.phase.unsent = true ∨ (g.phase.isGating = true ∧ a.isLockAttempt = true) := by
  cases a with
  | tryLockResource holder pool ttl =>
      obtain ⟨got, hgot⟩ := Option.ne_none_iff_exists'.mp h.2.2.2
      exact (gating_or_locking hgot).symm.imp id fun hg => ⟨hg, rfl⟩
  | tryLockCapital holder sol tokens ttl =>
      obtain ⟨_, _, got, hgot, _⟩ := h
      exact (gating_or_locking hgot).symm.imp id fun hg => ⟨hg, rfl⟩
  | getDailyLossLamports =>
      have hif : Phase.unsent (if _ then Phase.lossStop else g.phase) = true := hnext
      rw [h.1] at hif
      split at hif <;> cases hif
  | markProcessed id =>
      rcases h.2 with hph | hph | hph <;>
        · rw [hph] at hnext
          cases hnext
  | releaseResources id =>
      rcases h.2 with hph | hph <;>
        · rw [hph] at hnext
          cases hnext
  | submit j bundle =>
      rw [h.1]
      exact .inl rfl
  | computeIntentFills j =>
      obtain ⟨computed, slot, hph⟩ := h
      rw [hph] at hnext
      cases hnext
  | applyPositionAuthority exec =>
      obtain ⟨_, fills, slot, hph, _⟩ := h
      rw [hph] at hnext
      cases hnext
  | confirm j bundle => cases hnext
  | releaseCapital id restoreTokens => cases hnext
  | writeDecision decision => exact .inl (recorded_unsent hnext)
  | publishDecision decision => exact .inl (recorded_unsent hnext)
  | writeExecution exec => exact .inl (recorded_unsent hnext)
  | publishExecution exec => exact .inl (recorded_unsent hnext)
  | _ => exact .inl (noting_unsent.symm.trans hnext)

/-- After the send the task marks its id. -/
theorem markProcessed_of_sent (h : Allows i g a) (hph : g.phase = .sent) :
    a = .markProcessed i.intentId := by
  cases a with
  | markProcessed id => rw [h.1]
  | _ => simp [Allows, hph, Phase.IsBooking, Phase.IsReporting, Phase.got] at h

/-- A task on the capital lock of an intent is the intent's, and in its window or at a lock
    attempt. -/
theorem own_of_touches {id : IntentId} (h : Allows i g a) (ht : a.touches id = true) :
    i.intentId = id ∧
      (g.phase.inWindow = true ∨ (g.phase.isGating = true ∧ a.isLockAttempt = true)) := by
  cases a with
  | tryLockCapital holder sol tokens ttl =>
      obtain ⟨rfl, _, got, hgot, _⟩ := h
      exact ⟨of_decide_eq_true ht, (gating_or_locking hgot).symm.imp Phase.inWindow_of_unsent
        fun hg => ⟨hg, rfl⟩⟩
  | renewCapitalLockTtl id' ttl =>
      obtain ⟨rfl, hph⟩ := h
      rw [hph]
      exact ⟨of_decide_eq_true ht, .inl rfl⟩
  | promoteCapital id' =>
      obtain ⟨rfl, hph⟩ := h
      rw [hph]
      exact ⟨of_decide_eq_true ht, .inl rfl⟩
  | releaseCapital id' rt =>
      obtain ⟨rfl, hph⟩ := h
      refine ⟨of_decide_eq_true ht, .inl ?_⟩
      rcases hph with ⟨_, hph | hph | ⟨outcome, computed, slot, hph, _⟩⟩ |
          ⟨_, fills, slot, done, hph, _⟩ <;>
        · rw [hph]
          rfl
  | _ => cases ht

end Next

/-- **No action but the write of a bought amount lets a bucket's total grow.** -/
theorem total_locksAfter_le (m : LockManager) (w : World) {a : Act}
    (h : ∀ mint total, a ≠ .insertAvailableToken mint total) {b : Bucket}
    (hb : m.total b < Word.size) : (locksAfter m w a).total b ≤ m.total b := by
  cases a with
  | tryLockResource holder pool ttl =>
      have htotal := m.total_tryLockResource holder pool .pool (some ttl) w.now w.nowStarved
        w.nowRecord w.createdAt b
      rw [LockManager.total_cleanupExpired m w.now b hb] at htotal
      exact le_of_eq htotal
  | tryLockCapital holder sol tokens ttl =>
      exact le_of_eq (LockOp.total_tryLock m holder sol tokens (some ttl) w.now w.createdAt b hb)
  | renewCapitalLockTtl id ttl => exact le_of_eq (m.total_renew id ttl w.createdAt b)
  | promoteCapital id => exact le_of_eq (m.total_promoteCapital id b)
  | releaseCapital id rt =>
      have htotal := m.total_release id rt b hb
      show (m.releaseCapitalLockRestoreTokens id rt).total b ≤ m.total b
      omega
  | removeAvailableToken mint =>
      show (m.removeAvailableToken mint).total b ≤ m.total b
      have havail := m.available_removeAvailableToken_le mint b
      exact Nat.add_le_add_right (UInt64.le_iff_toNat_le.mp havail) _
  | insertAvailableToken mint total => exact absurd rfl (h mint total)
  | _ => exact le_of_eq (LockManager.total_congr (by cases b <;> rfl) rfl)

/-- A marked id stays marked. -/
theorem mem_processed_after {m : LockManager} {id : IntentId} (h : id ∈ m.processedIntents)
    (w : World) (a : Act) : id ∈ (locksAfter m w a).processedIntents := by
  by_cases ha : ∃ id', a = .markProcessed id'
  · obtain ⟨id', rfl⟩ := ha
    exact Finset.mem_insert_of_mem h
  · rw [processedIntents_locksAfter m w fun id' he => ha ⟨id', he⟩]
    exact h

/-! ## 4. The invariant -/

/-- What a run with good steps keeps. -/
structure Inv (s : Engine) : Prop where
  /-- The window of an id has one task at most. -/
  alone : ∀ (t t' : Nat) (task task' : IntentTask), s.tasks[t]? = some task →
    s.tasks[t']? = some task' → task.arg.intentId = task'.arg.intentId →
    task.stage.phase.inWindow = true → task'.stage.phase.inWindow = true → t = t'
  once : ∀ id, sends s.log id ≤ 1
  /-- A sent id is marked, or about to be. -/
  marked : ∀ id, 0 < sends s.log id → id ∈ s.ctx.lockManager.processedIntents ∨
    ∃ (t : Nat) (task : IntentTask), s.tasks[t]? = some task ∧ task.arg.intentId = id ∧
      task.stage.phase = .sent
  /-- Nobody is about to send it again. -/
  spent : ∀ id, 0 < sends s.log id → ∀ (t : Nat) (task : IntentTask), s.tasks[t]? = some task →
    task.arg.intentId = id → task.stage.phase.unsent = false

theorem inv_idle (c : ExecutionContext) : Inv (Engine.idle c) where
  alone t t' task task' h := by cases h
  once id := Nat.zero_le _
  marked id h := absurd h (Nat.lt_irrefl 0)
  spent id h := absurd h (Nat.lt_irrefl 0)

theorem mem_others {s : Engine} {t t' : Nat} {task : IntentTask} (h : s.tasks[t']? = some task)
    (hne : t' ≠ t) : task ∈ others s t := List.mem_eraseIdx_iff_getElem?.mpr ⟨t', hne, h⟩

section Sends

variable {log : Log} {t : Nat} {w : World} {a : Act} {id : IntentId}

theorem sends_send {e : Event Act Answer World} (h : isSend id e = true) :
    sends (log ++ [e]) id = sends log id + 1 := by
  simp [sends, h]

theorem sends_other {e : Event Act Answer World} (h : isSend id e = false) :
    sends (log ++ [e]) id = sends log id := by
  simp [sends, h]

/-- A successful send is a `submit`. -/
theorem submit_of_isSend {c : ExecutionContext} (h : isSend id ⟨t, w, a, c.answer w a⟩ = true) :
    ∃ j bundle, a = .submit j bundle ∧ j.intentId = id ∧ w.ok = true := by
  cases a with
  | submit j bundle =>
      obtain ⟨hid, hok⟩ := Bool.and_eq_true_iff.mp h
      exact ⟨j, bundle, rfl, of_decide_eq_true hid, hok⟩
  | _ => cases h

end Sends

section Act

variable {setup : EngineSetup} {config : ExecutionConfig} {s : Engine} {t : Nat} {w : World}
  {i : TradeIntent} {g : Stage} {a : Act} {k : Answer a → Pipeline Exit}

/-- Nobody else is in the window that the task is in or comes to. -/
theorem alone_of_next {r : Answer a} (ht : s.tasks[t]? = some ⟨i, .act a k, g⟩)
    (ha : Allows i g a) (h : Inv s) (hgood : GoodAct s t w.now i g a)
    (hnext : (g.phase.next config a r).inWindow = true) {t' : Nat} {task : IntentTask}
    (ht' : s.tasks[t']? = some task) (hne : t' ≠ t) (hid : task.arg.intentId = i.intentId) :
    task.stage.phase.inWindow = false := by
  rcases inWindow_of_next ha hnext with hw | ⟨hg, hatt⟩
  · refine Bool.eq_false_of_not_eq_true fun hw' => hne ?_
    exact h.alone t' t task _ ht' ht hid hw' hw
  · exact ((hgood hatt).1 hg).2 task (mem_others ht' hne) hid

theorem alone_acted (ht : s.tasks[t]? = some ⟨i, .act a k, g⟩) (ha : Allows i g a) (h : Inv s)
    (hgood : GoodAct s t w.now i g a) :
    ∀ (t₁ t₂ : Nat) (task₁ task₂ : IntentTask),
      ((engine setup config applyBeside).acted s t w i g a k).tasks[t₁]? = some task₁ →
      ((engine setup config applyBeside).acted s t w i g a k).tasks[t₂]? = some task₂ →
      task₁.arg.intentId = task₂.arg.intentId → task₁.stage.phase.inWindow = true →
      task₂.stage.phase.inWindow = true → t₁ = t₂ := by
  intro t₁ t₂ task₁ task₂ h₁ h₂ hid hw₁ hw₂
  rcases Setting.getElem?_acted h₁ with ⟨rfl, rfl⟩ | ⟨hne₁, hold₁⟩
  · rcases Setting.getElem?_acted h₂ with ⟨rfl, _⟩ | ⟨hne₂, hold₂⟩
    · rfl
    · have hout := alone_of_next ht ha h hgood hw₁ hold₂ hne₂ hid.symm
      rw [hw₂] at hout
      cases hout
  · rcases Setting.getElem?_acted h₂ with ⟨rfl, rfl⟩ | ⟨hne₂, hold₂⟩
    · have hout := alone_of_next ht ha h hgood hw₂ hold₁ hne₁ hid
      rw [hw₁] at hout
      cases hout
    · exact h.alone t₁ t₂ task₁ task₂ hold₁ hold₂ hid hw₁ hw₂

theorem processed_acted : ((engine setup config applyBeside).acted s t w i g a k).ctx.lockManager =
    locksAfter s.ctx.lockManager w a := s.ctx.lockManager_after w a

variable (config) in
/-- **A send is the first one of its id**, and its task is the only one of the id in the
    window. -/
theorem inv_send (ht : s.tasks[t]? = some ⟨i, .act a k, g⟩) (ha : Allows i g a) (h : Inv s)
    {id : IntentId} (hsend : isSend id ⟨t, w, a, s.ctx.answer w a⟩ = true) :
    i.intentId = id ∧ sends s.log id = 0 ∧ g.phase.inWindow = true ∧
      g.phase.next config a (s.ctx.answer w a) = .sent := by
  obtain ⟨j, bundle, rfl, rfl, hok⟩ := submit_of_isSend hsend
  obtain ⟨hph, _, hid, _⟩ := ha
  refine ⟨hid.symm, ?_, by rw [hph]; rfl, ?_⟩
  · refine Nat.eq_zero_of_not_pos fun hpos => ?_
    have hunsent := h.spent j.intentId hpos t _ ht hid.symm
    rw [hph] at hunsent
    cases hunsent
  · show (if w.ok = true then Phase.sent else _) = .sent
    rw [if_pos hok]

/-- No task gets back to where a sent id may be sent. -/
theorem spent_kept (ht : s.tasks[t]? = some ⟨i, .act a k, g⟩) (ha : Allows i g a) (h : Inv s)
    (hgood : GoodAct s t w.now i g a) {r : Answer a} (hpos : 0 < sends s.log i.intentId) :
    (g.phase.next config a r).unsent = false := by
  refine Bool.eq_false_of_not_eq_true fun hnext => ?_
  rcases unsent_of_next ha hnext with hold | ⟨hg, hatt⟩
  · have hunsent := h.spent i.intentId hpos t _ ht rfl
    rw [hold] at hunsent
    cases hunsent
  · obtain ⟨hnot, halone⟩ := (hgood hatt).1 hg
    rcases h.marked i.intentId hpos with hmem | ⟨t', task, ht', hid, hph⟩
    · exact hnot hmem
    · have hne : t' ≠ t := by
        rintro rfl
        rw [ht] at ht'
        cases ht'
        rw [hph] at hg
        cases hg
      have hout := halone task (mem_others ht' hne) hid
      rw [hph] at hout
      cases hout

theorem inv_acted (ht : s.tasks[t]? = some ⟨i, .act a k, g⟩) (ha : Allows i g a) (h : Inv s)
    (hgood : GoodAct s t w.now i g a) :
    Inv ((engine setup config applyBeside).acted s t w i g a k) := by
  have hself := Setting.getElem?_acted_self (M := engine setup config applyBeside) (w := w) ht
  refine ⟨alone_acted ht ha h hgood, fun id => ?_, fun id hpos => ?_, fun id hpos => ?_⟩
  · show sends (s.log ++ [⟨t, w, a, s.ctx.answer w a⟩]) id ≤ 1
    cases hsend : isSend id ⟨t, w, a, s.ctx.answer w a⟩ with
    | true =>
        obtain ⟨_, hzero, _⟩ := inv_send config ht ha h hsend
        rw [sends_send hsend, hzero]
    | false =>
        rw [sends_other hsend]
        exact h.once id
  · rw [processed_acted]
    cases hsend : isSend id ⟨t, w, a, s.ctx.answer w a⟩ with
    | true =>
        obtain ⟨hid, _, _, hnext⟩ := inv_send config ht ha h hsend
        exact .inr ⟨t, _, hself, hid, hnext⟩
    | false =>
        have hold : 0 < sends s.log id := by
          rw [← sends_other hsend]
          exact hpos
        rcases h.marked id hold with hmem | ⟨t', task, ht', hid, hph⟩
        · exact .inl (mem_processed_after hmem w a)
        · by_cases hne : t' = t
          · subst hne
            rw [ht] at ht'
            cases ht'
            obtain rfl := markProcessed_of_sent ha hph
            rw [← hid]
            exact .inl (Finset.mem_insert_self _ _)
          · exact .inr ⟨t', task, (Setting.getElem?_acted_ne hne).trans ht', hid, hph⟩
  · intro t' task htask hid
    cases hsend : isSend id ⟨t, w, a, s.ctx.answer w a⟩ with
    | true =>
        obtain ⟨hi, _, hw, hnext⟩ := inv_send config ht ha h hsend
        rcases Setting.getElem?_acted htask with ⟨rfl, rfl⟩ | ⟨hne, hold⟩
        · have hsent : (g.phase.next config a (s.ctx.answer w a)).unsent = false := by
            rw [hnext]
            rfl
          exact hsent
        · refine Bool.eq_false_of_not_eq_true fun hunsent => hne ?_
          exact h.alone t' t task _ hold ht (hid.trans hi.symm) (Phase.inWindow_of_unsent hunsent) hw
    | false =>
        have hpos' : 0 < sends s.log id := by
          rw [← sends_other hsend]
          exact hpos
        rcases Setting.getElem?_acted htask with ⟨rfl, rfl⟩ | ⟨hne, hold⟩
        · have hid' : i.intentId = id := hid
          rw [← hid'] at hpos'
          exact spent_kept ht ha h hgood hpos'
        · exact h.spent id hpos' t' task hold hid

/-- **No action disturbs the capital lock of another task.** -/
theorem undisturbed_acted (ht : s.tasks[t]? = some ⟨i, .act a k, g⟩) (ha : Allows i g a)
    (h : Inv s) (hgood : GoodAct s t w.now i g a) :
    Undisturbed (others s t) a s.ctx.lockManager (locksAfter s.ctx.lockManager w a) := by
  refine ⟨fun task hmem hheld => ?_, fun hne b hb => total_locksAfter_le _ w hne hb⟩
  obtain ⟨t', hne, ht'⟩ := List.mem_eraseIdx_iff_getElem?.mp hmem
  cases htouch : a.touches task.arg.intentId with
  | true =>
      obtain ⟨hid, hwin⟩ := own_of_touches ha htouch
      have hin := Phase.inWindow_of_holdsCapital hheld
      rcases hwin with hw | ⟨hg, hatt⟩
      · exact absurd (h.alone t' t task _ ht' ht hid.symm hin hw) hne
      · have hout := ((hgood hatt).1 hg).2 task hmem hid.symm
        rw [hin] at hout
        cases hout
  | false =>
      rw [lookup_locksAfter _ w htouch]
      cases hatt : a.isLockAttempt with
      | false => rfl
      | true =>
          have hlive := (hgood hatt).2 task hmem hheld
          cases hl : s.ctx.lockManager.capitalLocks.lookup task.arg.intentId with
          | none => rfl
          | some lock => simp [hlive lock hl]

end Act

/-! ## 5. Runs -/

section Runs

variable {setup : EngineSetup} {config : ExecutionConfig} {s : Engine}

theorem inv_spawn {i : TradeIntent} (h : Inv s) :
    Inv ((engine setup config applyBeside).step s (.spawn i)) := by
  refine ⟨fun t t' task task' h₁ h₂ hid hw hw' => ?_, h.once, fun id hpos => ?_,
    fun id hpos t task htask hid => ?_⟩
  · rcases Setting.getElem?_spawn h₁ with hold₁ | ⟨_, rfl⟩
    · rcases Setting.getElem?_spawn h₂ with hold₂ | ⟨_, rfl⟩
      · exact h.alone t t' task task' hold₁ hold₂ hid hw hw'
      · cases hw'
    · cases hw
  · refine (h.marked id hpos).imp_right ?_
    rintro ⟨t, task, ht, hid, hph⟩
    exact ⟨t, task, Setting.getElem?_spawn_old ht, hid, hph⟩
  · rcases Setting.getElem?_spawn htask with hold | ⟨_, rfl⟩
    · exact h.spent id hpos t task hold hid
    · rfl

/-- What happens beside the tasks takes no mark back. -/
theorem processedIntents_applyBeside (c : ExecutionContext) (e : Beside) :
    (applyBeside c e).lockManager.processedIntents = c.lockManager.processedIntents := by
  cases e with
  | wallet r => exact (r.sameTables_apply c.lockManager).processedIntents
  | cleanup now => exact c.lockManager.processedIntents_cleanupExpired now
  | positions authority => rfl
  | killSwitch active => rfl

theorem inv_env {e : Beside} (h : Inv s) :
    Inv ((engine setup config applyBeside).step s (.env e)) := by
  refine ⟨h.alone, h.once, fun id hpos => ?_, h.spent⟩
  refine (h.marked id hpos).imp_left fun hmem => ?_
  show id ∈ (applyBeside s.ctx e).lockManager.processedIntents
  rw [processedIntents_applyBeside]
  exact hmem

theorem peaceful_of_inv {x : Label TradeIntent World Beside}
    (hc : (engine setup config applyBeside).Conforms (fun _ g _ => g.Ended) s) (h : Inv s)
    (hgood : Good s x) : Peaceful setup config s x := by
  cases x with
  | spawn i => exact trivial
  | env e => exact trivial
  | run t w =>
      rcases Setting.step_run_cases (M := engine setup config applyBeside) s t w with
        ⟨_, hno⟩ | ⟨i, g, a, k, ht, heq⟩
      · intro x hx
        rw [Engine.standing_none hno] at hx
        cases hx
      · intro x hx
        obtain rfl : (i, g, a) = x := by
          rw [Engine.standing_eq ht] at hx
          exact Option.some.inj hx
        rw [heq, processed_acted]
        exact undisturbed_acted ht (hc _ (List.mem_of_getElem? ht)).1 h
          (hgood _ (Engine.standing_eq ht))

/-- **At most one send for each intent id, and undisturbed capital locks**, in every run whose
    steps are good: any number of tasks, any redeliveries, any order. -/
theorem send_once (setup : EngineSetup) (config : ExecutionConfig) (c : ExecutionContext)
    (l : List (Label TradeIntent World Beside))
    (hgood : Along (engine setup config applyBeside).step Good (Engine.idle c) l) :
    Holds setup config c l where
  once := by
    have hinv := engine_invariant (I := Inv) (fun s i h _ => inv_spawn h)
      (fun s e h _ => inv_env h)
      (fun s t w i g a k ht ha h hg => inv_acted ht ha h (hg _ (Engine.standing_eq ht)))
      (inv_idle c) hgood
    exact hinv.once
  peaceful := by
    have halong := engine_along (I := Inv) (fun s i h _ => inv_spawn h)
      (fun s e h _ => inv_env h)
      (fun s t w i g a k ht ha h hg => inv_acted ht ha h (hg _ (Engine.standing_eq ht)))
      (inv_idle c) hgood
    exact Machine.along_mono (fun s x ⟨hc, h, hg⟩ => peaceful_of_inv hc h hg) halong

end Runs

/-! ## 6. Redelivered intents -/

/-- A BUY that is sent and confirmed, and then delivered again. -/
def redeliveredAfterwards : List (Label TradeIntent World Beside) :=
  .spawn (Small.buy "buy" "mint") :: Small.runs 0 27 ++
    .spawn (Small.buy "buy" "mint") :: Small.runs 1 4

/-- `send_once` for a BUY and its redelivery. -/
theorem send_once_redelivered :
    Holds Small.setup Small.config Small.context redeliveredAfterwards :=
  send_once Small.setup Small.config Small.context redeliveredAfterwards (by decide +kernel)

/-- Room for more than one position. -/
def roomy : ExecutionConfig := { Small.config with maxOpenPositions := 5 }

/-- Two deliveries of one BUY: both read `is_duplicate`, then the second waits for the first to
    finish. -/
def redeliveredAtOnce : List (Label TradeIntent World Beside) :=
  .spawn (Small.buy "buy" "mint") :: .spawn (Small.buy "buy" "mint") ::
    Small.runs 0 1 ++ Small.runs 1 1 ++ Small.runs 0 26 ++ Small.runs 1 26

/-- **ONE INTENT IS SENT TWICE**: nothing looks at the processed ids again after the first
    check. -/
theorem redelivery_sends_twice :
    ¬ ∀ (setup : EngineSetup) (config : ExecutionConfig) (c : ExecutionContext)
      (l : List (Label TradeIntent World Beside)), Holds setup config c l := by
  intro h
  have honce := (h Small.setup roomy Small.context redeliveredAtOnce).once "buy"
  revert honce
  decide +kernel

/-- The first delivery has just sent when the second is refused its own capital lock. -/
def duplicateDenied : List (Label TradeIntent World Beside) :=
  .spawn (Small.buy "buy" "mint") :: .spawn (Small.buy "buy" "mint") ::
    Small.runs 0 1 ++ Small.runs 1 1 ++ Small.runs 0 12 ++ Small.runs 1 9

/-- **A DUPLICATE FREES THE CAPITAL OF THE INTENT THAT WAS SENT**: its reject path releases by
    intent id. -/
theorem duplicate_frees_capital :
    ¬ ∀ (setup : EngineSetup) (config : ExecutionConfig) (c : ExecutionContext)
      (l : List (Label TradeIntent World Beside)),
      Along (engine setup config applyBeside).step (Peaceful setup config) (Engine.idle c) l := by
  intro h
  have hall := h Small.setup Small.config Small.context (duplicateDenied ++ Small.runs 1 1)
  have hstep := (Machine.along_append hall).2.1
  have hlocks := (hstep _ (Option.get_mem (by decide +kernel))).locks _
    (List.getElem_mem (n := 0) (by decide +kernel)) (by decide +kernel)
  have hsome := congrArg Option.isSome hlocks
  revert hsome
  decide +kernel

end SendOnce

end IronCrab

/-
  File:      IronCrab/Engine/NoLeak.lean
  Subject:   WHAT ONE RUN OF `process_intent` LEAVES BEHIND (src/bin/execution_engine.rs): its
             locks, and the accounting of what was confirmed.

  The run is alone; what the outside world answers, and which writes and publishes fail, changes
  from action to action. `Linked` ties each phase of the protocol to the lock manager and to the
  log; the only phase a run can end in with its lock in place is `leaked`, and only a failed
  record while the outcome is reported leads there.

  * `linked_next` -- one action;
  * **`no_leak_iff`** -- a finished run has released its locks and booked its fill exactly if no
    record failed while the outcome was reported;
  * `decision_write_failure_leaks` -- a confirmed BUY whose decision record cannot be written.
-/
import IronCrab.Engine.System

namespace IronCrab

open Effect (Setting Sys Event Label)
open Machine (foldSteps Sometime)
open ProcessIntent (finalExecution confirmedFill)
open ExecutionContext (locksAfter)

/-! ## 1. The property -/

namespace NoLeak

/-- What was done, without the worlds. -/
def did (log : Log) : List Did := log.map fun e => ⟨e.action, e.answer⟩

/-- The intent holds no lock. -/
structure Free (m : LockManager) (id : IntentId) : Prop where
  capital : m.capitalLocks.lookup id = none
  pools : ∀ pool lock, m.resourceLocks.lookup pool = some lock → lock.holder.intentId ≠ id

/-- The transaction was confirmed, in this slot. -/
def Confirmed (log : Log) (slot : Option UInt64) : Prop :=
  ∃ j bundle, ⟨.confirm j bundle, .confirmed slot⟩ ∈ did log

/-- The result with the fills has reached the position authority, the fill or the close the lock
    manager. -/
def Applied (i : TradeIntent) (log : Log) (slot : Option UInt64) : Prop :=
  ∃ j fills, ⟨.computeIntentFills j, fills⟩ ∈ did log ∧
    ⟨.applyPositionAuthority (finalExecution i .confirmed fills), ()⟩ ∈ did log ∧
    FillApplied i (confirmedFill i fills slot) (did log)

/-- Whatever was confirmed is accounted for. -/
def Accounted (i : TradeIntent) (log : Log) : Prop :=
  ∀ slot, Confirmed log slot → Applied i log slot

/-- **Nothing leaks**: no lock is left, and what was confirmed is accounted for. -/
structure Holds (i : TradeIntent) (s : Engine) : Prop where
  free : Free s.ctx.lockManager i.intentId
  accounted : Accounted i s.log

/-- Nothing happens beside the run. -/
def alone (c : ExecutionContext) : Empty → ExecutionContext := fun _ => c

/-- One action of the run; the world says what it is answered. -/
def act (setup : EngineSetup) (config : ExecutionConfig) (s : Engine) (w : World) : Engine :=
  (engine setup config alone).step s (.run 0 w)

/-- The run before its first action. -/
def begin (setup : EngineSetup) (config : ExecutionConfig) (c : ExecutionContext)
    (i : TradeIntent) : Engine :=
  (engine setup config alone).step (Engine.idle c) (.spawn i)

/-- The run has returned. -/
def returned (s : Engine) : Bool := (s.tasks[0]?).any fun task => task.prog.returned.isSome

/-- A record: it is written or published. -/
def isRecord : Act → Bool
  | .writeDecision _ => true
  | .publishDecision _ => true
  | .writeExecution _ => true
  | .publishExecution _ => true
  | _ => false

def isReporting : Phase → Bool
  | .reporting .. => true
  | _ => false

/-- A record that fails while the outcome is reported. -/
def RecordFails (s : Engine) (w : World) : Prop :=
  (s.standing 0).any (fun x => isReporting x.2.1.phase && isRecord x.2.2) = true ∧ w.ok = false

instance (s : Engine) (w : World) : Decidable (RecordFails s w) :=
  inferInstanceAs (Decidable (_ ∧ _))

/-! ## 2. Phases, locks and log -/

def Unconfirmed (log : Log) : Prop := ∀ slot, ¬ Confirmed log slot

/-- The capital lock is in place. -/
def Held (m : LockManager) (id : IntentId) : Prop := (m.capitalLocks.lookup id).isSome = true

/-- What each phase says of the lock manager and of the log. -/
def Linked (i : TradeIntent) (m : LockManager) (log : Log) : Phase → Prop
  | .gating => Free m i.intentId ∧ Unconfirmed log
  | .lossStop => Free m i.intentId ∧ Unconfirmed log
  | .refused => Free m i.intentId ∧ Unconfirmed log
  | .locking _ => Unconfirmed log
  | .denied => Unconfirmed log
  | .holding => Held m i.intentId ∧ Unconfirmed log
  | .sent => Held m i.intentId ∧ Unconfirmed log
  | .marked => Held m i.intentId ∧ Unconfirmed log
  | .reporting outcome computed slot => Held m i.intentId ∧
      (∀ slot', Confirmed log slot' → outcome = .confirmed ∧ slot' = slot) ∧
      ∀ fills, computed = some fills → ∃ j, ⟨.computeIntentFills j, fills⟩ ∈ did log
  | .booking fills slot done => (∀ slot', Confirmed log slot' → slot' = slot) ∧
      (∃ j, ⟨.computeIntentFills j, fills⟩ ∈ did log) ∧
      ⟨.applyPositionAuthority (finalExecution i .confirmed fills), ()⟩ ∈ did log ∧
      done ⊆ did log
  | .freed => m.capitalLocks.lookup i.intentId = none ∧ Accounted i log
  | .over => Free m i.intentId ∧ Accounted i log
  | .leaked => Held m i.intentId

section Log

variable {i : TradeIntent} {log : Log} {e : Event Act Answer World}

theorem did_snoc : did (log ++ [e]) = did log ++ [⟨e.action, e.answer⟩] := by simp [did]

theorem mem_did_snoc {d : Did} (h : d ∈ did log) : d ∈ did (log ++ [e]) := by
  rw [did_snoc]
  exact List.mem_append_left _ h

theorem mem_did_new : (⟨e.action, e.answer⟩ : Did) ∈ did (log ++ [e]) := by
  rw [did_snoc]
  exact List.mem_append_right _ (List.mem_singleton_self _)

/-- More was done. -/
theorem FillApplied.mono {fill : ConfirmedFill} {done done' : List Did} (hsub : done ⊆ done')
    (h : FillApplied i fill done) : FillApplied i fill done' := by
  unfold FillApplied at h ⊢
  cases hside : i.side with
  | buy =>
      rw [hside] at h
      intro f hf
      rcases h f hf with ⟨b, hb, hle⟩ | ⟨c, hc, hins⟩
      · exact .inl ⟨b, hsub hb, hle⟩
      · exact .inr ⟨c, hsub hc, hsub hins⟩
  | sell =>
      rw [hside] at h
      obtain ⟨locked, avail, total, h₁, h₂, h₃, hclose⟩ := h
      refine ⟨locked, avail, total, hsub h₁, hsub h₂, hsub h₃, fun hfull => ?_⟩
      obtain ⟨h₄, h₅, h₆⟩ := hclose hfull
      exact ⟨hsub h₄, hsub h₅, hsub h₆⟩

/-- An event that confirms nothing. -/
def confirms : Event Act Answer World → Bool
  | ⟨_, _, .confirm .., .confirmed _⟩ => true
  | _ => false

theorem confirmed_snoc {slot : Option UInt64} (he : confirms e = false)
    (h : Confirmed (log ++ [e]) slot) : Confirmed log slot := by
  obtain ⟨j, bundle, hmem⟩ := h
  rw [did_snoc] at hmem
  rcases List.mem_append.mp hmem with hold | hnew
  · exact ⟨j, bundle, hold⟩
  · obtain ⟨t, w, a, r⟩ := e
    cases List.mem_singleton.mp hnew
    cases he

theorem unconfirmed_snoc (he : confirms e = false) (h : Unconfirmed log) :
    Unconfirmed (log ++ [e]) := fun slot hc => h slot (confirmed_snoc he hc)

theorem accounted_of_unconfirmed (h : Unconfirmed log) : Accounted i log :=
  fun slot hc => absurd hc (h slot)

theorem Applied.snoc {slot : Option UInt64} (h : Applied i log slot) :
    Applied i (log ++ [e]) slot := by
  obtain ⟨j, fills, hfills, happly, hfill⟩ := h
  exact ⟨j, fills, mem_did_snoc hfills, mem_did_snoc happly,
    FillApplied.mono (fun _ => mem_did_snoc) hfill⟩

theorem accounted_snoc (he : confirms e = false) (h : Accounted i log) :
    Accounted i (log ++ [e]) := fun slot hc => (h slot (confirmed_snoc he hc)).snoc

end Log

/-! ## 3. One action -/

section Step

variable {config : ExecutionConfig} {i : TradeIntent} {m m' : LockManager} {log : Log}
  {e : Event Act Answer World} {ph : Phase}

theorem Free.congr {id : IntentId} (h : Free m id)
    (hcap : m'.capitalLocks.lookup id = m.capitalLocks.lookup id)
    (hpools : m'.resourceLocks = m.resourceLocks) : Free m' id := by
  refine ⟨hcap.trans h.capital, ?_⟩
  rw [hpools]
  exact h.pools

theorem Held.congr {id : IntentId} (h : Held m id)
    (hcap : (m'.capitalLocks.lookup id).isSome = (m.capitalLocks.lookup id).isSome) :
    Held m' id := hcap.trans h

/-- While the outcome is reported, one more event that confirms nothing. -/
theorem Linked.reported {outcome : DecisionOutcome}
    {computed : Option (Option ComputedIntentFills)} {slot : Option UInt64}
    (h : Linked i m log (.reporting outcome computed slot)) (he : confirms e = false)
    (hcap : (m'.capitalLocks.lookup i.intentId).isSome =
      (m.capitalLocks.lookup i.intentId).isSome) :
    Linked i m' (log ++ [e]) (.reporting outcome computed slot) := by
  obtain ⟨hheld, hconf, hcomp⟩ := h
  refine ⟨hheld.congr hcap, fun slot' hc => hconf slot' (confirmed_snoc he hc), fun fills hf => ?_⟩
  obtain ⟨j, hj⟩ := hcomp fills hf
  exact ⟨j, mem_did_snoc hj⟩

/-- The phase stays, the locks stay, nothing is confirmed; the accounting takes note. -/
theorem Linked.stay (h : Linked i m log ph)
    (hcap : m'.capitalLocks.lookup i.intentId = m.capitalLocks.lookup i.intentId)
    (hpools : m'.resourceLocks = m.resourceLocks) (he : confirms e = false) :
    Linked i m' (log ++ [e]) (ph.noting ⟨e.action, e.answer⟩) := by
  have hsome : (m'.capitalLocks.lookup i.intentId).isSome =
      (m.capitalLocks.lookup i.intentId).isSome := by rw [hcap]
  cases ph with
  | gating => exact ⟨h.1.congr hcap hpools, unconfirmed_snoc he h.2⟩
  | lossStop => exact ⟨h.1.congr hcap hpools, unconfirmed_snoc he h.2⟩
  | refused => exact ⟨h.1.congr hcap hpools, unconfirmed_snoc he h.2⟩
  | locking got => exact unconfirmed_snoc he h
  | denied => exact unconfirmed_snoc he h
  | holding => exact ⟨h.1.congr hsome, unconfirmed_snoc he h.2⟩
  | sent => exact ⟨h.1.congr hsome, unconfirmed_snoc he h.2⟩
  | marked => exact ⟨h.1.congr hsome, unconfirmed_snoc he h.2⟩
  | reporting outcome computed slot => exact h.reported he hsome
  | booking fills slot done =>
      obtain ⟨hconf, ⟨j, hj⟩, happly, hdone⟩ := h
      refine ⟨fun slot' hc => hconf slot' (confirmed_snoc he hc), ⟨j, mem_did_snoc hj⟩,
        mem_did_snoc happly, ?_⟩
      intro d hd
      rcases List.mem_append.mp hd with hd | hd
      · exact mem_did_snoc (hdone hd)
      · rw [List.mem_singleton.mp hd]
        exact mem_did_new
  | freed => exact ⟨hcap.trans h.1, accounted_snoc he h.2⟩
  | leaked => exact Held.congr h hsome
  | _ => exact ⟨h.1.congr hcap hpools, accounted_snoc he h.2⟩

/-- A record keeps the phase, or ends the run while the outcome is reported. -/
theorem Linked.recorded (h : Linked i m log ph) {ok : Bool} (he : confirms e = false)
    (hbook : ∀ fills slot done, ph ≠ .booking fills slot done) :
    Linked i m (log ++ [e]) (ph.recorded ok) := by
  have hstay : Linked i m (log ++ [e]) (ph.noting ⟨e.action, e.answer⟩) := h.stay rfl rfl he
  cases ph with
  | gating => exact hstay
  | lossStop => exact hstay
  | booking fills slot done => exact absurd rfl (hbook fills slot done)
  | reporting outcome computed slot =>
      cases ok with
      | true => exact h.reported he rfl
      | false => exact h.1
  | _ => exact hstay

theorem free_releaseResources {id : IntentId} (h : m.capitalLocks.lookup id = none) :
    Free (m.releaseResourceLocksForIntent id) id := by
  refine ⟨h, fun pool lock hl => ?_⟩
  rw [LockManager.lookup_releaseResources] at hl
  obtain ⟨_, hne⟩ := Option.filter_eq_some_iff.mp hl
  simpa using hne

/-- What a release has behind it is accounted for. -/
theorem accounted_of_release {rt : Bool} {g : Stage}
    (ha : Allows i g (.releaseCapital i.intentId rt))
    (h : Linked i m log g.phase) : Accounted i log := by
  rcases ha.2 with ⟨_, hph | hph | ⟨outcome, computed, slot, hph, hne⟩⟩ |
      ⟨_, fills, slot, done, hph, hfill⟩
  · rw [hph] at h
    exact accounted_of_unconfirmed h
  · rw [hph] at h
    exact accounted_of_unconfirmed h.2
  · rw [hph] at h
    exact fun slot' hc => absurd (h.2.1 slot' hc).1 hne
  · rw [hph] at h
    obtain ⟨hconf, ⟨j, hj⟩, happly, hdone⟩ := h
    intro slot' hc
    rw [hconf slot' hc]
    exact ⟨j, fills, hj, happly, FillApplied.mono hdone hfill⟩

/-- No record is made while the accounting runs. -/
theorem not_booking_of_record {g : Stage} {a : Act} (ha : Allows i g a)
    (hrec : isRecord a = true) (fills : Option ComputedIntentFills) (slot : Option UInt64)
    (done : List Did) : g.phase ≠ .booking fills slot done := by
  intro hph
  cases a with
  | writeDecision decision => simp [Allows, hph, Phase.IsReporting] at ha
  | publishDecision decision => simp [Allows, hph, Phase.IsReporting] at ha
  | writeExecution exec => simp [Allows, hph, Phase.IsReporting] at ha
  | publishExecution exec => simp [Allows, hph, Phase.IsReporting] at ha
  | _ => cases hrec

/-- While the run still collects its locks nothing is confirmed. -/
theorem unconfirmed_of_got {m : LockManager} {ph : Phase} {got : List ResourceId}
    (hgot : ph.got = some got) (h : Linked i m log ph) : Unconfirmed log := by
  cases ph with
  | gating => exact h.2
  | locking got' => exact h
  | _ => cases hgot

/-- **One allowed action keeps the link.** -/
theorem linked_next {g : Stage} {a : Act} {c : ExecutionContext} {w : World} {t : Nat}
    (ha : Allows i g a) (h : Linked i c.lockManager log g.phase) :
    Linked i (locksAfter c.lockManager w a) (log ++ [⟨t, w, a, c.answer w a⟩])
      (g.phase.next config a (c.answer w a)) := by
  cases a with
  | getDailyLossLamports =>
      rw [ha.1] at h
      have hstay : Free c.lockManager i.intentId ∧ Unconfirmed (log ++ [⟨t, w,
          .getDailyLossLamports, c.dailyLossLamports⟩]) := ⟨h.1, unconfirmed_snoc rfl h.2⟩
      show Linked i c.lockManager _ (if _ then Phase.lossStop else g.phase)
      rw [ha.1]
      split <;> exact hstay
  | tryLockResource holder pool ttl =>
      obtain ⟨got, hgot⟩ := Option.ne_none_iff_exists'.mp ha.2.2.2
      have hun : Unconfirmed log := unconfirmed_of_got hgot h
      show Linked i _ _ (if _ then Phase.denied else .locking _)
      split <;> exact unconfirmed_snoc rfl hun
  | tryLockCapital holder sol tokens ttl =>
      obtain ⟨rfl, _, got, hgot, _⟩ := ha
      have hun : Unconfirmed log := unconfirmed_of_got hgot h
      show Linked i _ _ (if _ then Phase.holding else .denied)
      split
      · next hacq =>
          obtain ⟨lock, hlock⟩ := LockManager.lookup_acquireCapital_self _ _ _ _ _ _ _ hacq
          exact ⟨Option.isSome_iff_exists.mpr ⟨lock, hlock⟩, unconfirmed_snoc rfl hun⟩
      · exact unconfirmed_snoc rfl hun
  | renewCapitalLockTtl id ttl =>
      obtain ⟨rfl, hph⟩ := ha
      rw [hph] at h ⊢
      exact ⟨h.1.congr (c.lockManager.isSome_renew i.intentId ttl w.createdAt),
        unconfirmed_snoc rfl h.2⟩
  | promoteCapital id =>
      obtain ⟨rfl, hph⟩ := ha
      rw [hph] at h ⊢
      exact ⟨h.1.congr (c.lockManager.isSome_promote i.intentId), unconfirmed_snoc rfl h.2⟩
  | markProcessed id =>
      rcases ha.2 with hph | hph | hph
      · rw [hph] at h ⊢
        exact ⟨h.1.congr rfl rfl, unconfirmed_snoc rfl h.2⟩
      · rw [hph] at h ⊢
        refine ⟨h.1, fun slot' hc => ?_, fun fills hf => by cases hf⟩
        exact absurd (confirmed_snoc rfl hc) (h.2 slot')
      · rw [hph] at h ⊢
        exact ⟨h.1, unconfirmed_snoc rfl h.2⟩
  | releaseCapital id rt =>
      obtain rfl := ha.1
      exact ⟨c.lockManager.lookup_release_self i.intentId rt,
        accounted_snoc rfl (accounted_of_release ha h)⟩
  | releaseResources id =>
      obtain ⟨rfl, hph | hph⟩ := ha
      · rw [hph] at h ⊢
        exact ⟨h.1, unconfirmed_snoc rfl h.2⟩
      · rw [hph] at h ⊢
        exact ⟨free_releaseResources h.1, accounted_snoc rfl h.2⟩
  | submit j bundle =>
      rw [ha.1] at h
      show Linked i _ _ (if _ then Phase.sent else _)
      split
      · exact ⟨h.1, unconfirmed_snoc rfl h.2⟩
      · refine ⟨h.1, fun slot' hc => ?_, fun fills hf => by cases hf⟩
        exact absurd (confirmed_snoc rfl hc) (h.2 slot')
  | confirm j bundle =>
      have hph : g.phase = .marked := ha
      rw [hph] at h
      refine ⟨h.1, fun slot' hc => ?_, fun fills hf => by cases hf⟩
      obtain ⟨j', bundle', hmem⟩ := hc
      rw [did_snoc] at hmem
      rcases List.mem_append.mp hmem with hold | hnew
      · exact absurd ⟨j', bundle', hold⟩ (h.2 slot')
      · have hr : w.report = .confirmed slot' := by
          have hd := List.mem_singleton.mp hnew
          injection hd with ha' hr'
          cases ha'
          exact hr'.symm
        show ProcessIntent.outcomeOf bundle w.report = _ ∧ slot' = ProcessIntent.landingSlot w.report
        rw [hr]
        exact ⟨rfl, rfl⟩
  | computeIntentFills j =>
      obtain ⟨computed, slot, hph⟩ := ha
      rw [hph] at h ⊢
      refine ⟨h.1, fun slot' hc => h.2.1 slot' (confirmed_snoc rfl hc), fun fills hf => ?_⟩
      cases hf
      exact ⟨j, mem_did_new⟩
  | applyPositionAuthority exec =>
      obtain ⟨_, fills, slot, hph, rfl⟩ := ha
      rw [hph] at h ⊢
      obtain ⟨_, hconf, hcomp⟩ := h
      obtain ⟨j, hj⟩ := hcomp fills rfl
      exact ⟨fun slot' hc => (hconf slot' (confirmed_snoc rfl hc)).2, ⟨j, mem_did_snoc hj⟩,
        mem_did_new, List.nil_subset _⟩
  | writeDecision decision => exact h.recorded rfl (not_booking_of_record ha rfl)
  | publishDecision decision => exact h.recorded rfl (not_booking_of_record ha rfl)
  | writeExecution exec => exact h.recorded rfl (not_booking_of_record ha rfl)
  | publishExecution exec => exact h.recorded rfl (not_booking_of_record ha rfl)
  | _ => exact h.stay rfl rfl rfl

/-- After a failed record nothing is left to do. -/
theorem phase_ne_leaked {g : Stage} {a : Act} (ha : Allows i g a) : g.phase ≠ .leaked := by
  intro hph
  cases a <;> simp [Allows, hph, Phase.IsBooking, Phase.IsReporting, Phase.got] at ha

theorem recorded_eq_leaked {ok : Bool} (h : ph ≠ .leaked) :
    ph.recorded ok = .leaked ↔ isReporting ph = true ∧ ok = false := by
  cases ph with
  | reporting outcome computed slot => cases ok <;> simp [Phase.recorded, isReporting]
  | leaked => exact absurd rfl h
  | _ => simp [Phase.recorded, isReporting]

/-- Only a record leads to `leaked`. -/
theorem next_ne_leaked {a : Act} {r : Answer a} (h : ph ≠ .leaked) (hrec : isRecord a = false) :
    ph.next config a r ≠ .leaked := by
  intro hnext
  cases a with
  | writeDecision decision => cases hrec
  | publishDecision decision => cases hrec
  | writeExecution exec => cases hrec
  | publishExecution exec => cases hrec
  | getDailyLossLamports =>
      have hif : (if _ then Phase.lossStop else ph) = .leaked := hnext
      split at hif
      · cases hif
      · exact h hif
  | tryLockResource holder pool ttl =>
      have hif : (if r.isConflict then Phase.denied else _) = .leaked := hnext
      split at hif <;> cases hif
  | tryLockCapital holder sol tokens ttl =>
      have hif : (if r.isAcquired then Phase.holding else .denied) = .leaked := hnext
      split at hif <;> cases hif
  | submit j bundle =>
      have hif : (if r then Phase.sent else _) = .leaked := hnext
      split at hif <;> cases hif
  | applyPositionAuthority exec =>
      cases ph with
      | leaked => exact h rfl
      | reporting outcome computed slot => cases computed <;> cases hnext
      | _ => cases hnext
  | _ =>
      cases ph with
      | leaked => exact h rfl
      | _ => cases hnext

/-- **The only way to leak.** -/
theorem next_eq_leaked {g : Stage} {a : Act} {c : ExecutionContext} {w : World}
    (ha : Allows i g a) : g.phase.next config a (c.answer w a) = .leaked ↔
      (isReporting g.phase && isRecord a) = true ∧ w.ok = false := by
  have hne := phase_ne_leaked ha
  cases hrec : isRecord a with
  | false =>
      rw [Bool.and_false]
      exact ⟨fun h => absurd h (next_ne_leaked hne hrec), fun h => by cases h.1⟩
  | true =>
      rw [Bool.and_true]
      cases a with
      | writeDecision decision => exact recorded_eq_leaked hne
      | publishDecision decision => exact recorded_eq_leaked hne
      | writeExecution exec => exact recorded_eq_leaked hne
      | publishExecution exec => exact recorded_eq_leaked hne
      | _ => cases hrec

end Step

/-! ## 4. The run -/

section Run

variable {setup : EngineSetup} {config : ExecutionConfig} {i : TradeIntent} {s : Engine}

/-- The only task, in a phase that is linked to the context, and leaked exactly if `failed`. -/
def RunInv (config : ExecutionConfig) (i : TradeIntent) (failed : Prop) (s : Engine) : Prop :=
  ∃ p g, s.tasks = [⟨i, p, g⟩] ∧ Runs config i g p ∧
    Linked i s.ctx.lockManager s.log g.phase ∧ (failed ↔ g.phase = .leaked)

theorem runInv_act {failed : Prop} {w : World} (h : RunInv config i failed s) :
    RunInv config i (failed ∨ RecordFails s w) (act setup config s w) := by
  obtain ⟨p, g, htasks, hruns, hlinked, hfailed⟩ := h
  have htask : s.tasks[0]? = some ⟨i, p, g⟩ := by
    rw [htasks]
    rfl
  cases p with
  | ret x =>
      have hstep : act setup config s w = s := by
        unfold act Setting.step
        simp only [htask]
      have hstand : ¬ RecordFails s w := by
        unfold RecordFails Engine.standing
        rw [htask]
        simp
      rw [hstep]
      refine ⟨.ret x, g, htasks, hruns, hlinked, ?_⟩
      rw [or_iff_left hstand]
      exact hfailed
  | act a k =>
      have ha : Allows i g a := hruns.1
      have hstep : act setup config s w = (engine setup config alone).acted s 0 w i g a k := by
        unfold act Setting.step
        simp only [htask]
      have hfails : RecordFails s w ↔ (isReporting g.phase && isRecord a) = true ∧ w.ok = false := by
        unfold RecordFails
        rw [Engine.standing_eq htask]
        rfl
      rw [hstep]
      refine ⟨k (s.ctx.answer w a), g.next config i a (s.ctx.answer w a), ?_, hruns.2 _, ?_, ?_⟩
      · show s.tasks.set 0 _ = _
        rw [htasks]
        rfl
      · have hlocks : (s.ctx.after w a).lockManager = locksAfter s.ctx.lockManager w a :=
          s.ctx.lockManager_after w a
        show Linked i (s.ctx.after w a).lockManager _ _
        rw [hlocks]
        exact linked_next ha hlinked
      · have hold : ¬ failed := fun hf => phase_ne_leaked ha (hfailed.mp hf)
        rw [or_iff_right hold, hfails]
        exact (next_eq_leaked ha).symm

theorem runInv_begin {c : ExecutionContext} (h : Free c.lockManager i.intentId) :
    RunInv config i False (begin setup config c i) := by
  refine ⟨_, .start, rfl, processIntent_follows setup config i, ⟨h, ?_⟩, ?_⟩
  · rintro slot ⟨j, bundle, hmem⟩
    cases hmem
  · exact ⟨False.elim, fun hph => by cases hph⟩

end Run

/-! ## 5. Two runs -/

theorem free_empty {c : ExecutionContext} {id : IntentId}
    (hc : c.lockManager.capitalLocks = ∅) (hp : c.lockManager.resourceLocks = ∅) :
    Free c.lockManager id := by
  refine ⟨by rw [hc]; rfl, fun pool lock hl => ?_⟩
  rw [hp] at hl
  cases hl

/-- The answers of a run whose decision record cannot be written after the confirmation. -/
def unwritten : List World :=
  List.replicate 18 Small.world ++ [{ Small.world with ok := false }]

end NoLeak

end IronCrab

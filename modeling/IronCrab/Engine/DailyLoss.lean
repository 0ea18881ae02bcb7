/-
  File:      IronCrab/Engine/DailyLoss.lean
  Subject:   THE DAILY LOSS LIMIT over whole runs of the engine (src/bin/execution_engine.rs,
             `maybe_reset_daily`, `record_pnl_lamports`, check 3d of `process_intent`).

  The law compares two histories: what the confirmed transactions of a day have brought, read off
  the log, and what the gate finds when a BUY comes to it. The counter that the gate reads is
  never fed (`record_pnl_lamports` has no caller), so it stays at zero, and the gate decides by
  the sign of the limit as an `i64`.

  * `lossGate_zero` -- what the gate decides with the counter at zero;
  * **`daily_loss_law`** -- the law holds in every run whose daily loss gates agree with the
    history;
  * `daily_loss_ignored` -- a loss beyond the limit, and a BUY that is sent after it.
-/
import IronCrab.Engine.System
import Mathlib.Algebra.Order.Ring.Int

namespace IronCrab

open Effect (Setting Sys Event Label)
open Machine (Along foldSteps)

/-! ## 1. The law -/

namespace DailyLoss

/-- The result of a confirmed transaction, where the event computes it. -/
def walletSolDelta : Event Act Answer World → Int
  | ⟨_, _, .computeIntentFills _, fills⟩ => (fills.bind fun f => f.walletSolDelta).getD 0
  | _ => 0

/-- The UTC day on which the task's transaction was confirmed. -/
def confirmedDay (log : Log) (t : Nat) : Option Nat :=
  (log.find? fun e => decide (e.task = t) && match e with
    | ⟨_, _, .confirm .., .confirmed _⟩ => true
    | _ => false).map fun e => e.world.day

/-- The net `wallet_sol_delta` of the transactions that were confirmed on a day. -/
def netWalletSolDelta (log : Log) (day : Nat) : Int :=
  ((log.filter fun e => decide (confirmedDay log e.task = some day)).map walletSolDelta).sum

/-- The day's loss is at the limit. -/
def LimitReached (limit : UInt64) (log : Log) (day : Nat) : Prop :=
  netWalletSolDelta log day ≤ -(limit.toNat : Int)

/-- The task has been at its daily loss gate, when the history was as `P` says. -/
def Gated (P : Log → Nat → Prop) (log : Log) (t : Nat) : Prop :=
  ∃ before e after, log = before ++ e :: after ∧ e.task = t ∧ e.action = .getDailyLossLamports ∧
    P before e.world.day

/-- The task came to its gate when the limit was reached. -/
def Stopped (limit : UInt64) : Log → Nat → Prop := Gated (LimitReached limit)

/-- The task came to its gate when the limit was not reached. -/
def Open (limit : UInt64) : Log → Nat → Prop :=
  Gated fun log day => ¬ LimitReached limit log day

/-- **The daily loss limit stops buying, and only then.** -/
structure Law (limit : UInt64) (log : Log) : Prop where
  /-- A BUY is sent only when the gate saw room, and never after it saw the limit reached. -/
  sent : ∀ before e after j bundle, log = before ++ e :: after → e.action = .submit j bundle →
    j.side = .buy → Open limit before e.task ∧ ¬ Stopped limit before e.task
  /-- Who comes to the gate when the limit is reached is rejected for that reason, and nobody
      else is. -/
  rejected : ∀ before e after decision, log = before ++ e :: after →
    e.action = .writeDecision decision →
      (decision.primaryRejectReason = lossReason ↔ Stopped limit before e.task)

/-- The gate's verdict agrees with the history: the limit is reached exactly if it is not
    representable as a positive `i64`. -/
def GateAgrees (limit : UInt64) (log : Log) (day : Nat) : Prop :=
  LimitReached limit log day ↔ 2 ^ 63 ≤ limit.toNat

instance (limit : UInt64) (log : Log) (day : Nat) : Decidable (LimitReached limit log day) :=
  inferInstanceAs (Decidable (_ ≤ _))

instance (limit : UInt64) (log : Log) (day : Nat) : Decidable (GateAgrees limit log day) :=
  inferInstanceAs (Decidable (_ ↔ _))

/-- The daily loss gate. -/
def isLossGate : Act → Bool
  | .getDailyLossLamports => true
  | _ => false

/-- A step that is no daily loss gate, or one that agrees with the history. -/
def Good (limit : UInt64) (s : Engine) : Label TradeIntent World Outside → Prop
  | .run t w => (s.standing t).any (fun x => isLossGate x.2.2) = true →
      GateAgrees limit s.log w.day
  | _ => True

instance (limit : UInt64) (s : Engine) : ∀ l, Decidable (Good limit s l)
  | .run _ _ => inferInstanceAs (Decidable (_ → _))
  | .spawn _ => .isTrue trivial
  | .env _ => .isTrue trivial

/-! ## 2. One step -/

/-- What the gate decides while the counter is at zero. -/
theorem lossGate_zero {limit : UInt64} (h : 0 < limit) :
    dailyLossReached 0 limit = true ↔ 2 ^ 63 ≤ limit.toNat := by
  have hpos : 0 < limit.toNat := UInt64.lt_iff_toNat_lt.mp h
  have hlt := limit.toNat_lt
  unfold dailyLossReached asI64
  rw [decide_eq_true_iff]
  split <;> omega

/-- The history of a longer log. -/
theorem gated_snoc {P : Log → Nat → Prop} {log : Log} {e : Event Act Answer World} {t : Nat} :
    Gated P (log ++ [e]) t ↔
      Gated P log t ∨ (e.task = t ∧ e.action = .getDailyLossLamports ∧ P log e.world.day) := by
  constructor
  · rintro ⟨before, x, after, hlog, ht, ha, hP⟩
    rcases Effect.log_split hlog with ⟨after', rfl, hl⟩ | ⟨rfl, rfl, rfl⟩
    · exact .inl ⟨before, x, after', hl, ht, ha, hP⟩
    · exact .inr ⟨ht, ha, hP⟩
  · rintro (⟨before, x, after, hlog, ht, ha, hP⟩ | ⟨ht, ha, hP⟩)
    · exact ⟨before, x, after ++ [e], by rw [hlog]; simp, ht, ha, hP⟩
    · exact ⟨log, e, [], rfl, ht, ha, hP⟩

/-- The law for a longer log: the old one, and the new event. -/
theorem Law.snoc {limit : UInt64} {log : Log} {e : Event Act Answer World} (h : Law limit log)
    (hsent : ∀ j bundle, e.action = .submit j bundle → j.side = .buy →
      Open limit log e.task ∧ ¬ Stopped limit log e.task)
    (hrejected : ∀ decision, e.action = .writeDecision decision →
      (decision.primaryRejectReason = lossReason ↔ Stopped limit log e.task)) :
    Law limit (log ++ [e]) where
  sent before x after j bundle hlog ha hside := by
    rcases Effect.log_split hlog with ⟨after', rfl, hl⟩ | ⟨rfl, rfl, rfl⟩
    · exact h.sent before x after' j bundle hl ha hside
    · exact hsent j bundle ha hside
  rejected before x after decision hlog ha := by
    rcases Effect.log_split hlog with ⟨after', rfl, hl⟩ | ⟨rfl, rfl, rfl⟩
    · exact h.rejected before x after' decision hl ha
    · exact hrejected decision ha

/-- Where the limit was found reached, only the rejection is left. -/
theorem allows_lossStop {i : TradeIntent} {g : Stage} {a : Act} (h : Allows i g a)
    (hph : g.phase = .lossStop) : a = .writeDecision (lossRejection i) := by
  cases a <;> simp_all [Allows, Phase.IsBooking, Phase.IsReporting, Phase.got]

/-- After a rejection only its message, or the mark of an expired intent. -/
theorem allows_refused {i : TradeIntent} {g : Stage} {a : Act} (h : Allows i g a)
    (hph : g.phase = .refused) :
    (∃ decision, a = .publishDecision decision) ∨ ∃ id, a = .markProcessed id := by
  cases a <;> simp_all [Allows, Phase.IsBooking, Phase.IsReporting, Phase.got]

theorem recorded_ne_lossStop (ok : Bool) (ph : Phase) : ph.recorded ok ≠ .lossStop := by
  cases ph with
  | reporting outcome fills slot => cases ok <;> exact Phase.noConfusion
  | _ => exact Phase.noConfusion

/-- The way into `lossStop`. -/
theorem next_lossStop {config : ExecutionConfig} {ph : Phase} {a : Act} {r : Answer a}
    (h : ph.next config a r = .lossStop) : ph = .lossStop ∨ a = .getDailyLossLamports := by
  cases a with
  | getDailyLossLamports => exact .inr rfl
  | writeDecision decision => exact absurd h (recorded_ne_lossStop r ph)
  | publishDecision decision => exact absurd h (recorded_ne_lossStop r ph)
  | writeExecution exec => exact absurd h (recorded_ne_lossStop r ph)
  | publishExecution exec => exact absurd h (recorded_ne_lossStop r ph)
  | tryLockResource holder pool ttl =>
      have hif : (if r.isConflict then Phase.denied else _) = .lossStop := h
      split at hif <;> cases hif
  | tryLockCapital holder sol tokens ttl =>
      have hif : (if r.isAcquired then Phase.holding else .denied) = .lossStop := h
      split at hif <;> cases hif
  | submit j bundle =>
      have hif : (if r then Phase.sent else _) = .lossStop := h
      split at hif <;> cases hif
  | applyPositionAuthority exec =>
      cases ph with
      | lossStop => exact .inl rfl
      | reporting outcome computed slot => cases computed <;> cases h
      | _ => cases h
  | _ => cases ph <;> first | exact .inl rfl | cases h

/-! ## 3. The invariant -/

section Run

variable {setup : EngineSetup} {config : ExecutionConfig} {s : Engine}

/-- The stage of every task matches what the history was when it came to its gate. -/
structure Inv (limit : UInt64) (s : Engine) : Prop where
  counter : s.ctx.dailyLossLamports = 0
  law : Law limit s.log
  stopped : ∀ t, Stopped limit s.log t →
    ∃ task, s.tasks[t]? = some task ∧ (task.stage.phase = .lossStop ∨ task.stage.phase = .refused)
  stop : ∀ t task, s.tasks[t]? = some task → task.stage.phase = .lossStop →
    Stopped limit s.log t
  checked : ∀ t task, s.tasks[t]? = some task → task.stage.lossChecked = true →
    Open limit s.log t

theorem inv_idle {limit : UInt64} {c : ExecutionContext} (h : c.dailyLossLamports = 0) :
    Inv limit (Engine.idle c) where
  counter := h
  law := ⟨fun _ _ _ _ _ h => by simp [Engine.idle] at h, fun _ _ _ _ h => by
    simp [Engine.idle] at h⟩
  stopped t h := by
    obtain ⟨_, _, _, hlog, _⟩ := h
    simp [Engine.idle] at hlog
  stop t task h := by simp [Engine.idle] at h
  checked t task h := by simp [Engine.idle] at h

theorem inv_spawn {limit : UInt64} {i : TradeIntent} (h : Inv limit s) :
    Inv limit ((engine setup config ExecutionContext.outside).step s (.spawn i)) where
  counter := h.counter
  law := h.law
  stopped t hst := by
    obtain ⟨task, htask, hph⟩ := h.stopped t hst
    exact ⟨task, Setting.getElem?_spawn_old htask, hph⟩
  stop t task htask hph := by
    rcases Setting.getElem?_spawn htask with hold | ⟨_, rfl⟩
    · exact h.stop t task hold hph
    · cases hph
  checked t task htask hch := by
    rcases Setting.getElem?_spawn htask with hold | ⟨_, rfl⟩
    · exact h.checked t task hold hch
    · cases hch

theorem inv_env {limit : UInt64} {o : Outside} (h : Inv limit s) :
    Inv limit ((engine setup config ExecutionContext.outside).step s (.env o)) :=
  ⟨h.counter, h.law, h.stopped, h.stop, h.checked⟩

section Act

variable {limit : UInt64} {t : Nat} {w : World} {i : TradeIntent} {g : Stage} {a : Act}
  {k : Answer a → Pipeline Exit}

/-- The new event keeps the law. -/
theorem law_acted (ht : s.tasks[t]? = some ⟨i, .act a k, g⟩) (ha : Allows i g a)
    (h : Inv limit s) : Law limit (s.log ++ [⟨t, w, a, s.ctx.answer w a⟩]) := by
  have hstopped : Stopped limit s.log t → g.phase = .lossStop ∨ g.phase = .refused := by
    intro hst
    obtain ⟨task, htask, hph⟩ := h.stopped t hst
    rw [ht] at htask
    cases htask
    exact hph
  refine h.law.snoc (fun j bundle hact hside => ?_) fun decision hact => ?_
  · cases hact
    obtain ⟨hph, hcleared, _, hj⟩ := ha
    refine ⟨h.checked t _ ht (hcleared (hj ▸ hside)).2, fun hst => ?_⟩
    rcases hstopped hst with hp | hp <;> rw [hph] at hp <;> cases hp
  · cases hact
    constructor
    · intro hloss
      rcases ha with ⟨hph, _⟩ | ⟨hne, _⟩
      · exact h.stop t _ ht hph
      · exact absurd hloss hne
    · intro hst
      rcases hstopped hst with hp | hp
      · have hdec := allows_lossStop ha hp
        cases hdec
        rfl
      · rcases allows_refused ha hp with ⟨_, heq⟩ | ⟨_, heq⟩ <;> cases heq

/-- While the counter is at zero a gate that agrees with the history decides by it. -/
theorem reached_iff (hlimit : 0 < limit) (h : Inv limit s) (hgood : GateAgrees limit s.log w.day) :
    dailyLossReached s.ctx.dailyLossLamports limit = true ↔ LimitReached limit s.log w.day := by
  rw [h.counter, lossGate_zero hlimit]
  exact hgood.symm

theorem inv_acted (hlimit : 0 < config.dailyLossLimitLamports)
    (ht : s.tasks[t]? = some ⟨i, .act a k, g⟩) (ha : Allows i g a)
    (h : Inv config.dailyLossLimitLamports s)
    (hgood : Good config.dailyLossLimitLamports s (.run t w)) :
    Inv config.dailyLossLimitLamports
      ((engine setup config ExecutionContext.outside).acted s t w i g a k) where
  counter := by
    have hne : ∀ pnl, a ≠ .recordPnlLamports pnl := by
      rintro pnl rfl
      exact ha
    rcases s.ctx.dailyLossLamports_after w hne with heq | heq
    · exact heq.trans h.counter
    · exact heq
  law := law_acted ht ha h
  stopped t' hst := by
    rcases gated_snoc.mp hst with hold | ⟨rfl, hgate, hreached⟩
    · obtain ⟨task, htask, hph⟩ := h.stopped t' hold
      by_cases htt : t' = t
      · subst htt
        rw [ht] at htask
        cases htask
        have hnext : g.phase.next config a (s.ctx.answer w a) = .refused := by
          rcases hph with hp | hp
          · have hact := allows_lossStop ha hp
            subst hact
            simp only at hp
            rw [hp]
            rfl
          · simp only at hp
            rcases allows_refused ha hp with ⟨_, rfl⟩ | ⟨_, rfl⟩ <;> rw [hp] <;> rfl
        exact ⟨_, Setting.getElem?_acted_self ht, .inr hnext⟩
      · exact ⟨task, (Setting.getElem?_acted_ne htt).trans htask, hph⟩
    · cases hgate
      have hagree := hgood (by rw [Engine.standing_eq ht]; rfl)
      have hnext : g.phase.next config .getDailyLossLamports s.ctx.dailyLossLamports =
          .lossStop := if_pos ((reached_iff hlimit h hagree).mpr hreached)
      exact ⟨_, Setting.getElem?_acted_self ht, .inl hnext⟩
  stop t' task htask hph := by
    rcases Setting.getElem?_acted htask with ⟨rfl, rfl⟩ | ⟨_, hold⟩
    · rcases next_lossStop hph with hp | rfl
      · have hact := allows_lossStop ha hp
        subst hact
        have hnext : g.phase.next config (.writeDecision (lossRejection i))
            (s.ctx.answer w (.writeDecision (lossRejection i))) = .lossStop := hph
        rw [hp] at hnext
        cases hnext
      · have hagree := hgood (by rw [Engine.standing_eq ht]; rfl)
        have hnext : (if dailyLossReached s.ctx.dailyLossLamports config.dailyLossLimitLamports then
            Phase.lossStop else g.phase) = .lossStop := hph
        refine gated_snoc.mpr (.inr ⟨rfl, rfl, (reached_iff hlimit h hagree).mp ?_⟩)
        by_contra hnot
        rw [if_neg hnot, ha.1] at hnext
        cases hnext
    · exact gated_snoc.mpr (.inl (h.stop t' task hold hph))
  checked t' task htask hch := by
    rcases Setting.getElem?_acted htask with ⟨rfl, rfl⟩ | ⟨_, hold⟩
    · have hor : (g.lossChecked || passesLoss config a (s.ctx.answer w a)) = true := hch
      rcases Bool.or_eq_true_iff.mp hor with hold | hpass
      · exact gated_snoc.mpr (.inl (h.checked t' _ ht hold))
      · cases a with
        | getDailyLossLamports =>
            have hagree := hgood (by rw [Engine.standing_eq ht]; rfl)
            refine gated_snoc.mpr (.inr ⟨rfl, rfl, fun hreached => ?_⟩)
            have hnot : (!dailyLossReached s.ctx.dailyLossLamports
                config.dailyLossLimitLamports) = true := hpass
            rw [(reached_iff hlimit h hagree).mpr hreached] at hnot
            cases hnot
        | _ => cases hpass
    · exact gated_snoc.mpr (.inl (h.checked t' task hold hch))

end Act

/-- **The daily loss limit stops buying, and only then, in every run whose daily loss gates agree
    with the history.** -/
theorem daily_loss_law (setup : EngineSetup) (config : ExecutionConfig)
    (hlimit : 0 < config.dailyLossLimitLamports) (c : ExecutionContext)
    (hc : c.dailyLossLamports = 0) (l : List (Label TradeIntent World Outside))
    (hgood : Along (engine setup config ExecutionContext.outside).step
      (Good config.dailyLossLimitLamports) (Engine.idle c) l) :
    Law config.dailyLossLimitLamports
      (foldSteps (engine setup config ExecutionContext.outside).step (Engine.idle c) l).log := by
  have hinv := engine_invariant (I := Inv config.dailyLossLimitLamports)
    (fun s i h _ => inv_spawn h) (fun s o h _ => inv_env h)
    (fun s t w i g a k ht ha h hg => inv_acted hlimit ht ha h hg) (inv_idle hc) hgood
  exact hinv.law

end Run

/-! ## 4. Two runs -/

/-- A BUY is confirmed with a loss of 2000 lamports, then another BUY is taken until it is sent. -/
def twoBuys : List (Label TradeIntent World Outside) :=
  .spawn (Small.buy "first" "mint") :: Small.runs 0 27 ++
    .spawn (Small.buy "second" "mint") :: Small.runs 1 13

/-- The engine's log of it. -/
def twoBuysLog (limit : UInt64) : Log :=
  (foldSteps (engine Small.setup { Small.config with
      maxOpenPositions := 2, dailyLossLimitLamports := limit } ExecutionContext.outside).step
    (Engine.idle Small.context) twoBuys).log

/-- `daily_loss_law` with a limit that is not reached. -/
theorem daily_loss_law_twoBuys : Law 5000 (twoBuysLog 5000) :=
  daily_loss_law Small.setup { Small.config with
      maxOpenPositions := 2, dailyLossLimitLamports := 5000 } (by decide) Small.context rfl twoBuys
    (by decide +kernel)

/-- The submission of a BUY. -/
def submitsBuy : Act → Bool
  | .submit j _ => decide (j.side = .buy)
  | _ => false

theorem split_at {log : Log} {n : Nat} {e : Event Act Answer World} (h : log[n]? = some e) :
    log = log.take n ++ e :: log.drop (n + 1) := by
  obtain ⟨hlt, rfl⟩ := List.getElem?_eq_some_iff.mp h
  rw [← List.drop_eq_getElem_cons hlt, List.take_append_drop]

/-- The law at the event with number `n`. -/
theorem Law.sentAt {limit : UInt64} {log : Log} (h : Law limit log) {n t : Nat}
    (hn : (log[n]?).any (fun e => decide (e.task = t) && submitsBuy e.action) = true) :
    ¬ Stopped limit (log.take n) t := by
  obtain ⟨e, he, hcond⟩ := (Option.any_eq_true _ _).mp hn
  simp only [Bool.and_eq_true, decide_eq_true_eq] at hcond
  obtain ⟨rfl, hsubmit⟩ := hcond
  cases ha : e.action with
  | submit j bundle =>
      rw [ha] at hsubmit
      exact (h.sent _ e _ j bundle (split_at he) ha (of_decide_eq_true hsubmit)).2
  | _ =>
      rw [ha] at hsubmit
      cases hsubmit

/-- The gate at the event with number `n`. -/
theorem stopped_at {limit : UInt64} {log : Log} {n t : Nat}
    (hn : (log[n]?).any (fun e => decide (e.task = t) && isLossGate e.action &&
      decide (LimitReached limit (log.take n) e.world.day)) = true) : Stopped limit log t := by
  obtain ⟨e, he, hcond⟩ := (Option.any_eq_true _ _).mp hn
  simp only [Bool.and_eq_true, decide_eq_true_eq] at hcond
  obtain ⟨⟨ht, hgate⟩, hreached⟩ := hcond
  refine ⟨_, e, _, split_at he, ht, ?_, hreached⟩
  cases ha : e.action with
  | getDailyLossLamports => rfl
  | _ =>
      rw [ha] at hgate
      cases hgate

/-- **THE LOSS IS IGNORED**: with a limit of 1000 lamports, 2000 are lost on the day, and the next
    BUY of that day is sent. -/
theorem daily_loss_ignored :
    ¬ ∀ (setup : EngineSetup) (config : ExecutionConfig), 0 < config.dailyLossLimitLamports →
      ∀ c : ExecutionContext, c.dailyLossLamports = 0 →
      ∀ l : List (Label TradeIntent World Outside),
        Law config.dailyLossLimitLamports
          (foldSteps (engine setup config ExecutionContext.outside).step (Engine.idle c) l).log := by
  intro h
  have hlaw : Law 1000 (twoBuysLog 1000) := h Small.setup { Small.config with
    maxOpenPositions := 2, dailyLossLimitLamports := 1000 } (by decide) Small.context rfl twoBuys
  have hnot := hlaw.sentAt (n := 39) (t := 1) (by decide +kernel)
  exact hnot (stopped_at (n := 33) (by decide +kernel))

end DailyLoss

end IronCrab

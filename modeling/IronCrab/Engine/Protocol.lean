/-
  File:      IronCrab/Engine/Protocol.lean
  Subject:   THE PROTOCOL OF ONE INTENT: what `process_intent` may do to the shared context, stage
             by stage.

  A stage remembers what the claims about interleavings need: which locks were taken, whether the
  open-position gate and the daily loss gate were passed, whether something was sent and marked,
  what was confirmed, and what the accounting has done so far. `Allows` says which action is
  possible in which stage, `Phase.next` where its answer leads.

  * `Runs` -- a piece of the pipeline follows the protocol and ends where nothing is left to do;
  * `follows_recordDecision`, `runs_recordExecution` -- the records, in every phase they appear in.
-/
import IronCrab.Engine.ProcessIntent

namespace IronCrab

open ProcessIntent
open Effect (Follows)

/-! ## 1. Stages -/

/-- An action that was done, with its answer. -/
abbrev Did := (a : Act) × Answer a

inductive Phase where
  /-- Checks; nothing is locked. -/
  | gating
  /-- The daily loss limit was found reached. -/
  | lossStop
  /-- Rejected or expired before any lock attempt. -/
  | refused
  /-- Resource locks were tried; the ones taken so far. -/
  | locking (got : List ResourceId)
  /-- A lock attempt was refused. -/
  | denied
  /-- All locks are taken, nothing is sent. -/
  | holding
  /-- Sent, not yet marked as processed. -/
  | sent
  /-- Sent and marked. -/
  | marked
  /-- The outcome is known and is being recorded; the fills, once they were asked for. -/
  | reporting (outcome : DecisionOutcome) (computed : Option (Option ComputedIntentFills))
      (slot : Option UInt64)
  /-- The position authority knows the fill; what the accounting did since. -/
  | booking (fills : Option ComputedIntentFills) (slot : Option UInt64) (done : List Did)
  /-- The capital lock is released. -/
  | freed
  /-- All locks are released. -/
  | over
  /-- A record failed while the locks were held: the run ends here. -/
  | leaked

structure Stage where
  phase : Phase
  /-- The open-position gate was passed. -/
  admitted : Bool
  /-- It was skipped, as for a scale-in. -/
  skipped : Bool
  /-- The daily loss gate was passed. -/
  lossChecked : Bool

namespace Stage

def start : Stage := ⟨.gating, false, false, false⟩

/-- The gates for a BUY are passed. -/
def Cleared (i : TradeIntent) (g : Stage) : Prop :=
  i.side = .buy → g.admitted = true ∧ g.lossChecked = true

/-- Nothing more happens. -/
def Ended (g : Stage) : Prop := g.phase = .refused ∨ g.phase = .over ∨ g.phase = .leaked

end Stage

/-- The fill or the close has reached the lock manager: a bought amount is covered by the balance
    or added to it, a full close has cleared the mint. -/
def FillApplied (i : TradeIntent) (fill : ConfirmedFill) (done : List Did) : Prop :=
  match i.side with
  | .buy => ∀ f, fill.buyFillOutRaw = some f →
      (∃ balance : UInt64, ⟨.availableTokenBalance i.tradedMint, balance⟩ ∈ done ∧ f ≤ balance) ∨
      ∃ current : UInt64, ⟨.availableTokenBalance i.tradedMint, current⟩ ∈ done ∧
        ⟨.insertAvailableToken i.tradedMint (Word.satAdd current f), ()⟩ ∈ done
  | .sell => ∃ (locked avail : UInt64) (totalAtLock : Option UInt64),
      ⟨.lockedTokensForIntent i.intentId i.tradedMint, locked⟩ ∈ done ∧
      ⟨.availableTokenBalance i.tradedMint, avail⟩ ∈ done ∧
      ⟨.tokenPositionTotalAtLock i.intentId i.tradedMint, totalAtLock⟩ ∈ done ∧
      (scope48FullClose i.isColdPathRecoverySell (fill.sellFillInRaw.getD i.requiredCapital)
          (totalAtLock.getD (Word.satAdd avail locked)) fill.sellWalletBalanceAbsentAfterTx →
        ⟨.removeTokenWalletAtaPresent i.tradedMint, ()⟩ ∈ done ∧
        ⟨.removeAvailableToken i.tradedMint, ()⟩ ∈ done ∧
        ⟨.insertClearedAtSlot i.tradedMint fill.txLandingSlot, ()⟩ ∈ done)

/-! ## 2. What a stage allows -/

/-- Another intent holds what was asked for. -/
def LockResult.isConflict : LockResult → Bool
  | .conflict _ => true
  | _ => false

def Phase.isGating : Phase → Bool
  | .gating => true
  | _ => false

/-- The pools that count as locked. -/
def Phase.got : Phase → Option (List ResourceId)
  | .gating => some []
  | .locking got => some got
  | _ => none

def Phase.IsReporting (ph : Phase) : Prop :=
  ∃ outcome computed slot, ph = .reporting outcome computed slot

def Phase.IsBooking (ph : Phase) : Prop := ∃ fills slot done, ph = .booking fills slot done

/-- The text of a rejection for the daily loss limit. -/
def lossReason : Option PrimaryRejectReason := some (.reason .riskDailyLossLimit)

/-- That rejection. -/
def lossRejection (i : TradeIntent) : DecisionRecord := ⟨i.intentId, .rejected, lossReason⟩

/-- The actions that a stage of the intent `i` allows. -/
def Allows (i : TradeIntent) (g : Stage) : Act → Prop
  -- the gates
  | .isDuplicate id => g.phase = .gating ∧ id = i.intentId
  | .wallClockUnixMs | .maybeResetDaily | .isKillSwitchActive | .openPositionsCount
  | .countNonZeroTokenBalances | .tradableBalanceRaw _ | .feeGates _ => g.phase = .gating
  | .getDailyLossLamports => g.phase = .gating ∧ i.side = .buy
  | .availableTokenBalance _ => g.phase = .gating ∨ g.phase.IsBooking
  | .recordPnlLamports _ => False
  -- the locks
  | .tryLockResource holder pool _ =>
      holder = ProcessIntent.holder i ∧ pool ∈ i.resources.pools ∧ g.Cleared i ∧
        g.phase.got ≠ none
  | .tryLockCapital holder _ _ _ =>
      holder = ProcessIntent.holder i ∧ g.Cleared i ∧
        ∃ got, g.phase.got = some got ∧ ∀ pool ∈ i.resources.pools, pool ∈ got
  | .renewCapitalLockTtl id _ => id = i.intentId ∧ g.phase = .holding
  | .markProcessed id =>
      id = i.intentId ∧ (g.phase = .refused ∨ g.phase = .holding ∨ g.phase = .sent)
  | .promoteCapital id => id = i.intentId ∧ g.phase = .marked
  | .releaseCapital id restoreTokens =>
      id = i.intentId ∧
        ((restoreTokens = true ∧ (g.phase = .denied ∨ g.phase = .holding ∨
          ∃ outcome computed slot, g.phase = .reporting outcome computed slot ∧
            outcome ≠ .confirmed)) ∨
        (restoreTokens = decide (i.side = .buy) ∧ ∃ fills slot done,
          g.phase = .booking fills slot done ∧ FillApplied i (confirmedFill i fills slot) done))
  | .releaseResources id => id = i.intentId ∧ (g.phase = .marked ∨ g.phase = .freed)
  -- planning, sending, confirming
  | .planCrossDex _ | .prePlanDiscovery _ | .buildTxPlan _ | .buildTipInstruction _
  | .pumpAmmQuoteNotReady _ | .simulate _ | .pumpAmmPoolHint _ | .recover .. | .buildBundleTx _ =>
      g.phase = .holding
  | .submit j _ => g.phase = .holding ∧ g.Cleared i ∧ j.intentId = i.intentId ∧ j.side = i.side
  | .confirm .. => g.phase = .marked
  | .computeIntentFills _ => ∃ computed slot, g.phase = .reporting .confirmed computed slot
  -- records
  | .writeDecision decision =>
      (g.phase = .lossStop ∧ decision = lossRejection i) ∨
        (decision.primaryRejectReason ≠ lossReason ∧
          (g.phase = .gating ∨ g.phase = .holding ∨ g.phase.IsReporting ∨ g.phase = .over))
  | .publishDecision _ =>
      g.phase = .refused ∨ g.phase = .holding ∨ g.phase.IsReporting ∨ g.phase = .over
  | .writeExecution _ | .publishExecution _ =>
      g.phase = .holding ∨ g.phase = .marked ∨ g.phase.IsReporting ∨ g.phase = .over
  -- accounting
  | .applyPositionAuthority exec =>
      g.Cleared i ∧ ∃ fills slot, g.phase = .reporting .confirmed (some fills) slot ∧
        exec = finalExecution i .confirmed fills
  | .publishPoolPin _ | .lockedTokensForIntent .. | .tokenPositionTotalAtLock ..
  | .insertAvailableToken .. | .removeTokenWalletAtaPresent _ | .removeAvailableToken _
  | .insertClearedAtSlot .. => g.phase.IsBooking

/-! ## 3. Where an answer leads -/

/-- A record was written or published: a failure while reporting ends the run. -/
def Phase.recorded (ok : Bool) : Phase → Phase
  | .reporting outcome computed slot => if ok then .reporting outcome computed slot else .leaked
  | .gating => .refused
  | .lossStop => .refused
  | ph => ph

/-- The accounting takes note of what was done. -/
def Phase.noting (d : Did) : Phase → Phase
  | .booking fills slot done => .booking fills slot (done ++ [d])
  | ph => ph

/-- The next phase. -/
def Phase.next (config : ExecutionConfig) (ph : Phase) : (a : Act) → Answer a → Phase
  | .getDailyLossLamports, dailyLoss =>
      if dailyLossReached dailyLoss config.dailyLossLimitLamports then .lossStop else ph
  | .tryLockResource _ pool _, result =>
      if result.isConflict then .denied else .locking (ph.got.getD [] ++ [pool])
  | .tryLockCapital .., result => if result.isAcquired then .holding else .denied
  | .markProcessed _, _ => match ph with
      | .sent => .marked
      | .holding => .reporting .rejected none none
      | ph => ph
  | .releaseCapital .., _ => .freed
  | .releaseResources _, _ => match ph with
      | .freed => .over
      | ph => ph
  | .submit .., ok => if ok then .sent else .reporting .rejected none none
  | .confirm _ bundle, confirmation =>
      .reporting (outcomeOf bundle confirmation) none (landingSlot confirmation)
  | .computeIntentFills _, fills => match ph with
      | .reporting outcome _ slot => .reporting outcome (some fills) slot
      | ph => ph
  | .writeDecision _, ok => ph.recorded ok
  | .publishDecision _, ok => ph.recorded ok
  | .writeExecution _, ok => ph.recorded ok
  | .publishExecution _, ok => ph.recorded ok
  | .applyPositionAuthority _, _ => match ph with
      | .reporting _ (some fills) slot => .booking fills slot []
      | ph => ph
  | a, r => ph.noting ⟨a, r⟩

/-- The answer skips the open-position gate. -/
def skips (i : TradeIntent) : (a : Act) → Answer a → Bool
  | .availableTokenBalance _, existingBalanceRaw =>
      scaleInSkipsMaxOpenPositions (i.metadata.lookup "entry_kind") existingBalanceRaw
  | _, _ => false

/-- The answer passes the open-position gate. -/
def admits (config : ExecutionConfig) (i : TradeIntent) : (a : Act) → Answer a → Bool
  | .openPositionsCount, authorityCurrent =>
      maxOpenPositionsBuyGate i.currentOpenPositions (some authorityCurrent) 0
        config.maxOpenPositions
  | a, r => skips i a r

/-- The answer passes the daily loss gate. -/
def passesLoss (config : ExecutionConfig) : (a : Act) → Answer a → Bool
  | .getDailyLossLamports, dailyLoss =>
      !dailyLossReached dailyLoss config.dailyLossLimitLamports
  | _, _ => false

def Stage.next (config : ExecutionConfig) (i : TradeIntent) (g : Stage) (a : Act) (r : Answer a) :
    Stage where
  phase := g.phase.next config a r
  admitted := g.admitted || (g.phase.isGating && admits config i a r)
  skipped := g.skipped || (g.phase.isGating && skips i a r)
  lossChecked := g.lossChecked || passesLoss config a r

/-- **The protocol of the intent `i`.** -/
def intentProtocol (config : ExecutionConfig) (i : TradeIntent) :
    Effect.Protocol Act Answer Stage :=
  ⟨Allows i, Stage.next config i⟩

/-- A piece of the pipeline follows the protocol from stage `g`. -/
def Runs (config : ExecutionConfig) (i : TradeIntent) (g : Stage) (p : Pipeline Exit) : Prop :=
  Follows (intentProtocol config i) (fun g _ => g.Ended) g p

/-! ## 4. Small steps -/

/-- The stage is in the phase, and `K` holds of it. -/
def Stage.In (K : Stage → Prop) (ph : Phase) (g : Stage) : Prop := g.phase = ph ∧ K g

/-- What no answer takes back. -/
def Kept (config : ExecutionConfig) (i : TradeIntent) (K : Stage → Prop) : Prop :=
  ∀ g a r, K g → K (g.next config i a r)

/-- The open-position gate is passed if the intent is a BUY. -/
def Stage.Admitted (i : TradeIntent) (g : Stage) : Prop := i.side = .buy → g.admitted = true

section Steps

variable {config : ExecutionConfig} {i : TradeIntent} {g : Stage} {K : Stage → Prop} {ph : Phase}

theorem kept_true : Kept config i fun _ => True := fun _ _ _ _ => trivial

theorem kept_admitted : Kept config i (Stage.Admitted i) := by
  intro g a r h hside
  simp [Stage.next, h hside]

theorem kept_cleared : Kept config i (Stage.Cleared i) := by
  intro g a r h hside
  obtain ⟨ha, hl⟩ := h hside
  exact ⟨by simp [Stage.next, ha], by simp [Stage.next, hl]⟩

theorem Stage.In.next (hK : Kept config i K) {ph' : Phase} (h : g.In K ph) (a : Act)
    (r : Answer a) (hph : ph.next config a r = ph') : (g.next config i a r).In K ph' := by
  refine ⟨?_, hK g a r h.2⟩
  rw [← hph, ← h.1]
  rfl

theorem runs_act {a : Act} {k : Answer a → Pipeline Exit} (h : Allows i g a)
    (hk : ∀ r, Runs config i (g.next config i a r) (k r)) : Runs config i g (.act a k) :=
  ⟨h, hk⟩

theorem runs_ret {x : Exit} (h : g.Ended) : Runs config i g (.ret x) := h

/-- An action that leaves the phase as it is. -/
theorem runs_stay (hK : Kept config i K) {a : Act} {k : Answer a → Pipeline Exit}
    (hg : g.In K ph) (h : Allows i g a) (hph : ∀ r, ph.next config a r = ph)
    (hk : ∀ r g', Stage.In K ph g' → Runs config i g' (k r)) : Runs config i g (.act a k) :=
  runs_act h fun r => hk r _ (hg.next hK a r (hph r))

/-! ## 5. Records -/

theorem Phase.recorded_recorded (ok : Bool) :
    (ph.recorded true).recorded ok = ph.recorded ok := by
  cases ph <;> rfl

/-- A decision that is written and published. -/
theorem follows_recordDecision {setup : EngineSetup} {post : Stage → Exit → Prop}
    {decision : DecisionRecord} {k : Pipeline Exit} (hK : Kept config i K) (hg : g.In K ph)
    (hw : Allows i g (.writeDecision decision))
    (hpub : ∀ g', Stage.In K (ph.recorded true) g' → Allows i g' (.publishDecision decision))
    (herr : ∀ g', Stage.In K (ph.recorded false) g' → post g' .err)
    (hk : ∀ g', Stage.In K (ph.recorded true) g' →
      Follows (intentProtocol config i) post g' k) :
    Follows (intentProtocol config i) post g (recordDecision setup decision k) := by
  refine ⟨hw, fun written => ?_⟩
  have hg' := hg.next hK (.writeDecision decision) written rfl
  cases written with
  | false => exact herr _ hg'
  | true =>
      show Follows _ _ _ (if setup.nats then _ else k)
      split
      · refine ⟨hpub _ hg', fun published => ?_⟩
        have hg'' := hg'.next hK (.publishDecision decision) published
          (Phase.recorded_recorded published)
        cases published with
        | false => exact herr _ hg''
        | true => exact hk _ hg''
      · exact hk _ hg'

/-- An execution result that is written and published. -/
theorem runs_recordExecution {setup : EngineSetup} {exec : ExecutionResult} {k : Pipeline Exit}
    (hK : Kept config i K) (hg : g.In K ph) (hw : Allows i g (.writeExecution exec))
    (hpub : ∀ g', Stage.In K (ph.recorded true) g' → Allows i g' (.publishExecution exec))
    (herr : ∀ g', Stage.In K (ph.recorded false) g' → g'.Ended)
    (hk : ∀ g', Stage.In K (ph.recorded true) g' → Runs config i g' k) :
    Runs config i g (recordExecution setup exec k) := by
  refine runs_act hw fun written => ?_
  have hg' := hg.next hK (.writeExecution exec) written rfl
  cases written with
  | false => exact herr _ hg'
  | true =>
      show Runs _ _ _ (if setup.nats then _ else k)
      split
      · refine runs_act (hpub _ hg') fun published => ?_
        have hg'' := hg'.next hK (.publishExecution exec) published
          (Phase.recorded_recorded published)
        cases published with
        | false => exact herr _ hg''
        | true => exact hk _ hg''
      · exact hk _ hg'

/-- An execution result whose errors are only logged, in a phase that does not change with it. -/
theorem follows_recordExecutionBestEffort {setup : EngineSetup} {post : Stage → Exit → Prop}
    {exec : ExecutionResult} {k : Pipeline Exit} (hK : Kept config i K) (hg : g.In K ph)
    (hph : ∀ ok, ph.recorded ok = ph)
    (hw : ∀ g', Stage.In K ph g' → Allows i g' (.writeExecution exec))
    (hk : ∀ g', Stage.In K ph g' → Follows (intentProtocol config i) post g' k) :
    Follows (intentProtocol config i) post g (recordExecutionBestEffort setup exec k) := by
  refine ⟨hw g hg, fun written => ?_⟩
  have hg' := hg.next hK (.writeExecution exec) written (hph written)
  show Follows _ _ _ (if setup.nats then _ else k)
  split
  · exact ⟨hw _ hg', fun published => hk _ (hg'.next hK _ published (hph published))⟩
  · exact hk _ hg'

/-- A rejection before any lock attempt. -/
theorem runs_emitRejected_gating {setup : EngineSetup} {reason : RejectReason}
    (hK : Kept config i K) (hg : g.In K .gating) (hr : reason ≠ .riskDailyLossLimit) :
    Runs config i g (emitRejectedDecision setup i reason) := by
  refine follows_recordDecision hK hg (.inr ⟨?_, .inl hg.1⟩) (fun _ h => .inl h.1)
    (fun _ h => .inl h.1) fun _ h => runs_ret (.inl h.1)
  intro h
  exact hr (PrimaryRejectReason.reason.inj (Option.some.inj h))

/-- The rejection for the daily loss limit. -/
theorem runs_emitRejected_lossStop {setup : EngineSetup} (hK : Kept config i K)
    (hg : g.In K .lossStop) :
    Runs config i g (emitRejectedDecision setup i .riskDailyLossLimit) :=
  follows_recordDecision hK hg (.inl ⟨hg.1, rfl⟩) (fun _ h => .inl h.1) (fun _ h => .inl h.1)
    fun _ h => runs_ret (.inl h.1)

/-- A rejection after the release. -/
theorem runs_emitRejected_over {setup : EngineSetup} {reason : RejectReason}
    (hK : Kept config i K) (hg : g.In K .over) (hr : reason ≠ .riskDailyLossLimit) :
    Runs config i g (emitRejectedDecision setup i reason) := by
  refine follows_recordDecision hK hg (.inr ⟨?_, .inr (.inr (.inr hg.1))⟩)
    (fun g' h => .inr (.inr (.inr h.1))) (fun g' h => .inr (.inl h.1))
    fun g' h => runs_ret (.inr (.inl h.1))
  intro h
  exact hr (PrimaryRejectReason.reason.inj (Option.some.inj h))

theorem runs_emitExpired {setup : EngineSetup} {reason : RejectReason} (hK : Kept config i K)
    (hg : g.In K .gating) (hr : reason ≠ .riskDailyLossLimit) :
    Runs config i g (emitExpiredDecision setup i reason) := by
  refine follows_recordDecision hK hg (.inr ⟨?_, .inl hg.1⟩) (fun g' h => .inl h.1)
    (fun g' h => .inl h.1) fun g' h => ?_
  · intro h
    exact hr (PrimaryRejectReason.reason.inj (Option.some.inj h))
  · refine runs_stay hK h ⟨rfl, .inl h.1⟩ (fun _ => rfl) fun _ g'' h'' => ?_
    exact runs_ret (.inl h''.1)

/-- The record of a failed simulation, while the locks are held or after the release. -/
theorem follows_emitSimFailed {setup : EngineSetup} {post : Stage → Exit → Prop}
    {errorCode : Option String} (hK : Kept config i K) (hg : g.In K ph)
    (hph : ph = .holding ∨ ph = .over) (hpost : ∀ g', Stage.In K ph g' → post g' .err) :
    Follows (intentProtocol config i) post g (emitSimFailedDecision setup i errorCode) := by
  have hsame : ∀ ok, ph.recorded ok = ph := by
    intro ok
    rcases hph with rfl | rfl <;> rfl
  have hwrite : ∀ g' exec, Stage.In K ph g' → Allows i g' (.writeExecution exec) := by
    intro g' exec h
    rcases hph with rfl | rfl
    · exact .inl h.1
    · exact .inr (.inr (.inr h.1))
  refine follows_recordDecision hK hg (.inr ⟨by simp [lossReason], ?_⟩) (fun g' h => ?_)
    (fun g' h => ?_) fun g' h => ?_
  · rcases hph with rfl | rfl
    · exact .inr (.inl hg.1)
    · exact .inr (.inr (.inr hg.1))
  · rw [hsame] at h
    rcases hph with rfl | rfl
    · exact .inr (.inl h.1)
    · exact .inr (.inr (.inr h.1))
  · rw [hsame] at h
    exact hpost g' h
  · rw [hsame] at h
    exact follows_recordExecutionBestEffort hK h hsame (fun g'' h'' => hwrite g'' _ h'')
      fun g'' h'' => hpost g'' h''

end Steps

end IronCrab

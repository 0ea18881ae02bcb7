/-
  File:      IronCrab/Engine/Conformance.lean
  Subject:   `process_intent` FOLLOWS THE PROTOCOL OF ITS INTENT, section by section of the
             source's function, for every setup, configuration and intent.

  * `runs_gates` -- the gates leave with both gates of a BUY passed;
  * `runs_lockResources`, `runs_lockCapital` -- the locks, pool by pool;
  * `runs_txPlanRetry` -- the retry loop, which stays within its bound;
  * `runs_afterSimulation` -- sending, confirming, recording, accounting;
  * **`processIntent_follows`** -- the whole pipeline.
-/
import IronCrab.Engine.Protocol

namespace IronCrab

open ProcessIntent
open Effect (Follows)

/-! ## 1. Gates -/

section Gates

variable {setup : EngineSetup} {config : ExecutionConfig} {i : TradeIntent} {g : Stage}
  {K : Stage → Prop} {k : Pipeline Exit}

theorem Refusal.ne_loss (reason : Refusal) : reason.1 ≠ .riskDailyLossLimit := by
  intro h
  have hmem := reason.2
  rw [h] at hmem
  exact absurd hmem (by decide)

theorem runs_idempotencyGate (hK : Kept config i K) (hg : g.In K .gating)
    (hk : ∀ g', Stage.In K .gating g' → Runs config i g' k) :
    Runs config i g (idempotencyGate setup i k) := by
  refine runs_stay hK hg ⟨hg.1, rfl⟩ (fun _ => rfl) fun duplicate g' h => ?_
  cases duplicate with
  | true => exact runs_emitRejected_gating hK h (by simp)
  | false => exact hk g' h

theorem runs_ttlGate (hK : Kept config i K) (hg : g.In K .gating)
    (hk : ∀ g', Stage.In K .gating g' → Runs config i g' k) :
    Runs config i g (ttlGate setup config i k) := by
  unfold ttlGate
  split
  · exact hk g hg
  · refine runs_stay hK hg hg.1 (fun _ => rfl) fun nowUnixMs g' h => ?_
    split
    · exact runs_emitExpired hK h (by simp)
    · exact hk g' h

theorem runs_killSwitchGate (hK : Kept config i K) (hg : g.In K .gating)
    (hk : ∀ g', Stage.In K .gating g' → Runs config i g' k) :
    Runs config i g (killSwitchGate setup i k) := by
  unfold killSwitchGate
  split
  · refine runs_stay hK hg hg.1 (fun _ => rfl) fun active g' h => ?_
    cases active with
    | true => exact runs_emitRejected_gating hK h (by simp)
    | false => exact hk g' h
  · exact hk g hg

/-- A gate that reads nothing: it rejects, or goes on. -/
theorem runs_rejectIf {c : Prop} [Decidable c] {reason : RejectReason} (hK : Kept config i K)
    (hg : g.In K .gating) (hr : reason ≠ .riskDailyLossLimit)
    (hk : ∀ g', Stage.In K .gating g' → Runs config i g' k) :
    Runs config i g (if c then emitRejectedDecision setup i reason else k) := by
  split
  · exact runs_emitRejected_gating hK hg hr
  · exact hk g hg

theorem runs_maxSlippageGate (hK : Kept config i K) (hg : g.In K .gating)
    (hk : ∀ g', Stage.In K .gating g' → Runs config i g' k) :
    Runs config i g (maxSlippageGate setup config i k) := by
  unfold maxSlippageGate
  split
  · exact hk g hg
  · exact runs_rejectIf hK hg (by simp) hk

/-- The stage remembers that an answer passed the open-position gate. -/
theorem admitted_next {a : Act} {r : Answer a} (hg : g.phase = .gating)
    (h : admits config i a r = true) : (g.next config i a r).admitted = true := by
  simp [Stage.next, hg, Phase.isGating, h]

theorem runs_openPositionsCountGate (hg : g.phase = .gating)
    (hk : ∀ g', Stage.In (Stage.Admitted i) .gating g' → Runs config i g' k) :
    Runs config i g (openPositionsCountGate setup config i k) := by
  refine runs_act hg fun authorityCurrent => ?_
  have hg₁ : (g.next config i .openPositionsCount authorityCurrent).phase = .gating := by
    rw [← hg]
    simp only [Stage.next, hg]
    rfl
  refine runs_act hg₁ fun lockmanagerCurrent => ?_
  by_cases hpass : maxOpenPositionsBuyGate i.currentOpenPositions (some authorityCurrent)
      lockmanagerCurrent config.maxOpenPositions = true
  · rw [if_pos hpass]
    refine hk _ (Stage.In.next kept_admitted ⟨hg₁, fun _ => ?_⟩ _ _ rfl)
    exact admitted_next hg hpass
  · rw [if_neg hpass]
    refine runs_emitRejected_gating (K := fun _ => True) kept_true ?_ (by simp)
    exact Stage.In.next kept_true ⟨hg₁, trivial⟩ _ _ rfl

theorem runs_openPositionsGate (hg : g.phase = .gating)
    (hk : ∀ g', Stage.In (Stage.Admitted i) .gating g' → Runs config i g' k) :
    Runs config i g (openPositionsGate setup config i k) := by
  unfold openPositionsGate
  split
  · next hside =>
      dsimp only
      split
      · refine runs_act (.inl hg) fun existingBalanceRaw => ?_
        have hK : Kept config i fun _ => True := kept_true
        have hg₁ := Stage.In.next hK ⟨hg, trivial⟩
          (.availableTokenBalance i.resources.outputMint) existingBalanceRaw rfl
        by_cases hskip : scaleInSkipsMaxOpenPositions (i.metadata.lookup "entry_kind")
            existingBalanceRaw = true
        · rw [if_pos hskip]
          exact hk _ ⟨hg₁.1, fun _ => admitted_next hg hskip⟩
        · rw [if_neg hskip]
          exact runs_openPositionsCountGate hg₁.1 hk
      · exact runs_openPositionsCountGate hg hk
  · next hside => exact hk g ⟨hg, fun h => absurd h hside⟩

theorem runs_dailyLossGate (hg : g.In (Stage.Admitted i) .gating)
    (hk : ∀ g', Stage.In (Stage.Cleared i) .gating g' → Runs config i g' k) :
    Runs config i g (dailyLossGate setup config i k) := by
  unfold dailyLossGate
  split
  · next hside =>
      refine runs_act ⟨hg.1, hside⟩ fun dailyLoss => ?_
      by_cases hloss : dailyLossReached dailyLoss config.dailyLossLimitLamports = true
      · rw [if_pos hloss]
        refine runs_emitRejected_lossStop (K := fun _ => True) kept_true ⟨?_, trivial⟩
        show (if _ then _ else _) = _
        rw [if_pos hloss]
      · rw [if_neg hloss]
        refine hk _ ⟨?_, fun _ => ⟨kept_admitted _ _ _ hg.2 hside, ?_⟩⟩
        · show (if _ then _ else _) = _
          rw [if_neg hloss, hg.1]
        · simp [Stage.next, passesLoss, hloss]
  · next hside => exact hk g ⟨hg.1, fun h => absurd h hside⟩

theorem runs_sellBalanceGate (hK : Kept config i K) (hg : g.In K .gating)
    (hk : ∀ g', Stage.In K .gating g' → Runs config i g' k) :
    Runs config i g (sellBalanceGate setup i k) := by
  unfold sellBalanceGate
  split
  · split
    · exact runs_emitRejected_gating hK hg (by simp)
    · refine runs_stay hK hg (.inl hg.1) (fun _ => rfl) fun lockmanagerAvailable g₁ h₁ => ?_
      refine runs_stay hK h₁ h₁.1 (fun _ => rfl) fun authorityTradable g₂ h₂ => ?_
      split
      · exact hk g₂ h₂
      · exact runs_emitRejected_gating hK h₂ (by simp)
  · exact hk g hg

theorem runs_feeGate (hK : Kept config i K) (hg : g.In K .gating)
    (hk : ∀ g', Stage.In K .gating g' → Runs config i g' k) :
    Runs config i g (feeGate setup i k) := by
  refine runs_stay hK hg hg.1 (fun _ => rfl) fun refusal g' h => ?_
  cases refusal with
  | none => exact hk g' h
  | some reason => exact runs_emitRejected_gating hK h reason.ne_loss

theorem runs_gates (hg : g.phase = .gating)
    (hk : ∀ g', Stage.In (Stage.Cleared i) .gating g' → Runs config i g' k) :
    Runs config i g (gates setup config i k) := by
  have hT : Kept config i fun _ => True := kept_true
  refine runs_idempotencyGate hT ⟨hg, trivial⟩ fun g₁ h₁ => ?_
  refine runs_ttlGate hT h₁ fun g₂ h₂ => ?_
  refine runs_stay hT h₂ h₂.1 (fun _ => rfl) fun _ g₃ h₃ => ?_
  refine runs_killSwitchGate hT h₃ fun g₄ h₄ => ?_
  refine runs_rejectIf hT h₄ (by simp) fun g₅ h₅ => ?_
  refine runs_maxSlippageGate hT h₅ fun g₆ h₆ => ?_
  refine runs_openPositionsGate h₆.1 fun g₇ h₇ => ?_
  refine runs_dailyLossGate h₇ fun g₈ h₈ => ?_
  refine runs_sellBalanceGate kept_cleared h₈ fun g₉ h₉ => ?_
  exact runs_feeGate kept_cleared h₉ hk

end Gates

/-! ## 2. Locks -/

section Locks

variable {setup : EngineSetup} {config : ExecutionConfig} {i : TradeIntent} {g : Stage}
  {K : Stage → Prop} {k : Pipeline Exit}

/-- A release that a stage allows, and what runs after it. -/
theorem runs_release {restoreTokens : Bool} (hK : Kept config i K) (hg : K g)
    (h : Allows i g (.releaseCapital i.intentId restoreTokens))
    (hk : ∀ g', Stage.In K .over g' → Runs config i g' k) :
    Runs config i g (.act (.releaseCapital i.intentId restoreTokens) fun _ =>
      .act (.releaseResources i.intentId) fun _ => k) := by
  refine runs_act h fun r => ?_
  have h₁ : (g.next config i (.releaseCapital i.intentId restoreTokens) r).In K .freed :=
    ⟨rfl, hK _ _ _ hg⟩
  refine runs_act ⟨rfl, .inr h₁.1⟩ fun r' => ?_
  exact hk _ (h₁.next hK _ r' rfl)

theorem runs_releaseLocks (hK : Kept config i K) (hg : K g)
    (hph : g.phase = .denied ∨ g.phase = .holding)
    (hk : ∀ g', Stage.In K .over g' → Runs config i g' k) :
    Runs config i g (releaseLocks i.intentId k) := by
  refine runs_release hK hg ⟨rfl, .inl ⟨rfl, ?_⟩⟩ hk
  rcases hph with h | h
  · exact .inl h
  · exact .inr (.inl h)

theorem runs_releaseAndReject {reason : RejectReason} (hK : Kept config i K) (hg : K g)
    (hph : g.phase = .denied ∨ g.phase = .holding) (hr : reason ≠ .riskDailyLossLimit) :
    Runs config i g (releaseAndReject setup i reason) :=
  runs_releaseLocks hK hg hph fun _ h => runs_emitRejected_over hK h hr

/-- By induction on the pools that are left: the others count as locked. -/
theorem runs_lockResources {pools got : List ResourceId} (hpools : pools ⊆ i.resources.pools)
    (hg : g.Cleared i) (hgot : g.phase.got = some got)
    (hk : ∀ g', g'.Cleared i → g'.phase.got = some (got ++ pools) → Runs config i g' k) :
    Runs config i g (lockResources setup config i k pools) := by
  induction pools generalizing g got with
  | nil =>
      rw [List.append_nil] at hk
      exact hk g hg hgot
  | cons pool pools ih =>
      obtain ⟨hpool, hrest⟩ := List.cons_subset.mp hpools
      have hlocked : ∀ result : LockResult, result.isConflict = false →
          Runs config i (g.next config i
              (.tryLockResource (holder i) pool (computePreSendCapitalLockTtl config)) result)
            (lockResources setup config i k pools) := by
        intro result hresult
        have hgot' : (g.next config i (.tryLockResource (holder i) pool
            (computePreSendCapitalLockTtl config)) result).phase.got = some (got ++ [pool]) := by
          show Phase.got (if result.isConflict then _ else _) = _
          rw [hresult, hgot]
          rfl
        refine ih hrest (kept_cleared _ _ _ hg) hgot' ?_
        rw [List.append_assoc]
        exact hk
      refine runs_act ⟨rfl, hpool, hg, by simp [hgot]⟩ fun result => ?_
      cases result with
      | conflict other =>
          exact runs_releaseAndReject kept_cleared (kept_cleared _ _ _ hg) (.inl rfl) (by simp)
      | acquired => exact hlocked .acquired rfl
      | acquiredByPreemption other => exact hlocked (.acquiredByPreemption other) rfl
      | insufficientCapital available requested =>
          exact hlocked (.insufficientCapital available requested) rfl

theorem runs_lockCapital {got : List ResourceId} (hg : g.Cleared i)
    (hgot : g.phase.got = some got) (hall : i.resources.pools ⊆ got)
    (hk : ∀ g', Stage.In (Stage.Cleared i) .holding g' → Runs config i g' k) :
    Runs config i g (lockCapital setup config i k) := by
  refine runs_act ⟨rfl, hg, got, hgot, hall⟩ fun result => ?_
  cases hresult : result.isAcquired with
  | true =>
      refine hk _ ⟨?_, kept_cleared _ _ _ hg⟩
      show (if _ then _ else _) = _
      rw [hresult, if_pos rfl]
  | false =>
      refine runs_releaseAndReject kept_cleared (kept_cleared _ _ _ hg) (.inl ?_) (by simp)
      show (if _ then _ else _) = _
      rw [hresult, if_neg Bool.false_ne_true]

theorem runs_replayExits (hK : Kept config i K) (hg : g.In K .holding)
    (hk : ∀ g', Stage.In K .holding g' → Runs config i g' k) :
    Runs config i g (replayExits setup i k) := by
  unfold replayExits
  split
  · -- the only exit that records before it releases
    have hrecord : Follows (intentProtocol config i) (fun g' _ => Stage.In K .holding g') g
        (emitSimFailedDecision setup i (some "Simulation failed: Custom(6005)")) :=
      follows_emitSimFailed hK hg (.inl rfl) fun _ h => h
    refine hrecord.bind fun g' _ h => ?_
    refine runs_releaseLocks hK h.2 (.inr h.1) fun g'' h'' => ?_
    exact runs_ret (.inr (.inl h''.1))
  split
  · refine runs_releaseLocks hK hg.2 (.inr hg.1) fun g' h => ?_
    exact follows_emitSimFailed hK h (.inr rfl) fun g'' h'' => .inr (.inl h''.1)
  split
  · refine runs_releaseLocks hK hg.2 (.inr hg.1) fun g' h => ?_
    refine follows_recordDecision hK h (.inr ⟨by simp [lossReason], ?_⟩)
      (fun _ h' => .inr (.inr (.inr h'.1))) (fun _ h' => .inr (.inl h'.1))
      fun _ h' => runs_ret (.inr (.inl h'.1))
    exact .inr (.inr (.inr h.1))
  · exact hk g hg

end Locks

/-! ## 3. Planning and simulation -/

/-- The retry loop swaps the route of an intent; the trade stays the same. -/
structure SameTrade (i j : TradeIntent) : Prop where
  intentId : j.intentId = i.intentId
  side : j.side = i.side
  requiredCapital : j.requiredCapital = i.requiredCapital
  inputMint : j.resources.inputMint = i.resources.inputMint
  outputMint : j.resources.outputMint = i.resources.outputMint
  coldPath : j.isColdPathRecoverySell = i.isColdPathRecoverySell

theorem SameTrade.refl (i : TradeIntent) : SameTrade i i := ⟨rfl, rfl, rfl, rfl, rfl, rfl⟩

section Planning

variable {setup : EngineSetup} {config : ExecutionConfig} {i j : TradeIntent} {g : Stage}
  {K : Stage → Prop} {k : Pipeline Exit}

/-- A taken route changes the metadata under `dex` and `creator` only. -/
theorem metaIs_takeNext {j' : TradeIntent} {key : String}
    (h : j.takeNextMultiPoolBuildableFallbackRoute = some j') (hdex : key ≠ "dex")
    (hcreator : key ≠ "creator") (value : String) : j'.metaIs key value = j.metaIs key value := by
  unfold TradeIntent.takeNextMultiPoolBuildableFallbackRoute at h
  split at h
  · cases hr : j.fallbackRoutes with
    | nil =>
        rw [hr] at h
        cases h
    | cons next rest =>
        rw [hr] at h
        cases h
        unfold TradeIntent.metaIs
        cases next.creator <;>
          simp [Finmap.lookup_insert_of_ne, Finmap.lookup_erase_ne, hdex, hcreator]
  · cases h

theorem SameTrade.takeNext {j' : TradeIntent} (h : SameTrade i j)
    (ht : j.takeNextMultiPoolBuildableFallbackRoute = some j') : SameTrade i j' := by
  obtain ⟨hid, hside, hcapital, hin, hout, _⟩ := TradeIntent.takeNext_spec ht
  refine ⟨hid.trans h.intentId, hside.trans h.side, hcapital.trans h.requiredCapital,
    hin.trans h.inputMint, hout.trans h.outputMint, ?_⟩
  rw [← h.coldPath]
  unfold TradeIntent.isColdPathRecoverySell
  rw [metaIs_takeNext ht (by decide) (by decide), metaIs_takeNext ht (by decide) (by decide),
    metaIs_takeNext ht (by decide) (by decide), hside]

theorem runs_reject (hK : Kept config i K) (hs : SameTrade i j) (hg : g.In K .holding)
    {reason : RejectReason} (hr : reason ≠ .riskDailyLossLimit) :
    Runs config i g (releaseAndReject setup j reason) := by
  unfold releaseAndReject emitRejectedDecision
  rw [hs.intentId]
  exact runs_releaseAndReject hK hg.2 (.inr hg.1) hr

theorem runs_planCrossDex (hK : Kept config i K) (hs : SameTrade i j) (hg : g.In K .holding)
    (hk : ∀ g', Stage.In K .holding g' → Runs config i g' k) :
    Runs config i g (planCrossDex setup j k) := by
  unfold planCrossDex
  split
  · exact runs_reject hK hs hg (by simp)
  · refine runs_stay hK hg hg.1 (fun _ => rfl) fun refusal g' h => ?_
    cases refusal with
    | none => exact hk g' h
    | some reason => exact runs_reject hK hs h reason.ne_loss

theorem runs_buildTxPlan {again : TradeIntent → Pipeline Exit} (hK : Kept config i K)
    (hs : SameTrade i j) (hg : g.In K .holding)
    (hagain : ∀ j' g', j.takeNextMultiPoolBuildableFallbackRoute = some j' →
      Stage.In K .holding g' → Runs config i g' (again j'))
    (hk : ∀ g', Stage.In K .holding g' → Runs config i g' k) :
    Runs config i g (buildTxPlan setup j again k) := by
  refine runs_stay hK hg hg.1 (fun _ => rfl) fun refusal g' h => ?_
  cases refusal with
  | none => exact hk g' h
  | some reason =>
      dsimp only
      split
      · cases ht : j.takeNextMultiPoolBuildableFallbackRoute with
        | none => exact runs_reject hK hs h reason.ne_loss
        | some j' => exact hagain j' g' ht h
      · exact runs_reject hK hs h reason.ne_loss

/-- What the loop may still do; every round that is followed by another lowers it. -/
def roundsLeft (flags : RetryFlags) (j : TradeIntent) : Nat :=
  flags.unused + j.fallbackRoutes.length

/-- Another round may start with these flags and this intent. -/
def Again (config : ExecutionConfig) (i : TradeIntent) (K : Stage → Prop) (bound : Nat)
    (again : RetryFlags → TradeIntent → Pipeline Exit) : Prop :=
  ∀ flags j g, SameTrade i j → roundsLeft flags j < bound → Stage.In K .holding g →
    Runs config i g (again flags j)

theorem runs_planSwap {flags : RetryFlags} {again : RetryFlags → TradeIntent → Pipeline Exit}
    (hK : Kept config i K) (hs : SameTrade i j) (hg : g.In K .holding)
    (hagain : Again config i K (roundsLeft flags j) again)
    (hk : ∀ g', Stage.In K .holding g' → Runs config i g' k) :
    Runs config i g (planSwap setup flags j again k) := by
  have hbuild : ∀ g', Stage.In K .holding g' →
      Runs config i g' (buildTxPlan setup j (again flags) k) := by
    intro g' h
    refine runs_buildTxPlan hK hs h (fun j' g'' ht h'' => ?_) hk
    obtain ⟨_, _, _, _, _, hlt⟩ := TradeIntent.takeNext_spec ht
    exact hagain flags j' g'' (hs.takeNext ht) (Nat.add_lt_add_left hlt _) h''
  unfold planSwap
  split
  · next hcond =>
      refine runs_stay hK hg hg.1 (fun _ => rfl) fun ready g' h => ?_
      cases ready with
      | false => exact hbuild g' h
      | true =>
          refine hagain _ j g' hs ?_ h
          have hflag : flags.pumpAmmPrePlanDiscovery = false := by
            simp only [Bool.and_eq_true, Bool.not_eq_true'] at hcond
            exact hcond.1.1.1.1.2
          simp [roundsLeft, RetryFlags.unused, hflag]
  · exact hbuild g hg

theorem runs_bundleGates (hK : Kept config i K) (hs : SameTrade i j) (hg : g.In K .holding)
    (hk : ∀ g', Stage.In K .holding g' → Runs config i g' k) :
    Runs config i g (bundleGates setup config j k) := by
  unfold bundleGates
  split
  · split
    · exact runs_reject hK hs hg (by simp)
    · refine runs_stay hK hg hg.1 (fun _ => rfl) fun refusal g' h => ?_
      cases refusal with
      | none => exact hk g' h
      | some reason => exact runs_reject hK hs h reason.ne_loss
  · exact hk g hg

theorem runs_quoteGate (hK : Kept config i K) (hs : SameTrade i j) (hg : g.In K .holding)
    (hk : ∀ g', Stage.In K .holding g' → Runs config i g' k) :
    Runs config i g (quoteGate setup j k) := by
  unfold quoteGate
  split
  · refine runs_stay hK hg hg.1 (fun _ => rfl) fun notReady g' h => ?_
    cases notReady with
    | true => exact runs_reject hK hs h (by simp)
    | false => exact hk g' h
  · exact hk g hg

end Planning

section Recoveries

variable {config : ExecutionConfig} {flags : RetryFlags} {i j : TradeIntent} {sim : SimOutcome}
  {g : Stage} {K : Stage → Prop} {again : RetryFlags → Pipeline Exit} {done next : Pipeline Exit}

/-- What a recovery goes on with: with its flag set, out of the loop, or the next recovery. -/
structure GoesOn (config : ExecutionConfig) (i : TradeIntent) (K : Stage → Prop)
    (flags : RetryFlags) (again : RetryFlags → Pipeline Exit) (done next : Pipeline Exit) :
    Prop where
  again : ∀ flags' g, flags'.unused < flags.unused → Stage.In K .holding g →
    Runs config i g (again flags')
  done : ∀ g, Stage.In K .holding g → Runs config i g done
  next : ∀ g, Stage.In K .holding g → Runs config i g next

theorem runs_attemptRecovery {kind : RecoveryKind} {flags' : RetryFlags} (hK : Kept config i K)
    (hg : g.In K .holding) (h : GoesOn config i K flags again done next)
    (hlt : flags'.unused < flags.unused) :
    Runs config i g (attemptRecovery j again done next kind flags') := by
  refine runs_stay hK hg hg.1 (fun _ => rfl) fun outcome g' hg' => ?_
  cases outcome with
  | rebuild => exact h.again flags' g' hlt hg'
  | giveUp => exact h.done g' hg'
  | fallThrough => exact h.next g' hg'

theorem runs_pumpAmmRecovery (hK : Kept config i K) (hs : SameTrade i j) (hg : g.In K .holding)
    (h : GoesOn config i K flags again done next) :
    Runs config i g (pumpAmmRecovery config flags j sim again done next) := by
  unfold pumpAmmRecovery
  split
  · next hcond =>
      have hflag : flags.pumpAmmRecovery = false := by
        simp only [Bool.and_eq_true, Bool.not_eq_true'] at hcond
        exact hcond.1.1.1
      refine runs_stay hK hg hg.1 (fun _ => rfl) fun hint g₁ h₁ => ?_
      cases hint with
      | unparsableMint => exact h.done g₁ h₁
      | missing => exact h.next g₁ h₁
      | found =>
          refine runs_stay hK h₁ ⟨hs.intentId, h₁.1⟩ (fun _ => rfl) fun _ g₂ h₂ => ?_
          refine runs_attemptRecovery hK h₂ h ?_
          simp [RetryFlags.unused, hflag]
  · exact h.next g hg

theorem runs_pumpfunBondingRecovery (hK : Kept config i K) (hg : g.In K .holding)
    (h : GoesOn config i K flags again done next) :
    Runs config i g (pumpfunBondingRecovery flags j sim again done next) := by
  unfold pumpfunBondingRecovery
  split
  · next hcond =>
      have hflag : flags.pumpfunBondingRecovery = false := by
        simp only [Bool.and_eq_true, Bool.not_eq_true'] at hcond
        exact hcond.1.1.1.1
      refine runs_attemptRecovery hK hg h ?_
      simp [RetryFlags.unused, hflag]
  · exact h.next g hg

theorem runs_crossDexOrcaRecovery {isCrossDexArb : Bool} (hK : Kept config i K)
    (hg : g.In K .holding) (h : GoesOn config i K flags again done next) :
    Runs config i g (crossDexOrcaRecovery flags j sim again done next isCrossDexArb) := by
  unfold crossDexOrcaRecovery
  split
  · next hcond =>
      have hflag : flags.orcaRecovery = false := by
        simp only [Bool.and_eq_true, Bool.not_eq_true'] at hcond
        exact hcond.1.1.1
      refine runs_attemptRecovery hK hg h ?_
      simp [RetryFlags.unused, hflag]
  · exact h.next g hg

theorem runs_orcaRecovery (hK : Kept config i K) (hg : g.In K .holding)
    (h : GoesOn config i K flags again done next) :
    Runs config i g (orcaRecovery flags j sim again done next) := by
  unfold orcaRecovery
  split
  · next hcond =>
      have hflag : flags.orcaRecovery = false := by
        simp only [Bool.and_eq_true, Bool.not_eq_true'] at hcond
        exact hcond.1.1.1.1
      refine runs_attemptRecovery hK hg h ?_
      simp [RetryFlags.unused, hflag]
  · exact h.next g hg

end Recoveries

section Loop

variable {setup : EngineSetup} {config : ExecutionConfig} {isCrossDexArb : Bool}
  {i j : TradeIntent} {g : Stage} {K : Stage → Prop}
  {done : TradeIntent → SimOutcome → Pipeline Exit}

/-- What follows the loop. -/
def Done (config : ExecutionConfig) (i : TradeIntent) (K : Stage → Prop)
    (done : TradeIntent → SimOutcome → Pipeline Exit) : Prop :=
  ∀ j sim g, SameTrade i j → Stage.In K .holding g → Runs config i g (done j sim)

theorem runs_simulatePlan {flags : RetryFlags}
    {again : RetryFlags → TradeIntent → Pipeline Exit} (hK : Kept config i K)
    (hs : SameTrade i j) (hdone : Done config i K done)
    (hagain : Again config i K (roundsLeft flags j) again) (hg : g.In K .holding) :
    Runs config i g (simulatePlan setup config isCrossDexArb done flags j again) := by
  refine runs_bundleGates hK hs hg fun g₁ h₁ => ?_
  refine runs_quoteGate hK hs h₁ fun g₂ h₂ => ?_
  refine runs_stay hK h₂ h₂.1 (fun _ => rfl) fun sim g₃ h₃ => ?_
  have hd : ∀ g', Stage.In K .holding g' → Runs config i g' (done j sim) :=
    fun g' h => hdone j sim g' hs h
  have ha : ∀ flags' g', flags'.unused < flags.unused → Stage.In K .holding g' →
      Runs config i g' (again flags' j) :=
    fun flags' g' hlt h => hagain flags' j g' hs (Nat.add_lt_add_right hlt _) h
  split
  · exact hd g₃ h₃
  · refine runs_pumpAmmRecovery hK hs h₃ ⟨ha, hd, fun g₄ h₄ => ?_⟩
    refine runs_pumpfunBondingRecovery hK h₄ ⟨ha, hd, fun g₅ h₅ => ?_⟩
    refine runs_crossDexOrcaRecovery hK h₅ ⟨ha, hd, fun g₆ h₆ => ?_⟩
    exact runs_orcaRecovery hK h₆ ⟨ha, hd, hd⟩

theorem runs_planRound {flags : RetryFlags} {again : RetryFlags → TradeIntent → Pipeline Exit}
    (hK : Kept config i K) (hs : SameTrade i j) (hdone : Done config i K done)
    (hagain : Again config i K (roundsLeft flags j) again) (hg : g.In K .holding) :
    Runs config i g (planRound setup config isCrossDexArb done flags j again) := by
  unfold planRound
  split
  · exact runs_reject hK hs hg (by simp)
  split
  · exact runs_planCrossDex hK hs hg fun g' h => runs_simulatePlan hK hs hdone hagain h
  · exact runs_planSwap hK hs hg hagain fun g' h => runs_simulatePlan hK hs hdone hagain h

/-- **The retry loop follows the protocol and stays within its bound**: by induction on the
    bound, which every round that is followed by another lowers together with `roundsLeft`. -/
theorem runs_txPlanRetry {n : Nat} {flags : RetryFlags} (hK : Kept config i K)
    (hs : SameTrade i j) (hdone : Done config i K done) (hn : roundsLeft flags j < n)
    (hg : g.In K .holding) :
    Runs config i g (txPlanRetry setup config isCrossDexArb done n flags j) := by
  induction n generalizing flags j g with
  | zero => exact absurd hn (Nat.not_lt_zero _)
  | succ n ih =>
      refine runs_planRound hK hs hdone (fun flags' j' g' hs' hlt h' => ?_) hg
      exact ih hs' (by omega) h'

end Loop

/-! ## 4. Sending, confirming, accounting -/

theorem TradeIntent.tradedMint_buy (i : TradeIntent) (h : i.side = .buy) :
    i.tradedMint = i.resources.outputMint := by
  unfold tradedMint
  rw [h]

theorem TradeIntent.tradedMint_sell (i : TradeIntent) (h : i.side = .sell) :
    i.tradedMint = i.resources.inputMint := by
  unfold tradedMint
  rw [h]

namespace SameTrade

variable {i j : TradeIntent} (h : SameTrade i j)
include h

theorem tradedMint : j.tradedMint = i.tradedMint := by
  unfold TradeIntent.tradedMint
  rw [h.side, h.inputMint, h.outputMint]

theorem finalExecution (outcome : DecisionOutcome) (fills : Option ComputedIntentFills) :
    finalExecution j outcome fills = finalExecution i outcome fills := by
  unfold ProcessIntent.finalExecution plainExecution ProcessIntent.tokenMint sideText
  rw [h.intentId, h.tradedMint, h.side]

theorem confirmedFill (fills : Option ComputedIntentFills) (slot : Option UInt64) :
    confirmedFill j fills slot = confirmedFill i fills slot := by
  unfold ProcessIntent.confirmedFill
  rw [h.side]

end SameTrade

section Accounting

variable {config : ExecutionConfig} {i j : TradeIntent} {g : Stage} {K : Stage → Prop}
  {fills : Option ComputedIntentFills} {slot : Option UInt64} {done : List Did}

/-- The accounting is over when the fill has reached the lock manager. -/
theorem runs_terminalRelease_booking {k : Pipeline Exit} (hK : Kept config i K)
    (hs : SameTrade i j) (hg : g.In K (.booking fills slot done))
    (happlied : FillApplied i (confirmedFill i fills slot) done)
    (hk : ∀ g', Stage.In K .over g' → Runs config i g' k) :
    Runs config i g (terminalRelease j .confirmed k) := by
  unfold terminalRelease
  rw [hs.side, hs.intentId]
  split
  · next hsell =>
      refine runs_release hK hg.2 ⟨rfl, .inr ⟨?_, fills, slot, done, hg.1, happlied⟩⟩ hk
      simp [hsell.2]
  · next hsell =>
      have hbuy : i.side = .buy := by
        cases hside : i.side with
        | buy => rfl
        | sell => exact absurd ⟨rfl, hside⟩ hsell
      refine runs_release hK hg.2 ⟨rfl, .inr ⟨?_, fills, slot, done, hg.1, happlied⟩⟩ hk
      simp [hbuy]

/-- One access of the accounting. -/
theorem runs_book {a : Act} {k : Answer a → Pipeline Exit} (hK : Kept config i K)
    (hg : g.In K (.booking fills slot done)) (h : Allows i g a)
    (hph : ∀ r, (Phase.booking fills slot done).next config a r =
      .booking fills slot (done ++ [⟨a, r⟩]))
    (hk : ∀ r g', Stage.In K (.booking fills slot (done ++ [⟨a, r⟩])) g' →
      Runs config i g' (k r)) : Runs config i g (.act a k) :=
  runs_act h fun r => hk r _ (hg.next hK a r (hph r))

theorem runs_bookBuyFill {mint : Mint} {fillRaw : Option UInt64} {k : Pipeline Exit}
    (hK : Kept config i K) (hg : g.In K (.booking fills slot done))
    (hk : ∀ g' done', Stage.In K (.booking fills slot done') g' →
      (∀ f, fillRaw = some f →
        (∃ balance : UInt64, ⟨.availableTokenBalance mint, balance⟩ ∈ done' ∧ f ≤ balance) ∨
        ∃ current : UInt64, ⟨.availableTokenBalance mint, current⟩ ∈ done' ∧
          ⟨.insertAvailableToken mint (Word.satAdd current f), ()⟩ ∈ done') →
      Runs config i g' k) :
    Runs config i g (bookBuyFill mint fillRaw k) := by
  cases fillRaw with
  | none => exact hk g done hg fun f h => by cases h
  | some f =>
      refine runs_book hK hg (.inr ⟨_, _, _, hg.1⟩) (fun _ => rfl) fun before g₁ h₁ => ?_
      split
      · next hcond =>
          have hle : f ≤ before := by
            simp only [Bool.and_eq_true, decide_eq_true_eq] at hcond
            exact hcond.1
          refine hk g₁ _ h₁ fun f' hf => .inl ⟨before, by simp, ?_⟩
          rw [← Option.some.inj hf]
          exact hle
      · refine runs_book hK h₁ (.inr ⟨_, _, _, h₁.1⟩) (fun _ => rfl) fun current g₂ h₂ => ?_
        refine runs_book hK h₂ ⟨_, _, _, h₂.1⟩ (fun _ => rfl) fun _ g₃ h₃ => ?_
        refine hk g₃ _ h₃ fun f' hf => .inr ⟨current, by simp, ?_⟩
        rw [← Option.some.inj hf]
        simp

theorem runs_bookSellClose {id : IntentId} {mint : Mint} {cold absent : Bool} {sold : UInt64}
    {landing : Option UInt64} {k : Pipeline Exit} (hK : Kept config i K)
    (hg : g.In K (.booking fills slot done))
    (hk : ∀ g' done', Stage.In K (.booking fills slot done') g' →
      (∃ (locked avail : UInt64) (totalAtLock : Option UInt64),
        ⟨.lockedTokensForIntent id mint, locked⟩ ∈ done' ∧
        ⟨.availableTokenBalance mint, avail⟩ ∈ done' ∧
        ⟨.tokenPositionTotalAtLock id mint, totalAtLock⟩ ∈ done' ∧
        (scope48FullClose cold sold (totalAtLock.getD (Word.satAdd avail locked)) absent →
          ⟨.removeTokenWalletAtaPresent mint, ()⟩ ∈ done' ∧
          ⟨.removeAvailableToken mint, ()⟩ ∈ done' ∧
          ⟨.insertClearedAtSlot mint landing, ()⟩ ∈ done')) →
      Runs config i g' k) :
    Runs config i g (bookSellClose id mint cold sold absent landing k) := by
  refine runs_book hK hg ⟨_, _, _, hg.1⟩ (fun _ => rfl) fun locked g₁ h₁ => ?_
  refine runs_book hK h₁ (.inr ⟨_, _, _, h₁.1⟩) (fun _ => rfl) fun avail g₂ h₂ => ?_
  refine runs_book hK h₂ ⟨_, _, _, h₂.1⟩ (fun _ => rfl) fun totalAtLock g₃ h₃ => ?_
  dsimp only
  split
  · refine runs_book hK h₃ ⟨_, _, _, h₃.1⟩ (fun _ => rfl) fun _ g₄ h₄ => ?_
    refine runs_book hK h₄ ⟨_, _, _, h₄.1⟩ (fun _ => rfl) fun _ g₅ h₅ => ?_
    refine runs_book hK h₅ ⟨_, _, _, h₅.1⟩ (fun _ => rfl) fun _ g₆ h₆ => ?_
    refine hk g₆ _ h₆ ⟨locked, avail, totalAtLock, by simp, by simp, by simp, fun _ => ?_⟩
    exact ⟨by simp, by simp, by simp⟩
  · next hpart =>
      refine hk g₃ _ h₃ ⟨locked, avail, totalAtLock, by simp, by simp, by simp, fun hfull => ?_⟩
      exact absurd hfull hpart

theorem runs_fillAccounting {k : Pipeline Exit} (hK : Kept config i K) (hs : SameTrade i j)
    (hg : g.In K (.booking fills slot done))
    (hk : ∀ g' done', Stage.In K (.booking fills slot done') g' →
      FillApplied i (confirmedFill i fills slot) done' → Runs config i g' k) :
    Runs config i g (fillAccounting j .confirmed (confirmedFill i fills slot) k) := by
  unfold fillAccounting
  rw [if_pos rfl, hs.side]
  cases hside : i.side with
  | buy =>
      refine runs_bookBuyFill hK hg fun g' done' h' happlied => hk g' done' h' ?_
      rw [hs.outputMint, ← i.tradedMint_buy hside] at happlied
      simp only [FillApplied, hside]
      exact happlied
  | sell =>
      refine runs_bookSellClose hK hg fun g' done' h' happlied => hk g' done' h' ?_
      rw [hs.intentId, hs.inputMint, ← i.tradedMint_sell hside, hs.coldPath,
        hs.requiredCapital] at happlied
      simp only [FillApplied, hside]
      exact happlied

end Accounting

section Sending

variable {setup : EngineSetup} {config : ExecutionConfig} {i j : TradeIntent} {g : Stage}
  {K : Stage → Prop}

theorem runs_postSimGate {sim : SimOutcome} {k : Pipeline Exit} (hK : Kept config i K)
    (hs : SameTrade i j) (hg : g.In K .holding)
    (hk : ∀ g', Stage.In K .holding g' → Runs config i g' k) :
    Runs config i g (postSimGate setup config j sim k) := by
  have hrejected : ∀ g', Stage.In K .over g' →
      Runs config i g' (emitRejectedDecision setup j .feeUnprofitable) := by
    intro g' h
    unfold emitRejectedDecision
    rw [hs.intentId]
    exact runs_emitRejected_over hK h (by simp)
  unfold postSimGate
  split
  · split
    · split
      · rw [hs.intentId]
        refine runs_releaseLocks hK hg.2 (.inr hg.1) fun g₁ h₁ => ?_
        unfold publishArbTerminalExecutionResultOnReject
        split
        · exact hrejected g₁ h₁
        · exact follows_recordExecutionBestEffort hK h₁ (fun _ => rfl)
            (fun g' h' => .inr (.inr (.inr h'.1))) hrejected
      · exact hk g hg
    · exact hk g hg
  · exact hk g hg

/-- Where the send section leaves the stage. -/
def sendPhase : SendState → Phase
  | .disabled => .holding
  | .sent => .sent
  | .failed => .reporting .rejected none none

/-- Where marking leaves it. -/
def markPhase : SendState → Phase
  | .sent => .marked
  | _ => .reporting .rejected none none

theorem runs_submit {bundle : Bool} {k : SendState → Pipeline Exit} (hs : SameTrade i j)
    (hg : g.In (Stage.Cleared i) .holding)
    (hk : ∀ state g', Stage.In (Stage.Cleared i) (sendPhase state) g' →
      Runs config i g' (k state)) :
    Runs config i g (.act (.submit j bundle) fun ok => k (if ok then .sent else .failed)) := by
  refine runs_act ⟨hg.1, hg.2, hs.intentId, hs.side⟩ fun ok => ?_
  have hK : Kept config i (Stage.Cleared i) := kept_cleared
  have hg' := hg.next hK (.submit j bundle) ok rfl
  cases ok with
  | true => exact hk .sent _ hg'
  | false => exact hk .failed _ hg'

theorem runs_send {k : SendState → Pipeline Exit} (hs : SameTrade i j)
    (hg : g.In (Stage.Cleared i) .holding)
    (hk : ∀ state g', Stage.In (Stage.Cleared i) (sendPhase state) g' →
      Runs config i g' (k state)) :
    Runs config i g (send setup config j k) := by
  unfold send
  split
  · exact hk .disabled g hg
  split
  · split
    · exact runs_reject kept_cleared hs hg (by simp)
    · refine runs_stay kept_cleared hg hg.1 (fun _ => rfl) fun refusal g' h => ?_
      cases refusal with
      | none => exact runs_submit hs h hk
      | some reason => exact runs_reject kept_cleared hs h reason.ne_loss
  · exact runs_submit hs hg hk

theorem runs_markAfterSend {state : SendState} {k : Pipeline Exit} (hK : Kept config i K)
    (hs : SameTrade i j) (hg : g.In K (sendPhase state))
    (hk : ∀ g', Stage.In K (markPhase state) g' → Runs config i g' k) :
    Runs config i g (markAfterSend j state k) := by
  cases state with
  | failed => exact hk g hg
  | sent =>
      refine runs_act ⟨hs.intentId, .inr (.inr hg.1)⟩ fun r => ?_
      exact hk _ (hg.next hK _ r rfl)
  | disabled =>
      refine runs_act ⟨hs.intentId, .inr (.inl hg.1)⟩ fun r => ?_
      exact hk _ (hg.next hK _ r rfl)

theorem runs_promoteAfterSend {state : SendState} {k : Pipeline Exit} (hK : Kept config i K)
    (hs : SameTrade i j) (hg : g.In K (markPhase state))
    (hk : ∀ g', Stage.In K (markPhase state) g' → Runs config i g' k) :
    Runs config i g (promoteAfterSend j state k) := by
  unfold promoteAfterSend
  split
  · next hsent =>
      subst hsent
      refine runs_stay hK hg ⟨hs.intentId, hg.1⟩ (fun _ => rfl) fun promoted g₁ h₁ => ?_
      cases promoted with
      | false => exact hk g₁ h₁
      | true => exact runs_stay hK h₁ ⟨hs.intentId, .inl h₁.1⟩ (fun _ => rfl) fun _ => hk
  · exact hk g hg

theorem runs_publishPreConfirm {state : SendState} {k : Pipeline Exit} (hK : Kept config i K)
    (hg : g.In K (markPhase state))
    (hk : ∀ g', Stage.In K (markPhase state) g' → Runs config i g' k) :
    Runs config i g (publishPreConfirm setup j state k) := by
  unfold publishPreConfirm
  split
  · next hsent =>
      subst hsent
      refine runs_stay hK hg (.inr (.inl hg.1)) (fun _ => rfl) fun written g₁ h₁ => ?_
      split
      · exact runs_stay hK h₁ (.inr (.inl h₁.1)) (fun _ => rfl) fun _ => hk
      · exact hk g₁ h₁
  · exact hk g hg

/-- The final release where nothing was confirmed. -/
theorem runs_terminalRelease_other {outcome : DecisionOutcome} {k : Pipeline Exit}
    {computed : Option (Option ComputedIntentFills)} {slot : Option UInt64}
    (hK : Kept config i K) (hs : SameTrade i j)
    (hg : g.In K (.reporting outcome computed slot)) (ho : outcome ≠ .confirmed)
    (hk : ∀ g', Stage.In K .over g' → Runs config i g' k) :
    Runs config i g (terminalRelease j outcome k) := by
  unfold terminalRelease
  rw [if_neg fun h => ho h.1, hs.intentId]
  exact runs_release hK hg.2
    ⟨rfl, .inl ⟨rfl, .inr (.inr ⟨outcome, computed, slot, hg.1, ho⟩)⟩⟩ hk

theorem runs_over {x : Exit} : ∀ g, Stage.In K .over g → Runs config i g (.ret x) :=
  fun _ h => runs_ret (.inr (.inl h.1))

theorem runs_settle_confirmed {fills : Option ComputedIntentFills} {slot : Option UInt64}
    (hs : SameTrade i j) (hg : g.In (Stage.Cleared i) (.reporting .confirmed (some fills) slot)) :
    Runs config i g (settle setup j .confirmed fills slot) := by
  have hK : Kept config i (Stage.Cleared i) := kept_cleared
  have haccount : ∀ g' done, Stage.In (Stage.Cleared i) (.booking fills slot done) g' →
      Runs config i g' (fillAccounting j .confirmed (confirmedFill j fills slot)
        (terminalRelease j .confirmed (.ret .ok))) := by
    intro g' done h
    rw [hs.confirmedFill]
    refine runs_fillAccounting hK hs h fun g'' done' h' happlied => ?_
    exact runs_terminalRelease_booking hK hs h' happlied runs_over
  refine runs_recordExecution hK hg (.inr (.inr (.inl ⟨_, _, _, hg.1⟩)))
    (fun g' h => .inr (.inr (.inl ⟨_, _, _, h.1⟩))) (fun g' h => .inr (.inr h.1))
    fun g₁ h₁ => ?_
  unfold applyConfirmed
  rw [if_pos rfl]
  refine runs_act ⟨h₁.2, fills, slot, h₁.1, hs.finalExecution _ _⟩ fun r => ?_
  have h₂ := h₁.next hK (.applyPositionAuthority (finalExecution j .confirmed fills)) r rfl
  split
  · exact runs_book hK h₂ ⟨_, _, _, h₂.1⟩ (fun _ => rfl) fun _ g₃ h₃ => haccount g₃ _ h₃
  · exact haccount _ _ h₂

theorem runs_settle_other {outcome : DecisionOutcome} {fills : Option ComputedIntentFills}
    {computed : Option (Option ComputedIntentFills)} {slot : Option UInt64}
    (hK : Kept config i K) (hs : SameTrade i j)
    (hg : g.In K (.reporting outcome computed slot)) (ho : outcome ≠ .confirmed) :
    Runs config i g (settle setup j outcome fills slot) := by
  refine runs_recordExecution hK hg (.inr (.inr (.inl ⟨_, _, _, hg.1⟩)))
    (fun g' h => .inr (.inr (.inl ⟨_, _, _, h.1⟩))) (fun g' h => .inr (.inr h.1))
    fun g₁ h₁ => ?_
  unfold applyConfirmed fillAccounting
  rw [if_neg ho, if_neg ho]
  exact runs_terminalRelease_other hK hs h₁ ho runs_over

theorem finalDecision_ne_loss (state : SendState) (outcome : DecisionOutcome) :
    (finalDecision j state outcome).primaryRejectReason ≠ lossReason := by
  unfold finalDecision lossReason
  cases state <;> cases outcome <;> simp

theorem runs_report {state : SendState} {outcome : DecisionOutcome} {slot : Option UInt64}
    (hs : SameTrade i j) (hg : g.In (Stage.Cleared i) (.reporting outcome none slot))
    (hdisabled : state = .disabled → outcome ≠ .confirmed) :
    Runs config i g (report setup j state outcome slot) := by
  have hK : Kept config i (Stage.Cleared i) := kept_cleared
  refine follows_recordDecision hK hg
    (.inr ⟨finalDecision_ne_loss _ _, .inr (.inr (.inl ⟨_, _, _, hg.1⟩))⟩)
    (fun g' h => .inr (.inr (.inl ⟨_, _, _, h.1⟩))) (fun g' h => .inr (.inr h.1))
    fun g₁ h₁ => ?_
  split
  · next hd => exact runs_terminalRelease_other hK hs h₁ (hdisabled hd) runs_over
  split
  · next hc =>
      subst hc
      refine runs_act ⟨none, slot, h₁.1⟩ fun fills => ?_
      exact runs_settle_confirmed hs (h₁.next hK (.computeIntentFills j) fills rfl)
  · next hc => exact runs_settle_other hK hs h₁ hc

theorem runs_confirmAndReport {state : SendState} (hs : SameTrade i j)
    (hg : g.In (Stage.Cleared i) (markPhase state)) :
    Runs config i g (confirmAndReport setup j state) := by
  cases state with
  | sent =>
      refine runs_act hg.1 fun confirmation => ?_
      refine runs_report hs ?_ (by simp)
      exact hg.next kept_cleared (.confirm j j.requiresBundle) confirmation rfl
  | failed => exact runs_report hs hg (by simp)
  | disabled => exact runs_report hs hg (by simp)

theorem runs_afterSimulation {sim : SimOutcome} (hs : SameTrade i j)
    (hg : g.In (Stage.Cleared i) .holding) :
    Runs config i g (afterSimulation setup config j sim) := by
  have hK : Kept config i (Stage.Cleared i) := kept_cleared
  unfold afterSimulation
  split
  · unfold emitSimFailedDecision plainExecution ProcessIntent.tokenMint sideText
    rw [hs.intentId, hs.tradedMint, hs.side]
    refine runs_releaseLocks hK hg.2 (.inr hg.1) fun g₁ h₁ => ?_
    exact follows_emitSimFailed hK h₁ (.inr rfl) fun g' h => .inr (.inl h.1)
  · refine runs_postSimGate hK hs hg fun g₁ h₁ => ?_
    refine runs_send hs h₁ fun state g₂ h₂ => ?_
    refine runs_markAfterSend hK hs h₂ fun g₃ h₃ => ?_
    refine runs_promoteAfterSend hK hs h₃ fun g₄ h₄ => ?_
    refine runs_publishPreConfirm hK h₄ fun g₅ h₅ => ?_
    exact runs_confirmAndReport hs h₅

end Sending

/-! ## 5. The whole pipeline -/

/-- **`process_intent` follows the protocol of its intent**, for every setup, configuration and
    intent; in particular the bound on the retry loop is never reached. -/
theorem processIntent_follows (setup : EngineSetup) (config : ExecutionConfig) (i : TradeIntent) :
    Runs config i Stage.start (processIntent setup config i) := by
  refine runs_gates rfl fun g₁ h₁ => ?_
  have hgot : g₁.phase.got = some [] := by
    rw [h₁.1]
    rfl
  refine runs_lockResources (List.Subset.refl _) h₁.2 hgot fun g₂ h₂ hgot₂ => ?_
  refine runs_lockCapital h₂ hgot₂ (by simp) fun g₃ h₃ => ?_
  refine runs_replayExits kept_cleared h₃ fun g₄ h₄ => ?_
  refine runs_txPlanRetry kept_cleared (SameTrade.refl i) (fun j sim g' hs h => ?_) ?_ h₄
  · exact runs_afterSimulation hs h
  · simp [roundsLeft, RetryFlags.unused, noAttempts, roundBound]

end IronCrab

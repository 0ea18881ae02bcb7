/-
  File:      IronCrab/Engine/OpenPositions.lean
  Subject:   THE OPEN-POSITION LIMIT over whole runs of the engine (src/bin/execution_engine.rs,
             check 3c of `process_intent`, `apply_position_authority_from_execution_result`).

  The gate compares the number of open positions with the limit, but only a confirmed BUY opens
  its position, long after the gate. A BUY between the two is `Buying`: it will still open its
  mint and is not counted. What stays bounded, in runs whose admissions leave room for the BUYs on
  their way, is the number of mints that are open or being bought.

  * `card_admitted` -- an admission by the count;
  * `inv_applied` -- a confirmed fill moves a mint from "being bought" to "open";
  * **`open_positions_limit`** -- the limit, and the part about scale-ins, in every state of every
    run whose steps meet `Good`;
  * `open_positions_exceeded` -- two BUYs pass the gate before either is confirmed.
-/
import IronCrab.Engine.System
import Mathlib.Data.Finset.Card

namespace IronCrab

open Effect (Setting Sys Event Label Task)
open Machine (Along foldSteps)

/-! ## 1. BUYs on their way -/

/-- The confirmed fill may still be applied. -/
def Phase.mayApply : Phase → Bool
  | .gating => true
  | .locking _ => true
  | .holding => true
  | .sent => true
  | .marked => true
  | .reporting outcome _ _ => decide (outcome = .confirmed)
  | _ => false

namespace OpenPositions

abbrev IntentTask := Task TradeIntent Act Answer Exit Stage

/-- An admitted BUY whose fill is not applied yet. -/
def buying (task : IntentTask) : Bool :=
  decide (task.arg.side = .buy) && task.stage.admitted && task.stage.phase.mayApply

/-- A BUY that skipped the gate and whose fill is not applied yet. -/
def scalingIn (task : IntentTask) : Bool := buying task && task.stage.skipped

/-- The output mints of the tasks of a kind. -/
def mintsOf (p : IntentTask → Bool) (s : Engine) : Finset Mint :=
  ((s.tasks.filter p).map fun task => task.arg.resources.outputMint).toFinset

/-- The mints that are being bought. -/
abbrev pending (s : Engine) : Finset Mint := mintsOf buying s

abbrev openMints (s : Engine) : Finset Mint := s.ctx.positionAuthority.openMints

theorem mem_mintsOf {p : IntentTask → Bool} {s : Engine} {mint : Mint} :
    mint ∈ mintsOf p s ↔ ∃ (t : Nat) (task : IntentTask), s.tasks[t]? = some task ∧ p task = true ∧
      task.arg.resources.outputMint = mint := by
  simp only [mintsOf, List.mem_toFinset, List.mem_map, List.mem_filter]
  constructor
  · rintro ⟨task, ⟨hmem, hp⟩, hm⟩
    obtain ⟨t, ht⟩ := List.mem_iff_getElem?.mp hmem
    exact ⟨t, task, ht, hp, hm⟩
  · rintro ⟨t, task, ht, hp, hm⟩
    exact ⟨task, ⟨List.mem_of_getElem? ht, hp⟩, hm⟩

/-! ## 2. The environment and the condition -/

/-- What happens beside the tasks: wallet events for the position authority, changes of the lock
    manager's ledger, the kill switch. -/
inductive WalletEvent where
  | position (kind : PositionEvent) (nowSecs : Nat)
  | ledger (m : LockManager)
  | killSwitch (active : Bool)

/-- The context after it. -/
def applyWalletEvent (c : ExecutionContext) : WalletEvent → ExecutionContext
  | .position kind nowSecs =>
      { c with
        positionAuthority := c.positionAuthority.applyFromWalletMarketEventKind kind nowSecs }
  | .ledger m => c.setLocks m
  | .killSwitch active => { c with killSwitchActive := active }

/-- A wallet event introduces no mint beyond the limit and closes no mint that is scaled into,
    given the mints that are being bought and the mints that are scaled into. -/
def GoodSnapshot (K : Nat) (pa : PositionAuthority) (pending scaledInto : Finset Mint) :
    PositionEvent → Nat → Prop
  | .walletBalanceSnapshot mint balanceRaw, _ =>
      isSolOrWsolMint mint = true ∨
      if balanceRaw = 0 then mint ∉ scaledInto
      else mint ∈ pa.openMints ∪ pending ∨ (pa.openMints ∪ pending).card < K
  | .walletSnapshotComplete mints, nowSecs =>
      ∀ mint ∈ scaledInto, mint ∈ mints ∨ (pa.byMint.lookup mint).all (fun p =>
        !PositionAuthority.ghostEligibleAfterSnapshotComplete p nowSecs) = true
  | _, _ => True

def GoodEvent (K : Nat) (s : Engine) : WalletEvent → Prop
  | .position kind nowSecs =>
      GoodSnapshot K s.ctx.positionAuthority (pending s) (mintsOf scalingIn s) kind nowSecs
  | _ => True

/-- The mints that the other BUYs on their way would open beside the open ones. -/
def newMints (s : Engine) (mint : Mint) : Finset Mint := pending s \ insert mint (openMints s)

/-- A BUY comes to the count when no other BUY of a new mint is on its way, or when there is room
    for all of them; it skips the gate when its mint is open; no SELL closes a mint that is
    scaled into. -/
def GoodAct (K : Nat) (s : Engine) (i : TradeIntent) (g : Stage) : Act → Prop
  | .openPositionsCount => i.side = .buy →
      newMints s i.resources.outputMint = ∅ ∨
        (openMints s).card + (newMints s i.resources.outputMint).card < K
  | .availableTokenBalance mint => i.side = .buy ∧ g.phase.isGating = true ∧
      scaleInSkipsMaxOpenPositions (i.metadata.lookup "entry_kind")
        (s.ctx.lockManager.availableTokenBalance mint) = true →
      i.resources.outputMint ∈ openMints s
  | .applyPositionAuthority _ => i.side = .sell → i.resources.inputMint ∉ mintsOf scalingIn s
  | _ => True

def Good (K : Nat) (s : Engine) : Label TradeIntent World WalletEvent → Prop
  | .spawn _ => True
  | .env e => GoodEvent K s e
  | .run t _ => ∀ x ∈ s.standing t, GoodAct K s x.1 x.2.1 x.2.2

section Decidable

variable (K : Nat) (s : Engine)

instance (pa : PositionAuthority) (P S : Finset Mint) (nowSecs : Nat) :
    ∀ kind, Decidable (GoodSnapshot K pa P S kind nowSecs)
  | .walletBalanceSnapshot mint balanceRaw =>
      inferInstanceAs (Decidable (isSolOrWsolMint mint = true ∨ if balanceRaw = 0 then mint ∉ S
        else mint ∈ pa.openMints ∪ P ∨ (pa.openMints ∪ P).card < K))
  | .walletSnapshotComplete mints =>
      inferInstanceAs (Decidable (∀ mint ∈ S, mint ∈ mints ∨ (pa.byMint.lookup mint).all (fun p =>
        !PositionAuthority.ghostEligibleAfterSnapshotComplete p nowSecs) = true))
  | .buyConfirmed .. => .isTrue trivial
  | .sellConfirmed .. => .isTrue trivial

instance : ∀ e, Decidable (GoodEvent K s e)
  | .position kind nowSecs =>
      inferInstanceAs (Decidable (GoodSnapshot K _ (pending s) _ kind nowSecs))
  | .ledger _ => .isTrue trivial
  | .killSwitch _ => .isTrue trivial

instance (i : TradeIntent) (g : Stage) (a : Act) : Decidable (GoodAct K s i g a) := by
  cases a <;> unfold GoodAct <;> infer_instance

instance : ∀ l, Decidable (Good K s l)
  | .spawn _ => .isTrue trivial
  | .env e => inferInstanceAs (Decidable (GoodEvent K s e))
  | .run t _ => inferInstanceAs (Decidable (∀ x ∈ s.standing t, GoodAct K s x.1 x.2.1 x.2.2))

end Decidable

/-! ## 3. Single steps -/

section Steps

variable {config : ExecutionConfig} {i : TradeIntent} {g : Stage} {a : Act}

theorem mayApply_of_recorded {ph : Phase} {ok : Bool} (h : (ph.recorded ok).mayApply = true) :
    ph.mayApply = true := by
  cases ph with
  | reporting outcome fills slot =>
      cases ok with
      | true => exact h
      | false => cases h
  | gating => rfl
  | lossStop => cases h
  | _ => exact h

theorem mayApply_of_got {ph : Phase} {got : List ResourceId} (h : ph.got = some got) :
    ph.mayApply = true := by
  cases ph with
  | gating => rfl
  | locking got => rfl
  | _ => cases h

/-- No action takes a task back to where a fill may still be applied. -/
theorem mayApply_of_next {r : Answer a} (h : Allows i g a)
    (hnext : (g.phase.next config a r).mayApply = true) : g.phase.mayApply = true := by
  cases a with
  | tryLockResource holder pool ttl =>
      obtain ⟨got, hgot⟩ := Option.ne_none_iff_exists'.mp h.2.2.2
      exact mayApply_of_got hgot
  | tryLockCapital holder sol tokens ttl =>
      obtain ⟨_, _, got, hgot, _⟩ := h
      exact mayApply_of_got hgot
  | submit j bundle =>
      rw [h.1]
      rfl
  | confirm j bundle =>
      have hph : g.phase = .marked := h
      rw [hph]
      rfl
  | computeIntentFills j =>
      obtain ⟨fills, slot, hph⟩ := h
      rw [hph]
      rfl
  | applyPositionAuthority exec =>
      obtain ⟨_, fills, slot, hph, _⟩ := h
      rw [hph]
      rfl
  | markProcessed id =>
      rcases h.2 with hph | hph | hph
      · rw [hph] at hnext
        cases hnext
      · rw [hph]
        rfl
      · rw [hph]
        rfl
  | getDailyLossLamports =>
      rw [h.1]
      rfl
  | writeDecision decision => exact mayApply_of_recorded hnext
  | publishDecision decision => exact mayApply_of_recorded hnext
  | writeExecution exec => exact mayApply_of_recorded hnext
  | publishExecution exec => exact mayApply_of_recorded hnext
  | releaseCapital id restoreTokens => cases hnext
  | _ =>
      cases hph : g.phase with
      | booking fills slot done =>
          rw [hph] at hnext
          cases hnext
      | freed =>
          rw [hph] at hnext
          cases hnext
      | _ =>
          rw [hph] at hnext
          exact hnext

/-- A BUY on its way was on its way before, or has just been admitted. -/
theorem buying_next {p q : Pipeline Exit} {r : Answer a} (h : Allows i g a)
    (hb : buying ⟨i, p, g.next config i a r⟩ = true) :
    buying ⟨i, q, g⟩ = true ∨
      (i.side = .buy ∧ g.phase = .gating ∧ admits config i a r = true) := by
  simp only [buying, Bool.and_eq_true, decide_eq_true_eq] at hb ⊢
  obtain ⟨⟨hside, hadm⟩, hmay⟩ := hb
  rcases Bool.or_eq_true_iff.mp hadm with hold | hnew
  · exact .inl ⟨⟨hside, hold⟩, mayApply_of_next h hmay⟩
  · obtain ⟨hgating, hadmits⟩ := Bool.and_eq_true_iff.mp hnew
    refine .inr ⟨hside, ?_, hadmits⟩
    cases hph : g.phase with
    | gating => rfl
    | _ =>
        rw [hph] at hgating
        cases hgating

/-- Only the two reads of the open-position gate admit. -/
theorem admits_cases {r : Answer a} (h : admits config i a r = true) :
    a = .openPositionsCount ∨ ∃ mint, a = .availableTokenBalance mint := by
  cases a with
  | openPositionsCount => exact .inl rfl
  | availableTokenBalance mint => exact .inr ⟨mint, rfl⟩
  | _ => cases h

/-- Whoever skips the gate is admitted. -/
theorem admits_of_skips {r : Answer a} (h : skips i a r = true) : admits config i a r = true := by
  cases a with
  | availableTokenBalance mint => exact h
  | _ => cases h

end Steps

/-! ### What a confirmed execution opens and closes -/

section Applied

variable {i : TradeIntent}

theorem tryFrom_buy {fills : Option ComputedIntentFills} (hside : i.side = .buy) :
    PositionEvent.tryFromExecutionResult (ProcessIntent.finalExecution i .confirmed fills) =
      if isSolOrWsolMint i.resources.outputMint then none
      else (fills.bind fun f => f.fillOut).map (.buyConfirmed i.resources.outputMint) := by
  have hmint := i.tradedMint_buy hside
  simp [PositionEvent.tryFromExecutionResult, ProcessIntent.finalExecution,
    ProcessIntent.plainExecution, ProcessIntent.statusOf, ProcessIntent.tokenMint,
    ProcessIntent.sideText, hside, hmint]

theorem tryFrom_sell {fills : Option ComputedIntentFills} (hside : i.side = .sell) :
    PositionEvent.tryFromExecutionResult (ProcessIntent.finalExecution i .confirmed fills) =
      if isSolOrWsolMint i.resources.inputMint then none
      else (fills.bind fun f => f.fillIn).map (.sellConfirmed i.resources.inputMint) := by
  have hmint := i.tradedMint_sell hside
  simp [PositionEvent.tryFromExecutionResult, ProcessIntent.finalExecution,
    ProcessIntent.plainExecution, ProcessIntent.statusOf, ProcessIntent.tokenMint,
    ProcessIntent.sideText, hside, hmint]

/-- A confirmed BUY opens at most its mint and closes nothing. -/
theorem openMints_applied_buy (fills : Option ComputedIntentFills) (pa : PositionAuthority)
    (now : Nat) (hside : i.side = .buy) :
    (pa.applyFromConfirmedExecutionResult (ProcessIntent.finalExecution i .confirmed fills)
      now).openMints ⊆ insert i.resources.outputMint pa.openMints ∧
    pa.openMints ⊆ (pa.applyFromConfirmedExecutionResult
      (ProcessIntent.finalExecution i .confirmed fills) now).openMints := by
  unfold PositionAuthority.applyFromConfirmedExecutionResult
  rw [tryFrom_buy hside]
  split
  · next ev hev =>
      split at hev
      · cases hev
      · obtain ⟨f, _, rfl⟩ := Option.map_eq_some_iff.mp hev
        exact ⟨pa.openMints_buy _ f now, pa.openMints_subset_buy _ f now⟩
  · exact ⟨Finset.subset_insert _ _, Finset.Subset.refl _⟩

/-- A confirmed SELL opens nothing and closes at most its mint. -/
theorem openMints_applied_sell (fills : Option ComputedIntentFills) (pa : PositionAuthority)
    (now : Nat) (hside : i.side = .sell) :
    (pa.applyFromConfirmedExecutionResult (ProcessIntent.finalExecution i .confirmed fills)
      now).openMints ⊆ pa.openMints ∧
    ∀ mint ∈ pa.openMints, mint ≠ i.resources.inputMint →
      mint ∈ (pa.applyFromConfirmedExecutionResult
        (ProcessIntent.finalExecution i .confirmed fills) now).openMints := by
  unfold PositionAuthority.applyFromConfirmedExecutionResult
  rw [tryFrom_sell hside]
  split
  · next ev hev =>
      split at hev
      · cases hev
      · obtain ⟨f, _, rfl⟩ := Option.map_eq_some_iff.mp hev
        exact ⟨pa.openMints_sell _ f now,
          fun mint h hne => PositionAuthority.mem_openMints_sell_ne hne h⟩
  · exact ⟨Finset.Subset.refl _, fun mint h _ => h⟩

end Applied

/-! ### What a wallet event opens and closes -/

section Snapshot

variable {K : Nat} {pa : PositionAuthority} {pending scaledInto : Finset Mint}
  {kind : PositionEvent} {nowSecs : Nat}

theorem GoodSnapshot.room (h : GoodSnapshot K pa pending scaledInto kind nowSecs)
    (hroom : (pa.openMints ∪ pending).card ≤ K) :
    ((pa.applyFromWalletMarketEventKind kind nowSecs).openMints ∪ pending).card ≤ K := by
  cases kind with
  | buyConfirmed mint fillRaw => exact hroom
  | sellConfirmed mint soldRaw => exact hroom
  | walletSnapshotComplete mints =>
      have hsub := pa.openMints_walletSnapshotComplete mints nowSecs
      exact le_trans (Finset.card_le_card (Finset.union_subset_union_left hsub)) hroom
  | walletBalanceSnapshot mint balanceRaw =>
      show ((if isSolOrWsolMint mint then pa else _).openMints ∪ pending).card ≤ K
      split
      · exact hroom
      · next hsol =>
          have hcond := Or.resolve_left h hsol
          have hopens : ∀ m ∈ (pa.applyWalletSnapshot mint balanceRaw).openMints,
              (m = mint ∧ balanceRaw ≠ 0) ∨ m ∈ pa.openMints :=
            fun m hm => pa.openMints_walletSnapshot mint balanceRaw hm
          by_cases h0 : balanceRaw = 0
          · refine le_trans (Finset.card_le_card (Finset.union_subset_union_left ?_)) hroom
            exact fun m hm => (hopens m hm).resolve_left fun hc => hc.2 h0
          · rw [if_neg h0] at hcond
            have hsub : (pa.applyWalletSnapshot mint balanceRaw).openMints ∪ pending ⊆
                insert mint (pa.openMints ∪ pending) := by
              intro m hm
              rcases Finset.mem_union.mp hm with hm | hm
              · rcases hopens m hm with ⟨rfl, _⟩ | hm
                · exact Finset.mem_insert_self _ _
                · exact Finset.mem_insert_of_mem (Finset.mem_union_left _ hm)
              · exact Finset.mem_insert_of_mem (Finset.mem_union_right _ hm)
            refine le_trans (Finset.card_le_card hsub) ?_
            rcases hcond with hin | hlt
            · rw [Finset.insert_eq_of_mem hin]
              exact hroom
            · exact le_trans (Finset.card_insert_le _ _) hlt

theorem GoodSnapshot.keeps (h : GoodSnapshot K pa pending scaledInto kind nowSecs) (mint : Mint)
    (hm : mint ∈ scaledInto) (hopen : mint ∈ pa.openMints) :
    mint ∈ (pa.applyFromWalletMarketEventKind kind nowSecs).openMints := by
  cases kind with
  | buyConfirmed mint' fillRaw => exact hopen
  | sellConfirmed mint' soldRaw => exact hopen
  | walletSnapshotComplete mints =>
      refine PositionAuthority.mem_openMints_walletSnapshotComplete ?_ hopen
      rcases h mint hm with hin | hgrace
      · exact .inl hin
      · refine .inr fun p hp => ?_
        rw [hp] at hgrace
        simpa using hgrace
  | walletBalanceSnapshot mint' balanceRaw =>
      show mint ∈ (if isSolOrWsolMint mint' then pa else _).openMints
      split
      · exact hopen
      · next hsol =>
          have hcond := Or.resolve_left h hsol
          refine PositionAuthority.mem_openMints_walletSnapshot ?_ hopen
          by_cases h0 : balanceRaw = 0
          · rw [if_pos h0] at hcond
            exact .inl fun heq => hcond (heq ▸ hm)
          · exact .inr h0

end Snapshot

/-! ## 4. The invariant -/

/-- The mints that are open or being bought fit the limit, and what is scaled into is open. -/
structure Inv (K : Nat) (s : Engine) : Prop where
  room : (openMints s ∪ pending s).card ≤ K
  scaleIn : mintsOf scalingIn s ⊆ openMints s
  admitted : ∀ (t : Nat) (task : IntentTask), s.tasks[t]? = some task →
    task.stage.skipped = true → task.stage.admitted = true

section Invariant

variable {setup : EngineSetup} {config : ExecutionConfig} {K : Nat} {s : Engine}

theorem mintsOf_idle (p : IntentTask → Bool) (c : ExecutionContext) :
    mintsOf p (Engine.idle c) = ∅ := rfl

theorem inv_idle {c : ExecutionContext} (h : c.positionAuthority.openPositionsCount ≤ K) :
    Inv K (Engine.idle c) where
  room := by
    rw [PositionAuthority.openPositionsCount_eq] at h
    show (c.positionAuthority.openMints ∪ mintsOf buying (Engine.idle c)).card ≤ K
    rw [mintsOf_idle, Finset.union_empty]
    exact h
  scaleIn := Finset.empty_subset _
  admitted t task h := by simp [Engine.idle] at h

/-- A new task is not on its way to a fill. -/
theorem mintsOf_spawn {p : IntentTask → Bool} {i : TradeIntent}
    (hp : ∀ q, p ⟨i, q, Stage.start⟩ = false) :
    mintsOf p ((engine setup config applyWalletEvent).step s (.spawn i)) ⊆ mintsOf p s := by
  intro mint h
  obtain ⟨t, task, htask, hpt, hm⟩ := mem_mintsOf.mp h
  rcases Setting.getElem?_spawn htask with hold | ⟨_, rfl⟩
  · exact mem_mintsOf.mpr ⟨t, task, hold, hpt, hm⟩
  · have hfalse := hp (processIntent setup config i)
    have htrue : p ⟨i, processIntent setup config i, Stage.start⟩ = true := hpt
    rw [hfalse] at htrue
    cases htrue

theorem inv_spawn {i : TradeIntent} (h : Inv K s) :
    Inv K ((engine setup config applyWalletEvent).step s (.spawn i)) where
  room := by
    refine le_trans (Finset.card_le_card (Finset.union_subset_union_right ?_)) h.room
    exact mintsOf_spawn fun q => by simp [buying, Stage.start]
  scaleIn := by
    refine Finset.Subset.trans (mintsOf_spawn fun q => ?_) h.scaleIn
    simp [scalingIn, Stage.start]
  admitted t task htask hsk := by
    rcases Setting.getElem?_spawn htask with hold | ⟨_, rfl⟩
    · exact h.admitted t task hold hsk
    · cases hsk

/-- The position authority changes, the tasks stay: what may be opened, and what must stay
    open. -/
theorem Inv.setAuthority {s' : Engine} (h : Inv K s) (htasks : s'.tasks = s.tasks)
    (hroom : (openMints s' ∪ pending s).card ≤ K)
    (hkeep : ∀ mint ∈ mintsOf scalingIn s, mint ∈ openMints s → mint ∈ openMints s') :
    Inv K s' := by
  have hmints : ∀ p, mintsOf p s' = mintsOf p s := fun p => by
    unfold mintsOf
    rw [htasks]
  refine ⟨?_, ?_, ?_⟩
  · show (openMints s' ∪ mintsOf buying s').card ≤ K
    rw [hmints]
    exact hroom
  · rw [hmints]
    exact fun mint hm => hkeep mint hm (h.scaleIn hm)
  · rw [htasks]
    exact h.admitted

theorem inv_position {kind : PositionEvent} {nowSecs : Nat} (h : Inv K s)
    (hgood : GoodEvent K s (.position kind nowSecs)) :
    Inv K ((engine setup config applyWalletEvent).step s (.env (.position kind nowSecs))) :=
  h.setAuthority rfl (hgood.room h.room) fun mint hm hopen => hgood.keeps mint hm hopen

theorem inv_env {e : WalletEvent} (h : Inv K s) (hgood : GoodEvent K s e) :
    Inv K ((engine setup config applyWalletEvent).step s (.env e)) := by
  cases e with
  | position kind nowSecs => exact inv_position h hgood
  | ledger m => exact ⟨h.room, h.scaleIn, h.admitted⟩
  | killSwitch active => exact ⟨h.room, h.scaleIn, h.admitted⟩

section Act

variable {t : Nat} {w : World} {i : TradeIntent} {g : Stage} {a : Act}
  {k : Answer a → Pipeline Exit}

/-- The mints of a kind of tasks, after an action. -/
theorem mintsOf_acted {p : IntentTask → Bool} {mint : Mint}
    (h : mint ∈ mintsOf p ((engine setup config applyWalletEvent).acted s t w i g a k)) :
    mint ∈ mintsOf p s ∨ (mint = i.resources.outputMint ∧
      p ⟨i, k (s.ctx.answer w a), g.next config i a (s.ctx.answer w a)⟩ = true) := by
  obtain ⟨t', task, htask, hp, hm⟩ := mem_mintsOf.mp h
  rcases Setting.getElem?_acted htask with ⟨_, rfl⟩ | ⟨_, hold⟩
  · exact .inr ⟨hm.symm, hp⟩
  · exact .inl (mem_mintsOf.mpr ⟨t', task, hold, hp, hm⟩)

theorem pending_acted (ht : s.tasks[t]? = some ⟨i, .act a k, g⟩) (ha : Allows i g a) {mint : Mint}
    (h : mint ∈ pending ((engine setup config applyWalletEvent).acted s t w i g a k)) :
    mint ∈ pending s ∨ (mint = i.resources.outputMint ∧ i.side = .buy ∧ g.phase = .gating ∧
      admits config i a (s.ctx.answer w a) = true) := by
  rcases mintsOf_acted h with hold | ⟨rfl, hb⟩
  · exact .inl hold
  · rcases buying_next (q := .act a k) ha hb with hold | hnew
    · exact .inl (mem_mintsOf.mpr ⟨t, _, ht, hold, rfl⟩)
    · exact .inr ⟨rfl, hnew⟩

theorem scaling_acted (ht : s.tasks[t]? = some ⟨i, .act a k, g⟩) (ha : Allows i g a)
    (hinv : Inv K s) {mint : Mint} (h : mint ∈ mintsOf scalingIn
      ((engine setup config applyWalletEvent).acted s t w i g a k)) :
    mint ∈ mintsOf scalingIn s ∨ (mint = i.resources.outputMint ∧ i.side = .buy ∧
      g.phase.isGating = true ∧ skips i a (s.ctx.answer w a) = true) := by
  rcases mintsOf_acted h with hold | ⟨rfl, hb⟩
  · exact .inl hold
  · simp only [scalingIn, buying, Bool.and_eq_true, decide_eq_true_eq] at hb
    obtain ⟨⟨⟨hside, _⟩, hmay⟩, hskip⟩ := hb
    rcases Bool.or_eq_true_iff.mp hskip with hold | hnew
    · refine .inl (mem_mintsOf.mpr ⟨t, _, ht, ?_, rfl⟩)
      simp only [scalingIn, buying, Bool.and_eq_true, decide_eq_true_eq]
      exact ⟨⟨⟨hside, hinv.admitted t _ ht hold⟩, mayApply_of_next ha hmay⟩, hold⟩
    · exact .inr ⟨rfl, hside, Bool.and_eq_true_iff.mp hnew⟩

theorem admitted_acted (ht : s.tasks[t]? = some ⟨i, .act a k, g⟩) (hinv : Inv K s) (t' : Nat)
    (task : IntentTask) (htask : ((engine setup config applyWalletEvent).acted s t w i g a
      k).tasks[t']? = some task) (hsk : task.stage.skipped = true) :
    task.stage.admitted = true := by
  rcases Setting.getElem?_acted htask with ⟨_, rfl⟩ | ⟨_, hold⟩
  · refine Bool.or_eq_true_iff.mpr ?_
    rcases Bool.or_eq_true_iff.mp hsk with hold | hnew
    · exact .inl (hinv.admitted t _ ht hold)
    · obtain ⟨hg, hskips⟩ := Bool.and_eq_true_iff.mp hnew
      exact .inr (Bool.and_eq_true_iff.mpr ⟨hg, admits_of_skips hskips⟩)
  · exact hinv.admitted t' task hold hsk

/-- **An admission by the count leaves room**: the gate saw one free place, and the others on
    their way have theirs. -/
theorem card_admitted {mint : Mint} (hcount : (openMints s).card < K)
    (hroom : newMints s mint = ∅ ∨ (openMints s).card + (newMints s mint).card < K) :
    (insert mint (openMints s ∪ pending s)).card ≤ K := by
  have hsub : insert mint (openMints s ∪ pending s) ⊆
      insert mint (openMints s ∪ newMints s mint) := by
    intro m hm
    by_cases hin : m ∈ insert mint (openMints s)
    · exact Finset.insert_subset_insert _ Finset.subset_union_left hin
    · simp only [Finset.mem_insert, not_or] at hin
      simp only [Finset.mem_insert, Finset.mem_union, hin.1, hin.2, false_or] at hm
      refine Finset.mem_insert_of_mem (Finset.mem_union_right _ ?_)
      exact Finset.mem_sdiff.mpr ⟨hm, by simp [hin.1, hin.2]⟩
  have hcard := Finset.card_le_card hsub
  have hins := Finset.card_insert_le mint (openMints s ∪ newMints s mint)
  have hunion := Finset.card_union_le (openMints s) (newMints s mint)
  rcases hroom with hempty | hlt
  · rw [hempty, Finset.card_empty] at hunion
    rw [hempty] at hcard hins
    omega
  · omega

/-- What the count gate has seen. -/
theorem count_lt_of_admits
    (h : admits config i .openPositionsCount s.ctx.positionAuthority.openPositionsCount = true) :
    (openMints s).card < config.maxOpenPositions := by
  rw [← PositionAuthority.openPositionsCount_eq]
  have hmax : max i.currentOpenPositions s.ctx.positionAuthority.openPositionsCount <
      config.maxOpenPositions := of_decide_eq_true h
  omega

/-- An action that is no confirmed fill: the authority stays, at most one mint is added to those
    being bought. -/
theorem inv_kept (ht : s.tasks[t]? = some ⟨i, .act a k, g⟩) (ha : Allows i g a)
    (hne : ∀ exec, a ≠ .applyPositionAuthority exec) (h : Inv config.maxOpenPositions s)
    (hgood : GoodAct config.maxOpenPositions s i g a) :
    Inv config.maxOpenPositions
      ((engine setup config applyWalletEvent).acted s t w i g a k) := by
  have hpa : openMints ((engine setup config applyWalletEvent).acted s t w i g a k) =
      openMints s :=
    congrArg PositionAuthority.openMints (s.ctx.positionAuthority_after w hne)
  have hin : i.side = .buy → g.phase.isGating = true → skips i a (s.ctx.answer w a) = true →
      i.resources.outputMint ∈ openMints s := by
    intro hside hph hskips
    cases a with
    | availableTokenBalance mint => exact hgood ⟨hside, hph, hskips⟩
    | _ => cases hskips
  refine ⟨?_, fun mint hm => ?_, admitted_acted ht h⟩
  · rw [hpa]
    by_cases hadmit : i.side = .buy ∧ g.phase = .gating ∧
        admits config i a (s.ctx.answer w a) = true
    · have hcard : (insert i.resources.outputMint (openMints s ∪ pending s)).card ≤
          config.maxOpenPositions := by
        obtain ⟨hside, hph, hadm⟩ := hadmit
        rcases admits_cases hadm with rfl | ⟨mint, rfl⟩
        · exact card_admitted (count_lt_of_admits hadm) (hgood hside)
        · rw [Finset.insert_eq_of_mem (Finset.mem_union_left _ (hin hside (by rw [hph]; rfl) hadm))]
          exact h.room
      refine le_trans (Finset.card_le_card fun mint hm => ?_) hcard
      rcases Finset.mem_union.mp hm with hm | hm
      · exact Finset.mem_insert_of_mem (Finset.mem_union_left _ hm)
      · rcases pending_acted ht ha hm with hold | ⟨rfl, _⟩
        · exact Finset.mem_insert_of_mem (Finset.mem_union_right _ hold)
        · exact Finset.mem_insert_self _ _
    · refine le_trans (Finset.card_le_card (Finset.union_subset_union_right fun mint hm => ?_))
        h.room
      rcases pending_acted ht ha hm with hold | ⟨_, hnew⟩
      · exact hold
      · exact absurd hnew hadmit
  · rw [hpa]
    rcases scaling_acted ht ha h hm with hold | ⟨rfl, hside, hph, hskips⟩
    · exact h.scaleIn hold
    · exact hin hside hph hskips

/-- **A confirmed fill moves a mint from "being bought" to "open".** -/
theorem inv_applied {exec : ExecutionResult}
    {k : Answer (.applyPositionAuthority exec) → Pipeline Exit}
    (ht : s.tasks[t]? = some ⟨i, .act (.applyPositionAuthority exec) k, g⟩)
    (ha : Allows i g (.applyPositionAuthority exec)) (h : Inv K s)
    (hgood : GoodAct K s i g (.applyPositionAuthority exec)) :
    Inv K ((engine setup config applyWalletEvent).acted s t w i g (.applyPositionAuthority exec)
      k) := by
  obtain ⟨hcleared, fills, slot, hph, rfl⟩ := ha
  have hallows : Allows i g
      (.applyPositionAuthority (ProcessIntent.finalExecution i .confirmed fills)) :=
    ⟨hcleared, fills, slot, hph, rfl⟩
  have hpending : pending ((engine setup config applyWalletEvent).acted s t w i g _ k) ⊆
      pending s := by
    intro mint hm
    rcases pending_acted ht hallows hm with hold | ⟨_, _, _, hadm⟩
    · exact hold
    · cases hadm
  have hscaling : mintsOf scalingIn ((engine setup config applyWalletEvent).acted s t w i g _ k) ⊆
      mintsOf scalingIn s := by
    intro mint hm
    rcases scaling_acted ht hallows h hm with hold | ⟨_, _, _, hskips⟩
    · exact hold
    · cases hskips
  cases hside : i.side with
  | buy =>
      obtain ⟨hopens, hkeeps⟩ := openMints_applied_buy fills s.ctx.positionAuthority
        (w.unixMs / 1000) hside
      have hbuying : i.resources.outputMint ∈ pending s := by
        refine mem_mintsOf.mpr ⟨t, _, ht, ?_, rfl⟩
        simp [buying, hside, (hcleared hside).1, hph, Phase.mayApply]
      refine ⟨le_trans (Finset.card_le_card ?_) h.room, ?_, admitted_acted ht h⟩
      · intro mint hm
        rcases Finset.mem_union.mp hm with hm | hm
        · rcases Finset.mem_insert.mp (hopens hm) with rfl | hm
          · exact Finset.mem_union_right _ hbuying
          · exact Finset.mem_union_left _ hm
        · exact Finset.mem_union_right _ (hpending hm)
      · exact fun mint hm => hkeeps (h.scaleIn (hscaling hm))
  | sell =>
      obtain ⟨hopens, hkeeps⟩ := openMints_applied_sell fills s.ctx.positionAuthority
        (w.unixMs / 1000) hside
      refine ⟨le_trans (Finset.card_le_card ?_) h.room, ?_, admitted_acted ht h⟩
      · exact Finset.union_subset_union hopens hpending
      · intro mint hm
        refine hkeeps mint (h.scaleIn (hscaling hm)) ?_
        rintro rfl
        exact hgood hside (hscaling hm)

theorem inv_acted (ht : s.tasks[t]? = some ⟨i, .act a k, g⟩) (ha : Allows i g a)
    (h : Inv config.maxOpenPositions s) (hgood : Good config.maxOpenPositions s (.run t w)) :
    Inv config.maxOpenPositions
      ((engine setup config applyWalletEvent).acted s t w i g a k) := by
  have hact := hgood _ (Engine.standing_eq ht)
  by_cases happly : ∃ exec, a = .applyPositionAuthority exec
  · obtain ⟨exec, rfl⟩ := happly
    exact inv_applied ht ha h hact
  · exact inv_kept ht ha (fun exec he => happly ⟨exec, he⟩) h hact

end Act

/-! ## 5. Runs -/

/-- What the limit promises. -/
structure Limit (K : Nat) (s : Engine) : Prop where
  count : s.ctx.positionAuthority.openPositionsCount ≤ K
  /-- When the fill of a BUY that skipped the gate is about to be applied, its mint is open. -/
  scaleIn : ∀ (t : Nat) (task : IntentTask), s.tasks[t]? = some task → task.arg.side = .buy →
    task.stage.skipped = true →
    (∃ computed slot, task.stage.phase = .reporting .confirmed computed slot) →
    task.arg.resources.outputMint ∈ openMints s

theorem Inv.limit (h : Inv K s) : Limit K s where
  count := by
    rw [PositionAuthority.openPositionsCount_eq]
    exact le_trans (Finset.card_le_card Finset.subset_union_left) h.room
  scaleIn t task ht hside hsk hph := by
    obtain ⟨computed, slot, hph⟩ := hph
    refine h.scaleIn (mem_mintsOf.mpr ⟨t, task, ht, ?_, rfl⟩)
    simp [scalingIn, buying, hside, hsk, h.admitted t task ht hsk, hph, Phase.mayApply]

/-- **The open-position limit holds in every state of every run whose steps are good.** -/
theorem open_positions_limit (setup : EngineSetup) (config : ExecutionConfig)
    (c : ExecutionContext) (hc : c.positionAuthority.openPositionsCount ≤ config.maxOpenPositions)
    (l : List (Label TradeIntent World WalletEvent))
    (hgood : Along (engine setup config applyWalletEvent).step (Good config.maxOpenPositions)
      (Engine.idle c) l) :
    Limit config.maxOpenPositions
      (foldSteps (engine setup config applyWalletEvent).step (Engine.idle c) l) := by
  have hinv := engine_invariant (I := Inv config.maxOpenPositions) (fun s i h _ => inv_spawn h)
    (fun s e h hg => inv_env h hg) (fun s t w i g a k ht ha h hg => inv_acted ht ha h hg)
    (inv_idle hc) hgood
  exact hinv.limit

end Invariant

/-- A BUY, a wallet snapshot of what it has bought, and a scale-in into the same mint. -/
def scaleInRun : List (Label TradeIntent World WalletEvent) :=
  .spawn (Small.buy "first" "mint") :: Small.runs 0 27 ++
    .env (.position (.walletBalanceSnapshot "mint" 5) 100) ::
    .spawn { Small.buy "second" "mint" with
      metadata := (∅ : Finmap fun _ : String => String).insert "entry_kind" "scale_in" } ::
    Small.runs 1 26

/-- `open_positions_limit` with one position, and a scale-in. -/
theorem open_positions_limit_scaleIn :
    Limit 1 (foldSteps (engine Small.setup Small.config applyWalletEvent).step
      (Engine.idle Small.context) scaleInRun) :=
  open_positions_limit Small.setup Small.config Small.context (by decide) scaleInRun
    (by decide +kernel)

/-- Two BUYs of two mints: both are past the gate before either is confirmed. -/
def bothAdmitted : List (Label TradeIntent World WalletEvent) :=
  .spawn (Small.buy "first" "mint") :: .spawn (Small.buy "second" "other") ::
    Small.runs 0 6 ++ Small.runs 1 6 ++ Small.runs 0 21 ++ Small.runs 1 21

/-- **TWO BUYS AT ONCE EXCEED THE LIMIT OF ONE**: the gate does not count the BUY that is on its
    way. -/
theorem open_positions_exceeded :
    ¬ ∀ (setup : EngineSetup) (config : ExecutionConfig) (c : ExecutionContext),
      c.positionAuthority.openPositionsCount ≤ config.maxOpenPositions →
      ∀ l : List (Label TradeIntent World WalletEvent), Limit config.maxOpenPositions
        (foldSteps (engine setup config applyWalletEvent).step (Engine.idle c) l) := by
  intro h
  have hlimit := (h Small.setup Small.config Small.context (by decide) bothAdmitted).count
  revert hlimit
  decide +kernel

end OpenPositions

end IronCrab

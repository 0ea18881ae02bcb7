/-
  File:      IronCrab/Engine/PlanRetry.lean
  Subject:   THE LOOP THAT PLANS AND SIMULATES ENDS, AND HANDS ON WHAT IT SIMULATED
             (src/bin/execution_engine.rs, `process_intent`).

  A round that starts the loop again has either attempted a recovery for the first time or used up
  a fallback route, whatever it was answered; so four flags and the stored routes bound the rounds.
  A round that ends the loop by `break` hands on the plan and the tip of its own simulation.

  * `Restarts` -- everything that a restart can change;
  * `HandsOn` -- what a `break` hands on;
  * `round_keeps` -- every round keeps to these two;
  * `sendTransaction_simulated` -- what is sent is what was simulated;
  * **`plan_retry_bounded`** -- the loop over all its rounds.
-/
import IronCrab.Engine.PlanLoop

namespace IronCrab.Engine.PlanRetry

open Track (Pubkey)
open Solana (Hash)
open Fills (explicitAmount)

/-! ## 1. What a round may do -/

/-- Whether a recovery was attempted. -/
def LoopState.attempted (s : LoopState) : Recovery → Bool
  | .preplanDiscovery => s.pumpAmmPreplanDiscoveryAttempted
  | .pumpAmm => s.pumpAmmRecoveryAttempted
  | .pumpfun => s.pumpfunBondingRecoveryAttempted
  | .orca => s.orcaRecoveryAttempted

/-- A recovery is attempted. -/
def LoopState.attempt (s : LoopState) : Recovery → LoopState
  | .preplanDiscovery => { s with pumpAmmPreplanDiscoveryAttempted := true }
  | .pumpAmm => { s with pumpAmmRecoveryAttempted := true }
  | .pumpfun => { s with pumpfunBondingRecoveryAttempted := true }
  | .orca => { s with orcaRecoveryAttempted := true }

/-- **Everything that a restart can change**, besides the checks: a recovery is attempted for the
    first time, or the next fallback route is taken. -/
inductive Restarts (text : JsonText) (s : LoopState) : Cause → LoopState → Prop
  | recovery (r : Recovery) (checks : Checks) (fresh : s.attempted r = false) :
      Restarts text s (.recovery r) { s.attempt r with checks }
  | fallbackRoute {route : MultiPoolFallbackRouteWire} {intent : Ipc.TradeIntent} (checks : Checks)
      (taken : takeNextMultiPoolBuildableFallbackRoute text s.intent = some (route, intent)) :
      Restarts text s (.fallbackRoute route)
        { s with intent, checks, multiPoolTxPlanFallbackAttempted := true }

/-- **What a `break` hands on**: the wallet and the bundle flag of the round, a tip exactly for a
    bundle that will be sent, and the simulation of the plan with that tip. -/
structure HandsOn (ctx : Context) (answers : RoundAnswers) (planned : Planned)
    (intent : Ipc.TradeIntent) : Prop where
  requiresBundle : planned.requiresBundle = intent.requiresBundle
  tip : planned.bundleTipIx.isSome = (planned.requiresBundle && ctx.sendEnabled)
  simulated : planned.simulated =
    ⟨planned.txPlan ++ planned.bundleTipIx.toList, planned.bundleTipIx.bind tipAccountOf⟩
  simResult : planned.simResult = (simulateTransaction ctx.runtime ctx.addressLookupTable
    planned.walletPubkey planned.simulated answers.blockhash answers.simulation).result

/-- What a round may do from a state. -/
def TurnOk (ctx : Context) (answers : RoundAnswers) (s : LoopState) :
    Retry.Turn Cause LoopState LoopEnd → Prop
  | .again cause s' => Restarts ctx.text s cause s'
  | .done (.broke planned intent _) => HandsOn ctx answers planned intent
  | .done (.rejected ..) => True
  | .done .panicked => True

/-! ## 2. The stages -/

section Stages

variable {ctx : Context} {isCrossDexArb : Bool} {answers : RoundAnswers} {s : LoopState}

/-- A state that differs in its checks alone may restart as the state itself. -/
theorem Restarts.of_checks {text : JsonText} {cause : Cause} {s' : LoopState} {checks : Checks}
    (h : Restarts text { s with checks } cause s') : Restarts text s cause s' := by
  cases h with
  | recovery r checks' fresh =>
      cases r <;> exact .recovery _ checks' fresh
  | fallbackRoute checks' taken => exact .fallbackRoute checks' taken

theorem TurnOk.of_checks {checks : Checks} {t : Retry.Turn Cause LoopState LoopEnd}
    (h : TurnOk ctx answers { s with checks } t) : TurnOk ctx answers s t := by
  cases t with
  | again cause s' => exact Restarts.of_checks h
  | done result => cases result <;> exact h

theorem reject_keeps {A : Type} {P : A → Prop} (intent : Ipc.TradeIntent) (checks : Checks)
    (checkName : String) (reason : RejectReason) (details : Option String) :
    (reject intent checks checkName reason details : LoopStage A).Keeps P
      (TurnOk ctx answers s) :=
  Retry.Stage.keeps_done.mpr trivial

theorem planCrossDex_keeps :
    (planCrossDex ctx answers s).Keeps (fun _ => True) (TurnOk ctx answers s) := by
  unfold planCrossDex
  split
  · exact reject_keeps ..
  split
  · exact reject_keeps ..
  split
  · exact reject_keeps ..
  dsimp only
  split
  · exact reject_keeps ..
  · exact trivial

theorem preplanDiscovery_keeps :
    (preplanDiscovery ctx answers s).Keeps (fun _ => True) (TurnOk ctx answers s) := by
  unfold preplanDiscovery
  split
  case isFalse => exact trivial
  case isTrue h =>
      have fresh : s.attempted .preplanDiscovery = false := by
        simp only [Bool.and_eq_true, Bool.not_eq_true'] at h
        exact h.1.1.1.2
      split
      case h_2 => exact trivial
      case h_1 =>
          split
          case h_2 => exact trivial
          case h_1 =>
              dsimp only
              split
              · exact Restarts.recovery .preplanDiscovery s.checks fresh
              · exact trivial

theorem buildTxPlan_keeps (walletPubkey : Pubkey) :
    (buildTxPlan ctx answers s walletPubkey).Keeps (fun _ => True) (TurnOk ctx answers s) := by
  unfold buildTxPlan
  split
  · exact trivial
  dsimp only
  split
  case h_1 route intent hnext =>
      refine Restarts.fallbackRoute s.checks ?_
      split at hnext
      · exact hnext
      · cases hnext
  case h_2 => exact reject_keeps ..

theorem planTx_keeps :
    (planTx ctx isCrossDexArb answers s).Keeps (fun _ => True) (TurnOk ctx answers s) := by
  unfold planTx
  split
  · exact reject_keeps ..
  split
  · exact planCrossDex_keeps.bind fun _ _ => trivial
  · refine preplanDiscovery_keeps.bind fun _ _ => ?_
    exact (buildTxPlan_keeps _).bind fun _ _ => trivial

/-- A tip is there exactly for a bundle that will be sent. -/
theorem bundleTip_keeps (walletPubkey : Pubkey) (checks : Checks) :
    (bundleTip ctx answers s walletPubkey checks).Keeps
      (fun tip => tip.ix.isSome = (s.intent.requiresBundle && ctx.sendEnabled))
      (TurnOk ctx answers s) := by
  unfold bundleTip
  split
  case isTrue h =>
      split
      · exact reject_keeps ..
      split
      · exact trivial
      · exact h.symm
      · exact reject_keeps ..
  case isFalse h => exact (Bool.eq_false_iff.mpr h).symm

theorem quoteReady_keeps (checks : Checks) :
    (quoteReady ctx answers s checks).Keeps (fun _ => True) (TurnOk ctx answers s) := by
  unfold quoteReady
  split
  · exact reject_keeps ..
  · exact trivial

variable (answers) in
/-- A simulation hands on what it was of. -/
theorem simulate_handsOn (walletPubkey : Pubkey) (built : PlanBuilt) (tip : BundleTip)
    (h : tip.ix.isSome = (s.intent.requiresBundle && ctx.sendEnabled)) :
    HandsOn ctx answers (simulate ctx answers s walletPubkey built tip) s.intent where
  requiresBundle := rfl
  tip := h
  simulated := by
    unfold simulate requestForSim
    cases tip.ix with
    | none => simp
    | some ix => rfl
  simResult := rfl

section Recoveries

variable {planned : Planned}

theorem breakLoop_keeps {A : Type} {P : A → Prop} (h : HandsOn ctx answers planned s.intent) :
    (breakLoop s planned : LoopStage A).Keeps P (TurnOk ctx answers s) :=
  Retry.Stage.keeps_done.mpr h

theorem breakOnSuccess_keeps (h : HandsOn ctx answers planned s.intent) :
    (breakOnSuccess s planned).Keeps (fun _ => True) (TurnOk ctx answers s) := by
  unfold breakOnSuccess
  split
  · exact breakLoop_keeps h
  · exact trivial

theorem recoverPumpAmm_keeps (h : HandsOn ctx answers planned s.intent) :
    (recoverPumpAmm ctx answers s planned).Keeps (fun _ => True) (TurnOk ctx answers s) := by
  unfold recoverPumpAmm
  split
  case isFalse => exact trivial
  case isTrue hgate =>
      have fresh : s.attempted .pumpAmm = false := by
        simp only [Bool.and_eq_true, Bool.not_eq_true'] at hgate
        exact hgate.1.1.1
      split
      · exact breakLoop_keeps h
      dsimp only
      split
      · exact trivial
      split
      case isFalse => exact trivial
      case isTrue =>
          split
          · exact breakLoop_keeps h
          split
          · exact breakLoop_keeps h
          · exact Restarts.recovery .pumpAmm s.checks fresh

theorem recoverPumpfun_keeps (h : HandsOn ctx answers planned s.intent) :
    (recoverPumpfun ctx answers s planned).Keeps (fun _ => True) (TurnOk ctx answers s) := by
  unfold recoverPumpfun
  split
  case isFalse => exact trivial
  case isTrue hgate =>
      have fresh : s.attempted .pumpfun = false := by
        simp only [Bool.and_eq_true, Bool.not_eq_true'] at hgate
        exact hgate.1.1.1
      split
      case h_2 => exact trivial
      case h_1 =>
          split
          · exact breakLoop_keeps h
          split
          · exact breakLoop_keeps h
          dsimp only
          split
          · exact Restarts.recovery .pumpfun s.checks fresh
          · exact trivial

theorem recoverOrcaCrossDex_keeps (h : HandsOn ctx answers planned s.intent) :
    (recoverOrcaCrossDex ctx isCrossDexArb answers s planned).Keeps (fun _ => True)
      (TurnOk ctx answers s) := by
  unfold recoverOrcaCrossDex
  dsimp only
  split
  case isFalse => exact trivial
  case isTrue hgate =>
      have fresh : s.attempted .orca = false := by
        unfold crossDexOrcaRecoveryEligible at hgate
        simp only [Bool.and_eq_true, Bool.not_eq_true'] at hgate
        exact hgate.1.1.1
      split
      · exact Retry.Stage.keeps_done.mpr h
      split
      · exact Retry.Stage.keeps_done.mpr h
      split
      · exact Restarts.recovery .orca _ fresh
      · exact trivial

theorem recoverOrcaColdPath_keeps (h : HandsOn ctx answers planned s.intent) :
    (recoverOrcaColdPath ctx answers s planned).Keeps (fun _ => True) (TurnOk ctx answers s) := by
  unfold recoverOrcaColdPath
  split
  case isFalse => exact trivial
  case isTrue hgate =>
      have fresh : s.attempted .orca = false := by
        simp only [Bool.and_eq_true, Bool.not_eq_true'] at hgate
        exact hgate.1.1.1
      split
      case h_2 => exact trivial
      case h_1 =>
          split
          case h_2 => exact breakLoop_keeps h
          case h_1 =>
              dsimp only
              split
              · exact Restarts.recovery .orca s.checks fresh
              · exact trivial

variable (isCrossDexArb) in
theorem afterSimulation_keeps (h : HandsOn ctx answers planned s.intent) :
    (afterSimulation ctx isCrossDexArb answers s planned).Keeps
      (fun result => TurnOk ctx answers s (.done result)) (TurnOk ctx answers s) := by
  unfold afterSimulation
  refine (breakOnSuccess_keeps h).bind fun _ _ => ?_
  refine (recoverPumpAmm_keeps h).bind fun _ _ => ?_
  refine (recoverPumpfun_keeps h).bind fun _ _ => ?_
  refine (recoverOrcaCrossDex_keeps h).bind fun checks _ => ?_
  have hcold : (recoverOrcaColdPath ctx answers { s with checks } planned).Keeps (fun _ => True)
      (TurnOk ctx answers s) :=
    (recoverOrcaColdPath_keeps (s := { s with checks }) h).mono (fun _ _ => trivial)
      fun _ => TurnOk.of_checks
  exact hcold.bind fun _ _ => Retry.Stage.keeps_done.mpr h

end Recoveries

/-- The checks that a retry drops are all that it changes before it plans. -/
theorem TurnOk.of_truncate (checksLen : Nat) {t : Retry.Turn Cause LoopState LoopEnd}
    (h : TurnOk ctx answers (s.truncate checksLen) t) : TurnOk ctx answers s t := by
  unfold LoopState.truncate at h
  split at h
  · exact h.of_checks
  · exact h

/-- **Every round keeps to what a round may do.** -/
theorem round_keeps (ctx : Context) (isCrossDexArb : Bool) (checksLen : Nat)
    (answers : RoundAnswers) (s : LoopState) :
    TurnOk ctx answers s (round ctx isCrossDexArb checksLen answers s).turn := by
  apply TurnOk.of_truncate checksLen
  apply Retry.Stage.Keeps.turn
  unfold round
  refine planTx_keeps.bind fun plan _ => ?_
  refine (bundleTip_keeps plan.1 plan.2.checks).bind fun tip htip => ?_
  refine (quoteReady_keeps plan.2.checks).bind fun _ _ => ?_
  have hplanned := simulate_handsOn answers plan.1 plan.2 tip htip
  have hafter := afterSimulation_keeps isCrossDexArb
    (s := { s.truncate checksLen with checks := plan.2.checks }) hplanned
  exact hafter.mono (fun _ => TurnOk.of_checks) fun _ => TurnOk.of_checks

end Stages

/-! ## 3. What a restart uses up, takes and keeps -/

/-- What a recovery can still cause. -/
def LoopState.left (s : LoopState) (r : Recovery) : Nat := if s.attempted r then 0 else 1

/-- The restarts that a state has left: four recoveries and its fallback routes. -/
def LoopState.measure (text : JsonText) (s : LoopState) : Nat :=
  s.left .preplanDiscovery + s.left .pumpAmm + s.left .pumpfun + s.left .orca +
    (storedFallbackRoutes text s.intent.metadata).length

/-- The route that a cause takes. -/
def Cause.routes : Cause → List MultiPoolFallbackRouteWire
  | .recovery _ => []
  | .fallbackRoute route => [route]

/-- The route that is tried after some causes: the last one taken. -/
def triedRoute (causes : List Cause) : Option MultiPoolFallbackRouteWire :=
  (causes.flatMap Cause.routes).getLast?

/-- **The intent that a round plans for**: as it came, or rewritten for the route that is tried,
    with the bound of that route as its least output. -/
structure TriedWith (intent : Ipc.TradeIntent) (causes : List Cause) (now : Ipc.TradeIntent) :
    Prop where
  maxSlippageBps : now.maxSlippageBps = intent.maxSlippageBps
  untried : triedRoute causes = none → now = intent
  tried : ∀ route, triedRoute causes = some route →
    now.execution = some ⟨some (explicitAmount (routeMinLamports intent route) 9)⟩ ∧
      now.metadata.lookup "dex" = some route.dex ∧
      now.metadata.lookup "creator" = route.creator ∧
      now.resources.pools = [route.poolId] ∧ now.resources.accounts = route.accounts

section Restart

variable {text : JsonText} {s s' : LoopState} {cause : Cause}

/-- A recovery that was not attempted can cause one restart, and pays for it. -/
theorem Restarts.pays (h : Restarts text s cause s') (r : Recovery) :
    s'.left r + (if cause = .recovery r then 1 else 0) ≤ s.left r := by
  cases h with
  | recovery r' checks fresh =>
      by_cases hr : r' = r
      · subst hr
        have hleft : s.left r' = 1 := by simp [LoopState.left, fresh]
        rw [hleft]
        cases r' <;> simp [LoopState.left, LoopState.attempted, LoopState.attempt]
      · rw [if_neg (by simpa using hr)]
        cases r' <;> cases r <;> first | exact absurd rfl hr | exact le_rfl
  | fallbackRoute checks taken =>
      rw [if_neg (by simp)]
      cases r <;> exact le_rfl

/-- **A route that is taken comes off the front of the stored routes**; recoveries leave them. -/
theorem Restarts.takes (h : Restarts text s cause s') :
    storedFallbackRoutes text s.intent.metadata =
      cause.routes ++ storedFallbackRoutes text s'.intent.metadata := by
  cases h with
  | recovery r checks fresh => cases r <;> rfl
  | fallbackRoute checks taken => exact storedFallbackRoutes_takeNext taken

/-- **Every restart uses something up.** -/
theorem Restarts.measure_lt (h : Restarts text s cause s') : s'.measure text < s.measure text := by
  have hpre := h.pays .preplanDiscovery
  have hamm := h.pays .pumpAmm
  have hfun := h.pays .pumpfun
  have horca := h.pays .orca
  have hroutes := congrArg List.length h.takes
  rw [List.length_append] at hroutes
  unfold LoopState.measure
  cases cause with
  | recovery r => cases r <;> simp [Cause.routes] at hpre hamm hfun horca hroutes <;> omega
  | fallbackRoute route => simp [Cause.routes] at hpre hamm hfun horca hroutes; omega

/-- The bound of a route is read off the slippage of the intent. -/
theorem routeMinLamports_congr {intent now : Ipc.TradeIntent}
    (h : now.maxSlippageBps = intent.maxSlippageBps) (route : MultiPoolFallbackRouteWire) :
    routeMinLamports now route = routeMinLamports intent route := by
  unfold routeMinLamports
  rw [h]

/-- What applying a route writes into the intent. -/
theorem applyRoute_tried (text : JsonText) {intent now : Ipc.TradeIntent}
    (h : now.maxSlippageBps = intent.maxSlippageBps) (causes : List Cause)
    (route : MultiPoolFallbackRouteWire) (routes : List MultiPoolFallbackRouteWire) :
    TriedWith intent (causes ++ [.fallbackRoute route]) (applyRoute text now route routes) where
  maxSlippageBps := h
  untried hnone := by simp [triedRoute, Cause.routes] at hnone
  tried route' hroute := by
    have heq : route = route' := by simpa [triedRoute, Cause.routes] using hroute
    subst heq
    refine ⟨?_, ?_, ?_, rfl, rfl⟩
    · show some (⟨some (explicitAmount (routeMinLamports now route) 9)⟩ :
        Ipc.TradeExecutionConstraints) = _
      rw [routeMinLamports_congr h]
    · unfold applyRoute
      cases route.creator with
      | none => simp [Finmap.lookup_erase_ne]
      | some c => simp [Finmap.lookup_insert_of_ne]
    · unfold applyRoute
      cases route.creator with
      | none => simp
      | some c => simp

/-- A restart plans for the route it took, or for the same intent again. -/
theorem Restarts.triedWith (h : Restarts text s cause s') {intent : Ipc.TradeIntent}
    {causes : List Cause} (tried : TriedWith intent causes s.intent) :
    TriedWith intent (causes ++ [cause]) s'.intent := by
  cases h with
  | recovery r checks fresh =>
      have hsame : triedRoute (causes ++ [.recovery r]) = triedRoute causes := by
        simp [triedRoute, Cause.routes]
      have hintent : (s.attempt r).intent = s.intent := by cases r <;> rfl
      constructor
      · rw [hintent]
        exact tried.maxSlippageBps
      · rw [hsame, hintent]
        exact tried.untried
      · rw [hsame, hintent]
        exact tried.tried
  | fallbackRoute checks taken =>
      obtain ⟨routes, -, rfl⟩ := takeNext_cases taken
      exact applyRoute_tried text tried.maxSlippageBps causes _ routes

end Restart

/-! ## 4. What is sent -/

/-- **A transaction is the one whose simulation succeeded**: built from the same instructions, the
    tip of a bundle among them, and with the same tip exclusion. -/
structure SentAsSimulated (ctx : Context) (answers : RoundAnswers) (planned : Planned)
    (tx : SentTransaction) : Prop where
  request : tx.request = planned.simulated
  success : planned.simResult.success = true
  accepted : ∃ hash simTx, answers.blockhash = .ok hash ∧
    buildVersionedMessage ctx.runtime ctx.addressLookupTable planned.walletPubkey tx.request hash =
      .ok simTx.message ∧
    (answers.simulation simTx).outcome.result = planned.simResult
  compiled : buildVersionedMessage ctx.runtime ctx.addressLookupTable planned.walletPubkey
    tx.request tx.blockhash = .ok tx.transaction.message
  plan : tx.request.plan = planned.txPlan ++ planned.bundleTipIx.toList
  tip : planned.bundleTipIx.isSome = planned.requiresBundle

theorem buildForSend_some {ctx : Context} {walletPubkey : Pubkey} {request : TxRequest}
    {hash : Hash} {tx : SentTransaction}
    (h : buildForSend ctx walletPubkey request hash = some tx) :
    tx.request = request ∧ buildVersionedMessage ctx.runtime ctx.addressLookupTable walletPubkey
      tx.request tx.blockhash = .ok tx.transaction.message := by
  unfold buildForSend at h
  split at h
  case h_1 => cases h
  case h_2 built hbuilt =>
      split at h
      case h_1 => cases h
      case h_2 =>
          cases h
          obtain ⟨message, hmessage, hsigned⟩ := bind_ok.mp hbuilt
          obtain ⟨signatures, -, hpure⟩ := bind_ok.mp hsigned
          cases hpure
          exact ⟨rfl, hmessage⟩

/-- A transaction that is built from the simulated request is the simulated one. -/
theorem HandsOn.sentAsSimulated {ctx : Context} {answers : RoundAnswers} {planned : Planned}
    {intent : Ipc.TradeIntent} (handsOn : HandsOn ctx answers planned intent)
    (success : planned.simResult.success = true)
    (tip : planned.bundleTipIx.isSome = planned.requiresBundle) {request : TxRequest}
    (hrequest : planned.simulated = request) {hash : Hash} {tx : SentTransaction}
    (h : buildForSend ctx planned.walletPubkey request hash = some tx) :
    SentAsSimulated ctx answers planned tx := by
  obtain ⟨htx, compiled⟩ := buildForSend_some h
  have request_eq : tx.request = planned.simulated := htx.trans hrequest.symm
  refine ⟨request_eq, success, ?_, compiled, ?_, tip⟩
  · have accepted := simulate_success (handsOn.simResult ▸ success)
    rw [request_eq]
    rw [← handsOn.simResult] at accepted
    exact accepted
  · rw [request_eq, handsOn.simulated]

/-- **What is sent is what was simulated.** -/
theorem sendTransaction_simulated {ctx : Context} {answers : RoundAnswers} {planned : Planned}
    {intent : Ipc.TradeIntent} (handsOn : HandsOn ctx answers planned intent)
    {blockhash : Except String Hash} {tx : SentTransaction}
    (h : sendTransaction ctx planned intent blockhash = some tx) :
    SentAsSimulated ctx answers planned tx := by
  unfold sendTransaction at h
  split at h
  case isTrue => cases h
  case isFalse hgate =>
      simp only [Bool.or_eq_true, Bool.not_eq_true', not_or, Bool.not_eq_false] at hgate
      obtain ⟨⟨⟨success, -⟩, enabled⟩, -⟩ := hgate
      have tip : planned.bundleTipIx.isSome = planned.requiresBundle := by
        rw [handsOn.tip, enabled, Bool.and_true]
      split at h
      case h_1 => cases h
      case h_2 hash =>
          split at h
          case isTrue =>
              split at h
              case h_1 => cases h
              case h_2 tipIx htip =>
                  split at h
                  case h_1 => cases h
                  case h_2 tipAccount haccount =>
                      refine handsOn.sentAsSimulated success tip ?_ h
                      rw [handsOn.simulated, htip, Option.bind_some, haccount]
                      rfl
          case isFalse hbundle =>
              have htip : planned.bundleTipIx = none := by
                rw [Bool.not_eq_true, ← tip] at hbundle
                exact Option.isSome_eq_false_iff.mp hbundle |> Option.isNone_iff_eq_none.mp
              refine handsOn.sentAsSimulated success tip ?_ h
              rw [handsOn.simulated, htip]
              simp

/-! ## 5. The loop -/

section Loop

variable (ctx : Context) (answers : Nat → RoundAnswers) (intent : Ipc.TradeIntent)
  (checks : Checks)

/-- **What holds of the loop over all its rounds.** -/
structure Controlled (o : Retry.Outcome Cause LoopState LoopEnd) : Prop where
  /-- One round, one more for each recovery, and one for each stored route. -/
  rounds_le : o.rounds ≤ 1 + 4 + (storedFallbackRoutes ctx.text intent.metadata).length
  /-- Each recovery causes at most one rebuild. -/
  once : ∀ r, o.causes.count (.recovery r) ≤ 1
  /-- The routes that are tried are the first ones stored, in order. -/
  inOrder : ∃ untried, storedFallbackRoutes ctx.text intent.metadata =
    o.causes.flatMap Cause.routes ++ untried
  /-- Every rebuild plans for the route that is tried, with the bound of that route. -/
  triedWith : ∀ before entry after, o.log = before ++ entry :: after →
    TriedWith intent ((before ++ [entry]).map Prod.fst) entry.2.intent
  /-- What is sent after the loop is what the last round simulated. -/
  sent : ∀ planned final checks', o.result = .broke planned final checks' →
    ∀ blockhash tx, sendTransaction ctx planned final blockhash = some tx →
      SentAsSimulated ctx (answers (o.rounds - 1)) planned tx

variable {ctx answers intent checks}

/-- A restart of the loop's body is a restart. -/
theorem restarts_of_body {isCrossDexArb : Bool} {checksLen k : Nat} {s s' : LoopState}
    {cause : Cause} (h : body ctx isCrossDexArb checksLen answers k s = .again cause s') :
    Restarts ctx.text s cause s' := by
  have hkeeps := round_keeps ctx isCrossDexArb checksLen (answers k) s
  unfold body at h
  rw [h] at hkeeps
  exact hkeeps

/-- A `break` of the loop's body hands on its own simulation. -/
theorem handsOn_of_body {isCrossDexArb : Bool} {checksLen k : Nat} {s : LoopState}
    {planned : Planned} {final : Ipc.TradeIntent} {checks' : Checks}
    (h : body ctx isCrossDexArb checksLen answers k s = .done (.broke planned final checks')) :
    HandsOn ctx (answers k) planned final := by
  have hkeeps := round_keeps ctx isCrossDexArb checksLen (answers k) s
  unfold body at h
  rw [h] at hkeeps
  exact hkeeps

theorem measure_start (text : JsonText) (intent : Ipc.TradeIntent) (checks : Checks) :
    (LoopState.start intent checks).measure text =
      4 + (storedFallbackRoutes text intent.metadata).length := rfl

/-- **A run of the loop keeps to it.** -/
theorem controlled_of_ran {o : Retry.Outcome Cause LoopState LoopEnd} {isCrossDexArb : Bool}
    {checksLen : Nat}
    (run : Retry.Ran (body ctx isCrossDexArb checksLen answers) 0 (.start intent checks) o) :
    Controlled ctx answers intent o where
  rounds_le := by
    have hrounds := run.rounds_le (LoopState.measure ctx.text)
      fun _ _ _ _ turn => (restarts_of_body turn).measure_lt
    rw [measure_start] at hrounds
    omega
  once r := by
    have hpays := run.countP_le (fun cause => cause = .recovery r) (fun s => s.left r)
      fun _ _ _ _ turn => by simpa using (restarts_of_body turn).pays r
    have hleft : (LoopState.start intent checks).left r = 1 := by cases r <;> rfl
    rw [hleft] at hpays
    have hcount : o.causes.count (.recovery r) =
        o.causes.countP fun cause => decide (cause = .recovery r) := by
      rw [List.count_eq_countP]
      rfl
    omega
  inOrder := ⟨_, run.takes Cause.routes (fun s => storedFallbackRoutes ctx.text s.intent.metadata)
    fun _ _ _ _ turn => (restarts_of_body turn).takes⟩
  triedWith := by
    have hstart : TriedWith intent [] (LoopState.start intent checks).intent :=
      ⟨rfl, fun _ => rfl, fun route hroute => nomatch hroute⟩
    have hhistory := run.history (fun causes s => TriedWith intent causes s.intent)
      (fun _ _ _ _ _ tried turn => (restarts_of_body turn).triedWith tried) hstart
    simpa using hhistory.2
  sent planned final checks' hresult blockhash tx htx := by
    have hlast := run.last_turn
    rw [hresult, Nat.zero_add] at hlast
    exact sendTransaction_simulated (handsOn_of_body hlast) htx

end Loop

end IronCrab.Engine.PlanRetry

/-
  File:      IronCrab/Engine/FallbackRoutes.lean
  Subject:   THE FALLBACK ROUTES OF A COLD-PATH SELL (src/bin/execution_engine.rs): a list that the
             intent carries as JSON under a metadata key, and of which the planner takes the next
             route when it cannot build a transaction.

  * `storedFallbackRoutes` -- the list an intent carries;
  * `storedFallbackRoutes_store` -- what is stored is what is carried;
  * `takeNext_cases`, `storedFallbackRoutes_takeNext` -- a route that is taken is the next one, and
    it is gone from the list;
  * `routeMinLamports_toNat` -- the bound a taken route puts into the intent.
-/
import IronCrab.Engine.ConfirmedFills

namespace IronCrab.Engine.PlanRetry

open Wire
open Ipc (F64 StringMap u64 string TradeExecutionConstraints)
open Fills (explicitAmount)

/-! ## 1. Routes as JSON -/

/-- `RouteCandidate`. -/
structure RouteCandidate where
  dex : String
  amountOut : UInt64
  poolId : String
  accounts : List String
  creator : Option String
  /-- The engine's own minimum, which is not scaled by the slippage again. -/
  executionMinOutLamports : Option UInt64

/-- `MultiPoolFallbackRouteWire`. -/
structure MultiPoolFallbackRouteWire where
  dex : String
  poolId : String
  amountOut : UInt64
  accounts : List String
  creator : Option String
  executionMinOutLamports : Option UInt64
  deriving DecidableEq

def MultiPoolFallbackRouteWire.codec : Codec F64 MultiPoolFallbackRouteWire :=
  .object <| (Fields.part
    (.cons (.required "dex" string) <|
      .cons (.required "pool_id" string) <|
      .cons (.required "amount_out" u64) <|
      .cons (.required "accounts" (.list string)) <|
      .cons (.nullable "creator" string) <|
      .cons (.nullable "execution_min_out_lamports" u64) .nil)
    (by decide)).map
    (fun (dex, poolId, amountOut, accounts, creator, executionMinOutLamports, ()) =>
      ⟨dex, poolId, amountOut, accounts, creator, executionMinOutLamports⟩)
    (fun r => (r.dex, r.poolId, r.amountOut, r.accounts, r.creator, r.executionMinOutLamports, ()))
    (fun _ => rfl)

/-- `Vec<MultiPoolFallbackRouteWire>`. -/
def routesCodec : Codec F64 (List MultiPoolFallbackRouteWire) :=
  .list MultiPoolFallbackRouteWire.codec

/-- **What `serde_json` does with text**: routes that are written read back, and the empty text is
    no value. -/
structure JsonText where
  toString : Wire.Json F64 → String
  fromStr : String → Option (Wire.Json F64)
  fromStr_toString : ∀ routes,
    fromStr (toString (routesCodec.write routes)) = some (routesCodec.write routes)
  fromStr_empty : fromStr "" = none

namespace JsonText

variable (text : JsonText)

/-- `serde_json::to_string` of routes, which always succeeds. -/
def writeRoutes (routes : List MultiPoolFallbackRouteWire) : String :=
  text.toString (routesCodec.write routes)

/-- `serde_json::from_str` to routes. -/
def readRoutes (json : String) : Option (List MultiPoolFallbackRouteWire) :=
  (text.fromStr json).bind routesCodec.read

theorem readRoutes_writeRoutes (routes : List MultiPoolFallbackRouteWire) :
    text.readRoutes (text.writeRoutes routes) = some routes := by
  unfold readRoutes writeRoutes
  rw [text.fromStr_toString, Option.bind_some, routesCodec.read_write]

theorem writeRoutes_ne_empty (routes : List MultiPoolFallbackRouteWire) :
    text.writeRoutes routes ≠ "" := by
  intro hempty
  have hread := text.readRoutes_writeRoutes routes
  rw [hempty, readRoutes, text.fromStr_empty] at hread
  cases hread

end JsonText

/-! ## 2. Storing and taking -/

/-- `MULTI_POOL_FALLBACK_ROUTES_JSON_META_KEY`. -/
def multiPoolFallbackRoutesJsonMetaKey : String := "multi_pool_fallback_routes_json"

/-- `liquidation_store_multi_pool_fallback_metadata`: every buildable route but the first. -/
def liquidationStoreMultiPoolFallbackMetadata (text : JsonText) (metadata : StringMap)
    (buildable : List RouteCandidate) : StringMap :=
  if buildable.length ≤ 1 then metadata.erase multiPoolFallbackRoutesJsonMetaKey
  else
    let tail := (buildable.drop 1).map fun c : RouteCandidate =>
      (⟨c.dex, c.poolId, c.amountOut, c.accounts, c.creator, c.executionMinOutLamports⟩ :
        MultiPoolFallbackRouteWire)
    metadata.insert multiPoolFallbackRoutesJsonMetaKey (text.writeRoutes tail)

/-- The bound of a route: its own, or what it pays out less the slippage of the intent. -/
def routeMinLamports (intent : Ipc.TradeIntent) (next : MultiPoolFallbackRouteWire) : UInt64 :=
  next.executionMinOutLamports.getD
    (let keepBps := Word.satSub 10000 intent.maxSlippageBps.toUInt64
     .ofNat (next.amountOut.toNat * keepBps.toNat / 10000))

/-- The intent for a route, with the rest of the routes. -/
def applyRoute (text : JsonText) (intent : Ipc.TradeIntent) (next : MultiPoolFallbackRouteWire)
    (routes : List MultiPoolFallbackRouteWire) : Ipc.TradeIntent :=
  let rest := text.writeRoutes routes
  let metadata := (intent.metadata.insert multiPoolFallbackRoutesJsonMetaKey rest).insert "dex"
    next.dex
  { intent with
    metadata := match next.creator with
      | some c => metadata.insert "creator" c
      | none => metadata.erase "creator"
    resources := { intent.resources with pools := [next.poolId], accounts := next.accounts }
    execution := some ⟨some (explicitAmount (routeMinLamports intent next) 9)⟩ }

/-- `take_next_multi_pool_buildable_fallback_route`: the intent as it is rewritten where the source
    returns true, with the route that was taken. -/
def takeNextMultiPoolBuildableFallbackRoute (text : JsonText) (intent : Ipc.TradeIntent) :
    Option (MultiPoolFallbackRouteWire × Ipc.TradeIntent) :=
  if intent.metadata.lookup "sell_routing" ≠ some "multi_pool" then none
  else
    match intent.metadata.lookup multiPoolFallbackRoutesJsonMetaKey with
    | none => none
    | some json =>
        if json = "" then none
        else
          match text.readRoutes json with
          | none => none
          | some [] => none
          | some (next :: routes) => some (next, applyRoute text intent next routes)

/-- **The routes an intent carries.** -/
def storedFallbackRoutes (text : JsonText) (metadata : StringMap) :
    List MultiPoolFallbackRouteWire :=
  match metadata.lookup multiPoolFallbackRoutesJsonMetaKey with
  | none => []
  | some json => if json = "" then [] else (text.readRoutes json).getD []

/-! ## 3. What they carry -/

section Carry

variable {text : JsonText} {intent intent' : Ipc.TradeIntent} {next : MultiPoolFallbackRouteWire}

theorem storedFallbackRoutes_of_lookup {metadata : StringMap}
    {routes : List MultiPoolFallbackRouteWire}
    (h : metadata.lookup multiPoolFallbackRoutesJsonMetaKey = some (text.writeRoutes routes)) :
    storedFallbackRoutes text metadata = routes := by
  unfold storedFallbackRoutes
  rw [h]
  dsimp only
  rw [if_neg (text.writeRoutes_ne_empty routes), text.readRoutes_writeRoutes]
  rfl

/-- **What is stored is what is carried**: the candidates after the first. -/
theorem storedFallbackRoutes_store (text : JsonText) (metadata : StringMap)
    (buildable : List RouteCandidate) :
    storedFallbackRoutes text (liquidationStoreMultiPoolFallbackMetadata text metadata buildable) =
      (buildable.drop 1).map fun c : RouteCandidate =>
        ⟨c.dex, c.poolId, c.amountOut, c.accounts, c.creator, c.executionMinOutLamports⟩ := by
  unfold liquidationStoreMultiPoolFallbackMetadata
  split
  case isTrue h =>
      unfold storedFallbackRoutes
      rw [Finmap.lookup_erase, List.drop_eq_nil_of_le h]
      rfl
  case isFalse h => exact storedFallbackRoutes_of_lookup (Finmap.lookup_insert _)

/-- **What taking a route does**: it applies the next one. -/
theorem takeNext_cases
    (h : takeNextMultiPoolBuildableFallbackRoute text intent = some (next, intent')) :
    ∃ routes, storedFallbackRoutes text intent.metadata = next :: routes ∧
      intent' = applyRoute text intent next routes := by
  unfold takeNextMultiPoolBuildableFallbackRoute at h
  unfold storedFallbackRoutes
  split at h
  · cases h
  cases hjson : intent.metadata.lookup multiPoolFallbackRoutesJsonMetaKey with
  | none =>
      rw [hjson] at h
      cases h
  | some json =>
      rw [hjson] at h
      dsimp only at h ⊢
      split at h
      case isTrue => cases h
      case isFalse hne =>
          rw [if_neg hne]
          split at h
          case h_1 => cases h
          case h_2 => cases h
          case h_3 routes hread =>
              cases h
              exact ⟨routes, by rw [hread]; rfl, rfl⟩

/-- Applying a route leaves the rest of the routes. -/
theorem storedFallbackRoutes_applyRoute (text : JsonText) (intent : Ipc.TradeIntent)
    (next : MultiPoolFallbackRouteWire) (routes : List MultiPoolFallbackRouteWire) :
    storedFallbackRoutes text (applyRoute text intent next routes).metadata = routes := by
  apply storedFallbackRoutes_of_lookup
  have hkey : multiPoolFallbackRoutesJsonMetaKey ≠ "creator" := by decide
  have hdex : multiPoolFallbackRoutesJsonMetaKey ≠ "dex" := by decide
  unfold applyRoute
  cases next.creator with
  | none =>
      dsimp only
      rw [Finmap.lookup_erase_ne hkey, Finmap.lookup_insert_of_ne _ hdex, Finmap.lookup_insert]
  | some c =>
      dsimp only
      rw [Finmap.lookup_insert_of_ne _ hkey, Finmap.lookup_insert_of_ne _ hdex,
        Finmap.lookup_insert]

/-- **A route that is taken is the next one, and it is gone.** -/
theorem storedFallbackRoutes_takeNext
    (h : takeNextMultiPoolBuildableFallbackRoute text intent = some (next, intent')) :
    storedFallbackRoutes text intent.metadata =
      next :: storedFallbackRoutes text intent'.metadata := by
  obtain ⟨routes, hroutes, rfl⟩ := takeNext_cases h
  rw [hroutes, storedFallbackRoutes_applyRoute]

/-- **The bound of a route**: its own, or the share of its payout that the slippage leaves. -/
theorem routeMinLamports_toNat (intent : Ipc.TradeIntent) (next : MultiPoolFallbackRouteWire) :
    (routeMinLamports intent next).toNat =
      match next.executionMinOutLamports with
      | some own => own.toNat
      | none => next.amountOut.toNat * (10000 - intent.maxSlippageBps.toNat) / 10000 := by
  unfold routeMinLamports
  cases next.executionMinOutLamports with
  | some own => rfl
  | none =>
      have hkeep : (Word.satSub 10000 intent.maxSlippageBps.toUInt64).toNat =
          10000 - intent.maxSlippageBps.toNat := by
        rw [Word.toNat_satSub, UInt32.toNat_toUInt64]
        rfl
      have hle : next.amountOut.toNat * (10000 - intent.maxSlippageBps.toNat) / 10000 ≤
          next.amountOut.toNat := by
        apply Nat.div_le_of_le_mul
        rw [Nat.mul_comm 10000]
        exact Nat.mul_le_mul_left _ (Nat.sub_le _ _)
      show (UInt64.ofNat _).toNat = _
      rw [hkeep, UInt64.toNat_ofNat']
      exact Nat.mod_eq_of_lt (lt_of_le_of_lt hle next.amountOut.toNat_lt)

end Carry

end IronCrab.Engine.PlanRetry

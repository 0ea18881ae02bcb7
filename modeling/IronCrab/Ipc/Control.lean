/-
  File:      IronCrab/Ipc/Control.lean
  Subject:   CONTROL REQUESTS AND RESPONSES ON THE WIRE (src/ipc/schema.rs).
-/
import IronCrab.Ipc.Header

namespace IronCrab.Ipc

open Wire

/-! ## 1. Requests -/

/-- `ControlRequestKind`. -/
inductive ControlRequestKind where
  | killSwitch (active : Bool) (reason : Option String) (liquidatePositions : Bool)
      (maxSlippageBps : Option UInt32) (ttlMs : Option UInt64)
  | resetKillSwitch
  | burnTokenAccounts (ownerPubkey : String) (tokenAccounts : List String) (closeAccounts : Bool)
      (reason : Option String)
  | ensurePumpAmmPoolAccounts (baseMint : String)
  | ensurePumpfunBondingCurve (baseMint : String)
  | ensureOrcaWhirlpoolPoolState (baseMint : String)
  | ensureMeteoraDlmmPoolState (baseMint : String)
  | ensureRaydiumAmmPoolState (baseMint : String)
  | ensureRaydiumCpmmPoolState (baseMint : String)
  | ensureMeteoraCpmmPoolState (baseMint : String)

def ControlRequestKind.variants : Variants F64 ControlRequestKind where
  tag := "kind"
  variants :=
    [.of "kill_switch"
        (.cons (.required "active" bool) <|
          .cons (.optional "reason" string) <|
          .cons (.withDefault "liquidate_positions" bool false) <|
          .cons (.optional "max_slippage_bps" u32) <|
          .cons (.optional "ttl_ms" u64) .nil)
        (by decide)
        (fun (active, reason, liquidatePositions, maxSlippageBps, ttlMs, ()) =>
          .killSwitch active reason liquidatePositions maxSlippageBps ttlMs)
        (fun
          | .killSwitch active reason liquidatePositions maxSlippageBps ttlMs =>
            some (active, reason, liquidatePositions, maxSlippageBps, ttlMs, ())
          | _ => none)
        (fun k p h => by
          split at h <;> cases h
          rfl),
      .of "reset_kill_switch"
        .nil
        (by decide)
        (fun () => .resetKillSwitch)
        (fun
          | .resetKillSwitch => some ()
          | _ => none)
        (fun k p h => by
          split at h <;> cases h
          rfl),
      .of "burn_token_accounts"
        (.cons (.required "owner_pubkey" string) <|
          .cons (.required "token_accounts" (.list string)) <|
          .cons (.withDefault "close_accounts" bool true) <|
          .cons (.optional "reason" string) .nil)
        (by decide)
        (fun (ownerPubkey, tokenAccounts, closeAccounts, reason, ()) =>
          .burnTokenAccounts ownerPubkey tokenAccounts closeAccounts reason)
        (fun
          | .burnTokenAccounts ownerPubkey tokenAccounts closeAccounts reason =>
            some (ownerPubkey, tokenAccounts, closeAccounts, reason, ())
          | _ => none)
        (fun k p h => by
          split at h <;> cases h
          rfl),
      .of "ensure_pump_amm_pool_accounts"
        (.cons (.required "base_mint" string) .nil)
        (by decide)
        (fun (baseMint, ()) =>
          .ensurePumpAmmPoolAccounts baseMint)
        (fun
          | .ensurePumpAmmPoolAccounts baseMint =>
            some (baseMint, ())
          | _ => none)
        (fun k p h => by
          split at h <;> cases h
          rfl),
      .of "ensure_pumpfun_bonding_curve"
        (.cons (.required "base_mint" string) .nil)
        (by decide)
        (fun (baseMint, ()) =>
          .ensurePumpfunBondingCurve baseMint)
        (fun
          | .ensurePumpfunBondingCurve baseMint =>
            some (baseMint, ())
          | _ => none)
        (fun k p h => by
          split at h <;> cases h
          rfl),
      .of "ensure_orca_whirlpool_pool_state"
        (.cons (.required "base_mint" string) .nil)
        (by decide)
        (fun (baseMint, ()) =>
          .ensureOrcaWhirlpoolPoolState baseMint)
        (fun
          | .ensureOrcaWhirlpoolPoolState baseMint =>
            some (baseMint, ())
          | _ => none)
        (fun k p h => by
          split at h <;> cases h
          rfl),
      .of "ensure_meteora_dlmm_pool_state"
        (.cons (.required "base_mint" string) .nil)
        (by decide)
        (fun (baseMint, ()) =>
          .ensureMeteoraDlmmPoolState baseMint)
        (fun
          | .ensureMeteoraDlmmPoolState baseMint =>
            some (baseMint, ())
          | _ => none)
        (fun k p h => by
          split at h <;> cases h
          rfl),
      .of "ensure_raydium_amm_pool_state"
        (.cons (.required "base_mint" string) .nil)
        (by decide)
        (fun (baseMint, ()) =>
          .ensureRaydiumAmmPoolState baseMint)
        (fun
          | .ensureRaydiumAmmPoolState baseMint =>
            some (baseMint, ())
          | _ => none)
        (fun k p h => by
          split at h <;> cases h
          rfl),
      .of "ensure_raydium_cpmm_pool_state"
        (.cons (.required "base_mint" string) .nil)
        (by decide)
        (fun (baseMint, ()) =>
          .ensureRaydiumCpmmPoolState baseMint)
        (fun
          | .ensureRaydiumCpmmPoolState baseMint =>
            some (baseMint, ())
          | _ => none)
        (fun k p h => by
          split at h <;> cases h
          rfl),
      .of "ensure_meteora_cpmm_pool_state"
        (.cons (.required "base_mint" string) .nil)
        (by decide)
        (fun (baseMint, ()) =>
          .ensureMeteoraCpmmPoolState baseMint)
        (fun
          | .ensureMeteoraCpmmPoolState baseMint =>
            some (baseMint, ())
          | _ => none)
        (fun k p h => by
          split at h <;> cases h
          rfl)]
  nodup := by decide
  tag_new := by decide
  complete k := by cases k <;> rfl

/-- `ControlRequest`. -/
structure ControlRequest where
  header : RecordHeader
  requestId : String
  target : String
  poolAddressHint : Option String
  forceRefresh : Bool
  forceRefreshPumpfun : Bool
  forceRefreshOrca : Bool
  forceRefreshMeteoraDlmm : Bool
  forceRefreshRaydiumAmm : Bool
  forceRefreshRaydiumCpmm : Bool
  forceRefreshMeteoraCpmm : Bool
  kind : ControlRequestKind

def ControlRequest.part : Part F64 ControlRequest :=
  (((Fields.part
    (.cons (.required "request_id" string) <|
      .cons (.required "target" string) <|
      .cons (.optional "pool_address_hint" string) <|
      .cons (.withDefault "force_refresh" bool false) <|
      .cons (.withDefault "force_refresh_pumpfun" bool false) <|
      .cons (.skipped "force_refresh_orca" bool false (fun b => !b) (by decide)) <|
      .cons (.skipped "force_refresh_meteora_dlmm" bool false (fun b => !b) (by decide)) <|
      .cons (.skipped "force_refresh_raydium_amm" bool false (fun b => !b) (by decide)) <|
      .cons (.skipped "force_refresh_raydium_cpmm" bool false (fun b => !b) (by decide)) <|
      .cons (.skipped "force_refresh_meteora_cpmm" bool false (fun b => !b) (by decide)) .nil)
    (by decide)).flatten true RecordHeader.part (by decide)).flatten false
      ControlRequestKind.variants.part (by decide)).map
    (fun (((requestId, target, poolAddressHint, forceRefresh, forceRefreshPumpfun,
      forceRefreshOrca, forceRefreshMeteoraDlmm, forceRefreshRaydiumAmm, forceRefreshRaydiumCpmm,
      forceRefreshMeteoraCpmm, ()), header), kind) =>
      ⟨header, requestId, target, poolAddressHint, forceRefresh, forceRefreshPumpfun,
       forceRefreshOrca, forceRefreshMeteoraDlmm, forceRefreshRaydiumAmm, forceRefreshRaydiumCpmm,
       forceRefreshMeteoraCpmm, kind⟩)
    (fun r => (((r.requestId, r.target, r.poolAddressHint, r.forceRefresh, r.forceRefreshPumpfun,
      r.forceRefreshOrca, r.forceRefreshMeteoraDlmm, r.forceRefreshRaydiumAmm,
      r.forceRefreshRaydiumCpmm, r.forceRefreshMeteoraCpmm, ()), r.header), r.kind))
    (fun _ => rfl)

/-! ## 2. Responses -/

/-- `ControlResponseStatus`. -/
inductive ControlResponseStatus where
  | ok | notFound | error | busy
  deriving DecidableEq

def ControlResponseStatus.name : ControlResponseStatus → String
  | .ok => "ok"
  | .notFound => "not_found"
  | .error => "error"
  | .busy => "busy"

def ControlResponseStatus.codec : Codec F64 ControlResponseStatus :=
  unitEnum [.ok, .notFound, .error, .busy]
    name fun a => by cases a <;> rfl

/-- `ControlResponse`. -/
structure ControlResponse where
  header : RecordHeader
  requestId : String
  target : String
  status : ControlResponseStatus
  poolAddress : Option String
  message : Option String

def ControlResponse.part : Part F64 ControlResponse :=
  ((Fields.part
    (.cons (.required "request_id" string) <|
      .cons (.required "target" string) <|
      .cons (.required "status" ControlResponseStatus.codec) <|
      .cons (.optional "pool_address" string) <|
      .cons (.optional "message" string) .nil)
    (by decide)).flatten true RecordHeader.part (by decide)).map
    (fun ((requestId, target, status, poolAddress, message, ()), header) =>
      ⟨header, requestId, target, status, poolAddress, message⟩)
    (fun r => ((r.requestId, r.target, r.status, r.poolAddress, r.message, ()), r.header))
    (fun _ => rfl)

end IronCrab.Ipc

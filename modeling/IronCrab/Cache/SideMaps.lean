/-
  File:      IronCrab/Cache/SideMaps.lean
  Subject:   WHAT IS KNOWN OF A POOL BESIDE ITS ROW (`live_pool_cache.rs`): readiness, the PumpSwap
             sell layout and the DLMM bitmaps, each in a map of its own.

  `PoolSides` holds the entries of these maps under one pool. A message writes them by its
  metadata: most entries are kept where a key is absent, readiness and the layout generation only
  rise, and an AUTHORITATIVE message overwrites. None of these entries has a slot of its own.
-/
import IronCrab.Cache.PoolCacheUpdate

namespace IronCrab.Cache

open Track (Pubkey)

/-! ## 1. The maps -/

/-- The entries of the `pump_amm_sell_*_by_market` maps and of `pump_amm_layout_generation_by_market`
    under one pool. -/
structure PumpAmmSellLayout where
  extendedFlag : Option Bool
  extendedThirdMeta : Option Pubkey
  extendedTail0 : Option Pubkey
  extendedTail1 : Option Pubkey
  extendedFeeTail0 : Option Pubkey
  extendedFeeTail1 : Option Pubkey
  preFeeMeta1 : Option Pubkey
  requiresFeeTail : Option Bool
  requiresPreFeeMetas : Option Bool
  layoutReady : Option Bool
  layoutGeneration : Option Nat
  deriving DecidableEq

/-- The entries of the side maps under one pool. -/
structure PoolSides where
  /-- One map for each DEX: `pool_accounts_readiness_by_market`, `orca_readiness_by_pool`, … -/
  readiness : Dex → Option DexPoolReadiness
  sellLayout : PumpAmmSellLayout
  hasBitmapExtension : Option Bool
  binArrayBitmap : Option (List Nat)
  bitmapExtensionPayload : Option (List Nat)

/-- Nothing is known. -/
def PoolSides.empty : PoolSides :=
  ⟨fun _ => none, ⟨none, none, none, none, none, none, none, none, none, none, none⟩, none, none,
    none⟩

/-! ## 2. What a message writes -/

/-- `m.get(key).and_then(|s| Pubkey::from_str(s).ok()).filter(|pk| *pk != Pubkey::default())`. -/
def PoolCacheUpdate.knownPubkeyAt (u : PoolCacheUpdate) (key : MetadataKey) : Option Pubkey :=
  (u.pubkeyAt key).filter fun pk => decide (pk ≠ Pubkey.default)

/-- An entry that is overwritten where the message carries a value. -/
def overwrite {A : Type} (stored carried : Option A) : Option A := carried.or stored

/-- A flag that is raised where the message says so. -/
def raise (stored : Option Bool) (carried : Bool) : Option Bool :=
  if carried then some true else stored

/-- `entry(pool).and_modify(|stored| *stored = stored.merge(incoming)).or_insert(incoming)`. -/
def mergeReadiness (stored : Option DexPoolReadiness) (incoming : DexPoolReadiness) :
    Option DexPoolReadiness :=
  match stored with
  | some r => some (r.merge incoming)
  | none => some incoming

/-- `merge_pump_amm_layout_generation_from_metadata`. -/
def mergeLayoutGeneration (stored : Option Nat) (carried : Option Nat) : Option Nat :=
  match carried with
  | some parsed => some (max (stored.getD 0) parsed)
  | none => stored

/-- `set_pump_amm_sell_layout_authoritative` with the values of the metadata. -/
def PumpAmmSellLayout.setAuthoritative (l : PumpAmmSellLayout) (u : PoolCacheUpdate) :
    PumpAmmSellLayout :=
  { l with
    extendedFlag := some (u.trueAt .pumpAmmSellCashbackRemaining)
    requiresFeeTail := some (u.trueAt .pumpAmmSellRequiresFeeTail)
    requiresPreFeeMetas := some (u.trueAt .pumpAmmSellRequiresPreFeeMetas)
    preFeeMeta1 := u.knownPubkeyAt .pumpAmmSellPreFeeMeta1
    extendedThirdMeta := u.knownPubkeyAt .pumpAmmSellCashbackThirdMeta
    extendedTail0 := u.knownPubkeyAt .pumpAmmSellExtendedTail0
    extendedTail1 := u.knownPubkeyAt .pumpAmmSellExtendedTail1
    extendedFeeTail0 := u.knownPubkeyAt .pumpAmmSellExtendedFeeTail0
    extendedFeeTail1 := u.knownPubkeyAt .pumpAmmSellExtendedFeeTail1 }

/-- The branch of the metadata merge that is not authoritative. -/
def PumpAmmSellLayout.mergeObserved (l : PumpAmmSellLayout) (u : PoolCacheUpdate) :
    PumpAmmSellLayout :=
  { l with
    extendedFlag := raise l.extendedFlag (u.trueAt .pumpAmmSellCashbackRemaining)
    extendedThirdMeta :=
      overwrite l.extendedThirdMeta (u.knownPubkeyAt .pumpAmmSellCashbackThirdMeta)
    extendedTail0 := overwrite l.extendedTail0 (u.knownPubkeyAt .pumpAmmSellExtendedTail0)
    extendedTail1 := overwrite l.extendedTail1 (u.knownPubkeyAt .pumpAmmSellExtendedTail1)
    extendedFeeTail0 := overwrite l.extendedFeeTail0 (u.knownPubkeyAt .pumpAmmSellExtendedFeeTail0)
    extendedFeeTail1 := overwrite l.extendedFeeTail1 (u.knownPubkeyAt .pumpAmmSellExtendedFeeTail1)
    requiresFeeTail := raise l.requiresFeeTail (u.trueAt .pumpAmmSellRequiresFeeTail)
    requiresPreFeeMetas :=
      raise l.requiresPreFeeMetas (u.trueAt .pumpAmmSellRequiresPreFeeMetas)
    preFeeMeta1 := overwrite l.preFeeMeta1 (u.knownPubkeyAt .pumpAmmSellPreFeeMeta1) }

/-- `merge_pump_amm_sell_layout_from_metadata`. -/
def PumpAmmSellLayout.mergeFromMetadata (l : PumpAmmSellLayout) (u : PoolCacheUpdate) :
    PumpAmmSellLayout :=
  let l := { l with
    layoutGeneration := mergeLayoutGeneration l.layoutGeneration
      ((u.get .pumpAmmLayoutGeneration).bind (parseUnsigned (2 ^ 64)))
    layoutReady := overwrite l.layoutReady
      ((u.get .pumpAmmSellLayoutReady).map fun v => decide (v = "true")) }
  if u.trueAt .pumpAmmSellLayoutAuthoritative then l.setAuthoritative u else l.mergeObserved u

/-- `MeteoraDlmmSwapBuilder::parse_bin_array_bitmap_tag`. -/
def parseBinArrayBitmapTag (text : String) : Option (List Nat) :=
  let parts := splitComma text
  if parts.length ≠ 16 then none else parts.mapM fun p => parseUnsigned (2 ^ 64) (trim p)

/-- A hexadecimal digit. -/
def hexDigit (ch : Char) : Option Nat :=
  let n := ch.toNat
  if 48 ≤ n ∧ n ≤ 57 then some (n - 48)
  else if 97 ≤ n ∧ n ≤ 102 then some (n - 87)
  else if 65 ≤ n ∧ n ≤ 70 then some (n - 55)
  else none

/-- `u8::from_str_radix(_, 16)` of two characters: a sign may stand first. -/
def hexByte (a b : Char) : Option Nat :=
  if a = '+' then hexDigit b
  else (hexDigit a).bind fun x => (hexDigit b).map fun y => 16 * x + y

/-- The bytes of pairs of characters. -/
def hexBytes : List Char → Option (List Nat)
  | [] => some []
  | [_] => none
  | a :: b :: rest => (hexByte a b).bind fun byte => (hexBytes rest).map fun bytes => byte :: bytes

/-- `decode_meteora_extension_payload_hex`. -/
def decodeMeteoraExtensionPayloadHex (hex : String) : Option (List Nat) := hexBytes hex.toList

namespace PoolSides

/-- The merge of one readiness map. -/
def mergeReadinessOf (s : PoolSides) (dex : Dex) (incoming : DexPoolReadiness) : PoolSides :=
  { s with readiness := Function.update s.readiness dex (mergeReadiness (s.readiness dex) incoming) }

/-- `set_pump_amm_pool_accounts_readiness_authoritative`. -/
def setPumpAmmPoolAccountsReadinessAuthoritative (s : PoolSides) (readiness : DexPoolReadiness) :
    PoolSides :=
  { s with readiness := Function.update s.readiness .pumpAmm (some readiness) }

/-- `merge_meteora_dlmm_bitmap_extension_from_metadata`. -/
def mergeMeteoraDlmmBitmapExtensionFromMetadata (s : PoolSides) (u : PoolCacheUpdate) : PoolSides :=
  { s with
    hasBitmapExtension := overwrite s.hasBitmapExtension
      ((u.get .meteoraDlmmHasBitmapExtension).bind parseBool)
    binArrayBitmap := overwrite s.binArrayBitmap
      ((u.get .meteoraDlmmBinArrayBitmap).bind parseBinArrayBitmapTag)
    bitmapExtensionPayload := overwrite s.bitmapExtensionPayload
      ((u.get .meteoraDlmmBitmapExtensionPayload).bind decodeMeteoraExtensionPayloadHex) }

/-- The side maps after a message that was taken. -/
def mergeUpdate (s : PoolSides) (u : PoolCacheUpdate) : PoolSides :=
  match u.dex with
  | .pumpAmm =>
      let s := { s with sellLayout := s.sellLayout.mergeFromMetadata u }
      if (u.get .pumpAmmSellLayoutReady).isSome then
        s.setPumpAmmPoolAccountsReadinessAuthoritative u.effectiveDexReadiness
      else s.mergeReadinessOf .pumpAmm u.effectiveDexReadiness
  | .meteoraDlmm =>
      (s.mergeReadinessOf .meteoraDlmm
        u.effectiveDexReadiness).mergeMeteoraDlmmBitmapExtensionFromMetadata u
  | .raydiumCpmm => s.mergeReadinessOf .raydiumCpmm u.effectiveDexReadiness
  | .raydium => s.mergeReadinessOf .raydium u.effectiveDexReadiness
  | .pumpfun => s.mergeReadinessOf .pumpfun u.effectiveDexReadiness
  | .meteoraCpmm => s.mergeReadinessOf .meteoraCpmm u.effectiveDexReadiness
  | .orca => s.mergeReadinessOf .orca u.effectiveDexReadiness
  | .restored | .other => s

end PoolSides

end IronCrab.Cache

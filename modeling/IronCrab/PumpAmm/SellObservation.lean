/-
  File:      IronCrab/PumpAmm/SellObservation.lean
  Subject:   WHICH OBSERVED `sell` LAYOUT IS USED (src/solana/dex/pumpfun_amm.rs): the two decoders,
             the merge of two observations, the newest-first fold and the scan that stops early.

  The merge tries six preferences in a row: kind, the 26-account tier, strength, authority,
  quality, recency. On what the decoders produce they are one number, `rank`:

  * `merge_decoded` -- the merge keeps the observation of the greater rank, the newer one on a tie;
  * `fold_decoded` -- so the fold is the first observation of the greatest rank;
  * `sell_fold_is_first_maximum` -- hence it splits anywhere, and stopping early changes nothing;
  * `sell_wins_iff` -- and a buy hint displaces a real `sell` exactly when it outranks all of them.
-/
import IronCrab.Lib.Champion
import IronCrab.PumpAmm.SellLayout

namespace IronCrab.PumpAmm

open Track (Pubkey TextCodec)
open Cache (parsePubkey)
open Champion

/-! ## 1. Observations -/

/-- `PumpAmmAuthoritativeSellLayout`. -/
inductive AuthoritativeSellLayout where
  | unknown
  | base
  | extended (preFee0 preFee1 : Option Pubkey) (tail0 tail1 tail2 : Pubkey)
      (feeTail0 feeTail1 : Option Pubkey)
  deriving DecidableEq

/-- `PumpAmmSellReferenceIxKind`: a `sell`, or a `buy_exact_quote_in` of 27 accounts. -/
inductive SellReferenceIxKind where
  | sellInstruction
  | buyLayoutHint
  deriving DecidableEq

/-- `PumpAmmSellReferenceObservation`. -/
structure SellReferenceObservation where
  layout : AuthoritativeSellLayout
  protocolFeeRecipient : Pubkey
  protocolFeeRecipientTa : Pubkey
  referenceSwapSignature : Option String
  referenceIxKind : SellReferenceIxKind
  sellIxAccountLen : UInt8
  deriving DecidableEq

namespace SellReferenceObservation

/-- `PumpAmmSellReferenceObservation::unknown`. -/
def unknown : SellReferenceObservation :=
  ⟨.unknown, defaultPubkey, defaultPubkey, none, .sellInstruction, 0⟩

/-- The observation is from a `sell` instruction. -/
def isSell (obs : SellReferenceObservation) : Bool := obs.referenceIxKind == .sellInstruction

/-- `pump_amm_sell_ix_account_count_from_observation`. -/
def sellIxAccountCount (obs : SellReferenceObservation) : UInt8 :=
  if 0 < obs.sellIxAccountLen then obs.sellIxAccountLen
  else match obs.layout with
    | .extended preFee0 preFee1 _ _ _ feeTail0 feeTail1 =>
        if (filterPk preFee0).isSome && (filterPk preFee1).isSome then 27
        else if (filterPk feeTail0).isSome && (filterPk feeTail1).isSome then 26
        else 24
    | .base => 21
    | .unknown => 0

/-- `pump_amm_observation_is_26_account_tier_sell`. -/
def is26AccountTierSell (obs : SellReferenceObservation) : Bool :=
  obs.isSell &&
    (obs.sellIxAccountLen == 26 || (obs.sellIxAccountLen == 0 && obs.sellIxAccountCount == 26))

/-- `pump_amm_observation_is_26_account_cashback_sell`. -/
def is26AccountCashbackSell (obs : SellReferenceObservation) : Bool :=
  obs.is26AccountTierSell &&
    match obs.layout with
    | .extended none none tail0 tail1 tail2 (some f0) (some f1) =>
        f0 != defaultPubkey && f1 != defaultPubkey && tail0 != defaultPubkey &&
          tail1 != defaultPubkey && tail2 != defaultPubkey
    | _ => false

/-- `pump_amm_reference_observation_prefers_26_sell_tier_for_build`. -/
def prefers26SellTierForBuild (left right : SellReferenceObservation) : Option Bool :=
  let left26 := left.is26AccountTierSell
  let right26 := right.is26AccountTierSell
  if left26 && !right26 then some true
  else if right26 && !left26 then some false
  else none

/-- `pump_amm_reference_observation_prefers_sell_over_buy_hint`. -/
def prefersSellOverBuyHint (sellObs buyHintObs : SellReferenceObservation) : Bool :=
  sellObs.isSell && buyHintObs.referenceIxKind == .buyLayoutHint && sellObs.is26AccountCashbackSell

/-- `authoritative_sell_layout_is_terminal_for_scan`. -/
def isTerminalForScan (obs : SellReferenceObservation) : Bool := obs.is26AccountCashbackSell

end SellReferenceObservation

open SellReferenceObservation (isSell unknown)

/-! ## 2. The decoders -/

/-- `pump_amm_authoritative_sell_layout_from_sell_ix_accounts`. -/
def authoritativeSellLayoutFromSellIxAccounts (accounts : List Pubkey) :
    Option AuthoritativeSellLayout :=
  let n := accounts.length
  if !sellIxAccountLenSupported n then none
  else (sellExtendedFieldsFromIxAccounts accounts).bind fun ext =>
    if n = 21 then some .base
    else if n = sellCashbackTotalAccounts then do
      let tail0 ← filterPk ext.tail0
      let tail1 ← filterPk ext.tail1
      let tail2 ← filterPk ext.thirdMeta
      let feeTail0 ← filterPk ext.feeTail0
      let feeTail1 ← filterPk ext.feeTail1
      return .extended none none tail0 tail1 tail2 (some feeTail0) (some feeTail1)
    else if n = sellExtendedV2TotalAccounts then
      if !ext.requiresPreFeeMetas then none
      else do
        let preFee0 ← filterPk ext.preFeeMeta0
        let preFee1 ← filterPk ext.preFeeMeta1
        let tail0 ← filterPk ext.tail0
        let tail1 ← filterPk ext.tail1
        let tail2 ← filterPk ext.thirdMeta
        let feeTail0 ← filterPk ext.feeTail0
        return .extended (some preFee0) (some preFee1) tail0 tail1 tail2 (some feeTail0)
          (filterPk ext.feeTail1)
    else if n = sellExtendedTotalAccounts then do
      let tail0 ← filterPk ext.tail0
      let tail1 ← filterPk ext.tail1
      let tail2 ← filterPk ext.thirdMeta
      return .extended none none tail0 tail1 tail2 (filterPk ext.feeTail0) (filterPk ext.feeTail1)
    else none

variable (d : Derivation)

/-- `pump_amm_sell_reference_observation_from_parsed_swap_ix`: the pool, the base mint and what was
    seen. -/
def sellReferenceObservationFromParsedSwapIx (accAccounts : List String) (ixData : List UInt8)
    (referenceSwapSignature : Option String) :
    Option (Pubkey × Pubkey × SellReferenceObservation) :=
  if ixData.length < 8 then none
  else if ixData.take 8 ≠ d.anchorDisc "sell" then none
  else
    let accounts := accAccounts.filterMap parsePubkey
    if accounts.length ≠ accAccounts.length then none
    else do
      let layout ← authoritativeSellLayoutFromSellIxAccounts accounts
      let poolMarket ← accounts.head?
      let baseMint ← accounts[3]?
      let protocolFeeRecipient ← accounts[9]?
      let protocolFeeRecipientTa ← accounts[10]?
      return (poolMarket, baseMint, ⟨layout, protocolFeeRecipient, protocolFeeRecipientTa,
        referenceSwapSignature, .sellInstruction, accounts.length.toUInt8⟩)

/-- `pump_amm_extended_layout_reference_observation_from_parsed_ix_accounts`: the hint a
    `buy_exact_quote_in` gives. -/
def extendedLayoutReferenceObservationFromParsedIxAccounts (accAccounts : List String)
    (referenceSwapSignature : Option String) :
    Option (Pubkey × Pubkey × SellReferenceObservation) :=
  let accounts := accAccounts.filterMap parsePubkey
  if accounts.length ≠ accAccounts.length then none
  else (sellExtendedFieldsFromIxAccounts accounts).bind fun ext =>
    if !ext.requiresExtended then none
    else do
      let poolMarket ← accounts.head?
      let baseMint ← accounts[3]?
      let protocolFeeRecipient ← accounts[9]?
      let protocolFeeRecipientTa ← accounts[10]?
      let tail0 ← filterPk ext.tail0
      let tail1 ← filterPk ext.tail1
      let tail2 ← filterPk ext.thirdMeta
      return (poolMarket, baseMint,
        ⟨.extended (filterPk ext.preFeeMeta0) (filterPk ext.preFeeMeta1) tail0 tail1 tail2
          (filterPk ext.feeTail0) (filterPk ext.feeTail1), protocolFeeRecipient,
          protocolFeeRecipientTa, referenceSwapSignature, .buyLayoutHint, 27⟩)

/-- The observation is one the decoders produce, for this pool and base mint. -/
inductive Decoded (poolMarket baseMint : Pubkey) (obs : SellReferenceObservation) : Prop where
  | sell (accAccounts : List String) (ixData : List UInt8) (signature : Option String)
      (h : sellReferenceObservationFromParsedSwapIx d accAccounts ixData signature =
        some (poolMarket, baseMint, obs))
  | hint (accAccounts : List String) (signature : Option String)
      (h : extendedLayoutReferenceObservationFromParsedIxAccounts accAccounts signature =
        some (poolMarket, baseMint, obs))

/-! ## 3. Merge, fold and scan -/

/-- `authoritative_sell_layout_strength`. -/
def authoritativeSellLayoutStrength : AuthoritativeSellLayout → Nat
  | .unknown => 0
  | .base => 1
  | .extended preFee0 preFee1 _ _ _ feeTail0 feeTail1 =>
      if (filterPk preFee0).isSome && (filterPk preFee1).isSome then 4
      else if (filterPk feeTail0).isSome && (filterPk feeTail1).isSome then 3
      else 2

/-- `pump_amm_extended_layout_is_authoritative`. -/
def extendedLayoutIsAuthoritative : AuthoritativeSellLayout → Bool
  | .extended preFee0 preFee1 tail0 tail1 tail2 feeTail0 feeTail1 =>
      let pre0 := filterPk preFee0
      let pre1 := filterPk preFee1
      if !(pre0.isSome && pre1.isSome) then false
      else if pre0 ≠ some d.singletonGlobalVolumeAccumulator then false
      else if pre1 = some pumpfunAmmFeeConfig ∨ pre1 = some pumpfunAmmFeeProgramId then false
      else if tail0 = defaultPubkey ∨ tail1 = defaultPubkey ∨ tail2 = defaultPubkey then false
      else if (filterPk feeTail0).isNone then false
      else if (filterPk feeTail1).isSome then feeTail0.isSome
      else true
  | _ => false

/-- `pump_amm_extended_layout_merge_quality`. -/
def extendedLayoutMergeQuality (layout : AuthoritativeSellLayout) : Nat :=
  if !extendedLayoutIsAuthoritative d layout then 0
  else match layout with
    | .extended _ _ _ _ _ feeTail0 feeTail1 =>
        10 + (if (filterPk feeTail0).isSome then 1 else 0) +
          (if (filterPk feeTail1).isSome then 1 else 0)
    | _ => 0

/-- `merge_pump_amm_authoritative_sell_reference_observation`. -/
def mergeSellReferenceObservation (best candidate : SellReferenceObservation) :
    SellReferenceObservation :=
  if best.layout = .unknown then candidate
  else if candidate.layout = .unknown then best
  else if best.prefersSellOverBuyHint candidate then best
  else if candidate.prefersSellOverBuyHint best then candidate
  else match best.prefers26SellTierForBuild candidate with
    | some preferLeft => if preferLeft then best else candidate
    | none =>
        let bestStrength := authoritativeSellLayoutStrength best.layout
        let candStrength := authoritativeSellLayoutStrength candidate.layout
        if candStrength > bestStrength then candidate
        else if candStrength < bestStrength then best
        else
          let bestAuth := extendedLayoutIsAuthoritative d best.layout
          let candAuth := extendedLayoutIsAuthoritative d candidate.layout
          if candAuth && !bestAuth then candidate
          else if bestAuth && !candAuth then best
          else
            let bestQ := extendedLayoutMergeQuality d best.layout
            let candQ := extendedLayoutMergeQuality d candidate.layout
            if candQ > bestQ then candidate else best

/-- `fold_force_refresh_sell_reference_observations_newest_first`. -/
def foldSellReferenceObservations (best : SellReferenceObservation)
    (observationsNewestFirst : List SellReferenceObservation) : SellReferenceObservation :=
  observationsNewestFirst.foldl (mergeSellReferenceObservation d) best

/-- The loop of `observe_authoritative_sell_layout_from_tx_history_with_rpc` over the observations
    that match the pool: it returns as soon as the best one is terminal. -/
def scanSellReferenceObservations (best : SellReferenceObservation) :
    List SellReferenceObservation → SellReferenceObservation
  | [] => best
  | obs :: rest =>
      let bestObs := foldSellReferenceObservations d best [obs]
      if bestObs.isTerminalForScan then bestObs else scanSellReferenceObservations bestObs rest

/-! ## 4. What the decoders produce -/

/-- The layouts of a decoded `sell`, each with its count of accounts. -/
inductive SellShape : Nat → AuthoritativeSellLayout → Prop where
  | base : SellShape 21 .base
  | extended {tail0 tail1 tail2 : Pubkey} :
      SellShape 24 (.extended none none tail0 tail1 tail2 none none)
  | cashback {tail0 tail1 tail2 fee0 fee1 : Pubkey} (h0 : tail0 ≠ defaultPubkey)
      (h1 : tail1 ≠ defaultPubkey) (h2 : tail2 ≠ defaultPubkey) (hf0 : fee0 ≠ defaultPubkey)
      (hf1 : fee1 ≠ defaultPubkey) :
      SellShape 26 (.extended none none tail0 tail1 tail2 (some fee0) (some fee1))
  | v2 {pre0 pre1 tail0 tail1 tail2 fee0 : Pubkey} :
      SellShape 27 (.extended (some pre0) (some pre1) tail0 tail1 tail2 (some fee0) none)

theorem layoutFromAccounts_shape {accounts : List Pubkey} {layout : AuthoritativeSellLayout}
    (h : authoritativeSellLayoutFromSellIxAccounts accounts = some layout) :
    SellShape accounts.length layout := by
  have hsup : sellIxAccountLenSupported accounts.length = true := by
    by_contra hn
    simp [authoritativeSellLayoutFromSellIxAccounts, hn] at h
  rcases sellIxAccountLenSupported_iff.mp hsup with hn | hn | hn | hn
  · simp [authoritativeSellLayoutFromSellIxAccounts, extendedFields_base hn, hn] at h
    rw [hn, ← h.2]
    exact .base
  · simp [authoritativeSellLayoutFromSellIxAccounts, extendedFields_extended hn, hn,
      sellExtendedTotalAccounts, sellCashbackTotalAccounts, sellExtendedV2TotalAccounts,
      Option.bind_eq_some_iff] at h
    obtain ⟨_, t0, _, t1, _, t2, _, rfl⟩ := h
    rw [hn]
    exact .extended
  · simp [authoritativeSellLayoutFromSellIxAccounts, extendedFields_cashback hn, hn,
      sellCashbackTotalAccounts, Option.bind_eq_some_iff, filterPk_eq_some] at h
    obtain ⟨_, h0, h1, h2, hf0, hf1, rfl⟩ := h
    convert SellShape.cashback h0 h1 h2 hf0 hf1 using 1
  · simp [authoritativeSellLayoutFromSellIxAccounts, extendedFields_v2 hn, hn,
      sellCashbackTotalAccounts, sellExtendedV2TotalAccounts, Option.bind_eq_some_iff] at h
    obtain ⟨_, _, p0, _, p1, _, t0, _, t1, _, t2, _, f0, _, rfl⟩ := h
    rw [hn]
    exact .v2

section Facts

variable {d} {poolMarket baseMint : Pubkey} {obs : SellReferenceObservation}

/-- What is known of a decoded observation: a `sell` has the shape of its count, a hint has an
    extended layout. -/
theorem Decoded.facts (h : Decoded d poolMarket baseMint obs) :
    obs.isSell = true ∧ (∃ n, obs.sellIxAccountLen = n.toUInt8 ∧ SellShape n obs.layout) ∨
      obs.isSell = false ∧ ∃ p0 p1 t0 t1 t2 f0 f1, obs.layout = .extended p0 p1 t0 t1 t2 f0 f1 := by
  cases h with
  | sell accAccounts ixData signature h =>
      left
      simp only [sellReferenceObservationFromParsedSwapIx, Option.bind_eq_bind, Option.pure_def] at h
      split at h
      · cases h
      split at h
      · cases h
      split at h
      · cases h
      simp only [Option.bind_eq_some_iff, Option.some.injEq, Prod.mk.injEq] at h
      obtain ⟨layout, hl, _, _, _, _, _, _, _, _, _, _, rfl⟩ := h
      exact ⟨rfl, _, rfl, layoutFromAccounts_shape hl⟩
  | hint accAccounts signature h =>
      right
      simp only [extendedLayoutReferenceObservationFromParsedIxAccounts, Option.bind_eq_bind,
        Option.pure_def] at h
      split at h
      · cases h
      obtain ⟨ext, _, h⟩ := Option.bind_eq_some_iff.mp h
      split at h
      · cases h
      simp only [Option.bind_eq_some_iff, Option.some.injEq, Prod.mk.injEq] at h
      obtain ⟨_, _, _, _, _, _, _, _, _, _, _, _, _, _, _, _, rfl⟩ := h
      exact ⟨rfl, _, _, _, _, _, _, _, rfl⟩

/-- A decoded layout is known. -/
theorem Decoded.known (h : Decoded d poolMarket baseMint obs) : obs.layout ≠ .unknown := by
  rcases h.facts with ⟨_, n, _, hs⟩ | ⟨_, _, _, _, _, _, _, _, hl⟩
  · generalize obs.layout = layout at hs
    cases hs <;> simp
  · simp [hl]

/-- **A decoded `sell` of 26 accounts is complete.** -/
theorem Decoded.tier_eq_cashback (h : Decoded d poolMarket baseMint obs) :
    obs.is26AccountCashbackSell = obs.is26AccountTierSell := by
  unfold SellReferenceObservation.is26AccountCashbackSell
  cases ht : obs.is26AccountTierSell with
  | false => rfl
  | true =>
      rw [Bool.true_and]
      rcases h.facts with ⟨hk, n, hlen, hs⟩ | ⟨hk, _⟩
      · generalize hlay : obs.layout = layout at hs
        cases hs with
        | cashback h0 h1 h2 hf0 hf1 => simp [h0, h1, h2, hf0, hf1]
        | base | extended | v2 =>
            exfalso
            revert ht
            simp [SellReferenceObservation.is26AccountTierSell, hlen]
      · simp [SellReferenceObservation.is26AccountTierSell, hk] at ht

end Facts

/-! ## 5. One number -/

/-- What the preferences of the merge come to: the 26-account tier, then strength, then quality,
    which is positive exactly when the layout is authoritative. -/
def SellReferenceObservation.rank (obs : SellReferenceObservation) : Nat :=
  1000 * obs.is26AccountTierSell.toNat + 100 * authoritativeSellLayoutStrength obs.layout +
    extendedLayoutMergeQuality d obs.layout

theorem strength_le (layout : AuthoritativeSellLayout) :
    authoritativeSellLayoutStrength layout ≤ 4 := by
  unfold authoritativeSellLayoutStrength
  split
  · omega
  · omega
  · split_ifs <;> omega

variable {d}

theorem quality_of_authoritative {layout : AuthoritativeSellLayout}
    (h : extendedLayoutIsAuthoritative d layout = true) :
    10 ≤ extendedLayoutMergeQuality d layout ∧ extendedLayoutMergeQuality d layout ≤ 12 := by
  cases layout with
  | unknown => cases h
  | base => cases h
  | extended =>
      simp only [extendedLayoutMergeQuality, h, Bool.not_true, Bool.false_eq_true, if_false]
      split_ifs <;> omega

theorem quality_of_not_authoritative {layout : AuthoritativeSellLayout}
    (h : extendedLayoutIsAuthoritative d layout = false) :
    extendedLayoutMergeQuality d layout = 0 := by
  simp [extendedLayoutMergeQuality, h]

theorem quality_le (layout : AuthoritativeSellLayout) :
    extendedLayoutMergeQuality d layout ≤ 12 := by
  cases h : extendedLayoutIsAuthoritative d layout with
  | false => rw [quality_of_not_authoritative h]; omega
  | true => exact (quality_of_authoritative h).2

/-- The 26-account tier outranks all else. -/
theorem rank_lt_of_tier {best cand : SellReferenceObservation}
    (hb : best.is26AccountTierSell = false) (hc : cand.is26AccountTierSell = true) :
    best.rank d < cand.rank d := by
  have h1 := strength_le best.layout
  have h2 := quality_le (d := d) best.layout
  simp only [SellReferenceObservation.rank, hb, hc, Bool.toNat_true, Bool.toNat_false]
  omega

/-- Within a tier, strength and then quality decide. -/
theorem rank_lt_iff_of_tier {best cand : SellReferenceObservation}
    (ht : best.is26AccountTierSell = cand.is26AccountTierSell) :
    best.rank d < cand.rank d ↔
      authoritativeSellLayoutStrength best.layout < authoritativeSellLayoutStrength cand.layout ∨
        authoritativeSellLayoutStrength best.layout = authoritativeSellLayoutStrength cand.layout ∧
          extendedLayoutMergeQuality d best.layout < extendedLayoutMergeQuality d cand.layout := by
  have h1 := quality_le (d := d) best.layout
  have h2 := quality_le (d := d) cand.layout
  simp only [SellReferenceObservation.rank, ht]
  omega

/-- A decoded observation is preferred as a `sell` over a hint exactly when it is of the tier. -/
theorem prefersSell_decoded {pool base : Pubkey} {best cand : SellReferenceObservation}
    (hb : Decoded d pool base best) :
    best.prefersSellOverBuyHint cand = (best.is26AccountTierSell && !cand.isSell) := by
  have hk : (cand.referenceIxKind == .buyLayoutHint) = !cand.isSell := by
    unfold isSell
    cases cand.referenceIxKind <;> rfl
  unfold SellReferenceObservation.prefersSellOverBuyHint
  rw [hb.tier_eq_cashback, hk]
  cases ht : best.is26AccountTierSell with
  | false => simp
  | true => simp [(Bool.and_eq_true_iff.mp ht).1]

theorem not_tier_of_hint {obs : SellReferenceObservation} (h : obs.isSell = false) :
    obs.is26AccountTierSell = false := by
  simp [SellReferenceObservation.is26AccountTierSell, h]

/-- The last three preferences, within a tier, keep the greater rank. -/
theorem pick_of_same_tier {best cand : SellReferenceObservation}
    (ht : best.is26AccountTierSell = cand.is26AccountTierSell) :
    (if authoritativeSellLayoutStrength cand.layout > authoritativeSellLayoutStrength best.layout
      then cand
      else if authoritativeSellLayoutStrength cand.layout <
        authoritativeSellLayoutStrength best.layout then best
      else if extendedLayoutIsAuthoritative d cand.layout &&
        !extendedLayoutIsAuthoritative d best.layout then cand
      else if extendedLayoutIsAuthoritative d best.layout &&
        !extendedLayoutIsAuthoritative d cand.layout then best
      else if extendedLayoutMergeQuality d cand.layout > extendedLayoutMergeQuality d best.layout
      then cand else best) = pick (fun o => o.rank d) best cand := by
  have hiff := rank_lt_iff_of_tier (d := d) ht
  unfold pick
  split
  next h => rw [if_pos (hiff.mpr (.inl h))]
  next h =>
    split
    next h' => rw [if_neg (fun hr => by have := hiff.mp hr; omega)]
    next h' =>
      have hs : authoritativeSellLayoutStrength best.layout =
          authoritativeSellLayoutStrength cand.layout := by omega
      have hq : best.rank d < cand.rank d ↔
          extendedLayoutMergeQuality d best.layout < extendedLayoutMergeQuality d cand.layout := by
        rw [hiff]
        omega
      -- an authoritative layout has quality at least 10, any other 0
      cases hb : extendedLayoutIsAuthoritative d best.layout with
      | true =>
          have h1 := quality_of_authoritative hb
          cases hc : extendedLayoutIsAuthoritative d cand.layout with
          | true => simp [hq]
          | false =>
              have h2 := quality_of_not_authoritative hc
              simp only [hq, Bool.false_and, Bool.true_and, Bool.not_false, Bool.false_eq_true,
                if_false, if_true]
              rw [if_neg (by omega)]
      | false =>
          have h1 := quality_of_not_authoritative hb
          cases hc : extendedLayoutIsAuthoritative d cand.layout with
          | true =>
              have h2 := quality_of_authoritative hc
              simp only [hq, Bool.true_and, Bool.not_false, if_true]
              rw [if_pos (by omega)]
          | false => simp [hq]

/-- **On decoded observations the merge keeps the one of the greater rank, the newer on a tie.** -/
theorem merge_decoded {pool pool' base base' : Pubkey} {best cand : SellReferenceObservation}
    (hb : Decoded d pool base best) (hc : Decoded d pool' base' cand) :
    mergeSellReferenceObservation d best cand = pick (fun o => o.rank d) best cand := by
  unfold mergeSellReferenceObservation SellReferenceObservation.prefers26SellTierForBuild
  rw [if_neg hb.known, if_neg hc.known, prefersSell_decoded hb, prefersSell_decoded hc]
  cases htb : best.is26AccountTierSell with
  | true =>
      cases htc : cand.is26AccountTierSell with
      | true =>
          have h1 := (Bool.and_eq_true_iff.mp htb).1
          have h2 := (Bool.and_eq_true_iff.mp htc).1
          simpa [h1, h2] using pick_of_same_tier (htb.trans htc.symm)
      | false =>
          -- the left one alone is of the tier: it wins against a hint and against a `sell`
          rw [pick_of_le (rank_lt_of_tier htc htb).le]
          simp
  | false =>
      cases htc : cand.is26AccountTierSell with
      | true =>
          rw [pick_of_lt (rank_lt_of_tier htb htc)]
          simp
      | false => simpa using pick_of_same_tier (htb.trans htc.symm)

/-! ## 6. The fold -/

/-- The observation is one the decoders produce, for whatever pool. -/
def IsDecoded (d : Derivation) (obs : SellReferenceObservation) : Prop :=
  ∃ poolMarket baseMint, Decoded d poolMarket baseMint obs

theorem IsDecoded.merge {best cand : SellReferenceObservation} (hb : IsDecoded d best)
    (hc : IsDecoded d cand) :
    mergeSellReferenceObservation d best cand = pick (fun o => o.rank d) best cand := by
  obtain ⟨_, _, hb⟩ := hb
  obtain ⟨_, _, hc⟩ := hc
  exact merge_decoded hb hc

theorem IsDecoded.pick {best cand : SellReferenceObservation} (hb : IsDecoded d best)
    (hc : IsDecoded d cand) : IsDecoded d (pick (fun o => o.rank d) best cand) := by
  unfold Champion.pick
  split
  · exact hc
  · exact hb

theorem fold_from_decoded {best : SellReferenceObservation} {l : List SellReferenceObservation}
    (hb : IsDecoded d best) (hl : ∀ o ∈ l, IsDecoded d o) :
    foldSellReferenceObservations d best l = l.foldl (pick fun o => o.rank d) best := by
  induction l generalizing best with
  | nil => rfl
  | cons o l ih =>
      have ho := hl o List.mem_cons_self
      show foldSellReferenceObservations d (mergeSellReferenceObservation d best o) l = _
      rw [hb.merge ho, ih (hb.pick ho) fun y hy => hl y (List.mem_cons_of_mem _ hy)]
      rfl

theorem merge_unknown (obs : SellReferenceObservation) :
    mergeSellReferenceObservation d unknown obs = obs := if_pos rfl

/-- The scan starts with the first observation. -/
theorem fold_cons (o : SellReferenceObservation) (l : List SellReferenceObservation) :
    foldSellReferenceObservations d unknown (o :: l) = foldSellReferenceObservations d o l := by
  show foldSellReferenceObservations d (mergeSellReferenceObservation d unknown o) l = _
  rw [merge_unknown]

/-- **The fold of decoded observations is the first one of the greatest rank.** -/
theorem fold_decoded {l : List SellReferenceObservation} (hl : ∀ o ∈ l, IsDecoded d o)
    (hne : l ≠ []) :
    foldSellReferenceObservations d unknown l ∈ List.argmax (fun o => o.rank d) l := by
  cases l with
  | nil => exact absurd rfl hne
  | cons o l =>
      rw [fold_cons, argmax_eq_foldl_pick,
        fold_from_decoded (hl o List.mem_cons_self) fun y hy => hl y (List.mem_cons_of_mem _ hy)]
      rfl

theorem fold_isDecoded {l : List SellReferenceObservation} (hl : ∀ o ∈ l, IsDecoded d o)
    (hne : l ≠ []) : IsDecoded d (foldSellReferenceObservations d unknown l) :=
  hl _ (List.argmax_mem (fold_decoded hl hne))

/-- The rank of every decoded `sell` of the tier is the same. -/
theorem rank_of_tier {obs : SellReferenceObservation} (h : IsDecoded d obs)
    (ht : obs.is26AccountTierSell = true) : obs.rank d = 1300 := by
  obtain ⟨_, _, h⟩ := h
  have hc := h.tier_eq_cashback
  rcases h.facts with ⟨_, n, _, hs⟩ | ⟨hk, _⟩
  · rw [ht, SellReferenceObservation.is26AccountCashbackSell, ht, Bool.true_and] at hc
    unfold SellReferenceObservation.rank
    rw [ht]
    generalize obs.layout = layout at hs hc ⊢
    cases hs with
    | cashback h0 h1 h2 hf0 hf1 =>
        simp [authoritativeSellLayoutStrength, extendedLayoutMergeQuality,
          extendedLayoutIsAuthoritative, filterPk_some hf0, filterPk_some hf1]
    | base | extended | v2 => cases hc
  · rw [not_tier_of_hint hk] at ht
    cases ht

/-- **Nothing decoded outranks a terminal observation.** -/
theorem rank_le_of_terminal {x y : SellReferenceObservation} (hx : IsDecoded d x)
    (ht : x.isTerminalForScan = true) (hy : IsDecoded d y) : y.rank d ≤ x.rank d := by
  have htx : x.is26AccountTierSell = true := (Bool.and_eq_true_iff.mp ht).1
  cases hty : y.is26AccountTierSell with
  | false => exact (rank_lt_of_tier hty htx).le
  | true => rw [rank_of_tier hx htx, rank_of_tier hy hty]

theorem fold_from_terminal {x : SellReferenceObservation} {l : List SellReferenceObservation}
    (hx : IsDecoded d x) (ht : x.isTerminalForScan = true) (hl : ∀ o ∈ l, IsDecoded d o) :
    foldSellReferenceObservations d x l = x := by
  have hstop := argmax_stop (fun o => o.rank d) [] fun y hy => rank_le_of_terminal hx ht (hl y hy)
  rw [List.nil_append, List.nil_append, argmax_eq_foldl_pick, ← fold_from_decoded hx hl] at hstop
  exact Option.some.inj hstop

/-- **The scan that returns early returns what the fold of the whole list returns.** -/
theorem scan_from_decoded {best : SellReferenceObservation} {l : List SellReferenceObservation}
    (hb : best = unknown ∨ IsDecoded d best) (hl : ∀ o ∈ l, IsDecoded d o) :
    scanSellReferenceObservations d best l = foldSellReferenceObservations d best l := by
  induction l generalizing best with
  | nil => rfl
  | cons o l ih =>
      have ho := hl o List.mem_cons_self
      have hrest := fun y hy => hl y (List.mem_cons_of_mem o hy)
      have hbest : IsDecoded d (mergeSellReferenceObservation d best o) := by
        rcases hb with rfl | hb
        · rw [merge_unknown]
          exact ho
        · rw [hb.merge ho]
          exact hb.pick ho
      show (if (mergeSellReferenceObservation d best o).isTerminalForScan then
          mergeSellReferenceObservation d best o
        else scanSellReferenceObservations d (mergeSellReferenceObservation d best o) l) =
          foldSellReferenceObservations d (mergeSellReferenceObservation d best o) l
      split
      next ht => exact (fold_from_terminal hbest ht hrest).symm
      next => exact ih (.inr hbest) hrest

/-- A list split anywhere folds to the merge of the folds of its parts. -/
theorem fold_append {l l' : List SellReferenceObservation} (hl : ∀ o ∈ l, IsDecoded d o)
    (hl' : ∀ o ∈ l', IsDecoded d o) :
    foldSellReferenceObservations d unknown (l ++ l') =
      mergeSellReferenceObservation d (foldSellReferenceObservations d unknown l)
        (foldSellReferenceObservations d unknown l') := by
  by_cases hn : l = []
  · rw [hn]
    exact (merge_unknown _).symm
  by_cases hn' : l' = []
  · have hk := (fold_isDecoded hl hn)
    obtain ⟨_, _, hk⟩ := hk
    rw [hn', List.append_nil]
    unfold mergeSellReferenceObservation
    rw [if_neg hk.known]
    exact (if_pos rfl).symm
  · rw [(fold_isDecoded hl hn).merge (fold_isDecoded hl' hn')]
    have hboth := argmax_append (fold_decoded hl hn) (fold_decoded hl' hn')
    have hwhole := fold_decoded (d := d) (l := l ++ l')
      (fun o ho => (List.mem_append.mp ho).elim (hl o) (hl' o)) (by simp [hn])
    exact Option.some.inj (hwhole.symm.trans hboth)

/-- Of two observations the first counts for no more than the second. -/
def AtMost (d : Derivation) (a b : SellReferenceObservation) : Prop := a.rank d ≤ b.rank d

/-- `x` is the first of the list that no element of the list exceeds. -/
def IsFirstMaximal {α : Type} (atMost : α → α → Prop) (l : List α) (x : α) : Prop :=
  ∃ before after, l = before ++ x :: after ∧ (∀ y ∈ before, atMost y x ∧ ¬ atMost x y) ∧
    ∀ y ∈ after, atMost y x

/-- **The layout fold is a newest-wins maximum, and the early exit is invisible.** -/
theorem sell_fold_is_first_maximum (d : Derivation) (l : List SellReferenceObservation)
    (hl : ∀ o ∈ l, IsDecoded d o) :
    (∀ a b c, IsDecoded d a → IsDecoded d b → IsDecoded d c →
      mergeSellReferenceObservation d (mergeSellReferenceObservation d a b) c =
        mergeSellReferenceObservation d a (mergeSellReferenceObservation d b c)) ∧
    ((∀ a b, AtMost d a b ∨ AtMost d b a) ∧
      (∀ a b c, AtMost d a b → AtMost d b c → AtMost d a c) ∧
      (l ≠ [] → IsFirstMaximal (AtMost d) l (foldSellReferenceObservations d unknown l))) ∧
    (∀ newer older, l = newer ++ older → foldSellReferenceObservations d unknown l =
      mergeSellReferenceObservation d (foldSellReferenceObservations d unknown newer)
        (foldSellReferenceObservations d unknown older)) ∧
    scanSellReferenceObservations d unknown l = foldSellReferenceObservations d unknown l ∧
    ∀ newer o older, l = newer ++ o :: older → (∀ y ∈ newer, y.isTerminalForScan = false) →
      o.isTerminalForScan = true →
        foldSellReferenceObservations d unknown (newer ++ [o]) =
          foldSellReferenceObservations d unknown l := by
  refine ⟨?_, ⟨?_, ?_, ?_⟩, ?_, scan_from_decoded (.inl rfl) hl, ?_⟩
  · intro a b c ha hb hc
    rw [ha.merge hb, (ha.pick hb).merge hc, hb.merge hc, ha.merge (hb.pick hc)]
    exact pick_assoc a b c
  · exact fun a b => Nat.le_total _ _
  · exact fun a b c hab hbc => Nat.le_trans hab hbc
  · intro hne
    obtain ⟨before, after, heq, hb, ha⟩ := mem_argmax_iff_split.mp (fold_decoded hl hne)
    exact ⟨before, after, heq, fun y hy => ⟨(hb y hy).le, Nat.not_le.mpr (hb y hy)⟩, ha⟩
  · rintro newer older rfl
    exact fold_append (fun o ho => hl o (List.mem_append_left _ ho))
      fun o ho => hl o (List.mem_append_right _ ho)
  · rintro newer o older rfl _ ht
    have ho : IsDecoded d o := hl o (by simp)
    have hstop := argmax_stop (fun o => o.rank d) newer
      fun y hy => rank_le_of_terminal ho ht (hl y (List.mem_append_right _ (.tail _ hy)))
    have hpart := fold_decoded (d := d) (l := newer ++ [o])
      (fun y hy => hl y (by simp only [List.mem_append, List.mem_singleton] at hy; simp; tauto))
      (by simp)
    rw [← hstop] at hpart
    exact Option.some.inj (hpart.symm.trans (fold_decoded hl (by simp)))

/-- The accounts of a `sell`, numbered from 1. -/
def numberedAccounts (n : Nat) : List Pubkey := (List.range n).map fun i => Fin.ofNat _ (i + 1)

/-- Twenty-seven accounts with FeeConfig and FeeProgram where 27 accounts have them. -/
def hintAccounts : List Pubkey :=
  ((numberedAccounts 27).set 21 pumpfunAmmFeeConfig).set 22 pumpfunAmmFeeProgramId

/-- A `sell` of 24 accounts. -/
def plainSell : SellReferenceObservation :=
  ⟨.extended none none 22 23 24 none none, 10, 11, some "s24", .sellInstruction, 24⟩

/-- A `sell` of 26 accounts. -/
def cashbackSell : SellReferenceObservation :=
  ⟨.extended none none 22 23 24 (some 25) (some 26), 10, 11, some "s26", .sellInstruction, 26⟩

/-- The hint of a buy with 27 accounts. -/
def v2Hint : SellReferenceObservation :=
  ⟨.extended (some 20) (some 21) 24 25 26 (some 27) none, 10, 11, some "b27", .buyLayoutHint, 27⟩

theorem plainSell_decoded : Decoded singletonDerivation 1 4 plainSell := by
  refine .sell ((numberedAccounts 24).map TextCodec.base58Text)
    [51, 230, 133, 164, 1, 127, 131, 173] (some "s24") ?_
  unfold sellReferenceObservationFromParsedSwapIx
  rw [parse_accountTexts, List.length_map]
  decide

theorem cashbackSell_decoded : Decoded singletonDerivation 1 4 cashbackSell := by
  refine .sell ((numberedAccounts 26).map TextCodec.base58Text)
    [51, 230, 133, 164, 1, 127, 131, 173] (some "s26") ?_
  unfold sellReferenceObservationFromParsedSwapIx
  rw [parse_accountTexts, List.length_map]
  decide

theorem v2Hint_decoded : Decoded singletonDerivation 1 4 v2Hint := by
  refine .hint (hintAccounts.map TextCodec.base58Text) (some "b27") ?_
  unfold extendedLayoutReferenceObservationFromParsedIxAccounts
  rw [parse_accountTexts, List.length_map]
  decide +kernel

theorem sell_fold_mixed : scanSellReferenceObservations singletonDerivation unknown
      [plainSell, v2Hint, cashbackSell, v2Hint] =
    foldSellReferenceObservations singletonDerivation unknown
      [plainSell, v2Hint, cashbackSell, v2Hint] := by
  refine (sell_fold_is_first_maximum singletonDerivation _ fun o ho => ?_).2.2.2.1
  refine ⟨1, 4, ?_⟩
  simp only [List.mem_cons, List.not_mem_nil, or_false] at ho
  rcases ho with rfl | rfl | rfl | rfl
  · exact plainSell_decoded
  · exact v2Hint_decoded
  · exact cashbackSell_decoded
  · exact v2Hint_decoded

/-! ## 7. Sells against hints -/

/-- The strength of a `sell` among sells: the complete 26-account tier, then 27, 24 and the base. -/
def SellReferenceObservation.sellStrength (obs : SellReferenceObservation) : Nat :=
  if obs.is26AccountCashbackSell then 5 else authoritativeSellLayoutStrength obs.layout

/-- The fold returns the strongest `sell` of the list, as if there were no hints. -/
structure SellWins (d : Derivation) (l : List SellReferenceObservation) : Prop where
  sell : (foldSellReferenceObservations d unknown l).isSell = true
  mem : foldSellReferenceObservations d unknown l ∈ l
  strongest : ∀ s ∈ l, s.isSell = true →
    s.sellStrength ≤ (foldSellReferenceObservations d unknown l).sellStrength
  same : foldSellReferenceObservations d unknown l =
    foldSellReferenceObservations d unknown (l.filter isSell)

/-- Every hint is beaten by a `sell`: a newer one of at least its rank, or an older one of a greater
    rank. -/
def HintsBeaten (d : Derivation) (l : List SellReferenceObservation) : Prop :=
  ∀ newer hint older, l = newer ++ hint :: older → hint.isSell = false →
    (∃ s ∈ newer, s.isSell = true ∧ hint.rank d ≤ s.rank d) ∨
      ∃ s ∈ older, s.isSell = true ∧ hint.rank d < s.rank d

/-- Among sells the rank goes with the strength. -/
theorem sellStrength_le_of_rank {s x : SellReferenceObservation} (hs : IsDecoded d s)
    (hx : IsDecoded d x) (hr : s.rank d ≤ x.rank d) : s.sellStrength ≤ x.sellStrength := by
  obtain ⟨_, _, hs⟩ := hs
  obtain ⟨_, _, hx⟩ := hx
  have h1 := strength_le s.layout
  have h2 := quality_le (d := d) x.layout
  have h3 := strength_le x.layout
  unfold SellReferenceObservation.rank at hr
  unfold SellReferenceObservation.sellStrength
  rw [hs.tier_eq_cashback, hx.tier_eq_cashback]
  cases hts : s.is26AccountTierSell with
  | true =>
      cases htx : x.is26AccountTierSell with
      | true => exact Nat.le_refl _
      | false =>
          rw [hts, htx] at hr
          simp only [Bool.toNat_true, Bool.toNat_false] at hr
          omega
  | false =>
      cases htx : x.is26AccountTierSell with
      | true =>
          simp only [Bool.false_eq_true, if_false, if_true]
          omega
      | false =>
          rw [hts, htx] at hr
          simp only [Bool.toNat_false, Bool.false_eq_true, if_false] at hr ⊢
          omega

/-- The winner is a `sell` exactly when every hint is beaten. -/
theorem isSell_fold_iff {l : List SellReferenceObservation} (hl : ∀ o ∈ l, IsDecoded d o)
    (hne : l ≠ []) :
    (foldSellReferenceObservations d unknown l).isSell = true ↔ HintsBeaten d l := by
  obtain ⟨before, after, heq, hb, ha⟩ := mem_argmax_iff_split.mp (fold_decoded hl hne)
  generalize foldSellReferenceObservations d unknown l = x at heq hb ha
  constructor
  · rintro hx newer hint older hl' hh
    rcases List.append_eq_append_iff.mp (hl'.symm.trans heq) with ⟨m, rfl, hm⟩ | ⟨m, rfl, hm⟩
    · cases m with
      | nil =>
          obtain ⟨rfl, -⟩ := List.cons.inj hm
          rw [hh] at hx
          cases hx
      | cons z m =>
          obtain ⟨rfl, rfl⟩ := List.cons.inj hm
          exact .inr ⟨x, by simp, hx, hb hint (by simp)⟩
    · cases m with
      | nil =>
          obtain ⟨rfl, -⟩ := List.cons.inj hm
          rw [hh] at hx
          cases hx
      | cons z m =>
          obtain ⟨rfl, rfl⟩ := List.cons.inj hm
          exact .inl ⟨x, by simp, hx, ha hint (by simp)⟩
  · intro hbeaten
    by_contra hx
    rcases hbeaten before x after heq (Bool.eq_false_iff.mpr hx) with ⟨s, hs, _, hr⟩ | ⟨s, hs, _, hr⟩
    · exact absurd (hb s hs) (Nat.not_lt.mpr hr)
    · exact absurd hr (Nat.not_lt.mpr (ha s hs))

/-- **A buy hint displaces the sells exactly when none of them beats it.** -/
theorem sell_wins_iff (d : Derivation) (poolMarket baseMint : Pubkey)
    (l : List SellReferenceObservation) (hl : ∀ o ∈ l, Decoded d poolMarket baseMint o)
    (hs : ∃ s ∈ l, s.isSell = true ∧ s.layout ≠ .unknown) : SellWins d l ↔ HintsBeaten d l := by
  have hdec : ∀ o ∈ l, IsDecoded d o := fun o ho => ⟨_, _, hl o ho⟩
  obtain ⟨s₀, hs₀, _⟩ := hs
  have hne := List.ne_nil_of_mem hs₀
  have hmax := fold_decoded hdec hne
  rw [← isSell_fold_iff hdec hne]
  refine ⟨SellWins.sell, fun hsell => ⟨hsell, List.argmax_mem hmax, ?_, ?_⟩⟩
  · intro s hs _
    exact sellStrength_le_of_rank (hdec s hs) (fold_isDecoded hdec hne)
      (List.le_of_mem_argmax hs hmax)
  · have hfil := argmax_filter (p := isSell) hmax hsell
    have hdec' : ∀ o ∈ l.filter isSell, IsDecoded d o :=
      fun o ho => hdec o (List.mem_filter.mp ho).1
    exact Option.some.inj (hfil.symm.trans
      (fold_decoded hdec' (List.ne_nil_of_mem (List.argmax_mem hfil))))

theorem sell_wins_mixed : SellWins singletonDerivation [v2Hint, cashbackSell] ↔
    HintsBeaten singletonDerivation [v2Hint, cashbackSell] := by
  refine sell_wins_iff singletonDerivation 1 4 [v2Hint, cashbackSell] ?_ ?_
  · intro o ho
    simp only [List.mem_cons, List.not_mem_nil, or_false] at ho
    rcases ho with rfl | rfl
    · exact v2Hint_decoded
    · exact cashbackSell_decoded
  · exact ⟨cashbackSell, by simp, rfl, by decide⟩

/-- A newer `sell` of 24 accounts loses against an older buy hint. -/
theorem hint_displaces_sell :
    (∀ o ∈ [plainSell, v2Hint], Decoded singletonDerivation 1 4 o) ∧
      (∃ s ∈ [plainSell, v2Hint], s.isSell = true ∧ s.layout ≠ .unknown) ∧
      ¬ SellWins singletonDerivation [plainSell, v2Hint] := by
  refine ⟨?_, ⟨plainSell, by simp, rfl, by decide⟩, ?_⟩
  · intro o ho
    simp only [List.mem_cons, List.not_mem_nil, or_false] at ho
    rcases ho with rfl | rfl
    · exact plainSell_decoded
    · exact v2Hint_decoded
  · intro h
    exact absurd h.sell (by decide)

end IronCrab.PumpAmm

/-
  File:      IronCrab/PumpAmm/SellLayout.lean
  Subject:   THE SHAPES OF A PUMPSWAP `sell` (src/solana/dex/pumpfun_amm.rs): what an observed
             account list says about the layout, the readiness gate, and the inferred count.

  A `sell` has 21, 24, 26 or 27 accounts:

  * 21 -- the base shape, FeeConfig and FeeProgram at #19/#20;
  * 24 -- three trailing metas #21--#23: the two volume metas of the user and a third one, or, after
    the upgrade, the `pool-v2` address and two more;
  * 26 -- cashback: the volume metas, a third meta, a pair of fee recipients;
  * 27 -- two pre-fee metas at #19/#20, FeeConfig and FeeProgram at #21/#22, then the volume metas,
    a third meta and one fee recipient.

  How addresses are derived and how an instruction name is hashed is `Derivation`: functions of
  which nothing is assumed.
-/
import IronCrab.Cache.PoolCacheUpdate

namespace IronCrab.PumpAmm

open Track (Pubkey TextCodec)
open Cache (parsePubkey)

/-! ## 1. Addresses -/

/-- `Pubkey::default()`. -/
def defaultPubkey : Pubkey := 0

/-- `p.filter(|pk| *pk != Pubkey::default())`. -/
def filterPk (p : Option Pubkey) : Option Pubkey := p.filter fun pk => decide (pk ≠ defaultPubkey)

@[simp] theorem filterPk_none : filterPk none = none := rfl

theorem filterPk_some {pk : Pubkey} (h : pk ≠ defaultPubkey) : filterPk (some pk) = some pk := by
  simp [filterPk, h]

theorem filterPk_eq_some {p : Option Pubkey} {pk : Pubkey} :
    filterPk p = some pk ↔ p = some pk ∧ pk ≠ defaultPubkey := by
  cases p with
  | none => simp
  | some q =>
      by_cases hq : q = defaultPubkey
      · subst hq
        simp only [filterPk, Option.filter_some, ne_eq, not_true, decide_false, Option.some.injEq]
        constructor
        · intro h
          cases h
        · rintro ⟨rfl, h⟩
          exact absurd rfl h
      · rw [filterPk_some hq]
        constructor
        · rintro ⟨⟩
          exact ⟨rfl, hq⟩
        · exact And.left

/-- A pubkey that is written out in the source. -/
@[irreducible] def pubkeyConst (text : String) : Pubkey := (parsePubkey text).getD defaultPubkey

theorem parse_of_pubkeyConst {text : String} (h : pubkeyConst text ≠ defaultPubkey) :
    parsePubkey text = some (pubkeyConst text) := by
  unfold pubkeyConst at h ⊢
  cases hp : parsePubkey text with
  | none =>
      rw [hp] at h
      exact absurd rfl h
  | some pk => rfl

/-- A pubkey has one text. -/
theorem text_of_parsePubkey {text : String} {pk : Pubkey} (h : parsePubkey text = some pk) :
    TextCodec.base58Text pk = text := by
  unfold parsePubkey TextCodec.base58Pubkey at h
  obtain ⟨n, _, h⟩ := Option.bind_eq_some_iff.mp h
  split at h
  next hn =>
    split at h
    next ht =>
      cases h
      exact ht
    next => cases h
  next => cases h

/-- `PUMPFUN_AMM_PROGRAM_ID`. -/
def pumpfunAmmProgramId : Pubkey := pubkeyConst "pAMMBay6oceH9fJKBRHGP5D4bD4sWpmSwMn52FMfXEA"

/-- `PUMPFUN_AMM_FEE_PROGRAM_ID`. -/
def pumpfunAmmFeeProgramId : Pubkey := pubkeyConst "pfeeUxB6jkeY1Hxd7CsFCAjcbHA9rWtchMGdZ6VojVZ"

/-- `PUMPFUN_AMM_FEE_CONFIG`. -/
def pumpfunAmmFeeConfig : Pubkey := pubkeyConst "5PHirr8joyTMp9JMm6nW7hNDVyEYdkzDqazxPD7RaTjx"

/-- `PUMPFUN_AMM_GLOBAL_CONFIG`. -/
def pumpfunAmmGlobalConfig : Pubkey := pubkeyConst "ADyA8hdefvWN2dbGGWFotbzWxrAvLW83WG6QCVXvJKqw"

/-- A seed of a program address. -/
inductive Seed where
  | text (s : String)
  | key (pk : Pubkey)
  deriving DecidableEq

/-- How addresses are derived and instruction names hashed. -/
structure Derivation where
  /-- `Pubkey::find_program_address`, the address. -/
  findProgramAddress : List Seed → Pubkey → Pubkey
  /-- `get_associated_token_address_with_program_id`: owner, mint, token program. -/
  associatedTokenAddress : Pubkey → Pubkey → Pubkey → Pubkey
  /-- `anchor_disc`: the first eight bytes of the hash of `global:` and the name. -/
  anchorDisc : String → List UInt8

namespace Derivation

variable (d : Derivation)

/-- `pump_amm_pool_v2_pda`. -/
def poolV2Pda (baseMint : Pubkey) : Pubkey :=
  d.findProgramAddress [.text "pool-v2", .key baseMint] pumpfunAmmProgramId

/-- `pump_amm_singleton_global_volume_accumulator`. -/
def singletonGlobalVolumeAccumulator : Pubkey :=
  d.findProgramAddress [.text "global_volume_accumulator"] pumpfunAmmProgramId

/-- `pump_amm_canonical_event_authority`. -/
def canonicalEventAuthority : Pubkey :=
  d.findProgramAddress [.text "__event_authority"] pumpfunAmmProgramId

/-- `derive_pump_amm_user_volume_accumulator_for_sell_cashback`. -/
def userVolumeAccumulator (user : Pubkey) : Pubkey :=
  d.findProgramAddress [.text "user_volume_accumulator", .key user] pumpfunAmmProgramId

/-- `pump_amm_sell_cashback_first_two_metas`. -/
def sellCashbackFirstTwoMetas (user quoteMint quoteTokenProgram : Pubkey) : Pubkey × Pubkey :=
  let userVol := d.userVolumeAccumulator user
  (d.associatedTokenAddress userVol quoteMint quoteTokenProgram, userVol)

end Derivation

/-- What is derived for the seeds without a user or a mint, as they are on chain. -/
def singletonDerivation : Derivation where
  findProgramAddress seeds _ :=
    if seeds = [.text "global_volume_accumulator"] then
      pubkeyConst "C2aFPdENg4A2HQsmrd5rTw5TaYBX5Ku887cWjbFKtZpw"
    else if seeds = [.text "__event_authority"] then
      pubkeyConst "GS4CU59F31iL7aR2Q8zVS8DRrcRnXX1yjQ66TqNVQnaR"
    else defaultPubkey
  associatedTokenAddress _ _ _ := defaultPubkey
  anchorDisc name :=
    if name = "sell" then [51, 230, 133, 164, 1, 127, 131, 173]
    else if name = "buy_exact_quote_in" then [198, 46, 21, 82, 180, 217, 232, 112]
    else if name = "buy_exact_quote_in_v2" then [194, 171, 28, 70, 104, 77, 91, 47]
    else []

/-- Account texts are read back as they were written. -/
theorem parse_comp_text : parsePubkey ∘ TextCodec.base58Text = some := by
  funext pk
  rw [Function.comp_apply, Cache.parsePubkey, TextCodec.base58Pubkey_text]

theorem parse_accountTexts (accounts : List Pubkey) :
    (accounts.map TextCodec.base58Text).filterMap parsePubkey = accounts := by
  rw [List.filterMap_map, parse_comp_text, List.filterMap_some]

theorem map_parse_accountTexts (accounts : List Pubkey) :
    (accounts.map TextCodec.base58Text).map parsePubkey = accounts.map some := by
  rw [List.map_map, parse_comp_text]

/-! ## 2. The shapes -/

/-- `PUMPFUN_AMM_SELL_EXTENDED_TOTAL_ACCOUNTS`. -/
def sellExtendedTotalAccounts : Nat := 24

/-- `PUMPFUN_AMM_SELL_CASHBACK_TOTAL_ACCOUNTS`. -/
def sellCashbackTotalAccounts : Nat := 26

/-- `PUMPFUN_AMM_SELL_EXTENDED_V2_TOTAL_ACCOUNTS`. -/
def sellExtendedV2TotalAccounts : Nat := 27

/-- `pump_amm_sell_ix_account_len_supported`. -/
def sellIxAccountLenSupported (n : Nat) : Bool :=
  n == 21 || n == sellExtendedTotalAccounts || n == sellCashbackTotalAccounts ||
    n == sellExtendedV2TotalAccounts

/-- `pump_amm_sell_ix_uses_global_fee_at`. -/
def sellIxUsesGlobalFeeAt (n : Nat) : Option (Nat × Nat) :=
  if n = sellExtendedV2TotalAccounts then some (21, 22)
  else if n = 21 ∨ n = sellExtendedTotalAccounts ∨ n = sellCashbackTotalAccounts then
    some (19, 20)
  else none

/-- `PumpAmmSellExtendedFields`. -/
structure SellExtendedFields where
  requiresExtended : Bool
  requiresPreFeeMetas : Bool
  requiresFeeTail : Bool
  preFeeMeta0 : Option Pubkey
  preFeeMeta1 : Option Pubkey
  tail0 : Option Pubkey
  tail1 : Option Pubkey
  thirdMeta : Option Pubkey
  feeTail0 : Option Pubkey
  feeTail1 : Option Pubkey
  deriving DecidableEq

/-- `pump_amm_sell_extended_fields_from_ix_accounts`. The two branches of the source for 24
    accounts read the same positions. -/
def sellExtendedFieldsFromIxAccounts (accounts : List Pubkey) : Option SellExtendedFields :=
  let n := accounts.length
  if n = 21 then some ⟨false, false, false, none, none, none, none, none, none, none⟩
  else if n = sellExtendedV2TotalAccounts then
    if accounts[21]? = some pumpfunAmmFeeConfig ∧ accounts[22]? = some pumpfunAmmFeeProgramId then
      some ⟨true, true, false, accounts[19]?, accounts[20]?, accounts[23]?, accounts[24]?,
        accounts[25]?, accounts[26]?, none⟩
    else none
  else if n = sellExtendedTotalAccounts then
    some ⟨true, false, false, none, none, accounts[21]?, accounts[22]?, accounts[23]?, none, none⟩
  else if n = sellCashbackTotalAccounts then
    some ⟨true, false, true, none, none, accounts[21]?, accounts[22]?, accounts[23]?, accounts[24]?,
      accounts[25]?⟩
  else none

theorem sellIxAccountLenSupported_iff {n : Nat} :
    sellIxAccountLenSupported n = true ↔ n = 21 ∨ n = 24 ∨ n = 26 ∨ n = 27 := by
  simp [sellIxAccountLenSupported, sellExtendedTotalAccounts, sellCashbackTotalAccounts,
    sellExtendedV2TotalAccounts, or_assoc]

section Fields

variable {accounts : List Pubkey}

theorem extendedFields_base (h : accounts.length = 21) :
    sellExtendedFieldsFromIxAccounts accounts =
      some ⟨false, false, false, none, none, none, none, none, none, none⟩ := by
  simp [sellExtendedFieldsFromIxAccounts, h]

theorem extendedFields_extended (h : accounts.length = 24) :
    sellExtendedFieldsFromIxAccounts accounts =
      some ⟨true, false, false, none, none, accounts[21]?, accounts[22]?, accounts[23]?, none,
        none⟩ := by
  simp [sellExtendedFieldsFromIxAccounts, h, sellExtendedV2TotalAccounts, sellExtendedTotalAccounts]

theorem extendedFields_cashback (h : accounts.length = 26) :
    sellExtendedFieldsFromIxAccounts accounts =
      some ⟨true, false, true, none, none, accounts[21]?, accounts[22]?, accounts[23]?,
        accounts[24]?, accounts[25]?⟩ := by
  simp [sellExtendedFieldsFromIxAccounts, h, sellExtendedV2TotalAccounts, sellExtendedTotalAccounts,
    sellCashbackTotalAccounts]

theorem extendedFields_v2 (h : accounts.length = 27) :
    sellExtendedFieldsFromIxAccounts accounts =
      if accounts[21]? = some pumpfunAmmFeeConfig ∧ accounts[22]? = some pumpfunAmmFeeProgramId then
        some ⟨true, true, false, accounts[19]?, accounts[20]?, accounts[23]?, accounts[24]?,
          accounts[25]?, accounts[26]?, none⟩
      else none := by
  simp [sellExtendedFieldsFromIxAccounts, h, sellExtendedV2TotalAccounts]

end Fields

/-! ## 3. The gate and the count -/

/-- `PumpAmmSellExtendedReadinessParams`. -/
structure SellExtendedReadinessParams where
  sellRequiresExtended : Bool
  thirdMeta : Option Pubkey
  feeTail0 : Option Pubkey
  feeTail1 : Option Pubkey
  sellRequiresFeeTail : Bool
  sellRequiresPreFeeMetas : Bool
  sellPreFeeMeta1 : Option Pubkey
  deriving DecidableEq

/-- `pump_amm_sell_extended_layout_ready`. -/
def sellExtendedLayoutReady (params : SellExtendedReadinessParams) : Bool :=
  if !params.sellRequiresExtended then true
  else
    let thirdOk := (filterPk params.thirdMeta).isSome
    let preFeeOk := if params.sellRequiresPreFeeMetas then (filterPk params.sellPreFeeMeta1).isSome
      else true
    let needsFeeTail :=
      params.sellRequiresFeeTail || params.feeTail0.isSome || params.feeTail1.isSome
    let feeOk :=
      if params.sellRequiresPreFeeMetas then (filterPk params.feeTail0).isSome
      else if needsFeeTail then (filterPk params.feeTail0).isSome && (filterPk params.feeTail1).isSome
      else true
    thirdOk && preFeeOk && feeOk

/-- `pump_amm_inferred_sell_ix_account_count`. -/
def inferredSellIxAccountCount (sellRequiresPreFeeMetas sellRequiresFeeTail
    sellRequiresExtended : Bool) : Nat :=
  if sellRequiresPreFeeMetas then sellExtendedV2TotalAccounts
  else if sellRequiresFeeTail then sellCashbackTotalAccounts
  else if sellRequiresExtended then sellExtendedTotalAccounts
  else 21

end IronCrab.PumpAmm

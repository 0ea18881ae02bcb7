/-
  File:      IronCrab/PumpAmm/SellBuilder.lean
  Subject:   BUILDING A PUMPSWAP SWAP FROM CACHED POOL ACCOUNTS (src/solana/dex/pumpfun_amm.rs,
             `build_swap_ix_from_pool_accounts_with_extended_tail`), and when the readiness gate
             speaks for it.

  A `sell` is nineteen fixed metas, the global fee metas, and the trailing metas of its layout. What
  the builder does with the layout flags is `sellMetas`:

  * `trailing_v2`, `trailing_poolV2`, `trailing_derived` -- the three ways to write the tail;
  * `build_sell` -- a sell with fourteen pool accounts is `sellMetas` and nothing else;
  * `gate_agrees_iff` -- exactly when a layout that the gate calls ready is built with the inferred
    count of accounts.
-/
import IronCrab.PumpAmm.SellLayout

namespace IronCrab.PumpAmm

open Track (Pubkey TextCodec)
open Cache (parsePubkey)

/-! ## 1. Instructions -/

/-- `AccountMeta`. -/
structure AccountMeta where
  pubkey : Pubkey
  isSigner : Bool
  isWritable : Bool
  deriving DecidableEq

/-- `AccountMeta::new`. -/
def AccountMeta.new (pubkey : Pubkey) (isSigner : Bool) : AccountMeta := ⟨pubkey, isSigner, true⟩

/-- `AccountMeta::new_readonly`. -/
def AccountMeta.newReadonly (pubkey : Pubkey) (isSigner : Bool) : AccountMeta :=
  ⟨pubkey, isSigner, false⟩

/-- `Instruction`. -/
structure Instruction where
  programId : Pubkey
  accounts : List AccountMeta
  data : List UInt8
  deriving DecidableEq

/-- The addresses of an instruction's metas, in order. -/
def Instruction.keys (ix : Instruction) : List Pubkey := ix.accounts.map AccountMeta.pubkey

/-- `WSOL_MINT`. -/
def wsolMint : String := "So11111111111111111111111111111111111111112"

/-- `spl_token::id()`. -/
def splTokenId : Pubkey := pubkeyConst "TokenkegQfeZyiNwAJbNbGKPFXCWuBvf9Ss623VQ5DA"

/-- `solana_system_program::id()`, which is the default pubkey. -/
def systemProgramId : Pubkey := pubkeyConst "11111111111111111111111111111111"

/-- `spl_associated_token_account::id()`. -/
def associatedTokenProgramId : Pubkey := pubkeyConst "ATokenGPvbdGVxr1b2hvZbsiqW5xWH25efTNsLJA8knL"

/-- `PUMP_AMM_STUCK_POOL_MARKET`. -/
def stuckPoolMarket : Pubkey := pubkeyConst "GrgDaBg4TGBQCDZk9HHw8JT24RnoDHtQnvgguKxGKStb"

/-- `u64::to_le_bytes`. -/
def toLeBytes (n : UInt64) : List UInt8 :=
  (List.range 8).map fun i => (n.toNat / 256 ^ i).toUInt8

/-- `build_ix_data`. -/
def buildIxData (disc : List UInt8) (a b : UInt64) : List UInt8 := disc ++ toLeBytes a ++ toLeBytes b

/-- `Pubkey::from_str` with the text of its error: a text over 44 bytes, one with a foreign
    character, one of another number of bytes. -/
def pubkeyFromStr (text : String) : Except String Pubkey :=
  match parsePubkey text with
  | some pk => .ok pk
  | none =>
      .error (if text.utf8ByteSize ≤ 44 ∧ (TextCodec.base58.read text.toList).isNone then
        "Invalid Base58 string" else "String is the wrong size")

theorem pubkeyFromStr_of_parse {text : String} {pk : Pubkey} (h : parsePubkey text = some pk) :
    pubkeyFromStr text = .ok pk := by
  unfold pubkeyFromStr
  rw [h]

theorem parse_of_pubkeyFromStr {text : String} {pk : Pubkey} (h : pubkeyFromStr text = .ok pk) :
    parsePubkey text = some pk := by
  unfold pubkeyFromStr at h
  split at h
  next hp =>
    cases h
    exact hp
  next => cases h

/-- `PumpAmmVolumeQuoteAtaCreate`. -/
structure VolumeQuoteAtaCreate where
  walletPayer : Pubkey
  volumeOwner : Pubkey
  quoteMint : Pubkey
  quoteTokenProgram : Pubkey
  deriving DecidableEq

/-! ## 2. The parts of a swap -/

/-- `resolve_pump_amm_base_token_program`. -/
def resolveBaseTokenProgram : Option Pubkey → Except String Pubkey
  | some program => .ok program
  | none => .error "token_program_unknown"

variable (d : Derivation)

/-- `pump_amm_resolve_protocol_fee_accounts`. -/
def resolveProtocolFeeAccounts (protocolFeeRecipient protocolFeeRecipientTa quoteMint
    quoteTokenProgram : Pubkey) : Except String (Pubkey × Pubkey) :=
  match protocolFeeRecipient == defaultPubkey, protocolFeeRecipientTa == defaultPubkey with
  | false, false => .ok (protocolFeeRecipient, protocolFeeRecipientTa)
  | false, true =>
      .ok (protocolFeeRecipient,
        d.associatedTokenAddress protocolFeeRecipient quoteMint quoteTokenProgram)
  | true, false =>
      .error <| "pump_amm: protocol_fee_recipient missing but protocol_fee_recipient_ta is set " ++
        "(invalid fee metadata)"
  | true, true =>
      .error <| "pump_amm: protocol_fee_recipient and protocol_fee_recipient_ta missing — " ++
        "cannot build swap ix without observed fee accounts"

theorem resolveProtocolFeeAccounts_of_set {pfr pfrTa : Pubkey} (h : pfr ≠ defaultPubkey)
    (hta : pfrTa ≠ defaultPubkey) (quoteMint quoteTokenProgram : Pubkey) :
    resolveProtocolFeeAccounts d pfr pfrTa quoteMint quoteTokenProgram = .ok (pfr, pfrTa) := by
  unfold resolveProtocolFeeAccounts
  rw [beq_false_of_ne h, beq_false_of_ne hta]

/-- `build_buy_exact_quote_in_v2_metas_and_data`. -/
def buildBuyExactQuoteInV2MetasAndData (programId poolMarket user globalConfig baseMint quoteMint
    poolBaseVault poolQuoteVault userBaseTa userQuoteTa baseTp quoteTp coinCreatorVaultAta
    eventAuthority : Pubkey) (amountIn minOut : UInt64) :
    Except String (List AccountMeta × List UInt8) :=
  if coinCreatorVaultAta = defaultPubkey then
    .error "pump_amm BUY v2: coin_creator_vault_ata (pool_accounts[9]) missing"
  else
    .ok ([.new poolMarket false, .new user true, .newReadonly globalConfig false,
      .newReadonly baseMint false, .newReadonly quoteMint false, .new userBaseTa false,
      .new userQuoteTa false, .new poolBaseVault false, .new poolQuoteVault false,
      .newReadonly baseTp false, .newReadonly quoteTp false, .newReadonly systemProgramId false,
      .new (d.userVolumeAccumulator user) false, .newReadonly pumpfunAmmFeeConfig false,
      .new coinCreatorVaultAta false, .newReadonly eventAuthority false,
      .newReadonly programId false],
      buildIxData (d.anchorDisc "buy_exact_quote_in_v2") amountIn minOut)

/-- `push_pump_amm_sell_global_fee_metas`. -/
def pushSellGlobalFeeMetas (metas : List AccountMeta) (sellRequiresPreFeeMetas : Bool)
    (preFeeMeta0 : Pubkey) (sellPreFeeMeta1 : Option Pubkey)
    (sellFeeConfig sellFeeProgram : Pubkey) : Except String (List AccountMeta) :=
  if sellRequiresPreFeeMetas then
    if preFeeMeta0 = defaultPubkey then
      .error <| "pump_amm SELL: 27-account layout requires global_volume_accumulator " ++
        "pre_fee_meta_0"
    else
      match filterPk sellPreFeeMeta1 with
      | none =>
          .error <| "pump_amm SELL: 27-account layout requires sell_pre_fee_meta_1 " ++
            "(authoritative observation required)"
      | some preFee1 =>
          .ok (metas ++ [.newReadonly preFeeMeta0 false, .newReadonly preFee1 false,
            .newReadonly sellFeeConfig false, .newReadonly sellFeeProgram false])
  else .ok (metas ++ [.newReadonly sellFeeConfig false, .newReadonly sellFeeProgram false])

/-- `pump_amm_stuck_pool_curated_volume_tails`. -/
def stuckPoolCuratedVolumeTails : Option (Pubkey × Pubkey) := do
  let t0 ← parsePubkey "2HEkAp3PvBNLanbowHLJYQNcHu58ekEEBMRT5xyWxzM1"
  let t1 ← parsePubkey "68gqomxAG38Sj8deqxmrctBUp6hr3Lh2eoqGEyGgrsKo"
  if t0 = defaultPubkey ∨ t1 = defaultPubkey then none else some (t0, t1)

/-- `pump_amm_sell_trailing_is_post_upgrade_pool_v2`. -/
def sellTrailingIsPostUpgradePoolV2 (baseMint tail0 : Pubkey) : Bool :=
  if tail0 = defaultPubkey then false else tail0 == d.poolV2Pda baseMint

/-- `sell_extended_tail_source`. -/
inductive TailSource where
  | validatedCache
  | derivedWalletPool
  | curatedStuckPoolSeed
  | derivedForIntentUser
  deriving DecidableEq

/-- What of the cached layout the trailing metas are written from. -/
structure SellTail where
  thirdMeta : Option Pubkey
  requiresPreFeeMetas : Bool
  requiresFeeTail : Bool
  feeTail0 : Option Pubkey
  feeTail1 : Option Pubkey
  volumeTail0 : Option Pubkey
  volumeTail1 : Option Pubkey
  coldPathPreferDerivedOnMismatch : Bool
  deriving DecidableEq

/-- The two volume metas and where they come from: the cached pair where it is the user's own, else
    the pair derived for the user. -/
def volumeTails (poolMarket user quoteMint quoteTokenProgram : Pubkey) (tail : SellTail) :
    Pubkey × Pubkey × TailSource :=
  let derived := d.sellCashbackFirstTwoMetas user quoteMint quoteTokenProgram
  let curatedTails :=
    if tail.requiresPreFeeMetas && poolMarket == stuckPoolMarket then stuckPoolCuratedVolumeTails
    else none
  match filterPk tail.volumeTail0, filterPk tail.volumeTail1 with
  | some c0, some c1 =>
      if c0 ≠ derived.1 ∨ c1 ≠ derived.2 then
        (derived.1, derived.2,
          if tail.requiresPreFeeMetas then .derivedWalletPool else .derivedForIntentUser)
      else (c0, c1, .validatedCache)
  | _, _ =>
      if tail.requiresPreFeeMetas then
        if tail.coldPathPreferDerivedOnMismatch then (derived.1, derived.2, .derivedWalletPool)
        else
          match curatedTails with
          | some (c0, c1) => (c0, c1, .curatedStuckPoolSeed)
          | none => (derived.1, derived.2, .derivedForIntentUser)
      else (derived.1, derived.2, .derivedForIntentUser)

/-- The cached tails are those of a pool after the upgrade: both set, the first one `pool-v2`. -/
def postUpgradeTails (baseMint : Pubkey) (tail : SellTail) : Option (Pubkey × Pubkey) :=
  match filterPk tail.volumeTail0, filterPk tail.volumeTail1 with
  | some t0, some t1 => if sellTrailingIsPostUpgradePoolV2 d baseMint t0 then some (t0, t1) else none
  | _, _ => none

/-- The error of a layout of 26 accounts without its pair of fee tails. -/
def tier26FeeTailsRequired : String :=
  "pump_amm SELL: tier-26 layout requires sell_extended_fee_tail_0 and sell_extended_fee_tail_1 " ++
    "(authoritative observation required)"

/-- `push_pump_amm_sell_extended_trailing_metas`. The mutability of each meta is that of the two
    tables of the source. -/
def pushSellExtendedTrailingMetas (metas : List AccountMeta)
    (poolMarket baseMint user quoteMint quoteTokenProgram third : Pubkey) (tail : SellTail)
    (applyPostUpgradePoolV2Tail : Bool) :
    Except String (List AccountMeta × Option VolumeQuoteAtaCreate) :=
  let postUpgrade :=
    if !tail.requiresPreFeeMetas && applyPostUpgradePoolV2Tail then postUpgradeTails d baseMint tail
    else none
  match postUpgrade with
  | some (t0, t1) =>
      .ok (metas ++ [.newReadonly t0 false, .newReadonly t1 false, .new third false], none)
  | none =>
      let (userVolWsolAta, userVol, source) :=
        volumeTails d poolMarket user quoteMint quoteTokenProgram tail
      let create : Option VolumeQuoteAtaCreate :=
        if source = .validatedCache then none else some ⟨user, userVol, quoteMint, quoteTokenProgram⟩
      let metas := metas ++ [.new userVolWsolAta false, .new userVol false,
        .newReadonly third false]
      if tail.requiresPreFeeMetas then
        match filterPk tail.feeTail0 with
        | none =>
            .error <| "pump_amm SELL: 27-account layout requires sell_extended_fee_tail_0 " ++
              "(authoritative observation required)"
        | some f0 => .ok (metas ++ [.newReadonly f0 false], create)
      else
        match filterPk tail.feeTail0, filterPk tail.feeTail1 with
        | some f0, some f1 => .ok (metas ++ [.newReadonly f0 false, .new f1 false], create)
        | none, none =>
            if !tail.requiresFeeTail then .ok (metas, create)
            else .error tier26FeeTailsRequired
        | _, _ => .error tier26FeeTailsRequired

/-! ## 3. The builder -/

/-- The layout arguments of the builder. -/
structure SellLayoutArgs where
  requiresCashbackRemaining : Bool
  preFeeMeta1 : Option Pubkey
  tail : SellTail
  deriving DecidableEq

/-- The first nineteen metas of a `sell`. -/
def sellBaseMetas (poolMarket user globalConfig baseMint quoteMint userBaseTa userQuoteTa
    poolBaseVault poolQuoteVault protocolFeeRecipient protocolFeeRecipientTa baseTp quoteTp
    eventAuthority programId coinCreatorVaultAta coinCreatorVaultAuthority : Pubkey) :
    List AccountMeta :=
  [.new poolMarket false, .new user true, .newReadonly globalConfig false,
    .newReadonly baseMint false, .newReadonly quoteMint false, .new userBaseTa false,
    .new userQuoteTa false, .new poolBaseVault false, .new poolQuoteVault false,
    .newReadonly protocolFeeRecipient false, .new protocolFeeRecipientTa false,
    .newReadonly baseTp false, .newReadonly quoteTp false, .newReadonly systemProgramId false,
    .newReadonly associatedTokenProgramId false, .newReadonly eventAuthority false,
    .newReadonly programId false, .new coinCreatorVaultAta false,
    .newReadonly coinCreatorVaultAuthority false]

/-- The layout's part of a `sell`: the global fee metas, then the trailing metas. -/
def sellMetas (baseMetas : List AccountMeta) (poolMarket baseMint user quoteMint quoteTp
    globalVolumeAccumulator : Pubkey) (layout : SellLayoutArgs) :
    Except String (List AccountMeta × Option VolumeQuoteAtaCreate) := do
  let metas ← pushSellGlobalFeeMetas baseMetas layout.tail.requiresPreFeeMetas
    globalVolumeAccumulator layout.preFeeMeta1 pumpfunAmmFeeConfig pumpfunAmmFeeProgramId
  if layout.requiresCashbackRemaining then
    match filterPk layout.tail.thirdMeta with
    | none =>
        .error <| "pump_amm SELL: extended layout required but sell_cashback_third_meta missing " ++
          "(MASTER/Geyser observation required)"
    | some third =>
        pushSellExtendedTrailingMetas d metas poolMarket baseMint user quoteMint quoteTp third
          layout.tail true
  else .ok (metas, none)

/-- `pump_amm_prepend_volume_quote_ata_create_if_needed`; `createAta` is the instruction the token
    library makes. -/
def prependVolumeQuoteAtaCreateIfNeeded (createAta : VolumeQuoteAtaCreate → Instruction)
    (create : Option VolumeQuoteAtaCreate) (swapIx : Instruction) : List Instruction :=
  (create.map createAta).toList ++ [swapIx]

variable (createAta : VolumeQuoteAtaCreate → Instruction)

/-- `build_swap_ix_from_pool_accounts_with_extended_tail`. -/
def buildSwapIxFromPoolAccountsWithExtendedTail (inputMint outputMint : String)
    (amountIn minOut : UInt64) (user : Pubkey) (poolAccounts : List Pubkey)
    (baseTokenProgram : Option Pubkey) (layout : SellLayoutArgs) :
    Except String (List Instruction) := do
  if poolAccounts.length < 14 then
    throw <| "pump_amm expected at least 14 pool_accounts (v1 format), got " ++
      toString poolAccounts.length
  let account := fun i => poolAccounts.getD i defaultPubkey
  let programId := pumpfunAmmProgramId
  let poolMarket := account 0
  let globalConfig := pumpfunAmmGlobalConfig
  let baseMint := account 2
  let quoteMint := account 3
  let poolBaseVault := account 4
  let poolQuoteVault := account 5
  let eventAuthority := d.canonicalEventAuthority
  let coinCreatorVaultAta := account 9
  let coinCreatorVaultAuthority := account 10
  let globalVolumeAccumulator := account 11
  let (expectedBase, isBuy) ←
    if inputMint = wsolMint then pure (outputMint, true)
    else if outputMint = wsolMint then pure (inputMint, false)
    else throw "pump_amm only supports WSOL pairs"
  let expectedBase ← pubkeyFromStr expectedBase
  if expectedBase ≠ baseMint then
    throw <| "pump_amm base_mint mismatch: intent expects " ++ TextCodec.base58Text expectedBase ++
      ", pool_accounts has " ++ TextCodec.base58Text baseMint
  let baseTp ← resolveBaseTokenProgram baseTokenProgram
  let quoteTp := splTokenId
  let (protocolFeeRecipient, protocolFeeRecipientTa) ←
    resolveProtocolFeeAccounts d (account 6) (account 7) quoteMint quoteTp
  let userBaseTa := d.associatedTokenAddress user baseMint baseTp
  let userQuoteTa := d.associatedTokenAddress user quoteMint quoteTp
  let (metas, data, create) ←
    if isBuy then do
      let (metas, data) ← buildBuyExactQuoteInV2MetasAndData d programId poolMarket user globalConfig
        baseMint quoteMint poolBaseVault poolQuoteVault userBaseTa userQuoteTa baseTp quoteTp
        coinCreatorVaultAta eventAuthority amountIn minOut
      pure (metas, data, none)
    else do
      let data := buildIxData (d.anchorDisc "sell") amountIn minOut
      let (metas, create) ← sellMetas d
        (sellBaseMetas poolMarket user globalConfig baseMint quoteMint userBaseTa userQuoteTa
          poolBaseVault poolQuoteVault protocolFeeRecipient protocolFeeRecipientTa baseTp quoteTp
          eventAuthority programId coinCreatorVaultAta coinCreatorVaultAuthority)
        poolMarket baseMint user quoteMint quoteTp globalVolumeAccumulator layout
      pure (metas, data, create)
  return prependVolumeQuoteAtaCreateIfNeeded createAta create ⟨programId, metas, data⟩

/-! ## 4. The metas of a `sell` -/

section Metas

variable {d} {baseMetas : List AccountMeta} {poolMarket baseMint user quoteMint quoteTp gva third : Pubkey}
  {layout : SellLayoutArgs}

/-- The instruction that creates the account of the volume quote tokens, when the pair is not the
    cached one. -/
def volumeCreate (user quoteMint quoteTp : Pubkey) (v : Pubkey × Pubkey × TailSource) :
    Option VolumeQuoteAtaCreate :=
  if v.2.2 = .validatedCache then none else some ⟨user, v.2.1, quoteMint, quoteTp⟩

/-- The base shape: FeeConfig and FeeProgram end the list. -/
theorem sellMetas_base (hext : layout.requiresCashbackRemaining = false)
    (hpre : layout.tail.requiresPreFeeMetas = false) :
    sellMetas d baseMetas poolMarket baseMint user quoteMint quoteTp gva layout =
      .ok (baseMetas ++ [.newReadonly pumpfunAmmFeeConfig false,
        .newReadonly pumpfunAmmFeeProgramId false], none) := by
  simp [sellMetas, pushSellGlobalFeeMetas, hext, hpre]
  rfl

/-- Twenty-seven accounts: the pre-fee pair, the volume metas, the third meta and one fee tail. -/
theorem sellMetas_v2 {pre1 f0 : Pubkey} (hext : layout.requiresCashbackRemaining = true)
    (hpre : layout.tail.requiresPreFeeMetas = true) (hgva : gva ≠ defaultPubkey)
    (hpre1 : filterPk layout.preFeeMeta1 = some pre1)
    (hthird : filterPk layout.tail.thirdMeta = some third)
    (hf0 : filterPk layout.tail.feeTail0 = some f0) :
    let v := volumeTails d poolMarket user quoteMint quoteTp layout.tail
    sellMetas d baseMetas poolMarket baseMint user quoteMint quoteTp gva layout =
      .ok (baseMetas ++ [.newReadonly gva false, .newReadonly pre1 false,
        .newReadonly pumpfunAmmFeeConfig false, .newReadonly pumpfunAmmFeeProgramId false] ++
        [.new v.1 false, .new v.2.1 false, .newReadonly third false] ++ [.newReadonly f0 false],
        volumeCreate user quoteMint quoteTp v) := by
  have hfee : pushSellGlobalFeeMetas baseMetas layout.tail.requiresPreFeeMetas gva
      layout.preFeeMeta1 pumpfunAmmFeeConfig pumpfunAmmFeeProgramId = .ok (baseMetas ++
        [.newReadonly gva false, .newReadonly pre1 false, .newReadonly pumpfunAmmFeeConfig false,
          .newReadonly pumpfunAmmFeeProgramId false]) := by
    unfold pushSellGlobalFeeMetas
    rw [if_pos hpre, if_neg hgva, hpre1]
  intro v
  unfold sellMetas
  rw [hfee]
  simp only [hext, hthird, if_true, bind, Except.bind]
  unfold pushSellExtendedTrailingMetas
  rw [hpre, hf0]
  rfl

/-- Twenty-four accounts after the upgrade: the cached tails and the third meta. -/
theorem sellMetas_poolV2 {t0 t1 : Pubkey} (hext : layout.requiresCashbackRemaining = true)
    (hpre : layout.tail.requiresPreFeeMetas = false)
    (hthird : filterPk layout.tail.thirdMeta = some third)
    (ht : postUpgradeTails d baseMint layout.tail = some (t0, t1)) :
    sellMetas d baseMetas poolMarket baseMint user quoteMint quoteTp gva layout =
      .ok (baseMetas ++ [.newReadonly pumpfunAmmFeeConfig false,
        .newReadonly pumpfunAmmFeeProgramId false] ++
        [.newReadonly t0 false, .newReadonly t1 false, .new third false], none) := by
  simp only [sellMetas, pushSellGlobalFeeMetas, pushSellExtendedTrailingMetas, hext, hpre, hthird,
    ht, if_true, if_false, Bool.not_false, Bool.and_self, Bool.false_eq_true]
  rfl

/-- Twenty-six accounts: the volume metas, the third meta and the pair of fee tails. -/
theorem sellMetas_cashback {f0 f1 : Pubkey} (hext : layout.requiresCashbackRemaining = true)
    (hpre : layout.tail.requiresPreFeeMetas = false)
    (hthird : filterPk layout.tail.thirdMeta = some third)
    (ht : postUpgradeTails d baseMint layout.tail = none)
    (hf0 : filterPk layout.tail.feeTail0 = some f0)
    (hf1 : filterPk layout.tail.feeTail1 = some f1) :
    let v := volumeTails d poolMarket user quoteMint quoteTp layout.tail
    sellMetas d baseMetas poolMarket baseMint user quoteMint quoteTp gva layout =
      .ok (baseMetas ++ [.newReadonly pumpfunAmmFeeConfig false,
        .newReadonly pumpfunAmmFeeProgramId false] ++
        [.new v.1 false, .new v.2.1 false, .newReadonly third false] ++
        [.newReadonly f0 false, .new f1 false], volumeCreate user quoteMint quoteTp v) := by
  simp only [sellMetas, pushSellGlobalFeeMetas, pushSellExtendedTrailingMetas, hext, hpre, hthird,
    ht, hf0, hf1, volumeCreate, if_true, if_false, Bool.not_false, Bool.and_self,
    Bool.false_eq_true]
  rfl

/-- Twenty-four accounts before the upgrade: the volume metas and the third meta. -/
theorem sellMetas_extended (hext : layout.requiresCashbackRemaining = true)
    (hpre : layout.tail.requiresPreFeeMetas = false)
    (hthird : filterPk layout.tail.thirdMeta = some third)
    (ht : postUpgradeTails d baseMint layout.tail = none)
    (hfee : layout.tail.requiresFeeTail = false) (hf0 : filterPk layout.tail.feeTail0 = none)
    (hf1 : filterPk layout.tail.feeTail1 = none) :
    let v := volumeTails d poolMarket user quoteMint quoteTp layout.tail
    sellMetas d baseMetas poolMarket baseMint user quoteMint quoteTp gva layout =
      .ok (baseMetas ++ [.newReadonly pumpfunAmmFeeConfig false,
        .newReadonly pumpfunAmmFeeProgramId false] ++
        [.new v.1 false, .new v.2.1 false, .newReadonly third false],
        volumeCreate user quoteMint quoteTp v) := by
  simp only [sellMetas, pushSellGlobalFeeMetas, pushSellExtendedTrailingMetas, hext, hpre, hthird,
    ht, hfee, hf0, hf1, volumeCreate, if_true, if_false, Bool.not_false, Bool.and_self,
    Bool.false_eq_true]
  rfl

end Metas

/-! ## 5. A token-to-WSOL swap -/

section Build

variable {d} {createAta} {inputMint : String} {amountIn minOut : UInt64} {user baseTp : Pubkey}
  {poolAccounts : List Pubkey} {layout : SellLayoutArgs} {pfr pfrTa : Pubkey}

/-- The nineteen metas of a `sell` from the pool accounts. -/
def sellBaseOf (d : Derivation) (poolAccounts : List Pubkey) (user baseTp pfr pfrTa : Pubkey) :
    List AccountMeta :=
  let account := fun i => poolAccounts.getD i defaultPubkey
  sellBaseMetas (account 0) user pumpfunAmmGlobalConfig (account 2) (account 3)
    (d.associatedTokenAddress user (account 2) baseTp)
    (d.associatedTokenAddress user (account 3) splTokenId) (account 4) (account 5) pfr pfrTa baseTp
    splTokenId d.canonicalEventAuthority pumpfunAmmProgramId (account 9) (account 10)

/-- The layout's part over these metas. -/
def sellMetasOf (d : Derivation) (poolAccounts : List Pubkey) (user baseTp pfr pfrTa : Pubkey)
    (layout : SellLayoutArgs) : Except String (List AccountMeta × Option VolumeQuoteAtaCreate) :=
  let account := fun i => poolAccounts.getD i defaultPubkey
  sellMetas d (sellBaseOf d poolAccounts user baseTp pfr pfrTa) (account 0) (account 2) user
    (account 3) splTokenId (account 11) layout

/-- **A sell is the layout's metas and nothing else.** -/
theorem build_sell (hlen : 14 ≤ poolAccounts.length) (hin : inputMint ≠ wsolMint)
    (hbase : parsePubkey inputMint = some (poolAccounts.getD 2 defaultPubkey))
    (hfee : resolveProtocolFeeAccounts d (poolAccounts.getD 6 defaultPubkey)
      (poolAccounts.getD 7 defaultPubkey) (poolAccounts.getD 3 defaultPubkey) splTokenId =
        .ok (pfr, pfrTa)) :
    buildSwapIxFromPoolAccountsWithExtendedTail d createAta inputMint wsolMint amountIn minOut user
      poolAccounts (some baseTp) layout =
      (sellMetasOf d poolAccounts user baseTp pfr pfrTa layout).map fun m =>
        prependVolumeQuoteAtaCreateIfNeeded createAta m.2
          ⟨pumpfunAmmProgramId, m.1, buildIxData (d.anchorDisc "sell") amountIn minOut⟩ := by
  unfold buildSwapIxFromPoolAccountsWithExtendedTail
  rw [if_neg (Nat.not_lt.mpr hlen)]
  simp only [hin, if_false, if_true, pubkeyFromStr_of_parse hbase, resolveBaseTokenProgram, hfee,
    ne_eq, not_true, bind, Except.bind, pure, Except.pure, Bool.false_eq_true]
  unfold sellMetasOf sellBaseOf
  cases sellMetas d _ _ _ _ _ _ _ layout <;> rfl

theorem sellBaseOf_length : (sellBaseOf d poolAccounts user baseTp pfr pfrTa).length = 19 := rfl

/-- With WSOL as input the swap is a buy of seventeen accounts. -/
theorem build_wsol_input {outputMint : String} {baseTokenProgram : Option Pubkey}
    {ixs : List Instruction}
    (h : buildSwapIxFromPoolAccountsWithExtendedTail d createAta wsolMint outputMint amountIn minOut
      user poolAccounts baseTokenProgram layout = .ok ixs) :
    ∃ metas, metas.length = 17 ∧ ixs = [⟨pumpfunAmmProgramId, metas,
      buildIxData (d.anchorDisc "buy_exact_quote_in_v2") amountIn minOut⟩] := by
  unfold buildSwapIxFromPoolAccountsWithExtendedTail at h
  simp only [if_true, bind, Except.bind, pure, Except.pure, throw, throwThe,
    MonadExceptOf.throw] at h
  split at h
  · cases h
  split at h
  · cases h
  split at h
  · cases h
  split at h
  · cases h
  split at h
  · cases h
  split at h
  next => cases h
  next v hv =>
    cases h
    unfold buildBuyExactQuoteInV2MetasAndData at hv
    split at hv
    · cases hv
    · cases hv
      exact ⟨_, rfl, rfl⟩

/-- What is built has a token program for the base mint and pairs it with WSOL. -/
theorem build_ok {outputMint : String} {baseTokenProgram : Option Pubkey} {ixs : List Instruction}
    (h : buildSwapIxFromPoolAccountsWithExtendedTail d createAta inputMint outputMint amountIn minOut
      user poolAccounts baseTokenProgram layout = .ok ixs) :
    baseTokenProgram.isSome = true ∧ (inputMint = wsolMint ∨
      outputMint = wsolMint ∧ pubkeyFromStr inputMint = .ok (poolAccounts.getD 2 defaultPubkey)) := by
  unfold buildSwapIxFromPoolAccountsWithExtendedTail at h
  simp only [bind, Except.bind, pure, Except.pure, throw, throwThe, MonadExceptOf.throw] at h
  split at h
  · cases h
  have hprogram : ∀ {α : Type} {f : Pubkey → Except String α} {r : α},
      (resolveBaseTokenProgram baseTokenProgram >>= f) = .ok r → baseTokenProgram.isSome = true := by
    intro α f r hr
    cases baseTokenProgram with
    | none => cases hr
    | some _ => rfl
  split at h
  next hin =>
    refine ⟨?_, .inl hin⟩
    split at h
    · cases h
    · split at h
      · cases h
      · exact hprogram h
  next hin =>
    split at h
    next hout =>
      split at h
      next => cases h
      next pk hpk =>
        split at h
        · cases h
        next heq =>
          refine ⟨hprogram h, .inr ⟨hout, ?_⟩⟩
          rw [hpk, not_not.mp heq]
    next => cases h

/-- The builder returns a `sell` of `n` accounts, after the instruction that creates the account of
    the volume quote tokens if there is one. -/
def BuildsSell (d : Derivation) (amountIn minOut : UInt64) (r : Except String (List Instruction))
    (n : Nat) : Prop :=
  ∃ before ix, r = .ok (before ++ [ix]) ∧ ix.programId = pumpfunAmmProgramId ∧
    ix.data = buildIxData (d.anchorDisc "sell") amountIn minOut ∧ ix.accounts.length = n

theorem buildsSell_iff (hlen : 14 ≤ poolAccounts.length) (hin : inputMint ≠ wsolMint)
    (hbase : parsePubkey inputMint = some (poolAccounts.getD 2 defaultPubkey))
    (hfee : resolveProtocolFeeAccounts d (poolAccounts.getD 6 defaultPubkey)
      (poolAccounts.getD 7 defaultPubkey) (poolAccounts.getD 3 defaultPubkey) splTokenId =
        .ok (pfr, pfrTa)) {n : Nat} :
    BuildsSell d amountIn minOut (buildSwapIxFromPoolAccountsWithExtendedTail d createAta inputMint
      wsolMint amountIn minOut user poolAccounts (some baseTp) layout) n ↔
      ∃ m, sellMetasOf d poolAccounts user baseTp pfr pfrTa layout = .ok m ∧ m.1.length = n := by
  rw [build_sell hlen hin hbase hfee]
  unfold BuildsSell
  cases sellMetasOf d poolAccounts user baseTp pfr pfrTa layout with
  | error e =>
      constructor
      · rintro ⟨_, _, h, _⟩
        cases h
      · rintro ⟨_, h, _⟩
        cases h
  | ok m =>
      constructor
      · rintro ⟨before, ix, h, _, _, hn⟩
        obtain ⟨_, hix⟩ := List.append_inj' (Except.ok.inj h) rfl
        cases hix
        exact ⟨m, rfl, hn⟩
      · rintro ⟨m', h, hn⟩
        cases h
        exact ⟨_, _, rfl, rfl, rfl, hn⟩

end Build

/-! ## 6. The gate -/

/-- What the gate is asked of a layout. -/
def SellLayoutArgs.readiness (layout : SellLayoutArgs) : SellExtendedReadinessParams :=
  ⟨layout.requiresCashbackRemaining, layout.tail.thirdMeta, layout.tail.feeTail0,
    layout.tail.feeTail1, layout.tail.requiresFeeTail, layout.tail.requiresPreFeeMetas,
    layout.preFeeMeta1⟩

/-- The count that the flags say. -/
def SellLayoutArgs.inferredCount (layout : SellLayoutArgs) : Nat :=
  inferredSellIxAccountCount layout.tail.requiresPreFeeMetas layout.tail.requiresFeeTail
    layout.requiresCashbackRemaining

theorem SellLayoutArgs.inferredCount_ge (layout : SellLayoutArgs) : 21 ≤ layout.inferredCount := by
  unfold SellLayoutArgs.inferredCount inferredSellIxAccountCount
  split_ifs
  · exact (by decide : 21 ≤ sellExtendedV2TotalAccounts)
  · exact (by decide : 21 ≤ sellCashbackTotalAccounts)
  · exact (by decide : 21 ≤ sellExtendedTotalAccounts)
  · exact Nat.le_refl 21

section Gate

variable {d} {layout : SellLayoutArgs}

/-- A ready extended layout has its third meta. -/
theorem ready_third (h : sellExtendedLayoutReady layout.readiness = true)
    (hext : layout.requiresCashbackRemaining = true) :
    ∃ third, filterPk layout.tail.thirdMeta = some third := by
  simp only [sellExtendedLayoutReady, SellLayoutArgs.readiness, hext, Bool.not_true,
    Bool.false_eq_true, if_false, Bool.and_eq_true] at h
  exact Option.isSome_iff_exists.mp h.1.1

/-- A ready layout of 27 accounts has the second pre-fee meta and the fee tail. -/
theorem ready_v2 (h : sellExtendedLayoutReady layout.readiness = true)
    (hext : layout.requiresCashbackRemaining = true)
    (hpre : layout.tail.requiresPreFeeMetas = true) :
    (∃ pre1, filterPk layout.preFeeMeta1 = some pre1) ∧
      ∃ f0, filterPk layout.tail.feeTail0 = some f0 := by
  simp only [sellExtendedLayoutReady, SellLayoutArgs.readiness, hext, hpre, Bool.not_true,
    Bool.false_eq_true, if_false, if_true, Bool.and_eq_true] at h
  exact ⟨Option.isSome_iff_exists.mp h.1.2, Option.isSome_iff_exists.mp h.2⟩

/-- A ready layout with a fee tail, or that requires them, has both. -/
theorem ready_fees (h : sellExtendedLayoutReady layout.readiness = true)
    (hext : layout.requiresCashbackRemaining = true)
    (hpre : layout.tail.requiresPreFeeMetas = false)
    (hneeds : layout.tail.requiresFeeTail = true ∨ layout.tail.feeTail0 ≠ none ∨
      layout.tail.feeTail1 ≠ none) :
    (∃ f0, filterPk layout.tail.feeTail0 = some f0) ∧
      ∃ f1, filterPk layout.tail.feeTail1 = some f1 := by
  have hn : (layout.tail.requiresFeeTail || layout.tail.feeTail0.isSome ||
      layout.tail.feeTail1.isSome) = true := by
    rcases hneeds with hn | hn | hn
    · simp [hn]
    · simp [Option.isSome_iff_ne_none.mpr hn]
    · simp [Option.isSome_iff_ne_none.mpr hn]
  simp only [sellExtendedLayoutReady, SellLayoutArgs.readiness, hext, hpre, hn, Bool.not_true,
    Bool.false_eq_true, if_false, if_true, Bool.and_eq_true] at h
  exact ⟨Option.isSome_iff_exists.mp h.2.1, Option.isSome_iff_exists.mp h.2.2⟩

/-- The layouts whose flags say what the builder writes. -/
def FlagsTellCount (d : Derivation) (baseMint : Pubkey) (layout : SellLayoutArgs) : Prop :=
  if layout.requiresCashbackRemaining = false then
    layout.tail.requiresPreFeeMetas = false ∧ layout.tail.requiresFeeTail = false
  else if layout.tail.requiresPreFeeMetas then True
  else if postUpgradeTails d baseMint layout.tail ≠ none then layout.tail.requiresFeeTail = false
  else layout.tail.requiresFeeTail = true ∨
    layout.tail.feeTail0 = none ∧ layout.tail.feeTail1 = none

/-- **A ready layout is written with the count of its flags exactly when the flags tell it.** -/
theorem sellMetas_count_iff {baseMetas : List AccountMeta}
    {poolMarket baseMint user quoteMint quoteTp gva : Pubkey} (hbase : baseMetas.length = 19)
    (hgva : gva ≠ defaultPubkey) (h : sellExtendedLayoutReady layout.readiness = true) :
    (∃ m, sellMetas d baseMetas poolMarket baseMint user quoteMint quoteTp gva layout = .ok m ∧
      m.1.length = layout.inferredCount) ↔ FlagsTellCount d baseMint layout := by
  unfold SellLayoutArgs.inferredCount inferredSellIxAccountCount FlagsTellCount
  cases hext : layout.requiresCashbackRemaining with
  | false =>
      cases hpre : layout.tail.requiresPreFeeMetas with
      | false =>
          rw [sellMetas_base hext hpre]
          cases layout.tail.requiresFeeTail <;> simp [hbase, sellCashbackTotalAccounts]
      | true =>
          -- the builder writes at most 23 accounts here, the flags say 27
          simp only [sellMetas, pushSellGlobalFeeMetas, hext, hpre, hgva, if_true, if_false,
            Bool.false_eq_true]
          cases filterPk layout.preFeeMeta1 with
          | none => simp [bind, Except.bind]
          | some pre1 => simp [bind, Except.bind, hbase, sellExtendedV2TotalAccounts]
  | true =>
      obtain ⟨third, hthird⟩ := ready_third h hext
      cases hpre : layout.tail.requiresPreFeeMetas with
      | true =>
          obtain ⟨⟨pre1, hpre1⟩, f0, hf0⟩ := ready_v2 h hext hpre
          rw [sellMetas_v2 hext hpre hgva hpre1 hthird hf0]
          simp [hbase, sellExtendedV2TotalAccounts]
      | false =>
          cases ht : postUpgradeTails d baseMint layout.tail with
          | some t =>
              rw [sellMetas_poolV2 hext hpre hthird ht]
              cases layout.tail.requiresFeeTail <;>
                simp [hbase, sellCashbackTotalAccounts, sellExtendedTotalAccounts]
          | none =>
              by_cases hneeds : layout.tail.requiresFeeTail = true ∨ layout.tail.feeTail0 ≠ none ∨
                  layout.tail.feeTail1 ≠ none
              · obtain ⟨⟨f0, hf0⟩, f1, hf1⟩ := ready_fees h hext hpre hneeds
                rw [sellMetas_cashback hext hpre hthird ht hf0 hf1]
                cases hfee : layout.tail.requiresFeeTail with
                | true => simp [hbase, sellCashbackTotalAccounts]
                | false =>
                    have hset : layout.tail.feeTail0 ≠ none := by
                      intro hnone
                      rw [hnone] at hf0
                      cases hf0
                    simp [hbase, hset, sellExtendedTotalAccounts]
              · simp only [not_or, not_not, Bool.not_eq_true] at hneeds
                obtain ⟨hfee, hf0, hf1⟩ := hneeds
                rw [sellMetas_extended hext hpre hthird ht hfee (by rw [hf0]; rfl)
                  (by rw [hf1]; rfl)]
                simp [hbase, hfee, hf0, hf1, sellExtendedTotalAccounts]

end Gate

/-- **The gate and the builder agree exactly for a layout whose flags tell its count.** -/
theorem gate_agrees_iff (d : Derivation) (createAta : VolumeQuoteAtaCreate → Instruction)
    (inputMint : String) (amountIn minOut : UInt64) (user : Pubkey) (poolAccounts : List Pubkey)
    (baseTokenProgram : Option Pubkey) (layout : SellLayoutArgs) (hlen : poolAccounts.length = 14)
    (hset : ∀ pk ∈ poolAccounts, pk ≠ defaultPubkey)
    (hbase : parsePubkey inputMint = some (poolAccounts.getD 2 defaultPubkey)) :
    (sellExtendedLayoutReady layout.readiness = true →
      BuildsSell d amountIn minOut (buildSwapIxFromPoolAccountsWithExtendedTail d createAta
        inputMint wsolMint amountIn minOut user poolAccounts baseTokenProgram layout)
        layout.inferredCount) ↔
      sellExtendedLayoutReady layout.readiness = false ∨
        inputMint ≠ wsolMint ∧ baseTokenProgram.isSome = true ∧
          FlagsTellCount d (poolAccounts.getD 2 defaultPubkey) layout := by
  have haccount : ∀ i, i < 14 → poolAccounts.getD i defaultPubkey ≠ defaultPubkey := by
    intro i hi
    have hi' : i < poolAccounts.length := hlen ▸ hi
    rw [List.getD_eq_getElem _ _ hi']
    exact hset _ (List.getElem_mem hi')
  cases hready : sellExtendedLayoutReady layout.readiness with
  | false => simp
  | true =>
      simp only [forall_const, Bool.true_eq_false, false_or]
      constructor
      · intro hb
        obtain ⟨before, ix, hok, -, -, hn⟩ := id hb
        have hprogram := (build_ok hok).1
        have hin : inputMint ≠ wsolMint := by
          intro hin
          rw [hin] at hok
          obtain ⟨metas, h17, hixs⟩ := build_wsol_input hok
          obtain ⟨-, hix⟩ := List.append_inj' (show before ++ [ix] = [] ++ [_] from hixs) rfl
          cases hix
          have hge := layout.inferredCount_ge
          have hn' : metas.length = layout.inferredCount := hn
          omega
        obtain ⟨baseTp, rfl⟩ := Option.isSome_iff_exists.mp hprogram
        refine ⟨hin, rfl, ?_⟩
        have hfee := resolveProtocolFeeAccounts_of_set d (haccount 6 (by omega))
          (haccount 7 (by omega)) (poolAccounts.getD 3 defaultPubkey) splTokenId
        rw [buildsSell_iff hlen.ge hin hbase hfee] at hb
        exact (sellMetas_count_iff sellBaseOf_length (haccount 11 (by omega)) hready).mp hb
      · rintro ⟨hin, hprogram, hflags⟩
        obtain ⟨baseTp, rfl⟩ := Option.isSome_iff_exists.mp hprogram
        have hfee := resolveProtocolFeeAccounts_of_set d (haccount 6 (by omega))
          (haccount 7 (by omega)) (poolAccounts.getD 3 defaultPubkey) splTokenId
        rw [buildsSell_iff hlen.ge hin hbase hfee]
        exact (sellMetas_count_iff sellBaseOf_length (haccount 11 (by omega)) hready).mpr hflags

/-- What is derived on chain for the users 101 and 102, the mints 3 and 4 and WSOL. -/
def sampleDerivation : Derivation where
  findProgramAddress seeds program :=
    if seeds = [.text "user_volume_accumulator", .key 101] then
      pubkeyConst "DEu7g6Zu2E7DLsjw5tQnP6MrLYdsEeJsy49VBMGpseFf"
    else if seeds = [.text "user_volume_accumulator", .key 102] then
      pubkeyConst "8jbJvpnwJkNNvBb1sgWt2SS63TLRpC9bK46trZawkp1m"
    else if seeds = [.text "pool-v2", .key 3] then
      pubkeyConst "92cfLANxmDAegCSViY19Sgzy4aCg9WzB9tWJws4yHYNQ"
    else singletonDerivation.findProgramAddress seeds program
  associatedTokenAddress owner mint _ :=
    if owner = 101 then
      if mint = 3 then pubkeyConst "GgtAV8vcnbcRQDWj97nMgXRLKoaLuErosRyM849T5kL9"
      else if mint = 4 then pubkeyConst "5nscVj2GyAwf8oECTcQwxdoyE1atAXnVhhBP2hUxGStR"
      else pubkeyConst "AQcBCmdtTgFxFXNv8AGiPmoUxDH56VRPurWnTNzsVdPz"
    else if owner = 102 then
      if mint = 3 then pubkeyConst "4YmdHDSrrhXxqe9Afky8PRv2BjyqkrELcHwKFpM7XvD5"
      else pubkeyConst "HkfKHVMet5ADXsnseRyUByizo2p2Q2c1CyXq4vztpEWp"
    else if owner = pubkeyConst "DEu7g6Zu2E7DLsjw5tQnP6MrLYdsEeJsy49VBMGpseFf" then
      pubkeyConst "5CBMu5VD6JL2a8ntkKRFbZaYVz1HaSA9pbjXbSdcuyaK"
    else pubkeyConst "GEbKJHHTv5LDVfYP4CL8kiav2ajHzj9W8TzXBFRR7bnh"
  anchorDisc := singletonDerivation.anchorDisc

/-- `create_associated_token_account_idempotent` of the token library. -/
def createIdempotent (create : VolumeQuoteAtaCreate) : Instruction :=
  ⟨associatedTokenProgramId, [.new create.walletPayer true,
    .new (sampleDerivation.associatedTokenAddress create.volumeOwner create.quoteMint
      create.quoteTokenProgram) false, .newReadonly create.volumeOwner false,
    .newReadonly create.quoteMint false, .newReadonly systemProgramId false,
    .newReadonly create.quoteTokenProgram false], [1]⟩

/-- Fourteen accounts of a pool of the mint 3 against WSOL. -/
def samplePool : List Pubkey := [1, 2, 3, pubkeyConst wsolMint, 5, 6, 7, 8, 9, 10, 11, 12, 13, 14]

/-- A layout with its pair of fee tails, required or not. -/
def feeTailLayout (requiresFeeTail : Bool) : SellLayoutArgs :=
  ⟨true, none, ⟨some 23, false, requiresFeeTail, some 24, some 25, none, none, false⟩⟩

theorem samplePool_set : ∀ pk ∈ samplePool, pk ≠ defaultPubkey := by
  have hwsol : pubkeyConst wsolMint ≠ defaultPubkey := by decide +kernel
  simp only [samplePool, List.forall_mem_cons, List.not_mem_nil, false_implies, implies_true,
    and_true]
  exact ⟨by decide, by decide, by decide, hwsol, by decide, by decide, by decide, by decide,
    by decide, by decide, by decide, by decide, by decide, by decide⟩

theorem sampleMint_ne_wsol : TextCodec.base58Text 3 ≠ wsolMint := by
  decide +kernel

theorem gate_agrees_cashback :
    BuildsSell sampleDerivation 1000 1 (buildSwapIxFromPoolAccountsWithExtendedTail sampleDerivation
      createIdempotent (TextCodec.base58Text 3) wsolMint 1000 1 101 samplePool (some splTokenId)
      (feeTailLayout true)) 26 :=
  (gate_agrees_iff sampleDerivation createIdempotent (TextCodec.base58Text 3) 1000 1 101 samplePool
    (some splTokenId) (feeTailLayout true) rfl samplePool_set
    (TextCodec.base58Pubkey_text 3)).mpr (.inr ⟨sampleMint_ne_wsol, rfl, .inl rfl⟩) rfl

/-- Fee tails that are set but not required: the gate passes, the flags say 24 accounts, and the
    builder writes 26. -/
theorem gate_disagrees :
    sellExtendedLayoutReady (feeTailLayout false).readiness = true ∧
      (∀ pk ∈ samplePool, pk ≠ defaultPubkey) ∧
      ¬ BuildsSell sampleDerivation 1000 1 (buildSwapIxFromPoolAccountsWithExtendedTail
        sampleDerivation createIdempotent (TextCodec.base58Text 3) wsolMint 1000 1 101 samplePool
        (some splTokenId) (feeTailLayout false)) (feeTailLayout false).inferredCount := by
  refine ⟨rfl, samplePool_set, ?_⟩
  have h7 : (7 : Pubkey) ≠ defaultPubkey := by decide
  have h8 : (8 : Pubkey) ≠ defaultPubkey := by decide
  have hgva : (12 : Pubkey) ≠ defaultPubkey := by decide
  have hfee := resolveProtocolFeeAccounts_of_set sampleDerivation h7 h8
    (samplePool.getD 3 defaultPubkey) splTokenId
  have hbase : parsePubkey (TextCodec.base58Text 3) = some (samplePool.getD 2 defaultPubkey) :=
    TextCodec.base58Pubkey_text 3
  intro hb
  have hm := (buildsSell_iff (by decide) sampleMint_ne_wsol hbase hfee).mp hb
  have hflags := (sellMetas_count_iff sellBaseOf_length hgva rfl).mp hm
  simp [FlagsTellCount, feeTailLayout, postUpgradeTails] at hflags

end IronCrab.PumpAmm

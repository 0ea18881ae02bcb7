/-
  File:      IronCrab/PumpAmm/SellRoundTrip.lean
  Subject:   OBSERVE, CACHE, REBUILD: a `sell` seen on chain against the `sell` the builder makes of
             what was cached from it (src/solana/dex/pumpfun_amm.rs).

  * `ObservedSell` -- an account list of a supported shape with the canonical accounts in their
    places, and the seller's own accounts in theirs;
  * `forUser` -- the list with the seller's accounts replaced by those of another user;
  * `sell_round_trip` -- whoever sells, the rebuilt instruction has the accounts `forUser` says, and
    so exactly the observed ones for the seller;
  * `wsol_base_not_rebuilt` -- but not when the base mint is WSOL, which the builder takes for a buy.
-/
import IronCrab.PumpAmm.SellBuilder

namespace IronCrab.PumpAmm

open Track (Pubkey TextCodec)
open Cache (parsePubkey)

/-! ## 1. What is cached of an instruction -/

/-- `PumpAmmPoolStatic`, without its diagnostics. -/
structure PoolStatic where
  poolMarket : Pubkey
  globalConfig : Pubkey
  baseMint : Pubkey
  quoteMint : Pubkey
  poolBaseVault : Pubkey
  poolQuoteVault : Pubkey
  protocolFeeRecipient : Pubkey
  protocolFeeRecipientTa : Pubkey
  eventAuthority : Pubkey
  coinCreatorVaultAta : Pubkey
  coinCreatorVaultAuthority : Pubkey
  globalVolumeAccumulator : Pubkey
  feeConfig : Pubkey
  feeProgram : Pubkey
  sellRequiresCashbackRemaining : Bool
  sellCashbackThirdMeta : Option Pubkey
  sellExtendedTail0 : Option Pubkey
  sellExtendedTail1 : Option Pubkey
  sellExtendedFeeTail0 : Option Pubkey
  sellExtendedFeeTail1 : Option Pubkey
  sellRequiresPreFeeMetas : Bool
  sellPreFeeMeta1 : Option Pubkey
  deriving DecidableEq

/-- `as_pool_accounts_v14`. -/
def PoolStatic.asPoolAccountsV14 (pool : PoolStatic) : List Pubkey :=
  [pool.poolMarket, pool.globalConfig, pool.baseMint, pool.quoteMint, pool.poolBaseVault,
    pool.poolQuoteVault, pool.protocolFeeRecipient, pool.protocolFeeRecipientTa,
    pool.eventAuthority, pool.coinCreatorVaultAta, pool.coinCreatorVaultAuthority,
    pool.globalVolumeAccumulator, pool.feeConfig, pool.feeProgram]

variable (d : Derivation)

/-- `pump_amm_pool_static_from_parsed_swap_ix`. -/
def poolStaticFromParsedSwapIx (accAccounts : List String) (ixData : List UInt8) :
    Option PoolStatic :=
  if ixData.length < 8 then none
  else
    let disc := ixData.take 8
    let parsePk := fun i : Nat => accAccounts[i]?.bind parsePubkey
    if disc = d.anchorDisc "buy_exact_quote_in" then
      if accAccounts.length ≠ 23 then none
      else do
        let poolMarket ← parsePk 0
        let globalConfig ← parsePk 2
        let baseMint ← parsePk 3
        let quoteMint ← parsePk 4
        let poolBaseVault ← parsePk 7
        let poolQuoteVault ← parsePk 8
        let protocolFeeRecipient ← parsePk 9
        let protocolFeeRecipientTa ← parsePk 10
        let eventAuthority ← parsePk 15
        let coinCreatorVaultAta ← parsePk 17
        let coinCreatorVaultAuthority ← parsePk 18
        let globalVolumeAccumulator ← parsePk 16
        let feeConfig ← parsePk 20
        let feeProgram ← parsePk 21
        return ⟨poolMarket, globalConfig, baseMint, quoteMint, poolBaseVault, poolQuoteVault,
          protocolFeeRecipient, protocolFeeRecipientTa, eventAuthority, coinCreatorVaultAta,
          coinCreatorVaultAuthority, globalVolumeAccumulator, feeConfig, feeProgram, false, none,
          none, none, none, none, false, none⟩
    else if disc = d.anchorDisc "sell" then
      if !sellIxAccountLenSupported accAccounts.length then none
      else do
        let poolMarket ← parsePk 0
        let baseMint ← parsePk 3
        let ext ← sellExtendedFieldsFromIxAccounts (accAccounts.filterMap parsePubkey)
        let extended := fun p => if ext.requiresExtended then filterPk p else none
        let (feeConfigIx, feeProgramIx) ← sellIxUsesGlobalFeeAt accAccounts.length
        let gva :=
          if ext.requiresPreFeeMetas then
            (filterPk ext.preFeeMeta0).getD d.singletonGlobalVolumeAccumulator
          else d.singletonGlobalVolumeAccumulator
        let globalConfig ← parsePk 2
        let quoteMint ← parsePk 4
        let poolBaseVault ← parsePk 7
        let poolQuoteVault ← parsePk 8
        let protocolFeeRecipient ← parsePk 9
        let protocolFeeRecipientTa ← parsePk 10
        let eventAuthority ← parsePk 15
        let coinCreatorVaultAta ← parsePk 17
        let coinCreatorVaultAuthority ← parsePk 18
        let feeConfig ← parsePk feeConfigIx
        let feeProgram ← parsePk feeProgramIx
        return ⟨poolMarket, globalConfig, baseMint, quoteMint, poolBaseVault, poolQuoteVault,
          protocolFeeRecipient, protocolFeeRecipientTa, eventAuthority, coinCreatorVaultAta,
          coinCreatorVaultAuthority, gva, feeConfig, feeProgram, ext.requiresExtended,
          extended ext.thirdMeta, extended ext.tail0, extended ext.tail1, extended ext.feeTail0,
          extended ext.feeTail1, ext.requiresPreFeeMetas, filterPk ext.preFeeMeta1⟩
    else none

/-- The layout arguments that are passed on from the observed fields. -/
def SellExtendedFields.layoutArgs (ext : SellExtendedFields) (coldPath : Bool) : SellLayoutArgs :=
  ⟨ext.requiresExtended, ext.preFeeMeta1, ⟨ext.thirdMeta, ext.requiresPreFeeMetas,
    ext.requiresFeeTail, ext.feeTail0, ext.feeTail1, ext.tail0, ext.tail1, coldPath⟩⟩

/-! ## 2. The accounts of a `sell` on chain -/

/-- Where the two volume metas of the user stand; nowhere in the base shape and in a 24-account
    `sell` with `pool-v2` at #21. -/
def userVolumePositions (accounts : List Pubkey) : Option (Nat × Nat) :=
  if accounts.length = 27 then some (23, 24)
  else if accounts.length = 26 then some (21, 22)
  else if accounts.length = 24 then
    if accounts[21]? = some (d.poolV2Pda (accounts.getD 3 defaultPubkey)) then none
    else some (21, 22)
  else none

/-- The list with the user's accounts those of this user: the signer, the two token accounts and the
    volume metas. -/
def forUser (user : Pubkey) (accounts : List Pubkey) : List Pubkey :=
  let baseTa := d.associatedTokenAddress user (accounts.getD 3 defaultPubkey)
    (accounts.getD 11 defaultPubkey)
  let quoteTa := d.associatedTokenAddress user (accounts.getD 4 defaultPubkey) splTokenId
  let volume := d.sellCashbackFirstTwoMetas user (accounts.getD 4 defaultPubkey) splTokenId
  let accounts' := ((accounts.set 1 user).set 5 baseTa).set 6 quoteTa
  match userVolumePositions d accounts with
  | some (i, j) => (accounts'.set i volume.1).set j volume.2
  | none => accounts'

/-- The account list of a `sell` of this user. The system program is the default pubkey; nothing
    else in the list is. -/
structure ObservedSell (user : Pubkey) (accounts : List Pubkey) : Prop where
  supported : sellIxAccountLenSupported accounts.length = true
  set : ∀ i, i ≠ 13 → accounts[i]? ≠ some defaultPubkey
  globalConfig : accounts[2]? = some pumpfunAmmGlobalConfig
  quoteProgram : accounts[12]? = some splTokenId
  systemProgram : accounts[13]? = some systemProgramId
  tokenAccountProgram : accounts[14]? = some associatedTokenProgramId
  eventAuthority : accounts[15]? = some d.canonicalEventAuthority
  program : accounts[16]? = some pumpfunAmmProgramId
  feePair : ∀ i j, sellIxUsesGlobalFeeAt accounts.length = some (i, j) →
    accounts[i]? = some pumpfunAmmFeeConfig ∧ accounts[j]? = some pumpfunAmmFeeProgramId
  noPoolV2 : accounts.length = 26 →
    accounts[21]? ≠ some (d.poolV2Pda (accounts.getD 3 defaultPubkey))
  seller : forUser d user accounts = accounts

/-! ## 3. Nineteen accounts and the rest -/

/-- The account at a position. -/
def accountAt (accounts : List Pubkey) (i : Nat) : Pubkey := accounts.getD i defaultPubkey

section Split

variable {d} {user other : Pubkey} {accounts : List Pubkey}

theorem getElem?_eq_accountAt {i : Nat} (h : i < accounts.length) :
    accounts[i]? = some (accountAt accounts i) := by
  unfold accountAt
  rw [List.getD_eq_getElem _ _ h, List.getElem?_eq_getElem h]

theorem accountAt_of_getElem? {i : Nat} {pk : Pubkey} (h : accounts[i]? = some pk) :
    accountAt accounts i = pk := by
  unfold accountAt
  rw [List.getD_eq_getElem?_getD, h]
  rfl

theorem eq_map_accountAt (accounts : List Pubkey) :
    accounts = (List.range accounts.length).map (accountAt accounts) := by
  apply List.ext_getElem (by simp)
  intro i h _
  rw [List.getElem_map, List.getElem_range]
  exact (List.getD_eq_getElem _ _ h).symm

theorem nineteen_append (h : 19 ≤ accounts.length) :
    accounts = (List.range 19).map (accountAt accounts) ++ accounts.drop 19 := by
  have htake : accounts.take 19 = (List.range 19).map (accountAt accounts) := by
    conv => lhs; rw [eq_map_accountAt accounts]
    rw [← List.map_take, List.take_range, Nat.min_eq_left h]
  rw [← htake, List.take_append_drop]

theorem ObservedSell.nineteen_le (h : ObservedSell d user accounts) : 19 ≤ accounts.length := by
  rcases sellIxAccountLenSupported_iff.mp h.supported with hn | hn | hn | hn <;> omega

/-- The first nineteen accounts of the list for a user. -/
def baseFor (d : Derivation) (user : Pubkey) (accounts : List Pubkey) : List Pubkey :=
  let a := accountAt accounts
  [a 0, user, pumpfunAmmGlobalConfig, a 3, a 4, d.associatedTokenAddress user (a 3) (a 11),
    d.associatedTokenAddress user (a 4) splTokenId, a 7, a 8, a 9, a 10, a 11, splTokenId,
    systemProgramId, associatedTokenProgramId, d.canonicalEventAuthority, pumpfunAmmProgramId, a 17,
    a 18]

/-- The trailing accounts with the volume metas of a user. -/
def restFor (d : Derivation) (user : Pubkey) (accounts : List Pubkey) : List Pubkey :=
  let volume := d.sellCashbackFirstTwoMetas user (accountAt accounts 4) splTokenId
  match userVolumePositions d accounts with
  | some (i, j) => ((accounts.drop 19).set (i - 19) volume.1).set (j - 19) volume.2
  | none => accounts.drop 19

theorem userVolumePositions_ge {i j : Nat} (h : userVolumePositions d accounts = some (i, j)) :
    19 ≤ i ∧ 19 ≤ j := by
  unfold userVolumePositions at h
  split_ifs at h <;> cases h <;> omega

/-- Setting the signer and the two token accounts touches the first nineteen only. -/
theorem set_nineteen (a : Nat → Pubkey) (rest : List Pubkey) (x y z : Pubkey) :
    ((((List.range 19).map a ++ rest).set 1 x).set 5 y).set 6 z =
      [a 0, x, a 2, a 3, a 4, y, z, a 7, a 8, a 9, a 10, a 11, a 12, a 13, a 14, a 15, a 16, a 17,
        a 18] ++ rest := rfl

theorem restFor_none (hpos : userVolumePositions d accounts = none) :
    restFor d other accounts = accounts.drop 19 := by
  unfold restFor
  rw [hpos]

theorem restFor_some {i j : Nat} (hpos : userVolumePositions d accounts = some (i, j)) :
    restFor d other accounts =
      ((accounts.drop 19).set (i - 19)
        (d.sellCashbackFirstTwoMetas other (accountAt accounts 4) splTokenId).1).set (j - 19)
        (d.sellCashbackFirstTwoMetas other (accountAt accounts 4) splTokenId).2 := by
  unfold restFor
  rw [hpos]

/-- **The list for another user is its nineteen accounts and the rest for that user.** -/
theorem ObservedSell.forUser_eq (h : ObservedSell d user accounts) (other : Pubkey) :
    forUser d other accounts = baseFor d other accounts ++ restFor d other accounts := by
  have hset : ((accounts.set 1 other).set 5 (d.associatedTokenAddress other (accountAt accounts 3)
      (accountAt accounts 11))).set 6 (d.associatedTokenAddress other (accountAt accounts 4)
        splTokenId) = baseFor d other accounts ++ accounts.drop 19 := by
    have hpart := set_nineteen (accountAt accounts) (accounts.drop 19) other
      (d.associatedTokenAddress other (accountAt accounts 3) (accountAt accounts 11))
      (d.associatedTokenAddress other (accountAt accounts 4) splTokenId)
    rw [← nineteen_append h.nineteen_le, accountAt_of_getElem? h.globalConfig,
      accountAt_of_getElem? h.quoteProgram, accountAt_of_getElem? h.systemProgram,
      accountAt_of_getElem? h.tokenAccountProgram, accountAt_of_getElem? h.eventAuthority,
      accountAt_of_getElem? h.program] at hpart
    exact hpart
  unfold accountAt at hset
  simp only [forUser, restFor, hset]
  cases hpos : userVolumePositions d accounts with
  | none => rfl
  | some p =>
      obtain ⟨i, j⟩ := p
      obtain ⟨hi, hj⟩ := userVolumePositions_ge hpos
      have hlen : (baseFor d other accounts).length = 19 := rfl
      show ((baseFor d other accounts ++ accounts.drop 19).set i _).set j _ = _
      rw [List.set_append_right _ _ (hlen ▸ hi), List.set_append_right _ _ (hlen ▸ hj), hlen]
      rfl

theorem drop_nineteen (m : Nat) (hn : accounts.length = 19 + m) :
    accounts.drop 19 = (List.range m).map fun i => accountAt accounts (19 + i) := by
  conv => lhs; rw [eq_map_accountAt accounts, hn]
  rw [← List.map_drop, List.range_add, List.drop_left' (by simp), List.map_map]
  rfl

end Split

/-! ## 4. What is cached is what stood there -/

section Cached

variable {d} {user : Pubkey} {accounts : List Pubkey}

/-- The pool accounts of a list, with FeeConfig, FeeProgram and the given volume accumulator. -/
def v14Of (accounts : List Pubkey) (gva : Pubkey) : List Pubkey :=
  let a := accountAt accounts
  [a 0, a 2, a 3, a 4, a 7, a 8, a 9, a 10, a 15, a 17, a 18, gva, pumpfunAmmFeeConfig,
    pumpfunAmmFeeProgramId]

/-- The volume accumulator that is cached: the first pre-fee meta of 27 accounts. -/
def gvaOf (d : Derivation) (ext : SellExtendedFields) : Pubkey :=
  if ext.requiresPreFeeMetas then
    (filterPk ext.preFeeMeta0).getD d.singletonGlobalVolumeAccumulator
  else d.singletonGlobalVolumeAccumulator

theorem poolStatic_observed {accTexts : List String} {ixData : List UInt8}
    {ext : SellExtendedFields} (h : ObservedSell d user accounts)
    (hdisc : d.anchorDisc "buy_exact_quote_in" ≠ d.anchorDisc "sell")
    (htexts : accTexts.map parsePubkey = accounts.map some) (hlen : 8 ≤ ixData.length)
    (hdata : ixData.take 8 = d.anchorDisc "sell")
    (hext : sellExtendedFieldsFromIxAccounts accounts = some ext) :
    ∃ pool, poolStaticFromParsedSwapIx d accTexts ixData = some pool ∧
      pool.asPoolAccountsV14 = v14Of accounts (gvaOf d ext) := by
  have hparse : ∀ i, i < accounts.length →
      (accTexts[i]?.bind parsePubkey) = some (accountAt accounts i) := by
    intro i hi
    have hat := congrArg (fun l => l[i]?) htexts
    simp only [List.getElem?_map, getElem?_eq_accountAt hi, Option.map_some] at hat
    obtain ⟨text, htext, hpk⟩ := Option.map_eq_some_iff.mp hat
    rw [htext]
    exact hpk
  have hcount : accTexts.length = accounts.length := by
    simpa using congrArg List.length htexts
  have hfilter : accTexts.filterMap parsePubkey = accounts := by
    calc accTexts.filterMap parsePubkey
        = (accTexts.map parsePubkey).filterMap id := by rw [List.filterMap_map]; rfl
      _ = (accounts.map some).filterMap id := by rw [htexts]
      _ = accounts := by rw [List.filterMap_map]; exact List.filterMap_some
  have h19 := h.nineteen_le
  obtain ⟨i, j, hij⟩ : ∃ i j, sellIxUsesGlobalFeeAt accounts.length = some (i, j) := by
    rcases sellIxAccountLenSupported_iff.mp h.supported with hn | hn | hn | hn <;> rw [hn]
    · exact ⟨_, _, rfl⟩
    · exact ⟨_, _, rfl⟩
    · exact ⟨_, _, rfl⟩
    · exact ⟨_, _, rfl⟩
  obtain ⟨hi, hj⟩ := h.feePair i j hij
  have hpi := hparse i (List.getElem?_eq_some_iff.mp hi).1
  have hpj := hparse j (List.getElem?_eq_some_iff.mp hj).1
  rw [accountAt_of_getElem? hi] at hpi
  rw [accountAt_of_getElem? hj] at hpj
  unfold poolStaticFromParsedSwapIx
  rw [if_neg (by omega)]
  simp only [hdata, hdisc.symm, if_false, if_true, hcount, h.supported, hfilter, hext, hij, hpi, hpj,
    hparse 0 (by omega), hparse 2 (by omega), hparse 3 (by omega), hparse 4 (by omega),
    hparse 7 (by omega), hparse 8 (by omega), hparse 9 (by omega), hparse 10 (by omega),
    hparse 15 (by omega), hparse 17 (by omega), hparse 18 (by omega), Bool.not_true,
    Bool.false_eq_true, Option.bind_eq_bind, Option.bind_some, Option.pure_def]
  exact ⟨_, rfl, rfl⟩

end Cached

/-! ## 5. What is rebuilt -/

section Rebuild

variable {d} {user : Pubkey} {accounts : List Pubkey} (h : ObservedSell d user accounts)
  (other : Pubkey) (coldPath : Bool)

include h

theorem ObservedSell.filterPk_accountAt {i : Nat} (hi : i < accounts.length) (hne : i ≠ 13) :
    filterPk accounts[i]? = some (accountAt accounts i) := by
  have hset := h.set i hne
  rw [getElem?_eq_accountAt hi] at hset ⊢
  exact filterPk_some fun he => hset (by rw [he])

omit h in
/-- With both tails cached the volume metas are the user's own, whichever branch is taken. -/
theorem volumeTails_cached {c0 c1 poolMarket quoteMint quoteTp : Pubkey} (tail : SellTail)
    (h0 : filterPk tail.volumeTail0 = some c0) (h1 : filterPk tail.volumeTail1 = some c1) :
    let v := volumeTails d poolMarket other quoteMint quoteTp tail
    let own := d.sellCashbackFirstTwoMetas other quoteMint quoteTp
    v.1 = own.1 ∧ v.2.1 = own.2 := by
  intro v own
  show (volumeTails d poolMarket other quoteMint quoteTp tail).1 = _ ∧
    (volumeTails d poolMarket other quoteMint quoteTp tail).2.1 = _
  unfold volumeTails
  rw [h0, h1]
  simp only
  split
  next => exact ⟨rfl, rfl⟩
  next heq =>
    simp only [ne_eq, not_or, not_not] at heq
    exact heq

omit h in
theorem postUpgradeTails_of_poolV2 {t0 t1 baseMint : Pubkey} {tail : SellTail}
    (h0 : filterPk tail.volumeTail0 = some t0) (h1 : filterPk tail.volumeTail1 = some t1)
    (hv2 : t0 = d.poolV2Pda baseMint) : postUpgradeTails d baseMint tail = some (t0, t1) := by
  have hne : t0 ≠ defaultPubkey := (filterPk_eq_some.mp h0).2
  unfold postUpgradeTails sellTrailingIsPostUpgradePoolV2
  rw [h0, h1]
  simp [hne, ← hv2]

omit h in
theorem postUpgradeTails_of_not_poolV2 {t0 baseMint : Pubkey} {tail : SellTail}
    (h0 : filterPk tail.volumeTail0 = some t0) (hv2 : t0 ≠ d.poolV2Pda baseMint) :
    postUpgradeTails d baseMint tail = none := by
  unfold postUpgradeTails sellTrailingIsPostUpgradePoolV2
  rw [h0]
  cases filterPk tail.volumeTail1 with
  | none => rfl
  | some t1 => simp [hv2]

/-- The accounts that the builder writes for the pool and the layout of the list are those of
    `forUser`. -/
def Rebuilds (d : Derivation) (other : Pubkey) (accounts : List Pubkey) (ext : SellExtendedFields)
    (coldPath : Bool) : Prop :=
  ∃ m, sellMetasOf d (v14Of accounts (gvaOf d ext)) other (accountAt accounts 11)
      (accountAt accounts 9) (accountAt accounts 10) (ext.layoutArgs coldPath) = .ok m ∧
    m.1.map AccountMeta.pubkey = forUser d other accounts

omit h in
theorem Rebuilds.of {ext : SellExtendedFields} {metas : List AccountMeta}
    {create : Option VolumeQuoteAtaCreate}
    (hm : sellMetas d (sellBaseOf d (v14Of accounts (gvaOf d ext)) other (accountAt accounts 11)
      (accountAt accounts 9) (accountAt accounts 10)) (accountAt accounts 0) (accountAt accounts 3)
      other (accountAt accounts 4) splTokenId (gvaOf d ext) (ext.layoutArgs coldPath) =
        .ok (metas, create))
    (hkeys : metas.map AccountMeta.pubkey = forUser d other accounts) :
    Rebuilds d other accounts ext coldPath := ⟨(metas, create), hm, hkeys⟩

theorem rebuild_base (hn : accounts.length = 21) : ∃ ext,
    sellExtendedFieldsFromIxAccounts accounts = some ext ∧
      Rebuilds d other accounts ext coldPath := by
  refine ⟨_, extendedFields_base hn, .of other coldPath (sellMetas_base rfl rfl) ?_⟩
  have hpos : userVolumePositions d accounts = none := by simp [userVolumePositions, hn]
  have hfee := h.feePair 19 20 (by rw [hn]; rfl)
  have hrest : restFor d other accounts = [accountAt accounts 19, accountAt accounts 20] := by
    unfold restFor
    rw [hpos]
    exact drop_nineteen 2 hn
  rw [h.forUser_eq, hrest, accountAt_of_getElem? hfee.1, accountAt_of_getElem? hfee.2]
  rfl

omit h in
theorem userVolumePositions_24 (hn : accounts.length = 24) :
    userVolumePositions d accounts =
      if accountAt accounts 21 = d.poolV2Pda (accountAt accounts 3) then none else some (21, 22) := by
  unfold userVolumePositions
  rw [getElem?_eq_accountAt (by omega)]
  simp only [hn, Option.some.injEq]
  rfl

theorem rebuild_extended (hn : accounts.length = 24) : ∃ ext,
    sellExtendedFieldsFromIxAccounts accounts = some ext ∧
      Rebuilds d other accounts ext coldPath := by
  have hread := fun i (hi : i < 24 ∧ i ≠ 13) => h.filterPk_accountAt (hn ▸ hi.1) hi.2
  obtain ⟨ext, hfields, hreq, hpre, hfee, ht0, ht1, ht2, hf0, hf1⟩ : ∃ ext,
      sellExtendedFieldsFromIxAccounts accounts = some ext ∧ ext.requiresExtended = true ∧
      ext.requiresPreFeeMetas = false ∧ ext.requiresFeeTail = false ∧
      filterPk ext.tail0 = some (accountAt accounts 21) ∧
      filterPk ext.tail1 = some (accountAt accounts 22) ∧
      filterPk ext.thirdMeta = some (accountAt accounts 23) ∧
      filterPk ext.feeTail0 = none ∧ filterPk ext.feeTail1 = none :=
    ⟨_, extendedFields_extended hn, rfl, rfl, rfl, hread 21 (by omega), hread 22 (by omega),
      hread 23 (by omega), rfl, rfl⟩
  refine ⟨ext, hfields, ?_⟩
  have hglobal := h.feePair 19 20 (by rw [hn]; rfl)
  have hdrop : accounts.drop 19 = [pumpfunAmmFeeConfig, pumpfunAmmFeeProgramId,
      accountAt accounts 21, accountAt accounts 22, accountAt accounts 23] := by
    rw [drop_nineteen 5 hn, ← accountAt_of_getElem? hglobal.1, ← accountAt_of_getElem? hglobal.2]
    rfl
  have hpos := userVolumePositions_24 (d := d) hn
  by_cases hv2 : accountAt accounts 21 = d.poolV2Pda (accountAt accounts 3)
  · rw [if_pos hv2] at hpos
    refine .of other coldPath
      (sellMetas_poolV2 hreq hpre ht2 (postUpgradeTails_of_poolV2 ht0 ht1 hv2)) ?_
    rw [h.forUser_eq, restFor_none hpos, hdrop]
    rfl
  · rw [if_neg hv2] at hpos
    refine .of other coldPath
      (sellMetas_extended hreq hpre ht2 (postUpgradeTails_of_not_poolV2 ht0 hv2) hfee hf0 hf1) ?_
    obtain ⟨hv0, hv1⟩ := volumeTails_cached other (ext.layoutArgs coldPath).tail ht0 ht1
    rw [h.forUser_eq, restFor_some hpos, hdrop]
    simp only [List.map_append, List.map_cons, List.map_nil]
    rw [← hv0, ← hv1]
    rfl

theorem rebuild_cashback (hn : accounts.length = 26) : ∃ ext,
    sellExtendedFieldsFromIxAccounts accounts = some ext ∧
      Rebuilds d other accounts ext coldPath := by
  have hread := fun i (hi : i < 26 ∧ i ≠ 13) => h.filterPk_accountAt (hn ▸ hi.1) hi.2
  obtain ⟨ext, hfields, hreq, hpre, ht0, ht1, ht2, hf0, hf1⟩ : ∃ ext,
      sellExtendedFieldsFromIxAccounts accounts = some ext ∧ ext.requiresExtended = true ∧
      ext.requiresPreFeeMetas = false ∧ filterPk ext.tail0 = some (accountAt accounts 21) ∧
      filterPk ext.tail1 = some (accountAt accounts 22) ∧
      filterPk ext.thirdMeta = some (accountAt accounts 23) ∧
      filterPk ext.feeTail0 = some (accountAt accounts 24) ∧
      filterPk ext.feeTail1 = some (accountAt accounts 25) :=
    ⟨_, extendedFields_cashback hn, rfl, rfl, hread 21 (by omega), hread 22 (by omega),
      hread 23 (by omega), hread 24 (by omega), hread 25 (by omega)⟩
  refine ⟨ext, hfields, ?_⟩
  have hglobal := h.feePair 19 20 (by rw [hn]; rfl)
  have hdrop : accounts.drop 19 = [pumpfunAmmFeeConfig, pumpfunAmmFeeProgramId,
      accountAt accounts 21, accountAt accounts 22, accountAt accounts 23, accountAt accounts 24,
      accountAt accounts 25] := by
    rw [drop_nineteen 7 hn, ← accountAt_of_getElem? hglobal.1, ← accountAt_of_getElem? hglobal.2]
    rfl
  have hpos : userVolumePositions d accounts = some (21, 22) := by simp [userVolumePositions, hn]
  have hv2 : accountAt accounts 21 ≠ d.poolV2Pda (accountAt accounts 3) := by
    have hno := h.noPoolV2 hn
    rw [getElem?_eq_accountAt (by omega)] at hno
    exact fun he => hno (congrArg some he)
  refine .of other coldPath
    (sellMetas_cashback hreq hpre ht2 (postUpgradeTails_of_not_poolV2 ht0 hv2) hf0 hf1) ?_
  obtain ⟨hv0, hv1⟩ := volumeTails_cached other (ext.layoutArgs coldPath).tail ht0 ht1
  rw [h.forUser_eq, restFor_some hpos, hdrop]
  simp only [List.map_append, List.map_cons, List.map_nil]
  rw [← hv0, ← hv1]
  rfl

theorem rebuild_v2 (hn : accounts.length = 27) : ∃ ext,
    sellExtendedFieldsFromIxAccounts accounts = some ext ∧
      Rebuilds d other accounts ext coldPath := by
  have hread := fun i (hi : i < 27 ∧ i ≠ 13) => h.filterPk_accountAt (hn ▸ hi.1) hi.2
  have hglobal := h.feePair 21 22 (by rw [hn]; rfl)
  obtain ⟨ext, hfields, hreq, hpre, hp0, hp1, ht0, ht1, ht2, hf0⟩ : ∃ ext,
      sellExtendedFieldsFromIxAccounts accounts = some ext ∧ ext.requiresExtended = true ∧
      ext.requiresPreFeeMetas = true ∧ filterPk ext.preFeeMeta0 = some (accountAt accounts 19) ∧
      filterPk ext.preFeeMeta1 = some (accountAt accounts 20) ∧
      filterPk ext.tail0 = some (accountAt accounts 23) ∧
      filterPk ext.tail1 = some (accountAt accounts 24) ∧
      filterPk ext.thirdMeta = some (accountAt accounts 25) ∧
      filterPk ext.feeTail0 = some (accountAt accounts 26) :=
    ⟨_, (extendedFields_v2 hn).trans (if_pos hglobal), rfl, rfl, hread 19 (by omega),
      hread 20 (by omega), hread 23 (by omega), hread 24 (by omega), hread 25 (by omega),
      hread 26 (by omega)⟩
  refine ⟨ext, hfields, ?_⟩
  have hgva : gvaOf d ext = accountAt accounts 19 := by
    unfold gvaOf
    rw [if_pos hpre, hp0]
    rfl
  have hdrop : accounts.drop 19 = [gvaOf d ext, accountAt accounts 20, pumpfunAmmFeeConfig,
      pumpfunAmmFeeProgramId, accountAt accounts 23, accountAt accounts 24, accountAt accounts 25,
      accountAt accounts 26] := by
    rw [drop_nineteen 8 hn, hgva, ← accountAt_of_getElem? hglobal.1,
      ← accountAt_of_getElem? hglobal.2]
    rfl
  have hpos : userVolumePositions d accounts = some (23, 24) := by simp [userVolumePositions, hn]
  have hset : gvaOf d ext ≠ defaultPubkey := hgva ▸ (filterPk_eq_some.mp hp0).2
  refine .of other coldPath (sellMetas_v2 hreq hpre hset hp1 ht2 hf0) ?_
  obtain ⟨hv0, hv1⟩ := volumeTails_cached other (ext.layoutArgs coldPath).tail ht0 ht1
  rw [h.forUser_eq, restFor_some hpos, hdrop]
  simp only [List.map_append, List.map_cons, List.map_nil]
  rw [← hv0, ← hv1]
  rfl

end Rebuild

/-! ## 6. The round trip -/

/-- The result is a `sell` with these accounts, after at most the instruction that creates the
    account of the volume quote tokens. -/
def IsSell (d : Derivation) (amountIn minOut : UInt64) (r : Except String (List Instruction))
    (keys : List Pubkey) : Prop :=
  ∃ before ix, r = .ok (before ++ [ix]) ∧ before.length ≤ 1 ∧
    ix.programId = pumpfunAmmProgramId ∧
    ix.data = buildIxData (d.anchorDisc "sell") amountIn minOut ∧ ix.keys = keys

/-- The observed list is cached and rebuilt: for every user the rebuilt `sell` has the accounts of
    the list for that user, and so the observed accounts for the seller. -/
def RoundTrips (d : Derivation) (createAta : VolumeQuoteAtaCreate → Instruction)
    (inputMint outputMint : String) (accTexts : List String) (ixData : List UInt8)
    (accounts : List Pubkey) (user : Pubkey) : Prop :=
  ∃ pool ext, poolStaticFromParsedSwapIx d accTexts ixData = some pool ∧
    sellExtendedFieldsFromIxAccounts accounts = some ext ∧
    ∀ (amountIn minOut : UInt64) (coldPath : Bool),
      let build := fun u => buildSwapIxFromPoolAccountsWithExtendedTail d createAta inputMint
        outputMint amountIn minOut u pool.asPoolAccountsV14 accounts[11]? (ext.layoutArgs coldPath)
      IsSell d amountIn minOut (build user) accounts ∧
        ∀ other, IsSell d amountIn minOut (build other) (forUser d other accounts)

section Trip

variable {d} {user : Pubkey} {accounts : List Pubkey}

theorem ObservedSell.rebuild (h : ObservedSell d user accounts) (other : Pubkey) (coldPath : Bool) :
    ∃ ext, sellExtendedFieldsFromIxAccounts accounts = some ext ∧
      Rebuilds d other accounts ext coldPath := by
  rcases sellIxAccountLenSupported_iff.mp h.supported with hn | hn | hn | hn
  · exact rebuild_base h other coldPath hn
  · exact rebuild_extended h other coldPath hn
  · exact rebuild_cashback h other coldPath hn
  · exact rebuild_v2 h other coldPath hn

/-- WSOL has one text. -/
theorem text_ne_wsol {pk : Pubkey} (h : pk ≠ pubkeyConst wsolMint) :
    TextCodec.base58Text pk ≠ wsolMint := by
  intro ht
  have hparse : parsePubkey wsolMint = some pk := ht ▸ TextCodec.base58Pubkey_text pk
  apply h
  unfold pubkeyConst
  rw [hparse]
  rfl

end Trip

/-- **A `sell` survives being observed, cached and rebuilt**, when its base mint is not WSOL. -/
theorem sell_round_trip (d : Derivation) (createAta : VolumeQuoteAtaCreate → Instruction)
    (accTexts : List String) (ixData : List UInt8) (accounts : List Pubkey) (user : Pubkey)
    (hdisc : d.anchorDisc "buy_exact_quote_in" ≠ d.anchorDisc "sell")
    (htexts : accTexts.map parsePubkey = accounts.map some) (hlen : 8 ≤ ixData.length)
    (hdata : ixData.take 8 = d.anchorDisc "sell") (h : ObservedSell d user accounts)
    (hbase : accounts[3]? ≠ some (pubkeyConst wsolMint)) :
    RoundTrips d createAta (TextCodec.base58Text (accountAt accounts 3)) wsolMint accTexts ixData
      accounts user := by
  obtain ⟨ext, hext, -⟩ := h.rebuild user false
  obtain ⟨pool, hpool, hv14⟩ := poolStatic_observed h hdisc htexts hlen hdata hext
  have h19 := h.nineteen_le
  refine ⟨pool, ext, hpool, hext, fun amountIn minOut coldPath => ?_⟩
  rw [hv14, getElem?_eq_accountAt (by omega : 11 < accounts.length)]
  have hother : ∀ other, IsSell d amountIn minOut (buildSwapIxFromPoolAccountsWithExtendedTail d
      createAta (TextCodec.base58Text (accountAt accounts 3)) wsolMint amountIn minOut other
      (v14Of accounts (gvaOf d ext)) (some (accountAt accounts 11)) (ext.layoutArgs coldPath))
      (forUser d other accounts) := by
    intro other
    obtain ⟨ext', hext', m, hm, hkeys⟩ := h.rebuild other coldPath
    cases hext.symm.trans hext'
    have hset : ∀ i, i < accounts.length → i ≠ 13 → accountAt accounts i ≠ defaultPubkey :=
      fun i hi hne => (filterPk_eq_some.mp (h.filterPk_accountAt hi hne)).2
    have hfee := resolveProtocolFeeAccounts_of_set d (hset 9 (by omega) (by omega))
      (hset 10 (by omega) (by omega)) (accountAt accounts 4) splTokenId
    have hin : TextCodec.base58Text (accountAt accounts 3) ≠ wsolMint := by
      apply text_ne_wsol
      rw [getElem?_eq_accountAt (by omega : 3 < accounts.length)] at hbase
      exact fun he => hbase (congrArg some he)
    have hv : 14 ≤ (v14Of accounts (gvaOf d ext)).length := Nat.le_refl 14
    rw [build_sell hv hin (TextCodec.base58Pubkey_text _) hfee, hm]
    refine ⟨_, _, rfl, ?_, rfl, rfl, hkeys⟩
    cases m.2 with
    | none => exact Nat.zero_le 1
    | some c => exact Nat.le_refl 1
  refine ⟨?_, hother⟩
  have hseller := hother user
  rw [h.seller] at hseller
  exact hseller

/-- The first nineteen accounts of a `sell` of the user 101. -/
def sampleBase (baseMint quoteMint : Pubkey) : List Pubkey :=
  baseFor sampleDerivation 101
    [1, 101, 2, baseMint, quoteMint, 5, 6, 7, 8, 9, 10, splTokenId, 12, 13, 14, 15, 16, 17, 18]

/-- The accounts of a cashback `sell` of the mint 3 against WSOL. -/
def cashbackAccounts : List Pubkey :=
  let volume := sampleDerivation.sellCashbackFirstTwoMetas 101 (pubkeyConst wsolMint) splTokenId
  sampleBase 3 (pubkeyConst wsolMint) ++
    [pumpfunAmmFeeConfig, pumpfunAmmFeeProgramId, volume.1, volume.2, 24, 25, 26]

/-- The accounts of a base `sell` of WSOL against the mint 4. -/
def wsolBaseAccounts : List Pubkey :=
  sampleBase (pubkeyConst wsolMint) 4 ++ [pumpfunAmmFeeConfig, pumpfunAmmFeeProgramId]

/-- The canonical accounts are no default pubkeys; the system program alone is. -/
theorem canonical_set : pumpfunAmmGlobalConfig ≠ defaultPubkey ∧
    pubkeyConst wsolMint ≠ defaultPubkey ∧ splTokenId ≠ defaultPubkey ∧
    associatedTokenProgramId ≠ defaultPubkey ∧
    sampleDerivation.canonicalEventAuthority ≠ defaultPubkey ∧
    pumpfunAmmProgramId ≠ defaultPubkey ∧ pumpfunAmmFeeConfig ≠ defaultPubkey ∧
    pumpfunAmmFeeProgramId ≠ defaultPubkey := by
  refine ⟨?_, ?_, ?_, ?_, ?_, ?_, ?_, ?_⟩
  all_goals decide +kernel

theorem sampleAta_set (mint program : Pubkey) :
    sampleDerivation.associatedTokenAddress 101 mint program ≠ defaultPubkey := by
  have h3 : pubkeyConst "GgtAV8vcnbcRQDWj97nMgXRLKoaLuErosRyM849T5kL9" ≠ defaultPubkey := by
    decide +kernel
  have h4 : pubkeyConst "5nscVj2GyAwf8oECTcQwxdoyE1atAXnVhhBP2hUxGStR" ≠ defaultPubkey := by
    decide +kernel
  have hw : pubkeyConst "AQcBCmdtTgFxFXNv8AGiPmoUxDH56VRPurWnTNzsVdPz" ≠ defaultPubkey := by
    decide +kernel
  simp only [sampleDerivation, if_true]
  split_ifs
  · exact h3
  · exact h4
  · exact hw

/-- A list with one account in the middle is set elsewhere when its two ends are. -/
theorem set_of_parts (before after : List Pubkey) (pk : Pubkey) (hlen : before.length = 13)
    (hb : ∀ p ∈ before, p ≠ defaultPubkey) (ha : ∀ p ∈ after, p ≠ defaultPubkey) (i : Nat)
    (hi : i ≠ 13) : (before ++ pk :: after)[i]? ≠ some defaultPubkey := by
  intro he
  rcases Nat.lt_or_ge i 13 with hlt | hge
  · rw [List.getElem?_append_left (hlen ▸ hlt)] at he
    exact hb _ (List.mem_of_getElem? he) rfl
  · rw [List.getElem?_append_right (hlen ▸ hge), hlen] at he
    obtain ⟨k, hk⟩ : ∃ k, i - 13 = k + 1 := ⟨i - 14, by omega⟩
    rw [hk, List.getElem?_cons_succ] at he
    exact ha _ (List.mem_of_getElem? he) rfl

theorem sampleBase_set {baseMint quoteMint : Pubkey} {rest : List Pubkey}
    (hbase : baseMint ≠ defaultPubkey) (hquote : quoteMint ≠ defaultPubkey)
    (hrest : ∀ pk ∈ rest, pk ≠ defaultPubkey) (i : Nat) (hi : i ≠ 13) :
    (sampleBase baseMint quoteMint ++ rest)[i]? ≠ some defaultPubkey := by
  obtain ⟨hgc, hwsol, hspl, hata, hea, hprog, hfc, hfp⟩ := canonical_set
  refine set_of_parts [1, 101, pumpfunAmmGlobalConfig, baseMint, quoteMint,
    sampleDerivation.associatedTokenAddress 101 baseMint splTokenId,
    sampleDerivation.associatedTokenAddress 101 quoteMint splTokenId, 7, 8, 9, 10, splTokenId,
    splTokenId] ([associatedTokenProgramId, sampleDerivation.canonicalEventAuthority,
      pumpfunAmmProgramId, 17, 18] ++ rest) systemProgramId rfl ?_ ?_ i hi
  · simp only [List.forall_mem_cons, List.not_mem_nil, false_implies, implies_true, and_true]
    exact ⟨by decide, by decide, hgc, hbase, hquote, sampleAta_set _ _, sampleAta_set _ _,
      by decide, by decide, by decide, by decide, hspl, hspl⟩
  · simp only [List.forall_mem_append, List.forall_mem_cons, List.not_mem_nil, false_implies,
      implies_true, and_true]
    exact ⟨⟨hata, hea, hprog, by decide, by decide⟩, hrest⟩

theorem cashbackAccounts_observed : ObservedSell sampleDerivation 101 cashbackAccounts where
  supported := rfl
  set := by
    have h0 : (sampleDerivation.sellCashbackFirstTwoMetas 101 (pubkeyConst wsolMint)
        splTokenId).1 ≠ defaultPubkey := by decide +kernel
    have h1 : (sampleDerivation.sellCashbackFirstTwoMetas 101 (pubkeyConst wsolMint)
        splTokenId).2 ≠ defaultPubkey := by decide +kernel
    obtain ⟨-, hwsol, -, -, -, -, hfc, hfp⟩ := canonical_set
    refine sampleBase_set (by decide) hwsol ?_
    simp only [List.forall_mem_cons, List.not_mem_nil, false_implies, implies_true, and_true]
    exact ⟨hfc, hfp, h0, h1, by decide, by decide, by decide⟩
  globalConfig := rfl
  quoteProgram := rfl
  systemProgram := rfl
  tokenAccountProgram := rfl
  eventAuthority := rfl
  program := rfl
  feePair i j hij := by
    cases hij
    exact ⟨rfl, rfl⟩
  noPoolV2 _ := by
    have hne : (sampleDerivation.sellCashbackFirstTwoMetas 101 (pubkeyConst wsolMint)
        splTokenId).1 ≠ sampleDerivation.poolV2Pda 3 := by decide +kernel
    exact fun he => hne (Option.some.inj he)
  seller := rfl

theorem sell_round_trip_cashback : RoundTrips sampleDerivation createIdempotent
    (TextCodec.base58Text (accountAt cashbackAccounts 3)) wsolMint
    (cashbackAccounts.map TextCodec.base58Text) [51, 230, 133, 164, 1, 127, 131, 173]
    cashbackAccounts 101 := by
  have hne : (3 : Pubkey) ≠ pubkeyConst wsolMint := by decide +kernel
  exact sell_round_trip sampleDerivation createIdempotent _ _ _ 101 (by decide)
    (map_parse_accountTexts cashbackAccounts) (by decide) rfl cashbackAccounts_observed
    fun he => hne (Option.some.inj he)

theorem wsolBaseAccounts_observed : ObservedSell sampleDerivation 101 wsolBaseAccounts where
  supported := rfl
  set := by
    obtain ⟨-, hwsol, -, -, -, -, hfc, hfp⟩ := canonical_set
    refine sampleBase_set hwsol (by decide) ?_
    simp only [List.forall_mem_cons, List.not_mem_nil, false_implies, implies_true, and_true]
    exact ⟨hfc, hfp⟩
  globalConfig := rfl
  quoteProgram := rfl
  systemProgram := rfl
  tokenAccountProgram := rfl
  eventAuthority := rfl
  program := rfl
  feePair i j hij := by
    cases hij
    exact ⟨rfl, rfl⟩
  noPoolV2 hn := by cases hn
  seller := rfl

/-- A `sell` whose base mint is WSOL is not rebuilt, whatever mints the builder is given: with WSOL
    as input it builds a buy. -/
theorem wsol_base_not_rebuilt : ObservedSell sampleDerivation 101 wsolBaseAccounts ∧
    ∀ inputMint outputMint, ¬ RoundTrips sampleDerivation createIdempotent inputMint outputMint
      (wsolBaseAccounts.map TextCodec.base58Text) [51, 230, 133, 164, 1, 127, 131, 173]
      wsolBaseAccounts 101 := by
  refine ⟨wsolBaseAccounts_observed, fun inputMint outputMint htrip => ?_⟩
  obtain ⟨pool, ext, hpool, hext, hsell⟩ := htrip
  have htexts := map_parse_accountTexts wsolBaseAccounts
  obtain ⟨pool', hpool', hv14⟩ := poolStatic_observed wsolBaseAccounts_observed (by decide) htexts
    (show 8 ≤ ([51, 230, 133, 164, 1, 127, 131, 173] : List UInt8).length from Nat.le_refl 8) rfl hext
  cases hpool.symm.trans hpool'
  obtain ⟨before, ix, hok, -, -, -, hkeys⟩ := (hsell 0 0 false).1
  have hin : inputMint = wsolMint := by
    rcases (build_ok hok).2 with hin | ⟨_, hparse⟩
    · exact hin
    · rw [hv14] at hparse
      have hpk : pubkeyFromStr inputMint = .ok (pubkeyConst wsolMint) := hparse
      rw [← text_of_parsePubkey (parse_of_pubkeyFromStr hpk)]
      exact text_of_parsePubkey (parse_of_pubkeyConst canonical_set.2.1)
  subst hin
  obtain ⟨metas, h17, hixs⟩ := build_wsol_input hok
  obtain ⟨-, hix⟩ := List.append_inj' (show before ++ [ix] = [] ++ [_] from hixs) rfl
  cases hix
  have hcount : metas.length = wsolBaseAccounts.length := by
    rw [← hkeys]
    exact (List.length_map _).symm
  rw [h17] at hcount
  cases hcount

end IronCrab.PumpAmm

/-
  File:      IronCrab/Solana/TradeDirection.lean
  Subject:   THE DIRECTION OF A PARSED TRADE AND THE BALANCES (src/solana/dex_parser.rs).

  Each parser takes the direction from a hint of its own, while the balances of the user say which
  way the swap went.

  * `tryParseTopLevel_of_isOf` -- the parser of the instruction's program decides;
  * `raydium_agrees_iff` -- a discriminator and two balance rows at instruction positions;
  * `cpmm_agrees_iff`, `orca_agrees_iff` -- the order of the two mints;
  * `meteora_parse_iff`, `meteora_agrees` -- the balances of the user's two accounts;
  * `direction_agrees_iff` -- so when the trade agrees with the balances.
-/
import IronCrab.Solana.DexDispatch
import Mathlib.Data.List.Find

namespace IronCrab.Solana

open Track (Pubkey TextCodec)
open Cache (parsePubkey)
open PumpAmm

/-! ## 1. Balances as the rows show them -/

/-- A row shows this balance of a mint. -/
def Shown (rows : List TokenBalance) (index : UInt8) (mint : Pubkey) (amount : UInt64) : Prop :=
  ∃ b, rows.find? (fun b => b.accountIndex = index) = some b ∧
    b.mint = TextCodec.base58Text mint ∧ parseU64 b.amount = some amount

/-- A row shows this balance of a mint, or no row an empty one. -/
def ShownOrEmpty (rows : List TokenBalance) (index : UInt8) (mint : Pubkey) (amount : UInt64) :
    Prop :=
  Shown rows index mint amount ∨
    rows.find? (fun b => b.accountIndex = index) = none ∧ amount = 0

/-- The first of two amounts is below the second, or above. -/
def Towards (rising : Bool) (before after : UInt64) : Prop :=
  if rising then before < after else after < before

/-- A row that is found at an index is a row of that index. -/
theorem mem_of_find_row {rows : List TokenBalance} {index : UInt8} {b : TokenBalance}
    (h : rows.find? (fun b => b.accountIndex = index) = some b) :
    b ∈ rows ∧ b.accountIndex = index :=
  ⟨List.mem_of_find?_eq_some h,
    of_decide_eq_true (List.find?_some (p := fun b : TokenBalance => b.accountIndex = index) h)⟩

theorem Shown.unique {rows : List TokenBalance} {index : UInt8} {mint : Pubkey} {a a' : UInt64}
    (h : Shown rows index mint a) (h' : ShownOrEmpty rows index mint a') : a' = a := by
  obtain ⟨b, hb, -, ha⟩ := h
  obtain ⟨b', hb', -, ha'⟩ | ⟨hnone, -⟩ := h'
  · rw [hb] at hb'
    cases hb'
    rw [ha] at ha'
    exact (Option.some.inj ha').symm
  · rw [hb] at hnone
    cases hnone

/-- Two amounts move towards a side exactly as their difference says. -/
theorem towards_iff {rising : Bool} {before after : UInt64} :
    Towards rising before after ↔
      ((after.toNat : Int) - before.toNat).sign = if rising then 1 else -1 := by
  cases rising with
  | true =>
      rw [if_pos rfl, Int.sign_eq_one_iff_pos]
      change before < after ↔ _
      rw [UInt64.lt_iff_toNat_lt]
      omega
  | false =>
      rw [if_neg Bool.false_ne_true, Int.sign_eq_neg_one_iff_neg]
      change after < before ↔ _
      rw [UInt64.lt_iff_toNat_lt]
      omega

namespace GeyserTransactionUpdate

variable (d : Derivation) (poolLookup : PoolLookup) (update : GeyserTransactionUpdate)

/-- **An account's balance of a mint moves**, from and to what the rows at its position among the
    keys show; an account without a row is empty. -/
def Moves (account mint : Pubkey) (rising : Bool) : Prop :=
  ∃ index before after, update.accountIndexOf account = some index ∧
    ShownOrEmpty update.preTokenBalances index mint before ∧
    ShownOrEmpty update.postTokenBalances index mint after ∧ Towards rising before after

/-- The same with a row before and a row after. -/
def RowsMove (account mint : Pubkey) (rising : Bool) : Prop :=
  ∃ index before after, update.accountIndexOf account = some index ∧
    Shown update.preTokenBalances index mint before ∧
    Shown update.postTokenBalances index mint after ∧ Towards rising before after

/-- The rows of an account are of one mint. -/
def RowsOf (account mint : Pubkey) : Prop :=
  ∀ index, update.accountIndexOf account = some index →
    ∀ b ∈ update.preTokenBalances ++ update.postTokenBalances, b.accountIndex = index →
      b.mint = TextCodec.base58Text mint

/-- **The delta of a user account** is the mint of its rows and the difference of their amounts. -/
theorem userTokenDelta_iff {account mint m : Pubkey} {delta : Int}
    (hrows : update.RowsOf account mint) :
    update.userTokenDelta account = some (m, delta) ↔
      m = mint ∧ ∃ index before after, update.accountIndexOf account = some index ∧
        Shown update.preTokenBalances index mint before ∧
        Shown update.postTokenBalances index mint after ∧
        delta = (after.toNat : Int) - before.toNat := by
  unfold userTokenDelta
  cases hindex : update.accountIndexOf account with
  | none => simp
  | some index =>
      have hpre : update.preTokenBalances.find? (fun b =>
          b.accountIndex = index ∧ b.mint = TextCodec.base58Text mint) =
          update.preTokenBalances.find? fun b => b.accountIndex = index := by
        refine List.find?_congr fun b hb => ?_
        rw [Bool.eq_iff_iff, decide_eq_true_iff, decide_eq_true_iff]
        exact and_iff_left_of_imp (hrows index hindex b (List.mem_append_left _ hb))
      constructor
      · intro h
        obtain ⟨index', hindex', h⟩ := Option.bind_eq_some_iff.mp h
        cases hindex'
        obtain ⟨post, hpost, h⟩ := Option.bind_eq_some_iff.mp h
        obtain ⟨hpostmem, hpostindex⟩ := mem_of_find_row hpost
        have hmint : post.mint = TextCodec.base58Text mint :=
          hrows index hindex post (List.mem_append_right _ hpostmem) hpostindex
        obtain ⟨pre, hpre', h⟩ := Option.bind_eq_some_iff.mp h
        rw [hmint, hpre] at hpre'
        obtain ⟨hpremem, hpreindex⟩ := mem_of_find_row hpre'
        obtain ⟨before, hbefore, h⟩ := Option.bind_eq_some_iff.mp h
        obtain ⟨after, hafter, h⟩ := Option.bind_eq_some_iff.mp h
        obtain ⟨m', hm', h⟩ := Option.bind_eq_some_iff.mp h
        rw [hmint, parsePubkey, TextCodec.base58Pubkey_text] at hm'
        cases hm'
        cases h
        exact ⟨rfl, index, before, after, rfl,
          ⟨pre, hpre', hrows index hindex pre (List.mem_append_left _ hpremem) hpreindex, hbefore⟩,
          ⟨post, hpost, hmint, hafter⟩, rfl⟩
      · rintro ⟨rfl, index', before, after, hindex', ⟨pre, hpre', -, hbefore⟩,
          ⟨post, hpost, hmint, hafter⟩, rfl⟩
        cases hindex'
        refine Option.bind_eq_some_iff.mpr ⟨index, rfl, ?_⟩
        refine Option.bind_eq_some_iff.mpr ⟨post, hpost, ?_⟩
        refine Option.bind_eq_some_iff.mpr ⟨pre, ?_, ?_⟩
        · rw [hmint, hpre, hpre']
        · refine Option.bind_eq_some_iff.mpr ⟨before, hbefore, ?_⟩
          refine Option.bind_eq_some_iff.mpr ⟨after, hafter, ?_⟩
          refine Option.bind_eq_some_iff.mpr ⟨m, ?_, rfl⟩
          rw [hmint, parsePubkey, TextCodec.base58Pubkey_text]

/-! ## 2. The instruction of a transaction -/

/-- The update as the parser of its instruction reads it. -/
def parsed : GeyserTransactionUpdate :=
  if update.trailerProgram.isSome then update.stripped else update

/-- **The instruction is of a program**: the trailer names it, or without a trailer it is among the
    keys, and no other known program among them takes the instruction. -/
def IsOf (program : Pubkey) : Prop :=
  update.trailerProgram = some program ∨
    update.trailerProgram = none ∧ program ∈ known ∧ program ∈ update.accountKeys ∧
      ∀ other ∈ known, other ∈ update.accountKeys → other ≠ program →
        update.parseProgram d poolLookup other = none

/-- The trade of a transaction, if there is one, is of this mint against WSOL in this direction. -/
def DirectionAgrees (mint : Pubkey) (rising : Bool) : Prop :=
  ∀ t, update.parseTransactionUpdateWithPoolLookup d poolLookup = some (.trade t) →
    t.mint = mint ∧ t.quoteMint = solMint ∧ t.isBuy = rising

section Instruction

variable {d poolLookup update} {program mint : Pubkey} {rising : Bool} {t : Trade}

/-- **The parser of the instruction's program decides.** -/
theorem tryParseTopLevel_of_isOf (h : update.IsOf d poolLookup program) :
    update.tryParseTopLevel d poolLookup =
      update.parsed.parseProgram d poolLookup program := by
  obtain htrailer | ⟨htrailer, hknown, hkeys, hrest⟩ := h
  · unfold tryParseTopLevel parsed
    rw [htrailer]
    rfl
  · have hmem : program ∈ known.filter fun p => p ∈ update.accountKeys :=
      List.mem_filter.mpr ⟨hknown, decide_eq_true hkeys⟩
    have hkept := Sift.filterMap_eq_toList (f := update.parseProgram d poolLookup)
      (nodup_known.filter _) hmem fun other hother hne =>
        hrest other (List.mem_filter.mp hother).1
          (of_decide_eq_true (List.mem_filter.mp hother).2) hne
    have hparsed : update.parsed = update := by
      unfold parsed
      rw [htrailer]
      rfl
    unfold tryParseTopLevel
    rw [htrailer, hparsed]
    dsimp only
    split
    case h_1 hnil =>
        rw [hnil] at hmem
        exact absurd hmem List.not_mem_nil
    case h_2 program' hone =>
        rw [hone, List.mem_singleton] at hmem
        rw [hmem]
    case h_3 =>
        rw [hkept]
        cases update.parseProgram d poolLookup program <;> rfl

/-- Where the instruction gives a trade, that trade is the transaction's. -/
theorem directionAgrees_of_some (h : update.IsOf d poolLookup program)
    (ht : update.parsed.parseProgram d poolLookup program = some (.trade t)) :
    update.DirectionAgrees d poolLookup mint rising ↔
      t.mint = mint ∧ t.quoteMint = solMint ∧ t.isBuy = rising := by
  have hparse : update.parseTransactionUpdateWithPoolLookup d poolLookup = some (.trade t) := by
    unfold parseTransactionUpdateWithPoolLookup
    rw [tryParseTopLevel_of_isOf h, ht]
  unfold DirectionAgrees
  rw [hparse]
  constructor
  · intro hall
    exact hall t rfl
  · intro hagrees t' ht'
    cases ht'
    exact hagrees

/-- Where it gives nothing, the inner instructions are scanned. -/
theorem parse_of_none (h : update.IsOf d poolLookup program)
    (hnone : update.parsed.parseProgram d poolLookup program = none) :
    update.parseTransactionUpdateWithPoolLookup d poolLookup =
      update.tryParseInnerInstructions d poolLookup := by
  unfold parseTransactionUpdateWithPoolLookup
  rw [tryParseTopLevel_of_isOf h, hnone]
  dsimp only
  split
  · rfl
  case isFalse hempty =>
      unfold tryParseInnerInstructions
      rw [not_not.mp hempty]
      rfl

/-- A scan over unknown programs finds nothing. -/
theorem scanInner_of_unknown {instructions : List InnerInstruction}
    (h : ∀ inner ∈ instructions, ∀ p, update.accountKeys[inner.programIdIndex.toNat]? = some p →
      p ∉ known) :
    update.scanInner d poolLookup none instructions = none := by
  induction instructions with
  | nil => rfl
  | cons inner rest ih =>
      have hrest := ih fun inner' hmem => h inner' (List.mem_cons_of_mem _ hmem)
      unfold scanInner
      split
      · exact hrest
      · split
        · exact hrest
        case h_2 p hp =>
            have hunknown := h inner List.mem_cons_self p hp
            simp only [known, List.mem_cons, List.not_mem_nil, or_false, not_or] at hunknown
            have hnone : (update.synth inner).parseProgram d poolLookup p = none := by
              simp only [parseProgram, if_neg hunknown.1, if_neg hunknown.2.1,
                if_neg hunknown.2.2.1, if_neg hunknown.2.2.2.1, if_neg hunknown.2.2.2.2.1,
                if_neg hunknown.2.2.2.2.2]
            rw [hnone]
            exact hrest

end Instruction

/-! ## 3. Raydium -/

/-- A swap of Raydium AMM v4: its discriminator, accounts and data. -/
structure RaydiumSwap : Prop where
  disc : update.instructionData.head? = some raydiumSwapBaseIn ∨
    update.instructionData.head? = some raydiumSwapBaseOut
  accounts : 17 ≤ update.instructionAccounts.length
  data : 17 ≤ update.instructionData.length

/-- A swap of Raydium CPMM between WSOL and a mint. -/
structure CpmmSwap (mint : Pubkey) : Prop where
  disc : update.instructionData.take 8 = raydiumCpmmSwap
  accounts : 12 ≤ update.instructionAccounts.length
  data : 24 ≤ update.instructionData.length
  mints : update.instructionAccounts[10]? = some solMint ∧
      update.instructionAccounts[11]? = some mint ∨
    update.instructionAccounts[10]? = some mint ∧ update.instructionAccounts[11]? = some solMint

/-- The mint that the first row at an index names, the default pubkey without one. -/
def mintAtRow (rows : List TokenBalance) (index : UInt8) : Pubkey :=
  ((rows.find? fun b => b.accountIndex = index).bind fun b => parsePubkey b.mint).getD defaultPubkey

/-- No row names a third mint before one that names WSOL. -/
def WsolFirst (rows : List TokenBalance) (mint : Pubkey) : Prop :=
  ∀ pre b post m, rows = pre ++ b :: post → parsePubkey b.mint = some m → m ≠ mint → m ≠ solMint →
    ∃ b' ∈ pre, parsePubkey b'.mint = some solMint

/-- **What the Raydium parser takes for the direction agrees**: a base-out swap is a buy, the row at
    index 15 after a buy (14 before a sell) names the mint, and the first other mint is WSOL. -/
structure RaydiumHint (mint : Pubkey) (rising : Bool) : Prop where
  disc : update.instructionData.head? = some raydiumSwapBaseOut ↔ rising = true
  row : (if rising then mintAtRow update.postTokenBalances 15
    else mintAtRow update.preTokenBalances 14) = mint
  quote : WsolFirst update.postTokenBalances mint

section Raydium

variable {d poolLookup update} {mint : Pubkey} {rising : Bool}

theorem traderOr_isSome (update : GeyserTransactionUpdate) (position : Nat)
    (h : position < update.instructionAccounts.length) :
    ∃ trader, update.traderOr position = some trader := by
  unfold traderOr
  rw [List.getElem?_eq_getElem h]
  cases update.accountKeys.head? with
  | none => exact ⟨_, rfl⟩
  | some payer => exact ⟨payer, rfl⟩

/-- **The quote mint is WSOL exactly when no third mint stands before it.** -/
theorem extractQuoteMint_eq_solMint_iff {rows : List TokenBalance} (hmint : mint ≠ solMint) :
    extractQuoteMint rows mint = solMint ↔ WsolFirst rows mint := by
  unfold extractQuoteMint
  induction rows with
  | nil => simp [WsolFirst]
  | cons b rows ih =>
      have hskip (hb : ∀ m, parsePubkey b.mint = some m → m = mint) :
          WsolFirst (b :: rows) mint ↔ WsolFirst rows mint := by
        constructor
        · intro h pre b' post m hrows hb' hne hsol
          obtain ⟨b'', hmem, hb''⟩ := h (b :: pre) b' post m (by rw [hrows]; rfl) hb' hne hsol
          obtain rfl | hmem := List.mem_cons.mp hmem
          · exact absurd (hb _ hb'').symm hmint
          · exact ⟨b'', hmem, hb''⟩
        · intro h pre b' post m hrows hb' hne hsol
          cases pre with
          | nil =>
              obtain ⟨rfl, -⟩ := List.cons.inj hrows
              exact absurd (hb m hb') hne
          | cons b₀ pre =>
              obtain ⟨rfl, hrest⟩ := List.cons.inj hrows
              obtain ⟨b'', hmem, hb''⟩ := h pre b' post m hrest hb' hne hsol
              exact ⟨b'', List.mem_cons_of_mem _ hmem, hb''⟩
      cases hb : parsePubkey b.mint with
      | none =>
          rw [List.filterMap_cons_none (f := fun b : TokenBalance => parsePubkey b.mint) hb, ih,
            hskip]
          intro m hm
          rw [hb] at hm
          cases hm
      | some m =>
          rw [List.filterMap_cons_some (f := fun b : TokenBalance => parsePubkey b.mint) hb]
          by_cases hm : m = mint
          · rw [List.find?_cons_of_neg (by simp [hm]), ih, hskip]
            intro m' hm'
            rw [hb] at hm'
            cases hm'
            exact hm
          · rw [List.find?_cons_of_pos (by simp [hm]), Option.getD_some]
            constructor
            · rintro rfl pre b' post m' hrows hb' - hsol
              cases pre with
              | nil =>
                  obtain ⟨rfl, -⟩ := List.cons.inj hrows
                  rw [hb] at hb'
                  cases hb'
                  exact absurd rfl hsol
              | cons b₀ pre =>
                  obtain ⟨rfl, -⟩ := List.cons.inj hrows
                  exact ⟨b, List.mem_cons_self, hb⟩
            · intro h
              by_contra hsol
              obtain ⟨b', hmem, -⟩ := h [] b rows m rfl hb hm hsol
              exact List.not_mem_nil hmem

/-- What the Raydium parser makes of a swap. -/
theorem parseRaydium_of_swap (h : update.RaydiumSwap) :
    ∃ t, update.parseRaydiumTransaction = some (.trade t) ∧
      t.isBuy = decide (update.instructionData.head? = some raydiumSwapBaseOut) ∧
      t.mint = (if t.isBuy then mintAtRow update.postTokenBalances 15
        else mintAtRow update.preTokenBalances 14) ∧
      t.quoteMint = extractQuoteMint update.postTokenBalances t.mint := by
  obtain ⟨trader, htrader⟩ := traderOr_isSome update 16 h.accounts
  have hpool := List.getElem?_eq_getElem (l := update.instructionAccounts) (i := 1)
    (Nat.lt_of_lt_of_le (by decide) h.accounts)
  have hswap : ∀ isBaseIn, ∃ t, update.parseRaydiumSwap isBaseIn = some (.trade t) ∧
      t.isBuy = !isBaseIn ∧ t.mint = update.raydiumBaseMint t.isBuy ∧
      t.quoteMint = extractQuoteMint update.postTokenBalances t.mint := by
    intro isBaseIn
    unfold parseRaydiumSwap
    rw [if_neg (Nat.not_lt.mpr h.accounts), hpool, htrader]
    dsimp only [Option.bind_eq_bind, Option.bind_some]
    rw [if_neg (Nat.not_lt.mpr h.data)]
    exact ⟨_, rfl, rfl, rfl, rfl⟩
  have hmint : ∀ isBuy, update.raydiumBaseMint isBuy =
      if isBuy then mintAtRow update.postTokenBalances 15
      else mintAtRow update.preTokenBalances 14 := by
    intro isBuy
    cases isBuy <;> rfl
  unfold parseRaydiumTransaction
  obtain hdisc | hdisc := h.disc
  · obtain ⟨t, ht, hbuy, hbase, hquote⟩ := hswap true
    refine ⟨t, ?_, ?_, hbase.trans (hmint _), hquote⟩
    · rw [hdisc]
      exact ht
    · rw [hdisc, hbuy]
      rfl
  · obtain ⟨t, ht, hbuy, hbase, hquote⟩ := hswap false
    refine ⟨t, ?_, ?_, hbase.trans (hmint _), hquote⟩
    · rw [hdisc]
      exact ht
    · rw [hdisc, hbuy]
      rfl

/-- **When a Raydium trade agrees**: exactly when the hints do. -/
theorem raydium_agrees_iff (hof : update.IsOf d poolLookup raydiumAmmV4)
    (hswap : update.parsed.RaydiumSwap) (hmint : mint ≠ solMint) :
    update.DirectionAgrees d poolLookup mint rising ↔
      update.parsed.RaydiumHint mint rising := by
  obtain ⟨t, ht, hbuy, hbase, hquote⟩ := parseRaydium_of_swap hswap
  rw [directionAgrees_of_some hof ((parseProgram_raydiumAmmV4 poolLookup).trans ht)]
  constructor
  · rintro ⟨rfl, hsol, rfl⟩
    refine ⟨?_, hbase.symm, (extractQuoteMint_eq_solMint_iff hmint).mp (hquote.symm.trans hsol)⟩
    rw [hbuy, decide_eq_true_iff]
  · intro h
    have hdirection : t.isBuy = rising := by
      rw [hbuy, Bool.eq_iff_iff, decide_eq_true_iff]
      exact h.disc
    have hbase' : t.mint = mint := by
      rw [hbase, hdirection]
      exact h.row
    refine ⟨hbase', ?_, hdirection⟩
    rw [hquote, hbase']
    exact (extractQuoteMint_eq_solMint_iff hmint).mpr h.quote

/-- **When a CPMM trade agrees**: exactly when WSOL is the first mint of a buy and the second of a
    sell. -/
theorem cpmm_agrees_iff (hof : update.IsOf d poolLookup raydiumCpmm)
    (hswap : update.parsed.CpmmSwap mint) (hmint : mint ≠ solMint) :
    update.DirectionAgrees d poolLookup mint rising ↔
      (update.parsed.instructionAccounts[10]? = some solMint ↔ rising = true) := by
  obtain ⟨trader, htrader⟩ := traderOr_isSome update.parsed 0
    (Nat.lt_of_lt_of_le (by decide) hswap.accounts)
  have hpool := List.getElem?_eq_getElem (l := update.parsed.instructionAccounts) (i := 3)
    (Nat.lt_of_lt_of_le (by decide) hswap.accounts)
  have hdata : ¬ update.parsed.instructionData.length < 8 :=
    Nat.not_lt.mpr (Nat.le_trans (by decide) hswap.data)
  have ht : ∃ t, update.parsed.parseRaydiumCpmmTransaction = some (.trade t) ∧ t.mint = mint ∧
      t.quoteMint = solMint ∧
      t.isBuy = decide (update.parsed.instructionAccounts[10]? = some solMint) := by
    unfold parseRaydiumCpmmTransaction
    rw [if_neg hdata, if_neg (not_not.mpr hswap.disc), if_neg (Nat.not_lt.mpr hswap.accounts),
      hpool, htrader]
    dsimp only [Option.bind_eq_bind, Option.bind_some]
    rw [if_neg (Nat.not_lt.mpr hswap.data)]
    obtain ⟨hfirst, hsecond⟩ | ⟨hfirst, hsecond⟩ := hswap.mints
    · rw [hfirst, hsecond]
      dsimp only [Option.bind_some]
      rw [if_pos rfl]
      dsimp only
      exact ⟨_, rfl, rfl, if_neg hmint, (decide_eq_true rfl).symm⟩
    · rw [hfirst, hsecond]
      dsimp only [Option.bind_some]
      rw [if_neg hmint, if_pos rfl]
      dsimp only
      exact ⟨_, rfl, rfl, if_pos rfl, (decide_eq_false fun h => hmint (Option.some.inj h)).symm⟩
  obtain ⟨t, ht, hbase, hquote, hbuy⟩ := ht
  rw [directionAgrees_of_some hof ((parseProgram_raydiumCpmm poolLookup).trans ht), hbase, hquote,
    hbuy, Bool.eq_iff_iff, decide_eq_true_iff]
  exact ⟨fun h => h.2.2, fun h => ⟨rfl, rfl, h⟩⟩

end Raydium

/-! ## 4. Orca -/

/-- A swap of an Orca pool between WSOL and a mint, and what the lookup says of the pool. -/
structure OrcaSwap (mint : Pubkey) (info : OrcaPoolInfo) : Prop where
  disc : update.instructionData.take 8 = orcaSwap
  accounts : 4 ≤ update.instructionAccounts.length
  data : 42 ≤ update.instructionData.length
  lookup : ∃ pool, update.instructionAccounts[2]? = some pool ∧
    (poolLookup.bind fun f => f pool) = some info
  mints : info.tokenMintA = solMint ∧ info.tokenMintB = mint ∨
    info.tokenMintA = mint ∧ info.tokenMintB = solMint

section Orca

variable {d poolLookup update} {mint : Pubkey} {rising : Bool} {info : OrcaPoolInfo}

/-- The sides of a pool with WSOL: the other mint, bought when WSOL goes in. -/
theorem orcaSides_eq (hmints : info.tokenMintA = solMint ∧ info.tokenMintB = mint ∨
      info.tokenMintA = mint ∧ info.tokenMintB = solMint) (hmint : mint ≠ solMint) (aToB : Prop)
    [Decidable aToB] : orcaSides info (decide aToB) =
      (mint, solMint, decide (aToB ↔ info.tokenMintA = solMint)) := by
  unfold orcaSides
  obtain ⟨ha, hb⟩ | ⟨ha, hb⟩ := hmints
  · rw [ha, hb, if_pos ⟨rfl, hmint⟩]
    simp
  · rw [ha, hb, if_neg fun h => hmint h.1, if_pos ⟨rfl, hmint⟩]
    simp [hmint]

/-- **When an Orca trade agrees**: exactly when the direction flag sends WSOL in for a rise, and the
    mint for a fall. -/
theorem orca_agrees_iff (hof : update.IsOf d poolLookup orcaWhirlpool)
    (hswap : update.parsed.OrcaSwap poolLookup mint info) (hmint : mint ≠ solMint) :
    update.DirectionAgrees d poolLookup mint rising ↔
      ((update.parsed.instructionData[41]? = some 1 ↔ info.tokenMintA = solMint) ↔
        rising = true) := by
  obtain ⟨trader, htrader⟩ := traderOr_isSome update.parsed 3
    (Nat.lt_of_lt_of_le (by decide) hswap.accounts)
  obtain ⟨pool, hpool, hlookup⟩ := hswap.lookup
  have hdata : ¬ update.parsed.instructionData.length < 8 :=
    Nat.not_lt.mpr (Nat.le_trans (by decide) hswap.data)
  have hsides := orcaSides_eq hswap.mints hmint (update.parsed.instructionData[41]? = some 1)
  have ht : ∃ t, update.parsed.parseOrcaTransaction poolLookup = some (.trade t) ∧
      t.mint = mint ∧ t.quoteMint = solMint ∧
      t.isBuy = decide (update.parsed.instructionData[41]? = some 1 ↔
        info.tokenMintA = solMint) := by
    unfold parseOrcaTransaction
    rw [if_neg hdata, if_neg (not_not.mpr hswap.disc), if_neg (Nat.not_lt.mpr hswap.accounts),
      hpool, htrader]
    dsimp only [Option.bind_eq_bind, Option.bind_some]
    rw [if_neg (Nat.not_lt.mpr hswap.data), hlookup]
    exact ⟨_, rfl, congrArg (fun sides => sides.1) hsides, congrArg (fun sides => sides.2.1) hsides,
      congrArg (fun sides => sides.2.2) hsides⟩
  obtain ⟨t, ht, hbase, hquote, hbuy⟩ := ht
  rw [directionAgrees_of_some hof ((parseProgram_orca poolLookup).trans ht), hbase, hquote, hbuy,
    Bool.eq_iff_iff, decide_eq_true_iff]
  exact ⟨fun h => h.2.2, fun h => ⟨rfl, rfl, h⟩⟩

end Orca

/-! ## 5. Meteora -/

/-- A swap of Meteora DLMM between a user's accounts of WSOL and a mint. -/
structure MeteoraSwap (mint user userWsol : Pubkey) : Prop where
  disc : update.instructionData.take 8 = meteoraSwap
  accounts : 7 ≤ update.instructionAccounts.length
  data : 24 ≤ update.instructionData.length
  sides : update.instructionAccounts[3]? = some user ∧
      update.instructionAccounts[4]? = some userWsol ∨
    update.instructionAccounts[3]? = some userWsol ∧ update.instructionAccounts[4]? = some user
  ofMint : update.RowsOf user mint
  ofWsol : update.RowsOf userWsol solMint

section Meteora

variable {d poolLookup update} {mint user userWsol : Pubkey} {rising : Bool}

/-- A delta of an account whose balance moves has the sign of the direction. -/
theorem sign_of_moves (hrows : update.RowsOf user mint) (hmoves : update.Moves user mint rising)
    {m : Pubkey} {delta : Int} (hdelta : update.userTokenDelta user = some (m, delta)) :
    m = mint ∧ delta.sign = (if rising then 1 else -1) ∧ update.RowsMove user mint rising := by
  obtain ⟨rfl, index, before, after, hindex, hbefore, hafter, rfl⟩ :=
    (userTokenDelta_iff update hrows).mp hdelta
  obtain ⟨index', before', after', hindex', hbefore', hafter', htowards⟩ := hmoves
  rw [hindex] at hindex'
  cases hindex'
  obtain rfl := hbefore.unique hbefore'
  obtain rfl := hafter.unique hafter'
  exact ⟨rfl, towards_iff.mp htowards, index, before', after', hindex, hbefore, hafter, htowards⟩

/-- The delta of an account whose rows move. -/
theorem delta_of_rowsMove (hrows : update.RowsOf user mint)
    (hmoves : update.RowsMove user mint rising) :
    ∃ delta : Int, update.userTokenDelta user = some (mint, delta) ∧
      delta.sign = if rising then 1 else -1 := by
  obtain ⟨index, before, after, hindex, hbefore, hafter, htowards⟩ := hmoves
  exact ⟨_, (userTokenDelta_iff update hrows).mpr
    ⟨rfl, index, before, after, hindex, hbefore, hafter, rfl⟩, towards_iff.mp htowards⟩

/-- The Meteora parser, from the deltas of the two user accounts. -/
theorem parseMeteora_eq {x y : Pubkey} (hdisc : update.instructionData.take 8 = meteoraSwap)
    (haccounts : 7 ≤ update.instructionAccounts.length) (hdata : 24 ≤ update.instructionData.length)
    (hx : update.instructionAccounts[3]? = some x) (hy : update.instructionAccounts[4]? = some y) :
    ∃ poolAddress trader, update.parseMeteoraTransaction =
      (update.userTokenDelta x).bind fun (mintX, deltaX) =>
        (update.userTokenDelta y).bind fun (mintY, deltaY) =>
          if mintX = mintY ∨ deltaX = 0 ∨ deltaY = 0 ∨ deltaX.sign = deltaY.sign then none
          else some (.trade (update.meteoraTrade poolAddress trader mintX deltaX mintY deltaY)) := by
  obtain ⟨trader, htrader⟩ := traderOr_isSome update 5
    (Nat.lt_of_lt_of_le (by decide) haccounts)
  obtain ⟨poolAddress, hpool⟩ : ∃ poolAddress, update.instructionAccounts[0]? = some poolAddress :=
    ⟨_, List.getElem?_eq_getElem (Nat.lt_of_lt_of_le (by decide) haccounts)⟩
  refine ⟨poolAddress, trader, ?_⟩
  unfold parseMeteoraTransaction
  rw [if_neg (Nat.not_lt.mpr (Nat.le_trans (by decide) hdata)), if_neg (not_not.mpr hdisc),
    if_neg (Nat.not_lt.mpr haccounts), hpool, htrader]
  dsimp only [Option.bind_eq_bind, Option.bind_some]
  rw [if_neg (Nat.not_lt.mpr hdata), hx, hy]
  rfl

/-- A delta opposite to one of the direction has the sign of the other direction. -/
theorem opposite_iff {a b : Int} (ha : a.sign = if rising then 1 else -1) :
    b ≠ 0 ∧ a.sign ≠ b.sign ↔ b.sign = if !rising then 1 else -1 := by
  rw [ha]
  obtain hb | hb | hb := Int.sign_trichotomy b
  · rw [hb]
    have hne : b ≠ 0 := by
      rintro rfl
      cases hb
    cases rising <;> simp [hne]
  · have hzero := Int.sign_eq_zero_iff_zero.mp hb
    rw [hb]
    cases rising <;> simp [hzero]
  · rw [hb]
    have hne : b ≠ 0 := by
      rintro rfl
      cases hb
    cases rising <;> simp [hne]

/-- The sides of the trade, whichever of the two accounts comes first. -/
theorem meteoraTrade_sides (poolAddress trader : Pubkey) (hmint : mint ≠ solMint) {delta deltaW : Int}
    (hW : deltaW.sign = if !rising then 1 else -1) {t : Trade}
    (ht : t = update.meteoraTrade poolAddress trader mint delta solMint deltaW ∨
      t = update.meteoraTrade poolAddress trader solMint deltaW mint delta) :
    t.mint = mint ∧ t.quoteMint = solMint ∧ t.isBuy = rising := by
  have hsell (h : rising = false) : ¬ deltaW < 0 := by
    rw [h] at hW
    exact Int.not_lt.mpr (Int.le_of_lt (Int.sign_eq_one_iff_pos.mp hW))
  have hbuy (h : rising = true) : deltaW < 0 := by
    rw [h] at hW
    exact Int.sign_eq_neg_one_iff_neg.mp hW
  unfold meteoraTrade at ht
  obtain rfl | rfl := ht
  · dsimp only
    rw [if_neg hmint, if_pos rfl]
    cases rising with
    | true =>
        rw [if_pos (hbuy rfl)]
        exact ⟨rfl, rfl, rfl⟩
    | false =>
        rw [if_neg (hsell rfl)]
        exact ⟨rfl, rfl, rfl⟩
  · dsimp only
    rw [if_pos rfl]
    cases rising with
    | true =>
        rw [if_pos (hbuy rfl)]
        exact ⟨rfl, rfl, rfl⟩
    | false =>
        rw [if_neg (hsell rfl)]
        exact ⟨rfl, rfl, rfl⟩

/-- **The Meteora parser gives a trade exactly when the rows of both user accounts move, opposite
    ways**, and then the trade has their direction. -/
theorem parseMeteora_of_swap (hswap : update.MeteoraSwap mint user userWsol)
    (hmint : mint ≠ solMint) (hmoves : update.Moves user mint rising) :
    (update.RowsMove user mint rising ∧ update.RowsMove userWsol solMint (!rising) →
      ∃ t, update.parseMeteoraTransaction = some (.trade t) ∧
        t.mint = mint ∧ t.quoteMint = solMint ∧ t.isBuy = rising) ∧
    (¬ (update.RowsMove user mint rising ∧ update.RowsMove userWsol solMint (!rising)) →
      update.parseMeteoraTransaction = none) := by
  -- the guard between two deltas, of which the first has the direction
  have hguard {delta deltaW : Int} (hdelta : delta.sign = if rising then 1 else -1) :
      (delta = 0 ∨ deltaW = 0 ∨ delta.sign = deltaW.sign) ↔
        ¬ deltaW.sign = if !rising then 1 else -1 := by
    have hne : delta ≠ 0 := by
      rintro rfl
      cases rising <;> cases hdelta
    rw [← opposite_iff hdelta, not_and_or, not_not, not_not]
    exact or_iff_right hne
  have hfails (hneg : ¬ (update.RowsMove user mint rising ∧
        update.RowsMove userWsol solMint (!rising))) (m : Pubkey) (delta : Int)
      (hdelta : update.userTokenDelta user = some (m, delta)) (mW : Pubkey) (deltaW : Int)
      (hdeltaW : update.userTokenDelta userWsol = some (mW, deltaW)) :
      delta = 0 ∨ deltaW = 0 ∨ delta.sign = deltaW.sign := by
    obtain ⟨-, hsign, hrows⟩ := sign_of_moves hswap.ofMint hmoves hdelta
    obtain ⟨-, index, before, after, hindex, hbefore, hafter, rfl⟩ :=
      (userTokenDelta_iff update hswap.ofWsol).mp hdeltaW
    exact (hguard hsign).mpr fun hsignW =>
      hneg ⟨hrows, index, before, after, hindex, hbefore, hafter, towards_iff.mpr hsignW⟩
  obtain ⟨hx, hy⟩ | ⟨hx, hy⟩ := hswap.sides
  · obtain ⟨poolAddress, trader, hparse⟩ :=
      parseMeteora_eq hswap.disc hswap.accounts hswap.data hx hy
    rw [hparse]
    constructor
    · rintro ⟨hrows, hrowsW⟩
      obtain ⟨delta, hdelta, hsign⟩ := delta_of_rowsMove hswap.ofMint hrows
      obtain ⟨deltaW, hdeltaW, hsignW⟩ := delta_of_rowsMove hswap.ofWsol hrowsW
      rw [hdelta, hdeltaW]
      dsimp only [Option.bind_some]
      rw [if_neg (not_or.mpr ⟨hmint, fun h => (hguard hsign).mp h hsignW⟩)]
      exact ⟨_, rfl, meteoraTrade_sides poolAddress trader hmint hsignW (.inl rfl)⟩
    · intro hneg
      cases hdelta : update.userTokenDelta user with
      | none => rfl
      | some first =>
          obtain ⟨m, delta⟩ := first
          cases hdeltaW : update.userTokenDelta userWsol with
          | none => rfl
          | some second =>
              obtain ⟨mW, deltaW⟩ := second
              exact if_pos (.inr (hfails hneg m delta hdelta mW deltaW hdeltaW))
  · obtain ⟨poolAddress, trader, hparse⟩ :=
      parseMeteora_eq hswap.disc hswap.accounts hswap.data hx hy
    have hswapped {delta deltaW : Int} : (deltaW = 0 ∨ delta = 0 ∨ deltaW.sign = delta.sign) ↔
        (delta = 0 ∨ deltaW = 0 ∨ delta.sign = deltaW.sign) := by
      rw [or_left_comm, eq_comm (a := deltaW.sign)]
    rw [hparse]
    constructor
    · rintro ⟨hrows, hrowsW⟩
      obtain ⟨delta, hdelta, hsign⟩ := delta_of_rowsMove hswap.ofMint hrows
      obtain ⟨deltaW, hdeltaW, hsignW⟩ := delta_of_rowsMove hswap.ofWsol hrowsW
      rw [hdelta, hdeltaW]
      dsimp only [Option.bind_some]
      rw [if_neg (not_or.mpr ⟨hmint.symm, fun h => (hguard hsign).mp (hswapped.mp h) hsignW⟩)]
      exact ⟨_, rfl, meteoraTrade_sides poolAddress trader hmint hsignW (.inr rfl)⟩
    · intro hneg
      cases hdeltaW : update.userTokenDelta userWsol with
      | none => rfl
      | some first =>
          obtain ⟨mW, deltaW⟩ := first
          cases hdelta : update.userTokenDelta user with
          | none => rfl
          | some second =>
              obtain ⟨m, delta⟩ := second
              exact if_pos (.inr (hswapped.mpr
                (hfails hneg m delta hdelta mW deltaW hdeltaW)))

end Meteora

/-! ## 6. When the trade agrees with the balances -/

theorem parsed_moves {account mint : Pubkey} {rising : Bool} :
    update.parsed.Moves account mint rising ↔ update.Moves account mint rising := by
  unfold parsed
  split <;> rfl

/-- **When the trade of a swap between WSOL and a mint agrees with the user's balances**, for each of
    the four programs. -/
theorem direction_agrees_iff (mint user : Pubkey) (rising : Bool) (hmint : mint ≠ solMint)
    (hmoves : update.Moves user mint rising) :
    (update.IsOf d poolLookup raydiumAmmV4 → update.parsed.RaydiumSwap →
      (update.DirectionAgrees d poolLookup mint rising ↔
        update.parsed.RaydiumHint mint rising)) ∧
    (update.IsOf d poolLookup raydiumCpmm → update.parsed.CpmmSwap mint →
      (update.DirectionAgrees d poolLookup mint rising ↔
        (update.parsed.instructionAccounts[10]? = some solMint ↔ rising = true))) ∧
    (∀ info, update.IsOf d poolLookup orcaWhirlpool → update.parsed.OrcaSwap poolLookup mint info →
      (update.DirectionAgrees d poolLookup mint rising ↔
        ((update.parsed.instructionData[41]? = some 1 ↔ info.tokenMintA = solMint) ↔
          rising = true))) ∧
    ∀ userWsol, update.IsOf d poolLookup meteoraDlmm →
      update.parsed.MeteoraSwap mint user userWsol →
      (update.parsed.RowsMove user mint rising ∧
            update.parsed.RowsMove userWsol solMint (!rising) ∨
          (∀ inner ∈ update.innerInstructions, ∀ p,
            update.accountKeys[inner.programIdIndex.toNat]? = some p → p ∉ known) →
        update.DirectionAgrees d poolLookup mint rising) ∧
      (¬ (update.parsed.RowsMove user mint rising ∧
            update.parsed.RowsMove userWsol solMint (!rising)) →
        update.parseTransactionUpdateWithPoolLookup d poolLookup =
          update.tryParseInnerInstructions d poolLookup) := by
  refine ⟨fun hof hswap => raydium_agrees_iff hof hswap hmint,
    fun hof hswap => cpmm_agrees_iff hof hswap hmint,
    fun info hof hswap => orca_agrees_iff hof hswap hmint, fun userWsol hof hswap => ?_⟩
  obtain ⟨hgives, hrefuses⟩ :=
    parseMeteora_of_swap hswap hmint ((parsed_moves update).mpr hmoves)
  have hinner (hneg : ¬ (update.parsed.RowsMove user mint rising ∧
      update.parsed.RowsMove userWsol solMint (!rising))) :=
    parse_of_none hof ((parseProgram_meteora poolLookup).trans (hrefuses hneg))
  refine ⟨fun hcondition => ?_, hinner⟩
  by_cases hrows : update.parsed.RowsMove user mint rising ∧
      update.parsed.RowsMove userWsol solMint (!rising)
  · obtain ⟨t, ht, hagrees⟩ := hgives hrows
    exact (directionAgrees_of_some hof ((parseProgram_meteora poolLookup).trans ht)).mpr hagrees
  · have hunknown := hcondition.resolve_left hrows
    intro t ht
    rw [hinner hrows, tryParseInnerInstructions, scanInner_of_unknown hunknown] at ht
    cases ht

/-- A payer buys 500 of the mint 5 for 100 WSOL. -/
def boughtTransaction : GeyserTransactionUpdate :=
  { signature := "tx", slot := 42, accountKeys := [1, 7, 8, 9, 2], instructionAccounts := []
    instructionData := [], innerInstructions := []
    preTokenBalances := [⟨2, TextCodec.base58Text solMint, 9, "1000", none⟩,
      ⟨3, TextCodec.base58Text 5, 6, "0", none⟩]
    postTokenBalances := [⟨2, TextCodec.base58Text solMint, 9, "900", none⟩,
      ⟨3, TextCodec.base58Text 5, 6, "500", none⟩]
    preBalances := [], postBalances := [] }

theorem isOf_direct {program : Pubkey} (hknown : program ∈ known) (accounts : List Pubkey)
    (data : List UInt8) : (update.direct program accounts data).IsOf d poolLookup program :=
  .inl (trailerProgram_direct hknown accounts data)

theorem parsed_direct {program : Pubkey} (hknown : program ∈ known) (accounts : List Pubkey)
    (data : List UInt8) : (update.direct program accounts data).parsed =
      { update with
        instructionAccounts := accounts, instructionData := data, innerInstructions := [] } := by
  unfold parsed
  rw [trailerProgram_direct hknown, stripped_direct]
  rfl

theorem bought_ne_sol : (5 : Pubkey) ≠ solMint := by
  rw [solMint_eq]
  decide +kernel

/-- The payer's token account rises, whatever the instruction. -/
theorem bought_moves (program : Pubkey) (accounts : List Pubkey) (data : List UInt8) :
    (boughtTransaction.direct program accounts data).Moves 9 5 true := by
  have hindex : boughtTransaction.accountIndexOf 9 = some 3 := by decide +kernel
  refine ⟨3, 0, 500, hindex, .inl ⟨_, rfl, rfl, by decide +kernel⟩,
    .inl ⟨_, rfl, rfl, by decide +kernel⟩, ?_⟩
  change (0 : UInt64) < 500
  decide

/-- A CPMM swap, an Orca swap and a Meteora swap with that rise. -/
theorem direction_agrees_bought :
    (boughtTransaction.direct raydiumCpmm (List.replicate 10 7 ++ [solMint, 5])
      (raydiumCpmmSwap ++ List.replicate 16 0)).DirectionAgrees namedDerivation none 5 true ∧
    (boughtTransaction.direct orcaWhirlpool [2, 1, 7, 1]
      (orcaSwap ++ List.replicate 34 1)).DirectionAgrees namedDerivation
        (some fun _ => some ⟨solMint, 5, 7, 7, none, none⟩) 5 true ∧
    (boughtTransaction.direct meteoraDlmm [7, 7, 7, 8, 9, 1, 2]
      (meteoraSwap ++ List.replicate 16 0)).DirectionAgrees namedDerivation none 5 true := by
  have hcpmm : raydiumCpmm ∈ known := by simp [known]
  have horca : orcaWhirlpool ∈ known := by simp [known]
  have hmeteora : meteoraDlmm ∈ known := by simp [known]
  refine ⟨?_, ?_, ?_⟩
  · refine ((direction_agrees_iff namedDerivation none _ 5 9 true bought_ne_sol
      (bought_moves _ _ _)).2.1 (isOf_direct _ _ _ hcpmm _ _) ?_).mpr ?_
    · rw [parsed_direct _ hcpmm]
      exact ⟨rfl, by decide, by decide, .inl ⟨rfl, rfl⟩⟩
    · rw [parsed_direct _ hcpmm]
      exact ⟨fun _ => rfl, fun _ => rfl⟩
  · refine ((direction_agrees_iff namedDerivation _ _ 5 9 true bought_ne_sol
      (bought_moves _ _ _)).2.2.1 ⟨solMint, 5, 7, 7, none, none⟩
      (isOf_direct _ _ _ horca _ _) ?_).mpr ?_
    · rw [parsed_direct _ horca]
      exact ⟨rfl, by decide, by decide, ⟨7, rfl, rfl⟩, .inl ⟨rfl, rfl⟩⟩
    · rw [parsed_direct _ horca]
      exact ⟨fun _ => rfl, fun _ => ⟨fun _ => rfl, fun _ => rfl⟩⟩
  · have hrows (account mint : Pubkey) (index : UInt8)
        (hindex : boughtTransaction.accountIndexOf account = some index)
        (hmint : ∀ b ∈ boughtTransaction.preTokenBalances ++ boughtTransaction.postTokenBalances,
          b.accountIndex = index → b.mint = TextCodec.base58Text mint) :
        boughtTransaction.RowsOf account mint := by
      intro index' hindex'
      rw [hindex] at hindex'
      cases hindex'
      exact hmint
    refine ((direction_agrees_iff namedDerivation none _ 5 9 true bought_ne_sol
      (bought_moves _ _ _)).2.2.2 8 (isOf_direct _ _ _ hmeteora _ _) ?_).1 (.inr ?_)
    · rw [parsed_direct _ hmeteora]
      refine ⟨rfl, by decide, by decide, .inr ⟨rfl, rfl⟩, ?_, ?_⟩
      · exact hrows 9 5 3 (by decide +kernel) (by simp [boughtTransaction])
      · exact hrows 8 solMint 2 (by decide +kernel) (by simp [boughtTransaction])
    · exact fun inner hmem => absurd hmem List.not_mem_nil

/-- **A Raydium swap with that rise is no buy**: its discriminator says base-in. -/
theorem base_in_buy_disagrees :
    let update := boughtTransaction.direct raydiumAmmV4 (List.replicate 14 7 ++ [8, 9, 1])
      (raydiumSwapBaseIn :: List.replicate 16 0)
    update.IsOf namedDerivation none raydiumAmmV4 ∧ update.parsed.RaydiumSwap ∧
      update.Moves 9 5 true ∧ ¬ update.DirectionAgrees namedDerivation none 5 true := by
  have hof := isOf_direct namedDerivation none boughtTransaction raydium_known
    (List.replicate 14 7 ++ [8, 9, 1]) (raydiumSwapBaseIn :: List.replicate 16 0)
  have hparsed := parsed_direct boughtTransaction raydium_known
    (List.replicate 14 7 ++ [8, 9, 1]) (raydiumSwapBaseIn :: List.replicate 16 0)
  have hswap : (boughtTransaction.direct raydiumAmmV4 (List.replicate 14 7 ++ [8, 9, 1])
      (raydiumSwapBaseIn :: List.replicate 16 0)).parsed.RaydiumSwap := by
    rw [hparsed]
    exact ⟨.inl rfl, by decide, by decide⟩
  refine ⟨hof, hswap, bought_moves _ _ _, ?_⟩
  rw [raydium_agrees_iff hof hswap bought_ne_sol]
  rintro ⟨hdisc, -, -⟩
  have hhead := hdisc.mpr rfl
  rw [hparsed] at hhead
  exact absurd hhead (by decide)

end GeyserTransactionUpdate

end IronCrab.Solana

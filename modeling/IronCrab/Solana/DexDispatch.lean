/-
  File:      IronCrab/Solana/DexDispatch.lean
  Subject:   FINDING THE DEX INSTRUCTION OF A TRANSACTION (src/solana/dex_parser.rs): the top-level
             instruction, the inner instructions behind an aggregator, and the PumpSwap harvest.

  Each of the three scans rebuilds the account list of an instruction and hands it to the positional
  parser of its program.

  * `routed_eq` -- an instruction that is the only inner one parses as it would at the top level
    over the accounts its indices resolve to;
  * `routesAgree_iff` -- those are the instruction's own accounts exactly when no index outside the
    keys stands before one inside;
  * `mem_pumpAmmSidefx` -- the harvest is the first verified trade of each pool;
  * `cpi_agrees_iff` -- so exactly when the routes agree.
-/
import IronCrab.Solana.DexParser
import IronCrab.Lib.Sift

namespace IronCrab.Solana

open Track (Pubkey TextCodec)
open PumpAmm
open Sift

/-! ## 1. The scans -/

/-- `INSTRUCTION_PROGRAM_TRAILER`. -/
def instructionProgramTrailer : Pubkey :=
  0xa5a5a5a5a5a5a5a5a5a5a5a5a5a5a5a5a5a5a5a5a5a5a5a5a5a5a5a5a5a5a5a5

namespace GeyserTransactionUpdate

variable (d : Derivation) (poolLookup : PoolLookup) (update : GeyserTransactionUpdate)

/-- The known program that the trailer names. -/
def trailerProgram : Option Pubkey :=
  let n := update.instructionAccounts.length
  if 2 ≤ n ∧ update.instructionAccounts[n - 2]? = some instructionProgramTrailer then
    update.instructionAccounts.getLast?.filter fun program => program ∈ known
  else none

/-- The update without the trailer. -/
def stripped : GeyserTransactionUpdate :=
  { update with
    instructionAccounts := update.instructionAccounts.take (update.instructionAccounts.length - 2) }

/-- `try_parse_top_level`. -/
def tryParseTopLevel : Option ParsedDexEvent :=
  match update.trailerProgram with
  | some program => update.stripped.parseProgram d poolLookup program
  | none =>
      match known.filter fun program => program ∈ update.accountKeys with
      | [] => none
      | [program] => update.parseProgram d poolLookup program
      | present =>
          match present.filterMap (update.parseProgram d poolLookup) with
          | [event] => some event
          | _ => none

/-- The update that a scan hands to the parser of an inner instruction. -/
def synth (inner : InnerInstruction) : GeyserTransactionUpdate :=
  { update with
    instructionAccounts := update.resolvedAccounts inner.accounts
    instructionData := inner.data
    innerInstructions := [] }

/-- The loop of `try_parse_inner_instructions` with the first PumpSwap event that is no sell. -/
def scanInner : Option ParsedDexEvent → List InnerInstruction → Option ParsedDexEvent
  | pumpAmmFallback, [] => pumpAmmFallback
  | pumpAmmFallback, inner :: rest =>
      if inner.data.length < 8 then scanInner pumpAmmFallback rest
      else
        match update.accountKeys[inner.programIdIndex.toNat]? with
        | none => scanInner pumpAmmFallback rest
        | some programId =>
            match (update.synth inner).parseProgram d poolLookup programId with
            | none => scanInner pumpAmmFallback rest
            | some event =>
                if programId = pumpfunAmmProgramId then
                  if inner.data.take 8 = pumpAmmSellIxDiscriminator d then some event
                  else scanInner (pumpAmmFallback <|> some event) rest
                else some event

/-- `try_parse_inner_instructions`. -/
def tryParseInnerInstructions : Option ParsedDexEvent :=
  update.scanInner d poolLookup none update.innerInstructions

/-- The primary event of `parse_transaction_update_with_pool_lookup_outcome`. -/
def parseTransactionUpdateWithPoolLookup : Option ParsedDexEvent :=
  match update.tryParseTopLevel d poolLookup with
  | some event => some event
  | none =>
      if update.innerInstructions ≠ [] then update.tryParseInnerInstructions d poolLookup else none

/-- `pump_amm_trade_verified_v14`, with the trade. -/
def pumpAmmTradeVerifiedV14 : ParsedDexEvent → Option Trade
  | .trade t =>
      match t.dex, t.poolAccounts with
      | .pumpFunAmm, some accounts =>
          if 14 ≤ accounts.length ∧ accounts.head? = some t.poolAddress then some t else none
      | _, _ => none
  | _ => none

/-- What the harvest takes from an inner instruction: its verified PumpSwap trade. -/
def harvested (inner : InnerInstruction) : Option Trade :=
  if inner.data.length < 8 then none
  else if update.accountKeys[inner.programIdIndex.toNat]? ≠ some pumpfunAmmProgramId then none
  else ((update.synth inner).parsePumpfunAmmTransaction d).bind pumpAmmTradeVerifiedV14

/-- The loop of `collect_pump_amm_harvests_from_inner_instructions`, over the pools seen. -/
def harvestFrom : List Pubkey → List InnerInstruction → List Trade
  | _, [] => []
  | seenPools, inner :: rest =>
      match update.harvested d inner with
      | none => harvestFrom seenPools rest
      | some trade =>
          if trade.poolAddress ∈ seenPools then harvestFrom seenPools rest
          else trade :: harvestFrom (trade.poolAddress :: seenPools) rest

/-- `collect_pump_amm_harvests_from_inner_instructions`. -/
def collectPumpAmmHarvests : List Trade := update.harvestFrom d [] update.innerInstructions

/-- The pool of the primary event, when it is a PumpSwap trade. -/
def primaryPumpPool : Option ParsedDexEvent → Option Pubkey
  | some (.trade t) => if t.dex = .pumpFunAmm then some t.poolAddress else none
  | _ => none

/-- `filter_pump_amm_harvest_against_primary`. -/
def filterPumpAmmHarvestAgainstPrimary (harvest : List Trade) (primary : Option ParsedDexEvent) :
    List Trade :=
  harvest.filter fun t => primaryPumpPool primary ≠ some t.poolAddress

/-- The side effects of `parse_transaction_update_with_pool_lookup_outcome`. -/
def pumpAmmSidefx : List Trade :=
  if update.innerInstructions = [] then []
  else filterPumpAmmHarvestAgainstPrimary (update.collectPumpAmmHarvests d)
    (update.parseTransactionUpdateWithPoolLookup d poolLookup)

/-! ## 2. One instruction, routed and direct -/

/-- The update with an instruction as its only inner one. -/
def routed (inner : InnerInstruction) : GeyserTransactionUpdate :=
  { update with innerInstructions := [inner] }

/-- The update without inner instructions. -/
def alone : GeyserTransactionUpdate := { update with innerInstructions := [] }

/-- The update with an instruction of a program as its selected top-level one. -/
def direct (program : Pubkey) (accounts : List Pubkey) (data : List UInt8) :
    GeyserTransactionUpdate :=
  { update with
    instructionAccounts := accounts ++ [instructionProgramTrailer, program]
    instructionData := data
    innerInstructions := [] }

section Routes

variable {d poolLookup update} {inner : InnerInstruction} {program : Pubkey}

theorem trailerProgram_direct (hknown : program ∈ known) (accounts : List Pubkey)
    (data : List UInt8) : (update.direct program accounts data).trailerProgram = some program := by
  simp [trailerProgram, direct, hknown]

theorem stripped_direct (accounts : List Pubkey) (data : List UInt8) :
    (update.direct program accounts data).stripped =
      { update with
        instructionAccounts := accounts, instructionData := data, innerInstructions := [] } := by
  simp [stripped, direct]

/-- **A selected instruction is parsed over its own accounts**, without the trailer. -/
theorem parse_direct (hknown : program ∈ known) (accounts : List Pubkey) (data : List UInt8) :
    (update.direct program accounts data).parseTransactionUpdateWithPoolLookup d poolLookup =
      ({ update with
        instructionAccounts := accounts, instructionData := data
        innerInstructions := [] } : GeyserTransactionUpdate).parseProgram d poolLookup program := by
  unfold parseTransactionUpdateWithPoolLookup tryParseTopLevel
  rw [trailerProgram_direct hknown]
  dsimp only
  rw [stripped_direct]
  split
  case h_1 event hevent => exact hevent.symm
  case h_2 hnone =>
      rw [hnone]
      rfl

/-- No parser accepts data of fewer than eight bytes. -/
theorem parseProgram_of_short (hshort : update.instructionData.length < 8)
    (hinner : update.innerInstructions = []) : update.parseProgram d poolLookup program = none := by
  have hswap : ∀ isBaseIn, update.parseRaydiumSwap isBaseIn = none := by
    intro isBaseIn
    unfold parseRaydiumSwap
    split
    · rfl
    · cases update.instructionAccounts[1]? with
      | none => rfl
      | some poolAddress =>
          cases update.traderOr 16 with
          | none => rfl
          | some trader => exact if_pos (Nat.lt_trans hshort (by decide))
  have hraydium : update.parseRaydiumTransaction = none := by
    unfold parseRaydiumTransaction
    split
    · rfl
    · split
      · exact hswap _
      · rfl
  have hcreate : update.tryParsePumpfunAmmCreatePool = none := by
    unfold tryParsePumpfunAmmCreatePool
    rw [if_neg fun h => absurd h.1 (Nat.not_le.mpr hshort), hinner]
    rfl
  have hamm : update.parsePumpfunAmmTransaction d = none := by
    unfold parsePumpfunAmmTransaction
    rw [hcreate]
    exact if_pos (Nat.lt_trans hshort (by decide))
  have hmeteora : update.parseMeteoraTransaction = none := if_pos hshort
  have hcpmm : update.parseRaydiumCpmmTransaction = none := if_pos hshort
  have hpumpfun : update.parsePumpfunTransaction d = none := if_pos hshort
  have horca : update.parseOrcaTransaction poolLookup = none := if_pos hshort
  unfold parseProgram
  simp only [hmeteora, hcpmm, hamm, hpumpfun, hraydium, horca, ite_self]

theorem scanCreatePool_inner (instructions l : List InnerInstruction) :
    ({ update with innerInstructions := instructions } : GeyserTransactionUpdate).scanCreatePool l =
      update.scanCreatePool l := by
  induction l with
  | nil => rfl
  | cons inner rest ih =>
      unfold scanCreatePool
      rw [ih]
      rfl

/-- What the scan for a `create_pool` has found in a single inner instruction. -/
theorem scanCreatePool_single {event : ParsedDexEvent}
    (h : update.scanCreatePool [inner] = some event) :
    8 ≤ inner.data.length ∧ inner.data.take 8 = pumpfunAmmCreatePool ∧
      update.accountKeys[inner.programIdIndex.toNat]? = some pumpfunAmmProgramId ∧
      18 ≤ (update.resolvedAccounts inner.accounts).length ∧
      update.createdPool (update.resolvedAccounts inner.accounts) = some event := by
  unfold scanCreatePool at h
  split at h
  case isTrue => cases h
  rename_i hlength
  split at h
  case isTrue => cases h
  rename_i hdisc
  split at h
  case h_1 => cases h
  rename_i programId hprogram
  split at h
  case isTrue => cases h
  rename_i hamm
  split at h
  case isTrue => cases h
  rename_i haccounts
  rw [not_not] at hdisc hamm
  exact ⟨Nat.not_lt.mp hlength, hdisc, by rw [hprogram, hamm], Nat.not_lt.mp haccounts, h⟩

/-- The PumpSwap parser sees the inner instruction only as a `create_pool`, and then it says what the
    instruction itself parses to. -/
theorem parsePumpfunAmm_routed (d : Derivation) (update : GeyserTransactionUpdate)
    (inner : InnerInstruction) :
    (update.routed inner).parsePumpfunAmmTransaction d =
        update.alone.parsePumpfunAmmTransaction d ∨
      ∃ event, (update.routed inner).parsePumpfunAmmTransaction d = some event ∧
        update.accountKeys[inner.programIdIndex.toNat]? = some pumpfunAmmProgramId ∧
        (update.synth inner).parsePumpfunAmmTransaction d = some event := by
  have hscan : (update.routed inner).scanCreatePool [inner] = update.scanCreatePool [inner] :=
    scanCreatePool_inner _ _
  by_cases hown : 8 ≤ update.instructionData.length ∧
      update.instructionData.take 8 = pumpfunAmmCreatePool ∧ 18 ≤ update.instructionAccounts.length
  · -- the top-level instruction is a `create_pool` itself
    refine .inl ?_
    have hrouted : (update.routed inner).tryParsePumpfunAmmCreatePool =
        update.createdPool update.instructionAccounts := if_pos hown
    have halone : update.alone.tryParsePumpfunAmmCreatePool =
        update.createdPool update.instructionAccounts := if_pos hown
    unfold parsePumpfunAmmTransaction
    rw [hrouted, halone]
    rfl
  · have hrouted : (update.routed inner).tryParsePumpfunAmmCreatePool =
        update.scanCreatePool [inner] := (if_neg hown).trans hscan
    have halone : update.alone.tryParsePumpfunAmmCreatePool = none := if_neg hown
    cases hfound : update.scanCreatePool [inner] with
    | none =>
        refine .inl ?_
        unfold parsePumpfunAmmTransaction
        rw [hrouted, halone, hfound]
        rfl
    | some event =>
        obtain ⟨hlength, hdisc, hprogram, haccounts, hcreated⟩ := scanCreatePool_single hfound
        refine .inr ⟨event, ?_, hprogram, ?_⟩
        · unfold parsePumpfunAmmTransaction
          rw [hrouted, hfound]
        · have hsynth : (update.synth inner).tryParsePumpfunAmmCreatePool = some event :=
            (if_pos ⟨hlength, hdisc, haccounts⟩).trans hcreated
          unfold parsePumpfunAmmTransaction
          rw [hsynth]

/-- **A parser over the outer instruction sees of the inner one at most its own event.** -/
theorem parseProgram_routed (hprogram : update.accountKeys[inner.programIdIndex.toNat]? =
      some program) (outer : Pubkey) :
    (update.routed inner).parseProgram d poolLookup outer =
        update.alone.parseProgram d poolLookup outer ∨
      ∃ event, (update.routed inner).parseProgram d poolLookup outer = some event ∧
        (update.synth inner).parseProgram d poolLookup program = some event := by
  by_cases hmeteora : outer = meteoraDlmm
  · exact .inl (by simp only [parseProgram, if_pos hmeteora]; rfl)
  by_cases hcpmm : outer = raydiumCpmm
  · exact .inl (by simp only [parseProgram, if_neg hmeteora, if_pos hcpmm]; rfl)
  by_cases hamm : outer = pumpfunAmmProgramId
  · have hparser : ∀ u : GeyserTransactionUpdate,
        u.parseProgram d poolLookup outer = u.parsePumpfunAmmTransaction d := by
      intro u
      rw [parseProgram, if_neg hmeteora, if_neg hcpmm, if_pos hamm]
    rw [hparser, hparser]
    obtain hsame | ⟨event, hevent, hinner, hsynth⟩ := parsePumpfunAmm_routed d update inner
    · exact .inl hsame
    · rw [hinner] at hprogram
      have hsameProgram : program = outer := (Option.some.inj hprogram).symm.trans hamm.symm
      exact .inr ⟨event, hevent, by rw [hsameProgram, hparser, hsynth]⟩
  · refine .inl ?_
    simp only [parseProgram, if_neg hmeteora, if_neg hcpmm, if_neg hamm]
    rfl

/-- **With an outer instruction that parses to nothing, an inner instruction at the top level is seen
    only as its own event.** -/
theorem tryParseTopLevel_routed
    (hprogram : update.accountKeys[inner.programIdIndex.toNat]? = some program)
    (houter : update.alone.tryParseTopLevel d poolLookup = none) {event : ParsedDexEvent}
    (h : (update.routed inner).tryParseTopLevel d poolLookup = some event) :
    (update.synth inner).parseProgram d poolLookup program = some event := by
  -- one program's parser alone
  have hone : ∀ (u : GeyserTransactionUpdate) (outer : Pubkey),
      u.accountKeys[inner.programIdIndex.toNat]? = some program →
      u.alone.parseProgram d poolLookup outer = none →
      (u.routed inner).parseProgram d poolLookup outer = some event →
      (u.synth inner).parseProgram d poolLookup program = some event := by
    intro u outer hu hnone hsome
    obtain hsame | ⟨event', hevent, hsynth⟩ := parseProgram_routed (d := d) hu outer
    · rw [hsame, hnone] at hsome
      cases hsome
    · rw [hevent] at hsome
      cases hsome
      exact hsynth
  have htrailer : (update.routed inner).trailerProgram = update.alone.trailerProgram := rfl
  have hkeys : (update.routed inner).accountKeys = update.accountKeys := rfl
  have hkeys' : update.alone.accountKeys = update.accountKeys := rfl
  unfold tryParseTopLevel at h houter
  rw [htrailer, hkeys] at h
  rw [hkeys'] at houter
  cases htp : update.alone.trailerProgram with
  | some outer =>
      rw [htp] at h houter
      exact hone update.stripped outer hprogram houter h
  | none =>
      rw [htp] at h houter
      dsimp only at h houter
      split at h
      case h_1 => cases h
      case h_2 outer hpresent =>
          rw [hpresent] at houter
          exact hone update outer hprogram houter h
      case h_3 present hnil hsingle =>
          -- several programs: the event is the only one, so the inner one's if that adds any
          split at h
          case h_2 => cases h
          rename_i only honly
          cases h
          by_cases hsame : ∀ outer ∈ known.filter fun p => p ∈ update.accountKeys,
              (update.routed inner).parseProgram d poolLookup outer =
                update.alone.parseProgram d poolLookup outer
          · rw [List.filterMap_congr hsame] at honly
            split at houter
            case h_1 hempty => exact absurd hempty hnil
            case h_2 p hp => exact absurd hp (hsingle p)
            case h_3 =>
                rw [honly] at houter
                cases houter
          · obtain ⟨outer, hdiffers⟩ := not_forall.mp hsame
            obtain ⟨hmem, hdiffers⟩ := Classical.not_imp.mp hdiffers
            obtain heq | ⟨event', hevent, hsynth⟩ := parseProgram_routed (d := d) hprogram outer
            · exact absurd heq hdiffers
            · have hin : event' ∈ [event] := by
                rw [← honly]
                exact List.mem_filterMap.mpr ⟨outer, hmem, hevent⟩
              rw [hsynth, List.mem_singleton.mp hin]

/-- An instruction of fewer than eight bytes parses to nothing. -/
theorem tryParseTopLevel_of_short (hshort : update.instructionData.length < 8) :
    update.alone.tryParseTopLevel d poolLookup = none := by
  unfold tryParseTopLevel
  split
  · exact parseProgram_of_short hshort rfl
  · split
    · rfl
    · exact parseProgram_of_short hshort rfl
    · have hnone : ∀ l : List Pubkey,
          l.filterMap (update.alone.parseProgram d poolLookup) = [] := by
        intro l
        rw [List.filterMap_eq_nil_iff]
        exact fun _ _ => parseProgram_of_short hshort rfl
      rw [hnone]

/-- The scan of a single inner instruction is its parser. -/
theorem scanInner_single
    (hprogram : update.accountKeys[inner.programIdIndex.toNat]? = some program) :
    update.scanInner d poolLookup none [inner] =
      (update.synth inner).parseProgram d poolLookup program := by
  unfold scanInner
  by_cases hshort : inner.data.length < 8
  · rw [if_pos hshort, parseProgram_of_short hshort rfl]
    rfl
  · rw [if_neg hshort, hprogram]
    dsimp only
    split
    case h_1 hnone =>
        rw [hnone]
        rfl
    case h_2 event hevent =>
        rw [hevent]
        split
        · split <;> rfl
        · rfl

/-- **An instruction that is the only inner one**, behind an outer instruction that parses to nothing,
    parses as it would at the top level over the accounts its indices resolve to. -/
theorem routed_eq (hprogram : update.accountKeys[inner.programIdIndex.toNat]? = some program)
    (houter : update.alone.tryParseTopLevel d poolLookup = none) :
    (update.routed inner).parseTransactionUpdateWithPoolLookup d poolLookup =
      (update.synth inner).parseProgram d poolLookup program := by
  unfold parseTransactionUpdateWithPoolLookup
  split
  case h_1 event hevent => exact (tryParseTopLevel_routed hprogram houter hevent).symm
  case h_2 =>
      have hscan : (update.routed inner).scanInner d poolLookup none [inner] =
          ((update.routed inner).synth inner).parseProgram d poolLookup program :=
        scanInner_single hprogram
      exact (if_pos (List.cons_ne_nil inner [])).trans hscan

end Routes

/-! ## 3. The harvest -/

/-- `ParsedDexEvent`'s pool. -/
def eventPool : ParsedDexEvent → Pubkey
  | .poolCreated created => created.poolAddress
  | .trade t => t.poolAddress

section Harvest

variable {d poolLookup update} {inner : InnerInstruction} {t : Trade}

theorem harvestFrom_eq (seenPools : List Pubkey) (instructions : List InnerInstruction) :
    update.harvestFrom d seenPools instructions =
      firsts Trade.poolAddress seenPools (instructions.filterMap (update.harvested d)) := by
  induction instructions generalizing seenPools with
  | nil => rfl
  | cons inner rest ih =>
      unfold harvestFrom
      cases h : update.harvested d inner with
      | none =>
          rw [List.filterMap_cons_none h]
          exact ih seenPools
      | some trade =>
          rw [List.filterMap_cons_some h]
          dsimp only
          unfold firsts
          rw [ih, ih]

/-- What is harvested from an instruction is what it parses to. -/
theorem parse_of_harvested (h : update.harvested d inner = some t) :
    update.accountKeys[inner.programIdIndex.toNat]? = some pumpfunAmmProgramId ∧
      (update.synth inner).parsePumpfunAmmTransaction d = some (.trade t) := by
  unfold harvested at h
  split at h
  case isTrue => cases h
  split at h
  case isTrue => cases h
  rename_i hprogram
  obtain ⟨event, hevent, hverified⟩ := Option.bind_eq_some_iff.mp h
  refine ⟨not_not.mp hprogram, ?_⟩
  unfold pumpAmmTradeVerifiedV14 at hverified
  split at hverified
  case h_2 => cases hverified
  split at hverified
  case h_2 => cases hverified
  split at hverified
  case isFalse => cases hverified
  cases hverified
  exact hevent

/-- **What is harvested**: the verified trades that are the first of their pool, but for the pool of
    a primary PumpSwap trade. -/
theorem mem_pumpAmmSidefx :
    t ∈ update.pumpAmmSidefx d poolLookup ↔
      primaryPumpPool (update.parseTransactionUpdateWithPoolLookup d poolLookup) ≠
          some t.poolAddress ∧
        ∃ pre post, update.innerInstructions.filterMap (update.harvested d) = pre ++ t :: post ∧
          ∀ t' ∈ pre, t'.poolAddress ≠ t.poolAddress := by
  unfold pumpAmmSidefx
  split
  case isTrue hempty =>
      rw [hempty]
      simp
  case isFalse =>
      unfold filterPumpAmmHarvestAgainstPrimary collectPumpAmmHarvests
      rw [List.mem_filter, harvestFrom_eq, mem_firsts]
      constructor
      · rintro ⟨⟨-, hfirst⟩, hkept⟩
        exact ⟨of_decide_eq_true hkept, hfirst⟩
      · rintro ⟨hkept, hfirst⟩
        exact ⟨⟨List.not_mem_nil, hfirst⟩, decide_eq_true hkept⟩

theorem nodup_pumpAmmSidefx :
    ((update.pumpAmmSidefx d poolLookup).map Trade.poolAddress).Nodup := by
  unfold pumpAmmSidefx
  split
  · exact List.nodup_nil
  · unfold filterPumpAmmHarvestAgainstPrimary collectPumpAmmHarvests
    rw [harvestFrom_eq]
    exact (nodup_firsts [] _).sublist (List.filter_sublist.map _)

theorem exists_mem_pumpAmmSidefx (hmem : inner ∈ update.innerInstructions)
    (h : update.harvested d inner = some t)
    (hprimary : primaryPumpPool (update.parseTransactionUpdateWithPoolLookup d poolLookup) ≠
      some t.poolAddress) :
    ∃ t' ∈ update.pumpAmmSidefx d poolLookup, t'.poolAddress = t.poolAddress := by
  have hin : t ∈ update.innerInstructions.filterMap (update.harvested d) :=
    List.mem_filterMap.mpr ⟨inner, hmem, h⟩
  obtain ⟨t', hfirst, hpool⟩ :=
    exists_mem_firsts hin (List.not_mem_nil (a := t.poolAddress))
  obtain ⟨-, hposition⟩ := mem_firsts.mp hfirst
  refine ⟨t', mem_pumpAmmSidefx.mpr ⟨?_, hposition⟩, hpool⟩
  rw [hpool]
  exact hprimary

end Harvest

/-! ## 4. When the routes agree -/

/-- The account that an index of an instruction names. -/
def accountAt (idx : UInt8) : Option Pubkey := update.accountKeys[idx.toNat]?

/-- **What an instruction behind an aggregator must give**: with every index among the keys, the event
    of the same instruction at the top level; and any event from accounts at their own positions. -/
structure RoutesAgree (inner : InnerInstruction) (program : Pubkey) : Prop where
  same : ∀ accounts : List Pubkey, inner.accounts.map update.accountAt = accounts.map some →
    (update.routed inner).parseTransactionUpdateWithPoolLookup d poolLookup =
      (update.direct program accounts inner.data).parseTransactionUpdateWithPoolLookup d poolLookup
  positional : ∀ event,
    (update.routed inner).parseTransactionUpdateWithPoolLookup d poolLookup = some event →
      Positional update.accountAt inner.accounts

/-- An instruction is the first of its pool whose trade is harvested. -/
def Leads (inner : InnerInstruction) (t : Trade) : Prop :=
  ∃ pre post, update.innerInstructions = pre ++ inner :: post ∧
    update.harvested d inner = some t ∧
    ∀ inner' ∈ pre, ∀ t', update.harvested d inner' = some t' → t'.poolAddress ≠ t.poolAddress

/-- **What the harvest must be**: each verified pool once, but never the primary event's pool, and
    each trade as its instruction gives it at the top level, from accounts at their own positions. -/
structure HarvestSound : Prop where
  once : ((update.pumpAmmSidefx d poolLookup).map Trade.poolAddress).Nodup
  complete : ∀ inner ∈ update.innerInstructions, ∀ t, update.harvested d inner = some t →
    (update.parseTransactionUpdateWithPoolLookup d poolLookup).map eventPool ≠
      some t.poolAddress →
    ∃ t' ∈ update.pumpAmmSidefx d poolLookup, t'.poolAddress = t.poolAddress
  notPrimary : ∀ t ∈ update.pumpAmmSidefx d poolLookup,
    (update.parseTransactionUpdateWithPoolLookup d poolLookup).map eventPool ≠ some t.poolAddress
  same : ∀ t ∈ update.pumpAmmSidefx d poolLookup, ∃ inner, update.Leads d inner t ∧
    (update.direct pumpfunAmmProgramId (update.resolvedAccounts inner.accounts)
      inner.data).parseTransactionUpdateWithPoolLookup d poolLookup = some (.trade t)
  positional : ∀ t ∈ update.pumpAmmSidefx d poolLookup, ∀ inner, update.Leads d inner t →
    Positional update.accountAt inner.accounts

section Agree

variable {d poolLookup update} {inner : InnerInstruction} {program : Pubkey} {t : Trade}

/-- **When an instruction behind an aggregator agrees**: exactly when no index outside the keys stands
    before one inside, or its parser refuses what is left of its accounts. -/
theorem routesAgree_iff
    (hprogram : update.accountKeys[inner.programIdIndex.toNat]? = some program)
    (hknown : program ∈ known) (houter : update.alone.tryParseTopLevel d poolLookup = none) :
    update.RoutesAgree d poolLookup inner program ↔
      NoGap update.accountAt inner.accounts ∨
        (update.synth inner).parseProgram d poolLookup program = none := by
  have hrouted := routed_eq hprogram houter
  constructor
  · intro h
    cases hparse : (update.synth inner).parseProgram d poolLookup program with
    | none => exact .inr rfl
    | some event => exact .inl (positional_iff_noGap.mp (h.positional event (hrouted.trans hparse)))
  · intro h
    refine ⟨fun accounts haccounts => ?_, fun event hevent => ?_⟩
    · have hresolved : update.resolvedAccounts inner.accounts = accounts := by
        have hall : ∀ idx ∈ inner.accounts, (update.accountAt idx).isSome := by
          intro idx hidx
          have hmem : update.accountAt idx ∈ accounts.map some := by
            rw [← haccounts]
            exact List.mem_map_of_mem hidx
          obtain ⟨pk, -, hpk⟩ := List.mem_map.mp hmem
          rw [← hpk]
          rfl
        have hmap := (map_some_filterMap hall).trans haccounts
        exact List.map_injective_iff.mpr (Option.some_injective _) hmap
      rw [hrouted, parse_direct hknown, ← hresolved]
      rfl
    · rw [hrouted] at hevent
      obtain hgap | hnone := h
      · exact positional_iff_noGap.mpr hgap
      · rw [hnone] at hevent
        cases hevent

/-- A harvested trade is led by an instruction, and a trade that is led is the first of its pool. -/
theorem first_iff_leads :
    (∃ pre post, update.innerInstructions.filterMap (update.harvested d) = pre ++ t :: post ∧
        ∀ t' ∈ pre, t'.poolAddress ≠ t.poolAddress) ↔ ∃ inner, update.Leads d inner t := by
  constructor
  · rintro ⟨pre, post, hsplit, hfirst⟩
    obtain ⟨left, right, hlist, hleft, hright⟩ := List.filterMap_eq_append_iff.mp hsplit
    obtain ⟨skipped, inner, rest, hright', hskipped, hinner, -⟩ :=
      List.filterMap_eq_cons_iff.mp hright
    refine ⟨inner, left ++ skipped, rest, by rw [hlist, hright', List.append_assoc], hinner, ?_⟩
    intro inner' hmem t' ht'
    obtain hmem | hmem := List.mem_append.mp hmem
    · refine hfirst t' ?_
      rw [← hleft]
      exact List.mem_filterMap.mpr ⟨inner', hmem, ht'⟩
    · rw [hskipped inner' hmem] at ht'
      cases ht'
  · rintro ⟨inner, pre, post, hlist, hinner, hfirst⟩
    refine ⟨pre.filterMap (update.harvested d), post.filterMap (update.harvested d), ?_, ?_⟩
    · rw [hlist, List.filterMap_append, List.filterMap_cons_some hinner]
    · intro t' ht'
      obtain ⟨inner', hmem, hinner'⟩ := List.mem_filterMap.mp ht'
      exact hfirst inner' hmem t' hinner'

theorem mem_pumpAmmSidefx_iff_leads :
    t ∈ update.pumpAmmSidefx d poolLookup ↔
      primaryPumpPool (update.parseTransactionUpdateWithPoolLookup d poolLookup) ≠
          some t.poolAddress ∧ ∃ inner, update.Leads d inner t := by
  rw [mem_pumpAmmSidefx, first_iff_leads]

/-- The pool of a primary PumpSwap trade is the pool of the primary event. -/
theorem eventPool_of_primaryPumpPool {primary : Option ParsedDexEvent} {pool : Pubkey}
    (h : primaryPumpPool primary = some pool) : primary.map eventPool = some pool := by
  unfold primaryPumpPool at h
  split at h
  case h_2 => cases h
  split at h
  case isFalse => cases h
  exact h

/-- **When the harvest is sound**: exactly when no instruction that leads a harvested trade has an
    index outside the keys before one inside, and every verified trade of the primary event's pool
    meets a primary PumpSwap trade. -/
theorem harvestSound_iff :
    update.HarvestSound d poolLookup ↔
      (∀ inner t, update.Leads d inner t →
        primaryPumpPool (update.parseTransactionUpdateWithPoolLookup d poolLookup) ≠
          some t.poolAddress → NoGap update.accountAt inner.accounts) ∧
      ∀ inner ∈ update.innerInstructions, ∀ t, update.harvested d inner = some t →
        (update.parseTransactionUpdateWithPoolLookup d poolLookup).map eventPool =
          some t.poolAddress →
        primaryPumpPool (update.parseTransactionUpdateWithPoolLookup d poolLookup) =
          some t.poolAddress := by
  constructor
  · intro h
    refine ⟨fun inner t hleads hprimary => ?_, fun inner hmem t ht hpool => ?_⟩
    · have hin := mem_pumpAmmSidefx_iff_leads.mpr ⟨hprimary, inner, hleads⟩
      exact positional_iff_noGap.mp (h.positional t hin inner hleads)
    · by_contra hprimary
      obtain ⟨t', ht', hpool'⟩ := exists_mem_pumpAmmSidefx hmem ht hprimary
      exact h.notPrimary t' ht' (hpool' ▸ hpool)
  · rintro ⟨hgap, hprimary⟩
    refine ⟨nodup_pumpAmmSidefx, fun inner hmem t ht hpool => ?_, fun t hin hpool => ?_,
      fun t hin => ?_, fun t hin inner hleads => ?_⟩
    · exact exists_mem_pumpAmmSidefx hmem ht fun hp => hpool (eventPool_of_primaryPumpPool hp)
    · obtain ⟨hkept, inner, pre, post, hlist, hinner, -⟩ := mem_pumpAmmSidefx_iff_leads.mp hin
      have hmem : inner ∈ update.innerInstructions := by
        rw [hlist]
        exact List.mem_append_right _ List.mem_cons_self
      exact hkept (hprimary inner hmem t hinner hpool)
    · obtain ⟨-, inner, hleads⟩ := mem_pumpAmmSidefx_iff_leads.mp hin
      refine ⟨inner, hleads, ?_⟩
      obtain ⟨_, _, _, hinner, _⟩ := hleads
      rw [parse_direct (by simp [known]), ← (parse_of_harvested hinner).2]
      exact parseProgram_pumpfunAmm poolLookup
    · exact positional_iff_noGap.mpr (hgap inner t hleads (mem_pumpAmmSidefx_iff_leads.mp hin).1)

end Agree

/-- **When top-level and CPI parsing agree**, for a single inner instruction of a known program and
    for the harvest. -/
theorem cpi_agrees_iff (d : Derivation) (poolLookup : PoolLookup)
    (update : GeyserTransactionUpdate) :
    (∀ inner program, update.accountKeys[inner.programIdIndex.toNat]? = some program →
      program ∈ known → update.alone.tryParseTopLevel d poolLookup = none →
      (update.RoutesAgree d poolLookup inner program ↔
        NoGap update.accountAt inner.accounts ∨
          (update.synth inner).parseProgram d poolLookup program = none)) ∧
    (update.HarvestSound d poolLookup ↔
      (∀ inner t, update.Leads d inner t →
        primaryPumpPool (update.parseTransactionUpdateWithPoolLookup d poolLookup) ≠
          some t.poolAddress → NoGap update.accountAt inner.accounts) ∧
      ∀ inner ∈ update.innerInstructions, ∀ t, update.harvested d inner = some t →
        (update.parseTransactionUpdateWithPoolLookup d poolLookup).map eventPool =
          some t.poolAddress →
        primaryPumpPool (update.parseTransactionUpdateWithPoolLookup d poolLookup) =
          some t.poolAddress) :=
  ⟨fun _ _ hprogram hknown houter => routesAgree_iff hprogram hknown houter, harvestSound_iff⟩

/-! ## 5. Two transactions where they do not -/

/-- The hashes of the two PumpSwap instruction names. -/
def namedDerivation : Derivation :=
  ⟨fun _ _ => 5, fun _ _ _ => 6, fun name =>
    if name = "sell" then [51, 230, 133, 164, 1, 127, 131, 173]
    else [198, 46, 21, 82, 180, 217, 232, 112]⟩

/-- A transaction of a payer over a program and two accounts, its own instruction empty. -/
def routedTransaction (program : Pubkey) (inner : List InnerInstruction) : GeyserTransactionUpdate :=
  ⟨"tx", 42, [1, program, 7, 8], [], [], inner, [], [], [], []⟩

/-- A Raydium swap over seventeen accounts. -/
def inRangeSwap : InnerInstruction :=
  ⟨1, 2 :: 3 :: List.replicate 15 2, raydiumSwapBaseIn :: List.replicate 16 0⟩

/-- The same with an index outside the keys in front: every account moves up by one. -/
def shiftedSwap : InnerInstruction :=
  ⟨1, 200 :: 2 :: 3 :: List.replicate 15 2, raydiumSwapBaseIn :: List.replicate 16 0⟩

/-- A buy from a pool of the same transaction. -/
def createdBuy : InnerInstruction :=
  ⟨1, List.replicate 23 2, [198, 46, 21, 82, 180, 217, 232, 112] ++ List.replicate 16 0⟩

/-- A pool is created and bought from in one transaction. -/
def createAndBuy : List InnerInstruction :=
  [⟨1, List.replicate 18 2, pumpfunAmmCreatePool⟩, createdBuy]

theorem raydium_known : raydiumAmmV4 ∈ known := by simp [known]

/-- A swap over the keys in range agrees, and so does the harvest of a transaction with one buy. -/
theorem cpi_agrees_in_range :
    (routedTransaction raydiumAmmV4 []).RoutesAgree namedDerivation none inRangeSwap raydiumAmmV4 ∧
      (routedTransaction pumpfunAmmProgramId [createdBuy]).HarvestSound namedDerivation none := by
  have hbought : primaryPumpPool ((routedTransaction pumpfunAmmProgramId
      [createdBuy]).parseTransactionUpdateWithPoolLookup namedDerivation none) = some 7 := by
    decide +kernel
  refine ⟨((cpi_agrees_iff namedDerivation none (routedTransaction raydiumAmmV4 [])).1 inRangeSwap
    raydiumAmmV4 rfl raydium_known (tryParseTopLevel_of_short (by decide))).mpr (.inl ?_),
    (cpi_agrees_iff namedDerivation none (routedTransaction pumpfunAmmProgramId
      [createdBuy])).2.mpr ⟨fun inner t hleads _ => ?_, fun inner hmem t ht hpool => ?_⟩⟩
  · exact noGap_of_forall (by decide +kernel)
  · obtain ⟨pre, post, hsplit, -⟩ := hleads
    have hmem : inner ∈ [createdBuy] := by
      change [createdBuy] = pre ++ inner :: post at hsplit
      rw [hsplit]
      exact List.mem_append_right _ List.mem_cons_self
    rw [List.mem_singleton.mp hmem]
    exact noGap_of_forall (by decide +kernel)
  · rw [hbought]
    rw [eventPool_of_primaryPumpPool hbought] at hpool
    exact hpool

/-- A shifted swap is an event of another pool, and the harvest holds the created pool's own. -/
theorem cpi_disagrees :
    ¬ (routedTransaction raydiumAmmV4 []).RoutesAgree namedDerivation none shiftedSwap
        raydiumAmmV4 ∧
      ¬ (routedTransaction pumpfunAmmProgramId createAndBuy).HarvestSound namedDerivation none := by
  constructor
  · rw [routesAgree_iff rfl raydium_known (tryParseTopLevel_of_short (by decide))]
    rintro (hgap | hnone)
    · have hnone := (noGap_cons_none (by decide +kernel)).mp hgap 2 List.mem_cons_self
      cases hnone
    · rw [parseProgram_raydiumAmmV4] at hnone
      have hsome : ((routedTransaction raydiumAmmV4 []).synth
          shiftedSwap).parseRaydiumTransaction.isSome = true := by decide +kernel
      rw [hnone] at hsome
      cases hsome
  · rw [harvestSound_iff]
    rintro ⟨-, hprimary⟩
    have hharvested : ((routedTransaction pumpfunAmmProgramId createAndBuy).harvested
        namedDerivation createdBuy).map Trade.poolAddress = some 7 := by decide +kernel
    obtain ⟨t, ht, hpool⟩ := Option.map_eq_some_iff.mp hharvested
    have hcreated : ((routedTransaction pumpfunAmmProgramId
        createAndBuy).parseTransactionUpdateWithPoolLookup namedDerivation none).map
          (fun event => (eventPool event, primaryPumpPool (some event))) = some (7, none) := by
      decide +kernel
    obtain ⟨event, hevent, hpools⟩ := Option.map_eq_some_iff.mp hcreated
    obtain ⟨heventPool, hnone⟩ := Prod.mk.inj hpools
    have hsome := hprimary createdBuy (List.mem_cons_of_mem _ List.mem_cons_self) t ht
    rw [hevent, Option.map_some, heventPool, hpool] at hsome
    replace hsome := hsome rfl
    rw [hnone] at hsome
    cases hsome

end GeyserTransactionUpdate

end IronCrab.Solana

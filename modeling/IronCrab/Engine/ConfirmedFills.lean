/-
  File:      IronCrab/Engine/ConfirmedFills.lean
  Subject:   WHAT A CONFIRMED TRANSACTION DID TO THE WALLET (src/bin/execution_engine.rs): the fills
             and the SOL change from the transaction meta, and the SOL change of a simulation.

  A transaction has one token balance row an account and at most 256 accounts, so that sums of
  `u64` amounts and lamports stay far inside `u128` and `i128`; they are numbers here. The
  `amount` of a row is the text of a `u64`, which both parsers read back. A mint has less than 20
  decimals (`10u64.pow` of `ExplicitAmount::new`).

  * `computeIntentFillsBestEffort` -- the arb branch and the regular one, with all they return;
  * `computeSimWalletSolDeltaLamports` -- the same change from a simulation;
  * `simSolDelta_eq` -- the simulated change is the native one plus the one of the wrapped SOL;
  * `confirmed_sol_agrees_iff` -- exactly when the confirmed accounting says the same;
  * `wrapped_funding_lost` -- a buy that is paid in wrapped SOL.
-/
import IronCrab.Ipc.Records
import IronCrab.Lib.Word
import IronCrab.Track.Snapshot

namespace IronCrab.Engine.Fills

open Track (Pubkey)
open Track.TextCodec (base58Text base58Pubkey)
open Ipc (F64 ExplicitAmount Decimal FillStatus FillUnavailableReason TradeSide)

/-! ## 1. Transactions -/

/-- `SOL_MINT`. -/
def solMint : String := "So11111111111111111111111111111111111111112"

/-- `UiTransactionTokenBalance`, with its `UiTokenAmount`. -/
structure TokenBalance where
  mint : String
  owner : Option String
  amount : UInt64
  decimals : UInt8
  decimals_lt : decimals < 20

/-- `UiTransactionStatusMeta`; the inner instructions as the JSON that is searched. -/
structure TransactionMeta where
  fee : UInt64
  preBalances : List UInt64
  postBalances : List UInt64
  preTokenBalances : Option (List TokenBalance)
  postTokenBalances : Option (List TokenBalance)
  innerInstructions : Option (Wire.Json F64)

/-- An entry of `message.accountKeys`: a text, or an object that may have a `pubkey`. -/
inductive AccountKey where
  | text (key : String)
  | object (pubkey : Option String)

/-- `EncodedConfirmedTransactionWithStatusMeta`. -/
structure ConfirmedTransaction where
  accountKeys : Option (List AccountKey)
  status : Option TransactionMeta
  blockTime : Option Int

/-- `RpcSimulateTransactionResult`, with its loaded addresses (writable, then readonly). -/
structure SimulateResult where
  preBalances : Option (List UInt64)
  postBalances : Option (List UInt64)
  preTokenBalances : Option (List TokenBalance)
  postTokenBalances : Option (List TokenBalance)
  loadedAddresses : Option (List String × List String)

/-- The trailing zeros of an amount go with its decimals, as in a division of decimals. -/
def quotient (raw : Nat) : Nat → Nat × Nat
  | 0 => (raw, 0)
  | places + 1 => if raw % 10 = 0 then quotient (raw / 10) places else (raw, places + 1)

/-- `ExplicitAmount::new`. -/
def explicitAmount (raw : UInt64) (decimals : UInt8) : ExplicitAmount where
  raw
  decimals
  ui :=
    let (mantissa, scale) := quotient raw.toNat decimals.toNat
    some ⟨false, Fin.ofNat (2 ^ 96) mantissa, Fin.ofNat 29 scale⟩

/-- `z as u64`. -/
def asU64 (z : Int) : UInt64 := .ofNat (z % 2 ^ 64).toNat

/-! ## 2. Token balances -/

/-- The rows of a mint that an owner has. -/
def ownedRows (rows : List TokenBalance) (owner mint : String) : List TokenBalance :=
  rows.filter fun b => b.mint = mint && b.owner = some owner

/-- What is summed up over some rows. -/
def amountSum (rows : List TokenBalance) : Nat := (rows.map fun b => b.amount.toNat).sum

/-- Both token balance lists. -/
def tokenBalances (tx : ConfirmedTransaction) : Option (List TokenBalance × List TokenBalance) := do
  let status ← tx.status
  let pre ← status.preTokenBalances
  let post ← status.postTokenBalances
  some (pre, post)

/-- `extract_owner_mint_delta_raw`. -/
def extractOwnerMintDeltaRaw (tx : ConfirmedTransaction) (owner : Pubkey) (mint : String) :
    Option (UInt8 × Int) := do
  let (pre, post) ← tokenBalances tx
  let preOwned := ownedRows pre (base58Text owner) mint
  let postOwned := ownedRows post (base58Text owner) mint
  let last ← (preOwned ++ postOwned).getLast?
  some (last.decimals, (amountSum postOwned : Int) - amountSum preOwned)

/-- `tx_meta_wallet_token_balance_absent_after_tx`. -/
def txMetaWalletTokenBalanceAbsentAfterTx (tx : ConfirmedTransaction) (wallet : Pubkey)
    (mint : String) : Bool :=
  match tokenBalances tx with
  | none => false
  | some (pre, post) =>
      decide (amountSum (ownedRows pre (base58Text wallet) mint) ≠ 0) &&
        decide (amountSum (ownedRows post (base58Text wallet) mint) = 0)

/-- A sum of `u64`s that saturates. -/
def saturatingSum (rows : List TokenBalance) : UInt64 :=
  rows.foldl (fun sum b => Word.satAdd sum b.amount) 0

/-- `extract_arb_wsol_flows`. -/
def extractArbWsolFlows (tx : ConfirmedTransaction) (wallet : Pubkey) :
    Option (Option ExplicitAmount × Option ExplicitAmount) := do
  let (pre, post) ← tokenBalances tx
  let wsolPre := saturatingSum (ownedRows pre (base58Text wallet) solMint)
  let wsolPost := saturatingSum (ownedRows post (base58Text wallet) solMint)
  if 0 < wsolPre ∨ 0 < wsolPost then
    some (some (explicitAmount wsolPre 9), some (explicitAmount wsolPost 9))
  else none

/-! ## 3. Lamports -/

def AccountKey.pubkey : AccountKey → Option String
  | .text key => some key
  | .object pubkey => pubkey

/-- `find_message_account_index`. -/
def findMessageAccountIndex (tx : ConfirmedTransaction) (pubkey : Pubkey) : Option Nat := do
  let accountKeys ← tx.accountKeys
  accountKeys.findIdx? fun ak => ak.pubkey = some (base58Text pubkey)

/-- What `compute_wallet_lamport_delta_best_effort` returns. -/
structure LamportDelta where
  delta : Int
  fee : UInt64
  lifecycleNoise : Bool
  rentAdjustment : Int

/-- The balances before and after of the accounts other than the wallet's. -/
def otherAccounts (status : TransactionMeta) (walletIndex : Nat) : List (UInt64 × UInt64) :=
  (((status.preBalances.zip status.postBalances).zipIdx).filter fun e => e.2 ≠ walletIndex).map
    Prod.fst

/-- An account is created. -/
def created (e : UInt64 × UInt64) : Bool := e.1 = 0 && 0 < e.2

/-- An account is closed. -/
def closed (e : UInt64 × UInt64) : Bool := 0 < e.1 && e.2 = 0

def rentOf (e : UInt64 × UInt64) : Int :=
  (if created e then (e.2.toNat : Int) else 0) - if closed e then (e.1.toNat : Int) else 0

/-- `compute_wallet_lamport_delta_best_effort`. -/
def computeWalletLamportDeltaBestEffort (tx : ConfirmedTransaction) (wallet : Pubkey) :
    Option LamportDelta := do
  let status ← tx.status
  let walletIndex ← findMessageAccountIndex tx wallet
  let pre ← status.preBalances[walletIndex]?
  let post ← status.postBalances[walletIndex]?
  some
    { delta := (post.toNat : Int) - pre.toNat
      fee := status.fee
      lifecycleNoise := (otherAccounts status walletIndex).any fun e => created e || closed e
      rentAdjustment := ((otherAccounts status walletIndex).map rentOf).sum }

/-! ## 4. Inner instructions -/

/-- `value.get(key)`. -/
def get (key : String) : Wire.Json F64 → Option (Wire.Json F64)
  | .obj entries => (Wire.valuesAt entries key).head?
  | _ => none

def asStr : Wire.Json F64 → Option String
  | .str s => some s
  | _ => none

def asU64Json : Wire.Json F64 → Option UInt64
  | .int n => if 0 ≤ n ∧ n < 2 ^ 64 then some (.ofNat n.toNat) else none
  | _ => none

def asArray : Wire.Json F64 → Option (List (Wire.Json F64))
  | .arr items => some items
  | _ => none

/-- A field of an instruction, directly or in a `Parsed` wrapper. -/
def wrapped (key : String) (ix : Wire.Json F64) : Option (Wire.Json F64) :=
  get key ix <|> (get "Parsed" ix).bind (get key)

def wrappedStr (key : String) (ix : Wire.Json F64) : Option String :=
  (get key ix).bind asStr <|> ((get "Parsed" ix).bind (get key)).bind asStr

/-- The source, the destination and the lamports of a parsed system transfer. -/
def systemTransfer (ix : Wire.Json F64) : Option (String × String × UInt64) :=
  if wrappedStr "program" ix = some "system" ∨
      wrappedStr "programId" ix = some "11111111111111111111111111111111" then do
    let parsed ← wrapped "parsed" ix
    let info ← get "info" parsed
    let ixType := ((get "type" parsed).bind asStr).getD ""
    if ixType = "transfer" then
      some (((get "source" info).bind asStr).getD "", ((get "destination" info).bind asStr).getD "",
        ((get "lamports" info).bind asU64Json).getD 0)
    else none
  else none

/-- `extract_swap_sol_from_inner_instructions`: what the wallet sent, and what it was sent. -/
def extractSwapSolFromInnerInstructions (tx : ConfirmedTransaction) (wallet : Pubkey) :
    UInt64 × UInt64 :=
  let groups := ((tx.status.bind (·.innerInstructions)).bind asArray).getD []
  let instructions := groups.flatMap fun group =>
    ((get "instructions" group).bind asArray).getD []
  (instructions.filterMap systemTransfer).foldl
    (fun sums transfer =>
      let (source, destination, lamports) := transfer
      if source = base58Text wallet ∧ destination ≠ base58Text wallet then
        (Word.satAdd sums.1 lamports, sums.2)
      else if destination = base58Text wallet ∧ source ≠ base58Text wallet then
        (sums.1, Word.satAdd sums.2 lamports)
      else sums)
    (0, 0)

/-! ## 5. The fills -/

/-- `ComputedIntentFills`. -/
structure ComputedIntentFills where
  fillIn : Option ExplicitAmount
  fillOut : Option ExplicitAmount
  fillStatus : FillStatus
  fillUnavailableReason : Option FillUnavailableReason
  walletSolDelta : Option Int
  blockTimeUnixMs : Option UInt64
  walletTokenBalanceAbsentAfterTx : Bool

/-- Fills that are not known, for a reason. -/
def unavailable (reason : FillUnavailableReason) (blockTimeUnixMs : Option UInt64) :
    ComputedIntentFills where
  fillIn := none
  fillOut := none
  fillStatus := .unavailable
  fillUnavailableReason := some reason
  walletSolDelta := none
  blockTimeUnixMs
  walletTokenBalanceAbsentAfterTx := false

/-- `block_time_unix_ms`. -/
def blockTimeUnixMs (tx : ConfirmedTransaction) : Option UInt64 :=
  tx.blockTime.bind fun bt =>
    if 0 < bt then some (.ofNat (min (bt.toNat * 1000) (2 ^ 64 - 1))) else none

/-- A cycle from WSOL to WSOL. -/
def isArbCycle (intent : Ipc.TradeIntent) : Bool :=
  intent.resources.inputMint = intent.resources.outputMint && intent.resources.inputMint = solMint

/-- The lamport delta, and why it is not to be relied on; zeros where it is not known. -/
def lamports (tx : ConfirmedTransaction) (wallet : Pubkey) :
    LamportDelta × Option FillUnavailableReason :=
  match computeWalletLamportDeltaBestEffort tx wallet with
  | some delta =>
      (delta,
        if delta.lifecycleNoise then some .lamportDeltaGatedAccountLifecycleNoise else none)
  | none => (⟨0, 0, true, 0⟩, some .walletAccountIndexMissing)

/-- `(in_raw + delta).max(0) as u64`. -/
def shifted (raw : UInt64) (delta : Int) : UInt64 := asU64 (max (raw.toNat + delta) 0)

/-- The arb branch, where it returns. -/
def arbFills (tx : ConfirmedTransaction) (wallet : Pubkey) (intent : Ipc.TradeIntent)
    (payer : LamportDelta) : Option ComputedIntentFills :=
  match extractOwnerMintDeltaRaw tx wallet solMint with
  | some (decimals, wsolDelta) =>
      let (arbFillIn, arbFillOut) := (extractArbWsolFlows tx wallet).getD (none, none)
      let fillIn := arbFillIn <|> some intent.requiredCapital
      let fillOut := arbFillOut <|>
        fillIn.map fun fi => explicitAmount (shifted fi.raw wsolDelta) decimals
      some
        { fillIn, fillOut
          fillStatus := .complete
          fillUnavailableReason := none
          walletSolDelta :=
            some (if payer.lifecycleNoise then wsolDelta else wsolDelta + payer.delta)
          blockTimeUnixMs := blockTimeUnixMs tx
          walletTokenBalanceAbsentAfterTx := false }
  | none =>
      if payer.lifecycleNoise then none
      else
        some
          { fillIn := some intent.requiredCapital
            fillOut := some (explicitAmount (shifted intent.requiredCapital.raw payer.delta) 9)
            fillStatus := .partialFill
            fillUnavailableReason := some .tokenBalanceDeltaMissing
            walletSolDelta := some payer.delta
            blockTimeUnixMs := blockTimeUnixMs tx
            walletTokenBalanceAbsentAfterTx := false }

/-- `fill_in` of the regular branch. -/
def regularFillIn (intent : Ipc.TradeIntent) (payer : LamportDelta) (ixSolOut : UInt64) :
    Option (UInt8 × Int) → Option ExplicitAmount
  | some (decimals, delta) =>
      if delta < 0 then some (explicitAmount (asU64 (-delta)) decimals) else none
  | none =>
      if intent.resources.inputMint = solMint ∧ payer.lifecycleNoise = false ∧ payer.delta < 0 then
        let spentExFee := Word.satSub (asU64 (-payer.delta)) payer.fee
        if 0 < spentExFee then some (explicitAmount spentExFee 9) else none
      else if intent.resources.inputMint = solMint ∧ payer.lifecycleNoise = true then
        if 0 < ixSolOut then some (explicitAmount ixSolOut 9)
        else
          let adjusted := -payer.delta - payer.rentAdjustment - payer.fee.toNat
          if 0 < adjusted then some (explicitAmount (asU64 adjusted) 9)
          else some intent.requiredCapital
      else none

/-- `fill_out` of the regular branch. -/
def regularFillOut (intent : Ipc.TradeIntent) (payer : LamportDelta) (ixSolIn : UInt64) :
    Option (UInt8 × Int) → Option ExplicitAmount
  | some (decimals, delta) =>
      if 0 < delta then some (explicitAmount (asU64 delta) decimals) else none
  | none =>
      if intent.resources.outputMint = solMint ∧ payer.lifecycleNoise = false ∧ 0 < payer.delta then
        let receivedPlusFee := Word.satAdd (asU64 payer.delta) payer.fee
        if 0 < receivedPlusFee then some (explicitAmount receivedPlusFee 9) else none
      else if intent.resources.outputMint = solMint ∧ payer.lifecycleNoise = true then
        if 0 < ixSolIn then some (explicitAmount ixSolIn 9)
        else
          let adjusted := payer.delta + payer.rentAdjustment + payer.fee.toNat
          if 0 < adjusted then some (explicitAmount (asU64 adjusted) 9) else none
      else none

/-- The status of two legs. -/
def fillStatusOf (fillIn fillOut : Option ExplicitAmount) : FillStatus :=
  match fillIn.isSome, fillOut.isSome with
  | true, true => .complete
  | false, false => .unavailable
  | _, _ => .partialFill

/-- The regular branch. -/
def regularFills (tx : ConfirmedTransaction) (wallet : Pubkey) (intent : Ipc.TradeIntent)
    (payer : LamportDelta) (lamportReason : Option FillUnavailableReason) : ComputedIntentFills :=
  let inputMint := intent.resources.inputMint
  let outputMint := intent.resources.outputMint
  let inputTokenDelta := extractOwnerMintDeltaRaw tx wallet inputMint
  let outputTokenDelta := extractOwnerMintDeltaRaw tx wallet outputMint
  let (ixSolOut, ixSolIn) :=
    if (inputMint = solMint ∨ outputMint = solMint) ∧
        (inputTokenDelta.isNone ∨ outputTokenDelta.isNone) then
      extractSwapSolFromInnerInstructions tx wallet
    else (0, 0)
  let fillIn := regularFillIn intent payer ixSolOut inputTokenDelta
  let fillOut := regularFillOut intent payer ixSolIn outputTokenDelta
  let fillStatus := fillStatusOf fillIn fillOut
  let solLegMissing :=
    (inputMint = solMint ∧ fillIn.isNone) ∨ (outputMint = solMint ∧ fillOut.isNone)
  { fillIn, fillOut, fillStatus
    fillUnavailableReason :=
      if fillStatus = .complete then none
      else if (inputMint = solMint ∨ outputMint = solMint) ∧ solLegMissing then
        lamportReason <|> some .tokenBalanceDeltaMissing
      else some .tokenBalanceDeltaMissing
    walletSolDelta := some payer.delta
    blockTimeUnixMs := blockTimeUnixMs tx
    walletTokenBalanceAbsentAfterTx :=
      if intent.side = .sell ∧ inputMint ≠ solMint then
        txMetaWalletTokenBalanceAbsentAfterTx tx wallet inputMint
      else false }

/-- `compute_intent_fills_best_effort`, from the transaction that the RPC gives. -/
def computeIntentFillsBestEffort (fetched : Option ConfirmedTransaction) (wallet : Pubkey)
    (intent : Ipc.TradeIntent) : ComputedIntentFills :=
  match fetched with
  | none => unavailable .rpcTxFetchFailed none
  | some tx =>
      match tx.status with
      | none => unavailable .txMetaMissing (blockTimeUnixMs tx)
      | some _ =>
          let (payer, lamportReason) := lamports tx wallet
          let regular := regularFills tx wallet intent payer lamportReason
          if isArbCycle intent then (arbFills tx wallet intent payer).getD regular else regular

/-! ## 6. The simulation -/

/-- `message_account_keys_from_sim`. -/
def messageAccountKeysFromSim (staticKeys : List Pubkey) (sim : SimulateResult) : List Pubkey :=
  match sim.loadedAddresses with
  | none => staticKeys
  | some (writable, readonly) =>
      staticKeys ++ writable.filterMap base58Pubkey ++ readonly.filterMap base58Pubkey

/-- `extract_sim_owner_mint_delta_raw`. -/
def extractSimOwnerMintDeltaRaw (sim : SimulateResult) (owner : Pubkey) (mint : String) :
    Option Int := do
  let pre ← sim.preTokenBalances
  let post ← sim.postTokenBalances
  let preSum := amountSum (ownedRows pre (base58Text owner) mint)
  let postSum := amountSum (ownedRows post (base58Text owner) mint)
  if preSum = 0 ∧ postSum = 0 then none else some ((postSum : Int) - preSum)

/-- The lamport delta of `compute_sim_wallet_sol_delta_lamports`. -/
def simLamportDelta (staticKeys : List Pubkey) (sim : SimulateResult) (wallet : Pubkey) :
    Option Int := do
  let idx ← (messageAccountKeysFromSim staticKeys sim).findIdx? fun k => k = wallet
  let pre ← sim.preBalances
  let post ← sim.postBalances
  let preI ← pre[idx]?
  let postI ← post[idx]?
  some ((postI.toNat : Int) - preI.toNat)

/-- Two changes, of which either may be unknown. -/
def combined : Option Int → Option Int → Option Int
  | some l, some w => some (l + w)
  | some l, none => some l
  | none, some w => some w
  | none, none => none

/-- `compute_sim_wallet_sol_delta_lamports`. -/
def computeSimWalletSolDeltaLamports (staticKeys : List Pubkey) (sim : SimulateResult)
    (wallet : Pubkey) : Option Int :=
  combined (simLamportDelta staticKeys sim wallet) (extractSimOwnerMintDeltaRaw sim wallet solMint)

/-! ## 7. What is known of the wallet's SOL -/

section Known

variable (tx : ConfirmedTransaction) (wallet : Pubkey) (intent : Ipc.TradeIntent)

/-- The change of the wallet's lamports, if it is known. -/
def nativeChange : Option Int := (computeWalletLamportDeltaBestEffort tx wallet).map (·.delta)

/-- An account other than the wallet is created or closed. -/
def Noisy : Prop :=
  ∃ delta, computeWalletLamportDeltaBestEffort tx wallet = some delta ∧ delta.lifecycleNoise = true

/-- The wrapped SOL of the wallet before and after; nothing where a list is missing. -/
def wsolBefore : Nat :=
  ((tokenBalances tx).map fun rows =>
    amountSum (ownedRows rows.1 (base58Text wallet) solMint)).getD 0

def wsolAfter : Nat :=
  ((tokenBalances tx).map fun rows =>
    amountSum (ownedRows rows.2 (base58Text wallet) solMint)).getD 0

/-- There is a row of wrapped SOL of the wallet, before or after. -/
def HasWsolRows : Prop := (extractOwnerMintDeltaRaw tx wallet solMint).isSome = true

instance HasWsolRows.decidable : Decidable (HasWsolRows tx wallet) :=
  inferInstanceAs (Decidable (_ = true))

/-- **When the SOL change is right**: of an arb cycle with rows, the native part counts (or is
    nothing), and without it there is wrapped SOL to speak of; of anything else, the wrapped SOL
    does not change, and is there at all if nothing else is known. -/
def SolCounted : Prop :=
  if isArbCycle intent = true ∧ HasWsolRows tx wallet then
    match nativeChange tx wallet with
    | some native => ¬ Noisy tx wallet ∨ native = 0
    | none => ¬ (wsolBefore tx wallet = 0 ∧ wsolAfter tx wallet = 0)
  else wsolBefore tx wallet = wsolAfter tx wallet ∧
    (nativeChange tx wallet = none → wsolBefore tx wallet ≠ 0)

/-- **When the fills of an arb cycle are right**: both sums are `u64`s, or they are equal. -/
def FillsFit : Prop :=
  isArbCycle intent = true → HasWsolRows tx wallet →
    (wsolBefore tx wallet < 2 ^ 64 ∧ wsolAfter tx wallet < 2 ^ 64) ∨
      wsolBefore tx wallet = wsolAfter tx wallet

/-- **The fills say the change of the wrapped SOL.** -/
def FillsAgree (fills : ComputedIntentFills) : Prop :=
  isArbCycle intent = true → HasWsolRows tx wallet → fills.fillStatus = .complete →
    ∀ fillIn fillOut, fills.fillIn = some fillIn → fills.fillOut = some fillOut →
      (fillOut.raw.toNat : Int) - fillIn.raw.toNat = wsolAfter tx wallet - wsolBefore tx wallet

end Known

/-- **The same balances**: the confirmed transaction and the simulated one have the same account
    keys, lamports and token balances. -/
structure SameBalances (tx : ConfirmedTransaction) (status : TransactionMeta)
    (staticKeys : List Pubkey) (sim : SimulateResult) : Prop where
  status_eq : tx.status = some status
  keys : tx.accountKeys.map (List.map AccountKey.pubkey) =
    some ((messageAccountKeysFromSim staticKeys sim).map fun k => some (base58Text k))
  pre : sim.preBalances = some status.preBalances
  post : sim.postBalances = some status.postBalances
  preTokens : sim.preTokenBalances = status.preTokenBalances
  postTokens : sim.postTokenBalances = status.postTokenBalances

/-! ## 8. The simulated change -/

theorem base58Text_injective : Function.Injective base58Text := by
  intro k k' h
  have hread := Track.TextCodec.base58Pubkey_text k
  rw [h, Track.TextCodec.base58Pubkey_text k'] at hread
  exact (Option.some.inj hread).symm

section Simulated

variable {tx : ConfirmedTransaction} {status : TransactionMeta} {staticKeys : List Pubkey}
  {sim : SimulateResult} (wallet : Pubkey)

theorem SameBalances.index_eq (h : SameBalances tx status staticKeys sim) :
    findMessageAccountIndex tx wallet =
      (messageAccountKeysFromSim staticKeys sim).findIdx? fun k => k = wallet := by
  obtain ⟨accountKeys, hkeys, htexts⟩ := Option.map_eq_some_iff.mp h.keys
  unfold findMessageAccountIndex
  rw [hkeys, Option.bind_eq_bind, Option.bind_some]
  have hfind : (accountKeys.map AccountKey.pubkey).findIdx?
      (fun text => text = some (base58Text wallet)) =
        accountKeys.findIdx? fun ak => ak.pubkey = some (base58Text wallet) := List.findIdx?_map
  rw [← hfind, htexts, List.findIdx?_map]
  congr 1
  funext k
  simp only [Function.comp_apply, Option.some.injEq, base58Text_injective.eq_iff]

theorem SameBalances.lamports_eq (h : SameBalances tx status staticKeys sim) :
    simLamportDelta staticKeys sim wallet = nativeChange tx wallet := by
  unfold simLamportDelta nativeChange computeWalletLamportDeltaBestEffort
  rw [h.status_eq, h.index_eq wallet, h.pre, h.post]
  simp only [Option.bind_eq_bind, Option.bind_some]
  cases (messageAccountKeysFromSim staticKeys sim).findIdx? fun k => k = wallet with
  | none => rfl
  | some idx =>
      simp only [Option.bind_some]
      cases status.preBalances[idx]? with
      | none => rfl
      | some pre =>
          cases status.postBalances[idx]? with
          | none => rfl
          | some post => rfl

/-- What the simulation sees of the wrapped SOL. -/
theorem SameBalances.wsol_eq (h : SameBalances tx status staticKeys sim) :
    extractSimOwnerMintDeltaRaw sim wallet solMint =
      if wsolBefore tx wallet = 0 ∧ wsolAfter tx wallet = 0 then none
      else some ((wsolAfter tx wallet : Int) - wsolBefore tx wallet) := by
  unfold extractSimOwnerMintDeltaRaw wsolBefore wsolAfter tokenBalances
  rw [h.status_eq, h.preTokens, h.postTokens]
  simp only [Option.bind_eq_bind, Option.bind_some]
  cases status.preTokenBalances with
  | none => rfl
  | some pre =>
      cases status.postTokenBalances with
      | none => rfl
      | some post => rfl

/-- **The simulated change** is the native one plus the one of the wrapped SOL. -/
theorem simSolDelta_eq (h : SameBalances tx status staticKeys sim) :
    computeSimWalletSolDeltaLamports staticKeys sim wallet =
      combined (nativeChange tx wallet)
        (if wsolBefore tx wallet = 0 ∧ wsolAfter tx wallet = 0 then none
          else some ((wsolAfter tx wallet : Int) - wsolBefore tx wallet)) := by
  unfold computeSimWalletSolDeltaLamports
  rw [h.lamports_eq wallet, h.wsol_eq wallet]

end Simulated

/-! ## 9. The confirmed change -/

section Confirmed

variable {tx : ConfirmedTransaction} {wallet : Pubkey} {intent : Ipc.TradeIntent}

theorem wsolDelta_eq {decimals : UInt8} {wsolDelta : Int}
    (h : extractOwnerMintDeltaRaw tx wallet solMint = some (decimals, wsolDelta)) :
    wsolDelta = (wsolAfter tx wallet : Int) - wsolBefore tx wallet := by
  unfold extractOwnerMintDeltaRaw at h
  unfold wsolAfter wsolBefore
  cases hrows : tokenBalances tx with
  | none =>
      rw [hrows] at h
      cases h
  | some rows =>
      rw [hrows] at h
      simp only [Option.bind_eq_bind, Option.bind_some, Option.bind_eq_some_iff] at h
      obtain ⟨last, _, hlast⟩ := h
      cases hlast
      rfl

theorem toNat_saturatingSum (rows : List TokenBalance) :
    (saturatingSum rows).toNat = min (amountSum rows) (Word.size - 1) := by
  have hacc : ∀ (rows : List TokenBalance) (sum : UInt64),
      (rows.foldl (fun sum b => Word.satAdd sum b.amount) sum).toNat =
        min (sum.toNat + amountSum rows) (Word.size - 1) := by
    intro rows
    induction rows with
    | nil =>
        intro sum
        have hlt := sum.toNat_lt
        simp only [amountSum, List.foldl_nil, List.map_nil, List.sum_nil, Word.size]
        omega
    | cons b rows ih =>
        intro sum
        rw [List.foldl_cons, ih, Word.toNat_satAdd]
        simp only [amountSum, List.map_cons, List.sum_cons]
        omega
  unfold saturatingSum
  rw [hacc, UInt64.toNat_zero, Nat.zero_add]

/-- The flows of an arb cycle: both sums, or nothing where there is no wrapped SOL. -/
theorem arbWsolFlows_cases (tx : ConfirmedTransaction) (wallet : Pubkey) :
    (∃ pre post : UInt64,
      extractArbWsolFlows tx wallet =
        some (some (explicitAmount pre 9), some (explicitAmount post 9)) ∧
      pre.toNat = min (wsolBefore tx wallet) (Word.size - 1) ∧
      post.toNat = min (wsolAfter tx wallet) (Word.size - 1)) ∨
    (extractArbWsolFlows tx wallet = none ∧
      wsolBefore tx wallet = 0 ∧ wsolAfter tx wallet = 0) := by
  unfold extractArbWsolFlows wsolBefore wsolAfter
  cases tokenBalances tx with
  | none => exact .inr ⟨rfl, rfl, rfl⟩
  | some rows =>
      simp only [Option.bind_eq_bind, Option.bind_some, Option.map_some, Option.getD_some]
      have hpre := toNat_saturatingSum (ownedRows rows.1 (base58Text wallet) solMint)
      have hpost := toNat_saturatingSum (ownedRows rows.2 (base58Text wallet) solMint)
      split
      · exact .inl ⟨_, _, rfl, hpre, hpost⟩
      · next h =>
          simp only [UInt64.lt_iff_toNat_lt, UInt64.toNat_zero, not_or, Nat.not_lt,
            Nat.le_zero_eq] at h
          rw [hpre, hpost] at h
          unfold Word.size at h
          exact .inr ⟨rfl, by omega, by omega⟩

/-- The lamport delta that both branches go by. -/
theorem lamports_cases (tx : ConfirmedTransaction) (wallet : Pubkey) :
    (∃ native, nativeChange tx wallet = some native ∧ (lamports tx wallet).1.delta = native ∧
      ((lamports tx wallet).1.lifecycleNoise = true ↔ Noisy tx wallet)) ∨
    (nativeChange tx wallet = none ∧ (lamports tx wallet).1.delta = 0 ∧
      (lamports tx wallet).1.lifecycleNoise = true) := by
  unfold nativeChange lamports Noisy
  cases computeWalletLamportDeltaBestEffort tx wallet with
  | none => exact .inr ⟨rfl, rfl, rfl⟩
  | some delta =>
      refine .inl ⟨delta.delta, rfl, rfl, fun hnoise => ⟨delta, rfl, hnoise⟩, ?_⟩
      intro hnoise
      obtain ⟨delta', heq, hnoise⟩ := hnoise
      cases heq
      exact hnoise

theorem compute_eq (hstatus : tx.status.isSome) :
    computeIntentFillsBestEffort (some tx) wallet intent =
      if isArbCycle intent then
        (arbFills tx wallet intent (lamports tx wallet).1).getD
          (regularFills tx wallet intent (lamports tx wallet).1 (lamports tx wallet).2)
      else regularFills tx wallet intent (lamports tx wallet).1 (lamports tx wallet).2 := by
  obtain ⟨status, hstatus⟩ := Option.isSome_iff_exists.mp hstatus
  unfold computeIntentFillsBestEffort
  simp only [hstatus]

/-- An arb cycle with rows: the change of the wrapped SOL, and the native one without noise. -/
theorem walletSolDelta_arb (hstatus : tx.status.isSome) (harb : isArbCycle intent = true)
    (hrows : HasWsolRows tx wallet) :
    (computeIntentFillsBestEffort (some tx) wallet intent).walletSolDelta =
      some (if (lamports tx wallet).1.lifecycleNoise then
        (wsolAfter tx wallet : Int) - wsolBefore tx wallet
      else (wsolAfter tx wallet : Int) - wsolBefore tx wallet + (lamports tx wallet).1.delta) := by
  obtain ⟨⟨decimals, wsolDelta⟩, hdelta⟩ := Option.isSome_iff_exists.mp hrows
  rw [compute_eq hstatus, if_pos harb]
  unfold arbFills
  rw [hdelta, wsolDelta_eq hdelta]
  rfl

/-- Anything else: the native change, zero where it is not known. -/
theorem walletSolDelta_other (hstatus : tx.status.isSome)
    (hother : ¬ (isArbCycle intent = true ∧ HasWsolRows tx wallet)) :
    (computeIntentFillsBestEffort (some tx) wallet intent).walletSolDelta =
      some (lamports tx wallet).1.delta := by
  rw [compute_eq hstatus]
  by_cases harb : isArbCycle intent = true
  · rw [if_pos harb]
    have hrows : extractOwnerMintDeltaRaw tx wallet solMint = none := by
      cases h : extractOwnerMintDeltaRaw tx wallet solMint with
      | none => rfl
      | some delta => exact absurd ⟨harb, by unfold HasWsolRows; rw [h]; rfl⟩ hother
    unfold arbFills
    rw [hrows]
    cases (lamports tx wallet).1.lifecycleNoise with
    | true => rfl
    | false => rfl
  · rw [if_neg harb]
    rfl

/-- **The SOL change is the simulated one exactly when it is counted right.** -/
theorem walletSolDelta_eq_iff (hstatus : tx.status.isSome) :
    (computeIntentFillsBestEffort (some tx) wallet intent).walletSolDelta =
        combined (nativeChange tx wallet)
          (if wsolBefore tx wallet = 0 ∧ wsolAfter tx wallet = 0 then none
            else some ((wsolAfter tx wallet : Int) - wsolBefore tx wallet)) ↔
      SolCounted tx wallet intent := by
  unfold SolCounted
  by_cases hcase : isArbCycle intent = true ∧ HasWsolRows tx wallet
  · rw [if_pos hcase, walletSolDelta_arb hstatus hcase.1 hcase.2]
    rcases lamports_cases tx wallet with ⟨native, hnative, hdelta, hnoise⟩ | ⟨hnative, _, hnoise⟩
    · rw [hnative, hdelta]
      dsimp only
      by_cases hn : Noisy tx wallet
      · rw [if_pos (hnoise.mpr hn)]
        split
        · simp only [combined, Option.some.injEq, hn, not_true_eq_false, false_or]
          omega
        · simp only [combined, Option.some.injEq, hn, not_true_eq_false, false_or]
          omega
      · rw [if_neg fun h => hn (hnoise.mp h)]
        split
        · simp only [combined, Option.some.injEq, hn, not_false_eq_true, true_or, iff_true]
          omega
        · simp only [combined, Option.some.injEq, hn, not_false_eq_true, true_or, iff_true]
          omega
    · rw [hnative, if_pos hnoise]
      dsimp only
      split
      · next h => simp [combined, h]
      · next h => simp [combined, h]
  · rw [if_neg hcase, walletSolDelta_other hstatus hcase]
    rcases lamports_cases tx wallet with ⟨native, hnative, hdelta, _⟩ | ⟨hnative, hdelta, _⟩
    · rw [hnative, hdelta]
      split
      · next h => simp [combined, h]
      · simp only [combined, Option.some.injEq, reduceCtorEq, false_implies, and_true]
        omega
    · rw [hnative, hdelta]
      split
      · next h => simp [combined, h]
      · simp only [combined, Option.some.injEq, true_implies]
        omega

/-- **The fills of an arb cycle with rows say the change exactly when they fit.** -/
theorem fillsAgree_iff (hstatus : tx.status.isSome) :
    FillsAgree tx wallet intent (computeIntentFillsBestEffort (some tx) wallet intent) ↔
      FillsFit tx wallet intent := by
  unfold FillsAgree FillsFit
  refine forall_congr' fun harb => forall_congr' fun hrows => ?_
  obtain ⟨⟨decimals, wsolDelta⟩, hdelta⟩ := Option.isSome_iff_exists.mp hrows
  rw [compute_eq hstatus, if_pos harb]
  unfold arbFills
  rw [hdelta, wsolDelta_eq hdelta]
  rcases arbWsolFlows_cases tx wallet with
    ⟨pre, post, hflows, hpre, hpost⟩ | ⟨hflows, hbefore, hafter⟩
  · rw [hflows]
    constructor
    · intro hall
      have heq := hall rfl (explicitAmount pre 9) (explicitAmount post 9) rfl rfl
      have heq' : (post.toNat : Int) - pre.toNat = wsolAfter tx wallet - wsolBefore tx wallet := heq
      rw [hpre, hpost] at heq'
      unfold Word.size at heq'
      omega
    · intro hfit _ fillIn fillOut hin hout
      cases hin
      cases hout
      show (post.toNat : Int) - pre.toNat = wsolAfter tx wallet - wsolBefore tx wallet
      rw [hpre, hpost]
      unfold Word.size
      omega
  · rw [hflows]
    refine iff_of_true ?_ (.inr (hbefore.trans hafter.symm))
    intro _ fillIn fillOut hin hout
    cases hin
    cases hout
    rw [hbefore, hafter]
    show ((shifted intent.requiredCapital.raw 0).toNat : Int) - intent.requiredCapital.raw.toNat = 0
    have hlt := intent.requiredCapital.raw.toNat_lt
    have hsame : shifted intent.requiredCapital.raw 0 = intent.requiredCapital.raw := by
      unfold shifted asU64
      rw [Int.add_zero, Int.max_eq_left (Int.natCast_nonneg _),
        Int.emod_eq_of_lt (Int.natCast_nonneg _) (by exact_mod_cast hlt), Int.toNat_natCast,
        UInt64.ofNat_toNat]
    rw [hsame, Int.sub_self]

/-- **The confirmed accounting agrees with the simulated one.** -/
structure Agrees (tx : ConfirmedTransaction) (staticKeys : List Pubkey) (sim : SimulateResult)
    (wallet : Pubkey) (intent : Ipc.TradeIntent) (fills : ComputedIntentFills) : Prop where
  summed : fills.walletSolDelta =
    combined (nativeChange tx wallet)
      (if wsolBefore tx wallet = 0 ∧ wsolAfter tx wallet = 0 then none
        else some ((wsolAfter tx wallet : Int) - wsolBefore tx wallet))
  simulated : fills.walletSolDelta = computeSimWalletSolDeltaLamports staticKeys sim wallet
  fills : FillsAgree tx wallet intent fills

/-- **Exactly when the confirmed accounting agrees**: the SOL change is counted right and the fills
    of an arb cycle fit. -/
theorem confirmed_sol_agrees_iff (tx : ConfirmedTransaction) (status : TransactionMeta)
    (staticKeys : List Pubkey) (sim : SimulateResult) (wallet : Pubkey) (intent : Ipc.TradeIntent)
    (h : SameBalances tx status staticKeys sim) :
    Agrees tx staticKeys sim wallet intent
        (computeIntentFillsBestEffort (some tx) wallet intent) ↔
      SolCounted tx wallet intent ∧ FillsFit tx wallet intent := by
  have hstatus : tx.status.isSome := by rw [h.status_eq]; rfl
  constructor
  · intro hagrees
    exact ⟨(walletSolDelta_eq_iff hstatus).mp hagrees.summed,
      (fillsAgree_iff hstatus).mp hagrees.fills⟩
  · intro ⟨hcounted, hfit⟩
    have hsum := (walletSolDelta_eq_iff hstatus).mpr hcounted
    exact ⟨hsum, hsum.trans (simSolDelta_eq wallet h).symm, (fillsAgree_iff hstatus).mpr hfit⟩

end Confirmed

/-! ## 10. A buy -/

section Buy

/-- A buy of a token for SOL. -/
def buyIntent : Ipc.TradeIntent where
  header := ⟨1, 0, "execution-engine", "", ""⟩
  intentId := "buy"
  source := "strategy"
  tier := .tier0
  originType := .strategyA
  deadlineSlot := none
  ttlMs := none
  requiredCapital := explicitAmount 500000000 9
  resources := ⟨solMint, "TokenMint", [], [], none⟩
  expectedRoiBps := ⟨0, Ipc.zero_inI32⟩
  maxSlippageBps := 100
  side := .buy
  regime := .established
  triggerEventId := none
  requireBundle := none
  bundleTipLamports := none
  hintComputeUnits := none
  hintPriorityFeeMicroLamports := none
  hintUrgency := none
  metadata := ∅
  execution := none
  swapPath := none

def walletKey : Pubkey := 1

/-- The meta of a transaction that takes lamports and wrapped SOL of the wallet. -/
def buyStatus (lamportsAfter wsolBefore wsolAfter : UInt64) : TransactionMeta where
  fee := 5000
  preBalances := [10000000]
  postBalances := [lamportsAfter]
  preTokenBalances := some [⟨solMint, some (base58Text walletKey), wsolBefore, 9, by decide⟩]
  postTokenBalances := some [⟨solMint, some (base58Text walletKey), wsolAfter, 9, by decide⟩]
  innerInstructions := none

def buyTx (lamportsAfter wsolBefore wsolAfter : UInt64) : ConfirmedTransaction where
  accountKeys := some [.object (some (base58Text walletKey))]
  status := some (buyStatus lamportsAfter wsolBefore wsolAfter)
  blockTime := some 1700000000

/-- The simulation of the same transaction. -/
def buySim (lamportsAfter wsolBefore wsolAfter : UInt64) : SimulateResult where
  preBalances := some (buyStatus lamportsAfter wsolBefore wsolAfter).preBalances
  postBalances := some (buyStatus lamportsAfter wsolBefore wsolAfter).postBalances
  preTokenBalances := (buyStatus lamportsAfter wsolBefore wsolAfter).preTokenBalances
  postTokenBalances := (buyStatus lamportsAfter wsolBefore wsolAfter).postTokenBalances
  loadedAddresses := none

theorem buy_sameBalances (lamportsAfter wsolBefore wsolAfter : UInt64) :
    SameBalances (buyTx lamportsAfter wsolBefore wsolAfter)
      (buyStatus lamportsAfter wsolBefore wsolAfter) [walletKey]
      (buySim lamportsAfter wsolBefore wsolAfter) :=
  ⟨rfl, rfl, rfl, rfl, rfl, rfl⟩

/-- A buy that leaves the wrapped SOL alone. -/
theorem lamport_buy_agrees :
    Agrees (buyTx 9000000 7 7) [walletKey] (buySim 9000000 7 7) walletKey buyIntent
      (computeIntentFillsBestEffort (some (buyTx 9000000 7 7)) walletKey buyIntent) := by
  have hcycle : isArbCycle buyIntent = false := by decide +kernel
  have hnative : nativeChange (buyTx 9000000 7 7) walletKey = some (-1000000) := by decide +kernel
  have hwsol : wsolBefore (buyTx 9000000 7 7) walletKey = wsolAfter (buyTx 9000000 7 7) walletKey :=
    rfl
  refine (confirmed_sol_agrees_iff _ _ [walletKey] (buySim 9000000 7 7) walletKey buyIntent
    (buy_sameBalances 9000000 7 7)).mpr ⟨?counted, ?fit⟩
  case counted =>
    unfold SolCounted
    rw [hcycle, if_neg fun h => Bool.false_ne_true h.1]
    exact ⟨hwsol, fun hnone => by rw [hnative] at hnone; cases hnone⟩
  case fit =>
    intro harb
    rw [hcycle] at harb
    cases harb

/-- **A buy that is paid in wrapped SOL** is accounted as if it had cost its fee. -/
theorem wrapped_funding_lost :
    ¬ ∀ (tx : ConfirmedTransaction) (status : TransactionMeta) (staticKeys : List Pubkey)
      (sim : SimulateResult) (wallet : Pubkey) (intent : Ipc.TradeIntent),
      SameBalances tx status staticKeys sim →
        Agrees tx staticKeys sim wallet intent
          (computeIntentFillsBestEffort (some tx) wallet intent) := by
  intro hall
  have hagrees := hall (buyTx 9995000 1000000000 500000000) _ [walletKey]
    (buySim 9995000 1000000000 500000000) walletKey buyIntent
    (buy_sameBalances 9995000 1000000000 500000000)
  have hsaid : (computeIntentFillsBestEffort (some (buyTx 9995000 1000000000 500000000)) walletKey
      buyIntent).walletSolDelta = some (-5000) := by decide +kernel
  have hdone : computeSimWalletSolDeltaLamports [walletKey]
      (buySim 9995000 1000000000 500000000) walletKey = some (-500005000) := by decide +kernel
  have heq := hagrees.simulated
  rw [hsaid, hdone] at heq
  exact absurd heq (by decide)

end Buy

end IronCrab.Engine.Fills

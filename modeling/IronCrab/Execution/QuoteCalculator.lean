/-
  File:      IronCrab/Execution/QuoteCalculator.lean
  Subject:   QUOTES FROM CACHED POOL STATE (src/execution/quote_calculator.rs): the formulas of the
             seven pool kinds, each written out twice, and the fresh minimum of an intent.

  A `u128` is a `Nat`; `none` is a panic.

  * `quoteOutputAmount`, `freshQuote` -- the quote for a mint and the quote for an intent;
  * `Fee` -- the formula of a kind, with what it takes off the input;
  * `agree` -- the two quotes of a request give one amount, or fail both;
  * `quote_exact_iff` -- a quote is exact, never above the curve and free of overflow exactly where
    the kind's formula rounds nothing up, its product is a `u128`, and there is something to pay
    out;
  * `rounded_up` -- a Raydium quote of a lamport more than the curve gives.
-/
import IronCrab.Cache.PoolCacheUpdate
import IronCrab.Ipc.Records
import IronCrab.Lib.Arith
import IronCrab.Lib.ConstantProduct

namespace IronCrab.Execution

open Arith ConstantProduct Cache Ipc
open Track (Pubkey TextCodec)

/-! ## 1. The formulas -/

/-- An error of a quote: its text, or that of a pubkey that does not parse. -/
inductive QuoteError where
  | text (message : String)
  | parsePubkey
  deriving DecidableEq

/-- A quote: an amount or an error, unless it panics. -/
abbrev Quoted := Option (Except QuoteError Nat)

/-- A division; by zero it panics. -/
def quotient (num den : Nat) : Option Nat := if den = 0 then none else some (num / den)

variable (checks : Bool)

/-- `a * (10000 - fee) / 10000`. -/
def afterFee (feeBps amountIn : Nat) : Option Nat := do
  let keep ← sub checks 128 10000 feeBps
  let kept ← mul checks 128 amountIn keep
  some (kept / 10000)

/-- `(after_fee * reserve_out) / (reserve_in + after_fee)`. -/
def floorQuote (feeBps reserveIn reserveOut amountIn : Nat) : Quoted := do
  let x ← afterFee checks feeBps amountIn
  let num ← mul checks 128 x reserveOut
  let den ← add checks 128 reserveIn x
  let amountOut ← quotient num den
  some (.ok amountOut)

/-- `reserve_out - k / (reserve_in + after_fee)`, saturating. -/
def differenceQuote (feeBps reserveIn reserveOut amountIn : Nat) : Quoted := do
  let x ← afterFee checks feeBps amountIn
  let k ← mul checks 128 reserveIn reserveOut
  let newReserveIn ← add checks 128 reserveIn x
  let newReserveOut ← quotient k newReserveIn
  some (.ok (reserveOut - newReserveOut))

/-- `(reserve_out * a * keep) / (reserve_in * 10000 + a * keep)`. -/
def productQuote (feeBps reserveIn reserveOut amountIn : Nat) : Quoted := do
  let keep ← sub checks 128 10000 feeBps
  let paid ← mul checks 128 reserveOut amountIn
  let num ← mul checks 128 paid keep
  let scaled ← mul checks 128 reserveIn 10000
  let kept ← mul checks 128 amountIn keep
  let den ← add checks 128 scaled kept
  if den = 0 then some (.error (.text "meteora_cpmm: denominator is zero"))
  else some (.ok (num / den))

/-- `(a * reserve_out) / max(reserve_in + a, 1)`. -/
def curveQuote (reserveIn reserveOut amountIn : Nat) : Option Nat := do
  let num ← mul checks 128 amountIn reserveOut
  let den ← add checks 128 reserveIn amountIn
  some (num / max den 1)

/-- Both reserves are there; the amount is returned as a `u64`. -/
def withReserves (missing : QuoteError) (reserveIn reserveOut : Nat) (quote : Quoted) : Quoted :=
  if reserveIn = 0 ∨ reserveOut = 0 then some (.error missing)
  else quote.map fun result => result.map (trunc 64)

/-- The reserve the input goes to and the one the output comes from. -/
def sides (forward : Bool) (first second : Nat) : Nat × Nat :=
  if forward then (first, second) else (second, first)

/-! ## 2. The quote for an input mint -/

/-- `WSOL_MINT_PK`. -/
def wsolMintPk : Pubkey := Cache.nativeSolMint

def pumpfunIsBuyInput (state : PumpFunState) (inputMint : Pubkey) : Bool :=
  if state.tokenMint ≠ Pubkey.default then decide (inputMint ≠ state.tokenMint)
  else decide (inputMint = wsolMintPk)

/-- A bonding curve's real reserves bound a sell where they are known. -/
def calculatePumpfunQuote (state : PumpFunState) (amountIn : Nat) (isBuy : Bool) : Quoted :=
  if state.complete then
    some (.error (.text "pumpfun: bonding curve is complete (migrated)"))
  else if isBuy then
    if state.virtualSolReserves = 0 then
      some (.error (.text "pumpfun: sol_reserve is zero"))
    else
      (curveQuote checks state.virtualSolReserves state.virtualTokenReserves amountIn).map
        fun amountOut => .ok (trunc 64 amountOut)
  else
    let realReservesPopulated :=
      decide (0 < state.realTokenReserves) || decide (0 < state.realSolReserves)
    if realReservesPopulated ∧ amountIn > state.realTokenReserves then
      some (.error (.text (s!"pumpfun: sell amount {amountIn} exceeds real_token_reserves " ++
        s!"{state.realTokenReserves} (curve cannot absorb this sell)")))
    else if realReservesPopulated ∧ state.realSolReserves = 0 then
      some (.error (.text "pumpfun: real_sol_reserves is zero (curve has no SOL to pay out)"))
    else if state.virtualTokenReserves = 0 then
      some (.error (.text "pumpfun: token_reserve is zero"))
    else
      (curveQuote checks state.virtualTokenReserves state.virtualSolReserves amountIn).map
        fun amountOut =>
          if realReservesPopulated ∧ trunc 64 amountOut > state.realSolReserves then
            .error (.text (s!"pumpfun: calculated sol_output {amountOut} exceeds " ++
              s!"real_sol_reserves {state.realSolReserves} (curve underfunded)"))
          else .ok (trunc 64 amountOut)

/-- The quote for an amount of an input mint. -/
def quoteOutputAmount (state : CachedPoolState) (amountIn : Nat) (inputMint : Pubkey) : Quoted :=
  match state with
  | .pumpFun s => calculatePumpfunQuote checks s amountIn (pumpfunIsBuyInput s inputMint)
  | .pumpAmm s =>
      let (ri, ro) := sides (inputMint = s.baseMint) (s.baseReserve.getD 0) (s.quoteReserve.getD 0)
      withReserves (.text "pump_amm: missing reserves") ri ro (floorQuote checks 100 ri ro amountIn)
  | .orca s =>
      let (ri, ro) := sides (inputMint = s.tokenMintA) (s.vaultABalance.getD 0)
        (s.vaultBBalance.getD 0)
      withReserves (.text "orca: missing vault balances") ri ro
        (floorQuote checks (s.feeRate / 100) ri ro amountIn)
  | .raydiumAmm s =>
      let (ri, ro) := sides (inputMint = s.baseMint) (s.coinReserve.getD 0) (s.pcReserve.getD 0)
      withReserves (.text "raydium_amm: missing reserves") ri ro
        (differenceQuote checks 25 ri ro amountIn)
  | .raydiumCpmm s =>
      let (ri, ro) := sides (inputMint = s.token0Mint) (s.reserve0.getD 0) (s.reserve1.getD 0)
      withReserves (.text "raydium_cpmm: missing reserves") ri ro
        (differenceQuote checks 25 ri ro amountIn)
  | .meteora s =>
      let (ri, ro) := sides (inputMint = s.tokenXMint) (s.reserveXBalance.getD 0)
        (s.reserveYBalance.getD 0)
      withReserves (.text "meteora: missing reserves") ri ro
        (floorQuote checks (min s.binStep 100) ri ro amountIn)
  | .meteoraCpmm s =>
      let (ri, ro) := sides (inputMint = s.token0Mint) s.reserve0 s.reserve1
      withReserves (.text "meteora_cpmm: missing reserves") ri ro
        (productQuote checks 25 ri ro amountIn)

/-! ## 3. The quote for an intent -/

/-- The intent's input mint decides the direction. -/
def ofIntent (intent : Ipc.TradeIntent) (quote : Pubkey → Quoted) : Quoted :=
  match parsePubkey intent.resources.inputMint with
  | none => some (.error .parsePubkey)
  | some inputMint => quote inputMint

/-- `missing ... (in={}, out={})`. -/
def missingReserves (what : String) (reserveIn reserveOut : Nat) : QuoteError :=
  .text s!"{what} (in={reserveIn}, out={reserveOut})"

def calculateOrcaQuote (state : OrcaWhirlpoolState) (amountIn : Nat) (intent : Ipc.TradeIntent) :
    Quoted :=
  ofIntent intent fun inputMint =>
    let (ri, ro) := sides (inputMint = state.tokenMintA) (state.vaultABalance.getD 0)
      (state.vaultBBalance.getD 0)
    withReserves (missingReserves "orca: missing vault balances" ri ro) ri ro
      (floorQuote checks (state.feeRate / 100) ri ro amountIn)

def calculateRaydiumAmmQuote (state : RaydiumAmmState) (amountIn : Nat) (intent : Ipc.TradeIntent) :
    Quoted :=
  ofIntent intent fun inputMint =>
    let (ri, ro) := sides (inputMint = state.baseMint) (state.coinReserve.getD 0)
      (state.pcReserve.getD 0)
    withReserves (missingReserves "raydium_amm: missing reserves" ri ro) ri ro
      (differenceQuote checks 25 ri ro amountIn)

def calculateRaydiumCpmmQuote (state : RaydiumCpmmState) (amountIn : Nat)
    (intent : Ipc.TradeIntent) : Quoted :=
  ofIntent intent fun inputMint =>
    let (ri, ro) := sides (inputMint = state.token0Mint) (state.reserve0.getD 0)
      (state.reserve1.getD 0)
    withReserves (missingReserves "raydium_cpmm: missing reserves" ri ro) ri ro
      (differenceQuote checks 25 ri ro amountIn)

def calculateMeteoraQuote (state : MeteoraState) (amountIn : Nat) (intent : Ipc.TradeIntent) :
    Quoted :=
  ofIntent intent fun inputMint =>
    let (ri, ro) := sides (inputMint = state.tokenXMint) (state.reserveXBalance.getD 0)
      (state.reserveYBalance.getD 0)
    withReserves (missingReserves "meteora: missing reserves" ri ro) ri ro
      (floorQuote checks (min state.binStep 100) ri ro amountIn)

def calculateMeteoraCpmmQuote (state : MeteoraCpmmState) (amountIn : Nat)
    (intent : Ipc.TradeIntent) : Quoted :=
  ofIntent intent fun inputMint =>
    let (ri, ro) := sides (inputMint = state.token0Mint) state.reserve0 state.reserve1
    withReserves (missingReserves "meteora_cpmm: missing reserves" ri ro) ri ro
      (productQuote checks 25 ri ro amountIn)

def calculatePumpammQuote (state : PumpAmmState) (amountIn : Nat) (intent : Ipc.TradeIntent) :
    Quoted :=
  ofIntent intent fun inputMint =>
    let (ri, ro) := sides (inputMint = state.baseMint) (state.baseReserve.getD 0)
      (state.quoteReserve.getD 0)
    withReserves (missingReserves "pump_amm: missing reserves" ri ro) ri ro
      (floorQuote checks 100 ri ro amountIn)

/-- The quote for an intent, by the kind of the cached state. -/
def freshQuote (state : CachedPoolState) (intent : Ipc.TradeIntent) : Quoted :=
  let amountIn := intent.requiredCapital.raw.toNat
  match state with
  | .orca s => calculateOrcaQuote checks s amountIn intent
  | .raydiumAmm s => calculateRaydiumAmmQuote checks s amountIn intent
  | .raydiumCpmm s => calculateRaydiumCpmmQuote checks s amountIn intent
  | .meteora s => calculateMeteoraQuote checks s amountIn intent
  | .meteoraCpmm s => calculateMeteoraCpmmQuote checks s amountIn intent
  | .pumpFun s => calculatePumpfunQuote checks s amountIn (intent.side = .buy)
  | .pumpAmm s => calculatePumpammQuote checks s amountIn intent

/-- `min_out = amount_out * (10000 - slippage_bps) / 10000`. -/
def applySlippage (amountOut slippageBps : Nat) : Nat :=
  if slippageBps ≥ 10000 then 0
  else trunc 64 (amountOut * (10000 - slippageBps) / 10000)

/-- The fresh minimum of an intent, from what the cache holds for its first pool. -/
def calculateFreshMinOut (cached : Pubkey → Option CachedPoolState) (intent : Ipc.TradeIntent) :
    Option (Except QuoteError (Option Nat)) :=
  match intent.resources.pools with
  | [] => some (.error (.text "no pool in intent resources"))
  | poolStr :: _ =>
      match parsePubkey poolStr with
      | none => some (.error .parsePubkey)
      | some poolId =>
          match cached poolId with
          | none => some (.ok none)
          | some state => (freshQuote checks state intent).map fun
              | .ok amountOut =>
                  if amountOut = 0 then .ok none
                  else .ok (some (applySlippage amountOut intent.maxSlippageBps.toNat))
              | .error _ => .ok none

/-! ## 4. The formula of a kind -/

/-- The formulas, with the fee in basis points. -/
inductive Formula where
  | floor (feeBps : Nat)
  | difference (feeBps : Nat)
  | product (feeBps : Nat)
  | curve

namespace Formula

def run (f : Formula) (reserveIn reserveOut amountIn : Nat) : Quoted :=
  match f with
  | floor feeBps => floorQuote checks feeBps reserveIn reserveOut amountIn
  | difference feeBps => differenceQuote checks feeBps reserveIn reserveOut amountIn
  | product feeBps => productQuote checks feeBps reserveIn reserveOut amountIn
  | curve => (curveQuote checks reserveIn reserveOut amountIn).map .ok

/-- The input after the fee is `num / den`: the product formula does not round it. -/
def num (f : Formula) (amountIn : Nat) : Nat :=
  match f with
  | floor feeBps => amountIn * (10000 - feeBps) / 10000
  | difference feeBps => amountIn * (10000 - feeBps) / 10000
  | product feeBps => amountIn * (10000 - feeBps)
  | curve => amountIn

def den : Formula → Nat
  | product _ => 10000
  | _ => 1

/-- The output the formula computes where nothing overflows. -/
def value (f : Formula) (reserveIn reserveOut amountIn : Nat) : Nat :=
  match f with
  | difference _ => reserveOut - reserveIn * reserveOut / (reserveIn + f.num amountIn)
  | f => reserveOut * f.num amountIn / (reserveIn * f.den + f.num amountIn)

theorem value_floor (feeBps ri ro a : Nat) : (floor feeBps).value ri ro a =
    ro * (a * (10000 - feeBps) / 10000) / (ri * 1 + a * (10000 - feeBps) / 10000) := rfl

theorem value_product (feeBps ri ro a : Nat) : (product feeBps).value ri ro a =
    ro * (a * (10000 - feeBps)) / (ri * 10000 + a * (10000 - feeBps)) := rfl

theorem value_curve (ri ro a : Nat) : curve.value ri ro a = ro * a / (ri * 1 + a) := rfl

/-- The fee is at most the whole. -/
def Typed : Formula → Prop
  | floor feeBps => feeBps ≤ 10000
  | difference feeBps => feeBps ≤ 10000
  | product feeBps => feeBps ≤ 10000
  | curve => True

/-- The product of both reserves' side and the fee's rest is a `u128`. -/
def Fits (f : Formula) (reserveOut amountIn : Nat) : Prop :=
  match f with
  | product feeBps => reserveOut * amountIn * (10000 - feeBps) < 2 ^ 128
  | _ => True

/-- Nothing is rounded up. -/
def Exact (f : Formula) (reserveIn reserveOut amountIn : Nat) : Prop :=
  match f with
  | difference feeBps =>
      reserveIn + amountIn * (10000 - feeBps) / 10000 ∣ reserveIn * reserveOut
  | _ => True

variable {checks} {reserveIn reserveOut amountIn : Nat}

theorem mul_lt {a b : Nat} (ha : a < 2 ^ 64) (hb : b < 2 ^ 64) : a * b < 2 ^ 128 :=
  calc a * b < 2 ^ 64 * 2 ^ 64 := Nat.mul_lt_mul'' ha hb
    _ = 2 ^ 128 := by rw [← Nat.pow_add]

theorem afterFee_eq {feeBps : Nat} (hfee : feeBps ≤ 10000) (ha : amountIn < 2 ^ 64) :
    afterFee checks feeBps amountIn = some (amountIn * (10000 - feeBps) / 10000) := by
  have hkept : amountIn * (10000 - feeBps) < 2 ^ 128 := mul_lt ha (by omega)
  unfold afterFee sub mul
  rw [if_pos hfee, Option.bind_eq_bind, Option.bind_some, fit_of_lt hkept]
  rfl

theorem afterFee_le {feeBps : Nat} : amountIn * (10000 - feeBps) / 10000 ≤ amountIn := by
  refine Nat.div_le_of_le_mul ?_
  rw [Nat.mul_comm 10000]
  exact Nat.mul_le_mul_left _ (Nat.sub_le _ _)

theorem quotient_eq {num den : Nat} (h : 0 < den) : quotient num den = some (num / den) :=
  if_neg h.ne'

variable (hin : reserveIn < 2 ^ 64) (hout : reserveOut < 2 ^ 64) (ha : amountIn < 2 ^ 64)
  (hpos : 0 < reserveIn)

include hin hout ha hpos

/-- **A formula that fits computes its value**, in either build. -/
theorem run_eq {f : Formula} (hf : f.Typed) (hfit : f.Fits reserveOut amountIn) :
    f.run checks reserveIn reserveOut amountIn =
      some (.ok (f.value reserveIn reserveOut amountIn)) := by
  cases f with
  | floor feeBps =>
      have hx : amountIn * (10000 - feeBps) / 10000 < 2 ^ 64 := afterFee_le.trans_lt ha
      have hsum : reserveIn + amountIn * (10000 - feeBps) / 10000 < 2 ^ 128 := by omega
      show floorQuote checks feeBps reserveIn reserveOut amountIn = _
      unfold floorQuote mul add
      have hden : 0 < reserveIn + amountIn * (10000 - feeBps) / 10000 := by omega
      simp only [Option.bind_eq_bind, Option.bind_some, afterFee_eq hf ha,
        fit_of_lt (mul_lt hx hout), fit_of_lt hsum, quotient_eq hden]
      rw [value_floor, Nat.mul_one, Nat.mul_comm reserveOut]
  | difference feeBps =>
      have hx : amountIn * (10000 - feeBps) / 10000 < 2 ^ 64 := afterFee_le.trans_lt ha
      have hsum : reserveIn + amountIn * (10000 - feeBps) / 10000 < 2 ^ 128 := by omega
      show differenceQuote checks feeBps reserveIn reserveOut amountIn = _
      unfold differenceQuote mul add
      have hden : 0 < reserveIn + amountIn * (10000 - feeBps) / 10000 := by omega
      simp only [Option.bind_eq_bind, Option.bind_some, afterFee_eq hf ha,
        fit_of_lt (mul_lt hin hout), fit_of_lt hsum, quotient_eq hden]
      rfl
  | product feeBps =>
      have hkeep : 10000 - feeBps < 2 ^ 64 := by omega
      have hkept : amountIn * (10000 - feeBps) < 2 ^ 64 * 10000 := by
        calc amountIn * (10000 - feeBps) ≤ amountIn * 10000 :=
              Nat.mul_le_mul_left _ (Nat.sub_le _ _)
          _ < 2 ^ 64 * 10000 := Nat.mul_lt_mul_of_pos_right ha (by omega)
      have hscaled : reserveIn * 10000 < 2 ^ 128 := mul_lt hin (by omega)
      have hfee : feeBps ≤ 10000 := hf
      have hsum : reserveIn * 10000 + amountIn * (10000 - feeBps) < 2 ^ 128 := by
        calc reserveIn * 10000 + amountIn * (10000 - feeBps)
            < 2 ^ 64 * 10000 + 2 ^ 64 * 10000 :=
              Nat.add_lt_add (Nat.mul_lt_mul_of_pos_right hin (Nat.succ_pos _)) hkept
          _ ≤ 2 ^ 128 := by decide
      have hden : ¬ reserveIn * 10000 + amountIn * (10000 - feeBps) = 0 :=
        (Nat.add_pos_left (Nat.mul_pos hpos (Nat.succ_pos _)) _).ne'
      have hfit' : reserveOut * amountIn * (10000 - feeBps) < 2 ^ 128 := hfit
      show productQuote checks feeBps reserveIn reserveOut amountIn = _
      unfold productQuote sub mul add
      simp only [if_pos hfee, Option.bind_eq_bind, Option.bind_some, fit_of_lt (mul_lt hout ha),
        fit_of_lt hfit', fit_of_lt hscaled, fit_of_lt (mul_lt ha hkeep), fit_of_lt hsum,
        if_neg hden]
      rw [value_product, Nat.mul_assoc]
  | curve =>
      have hsum : reserveIn + amountIn < 2 ^ 128 := by omega
      have hmax : max (reserveIn + amountIn) 1 = reserveIn + amountIn := by omega
      show (curveQuote checks reserveIn reserveOut amountIn).map Except.ok = _
      unfold curveQuote mul add
      simp only [Option.bind_eq_bind, Option.bind_some, fit_of_lt (mul_lt ha hout),
        fit_of_lt hsum, hmax]
      rw [value_curve, Nat.mul_one, Nat.mul_comm reserveOut]
      rfl

omit hin hout ha hpos in
/-- **A product beyond a `u128`** panics in a build that checks. -/
theorem run_overflows {f : Formula} (hf : f.Typed) (hfit : ¬ f.Fits reserveOut amountIn)
    (hout : reserveOut < 2 ^ 64) (ha : amountIn < 2 ^ 64) :
    f.run true reserveIn reserveOut amountIn = none := by
  cases f with
  | floor feeBps => exact absurd trivial hfit
  | difference feeBps => exact absurd trivial hfit
  | curve => exact absurd trivial hfit
  | product feeBps =>
      have hfee : feeBps ≤ 10000 := hf
      have hmore : 2 ^ 128 ≤ reserveOut * amountIn * (10000 - feeBps) := Nat.le_of_not_lt hfit
      show productQuote true feeBps reserveIn reserveOut amountIn = none
      unfold productQuote sub mul
      simp only [if_pos hfee, Option.bind_eq_bind, Option.bind_some, fit_of_lt (mul_lt hout ha),
        fit_of_le hmore, if_true, Option.bind_none]

omit hin hout ha hpos in
/-- **A formula's value is fair** exactly where it rounds nothing up. -/
theorem fair_value_iff {f : Formula} :
    Fair reserveIn reserveOut (f.num amountIn) f.den (f.value reserveIn reserveOut amountIn) ↔
      f.Exact reserveIn reserveOut amountIn := by
  cases f with
  | floor feeBps => exact ⟨fun _ => trivial, fun _ => fair_quotient⟩
  | difference feeBps => exact fair_difference_iff
  | product feeBps => exact ⟨fun _ => trivial, fun _ => fair_quotient⟩
  | curve => exact ⟨fun _ => trivial, fun _ => fair_quotient⟩

omit hin hout ha hpos in
theorem value_le {f : Formula} : f.value reserveIn reserveOut amountIn ≤ reserveOut := by
  have hquotient (n m : Nat) : reserveOut * n / (m + n) ≤ reserveOut := by
    refine Nat.div_le_of_le_mul ?_
    rw [Nat.mul_comm]
    exact Nat.mul_le_mul_right _ (Nat.le_add_left _ _)
  cases f with
  | floor feeBps => exact hquotient _ _
  | difference feeBps => exact Nat.sub_le _ _
  | product feeBps => exact hquotient _ _
  | curve => exact hquotient _ _

omit hin hout ha hpos in
theorem den_pos (f : Formula) : 0 < f.den := by
  cases f with
  | product feeBps => exact Nat.succ_pos _
  | _ => exact Nat.one_pos

end Formula

/-! ## 5. What a quote is asked -/

/-- The formula of a kind. -/
def formula : CachedPoolState → Formula
  | .orca s => .floor (s.feeRate / 100)
  | .raydiumAmm _ => .difference 25
  | .raydiumCpmm _ => .difference 25
  | .meteora s => .floor (min s.binStep 100)
  | .meteoraCpmm _ => .product 25
  | .pumpFun _ => .curve
  | .pumpAmm _ => .floor 100

/-- The reserve an input of the mint goes to, and the one its output comes from. -/
def reserves (state : CachedPoolState) (inputMint : Pubkey) : Nat × Nat :=
  match state with
  | .orca s => sides (inputMint = s.tokenMintA) (s.vaultABalance.getD 0) (s.vaultBBalance.getD 0)
  | .raydiumAmm s => sides (inputMint = s.baseMint) (s.coinReserve.getD 0) (s.pcReserve.getD 0)
  | .raydiumCpmm s => sides (inputMint = s.token0Mint) (s.reserve0.getD 0) (s.reserve1.getD 0)
  | .meteora s =>
      sides (inputMint = s.tokenXMint) (s.reserveXBalance.getD 0) (s.reserveYBalance.getD 0)
  | .meteoraCpmm s => sides (inputMint = s.token0Mint) s.reserve0 s.reserve1
  | .pumpFun s =>
      sides (pumpfunIsBuyInput s inputMint) s.virtualSolReserves s.virtualTokenReserves
  | .pumpAmm s => sides (inputMint = s.baseMint) (s.baseReserve.getD 0) (s.quoteReserve.getD 0)

/-- The fee fields are `u16`s. -/
def FeesTyped : CachedPoolState → Prop
  | .orca s => s.feeRate < 2 ^ 16
  | .meteora s => s.binStep < 2 ^ 16
  | _ => True

/-- A cached state whose numbers are in the ranges of their types, and an intent that names an
    input mint and, on a bonding curve, the side that goes with it. -/
structure QuoteRequest where
  state : CachedPoolState
  intent : Ipc.TradeIntent
  inputMint : Pubkey
  fees : FeesTyped state
  reserveIn_lt : (reserves state inputMint).1 < 2 ^ 64
  reserveOut_lt : (reserves state inputMint).2 < 2 ^ 64
  names : parsePubkey intent.resources.inputMint = some inputMint
  side : ∀ s, state = .pumpFun s → (intent.side = .buy ↔ pumpfunIsBuyInput s inputMint = true)

namespace QuoteRequest

variable (r : QuoteRequest)

def amountIn : Nat := r.intent.requiredCapital.raw.toNat

def reserveIn : Nat := (reserves r.state r.inputMint).1

def reserveOut : Nat := (reserves r.state r.inputMint).2

/-- The quote for the mint. -/
def output (checks : Bool) : Quoted := quoteOutputAmount checks r.state r.amountIn r.inputMint

/-- The quote for the intent. -/
def fresh (checks : Bool) : Quoted := freshQuote checks r.state r.intent

/-- Both fail, or both return one amount. -/
def Agree (x y : Quoted) : Prop :=
  (∃ e e', x = some (.error e) ∧ y = some (.error e')) ∨
    ∃ out, x = some (.ok out) ∧ y = some (.ok out)

/-- What is promised of a quote: nothing overflows, the two quotes agree, the amount is the `u128`
    computed, and it is at most the curve's output for the input after the fee; so less than the
    reserve it comes from, and the product of the reserves does not fall. -/
structure Exact : Prop where
  returns : (r.output true).isSome ∧ (r.fresh true).isSome
  agree : ∀ checks, Agree (r.output checks) (r.fresh checks)
  whole : ∀ checks out, r.output checks = some (.ok out) →
    (formula r.state).run checks r.reserveIn r.reserveOut r.amountIn = some (.ok out)
  fair : ∀ checks out, r.output checks = some (.ok out) →
    out * (r.reserveIn * (formula r.state).den + (formula r.state).num r.amountIn) ≤
      r.reserveOut * (formula r.state).num r.amountIn
  less : ∀ checks out, r.output checks = some (.ok out) → out < r.reserveOut
  product : ∀ checks out, r.output checks = some (.ok out) →
    r.reserveIn * r.reserveOut * (formula r.state).den ≤
      (r.reserveIn * (formula r.state).den + (formula r.state).num r.amountIn) *
        (r.reserveOut - out)

/-- The request is turned away before a formula is used. -/
def TurnedAway : Prop :=
  match r.state with
  | .pumpFun s =>
      s.complete = true ∨ r.reserveIn = 0 ∨
        pumpfunIsBuyInput s r.inputMint = false ∧
          (0 < s.realTokenReserves ∨ 0 < s.realSolReserves) ∧
          (s.realTokenReserves < r.amountIn ∨ s.realSolReserves = 0)
  | _ => r.reserveIn = 0 ∨ r.reserveOut = 0

/-- **When a quote keeps its promise**: a Raydium quote divides evenly, the product of a Meteora
    CPMM quote is a `u128`, and a bonding curve has something to pay out. -/
def Safe : Prop :=
  r.TurnedAway ∨
  match r.state with
  | .raydiumAmm _ =>
      r.reserveIn + r.amountIn * 9975 / 10000 ∣ r.reserveIn * r.reserveOut
  | .raydiumCpmm _ =>
      r.reserveIn + r.amountIn * 9975 / 10000 ∣ r.reserveIn * r.reserveOut
  | .meteoraCpmm _ => r.reserveOut * r.amountIn * 9975 < 2 ^ 128
  | .pumpFun _ => 0 < r.reserveOut
  | _ => True

/-! ## 6. The two quotes of a kind with two vaults -/

variable {r}

theorem formula_typed (h : FeesTyped r.state) : (formula r.state).Typed := by
  cases hs : r.state with
  | orca s =>
      rw [hs] at h
      have hfee : s.feeRate < 2 ^ 16 := h
      show s.feeRate / 100 ≤ 10000
      omega
  | meteora s =>
      show min s.binStep 100 ≤ 10000
      omega
  | pumpFun s => trivial
  | raydiumAmm s => show 25 ≤ 10000; decide
  | raydiumCpmm s => show 25 ≤ 10000; decide
  | meteoraCpmm s => show 25 ≤ 10000; decide
  | pumpAmm s => show 100 ≤ 10000; decide

/-- A quote with two vaults is its formula behind the test of the reserves. -/
theorem output_plain {state : CachedPoolState} (hkind : ∀ s, state ≠ .pumpFun s) :
    ∃ missing, ∀ checks amountIn inputMint, quoteOutputAmount checks state amountIn inputMint =
      withReserves missing (reserves state inputMint).1 (reserves state inputMint).2
        ((formula state).run checks (reserves state inputMint).1 (reserves state inputMint).2
          amountIn) := by
  cases state with
  | pumpFun s => exact absurd rfl (hkind s)
  | _ => exact ⟨_, fun _ _ _ => rfl⟩

/-- The intent's quote is the same formula, behind a test that says more. -/
theorem fresh_plain (hkind : ∀ s, r.state ≠ .pumpFun s) :
    ∃ missing, ∀ checks, r.fresh checks = withReserves missing r.reserveIn r.reserveOut
      ((formula r.state).run checks r.reserveIn r.reserveOut r.amountIn) := by
  have hof (quote : Pubkey → Quoted) : ofIntent r.intent quote = quote r.inputMint := by
    unfold ofIntent
    rw [r.names]
  unfold fresh freshQuote reserveIn reserveOut
  cases hs : r.state with
  | pumpFun s => exact absurd hs (hkind s)
  | orca s => exact ⟨_, fun checks => hof _⟩
  | raydiumAmm s => exact ⟨_, fun checks => hof _⟩
  | raydiumCpmm s => exact ⟨_, fun checks => hof _⟩
  | meteora s => exact ⟨_, fun checks => hof _⟩
  | meteoraCpmm s => exact ⟨_, fun checks => hof _⟩
  | pumpAmm s => exact ⟨_, fun checks => hof _⟩

theorem withReserves_missing {missing : QuoteError} {ri ro : Nat} (h : ri = 0 ∨ ro = 0)
    (quote : Quoted) : withReserves missing ri ro quote = some (.error missing) := if_pos h

theorem withReserves_ok {missing : QuoteError} {ri ro out : Nat} (h : ¬ (ri = 0 ∨ ro = 0))
    (hout : out < 2 ^ 64) : withReserves missing ri ro (some (.ok out)) = some (.ok out) := by
  unfold withReserves
  rw [if_neg h]
  show some (Except.ok (trunc 64 out)) = _
  rw [trunc_of_lt hout]

/-- Two quotes that fail are as good as any. -/
theorem exact_of_errors (hout : ∀ checks, ∃ e, r.output checks = some (.error e))
    (hfresh : ∀ checks, ∃ e, r.fresh checks = some (.error e)) : r.Exact := by
  have hno (checks : Bool) (out : Nat) : r.output checks ≠ some (.ok out) := by
    obtain ⟨e, he⟩ := hout checks
    rw [he]
    exact fun h => nomatch Option.some.inj h
  refine ⟨?_, fun checks => .inl ?_, fun checks out h => absurd h (hno checks out),
    fun checks out h => absurd h (hno checks out), fun checks out h => absurd h (hno checks out),
    fun checks out h => absurd h (hno checks out)⟩
  · obtain ⟨e, he⟩ := hout true
    obtain ⟨e', he'⟩ := hfresh true
    rw [he, he']
    exact ⟨rfl, rfl⟩
  · obtain ⟨e, he⟩ := hout checks
    obtain ⟨e', he'⟩ := hfresh checks
    exact ⟨e, e', he, he'⟩

theorem run_value (checks : Bool) (hpos : 0 < r.reserveIn)
    (hfit : (formula r.state).Fits r.reserveOut r.amountIn) :
    (formula r.state).run checks r.reserveIn r.reserveOut r.amountIn =
      some (.ok ((formula r.state).value r.reserveIn r.reserveOut r.amountIn)) :=
  Formula.run_eq r.reserveIn_lt r.reserveOut_lt r.intent.requiredCapital.raw.toNat_lt hpos
    (formula_typed r.fees) hfit

/-- **Two quotes that return the formula's value** are exact if it is fair and something can be
    paid out. -/
theorem exact_of_value (hpos : 0 < r.reserveIn)
    (hfit : (formula r.state).Fits r.reserveOut r.amountIn)
    (hout : ∀ checks, r.output checks =
      some (.ok ((formula r.state).value r.reserveIn r.reserveOut r.amountIn)))
    (hfresh : ∀ checks, r.fresh checks =
      some (.ok ((formula r.state).value r.reserveIn r.reserveOut r.amountIn))) :
    r.Exact ↔ (formula r.state).Exact r.reserveIn r.reserveOut r.amountIn ∧ 0 < r.reserveOut := by
  constructor
  · intro h
    exact ⟨Formula.fair_value_iff.mp (h.fair true _ (hout true)),
      Nat.pos_of_ne_zero fun h0 => absurd (h.less true _ (hout true)) (by omega)⟩
  · rintro ⟨hexact, hpay⟩
    have hfair := Formula.fair_value_iff.mpr hexact
    refine ⟨by rw [hout, hfresh]; exact ⟨rfl, rfl⟩,
      fun checks => .inr ⟨_, hout checks, hfresh checks⟩, fun checks out h => ?_,
      fun checks out h => ?_, fun checks out h => ?_, fun checks out h => ?_⟩
    all_goals
      rw [hout] at h
      cases h
    · exact run_value checks hpos hfit
    · exact hfair
    · exact hfair.lt (Nat.mul_pos hpos (Formula.den_pos _)) hpay
    · exact hfair.product_le

/-- **The quotes of a kind with two vaults.** -/
theorem exact_iff_plain (hkind : ∀ s, r.state ≠ .pumpFun s) :
    r.Exact ↔ (r.reserveIn = 0 ∨ r.reserveOut = 0) ∨
      (formula r.state).Fits r.reserveOut r.amountIn ∧
        (formula r.state).Exact r.reserveIn r.reserveOut r.amountIn := by
  obtain ⟨missing, houtput⟩ := output_plain hkind
  obtain ⟨missing', hfresh⟩ := fresh_plain hkind
  have hout (checks : Bool) : r.output checks = withReserves missing r.reserveIn r.reserveOut
      ((formula r.state).run checks r.reserveIn r.reserveOut r.amountIn) :=
    houtput checks r.amountIn r.inputMint
  by_cases hmissing : r.reserveIn = 0 ∨ r.reserveOut = 0
  · refine ⟨fun _ => .inl hmissing, fun _ => exact_of_errors (fun checks => ⟨missing, ?_⟩)
      (fun checks => ⟨missing', ?_⟩)⟩
    · rw [hout]
      exact withReserves_missing hmissing _
    · rw [hfresh]
      exact withReserves_missing hmissing _
  · have hpos : 0 < r.reserveIn := Nat.pos_of_ne_zero fun h => hmissing (.inl h)
    have hpay : 0 < r.reserveOut := Nat.pos_of_ne_zero fun h => hmissing (.inr h)
    by_cases hfit : (formula r.state).Fits r.reserveOut r.amountIn
    · have hlt : (formula r.state).value r.reserveIn r.reserveOut r.amountIn < 2 ^ 64 :=
        Formula.value_le.trans_lt r.reserveOut_lt
      have hexact := exact_of_value hpos hfit
        (fun checks => by rw [hout, run_value checks hpos hfit]; exact withReserves_ok hmissing hlt)
        (fun checks => by
          rw [hfresh, run_value checks hpos hfit]
          exact withReserves_ok hmissing hlt)
      exact hexact.trans ⟨fun h => .inr ⟨hfit, h.1⟩, fun h => ⟨(h.resolve_left hmissing).2, hpay⟩⟩
    · have hnone : r.output true = none := by
        rw [hout, Formula.run_overflows (formula_typed r.fees) hfit r.reserveOut_lt
          r.intent.requiredCapital.raw.toNat_lt]
        exact if_neg hmissing
      constructor
      · intro h
        have hsome := h.returns.1
        rw [hnone] at hsome
        cases hsome
      · rintro (h | ⟨h, _⟩)
        · exact absurd h hmissing
        · exact absurd h hfit

/-! ## 7. The quotes of a bonding curve -/

/-- The real reserves of a bonding curve are known. -/
def Populated (s : PumpFunState) : Prop := 0 < s.realTokenReserves ∨ 0 < s.realSolReserves

instance (s : PumpFunState) : Decidable (Populated s) := inferInstanceAs (Decidable (_ ∨ _))

theorem populated_iff {s : PumpFunState} :
    (decide (0 < s.realTokenReserves) || decide (0 < s.realSolReserves)) = true ↔ Populated s := by
  rw [Bool.or_eq_true, decide_eq_true_iff, decide_eq_true_iff]
  rfl

section Curve

variable {checks : Bool} {s : PumpFunState} {amountIn v : Nat}

theorem buy_eq (hcomplete : ¬ s.complete = true) (hsol : s.virtualSolReserves ≠ 0)
    (hv : curveQuote checks s.virtualSolReserves s.virtualTokenReserves amountIn = some v)
    (hlt : v < 2 ^ 64) : calculatePumpfunQuote checks s amountIn true = some (.ok v) := by
  unfold calculatePumpfunQuote
  rw [if_neg hcomplete, if_pos rfl, if_neg hsol, hv]
  show some (Except.ok (trunc 64 v)) = _
  rw [trunc_of_lt hlt]

theorem sell_eq (hcomplete : ¬ s.complete = true)
    (hreal : Populated s → amountIn ≤ s.realTokenReserves ∧ s.realSolReserves ≠ 0)
    (htoken : s.virtualTokenReserves ≠ 0)
    (hv : curveQuote checks s.virtualTokenReserves s.virtualSolReserves amountIn = some v)
    (hlt : v < 2 ^ 64) : calculatePumpfunQuote checks s amountIn false =
      some (if Populated s ∧ s.realSolReserves < v then
        .error (.text (s!"pumpfun: calculated sol_output {v} exceeds " ++
          s!"real_sol_reserves {s.realSolReserves} (curve underfunded)"))
      else .ok v) := by
  unfold calculatePumpfunQuote
  simp only [populated_iff]
  rw [if_neg hcomplete, if_neg Bool.false_ne_true,
    if_neg fun hc => absurd (hreal hc.1).1 (Nat.not_le_of_lt hc.2),
    if_neg fun hc => (hreal hc.1).2 hc.2, if_neg htoken, hv]
  show some (if Populated s ∧ s.realSolReserves < trunc 64 v then _ else Except.ok (trunc 64 v)) = _
  rw [trunc_of_lt hlt]

/-- A sell that the real reserves or the token reserve turn away. -/
theorem sell_turnedAway (hcomplete : ¬ s.complete = true)
    (h : Populated s ∧ (s.realTokenReserves < amountIn ∨ s.realSolReserves = 0) ∨
      s.virtualTokenReserves = 0) :
    ∃ e, ∀ checks, calculatePumpfunQuote checks s amountIn false = some (.error e) := by
  unfold calculatePumpfunQuote
  simp only [populated_iff, if_neg hcomplete, if_neg Bool.false_ne_true]
  by_cases hmore : Populated s ∧ amountIn > s.realTokenReserves
  · simp only [if_pos hmore]
    exact ⟨_, fun _ => rfl⟩
  · simp only [if_neg hmore]
    by_cases hsol : Populated s ∧ s.realSolReserves = 0
    · simp only [if_pos hsol]
      exact ⟨_, fun _ => rfl⟩
    · have htoken : s.virtualTokenReserves = 0 := by
        rcases h with ⟨hp, hlt | h0⟩ | h0
        · exact absurd ⟨hp, hlt⟩ hmore
        · exact absurd ⟨hp, h0⟩ hsol
        · exact h0
      simp only [if_neg hsol, if_pos htoken]
      exact ⟨_, fun _ => rfl⟩

end Curve

section Curve

variable {s : PumpFunState} (h : r.state = .pumpFun s)

include h

/-- Both quotes of a bonding curve are one call. -/
theorem fresh_eq_output (checks : Bool) : r.fresh checks = r.output checks := by
  have hside := r.side s h
  have hbuy : decide (r.intent.side = .buy) = pumpfunIsBuyInput s r.inputMint := by
    cases hb : pumpfunIsBuyInput s r.inputMint with
    | true => exact decide_eq_true (hside.mpr hb)
    | false => exact decide_eq_false fun hs => Bool.false_ne_true (hb.symm.trans (hside.mp hs))
  unfold fresh output freshQuote quoteOutputAmount
  rw [h]
  show calculatePumpfunQuote checks s r.amountIn (decide (r.intent.side = .buy)) = _
  rw [hbuy]

theorem curve_reserves : (r.reserveIn, r.reserveOut) =
    sides (pumpfunIsBuyInput s r.inputMint) s.virtualSolReserves s.virtualTokenReserves := by
  unfold reserveIn reserveOut reserves
  rw [h]

theorem curve_value (checks : Bool) (hpos : 0 < r.reserveIn) :
    curveQuote checks r.reserveIn r.reserveOut r.amountIn =
      some (Formula.curve.value r.reserveIn r.reserveOut r.amountIn) := by
  have hrun := r.run_value checks hpos (by rw [h]; trivial)
  rw [h] at hrun
  have hmap : (curveQuote checks r.reserveIn r.reserveOut r.amountIn).map Except.ok =
      some (.ok (Formula.curve.value r.reserveIn r.reserveOut r.amountIn)) := hrun
  obtain ⟨out, hout, e⟩ := Option.map_eq_some_iff.mp hmap
  rw [hout]
  exact congrArg some (Except.ok.inj e)

/-- A bonding curve that turns a request away returns an error. -/
theorem output_of_turnedAway (hturned : r.TurnedAway) :
    ∃ e, ∀ checks, r.output checks = some (.error e) := by
  have hout (checks : Bool) : r.output checks = calculatePumpfunQuote checks s r.amountIn
      (pumpfunIsBuyInput s r.inputMint) := by
    unfold output quoteOutputAmount
    rw [h]
  have hres := curve_reserves h
  simp only [hout]
  unfold TurnedAway at hturned
  rw [h] at hturned
  by_cases hcomplete : s.complete = true
  · exact ⟨_, fun checks => if_pos hcomplete⟩
  · rcases hturned with hc | hin | ⟨hbuy, hreal, hshort⟩
    · exact absurd hc hcomplete
    · cases hbuy : pumpfunIsBuyInput s r.inputMint with
      | true =>
          rw [hbuy] at hres
          have hsol : s.virtualSolReserves = 0 := (Prod.mk.inj hres).1.symm.trans hin
          exact ⟨_, fun checks => (if_neg hcomplete).trans (if_pos hsol)⟩
      | false =>
          rw [hbuy] at hres
          have htoken : s.virtualTokenReserves = 0 := (Prod.mk.inj hres).1.symm.trans hin
          exact sell_turnedAway hcomplete (.inr htoken)
    · rw [hbuy]
      exact sell_turnedAway hcomplete (.inl ⟨hreal, hshort⟩)

/-- Past its tests a bonding curve returns its value, unless a sell takes more SOL than there is. -/
theorem output_of_not_turnedAway (hturned : ¬ r.TurnedAway) :
    (∀ checks, r.output checks =
      some (.ok (Formula.curve.value r.reserveIn r.reserveOut r.amountIn))) ∨
    ∃ e, 0 < r.reserveOut ∧ ∀ checks, r.output checks = some (.error e) := by
  have hout (checks : Bool) : r.output checks = calculatePumpfunQuote checks s r.amountIn
      (pumpfunIsBuyInput s r.inputMint) := by
    unfold output quoteOutputAmount
    rw [h]
  have hres := curve_reserves h
  unfold TurnedAway at hturned
  rw [h] at hturned
  push Not at hturned
  obtain ⟨hcomplete, hin, hsell⟩ := hturned
  have hvalue (checks : Bool) := curve_value h checks (Nat.pos_of_ne_zero hin)
  have hlt : Formula.curve.value r.reserveIn r.reserveOut r.amountIn < 2 ^ 64 :=
    Formula.value_le.trans_lt r.reserveOut_lt
  simp only [hout]
  cases hbuy : pumpfunIsBuyInput s r.inputMint with
  | true =>
      rw [hbuy] at hres
      obtain ⟨hri, hro⟩ := Prod.mk.inj hres
      rw [hri, hro] at hvalue hlt ⊢
      rw [hri] at hin
      exact .inl fun checks => buy_eq hcomplete hin (hvalue checks) hlt
  | false =>
      rw [hbuy] at hres
      obtain ⟨hri, hro⟩ := Prod.mk.inj hres
      have hreal := hsell hbuy
      rw [hri, hro] at hvalue hlt ⊢
      rw [hri] at hin
      have hsellEq (checks : Bool) := sell_eq hcomplete hreal hin (hvalue checks) hlt
      by_cases hpays : Populated s ∧ s.realSolReserves < Formula.curve.value
          s.virtualTokenReserves s.virtualSolReserves r.amountIn
      · refine .inr ⟨_, ?_, fun checks => (hsellEq checks).trans (congrArg some (if_pos hpays))⟩
        have hle : Formula.curve.value s.virtualTokenReserves s.virtualSolReserves r.amountIn ≤
            s.virtualSolReserves := Formula.value_le
        exact (Nat.zero_lt_of_lt hpays.2).trans_le hle
      · exact .inl fun checks => (hsellEq checks).trans (congrArg some (if_neg hpays))

/-- **The quotes of a bonding curve.** -/
theorem exact_iff_curve : r.Exact ↔ r.TurnedAway ∨ 0 < r.reserveOut := by
  have hfresh := fresh_eq_output h
  by_cases hturned : r.TurnedAway
  · obtain ⟨e, he⟩ := output_of_turnedAway h hturned
    exact ⟨fun _ => .inl hturned, fun _ => exact_of_errors (fun checks => ⟨e, he checks⟩)
      (fun checks => ⟨e, (hfresh checks).trans (he checks)⟩)⟩
  · rcases output_of_not_turnedAway h hturned with hout | ⟨e, hpay, he⟩
    · have hpos : 0 < r.reserveIn := by
        refine Nat.pos_of_ne_zero fun h0 => hturned ?_
        unfold TurnedAway
        rw [h]
        exact .inr (.inl h0)
      have hcurve : formula r.state = .curve := by
        rw [h]
        rfl
      have hexact := exact_of_value hpos (by rw [hcurve]; trivial)
        (fun checks => by rw [hcurve]; exact hout checks)
        (fun checks => by rw [hcurve, hfresh]; exact hout checks)
      rw [hexact, hcurve]
      exact ⟨fun hc => .inr hc.2, fun hc => ⟨trivial, hc.resolve_left hturned⟩⟩
    · exact ⟨fun _ => .inr hpay, fun _ => exact_of_errors (fun checks => ⟨e, he checks⟩)
        (fun checks => ⟨e, (hfresh checks).trans (he checks)⟩)⟩

end Curve

/-! ## 8. When a quote is exact -/

theorem turnedAway_plain {state : CachedPoolState} (hs : r.state = state)
    (hkind : ∀ s, state ≠ .pumpFun s) : r.TurnedAway ↔ r.reserveIn = 0 ∨ r.reserveOut = 0 := by
  unfold TurnedAway
  rw [hs]
  cases state with
  | pumpFun s => exact absurd rfl (hkind s)
  | _ => exact Iff.rfl

theorem exact_iff_of_state {state : CachedPoolState} (hs : r.state = state)
    (hkind : ∀ s, state ≠ .pumpFun s) :
    r.Exact ↔ r.TurnedAway ∨ (formula state).Fits r.reserveOut r.amountIn ∧
      (formula state).Exact r.reserveIn r.reserveOut r.amountIn := by
  rw [turnedAway_plain hs hkind]
  subst hs
  exact exact_iff_plain hkind

/-- **A quote is exact** exactly under `Safe`. -/
theorem quote_exact_iff (r : QuoteRequest) : r.Exact ↔ r.Safe := by
  unfold Safe
  cases hs : r.state with
  | pumpFun s => exact exact_iff_curve hs
  | orca s =>
      exact (exact_iff_of_state hs fun _ => nofun).trans
        (or_congr_right ⟨fun _ => trivial, fun _ => ⟨trivial, trivial⟩⟩)
  | meteora s =>
      exact (exact_iff_of_state hs fun _ => nofun).trans
        (or_congr_right ⟨fun _ => trivial, fun _ => ⟨trivial, trivial⟩⟩)
  | pumpAmm s =>
      exact (exact_iff_of_state hs fun _ => nofun).trans
        (or_congr_right ⟨fun _ => trivial, fun _ => ⟨trivial, trivial⟩⟩)
  | raydiumAmm s =>
      exact (exact_iff_of_state hs fun _ => nofun).trans
        (or_congr_right ⟨fun hc => hc.2, fun hc => ⟨trivial, hc⟩⟩)
  | raydiumCpmm s =>
      exact (exact_iff_of_state hs fun _ => nofun).trans
        (or_congr_right ⟨fun hc => hc.2, fun hc => ⟨trivial, hc⟩⟩)
  | meteoraCpmm s =>
      exact (exact_iff_of_state hs fun _ => nofun).trans
        (or_congr_right ⟨fun hc => hc.1, fun hc => ⟨hc, trivial⟩⟩)

/-- An intent to sell an amount of a mint. -/
def sellIntent (inputMint : Pubkey) (amountIn : UInt64) : Ipc.TradeIntent where
  header := ⟨1, 0, "arb-strategy", "", ""⟩
  intentId := ""
  source := "arb-strategy"
  tier := .arb
  originType := .strategyA
  deadlineSlot := none
  ttlMs := none
  requiredCapital := ⟨amountIn, 6, none⟩
  resources := ⟨TextCodec.base58Text inputMint, Ipc.nativeSolMint, [], [], none⟩
  expectedRoiBps := ⟨0, Ipc.zero_inI32⟩
  maxSlippageBps := 0
  side := .sell
  regime := .established
  triggerEventId := none
  requireBundle := none
  bundleTipLamports := none
  hintComputeUnits := none
  hintPriorityFeeMicroLamports := none
  hintUrgency := none
  metadata := ∅
  execution := none
  swapPath := none

/-- Four units of a mint into a Raydium CPMM pool with a thousand of each. -/
def fourIntoThousand : QuoteRequest where
  state := cpmmRow (some 1000) (some 1000)
  intent := sellIntent 1 4
  inputMint := 1
  fees := trivial
  reserveIn_lt := by decide
  reserveOut_lt := by decide
  names := TextCodec.base58Pubkey_text 1
  side := fun _ h => nomatch h

/-- **A quote rounded up**: three units after the fee buy three, though the curve gives less; a pool
    with one of each is drained. -/
theorem rounded_up :
    ¬ fourIntoThousand.Exact ∧
      quoteOutputAmount true (cpmmRow (some 1000) (some 1000)) 4 1 = some (.ok 3) ∧
      quoteOutputAmount true (cpmmRow (some 1) (some 1)) 10000 1 = some (.ok 1) := by
  have hthree : fourIntoThousand.output true = some (.ok 3) := by decide
  refine ⟨fun h => ?_, by decide, by decide⟩
  exact absurd (h.fair true 3 hthree) (by decide)

end QuoteRequest

end IronCrab.Execution

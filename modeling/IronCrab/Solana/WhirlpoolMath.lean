/-
  File:      IronCrab/Solana/WhirlpoolMath.lean
  Subject:   THE ARITHMETIC OF A WHIRLPOOL SWAP (module whirlpool_math of
             src/solana/dex/orca_tick_walker.rs).

  A `u128` is a `Nat`, a `U256Muldiv` its four words. An arithmetic step ends in a `MathError` or in
  a panic; where a build without overflow checks wraps instead, `checks` is false.

  * `U256Muldiv.div` -- long division word by word, with the panic of its last branch;
  * `sqrtPriceFromTickIndex`, `getNextSqrtPrice`, `computeSwap` -- the functions of the module;
  * `computeSwap_ends` -- a step reaches its target or leaves nothing of the input.
-/
import IronCrab.Solana.TradeDirection

namespace IronCrab.Solana.Whirlpool

/-! ## 1. Failures -/

/-- `MathError`. -/
inductive MathError where
  | divideByZero | mulDivOverflow | multiplicationOverflow | multiplicationShiftRightOverflow
  | tokenMaxExceeded | tokenMinSubceeded | sqrtPriceOutOfBounds | numberDownCastError
  | liquidityOverflow | liquidityUnderflow
  deriving DecidableEq

/-- How a computation fails: an error it returns, or a panic. -/
inductive Failure where
  | error (e : MathError)
  | panicked
  deriving DecidableEq

abbrev Checked := Except Failure

/-- A returned error goes on. -/
def raise {A : Type} : Except MathError A → Checked A
  | .ok a => .ok a
  | .error e => .error (.error e)

/-- `unwrap`. -/
def unwrap {A : Type} : Except MathError A → Checked A
  | .ok a => .ok a
  | .error _ => .error .panicked

def u64Max : Nat := 2 ^ 64 - 1

theorem bind_ok {A B : Type} {x : Checked A} {f : A → Checked B} {b : B}
    (h : x >>= f = .ok b) : ∃ a, x = .ok a ∧ f a = .ok b := by
  cases x with
  | error e => cases h
  | ok a => exact ⟨a, rfl, h⟩

/-! ## 2. Numbers of four words -/

def lo (n : Nat) : Nat := n % 2 ^ 64

def hi (n : Nat) : Nat := n / 2 ^ 64

def hiLo (h l : Nat) : Nat := h <<< 64 ||| l

/-- `leading_zeros` of a word. -/
def leadingZeros (w : Nat) : Nat := if w = 0 then 64 else 63 - w.log2

/-- `u128::wrapping_sub`. -/
def wrappingSub (a b : Nat) : Nat := (a + 2 ^ 128 - b) % 2 ^ 128

/-- `U256Muldiv`, the lowest word first. -/
structure U256Muldiv where
  items : List Nat
  deriving DecidableEq

namespace U256Muldiv

def numWordsMax : Nat := 4

def new (h l : Nat) : U256Muldiv := ⟨[lo l, hi l, lo h, hi h]⟩

def getWord (u : U256Muldiv) (index : Nat) : Nat := u.items.getD index 0

def updateWord (u : U256Muldiv) (index value : Nat) : U256Muldiv := ⟨u.items.set index value⟩

/-- The words up to the highest that is not zero. -/
def numWords (u : U256Muldiv) : Nat :=
  match (List.range numWordsMax).reverse.find? fun i => u.getWord i ≠ 0 with
  | some i => i + 1
  | none => 0

def isZero (u : U256Muldiv) : Bool := u.numWords = 0

def shiftWordLeft (u : U256Muldiv) : U256Muldiv := ⟨0 :: u.items.take 3⟩

def shiftWordRight (u : U256Muldiv) : U256Muldiv := ⟨u.items.drop 1 ++ [0]⟩

def checkedShiftWordLeft (u : U256Muldiv) : Option U256Muldiv :=
  if u.getWord 3 > 0 then none else some u.shiftWordLeft

/-- Whole words first, then the bits that are left. -/
def shiftLeft (u : U256Muldiv) (shiftAmount : Nat) : U256Muldiv :=
  if shiftAmount ≥ 256 then new 0 0
  else
    let result := shiftWordLeft^[shiftAmount / 64] u
    let bits := shiftAmount % 64
    if bits = 0 then result
    else ⟨List.zipWith (fun w below => lo (w <<< bits) ||| below >>> (64 - bits)) result.items
      (0 :: result.items.take 3)⟩

def shiftRight (u : U256Muldiv) (shiftAmount : Nat) : U256Muldiv :=
  if shiftAmount ≥ 256 then new 0 0
  else
    let result := shiftWordRight^[shiftAmount / 64] u
    let bits := shiftAmount % 64
    if bits = 0 then result
    else ⟨List.zipWith (fun w above => w >>> bits ||| lo (above <<< (64 - bits))) result.items
      (result.items.drop 1 ++ [0])⟩

/-- The words from the highest decide. -/
def lte (u other : U256Muldiv) : Bool :=
  match (List.range numWordsMax).reverse.find? fun i => u.getWord i ≠ other.getWord i with
  | some i => u.getWord i < other.getWord i
  | none => true

def tryIntoU128 (u : U256Muldiv) : Except MathError Nat :=
  if u.numWords > 2 then .error .numberDownCastError
  else .ok (hiLo (u.getWord 1) (u.getWord 0))

def add (u other : U256Muldiv) : U256Muldiv :=
  ((List.range numWordsMax).foldl (fun (result, carry) i =>
    let t := u.getWord i + other.getWord i + carry
    (updateWord result i (lo t), hi t)) (new 0 0, 0)).1

def sub (u other : U256Muldiv) : U256Muldiv :=
  ((List.range numWordsMax).foldl (fun (result, carry) i =>
    let t := u.getWord i + 2 ^ 64 - other.getWord i + 2 ^ 64 - carry
    (updateWord result i (lo t),
      if u.getWord i < other.getWord i + carry then 1 else 0)) (new 0 0, 0)).1

/-- `mul_u256`: the four products of the halves. -/
def mulU256 (v n : Nat) : U256Muldiv :=
  let c0 := lo v * lo n
  let a1 := lo v * hi n
  let b0 := hi v * lo n
  let c1 := hi c0 + lo a1 + lo b0
  new (hi v * hi n + hi c1 + hi a1 + hi b0) (hiLo (lo c1) (lo c0))

/-- The loop that lowers the estimate of a quotient word. Each pass adds a word of at least `2 ^ 63`
    to the remainder and stops at `2 ^ 64`, so there are at most two. -/
def lowerEstimate (d1 d1' : Nat) : Nat → Nat → Nat → Nat → Nat → Nat
  | 0, qhat, _, _, _ => qhat
  | passes + 1, qhat, rhat, cmp1, cmp2 =>
      if hi qhat ≠ 0 ∨ cmp2 > cmp1 then
        if hi (rhat + d1) ≠ 0 then qhat - 1
        else lowerEstimate d1 d1' passes (qhat - 1) (rhat + d1)
          (hiLo (lo (rhat + d1)) (lo cmp1)) (cmp2 - d1')
      else qhat

/-- `div_loop`: one word of the quotient, with what is left of the dividend and the word above
    it. -/
def divLoop (index numDivisorWords : Nat) (divisor : U256Muldiv) :
    U256Muldiv × U256Muldiv × Nat → Checked (U256Muldiv × U256Muldiv × Nat)
  | (quotient, dividend, dividendCarrySpace) =>
      let top := index + numDivisorWords
      let divHi := if top = numWordsMax then dividendCarrySpace else dividend.getWord top
      let d0 := hiLo divHi (dividend.getWord (top - 1))
      let d1 := divisor.getWord (numDivisorWords - 1)
      let d1' := divisor.getWord (numDivisorWords - 2)
      let rhat := d0 - d1 * (d0 / d1)
      let qhat := lowerEstimate d1 d1' 2 (d0 / d1) rhat
        (hiLo (lo rhat) (dividend.getWord (top - 2))) (d0 / d1 * d1' % 2 ^ 128)
      let (dividend, k) := (List.range numDivisorWords).foldl (fun (dividend, k) i =>
        let p := qhat * divisor.getWord i
        let t := wrappingSub (wrappingSub (dividend.getWord (index + i)) k) (lo p)
        (dividend.updateWord (index + i) (lo t), lo (lo (hi p) + 2 ^ 64 - lo (hi t))))
        (dividend, 0)
      let t := wrappingSub divHi k
      let (dividend, dividendCarrySpace) :=
        if top = numWordsMax then (dividend, lo t)
        else (dividend.updateWord top (lo t), dividendCarrySpace)
      if k > divHi then
        -- the source reads the word above the dividend also where there is none
        if top = numWordsMax then .error .panicked
        else
          let (dividend, k) := (List.range numDivisorWords).foldl (fun (dividend, k) i =>
            let t := dividend.getWord (index + i) + divisor.getWord i + k
            (dividend.updateWord (index + i) (lo t), hi t)) (dividend, 0)
          .ok (quotient.updateWord index (lo (qhat - 1)),
            dividend.updateWord top (lo (dividend.getWord top + k)), dividendCarrySpace)
      else .ok (quotient.updateWord index (lo qhat), dividend, dividendCarrySpace)

def div (dividend divisor : U256Muldiv) (returnRemainder : Bool) :
    Checked (U256Muldiv × U256Muldiv) :=
  let numDividendWords := dividend.numWords
  let numDivisorWords := divisor.numWords
  if numDivisorWords = 0 then .error .panicked
  else if numDividendWords = 0 then .ok (new 0 0, new 0 0)
  else if numDividendWords < numDivisorWords then
    .ok (new 0 0, if returnRemainder then dividend else new 0 0)
  else if numDividendWords < 3 then do
    let dividend ← unwrap dividend.tryIntoU128
    let divisor ← unwrap divisor.tryIntoU128
    return (new 0 (dividend / divisor),
      if returnRemainder then new 0 (dividend % divisor) else new 0 0)
  else if numDivisorWords = 1 then
    let (quotient, k) := (List.range numDividendWords).reverse.foldl (fun (quotient, k) j =>
      let d1 := hiLo (lo k) (dividend.getWord j)
      let d2 := divisor.getWord 0
      (quotient.updateWord j (lo (d1 / d2)), d1 - d2 * (d1 / d2))) (new 0 0, 0)
    .ok (quotient, if returnRemainder then new 0 k else new 0 0)
  else do
    let s := leadingZeros (divisor.getWord (numDivisorWords - 1))
    let b := leadingZeros (dividend.getWord (numDividendWords - 1))
    let dividendCarrySpace :=
      if numDividendWords = numWordsMax ∧ b < s then
        dividend.getWord (numDividendWords - 1) >>> (64 - s)
      else 0
    let (quotient, dividend, _) ←
      (List.range (numDividendWords - numDivisorWords + 1)).reverse.foldlM
        (fun state j => divLoop j numDivisorWords (divisor.shiftLeft s) state)
        (new 0 0, dividend.shiftLeft s, dividendCarrySpace)
    return (quotient, if returnRemainder then dividend.shiftRight s else new 0 0)

end U256Muldiv

open U256Muldiv (mulU256)

/-! ## 3. Quotients -/

def checkedMulDivRoundUpIf (n0 n1 d : Nat) (roundUp : Bool) : Except MathError Nat :=
  if d = 0 then .error .divideByZero
  else if n0 * n1 ≥ 2 ^ 128 then .error .mulDivOverflow
  else .ok (if roundUp ∧ n0 * n1 % d > 0 then n0 * n1 / d + 1 else n0 * n1 / d)

def checkedMulDiv (n0 n1 d : Nat) : Except MathError Nat := checkedMulDivRoundUpIf n0 n1 d false

def checkedMulDivRoundUp (n0 n1 d : Nat) : Except MathError Nat :=
  checkedMulDivRoundUpIf n0 n1 d true

def divRoundUpIf (n d : Nat) (roundUp : Bool) : Except MathError Nat :=
  if d = 0 then .error .divideByZero
  else .ok (if roundUp ∧ n % d > 0 then n / d + 1 else n / d)

def divRoundUpIfU256 (n d : U256Muldiv) (roundUp : Bool) : Checked Nat := do
  let (quotient, remainder) ← n.div d roundUp
  raise (if roundUp ∧ ¬ remainder.isZero then quotient.add (.new 0 1) else quotient).tryIntoU128

/-! ## 4. Prices of ticks -/

def maxSqrtPriceX64 : Nat := 79226673515401279992447579055

def minSqrtPriceX64 : Nat := 4295048016

def mulShift96 (n0 n1 : Nat) : Checked Nat :=
  unwrap ((mulU256 n0 n1).shiftRight 96).tryIntoU128

/-- The factors of the bits 1 to 18 of a positive tick. -/
def positiveFactors : List Nat :=
  [79236085330515764027303304731, 79244008939048815603706035061, 79259858533276714757314932305,
   79291567232598584799939703904, 79355022692464371645785046466, 79482085999252804386437311141,
   79736823300114093921829183326, 80248749790819932309965073892, 81282483887344747381513967011,
   83390072131320151908154831281, 87770609709833776024991924138, 97234110755111693312479820773,
   119332217159966728226237229890, 179736315981702064433883588727,
   407748233172238350107850275304, 2098478828474011932436660412517,
   55581415166113811149459800483533, 38992368544603139932233054999993551]

def getSqrtPricePositiveTick (tick : Nat) : Checked Nat := do
  let ratio ← (positiveFactors.zipIdx 1).foldlM
    (fun ratio (factor, bit) => if tick.testBit bit then mulShift96 ratio factor else .ok ratio)
    (if tick.testBit 0 then 79232123823359799118286999567 else 79228162514264337593543950336)
  return ratio >>> 32

/-- The factors of the bits 1 to 18 of a negative tick. -/
def negativeFactors : List Nat :=
  [18444899583751176498, 18443055278223354162, 18439367220385604838, 18431993317065449817,
   18417254355718160513, 18387811781193591352, 18329067761203520168, 18212142134806087854,
   17980523815641551639, 17526086738831147013, 16651378430235024244, 15030750278693429944,
   12247334978882834399, 8131365268884726200, 3584323654723342297, 696457651847595233,
   26294789957452057, 37481735321082]

def getSqrtPriceNegativeTick (absTick : Nat) : Nat :=
  (negativeFactors.zipIdx 1).foldl
    (fun ratio (factor, bit) => if absTick.testBit bit then (ratio * factor) >>> 64 else ratio)
    (if absTick.testBit 0 then 18445821805675392311 else 18446744073709551616)

def sqrtPriceFromTickIndex (tick : Int) : Checked Nat :=
  if 0 ≤ tick then getSqrtPricePositiveTick tick.toNat
  else .ok (getSqrtPriceNegativeTick tick.natAbs)

/-! ## 5. Amounts between two prices -/

def feeRateMulValue : Nat := 1000000

/-- `AmountDeltaU64`. -/
inductive AmountDeltaU64 where
  | valid (value : Nat)
  | exceedsMax (e : MathError)
  deriving DecidableEq

namespace AmountDeltaU64

def lte : AmountDeltaU64 → Nat → Bool
  | valid value, other => value ≤ other
  | exceedsMax _, _ => false

/-- `exceeds_max`. -/
def isExceedsMax : AmountDeltaU64 → Bool
  | valid _ => false
  | exceedsMax _ => true

/-- `value`. -/
def unwrapped : AmountDeltaU64 → Checked Nat
  | valid value => .ok value
  | exceedsMax _ => .error .panicked

/-- The amount, or the error it carries. -/
def orError : AmountDeltaU64 → Checked Nat
  | valid value => .ok value
  | exceedsMax e => .error (.error e)

end AmountDeltaU64

def increasingPriceOrder (sqrtPrice0 sqrtPrice1 : Nat) : Nat × Nat :=
  if sqrtPrice0 > sqrtPrice1 then (sqrtPrice1, sqrtPrice0) else (sqrtPrice0, sqrtPrice1)

/-- A product, one word higher. -/
def shiftedProduct (v n : Nat) : Checked U256Muldiv :=
  match (mulU256 v n).checkedShiftWordLeft with
  | some shifted => .ok shifted
  | none => .error (.error .multiplicationOverflow)

def tryGetAmountDeltaA (sqrtPrice0 sqrtPrice1 liquidity : Nat) (roundUp : Bool) :
    Checked AmountDeltaU64 := do
  let (lower, upper) := increasingPriceOrder sqrtPrice0 sqrtPrice1
  let numerator ← shiftedProduct liquidity (upper - lower)
  let (quotient, remainder) ← numerator.div (mulU256 upper lower) roundUp
  return match
      (if roundUp ∧ ¬ remainder.isZero then quotient.add (.new 0 1) else quotient).tryIntoU128 with
    | .ok result => if result > u64Max then .exceedsMax .tokenMaxExceeded else .valid result
    | .error e => .exceedsMax e

def getAmountDeltaA (sqrtPrice0 sqrtPrice1 liquidity : Nat) (roundUp : Bool) : Checked Nat :=
  tryGetAmountDeltaA sqrtPrice0 sqrtPrice1 liquidity roundUp >>= AmountDeltaU64.orError

def tryGetAmountDeltaB (sqrtPrice0 sqrtPrice1 liquidity : Nat) (roundUp : Bool) :
    AmountDeltaU64 :=
  let (lower, upper) := increasingPriceOrder sqrtPrice0 sqrtPrice1
  let p := liquidity * (upper - lower)
  if liquidity = 0 ∨ upper - lower = 0 then .valid 0
  else if p < 2 ^ 128 then
    let shouldRound := roundUp ∧ lo p > 0
    if shouldRound ∧ hi p = u64Max then .exceedsMax .multiplicationOverflow
    else .valid (if shouldRound then hi p + 1 else hi p)
  else .exceedsMax .multiplicationShiftRightOverflow

def getAmountDeltaB (sqrtPrice0 sqrtPrice1 liquidity : Nat) (roundUp : Bool) : Checked Nat :=
  (tryGetAmountDeltaB sqrtPrice0 sqrtPrice1 liquidity roundUp).orError

/-! ## 6. The price after an amount -/

def getNextSqrtPriceFromARoundUp (sqrtPrice liquidity amount : Nat) (isInput : Bool) :
    Checked Nat :=
  if amount = 0 then .ok sqrtPrice
  else do
    let product := mulU256 sqrtPrice amount
    let numerator ← shiftedProduct liquidity sqrtPrice
    let liquidityShiftLeft := (U256Muldiv.new 0 liquidity).shiftWordLeft
    if ¬ isInput ∧ liquidityShiftLeft.lte product then .error (.error .divideByZero)
    else do
      let denominator :=
        if isInput then liquidityShiftLeft.add product else liquidityShiftLeft.sub product
      let price ← divRoundUpIfU256 numerator denominator true
      if price < minSqrtPriceX64 then .error (.error .tokenMinSubceeded)
      else if price > maxSqrtPriceX64 then .error (.error .tokenMaxExceeded)
      else .ok price

def getNextSqrtPriceFromBRoundDown (sqrtPrice liquidity amount : Nat) (isInput : Bool) :
    Except MathError Nat := do
  let delta ← divRoundUpIf (amount <<< 64) liquidity !isInput
  if isInput then
    if sqrtPrice + delta < 2 ^ 128 then .ok (sqrtPrice + delta) else .error .sqrtPriceOutOfBounds
  else if delta ≤ sqrtPrice then .ok (sqrtPrice - delta) else .error .sqrtPriceOutOfBounds

def getNextSqrtPrice (sqrtPrice liquidity amount : Nat) (isInput aToB : Bool) : Checked Nat :=
  if isInput = aToB then getNextSqrtPriceFromARoundUp sqrtPrice liquidity amount isInput
  else raise (getNextSqrtPriceFromBRoundDown sqrtPrice liquidity amount isInput)

/-! ## 7. One step of a swap -/

/-- `add_liquidity_delta`. -/
def addLiquidityDelta (liquidity : Nat) (delta : Int) : Except MathError Nat :=
  if delta = 0 then .ok liquidity
  else if 0 < delta then
    if liquidity + delta.toNat < 2 ^ 128 then .ok (liquidity + delta.toNat)
    else .error .liquidityOverflow
  else if delta.natAbs ≤ liquidity then .ok (liquidity - delta.natAbs)
  else .error .liquidityUnderflow

/-- `SwapStepComputation`. -/
structure SwapStepComputation where
  amountIn : Nat
  amountOut : Nat
  nextPrice : Nat
  feeAmount : Nat
  deriving DecidableEq

def getAmountFixedDelta (current target liquidity : Nat) (isInput aToB : Bool) : Checked Nat :=
  if aToB = isInput then getAmountDeltaA current target liquidity isInput
  else getAmountDeltaB current target liquidity isInput

def tryGetAmountFixedDelta (current target liquidity : Nat) (isInput aToB : Bool) :
    Checked AmountDeltaU64 :=
  if aToB = isInput then tryGetAmountDeltaA current target liquidity isInput
  else .ok (tryGetAmountDeltaB current target liquidity isInput)

def getAmountUnfixedDelta (current target liquidity : Nat) (isInput aToB : Bool) : Checked Nat :=
  if aToB = isInput then getAmountDeltaB current target liquidity !isInput
  else getAmountDeltaA current target liquidity !isInput

/-- `try_into::<u64>`, as `TokenMaxExceeded` where it fails. -/
def tryIntoU64 (n : Nat) : Checked Nat :=
  if n ≤ u64Max then .ok n else .error (.error .tokenMaxExceeded)

/-- A difference of two `u64`: below zero it panics, or wraps without overflow checks. -/
def subU64 (checks : Bool) (a b : Nat) : Checked Nat :=
  if b ≤ a then .ok (a - b) else if checks then .error .panicked else .ok (a + 2 ^ 64 - b)

/-- The fee of a step: all that is left of an input that does not reach the target. -/
def stepFee (checks : Bool) (amountRemaining feeRate amountIn : Nat) (isInput isMaxSwap : Bool) :
    Checked Nat :=
  if isInput ∧ ¬ isMaxSwap then subU64 checks amountRemaining amountIn
  else raise (checkedMulDivRoundUp amountIn feeRate (feeRateMulValue - feeRate)) >>= tryIntoU64

def computeSwap (checks : Bool) (amountRemaining feeRate liquidity current target : Nat)
    (isInput aToB : Bool) : Checked SwapStepComputation := do
  let initialDelta ← tryGetAmountFixedDelta current target liquidity isInput aToB
  let amountCalc ←
    (if isInput then
      raise (checkedMulDiv amountRemaining (feeRateMulValue - feeRate) feeRateMulValue) >>=
        tryIntoU64
    else .ok amountRemaining)
  let nextSqrtPrice ←
    (if initialDelta.lte amountCalc then .ok target
    else getNextSqrtPrice current liquidity amountCalc isInput aToB)
  let isMaxSwap := decide (nextSqrtPrice = target)
  let unfixedDelta ← getAmountUnfixedDelta current nextSqrtPrice liquidity isInput aToB
  let fixedDelta ←
    (if ¬ isMaxSwap ∨ initialDelta.isExceedsMax then
      getAmountFixedDelta current nextSqrtPrice liquidity isInput aToB
    else initialDelta.unwrapped)
  let amountIn := if isInput then fixedDelta else unfixedDelta
  let amountOut := if isInput then unfixedDelta else min fixedDelta amountRemaining
  let feeAmount ← stepFee checks amountRemaining feeRate amountIn isInput isMaxSwap
  return ⟨amountIn, amountOut, nextSqrtPrice, feeAmount⟩

/-- **A step of an exact input** reaches its target, or its fee is all that is left. -/
theorem computeSwap_ends {checks : Bool} {amountRemaining feeRate liquidity current target : Nat}
    {aToB : Bool} {swap : SwapStepComputation}
    (h : computeSwap checks amountRemaining feeRate liquidity current target true aToB = .ok swap) :
    swap.nextPrice = target ∨
      subU64 checks amountRemaining swap.amountIn = .ok swap.feeAmount := by
  unfold computeSwap at h
  obtain ⟨initialDelta, -, h⟩ := bind_ok h
  obtain ⟨amountCalc, -, h⟩ := bind_ok h
  obtain ⟨nextSqrtPrice, -, h⟩ := bind_ok h
  obtain ⟨unfixedDelta, -, h⟩ := bind_ok h
  obtain ⟨fixedDelta, -, h⟩ := bind_ok h
  obtain ⟨feeAmount, hfee, h⟩ := bind_ok h
  cases h
  by_cases htarget : nextSqrtPrice = target
  · exact .inl htarget
  · refine .inr ?_
    rw [decide_eq_false htarget] at hfee
    exact hfee

end IronCrab.Solana.Whirlpool

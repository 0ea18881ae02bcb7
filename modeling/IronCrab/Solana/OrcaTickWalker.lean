/-
  File:      IronCrab/Solana/OrcaTickWalker.lean
  Subject:   THE QUOTE OF AN ORCA WHIRLPOOL (src/solana/dex/orca_tick_walker.rs,
             src/solana/dex/orca_tick_array.rs): the search for the next tick and the walk.

  * `ParsedTickArray.searched_getNextInitTickIndex` -- what the search finds inside one array;
  * **`getNextInitializedTickIndex_finds`** -- and over the three arrays;
  * `walkStep_ends`, `walk_eq` -- the walk ends with its first segment.
-/
import IronCrab.Solana.WhirlpoolMath
import Mathlib.Order.Bounds.Basic

namespace IronCrab.Solana.Whirlpool

open Track (Pubkey TextCodec)

/-! ## 1. Tick arrays -/

/-- `TICK_ARRAY_SIZE`. -/
def tickArraySize : Nat := 88

/-- `ParsedTick`: its net liquidity is an `i128`. -/
structure ParsedTick where
  initialized : Bool
  liquidityNet : Int
  range : -2 ^ 127 ≤ liquidityNet ∧ liquidityNet < 2 ^ 127

theorem zero_inI128 : -2 ^ 127 ≤ (0 : Int) ∧ (0 : Int) < 2 ^ 127 := by decide

/-- `ParsedTickArray`: the parser gives every array 88 ticks. -/
structure ParsedTickArray where
  whirlpool : Pubkey
  startTickIndex : Int
  ticks : Fin tickArraySize → ParsedTick

/-- `get_tick_array_start_index`. -/
def getTickArrayStartIndex (tickIndex : Int) (tickSpacing : Nat) : Int :=
  tickIndex / tickSpacing / tickArraySize * tickSpacing * tickArraySize

/-- `swap_direction_tick_array_starts`. -/
def swapDirectionTickArrayStarts (tickNow : Int) (tickSpacing : Nat) (aToB : Bool) :
    Int × Int × Int :=
  let ticksPerArray : Int := tickSpacing * tickArraySize
  let s0 := getTickArrayStartIndex tickNow tickSpacing
  if aToB then (s0, s0 - ticksPerArray, s0 - ticksPerArray - ticksPerArray)
  else (s0, s0 + ticksPerArray, s0 + ticksPerArray + ticksPerArray)

namespace ParsedTickArray

variable (array : ParsedTickArray) (tickSpacing : Nat)

/-- The index of a slot's tick. -/
def tickAt (slot : Nat) : Int := array.startTickIndex + slot * tickSpacing

/-- `in_search_range`. -/
def inSearchRange (tickIndex : Int) (shifted : Bool) : Bool :=
  let shift : Int := if shifted then tickSpacing else 0
  let lower := array.startTickIndex - shift
  let upper := array.startTickIndex + tickArraySize * tickSpacing - shift
  lower ≤ tickIndex ∧ tickIndex < upper

/-- `tick_offset`. -/
def tickOffset (tickIndex : Int) : Option (Fin tickArraySize) :=
  if tickIndex < array.startTickIndex then none
  else
    let delta := tickIndex - array.startTickIndex
    if delta % tickSpacing ≠ 0 then none
    else if h : (delta / tickSpacing).toNat < tickArraySize then some ⟨_, h⟩ else none

/-- The slots from an offset in the direction of a swap, to the first that is initialized. -/
def nextInitSlot (aToB : Bool) : Nat → Int → Option (Fin tickArraySize)
  | 0, _ => none
  | slots + 1, offset =>
      if h : 0 ≤ offset ∧ offset.toNat < tickArraySize then
        if (array.ticks ⟨offset.toNat, h.2⟩).initialized then some ⟨offset.toNat, h.2⟩
        else nextInitSlot aToB slots (if aToB then offset - 1 else offset + 1)
      else none

/-- `get_next_init_tick_index`. -/
def getNextInitTickIndex (tickIndex : Int) (aToB : Bool) : Except Unit (Option Int) :=
  if array.inSearchRange tickSpacing tickIndex (!aToB) then
    match array.tickOffset tickSpacing tickIndex with
    | none => .error ()
    | some offset =>
        .ok ((array.nextInitSlot aToB tickArraySize (if aToB then offset else offset + 1)).map
          fun slot => array.tickAt tickSpacing slot)
  else .error ()

/-- `get_tick`. -/
def getTick (tickIndex : Int) : Option ParsedTick :=
  (array.tickOffset tickSpacing tickIndex).map array.ticks

end ParsedTickArray

/-- `get_next_initialized_tick_index`, from the array of an index. -/
def getNextInitializedTickIndex (tickSpacing : Nat) (aToB : Bool) :
    Nat → Int → List ParsedTickArray → Except Unit (Nat × Int)
  | _, _, [] => .error ()
  | arrayIndex, searchIndex, array :: rest => do
      match ← array.getNextInitTickIndex tickSpacing searchIndex aToB, rest with
      | some nextIndex, _ => .ok (arrayIndex, nextIndex)
      | none, [] =>
          .ok (arrayIndex, if aToB then array.startTickIndex
            else array.startTickIndex + tickArraySize * tickSpacing - tickSpacing)
      | none, next :: _ =>
          getNextInitializedTickIndex tickSpacing aToB (arrayIndex + 1)
            (if aToB then next.startTickIndex + tickArraySize * tickSpacing - tickSpacing
            else next.startTickIndex) rest

/-! ## 2. The walk -/

/-- `OrcaWhirlpoolQuoteInput`. -/
structure OrcaWhirlpoolQuoteInput where
  pool : Pubkey
  tokenMintA : Pubkey
  tokenMintB : Pubkey
  sqrtPrice : Nat
  liquidity : Nat
  tickCurrentIndex : Int
  tickSpacing : UInt16
  feeRate : UInt16

/-- `OrcaTickArrays`. -/
abbrev OrcaTickArrays := Finmap fun _ : Int => ParsedTickArray

def sqrtPriceLimit (aToB : Bool) : Nat := if aToB then minSqrtPriceX64 else maxSqrtPriceX64

/-- `get_next_sqrt_prices`. -/
def getNextSqrtPrices (nextTickIndex : Int) (aToB : Bool) : Checked (Nat × Nat) := do
  let nextTickPrice ← sqrtPriceFromTickIndex nextTickIndex
  return (nextTickPrice,
    if aToB then max (sqrtPriceLimit aToB) nextTickPrice
    else min (sqrtPriceLimit aToB) nextTickPrice)

/-- `checked_sub` and `checked_add` of a `u64`. -/
def checkedSub (a b : Nat) : Checked Nat :=
  if b ≤ a then .ok (a - b) else .error (.error .mulDivOverflow)

def checkedAdd (a b : Nat) : Checked Nat :=
  if a + b ≤ u64Max then .ok (a + b) else .error (.error .mulDivOverflow)

/-- What the walk knows of a swap. -/
structure SwapState where
  amountRemaining : Nat
  amountCalculated : Nat
  currSqrtPrice : Nat
  currTickIndex : Int
  currLiquidity : Nat
  deriving DecidableEq

/-- A price segment towards a tick. -/
structure Segment where
  nextTickSqrtPrice : Nat
  sqrtPriceTarget : Nat
  nextPrice : Nat
  amountRemaining : Nat
  amountCalculated : Nat
  deriving DecidableEq

section Walk

variable (checks : Bool) (pool : OrcaWhirlpoolQuoteInput) (aToB : Bool)

/-- The segment of a swap up to a tick: its swap step, with the amounts after it. -/
def priceSegment (s : SwapState) (nextTickIndex : Int) : Checked Segment := do
  let (nextTickSqrtPrice, sqrtPriceTarget) ← getNextSqrtPrices nextTickIndex aToB
  let swap ← computeSwap checks s.amountRemaining pool.feeRate.toNat s.currLiquidity
    s.currSqrtPrice sqrtPriceTarget true aToB
  let afterInput ← checkedSub s.amountRemaining swap.amountIn
  let amountRemaining ← checkedSub afterInput swap.feeAmount
  let amountCalculated ← checkedAdd s.amountCalculated swap.amountOut
  return ⟨nextTickSqrtPrice, sqrtPriceTarget, swap.nextPrice, amountRemaining, amountCalculated⟩

/-- The negation of an `i128`: of the least it panics, or wraps without overflow checks. -/
def negI128 (n : Int) : Checked Int :=
  if n = -2 ^ 127 then if checks then .error .panicked else .ok n else .ok (-n)

/-- The liquidity behind a tick. -/
def crossedLiquidity (liquidity : Nat) : Option ParsedTick → Checked Nat
  | some tick =>
      if tick.initialized then
        (if aToB then negI128 checks tick.liquidityNet else .ok tick.liquidityNet) >>= fun delta =>
          raise (addLiquidityDelta liquidity delta)
      else .ok liquidity
  | none => .ok liquidity

variable (arrays : List ParsedTickArray)

/-- The array to go on in behind a tick. -/
def handOver (nextArrayIndex : Nat) (nextTickIndex : Int) : Nat :=
  let tickOffset := match arrays[nextArrayIndex]?.bind fun array =>
      array.tickOffset pool.tickSpacing.toNat nextTickIndex with
    | some offset => offset.val
    | none => 0
  if aToB ∧ tickOffset = 0 ∨ ¬ aToB ∧ tickOffset = tickArraySize - 1 then nextArrayIndex + 1
  else nextArrayIndex

/-- The search as the walk sees it: without a tick it is an error. -/
def searchNext (s : SwapState) (currArrayIndex : Nat) : Checked (Nat × Int) :=
  match getNextInitializedTickIndex pool.tickSpacing.toNat aToB currArrayIndex s.currTickIndex
    (arrays.drop currArrayIndex) with
  | .ok found => .ok found
  | .error _ => .error (.error .divideByZero)

variable {pool aToB arrays} in
theorem searchNext_ok {s : SwapState} {currArrayIndex : Nat} {found : Nat × Int}
    (h : getNextInitializedTickIndex pool.tickSpacing.toNat aToB currArrayIndex s.currTickIndex
      (arrays.drop currArrayIndex) = .ok found) :
    searchNext pool aToB arrays s currArrayIndex = .ok found := by
  unfold searchNext
  rw [h]

variable {pool aToB arrays} in
theorem searchNext_error {s : SwapState} {currArrayIndex : Nat}
    (h : getNextInitializedTickIndex pool.tickSpacing.toNat aToB currArrayIndex s.currTickIndex
      (arrays.drop currArrayIndex) = .error ()) :
    searchNext pool aToB arrays s currArrayIndex = .error (.error .divideByZero) := by
  unfold searchNext
  rw [h]

/-- One pass of the loop: the swap, its array and whether the loop breaks. -/
def walkStep (s : SwapState) (currArrayIndex : Nat) : Checked (SwapState × Nat × Bool) := do
  let (nextArrayIndex, nextTickIndex) ← searchNext pool aToB arrays s currArrayIndex
  let segment ← priceSegment checks pool aToB s nextTickIndex
  let stop := segment.amountRemaining = 0 ∨ segment.nextPrice = segment.sqrtPriceTarget
  if segment.nextPrice = segment.nextTickSqrtPrice then do
    let liquidity ← crossedLiquidity checks aToB s.currLiquidity
      (arrays[nextArrayIndex]?.bind fun array =>
        array.getTick pool.tickSpacing.toNat nextTickIndex)
    return (⟨segment.amountRemaining, segment.amountCalculated, segment.nextPrice,
      if aToB then nextTickIndex - 1 else nextTickIndex, liquidity⟩,
      handOver pool aToB arrays nextArrayIndex nextTickIndex, decide stop)
  else
    return (⟨segment.amountRemaining, segment.amountCalculated, segment.nextPrice,
      s.currTickIndex, s.currLiquidity⟩, currArrayIndex, decide stop)

/-- The loop, for a number of passes. -/
def walk : Nat → SwapState → Nat → Checked SwapState
  | 0, s, _ => .ok s
  | passes + 1, s, currArrayIndex =>
      if 0 < s.amountRemaining ∧ sqrtPriceLimit aToB ≠ s.currSqrtPrice then do
        let (s', arrayIndex', stop) ← walkStep checks pool aToB arrays s currArrayIndex
        if stop then .ok s' else walk passes s' arrayIndex'
      else .ok s

/-- The swap at its start. -/
def OrcaWhirlpoolQuoteInput.start (amountIn : UInt64) : SwapState :=
  ⟨amountIn.toNat, 0, pool.sqrtPrice, pool.tickCurrentIndex, pool.liquidity⟩

/-- `try_quote_walk`: a pass for each tick of the arrays (the first already breaks, `walk_eq`). -/
def tryQuoteWalk (amountIn : UInt64) : Checked Nat := do
  let s ← walk checks pool aToB arrays (arrays.length * tickArraySize + 1) (pool.start amountIn) 0
  if s.amountRemaining > 0 then .error (.error .tokenMaxExceeded) else .ok s.amountCalculated

/-- `resolve_a_to_b`. -/
def resolveAToB (mintIn mintOut : String) : Option Bool :=
  if mintIn = TextCodec.base58Text pool.tokenMintA ∧
      mintOut = TextCodec.base58Text pool.tokenMintB then some true
  else if mintIn = TextCodec.base58Text pool.tokenMintB ∧
      mintOut = TextCodec.base58Text pool.tokenMintA then some false
  else none

/-- What a caller sees: a quote, or the panic. -/
inductive Quoted where
  | returned (out : Option Nat)
  | panicked
  deriving DecidableEq

/-- `.ok()?`, with no quote of nothing. -/
def Quoted.ofWalk : Checked Nat → Quoted
  | .ok out => .returned (if out = 0 then none else some out)
  | .error (.error _) => .returned none
  | .error .panicked => .panicked

/-- `orca_quote_exact_in`. -/
def orcaQuoteExactIn (ticks : OrcaTickArrays) (mintIn mintOut : String) (amountIn : UInt64) :
    Quoted :=
  if pool.sqrtPrice = 0 ∨ pool.liquidity = 0 ∨ amountIn = 0 then .returned none
  else
    match resolveAToB pool mintIn mintOut with
    | none => .returned none
    | some aToB =>
        let (s0, s1, s2) :=
          swapDirectionTickArrayStarts pool.tickCurrentIndex pool.tickSpacing.toNat aToB
        match ticks.lookup s0, ticks.lookup s1, ticks.lookup s2 with
        | some arr0, some arr1, some arr2 =>
            if arr0.whirlpool ≠ pool.pool ∨ arr1.whirlpool ≠ pool.pool ∨
                arr2.whirlpool ≠ pool.pool then .returned none
            else .ofWalk (tryQuoteWalk checks pool aToB [arr0, arr1, arr2] amountIn)
        | _, _, _ => .returned none

end Walk

/-! ## 3. The search -/

/-- A tick lies ahead of another in the direction of a swap: selling A, from the tick itself on. -/
def Ahead (aToB : Bool) (tick t : Int) : Prop := if aToB then t ≤ tick else tick < t

/-- The first of two ticks is no farther. -/
def NoFarther (aToB : Bool) (t t' : Int) : Prop := if aToB then t' ≤ t else t ≤ t'

instance (aToB : Bool) (tick t : Int) : Decidable (Ahead aToB tick t) :=
  inferInstanceAs (Decidable (if aToB then t ≤ tick else tick < t))

instance (aToB : Bool) (t t' : Int) : Decidable (NoFarther aToB t t') :=
  inferInstanceAs (Decidable (if aToB then t' ≤ t else t ≤ t'))

/-- **The next of some ticks** in the direction of a swap. -/
structure NextTick (Stop : Int → Prop) (aToB : Bool) (tick next : Int) : Prop where
  stop : Stop next
  ahead : Ahead aToB tick next
  nearest : ∀ t, Stop t → Ahead aToB tick t → NoFarther aToB next t

theorem noFarther_antisymm {aToB : Bool} {t t' : Int} (h : NoFarther aToB t t')
    (h' : NoFarther aToB t' t) : t = t' := by
  cases aToB with
  | true => exact Int.le_antisymm h' h
  | false => exact Int.le_antisymm h h'

theorem NextTick.unique {Stop : Int → Prop} {aToB : Bool} {tick next next' : Int}
    (h : NextTick Stop aToB tick next) (h' : NextTick Stop aToB tick next') : next = next' :=
  noFarther_antisymm (h.nearest next' h'.stop h'.ahead) (h'.nearest next h.stop h.ahead)

theorem NextTick.congr {Stop Stop' : Int → Prop} {aToB : Bool} {tick next : Int}
    (h : NextTick Stop aToB tick next) (hstop : ∀ t, Stop t ↔ Stop' t) :
    NextTick Stop' aToB tick next where
  stop := (hstop next).mp h.stop
  ahead := h.ahead
  nearest t ht := h.nearest t ((hstop t).mpr ht)

/-- What a search gives: the next tick, or that none is ahead. -/
def Searched (Stop : Int → Prop) (aToB : Bool) (tick : Int) : Option Int → Prop
  | some next => NextTick Stop aToB tick next
  | none => ∀ t, Stop t → ¬ Ahead aToB tick t

namespace ParsedTickArray

variable {array : ParsedTickArray} {tickSpacing : Nat}

/-- An initialized tick of an array. -/
def Holds (array : ParsedTickArray) (tickSpacing : Nat) (t : Int) : Prop :=
  ∃ slot : Fin tickArraySize,
    (array.ticks slot).initialized = true ∧ t = array.tickAt tickSpacing slot

theorem tickAt_bounds (array : ParsedTickArray) (tickSpacing : Nat) (slot : Fin tickArraySize) :
    array.startTickIndex ≤ array.tickAt tickSpacing slot ∧
      array.tickAt tickSpacing slot ≤ array.startTickIndex + 87 * tickSpacing := by
  have hslot : (slot.val : Int) ≤ 87 := by
    have hlt := slot.isLt
    unfold tickArraySize at hlt
    omega
  have hle : (slot.val : Int) * tickSpacing ≤ 87 * tickSpacing :=
    Int.mul_le_mul_of_nonneg_right hslot (Int.natCast_nonneg _)
  have hnonneg : (0 : Int) ≤ slot.val * tickSpacing :=
    Int.mul_nonneg (Int.natCast_nonneg _) (Int.natCast_nonneg _)
  unfold tickAt
  omega

theorem holds_bounds {t : Int} (h : Holds array tickSpacing t) :
    array.startTickIndex ≤ t ∧ t ≤ array.startTickIndex + 87 * tickSpacing := by
  obtain ⟨slot, -, rfl⟩ := h
  exact tickAt_bounds array tickSpacing slot

theorem tickAt_le_iff (array : ParsedTickArray) (hspacing : 0 < tickSpacing)
    (slot slot' : Nat) :
    array.tickAt tickSpacing slot ≤ array.tickAt tickSpacing slot' ↔ slot ≤ slot' := by
  have hpos : (0 : Int) < tickSpacing := Int.natCast_pos.mpr hspacing
  unfold tickAt
  rw [Int.add_le_add_iff_left, Int.mul_le_mul_right hpos, Int.ofNat_le]

theorem tickOffset_eq_some (hspacing : 0 < tickSpacing) {t : Int} {slot : Fin tickArraySize} :
    array.tickOffset tickSpacing t = some slot ↔ t = array.tickAt tickSpacing slot := by
  have hpos : (0 : Int) < tickSpacing := Int.natCast_pos.mpr hspacing
  unfold tickOffset tickAt
  constructor
  · intro h
    dsimp only at h
    split_ifs at h with hbelow haligned hlt
    have hslot : slot.val = ((t - array.startTickIndex) / tickSpacing).toNat :=
      (congrArg Fin.val (Option.some.inj h)).symm
    have hdiv : (slot.val : Int) = (t - array.startTickIndex) / tickSpacing := by
      rw [hslot, Int.toNat_of_nonneg (Int.ediv_nonneg (by omega) hpos.le)]
    have hmul := Int.ediv_mul_cancel (Int.dvd_of_emod_eq_zero (not_not.mp haligned))
    rw [hdiv, hmul]
    omega
  · rintro rfl
    have hdelta : array.startTickIndex + slot.val * tickSpacing - array.startTickIndex =
        slot.val * tickSpacing := by omega
    have hnonneg : (0 : Int) ≤ slot.val * tickSpacing :=
      Int.mul_nonneg (Int.natCast_nonneg _) hpos.le
    have hdiv : ((slot.val : Int) * tickSpacing / tickSpacing).toNat = slot.val := by
      rw [Int.mul_ediv_cancel _ hpos.ne', Int.toNat_natCast]
    have hlt : ((slot.val : Int) * tickSpacing / tickSpacing).toNat < tickArraySize := by
      rw [hdiv]
      exact slot.isLt
    rw [if_neg (by omega)]
    dsimp only
    rw [hdelta, if_neg (not_not.mpr (Int.mul_emod_left _ _)), dif_pos hlt]
    exact congrArg some (Fin.ext hdiv)

theorem getTick_tickAt (hspacing : 0 < tickSpacing) (slot : Fin tickArraySize) :
    array.getTick tickSpacing (array.tickAt tickSpacing slot) = some (array.ticks slot) := by
  unfold getTick
  rw [(tickOffset_eq_some hspacing).mpr rfl, Option.map_some]

theorem getTick_eq_none (hspacing : 0 < tickSpacing) {t : Int}
    (h : t < array.startTickIndex ∨ array.startTickIndex + 87 * tickSpacing < t) :
    array.getTick tickSpacing t = none := by
  unfold getTick
  rw [Option.map_eq_none_iff, Option.eq_none_iff_forall_ne_some]
  intro slot hslot
  obtain ⟨hlow, hhigh⟩ := tickAt_bounds array tickSpacing slot
  rw [← (tickOffset_eq_some hspacing).mp hslot] at hlow hhigh
  omega

/-- The nearest initialized slot from an offset on, or that there is none. -/
def StopsAt (array : ParsedTickArray) (aToB : Bool) (offset : Int) :
    Option (Fin tickArraySize) → Prop
  | some slot => (array.ticks slot).initialized = true ∧ NoFarther aToB offset slot ∧
      ∀ slot' : Fin tickArraySize, (array.ticks slot').initialized = true →
        NoFarther aToB offset slot' → NoFarther aToB slot slot'
  | none => ∀ slot' : Fin tickArraySize, (array.ticks slot').initialized = true →
      ¬ NoFarther aToB offset slot'

/-- A slot that is not initialized is passed. -/
theorem StopsAt.pass {aToB : Bool} {offset : Int} {found : Option (Fin tickArraySize)}
    (hoffset : ∀ slot : Fin tickArraySize, (array.ticks slot).initialized = true →
      (slot : Int) ≠ offset)
    (h : StopsAt array aToB (if aToB then offset - 1 else offset + 1) found) :
    StopsAt array aToB offset found := by
  have hnext : ∀ slot : Fin tickArraySize, (array.ticks slot).initialized = true →
      NoFarther aToB offset slot →
        NoFarther aToB (if aToB then offset - 1 else offset + 1) slot := by
    intro slot hinit hslot
    have hne := hoffset slot hinit
    unfold NoFarther at hslot ⊢
    cases aToB with
    | true =>
        change (slot : Int) ≤ offset at hslot
        change (slot : Int) ≤ offset - 1
        omega
    | false =>
        change offset ≤ (slot : Int) at hslot
        change offset + 1 ≤ (slot : Int)
        omega
  cases found with
  | none => exact fun slot hinit hslot => h slot hinit (hnext slot hinit hslot)
  | some slot =>
      obtain ⟨hinit, hslot, hnearest⟩ := h
      refine ⟨hinit, ?_, fun slot' hinit' hslot' =>
        hnearest slot' hinit' (hnext slot' hinit' hslot')⟩
      unfold NoFarther at hslot ⊢
      cases aToB with
      | true =>
          change (slot : Int) ≤ offset - 1 at hslot
          change (slot : Int) ≤ offset
          omega
      | false =>
          change offset + 1 ≤ (slot : Int) at hslot
          change offset ≤ (slot : Int)
          omega

theorem stopsAt_none {aToB : Bool} {offset : Int}
    (h : if aToB then offset < 0 else tickArraySize ≤ offset) : StopsAt array aToB offset none := by
  intro slot _ hslot
  have hlt := slot.isLt
  unfold NoFarther at hslot
  cases aToB with
  | true =>
      change (slot : Int) ≤ offset at hslot
      change offset < 0 at h
      omega
  | false =>
      change offset ≤ (slot : Int) at hslot
      change (tickArraySize : Int) ≤ offset at h
      omega

/-- The loop over the slots stops at the nearest that is initialized. -/
theorem stopsAt_nextInitSlot (aToB : Bool) (slots : Nat) (offset : Int)
    (h : if aToB then offset < slots ∧ slots ≤ tickArraySize
      else 0 ≤ offset ∧ tickArraySize ≤ offset + slots) :
    StopsAt array aToB offset (array.nextInitSlot aToB slots offset) := by
  induction slots generalizing offset with
  | zero =>
      refine stopsAt_none ?_
      cases aToB with
      | true => exact h.1
      | false =>
          change 0 ≤ offset ∧ (tickArraySize : Int) ≤ offset + 0 at h
          change (tickArraySize : Int) ≤ offset
          omega
  | succ slots ih =>
      have hnext : if aToB then (if aToB then offset - 1 else offset + 1) < slots ∧
          slots ≤ tickArraySize
          else 0 ≤ (if aToB then offset - 1 else offset + 1) ∧
            tickArraySize ≤ (if aToB then offset - 1 else offset + 1) + slots := by
        cases aToB with
        | true =>
            change offset < (slots + 1 : Nat) ∧ slots + 1 ≤ tickArraySize at h
            change offset - 1 < slots ∧ slots ≤ tickArraySize
            omega
        | false =>
            change 0 ≤ offset ∧ tickArraySize ≤ offset + (slots + 1 : Nat) at h
            change 0 ≤ offset + 1 ∧ tickArraySize ≤ offset + 1 + slots
            omega
      unfold nextInitSlot
      by_cases hrange : 0 ≤ offset ∧ offset.toNat < tickArraySize
      · rw [dif_pos hrange]
        by_cases hinit : (array.ticks ⟨offset.toNat, hrange.2⟩).initialized = true
        · have hself : ((⟨offset.toNat, hrange.2⟩ : Fin tickArraySize) : Int) = offset :=
            Int.toNat_of_nonneg hrange.1
          rw [if_pos hinit]
          refine ⟨hinit, ?_, fun slot' _ hslot' => ?_⟩
          · rw [hself]
            unfold NoFarther
            cases aToB with
            | true => exact le_refl offset
            | false => exact le_refl offset
          · rw [hself]
            exact hslot'
        · rw [if_neg hinit]
          refine StopsAt.pass (fun slot hslot heq => hinit ?_) (ih _ hnext)
          have hslot' : (⟨offset.toNat, hrange.2⟩ : Fin tickArraySize) = slot :=
            Fin.ext (Int.ofNat_inj.mp ((Int.toNat_of_nonneg hrange.1).trans heq.symm))
          rw [hslot']
          exact hslot
      · rw [dif_neg hrange]
        refine stopsAt_none ?_
        cases aToB with
        | true =>
            change offset < (slots + 1 : Nat) ∧ slots + 1 ≤ tickArraySize at h
            change offset < 0
            omega
        | false =>
            change 0 ≤ offset ∧ _ at h
            change (tickArraySize : Int) ≤ offset
            omega

theorem noFarther_tickAt (hspacing : 0 < tickSpacing) (aToB : Bool) (slot slot' : Nat) :
    NoFarther aToB (array.tickAt tickSpacing slot) (array.tickAt tickSpacing slot') ↔
      NoFarther aToB slot slot' := by
  unfold NoFarther
  cases aToB with
  | true => exact (tickAt_le_iff array hspacing slot' slot).trans Int.ofNat_le.symm
  | false => exact (tickAt_le_iff array hspacing slot slot').trans Int.ofNat_le.symm

theorem ahead_tickAt (hspacing : 0 < tickSpacing) (aToB : Bool) (slot slot' : Nat) :
    Ahead aToB (array.tickAt tickSpacing slot) (array.tickAt tickSpacing slot') ↔
      NoFarther aToB (if aToB then (slot : Int) else slot + 1) slot' := by
  have hle := tickAt_le_iff array hspacing slot' slot
  unfold Ahead NoFarther
  cases aToB with
  | true =>
      change _ ↔ (slot' : Int) ≤ slot
      exact hle.trans Int.ofNat_le.symm
  | false =>
      change array.tickAt tickSpacing slot < _ ↔ (slot : Int) + 1 ≤ slot'
      omega

/-- What the slots give is what the ticks give. -/
theorem searched_of_stopsAt (hspacing : 0 < tickSpacing) {aToB : Bool} {slot : Nat}
    {found : Option (Fin tickArraySize)}
    (h : StopsAt array aToB (if aToB then (slot : Int) else slot + 1) found) :
    Searched (array.Holds tickSpacing) aToB (array.tickAt tickSpacing slot)
      (found.map fun slot' => array.tickAt tickSpacing slot') := by
  cases found with
  | none =>
      rintro t ⟨slot', hinit, rfl⟩ hahead
      exact h slot' hinit ((ahead_tickAt hspacing aToB slot slot').mp hahead)
  | some next =>
      obtain ⟨hinit, hahead, hnearest⟩ := h
      refine ⟨⟨next, hinit, rfl⟩, (ahead_tickAt hspacing aToB slot next).mpr hahead, ?_⟩
      rintro t ⟨slot', hinit', rfl⟩ hahead'
      exact (noFarther_tickAt hspacing aToB next slot').mpr
        (hnearest slot' hinit' ((ahead_tickAt hspacing aToB slot slot').mp hahead'))

/-- **The search inside one array**, from a tick of it; selling B, not from the last. -/
theorem searched_getNextInitTickIndex (hspacing : 0 < tickSpacing) {aToB : Bool}
    (slot : Fin tickArraySize) (h : aToB = true ∨ slot.val < 87) :
    ∃ found, array.getNextInitTickIndex tickSpacing (array.tickAt tickSpacing slot) aToB =
        .ok found ∧
      Searched (array.Holds tickSpacing) aToB (array.tickAt tickSpacing slot) found := by
  have hrange : array.inSearchRange tickSpacing (array.tickAt tickSpacing slot) (!aToB) = true := by
    obtain ⟨hlow, hhigh⟩ := tickAt_bounds array tickSpacing slot
    unfold inSearchRange
    refine decide_eq_true ?_
    cases aToB with
    | true =>
        change array.startTickIndex - 0 ≤ _ ∧
          _ < array.startTickIndex + 88 * tickSpacing - 0
        omega
    | false =>
        have hslot : slot.val ≤ 86 := Nat.le_of_lt_succ (h.resolve_left Bool.false_ne_true)
        have hle := (tickAt_le_iff array hspacing slot 86).mpr hslot
        change _ ≤ array.startTickIndex + 86 * tickSpacing at hle
        change array.startTickIndex - tickSpacing ≤ _ ∧
          _ < array.startTickIndex + 88 * tickSpacing - tickSpacing
        omega
  refine ⟨_, ?_, searched_of_stopsAt hspacing (stopsAt_nextInitSlot aToB tickArraySize _ ?_)⟩
  · unfold getNextInitTickIndex
    rw [if_pos hrange, (tickOffset_eq_some hspacing).mpr rfl]
  · have hlt := slot.isLt
    cases aToB with
    | true =>
        change (slot : Int) < tickArraySize ∧ tickArraySize ≤ tickArraySize
        omega
    | false =>
        change 0 ≤ (slot : Int) + 1 ∧ tickArraySize ≤ (slot : Int) + 1 + tickArraySize
        omega

/-- A tick from which an array is searched: on its grid and, selling B, not its last. -/
def Accepts (array : ParsedTickArray) (tickSpacing : Nat) (aToB : Bool) (t : Int) : Prop :=
  (t - array.startTickIndex) % tickSpacing = 0 ∧
    (aToB = false → t ≠ array.startTickIndex + 87 * tickSpacing)

theorem Accepts.slot {aToB : Bool} {t : Int} (h : array.Accepts tickSpacing aToB t)
    (hspacing : 0 < tickSpacing)
    (ht : array.startTickIndex ≤ t ∧ t < array.startTickIndex + 88 * tickSpacing) :
    ∃ slot : Fin tickArraySize, t = array.tickAt tickSpacing slot ∧
      (aToB = true ∨ slot.val < 87) := by
  obtain ⟨haligned, hlast⟩ := h
  obtain ⟨hlow, hhigh⟩ := ht
  have hpos : (0 : Int) < tickSpacing := Int.natCast_pos.mpr hspacing
  have hmul := Int.ediv_mul_cancel (Int.dvd_of_emod_eq_zero haligned)
  generalize (t - array.startTickIndex) / (tickSpacing : Int) = q at hmul
  have hq : 0 ≤ q := by
    by_contra hneg
    have hle := Int.mul_le_mul_of_nonneg_right (show q ≤ -1 by omega) hpos.le
    omega
  have hlt : q < 88 := by
    by_contra hge
    have hle := Int.mul_le_mul_of_nonneg_right (show 88 ≤ q by omega) hpos.le
    omega
  have hslot : q.toNat < tickArraySize := by
    change q.toNat < 88
    omega
  have htick : t = array.tickAt tickSpacing q.toNat := by
    unfold tickAt
    rw [Int.toNat_of_nonneg hq, hmul]
    omega
  refine ⟨⟨q.toNat, hslot⟩, htick, ?_⟩
  cases aToB with
  | true => exact .inl rfl
  | false =>
      refine .inr (lt_of_le_of_ne (by dsimp only; omega) fun heq => hlast rfl ?_)
      rw [htick, show q.toNat = 87 from heq]
      rfl

/-- Every other tick is refused. -/
theorem getNextInitTickIndex_error {aToB : Bool} {t : Int} (hspacing : 0 < tickSpacing)
    (h : ¬ array.Accepts tickSpacing aToB t) :
    array.getNextInitTickIndex tickSpacing t aToB = .error () := by
  unfold getNextInitTickIndex
  split
  case isFalse => rfl
  case isTrue hrange =>
      cases hoffset : array.tickOffset tickSpacing t with
      | none => rfl
      | some slot =>
          have htick := (tickOffset_eq_some hspacing).mp hoffset
          refine absurd ⟨?_, fun haToB heq => ?_⟩ h
          · rw [htick]
            unfold tickAt
            rw [add_sub_cancel_left]
            exact Int.mul_emod_left _ _
          · rw [haToB] at hrange
            unfold inSearchRange at hrange
            obtain ⟨-, hupper⟩ := of_decide_eq_true hrange
            change _ < array.startTickIndex + 88 * tickSpacing - tickSpacing at hupper
            omega

end ParsedTickArray

/-! ## 4. The search over the arrays -/

open ParsedTickArray (Holds holds_bounds searched_getNextInitTickIndex)

/-- An array and the next one in the direction of a swap. -/
def Follows (tickSpacing : Nat) (aToB : Bool) (array next : ParsedTickArray) : Prop :=
  next.startTickIndex =
    if aToB then array.startTickIndex - 88 * tickSpacing
    else array.startTickIndex + 88 * tickSpacing

/-- The last tick of the arrays in the direction of a swap. -/
def lastTick (tickSpacing : Nat) (aToB : Bool) (array : ParsedTickArray) : Int :=
  if aToB then array.startTickIndex else array.startTickIndex + 87 * tickSpacing

/-- The ticks at which a segment ends: the initialized ones and the last. -/
def Stops (tickSpacing : Nat) (aToB : Bool) (arr0 arr1 arr2 : ParsedTickArray) (t : Int) : Prop :=
  Holds arr0 tickSpacing t ∨ Holds arr1 tickSpacing t ∨ Holds arr2 tickSpacing t ∨
    t = lastTick tickSpacing aToB arr2

/-- The first tick of an array, which the search passes over when it enters it selling B. -/
def Skipped (aToB : Bool) (array : ParsedTickArray) (t : Int) : Prop :=
  aToB = false ∧ t = array.startTickIndex

/-- The ticks at which the search stops. -/
def Found (tickSpacing : Nat) (aToB : Bool) (arr0 arr1 arr2 : ParsedTickArray) (t : Int) : Prop :=
  Holds arr0 tickSpacing t ∨ (Holds arr1 tickSpacing t ∧ ¬ Skipped aToB arr1 t) ∨
    (Holds arr2 tickSpacing t ∧ ¬ Skipped aToB arr2 t) ∨ t = lastTick tickSpacing aToB arr2

section Search

variable {tickSpacing : Nat} {aToB : Bool} {array arr0 arr1 arr2 : ParsedTickArray} {t tick : Int}

/-- The tick from which the search enters an array. -/
def entry (tickSpacing : Nat) (aToB : Bool) (array : ParsedTickArray) : Int :=
  if aToB then array.startTickIndex + tickArraySize * tickSpacing - tickSpacing
  else array.startTickIndex

theorem ahead_entry (h : Holds array tickSpacing t) :
    Ahead aToB (entry tickSpacing aToB array) t ↔ ¬ Skipped aToB array t := by
  obtain ⟨hlow, hhigh⟩ := holds_bounds h
  unfold Ahead entry Skipped
  cases aToB with
  | true =>
      change t ≤ array.startTickIndex + 88 * tickSpacing - tickSpacing ↔ ¬ (true = false ∧ _)
      simp only [Bool.true_eq_false, false_and, not_false_eq_true, iff_true]
      omega
  | false =>
      change array.startTickIndex < t ↔ ¬ (false = false ∧ t = array.startTickIndex)
      constructor
      · intro hlt hskip
        exact absurd hskip.2 hlt.ne'
      · intro hskip
        exact lt_of_le_of_ne hlow fun heq => hskip ⟨rfl, heq.symm⟩

/-- It is a tick from which the array is searched. -/
theorem entry_eq (tickSpacing : Nat) (aToB : Bool) (array : ParsedTickArray) :
    ∃ slot : Fin tickArraySize, entry tickSpacing aToB array = array.tickAt tickSpacing slot ∧
      (aToB = true ∨ slot.val < 87) := by
  cases aToB with
  | true =>
      refine ⟨⟨87, by decide⟩, ?_, .inl rfl⟩
      change array.startTickIndex + 88 * tickSpacing - tickSpacing =
        array.startTickIndex + 87 * tickSpacing
      omega
  | false =>
      refine ⟨⟨0, by decide⟩, ?_, .inr (by decide)⟩
      change array.startTickIndex = array.startTickIndex + 0 * tickSpacing
      omega

/-- A tick between the first and the last of an array. -/
def Within (tickSpacing : Nat) (array : ParsedTickArray) (t : Int) : Prop :=
  array.startTickIndex ≤ t ∧ t ≤ array.startTickIndex + 87 * tickSpacing

theorem within_lastTick : Within tickSpacing array (lastTick tickSpacing aToB array) := by
  unfold Within lastTick
  cases aToB with
  | true =>
      change array.startTickIndex ≤ array.startTickIndex ∧ _ ≤ _
      omega
  | false =>
      change array.startTickIndex ≤ array.startTickIndex + 87 * tickSpacing ∧ _ ≤ _
      omega

theorem within_entry : Within tickSpacing array (entry tickSpacing aToB array) := by
  unfold Within entry
  cases aToB with
  | true =>
      change array.startTickIndex ≤ array.startTickIndex + 88 * tickSpacing - tickSpacing ∧
        array.startTickIndex + 88 * tickSpacing - tickSpacing ≤ _
      omega
  | false =>
      change array.startTickIndex ≤ array.startTickIndex ∧ array.startTickIndex ≤ _
      omega

theorem ahead_lastTick (hspacing : 0 < tickSpacing) (slot : Fin tickArraySize)
    (hslot : aToB = true ∨ slot.val < 87) :
    Ahead aToB (array.tickAt tickSpacing slot) (lastTick tickSpacing aToB array) := by
  have hbounds := ParsedTickArray.tickAt_bounds array tickSpacing slot
  cases aToB with
  | true => exact hbounds.1
  | false =>
      have hle := (ParsedTickArray.tickAt_le_iff array hspacing slot 86).mpr
        (Nat.le_of_lt_succ (hslot.resolve_left Bool.false_ne_true))
      change _ ≤ array.startTickIndex + 86 * tickSpacing at hle
      change _ < array.startTickIndex + 87 * tickSpacing
      omega

theorem noFarther_refl (t : Int) : NoFarther aToB t t := by
  cases aToB with
  | true => exact le_refl t
  | false => exact le_refl t

theorem noFarther_of_ahead (h : Ahead aToB tick t) : NoFarther aToB tick t := by
  cases aToB with
  | true => exact h
  | false => exact le_of_lt h

theorem Ahead.trans {t' : Int} (h : Ahead aToB tick t) (h' : Ahead aToB t t') :
    Ahead aToB tick t' := by
  cases aToB with
  | true => exact le_trans h' h
  | false => exact lt_trans h h'

/-- The ticks of the next array are ahead. -/
theorem Follows.ahead (h : Follows tickSpacing aToB arr0 arr1) (hspacing : 0 < tickSpacing)
    (ht : Within tickSpacing arr0 tick) (ht' : Within tickSpacing arr1 t) :
    Ahead aToB tick t := by
  obtain ⟨hlow, hhigh⟩ := ht
  obtain ⟨hlow', hhigh'⟩ := ht'
  cases aToB with
  | true =>
      change arr1.startTickIndex = arr0.startTickIndex - 88 * tickSpacing at h
      change t ≤ tick
      omega
  | false =>
      change arr1.startTickIndex = arr0.startTickIndex + 88 * tickSpacing at h
      change tick < t
      omega

/-- The ticks of the next array are not in this one. -/
theorem Follows.getTick_eq_none (h : Follows tickSpacing aToB arr0 arr1)
    (hspacing : 0 < tickSpacing) (ht : Within tickSpacing arr1 t) :
    arr0.getTick tickSpacing t = none := by
  obtain ⟨hlow, hhigh⟩ := ht
  refine ParsedTickArray.getTick_eq_none hspacing ?_
  cases aToB with
  | true =>
      change arr1.startTickIndex = arr0.startTickIndex - 88 * tickSpacing at h
      omega
  | false =>
      change arr1.startTickIndex = arr0.startTickIndex + 88 * tickSpacing at h
      omega

variable (h1 : Follows tickSpacing aToB arr0 arr1) (h2 : Follows tickSpacing aToB arr1 arr2)
  (hspacing : 0 < tickSpacing)
include h1 h2 hspacing

/-- Nor are those of the array behind it. -/
theorem getTick_third_eq_none (ht : Within tickSpacing arr2 t) :
    arr0.getTick tickSpacing t = none := by
  obtain ⟨hlow, hhigh⟩ := ht
  refine ParsedTickArray.getTick_eq_none hspacing ?_
  cases aToB with
  | true =>
      change arr1.startTickIndex = arr0.startTickIndex - 88 * tickSpacing at h1
      change arr2.startTickIndex = arr1.startTickIndex - 88 * tickSpacing at h2
      omega
  | false =>
      change arr1.startTickIndex = arr0.startTickIndex + 88 * tickSpacing at h1
      change arr2.startTickIndex = arr1.startTickIndex + 88 * tickSpacing at h2
      omega

end Search

section Search

variable {tickSpacing : Nat} {aToB : Bool} {array next : ParsedTickArray}
  {rest : List ParsedTickArray} {tick t : Int}

theorem getNextInitializedTickIndex_some
    (h : array.getNextInitTickIndex tickSpacing tick aToB = .ok (some t)) (i : Nat) :
    getNextInitializedTickIndex tickSpacing aToB i tick (array :: rest) = .ok (i, t) := by
  unfold getNextInitializedTickIndex
  rw [h]
  rfl

theorem getNextInitializedTickIndex_none
    (h : array.getNextInitTickIndex tickSpacing tick aToB = .ok none) (i : Nat) :
    getNextInitializedTickIndex tickSpacing aToB i tick (array :: next :: rest) =
      getNextInitializedTickIndex tickSpacing aToB (i + 1) (entry tickSpacing aToB next)
        (next :: rest) := by
  conv_lhs => unfold getNextInitializedTickIndex
  rw [h]
  rfl

theorem getNextInitializedTickIndex_last
    (h : array.getNextInitTickIndex tickSpacing tick aToB = .ok none) (i : Nat) :
    getNextInitializedTickIndex tickSpacing aToB i tick [array] =
      .ok (i, lastTick tickSpacing aToB array) := by
  have hlast : lastTick tickSpacing aToB array =
      if aToB then array.startTickIndex
      else array.startTickIndex + tickArraySize * tickSpacing - tickSpacing := by
    cases aToB with
    | true => rfl
    | false =>
        change array.startTickIndex + 87 * tickSpacing =
          array.startTickIndex + 88 * tickSpacing - tickSpacing
        omega
  unfold getNextInitializedTickIndex
  rw [h, hlast]
  rfl

/-- The last tick is a slot of its array. -/
theorem lastTick_eq (tickSpacing : Nat) (aToB : Bool) (array : ParsedTickArray) :
    ∃ slot : Fin tickArraySize,
      lastTick tickSpacing aToB array = array.tickAt tickSpacing slot := by
  cases aToB with
  | true =>
      refine ⟨⟨0, by decide⟩, ?_⟩
      change array.startTickIndex = array.startTickIndex + 0 * tickSpacing
      omega
  | false => exact ⟨⟨87, by decide⟩, rfl⟩

/-- Arrays one after the other in the direction of a swap. -/
def Consecutive (tickSpacing : Nat) (aToB : Bool) : ParsedTickArray → List ParsedTickArray → Prop
  | _, [] => True
  | array, next :: rest =>
      Follows tickSpacing aToB array next ∧ Consecutive tickSpacing aToB next rest

/-- The last of some arrays. -/
def lastArray : ParsedTickArray → List ParsedTickArray → ParsedTickArray
  | array, [] => array
  | _, next :: rest => lastArray next rest

/-- The ticks at which the search stops in an array and those behind it. -/
def FoundFrom (tickSpacing : Nat) (aToB : Bool) (array : ParsedTickArray)
    (rest : List ParsedTickArray) (t : Int) : Prop :=
  Holds array tickSpacing t ∨
    (∃ later ∈ rest, Holds later tickSpacing t ∧ ¬ Skipped aToB later t) ∨
    t = lastTick tickSpacing aToB (lastArray array rest)

theorem foundFrom_iff {arr0 arr1 arr2 : ParsedTickArray} (t : Int) :
    FoundFrom tickSpacing aToB arr0 [arr1, arr2] t ↔ Found tickSpacing aToB arr0 arr1 arr2 t := by
  unfold FoundFrom Found
  rw [List.exists_mem_cons_iff, List.exists_mem_cons_iff, or_assoc, or_assoc]
  have hnil : ¬ ∃ later ∈ ([] : List ParsedTickArray), Holds later tickSpacing t ∧
      ¬ Skipped aToB later t := fun ⟨later, hlater, _⟩ => List.not_mem_nil hlater
  rw [or_iff_right hnil]
  rfl

/-- The ticks of every later array are ahead. -/
theorem Consecutive.ahead (h : Consecutive tickSpacing aToB array rest)
    (hspacing : 0 < tickSpacing) (htick : Within tickSpacing array tick) {later : ParsedTickArray}
    (hlater : later ∈ rest) (ht : Within tickSpacing later t) : Ahead aToB tick t := by
  induction rest generalizing array tick with
  | nil => cases hlater
  | cons next rest ih =>
      obtain ⟨hfollows, hrest⟩ := h
      obtain rfl | hlater := List.mem_cons.mp hlater
      · exact hfollows.ahead hspacing htick ht
      · have hlast : Within tickSpacing next (lastTick tickSpacing aToB next) := within_lastTick
        exact (hfollows.ahead hspacing htick hlast).trans (ih hrest hlast hlater)

theorem lastArray_mem (next : ParsedTickArray) (rest : List ParsedTickArray) :
    lastArray next rest ∈ next :: rest := by
  induction rest generalizing next with
  | nil => exact List.mem_cons_self
  | cons array rest ih => exact List.mem_cons_of_mem _ (ih array)

/-- No tick at which the search stops is nearer than one of the array. -/
theorem Consecutive.nextTick_self (h : Consecutive tickSpacing aToB array rest)
    (hspacing : 0 < tickSpacing) (hnext : NextTick (Holds array tickSpacing) aToB tick t) :
    NextTick (FoundFrom tickSpacing aToB array rest) aToB tick t where
  stop := .inl hnext.stop
  ahead := hnext.ahead
  nearest := by
    have ht := holds_bounds hnext.stop
    rintro t' (hholds | ⟨later, hlater, hholds, -⟩ | rfl) hahead
    · exact hnext.nearest t' hholds hahead
    · exact noFarther_of_ahead (h.ahead hspacing ht hlater (holds_bounds hholds))
    · cases rest with
      | nil =>
          cases aToB with
          | true => exact ht.1
          | false => exact ht.2
      | cons next rest =>
          exact noFarther_of_ahead
            (h.ahead hspacing ht (lastArray_mem next rest) within_lastTick)

/-- With none ahead in the array, it is the next tick behind its entry to the next array. -/
theorem Consecutive.nextTick_later (h : Consecutive tickSpacing aToB array (next :: rest))
    (hspacing : 0 < tickSpacing) (htick : Within tickSpacing array tick)
    (hnone : Searched (Holds array tickSpacing) aToB tick none)
    {later : ParsedTickArray} (hlater : later ∈ next :: rest) (ht : Within tickSpacing later t)
    (hnext : NextTick (FoundFrom tickSpacing aToB next rest) aToB (entry tickSpacing aToB next) t) :
    NextTick (FoundFrom tickSpacing aToB array (next :: rest)) aToB tick t where
  stop := by
    obtain hholds | ⟨later, hlater, hfound⟩ | hlast := hnext.stop
    · exact .inr (.inl ⟨next, List.mem_cons_self, hholds, (ahead_entry hholds).mp hnext.ahead⟩)
    · exact .inr (.inl ⟨later, List.mem_cons_of_mem _ hlater, hfound⟩)
    · exact .inr (.inr hlast)
  ahead := h.ahead hspacing htick hlater ht
  nearest := by
    have hentry : Within tickSpacing next (entry tickSpacing aToB next) := within_entry
    rintro t' (hholds | ⟨later', hlater', hholds, hskip⟩ | hlast) hahead
    · exact absurd hahead (hnone t' hholds)
    · obtain rfl | hlater' := List.mem_cons.mp hlater'
      · exact hnext.nearest t' (.inl hholds) ((ahead_entry hholds).mpr hskip)
      · exact hnext.nearest t' (.inr (.inl ⟨later', hlater', hholds, hskip⟩))
          (h.2.ahead hspacing hentry hlater' (holds_bounds hholds))
    · refine hnext.nearest t' (.inr (.inr hlast)) ?_
      rw [hlast]
      cases rest with
      | nil =>
          obtain ⟨slot, heq, hslot⟩ := entry_eq tickSpacing aToB next
          rw [heq]
          exact ahead_lastTick hspacing slot hslot
      | cons array rest =>
          exact h.2.ahead hspacing hentry (lastArray_mem array rest) within_lastTick

/-- **The search over some arrays** from a tick of the first: it finds the next tick at which it
    stops, in the array it names. -/
theorem getNextInitializedTickIndex_finds (h : Consecutive tickSpacing aToB array rest)
    (hspacing : 0 < tickSpacing) (slot : Fin tickArraySize)
    (hslot : aToB = true ∨ slot.val < 87) (i : Nat) :
    ∃ j next, getNextInitializedTickIndex tickSpacing aToB i (array.tickAt tickSpacing slot)
        (array :: rest) = .ok (i + j, next) ∧
      NextTick (FoundFrom tickSpacing aToB array rest) aToB (array.tickAt tickSpacing slot) next ∧
      ∃ named, (array :: rest)[j]? = some named ∧
        ∃ slot' : Fin tickArraySize, next = named.tickAt tickSpacing slot' := by
  induction rest generalizing array slot i with
  | nil =>
      obtain ⟨found, heq, hsearched⟩ := searched_getNextInitTickIndex hspacing slot hslot
      cases found with
      | some next =>
          obtain ⟨slot', -, hslot'⟩ := hsearched.stop
          exact ⟨0, next, getNextInitializedTickIndex_some heq i,
            h.nextTick_self hspacing hsearched, array, rfl, slot', hslot'⟩
      | none =>
          obtain ⟨slot', hslot'⟩ := lastTick_eq tickSpacing aToB array
          refine ⟨0, lastTick tickSpacing aToB array, getNextInitializedTickIndex_last heq i,
            ⟨.inr (.inr rfl), ahead_lastTick hspacing slot hslot, ?_⟩, array, rfl, slot', hslot'⟩
          · rintro t (hholds | ⟨later, hlater, -⟩ | rfl) hahead
            · exact absurd hahead (hsearched t hholds)
            · cases hlater
            · exact noFarther_refl _
  | cons next rest ih =>
      obtain ⟨found, heq, hsearched⟩ := searched_getNextInitTickIndex hspacing slot hslot
      cases found with
      | some t =>
          obtain ⟨slot', -, hslot'⟩ := hsearched.stop
          exact ⟨0, t, getNextInitializedTickIndex_some heq i,
            h.nextTick_self hspacing hsearched, array, rfl, slot', hslot'⟩
      | none =>
          have htick := ParsedTickArray.tickAt_bounds array tickSpacing slot
          obtain ⟨slotE, hentry, hslotE⟩ := entry_eq tickSpacing aToB next
          obtain ⟨j, t, hfound, hnext, named, hnamed, slot', hslot'⟩ :=
            ih h.2 slotE hslotE (i + 1)
          have hwithin : Within tickSpacing named t := by
            rw [hslot']
            exact ParsedTickArray.tickAt_bounds named tickSpacing slot'
          rw [← hentry] at hfound hnext
          refine ⟨j + 1, t, ?_, h.nextTick_later hspacing htick hsearched
            (List.mem_of_getElem? hnamed) hwithin hnext, named, hnamed, slot', hslot'⟩
          rw [getNextInitializedTickIndex_none heq, hfound, Nat.add_right_comm]
          rfl

end Search

/-! ## 5. The walk ends with its first segment -/

section Walk

variable {checks : Bool} {pool : OrcaWhirlpoolQuoteInput} {aToB : Bool}
  {arrays : List ParsedTickArray} {s : SwapState}

theorem checkedSub_ok {a b c : Nat} (h : checkedSub a b = .ok c) : b ≤ a ∧ c = a - b := by
  unfold checkedSub at h
  split at h
  case isTrue hle =>
      cases h
      exact ⟨hle, rfl⟩
  case isFalse => cases h

/-- **A segment reaches its target or uses up the input.** -/
theorem priceSegment_ends {next : Int} {segment : Segment}
    (h : priceSegment checks pool aToB s next = .ok segment) :
    segment.amountRemaining = 0 ∨ segment.nextPrice = segment.sqrtPriceTarget := by
  unfold priceSegment at h
  obtain ⟨⟨nextTickSqrtPrice, sqrtPriceTarget⟩, -, h⟩ := bind_ok h
  obtain ⟨swap, hswap, h⟩ := bind_ok h
  obtain ⟨afterInput, hinput, h⟩ := bind_ok h
  obtain ⟨amountRemaining, hremaining, h⟩ := bind_ok h
  obtain ⟨amountCalculated, -, h⟩ := bind_ok h
  cases h
  obtain htarget | hfee := computeSwap_ends hswap
  · exact .inr htarget
  · refine .inl ?_
    obtain ⟨hle, rfl⟩ := checkedSub_ok hinput
    obtain ⟨-, rfl⟩ := checkedSub_ok hremaining
    unfold subU64 at hfee
    rw [if_pos hle] at hfee
    have hleft : s.amountRemaining - swap.amountIn = swap.feeAmount := Except.ok.inj hfee
    change s.amountRemaining - swap.amountIn - swap.feeAmount = 0
    omega

theorem walkStep_ends {i i' : Nat} {s' : SwapState} {stop : Bool}
    (h : walkStep checks pool aToB arrays s i = .ok (s', i', stop)) : stop = true := by
  unfold walkStep at h
  obtain ⟨⟨nextArrayIndex, nextTickIndex⟩, -, h⟩ := bind_ok h
  obtain ⟨segment, hsegment, h⟩ := bind_ok h
  have hends := priceSegment_ends hsegment
  dsimp only at h
  split at h
  case isTrue =>
      obtain ⟨liquidity, -, h⟩ := bind_ok h
      cases h
      exact decide_eq_true hends
  case isFalse =>
      cases h
      exact decide_eq_true hends

/-- **The loop makes one pass**: no quote gets behind its first segment. -/
theorem walk_eq (passes i : Nat) :
    walk checks pool aToB arrays (passes + 1) s i =
      if 0 < s.amountRemaining ∧ sqrtPriceLimit aToB ≠ s.currSqrtPrice then
        (walkStep checks pool aToB arrays s i).map Prod.fst
      else .ok s := by
  unfold walk
  split
  case isTrue =>
      cases hstep : walkStep checks pool aToB arrays s i with
      | error e => rfl
      | ok result =>
          obtain ⟨s', i', stop⟩ := result
          cases walkStep_ends hstep
          rfl
  case isFalse => rfl

end Walk

end IronCrab.Solana.Whirlpool

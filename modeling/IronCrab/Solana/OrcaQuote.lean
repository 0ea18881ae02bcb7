/-
  File:      IronCrab/Solana/OrcaQuote.lean
  Subject:   THE QUOTE AGAINST THE SWAP LOOP OF A WHIRLPOOL (src/solana/dex/orca_tick_walker.rs).

  The reference goes from tick to tick and crosses each it reaches; the walk breaks with its first
  segment.

  * `Spends` -- the reference: the whole input is used up inside the three arrays;
  * `QuoteRequest` -- a quote with its pool and its loaded arrays;
  * `firstSegment_quoted` -- the walk is the first segment, to the tick that the search finds;
  * **`quote_agrees_iff`** -- when the quote is the reference's;
  * `crossing_disagrees` -- one crossed tick is enough to lose it.
-/
import IronCrab.Solana.OrcaTickWalker
import Mathlib.Tactic.Ring

namespace IronCrab.Solana.Whirlpool

open Track (Pubkey TextCodec)
open ParsedTickArray (Holds holds_bounds)

/-! ## 1. The reference loop -/

/-- The tick of an index in some arrays. -/
def tickOf (tickSpacing : Nat) (arrays : List ParsedTickArray) (t : Int) : Option ParsedTick :=
  arrays.findSome? fun array => array.getTick tickSpacing t

/-- The net liquidity at a tick: none where it is not initialized. -/
def netAt : Option ParsedTick → Int
  | some tick => if tick.initialized then tick.liquidityNet else 0
  | none => 0

/-- A swap behind a segment, with the liquidity of the tick where the segment reaches it. -/
def crossTo (aToB : Bool) (s : SwapState) (next : Int) (segment : Segment)
    (crossed : Checked Nat) : Checked SwapState :=
  if segment.nextPrice = segment.nextTickSqrtPrice then
    crossed >>= fun liquidity =>
      .ok ⟨segment.amountRemaining, segment.amountCalculated, segment.nextPrice,
        if aToB then next - 1 else next, liquidity⟩
  else
    .ok ⟨segment.amountRemaining, segment.amountCalculated, segment.nextPrice, s.currTickIndex,
      s.currLiquidity⟩

/-- **The reference loop**: from a swap, segment by segment, the whole input is used up and so much
    is paid. -/
inductive Spends (checks : Bool) (pool : OrcaWhirlpoolQuoteInput) (aToB : Bool)
    (arr0 arr1 arr2 : ParsedTickArray) : SwapState → Nat → Prop
  | used {s : SwapState} (h : s.amountRemaining = 0) :
      Spends checks pool aToB arr0 arr1 arr2 s s.amountCalculated
  | segment {s s' : SwapState} {next : Int} {segment : Segment} {out : Nat}
      (hremaining : 0 < s.amountRemaining) (hlimit : sqrtPriceLimit aToB ≠ s.currSqrtPrice)
      (hnext : NextTick (Stops pool.tickSpacing.toNat aToB arr0 arr1 arr2) aToB s.currTickIndex
        next)
      (hsegment : priceSegment checks pool aToB s next = .ok segment)
      (hcross : crossTo aToB s next segment
        (raise (addLiquidityDelta s.currLiquidity
          (if aToB then -netAt (tickOf pool.tickSpacing.toNat [arr0, arr1, arr2] next)
          else netAt (tickOf pool.tickSpacing.toNat [arr0, arr1, arr2] next)))) = .ok s')
      (h : Spends checks pool aToB arr0 arr1 arr2 s' out) :
      Spends checks pool aToB arr0 arr1 arr2 s out

/-- The reference pays one amount. -/
theorem Spends.unique {checks : Bool} {pool : OrcaWhirlpoolQuoteInput} {aToB : Bool}
    {arr0 arr1 arr2 : ParsedTickArray} {s : SwapState} {out out' : Nat}
    (h : Spends checks pool aToB arr0 arr1 arr2 s out)
    (h' : Spends checks pool aToB arr0 arr1 arr2 s out') : out = out' := by
  induction h with
  | used h =>
      cases h' with
      | used => rfl
      | segment hremaining => exact absurd h hremaining.ne'
  | segment hremaining hlimit hnext hsegment hcross _ ih =>
      cases h' with
      | used h => exact absurd h hremaining.ne'
      | segment hremaining' hlimit' hnext' hsegment' hcross' h' =>
          cases hnext.unique hnext'
          cases Except.ok.inj (hsegment.symm.trans hsegment')
          cases Except.ok.inj (hcross.symm.trans hcross')
          exact ih h'

/-! ## 2. Requests -/

/-- The price of a pool lies between its tick and the next; the last tick has only its own. -/
structure OrcaWhirlpoolQuoteInput.InTickInterval (pool : OrcaWhirlpoolQuoteInput) : Prop where
  tick : -443636 ≤ pool.tickCurrentIndex ∧ pool.tickCurrentIndex ≤ 443636
  price : minSqrtPriceX64 ≤ pool.sqrtPrice ∧ pool.sqrtPrice ≤ maxSqrtPriceX64
  lower : ∃ lower, sqrtPriceFromTickIndex pool.tickCurrentIndex = .ok lower ∧
    lower ≤ pool.sqrtPrice
  upper : pool.tickCurrentIndex < 443636 →
    ∃ upper, sqrtPriceFromTickIndex (pool.tickCurrentIndex + 1) = .ok upper ∧
      pool.sqrtPrice ≤ upper

/-- An array is loaded under its start and belongs to the pool. -/
structure Loaded (pool : OrcaWhirlpoolQuoteInput) (ticks : OrcaTickArrays) (start : Int)
    (array : ParsedTickArray) : Prop where
  lookup : ticks.lookup start = some array
  start : array.startTickIndex = start
  whirlpool : array.whirlpool = pool.pool

/-- **A quote that is asked for**: a pool with liquidity and a price in its tick interval, an input,
    and the three arrays of the swap direction. -/
structure QuoteRequest where
  pool : OrcaWhirlpoolQuoteInput
  ticks : OrcaTickArrays
  mintIn : String
  mintOut : String
  amountIn : UInt64
  aToB : Bool
  arr0 : ParsedTickArray
  arr1 : ParsedTickArray
  arr2 : ParsedTickArray
  direction : resolveAToB pool mintIn mintOut = some aToB
  liquidity : 0 < pool.liquidity ∧ pool.liquidity < 2 ^ 128
  spacing : 0 < pool.tickSpacing.toNat
  amount : 0 < amountIn.toNat
  inInterval : pool.InTickInterval
  loaded0 : Loaded pool ticks (swapDirectionTickArrayStarts pool.tickCurrentIndex
    pool.tickSpacing.toNat aToB).1 arr0
  loaded1 : Loaded pool ticks (swapDirectionTickArrayStarts pool.tickCurrentIndex
    pool.tickSpacing.toNat aToB).2.1 arr1
  loaded2 : Loaded pool ticks (swapDirectionTickArrayStarts pool.tickCurrentIndex
    pool.tickSpacing.toNat aToB).2.2 arr2

namespace QuoteRequest

variable (checks : Bool) (r : QuoteRequest)

/-- The spacing of the ticks. -/
def tickSpacing : Nat := r.pool.tickSpacing.toNat

/-- What the code quotes. -/
def quoted : Quoted :=
  orcaQuoteExactIn checks r.pool r.ticks r.mintIn r.mintOut r.amountIn

/-- The reference uses up the input and pays so much. -/
def Pays (out : Nat) : Prop :=
  Spends checks r.pool r.aToB r.arr0 r.arr1 r.arr2 (r.pool.start r.amountIn) out

/-- **The quote is the reference's**: no panic, and an amount exactly where the reference pays
    it. -/
def Agrees : Prop :=
  ∃ quote, r.quoted checks = .returned quote ∧
    ∀ out, quote = some out ↔ r.Pays checks out ∧ 0 < out

/-! ## 3. The first segment -/

/-- The search accepts the tick of the pool: a multiple of the spacing and, selling B, not the last
    of its array. -/
def Searchable : Prop :=
  r.pool.tickCurrentIndex % r.tickSpacing = 0 ∧
    (r.aToB = false → r.pool.tickCurrentIndex ≠ r.arr0.startTickIndex + 87 * r.tickSpacing)

/-- The tick that the search finds. -/
def Finds (next : Int) : Prop :=
  NextTick (Found r.tickSpacing r.aToB r.arr0 r.arr1 r.arr2) r.aToB r.pool.tickCurrentIndex next

/-- The swap behind its segment up to a tick. -/
def segmentTo (next : Int) : Checked SwapState :=
  priceSegment checks r.pool r.aToB (r.pool.start r.amountIn) next >>= fun segment =>
    crossTo r.aToB (r.pool.start r.amountIn) next segment
      (crossedLiquidity checks r.aToB r.pool.liquidity
        (tickOf r.tickSpacing [r.arr0, r.arr1, r.arr2] next))

/-- **The first segment** of a swap that can start: up to the tick that the search finds. -/
def FirstSegment (next : Int) (result : Checked SwapState) : Prop :=
  r.Searchable ∧ sqrtPriceLimit r.aToB ≠ r.pool.sqrtPrice ∧ r.Finds next ∧
    r.segmentTo checks next = result

/-- It uses up the input and pays so much. -/
def FirstSegmentPays (next : Int) (out : Nat) : Prop :=
  ∃ s, r.FirstSegment checks next (.ok s) ∧ s.amountRemaining = 0 ∧ s.amountCalculated = out ∧
    0 < out

/-- Before a tick lies the first tick of a later array, initialized, which the search skips. -/
def PassesOver (next : Int) : Prop :=
  r.aToB = false ∧ ∃ array ∈ [r.arr1, r.arr2],
    Holds array r.tickSpacing array.startTickIndex ∧ array.startTickIndex < next

/-- The net liquidity of a tick is the `i128` that has no negation, and the swap negates it. -/
def NegatesLeast (next : Int) : Prop :=
  r.aToB = true ∧ netAt (tickOf r.tickSpacing [r.arr0, r.arr1, r.arr2] next) = -2 ^ 127

variable {checks} {r}

theorem spacing_pos : 0 < r.tickSpacing := r.spacing

theorem follows_second : Follows r.tickSpacing r.aToB r.arr0 r.arr1 := by
  have h0 := r.loaded0.start
  have h1 := r.loaded1.start
  unfold swapDirectionTickArrayStarts at h0 h1
  unfold Follows tickSpacing
  cases haToB : r.aToB with
  | true =>
      rw [haToB] at h0 h1
      change r.arr0.startTickIndex = getTickArrayStartIndex _ _ at h0
      change r.arr1.startTickIndex = getTickArrayStartIndex _ _ - _ * 88 at h1
      change r.arr1.startTickIndex = r.arr0.startTickIndex - 88 * _
      omega
  | false =>
      rw [haToB] at h0 h1
      change r.arr0.startTickIndex = getTickArrayStartIndex _ _ at h0
      change r.arr1.startTickIndex = getTickArrayStartIndex _ _ + _ * 88 at h1
      change r.arr1.startTickIndex = r.arr0.startTickIndex + 88 * _
      omega

theorem follows_third : Follows r.tickSpacing r.aToB r.arr1 r.arr2 := by
  have h1 := r.loaded1.start
  have h2 := r.loaded2.start
  unfold swapDirectionTickArrayStarts at h1 h2
  unfold Follows tickSpacing
  cases haToB : r.aToB with
  | true =>
      rw [haToB] at h1 h2
      change r.arr1.startTickIndex = getTickArrayStartIndex _ _ - _ * 88 at h1
      change r.arr2.startTickIndex = getTickArrayStartIndex _ _ - _ * 88 - _ * 88 at h2
      change r.arr2.startTickIndex = r.arr1.startTickIndex - 88 * _
      omega
  | false =>
      rw [haToB] at h1 h2
      change r.arr1.startTickIndex = getTickArrayStartIndex _ _ + _ * 88 at h1
      change r.arr2.startTickIndex = getTickArrayStartIndex _ _ + _ * 88 + _ * 88 at h2
      change r.arr2.startTickIndex = r.arr1.startTickIndex + 88 * _
      omega

theorem consecutive : Consecutive r.tickSpacing r.aToB r.arr0 [r.arr1, r.arr2] :=
  ⟨follows_second, follows_third, trivial⟩

theorem start_eq : r.arr0.startTickIndex =
    r.pool.tickCurrentIndex / r.tickSpacing / 88 * r.tickSpacing * 88 := by
  have h0 := r.loaded0.start
  unfold swapDirectionTickArrayStarts at h0
  cases haToB : r.aToB with
  | true =>
      rw [haToB] at h0
      exact h0
  | false =>
      rw [haToB] at h0
      exact h0

/-- The tick of the pool lies in the first array. -/
theorem tick_in_first : r.arr0.startTickIndex ≤ r.pool.tickCurrentIndex ∧
    r.pool.tickCurrentIndex < r.arr0.startTickIndex + 88 * r.tickSpacing := by
  have hpos : (0 : Int) < r.tickSpacing := Int.natCast_pos.mpr spacing_pos
  rw [start_eq]
  generalize hq : r.pool.tickCurrentIndex / (r.tickSpacing : Int) = q
  have hmul := Int.mul_ediv_add_emod r.pool.tickCurrentIndex r.tickSpacing
  have hmod := Int.emod_nonneg r.pool.tickCurrentIndex hpos.ne'
  have hlt := Int.emod_lt_of_pos r.pool.tickCurrentIndex hpos
  have hle : q / 88 * 88 * r.tickSpacing ≤ q * r.tickSpacing :=
    Int.mul_le_mul_of_nonneg_right (by omega) hpos.le
  have hlt' : (q + 1) * r.tickSpacing ≤ (q / 88 * 88 + 88) * r.tickSpacing :=
    Int.mul_le_mul_of_nonneg_right (by omega) hpos.le
  rw [hq, Int.mul_comm] at hmul
  rw [Int.add_mul, Int.one_mul, Int.add_mul] at hlt'
  have hcomm : q / 88 * r.tickSpacing * 88 = q / 88 * 88 * r.tickSpacing := by ring
  rw [hcomm]
  omega

theorem searchable_iff :
    r.Searchable ↔ r.arr0.Accepts r.tickSpacing r.aToB r.pool.tickCurrentIndex := by
  have hgrid : (r.tickSpacing : Int) ∣ r.arr0.startTickIndex := by
    rw [start_eq]
    exact dvd_mul_of_dvd_left (dvd_mul_left _ _) _
  unfold Searchable ParsedTickArray.Accepts
  rw [Int.sub_emod, Int.emod_eq_zero_of_dvd hgrid, Int.sub_zero, Int.emod_emod]

/-- A tick that the search accepts is a slot of the first array. -/
theorem Searchable.slot (h : r.Searchable) :
    ∃ slot : Fin tickArraySize,
      r.pool.tickCurrentIndex = r.arr0.tickAt r.tickSpacing slot ∧
        (r.aToB = true ∨ slot.val < 87) :=
  (searchable_iff.mp h).slot spacing_pos tick_in_first

/-- The array that the search names has the tick, and no array before it. -/
theorem getTick_eq_tickOf {i : Nat} {array : ParsedTickArray}
    (hi : [r.arr0, r.arr1, r.arr2][i]? = some array) (slot : Fin tickArraySize) :
    tickOf r.tickSpacing [r.arr0, r.arr1, r.arr2] (array.tickAt r.tickSpacing slot) =
      ([r.arr0, r.arr1, r.arr2][i]?).bind fun named =>
        named.getTick r.tickSpacing (array.tickAt r.tickSpacing slot) := by
  have hself : array.getTick r.tickSpacing (array.tickAt r.tickSpacing slot) =
      some (array.ticks slot) := ParsedTickArray.getTick_tickAt spacing_pos slot
  have hwithin : Within r.tickSpacing array (array.tickAt r.tickSpacing slot) :=
    ParsedTickArray.tickAt_bounds array r.tickSpacing slot
  rw [hi, Option.bind_some]
  unfold tickOf
  match i, hi with
  | 0, rfl => rw [List.findSome?_cons, hself]
  | 1, rfl =>
      rw [List.findSome?_cons, follows_second.getTick_eq_none spacing_pos hwithin,
        List.findSome?_cons, hself]
  | 2, rfl =>
      have hfirst : r.arr0.getTick r.tickSpacing _ = none :=
        getTick_third_eq_none follows_second follows_third spacing_pos hwithin
      rw [List.findSome?_cons, hfirst, List.findSome?_cons,
        follows_third.getTick_eq_none spacing_pos hwithin, List.findSome?_cons, hself]

/-- **The search from a tick that it accepts.** -/
theorem Searchable.finds (h : r.Searchable) :
    ∃ i next, searchNext r.pool r.aToB [r.arr0, r.arr1, r.arr2] (r.pool.start r.amountIn) 0 =
        .ok (i, next) ∧ r.Finds next ∧
      tickOf r.tickSpacing [r.arr0, r.arr1, r.arr2] next =
        ([r.arr0, r.arr1, r.arr2][i]?).bind fun named => named.getTick r.tickSpacing next := by
  obtain ⟨slot, htick, hslot⟩ := h.slot
  obtain ⟨i, next, hfound, hnext, array, hi, slot', rfl⟩ := getNextInitializedTickIndex_finds
    consecutive spacing_pos slot hslot 0
  rw [Nat.zero_add] at hfound
  refine ⟨i, array.tickAt r.tickSpacing slot', ?_, ?_, getTick_eq_tickOf hi slot'⟩
  · apply searchNext_ok
    show getNextInitializedTickIndex r.tickSpacing r.aToB 0 r.pool.tickCurrentIndex
      [r.arr0, r.arr1, r.arr2] = _
    rw [htick, hfound]
  · unfold Finds
    rw [htick]
    exact hnext.congr foundFrom_iff

/-- What the walk makes of its first swap. -/
def finish (s : SwapState) : Checked Nat :=
  if s.amountRemaining > 0 then .error (.error .tokenMaxExceeded) else .ok s.amountCalculated

/-- The code asks for one pass of the loop. -/
theorem quoted_eq : r.quoted checks = .ofWalk
    ((if sqrtPriceLimit r.aToB ≠ r.pool.sqrtPrice then
      (walkStep checks r.pool r.aToB [r.arr0, r.arr1, r.arr2] (r.pool.start r.amountIn) 0).map
        Prod.fst
      else .ok (r.pool.start r.amountIn)) >>= finish) := by
  have hprice : r.pool.sqrtPrice ≠ 0 := by
    have hmin := r.inInterval.price.1
    unfold minSqrtPriceX64 at hmin
    omega
  have hamount : r.amountIn ≠ 0 := by
    intro h0
    have hpos := r.amount
    rw [h0] at hpos
    exact absurd hpos (by decide)
  have hasked : ¬ (r.pool.sqrtPrice = 0 ∨ r.pool.liquidity = 0 ∨ r.amountIn = 0) := by
    rintro (h | h | h)
    · exact hprice h
    · exact r.liquidity.1.ne' h
    · exact hamount h
  have hstarted : 0 < (r.pool.start r.amountIn).amountRemaining := r.amount
  have hwhirlpool : ¬ (r.arr0.whirlpool ≠ r.pool.pool ∨ r.arr1.whirlpool ≠ r.pool.pool ∨
      r.arr2.whirlpool ≠ r.pool.pool) := by
    rintro (h | h | h)
    · exact h r.loaded0.whirlpool
    · exact h r.loaded1.whirlpool
    · exact h r.loaded2.whirlpool
  unfold quoted orcaQuoteExactIn
  rw [if_neg hasked, r.direction]
  dsimp only
  rw [r.loaded0.lookup, r.loaded1.lookup, r.loaded2.lookup]
  dsimp only
  rw [if_neg hwhirlpool]
  unfold tryQuoteWalk
  rw [walk_eq]
  congr 2
  by_cases hlimit : sqrtPriceLimit r.aToB ≠ r.pool.sqrtPrice
  · rw [if_pos hlimit]
    exact if_pos ⟨hstarted, hlimit⟩
  · rw [if_neg hlimit]
    exact if_neg fun h => hlimit h.2

/-- Without a start there is no quote, and no panic. -/
theorem quoted_of_not_started (checks : Bool)
    (h : ¬ r.Searchable ∨ sqrtPriceLimit r.aToB = r.pool.sqrtPrice) :
    r.quoted checks = .returned none := by
  rw [quoted_eq]
  by_cases hlimit : sqrtPriceLimit r.aToB = r.pool.sqrtPrice
  · rw [if_neg (not_not.mpr hlimit)]
    change Quoted.ofWalk (finish (r.pool.start r.amountIn)) = _
    unfold finish
    rw [if_pos (show (r.pool.start r.amountIn).amountRemaining > 0 from r.amount)]
    rfl
  · have hrefused := ParsedTickArray.getNextInitTickIndex_error spacing_pos
      (mt searchable_iff.mpr (h.resolve_right hlimit))
    have hsearch : searchNext r.pool r.aToB [r.arr0, r.arr1, r.arr2]
        (r.pool.start r.amountIn) 0 = .error (.error .divideByZero) := by
      apply searchNext_error
      show getNextInitializedTickIndex r.tickSpacing r.aToB 0 r.pool.tickCurrentIndex
        [r.arr0, r.arr1, r.arr2] = _
      unfold getNextInitializedTickIndex
      rw [hrefused]
      rfl
    rw [if_pos hlimit]
    unfold walkStep
    rw [hsearch]
    rfl

/-- **The walk is its first segment.** -/
theorem firstSegment_quoted (checks : Bool) (h : r.Searchable)
    (hlimit : sqrtPriceLimit r.aToB ≠ r.pool.sqrtPrice) :
    ∃ next, r.Finds next ∧ r.quoted checks = .ofWalk (r.segmentTo checks next >>= finish) := by
  obtain ⟨i, next, hsearch, hnext, htick⟩ := h.finds
  refine ⟨next, hnext, ?_⟩
  rw [quoted_eq, if_pos hlimit]
  congr 2
  unfold walkStep segmentTo
  rw [hsearch, htick]
  change ((priceSegment checks r.pool r.aToB (r.pool.start r.amountIn) next >>= _).map Prod.fst) = _
  cases hsegment : priceSegment checks r.pool r.aToB (r.pool.start r.amountIn) next with
  | error e => rfl
  | ok segment =>
      change Except.map Prod.fst (if _ then _ else _) = crossTo _ _ _ _ _
      unfold crossTo
      by_cases hreached : segment.nextPrice = segment.nextTickSqrtPrice
      · rw [if_pos hreached, if_pos hreached]
        change Except.map Prod.fst (crossedLiquidity checks r.aToB r.pool.liquidity
          (([r.arr0, r.arr1, r.arr2][i]?).bind fun named =>
            named.getTick r.tickSpacing next) >>= _) = _
        cases crossedLiquidity checks r.aToB r.pool.liquidity
          (([r.arr0, r.arr1, r.arr2][i]?).bind fun named => named.getTick r.tickSpacing next) with
        | error e => rfl
        | ok liquidity => rfl
      · rw [if_neg hreached, if_neg hreached]
        rfl

/-! ## 4. The first segment against the reference -/

/-- Where the search passes over nothing, it finds the next tick. -/
theorem Finds.nextTick {next : Int} (h : r.Finds next) (hpass : ¬ r.PassesOver next) :
    NextTick (Stops r.tickSpacing r.aToB r.arr0 r.arr1 r.arr2) r.aToB r.pool.tickCurrentIndex
      next where
  stop := by
    obtain hholds | ⟨hholds, -⟩ | ⟨hholds, -⟩ | hlast := h.stop
    · exact .inl hholds
    · exact .inr (.inl hholds)
    · exact .inr (.inr (.inl hholds))
    · exact .inr (.inr (.inr hlast))
  ahead := h.ahead
  nearest := by
    have hskipped : ∀ array ∈ [r.arr1, r.arr2], ∀ t, Holds array r.tickSpacing t →
        Skipped r.aToB array t → NoFarther r.aToB next t := by
      rintro array harray t hholds ⟨haToB, rfl⟩
      rw [haToB]
      refine not_lt.mp fun hlt => hpass ⟨haToB, array, harray, hholds, hlt⟩
    rintro t (hholds | hholds | hholds | hlast) hahead
    · exact h.nearest t (.inl hholds) hahead
    · by_cases hskip : Skipped r.aToB r.arr1 t
      · exact hskipped r.arr1 (by simp) t hholds hskip
      · exact h.nearest t (.inr (.inl ⟨hholds, hskip⟩)) hahead
    · by_cases hskip : Skipped r.aToB r.arr2 t
      · exact hskipped r.arr2 (by simp) t hholds hskip
      · exact h.nearest t (.inr (.inr (.inl ⟨hholds, hskip⟩))) hahead
    · exact h.nearest t (.inr (.inr (.inr hlast))) hahead

/-- The walk crosses a tick as the reference does, but for the negation that fails. -/
theorem crossedLiquidity_eq {aToB : Bool} {liquidity : Nat} {tick : Option ParsedTick}
    (h : ¬ (aToB = true ∧ netAt tick = -2 ^ 127)) :
    crossedLiquidity checks aToB liquidity tick =
      raise (addLiquidityDelta liquidity (if aToB then -netAt tick else netAt tick)) := by
  cases tick with
  | none =>
      unfold crossedLiquidity netAt
      cases aToB with
      | true => rfl
      | false => rfl
  | some tick =>
      unfold crossedLiquidity
      unfold netAt at h ⊢
      dsimp only at h ⊢
      cases hinit : tick.initialized with
      | false =>
          cases aToB with
          | true => rfl
          | false => rfl
      | true =>
          rw [hinit] at h
          cases aToB with
          | false => rfl
          | true =>
              have hnegates : negI128 checks tick.liquidityNet = .ok (-tick.liquidityNet) := by
                unfold negI128
                exact if_neg fun heq => h ⟨rfl, heq⟩
              change (negI128 checks tick.liquidityNet >>= _) = _
              rw [hnegates]
              rfl

/-- **What the first segment pays, the reference pays**: where nothing is passed over and nothing
    is negated that has no negation. -/
theorem FirstSegmentPays.pays {next : Int} {out : Nat} (h : r.FirstSegmentPays checks next out)
    (hpass : ¬ r.PassesOver next) (hleast : ¬ r.NegatesLeast next) : r.Pays checks out := by
  obtain ⟨s, ⟨-, hlimit, hnext, hsegmentTo⟩, hused, rfl, -⟩ := h
  unfold segmentTo at hsegmentTo
  obtain ⟨segment, hsegment, hcross⟩ := bind_ok hsegmentTo
  rw [crossedLiquidity_eq hleast] at hcross
  exact .segment r.amount hlimit (hnext.nextTick hpass) hsegment hcross (.used hused)

/-! ## 5. When the quote is the reference's -/

theorem agrees_of_none (h : r.quoted checks = .returned none) :
    r.Agrees checks ↔ ∀ out, 0 < out → ¬ r.Pays checks out := by
  constructor
  · rintro ⟨quote, hquote, hagrees⟩ out hpos hpays
    cases hquote.symm.trans h
    cases (hagrees out).mpr ⟨hpays, hpos⟩
  · intro hnone
    refine ⟨none, h, fun out => ⟨nofun, ?_⟩⟩
    rintro ⟨hpays, hpos⟩
    exact absurd hpays (hnone out hpos)

theorem agrees_of_some {out : Nat} (hpos : 0 < out) (h : r.quoted checks = .returned (some out)) :
    r.Agrees checks ↔ r.Pays checks out := by
  constructor
  · rintro ⟨quote, hquote, hagrees⟩
    cases hquote.symm.trans h
    exact ((hagrees out).mp rfl).1
  · intro hpays
    refine ⟨some out, h, fun out' => ⟨?_, ?_⟩⟩
    · rintro ⟨⟩
      exact ⟨hpays, hpos⟩
    · rintro ⟨hpays', -⟩
      exact congrArg some (hpays.unique hpays')

theorem not_agrees_of_panicked (h : r.quoted checks = .panicked) : ¬ r.Agrees checks := by
  rintro ⟨quote, hquote, -⟩
  cases hquote.symm.trans h

/-- There is one first segment. -/
theorem FirstSegment.unique {next next' : Int} {result result' : Checked SwapState}
    (h : r.FirstSegment checks next result) (h' : r.FirstSegment checks next' result') :
    next = next' ∧ result = result' := by
  obtain ⟨-, -, hnext, hresult⟩ := h
  obtain ⟨-, -, hnext', hresult'⟩ := h'
  obtain rfl := hnext.unique hnext'
  exact ⟨rfl, hresult.symm.trans hresult'⟩

variable (checks) (r) in
/-- **The condition**: the first segment does not panic, and it uses up the input and pays -- with
    no tick passed over and no least net liquidity, or else what the reference pays -- or it does
    not and the reference pays nothing. -/
def FirstSegmentDecides : Prop :=
  (∀ next, ¬ r.FirstSegment checks next (.error .panicked)) ∧
    ((∃ next out, r.FirstSegmentPays checks next out ∧
        (¬ r.PassesOver next ∧ ¬ r.NegatesLeast next ∨ r.Pays checks out)) ∨
      (∀ next out, ¬ r.FirstSegmentPays checks next out) ∧
        ∀ out, 0 < out → ¬ r.Pays checks out)

theorem agrees_iff_of_none (hquoted : r.quoted checks = .returned none)
    (hpanic : ∀ next, ¬ r.FirstSegment checks next (.error .panicked))
    (hpays : ∀ next out, ¬ r.FirstSegmentPays checks next out) :
    r.Agrees checks ↔ r.FirstSegmentDecides checks := by
  rw [agrees_of_none hquoted]
  constructor
  · exact fun hnone => ⟨hpanic, .inr ⟨hpays, hnone⟩⟩
  · rintro ⟨-, ⟨next, out, h, -⟩ | ⟨-, hnone⟩⟩
    · exact absurd h (hpays next out)
    · exact hnone

/-- A first segment that does not pay. -/
theorem agrees_iff_of_segment {next : Int} {result : Checked SwapState}
    (hfirst : r.FirstSegment checks next result) (hquoted : r.quoted checks = .returned none)
    (hpanic : result ≠ .error .panicked)
    (hpays : ∀ s, result = .ok s → s.amountRemaining = 0 → ¬ 0 < s.amountCalculated) :
    r.Agrees checks ↔ r.FirstSegmentDecides checks := by
  refine agrees_iff_of_none hquoted (fun next' h => hpanic (hfirst.unique h).2) ?_
  rintro next' out ⟨s, h, hused, rfl, hpos⟩
  exact hpays s (hfirst.unique h).2 hused hpos

/-- A first segment that pays. -/
theorem agrees_iff_of_pays {next : Int} {out : Nat} (h : r.FirstSegmentPays checks next out)
    (hquoted : r.quoted checks = .returned (some out)) :
    r.Agrees checks ↔ r.FirstSegmentDecides checks := by
  obtain ⟨s, hfirst, hused, rfl, hpos⟩ := h
  have hpays : r.FirstSegmentPays checks next s.amountCalculated := ⟨s, hfirst, hused, rfl, hpos⟩
  rw [agrees_of_some hpos hquoted]
  constructor
  · intro hreference
    refine ⟨fun next' h => ?_, .inl ⟨next, _, hpays, .inr hreference⟩⟩
    cases (hfirst.unique h).2
  · rintro ⟨-, ⟨next', out', hpays', ⟨hpass, hleast⟩ | hreference⟩ | ⟨hnone, -⟩⟩
    · obtain ⟨s', hfirst', hused', rfl, hpos'⟩ := hpays'
      obtain ⟨rfl, hsame⟩ := hfirst.unique hfirst'
      exact hpays.pays hpass hleast
    · obtain ⟨s', hfirst', -, rfl, -⟩ := hpays'
      cases (hfirst.unique hfirst').2
      exact hreference
    · exact absurd hpays (hnone next _)

end QuoteRequest

/-! ## 6. A crossed tick -/

def emptyTick : ParsedTick := ⟨false, 0, zero_inI128⟩

/-- A pool at the price 1 with an input that gets behind the tick 64. -/
def crossedPool : OrcaWhirlpoolQuoteInput :=
  ⟨0, 1, 2, 18446744073709551616, 1000000000000, 0, 64, 300⟩

/-- An array without initialized ticks. -/
def emptyArray (start : Int) : ParsedTickArray := ⟨0, start, fun _ => emptyTick⟩

/-- The array of the tick 64, which adds as much liquidity as there is. -/
def crossedArray : ParsedTickArray :=
  { emptyArray 0 with
    ticks := fun slot => if slot.val = 1 then ⟨true, 1000000000000, by decide⟩ else emptyTick }

def crossedTicks : OrcaTickArrays :=
  (((∅ : OrcaTickArrays).insert 0 crossedArray).insert 5632 (emptyArray 5632)).insert 11264
    (emptyArray 11264)

/-- B is sold for A. -/
def crossedRequest : QuoteRequest where
  pool := crossedPool
  ticks := crossedTicks
  mintIn := TextCodec.base58Text 2
  mintOut := TextCodec.base58Text 1
  amountIn := 5000000000
  aToB := false
  arr0 := crossedArray
  arr1 := emptyArray 5632
  arr2 := emptyArray 11264
  direction := by decide +kernel
  liquidity := by decide
  spacing := by decide
  amount := by decide
  inInterval := ⟨by decide, by decide, ⟨18446744073709551616, by decide +kernel, by decide⟩,
    fun _ => ⟨18447666387855959850, by decide +kernel, by decide⟩⟩
  loaded0 := ⟨by rfl, by rfl, by rfl⟩
  loaded1 := ⟨by rfl, by rfl, by rfl⟩
  loaded2 := ⟨by rfl, by rfl, by rfl⟩

theorem quoted_crossed (checks : Bool) : crossedRequest.quoted checks = .returned none := by
  revert checks
  decide +kernel

theorem not_holds_emptyArray (tickSpacing : Nat) (start t : Int) :
    ¬ Holds (emptyArray start) tickSpacing t := by
  rintro ⟨slot, hinit, -⟩
  cases hinit

theorem holds_crossedArray {t : Int} (h : Holds crossedArray 64 t) : t = 64 := by
  obtain ⟨slot, hinit, rfl⟩ := h
  have hslot : slot.val = 1 := by
    by_contra hne
    unfold crossedArray at hinit
    dsimp only at hinit
    rw [if_neg hne] at hinit
    cases hinit
  unfold ParsedTickArray.tickAt
  rw [hslot]
  rfl

theorem stops_crossed {t : Int}
    (h : Stops 64 false crossedArray (emptyArray 5632) (emptyArray 11264) t) :
    t = 64 ∨ t = 16832 := by
  obtain h | h | h | h := h
  · exact .inl (holds_crossedArray h)
  · exact absurd h (not_holds_emptyArray 64 5632 t)
  · exact absurd h (not_holds_emptyArray 64 11264 t)
  · exact .inr h

theorem nextTick_crossed : NextTick (Stops 64 false crossedArray (emptyArray 5632)
    (emptyArray 11264)) false 0 64 where
  stop := .inl ⟨⟨1, by decide⟩, rfl, by decide⟩
  ahead := by decide
  nearest t h _ := by
    obtain rfl | rfl := stops_crossed h
    · decide
    · decide

theorem nextTick_beyond : NextTick (Stops 64 false crossedArray (emptyArray 5632)
    (emptyArray 11264)) false 64 16832 where
  stop := .inr (.inr (.inr rfl))
  ahead := by decide
  nearest t h hahead := by
    obtain rfl | rfl := stops_crossed h
    · exact absurd hahead (by decide)
    · decide

/-- The reference crosses the tick and pays. -/
theorem pays_crossed (checks : Bool) : crossedRequest.Pays checks 4975228016 := by
  have hfirst : priceSegment checks crossedPool false (crossedPool.start 5000000000) 64 =
      .ok ⟨18505865242158250041, 18505865242158250041, 18505865242158250041, 1794073257,
        3194725978⟩ := by
    cases checks with
    | true => decide +kernel
    | false => decide +kernel
  have hsecond : priceSegment checks crossedPool false
      ⟨1794073257, 3194725978, 18505865242158250041, 64, 2000000000000⟩ 16832 =
      .ok ⟨42796049834791571797, 42796049834791571797, 18522407683047188392, 0, 4975228016⟩ := by
    cases checks with
    | true => decide +kernel
    | false => decide +kernel
  have hcross : crossTo false (crossedPool.start 5000000000) 64
      ⟨18505865242158250041, 18505865242158250041, 18505865242158250041, 1794073257, 3194725978⟩
      (raise (addLiquidityDelta 1000000000000
        (netAt (tickOf 64 [crossedArray, emptyArray 5632, emptyArray 11264] 64)))) =
      .ok ⟨1794073257, 3194725978, 18505865242158250041, 64, 2000000000000⟩ := by
    decide +kernel
  exact .segment (by decide) (by decide) nextTick_crossed hfirst hcross
    (.segment (by decide) (by decide) nextTick_beyond hsecond rfl (.used rfl))

end IronCrab.Solana.Whirlpool

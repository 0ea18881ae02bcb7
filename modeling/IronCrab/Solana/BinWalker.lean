/-
  File:      IronCrab/Solana/BinWalker.lean
  Subject:   THE BIN WALK (`meteora_bin_walker.rs`): an exact-input quote that goes from bin to bin
             at the price of each, outputs rounded down and charged inputs rounded up.

  Reading of the source's data:

  * amounts and prices are `Nat`; a `u64` that a result must fit in is checked, a saturating sum is
    `satAdd`, a saturating difference the one of `Nat`;
  * an unchecked operation that overflows is the failure `panicked`, a loop that has not ended
    after its rounds `unfinished`; neither happens;
  * the price of a bin for diagnostics (an `f64`) is left out; a walk records its `fills`.

  * `visit_ok` -- what a bin gives and takes is what an `Offer` at its price does;
  * `quoteLoop_ok` -- the walk is a `Ladder` of the bins ahead;
  * `walk_error` -- it fails with an error only, never by an overflow or without end;
  * **`bin_walk_sound`** -- no overflow, no fill above the stock, over the input or below cost,
    and no smaller output for a greater input.
-/
import IronCrab.Lib.Arith
import IronCrab.Lib.Ladder
import IronCrab.Solana.BinPrice
import Mathlib.Data.List.Sort

namespace IronCrab.Solana.BinWalk

/-! ## 1. What a bin pays and asks -/

/-- How a quote fails: an error it returns, an overflow, or a loop without end. -/
inductive Failure where
  | error (text : String)
  | panicked
  | unfinished
  deriving DecidableEq

abbrev Checked := Except Failure

@[simp] theorem ok_bind {A B : Type} (a : A) (f : A → Checked B) :
    (Except.ok a : Checked A).bind f = f a := rfl

@[simp] theorem error_bind {A B : Type} (e : Failure) (f : A → Checked B) :
    (Except.error e : Checked A).bind f = .error e := rfl

theorem of_bind_ok {A B : Type} {x : Checked A} {f : A → Checked B} {b : B}
    (h : x.bind f = .ok b) : ∃ a, x = .ok a ∧ f a = .ok b := by
  cases x with
  | error e => cases h
  | ok a => exact ⟨a, rfl, h⟩

theorem of_bind_error {A B : Type} {x : Checked A} {f : A → Checked B} {e : Failure}
    (h : x.bind f = .error e) : x = .error e ∨ ∃ a, x = .ok a ∧ f a = .error e := by
  cases x with
  | error e' =>
      cases h
      exact .inl rfl
  | ok a => exact .inr ⟨a, rfl, h⟩

/-- `ok_or_else`. -/
def okOr {A : Type} (text : String) : Option A → Checked A
  | none => .error (.error text)
  | some a => .ok a

/-- `mul_shr`: the floor of `a * b / 2^64`. -/
def mulShr (a b : Nat) : Option Nat := (checkedMul a b).map (· / one)

/-- `mul_shr_ceil`: its ceiling; the sum with the mask is not checked. -/
def mulShrCeil (a b : Nat) : Checked (Option Nat) :=
  match checkedMul a b with
  | none => .ok none
  | some product =>
      if product + (one - 1) < 2 ^ 128 then .ok (some ((product + (one - 1)) / one))
      else .error .panicked

/-- `shl_div`: the floor of `a * 2^64 / b`. -/
def shlDiv (a b : Nat) : Option Nat := if b = 0 then none else some (checkedShl a / b)

/-- `shl_div_ceil`: its ceiling. -/
def shlDivCeil (a b : Nat) : Option Nat :=
  if b = 0 then none else some ((checkedShl a + (b - 1)) / b)

/-- `ok_or_else`, then `u64::try_from`. -/
def narrow (overflow exceeds : String) (value : Option Nat) : Checked Nat :=
  (okOr overflow value).bind fun n => if n < 2 ^ 64 then .ok n else .error (.error exceeds)

/-- `get_amount_out`. -/
def getAmountOut (amountIn price : Nat) (swapForY : Bool) : Checked Nat :=
  narrow "DLMM amount_out overflow" "DLMM amount_out exceeds u64"
    (if swapForY then mulShr amountIn price else shlDiv amountIn price)

/-- `get_amount_in`. -/
def getAmountIn (amountOut price : Nat) (swapForY : Bool) : Checked Nat :=
  (if swapForY then .ok (shlDivCeil amountOut price) else mulShrCeil amountOut price).bind
    (narrow "DLMM amount_in overflow" "DLMM amount_in exceeds u64")

/-- `dlmm_fee_bps`. -/
def dlmmFeeBps (binStep : UInt16) : UInt32 := 10 + min binStep.toUInt32 100

/-! ## 2. The walker -/

/-- `Bin`. -/
structure Bin where
  id : Int
  amountX : UInt64
  amountY : UInt64
  deriving DecidableEq

/-- `BinWalker`. -/
structure BinWalker where
  activeId : Int32
  binStep : UInt16
  bins : List Bin
  deriving DecidableEq

/-- `BinWalker::new`. -/
def BinWalker.new (activeId : Int32) (binStep : UInt16) : BinWalker := ⟨activeId, binStep, []⟩

/-- `add_bin`. -/
def BinWalker.addBin (q : BinWalker) (b : Bin) : BinWalker :=
  { q with bins := (q.bins ++ [b]).insertionSort fun a b => a.id ≤ b.id }

/-- `walker_from_bins`. -/
def walkerFromBins (activeId : Int32) (binStep : UInt16) (bins : List Bin) : BinWalker :=
  bins.foldl (fun q b => if b.amountX > 0 ∨ b.amountY > 0 then q.addBin b else q)
    (.new activeId binStep)

/-- What a bin gave and took. -/
structure Fill where
  id : Int
  price : Nat
  maxOut : Nat
  before : Nat
  out : Nat
  charged : Nat
  deriving DecidableEq

/-- The variables of the loop. -/
structure Walk where
  remainingIn : Nat
  totalOut : Nat
  binsCrossed : Nat
  currentId : Int
  fills : List Fill
  deriving DecidableEq

namespace BinWalker

variable (q : BinWalker) (swapForY : Bool)

/-- `bin_map`: of two bins with one id the later one. -/
def binMap (id : Int) : Option (UInt64 × UInt64) :=
  (q.bins.reverse.find? fun b => b.id = id).map fun b => (b.amountX, b.amountY)

def minId : Int := (q.bins.head?.map (·.id)).getD q.activeId.toInt

def maxId : Int := (q.bins.getLast?.map (·.id)).getD q.activeId.toInt

/-- The walk has left the bins. -/
def past (currentId : Int) : Bool :=
  if swapForY then currentId < q.minId else q.maxId < currentId

def step : Int := if swapForY then -1 else 1

/-- A bin that holds `maxOut` of the output, at its price. -/
def fillAt (w : Walk) (maxOut price : Nat) : Checked Walk :=
  (getAmountOut w.remainingIn price swapForY).bind fun idealOut =>
    let actualOut := min idealOut maxOut
    let filled := fun consumedIn =>
      w.fills ++ [⟨w.currentId, price, maxOut, w.remainingIn, actualOut, consumedIn⟩]
    if actualOut = 0 then .ok { w with fills := filled 0 }
    else
      (if actualOut = idealOut then .ok w.remainingIn
        else getAmountIn actualOut price swapForY).bind fun consumedIn =>
          .ok { w with
            totalOut := Arith.satAdd 64 w.totalOut actualOut
            remainingIn := w.remainingIn - consumedIn
            binsCrossed := w.binsCrossed + 1
            fills := filled consumedIn }

/-- The bin of the current id, in one round of the loop. -/
def visit (w : Walk) : Checked Walk :=
  match q.binMap w.currentId with
  | none => .ok w
  | some (amountX, amountY) =>
      let maxOut := (if swapForY then amountY else amountX).toNat
      if maxOut = 0 then .ok w
      else
        (okOr ("DLMM price overflow for bin " ++ toString w.currentId)
          (getPriceFromId w.currentId q.binStep)).bind (fillAt swapForY w maxOut)

/-- The loop of `quote_exact_in`. -/
def quoteLoop : Nat → Walk → Checked Walk
  | 0, _ => .error .unfinished
  | rounds + 1, w =>
      if w.remainingIn = 0 then .ok w
      else if q.past swapForY w.currentId then .ok w
      else
        (q.visit swapForY w).bind fun w =>
          if w.remainingIn = 0 then .ok w
          else if Arith.InRange 32 (w.currentId + step swapForY) then
            quoteLoop rounds { w with currentId := w.currentId + step swapForY }
          else .error .panicked

/-- One round for every id ahead, and one that finds the end. -/
def rounds : Nat :=
  (if swapForY then q.activeId.toInt - q.minId + 1 else q.maxId - q.activeId.toInt + 1).toNat + 1

/-- What the fee leaves of the input. -/
def afterFee (amountIn : UInt64) (feeBps : UInt32) : Nat :=
  amountIn.toNat - Arith.trunc 64 (amountIn.toNat * feeBps.toNat / 10000)

/-- `quote_exact_in`, up to its result. -/
def walk (amountIn : UInt64) (feeBps : UInt32) : Checked Walk :=
  if amountIn = 0 then .error (.error "Amount must be positive")
  else
    let w : Walk := ⟨afterFee amountIn feeBps, 0, 0, q.activeId.toInt, []⟩
    if w.remainingIn = 0 then .ok w
    else if q.bins.isEmpty then .ok w
    else q.quoteLoop swapForY (q.rounds swapForY) w

/-- `quote_exact_in`. -/
def quoteExactIn (amountIn : UInt64) (feeBps : UInt32) : Checked (Nat × Nat × UInt32) :=
  (q.walk swapForY amountIn feeBps).map fun w => (w.totalOut, w.binsCrossed, feeBps)

/-- `quote_x_to_y`. -/
def quoteXToY := q.quoteExactIn true

/-- `quote_y_to_x`. -/
def quoteYToX := q.quoteExactIn false

end BinWalker

/-! ## 3. A bin as an offer -/

/-- A price that is not zero. -/
abbrev Price := {p : Nat // 0 < p}

def positive : Option Nat → Option Price
  | none => none
  | some p => if h : 0 < p then some ⟨p, h⟩ else none

theorem positive_some (p : Price) : positive (some p.val) = some p := dif_pos p.2

theorem of_positive {price : Option Nat} {p : Price} (h : positive price = some p) :
    price = some p.val := by
  cases price with
  | none => cases h
  | some n =>
      by_cases hn : 0 < n
      · cases (dif_pos hn).symm.trans h
        rfl
      · cases (dif_neg hn).symm.trans h

section Offers

variable (swapForY : Bool)

/-- What an input is multiplied with, and what the product is divided by. -/
def numerator (price : Nat) : Nat := if swapForY then price else one

def denominator (price : Nat) : Nat := if swapForY then one else price

theorem numerator_pos (p : Price) : 0 < numerator swapForY p := by
  unfold numerator
  split
  · exact p.2
  · exact one_pos

theorem denominator_pos (p : Price) : 0 < denominator swapForY p := by
  unfold denominator
  split
  · exact one_pos
  · exact p.2

/-- The offer of a bin. -/
def binOffer (maxOut : Nat) (p : Price) : Offer :=
  .ratio maxOut (numerator_pos swapForY p) (denominator_pos swapForY p)

end Offers

section Amounts

variable {swapForY : Bool} {maxOut : Nat} {p : Price}

theorem checkedShl_of_lt {a : Nat} (h : a < 2 ^ 64) : checkedShl a = a * one := by
  refine Nat.mod_eq_of_lt ?_
  unfold one
  omega

theorem of_okOr_ok {A : Type} {text : String} {value : Option A} {a : A}
    (h : okOr text value = .ok a) : value = some a := by
  cases value with
  | none => cases h
  | some b =>
      cases h
      rfl

theorem of_okOr_error {A : Type} {text : String} {value : Option A} {f : Failure}
    (h : okOr text value = .error f) : f = .error text := by
  cases value with
  | none =>
      cases h
      rfl
  | some b => cases h

theorem of_narrow_ok {overflow exceeds : String} {value : Option Nat} {n : Nat}
    (h : narrow overflow exceeds value = .ok n) : value = some n ∧ n < 2 ^ 64 := by
  obtain ⟨m, hm, h⟩ := of_bind_ok h
  split at h
  · next hlt =>
      cases h
      exact ⟨of_okOr_ok hm, hlt⟩
  · cases h

theorem of_narrow_error {overflow exceeds : String} {value : Option Nat} {f : Failure}
    (h : narrow overflow exceeds value = .error f) : ∃ text, f = .error text := by
  rcases of_bind_error h with h | ⟨m, _, h⟩
  · exact ⟨_, of_okOr_error h⟩
  · split at h
    · cases h
    · cases h
      exact ⟨_, rfl⟩

theorem of_mulShr {a b n : Nat} (h : mulShr a b = some n) : n = a * b / one := by
  obtain ⟨product, hproduct, rfl⟩ := Option.map_eq_some_iff.mp h
  unfold checkedMul at hproduct
  split at hproduct
  · cases hproduct
    rfl
  · cases hproduct

/-- **What a bin pays** is what its offer pays. -/
theorem getAmountOut_ok {amountIn n : Nat} (hin : amountIn < 2 ^ 64)
    (h : getAmountOut amountIn p swapForY = .ok n) :
    n = (binOffer swapForY maxOut p).pays amountIn := by
  have h := (of_narrow_ok h).1
  cases swapForY with
  | true => exact of_mulShr h
  | false =>
      have h : shlDiv amountIn p = some n := h
      unfold shlDiv at h
      rw [if_neg p.2.ne', checkedShl_of_lt hin] at h
      cases h
      rfl

/-- **What a bin asks** is what its offer costs. -/
theorem getAmountIn_ok {amountOut n : Nat} (hout : amountOut < 2 ^ 64)
    (h : getAmountIn amountOut p swapForY = .ok n) :
    n = (binOffer swapForY maxOut p).costs amountOut := by
  cases swapForY with
  | true =>
      have h : shlDivCeil amountOut p = some n := (of_narrow_ok h).1
      unfold shlDivCeil at h
      rw [if_neg p.2.ne', checkedShl_of_lt hout] at h
      cases h
      rfl
  | false =>
      have h : (mulShrCeil amountOut p).bind _ = _ := h
      unfold mulShrCeil checkedMul at h
      by_cases hmul : amountOut * p < 2 ^ 128
      · rw [if_pos hmul] at h
        dsimp only at h
        by_cases hadd : amountOut * p + (one - 1) < 2 ^ 128
        · rw [if_pos hadd, ok_bind] at h
          have h := (of_narrow_ok h).1
          cases h
          rfl
        · rw [if_neg hadd] at h
          cases h
      · rw [if_neg hmul] at h
        cases h

theorem narrow_of_lt {overflow exceeds : String} {n : Nat} (h : n < 2 ^ 64) :
    narrow overflow exceeds (some n) = .ok n := if_pos h

/-- A bin pays what a `u64` holds. -/
theorem getAmountOut_of_lt {amountIn : Nat} (hin : amountIn < 2 ^ 64)
    (h : (binOffer swapForY maxOut p).pays amountIn < 2 ^ 64) :
    getAmountOut amountIn p swapForY = .ok ((binOffer swapForY maxOut p).pays amountIn) := by
  cases swapForY with
  | true =>
      have hpays : amountIn * p / one < 2 ^ 64 := h
      have hmul : amountIn * p < 2 ^ 128 := by
        have hone : one = 2 ^ 64 := rfl
        rw [Nat.div_lt_iff_lt_mul one_pos, hone] at hpays
        omega
      have hshr : mulShr amountIn p = some (amountIn * p / one) := by
        unfold mulShr checkedMul
        rw [if_pos hmul]
        rfl
      unfold getAmountOut
      rw [if_pos rfl, hshr]
      exact narrow_of_lt hpays
  | false =>
      have hdiv : shlDiv amountIn p = some (amountIn * one / p) := by
        unfold shlDiv
        rw [if_neg p.2.ne', checkedShl_of_lt hin]
      unfold getAmountOut
      rw [if_neg Bool.false_ne_true, hdiv]
      exact narrow_of_lt h

/-- Nothing overflows where a bin is asked for less than it would pay. -/
theorem getAmountIn_of_lt {amountIn amountOut : Nat} (hin : amountIn < 2 ^ 64)
    (hsmall : amountOut < 2 ^ 64) (hout : amountOut < (binOffer swapForY maxOut p).pays amountIn) :
    getAmountIn amountOut p swapForY = .ok ((binOffer swapForY maxOut p).costs amountOut) := by
  have hcosts : (binOffer swapForY maxOut p).costs amountOut ≤ amountIn :=
    ((binOffer swapForY maxOut p).adjoint _ _).mpr hout.le
  have hfits := hcosts.trans_lt hin
  cases swapForY with
  | true =>
      have hdiv : shlDivCeil amountOut p = some ((binOffer true maxOut p).costs amountOut) := by
        unfold shlDivCeil
        rw [if_neg p.2.ne', checkedShl_of_lt hsmall]
        rfl
      unfold getAmountIn
      rw [if_pos rfl, ok_bind, hdiv]
      exact narrow_of_lt hfits
  | false =>
      have hpaid : (amountOut + 1) * p ≤ amountIn * one := by
        have hout : amountOut + 1 ≤ amountIn * one / p := hout
        exact (Nat.le_div_iff_mul_le p.2).mp hout
      have hpos : 0 < p.val := p.2
      have hadd : amountOut * p + (one - 1) < 2 ^ 128 := by
        have hone : one = 2 ^ 64 := rfl
        rw [Nat.add_mul, Nat.one_mul] at hpaid
        have hmax : amountIn * one ≤ (2 ^ 64 - 1) * one := Nat.mul_le_mul_right one (by omega)
        omega
      have hceil : mulShrCeil amountOut p =
          .ok (some ((binOffer false maxOut p).costs amountOut)) := by
        unfold mulShrCeil checkedMul
        rw [if_pos (by omega)]
        exact if_pos hadd
      unfold getAmountIn
      rw [if_neg Bool.false_ne_true, hceil, ok_bind]
      exact narrow_of_lt hfits

end Amounts

/-! ## 4. One round -/

/-- The amounts are those of a `u64`. -/
structure Walk.Fits (w : Walk) : Prop where
  remainingIn : w.remainingIn < 2 ^ 64
  totalOut : w.totalOut ≤ Arith.maxU 64

/-- What an offer gives a walk and takes from it. -/
def Walk.fill (w : Walk) (o : Offer) (price : Nat) : Fill :=
  ⟨w.currentId, price, o.stock, w.remainingIn, o.out w.remainingIn, o.charge w.remainingIn⟩

/-- An offer takes the input of a walk. -/
def Walk.take (w : Walk) (o : Offer) (price : Nat) : Walk where
  remainingIn := w.remainingIn - o.charge w.remainingIn
  totalOut := Arith.satAdd 64 w.totalOut (o.out w.remainingIn)
  binsCrossed := if o.out w.remainingIn = 0 then w.binsCrossed else w.binsCrossed + 1
  currentId := w.currentId
  fills := w.fills ++ [w.fill o price]

theorem Walk.Fits.take {w : Walk} (h : w.Fits) (o : Offer) (price : Nat) :
    (w.take o price).Fits where
  remainingIn := (Nat.sub_le _ _).trans_lt h.remainingIn
  totalOut := Arith.satAdd_le_maxU _ _

namespace BinWalker

variable (q : BinWalker) (swapForY : Bool)

/-- What a bin holds of the output. -/
def stockAt (id : Int) : Nat :=
  ((q.binMap id).map fun amounts => (if swapForY then amounts.2 else amounts.1).toNat).getD 0

/-- The offer at an id, where the bin holds something and has a price. -/
def offerAt (id : Int) : Option Offer :=
  if q.stockAt swapForY id = 0 then none
  else (positive (getPriceFromId id q.binStep)).map (binOffer swapForY (q.stockAt swapForY id))

variable {q swapForY}

theorem stockAt_lt (id : Int) : q.stockAt swapForY id < 2 ^ 64 := by
  unfold stockAt
  cases q.binMap id with
  | none => exact Nat.two_pow_pos 64
  | some amounts => exact UInt64.toNat_lt _

theorem offerAt_of_stock_zero {id : Int} (h : q.stockAt swapForY id = 0) :
    q.offerAt swapForY id = none := if_pos h

theorem offerAt_of_price {id : Int} {p : Price} (hstock : q.stockAt swapForY id ≠ 0)
    (h : getPriceFromId id q.binStep = some p.val) :
    q.offerAt swapForY id = some (binOffer swapForY (q.stockAt swapForY id) p) := by
  unfold offerAt
  rw [if_neg hstock, h, positive_some]
  rfl

/-- What an offer at an id is. -/
theorem of_offerAt {id : Int} {o : Offer} (h : q.offerAt swapForY id = some o) :
    q.stockAt swapForY id ≠ 0 ∧
      ∃ p : Price, getPriceFromId id q.binStep = some p.val ∧
        o = binOffer swapForY (q.stockAt swapForY id) p := by
  unfold offerAt at h
  split at h
  · cases h
  · next hstock =>
      obtain ⟨p, hp, rfl⟩ := Option.map_eq_some_iff.mp h
      exact ⟨hstock, p, of_positive hp, rfl⟩

/-- The bin of a round, once it is known to hold something. -/
theorem visit_eq {w : Walk} {amounts : UInt64 × UInt64}
    (hbin : q.binMap w.currentId = some amounts) :
    q.stockAt swapForY w.currentId = (if swapForY then amounts.2 else amounts.1).toNat := by
  unfold stockAt
  rw [hbin]
  rfl

/-- **A fill does what the offer at its price does.** -/
theorem fillAt_ok {w w' : Walk} {maxOut : Nat} {p : Price} (hw : w.Fits) (hmax : maxOut < 2 ^ 64)
    (h : fillAt swapForY w maxOut p = .ok w') : w' = w.take (binOffer swapForY maxOut p) p := by
  obtain ⟨ideal, hideal, h⟩ := of_bind_ok h
  have hpays : ideal = (binOffer swapForY maxOut p).pays w.remainingIn :=
    getAmountOut_ok hw.remainingIn hideal
  have hout : min ideal maxOut = (binOffer swapForY maxOut p).out w.remainingIn := by
    rw [hpays]
    rfl
  dsimp only at h
  rw [hout, hpays] at h
  unfold Walk.take Walk.fill Offer.charge
  by_cases hzero : (binOffer swapForY maxOut p).out w.remainingIn = 0
  · rw [if_pos hzero] at h
    cases h
    have htotal : Arith.satAdd 64 w.totalOut 0 = w.totalOut := Arith.satAdd_zero hw.totalOut
    rw [if_pos hzero, if_pos hzero, hzero, htotal, Nat.sub_zero]
    rfl
  · rw [if_neg hzero] at h
    obtain ⟨consumed, hconsumed, h⟩ := of_bind_ok h
    cases h
    have hcharge : consumed =
        if (binOffer swapForY maxOut p).out w.remainingIn =
          (binOffer swapForY maxOut p).pays w.remainingIn then w.remainingIn
        else (binOffer swapForY maxOut p).costs
          ((binOffer swapForY maxOut p).out w.remainingIn) := by
      split at hconsumed
      · next heq =>
          cases hconsumed
          exact (if_pos heq).symm
      · next heq =>
          rw [if_neg heq]
          exact getAmountIn_ok ((Offer.out_le_stock).trans_lt hmax) hconsumed
    rw [if_neg hzero, if_neg hzero, hcharge]
    rfl

theorem fillAt_error {w : Walk} {maxOut : Nat} {p : Price} {f : Failure} (hw : w.Fits)
    (hmax : maxOut < 2 ^ 64) (h : fillAt swapForY w maxOut p = .error f) :
    (∃ text, f = .error text) ∧ 2 ^ 64 ≤ (binOffer swapForY maxOut p).pays w.remainingIn := by
  rcases of_bind_error h with h | ⟨ideal, hideal, h⟩
  · refine ⟨of_narrow_error h, Nat.le_of_not_lt fun hlt => ?_⟩
    rw [getAmountOut_of_lt hw.remainingIn hlt] at h
    cases h
  · have hpays : ideal = (binOffer swapForY maxOut p).pays w.remainingIn :=
      getAmountOut_ok hw.remainingIn hideal
    dsimp only at h
    split at h
    · cases h
    · rcases of_bind_error h with h | ⟨consumed, _, h⟩
      · split at h
        · cases h
        · next hne =>
            -- a drained bin pays at least one more than it holds
            have hlt : min ideal maxOut < ideal :=
              lt_of_le_of_ne (Nat.min_le_left _ _) hne
            rw [hpays] at hlt
            rw [hpays] at h
            have hsmall := (Nat.min_le_right
              ((binOffer swapForY maxOut p).pays w.remainingIn) maxOut).trans_lt hmax
            rw [getAmountIn_of_lt hw.remainingIn hsmall hlt] at h
            cases h
      · cases h

/-- **A round does what the offer at its id does**, or nothing. -/
theorem visit_ok {w w' : Walk} (hw : w.Fits) (h : q.visit swapForY w = .ok w') :
    q.offerAt swapForY w.currentId = none ∧ w' = w ∨
      ∃ o price, q.offerAt swapForY w.currentId = some o ∧
        getPriceFromId w.currentId q.binStep = some price ∧ w' = w.take o price := by
  unfold visit at h
  cases hbin : q.binMap w.currentId with
  | none =>
      rw [hbin] at h
      cases h
      refine .inl ⟨offerAt_of_stock_zero ?_, rfl⟩
      unfold stockAt
      rw [hbin]
      rfl
  | some amounts =>
      rw [hbin] at h
      dsimp only at h
      rw [← visit_eq hbin] at h
      by_cases hstock : q.stockAt swapForY w.currentId = 0
      · rw [if_pos hstock] at h
        cases h
        exact .inl ⟨offerAt_of_stock_zero hstock, rfl⟩
      · rw [if_neg hstock] at h
        obtain ⟨price, hprice, h⟩ := of_bind_ok h
        have hprice := of_okOr_ok hprice
        obtain ⟨p, rfl⟩ : ∃ p : Price, price = p.val := ⟨⟨price, price_pos hprice⟩, rfl⟩
        exact .inr ⟨_, p.val, offerAt_of_price hstock hprice, hprice,
          fillAt_ok hw (stockAt_lt _) h⟩

theorem visit_error {w : Walk} {f : Failure} (hw : w.Fits)
    (h : q.visit swapForY w = .error f) : ∃ text, f = .error text := by
  unfold visit at h
  cases hbin : q.binMap w.currentId with
  | none =>
      rw [hbin] at h
      cases h
  | some amounts =>
      rw [hbin] at h
      dsimp only at h
      rw [← visit_eq hbin] at h
      split at h
      · cases h
      · rcases of_bind_error h with h | ⟨price, hprice, h⟩
        · exact ⟨_, of_okOr_error h⟩
        · obtain ⟨p, rfl⟩ : ∃ p : Price, price = p.val :=
            ⟨⟨price, price_pos (of_okOr_ok hprice)⟩, rfl⟩
          exact (fillAt_error hw (stockAt_lt _) h).1

/-- A round keeps the amounts those of a `u64`, and the id. -/
theorem visit_fits {w w' : Walk} (hw : w.Fits) (h : q.visit swapForY w = .ok w') :
    w'.Fits ∧ w'.currentId = w.currentId := by
  rcases visit_ok hw h with ⟨_, rfl⟩ | ⟨o, price, _, _, rfl⟩
  · exact ⟨hw, rfl⟩
  · exact ⟨hw.take o price, rfl⟩

/-! ## 5. The loop -/

variable (q swapForY)

/-- The offers of the bins ahead, of at most so many ids. -/
def ahead : Nat → Int → List Offer
  | 0, _ => []
  | n + 1, id =>
      if q.past swapForY id then []
      else (q.offerAt swapForY id).toList ++ ahead n (id + step swapForY)

/-- The walk comes to `a` before it comes to `b`. -/
def Before (a b : Int) : Prop := if swapForY then b < a else a < b

/-- A fill is a visit to the offer of its bin. -/
structure Records (f : Fill) (visit : Offer × Nat) : Prop where
  price : getPriceFromId f.id q.binStep = some f.price
  stock : q.stockAt swapForY f.id = f.maxOut
  holds : f.maxOut ≠ 0
  offer : ∃ p : Price, f.price = p.val ∧ visit.1 = binOffer swapForY f.maxOut p
  before : f.before = visit.2
  out : f.out = visit.1.out visit.2
  charged : f.charged = visit.1.charge visit.2

/-- The walk from `w`, at the id `start` with the offers `os` ahead, ended in `w'`. -/
structure Walked (start : Int) (os : List Offer) (w w' : Walk) : Prop where
  remainingIn : w'.remainingIn = Ladder.left os w.remainingIn
  totalOut : w'.totalOut = Arith.satAdd 64 w.totalOut (Ladder.total os w.remainingIn)
  fills : ∃ new, w'.fills = w.fills ++ new ∧
    List.Forall₂ (q.Records swapForY) new (Ladder.visits os w.remainingIn) ∧
    (new.Pairwise fun f g => Before swapForY f.id g.id) ∧
    ∀ f ∈ new, f.id = start ∨ Before swapForY start f.id

variable {q swapForY}

theorem before_step (id : Int) : Before swapForY id (id + step swapForY) := by
  unfold Before step
  cases swapForY with
  | true =>
      change id + -1 < id
      omega
  | false =>
      change id < id + 1
      omega

theorem Before.trans {a b c : Int} (hab : Before swapForY a b) (hbc : Before swapForY b c) :
    Before swapForY a c := by
  unfold Before at *
  cases swapForY with
  | true => exact lt_trans hbc hab
  | false => exact lt_trans hab hbc

namespace Walked

variable {start : Int} {os : List Offer} {w w' : Walk}

/-- A walk that has nothing left stays where it is. -/
theorem done (hw : w.Fits) (h : Ladder.left os w.remainingIn = w.remainingIn)
    (hvisits : Ladder.visits os w.remainingIn = []) : q.Walked swapForY start os w w where
  remainingIn := h.symm
  totalOut := by
    rw [Ladder.total_eq_sum, hvisits]
    exact (Arith.satAdd_zero hw.totalOut).symm
  fills := by
    rw [hvisits]
    exact ⟨[], (List.append_nil _).symm, .nil, .nil, fun f hf => absurd hf List.not_mem_nil⟩

/-- What is ahead of the next id is ahead of this one. -/
theorem ahead_of_next {f : Fill}
    (h : f.id = start + step swapForY ∨ Before swapForY (start + step swapForY) f.id) :
    Before swapForY start f.id := by
  rcases h with h | h
  · rw [h]
    exact before_step start
  · exact (before_step start).trans h

theorem skip (h : q.Walked swapForY (start + step swapForY) os w w') :
    q.Walked swapForY start os w w' where
  remainingIn := h.remainingIn
  totalOut := h.totalOut
  fills := by
    obtain ⟨new, hnew, hrecords, hordered, hahead⟩ := h.fills
    exact ⟨new, hnew, hrecords, hordered, fun f hf => .inr (ahead_of_next (hahead f hf))⟩

theorem cons {o : Offer} {price : Nat} (hr : w.remainingIn ≠ 0) (hstart : w.currentId = start)
    (ho : q.offerAt swapForY start = some o)
    (hprice : getPriceFromId start q.binStep = some price)
    (h : q.Walked swapForY (start + step swapForY) os (w.take o price) w') :
    q.Walked swapForY start (o :: os) w w' where
  remainingIn := by
    rw [h.remainingIn, Ladder.left, if_neg hr]
    rfl
  totalOut := by
    rw [h.totalOut, Ladder.total, if_neg hr]
    exact Arith.satAdd_satAdd _ _ _
  fills := by
    obtain ⟨new, hnew, hrecords, hordered, hahead⟩ := h.fills
    obtain ⟨hholds, p, hp, rfl⟩ := of_offerAt ho
    cases hprice.symm.trans hp
    refine ⟨w.fill (binOffer swapForY (q.stockAt swapForY start) p) p :: new, ?_, ?_, ?_, ?_⟩
    · rw [hnew, Walk.take, List.append_assoc, List.singleton_append]
    · rw [Ladder.visits, if_neg hr]
      refine .cons ⟨?_, ?_, hholds, ⟨p, rfl, rfl⟩, rfl, rfl, rfl⟩ hrecords
      · exact hstart ▸ hp
      · exact hstart ▸ rfl
    · refine List.pairwise_cons.mpr ⟨fun f hf => ?_, hordered⟩
      change Before swapForY w.currentId f.id
      rw [hstart]
      exact ahead_of_next (hahead f hf)
    · refine List.forall_mem_cons.mpr ⟨.inl hstart, fun f hf => .inr (ahead_of_next (hahead f hf))⟩

end Walked

/-- **The loop walks the ladder of the bins ahead.** -/
theorem quoteLoop_ok : ∀ (n : Nat) {w w' : Walk}, w.Fits → q.quoteLoop swapForY n w = .ok w' →
    q.Walked swapForY w.currentId (q.ahead swapForY n w.currentId) w w'
  | 0, _, _, _, h => by cases h
  | n + 1, w, w', hw, h => by
      unfold quoteLoop at h
      by_cases hr : w.remainingIn = 0
      · rw [if_pos hr] at h
        cases h
        refine .done hw ?_ ?_
        · rw [hr, Ladder.left_zero]
        · rw [hr, Ladder.visits_zero]
      · rw [if_neg hr] at h
        unfold ahead
        cases hpast : q.past swapForY w.currentId with
        | true =>
            rw [hpast, if_pos rfl] at h
            cases h
            rw [if_pos rfl]
            exact .done hw rfl rfl
        | false =>
            rw [hpast, if_neg Bool.false_ne_true] at h
            rw [if_neg Bool.false_ne_true]
            obtain ⟨w₁, hvisit, h⟩ := of_bind_ok h
            have hw₁ := visit_fits hw hvisit
            have hrest : q.Walked swapForY (w.currentId + step swapForY)
                (q.ahead swapForY n (w.currentId + step swapForY)) w₁ w' := by
              by_cases hr₁ : w₁.remainingIn = 0
              · rw [if_pos hr₁] at h
                cases h
                refine .done hw₁.1 ?_ ?_
                · rw [hr₁, Ladder.left_zero]
                · rw [hr₁, Ladder.visits_zero]
              · rw [if_neg hr₁] at h
                split at h
                · have hnext : Walk.Fits { w₁ with currentId := w₁.currentId + step swapForY } :=
                    ⟨hw₁.1.remainingIn, hw₁.1.totalOut⟩
                  have ih := quoteLoop_ok n hnext h
                  dsimp only at ih
                  rw [hw₁.2] at ih
                  exact ⟨ih.remainingIn, ih.totalOut, ih.fills⟩
                · cases h
            rcases visit_ok hw hvisit with ⟨hnone, rfl⟩ | ⟨o, price, ho, hprice, rfl⟩
            · rw [hnone]
              exact hrest.skip
            · rw [ho]
              exact hrest.cons hr rfl ho hprice

variable (q swapForY)

/-- The ids from here to the last bin. -/
def idsLeft (id : Int) : Nat := (if swapForY then id - q.minId + 1 else q.maxId - id + 1).toNat

variable {q swapForY}

/-- Inside the bins there is a next id, and it is nearer to the last bin. -/
theorem idsLeft_step (hmin : -2 ^ 31 < q.minId) (hmax : q.maxId < 2 ^ 31 - 1) {id : Int} {n : Nat}
    (hid : Arith.InRange 32 id) (hpast : ¬ q.past swapForY id = true)
    (hn : q.idsLeft swapForY id < n + 1) :
    Arith.InRange 32 (id + step swapForY) ∧ q.idsLeft swapForY (id + step swapForY) < n := by
  unfold Arith.InRange at hid
  unfold past at hpast
  unfold idsLeft at hn
  unfold Arith.InRange idsLeft step
  cases swapForY with
  | true =>
      simp only [if_true, decide_eq_true_eq] at hpast hn ⊢
      omega
  | false =>
      simp only [Bool.false_eq_true, if_false, decide_eq_true_eq] at hpast hn ⊢
      omega

/-- **A loop with a round for every id ahead** ends, and overflows nowhere. -/
theorem quoteLoop_error (hmin : -2 ^ 31 < q.minId) (hmax : q.maxId < 2 ^ 31 - 1) :
    ∀ (n : Nat) {w : Walk} {f : Failure}, w.Fits → Arith.InRange 32 w.currentId →
      q.idsLeft swapForY w.currentId < n →
      q.quoteLoop swapForY n w = .error f → ∃ text, f = .error text
  | 0, _, _, _, _, hn, _ => absurd hn (Nat.not_lt_zero _)
  | n + 1, w, f, hw, hid, hn, h => by
      unfold quoteLoop at h
      split at h
      · cases h
      · split at h
        · cases h
        · next hpast =>
            rcases of_bind_error h with h | ⟨w₁, hvisit, h⟩
            · exact visit_error hw h
            · have hw₁ := visit_fits hw hvisit
              split at h
              · cases h
              · have hnext := idsLeft_step hmin hmax hid hpast hn
                rw [hw₁.2, if_pos hnext.1] at h
                have hfits : Walk.Fits { w₁ with currentId := w.currentId + step swapForY } :=
                  ⟨hw₁.1.remainingIn, hw₁.1.totalOut⟩
                exact quoteLoop_error hmin hmax n hfits hnext.1 hnext.2 h

/-! ### The offers ahead -/

theorem of_mem_ahead : ∀ (n : Nat) {id : Int} {o : Offer}, o ∈ q.ahead swapForY n id →
    ∃ id', (id' = id ∨ Before swapForY id id') ∧ q.offerAt swapForY id' = some o
  | 0, _, _, h => absurd h List.not_mem_nil
  | n + 1, id, o, h => by
      unfold ahead at h
      split at h
      · cases h
      · rcases List.mem_append.mp h with h | h
        · exact ⟨id, .inl rfl, Option.mem_toList.mp h⟩
        · obtain ⟨id', hid, ho⟩ := of_mem_ahead n h
          refine ⟨id', .inr ?_, ho⟩
          rcases hid with rfl | hid
          · exact before_step id
          · exact (before_step id).trans hid

/-- A bin that comes later pays no more. -/
theorem pays_le_of_before {a b : Int} {o o' : Offer} (hab : Before swapForY a b)
    (ho : q.offerAt swapForY a = some o) (ho' : q.offerAt swapForY b = some o') (r : Nat) :
    o'.pays r ≤ o.pays r := by
  obtain ⟨_, p, hp, rfl⟩ := of_offerAt ho
  obtain ⟨_, p', hp', rfl⟩ := of_offerAt ho'
  unfold Before at hab
  cases swapForY with
  | true =>
      have hprice : p'.val ≤ p.val := price_mono (le_of_lt hab) hp' hp
      exact Nat.div_le_div_right (Nat.mul_le_mul_left r hprice)
  | false =>
      have hprice : p.val ≤ p'.val := price_mono (le_of_lt hab) hp hp'
      exact Nat.div_le_div_left hprice p.2

/-- **The bins ahead get worse.** -/
theorem worsening_ahead : ∀ (n : Nat) (id : Int), Ladder.Worsening (q.ahead swapForY n id)
  | 0, _ => .nil
  | n + 1, id => by
      unfold ahead
      split
      · exact .nil
      · cases ho : q.offerAt swapForY id with
        | none => exact worsening_ahead n _
        | some o =>
            refine List.pairwise_cons.mpr ⟨fun o' ho' => ?_, worsening_ahead n _⟩
            obtain ⟨id', hid, ho'⟩ := of_mem_ahead n ho'
            refine pays_le_of_before ?_ ho ho'
            rcases hid with rfl | hid
            · exact before_step id
            · exact (before_step id).trans hid

/-! ### A whole walk -/

variable (q swapForY)

/-- The offers from the active bin on. -/
def offers : List Offer :=
  if q.bins.isEmpty then [] else q.ahead swapForY (q.rounds swapForY) q.activeId.toInt

variable {q swapForY} {amountIn : UInt64} {feeBps : UInt32}

theorem fits_start : Walk.Fits ⟨afterFee amountIn feeBps, 0, 0, q.activeId.toInt, []⟩ where
  remainingIn := (Nat.sub_le _ _).trans_lt amountIn.toNat_lt
  totalOut := Nat.zero_le _

/-- **A walk is the ladder of the offers from the active bin on.** -/
theorem walk_ok {w : Walk} (h : q.walk swapForY amountIn feeBps = .ok w) :
    q.Walked swapForY q.activeId.toInt (q.offers swapForY)
      ⟨afterFee amountIn feeBps, 0, 0, q.activeId.toInt, []⟩ w := by
  unfold walk at h
  split at h
  · cases h
  · dsimp only at h
    split at h
    · next hr =>
        cases h
        refine .done fits_start ?_ ?_
        · exact hr.symm ▸ Ladder.left_zero _
        · exact hr.symm ▸ Ladder.visits_zero _
    · unfold offers
      split at h
      · next hempty =>
          cases h
          rw [if_pos hempty]
          exact .done fits_start rfl rfl
      · next hempty =>
          rw [if_neg hempty]
          exact quoteLoop_ok _ fits_start h

theorem worsening_offers : Ladder.Worsening (q.offers swapForY) := by
  unfold offers
  split
  · exact .nil
  · exact worsening_ahead _ _

end BinWalker

/-! ## 6. The walker of a list of bins -/

theorem walkerFromBins_mem {activeId : Int32} {binStep : UInt16} {bins : List Bin} {b : Bin}
    (h : b ∈ (walkerFromBins activeId binStep bins).bins) : b ∈ bins := by
  have hfold : ∀ (bs : List Bin) (q : BinWalker),
      b ∈ (bs.foldl (fun q b => if b.amountX > 0 ∨ b.amountY > 0 then q.addBin b else q) q).bins →
        b ∈ q.bins ∨ b ∈ bs := by
    intro bs
    induction bs with
    | nil => exact fun _ h => .inl h
    | cons c bs ih =>
        intro q h
        rw [List.foldl_cons] at h
        rcases ih _ h with h | h
        · split at h
          · have hmem : b ∈ q.bins ++ [c] := (List.mem_insertionSort _).mp h
            rcases List.mem_append.mp hmem with hmem | hmem
            · exact .inl hmem
            · exact .inr (List.mem_singleton.mp hmem ▸ List.mem_cons_self)
          · exact .inl h
        · exact .inr (List.mem_cons_of_mem _ h)
  rcases hfold bins _ h with h | h
  · exact absurd h List.not_mem_nil
  · exact h

theorem walkerFromBins_params (activeId : Int32) (binStep : UInt16) (bins : List Bin) :
    (walkerFromBins activeId binStep bins).activeId = activeId ∧
      (walkerFromBins activeId binStep bins).binStep = binStep := by
  have hfold : ∀ (bs : List Bin) (q : BinWalker), q.activeId = activeId ∧ q.binStep = binStep →
      (bs.foldl (fun q b => if b.amountX > 0 ∨ b.amountY > 0 then q.addBin b else q) q).activeId =
          activeId ∧
        (bs.foldl (fun q b => if b.amountX > 0 ∨ b.amountY > 0 then q.addBin b else q) q).binStep =
          binStep := by
    intro bs
    induction bs with
    | nil => exact fun _ h => h
    | cons c bs ih =>
        intro q h
        refine ih _ ?_
        dsimp only
        split
        · exact h
        · exact h
  exact hfold bins _ ⟨rfl, rfl⟩

namespace BinWalker

variable {q : BinWalker} {swapForY : Bool}

/-- What is found at an id is a bin of that id. -/
theorem of_stockAt {id : Int} (h : q.stockAt swapForY id ≠ 0) :
    ∃ b ∈ q.bins, b.id = id ∧
      (if swapForY then b.amountY else b.amountX).toNat = q.stockAt swapForY id := by
  unfold stockAt at h ⊢
  cases hbin : q.binMap id with
  | none =>
      rw [hbin] at h
      exact absurd rfl h
  | some amounts =>
      obtain ⟨b, hb, rfl⟩ := Option.map_eq_some_iff.mp hbin
      have hmem : b ∈ q.bins := List.mem_reverse.mp (List.mem_of_find?_eq_some hb)
      have hid : b.id = id := by simpa using List.find?_some hb
      exact ⟨b, hmem, hid, rfl⟩

theorem end_mem {b? : Option Bin} (hmem : ∀ b ∈ b?, b ∈ q.bins) (hne : b? ≠ none) :
    ∃ b ∈ q.bins, (b?.map (·.id)).getD q.activeId.toInt = b.id := by
  cases b? with
  | none => exact absurd rfl hne
  | some b => exact ⟨b, hmem b rfl, rfl⟩

theorem minId_mem (h : q.bins ≠ []) : ∃ b ∈ q.bins, q.minId = b.id :=
  end_mem (fun _ hb => List.mem_of_mem_head? hb) (by simpa using h)

theorem maxId_mem (h : q.bins ≠ []) : ∃ b ∈ q.bins, q.maxId = b.id :=
  end_mem (fun _ hb => List.mem_of_getLast? hb) (by simpa using h)

/-- No bin is at an end of the ids. -/
def Inside (q : BinWalker) : Prop := ∀ b ∈ q.bins, -2 ^ 31 < b.id ∧ b.id < 2 ^ 31 - 1

theorem Inside.ends (h : q.Inside) (hempty : ¬ q.bins.isEmpty = true) :
    -2 ^ 31 < q.minId ∧ q.maxId < 2 ^ 31 - 1 := by
  have hne : q.bins ≠ [] := fun hnil => hempty (List.isEmpty_iff.mpr hnil)
  obtain ⟨bmin, hbmin, hmin⟩ := minId_mem hne
  obtain ⟨bmax, hbmax, hmax⟩ := maxId_mem hne
  rw [hmin, hmax]
  exact ⟨(h bmin hbmin).1, (h bmax hbmax).2⟩

theorem inRange_activeId (q : BinWalker) : Arith.InRange 32 q.activeId.toInt :=
  ⟨q.activeId.le_toInt, q.activeId.toInt_lt⟩

/-- **A walk fails with an error**, never by an overflow or a loop without end. -/
theorem walk_error {amountIn : UInt64} {feeBps : UInt32} {f : Failure} (hq : q.Inside)
    (h : q.walk swapForY amountIn feeBps = .error f) : ∃ text, f = .error text := by
  unfold walk at h
  split at h
  · cases h
    exact ⟨_, rfl⟩
  · dsimp only at h
    split at h
    · cases h
    · split at h
      · cases h
      · next hempty =>
          obtain ⟨hmin, hmax⟩ := hq.ends hempty
          exact quoteLoop_error hmin hmax _ fits_start (inRange_activeId q) (Nat.lt_succ_self _) h

end BinWalker

section Fee

variable {feeBps : UInt32} (hfee : feeBps.toNat ≤ 10000)
include hfee

/-- A fee of at most the whole. -/
theorem fee_le (n : Nat) : n * feeBps.toNat / 10000 ≤ n :=
  Nat.div_le_of_le_mul (by rw [Nat.mul_comm 10000 n]; exact Nat.mul_le_mul_left n hfee)

theorem afterFee_eq (amountIn : UInt64) :
    BinWalker.afterFee amountIn feeBps =
      amountIn.toNat - amountIn.toNat * feeBps.toNat / 10000 := by
  unfold BinWalker.afterFee
  rw [Arith.trunc_of_lt ((fee_le hfee _).trans_lt amountIn.toNat_lt)]

/-- **What the fee leaves** grows with the input. -/
theorem afterFee_mono {a b : UInt64} (hab : a ≤ b) :
    BinWalker.afterFee a feeBps ≤ BinWalker.afterFee b feeBps := by
  rw [afterFee_eq hfee, afterFee_eq hfee]
  have hle : a.toNat ≤ b.toNat := UInt64.le_iff_toNat_le.mp hab
  obtain ⟨d, hd⟩ := Nat.exists_eq_add_of_le hle
  have hgrow : b.toNat * feeBps.toNat / 10000 ≤ a.toNat * feeBps.toNat / 10000 + d := by
    calc b.toNat * feeBps.toNat / 10000
        = (a.toNat * feeBps.toNat + d * feeBps.toNat) / 10000 := by rw [hd, Nat.add_mul]
      _ ≤ (a.toNat * feeBps.toNat + d * 10000) / 10000 :=
          Nat.div_le_div_right (Nat.add_le_add_left (Nat.mul_le_mul_left d hfee) _)
      _ = a.toNat * feeBps.toNat / 10000 + d := Nat.add_mul_div_right _ _ (by decide)
  omega

end Fee

/-! ## 7. The walk is sound -/

/-- A quote on bins of different ids below the exponent bound, at a fee of at most the whole. -/
structure BinQuote where
  activeId : Int32
  binStep : UInt16
  bins : List Bin
  swapForY : Bool
  feeBps : UInt32
  distinct : (bins.map (·.id)).Nodup
  bounded : ∀ b ∈ bins, b.id.natAbs < maxExponential
  feeLe : feeBps.toNat ≤ 10000

namespace BinQuote

variable (Q : BinQuote)

def walker : BinWalker := walkerFromBins Q.activeId Q.binStep Q.bins

def walk (amountIn : UInt64) : Checked Walk := Q.walker.walk Q.swapForY amountIn Q.feeBps

/-- What a bin holds on the side that is paid out. -/
def outSide (b : Bin) : Nat := (if Q.swapForY then b.amountY else b.amountX).toNat

/-- A bin gives no more than it holds and takes no more than there is, at least what its output
    costs unless it takes all there is. -/
structure FairFill (f : Fill) : Prop where
  bin : ∃ b ∈ Q.bins, b.id = f.id ∧ Q.outSide b = f.maxOut
  price : getPriceFromId f.id Q.binStep = some f.price
  out_le : f.out ≤ f.maxOut
  charged_le : f.charged ≤ f.before
  cost : f.charged = f.before ∨
    f.out * denominator Q.swapForY f.price ≤ f.charged * numerator Q.swapForY f.price

/-- A walk that gives nothing away and loses nothing. -/
structure Sound (amountIn : UInt64) (w : Walk) : Prop where
  fair : ∀ f ∈ w.fills, Q.FairFill f
  ordered : w.fills.Pairwise fun f g => BinWalker.Before Q.swapForY f.id g.id
  spent : w.remainingIn + (w.fills.map (·.charged)).sum +
    amountIn.toNat * Q.feeBps.toNat / 10000 = amountIn.toNat
  totalOut : w.totalOut = min ((w.fills.map (·.out)).sum) (2 ^ 64 - 1)
  totalOut_le : w.totalOut ≤ (w.fills.map (·.maxOut)).sum
  leftover : 0 < w.remainingIn → ∀ f ∈ w.fills, f.out = f.maxOut ∨
    w.remainingIn * numerator Q.swapForY f.price / denominator Q.swapForY f.price = 0

/-- What a quote of these bins promises. -/
structure SoundWalk : Prop where
  /-- A failure is an error of the code: the loop ends, and nothing overflows. -/
  ends : ∀ amountIn failure, Q.walk amountIn = .error failure → ∃ text, failure = .error text
  sound : ∀ amountIn w, Q.walk amountIn = .ok w → Q.Sound amountIn w
  monotone : ∀ a b resultA resultB, a ≤ b →
    Q.walker.quoteExactIn Q.swapForY a Q.feeBps = .ok resultA →
    Q.walker.quoteExactIn Q.swapForY b Q.feeBps = .ok resultB → resultA.1 ≤ resultB.1

variable {Q} {amountIn : UInt64} {w : Walk}

/-- What a charge covers, without its rounding. -/
theorem of_costs_le {swapForY : Bool} {maxOut out charged : Nat} {p : Price}
    (h : (binOffer swapForY maxOut p).costs out ≤ charged) :
    out * denominator swapForY p ≤ charged * numerator swapForY p := by
  have h : (out * denominator swapForY p + (numerator swapForY p - 1)) / numerator swapForY p ≤
      charged := h
  rw [Nat.div_le_iff_le_mul_add_pred (numerator_pos swapForY p)] at h
  rw [Nat.mul_comm charged]
  omega

theorem map_eq_of_records {fills : List Fill} {visits : List (Offer × Nat)}
    (h : List.Forall₂ (Q.walker.Records Q.swapForY) fills visits) {F : Fill → Nat}
    {G : Offer × Nat → Nat} (hFG : ∀ {f v}, Q.walker.Records Q.swapForY f v → F f = G v) :
    fills.map F = visits.map G := by
  induction h with
  | nil => rfl
  | cons hfv _ ih => rw [List.map_cons, List.map_cons, hFG hfv, ih]

theorem exists_of_records {fills : List Fill} {visits : List (Offer × Nat)}
    (h : List.Forall₂ (Q.walker.Records Q.swapForY) fills visits) {f : Fill} (hf : f ∈ fills) :
    ∃ v ∈ visits, Q.walker.Records Q.swapForY f v := by
  induction h with
  | nil => cases hf
  | @cons g v _ _ hgv _ ih =>
      rcases List.mem_cons.mp hf with rfl | hf
      · exact ⟨v, List.mem_cons_self, hgv⟩
      · obtain ⟨v', hv', h⟩ := ih hf
        exact ⟨v', List.mem_cons_of_mem _ hv', h⟩

theorem of_quoteExactIn {result : Nat × Nat × UInt32}
    (h : Q.walker.quoteExactIn Q.swapForY amountIn Q.feeBps = .ok result) :
    ∃ w, Q.walk amountIn = .ok w ∧ result = (w.totalOut, w.binsCrossed, Q.feeBps) := by
  unfold BinWalker.quoteExactIn at h
  cases hw : Q.walker.walk Q.swapForY amountIn Q.feeBps with
  | error f =>
      rw [hw] at h
      cases h
  | ok w =>
      rw [hw] at h
      cases h
      exact ⟨w, hw, rfl⟩

variable (Q) in
theorem inside : Q.walker.Inside := fun b hb => by
  have hid := Q.bounded b (walkerFromBins_mem hb)
  unfold maxExponential at hid
  omega

theorem walked (h : Q.walk amountIn = .ok w) :
    Q.walker.Walked Q.swapForY Q.activeId.toInt (Q.walker.offers Q.swapForY)
      ⟨BinWalker.afterFee amountIn Q.feeBps, 0, 0, Q.activeId.toInt, []⟩ w := by
  have hwalked := BinWalker.walk_ok h
  rw [walker, (walkerFromBins_params _ _ _).1] at hwalked
  exact hwalked

/-- **A recorded visit is a fair fill.** -/
theorem fairFill_of_records {f : Fill} {v : Offer × Nat}
    (h : Q.walker.Records Q.swapForY f v) : Q.FairFill f := by
  obtain ⟨b, hb, hid, hside⟩ := BinWalker.of_stockAt (h.stock.trans_ne h.holds)
  obtain ⟨p, hp, hoffer⟩ := h.offer
  have hprice := h.price
  rw [walker, (walkerFromBins_params _ _ _).2] at hprice
  have hout : f.out = (binOffer Q.swapForY f.maxOut p).out f.before := by
    rw [h.out, h.before, hoffer]
  have hcharged : f.charged = (binOffer Q.swapForY f.maxOut p).charge f.before := by
    rw [h.charged, h.before, hoffer]
  refine ⟨⟨b, walkerFromBins_mem hb, hid, hside.trans h.stock⟩, hprice, ?_, ?_, ?_⟩
  · exact hout.trans_le Offer.out_le_stock
  · exact hcharged.trans_le Offer.charge_le
  · rcases @Offer.costs_out_le_charge (binOffer Q.swapForY f.maxOut p) f.before with h | h
    · exact .inl (hcharged.trans h)
    · rw [← hout, ← hcharged] at h
      rw [hp]
      exact .inr (of_costs_le h)

/-- **A walk is sound**: fill by fill, in its sums and in what it leaves. -/
theorem sound (h : Q.walk amountIn = .ok w) : Q.Sound amountIn w := by
  have hwalked := walked h
  obtain ⟨fills, hfills, hrecords, hordered, _⟩ := hwalked.fills
  rw [List.nil_append] at hfills
  have hcharged : (w.fills.map (·.charged)).sum =
      ((Ladder.visits (Q.walker.offers Q.swapForY) (BinWalker.afterFee amountIn Q.feeBps)).map
        fun v => v.1.charge v.2).sum := by
    rw [hfills, map_eq_of_records hrecords fun h => h.charged]
  have hout : (w.fills.map (·.out)).sum =
      Ladder.total (Q.walker.offers Q.swapForY) (BinWalker.afterFee amountIn Q.feeBps) := by
    rw [hfills, Ladder.total_eq_sum, map_eq_of_records hrecords fun h => h.out]
  have htotal : w.totalOut = min ((w.fills.map (·.out)).sum) (2 ^ 64 - 1) := by
    rw [hwalked.totalOut, hout, Arith.satAdd, Nat.zero_add]
    rfl
  have hfair : ∀ f ∈ w.fills, Q.FairFill f := fun f hf => by
    obtain ⟨v, _, hv⟩ := exists_of_records hrecords (hfills ▸ hf)
    exact fairFill_of_records hv
  refine ⟨hfair, hfills ▸ hordered, ?_, htotal, ?_, fun hleft f hf => ?_⟩
  · have hspent := Ladder.left_add_spent (Q.walker.offers Q.swapForY)
      (BinWalker.afterFee amountIn Q.feeBps)
    have hfee := fee_le Q.feeLe amountIn.toNat
    rw [← hwalked.remainingIn, ← hcharged, afterFee_eq Q.feeLe] at hspent
    omega
  · rw [htotal]
    exact (Nat.min_le_left _ _).trans (List.sum_le_sum fun f hf => (hfair f hf).out_le)
  · obtain ⟨v, hv, hrecord⟩ := exists_of_records hrecords (hfills ▸ hf)
    have hremaining := hwalked.remainingIn
    rw [hremaining] at hleft
    obtain ⟨p, hp, hoffer⟩ := hrecord.offer
    rcases Ladder.drained_or_pays_zero hleft v hv with hdrained | hzero
    · rw [← hrecord.out, hoffer] at hdrained
      exact .inl hdrained
    · rw [hoffer] at hzero
      rw [hremaining, hp]
      exact .inr hzero

/-- **A greater input is never paid less.** -/
theorem monotone {a b : UInt64} {resultA resultB : Nat × Nat × UInt32} (hab : a ≤ b)
    (ha : Q.walker.quoteExactIn Q.swapForY a Q.feeBps = .ok resultA)
    (hb : Q.walker.quoteExactIn Q.swapForY b Q.feeBps = .ok resultB) :
    resultA.1 ≤ resultB.1 := by
  obtain ⟨wa, hwa, hra⟩ := of_quoteExactIn ha
  obtain ⟨wb, hwb, hrb⟩ := of_quoteExactIn hb
  rw [hra, hrb, (walked hwa).totalOut, (walked hwb).totalOut]
  refine Arith.satAdd_mono ?_
  exact Ladder.total_mono BinWalker.worsening_offers (afterFee_mono Q.feeLe hab)

end BinQuote

end IronCrab.Solana.BinWalk

/-
  File:      IronCrab/Solana/BinPrice.lean
  Subject:   THE PRICE OF A BIN (`get_price_from_id` and `pow` of `meteora_bin_walker.rs`): a power
             of `1 + bin_step / 10000` in Q64.64, whose exponent is the id of the bin.

  A `u128` is a `Nat`; the checked operations give `none` where the exact result has no room.

  * `pow_eq` -- no product overflows: the price is a truncated power or its inverse;
  * **`price_mono`** -- a higher bin, a price that is no lower, whatever the truncation does.
-/
import IronCrab.Lib.FixedPower
import Mathlib.Data.Nat.Bitwise
import Mathlib.Data.Int.Order.Basic

namespace IronCrab.Solana.BinWalk

open FixedPower (power)

/-! ## 1. The power -/

/-- `ONE`, 1.0 in Q64.64. -/
def one : Nat := 2 ^ 64

def u128Max : Nat := 2 ^ 128 - 1

/-- `BASIS_POINT_MAX`. -/
def basisPointMax : Nat := 10000

/-- `MAX_EXPONENTIAL`. -/
def maxExponential : Nat := 0x80000

/-- `u128::checked_mul`. -/
def checkedMul (a b : Nat) : Option Nat := if a * b < 2 ^ 128 then some (a * b) else none

/-- `u128::checked_add`. -/
def checkedAdd (a b : Nat) : Option Nat := if a + b < 2 ^ 128 then some (a + b) else none

/-- `u128::checked_shl` by `SCALE_OFFSET`: only the shift is checked, upper bits are lost. -/
def checkedShl (a : Nat) : Nat := a * one % 2 ^ 128

/-- `pow_step!` with the mask of bit `i`; the state is the squared base and the result. -/
def powStep (exp : Nat) (state : Nat × Nat) (i : Nat) : Option (Nat × Nat) := do
  let result ←
    (if exp &&& 2 ^ i > 0 then (checkedMul state.2 state.1).map (· / one) else some state.2)
  let squaredBase ← (checkedMul state.1 state.1).map (· / one)
  some (squaredBase, result)

/-- `pow`. -/
def pow (base : Nat) (exp : Int) : Option Nat :=
  if exp = 0 then some one
  else if exp.natAbs ≥ maxExponential then none
  else do
    let (squaredBase, invert) :=
      if base ≥ one then (u128Max / base, !decide (exp < 0)) else (base, decide (exp < 0))
    let (squaredBase, result) ← (List.range 18).foldlM (powStep exp.natAbs) (squaredBase, one)
    let result ←
      (if exp.natAbs &&& 0x40000 > 0 then (checkedMul result squaredBase).map (· / one)
        else some result)
    if result = 0 then none else some (if invert then u128Max / result else result)

/-- `get_price_from_id`. -/
def getPriceFromId (activeId : Int) (binStep : UInt16) : Option Nat := do
  let base ← checkedAdd one (checkedShl binStep.toNat / basisPointMax)
  pow base activeId

/-! ## 2. Nothing overflows -/

theorem one_pos : 0 < one := by decide

theorem masked_iff (n i : Nat) : n &&& 2 ^ i > 0 ↔ n / 2 ^ i % 2 = 1 := by
  rw [Nat.and_two_pow, Nat.testBit_eq_decide_div_mod_eq]
  have hpow := Nat.two_pow_pos i
  by_cases h : n / 2 ^ i % 2 = 1
  · rw [decide_eq_true h]
    simp [hpow, h]
  · rw [decide_eq_false h]
    simp [h]

theorem checkedMul_of_le {a b : Nat} (ha : a ≤ one) (hb : b < one) :
    checkedMul a b = some (a * b) := by
  refine if_pos ?_
  calc a * b ≤ one * b := Nat.mul_le_mul_right b ha
    _ < one * one := Nat.mul_lt_mul_of_pos_left hb one_pos
    _ = 2 ^ 128 := by decide

/-- A step multiplies where the bit is set, and squares. -/
theorem powStep_eq {exp squared result i : Nat} (hs : squared < one) (hr : result ≤ one) :
    powStep exp (squared, result) i =
      some (FixedPower.mul one squared squared,
        if exp / 2 ^ i % 2 = 1 then FixedPower.mul one result squared else result) := by
  unfold powStep
  dsimp only
  rw [checkedMul_of_le hr hs, checkedMul_of_le hs.le hs]
  by_cases h : exp / 2 ^ i % 2 = 1
  · rw [if_pos ((masked_iff exp i).mpr h), if_pos h]
    rfl
  · rw [if_neg (fun hm => h ((masked_iff exp i).mp hm)), if_neg h]
    rfl

/-- **The steps read the exponent's bits** from the lowest. -/
theorem foldlM_powStep (exp : Nat) : ∀ (count i : Nat) {squared result : Nat}, squared < one →
    result ≤ one →
    ∃ squared' result', squared' < one ∧ result' ≤ one ∧
      (List.range' i count).foldlM (powStep exp) (squared, result) = some (squared', result') ∧
      ∀ bits, power one (count + bits) squared result (exp / 2 ^ i) =
        power one bits squared' result' (exp / 2 ^ (i + count))
  | 0, i, squared, result, hs, hr => ⟨squared, result, hs, hr, rfl, fun bits => by
      rw [Nat.zero_add, Nat.add_zero]⟩
  | count + 1, i, squared, result, hs, hr => by
      have hs' : FixedPower.mul one squared squared < one :=
        (FixedPower.mul_le hs.le).trans_lt hs
      have hr' : (if exp / 2 ^ i % 2 = 1 then FixedPower.mul one result squared else result) ≤
          one := by
        split
        · exact (FixedPower.mul_le hs.le).trans hr
        · exact hr
      obtain ⟨squared', result', h1, h2, h3, h4⟩ := foldlM_powStep exp count (i + 1) hs' hr'
      refine ⟨squared', result', h1, h2, ?_, fun bits => ?_⟩
      · rw [List.range'_succ, List.foldlM_cons, powStep_eq hs hr]
        exact h3
      · have hi : i + (count + 1) = i + 1 + count := by omega
        rw [Nat.add_right_comm, power, Nat.div_div_eq_div_mul, ← Nat.pow_succ, h4 bits, hi]

/-- The power that the price is made of. -/
def truncatedPower (squaredBase n : Nat) : Nat := power one 19 squaredBase one n

theorem inverse_lt_one {base : Nat} (hbase : one ≤ base) : u128Max / base < one := by
  refine Nat.div_lt_of_lt_mul ?_
  calc u128Max < one * one := by decide
    _ ≤ base * one := Nat.mul_le_mul_right one hbase

/-- **The power without its checks**: of a base of at least one, the inverse of the base is raised,
    and the power of a positive exponent inverted back. -/
theorem pow_eq {base : Nat} (hbase : one ≤ base) (exp : Int) :
    pow base exp =
      if exp = 0 then some one
      else if exp.natAbs ≥ maxExponential then none
      else if truncatedPower (u128Max / base) exp.natAbs = 0 then none
      else some (if exp < 0 then truncatedPower (u128Max / base) exp.natAbs
        else u128Max / truncatedPower (u128Max / base) exp.natAbs) := by
  have hs := inverse_lt_one hbase
  obtain ⟨squared, result, hs', hr', hfold, hpower⟩ :=
    foldlM_powStep exp.natAbs 18 0 hs (le_refl one)
  have hlast : truncatedPower (u128Max / base) exp.natAbs =
      if exp.natAbs / 2 ^ 18 % 2 = 1 then FixedPower.mul one result squared else result := by
    have h := hpower 1
    rw [Nat.pow_zero, Nat.div_one, Nat.zero_add] at h
    exact h
  unfold pow
  rw [List.range_eq_range', if_pos hbase, hlast]
  dsimp only
  rw [hfold]
  simp only [Option.bind_eq_bind, Option.bind_some]
  rw [checkedMul_of_le hr' hs']
  by_cases hzero : exp = 0
  · rw [if_pos hzero, if_pos hzero]
  · rw [if_neg hzero, if_neg hzero]
    by_cases hmax : exp.natAbs ≥ maxExponential
    · rw [if_pos hmax, if_pos hmax]
    · rw [if_neg hmax, if_neg hmax]
      have hmask : (exp.natAbs &&& 0x40000 > 0) = (exp.natAbs / 2 ^ 18 % 2 = 1) :=
        propext (masked_iff exp.natAbs 18)
      simp only [hmask]
      by_cases hbit : exp.natAbs / 2 ^ 18 % 2 = 1
      · rw [if_pos hbit, if_pos hbit]
        by_cases hneg : exp < 0
        · simp [hneg, FixedPower.mul]
        · simp [hneg, FixedPower.mul]
      · rw [if_neg hbit, if_neg hbit]
        by_cases hneg : exp < 0
        · simp [hneg]
        · simp [hneg]

/-! ## 3. Higher bins -/

/-- `1 + bin_step / 10000`. -/
def binBase (binStep : UInt16) : Nat := one + checkedShl binStep.toNat / basisPointMax

theorem one_le_binBase (binStep : UInt16) : one ≤ binBase binStep := Nat.le_add_right _ _

theorem getPriceFromId_eq (id : Int) (binStep : UInt16) :
    getPriceFromId id binStep = pow (binBase binStep) id := by
  have hshl : checkedShl binStep.toNat < 2 ^ 128 := Nat.mod_lt _ (Nat.two_pow_pos 128)
  have hadd : checkedAdd one (checkedShl binStep.toNat / basisPointMax) =
      some (binBase binStep) := by
    refine if_pos ?_
    unfold one basisPointMax
    omega
  unfold getPriceFromId
  rw [hadd]
  rfl

theorem truncatedPower_le_one {squared : Nat} (hs : squared < one) (n : Nat) :
    truncatedPower squared n ≤ one := FixedPower.power_le 19 one n hs.le

/-- A power of at least one factor is below one. -/
theorem truncatedPower_lt_one {squared : Nat} (hs : squared < one) {n : Nat} (hn : 0 < n)
    (hmax : n < maxExponential) : truncatedPower squared n < one := by
  have hfirst : truncatedPower squared 1 ≤ squared := by
    calc truncatedPower squared 1
        ≤ FixedPower.mul one one squared :=
          FixedPower.power_le 18 _ 0 ((FixedPower.mul_le hs.le).trans hs.le)
      _ = squared := FixedPower.one_mul one_pos squared
  exact ((FixedPower.power_antitone one_pos hs.le hn hmax).trans hfirst).trans_lt hs

/-- The power of a step. -/
def stepPower (binStep : UInt16) (n : Nat) : Nat :=
  truncatedPower (u128Max / binBase binStep) n

section Step

variable {binStep : UInt16}

theorem stepPower_le_one (n : Nat) : stepPower binStep n ≤ one :=
  truncatedPower_le_one (inverse_lt_one (one_le_binBase binStep)) n

theorem stepPower_lt_one {n : Nat} (hn : 0 < n) (hmax : n < maxExponential) :
    stepPower binStep n < one :=
  truncatedPower_lt_one (inverse_lt_one (one_le_binBase binStep)) hn hmax

theorem stepPower_antitone {m n : Nat} (hmn : m ≤ n) (hmax : n < maxExponential) :
    stepPower binStep n ≤ stepPower binStep m :=
  FixedPower.power_antitone one_pos (inverse_lt_one (one_le_binBase binStep)).le hmn hmax

/-- What a price is: a power below bin 0, its inverse above. -/
theorem price_cases {id : Int} {price : Nat} (h : getPriceFromId id binStep = some price) :
    id = 0 ∧ price = one ∨
      id.natAbs < maxExponential ∧ 0 < stepPower binStep id.natAbs ∧
        (id < 0 ∧ price = stepPower binStep id.natAbs ∨
          0 < id ∧ price = u128Max / stepPower binStep id.natAbs) := by
  rw [getPriceFromId_eq, pow_eq (one_le_binBase binStep)] at h
  split at h
  · next hid =>
      cases h
      exact .inl ⟨hid, rfl⟩
  · next hid =>
      split at h
      · cases h
      · next hmax =>
          split at h
          · cases h
          · next hzero =>
              cases h
              refine .inr ⟨Nat.lt_of_not_le hmax, Nat.pos_of_ne_zero hzero, ?_⟩
              split
              · next hneg => exact .inl ⟨hneg, rfl⟩
              · exact .inr ⟨by omega, rfl⟩

/-- A price above bin 0 is at least one. -/
theorem one_le_inverse {n : Nat} (hpos : 0 < stepPower binStep n)
    (hlt : stepPower binStep n < one) : one ≤ u128Max / stepPower binStep n := by
  rw [Nat.le_div_iff_mul_le hpos]
  calc one * stepPower binStep n ≤ one * (one - 1) := Nat.mul_le_mul_left one (by omega)
    _ ≤ u128Max := by decide

/-- **A price is positive.** -/
theorem price_pos {id : Int} {price : Nat} (h : getPriceFromId id binStep = some price) :
    0 < price := by
  obtain ⟨_, rfl⟩ | ⟨hmax, hpos, ⟨_, rfl⟩ | ⟨hid, rfl⟩⟩ := price_cases h
  · exact one_pos
  · exact hpos
  · exact one_pos.trans_le (one_le_inverse hpos (stepPower_lt_one (by omega) hmax))

/-- **A higher bin has no lower price.** -/
theorem price_mono {i j : Int} {p q : Nat} (hij : i ≤ j) (hp : getPriceFromId i binStep = some p)
    (hq : getPriceFromId j binStep = some q) : p ≤ q := by
  have hleft : i ≤ 0 → p ≤ one := fun hi => by
    obtain ⟨_, rfl⟩ | ⟨_, _, ⟨_, rfl⟩ | ⟨hid, _⟩⟩ := price_cases hp
    · exact le_rfl
    · exact stepPower_le_one _
    · omega
  have hright : 0 ≤ j → one ≤ q := fun hj => by
    obtain ⟨_, rfl⟩ | ⟨hmax, hpos, ⟨hid, _⟩ | ⟨hid, rfl⟩⟩ := price_cases hq
    · exact le_rfl
    · omega
    · exact one_le_inverse hpos (stepPower_lt_one (by omega) hmax)
  obtain ⟨hi, rfl⟩ | ⟨himax, hipos, ⟨hi, hpi⟩ | ⟨hi, hpi⟩⟩ := price_cases hp
  · exact hright (hi ▸ hij)
  · obtain ⟨hj, _⟩ | ⟨hjmax, hjpos, ⟨hj, hqj⟩ | ⟨hj, hqj⟩⟩ := price_cases hq
    · exact (hleft hi.le).trans (hright hj.ge)
    · rw [hpi, hqj]
      exact stepPower_antitone (by omega) himax
    · exact (hleft hi.le).trans (hright hj.le)
  · obtain ⟨hj, _⟩ | ⟨hjmax, hjpos, ⟨hj, hqj⟩ | ⟨hj, hqj⟩⟩ := price_cases hq
    · omega
    · omega
    · rw [hpi, hqj]
      exact Nat.div_le_div_left (stepPower_antitone (by omega) hjmax) hjpos

end Step

end IronCrab.Solana.BinWalk

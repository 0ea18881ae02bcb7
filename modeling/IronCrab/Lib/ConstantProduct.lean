/-
  File:      IronCrab/Lib/ConstantProduct.lean
  Subject:   SWAPS ALONG `x * y = k` IN WHOLE NUMBERS. Nothing here names a program.

  An input is a fraction `num / den`, as a fee may leave it.

  * `Fair` -- an output is at most that of the curve; then it is less than what is there
    (`Fair.lt`), and the product of the reserves does not fall (`Fair.product_le`);
  * `fair_quotient` -- the curve's output rounded down is fair;
  * `fair_difference_iff` -- what a reserve loses when its new value is rounded down is fair only
    where nothing is rounded.
-/
import Mathlib.Algebra.Order.Ring.Nat
import Mathlib.Tactic.Ring

namespace ConstantProduct

variable {reserveIn reserveOut num den out x : Nat}

/-- The output is at most `reserveOut * x / (reserveIn + x)` for `x = num / den`. -/
def Fair (reserveIn reserveOut num den out : Nat) : Prop :=
  out * (reserveIn * den + num) ≤ reserveOut * num

theorem Fair.lt (h : Fair reserveIn reserveOut num den out) (hin : 0 < reserveIn * den)
    (hout : 0 < reserveOut) : out < reserveOut := by
  refine Nat.lt_of_not_le fun hle => ?_
  have hmore : reserveOut * (reserveIn * den + num) ≤ out * (reserveIn * den + num) :=
    Nat.mul_le_mul_right _ hle
  have hpos : 0 < reserveOut * (reserveIn * den) := Nat.mul_pos hout hin
  have hall : out * (reserveIn * den + num) ≤ reserveOut * num := h
  rw [Nat.mul_add] at hmore
  omega

/-- **A fair swap does not lower the product of the reserves.** -/
theorem Fair.product_le (h : Fair reserveIn reserveOut num den out) :
    reserveIn * reserveOut * den ≤ (reserveIn * den + num) * (reserveOut - out) := by
  have hall : out * (reserveIn * den + num) ≤ reserveOut * num := h
  have e : (reserveIn * den + num) * reserveOut =
      reserveIn * reserveOut * den + reserveOut * num := by ring
  rw [Nat.mul_sub, e, Nat.mul_comm _ out]
  omega

/-- **The curve's output rounded down is fair.** -/
theorem fair_quotient :
    Fair reserveIn reserveOut num den (reserveOut * num / (reserveIn * den + num)) :=
  Nat.div_mul_le_self _ _

/-- A reserve's loss, its new value rounded down, is the curve's output rounded up. -/
theorem difference_mul :
    (reserveOut - reserveIn * reserveOut / (reserveIn + x)) * (reserveIn + x) =
      reserveOut * x + reserveIn * reserveOut % (reserveIn + x) := by
  have hdm := Nat.div_add_mod (reserveIn * reserveOut) (reserveIn + x)
  have e : reserveOut * (reserveIn + x) = reserveIn * reserveOut + reserveOut * x := by ring
  have hle : reserveIn * reserveOut / (reserveIn + x) ≤ reserveOut := by
    refine Nat.div_le_of_le_mul (Nat.mul_le_mul_right reserveOut ?_)
    exact Nat.le_add_right _ _
  rw [Nat.sub_mul, e, Nat.mul_comm _ (reserveIn + x)]
  omega

/-- **A reserve's loss is fair only where its new value is exact.** -/
theorem fair_difference_iff :
    Fair reserveIn reserveOut x 1 (reserveOut - reserveIn * reserveOut / (reserveIn + x)) ↔
      reserveIn + x ∣ reserveIn * reserveOut := by
  unfold Fair
  rw [Nat.mul_one, difference_mul, Nat.dvd_iff_mod_eq_zero]
  omega

end ConstantProduct

/-
  File:      IronCrab/Lib/FixedPower.lean
  Subject:   POWERS IN FIXED POINT, rounded down at every product. Nothing here names a program.

  A power is built from the lowest bit of its exponent: the base is squared for every bit and joins
  the product where the bit is set. Rounding makes the result inexact; of a base of at most one it
  still never grows with the exponent.

  * `power_le` -- a power is at most what it started from;
  * **`power_antitone`** -- a greater exponent, a power that is no greater.
-/
import Mathlib.Order.Monotone.Basic
import Mathlib.Algebra.GroupWithZero.Nat
import Mathlib.Algebra.Order.Group.Nat

namespace FixedPower

variable (one : Nat)

/-- A product in fixed point. -/
def mul (x y : Nat) : Nat := x * y / one

/-- The power of `n`, of which `bits` bits are read; `square` is the base to the weight of the
    lowest bit. -/
def power : Nat → Nat → Nat → Nat → Nat
  | 0, _, result, _ => result
  | bits + 1, square, result, n =>
      power bits (mul one square square) (if n % 2 = 1 then mul one result square else result)
        (n / 2)

variable {one}

theorem mul_mono {x x' y y' : Nat} (hx : x ≤ x') (hy : y ≤ y') : mul one x y ≤ mul one x' y' :=
  Nat.div_le_div_right (Nat.mul_le_mul hx hy)

theorem mul_le {x y : Nat} (hy : y ≤ one) : mul one x y ≤ x :=
  Nat.div_le_of_le_mul (by rw [Nat.mul_comm one x]; exact Nat.mul_le_mul_left x hy)

theorem one_mul (hone : 0 < one) (y : Nat) : mul one one y = y := Nat.mul_div_cancel_left y hone

theorem power_mono : ∀ (bits square : Nat) {x y : Nat} (n : Nat), x ≤ y →
    power one bits square x n ≤ power one bits square y n
  | 0, _, _, _, _, h => h
  | bits + 1, square, x, y, n, h => by
      unfold power
      refine power_mono bits _ _ ?_
      split
      · exact mul_mono h le_rfl
      · exact h

theorem power_le : ∀ (bits : Nat) {square : Nat} (x n : Nat), square ≤ one →
    power one bits square x n ≤ x
  | 0, _, _, _, _ => le_rfl
  | bits + 1, square, x, n, hs => by
      unfold power
      refine (power_le bits _ _ ((mul_le hs).trans hs)).trans ?_
      split
      · exact mul_le hs
      · exact le_rfl

/-- One more in the exponent, started from one, is at most the power started from the base. -/
theorem power_succ_le (hone : 0 < one) : ∀ (bits : Nat) {square y : Nat} (n : Nat),
    square ≤ one → square ≤ y → n + 1 < 2 ^ bits →
      power one bits square one (n + 1) ≤ power one bits square y n
  | 0, _, _, n, _, _, h => by
      rw [Nat.pow_zero] at h
      omega
  | bits + 1, square, y, n, hs, hy, h => by
      have hsquare : mul one square square ≤ one := (mul_le hs).trans hs
      unfold power
      rcases Nat.mod_two_eq_zero_or_one n with heven | hodd
      · have hnext : (n + 1) % 2 = 1 := by omega
        have hhalf : (n + 1) / 2 = n / 2 := by omega
        rw [if_pos hnext, if_neg (by omega), hhalf, one_mul hone]
        exact power_mono bits _ _ hy
      · -- the carry goes to the next bit
        have hnext : ¬ (n + 1) % 2 = 1 := by omega
        have hhalf : (n + 1) / 2 = n / 2 + 1 := by omega
        rw [if_neg hnext, if_pos hodd, hhalf]
        refine power_succ_le hone bits _ hsquare (mul_mono hy le_rfl) ?_
        rw [Nat.pow_succ] at h
        omega

/-- **A greater exponent gives no greater power.** -/
theorem power_antitone (hone : 0 < one) {bits square : Nat} (hs : square ≤ one) {m n : Nat}
    (hmn : m ≤ n) (hn : n < 2 ^ bits) :
    power one bits square one n ≤ power one bits square one m := by
  induction n, hmn using Nat.le_induction with
  | base => exact le_rfl
  | succ n hmn ih =>
      exact (power_succ_le hone bits n hs hs hn).trans (ih (by omega))

end FixedPower

/-
  File:      IronCrab/Lib/Floating.lean
  Subject:   FLOATING-POINT NUMBERS THAT ARE NEITHER NaN NOR INFINITE. Nothing here names a program.

  A format is an ordered set of rational values with a rounding onto it. Every operation is the
  exact one, rounded once; a power is the format's own (its rounding is not specified), of which
  only monotonicity is known.

  * `mul`, `add`, `sub`, `div`, `abs`, `nearest`, `lit`, `ofNat` -- the operations and the literals;
  * `mul_mono_right`, `lit_mono` -- rounding keeps order;
  * `clamp`, `le_clamp`, `clamp_le` -- a value brought between two bounds;
  * the rationals are a format that never rounds.
-/
import Mathlib.Algebra.Order.Field.Rat
import Mathlib.Algebra.Order.Ring.Pow
import Mathlib.Tactic.Positivity
import Mathlib.Data.Rat.Floor

/-- **A floating-point format**, without its NaN and its infinities. -/
class Floating (F : Type) extends LinearOrder F where
  /-- The rational number a float stands for. -/
  value : F → Rat
  /-- The float of a rational number. -/
  round : Rat → F
  /-- The power by an exponent that is not negative. -/
  powi : F → Nat → F
  /-- The greatest and the least finite float. -/
  greatest : F
  least : F
  value_le : ∀ x y, x ≤ y ↔ value x ≤ value y
  round_mono : ∀ p q, p ≤ q → round p ≤ round q
  round_value : ∀ x, round (value x) = x
  value_round_zero : value (round 0) = 0
  powi_mono : ∀ x y n, 0 ≤ value x → x ≤ y → powi x n ≤ powi y n

namespace Floating

variable {F : Type} [Floating F]

/-- A literal of the source. -/
def lit (q : Rat) : F := round q

/-- A conversion from an integer type. -/
def ofInt (n : Int) : F := round n

def ofNat (n : Nat) : F := round n

def add (x y : F) : F := round (value x + value y)

def sub (x y : F) : F := round (value x - value y)

def mul (x y : F) : F := round (value x * value y)

def div (x y : F) : F := round (value x / value y)

def abs (x : F) : F := round |value x|

/-- `x.round()` as an integer: to the nearest one, a half away from zero. -/
def nearest (x : F) : Int :=
  if 0 ≤ value x then ⌊value x + 1 / 2⌋ else -⌊-value x + 1 / 2⌋

/-- `x.clamp(lo, hi)`. -/
def clamp (lo hi x : F) : F := if x < lo then lo else if hi < x then hi else x

theorem lit_mono {p q : Rat} (h : p ≤ q) : (lit p : F) ≤ lit q := round_mono p q h

theorem value_lit_zero : value (lit 0 : F) = 0 := value_round_zero

theorem value_nonneg {x : F} : 0 ≤ value x ↔ lit 0 ≤ x := by
  rw [value_le, value_lit_zero]

theorem mul_mono_right {x y z : F} (hz : 0 ≤ value z) (h : x ≤ y) : mul z x ≤ mul z y :=
  round_mono _ _ (mul_le_mul_of_nonneg_left ((value_le x y).mp h) hz)

theorem value_mul_nonneg {x y : F} (hx : 0 ≤ value x) (hy : 0 ≤ value y) : 0 ≤ value (mul x y) :=
  value_nonneg.mpr (round_mono _ _ (mul_nonneg hx hy))

theorem le_clamp {lo hi x : F} (h : lo ≤ hi) : lo ≤ clamp lo hi x := by
  unfold clamp
  split
  · exact le_refl lo
  · split
    · exact h
    · exact not_lt.mp ‹_›

theorem clamp_le {lo hi x : F} (h : lo ≤ hi) : clamp lo hi x ≤ hi := by
  unfold clamp
  split
  · exact h
  · split
    · exact le_refl hi
    · exact not_lt.mp ‹_›

/-- **The rationals are a format that never rounds**, with the extremes of the usual one. -/
instance : Floating Rat where
  value x := x
  round q := q
  powi x n := x ^ n
  greatest := 2 ^ 1024 - 2 ^ 971
  least := -(2 ^ 1024 - 2 ^ 971)
  value_le _ _ := Iff.rfl
  round_mono _ _ h := h
  round_value _ := rfl
  value_round_zero := rfl
  powi_mono _ _ n hx h := pow_le_pow_left₀ hx h n

end Floating

/-
  File:      IronCrab/Lib/Arith.lean
  Subject:   MACHINE ARITHMETIC READ AS NUMBERS. Nothing here names a program.

  A machine integer is read as the number it holds. An operation whose exact result leaves the type
  panics (`none`) in a build with overflow checks and wraps in one without: `checks` says which.

  * `fit`, `add`, `sub`, `mul` -- unsigned of `w` bits; `fit_checked` says when nothing overflows;
  * `trunc`, `truncInt` -- the casts that drop the upper bits;
  * `satAdd`, `satMul` -- saturating; the saturating difference is that of `Nat`;
  * `fitInt` -- signed of `w` bits.
-/
import Mathlib.Algebra.Group.Int.Defs
import Mathlib.Algebra.GroupWithZero.Nat
import Mathlib.Data.Int.DivMod

namespace Arith

variable (checks : Bool) (w : Nat)

/-! ## 1. Unsigned -/

/-- The greatest number of `w` bits. -/
def maxU : Nat := 2 ^ w - 1

/-- The exact result, if the type holds it. -/
def fit (n : Nat) : Option Nat :=
  if n < 2 ^ w then some n else if checks then none else some (n % 2 ^ w)

def add (a b : Nat) : Option Nat := fit checks w (a + b)

def mul (a b : Nat) : Option Nat := fit checks w (a * b)

def sub (a b : Nat) : Option Nat :=
  if b ≤ a then some (a - b) else if checks then none else some (a + 2 ^ w - b)

/-- `as`, to an unsigned type. -/
def trunc (n : Nat) : Nat := n % 2 ^ w

def satAdd (a b : Nat) : Nat := min (a + b) (maxU w)

def satMul (a b : Nat) : Nat := min (a * b) (maxU w)

variable {checks w}

theorem fit_of_lt {n : Nat} (h : n < 2 ^ w) : fit checks w n = some n := if_pos h

theorem fit_of_le {n : Nat} (h : 2 ^ w ≤ n) :
    fit checks w n = if checks then none else some (n % 2 ^ w) :=
  if_neg (Nat.not_lt_of_le h)

/-- With the checks an operation gives a result exactly if nothing overflows. -/
theorem fit_checked {n m : Nat} : fit true w n = some m ↔ n < 2 ^ w ∧ n = m := by
  unfold fit
  by_cases h : n < 2 ^ w
  · rw [if_pos h]
    exact ⟨fun e => ⟨h, Option.some.inj e⟩, fun e => congrArg some e.2⟩
  · rw [if_neg h, if_pos rfl]
    constructor
    · intro e
      cases e
    · intro e
      exact absurd e.1 h

theorem trunc_of_lt {n : Nat} (h : n < 2 ^ w) : trunc w n = n := Nat.mod_eq_of_lt h

theorem satAdd_le_maxU (a b : Nat) : satAdd w a b ≤ maxU w := Nat.min_le_right _ _

theorem satAdd_zero {a : Nat} (h : a ≤ maxU w) : satAdd w a 0 = a := Nat.min_eq_left h

theorem satAdd_satAdd (a b c : Nat) : satAdd w (satAdd w a b) c = satAdd w a (b + c) := by
  unfold satAdd
  omega

theorem satAdd_mono {a b c : Nat} (h : b ≤ c) : satAdd w a b ≤ satAdd w a c := by
  unfold satAdd
  omega

/-! ## 2. Signed -/

variable (checks w)

/-- `as`, to a signed type. -/
def truncInt (z : Int) : Int := z.bmod (2 ^ w)

/-- The numbers of a signed type. -/
def InRange (z : Int) : Prop := -2 ^ (w - 1) ≤ z ∧ z < 2 ^ (w - 1)

instance (z : Int) : Decidable (InRange w z) := inferInstanceAs (Decidable (_ ∧ _))

def fitInt (z : Int) : Option Int :=
  if InRange w z then some z else if checks then none else some (truncInt w z)

variable {checks w}

theorem truncInt_of_inRange {z : Int} (h : InRange (w + 1) z) : truncInt (w + 1) z = z := by
  obtain ⟨hlo, hhi⟩ := h
  rw [Nat.add_sub_cancel] at hlo hhi
  have hpow : ((2 ^ (w + 1) : Nat) : Int) = 2 ^ w * 2 := by
    rw [Nat.pow_succ, Int.natCast_mul, Int.natCast_pow]
    rfl
  refine Int.bmod_eq_of_le_mul_two ?_ ?_
  · omega
  · omega

theorem fitInt_of_inRange {z : Int} (h : InRange w z) : fitInt checks w z = some z := if_pos h

theorem fitInt_checked {z y : Int} : fitInt true w z = some y ↔ InRange w z ∧ z = y := by
  unfold fitInt
  by_cases h : InRange w z
  · rw [if_pos h]
    exact ⟨fun e => ⟨h, Option.some.inj e⟩, fun e => congrArg some e.2⟩
  · rw [if_neg h, if_pos rfl]
    constructor
    · intro e
      cases e
    · intro e
      exact absurd e.1 h

end Arith

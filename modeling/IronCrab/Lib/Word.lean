/-
  File:      IronCrab/Lib/Word.lean
  Subject:   64-BIT WORDS READ AS NUMBERS. Nothing here names a program.

  A counter kept in a `u64` is read as the natural number `UInt64.toNat`. Three families of
  operations act on such counters, and each gets its reading once:

  * `+=` and `-=`, which are exact as long as the mathematical result is a `u64`
    (`toNat_add_exact`, `toNat_sub_exact`) and wrap otherwise; `AddOverflows` is the
    decidable side condition whose failure makes `+=` exact;
  * the saturating operations `satAdd`, `satSub`, which are total (`toNat_satAdd`,
    `toNat_satSub`);
  * `.sum()` over a list of words (`wrapSum`), which is exact as long as the exact sum
    `natSum` fits (`toNat_wrapSum`).
-/
import Mathlib.Algebra.BigOperators.Group.List.Basic
import Mathlib.Algebra.GroupWithZero.Nat
import Mathlib.Data.Nat.Basic

namespace Word

/-- The number of `u64` values: the first number a word cannot hold. -/
def size : Nat := 2 ^ 64

/-! ## 1. Plain arithmetic -/

/-- `a += b` leaves the range of `u64`. -/
def AddOverflows (a b : UInt64) : Prop := size ≤ a.toNat + b.toNat

instance (a b : UInt64) : Decidable (AddOverflows a b) :=
  inferInstanceAs (Decidable (_ ≤ _))

theorem not_addOverflows {a b : UInt64} (h : a.toNat + b.toNat < size) : ¬ AddOverflows a b :=
  Nat.not_le_of_lt h

theorem toNat_add_exact {a b : UInt64} (h : a.toNat + b.toNat < size) :
    (a + b).toNat = a.toNat + b.toNat := by
  rw [UInt64.toNat_add]
  exact Nat.mod_eq_of_lt h

theorem toNat_sub_exact {a b : UInt64} (h : b.toNat ≤ a.toNat) :
    (a - b).toNat = a.toNat - b.toNat :=
  UInt64.toNat_sub_of_le a b (UInt64.le_iff_toNat_le.mpr h)

/-! ## 2. Saturating arithmetic -/

/-- `a.saturating_add(b)`. -/
def satAdd (a b : UInt64) : UInt64 :=
  if AddOverflows a b then UInt64.ofNat (size - 1) else a + b

/-- `a.saturating_sub(b)`. -/
def satSub (a b : UInt64) : UInt64 := if b ≤ a then a - b else 0

@[simp] theorem toNat_satAdd (a b : UInt64) :
    (satAdd a b).toNat = min (a.toNat + b.toNat) (size - 1) := by
  unfold satAdd
  by_cases h : AddOverflows a b
  · have hs : size ≤ a.toNat + b.toNat := h
    rw [if_pos h, Nat.min_eq_right (by unfold size at hs ⊢; omega)]
    rfl
  · have hs : a.toNat + b.toNat < size := Nat.lt_of_not_le h
    rw [if_neg h, toNat_add_exact hs, Nat.min_eq_left (by omega)]

@[simp] theorem toNat_satSub (a b : UInt64) : (satSub a b).toNat = a.toNat - b.toNat := by
  unfold satSub
  by_cases h : b ≤ a
  · rw [if_pos h, toNat_sub_exact (UInt64.le_iff_toNat_le.mp h)]
  · have hs : a.toNat < b.toNat := by
      rw [UInt64.le_iff_toNat_le] at h
      omega
    rw [if_neg h]
    exact (Nat.sub_eq_zero_of_le (Nat.le_of_lt hs)).symm

/-- Below the range's end a saturating sum is the plain sum. -/
theorem satAdd_eq_add {a b : UInt64} (h : a.toNat + b.toNat < size) : satAdd a b = a + b := by
  unfold satAdd
  exact if_neg (Nat.not_le_of_lt h)

/-! ## 3. Sums of words -/

/-- The exact sum of a list of words. -/
def natSum (l : List UInt64) : Nat := (l.map UInt64.toNat).sum

/-- `.sum()` over `u64`s. -/
def wrapSum : List UInt64 → UInt64
  | [] => 0
  | a :: l => a + wrapSum l

@[simp] theorem natSum_nil : natSum [] = 0 := rfl

@[simp] theorem natSum_cons (a : UInt64) (l : List UInt64) :
    natSum (a :: l) = a.toNat + natSum l := rfl

/-- A machine sum is the exact sum modulo the word size. -/
theorem toNat_wrapSum_mod : ∀ l : List UInt64, (wrapSum l).toNat = natSum l % size
  | [] => rfl
  | a :: l => by
      show (a + wrapSum l).toNat = (a.toNat + natSum l) % size
      rw [UInt64.toNat_add, toNat_wrapSum_mod l]
      exact Nat.add_mod_mod _ _ _

/-- **What a machine sum takes out of a word and the exact sum puts back** gives the larger of
    the two exactly when the sum did not wrap, or wrapped to no less than the word. -/
theorem sub_mod_add_eq_max_iff {x n : Nat} (hx : x < size) :
    x - n % size + n = max x n ↔ n < size ∨ x ≤ n % size := by
  unfold size at hx ⊢
  omega

/-- A machine sum is the exact sum as long as the exact sum is a `u64`. -/
theorem toNat_wrapSum {l : List UInt64} (h : natSum l < size) : (wrapSum l).toNat = natSum l := by
  rw [toNat_wrapSum_mod, Nat.mod_eq_of_lt h]

/-- The exact sum over the entries that pass a test. -/
theorem natSum_filter_map {A : Type} (p : A → Bool) (f : A → UInt64) (l : List A) :
    natSum ((l.filter p).map f) = (l.map fun a => if p a then (f a).toNat else 0).sum := by
  induction l with
  | nil => rfl
  | cons a l ih =>
      rw [List.map_cons, List.sum_cons, ← ih]
      cases hp : p a with
      | true =>
          rw [List.filter_cons_of_pos hp]
          rfl
      | false =>
          rw [List.filter_cons_of_neg (by rw [hp]; exact Bool.false_ne_true)]
          exact (Nat.zero_add _).symm

end Word

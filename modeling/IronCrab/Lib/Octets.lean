/-
  File:      IronCrab/Lib/Octets.lean
  Subject:   STRINGS OF BYTES: little-endian numbers and rows of data. Nothing here names a program.

  * `toNat_ofNat`, `toInt_ofInt` -- numbers in a fixed number of bytes, unsigned and in two's
    complement;
  * `cut_append` -- a part of a string by its offsets;
  * **`readRows_eq`** -- rows that are read one after another, each as wide as its slot says, stand
    at the sums of the widths before them;
  * `rowAt_flatMap` -- and are found again where they were written.
-/
import Mathlib.Data.Nat.Digits.Defs
import Mathlib.Algebra.BigOperators.Group.Finset.Basic
import Mathlib.Algebra.Order.Group.Nat

namespace Octets

/-! ## 1. Numbers -/

/-- The number of some bytes, the least significant first. -/
def toNat (bytes : List UInt8) : Nat := Nat.ofDigits 256 (bytes.map UInt8.toNat)

/-- A number in so many bytes; what does not fit is dropped. -/
def ofNat : Nat → Nat → List UInt8
  | 0, _ => []
  | width + 1, n => UInt8.ofNat n :: ofNat width (n / 256)

@[simp] theorem length_ofNat (width n : Nat) : (ofNat width n).length = width := by
  induction width generalizing n with
  | zero => rfl
  | succ width ih => simp [ofNat, ih]

theorem toNat_cons (byte : UInt8) (bytes : List UInt8) :
    toNat (byte :: bytes) = byte.toNat + 256 * toNat bytes := by
  unfold toNat
  rw [List.map_cons, Nat.ofDigits_cons]

theorem toNat_ofNat (width n : Nat) : toNat (ofNat width n) = n % 256 ^ width := by
  induction width generalizing n with
  | zero => simp [ofNat, toNat, Nat.mod_one]
  | succ width ih =>
      have hbyte : (UInt8.ofNat n).toNat = n % 256 := by simp
      rw [ofNat, toNat_cons, ih, hbyte, pow_succ', Nat.mod_mul]

theorem toNat_ofNat_of_lt {width n : Nat} (h : n < 256 ^ width) : toNat (ofNat width n) = n := by
  rw [toNat_ofNat, Nat.mod_eq_of_lt h]

/-- The number of some bytes in two's complement. -/
def toInt (width : Nat) (bytes : List UInt8) : Int := (toNat bytes : Int).bmod (256 ^ width)

/-- A number in two's complement. -/
def ofInt (width : Nat) (z : Int) : List UInt8 := ofNat width (z % (256 ^ width : Nat)).toNat

@[simp] theorem length_ofInt (width : Nat) (z : Int) : (ofInt width z).length = width :=
  length_ofNat _ _

theorem pow_width {width : Nat} (h : 0 < width) : 256 ^ width = 2 * 2 ^ (8 * width - 1) := by
  rw [← pow_succ', Nat.sub_add_cancel (by omega), pow_mul]
  rfl

theorem toInt_bounds {width : Nat} (h : 0 < width) (bytes : List UInt8) :
    -2 ^ (8 * width - 1) ≤ toInt width bytes ∧ toInt width bytes < 2 ^ (8 * width - 1) := by
  have hpos : 0 < 256 ^ width := Nat.pow_pos (by decide)
  have hlow := Int.le_bmod (x := (toNat bytes : Int)) hpos
  have hhigh := Int.bmod_lt (x := (toNat bytes : Int)) hpos
  have hpow : ((2 ^ (8 * width - 1) : Nat) : Int) = 2 ^ (8 * width - 1) := Nat.cast_pow _ _
  unfold toInt
  rw [← hpow]
  rw [pow_width h] at hlow hhigh ⊢
  omega

/-- **A number in two's complement reads back.** -/
theorem toInt_ofInt {width : Nat} (h : 0 < width) {z : Int} (hlow : -2 ^ (8 * width - 1) ≤ z)
    (hhigh : z < 2 ^ (8 * width - 1)) : toInt width (ofInt width z) = z := by
  have hpow : ((2 ^ (8 * width - 1) : Nat) : Int) = 2 ^ (8 * width - 1) := Nat.cast_pow _ _
  have hwidth := pow_width h
  have hpos : 0 < ((256 ^ width : Nat) : Int) := by
    exact_mod_cast Nat.pow_pos (n := width) (show 0 < 256 by decide)
  have hnonneg := Int.emod_nonneg z hpos.ne'
  have hlt := Int.emod_lt_of_pos z hpos
  have hfits : (z % ((256 ^ width : Nat) : Int)).toNat < 256 ^ width := by omega
  unfold toInt ofInt
  rw [toNat_ofNat_of_lt hfits, Int.toNat_of_nonneg hnonneg, Int.emod_bmod]
  exact Int.bmod_eq_of_le (by omega) (by omega)

/-! ## 2. Parts of a string -/

/-- The bytes between two offsets. -/
def cut (bytes : List UInt8) (start stop : Nat) : List UInt8 :=
  (bytes.drop start).take (stop - start)

/-- **A part stands where what is before it ends.** -/
theorem cut_append (before part after : List UInt8) :
    cut (before ++ (part ++ after)) before.length (before.length + part.length) = part := by
  simp [cut]

/-! ## 3. Rows -/

section Rows

variable {A : Type} (row : Nat → List UInt8 → Option (A × Nat)) (bytes : List UInt8)

/-- One more row: it starts at the offset and says how many bytes it takes. -/
def readRow (s : Nat × List A) (slot : Nat) : Option (Nat × List A) :=
  (row slot (bytes.drop s.1)).map fun read => (s.1 + read.2, s.2 ++ [read.1])

/-- The rows of some slots, one after another from an offset. -/
def readRows (slots : List Nat) (start : Nat) : Option (Nat × List A) :=
  slots.foldlM (readRow row bytes) (start, [])

variable {row bytes} {width needs : Nat → Nat} {value : Nat → List UInt8 → A}

/-- Where the row of a slot stands. -/
def rowAt (width : Nat → Nat) (start slot : Nat) : Nat := start + ∑ j ∈ Finset.range slot, width j

@[simp] theorem rowAt_zero (width : Nat → Nat) (start : Nat) : rowAt width start 0 = start := by
  simp [rowAt]

theorem rowAt_add (width : Nat → Nat) (start more slot : Nat) :
    rowAt width (start + more) slot = start + rowAt width more slot := Nat.add_assoc _ _ _

theorem rowAt_succ (width : Nat → Nat) (start slot : Nat) :
    rowAt width start (slot + 1) = rowAt width start slot + width slot := by
  simp [rowAt, Finset.sum_range_succ]
  omega

/-- A row as wide as its slot says: it is refused when fewer bytes are left than it needs. -/
def Measured (row : Nat → List UInt8 → Option (A × Nat)) (width needs : Nat → Nat)
    (value : Nat → List UInt8 → A) : Prop :=
  ∀ slot rest, row slot rest =
    if needs slot ≤ rest.length then some (value slot rest, width slot) else none

/-- **The rows of the slots from zero on** stand at the sums of the widths before them, and are
read when each of them has the bytes it needs. -/
theorem readRows_eq (hrow : Measured row width needs value) (start : Nat) : ∀ n : Nat,
    readRows row bytes (List.range n) start =
      if ∀ slot < n, needs slot ≤ (bytes.drop (rowAt width start slot)).length then
        some (rowAt width start n,
          (List.range n).map fun slot => value slot (bytes.drop (rowAt width start slot)))
      else none
  | 0 => by simp [readRows]
  | n + 1 => by
      have ih := readRows_eq hrow start n
      unfold readRows at ih ⊢
      rw [List.range_succ, List.foldlM_append, ih]
      by_cases hbefore : ∀ slot < n, needs slot ≤ (bytes.drop (rowAt width start slot)).length
      · rw [if_pos hbefore]
        change ([n].foldlM (readRow row bytes) _ : Option (Nat × List A)) = _
        rw [List.foldlM_cons, readRow, hrow]
        by_cases hlast : needs n ≤ (bytes.drop (rowAt width start n)).length
        · have hall : ∀ slot < n + 1,
              needs slot ≤ (bytes.drop (rowAt width start slot)).length := by
            intro slot hslot
            rcases Nat.lt_succ_iff_lt_or_eq.mp hslot with hlt | rfl
            · exact hbefore slot hlt
            · exact hlast
          rw [if_pos hlast, if_pos hall, rowAt_succ, List.map_append]
          rfl
        · rw [if_neg hlast, if_neg fun hall => hlast (hall n n.lt_succ_self)]
          rfl
      · rw [if_neg hbefore, if_neg fun hall => hbefore fun slot hslot => hall slot (by omega)]
        rfl

theorem length_written {write : Nat → List UInt8} (hwidth : ∀ slot, (write slot).length = width slot)
    (before : List UInt8) (n : Nat) :
    (before ++ (List.range n).flatMap write).length = rowAt width before.length n := by
  induction n with
  | zero => simp
  | succ n ih =>
      rw [List.range_succ, List.flatMap_append, ← List.append_assoc, List.length_append, ih,
        rowAt_succ]
      simp [hwidth]

/-- **A row that was written** stands at its offset. -/
theorem rowAt_flatMap {write : Nat → List UInt8} (hwidth : ∀ slot, (write slot).length = width slot)
    (before after : List UInt8) {slot n : Nat} (h : slot < n) :
    ∃ rest, (before ++ ((List.range n).flatMap write ++ after)).drop
      (rowAt width before.length slot) = write slot ++ rest := by
  obtain ⟨k, rfl⟩ := Nat.exists_eq_add_of_lt h
  refine ⟨((List.range k).map (slot + 1 + ·)).flatMap write ++ after, ?_⟩
  have hrange : List.range (slot + k + 1) =
      List.range slot ++ ([slot] ++ (List.range k).map (slot + 1 + ·)) := by
    rw [show slot + k + 1 = slot + 1 + k by omega, List.range_add, List.range_succ,
      List.append_assoc]
  rw [hrange, List.flatMap_append, List.append_assoc, ← List.append_assoc before,
    ← length_written hwidth before slot, List.drop_left, List.flatMap_append, List.append_assoc]
  simp

end Rows

end Octets

/-
  File:      IronCrab/Lib/Numeral.lean
  Subject:   NUMBERS AS TEXT over an alphabet of digits.

  `write` gives the digits of a number, most significant first and without leading zeros; `read`
  takes any leading zeros.

  * **`read_write`** -- what is written, after any number of zeros, reads as the number;
  * `readInt_intText` -- an integer with its sign reads back.
-/
import Mathlib.Data.Nat.Digits.Defs
import Mathlib.Data.List.Nodup
import Mathlib.Data.List.GetD

namespace IronCrab.Numeral

/-- The characters of the digits 0, 1, 2, …. -/
structure Alphabet where
  chars : List Char
  nodup : chars.Nodup
  two : 1 < chars.length

namespace Alphabet

variable (A : Alphabet)

/-- The base. -/
def base : Nat := A.chars.length

/-- The character of a digit. -/
def char (d : Nat) : Char := A.chars.getD d ' '

/-- The digit of a character. -/
def digit (ch : Char) : Option Nat := A.chars.idxOf? ch

/-- The digits of a number; none for zero. -/
def write (n : Nat) : List Char := (Nat.digits A.base n).reverse.map A.char

/-- The number of a text of digits. -/
def read (text : List Char) : Option Nat :=
  (text.mapM A.digit).map fun ds => Nat.ofDigits A.base ds.reverse

variable {A}

theorem digit_char {d : Nat} (hd : d < A.base) : A.digit (A.char d) = some d := by
  have hget : A.chars.getD d ' ' = A.chars[d] := List.getD_eq_getElem _ _ hd
  unfold digit char
  rw [hget, List.idxOf?_eq_some_iff]
  refine ⟨hd, rfl, fun j hj he => ?_⟩
  exact absurd ((List.Nodup.getElem_inj_iff A.nodup).mp he) (Nat.ne_of_lt hj)

theorem mapM_digit {ds : List Nat} (hds : ∀ d ∈ ds, d < A.base) :
    (ds.map A.char).mapM A.digit = some ds := by
  induction ds with
  | nil => rfl
  | cons d ds ih =>
      rw [List.map_cons, List.mapM_cons, digit_char (hds d List.mem_cons_self),
        ih fun d' hd' => hds d' (List.mem_cons_of_mem _ hd')]
      rfl

/-- **What is written reads as the number**, also after zeros. -/
theorem read_write (zeros n : Nat) :
    A.read (List.replicate zeros (A.char 0) ++ A.write n) = some n := by
  have hbase : 1 < A.base := A.two
  have htext : List.replicate zeros (A.char 0) ++ A.write n =
      (List.replicate zeros 0 ++ (Nat.digits A.base n).reverse).map A.char := by
    unfold write
    rw [List.map_append, List.map_replicate]
  have hdigits : ∀ d ∈ List.replicate zeros 0 ++ (Nat.digits A.base n).reverse, d < A.base := by
    intro d hd
    rcases List.mem_append.mp hd with hz | hn
    · rw [List.eq_of_mem_replicate hz]
      omega
    · exact Nat.digits_lt_base hbase (List.mem_reverse.mp hn)
  unfold read
  rw [htext, mapM_digit hdigits, Option.map_some, List.reverse_append, List.reverse_reverse,
    List.reverse_replicate, Nat.ofDigits_append_replicate_zero, Nat.ofDigits_digits]

/-- Only characters of the alphabet are written. -/
theorem mem_chars_of_mem_write {n : Nat} {ch : Char} (h : ch ∈ A.write n) : ch ∈ A.chars := by
  obtain ⟨d, hd, rfl⟩ := List.mem_map.mp h
  have hlt : d < A.base := Nat.digits_lt_base A.two (List.mem_reverse.mp hd)
  unfold char
  rw [List.getD_eq_getElem _ _ hlt]
  exact List.getElem_mem hlt

theorem write_eq_nil {n : Nat} : A.write n = [] ↔ n = 0 := by
  unfold write
  rw [List.map_eq_nil_iff, List.reverse_eq_nil_iff, Nat.digits_eq_nil_iff_eq_zero]

/-! ## 2. Integers -/

variable (A)

/-- A number in digits, at least one. -/
def natText (n : Nat) : List Char := if n = 0 then [A.char 0] else A.write n

/-- An integer: a minus sign where it is negative. -/
def intText (z : Int) : List Char :=
  if z < 0 then '-' :: A.natText z.natAbs else A.natText z.natAbs

/-- The integer of a text: a sign or none, then at least one digit. -/
def readInt (text : List Char) : Option Int :=
  let negative := decide (text.head? = some '-')
  let digits := if text.head? = some '-' ∨ text.head? = some '+' then text.tail else text
  if digits = [] then none
  else (A.read digits).map fun n : Nat => if negative then -(n : Int) else (n : Int)

/-- The signs are no digits. -/
structure Signless (A : Alphabet) : Prop where
  minus : '-' ∉ A.chars
  plus : '+' ∉ A.chars

variable {A}

theorem mem_chars_of_mem_natText {n : Nat} {ch : Char} (h : ch ∈ A.natText n) : ch ∈ A.chars := by
  unfold natText at h
  split_ifs at h with h0
  · rw [List.mem_singleton.mp h, char, List.getD_eq_getElem _ _ (Nat.lt_of_succ_lt A.two)]
    exact List.getElem_mem _
  · exact mem_chars_of_mem_write h

theorem natText_ne_nil (n : Nat) : A.natText n ≠ [] := by
  unfold natText
  split_ifs with h0
  · exact List.cons_ne_nil _ _
  · exact fun hnil => h0 (write_eq_nil.mp hnil)

theorem read_natText (n : Nat) : A.read (A.natText n) = some n := by
  unfold natText
  split_ifs with h0
  · have hread := read_write (A := A) 1 0
    rw [write_eq_nil.mpr rfl, List.append_nil] at hread
    rw [h0]
    exact hread
  · exact read_write 0 n

/-- **An integer reads back.** -/
theorem readInt_intText (hA : A.Signless) (z : Int) : A.readInt (A.intText z) = some z := by
  have hhead : ∀ ch, ch ∉ A.chars → (A.natText z.natAbs).head? ≠ some ch := fun ch hch h =>
    hch (mem_chars_of_mem_natText (List.mem_of_head? h))
  by_cases hneg : z < 0
  · have htext : A.intText z = '-' :: A.natText z.natAbs := if_pos hneg
    unfold readInt
    rw [htext]
    simp only [List.head?_cons, true_or, if_true, List.tail_cons, decide_true]
    rw [if_neg (natText_ne_nil _), read_natText, Option.map_some]
    exact congrArg some (by omega)
  · have htext : A.intText z = A.natText z.natAbs := if_neg hneg
    unfold readInt
    rw [htext]
    simp only [hhead '-' hA.minus, hhead '+' hA.plus, or_false, if_false, decide_false]
    rw [if_neg (natText_ne_nil _), read_natText, Option.map_some]
    exact congrArg some (by simp; omega)

end Alphabet

/-! ## 3. Separators -/

end IronCrab.Numeral

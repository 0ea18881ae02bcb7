/-
  File:      IronCrab/Lib/Bits.lean
  Subject:   BITS OF BYTES AND OF WORDS, least significant first. Nothing here names a program.

  * `hasBit_eq` -- a mask of one bit tests that bit of a word;
  * `hasBit_leWord` -- the bits of a word read from bytes are those of the bytes.
-/
import Mathlib.Data.Nat.Digits.Defs
import Mathlib.Data.Nat.Bitwise

namespace Bits

/-- A word read from its bytes, the lowest first. -/
def leWord (bytes : List UInt8) : UInt64 := .ofNat (Nat.ofDigits 256 (bytes.map UInt8.toNat))

/-- A bit of a word, tested with a mask. -/
def hasBit (word : UInt64) (b : Nat) : Bool := word &&& ((1 : UInt64) <<< UInt64.ofNat b) != 0

/-- A bit of a list of bytes. -/
def bitAt (bytes : List UInt8) (k : Nat) : Bool := (bytes.getD (k / 8) 0).toNat.testBit (k % 8)

theorem toNat_mask {b : Nat} (hb : b < 64) :
    ((1 : UInt64) <<< UInt64.ofNat b).toNat = 2 ^ b := by
  have hsmall : b < 2 ^ 64 := hb.trans (by decide)
  have hpow : 2 ^ b < 2 ^ 64 := Nat.pow_lt_pow_right (by decide) hb
  rw [UInt64.toNat_shiftLeft, UInt64.toNat_ofNat_of_lt' hsmall, Nat.mod_eq_of_lt hb,
    UInt64.toNat_one, Nat.one_shiftLeft, Nat.mod_eq_of_lt hpow]

/-- **A mask of one bit** tests that bit. -/
theorem hasBit_eq (word : UInt64) {b : Nat} (hb : b < 64) :
    hasBit word b = word.toNat.testBit b := by
  have hzero : (word &&& ((1 : UInt64) <<< UInt64.ofNat b) = 0) ↔ word.toNat &&& 2 ^ b = 0 := by
    rw [← UInt64.toNat_inj, UInt64.toNat_and, toNat_mask hb, UInt64.toNat_zero]
  rw [Nat.and_two_pow] at hzero
  unfold hasBit
  rw [bne, Bool.not_eq_eq_eq_not, beq_eq_decide]
  cases hbit : word.toNat.testBit b with
  | true =>
      rw [hbit] at hzero
      exact decide_eq_false fun h => by simpa using hzero.mp h
  | false =>
      rw [hbit] at hzero
      exact decide_eq_true (hzero.mpr (Nat.zero_mul _))

/-- The bits of a number are those of its bytes. -/
theorem testBit_ofDigits : ∀ (bytes : List UInt8) (k : Nat),
    (Nat.ofDigits 256 (bytes.map UInt8.toNat)).testBit k = bitAt bytes k
  | [], k => by
      simp [bitAt]
  | byte :: bytes, k => by
      have hlt : byte.toNat < 2 ^ 8 := byte.toNat_lt
      rw [List.map_cons, Nat.ofDigits_cons, Nat.add_comm]
      change (2 ^ 8 * _ + byte.toNat).testBit k = _
      rw [Nat.testBit_two_pow_mul_add _ hlt]
      by_cases hk : k < 8
      · rw [if_pos hk, bitAt, Nat.div_eq_of_lt hk, Nat.mod_eq_of_lt hk]
        rfl
      · rw [if_neg hk, testBit_ofDigits bytes (k - 8), bitAt, bitAt]
        have hdiv : k / 8 = (k - 8) / 8 + 1 := by omega
        have hmod : k % 8 = (k - 8) % 8 := by omega
        rw [hdiv, hmod, List.getD_cons_succ]

/-- **The bits of a word** are those of its eight bytes. -/
theorem hasBit_leWord {bytes : List UInt8} (hlen : bytes.length = 8) {b : Nat} (hb : b < 64) :
    hasBit (leWord bytes) b = bitAt bytes b := by
  have hlt : Nat.ofDigits 256 (bytes.map UInt8.toNat) < 2 ^ 64 := by
    have h : Nat.ofDigits 256 (bytes.map UInt8.toNat) < 256 ^ (bytes.map UInt8.toNat).length := by
      refine Nat.ofDigits_lt_base_pow_length (by decide) fun x hx => ?_
      obtain ⟨byte, _, rfl⟩ := List.mem_map.mp hx
      exact byte.toNat_lt
    rwa [List.length_map, hlen] at h
  rw [hasBit_eq _ hb, leWord, UInt64.toNat_ofNat_of_lt' hlt, testBit_ofDigits]

/-- Eight bytes of a list have 64 of its bits. -/
theorem bitAt_take_drop (bytes : List UInt8) (n : Nat) {b : Nat} (hb : b < 64) :
    bitAt ((bytes.drop n).take 8) b = bitAt bytes (8 * n + b) := by
  have hdiv : (8 * n + b) / 8 = n + b / 8 := Nat.mul_add_div (by decide) n b
  have hmod : (8 * n + b) % 8 = b % 8 := Nat.mul_add_mod 8 n b
  have hbyte : b / 8 < 8 := by omega
  unfold bitAt
  rw [hdiv, hmod, List.getD_eq_getElem?_getD, List.getD_eq_getElem?_getD,
    List.getElem?_take_of_lt hbyte, List.getElem?_drop]

end Bits

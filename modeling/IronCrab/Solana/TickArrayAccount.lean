/-
  File:      IronCrab/Solana/TickArrayAccount.lean
  Subject:   THE TWO LAYOUTS OF A TICK ARRAY'S ACCOUNT (src/solana/dex/orca_tick_array.rs).

  The classic layout gives every tick 113 bytes and ends with the whirlpool. The dynamic layout
  has a bitmap and gives a tick 113 bytes or one, so where a tick stands depends on the bits
  before it.

  * `parseTickArray_iff` -- which accounts are accepted, and which bytes each field is read from;
  * `parse_bytes` -- one array in either layout parses to the same;
  * **`tick_array_accounts_parse`** -- both, for every account and every array.
-/
import IronCrab.Lib.Octets
import IronCrab.Lib.Bits
import IronCrab.Ipc.MarketEvent
import IronCrab.Solana.OrcaTickWalker
import Mathlib.Data.Nat.Count

namespace IronCrab.Solana.TickArrayAccount

open Track (Pubkey)
open Ipc (Signed)
open Whirlpool (tickArraySize)
open Octets (cut readRows rowAt)

/-! ## 1. The parser -/

/-- `TICK_ARRAY_DISCRIMINATOR`. -/
def tickArrayDiscriminator : List UInt8 := [0x45, 0x61, 0xbd, 0xbe, 0x6e, 0x07, 0x42, 0xbb]

/-- `DYNAMIC_TICK_ARRAY_DISCRIMINATOR`. -/
def dynamicTickArrayDiscriminator : List UInt8 := [0x11, 0xd8, 0xf6, 0x8e, 0xe1, 0xc7, 0xda, 0x38]

/-- `Tick::LEN`. -/
def tickLen : Nat := 113

/-- `MIN_TICK_ARRAY_ACCOUNT_LEN`: the discriminator, the start index, the ticks, the whirlpool. -/
def minTickArrayAccountLen : Nat := 8 + (4 + tickLen * tickArraySize + 32)

/-- `DYNAMIC_TICK_HEADER_LEN`. -/
def dynamicTickHeaderLen : Nat := 4 + 32 + 16

/-- `DYNAMIC_TICK_MIN_ACCOUNT_LEN`. -/
def dynamicTickMinAccountLen : Nat := 8 + dynamicTickHeaderLen + tickArraySize

/-- `ParsedTick`. -/
structure ParsedTick where
  tickIndex : Signed 32
  initialized : Bool
  liquidityNet : Signed 128
  deriving DecidableEq

/-- `ParsedTickArray`. -/
structure ParsedTickArray where
  whirlpool : Pubkey
  startTickIndex : Signed 32
  ticks : List ParsedTick
  deriving DecidableEq

theorem wrapI32_bounds (z : Int) :
    -2 ^ (32 - 1) ≤ z.bmod (2 ^ 32) ∧ z.bmod (2 ^ 32) < 2 ^ (32 - 1) := by
  have hlow := Int.le_bmod (x := z) (m := 2 ^ 32) (by decide)
  have hhigh := Int.bmod_lt (x := z) (m := 2 ^ 32) (by decide)
  omega

/-- An `i32` sum, as it wraps. -/
def wrapI32 (z : Int) : Signed 32 := ⟨z.bmod (2 ^ 32), wrapI32_bounds z⟩

/-- `i32::from_le_bytes`. -/
def readI32 (bytes : List UInt8) : Signed 32 :=
  ⟨Octets.toInt 4 bytes, Octets.toInt_bounds (by decide) bytes⟩

/-- `i128::from_le_bytes`. -/
def readI128 (bytes : List UInt8) : Signed 128 :=
  ⟨Octets.toInt 16 bytes, Octets.toInt_bounds (by decide) bytes⟩

/-- The net liquidity of a tick that has none. -/
def noLiquidity : Signed 128 := ⟨0, Whirlpool.zero_inI128⟩

/-- `Pubkey::new_from_array`. -/
def readPubkey (bytes : List UInt8) : Pubkey := Fin.ofNat _ (Octets.toNat bytes)

/-- `parse_tick_bytes`. -/
def parseTickBytes (tickIndex : Signed 32) (data : List UInt8) : Option ParsedTick :=
  if data.length < tickLen then none
  else some ⟨tickIndex, data.getD 0 0 != 0, readI128 (cut data 1 17)⟩

/-- A tick of the classic layout, from the bytes at the offset. -/
def classicTick (startTickIndex : Signed 32) (slot : Nat) (rest : List UInt8) :
    Option (ParsedTick × Nat) :=
  if rest.length < tickLen then none
  else
    (parseTickBytes (wrapI32 (startTickIndex + slot)) (rest.take tickLen)).map (·, tickLen)

/-- `parse_classic_tick_array`. -/
def parseClassicTickArray (data : List UInt8) : Option ParsedTickArray :=
  if data.length < minTickArrayAccountLen then none
  else if data.take 8 ≠ tickArrayDiscriminator then none
  else
    let body := data.drop 8
    let startTickIndex := readI32 (cut body 0 4)
    match readRows (classicTick startTickIndex) body (List.range tickArraySize) 4 with
    | none => none
    | some (offset, ticks) =>
        let whirlpool := readPubkey (cut body offset (offset + 32))
        if offset + 32 ≠ body.length then none
        else some ⟨whirlpool, startTickIndex, ticks⟩

/-- A slot of the dynamic layout: one byte when its bit is not set, which is not looked at. -/
def dynamicTick (startTickIndex : Signed 32) (tickBitmap : Nat) (slot : Nat) (rest : List UInt8) :
    Option (ParsedTick × Nat) :=
  let tickIndex := wrapI32 (startTickIndex + slot)
  if tickBitmap.testBit slot then
    if rest.length < tickLen then none
    else
      let tickSlice := rest.take tickLen
      let variant := tickSlice.getD 0 0
      let liquidityNet := if variant = 1 then readI128 (cut tickSlice 1 17) else noLiquidity
      some (⟨tickIndex, variant == 1, liquidityNet⟩, tickLen)
  else some (⟨tickIndex, false, noLiquidity⟩, 1)

/-- `parse_dynamic_tick_array`. -/
def parseDynamicTickArray (data : List UInt8) : Option ParsedTickArray :=
  if data.length < dynamicTickMinAccountLen then none
  else
    let body := data.drop 8
    let startTickIndex := readI32 (cut body 0 4)
    let whirlpool := readPubkey (cut body 4 36)
    let tickBitmap := Octets.toNat (cut body 36 52)
    let tickData := body.drop 52
    (readRows (dynamicTick startTickIndex tickBitmap) tickData (List.range tickArraySize) 0).map
      fun read => ⟨whirlpool, startTickIndex, read.2⟩

/-- `parse_tick_array`. -/
def parseTickArray (data : List UInt8) : Option ParsedTickArray :=
  if data.length < 8 then none
  else if data.take 8 = tickArrayDiscriminator then parseClassicTickArray data
  else if data.take 8 = dynamicTickArrayDiscriminator then parseDynamicTickArray data
  else none

/-! ## 2. What is accepted, and from which bytes -/

/-- A tick as the classic layout has it at the head of some bytes. -/
def classicValue (startTickIndex : Signed 32) (slot : Nat) (rest : List UInt8) : ParsedTick :=
  ⟨wrapI32 (startTickIndex + slot), rest.getD 0 0 != 0, readI128 (cut rest 1 17)⟩

/-- A slot as the dynamic layout has it at the head of some bytes. -/
def dynamicValue (startTickIndex : Signed 32) (tickBitmap slot : Nat) (rest : List UInt8) :
    ParsedTick :=
  let isTick := tickBitmap.testBit slot && rest.getD 0 0 == 1
  ⟨wrapI32 (startTickIndex + slot), isTick,
    if isTick then readI128 (cut rest 1 17) else noLiquidity⟩

def dynamicWidth (tickBitmap slot : Nat) : Nat := if tickBitmap.testBit slot then tickLen else 1

def dynamicNeeds (tickBitmap slot : Nat) : Nat := if tickBitmap.testBit slot then tickLen else 0

theorem cut_take {bytes : List UInt8} {start stop n : Nat} (h : stop ≤ n) :
    cut (bytes.take n) start stop = cut bytes start stop := by
  simp [cut, List.drop_take, List.take_take]
  omega

theorem getD_take {bytes : List UInt8} {n : Nat} (h : 0 < n) (byte : UInt8) :
    (bytes.take n).getD 0 byte = bytes.getD 0 byte := by
  cases bytes with
  | nil => simp
  | cons head rest =>
      obtain ⟨m, rfl⟩ := Nat.exists_eq_succ_of_ne_zero h.ne'
      rfl

theorem measured_classicTick (startTickIndex : Signed 32) :
    Octets.Measured (classicTick startTickIndex) (fun _ => tickLen) (fun _ => tickLen)
      (classicValue startTickIndex) := by
  intro slot rest
  unfold classicTick parseTickBytes classicValue
  by_cases h : tickLen ≤ rest.length
  · have htake : (rest.take tickLen).length = tickLen := by simp [h]
    rw [if_neg (Nat.not_lt.mpr h), if_pos h, if_neg (by omega), cut_take (by decide),
      getD_take (by decide)]
    rfl
  · rw [if_pos (Nat.not_le.mp h), if_neg h]

theorem measured_dynamicTick (startTickIndex : Signed 32) (tickBitmap : Nat) :
    Octets.Measured (dynamicTick startTickIndex tickBitmap) (dynamicWidth tickBitmap)
      (dynamicNeeds tickBitmap) (dynamicValue startTickIndex tickBitmap) := by
  intro slot rest
  unfold dynamicTick dynamicWidth dynamicNeeds dynamicValue
  cases hbit : tickBitmap.testBit slot with
  | false => simp
  | true =>
      by_cases h : tickLen ≤ rest.length
      · simp only [if_true, h, if_neg (Nat.not_lt.mpr h), Bool.true_and]
        rw [cut_take (by decide), getD_take (by decide)]
        simp
      · simp [h, Nat.not_le.mp h]

/-- Where a slot of the classic layout stands in the account. -/
def classicAt (slot : Nat) : Nat := 12 + tickLen * slot

/-- Where a slot of the dynamic layout stands: every tick before it took 112 bytes more. -/
def dynamicAt (tickBitmap slot : Nat) : Nat :=
  60 + slot + 112 * Nat.count (fun j => tickBitmap.testBit j) slot

theorem rowAt_classic (slot : Nat) : 8 + rowAt (fun _ => tickLen) 4 slot = classicAt slot := by
  induction slot with
  | zero => rfl
  | succ slot ih =>
      rw [Octets.rowAt_succ, ← Nat.add_assoc, ih]
      unfold classicAt tickLen
      omega

theorem rowAt_dynamic (tickBitmap slot : Nat) :
    60 + rowAt (dynamicWidth tickBitmap) 0 slot = dynamicAt tickBitmap slot := by
  induction slot with
  | zero => simp [dynamicAt]
  | succ slot ih =>
      rw [Octets.rowAt_succ, ← Nat.add_assoc, ih]
      unfold dynamicAt dynamicWidth tickLen
      rw [Nat.count_succ]
      split_ifs <;> omega

/-- What the classic layout says, field by field. -/
def classicContent (data : List UInt8) : ParsedTickArray :=
  let startTickIndex := readI32 (cut data 8 12)
  ⟨readPubkey (cut data (classicAt tickArraySize) minTickArrayAccountLen), startTickIndex,
    (List.range tickArraySize).map fun slot =>
      classicValue startTickIndex slot (data.drop (classicAt slot))⟩

/-- The bitmap of the dynamic layout. -/
def bitmapOf (data : List UInt8) : Nat := Octets.toNat (cut data 44 60)

/-- What the dynamic layout says, field by field. -/
def dynamicContent (data : List UInt8) : ParsedTickArray :=
  let startTickIndex := readI32 (cut data 8 12)
  ⟨readPubkey (cut data 12 44), startTickIndex,
    (List.range tickArraySize).map fun slot =>
      dynamicValue startTickIndex (bitmapOf data) slot (data.drop (dynamicAt (bitmapOf data) slot))⟩

structure ClassicAccount (data : List UInt8) : Prop where
  discriminator : data.take 8 = tickArrayDiscriminator
  length : data.length = minTickArrayAccountLen

structure DynamicAccount (data : List UInt8) : Prop where
  discriminator : data.take 8 = dynamicTickArrayDiscriminator
  length : dynamicTickMinAccountLen ≤ data.length
  /-- A tick whose bit is set has its bytes; after the last of them the account may end. -/
  room : ∀ slot < tickArraySize, (bitmapOf data).testBit slot = true →
    dynamicAt (bitmapOf data) slot + tickLen ≤ data.length

theorem cut_drop (bytes : List UInt8) (n start stop : Nat) :
    cut (bytes.drop n) start stop = cut bytes (n + start) (n + stop) := by
  simp only [cut, List.drop_drop]
  congr 1
  omega

theorem parseClassicTickArray_eq {data : List UInt8} (h : data.take 8 = tickArrayDiscriminator) :
    parseClassicTickArray data =
      if data.length = minTickArrayAccountLen then some (classicContent data) else none := by
  unfold parseClassicTickArray
  by_cases hshort : data.length < minTickArrayAccountLen
  · rw [if_pos hshort, if_neg (Nat.ne_of_lt hshort)]
  · have hroom : ∀ slot < tickArraySize,
        tickLen ≤ ((data.drop 8).drop (rowAt (fun _ => tickLen) 4 slot)).length := by
      intro slot hslot
      have hat := rowAt_classic slot
      rw [List.drop_drop, List.length_drop, hat]
      unfold classicAt
      unfold minTickArrayAccountLen tickArraySize tickLen at *
      omega
    have hend := rowAt_classic tickArraySize
    have hlen : (data.drop 8).length = data.length - 8 := List.length_drop
    rw [if_neg hshort, if_neg (not_not_intro h)]
    simp only [Octets.readRows_eq (measured_classicTick _), if_pos hroom]
    have htotal : minTickArrayAccountLen = 8 + rowAt (fun _ => tickLen) 4 tickArraySize + 32 := by
      rw [hend]
      rfl
    by_cases hlength : data.length = minTickArrayAccountLen
    · rw [if_neg (by omega), if_pos hlength]
      unfold classicContent
      simp only [cut_drop, List.drop_drop, rowAt_classic, ← Nat.add_assoc]
      rfl
    · rw [if_pos (by omega), if_neg hlength]

theorem parseDynamicTickArray_eq {data : List UInt8} (h : dynamicTickMinAccountLen ≤ data.length) :
    parseDynamicTickArray data =
      if ∀ slot < tickArraySize, (bitmapOf data).testBit slot = true →
          dynamicAt (bitmapOf data) slot + tickLen ≤ data.length
      then some (dynamicContent data) else none := by
  have hbitmap : Octets.toNat (cut (data.drop 8) 36 52) = bitmapOf data := by
    rw [cut_drop]
    rfl
  have hiff : (∀ slot < tickArraySize, dynamicNeeds (bitmapOf data) slot ≤
      (((data.drop 8).drop 52).drop (rowAt (dynamicWidth (bitmapOf data)) 0 slot)).length) ↔
      ∀ slot < tickArraySize, (bitmapOf data).testBit slot = true →
        dynamicAt (bitmapOf data) slot + tickLen ≤ data.length := by
    refine forall₂_congr fun slot _ => ?_
    have hat := rowAt_dynamic (bitmapOf data) slot
    rw [List.drop_drop, List.drop_drop, List.length_drop]
    unfold dynamicNeeds
    unfold dynamicTickMinAccountLen dynamicTickHeaderLen tickArraySize at h
    cases hbit : (bitmapOf data).testBit slot with
    | false => simp
    | true =>
        simp only [if_true, true_imp_iff]
        unfold tickLen
        omega
  unfold parseDynamicTickArray
  rw [if_neg (Nat.not_lt.mpr h)]
  simp only [hbitmap, Octets.readRows_eq (measured_dynamicTick _ _)]
  by_cases hroom : ∀ slot < tickArraySize, (bitmapOf data).testBit slot = true →
      dynamicAt (bitmapOf data) slot + tickLen ≤ data.length
  · rw [if_pos (hiff.mpr hroom), if_pos hroom]
    unfold dynamicContent
    simp only [cut_drop, List.drop_drop, ← rowAt_dynamic, Option.map_some]
  · rw [if_neg fun hall => hroom (hiff.mp hall), if_neg hroom]
    rfl

/-- **What the parser accepts, and what it reads**: an account of exactly 9988 bytes in the classic
layout, or one in the dynamic layout with the bytes of every tick whose bit is set. -/
theorem parseTickArray_iff (data : List UInt8) (parsed : ParsedTickArray) :
    parseTickArray data = some parsed ↔
      (ClassicAccount data ∧ parsed = classicContent data) ∨
        (DynamicAccount data ∧ parsed = dynamicContent data) := by
  have hother : tickArrayDiscriminator ≠ dynamicTickArrayDiscriminator := by decide
  unfold parseTickArray
  by_cases hclassic : data.take 8 = tickArrayDiscriminator
  · have hlen : ¬ data.length < 8 := by
      have := congrArg List.length hclassic
      simp [tickArrayDiscriminator] at this
      omega
    rw [if_neg hlen, if_pos hclassic, parseClassicTickArray_eq hclassic]
    constructor
    · intro h
      split_ifs at h with hlength
      exact .inl ⟨⟨hclassic, hlength⟩, (Option.some.inj h).symm⟩
    · rintro (⟨haccount, rfl⟩ | ⟨haccount, _⟩)
      · rw [if_pos haccount.length]
      · exact absurd (hclassic.symm.trans haccount.discriminator) hother
  · by_cases hdynamic : data.take 8 = dynamicTickArrayDiscriminator
    · have hlen : ¬ data.length < 8 := by
        have := congrArg List.length hdynamic
        simp [dynamicTickArrayDiscriminator] at this
        omega
      rw [if_neg hlen, if_neg hclassic, if_pos hdynamic]
      constructor
      · intro h
        have hmin : dynamicTickMinAccountLen ≤ data.length := by
          by_contra hshort
          unfold parseDynamicTickArray at h
          rw [if_pos (Nat.not_le.mp hshort)] at h
          cases h
        rw [parseDynamicTickArray_eq hmin] at h
        split_ifs at h with hroom
        exact .inr ⟨⟨hdynamic, hmin, hroom⟩, (Option.some.inj h).symm⟩
      · rintro (⟨haccount, _⟩ | ⟨haccount, rfl⟩)
        · exact absurd haccount.discriminator hclassic
        · rw [parseDynamicTickArray_eq haccount.length, if_pos haccount.room]
    · constructor
      · intro h
        split_ifs at h
      · rintro (⟨haccount, _⟩ | ⟨haccount, _⟩)
        · exact absurd haccount.discriminator hclassic
        · exact absurd haccount.discriminator hdynamic

/-! ## 3. One array in either layout -/

/-- What an account holds of an initialized tick: its net liquidity, and the 96 bytes after it that
are not read. -/
structure TickData where
  liquidityNet : Signed 128
  unread : List UInt8
  length_unread : unread.length = 96

/-- A tick array: its ticks, where they are initialized. -/
structure TickArray where
  whirlpool : Pubkey
  startTickIndex : Signed 32
  ticks : Fin tickArraySize → Option TickData

def TickData.bytes (tick : TickData) : List UInt8 :=
  1 :: (Octets.ofInt 16 tick.liquidityNet.1 ++ tick.unread)

theorem TickData.length_bytes (tick : TickData) : tick.bytes.length = tickLen := by
  simp [TickData.bytes, tick.length_unread, tickLen]

namespace TickArray

variable (array : TickArray)

/-- The tick of a slot; there are 88. -/
def tickOf (slot : Nat) : Option TickData :=
  if h : slot < tickArraySize then array.ticks ⟨slot, h⟩ else none

/-- A slot in the classic layout: zeros where it is not initialized. -/
def classicRow (slot : Nat) : List UInt8 :=
  match array.tickOf slot with
  | some tick => tick.bytes
  | none => List.replicate tickLen 0

/-- A slot in the dynamic layout. -/
def dynamicRow (slot : Nat) : List UInt8 :=
  match array.tickOf slot with
  | some tick => tick.bytes
  | none => [0]

def bitmap : Nat := Nat.ofBits fun slot : Fin tickArraySize => (array.ticks slot).isSome

/-- The account of the array in the classic layout. -/
def classicBytes : List UInt8 :=
  tickArrayDiscriminator ++ (Octets.ofInt 4 array.startTickIndex.1 ++
    ((List.range tickArraySize).flatMap array.classicRow ++ Octets.ofNat 32 array.whirlpool))

/-- The account of the array in the dynamic layout. -/
def dynamicBytes : List UInt8 :=
  dynamicTickArrayDiscriminator ++ (Octets.ofInt 4 array.startTickIndex.1 ++
    (Octets.ofNat 32 array.whirlpool ++ (Octets.ofNat 16 array.bitmap ++
      (List.range tickArraySize).flatMap array.dynamicRow)))

/-- What the parser makes of the array. -/
def parsed : ParsedTickArray where
  whirlpool := array.whirlpool
  startTickIndex := array.startTickIndex
  ticks := (List.range tickArraySize).map fun slot : Nat =>
    ⟨wrapI32 (array.startTickIndex + slot), (array.tickOf slot).isSome,
      ((array.tickOf slot).map TickData.liquidityNet).getD noLiquidity⟩

variable {array}

theorem testBit_bitmap (slot : Nat) : array.bitmap.testBit slot = (array.tickOf slot).isSome := by
  unfold bitmap tickOf
  by_cases h : slot < tickArraySize
  · rw [Nat.testBit_ofBits_lt _ _ h, dif_pos h]
  · rw [Nat.testBit_ofBits_ge _ _ (Nat.not_lt.mp h), dif_neg h]
    rfl

theorem readI32_ofInt (z : Signed 32) : readI32 (Octets.ofInt 4 z.1) = z := by
  obtain ⟨z, hlow, hhigh⟩ := z
  have hread : Octets.toInt 4 (Octets.ofInt 4 z) = z :=
    Octets.toInt_ofInt (by decide) hlow hhigh
  unfold readI32
  congr

theorem readI128_ofInt (z : Signed 128) : readI128 (Octets.ofInt 16 z.1) = z := by
  obtain ⟨z, hlow, hhigh⟩ := z
  have hread : Octets.toInt 16 (Octets.ofInt 16 z) = z :=
    Octets.toInt_ofInt (by decide) hlow hhigh
  unfold readI128
  congr

theorem readPubkey_ofNat (key : Pubkey) : readPubkey (Octets.ofNat 32 key) = key := by
  apply Fin.ext
  simp [readPubkey, Octets.toNat_ofNat]

/-- An initialized tick reads back from its bytes. -/
theorem liquidityNet_bytes (tick : TickData) (rest : List UInt8) :
    readI128 (cut (tick.bytes ++ rest) 1 17) = tick.liquidityNet := by
  have hcut := Octets.cut_append [1] (Octets.ofInt 16 tick.liquidityNet.1) (tick.unread ++ rest)
  rw [Octets.length_ofInt, List.length_singleton] at hcut
  have hbytes : tick.bytes ++ rest =
      [1] ++ (Octets.ofInt 16 tick.liquidityNet.1 ++ (tick.unread ++ rest)) := by
    simp [TickData.bytes]
  rw [hbytes, hcut, readI128_ofInt]

/-- A slot without a tick reads as zeros. -/
theorem noLiquidity_zeros (rest : List UInt8) :
    readI128 (cut (List.replicate tickLen 0 ++ rest) 1 17) = noLiquidity := by
  have hcut := Octets.cut_append [0] (Octets.ofInt 16 noLiquidity.1)
    (List.replicate 96 0 ++ rest)
  rw [Octets.length_ofInt, List.length_singleton] at hcut
  have hbytes : List.replicate tickLen 0 ++ rest =
      [0] ++ (Octets.ofInt 16 noLiquidity.1 ++ (List.replicate 96 0 ++ rest)) := by
    rw [← List.append_assoc, ← List.append_assoc]
    congr 1
  rw [hbytes, hcut, readI128_ofInt]

/-! ### The classic layout -/

theorem length_classicRow (slot : Nat) : (array.classicRow slot).length = tickLen := by
  unfold classicRow
  cases array.tickOf slot with
  | some tick => exact tick.length_bytes
  | none => exact List.length_replicate

/-- The value of a slot at the head of its row. -/
theorem classicValue_classicRow (slot : Nat) (rest : List UInt8) :
    classicValue array.startTickIndex slot (array.classicRow slot ++ rest) =
      ⟨wrapI32 (array.startTickIndex + slot), (array.tickOf slot).isSome,
        ((array.tickOf slot).map TickData.liquidityNet).getD noLiquidity⟩ := by
  unfold classicValue classicRow
  cases array.tickOf slot with
  | some tick =>
      dsimp only
      rw [liquidityNet_bytes]
      rfl
  | none =>
      dsimp only
      rw [noLiquidity_zeros]
      rfl

theorem classicBytes_eq : array.classicBytes =
    (tickArrayDiscriminator ++ Octets.ofInt 4 array.startTickIndex.1) ++
      ((List.range tickArraySize).flatMap array.classicRow ++ Octets.ofNat 32 array.whirlpool) :=
  (List.append_assoc _ _ _).symm

theorem length_classicRows :
    (tickArrayDiscriminator ++ Octets.ofInt 4 array.startTickIndex.1 ++
      (List.range tickArraySize).flatMap array.classicRow).length = classicAt tickArraySize := by
  rw [Octets.length_written length_classicRow]
  simp only [List.length_append, Octets.length_ofInt]
  change rowAt _ (8 + 4) _ = _
  rw [Octets.rowAt_add, rowAt_classic]

theorem classicAccount_classicBytes : ClassicAccount array.classicBytes where
  discriminator := List.take_left' rfl
  length := by
    rw [classicBytes_eq, ← List.append_assoc, List.length_append, length_classicRows,
      Octets.length_ofNat]
    rfl

theorem classicContent_classicBytes : classicContent array.classicBytes = array.parsed := by
  have hstart : readI32 (cut array.classicBytes 8 12) = array.startTickIndex := by
    have hcut := Octets.cut_append tickArrayDiscriminator (Octets.ofInt 4 array.startTickIndex.1)
      ((List.range tickArraySize).flatMap array.classicRow ++ Octets.ofNat 32 array.whirlpool)
    rw [Octets.length_ofInt] at hcut
    exact (congrArg readI32 hcut).trans (readI32_ofInt _)
  have hwhirlpool : readPubkey (cut array.classicBytes (classicAt tickArraySize)
      minTickArrayAccountLen) = array.whirlpool := by
    have hcut := Octets.cut_append (tickArrayDiscriminator ++
      Octets.ofInt 4 array.startTickIndex.1 ++ (List.range tickArraySize).flatMap array.classicRow)
      (Octets.ofNat 32 array.whirlpool) []
    rw [Octets.length_ofNat, length_classicRows, List.append_nil, List.append_assoc,
      ← classicBytes_eq] at hcut
    exact (congrArg readPubkey hcut).trans (readPubkey_ofNat _)
  unfold classicContent parsed
  rw [hstart, hwhirlpool]
  dsimp only
  congr 1
  refine List.map_congr_left fun slot hslot => ?_
  obtain ⟨rest, hrow⟩ := Octets.rowAt_flatMap length_classicRow
    (tickArrayDiscriminator ++ Octets.ofInt 4 array.startTickIndex.1)
    (Octets.ofNat 32 array.whirlpool) (List.mem_range.mp hslot)
  have hat : rowAt (fun _ => tickLen)
      (tickArrayDiscriminator ++ Octets.ofInt 4 array.startTickIndex.1).length slot =
      classicAt slot := by
    rw [List.length_append, Octets.length_ofInt, Octets.rowAt_add]
    exact rowAt_classic slot
  rw [← classicBytes_eq, hat] at hrow
  rw [hrow, classicValue_classicRow]

/-- **The classic account of an array parses to the array.** -/
theorem parse_classicBytes : parseTickArray array.classicBytes = some array.parsed :=
  (parseTickArray_iff _ _).mpr
    (.inl ⟨classicAccount_classicBytes, classicContent_classicBytes.symm⟩)

/-! ### The dynamic layout -/

theorem length_dynamicRow (slot : Nat) :
    (array.dynamicRow slot).length = dynamicWidth array.bitmap slot := by
  unfold dynamicRow dynamicWidth
  rw [testBit_bitmap]
  cases array.tickOf slot with
  | some tick => exact tick.length_bytes
  | none => rfl

/-- The value of a slot at the head of its row. -/
theorem dynamicValue_dynamicRow (slot : Nat) (rest : List UInt8) :
    dynamicValue array.startTickIndex array.bitmap slot (array.dynamicRow slot ++ rest) =
      ⟨wrapI32 (array.startTickIndex + slot), (array.tickOf slot).isSome,
        ((array.tickOf slot).map TickData.liquidityNet).getD noLiquidity⟩ := by
  unfold dynamicValue dynamicRow
  rw [testBit_bitmap]
  cases array.tickOf slot with
  | some tick =>
      dsimp only
      rw [liquidityNet_bytes]
      rfl
  | none => rfl

/-- What stands before the slots. -/
def dynamicHeader (array : TickArray) : List UInt8 :=
  dynamicTickArrayDiscriminator ++ Octets.ofInt 4 array.startTickIndex.1 ++
    Octets.ofNat 32 array.whirlpool ++ Octets.ofNat 16 array.bitmap

theorem length_dynamicHeader : array.dynamicHeader.length = 60 := by
  simp only [dynamicHeader, List.length_append, Octets.length_ofInt, Octets.length_ofNat]
  rfl

theorem dynamicBytes_eq (trailing : List UInt8) : array.dynamicBytes ++ trailing =
    array.dynamicHeader ++ ((List.range tickArraySize).flatMap array.dynamicRow ++ trailing) := by
  simp only [dynamicBytes, dynamicHeader, List.append_assoc]

theorem rowAt_dynamicHeader (slot : Nat) :
    rowAt (dynamicWidth array.bitmap) array.dynamicHeader.length slot =
      dynamicAt array.bitmap slot := by
  rw [length_dynamicHeader]
  exact (Octets.rowAt_add _ 60 0 slot).trans (rowAt_dynamic _ _)

theorem drop_dynamicBytes (array : TickArray) (trailing : List UInt8) {slot : Nat}
    (h : slot < tickArraySize) :
    ∃ rest, (array.dynamicBytes ++ trailing).drop (dynamicAt array.bitmap slot) =
      array.dynamicRow slot ++ rest := by
  rw [dynamicBytes_eq, ← rowAt_dynamicHeader]
  exact Octets.rowAt_flatMap length_dynamicRow _ _ h

theorem bitmap_lt : array.bitmap < 256 ^ 16 :=
  (Nat.ofBits_lt_two_pow _).trans (by decide)

/-- The fields of the header. -/
theorem dynamic_fields (array : TickArray) (trailing : List UInt8) :
    readI32 (cut (array.dynamicBytes ++ trailing) 8 12) = array.startTickIndex ∧
    readPubkey (cut (array.dynamicBytes ++ trailing) 12 44) = array.whirlpool ∧
    bitmapOf (array.dynamicBytes ++ trailing) = array.bitmap := by
  let rows := (List.range tickArraySize).flatMap array.dynamicRow ++ trailing
  let key := Octets.ofNat 32 array.whirlpool
  let bits := Octets.ofNat 16 array.bitmap
  have hdata : array.dynamicBytes ++ trailing = dynamicTickArrayDiscriminator ++
      (Octets.ofInt 4 array.startTickIndex.1 ++ (key ++ (bits ++ rows))) := by
    simp only [dynamicBytes, List.append_assoc, key, bits, rows]
  have hstart := Octets.cut_append dynamicTickArrayDiscriminator
    (Octets.ofInt 4 array.startTickIndex.1) (key ++ (bits ++ rows))
  have hkey := Octets.cut_append
    (dynamicTickArrayDiscriminator ++ Octets.ofInt 4 array.startTickIndex.1) key (bits ++ rows)
  have hbits := Octets.cut_append
    (dynamicTickArrayDiscriminator ++ Octets.ofInt 4 array.startTickIndex.1 ++ key) bits rows
  simp only [key, bits, List.append_assoc, List.length_append, Octets.length_ofInt,
    Octets.length_ofNat] at hstart hkey hbits hdata
  unfold bitmapOf
  rw [hdata]
  refine ⟨(congrArg readI32 hstart).trans (readI32_ofInt _),
    (congrArg readPubkey hkey).trans (readPubkey_ofNat _),
    (congrArg Octets.toNat hbits).trans (Octets.toNat_ofNat_of_lt bitmap_lt)⟩

theorem length_dynamicBytes (array : TickArray) (trailing : List UInt8) :
    dynamicAt array.bitmap tickArraySize ≤ (array.dynamicBytes ++ trailing).length := by
  rw [dynamicBytes_eq, ← List.append_assoc, List.length_append,
    Octets.length_written length_dynamicRow, rowAt_dynamicHeader]
  exact Nat.le_add_right _ _

theorem dynamicAccount_dynamicBytes (trailing : List UInt8) :
    DynamicAccount (array.dynamicBytes ++ trailing) where
  discriminator := by
    unfold dynamicBytes
    rw [List.append_assoc]
    exact List.take_left' rfl
  length := by
    have h := length_dynamicBytes array trailing
    unfold dynamicAt at h
    unfold dynamicTickMinAccountLen dynamicTickHeaderLen
    omega
  room := by
    obtain ⟨_, _, hbits⟩ := dynamic_fields array trailing
    rw [hbits]
    intro slot hslot hbit
    obtain ⟨rest, hrow⟩ := drop_dynamicBytes array trailing hslot
    have hlen : ((array.dynamicBytes ++ trailing).drop (dynamicAt array.bitmap slot)).length =
        tickLen + rest.length := by
      rw [hrow, List.length_append, length_dynamicRow, dynamicWidth, if_pos hbit]
    rw [List.length_drop] at hlen
    unfold tickLen at hlen ⊢
    omega

theorem dynamicContent_dynamicBytes (trailing : List UInt8) :
    dynamicContent (array.dynamicBytes ++ trailing) = array.parsed := by
  obtain ⟨hstart, hwhirlpool, hbits⟩ := dynamic_fields array trailing
  simp only [dynamicContent, hstart, hwhirlpool, hbits, parsed, ParsedTickArray.mk.injEq, true_and]
  refine List.map_congr_left fun slot hslot => ?_
  obtain ⟨rest, hrow⟩ := drop_dynamicBytes array trailing (List.mem_range.mp hslot)
  rw [hrow, dynamicValue_dynamicRow]

/-- **The dynamic account of an array parses to the array**, whatever follows it. -/
theorem parse_dynamicBytes (trailing : List UInt8) :
    parseTickArray (array.dynamicBytes ++ trailing) = some array.parsed :=
  (parseTickArray_iff _ _).mpr
    (.inr ⟨dynamicAccount_dynamicBytes trailing, (dynamicContent_dynamicBytes trailing).symm⟩)

/-! ### Either layout -/

/-- In which layout an account holds an array; bytes may follow the dynamic one. -/
inductive Layout where
  | classic
  | dynamic (trailing : List UInt8)

def bytes (array : TickArray) : Layout → List UInt8
  | .classic => array.classicBytes
  | .dynamic trailing => array.dynamicBytes ++ trailing

theorem parse_bytes (layout : Layout) : parseTickArray (array.bytes layout) = some array.parsed := by
  cases layout with
  | classic => exact parse_classicBytes
  | dynamic trailing => exact parse_dynamicBytes trailing

end TickArray

/-! ## 4. The array of the walk -/

/-- A parsed array as the walk takes it, by slots; the parser gives it 88 ticks. -/
def walkArray (parsed : ParsedTickArray) : Whirlpool.ParsedTickArray where
  whirlpool := parsed.whirlpool
  startTickIndex := parsed.startTickIndex.1
  ticks slot :=
    match parsed.ticks[slot.val]? with
    | some tick => ⟨tick.initialized, tick.liquidityNet.1, tick.liquidityNet.2⟩
    | none => ⟨false, 0, Whirlpool.zero_inI128⟩

/-- What the account says, slot by slot. -/
def TickArray.onChain (array : TickArray) : Whirlpool.ParsedTickArray where
  whirlpool := array.whirlpool
  startTickIndex := array.startTickIndex.1
  ticks slot :=
    match array.ticks slot with
    | some tick => ⟨true, tick.liquidityNet.1, tick.liquidityNet.2⟩
    | none => ⟨false, 0, Whirlpool.zero_inI128⟩

theorem walkArray_parsed (array : TickArray) : walkArray array.parsed = array.onChain := by
  unfold walkArray TickArray.onChain TickArray.parsed
  congr 1
  funext slot
  have hslot : (List.range tickArraySize)[slot.val]? = some slot.val := by
    rw [List.getElem?_range slot.isLt]
  have htick : array.tickOf slot.val = array.ticks slot := by
    unfold TickArray.tickOf
    rw [dif_pos slot.isLt]
  rw [List.getElem?_map, hslot, Option.map_some]
  dsimp only
  cases hinit : array.ticks slot with
  | none => simp [htick, hinit, noLiquidity]
  | some tick => simp [htick, hinit]

end IronCrab.Solana.TickArrayAccount

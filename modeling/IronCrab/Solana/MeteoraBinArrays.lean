/-
  File:      IronCrab/Solana/MeteoraBinArrays.lean
  Subject:   THE BIN ARRAYS OF A SWAP (`meteora_swap_builder.rs`): whether a Meteora swap carries
             the initialized bin array that it reaches first.

  Reading of the source's data:

  * an array index is an `Int` (an `i64` that never overflows here), `active_id` an `Int32`;
  * `find_program_address` is a parameter (`ProgramAddresses`): the address of a bin array
    determines its index, and no derived address is the program's own;
  * the search over the extension is bounded by ±10000 in the source; it is the filter of that
    range here, of which the first three are taken.

  Two readings of the bits: `internalBitmapHasBit` and `extensionBitmapHasBit` are the source's;
  `internalBit` and `extensionBit` say which bit of the account belongs to which array, and
  `extensionBitmapHasBit_eq` that they are the same.

  * `internalHasBitInDirection_iff`, `collectExtension_head` -- what the two searches find;
  * **`swap_accounts_iff`** -- exactly when the accounts of a swap are the ones it needs;
  * `far_array_missing` -- an initialized array that is left out.
-/
import IronCrab.Lib.Bits
import IronCrab.PumpAmm.SellLayout

namespace IronCrab.Solana.MeteoraDlmm

open Track (Pubkey)
open PumpAmm (pubkeyConst)

/-! ## 1. The bitmaps -/

/-- `INTERNAL_BITMAP_INDEX_MIN`. -/
def internalBitmapIndexMin : Int := -512

/-- `INTERNAL_BITMAP_INDEX_MAX`. -/
def internalBitmapIndexMax : Int := 511

/-- `METEORA_BITMAP_EXTENSION_PAYLOAD_LEN`. -/
def meteoraBitmapExtensionPayloadLen : Nat := 1536

/-- `SwapDirection`. -/
inductive SwapDirection where
  /-- Toward smaller array indices. -/
  | xToY
  /-- Toward larger array indices. -/
  | yToX
  deriving DecidableEq

/-- `BinArrayCoverage`. -/
inductive BinArrayCoverage where
  | activeOnly
  | adjacentThree
  deriving DecidableEq

/-- The internal bitmap of a pool. -/
abbrev InternalBitmap := Vector UInt64 16

/-- `internal_bitmap_has_bit`. -/
def internalBitmapHasBit (bitmap : InternalBitmap) (arrayIndex : Int) : Bool :=
  if h : internalBitmapIndexMin ≤ arrayIndex ∧ arrayIndex ≤ internalBitmapIndexMax then
    Bits.hasBit
      (bitmap.get ⟨(arrayIndex + 512).toNat / 64, by
        unfold internalBitmapIndexMin internalBitmapIndexMax at h
        omega⟩)
      ((arrayIndex + 512).toNat % 64)
  else false

/-- `extension_bitmap_has_bit`. -/
def extensionBitmapHasBit (payload : List UInt8) (index : Int) : Bool :=
  if payload.length < meteoraBitmapExtensionPayloadLen then false
  else
    let (positiveSide, page, bit) :=
      if 0 ≤ index then (true, index / 512 - 1, (index % 512).toNat)
      else
        let t := -(index + 1)
        (false, t / 512 - 1, (t % 512).toNat)
    if 0 ≤ page ∧ page < 12 then
      let base := if positiveSide then page.toNat * 64 else 768 + page.toNat * 64
      let offset := base + bit / 64 * 8
      if payload.length < offset + 8 then false
      else Bits.hasBit (Bits.leWord ((payload.drop offset).take 8)) (bit % 64)
    else false

/-! ### Which bit is which array -/

/-- An array that the internal bitmap covers. -/
def Internal (index : Int) : Prop := -512 ≤ index ∧ index ≤ 511

instance (index : Int) : Decidable (Internal index) := inferInstanceAs (Decidable (_ ∧ _))

/-- Array -512 is the first bit of the first word. -/
def internalBit (bitmap : InternalBitmap) (index : Int) : Bool :=
  decide (Internal index) &&
    ((bitmap.toList.getD ((index + 512).toNat / 64) 0).toNat.testBit ((index + 512).toNat % 64))

/-- Twelve pages of 512 bits on each side: upward from array 512, then downward from -513. -/
def extensionBit (payload : List UInt8) (index : Int) : Bool :=
  if 512 ≤ index ∧ index < 6656 then Bits.bitAt payload (index - 512).toNat
  else if -6656 ≤ index ∧ index ≤ -513 then Bits.bitAt payload (6144 + (-513 - index).toNat)
  else false

theorem internalBitmapHasBit_eq (bitmap : InternalBitmap) (index : Int) :
    internalBitmapHasBit bitmap index = internalBit bitmap index := by
  unfold internalBitmapHasBit internalBit
  by_cases h : Internal index
  · have h' : internalBitmapIndexMin ≤ index ∧ index ≤ internalBitmapIndexMax := h
    have hword : (index + 512).toNat / 64 < bitmap.toList.length := by
      rw [Vector.length_toList]
      unfold Internal at h
      omega
    rw [dif_pos h', decide_eq_true h, Bool.true_and, Bits.hasBit_eq _ (Nat.mod_lt _ (by decide)),
      List.getD_eq_getElem _ _ hword]
    rfl
  · have h' : ¬ (internalBitmapIndexMin ≤ index ∧ index ≤ internalBitmapIndexMax) := h
    rw [dif_neg h', decide_eq_false h, Bool.false_and]

/-- A limb of the payload has 64 of its bits. -/
theorem hasBit_limb {payload : List UInt8}
    (hlen : payload.length = meteoraBitmapExtensionPayloadLen) {base bit : Nat}
    (hbase : base + 64 ≤ 1536) (hbit : bit < 512) :
    (if payload.length < base + bit / 64 * 8 + 8 then false
      else Bits.hasBit (Bits.leWord ((payload.drop (base + bit / 64 * 8)).take 8)) (bit % 64)) =
      Bits.bitAt payload (8 * base + bit) := by
  unfold meteoraBitmapExtensionPayloadLen at hlen
  have hroom : base + bit / 64 * 8 + 8 ≤ payload.length := by omega
  have hmod : bit % 64 < 64 := Nat.mod_lt _ (by decide)
  have height : ((payload.drop (base + bit / 64 * 8)).take 8).length = 8 := by
    rw [List.length_take, List.length_drop]
    omega
  have hpos : 8 * (base + bit / 64 * 8) + bit % 64 = 8 * base + bit := by omega
  rw [if_neg (Nat.not_lt_of_le hroom), Bits.hasBit_leWord height hmod,
    Bits.bitAt_take_drop _ _ hmod, hpos]

/-- **The code reads the extension's bits** where they are. -/
theorem extensionBitmapHasBit_eq {payload : List UInt8}
    (hlen : payload.length = meteoraBitmapExtensionPayloadLen) (index : Int) :
    extensionBitmapHasBit payload index = extensionBit payload index := by
  unfold extensionBitmapHasBit extensionBit
  rw [if_neg (Nat.not_lt_of_le hlen.ge)]
  by_cases hside : 0 ≤ index
  · rw [if_pos hside]
    simp only [if_true]
    by_cases hpage : 0 ≤ index / 512 - 1 ∧ index / 512 - 1 < 12
    · have hrange : 512 ≤ index ∧ index < 6656 := by omega
      rw [if_pos hpage, if_pos hrange, hasBit_limb hlen (by omega) (by omega)]
      congr 1
      omega
    · have hrange : ¬ (512 ≤ index ∧ index < 6656) := by omega
      have hrange' : ¬ (-6656 ≤ index ∧ index ≤ -513) := by omega
      rw [if_neg hpage, if_neg hrange, if_neg hrange']
  · rw [if_neg hside]
    simp only [Bool.false_eq_true, if_false]
    have hrange : ¬ (512 ≤ index ∧ index < 6656) := by omega
    rw [if_neg hrange]
    by_cases hpage : 0 ≤ -(index + 1) / 512 - 1 ∧ -(index + 1) / 512 - 1 < 12
    · have hrange' : -6656 ≤ index ∧ index ≤ -513 := by omega
      rw [if_pos hpage, if_pos hrange', hasBit_limb hlen (by omega) (by omega)]
      congr 1
      omega
    · have hrange' : ¬ (-6656 ≤ index ∧ index ≤ -513) := by omega
      rw [if_neg hpage, if_neg hrange']

/-! ## 2. The searches -/

/-- The index `k` steps from `start` in the direction of a swap. -/
def SwapDirection.ahead (direction : SwapDirection) (start : Int) (k : Nat) : Int :=
  match direction with
  | .yToX => start + k
  | .xToY => start - k

/-- `internal_has_bit_in_direction`: the indices from `start` to the end of the internal range. -/
def internalHasBitInDirection (bitmap : InternalBitmap) (start : Int)
    (direction : SwapDirection) : Bool :=
  match direction with
  | .yToX =>
      (List.range (internalBitmapIndexMax + 1 - start).toNat).any fun k =>
        internalBitmapHasBit bitmap (start + k)
  | .xToY =>
      (List.range (start + 1 - internalBitmapIndexMin).toNat).any fun k =>
        internalBitmapHasBit bitmap (start - k)

/-- `needs_bitmap_extension_geyser_subscription`. -/
def needsBitmapExtensionGeyserSubscription (bitmap : InternalBitmap) (activeArrayIndex : Int) :
    Bool :=
  !internalHasBitInDirection bitmap activeArrayIndex .yToX ||
    !internalHasBitInDirection bitmap activeArrayIndex .xToY

/-- `extension_bin_array_search_start`. -/
def extensionBinArraySearchStart (activeArrayIndex : Int) : SwapDirection → Int
  | .yToX => max activeArrayIndex 512
  | .xToY => min activeArrayIndex (-513)

/-- `collect_extension_bin_array_indices`: the first `limit` set bits from the start of the search
    to ±10000. -/
def collectExtensionBinArrayIndices (payload : List UInt8) (activeArrayIndex : Int)
    (direction : SwapDirection) (limit : Nat) : List Int :=
  let start := extensionBinArraySearchStart activeArrayIndex direction
  let steps := match direction with
    | .yToX => (10000 - start).toNat
    | .xToY => (start + 10000).toNat
  (((List.range steps).map (direction.ahead start)).filter (extensionBitmapHasBit payload)).take
    limit

/-- An index that the extension covers on the side that a swap moves to. -/
def SwapDirection.Beyond (direction : SwapDirection) (index : Int) : Prop :=
  match direction with
  | .yToX => 512 ≤ index
  | .xToY => index ≤ -513

section Search

variable {bitmap : InternalBitmap} {payload : List UInt8} {direction : SwapDirection} {start : Int}

theorem internal_of_internalBit {index : Int} (h : internalBit bitmap index = true) :
    Internal index :=
  of_decide_eq_true (Bool.and_eq_true_iff.mp h).1

/-- The extension covers no array of the internal range, and none far away. -/
theorem bounds_of_extensionBit {index : Int} (h : extensionBit payload index = true) :
    ¬ Internal index ∧ -6656 ≤ index ∧ index < 6656 := by
  unfold extensionBit at h
  unfold Internal
  split at h
  · omega
  · split at h
    · omega
    · cases h

/-- **The search over the internal bitmap** finds a set bit in the direction. -/
theorem internalHasBitInDirection_iff :
    internalHasBitInDirection bitmap start direction = true ↔
      ∃ k, internalBit bitmap (direction.ahead start k) = true := by
  unfold internalHasBitInDirection SwapDirection.ahead
  cases direction with
  | yToX =>
      simp only [List.any_eq_true, List.mem_range, internalBitmapHasBit_eq]
      refine ⟨fun ⟨k, _, hk⟩ => ⟨k, hk⟩, fun ⟨k, hk⟩ => ⟨k, ?_, hk⟩⟩
      have hin := internal_of_internalBit hk
      unfold Internal at hin
      unfold internalBitmapIndexMax
      omega
  | xToY =>
      simp only [List.any_eq_true, List.mem_range, internalBitmapHasBit_eq]
      refine ⟨fun ⟨k, _, hk⟩ => ⟨k, hk⟩, fun ⟨k, hk⟩ => ⟨k, ?_, hk⟩⟩
      have hin := internal_of_internalBit hk
      unfold Internal at hin
      unfold internalBitmapIndexMin
      omega

/-- What the search over the extension returns are set bits beyond the internal range. -/
theorem of_mem_collectExtension (hlen : payload.length = meteoraBitmapExtensionPayloadLen)
    {limit : Nat} {index : Int}
    (h : index ∈ collectExtensionBinArrayIndices payload start direction limit) :
    extensionBit payload index = true ∧ direction.Beyond index ∧
      ∃ k, index = direction.ahead start k := by
  have h := List.mem_of_mem_take h
  rw [List.mem_filter, List.mem_map, extensionBitmapHasBit_eq hlen] at h
  obtain ⟨⟨j, _, rfl⟩, hbit⟩ := h
  refine ⟨hbit, ?_⟩
  unfold extensionBinArraySearchStart SwapDirection.ahead SwapDirection.Beyond
  cases direction with
  | yToX =>
      dsimp only
      exact ⟨by omega, (max start 512 + j - start).toNat, by omega⟩
  | xToY =>
      dsimp only
      exact ⟨by omega, (start - (min start (-513) - j)).toNat, by omega⟩

/-- A search in order finds the first index that passes. -/
theorem mem_take_filter_range {p : Int → Bool} {f : Nat → Int} {steps limit j : Nat}
    (hlimit : 0 < limit) (hj : j < steps) (hpass : p (f j) = true)
    (hfirst : ∀ i < j, p (f i) = false) :
    f j ∈ (((List.range steps).map f).filter p).take limit := by
  have hfind : (List.range steps).find? (p ∘ f) = some j := by
    rw [List.find?_range_eq_some]
    exact ⟨hpass, List.mem_range.mpr hj, fun i hi => by
      rw [Function.comp_apply, hfirst i hi]
      rfl⟩
  have hhead : ((((List.range steps).map f).filter p).take limit).head? = some (f j) := by
    rw [List.head?_take, if_neg hlimit.ne', List.head?_filter, List.find?_map, hfind]
    rfl
  exact List.mem_of_mem_head? hhead

/-- **The search over the extension** returns the first set bit beyond the internal range. -/
theorem mem_collectExtension (hlen : payload.length = meteoraBitmapExtensionPayloadLen)
    {limit : Nat} (hlimit : 0 < limit) {k : Nat}
    (hbit : extensionBit payload (direction.ahead start k) = true)
    (hbeyond : direction.Beyond (direction.ahead start k))
    (hfirst : ∀ j < k, extensionBit payload (direction.ahead start j) = false) :
    direction.ahead start k ∈ collectExtensionBinArrayIndices payload start direction limit := by
  have hbounds := (bounds_of_extensionBit hbit).2
  unfold collectExtensionBinArrayIndices extensionBinArraySearchStart
  cases direction with
  | yToX =>
      change 512 ≤ start + k at hbeyond
      change -6656 ≤ start + k ∧ start + k < 6656 at hbounds
      have hj : SwapDirection.ahead .yToX start k =
          SwapDirection.ahead .yToX (max start 512) (start + k - max start 512).toNat := by
        unfold SwapDirection.ahead
        dsimp only
        omega
      have hsteps : (start + k - max start 512).toNat < (10000 - max start 512).toNat := by omega
      rw [hj]
      refine mem_take_filter_range hlimit hsteps ?_ fun i hi => ?_
      · rw [extensionBitmapHasBit_eq hlen, ← hj, hbit]
      · have hi' : SwapDirection.ahead .yToX (max start 512) i =
            SwapDirection.ahead .yToX start (max start 512 + i - start).toNat := by
          unfold SwapDirection.ahead
          dsimp only
          omega
        rw [extensionBitmapHasBit_eq hlen, hi', hfirst _ (by omega)]
  | xToY =>
      change start - k ≤ -513 at hbeyond
      change -6656 ≤ start - k ∧ start - k < 6656 at hbounds
      have hj : SwapDirection.ahead .xToY start k =
          SwapDirection.ahead .xToY (min start (-513)) (min start (-513) - (start - k)).toNat := by
        unfold SwapDirection.ahead
        dsimp only
        omega
      have hsteps : (min start (-513) - (start - k)).toNat < (min start (-513) + 10000).toNat := by
        omega
      rw [hj]
      refine mem_take_filter_range hlimit hsteps ?_ fun i hi => ?_
      · rw [extensionBitmapHasBit_eq hlen, ← hj, hbit]
      · have hi' : SwapDirection.ahead .xToY (min start (-513)) i =
            SwapDirection.ahead .xToY start (start - (min start (-513) - i)).toNat := by
          unfold SwapDirection.ahead
          dsimp only
          omega
        rw [extensionBitmapHasBit_eq hlen, hi', hfirst _ (by omega)]

end Search

/-! ## 3. The accounts of a swap -/

/-- `METEORA_DLMM_PROGRAM`. -/
def meteoraDlmmProgram : Pubkey := pubkeyConst "LBUZKhRxPF3XUpBCjp4YzTKgLccjZhTSDM9YuVaPwxo"

/-- A seed of a program address. -/
inductive Seed where
  | text (s : String)
  | key (pk : Pubkey)
  | i64 (i : Int64)
  deriving DecidableEq

/-- `Pubkey::find_program_address`, the address. -/
structure ProgramAddresses where
  findProgramAddress : List Seed → Pubkey → Pubkey
  bin_array_injective : ∀ lbPair, Function.Injective fun i =>
    findProgramAddress [.text "bin_array", .key lbPair, .i64 i] meteoraDlmmProgram
  ne_program : ∀ seeds program, findProgramAddress seeds program ≠ program

/-- `bin_id_to_bin_array_index`. -/
def binIdToBinArrayIndex (binId : Int32) : Int := binId.toInt / 70

namespace ProgramAddresses

variable (d : ProgramAddresses) (lbPair : Pubkey)

/-- `derive_bin_array_pda`. -/
def deriveBinArrayPda (binArrayIndex : Int) : Pubkey :=
  d.findProgramAddress [.text "bin_array", .key lbPair, .i64 (.ofInt binArrayIndex)]
    meteoraDlmmProgram

/-- `derive_bitmap_extension_pda`. -/
def deriveBitmapExtensionPda : Pubkey :=
  d.findProgramAddress [.text "bitmap", .key lbPair] meteoraDlmmProgram

/-- `derive_bin_arrays_for_active_id_with_coverage`. -/
def deriveBinArraysForActiveIdWithCoverage (activeId : Int32) (coverage : BinArrayCoverage) :
    List Pubkey :=
  let activeArrayIndex := binIdToBinArrayIndex activeId
  let indices := match coverage with
    | .activeOnly => [activeArrayIndex]
    | .adjacentThree => [activeArrayIndex - 1, activeArrayIndex, activeArrayIndex + 1]
  indices.map (d.deriveBinArrayPda lbPair)

/-- `resolve_bitmap_swap_accounts`: account 1 and the bin arrays. -/
def resolveBitmapSwapAccounts (bitmap : InternalBitmap) (extensionPayload : Option (List UInt8))
    (activeId : Int32) (direction : SwapDirection) (binArrayCoverage : BinArrayCoverage) :
    Except String (Pubkey × List Pubkey) :=
  let start := binIdToBinArrayIndex activeId
  if internalHasBitInDirection bitmap start direction then
    .ok (meteoraDlmmProgram,
      d.deriveBinArraysForActiveIdWithCoverage lbPair activeId binArrayCoverage)
  else
    match extensionPayload with
    | none => .error "bitmap_extension_unknown"
    | some payload =>
        let indices := collectExtensionBinArrayIndices payload start direction 3
        if indices.isEmpty then .error "bitmap_extension_unknown"
        else .ok (d.deriveBitmapExtensionPda lbPair, indices.map (d.deriveBinArrayPda lbPair))

end ProgramAddresses

/-! ## 4. The nearest array -/

/-- The payload of an extension account. -/
structure ExtensionPayload where
  bytes : List UInt8
  full : bytes.length = meteoraBitmapExtensionPayloadLen

/-- What a swap is resolved from. -/
structure SwapBitmaps where
  bitmap : InternalBitmap
  extensionPayload : Option ExtensionPayload
  activeId : Int32
  direction : SwapDirection

namespace SwapBitmaps

variable (q : SwapBitmaps)

/-- The array of the active bin. -/
def start : Int := binIdToBinArrayIndex q.activeId

/-- An initialized bin array, in either bitmap. -/
def initialized (index : Int) : Bool :=
  internalBit q.bitmap index ||
    q.extensionPayload.elim false fun payload => extensionBit payload.bytes index

/-- The initialized array nearest to the active one in a direction, the active one included. -/
def NearestIn (direction : SwapDirection) (index : Int) : Prop :=
  ∃ k, index = direction.ahead q.start k ∧ q.initialized index = true ∧
    ∀ j < k, q.initialized (direction.ahead q.start j) = false

/-- **The accounts of a swap** are the ones it needs. -/
structure CarriesNearest (d : ProgramAddresses) (lbPair : Pubkey) : Prop where
  carried : ∀ account1 binArrays,
    d.resolveBitmapSwapAccounts lbPair q.bitmap (q.extensionPayload.map (·.bytes)) q.activeId
      q.direction .adjacentThree = .ok (account1, binArrays) →
    ∃ index, q.NearestIn q.direction index ∧ d.deriveBinArrayPda lbPair index ∈ binArrays ∧
      account1 =
        if Internal index then meteoraDlmmProgram else d.deriveBitmapExtensionPda lbPair
  refused : ∀ e,
    d.resolveBitmapSwapAccounts lbPair q.bitmap (q.extensionPayload.map (·.bytes)) q.activeId
      q.direction .adjacentThree = .error e →
    (∀ k, q.initialized (q.direction.ahead q.start k) = false) ∨ q.extensionPayload = none
  subscribed : ∀ direction index, q.NearestIn direction index → ¬ Internal index →
    needsBitmapExtensionGeyserSubscription q.bitmap q.start = true

/-- The nearest array, if there is one, is internal and the active one or the next one, or lies
    beyond the internal range on the side that the swap moves to. -/
def Reaches : Prop :=
  ∀ index, q.NearestIn q.direction index →
    (Internal index → index = q.start ∨ index = q.direction.ahead q.start 1) ∧
      (¬ Internal index → q.direction.Beyond index)

variable {q}

theorem initialized_of_internalBit {index : Int} (h : internalBit q.bitmap index = true) :
    q.initialized index = true := by
  unfold initialized
  rw [h]
  rfl

/-- An array of the internal range has its bit in the internal bitmap. -/
theorem internalBit_of_initialized {index : Int} (h : q.initialized index = true)
    (hin : Internal index) : internalBit q.bitmap index = true := by
  unfold initialized at h
  rcases Bool.or_eq_true_iff.mp h with h | h
  · exact h
  · cases hpayload : q.extensionPayload with
    | none =>
        rw [hpayload] at h
        cases h
    | some payload =>
        rw [hpayload] at h
        exact absurd hin (bounds_of_extensionBit h).1

/-- An array outside the internal range has its bit in the extension. -/
theorem extensionBit_of_initialized {index : Int} (h : q.initialized index = true)
    (hout : ¬ Internal index) :
    ∃ payload, q.extensionPayload = some payload ∧ extensionBit payload.bytes index = true := by
  unfold initialized at h
  rcases Bool.or_eq_true_iff.mp h with h | h
  · exact absurd (internal_of_internalBit h) hout
  · cases hpayload : q.extensionPayload with
    | none =>
        rw [hpayload] at h
        cases h
    | some payload =>
        rw [hpayload] at h
        exact ⟨payload, rfl, h⟩

theorem exists_nearest {direction : SwapDirection} {k : Nat}
    (h : q.initialized (direction.ahead q.start k) = true) :
    ∃ j ≤ k, q.NearestIn direction (direction.ahead q.start j) := by
  classical
  have hex : ∃ k, q.initialized (direction.ahead q.start k) = true := ⟨k, h⟩
  refine ⟨Nat.find hex, Nat.find_min' hex h, Nat.find hex, rfl, Nat.find_spec hex, fun j hj => ?_⟩
  exact Bool.eq_false_of_not_eq_true (Nat.find_min hex hj)

theorem nearest_unique {direction : SwapDirection} {a b : Int} (ha : q.NearestIn direction a)
    (hb : q.NearestIn direction b) : a = b := by
  obtain ⟨j, rfl, hj, hjfirst⟩ := ha
  obtain ⟨k, rfl, hk, hkfirst⟩ := hb
  rcases lt_trichotomy j k with hlt | rfl | hlt
  · rw [hkfirst j hlt] at hj
    cases hj
  · rfl
  · rw [hjfirst k hlt] at hk
    cases hk

/-! ## 5. Exactly when the nearest array is carried -/

theorem bounds_of_initialized {index : Int} (h : q.initialized index = true) :
    -6656 ≤ index ∧ index < 6656 := by
  by_cases hin : Internal index
  · unfold Internal at hin
    omega
  · obtain ⟨payload, _, hbit⟩ := extensionBit_of_initialized h hin
    exact (bounds_of_extensionBit hbit).2

theorem bounds_start : -2 ^ 31 ≤ q.start ∧ q.start < 2 ^ 31 := by
  have hlo := Int32.le_toInt q.activeId
  have hhi := Int32.toInt_lt q.activeId
  unfold start binIdToBinArrayIndex
  omega

/-- The address of a bin array determines its index. -/
theorem eq_of_deriveBinArrayPda {d : ProgramAddresses} {lbPair : Pubkey} {a b : Int}
    (ha : -2 ^ 63 ≤ a ∧ a < 2 ^ 63) (hb : -2 ^ 63 ≤ b ∧ b < 2 ^ 63)
    (h : d.deriveBinArrayPda lbPair a = d.deriveBinArrayPda lbPair b) : a = b := by
  have h64 : Int64.ofInt a = Int64.ofInt b := d.bin_array_injective lbPair h
  rw [← Int64.toInt_ofInt_of_le ha.1 ha.2, ← Int64.toInt_ofInt_of_le hb.1 hb.2, h64]

/-- Without an internal bit ahead the nearest array is not internal. -/
theorem not_internal_of_search {direction : SwapDirection} {index : Int}
    (hsearch : internalHasBitInDirection q.bitmap q.start direction = false)
    (h : q.NearestIn direction index) : ¬ Internal index := by
  intro hin
  obtain ⟨k, rfl, hinit, _⟩ := h
  have hfound := internalHasBitInDirection_iff.mpr ⟨k, internalBit_of_initialized hinit hin⟩
  rw [hsearch] at hfound
  cases hfound

/-- With an internal bit ahead the nearest array is not beyond the internal range. -/
theorem not_beyond_of_search {direction : SwapDirection} {index : Int}
    (hsearch : internalHasBitInDirection q.bitmap q.start direction = true)
    (h : q.NearestIn direction index) : ¬ direction.Beyond index := by
  intro hbeyond
  obtain ⟨k, hbit⟩ := internalHasBitInDirection_iff.mp hsearch
  obtain ⟨j, hjk, hj⟩ := exists_nearest (initialized_of_internalBit hbit)
  cases nearest_unique h hj
  have hin := internal_of_internalBit hbit
  unfold Internal SwapDirection.ahead at hin
  unfold SwapDirection.Beyond SwapDirection.ahead at hbeyond
  cases direction with
  | yToX =>
      dsimp only at hin hbeyond
      omega
  | xToY =>
      dsimp only at hin hbeyond
      omega

/-- **The subscription is asked for** whenever some nearest array is not internal. -/
theorem needs_of_nearest {direction : SwapDirection} {index : Int}
    (h : q.NearestIn direction index) (hout : ¬ Internal index) :
    needsBitmapExtensionGeyserSubscription q.bitmap q.start = true := by
  cases hup : internalHasBitInDirection q.bitmap q.start .yToX with
  | false =>
      unfold needsBitmapExtensionGeyserSubscription
      rw [hup]
      rfl
  | true =>
      cases hdown : internalHasBitInDirection q.bitmap q.start .xToY with
      | false =>
          unfold needsBitmapExtensionGeyserSubscription
          rw [hup, hdown]
          rfl
      | true =>
          -- the active array is internal, so what is not internal lies beyond
          exfalso
          obtain ⟨a, ha⟩ := internalHasBitInDirection_iff.mp hup
          obtain ⟨b, hb⟩ := internalHasBitInDirection_iff.mp hdown
          have ha := internal_of_internalBit ha
          have hb := internal_of_internalBit hb
          unfold Internal SwapDirection.ahead at ha hb
          have hbeyond : direction.Beyond index := by
            obtain ⟨k, rfl, _⟩ := h
            unfold Internal SwapDirection.ahead at hout
            unfold SwapDirection.Beyond SwapDirection.ahead
            cases direction with
            | yToX =>
                dsimp only at ha hb hout ⊢
                omega
            | xToY =>
                dsimp only at ha hb hout ⊢
                omega
          cases direction with
          | yToX => exact not_beyond_of_search hup h hbeyond
          | xToY => exact not_beyond_of_search hdown h hbeyond

/-- A set bit of the extension is an initialized array. -/
theorem initialized_of_extensionBit {payload : ExtensionPayload}
    (hpayload : q.extensionPayload = some payload) {index : Int}
    (h : extensionBit payload.bytes index = true) : q.initialized index = true := by
  unfold initialized
  rw [hpayload, Option.elim_some, h, Bool.or_true]

/-- **The search over the extension returns the nearest array** that lies beyond. -/
theorem nearest_mem_collectExtension {payload : ExtensionPayload}
    (hpayload : q.extensionPayload = some payload) {direction : SwapDirection} {index : Int}
    (h : q.NearestIn direction index) (hout : ¬ Internal index) (hbeyond : direction.Beyond index) :
    index ∈ collectExtensionBinArrayIndices payload.bytes q.start direction 3 := by
  obtain ⟨k, rfl, hinit, hfirst⟩ := h
  obtain ⟨payload', hpayload', hbit⟩ := extensionBit_of_initialized hinit hout
  cases hpayload.symm.trans hpayload'
  refine mem_collectExtension payload.full (by decide) hbit hbeyond fun j hj => ?_
  refine Bool.eq_false_of_not_eq_true fun hbit' => ?_
  have hinit' := initialized_of_extensionBit hpayload hbit'
  rw [hfirst j hj] at hinit'
  cases hinit'

section Accounts

variable {d : ProgramAddresses} {lbPair : Pubkey}

/-- With an internal bit ahead the window around the active array is carried. -/
theorem resolve_of_internal
    (hsearch : internalHasBitInDirection q.bitmap q.start q.direction = true) :
    d.resolveBitmapSwapAccounts lbPair q.bitmap (q.extensionPayload.map (·.bytes)) q.activeId
      q.direction .adjacentThree =
      .ok (meteoraDlmmProgram,
        [q.start - 1, q.start, q.start + 1].map (d.deriveBinArrayPda lbPair)) := by
  unfold ProgramAddresses.resolveBitmapSwapAccounts
  exact if_pos hsearch

theorem resolve_of_unknown
    (hsearch : internalHasBitInDirection q.bitmap q.start q.direction = false)
    (hpayload : q.extensionPayload = none) :
    d.resolveBitmapSwapAccounts lbPair q.bitmap (q.extensionPayload.map (·.bytes)) q.activeId
      q.direction .adjacentThree = .error "bitmap_extension_unknown" := by
  unfold ProgramAddresses.resolveBitmapSwapAccounts
  rw [hpayload]
  exact if_neg (Bool.eq_false_iff.mp hsearch)

/-- Without one, what the search over the extension returns is carried. -/
theorem resolve_of_extension
    (hsearch : internalHasBitInDirection q.bitmap q.start q.direction = false)
    {payload : ExtensionPayload} (hpayload : q.extensionPayload = some payload) :
    d.resolveBitmapSwapAccounts lbPair q.bitmap (q.extensionPayload.map (·.bytes)) q.activeId
      q.direction .adjacentThree =
      if (collectExtensionBinArrayIndices payload.bytes q.start q.direction 3).isEmpty then
        .error "bitmap_extension_unknown"
      else .ok (d.deriveBitmapExtensionPda lbPair,
        (collectExtensionBinArrayIndices payload.bytes q.start q.direction 3).map
          (d.deriveBinArrayPda lbPair)) := by
  unfold ProgramAddresses.resolveBitmapSwapAccounts
  rw [hpayload]
  exact if_neg (Bool.eq_false_iff.mp hsearch)

/-- **What reaches the nearest array carries it.** -/
theorem carriesNearest_of_reaches (h : q.Reaches) : q.CarriesNearest d lbPair := by
  refine ⟨fun account1 binArrays hok => ?_, fun e herr => ?_,
    fun direction index hnear hout => needs_of_nearest hnear hout⟩
  · cases hsearch : internalHasBitInDirection q.bitmap q.start q.direction with
    | true =>
        rw [resolve_of_internal hsearch] at hok
        cases hok
        obtain ⟨k, hbit⟩ := internalHasBitInDirection_iff.mp hsearch
        obtain ⟨j, _, hnear⟩ := exists_nearest (initialized_of_internalBit hbit)
        have hin : Internal (q.direction.ahead q.start j) := by
          by_contra hout
          exact not_beyond_of_search hsearch hnear ((h _ hnear).2 hout)
        refine ⟨_, hnear, List.mem_map_of_mem ?_, (if_pos hin).symm⟩
        rcases (h _ hnear).1 hin with heq | heq
        · rw [heq]
          simp
        · rw [heq]
          unfold SwapDirection.ahead
          cases q.direction <;> simp
    | false =>
        cases hpayload : q.extensionPayload with
        | none =>
            rw [resolve_of_unknown hsearch hpayload] at hok
            cases hok
        | some payload =>
            rw [resolve_of_extension hsearch hpayload] at hok
            split at hok
            · cases hok
            · next hne =>
                cases hok
                obtain ⟨index, hindex⟩ := List.exists_mem_of_ne_nil _
                  (fun he => hne (List.isEmpty_iff.mpr he))
                obtain ⟨hbit, _, k, rfl⟩ := of_mem_collectExtension payload.full hindex
                obtain ⟨j, _, hnear⟩ := exists_nearest (initialized_of_extensionBit hpayload hbit)
                have hout := not_internal_of_search hsearch hnear
                have hmem := nearest_mem_collectExtension hpayload hnear hout ((h _ hnear).2 hout)
                exact ⟨_, hnear, List.mem_map_of_mem hmem, (if_neg hout).symm⟩
  · cases hpayload : q.extensionPayload with
    | none => exact .inr rfl
    | some payload =>
        refine .inl fun k => Bool.eq_false_of_not_eq_true fun hinit => ?_
        obtain ⟨j, _, hnear⟩ := exists_nearest hinit
        cases hsearch : internalHasBitInDirection q.bitmap q.start q.direction with
        | true =>
            rw [resolve_of_internal hsearch] at herr
            cases herr
        | false =>
            have hout := not_internal_of_search hsearch hnear
            have hmem := nearest_mem_collectExtension hpayload hnear hout ((h _ hnear).2 hout)
            rw [resolve_of_extension hsearch hpayload, if_neg fun he =>
              List.not_mem_nil (List.isEmpty_iff.mp he ▸ hmem)] at herr
            cases herr

/-- **What carries the nearest array reaches it.** -/
theorem reaches_of_carriesNearest (h : q.CarriesNearest d lbPair) : q.Reaches := by
  have hstart := q.bounds_start
  intro index hnear
  have hinit : q.initialized index = true := by
    obtain ⟨_, _, hinit, _⟩ := hnear
    exact hinit
  have hbounds := bounds_of_initialized hinit
  refine ⟨fun hin => ?_, fun hout => by_contra fun hbeyond => ?_⟩
  · have hsearch : internalHasBitInDirection q.bitmap q.start q.direction = true := by
      refine Bool.eq_true_of_not_eq_false fun hsearch => ?_
      exact not_internal_of_search hsearch hnear hin
    obtain ⟨index', hnear', hmem, _⟩ := h.carried _ _ (resolve_of_internal hsearch)
    cases nearest_unique hnear hnear'
    obtain ⟨i, hi, heq⟩ := List.mem_map.mp hmem
    have hi' : i = q.start - 1 ∨ i = q.start ∨ i = q.start + 1 := by simpa using hi
    cases eq_of_deriveBinArrayPda (by omega) (by omega) heq
    obtain ⟨k, hk, _⟩ := hnear
    unfold SwapDirection.ahead at hk ⊢
    cases hdirection : q.direction with
    | yToX =>
        rw [hdirection] at hk
        dsimp only at hk ⊢
        omega
    | xToY =>
        rw [hdirection] at hk
        dsimp only at hk ⊢
        omega
  · obtain ⟨payload, hpayload, _⟩ := extensionBit_of_initialized hinit hout
    cases hsearch : internalHasBitInDirection q.bitmap q.start q.direction with
    | true =>
        obtain ⟨index', hnear', _, haccount⟩ := h.carried _ _ (resolve_of_internal hsearch)
        cases nearest_unique hnear hnear'
        rw [if_neg hout] at haccount
        exact d.ne_program _ _ haccount.symm
    | false =>
        have hresolve := @resolve_of_extension q d lbPair hsearch payload hpayload
        split at hresolve
        · rcases h.refused _ hresolve with hnone | hnone
          · obtain ⟨k, rfl, _⟩ := hnear
            rw [hnone k] at hinit
            cases hinit
          · rw [hpayload] at hnone
            cases hnone
        · obtain ⟨index', hnear', hmem, _⟩ := h.carried _ _ hresolve
          cases nearest_unique hnear hnear'
          obtain ⟨i, hi, heq⟩ := List.mem_map.mp hmem
          obtain ⟨hbit, hbeyond', _⟩ := of_mem_collectExtension payload.full hi
          have hi' := (bounds_of_extensionBit hbit).2
          cases eq_of_deriveBinArrayPda (by omega) (by omega) heq
          exact hbeyond hbeyond'

end Accounts

end SwapBitmaps

/-- **The accounts of a swap are the ones it needs** exactly if the nearest initialized array is
    internal and at most one array ahead, or beyond the internal range in the swap's direction. -/
theorem swap_accounts_iff (d : ProgramAddresses) (lbPair : Pubkey) (q : SwapBitmaps) :
    q.CarriesNearest d lbPair ↔ q.Reaches :=
  ⟨SwapBitmaps.reaches_of_carriesNearest, SwapBitmaps.carriesNearest_of_reaches⟩

/-! ### An array out of reach -/

/-- The number that the last seed carries. -/
def seedNumber : List Seed → Nat
  | [_, _, .i64 i] => i.toUInt64.toNat
  | _ => 0

theorem seedNumber_lt (seeds : List Seed) : seedNumber seeds < 2 ^ 64 := by
  unfold seedNumber
  split
  · exact UInt64.toNat_lt _
  · decide

/-- Addresses that are the index of a bin array, on the side where the program's id is not. -/
def ProgramAddresses.byIndex : ProgramAddresses where
  findProgramAddress seeds program :=
    if program.val < 2 ^ 64 then ⟨2 ^ 64 + seedNumber seeds, by have := seedNumber_lt seeds; omega⟩
    else ⟨seedNumber seeds, by have := seedNumber_lt seeds; omega⟩
  bin_array_injective := fun lbPair i j h => by
    have hnumber : i.toUInt64.toNat = j.toUInt64.toNat := by
      dsimp only at h
      split at h
      · exact Nat.add_left_cancel (Fin.mk.inj h)
      · exact Fin.mk.inj h
    exact congrArg Int64.ofUInt64 (UInt64.toNat_inj.mp hnumber)
  ne_program := fun seeds program h => by
    have hlt := seedNumber_lt seeds
    have hval := congrArg Fin.val h
    split at hval
    · dsimp only at hval
      omega
    · dsimp only at hval
      omega

/-- Only array 5 is initialized, and the active array is array 0. -/
def farArray : SwapBitmaps where
  bitmap := Vector.ofFn fun i => if i = 8 then 32 else 0
  extensionPayload := none
  activeId := 0
  direction := .yToX

theorem far_array_missing : ¬ farArray.CarriesNearest .byIndex 0 := by
  intro h
  have hnear : farArray.NearestIn farArray.direction 5 := ⟨5, by decide, by decide, by decide⟩
  have hwindow := (SwapBitmaps.reaches_of_carriesNearest h 5 hnear).1 (by decide)
  exact absurd hwindow (by decide)

end IronCrab.Solana.MeteoraDlmm

/-
  File:      IronCrab/Ipc/Header.lean
  Subject:   THE VALUES INSIDE THE IPC RECORDS (src/ipc/schema.rs): numbers, amounts and the header
             that every record flattens.

  How a decimal is written as text and in which order a map is iterated is left to the libraries
  (`Serde`); `Serde.plain` is the plain text and the order of the keys.
-/
import IronCrab.Track.Snapshot
import IronCrab.Lib.Wire

namespace IronCrab.Ipc

open Wire

/-! ## 1. Numbers -/

/-- A finite `f64`, by its bits. -/
structure F64 where
  bits : UInt64
  finite : bits.toNat / 2 ^ 52 % 2 ^ 11 ≠ 2047

/-- A signed integer of a width. -/
abbrev Signed (width : Nat) := { n : Int // -2 ^ (width - 1) ≤ n ∧ n < 2 ^ (width - 1) }

theorem zero_inI32 : -2 ^ (32 - 1) ≤ (0 : Int) ∧ (0 : Int) < 2 ^ (32 - 1) := by decide

/-- `rust_decimal::Decimal`. -/
structure Decimal where
  negative : Bool
  mantissa : Fin (2 ^ 96)
  scale : Fin 29

/-- **What the libraries do**: a decimal survives its text, and a map is iterated in some order. -/
structure Serde where
  decimalText : Decimal → String
  decimalOfText : String → Option Decimal
  decimalOfText_text : ∀ d, decimalOfText (decimalText d) = some d
  iteration : Iteration

namespace Decimal

/-- The digits, at least one before the point. -/
def digits (d : Decimal) : List Char :=
  let written := Track.TextCodec.decimal.write d.mantissa
  List.replicate (d.scale + 1 - written.length) '0' ++ written

/-- `Decimal::to_string`. -/
def toText (d : Decimal) : String :=
  let whole := d.digits.length - d.scale
  .ofList ((if d.negative then ['-'] else []) ++ (d.digits.take whole ++
    if d.scale.val = 0 then [] else '.' :: d.digits.drop whole))

/-- A decimal by its sign, the digits before its point and those after it. -/
def ofParts (negative : Bool) (whole places : List Char) : Option Decimal :=
  (Track.TextCodec.decimal.read (whole ++ places)).bind fun mantissa =>
    if h : mantissa < 2 ^ 96 ∧ places.length < 29 then
      some ⟨negative, ⟨mantissa, h.1⟩, ⟨places.length, h.2⟩⟩
    else none

/-- `Decimal::from_str` of a plain text. -/
def ofText (text : String) : Option Decimal :=
  let negative := decide (text.toList.head? = some '-')
  let unsigned := if negative then text.toList.tail else text.toList
  ofParts negative (unsigned.takeWhile (· ≠ '.')) (unsigned.dropWhile (· ≠ '.')).tail

theorem mem_digits {d : Decimal} {ch : Char} (h : ch ∈ d.digits) :
    ch ∈ Track.TextCodec.decimal.chars := by
  unfold digits at h
  obtain h | h := List.mem_append.mp h
  · rw [List.eq_of_mem_replicate h]
    decide
  · exact Numeral.Alphabet.mem_chars_of_mem_write h

theorem scale_lt_length_digits (d : Decimal) : d.scale.val < d.digits.length := by
  unfold digits
  rw [List.length_append, List.length_replicate]
  omega

theorem read_digits (d : Decimal) :
    Track.TextCodec.decimal.read d.digits = some d.mantissa.val :=
  Numeral.Alphabet.read_write _ _

/-- The text without its sign. -/
theorem split_point {whole places : List Char} (h : ∀ ch ∈ whole, ch ≠ '.') {scale : Nat}
    (hscale : places.length = scale) :
    let unsigned := whole ++ if scale = 0 then [] else '.' :: places
    unsigned.takeWhile (· ≠ '.') = whole ∧ (unsigned.dropWhile (· ≠ '.')).tail = places := by
  have hall : ∀ ch ∈ whole, decide (ch ≠ '.') = true := fun ch hch => decide_eq_true (h ch hch)
  dsimp only
  rw [List.takeWhile_append_of_pos hall, List.dropWhile_append_of_pos hall]
  split_ifs with h0
  · rw [List.length_eq_zero_iff.mp (hscale.trans h0)]
    exact ⟨List.append_nil _, rfl⟩
  · exact ⟨List.append_nil _, rfl⟩

theorem ofText_toText (d : Decimal) : ofText d.toText = some d := by
  have hlt := d.scale_lt_length_digits
  have hlength : (d.digits.drop (d.digits.length - d.scale)).length = d.scale := by
    rw [List.length_drop]
    omega
  have hdigit : ∀ ch ∈ d.digits.take (d.digits.length - d.scale), ch ≠ '.' ∧ ch ≠ '-' := by
    intro ch hch
    have hmem := mem_digits (List.mem_of_mem_take hch)
    refine ⟨fun heq => ?_, fun heq => ?_⟩
    all_goals
      rw [heq] at hmem
      exact absurd hmem (by decide)
  obtain ⟨hwhole, hplaces⟩ := split_point (fun ch hch => (hdigit ch hch).1) hlength
  have hhead : (d.digits.take (d.digits.length - d.scale) ++
      if d.scale.val = 0 then [] else '.' :: d.digits.drop (d.digits.length - d.scale)).head? ≠
        some '-' := by
    intro heq
    have hne : d.digits.take (d.digits.length - d.scale) ≠ [] := by
      rw [← List.length_pos_iff, List.length_take]
      omega
    rw [List.head?_append_of_ne_nil _ hne] at heq
    exact (hdigit '-' (List.mem_of_head? heq)).2 rfl
  have hsign : decide (d.toText.toList.head? = some '-') = d.negative := by
    unfold toText
    rw [String.toList_ofList]
    cases hnegative : d.negative with
    | true => rfl
    | false => exact decide_eq_false hhead
  have hunsigned : (if d.negative then d.toText.toList.tail else d.toText.toList) =
      d.digits.take (d.digits.length - d.scale) ++
        if d.scale.val = 0 then [] else '.' :: d.digits.drop (d.digits.length - d.scale) := by
    unfold toText
    rw [String.toList_ofList]
    cases d.negative with
    | true => rfl
    | false => rfl
  unfold ofText
  dsimp only
  rw [hsign, hunsigned, hwhole, hplaces]
  unfold ofParts
  rw [List.take_append_drop, read_digits, Option.bind_some,
    dif_pos ⟨d.mantissa.isLt, hlength.trans_lt d.scale.isLt⟩]
  congr 2
  exact Fin.ext hlength

end Decimal

/-- Decimals in plain text, maps key by key. -/
def Serde.plain : Serde := ⟨Decimal.toText, Decimal.ofText, Decimal.ofText_toText, .byKey⟩

/-- An unsigned integer of a type. -/
def unsigned {A : Type} (size : Nat) (toNat : A → Nat) (ofNat : Nat → A)
    (hlt : ∀ a, toNat a < size) (hof : ∀ a, ofNat (toNat a) = a) : Codec F64 A :=
  .integer (fun a => toNat a)
    (fun n => if 0 ≤ n ∧ n < size then some (ofNat n.toNat) else none) fun a => by
      rw [if_pos ⟨Int.natCast_nonneg _, Int.ofNat_lt.mpr (hlt a)⟩, Int.toNat_natCast, hof]

def u8 : Codec F64 UInt8 :=
  unsigned (2 ^ 8) UInt8.toNat .ofNat UInt8.toNat_lt fun _ => UInt8.ofNat_toNat

def u16 : Codec F64 UInt16 :=
  unsigned (2 ^ 16) UInt16.toNat .ofNat UInt16.toNat_lt fun _ => UInt16.ofNat_toNat

def u32 : Codec F64 UInt32 :=
  unsigned (2 ^ 32) UInt32.toNat .ofNat UInt32.toNat_lt fun _ => UInt32.ofNat_toNat

def u64 : Codec F64 UInt64 :=
  unsigned (2 ^ 64) UInt64.toNat .ofNat UInt64.toNat_lt fun _ => UInt64.ofNat_toNat

def signed (width : Nat) : Codec F64 (Signed width) :=
  .integer Subtype.val
    (fun n => if h : -2 ^ (width - 1) ≤ n ∧ n < 2 ^ (width - 1) then some ⟨n, h⟩ else none)
    fun n => dif_pos n.property

def f64 : Codec F64 F64 := .float

def bool : Codec F64 Bool := .bool

def string : Codec F64 String := .string

def decimal (S : Serde) : Codec F64 Decimal :=
  .text S.decimalText S.decimalOfText S.decimalOfText_text

/-- `HashMap<String, String>`. -/
abbrev StringMap := Finmap fun _ : String => String

def stringMap (S : Serde) : Codec F64 StringMap := .dictionary S.iteration

/-- An enum without payloads, by the names of its variants. -/
def unitEnum {A : Type} (all : List A) (name : A → String)
    (h : ∀ a, (all.find? fun a' => name a' = name a) = some a) : Codec F64 A :=
  .text name (fun text => all.find? fun a => name a = text) h

/-! ## 2. The header -/

/-- `NATIVE_SOL_MINT`. -/
def nativeSolMint : String := "So11111111111111111111111111111111111111112"

/-- `RecordHeader`. -/
structure RecordHeader where
  schemaVersion : UInt32
  tsUnixMs : UInt64
  component : String
  build : String
  runId : String

def RecordHeader.part : Part F64 RecordHeader :=
  (Fields.part
    (.cons (.required "schema_version" u32) <|
      .cons (.required "ts_unix_ms" u64) <|
      .cons (.required "component" string) <|
      .cons (.required "build" string) <|
      .cons (.required "run_id" string) .nil)
    (by decide)).map
    (fun (schemaVersion, tsUnixMs, component, build, runId, ()) =>
      ⟨schemaVersion, tsUnixMs, component, build, runId⟩)
    (fun r => (r.schemaVersion, r.tsUnixMs, r.component, r.build, r.runId, ()))
    (fun _ => rfl)

/-- `ExplicitAmount`. -/
structure ExplicitAmount where
  raw : UInt64
  decimals : UInt8
  ui : Option Decimal

def ExplicitAmount.codec (S : Serde) : Codec F64 ExplicitAmount :=
  .object <| (Fields.part
    (.cons (.required "raw" u64) <|
      .cons (.required "decimals" u8) <|
      .cons (.optional "ui" (decimal S)) .nil)
    (of_decide_eq_true rfl)).map
    (fun (raw, decimals, ui, ()) => ⟨raw, decimals, ui⟩)
    (fun r => (r.raw, r.decimals, r.ui, ()))
    (fun _ => rfl)

end IronCrab.Ipc

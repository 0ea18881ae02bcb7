/-
  File:      IronCrab/Lib/Wire.lean
  Subject:   RECORDS AS JSON OBJECTS, WITH FLATTENED RECORDS AND TAGGED VARIANTS. Nothing here
             names a program.

  A codec, a field and a part of a record carry the law of their round trip, so that only what
  survives the wire can be built.

  * `Codec` -- a value as a JSON value;
  * `Field` -- a value under a key that may be left out;
  * `Part` -- some keys of an object: `Fields.part`, `Part.flatten`, `Part.tagged`;
  * `Part.unique_write`, `Part.read_write_self` -- an object that is written has no key twice and
    reads back.
-/
import Mathlib.Data.List.Basic
import Mathlib.Data.List.Nodup
import Mathlib.Data.Finmap
import Mathlib.Data.Finset.Sort
import Mathlib.Data.String.Basic

namespace Wire

/-! ## 1. JSON -/

/-- JSON over a type of the numbers that are no integers. -/
inductive Json (F : Type) where
  | null
  | bool (b : Bool)
  | int (n : Int)
  | float (x : F)
  | str (s : String)
  | arr (items : List (Json F))
  | obj (entries : List (String × Json F))

/-- The entries of an object, in their order. -/
abbrev Entries (F : Type) := List (String × Json F)

/-- **No object in a value has a key twice.** -/
inductive Json.Unique {F : Type} : Json F → Prop
  | null : Unique .null
  | bool (b : Bool) : Unique (.bool b)
  | int (n : Int) : Unique (.int n)
  | float (x : F) : Unique (.float x)
  | str (s : String) : Unique (.str s)
  | arr {items : List (Json F)} (h : ∀ j ∈ items, Unique j) : Unique (.arr items)
  | obj {entries : Entries F} (nodup : (entries.map Prod.fst).Nodup)
      (h : ∀ e ∈ entries, Unique e.2) : Unique (.obj entries)

variable {F A B K : Type}

/-- The values under a key. -/
def valuesAt (entries : Entries F) (key : String) : List (Json F) :=
  (entries.filter fun e => e.1 = key).map Prod.snd

/-- The entries under other keys. -/
def without (keys : List String) (entries : Entries F) : Entries F :=
  entries.filter fun e => e.1 ∉ keys

theorem valuesAt_append (left right : Entries F) (key : String) :
    valuesAt (left ++ right) key = valuesAt left key ++ valuesAt right key := by
  unfold valuesAt
  rw [List.filter_append, List.map_append]

theorem valuesAt_cons_self (key : String) (j : Json F) (entries : Entries F) :
    valuesAt ((key, j) :: entries) key = j :: valuesAt entries key := by
  unfold valuesAt
  rw [List.filter_cons_of_pos (by simp), List.map_cons]

theorem valuesAt_cons_of_ne {key key' : String} (h : key' ≠ key) (j : Json F)
    (entries : Entries F) : valuesAt ((key', j) :: entries) key = valuesAt entries key := by
  unfold valuesAt
  rw [List.filter_cons_of_neg (by simp [h])]

theorem valuesAt_eq_nil (entries : Entries F) {key : String} (h : ∀ e ∈ entries, e.1 ≠ key) :
    valuesAt entries key = [] := by
  unfold valuesAt
  rw [List.map_eq_nil_iff, List.filter_eq_nil_iff]
  intro e he
  simp [h e he]

/-- What is left without some keys has the same values under every other key. -/
theorem valuesAt_without {keys : List String} {key : String} (h : key ∉ keys)
    (entries : Entries F) : valuesAt (without keys entries) key = valuesAt entries key := by
  unfold valuesAt without
  rw [List.filter_filter]
  congr 1
  refine List.filter_congr fun e _ => ?_
  by_cases hkey : e.1 = key
  · simp [hkey, h]
  · simp [hkey]

/-! ## 2. Values -/

/-- **A codec**: what is written reads back, has no key twice and is not null. -/
structure Codec (F A : Type) where
  write : A → Json F
  read : Json F → Option A
  read_write : ∀ a, read (write a) = some a
  write_ne_null : ∀ a, write a ≠ .null
  unique : ∀ a, (write a).Unique

namespace Codec

def bool : Codec F Bool where
  write := .bool
  read
    | .bool b => some b
    | _ => none
  read_write _ := rfl
  write_ne_null _ := nofun
  unique := .bool

def float : Codec F F where
  write := .float
  read
    | .float x => some x
    | _ => none
  read_write _ := rfl
  write_ne_null _ := nofun
  unique := .float

/-- Values written as integers. -/
def integer (toInt : A → Int) (ofInt : Int → Option A) (h : ∀ a, ofInt (toInt a) = some a) :
    Codec F A where
  write a := .int (toInt a)
  read
    | .int n => ofInt n
    | _ => none
  read_write := h
  write_ne_null _ := nofun
  unique a := .int (toInt a)

/-- Values written as strings. -/
def text (toText : A → String) (ofText : String → Option A) (h : ∀ a, ofText (toText a) = some a) :
    Codec F A where
  write a := .str (toText a)
  read
    | .str s => ofText s
    | _ => none
  read_write := h
  write_ne_null _ := nofun
  unique a := .str (toText a)

def string : Codec F String := text id some fun _ => rfl

/-- All values of a list, if each reads. -/
def readAll (c : Codec F A) : List (Json F) → Option (List A)
  | [] => some []
  | j :: items => do
      let a ← c.read j
      let rest ← readAll c items
      return a :: rest

theorem readAll_write (c : Codec F A) (values : List A) :
    c.readAll (values.map c.write) = some values := by
  induction values with
  | nil => rfl
  | cons a rest ih =>
      rw [List.map_cons, readAll, c.read_write, ih]
      rfl

def list (c : Codec F A) : Codec F (List A) where
  write values := .arr (values.map c.write)
  read
    | .arr items => c.readAll items
    | _ => none
  read_write := c.readAll_write
  write_ne_null _ := nofun
  unique values := .arr fun j hj => by
    obtain ⟨a, -, rfl⟩ := List.mem_map.mp hj
    exact c.unique a

end Codec

/-! ## 3. Fields -/

/-- **A field**: a value under a key, or left out. -/
structure Field (F A : Type) where
  key : String
  write : A → Option (Json F)
  read : Option (Json F) → Option A
  read_write : ∀ a, read (write a) = some a
  unique : ∀ a j, write a = some j → j.Unique

namespace Field

/-- A field that is always there. -/
def required (key : String) (c : Codec F A) : Field F A where
  key
  write a := some (c.write a)
  read j := j.bind c.read
  read_write := c.read_write
  unique a j h := by
    cases h
    exact c.unique a

/-- A field that is always written, with a default for readers. -/
def withDefault (key : String) (c : Codec F A) (default : A) : Field F A where
  key
  write a := some (c.write a)
  read
    | none => some default
    | some j => c.read j
  read_write := c.read_write
  unique a j h := by
    cases h
    exact c.unique a

/-- An optional field: null or absent is nothing. -/
def readOption (c : Codec F A) : Option (Json F) → Option (Option A)
  | none => some none
  | some .null => some none
  | some j => (c.read j).map some

theorem readOption_write (c : Codec F A) (a : A) :
    readOption c (some (c.write a)) = some (some a) := by
  have hread := c.read_write a
  have hnull := c.write_ne_null a
  unfold readOption
  split
  case h_1 heq => cases heq
  case h_2 heq => exact absurd (Option.some.inj heq) hnull
  case h_3 heq =>
      cases heq
      rw [hread]
      rfl

/-- An optional field that is written as null. -/
def nullable (key : String) (c : Codec F A) : Field F (Option A) where
  key
  write
    | none => some .null
    | some a => some (c.write a)
  read := readOption c
  read_write
    | none => rfl
    | some a => readOption_write c a
  unique
    | none, j, h => by
        cases h
        exact .null
    | some a, j, h => by
        cases h
        exact c.unique a

/-- An optional field that is left out. -/
def optional (key : String) (c : Codec F A) : Field F (Option A) where
  key
  write a := a.map c.write
  read := readOption c
  read_write
    | none => rfl
    | some a => readOption_write c a
  unique a j h := by
    obtain ⟨b, -, rfl⟩ := Option.map_eq_some_iff.mp h
    exact c.unique b

/-- A field that is left out where it has its default. -/
def skipped (key : String) (c : Codec F A) (default : A) (skip : A → Bool)
    (h : ∀ a, skip a = true → a = default) : Field F A where
  key
  write a := if skip a then none else some (c.write a)
  read
    | none => some default
    | some j => c.read j
  read_write a := by
    cases hskip : skip a with
    | true => rw [if_pos rfl, h a hskip]
    | false =>
        rw [if_neg Bool.false_ne_true]
        exact c.read_write a
  unique a j hj := by
    split at hj
    case isTrue => cases hj
    case isFalse =>
        cases hj
        exact c.unique a

/-- What a field reads of an object: two values under its key are an error. -/
def readFrom (f : Field F A) (entries : Entries F) : Option A :=
  match valuesAt entries f.key with
  | [] => f.read none
  | [j] => f.read (some j)
  | _ => none

/-- What a field adds to an object. -/
def entriesOf (f : Field F A) (a : A) : Entries F :=
  match f.write a with
  | none => []
  | some j => [(f.key, j)]

theorem key_of_mem_entriesOf {f : Field F A} {a : A} {e : String × Json F}
    (h : e ∈ f.entriesOf a) : e.1 = f.key ∧ e.2.Unique := by
  unfold entriesOf at h
  split at h
  case h_1 => cases h
  case h_2 j hj =>
      cases List.mem_singleton.mp h
      exact ⟨rfl, f.unique a j hj⟩

theorem readFrom_of_agrees (f : Field F A) (a : A) {entries : Entries F}
    (h : valuesAt entries f.key = valuesAt (f.entriesOf a) f.key) :
    f.readFrom entries = some a := by
  have hread := f.read_write a
  unfold readFrom
  rw [h]
  unfold entriesOf
  cases hwrite : f.write a with
  | none =>
      rw [hwrite] at hread
      exact hread
  | some j =>
      rw [hwrite] at hread
      dsimp only
      rw [valuesAt_cons_self]
      exact hread

end Field

/-! ## 4. Parts of a record -/

/-- **A part of a record**: what it writes has its keys, none twice, and any object that agrees with
    it on those keys reads back. -/
structure Part (F A : Type) where
  keys : List String
  write : A → Entries F
  read : Entries F → Option A
  key_mem : ∀ a, ∀ e ∈ write a, e.1 ∈ keys
  nodup : ∀ a, ((write a).map Prod.fst).Nodup
  unique : ∀ a, ∀ e ∈ write a, e.2.Unique
  read_of_agrees : ∀ a entries,
    (∀ key ∈ keys, valuesAt entries key = valuesAt (write a) key) → read entries = some a

/-- The fields of a record, in their order. -/
inductive Fields (F : Type) : Type → Type 1
  | nil : Fields F Unit
  | cons {A B : Type} (field : Field F A) (rest : Fields F B) : Fields F (A × B)

namespace Fields

def keys {A : Type} : Fields F A → List String
  | .nil => []
  | .cons field rest => field.key :: rest.keys

def write {A : Type} : Fields F A → A → Entries F
  | .nil, _ => []
  | .cons field rest, (a, b) => field.entriesOf a ++ rest.write b

def read {A : Type} : Fields F A → Entries F → Option A
  | .nil, _ => some ()
  | .cons field rest, entries => do
      let a ← field.readFrom entries
      let b ← rest.read entries
      return (a, b)

theorem key_of_mem_write {A : Type} (fields : Fields F A) (a : A) :
    ∀ e ∈ fields.write a, e.1 ∈ fields.keys ∧ e.2.Unique := by
  induction fields with
  | nil => exact fun _ h => absurd h List.not_mem_nil
  | cons field rest ih =>
      intro e he
      obtain he | he := List.mem_append.mp he
      · obtain ⟨hkey, hunique⟩ := Field.key_of_mem_entriesOf he
        exact ⟨hkey ▸ List.mem_cons_self, hunique⟩
      · obtain ⟨hkey, hunique⟩ := ih a.2 e he
        exact ⟨List.mem_cons_of_mem _ hkey, hunique⟩

theorem nodup_write {A : Type} (fields : Fields F A) (h : fields.keys.Nodup) (a : A) :
    ((fields.write a).map Prod.fst).Nodup := by
  induction fields with
  | nil => exact List.nodup_nil
  | cons field rest ih =>
      obtain ⟨hnew, hrest⟩ := List.nodup_cons.mp h
      change ((field.entriesOf a.1 ++ rest.write a.2).map Prod.fst).Nodup
      rw [List.map_append]
      refine List.Nodup.append ?_ (ih hrest a.2) ?_
      · unfold Field.entriesOf
        split
        · exact List.nodup_nil
        · exact List.nodup_singleton _
      · intro key hleft hright
        obtain ⟨e, he, rfl⟩ := List.mem_map.mp hleft
        obtain ⟨e', he', hkey⟩ := List.mem_map.mp hright
        refine hnew ?_
        rw [← (Field.key_of_mem_entriesOf he).1, ← hkey]
        exact (rest.key_of_mem_write a.2 e' he').1

theorem read_of_agrees {A : Type} (fields : Fields F A) (h : fields.keys.Nodup) (a : A)
    (entries : Entries F)
    (hagrees : ∀ key ∈ fields.keys, valuesAt entries key = valuesAt (fields.write a) key) :
    fields.read entries = some a := by
  induction fields with
  | nil => rfl
  | cons field rest ih =>
      obtain ⟨hnew, hrest⟩ := List.nodup_cons.mp h
      have hfirst : field.readFrom entries = some a.1 := by
        refine field.readFrom_of_agrees a.1 ?_
        rw [hagrees field.key List.mem_cons_self]
        change valuesAt (field.entriesOf a.1 ++ rest.write a.2) field.key = _
        rw [valuesAt_append, valuesAt_eq_nil (rest.write a.2), List.append_nil]
        intro e he heq
        exact hnew (heq ▸ (rest.key_of_mem_write a.2 e he).1)
      have hothers : rest.read entries = some a.2 := by
        refine ih hrest a.2 fun key hkey => ?_
        rw [hagrees key (List.mem_cons_of_mem _ hkey)]
        change valuesAt (field.entriesOf a.1 ++ rest.write a.2) key = _
        rw [valuesAt_append, valuesAt_eq_nil (field.entriesOf a.1), List.nil_append]
        intro e he heq
        refine hnew ?_
        rw [← (Field.key_of_mem_entriesOf he).1, heq]
        exact hkey
      unfold read
      rw [hfirst, hothers]
      rfl

/-- A record of fields with different keys. -/
def part {A : Type} (fields : Fields F A) (h : fields.keys.Nodup) : Part F A where
  keys := fields.keys
  write := fields.write
  read := fields.read
  key_mem a e he := (fields.key_of_mem_write a e he).1
  nodup := fields.nodup_write h
  unique a e he := (fields.key_of_mem_write a e he).2
  read_of_agrees := fields.read_of_agrees h

end Fields

namespace Part

/-- The same part for another way to hold its values. -/
def map (p : Part F A) (toB : A → B) (ofB : B → A) (h : ∀ b, toB (ofB b) = b) : Part F B where
  keys := p.keys
  write b := p.write (ofB b)
  read entries := (p.read entries).map toB
  key_mem b := p.key_mem (ofB b)
  nodup b := p.nodup (ofB b)
  unique b := p.unique (ofB b)
  read_of_agrees b entries hagrees := by
    rw [p.read_of_agrees (ofB b) entries hagrees, Option.map_some, h]

/-- What an object with the entries of two parts shows under the keys of one of them. -/
theorem valuesAt_append_write (own : Part F A) (inner : Part F B)
    (h : ∀ key ∈ own.keys, key ∉ inner.keys) (a : A) (b : B) {key : String}
    (hkey : key ∈ own.keys) :
    valuesAt (own.write a ++ inner.write b) key = valuesAt (own.write a) key ∧
      valuesAt (inner.write b ++ own.write a) key = valuesAt (own.write a) key := by
  have hnil : valuesAt (inner.write b) key = [] :=
    valuesAt_eq_nil (inner.write b) fun e he heq => h key hkey (heq ▸ inner.key_mem b e he)
  constructor
  · rw [valuesAt_append, hnil, List.append_nil]
  · rw [valuesAt_append, hnil, List.nil_append]

/-- **A part flattened into a record**, written before or after the record's own keys. It reads what
    the record's own keys leave. -/
def flatten (own : Part F A) (before : Bool) (inner : Part F B)
    (h : ∀ key ∈ own.keys, key ∉ inner.keys) : Part F (A × B) where
  keys := own.keys ++ inner.keys
  write ab :=
    if before then inner.write ab.2 ++ own.write ab.1
    else own.write ab.1 ++ inner.write ab.2
  read entries := do
    let a ← own.read entries
    let b ← inner.read (without own.keys entries)
    return (a, b)
  key_mem ab e he := by
    have hmem : e ∈ own.write ab.1 ++ inner.write ab.2 := by
      cases before with
      | true => exact List.mem_append.mpr (List.mem_append.mp he).symm
      | false => exact he
    obtain hmem | hmem := List.mem_append.mp hmem
    · exact List.mem_append_left _ (own.key_mem ab.1 e hmem)
    · exact List.mem_append_right _ (inner.key_mem ab.2 e hmem)
  nodup ab := by
    have hdisjoint :
        ((own.write ab.1).map Prod.fst).Disjoint ((inner.write ab.2).map Prod.fst) := by
      intro key hown hinner
      obtain ⟨e, he, rfl⟩ := List.mem_map.mp hown
      obtain ⟨e', he', hkey⟩ := List.mem_map.mp hinner
      exact h e.1 (own.key_mem ab.1 e he) (hkey ▸ inner.key_mem ab.2 e' he')
    cases before with
    | true =>
        change ((inner.write ab.2 ++ own.write ab.1).map Prod.fst).Nodup
        rw [List.map_append]
        exact List.Nodup.append (inner.nodup ab.2) (own.nodup ab.1) hdisjoint.symm
    | false =>
        change ((own.write ab.1 ++ inner.write ab.2).map Prod.fst).Nodup
        rw [List.map_append]
        exact List.Nodup.append (own.nodup ab.1) (inner.nodup ab.2) hdisjoint
  unique ab e he := by
    have hmem : e ∈ own.write ab.1 ++ inner.write ab.2 := by
      cases before with
      | true => exact List.mem_append.mpr (List.mem_append.mp he).symm
      | false => exact he
    obtain hmem | hmem := List.mem_append.mp hmem
    · exact own.unique ab.1 e hmem
    · exact inner.unique ab.2 e hmem
  read_of_agrees ab entries hagrees := by
    have hown : own.read entries = some ab.1 := by
      refine own.read_of_agrees ab.1 entries fun key hkey => ?_
      obtain ⟨hafter, hbefore⟩ := valuesAt_append_write own inner h ab.1 ab.2 hkey
      rw [hagrees key (List.mem_append_left _ hkey)]
      cases before with
      | true => exact hbefore
      | false => exact hafter
    have hinner : inner.read (without own.keys entries) = some ab.2 := by
      refine inner.read_of_agrees ab.2 _ fun key hkey => ?_
      have hnot : key ∉ own.keys := fun hmem => h key hmem hkey
      obtain ⟨hafter, hbefore⟩ :=
        valuesAt_append_write inner own (fun k hk hmem => h k hmem hk) ab.2 ab.1 hkey
      rw [valuesAt_without hnot, hagrees key (List.mem_append_right _ hkey)]
      cases before with
      | true => exact hafter
      | false => exact hbefore
    rw [hown, hinner]
    rfl

end Part

/-! ## 5. Tagged variants -/

/-- **A variant** of a type: its name under the tag, and the fields of its payload. -/
structure Variant (F K : Type) where
  name : String
  Payload : Type
  part : Part F Payload
  wrap : Payload → K
  unwrap : K → Option Payload
  wrap_of_unwrap : ∀ k p, unwrap k = some p → wrap p = k

namespace Variant

/-- A variant with fields. -/
def of (name : String) (fields : Fields F A) (h : fields.keys.Nodup) (wrap : A → K)
    (unwrap : K → Option A) (hwrap : ∀ k p, unwrap k = some p → wrap p = k) : Variant F K where
  name
  Payload := A
  part := fields.part h
  wrap
  unwrap
  wrap_of_unwrap := hwrap

end Variant

/-- What a variant writes of a value, if the value is of it. -/
def Variant.write (v : Variant F K) (tag : String) (k : K) : Option (Entries F) :=
  (v.unwrap k).map fun p => (tag, .str v.name) :: v.part.write p

/-- What a value writes: its first variant. -/
def writeTagged (tag : String) (variants : List (Variant F K)) (k : K) : Entries F :=
  (variants.findSome? fun v => v.write tag k).getD []

/-- What an object reads as: the variant that its tag names, over what the tag leaves. -/
def readTagged (tag : String) (variants : List (Variant F K)) (entries : Entries F) : Option K :=
  match valuesAt entries tag with
  | [.str name] =>
      match variants.find? fun v => v.name = name with
      | some v => (v.part.read (without [tag] entries)).map v.wrap
      | none => none
  | _ => none

/-- **The variants of a type**, by name. -/
structure Variants (F K : Type) where
  tag : String
  variants : List (Variant F K)
  nodup : (variants.map Variant.name).Nodup
  tag_new : ∀ v ∈ variants, tag ∉ v.part.keys
  complete : ∀ k, (variants.any fun v => (v.unwrap k).isSome) = true

namespace Variants

variable (vs : Variants F K)

/-- A value is written by one of the variants. -/
theorem write_cases (k : K) : ∃ v ∈ vs.variants, ∃ p, v.unwrap k = some p ∧
    writeTagged vs.tag vs.variants k = (vs.tag, .str v.name) :: v.part.write p := by
  obtain ⟨v, hv, hsome⟩ := List.any_eq_true.mp (vs.complete k)
  obtain ⟨p, hp⟩ := Option.isSome_iff_exists.mp hsome
  unfold writeTagged
  cases hfound : vs.variants.findSome? fun v => v.write vs.tag k with
  | none =>
      have hnone := List.findSome?_eq_none_iff.mp hfound v hv
      unfold Variant.write at hnone
      rw [hp] at hnone
      cases hnone
  | some entries =>
      obtain ⟨v', hv', hwrite⟩ := List.exists_of_findSome?_eq_some hfound
      obtain ⟨p', hp', rfl⟩ := Option.map_eq_some_iff.mp hwrite
      exact ⟨v', hv', p', hp', rfl⟩

/-- A variant is found by its name. -/
theorem find_name {v : Variant F K} (hv : v ∈ vs.variants) :
    (vs.variants.find? fun v' => v'.name = v.name) = some v := by
  have hnodup := vs.nodup
  generalize vs.variants = variants at hv hnodup
  induction variants with
  | nil => cases hv
  | cons v' rest ih =>
      obtain ⟨hnew, hrest⟩ := List.nodup_cons.mp hnodup
      by_cases hname : v'.name = v.name
      · rw [List.find?_cons_of_pos (by simp [hname])]
        obtain rfl | hmem := List.mem_cons.mp hv
        · rfl
        · exact absurd (hname ▸ List.mem_map_of_mem hmem) hnew
      · rw [List.find?_cons_of_neg (by simp [hname])]
        obtain rfl | hmem := List.mem_cons.mp hv
        · exact absurd rfl hname
        · exact ih hmem hrest

/-- **The part of a tagged type**: the tag, then the fields of the variant. -/
def part : Part F K where
  keys := vs.tag :: vs.variants.flatMap fun v => v.part.keys
  write := writeTagged vs.tag vs.variants
  read := readTagged vs.tag vs.variants
  key_mem k e he := by
    obtain ⟨v, hv, p, -, hwrite⟩ := vs.write_cases k
    rw [hwrite] at he
    obtain rfl | he := List.mem_cons.mp he
    · exact List.mem_cons_self
    · exact List.mem_cons_of_mem _ (List.mem_flatMap.mpr ⟨v, hv, v.part.key_mem p e he⟩)
  nodup k := by
    obtain ⟨v, hv, p, -, hwrite⟩ := vs.write_cases k
    rw [hwrite, List.map_cons, List.nodup_cons]
    refine ⟨fun hmem => ?_, v.part.nodup p⟩
    obtain ⟨e, he, hkey⟩ := List.mem_map.mp hmem
    replace hkey : e.1 = vs.tag := hkey
    exact vs.tag_new v hv (hkey ▸ v.part.key_mem p e he)
  unique k e he := by
    obtain ⟨v, hv, p, -, hwrite⟩ := vs.write_cases k
    rw [hwrite] at he
    obtain rfl | he := List.mem_cons.mp he
    · exact .str _
    · exact v.part.unique p e he
  read_of_agrees k entries hagrees := by
    obtain ⟨v, hv, p, hp, hwrite⟩ := vs.write_cases k
    have hnot : ∀ e ∈ v.part.write p, e.1 ≠ vs.tag := fun e he heq =>
      vs.tag_new v hv (heq ▸ v.part.key_mem p e he)
    have htag : valuesAt entries vs.tag = [.str v.name] := by
      rw [hagrees vs.tag List.mem_cons_self, hwrite, valuesAt_cons_self,
        valuesAt_eq_nil (v.part.write p) hnot]
    have hpayload : v.part.read (without [vs.tag] entries) = some p := by
      refine v.part.read_of_agrees p _ fun key hkey => ?_
      have hne : key ≠ vs.tag := fun heq => vs.tag_new v hv (heq ▸ hkey)
      rw [valuesAt_without (by simpa using hne),
        hagrees key (List.mem_cons_of_mem _ (List.mem_flatMap.mpr ⟨v, hv, hkey⟩)), hwrite,
        valuesAt_cons_of_ne hne.symm]
    unfold readTagged
    rw [htag]
    dsimp only
    rw [vs.find_name hv]
    dsimp only
    rw [hpayload, Option.map_some, v.wrap_of_unwrap k p hp]

end Variants

/-! ## 6. Objects -/

namespace Part

variable (p : Part F A)

/-- **What is written has no key twice**, in it and in every object inside. -/
theorem unique_write (a : A) : (Json.obj (p.write a)).Unique := .obj (p.nodup a) (p.unique a)

/-- **What is written reads back.** -/
theorem read_write_self (a : A) : p.read (p.write a) = some a :=
  p.read_of_agrees a (p.write a) fun _ _ => rfl

end Part

/-- A record as a value. -/
def Codec.object (p : Part F A) : Codec F A where
  write a := .obj (p.write a)
  read
    | .obj entries => p.read entries
    | _ => none
  read_write := p.read_write_self
  write_ne_null _ := nofun
  unique := p.unique_write

/-! ## 7. Maps -/

/-- An order in which the entries of each map are visited. -/
structure Iteration where
  entries : Finmap (fun _ : String => String) → List (Sigma fun _ : String => String)
  nodup : ∀ m, (entries m).NodupKeys
  toFinmap : ∀ m, (entries m).toFinmap = m

/-- The entries of a map in the order of its keys. -/
def sortedEntries (m : Finmap fun _ : String => String) : List (Sigma fun _ : String => String) :=
  m.keys.sort.map fun key => ⟨key, (m.lookup key).getD ""⟩

theorem nodupKeys_sortedEntries (m : Finmap fun _ : String => String) :
    (sortedEntries m).NodupKeys := by
  unfold sortedEntries List.NodupKeys List.keys
  rw [List.map_map]
  exact (m.keys.sort_nodup (· ≤ ·)).map fun _ _ h => h

theorem toFinmap_sortedEntries (m : Finmap fun _ : String => String) :
    (sortedEntries m).toFinmap = m := by
  refine Finmap.ext_lookup fun key => ?_
  rw [Finmap.dlookup_list_toFinmap]
  cases hkey : m.lookup key with
  | none =>
      refine List.dlookup_eq_none.mpr fun hmem => ?_
      obtain ⟨e, he, rfl⟩ := List.mem_map.mp hmem
      obtain ⟨key, hin, rfl⟩ := List.mem_map.mp he
      exact Finmap.lookup_eq_none.mp hkey (Finmap.mem_keys.mp ((Finset.mem_sort _).mp hin))
  | some value =>
      refine (List.mem_dlookup_iff (nodupKeys_sortedEntries m)).mpr
        (List.mem_map.mpr ⟨key, ?_, ?_⟩)
      · exact (Finset.mem_sort _).mpr (Finmap.mem_keys.mpr (Finmap.mem_of_lookup_eq_some hkey))
      · rw [hkey]
        rfl

/-- Key by key. -/
def Iteration.byKey : Iteration := ⟨sortedEntries, nodupKeys_sortedEntries, toFinmap_sortedEntries⟩

/-- The strings of an object, if all its values are. -/
def readStrings : Entries F → Option (List (Sigma fun _ : String => String))
  | [] => some []
  | (key, .str s) :: entries => (readStrings entries).map fun rest => ⟨key, s⟩ :: rest
  | _ => none

theorem readStrings_write (entries : List (Sigma fun _ : String => String)) :
    readStrings (entries.map fun e => (e.1, (.str e.2 : Json F))) = some entries := by
  induction entries with
  | nil => rfl
  | cons e rest ih =>
      rw [List.map_cons, readStrings, ih]
      rfl

/-- A map read entry by entry: the last value of a key stays. -/
def Codec.dictionary (iteration : Iteration) : Codec F (Finmap fun _ : String => String) where
  write m := .obj ((iteration.entries m).map fun e => (e.1, .str e.2))
  read
    | .obj entries => (readStrings entries).map fun read => read.reverse.toFinmap
    | _ => none
  read_write m := by
    dsimp only
    rw [readStrings_write, Option.map_some]
    congr 1
    refine Finmap.ext_lookup fun key => ?_
    conv_rhs => rw [← iteration.toFinmap m]
    rw [Finmap.dlookup_list_toFinmap, Finmap.dlookup_list_toFinmap]
    exact (List.perm_dlookup key (iteration.nodup m) (List.reverse_perm _).symm).symm
  write_ne_null _ := nofun
  unique m := by
    refine .obj ?_ fun e he => ?_
    · rw [List.map_map]
      exact iteration.nodup m
    · obtain ⟨e', -, rfl⟩ := List.mem_map.mp he
      exact .str _

end Wire

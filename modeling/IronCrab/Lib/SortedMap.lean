/-
  File:      IronCrab/Lib/SortedMap.lean
  Subject:   MAPS THAT ARE WALKED IN KEY ORDER, and canonical sorted lists. Nothing here names a
             program.

  A B-tree map is the list of its entries in key order (`SortedMap`): the order is a field, so two
  maps with the same lookups are the same map (`SortedMap.ext_lookup`). Every operation has one
  lookup lemma.

  `normalize` sorts a list and drops repeated elements. A strictly increasing list is determined
  by its elements (`eq_of_mem_iff` in Mathlib), so an equation between such lists is an equation
  between sets.
-/
import Mathlib.Data.List.Sort
import Mathlib.Data.Finset.Dedup
import Mathlib.Data.Finset.Card

/-! ## 1. Canonical lists -/

namespace SortedList

variable {K : Type} [LinearOrder K]

/-- `sort` and `dedup`. -/
def normalize (l : List K) : List K := (l.insertionSort (· ≤ ·)).dedup

@[simp] theorem mem_normalize {l : List K} {k : K} : k ∈ normalize l ↔ k ∈ l := by
  unfold normalize
  rw [List.mem_dedup, List.mem_insertionSort]

/-- **A normalized list is strictly increasing.** -/
theorem pairwise_normalize (l : List K) : (normalize l).Pairwise (· < ·) := by
  have hsorted : (normalize l).Pairwise (· ≤ ·) :=
    (List.pairwise_insertionSort (· ≤ ·) l).sublist (List.dedup_sublist _)
  have hnodup : (normalize l).Pairwise (· ≠ ·) := List.nodup_dedup _
  exact (hsorted.and hnodup).imp fun h => lt_of_le_of_ne h.1 h.2

theorem nodup_of_pairwise {l : List K} (h : l.Pairwise (· < ·)) : l.Nodup :=
  h.imp fun hlt => ne_of_lt hlt

/-- A strictly increasing list is its own normal form. -/
theorem normalize_eq_self {l : List K} (h : l.Pairwise (· < ·)) : normalize l = l :=
  (pairwise_normalize l).eq_of_mem_iff h fun _ => mem_normalize

@[simp] theorem normalize_normalize (l : List K) : normalize (normalize l) = normalize l :=
  normalize_eq_self (pairwise_normalize l)

theorem normalize_eq_nil {l : List K} : normalize l = [] ↔ l = [] := by
  constructor
  · intro h
    cases l with
    | nil => rfl
    | cons k l =>
        have hk : k ∈ normalize (k :: l) := mem_normalize.mpr List.mem_cons_self
        rw [h] at hk
        cases hk
  · intro h
    rw [h]
    rfl

@[simp] theorem toFinset_normalize (l : List K) : (normalize l).toFinset = l.toFinset := by
  ext k
  simp

/-- Strictly increasing lists with the same elements are equal. -/
theorem eq_of_toFinset_eq {l l' : List K} (h : l.Pairwise (· < ·)) (h' : l'.Pairwise (· < ·))
    (heq : l.toFinset = l'.toFinset) : l = l' := by
  refine h.eq_of_mem_iff h' fun k => ?_
  rw [← List.mem_toFinset, heq, List.mem_toFinset]

theorem length_eq_card {l : List K} (h : l.Pairwise (· < ·)) : l.length = l.toFinset.card :=
  (List.toFinset_card_of_nodup (nodup_of_pairwise h)).symm

/-- Lists without repetitions and with the same elements are sorted into the same list. -/
theorem insertionSort_eq_of_toFinset {l l' : List K} (hnd : l.Nodup) (hnd' : l'.Nodup)
    (h : l.toFinset = l'.toFinset) : l.insertionSort (· ≤ ·) = l'.insertionSort (· ≤ ·) := by
  have hperm : l.Perm l' := (List.perm_ext_iff_of_nodup hnd hnd').mpr fun k => by
    rw [← List.mem_toFinset, h, List.mem_toFinset]
  refine List.Perm.eq_of_pairwise' (List.pairwise_insertionSort (· ≤ ·) l)
    (List.pairwise_insertionSort (· ≤ ·) l') ?_
  exact (List.perm_insertionSort _ l).trans (hperm.trans (List.perm_insertionSort _ l').symm)

end SortedList

/-! ## 2. Maps -/

/-- The entries of a map in strictly increasing key order. -/
structure SortedMap (K V : Type) [LinearOrder K] where
  entries : List (K × V)
  sorted : (entries.map Prod.fst).Pairwise (· < ·)

namespace SortedMap

variable {K V : Type} [LinearOrder K]

/-- The value at a key in a list of entries. -/
def lookupEntry (k : K) : List (K × V) → Option V
  | [] => none
  | e :: l => if e.1 = k then some e.2 else lookupEntry k l

/-- One entry written into a list of entries. -/
def insertEntry (k : K) (v : V) : List (K × V) → List (K × V)
  | [] => [(k, v)]
  | e :: l =>
      if k < e.1 then (k, v) :: e :: l
      else if k = e.1 then (k, v) :: l
      else e :: insertEntry k v l

/-- The keys in order. -/
def keys (m : SortedMap K V) : List K := m.entries.map Prod.fst

/-- The values in key order. -/
def values (m : SortedMap K V) : List V := m.entries.map Prod.snd

/-- `get`. -/
def lookup (m : SortedMap K V) (k : K) : Option V := lookupEntry k m.entries

/-- `contains_key`. -/
def contains (m : SortedMap K V) (k : K) : Bool := (m.lookup k).isSome

/-- `len`. -/
def len (m : SortedMap K V) : Nat := m.entries.length

/-- `new`. -/
def empty : SortedMap K V := ⟨[], List.Pairwise.nil⟩

theorem keys_insertEntry_sub {k k' : K} {v : V} {l : List (K × V)}
    (h : k' ∈ (insertEntry k v l).map Prod.fst) : k' = k ∨ k' ∈ l.map Prod.fst := by
  induction l with
  | nil => simpa [insertEntry] using h
  | cons e l ih =>
      rw [insertEntry] at h
      split_ifs at h with hlt heq
      · simpa using h
      · rw [List.map_cons, List.mem_cons] at h
        exact h.imp id fun hm => List.mem_cons_of_mem _ hm
      · rw [List.map_cons, List.mem_cons] at h
        rcases h with h | h
        · exact .inr (by rw [h]; exact List.mem_cons_self)
        · exact (ih h).imp id fun hm => List.mem_cons_of_mem _ hm

theorem sorted_insertEntry {k : K} {v : V} {l : List (K × V)}
    (h : (l.map Prod.fst).Pairwise (· < ·)) :
    ((insertEntry k v l).map Prod.fst).Pairwise (· < ·) := by
  induction l with
  | nil => exact List.pairwise_singleton _ _
  | cons e l ih =>
      obtain ⟨he, hl⟩ := List.pairwise_cons.mp h
      rw [insertEntry]
      split_ifs with hlt heq
      · refine List.pairwise_cons.mpr ⟨fun k' hk' => ?_, h⟩
        rcases List.mem_cons.mp hk' with rfl | hm
        · exact hlt
        · exact hlt.trans (he _ hm)
      · refine List.pairwise_cons.mpr ⟨fun k' hk' => ?_, hl⟩
        show k < k'
        rw [heq]
        exact he _ hk'
      · refine List.pairwise_cons.mpr ⟨fun k' hk' => ?_, ih hl⟩
        rcases keys_insertEntry_sub hk' with rfl | hm
        · exact lt_of_le_of_ne (not_lt.mp hlt) (Ne.symm heq)
        · exact he _ hm

/-- `insert`. -/
def insert (m : SortedMap K V) (k : K) (v : V) : SortedMap K V :=
  ⟨insertEntry k v m.entries, sorted_insertEntry m.sorted⟩

/-- `retain`. -/
def retain (m : SortedMap K V) (p : K → V → Bool) : SortedMap K V :=
  ⟨m.entries.filter fun e => p e.1 e.2, m.sorted.sublist (List.filter_sublist.map Prod.fst)⟩

/-- `remove`. -/
def erase (m : SortedMap K V) (k : K) : SortedMap K V := m.retain fun k' _ => !decide (k' = k)

/-! ### Lookups -/

theorem lookupEntry_eq_none {k : K} {l : List (K × V)} (h : k ∉ l.map Prod.fst) :
    lookupEntry k l = none := by
  induction l with
  | nil => rfl
  | cons e l ih =>
      rw [List.map_cons, List.mem_cons, not_or] at h
      rw [lookupEntry, if_neg (Ne.symm h.1)]
      exact ih h.2

theorem lookupEntry_insertEntry (k k' : K) (v : V) {l : List (K × V)}
    (h : (l.map Prod.fst).Pairwise (· < ·)) :
    lookupEntry k' (insertEntry k v l) = if k' = k then some v else lookupEntry k' l := by
  induction l with
  | nil =>
      show (if k = k' then some v else none) = if k' = k then some v else none
      simp only [eq_comm]
  | cons e l ih =>
      obtain ⟨he, hl⟩ := List.pairwise_cons.mp h
      rw [insertEntry]
      by_cases hlt : k < e.1
      · rw [if_pos hlt, lookupEntry]
        simp only [eq_comm]
      by_cases heq : k = e.1
      · rw [if_neg hlt, if_pos heq, lookupEntry, lookupEntry, ← heq]
        by_cases hk : k' = k
        · rw [if_pos hk.symm, if_pos hk]
        · rw [if_neg (Ne.symm hk), if_neg hk, if_neg (Ne.symm hk)]
      · rw [if_neg hlt, if_neg heq, lookupEntry, lookupEntry, ih hl]
        by_cases hk : k' = k
        · have hne : e.1 ≠ k' := by
            rw [hk]
            exact Ne.symm heq
          rw [if_neg hne, if_pos hk, if_pos hk]
        · rw [if_neg hk, if_neg hk]

theorem mem_of_lookupEntry {k : K} {v : V} {l : List (K × V)} (h : lookupEntry k l = some v) :
    (k, v) ∈ l := by
  induction l with
  | nil => cases h
  | cons e l ih =>
      rw [lookupEntry] at h
      split_ifs at h with he
      · obtain ⟨k', v'⟩ := e
        cases h
        cases he
        exact List.mem_cons_self
      · exact List.mem_cons_of_mem _ (ih h)

theorem lookupEntry_of_mem {k : K} {v : V} {l : List (K × V)}
    (hs : (l.map Prod.fst).Pairwise (· < ·)) (h : (k, v) ∈ l) : lookupEntry k l = some v := by
  induction l with
  | nil => cases h
  | cons e l ih =>
      obtain ⟨he, hl⟩ := List.pairwise_cons.mp hs
      rcases List.mem_cons.mp h with rfl | hm
      · rw [lookupEntry, if_pos rfl]
      · have hlt := he k (List.mem_map_of_mem (f := Prod.fst) hm)
        rw [lookupEntry, if_neg (ne_of_lt hlt)]
        exact ih hl hm

/-- **The entries are the lookups.** -/
theorem mem_entries {m : SortedMap K V} {k : K} {v : V} :
    (k, v) ∈ m.entries ↔ m.lookup k = some v :=
  ⟨lookupEntry_of_mem m.sorted, mem_of_lookupEntry⟩

theorem mem_keys {m : SortedMap K V} {k : K} : k ∈ m.keys ↔ ∃ v, m.lookup k = some v := by
  constructor
  · intro h
    obtain ⟨⟨k', v⟩, he, rfl⟩ := List.mem_map.mp h
    exact ⟨v, mem_entries.mp he⟩
  · rintro ⟨v, hv⟩
    exact List.mem_map_of_mem (f := Prod.fst) (mem_entries.mpr hv)

theorem mem_keys_iff_isSome {m : SortedMap K V} {k : K} : k ∈ m.keys ↔ (m.lookup k).isSome := by
  rw [mem_keys, Option.isSome_iff_exists]

theorem lookup_eq_none {m : SortedMap K V} {k : K} : m.lookup k = none ↔ k ∉ m.keys := by
  rw [mem_keys_iff_isSome, Option.not_isSome_iff_eq_none]

theorem pairwise_keys (m : SortedMap K V) : m.keys.Pairwise (· < ·) := m.sorted

theorem nodup_keys (m : SortedMap K V) : m.keys.Nodup := SortedList.nodup_of_pairwise m.sorted

theorem nodup_entries (m : SortedMap K V) : m.entries.Nodup :=
  List.Nodup.of_map Prod.fst m.nodup_keys

@[simp] theorem keys_empty : (empty : SortedMap K V).keys = [] := rfl

@[simp] theorem lookup_empty (k : K) : (empty : SortedMap K V).lookup k = none := rfl

theorem lookup_insert (m : SortedMap K V) (k k' : K) (v : V) :
    (m.insert k v).lookup k' = if k' = k then some v else m.lookup k' :=
  lookupEntry_insertEntry k k' v m.sorted

@[simp] theorem lookup_insert_self (m : SortedMap K V) (k : K) (v : V) :
    (m.insert k v).lookup k = some v := by
  rw [lookup_insert, if_pos rfl]

theorem lookup_insert_ne (m : SortedMap K V) {k k' : K} (h : k' ≠ k) (v : V) :
    (m.insert k v).lookup k' = m.lookup k' := by
  rw [lookup_insert, if_neg h]

theorem lookup_retain (m : SortedMap K V) (p : K → V → Bool) (k : K) :
    (m.retain p).lookup k = (m.lookup k).filter (p k) := by
  cases hl : (m.retain p).lookup k with
  | some v =>
      obtain ⟨hm, hp⟩ := List.mem_filter.mp (mem_entries.mpr hl)
      rw [mem_entries.mp hm]
      exact (Option.filter_some_pos hp).symm
  | none =>
      symm
      rw [Option.filter_eq_none_iff]
      intro v hv hp
      have hm : (k, v) ∈ (m.retain p).entries :=
        List.mem_filter.mpr ⟨mem_entries.mpr hv, hp⟩
      rw [mem_entries, hl] at hm
      cases hm

/-- Keeping some keys. -/
theorem lookup_retain_keys (m : SortedMap K V) (p : K → Bool) (k : K) :
    (m.retain fun k' _ => p k').lookup k = if p k = true then m.lookup k else none := by
  rw [lookup_retain]
  split_ifs with hp
  · cases m.lookup k with
    | none => rfl
    | some v => exact Option.filter_some_pos hp
  · cases m.lookup k with
    | none => rfl
    | some v => exact Option.filter_some_neg (Bool.eq_false_iff.mpr hp)

theorem lookup_erase (m : SortedMap K V) (k k' : K) :
    (m.erase k).lookup k' = if k' = k then none else m.lookup k' := by
  unfold erase
  rw [lookup_retain]
  split_ifs with h
  · cases m.lookup k' <;> simp [h]
  · cases m.lookup k' <;> simp [h]

@[simp] theorem lookup_erase_self (m : SortedMap K V) (k : K) : (m.erase k).lookup k = none := by
  rw [lookup_erase, if_pos rfl]

theorem lookup_erase_ne (m : SortedMap K V) {k k' : K} (h : k' ≠ k) :
    (m.erase k).lookup k' = m.lookup k' := by
  rw [lookup_erase, if_neg h]

/-- **A map is its lookups.** -/
theorem ext_lookup {m m' : SortedMap K V} (h : ∀ k, m.lookup k = m'.lookup k) : m = m' := by
  have hkeys : m.keys = m'.keys := by
    refine m.sorted.eq_of_mem_iff m'.sorted fun k => ?_
    show k ∈ m.keys ↔ k ∈ m'.keys
    rw [mem_keys, mem_keys, h k]
  have hentry : ∀ m : SortedMap K V, m.entries.map some =
      m.keys.map fun k => (m.lookup k).map (Prod.mk k) := by
    intro m
    unfold keys
    rw [List.map_map]
    refine List.map_congr_left fun e he => ?_
    show some e = (m.lookup e.1).map (Prod.mk e.1)
    rw [mem_entries.mp (show (e.1, e.2) ∈ m.entries from he)]
    rfl
  have hents : m.entries = m'.entries := by
    refine List.map_injective_iff.mpr (Option.some_injective (K × V)) ?_
    rw [hentry m, hentry m', hkeys]
    simp only [h]
  cases m
  cases m'
  cases hents
  rfl

theorem mem_keys_insert {m : SortedMap K V} {k k' : K} {v : V} :
    k' ∈ (m.insert k v).keys ↔ k' = k ∨ k' ∈ m.keys := by
  rw [mem_keys_iff_isSome, mem_keys_iff_isSome, lookup_insert]
  split_ifs with h <;> simp [h]

/-- Removing an absent key changes nothing. -/
theorem erase_of_notMem {m : SortedMap K V} {k : K} (h : k ∉ m.keys) : m.erase k = m := by
  refine ext_lookup fun k' => ?_
  rw [lookup_erase]
  split_ifs with hk
  · rw [hk, lookup_eq_none.mpr h]
  · rfl

/-- Writing the value that is there changes nothing. -/
theorem insert_lookup {m : SortedMap K V} {k : K} {v : V} (h : m.lookup k = some v) :
    m.insert k v = m := by
  refine ext_lookup fun k' => ?_
  rw [lookup_insert]
  split_ifs with hk
  · rw [hk, h]
  · rfl

/-- Where a written entry stands: in the place of the old one, with the greater keys behind it. -/
theorem entries_insert (m : SortedMap K V) (k : K) (v : V) :
    ∃ before after, (m.insert k v).entries = before ++ (k, v) :: after ∧
      (∀ e ∈ after, k < e.1) ∧
      ((∃ old, m.lookup k = some old ∧ m.entries = before ++ (k, old) :: after) ∨
        (m.lookup k = none ∧ m.entries = before ++ after)) := by
  obtain ⟨l, hl⟩ := m
  show ∃ before after, insertEntry k v l = before ++ (k, v) :: after ∧ (∀ e ∈ after, k < e.1) ∧
    ((∃ old, lookupEntry k l = some old ∧ l = before ++ (k, old) :: after) ∨
      (lookupEntry k l = none ∧ l = before ++ after))
  induction l with
  | nil => exact ⟨[], [], rfl, fun _ h => absurd h List.not_mem_nil, .inr ⟨rfl, rfl⟩⟩
  | cons e l ih =>
      obtain ⟨he, htail⟩ := List.pairwise_cons.mp hl
      have hgreater : ∀ e' ∈ l, e.1 < e'.1 := fun e' hm =>
        he e'.1 (List.mem_map_of_mem (f := Prod.fst) hm)
      rw [insertEntry]
      by_cases hlt : k < e.1
      · rw [if_pos hlt]
        refine ⟨[], e :: l, rfl, fun e' hm => ?_, .inr ⟨?_, rfl⟩⟩
        · rcases List.mem_cons.mp hm with rfl | hm
          · exact hlt
          · exact hlt.trans (hgreater e' hm)
        · refine lookupEntry_eq_none fun hk => ?_
          rcases List.mem_cons.mp hk with rfl | hk
          · exact lt_irrefl _ hlt
          · exact lt_irrefl _ (hlt.trans (he k hk))
      by_cases heq : k = e.1
      · rw [if_neg hlt, if_pos heq]
        refine ⟨[], l, rfl, fun e' hm => heq ▸ hgreater e' hm, .inl ⟨e.2, ?_, ?_⟩⟩
        · rw [lookupEntry, if_pos heq.symm]
        · rw [heq]
          rfl
      · rw [if_neg hlt, if_neg heq, lookupEntry, if_neg (Ne.symm heq)]
        obtain ⟨before, after, hins, hafter, hold⟩ := ih htail
        refine ⟨e :: before, after, by rw [hins]; rfl, hafter, ?_⟩
        rcases hold with ⟨old, hlook, hl'⟩ | ⟨hlook, hl'⟩
        · exact .inl ⟨old, hlook, by rw [hl']; rfl⟩
        · exact .inr ⟨hlook, by rw [hl']; rfl⟩

theorem len_eq_length_keys (m : SortedMap K V) : m.len = m.keys.length :=
  (List.length_map _).symm

instance [DecidableEq V] : DecidableEq (SortedMap K V) := fun m m' =>
  decidable_of_iff (m.entries = m'.entries) ⟨fun h => by cases m; cases m'; cases h; rfl,
    fun h => by rw [h]⟩

end SortedMap

/-- A set kept in order: a map to nothing. -/
abbrev SortedSet (K : Type) [LinearOrder K] := SortedMap K Unit

/-
  File:      IronCrab/Lib/Table.lean
  Subject:   FINITE TABLES AND THEIR TOTALS. Nothing here names a program.

  A hash map whose entries a program walks over is an association list with distinct keys
  (Mathlib's `AList`; its order stands for the map's iteration order, about which nothing is
  assumed). A quantity kept in each entry has a TOTAL over the table, and each table operation
  moves the total by exactly the entry it touches:

  * `total_insert_fresh`, `total_insert_over`, `total_erase` -- the three ways an entry comes,
    changes and goes;
  * `le_total` -- one entry is at most the whole;
  * `keysWhere`, `mem_keysWhere` -- the keys of the entries that meet a test, the shape of
    "collect the expired keys, then remove them";
  * `length_filter_eq` -- two tables in which the same keys meet a test count alike.

  A hash map that is only read by key is a `Finmap`; `getOr` is `get(..).unwrap_or(..)` on it.
-/
import Mathlib.Algebra.GroupWithZero.Nat
import Mathlib.Data.Finmap

/-! ## 1. Totals -/

namespace AList

variable {K V : Type} [DecidableEq K]

/-- The sum of `f` over the entries of a table. -/
def total (f : V → Nat) (t : AList fun _ : K => V) : Nat :=
  (t.entries.map fun e => f e.2).sum

omit [DecidableEq K] in
@[simp] theorem total_empty (f : V → Nat) : total f (∅ : AList fun _ : K => V) = 0 := rfl

/-- A fresh entry adds its own part. -/
theorem total_insert_fresh (f : V → Nat) {t : AList fun _ : K => V} {k : K} {v : V}
    (h : k ∉ t) : total f (t.insert k v) = f v + total f t := by
  unfold total
  rw [entries_insert_of_notMem h, List.map_cons, List.sum_cons]

/-- **An entry that goes takes exactly its own part with it.** -/
theorem total_erase (f : V → Nat) {t : AList fun _ : K => V} {k : K} {v : V}
    (h : t.lookup k = some v) : f v + total f (t.erase k) = total f t := by
  have hmem : k ∈ t.entries.keys := mem_keys.mp (lookup_isSome.mp (by rw [h]; rfl))
  obtain ⟨w, l₁, l₂, hk, hl, he⟩ := List.exists_of_kerase hmem
  have hw : w = v := by
    have e : t.entries.dlookup k = some w := by
      rw [hl, List.dlookup_append, List.dlookup_eq_none.mpr hk, List.dlookup_cons_eq]
      rfl
    exact Option.some.inj (e.symm.trans h)
  subst hw
  have hte : (t.erase k).entries = l₁ ++ l₂ := he
  unfold total
  rw [hte, hl]
  simp only [List.map_append, List.map_cons, List.sum_append, List.sum_cons]
  omega

/-- Removing an absent key changes nothing. -/
theorem erase_of_notMem {t : AList fun _ : K => V} {k : K} (h : k ∉ t) : t.erase k = t :=
  AList.ext (List.kerase_of_notMem_keys h)

/-- **An entry written over another changes the total by the difference of the two.** -/
theorem total_insert_over (f : V → Nat) {t : AList fun _ : K => V} {k : K} {v w : V}
    (h : t.lookup k = some v) : total f (t.insert k w) + f v = total f t + f w := by
  have hi : (t.insert k w) = (t.erase k).insert k w := by
    apply AList.ext
    rw [entries_insert, entries_insert]
    congr 1
    exact (List.kerase_of_notMem_keys (List.notMem_keys_kerase k t.nodupKeys)).symm
  have hf : k ∉ t.erase k := fun hk => (mem_erase.mp hk).1 rfl
  rw [hi, total_insert_fresh f hf, ← total_erase f h]
  omega

/-- One entry is at most the total. -/
theorem le_total (f : V → Nat) {t : AList fun _ : K => V} {k : K} {v : V}
    (h : t.lookup k = some v) : f v ≤ total f t := by
  rw [← total_erase f h]
  exact Nat.le_add_right _ _

/-! ## 2. Keys that meet a test -/

/-- The keys of the entries that meet a test, in table order. -/
def keysWhere (p : V → Bool) (t : AList fun _ : K => V) : List K :=
  (t.entries.filter fun e => p e.2).map Sigma.fst

/-- The keys of the entries that meet a test of key and value. -/
theorem mem_map_fst_filter {q : (Sigma fun _ : K => V) → Bool} {t : AList fun _ : K => V}
    {k : K} : k ∈ (t.entries.filter q).map Sigma.fst ↔
      ∃ v, t.lookup k = some v ∧ q ⟨k, v⟩ = true := by
  constructor
  · intro h
    obtain ⟨⟨k', v⟩, he, rfl⟩ := List.mem_map.mp h
    obtain ⟨hm, hq⟩ := List.mem_filter.mp he
    exact ⟨v, List.mem_dlookup t.nodupKeys hm, hq⟩
  · rintro ⟨v, hl, hq⟩
    exact List.mem_map.mpr ⟨⟨k, v⟩, List.mem_filter.mpr ⟨List.of_mem_dlookup hl, hq⟩, rfl⟩

theorem mem_keysWhere {p : V → Bool} {t : AList fun _ : K => V} {k : K} :
    k ∈ keysWhere p t ↔ ∃ v, t.lookup k = some v ∧ p v = true :=
  mem_map_fst_filter

/-- **Two tables have equally many entries that meet a test when the same keys meet it.** -/
theorem length_filter_eq {W : Type} {q : (Sigma fun _ : K => V) → Bool}
    {q' : (Sigma fun _ : K => W) → Bool} {t : AList fun _ : K => V} {t' : AList fun _ : K => W}
    (h : ∀ k, (∃ v, t.lookup k = some v ∧ q ⟨k, v⟩ = true) ↔
      ∃ w, t'.lookup k = some w ∧ q' ⟨k, w⟩ = true) :
    (t.entries.filter q).length = (t'.entries.filter q').length := by
  have hnodup : ((t.entries.filter q).map Sigma.fst).Nodup :=
    (List.filter_sublist.map Sigma.fst).nodup t.nodupKeys
  have hnodup' : ((t'.entries.filter q').map Sigma.fst).Nodup :=
    (List.filter_sublist.map Sigma.fst).nodup t'.nodupKeys
  have hperm : ((t.entries.filter q).map Sigma.fst).Perm
      ((t'.entries.filter q').map Sigma.fst) := by
    rw [List.perm_ext_iff_of_nodup hnodup hnodup']
    intro k
    rw [mem_map_fst_filter, mem_map_fst_filter, h k]
  have hlen := hperm.length_eq
  rw [List.length_map, List.length_map] at hlen
  exact hlen

/-- Removing the keys of a list one after another. -/
def eraseAll (ks : List K) (t : AList fun _ : K => V) : AList fun _ : K => V :=
  ks.foldl (fun t k => t.erase k) t

@[simp] theorem eraseAll_nil (t : AList fun _ : K => V) : eraseAll [] t = t := rfl

@[simp] theorem eraseAll_cons (k : K) (ks : List K) (t : AList fun _ : K => V) :
    eraseAll (k :: ks) t = eraseAll ks (t.erase k) := rfl

/-- What is left after removing a list of keys: the entries of the other keys. -/
theorem lookup_eraseAll (ks : List K) (t : AList fun _ : K => V) (k : K) :
    (eraseAll ks t).lookup k = if k ∈ ks then none else t.lookup k := by
  induction ks generalizing t with
  | nil => rfl
  | cons k' ks ih =>
      rw [eraseAll_cons, ih]
      by_cases hk : k = k'
      · subst hk
        simp
      · simp [List.mem_cons, hk, lookup_erase_ne hk]

/-- **What is left after removing the entries that meet a test.** -/
theorem lookup_eraseAll_keysWhere (p : V → Bool) (t : AList fun _ : K => V) (k : K) :
    (t.eraseAll (t.keysWhere p)).lookup k = (t.lookup k).filter fun v => !p v := by
  rw [lookup_eraseAll]
  cases hl : t.lookup k with
  | none =>
      rw [if_neg]
      · rfl
      · intro hk
        obtain ⟨v, hv, _⟩ := mem_keysWhere.mp hk
        rw [hl] at hv
        cases hv
  | some v =>
      have hmem : k ∈ t.keysWhere p ↔ p v = true := by
        rw [mem_keysWhere, hl]
        simp
      rw [Option.filter_some]
      cases hx : p v with
      | true => rw [if_pos (hmem.mpr hx)]; rfl
      | false => rw [if_neg fun hk => by rw [hmem.mp hk] at hx; cases hx]; rfl

end AList

/-! ## 3. Maps read by key -/

namespace Finmap

variable {K V : Type} [DecidableEq K]

/-- `map.get(k).copied().unwrap_or(d)`. -/
def getOr (d : V) (k : K) (m : Finmap fun _ : K => V) : V := (m.lookup k).getD d

@[simp] theorem getOr_insert_self (d : V) (k : K) (v : V) (m : Finmap fun _ : K => V) :
    getOr d k (m.insert k v) = v := by
  simp [getOr]

theorem getOr_insert_ne (d : V) {k k' : K} (h : k' ≠ k) (v : V) (m : Finmap fun _ : K => V) :
    getOr d k' (m.insert k v) = getOr d k' m := by
  simp [getOr, lookup_insert_of_ne _ h]

@[simp] theorem getOr_erase_self (d : V) (k : K) (m : Finmap fun _ : K => V) :
    getOr d k (m.erase k) = d := by
  simp [getOr]

theorem getOr_erase_ne (d : V) {k k' : K} (h : k' ≠ k) (m : Finmap fun _ : K => V) :
    getOr d k' (m.erase k) = getOr d k' m := by
  simp [getOr, lookup_erase_ne h]

end Finmap

/-
  File:      IronCrab/Lib/Keyed.lean
  Subject:   LISTS WHOSE ELEMENTS HAVE DISTINCT KEYS. Nothing here names a program.

  What is read off such a list by key does not depend on its order:

  * `find?_eq_some_iff`, `find?_perm` -- the element of a key;
  * `insertionSort_perm_eq` -- the list sorted by a rank that tells its elements apart;
  * `filter_flatMap` -- what one element contributes to a list made of contributions;
  * `sublist_map_filterMap` -- the keys of what a partial map keeps;
  * `ofPairs`, `lookup_ofPairs`, `ofPairs_perm` -- a map filled pair by pair;
  * `groups` -- the values of each key, in their order;
  * `mapEntries`, `mapMap` -- a table or a map under other keys, with each value replaced;
  * `lookup_ofPairs_filterMap` -- a map filled from what a partial function makes of a table's rows.
-/
import Mathlib.Data.Finmap
import Mathlib.Data.List.Nodup
import Mathlib.Data.List.Sort

namespace Keyed

variable {A B K V : Type}

/-! ## 1. The element of a key -/

section Find

variable [DecidableEq K] {key : A → K} {l l' : List A}

theorem find?_eq_some_iff (hnodup : (l.map key).Nodup) {k : K} {a : A} :
    l.find? (fun x => decide (key x = k)) = some a ↔ a ∈ l ∧ key a = k := by
  constructor
  · intro h
    have hkey := List.find?_some h
    exact ⟨List.mem_of_find?_eq_some h, decide_eq_true_iff.mp hkey⟩
  · rintro ⟨ha, rfl⟩
    cases h : l.find? fun x => decide (key x = key a) with
    | none => exact absurd (decide_eq_true rfl) (List.find?_eq_none.mp h a ha)
    | some b =>
        have hkey := List.find?_some h
        rw [List.inj_on_of_nodup_map hnodup (List.mem_of_find?_eq_some h) ha
          (decide_eq_true_iff.mp hkey)]

/-- **The element of a key does not depend on the order.** -/
theorem find?_perm (hnodup : (l.map key).Nodup) (h : l.Perm l') (k : K) :
    l.find? (fun x => decide (key x = k)) = l'.find? fun x => decide (key x = k) := by
  have hnodup' : (l'.map key).Nodup := (h.map key).nodup_iff.mp hnodup
  refine Option.ext fun a => ?_
  rw [find?_eq_some_iff hnodup, find?_eq_some_iff hnodup', h.mem_iff]

/-- **What one element contributes** to a list whose entries name the key they come from. -/
theorem filter_flatMap {f : A → List B} {tag : B → K} (hnodup : (l.map key).Nodup)
    (htag : ∀ a ∈ l, ∀ b ∈ f a, tag b = key a) {a : A} (ha : a ∈ l) :
    (l.flatMap f).filter (fun b => decide (tag b = key a)) = f a := by
  obtain ⟨before, after, rfl⟩ := List.append_of_mem ha
  rw [List.map_append, List.map_cons] at hnodup
  have hout := (List.nodup_middle.mp hnodup).notMem
  rw [List.mem_append, not_or] at hout
  have hnone : ∀ part : List A, part ⊆ before ++ a :: after → key a ∉ part.map key →
      (part.flatMap f).filter (fun b => decide (tag b = key a)) = [] := by
    intro part hsub hkey
    rw [List.filter_eq_nil_iff]
    intro b hb htagb
    obtain ⟨c, hc, hb⟩ := List.mem_flatMap.mp hb
    have hcb := htag c (hsub hc) b hb
    exact hkey (of_decide_eq_true htagb ▸ hcb ▸ List.mem_map_of_mem hc)
  have hself : (f a).filter (fun b => decide (tag b = key a)) = f a :=
    List.filter_eq_self.mpr fun b hb => decide_eq_true (htag a ha b hb)
  rw [List.flatMap_append, List.flatMap_cons, List.filter_append, List.filter_append, hself,
    hnone before (fun c hc => List.mem_append_left _ hc) hout.1,
    hnone after (fun c hc => List.mem_append_right _ (List.mem_cons_of_mem _ hc)) hout.2,
    List.nil_append, List.append_nil]

end Find

/-- A partial map that keeps keys keeps their order. -/
theorem sublist_map_filterMap {f : A → Option B} {key : A → K} {tag : B → K} {l : List A}
    (h : ∀ a ∈ l, ∀ b, f a = some b → tag b = key a) :
    ((l.filterMap f).map tag).Sublist (l.map key) := by
  induction l with
  | nil => exact .refl _
  | cons a l ih =>
      have hrest := ih fun a' ha' => h a' (List.mem_cons_of_mem _ ha')
      rw [List.map_cons]
      cases hf : f a with
      | none =>
          rw [List.filterMap_cons_none hf]
          exact hrest.cons (key a)
      | some b =>
          rw [List.filterMap_cons_some hf, List.map_cons, h a List.mem_cons_self b hf]
          exact hrest.cons_cons (key a)

/-! ## 2. Sorting by a rank -/

section Sorting

variable {R : Type} [LinearOrder R] {rank : A → R} {l l' : List A}

/-- **The sorted list does not depend on the order** where the rank tells its elements apart. -/
theorem insertionSort_perm_eq (hinj : ∀ a ∈ l, ∀ b ∈ l, rank a = rank b → a = b) (h : l.Perm l') :
    l.insertionSort (fun a b => rank a ≤ rank b) =
      l'.insertionSort fun a b => rank a ≤ rank b := by
  have : Std.Total fun a b : A => rank a ≤ rank b := ⟨fun a b => le_total (rank a) (rank b)⟩
  have : IsTrans A fun a b => rank a ≤ rank b := ⟨fun _ _ _ => le_trans⟩
  have hl := List.perm_insertionSort (fun a b : A => rank a ≤ rank b) l
  have hl' := List.perm_insertionSort (fun a b : A => rank a ≤ rank b) l'
  have hsorted := List.pairwise_insertionSort (fun a b : A => rank a ≤ rank b) l
  have hsorted' := List.pairwise_insertionSort (fun a b : A => rank a ≤ rank b) l'
  refine List.Perm.eq_of_pairwise ?_ hsorted hsorted' (hl.trans (h.trans hl'.symm))
  intro a b ha hb hab hba
  exact hinj a (hl.mem_iff.mp ha) b (h.mem_iff.mpr (hl'.mem_iff.mp hb)) (le_antisymm hab hba)

end Sorting

/-! ## 3. Maps -/

section Maps

variable [DecidableEq K]

/-- A map filled pair by pair: of two pairs with one key the later one stays. -/
def ofPairs (l : List (K × V)) : Finmap fun _ : K => V :=
  l.foldl (fun m e => m.insert e.1 e.2) ∅

theorem ofPairs_concat (l : List (K × V)) (e : K × V) :
    ofPairs (l ++ [e]) = (ofPairs l).insert e.1 e.2 := by
  unfold ofPairs
  rw [List.foldl_append]
  rfl

theorem lookup_ofPairs_of_notMem {l : List (K × V)} {k : K} (h : k ∉ l.map Prod.fst) :
    (ofPairs l).lookup k = none := by
  induction l using List.reverseRecOn with
  | nil => exact Finmap.lookup_empty k
  | append_singleton l e ih =>
      rw [List.map_append, List.mem_append, not_or] at h
      obtain ⟨hl, he⟩ := h
      have hne : k ≠ e.1 := fun heq => he (List.mem_singleton.mpr heq)
      rw [ofPairs_concat, Finmap.lookup_insert_of_ne _ hne]
      exact ih hl

/-- **A key of some pair has the value of one of its pairs.** -/
theorem exists_lookup_ofPairs {l : List (K × V)} {k : K} (h : k ∈ l.map Prod.fst) :
    ∃ v, (k, v) ∈ l ∧ (ofPairs l).lookup k = some v := by
  induction l using List.reverseRecOn with
  | nil => exact absurd h List.not_mem_nil
  | append_singleton l e ih =>
      rw [ofPairs_concat]
      by_cases hk : k = e.1
      · subst hk
        exact ⟨e.2, by simp, Finmap.lookup_insert _⟩
      · rw [List.map_append, List.mem_append] at h
        have hl : k ∈ l.map Prod.fst := h.resolve_right fun he => hk (List.mem_singleton.mp he)
        obtain ⟨v, hv, hlookup⟩ := ih hl
        exact ⟨v, List.mem_append_left _ hv, (Finmap.lookup_insert_of_ne _ hk).trans hlookup⟩

/-- **Where the keys are distinct, every pair stays.** -/
theorem lookup_ofPairs {l : List (K × V)} (hnodup : (l.map Prod.fst).Nodup) {k : K} {v : V}
    (h : (k, v) ∈ l) : (ofPairs l).lookup k = some v := by
  obtain ⟨w, hw, hlookup⟩ := exists_lookup_ofPairs (List.mem_map_of_mem (f := Prod.fst) h)
  have heq := List.inj_on_of_nodup_map hnodup h hw rfl
  rw [hlookup, (Prod.mk.inj heq).2]

/-- **A key has the value of its last pair.** -/
theorem lookup_ofPairs_eq_last (l : List (K × V)) (k : K) :
    (ofPairs l).lookup k = ((l.filter fun e => decide (e.1 = k)).getLast?).map Prod.snd := by
  induction l using List.reverseRecOn with
  | nil => exact Finmap.lookup_empty k
  | append_singleton l e ih =>
      rw [ofPairs_concat, List.filter_append]
      by_cases hk : e.1 = k
      · subst hk
        rw [Finmap.lookup_insert]
        simp
      · rw [Finmap.lookup_insert_of_ne _ (Ne.symm hk), ih]
        simp [hk]

/-- **Where the keys are distinct, the map does not depend on the order.** -/
theorem ofPairs_perm {l l' : List (K × V)} (hnodup : (l.map Prod.fst).Nodup) (h : l.Perm l') :
    ofPairs l = ofPairs l' := by
  have hnodup' : (l'.map Prod.fst).Nodup := (h.map Prod.fst).nodup_iff.mp hnodup
  refine Finmap.ext_lookup fun k => ?_
  by_cases hk : k ∈ l.map Prod.fst
  · obtain ⟨⟨_, v⟩, hv, rfl⟩ := List.mem_map.mp hk
    rw [lookup_ofPairs hnodup hv, lookup_ofPairs hnodup' (h.mem_iff.mp hv)]
  · have hk' : k ∉ l'.map Prod.fst := fun hmem => hk ((h.map Prod.fst).mem_iff.mpr hmem)
    rw [lookup_ofPairs_of_notMem hk, lookup_ofPairs_of_notMem hk']

/-- The value of an entry comes last under its key. -/
def push (m : AList fun _ : K => List V) (e : K × V) : AList fun _ : K => List V :=
  m.insert e.1 ((m.lookup e.1).getD [] ++ [e.2])

/-- The values of each key, in their order. -/
def groups (l : List (K × V)) : AList fun _ : K => List V := l.foldl push ∅

/-- A table under other keys, with each value replaced. -/
def mapEntries {L W : Type} (f : K ↪ L) (g : K → V → W) (t : AList fun _ : K => V) :
    AList fun _ : L => W where
  entries := t.entries.map fun e => ⟨f e.1, g e.1 e.2⟩
  nodupKeys := by
    have hkeys := t.nodupKeys.map f.injective
    unfold List.NodupKeys List.keys at *
    rw [List.map_map] at hkeys ⊢
    exact hkeys

theorem lookup_mapEntries {L W : Type} [DecidableEq L] (f : K ↪ L) (g : K → V → W)
    (t : AList fun _ : K => V) (k : K) :
    (mapEntries f g t).lookup (f k) = (t.lookup k).map (g k) := by
  unfold mapEntries AList.lookup
  dsimp only
  induction t.entries with
  | nil => rfl
  | cons e l ih =>
      obtain ⟨key, v⟩ := e
      by_cases hk : key = k
      · subst hk
        rw [List.map_cons, List.dlookup_cons_eq, List.dlookup_cons_eq, Option.map_some]
      · rw [List.map_cons, List.dlookup_cons_ne _ _ (f.injective.ne (Ne.symm hk)),
          List.dlookup_cons_ne _ _ (Ne.symm hk)]
        exact ih

/-- A map under other keys, with each value replaced. -/
def mapMap {L W : Type} (f : K ↪ L) (g : K → V → W) (m : Finmap fun _ : K => V) :
    Finmap fun _ : L => W :=
  m.liftOn (fun t => (mapEntries f g t).toFinmap) fun _ _ h => AList.toFinmap_eq.mpr (h.map _)

theorem lookup_mapMap {L W : Type} [DecidableEq L] (f : K ↪ L) (g : K → V → W)
    (m : Finmap fun _ : K => V) (k : K) : (mapMap f g m).lookup (f k) = (m.lookup k).map (g k) := by
  induction m using Finmap.induction_on with
  | H t => exact lookup_mapEntries f g t k

omit [DecidableEq K] in
theorem lookup_mapMap_of_notMem {L W : Type} [DecidableEq L] (f : K ↪ L) (g : K → V → W)
    (m : Finmap fun _ : K => V) {l : L} (hl : ∀ k, f k ≠ l) : (mapMap f g m).lookup l = none := by
  induction m using Finmap.induction_on with
  | H t =>
      have hmem : l ∉ mapEntries f g t := by
        intro hmem
        obtain ⟨e, he, hkey⟩ := List.mem_map.mp (AList.mem_keys.mp hmem)
        obtain ⟨row, _, rfl⟩ := List.mem_map.mp he
        exact hl row.1 hkey
      exact AList.lookup_eq_none.mpr hmem

/-- **A map filled from a table's rows** has at a key what is made of that row. -/
theorem lookup_ofPairs_filterMap {W : Type} (g : K → V → Option W) (t : AList fun _ : K => V)
    (k : K) : (ofPairs (t.entries.filterMap fun e => (g e.1 e.2).map fun w => (e.1, w))).lookup k =
      (t.lookup k).bind (g k) := by
  have hsub : ((t.entries.filterMap fun e => (g e.1 e.2).map fun w => (e.1, w)).map
      Prod.fst).Sublist (t.entries.map Sigma.fst) := by
    refine sublist_map_filterMap fun e _ b hb => ?_
    obtain ⟨w, _, rfl⟩ := Option.map_eq_some_iff.mp hb
    rfl
  have hnodup := List.Nodup.sublist hsub t.nodupKeys
  cases hrow : (t.lookup k).bind (g k) with
  | some w =>
      obtain ⟨v, hv, hw⟩ := Option.bind_eq_some_iff.mp hrow
      refine lookup_ofPairs hnodup (List.mem_filterMap.mpr ⟨⟨k, v⟩, ?_, by simp [hw]⟩)
      exact AList.mem_lookup_iff.mp hv
  | none =>
      refine lookup_ofPairs_of_notMem fun hmem => ?_
      obtain ⟨b, hb, rfl⟩ := List.mem_map.mp hmem
      obtain ⟨e, he, hbe⟩ := List.mem_filterMap.mp hb
      obtain ⟨w, hw, rfl⟩ := Option.map_eq_some_iff.mp hbe
      have hlookup : t.lookup e.1 = some e.2 := AList.mem_lookup_iff.mpr he
      rw [hlookup, Option.bind_some, hw] at hrow
      cases hrow

/-! ## 4. Rows of a table -/

end Maps

end Keyed

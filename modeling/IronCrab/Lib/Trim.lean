/-
  File:      IronCrab/Lib/Trim.lean
  Subject:   TABLES KEPT TO A SIZE. Nothing here names a program.

  * `retain` -- the entries that meet a test of key and value stay (`lookup_retain`);
  * `trim` -- a table above a size loses its entries of lowest rank: what is left is of that size
    (`length_trim_le`), unchanged (`lookup_of_trim`), and ranks no lower than anything that went
    (`rank_le_of_trimmed`).
-/
import IronCrab.Lib.Table
import Mathlib.Data.Finset.Card
import Mathlib.Data.Finset.Dedup
import Mathlib.Data.List.Sort

namespace AList

variable {K V : Type} [DecidableEq K]

/-! ## 1. Keeping what meets a test -/

/-- The entries that meet a test. -/
def retain (p : K → V → Bool) (t : AList fun _ : K => V) : AList fun _ : K => V :=
  ⟨t.entries.filter fun e => p e.1 e.2, t.nodupKeys.sublist List.filter_sublist⟩

theorem lookup_eq_some_iff {t : AList fun _ : K => V} {k : K} {v : V} :
    t.lookup k = some v ↔ Sigma.mk k v ∈ t.entries :=
  (List.mem_dlookup_iff t.nodupKeys)

theorem lookup_retain_eq_some {p : K → V → Bool} {t : AList fun _ : K => V} {k : K} {v : V} :
    (t.retain p).lookup k = some v ↔ t.lookup k = some v ∧ p k v = true := by
  rw [lookup_eq_some_iff, lookup_eq_some_iff]
  exact List.mem_filter

/-- What meets the test stays, and nothing else. -/
theorem lookup_retain (p : K → V → Bool) (t : AList fun _ : K => V) (k : K) :
    (t.retain p).lookup k = (t.lookup k).filter (p k) := by
  refine Option.ext fun v => ?_
  rw [lookup_retain_eq_some, Option.filter_eq_some_iff]

omit [DecidableEq K] in
theorem length_retain_le (p : K → V → Bool) (t : AList fun _ : K => V) :
    (t.retain p).entries.length ≤ t.entries.length :=
  List.length_filter_le _ _

/-! ## 2. Losing the lowest -/

variable {R : Type} [LinearOrder R] (rank : K → V → R)

/-- The keys with their ranks, from the lowest rank. -/
def ranked (t : AList fun _ : K => V) : List (K × R) :=
  (t.entries.map fun e => (e.1, rank e.1 e.2)).insertionSort fun a b => a.2 ≤ b.2

/-- The keys of the `n` lowest entries. -/
def lowest (n : Nat) (t : AList fun _ : K => V) : List K := ((t.ranked rank).take n).map Prod.fst

/-- A table above a size loses as many of its lowest entries as it is above. -/
def trim (size : Nat) (t : AList fun _ : K => V) : AList fun _ : K => V :=
  if t.entries.length ≤ size then t else t.eraseAll (t.lowest rank (t.entries.length - size))

variable {rank}

omit [DecidableEq K] in
theorem perm_ranked (t : AList fun _ : K => V) :
    (t.ranked rank).Perm (t.entries.map fun e => (e.1, rank e.1 e.2)) :=
  List.perm_insertionSort _ _

omit [DecidableEq K] in
theorem keys_ranked (t : AList fun _ : K => V) : ((t.ranked rank).map Prod.fst).Perm t.keys := by
  have h : ((t.ranked rank).map Prod.fst).Perm
      ((t.entries.map fun e => (e.1, rank e.1 e.2)).map Prod.fst) := (perm_ranked t).map Prod.fst
  rw [List.map_map] at h
  exact h

omit [DecidableEq K] in
theorem nodup_keys_ranked (t : AList fun _ : K => V) : ((t.ranked rank).map Prod.fst).Nodup :=
  (keys_ranked t).nodup_iff.mpr t.keys_nodup

omit [DecidableEq K] in
theorem lowest_subset {n : Nat} {t : AList fun _ : K => V} {k : K} (h : k ∈ t.lowest rank n) :
    k ∈ t.keys :=
  (keys_ranked t).subset (List.map_subset _ (List.take_subset _ _) h)

omit [DecidableEq K] in
theorem length_lowest {n : Nat} {t : AList fun _ : K => V} (h : n ≤ t.entries.length) :
    (t.lowest rank n).length = n := by
  unfold lowest
  rw [List.length_map, List.length_take, (perm_ranked t).length_eq, List.length_map]
  exact Nat.min_eq_left h

omit [DecidableEq K] in
theorem nodup_lowest (n : Nat) (t : AList fun _ : K => V) : (t.lowest rank n).Nodup :=
  ((List.take_sublist n _).map Prod.fst).nodup (nodup_keys_ranked t)

theorem mem_keys_iff_lookup {t : AList fun _ : K => V} {k : K} :
    k ∈ t.keys ↔ ∃ v, t.lookup k = some v := by
  rw [← AList.mem_keys, ← AList.lookup_isSome, Option.isSome_iff_exists]

/-- A table without some of its keys is smaller by as many. -/
theorem length_eraseAll {ks : List K} {t : AList fun _ : K => V} (hnd : ks.Nodup)
    (hsub : ∀ k ∈ ks, k ∈ t.keys) :
    (t.eraseAll ks).entries.length = t.entries.length - ks.length := by
  have hcard (s : AList fun _ : K => V) : s.entries.length = s.keys.toFinset.card := by
    rw [List.toFinset_card_of_nodup s.keys_nodup]
    exact (List.length_map _).symm
  have hkeys : (t.eraseAll ks).keys.toFinset = t.keys.toFinset \ ks.toFinset := by
    ext k
    rw [Finset.mem_sdiff, List.mem_toFinset, List.mem_toFinset, List.mem_toFinset,
      mem_keys_iff_lookup, mem_keys_iff_lookup, lookup_eraseAll]
    by_cases hk : k ∈ ks
    · simp [hk]
    · simp [hk]
  have hsub' : ks.toFinset ⊆ t.keys.toFinset := fun k hk =>
    List.mem_toFinset.mpr (hsub k (List.mem_toFinset.mp hk))
  rw [hcard, hcard t, hkeys, Finset.card_sdiff_of_subset hsub', List.toFinset_card_of_nodup hnd]

/-- **A trimmed table has the size it is trimmed to**, or is smaller anyway. -/
theorem length_trim (size : Nat) (t : AList fun _ : K => V) :
    (t.trim rank size).entries.length = min t.entries.length size := by
  unfold trim
  by_cases hle : t.entries.length ≤ size
  · rw [if_pos hle, Nat.min_eq_left hle]
  · rw [if_neg hle, length_eraseAll (nodup_lowest _ t) (fun k hk => lowest_subset hk),
      length_lowest (Nat.sub_le _ _)]
    omega

theorem length_trim_le (size : Nat) (t : AList fun _ : K => V) :
    (t.trim rank size).entries.length ≤ size := by
  rw [length_trim]
  exact Nat.min_le_right _ _

/-- What is left is as it was. -/
theorem lookup_of_trim {size : Nat} {t : AList fun _ : K => V} {k : K} {v : V}
    (h : (t.trim rank size).lookup k = some v) : t.lookup k = some v := by
  unfold trim at h
  by_cases hle : t.entries.length ≤ size
  · rwa [if_pos hle] at h
  · rw [if_neg hle, lookup_eraseAll] at h
    split at h
    · cases h
    · exact h

/-- **What went ranks no higher than what is left.** -/
theorem rank_le_of_trimmed {size : Nat} {t : AList fun _ : K => V} {k k' : K} {v v' : V}
    (hk : t.lookup k = some v) (hgone : (t.trim rank size).lookup k = none)
    (hleft : (t.trim rank size).lookup k' = some v') : rank k v ≤ rank k' v' := by
  have hk' := lookup_of_trim hleft
  have hmem {c : K} {w : V} (h : t.lookup c = some w) : (c, rank c w) ∈ t.ranked rank :=
    (perm_ranked t).mem_iff.mpr (List.mem_map.mpr ⟨⟨c, w⟩, lookup_eq_some_iff.mp h, rfl⟩)
  unfold trim at hgone hleft
  by_cases hle : t.entries.length ≤ size
  · rw [if_pos hle, hk] at hgone
    cases hgone
  · rw [if_neg hle, lookup_eraseAll] at hgone hleft
    have hlow : k ∈ t.lowest rank (t.entries.length - size) := by
      by_contra hno
      rw [if_neg hno, hk] at hgone
      cases hgone
    have hhigh : k' ∉ t.lowest rank (t.entries.length - size) := by
      intro hin
      rw [if_pos hin] at hleft
      cases hleft
    have hsplit := List.take_append_drop (t.entries.length - size) (t.ranked rank)
    have hsorted : (t.ranked rank).Pairwise fun a b => a.2 ≤ b.2 := by
      unfold ranked
      exact List.pairwise_insertionSort _ _
    rw [← hsplit, List.pairwise_append] at hsorted
    -- the ranked entry of a key is on the side its key is on
    have htake : (k, rank k v) ∈ (t.ranked rank).take (t.entries.length - size) := by
      obtain ⟨⟨c, r⟩, hc, rfl⟩ := List.mem_map.mp hlow
      have hall := (List.take_subset _ _) hc
      have e := List.inj_on_of_nodup_map (nodup_keys_ranked t) hall (hmem hk) rfl
      exact e ▸ hc
    have hdrop : (k', rank k' v') ∈ (t.ranked rank).drop (t.entries.length - size) := by
      have hall := hmem hk'
      rw [← hsplit, List.mem_append] at hall
      rcases hall with h | h
      · exact absurd (List.mem_map.mpr ⟨_, h, rfl⟩) hhigh
      · exact h
    exact hsorted.2.2 _ htake _ hdrop

end AList

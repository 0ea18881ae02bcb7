/-
  File:      IronCrab/Lib/Recency.lean
  Subject:   RECENCY BY STAMPS. Nothing here names a program.

  A map from keys to stamps, with the next stamp to give beside it, keeps the order in which the
  keys were last touched. `order` reads it back: the keys from the oldest stamp to the newest.
  `Stamped` is the contract: no stamp twice, every stamp below the next one.

  * `order_insert`, `order_retain` -- a touched key moves to the end, a removed one drops out;
  * `eq_order_filter` -- any list of entries in stamp order is a part of `order`;
  * `order_ranks` -- giving the stamps anew from 1, in order, keeps the order.
-/
import IronCrab.Lib.SortedMap

namespace Recency

variable {K : Type} [LinearOrder K]

/-! ## 1. The order of the stamps -/

/-- By stamp, then by key. -/
def StampLe (a b : K × Nat) : Prop := a.2 < b.2 ∨ a.2 = b.2 ∧ a.1 ≤ b.1

instance : DecidableRel (StampLe (K := K)) := fun a b =>
  inferInstanceAs (Decidable (a.2 < b.2 ∨ a.2 = b.2 ∧ a.1 ≤ b.1))

theorem StampLe.snd_le {a b : K × Nat} (h : StampLe a b) : a.2 ≤ b.2 := by
  rcases h with h | h
  · exact le_of_lt h
  · exact le_of_eq h.1

instance : Std.Total (StampLe (K := K)) where
  total := by
    intro a b
    unfold StampLe
    rcases lt_trichotomy a.2 b.2 with h | h | h
    · exact .inl (.inl h)
    · rcases le_total a.1 b.1 with hk | hk
      · exact .inl (.inr ⟨h, hk⟩)
      · exact .inr (.inr ⟨h.symm, hk⟩)
    · exact .inr (.inl h)

instance : IsTrans (K × Nat) StampLe where
  trans := by
    intro a b c hab hbc
    rcases hab with hab | ⟨hab, hk⟩
    · exact .inl (lt_of_lt_of_le hab hbc.snd_le)
    · rcases hbc with hbc | ⟨hbc, hk'⟩
      · exact .inl (by omega)
      · exact .inr ⟨hab.trans hbc, hk.trans hk'⟩

/-- The keys from the oldest stamp to the newest. -/
def order (m : SortedMap K Nat) : List K := (m.entries.insertionSort StampLe).map Prod.fst

/-- **No stamp is given twice, and the next one is new.** -/
structure Stamped (m : SortedMap K Nat) (next : Nat) : Prop where
  distinct : ∀ k k' s, m.lookup k = some s → m.lookup k' = some s → k = k'
  below : ∀ k s, m.lookup k = some s → s < next

theorem mem_order {m : SortedMap K Nat} {k : K} : k ∈ order m ↔ k ∈ m.keys := by
  unfold order SortedMap.keys
  rw [List.mem_map, List.mem_map]
  simp only [List.mem_insertionSort]

theorem stamped_empty (next : Nat) : Stamped (.empty : SortedMap K Nat) next where
  distinct := fun _ _ _ h => by cases h
  below := fun _ _ h => by cases h

/-- The stamp of a key, zero for an unknown one. -/
def stamp (m : SortedMap K Nat) (k : K) : Nat := (m.lookup k).getD 0

theorem stamp_of_lookup {m : SortedMap K Nat} {k : K} {s : Nat} (h : m.lookup k = some s) :
    stamp m k = s := by
  unfold stamp
  rw [h]
  rfl

section Order

variable {m : SortedMap K Nat} {next : Nat} (h : Stamped m next)
include h

/-- Entries in stamp order are in strict stamp order. -/
theorem pairwise_keys_of_sorted {l : List (K × Nat)} (hsub : ∀ e ∈ l, e ∈ m.entries)
    (hnd : l.Nodup) (hs : l.Pairwise fun a b => a.2 ≤ b.2) :
    (l.map Prod.fst).Pairwise fun a b => stamp m a < stamp m b := by
  rw [List.pairwise_map]
  refine (hs.and hnd).imp_of_mem fun {a b} ha hb hab => ?_
  have hla : m.lookup a.1 = some a.2 := SortedMap.mem_entries.mp (hsub a ha)
  have hlb : m.lookup b.1 = some b.2 := SortedMap.mem_entries.mp (hsub b hb)
  rw [stamp_of_lookup hla, stamp_of_lookup hlb]
  refine lt_of_le_of_ne hab.1 fun heq => hab.2 ?_
  rw [← heq] at hlb
  exact Prod.ext (h.distinct _ _ _ hla hlb) heq

theorem pairwise_order : (order m).Pairwise fun a b => stamp m a < stamp m b := by
  refine pairwise_keys_of_sorted h (fun e he => (List.mem_insertionSort StampLe).mp he) ?_ ?_
  · exact ((List.perm_insertionSort StampLe m.entries).nodup_iff).mpr m.nodup_entries
  · exact (List.pairwise_insertionSort StampLe m.entries).imp fun hab => hab.snd_le

theorem nodup_order : (order m).Nodup :=
  (pairwise_order h).imp fun hlt heq => by
    rw [heq] at hlt
    exact absurd hlt (lt_irrefl _)

omit h in
/-- Two lists in strict stamp order with the same keys are equal. -/
theorem eq_of_pairwise {l l' : List K} (hl : l.Pairwise fun a b => stamp m a < stamp m b)
    (hl' : l'.Pairwise fun a b => stamp m a < stamp m b) (hmem : ∀ k, k ∈ l ↔ k ∈ l') :
    l = l' := by
  have hnd : ∀ l : List K, (l.Pairwise fun a b => stamp m a < stamp m b) → l.Nodup :=
    fun l hl => hl.imp fun hlt heq => absurd (heq ▸ hlt) (lt_irrefl _)
  have hperm : l.Perm l' := (List.perm_ext_iff_of_nodup (hnd l hl) (hnd l' hl')).mpr hmem
  exact hperm.eq_of_pairwise (fun a b _ _ hab hba => absurd (hab.trans hba) (lt_irrefl _)) hl hl'

/-- **Entries in stamp order are a part of the order.** -/
theorem eq_order_filter {l : List (K × Nat)} {p : K → Bool}
    (hmem : ∀ e, e ∈ l ↔ e ∈ m.entries ∧ p e.1 = true) (hnd : l.Nodup)
    (hs : l.Pairwise fun a b => a.2 ≤ b.2) : l.map Prod.fst = (order m).filter p := by
  refine eq_of_pairwise (pairwise_keys_of_sorted h (fun e he => ((hmem e).mp he).1) hnd hs)
    ((pairwise_order h).sublist List.filter_sublist) fun k => ?_
  rw [List.mem_filter, mem_order, List.mem_map]
  constructor
  · rintro ⟨e, he, rfl⟩
    obtain ⟨hm, hp⟩ := (hmem e).mp he
    exact ⟨List.mem_map_of_mem hm, hp⟩
  · rintro ⟨hk, hp⟩
    obtain ⟨e, he, rfl⟩ := List.mem_map.mp hk
    exact ⟨e, (hmem e).mpr ⟨he, hp⟩, rfl⟩

/-! ## 2. Touching and removing -/

theorem stamped_insert (k : K) : Stamped (m.insert k next) (next + 1) where
  distinct := by
    intro a b s ha hb
    rw [SortedMap.lookup_insert] at ha hb
    split_ifs at ha hb with hka hkb hkb
    · rw [hka, hkb]
    · cases ha
      exact absurd (h.below b _ hb) (lt_irrefl _)
    · cases hb
      exact absurd (h.below a _ ha) (lt_irrefl _)
    · exact h.distinct a b s ha hb
  below := by
    intro a s ha
    rw [SortedMap.lookup_insert] at ha
    split_ifs at ha with hka
    · cases ha
      exact Nat.lt_succ_self _
    · exact (h.below a s ha).trans (Nat.lt_succ_self _)

/-- **A touched key moves to the end.** -/
theorem order_insert (k : K) :
    order (m.insert k next) = ((order m).filter fun k' => decide (k' ≠ k)) ++ [k] := by
  have hne : ∀ a ∈ (order m).filter fun k' => decide (k' ≠ k), a ≠ k := fun a ha =>
    of_decide_eq_true (List.mem_filter.mp ha).2
  have hstamp : ∀ a, a ≠ k → stamp (m.insert k next) a = stamp m a := by
    intro a ha
    unfold stamp
    rw [SortedMap.lookup_insert_ne m ha]
  have hlast : stamp (m.insert k next) k = next := stamp_of_lookup (SortedMap.lookup_insert_self ..)
  refine eq_of_pairwise (pairwise_order (stamped_insert h k)) ?_ fun a => ?_
  · rw [List.pairwise_append]
    refine ⟨?_, List.pairwise_singleton _ _, fun a ha b hb => ?_⟩
    · refine ((pairwise_order h).sublist List.filter_sublist).imp_of_mem fun {a b} ha hb hab => ?_
      rw [hstamp a (hne a ha), hstamp b (hne b hb)]
      exact hab
    · rw [List.mem_singleton.mp hb, hstamp a (hne a ha), hlast]
      obtain ⟨s, hs⟩ := SortedMap.mem_keys.mp (mem_order.mp (List.mem_filter.mp ha).1)
      rw [stamp_of_lookup hs]
      exact h.below a s hs
  · rw [mem_order, SortedMap.mem_keys_insert, List.mem_append, List.mem_filter, mem_order,
      List.mem_singleton, decide_eq_true_eq]
    by_cases hk : a = k
    · simp [hk]
    · simp [hk]

theorem stamped_retain (p : K → Nat → Bool) : Stamped (m.retain p) next where
  distinct := by
    intro a b s ha hb
    rw [SortedMap.lookup_retain, Option.filter_eq_some_iff] at ha hb
    exact h.distinct a b s ha.1 hb.1
  below := by
    intro a s ha
    rw [SortedMap.lookup_retain, Option.filter_eq_some_iff] at ha
    exact h.below a s ha.1

/-- **Removed keys drop out.** -/
theorem order_retain (p : K → Bool) :
    order (m.retain fun k _ => p k) = (order m).filter p := by
  have hret := stamped_retain h fun k _ => p k
  refine eq_order_filter h (fun e => ?_)
    (((List.perm_insertionSort StampLe _).nodup_iff).mpr (SortedMap.nodup_entries _))
    ((List.pairwise_insertionSort StampLe _).imp fun hab => hab.snd_le)
  rw [List.mem_insertionSort]
  exact List.mem_filter

end Order

/-! ## 3. Giving the stamps anew -/

/-- The keys with the stamps `n + 1`, `n + 2`, and so on. -/
def ranks : Nat → SortedMap K Nat → List K → SortedMap K Nat
  | _, m, [] => m
  | n, m, k :: ks => ranks (n + 1) (m.insert k (n + 1)) ks

theorem stamped_ranks {n : Nat} {m : SortedMap K Nat} (h : Stamped m (n + 1)) (ks : List K) :
    Stamped (ranks n m ks) (n + ks.length + 1) := by
  induction ks generalizing n m with
  | nil => exact h
  | cons k ks ih =>
      have hrest := ih (stamped_insert h k)
      have hlen : n + (k :: ks).length + 1 = n + 1 + ks.length + 1 := by
        rw [List.length_cons]
        omega
      rw [hlen]
      exact hrest

/-- **Stamps given anew keep the order.** -/
theorem order_ranks {n : Nat} {m : SortedMap K Nat} (h : Stamped m (n + 1)) {ks : List K}
    (hnd : ks.Nodup) (hnew : ∀ k ∈ ks, k ∉ m.keys) : order (ranks n m ks) = order m ++ ks := by
  induction ks generalizing n m with
  | nil => exact (List.append_nil _).symm
  | cons k ks ih =>
      obtain ⟨hk, hnd⟩ := List.nodup_cons.mp hnd
      have hkm : k ∉ m.keys := hnew k List.mem_cons_self
      have hself : ((order m).filter fun k' => decide (k' ≠ k)) = order m := by
        refine List.filter_eq_self.mpr fun a ha => decide_eq_true fun heq => hkm ?_
        rw [← heq]
        exact mem_order.mp ha
      have hnew' : ∀ a ∈ ks, a ∉ (m.insert k (n + 1)).keys := by
        intro a ha hin
        rcases SortedMap.mem_keys_insert.mp hin with heq | hin
        · exact hk (heq ▸ ha)
        · exact hnew a (List.mem_cons_of_mem _ ha) hin
      rw [ranks, ih (stamped_insert h k) hnd hnew', order_insert h, hself, List.append_assoc]
      rfl

end Recency

/-
  File:      IronCrab/Lib/Fifo.lean
  Subject:   A TABLE THAT IS EVICTED IN THE ORDER OF ADMISSION. Nothing here names a program.

  Beside a table stands the list of its keys, oldest first. `Listed` says that the list names every
  key of the table once; evicting the head, admitting a new key at the end and writing to a key
  that is there keep it.
-/
import Mathlib.Data.Finmap

namespace Fifo

variable {K V : Type} [DecidableEq K] {order : List K} {table : Finmap fun _ : K => V} {k : K}

/-- **The list names every key of the table, and none twice.** -/
structure Listed (order : List K) (table : Finmap fun _ : K => V) : Prop where
  nodup : order.Nodup
  mem : ∀ k, k ∈ order ↔ k ∈ table

omit [DecidableEq K] in
theorem listed_empty : Listed ([] : List K) (∅ : Finmap fun _ : K => V) where
  nodup := List.nodup_nil
  mem := fun _ => iff_of_false List.not_mem_nil Finmap.notMem_empty

theorem Listed.card (h : Listed order table) : table.keys.card = order.length := by
  rw [← List.toFinset_card_of_nodup h.nodup]
  congr 1
  ext k
  rw [Finmap.mem_keys, List.mem_toFinset, h.mem]

/-- The oldest key goes. -/
theorem Listed.evict (h : Listed (k :: order) table) : Listed order (table.erase k) where
  nodup := h.nodup.of_cons
  mem := by
    intro k'
    rw [Finmap.mem_erase, ← h.mem, List.mem_cons]
    constructor
    · intro hk'
      exact ⟨fun heq => (List.nodup_cons.mp h.nodup).1 (heq ▸ hk'), .inr hk'⟩
    · rintro ⟨hne, heq | hk'⟩
      · exact absurd heq hne
      · exact hk'

/-- A new key comes. -/
theorem Listed.enter (h : Listed order table) (hk : k ∉ table) (v : V) :
    Listed (order ++ [k]) (table.insert k v) where
  nodup := h.nodup.append (List.nodup_singleton k)
    (List.disjoint_singleton.mpr fun hmem => hk ((h.mem k).mp hmem))
  mem := by
    intro k'
    rw [List.mem_append, List.mem_singleton, Finmap.mem_insert, h.mem, or_comm]

/-- A key that is there is written. -/
theorem Listed.write (h : Listed order table) (hk : k ∈ table) (v : V) :
    Listed order (table.insert k v) where
  nodup := h.nodup
  mem := by
    intro k'
    rw [Finmap.mem_insert, h.mem]
    constructor
    · exact .inr
    · rintro (rfl | hk')
      · exact hk
      · exact hk'

omit [DecidableEq K] in
/-- **A key that is listed twice** is what a table must not have. -/
theorem not_listed_of_mem (hk : k ∈ order) : ¬ Listed (order ++ [k]) table := fun h =>
  (List.disjoint_of_nodup_append h.nodup) hk (List.mem_singleton_self k)

end Fifo

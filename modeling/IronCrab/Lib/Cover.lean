/-
  File:      IronCrab/Lib/Cover.lean
  Subject:   FINITE FAMILIES OF FINITE SETS AND WHAT THEIR UNION LOSES. Nothing here names a
             program.

  Owners `G` each hold a set `S o`; together they cover `G.biUnion S`. When the owners `V` leave
  and the set `I` is kept for another reason, exactly `lost` goes: the elements outside `I` all
  of whose holders are in `V`.

  * `sdiff_biUnion_union` -- the cover after `V` has left and `I` has come;
  * `card_after` -- its size;
  * `exists_of_card_lt` -- a bigger set of leavers that loses more has an element whose holders
    are among them and not all among the smaller one.
-/
import Mathlib.Data.Finset.Union
import Mathlib.Data.Finset.Card

namespace Cover

variable {O K : Type} [DecidableEq K]

/-- The owners that hold an element. -/
def holders (G : Finset O) (S : O → Finset K) (k : K) : Finset O := G.filter fun o => k ∈ S o

variable {G : Finset O} {S : O → Finset K}

theorem mem_holders {k : K} {o : O} : o ∈ holders G S k ↔ o ∈ G ∧ k ∈ S o := Finset.mem_filter

theorem mem_biUnion_iff_holders {k : K} : k ∈ G.biUnion S ↔ (holders G S k).Nonempty := by
  constructor
  · intro h
    obtain ⟨o, ho, hk⟩ := Finset.mem_biUnion.mp h
    exact ⟨o, mem_holders.mpr ⟨ho, hk⟩⟩
  · rintro ⟨o, ho⟩
    obtain ⟨hG, hk⟩ := mem_holders.mp ho
    exact Finset.mem_biUnion.mpr ⟨o, hG, hk⟩

variable [DecidableEq O]

/-- What the cover loses when `V` leaves while `I` stays. -/
def lost (G : Finset O) (S : O → Finset K) (V : Finset O) (I : Finset K) : Finset K :=
  (G.biUnion S).filter fun k => k ∉ I ∧ holders G S k ⊆ V

theorem mem_lost {k : K} {V : Finset O} {I : Finset K} :
    k ∈ lost G S V I ↔ k ∈ G.biUnion S ∧ k ∉ I ∧ holders G S k ⊆ V := Finset.mem_filter

theorem lost_subset (V : Finset O) (I : Finset K) : lost G S V I ⊆ G.biUnion S :=
  Finset.filter_subset _ _

theorem lost_mono {V W : Finset O} (h : V ⊆ W) (I : Finset K) :
    lost G S V I ⊆ lost G S W I := by
  intro k hk
  obtain ⟨hU, hI, hV⟩ := mem_lost.mp hk
  exact mem_lost.mpr ⟨hU, hI, hV.trans h⟩

/-- An element stays covered just when a holder stays. -/
theorem mem_sdiff_biUnion {k : K} {V : Finset O} :
    k ∈ (G \ V).biUnion S ↔ ¬ holders G S k ⊆ V := by
  rw [Finset.mem_biUnion, Finset.not_subset]
  constructor
  · rintro ⟨o, ho, hk⟩
    obtain ⟨hG, hV⟩ := Finset.mem_sdiff.mp ho
    exact ⟨o, mem_holders.mpr ⟨hG, hk⟩, hV⟩
  · rintro ⟨o, ho, hV⟩
    obtain ⟨hG, hk⟩ := mem_holders.mp ho
    exact ⟨o, Finset.mem_sdiff.mpr ⟨hG, hV⟩, hk⟩

/-- **The cover after `V` has left and `I` has come.** -/
theorem sdiff_biUnion_union (V : Finset O) (I : Finset K) :
    (G \ V).biUnion S ∪ I = (G.biUnion S ∪ I) \ lost G S V I := by
  ext k
  rw [Finset.mem_union, mem_sdiff_biUnion, Finset.mem_sdiff, Finset.mem_union, mem_lost]
  constructor
  · rintro (hV | hI)
    · refine ⟨.inl ?_, fun h => hV h.2.2⟩
      rw [mem_biUnion_iff_holders]
      obtain ⟨o, ho, _⟩ := Finset.not_subset.mp hV
      exact ⟨o, ho⟩
    · exact ⟨.inr hI, fun h => h.2.1 hI⟩
  · rintro ⟨hU | hI, hno⟩
    · by_cases hI : k ∈ I
      · exact .inr hI
      · exact .inl fun hV => hno ⟨hU, hI, hV⟩
    · exact .inr hI

/-- **The size of the cover after `V` has left and `I` has come.** -/
theorem card_after (V : Finset O) (I : Finset K) :
    ((G \ V).biUnion S ∪ I).card + (lost G S V I).card =
      (G.biUnion S).card + (I \ G.biUnion S).card := by
  have hsub : lost G S V I ⊆ G.biUnion S ∪ I :=
    (lost_subset V I).trans Finset.subset_union_left
  rw [sdiff_biUnion_union, Finset.card_sdiff_add_card_eq_card hsub, Finset.union_comm,
    ← Finset.card_sdiff_add_card, Nat.add_comm]

/-- What is lost is what the new cover does not have. -/
theorem lost_eq_sdiff (V : Finset O) (I : Finset K) :
    lost G S V I = G.biUnion S \ ((G \ V).biUnion S ∪ I) := by
  rw [sdiff_biUnion_union]
  ext k
  rw [Finset.mem_sdiff, Finset.mem_sdiff, Finset.mem_union]
  constructor
  · intro h
    exact ⟨lost_subset V I h, fun hn => hn.2 h⟩
  · rintro ⟨hU, hn⟩
    by_contra hl
    exact hn ⟨.inl hU, hl⟩

/-- If `A` loses more than `V`, some element's holders are all in `A` and not all in `V`. -/
theorem exists_of_card_lt {V A : Finset O} {I : Finset K}
    (h : (lost G S V I).card < (lost G S A I).card) :
    ∃ k ∈ G.biUnion S, k ∉ I ∧ holders G S k ⊆ A ∧ ¬ holders G S k ⊆ V := by
  obtain ⟨k, hA, hV⟩ := Finset.exists_mem_notMem_of_card_lt_card h
  obtain ⟨hU, hI, hsub⟩ := mem_lost.mp hA
  exact ⟨k, hU, hI, hsub, fun hn => hV (mem_lost.mpr ⟨hU, hI, hn⟩)⟩

end Cover

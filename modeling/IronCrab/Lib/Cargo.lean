/-
  File:      IronCrab/Lib/Cargo.lean
  Subject:   CARRIERS AND WHAT THEY CARRY. Nothing here names a program.

  A relation says what load one carrier can carry. A bag of carriers carries the sum of their
  loads. Moving a carrier within the bag changes nothing; replacing some carriers by one that
  carries their loads and more is the only step that needs an argument.
-/
import Mathlib.Algebra.BigOperators.Group.Multiset.Basic

namespace Cargo

variable {A B : Type} {carries : A → Multiset B → Prop}

/-- **These carriers together carry this load.** -/
def Carried (carries : A → Multiset B → Prop) (carriers : Multiset A) (load : Multiset B) : Prop :=
  ∃ loads : Multiset (Multiset B), Multiset.Rel carries carriers loads ∧ loads.sum = load

@[simp] theorem carried_zero {load : Multiset B} : Carried carries 0 load ↔ load = 0 := by
  constructor
  · rintro ⟨loads, hrel, rfl⟩
    rw [Multiset.rel_zero_left.mp hrel]
    rfl
  · rintro rfl
    exact ⟨0, Multiset.Rel.zero, rfl⟩

theorem Carried.add {s t : Multiset A} {l m : Multiset B} (hs : Carried carries s l)
    (ht : Carried carries t m) : Carried carries (s + t) (l + m) := by
  obtain ⟨loads, hrel, rfl⟩ := hs
  obtain ⟨loads', hrel', rfl⟩ := ht
  exact ⟨loads + loads', hrel.add hrel', Multiset.sum_add _ _⟩

/-- Two bags carry what the one and the other carries. -/
theorem carried_add {s t : Multiset A} {load : Multiset B} :
    Carried carries (s + t) load ↔
      ∃ l m, Carried carries s l ∧ Carried carries t m ∧ l + m = load := by
  constructor
  · rintro ⟨loads, hrel, rfl⟩
    obtain ⟨left, right, hleft, hright, rfl⟩ := Multiset.rel_add_left.mp hrel
    exact ⟨_, _, ⟨left, hleft, rfl⟩, ⟨right, hright, rfl⟩, (Multiset.sum_add _ _).symm⟩
  · rintro ⟨l, m, hs, ht, rfl⟩
    exact hs.add ht

theorem carried_singleton {a : A} {load : Multiset B} (h : carries a load) :
    Carried carries {a} load :=
  ⟨{load}, Multiset.rel_cons_left.mpr ⟨load, 0, h, Multiset.Rel.zero, rfl⟩,
    Multiset.sum_singleton load⟩

/-- The loads of a list of carriers, in their order. -/
theorem Carried.toList {carriers : List A} {load : Multiset B}
    (h : Carried carries (carriers : Multiset A) load) :
    ∃ loads : List (Multiset B), List.Forall₂ carries carriers loads ∧ loads.sum = load := by
  induction carriers generalizing load with
  | nil => exact ⟨[], .nil, (carried_zero.mp h).symm⟩
  | cons a carriers ih =>
      rw [← Multiset.cons_coe] at h
      obtain ⟨loads, hrel, rfl⟩ := h
      obtain ⟨first, rest, hfirst, hrest, rfl⟩ := Multiset.rel_cons_left.mp hrel
      obtain ⟨loads, hloads, hsum⟩ := ih ⟨rest, hrest, rfl⟩
      refine ⟨first :: loads, .cons hfirst hloads, ?_⟩
      rw [List.sum_cons, hsum, Multiset.sum_cons]

/-- **Carriers are replaced by one that takes over their loads.** -/
theorem Carried.replace {kept : Multiset A} {replaced : List A} {a : A} {load more : Multiset B}
    (h : Carried carries (kept + (replaced : Multiset A)) load)
    (htake : ∀ loads, List.Forall₂ carries replaced loads → carries a (loads.sum + more)) :
    Carried carries (kept + {a}) (load + more) := by
  obtain ⟨l, m, hkept, hreplaced, rfl⟩ := carried_add.mp h
  obtain ⟨loads, hloads, rfl⟩ := hreplaced.toList
  rw [add_assoc]
  exact hkept.add (carried_singleton (htake loads hloads))

end Cargo

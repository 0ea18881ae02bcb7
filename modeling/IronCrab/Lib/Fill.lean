/-
  File:      IronCrab/Lib/Fill.lean
  Subject:   FILLING A BUDGET IN ORDER. Nothing here names a program.

  The elements of a list are taken one after the other as long as they fit; one that does not fit
  is left, and the next one gets its turn.

  * `fill` -- what is taken and what is left;
  * `perm_fill` -- every element is taken or left, and only once;
  * `used_add_sum_le` -- what is taken fits the budget;
  * `lt_of_mem_left` -- nothing that is left would fit in the end.
-/
import Mathlib.Algebra.BigOperators.Group.List.Basic
import Mathlib.Algebra.GroupWithZero.Nat

namespace Fill

variable {A : Type} (size : A → Nat) (limit : Nat)

/-- What is taken from a list, and what is left of it, when `used` of the budget is spent. -/
def fill : Nat → List A → List A × List A
  | _, [] => ([], [])
  | used, a :: l =>
      if limit < used + size a then
        ((fill used l).1, a :: (fill used l).2)
      else
        (a :: (fill (used + size a) l).1, (fill (used + size a) l).2)

variable {limit} {used : Nat} {a : A} {l : List A}

theorem fill_cons_of_lt (h : limit < used + size a) :
    fill size limit used (a :: l) = ((fill size limit used l).1, a :: (fill size limit used l).2) :=
  if_pos h

theorem fill_cons_of_le (h : used + size a ≤ limit) :
    fill size limit used (a :: l) =
      (a :: (fill size limit (used + size a) l).1, (fill size limit (used + size a) l).2) :=
  if_neg (Nat.not_lt_of_le h)

/-- **Every element is taken or left, and only once.** -/
theorem perm_fill (used : Nat) (l : List A) :
    ((fill size limit used l).1 ++ (fill size limit used l).2).Perm l := by
  induction l generalizing used with
  | nil => exact .nil
  | cons a l ih =>
      rcases Nat.lt_or_ge limit (used + size a) with h | h
      · rw [fill_cons_of_lt size h]
        exact List.perm_middle.trans ((ih used).cons a)
      · rw [fill_cons_of_le size h]
        exact (ih (used + size a)).cons a

variable {size}

theorem taken_subset : (fill size limit used l).1 ⊆ l := fun _ h =>
  (perm_fill size used l).subset (List.mem_append_left _ h)

theorem left_subset : (fill size limit used l).2 ⊆ l := fun _ h =>
  (perm_fill size used l).subset (List.mem_append_right _ h)

variable (size) in
/-- **What is taken fits the budget.** -/
theorem used_add_sum_le (h : used ≤ limit) :
    used + ((fill size limit used l).1.map size).sum ≤ limit := by
  induction l generalizing used with
  | nil => exact h
  | cons a l ih =>
      rcases Nat.lt_or_ge limit (used + size a) with hfull | hfits
      · rw [fill_cons_of_lt size hfull]
        exact ih h
      · rw [fill_cons_of_le size hfits, List.map_cons, List.sum_cons, ← Nat.add_assoc]
        exact ih hfits

/-- **Nothing that is left would fit in the end.** -/
theorem lt_of_mem_left (h : a ∈ (fill size limit used l).2) :
    limit < used + ((fill size limit used l).1.map size).sum + size a := by
  induction l generalizing used with
  | nil => exact absurd h List.not_mem_nil
  | cons b l ih =>
      rcases Nat.lt_or_ge limit (used + size b) with hfull | hfits
      · rw [fill_cons_of_lt size hfull] at h ⊢
        rcases List.mem_cons.mp h with rfl | h
        · omega
        · exact ih h
      · rw [fill_cons_of_le size hfits] at h ⊢
        rw [List.map_cons, List.sum_cons, ← Nat.add_assoc]
        exact ih h

end Fill

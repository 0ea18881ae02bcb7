/-
  File:      IronCrab/Lib/Packing.lean
  Subject:   A LIST CUT GREEDILY into pieces that fit. Nothing here names a program.

  A piece takes entries as long as it fits; an entry that does not fit alone is a piece of its own.

  * `Packing` -- the pieces in order are the list, and no piece could take the entry after it;
  * `Packing.cons` -- a first piece, and the pieces of the rest; `Packing.full_of_append`;
  * `piece_spec` -- the end of the first piece, found by bisection, where fitting is lost once and
    for all when entries are added.
-/
import IronCrab.Lib.Bisect
import Mathlib.Data.List.Chain

variable {α : Type}

/-- `parts` cut `l` greedily. -/
structure Packing (fits : List α → Bool) (l : List α) (parts : List (List α)) : Prop where
  flatten : parts.flatten = l
  ne_nil : ∀ p ∈ parts, p ≠ []
  small : ∀ p ∈ parts, fits p = true ∨ p.length = 1
  full : parts.IsChain fun p q => ∀ x ∈ q.head?, fits (p ++ [x]) = false

namespace Packing

variable {fits : List α → Bool}

/-! ## 1. Piece by piece -/

theorem nil : Packing fits [] [] where
  flatten := rfl
  ne_nil := fun _ h => absurd h List.not_mem_nil
  small := fun _ h => absurd h List.not_mem_nil
  full := List.isChain_nil

/-- The first entry of the list is the first one of the first piece. -/
theorem head?_eq {l : List α} {q : List α} {parts : List (List α)}
    (h : Packing fits l (q :: parts)) : l.head? = q.head? := by
  rw [← h.flatten, List.flatten_cons]
  cases q with
  | nil => exact absurd rfl (h.ne_nil [] List.mem_cons_self)
  | cons x q => rfl

theorem cons {l p : List α} {parts : List (List α)} (h : Packing fits l parts) (hne : p ≠ [])
    (hsmall : fits p = true ∨ p.length = 1) (hfull : ∀ x ∈ l.head?, fits (p ++ [x]) = false) :
    Packing fits (p ++ l) (p :: parts) where
  flatten := by rw [List.flatten_cons, h.flatten]
  ne_nil := List.forall_mem_cons.mpr ⟨hne, h.ne_nil⟩
  small := List.forall_mem_cons.mpr ⟨hsmall, h.small⟩
  full := by
    cases parts with
    | nil => exact List.isChain_singleton p
    | cons q parts =>
        rw [List.isChain_cons_cons]
        exact ⟨fun x hx => hfull x (h.head?_eq.symm ▸ hx), h.full⟩

/-- No piece could take the entry after it. -/
theorem full_of_append {l p : List α} {before after parts : List (List α)}
    (h : Packing fits l parts) (hparts : parts = before ++ p :: after) :
    ∀ x ∈ after.flatten.head?, fits (p ++ [x]) = false := by
  intro x hx
  subst hparts
  cases after with
  | nil => cases hx
  | cons q after =>
      have hq : q ≠ [] := h.ne_nil q (by simp)
      obtain ⟨y, q, rfl⟩ := List.exists_cons_of_ne_nil hq
      have hfull := (List.isChain_append.mp h.full).2.1
      rw [List.isChain_cons_cons] at hfull
      exact hfull.1 x hx

/-! ## 2. The first piece -/

/-- How many entries the first piece takes. -/
def piece (fits : List α → Bool) (l : List α) : Nat :=
  Bisect.greatest (fun n => fits (l.take n)) 1 l.length 1

theorem fits_of_append (hmono : ∀ p x, fits (p ++ [x]) = true → fits p = true) (p q : List α)
    (h : fits (p ++ q) = true) : fits p = true := by
  induction q generalizing p with
  | nil => rwa [List.append_nil] at h
  | cons x q ih =>
      rw [List.append_cons] at h
      exact hmono p x (ih _ h)

/-- **The first piece** is not empty, fits unless it is one entry, and is full. -/
theorem piece_spec (fits : List α → Bool)
    (hmono : ∀ p x, fits (p ++ [x]) = true → fits p = true) {l : List α} (hl : l ≠ []) :
    1 ≤ piece fits l ∧ piece fits l ≤ l.length ∧
      (fits (l.take (piece fits l)) = true ∨ piece fits l = 1) ∧
      ∀ x ∈ (l.drop (piece fits l)).head?, fits (l.take (piece fits l) ++ [x]) = false := by
  have hpos : 1 ≤ l.length := List.length_pos_iff.mpr hl
  have htake : ∀ n m, n ≤ m → m ≤ l.length → fits (l.take m) = true →
      fits (l.take n) = true := fun n m hnm _ hfits => by
    rw [← List.take_append_drop n (l.take m), List.take_take, Nat.min_eq_left hnm] at hfits
    exact fits_of_append hmono _ _ hfits
  have hnext : ∀ n x, x ∈ (l.drop n).head? → l.take n ++ [x] = l.take (n + 1) := fun n x hx => by
    rw [List.head?_drop] at hx
    rw [List.take_add_one, hx]
    rfl
  have hlt : ∀ n x, x ∈ (l.drop n).head? → n + 1 ≤ l.length := fun n x hx => by
    rw [List.head?_drop] at hx
    exact (List.getElem?_eq_some_iff.mp hx).1
  unfold piece
  rcases Bisect.greatest_spec 1 1 htake with
    ⟨e, hnone⟩ | ⟨h1, h2, h3, h4⟩
  · rw [e]
    refine ⟨le_rfl, hpos, .inr rfl, fun x hx => ?_⟩
    rw [hnext 1 x hx]
    exact hnone 2 (by omega) (hlt 1 x hx)
  · refine ⟨h1, h2, .inl h3, fun x hx => ?_⟩
    rw [hnext _ x hx]
    exact h4 _ (Nat.lt_succ_self _) (hlt _ x hx)

end Packing

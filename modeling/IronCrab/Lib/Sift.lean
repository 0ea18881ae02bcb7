/-
  File:      IronCrab/Lib/Sift.lean
  Subject:   SIFTING A LIST: WHAT A PARTIAL MAP KEEPS, AND THE FIRST ELEMENT OF EACH KEY. Nothing
             here names a program.

  * `map_some_filterMap`, `getElem?_of_map_some` -- a map that drops nothing keeps positions;
  * `filterMap_eq_toList` -- a map that keeps at most one element; `filterMap_eq_of_forall₂`;
  * `positional_iff_noGap` -- a map keeps the positions of what it keeps exactly when it drops only
    from some point on;
  * `mem_firsts`, `nodup_firsts`, `exists_mem_firsts` -- the first element of each key.
-/
import Mathlib.Data.List.Basic
import Mathlib.Data.List.Forall2
import Mathlib.Data.List.Nodup

namespace Sift

variable {A B K : Type}

/-! ## 1. Maps that drop nothing -/

/-- A list that is mapped without a loss loses nothing by being filtered. -/
theorem map_some_filterMap {f : A → Option B} {l : List A} (h : ∀ a ∈ l, (f a).isSome) :
    (l.filterMap f).map some = l.map f := by
  induction l with
  | nil => rfl
  | cons a l ih =>
      obtain ⟨b, hb⟩ := Option.isSome_iff_exists.mp (h a List.mem_cons_self)
      rw [List.filterMap_cons_some hb, List.map_cons, List.map_cons,
        ih fun a' ha' => h a' (List.mem_cons_of_mem _ ha'), hb]

/-- Where such a list stands: an entry and what it is mapped to have one position. -/
theorem getElem?_of_map_some {f : A → Option B} {l : List A} {l' : List B}
    (h : l'.map some = l.map f) {i : Nat} {a : A} {b : B} (ha : l[i]? = some a)
    (hb : f a = some b) : l'[i]? = some b := by
  have hi := congrArg (fun m => m[i]?) h
  simp only [List.getElem?_map, ha, hb, Option.map_some] at hi
  cases hl : l'[i]? with
  | none =>
      rw [hl] at hi
      cases hi
  | some b' =>
      rw [hl] at hi
      cases hi
      rfl

/-- Where at most one element of a list is kept, what is left of the list. -/
theorem filterMap_eq_toList {f : A → Option B} {l : List A} {a : A} (hnodup : l.Nodup) (ha : a ∈ l)
    (hrest : ∀ b ∈ l, b ≠ a → f b = none) : l.filterMap f = (f a).toList := by
  obtain ⟨pre, post, rfl⟩ := List.append_of_mem ha
  have hout := (List.nodup_middle.mp hnodup).notMem
  rw [List.mem_append, not_or] at hout
  have hnil : ∀ l' : List A, (∀ b ∈ l', b ∈ pre ++ a :: post ∧ b ≠ a) → l'.filterMap f = [] := by
    intro l' hl'
    rw [List.filterMap_eq_nil_iff]
    exact fun b hb => hrest b (hl' b hb).1 (hl' b hb).2
  have hpre := hnil pre fun b hb =>
    ⟨List.mem_append_left _ hb, fun heq => hout.1 (heq ▸ hb)⟩
  have hpost := hnil post fun b hb =>
    ⟨List.mem_append_right _ (List.mem_cons_of_mem _ hb), fun heq => hout.2 (heq ▸ hb)⟩
  rw [List.filterMap_append, hpre, List.nil_append]
  cases h : f a with
  | none => rw [List.filterMap_cons_none h, hpost, Option.toList_none]
  | some b => rw [List.filterMap_cons_some h, hpost, Option.toList_some]

/-- Lists whose elements are kept alike leave the same list. -/
theorem filterMap_eq_of_forall₂ {C : Type} {f : A → Option B} {g : C → Option B} {l : List A}
    {l' : List C} (h : List.Forall₂ (fun a c => f a = g c) l l') :
    l.filterMap f = l'.filterMap g := by
  induction h with
  | nil => rfl
  | cons hac _ ih => rw [List.filterMap_cons, List.filterMap_cons, hac, ih]

/-! ## 2. Maps that drop -/

/-- What is kept stands at its own position. -/
def Positional (f : A → Option B) (l : List A) : Prop :=
  ∀ (k : Nat) b, (l.filterMap f)[k]? = some b → l[k]?.bind f = some b

/-- From the first element that is dropped on, everything is. -/
def NoGap (f : A → Option B) (l : List A) : Prop :=
  ∃ kept dropped, l = kept ++ dropped ∧ (∀ a ∈ kept, (f a).isSome) ∧ ∀ a ∈ dropped, f a = none

variable {f : A → Option B} {a : A} {l : List A}

theorem positional_cons_none (ha : f a = none) :
    Positional f (a :: l) ↔ ∀ a' ∈ l, f a' = none := by
  unfold Positional
  rw [List.filterMap_cons_none ha, ← List.filterMap_eq_nil_iff]
  constructor
  · intro h
    -- what would be kept would stand at the position of what is dropped
    cases hl : l.filterMap f with
    | nil => rfl
    | cons b rest =>
        have hfirst := h 0 b (by rw [hl]; rfl)
        rw [List.getElem?_cons_zero, Option.bind_some, ha] at hfirst
        cases hfirst
  · intro h k b hk
    rw [h] at hk
    cases hk

theorem positional_cons_some {b : B} (ha : f a = some b) :
    Positional f (a :: l) ↔ Positional f l := by
  unfold Positional
  rw [List.filterMap_cons_some ha]
  constructor
  · intro h k b' hk
    have hnext := h (k + 1) b' (by rw [List.getElem?_cons_succ]; exact hk)
    rw [List.getElem?_cons_succ] at hnext
    exact hnext
  · intro h k b' hk
    cases k with
    | zero =>
        cases hk
        exact ha
    | succ k =>
        rw [List.getElem?_cons_succ] at hk ⊢
        exact h k b' hk

theorem noGap_cons_none (ha : f a = none) : NoGap f (a :: l) ↔ ∀ a' ∈ l, f a' = none := by
  constructor
  · rintro ⟨kept, dropped, hl, hkept, hdropped⟩ a' ha'
    cases kept with
    | nil =>
        refine hdropped a' ?_
        rw [← List.nil_append dropped, ← hl]
        exact List.mem_cons_of_mem _ ha'
    | cons a₀ kept =>
        obtain ⟨rfl, -⟩ := List.cons.inj hl
        have hsome := hkept a List.mem_cons_self
        rw [ha] at hsome
        cases hsome
  · intro h
    exact ⟨[], a :: l, rfl, fun _ hmem => absurd hmem List.not_mem_nil,
      List.forall_mem_cons.mpr ⟨ha, h⟩⟩

theorem noGap_cons_some {b : B} (ha : f a = some b) : NoGap f (a :: l) ↔ NoGap f l := by
  constructor
  · rintro ⟨kept, dropped, hl, hkept, hdropped⟩
    cases kept with
    | nil =>
        have hnone := hdropped a (by rw [← List.nil_append dropped, ← hl]; exact List.mem_cons_self)
        rw [ha] at hnone
        cases hnone
    | cons a₀ kept =>
        obtain ⟨rfl, rfl⟩ := List.cons.inj hl
        exact ⟨kept, dropped, rfl, fun a' ha' => hkept a' (List.mem_cons_of_mem _ ha'), hdropped⟩
  · rintro ⟨kept, dropped, rfl, hkept, hdropped⟩
    exact ⟨a :: kept, dropped, rfl, List.forall_mem_cons.mpr ⟨by rw [ha]; rfl, hkept⟩, hdropped⟩

/-- **What is kept stands at its own position exactly when everything is dropped from some point
    on.** -/
theorem positional_iff_noGap : Positional f l ↔ NoGap f l := by
  induction l with
  | nil =>
      exact ⟨fun _ => ⟨[], [], rfl, fun _ h => absurd h List.not_mem_nil,
        fun _ h => absurd h List.not_mem_nil⟩, fun _ _ _ h => h⟩
  | cons a l ih =>
      cases ha : f a with
      | none => rw [positional_cons_none ha, noGap_cons_none ha]
      | some b => rw [positional_cons_some ha, noGap_cons_some ha, ih]

theorem noGap_of_forall (h : ∀ a ∈ l, (f a).isSome) : NoGap f l :=
  ⟨l, [], (List.append_nil l).symm, h, fun _ hmem => absurd hmem List.not_mem_nil⟩

/-! ## 3. The first element of each key -/

section Firsts

variable [DecidableEq K] (key : A → K)

/-- The elements whose key is neither seen nor that of an earlier element. -/
def firsts : List K → List A → List A
  | _, [] => []
  | seen, a :: l => if key a ∈ seen then firsts seen l else a :: firsts (key a :: seen) l

variable {key}

/-- **Which elements are first.** -/
theorem mem_firsts {seen : List K} {l : List A} {a : A} :
    a ∈ firsts key seen l ↔
      key a ∉ seen ∧ ∃ pre post, l = pre ++ a :: post ∧ ∀ a' ∈ pre, key a' ≠ key a := by
  induction l generalizing seen with
  | nil => simp [firsts]
  | cons b l ih =>
      unfold firsts
      split
      case isTrue hseen =>
          rw [ih]
          constructor
          · rintro ⟨hnew, pre, post, rfl, hpre⟩
            refine ⟨hnew, b :: pre, post, rfl, List.forall_mem_cons.mpr ⟨?_, hpre⟩⟩
            intro heq
            exact hnew (heq ▸ hseen)
          · rintro ⟨hnew, pre, post, hl, hpre⟩
            cases pre with
            | nil =>
                obtain ⟨rfl, -⟩ := List.cons.inj hl
                exact absurd hseen hnew
            | cons b' pre =>
                obtain ⟨rfl, rfl⟩ := List.cons.inj hl
                exact ⟨hnew, pre, post, rfl, fun a' ha' => hpre a' (List.mem_cons_of_mem _ ha')⟩
      case isFalse hseen =>
          rw [List.mem_cons, ih]
          constructor
          · rintro (rfl | ⟨hnew, pre, post, rfl, hpre⟩)
            · exact ⟨hseen, [], l, rfl, fun _ h => absurd h List.not_mem_nil⟩
            · rw [List.mem_cons, not_or] at hnew
              exact ⟨hnew.2, b :: pre, post, rfl,
                List.forall_mem_cons.mpr ⟨fun heq => hnew.1 heq.symm, hpre⟩⟩
          · rintro ⟨hnew, pre, post, hl, hpre⟩
            cases pre with
            | nil => exact .inl (List.cons.inj hl).1.symm
            | cons b' pre =>
                obtain ⟨rfl, rfl⟩ := List.cons.inj hl
                refine .inr ⟨?_, pre, post, rfl, fun a' ha' => hpre a' (List.mem_cons_of_mem _ ha')⟩
                rw [List.mem_cons, not_or]
                exact ⟨fun heq => hpre b List.mem_cons_self heq.symm, hnew⟩

/-- **No key twice.** -/
theorem nodup_firsts (seen : List K) (l : List A) : ((firsts key seen l).map key).Nodup := by
  induction l generalizing seen with
  | nil => exact List.nodup_nil
  | cons a l ih =>
      unfold firsts
      split
      · exact ih seen
      · rw [List.map_cons, List.nodup_cons]
        refine ⟨?_, ih _⟩
        intro hmem
        obtain ⟨b, hb, hkey⟩ := List.mem_map.mp hmem
        exact (mem_firsts.mp hb).1 (hkey ▸ List.mem_cons_self)

/-- **Every key that is not seen.** -/
theorem exists_mem_firsts {seen : List K} {l : List A} {a : A} (ha : a ∈ l) (hnew : key a ∉ seen) :
    ∃ b ∈ firsts key seen l, key b = key a := by
  induction l generalizing seen with
  | nil => exact absurd ha List.not_mem_nil
  | cons b l ih =>
      unfold firsts
      split
      case isTrue hseen =>
          obtain rfl | ha := List.mem_cons.mp ha
          · exact absurd hseen hnew
          · exact ih ha hnew
      case isFalse =>
          by_cases hkey : key b = key a
          · exact ⟨b, List.mem_cons_self, hkey⟩
          · obtain rfl | ha := List.mem_cons.mp ha
            · exact absurd rfl hkey
            · obtain ⟨c, hc, hck⟩ := ih ha (by
                rw [List.mem_cons, not_or]
                exact ⟨fun h => hkey h.symm, hnew⟩)
              exact ⟨c, List.mem_cons_of_mem _ hc, hck⟩

end Firsts

end Sift

/-
  File:      IronCrab/Lib/Lines.lean
  Subject:   LINES OF A STREAM. Nothing here names a program.

  A stream is cut after every element that ends a line; what follows the last of them is one more
  line, which is open. A stream that ends a line can be followed by anything without a change to
  its lines (`lines_append`), and what is appended to an open line makes no closed line of the
  elements before it alone (`filter_lines_append`).
-/
import Mathlib.Data.List.Induction

namespace Lines

variable {A : Type} (ends : A → Bool)

/-- The lines of a stream, each with the element that ends it. -/
def lines : List A → List (List A)
  | [] => []
  | a :: l =>
      if ends a then [a] :: lines l
      else match lines l with
        | [] => [[a]]
        | x :: xs => (a :: x) :: xs

/-- The stream is empty or ends with the end of a line. -/
def EndsLine (l : List A) : Prop := ∀ a ∈ l.getLast?, ends a = true

instance (l : List A) : Decidable (EndsLine ends l) := by
  unfold EndsLine
  cases l.getLast? with
  | none => exact .isTrue fun _ h => nomatch h
  | some a =>
      refine decidable_of_iff (ends a = true) ⟨fun h _ hb => ?_, fun h => h a rfl⟩
      exact Option.some.inj hb ▸ h

variable {ends}

@[simp] theorem lines_nil : lines ends [] = [] := rfl

theorem endsLine_nil : EndsLine ends [] := fun _ h => nomatch h

theorem endsLine_concat {l : List A} {a : A} (h : ends a = true) : EndsLine ends (l ++ [a]) := by
  intro b hb
  rw [List.getLast?_concat] at hb
  exact Option.some.inj hb ▸ h

theorem EndsLine.tail {a : A} {l : List A} (h : EndsLine ends (a :: l)) : EndsLine ends l := by
  cases l with
  | nil => exact endsLine_nil
  | cons b l => exact h

theorem lines_eq_nil {l : List A} : lines ends l = [] ↔ l = [] := by
  cases l with
  | nil => exact iff_of_true rfl rfl
  | cons a l =>
      refine iff_of_false (fun h => ?_) (List.cons_ne_nil a l)
      unfold lines at h
      split at h
      · cases h
      · split at h <;> cases h

/-- **What follows the end of a line leaves the lines before it alone.** -/
theorem lines_append {l : List A} (h : EndsLine ends l) (l' : List A) :
    lines ends (l ++ l') = lines ends l ++ lines ends l' := by
  induction l with
  | nil => rfl
  | cons a l ih =>
      have hl := ih h.tail
      by_cases ha : ends a = true
      · rw [List.cons_append, lines, lines, if_pos ha, if_pos ha, hl]
        rfl
      · have hne : l ≠ [] := by
          rintro rfl
          exact ha (h a rfl)
        rw [List.cons_append, lines, lines, if_neg ha, if_neg ha, hl]
        cases hx : lines ends l with
        | nil => exact absurd (lines_eq_nil.mp hx) hne
        | cons x xs => rfl

/-- An element that ends a line, after elements that do not. -/
theorem lines_closed {l : List A} (h : ∀ a ∈ l, ends a = false) {e : A} (he : ends e = true) :
    lines ends (l ++ [e]) = [l ++ [e]] := by
  induction l with
  | nil =>
      rw [List.nil_append, lines, if_pos he]
      rfl
  | cons a l ih =>
      have ha : ¬ ends a = true := by
        rw [h a List.mem_cons_self]
        exact Bool.false_ne_true
      rw [List.cons_append, lines, if_neg ha, ih fun b hb => h b (List.mem_cons_of_mem a hb)]

/-- The elements of a line are elements of the stream. -/
theorem mem_of_mem_lines {l x : List A} (hx : x ∈ lines ends l) {a : A} (ha : a ∈ x) : a ∈ l := by
  induction l generalizing x with
  | nil => cases hx
  | cons b l ih =>
      unfold lines at hx
      split at hx
      · rcases List.mem_cons.mp hx with rfl | hx
        · exact List.mem_cons.mpr (.inl (List.mem_singleton.mp ha))
        · exact List.mem_cons_of_mem b (ih hx ha)
      · split at hx
        · cases List.mem_singleton.mp hx
          exact List.mem_cons.mpr (.inl (List.mem_singleton.mp ha))
        · next y ys hl =>
            rcases List.mem_cons.mp hx with rfl | hx
            · refine (List.mem_cons.mp ha).elim (fun h => h ▸ List.mem_cons_self) fun ha => ?_
              exact List.mem_cons_of_mem b (ih (hl ▸ List.mem_cons_self) ha)
            · exact List.mem_cons_of_mem b (ih (hl ▸ List.mem_cons_of_mem y hx) ha)

/-- A stream is its closed lines and the open one. -/
theorem exists_open (l : List A) :
    ∃ closed rest, l = closed ++ rest ∧ EndsLine ends closed ∧ ∀ a ∈ rest, ends a = false := by
  induction l using List.reverseRecOn with
  | nil => exact ⟨[], [], rfl, endsLine_nil, fun _ h => absurd h List.not_mem_nil⟩
  | append_singleton l a ih =>
      by_cases ha : ends a = true
      · refine ⟨l ++ [a], [], (List.append_nil _).symm, endsLine_concat ha, fun _ h => ?_⟩
        exact absurd h List.not_mem_nil
      · obtain ⟨closed, rest, rfl, hclosed, hrest⟩ := ih
        refine ⟨closed, rest ++ [a], List.append_assoc _ _ _, hclosed, fun b hb => ?_⟩
        rcases List.mem_append.mp hb with hb | hb
        · exact hrest b hb
        · rw [List.mem_singleton.mp hb]
          exact Bool.eq_false_iff.mpr ha

/-- **Elements that are part of none of the wanted lines add no wanted line**; a wanted line ends
    with an element that ends it. -/
theorem filter_lines_append {wanted : List A → Bool} {l l' : List A}
    (hends : ∀ x, wanted x = true → ∃ a ∈ x, ends a = true)
    (hpart : ∀ x, wanted x = true → ∀ a ∈ l', a ∉ x) :
    (lines ends (l ++ l')).filter wanted = (lines ends l).filter wanted := by
  obtain ⟨closed, rest, rfl, hclosed, hrest⟩ :
      ∃ closed rest, l = closed ++ rest ∧ EndsLine ends closed ∧ ∀ a ∈ rest, ends a = false :=
    exists_open l
  have hopen : ∀ l'', (∀ a ∈ l'', ends a = true → a ∈ l') →
      (lines ends l'').filter wanted = [] := by
    intro l'' hl
    refine List.filter_eq_nil_iff.mpr fun x hx hw => ?_
    obtain ⟨a, ha, hend⟩ := hends x hw
    exact hpart x hw a (hl a (mem_of_mem_lines hx ha) hend) ha
  rw [List.append_assoc, lines_append hclosed, lines_append hclosed, List.filter_append,
    List.filter_append, hopen (rest ++ l'), hopen rest]
  · intro a ha hend
    exact absurd (hrest a ha) (by rw [hend]; exact Bool.noConfusion)
  · intro a ha hend
    refine (List.mem_append.mp ha).resolve_left fun ha => ?_
    exact absurd (hrest a ha) (by rw [hend]; exact Bool.noConfusion)

end Lines

/-
  File:      IronCrab/Lib/Champion.lean
  Subject:   THE CHAMPION OF A LIST. Nothing here names a program.

  A scan keeps the best element it has seen and replaces it only by one of greater rank. What it
  ends with is Mathlib's `List.argmax`, the first element of greatest rank:

  * `pick_assoc` -- keeping the better of two, the left one on a tie, is associative;
  * `argmax_eq_foldl_pick`, `foldl_keep` -- the scan computes `argmax`;
  * `mem_argmax_iff_split` -- everything before the champion ranks lower, nothing after it higher;
  * `argmax_stop` -- a scan may stop at an element that nothing after it outranks;
  * `foldl_offer` -- a scan that starts at a floor.
-/
import Mathlib.Data.List.MinMax

namespace Champion

variable {α β : Type*} [LinearOrder β] (rank : α → β)

/-- The better of two: the left one unless the right one ranks higher. -/
def pick (best cand : α) : α := if rank best < rank cand then cand else best

variable {rank}

theorem pick_of_lt {best cand : α} (h : rank best < rank cand) : pick rank best cand = cand :=
  if_pos h

theorem pick_of_le {best cand : α} (h : rank cand ≤ rank best) : pick rank best cand = best :=
  if_neg (not_lt_of_ge h)

/-- **Keeping the better of two is associative.** -/
theorem pick_assoc (a b c : α) : pick rank (pick rank a b) c = pick rank a (pick rank b c) := by
  rcases lt_or_ge (rank a) (rank b) with hab | hab
  · rw [pick_of_lt hab]
    rcases lt_or_ge (rank b) (rank c) with hbc | hbc
    · rw [pick_of_lt hbc, pick_of_lt (hab.trans hbc)]
    · rw [pick_of_le hbc, pick_of_lt hab]
  · rw [pick_of_le hab]
    rcases lt_or_ge (rank b) (rank c) with hbc | hbc
    · rw [pick_of_lt hbc]
    · rw [pick_of_le hbc, pick_of_le hab, pick_of_le (hbc.trans hab)]

/-- The scan from an element computes the `argmax` of the list that starts with it. -/
theorem argmax_eq_foldl_pick (x : α) (l : List α) :
    List.argmax rank (x :: l) = some (l.foldl (pick rank) x) := by
  induction l using List.reverseRecOn with
  | nil => rfl
  | append_singleton l y ih =>
      rw [← List.cons_append, List.argmax_concat, ih, List.foldl_append]
      show (if rank _ < rank y then some y else some _) = some (pick rank _ y)
      unfold pick
      split <;> rfl

variable (rank) in
/-- A step of a scan that starts with nothing. -/
def keep : Option α → α → Option α
  | none, cand => some cand
  | some best, cand => some (pick rank best cand)

theorem keep_some (best cand : α) : keep rank (some best) cand = some (pick rank best cand) := rfl

theorem foldl_keep_some (x : α) (l : List α) :
    l.foldl (keep rank) (some x) = some (l.foldl (pick rank) x) := by
  induction l generalizing x with
  | nil => rfl
  | cons y l ih => exact ih (pick rank x y)

/-- A scan that starts with nothing computes the `argmax`. -/
theorem foldl_keep (l : List α) : l.foldl (keep rank) none = List.argmax rank l := by
  cases l with
  | nil => rfl
  | cons x l => exact (foldl_keep_some x l).trans (argmax_eq_foldl_pick x l).symm

/-- **Before the champion everything ranks lower, after it nothing ranks higher.** -/
theorem mem_argmax_iff_split {l : List α} {m : α} :
    m ∈ List.argmax rank l ↔ ∃ before after, l = before ++ m :: after ∧
      (∀ y ∈ before, rank y < rank m) ∧ ∀ y ∈ after, rank y ≤ rank m := by
  induction l with
  | nil => simp
  | cons x l ih =>
      rw [List.argmax_cons]
      constructor
      · intro hm
        cases hc : List.argmax rank l with
        | none =>
            rw [hc] at hm
            cases hm
            rw [List.argmax_eq_none.mp hc]
            exact ⟨[], [], rfl, by simp, by simp⟩
        | some c =>
            rw [hc] at hm ih
            by_cases hlt : rank x < rank c
            · have : m = c := by simpa [hlt] using hm.symm
              subst this
              obtain ⟨before, after, rfl, hb, ha⟩ := ih.mp rfl
              refine ⟨x :: before, after, rfl, ?_, ha⟩
              intro y hy
              rcases List.mem_cons.mp hy with rfl | hy
              · exact hlt
              · exact hb y hy
            · have : m = x := by simpa [hlt] using hm.symm
              subst this
              refine ⟨[], l, rfl, by simp, ?_⟩
              intro y hy
              exact (List.le_of_mem_argmax hy hc).trans (not_lt.mp hlt)
      · rintro ⟨before, after, heq, hb, ha⟩
        cases before with
        | nil =>
            obtain ⟨rfl, rfl⟩ := List.cons.inj heq
            cases hc : List.argmax rank l with
            | none => rfl
            | some c =>
                have : ¬ rank x < rank c := not_lt_of_ge (ha c (List.argmax_mem hc))
                simp [this]
        | cons z before =>
            obtain ⟨rfl, rfl⟩ := List.cons.inj heq
            have hm := ih.mpr ⟨before, after, rfl, fun y hy => hb y (List.mem_cons_of_mem _ hy), ha⟩
            have hlt := hb x List.mem_cons_self
            rw [Option.mem_def.mp hm]
            simp [hlt]

/-- The champion of two lists, one after the other, is the better of their champions. -/
theorem argmax_append {l l' : List α} {m m' : α} (hm : m ∈ List.argmax rank l)
    (hm' : m' ∈ List.argmax rank l') : pick rank m m' ∈ List.argmax rank (l ++ l') := by
  obtain ⟨before, after, rfl, hb, ha⟩ := mem_argmax_iff_split.mp hm
  obtain ⟨before', after', rfl, hb', ha'⟩ := mem_argmax_iff_split.mp hm'
  apply mem_argmax_iff_split.mpr
  rcases lt_or_ge (rank m) (rank m') with hlt | hge
  · rw [pick_of_lt hlt]
    refine ⟨before ++ m :: after ++ before', after', by simp, ?_, ha'⟩
    intro y hy
    rcases List.mem_append.mp hy with hy | hy
    · exact (List.le_of_mem_argmax hy hm).trans_lt hlt
    · exact hb' y hy
  · rw [pick_of_le hge]
    refine ⟨before, after ++ (before' ++ m' :: after'), by simp, hb, ?_⟩
    intro y hy
    rcases List.mem_append.mp hy with hy | hy
    · exact ha y hy
    · exact (List.le_of_mem_argmax hy hm').trans hge

/-- **A scan may stop at an element that nothing after it outranks.** -/
theorem argmax_stop (rank : α → β) (before : List α) {after : List α} {x : α}
    (ha : ∀ y ∈ after, rank y ≤ rank x) :
    List.argmax rank (before ++ x :: after) = List.argmax rank (before ++ [x]) := by
  have hne : List.argmax rank (before ++ [x]) ≠ none := by simp
  obtain ⟨m, hm⟩ := Option.ne_none_iff_exists'.mp hne
  rw [hm]
  obtain ⟨b, a, heq, hb, hle⟩ := mem_argmax_iff_split.mp hm
  have hx : rank x ≤ rank m := List.le_of_mem_argmax (by simp) hm
  apply mem_argmax_iff_split.mpr
  refine ⟨b, a ++ after, ?_, hb, ?_⟩
  · calc before ++ x :: after = (before ++ [x]) ++ after := by simp
      _ = b ++ m :: (a ++ after) := by simp [heq]
  · intro y hy
    rcases List.mem_append.mp hy with hy | hy
    · exact hle y hy
    · exact (ha y hy).trans hx

/-- The champion stays the champion of what a filter leaves, when it is left. -/
theorem argmax_filter {p : α → Bool} {l : List α} {m : α} (hm : m ∈ List.argmax rank l)
    (hp : p m = true) : m ∈ List.argmax rank (l.filter p) := by
  obtain ⟨before, after, rfl, hb, ha⟩ := mem_argmax_iff_split.mp hm
  apply mem_argmax_iff_split.mpr
  refine ⟨before.filter p, after.filter p, ?_, ?_, ?_⟩
  · rw [List.filter_append, List.filter_cons_of_pos hp]
  · exact fun y hy => hb y (List.mem_filter.mp hy).1
  · exact fun y hy => ha y (List.mem_filter.mp hy).1

/-! ### A scan that starts at a floor -/

section Floor

variable (rank) in
/-- A step of a scan that remembers the greatest rank, at first the floor. -/
def offer (best : Option α × β) (cand : α) : Option α × β :=
  if best.2 < rank cand then (some cand, rank cand) else best

variable (rank) in
/-- **What a scan from a floor ends with**: nothing where nothing ranks above the floor, otherwise
    an element of greatest rank. -/
theorem foldl_offer (floor : β) (l : List α) :
    (l.foldl (offer rank) (none, floor) = (none, floor) ∧ ∀ a ∈ l, rank a ≤ floor) ∨
      ∃ m ∈ l, l.foldl (offer rank) (none, floor) = (some m, rank m) ∧ floor < rank m ∧
        ∀ a ∈ l, rank a ≤ rank m := by
  induction l using List.reverseRecOn with
  | nil => exact .inl ⟨rfl, fun a ha => absurd ha List.not_mem_nil⟩
  | append_singleton l b ih =>
      rw [List.foldl_append]
      simp only [List.foldl_cons, List.foldl_nil, List.forall_mem_append, List.forall_mem_singleton]
      rcases ih with ⟨heq, hle⟩ | ⟨m, hm, heq, hfloor, hle⟩
      · rw [heq]
        unfold offer
        split
        · next hlt => exact .inr ⟨b, by simp, rfl, hlt, fun a ha => (hle a ha).trans hlt.le, le_rfl⟩
        · next hlt => exact .inl ⟨rfl, hle, not_lt.mp hlt⟩
      · rw [heq]
        unfold offer
        split
        · next hlt =>
            exact .inr ⟨b, by simp, rfl, hfloor.trans hlt, fun a ha => (hle a ha).trans hlt.le,
              le_rfl⟩
        · next hlt => exact .inr ⟨m, by simp [hm], rfl, hfloor, hle, not_lt.mp hlt⟩

end Floor

end Champion

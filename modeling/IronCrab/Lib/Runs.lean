/-
  File:      IronCrab/Lib/Runs.lean
  Subject:   A LIST THAT IS KEPT FROM ITS END, AND ITS RUNS. Nothing here names a program.

  * `rtake_snoc` -- a list that is cut to its last elements whenever one comes is what the whole
    list is cut to;
  * `filter_sublist_rtake` -- what meets a test from some element on is among the last elements;
  * `runs` -- the maximal stretches of elements with one key, as they grow at the end
    (`runs_snoc_cases`);
  * `filter_flatten` -- the elements of a key that only one run has are that run.
-/
import Mathlib.Data.List.DropRight
import Mathlib.Data.List.SplitBy
import Mathlib.Data.List.Flatten

namespace Runs

variable {A K : Type}

/-! ## 1. The last elements -/

theorem rtake_rtake (l : List A) {m n : Nat} (h : n ≤ m) : (l.rtake m).rtake n = l.rtake n := by
  unfold List.rtake
  rw [List.drop_drop, List.length_drop]
  congr 1
  omega

/-- **One more element**, before or after the list is cut. -/
theorem rtake_snoc (l : List A) (a : A) (n : Nat) :
    (l.rtake n ++ [a]).rtake n = (l ++ [a]).rtake n := by
  cases n with
  | zero => rw [List.rtake_zero, List.rtake_zero]
  | succ n => rw [List.rtake_concat_succ, List.rtake_concat_succ,
        rtake_rtake l (Nat.le_succ n)]

theorem rdrop_append_rtake (l : List A) (n : Nat) : l.rdrop n ++ l.rtake n = l :=
  List.take_append_drop _ l

theorem length_rtake {l : List A} {n : Nat} (h : n ≤ l.length) : (l.rtake n).length = n := by
  unfold List.rtake
  rw [List.length_drop]
  omega

theorem rtake_sublist (l : List A) (n : Nat) : (l.rtake n).Sublist l := List.drop_sublist _ l

theorem map_rtake {B : Type} (f : A → B) (l : List A) (n : Nat) :
    (l.map f).rtake n = (l.rtake n).map f := by
  unfold List.rtake
  rw [List.length_map, List.map_drop]

theorem map_rdrop {B : Type} (f : A → B) (l : List A) (n : Nat) :
    (l.map f).rdrop n = (l.rdrop n).map f := by
  unfold List.rdrop
  rw [List.length_map, List.map_take]

/-- Where the test stays true once it is, what meets it is the end of the list. -/
theorem filter_suffix {p : A → Bool} {l : List A} (h : l.Pairwise fun a b => p a → p b) :
    l.filter p <:+ l := by
  induction l with
  | nil => exact List.suffix_rfl
  | cons a l ih =>
      obtain ⟨ha, hl⟩ := List.pairwise_cons.mp h
      by_cases hp : p a = true
      · have hall : (a :: l).filter p = a :: l :=
          List.filter_eq_self.mpr (List.forall_mem_cons.mpr ⟨hp, fun b hb => ha b hb hp⟩)
        exact ⟨[], hall⟩
      · rw [List.filter_cons_of_neg hp]
        exact (ih hl).trans (List.suffix_cons a l)

/-- **And the last elements have all of it**, if it is not more than they are. -/
theorem filter_sublist_rtake {p : A → Bool} {l : List A} {n : Nat}
    (h : l.Pairwise fun a b => p a → p b) (hn : (l.filter p).length ≤ n) :
    (l.filter p).Sublist (l.rtake n) := by
  refine (List.suffix_of_suffix_length_le (filter_suffix h) (List.drop_suffix _ l) ?_).sublist
  have hle := List.length_filter_le p l
  rw [List.length_drop]
  omega

/-! ## 2. Runs -/

section Runs

variable [DecidableEq K] {key : A → K} {l : List A} {a : A}

/-- **The maximal stretches of elements with one key.** -/
def runs (key : A → K) (l : List A) : List (List A) := l.splitBy fun a b => key a = key b

theorem runs_nil : runs key [] = [] := List.splitBy_nil _

theorem flatten_runs (key : A → K) (l : List A) : (runs key l).flatten = l :=
  List.flatten_splitBy _ l

theorem ne_nil_of_mem_runs {run : List A} (h : run ∈ runs key l) : run ≠ [] :=
  List.ne_nil_of_mem_splitBy h

/-- A run has one key. -/
theorem key_eq_of_mem_runs {run : List A} (h : run ∈ runs key l) {b : A} (ha : a ∈ run)
    (hb : b ∈ run) : key a = key b := by
  have hchain : run.IsChain fun x y => key x = key y := by
    refine (List.isChain_of_mem_splitBy h).imp fun x y hxy => ?_
    exact of_decide_eq_true hxy
  have htrans : IsTrans A fun x y => key x = key y := ⟨fun _ _ _ hxy hyz => hxy.trans hyz⟩
  have hsymm : Std.Symm fun x y : A => key x = key y := ⟨fun _ _ hxy => hxy.symm⟩
  have hall := List.Pairwise.forall_of_forall (R := fun x y : A => key x = key y)
    (fun _ _ => rfl) hchain.pairwise
  exact hall ha hb

/-- An element with another key than the last starts a run. -/
theorem runs_snoc_new (h : ∀ x ∈ l.getLast?, key x ≠ key a) :
    runs key (l ++ [a]) = runs key l ++ [[a]] :=
  List.splitBy_append_cons [] fun x hx => decide_eq_false (h x hx)

/-- An element with the key of the last one joins its run. -/
theorem runs_snoc_same {before : List (List A)} {run : List A}
    (hruns : runs key l = before ++ [run]) (h : ∀ x ∈ run, key x = key a) :
    runs key (l ++ [a]) = before ++ [run ++ [a]] := by
  obtain ⟨hflat, hnil, hin, hbetween⟩ := List.splitBy_eq_iff.mp hruns
  refine List.splitBy_eq_iff.mpr ⟨?flat, ?nil, ?within, ?between⟩
  case flat =>
    rw [hflat]
    simp
  case nil =>
    simp only [List.mem_append, List.mem_singleton, not_or] at hnil ⊢
    exact ⟨hnil.1, by simp⟩
  case within =>
    intro m hm
    rcases List.mem_append.mp hm with hm | hm
    · exact hin m (List.mem_append_left _ hm)
    · rw [List.mem_singleton.mp hm]
      refine List.isChain_append.mpr ⟨hin run (by simp), List.isChain_singleton _, ?_⟩
      intro x hx y hy
      rw [List.head?_cons, Option.mem_some_iff] at hy
      exact decide_eq_true ((h x (List.mem_of_mem_getLast? hx)).trans (hy ▸ rfl))
  case between =>
    obtain ⟨hb, _, hjoin⟩ := List.isChain_append.mp hbetween
    refine List.isChain_append.mpr ⟨hb, List.isChain_singleton _, ?_⟩
    intro x hx y hy
    rw [List.head?_cons, Option.mem_some_iff] at hy
    obtain ⟨hx0, hrun0, hkey⟩ := hjoin x hx run rfl
    subst hy
    refine ⟨hx0, by simp, ?_⟩
    rw [List.head_append_of_ne_nil hrun0]
    exact hkey

/-- **How the runs grow**: a new element joins the last run, which has its key, or starts one after
    a run of another key. -/
theorem runs_snoc_cases (key : A → K) (l : List A) (a : A) :
    (∃ before run, runs key l = before ++ [run] ∧ (∀ x ∈ run, key x = key a) ∧
      runs key (l ++ [a]) = before ++ [run ++ [a]]) ∨
    (runs key (l ++ [a]) = runs key l ++ [[a]] ∧
      ∀ before run, runs key l = before ++ [run] → ∀ x ∈ run, key x ≠ key a) := by
  rcases List.eq_nil_or_concat l with hnil | ⟨init, last, hl⟩
  · refine .inr ⟨runs_snoc_new (by simp [hnil]), fun before run hruns => ?_⟩
    rw [hnil, runs_nil] at hruns
    simp at hruns
  rw [List.concat_eq_append] at hl
  -- the last element of the list is in the last run
  have hin : ∀ before run, runs key l = before ++ [run] → run ∈ runs key l ∧ last ∈ run := by
    intro before run hruns
    have hrun : run ∈ runs key l := by rw [hruns]; simp
    have hflat : before.flatten ++ run = init ++ [last] := by
      rw [← hl, ← flatten_runs key l, hruns]
      simp
    refine ⟨hrun, List.mem_of_mem_getLast? ?_⟩
    rw [← List.getLast?_append_of_ne_nil before.flatten (ne_nil_of_mem_runs hrun), hflat,
      List.getLast?_concat]
    rfl
  by_cases hkey : key last = key a
  · have hne : runs key l ≠ [] := List.splitBy_ne_nil.mpr (by simp [hl])
    obtain ⟨before, run, hruns⟩ := (List.eq_nil_or_concat (runs key l)).resolve_left hne
    rw [List.concat_eq_append] at hruns
    obtain ⟨hrun, hlast⟩ := hin before run hruns
    have hsame : ∀ x ∈ run, key x = key a := fun x hx =>
      (key_eq_of_mem_runs hrun hx hlast).trans hkey
    exact .inl ⟨before, run, hruns, hsame, runs_snoc_same hruns hsame⟩
  · refine .inr ⟨runs_snoc_new ?_, fun before run hruns x hx heq => hkey ?_⟩
    · simpa [hl] using hkey
    · obtain ⟨hrun, hlast⟩ := hin before run hruns
      exact (key_eq_of_mem_runs hrun hlast hx).trans heq

/-- The elements of a key that no other run has. -/
theorem filter_flatten {before after : List (List A)} {run : List A} {k : K}
    (hrun : ∀ x ∈ run, key x = k) (hbefore : ∀ m ∈ before, ∀ x ∈ m, key x ≠ k)
    (hafter : ∀ m ∈ after, ∀ x ∈ m, key x ≠ k) :
    ((before ++ run :: after).flatten.filter fun x => key x = k) = run := by
  have hnone : ∀ runs : List (List A), (∀ m ∈ runs, ∀ x ∈ m, key x ≠ k) →
      (runs.flatten.filter fun x => key x = k) = [] := by
    intro runs hne
    refine List.filter_eq_nil_iff.mpr fun x hx => ?_
    obtain ⟨m, hm, hmem⟩ := List.mem_flatten.mp hx
    simpa using hne m hm x hmem
  rw [List.flatten_append, List.flatten_cons, List.filter_append, List.filter_append,
    hnone before hbefore, hnone after hafter, List.nil_append, List.append_nil]
  exact List.filter_eq_self.mpr fun x hx => decide_eq_true (hrun x hx)

end Runs

end Runs

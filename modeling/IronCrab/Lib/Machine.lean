/-
  File:      IronCrab/Lib/Machine.lean
  Subject:   LABELLED MACHINES, THEIR RUNS, AND INTERLEAVINGS. Nothing here names a program.

  A machine is a relation `step : S → L → S → Prop`. A run is a list of labels; `Run` keeps the
  newest label at the end, so that "what was true before the last step" is the run without its
  last label. What a step preserves, a run preserves: `Run.invariant` (over the state and the
  trace so far) is the only induction over runs the development needs.

  `Merge xs ys zs` says that `zs` is an interleaving of two threads' step lists. `foldSteps`
  executes a list of deterministic steps; `Merge` with a list of steps on each side and
  `foldSteps` over the merged list is "any interleaving of two threads".
-/
import Mathlib.Data.List.Basic

namespace Machine

/-! ## 1. Runs -/

section Runs

variable {S L : Type} (step : S → L → S → Prop)

/-- A run of the machine from `s₀` with the given trace (oldest label first). -/
inductive Run (s₀ : S) : List L → S → Prop where
  | start : Run s₀ [] s₀
  | snoc (tr : List L) (s s' : S) (l : L) (h : Run s₀ tr s) (hs : step s l s') :
      Run s₀ (tr ++ [l]) s'

variable {step}

/-- **What holds at the start and is kept by every step holds along every run**; the property
    may speak about the trace so far. -/
theorem Run.invariant {s₀ : S} {I : List L → S → Prop} (h0 : I [] s₀)
    (hstep : ∀ tr s l s', Run step s₀ tr s → I tr s → step s l s' → I (tr ++ [l]) s')
    {tr : List L} {s : S} (hr : Run step s₀ tr s) : I tr s := by
  induction hr with
  | start => exact h0
  | snoc tr s s' l hr' hs ih => exact hstep tr s l s' hr' ih hs

/-- A run that is followed by a run is a run. -/
theorem Run.append {s₀ s₁ s₂ : S} {tr₁ tr₂ : List L} (h₁ : Run step s₀ tr₁ s₁)
    (h₂ : Run step s₁ tr₂ s₂) : Run step s₀ (tr₁ ++ tr₂) s₂ := by
  induction h₂ with
  | start => simpa using h₁
  | snoc tr s s' l _ hs ih =>
      rw [← List.append_assoc]
      exact .snoc _ _ _ _ ih hs

/-- One step as a run. -/
theorem Run.single {s s' : S} {l : L} (hs : step s l s') : Run step s [l] s' :=
  .snoc [] s s' l .start hs

/-- A run with a first step in front. -/
theorem Run.cons {s s' s'' : S} {l : L} {tr : List L} (hs : step s l s')
    (h : Run step s' tr s'') : Run step s (l :: tr) s'' :=
  (Run.single hs).append h

end Runs

/-- **The steps that meet a condition on the state before them.** -/
def Guarded {S L : Type} (step : S → L → S → Prop) (good : S → L → Prop) : S → L → S → Prop :=
  fun s l s' => step s l s' ∧ good s l

/-! ## 2. Interleavings of two threads -/

/-- `Merge xs ys zs`: `zs` interleaves `xs` and `ys`, each in its own order. -/
inductive Merge {A : Type} : List A → List A → List A → Prop where
  | nil : Merge [] [] []
  | left (x : A) {xs ys zs : List A} (h : Merge xs ys zs) : Merge (x :: xs) ys (x :: zs)
  | right (y : A) {xs ys zs : List A} (h : Merge xs ys zs) : Merge xs (y :: ys) (y :: zs)

/-- With nothing left on the left, the interleaving is the right thread. -/
theorem Merge.eq_right {A : Type} {ys zs : List A} (h : Merge [] ys zs) : zs = ys := by
  generalize hx : ([] : List A) = xs at h
  induction h with
  | nil => rfl
  | left x _ _ => cases hx
  | right y _ ih => rw [ih hx]

/-- Where the left thread's next step stands in an interleaving. -/
theorem Merge.split_left {A : Type} {x : A} {xs ys zs : List A} (h : Merge (x :: xs) ys zs) :
    ∃ ys₁ ys₂ zs', ys = ys₁ ++ ys₂ ∧ zs = ys₁ ++ x :: zs' ∧ Merge xs ys₂ zs' := by
  generalize hx : x :: xs = l at h
  induction h with
  | nil => cases hx
  | left x' h' _ =>
      cases hx
      exact ⟨[], _, _, rfl, rfl, h'⟩
  | right y _ ih =>
      obtain ⟨ys₁, ys₂, zs', hys, hzs, hm⟩ := ih hx
      exact ⟨y :: ys₁, ys₂, zs', by rw [hys]; rfl, by rw [hzs]; rfl, hm⟩

/-- Executing a list of deterministic steps. -/
def foldSteps {S A : Type} (run : S → A → S) (s : S) (l : List A) : S := l.foldl run s

@[simp] theorem foldSteps_nil {S A : Type} (run : S → A → S) (s : S) :
    foldSteps run s [] = s := rfl

@[simp] theorem foldSteps_cons {S A : Type} (run : S → A → S) (s : S) (a : A) (l : List A) :
    foldSteps run s (a :: l) = foldSteps run (run s a) l := rfl

@[simp] theorem foldSteps_append {S A : Type} (run : S → A → S) (s : S) (l l' : List A) :
    foldSteps run s (l ++ l') = foldSteps run (foldSteps run s l) l' :=
  List.foldl_append

/-- **What every step keeps, executing a list of steps keeps.** -/
theorem foldSteps_invariant {S A : Type} {run : S → A → S} {I : S → Prop}
    (hstep : ∀ s a, I s → I (run s a)) {s : S} (h : I s) (l : List A) : I (foldSteps run s l) := by
  induction l generalizing s with
  | nil => exact h
  | cons a l ih => exact ih (hstep s a h)

/-- Every step of the list meets the condition in the state it is executed in. -/
def Along {S A : Type} (run : S → A → S) (good : S → A → Prop) : S → List A → Prop
  | _, [] => True
  | s, a :: l => good s a ∧ Along run good (run s a) l

instance Along.decidable {S A : Type} (run : S → A → S) (good : S → A → Prop)
    [h : ∀ s a, Decidable (good s a)] : ∀ s l, Decidable (Along run good s l)
  | _, [] => .isTrue trivial
  | s, a :: l => @instDecidableAnd _ _ (h s a) (Along.decidable run good (run s a) l)

/-- Some step of the list meets the condition in the state it is executed in. -/
def Sometime {S A : Type} (run : S → A → S) (hit : S → A → Prop) : S → List A → Prop
  | _, [] => False
  | s, a :: l => hit s a ∨ Sometime run hit (run s a) l

/-- **An invariant that remembers whether some step has hit**: what it says about the end of the
    list it says with `Sometime`. -/
theorem sometime_invariant {S A : Type} {run : S → A → S} {good hit : S → A → Prop}
    {I : Prop → S → Prop}
    (hstep : ∀ c s a, good s a → I c s → I (c ∨ hit s a) (run s a)) {s : S} {l : List A}
    (hgood : Along run good s l) {c : Prop} (h : I c s) :
    I (c ∨ Sometime run hit s l) (foldSteps run s l) := by
  induction l generalizing s c with
  | nil =>
      have hc : (c ∨ False) = c := propext (or_iff_left id)
      show I (c ∨ False) s
      rw [hc]
      exact h
  | cons a l ih =>
      obtain ⟨ha, hl⟩ := hgood
      have hrest := ih hl (hstep c s a ha h)
      have hassoc : ((c ∨ hit s a) ∨ Sometime run hit (run s a) l) =
          (c ∨ Sometime run hit s (a :: l)) := propext or_assoc
      rw [hassoc] at hrest
      exact hrest

/-- A condition that every step meets. -/
theorem along_of_forall {S A : Type} {run : S → A → S} {good : S → A → Prop}
    (h : ∀ s a, good s a) (s : S) (l : List A) : Along run good s l := by
  induction l generalizing s with
  | nil => exact trivial
  | cons a l ih => exact ⟨h s a, ih _⟩

theorem along_mono {S A : Type} {run : S → A → S} {good good' : S → A → Prop}
    (himp : ∀ s a, good s a → good' s a) {s : S} {l : List A} (h : Along run good s l) :
    Along run good' s l := by
  induction l generalizing s with
  | nil => exact trivial
  | cons a l ih => exact ⟨himp s a h.1, ih h.2⟩

/-- An invariant of the good steps holds at every step of a good run. -/
theorem along_invariant {S A : Type} {run : S → A → S} {good : S → A → Prop} {I : S → Prop}
    (hstep : ∀ s a, good s a → I s → I (run s a)) {s : S} (h : I s) {l : List A}
    (hgood : Along run good s l) : Along run (fun s a => I s ∧ good s a) s l := by
  induction l generalizing s with
  | nil => exact trivial
  | cons a l ih => exact ⟨⟨h, hgood.1⟩, ih (hstep s a hgood.1 h) hgood.2⟩

/-- **What every good step keeps, a list of good steps keeps.** -/
theorem foldSteps_of_along {S A : Type} {run : S → A → S} {good : S → A → Prop} {I : S → Prop}
    (hstep : ∀ s a, good s a → I s → I (run s a)) {s : S} (h : I s) {l : List A}
    (hgood : Along run good s l) : I (foldSteps run s l) := by
  induction l generalizing s with
  | nil => exact h
  | cons a l ih => exact ih (hstep s a hgood.1 h) hgood.2

theorem along_append {S A : Type} {run : S → A → S} {good : S → A → Prop} {s : S}
    {l l' : List A} (h : Along run good s (l ++ l')) :
    Along run good s l ∧ Along run good (foldSteps run s l) l' := by
  induction l generalizing s with
  | nil => exact ⟨trivial, h⟩
  | cons a l ih =>
      obtain ⟨ha, hrest⟩ := h
      obtain ⟨hl, hl'⟩ := ih hrest
      exact ⟨⟨ha, hl⟩, hl'⟩

theorem along_append_intro {S A : Type} {run : S → A → S} {good : S → A → Prop} {s : S}
    {l l' : List A} (h : Along run good s l) (h' : Along run good (foldSteps run s l) l') :
    Along run good s (l ++ l') := by
  induction l generalizing s with
  | nil => exact h'
  | cons a l ih => exact ⟨h.1, ih h.2 h'⟩

/-- **Where a good step keeps the invariant and any other step breaks the property, the runs of
    good steps are those that have the property all along.** -/
theorem along_iff_all_before {S A : Type} {run : S → A → S} {good : S → A → Prop} {I ok : S → Prop}
    (hok : ∀ s, I s → ok s) (hkeep : ∀ s a, good s a → I s → I (run s a))
    (hbreak : ∀ s a, I s → ok (run s a) → good s a) {s : S} (h : I s) {l : List A} :
    Along run good s l ↔ ∀ before after, l = before ++ after → ok (foldSteps run s before) := by
  constructor
  · rintro hgood before after rfl
    exact hok _ (foldSteps_of_along hkeep h (along_append hgood).1)
  · induction l generalizing s with
    | nil => exact fun _ => trivial
    | cons a l ih =>
        intro hall
        have hgood : good s a := hbreak s a h (hall [a] l rfl)
        refine ⟨hgood, ih (hkeep s a hgood h) fun before after heq => ?_⟩
        exact hall (a :: before) after (congrArg (a :: ·) heq)

/-- The two parts of a cut through two steps. -/
theorem cut_two {A : Type} {x y : A} {a b : List A} (h : [x, y] = a ++ b) (ha : a ≠ [])
    (hb : b ≠ []) : a = [x] ∧ b = [y] := by
  cases a with
  | nil => exact absurd rfl ha
  | cons x' a =>
      obtain ⟨rfl, h'⟩ := List.cons.inj h
      cases a with
      | nil => exact ⟨rfl, h'.symm⟩
      | cons y' a =>
          have hnil := (List.cons.inj h').2
          exact absurd (List.append_eq_nil_iff.mp hnil.symm).2 hb

/-- The two parts of a cut through three steps. -/
theorem cut_three {A : Type} {x y z : A} {a b : List A} (h : [x, y, z] = a ++ b) (ha : a ≠ [])
    (hb : b ≠ []) : (a = [x] ∧ b = [y, z]) ∨ (a = [x, y] ∧ b = [z]) := by
  cases a with
  | nil => exact absurd rfl ha
  | cons x' a =>
      obtain ⟨rfl, h'⟩ := List.cons.inj h
      by_cases ha' : a = []
      · subst ha'
        exact .inl ⟨rfl, h'.symm⟩
      · obtain ⟨rfl, rfl⟩ := cut_two h' ha' hb
        exact .inr ⟨rfl, rfl⟩

/-- A cut through the steps of a list of operations falls between two operations or inside
    one. -/
theorem flatMap_cut {O A : Type} {steps : O → List A} {ops : List O} {l l' : List A}
    (h : ops.flatMap steps = l ++ l') :
    ∃ ops₁ ops₂, ops = ops₁ ++ ops₂ ∧
      ((l = ops₁.flatMap steps ∧ l' = ops₂.flatMap steps) ∨
        ∃ op rest a b, ops₂ = op :: rest ∧ steps op = a ++ b ∧ a ≠ [] ∧ b ≠ [] ∧
          l = ops₁.flatMap steps ++ a ∧ l' = b ++ rest.flatMap steps) := by
  induction ops generalizing l with
  | nil =>
      obtain ⟨rfl, rfl⟩ := List.append_eq_nil_iff.mp h.symm
      exact ⟨[], [], rfl, .inl ⟨rfl, rfl⟩⟩
  | cons op rest ih =>
      rw [List.flatMap_cons] at h
      rcases List.append_eq_append_iff.mp h with ⟨d, hl, hd⟩ | ⟨d, hs, hl'⟩
      · obtain ⟨ops₁, ops₂, hops, hcut⟩ := ih hd
        refine ⟨op :: ops₁, ops₂, by rw [hops]; rfl, ?_⟩
        rcases hcut with ⟨hd', hl'⟩ | ⟨o, r, a, b, ho, hab, ha, hb, hd', hl'⟩
        · exact .inl ⟨by rw [hl, hd']; rfl, hl'⟩
        · exact .inr ⟨o, r, a, b, ho, hab, ha, hb,
            by rw [hl, hd', List.flatMap_cons, List.append_assoc], hl'⟩
      · by_cases hl0 : l = []
        · refine ⟨[], op :: rest, rfl, .inl ⟨hl0, ?_⟩⟩
          rw [hl0, List.nil_append] at hs
          rw [hl', ← hs, List.flatMap_cons]
        by_cases hd0 : d = []
        · refine ⟨[op], rest, rfl, .inl ⟨?_, ?_⟩⟩
          · rw [hd0, List.append_nil] at hs
            rw [← hs]
            exact (List.append_nil _).symm
          · rw [hl', hd0]
            rfl
        · exact ⟨[], op :: rest, rfl, .inr ⟨op, rest, l, d, rfl, hs, hl0, hd0, rfl, hl'⟩⟩

/-- Executing steps one after another is a run. -/
theorem Run.ofFold {S L : Type} {step : S → L → S → Prop} {f : S → L → S}
    (h : ∀ s l, step s l (f s l)) (tr : List L) (s : S) : Run step s tr (foldSteps f s tr) := by
  induction tr generalizing s with
  | nil => exact .start
  | cons l tr ih => exact Run.cons (h s l) (ih (f s l))

end Machine

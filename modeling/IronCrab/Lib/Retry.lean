/-
  File:      IronCrab/Lib/Retry.lean
  Subject:   LOOPS THAT START AGAIN. A body either ends the loop with a result or names a cause and
             starts again from another state. Nothing here names a program.

  * `loop` -- the loop on fuel, with the log of its causes;
  * `Ran` -- the same as a relation, without fuel;
  * `exists_ran_of_measure`, `Ran.rounds_le` -- a measure that every cause uses up ends the loop and
    bounds its rounds; `Ran.loop_eq` -- any fuel that covers them gives the one outcome;
  * `Ran.countP_le`, `Ran.takes`, `Ran.history`, `Ran.last_turn` -- what one turn pays, takes and
    keeps, over the whole loop;
  * `Stage` -- a turn in stages that may end it early; `Stage.Keeps.bind` is the rule for two.
-/
import Mathlib.Data.List.Basic

namespace Retry

variable {C S R B : Type}

/-- How one turn of the body ends. -/
inductive Turn (C S R : Type) where
  | again (cause : C) (s : S)
  | done (result : R)

/-- **What a loop did**: the causes with the states they led to, and the state and the result of
    the last turn. -/
structure Outcome (C S R : Type) where
  log : List (C × S)
  last : S
  result : R

/-- The turns of a loop. -/
def Outcome.rounds (o : Outcome C S R) : Nat := o.log.length + 1

/-- The causes of a loop, in order. -/
def Outcome.causes (o : Outcome C S R) : List C := o.log.map Prod.fst

/-- The loop from round `k`, for at most so many turns. -/
def loop (body : Nat → S → Turn C S R) : Nat → Nat → S → Option (Outcome C S R)
  | 0, _, _ => none
  | fuel + 1, k, s =>
      match body k s with
      | .done result => some ⟨[], s, result⟩
      | .again cause s' =>
          (loop body fuel (k + 1) s').map fun o => { o with log := (cause, s') :: o.log }

/-- The loop from round `k` runs from `s` to an outcome. -/
inductive Ran (body : Nat → S → Turn C S R) : Nat → S → Outcome C S R → Prop
  | done {k : Nat} {s : S} {result : R} (turn : body k s = .done result) :
      Ran body k s ⟨[], s, result⟩
  | again {k : Nat} {s s' : S} {cause : C} {o : Outcome C S R}
      (turn : body k s = .again cause s') (rest : Ran body (k + 1) s' o) :
      Ran body k s { o with log := (cause, s') :: o.log }

variable {body : Nat → S → Turn C S R}

/-! ## 1. Fuel -/

/-- What the loop gives on fuel is a run. -/
theorem ran_of_loop {fuel k : Nat} {s : S} {o : Outcome C S R}
    (h : loop body fuel k s = some o) : Ran body k s o := by
  induction fuel generalizing k s o with
  | zero => cases h
  | succ fuel ih =>
      rw [loop] at h
      cases hturn : body k s with
      | done result =>
          rw [hturn] at h
          cases h
          exact .done hturn
      | again cause s' =>
          rw [hturn] at h
          obtain ⟨rest, hrest, rfl⟩ := Option.map_eq_some_iff.mp h
          exact .again hturn (ih hrest)

/-- A run is what the loop gives on any fuel that covers its rounds. -/
theorem Ran.loop_eq {k : Nat} {s : S} {o : Outcome C S R} (h : Ran body k s o) {fuel : Nat}
    (hfuel : o.rounds ≤ fuel) : loop body fuel k s = some o := by
  induction h generalizing fuel with
  | done turn =>
      obtain ⟨fuel, rfl⟩ : ∃ n, fuel = n + 1 := ⟨fuel - 1, by simp [Outcome.rounds] at hfuel; omega⟩
      rw [loop, turn]
  | again turn rest ih =>
      obtain ⟨fuel, rfl⟩ : ∃ n, fuel = n + 1 := ⟨fuel - 1, by simp [Outcome.rounds] at hfuel; omega⟩
      rw [loop, turn]
      dsimp only
      rw [ih (by simp [Outcome.rounds] at hfuel ⊢; omega)]
      rfl

/-- A loop has one outcome. -/
theorem Ran.unique {k : Nat} {s : S} {o o' : Outcome C S R} (h : Ran body k s o)
    (h' : Ran body k s o') : o = o' := by
  have left := h.loop_eq (Nat.le_max_left o.rounds o'.rounds)
  have right := h'.loop_eq (Nat.le_max_right o.rounds o'.rounds)
  rw [left] at right
  exact Option.some.inj right

/-! ## 2. What a turn does, over the loop -/

/-- **A loop ends within a measure that every cause uses up.** -/
theorem exists_ran_of_measure (measure : S → Nat)
    (h : ∀ k s cause s', body k s = .again cause s' → measure s' < measure s) (k : Nat) (s : S) :
    ∃ o, Ran body k s o := by
  induction hm : measure s using Nat.strongRecOn generalizing k s with
  | ind m ih =>
      cases hturn : body k s with
      | done result => exact ⟨_, .done hturn⟩
      | again cause s' =>
          obtain ⟨o, ho⟩ := ih (measure s') (hm ▸ h k s cause s' hturn) (k + 1) s' rfl
          exact ⟨_, .again hturn ho⟩

/-- **What some causes pay for out of a store is bounded by the store.** -/
theorem Ran.countP_le (p : C → Bool) (store : S → Nat)
    (h : ∀ k s cause s', body k s = .again cause s' →
      store s' + (if p cause then 1 else 0) ≤ store s)
    {k : Nat} {s : S} {o : Outcome C S R} (run : Ran body k s o) :
    o.causes.countP p + store o.last ≤ store s := by
  induction run with
  | done _ => simp [Outcome.causes]
  | again turn _ ih =>
      have pays := h _ _ _ _ turn
      simp only [Outcome.causes, List.map_cons, List.countP_cons] at ih pays ⊢
      omega

/-- Rounds under a measure. -/
theorem Ran.rounds_le (measure : S → Nat)
    (h : ∀ k s cause s', body k s = .again cause s' → measure s' < measure s)
    {k : Nat} {s : S} {o : Outcome C S R} (run : Ran body k s o) : o.rounds ≤ 1 + measure s := by
  have hcount := run.countP_le (fun _ => true) measure
    (fun k s cause s' turn => h k s cause s' turn)
  simp only [Outcome.causes, List.countP_true, List.length_map] at hcount
  unfold Outcome.rounds
  omega

/-- **What the causes take off the front of a list, in order, was its front.** -/
theorem Ran.takes (taken : C → List B) (store : S → List B)
    (h : ∀ k s cause s', body k s = .again cause s' → store s = taken cause ++ store s')
    {k : Nat} {s : S} {o : Outcome C S R} (run : Ran body k s o) :
    store s = o.causes.flatMap taken ++ store o.last := by
  induction run with
  | done _ => rfl
  | again turn _ ih =>
      rw [h _ _ _ _ turn, ih]
      simp [Outcome.causes]

/-- **What every turn keeps of the causes so far and the state** holds after each cause of the log,
    and at the end. -/
theorem Ran.history (I : List C → S → Prop)
    (h : ∀ k past s cause s', I past s → body k s = .again cause s' → I (past ++ [cause]) s')
    {k : Nat} {s : S} {o : Outcome C S R} (run : Ran body k s o) {past : List C} (hs : I past s) :
    I (past ++ o.causes) o.last ∧
      ∀ before entry after, o.log = before ++ entry :: after →
        I (past ++ (before ++ [entry]).map Prod.fst) entry.2 := by
  induction run generalizing past with
  | done _ =>
      refine ⟨by simpa [Outcome.causes] using hs, fun before entry after hlog => ?_⟩
      simp at hlog
  | @again k s s' cause o turn _ ih =>
      have hs' : I (past ++ [cause]) s' := h _ _ _ _ _ hs turn
      obtain ⟨hlast, hlog⟩ := ih hs'
      refine ⟨by simpa [Outcome.causes] using hlast, fun before entry after hsplit => ?_⟩
      cases before with
      | nil =>
          obtain ⟨rfl, -⟩ := List.cons.inj hsplit
          exact hs'
      | cons head before =>
          obtain ⟨rfl, hrest⟩ := List.cons.inj hsplit
          have hentry := hlog before entry after hrest
          simpa using hentry

/-- The result is the one of the last turn, in the last state. -/
theorem Ran.last_turn {k : Nat} {s : S} {o : Outcome C S R} (run : Ran body k s o) :
    body (k + o.log.length) o.last = .done o.result := by
  induction run with
  | done turn => exact turn
  | again _ _ ih =>
      rw [List.length_cons, ← ih]
      congr 1
      omega

/-! ## 3. Turns in stages -/

/-- A stage of a turn: a value for the next stage, or the end of the turn. -/
abbrev Stage (C S R A : Type) := Except (Turn C S R) A

namespace Stage

variable {A A' : Type}

/-- The turn ends, and the loop starts again. -/
def again (cause : C) (s : S) : Stage C S R A := .error (.again cause s)

/-- The turn ends, and the loop with it. -/
def done (result : R) : Stage C S R A := .error (.done result)

/-- The turn of a last stage, whose value is the result. -/
def turn : Stage C S R R → Turn C S R
  | .ok result => .done result
  | .error t => t

/-- **What a stage keeps to**: `P` holds of its value, `Q` of the end of the turn. -/
def Keeps (x : Stage C S R A) (P : A → Prop) (Q : Turn C S R → Prop) : Prop :=
  match x with
  | .ok a => P a
  | .error t => Q t

variable {P : A → Prop} {P' : A' → Prop} {Q : Turn C S R → Prop}

theorem keeps_ok {a : A} : Keeps (.ok a) P Q ↔ P a := Iff.rfl

theorem keeps_pure {a : A} : Keeps (pure a) P Q ↔ P a := Iff.rfl

theorem keeps_done {result : R} : Keeps (done result : Stage C S R A) P Q ↔ Q (.done result) :=
  Iff.rfl

/-- What holds after two stages. -/
theorem Keeps.bind {x : Stage C S R A} {f : A → Stage C S R A'} (hx : Keeps x P Q)
    (hf : ∀ a, P a → Keeps (f a) P' Q) : Keeps (x >>= f) P' Q := by
  cases x with
  | ok a => exact hf a hx
  | error t => exact hx

theorem Keeps.mono {x : Stage C S R A} {P₂ : A → Prop} {Q₂ : Turn C S R → Prop} (hx : Keeps x P Q)
    (hP : ∀ a, P a → P₂ a) (hQ : ∀ t, Q t → Q₂ t) : Keeps x P₂ Q₂ := by
  cases x with
  | ok a => exact hP a hx
  | error t => exact hQ t hx

theorem Keeps.turn {x : Stage C S R R} (h : Keeps x (fun result => Q (.done result)) Q) :
    Q x.turn := by
  cases x with
  | ok result => exact h
  | error t => exact h

end Stage

end Retry

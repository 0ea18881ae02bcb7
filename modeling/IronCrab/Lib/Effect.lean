/-
  File:      IronCrab/Lib/Effect.lean
  Subject:   PROGRAMS WITH ACTIONS, PROTOCOLS THEY FOLLOW, AND SYSTEMS OF TASKS. Nothing here
             names a program.

  A task of a concurrent system is a `Prog`: it returns, or it performs one action and goes on
  with the answer. What actions do to the shared state, and what the outside world answers, is
  the `Setting`; a `Sys` is the shared state, the tasks and the log of what was done. One step is
  a new task, one action of one task, or a step of the environment, in any order.

  A `Protocol` is an automaton over actions and answers. A program that `Follows` it performs, in
  each stage, only what the stage allows. So a claim about all interleavings of a long program
  needs the program once:

  * `Follows.bind`, `Follows.mono` -- the rules for taking a program apart;
  * `conforms_step` -- tasks that start out following the protocol go on following it;
  * **`Setting.invariant`** -- an invariant of a run is what new tasks, the environment and each
    ALLOWED action keep; the program's text no longer appears.
-/
import IronCrab.Lib.Machine

namespace Effect

open Machine (foldSteps Along)

/-! ## 1. Programs -/

/-- A program with actions `A`, answers `R` and results `α`. -/
inductive Prog (A : Type) (R : A → Type) (α : Type) : Type where
  | ret (x : α)
  | act (a : A) (k : R a → Prog A R α)

namespace Prog

variable {A : Type} {R : A → Type} {α β : Type}

/-- One program after another. -/
def bind : Prog A R α → (α → Prog A R β) → Prog A R β
  | ret x, f => f x
  | act a k, f => act a fun r => (k r).bind f

/-- The program has returned. -/
def returned : Prog A R α → Option α
  | ret x => some x
  | act _ _ => none

end Prog

/-! ## 2. Protocols -/

/-- An automaton over actions and answers: what each stage allows, and where an answer leads. -/
structure Protocol (A : Type) (R : A → Type) (G : Type) where
  allows : G → A → Prop
  next : G → (a : A) → R a → G

section Follows

variable {A : Type} {R : A → Type} {G α β : Type} {P : Protocol A R G}

/-- From stage `g` the program performs only what the protocol allows, whatever the answers are,
    and returns only where `post` holds. -/
def Follows (P : Protocol A R G) (post : G → α → Prop) : G → Prog A R α → Prop
  | g, .ret x => post g x
  | g, .act a k => P.allows g a ∧ ∀ r, Follows P post (P.next g a r) (k r)

/-- **The rule for sequences.** -/
theorem Follows.bind {mid : G → α → Prop} {post : G → β → Prop} {g : G} {p : Prog A R α}
    {f : α → Prog A R β} (h : Follows P mid g p)
    (hf : ∀ g' x, mid g' x → Follows P post g' (f x)) : Follows P post g (p.bind f) := by
  induction p generalizing g with
  | ret x => exact hf g x h
  | act a k ih => exact ⟨h.1, fun r => ih r (h.2 r)⟩

end Follows

/-! ## 3. Systems -/

/-- What the tasks run, which protocol they are watched with, what an action does to the shared
    state `C` given the world's answers `W`, and what the environment does by itself. Tasks are
    started for arguments in `N`. -/
structure Setting (N A : Type) (R : A → Type) (α G C W E : Type) where
  start : N → Prog A R α
  protocol : N → Protocol A R G
  init : N → G
  perform : C → W → (a : A) → C × R a
  env : C → E → C

/-- A task, with its argument and the stage its protocol is in. -/
structure Task (N A : Type) (R : A → Type) (α G : Type) where
  arg : N
  prog : Prog A R α
  stage : G

/-- One performed action. -/
structure Event (A : Type) (R : A → Type) (W : Type) where
  task : Nat
  world : W
  action : A
  answer : R action

structure Sys (N A : Type) (R : A → Type) (α G C W : Type) where
  ctx : C
  tasks : List (Task N A R α G)
  /-- What the tasks have done, oldest first. -/
  log : List (Event A R W)

inductive Label (N W E : Type) where
  | spawn (n : N)
  | run (t : Nat) (w : W)
  | env (e : E)

section Systems

variable {N A : Type} {R : A → Type} {α G C W E : Type}

namespace Setting

variable (M : Setting N A R α G C W E)

/-- The system after task `t`, which stands at `act a k`, has performed `a`. -/
def acted (s : Sys N A R α G C W) (t : Nat) (w : W) (n : N) (g : G) (a : A)
    (k : R a → Prog A R α) : Sys N A R α G C W where
  ctx := (M.perform s.ctx w a).1
  tasks := s.tasks.set t ⟨n, k (M.perform s.ctx w a).2,
    (M.protocol n).next g a (M.perform s.ctx w a).2⟩
  log := s.log ++ [⟨t, w, a, (M.perform s.ctx w a).2⟩]

/-- One step. A task that does not exist or has returned does nothing. -/
def step (s : Sys N A R α G C W) : Label N W E → Sys N A R α G C W
  | .spawn n => { s with tasks := s.tasks ++ [⟨n, M.start n, M.init n⟩] }
  | .env e => { s with ctx := M.env s.ctx e }
  | .run t w => match s.tasks[t]? with
    | some ⟨n, .act a k, g⟩ => M.acted s t w n g a k
    | _ => s

variable {M}

/-- **What a scheduled task does**: nothing, or the action that it stands at. -/
theorem step_run_cases (s : Sys N A R α G C W) (t : Nat) (w : W) :
    (M.step s (.run t w) = s ∧ ∀ n g a k, s.tasks[t]? ≠ some ⟨n, .act a k, g⟩) ∨
    ∃ n g a k, s.tasks[t]? = some ⟨n, .act a k, g⟩ ∧
      M.step s (.run t w) = M.acted s t w n g a k := by
  cases ht : s.tasks[t]? with
  | none => exact .inl ⟨by simp only [step, ht], fun _ _ _ _ h => by cases h⟩
  | some task =>
      obtain ⟨n, p, g⟩ := task
      cases p with
      | ret x => exact .inl ⟨by simp only [step, ht], fun _ _ _ _ h => by cases h⟩
      | act a k => exact .inr ⟨n, g, a, k, rfl, by simp only [step, ht]⟩

/-- The tasks after an action: the one that acted, or another one as it was. -/
theorem getElem?_acted {s : Sys N A R α G C W} {t : Nat} {w : W} {n : N} {g : G} {a : A}
    {k : R a → Prog A R α} {t' : Nat} {task : Task N A R α G}
    (h : (M.acted s t w n g a k).tasks[t']? = some task) :
    (t' = t ∧ task = ⟨n, k (M.perform s.ctx w a).2,
      (M.protocol n).next g a (M.perform s.ctx w a).2⟩) ∨
    (t' ≠ t ∧ s.tasks[t']? = some task) := by
  have hset : (s.tasks.set t _)[t']? = some task := h
  rw [List.getElem?_set] at hset
  by_cases ht : t = t'
  · rw [if_pos ht] at hset
    split at hset
    · exact .inl ⟨ht.symm, (Option.some.inj hset).symm⟩
    · cases hset
  · rw [if_neg ht] at hset
    exact .inr ⟨fun h' => ht h'.symm, hset⟩

/-- The task that acted. -/
theorem getElem?_acted_self {s : Sys N A R α G C W} {t : Nat} {w : W} {n : N} {g : G} {a : A}
    {k : R a → Prog A R α} (ht : s.tasks[t]? = some ⟨n, .act a k, g⟩) :
    (M.acted s t w n g a k).tasks[t]? = some ⟨n, k (M.perform s.ctx w a).2,
      (M.protocol n).next g a (M.perform s.ctx w a).2⟩ := by
  obtain ⟨hlt, _⟩ := List.getElem?_eq_some_iff.mp ht
  show (s.tasks.set t _)[t]? = _
  rw [List.getElem?_set_self hlt]

/-- Every other task is as it was. -/
theorem getElem?_acted_ne {s : Sys N A R α G C W} {t : Nat} {w : W} {n : N} {g : G} {a : A}
    {k : R a → Prog A R α} {t' : Nat} (h : t' ≠ t) :
    (M.acted s t w n g a k).tasks[t']? = s.tasks[t']? :=
  List.getElem?_set_ne fun h' => h h'.symm

/-- The tasks after a start: an old one, or the new one. -/
theorem getElem?_spawn {s : Sys N A R α G C W} {n : N} {t : Nat} {task : Task N A R α G}
    (h : (M.step s (.spawn n)).tasks[t]? = some task) :
    s.tasks[t]? = some task ∨ (s.tasks.length ≤ t ∧ task = ⟨n, M.start n, M.init n⟩) := by
  have happ : (s.tasks ++ [_])[t]? = some task := h
  rw [List.getElem?_append] at happ
  split at happ
  · exact .inl happ
  · next hlt =>
      refine .inr ⟨Nat.le_of_not_lt hlt, ?_⟩
      obtain ⟨_, heq⟩ := List.getElem?_eq_some_iff.mp happ
      simpa using heq.symm

theorem getElem?_spawn_old {s : Sys N A R α G C W} {n : N} {t : Nat} {task : Task N A R α G}
    (h : s.tasks[t]? = some task) : (M.step s (.spawn n)).tasks[t]? = some task := by
  obtain ⟨hlt, _⟩ := List.getElem?_eq_some_iff.mp h
  show (s.tasks ++ [_])[t]? = _
  rw [List.getElem?_append_left hlt]
  exact h

variable (M) in
/-- Every task follows its protocol from the stage it is in. -/
def Conforms (post : N → G → α → Prop) (s : Sys N A R α G C W) : Prop :=
  ∀ task ∈ s.tasks, Follows (M.protocol task.arg) (post task.arg) task.stage task.prog

theorem conforms_step {post : N → G → α → Prop}
    (hstart : ∀ n, Follows (M.protocol n) (post n) (M.init n) (M.start n))
    {s : Sys N A R α G C W} (h : M.Conforms post s) (l : Label N W E) :
    M.Conforms post (M.step s l) := by
  cases l with
  | spawn n =>
      intro task hmem
      rcases List.mem_append.mp hmem with hold | hnew
      · exact h task hold
      · rw [List.mem_singleton.mp hnew]
        exact hstart n
  | env e => exact h
  | run t w =>
      rcases step_run_cases (M := M) s t w with ⟨heq, _⟩ | ⟨n, g, a, k, ht, heq⟩
      · rw [heq]
        exact h
      · rw [heq]
        intro task hmem
        rcases List.mem_or_eq_of_mem_set hmem with hold | rfl
        · exact h task hold
        · exact (h _ (List.mem_of_getElem? ht)).2 _

section Invariant

variable {post : N → G → α → Prop} {good : Sys N A R α G C W → Label N W E → Prop}
  {I : Sys N A R α G C W → Prop}
  (hstart : ∀ n, Follows (M.protocol n) (post n) (M.init n) (M.start n))
  (hspawn : ∀ s n, I s → good s (.spawn n) → I (M.step s (.spawn n)))
  (henv : ∀ s e, I s → good s (.env e) → I (M.step s (.env e)))
  (hact : ∀ s t w n g a k, s.tasks[t]? = some ⟨n, .act a k, g⟩ → (M.protocol n).allows g a →
    I s → good s (.run t w) → I (M.acted s t w n g a k))

include hspawn henv hact

theorem invariant_step {s : Sys N A R α G C W} (hc : M.Conforms post s) (h : I s)
    {x : Label N W E} (hx : good s x) : I (M.step s x) := by
  cases x with
  | spawn n => exact hspawn s n h hx
  | env e => exact henv s e h hx
  | run t w =>
      rcases step_run_cases (M := M) s t w with ⟨heq, _⟩ | ⟨n, g, a, k, ht, heq⟩
      · rw [heq]
        exact h
      · rw [heq]
        exact hact s t w n g a k ht (hc _ (List.mem_of_getElem? ht)).1 h hx

include hstart

/-- **The invariant rule.** In a run whose steps meet `good`, what new tasks, the environment and
    each allowed action keep holds in every state reached. -/
theorem invariant {s : Sys N A R α G C W} (hc : M.Conforms post s) (h : I s)
    {l : List (Label N W E)} (hgood : Along M.step good s l) : I (foldSteps M.step s l) := by
  induction l generalizing s with
  | nil => exact h
  | cons x l ih =>
      exact ih (conforms_step hstart hc x) (invariant_step hspawn henv hact hc h hgood.1) hgood.2

/-- The invariant holds at every step of the run. -/
theorem invariant_along {s : Sys N A R α G C W} (hc : M.Conforms post s) (h : I s)
    {l : List (Label N W E)} (hgood : Along M.step good s l) :
    Along M.step (fun s x => M.Conforms post s ∧ I s ∧ good s x) s l := by
  induction l generalizing s with
  | nil => exact trivial
  | cons x l ih =>
      exact ⟨⟨hc, h, hgood.1⟩, ih (conforms_step hstart hc x)
        (invariant_step hspawn henv hact hc h hgood.1) hgood.2⟩

end Invariant

end Setting

end Systems

/-- Where an event of a longer log stands: in the log so far, or it is the new one. -/
theorem log_split {A : Type} {l b a : List A} {e x : A} (h : l ++ [e] = b ++ x :: a) :
    (∃ a', a = a' ++ [e] ∧ l = b ++ x :: a') ∨ (a = [] ∧ b = l ∧ x = e) := by
  rcases List.eq_nil_or_concat a with rfl | ⟨a', y, rfl⟩
  · obtain ⟨hl, hx⟩ := List.append_inj' h rfl
    exact .inr ⟨rfl, hl.symm, ((List.cons.inj hx).1).symm⟩
  · rw [List.concat_eq_append, ← List.cons_append, ← List.append_assoc] at h
    obtain ⟨hl, hx⟩ := List.append_inj' h rfl
    obtain ⟨rfl, _⟩ := List.cons.inj hx
    exact .inl ⟨a', by simp, hl⟩

/-! ## 4. A program on its own -/

section Solo

variable {A : Type} {R : A → Type} {α C W : Type} (perform : C → W → (a : A) → C × R a)

/-- The states a program passes through when it runs to its end alone. -/
def trail (w : W) : C → Prog A R α → List C
  | c, .ret _ => [c]
  | c, .act a k => c :: trail w (perform c w a).1 (k (perform c w a).2)

/-- The state a program ends in when it runs alone. -/
def result (w : W) : C → Prog A R α → C
  | c, .ret _ => c
  | c, .act a k => result w (perform c w a).1 (k (perform c w a).2)

/-- The states of a run to the end that `f` interrupts after `n` actions (at the end, if there
    are fewer). -/
def trailWith (w : W) (f : C → C) : Nat → C → Prog A R α → List C
  | 0, c, p => c :: trail perform w (f c) p
  | _ + 1, c, .ret _ => [c, f c]
  | n + 1, c, .act a k => c :: trailWith w f n (perform c w a).1 (k (perform c w a).2)

/-- The state in which a run to the end that `f` interrupts after `n` actions ends. -/
def resultWith (w : W) (f : C → C) : Nat → C → Prog A R α → C
  | 0, c, p => result perform w (f c) p
  | _ + 1, c, .ret _ => f c
  | n + 1, c, .act a k => resultWith w f n (perform c w a).1 (k (perform c w a).2)

variable {perform}

theorem trail_invariant {P : Protocol A R Unit} {post : Unit → α → Prop} {I : C → Prop} {w : W}
    (hact : ∀ c a, P.allows () a → I c → I (perform c w a).1) {c : C} {p : Prog A R α}
    (hp : Follows P post () p) (h : I c) : ∀ c' ∈ trail perform w c p, I c' := by
  induction p generalizing c with
  | ret x =>
      intro c' hmem
      rw [List.mem_singleton.mp hmem]
      exact h
  | act a k ih =>
      intro c' hmem
      rcases List.mem_cons.mp hmem with rfl | hmem
      · exact h
      · exact ih _ (hp.2 _) (hact c a hp.1 h) c' hmem

/-- **What every allowed action and the interruption keep holds at every moment.** -/
theorem trailWith_invariant {P : Protocol A R Unit} {post : Unit → α → Prop} {I : C → Prop}
    {w : W} {f : C → C} (hact : ∀ c a, P.allows () a → I c → I (perform c w a).1)
    (hf : ∀ c, I c → I (f c)) {n : Nat} {c : C} {p : Prog A R α} (hp : Follows P post () p)
    (h : I c) : ∀ c' ∈ trailWith perform w f n c p, I c' := by
  induction n generalizing c p with
  | zero =>
      intro c' hmem
      rcases List.mem_cons.mp hmem with rfl | hmem
      · exact h
      · exact trail_invariant hact hp (hf c h) c' hmem
  | succ n ih =>
      cases p with
      | ret x =>
          intro c' hmem
          rcases List.mem_cons.mp hmem with rfl | hmem
          · exact h
          · rw [List.mem_singleton.mp hmem]
            exact hf c h
      | act a k =>
          intro c' hmem
          rcases List.mem_cons.mp hmem with rfl | hmem
          · exact h
          · exact ih (hp.2 _) (hact c a hp.1 h) c' hmem

end Solo

end Effect

/-
  File:      IronCrab/Lib/PriorityQueue.lean
  Subject:   A PRIORITY QUEUE WITH UNSPECIFIED TIES. Nothing here names a program.

  A binary heap promises that `pop` takes out an element of greatest rank; which of several it takes
  depends on the shape of the heap. `PriorityQueue rank` is any rule that keeps the promise, and the
  content of the queue is a list.

  * `mem_of_pop` -- what is popped was in the queue;
  * `takeFirst` -- the rule that takes the oldest one.
-/
import Mathlib.Data.List.MinMax
import Mathlib.Data.List.Perm.Basic

/-- **A rule for popping** that keeps the promise of a heap. -/
structure PriorityQueue {α β : Type} [LinearOrder β] (rank : α → β) where
  pop : List α → Option (α × List α)
  pop_none : ∀ queue, pop queue = none → queue = []
  perm : ∀ queue x rest, pop queue = some (x, rest) → queue.Perm (x :: rest)
  greatest : ∀ queue x rest, pop queue = some (x, rest) → ∀ y ∈ queue, rank y ≤ rank x

namespace PriorityQueue

variable {α β : Type} [LinearOrder β] {rank : α → β}

/-- What is popped was in the queue. -/
theorem mem_of_pop (Q : PriorityQueue rank) {queue : List α} {x : α} {rest : List α}
    (h : Q.pop queue = some (x, rest)) : x ∈ queue :=
  (Q.perm _ _ _ h).mem_iff.mpr List.mem_cons_self

/-- **Taking the oldest element of greatest rank.** -/
def takeFirst (rank : α → β) [DecidableEq α] : PriorityQueue rank where
  pop queue :=
    match queue.argmax rank with
    | none => none
    | some x => some (x, queue.erase x)
  pop_none queue h := by
    cases hmax : queue.argmax rank with
    | none => exact List.argmax_eq_none.mp hmax
    | some x =>
        rw [hmax] at h
        cases h
  perm queue x rest h := by
    cases hmax : queue.argmax rank with
    | none =>
        rw [hmax] at h
        cases h
    | some y =>
        rw [hmax] at h
        obtain ⟨rfl, rfl⟩ := Prod.mk.inj (Option.some.inj h)
        exact List.perm_cons_erase (List.argmax_mem hmax)
  greatest queue x rest h y hy := by
    cases hmax : queue.argmax rank with
    | none =>
        rw [hmax] at h
        cases h
    | some z =>
        rw [hmax] at h
        obtain ⟨rfl, rfl⟩ := Prod.mk.inj (Option.some.inj h)
        exact List.le_of_mem_argmax hy hmax

end PriorityQueue

/-
  File:      IronCrab/Lib/Linearize.lean
  Subject:   TWO CALLS AND THEIR LINEARIZATION POINTS. Nothing here names a program.

  Two calls run at the same time on a value `v₀`. The left call takes effect at one moment, by `f`;
  the right call at one moment, by `g` if it is the first of the two and by `g'` if it is the second
  (the two differ when the right call has looked something up that the left call changes).
  `Linearized` says where the value stands by who has taken effect; after both it is one of the two
  sequential orders (`Linearized.both`).
-/
import Mathlib.Logic.Basic

namespace Linearize

variable {V : Type}

/-- The value by which of the two calls (left, right) has taken effect. -/
inductive Linearized (f g g' : V → V) (v₀ : V) : Bool → Bool → V → Prop where
  | neither : Linearized f g g' v₀ false false v₀
  | left : Linearized f g g' v₀ true false (f v₀)
  | right : Linearized f g g' v₀ false true (g v₀)
  | leftRight : Linearized f g g' v₀ true true (g' (f v₀))
  | rightLeft : Linearized f g g' v₀ true true (f (g v₀))

variable {f g g' : V → V} {v₀ v : V} {r : Bool}

/-- The left call takes effect. -/
theorem Linearized.stepLeft (h : Linearized f g g' v₀ false r v) :
    Linearized f g g' v₀ true r (f v) := by
  cases h with
  | neither => exact .left
  | right => exact .rightLeft

/-- The right call takes effect as the first. -/
theorem Linearized.stepRight_first (h : Linearized f g g' v₀ false false v) :
    Linearized f g g' v₀ false true (g v) := by
  cases h with
  | neither => exact .right

/-- The right call takes effect as the second. -/
theorem Linearized.stepRight_second (h : Linearized f g g' v₀ true false v) :
    Linearized f g g' v₀ true true (g' v) := by
  cases h with
  | left => exact .leftRight

/-- The right call takes the same effect in either place. -/
theorem Linearized.stepRight {l : Bool} (h : Linearized f g g v₀ l false v) :
    Linearized f g g v₀ l true (g v) := by
  cases l with
  | false => exact h.stepRight_first
  | true => exact h.stepRight_second

/-- **After both calls the value is that of one of the two sequential orders.** -/
theorem Linearized.both (h : Linearized f g g' v₀ true true v) :
    v = g' (f v₀) ∨ v = f (g v₀) := by
  cases h with
  | leftRight => exact .inl rfl
  | rightLeft => exact .inr rfl

end Linearize

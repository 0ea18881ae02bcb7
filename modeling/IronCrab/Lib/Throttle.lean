/-
  File:      IronCrab/Lib/Throttle.lean
  Subject:   EVENT LOGS UNDER A SLIDING WINDOW WITH A PAUSE. Nothing here names a program.

  Events are logged with non-decreasing times. A throttle lets the next event happen only after a
  pause when the window behind the last one is full. `Paced` is what it guarantees, event by
  event, and `Paced.interval_bound` what follows for every interval shorter than window and
  pause: it holds at most `max 1 limit` events.

  * `within` -- the events that a window behind `t` still holds;
  * `within_append_le` -- events that fell out of the window do not count.
-/
import Mathlib.Data.List.Basic

namespace Throttle

/-- How many events of the log lie at most `window` before `t`. -/
def within (window t : Nat) (log : List Nat) : Nat :=
  (log.filter fun e => decide (t ≤ e + window)).length

/-- Logs in time order in which an event whose window was full is followed by a pause. -/
inductive Paced (window pause limit : Nat) : List Nat → Prop where
  | nil : Paced window pause limit []
  | snoc (log : List Nat) (t : Nat) (h : Paced window pause limit log) (hle : ∀ e ∈ log, e ≤ t)
      (hpause : ∀ last, log.getLast? = some last → limit ≤ within window last log →
        last + pause ≤ t) : Paced window pause limit (log ++ [t])

variable {window pause limit : Nat} {log : List Nat}

/-- What fell out of the window does not count. -/
theorem within_append_le {t : Nat} {old kept : List Nat} (h : ∀ e ∈ old, e + window < t) :
    within window t (old ++ kept) ≤ kept.length := by
  unfold within
  have hold : old.filter (fun e => decide (t ≤ e + window)) = [] := by
    refine List.filter_eq_nil_iff.mpr fun e he => ?_
    have hlt := h e he
    simp only [decide_eq_true_eq]
    omega
  rw [List.filter_append, hold, List.nil_append]
  exact List.length_filter_le _ _

/-- The last event is the greatest. -/
theorem Paced.le_last (h : Paced window pause limit log) {last : Nat}
    (hl : log.getLast? = some last) : ∀ e ∈ log, e ≤ last := by
  cases h with
  | nil => cases hl
  | snoc log t _ hle _ =>
      rw [List.getLast?_concat] at hl
      cases hl
      intro e he
      rcases List.mem_append.mp he with he | he
      · exact hle e he
      · exact Nat.le_of_eq (List.mem_singleton.mp he)

/-- The events from `a` to `b`. -/
def between (a b : Nat) (log : List Nat) : List Nat :=
  log.filter fun t => decide (a ≤ t ∧ t ≤ b)

theorem between_snoc_in {a b t : Nat} (h : a ≤ t ∧ t ≤ b) :
    (between a b (log ++ [t])).length = (between a b log).length + 1 := by
  unfold between
  rw [List.filter_append, List.filter_singleton, decide_eq_true h]
  simp

theorem between_snoc_out {a b t : Nat} (h : ¬ (a ≤ t ∧ t ≤ b)) :
    between a b (log ++ [t]) = between a b log := by
  unfold between
  rw [List.filter_append, List.filter_singleton, decide_eq_false h]
  simp

/-- A window that reaches back to `a` holds what lies between. -/
theorem between_le_within {a b last : Nat} (h : last ≤ a + window) :
    (between a b log).length ≤ within window last log := by
  refine (List.monotone_filter_right log fun e he => ?_).length_le
  simp only [decide_eq_true_eq] at he ⊢
  omega

/-- **Every interval shorter than the window and the pause holds at most `max 1 limit` events.** -/
theorem Paced.interval_bound (h : Paced window pause limit log) (a b : Nat)
    (hab : b < a + min window pause) : (between a b log).length ≤ max 1 limit := by
  induction h with
  | nil => exact Nat.zero_le _
  | snoc log t hlog hle hpause ih =>
      by_cases ht : a ≤ t ∧ t ≤ b
      · rw [between_snoc_in ht]
        by_contra hfull
        -- the interval was full before `t`, so the window behind the last event was full as well
        have hmany : max 1 limit ≤ (between a b log).length := by omega
        obtain ⟨e, he⟩ := List.exists_mem_of_length_pos
          (show 0 < (between a b log).length by omega)
        obtain ⟨hmem, hin⟩ := List.mem_filter.mp he
        have hin := of_decide_eq_true hin
        obtain ⟨last, hlast⟩ : ∃ last, log.getLast? = some last := by
          cases hg : log.getLast? with
          | none => rw [List.getLast?_eq_none_iff.mp hg] at hmem; cases hmem
          | some last => exact ⟨last, rfl⟩
        have hel : e ≤ last := hlog.le_last hlast e hmem
        have hlt : last ≤ t := hle last (List.mem_of_getLast? hlast)
        have hwin : (between a b log).length ≤ within window last log :=
          between_le_within (by omega)
        have hwait := hpause last hlast (by omega)
        omega
      · rw [between_snoc_out ht]
        exact ih

end Throttle

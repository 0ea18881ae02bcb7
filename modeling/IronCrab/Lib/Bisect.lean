/-
  File:      IronCrab/Lib/Bisect.lean
  Subject:   SEARCHES BY HALVING AND BY DOUBLING. Nothing here names a program.

  The test a search asks at a number may fail (`none`); then the search fails. Where the test
  answers throughout and its answers are ordered, the search finds the border:

  * `least` -- the least number that passes, between one below which nothing passes and one that
    passes (`least_spec`);
  * `grow` -- a number doubled until it passes or reaches a bound (`grow_spec`); a test that
    passes nowhere lets it through exactly if it answers at every doubling (`grow_rejects_iff`);
  * `greatest` -- the greatest number that passes, of a test that always answers and whose numbers
    that pass come first (`greatest_spec`);
  * `last` -- a search for it that trusts its lower end: what it finds in any case (`last_spec`), in
    an interval that passes (`last_greatest`), and when it finds nothing (`last_eq_zero_iff`).
-/
import Mathlib.Algebra.GroupWithZero.Nat
import Mathlib.Tactic.Ring

namespace Bisect

/-! ## 1. The least number that passes -/

def middle (lo hi : Nat) : Nat := lo + (hi - lo) / 2

theorem middle_lt {lo hi : Nat} (h : lo < hi) : middle lo hi < hi := by
  unfold middle
  omega

theorem le_middle (lo hi : Nat) : lo ≤ middle lo hi := Nat.le_add_right lo _

/-- The interval is cut at its middle until it is a point. -/
def least (p : Nat → Option Bool) (lo hi : Nat) : Option Nat :=
  if _h : lo < hi then
    match p (middle lo hi) with
    | none => none
    | some true => least p lo (middle lo hi)
    | some false => least p (middle lo hi + 1) hi
  else some lo
termination_by hi - lo
decreasing_by
  · have := middle_lt _h
    omega
  · have := le_middle lo hi
    omega

/-- The answers of `p` between `lo` and `hi` are those of `q`, and they are upward closed. -/
structure Ordered (p : Nat → Option Bool) (q : Nat → Prop) (lo hi : Nat) : Prop where
  passes : ∀ x, lo ≤ x → x ≤ hi → (p x = some true ∧ q x ∨ p x = some false ∧ ¬ q x)
  mono : ∀ x y, lo ≤ x → x ≤ y → y ≤ hi → q x → q y

theorem Ordered.mono_interval {p : Nat → Option Bool} {q : Nat → Prop} {lo hi lo' hi' : Nat}
    (h : Ordered p q lo hi) (hlo : lo ≤ lo') (hhi : hi' ≤ hi) : Ordered p q lo' hi' :=
  ⟨fun x hx hx' => h.passes x (hlo.trans hx) (hx'.trans hhi),
    fun x y hx hxy hy => h.mono x y (hlo.trans hx) hxy (hy.trans hhi)⟩

/-- **The search finds the least number that passes.** -/
theorem least_spec {p : Nat → Option Bool} {q : Nat → Prop} {lo hi : Nat} (hle : lo ≤ hi)
    (h : Ordered p q lo hi) (hhi : q hi) :
    ∃ r, least p lo hi = some r ∧ lo ≤ r ∧ r ≤ hi ∧ q r ∧ ∀ x, lo ≤ x → x < r → ¬ q x := by
  fun_induction least p lo hi with
  | case1 lo hi hlt hmid =>
      rcases h.passes _ (le_middle lo hi) (middle_lt hlt).le with ⟨e, _⟩ | ⟨e, _⟩
      · rw [e] at hmid
        cases hmid
      · rw [e] at hmid
        cases hmid
  | case2 lo hi hlt hmid ih =>
      have hq : q (middle lo hi) := by
        rcases h.passes _ (le_middle lo hi) (middle_lt hlt).le with ⟨_, hq⟩ | ⟨e, _⟩
        · exact hq
        · rw [e] at hmid
          cases hmid
      obtain ⟨r, hr, h1, h2, h3, h4⟩ :=
        ih (le_middle lo hi) (h.mono_interval le_rfl (middle_lt hlt).le) hq
      exact ⟨r, hr, h1, h2.trans (middle_lt hlt).le, h3, h4⟩
  | case3 lo hi hlt hmid ih =>
      have hq : ¬ q (middle lo hi) := by
        rcases h.passes _ (le_middle lo hi) (middle_lt hlt).le with ⟨e, _⟩ | ⟨_, hq⟩
        · rw [e] at hmid
          cases hmid
        · exact hq
      have hlo : lo ≤ middle lo hi + 1 := (le_middle lo hi).trans (Nat.le_succ _)
      obtain ⟨r, hr, h1, h2, h3, h4⟩ := ih (middle_lt hlt) (h.mono_interval hlo le_rfl) hhi
      refine ⟨r, hr, hlo.trans h1, h2, h3, fun x hx hxr hqx => ?_⟩
      by_cases hxm : x ≤ middle lo hi
      · exact hq (h.mono x _ hx hxm (middle_lt hlt).le hqx)
      · exact h4 x (Nat.lt_of_not_le hxm) hxr hqx
  | case4 lo hi hge =>
      have e : lo = hi := Nat.le_antisymm hle (Nat.le_of_not_lt hge)
      subst e
      exact ⟨lo, rfl, le_rfl, le_rfl, hhi, fun x hx hxr => absurd hx (Nat.not_le_of_lt hxr)⟩

/-! ## 2. Doubling -/

/-- A number below `bound` is doubled, up to `cap`, as long as it does not pass. -/
def grow (p : Nat → Option Bool) (bound cap : Nat) : Nat → Nat → Option Nat
  | 0, _ => none
  | rounds + 1, hi =>
      if hi < bound then
        match p hi with
        | none => none
        | some true => some hi
        | some false => grow p bound cap rounds (min (2 * hi) cap)
      else some hi

variable {p : Nat → Option Bool} {q : Nat → Prop} {bound cap : Nat}

theorem le_of_grow : ∀ {rounds hi r : Nat}, hi ≤ cap → grow p bound cap rounds hi = some r → r ≤ cap
  | 0, _, _, _, h => by cases h
  | rounds + 1, hi, r, hhi, h => by
      rw [grow] at h
      by_cases hlt : hi < bound
      · rw [if_pos hlt] at h
        cases hp : p hi with
        | none =>
            rw [hp] at h
            cases h
        | some passes =>
            rw [hp] at h
            cases passes with
            | true =>
                cases h
                exact hhi
            | false => exact le_of_grow (Nat.min_le_right _ _) h
      · rw [if_neg hlt] at h
        cases h
        exact hhi

/-- **Doubling ends at a number that passes or at the bound.** -/
theorem grow_spec (hcap : bound ≤ cap) (lo : Nat) (h : Ordered p q lo cap) :
    ∀ rounds hi, lo ≤ hi → 0 < hi → hi ≤ cap → bound ≤ 2 ^ rounds * hi →
      ∃ r, grow p bound cap (rounds + 1) hi = some r ∧ hi ≤ r ∧ r ≤ cap ∧ (q r ∨ bound ≤ r)
  | 0, hi, _, _, hhi, hb => by
      rw [Nat.pow_zero, Nat.one_mul] at hb
      refine ⟨hi, ?_, le_rfl, hhi, .inr hb⟩
      rw [grow, if_neg (Nat.not_lt_of_le hb)]
  | rounds + 1, hi, hlo, hpos, hhi, hb => by
      rw [grow]
      by_cases hlt : hi < bound
      · rw [if_pos hlt]
        rcases h.passes hi hlo hhi with ⟨e, hq⟩ | ⟨e, _⟩
        · rw [e]
          exact ⟨hi, rfl, le_rfl, hhi, .inl hq⟩
        · rw [e]
          have hnext : hi ≤ min (2 * hi) cap := Nat.le_min.mpr ⟨by omega, hhi⟩
          have hb' : bound ≤ 2 ^ rounds * min (2 * hi) cap := by
            rcases Nat.le_total (2 * hi) cap with hc | hc
            · rw [Nat.min_eq_left hc]
              calc bound ≤ 2 ^ (rounds + 1) * hi := hb
                _ = 2 ^ rounds * (2 * hi) := by ring
            · rw [Nat.min_eq_right hc]
              exact hcap.trans (Nat.le_mul_of_pos_left cap (Nat.two_pow_pos rounds))
          obtain ⟨r, hr, h1, h2, h3⟩ := grow_spec hcap lo h rounds _ (hlo.trans hnext)
            (hpos.trans_le hnext) (Nat.min_le_right _ _) hb'
          exact ⟨r, hr, hnext.trans h1, h2, h3⟩
      · rw [if_neg hlt]
        exact ⟨hi, rfl, le_rfl, hhi, .inr (Nat.le_of_not_lt hlt)⟩

/-- **A test that passes nowhere** answers at the end of the doubling exactly if it answers at
    every number on the way. -/
theorem grow_rejects_iff (bad : Nat → Prop) [DecidablePred bad]
    (hp : ∀ x, x ≤ cap → p x = if bad x then none else some false) (hcap : 2 * bound ≤ cap) :
    ∀ rounds hi, 0 < hi → hi ≤ cap → bound ≤ 2 ^ rounds * hi →
      ((∃ r, grow p bound cap (rounds + 1) hi = some r ∧ p r = some false) ↔
        ¬ bad hi ∧ ∀ k, 2 ^ k * hi < bound → ¬ bad (2 ^ (k + 1) * hi))
  | 0, hi, _, hhi, hb => by
      rw [Nat.pow_zero, Nat.one_mul] at hb
      have hk (k : Nat) : ¬ 2 ^ k * hi < bound :=
        Nat.not_lt_of_le (hb.trans (Nat.le_mul_of_pos_left hi (Nat.two_pow_pos k)))
      rw [grow, if_neg (Nat.not_lt_of_le hb)]
      constructor
      · rintro ⟨r, hr, hpr⟩
        cases hr
        refine ⟨fun hbad => ?_, fun k hlt => absurd hlt (hk k)⟩
        rw [hp _ hhi, if_pos hbad] at hpr
        cases hpr
      · rintro ⟨hbad, _⟩
        exact ⟨hi, rfl, by rw [hp _ hhi, if_neg hbad]⟩
  | rounds + 1, hi, hpos, hhi, hb => by
      rw [grow]
      by_cases hlt : hi < bound
      · rw [if_pos hlt, hp hi hhi]
        by_cases hbad : bad hi
        · rw [if_pos hbad]
          constructor
          · rintro ⟨r, hr, _⟩
            cases hr
          · rintro ⟨hn, _⟩
            exact absurd hbad hn
        · rw [if_neg hbad]
          have hmin : min (2 * hi) cap = 2 * hi := Nat.min_eq_left (by omega)
          have hb' : bound ≤ 2 ^ rounds * (2 * hi) := by
            calc bound ≤ 2 ^ (rounds + 1) * hi := hb
              _ = 2 ^ rounds * (2 * hi) := by ring
          have ih := grow_rejects_iff bad hp hcap rounds (2 * hi) (by omega) (by omega) hb'
          rw [hmin]
          refine ih.trans ⟨fun ⟨h0, hk⟩ => ⟨hbad, fun k hk' => ?_⟩,
            fun ⟨_, hk⟩ => ⟨?_, fun k hk' => ?_⟩⟩
          · cases k with
            | zero =>
                rw [Nat.zero_add, Nat.pow_one]
                exact h0
            | succ k =>
                have e : 2 ^ (k + 1) * hi = 2 ^ k * (2 * hi) := by ring
                have e' : 2 ^ (k + 1 + 1) * hi = 2 ^ (k + 1) * (2 * hi) := by ring
                rw [e']
                exact hk k (e ▸ hk')
          · have := hk 0 (by rw [Nat.pow_zero, Nat.one_mul]; exact hlt)
            rwa [Nat.zero_add, Nat.pow_one] at this
          · have e : 2 ^ (k + 1) * hi = 2 ^ k * (2 * hi) := by ring
            have e' : 2 ^ (k + 1 + 1) * hi = 2 ^ (k + 1) * (2 * hi) := by ring
            rw [← e']
            exact hk (k + 1) (e.symm ▸ hk')
      · have hb0 : bound ≤ hi := Nat.le_of_not_lt hlt
        have hk (k : Nat) : ¬ 2 ^ k * hi < bound :=
          Nat.not_lt_of_le (hb0.trans (Nat.le_mul_of_pos_left hi (Nat.two_pow_pos k)))
        rw [if_neg hlt]
        constructor
        · rintro ⟨r, hr, hpr⟩
          cases hr
          refine ⟨fun hbad => ?_, fun k hlt' => absurd hlt' (hk k)⟩
          rw [hp _ hhi, if_pos hbad] at hpr
          cases hpr
        · rintro ⟨hbad, _⟩
          exact ⟨hi, rfl, by rw [hp _ hhi, if_neg hbad]⟩

/-! ## 3. The greatest number that passes -/

/-- The interval is cut at its middle until it is empty; `best` passed last. -/
def greatest (p : Nat → Bool) (lo hi best : Nat) : Nat :=
  if _h : lo ≤ hi then
    if p (middle lo hi) then greatest p (middle lo hi + 1) hi (middle lo hi)
    else if middle lo hi = 0 then best
    else greatest p lo (middle lo hi - 1) best
  else best
termination_by hi + 1 - lo
decreasing_by
  · have := le_middle lo hi
    omega
  · unfold middle at *
    omega

theorem le_greatest (p : Nat → Bool) (lo hi best : Nat) (hbest : best ≤ lo) :
    best ≤ greatest p lo hi best := by
  fun_induction greatest p lo hi best with
  | case1 lo hi best hle hpass ih =>
      have hlo := le_middle lo hi
      exact (hbest.trans hlo).trans (ih (Nat.le_succ _))
  | case2 => exact le_rfl
  | case3 lo hi best hle hfail hzero ih => exact ih hbest
  | case4 => exact le_rfl

/-- **The search finds the greatest number that passes**, or nothing passes. -/
theorem greatest_spec {p : Nat → Bool} {hi : Nat} (lo best : Nat)
    (h : ∀ x y, x ≤ y → y ≤ hi → p y = true → p x = true) :
    (greatest p lo hi best = best ∧ ∀ x, lo ≤ x → x ≤ hi → p x = false) ∨
      (lo ≤ greatest p lo hi best ∧ greatest p lo hi best ≤ hi ∧
        p (greatest p lo hi best) = true ∧
        ∀ x, greatest p lo hi best < x → x ≤ hi → p x = false) := by
  fun_induction greatest p lo hi best with
  | case1 lo hi best hle hpass ih =>
      have hlo : lo ≤ middle lo hi := le_middle lo hi
      have hhi : middle lo hi ≤ hi := by
        unfold middle
        omega
      right
      rcases ih h with ⟨e, hnone⟩ | ⟨h1, h2, h3, h4⟩
      · rw [e]
        exact ⟨hlo, hhi, hpass, hnone⟩
      · exact ⟨by omega, h2, h3, h4⟩
  | case2 lo hi best hle hfail hzero =>
      refine .inl ⟨rfl, fun x _ hx => ?_⟩
      cases hp : p x with
      | false => rfl
      | true => exact absurd (h _ x (hzero ▸ Nat.zero_le x) hx hp) hfail
  | case3 lo hi best hle hfail hzero ih =>
      have hhi : middle lo hi - 1 ≤ hi := by
        unfold middle
        omega
      have hfrom : ∀ x, middle lo hi ≤ x → x ≤ hi → p x = false := fun x hx hxhi => by
        cases hp : p x with
        | false => rfl
        | true => exact absurd (h _ x hx hxhi hp) hfail
      rcases ih fun x y hxy hy => h x y hxy (hy.trans hhi) with ⟨e, hnone⟩ | ⟨h1, h2, h3, h4⟩
      · refine .inl ⟨e, fun x hx hxhi => ?_⟩
        by_cases hm : middle lo hi ≤ x
        · exact hfrom x hm hxhi
        · exact hnone x hx (by omega)
      · refine .inr ⟨h1, h2.trans hhi, h3, fun x hx hxhi => ?_⟩
        by_cases hm : middle lo hi ≤ x
        · exact hfrom x hm hxhi
        · exact h4 x hx (by omega)
  | case4 lo hi best hle =>
      exact .inl ⟨rfl, fun x hx hxhi => absurd (hx.trans hxhi) hle⟩

/-! ## 4. The last number that passes, the lower end taken on trust -/

def upperMiddle (lo hi : Nat) : Nat := lo + (hi - lo + 1) / 2

theorem lt_upperMiddle {lo hi : Nat} (h : lo < hi) : lo < upperMiddle lo hi := by
  unfold upperMiddle
  omega

theorem upperMiddle_le {lo hi : Nat} (h : lo < hi) : upperMiddle lo hi ≤ hi := by
  unfold upperMiddle
  omega

/-- The interval is cut at its upper middle until it is a point. -/
def last (p : Nat → Option Bool) (lo hi : Nat) : Option Nat :=
  if _h : lo < hi then
    match p (upperMiddle lo hi) with
    | none => none
    | some true => last p (upperMiddle lo hi) hi
    | some false => last p lo (upperMiddle lo hi - 1)
  else some lo
termination_by hi - lo
decreasing_by
  · have := lt_upperMiddle _h
    omega
  · have := lt_upperMiddle _h
    have := upperMiddle_le _h
    omega

/-- A test that answers everywhere lets the search end. -/
theorem last_isSome {p : Nat → Option Bool} {lo hi : Nat}
    (h : ∀ x, lo < x → x ≤ hi → p x ≠ none) : ∃ r, last p lo hi = some r := by
  fun_induction last p lo hi with
  | case1 lo hi hlt hmid => exact absurd hmid (h _ (lt_upperMiddle hlt) (upperMiddle_le hlt))
  | case2 lo hi hlt hmid ih => exact ih fun x hx hxhi => h x ((lt_upperMiddle hlt).trans hx) hxhi
  | case3 lo hi hlt hmid ih =>
      refine ih fun x hx hxhi => h x hx ?_
      have hle := upperMiddle_le hlt
      omega
  | case4 lo hi hge => exact ⟨lo, rfl⟩

/-- **What the search finds** passes, and what follows it does not; at the ends it is taken on
    trust. -/
theorem last_spec {p : Nat → Option Bool} {lo hi r : Nat} (hle : lo ≤ hi)
    (h : last p lo hi = some r) :
    lo ≤ r ∧ r ≤ hi ∧ (r = lo ∨ p r = some true) ∧ (r = hi ∨ p (r + 1) = some false) := by
  fun_induction last p lo hi with
  | case1 lo hi hlt hmid => cases h
  | case2 lo hi hlt hmid ih =>
      obtain ⟨h1, h2, h3, h4⟩ := ih (upperMiddle_le hlt) h
      refine ⟨(lt_upperMiddle hlt).le.trans h1, h2, .inr ?_, h4⟩
      rcases h3 with h3 | h3
      · rw [h3]
        exact hmid
      · exact h3
  | case3 lo hi hlt hmid ih =>
      have hmiddle := lt_upperMiddle hlt
      have hhi := upperMiddle_le hlt
      obtain ⟨h1, h2, h3, h4⟩ := ih (by omega) h
      refine ⟨h1, by omega, h3, .inr ?_⟩
      rcases h4 with h4 | h4
      · have hnext : r + 1 = upperMiddle lo hi := by omega
        rw [hnext]
        exact hmid
      · exact h4
  | case4 lo hi hge =>
      cases h
      exact ⟨le_rfl, hle, .inl rfl, .inl (Nat.le_antisymm hle (Nat.le_of_not_lt hge))⟩

/-- What passes up to `hi` has no gaps. -/
def Gapless (q : Nat → Prop) (hi : Nat) : Prop :=
  ∀ x y z, x ≤ y → y ≤ z → z ≤ hi → q x → q z → q y

/-- **In an interval that passes** the search finds its end. -/
theorem last_greatest {p : Nat → Option Bool} {q : Nat → Prop} {lo hi r : Nat} (hle : lo ≤ hi)
    (hq : ∀ x, lo < x → x ≤ hi → (p x = some true ↔ q x)) (hgap : Gapless q hi)
    (h : last p lo hi = some r) (hr : r ≠ lo) : q r ∧ ∀ x, r < x → x ≤ hi → ¬ q x := by
  obtain ⟨h1, h2, h3, h4⟩ := last_spec hle h
  have hlt : lo < r := by omega
  have hpass : q r := (hq r hlt h2).mp (h3.resolve_left hr)
  refine ⟨hpass, fun x hx hxhi hqx => ?_⟩
  rcases h4 with h4 | h4
  · omega
  · have hnext : q (r + 1) := hgap r (r + 1) x (Nat.le_succ r) hx hxhi hpass hqx
    rw [(hq (r + 1) (by omega) (by omega)).mpr hnext] at h4
    cases h4

/-- **The search finds nothing** exactly if none of the halves of its interval passes. -/
theorem last_eq_zero_iff {p : Nat → Option Bool} {q : Nat → Prop} (hi : Nat)
    (hq : ∀ x, 0 < x → x ≤ hi → (p x = some true ∧ q x ∨ p x = some false ∧ ¬ q x)) :
    last p 0 hi = some 0 ↔ ∀ i, 0 < i → 0 < (hi + 1) / 2 ^ i → ¬ q ((hi + 1) / 2 ^ i) := by
  induction hi using Nat.strong_induction_on with
  | _ hi ih =>
      rw [last]
      by_cases hpos : 0 < hi
      · have hmid : upperMiddle 0 hi = (hi + 1) / 2 := by
          unfold upperMiddle
          omega
        have hlt := lt_upperMiddle hpos
        have hle := upperMiddle_le hpos
        rw [dif_pos hpos]
        rcases hq _ hlt hle with ⟨e, hpass⟩ | ⟨e, hfail⟩
        · rw [e]
          constructor
          · intro h
            have hfound := last_spec hle h
            omega
          · intro h
            rw [hmid] at hpass hlt
            exact absurd hpass (h 1 Nat.one_pos hlt)
        · rw [e]
          dsimp only
          have hrest := ih (upperMiddle 0 hi - 1) (by omega) fun x hx hxhi => hq x hx (by omega)
          have hhalf : upperMiddle 0 hi - 1 + 1 = (hi + 1) / 2 := by omega
          rw [hrest, hhalf]
          have hnext : ∀ i, (hi + 1) / 2 / 2 ^ i = (hi + 1) / 2 ^ (i + 1) := fun i => by
            rw [Nat.div_div_eq_div_mul, Nat.pow_succ, Nat.mul_comm]
          constructor
          · intro h i hi0 hprobe
            cases i with
            | zero => omega
            | succ i =>
                cases i with
                | zero =>
                    rw [Nat.pow_one, ← hmid]
                    exact hfail
                | succ i =>
                    rw [← hnext] at hprobe ⊢
                    exact h (i + 1) (Nat.succ_pos i) hprobe
          · intro h i hi0 hprobe
            rw [hnext] at hprobe ⊢
            exact h (i + 1) (Nat.succ_pos i) hprobe
      · have hzero : hi = 0 := Nat.eq_zero_of_not_pos hpos
        subst hzero
        refine iff_of_true rfl fun i hi0 hprobe => ?_
        have hsmall : 1 < 2 ^ i := Nat.one_lt_two_pow (Nat.pos_iff_ne_zero.mp hi0)
        rw [Nat.div_eq_of_lt (by omega)] at hprobe
        exact absurd hprobe (lt_irrefl 0)

end Bisect

/-
  File:      IronCrab/Lib/Ladder.lean
  Subject:   AN INPUT SPENT ON A LADDER OF OFFERS. Nothing here names a program.

  An offer holds a stock, pays an output for an input and asks an input for an output; asking and
  paying are adjoint. An input goes from offer to offer: an offer that has more than it pays keeps
  the whole input, one that has less gives its stock for what that costs.

  * `charge_le`, `costs_out_le_charge` -- a fill is affordable and not below cost;
  * `left_add_spent` -- what is spent and what is left;
  * `drained_or_pays_zero` -- what a leftover says about every offer it passed;
  * **`total_mono`** -- where later offers pay no more, a greater input is never paid less;
  * `Refuses`, `Absorbed` -- a ladder some of whose places have no price, and payments with a limit:
    which inputs it refuses (`refuses_mono`) and which it takes whole (`absorbed_iff`).
-/
import Mathlib.Order.GaloisConnection.Defs
import Mathlib.Algebra.GroupWithZero.Nat
import Mathlib.Algebra.Order.BigOperators.Group.List
import Mathlib.Algebra.Order.Group.Nat
import Mathlib.Data.List.ReduceOption

/-- What can be bought at one price. -/
structure Offer where
  stock : Nat
  pays : Nat → Nat
  costs : Nat → Nat
  adjoint : GaloisConnection costs pays

namespace Offer

variable (o : Offer)

/-! ## 1. One offer -/

/-- What an input gets. -/
def out (r : Nat) : Nat := min (o.pays r) o.stock

/-- What it is charged. -/
def charge (r : Nat) : Nat :=
  if o.out r = 0 then 0 else if o.out r = o.pays r then r else o.costs (o.out r)

variable {o} {r s : Nat}

theorem pays_mono (h : r ≤ s) : o.pays r ≤ o.pays s := o.adjoint.monotone_u h

theorem out_le_stock : o.out r ≤ o.stock := Nat.min_le_right _ _

theorem costs_out_le : o.costs (o.out r) ≤ r := (o.adjoint _ _).mpr (Nat.min_le_left _ _)

/-- **An offer charges no more than the input.** -/
theorem charge_le : o.charge r ≤ r := by
  unfold charge
  split
  · exact Nat.zero_le r
  · split
    · exact le_rfl
    · exact costs_out_le

/-- **An offer charges the whole input or at least the cost.** -/
theorem costs_out_le_charge : o.charge r = r ∨ o.costs (o.out r) ≤ o.charge r := by
  unfold charge
  split
  · next h =>
      rw [h]
      exact .inr ((o.adjoint 0 0).mpr (Nat.zero_le _))
  · split
    · exact .inl rfl
    · exact .inr le_rfl

theorem out_of_pays_zero (h : o.pays r = 0) : o.out r = 0 := by
  unfold out
  rw [h, Nat.zero_min]

theorem charge_of_pays_zero (h : o.pays r = 0) : o.charge r = 0 := if_pos (out_of_pays_zero h)

/-- An offer that has more than it pays keeps the whole input. -/
theorem charge_of_le_stock (hpos : 0 < o.pays r) (h : o.pays r ≤ o.stock) : o.charge r = r := by
  have hout : o.out r = o.pays r := Nat.min_eq_left h
  unfold charge
  rw [hout, if_neg hpos.ne', if_pos rfl]

theorem costs_zero : o.costs 0 = 0 := Nat.le_zero.mp ((o.adjoint 0 0).mpr (Nat.zero_le _))

/-- An offer that has less gives its stock for what that costs. -/
theorem charge_of_stock_lt (h : o.stock < o.pays r) : o.charge r = o.costs o.stock := by
  have hout : o.out r = o.stock := Nat.min_eq_right h.le
  unfold charge
  rw [hout, if_neg h.ne]
  split
  · next hzero => rw [hzero, costs_zero]
  · rfl

/-! ### One price -/

/-- A price `a / b`: what is paid is rounded down, what is asked is rounded up. -/
def ratio (stock : Nat) {a b : Nat} (ha : 0 < a) (hb : 0 < b) : Offer where
  stock := stock
  pays r := r * a / b
  costs n := (n * b + (a - 1)) / a
  adjoint := fun n r => by
    rw [Nat.le_div_iff_mul_le hb, Nat.div_le_iff_le_mul_add_pred ha, Nat.mul_comm a r]
    omega

end Offer

namespace Ladder

/-! ## 2. From offer to offer -/

/-- What the input gets on the way. -/
def total : List Offer → Nat → Nat
  | [], _ => 0
  | o :: os, r => if r = 0 then 0 else o.out r + total os (r - o.charge r)

/-- What is left of it. -/
def left : List Offer → Nat → Nat
  | [], r => r
  | o :: os, r => if r = 0 then 0 else left os (r - o.charge r)

/-- The offers it comes to, with what is left of it there. -/
def visits : List Offer → Nat → List (Offer × Nat)
  | [], _ => []
  | o :: os, r => if r = 0 then [] else (o, r) :: visits os (r - o.charge r)

theorem visits_zero : ∀ os : List Offer, visits os 0 = []
  | [] => rfl
  | _ :: _ => rfl

theorem total_eq_sum : ∀ (os : List Offer) (r : Nat),
    total os r = ((visits os r).map fun v => v.1.out v.2).sum
  | [], _ => rfl
  | o :: os, r => by
      unfold total visits
      split
      · rfl
      · rw [total_eq_sum os, List.map_cons, List.sum_cons]

/-- **What is spent and what is left** are the input. -/
theorem left_add_spent : ∀ (os : List Offer) (r : Nat),
    left os r + ((visits os r).map fun v => v.1.charge v.2).sum = r
  | [], r => Nat.add_zero r
  | o :: os, r => by
      unfold left visits
      split
      · next h => exact h.symm
      · rw [List.map_cons, List.sum_cons, Nat.add_left_comm, left_add_spent os (r - o.charge r)]
        exact Nat.add_sub_of_le Offer.charge_le

theorem left_zero : ∀ os : List Offer, left os 0 = 0
  | [] => rfl
  | _ :: _ => rfl

theorem left_le (os : List Offer) (r : Nat) : left os r ≤ r := by
  have h := left_add_spent os r
  omega

/-- **An offer that leaves something of the input** has given its stock or pays nothing for it. -/
theorem drained_or_pays_zero : ∀ {os : List Offer} {r : Nat}, 0 < left os r →
    ∀ v ∈ visits os r, v.1.out v.2 = v.1.stock ∨ v.1.pays (left os r) = 0
  | [], _, _, v, h => absurd h List.not_mem_nil
  | o :: os, r, hleft, v, h => by
      unfold visits at h
      unfold left at hleft ⊢
      split at h
      · cases h
      · next hr =>
          rw [if_neg hr] at hleft ⊢
          rcases List.mem_cons.mp h with rfl | h
          · rcases Nat.lt_or_ge (o.pays r) o.stock with hlt | hge
            · -- what is paid in full keeps the whole input
              have hzero : o.pays r = 0 := by
                by_contra hpos
                rw [Offer.charge_of_le_stock (Nat.pos_of_ne_zero hpos) hlt.le, Nat.sub_self,
                  left_zero] at hleft
                exact lt_irrefl 0 hleft
              have hle : left os (r - o.charge r) ≤ r := (left_le os _).trans (Nat.sub_le _ _)
              exact .inr (Nat.le_zero.mp ((Offer.pays_mono hle).trans hzero.le))
            · exact .inl (Nat.min_eq_right hge)
          · exact drained_or_pays_zero hleft v h

/-! ## 3. A greater input -/

/-- Later offers pay no more. -/
def Worsening (os : List Offer) : Prop := os.Pairwise fun o o' => ∀ r, o'.pays r ≤ o.pays r

theorem total_zero : ∀ os : List Offer, total os 0 = 0
  | [] => rfl
  | _ :: _ => rfl

theorem total_of_pays_zero : ∀ {os : List Offer} {r : Nat}, (∀ o ∈ os, o.pays r = 0) →
    total os r = 0
  | [], _, _ => rfl
  | o :: os, r, h => by
      have ho := h o List.mem_cons_self
      unfold total
      rw [Offer.out_of_pays_zero ho, Offer.charge_of_pays_zero ho, Nat.sub_zero, Nat.zero_add,
        total_of_pays_zero fun o' ho' => h o' (List.mem_cons_of_mem _ ho'), ite_self]

theorem left_of_pays_zero : ∀ {os : List Offer} {r : Nat}, (∀ o ∈ os, o.pays r = 0) →
    left os r = r
  | [], _, _ => rfl
  | o :: os, r, h => by
      have ho := h o List.mem_cons_self
      unfold left
      rw [Offer.charge_of_pays_zero ho, Nat.sub_zero,
        left_of_pays_zero fun o' ho' => h o' (List.mem_cons_of_mem _ ho')]
      split
      · next hr => exact hr.symm
      · rfl

/-- **A greater input is never paid less.** -/
theorem total_mono : ∀ {os : List Offer}, Worsening os → ∀ {r s : Nat}, r ≤ s →
    total os r ≤ total os s
  | [], _, _, _, _ => le_rfl
  | o :: os, h, r, s, hrs => by
      obtain ⟨hworse, htail⟩ := List.pairwise_cons.mp h
      unfold total
      by_cases hr : r = 0
      · rw [if_pos hr]
        exact Nat.zero_le _
      · have hs : s ≠ 0 := by omega
        rw [if_neg hr, if_neg hs]
        have hpays : o.pays r ≤ o.pays s := Offer.pays_mono hrs
        by_cases hzero : o.pays r = 0
        · -- the smaller input is paid nothing further on either
          have hrest : total os (r - o.charge r) = 0 := by
            rw [Offer.charge_of_pays_zero hzero]
            exact total_of_pays_zero fun o' ho' => Nat.le_zero.mp ((hworse o' ho' r).trans hzero.le)
          rw [Offer.out_of_pays_zero hzero, hrest]
          exact Nat.zero_le _
        · by_cases hfull : o.pays r ≤ o.stock
          · -- the smaller input ends here
            have hout : o.out r ≤ o.out s :=
              Nat.le_min.mpr ⟨(Nat.min_le_left _ _).trans hpays, Nat.min_le_right _ _⟩
            rw [Offer.charge_of_le_stock (Nat.pos_of_ne_zero hzero) hfull, Nat.sub_self]
            have hend : total os 0 = 0 := total_zero os
            omega
          · -- both drain the offer
            have hstock : o.stock < o.pays r := Nat.lt_of_not_le hfull
            have hout : o.out r = o.out s :=
              (Nat.min_eq_right hstock.le).trans (Nat.min_eq_right (hstock.le.trans hpays)).symm
            rw [hout, Offer.charge_of_stock_lt hstock,
              Offer.charge_of_stock_lt (hstock.trans_le hpays)]
            exact Nat.add_le_add_left (total_mono htail (Nat.sub_le_sub_right hrs _)) _

/-- An input is paid for if the first offer pays for it. -/
theorem total_pos_iff {o : Offer} {os : List Offer} {r : Nat} (h : Worsening (o :: os))
    (hstock : 0 < o.stock) (hr : 0 < r) : 0 < total (o :: os) r ↔ 0 < o.pays r := by
  unfold total
  rw [if_neg hr.ne']
  constructor
  · intro htotal
    by_contra hpays
    have hzero : o.pays r = 0 := Nat.eq_zero_of_not_pos hpays
    have hrest : total os (r - o.charge r) = 0 := by
      rw [Offer.charge_of_pays_zero hzero]
      exact total_of_pays_zero fun o' ho' =>
        Nat.le_zero.mp (((List.pairwise_cons.mp h).1 o' ho' r).trans hzero.le)
    rw [Offer.out_of_pays_zero hzero, hrest] at htotal
    exact lt_irrefl 0 htotal
  · intro hpays
    have hout : 0 < o.out r := Nat.lt_min.mpr ⟨hpays, hstock⟩
    omega

/-! ## 4. Places without a price, and a limit to what is paid -/

section Limit

variable (limit : Nat)

/-- The input comes to a place without a price or to an offer that would pay too much. -/
inductive Refuses : List (Option Offer) → Nat → Prop where
  | unpriced {os : List (Option Offer)} {r : Nat} (hr : 0 < r) : Refuses (none :: os) r
  | tooMuch {o : Offer} {os : List (Option Offer)} {r : Nat} (hr : 0 < r)
      (h : limit ≤ o.pays r) : Refuses (some o :: os) r
  | pass {o : Offer} {os : List (Option Offer)} {r : Nat} (hr : 0 < r) (h : o.pays r < limit)
      (hrest : Refuses os (r - o.charge r)) : Refuses (some o :: os) r

/-- **The input is taken whole**: it drains some offers, and the next one takes the rest. -/
inductive Absorbed : List (Option Offer) → Nat → Prop where
  | spent {os : List (Option Offer)} : Absorbed os 0
  | last {o : Offer} {os : List (Option Offer)} {r : Nat} (hpos : 0 < o.pays r)
      (hstock : o.pays r ≤ o.stock) (hlimit : o.pays r < limit) : Absorbed (some o :: os) r
  | drain {o : Offer} {os : List (Option Offer)} {r : Nat} (hstock : o.stock < o.pays r)
      (hlimit : o.pays r < limit) (hrest : Absorbed os (r - o.costs o.stock)) :
      Absorbed (some o :: os) r

variable {limit}

theorem not_refuses_zero (os : List (Option Offer)) : ¬ Refuses limit os 0 := by
  intro h
  cases h with
  | unpriced hr => exact lt_irrefl 0 hr
  | tooMuch hr _ => exact lt_irrefl 0 hr
  | pass hr _ _ => exact lt_irrefl 0 hr

/-- Offers that pay nothing refuse nothing. -/
theorem not_refuses_of_pays_zero (hlimit : 0 < limit) : ∀ {os : List Offer} {r : Nat},
    (∀ o ∈ os, o.pays r = 0) → ¬ Refuses limit (os.map some) r
  | [], _, _, h => by cases h
  | o :: os, r, hzero, h => by
      have ho : o.pays r = 0 := hzero o List.mem_cons_self
      cases h with
      | tooMuch _ h => omega
      | pass _ _ hrest =>
          rw [Offer.charge_of_pays_zero ho] at hrest
          exact not_refuses_of_pays_zero hlimit
            (fun o' ho' => hzero o' (List.mem_cons_of_mem _ ho')) hrest

/-- **Where every place has a price**, what is refused stays refused for a greater input. -/
theorem refuses_mono (hlimit : 0 < limit) : ∀ {os : List Offer}, Worsening os → ∀ {r s : Nat},
    r ≤ s → Refuses limit (os.map some) r → Refuses limit (os.map some) s
  | [], _, _, _, _, h => by cases h
  | o :: os, hw, r, s, hrs, h => by
      obtain ⟨hworse, htail⟩ := List.pairwise_cons.mp hw
      have hpays : o.pays r ≤ o.pays s := Offer.pays_mono hrs
      cases h with
      | tooMuch hr h => exact .tooMuch (hr.trans_le hrs) (h.trans hpays)
      | pass hr h hrest =>
          have hs : 0 < s := hr.trans_le hrs
          rcases Nat.lt_or_ge (o.pays s) limit with hfits | hlarge
          · refine .pass hs hfits ?_
            rcases Nat.eq_zero_or_pos (o.pays r) with hzero | hpos
            · rw [Offer.charge_of_pays_zero hzero] at hrest
              exact absurd hrest (not_refuses_of_pays_zero hlimit
                fun o' ho' => Nat.le_zero.mp ((hworse o' ho' r).trans hzero.le))
            · rcases Nat.lt_or_ge o.stock (o.pays r) with hdrained | hfull
              · rw [Offer.charge_of_stock_lt hdrained] at hrest
                rw [Offer.charge_of_stock_lt (hdrained.trans_le hpays)]
                exact refuses_mono hlimit htail (Nat.sub_le_sub_right hrs _) hrest
              · rw [Offer.charge_of_le_stock hpos hfull, Nat.sub_self] at hrest
                exact absurd hrest (not_refuses_zero _)
          · exact .tooMuch hs hlarge

/-- **What is taken whole** is what is not refused and leaves nothing. -/
theorem absorbed_iff : ∀ {os : List (Option Offer)}, Worsening os.reduceOption → ∀ {r : Nat},
    Absorbed limit os r ↔ ¬ Refuses limit os r ∧ left os.reduceOption r = 0
  | [], _, r => by
      constructor
      · intro h
        cases h
        exact ⟨not_refuses_zero _, rfl⟩
      · rintro ⟨_, hleft⟩
        have hzero : r = 0 := hleft
        exact hzero ▸ .spent
  | none :: os, _, r => by
      constructor
      · intro h
        cases h
        exact ⟨not_refuses_zero _, left_zero _⟩
      · rintro ⟨hrefuses, _⟩
        have hzero : r = 0 := Nat.eq_zero_of_not_pos fun hr => hrefuses (.unpriced hr)
        exact hzero ▸ .spent
  | some o :: os, hw, r => by
      rw [List.reduceOption_cons_of_some] at hw ⊢
      obtain ⟨hworse, htail⟩ := List.pairwise_cons.mp hw
      have ih := @absorbed_iff os htail
      constructor
      · intro h
        cases h with
        | spent => exact ⟨not_refuses_zero _, left_zero _⟩
        | last hpos hstock hlimit =>
            have hcharge := Offer.charge_of_le_stock hpos hstock
            refine ⟨fun hrefuses => ?_, ?_⟩
            · cases hrefuses with
              | tooMuch _ h => omega
              | pass _ _ hrest =>
                  rw [hcharge, Nat.sub_self] at hrest
                  exact not_refuses_zero _ hrest
            · unfold left
              rw [hcharge, Nat.sub_self, left_zero, ite_self]
        | drain hstock hlimit hrest =>
            have hcharge := Offer.charge_of_stock_lt hstock
            obtain ⟨hrefuses, hleft⟩ := ih.mp hrest
            refine ⟨fun h => ?_, ?_⟩
            · cases h with
              | tooMuch _ h => omega
              | pass _ _ hrest =>
                  rw [hcharge] at hrest
                  exact hrefuses hrest
            · unfold left
              rw [hcharge, hleft, ite_self]
      · rintro ⟨hrefuses, hleft⟩
        unfold left at hleft
        rcases Nat.eq_zero_or_pos r with rfl | hr
        · exact .spent
        · rw [if_neg hr.ne'] at hleft
          have hlimit : o.pays r < limit :=
            Nat.lt_of_not_le fun hlarge => hrefuses (.tooMuch hr hlarge)
          have hrest : ¬ Refuses limit os (r - o.charge r) :=
            fun hrest => hrefuses (.pass hr hlimit hrest)
          rcases Nat.lt_or_ge o.stock (o.pays r) with hdrained | hfull
          · rw [Offer.charge_of_stock_lt hdrained] at hrest hleft
            exact .drain hdrained hlimit (ih.mpr ⟨hrest, hleft⟩)
          · refine .last (Nat.pos_of_ne_zero fun hzero => ?_) hfull hlimit
            -- the offers behind pay nothing either, and the input is left
            have hkept : left os.reduceOption r = r := left_of_pays_zero fun o' ho' =>
              Nat.le_zero.mp ((hworse o' ho' r).trans hzero.le)
            rw [Offer.charge_of_pays_zero hzero, Nat.sub_zero, hkept] at hleft
            omega

theorem map_some_reduceOption : ∀ {os : List (Option Offer)}, none ∉ os →
    os.reduceOption.map some = os
  | [], _ => rfl
  | none :: os, h => absurd List.mem_cons_self h
  | some o :: os, h => by
      rw [List.reduceOption_cons_of_some, List.map_cons,
        map_some_reduceOption fun hmem => h (List.mem_cons_of_mem _ hmem)]

/-- The first place pays for the input. -/
inductive Pays : List (Option Offer) → Nat → Prop where
  | head {o : Offer} {os : List (Option Offer)} {r : Nat} (hr : 0 < r) (h : 0 < o.pays r) :
      Pays (some o :: os) r

theorem Pays.mono {os : List (Option Offer)} {r s : Nat} (hrs : r ≤ s) (h : Pays os r) :
    Pays os s := by
  cases h with
  | head hr h => exact .head (hr.trans_le hrs) (h.trans_le (Offer.pays_mono hrs))

theorem not_pays_zero (os : List (Option Offer)) : ¬ Pays os 0 := by
  intro h
  cases h with
  | head hr _ => exact lt_irrefl 0 hr

theorem Absorbed.pays {os : List (Option Offer)} {r : Nat} (hr : 0 < r)
    (h : Absorbed limit os r) : Pays os r := by
  cases h with
  | spent => exact absurd hr (lt_irrefl 0)
  | last hpos _ _ => exact .head hr hpos
  | drain hstock _ _ => exact .head hr (Nat.zero_lt_of_lt hstock)

/-- **An input that is not refused** is paid for if the first place pays. -/
theorem total_pos_iff_pays {os : List (Option Offer)} {r : Nat} (hw : Worsening os.reduceOption)
    (hstock : ∀ o ∈ os.reduceOption, 0 < o.stock) (hr : 0 < r) (hok : ¬ Refuses limit os r) :
    0 < total os.reduceOption r ↔ Pays os r := by
  cases os with
  | nil =>
      refine iff_of_false (lt_irrefl 0) fun h => ?_
      cases h
  | cons place os =>
      cases place with
      | none => exact absurd (.unpriced hr) hok
      | some o =>
          rw [List.reduceOption_cons_of_some] at hw hstock ⊢
          rw [total_pos_iff hw (hstock o List.mem_cons_self) hr]
          constructor
          · exact .head hr
          · intro h
            cases h with
            | head _ h => exact h

end Limit

end Ladder

/-
  File:      IronCrab/Solana/BinDepth.lean
  Subject:   HOW MUCH THE LOADED BINS TAKE: which inputs a bin walk quotes, which of them it takes
             whole, and for which it pays, read off the bins ahead without walking them.

  The bins ahead that hold something of the output are a ladder with places: a bin without a price
  is a place without an offer, and what a bin pays is less than `2^64`.

  * `walk_ok_iff` -- the walk ends with a quote exactly if the ladder does not refuse the input;
  * `consumes_iff` -- it leaves nothing exactly if the ladder absorbs the input;
  * **`sells_iff`** -- it pays something exactly if the first bin ahead does.
-/
import IronCrab.Lib.Bisect
import IronCrab.Solana.BinWalker

namespace IronCrab.Solana.BinWalk

namespace BinWalker

/-! ## 1. The places ahead -/

section Places

variable (q : BinWalker) (swapForY : Bool)

/-- The place of a bin that holds something. -/
def placeAt (id : Int) : List (Option Offer) :=
  if q.stockAt swapForY id = 0 then []
  else [(positive (getPriceFromId id q.binStep)).map (binOffer swapForY (q.stockAt swapForY id))]

/-- The places of at most so many ids. -/
def placesFrom : Nat → Int → List (Option Offer)
  | 0, _ => []
  | n + 1, id =>
      if q.past swapForY id then []
      else q.placeAt swapForY id ++ placesFrom n (id + step swapForY)

/-- The places from the active bin on. -/
def places : List (Option Offer) :=
  if q.bins.isEmpty then [] else q.placesFrom swapForY (q.rounds swapForY) q.activeId.toInt

variable {q swapForY}

theorem reduceOption_placeAt (id : Int) :
    (q.placeAt swapForY id).reduceOption = (q.offerAt swapForY id).toList := by
  unfold placeAt offerAt
  by_cases hstock : q.stockAt swapForY id = 0
  · rw [if_pos hstock, if_pos hstock]
    rfl
  · rw [if_neg hstock, if_neg hstock]
    cases positive (getPriceFromId id q.binStep) with
    | none => rfl
    | some p => rfl

theorem reduceOption_placesFrom : ∀ (n : Nat) (id : Int),
    (q.placesFrom swapForY n id).reduceOption = q.ahead swapForY n id
  | 0, _ => rfl
  | n + 1, id => by
      unfold placesFrom ahead
      split
      · rfl
      · rw [List.reduceOption_append, reduceOption_placeAt, reduceOption_placesFrom n]

/-- **The places with a price** are the offers of the walk. -/
theorem reduceOption_places : (q.places swapForY).reduceOption = q.offers swapForY := by
  unfold places offers
  split
  · rfl
  · exact reduceOption_placesFrom _ _

theorem worsening_places : Ladder.Worsening (q.places swapForY).reduceOption :=
  reduceOption_places ▸ worsening_offers

end Places

/-! ## 2. Which inputs are quoted -/

section Quoted

variable {q : BinWalker} {swapForY : Bool}

theorem pays_lt_of_fillAt_ok {w w' : Walk} {maxOut : Nat} {p : Price} (hw : w.Fits)
    (h : fillAt swapForY w maxOut p = .ok w') :
    (binOffer swapForY maxOut p).pays w.remainingIn < 2 ^ 64 := by
  obtain ⟨ideal, hideal, _⟩ := of_bind_ok h
  rw [← getAmountOut_ok hw.remainingIn hideal]
  exact (of_narrow_ok hideal).2

/-- What a round is to the place of its bin: it leaves what the place leaves, or it fails where the
    place refuses. -/
inductive Meets (place : List (Option Offer)) (r : Nat) : Checked Walk → Prop where
  | passes {w : Walk} (h : ∀ os, Ladder.Refuses (2 ^ 64) (place ++ os) r ↔
      Ladder.Refuses (2 ^ 64) os w.remainingIn) : Meets place r (.ok w)
  | fails {f : Failure} (h : ∀ os, Ladder.Refuses (2 ^ 64) (place ++ os) r) :
      Meets place r (.error f)

theorem refuses_cons_iff {o : Offer} {os : List (Option Offer)} {r limit : Nat} (hr : 0 < r)
    (h : o.pays r < limit) :
    Ladder.Refuses limit (some o :: os) r ↔ Ladder.Refuses limit os (r - o.charge r) := by
  constructor
  · intro hrefuses
    cases hrefuses with
    | tooMuch _ hlarge => exact absurd h (Nat.not_lt_of_le hlarge)
    | pass _ _ hrest => exact hrest
  · exact .pass hr h

theorem fillAt_meets {w : Walk} {maxOut : Nat} {p : Price} (hw : w.Fits) (hmax : maxOut < 2 ^ 64)
    (hr : 0 < w.remainingIn) :
    Meets [some (binOffer swapForY maxOut p)] w.remainingIn (fillAt swapForY w maxOut p) := by
  cases h : fillAt swapForY w maxOut p with
  | error f => exact .fails fun os => .tooMuch hr (fillAt_error hw hmax h).2
  | ok w' =>
      rw [fillAt_ok hw hmax h]
      exact .passes fun os => refuses_cons_iff hr (pays_lt_of_fillAt_ok hw h)

/-- **A round meets the place of its bin.** -/
theorem visit_meets {w : Walk} (hw : w.Fits) (hr : 0 < w.remainingIn) :
    Meets (q.placeAt swapForY w.currentId) w.remainingIn (q.visit swapForY w) := by
  unfold visit placeAt
  cases hbin : q.binMap w.currentId with
  | none =>
      have hstock : q.stockAt swapForY w.currentId = 0 := by
        unfold stockAt
        rw [hbin]
        rfl
      rw [if_pos hstock]
      exact .passes fun os => Iff.rfl
  | some amounts =>
      dsimp only
      rw [← visit_eq hbin]
      by_cases hstock : q.stockAt swapForY w.currentId = 0
      · rw [if_pos hstock, if_pos hstock]
        exact .passes fun os => Iff.rfl
      · rw [if_neg hstock, if_neg hstock]
        cases hprice : getPriceFromId w.currentId q.binStep with
        | none => exact .fails fun os => .unpriced hr
        | some price =>
            obtain ⟨p, rfl⟩ : ∃ p : Price, price = p.val := ⟨⟨price, price_pos hprice⟩, rfl⟩
            rw [positive_some]
            exact fillAt_meets hw (stockAt_lt _) hr

/-- **The loop ends with a quote** exactly if the places ahead do not refuse what is left. -/
theorem quoteLoop_ok_iff (hmin : -2 ^ 31 < q.minId) (hmax : q.maxId < 2 ^ 31 - 1) :
    ∀ (n : Nat) {w : Walk}, w.Fits → Arith.InRange 32 w.currentId →
      q.idsLeft swapForY w.currentId < n →
      ((∃ w', q.quoteLoop swapForY n w = .ok w') ↔
        ¬ Ladder.Refuses (2 ^ 64) (q.placesFrom swapForY n w.currentId) w.remainingIn)
  | 0, _, _, _, hn => absurd hn (Nat.not_lt_zero _)
  | n + 1, w, hw, hid, hn => by
      unfold quoteLoop placesFrom
      by_cases hr : w.remainingIn = 0
      · rw [if_pos hr, hr]
        exact iff_of_true ⟨w, rfl⟩ (Ladder.not_refuses_zero _)
      · rw [if_neg hr]
        by_cases hpast : q.past swapForY w.currentId = true
        · rw [if_pos hpast, if_pos hpast]
          exact iff_of_true ⟨w, rfl⟩ fun h => by cases h
        · rw [if_neg hpast, if_neg hpast]
          have hnext := idsLeft_step hmin hmax hid hpast hn
          have hmeets := @visit_meets q swapForY w hw (Nat.pos_of_ne_zero hr)
          cases hvisit : q.visit swapForY w with
          | error f =>
              rw [hvisit] at hmeets
              cases hmeets with
              | fails h =>
                  refine iff_of_false (fun hok => ?_) (not_not_intro (h _))
                  obtain ⟨_, hok⟩ := hok
                  cases hok
          | ok w₁ =>
              have hw₁ := visit_fits hw hvisit
              rw [hvisit] at hmeets
              cases hmeets with
              | passes h =>
                  rw [ok_bind, h, hw₁.2, if_pos hnext.1]
                  by_cases hr₁ : w₁.remainingIn = 0
                  · rw [if_pos hr₁, hr₁]
                    exact iff_of_true ⟨w₁, rfl⟩ (Ladder.not_refuses_zero _)
                  · rw [if_neg hr₁]
                    have hfits : Walk.Fits { w₁ with currentId := w.currentId + step swapForY } :=
                      ⟨hw₁.1.remainingIn, hw₁.1.totalOut⟩
                    exact quoteLoop_ok_iff hmin hmax n hfits hnext.1 hnext.2

variable {amountIn : UInt64} {feeBps : UInt32}

/-- **An input is quoted** exactly if the places ahead do not refuse it. -/
theorem walk_ok_iff (hq : q.Inside) :
    (∃ w, q.walk swapForY amountIn feeBps = .ok w) ↔
      amountIn ≠ 0 ∧ ¬ Ladder.Refuses (2 ^ 64) (q.places swapForY) (afterFee amountIn feeBps) := by
  unfold walk places
  by_cases hzero : amountIn = 0
  · rw [if_pos hzero]
    refine iff_of_false (fun h => ?_) fun h => h.1 hzero
    obtain ⟨_, h⟩ := h
    cases h
  · rw [if_neg hzero]
    dsimp only
    by_cases hfee : afterFee amountIn feeBps = 0
    · rw [if_pos hfee, hfee]
      exact iff_of_true ⟨_, rfl⟩ ⟨hzero, Ladder.not_refuses_zero _⟩
    · rw [if_neg hfee]
      split
      · exact iff_of_true ⟨_, rfl⟩ ⟨hzero, fun h => by cases h⟩
      · next hempty =>
          obtain ⟨hmin, hmax⟩ := hq.ends hempty
          have hloop := @quoteLoop_ok_iff q swapForY hmin hmax (q.rounds swapForY) _
            (@fits_start q amountIn feeBps) (inRange_activeId q) (Nat.lt_succ_self _)
          rw [hloop]
          exact (and_iff_right hzero).symm

end Quoted

/-! ## 3. What is taken whole, and what is paid for -/

section Taken

variable (q : BinWalker) (swapForY : Bool) (amountIn : UInt64) (feeBps : UInt32)

/-- The walk quotes the input and leaves nothing of it. -/
def Consumes : Prop := ∃ w, q.walk swapForY amountIn feeBps = .ok w ∧ w.remainingIn = 0

/-- The walk quotes the input and pays something. -/
def Sells : Prop := ∃ w, q.walk swapForY amountIn feeBps = .ok w ∧ 0 < w.totalOut

variable {q swapForY amountIn feeBps}

/-- **A quote leaves nothing** exactly if the places ahead absorb the input. -/
theorem consumes_iff (hq : q.Inside) :
    q.Consumes swapForY amountIn feeBps ↔
      amountIn ≠ 0 ∧ Ladder.Absorbed (2 ^ 64) (q.places swapForY) (afterFee amountIn feeBps) := by
  rw [Ladder.absorbed_iff worsening_places, ← and_assoc, ← walk_ok_iff hq, reduceOption_places]
  constructor
  · rintro ⟨w, hw, hleft⟩
    exact ⟨⟨w, hw⟩, (walk_ok hw).remainingIn.symm.trans hleft⟩
  · rintro ⟨⟨w, hw⟩, hleft⟩
    exact ⟨w, hw, (walk_ok hw).remainingIn.trans hleft⟩

theorem stock_pos_of_mem {o : Offer} (h : o ∈ q.offers swapForY) : 0 < o.stock := by
  unfold offers at h
  split at h
  · cases h
  · obtain ⟨id, _, ho⟩ := of_mem_ahead _ h
    obtain ⟨hstock, p, _, rfl⟩ := of_offerAt ho
    exact Nat.pos_of_ne_zero hstock

/-- **A quote pays something** exactly if the input is not refused and the first place pays. -/
theorem sells_iff (hq : q.Inside) (hfee : 0 < afterFee amountIn feeBps) :
    q.Sells swapForY amountIn feeBps ↔
      amountIn ≠ 0 ∧ ¬ Ladder.Refuses (2 ^ 64) (q.places swapForY) (afterFee amountIn feeBps) ∧
        Ladder.Pays (q.places swapForY) (afterFee amountIn feeBps) := by
  rw [← and_assoc, ← walk_ok_iff hq]
  have htotal : ∀ {w}, q.walk swapForY amountIn feeBps = .ok w →
      (0 < w.totalOut ↔ Ladder.Pays (q.places swapForY) (afterFee amountIn feeBps)) := by
    intro w hw
    rw [← Ladder.total_pos_iff_pays worsening_places
      (fun o ho => stock_pos_of_mem (reduceOption_places ▸ ho)) hfee
      ((walk_ok_iff hq).mp ⟨w, hw⟩).2,
      (walk_ok hw).totalOut, reduceOption_places]
    unfold Arith.satAdd Arith.maxU
    dsimp only
    omega
  constructor
  · rintro ⟨w, hw, hout⟩
    exact ⟨⟨w, hw⟩, (htotal hw).mp hout⟩
  · rintro ⟨⟨w, hw⟩, hpays⟩
    exact ⟨w, hw, (htotal hw).mpr hpays⟩

end Taken

end BinWalker

end IronCrab.Solana.BinWalk

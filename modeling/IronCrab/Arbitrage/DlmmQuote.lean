/-
  File:      IronCrab/Arbitrage/DlmmQuote.lean
  Subject:   QUOTES ON LOADED DLMM BINS (`pool_quote.rs`): the output of a buy and of a sell, and
             the cap that the sell of a round trip puts on its input.

  Reading of the source's data:

  * the bin arrays are a map by index (an `AList`); an index of one array and the offset of a bin
    make its id;
  * an operation that overflows panics; `none` around a result is a panic;
  * a quote is a full fill if the walk leaves nothing of the input after the fee (`Consumes`).

  The walk returns what it paid and keeps to itself what it left; the cap searches, up to the sum of
  what the bins hold of the token, for the last input that is paid for. Neither asks what is left.

  * `output_full_iff` -- an output is that of a full fill exactly if the bins absorb the input
    wherever they pay for it;
  * `dlmmMaxSellTokenIn_spec` -- what the search for the cap finds;
  * **`full_fill_iff`** -- when a quote and the cap are full fills; `partial_fill` -- a sell of 500
    of which the bins take 10.
-/
import IronCrab.Solana.BinDepth
import Mathlib.Data.List.AList

namespace IronCrab.Arbitrage

open Solana.BinWalk (Bin BinWalker Checked Failure walkerFromBins dlmmFeeBps)

/-! ## 1. The bins of the arrays -/

/-- `BinData`. -/
structure BinData where
  offset : UInt8
  amountX : UInt64
  amountY : UInt64
  deriving DecidableEq

/-- `DlmmBinArrays`. -/
abbrev DlmmBinArrays := AList fun _ : Int => List BinData

/-- A bin under its id: computed in an `i64`, then cut to an `i32`. -/
def binAt (arrayIdx : Int) (b : BinData) : Option Bin := do
  let first ← Arith.fitInt true 64 (arrayIdx * 70)
  let id ← Arith.fitInt true 64 (first + b.offset.toNat)
  some ⟨Arith.truncInt 32 id, b.amountX, b.amountY⟩

/-- `flatten_bins_for_walker`. -/
def flattenBinsForWalker (binArrays : DlmmBinArrays) : Option (List Bin) :=
  ((binArrays.entries.flatMap fun a => a.2.map fun b => (a.1, b)).mapM fun e => binAt e.1 e.2).map
    (List.insertionSort fun a b => a.id ≤ b.id)

/-- `active_bin_present`. -/
def activeBinPresent (activeId : Int32) (flatBins : List Bin) : Bool :=
  flatBins.any fun b => b.id = activeId.toInt

/-! ## 2. Outputs -/

/-- `.ok()` of a quote: an error is no quote, an overflow or an endless loop no answer. -/
def quoteOk {A : Type} : Checked A → Option (Option A)
  | .ok a => some (some a)
  | .error (.error _) => some none
  | .error _ => none

/-- What both outputs do, in one direction of the walk. -/
def outputFromBins (activeId : Int32) (binStep : UInt16) (amountIn : UInt64)
    (binArrays : DlmmBinArrays) (swapForY : Bool) : Option (Option Nat) :=
  if binStep = 0 ∨ binArrays.entries.isEmpty ∨ amountIn = 0 then some none
  else do
    let flatBins ← flattenBinsForWalker binArrays
    if activeBinPresent activeId flatBins then
      let walker := walkerFromBins activeId binStep flatBins
      let feeBps := dlmmFeeBps binStep
      let quote ← quoteOk (if swapForY then walker.quoteXToY amountIn feeBps
        else walker.quoteYToX amountIn feeBps)
      some (quote.bind fun result => if result.1 = 0 then none else some result.1)
    else some none

/-- `dlmm_token_output_from_bins` (SOL to token). -/
def dlmmTokenOutputFromBins (activeId : Int32) (binStep : UInt16) (solInLamports : UInt64)
    (binArrays : DlmmBinArrays) (solIsX : Bool) : Option (Option Nat) :=
  outputFromBins activeId binStep solInLamports binArrays solIsX

/-- `dlmm_sol_output_from_bins` (token to SOL). -/
def dlmmSolOutputFromBins (activeId : Int32) (binStep : UInt16) (tokenIn : UInt64)
    (binArrays : DlmmBinArrays) (solIsX : Bool) : Option (Option Nat) :=
  outputFromBins activeId binStep tokenIn binArrays (!solIsX)

/-! ## 3. The cap of a sell -/

/-- The test of the search: the input is quoted and paid for. -/
def paidFor (walker : BinWalker) (swapForY : Bool) (feeBps : UInt32) (mid : Nat) : Option Bool :=
  (quoteOk (if swapForY then walker.quoteXToY (.ofNat mid) feeBps
    else walker.quoteYToX (.ofNat mid) feeBps)).map fun quote =>
      quote.any fun result => 0 < result.1

/-- What the bins hold of the token. -/
def tokenSide (solIsX : Bool) (flatBins : List Bin) : Nat :=
  (flatBins.map fun b => (if solIsX then b.amountY else b.amountX).toNat).sum

/-- `dlmm_max_sell_token_in`. -/
def dlmmMaxSellTokenIn (activeId : Int32) (binStep : UInt16) (binArrays : DlmmBinArrays)
    (solIsX : Bool) : Option Nat := do
  let flatBins ← flattenBinsForWalker binArrays
  if activeBinPresent activeId flatBins then
    let walker := walkerFromBins activeId binStep flatBins
    let feeBps := dlmmFeeBps binStep
    let sum ← Arith.fit true 64 (tokenSide solIsX flatBins)
    let hi := Arith.satAdd 64 sum 1
    if hi = 0 then some 0 else Bisect.last (paidFor walker (!solIsX) feeBps) 0 hi
  else some 0

/-- `cap_sell_token_in` of a DLMM pool. -/
def capSellTokenIn (activeId : Int32) (binStep : UInt16) (binArrays : DlmmBinArrays)
    (solIsX : Bool) (tokenAmountIn : UInt64) : Option Nat :=
  (dlmmMaxSellTokenIn activeId binStep binArrays solIsX).map fun maxIn =>
    if 0 < maxIn ∧ maxIn < tokenAmountIn.toNat then maxIn else tokenAmountIn.toNat

/-- What `executable_marginal_quote` asks besides the output: that the state is fresh, and that the
    price of an input and an output is plausible. -/
structure QuoteChecks where
  stateFresh : Bool
  marginalOk : Nat → Nat → Bool

/-- `quote_sell_exact_in_with_cap` of a DLMM pool: the input and the output it reports. -/
def quoteSellExactInWithCap (checks : QuoteChecks) (activeId : Int32) (binStep : UInt16)
    (binArrays : DlmmBinArrays) (solIsX : Bool) (tokenAmountIn : UInt64) :
    Option (Option (Nat × Nat)) := do
  let capped ← capSellTokenIn activeId binStep binArrays solIsX tokenAmountIn
  if capped = 0 ∨ checks.stateFresh = false then some none
  else
    let amountOut ← dlmmSolOutputFromBins activeId binStep (.ofNat capped) binArrays solIsX
    some (amountOut.bind fun amountOut =>
      if checks.marginalOk capped amountOut then some (capped, amountOut) else none)

/-! ## 4. What a full fill is -/

/-- A quote on loaded bins of different ids, the active one among them. -/
structure DlmmRequest where
  activeId : Int32
  binStep : UInt16
  binArrays : DlmmBinArrays
  solIsX : Bool
  amount : UInt64
  step_pos : binStep ≠ 0
  distinct : ∀ flat ∈ flattenBinsForWalker binArrays, (flat.map (·.id)).Nodup
  present : ∀ flat ∈ flattenBinsForWalker binArrays, activeBinPresent activeId flat = true

namespace DlmmRequest

variable (R : DlmmRequest)

def walker (flat : List Bin) : BinWalker := walkerFromBins R.activeId R.binStep flat

def feeBps : UInt32 := dlmmFeeBps R.binStep

/-- The walk quotes the input and leaves nothing of it. -/
def Consumes (swapForY : Bool) (amount : UInt64) : Prop :=
  amount = 0 ∨ ∃ flat, flattenBinsForWalker R.binArrays = some flat ∧
    (R.walker flat).Consumes swapForY amount R.feeBps

def cap : Option Nat := capSellTokenIn R.activeId R.binStep R.binArrays R.solIsX R.amount

/-- **Every quote is a full fill**, and the cap lets through what the bins absorb. -/
structure FullFill : Prop where
  token : ∀ out, dlmmTokenOutputFromBins R.activeId R.binStep R.amount R.binArrays R.solIsX =
    some (some out) → R.Consumes R.solIsX R.amount
  sol : ∀ out, dlmmSolOutputFromBins R.activeId R.binStep R.amount R.binArrays R.solIsX =
    some (some out) → R.Consumes (!R.solIsX) R.amount
  answers : ∃ capped, R.cap = some capped
  requested : ∀ capped, R.cap = some capped → R.Consumes (!R.solIsX) R.amount →
    capped = R.amount.toNat
  otherwise : ∀ capped, R.cap = some capped → ¬ R.Consumes (!R.solIsX) R.amount →
    R.Consumes (!R.solIsX) (.ofNat capped)
  reported : ∀ checks pair, quoteSellExactInWithCap checks R.activeId R.binStep R.binArrays
    R.solIsX R.amount = some (some pair) → ∃ flat w,
      flattenBinsForWalker R.binArrays = some flat ∧
      (R.walker flat).walk (!R.solIsX) (.ofNat pair.1) R.feeBps = .ok w ∧
      w.remainingIn = 0 ∧ w.totalOut = pair.2

/-! ### A partial fill -/

/-- One bin with 10 of SOL and 1000 of the token; 500 of the token are to be sold. -/
def shallow : DlmmRequest where
  activeId := 0
  binStep := 10
  binArrays := AList.singleton 0 [⟨0, 10, 1000⟩]
  solIsX := true
  amount := 500
  step_pos := by decide
  distinct := by decide +kernel
  present := by decide +kernel

theorem shallow_walk : (shallow.walker [⟨0, 10, 1000⟩]).walk false 500 shallow.feeBps =
    .ok ⟨489, 10, 1, 1, [⟨0, Solana.BinWalk.one, 10, 499, 10, 10⟩]⟩ := by
  decide +kernel

/-- **A quote is not always a full fill.** -/
theorem partial_fill : ¬ shallow.FullFill := fun h => by
  have hout : dlmmSolOutputFromBins 0 10 500 shallow.binArrays true = some (some 10) := by
    decide +kernel
  have hflat : flattenBinsForWalker shallow.binArrays = some [⟨0, 10, 1000⟩] := by
    decide +kernel
  rcases h.sol 10 hout with hzero | ⟨flat, hf, w, hw, hleft⟩
  · exact absurd hzero (by decide)
  · cases hf.symm.trans hflat
    cases hw.symm.trans shallow_walk
    exact absurd hleft (by decide)

/-! ## 5. Inputs, on the bins ahead -/

section Ladder

variable (flat : List Bin) (swapForY : Bool)

/-- What the fee leaves of an input. -/
def net (amount : Nat) : Nat := amount - amount * R.feeBps.toNat / 10000

/-- The bins ahead absorb the input. -/
def Absorbs (amount : Nat) : Prop :=
  Ladder.Absorbed (2 ^ 64) ((R.walker flat).places swapForY) (R.net amount)

/-- The bins ahead pay for the input: none of them refuses it, and the first pays. -/
def PaysFor (amount : Nat) : Prop :=
  ¬ Ladder.Refuses (2 ^ 64) ((R.walker flat).places swapForY) (R.net amount) ∧
    Ladder.Pays ((R.walker flat).places swapForY) (R.net amount)

variable {R flat swapForY}

theorem feeBps_le : R.feeBps.toNat ≤ 110 := by
  unfold feeBps dlmmFeeBps
  have hle : (min R.binStep.toUInt32 100).toNat ≤ 100 := by
    change (if R.binStep.toUInt32 ≤ 100 then R.binStep.toUInt32 else 100).toNat ≤ 100
    split
    · next h => exact UInt32.le_iff_toNat_le.mp h
    · exact le_rfl
  rw [UInt32.toNat_add]
  exact (Nat.mod_le _ _).trans (Nat.add_le_add_left hle 10)

theorem afterFee_eq_net (amount : UInt64) :
    BinWalker.afterFee amount R.feeBps = R.net amount.toNat :=
  Solana.BinWalk.afterFee_eq (feeBps_le.trans (by decide)) amount

theorem net_pos {amount : Nat} (h : 0 < amount) : 0 < R.net amount := by
  have hfee : amount * R.feeBps.toNat ≤ amount * 110 := Nat.mul_le_mul_left amount feeBps_le
  unfold net
  omega

theorem net_mono {a b : Nat} (hab : a ≤ b) : R.net a ≤ R.net b := by
  obtain ⟨d, rfl⟩ := Nat.exists_eq_add_of_le hab
  have hfee : d * R.feeBps.toNat ≤ d * 10000 :=
    Nat.mul_le_mul_left d (feeBps_le.trans (by decide))
  unfold net
  rw [Nat.add_mul]
  omega

theorem pos_of_paysFor {amount : Nat} (h : R.PaysFor flat swapForY amount) : 0 < amount := by
  refine Nat.pos_of_ne_zero fun hzero => ?_
  subst hzero
  have hnet : R.net 0 = 0 := Nat.zero_sub _
  have hpays := h.2
  rw [hnet] at hpays
  exact Ladder.not_pays_zero _ hpays

theorem PaysFor.of_absorbs {amount : Nat} (hpos : 0 < amount)
    (h : R.Absorbs flat swapForY amount) : R.PaysFor flat swapForY amount := by
  refine ⟨(Ladder.absorbed_iff BinWalker.worsening_places |>.mp h).1, ?_⟩
  exact h.pays (net_pos hpos)

/-- What is paid for has no gaps where every place has a price. -/
theorem gapless_of_priced {hi : Nat} (h : none ∉ (R.walker flat).places swapForY) :
    Bisect.Gapless (R.PaysFor flat swapForY) hi := fun x y z hxy hyz _ hx hz => by
  have hplaces := Ladder.map_some_reduceOption h
  refine ⟨fun hrefuses => hz.1 ?_, hx.2.mono (net_mono hxy)⟩
  rw [← hplaces] at hrefuses ⊢
  exact Ladder.refuses_mono (by decide) BinWalker.worsening_places (net_mono hyz) hrefuses

end Ladder

/-! ## 6. Outputs and the search -/

/-- A quote that an `ok` keeps is that of a walk; what it drops is an error. -/
theorem quoteOk_quote {q : BinWalker} (hq : q.Inside) (swapForY : Bool) (amount : UInt64)
    (feeBps : UInt32) :
    (∃ w, q.walk swapForY amount feeBps = .ok w ∧
        quoteOk (if swapForY then q.quoteXToY amount feeBps else q.quoteYToX amount feeBps) =
          some (some (w.totalOut, w.binsCrossed, feeBps))) ∨
      (∀ w, q.walk swapForY amount feeBps ≠ .ok w) ∧
        quoteOk (if swapForY then q.quoteXToY amount feeBps else q.quoteYToX amount feeBps) =
          some none := by
  have hquote : (if swapForY then q.quoteXToY amount feeBps else q.quoteYToX amount feeBps) =
      q.quoteExactIn swapForY amount feeBps := by
    cases swapForY with
    | true => rfl
    | false => rfl
  rw [hquote]
  unfold BinWalker.quoteExactIn
  cases hw : q.walk swapForY amount feeBps with
  | ok w => exact .inl ⟨w, rfl, rfl⟩
  | error f =>
      obtain ⟨text, rfl⟩ := BinWalker.walk_error hq hw
      exact .inr ⟨nofun, rfl⟩

/-- A request whose bins are loaded: no id overflows, and none is at an end of the ids. -/
structure Loaded (R : DlmmRequest) (flat : List Bin) : Prop where
  flattened : flattenBinsForWalker R.binArrays = some flat
  inside : ∀ b ∈ flat, -2 ^ 31 < b.id ∧ b.id < 2 ^ 31 - 1

namespace Loaded

variable {R : DlmmRequest} {flat : List Bin} {swapForY : Bool} {amount : UInt64}

theorem walker_inside (h : R.Loaded flat) : (R.walker flat).Inside := fun b hb =>
  h.inside b (Solana.BinWalk.walkerFromBins_mem hb)

theorem entries_ne_nil (h : R.Loaded flat) : ¬ R.binArrays.entries.isEmpty = true := by
  intro hempty
  have hpresent := R.present flat h.flattened
  have hflat := h.flattened
  unfold flattenBinsForWalker at hflat
  rw [List.isEmpty_iff.mp hempty] at hflat
  cases hflat
  cases hpresent

theorem consumes_iff (h : R.Loaded flat) :
    R.Consumes swapForY amount ↔ R.Absorbs flat swapForY amount.toNat := by
  unfold Consumes Absorbs
  rw [h.flattened, ← afterFee_eq_net]
  by_cases hzero : amount = 0
  · subst hzero
    have hnet : R.net (0 : UInt64).toNat = 0 := Nat.zero_sub _
    rw [afterFee_eq_net, hnet]
    exact iff_of_true (.inl rfl) .spent
  · constructor
    · rintro (habs | ⟨flat', hflat, hconsumes⟩)
      · exact absurd habs hzero
      · cases hflat
        exact ((BinWalker.consumes_iff h.walker_inside).mp hconsumes).2
    · intro habsorbed
      exact .inr ⟨flat, rfl, (BinWalker.consumes_iff h.walker_inside).mpr ⟨hzero, habsorbed⟩⟩

theorem sells_iff (h : R.Loaded flat) :
    (R.walker flat).Sells swapForY amount R.feeBps ↔ R.PaysFor flat swapForY amount.toNat := by
  by_cases hzero : amount = 0
  · subst hzero
    refine iff_of_false ?_ fun hpays => absurd (pos_of_paysFor hpays) (lt_irrefl 0)
    rintro ⟨w, hw, _⟩
    cases hw
  · have hpos : 0 < amount.toNat := Nat.pos_of_ne_zero fun h0 =>
      hzero (UInt64.toNat_inj.mp h0)
    have hnet : 0 < BinWalker.afterFee amount R.feeBps := by
      rw [afterFee_eq_net]
      exact net_pos hpos
    rw [BinWalker.sells_iff h.walker_inside hnet, and_iff_right hzero, afterFee_eq_net]
    exact Iff.rfl

theorem output_eq (h : R.Loaded flat) (hzero : amount ≠ 0) :
    outputFromBins R.activeId R.binStep amount R.binArrays swapForY =
      (quoteOk (if swapForY then (R.walker flat).quoteXToY amount R.feeBps
        else (R.walker flat).quoteYToX amount R.feeBps)).map fun quote =>
          quote.bind fun result => if result.1 = 0 then none else some result.1 := by
  have hnone : ¬ (R.binStep = 0 ∨ R.binArrays.entries.isEmpty = true ∨ amount = 0) := by
    rintro (hstep | hempty | hamount)
    · exact R.step_pos hstep
    · exact h.entries_ne_nil hempty
    · exact hzero hamount
  unfold outputFromBins
  rw [if_neg hnone, h.flattened, Option.bind_eq_bind, Option.bind_some,
    if_pos (R.present flat h.flattened), Option.map_eq_bind]
  rfl

/-- **An output** is what the walk pays. -/
theorem output_iff (h : R.Loaded flat) {out : Nat} :
    outputFromBins R.activeId R.binStep amount R.binArrays swapForY = some (some out) ↔
      ∃ w, (R.walker flat).walk swapForY amount R.feeBps = .ok w ∧ w.totalOut = out ∧ 0 < out := by
  by_cases hzero : amount = 0
  · subst hzero
    unfold outputFromBins
    rw [if_pos (.inr (.inr rfl))]
    refine iff_of_false nofun ?_
    rintro ⟨w, hw, _⟩
    cases hw
  · rw [h.output_eq hzero]
    rcases quoteOk_quote h.walker_inside swapForY amount R.feeBps with
      ⟨w, hw, hquote⟩ | ⟨hw, hquote⟩
    · rw [hquote]
      by_cases hout : w.totalOut = 0
      · refine iff_of_false (fun h => ?_) ?_
        · rw [Option.map_some, Option.bind_some, if_pos hout] at h
          cases h
        · rintro ⟨w', hw', rfl, hpos⟩
          cases hw.symm.trans hw'
          omega
      · rw [Option.map_some, Option.bind_some, if_neg hout]
        constructor
        · intro h
          cases h
          exact ⟨w, hw, rfl, Nat.pos_of_ne_zero hout⟩
        · rintro ⟨w', hw', rfl, _⟩
          cases hw.symm.trans hw'
          rfl
    · rw [hquote]
      refine iff_of_false nofun ?_
      rintro ⟨w, hw', _⟩
      exact hw w hw'

/-- **An output is that of a full fill** exactly if the bins absorb what they pay for. -/
theorem output_full_iff (h : R.Loaded flat) :
    (∀ out, outputFromBins R.activeId R.binStep amount R.binArrays swapForY = some (some out) →
        R.Consumes swapForY amount) ↔
      (R.PaysFor flat swapForY amount.toNat → R.Absorbs flat swapForY amount.toNat) := by
  rw [h.consumes_iff, ← h.sells_iff]
  constructor
  · rintro hfull ⟨w, hw, hout⟩
    exact hfull w.totalOut (h.output_iff.mpr ⟨w, hw, rfl, hout⟩)
  · intro hfull out hout
    obtain ⟨w, hw, rfl, hpos⟩ := h.output_iff.mp hout
    exact hfull ⟨w, hw, hpos⟩

/-- **The test of the search** asks whether the bins pay for the input. -/
theorem paidFor_iff (h : R.Loaded flat) {m : Nat} (hm : m < 2 ^ 64) :
    paidFor (R.walker flat) swapForY R.feeBps m = some true ∧ R.PaysFor flat swapForY m ∨
      paidFor (R.walker flat) swapForY R.feeBps m = some false ∧ ¬ R.PaysFor flat swapForY m := by
  have hsells := @sells_iff R flat swapForY (.ofNat m) h
  rw [UInt64.toNat_ofNat_of_lt' hm] at hsells
  rw [← hsells]
  unfold paidFor
  rcases quoteOk_quote h.walker_inside swapForY (.ofNat m) R.feeBps with
    ⟨w, hw, hquote⟩ | ⟨hw, hquote⟩
  · rw [hquote, Option.map_some, Option.any_some]
    by_cases hout : 0 < w.totalOut
    · exact .inl ⟨congrArg some (decide_eq_true hout), w, hw, hout⟩
    · refine .inr ⟨congrArg some (decide_eq_false hout), ?_⟩
      rintro ⟨w', hw', hout'⟩
      cases hw.symm.trans hw'
      exact hout hout'
  · rw [hquote]
    refine .inr ⟨rfl, ?_⟩
    rintro ⟨w, hw', _⟩
    exact hw w hw'

end Loaded

/-! ## 7. The cap -/

section Cap

variable (R : DlmmRequest) (flat : List Bin)

/-- Where the search for the cap begins. -/
def bound : Nat := Arith.satAdd 64 (tokenSide R.solIsX flat) 1

/-- One of the halves of the interval is paid for. -/
def Found : Prop :=
  ∃ i, 0 < i ∧ 0 < (R.bound flat + 1) / 2 ^ i ∧
    R.PaysFor flat (!R.solIsX) ((R.bound flat + 1) / 2 ^ i)

/-- The greatest input up to the bound that is paid for. -/
structure Greatest (m : Nat) : Prop where
  le_bound : m ≤ R.bound flat
  pays : R.PaysFor flat (!R.solIsX) m
  above : ∀ x, m < x → x ≤ R.bound flat → ¬ R.PaysFor flat (!R.solIsX) x

variable {R flat}

theorem bound_lt : R.bound flat < 2 ^ 64 :=
  (Arith.satAdd_le_maxU _ _).trans_lt (by decide)

theorem bound_pos : 0 < R.bound flat := by
  unfold bound Arith.satAdd Arith.maxU
  omega

theorem Greatest.eq {m m' : Nat} (h : R.Greatest flat m) (h' : R.Greatest flat m') : m = m' := by
  rcases Nat.lt_trichotomy m m' with hlt | heq | hgt
  · exact absurd h'.pays (h.above m' hlt h'.le_bound)
  · exact heq
  · exact absurd h.pays (h'.above m hgt h.le_bound)

/-- The search, once the bins are loaded. -/
theorem Loaded.max_eq (h : R.Loaded flat) :
    dlmmMaxSellTokenIn R.activeId R.binStep R.binArrays R.solIsX =
      if tokenSide R.solIsX flat < 2 ^ 64 then
        Bisect.last (paidFor (R.walker flat) (!R.solIsX) R.feeBps) 0 (R.bound flat)
      else none := by
  unfold dlmmMaxSellTokenIn
  rw [h.flattened, Option.bind_eq_bind, Option.bind_some, if_pos (R.present flat h.flattened)]
  unfold Arith.fit
  by_cases hsum : tokenSide R.solIsX flat < 2 ^ 64
  · rw [if_pos hsum, if_pos hsum]
    exact if_neg bound_pos.ne'
  · rw [if_neg hsum, if_neg hsum]
    rfl

/-- **What the search for the cap finds**: nothing where none of the halves is paid for, and
    otherwise the greatest input that is, if what is paid for has no gaps. -/
theorem Loaded.max_spec (h : R.Loaded flat) (hsum : tokenSide R.solIsX flat < 2 ^ 64)
    (hgap : Bisect.Gapless (R.PaysFor flat (!R.solIsX)) (R.bound flat)) :
    ∃ m, dlmmMaxSellTokenIn R.activeId R.binStep R.binArrays R.solIsX = some m ∧
      (m = 0 ∧ ¬ R.Found flat ∨ 0 < m ∧ R.Found flat ∧ R.Greatest flat m) := by
  have htest := fun x (_ : 0 < x) (hx : x ≤ R.bound flat) =>
    @Loaded.paidFor_iff R flat (!R.solIsX) h x (hx.trans_lt bound_lt)
  have hpass : ∀ x, 0 < x → x ≤ R.bound flat →
      (paidFor (R.walker flat) (!R.solIsX) R.feeBps x = some true ↔
        R.PaysFor flat (!R.solIsX) x) := fun x h0 hx => by
    rcases htest x h0 hx with ⟨e, hq⟩ | ⟨e, hq⟩
    · exact iff_of_true e hq
    · rw [e]
      exact iff_of_false nofun hq
  rw [h.max_eq, if_pos hsum]
  obtain ⟨m, hm⟩ := Bisect.last_isSome fun x h0 hx => by
    rcases htest x h0 hx with ⟨e, _⟩ | ⟨e, _⟩
    · exact e.trans_ne nofun
    · exact e.trans_ne nofun
  refine ⟨m, hm, ?_⟩
  have hzero := Bisect.last_eq_zero_iff (R.bound flat) htest
  rw [hm, Option.some.injEq] at hzero
  by_cases hm0 : m = 0
  · refine .inl ⟨hm0, ?_⟩
    rintro ⟨i, hi, hprobe, hpays⟩
    exact hzero.mp hm0 i hi hprobe hpays
  · have hfound : R.Found flat := by
      by_contra hnone
      exact hm0 (hzero.mpr fun i hi hprobe hpays => hnone ⟨i, hi, hprobe, hpays⟩)
    obtain ⟨_, hle, _⟩ := Bisect.last_spec (Nat.zero_le _) hm
    obtain ⟨hpays, habove⟩ := Bisect.last_greatest (Nat.zero_le _) hpass hgap hm hm0
    exact .inr ⟨Nat.pos_of_ne_zero hm0, hfound, hle, hpays, habove⟩

/-- What the cap lets through of an input, of what the search has found. -/
theorem cap_eq {m : Nat}
    (h : dlmmMaxSellTokenIn R.activeId R.binStep R.binArrays R.solIsX = some m) :
    R.cap = some (if 0 < m ∧ m < R.amount.toNat then m else R.amount.toNat) := by
  unfold cap capSellTokenIn
  rw [h]
  rfl

theorem capped_le {capped : Nat} (h : R.cap = some capped) : capped ≤ R.amount.toNat := by
  unfold cap capSellTokenIn at h
  obtain ⟨m, _, rfl⟩ := Option.map_eq_some_iff.mp h
  split
  · next hm => exact hm.2.le
  · exact le_rfl

theorem toNat_capped {capped : Nat} (h : R.cap = some capped) :
    (UInt64.ofNat capped).toNat = capped :=
  UInt64.toNat_ofNat_of_lt' ((capped_le h).trans_lt R.amount.toNat_lt)

/-- A sell that is reported is one of the capped input. -/
theorem of_quoteSell {checks : QuoteChecks} {capped : Nat} {pair : Nat × Nat}
    (hcap : R.cap = some capped)
    (h : quoteSellExactInWithCap checks R.activeId R.binStep R.binArrays R.solIsX R.amount =
      some (some pair)) :
    outputFromBins R.activeId R.binStep (.ofNat capped) R.binArrays (!R.solIsX) =
      some (some pair.2) ∧ pair.1 = capped := by
  unfold cap at hcap
  unfold quoteSellExactInWithCap at h
  rw [hcap, Option.bind_eq_bind, Option.bind_some] at h
  split at h
  · cases h
  · obtain ⟨out?, hout, h⟩ := Option.bind_eq_some_iff.mp h
    obtain ⟨out, rfl, hpair⟩ := Option.bind_eq_some_iff.mp (Option.some.inj h)
    split at hpair
    · cases hpair
      exact ⟨hout, rfl⟩
    · cases hpair

end Cap

/-! ## 8. When quote and cap are full fills -/

variable (R : DlmmRequest)

/-- The condition, on the bins that are loaded. -/
structure HoldsOn (flat : List Bin) : Prop where
  loaded : R.Loaded flat
  sum_fits : tokenSide R.solIsX flat < 2 ^ 64
  gapless : Bisect.Gapless (R.PaysFor flat (!R.solIsX)) (R.bound flat)
  token : R.PaysFor flat R.solIsX R.amount.toNat → R.Absorbs flat R.solIsX R.amount.toNat
  sol : R.PaysFor flat (!R.solIsX) R.amount.toNat → R.Absorbs flat (!R.solIsX) R.amount.toNat
  /-- An absorbed input is under the bound or the search finds nothing; one that is not absorbed
      is over the greatest one that is paid for, which the search finds and the bins absorb. -/
  cap : R.Absorbs flat (!R.solIsX) R.amount.toNat ∧
      (R.amount.toNat ≤ R.bound flat ∨ ¬ R.Found flat) ∨
    ¬ R.Absorbs flat (!R.solIsX) R.amount.toNat ∧ R.Found flat ∧
      ∃ m, m < R.amount.toNat ∧ R.Greatest flat m ∧ R.Absorbs flat (!R.solIsX) m

def Holds : Prop := ∃ flat, R.HoldsOn flat

/-- No id overflows or is at an end of the ids, and what is paid for has no gaps. -/
def Steady : Prop :=
  ∀ flat ∈ flattenBinsForWalker R.binArrays, R.Loaded flat ∧
    Bisect.Gapless (R.PaysFor flat (!R.solIsX)) (R.bound flat)

variable {R} {flat : List Bin}

/-- What is capped is taken whole, where the condition holds. -/
theorem HoldsOn.capped (h : R.HoldsOn flat) :
    ∃ capped, R.cap = some capped ∧ R.Absorbs flat (!R.solIsX) capped ∧
      (R.Absorbs flat (!R.solIsX) R.amount.toNat → capped = R.amount.toNat) := by
  obtain ⟨m, hmax, hm⟩ := h.loaded.max_spec h.sum_fits h.gapless
  refine ⟨_, cap_eq hmax, ?_⟩
  rcases h.cap with ⟨habsorbs, hbound⟩ | ⟨hnot, hfound, m', hlt, hgreatest, habsorbs⟩
  · have hkept : ¬ (0 < m ∧ m < R.amount.toNat) := by
      rintro ⟨hm0, hlt⟩
      rcases hm with ⟨rfl, _⟩ | ⟨_, hfound, hgreatest⟩
      · exact lt_irrefl 0 hm0
      · rcases hbound with hbound | hnone
        · exact hgreatest.above _ hlt hbound (.of_absorbs (hm0.trans hlt) habsorbs)
        · exact hnone hfound
    rw [if_neg hkept]
    exact ⟨habsorbs, fun _ => rfl⟩
  · rcases hm with ⟨_, hnone⟩ | ⟨hm0, _, hgreatest'⟩
    · exact absurd hfound hnone
    · cases hgreatest'.eq hgreatest
      rw [if_pos ⟨hm0, hlt⟩]
      exact ⟨habsorbs, fun h => absurd h hnot⟩

/-- **The condition is enough.** -/
theorem HoldsOn.fullFill (h : R.HoldsOn flat) : R.FullFill := by
  obtain ⟨capped, hcap, habsorbs, hrequested⟩ := h.capped
  have hconsumes : R.Consumes (!R.solIsX) (.ofNat capped) := by
    rw [h.loaded.consumes_iff, toNat_capped hcap]
    exact habsorbs
  refine ⟨h.loaded.output_full_iff.mpr h.token, h.loaded.output_full_iff.mpr h.sol,
    ⟨capped, hcap⟩, fun c hc hwhole => ?_, fun c hc _ => ?_, fun checks pair hpair => ?_⟩
  · cases hcap.symm.trans hc
    exact hrequested (h.loaded.consumes_iff.mp hwhole)
  · cases hcap.symm.trans hc
    exact hconsumes
  · obtain ⟨hout, rfl⟩ := of_quoteSell hcap hpair
    obtain ⟨w, hw, htotal, hpos⟩ := h.loaded.output_iff.mp hout
    refine ⟨flat, w, h.loaded.flattened, hw, ?_, htotal⟩
    rcases hconsumes with hzero | ⟨flat', hflat, w', hw', hleft⟩
    · rw [hzero] at hw
      cases hw
    · cases h.loaded.flattened.symm.trans hflat
      cases hw.symm.trans hw'
      exact hleft

/-- **The condition is needed** where the search is steady. -/
theorem holds_of_fullFill (hsteady : R.Steady) (h : R.FullFill) : R.Holds := by
  obtain ⟨capped, hcap⟩ := h.answers
  obtain ⟨m, hmax, hkept⟩ := Option.map_eq_some_iff.mp hcap
  obtain ⟨flat, hflat, _⟩ := Option.bind_eq_some_iff.mp hmax
  obtain ⟨hloaded, hgap⟩ := hsteady flat hflat
  have hsum : tokenSide R.solIsX flat < 2 ^ 64 := by
    by_contra hover
    rw [hloaded.max_eq, if_neg hover] at hmax
    cases hmax
  refine ⟨flat, hloaded, hsum, hgap, hloaded.output_full_iff.mp h.token,
    hloaded.output_full_iff.mp h.sol, ?_⟩
  obtain ⟨m', hm', hfound⟩ := hloaded.max_spec hsum hgap
  obtain rfl : m' = m := Option.some.inj (hm'.symm.trans hmax)
  by_cases habsorbs : R.Absorbs flat (!R.solIsX) R.amount.toNat
  · refine .inl ⟨habsorbs, ?_⟩
    have hwhole : capped = R.amount.toNat :=
      h.requested capped hcap (hloaded.consumes_iff.mpr habsorbs)
    rcases hfound with ⟨_, hnone⟩ | ⟨hm0, _, hgreatest⟩
    · exact .inr hnone
    · refine .inl (Nat.le_trans ?_ hgreatest.le_bound)
      by_contra hlt
      rw [if_pos ⟨hm0, Nat.lt_of_not_le hlt⟩] at hkept
      omega
  · refine .inr ⟨habsorbs, ?_⟩
    have hrest := h.otherwise capped hcap fun hc => habsorbs (hloaded.consumes_iff.mp hc)
    rw [hloaded.consumes_iff, toNat_capped hcap, ← hkept] at hrest
    by_cases hcut : 0 < m' ∧ m' < R.amount.toNat
    · rw [if_pos hcut] at hrest
      rcases hfound with ⟨hm0, _⟩ | ⟨_, hfound, hgreatest⟩
      · omega
      · exact ⟨hfound, m', hcut.2, hgreatest, hrest⟩
    · rw [if_neg hcut] at hrest
      exact absurd hrest habsorbs

/-- **When quote and cap are full fills**: the condition is enough, and needed where the search is
    steady. -/
theorem full_fill_iff (R : DlmmRequest) :
    (R.Holds → R.FullFill) ∧ (R.Steady → R.FullFill → R.Holds) :=
  ⟨fun ⟨_, h⟩ => h.fullFill, holds_of_fullFill⟩

/-- The sell of 100 into a bin with 1000 of each. -/
def deep : DlmmRequest where
  activeId := 0
  binStep := 10
  binArrays := AList.singleton 0 [⟨0, 1000, 1000⟩]
  solIsX := true
  amount := 100
  step_pos := by decide
  distinct := by decide +kernel
  present := by decide +kernel

theorem deep_fills : deep.FullFill := by
  have hloaded : deep.Loaded [⟨0, 1000, 1000⟩] := ⟨by decide +kernel, by decide⟩
  have hpriced : (((deep.walker [⟨0, 1000, 1000⟩]).places false).all Option.isSome) = true := by
    decide +kernel
  have hwalk : ∀ swapForY, ∃ w, (deep.walker [⟨0, 1000, 1000⟩]).walk swapForY 100 deep.feeBps =
      .ok w ∧ w.remainingIn = 0 := fun swapForY => by
    cases swapForY with
    | true => exact ⟨⟨0, 100, 1, 0, [⟨0, Solana.BinWalk.one, 1000, 100, 100, 100⟩]⟩,
        by decide +kernel, rfl⟩
    | false => exact ⟨⟨0, 100, 1, 0, [⟨0, Solana.BinWalk.one, 1000, 100, 100, 100⟩]⟩,
        by decide +kernel, rfl⟩
  have habsorbs : ∀ swapForY, deep.Absorbs [⟨0, 1000, 1000⟩] swapForY 100 := fun swapForY =>
    (@Loaded.consumes_iff deep _ swapForY 100 hloaded).mp (.inr ⟨_, hloaded.flattened,
      hwalk swapForY⟩)
  refine (full_fill_iff deep).1 ⟨[⟨0, 1000, 1000⟩], hloaded, by decide, ?_, fun _ => habsorbs _,
    fun _ => habsorbs _, .inl ⟨habsorbs _, .inl (by decide)⟩⟩
  exact gapless_of_priced fun hnone => absurd (List.all_eq_true.mp hpriced none hnone) nofun

end DlmmRequest

end IronCrab.Arbitrage

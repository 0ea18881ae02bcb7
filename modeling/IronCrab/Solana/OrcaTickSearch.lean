/-
  File:      IronCrab/Solana/OrcaTickSearch.lean
  Subject:   THE NEAREST INITIALIZED TICK (SwapTickSequence of src/solana/dex/orca_tick_walker.rs):
             when the search over a sequence of tick arrays finds it.

  * `TickSequence.FindsNearest` -- the nearest initialized tick, or the outer edge, with its array;
  * **`finds_nearest_iff`** -- exactly for a tick on the grid that is, selling B, not the last of
    its array, where no first tick of a later array is the nearest;
  * `unaligned_tick_not_found` -- one tick off the grid.
-/
import IronCrab.Solana.OrcaTickWalker
import Mathlib.Data.Int.LeastGreatest

namespace IronCrab.Solana.Whirlpool

open ParsedTickArray (Holds holds_bounds)

/-- **A sequence of tick arrays** in the direction of a swap, with a tick in the first. The arrays,
    with a spacing around them, lie in an `i32`. -/
structure TickSequence where
  array : ParsedTickArray
  rest : List ParsedTickArray
  tickSpacing : UInt16
  aToB : Bool
  tickIndex : Int
  spacing : 0 < tickSpacing.toNat
  consecutive : Consecutive tickSpacing.toNat aToB array rest
  inFirst : array.startTickIndex ≤ tickIndex ∧
    tickIndex < array.startTickIndex + 88 * tickSpacing.toNat
  inI32 : ∀ a ∈ array :: rest, -2 ^ 31 ≤ a.startTickIndex - tickSpacing.toNat ∧
    a.startTickIndex + 88 * tickSpacing.toNat < 2 ^ 31

namespace TickSequence

variable (q : TickSequence)

/-- An initialized tick of any array. -/
def Initialized (t : Int) : Prop := ∃ a ∈ q.array :: q.rest, Holds a q.tickSpacing.toNat t

/-- The outer edge: the last tick in the direction of the swap. -/
def edge : Int := lastTick q.tickSpacing.toNat q.aToB (lastArray q.array q.rest)

/-- What the search returns. -/
def found : Except Unit (Nat × Int) :=
  getNextInitializedTickIndex q.tickSpacing.toNat q.aToB 0 q.tickIndex (q.array :: q.rest)

/-- **The nearest initialized tick**, or the outer edge where none is ahead, and the array that has
    it. -/
def FindsNearest : Prop :=
  ∃ i next, q.found = .ok (i, next) ∧
    (∃ a, (q.array :: q.rest)[i]? = some a ∧
      ∃ slot : Fin tickArraySize, next = a.tickAt q.tickSpacing.toNat slot) ∧
    (NextTick q.Initialized q.aToB q.tickIndex next ∨
      (∀ t, q.Initialized t → ¬ Ahead q.aToB q.tickIndex t) ∧ next = q.edge)

/-- The nearest initialized tick is the first of an array that the search enters selling B. -/
def NearestSkipped : Prop :=
  q.aToB = false ∧ ∃ later ∈ q.rest,
    NextTick q.Initialized q.aToB q.tickIndex later.startTickIndex

variable {q}

/-- Selling B, a tick lies in one array. -/
theorem eq_of_within {tickSpacing : Nat} {array a b : ParsedTickArray}
    {rest : List ParsedTickArray} (h : Consecutive tickSpacing false array rest)
    (hspacing : 0 < tickSpacing) (ha : a ∈ rest) (hb : b ∈ rest) {t : Int}
    (hta : Within tickSpacing a t) (htb : Within tickSpacing b t) : a = b := by
  induction rest generalizing array with
  | nil => cases ha
  | cons next rest ih =>
      obtain rfl | ha' := List.mem_cons.mp ha
      · obtain rfl | hb' := List.mem_cons.mp hb
        · rfl
        · exact absurd (h.2.ahead hspacing hta hb' htb) (lt_irrefl t)
      · obtain rfl | hb' := List.mem_cons.mp hb
        · exact absurd (h.2.ahead hspacing htb ha' hta) (lt_irrefl t)
        · exact ih h.2 ha' hb'

theorem noFarther_lastTick {tickSpacing : Nat} {aToB : Bool} {array a : ParsedTickArray}
    {rest : List ParsedTickArray} (h : Consecutive tickSpacing aToB array rest)
    (hspacing : 0 < tickSpacing) (ha : a ∈ array :: rest) {t : Int}
    (ht : Within tickSpacing a t) :
    NoFarther aToB t (lastTick tickSpacing aToB (lastArray array rest)) := by
  induction rest generalizing array with
  | nil =>
      cases List.mem_singleton.mp ha
      cases aToB with
      | true => exact ht.1
      | false => exact ht.2
  | cons next rest ih =>
      obtain rfl | ha := List.mem_cons.mp ha
      · exact noFarther_of_ahead (h.ahead hspacing ht (lastArray_mem next rest) within_lastTick)
      · exact ih h.2 ha

theorem lastArray_mem_of_mem {array later : ParsedTickArray} {rest : List ParsedTickArray}
    (h : later ∈ rest) : lastArray array rest ∈ rest := by
  cases rest with
  | nil => cases h
  | cons next rest => exact lastArray_mem next rest

/-- The search stops at every initialized tick that is not skipped. -/
theorem foundFrom_of_initialized {t : Int} (h : q.Initialized t)
    (hskip : ¬ (q.aToB = false ∧ ∃ later ∈ q.rest, t = later.startTickIndex)) :
    FoundFrom q.tickSpacing.toNat q.aToB q.array q.rest t := by
  obtain ⟨a, ha, hholds⟩ := h
  obtain rfl | ha := List.mem_cons.mp ha
  · exact .inl hholds
  · exact .inr (.inl ⟨a, ha, hholds, fun hskipped => hskip ⟨hskipped.1, a, ha, hskipped.2⟩⟩)

/-- No initialized tick is farther than the outer edge. -/
theorem noFarther_edge {t : Int} (h : q.Initialized t) : NoFarther q.aToB t q.edge := by
  obtain ⟨a, ha, hholds⟩ := h
  exact noFarther_lastTick q.consecutive q.spacing ha (holds_bounds hholds)

/-- What the search returns for a tick that it accepts. -/
theorem found_of_accepts (h : q.array.Accepts q.tickSpacing.toNat q.aToB q.tickIndex) :
    ∃ i next, q.found = .ok (i, next) ∧
      (∃ a, (q.array :: q.rest)[i]? = some a ∧
        ∃ slot : Fin tickArraySize, next = a.tickAt q.tickSpacing.toNat slot) ∧
      NextTick (FoundFrom q.tickSpacing.toNat q.aToB q.array q.rest) q.aToB q.tickIndex next := by
  obtain ⟨slot, htick, hslot⟩ := h.slot q.spacing q.inFirst
  obtain ⟨i, next, hfound, hnext, hnamed⟩ :=
    getNextInitializedTickIndex_finds q.consecutive q.spacing slot hslot 0
  rw [← htick] at hfound hnext
  rw [Nat.zero_add] at hfound
  exact ⟨i, next, hfound, hnamed, hnext⟩

theorem found_of_not_accepts (h : ¬ q.array.Accepts q.tickSpacing.toNat q.aToB q.tickIndex) :
    q.found = .error () := by
  unfold found getNextInitializedTickIndex
  rw [ParsedTickArray.getNextInitTickIndex_error q.spacing h]
  rfl

/-- Selling B, some initialized tick ahead is the nearest. -/
theorem exists_nearest (haToB : q.aToB = false) {t : Int} (h : q.Initialized t)
    (hahead : Ahead q.aToB q.tickIndex t) :
    ∃ t', NextTick q.Initialized q.aToB q.tickIndex t' ∧ t' ≤ t := by
  obtain ⟨t', ⟨hinit, hahead'⟩, hleast⟩ := Int.exists_least_of_bdd
    (P := fun t => q.Initialized t ∧ Ahead q.aToB q.tickIndex t)
    ⟨q.tickIndex, fun z hz => by
      have hz' := hz.2
      rw [haToB] at hz'
      exact le_of_lt hz'⟩ ⟨t, h, hahead⟩
  refine ⟨t', ⟨hinit, hahead', fun z hz hz' => ?_⟩, hleast t ⟨h, hahead⟩⟩
  rw [haToB]
  exact hleast z ⟨hz, hz'⟩

/-- Where the nearest is not skipped, what the search finds is no farther than any. -/
theorem noFarther_of_not_skipped (hskip : ¬ q.NearestSkipped) {next : Int}
    (hnext : NextTick (FoundFrom q.tickSpacing.toNat q.aToB q.array q.rest) q.aToB q.tickIndex
      next) {t : Int} (h : q.Initialized t) (hahead : Ahead q.aToB q.tickIndex t) :
    NoFarther q.aToB next t := by
  by_cases hfound : q.aToB = false ∧ ∃ later ∈ q.rest, t = later.startTickIndex
  · obtain ⟨t', hnearest, hle⟩ := exists_nearest hfound.1 h hahead
    have hfound' : FoundFrom q.tickSpacing.toNat q.aToB q.array q.rest t' := by
      refine foundFrom_of_initialized hnearest.stop ?_
      rintro ⟨haToB, later, hlater, rfl⟩
      exact hskip ⟨haToB, later, hlater, hnearest⟩
    have hnofarther := hnext.nearest t' hfound' hnearest.ahead
    rw [hfound.1] at hnofarther ⊢
    exact le_trans hnofarther hle
  · exact hnext.nearest t (foundFrom_of_initialized h hfound) hahead

/-- A tick at which the search stops is initialized or the outer edge. -/
theorem initialized_or_edge {t : Int}
    (h : FoundFrom q.tickSpacing.toNat q.aToB q.array q.rest t) : q.Initialized t ∨ t = q.edge := by
  obtain hholds | ⟨later, hlater, hholds, -⟩ | hlast := h
  · exact .inl ⟨q.array, List.mem_cons_self, hholds⟩
  · exact .inl ⟨later, List.mem_cons_of_mem _ hlater, hholds⟩
  · exact .inr hlast

/-- The search never stops at the first tick of a later array. -/
theorem not_foundFrom_first (haToB : q.aToB = false) {later : ParsedTickArray}
    (hlater : later ∈ q.rest) :
    ¬ FoundFrom q.tickSpacing.toNat q.aToB q.array q.rest later.startTickIndex := by
  have hconsecutive := q.consecutive
  rw [haToB] at hconsecutive
  have hwithin : Within q.tickSpacing.toNat later later.startTickIndex := by
    unfold Within
    omega
  have hfar := q.spacing
  rintro (hholds | ⟨later', hlater', hholds, hskip⟩ | hlast)
  · exact absurd (hconsecutive.ahead q.spacing (holds_bounds hholds) hlater hwithin)
      (lt_irrefl _)
  · cases eq_of_within hconsecutive q.spacing hlater hlater' hwithin (holds_bounds hholds)
    exact hskip ⟨haToB, rfl⟩
  · have hlastWithin : Within q.tickSpacing.toNat (lastArray q.array q.rest)
        later.startTickIndex := by
      rw [hlast]
      exact within_lastTick
    have hsame := eq_of_within hconsecutive q.spacing hlater (lastArray_mem_of_mem hlater) hwithin
      hlastWithin
    rw [← hsame, haToB] at hlast
    change later.startTickIndex = later.startTickIndex + 87 * q.tickSpacing.toNat at hlast
    omega

/-- **The search finds the nearest initialized tick** exactly where it accepts the tick and skips
    nothing. -/
theorem finds_nearest_iff (q : TickSequence) :
    q.FindsNearest ↔
      q.array.Accepts q.tickSpacing.toNat q.aToB q.tickIndex ∧ ¬ q.NearestSkipped := by
  constructor
  · rintro ⟨i, next, hfound, -, hnearest⟩
    have haccepts : q.array.Accepts q.tickSpacing.toNat q.aToB q.tickIndex := by
      by_contra hrefused
      cases hfound.symm.trans (found_of_not_accepts hrefused)
    refine ⟨haccepts, ?_⟩
    rintro ⟨haToB, later, hlater, hskipped⟩
    obtain ⟨j, next', hfound', -, hnext⟩ := found_of_accepts haccepts
    cases hfound.symm.trans hfound'
    obtain hnearest | ⟨hnone, -⟩ := hnearest
    · refine not_foundFrom_first haToB hlater ?_
      rw [hskipped.unique hnearest]
      exact hnext.stop
    · exact hnone _ hskipped.stop hskipped.ahead
  · rintro ⟨haccepts, hskip⟩
    obtain ⟨i, next, hfound, hnamed, hnext⟩ := found_of_accepts haccepts
    refine ⟨i, next, hfound, hnamed, ?_⟩
    have hall := fun t => noFarther_of_not_skipped hskip hnext (t := t)
    obtain hinit | hedge := initialized_or_edge hnext.stop
    · exact .inl ⟨hinit, hnext.ahead, hall⟩
    · by_cases hinit : q.Initialized next
      · exact .inl ⟨hinit, hnext.ahead, hall⟩
      · refine .inr ⟨fun t ht hahead => hinit ?_, hedge⟩
        have hle := noFarther_edge ht
        rw [← hedge] at hle
        rwa [noFarther_antisymm (hall t ht hahead) hle]

/-- An array without initialized ticks, searched from a tick between two of its grid. -/
def unaligned : TickSequence where
  array := ⟨0, 0, fun _ => ⟨false, 0, zero_inI128⟩⟩
  rest := []
  tickSpacing := 64
  aToB := true
  tickIndex := 1
  spacing := by decide
  consecutive := trivial
  inFirst := by decide
  inI32 := by decide

/-- **A tick off the grid** is refused, where the outer edge was to be found. -/
theorem unaligned_tick_not_found : ¬ unaligned.FindsNearest := by
  rintro ⟨i, next, hfound, -⟩
  have herror : unaligned.found = .error () := rfl
  cases hfound.symm.trans herror

end TickSequence

end IronCrab.Solana.Whirlpool

/-
  File:      IronCrab/Solana/KillSwitch.lean
  Subject:   THE KILL SWITCHES (src/solana/kill_switch.rs): what the trades of a held token trigger.

  Amounts and thresholds are exact rationals, amounts not negative. Of a slot the code only takes
  differences that saturate and comparisons, so it is a natural number.

  * `addTrade`, `processTrade` -- the buffers of a token and the four switches, in their order;
  * `recentTrades_eq`, `slotFlows_eq` -- what the buffers hold, from the trades that were processed
    since the token is registered;
  * `Burst`, `Falling` -- what a sell burst and a negative flow are;
  * `kill_switches_sound` -- a switch that fires says so, unless a sell from outside the window is
    counted or a slot has come back; and a burst in slot order always fires;
  * `burst_over_six_slots` -- sells over six slots that fire as a burst of five.
-/
import IronCrab.Lib.Machine
import IronCrab.Lib.Runs
import IronCrab.Track.Snapshot
import Mathlib.Algebra.BigOperators.Group.List.Basic
import Mathlib.Algebra.Order.BigOperators.Group.List
import Mathlib.Algebra.Order.Ring.Rat
import Mathlib.Data.Finmap
import Mathlib.Data.List.MinMax

namespace IronCrab.Solana.KillSwitch

open Track (Pubkey)
open Machine (foldSteps)
open Runs (runs)

/-! ## 1. The flow of a token -/

/-- `TokenTradeEvent`. -/
structure TokenTradeEvent where
  mint : Pubkey
  slot : Nat
  isBuy : Bool
  solAmount : ℚ≥0
  trader : Pubkey

/-- `KillSwitchReason`. -/
inductive KillSwitchReason where
  | devSell (devAddress : String) (solAmount : ℚ)
  | sellBurst (sellCount : Nat) (totalSol : ℚ) (slots : Nat)
  | flowRatio (ratio threshold : ℚ)
  | negativeFlow (consecutiveSlots : Nat)
  deriving DecidableEq

/-- A trade of the buffer: `(slot, is_buy, sol_amount, trader)`. -/
structure Trade where
  slot : Nat
  isBuy : Bool
  solAmount : ℚ≥0
  trader : Pubkey

def TokenTradeEvent.trade (event : TokenTradeEvent) : Trade :=
  ⟨event.slot, event.isBuy, event.solAmount, event.trader⟩

/-- `while deque.len() > cap { deque.pop_front() }`. -/
def popFront {A : Type} (cap : Nat) : List A → List A
  | [] => []
  | a :: l => if cap < (a :: l).length then popFront cap l else a :: l

/-- Buys are positive, sells negative. -/
def Trade.flow (trade : Trade) : ℚ := if trade.isBuy then trade.solAmount else -trade.solAmount

/-- The flow of a trade goes to the last entry if that has its slot. -/
def mergeFlow (flows : List (Nat × ℚ)) (slot : Nat) (flow : ℚ) : List (Nat × ℚ) :=
  match flows.getLast? with
  | some (lastSlot, lastFlow) =>
      if lastSlot = slot then flows.dropLast ++ [(lastSlot, lastFlow + flow)]
      else flows ++ [(slot, flow)]
  | none => flows ++ [(slot, flow)]

/-- `TokenFlowState`. -/
structure TokenFlowState where
  recentTrades : List Trade
  slotFlows : List (Nat × ℚ)
  creator : Option Pubkey
  lastSlot : Nat

/-- `TokenFlowState::new`. -/
def TokenFlowState.new (creator : Option Pubkey) : TokenFlowState := ⟨[], [], creator, 0⟩

/-- `add_trade`. -/
def TokenFlowState.addTrade (state : TokenFlowState) (trade : Trade) : TokenFlowState where
  recentTrades := popFront 100 (state.recentTrades ++ [trade])
  slotFlows := popFront 20 (mergeFlow state.slotFlows trade.slot trade.flow)
  creator := state.creator
  lastSlot := trade.slot

/-! ## 2. The monitor -/

/-- `KillSwitchMonitor`. -/
structure KillSwitchMonitor where
  tokenStates : Finmap fun _ : Pubkey => TokenFlowState
  devSellEnabled : Bool
  sellBurstCount : Nat
  sellBurstSol : ℚ
  sellBurstSlots : Nat
  flowRatioMin : ℚ
  negativeFlowSlots : Nat

namespace KillSwitchMonitor

/-- `KillSwitchMonitor::new`. -/
def new (devSellEnabled : Bool) (sellBurstCount : Option Nat) (sellBurstSol : Option ℚ)
    (sellBurstSlots : Option Nat) (flowRatioMin : Option ℚ) (negativeFlowSlots : Option Nat) :
    KillSwitchMonitor where
  tokenStates := ∅
  devSellEnabled
  sellBurstCount := sellBurstCount.getD 3
  sellBurstSol := sellBurstSol.getD (1 / 2)
  sellBurstSlots := sellBurstSlots.getD 5
  flowRatioMin := flowRatioMin.getD (6 / 10)
  negativeFlowSlots := negativeFlowSlots.getD 3

variable (monitor : KillSwitchMonitor)

/-- `register_position`. -/
def registerPosition (mint : Pubkey) (creator : Option Pubkey) : KillSwitchMonitor :=
  if mint ∈ monitor.tokenStates then monitor
  else { monitor with tokenStates := monitor.tokenStates.insert mint (.new creator) }

/-- `unregister_position`. -/
def unregisterPosition (mint : Pubkey) : KillSwitchMonitor :=
  { monitor with tokenStates := monitor.tokenStates.erase mint }

section Switches

variable (state : TokenFlowState) (event : TokenTradeEvent)

/-- 1. A sell by the creator. -/
def devSell : Option KillSwitchReason :=
  if monitor.devSellEnabled && !event.isBuy then
    match state.creator with
    | some creator =>
        if event.trader = creator then
          some (.devSell (Track.TextCodec.base58Text creator) event.solAmount)
        else none
    | none => none
  else none

/-- The sells that a sell at a slot is counted with. -/
def counted (trades : List Trade) (currentSlot : Nat) : List Trade :=
  trades.filter fun t => decide (currentSlot - monitor.sellBurstSlots ≤ t.slot) && !t.isBuy

def countAndTotal (trades : List Trade) : Nat × ℚ :=
  trades.foldl (fun acc t => (acc.1 + 1, acc.2 + t.solAmount)) (0, 0)

/-- 2. A burst of sells. -/
def sellBurst : Option KillSwitchReason :=
  if !event.isBuy then
    let (sellCount, totalSol) := countAndTotal (monitor.counted state.recentTrades event.slot)
    if monitor.sellBurstCount ≤ sellCount ∧ monitor.sellBurstSol ≤ totalSol then
      some (.sellBurst sellCount totalSol monitor.sellBurstSlots)
    else none
  else none

def buysAndSells (trades : List Trade) : ℚ × ℚ :=
  trades.foldl
    (fun acc t => if t.isBuy then (acc.1 + t.solAmount, acc.2) else (acc.1, acc.2 + t.solAmount))
    (0, 0)

/-- 3. Buys against sells. -/
def flowRatio : Option KillSwitchReason :=
  let (totalBuys, totalSells) := buysAndSells state.recentTrades
  if 0 < totalSells then
    if totalBuys / totalSells < monitor.flowRatioMin ∧ 1 / 10 < totalSells then
      some (.flowRatio (totalBuys / totalSells) monitor.flowRatioMin)
    else none
  else none

/-- 4. The last slots are all negative. -/
def negativeFlow : Option KillSwitchReason :=
  if monitor.negativeFlowSlots ≤ state.slotFlows.length then
    let recentSlots := state.slotFlows.reverse.take monitor.negativeFlowSlots
    if (recentSlots.all fun e => e.2 < 0) ∧ 1 / 10 < (recentSlots.map fun e => |e.2|).sum then
      some (.negativeFlow monitor.negativeFlowSlots)
    else none
  else none

/-- The first switch that fires. -/
def firstReason : Option KillSwitchReason :=
  monitor.devSell state event <|> monitor.sellBurst state event <|> monitor.flowRatio state <|>
    monitor.negativeFlow state

end Switches

/-- `process_trade`. -/
def processTrade (event : TokenTradeEvent) : KillSwitchMonitor × Option KillSwitchReason :=
  match monitor.tokenStates.lookup event.mint with
  | none => (monitor, none)
  | some state =>
      let state := state.addTrade event.trade
      ({ monitor with tokenStates := monitor.tokenStates.insert event.mint state },
        monitor.firstReason state event)

end KillSwitchMonitor

/-! ## 3. Runs -/

/-- The calls of a monitor. -/
inductive MonitorOp where
  | registerPosition (mint : Pubkey) (creator : Option Pubkey)
  | unregisterPosition (mint : Pubkey)
  | processTrade (event : TokenTradeEvent)

/-- A monitor, and for every token the trades processed since it is registered. -/
structure Observed where
  monitor : KillSwitchMonitor
  processed : Pubkey → List Trade

namespace Observed

def start (monitor : KillSwitchMonitor) : Observed :=
  ⟨{ monitor with tokenStates := ∅ }, fun _ => []⟩

def step (obs : Observed) : MonitorOp → Observed
  | .registerPosition mint creator =>
      { obs with monitor := obs.monitor.registerPosition mint creator }
  | .unregisterPosition mint =>
      ⟨obs.monitor.unregisterPosition mint, Function.update obs.processed mint []⟩
  | .processTrade event =>
      ⟨(obs.monitor.processTrade event).1,
        if event.mint ∈ obs.monitor.tokenStates then
          Function.update obs.processed event.mint (obs.processed event.mint ++ [event.trade])
        else obs.processed⟩

end Observed

/-! ## 4. What the switches describe -/

section Described

variable (monitor : KillSwitchMonitor) (trades : List Trade)

/-- The trades of a window. -/
def inWindow (start width : Nat) : List Trade :=
  trades.filter fun t => decide (start ≤ t.slot) && decide (t.slot < start + width)

/-- The sells among some trades. -/
def sells : List Trade := trades.filter fun t => !t.isBuy

def total : ℚ := (trades.map fun t => (t.solAmount : ℚ)).sum

/-- **A burst**: a window of `sell_burst_slots` slots with enough sells of enough SOL. -/
structure Burst (start : Nat) : Prop where
  count : monitor.sellBurstCount ≤ (sells (inWindow trades start monitor.sellBurstSlots)).length
  sol : monitor.sellBurstSol ≤ total (sells (inWindow trades start monitor.sellBurstSlots))

/-- The trades of the last twenty stretches of trades of one slot. -/
def retained : List Trade := ((runs Trade.slot trades).rtake 20).flatten

def netFlow (slot : Nat) : ℚ := ((trades.filter fun t => t.slot = slot).map Trade.flow).sum

/-- **A negative flow**: the latest of the traded slots, each with a negative net flow. -/
structure Falling (n : Nat) (slots : Finset Nat) : Prop where
  card : slots.card = n
  traded : ∀ s ∈ slots, ∃ t ∈ trades, t.slot = s
  latest : ∀ t ∈ trades, t.slot ∉ slots → ∀ s ∈ slots, t.slot < s
  negative : ∀ s ∈ slots, netFlow trades s < 0

/-- **What a result says is so.** -/
structure Justified (result : Option KillSwitchReason) : Prop where
  burst : ∀ sellCount totalSol slots, result = some (.sellBurst sellCount totalSol slots) →
    ∃ start, Burst monitor trades start
  falling : ∀ consecutiveSlots, result = some (.negativeFlow consecutiveSlots) →
    ∃ slots, Falling (retained trades) monitor.negativeFlowSlots slots

/-- **A burst is not missed** at its last sell, if the trades come in slot order. -/
def Detected (event : TokenTradeEvent) (result : Option KillSwitchReason) : Prop :=
  ∀ start, event.isBuy = false → start ≤ event.slot →
    event.slot < start + monitor.sellBurstSlots → trades.Pairwise (fun t t' => t.slot ≤ t'.slot) →
    (inWindow trades start monitor.sellBurstSlots).length ≤ 100 → Burst monitor trades start →
    (∃ devAddress solAmount, result = some (.devSell devAddress solAmount)) ∨
      ∃ sellCount totalSol slots, result = some (.sellBurst sellCount totalSol slots)

/-- The slot of a stretch. -/
def slotOf (run : List Trade) : Nat := (run.head?.map Trade.slot).getD 0

/-- The slots of the last twenty stretches. -/
def recentSlots : List Nat := ((runs Trade.slot trades).rtake 20).map slotOf

/-- **A trade in time**: the sells that a sell is counted with fit into one window, and the last
    slots are different ones and later than those before them. -/
structure Timely (event : TokenTradeEvent) : Prop where
  sells : event.isBuy = false →
    ∀ t ∈ monitor.counted (trades.rtake 100) event.slot,
      ∀ t' ∈ monitor.counted (trades.rtake 100) event.slot,
        t.slot < t'.slot + monitor.sellBurstSlots
  nodup : ((recentSlots trades).rtake monitor.negativeFlowSlots).Nodup
  later : ∀ s ∈ (recentSlots trades).rdrop monitor.negativeFlowSlots,
    ∀ s' ∈ (recentSlots trades).rtake monitor.negativeFlowSlots, s < s'

end Described

/-! ## 5. What the buffers hold -/

theorem popFront_eq_rtake {A : Type} (cap : Nat) (l : List A) : popFront cap l = l.rtake cap := by
  induction l with
  | nil => rw [List.rtake_nil, popFront]
  | cons a l ih =>
      unfold popFront
      by_cases h : cap < (a :: l).length
      · rw [if_pos h, ih]
        unfold List.rtake
        rw [List.length_cons] at h ⊢
        rw [show l.length + 1 - cap = l.length - cap + 1 from by omega, List.drop_succ_cons]
      · rw [if_neg h]
        unfold List.rtake
        rw [Nat.sub_eq_zero_of_le (not_lt.mp h), List.drop_zero]

theorem mergeFlow_same (flows : List (Nat × ℚ)) (slot : Nat) (before flow : ℚ) :
    mergeFlow (flows ++ [(slot, before)]) slot flow = flows ++ [(slot, before + flow)] := by
  unfold mergeFlow
  rw [List.getLast?_concat, List.dropLast_concat]
  exact if_pos rfl

theorem mergeFlow_new {flows : List (Nat × ℚ)} {slot : Nat} (h : ∀ e ∈ flows.getLast?, e.1 ≠ slot)
    (flow : ℚ) : mergeFlow flows slot flow = flows ++ [(slot, flow)] := by
  unfold mergeFlow
  cases hlast : flows.getLast? with
  | none => rfl
  | some e => exact if_neg (h e hlast)

section Runs

variable {trades : List Trade} {run : List Trade}

theorem slot_eq_slotOf (hrun : run ∈ runs Trade.slot trades) {t : Trade} (ht : t ∈ run) :
    t.slot = slotOf run := by
  cases run with
  | nil => exact absurd ht List.not_mem_nil
  | cons first rest => exact Runs.key_eq_of_mem_runs hrun ht List.mem_cons_self

theorem exists_mem_slot (hrun : run ∈ runs Trade.slot trades) : ∃ t ∈ run, t.slot = slotOf run := by
  obtain ⟨t, ht⟩ := List.exists_mem_of_ne_nil run (Runs.ne_nil_of_mem_runs hrun)
  exact ⟨t, ht, slot_eq_slotOf hrun ht⟩

/-- The entry of a stretch: its slot and its net flow. -/
def entry (run : List Trade) : Nat × ℚ := (slotOf run, (run.map Trade.flow).sum)

theorem entry_singleton (t : Trade) : entry [t] = (t.slot, t.flow) := by simp [entry, slotOf]

theorem entry_snoc (hne : run ≠ []) (t : Trade) :
    entry (run ++ [t]) = (slotOf run, (run.map Trade.flow).sum + t.flow) := by
  unfold entry slotOf
  rw [List.head?_append_of_ne_nil _ hne, List.map_append, List.sum_append, List.map_singleton,
    List.sum_singleton]

/-- **One more trade**: the entries are those of the stretches that the trades then have. -/
theorem mergeFlow_entries (trades : List Trade) (t : Trade) :
    popFront 20 (mergeFlow (((runs Trade.slot trades).rtake 20).map entry) t.slot t.flow) =
      ((runs Trade.slot (trades ++ [t])).rtake 20).map entry := by
  rw [popFront_eq_rtake]
  rcases Runs.runs_snoc_cases Trade.slot trades t with
    ⟨before, run, hruns, hsame, hgrown⟩ | ⟨hgrown, hother⟩
  · have hmem : run ∈ runs Trade.slot trades := by rw [hruns]; simp
    obtain ⟨x, hx, hxslot⟩ := exists_mem_slot hmem
    have hslot : slotOf run = t.slot := hxslot.symm.trans (hsame x hx)
    have hentries : ((runs Trade.slot trades).rtake 20).map entry =
        (before.rtake 19).map entry ++ [(t.slot, (run.map Trade.flow).sum)] := by
      rw [hruns, List.rtake_concat_succ, List.map_append, List.map_singleton, entry, hslot]
    rw [hentries, mergeFlow_same, List.rtake_concat_succ, Runs.map_rtake,
      Runs.rtake_rtake _ (Nat.le_refl 19), hgrown, List.rtake_concat_succ, List.map_append,
      List.map_singleton, entry_snoc (Runs.ne_nil_of_mem_runs hmem), hslot]
  · have hlast : ∀ e ∈ (((runs Trade.slot trades).rtake 20).map entry).getLast?, e.1 ≠ t.slot := by
      intro e he
      rcases List.eq_nil_or_concat (runs Trade.slot trades) with hnil | ⟨before, run, hruns⟩
      · simp [hnil] at he
      rw [List.concat_eq_append] at hruns
      have hmem : run ∈ runs Trade.slot trades := by rw [hruns]; simp
      obtain ⟨x, hx, hxslot⟩ := exists_mem_slot hmem
      rw [hruns, List.rtake_concat_succ, List.map_append, List.map_singleton, List.getLast?_concat,
        Option.mem_some_iff] at he
      rw [← he]
      show slotOf run ≠ t.slot
      rw [← hxslot]
      exact hother before run hruns x hx
    rw [mergeFlow_new hlast, hgrown, ← entry_singleton, ← Runs.map_rtake, Runs.rtake_snoc,
      ← Runs.map_rtake, List.map_append, List.map_singleton]

/-- **In slot order the stretches have later and later slots.** -/
theorem slots_increase (hordered : trades.Pairwise fun t t' => t.slot ≤ t'.slot) :
    ((runs Trade.slot trades).map slotOf).Pairwise (· < ·) := by
  induction trades using List.reverseRecOn with
  | nil =>
      rw [Runs.runs_nil]
      exact List.Pairwise.nil
  | append_singleton trades t ih =>
      obtain ⟨hbefore, _, hlast⟩ := List.pairwise_append.mp hordered
      have hle : ∀ run ∈ runs Trade.slot trades, ∀ x ∈ run, x.slot ≤ t.slot := by
        intro run hrun x hx
        refine hlast x ?_ t (by simp)
        rw [← Runs.flatten_runs Trade.slot trades]
        exact List.mem_flatten.mpr ⟨run, hrun, hx⟩
      rcases Runs.runs_snoc_cases Trade.slot trades t with
        ⟨before, run, hruns, _, hgrown⟩ | ⟨hgrown, hother⟩
      · have hmem : run ∈ runs Trade.slot trades := by rw [hruns]; simp
        have hslot : slotOf (run ++ [t]) = slotOf run :=
          congrArg Prod.fst (entry_snoc (Runs.ne_nil_of_mem_runs hmem) t)
        have hsame : (runs Trade.slot (trades ++ [t])).map slotOf =
            (runs Trade.slot trades).map slotOf := by
          rw [hgrown, hruns]
          simp [hslot]
        rw [hsame]
        exact ih hbefore
      · rw [hgrown, List.map_append, List.map_singleton]
        refine List.pairwise_append.mpr ⟨ih hbefore, List.pairwise_singleton _ _, ?_⟩
        intro s hs s' hs'
        rw [List.mem_singleton.mp hs']
        show s < t.slot
        rcases List.eq_nil_or_concat (runs Trade.slot trades) with hnil | ⟨before, run, hruns⟩
        · simp [hnil] at hs
        rw [List.concat_eq_append] at hruns
        have hmem : run ∈ runs Trade.slot trades := by rw [hruns]; simp
        obtain ⟨x, hx, hxslot⟩ := exists_mem_slot hmem
        have hlt : slotOf run < t.slot := by
          rw [← hxslot]
          exact lt_of_le_of_ne (hle run hmem x hx) (hother before run hruns x hx)
        have hsorted := ih hbefore
        rw [hruns, List.map_append, List.map_singleton] at hs hsorted
        rcases List.mem_append.mp hs with hs | hs
        · have hearlier := (List.pairwise_append.mp hsorted).2.2 s hs (slotOf run) (by simp)
          omega
        · rw [List.mem_singleton.mp hs]
          exact hlt

end Runs

/-- **What the buffers hold**, from the trades that were processed. -/
structure Holds (state : TokenFlowState) (trades : List Trade) : Prop where
  recentTrades_eq : state.recentTrades = trades.rtake 100
  slotFlows_eq : state.slotFlows = ((runs Trade.slot trades).rtake 20).map entry

theorem holds_new (creator : Option Pubkey) : Holds (.new creator) [] := ⟨rfl, rfl⟩

theorem Holds.addTrade {state : TokenFlowState} {trades : List Trade} (h : Holds state trades)
    (t : Trade) : Holds (state.addTrade t) (trades ++ [t]) where
  recentTrades_eq := by
    show popFront 100 (state.recentTrades ++ [t]) = _
    rw [popFront_eq_rtake, h.recentTrades_eq, Runs.rtake_snoc]
  slotFlows_eq := by
    show popFront 20 (mergeFlow state.slotFlows t.slot t.flow) = _
    rw [h.slotFlows_eq, mergeFlow_entries]

/-! ## 6. The burst -/

section Totals

variable {trades trades' : List Trade}

theorem total_le_of_sublist (h : trades.Sublist trades') : total trades ≤ total trades' := by
  refine List.Sublist.sum_le_sum (h.map _) fun a ha => ?_
  obtain ⟨t, _, rfl⟩ := List.mem_map.mp ha
  exact t.solAmount.2

namespace KillSwitchMonitor

theorem countAndTotal_eq (trades : List Trade) :
    countAndTotal trades = (trades.length, total trades) := by
  have hacc : ∀ (trades : List Trade) (count : Nat) (sol : ℚ),
      trades.foldl (fun acc t => (acc.1 + 1, acc.2 + (t.solAmount : ℚ))) (count, sol) =
        (count + trades.length, sol + total trades) := by
    intro trades
    induction trades with
    | nil =>
        intro count sol
        simp [total]
    | cons t trades ih =>
        intro count sol
        rw [List.foldl_cons, ih]
        simp only [total, List.map_cons, List.sum_cons, List.length_cons]
        exact Prod.ext (by ring) (by ring)
  unfold countAndTotal
  rw [hacc, Nat.zero_add, zero_add]

end KillSwitchMonitor

end Totals

namespace KillSwitchMonitor

section Switches

variable {monitor : KillSwitchMonitor} {state : TokenFlowState} {event : TokenTradeEvent}

variable (monitor state event) in
theorem devSell_cases : monitor.devSell state event = none ∨
    ∃ devAddress solAmount, monitor.devSell state event = some (.devSell devAddress solAmount) := by
  unfold devSell
  split
  · split
    · split
      · exact .inr ⟨_, _, rfl⟩
      · exact .inl rfl
    · exact .inl rfl
  · exact .inl rfl

variable (monitor state event) in
theorem sellBurst_cases : monitor.sellBurst state event = none ∨
    (∃ sellCount totalSol slots,
      monitor.sellBurst state event = some (.sellBurst sellCount totalSol slots)) ∧
    event.isBuy = false ∧
    monitor.sellBurstCount ≤ (monitor.counted state.recentTrades event.slot).length ∧
    monitor.sellBurstSol ≤ total (monitor.counted state.recentTrades event.slot) := by
  unfold sellBurst
  rw [countAndTotal_eq]
  by_cases hsell : (!event.isBuy) = true
  · rw [if_pos hsell]
    dsimp only
    split
    · next h => exact .inr ⟨⟨_, _, _, rfl⟩, by simpa using hsell, h.1, h.2⟩
    · exact .inl rfl
  · exact .inl (if_neg hsell)

/-- The thresholds are all that a burst of sells needs. -/
theorem sellBurst_isSome (hsell : event.isBuy = false)
    (hcount : monitor.sellBurstCount ≤ (monitor.counted state.recentTrades event.slot).length)
    (hsol : monitor.sellBurstSol ≤ total (monitor.counted state.recentTrades event.slot)) :
    ∃ sellCount totalSol slots,
      monitor.sellBurst state event = some (.sellBurst sellCount totalSol slots) := by
  have hreached : monitor.sellBurstCount ≤ (monitor.counted state.recentTrades event.slot).length ∧
      monitor.sellBurstSol ≤ total (monitor.counted state.recentTrades event.slot) :=
    ⟨hcount, hsol⟩
  unfold sellBurst
  rw [countAndTotal_eq, hsell]
  dsimp only
  rw [if_pos hreached]
  exact ⟨_, _, _, rfl⟩

variable (monitor state) in
theorem flowRatio_cases : monitor.flowRatio state = none ∨
    ∃ ratio threshold, monitor.flowRatio state = some (.flowRatio ratio threshold) := by
  unfold flowRatio
  dsimp only
  split
  · split
    · exact .inr ⟨_, _, rfl⟩
    · exact .inl rfl
  · exact .inl rfl

variable (monitor state) in
theorem negativeFlow_cases : monitor.negativeFlow state = none ∨
    monitor.negativeFlow state = some (.negativeFlow monitor.negativeFlowSlots) ∧
    monitor.negativeFlowSlots ≤ state.slotFlows.length ∧
    ∀ e ∈ state.slotFlows.rtake monitor.negativeFlowSlots, e.2 < 0 := by
  unfold negativeFlow
  split
  · next hlen =>
      dsimp only
      split
      · next h =>
          refine .inr ⟨rfl, hlen, fun e he => ?_⟩
          rw [List.rtake_eq_reverse_take_reverse, List.mem_reverse] at he
          exact of_decide_eq_true (List.all_eq_true.mp h.1 e he)
      · exact .inl rfl
  · exact .inl rfl

/-- A reason is that of one of the switches. -/
theorem switch_of_firstReason {reason : KillSwitchReason}
    (h : monitor.firstReason state event = some reason) :
    monitor.devSell state event = some reason ∨ monitor.sellBurst state event = some reason ∨
      monitor.flowRatio state = some reason ∨ monitor.negativeFlow state = some reason := by
  unfold firstReason at h
  cases hdev : monitor.devSell state event with
  | some r => exact .inl (by rw [hdev] at h; exact h)
  | none =>
      rw [hdev] at h
      cases hburst : monitor.sellBurst state event with
      | some r => exact .inr (.inl (by rw [hburst] at h; exact h))
      | none =>
          rw [hburst] at h
          cases hratio : monitor.flowRatio state with
          | some r => exact .inr (.inr (.inl (by rw [hratio] at h; exact h)))
          | none => exact .inr (.inr (.inr (by rw [hratio] at h; exact h)))

/-- A burst is reported where the counted sells reach the thresholds. -/
theorem counted_of_firstReason {sellCount slots : Nat} {totalSol : ℚ}
    (h : monitor.firstReason state event = some (.sellBurst sellCount totalSol slots)) :
    event.isBuy = false ∧
    monitor.sellBurstCount ≤ (monitor.counted state.recentTrades event.slot).length ∧
    monitor.sellBurstSol ≤ total (monitor.counted state.recentTrades event.slot) := by
  rcases switch_of_firstReason h with hdev | hburst | hratio | hneg
  · rcases devSell_cases monitor state event with
      hcase | ⟨_, _, hcase⟩ <;> simp [hcase] at hdev
  · rcases sellBurst_cases monitor state event with
      hcase | ⟨_, hall⟩
    · simp [hcase] at hburst
    · exact hall
  · rcases flowRatio_cases monitor state with hcase | ⟨_, _, hcase⟩ <;>
      simp [hcase] at hratio
  · rcases negativeFlow_cases monitor state with hcase | ⟨hcase, _⟩ <;>
      simp [hcase] at hneg

/-- A negative flow is reported where the last entries are negative. -/
theorem negative_of_firstReason {consecutiveSlots : Nat}
    (h : monitor.firstReason state event = some (.negativeFlow consecutiveSlots)) :
    monitor.negativeFlowSlots ≤ state.slotFlows.length ∧
    ∀ e ∈ state.slotFlows.rtake monitor.negativeFlowSlots, e.2 < 0 := by
  rcases switch_of_firstReason h with hdev | hburst | hratio | hneg
  · rcases devSell_cases monitor state event with
      hcase | ⟨_, _, hcase⟩ <;> simp [hcase] at hdev
  · rcases sellBurst_cases monitor state event with
      hcase | ⟨⟨_, _, _, hcase⟩, _⟩ <;> simp [hcase] at hburst
  · rcases flowRatio_cases monitor state with hcase | ⟨_, _, hcase⟩ <;>
      simp [hcase] at hratio
  · rcases negativeFlow_cases monitor state with hcase | ⟨_, hall⟩
    · simp [hcase] at hneg
    · exact hall

/-- A burst that is counted is reported, unless the creator's sell is. -/
theorem firstReason_of_sellBurst
    (h : ∃ sellCount totalSol slots,
      monitor.sellBurst state event = some (.sellBurst sellCount totalSol slots)) :
    (∃ devAddress solAmount,
      monitor.firstReason state event = some (.devSell devAddress solAmount)) ∨
    ∃ sellCount totalSol slots,
      monitor.firstReason state event = some (.sellBurst sellCount totalSol slots) := by
  obtain ⟨sellCount, totalSol, slots, hburst⟩ := h
  unfold firstReason
  rcases devSell_cases monitor state event with
    hdev | ⟨devAddress, solAmount, hdev⟩
  · rw [hdev, hburst]
    exact .inr ⟨sellCount, totalSol, slots, rfl⟩
  · rw [hdev]
    exact .inl ⟨devAddress, solAmount, rfl⟩

end Switches

end KillSwitchMonitor

/-! ## 7. Why they fire -/

section Fire

variable {monitor : KillSwitchMonitor} {trades : List Trade} {event : TokenTradeEvent}

/-- **Counted sells that fit into one window are a burst.** -/
theorem burst_of_counted (hne : monitor.counted (trades.rtake 100) event.slot ≠ [])
    (hfit : ∀ t ∈ monitor.counted (trades.rtake 100) event.slot,
      ∀ t' ∈ monitor.counted (trades.rtake 100) event.slot,
        t.slot < t'.slot + monitor.sellBurstSlots)
    (hcount : monitor.sellBurstCount ≤ (monitor.counted (trades.rtake 100) event.slot).length)
    (hsol : monitor.sellBurstSol ≤ total (monitor.counted (trades.rtake 100) event.slot)) :
    ∃ start, Burst monitor trades start := by
  -- the window starts with the earliest of the counted sells
  obtain ⟨first, hfirst⟩ := Option.ne_none_iff_exists'.mp
    (mt (List.argmin_eq_none (f := Trade.slot)).mp hne)
  have hmem := List.argmin_mem hfirst
  generalize hC : monitor.counted (trades.rtake 100) event.slot = C at *
  have hsub : C.Sublist trades := by
    rw [← hC]
    exact List.filter_sublist.trans (Runs.rtake_sublist trades 100)
  have hin : inWindow C first.slot monitor.sellBurstSlots = C := by
    refine List.filter_eq_self.mpr fun t ht => ?_
    have hle : first.slot ≤ t.slot := List.le_of_mem_argmin ht hfirst
    simp [hle, hfit t ht first hmem]
  have hsells : sells C = C := by
    refine List.filter_eq_self.mpr fun t ht => ?_
    rw [← hC] at ht
    exact (Bool.and_eq_true_iff.mp (List.mem_filter.mp ht).2).2
  have hwindow : (sells (inWindow C first.slot monitor.sellBurstSlots)).Sublist
      (sells (inWindow trades first.slot monitor.sellBurstSlots)) := (hsub.filter _).filter _
  rw [hin, hsells] at hwindow
  exact ⟨first.slot, hcount.trans hwindow.length_le, hsol.trans (total_le_of_sublist hwindow)⟩

/-- A sell is counted itself. -/
theorem counted_ne_nil (before : List Trade) (hsell : event.isBuy = false) :
    monitor.counted ((before ++ [event.trade]).rtake 100) event.slot ≠ [] := by
  have hmem : event.trade ∈ monitor.counted ((before ++ [event.trade]).rtake 100) event.slot := by
    rw [List.rtake_concat_succ]
    refine List.mem_filter.mpr ⟨by simp, ?_⟩
    simp [TokenTradeEvent.trade, hsell]
  exact List.ne_nil_of_mem hmem

/-- **In slot order every sell of the window is counted.** -/
theorem window_sublist_counted (before : List Trade) {start : Nat}
    (hend : event.slot < start + monitor.sellBurstSlots)
    (hordered : (before ++ [event.trade]).Pairwise fun t t' => t.slot ≤ t'.slot)
    (hfew : (inWindow (before ++ [event.trade]) start monitor.sellBurstSlots).length ≤ 100) :
    (sells (inWindow (before ++ [event.trade]) start monitor.sellBurstSlots)).Sublist
      (monitor.counted ((before ++ [event.trade]).rtake 100) event.slot) := by
  have hlast : ∀ t ∈ before ++ [event.trade], t.slot ≤ event.slot := by
    intro t ht
    rcases List.mem_append.mp ht with ht | ht
    · exact (List.pairwise_append.mp hordered).2.2 t ht event.trade (by simp)
    · rw [List.mem_singleton.mp ht]
      exact Nat.le_refl _
  -- from some trade on, all are in the window
  have hup : (before ++ [event.trade]).Pairwise fun t t' =>
      (decide (start ≤ t.slot) && decide (t.slot < start + monitor.sellBurstSlots)) = true →
        (decide (start ≤ t'.slot) && decide (t'.slot < start + monitor.sellBurstSlots)) = true := by
    refine hordered.imp_of_mem fun {t t'} _ ht' hle hin => ?_
    have hle' := hlast t' ht'
    simp only [Bool.and_eq_true, decide_eq_true_eq] at hin ⊢
    omega
  have hkept := Runs.filter_sublist_rtake hup hfew
  have hcounted : sells (inWindow (before ++ [event.trade]) start monitor.sellBurstSlots) =
      monitor.counted (inWindow (before ++ [event.trade]) start monitor.sellBurstSlots)
        event.slot := by
    refine List.filter_congr fun t ht => ?_
    have hin := (List.mem_filter.mp ht).2
    simp only [Bool.and_eq_true, decide_eq_true_eq] at hin
    have hle : event.slot - monitor.sellBurstSlots ≤ t.slot := by omega
    simp [hle]
  rw [hcounted]
  exact hkept.filter _

/-- **Negative last entries are a negative flow**, where their slots are different ones and later
    than those before them. -/
theorem falling_of_entries {n : Nat} (hlen : n ≤ ((runs Trade.slot trades).rtake 20).length)
    (hneg : ∀ e ∈ (((runs Trade.slot trades).rtake 20).map entry).rtake n, e.2 < 0)
    (hnodup : ((recentSlots trades).rtake n).Nodup)
    (hlater : ∀ s ∈ (recentSlots trades).rdrop n, ∀ s' ∈ (recentSlots trades).rtake n, s < s') :
    ∃ slots, Falling (retained trades) n slots := by
  have hruns : ∀ run ∈ (runs Trade.slot trades).rtake 20, run ∈ runs Trade.slot trades :=
    fun run hrun => (Runs.rtake_sublist _ 20).subset hrun
  have hparts := Runs.rdrop_append_rtake ((runs Trade.slot trades).rtake 20) n
  unfold recentSlots at hnodup hlater
  rw [Runs.map_rtake] at hneg hnodup hlater
  rw [Runs.map_rdrop] at hlater
  unfold retained
  generalize (runs Trade.slot trades).rtake 20 = stretches at *
  have hslot : ∀ run ∈ stretches, ∀ t ∈ run, t.slot = slotOf run := fun run hrun t ht =>
    slot_eq_slotOf (hruns run hrun) ht
  refine ⟨((stretches.rtake n).map slotOf).toFinset, ?card, ?traded, ?latest, ?negative⟩
  case card =>
    rw [List.toFinset_card_of_nodup hnodup, List.length_map, Runs.length_rtake hlen]
  case traded =>
    intro s hs
    obtain ⟨run, hrun, rfl⟩ := List.mem_map.mp (List.mem_toFinset.mp hs)
    have hmem : run ∈ stretches := (Runs.rtake_sublist stretches n).subset hrun
    obtain ⟨t, ht, hts⟩ := exists_mem_slot (hruns run hmem)
    exact ⟨t, List.mem_flatten.mpr ⟨run, hmem, ht⟩, hts⟩
  case latest =>
    intro t ht hnot s hs
    obtain ⟨run, hrun, htrun⟩ := List.mem_flatten.mp ht
    rw [hslot run hrun t htrun] at hnot ⊢
    rw [← hparts] at hrun
    rcases List.mem_append.mp hrun with hearly | hlate
    · exact hlater _ (List.mem_map_of_mem hearly) s (List.mem_toFinset.mp hs)
    · exact absurd (List.mem_toFinset.mpr (List.mem_map_of_mem hlate)) hnot
  case negative =>
    intro s hs
    obtain ⟨run, hrun, rfl⟩ := List.mem_map.mp (List.mem_toFinset.mp hs)
    obtain ⟨a, b, hab⟩ := List.append_of_mem hrun
    have hin : ∀ m ∈ stretches.rtake n, m ∈ stretches := fun m hm =>
      (Runs.rtake_sublist stretches n).subset hm
    -- no other stretch has its slot
    have hother : ∀ m, m ∈ a ∨ m ∈ b → slotOf m ≠ slotOf run := by
      intro m hm heq
      rw [hab, List.map_append, List.map_cons] at hnodup
      have hcons := List.nodup_middle.mp hnodup
      refine (List.nodup_cons.mp hcons).1 ?_
      rw [← heq, ← List.map_append]
      exact List.mem_map_of_mem (List.mem_append.mpr hm)
    have hflat : stretches = (stretches.rdrop n ++ a) ++ run :: b := by
      rw [List.append_assoc, ← hab, hparts]
    have hfilter : (stretches.flatten.filter fun t => t.slot = slotOf run) = run := by
      rw [hflat]
      refine Runs.filter_flatten (hslot run (hin run hrun)) ?_ ?_
      · intro m hm t ht heq
        rcases List.mem_append.mp hm with hearly | ha
        · have hmem : m ∈ stretches := by
            rw [← hparts]
            exact List.mem_append_left _ hearly
          have hlt := hlater _ (List.mem_map_of_mem hearly) _ (List.mem_map_of_mem hrun)
          rw [← hslot m hmem t ht, heq] at hlt
          exact Nat.lt_irrefl _ hlt
        · have hmem : m ∈ stretches := hin m (by rw [hab]; simp [ha])
          exact hother m (.inl ha) ((hslot m hmem t ht).symm.trans heq)
      · intro m hm t ht heq
        have hmem : m ∈ stretches := hin m (by rw [hab]; simp [hm])
        exact hother m (.inr hm) ((hslot m hmem t ht).symm.trans heq)
    unfold netFlow
    rw [hfilter]
    exact hneg (entry run) (List.mem_map_of_mem hrun)

end Fire

/-! ## 8. Whole runs -/

/-- **The invariant**: the buffers of every registered token hold what was processed. -/
structure Inv (obs : Observed) : Prop where
  holds : ∀ mint state, obs.monitor.tokenStates.lookup mint = some state →
    Holds state (obs.processed mint)
  absent : ∀ mint, mint ∉ obs.monitor.tokenStates → obs.processed mint = []

namespace Inv

variable {obs : Observed}

theorem start (monitor : KillSwitchMonitor) : Inv (.start monitor) where
  holds := fun mint state h => by
    rw [show (Observed.start monitor).monitor.tokenStates.lookup mint = none from
      Finmap.lookup_empty mint] at h
    cases h
  absent := fun _ _ => rfl

theorem register (h : Inv obs) (mint : Pubkey) (creator : Option Pubkey) :
    Inv (obs.step (.registerPosition mint creator)) := by
  show Inv { obs with monitor := obs.monitor.registerPosition mint creator }
  unfold KillSwitchMonitor.registerPosition
  by_cases hmem : mint ∈ obs.monitor.tokenStates
  · rw [if_pos hmem]
    exact h
  rw [if_neg hmem]
  refine ⟨?holds, ?absent⟩
  case holds =>
    intro mint' state hstate
    by_cases heq : mint' = mint
    · rw [heq, Finmap.lookup_insert] at hstate
      cases hstate
      show Holds _ (obs.processed mint')
      rw [heq, h.absent mint hmem]
      exact holds_new creator
    · rw [Finmap.lookup_insert_of_ne _ heq] at hstate
      exact h.holds mint' state hstate
  case absent =>
    intro mint' hnot
    exact h.absent mint' fun hin => hnot (Finmap.mem_insert.mpr (.inr hin))

theorem unregister (h : Inv obs) (mint : Pubkey) :
    Inv (obs.step (.unregisterPosition mint)) := by
  refine ⟨?holds, ?absent⟩
  case holds =>
    intro mint' state hstate
    have hstate' : (obs.monitor.tokenStates.erase mint).lookup mint' = some state := hstate
    by_cases heq : mint' = mint
    · rw [heq, Finmap.lookup_erase] at hstate'
      cases hstate'
    · rw [Finmap.lookup_erase_ne heq] at hstate'
      show Holds state (Function.update obs.processed mint [] mint')
      rw [Function.update_of_ne heq]
      exact h.holds mint' state hstate'
  case absent =>
    intro mint' hnot
    show Function.update obs.processed mint [] mint' = []
    by_cases heq : mint' = mint
    · rw [heq, Function.update_self]
    · rw [Function.update_of_ne heq]
      exact h.absent mint' fun hin => hnot (Finmap.mem_erase.mpr ⟨heq, hin⟩)

theorem trade (h : Inv obs) (event : TokenTradeEvent) : Inv (obs.step (.processTrade event)) := by
  show Inv ⟨(obs.monitor.processTrade event).1, if event.mint ∈ obs.monitor.tokenStates then
    Function.update obs.processed event.mint (obs.processed event.mint ++ [event.trade])
    else obs.processed⟩
  unfold KillSwitchMonitor.processTrade
  cases hstate : obs.monitor.tokenStates.lookup event.mint with
  | none =>
      rw [if_neg (Finmap.lookup_eq_none.mp hstate)]
      exact h
  | some state =>
      have hmem : event.mint ∈ obs.monitor.tokenStates := Finmap.lookup_isSome.mp (hstate ▸ rfl)
      rw [if_pos hmem]
      refine ⟨?holds, ?absent⟩
      case holds =>
        intro mint' state' hstate'
        show Holds state' (Function.update obs.processed event.mint _ mint')
        by_cases heq : mint' = event.mint
        · subst heq
          rw [Finmap.lookup_insert] at hstate'
          cases hstate'
          rw [Function.update_self]
          exact (h.holds _ state hstate).addTrade event.trade
        · rw [Finmap.lookup_insert_of_ne _ heq] at hstate'
          rw [Function.update_of_ne heq]
          exact h.holds mint' state' hstate'
      case absent =>
        intro mint' hnot
        have hnot' := fun hin => hnot (Finmap.mem_insert.mpr hin)
        show Function.update obs.processed event.mint _ mint' = []
        rw [Function.update_of_ne fun heq => hnot' (.inl heq)]
        exact h.absent mint' fun hin => hnot' (.inr hin)

theorem step (h : Inv obs) (op : MonitorOp) : Inv (obs.step op) := by
  cases op with
  | registerPosition mint creator => exact h.register mint creator
  | unregisterPosition mint => exact h.unregister mint
  | processTrade event => exact h.trade event

/-- What a trade of a registered token gives, from the trades processed before. -/
theorem result (h : Inv obs) {event : TokenTradeEvent}
    (hmem : event.mint ∈ obs.monitor.tokenStates) :
    ∃ state, Holds state (obs.processed event.mint ++ [event.trade]) ∧
      (obs.monitor.processTrade event).2 = obs.monitor.firstReason state event := by
  obtain ⟨state, hstate⟩ := Option.isSome_iff_exists.mp (Finmap.lookup_isSome.mpr hmem)
  refine ⟨state.addTrade event.trade, (h.holds _ state hstate).addTrade event.trade, ?_⟩
  unfold KillSwitchMonitor.processTrade
  rw [hstate]

theorem justified (h : Inv obs) {event : TokenTradeEvent}
    (hmem : event.mint ∈ obs.monitor.tokenStates)
    (htimely : Timely obs.monitor (obs.processed event.mint ++ [event.trade]) event) :
    Justified obs.monitor (obs.processed event.mint ++ [event.trade])
      (obs.monitor.processTrade event).2 := by
  obtain ⟨state, hstate, hresult⟩ := h.result hmem
  rw [hresult]
  refine ⟨?burst, ?falling⟩
  case burst =>
    intro sellCount totalSol slots hreason
    obtain ⟨hsell, hcount, hsol⟩ := KillSwitchMonitor.counted_of_firstReason hreason
    rw [hstate.recentTrades_eq] at hcount hsol
    exact burst_of_counted (counted_ne_nil _ hsell) (htimely.sells hsell) hcount hsol
  case falling =>
    intro consecutiveSlots hreason
    obtain ⟨hlen, hneg⟩ := KillSwitchMonitor.negative_of_firstReason hreason
    rw [hstate.slotFlows_eq] at hlen hneg
    rw [List.length_map] at hlen
    exact falling_of_entries hlen hneg htimely.nodup htimely.later

theorem detected (h : Inv obs) {event : TokenTradeEvent}
    (hmem : event.mint ∈ obs.monitor.tokenStates) :
    Detected obs.monitor (obs.processed event.mint ++ [event.trade]) event
      (obs.monitor.processTrade event).2 := by
  intro start hsell _ hend hordered hfew hburst
  obtain ⟨state, hstate, hresult⟩ := h.result hmem
  have hwindow := window_sublist_counted (obs.processed event.mint) hend hordered hfew
  rw [← hstate.recentTrades_eq] at hwindow
  rw [hresult]
  exact KillSwitchMonitor.firstReason_of_sellBurst (KillSwitchMonitor.sellBurst_isSome hsell
    (hburst.count.trans hwindow.length_le) (hburst.sol.trans (total_le_of_sublist hwindow)))

end Inv

/-- **In slot order** only the counted sells need to fit into one window. -/
theorem timely_of_ordered {monitor : KillSwitchMonitor} {trades : List Trade}
    {event : TokenTradeEvent} (hordered : trades.Pairwise fun t t' => t.slot ≤ t'.slot)
    (hsells : event.isBuy = false → ∀ t ∈ monitor.counted (trades.rtake 100) event.slot,
      ∀ t' ∈ monitor.counted (trades.rtake 100) event.slot,
        t.slot < t'.slot + monitor.sellBurstSlots) : Timely monitor trades event := by
  have hincrease : (recentSlots trades).Pairwise (· < ·) := by
    unfold recentSlots
    rw [← Runs.map_rtake]
    exact (slots_increase hordered).sublist (Runs.rtake_sublist _ 20)
  refine ⟨hsells, ?nodup, ?later⟩
  case nodup =>
    exact (hincrease.imp fun {s s'} hlt => Nat.ne_of_lt hlt).sublist (Runs.rtake_sublist _ _)
  case later =>
    rw [← Runs.rdrop_append_rtake (recentSlots trades) monitor.negativeFlowSlots] at hincrease
    intro s hs s' hs'
    exact (List.pairwise_append.mp hincrease).2.2 s hs s' hs'

/-- **The flow kill switches in every run**, whatever is registered and traded in it: a trade in
    time of a registered token gets a result that is so, and a burst in slot order is never
    missed. -/
theorem kill_switches_sound (monitor : KillSwitchMonitor) (before : List MonitorOp)
    (event : TokenTradeEvent) (obs : Observed)
    (hreached : obs = foldSteps Observed.step (.start monitor) before)
    (hregistered : event.mint ∈ obs.monitor.tokenStates) :
    (Timely obs.monitor (obs.processed event.mint ++ [event.trade]) event →
      Justified obs.monitor (obs.processed event.mint ++ [event.trade])
        (obs.monitor.processTrade event).2) ∧
    Detected obs.monitor (obs.processed event.mint ++ [event.trade]) event
      (obs.monitor.processTrade event).2 := by
  have hinv : Inv obs := by
    rw [hreached]
    exact Machine.foldSteps_invariant (I := Inv) (fun _ op h => h.step op) (.start monitor) before
  exact ⟨hinv.justified hregistered, hinv.detected hregistered⟩

section Sells

/-- A fifth of a SOL is sold at a slot. -/
def sellAt (slot : Nat) : TokenTradeEvent := ⟨4, slot, false, 1 / 5, 5⟩

def burstMonitor : KillSwitchMonitor :=
  .new false (some 3) (some (1 / 2)) (some 5) (some 0) (some 100)

/-- The token is registered, and two sells are processed. -/
def sellsAt (first second : Nat) : List MonitorOp :=
  [.registerPosition 4 none, .processTrade (sellAt first), .processTrade (sellAt second)]

/-- The monitor after the two sells. -/
def afterSells (first second : Nat) : Observed :=
  foldSteps Observed.step (.start burstMonitor) (sellsAt first second)

/-- A third sell in the window fires, and the three are a burst. -/
theorem three_sells_fire :
    ((afterSells 100 101).monitor.processTrade (sellAt 102)).2 = some (.sellBurst 3 (3 / 5) 5) ∧
    ∃ start, Burst (afterSells 100 101).monitor
      [(sellAt 100).trade, (sellAt 101).trade, (sellAt 102).trade] start := by
  have hresult : ((afterSells 100 101).monitor.processTrade (sellAt 102)).2 =
      some (.sellBurst 3 (3 / 5) 5) := by decide +kernel
  refine ⟨hresult, ?_⟩
  have hsound := kill_switches_sound burstMonitor (sellsAt 100 101) (sellAt 102)
    (afterSells 100 101) rfl (by decide +kernel)
  have htimely : Timely (afterSells 100 101).monitor
      [(sellAt 100).trade, (sellAt 101).trade, (sellAt 102).trade] (sellAt 102) :=
    timely_of_ordered (by decide) fun _ => by decide +kernel
  exact (hsound.1 htimely).burst 3 (3 / 5) 5 hresult

theorem filter_three_le (p : Trade → Bool) (a b c : Trade) (h : (p a && p c) = false) :
    ([a, b, c].filter p).length ≤ 2 := by
  rcases Bool.and_eq_false_iff.mp h with ha | hc
  · rw [List.filter_cons_of_neg (by simp [ha])]
    exact List.length_filter_le p [b, c]
  · have hsplit : [a, b, c].filter p = [a, b].filter p := by
      have hnone : [c].filter p = [] := List.filter_eq_nil_iff.mpr (by simp [hc])
      show ([a, b] ++ [c]).filter p = _
      rw [List.filter_append, hnone, List.append_nil]
    rw [hsplit]
    exact List.length_filter_le p [a, b]

/-- **Three sells over six slots fire as a burst of five.** -/
theorem burst_over_six_slots :
    ¬ ∀ (monitor : KillSwitchMonitor) (before : List MonitorOp) (event : TokenTradeEvent)
      (obs : Observed), obs = foldSteps Observed.step (.start monitor) before →
        event.mint ∈ obs.monitor.tokenStates →
          Justified obs.monitor (obs.processed event.mint ++ [event.trade])
              (obs.monitor.processTrade event).2 ∧
            Detected obs.monitor (obs.processed event.mint ++ [event.trade]) event
              (obs.monitor.processTrade event).2 := by
  intro hall
  have hfires := hall burstMonitor (sellsAt 100 102) (sellAt 105) (afterSells 100 102) rfl
    (by decide +kernel)
  obtain ⟨start, hburst⟩ := hfires.1.burst 3 (3 / 5) 5 (by decide +kernel)
  have hcount : 3 ≤ (sells (inWindow
      [(sellAt 100).trade, (sellAt 102).trade, (sellAt 105).trade] start 5)).length := hburst.count
  -- the first and the last are not in one window
  have hapart : ((decide (start ≤ 100) && decide (100 < start + 5)) &&
      (decide (start ≤ 105) && decide (105 < start + 5))) = false := by
    simp only [Bool.and_eq_false_iff, decide_eq_false_iff_not]
    omega
  have htwo := filter_three_le
    (fun t => decide (start ≤ t.slot) && decide (t.slot < start + 5))
    (sellAt 100).trade (sellAt 102).trade (sellAt 105).trade hapart
  have hle := List.length_filter_le (fun t : Trade => !t.isBuy) (inWindow
    [(sellAt 100).trade, (sellAt 102).trade, (sellAt 105).trade] start 5)
  exact absurd (hcount.trans (hle.trans htwo)) (by decide)

/-- A slot that comes back counts as a third one. -/
example :
    ((foldSteps Observed.step (.start (.new false (some 100) (some 100) (some 5) (some 0) (some 3)))
      (sellsAt 100 101)).monitor.processTrade (sellAt 100)).2 = some (.negativeFlow 3) := by
  decide +kernel

end Sells

end IronCrab.Solana.KillSwitch

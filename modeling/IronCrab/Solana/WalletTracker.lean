/-
  File:      IronCrab/Solana/WalletTracker.lean
  Subject:   EARLY BUYERS (src/solana/wallet_tracker.rs): which tokens are tracked, and who bought
             them first.

  Slicing a text outside its characters panics (`none`); the pubkeys and signatures of a trade are
  printed by the caller and long enough (`TradeCall`). The maps of the source are only looked up.

  * `recordPoolCreated`, `processTrade` -- the two calls, with everything they return;
  * `Inv` -- the three collections name the same tokens, and the buyers of a token are those that
    were announced since it is tracked;
  * `early_buyers_exact` -- tracking is exact all along a run exactly where no token is created
    while it is tracked;
  * `created_again` -- a bonding curve that becomes an AMM pool lists its token twice and announces
    a buyer again.
-/
import IronCrab.Lib.Fifo
import IronCrab.Lib.Machine
import IronCrab.Lib.Word
import IronCrab.Ipc.MarketEvent

namespace IronCrab.Solana

open Ipc (WalletType WalletAction AlertSeverity InsiderAlertType MarketEventKind MarketEvent
  RecordHeader F64)
open Machine (Along foldSteps)
open Fifo (Listed)

/-! ## 1. Texts -/

/-- The characters that make up the first bytes of a text. -/
def takeBytes : Nat → List Char → Option (List Char)
  | 0, _ => some []
  | _ + 1, [] => none
  | n + 1, c :: cs =>
      if c.utf8Size ≤ n + 1 then (takeBytes (n + 1 - c.utf8Size) cs).map (c :: ·) else none

/-- `&text[..n]`. -/
def slice (n : Nat) (text : String) : Option String := (takeBytes n text.toList).map .ofList

/-! ## 2. The tracker -/

/-- Maximum number of tokens to track early buyers for. -/
def maxTrackedTokens : Nat := 500

/-- `WalletTrackerCfg`. -/
structure WalletTrackerCfg where
  enabled : Bool
  smartMoneyWallets : List String
  badActorWallets : List String
  earlyBuyerSlots : UInt64
  maxEarlyBuyersPerToken : Nat
  whaleThresholdLamports : UInt64

/-- `EarlyBuyerInfo`. -/
structure EarlyBuyerInfo where
  wallet : String
  slot : UInt64
  rank : UInt32
  amountSol : UInt64
  amountTokens : UInt64
  deriving DecidableEq

/-- `WalletTracker`. -/
structure WalletTracker where
  config : WalletTrackerCfg
  smartMoney : Finset String
  badActors : Finset String
  devWallets : Finmap fun _ : String => String
  earlyBuyers : Finmap fun _ : String => List EarlyBuyerInfo
  poolCreationSlots : Finmap fun _ : String => UInt64
  tokenTrackingOrder : List String
  walletWinRates : Finmap fun _ : String => F64

/-- A trade as the caller passes it, with the header that its events get. -/
structure TradeCall where
  mint : String
  traderWallet : String
  isBuy : Bool
  amountSol : UInt64
  amountTokens : UInt64
  slot : UInt64
  signature : String
  header : RecordHeader
  mint_long : (slice 8 mint).isSome
  wallet_long : (slice 8 traderWallet).isSome
  signature_long : (slice 16 signature).isSome

namespace WalletTracker

/-- `WalletTracker::new`. -/
def new (config : WalletTrackerCfg) : WalletTracker where
  config
  smartMoney := config.smartMoneyWallets.toFinset
  badActors := config.badActorWallets.toFinset
  devWallets := ∅
  earlyBuyers := ∅
  poolCreationSlots := ∅
  tokenTrackingOrder := []
  walletWinRates := ∅

variable (tracker : WalletTracker)

/-- The eviction at capacity: the first token of the order, out of all three collections. -/
def evictOldest : WalletTracker :=
  if maxTrackedTokens ≤ tracker.poolCreationSlots.keys.card then
    match tracker.tokenTrackingOrder with
    | oldest :: rest =>
        { tracker with
          poolCreationSlots := tracker.poolCreationSlots.erase oldest
          earlyBuyers := tracker.earlyBuyers.erase oldest
          tokenTrackingOrder := rest }
    | [] => tracker
  else tracker

/-- The insertions of `record_pool_created`. -/
def startTracking (mint : String) (slot : UInt64) : WalletTracker :=
  { tracker with
    poolCreationSlots := tracker.poolCreationSlots.insert mint slot
    earlyBuyers := tracker.earlyBuyers.insert mint []
    tokenTrackingOrder := tracker.tokenTrackingOrder ++ [mint] }

/-- `record_pool_created`. -/
def recordPoolCreated (mint : String) (slot : UInt64) : WalletTracker :=
  tracker.evictOldest.startTracking mint slot

/-- `record_dev_wallet`. -/
def recordDevWallet (mint devWallet : String) : WalletTracker :=
  { tracker with devWallets := tracker.devWallets.insert mint devWallet }

/-- `update_wallet_win_rate`. -/
def updateWalletWinRate (wallet : String) (winRate : F64) : WalletTracker :=
  { tracker with walletWinRates := tracker.walletWinRates.insert wallet winRate }

/-- The recorded buyers of a token. -/
def buyersOf (mint : String) : List EarlyBuyerInfo := (tracker.earlyBuyers.lookup mint).getD []

/-- `classify_wallet`. -/
def classifyWallet (wallet mint : String) : Option WalletType :=
  if wallet ∈ tracker.smartMoney then some .smartMoney
  else if wallet ∈ tracker.badActors then some .knownBadActor
  else if tracker.devWallets.lookup mint = some wallet then some .devWallet
  else if (tracker.buyersOf mint).any fun b => b.wallet = wallet then some .earlyBuyer
  else none

variable (call : TradeCall)

def action : WalletAction := if call.isBuy then .buy else .sell

/-- `wallet-…` and `whale-…`. -/
def walletActivity (tag : String) (walletType : WalletType) (winRate : Option F64) :
    Option MarketEvent :=
  (slice 16 call.signature).map fun sig =>
    { header := call.header
      eventId := tag ++ "-" ++ sig
      source := "wallet-tracker"
      slot := some call.slot
      kind := .walletActivity call.traderWallet walletType (action call) call.mint call.amountSol
        call.amountTokens call.signature winRate }

/-- What the alert says of a wallet of some type: kind, severity, description. No wallet is
    classified as a whale. -/
def insiderAlertOf (walletType : WalletType) :
    Option (InsiderAlertType × AlertSeverity × String) :=
  match walletType, action call with
  | .devWallet, .sell =>
      some (.devSelling, .critical, "Dev wallet " ++ call.traderWallet ++ " selling " ++
        toString call.amountSol.toNat ++ " lamports of " ++ call.mint)
  | .knownBadActor, .buy =>
      some (.badActorActive, .warning,
        "Known bad actor " ++ call.traderWallet ++ " buying " ++ call.mint)
  | .whale, .sell =>
      if tracker.config.whaleThresholdLamports.toNat * 2 ≤ call.amountSol.toNat then
        some (.whaleDumping, .warning, "Whale " ++ call.traderWallet ++ " dumping " ++
          toString (call.amountSol.toNat / 1000000000) ++ " SOL of " ++ call.mint)
      else none
  | _, _ => none

/-- `check_insider_alert`. -/
def checkInsiderAlert (walletType : WalletType) : Option (Option MarketEvent) :=
  match insiderAlertOf tracker call walletType with
  | none => some none
  | some (alertType, severity, description) => do
      let mint ← slice 8 call.mint
      let wallet ← slice 8 call.traderWallet
      some (some
        { header := call.header
          eventId := "alert-" ++ mint ++ "-" ++ wallet
          source := "wallet-tracker"
          slot := none
          kind := .insiderAlert call.mint alertType [call.traderWallet] description severity })

/-- The events of a known wallet. -/
def knownWalletEvents : Option WalletType → Option (List MarketEvent)
  | none => some []
  | some walletType => do
      let activity ← walletActivity call "wallet" walletType
        (tracker.walletWinRates.lookup call.traderWallet)
      let alert ← checkInsiderAlert tracker call walletType
      some (activity :: alert.toList)

/-- The slots from the creation of a token to the trade. -/
def slotsAfter (creationSlot : UInt64) : UInt64 := Word.satSub call.slot creationSlot

/-- The buyer that a trade makes, after those recorded before. -/
def buyerInfo (before : List EarlyBuyerInfo) : EarlyBuyerInfo where
  wallet := call.traderWallet
  slot := call.slot
  rank := (before.length + 1).toUInt32
  amountSol := call.amountSol
  amountTokens := call.amountTokens

/-- `EarlyBuyerDetected`. -/
def earlyBuyerDetected (creationSlot : UInt64) (buyer : EarlyBuyerInfo) : Option MarketEvent :=
  (slice 8 call.mint).map fun mint =>
    { header := call.header
      eventId := "early-" ++ mint ++ "-" ++ toString buyer.rank.toNat
      source := "wallet-tracker"
      slot := some call.slot
      kind := .earlyBuyerDetected call.mint buyer.wallet buyer.slot (slotsAfter call creationSlot)
        buyer.amountSol buyer.amountTokens buyer.rank }

/-- `check_early_buyer`: a buyer is recorded before its event is made. -/
def checkEarlyBuyer : WalletTracker × Option (Option MarketEvent) :=
  match tracker.poolCreationSlots.lookup call.mint with
  | none => (tracker, some none)
  | some creationSlot =>
      if tracker.config.earlyBuyerSlots < slotsAfter call creationSlot then (tracker, some none)
      else match tracker.earlyBuyers.lookup call.mint with
        | none => (tracker, some none)
        | some buyers =>
            if buyers.any fun b => b.wallet = call.traderWallet then (tracker, some none)
            else if tracker.config.maxEarlyBuyersPerToken ≤ buyers.length then (tracker, some none)
            else
              ({ tracker with
                 earlyBuyers := tracker.earlyBuyers.insert call.mint
                   (buyers ++ [buyerInfo call buyers]) },
               (earlyBuyerDetected call creationSlot (buyerInfo call buyers)).map some)

/-- The event of a whale that is not known otherwise. -/
def whaleEvents (walletType : Option WalletType) : Option (List MarketEvent) :=
  if tracker.config.whaleThresholdLamports ≤ call.amountSol ∧ walletType = none then
    (walletActivity call "whale" .whale none).map fun event => [event]
  else some []

/-- `process_trade`; without events it has panicked. -/
def processTrade : WalletTracker × Option (List MarketEvent) :=
  if !tracker.config.enabled then (tracker, some [])
  else
    let walletType := classifyWallet tracker call.traderWallet call.mint
    match knownWalletEvents tracker call walletType with
    | none => (tracker, none)
    | some known =>
        match if call.isBuy then checkEarlyBuyer tracker call else (tracker, some none) with
        | (tracker', none) => (tracker', none)
        | (tracker', some early) =>
            (tracker', (whaleEvents tracker call walletType).map fun whale =>
              known ++ early.toList ++ whale)

end WalletTracker

/-! ## 3. Runs -/

/-- The calls of a tracker. -/
inductive TrackerOp where
  | recordPoolCreated (mint : String) (slot : UInt64)
  | processTrade (call : TradeCall)
  | recordDevWallet (mint devWallet : String)
  | updateWalletWinRate (wallet : String) (winRate : F64)

namespace WalletTracker

def step (tracker : WalletTracker) : TrackerOp → WalletTracker
  | .recordPoolCreated mint slot => tracker.recordPoolCreated mint slot
  | .processTrade call => (tracker.processTrade call).1
  | .recordDevWallet mint devWallet => tracker.recordDevWallet mint devWallet
  | .updateWalletWinRate wallet winRate => tracker.updateWalletWinRate wallet winRate

/-- The tracker as far as a call keeps it: without the token that it evicts. -/
def kept (tracker : WalletTracker) : TrackerOp → WalletTracker
  | .recordPoolCreated _ _ => tracker.evictOldest
  | _ => tracker

/-- The events that a call returns. -/
def emitted (tracker : WalletTracker) : TrackerOp → List MarketEvent
  | .processTrade call => (tracker.processTrade call).2.getD []
  | _ => []

end WalletTracker

/-- The token, the buyer and the rank of an `EarlyBuyerDetected`. -/
def announcement (event : MarketEvent) : Option (String × String × UInt32) :=
  match event.kind with
  | .earlyBuyerDetected mint buyerWallet _ _ _ _ buyerRank => some (mint, buyerWallet, buyerRank)
  | _ => none

/-- The buyers of a token that some events announce, in order. -/
def announcedIn (events : List MarketEvent) (mint : String) : List (String × UInt32) :=
  (events.filterMap announcement).filterMap fun a => if a.1 = mint then some a.2 else none

/-- A tracker, and for every token the buyers that were announced since it is tracked. -/
structure Observed where
  tracker : WalletTracker
  announced : String → List (String × UInt32)

namespace Observed

def start (config : WalletTrackerCfg) : Observed := ⟨.new config, fun _ => []⟩

def step (obs : Observed) (op : TrackerOp) : Observed where
  tracker := obs.tracker.step op
  announced mint :=
    (if mint ∈ (obs.tracker.kept op).poolCreationSlots then obs.announced mint else []) ++
      announcedIn (obs.tracker.emitted op) mint

end Observed

/-- **No buyer twice, ranks from 1 without a gap, and not more than the limit.** -/
structure Ranked (limit : Nat) (announced : List (String × UInt32)) : Prop where
  nodup : (announced.map Prod.fst).Nodup
  ranks : announced.map (fun a => a.2.toNat) = List.range' 1 announced.length
  le : announced.length ≤ limit

/-- **Early-buyer tracking is exact.** -/
structure Exact (obs : Observed) : Prop where
  nodup : obs.tracker.tokenTrackingOrder.Nodup
  slots : ∀ mint, mint ∈ obs.tracker.tokenTrackingOrder ↔ mint ∈ obs.tracker.poolCreationSlots
  buyers : ∀ mint, mint ∈ obs.tracker.earlyBuyers ↔ mint ∈ obs.tracker.poolCreationSlots
  bounded : obs.tracker.poolCreationSlots.keys.card ≤ maxTrackedTokens
  announced : ∀ mint ∈ obs.tracker.poolCreationSlots,
    Ranked obs.tracker.config.maxEarlyBuyersPerToken (obs.announced mint)

/-- **A trade that records a buyer**: a buy of a tracked token in time, by a new wallet, below the
    limit. -/
structure WalletTracker.Records (tracker : WalletTracker) (call : TradeCall) : Prop where
  enabled : tracker.config.enabled
  buy : call.isBuy
  inTime : ∃ creationSlot ∈ tracker.poolCreationSlots.lookup call.mint,
    WalletTracker.slotsAfter call creationSlot ≤ tracker.config.earlyBuyerSlots
  listed : call.mint ∈ tracker.earlyBuyers
  unknown : ∀ b ∈ tracker.buyersOf call.mint, b.wallet ≠ call.traderWallet
  below : (tracker.buyersOf call.mint).length < tracker.config.maxEarlyBuyersPerToken

instance WalletTracker.Records.decidable (tracker : WalletTracker) (call : TradeCall) :
    Decidable (tracker.Records call) :=
  decidable_of_iff
    (tracker.config.enabled ∧ call.isBuy ∧
      (∃ creationSlot ∈ tracker.poolCreationSlots.lookup call.mint,
        WalletTracker.slotsAfter call creationSlot ≤ tracker.config.earlyBuyerSlots) ∧
      call.mint ∈ tracker.earlyBuyers ∧
      (∀ b ∈ tracker.buyersOf call.mint, b.wallet ≠ call.traderWallet) ∧
      (tracker.buyersOf call.mint).length < tracker.config.maxEarlyBuyersPerToken)
    ⟨fun ⟨h₁, h₂, h₃, h₄, h₅, h₆⟩ => ⟨h₁, h₂, h₃, h₄, h₅, h₆⟩,
      fun ⟨h₁, h₂, h₃, h₄, h₅, h₆⟩ => ⟨h₁, h₂, h₃, h₄, h₅, h₆⟩⟩

/-- No token is created while it is tracked, and the rank of a recorded buyer is a `u32`. -/
def Fresh (obs : Observed) : TrackerOp → Prop
  | .recordPoolCreated mint _ => mint ∉ obs.tracker.evictOldest.poolCreationSlots
  | .processTrade call => obs.tracker.Records call →
      (obs.tracker.buyersOf call.mint).length + 1 < 2 ^ 32
  | _ => True

/-! ## 4. What a trade does -/

namespace WalletTracker

section Trade

variable (tracker : WalletTracker) (call : TradeCall)

theorem walletActivity_ok (tag : String) (walletType : WalletType) (winRate : Option F64) :
    ∃ event, walletActivity call tag walletType winRate = some event ∧
      announcement event = none := by
  obtain ⟨sig, hsig⟩ := Option.isSome_iff_exists.mp call.signature_long
  unfold walletActivity
  rw [hsig]
  exact ⟨_, rfl, rfl⟩

theorem checkInsiderAlert_ok (walletType : WalletType) :
    ∃ alert, checkInsiderAlert tracker call walletType = some alert ∧
      ∀ event ∈ alert, announcement event = none := by
  obtain ⟨mint, hmint⟩ := Option.isSome_iff_exists.mp call.mint_long
  obtain ⟨wallet, hwallet⟩ := Option.isSome_iff_exists.mp call.wallet_long
  unfold checkInsiderAlert
  cases insiderAlertOf tracker call walletType with
  | none => exact ⟨none, rfl, fun event hevent => absurd hevent (Option.not_mem_none event)⟩
  | some alert =>
      simp only [hmint, hwallet, Option.bind_eq_bind, Option.bind_some]
      refine ⟨_, rfl, fun event hevent => ?_⟩
      cases hevent
      rfl

/-- The events of a known wallet announce nobody. -/
theorem knownWalletEvents_ok (walletType : Option WalletType) :
    ∃ events, knownWalletEvents tracker call walletType = some events ∧
      events.filterMap announcement = [] := by
  cases walletType with
  | none => exact ⟨[], rfl, rfl⟩
  | some walletType =>
      obtain ⟨activity, hactivity, hnone⟩ := walletActivity_ok call "wallet" walletType
        (tracker.walletWinRates.lookup call.traderWallet)
      obtain ⟨alert, halert, hquiet⟩ := checkInsiderAlert_ok tracker call walletType
      simp only [knownWalletEvents, hactivity, halert, Option.bind_eq_bind, Option.bind_some]
      refine ⟨_, rfl, List.filterMap_eq_nil_iff.mpr fun event hevent => ?_⟩
      rcases List.mem_cons.mp hevent with rfl | hmem
      · exact hnone
      · exact hquiet event (Option.mem_toList.mp hmem)

/-- And neither does the event of a whale. -/
theorem whaleEvents_ok (walletType : Option WalletType) :
    ∃ events, whaleEvents tracker call walletType = some events ∧
      events.filterMap announcement = [] := by
  obtain ⟨activity, hactivity, hnone⟩ := walletActivity_ok call "whale" .whale none
  unfold whaleEvents
  split
  · rw [hactivity]
    exact ⟨_, rfl, by rw [List.filterMap_cons_none hnone]; rfl⟩
  · exact ⟨[], rfl, rfl⟩

/-- The tracker with one more buyer of a token. -/
def withBuyer : WalletTracker :=
  { tracker with
    earlyBuyers := tracker.earlyBuyers.insert call.mint
      (tracker.buyersOf call.mint ++ [buyerInfo call (tracker.buyersOf call.mint)]) }

/-- The rank that the next buyer of a token gets. -/
def nextRank : UInt32 := ((tracker.buyersOf call.mint).length + 1).toUInt32

theorem checkEarlyBuyer_cases (henabled : tracker.config.enabled) (hbuy : call.isBuy) :
    (¬ Records tracker call ∧ checkEarlyBuyer tracker call = (tracker, some none)) ∨
      (Records tracker call ∧ ∃ event,
        checkEarlyBuyer tracker call = (withBuyer tracker call, some (some event)) ∧
        announcement event = some (call.mint, call.traderWallet, nextRank tracker call)) := by
  obtain ⟨mint, hmint⟩ := Option.isSome_iff_exists.mp call.mint_long
  unfold checkEarlyBuyer
  cases hslot : tracker.poolCreationSlots.lookup call.mint with
  | none =>
      refine .inl ⟨fun hrec => ?_, rfl⟩
      obtain ⟨slot, hmem, _⟩ := hrec.inTime
      rw [hslot] at hmem
      exact Option.not_mem_none slot hmem
  | some creationSlot =>
      dsimp only
      by_cases hlate : tracker.config.earlyBuyerSlots < slotsAfter call creationSlot
      · refine .inl ⟨fun hrec => ?_, if_pos hlate⟩
        obtain ⟨slot, hmem, hle⟩ := hrec.inTime
        rw [hslot, Option.mem_some_iff] at hmem
        exact UInt64.not_lt.mpr (hmem ▸ hle) hlate
      rw [if_neg hlate]
      cases hbuyers : tracker.earlyBuyers.lookup call.mint with
      | none =>
          exact .inl ⟨fun hrec => Finmap.lookup_eq_none.mp hbuyers hrec.listed, rfl⟩
      | some buyers =>
          have hof : tracker.buyersOf call.mint = buyers := by rw [buyersOf, hbuyers]; rfl
          dsimp only
          by_cases hknown : (buyers.any fun b => b.wallet = call.traderWallet) = true
          · refine .inl ⟨fun hrec => ?_, if_pos hknown⟩
            obtain ⟨b, hb, heq⟩ := List.any_eq_true.mp hknown
            exact hrec.unknown b (hof ▸ hb) (of_decide_eq_true heq)
          rw [if_neg hknown]
          by_cases hfull : tracker.config.maxEarlyBuyersPerToken ≤ buyers.length
          · exact .inl ⟨fun hrec => not_le.mpr hrec.below (hof ▸ hfull), if_pos hfull⟩
          rw [if_neg hfull]
          unfold earlyBuyerDetected withBuyer nextRank
          rw [hmint, hof]
          refine .inr ⟨⟨henabled, hbuy, ⟨creationSlot, hslot, UInt64.not_lt.mp hlate⟩, ?_, ?_, ?_⟩,
            _, rfl, rfl⟩
          · exact Finmap.lookup_isSome.mp (hbuyers ▸ rfl)
          · intro b hb heq
            exact hknown (List.any_eq_true.mpr ⟨b, hof ▸ hb, decide_eq_true heq⟩)
          · exact hof ▸ not_le.mp hfull

/-- **What a trade does**: it returns, and it records one buyer and announces that one, or it
    changes and announces nothing. -/
theorem processTrade_cases :
    (processTrade tracker call).2.isSome ∧
      ((¬ Records tracker call ∧ (processTrade tracker call).1 = tracker ∧
          ∀ mint, announcedIn (emitted tracker (.processTrade call)) mint = []) ∨
        (Records tracker call ∧ (processTrade tracker call).1 = withBuyer tracker call ∧
          ∀ mint, announcedIn (emitted tracker (.processTrade call)) mint =
            if call.mint = mint then [(call.traderWallet, nextRank tracker call)] else [])) := by
  have hemitted : emitted tracker (.processTrade call) =
      (processTrade tracker call).2.getD [] := rfl
  rw [hemitted]
  unfold processTrade announcedIn
  by_cases hoff : (!tracker.config.enabled) = true
  · rw [if_pos hoff]
    refine ⟨rfl, .inl ⟨fun hrec => ?_, rfl, fun _ => rfl⟩⟩
    simp [hrec.enabled] at hoff
  have henabled : tracker.config.enabled = true := by simpa using hoff
  rw [if_neg hoff]
  dsimp only
  generalize classifyWallet tracker call.traderWallet call.mint = walletType
  obtain ⟨known, hknown, hquiet⟩ := knownWalletEvents_ok tracker call walletType
  obtain ⟨whale, hwhale, hsilent⟩ := whaleEvents_ok tracker call walletType
  rw [hknown, hwhale]
  dsimp only
  -- without a recorded buyer the events are those of known wallets and whales
  have hnobody : ∀ mint, ((known ++ [] ++ whale).filterMap announcement).filterMap
      (fun a : String × String × UInt32 => if a.1 = mint then some a.2 else none) = [] := by
    intro mint
    rw [List.append_nil, List.filterMap_append, hquiet, hsilent]
    rfl
  by_cases hbuy : call.isBuy = true
  · rw [if_pos hbuy]
    rcases checkEarlyBuyer_cases tracker call henabled hbuy with
      ⟨hnot, hnone⟩ | ⟨hrec, event, hsome, hann⟩
    · rw [hnone]
      exact ⟨rfl, .inl ⟨hnot, rfl, hnobody⟩⟩
    · rw [hsome]
      refine ⟨rfl, .inr ⟨hrec, rfl, fun mint => ?_⟩⟩
      show ((known ++ [event] ++ whale).filterMap announcement).filterMap _ = _
      simp only [List.filterMap_append, hquiet, hsilent]
      rw [List.filterMap_cons_some hann]
      simp only [List.filterMap_nil, List.nil_append, List.append_nil]
      by_cases hm : call.mint = mint
      · simp [hm]
      · simp [hm]
  · rw [if_neg hbuy]
    exact ⟨rfl, .inl ⟨fun hrec => hbuy hrec.buy, rfl, hnobody⟩⟩

end Trade

end WalletTracker

/-! ## 5. What every call keeps -/

section Ranked

variable {limit : Nat} {announced : List (String × UInt32)} {wallet : String} {rank : UInt32}

theorem ranked_nil : Ranked limit [] := ⟨List.nodup_nil, rfl, Nat.zero_le limit⟩

/-- One more buyer, whose rank is its number. -/
theorem Ranked.snoc (h : Ranked limit announced) (hnew : wallet ∉ announced.map Prod.fst)
    (hbelow : announced.length < limit) (hrank : rank.toNat = announced.length + 1) :
    Ranked limit (announced ++ [(wallet, rank)]) where
  nodup := by
    rw [List.map_append]
    exact h.nodup.append (List.nodup_singleton wallet) (List.disjoint_singleton.mpr hnew)
  ranks := by
    rw [List.map_append, h.ranks, List.length_append, List.length_singleton, List.range'_concat,
      List.map_singleton, hrank]
    simp [Nat.add_comm]
  le := by
    rw [List.length_append, List.length_singleton]
    omega

/-- The last rank is the number of the buyers. -/
theorem Ranked.last (h : Ranked limit (announced ++ [(wallet, rank)])) :
    rank.toNat = announced.length + 1 := by
  have hranks := h.ranks
  rw [List.map_append, List.length_append, List.length_singleton, List.range'_concat] at hranks
  have hlast : rank.toNat = 1 + 1 * announced.length :=
    List.singleton_inj.mp (List.append_inj_right' hranks rfl)
  omega

end Ranked

/-- **The invariant**: the order names the tokens of both maps, and the buyers of a token are those
    that were announced. -/
structure Inv (obs : Observed) : Prop where
  slots : Listed obs.tracker.tokenTrackingOrder obs.tracker.poolCreationSlots
  buyers : Listed obs.tracker.tokenTrackingOrder obs.tracker.earlyBuyers
  bounded : obs.tracker.tokenTrackingOrder.length ≤ maxTrackedTokens
  recorded : ∀ mint ∈ obs.tracker.poolCreationSlots,
    obs.announced mint = (obs.tracker.buyersOf mint).map fun b => (b.wallet, b.rank)
  ranked : ∀ mint ∈ obs.tracker.poolCreationSlots,
    Ranked obs.tracker.config.maxEarlyBuyersPerToken (obs.announced mint)

namespace Inv

variable {obs : Observed}

theorem start (config : WalletTrackerCfg) : Inv (.start config) where
  slots := Fifo.listed_empty
  buyers := Fifo.listed_empty
  bounded := Nat.zero_le maxTrackedTokens
  recorded := fun _ hmint => absurd hmint Finmap.notMem_empty
  ranked := fun _ hmint => absurd hmint Finmap.notMem_empty

theorem exact (h : Inv obs) : Exact obs where
  nodup := h.slots.nodup
  slots := h.slots.mem
  buyers := fun mint => (h.buyers.mem mint).symm.trans (h.slots.mem mint)
  bounded := h.slots.card ▸ h.bounded
  announced := h.ranked

/-- A tracker with the same tokens, buyers and limits. -/
theorem same (h : Inv obs) {obs' : Observed}
    (horder : obs'.tracker.tokenTrackingOrder = obs.tracker.tokenTrackingOrder)
    (hslots : obs'.tracker.poolCreationSlots = obs.tracker.poolCreationSlots)
    (hbuyers : obs'.tracker.earlyBuyers = obs.tracker.earlyBuyers)
    (hconfig : obs'.tracker.config = obs.tracker.config)
    (hannounced : ∀ mint ∈ obs.tracker.poolCreationSlots,
      obs'.announced mint = obs.announced mint) : Inv obs' where
  slots := by
    rw [horder, hslots]
    exact h.slots
  buyers := by
    rw [horder, hbuyers]
    exact h.buyers
  bounded := horder ▸ h.bounded
  recorded := by
    intro mint hmint
    rw [hslots] at hmint
    rw [hannounced mint hmint, h.recorded mint hmint, WalletTracker.buyersOf,
      WalletTracker.buyersOf, hbuyers]
  ranked := by
    intro mint hmint
    rw [hslots] at hmint
    rw [hannounced mint hmint, hconfig]
    exact h.ranked mint hmint

/-- The eviction makes room, and keeps what is recorded of the tokens that stay. -/
theorem evict (h : Inv obs) :
    Listed obs.tracker.evictOldest.tokenTrackingOrder obs.tracker.evictOldest.poolCreationSlots ∧
    Listed obs.tracker.evictOldest.tokenTrackingOrder obs.tracker.evictOldest.earlyBuyers ∧
    obs.tracker.evictOldest.tokenTrackingOrder.length < maxTrackedTokens ∧
    obs.tracker.evictOldest.config = obs.tracker.config ∧
    ∀ mint ∈ obs.tracker.evictOldest.poolCreationSlots, mint ∈ obs.tracker.poolCreationSlots ∧
      obs.tracker.evictOldest.buyersOf mint = obs.tracker.buyersOf mint := by
  have hslots := h.slots
  have hbuyers := h.buyers
  have hbounded := h.bounded
  unfold WalletTracker.evictOldest WalletTracker.buyersOf
  rw [hslots.card]
  by_cases hfull : maxTrackedTokens ≤ obs.tracker.tokenTrackingOrder.length
  · rw [if_pos hfull]
    cases horder : obs.tracker.tokenTrackingOrder with
    | nil =>
        rw [horder] at hfull
        exact absurd hfull (by decide)
    | cons oldest rest =>
        rw [horder] at hslots hbuyers hbounded
        refine ⟨hslots.evict, hbuyers.evict, hbounded, rfl, fun mint hmint => ?_⟩
        obtain ⟨hne, hmem⟩ := Finmap.mem_erase.mp hmint
        exact ⟨hmem, by rw [Finmap.lookup_erase_ne hne]⟩
  · rw [if_neg hfull]
    exact ⟨hslots, hbuyers, not_le.mp hfull, rfl, fun mint hmint => ⟨hmint, rfl⟩⟩

theorem announced_recordPoolCreated (mint mint' : String) (slot : UInt64) :
    (obs.step (.recordPoolCreated mint slot)).announced mint' =
      if mint' ∈ obs.tracker.evictOldest.poolCreationSlots then obs.announced mint' else [] :=
  List.append_nil _

/-- A token that is not tracked is created. -/
theorem recordPoolCreated (h : Inv obs) {mint : String}
    (hfresh : mint ∉ obs.tracker.evictOldest.poolCreationSlots) (slot : UInt64) :
    Inv (obs.step (.recordPoolCreated mint slot)) := by
  obtain ⟨hslots, hbuyers, hroom, hconfig, hkept⟩ := h.evict
  have hunlisted : mint ∉ obs.tracker.evictOldest.earlyBuyers := fun hmem =>
    hfresh ((hslots.mem mint).mp ((hbuyers.mem mint).mpr hmem))
  -- the buyers of a token that stays, and of the new one
  have hof : ∀ mint', (obs.step (.recordPoolCreated mint slot)).tracker.buyersOf mint' =
      if mint' = mint then [] else obs.tracker.evictOldest.buyersOf mint' := by
    intro mint'
    show ((obs.tracker.evictOldest.earlyBuyers.insert mint []).lookup mint').getD [] = _
    by_cases heq : mint' = mint
    · rw [if_pos heq, heq, Finmap.lookup_insert]
      rfl
    · rw [if_neg heq, Finmap.lookup_insert_of_ne _ heq]
      rfl
  refine ⟨hslots.enter hfresh slot, hbuyers.enter hunlisted [], ?bounded, ?recorded, ?ranked⟩
  case bounded =>
    show (obs.tracker.evictOldest.tokenTrackingOrder ++ [mint]).length ≤ maxTrackedTokens
    rw [List.length_append, List.length_singleton]
    exact hroom
  case recorded =>
    intro mint' hmint'
    rw [announced_recordPoolCreated, hof]
    rcases Finmap.mem_insert.mp hmint' with rfl | hmem
    · rw [if_neg hfresh, if_pos rfl]
      rfl
    · have hne : mint' ≠ mint := fun heq => hfresh (heq ▸ hmem)
      rw [if_pos hmem, if_neg hne, (hkept mint' hmem).2]
      exact h.recorded mint' (hkept mint' hmem).1
  case ranked =>
    intro mint' hmint'
    rw [announced_recordPoolCreated]
    rcases Finmap.mem_insert.mp hmint' with rfl | hmem
    · rw [if_neg hfresh]
      exact ranked_nil
    · rw [if_pos hmem]
      show Ranked obs.tracker.evictOldest.config.maxEarlyBuyersPerToken _
      rw [hconfig]
      exact h.ranked mint' (hkept mint' hmem).1

/-- A trade that records nobody. -/
theorem trade_quiet (h : Inv obs) {call : TradeCall}
    (htracker : (obs.tracker.processTrade call).1 = obs.tracker)
    (hquiet : ∀ mint, announcedIn (obs.tracker.emitted (.processTrade call)) mint = []) :
    Inv (obs.step (.processTrade call)) := by
  have hsame : (obs.step (.processTrade call)).tracker = obs.tracker := htracker
  refine h.same (by rw [hsame]) (by rw [hsame]) (by rw [hsame]) (by rw [hsame]) ?_
  intro mint hmint
  show (if mint ∈ obs.tracker.poolCreationSlots then obs.announced mint else []) ++
    announcedIn (obs.tracker.emitted (.processTrade call)) mint = obs.announced mint
  rw [if_pos hmint, hquiet, List.append_nil]

/-- What is announced of a tracked token after a trade that records a buyer. -/
theorem announced_trade {call : TradeCall}
    (hannounced : ∀ mint, announcedIn (obs.tracker.emitted (.processTrade call)) mint =
      if call.mint = mint then [(call.traderWallet, obs.tracker.nextRank call)] else [])
    {mint : String} (hmint : mint ∈ obs.tracker.poolCreationSlots) :
    (obs.step (.processTrade call)).announced mint = obs.announced mint ++
      if call.mint = mint then [(call.traderWallet, obs.tracker.nextRank call)] else [] := by
  show (if mint ∈ obs.tracker.poolCreationSlots then obs.announced mint else []) ++
    announcedIn (obs.tracker.emitted (.processTrade call)) mint = _
  rw [if_pos hmint, hannounced]

theorem tracked_of_records (h : Inv obs) {call : TradeCall} (hrec : obs.tracker.Records call) :
    call.mint ∈ obs.tracker.poolCreationSlots :=
  (h.slots.mem _).mp ((h.buyers.mem _).mpr hrec.listed)

/-- The number of the announced buyers is that of the recorded ones. -/
theorem length_announced (h : Inv obs) {mint : String}
    (hmint : mint ∈ obs.tracker.poolCreationSlots) :
    (obs.announced mint).length = (obs.tracker.buyersOf mint).length := by
  rw [h.recorded mint hmint, List.length_map]

/-- A trade that records a buyer whose rank is its number. -/
theorem trade_records (h : Inv obs) {call : TradeCall} (hrec : obs.tracker.Records call)
    (htracker : (obs.tracker.processTrade call).1 = obs.tracker.withBuyer call)
    (hannounced : ∀ mint, announcedIn (obs.tracker.emitted (.processTrade call)) mint =
      if call.mint = mint then [(call.traderWallet, obs.tracker.nextRank call)] else [])
    (hrank : (obs.tracker.buyersOf call.mint).length + 1 < 2 ^ 32) :
    Inv (obs.step (.processTrade call)) := by
  have hstep : (obs.step (.processTrade call)).tracker = obs.tracker.withBuyer call := htracker
  have htracked := h.tracked_of_records hrec
  have hof : ∀ mint, (obs.tracker.withBuyer call).buyersOf mint =
      obs.tracker.buyersOf mint ++ if call.mint = mint then
        [WalletTracker.buyerInfo call (obs.tracker.buyersOf call.mint)] else [] := by
    intro mint
    show ((obs.tracker.earlyBuyers.insert call.mint _).lookup mint).getD [] = _
    by_cases heq : call.mint = mint
    · rw [if_pos heq, ← heq, Finmap.lookup_insert]
      rfl
    · rw [if_neg heq, Finmap.lookup_insert_of_ne _ (Ne.symm heq), List.append_nil]
      rfl
  refine ⟨?slots, ?buyers, ?bounded, ?recorded, ?ranked⟩
  case slots =>
    rw [hstep]
    exact h.slots
  case buyers =>
    rw [hstep]
    exact h.buyers.write hrec.listed _
  case bounded =>
    rw [hstep]
    exact h.bounded
  case recorded =>
    intro mint hmint
    rw [hstep] at hmint
    rw [announced_trade hannounced hmint, hstep, hof, List.map_append, h.recorded mint hmint]
    congr 1
    split <;> rfl
  case ranked =>
    intro mint hmint
    rw [hstep] at hmint ⊢
    rw [announced_trade hannounced hmint]
    by_cases heq : call.mint = mint
    · subst heq
      rw [if_pos rfl]
      refine (h.ranked _ htracked).snoc ?new ?below ?rank
      case new =>
        rw [h.recorded _ htracked, List.map_map, List.mem_map]
        intro hmem
        obtain ⟨b, hb, heq⟩ := hmem
        exact hrec.unknown b hb heq
      case below =>
        rw [h.length_announced htracked]
        exact hrec.below
      case rank =>
        rw [h.length_announced htracked]
        exact Nat.mod_eq_of_lt hrank
    · rw [if_neg heq, List.append_nil]
      exact h.ranked mint hmint

/-- **A call that creates no tracked token keeps the invariant.** -/
theorem step (h : Inv obs) {op : TrackerOp} (hfresh : Fresh obs op) : Inv (obs.step op) := by
  cases op with
  | recordPoolCreated mint slot => exact h.recordPoolCreated hfresh slot
  | processTrade call =>
      rcases (obs.tracker.processTrade_cases call).2 with
        ⟨_, htracker, hquiet⟩ | ⟨hrec, htracker, hannounced⟩
      · exact h.trade_quiet htracker hquiet
      · exact h.trade_records hrec htracker hannounced (hfresh hrec)
  | recordDevWallet mint devWallet =>
      refine h.same rfl rfl rfl rfl fun mint' hmint' => ?_
      exact (List.append_nil _).trans (if_pos hmint')
  | updateWalletWinRate wallet winRate =>
      refine h.same rfl rfl rfl rfl fun mint' hmint' => ?_
      exact (List.append_nil _).trans (if_pos hmint')

/-- **And any other call breaks what the collections are for.** -/
theorem fresh_of_exact (h : Inv obs) {op : TrackerOp} (hexact : Exact (obs.step op)) :
    Fresh obs op := by
  cases op with
  | recordPoolCreated mint slot =>
      intro hmem
      have hlisted : mint ∈ obs.tracker.evictOldest.tokenTrackingOrder :=
        (h.evict.1.mem mint).mpr hmem
      exact Fifo.not_listed_of_mem hlisted ⟨hexact.nodup, hexact.slots⟩
  | processTrade call =>
      intro hrec
      have htracked := h.tracked_of_records hrec
      rcases (obs.tracker.processTrade_cases call).2 with
        ⟨hnot, _⟩ | ⟨_, htracker, hannounced⟩
      · exact absurd hrec hnot
      · have hstep : (obs.step (.processTrade call)).tracker = obs.tracker.withBuyer call :=
          htracker
        have hranked := hexact.announced call.mint (by rw [hstep]; exact htracked)
        rw [announced_trade hannounced htracked, if_pos rfl] at hranked
        rw [← h.length_announced htracked, ← hranked.last]
        exact UInt32.toNat_lt _
  | recordDevWallet mint devWallet => exact trivial
  | updateWalletWinRate wallet winRate => exact trivial

end Inv

/-! ## 6. Whole runs -/

/-- **Early-buyer tracking is exact in every state of a run exactly where no token is created while
    it is tracked** (and no rank leaves `u32`). -/
theorem early_buyers_exact (config : WalletTrackerCfg) (ops : List TrackerOp) :
    Along Observed.step Fresh (.start config) ops ↔
      ∀ before after, ops = before ++ after →
        Exact (foldSteps Observed.step (.start config) before) :=
  Machine.along_iff_all_before (I := Inv) (fun _ h => h.exact) (fun _ _ hfresh h => h.step hfresh)
    (fun _ _ h hexact => h.fresh_of_exact hexact) (Inv.start config)

/-! ## 7. A bonding curve that becomes an AMM pool -/

section CreatedAgain

def trackerCfg : WalletTrackerCfg where
  enabled := true
  smartMoneyWallets := []
  badActorWallets := []
  earlyBuyerSlots := 10
  maxEarlyBuyersPerToken := 20
  whaleThresholdLamports := 50000000000

def firstBuy : TradeCall where
  mint := "TokenMint123"
  traderWallet := "EarlyBuyer1"
  isBuy := true
  amountSol := 1000000000
  amountTokens := 1000000
  slot := 1002
  signature := "SampleSignature1"
  header := { schemaVersion := 1, tsUnixMs := 0, component := "md", build := "", runId := "" }
  mint_long := by decide +kernel
  wallet_long := by decide +kernel
  signature_long := by decide +kernel

/-- A token is created, bought, and created again. -/
def curveThenAmm : List TrackerOp :=
  [.recordPoolCreated "TokenMint123" 1000, .processTrade firstBuy,
    .recordPoolCreated "TokenMint123" 1005, .processTrade firstBuy]

/-- **A token that is created again while it is tracked stands twice in the order, and its buyer is
    announced again as the first.** -/
theorem created_again :
    ¬ ∀ (config : WalletTrackerCfg) (ops : List TrackerOp),
      Exact (foldSteps Observed.step (.start config) ops) := by
  intro hall
  have hexact := hall trackerCfg curveThenAmm
  have horder :
      (foldSteps Observed.step (.start trackerCfg) curveThenAmm).tracker.tokenTrackingOrder =
        ["TokenMint123", "TokenMint123"] := by decide +kernel
  have hnodup := hexact.nodup
  rw [horder] at hnodup
  exact absurd hnodup (by decide)

example :
    (foldSteps Observed.step (.start trackerCfg) curveThenAmm).announced "TokenMint123" =
      [("EarlyBuyer1", 1), ("EarlyBuyer1", 1)] := by decide +kernel

end CreatedAgain

end IronCrab.Solana

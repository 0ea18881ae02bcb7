/-
  File:      IronCrab/Arbitrage/QuoteFeed.lean
  Subject:   FROM A POOL'S ACCOUNTS TO ITS QUOTES: what market-data publishes of a tick array
             (src/market_data/orca_tick_publish.rs), and the caches of ticks and bins that
             arb-strategy keeps (src/bin/arb_strategy.rs).

  Reading of the source's data:

  * a cache is a map by pool; the rows of a pool are walked over, so they are an `AList`;
  * the fingerprint of a row's content is a 64-bit hash, about which nothing is assumed here: where
    a result needs that two contents are told apart it says so.

  * `heldAt_run` -- what a row holds is what a register that skips unchanged content holds;
  * **`row_shows_newest_iff`** -- it shows the newest content all along exactly if no `Relapse` comes;
  * **`ticks_reach_the_quote`** -- in slot order, what was last on chain is what is quoted, in either
    layout of the account.
-/
import IronCrab.Ipc.MarketEvent
import IronCrab.Lib.Keyed
import IronCrab.Lib.Latest
import IronCrab.Solana.TickArrayAccount

namespace IronCrab.Arbitrage.QuoteFeed

open Track (Pubkey)
open Ipc (Signed MarketEvent MarketEventKind OrcaTickSnapshot RecordHeader Serde)
open Solana.TickArrayAccount (ParsedTick ParsedTickArray TickArray parseTickArray)

/-! ## 1. What is published -/

/-- `i128::to_string`. -/
def i128ToString (n : Signed 128) : String := .ofList (Track.TextCodec.decimal.intText n)

/-- `str::parse::<i128>`. -/
def parseI128 (text : String) : Option (Signed 128) :=
  (Track.TextCodec.decimal.readInt text.toList).bind fun n =>
    if h : -2 ^ (128 - 1) ≤ n ∧ n < 2 ^ (128 - 1) then some ⟨n, h⟩ else none

/-- `parsed_ticks_to_snapshots`. -/
def parsedTicksToSnapshots (parsed : ParsedTickArray) : List OrcaTickSnapshot :=
  parsed.ticks.map fun t => ⟨t.tickIndex, t.initialized, i128ToString t.liquidityNet⟩

/-- `AccountOrcaTickArrayView`. -/
structure AccountOrcaTickArrayView where
  poolAddress : Pubkey
  startTickIndex : Signed 32

/-- An account update of a tracked row, with what the host puts into the event. -/
structure AccountUpdate where
  header : RecordHeader
  eventId : String
  view : AccountOrcaTickArrayView
  data : List UInt8
  slot : UInt64

/-- `publish_orca_tick_array_from_geyser`: the event, unless the account does not parse. -/
def publishOrcaTickArrayFromGeyser (update : AccountUpdate) :
    Option MarketEvent :=
  (parseTickArray update.data).map fun parsed =>
    ⟨update.header, update.eventId, "geyser_orca_tick_array", some update.slot,
      .orcaTickArrayUpdate (Track.TextCodec.solana.pubkeyToString update.view.poolAddress)
        update.view.startTickIndex (parsedTicksToSnapshots parsed) update.slot⟩

theorem signless_decimal : Track.TextCodec.decimal.Signless where
  minus := by decide
  plus := by decide

theorem parseI128_toString (n : Signed 128) : parseI128 (i128ToString n) = some n := by
  unfold parseI128 i128ToString
  rw [String.toList_ofList, Numeral.Alphabet.readInt_intText signless_decimal, Option.bind_some,
    dif_pos n.2]

/-! ## 2. The caches -/

/-- `OrcaTickArrayCache`, `BinArrayCache`. -/
structure SlotCache (C : Type) where
  content : C
  updateSlot : UInt64

/-- The rows of every pool. -/
abbrev PoolRows (I C : Type) [DecidableEq I] :=
  Finmap fun _ : String => AList fun _ : I => SlotCache C

/-- What the handlers of both caches do with a row: content with the fingerprint of what is there
is no news, and an older slot comes too late. -/
def updateRow {I C : Type} [DecidableEq I] (fingerprint : C → UInt64) (cache : PoolRows I C)
    (poolAddress : String) (index : I) (content : C) (geyserSlot : UInt64) : PoolRows I C :=
  let poolCache := (cache.lookup poolAddress).getD ∅
  let written := cache.insert poolAddress (poolCache.insert index ⟨content, geyserSlot⟩)
  match poolCache.lookup index with
  | none => written
  | some existing =>
      if fingerprint existing.content = fingerprint content then cache
      else if geyserSlot < existing.updateSlot then cache
      else written

/-- `orca_tick_array_material_fingerprint`, `bin_array_material_fingerprint`. -/
structure Fingerprints where
  ticks : List OrcaTickSnapshot → UInt64
  bins : List Ipc.BinData → UInt64

/-- `orca_tick_arrays` and `bin_arrays` of `ArbContext`. -/
structure QuoteCaches where
  orcaTickArrays : PoolRows (Signed 32) (List OrcaTickSnapshot)
  binArrays : PoolRows (Signed 64) (List Ipc.BinData)

def QuoteCaches.new : QuoteCaches := ⟨∅, ∅⟩

section Handlers

variable (fp : Fingerprints)

/-- `handle_orca_tick_array_update`. -/
def handleOrcaTickArrayUpdate (caches : QuoteCaches) (poolAddress : String)
    (startTickIndex : Signed 32) (ticks : List OrcaTickSnapshot) (geyserSlot : UInt64) :
    QuoteCaches :=
  { caches with
    orcaTickArrays :=
      updateRow fp.ticks caches.orcaTickArrays poolAddress startTickIndex ticks geyserSlot }

/-- `handle_bin_array_update`, as far as the bins go. -/
def handleBinArrayUpdate (caches : QuoteCaches) (poolAddress : String)
    (binArrayIndex : Signed 64) (bins : List Ipc.BinData) (geyserSlot : UInt64) : QuoteCaches :=
  { caches with
    binArrays := updateRow fp.bins caches.binArrays poolAddress binArrayIndex bins geyserSlot }

/-- `handle_market_event`, as far as these caches go. -/
def handleMarketEvent (caches : QuoteCaches) (event : MarketEvent) : QuoteCaches :=
  match event.kind with
  | .binArrayUpdate poolAddress binArrayIndex bins updateSlot =>
      handleBinArrayUpdate fp caches poolAddress binArrayIndex bins updateSlot
  | .orcaTickArrayUpdate poolAddress startTickIndex ticks updateSlot =>
      handleOrcaTickArrayUpdate fp caches poolAddress startTickIndex ticks updateSlot
  | _ => caches

end Handlers

/-- A tick of an event as it is quoted from. -/
def parseTick (t : OrcaTickSnapshot) : Option ParsedTick :=
  (parseI128 t.liquidityNet).map fun liquidityNet => ⟨t.tickIndex, t.initialized, liquidityNet⟩

/-- `flatten_orca_tick_array_cache`: an array of which a tick does not parse is left out. -/
def flattenOrcaTickArrayCache (poolAddress : String)
    (arrays : AList fun _ : Signed 32 => SlotCache (List OrcaTickSnapshot)) :
    Option (Finmap fun _ : Signed 32 => ParsedTickArray) := do
  let pool ← Track.TextCodec.solana.pubkeyFromStr poolAddress
  let map := Keyed.ofPairs (arrays.entries.filterMap fun e =>
    let parsedTicks := e.2.content.filterMap parseTick
    if parsedTicks.length ≠ e.2.content.length then none
    else some (e.1, (⟨pool, e.1, parsedTicks⟩ : ParsedTickArray)))
  if map = ∅ then none else some map

/-! ## 3. What a row holds -/

section Rows

open Machine (foldSteps Along)

variable {I C : Type} [DecidableEq I]

/-- What an event brings to a row. -/
structure RowUpdate (I C : Type) where
  poolAddress : String
  index : I
  content : C
  slot : UInt64

/-- The slot and the content of a row. -/
def heldAt (cache : PoolRows I C) (poolAddress : String) (index : I) : Option (Nat × C) :=
  (((cache.lookup poolAddress).getD ∅).lookup index).map fun row =>
    (row.updateSlot.toNat, row.content)

/-- What an update brings to one row. -/
def arrival (poolAddress : String) (index : I) (u : RowUpdate I C) : Option (Nat × C) :=
  if u.poolAddress = poolAddress ∧ u.index = index then some (u.slot.toNat, u.content) else none

/-- A cache takes an update. -/
def takeUpdate (fingerprint : C → UInt64) (cache : PoolRows I C) (u : RowUpdate I C) :
    PoolRows I C :=
  updateRow fingerprint cache u.poolAddress u.index u.content u.slot

variable {fingerprint : C → UInt64}

theorem heldAt_insert (cache : PoolRows I C) (poolAddress : String) (index : I)
    (poolCache : AList fun _ : I => SlotCache C) (row : SlotCache C) :
    heldAt (cache.insert poolAddress (poolCache.insert index row)) poolAddress index =
      some (row.updateSlot.toNat, row.content) := by
  unfold heldAt
  rw [Finmap.lookup_insert, Option.getD_some, AList.lookup_insert, Option.map_some]

theorem heldAt_updateRow_self (cache : PoolRows I C) (poolAddress : String) (index : I)
    (content : C) (slot : UInt64) :
    heldAt (updateRow fingerprint cache poolAddress index content slot) poolAddress index =
      Latest.skipping fingerprint (heldAt cache poolAddress index) (slot.toNat, content) := by
  unfold updateRow
  dsimp only
  cases hrow : ((cache.lookup poolAddress).getD ∅).lookup index with
  | none =>
      have hheld : heldAt cache poolAddress index = none := by simp [heldAt, hrow]
      rw [hheld]
      exact heldAt_insert cache poolAddress index _ _
  | some existing =>
      have hheld : heldAt cache poolAddress index =
          some (existing.updateSlot.toNat, existing.content) := by simp [heldAt, hrow]
      have hslot : slot < existing.updateSlot ↔ slot.toNat < existing.updateSlot.toNat :=
        UInt64.lt_iff_toNat_lt
      rw [hheld]
      simp only [Latest.skipping, ← hslot]
      by_cases hsame : fingerprint existing.content = fingerprint content
      · rw [if_pos hsame, if_pos (.inl hsame)]
        exact hheld
      · by_cases hold : slot < existing.updateSlot
        · rw [if_neg hsame, if_pos hold, if_pos (.inr hold)]
          exact hheld
        · rw [if_neg hsame, if_neg hold, if_neg (not_or.mpr ⟨hsame, hold⟩)]
          exact heldAt_insert cache poolAddress index _ _

theorem heldAt_updateRow_ne (cache : PoolRows I C) {poolAddress poolAddress' : String}
    {index index' : I} (content : C) (slot : UInt64)
    (h : ¬ (poolAddress' = poolAddress ∧ index' = index)) :
    heldAt (updateRow fingerprint cache poolAddress' index' content slot) poolAddress index =
      heldAt cache poolAddress index := by
  have hwritten : heldAt (cache.insert poolAddress' (((cache.lookup poolAddress').getD ∅).insert
      index' ⟨content, slot⟩)) poolAddress index = heldAt cache poolAddress index := by
    unfold heldAt
    by_cases hpool : poolAddress = poolAddress'
    · subst hpool
      have hindex : index ≠ index' := fun heq => h ⟨rfl, heq.symm⟩
      rw [Finmap.lookup_insert, Option.getD_some, AList.lookup_insert_ne hindex]
    · rw [Finmap.lookup_insert_of_ne _ hpool]
  unfold updateRow
  dsimp only
  split
  · exact hwritten
  · split_ifs
    · rfl
    · rfl
    · exact hwritten

/-- **What a row holds after a run** is what a register that skips unchanged content holds of what
came to it. -/
theorem heldAt_run (updates : List (RowUpdate I C)) (cache : PoolRows I C) (poolAddress : String)
    (index : I) :
    heldAt (updates.foldl (takeUpdate fingerprint) cache) poolAddress index =
      (updates.filterMap (arrival poolAddress index)).foldl (Latest.skipping fingerprint)
        (heldAt cache poolAddress index) := by
  induction updates generalizing cache with
  | nil => rfl
  | cons u updates ih =>
      rw [List.foldl_cons, ih]
      unfold takeUpdate
      by_cases hu : u.poolAddress = poolAddress ∧ u.index = index
      · have harrival : arrival poolAddress index u = some (u.slot.toNat, u.content) := if_pos hu
        obtain ⟨rfl, rfl⟩ := hu
        rw [List.filterMap_cons_some harrival, List.foldl_cons, heldAt_updateRow_self]
      · have harrival : arrival poolAddress index u = none := if_neg hu
        rw [List.filterMap_cons_none harrival, heldAt_updateRow_ne _ _ _ hu]

theorem heldAt_empty (poolAddress : String) (index : I) :
    heldAt (∅ : PoolRows I C) poolAddress index = none := rfl

/-- **A row shows the newest content all along exactly if no relapse comes.** -/
theorem shows_newest_iff (updates : List (RowUpdate I C)) (poolAddress : String) (index : I) :
    (∀ before after, updates = before ++ after →
        Latest.Shows fingerprint
          (heldAt (before.foldl (takeUpdate fingerprint) ∅) poolAddress index,
            (before.filterMap (arrival poolAddress index)).foldl Latest.newer none)) ↔
      Along (Latest.both fingerprint) (fun s d => ¬ Latest.Relapse fingerprint s d) (none, none)
        (updates.filterMap (arrival poolAddress index)) := by
  rw [Latest.showsNewest_iff, ← Latest.forall_before_filterMap]
  simp only [heldAt_run, heldAt_empty, Latest.foldSteps_both]

end Rows

/-! ## 4. Events -/

section Events

open Machine (Along)

variable (fp : Fingerprints)

/-- What an event brings to a row of ticks. -/
def tickUpdate (event : MarketEvent) : Option (RowUpdate (Signed 32) (List OrcaTickSnapshot)) :=
  match event.kind with
  | .orcaTickArrayUpdate poolAddress startTickIndex ticks updateSlot =>
      some ⟨poolAddress, startTickIndex, ticks, updateSlot⟩
  | _ => none

/-- What an event brings to a row of bins. -/
def binUpdate (event : MarketEvent) : Option (RowUpdate (Signed 64) (List Ipc.BinData)) :=
  match event.kind with
  | .binArrayUpdate poolAddress binArrayIndex bins updateSlot =>
      some ⟨poolAddress, binArrayIndex, bins, updateSlot⟩
  | _ => none

/-- The caches after a run of events. -/
def handled (events : List MarketEvent) : QuoteCaches := events.foldl (handleMarketEvent fp) .new

theorem handleMarketEvent_eq (caches : QuoteCaches) (event : MarketEvent) :
    handleMarketEvent fp caches event =
      ⟨((tickUpdate event).map (takeUpdate fp.ticks caches.orcaTickArrays)).getD
          caches.orcaTickArrays,
        ((binUpdate event).map (takeUpdate fp.bins caches.binArrays)).getD caches.binArrays⟩ := by
  unfold handleMarketEvent tickUpdate binUpdate
  cases event.kind <;> rfl

/-- **Both caches take their own updates**, each event by event. -/
theorem handled_eq (events : List MarketEvent) :
    handled fp events = ⟨(events.filterMap tickUpdate).foldl (takeUpdate fp.ticks) ∅,
      (events.filterMap binUpdate).foldl (takeUpdate fp.bins) ∅⟩ := by
  unfold handled
  induction events using List.reverseRecOn with
  | nil => rfl
  | append_singleton events event ih =>
      rw [List.foldl_append, List.foldl_cons, List.foldl_nil, ih, handleMarketEvent_eq,
        List.filterMap_append, List.filterMap_append, List.foldl_append, List.foldl_append]
      congr 1
      · cases h : tickUpdate event <;> simp [h]
      · cases h : binUpdate event <;> simp [h]

/-- What came to a row of ticks, and to a row of bins. -/
def tickArrivals (poolAddress : String) (startTickIndex : Signed 32) (events : List MarketEvent) :
    List (Nat × List OrcaTickSnapshot) :=
  (events.filterMap tickUpdate).filterMap (arrival poolAddress startTickIndex)

def binArrivals (poolAddress : String) (binArrayIndex : Signed 64) (events : List MarketEvent) :
    List (Nat × List Ipc.BinData) :=
  (events.filterMap binUpdate).filterMap (arrival poolAddress binArrayIndex)

/-- **Rows show the newest content all along exactly if no relapse comes to them**: an event whose
content is there already leaves the slot of the row behind, and an older one that comes after it is
then taken. -/
theorem row_shows_newest_iff (events : List MarketEvent) (poolAddress : String) :
    (∀ startTickIndex : Signed 32,
      (∀ before after, events = before ++ after →
          Latest.Shows fp.ticks
            (heldAt (handled fp before).orcaTickArrays poolAddress startTickIndex,
              (tickArrivals poolAddress startTickIndex before).foldl Latest.newer none)) ↔
        Along (Latest.both fp.ticks) (fun s d => ¬ Latest.Relapse fp.ticks s d) (none, none)
          (tickArrivals poolAddress startTickIndex events)) ∧
    ∀ binArrayIndex : Signed 64,
      (∀ before after, events = before ++ after →
          Latest.Shows fp.bins
            (heldAt (handled fp before).binArrays poolAddress binArrayIndex,
              (binArrivals poolAddress binArrayIndex before).foldl Latest.newer none)) ↔
        Along (Latest.both fp.bins) (fun s d => ¬ Latest.Relapse fp.bins s d) (none, none)
          (binArrivals poolAddress binArrayIndex events) := by
  unfold tickArrivals binArrivals
  refine ⟨fun startTickIndex => ?_, fun binArrayIndex => ?_⟩
  · rw [← shows_newest_iff, ← Latest.forall_before_filterMap]
    simp only [handled_eq]
  · rw [← shows_newest_iff, ← Latest.forall_before_filterMap]
    simp only [handled_eq]

end Events

/-! ## 5. From the accounts to the caches -/

/-- An update of a tick array's account; the row is tracked under the array's own pool and start. -/
structure TickChange where
  header : RecordHeader
  eventId : String
  array : TickArray
  layout : TickArray.Layout
  slot : UInt64

def TickChange.account (u : TickChange) : AccountUpdate :=
  ⟨u.header, u.eventId, ⟨u.array.whirlpool, u.array.startTickIndex⟩, u.array.bytes u.layout, u.slot⟩

/-- What of it is published. -/
def TickChange.snapshots (u : TickChange) : List OrcaTickSnapshot :=
  parsedTicksToSnapshots u.array.parsed

/-- Any other event. -/
structure OtherEvent where
  event : MarketEvent
  other : tickUpdate event = none

inductive Change where
  | ticks (u : TickChange)
  | other (e : OtherEvent)

def publish : Change → Option MarketEvent
  | .ticks u => publishOrcaTickArrayFromGeyser u.account
  | .other e => some e.event

/-- What arrives of an event. -/
def wire (S : Serde) (event : MarketEvent) : Option MarketEvent :=
  (MarketEvent.part S).read ((MarketEvent.part S).write event)

theorem wire_eq (S : Serde) (event : MarketEvent) : wire S event = some event :=
  (MarketEvent.part S).read_write_self event

/-- The caches after a run of changes. -/
def fed (S : Serde) (fp : Fingerprints) (changes : List Change) : QuoteCaches :=
  handled fp (changes.filterMap fun change => (publish change).bind (wire S))

theorem fed_eq (S : Serde) (fp : Fingerprints) (changes : List Change) :
    fed S fp changes = handled fp (changes.filterMap publish) := by
  have hwire : (fun change => (publish change).bind (wire S)) = publish := by
    funext change
    rw [funext (wire_eq S)]
    exact Option.bind_fun_some _
  unfold fed
  rw [hwire]

/-! ### Ticks -/

/-- The text of a pool's address. -/
def poolText (pool : Pubkey) : String := Track.TextCodec.solana.pubkeyToString pool

/-- The rows of a pool. -/
def rowsOf {I C : Type} [DecidableEq I] (cache : PoolRows I C) (pool : Pubkey) :
    AList fun _ : I => SlotCache C :=
  (cache.lookup (poolText pool)).getD ∅

/-- The tick arrays that a pool is quoted from. -/
def quoteTicks (caches : QuoteCaches) (pool : Pubkey) : Option Solana.Whirlpool.OrcaTickArrays :=
  let flattened := (caches.orcaTickArrays.lookup (poolText pool)).bind
    (flattenOrcaTickArrayCache (poolText pool))
  flattened.map (Keyed.mapMap (.subtype _) fun _ array => Solana.TickArrayAccount.walkArray array)

/-- The changes of one tick array. -/
def ticksOf (pool : Pubkey) (startTickIndex : Signed 32) (changes : List Change) :
    List TickChange :=
  changes.filterMap fun
    | .ticks u =>
        if u.array.whirlpool = pool ∧ u.array.startTickIndex = startTickIndex then some u else none
    | .other _ => none

/-- The tick arrays of a pool as they were last on chain. -/
def onChain (pool : Pubkey) (changes : List Change) : Solana.Whirlpool.OrcaTickArrays :=
  Keyed.ofPairs (changes.filterMap fun
    | .ticks u =>
        if u.array.whirlpool = pool then some (u.array.startTickIndex.1, u.array.onChain) else none
    | .other _ => none)

/-- **A row holds the last content that came to it**, in slot order and with contents told apart. -/
theorem rowsOf_last {I C U : Type} [DecidableEq I] {fingerprint : C → UInt64} {pool : Pubkey}
    {index : I} {updates : List (RowUpdate I C)} {slot : U → UInt64} {content : U → C} {us : List U}
    (harrivals : updates.filterMap (arrival (poolText pool) index) =
      us.map fun u => ((slot u).toNat, content u))
    (horder : us.Pairwise fun u v => slot u ≤ slot v)
    (htell : ∀ u ∈ us, ∀ v ∈ us, fingerprint (content u) = fingerprint (content v) →
      content u = content v) :
    ((rowsOf (updates.foldl (takeUpdate fingerprint) ∅) pool).lookup index).map SlotCache.content =
      us.getLast?.map content := by
  have hcontent : ((rowsOf (updates.foldl (takeUpdate fingerprint) ∅) pool).lookup index).map
      SlotCache.content = (heldAt (updates.foldl (takeUpdate fingerprint) ∅) (poolText pool)
        index).map Prod.snd := by
    unfold heldAt rowsOf
    rw [Option.map_map]
    rfl
  have hlast : us.getLast?.map content =
      (us.map fun u => ((slot u).toNat, content u)).getLast?.map Prod.snd := by
    rw [List.getLast?_map, Option.map_map]
    rfl
  rw [hcontent, heldAt_run, heldAt_empty, harrivals, hlast]
  refine Latest.holds_last_of_inOrder ?_ ?_
  · rw [List.pairwise_map]
    exact horder.imp fun h => UInt64.le_iff_toNat_le.mp h
  · intro a ha b hb
    obtain ⟨u, hu, rfl⟩ := List.mem_map.mp ha
    obtain ⟨v, hv, rfl⟩ := List.mem_map.mp hb
    exact htell u hu v hv

section Ticks

variable (S : Serde) (fp : Fingerprints) {changes : List Change} {pool : Pubkey}

theorem poolText_injective : Function.Injective poolText := fun a b h => by
  have hread := congrArg Track.TextCodec.solana.pubkeyFromStr h
  unfold poolText at hread
  rw [Track.TextCodec.solana_roundTrips.pubkey, Track.TextCodec.solana_roundTrips.pubkey] at hread
  exact Option.some.inj hread

theorem publish_ticks (u : TickChange) : publish (.ticks u) =
    some ⟨u.header, u.eventId, "geyser_orca_tick_array", some u.slot,
      .orcaTickArrayUpdate (poolText u.array.whirlpool) u.array.startTickIndex u.snapshots
        u.slot⟩ := by
  unfold publish publishOrcaTickArrayFromGeyser TickChange.account
  dsimp only
  rw [TickArray.parse_bytes]
  rfl

/-- **What comes to a row of ticks** are the changes of its array. -/
theorem tickArrivals_publish (pool : Pubkey) (startTickIndex : Signed 32) (changes : List Change) :
    tickArrivals (poolText pool) startTickIndex (changes.filterMap publish) =
      (ticksOf pool startTickIndex changes).map fun u => (u.slot.toNat, u.snapshots) := by
  unfold tickArrivals ticksOf
  rw [List.filterMap_filterMap, List.filterMap_filterMap, List.map_filterMap]
  refine List.filterMap_congr fun change _ => ?_
  cases change with
  | other e =>
      simp only [publish, Option.bind_some, e.other, Option.bind_none]
      rfl
  | ticks u =>
      rw [publish_ticks]
      simp only [Option.bind_some, tickUpdate, arrival, poolText_injective.eq_iff]
      split_ifs
      · rfl
      · rfl

/-- What was last on chain of an array. -/
theorem lookup_onChain (pool : Pubkey) (startTickIndex : Signed 32) (changes : List Change) :
    (onChain pool changes).lookup startTickIndex.1 =
      (ticksOf pool startTickIndex changes).getLast?.map fun u => u.array.onChain := by
  have hfilter : ((changes.filterMap fun
      | .ticks u =>
          if u.array.whirlpool = pool then some (u.array.startTickIndex.1, u.array.onChain) else none
      | .other _ => none).filter fun e => decide (e.1 = startTickIndex.1)) =
        (ticksOf pool startTickIndex changes).map fun u =>
          (u.array.startTickIndex.1, u.array.onChain) := by
    unfold ticksOf
    rw [List.filter_filterMap, List.map_filterMap]
    refine List.filterMap_congr fun change _ => ?_
    cases change with
    | other e => rfl
    | ticks u =>
        have hkey : u.array.startTickIndex.1 = startTickIndex.1 ↔
            u.array.startTickIndex = startTickIndex := Subtype.ext_iff.symm
        by_cases hpool : u.array.whirlpool = pool <;>
          by_cases hstart : u.array.startTickIndex = startTickIndex <;>
          simp [hpool, hstart, hkey]
  unfold onChain
  rw [Keyed.lookup_ofPairs_eq_last, hfilter, List.getLast?_map, Option.map_map]
  rfl

/-- **A row of ticks holds what its array was last seen with**, in slot order and with contents
told apart. -/
theorem rowsOf_ticks {startTickIndex : Signed 32}
    (horder : (ticksOf pool startTickIndex changes).Pairwise fun u v => u.slot ≤ v.slot)
    (htell : ∀ u ∈ ticksOf pool startTickIndex changes,
      ∀ v ∈ ticksOf pool startTickIndex changes,
        fp.ticks u.snapshots = fp.ticks v.snapshots → u.snapshots = v.snapshots) :
    ((rowsOf (fed S fp changes).orcaTickArrays pool).lookup startTickIndex).map SlotCache.content =
      (ticksOf pool startTickIndex changes).getLast?.map TickChange.snapshots := by
  rw [fed_eq, handled_eq]
  exact rowsOf_last (tickArrivals_publish pool startTickIndex changes) horder htell

/-- The ticks of an event read back. -/
theorem filterMap_parseTick (parsed : ParsedTickArray) :
    (parsedTicksToSnapshots parsed).filterMap parseTick = parsed.ticks := by
  unfold parsedTicksToSnapshots
  rw [List.filterMap_map]
  have hread : parseTick ∘ (fun t : ParsedTick =>
      (⟨t.tickIndex, t.initialized, i128ToString t.liquidityNet⟩ : OrcaTickSnapshot)) = some := by
    funext t
    simp [parseTick, parseI128_toString]
  rw [hread, List.filterMap_some]

/-- What a row is quoted as. -/
def flatRow (pool : Pubkey) (startTickIndex : Signed 32)
    (cache : SlotCache (List OrcaTickSnapshot)) : Option ParsedTickArray :=
  let parsedTicks := cache.content.filterMap parseTick
  if parsedTicks.length ≠ cache.content.length then none
  else some ⟨pool, startTickIndex, parsedTicks⟩

theorem flatRow_snapshots (u : TickChange) {row : SlotCache (List OrcaTickSnapshot)}
    (h : row.content = u.snapshots) :
    flatRow u.array.whirlpool u.array.startTickIndex row = some u.array.parsed := by
  have hlength : u.array.parsed.ticks.length = u.snapshots.length := by
    unfold TickChange.snapshots parsedTicksToSnapshots
    rw [List.length_map]
  unfold flatRow
  dsimp only
  rw [h, show u.snapshots.filterMap parseTick = u.array.parsed.ticks from
    filterMap_parseTick u.array.parsed, if_neg (not_not.mpr hlength)]
  rfl

/-- What the rows of a pool are quoted as. -/
def flatRows (pool : Pubkey)
    (arrays : AList fun _ : Signed 32 => SlotCache (List OrcaTickSnapshot)) :
    Finmap fun _ : Signed 32 => ParsedTickArray :=
  Keyed.ofPairs (arrays.entries.filterMap fun e =>
    (flatRow pool e.1 e.2).map fun array => (e.1, array))

theorem flatten_eq (pool : Pubkey)
    (arrays : AList fun _ : Signed 32 => SlotCache (List OrcaTickSnapshot)) :
    flattenOrcaTickArrayCache (poolText pool) arrays =
      if flatRows pool arrays = ∅ then none else some (flatRows pool arrays) := by
  have hrow : (fun e : (_ : Signed 32) × SlotCache (List OrcaTickSnapshot) =>
      (flatRow pool e.1 e.2).map fun array => (e.1, array)) = fun e =>
        let parsedTicks := e.2.content.filterMap parseTick
        if parsedTicks.length ≠ e.2.content.length then none
        else some (e.1, (⟨pool, e.1, parsedTicks⟩ : ParsedTickArray)) := by
    funext e
    unfold flatRow
    dsimp only
    split_ifs
    · rfl
    · rfl
  unfold flattenOrcaTickArrayCache flatRows poolText
  rw [Track.TextCodec.solana_roundTrips.pubkey, hrow]
  rfl

theorem quoteTicks_eq (caches : QuoteCaches) (pool : Pubkey) :
    let rows := flatRows pool (rowsOf caches.orcaTickArrays pool)
    quoteTicks caches pool = if rows = ∅ then none else
      some (Keyed.mapMap (.subtype _) (fun _ array => Solana.TickArrayAccount.walkArray array)
        rows) := by
  unfold quoteTicks rowsOf
  cases caches.orcaTickArrays.lookup (poolText pool) with
  | none => rfl
  | some arrays =>
      dsimp only [Option.bind_some, Option.getD_some]
      rw [flatten_eq]
      split_ifs
      · rfl
      · rfl

theorem mem_ticksOf {startTickIndex : Signed 32} {u : TickChange}
    (h : u ∈ ticksOf pool startTickIndex changes) :
    u.array.whirlpool = pool ∧ u.array.startTickIndex = startTickIndex := by
  obtain ⟨change, _, hu⟩ := List.mem_filterMap.mp h
  cases change with
  | other e => cases hu
  | ticks v =>
      dsimp only at hu
      split_ifs at hu with hrow
      obtain rfl := Option.some.inj hu
      exact hrow

/-- An array as it is quoted from. -/
theorem lookup_flatRow {startTickIndex : Signed 32}
    {arrays : AList fun _ : Signed 32 => SlotCache (List OrcaTickSnapshot)}
    (hrow : (arrays.lookup startTickIndex).map SlotCache.content =
      (ticksOf pool startTickIndex changes).getLast?.map TickChange.snapshots) :
    ((arrays.lookup startTickIndex).bind (flatRow pool startTickIndex)).map
        Solana.TickArrayAccount.walkArray =
      (onChain pool changes).lookup startTickIndex.1 := by
  rw [lookup_onChain]
  cases hlast : (ticksOf pool startTickIndex changes).getLast? with
  | none =>
      rw [hlast] at hrow
      rw [Option.map_eq_none_iff.mp hrow]
      rfl
  | some u =>
      rw [hlast] at hrow
      obtain ⟨row, hlookup, hcontent⟩ := Option.map_eq_some_iff.mp hrow
      obtain ⟨rfl, rfl⟩ := mem_ticksOf (List.mem_of_getLast? hlast)
      rw [hlookup, Option.bind_some, flatRow_snapshots u hcontent, Option.map_some,
        Solana.TickArrayAccount.walkArray_parsed, Option.map_some]

theorem lookup_onChain_of_notMem {key : Int} (hkey : ∀ startTickIndex : Signed 32,
    startTickIndex.1 ≠ key) : (onChain pool changes).lookup key = none := by
  refine Keyed.lookup_ofPairs_of_notMem fun hmem => ?_
  obtain ⟨e, he, rfl⟩ := List.mem_map.mp hmem
  obtain ⟨change, _, hchange⟩ := List.mem_filterMap.mp he
  cases change with
  | other e => cases hchange
  | ticks u =>
      dsimp only at hchange
      split_ifs at hchange
      obtain rfl := Option.some.inj hchange
      exact hkey _ rfl

/-- Rows that hold what their arrays were last seen with are walked as what was last on chain. -/
theorem walk_flatRows {arrays : AList fun _ : Signed 32 => SlotCache (List OrcaTickSnapshot)}
    (hrows : ∀ startTickIndex, (arrays.lookup startTickIndex).map SlotCache.content =
      (ticksOf pool startTickIndex changes).getLast?.map TickChange.snapshots) :
    Keyed.mapMap (.subtype _) (fun _ array => Solana.TickArrayAccount.walkArray array)
      (flatRows pool arrays) = onChain pool changes := by
  refine Finmap.ext_lookup fun key => ?_
  by_cases hkey : ∃ startTickIndex : Signed 32, startTickIndex.1 = key
  · obtain ⟨startTickIndex, rfl⟩ := hkey
    have hlookup := Keyed.lookup_mapMap (.subtype _)
      (fun _ array => Solana.TickArrayAccount.walkArray array) (flatRows pool arrays) startTickIndex
    unfold flatRows at hlookup ⊢
    rw [Keyed.lookup_ofPairs_filterMap, lookup_flatRow (hrows startTickIndex)] at hlookup
    exact hlookup
  · have hnone : ∀ startTickIndex : Signed 32, startTickIndex.1 ≠ key :=
      fun startTickIndex h => hkey ⟨startTickIndex, h⟩
    rw [lookup_onChain_of_notMem hnone]
    exact Keyed.lookup_mapMap_of_notMem _ _ _ hnone

/-- An Orca pool's quote from the caches: without tick arrays there is none. -/
def quoteOrca (checks : Bool) (pool : Solana.Whirlpool.OrcaWhirlpoolQuoteInput)
    (caches : QuoteCaches) (mintIn mintOut : String) (amountIn : UInt64) :
    Solana.Whirlpool.Quoted :=
  match quoteTicks caches pool.pool with
  | none => .returned none
  | some ticks => Solana.Whirlpool.orcaQuoteExactIn checks pool ticks mintIn mintOut amountIn

/-- Without tick arrays the walk gives no quote either. -/
theorem orcaQuoteExactIn_empty (checks : Bool) (pool : Solana.Whirlpool.OrcaWhirlpoolQuoteInput)
    (mintIn mintOut : String) (amountIn : UInt64) :
    Solana.Whirlpool.orcaQuoteExactIn checks pool ∅ mintIn mintOut amountIn = .returned none := by
  unfold Solana.Whirlpool.orcaQuoteExactIn
  split_ifs
  · rfl
  · split
    · rfl
    · simp only [Finmap.lookup_empty]

/-- **An Orca quote is the quote on what was last on chain**: whatever layouts the accounts have,
over the wire and through the cache. It takes that the updates of an array come in slot order and
that the fingerprint tells its contents apart. -/
theorem ticks_reach_the_quote (checks : Bool) (pool : Solana.Whirlpool.OrcaWhirlpoolQuoteInput)
    (changes : List Change) (mintIn mintOut : String) (amountIn : UInt64)
    (horder : ∀ startTickIndex, (ticksOf pool.pool startTickIndex changes).Pairwise fun u v =>
      u.slot ≤ v.slot)
    (htell : ∀ startTickIndex, ∀ u ∈ ticksOf pool.pool startTickIndex changes,
      ∀ v ∈ ticksOf pool.pool startTickIndex changes,
        fp.ticks u.snapshots = fp.ticks v.snapshots → u.snapshots = v.snapshots) :
    quoteOrca checks pool (fed S fp changes) mintIn mintOut amountIn =
      Solana.Whirlpool.orcaQuoteExactIn checks pool (onChain pool.pool changes) mintIn mintOut
        amountIn := by
  have hwalk := walk_flatRows fun startTickIndex =>
    rowsOf_ticks S fp (horder startTickIndex) (htell startTickIndex)
  have hquote := quoteTicks_eq (fed S fp changes) pool.pool
  dsimp only at hquote
  rw [hwalk] at hquote
  unfold quoteOrca
  rw [hquote]
  split_ifs with hempty
  · -- no rows, and none on chain
    rw [hempty] at hwalk
    rw [← hwalk]
    exact (orcaQuoteExactIn_empty checks pool mintIn mintOut amountIn).symm
  · rfl

/-- An array of which at most the first tick is initialized. -/
def sampleArray (first : Option Solana.TickArrayAccount.TickData) : TickArray :=
  ⟨7, ⟨0, by decide⟩, fun slot => if slot.val = 0 then first else none⟩

def sampleTick : Solana.TickArrayAccount.TickData := ⟨⟨5, by decide⟩, List.replicate 96 0, by simp⟩

def sampleChange (first : Option Solana.TickArrayAccount.TickData) (layout : TickArray.Layout)
    (slot : UInt64) : TickChange :=
  ⟨⟨1, 1700000000000, "market-data", "build", "run"⟩, "id", sampleArray first, layout, slot⟩

/-- The classic layout, then with an initialized tick the dynamic one. -/
def sampleChanges : List Change :=
  [.ticks (sampleChange none .classic 1), .ticks (sampleChange (some sampleTick) (.dynamic []) 2)]

def samplePool : Solana.Whirlpool.OrcaWhirlpoolQuoteInput := ⟨7, 1, 2, 2 ^ 64, 1000, 0, 1, 300⟩

def sampleFingerprints : Fingerprints :=
  ⟨fun ticks => .ofNat (ticks.countP (·.initialized)), fun bins => .ofNat bins.length⟩

theorem ticksOf_sample (startTickIndex : Signed 32) :
    (ticksOf 7 startTickIndex sampleChanges).Sublist
      [sampleChange none .classic 1, sampleChange (some sampleTick) (.dynamic []) 2] := by
  by_cases hstart : (⟨0, by decide⟩ : Signed 32) = startTickIndex
  · simp [ticksOf, sampleChanges, sampleChange, sampleArray, hstart]
  · simp [ticksOf, sampleChanges, sampleChange, sampleArray, hstart]

theorem fingerprints_sample :
    sampleFingerprints.ticks (sampleChange none .classic 1).snapshots = 0 ∧
      sampleFingerprints.ticks (sampleChange (some sampleTick) (.dynamic []) 2).snapshots = 1 := by
  decide +kernel

theorem sample_ticks_quoted :
    quoteOrca true samplePool (fed Serde.plain sampleFingerprints sampleChanges) "A" "B" 10 =
      Solana.Whirlpool.orcaQuoteExactIn true samplePool (onChain 7 sampleChanges) "A" "B" 10 :=
  ticks_reach_the_quote Serde.plain sampleFingerprints true samplePool sampleChanges "A" "B" 10
    (fun startTickIndex => List.Pairwise.sublist (ticksOf_sample startTickIndex) (by decide))
    (fun startTickIndex u hu v hv hsame => by
      have hu' := (ticksOf_sample startTickIndex).subset hu
      have hv' := (ticksOf_sample startTickIndex).subset hv
      obtain ⟨hnone, hsome⟩ := fingerprints_sample
      simp only [List.mem_cons, List.not_mem_nil, or_false] at hu' hv'
      rcases hu' with rfl | rfl <;> rcases hv' with rfl | rfl
      · rfl
      · rw [hnone, hsome] at hsame
        exact absurd hsame (by decide)
      · rw [hnone, hsome] at hsame
        exact absurd hsame (by decide)
      · rfl)

end Ticks

end IronCrab.Arbitrage.QuoteFeed

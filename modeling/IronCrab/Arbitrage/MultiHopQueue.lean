/-
  File:      IronCrab/Arbitrage/MultiHopQueue.lean
  Subject:   THE DIRTY TOKENS OF THE MULTI-HOP SEARCH (src/arbitrage/multi_hop_integration.rs):
             from a price update to the tokens that are searched.

  Reading of the source's data:

  * a parsed public key is an `Option`: a text that is none ends the call;
  * an `Instant` is an `Int` of nanoseconds, so that `Instant::now() - cooldown` is one; a batch
    reads the clock once, and once more for every token;
  * the dirty tokens are drained in the order of the map (an `AList`), the search states are read
    by key;
  * the batch that the worker has drained stands next to the queue, as other threads enqueue while
    it is filtered. What is searched, quoted and counted elsewhere is not here.

  Main results:

  * `changeBps_of_fits` -- the change in basis points, as long as it fits;
  * `filterTokens_spec`, `processDrained_spec` -- the loop of the filter, token by token;
  * `accounted_step` -- what a step does to the account of a token;
  * **`moved_is_searched`** -- what became of the latest update of a token that has moved;
  * `moved_and_postponed` -- a move within the cooldown.
-/
import IronCrab.Track.Ownership
import IronCrab.Lib.Machine
import IronCrab.Lib.Table

namespace IronCrab.Arbitrage

open Track (Pubkey)
open Machine (Along foldSteps)

/-! ## 1. Ratios -/

/-- `as i64`: the low 64 bits with a sign. Every `i64` operation of a release build wraps so. -/
def asI64 (x : Int) : Int := x.bmod (2 ^ 64)

/-- `as u32`: the low 32 bits. -/
def asU32 (x : Int) : UInt32 := UInt32.ofNat (x % 2 ^ 32).toNat

/-- `change_bps`: how far a ratio is from the last one, in basis points of the last one. -/
def changeBps (newPriceRatio lastRatio : UInt64) : UInt32 :=
  if 0 < lastRatio then
    let last := asI64 lastRatio.toNat
    let change := asI64 (asI64 newPriceRatio.toNat - last)
    asU32 ((asI64 (asI64 change.natAbs * 10000)).tdiv last)
  else UInt32.ofNat (2 ^ 32 - 1)

/-- How far two ratios are from each other. -/
def ratioGap (newPriceRatio lastRatio : UInt64) : Nat :=
  ((newPriceRatio.toNat : Int) - lastRatio.toNat).natAbs

/-- No step of `change_bps` leaves its type. -/
structure Fits (newPriceRatio lastRatio : UInt64) : Prop where
  new : newPriceRatio.toNat < 2 ^ 63
  last : lastRatio.toNat < 2 ^ 63
  product : ratioGap newPriceRatio lastRatio * 10000 < 2 ^ 63
  quotient : ratioGap newPriceRatio lastRatio * 10000 / lastRatio.toNat < 2 ^ 32

instance (new last : UInt64) : Decidable (Fits new last) :=
  decidable_of_iff (new.toNat < 2 ^ 63 ∧ last.toNat < 2 ^ 63 ∧ ratioGap new last * 10000 < 2 ^ 63 ∧
    ratioGap new last * 10000 / last.toNat < 2 ^ 32)
    ⟨fun ⟨h₁, h₂, h₃, h₄⟩ => ⟨h₁, h₂, h₃, h₄⟩, fun ⟨h₁, h₂, h₃, h₄⟩ => ⟨h₁, h₂, h₃, h₄⟩⟩

theorem asI64_of_fits {x : Int} (hlo : -(2 ^ 63) ≤ x) (hhi : x < 2 ^ 63) : asI64 x = x := by
  unfold asI64
  exact Int.bmod_eq_of_le (by omega) (by omega)

theorem toNat_asU32 {n : Nat} (h : n < 2 ^ 32) : (asU32 n).toNat = n := by
  unfold asU32
  have hmod : ((n : Int) % 2 ^ 32).toNat = n := by
    rw [Int.emod_eq_of_lt (by omega) (by omega)]
    exact Int.toNat_natCast n
  rw [hmod]
  exact UInt32.toNat_ofNat_of_lt' h

/-- **The change in basis points**, rounded down, as long as it fits. -/
theorem changeBps_of_fits {new last : UInt64} (h : Fits new last) (hpos : 0 < last) :
    (changeBps new last).toNat = ratioGap new last * 10000 / last.toNat := by
  have hnew := h.new
  have hlast := h.last
  have hproduct := h.product
  have hgap : ((new.toNat : Int) - last.toNat).natAbs = ratioGap new last := rfl
  unfold changeBps
  rw [if_pos hpos]
  dsimp only
  rw [asI64_of_fits (x := last.toNat) (by omega) (by omega),
    asI64_of_fits (x := new.toNat) (by omega) (by omega),
    asI64_of_fits (x := (new.toNat : Int) - last.toNat) (by omega) (by omega), hgap,
    asI64_of_fits (x := (ratioGap new last : Int)) (by omega) (by omega),
    asI64_of_fits (x := (ratioGap new last : Int) * 10000) (by omega) (by omega)]
  have hdiv : ((ratioGap new last : Int) * 10000).tdiv (last.toNat : Int) =
      ((ratioGap new last * 10000 / last.toNat : Nat) : Int) := by
    rw [Int.tdiv_eq_ediv_of_nonneg (by omega), Int.natCast_ediv, Int.natCast_mul]
    rfl
  rw [hdiv, toNat_asU32 h.quotient]

/-! ## 2. The queue and the filter -/

abbrev Instant := Int

/-- `duration_since`, which is zero for a later instant. -/
def durationSince (now earlier : Instant) : Nat := (now - earlier).toNat

/-- What `MultiHopConfig` says about the queue and the filter. -/
structure MultiHopConfig where
  enabled : Bool
  minPriceChangeBps : UInt32
  tokenCooldownMs : UInt64

/-- `Duration::from_millis(config.token_cooldown_ms)`. -/
def MultiHopConfig.cooldown (config : MultiHopConfig) : Nat :=
  1000000 * config.tokenCooldownMs.toNat

/-- `TokenSearchState`. -/
structure TokenSearchState where
  lastSearch : Instant
  lastPriceRatio : Option UInt64

/-- `DirtyTokenEntry`. -/
structure DirtyTokenEntry where
  priceRatio : UInt64
  eventSlot : Option UInt64
  eventSeenAtMs : UInt64

abbrev DirtyTokens := AList fun _ : Pubkey => DirtyTokenEntry

/-- `MAX_DIRTY_TOKENS`. -/
def maxDirtyTokens : Nat := 10000

/-- `MultiHopArbitrage`, as far as the queue and the filter go. -/
structure MultiHopArbitrage where
  config : MultiHopConfig
  tokenState : Finmap fun _ : Pubkey => TokenSearchState
  poolMints : Finmap fun _ : Pubkey => Pubkey × Pubkey
  dirtyTokens : DirtyTokens
  searchesTriggered : Nat
  searchesSkippedCooldown : Nat
  searchesSkippedSmallChange : Nat

/-- What the filter says about a token. -/
inductive Verdict where
  | cooldown
  | smallChange
  | search
  deriving DecidableEq

/-- The two checks of the filter. -/
def verdict (config : MultiHopConfig) (now : Instant) (entry : TokenSearchState)
    (newPriceRatio : UInt64) : Verdict :=
  if durationSince now entry.lastSearch < config.cooldown then .cooldown
  else match entry.lastPriceRatio with
    | some lastRatio =>
        if changeBps newPriceRatio lastRatio < config.minPriceChangeBps then .smallChange
        else .search
    | none => .search

/-- What the loop of the filter changes. -/
structure FilterState where
  tokenState : Finmap fun _ : Pubkey => TokenSearchState
  skippedCooldown : Nat
  skippedSmallChange : Nat
  result : List Pubkey

/-- The entry of a token, a new one included. -/
def entryOf (config : MultiHopConfig) (reading : Pubkey → Instant)
    (tokenState : Finmap fun _ : Pubkey => TokenSearchState) (token : Pubkey) :
    TokenSearchState :=
  (tokenState.lookup token).getD ⟨reading token - config.cooldown, none⟩

/-- One round of the loop. -/
def filterToken (config : MultiHopConfig) (now : Instant) (reading : Pubkey → Instant)
    (st : FilterState) (item : Pubkey × UInt64) : FilterState :=
  let entry := entryOf config reading st.tokenState item.1
  let tokenState := st.tokenState.insert item.1 entry
  match verdict config now entry item.2 with
  | .cooldown => { st with tokenState, skippedCooldown := st.skippedCooldown + 1 }
  | .smallChange => { st with tokenState, skippedSmallChange := st.skippedSmallChange + 1 }
  | .search =>
      { st with
        tokenState := tokenState.insert item.1 ⟨now, some item.2⟩
        result := st.result ++ [item.1] }

namespace MultiHopArbitrage

/-- `MultiHopArbitrage::new`. -/
def new (config : MultiHopConfig) : MultiHopArbitrage := ⟨config, ∅, ∅, ∅, 0, 0, 0⟩

/-- `enqueue_dirty_token`. -/
def enqueueDirtyToken (arb : MultiHopArbitrage) (token : Pubkey) (priceRatio : UInt64)
    (eventSlot : Option UInt64) (eventSeenAtMs : UInt64) : MultiHopArbitrage :=
  if maxDirtyTokens ≤ arb.dirtyTokens.entries.length ∧ token ∉ arb.dirtyTokens then arb
  else
    { arb with
      dirtyTokens := arb.dirtyTokens.insert token ⟨priceRatio, eventSlot, eventSeenAtMs⟩ }

/-- `a * 10_000 / b` in `u128`, `as u64`. -/
def scaledRatio (a b : UInt64) : UInt64 := UInt64.ofNat (a.toNat * 10000 / b.toNat)

/-- What `enqueue_pool_price_update` enqueues: the mints of the pool with their ratios. -/
def priceUpdates (arb : MultiHopArbitrage) (poolAddress inputMint outputMint : Option Pubkey)
    (inputAmount outputAmount : UInt64) : List (Pubkey × UInt64) :=
  if arb.config.enabled = false then []
  else match poolAddress, inputMint, outputMint with
    | some pool, some input, some output =>
        if inputAmount = 0 ∨ outputAmount = 0 then []
        else
          let mints := (arb.poolMints.lookup pool).getD (input, output)
          [mints.1, mints.2].filterMap fun mint =>
            if mint = input then some (mint, scaledRatio outputAmount inputAmount)
            else if mint = output then some (mint, scaledRatio inputAmount outputAmount)
            else none
    | _, _, _ => []

/-- `enqueue_pool_price_update`. -/
def enqueuePoolPriceUpdate (arb : MultiHopArbitrage)
    (poolAddress inputMint outputMint : Option Pubkey) (inputAmount outputAmount : UInt64)
    (eventSlot : Option UInt64) (eventSeenAtMs : UInt64) : MultiHopArbitrage :=
  (arb.priceUpdates poolAddress inputMint outputMint inputAmount outputAmount).foldl
    (fun arb update => arb.enqueueDirtyToken update.1 update.2 eventSlot eventSeenAtMs) arb

/-- `filter_tokens_for_search`. -/
def filterTokensForSearch (arb : MultiHopArbitrage) (now : Instant) (reading : Pubkey → Instant)
    (tokenRatios : List (Pubkey × UInt64)) : FilterState :=
  tokenRatios.foldl (filterToken arb.config now reading)
    ⟨arb.tokenState, arb.searchesSkippedCooldown, arb.searchesSkippedSmallChange, []⟩

/-- The ratios of a batch. -/
def tokenRatios (batch : DirtyTokens) : List (Pubkey × UInt64) :=
  batch.entries.map fun e => (e.1, e.2.priceRatio)

/-- What `process_dirty_batch` does with the batch it has drained, up to the search: the tokens to
    search. -/
def processDrained (arb : MultiHopArbitrage) (batch : DirtyTokens) (now : Instant)
    (reading : Pubkey → Instant) : List Pubkey × MultiHopArbitrage :=
  if arb.config.enabled = false then ([], arb)
  else
    let st := arb.filterTokensForSearch now reading (tokenRatios batch)
    (st.result, { arb with
      tokenState := st.tokenState
      searchesSkippedCooldown := st.skippedCooldown
      searchesSkippedSmallChange := st.skippedSmallChange
      searchesTriggered := arb.searchesTriggered + if st.result.isEmpty then 0 else 1 })

end MultiHopArbitrage

/-! ## 3. The loop of the filter, token by token -/

section Filter

variable {config : MultiHopConfig} {now : Instant} {reading : Pubkey → Instant}

/-- The search state of a token behind the verdict on it. -/
def settle (config : MultiHopConfig) (now : Instant) (entry : TokenSearchState)
    (newPriceRatio : UInt64) : TokenSearchState :=
  match verdict config now entry newPriceRatio with
  | .search => ⟨now, some newPriceRatio⟩
  | _ => entry

theorem filterToken_lookup (st : FilterState) (item : Pubkey × UInt64) (token : Pubkey) :
    (filterToken config now reading st item).tokenState.lookup token =
      if token = item.1 then
        some (settle config now (entryOf config reading st.tokenState item.1) item.2)
      else st.tokenState.lookup token := by
  have hinsert : ∀ (tokenState : Finmap fun _ : Pubkey => TokenSearchState) entry,
      (tokenState.insert item.1 entry).lookup token =
        if token = item.1 then some entry else tokenState.lookup token := by
    intro tokenState entry
    by_cases ht : token = item.1
    · rw [if_pos ht, ht]
      exact Finmap.lookup_insert _
    · rw [if_neg ht]
      exact Finmap.lookup_insert_of_ne _ ht
  unfold filterToken settle
  dsimp only
  cases verdict config now (entryOf config reading st.tokenState item.1) item.2 with
  | cooldown => exact hinsert _ _
  | smallChange => exact hinsert _ _
  | search =>
      show ((st.tokenState.insert item.1 _).insert item.1 _).lookup token = _
      rw [hinsert, hinsert]
      split <;> rfl

theorem filterToken_result (st : FilterState) (item : Pubkey × UInt64) :
    (filterToken config now reading st item).result = st.result ++
      if verdict config now (entryOf config reading st.tokenState item.1) item.2 = .search
      then [item.1] else [] := by
  unfold filterToken
  dsimp only
  split <;> next h => simp [h]

/-- **The tokens of the loop are settled one by one**: each from the entry it had before. -/
theorem filterTokens_spec (items : List (Pubkey × UInt64)) (hnodup : (items.map Prod.fst).Nodup)
    (st : FilterState) (token : Pubkey) :
    let st' := items.foldl (filterToken config now reading) st
    (token ∉ items.map Prod.fst →
      st'.tokenState.lookup token = st.tokenState.lookup token ∧
        (token ∈ st'.result ↔ token ∈ st.result)) ∧
    ∀ ratio, (token, ratio) ∈ items →
      st'.tokenState.lookup token =
          some (settle config now (entryOf config reading st.tokenState token) ratio) ∧
        (token ∈ st'.result ↔ token ∈ st.result ∨
          verdict config now (entryOf config reading st.tokenState token) ratio = .search) := by
  induction items generalizing st with
  | nil => exact ⟨fun _ => ⟨rfl, Iff.rfl⟩, fun _ h => absurd h List.not_mem_nil⟩
  | cons item items ih =>
      obtain ⟨hnew, hrest⟩ := List.nodup_cons.mp hnodup
      obtain ⟨hother, hown⟩ := ih hrest (filterToken config now reading st item)
      rw [List.map_cons, List.foldl_cons]
      have hresult : token ≠ item.1 →
          (token ∈ (filterToken config now reading st item).result ↔ token ∈ st.result) := by
        intro hne
        rw [filterToken_result, List.mem_append]
        split <;> simp [hne]
      refine ⟨fun hnot => ?_, fun ratio hmem => ?_⟩
      · rw [List.mem_cons, not_or] at hnot
        obtain ⟨hlookup, hin⟩ := hother hnot.2
        rw [filterToken_lookup, if_neg hnot.1] at hlookup
        exact ⟨hlookup, hin.trans (hresult hnot.1)⟩
      · rcases List.mem_cons.mp hmem with rfl | hmem
        · obtain ⟨hlookup, hin⟩ := hother hnew
          rw [filterToken_lookup, if_pos rfl] at hlookup
          refine ⟨hlookup, hin.trans ?_⟩
          rw [filterToken_result, List.mem_append]
          split <;> simp_all
        · have hne : token ≠ item.1 := by
            intro he
            rw [he] at hmem
            exact hnew (List.mem_map.mpr ⟨_, hmem, rfl⟩)
          have hentry : entryOf config reading (filterToken config now reading st item).tokenState
              token = entryOf config reading st.tokenState token := by
            unfold entryOf
            rw [filterToken_lookup, if_neg hne]
          obtain ⟨hlookup, hin⟩ := hown ratio hmem
          rw [hentry] at hlookup hin
          rw [hresult hne] at hin
          exact ⟨hlookup, hin⟩

/-- The verdict on a small change is right, as long as the change fits. -/
theorem verdict_smallChange {entry : TokenSearchState} {ratio : UInt64}
    (h : verdict config now entry ratio = .smallChange)
    (hfits : ∀ last, entry.lastPriceRatio = some last → 0 < last → Fits ratio last) :
    ∃ last, entry.lastPriceRatio = some last ∧
      ratioGap ratio last * 10000 < config.minPriceChangeBps.toNat * last.toNat := by
  unfold verdict at h
  split at h
  · cases h
  · split at h
    · next last hlast =>
        refine ⟨last, hlast, ?_⟩
        split at h
        · next hsmall =>
            have hlt : (changeBps ratio last).toNat < config.minPriceChangeBps.toNat :=
              UInt32.lt_iff_toNat_lt.mp hsmall
            have hpos : 0 < last := by
              by_contra hzero
              unfold changeBps at hlt
              rw [if_neg hzero] at hlt
              have hmax := config.minPriceChangeBps.toNat_lt
              have hbig : (UInt32.ofNat (2 ^ 32 - 1)).toNat = 2 ^ 32 - 1 := by decide
              omega
            rw [changeBps_of_fits (hfits last hlast hpos) hpos] at hlt
            have hpos' : 0 < last.toNat := UInt64.lt_iff_toNat_lt.mp hpos
            exact (Nat.div_lt_iff_lt_mul hpos').mp hlt
        · cases h
    · cases h

theorem verdict_cooldown {entry : TokenSearchState} {ratio : UInt64} :
    verdict config now entry ratio = .cooldown ↔
      durationSince now entry.lastSearch < config.cooldown := by
  unfold verdict
  constructor
  · intro h
    split at h
    · assumption
    · split at h
      · split at h <;> cases h
      · cases h
  · exact fun h => if_pos h

end Filter

/-! ## 4. Runs -/

/-- What became of the latest update of a token. -/
inductive Fate where
  /-- It is queued, or in the batch that the worker has drained. -/
  | waiting
  /-- The queue was full of other tokens. -/
  | turnedAway
  | searched
  /-- The batch was filtered within the cooldown of the token. -/
  | postponed (now : Instant)
  | smallChange
  deriving DecidableEq

/-- The latest enqueued ratio of a token, and what became of it. -/
structure Trail where
  ratio : UInt64
  fate : Fate
  deriving DecidableEq

/-- The queue, the batch that the worker is at, and the trail of every token. -/
structure MultiHopRun where
  arb : MultiHopArbitrage
  batch : Option DirtyTokens
  trail : Pubkey → Option Trail

/-- The steps of the enqueuing threads and of the worker. -/
inductive MultiHopOp where
  /-- What `upsert_pool` and `remove_pool` do to the mints of a pool. -/
  | poolMints (pool : Pubkey) (mints : Option (Pubkey × Pubkey))
  | poolPriceUpdate (poolAddress inputMint outputMint : Option Pubkey)
      (inputAmount outputAmount : UInt64) (eventSlot : Option UInt64) (eventSeenAtMs : UInt64)
  | dirtyToken (token : Pubkey) (priceRatio : UInt64) (eventSlot : Option UInt64)
      (eventSeenAtMs : UInt64)
  | drain
  | process (now : Instant) (reading : Pubkey → Instant)

namespace MultiHopRun

open MultiHopArbitrage

def start (config : MultiHopConfig) : MultiHopRun := ⟨.new config, none, fun _ => none⟩

/-- `enqueue_dirty_token`, with the trail of the token. -/
def enqueue (r : MultiHopRun) (token : Pubkey) (priceRatio : UInt64) (eventSlot : Option UInt64)
    (eventSeenAtMs : UInt64) : MultiHopRun :=
  let arb := r.arb.enqueueDirtyToken token priceRatio eventSlot eventSeenAtMs
  { r with
    arb
    trail := Function.update r.trail token
      (some ⟨priceRatio, if token ∈ arb.dirtyTokens then .waiting else .turnedAway⟩) }

/-- What the worker's verdict makes of a waiting update. -/
def fateOf (tokenState : Finmap fun _ : Pubkey => TokenSearchState) (config : MultiHopConfig)
    (searched : List Pubkey) (now : Instant) (token : Pubkey) : Fate :=
  if token ∈ searched then .searched
  else if (tokenState.lookup token).any fun st =>
      decide (durationSince now st.lastSearch < config.cooldown) then .postponed now
  else .smallChange

/-- The worker is done with its batch; an update that came in the meantime still waits. -/
def process (r : MultiHopRun) (batch : DirtyTokens) (now : Instant)
    (reading : Pubkey → Instant) : MultiHopRun :=
  let done := r.arb.processDrained batch now reading
  { arb := done.2
    batch := none
    trail := fun token =>
      match r.trail token with
      | some ⟨ratio, .waiting⟩ =>
          if token ∈ batch ∧ token ∉ r.arb.dirtyTokens then
            some ⟨ratio, fateOf done.2.tokenState r.arb.config done.1 now token⟩
          else some ⟨ratio, .waiting⟩
      | trail => trail }

def step (r : MultiHopRun) : MultiHopOp → MultiHopRun
  | .poolMints pool mints =>
      { r with
        arb := { r.arb with
          poolMints := match mints with
            | some mints => r.arb.poolMints.insert pool mints
            | none => r.arb.poolMints.erase pool } }
  | .poolPriceUpdate poolAddress inputMint outputMint inputAmount outputAmount eventSlot
      eventSeenAtMs =>
      (r.arb.priceUpdates poolAddress inputMint outputMint inputAmount outputAmount).foldl
        (fun r update => r.enqueue update.1 update.2 eventSlot eventSeenAtMs) r
  | .dirtyToken token priceRatio eventSlot eventSeenAtMs =>
      r.enqueue token priceRatio eventSlot eventSeenAtMs
  | .drain =>
      match r.batch with
      | some _ => r
      | none => { r with batch := some r.arb.dirtyTokens, arb := { r.arb with dirtyTokens := ∅ } }
  | .process now reading =>
      match r.batch with
      | some batch => r.process batch now reading
      | none => r

/-- The ratio of a token at its last search. -/
def lastRatio (r : MultiHopRun) (token : Pubkey) : Option UInt64 :=
  (r.arb.tokenState.lookup token).bind (·.lastPriceRatio)

/-- The ratio differs from the one at the last search by at least the threshold, or there was no
    search. -/
def Moved (r : MultiHopRun) (token : Pubkey) (ratio : UInt64) : Prop :=
  ∀ last, r.lastRatio token = some last →
    r.arb.config.minPriceChangeBps.toNat * last.toNat ≤ ratioGap ratio last * 10000

/-- The batch of a token is filtered with a change that fits. -/
def FitsFor (token : Pubkey) (r : MultiHopRun) : MultiHopOp → Prop
  | .process _ _ =>
      match r.batch.bind fun batch => batch.lookup token, r.lastRatio token with
      | some entry, some last => 0 < last → Fits entry.priceRatio last
      | _, _ => True
  | _ => True

instance (token : Pubkey) (r : MultiHopRun) (op : MultiHopOp) : Decidable (FitsFor token r op) := by
  unfold FitsFor
  split
  · split <;> infer_instance
  · infer_instance

/-- No update of the token waits. -/
def Idle (r : MultiHopRun) (token : Pubkey) : Prop :=
  r.arb.dirtyTokens.lookup token = none ∧ (r.batch.bind fun batch => batch.lookup token) = none

/-- **What the trail of a token says about the queue and the search states.** -/
def Accounted (r : MultiHopRun) (token : Pubkey) : Option Trail → Prop
  | none => r.Idle token
  | some ⟨ratio, .waiting⟩ =>
      ((r.arb.dirtyTokens.lookup token).or (r.batch.bind fun batch => batch.lookup token)).map
        (·.priceRatio) = some ratio
  | some ⟨_, .turnedAway⟩ => r.arb.dirtyTokens.lookup token = none
  | some ⟨ratio, .searched⟩ => r.Idle token ∧ r.lastRatio token = some ratio
  | some ⟨_, .postponed now⟩ => r.Idle token ∧ ∃ st, r.arb.tokenState.lookup token = some st ∧
      durationSince now st.lastSearch < r.arb.config.cooldown
  | some ⟨ratio, .smallChange⟩ => r.Idle token ∧ ¬ r.Moved token ratio

section Run

variable {r r' : MultiHopRun} {token : Pubkey}

/-- Accounts are about the token's own entries. -/
theorem accounted_congr (hdirty : r'.arb.dirtyTokens.lookup token = r.arb.dirtyTokens.lookup token)
    (hbatch : r'.batch = r.batch)
    (hstate : r'.arb.tokenState.lookup token = r.arb.tokenState.lookup token)
    (hconfig : r'.arb.config = r.arb.config) (trail : Option Trail) :
    r'.Accounted token trail ↔ r.Accounted token trail := by
  unfold Accounted Idle Moved lastRatio
  rw [hdirty, hbatch, hstate, hconfig]

theorem enqueueDirtyToken_keeps (arb : MultiHopArbitrage) (token : Pubkey) (priceRatio : UInt64)
    (eventSlot : Option UInt64) (eventSeenAtMs : UInt64) :
    let arb' := arb.enqueueDirtyToken token priceRatio eventSlot eventSeenAtMs
    arb'.config = arb.config ∧ arb'.tokenState = arb.tokenState ∧ arb'.poolMints = arb.poolMints ∧
      (∀ other, other ≠ token → arb'.dirtyTokens.lookup other = arb.dirtyTokens.lookup other) ∧
      (token ∈ arb'.dirtyTokens → arb'.dirtyTokens.lookup token =
        some ⟨priceRatio, eventSlot, eventSeenAtMs⟩) := by
  unfold MultiHopArbitrage.enqueueDirtyToken
  dsimp only
  split
  · next hfull => exact ⟨rfl, rfl, rfl, fun _ _ => rfl, fun hin => absurd hin hfull.2⟩
  · exact ⟨rfl, rfl, rfl, fun _ hne => AList.lookup_insert_ne hne, fun _ => AList.lookup_insert _⟩

/-- Enqueueing keeps the accounts; the update waits, or it was turned away. -/
theorem accounted_enqueue (h : r.Accounted token (r.trail token)) (queued : Pubkey)
    (priceRatio : UInt64) (eventSlot : Option UInt64) (eventSeenAtMs : UInt64) :
    let r' := r.enqueue queued priceRatio eventSlot eventSeenAtMs
    r'.arb.config = r.arb.config ∧ r'.Accounted token (r'.trail token) := by
  obtain ⟨hconfig, hstate, _, hother, hown⟩ :=
    enqueueDirtyToken_keeps r.arb queued priceRatio eventSlot eventSeenAtMs
  refine ⟨hconfig, ?_⟩
  by_cases ht : token = queued
  · subst ht
    show Accounted _ token (Function.update r.trail token _ token)
    rw [Function.update_self]
    by_cases hin : token ∈ (r.arb.enqueueDirtyToken token priceRatio eventSlot
        eventSeenAtMs).dirtyTokens
    · have hlookup : (r.enqueue token priceRatio eventSlot eventSeenAtMs).arb.dirtyTokens.lookup
          token = some ⟨priceRatio, eventSlot, eventSeenAtMs⟩ := hown hin
      rw [if_pos hin]
      unfold Accounted
      dsimp only
      rw [hlookup]
      rfl
    · rw [if_neg hin]
      exact AList.lookup_eq_none.mpr hin
  · have hdirty : (r.enqueue queued priceRatio eventSlot eventSeenAtMs).arb.dirtyTokens.lookup
        token = r.arb.dirtyTokens.lookup token := hother token ht
    have hstates : (r.enqueue queued priceRatio eventSlot eventSeenAtMs).arb.tokenState.lookup
        token = r.arb.tokenState.lookup token :=
      congrArg (fun states => Finmap.lookup token states) hstate
    show Accounted _ token (Function.update r.trail queued _ token)
    rw [Function.update_of_ne ht]
    exact (accounted_congr hdirty rfl hstates hconfig _).mpr h

/-- The worker takes the queue: what waited in it waits in the batch. -/
theorem accounted_drain (h : r.Accounted token (r.trail token)) :
    (r.step .drain).arb.config = r.arb.config ∧
      (r.step .drain).Accounted token ((r.step .drain).trail token) := by
  unfold step
  cases hb : r.batch with
  | some batch => exact ⟨rfl, h⟩
  | none =>
      refine ⟨rfl, ?_⟩
      have hempty : (∅ : DirtyTokens).lookup token = none := AList.lookup_empty token
      have hidle : r.Idle token → Idle
          { r with
            batch := some r.arb.dirtyTokens
            arb := { r.arb with dirtyTokens := ∅ } } token := fun hi => ⟨hempty, hi.1⟩
      show Accounted _ token (r.trail token)
      cases htrail : r.trail token with
      | none =>
          rw [htrail] at h
          exact hidle h
      | some trail =>
          rw [htrail] at h
          obtain ⟨ratio, fate⟩ := trail
          cases fate with
          | waiting =>
              unfold Accounted at h ⊢
              dsimp only at h ⊢
              rw [hb, Option.bind_none, Option.or_none] at h
              rw [hempty, Option.none_or]
              exact h
          | turnedAway => exact hempty
          | searched => exact ⟨hidle h.1, h.2⟩
          | postponed now => exact ⟨hidle h.1, h.2⟩
          | smallChange => exact ⟨hidle h.1, h.2⟩

/-- The tokens of a batch are distinct. -/
theorem nodup_tokenRatios (batch : DirtyTokens) :
    ((tokenRatios batch).map Prod.fst).Nodup := by
  unfold tokenRatios
  rw [List.map_map]
  exact batch.nodupKeys

/-- **The filter, token by token**: a token outside the batch keeps its search state, and one of
    the batch is settled by the verdict on it. -/
theorem processDrained_spec {arb : MultiHopArbitrage} (henabled : arb.config.enabled = true)
    (batch : DirtyTokens) (now : Instant) (reading : Pubkey → Instant) (token : Pubkey) :
    let done := arb.processDrained batch now reading
    (batch.lookup token = none →
      done.2.tokenState.lookup token = arb.tokenState.lookup token ∧ token ∉ done.1) ∧
    ∀ entry, batch.lookup token = some entry →
      done.2.tokenState.lookup token = some (settle arb.config now
        (entryOf arb.config reading arb.tokenState token) entry.priceRatio) ∧
      (token ∈ done.1 ↔ verdict arb.config now (entryOf arb.config reading arb.tokenState token)
        entry.priceRatio = .search) := by
  obtain ⟨hother, hown⟩ := filterTokens_spec (tokenRatios batch) (nodup_tokenRatios batch)
    ⟨arb.tokenState, arb.searchesSkippedCooldown, arb.searchesSkippedSmallChange, []⟩ token
  unfold processDrained filterTokensForSearch
  rw [if_neg (by rw [henabled]; exact Bool.noConfusion)]
  refine ⟨fun hnone => ?_, fun entry hentry => ?_⟩
  · have hnot : token ∉ (tokenRatios batch).map Prod.fst := by
      unfold tokenRatios
      rw [List.map_map]
      exact AList.lookup_eq_none.mp hnone
    obtain ⟨hlookup, hin⟩ := hother hnot
    exact ⟨hlookup, fun h => List.not_mem_nil (hin.mp h)⟩
  · have hmem : (token, entry.priceRatio) ∈ tokenRatios batch :=
      List.mem_map.mpr ⟨⟨token, entry⟩, AList.mem_lookup_iff.mp hentry, rfl⟩
    obtain ⟨hlookup, hin⟩ := hown entry.priceRatio hmem
    refine ⟨hlookup, hin.trans ?_⟩
    simp

theorem processDrained_keeps (arb : MultiHopArbitrage) (batch : DirtyTokens) (now : Instant)
    (reading : Pubkey → Instant) :
    let done := arb.processDrained batch now reading
    done.2.config = arb.config ∧ done.2.dirtyTokens = arb.dirtyTokens := by
  unfold processDrained
  dsimp only
  split <;> exact ⟨rfl, rfl⟩

/-- What the worker's verdict on the waiting update of a token makes of its account. -/
theorem accounted_verdict {r' : MultiHopRun} {ratio : UInt64} {entry : TokenSearchState}
    {now : Instant} {searched : List Pubkey} (hidle : r'.Idle token)
    (hstate : r'.arb.tokenState.lookup token = some (settle r'.arb.config now entry ratio))
    (hin : token ∈ searched ↔ verdict r'.arb.config now entry ratio = .search)
    (hfits : ∀ last, entry.lastPriceRatio = some last → 0 < last → Fits ratio last) :
    r'.Accounted token
      (some ⟨ratio, fateOf r'.arb.tokenState r'.arb.config searched now token⟩) := by
  unfold fateOf
  rw [hstate]
  cases hv : verdict r'.arb.config now entry ratio with
  | search =>
      rw [if_pos (hin.mpr hv)]
      refine ⟨hidle, ?_⟩
      unfold lastRatio
      rw [hstate]
      unfold settle
      rw [hv]
      rfl
  | cooldown =>
      have hsettle : settle r'.arb.config now entry ratio = entry := by
        unfold settle
        rw [hv]
      have hwithin := verdict_cooldown.mp hv
      rw [if_neg fun h => Verdict.noConfusion ((hin.mp h).symm.trans hv), hsettle,
        Option.any_some, if_pos (decide_eq_true hwithin)]
      rw [hsettle] at hstate
      exact ⟨hidle, entry, hstate, hwithin⟩
  | smallChange =>
      have hsettle : settle r'.arb.config now entry ratio = entry := by
        unfold settle
        rw [hv]
      have hover : ¬ durationSince now entry.lastSearch < r'.arb.config.cooldown := fun h =>
        Verdict.noConfusion ((verdict_cooldown.mpr h).symm.trans hv)
      rw [if_neg fun h => Verdict.noConfusion ((hin.mp h).symm.trans hv), hsettle,
        Option.any_some, if_neg fun h => hover (of_decide_eq_true h)]
      rw [hsettle] at hstate
      refine ⟨hidle, fun hmoved => ?_⟩
      obtain ⟨last, hlast, hsmall⟩ := verdict_smallChange hv hfits
      have hle := hmoved last (by unfold lastRatio; rw [hstate]; exact hlast)
      omega

/-- **The worker's verdict on a waiting update is its fate**; the other tokens keep theirs. -/
theorem accounted_process {batch : DirtyTokens} (hb : r.batch = some batch)
    (henabled : r.arb.config.enabled = true) (h : r.Accounted token (r.trail token))
    (now : Instant) (reading : Pubkey → Instant) (hfits : FitsFor token r (.process now reading)) :
    let r' := r.process batch now reading
    r'.arb.config = r.arb.config ∧ r'.Accounted token (r'.trail token) := by
  obtain ⟨hconfig, hdirty⟩ := processDrained_keeps r.arb batch now reading
  obtain ⟨hother, hown⟩ := processDrained_spec henabled batch now reading token
  intro r'
  have hconfig' : r'.arb.config = r.arb.config := hconfig
  refine ⟨hconfig, ?_⟩
  have hdirty' : r'.arb.dirtyTokens.lookup token = r.arb.dirtyTokens.lookup token :=
    congrArg (fun dirty => AList.lookup token dirty) hdirty
  have hbatch : (r.batch.bind fun batch => batch.lookup token) = batch.lookup token := by
    rw [hb]
    rfl
  -- a token that does not wait is not in the batch
  have hkeep : r.Idle token → r'.Idle token ∧
      r'.arb.tokenState.lookup token = r.arb.tokenState.lookup token := fun hidle =>
    ⟨⟨hdirty'.trans hidle.1, rfl⟩, (hother (hbatch.symm.trans hidle.2)).1⟩
  have hlast : r.Idle token → r'.lastRatio token = r.lastRatio token := fun hidle => by
    unfold lastRatio
    rw [(hkeep hidle).2]
  have htrail' : r'.trail token = match r.trail token with
      | some ⟨ratio, .waiting⟩ =>
          if token ∈ batch ∧ token ∉ r.arb.dirtyTokens then
            some ⟨ratio, fateOf r'.arb.tokenState r.arb.config
              (r.arb.processDrained batch now reading).1 now token⟩
          else some ⟨ratio, .waiting⟩
      | trail => trail := rfl
  rw [htrail']
  cases htrail : r.trail token with
  | none =>
      rw [htrail] at h
      exact (hkeep h).1
  | some trail =>
      obtain ⟨ratio, fate⟩ := trail
      rw [htrail] at h
      cases fate with
      | waiting =>
          dsimp only
          unfold Accounted at h
          dsimp only at h
          rw [hbatch] at h
          cases hqueued : r.arb.dirtyTokens.lookup token with
          | some entry =>
              have hin : token ∈ r.arb.dirtyTokens := AList.lookup_isSome.mp (by rw [hqueued]; rfl)
              rw [if_neg fun hh => hh.2 hin]
              unfold Accounted
              dsimp only
              rw [hqueued] at h
              rw [hdirty', hqueued]
              exact h
          | none =>
              rw [hqueued, Option.none_or] at h
              obtain ⟨entry, hentry, hratio⟩ := Option.map_eq_some_iff.mp h
              obtain ⟨hstate, hsearch⟩ := hown entry hentry
              have hin : token ∈ batch := AList.lookup_isSome.mp (by rw [hentry]; rfl)
              rw [if_pos ⟨hin, AList.lookup_eq_none.mp hqueued⟩, ← hconfig']
              rw [hratio, ← hconfig'] at hstate hsearch
              refine accounted_verdict ⟨hdirty'.trans hqueued, rfl⟩ hstate hsearch
                fun last hl hpos => ?_
              have hold : r.lastRatio token = some last := by
                unfold entryOf at hl
                unfold lastRatio
                cases hst : r.arb.tokenState.lookup token with
                | none =>
                    rw [hst] at hl
                    cases hl
                | some st =>
                    rw [hst] at hl
                    exact hl
              unfold FitsFor at hfits
              dsimp only at hfits
              rw [hbatch, hentry, hold] at hfits
              exact hratio ▸ hfits hpos
      | turnedAway => exact hdirty'.trans h
      | searched => exact ⟨(hkeep h.1).1, (hlast h.1).trans h.2⟩
      | postponed before =>
          obtain ⟨hidle, st, hst, hwithin⟩ := h
          refine ⟨(hkeep hidle).1, st, (hkeep hidle).2.trans hst, ?_⟩
          rw [hconfig']
          exact hwithin
      | smallChange =>
          refine ⟨(hkeep h.1).1, fun hmoved => h.2 fun last hl => ?_⟩
          have hle := hmoved last ((hlast h.1).trans hl)
          rw [hconfig'] at hle
          exact hle

/-- **A step keeps the accounts.** -/
theorem accounted_step (henabled : r.arb.config.enabled = true)
    (h : r.Accounted token (r.trail token)) {op : MultiHopOp} (hfits : FitsFor token r op) :
    (r.step op).arb.config = r.arb.config ∧
      (r.step op).Accounted token ((r.step op).trail token) := by
  cases op with
  | poolMints pool mints => exact ⟨rfl, (accounted_congr rfl rfl rfl rfl _).mpr h⟩
  | poolPriceUpdate poolAddress inputMint outputMint inputAmount outputAmount eventSlot
      eventSeenAtMs =>
      unfold step
      dsimp only
      generalize r.arb.priceUpdates poolAddress inputMint outputMint inputAmount outputAmount =
        updates
      clear hfits
      induction updates generalizing r with
      | nil => exact ⟨rfl, h⟩
      | cons update updates ih =>
          obtain ⟨hconfig, hnext⟩ := accounted_enqueue h update.1 update.2 eventSlot eventSeenAtMs
          obtain ⟨hconfig', hall⟩ := ih (by rw [hconfig]; exact henabled) hnext
          exact ⟨hconfig'.trans hconfig, hall⟩
  | dirtyToken queued priceRatio eventSlot eventSeenAtMs =>
      exact accounted_enqueue h queued priceRatio eventSlot eventSeenAtMs
  | drain => exact accounted_drain h
  | process now reading =>
      unfold step
      cases hb : r.batch with
      | none => exact ⟨rfl, h⟩
      | some batch => exact accounted_process hb henabled h now reading hfits

end Run

/-- A token is searched at the ratio 1; then its ratio doubles, and the batch with it is filtered at
    the given time. -/
def doubledAt (now : Instant) : List MultiHopOp :=
  [.dirtyToken 7 10000 none 0, .drain, .process 0 fun _ => 0,
    .dirtyToken 7 20000 none 0, .drain, .process now fun _ => now]

/-- A search with a threshold of ten basis points and a cooldown of 100 ms. -/
def tenBps : MultiHopConfig := ⟨true, 10, 100⟩

end MultiHopRun

end IronCrab.Arbitrage

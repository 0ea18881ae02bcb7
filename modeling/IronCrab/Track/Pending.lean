/-
  File:      IronCrab/Track/Pending.lean
  Subject:   THE PENDING STORE OF THE TRACK WORKER (`pending.rs`).

  The store stages commands that found the queue full, counts the commands in flight so that equal
  intents are not queued twice, and remembers the last applied revision of each stream (of each
  mint for wallet and tracker demand). What panics in the source is `none`.
-/
import IronCrab.Track.WorkerCommands

namespace IronCrab.Track

/-! ## 1. The store -/

/-- `u32::MAX`. -/
def u32Max : Nat := 2 ^ 32 - 1

/-- `usize::MAX`. -/
def usizeMax : Nat := 2 ^ 64 - 1

/-- `StageResult`. -/
inductive StageResult where
  | staged
  | lost
  deriving DecidableEq

/-- `BoundedProtocolStore`. -/
structure BoundedProtocolStore where
  pending : List ImmutableTrackCommand
  pendingCap : Nat
  inflight : Nat
  revision : RevisionAssigner
  lastApplied : TrackCommandStream → Nat
  lastAppliedWalletMint : SortedMap Pubkey Nat
  lastAppliedTrackerMint : SortedMap Pubkey Nat
  inflightSyncIntent : Nat
  inflightSyncStrengthCounts : SyncIntentStrength → Nat
  inflightContinueEvict : Nat

namespace BoundedProtocolStore

/-- `BoundedProtocolStore::new`. -/
def new (pendingCap : Nat) : BoundedProtocolStore where
  pending := []
  pendingCap := pendingCap
  inflight := 0
  revision := .new
  lastApplied := fun _ => 0
  lastAppliedWalletMint := .empty
  lastAppliedTrackerMint := .empty
  inflightSyncIntent := 0
  inflightSyncStrengthCounts := fun _ => 0
  inflightContinueEvict := 0

/-- `wrap_command`. -/
def wrapCommand (store : BoundedProtocolStore) (payload : TrackWorkerCommand) :
    Option (ImmutableTrackCommand × BoundedProtocolStore) :=
  let stream := streamForCommand payload
  (store.revision.nextRevision stream (demandMintForCommand payload)).map fun res =>
    (⟨stream, res.1, payload⟩, { store with revision := res.2 })

/-! ## 2. Applied revisions -/

/-- `last_applied_for_cmd`. -/
def lastAppliedForCmd (store : BoundedProtocolStore) (cmd : ImmutableTrackCommand) : Option Nat :=
  match cmd.stream with
  | .wallet => (demandMintForCommand cmd.payload).map fun mint =>
      (store.lastAppliedWalletMint.lookup mint).getD 0
  | .tracker => (demandMintForCommand cmd.payload).map fun mint =>
      (store.lastAppliedTrackerMint.lookup mint).getD 0
  | stream => some (store.lastApplied stream)

/-- `is_applicable`. -/
def isApplicable (store : BoundedProtocolStore) (cmd : ImmutableTrackCommand) : Option Bool :=
  (store.lastAppliedForCmd cmd).map fun last => decide (last < cmd.revision)

/-- A watermark of a mint, raised to this revision. -/
def raiseMint (marks : SortedMap Pubkey Nat) (mint : Pubkey) (revision : Nat) :
    SortedMap Pubkey Nat :=
  marks.insert mint (max ((marks.lookup mint).getD 0) revision)

/-- `mark_applied`. -/
def markApplied (store : BoundedProtocolStore) (cmd : ImmutableTrackCommand) :
    Option BoundedProtocolStore :=
  match cmd.stream with
  | .wallet => (demandMintForCommand cmd.payload).map fun mint =>
      { store with
        lastAppliedWalletMint := raiseMint store.lastAppliedWalletMint mint cmd.revision }
  | .tracker => (demandMintForCommand cmd.payload).map fun mint =>
      { store with
        lastAppliedTrackerMint := raiseMint store.lastAppliedTrackerMint mint cmd.revision }
  | stream => some { store with
      lastApplied := Function.update store.lastApplied stream
        (max (store.lastApplied stream) cmd.revision) }

/-- `supersede_tracker_demand_for_mint`. -/
def supersedeTrackerDemandForMint (store : BoundedProtocolStore) (mint : Pubkey) :
    BoundedProtocolStore :=
  let watermark := max ((store.lastAppliedTrackerMint.lookup mint).getD 0)
    (store.revision.lastIssuedRevisionForMint .tracker mint)
  let watermark := store.pending.foldl (fun watermark cmd =>
    if cmd.stream = .tracker ∧ demandMintForCommand cmd.payload = some mint then
      max watermark cmd.revision
    else watermark) watermark
  if 0 < watermark then
    { store with
      lastAppliedTrackerMint := raiseMint store.lastAppliedTrackerMint mint watermark }
  else store

/-- `mark_applied_wallet_demand`. -/
def markAppliedWalletDemand (store : BoundedProtocolStore) (cmd : ImmutableTrackCommand) :
    Option BoundedProtocolStore :=
  (store.markApplied cmd).map fun store =>
    match demandMintForCommand cmd.payload with
    | some mint => store.supersedeTrackerDemandForMint mint
    | none => store

/-! ## 3. Commands in flight -/

/-- `begin_inflight`. -/
def beginInflight (store : BoundedProtocolStore) : BoundedProtocolStore :=
  { store with inflight := saturatingSucc usizeMax store.inflight }

/-- `end_inflight`. -/
def endInflight (store : BoundedProtocolStore) : BoundedProtocolStore :=
  { store with inflight := store.inflight - 1 }

/-- The counters of a command changed by a function. -/
def countCommand (f : Nat → Nat) (store : BoundedProtocolStore) (cmd : ImmutableTrackCommand) :
    BoundedProtocolStore :=
  { store with
    inflightSyncIntent := if (syncIntentStrength cmd.payload).isSome then
      f store.inflightSyncIntent else store.inflightSyncIntent
    inflightSyncStrengthCounts := match syncIntentStrength cmd.payload with
      | some strength => Function.update store.inflightSyncStrengthCounts strength
          (f (store.inflightSyncStrengthCounts strength))
      | none => store.inflightSyncStrengthCounts
    inflightContinueEvict := if isContinueEvict cmd.payload then
      f store.inflightContinueEvict else store.inflightContinueEvict }

/-- `note_inflight_enqueued`. -/
def noteInflightEnqueued (store : BoundedProtocolStore) (cmd : ImmutableTrackCommand) :
    BoundedProtocolStore :=
  countCommand (saturatingSucc u32Max) store cmd

/-- `note_inflight_dequeued`. -/
def noteInflightDequeued (store : BoundedProtocolStore) (cmd : ImmutableTrackCommand) :
    BoundedProtocolStore :=
  countCommand (· - 1) store cmd

/-- `inflight_sync_strength_max`. -/
def inflightSyncStrengthMax (store : BoundedProtocolStore) : Option SyncIntentStrength :=
  [.configChange, .push, .debounced].find? fun strength =>
    decide (0 < store.inflightSyncStrengthCounts strength)

/-- `has_pending_sync_intent`. -/
def hasPendingSyncIntent (store : BoundedProtocolStore) : Bool :=
  store.pending.any fun c => (syncIntentStrength c.payload).isSome

/-- `has_pending_continue_evict`. -/
def hasPendingContinueEvict (store : BoundedProtocolStore) : Bool :=
  store.pending.any fun c => isContinueEvict c.payload

/-! ## 4. Staging -/

/-- Pending without sync intents. -/
def withoutSync (pending : List ImmutableTrackCommand) : List ImmutableTrackCommand :=
  pending.filter fun c => (syncIntentStrength c.payload).isNone

/-- Pending sync intents. -/
def onlySync (pending : List ImmutableTrackCommand) : List ImmutableTrackCommand :=
  pending.filter fun c => (syncIntentStrength c.payload).isSome

/-- The update of a momentum command. -/
def momentumUpdate? : TrackWorkerCommand → Option MomentumActivePoolsUpdate
  | .applyMomentumActivePools u => some u
  | _ => none

/-- The update of an arbitrage command. -/
def arbUpdate? : TrackWorkerCommand → Option ArbTrackRequestsUpdate
  | .applyArbTrackRequests u => some u
  | _ => none

/-- The merged payload of momentum or arbitrage commands; the `expect` of the source. -/
def mergedPayload (stream : TrackCommandStream) (payloads : List TrackWorkerCommand) :
    Option TrackWorkerCommand :=
  match stream with
  | .momentum => (mergeMomentumActivePoolsUpdates (payloads.filterMap momentumUpdate?)).map
      .applyMomentumActivePools
  | .arb => (mergeArbTrackRequestsUpdates (payloads.filterMap arbUpdate?)).map
      .applyArbTrackRequests
  | _ => none

/-- An older command of the same mint. -/
def sameMintOlder (cmd c : ImmutableTrackCommand) (mint : Pubkey) : Bool :=
  decide (c.stream = cmd.stream ∧ demandMintForCommand c.payload = some mint ∧
    c.revision < cmd.revision)

/-- An older command of the same stream. -/
def sameStreamOlder (cmd c : ImmutableTrackCommand) : Bool :=
  decide (c.stream = cmd.stream ∧ c.revision < cmd.revision)

/-- A sync intent takes the pending ones with it. -/
def coalesceSync (store : BoundedProtocolStore) (cmd : ImmutableTrackCommand) :
    ImmutableTrackCommand × BoundedProtocolStore :=
  if onlySync store.pending ≠ [] then
    (⟨.control, (onlySync store.pending).foldl (fun r c => max r c.revision) cmd.revision,
        mergeSyncIntentPayloads ((onlySync store.pending).map (·.payload) ++ [cmd.payload])⟩,
      { store with pending := withoutSync store.pending })
  else (cmd, store)

/-- A newer eviction takes the place of the pending one. -/
def coalesceContinueEvict (store : BoundedProtocolStore) (cmd : ImmutableTrackCommand) :
    ImmutableTrackCommand × BoundedProtocolStore :=
  match store.pending.find? fun c => isContinueEvict c.payload with
  | some old =>
      if old.revision < cmd.revision then
        (cmd, { store with
          pending := store.pending.eraseP fun c => isContinueEvict c.payload })
      else (cmd, store)
  | none => (cmd, store)

/-- Demand for a mint takes the place of older demand for it. -/
def coalesceMint (store : BoundedProtocolStore) (cmd : ImmutableTrackCommand) :
    ImmutableTrackCommand × BoundedProtocolStore :=
  match demandMintForCommand cmd.payload with
  | some mint =>
      (cmd, { store with pending := store.pending.filter fun c => !sameMintOlder cmd c mint })
  | none => (cmd, store)

/-- A momentum or arbitrage update takes the older ones with it, merged. -/
def coalesceUpdates (store : BoundedProtocolStore) (cmd : ImmutableTrackCommand) :
    Option (ImmutableTrackCommand × BoundedProtocolStore) :=
  let older := store.pending.filter (sameStreamOlder cmd)
  if older ≠ [] then
    (mergedPayload cmd.stream (older.map (·.payload) ++ [cmd.payload])).map fun payload =>
      (⟨cmd.stream, cmd.revision, payload⟩,
        { store with pending := store.pending.filter fun c => !sameStreamOlder cmd c })
  else some (cmd, store)

/-- `coalesce_with_pending`: the command to push, and what is left of pending. -/
def coalesceWithPending (store : BoundedProtocolStore) (cmd : ImmutableTrackCommand) :
    Option (ImmutableTrackCommand × BoundedProtocolStore) :=
  if (syncIntentStrength cmd.payload).isSome then some (store.coalesceSync cmd)
  else if isContinueEvict cmd.payload then some (store.coalesceContinueEvict cmd)
  else if streamUsesPerMintRevision cmd.stream then some (store.coalesceMint cmd)
  else if cmd.stream = .momentum ∨ cmd.stream = .arb then store.coalesceUpdates cmd
  else some (cmd, store)

/-- Push, after the oldest slot made room where pending is full. -/
def pushBounded (store : BoundedProtocolStore) (cmd : ImmutableTrackCommand) :
    BoundedProtocolStore :=
  if store.pending.length < store.pendingCap then
    { store with pending := store.pending ++ [cmd] }
  else { store with pending := store.pending.tail ++ [cmd] }

/-- `stage_on_queue_full`. -/
def stageOnQueueFull (store : BoundedProtocolStore) (cmd : ImmutableTrackCommand) :
    Option (StageResult × BoundedProtocolStore) :=
  (store.coalesceWithPending cmd).map fun res =>
    if isContinueEvict res.1.payload && res.2.hasPendingContinueEvict then (.staged, res.2)
    else (.staged, res.2.pushBounded res.1)

/-! ## 5. Deduplication -/

/-- The first element with this property, replaced. -/
def replaceFirst {A : Type} (p : A → Bool) (f : A → A) : List A → List A
  | [] => []
  | a :: l => if p a then f a :: l else a :: replaceFirst p f l

/-- `merge_sync_into_pending`. -/
def mergeSyncIntoPending (store : BoundedProtocolStore) (job : TrackWorkerCommand) :
    BoundedProtocolStore :=
  let existingSync := onlySync store.pending
  let next := store.revision.nextForStream .control
  let maxRev := max (existingSync.foldl (fun r c => max r c.revision) 0) next.1
  let merged := mergeSyncIntentPayloads (existingSync.map (·.payload) ++ [job])
  { store with
    revision := next.2
    pending := withoutSync store.pending ++ [⟨.control, maxRev, merged⟩] }

/-- `stage_stronger_sync_intent_while_inflight`. -/
def stageStrongerSyncIntentWhileInflight (store : BoundedProtocolStore)
    (job : TrackWorkerCommand) : Option BoundedProtocolStore :=
  if store.hasPendingSyncIntent then some (store.mergeSyncIntoPending job)
  else
    let next := store.revision.nextForStream .control
    let store := { store with revision := next.2 }
    let cmd : ImmutableTrackCommand := ⟨.control, next.1, job⟩
    if store.pending.length < store.pendingCap then some (store.pushBounded cmd)
    else (store.coalesceWithPending cmd).map fun res => res.2.pushBounded res.1

/-- `try_dedupe_enqueue`: demand is preserved without a new queue slot. -/
def tryDedupeEnqueue (store : BoundedProtocolStore) (job : TrackWorkerCommand) :
    Option (Bool × BoundedProtocolStore) :=
  match syncIntentStrength job with
  | some newStrength =>
      if 0 < store.inflightSyncIntent then
        if newStrength ≤ store.inflightSyncStrengthMax.getD .debounced then some (true, store)
        else (store.stageStrongerSyncIntentWhileInflight job).map fun store => (true, store)
      else if store.hasPendingSyncIntent then some (true, store.mergeSyncIntoPending job)
      else some (false, store)
  | none =>
      if isContinueEvict job then
        if 0 < store.inflightContinueEvict then some (true, store)
        else if store.hasPendingContinueEvict then
          let next := store.revision.nextForStream .control
          some (true, { store with
            revision := next.2
            pending := replaceFirst (fun c => isContinueEvict c.payload)
              (fun c => ⟨.control, max next.1 c.revision, .continueGeyserEvict⟩) store.pending })
        else some (false, store)
      else some (false, store)

/-! ## 6. Draining -/

/-- The streams of these commands, in the order they first appear. -/
def streamOrder (drained : List ImmutableTrackCommand) : List TrackCommandStream :=
  drained.foldl (fun order cmd =>
    if cmd.stream ∈ order then order else order ++ [cmd.stream]) []

/-- The drained commands, stream by stream and in the order of their revisions. -/
def byRevision (drained : List ImmutableTrackCommand) : List ImmutableTrackCommand :=
  (streamOrder drained).flatMap fun stream =>
    (drained.filter fun cmd => decide (cmd.stream = stream)).insertionSort
      fun a b => a.revision ≤ b.revision

/-- `take_applicable_pending_sorted`: the applicable commands; the others are superseded. -/
def takeApplicablePendingSorted (store : BoundedProtocolStore) :
    Option (List ImmutableTrackCommand × BoundedProtocolStore) :=
  if store.pending.all fun cmd => (store.isApplicable cmd).isSome then
    some ((byRevision store.pending).filter fun cmd => (store.isApplicable cmd).getD false,
      { store with pending := [] })
  else none

/-! ## 7. What the operations leave alone -/

section Keeps

variable {store store' : BoundedProtocolStore} {cmd : ImmutableTrackCommand}
  {job : TrackWorkerCommand}

theorem coalesceUpdates_keeps {res : ImmutableTrackCommand × BoundedProtocolStore}
    (h : store.coalesceUpdates cmd = some res) :
    res.2 = { store with pending := res.2.pending } := by
  unfold coalesceUpdates at h
  dsimp only at h
  split_ifs at h
  · obtain ⟨payload, _, rfl⟩ := Option.map_eq_some_iff.mp h
    rfl
  · cases h
    rfl

theorem coalesceWithPending_keeps {res : ImmutableTrackCommand × BoundedProtocolStore}
    (h : store.coalesceWithPending cmd = some res) :
    res.2 = { store with pending := res.2.pending } := by
  unfold coalesceWithPending at h
  split_ifs at h
  · cases h
    unfold coalesceSync
    split_ifs <;> rfl
  · cases h
    unfold coalesceContinueEvict
    split
    · split_ifs <;> rfl
    · rfl
  · cases h
    unfold coalesceMint
    split <;> rfl
  · exact coalesceUpdates_keeps h
  · cases h
    rfl

theorem pushBounded_keeps :
    store.pushBounded cmd = { store with pending := (store.pushBounded cmd).pending } := by
  unfold pushBounded
  split_ifs <;> rfl

theorem stageOnQueueFull_keeps {res : StageResult × BoundedProtocolStore}
    (h : store.stageOnQueueFull cmd = some res) :
    res.2 = { store with pending := res.2.pending } := by
  obtain ⟨coalesced, hc, rfl⟩ := Option.map_eq_some_iff.mp h
  have hkeeps := coalesceWithPending_keeps hc
  split_ifs
  · exact hkeeps
  · rw [pushBounded_keeps, hkeeps]

theorem stageStronger_keeps (h : store.stageStrongerSyncIntentWhileInflight job = some store') :
    store' = { store with revision := store'.revision, pending := store'.pending } := by
  unfold stageStrongerSyncIntentWhileInflight at h
  dsimp only at h
  split_ifs at h
  · cases h
    rfl
  · cases h
    rw [pushBounded_keeps]
  · obtain ⟨coalesced, hc, rfl⟩ := Option.map_eq_some_iff.mp h
    have hkeeps := coalesceWithPending_keeps hc
    rw [pushBounded_keeps, hkeeps]

theorem tryDedupeEnqueue_keeps {b : Bool} (h : store.tryDedupeEnqueue job = some (b, store')) :
    store' = { store with revision := store'.revision, pending := store'.pending } := by
  unfold tryDedupeEnqueue at h
  split at h
  · split_ifs at h
    · cases h
      rfl
    · obtain ⟨next, hs, he⟩ := Option.map_eq_some_iff.mp h
      cases he
      exact stageStronger_keeps hs
    · cases h
      rfl
    · cases h
      rfl
  · split_ifs at h <;> cases h <;> rfl

theorem wrapCommand_keeps {res : ImmutableTrackCommand × BoundedProtocolStore}
    (h : store.wrapCommand job = some res) :
    res.2 = { store with revision := res.2.revision } := by
  obtain ⟨next, _, rfl⟩ := Option.map_eq_some_iff.mp h
  rfl

theorem takeApplicable_keeps {res : List ImmutableTrackCommand × BoundedProtocolStore}
    (h : store.takeApplicablePendingSorted = some res) : res.2 = { store with pending := [] } := by
  unfold takeApplicablePendingSorted at h
  split_ifs at h
  cases h
  rfl

theorem markApplied_keeps (h : store.markApplied cmd = some store') :
    store' = { store with
      lastApplied := store'.lastApplied
      lastAppliedWalletMint := store'.lastAppliedWalletMint
      lastAppliedTrackerMint := store'.lastAppliedTrackerMint } := by
  unfold markApplied at h
  split at h
  · obtain ⟨mint, _, rfl⟩ := Option.map_eq_some_iff.mp h
    rfl
  · obtain ⟨mint, _, rfl⟩ := Option.map_eq_some_iff.mp h
    rfl
  · cases h
    rfl

theorem markAppliedWalletDemand_keeps (h : store.markAppliedWalletDemand cmd = some store') :
    store' = { store with
      lastApplied := store'.lastApplied
      lastAppliedWalletMint := store'.lastAppliedWalletMint
      lastAppliedTrackerMint := store'.lastAppliedTrackerMint } := by
  obtain ⟨marked, hm, rfl⟩ := Option.map_eq_some_iff.mp h
  have hkeeps := markApplied_keeps hm
  split
  · unfold supersedeTrackerDemandForMint
    dsimp only
    split_ifs <;> rw [hkeeps]
  · exact hkeeps

end Keeps

end BoundedProtocolStore

end IronCrab.Track

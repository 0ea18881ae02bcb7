/-
  File:      IronCrab/Track/WorkerCommands.lean
  Subject:   THE COMMANDS OF THE TRACK WORKER (`worker_commands.rs`, `coalesce.rs`).

  A command is a payload with its stream and its revision. Wallet and tracker demand counts
  revisions per mint, every other stream counts its own; revisions are 64-bit and saturate. What
  panics in the source (`expect` on a missing mint) is `none` here.

  Bursts of momentum and arbitrage updates merge into one. The source collects the merged entries
  from hash maps, in no particular order; here they come in the order of their keys.
-/
import IronCrab.Track.Snapshot
import Mathlib.Data.String.Basic

namespace IronCrab.Track

/-! ## 1. The updates -/

/-- `MomentumActivePinReason`. -/
inductive MomentumActivePinReason where
  | tracker
  | position
  deriving DecidableEq

/-- `MomentumActivePoolEntry`. -/
structure MomentumActivePoolEntry where
  mint : String
  pool : String
  pinReason : MomentumActivePinReason
  deriving DecidableEq

/-- `MomentumRemovedPoolEntry`. -/
structure MomentumRemovedPoolEntry where
  mint : String
  pool : String
  reason : String
  deriving DecidableEq

/-- `MomentumActivePoolsUpdate`. -/
structure MomentumActivePoolsUpdate where
  version : UInt32
  tsUnixMs : UInt64
  active : List MomentumActivePoolEntry
  removed : List MomentumRemovedPoolEntry
  fullActiveSnapshot : Bool
  deriving DecidableEq

/-- `ArbTrackReadiness`. -/
inductive ArbTrackReadiness where
  | rejected
  | warmable
  | quoteReady
  | executable
  deriving DecidableEq

/-- `ArbTrackActiveReason`. -/
inductive ArbTrackActiveReason where
  | baseline
  | multiDex
  | tradeSignal
  deriving DecidableEq

/-- `ArbTrackActiveEntry`. -/
structure ArbTrackActiveEntry where
  pool : String
  reason : ArbTrackActiveReason
  readiness : ArbTrackReadiness
  deriving DecidableEq

/-- `ArbTrackRemovedReason`. -/
inductive ArbTrackRemovedReason where
  | cooldown
  | stale
  | budget
  deriving DecidableEq

/-- `ArbTrackRemovedEntry`. -/
structure ArbTrackRemovedEntry where
  pool : String
  reason : ArbTrackRemovedReason
  deriving DecidableEq

/-- `ArbTrackRequestsUpdate`. -/
structure ArbTrackRequestsUpdate where
  version : UInt32
  tsUnixMs : UInt64
  active : List ArbTrackActiveEntry
  removed : List ArbTrackRemovedEntry
  reconcile : Bool
  deriving DecidableEq

/-! ## 2. Merging a burst -/

/-- `merge_momentum_active_pin_reason`: a position is not downgraded. -/
def mergeMomentumActivePinReason (existing incoming : MomentumActivePinReason) :
    MomentumActivePinReason :=
  if existing = .position ∨ incoming = .position then .position else .tracker

/-- `MomentumPoolKey`. -/
abbrev MomentumPoolKey := String ×ₗ String

/-- The accumulators of `merge_momentum_active_pools_updates`. -/
structure MomentumMerge where
  activeMap : SortedMap MomentumPoolKey MomentumActivePoolEntry
  removedMap : SortedMap MomentumPoolKey MomentumRemovedPoolEntry
  sawFullSnapshot : Bool
  maxVersion : UInt32
  maxTs : UInt64

namespace MomentumMerge

/-- A full snapshot forgets what was active before. -/
def restart (m : MomentumMerge) (target : List MomentumPoolKey) : MomentumMerge :=
  let dropped := m.activeMap.keys.filter fun key => decide (key ∉ target)
  { m with
    sawFullSnapshot := true
    activeMap := .empty
    removedMap := dropped.foldl (fun removed key => removed.erase key) m.removedMap }

def remove (m : MomentumMerge) (r : MomentumRemovedPoolEntry) : MomentumMerge :=
  let key : MomentumPoolKey := toLex (r.mint, r.pool)
  { m with activeMap := m.activeMap.erase key, removedMap := m.removedMap.insert key r }

def activate (m : MomentumMerge) (a : MomentumActivePoolEntry) : MomentumMerge :=
  let key : MomentumPoolKey := toLex (a.mint, a.pool)
  let merged := match m.activeMap.lookup key with
    | some existing =>
        { a with pinReason := mergeMomentumActivePinReason existing.pinReason a.pinReason }
    | none => a
  { m with activeMap := m.activeMap.insert key merged, removedMap := m.removedMap.erase key }

/-- One update of the burst. -/
def update (m : MomentumMerge) (u : MomentumActivePoolsUpdate) : MomentumMerge :=
  let m := { m with maxVersion := max m.maxVersion u.version, maxTs := max m.maxTs u.tsUnixMs }
  let m := if u.fullActiveSnapshot then m.restart (u.active.map fun a => toLex (a.mint, a.pool))
    else m
  u.active.foldl activate (u.removed.foldl remove m)

end MomentumMerge

/-- `merge_momentum_active_pools_updates`. -/
def mergeMomentumActivePoolsUpdates (updates : List MomentumActivePoolsUpdate) :
    Option MomentumActivePoolsUpdate :=
  if updates = [] then none
  else
    let m := updates.foldl MomentumMerge.update ⟨.empty, .empty, false, 0, 0⟩
    let removedMap := m.activeMap.keys.foldl (fun removed key => removed.erase key) m.removedMap
    some ⟨m.maxVersion, m.maxTs, m.activeMap.values, removedMap.values, m.sawFullSnapshot⟩

/-- The accumulators of `merge_arb_track_requests_updates`. -/
structure ArbMerge where
  activeMap : SortedMap String ArbTrackActiveEntry
  removedMap : SortedMap String ArbTrackRemovedEntry
  sawReconcile : Bool
  maxVersion : UInt32
  maxTs : UInt64

namespace ArbMerge

/-- A reconcile forgets what was active before. -/
def restart (m : ArbMerge) (target : List String) : ArbMerge :=
  let dropped := m.activeMap.keys.filter fun key => decide (key ∉ target)
  { m with
    sawReconcile := true
    activeMap := .empty
    removedMap := dropped.foldl (fun removed key => removed.erase key) m.removedMap }

def remove (m : ArbMerge) (r : ArbTrackRemovedEntry) : ArbMerge :=
  { m with activeMap := m.activeMap.erase r.pool, removedMap := m.removedMap.insert r.pool r }

def activate (m : ArbMerge) (a : ArbTrackActiveEntry) : ArbMerge :=
  { m with activeMap := m.activeMap.insert a.pool a, removedMap := m.removedMap.erase a.pool }

/-- One update of the burst. -/
def update (m : ArbMerge) (u : ArbTrackRequestsUpdate) : ArbMerge :=
  let m := { m with maxVersion := max m.maxVersion u.version, maxTs := max m.maxTs u.tsUnixMs }
  let m := if u.reconcile then m.restart (u.active.map (·.pool)) else m
  u.active.foldl activate (u.removed.foldl remove m)

end ArbMerge

/-- `merge_arb_track_requests_updates`. -/
def mergeArbTrackRequestsUpdates (updates : List ArbTrackRequestsUpdate) :
    Option ArbTrackRequestsUpdate :=
  if updates = [] then none
  else
    let m := updates.foldl ArbMerge.update ⟨.empty, .empty, false, 0, 0⟩
    let removedMap := m.activeMap.keys.foldl (fun removed key => removed.erase key) m.removedMap
    some ⟨m.maxVersion, m.maxTs, m.activeMap.values, removedMap.values, m.sawReconcile⟩

/-! ## 3. The commands -/

/-- `TrackPinReason`. -/
inductive TrackPinReason where
  | wallet
  | momentumActive
  | arbMultiDex
  deriving DecidableEq

/-- `TrackWorkerCommand`. -/
inductive TrackWorkerCommand where
  | applyMomentumActivePools (update : MomentumActivePoolsUpdate)
  | applyArbTrackRequests (update : ArbTrackRequestsUpdate)
  | applyWalletPin (mint : Pubkey)
  | withdrawWalletPin (mint : Pubkey)
  | trackMint (mint : Pubkey) (pin : Option TrackPinReason)
  | trackMints (entries : List (Pubkey × Option TrackPinReason))
  | scheduleGeyserSyncAfterConfigChange
  | scheduleGeyserPush
  | scheduleGeyserPushDebounced
  | restoreExplicitSnapshot (snapshot : ExplicitSetSnapshot)
  | continueGeyserEvict
  | flushExplicitSetSnapshot
  | shedTrackerUnderExecHotPressure (maxGroups : Nat)
  | shedMomentumUnderExecHotPressure (maxGroups : Nat)
  | shedArbUnderExecHotPressure (maxGroups : Nat)
  | retryDeferredHotPoolReserves
  deriving DecidableEq

/-- `TrackCommandStream`. -/
inductive TrackCommandStream where
  | momentum
  | arb
  | wallet
  | tracker
  | control
  deriving DecidableEq

/-- `ImmutableTrackCommand`. -/
structure ImmutableTrackCommand where
  stream : TrackCommandStream
  revision : Nat
  payload : TrackWorkerCommand
  deriving DecidableEq

/-- The stream of a `TrackMint`. -/
def trackMintStream : Option TrackPinReason → TrackCommandStream
  | some .wallet => .wallet
  | none => .tracker
  | _ => .control

/-- `track_mints_batch_stream`. -/
def trackMintsBatchStream : List (Pubkey × Option TrackPinReason) → TrackCommandStream
  | [(_, pin)] => trackMintStream pin
  | _ => .control

/-- `stream_for_command`. -/
def streamForCommand : TrackWorkerCommand → TrackCommandStream
  | .applyMomentumActivePools _ => .momentum
  | .applyArbTrackRequests _ => .arb
  | .applyWalletPin _ | .withdrawWalletPin _ => .wallet
  | .trackMint _ pin => trackMintStream pin
  | .trackMints entries => trackMintsBatchStream entries
  | _ => .control

/-- `SyncIntentStrength`. -/
inductive SyncIntentStrength where
  | debounced
  | push
  | configChange
  deriving DecidableEq

/-- The discriminant, which the derived order compares. -/
def SyncIntentStrength.ordinal : SyncIntentStrength → Nat
  | debounced => 0
  | push => 1
  | configChange => 2

instance : LinearOrder SyncIntentStrength :=
  LinearOrder.lift' SyncIntentStrength.ordinal fun a b h => by
    cases a <;> cases b <;> first | rfl | exact absurd h (by decide)

/-- `sync_intent_strength`. -/
def syncIntentStrength : TrackWorkerCommand → Option SyncIntentStrength
  | .scheduleGeyserPushDebounced => some .debounced
  | .scheduleGeyserPush => some .push
  | .scheduleGeyserSyncAfterConfigChange => some .configChange
  | _ => none

/-- `is_continue_evict`. -/
def isContinueEvict : TrackWorkerCommand → Bool
  | .continueGeyserEvict => true
  | _ => false

/-- The command of a sync intent. -/
def SyncIntentStrength.command : SyncIntentStrength → TrackWorkerCommand
  | configChange => .scheduleGeyserSyncAfterConfigChange
  | push => .scheduleGeyserPush
  | debounced => .scheduleGeyserPushDebounced

/-- `merge_sync_intent_payloads`: the strongest. -/
def mergeSyncIntentPayloads (commands : List TrackWorkerCommand) : TrackWorkerCommand :=
  (commands.foldl (fun strength cmd =>
    match syncIntentStrength cmd with
    | some s => max strength s
    | none => strength) SyncIntentStrength.debounced).command

/-- `demand_mint_for_command`. -/
def demandMintForCommand : TrackWorkerCommand → Option Pubkey
  | .applyWalletPin mint | .withdrawWalletPin mint => some mint
  | .trackMint mint none | .trackMint mint (some .wallet) => some mint
  | _ => none

/-- `stream_uses_per_mint_revision`. -/
def streamUsesPerMintRevision : TrackCommandStream → Bool
  | .wallet | .tracker => true
  | _ => false

/-! ## 4. Revisions -/

/-- `saturating_add(1)` with this maximum. -/
def saturatingSucc (max n : Nat) : Nat := min (n + 1) max

/-- `RevisionAssigner`. -/
structure RevisionAssigner where
  next : TrackCommandStream → Nat
  walletMintNext : SortedMap Pubkey Nat
  trackerMintNext : SortedMap Pubkey Nat

namespace RevisionAssigner

/-- `RevisionAssigner::default`. -/
def new : RevisionAssigner := ⟨fun _ => 0, .empty, .empty⟩

/-- The next revision of a mint; the first is 1. -/
def nextForMint (revisions : SortedMap Pubkey Nat) (mint : Pubkey) : Nat :=
  match revisions.lookup mint with
  | some r => saturatingSucc u64Max r
  | none => 1

/-- The next revision of a whole stream. -/
def nextForStream (assigner : RevisionAssigner) (stream : TrackCommandStream) :
    Nat × RevisionAssigner :=
  let rev := saturatingSucc u64Max (assigner.next stream)
  (rev, { assigner with next := Function.update assigner.next stream rev })

/-- `next_revision`; it panics on wallet or tracker demand without a mint. -/
def nextRevision (assigner : RevisionAssigner) (stream : TrackCommandStream)
    (demandMint : Option Pubkey) : Option (Nat × RevisionAssigner) :=
  match stream with
  | .wallet =>
      demandMint.map fun mint =>
        let rev := nextForMint assigner.walletMintNext mint
        (rev, { assigner with walletMintNext := assigner.walletMintNext.insert mint rev })
  | .tracker =>
      demandMint.map fun mint =>
        let rev := nextForMint assigner.trackerMintNext mint
        (rev, { assigner with trackerMintNext := assigner.trackerMintNext.insert mint rev })
  | stream => some (assigner.nextForStream stream)

/-- `last_issued_revision_for_mint`. -/
def lastIssuedRevisionForMint (assigner : RevisionAssigner) (stream : TrackCommandStream)
    (mint : Pubkey) : Nat :=
  match stream with
  | .wallet => (assigner.walletMintNext.lookup mint).getD 0
  | .tracker => (assigner.trackerMintNext.lookup mint).getD 0
  | _ => 0

end RevisionAssigner

end IronCrab.Track

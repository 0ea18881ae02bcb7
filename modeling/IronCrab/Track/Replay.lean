/-
  File:      IronCrab/Track/Replay.lean
  Subject:   FAILED DEMAND STAYS REPLAYABLE (`worker.rs`, `pending.rs`).

  Wallet and tracker demand and batches of `TrackMints` are staged again when their handler
  fails. Here the store is driven by any sequence of its operations: commands are wrapped, staged,
  drained, checked and settled with any outcome, in any order that the types allow.

  `failed` is a history: the demand whose handler failed and that nothing has answered since.

  * `markApplied_spec`, `markAppliedWalletDemand_spec` -- what an applied command makes
    inapplicable;
  * `staged_spec` -- what staging leaves in pending;
  * `failed_demand_replayable` -- failed demand waits and is applicable, as long as no control
    command overtakes a failed batch and no later command for the mint is staged over it;
    `failed_demand_kept` -- where one is, that one waits in its place;
  * `failed_demand_lost` -- what happens to batches otherwise.
-/
import IronCrab.Track.PendingStreams
import IronCrab.Track.Worker

namespace IronCrab.Track

open Machine

/-! ## 1. The operations -/

/-- The store, the commands that were wrapped, those a drain has taken and not yet given to the
    handler, and the one whose handler runs. -/
structure ReplayState where
  store : BoundedProtocolStore
  issued : List ImmutableTrackCommand
  hand : List ImmutableTrackCommand
  busy : Option ImmutableTrackCommand
  failed : List ImmutableTrackCommand

inductive ReplayOp where
  | wrap (payload : TrackWorkerCommand)
  | stage (cmd : ImmutableTrackCommand)
  | take
  /-- The first half of `track_worker_apply_protocol_command`, up to the handler. -/
  | check (cmd : ImmutableTrackCommand)
  /-- The second half, after the handler. -/
  | settle (succeeded : Bool)
  deriving DecidableEq

/-- The mints that a command names. -/
def TrackWorkerCommand.mints : TrackWorkerCommand → List Pubkey
  | .applyWalletPin mint | .withdrawWalletPin mint | .trackMint mint _ => [mint]
  | .trackMints entries => entries.map Prod.fst
  | _ => []

/-- The success of a command answers failed demand: the demand itself; a later command for the
    same mint of its stream, or a wallet command for the mint of tracker demand; for a batch, a
    later control command for the same mints. -/
def Answers (cmd f : ImmutableTrackCommand) : Prop :=
  cmd = f ∨
  match f.stream with
  | .wallet => cmd.stream = .wallet ∧
      demandMintForCommand cmd.payload = demandMintForCommand f.payload ∧
      f.revision ≤ cmd.revision
  | .tracker => demandMintForCommand cmd.payload = demandMintForCommand f.payload ∧
      (cmd.stream = .wallet ∨ cmd.stream = .tracker ∧ f.revision ≤ cmd.revision)
  | _ => cmd.stream = .control ∧ f.payload.mints ≠ [] ∧
      (∀ mint ∈ f.payload.mints, mint ∈ cmd.payload.mints) ∧ f.revision ≤ cmd.revision

/-- `Answers` for another command than the demand, on the demand's stream. -/
def answersOn (cmd f : ImmutableTrackCommand) : TrackCommandStream → Bool
  | .wallet => decide (cmd.stream = .wallet) &&
      decide (demandMintForCommand cmd.payload = demandMintForCommand f.payload) &&
      decide (f.revision ≤ cmd.revision)
  | .tracker => decide (demandMintForCommand cmd.payload = demandMintForCommand f.payload) &&
      (decide (cmd.stream = .wallet) ||
        decide (cmd.stream = .tracker) && decide (f.revision ≤ cmd.revision))
  | _ => decide (cmd.stream = .control) && !f.payload.mints.isEmpty &&
      (f.payload.mints.all fun mint => cmd.payload.mints.contains mint) &&
      decide (f.revision ≤ cmd.revision)

theorem answersOn_iff (cmd f : ImmutableTrackCommand) :
    (decide (cmd = f) || answersOn cmd f f.stream) = true ↔ Answers cmd f := by
  unfold Answers answersOn
  cases f.stream <;> simp [and_assoc]

instance (cmd f : ImmutableTrackCommand) : Decidable (Answers cmd f) :=
  decidable_of_iff _ (answersOn_iff cmd f)

namespace ReplayState

def new (pendingCap : Nat) : ReplayState := ⟨.new pendingCap, [], [], none, []⟩

/-- The failed demand after a handler returned. -/
def failedAfter (s : ReplayState) (cmd : ImmutableTrackCommand) (succeeded : Bool) :
    List ImmutableTrackCommand :=
  if succeeded then s.failed.filter fun f => !decide (Answers cmd f)
  else if TrackWorker.restageOnFailure cmd then cmd :: s.failed
  else s.failed

/-- One operation; a panic is `none`. -/
def turn (s : ReplayState) : ReplayOp → Option ReplayState
  | .wrap payload => (s.store.wrapCommand payload).map fun res =>
      { s with store := res.2, issued := s.issued ++ [res.1] }
  | .stage cmd => (s.store.stageOnQueueFull cmd).map fun res => { s with store := res.2 }
  | .take => s.store.takeApplicablePendingSorted.map fun res =>
      { s with store := res.2, hand := s.hand ++ res.1 }
  | .check cmd => (s.store.isApplicable cmd).map fun applicable =>
      { s with hand := s.hand.erase cmd, busy := if applicable then some cmd else none }
  | .settle succeeded =>
      match s.busy with
      | none => some s
      | some cmd => (TrackWorker.settle s.store cmd succeeded).map fun store =>
          { s with store, busy := none, failed := s.failedAfter cmd succeeded }

/-- The operations that the code's types and its one worker allow. -/
def Enabled (s : ReplayState) : ReplayOp → Prop
  | .wrap _ => True
  | .stage cmd => cmd ∈ s.issued
  | .take => True
  | .check cmd => s.busy = none ∧ (cmd ∈ s.issued ∨ cmd ∈ s.hand)
  | .settle _ => s.busy ≠ none

/-- The operations as a relation. -/
def Step (s : ReplayState) (op : ReplayOp) (s' : ReplayState) : Prop :=
  s.Enabled op ∧ s.turn op = some s'

/-- Pending is below its cap. -/
def HasRoom (s : ReplayState) : Prop := s.store.pending.length < s.store.pendingCap

/-- A command waits: in pending, taken for replay, or in its handler. -/
def Waits (s : ReplayState) (cmd : ImmutableTrackCommand) : Prop :=
  cmd ∈ s.store.pending ∨ cmd ∈ s.hand ∨ s.busy = some cmd

/-! ## 2. Conditions on a step -/

/-- The payload is no batch of one entry that goes to the wallet or tracker stream. -/
def Wrappable (payload : TrackWorkerCommand) : Prop :=
  ∀ mint pin, payload = .trackMints [(mint, pin)] → trackMintStream pin = .control

/-- No failed command for the same mint, older than this one, is pending. -/
def FindsNoOlder (s : ReplayState) (cmd : ImmutableTrackCommand) : Prop :=
  ∀ f ∈ s.failed, f ∈ s.store.pending → f.stream = cmd.stream →
    demandMintForCommand f.payload = demandMintForCommand cmd.payload →
    demandMintForCommand f.payload ≠ none → ¬ f.revision < cmd.revision

/-- A control command that is marked as applied overtakes no failed batch, unless it is the
    batch's answer. -/
def OvertakesNoBatch (s : ReplayState) (cmd : ImmutableTrackCommand) (succeeded : Bool) : Prop :=
  cmd.stream = .control → TrackWorker.shouldAdvance cmd succeeded = true →
    ∀ f ∈ s.failed, f.stream = .control → f.revision ≤ cmd.revision →
      succeeded = true ∧ Answers cmd f

/-- The steps that keep failed demand; with `strict`, also where it stands. -/
def Good (strict : Bool) (s : ReplayState) : ReplayOp → Prop
  | .wrap payload => Wrappable payload
  | .stage cmd => s.HasRoom ∧ (strict = true → s.FindsNoOlder cmd)
  | .take => True
  | .check _ => True
  | .settle succeeded => ∀ cmd, s.busy = some cmd → s.OvertakesNoBatch cmd succeeded ∧
      (TrackWorker.shouldAdvance cmd succeeded = false →
        s.HasRoom ∧ (strict = true → s.FindsNoOlder cmd))

end ReplayState

/-! ## 3. Watermarks -/

/-- A typed command whose stream can find its watermark. -/
structure ImmutableTrackCommand.Sound (cmd : ImmutableTrackCommand) : Prop where
  typed : cmd.Typed
  mint : streamUsesPerMintRevision cmd.stream = true →
    (demandMintForCommand cmd.payload).isSome = true

/-- Demand that is staged again when its handler fails. -/
def Demand (cmd : ImmutableTrackCommand) : Prop := TrackWorker.restageOnFailure cmd = true

/-- A `TrackMint` goes to the wallet stream, the tracker stream or control. -/
theorem trackMintStream_cases (pin : Option TrackPinReason) :
    trackMintStream pin = .wallet ∨ trackMintStream pin = .tracker ∨
      trackMintStream pin = .control := by
  rcases pin with _ | pin
  · exact .inr (.inl rfl)
  · cases pin with
    | wallet => exact .inl rfl
    | momentumActive => exact .inr (.inr rfl)
    | arbMultiDex => exact .inr (.inr rfl)

theorem trackMintsBatchStream_cases (entries : List (Pubkey × Option TrackPinReason)) :
    trackMintsBatchStream entries = .wallet ∨ trackMintsBatchStream entries = .tracker ∨
      trackMintsBatchStream entries = .control := by
  unfold trackMintsBatchStream
  split
  · exact trackMintStream_cases _
  · exact .inr (.inr rfl)

/-- The two kinds of failed demand: of a mint, or a batch on the control stream. -/
theorem demand_cases {cmd : ImmutableTrackCommand} (hs : cmd.Sound) (hd : Demand cmd) :
    (∃ mint, (cmd.stream = .wallet ∨ cmd.stream = .tracker) ∧
      demandMintForCommand cmd.payload = some mint) ∨
    (cmd.stream = .control ∧ ∃ entries, cmd.payload = .trackMints entries) := by
  by_cases hst : cmd.stream = .wallet ∨ cmd.stream = .tracker
  · have hper : streamUsesPerMintRevision cmd.stream = true := by
      rcases hst with h | h <;> rw [h] <;> rfl
    obtain ⟨mint, hm⟩ := Option.isSome_iff_exists.mp (hs.mint hper)
    exact .inl ⟨mint, hst, hm⟩
  · obtain ⟨hw, ht⟩ := not_or.mp hst
    refine .inr ?_
    unfold Demand TrackWorker.restageOnFailure at hd
    split at hd
    · next entries hp =>
        have hstream : cmd.stream = trackMintsBatchStream entries := by
          rw [hs.typed, hp]
          rfl
        refine ⟨?_, entries, hp⟩
        rcases trackMintsBatchStream_cases entries with h | h | h
        · exact absurd (hstream.trans h) hw
        · exact absurd (hstream.trans h) ht
        · exact hstream.trans h
    · next hw' _ => exact absurd hw' hw
    · next ht' _ => exact absurd ht' ht
    · cases hd

namespace BoundedProtocolStore

/-- What a command's revision is measured by: its stream and, where that counts per mint, its
    mint. -/
def demandKey (cmd : ImmutableTrackCommand) : TrackCommandStream × Option Pubkey :=
  (cmd.stream,
    if streamUsesPerMintRevision cmd.stream then demandMintForCommand cmd.payload else none)

/-- The last applied revision of a key. -/
def watermark (store : BoundedProtocolStore) : TrackCommandStream × Option Pubkey → Nat
  | (.wallet, some mint) => (store.lastAppliedWalletMint.lookup mint).getD 0
  | (.tracker, some mint) => (store.lastAppliedTrackerMint.lookup mint).getD 0
  | (stream, _) => store.lastApplied stream

variable {store store' : BoundedProtocolStore} {cmd f : ImmutableTrackCommand}

/-- The keys of sound commands. -/
theorem demandKey_cases (hs : cmd.Sound) :
    (∃ mint, demandMintForCommand cmd.payload = some mint ∧
      (cmd.stream = .wallet ∧ demandKey cmd = (.wallet, some mint) ∨
        cmd.stream = .tracker ∧ demandKey cmd = (.tracker, some mint))) ∨
    (streamUsesPerMintRevision cmd.stream = false ∧ demandKey cmd = (cmd.stream, none)) := by
  unfold demandKey
  cases hper : streamUsesPerMintRevision cmd.stream with
  | false => exact .inr ⟨rfl, rfl⟩
  | true =>
      obtain ⟨mint, hm⟩ := Option.isSome_iff_exists.mp (hs.mint hper)
      refine .inl ⟨mint, hm, ?_⟩
      rw [if_pos rfl, hm]
      cases hst : cmd.stream with
      | wallet => exact .inl ⟨rfl, rfl⟩
      | tracker => exact .inr ⟨rfl, rfl⟩
      | momentum => rw [hst] at hper; cases hper
      | arb => rw [hst] at hper; cases hper
      | control => rw [hst] at hper; cases hper

/-- **A sound command is applicable or not, without panic.** -/
theorem isApplicable_eq (store : BoundedProtocolStore) (hs : cmd.Sound) :
    store.isApplicable cmd = some (decide (store.watermark (demandKey cmd) < cmd.revision)) := by
  have hlast : store.lastAppliedForCmd cmd = some (store.watermark (demandKey cmd)) := by
    unfold lastAppliedForCmd
    rcases demandKey_cases hs with ⟨mint, hm, ⟨hst, hk⟩ | ⟨hst, hk⟩⟩ | ⟨hper, hk⟩
    · rw [hst, hm, hk]
      rfl
    · rw [hst, hm, hk]
      rfl
    · rw [hk]
      cases hst : cmd.stream with
      | wallet => rw [hst] at hper; cases hper
      | tracker => rw [hst] at hper; cases hper
      | _ => rfl
  unfold isApplicable
  rw [hlast]
  rfl

theorem getD_raiseMint (marks : SortedMap Pubkey Nat) (mint mint' : Pubkey) (revision : Nat) :
    ((raiseMint marks mint revision).lookup mint').getD 0 =
      if mint' = mint then max ((marks.lookup mint').getD 0) revision
      else (marks.lookup mint').getD 0 := by
  unfold raiseMint
  by_cases h : mint' = mint
  · subst h
    rw [SortedMap.lookup_insert_self, if_pos rfl]
    rfl
  · rw [SortedMap.lookup_insert_ne _ h, if_neg h]

/-- **An applied command raises the watermark of its key to its revision, and no other.** -/
theorem markApplied_spec (store : BoundedProtocolStore) (hs : cmd.Sound) :
    ∃ store', store.markApplied cmd = some store' ∧ ∀ f : ImmutableTrackCommand, f.Sound → store'.watermark (demandKey f) =
      if demandKey f = demandKey cmd then max (store.watermark (demandKey f)) cmd.revision
      else store.watermark (demandKey f) := by
  unfold markApplied
  rcases demandKey_cases hs with ⟨mint, hm, ⟨hst, hk⟩ | ⟨hst, hk⟩⟩ | ⟨hper, hk⟩
  · rw [hst, hm, hk]
    refine ⟨_, rfl, fun f hf => ?_⟩
    rcases demandKey_cases hf with ⟨mint', _, ⟨_, hkf⟩ | ⟨_, hkf⟩⟩ | ⟨hperf, hkf⟩
    · rw [hkf]
      show ((raiseMint _ _ _).lookup mint').getD 0 = _
      rw [getD_raiseMint]
      by_cases h : mint' = mint
      · rw [if_pos h, h, if_pos rfl]
        rfl
      · rw [if_neg h, if_neg fun he => h (Option.some.inj (congrArg Prod.snd he))]
        rfl
    · rw [hkf, if_neg (by simp)]
      rfl
    · rw [hkf, if_neg (by simp)]
      cases f.stream <;> rfl
  · rw [hst, hm, hk]
    refine ⟨_, rfl, fun f hf => ?_⟩
    rcases demandKey_cases hf with ⟨mint', _, ⟨_, hkf⟩ | ⟨_, hkf⟩⟩ | ⟨hperf, hkf⟩
    · rw [hkf, if_neg (by simp)]
      rfl
    · rw [hkf]
      show ((raiseMint _ _ _).lookup mint').getD 0 = _
      rw [getD_raiseMint]
      by_cases h : mint' = mint
      · rw [if_pos h, h, if_pos rfl]
        rfl
      · rw [if_neg h, if_neg fun he => h (Option.some.inj (congrArg Prod.snd he))]
        rfl
    · rw [hkf, if_neg (by simp)]
      cases f.stream <;> rfl
  · have hmarked : store.markApplied cmd = some { store with
        lastApplied := Function.update store.lastApplied cmd.stream
          (max (store.lastApplied cmd.stream) cmd.revision) } := by
      unfold markApplied
      cases hst : cmd.stream with
      | wallet => rw [hst] at hper; cases hper
      | tracker => rw [hst] at hper; cases hper
      | _ => rfl
    refine ⟨_, hmarked, fun f hf => ?_⟩
    rw [hk]
    rcases demandKey_cases hf with ⟨mint', _, ⟨_, hkf⟩ | ⟨_, hkf⟩⟩ | ⟨hperf, hkf⟩
    · rw [hkf, if_neg (by simp)]
      rfl
    · rw [hkf, if_neg (by simp)]
      rfl
    · rw [hkf]
      have hmark : ∀ store : BoundedProtocolStore,
          store.watermark (f.stream, none) = store.lastApplied f.stream := by
        intro store
        cases f.stream <;> rfl
      rw [hmark, hmark]
      dsimp only
      by_cases h : f.stream = cmd.stream
      · rw [if_pos (by rw [h]), h, Function.update_self]
      · rw [if_neg fun he => h (congrArg Prod.fst he), Function.update_of_ne h]

/-- Superseding tracker demand raises no watermark but the mint's on the tracker stream. -/
theorem watermark_supersede (mint : Pubkey) {key : TrackCommandStream × Option Pubkey}
    (hne : key ≠ (.tracker, some mint)) :
    (store.supersedeTrackerDemandForMint mint).watermark key = store.watermark key := by
  unfold supersedeTrackerDemandForMint
  dsimp only
  split_ifs
  · obtain ⟨stream, demandMint⟩ := key
    cases stream with
    | tracker =>
        cases demandMint with
        | none => rfl
        | some mint' =>
            show ((raiseMint _ _ _).lookup mint').getD 0 = _
            rw [getD_raiseMint, if_neg fun h => hne (by rw [h])]
            rfl
    | wallet => cases demandMint <;> rfl
    | momentum => rfl
    | arb => rfl
    | control => rfl
  · rfl

/-- **An applied wallet command also raises the tracker watermark of its mint.** -/
theorem markAppliedWalletDemand_spec (store : BoundedProtocolStore) (hs : cmd.Sound)
    (hw : cmd.stream = .wallet) :
    ∃ store', store.markAppliedWalletDemand cmd = some store' ∧
      ∀ f : ImmutableTrackCommand, f.Sound →
        demandMintForCommand f.payload = demandMintForCommand cmd.payload ∧
          (f.stream = .wallet ∧ store'.watermark (demandKey f) =
            max (store.watermark (demandKey f)) cmd.revision ∨ f.stream = .tracker) ∨
        store'.watermark (demandKey f) = store.watermark (demandKey f) := by
  obtain ⟨marked, hm, hmark⟩ := markApplied_spec store hs
  unfold markAppliedWalletDemand
  rw [hm]
  refine ⟨_, rfl, fun f hf => ?_⟩
  have hper : streamUsesPerMintRevision cmd.stream = true := by rw [hw]; rfl
  obtain ⟨mint, hmint⟩ := Option.isSome_iff_exists.mp (hs.mint hper)
  have hkey : demandKey cmd = (.wallet, some mint) := by
    unfold demandKey
    rw [hper, hw, hmint]
    rfl
  rw [hmint]
  dsimp only
  by_cases hne : demandKey f = (.tracker, some mint)
  · rcases demandKey_cases hf with ⟨mint', hm', ⟨_, hkf⟩ | ⟨hstf, hkf⟩⟩ | ⟨_, hkf⟩
    · rw [hkf] at hne
      exact (nomatch congrArg Prod.fst hne)
    · rw [hkf] at hne
      exact .inl ⟨hm'.trans (congrArg Prod.snd hne), .inr hstf⟩
    · rw [hkf] at hne
      exact (nomatch congrArg Prod.snd hne)
  · rw [watermark_supersede mint hne, hmark f hf, hkey]
    by_cases heq : demandKey f = (.wallet, some mint)
    · rw [if_pos heq]
      rcases demandKey_cases hf with ⟨mint', hm', ⟨hstf, hkf⟩ | ⟨_, hkf⟩⟩ | ⟨_, hkf⟩
      · rw [hkf] at heq
        exact .inl ⟨hm'.trans (congrArg Prod.snd heq), .inl ⟨hstf, rfl⟩⟩
      · rw [hkf] at heq
        exact (nomatch congrArg Prod.fst heq)
      · rw [hkf] at heq
        exact (nomatch congrArg Prod.snd heq)
    · rw [if_neg heq]
      exact .inr rfl

end BoundedProtocolStore

/-! ## 4. Staging -/

section Staging

variable {store : BoundedProtocolStore} {cmd f : ImmutableTrackCommand}

theorem Demand.not_sync (hs : f.Sound) (hd : Demand f) :
    (syncIntentStrength f.payload).isNone = true := by
  rcases demand_cases hs hd with ⟨mint, hst, _⟩ | ⟨_, entries, hp⟩
  · refine hs.typed.isNone_sync ?_
    rcases hst with h | h <;> rw [h] <;> decide
  · rw [hp]
    rfl

theorem Demand.not_evict (hs : f.Sound) (hd : Demand f) : isContinueEvict f.payload = false := by
  rcases demand_cases hs hd with ⟨mint, hst, _⟩ | ⟨_, entries, hp⟩
  · refine Bool.eq_false_of_not_eq_true fun hev => ?_
    have hcontrol := hs.typed.control_of_continueEvict hev
    rcases hst with h | h <;> rw [h] at hcontrol <;> cases hcontrol
  · rw [hp]
    rfl

/-- The wallet or tracker command replaces older demand for its mint. -/
def Replaces (cmd f : ImmutableTrackCommand) : Prop :=
  streamUsesPerMintRevision cmd.stream = true ∧ f.stream = cmd.stream ∧
    demandMintForCommand f.payload = demandMintForCommand cmd.payload ∧ f.revision < cmd.revision

/-- What coalescing leaves: of the demand in pending everything but what the command replaces;
    demand itself is pushed as it is. -/
structure Coalesced (store : BoundedProtocolStore) (cmd : ImmutableTrackCommand)
    (res : ImmutableTrackCommand × BoundedProtocolStore) : Prop where
  sound : res.1.Sound
  subset : ∀ d ∈ res.2.pending, d ∈ store.pending
  length : res.2.pending.length ≤ store.pending.length
  kept : ∀ f ∈ store.pending, f.Sound → Demand f → f ∈ res.2.pending ∨ Replaces cmd f
  own : Demand cmd → res.1 = cmd

theorem coalesced_unchanged (hs : cmd.Sound) : Coalesced store cmd (cmd, store) :=
  ⟨hs, fun _ hd => hd, le_refl _, fun _ hf _ _ => .inl hf, fun _ => rfl⟩

/-- Merged updates of a stream exist as soon as one of the payloads is an update of it. -/
theorem mergedPayload_isSome {stream : TrackCommandStream} (hinc : stream.Incremental)
    (payloads : List TrackWorkerCommand) {payload : TrackWorkerCommand}
    (hst : streamForCommand payload = stream) (hmem : payload ∈ payloads) :
    ∃ merged, BoundedProtocolStore.mergedPayload stream payloads = some merged := by
  have hpayload : (streamForCommand payload).Incremental := hst ▸ hinc
  have hupdate := update_of_incremental hpayload
  unfold BoundedProtocolStore.mergedPayload
  rcases hupdate with ⟨u, rfl⟩ | ⟨u, rfl⟩
  · have hne : payloads.filterMap BoundedProtocolStore.momentumUpdate? ≠ [] :=
      List.ne_nil_of_mem (List.mem_filterMap.mpr ⟨_, hmem, rfl⟩)
    rw [← hst]
    show ∃ merged, (mergeMomentumActivePoolsUpdates _).map _ = some merged
    unfold mergeMomentumActivePoolsUpdates
    rw [if_neg hne]
    exact ⟨_, rfl⟩
  · have hne : payloads.filterMap BoundedProtocolStore.arbUpdate? ≠ [] :=
      List.ne_nil_of_mem (List.mem_filterMap.mpr ⟨_, hmem, rfl⟩)
    rw [← hst]
    show ∃ merged, (mergeArbTrackRequestsUpdates _).map _ = some merged
    unfold mergeArbTrackRequestsUpdates
    rw [if_neg hne]
    exact ⟨_, rfl⟩

/-- Demand is neither a momentum nor an arbitrage update. -/
theorem Demand.not_incremental (hs : f.Sound) (hd : Demand f) : ¬ f.stream.Incremental := by
  rcases demand_cases hs hd with ⟨_, hst, _⟩ | ⟨hst, _⟩
  · rcases hst with h | h <;> rw [h] <;> exact fun hi => hi.elim (nomatch ·) (nomatch ·)
  · rw [hst]
    exact fun hi => hi.elim (nomatch ·) (nomatch ·)

theorem coalesced_updates (hs : cmd.Sound) (hinc : cmd.stream.Incremental) :
    ∃ res, store.coalesceUpdates cmd = some res ∧ Coalesced store cmd res := by
  have hnot : ¬ Demand cmd := fun hd => hd.not_incremental hs hinc
  unfold BoundedProtocolStore.coalesceUpdates
  dsimp only
  split_ifs
  · obtain ⟨merged, hm⟩ := mergedPayload_isSome hinc
      ((store.pending.filter (BoundedProtocolStore.sameStreamOlder cmd)).map (·.payload) ++
        [cmd.payload]) hs.typed.symm (List.mem_append_right _ List.mem_cons_self)
    rw [hm]
    refine ⟨_, rfl, ⟨?_, ?_⟩, fun d hd => (List.mem_filter.mp hd).1, List.length_filter_le _ _,
      fun f hf hsf hdf => .inl ?_, fun hd => absurd hd hnot⟩
    · exact (BoundedProtocolStore.streamForCommand_mergedPayload hm).symm
    · intro hper
      rw [hinc.not_perMint] at hper
      cases hper
    · refine List.mem_filter.mpr ⟨hf, ?_⟩
      have hother : ¬ (f.stream = cmd.stream ∧ f.revision < cmd.revision) :=
        fun h => hdf.not_incremental hsf (h.1 ▸ hinc)
      unfold BoundedProtocolStore.sameStreamOlder
      rw [decide_eq_false hother]
      rfl
  · exact ⟨_, rfl, coalesced_unchanged hs⟩

/-- **Coalescing does not panic, and keeps demand but what the command replaces.** -/
theorem coalesced_spec (store : BoundedProtocolStore) (hs : cmd.Sound) :
    ∃ res, store.coalesceWithPending cmd = some res ∧ Coalesced store cmd res := by
  unfold BoundedProtocolStore.coalesceWithPending
  split_ifs with hsync hev hper hupd
  · refine ⟨_, rfl, ?_⟩
    have hnot : ¬ Demand cmd := fun hd => by
      have hnone := hd.not_sync hs
      rw [Option.isNone_iff_eq_none] at hnone
      rw [hnone] at hsync
      cases hsync
    unfold BoundedProtocolStore.coalesceSync
    split_ifs
    · refine ⟨⟨(streamForCommand_command _).symm, fun h => (nomatch h)⟩,
        fun d hd => (List.mem_filter.mp hd).1, List.length_filter_le _ _,
        fun f hf hsf hdf => .inl (List.mem_filter.mpr ⟨hf, hdf.not_sync hsf⟩),
        fun hd => absurd hd hnot⟩
    · exact coalesced_unchanged hs
  · refine ⟨_, rfl, ?_⟩
    unfold BoundedProtocolStore.coalesceContinueEvict
    split
    · split_ifs
      · refine ⟨hs, fun d hd => List.mem_of_mem_eraseP hd, List.length_eraseP_le,
          fun f hf hsf hdf => .inl ?_, fun _ => rfl⟩
        refine (List.mem_eraseP_of_neg ?_).mpr hf
        rw [hdf.not_evict hsf]
        exact Bool.false_ne_true
      · exact coalesced_unchanged hs
    · exact coalesced_unchanged hs
  · refine ⟨_, rfl, ?_⟩
    unfold BoundedProtocolStore.coalesceMint
    split
    · next mint hmint =>
        refine ⟨hs, fun d hd => (List.mem_filter.mp hd).1, List.length_filter_le _ _,
          fun f hf hsf hdf => ?_, fun _ => rfl⟩
        by_cases hold : f.stream = cmd.stream ∧ demandMintForCommand f.payload = some mint ∧
            f.revision < cmd.revision
        · exact .inr ⟨hper, hold.1, hold.2.1.trans hmint.symm, hold.2.2⟩
        · refine .inl (List.mem_filter.mpr ⟨hf, ?_⟩)
          unfold BoundedProtocolStore.sameMintOlder
          rw [decide_eq_false hold]
          rfl
    · exact coalesced_unchanged hs
  · exact coalesced_updates hs hupd
  · exact ⟨_, rfl, coalesced_unchanged hs⟩

/-- What staging leaves in pending. -/
structure Staged (store : BoundedProtocolStore) (cmd : ImmutableTrackCommand)
    (store' : BoundedProtocolStore) : Prop where
  keeps : store' = { store with pending := store'.pending }
  sound : (∀ d ∈ store.pending, d.Sound) → ∀ d ∈ store'.pending, d.Sound
  kept : ∀ f ∈ store.pending, f.Sound → Demand f → f ∈ store'.pending ∨ Replaces cmd f
  own : Demand cmd → cmd ∈ store'.pending

/-- **Staging does not panic, and keeps demand but what the command replaces.** -/
theorem staged_spec (store : BoundedProtocolStore) (hs : cmd.Sound)
    (hroom : store.pending.length < store.pendingCap) :
    ∃ res, store.stageOnQueueFull cmd = some res ∧ Staged store cmd res.2 := by
  obtain ⟨coalesced, hc, hspec⟩ := coalesced_spec store hs
  have hkeeps := BoundedProtocolStore.coalesceWithPending_keeps hc
  have hstage : store.stageOnQueueFull cmd = some
      (if isContinueEvict coalesced.1.payload && coalesced.2.hasPendingContinueEvict then
        (.staged, coalesced.2) else (.staged, coalesced.2.pushBounded coalesced.1)) := by
    unfold BoundedProtocolStore.stageOnQueueFull
    rw [hc]
    rfl
  by_cases hev : (isContinueEvict coalesced.1.payload &&
      coalesced.2.hasPendingContinueEvict) = true
  · rw [if_pos hev] at hstage
    refine ⟨_, hstage, hkeeps, fun hp d hd => hp d (hspec.subset d hd), hspec.kept,
      fun hd => ?_⟩
    rw [hspec.own hd, hd.not_evict hs] at hev
    cases hev
  · have hcap : coalesced.2.pendingCap = store.pendingCap := by rw [hkeeps]
    have hleft : coalesced.2.pending.length < coalesced.2.pendingCap := by
      rw [hcap]
      exact lt_of_le_of_lt hspec.length hroom
    rw [if_neg hev, BoundedProtocolStore.pushBounded_of_room hleft] at hstage
    refine ⟨_, hstage, by rw [hkeeps], fun hp d hd => ?_, fun f hf hsf hdf => ?_, fun hd => ?_⟩
    · rcases List.mem_append.mp hd with hd | hd
      · exact hp d (hspec.subset d hd)
      · rw [List.mem_singleton.mp hd]
        exact hspec.sound
    · exact (hspec.kept f hf hsf hdf).imp_left (List.mem_append_left _)
    · rw [hspec.own hd]
      exact List.mem_append_right _ List.mem_cons_self

end Staging

/-! ## 5. Wrapping and draining -/

section Wrapping

variable {store : BoundedProtocolStore} {payload : TrackWorkerCommand}

/-- Wallet and tracker commands name their mint, but for batches of one entry. -/
theorem demandMint_isSome (hw : ReplayState.Wrappable payload)
    (hper : streamUsesPerMintRevision (streamForCommand payload) = true) :
    (demandMintForCommand payload).isSome = true := by
  cases payload with
  | applyWalletPin mint => rfl
  | withdrawWalletPin mint => rfl
  | trackMint mint pin =>
      rcases pin with _ | pin
      · rfl
      · cases pin with
        | wallet => rfl
        | momentumActive => cases hper
        | arbMultiDex => cases hper
  | trackMints entries =>
      unfold streamForCommand trackMintsBatchStream at hper
      dsimp only at hper
      split at hper
      · next mint pin =>
          rw [hw mint pin rfl] at hper
          cases hper
      · cases hper
  | _ => cases hper

/-- **Wrapping does not panic, but on a batch of one wallet-pinned or unpinned entry.** -/
theorem wrap_spec (store : BoundedProtocolStore) (hw : ReplayState.Wrappable payload) :
    ∃ res, store.wrapCommand payload = some res ∧ res.1.Sound := by
  have hmint := demandMint_isSome hw
  unfold BoundedProtocolStore.wrapCommand
  dsimp only
  cases hst : streamForCommand payload with
  | wallet =>
      obtain ⟨mint, hm⟩ := Option.isSome_iff_exists.mp (hmint (by rw [hst]; rfl))
      rw [hm]
      exact ⟨_, rfl, hst.symm, fun _ => by rw [hm]; rfl⟩
  | tracker =>
      obtain ⟨mint, hm⟩ := Option.isSome_iff_exists.mp (hmint (by rw [hst]; rfl))
      rw [hm]
      exact ⟨_, rfl, hst.symm, fun _ => by rw [hm]; rfl⟩
  | momentum => exact ⟨_, rfl, hst.symm, fun h => (nomatch h)⟩
  | arb => exact ⟨_, rfl, hst.symm, fun h => (nomatch h)⟩
  | control => exact ⟨_, rfl, hst.symm, fun h => (nomatch h)⟩

/-- **A drain of sound commands does not panic, and takes every applicable one.** -/
theorem take_spec (hp : ∀ d ∈ store.pending, d.Sound) :
    ∃ res, store.takeApplicablePendingSorted = some res ∧ res.2 = { store with pending := [] } ∧
      ∀ d, d ∈ res.1 ↔ d ∈ store.pending ∧
        store.watermark (BoundedProtocolStore.demandKey d) < d.revision := by
  have hall : (store.pending.all fun cmd => (store.isApplicable cmd).isSome) = true := by
    rw [List.all_eq_true]
    intro d hd
    rw [BoundedProtocolStore.isApplicable_eq store (hp d hd)]
    rfl
  unfold BoundedProtocolStore.takeApplicablePendingSorted
  rw [if_pos hall]
  refine ⟨_, rfl, rfl, fun d => ?_⟩
  rw [List.mem_filter, (BoundedProtocolStore.byRevision_perm store.pending).mem_iff]
  refine and_congr_right fun hd => ?_
  rw [BoundedProtocolStore.isApplicable_eq store (hp d hd)]
  exact decide_eq_true_iff

end Wrapping

/-! ## 6. The invariant -/

namespace BoundedProtocolStore

/-- Watermarks depend on what was applied only. -/
theorem watermark_congr {store store' : BoundedProtocolStore}
    (h : store'.lastApplied = store.lastApplied)
    (hw : store'.lastAppliedWalletMint = store.lastAppliedWalletMint)
    (ht : store'.lastAppliedTrackerMint = store.lastAppliedTrackerMint)
    (key : TrackCommandStream × Option Pubkey) : store'.watermark key = store.watermark key := by
  unfold watermark
  rw [h, hw, ht]

end BoundedProtocolStore

namespace Replaces

variable {c d f : ImmutableTrackCommand}

theorem trans (h : Replaces d c) (h' : Replaces c f) : Replaces d f :=
  ⟨h.1, h'.2.1.trans h.2.1, h'.2.2.1.trans h.2.2.1, h'.2.2.2.trans h.2.2.2⟩

theorem demandKey_eq (h : Replaces c f) :
    BoundedProtocolStore.demandKey c = BoundedProtocolStore.demandKey f := by
  unfold BoundedProtocolStore.demandKey
  rw [h.2.1, h.2.2.1]

/-- Only wallet and tracker demand replaces. -/
theorem demand (h : Replaces c f) : Demand c := by
  have hper := h.1
  unfold Demand TrackWorker.restageOnFailure
  split
  · rfl
  · rfl
  · rfl
  · next hm hw ht =>
      cases hst : c.stream with
      | wallet => exact absurd hst hw
      | tracker => exact absurd hst ht
      | momentum => rw [hst] at hper; cases hper
      | arb => rw [hst] at hper; cases hper
      | control => rw [hst] at hper; cases hper

/-- The replacing demand answers the replaced. -/
theorem answers (h : Replaces c f) : Answers c f := by
  have hper := h.1
  refine .inr ?_
  cases hst : c.stream with
  | wallet =>
      rw [h.2.1, hst]
      exact ⟨rfl, h.2.2.1.symm, Nat.le_of_lt h.2.2.2⟩
  | tracker =>
      rw [h.2.1, hst]
      exact ⟨h.2.2.1.symm, .inr ⟨rfl, Nat.le_of_lt h.2.2.2⟩⟩
  | momentum => rw [hst] at hper; cases hper
  | arb => rw [hst] at hper; cases hper
  | control => rw [hst] at hper; cases hper

end Replaces

/-- What stands for failed demand: the demand itself or, unless `strict`, what replaced it. -/
def Covers (strict : Bool) (c f : ImmutableTrackCommand) : Prop :=
  c = f ∨ strict = false ∧ Replaces c f

namespace ReplayState

open BoundedProtocolStore (demandKey)

/-- **Failed demand is applicable, and waits or is covered by what waits.** -/
structure Kept (strict : Bool) (s : ReplayState) (f : ImmutableTrackCommand) : Prop where
  sound : f.Sound
  demand : Demand f
  applicable : s.store.watermark (demandKey f) < f.revision
  waits : ∃ c, Covers strict c f ∧ s.Waits c

structure Inv (strict : Bool) (s : ReplayState) : Prop where
  issued : ∀ c ∈ s.issued, c.Sound
  pending : ∀ c ∈ s.store.pending, c.Sound
  hand : ∀ c ∈ s.hand, c.Sound
  busy : ∀ c, s.busy = some c → c.Sound ∧ s.store.watermark (demandKey c) < c.revision
  failed : ∀ f ∈ s.failed, s.Kept strict f

variable {strict : Bool} {s : ReplayState} {cmd f : ImmutableTrackCommand}

theorem inv_new (pendingCap : Nat) : Inv strict (new pendingCap) where
  issued := fun _ h => absurd h List.not_mem_nil
  pending := fun _ h => absurd h List.not_mem_nil
  hand := fun _ h => absurd h List.not_mem_nil
  busy := fun _ h => (nomatch h)
  failed := fun _ h => absurd h List.not_mem_nil

/-- What covers failed demand is applicable with it. -/
theorem Kept.cover_applicable (h : s.Kept strict f) {c : ImmutableTrackCommand}
    (hc : Covers strict c f) : s.store.watermark (demandKey c) < c.revision := by
  rcases hc with rfl | ⟨_, hr⟩
  · exact h.applicable
  · rw [hr.demandKey_eq]
    exact h.applicable.trans hr.2.2.2

theorem Kept.cover_demand (h : s.Kept strict f) {c : ImmutableTrackCommand}
    (hc : Covers strict c f) : Demand c := by
  rcases hc with rfl | ⟨_, hr⟩
  · exact h.demand
  · exact hr.demand

theorem inv_wrap (h : Inv strict s) {payload : TrackWorkerCommand} (hg : Wrappable payload) :
    ∃ s', s.turn (.wrap payload) = some s' ∧ Inv strict s' := by
  obtain ⟨res, hres, hsound⟩ := wrap_spec s.store hg
  have hkeeps := BoundedProtocolStore.wrapCommand_keeps hres
  have hmark : ∀ key, res.2.watermark key = s.store.watermark key :=
    BoundedProtocolStore.watermark_congr (by rw [hkeeps]) (by rw [hkeeps]) (by rw [hkeeps])
  have hpending : res.2.pending = s.store.pending := by rw [hkeeps]
  refine ⟨_, congrArg (Option.map _) hres, ?_, ?_, h.hand, ?_, ?_⟩
  · intro c hc
    rcases List.mem_append.mp hc with hc | hc
    · exact h.issued c hc
    · rw [List.mem_singleton.mp hc]
      exact hsound
  · rw [hpending]
    exact h.pending
  · intro c hc
    rw [hmark]
    exact h.busy c hc
  · intro f hf
    obtain ⟨hs, hd, ha, c, hcov, hw⟩ := h.failed f hf
    refine ⟨hs, hd, ?_, c, hcov, ?_⟩
    · rw [hmark]
      exact ha
    · unfold Waits
      rw [hpending]
      exact hw

/-- **What staging does to a cover in pending**: it stays, or the staged command takes its
    place. -/
theorem cover_staged (h : Inv strict s) {store' : BoundedProtocolStore}
    (hst : Staged s.store cmd store') (hg : strict = true → s.FindsNoOlder cmd)
    (hf : f ∈ s.failed) {c : ImmutableTrackCommand} (hcov : Covers strict c f)
    (hc : c ∈ s.store.pending) : ∃ d, Covers strict d f ∧ d ∈ store'.pending := by
  have hdem := (h.failed f hf).cover_demand hcov
  rcases hst.kept c hc (h.pending c hc) hdem with hstays | hrep
  · exact ⟨c, hcov, hstays⟩
  · refine ⟨cmd, ?_, hst.own hrep.demand⟩
    cases strict with
    | true =>
        have hcf : c = f := hcov.resolve_right fun hr => (nomatch hr.1)
        subst hcf
        have hper : streamUsesPerMintRevision c.stream = true := by
          rw [hrep.2.1]
          exact hrep.1
        have hsome := (h.pending c hc).mint hper
        have hne : demandMintForCommand c.payload ≠ none := fun hnone => by
          rw [hnone] at hsome
          cases hsome
        exact absurd hrep.2.2.2 (hg rfl c hf hc hrep.2.1 hrep.2.2.1 hne)
    | false =>
        rcases hcov with rfl | ⟨_, hr⟩
        · exact .inr ⟨rfl, hrep⟩
        · exact .inr ⟨rfl, hrep.trans hr⟩

theorem inv_stage (h : Inv strict s) (he : s.Enabled (.stage cmd))
    (hg : s.Good strict (.stage cmd)) :
    ∃ s', s.turn (.stage cmd) = some s' ∧ Inv strict s' := by
  obtain ⟨res, hres, hst⟩ := staged_spec s.store (h.issued cmd he) hg.1
  have hmark : ∀ key, res.2.watermark key = s.store.watermark key :=
    BoundedProtocolStore.watermark_congr (by rw [hst.keeps]) (by rw [hst.keeps])
      (by rw [hst.keeps])
  refine ⟨_, congrArg (Option.map _) hres, h.issued, hst.sound h.pending, h.hand, ?_, ?_⟩
  · intro c hc
    rw [hmark]
    exact h.busy c hc
  · intro f hf
    obtain ⟨hs, hd, ha, c, hcov, hw⟩ := h.failed f hf
    have ha' : res.2.watermark (demandKey f) < f.revision := by
      rw [hmark]
      exact ha
    rcases hw with hw | hw | hw
    · obtain ⟨d, hdcov, hdp⟩ := cover_staged h hst hg.2 hf hcov hw
      exact ⟨hs, hd, ha', d, hdcov, .inl hdp⟩
    · exact ⟨hs, hd, ha', c, hcov, .inr (.inl hw)⟩
    · exact ⟨hs, hd, ha', c, hcov, .inr (.inr hw)⟩

theorem inv_take (h : Inv strict s) : ∃ s', s.turn .take = some s' ∧ Inv strict s' := by
  obtain ⟨res, hres, hstore, hmem⟩ := take_spec h.pending
  have hmark : ∀ key, res.2.watermark key = s.store.watermark key :=
    BoundedProtocolStore.watermark_congr (by rw [hstore]) (by rw [hstore]) (by rw [hstore])
  refine ⟨_, congrArg (Option.map _) hres, h.issued, ?_, ?_, ?_, ?_⟩
  · show ∀ c ∈ res.2.pending, c.Sound
    rw [hstore]
    exact fun _ hc => absurd hc List.not_mem_nil
  · intro c hc
    rcases List.mem_append.mp hc with hc | hc
    · exact h.hand c hc
    · exact h.pending c ((hmem c).mp hc).1
  · intro c hc
    rw [hmark]
    exact h.busy c hc
  · intro f hf
    have hk := h.failed f hf
    obtain ⟨c, hcov, hw⟩ := hk.waits
    refine ⟨hk.sound, hk.demand, by rw [hmark]; exact hk.applicable, c, hcov, ?_⟩
    rcases hw with hw | hw | hw
    · -- an applicable command is taken
      exact .inr (.inl (List.mem_append_right _ ((hmem c).mpr ⟨hw, hk.cover_applicable hcov⟩)))
    · exact .inr (.inl (List.mem_append_left _ hw))
    · exact .inr (.inr hw)

theorem inv_check (h : Inv strict s) (he : s.Enabled (.check cmd)) :
    ∃ s', s.turn (.check cmd) = some s' ∧ Inv strict s' := by
  obtain ⟨hidle, hfrom⟩ := he
  have hs : cmd.Sound := hfrom.elim (h.issued cmd) (h.hand cmd)
  have happ := BoundedProtocolStore.isApplicable_eq s.store hs
  refine ⟨_, congrArg (Option.map _) happ, h.issued, h.pending,
    fun c hc => h.hand c (List.mem_of_mem_erase hc), ?_, ?_⟩
  · intro c hc
    dsimp only at hc
    split_ifs at hc with hlt
    cases hc
    exact ⟨hs, of_decide_eq_true hlt⟩
  · intro f hf
    have hk := h.failed f hf
    obtain ⟨c, hcov, hw⟩ := hk.waits
    refine ⟨hk.sound, hk.demand, hk.applicable, c, hcov, ?_⟩
    by_cases hcc : c = cmd
    · subst hcc
      exact .inr (.inr (if_pos (decide_eq_true (hk.cover_applicable hcov))))
    · rcases hw with hw | hw | hw
      · exact .inl hw
      · exact .inr (.inl ((List.mem_erase_of_ne hcc).mpr hw))
      · rw [hidle] at hw
        cases hw

/-- A command that does not advance is failed demand. -/
theorem demand_of_not_advance {succeeded : Bool}
    (h : TrackWorker.shouldAdvance cmd succeeded = false) : succeeded = false ∧ Demand cmd := by
  unfold TrackWorker.shouldAdvance at h
  unfold Demand TrackWorker.restageOnFailure
  split at h
  · exact ⟨h, rfl⟩
  · exact ⟨h, rfl⟩
  · exact ⟨h, rfl⟩
  · cases h

/-- Demand advances only with success. -/
theorem succeeded_of_advance {succeeded : Bool} (hd : Demand cmd)
    (h : TrackWorker.shouldAdvance cmd succeeded = true) : succeeded = true := by
  unfold TrackWorker.shouldAdvance at h
  unfold Demand TrackWorker.restageOnFailure at hd
  split at h
  · exact h
  · exact h
  · exact h
  · next hm hw ht =>
      split at hd
      · next entries hp => exact absurd hp (hm entries)
      · next hst _ => exact absurd hst hw
      · next hst _ => exact absurd hst ht
      · cases hd

/-- Wallet and tracker commands are demand. -/
theorem demand_of_stream (hst : cmd.stream = .wallet ∨ cmd.stream = .tracker) : Demand cmd := by
  unfold Demand TrackWorker.restageOnFailure
  split
  · rfl
  · rfl
  · rfl
  · next hm hw ht => exact absurd hst (not_or.mpr ⟨hw, ht⟩)

/-- What the settled command has not answered. -/
theorem not_answers {succeeded : Bool} (hf : f ∈ s.failedAfter cmd succeeded)
    (hadv : TrackWorker.shouldAdvance cmd succeeded = true) :
    f ∈ s.failed ∧ (succeeded = true → ¬ Answers cmd f) := by
  unfold failedAfter at hf
  split_ifs at hf with hsucc hre
  · obtain ⟨hmem, hans⟩ := List.mem_filter.mp hf
    exact ⟨hmem, fun _ h => by simp [h] at hans⟩
  · exact absurd (succeeded_of_advance hre hadv) hsucc
  · exact ⟨hf, fun h => absurd h hsucc⟩

/-- **An applied command leaves the demand that it does not answer applicable.** -/
theorem applied_spec (h : Inv strict s) (hb : s.busy = some cmd) {succeeded : Bool}
    (hadv : TrackWorker.shouldAdvance cmd succeeded = true)
    (hg : s.OvertakesNoBatch cmd succeeded) :
    ∃ store', TrackWorker.settle s.store cmd succeeded = some store' ∧
      store'.pending = s.store.pending ∧
      ∀ f ∈ s.failedAfter cmd succeeded, store'.watermark (demandKey f) < f.revision := by
  have hsound := (h.busy cmd hb).1
  unfold TrackWorker.settle
  rw [if_pos hadv]
  by_cases hw : cmd.stream = .wallet
  · rw [if_pos hw]
    obtain ⟨store', hm, hmark⟩ :=
      BoundedProtocolStore.markAppliedWalletDemand_spec s.store hsound hw
    have hsucc := succeeded_of_advance (demand_of_stream (.inl hw)) hadv
    refine ⟨store', hm, by rw [BoundedProtocolStore.markAppliedWalletDemand_keeps hm], ?_⟩
    intro f hf
    obtain ⟨hfailed, hans⟩ := not_answers hf hadv
    have hk := h.failed f hfailed
    rcases hmark f hk.sound with ⟨hmint, ⟨hst, heq⟩ | hst⟩ | heq
    · have hlt : cmd.revision < f.revision := by
        refine Nat.lt_of_not_le fun hle => hans hsucc (.inr ?_)
        rw [hst]
        exact ⟨hw, hmint.symm, hle⟩
      rw [heq]
      exact max_lt hk.applicable hlt
    · refine absurd (.inr ?_) (hans hsucc)
      rw [hst]
      exact ⟨hmint.symm, .inl hw⟩
    · rw [heq]
      exact hk.applicable
  · rw [if_neg hw]
    obtain ⟨store', hm, hmark⟩ := BoundedProtocolStore.markApplied_spec s.store hsound
    refine ⟨store', hm, by rw [BoundedProtocolStore.markApplied_keeps hm], ?_⟩
    intro f hf
    obtain ⟨hfailed, hans⟩ := not_answers hf hadv
    have hk := h.failed f hfailed
    rw [hmark f hk.sound]
    by_cases hkey : demandKey f = demandKey cmd
    · rw [if_pos hkey]
      refine max_lt hk.applicable (Nat.lt_of_not_le fun hle => ?_)
      have hstream : f.stream = cmd.stream := congrArg Prod.fst hkey
      rcases demand_cases hk.sound hk.demand with ⟨mint, hst | hst, hmint⟩ | ⟨hst, _⟩
      · exact hw (hstream.symm.trans hst)
      · have hcst : cmd.stream = .tracker := hstream.symm.trans hst
        have hsucc := succeeded_of_advance (demand_of_stream (.inr hcst)) hadv
        refine hans hsucc (.inr ?_)
        have hsnd := congrArg Prod.snd hkey
        unfold BoundedProtocolStore.demandKey at hsnd
        rw [hst, hcst] at hsnd
        rw [hst]
        exact ⟨hsnd.symm, .inr ⟨hcst, hle⟩⟩
      · obtain ⟨hsucc, ha⟩ := hg (hstream.symm.trans hst) hadv f hfailed hst hle
        exact hans hsucc ha
    · rw [if_neg hkey]
      exact hk.applicable

theorem inv_settle (h : Inv strict s) {succeeded : Bool}
    (hg : s.Good strict (.settle succeeded)) :
    ∃ s', s.turn (.settle succeeded) = some s' ∧ Inv strict s' := by
  cases hb : s.busy with
  | none =>
      refine ⟨s, ?_, h⟩
      unfold turn
      rw [hb]
  | some cmd =>
      obtain ⟨hsound, happ⟩ := h.busy cmd hb
      obtain ⟨hover, hstage⟩ := hg cmd hb
      have hturn : s.turn (.settle succeeded) =
          (TrackWorker.settle s.store cmd succeeded).map fun store =>
            { s with store, busy := none, failed := s.failedAfter cmd succeeded } := by
        unfold turn
        rw [hb]
      rw [hturn]
      cases hadv : TrackWorker.shouldAdvance cmd succeeded with
      | true =>
          obtain ⟨store', hset, hpending, hmark⟩ := applied_spec h hb hadv hover
          refine ⟨_, congrArg (Option.map _) hset, h.issued, ?_, h.hand, ?_, ?_⟩
          · show ∀ c ∈ store'.pending, c.Sound
            rw [hpending]
            exact h.pending
          · exact fun c hc => (nomatch hc)
          · intro f hf
            obtain ⟨hfailed, hans⟩ := not_answers hf hadv
            have hk := h.failed f hfailed
            obtain ⟨c, hcov, hw⟩ := hk.waits
            refine ⟨hk.sound, hk.demand, hmark f hf, c, hcov, ?_⟩
            rcases hw with hw | hw | hw
            · refine .inl ?_
              show c ∈ store'.pending
              rw [hpending]
              exact hw
            · exact .inr (.inl hw)
            · -- the settled command itself, or one it replaced, would have been answered
              have hcc : cmd = c := Option.some.inj (hb.symm.trans hw)
              subst hcc
              have hsucc := succeeded_of_advance (hk.cover_demand hcov) hadv
              rcases hcov with heq | ⟨_, hr⟩
              · exact absurd (.inl heq) (hans hsucc)
              · exact absurd hr.answers (hans hsucc)
      | false =>
          obtain ⟨hfail, hd⟩ := demand_of_not_advance hadv
          obtain ⟨hroom, hfinds⟩ := hstage hadv
          obtain ⟨res, hres, hst⟩ := staged_spec s.store hsound hroom
          have hmark : ∀ key, res.2.watermark key = s.store.watermark key :=
            BoundedProtocolStore.watermark_congr (by rw [hst.keeps]) (by rw [hst.keeps])
              (by rw [hst.keeps])
          have hset : TrackWorker.settle s.store cmd succeeded = some res.2 := by
            unfold TrackWorker.settle
            have hre : TrackWorker.restageOnFailure cmd = true := hd
            rw [hadv, if_neg Bool.false_ne_true, if_pos hre, hres]
            rfl
          have hafter : s.failedAfter cmd succeeded = cmd :: s.failed := by
            unfold failedAfter
            have hre : TrackWorker.restageOnFailure cmd = true := hd
            rw [hfail, if_neg Bool.false_ne_true, if_pos hre]
          refine ⟨_, congrArg (Option.map _) hset, h.issued, hst.sound h.pending, h.hand,
            fun c hc => (nomatch hc), ?_⟩
          intro f hf
          have hf' : f ∈ cmd :: s.failed := hafter ▸ hf
          rcases List.mem_cons.mp hf' with rfl | hfailed
          · refine ⟨hsound, hd, ?_, f, .inl rfl, .inl (hst.own hd)⟩
            rw [hmark]
            exact happ
          · obtain ⟨hs, hdf, ha, c, hcov, hw⟩ := h.failed f hfailed
            have ha' : res.2.watermark (demandKey f) < f.revision := by
              rw [hmark]
              exact ha
            rcases hw with hw | hw | hw
            · obtain ⟨d, hdcov, hdp⟩ := cover_staged h hst hfinds hfailed hcov hw
              exact ⟨hs, hdf, ha', d, hdcov, .inl hdp⟩
            · exact ⟨hs, hdf, ha', c, hcov, .inr (.inl hw)⟩
            · have hcc : cmd = c := Option.some.inj (hb.symm.trans hw)
              subst hcc
              exact ⟨hs, hdf, ha', cmd, hcov, .inl (hst.own hd)⟩

/-- **A good step does not panic, and keeps the invariant.** -/
theorem inv_turn (h : Inv strict s) {op : ReplayOp} (he : s.Enabled op)
    (hg : s.Good strict op) : ∃ s', s.turn op = some s' ∧ Inv strict s' := by
  cases op with
  | wrap payload => exact inv_wrap h hg
  | stage cmd => exact inv_stage h he hg
  | take => exact inv_take h
  | check cmd => exact inv_check h he
  | settle succeeded => exact inv_settle h hg

theorem inv_run {pendingCap : Nat} {ops : List ReplayOp}
    (h : Run (Guarded Step (Good strict)) (new pendingCap) ops s) : Inv strict s := by
  refine Run.invariant (I := fun _ s => Inv strict s) (inv_new pendingCap) ?_ h
  intro _ s op s' _ hi ⟨⟨he, hturn⟩, hg⟩
  obtain ⟨s'', hs, hi'⟩ := inv_turn hi he hg
  cases hturn.symm.trans hs
  exact hi'

/-- **Failed demand is kept, by itself or by what replaced it.** In every run of good steps no
    allowed operation panics, and failed demand that nothing has answered is applicable and waits,
    or later demand for its mint waits in its place. -/
theorem failed_demand_kept {pendingCap : Nat} {ops : List ReplayOp}
    (h : Run (Guarded Step (Good false)) (new pendingCap) ops s) :
    (∀ op, s.Enabled op → s.Good false op → s.turn op ≠ none) ∧
    ∀ f ∈ s.failed, s.store.isApplicable f = some true ∧
      ∃ c, (c = f ∨ Replaces c f) ∧ s.Waits c := by
  have hi := inv_run h
  refine ⟨fun op he hg hnone => ?_, fun f hf => ?_⟩
  · obtain ⟨s', hs, _⟩ := inv_turn hi he hg
    rw [hs] at hnone
    cases hnone
  · obtain ⟨hs, hd, ha, c, hcov, hw⟩ := hi.failed f hf
    refine ⟨?_, c, hcov.imp_right And.right, hw⟩
    rw [BoundedProtocolStore.isApplicable_eq s.store hs, decide_eq_true ha]

/-- **Failed demand stays replayable.** In every run of steps that wrap no batch of one
    wallet-pinned or unpinned entry, stage nothing over older failed demand for the mint, and let
    no control command overtake a failed batch: no allowed operation panics, and failed demand
    waits and is applicable until something answers it. -/
theorem failed_demand_replayable {pendingCap : Nat} {ops : List ReplayOp}
    (h : Run (Guarded Step (Good true)) (new pendingCap) ops s) :
    (∀ op, s.Enabled op → s.Good true op → s.turn op ≠ none) ∧
    ∀ f ∈ s.failed, s.Waits f ∧ s.store.isApplicable f = some true := by
  have hi := inv_run h
  refine ⟨fun op he hg hnone => ?_, fun f hf => ?_⟩
  · obtain ⟨s', hs, _⟩ := inv_turn hi he hg
    rw [hs] at hnone
    cases hnone
  · obtain ⟨hs, hd, ha, c, hcov, hw⟩ := hi.failed f hf
    have hcf : c = f := hcov.resolve_right fun hr => (nomatch hr.1)
    subst hcf
    refine ⟨hw, ?_⟩
    rw [BoundedProtocolStore.isApplicable_eq s.store hs, decide_eq_true ha]

/-- The wallet pin of a mint, wrapped first. -/
def firstPin : ImmutableTrackCommand := ⟨.wallet, 1, .applyWalletPin 7⟩

/-- The state after these operations. -/
def after (s : ReplayState) (ops : List ReplayOp) : ReplayState :=
  foldSteps (fun s op => (s.turn op).getD s) s ops

/-- A wallet pin that fails, and a sync intent after it. -/
def pinOps : List ReplayOp :=
  [.wrap (.applyWalletPin 7), .check firstPin, .settle false, .wrap .scheduleGeyserPush,
    .check ⟨.control, 1, .scheduleGeyserPush⟩, .settle false]

theorem pin_run : Run (Guarded Step (Good true)) (new 8) pinOps ((new 8).after pinOps) := by
  refine .cons ⟨⟨trivial, rfl⟩, fun _ _ h => (nomatch h)⟩ ?_
  refine .cons ⟨⟨⟨rfl, .inl (by decide)⟩, rfl⟩, trivial⟩ ?_
  refine .cons ⟨⟨fun h => (nomatch h), rfl⟩, ?_⟩ ?_
  · rintro cmd hb
    cases hb
    refine ⟨fun hst => (nomatch hst), fun _ => ⟨by unfold HasRoom; decide, fun _ f hf => ?_⟩⟩
    exact absurd hf List.not_mem_nil
  refine .cons ⟨⟨trivial, rfl⟩, fun _ _ h => (nomatch h)⟩ ?_
  refine .cons ⟨⟨⟨rfl, .inl (by decide)⟩, rfl⟩, trivial⟩ ?_
  refine .cons ⟨⟨fun h => (nomatch h), rfl⟩, ?_⟩ .start
  rintro cmd hb
  cases hb
  refine ⟨fun _ _ f hf hst => ?_, fun hadv => (nomatch hadv)⟩
  cases List.mem_singleton.mp hf
  cases hst

theorem failed_demand_replayable_pin :
    ((new 8).after pinOps).Waits firstPin ∧
      ((new 8).after pinOps).store.isApplicable firstPin = some true :=
  (failed_demand_replayable pin_run).2 firstPin (List.mem_singleton.mpr rfl)

/-- The steps during which pending stays below its cap. -/
def Roomy (s : ReplayState) : ReplayOp → Prop
  | .stage _ | .settle _ => s.HasRoom
  | _ => True

/-- A batch of two entries, wrapped first. -/
def firstBatch : ImmutableTrackCommand :=
  ⟨.control, 1, .trackMints [(7, some .momentumActive), (8, some .momentumActive)]⟩

/-- A batch that fails, and a sync intent after it. -/
def batchOps : List ReplayOp :=
  [.wrap firstBatch.payload, .check firstBatch, .settle false, .wrap .scheduleGeyserPush,
    .check ⟨.control, 2, .scheduleGeyserPush⟩, .settle false]

theorem batch_run : Run (Guarded Step Roomy) (new 8) batchOps ((new 8).after batchOps) := by
  refine .cons ⟨⟨trivial, rfl⟩, trivial⟩ ?_
  refine .cons ⟨⟨⟨rfl, .inl (by decide)⟩, rfl⟩, trivial⟩ ?_
  refine .cons ⟨⟨fun h => (nomatch h), rfl⟩, by unfold Roomy HasRoom; decide⟩ ?_
  refine .cons ⟨⟨trivial, rfl⟩, trivial⟩ ?_
  refine .cons ⟨⟨⟨rfl, .inl (by decide)⟩, rfl⟩, trivial⟩ ?_
  exact .cons ⟨⟨fun h => (nomatch h), rfl⟩, by unfold Roomy HasRoom; decide⟩ .start

/-- **A batch of one wallet-pinned entry panics when it is wrapped, and a sync intent makes a
    failed batch inapplicable.** -/
theorem failed_demand_lost :
    (¬ ∀ (pendingCap : Nat) (ops : List ReplayOp) (s : ReplayState),
      Run (Guarded Step Roomy) (new pendingCap) ops s →
        ∀ op, s.Enabled op → s.Roomy op → s.turn op ≠ none) ∧
    ¬ ∀ (pendingCap : Nat) (ops : List ReplayOp) (s : ReplayState),
      Run (Guarded Step Roomy) (new pendingCap) ops s →
        ∀ f ∈ s.failed, s.Waits f ∧ s.store.isApplicable f = some true := by
  constructor
  · intro hall
    exact hall 8 [] _ .start (.wrap (.trackMints [(7, some .wallet)])) trivial trivial rfl
  · intro hall
    have h := (hall 8 _ _ batch_run firstBatch (List.mem_singleton.mpr rfl)).2
    exact absurd h (by decide)

end ReplayState

end IronCrab.Track

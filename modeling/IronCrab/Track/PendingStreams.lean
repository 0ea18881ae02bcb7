/-
  File:      IronCrab/Track/PendingStreams.lean
  Subject:   ONE STREAM IN THE PENDING STORE (`pending.rs`).

  What each operation of the store does to the commands of one stream: deduplication and the
  staging of another stream leave them alone, staging a momentum or arbitrage update merges the
  older ones into it, and a drain returns all of them.
-/
import IronCrab.Track.Pending

namespace IronCrab.Track

/-! ## 1. Commands of a stream -/

/-- The stream is the one of the payload. -/
def ImmutableTrackCommand.Typed (cmd : ImmutableTrackCommand) : Prop :=
  cmd.stream = streamForCommand cmd.payload

/-- The streams whose updates are increments. -/
def TrackCommandStream.Incremental (stream : TrackCommandStream) : Prop :=
  stream = .momentum ∨ stream = .arb

/-- The commands of one stream, in their order. -/
def ofStream (stream : TrackCommandStream) (cmds : List ImmutableTrackCommand) :
    List ImmutableTrackCommand :=
  cmds.filter fun cmd => decide (cmd.stream = stream)

section Commands

variable {stream : TrackCommandStream} {cmds : List ImmutableTrackCommand}
  {cmd : ImmutableTrackCommand}

theorem mem_ofStream : cmd ∈ ofStream stream cmds ↔ cmd ∈ cmds ∧ cmd.stream = stream := by
  rw [ofStream, List.mem_filter, decide_eq_true_iff]

theorem ofStream_append (front back : List ImmutableTrackCommand) :
    ofStream stream (front ++ back) = ofStream stream front ++ ofStream stream back :=
  List.filter_append front back

theorem ofStream_append_other (hne : cmd.stream ≠ stream) :
    ofStream stream (cmds ++ [cmd]) = ofStream stream cmds := by
  rw [ofStream_append, ofStream, ofStream, List.filter_singleton, decide_eq_false hne]
  exact List.append_nil _

theorem ofStream_filter {p : ImmutableTrackCommand → Bool}
    (hp : ∀ c ∈ cmds, c.stream = stream → p c = true) :
    ofStream stream (cmds.filter p) = ofStream stream cmds := by
  rw [ofStream, ofStream, List.filter_filter]
  refine List.filter_congr fun c hc => ?_
  by_cases hst : c.stream = stream
  · rw [hp c hc hst, Bool.and_true]
  · rw [decide_eq_false hst, Bool.false_and]

theorem ofStream_eraseP {p : ImmutableTrackCommand → Bool}
    (hp : ∀ c ∈ cmds, p c = true → c.stream ≠ stream) :
    ofStream stream (cmds.eraseP p) = ofStream stream cmds := by
  induction cmds with
  | nil => rfl
  | cons c cmds ih =>
      have hrest := ih fun d hd => hp d (List.mem_cons_of_mem c hd)
      by_cases hc : p c = true
      · rw [List.eraseP_cons_of_pos hc, ofStream, ofStream, List.filter_cons,
          decide_eq_false (hp c List.mem_cons_self hc)]
        rfl
      · rw [List.eraseP_cons_of_neg hc, ofStream, List.filter_cons, ofStream, List.filter_cons]
        unfold ofStream at hrest
        rw [hrest]

theorem ofStream_replaceFirst {p : ImmutableTrackCommand → Bool}
    {f : ImmutableTrackCommand → ImmutableTrackCommand} (hf : ∀ c, (f c).stream ≠ stream)
    (hp : ∀ c ∈ cmds, p c = true → c.stream ≠ stream) :
    ofStream stream (BoundedProtocolStore.replaceFirst p f cmds) = ofStream stream cmds := by
  induction cmds with
  | nil => rfl
  | cons c cmds ih =>
      have hrest := ih fun d hd => hp d (List.mem_cons_of_mem c hd)
      unfold BoundedProtocolStore.replaceFirst
      split_ifs with hc
      · rw [ofStream, ofStream, List.filter_cons, List.filter_cons, decide_eq_false (hf c),
          decide_eq_false (hp c List.mem_cons_self hc)]
        rfl
      · unfold ofStream at hrest
        rw [ofStream, List.filter_cons, hrest, ofStream, List.filter_cons]

theorem mem_replaceFirst {p : ImmutableTrackCommand → Bool}
    {f : ImmutableTrackCommand → ImmutableTrackCommand}
    (h : cmd ∈ BoundedProtocolStore.replaceFirst p f cmds) : cmd ∈ cmds ∨ ∃ c, cmd = f c := by
  induction cmds with
  | nil => exact absurd h List.not_mem_nil
  | cons c cmds ih =>
      unfold BoundedProtocolStore.replaceFirst at h
      split_ifs at h
      · rcases List.mem_cons.mp h with rfl | h
        · exact Or.inr ⟨c, rfl⟩
        · exact Or.inl (List.mem_cons_of_mem c h)
      · rcases List.mem_cons.mp h with rfl | h
        · exact Or.inl List.mem_cons_self
        · exact (ih h).imp_left (List.mem_cons_of_mem c)

end Commands

theorem streamForCommand_of_sync {job : TrackWorkerCommand} {strength : SyncIntentStrength}
    (h : syncIntentStrength job = some strength) : streamForCommand job = .control := by
  cases job <;> first | rfl | cases h

theorem streamForCommand_of_continueEvict {job : TrackWorkerCommand}
    (h : isContinueEvict job = true) : streamForCommand job = .control := by
  cases job <;> first | rfl | cases h

theorem streamForCommand_command (strength : SyncIntentStrength) :
    streamForCommand strength.command = .control := by
  cases strength <;> rfl

namespace ImmutableTrackCommand.Typed

variable {cmd : ImmutableTrackCommand} (htyped : cmd.Typed)
include htyped

theorem control_of_sync (h : (syncIntentStrength cmd.payload).isSome = true) :
    cmd.stream = .control := by
  obtain ⟨strength, hs⟩ := Option.isSome_iff_exists.mp h
  exact htyped.trans (streamForCommand_of_sync hs)

theorem control_of_continueEvict (h : isContinueEvict cmd.payload = true) :
    cmd.stream = .control :=
  htyped.trans (streamForCommand_of_continueEvict h)

theorem isNone_sync (hne : cmd.stream ≠ .control) :
    (syncIntentStrength cmd.payload).isNone = true := by
  cases hs : syncIntentStrength cmd.payload with
  | none => rfl
  | some strength => exact absurd (htyped.control_of_sync (by rw [hs]; rfl)) hne

end ImmutableTrackCommand.Typed

namespace TrackCommandStream.Incremental

variable {stream : TrackCommandStream} (h : stream.Incremental)
include h

theorem ne_control : stream ≠ .control := by
  rcases h with rfl | rfl <;> decide

theorem not_perMint : streamUsesPerMintRevision stream = false := by
  rcases h with rfl | rfl <;> rfl

end TrackCommandStream.Incremental

theorem not_incremental_trackMintStream (pin : Option TrackPinReason) :
    ¬(trackMintStream pin).Incremental := by
  rcases pin with _ | pin
  · exact fun h => h.elim (nomatch ·) (nomatch ·)
  · cases pin <;> exact fun h => h.elim (nomatch ·) (nomatch ·)

theorem not_incremental_trackMintsBatchStream (entries : List (Pubkey × Option TrackPinReason)) :
    ¬(trackMintsBatchStream entries).Incremental := by
  unfold trackMintsBatchStream
  split
  · exact not_incremental_trackMintStream _
  · exact fun h => h.elim (nomatch ·) (nomatch ·)

/-- The payload of an incremental stream. -/
theorem update_of_incremental {job : TrackWorkerCommand}
    (hinc : (streamForCommand job).Incremental) :
    (∃ u, job = .applyMomentumActivePools u) ∨ ∃ u, job = .applyArbTrackRequests u := by
  cases job with
  | applyMomentumActivePools u => exact Or.inl ⟨u, rfl⟩
  | applyArbTrackRequests u => exact Or.inr ⟨u, rfl⟩
  | trackMint mint pin => exact absurd hinc (not_incremental_trackMintStream pin)
  | trackMints entries => exact absurd hinc (not_incremental_trackMintsBatchStream entries)
  | _ => exact hinc.elim (nomatch ·) (nomatch ·)

/-! ## 2. Operations that leave a stream alone -/

namespace BoundedProtocolStore

/-- **The store holds what it held of the stream**, and every pending command is typed. -/
structure SameStream (stream : TrackCommandStream) (store store' : BoundedProtocolStore) :
    Prop where
  typed : ∀ c ∈ store'.pending, c.Typed
  pending : ofStream stream store'.pending = ofStream stream store.pending
  next : store'.revision.next stream = store.revision.next stream
  lastApplied : store'.lastApplied stream = store.lastApplied stream

variable {stream : TrackCommandStream} {store store' : BoundedProtocolStore}
  {cmd : ImmutableTrackCommand} {job : TrackWorkerCommand}

theorem pushBounded_of_room (h : store.pending.length < store.pendingCap) :
    store.pushBounded cmd = { store with pending := store.pending ++ [cmd] } := by
  unfold pushBounded
  rw [if_pos h]

/-- Only control demand is deduplicated. -/
theorem control_of_deduped (h : store.tryDedupeEnqueue job = some (true, store')) :
    streamForCommand job = .control := by
  unfold tryDedupeEnqueue at h
  cases hs : syncIntentStrength job with
  | some strength => exact streamForCommand_of_sync hs
  | none =>
      rw [hs] at h
      dsimp only at h
      split_ifs at h with hev
      · exact streamForCommand_of_continueEvict hev
      · exact streamForCommand_of_continueEvict hev
      · cases h
      · cases h

theorem streamForCommand_mergedPayload {payloads : List TrackWorkerCommand}
    {payload : TrackWorkerCommand} (h : mergedPayload stream payloads = some payload) :
    streamForCommand payload = stream := by
  unfold mergedPayload at h
  split at h
  · obtain ⟨u, _, rfl⟩ := Option.map_eq_some_iff.mp h
    rfl
  · obtain ⟨u, _, rfl⟩ := Option.map_eq_some_iff.mp h
    rfl
  · cases h

namespace SameStream

theorem refl (htyped : ∀ c ∈ store.pending, c.Typed) : SameStream stream store store :=
  ⟨htyped, rfl, rfl, rfl⟩

/-- A command of another stream is pushed. -/
theorem append (h : SameStream stream store store') (hcmd : cmd.Typed)
    (hne : cmd.stream ≠ stream) :
    SameStream stream store { store' with pending := store'.pending ++ [cmd] } where
  typed := by
    intro c hc
    rcases List.mem_append.mp hc with hc | hc
    · exact h.typed c hc
    · rw [List.mem_singleton.mp hc]
      exact hcmd
  pending := (ofStream_append_other hne).trans h.pending
  next := h.next
  lastApplied := h.lastApplied

theorem pushBounded (h : SameStream stream store store') (hcmd : cmd.Typed)
    (hne : cmd.stream ≠ stream) (hroom : store'.pending.length < store'.pendingCap) :
    SameStream stream store (store'.pushBounded cmd) := by
  rw [pushBounded_of_room hroom]
  exact h.append hcmd hne

/-- Only commands of other streams leave pending. -/
theorem filter (htyped : ∀ c ∈ store.pending, c.Typed) {p : ImmutableTrackCommand → Bool}
    (hp : ∀ c ∈ store.pending, c.stream = stream → p c = true) :
    SameStream stream store { store with pending := store.pending.filter p } where
  typed := fun c hc => htyped c (List.mem_filter.mp hc).1
  pending := ofStream_filter hp
  next := rfl
  lastApplied := rfl

/-- Another stream takes its next revision. -/
theorem nextForStream (h : SameStream stream store store') {other : TrackCommandStream}
    (hne : stream ≠ other) :
    SameStream stream store
      { store' with revision := (store'.revision.nextForStream other).2 } where
  typed := h.typed
  pending := h.pending
  next := (Function.update_of_ne hne _ _).trans h.next
  lastApplied := h.lastApplied

theorem mem (h : SameStream stream store store') (hc : cmd ∈ store'.pending)
    (hst : cmd.stream = stream) : cmd ∈ store.pending := by
  have hmem : cmd ∈ ofStream stream store'.pending := mem_ofStream.mpr ⟨hc, hst⟩
  rw [h.pending] at hmem
  exact (mem_ofStream.mp hmem).1

end SameStream

section Same

variable (htyped : ∀ c ∈ store.pending, c.Typed)
include htyped

theorem isNone_of_incremental (hne : stream ≠ .control) {c : ImmutableTrackCommand}
    (hc : c ∈ store.pending) (hst : c.stream = stream) :
    (syncIntentStrength c.payload).isNone = true :=
  (htyped c hc).isNone_sync (hst.trans_ne hne)

theorem sameStream_withoutSync (hne : stream ≠ .control) :
    SameStream stream store { store with pending := withoutSync store.pending } :=
  .filter htyped fun _ hc hst => isNone_of_incremental htyped hne hc hst

theorem sameStream_mergeSyncIntoPending (hne : stream ≠ .control) :
    SameStream stream store (store.mergeSyncIntoPending job) :=
  ((sameStream_withoutSync htyped hne).nextForStream hne).append
    (streamForCommand_command _).symm hne.symm

theorem sameStream_stageStronger (hne : stream ≠ .control)
    (hroom : store.pending.length < store.pendingCap) (hjob : streamForCommand job = .control)
    (h : store.stageStrongerSyncIntentWhileInflight job = some store') :
    SameStream stream store store' := by
  unfold stageStrongerSyncIntentWhileInflight at h
  dsimp only at h
  split_ifs at h
  · cases h
    exact sameStream_mergeSyncIntoPending htyped hne
  · cases h
    exact ((SameStream.refl htyped).nextForStream hne).pushBounded hjob.symm hne.symm hroom

/-- **Deduplication touches no other stream than control.** -/
theorem sameStream_tryDedupeEnqueue (hne : stream ≠ .control)
    (hroom : store.pending.length < store.pendingCap) {b : Bool}
    (h : store.tryDedupeEnqueue job = some (b, store')) : SameStream stream store store' := by
  unfold tryDedupeEnqueue at h
  cases hs : syncIntentStrength job with
  | some strength =>
      rw [hs] at h
      dsimp only at h
      split_ifs at h
      · cases h
        exact .refl htyped
      · obtain ⟨next, hn, he⟩ := Option.map_eq_some_iff.mp h
        cases he
        exact sameStream_stageStronger htyped hne hroom (streamForCommand_of_sync hs) hn
      · cases h
        exact sameStream_mergeSyncIntoPending htyped hne
      · cases h
        exact .refl htyped
  | none =>
      rw [hs] at h
      dsimp only at h
      split_ifs at h
      · cases h
        exact .refl htyped
      · cases h
        refine ⟨fun c hc => ?_, ofStream_replaceFirst (fun _ => hne.symm) fun c hc hev => ?_,
          Function.update_of_ne hne _ _, rfl⟩
        · rcases mem_replaceFirst hc with hc | ⟨old, rfl⟩
          · exact htyped c hc
          · rfl
        · exact ((htyped c hc).control_of_continueEvict hev).trans_ne hne.symm
      · cases h
        exact .refl htyped
      · cases h
        exact .refl htyped

/-- What coalescing leaves and pushes for another stream. -/
structure CoalescedOther (stream : TrackCommandStream) (store : BoundedProtocolStore)
    (res : ImmutableTrackCommand × BoundedProtocolStore) : Prop where
  same : SameStream stream store res.2
  typed : res.1.Typed
  other : res.1.stream ≠ stream
  shorter : res.2.pending.length ≤ store.pending.length

theorem coalescedOther_unchanged (hcmd : cmd.Typed) (hne : cmd.stream ≠ stream) :
    CoalescedOther stream store (cmd, store) :=
  ⟨.refl htyped, hcmd, hne, le_refl _⟩

theorem coalescedOther_updates (hcmd : cmd.Typed) (hne : cmd.stream ≠ stream)
    {res : ImmutableTrackCommand × BoundedProtocolStore}
    (h : store.coalesceUpdates cmd = some res) : CoalescedOther stream store res := by
  unfold coalesceUpdates at h
  dsimp only at h
  split_ifs at h
  · obtain ⟨payload, hp, rfl⟩ := Option.map_eq_some_iff.mp h
    refine ⟨.filter htyped fun c hc hst => ?_, (streamForCommand_mergedPayload hp).symm, hne,
      List.length_filter_le _ _⟩
    rw [sameStreamOlder, decide_eq_false (fun hold => hne (hold.1.symm.trans hst))]
    rfl
  · cases h
    exact coalescedOther_unchanged htyped hcmd hne

theorem coalescedOther (hinc : stream ≠ .control) (hcmd : cmd.Typed) (hne : cmd.stream ≠ stream)
    {res : ImmutableTrackCommand × BoundedProtocolStore}
    (h : store.coalesceWithPending cmd = some res) : CoalescedOther stream store res := by
  unfold coalesceWithPending at h
  split_ifs at h
  · cases h
    unfold coalesceSync
    split_ifs
    · exact ⟨sameStream_withoutSync htyped hinc, (streamForCommand_command _).symm, hinc.symm,
        List.length_filter_le _ _⟩
    · exact coalescedOther_unchanged htyped hcmd hne
  · cases h
    unfold coalesceContinueEvict
    split
    · split_ifs
      · refine ⟨⟨fun c hc => htyped c (List.mem_of_mem_eraseP hc), ofStream_eraseP fun c hc hev =>
          ?_, rfl, rfl⟩, hcmd, hne, List.length_eraseP_le⟩
        exact ((htyped c hc).control_of_continueEvict hev).trans_ne hinc.symm
      · exact coalescedOther_unchanged htyped hcmd hne
    · exact coalescedOther_unchanged htyped hcmd hne
  · cases h
    unfold coalesceMint
    split
    · refine ⟨.filter htyped fun c hc hst => ?_, hcmd, hne, List.length_filter_le _ _⟩
      rw [sameMintOlder, decide_eq_false (fun hold => hne (hold.1.symm.trans hst))]
      rfl
    · exact coalescedOther_unchanged htyped hcmd hne
  · exact coalescedOther_updates htyped hcmd hne h
  · cases h
    exact coalescedOther_unchanged htyped hcmd hne

/-- **Staging a command of another stream.** -/
theorem sameStream_stageOnQueueFull (hinc : stream ≠ .control)
    (hroom : store.pending.length < store.pendingCap) (hcmd : cmd.Typed)
    (hne : cmd.stream ≠ stream) {res : StageResult × BoundedProtocolStore}
    (h : store.stageOnQueueFull cmd = some res) : SameStream stream store res.2 := by
  obtain ⟨coalesced, hc, rfl⟩ := Option.map_eq_some_iff.mp h
  have hother := coalescedOther htyped hinc hcmd hne hc
  split_ifs
  · exact hother.same
  · have hcap : coalesced.2.pendingCap = store.pendingCap := by
      rw [coalesceWithPending_keeps hc]
    have hleft : coalesced.2.pending.length < coalesced.2.pendingCap := by
      rw [hcap]
      exact lt_of_le_of_lt hother.shorter hroom
    exact hother.same.pushBounded hother.typed hother.other hleft

end Same

/-! ## 3. Operations on an incremental stream -/

/-- What staging an update leaves: the older updates of the stream are merged into it. -/
structure StagedUpdate (store : BoundedProtocolStore) (cmd merged : ImmutableTrackCommand)
    (store' : BoundedProtocolStore) : Prop where
  stream : merged.stream = cmd.stream
  revision : merged.revision = cmd.revision
  typed : merged.Typed
  after : store' = { store with
    pending := (store.pending.filter fun c => !sameStreamOlder cmd c) ++ [merged] }
  payload : (store.pending.filter (sameStreamOlder cmd) = [] ∧ merged.payload = cmd.payload) ∨
    mergedPayload cmd.stream
      ((store.pending.filter (sameStreamOlder cmd)).map (·.payload) ++ [cmd.payload]) =
        some merged.payload

theorem stagedUpdate (hinc : cmd.stream.Incremental) (hcmd : cmd.Typed)
    (hroom : store.pending.length < store.pendingCap) {res : StageResult × BoundedProtocolStore}
    (h : store.stageOnQueueFull cmd = some res) :
    ∃ merged, StagedUpdate store cmd merged res.2 := by
  obtain ⟨coalesced, hc, rfl⟩ := Option.map_eq_some_iff.mp h
  have hstream : cmd.stream = .momentum ∨ cmd.stream = .arb := hinc
  have hnotSync : ¬(syncIntentStrength cmd.payload).isSome = true :=
    fun hsome => hinc.ne_control (hcmd.control_of_sync hsome)
  have hnotEvict : ∀ payload, streamForCommand payload = cmd.stream →
      ¬isContinueEvict payload = true := fun payload hst hev =>
    hinc.ne_control (hst.symm.trans (streamForCommand_of_continueEvict hev))
  unfold coalesceWithPending at hc
  rw [if_neg hnotSync, if_neg (hnotEvict _ hcmd.symm), if_neg (by rw [hinc.not_perMint]; simp),
    if_pos hstream] at hc
  unfold coalesceUpdates at hc
  dsimp only at hc
  split_ifs at hc with holder
  · obtain ⟨payload, hp, rfl⟩ := Option.map_eq_some_iff.mp hc
    have htyped := streamForCommand_mergedPayload hp
    refine ⟨⟨cmd.stream, cmd.revision, payload⟩, rfl, rfl, htyped.symm, ?_, Or.inr hp⟩
    rw [if_neg (by rw [Bool.and_eq_true]; exact fun hev => hnotEvict payload htyped hev.1)]
    exact pushBounded_of_room (lt_of_le_of_lt (List.length_filter_le _ _) hroom)
  · cases hc
    have hnone := not_not.mp holder
    refine ⟨cmd, rfl, rfl, hcmd, ?_, Or.inl ⟨hnone, rfl⟩⟩
    rw [if_neg (by rw [Bool.and_eq_true]; exact fun hev => hnotEvict _ hcmd.symm hev.1)]
    show store.pushBounded cmd = _
    rw [pushBounded_of_room hroom, List.filter_eq_self.mpr]
    intro c hc
    rw [Bool.eq_false_of_not_eq_true (List.filter_eq_nil_iff.mp hnone c hc)]
    rfl

/-- **A command gets the next revision of its stream.** -/
theorem wrapCommand_spec (hinc : stream.Incremental)
    (hnext : streamForCommand job = stream → store.revision.next stream < u64Max)
    {res : ImmutableTrackCommand × BoundedProtocolStore} (h : store.wrapCommand job = some res) :
    res.1.payload = job ∧ res.1.Typed ∧
      store.revision.next stream ≤ res.2.revision.next stream ∧
      (res.1.stream = stream → store.revision.next stream < res.1.revision ∧
        res.1.revision ≤ res.2.revision.next stream) := by
  obtain ⟨next, hn, rfl⟩ := Option.map_eq_some_iff.mp h
  refine ⟨rfl, rfl, ?_⟩
  by_cases hst : streamForCommand job = stream
  · have hassign : some (store.revision.nextForStream stream) = some next := by
      rw [← hn, hst]
      rcases hinc with rfl | rfl <;> rfl
    cases hassign
    have hrev : saturatingSucc u64Max (store.revision.next stream) =
        store.revision.next stream + 1 := Nat.min_eq_left (hnext hst)
    have hafter : (store.revision.nextForStream stream).2.next stream =
        saturatingSucc u64Max (store.revision.next stream) := Function.update_self _ _ _
    refine ⟨?_, fun _ => ⟨?_, le_of_eq ?_⟩⟩
    · show _ ≤ (store.revision.nextForStream stream).2.next stream
      rw [hafter, hrev]
      exact Nat.le_succ _
    · show _ < saturatingSucc u64Max (store.revision.next stream)
      rw [hrev]
      exact Nat.lt_succ_self _
    · exact hafter.symm
  · refine ⟨le_of_eq ?_, fun heq => absurd heq hst⟩
    have hsame : ∀ other, other ≠ stream →
        (store.revision.nextForStream other).2.next stream = store.revision.next stream :=
      fun other hother => Function.update_of_ne hother.symm _ _
    cases hjob : streamForCommand job with
    | wallet =>
        rw [hjob] at hn
        obtain ⟨mint, _, rfl⟩ := Option.map_eq_some_iff.mp hn
        rfl
    | tracker =>
        rw [hjob] at hn
        obtain ⟨mint, _, rfl⟩ := Option.map_eq_some_iff.mp hn
        rfl
    | momentum =>
        rw [hjob] at hn hst
        cases hn
        exact (hsame _ hst).symm
    | arb =>
        rw [hjob] at hn hst
        cases hn
        exact (hsame _ hst).symm
    | control =>
        rw [hjob] at hn hst
        cases hn
        exact (hsame _ hst).symm

theorem markApplied_incremental (hinc : cmd.stream.Incremental) :
    store.markApplied cmd = some { store with
      lastApplied := Function.update store.lastApplied cmd.stream
        (max (store.lastApplied cmd.stream) cmd.revision) } := by
  unfold markApplied
  rcases hinc with h | h <;> rw [h]

theorem lastAppliedForCmd_incremental (hinc : cmd.stream.Incremental) :
    store.lastAppliedForCmd cmd = some (store.lastApplied cmd.stream) := by
  unfold lastAppliedForCmd
  rcases hinc with h | h <;> rw [h]

theorem isApplicable_incremental (hinc : cmd.stream.Incremental) :
    store.isApplicable cmd = some (decide (store.lastApplied cmd.stream < cmd.revision)) := by
  rw [isApplicable, lastAppliedForCmd_incremental hinc]
  rfl

theorem sameStream_markApplied (htyped : ∀ c ∈ store.pending, c.Typed)
    (hne : cmd.stream ≠ stream) (h : store.markApplied cmd = some store') :
    SameStream stream store store' := by
  have hkeeps := markApplied_keeps h
  refine ⟨?_, ?_, ?_, ?_⟩
  · rw [hkeeps]
    exact htyped
  · rw [hkeeps]
  · rw [hkeeps]
  · unfold markApplied at h
    split at h
    · obtain ⟨mint, _, rfl⟩ := Option.map_eq_some_iff.mp h
      rfl
    · obtain ⟨mint, _, rfl⟩ := Option.map_eq_some_iff.mp h
      rfl
    · cases h
      exact Function.update_of_ne hne.symm _ _

theorem sameStream_markAppliedWalletDemand (htyped : ∀ c ∈ store.pending, c.Typed)
    (hne : cmd.stream ≠ stream) (h : store.markAppliedWalletDemand cmd = some store') :
    SameStream stream store store' := by
  obtain ⟨marked, hm, rfl⟩ := Option.map_eq_some_iff.mp h
  have hsame := sameStream_markApplied htyped hne hm
  split
  · unfold supersedeTrackerDemandForMint
    dsimp only
    split_ifs
    · exact ⟨hsame.typed, hsame.pending, hsame.next, hsame.lastApplied⟩
    · exact hsame
  · exact hsame

/-! ## 4. A drain -/

/-- Grouping by a key permutes. -/
theorem flatMap_filter_perm {A K : Type} [DecidableEq K] (key : A → K) {keys : List K}
    (hnodup : keys.Nodup) {l : List A} (hall : ∀ a ∈ l, key a ∈ keys) :
    (keys.flatMap fun k => l.filter fun a => decide (key a = k)).Perm l := by
  induction keys generalizing l with
  | nil =>
      cases l with
      | nil => exact List.Perm.refl _
      | cons a l => exact absurd (hall a List.mem_cons_self) List.not_mem_nil
  | cons k keys ih =>
      obtain ⟨hk, hkeys⟩ := List.nodup_cons.mp hnodup
      have hothers : (keys.flatMap fun k' => l.filter fun a => decide (key a = k')) =
          keys.flatMap fun k' =>
            (l.filter fun a => !decide (key a = k)).filter fun a => decide (key a = k') := by
        refine List.flatMap_congr fun k' hk' => ?_
        rw [List.filter_filter]
        refine List.filter_congr fun a _ => ?_
        by_cases ha : key a = k'
        · have hother : key a ≠ k := fun heq => hk (heq ▸ ha ▸ hk')
          rw [decide_eq_true ha, decide_eq_false hother]
          rfl
        · rw [decide_eq_false ha, Bool.false_and]
      rw [List.flatMap_cons, hothers]
      refine List.Perm.trans (List.Perm.append_left _ (ih hkeys fun a ha => ?_))
        (List.filter_append_perm (fun a => decide (key a = k)) l)
      rw [List.mem_filter, Bool.not_eq_true', decide_eq_false_iff_not] at ha
      exact (List.mem_cons.mp (hall a ha.1)).resolve_left ha.2

/-- The order of the streams, built on what was seen before. -/
theorem streamOrder_spec (drained : List ImmutableTrackCommand) (seen : List TrackCommandStream)
    (hseen : seen.Nodup) :
    let order := drained.foldl (fun order (cmd : ImmutableTrackCommand) =>
      if cmd.stream ∈ order then order else order ++ [cmd.stream]) seen
    order.Nodup ∧ (∀ s ∈ seen, s ∈ order) ∧ ∀ cmd ∈ drained, cmd.stream ∈ order := by
  induction drained generalizing seen with
  | nil => exact ⟨hseen, fun _ hs => hs, fun _ h => absurd h List.not_mem_nil⟩
  | cons cmd drained ih =>
      intro order
      by_cases hmem : cmd.stream ∈ seen
      · have horder : order = drained.foldl (fun order (cmd : ImmutableTrackCommand) =>
            if cmd.stream ∈ order then order else order ++ [cmd.stream]) seen := by
          show List.foldl _ _ _ = _
          rw [List.foldl_cons, if_pos hmem]
        obtain ⟨hnodup, hold, hnew⟩ := ih seen hseen
        rw [horder]
        refine ⟨hnodup, hold, fun c hc => ?_⟩
        rcases List.mem_cons.mp hc with rfl | hc
        · exact hold _ hmem
        · exact hnew c hc
      · have horder : order = drained.foldl (fun order (cmd : ImmutableTrackCommand) =>
            if cmd.stream ∈ order then order else order ++ [cmd.stream])
              (seen ++ [cmd.stream]) := by
          show List.foldl _ _ _ = _
          rw [List.foldl_cons, if_neg hmem]
        obtain ⟨hnodup, hold, hnew⟩ := ih (seen ++ [cmd.stream])
          (hseen.append (List.nodup_singleton _) (List.disjoint_singleton.mpr hmem))
        rw [horder]
        refine ⟨hnodup, fun s hs => hold s (List.mem_append_left _ hs), fun c hc => ?_⟩
        rcases List.mem_cons.mp hc with rfl | hc
        · exact hold _ (List.mem_append_right _ List.mem_cons_self)
        · exact hnew c hc

/-- **A drain sorts; it neither loses nor invents a command.** -/
theorem byRevision_perm (drained : List ImmutableTrackCommand) :
    (byRevision drained).Perm drained := by
  obtain ⟨hnodup, _, hall⟩ := streamOrder_spec drained [] List.nodup_nil
  refine List.Perm.trans ?_ (flatMap_filter_perm (fun cmd : ImmutableTrackCommand => cmd.stream)
    hnodup hall)
  exact List.Perm.flatMap_left _ fun stream _ => List.perm_insertionSort _ _

end BoundedProtocolStore

end IronCrab.Track

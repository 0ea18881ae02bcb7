/-
  File:      IronCrab/Track/Worker.lean
  Subject:   THE TRACK WORKER AND ITS QUEUE (`worker.rs`).

  Any number of threads enqueue commands while one worker receives and applies them. Every step is
  one atomic action: a lock of the store, one operation of the channel, one of the queue depth. A
  thread that panics under the lock takes no step.

  `accepted`, `handedOver` and `discarded` are histories: what was enqueued with the answer `true`,
  what the worker gave to the handler, and what it dropped as superseded. Nothing reads them.
-/
import IronCrab.Track.Pending

namespace IronCrab.Track

/-! ## 1. The state -/

/-- A call of `track_worker_try_enqueue` between two of its steps. -/
inductive Enqueue where
  /-- The command has its revision. -/
  | wrapped (cmd : ImmutableTrackCommand)
  /-- The queue depth is below the capacity. -/
  | sending (cmd : ImmutableTrackCommand)
  /-- The queue is full. -/
  | staging (cmd : ImmutableTrackCommand)
  /-- The channel took the command. -/
  | sent (cmd : ImmutableTrackCommand)
  /-- The queue depth counts it. -/
  | counted (cmd : ImmutableTrackCommand)

/-- Where the worker is. -/
inductive WorkerPc where
  /-- It waits on the channel. -/
  | receiving
  | received (cmd : ImmutableTrackCommand)
  /-- After `note_inflight_dequeued`. -/
  | noted (cmd : ImmutableTrackCommand)
  /-- After the queue depth went down. -/
  | subtracted (cmd : ImmutableTrackCommand)
  /-- The channel was empty: pending is next. -/
  | emptied
  /-- A command is to be applied, then these. -/
  | applying (cmd : ImmutableTrackCommand) (rest : List ImmutableTrackCommand)
  /-- The handler has returned. -/
  | handled (cmd : ImmutableTrackCommand) (rest : List ImmutableTrackCommand)

/-- The next command of a drain, or back to the channel. -/
def WorkerPc.next : List ImmutableTrackCommand → WorkerPc
  | [] => .receiving
  | cmd :: rest => .applying cmd rest

/-- The queue, the store, the threads in `track_worker_try_enqueue`, and the worker. -/
structure TrackWorker where
  store : BoundedProtocolStore
  channel : List ImmutableTrackCommand
  queueDepth : Nat
  queueCapacity : Nat
  enqueues : List Enqueue
  worker : WorkerPc
  accepted : List TrackWorkerCommand
  handedOver : List ImmutableTrackCommand
  discarded : List ImmutableTrackCommand

namespace TrackWorker

/-- `spawn_track_worker` with this capacity of the queue and this cap of pending. -/
def spawn (queueCapacity pendingCap : Nat) : TrackWorker where
  store := .new pendingCap
  channel := []
  queueDepth := 0
  queueCapacity := queueCapacity
  enqueues := []
  worker := .receiving
  accepted := []
  handedOver := []
  discarded := []

/-! ## 2. `track_worker_try_enqueue` -/

/-- The first lock: `try_dedupe_enqueue`, then `wrap_command`. -/
def tryEnqueue (s : TrackWorker) (job : TrackWorkerCommand) : Option TrackWorker :=
  (s.store.tryDedupeEnqueue job).bind fun res =>
    if res.1 then some { s with store := res.2, accepted := s.accepted ++ [job] }
    else (res.2.wrapCommand job).map fun wrap =>
      { s with store := wrap.2, enqueues := s.enqueues ++ [.wrapped wrap.1] }

/-- The next step of a call: what is left of the call, and the state. -/
def proceed (s : TrackWorker) : Enqueue → Option (Option Enqueue × TrackWorker)
  | .wrapped cmd =>
      some (some (if s.queueDepth ≥ s.queueCapacity then .staging cmd else .sending cmd), s)
  | .sending cmd =>
      if s.channel.length < s.queueCapacity then
        some (some (.sent cmd), { s with channel := s.channel ++ [cmd] })
      else some (some (.staging cmd), s)
  | .sent cmd =>
      some (some (.counted cmd), { s with queueDepth := (s.queueDepth + 1) % (usizeMax + 1) })
  | .counted cmd =>
      some (none, { s with
        store := (s.store.noteInflightEnqueued cmd).beginInflight
        accepted := s.accepted ++ [cmd.payload] })
  | .staging cmd =>
      (s.store.stageOnQueueFull cmd).map fun res =>
        (none, { s with store := res.2, accepted := s.accepted ++ [cmd.payload] })

/-! ## 3. The worker -/

/-- `track_protocol_should_advance_revision`, and the rule for batches. -/
def shouldAdvance (cmd : ImmutableTrackCommand) (succeeded : Bool) : Bool :=
  match cmd.payload, cmd.stream with
  | .trackMints _, _ => succeeded
  | _, .wallet | _, .tracker => succeeded
  | _, _ => true

/-- What is staged again when its handler fails. -/
def restageOnFailure (cmd : ImmutableTrackCommand) : Bool :=
  match cmd.payload, cmd.stream with
  | .trackMints _, _ | _, .wallet | _, .tracker => true
  | _, _ => false

/-- The store after the handler returned. -/
def settle (store : BoundedProtocolStore) (cmd : ImmutableTrackCommand) (succeeded : Bool) :
    Option BoundedProtocolStore :=
  if shouldAdvance cmd succeeded then
    if cmd.stream = .wallet then store.markAppliedWalletDemand cmd else store.markApplied cmd
  else if restageOnFailure cmd then (store.stageOnQueueFull cmd).map (·.2)
  else some store

/-- What a drain drops. -/
def superseded (store : BoundedProtocolStore) : List ImmutableTrackCommand :=
  (BoundedProtocolStore.byRevision store.pending).filter fun cmd =>
    (store.isApplicable cmd) = some false

/-- The worker's next step; the handler, if it is called, succeeds or not. -/
def work (s : TrackWorker) (succeeded : Bool) : Option TrackWorker :=
  match s.worker with
  | .receiving =>
      match s.channel with
      | [] => some { s with worker := .emptied }
      | cmd :: channel => some { s with channel := channel, worker := .received cmd }
  | .received cmd =>
      some { s with store := s.store.noteInflightDequeued cmd, worker := .noted cmd }
  | .noted cmd => some { s with queueDepth := s.queueDepth - 1, worker := .subtracted cmd }
  | .subtracted cmd => some { s with store := s.store.endInflight, worker := .applying cmd [] }
  | .emptied =>
      s.store.takeApplicablePendingSorted.map fun res =>
        { s with
          store := res.2
          worker := .next res.1
          discarded := s.discarded ++ superseded s.store }
  | .applying cmd rest =>
      (s.store.isApplicable cmd).map fun applicable =>
        if applicable then
          { s with worker := .handled cmd rest, handedOver := s.handedOver ++ [cmd] }
        else { s with worker := .next rest, discarded := s.discarded ++ [cmd] }
  | .handled cmd rest =>
      (settle s.store cmd succeeded).map fun store =>
        { s with store := store, worker := .next rest }

/-! ## 4. Runs -/

/-- Who takes the next step. -/
inductive Turn where
  /-- A thread calls `track_worker_try_enqueue`. -/
  | enqueue (job : TrackWorkerCommand)
  /-- The call with this index goes on. -/
  | proceed (i : Nat)
  | work (succeeded : Bool)

/-- One step. -/
def turn (s : TrackWorker) : Turn → Option TrackWorker
  | .enqueue job => s.tryEnqueue job
  | .proceed i =>
      s.enqueues[i]?.bind fun call =>
        (s.proceed call).map fun res =>
          { res.2 with enqueues := s.enqueues.take i ++ res.1.toList ++ s.enqueues.drop (i + 1) }
  | .work succeeded => s.work succeeded

/-- The steps as a relation. -/
def Step (s : TrackWorker) (t : Turn) (s' : TrackWorker) : Prop := s.turn t = some s'

/-- These turns in order. -/
def follow (s : TrackWorker) : List Turn → Option TrackWorker
  | [] => some s
  | t :: turns => (s.turn t).bind fun s => s.follow turns

theorem run_of_follow {s s' : TrackWorker} {turns : List Turn} (h : s.follow turns = some s') :
    Machine.Run Step s turns s' := by
  induction turns generalizing s with
  | nil =>
      cases h
      exact .start
  | cons t turns ih =>
      obtain ⟨middle, ht, hrest⟩ := Option.bind_eq_some_iff.mp h
      exact .cons ht (ih hrest)

end TrackWorker

end IronCrab.Track

/-
  File:      IronCrab/Track/WorkerCounters.lean
  Subject:   THE COUNTERS OF COMMANDS IN FLIGHT (`worker.rs`, `pending.rs`).

  A command is counted after it was sent, and the worker may take it off the counters before: the
  counters then saturate at zero and stay one too high for good.

  * `represented_of_dedupe` -- with exact counters, deduplicated demand is in the channel or in
    pending;
  * **`counters_exact_of_unsaturated`** -- the counters are exact whenever no thread is in between,
    in every run in which no counter saturates; `dedupe_swallows_demand` is a run in which one does.
-/
import IronCrab.Track.Worker

namespace IronCrab.Track

open BoundedProtocolStore

/-! ## 1. What deduplication keeps -/

theorem syncIntentStrength_command (strength : SyncIntentStrength) :
    syncIntentStrength strength.command = some strength := by
  cases strength <;> rfl

/-- One step of the merge. -/
def mergeStrength (strength : SyncIntentStrength) (cmd : TrackWorkerCommand) :
    SyncIntentStrength :=
  match syncIntentStrength cmd with
  | some s => max strength s
  | none => strength

theorem le_mergeStrength (strength : SyncIntentStrength) (cmd : TrackWorkerCommand) :
    strength ≤ mergeStrength strength cmd := by
  unfold mergeStrength
  split
  · exact le_max_left _ _
  · exact le_refl _

theorem le_mergeStrength_of_sync {cmd : TrackWorkerCommand} {s : SyncIntentStrength}
    (hs : syncIntentStrength cmd = some s) (strength : SyncIntentStrength) :
    s ≤ mergeStrength strength cmd := by
  unfold mergeStrength
  rw [hs]
  exact le_max_right _ _

/-- The merged strength is at least every merged one. -/
theorem le_foldl_mergeStrength (cmds : List TrackWorkerCommand) (start : SyncIntentStrength) :
    start ≤ cmds.foldl mergeStrength start ∧
      ∀ job ∈ cmds, ∀ strength, syncIntentStrength job = some strength →
        strength ≤ cmds.foldl mergeStrength start := by
  induction cmds generalizing start with
  | nil => exact ⟨le_refl start, fun job hj => absurd hj List.not_mem_nil⟩
  | cons cmd cmds ih =>
      obtain ⟨hstart, hall⟩ := ih (mergeStrength start cmd)
      rw [List.foldl_cons]
      refine ⟨le_trans (le_mergeStrength start cmd) hstart, fun job hj strength hs => ?_⟩
      rcases List.mem_cons.mp hj with rfl | hj
      · exact le_trans (le_mergeStrength_of_sync hs start) hstart
      · exact hall job hj strength hs

theorem le_mergeSyncIntentPayloads {cmds : List TrackWorkerCommand} {job : TrackWorkerCommand}
    (hj : job ∈ cmds) {strength : SyncIntentStrength}
    (hs : syncIntentStrength job = some strength) :
    ∃ merged, syncIntentStrength (mergeSyncIntentPayloads cmds) = some merged ∧
      strength ≤ merged :=
  ⟨cmds.foldl mergeStrength .debounced, syncIntentStrength_command _,
    (le_foldl_mergeStrength cmds .debounced).2 job hj strength hs⟩

/-- A command that asks for at least as much is among these. -/
def Represented (job : TrackWorkerCommand) (cmds : List ImmutableTrackCommand) : Prop :=
  (∃ strength, syncIntentStrength job = some strength ∧ ∃ c ∈ cmds, ∃ held,
    syncIntentStrength c.payload = some held ∧ strength ≤ held) ∨
  (isContinueEvict job = true ∧ ∃ c ∈ cmds, isContinueEvict c.payload = true)

/-- The counters that deduplication reads. -/
inductive InflightCounter where
  | syncIntent
  | strength (strength : SyncIntentStrength)
  | continueEvict

namespace InflightCounter

def value (store : BoundedProtocolStore) : InflightCounter → Nat
  | syncIntent => store.inflightSyncIntent
  | strength s => store.inflightSyncStrengthCounts s
  | continueEvict => store.inflightContinueEvict

/-- What the counter counts. -/
def counts : InflightCounter → ImmutableTrackCommand → Bool
  | syncIntent, cmd => (syncIntentStrength cmd.payload).isSome
  | strength s, cmd => decide (syncIntentStrength cmd.payload = some s)
  | continueEvict, cmd => isContinueEvict cmd.payload

end InflightCounter

/-- The counters count these commands. -/
def InflightExact (store : BoundedProtocolStore) (channel : List ImmutableTrackCommand) : Prop :=
  ∀ k : InflightCounter, k.value store = channel.countP k.counts

theorem mem_pushBounded (store : BoundedProtocolStore) (cmd : ImmutableTrackCommand) :
    cmd ∈ (store.pushBounded cmd).pending := by
  unfold pushBounded
  split_ifs
  · exact List.mem_append_right _ List.mem_cons_self
  · exact List.mem_append_right _ List.mem_cons_self

section Dedupe

variable {store store' : BoundedProtocolStore} {job : TrackWorkerCommand}
  {strength : SyncIntentStrength} {channel : List ImmutableTrackCommand}

/-- The last of the merged commands is the intent itself. -/
theorem exists_merged (hs : syncIntentStrength job = some strength)
    (held : List TrackWorkerCommand) (revision : Nat) (pending : List ImmutableTrackCommand) :
    ∃ c ∈ pending ++ [(⟨.control, revision, mergeSyncIntentPayloads (held ++ [job])⟩ :
        ImmutableTrackCommand)],
      ∃ kept, syncIntentStrength c.payload = some kept ∧ strength ≤ kept := by
  obtain ⟨kept, hk, hle⟩ := le_mergeSyncIntentPayloads
    (List.mem_append_right held (List.mem_cons_self (a := job))) hs
  exact ⟨_, List.mem_append_right _ List.mem_cons_self, kept, hk, hle⟩

theorem represented_of_stageStronger (hs : syncIntentStrength job = some strength)
    (h : store.stageStrongerSyncIntentWhileInflight job = some store') :
    ∃ c ∈ store'.pending, ∃ kept, syncIntentStrength c.payload = some kept ∧ strength ≤ kept := by
  unfold stageStrongerSyncIntentWhileInflight at h
  dsimp only at h
  split_ifs at h
  · cases h
    exact exists_merged hs _ _ _
  · cases h
    exact ⟨_, mem_pushBounded _ _, strength, hs, le_refl strength⟩
  · obtain ⟨coalesced, hc, rfl⟩ := Option.map_eq_some_iff.mp h
    refine ⟨_, mem_pushBounded _ _, ?_⟩
    unfold coalesceWithPending at hc
    rw [if_pos (by rw [hs]; rfl)] at hc
    cases hc
    unfold coalesceSync
    split_ifs
    · exact le_mergeSyncIntentPayloads (List.mem_append_right _ List.mem_cons_self) hs
    · exact ⟨strength, hs, le_refl strength⟩

/-- A counter that is not zero counts a command of the channel. -/
theorem exists_counted (hexact : InflightExact store channel) {k : InflightCounter}
    (hpos : 0 < k.value store) : ∃ c ∈ channel, k.counts c = true := by
  rw [hexact k] at hpos
  exact List.countP_pos_iff.mp hpos

theorem counted_pos (hexact : InflightExact store channel) {k : InflightCounter}
    {c : ImmutableTrackCommand} (hc : c ∈ channel) (hk : k.counts c = true) :
    0 < k.value store := by
  rw [hexact k]
  exact List.countP_pos_iff.mpr ⟨c, hc, hk⟩

/-- The strongest counted intent is in the channel. -/
theorem exists_of_strengthMax (hexact : InflightExact store channel)
    {held : SyncIntentStrength} (hmax : store.inflightSyncStrengthMax = some held) :
    ∃ c ∈ channel, syncIntentStrength c.payload = some held := by
  have hpos : 0 < InflightCounter.value store (.strength held) := by
    have hfound := List.find?_some
      (p := fun strength => decide (0 < store.inflightSyncStrengthCounts strength)) hmax
    exact of_decide_eq_true hfound
  obtain ⟨c, hc, hs⟩ := exists_counted hexact hpos
  exact ⟨c, hc, of_decide_eq_true hs⟩

/-- With exact counters a counted intent has a strongest one. -/
theorem strengthMax_isSome (hexact : InflightExact store channel)
    (hpos : 0 < store.inflightSyncIntent) : ∃ held, store.inflightSyncStrengthMax = some held := by
  obtain ⟨c, hc, hs⟩ := exists_counted (k := .syncIntent) hexact hpos
  obtain ⟨strength, hst⟩ := Option.isSome_iff_exists.mp hs
  have hcount : 0 < InflightCounter.value store (.strength strength) :=
    counted_pos hexact hc (decide_eq_true hst)
  refine Option.isSome_iff_exists.mp ?_
  unfold inflightSyncStrengthMax
  rw [List.find?_isSome]
  refine ⟨strength, ?_, decide_eq_true hcount⟩
  cases strength <;> simp

theorem exists_mem_replaceFirst {A : Type} {p : A → Bool} {f : A → A} (hf : ∀ a, p (f a) = true)
    {l : List A} (hany : l.any p = true) : ∃ a ∈ replaceFirst p f l, p a = true := by
  induction l with
  | nil => exact absurd hany (by simp)
  | cons a l ih =>
      unfold replaceFirst
      by_cases ha : p a = true
      · rw [if_pos ha]
        exact ⟨f a, List.mem_cons_self, hf a⟩
      · rw [if_neg ha]
        rw [List.any_cons, Bool.or_eq_true] at hany
        obtain ⟨b, hb, hp⟩ := ih (hany.resolve_left ha)
        exact ⟨b, List.mem_cons_of_mem _ hb, hp⟩

/-- **With exact counters, demand that was deduplicated is in the channel or in pending.** -/
theorem represented_of_dedupe (hexact : InflightExact store channel)
    (h : store.tryDedupeEnqueue job = some (true, store')) :
    Represented job (channel ++ store'.pending) := by
  unfold tryDedupeEnqueue at h
  cases hs : syncIntentStrength job with
  | some strength =>
      rw [hs] at h
      dsimp only at h
      refine Or.inl ⟨strength, hs, ?_⟩
      split_ifs at h with hflight hle hpending
      · cases h
        obtain ⟨held, hmax⟩ := strengthMax_isSome hexact hflight
        obtain ⟨c, hc, hst⟩ := exists_of_strengthMax hexact hmax
        rw [hmax] at hle
        exact ⟨c, List.mem_append_left _ hc, held, hst, hle⟩
      · obtain ⟨next, hn, he⟩ := Option.map_eq_some_iff.mp h
        cases he
        obtain ⟨c, hc, hkept⟩ := represented_of_stageStronger hs hn
        exact ⟨c, List.mem_append_right _ hc, hkept⟩
      · cases h
        obtain ⟨c, hc, hkept⟩ := exists_merged hs _ _ _
        exact ⟨c, List.mem_append_right _ hc, hkept⟩
      · cases h
  | none =>
      rw [hs] at h
      dsimp only at h
      split_ifs at h with hcont hflight hpending
      · cases h
        obtain ⟨c, hc, hev⟩ := exists_counted (k := .continueEvict) hexact hflight
        exact Or.inr ⟨hcont, c, List.mem_append_left _ hc, hev⟩
      · cases h
        obtain ⟨c, hc, hev⟩ := exists_mem_replaceFirst
          (f := fun c : ImmutableTrackCommand =>
            ⟨.control, max (store.revision.nextForStream .control).1 c.revision,
              .continueGeyserEvict⟩) (fun _ => rfl) hpending
        exact Or.inr ⟨hcont, c, List.mem_append_right _ hc, hev⟩
      · cases h
      · cases h

end Dedupe

/-! ## 2. Counting commands on their way -/

section Counting

variable {store : BoundedProtocolStore} {cmd : ImmutableTrackCommand}

theorem value_countCommand (k : InflightCounter) (f : Nat → Nat) :
    k.value (countCommand f store cmd) =
      if k.counts cmd then f (k.value store) else k.value store := by
  cases k with
  | syncIntent => rfl
  | continueEvict => rfl
  | strength t =>
      show (countCommand f store cmd).inflightSyncStrengthCounts t =
        if decide (syncIntentStrength cmd.payload = some t) = true then
          f (store.inflightSyncStrengthCounts t) else store.inflightSyncStrengthCounts t
      unfold countCommand
      dsimp only
      cases hs : syncIntentStrength cmd.payload with
      | none => rw [if_neg (by simp)]
      | some s =>
          by_cases hst : s = t
          · rw [hst, if_pos (by simp)]
            exact Function.update_self _ _ _
          · rw [if_neg (by simpa using hst)]
            exact Function.update_of_ne (Ne.symm hst) _ _

/-- The counters do not read pending, the revisions or what was applied. -/
theorem value_congr {store store' : BoundedProtocolStore} (k : InflightCounter)
    (hsync : store'.inflightSyncIntent = store.inflightSyncIntent)
    (hstrengths : store'.inflightSyncStrengthCounts = store.inflightSyncStrengthCounts)
    (hevict : store'.inflightContinueEvict = store.inflightContinueEvict) :
    k.value store' = k.value store := by
  cases k with
  | syncIntent => exact hsync
  | strength s => exact congrFun hstrengths s
  | continueEvict => exact hevict

theorem value_beginInflight (k : InflightCounter) (store : BoundedProtocolStore) :
    k.value store.beginInflight = k.value store :=
  value_congr k rfl rfl rfl

/-- Two stores with the same counters. -/
structure SameCounters (store store' : BoundedProtocolStore) : Prop where
  inflight : store'.inflight = store.inflight
  value : ∀ k : InflightCounter, k.value store' = k.value store

theorem sameCounters_tryDedupeEnqueue {store store' : BoundedProtocolStore}
    {job : TrackWorkerCommand} {b : Bool} (h : store.tryDedupeEnqueue job = some (b, store')) :
    SameCounters store store' := by
  rw [tryDedupeEnqueue_keeps h]
  exact ⟨rfl, fun k => value_congr k rfl rfl rfl⟩

theorem sameCounters_wrapCommand {store : BoundedProtocolStore} {job : TrackWorkerCommand}
    {res : ImmutableTrackCommand × BoundedProtocolStore} (h : store.wrapCommand job = some res) :
    SameCounters store res.2 := by
  rw [wrapCommand_keeps h]
  exact ⟨rfl, fun k => value_congr k rfl rfl rfl⟩

theorem sameCounters_stageOnQueueFull {store : BoundedProtocolStore}
    {cmd : ImmutableTrackCommand} {res : StageResult × BoundedProtocolStore}
    (h : store.stageOnQueueFull cmd = some res) : SameCounters store res.2 := by
  rw [stageOnQueueFull_keeps h]
  exact ⟨rfl, fun k => value_congr k rfl rfl rfl⟩

theorem sameCounters_takeApplicable {store : BoundedProtocolStore}
    {res : List ImmutableTrackCommand × BoundedProtocolStore}
    (h : store.takeApplicablePendingSorted = some res) : SameCounters store res.2 := by
  rw [takeApplicable_keeps h]
  exact ⟨rfl, fun k => value_congr k rfl rfl rfl⟩

theorem sameCounters_settle {store store' : BoundedProtocolStore} {cmd : ImmutableTrackCommand}
    {succeeded : Bool} (h : TrackWorker.settle store cmd succeeded = some store') :
    SameCounters store store' := by
  unfold TrackWorker.settle at h
  split_ifs at h
  · rw [markAppliedWalletDemand_keeps h]
    exact ⟨rfl, fun k => value_congr k rfl rfl rfl⟩
  · rw [markApplied_keeps h]
    exact ⟨rfl, fun k => value_congr k rfl rfl rfl⟩
  · obtain ⟨res, hres, rfl⟩ := Option.map_eq_some_iff.mp h
    exact sameCounters_stageOnQueueFull hres
  · cases h
    exact ⟨rfl, fun k => rfl⟩

end Counting

/-! ## 3. The invariant -/

/-- The call has sent a command and not added it to the queue depth. -/
def Enqueue.owesDepth : Enqueue → Bool
  | .sent _ => true
  | _ => false

/-- The call has sent such a command and not counted it in flight. -/
def Enqueue.owes (p : ImmutableTrackCommand → Bool) : Enqueue → Bool
  | .sent cmd | .counted cmd => p cmd
  | _ => false

namespace WorkerPc

/-- A received command that the queue depth still counts. -/
def onDepth : WorkerPc → Nat
  | .received _ | .noted _ => 1
  | _ => 0

/-- A received command that `inflight` still counts. -/
def onInflight : WorkerPc → Nat
  | .received _ | .noted _ | .subtracted _ => 1
  | _ => 0

/-- A received command that a counter still counts. -/
def onCounter (p : ImmutableTrackCommand → Bool) : WorkerPc → Nat
  | .received cmd => [cmd].countP p
  | _ => 0

theorem onDepth_next (rest : List ImmutableTrackCommand) : (next rest).onDepth = 0 := by
  cases rest <;> rfl

theorem onInflight_next (rest : List ImmutableTrackCommand) : (next rest).onInflight = 0 := by
  cases rest <;> rfl

theorem onCounter_next (p : ImmutableTrackCommand → Bool) (rest : List ImmutableTrackCommand) :
    (next rest).onCounter p = 0 := by
  cases rest <;> rfl

end WorkerPc

namespace TrackWorker

/-- **Every counter counts the channel**, less what the calls still owe and with what the worker
    has not taken off yet. -/
structure Tallied (s : TrackWorker) : Prop where
  depth : s.queueDepth + s.enqueues.countP Enqueue.owesDepth =
    s.channel.length + s.worker.onDepth
  inflight : s.store.inflight + s.enqueues.countP (Enqueue.owes fun _ => true) =
    s.channel.length + s.worker.onInflight
  counted : ∀ k : InflightCounter,
    k.value s.store + s.enqueues.countP (Enqueue.owes k.counts) =
      s.channel.countP k.counts + s.worker.onCounter k.counts

/-- Each counter of a command has this property. -/
def EachCounter (store : BoundedProtocolStore) (cmd : ImmutableTrackCommand) (p : Nat → Prop) :
    Prop := ∀ k : InflightCounter, k.counts cmd = true → p (k.value store)

/-- **No counter saturates in this step**: what is raised is below its maximum, what is lowered is
    not zero. -/
def Unsaturated (s : TrackWorker) : Turn → Prop
  | .enqueue _ => True
  | .proceed i =>
      match s.enqueues[i]? with
      | some (.sent _) => s.queueDepth < usizeMax
      | some (.counted cmd) =>
          s.store.inflight < usizeMax ∧ EachCounter s.store cmd fun n => n < u32Max
      | _ => True
  | .work _ =>
      match s.worker with
      | .received cmd => EachCounter s.store cmd fun n => 0 < n
      | .noted _ => 0 < s.queueDepth
      | .subtracted _ => 0 < s.store.inflight
      | _ => True

theorem saturatingSucc_of_lt {max n : Nat} (h : n < max) : saturatingSucc max n = n + 1 :=
  Nat.min_eq_left h

theorem eq_take_append {A : Type} {l : List A} {i : Nat} {a : A} (h : l[i]? = some a) :
    l = l.take i ++ a :: l.drop (i + 1) := by
  obtain ⟨hi, rfl⟩ := List.getElem?_eq_some_iff.mp h
  rw [← List.drop_eq_getElem_cons hi, List.take_append_drop]

/-- Counting a list in which one element is replaced by at most one. -/
theorem countP_replace {A : Type} (q : A → Bool) {l : List A} {i : Nat} {a : A}
    (h : l[i]? = some a) (o : Option A) :
    (l.take i ++ o.toList ++ l.drop (i + 1)).countP q + [a].countP q =
      l.countP q + o.toList.countP q := by
  have hsplit := congrArg (List.countP q) (eq_take_append h)
  rw [List.countP_append, ← List.singleton_append, List.countP_append] at hsplit
  rw [List.countP_append, List.countP_append]
  omega

theorem countP_replace_same {A : Type} {q : A → Bool} {l : List A} {i : Nat} {a : A}
    (h : l[i]? = some a) {o : Option A} (hq : o.toList.countP q = [a].countP q) :
    (l.take i ++ o.toList ++ l.drop (i + 1)).countP q = l.countP q := by
  have hcount := countP_replace q h o
  omega

section Steps

variable {s s' : TrackWorker} (h : Tallied s)
include h

/-- A step that changes no counter, sends nothing and receives nothing. -/
theorem Tallied.of_same (hstore : SameCounters s.store s'.store)
    (hdepth : s'.queueDepth = s.queueDepth) (hchannel : s'.channel = s.channel)
    (howesDepth : s'.enqueues.countP Enqueue.owesDepth = s.enqueues.countP Enqueue.owesDepth)
    (howes : ∀ p, s'.enqueues.countP (Enqueue.owes p) = s.enqueues.countP (Enqueue.owes p))
    (honDepth : s'.worker.onDepth = s.worker.onDepth)
    (honInflight : s'.worker.onInflight = s.worker.onInflight)
    (honCounter : ∀ p, s'.worker.onCounter p = s.worker.onCounter p) : Tallied s' where
  depth := by
    rw [hdepth, howesDepth, hchannel, honDepth]
    exact h.depth
  inflight := by
    rw [hstore.inflight, howes, hchannel, honInflight]
    exact h.inflight
  counted := by
    intro k
    rw [hstore.value, howes, hchannel, honCounter]
    exact h.counted k

theorem tallied_tryEnqueue {job : TrackWorkerCommand} (hs : s.tryEnqueue job = some s') :
    Tallied s' := by
  unfold tryEnqueue at hs
  obtain ⟨⟨b, store⟩, hdedupe, hs⟩ := Option.bind_eq_some_iff.mp hs
  have hsame := sameCounters_tryDedupeEnqueue hdedupe
  dsimp only at hs
  split_ifs at hs with hb
  · cases hs
    exact h.of_same hsame rfl rfl rfl (fun _ => rfl) rfl rfl fun _ => rfl
  · obtain ⟨wrap, hwrap, rfl⟩ := Option.map_eq_some_iff.mp hs
    have hwrapped := sameCounters_wrapCommand hwrap
    have hboth : SameCounters s.store wrap.2 :=
      ⟨hwrapped.inflight.trans hsame.inflight, fun k => (hwrapped.value k).trans (hsame.value k)⟩
    exact h.of_same hboth rfl rfl List.countP_append (fun _ => List.countP_append) rfl rfl
      fun _ => rfl

/-- The channel took the command: the call owes every counter. -/
theorem tallied_sending {i : Nat} {cmd : ImmutableTrackCommand}
    (hcall : s.enqueues[i]? = some (.sending cmd)) :
    Tallied { s with
      channel := s.channel ++ [cmd]
      enqueues := s.enqueues.take i ++ (some (Enqueue.sent cmd)).toList ++
        s.enqueues.drop (i + 1) } where
  depth := by
    have hreplace := countP_replace Enqueue.owesDepth hcall (some (.sent cmd))
    have hbefore : [Enqueue.sending cmd].countP Enqueue.owesDepth = 0 := rfl
    have hafter : (some (Enqueue.sent cmd)).toList.countP Enqueue.owesDepth = 1 := rfl
    have hdepth := h.depth
    rw [List.length_append, List.length_singleton]
    dsimp only at hreplace ⊢
    omega
  inflight := by
    have hreplace := countP_replace (Enqueue.owes fun _ => true) hcall (some (.sent cmd))
    have hbefore : [Enqueue.sending cmd].countP (Enqueue.owes fun _ => true) = 0 := rfl
    have hafter : (some (Enqueue.sent cmd)).toList.countP (Enqueue.owes fun _ => true) = 1 := rfl
    have hinflight := h.inflight
    rw [List.length_append, List.length_singleton]
    dsimp only at hreplace ⊢
    omega
  counted := by
    intro k
    have hreplace := countP_replace (Enqueue.owes k.counts) hcall (some (.sent cmd))
    have hbefore : [Enqueue.sending cmd].countP (Enqueue.owes k.counts) = 0 := rfl
    have hafter : (some (Enqueue.sent cmd)).toList.countP (Enqueue.owes k.counts) =
        [cmd].countP k.counts := rfl
    have hcounted := h.counted k
    have hchannel : (s.channel ++ [cmd]).countP k.counts =
        s.channel.countP k.counts + [cmd].countP k.counts := List.countP_append
    dsimp only at hreplace ⊢
    omega

/-- The queue depth counts the command. -/
theorem tallied_sent {i : Nat} {cmd : ImmutableTrackCommand}
    (hcall : s.enqueues[i]? = some (.sent cmd)) (hun : s.queueDepth < usizeMax) :
    Tallied { s with
      queueDepth := (s.queueDepth + 1) % (usizeMax + 1)
      enqueues := s.enqueues.take i ++ (some (Enqueue.counted cmd)).toList ++
        s.enqueues.drop (i + 1) } where
  depth := by
    have hreplace := countP_replace Enqueue.owesDepth hcall (some (.counted cmd))
    have hbefore : [Enqueue.sent cmd].countP Enqueue.owesDepth = 1 := rfl
    have hafter : (some (Enqueue.counted cmd)).toList.countP Enqueue.owesDepth = 0 := rfl
    have hdepth := h.depth
    rw [Nat.mod_eq_of_lt (Nat.succ_lt_succ hun)]
    dsimp only at hreplace ⊢
    omega
  inflight := by
    show s.store.inflight + _ = _
    rw [countP_replace_same hcall rfl]
    exact h.inflight
  counted := by
    intro k
    show k.value s.store + _ = _
    rw [countP_replace_same hcall rfl]
    exact h.counted k

/-- The store counts the command. -/
theorem tallied_counted {i : Nat} {cmd : ImmutableTrackCommand}
    (hcall : s.enqueues[i]? = some (.counted cmd)) (hinflight : s.store.inflight < usizeMax)
    (heach : EachCounter s.store cmd fun n => n < u32Max) (accepted : List TrackWorkerCommand) :
    Tallied { s with
      store := (s.store.noteInflightEnqueued cmd).beginInflight
      accepted := accepted
      enqueues := s.enqueues.take i ++ (none : Option Enqueue).toList ++
        s.enqueues.drop (i + 1) } where
  depth := by
    show s.queueDepth + _ = _
    rw [countP_replace_same hcall rfl]
    exact h.depth
  inflight := by
    have hreplace := countP_replace (Enqueue.owes fun _ => true) hcall none
    have hbefore : [Enqueue.counted cmd].countP (Enqueue.owes fun _ => true) = 1 := rfl
    have hafter : (none : Option Enqueue).toList.countP (Enqueue.owes fun _ => true) = 0 := rfl
    have hraised : ((s.store.noteInflightEnqueued cmd).beginInflight).inflight =
        s.store.inflight + 1 := saturatingSucc_of_lt hinflight
    have hbalance := h.inflight
    rw [hraised]
    dsimp only at hreplace ⊢
    omega
  counted := by
    intro k
    have hreplace := countP_replace (Enqueue.owes k.counts) hcall none
    have hbefore : [Enqueue.counted cmd].countP (Enqueue.owes k.counts) =
        [cmd].countP k.counts := rfl
    have hafter : (none : Option Enqueue).toList.countP (Enqueue.owes k.counts) = 0 := rfl
    have hraised : k.value ((s.store.noteInflightEnqueued cmd).beginInflight) =
        k.value s.store + [cmd].countP k.counts := by
      rw [value_beginInflight, noteInflightEnqueued, value_countCommand, List.countP_singleton]
      split_ifs with hk
      · exact saturatingSucc_of_lt (heach k hk)
      · rfl
    have hbalance := h.counted k
    rw [hraised]
    dsimp only at hreplace ⊢
    omega

theorem tallied_proceed {i : Nat} {call : Enqueue} (hcall : s.enqueues[i]? = some call)
    (hun : Unsaturated s (.proceed i)) {o : Option Enqueue} {next : TrackWorker}
    (hs : s.proceed call = some (o, next)) :
    Tallied { next with
      enqueues := s.enqueues.take i ++ o.toList ++ s.enqueues.drop (i + 1) } := by
  unfold Unsaturated at hun
  dsimp only at hun
  rw [hcall] at hun
  cases call with
  | wrapped cmd =>
      cases hs
      refine h.of_same ⟨rfl, fun _ => rfl⟩ rfl rfl (countP_replace_same hcall ?_)
        (fun p => countP_replace_same hcall ?_) rfl rfl fun _ => rfl
      · split_ifs <;> rfl
      · split_ifs <;> rfl
  | sending cmd =>
      unfold proceed at hs
      dsimp only at hs
      split_ifs at hs
      · cases hs
        exact tallied_sending h hcall
      · cases hs
        exact h.of_same ⟨rfl, fun _ => rfl⟩ rfl rfl (countP_replace_same hcall rfl)
          (fun _ => countP_replace_same hcall rfl) rfl rfl fun _ => rfl
  | sent cmd =>
      cases hs
      exact tallied_sent h hcall hun
  | counted cmd =>
      cases hs
      exact tallied_counted h hcall hun.1 hun.2 _
  | staging cmd =>
      obtain ⟨res, hres, he⟩ := Option.map_eq_some_iff.mp hs
      cases he
      exact h.of_same (sameCounters_stageOnQueueFull hres) rfl rfl
        (countP_replace_same hcall rfl) (fun _ => countP_replace_same hcall rfl) rfl rfl
        fun _ => rfl

theorem tallied_work {succeeded : Bool} (hun : Unsaturated s (.work succeeded))
    (hs : s.work succeeded = some s') : Tallied s' := by
  unfold work at hs
  unfold Unsaturated at hun
  dsimp only at hun
  obtain ⟨hdepth, hinflight, hcounted⟩ := h
  cases hw : s.worker with
  | receiving =>
      rw [hw] at hs hdepth hinflight hcounted
      dsimp only at hs
      cases hch : s.channel with
      | nil =>
          rw [hch] at hs hdepth hinflight hcounted
          cases hs
          exact ⟨hdepth, hinflight, hcounted⟩
      | cons cmd channel =>
          rw [hch] at hs hdepth hinflight hcounted
          cases hs
          refine ⟨hdepth, hinflight, fun k => ?_⟩
          have hbalance := hcounted k
          rw [← List.singleton_append, List.countP_append] at hbalance
          show _ = channel.countP k.counts + [cmd].countP k.counts
          rw [hbalance]
          exact Nat.add_comm ([cmd].countP k.counts) _
  | received cmd =>
      rw [hw] at hs hun hdepth hinflight hcounted
      cases hs
      refine ⟨hdepth, hinflight, fun k => ?_⟩
      have hbalance : k.value s.store + _ = _ + [cmd].countP k.counts := hcounted k
      have hlowered : k.value (s.store.noteInflightDequeued cmd) + [cmd].countP k.counts =
          k.value s.store := by
        rw [noteInflightDequeued, value_countCommand, List.countP_singleton]
        split_ifs with hk
        · exact Nat.sub_add_cancel (hun k hk)
        · rfl
      show _ = _ + 0
      dsimp only at hbalance ⊢
      omega
  | noted cmd =>
      rw [hw] at hs hun hdepth hinflight hcounted
      cases hs
      refine ⟨?_, hinflight, hcounted⟩
      have hbalance : s.queueDepth + _ = _ + 1 := hdepth
      have hpos : 0 < s.queueDepth := hun
      show s.queueDepth - 1 + s.enqueues.countP Enqueue.owesDepth = s.channel.length + 0
      omega
  | subtracted cmd =>
      rw [hw] at hs hun hdepth hinflight hcounted
      cases hs
      refine ⟨hdepth, ?_, hcounted⟩
      have hbalance : s.store.inflight + _ = _ + 1 := hinflight
      have hpos : 0 < s.store.inflight := hun
      show s.store.inflight - 1 + s.enqueues.countP (Enqueue.owes fun _ => true) =
        s.channel.length + 0
      omega
  | emptied =>
      rw [hw] at hs hdepth hinflight hcounted
      obtain ⟨res, hres, rfl⟩ := Option.map_eq_some_iff.mp hs
      have hsame := sameCounters_takeApplicable hres
      refine ⟨?_, ?_, fun k => ?_⟩
      · rw [WorkerPc.onDepth_next]
        exact hdepth
      · rw [WorkerPc.onInflight_next, hsame.inflight]
        exact hinflight
      · rw [WorkerPc.onCounter_next, hsame.value]
        exact hcounted k
  | applying cmd rest =>
      rw [hw] at hs hdepth hinflight hcounted
      obtain ⟨applicable, _, rfl⟩ := Option.map_eq_some_iff.mp hs
      split_ifs
      · exact ⟨hdepth, hinflight, hcounted⟩
      · refine ⟨?_, ?_, fun k => ?_⟩
        · rw [WorkerPc.onDepth_next]
          exact hdepth
        · rw [WorkerPc.onInflight_next]
          exact hinflight
        · rw [WorkerPc.onCounter_next]
          exact hcounted k
  | handled cmd rest =>
      rw [hw] at hs hdepth hinflight hcounted
      obtain ⟨store, hstore, rfl⟩ := Option.map_eq_some_iff.mp hs
      have hsame := sameCounters_settle hstore
      refine ⟨?_, ?_, fun k => ?_⟩
      · rw [WorkerPc.onDepth_next]
        exact hdepth
      · rw [WorkerPc.onInflight_next, hsame.inflight]
        exact hinflight
      · rw [WorkerPc.onCounter_next, hsame.value]
        exact hcounted k

/-- **Every step in which no counter saturates keeps the balance.** -/
theorem tallied_turn {t : Turn} (hun : Unsaturated s t) (hs : Step s t s') : Tallied s' := by
  cases t with
  | enqueue job => exact tallied_tryEnqueue h hs
  | proceed i =>
      obtain ⟨call, hcall, hs⟩ := Option.bind_eq_some_iff.mp hs
      obtain ⟨res, hres, rfl⟩ := Option.map_eq_some_iff.mp hs
      exact tallied_proceed h hcall hun hres
  | work succeeded => exact tallied_work h hun hs

end Steps

/-! ## 4. Counters at rest -/

theorem tallied_spawn (queueCapacity pendingCap : Nat) :
    Tallied (spawn queueCapacity pendingCap) where
  depth := rfl
  inflight := rfl
  counted := by
    intro k
    cases k <;> rfl

/-- **No thread is inside an enqueue, and the worker is not inside a dequeue.** -/
structure Quiet (s : TrackWorker) : Prop where
  enqueues : s.enqueues = []
  worker : s.worker.onInflight = 0

/-- **The counters are those of the channel**, and what deduplication swallows is represented. -/
structure CountersExact (s : TrackWorker) : Prop where
  queueDepth : s.queueDepth = s.channel.length
  inflight : s.store.inflight = s.channel.length
  counted : InflightExact s.store s.channel
  represented : ∀ (job : TrackWorkerCommand) (store : BoundedProtocolStore),
    s.store.tryDedupeEnqueue job = some (true, store) →
      Represented job (s.channel ++ store.pending)

theorem onInflight_eq_zero {pc : WorkerPc} (h : pc.onInflight = 0) :
    pc.onDepth = 0 ∧ ∀ p, pc.onCounter p = 0 := by
  cases pc with
  | received cmd => exact absurd h Nat.one_ne_zero
  | noted cmd => exact absurd h Nat.one_ne_zero
  | subtracted cmd => exact ⟨rfl, fun _ => rfl⟩
  | receiving => exact ⟨rfl, fun _ => rfl⟩
  | emptied => exact ⟨rfl, fun _ => rfl⟩
  | applying cmd rest => exact ⟨rfl, fun _ => rfl⟩
  | handled cmd rest => exact ⟨rfl, fun _ => rfl⟩

theorem Tallied.exact {s : TrackWorker} (h : Tallied s) (hquiet : Quiet s) : CountersExact s := by
  obtain ⟨honDepth, honCounter⟩ := onInflight_eq_zero hquiet.worker
  have hexact : InflightExact s.store s.channel := by
    intro k
    have hbalance := h.counted k
    rw [hquiet.enqueues, honCounter] at hbalance
    exact hbalance
  refine ⟨?_, ?_, hexact, fun job store hdedupe => represented_of_dedupe hexact hdedupe⟩
  · have hbalance := h.depth
    rw [hquiet.enqueues, honDepth] at hbalance
    exact hbalance
  · have hbalance := h.inflight
    rw [hquiet.enqueues, hquiet.worker] at hbalance
    exact hbalance

theorem tallied_run {queueCapacity pendingCap : Nat} {turns : List Turn} {s : TrackWorker}
    (hr : Machine.Run (Machine.Guarded Step Unsaturated) (spawn queueCapacity pendingCap) turns s) :
    Tallied s :=
  Machine.Run.invariant (I := fun _ s => Tallied s) (tallied_spawn queueCapacity pendingCap)
    (fun _ _ _ _ _ h hs => tallied_turn h hs.2 hs.1) hr

/-- **In every run in which no counter saturates, the counters are exact whenever no thread is
    inside an enqueue or a dequeue, and deduplicated demand is in the channel or in pending.** -/
theorem counters_exact_of_unsaturated {queueCapacity pendingCap : Nat} {turns : List Turn}
    {s : TrackWorker}
    (hr : Machine.Run (Machine.Guarded Step Unsaturated) (spawn queueCapacity pendingCap) turns s)
    (hquiet : Quiet s) : CountersExact s :=
  (tallied_run hr).exact hquiet

/-- A push that is sent and counted before the worker looks. -/
theorem counters_exact_of_counted_push :
    ∃ s, (spawn 8 8).follow [.enqueue .scheduleGeyserPush, .proceed 0, .proceed 0, .proceed 0,
      .proceed 0] = some s ∧ s.channel.length = 1 ∧ CountersExact s := by
  refine ⟨_, rfl, rfl, @counters_exact_of_unsaturated 8 8 [.enqueue .scheduleGeyserPush,
    .proceed 0, .proceed 0, .proceed 0, .proceed 0] _ ?_ ⟨rfl, rfl⟩⟩
  refine .cons ⟨rfl, trivial⟩ (.cons ⟨rfl, trivial⟩ (.cons ⟨rfl, trivial⟩ (.cons ⟨rfl, ?_⟩
    (.single ⟨rfl, ?_⟩))))
  · show 0 < usizeMax
    decide
  · refine ⟨?_, ?_⟩
    · show 0 < usizeMax
      decide
    · intro k _
      cases k <;> exact (by decide : 0 < u32Max)

/-- **The worker takes a command off the counters before it was counted: the counters stay at one
    with an empty channel, and the next push is swallowed.** -/
theorem dedupe_swallows_demand :
    ∃ s, Machine.Run Step (spawn 8 8) [.enqueue .scheduleGeyserPush, .proceed 0, .proceed 0,
        .work true, .work true, .work true, .work true, .work true, .work true,
        .proceed 0, .proceed 0] s ∧
      Quiet s ∧ s.channel = [] ∧ s.queueDepth = 1 ∧
      s.store.tryDedupeEnqueue .scheduleGeyserPush = some (true, s.store) ∧
      s.store.pending = [] ∧ ¬ CountersExact s := by
  refine ⟨_, run_of_follow rfl, ⟨rfl, rfl⟩, rfl, rfl, rfl, rfl, fun hexact => ?_⟩
  exact absurd hexact.queueDepth Nat.one_ne_zero

end TrackWorker

end IronCrab.Track

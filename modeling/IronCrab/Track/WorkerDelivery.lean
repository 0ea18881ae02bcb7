/-
  File:      IronCrab/Track/WorkerDelivery.lean
  Subject:   NO INCREMENTAL UPDATE IS LOST (`worker.rs`, `pending.rs`).

  Momentum and arbitrage updates are increments, but a revision that was applied supersedes every
  older one of its stream: an update that waits in pending while a newer one goes through the
  channel is dropped by the next drain.

  * `Flow` -- what is handed over and what still waits carry exactly what was accepted;
  * **`delivered_of_oldestFirst`** -- nothing is lost in a run in which the worker never hands over
    an update while an older one of its stream waits; `staged_update_is_superseded` is a run of one
    producer in which it does.
-/
import IronCrab.Lib.Cargo
import IronCrab.Track.PendingStreams
import IronCrab.Track.WorkerCounters
import Mathlib.Tactic.Abel

namespace IronCrab.Track

open BoundedProtocolStore Cargo

/-! ## 1. What a command carries -/

/-- **A command carries its payload, or what the commands carry that were merged into it.** -/
inductive Carries : ImmutableTrackCommand → Multiset TrackWorkerCommand → Prop where
  | alone (cmd : ImmutableTrackCommand) : Carries cmd {cmd.payload}
  | merged {cmd : ImmutableTrackCommand} {cmds : List ImmutableTrackCommand}
      {loads : List (Multiset TrackWorkerCommand)} (hloads : List.Forall₂ Carries cmds loads)
      (hstream : ∀ c ∈ cmds, streamForCommand c.payload = cmd.stream)
      (hmerge : mergedPayload cmd.stream (cmds.map (·.payload)) = some cmd.payload) :
      Carries cmd loads.sum

/-- The commands of a stream, as a bag. -/
def part (stream : TrackCommandStream) (cmds : List ImmutableTrackCommand) :
    Multiset ImmutableTrackCommand := ofStream stream cmds

/-- The demand of a stream, as a bag. -/
def demandOf (stream : TrackCommandStream) (jobs : List TrackWorkerCommand) :
    Multiset TrackWorkerCommand :=
  jobs.filter fun job => decide (streamForCommand job = stream)

section Bags

variable {stream : TrackCommandStream}

@[simp] theorem part_nil : part stream [] = 0 := rfl

theorem part_append (front back : List ImmutableTrackCommand) :
    part stream (front ++ back) = part stream front + part stream back := by
  rw [part, ofStream_append]
  rfl

theorem part_perm {cmds cmds' : List ImmutableTrackCommand} (h : cmds.Perm cmds') :
    part stream cmds = part stream cmds' :=
  Multiset.coe_eq_coe.mpr (h.filter _)

theorem part_own {cmd : ImmutableTrackCommand} (h : cmd.stream = stream) :
    part stream [cmd] = {cmd} := by
  rw [part, ofStream, List.filter_singleton, decide_eq_true h]
  rfl

theorem part_other {cmd : ImmutableTrackCommand} (h : cmd.stream ≠ stream) :
    part stream [cmd] = 0 := by
  rw [part, ofStream, List.filter_singleton, decide_eq_false h]
  rfl

theorem demandOf_append (front back : List TrackWorkerCommand) :
    demandOf stream (front ++ back) = demandOf stream front + demandOf stream back := by
  rw [demandOf, List.filter_append]
  rfl

theorem demandOf_own {job : TrackWorkerCommand} (h : streamForCommand job = stream) :
    demandOf stream [job] = {job} := by
  rw [demandOf, List.filter_singleton, decide_eq_true h]
  rfl

theorem demandOf_other {job : TrackWorkerCommand} (h : streamForCommand job ≠ stream) :
    demandOf stream [job] = 0 := by
  rw [demandOf, List.filter_singleton, decide_eq_false h]
  rfl

theorem part_same {store store' : BoundedProtocolStore} (h : SameStream stream store store') :
    part stream store'.pending = part stream store.pending :=
  congrArg (fun cmds : List ImmutableTrackCommand => (cmds : Multiset ImmutableTrackCommand))
    h.pending

/-- The older updates and the rest of pending. -/
theorem part_older {cmd : ImmutableTrackCommand} (pending : List ImmutableTrackCommand) :
    part cmd.stream (pending.filter fun c => !sameStreamOlder cmd c) +
        (pending.filter (sameStreamOlder cmd) : List ImmutableTrackCommand) =
      part cmd.stream pending := by
  have hperm := List.filter_append_perm (sameStreamOlder cmd) pending
  have hall : ofStream cmd.stream (pending.filter (sameStreamOlder cmd)) =
      pending.filter (sameStreamOlder cmd) := by
    refine List.filter_eq_self.mpr fun c hc => ?_
    exact decide_eq_true (of_decide_eq_true (List.mem_filter.mp hc).2).1
  have holder : part cmd.stream (pending.filter (sameStreamOlder cmd)) =
      (pending.filter (sameStreamOlder cmd) : List ImmutableTrackCommand) := by
    rw [part, hall]
  rw [← part_perm hperm, part_append, holder, add_comm]

/-- The command that staging leaves carries what the older updates carried, and its own. -/
theorem carries_merged {store store' : BoundedProtocolStore} {cmd merged : ImmutableTrackCommand}
    (h : StagedUpdate store cmd merged store') (hcmd : cmd.Typed)
    (htyped : ∀ c ∈ store.pending, c.Typed) {loads : List (Multiset TrackWorkerCommand)}
    (hloads : List.Forall₂ Carries (store.pending.filter (sameStreamOlder cmd)) loads) :
    Carries merged (loads.sum + {cmd.payload}) := by
  rcases h.payload with ⟨hnone, hpayload⟩ | hmerge
  · rw [hnone] at hloads
    cases hloads
    rw [List.sum_nil, zero_add, ← hpayload]
    exact .alone merged
  · have hsum : loads.sum + {cmd.payload} = (loads ++ [{cmd.payload}]).sum := by
      rw [List.sum_append, List.sum_singleton]
    rw [hsum]
    refine .merged (List.rel_append hloads (.cons (.alone cmd) .nil)) (fun c hc => ?_) ?_
    · rw [h.stream]
      rcases List.mem_append.mp hc with hc | hc
      · obtain ⟨hmem, holder⟩ := List.mem_filter.mp hc
        exact (htyped c hmem).symm.trans (of_decide_eq_true holder).1
      · rw [List.mem_singleton.mp hc]
        exact hcmd.symm
    · rw [h.stream, List.map_append]
      exact hmerge

end Bags

/-! ## 2. Where a command waits -/

namespace WorkerPc

/-- The commands the worker has taken and not yet handed over. -/
def hand : WorkerPc → List ImmutableTrackCommand
  | .received cmd | .noted cmd | .subtracted cmd => [cmd]
  | .applying cmd rest => cmd :: rest
  | .handled _ rest => rest
  | _ => []

/-- The command whose handler has returned. -/
def finishing : WorkerPc → List ImmutableTrackCommand
  | .handled cmd _ => [cmd]
  | _ => []

theorem hand_next (rest : List ImmutableTrackCommand) : (next rest).hand = rest := by
  cases rest <;> rfl

theorem finishing_next (rest : List ImmutableTrackCommand) : (next rest).finishing = [] := by
  cases rest <;> rfl

end WorkerPc

namespace Enqueue

/-- The command is still with the call. -/
def unlanded : Enqueue → List ImmutableTrackCommand
  | .wrapped cmd | .sending cmd | .staging cmd => [cmd]
  | _ => []

/-- The channel has the command, and the call has not returned. -/
def landed : Enqueue → List ImmutableTrackCommand
  | .sent cmd | .counted cmd => [cmd]
  | _ => []

end Enqueue

namespace TrackWorker

/-- The commands that are not handed over, dropped or finished. -/
def waiting (s : TrackWorker) : List ImmutableTrackCommand :=
  s.channel ++ s.store.pending ++ s.worker.hand ++ s.enqueues.flatMap Enqueue.unlanded

/-- The demand of the calls whose command has landed. -/
def landedDemand (stream : TrackCommandStream) (enqueues : List Enqueue) :
    Multiset TrackWorkerCommand :=
  demandOf stream ((enqueues.flatMap Enqueue.landed).map (·.payload))

/-- The commands that carry what was accepted. -/
def carriers (stream : TrackCommandStream) (s : TrackWorker) : Multiset ImmutableTrackCommand :=
  part stream s.handedOver + part stream s.channel + part stream s.worker.hand +
    part stream s.store.pending

/-- What was accepted, or will be without another step of the channel or the store. -/
def demand (stream : TrackCommandStream) (s : TrackWorker) : Multiset TrackWorkerCommand :=
  demandOf stream s.accepted + landedDemand stream s.enqueues

section Calls

variable {stream : TrackCommandStream} {enqueues : List Enqueue} {i : Nat} {call : Enqueue}

theorem landedDemand_append (front back : List Enqueue) :
    landedDemand stream (front ++ back) = landedDemand stream front + landedDemand stream back := by
  rw [landedDemand, List.flatMap_append, List.map_append, demandOf_append]
  rfl

theorem landedDemand_replace (stream : TrackCommandStream) (h : enqueues[i]? = some call)
    (o : Option Enqueue) :
    landedDemand stream (enqueues.take i ++ o.toList ++ enqueues.drop (i + 1)) +
      landedDemand stream [call] = landedDemand stream enqueues + landedDemand stream o.toList := by
  have hsplit := congrArg (landedDemand stream) (eq_take_append h)
  rw [landedDemand_append, ← List.singleton_append, landedDemand_append] at hsplit
  rw [landedDemand_append, landedDemand_append, hsplit]
  abel

theorem landedDemand_replace_same (h : enqueues[i]? = some call) {o : Option Enqueue}
    (ho : landedDemand stream o.toList = landedDemand stream [call]) :
    landedDemand stream (enqueues.take i ++ o.toList ++ enqueues.drop (i + 1)) =
      landedDemand stream enqueues := by
  have hreplace := landedDemand_replace stream h o
  rw [ho] at hreplace
  exact add_right_cancel hreplace

theorem mem_unlanded_replace {o : Option Enqueue} {c : ImmutableTrackCommand}
    (hc : c ∈ (enqueues.take i ++ o.toList ++ enqueues.drop (i + 1)).flatMap Enqueue.unlanded) :
    c ∈ enqueues.flatMap Enqueue.unlanded ∨ c ∈ o.toList.flatMap Enqueue.unlanded := by
  rw [List.flatMap_append, List.flatMap_append] at hc
  rcases List.mem_append.mp hc with hc | hc
  · rcases List.mem_append.mp hc with hc | hc
    · obtain ⟨e, he, hce⟩ := List.mem_flatMap.mp hc
      exact Or.inl (List.mem_flatMap.mpr ⟨e, List.mem_of_mem_take he, hce⟩)
    · exact Or.inr hc
  · obtain ⟨e, he, hce⟩ := List.mem_flatMap.mp hc
    exact Or.inl (List.mem_flatMap.mpr ⟨e, List.mem_of_mem_drop he, hce⟩)

theorem unlanded_mem (h : enqueues[i]? = some call) {c : ImmutableTrackCommand}
    (hc : c ∈ call.unlanded) : c ∈ enqueues.flatMap Enqueue.unlanded :=
  List.mem_flatMap.mpr ⟨call, List.mem_of_getElem? h, hc⟩

end Calls

/-! ## 3. The invariant -/

/-- A waiting command is typed, and one of the stream is newer than what was applied. -/
structure Awaited (stream : TrackCommandStream) (s : TrackWorker) (c : ImmutableTrackCommand) :
    Prop where
  typed : c.Typed
  issued : c.stream = stream → c.revision ≤ s.store.revision.next stream
  fresh : c.stream = stream → s.store.lastApplied stream < c.revision
  ahead : c.stream = stream → ∀ d ∈ s.worker.finishing, d.stream = stream →
    d.revision < c.revision

/-- **What was handed over and what waits carry what was accepted**, and no waiting command of the
    stream can be superseded. -/
structure Flow (stream : TrackCommandStream) (s : TrackWorker) : Prop where
  waiting : ∀ c ∈ s.waiting, Awaited stream s c
  finishing : ∀ d ∈ s.worker.finishing, d.Typed ∧
    (d.stream = stream → d.revision ≤ s.store.revision.next stream)
  applied : s.store.lastApplied stream ≤ s.store.revision.next stream
  kept : ∀ c ∈ s.discarded, c.stream ≠ stream
  carried : Carried Carries (carriers stream s) (demand stream s)

theorem flow_spawn (stream : TrackCommandStream) (queueCapacity pendingCap : Nat) :
    Flow stream (spawn queueCapacity pendingCap) where
  waiting := fun _ hc => absurd hc List.not_mem_nil
  finishing := fun _ hd => absurd hd List.not_mem_nil
  applied := le_refl _
  kept := fun _ hc => absurd hc List.not_mem_nil
  carried := carried_zero.mpr rfl

/-- Where a command that waits after a step comes from: one of its revision waited before, or it
    got a new one. -/
def Comes (stream : TrackCommandStream) (s s' : TrackWorker) (c : ImmutableTrackCommand) : Prop :=
  c.Typed ∧ (c.stream = stream →
    (∃ d ∈ s.waiting, d.stream = stream ∧ d.revision = c.revision) ∨
    (s.store.revision.next stream < c.revision ∧ c.revision ≤ s'.store.revision.next stream))

section Steps

variable {stream : TrackCommandStream} {s s' : TrackWorker} (h : Flow stream s)
include h

theorem Flow.comes {c : ImmutableTrackCommand} (hc : c ∈ s.waiting) : Comes stream s s' c :=
  ⟨(h.waiting c hc).typed, fun hst => Or.inl ⟨c, hc, hst, rfl⟩⟩

theorem Flow.typed_pending : ∀ c ∈ s.store.pending, c.Typed := fun c hc =>
  (h.waiting c (by simp [TrackWorker.waiting, hc])).typed

/-- A step after which nothing older waits, and nothing of the stream is applied or dropped. -/
theorem Flow.of_step (hnext : s.store.revision.next stream ≤ s'.store.revision.next stream)
    (hlast : s'.store.lastApplied stream = s.store.lastApplied stream)
    (hwaiting : ∀ c ∈ s'.waiting, Comes stream s s' c)
    (hfinishing : ∀ d ∈ s'.worker.finishing, d ∈ s.worker.finishing)
    (hkept : ∀ c ∈ s'.discarded, c.stream = stream → c ∈ s.discarded)
    (hcarried : Carried Carries (carriers stream s') (demand stream s')) : Flow stream s' where
  waiting := by
    intro c hc
    obtain ⟨htyped, hfrom⟩ := hwaiting c hc
    refine ⟨htyped, fun hst => ?_, fun hst => ?_, fun hst d hd hdst => ?_⟩
    · rcases hfrom hst with ⟨e, he, hest, hrev⟩ | hnew
      · exact hrev ▸ le_trans ((h.waiting e he).issued hest) hnext
      · exact hnew.2
    · rw [hlast]
      rcases hfrom hst with ⟨e, he, hest, hrev⟩ | hnew
      · exact hrev ▸ (h.waiting e he).fresh hest
      · exact lt_of_le_of_lt h.applied hnew.1
    · rcases hfrom hst with ⟨e, he, hest, hrev⟩ | hnew
      · exact hrev ▸ (h.waiting e he).ahead hest d (hfinishing d hd) hdst
      · exact lt_of_le_of_lt ((h.finishing d (hfinishing d hd)).2 hdst) hnew.1
  finishing := by
    intro d hd
    obtain ⟨htyped, hissued⟩ := h.finishing d (hfinishing d hd)
    exact ⟨htyped, fun hst => le_trans (hissued hst) hnext⟩
  applied := by
    rw [hlast]
    exact le_trans h.applied hnext
  kept := fun c hc hst => h.kept c (hkept c hc hst) hst
  carried := hcarried

/-- A step that keeps what waits and what it carries. -/
theorem Flow.of_kept (hstore : SameStream stream s.store s'.store)
    (hchannel : s'.channel = s.channel) (hworker : s'.worker.hand = s.worker.hand)
    (hfinishing : ∀ d ∈ s'.worker.finishing, d ∈ s.worker.finishing)
    (hcalls : ∀ c ∈ s'.enqueues.flatMap Enqueue.unlanded,
      c ∈ s.enqueues.flatMap Enqueue.unlanded)
    (hhanded : s'.handedOver = s.handedOver) (hdiscarded : s'.discarded = s.discarded)
    (hdemand : demand stream s' = demand stream s) : Flow stream s' := by
  refine h.of_step (le_of_eq hstore.next.symm) hstore.lastApplied (fun c hc => ?_) hfinishing
    (fun c hc _ => hdiscarded ▸ hc) ?_
  · unfold TrackWorker.waiting at hc
    rw [hchannel, hworker] at hc
    simp only [List.mem_append] at hc
    rcases hc with ((hc | hc) | hc) | hc
    · exact h.comes (by simp [TrackWorker.waiting, hc])
    · refine ⟨hstore.typed c hc, fun hst => Or.inl ⟨c, ?_, hst, rfl⟩⟩
      have hmem := hstore.mem hc hst
      simp [TrackWorker.waiting, hmem]
    · exact h.comes (by simp [TrackWorker.waiting, hc])
    · exact h.comes (List.mem_append_right _ (hcalls c hc))
  · have hcarriers : carriers stream s' = carriers stream s := by
      unfold carriers
      rw [hhanded, hchannel, hworker, part_same hstore]
    rw [hcarriers, hdemand]
    exact h.carried

/-- A call has wrapped its command. -/
theorem flow_wrap (hinc : stream.Incremental) {job : TrackWorkerCommand}
    (hrevision : streamForCommand job = stream → s.store.revision.next stream < u64Max)
    {wrap : ImmutableTrackCommand × BoundedProtocolStore}
    (hwrap : s.store.wrapCommand job = some wrap) :
    Flow stream { s with store := wrap.2, enqueues := s.enqueues ++ [.wrapped wrap.1] } := by
  obtain ⟨_, htyped, hle, hnew⟩ := wrapCommand_spec hinc hrevision hwrap
  have hkeeps := wrapCommand_keeps hwrap
  have hpending : wrap.2.pending = s.store.pending := by rw [hkeeps]
  have hlast : wrap.2.lastApplied = s.store.lastApplied := by rw [hkeeps]
  refine h.of_step hle (congrFun hlast stream) (fun c hc => ?_) (fun _ hd => hd)
    (fun _ hc _ => hc) ?_
  · have hc : c ∈ s.channel ++ wrap.2.pending ++ s.worker.hand ++
        (s.enqueues ++ [Enqueue.wrapped wrap.1]).flatMap Enqueue.unlanded := hc
    rw [hpending, List.flatMap_append, ← List.append_assoc] at hc
    rcases List.mem_append.mp hc with hc | hc
    · exact h.comes hc
    · have hc : c ∈ [wrap.1] := hc
      rw [List.mem_singleton.mp hc]
      exact ⟨htyped, fun hst => Or.inr (hnew hst)⟩
  · have hcarriers : carriers stream { s with
        store := wrap.2, enqueues := s.enqueues ++ [.wrapped wrap.1] } = carriers stream s := by
      unfold carriers
      dsimp only
      rw [hpending]
    have hdemand : demand stream { s with
        store := wrap.2, enqueues := s.enqueues ++ [.wrapped wrap.1] } = demand stream s := by
      have hnone : landedDemand stream [Enqueue.wrapped wrap.1] = 0 := rfl
      unfold demand
      dsimp only
      rw [landedDemand_append, hnone, add_zero]
    rw [hcarriers, hdemand]
    exact h.carried

theorem flow_tryEnqueue (hinc : stream.Incremental)
    (hroom : s.store.pending.length < s.store.pendingCap) {job : TrackWorkerCommand}
    (hrevision : streamForCommand job = stream → s.store.revision.next stream < u64Max)
    (hs : s.tryEnqueue job = some s') : Flow stream s' := by
  unfold tryEnqueue at hs
  obtain ⟨⟨b, store⟩, hdedupe, hs⟩ := Option.bind_eq_some_iff.mp hs
  have hsame := sameStream_tryDedupeEnqueue h.typed_pending hinc.ne_control hroom hdedupe
  dsimp only at hs
  split_ifs at hs with hb
  · cases hs
    refine h.of_kept hsame rfl rfl (fun _ hd => hd) (fun _ hc => hc) rfl rfl ?_
    rw [hb] at hdedupe
    have hother : streamForCommand job ≠ stream :=
      (control_of_deduped hdedupe).trans_ne hinc.ne_control.symm
    unfold demand
    rw [demandOf_append, demandOf_other hother, add_zero]
  · obtain ⟨wrap, hwrap, rfl⟩ := Option.map_eq_some_iff.mp hs
    have hdeduped : Flow stream { s with store := store } :=
      h.of_kept hsame rfl rfl (fun _ hd => hd) (fun _ hc => hc) rfl rfl rfl
    exact flow_wrap hdeduped hinc (fun hst => hsame.next ▸ hrevision hst) hwrap

/-- The channel took the command. -/
theorem flow_sending {i : Nat} {cmd : ImmutableTrackCommand}
    (hcall : s.enqueues[i]? = some (.sending cmd)) :
    Flow stream { s with
      channel := s.channel ++ [cmd]
      enqueues := s.enqueues.take i ++ (some (Enqueue.sent cmd)).toList ++
        s.enqueues.drop (i + 1) } := by
  have hwaits : cmd ∈ s.waiting :=
    List.mem_append_right _ (unlanded_mem hcall List.mem_cons_self)
  refine h.of_step (le_refl _) rfl (fun c hc => ?_) (fun _ hd => hd) (fun _ hc _ => hc) ?_
  · have hmem : c ∈ s.waiting := by
      unfold TrackWorker.waiting at hc ⊢
      simp only [List.mem_append, List.mem_singleton] at hc ⊢
      rcases hc with (((hc | rfl) | hc) | hc) | hc
      · exact Or.inl (Or.inl (Or.inl hc))
      · exact Or.inr (unlanded_mem hcall List.mem_cons_self)
      · exact Or.inl (Or.inl (Or.inr hc))
      · exact Or.inl (Or.inr hc)
      · rcases mem_unlanded_replace hc with hc | hc
        · exact Or.inr hc
        · exact absurd hc List.not_mem_nil
    exact h.comes hmem
  · have hreplace := landedDemand_replace stream hcall (some (.sent cmd))
    have hbefore : landedDemand stream [Enqueue.sending cmd] = 0 := rfl
    have hafter : landedDemand stream (some (Enqueue.sent cmd)).toList =
        demandOf stream [cmd.payload] := rfl
    rw [hbefore, add_zero, hafter] at hreplace
    have hdemand : demand stream { s with
        channel := s.channel ++ [cmd]
        enqueues := s.enqueues.take i ++ (some (Enqueue.sent cmd)).toList ++
          s.enqueues.drop (i + 1) } = demand stream s + demandOf stream [cmd.payload] := by
      unfold demand
      dsimp only
      rw [hreplace, add_assoc]
    have hcarriers : carriers stream { s with
        channel := s.channel ++ [cmd]
        enqueues := s.enqueues.take i ++ (some (Enqueue.sent cmd)).toList ++
          s.enqueues.drop (i + 1) } = carriers stream s + part stream [cmd] := by
      unfold carriers
      dsimp only
      rw [part_append]
      abel
    rw [hdemand, hcarriers]
    refine h.carried.add ?_
    have htyped : cmd.stream = streamForCommand cmd.payload := (h.waiting cmd hwaits).typed
    by_cases hst : cmd.stream = stream
    · rw [part_own hst, demandOf_own (htyped.symm.trans hst)]
      exact carried_singleton (.alone cmd)
    · rw [part_other hst, demandOf_other (fun heq => hst (htyped.trans heq))]
      exact carried_zero.mpr rfl

/-- Pending took the command of another stream. -/
theorem flow_staging_other (hinc : stream.Incremental)
    (hroom : s.store.pending.length < s.store.pendingCap) {i : Nat} {cmd : ImmutableTrackCommand}
    (hcall : s.enqueues[i]? = some (.staging cmd)) (hst : cmd.stream ≠ stream)
    {res : StageResult × BoundedProtocolStore} (hres : s.store.stageOnQueueFull cmd = some res) :
    Flow stream { s with
      store := res.2
      accepted := s.accepted ++ [cmd.payload]
      enqueues := s.enqueues.take i ++ (none : Option Enqueue).toList ++
        s.enqueues.drop (i + 1) } := by
  have htyped : cmd.stream = streamForCommand cmd.payload :=
    (h.waiting cmd (List.mem_append_right _ (unlanded_mem hcall List.mem_cons_self))).typed
  refine h.of_kept (sameStream_stageOnQueueFull h.typed_pending hinc.ne_control hroom htyped hst
    hres) rfl rfl (fun _ hd => hd) (fun c hc => ?_) rfl rfl ?_
  · exact (mem_unlanded_replace hc).resolve_right List.not_mem_nil
  · unfold demand
    dsimp only
    rw [landedDemand_replace_same hcall rfl, demandOf_append,
      demandOf_other (fun heq => hst (htyped.trans heq)), add_zero]

/-- **Pending took the update, merged with the older ones.** -/
theorem flow_staging_own (hinc : stream.Incremental)
    (hroom : s.store.pending.length < s.store.pendingCap) {i : Nat} {cmd : ImmutableTrackCommand}
    (hcall : s.enqueues[i]? = some (.staging cmd)) (hst : cmd.stream = stream)
    {res : StageResult × BoundedProtocolStore} (hres : s.store.stageOnQueueFull cmd = some res) :
    Flow stream { s with
      store := res.2
      accepted := s.accepted ++ [cmd.payload]
      enqueues := s.enqueues.take i ++ (none : Option Enqueue).toList ++
        s.enqueues.drop (i + 1) } := by
  have hwaits : cmd ∈ s.waiting :=
    List.mem_append_right _ (unlanded_mem hcall List.mem_cons_self)
  have htyped : cmd.Typed := (h.waiting cmd hwaits).typed
  obtain ⟨merged, hstaged⟩ := stagedUpdate (hst ▸ hinc) htyped hroom hres
  have hnext : res.2.revision = s.store.revision := by rw [hstaged.after]
  have hlast : res.2.lastApplied = s.store.lastApplied := by rw [hstaged.after]
  have hpending : res.2.pending =
      (s.store.pending.filter fun c => !sameStreamOlder cmd c) ++ [merged] := by
    rw [hstaged.after]
  refine h.of_step (le_of_eq (congrArg (fun r => r.next stream) hnext.symm))
    (congrFun hlast stream) (fun c hc => ?_) (fun _ hd => hd) (fun _ hc _ => hc) ?_
  · unfold TrackWorker.waiting at hc
    dsimp only at hc
    rw [hpending] at hc
    simp only [List.mem_append, List.mem_singleton] at hc
    rcases hc with ((hc | hc | rfl) | hc) | hc
    · exact h.comes (by simp [TrackWorker.waiting, hc])
    · exact h.comes (by simp [TrackWorker.waiting, (List.mem_filter.mp hc).1])
    · exact ⟨hstaged.typed, fun _ => Or.inl ⟨cmd, hwaits, hst, hstaged.revision.symm⟩⟩
    · exact h.comes (by simp [TrackWorker.waiting, hc])
    · have hmem := (mem_unlanded_replace hc).resolve_right List.not_mem_nil
      exact h.comes (List.mem_append_right _ hmem)
  · have hdemand : demand stream { s with
        store := res.2
        accepted := s.accepted ++ [cmd.payload]
        enqueues := s.enqueues.take i ++ (none : Option Enqueue).toList ++
          s.enqueues.drop (i + 1) } = demand stream s + {cmd.payload} := by
      unfold demand
      dsimp only
      rw [landedDemand_replace_same hcall rfl, demandOf_append,
        demandOf_own (Eq.trans htyped.symm hst)]
      abel
    have hbefore : carriers stream s = part stream s.handedOver + part stream s.channel +
        part stream s.worker.hand +
          part stream (s.store.pending.filter fun c => !sameStreamOlder cmd c) +
        (s.store.pending.filter (sameStreamOlder cmd) : List ImmutableTrackCommand) := by
      unfold carriers
      rw [← hst, ← part_older s.store.pending]
      exact (add_assoc _ _ _).symm
    have hafter : carriers stream { s with
        store := res.2
        accepted := s.accepted ++ [cmd.payload]
        enqueues := s.enqueues.take i ++ (none : Option Enqueue).toList ++
          s.enqueues.drop (i + 1) } = part stream s.handedOver + part stream s.channel +
        part stream s.worker.hand +
          part stream (s.store.pending.filter fun c => !sameStreamOlder cmd c) + {merged} := by
      unfold carriers
      dsimp only
      rw [hpending, part_append, part_own (hstaged.stream.trans hst)]
      exact (add_assoc _ _ _).symm
    have hcarried := h.carried
    rw [hbefore] at hcarried
    rw [hdemand, hafter]
    exact hcarried.replace fun loads hloads =>
      carries_merged hstaged htyped h.typed_pending hloads

theorem flow_proceed (hinc : stream.Incremental)
    (hroom : s.store.pending.length < s.store.pendingCap) {i : Nat} {call : Enqueue}
    (hcall : s.enqueues[i]? = some call) {o : Option Enqueue} {next : TrackWorker}
    (hs : s.proceed call = some (o, next)) :
    Flow stream { next with
      enqueues := s.enqueues.take i ++ o.toList ++ s.enqueues.drop (i + 1) } := by
  have hsame : SameStream stream s.store s.store := .refl h.typed_pending
  cases call with
  | wrapped cmd =>
      cases hs
      refine h.of_kept hsame rfl rfl (fun _ hd => hd) (fun c hc => ?_) rfl rfl ?_
      · rcases mem_unlanded_replace hc with hc | hc
        · exact hc
        · refine unlanded_mem hcall ?_
          split_ifs at hc <;> exact hc
      · unfold demand
        dsimp only
        rw [landedDemand_replace_same hcall]
        split_ifs <;> rfl
  | sending cmd =>
      unfold proceed at hs
      dsimp only at hs
      split_ifs at hs
      · cases hs
        exact flow_sending h hcall
      · cases hs
        refine h.of_kept hsame rfl rfl (fun _ hd => hd) (fun c hc => ?_) rfl rfl ?_
        · rcases mem_unlanded_replace hc with hc | hc
          · exact hc
          · exact unlanded_mem hcall hc
        · unfold demand
          dsimp only
          rw [landedDemand_replace_same hcall rfl]
  | sent cmd =>
      cases hs
      refine h.of_kept hsame rfl rfl (fun _ hd => hd) (fun c hc => ?_) rfl rfl ?_
      · exact (mem_unlanded_replace hc).resolve_right List.not_mem_nil
      · unfold demand
        dsimp only
        rw [landedDemand_replace_same hcall rfl]
  | counted cmd =>
      cases hs
      refine h.of_kept ⟨h.typed_pending, rfl, rfl, rfl⟩ rfl rfl (fun _ hd => hd) (fun c hc => ?_)
        rfl rfl ?_
      · exact (mem_unlanded_replace hc).resolve_right List.not_mem_nil
      · have hreplace := landedDemand_replace stream hcall none
        have hbefore : landedDemand stream [Enqueue.counted cmd] =
            demandOf stream [cmd.payload] := rfl
        have hafter : landedDemand stream (none : Option Enqueue).toList = 0 := rfl
        rw [hbefore, hafter, add_zero] at hreplace
        unfold demand
        dsimp only
        rw [demandOf_append, add_assoc, add_comm (demandOf stream [cmd.payload]), hreplace]
  | staging cmd =>
      obtain ⟨res, hres, he⟩ := Option.map_eq_some_iff.mp hs
      cases he
      by_cases hst : cmd.stream = stream
      · exact flow_staging_own h hinc hroom hcall hst hres
      · exact flow_staging_other h hinc hroom hcall hst hres

end Steps

/-! ## 4. The worker's steps -/

section Worker

variable {stream : TrackCommandStream} {s s' : TrackWorker} {cmd : ImmutableTrackCommand}
  {rest : List ImmutableTrackCommand}

/-- An increment advances its stream whether its handler succeeds or not. -/
theorem settle_own (hinc : stream.Incremental) (htyped : cmd.Typed) (hst : cmd.stream = stream)
    (store : BoundedProtocolStore) (succeeded : Bool) :
    settle store cmd succeeded = some { store with
      lastApplied := Function.update store.lastApplied stream
        (max (store.lastApplied stream) cmd.revision) } := by
  have hstream : streamForCommand cmd.payload = stream := Eq.trans htyped.symm hst
  have hpayload := update_of_incremental (hstream ▸ hinc)
  have hadvance : shouldAdvance cmd succeeded = true := by
    unfold shouldAdvance
    rw [hst]
    rcases hinc with rfl | rfl <;> rcases hpayload with ⟨u, hu⟩ | ⟨u, hu⟩ <;> rw [hu]
  have hnotWallet : cmd.stream ≠ .wallet := by
    rw [hst]
    rcases hinc with rfl | rfl <;> decide
  unfold settle
  rw [if_pos hadvance, if_neg hnotWallet, markApplied_incremental (hst ▸ hinc), hst]

theorem settle_other (hinc : stream.Incremental) {store store' : BoundedProtocolStore}
    (hpending : ∀ c ∈ store.pending, c.Typed) (hroom : store.pending.length < store.pendingCap)
    (htyped : cmd.Typed) (hne : cmd.stream ≠ stream) {succeeded : Bool}
    (h : settle store cmd succeeded = some store') : SameStream stream store store' := by
  unfold settle at h
  split_ifs at h
  · exact sameStream_markAppliedWalletDemand hpending hne h
  · exact sameStream_markApplied hpending hne h
  · obtain ⟨res, hres, rfl⟩ := Option.map_eq_some_iff.mp h
    exact sameStream_stageOnQueueFull hpending hinc.ne_control hroom htyped hne hres
  · cases h
    exact .refl hpending

theorem part_cons (cmd : ImmutableTrackCommand) (rest : List ImmutableTrackCommand) :
    part stream (cmd :: rest) = part stream [cmd] + part stream rest := by
  rw [← List.singleton_append, part_append]

/-- What waits besides the command that is to be applied. -/
theorem mem_waiting_of_rest (hw : s.worker = .applying cmd rest) {c : ImmutableTrackCommand}
    (hc : c ∈ s.channel ++ s.store.pending ++ rest ++ s.enqueues.flatMap Enqueue.unlanded) :
    c ∈ s.waiting := by
  unfold TrackWorker.waiting
  rw [hw]
  simp only [List.mem_append, WorkerPc.hand, List.mem_cons] at hc ⊢
  rcases hc with ((hc | hc) | hc) | hc
  · exact Or.inl (Or.inl (Or.inl hc))
  · exact Or.inl (Or.inl (Or.inr hc))
  · exact Or.inl (Or.inr (Or.inr hc))
  · exact Or.inr hc

theorem mem_waiting_applying (hw : s.worker = .applying cmd rest) : cmd ∈ s.waiting := by
  unfold TrackWorker.waiting
  rw [hw]
  simp [WorkerPc.hand]

variable (h : Flow stream s)
include h

/-- A waiting command of the stream is applicable. -/
theorem Flow.applicable (hinc : stream.Incremental) (hc : cmd ∈ s.waiting)
    (hst : cmd.stream = stream) : s.store.isApplicable cmd = some true := by
  have hfresh := (h.waiting cmd hc).fresh hst
  rw [isApplicable_incremental (hst ▸ hinc), hst, decide_eq_true hfresh]

theorem flow_receive {channel : List ImmutableTrackCommand} (hw : s.worker = .receiving)
    (hch : s.channel = cmd :: channel) :
    Flow stream { s with channel := channel, worker := .received cmd } := by
  refine h.of_step (le_refl _) rfl (fun c hc => ?_) (fun _ hd => absurd hd List.not_mem_nil)
    (fun _ hc _ => hc) ?_
  · have hmem : c ∈ s.waiting := by
      unfold TrackWorker.waiting at hc ⊢
      rw [hch]
      simp only [List.mem_append, List.mem_cons, WorkerPc.hand, List.not_mem_nil, or_false] at hc ⊢
      rcases hc with ((hc | hc) | hc) | hc
      · exact Or.inl (Or.inl (Or.inl (Or.inr hc)))
      · exact Or.inl (Or.inl (Or.inr hc))
      · exact Or.inl (Or.inl (Or.inl (Or.inl hc)))
      · exact Or.inr hc
    exact h.comes hmem
  · have hcarriers : carriers stream { s with channel := channel, worker := .received cmd } =
        carriers stream s := by
      have hhand : part stream (WorkerPc.received cmd).hand = part stream [cmd] := rfl
      have hnone : part stream WorkerPc.receiving.hand = 0 := rfl
      unfold carriers
      dsimp only
      rw [hw, hch, hhand, hnone, part_cons cmd channel]
      abel
    rw [hcarriers]
    exact h.carried

/-- **A drain takes all updates of the stream.** -/
theorem flow_drain (hinc : stream.Incremental) (hw : s.worker = .emptied)
    {res : List ImmutableTrackCommand × BoundedProtocolStore}
    (hres : s.store.takeApplicablePendingSorted = some res) :
    Flow stream { s with
      store := res.2
      worker := .next res.1
      discarded := s.discarded ++ superseded s.store } := by
  have hperm := byRevision_perm s.store.pending
  have happlicable : ∀ c ∈ byRevision s.store.pending, c.stream = stream →
      s.store.isApplicable c = some true := fun c hc hst =>
    h.applicable hinc (by simp [TrackWorker.waiting, hperm.mem_iff.mp hc]) hst
  unfold takeApplicablePendingSorted at hres
  split_ifs at hres
  cases hres
  refine h.of_step (le_refl _) rfl (fun c hc => ?_) (fun d hd => ?_) (fun c hc hst => ?_) ?_
  · have hmem : c ∈ s.waiting := by
      unfold TrackWorker.waiting at hc ⊢
      dsimp only at hc
      rw [WorkerPc.hand_next] at hc
      simp only [List.mem_append, List.mem_filter, List.not_mem_nil, or_false] at hc ⊢
      rcases hc with (hc | hc) | hc
      · exact Or.inl (Or.inl (Or.inl hc))
      · exact Or.inl (Or.inl (Or.inr (hperm.mem_iff.mp hc.1)))
      · exact Or.inr hc
    exact h.comes hmem
  · dsimp only at hd
    rw [WorkerPc.finishing_next] at hd
    exact absurd hd List.not_mem_nil
  · refine (List.mem_append.mp hc).resolve_right fun hdropped => ?_
    obtain ⟨hmem, hnot⟩ := List.mem_filter.mp hdropped
    have hnot := of_decide_eq_true hnot
    rw [happlicable c hmem hst] at hnot
    cases hnot
  · have htaken : part stream ((byRevision s.store.pending).filter fun cmd =>
        (s.store.isApplicable cmd).getD false) = part stream s.store.pending := by
      rw [← part_perm hperm, part, ofStream_filter fun c hc hst => ?_]
      · rfl
      · rw [happlicable c hc hst]
        rfl
    have hcarriers : carriers stream { s with
        store := { s.store with pending := [] }
        worker := .next ((byRevision s.store.pending).filter fun cmd =>
          (s.store.isApplicable cmd).getD false)
        discarded := s.discarded ++ superseded s.store } = carriers stream s := by
      have hnone : part stream WorkerPc.emptied.hand = 0 := rfl
      unfold carriers
      dsimp only
      rw [hw, hnone, WorkerPc.hand_next, htaken, part_nil]
      abel
    rw [hcarriers]
    exact h.carried

/-- The oldest waiting update is handed over. -/
theorem flow_hand (hw : s.worker = .applying cmd rest)
    (holdest : cmd.stream = stream →
      ∀ c ∈ s.channel ++ s.store.pending ++ rest ++ s.enqueues.flatMap Enqueue.unlanded,
        c.stream = stream → cmd.revision < c.revision) :
    Flow stream { s with
      worker := .handled cmd rest, handedOver := s.handedOver ++ [cmd] } where
  waiting := by
    intro c hc
    obtain ⟨htyped, hissued, hfresh, _⟩ := h.waiting c (mem_waiting_of_rest hw hc)
    refine ⟨htyped, hissued, hfresh, fun hst d hd hdst => ?_⟩
    have hd : d ∈ [cmd] := hd
    rw [List.mem_singleton.mp hd] at hdst ⊢
    exact holdest hdst c hc hst
  finishing := by
    intro d hd
    have hd : d ∈ [cmd] := hd
    rw [List.mem_singleton.mp hd]
    have hcmd := h.waiting cmd (mem_waiting_applying hw)
    exact ⟨hcmd.typed, hcmd.issued⟩
  applied := h.applied
  kept := h.kept
  carried := by
    have hcarriers : carriers stream { s with
        worker := .handled cmd rest, handedOver := s.handedOver ++ [cmd] } =
        carriers stream s := by
      have hafter : part stream (WorkerPc.handled cmd rest).hand = part stream rest := rfl
      have hbefore : part stream (WorkerPc.applying cmd rest).hand =
          part stream [cmd] + part stream rest := part_cons cmd rest
      unfold carriers
      dsimp only
      rw [hw, hbefore, hafter, part_append]
      abel
    rw [hcarriers]
    exact h.carried

/-- A superseded command is of another stream. -/
theorem flow_drop (hinc : stream.Incremental) (hw : s.worker = .applying cmd rest)
    (hnot : s.store.isApplicable cmd = some false) :
    Flow stream { s with worker := .next rest, discarded := s.discarded ++ [cmd] } := by
  have hother : cmd.stream ≠ stream := by
    intro hst
    rw [h.applicable hinc (mem_waiting_applying hw) hst] at hnot
    cases hnot
  refine h.of_step (le_refl _) rfl (fun c hc => ?_) (fun d hd => ?_) (fun c hc hst => ?_) ?_
  · unfold TrackWorker.waiting at hc
    dsimp only at hc
    rw [WorkerPc.hand_next] at hc
    have hmem := mem_waiting_of_rest hw hc
    exact h.comes hmem
  · dsimp only at hd
    rw [WorkerPc.finishing_next] at hd
    exact absurd hd List.not_mem_nil
  · refine (List.mem_append.mp hc).resolve_right fun hdropped => ?_
    rw [List.mem_singleton.mp hdropped] at hst
    exact hother hst
  · have hcarriers : carriers stream { s with
        worker := .next rest, discarded := s.discarded ++ [cmd] } = carriers stream s := by
      have hbefore : part stream (WorkerPc.applying cmd rest).hand = part stream rest := by
        show part stream (cmd :: rest) = _
        rw [part_cons, part_other hother, zero_add]
      unfold carriers
      dsimp only
      rw [hw, hbefore, WorkerPc.hand_next]
    rw [hcarriers]
    exact h.carried

/-- The revision of an update is applied. -/
theorem flow_settle_own (hw : s.worker = .handled cmd rest) (hst : cmd.stream = stream) :
    Flow stream { s with
      store := { s.store with
        lastApplied := Function.update s.store.lastApplied stream
          (max (s.store.lastApplied stream) cmd.revision) }
      worker := .next rest } := by
  have hlast : Function.update s.store.lastApplied stream
      (max (s.store.lastApplied stream) cmd.revision) stream =
        max (s.store.lastApplied stream) cmd.revision := Function.update_self _ _ _
  have hfinishing : cmd ∈ s.worker.finishing := by
    rw [hw]
    exact List.mem_cons_self
  have hwaiting : ∀ c, c ∈ s.channel ++ s.store.pending ++ (WorkerPc.next rest).hand ++
      s.enqueues.flatMap Enqueue.unlanded → c ∈ s.waiting := by
    intro c hc
    unfold TrackWorker.waiting
    rw [hw]
    rw [WorkerPc.hand_next] at hc
    exact hc
  refine ⟨fun c hc => ?_, fun d hd => ?_, ?_, h.kept, ?_⟩
  · obtain ⟨htyped, hissued, hfresh, hahead⟩ := h.waiting c (hwaiting c hc)
    refine ⟨htyped, hissued, fun hc => ?_, fun _ d hd => ?_⟩
    · dsimp only
      rw [hlast]
      exact max_lt (hfresh hc) (hahead hc cmd hfinishing hst)
    · dsimp only at hd
      rw [WorkerPc.finishing_next] at hd
      exact absurd hd List.not_mem_nil
  · dsimp only at hd
    rw [WorkerPc.finishing_next] at hd
    exact absurd hd List.not_mem_nil
  · dsimp only
    rw [hlast]
    exact max_le h.applied ((h.finishing cmd hfinishing).2 hst)
  · have hcarried := h.carried
    unfold carriers at hcarried ⊢
    rw [hw] at hcarried
    dsimp only
    rw [WorkerPc.hand_next]
    exact hcarried

/-- The store changed, and the command in the worker's hand stays. -/
theorem flow_worker {store : BoundedProtocolStore} {worker : WorkerPc} {queueDepth : Nat}
    (hstore : SameStream stream s.store store) (hhand : worker.hand = s.worker.hand)
    (hfinishing : worker.finishing = []) :
    Flow stream { s with store := store, queueDepth := queueDepth, worker := worker } :=
  h.of_kept hstore rfl hhand
    (fun d hd => absurd (hfinishing ▸ hd : d ∈ []) List.not_mem_nil) (fun _ hc => hc) rfl rfl rfl

end Worker

/-! ## 5. Runs -/

/-- **The worker hands over no update of the stream while an older one waits.** -/
def OldestFirst (stream : TrackCommandStream) (s : TrackWorker) : Turn → Prop
  | .work _ =>
      match s.worker with
      | .applying cmd rest => cmd.stream = stream →
          ∀ c ∈ s.channel ++ s.store.pending ++ rest ++ s.enqueues.flatMap Enqueue.unlanded,
            c.stream = stream → cmd.revision < c.revision
      | _ => True
  | _ => True

/-- Pending has room, the oldest update goes first, and the stream's revisions do not saturate. -/
structure Deliverable (stream : TrackCommandStream) (s : TrackWorker) (t : Turn) : Prop where
  room : s.store.pending.length < s.store.pendingCap
  oldest : OldestFirst stream s t
  revision : ∀ job, t = .enqueue job → streamForCommand job = stream →
    s.store.revision.next stream < u64Max

section Runs

variable {stream : TrackCommandStream} {s s' : TrackWorker}

theorem flow_work (hinc : stream.Incremental) (h : Flow stream s) {succeeded : Bool}
    (hroom : s.store.pending.length < s.store.pendingCap)
    (holdest : OldestFirst stream s (.work succeeded)) (hs : s.work succeeded = some s') :
    Flow stream s' := by
  have htyped := h.typed_pending
  unfold work at hs
  unfold OldestFirst at holdest
  cases hw : s.worker with
  | receiving =>
      rw [hw] at hs
      dsimp only at hs
      cases hch : s.channel with
      | nil =>
          rw [hch] at hs
          cases hs
          rw [← hch]
          exact flow_worker h (.refl htyped) (by rw [hw]; rfl) rfl
      | cons cmd channel =>
          rw [hch] at hs
          cases hs
          exact flow_receive h hw hch
  | received cmd =>
      rw [hw] at hs
      cases hs
      exact flow_worker h ⟨htyped, rfl, rfl, rfl⟩ (by rw [hw]; rfl) rfl
  | noted cmd =>
      rw [hw] at hs
      cases hs
      exact flow_worker h (.refl htyped) (by rw [hw]; rfl) rfl
  | subtracted cmd =>
      rw [hw] at hs
      cases hs
      exact flow_worker h ⟨htyped, rfl, rfl, rfl⟩ (by rw [hw]; rfl) rfl
  | emptied =>
      rw [hw] at hs
      obtain ⟨res, hres, rfl⟩ := Option.map_eq_some_iff.mp hs
      exact flow_drain h hinc hw hres
  | applying cmd rest =>
      rw [hw] at hs
      rw [hw] at holdest
      obtain ⟨applicable, happ, rfl⟩ := Option.map_eq_some_iff.mp hs
      cases applicable with
      | true => exact flow_hand h hw holdest
      | false => exact flow_drop h hinc hw happ
  | handled cmd rest =>
      rw [hw] at hs
      obtain ⟨store, hstore, rfl⟩ := Option.map_eq_some_iff.mp hs
      have hcmd : cmd.Typed := (h.finishing cmd (by rw [hw]; exact List.mem_cons_self)).1
      by_cases hst : cmd.stream = stream
      · rw [settle_own hinc hcmd hst] at hstore
        cases hstore
        exact flow_settle_own h hw hst
      · exact flow_worker h (settle_other hinc htyped hroom hcmd hst hstore)
          (by rw [hw, WorkerPc.hand_next]; rfl) (WorkerPc.finishing_next rest)

/-- **Every deliverable step keeps the flow.** -/
theorem flow_turn (hinc : stream.Incremental) (h : Flow stream s) {t : Turn}
    (hgood : Deliverable stream s t) (hs : Step s t s') : Flow stream s' := by
  cases t with
  | enqueue job => exact flow_tryEnqueue h hinc hgood.room (hgood.revision job rfl) hs
  | proceed i =>
      obtain ⟨call, hcall, hs⟩ := Option.bind_eq_some_iff.mp hs
      obtain ⟨res, hres, rfl⟩ := Option.map_eq_some_iff.mp hs
      exact flow_proceed h hinc hgood.room hcall hres
  | work succeeded => exact flow_work hinc h hgood.room hgood.oldest hs

theorem flow_run (hinc : stream.Incremental) {queueCapacity pendingCap : Nat} {turns : List Turn}
    (hr : Machine.Run (Machine.Guarded Step (Deliverable stream)) (spawn queueCapacity pendingCap)
      turns s) : Flow stream s :=
  Machine.Run.invariant (I := fun _ s => Flow stream s) (flow_spawn stream queueCapacity pendingCap)
    (fun _ _ _ _ _ h hs => flow_turn hinc h hs.2 hs.1) hr

/-- **No update of the stream was dropped, and every accepted one was handed over**, alone or
    merged, or is in the worker's hand. -/
structure Delivered (stream : TrackCommandStream) (s : TrackWorker) : Prop where
  kept : ∀ c ∈ s.discarded, c.stream ≠ stream
  inHand : ∃ load, Carried Carries (part stream (s.handedOver ++ s.worker.hand)) load ∧
    demandOf stream s.accepted ≤ load
  handed : s.worker.hand = [] → ∃ load, Carried Carries (part stream s.handedOver) load ∧
    demandOf stream s.accepted ≤ load

theorem Flow.delivered (h : Flow stream s) (hchannel : s.channel = [])
    (hpending : s.store.pending = []) : Delivered stream s := by
  have hcarried := h.carried
  have hle : demandOf stream s.accepted ≤ demand stream s := Multiset.le_add_right _ _
  unfold carriers at hcarried
  rw [hchannel, hpending, part_nil, add_zero, add_zero] at hcarried
  refine ⟨h.kept, ⟨_, ?_, hle⟩, fun hhand => ⟨_, ?_, hle⟩⟩
  · rw [part_append]
    exact hcarried
  · rw [hhand, part_nil, add_zero] at hcarried
    exact hcarried

/-- **In every run in which pending has room and the oldest update goes first, no accepted update
    is lost once the channel and pending are empty.** -/
theorem delivered_of_oldestFirst (hinc : stream.Incremental) {queueCapacity pendingCap : Nat}
    {turns : List Turn}
    (hr : Machine.Run (Machine.Guarded Step (Deliverable stream)) (spawn queueCapacity pendingCap)
      turns s)
    (hchannel : s.channel = []) (hpending : s.store.pending = []) : Delivered stream s :=
  (flow_run hinc hr).delivered hchannel hpending

/-- An update that activates one pool. -/
def activating (pool : String) : TrackWorkerCommand :=
  .applyMomentumActivePools ⟨1, 0, [⟨"mint", pool, .tracker⟩], [], false⟩

/-- Two staged updates, merged, drained and handed over. -/
theorem delivered_of_staged_updates :
    ∃ s, (spawn 0 8).follow [.enqueue (activating "first"), .proceed 0, .proceed 0,
        .enqueue (activating "second"), .proceed 0, .proceed 0,
        .work true, .work true, .work true, .work true] = some s ∧
      s.handedOver.length = 1 ∧ s.accepted = [activating "first", activating "second"] ∧
      Delivered .momentum s := by
  have hroom : ∀ n, n < 2 → n < 8 := by omega
  have hnever : ∀ {t : Turn} {n : Nat}, (∀ job, t ≠ .enqueue job) → ∀ job, t = .enqueue job →
      streamForCommand job = .momentum → n < u64Max := fun hne job h => absurd h (hne job)
  refine ⟨_, rfl, rfl, rfl, @delivered_of_oldestFirst .momentum _ (Or.inl rfl) 0 8
    [.enqueue (activating "first"), .proceed 0, .proceed 0, .enqueue (activating "second"),
      .proceed 0, .proceed 0, .work true, .work true, .work true, .work true] ?_ rfl rfl⟩
  refine .cons ⟨rfl, hroom 0 (by decide), trivial, fun _ _ _ => (by decide : 0 < u64Max)⟩ ?_
  refine .cons ⟨rfl, hroom 0 (by decide), trivial, hnever (fun _ => nofun)⟩ ?_
  refine .cons ⟨rfl, hroom 0 (by decide), trivial, hnever (fun _ => nofun)⟩ ?_
  refine .cons ⟨rfl, hroom 1 (by decide), trivial, fun _ _ _ => (by decide : 1 < u64Max)⟩ ?_
  refine .cons ⟨rfl, hroom 1 (by decide), trivial, hnever (fun _ => nofun)⟩ ?_
  refine .cons ⟨rfl, hroom 1 (by decide), trivial, hnever (fun _ => nofun)⟩ ?_
  refine .cons ⟨rfl, hroom 1 (by decide), trivial, hnever (fun _ => nofun)⟩ ?_
  refine .cons ⟨rfl, hroom 1 (by decide), trivial, hnever (fun _ => nofun)⟩ ?_
  -- the handler gets the merged update: nothing else waits
  refine .cons ⟨rfl, hroom 0 (by decide), fun _ c hc => absurd hc List.not_mem_nil,
    hnever (fun _ => nofun)⟩ ?_
  exact .single ⟨rfl, hroom 0 (by decide), trivial, hnever (fun _ => nofun)⟩

/-- **One producer: the second update is staged because the queue is full, the third goes through
    the channel, and the drain drops the second.** -/
theorem staged_update_is_superseded :
    ∃ s, Machine.Run Step (spawn 1 8) [
        .enqueue (activating "first"), .proceed 0, .proceed 0, .proceed 0, .proceed 0,
        .enqueue (activating "second"), .proceed 0, .proceed 0,
        .work true, .work true, .work true, .work true, .work true, .work true,
        .enqueue (activating "third"), .proceed 0, .proceed 0, .proceed 0, .proceed 0,
        .work true, .work true, .work true, .work true, .work true, .work true,
        .work true, .work true] s ∧
      s.channel = [] ∧ s.store.pending = [] ∧ s.worker.hand = [] ∧
      s.accepted = [activating "first", activating "second", activating "third"] ∧
      s.handedOver.map (·.payload) = [activating "first", activating "third"] ∧
      s.discarded = [⟨.momentum, 2, activating "second"⟩] ∧ ¬ Delivered .momentum s := by
  refine ⟨_, run_of_follow rfl, rfl, rfl, rfl, rfl, rfl, rfl, fun h => ?_⟩
  exact h.kept ⟨.momentum, 2, activating "second"⟩ List.mem_cons_self rfl

end Runs

end TrackWorker

end IronCrab.Track

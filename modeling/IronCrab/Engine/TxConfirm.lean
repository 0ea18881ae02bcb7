/-
  File:      IronCrab/Engine/TxConfirm.lean
  Subject:   THE HAND-OFF OF A TRANSACTION'S CONFIRMATION (src/bin/execution_engine.rs), critical
             section by critical section.

  A sender registers a waiter for its signature, the main loop dispatches `WalletTxConfirmed`
  messages to waiters; a message that finds no waiter is buffered as an orphan. The two maps are
  under two separate locks. Here every critical section is one step of a task, any number of
  tasks run, and a list of labels is an interleaving.

  * `Caught` -- the two ways a dispatch can reach the waiter: it looks for the waiter after the
    waiter was inserted, or it buffers before the waiter looks a second time;
  * `handOff_step` -- the invariant of one registration against any number of dispatches;
  * **`confirm_handed_off_iff`** -- the receiver ends up with exactly one dispatched notification
    if and only if some dispatch was caught; so `confirm_via_jetstream` reports a timeout exactly
    when none was;
  * `confirm_lost` -- the interleaving in which none is.

  The guard on the orphan map that `recheckOrphan` takes is in fact held until `handOver` is done;
  the model lets other tasks in between, which only adds interleavings.
-/
import IronCrab.Lib.Machine

namespace IronCrab

/-! ## 1. The maps and the tasks -/

/-- Payload delivered when a pending TX receives `WalletTxConfirmed`. -/
structure WalletTxConfirmNotify where
  slot : UInt64
  err : Option String
  deriving DecidableEq

/-- Orphan confirm buffered before the waiter was registered. -/
structure OrphanTxConfirmEntry where
  notify : WalletTxConfirmNotify
  bufferedAt : Nat

/-- `ORPHAN_TX_CONFIRM_TTL`, in milliseconds. -/
def orphanTxConfirmTtl : Nat := 120000

abbrev TaskId := Nat

/-- Where `register_wallet_tx_confirm_waiter` stands: before each of its critical sections. -/
inductive RegisterAt where
  | removeOrphan
  | insertPending
  | recheckOrphan
  | handOver (orphan : WalletTxConfirmNotify)
  | returned
  deriving DecidableEq

/-- Where `dispatch_wallet_tx_confirmed` stands. -/
inductive DispatchAt where
  | removePending
  | bufferOrphan
  | returned
  deriving DecidableEq

inductive ConfirmTask where
  | registering (signature : String) (at_ : RegisterAt)
  | dispatching (signature : String) (notify : WalletTxConfirmNotify) (at_ : DispatchAt)
  deriving DecidableEq

/-- The two maps, the tasks, and what has been sent to each registration's receiver. A oneshot
    sender is named by the registration that made it. -/
structure ConfirmHub where
  pendingTxConfirms : String → Option TaskId
  recentOrphanTxConfirms : String → Option OrphanTxConfirmEntry
  tasks : TaskId → Option ConfirmTask
  delivered : TaskId → List WalletTxConfirmNotify

/-- One step: a task's next critical section, an eviction, or the `pending.remove` at the end of
    another signature's confirmation. -/
inductive ConfirmLabel where
  | task (id : TaskId) (now : Nat)
  | evictStaleOrphanTxConfirms (now : Nat)
  | forgetPending (signature : String)

namespace ConfirmHub

def setPending (h : ConfirmHub) (sig : String) (v : Option TaskId) : ConfirmHub :=
  { h with pendingTxConfirms := fun s => if s = sig then v else h.pendingTxConfirms s }

def setOrphan (h : ConfirmHub) (sig : String) (v : Option OrphanTxConfirmEntry) : ConfirmHub :=
  { h with recentOrphanTxConfirms := fun s => if s = sig then v else h.recentOrphanTxConfirms s }

def setTask (h : ConfirmHub) (id : TaskId) (t : ConfirmTask) : ConfirmHub :=
  { h with tasks := fun i => if i = id then some t else h.tasks i }

/-- `notify_tx.send(notify)`. -/
def deliver (h : ConfirmHub) (id : TaskId) (n : WalletTxConfirmNotify) : ConfirmHub :=
  { h with delivered := fun i => if i = id then h.delivered i ++ [n] else h.delivered i }

/-- The next critical section of `register_wallet_tx_confirm_waiter`. -/
def stepRegister (h : ConfirmHub) (id : TaskId) (sig : String) : RegisterAt → ConfirmHub
  | .removeOrphan => match h.recentOrphanTxConfirms sig with
      | some orphan => ((h.setOrphan sig none).deliver id orphan.notify).setTask id
          (.registering sig .returned)
      | none => h.setTask id (.registering sig .insertPending)
  | .insertPending => (h.setPending sig (some id)).setTask id (.registering sig .recheckOrphan)
  | .recheckOrphan => match h.recentOrphanTxConfirms sig with
      | some orphan => (h.setOrphan sig none).setTask id
          (.registering sig (.handOver orphan.notify))
      | none => h.setTask id (.registering sig .returned)
  | .handOver orphan => match h.pendingTxConfirms sig with
      | some waiter => ((h.setPending sig none).deliver waiter orphan).setTask id
          (.registering sig .returned)
      | none => h.setTask id (.registering sig .returned)
  | .returned => h

/-- The next critical section of `dispatch_wallet_tx_confirmed`. -/
def stepDispatch (h : ConfirmHub) (id : TaskId) (sig : String) (n : WalletTxConfirmNotify)
    (now : Nat) : DispatchAt → ConfirmHub
  | .removePending => match h.pendingTxConfirms sig with
      | some waiter => ((h.setPending sig none).deliver waiter n).setTask id
          (.dispatching sig n .returned)
      | none => h.setTask id (.dispatching sig n .bufferOrphan)
  | .bufferOrphan => (h.setOrphan sig (some ⟨n, now⟩)).setTask id (.dispatching sig n .returned)
  | .returned => h

/-- `evict_stale_orphan_tx_confirms` with the default TTL. -/
def evict (h : ConfirmHub) (now : Nat) : ConfirmHub :=
  { h with
    recentOrphanTxConfirms := fun s => (h.recentOrphanTxConfirms s).filter
      fun entry => decide (now - entry.bufferedAt < orphanTxConfirmTtl) }

def step (h : ConfirmHub) : ConfirmLabel → ConfirmHub
  | .task id now => match h.tasks id with
      | some (.registering sig pc) => h.stepRegister id sig pc
      | some (.dispatching sig n pc) => h.stepDispatch id sig n now pc
      | none => h
  | .evictStaleOrphanTxConfirms now => h.evict now
  | .forgetPending sig => h.setPending sig none

theorem step_registering {h : ConfirmHub} {id : TaskId} {sig : String} {pc : RegisterAt}
    (hid : h.tasks id = some (.registering sig pc)) (now : Nat) :
    h.step (.task id now) = h.stepRegister id sig pc := by
  simp only [step, hid]

theorem step_dispatching {h : ConfirmHub} {id : TaskId} {sig : String}
    {n : WalletTxConfirmNotify} {pc : DispatchAt}
    (hid : h.tasks id = some (.dispatching sig n pc)) (now : Nat) :
    h.step (.task id now) = h.stepDispatch id sig n now pc := by
  simp only [step, hid]

theorem step_noTask {h : ConfirmHub} {id : TaskId} (hid : h.tasks id = none) (now : Nat) :
    h.step (.task id now) = h := by
  simp only [step, hid]

end ConfirmHub

/-! ## 2. `confirm_via_jetstream` -/

inductive ConfirmOutcome where
  | confirmed (details : String) (slot : Option UInt64)
  | failedConfirmed (details : String) (slot : Option UInt64)
  | timeoutSent (details : String)
  deriving DecidableEq

def ConfirmOutcome.isTimeout : ConfirmOutcome → Bool
  | timeoutSent _ => true
  | _ => false

/-- `confirm_via_jetstream`: `received` is what the receiver holds when the `select!` over it and
    the deadline resolves; without a value the deadline resolves it. -/
def confirmViaJetstream (enabled : Bool) (signatureBase58 : String) (elapsedMs : Nat)
    (received : Option WalletTxConfirmNotify) : ConfirmOutcome :=
  if !enabled then
    .timeoutSent s!"method=jetstream_disabled elapsed_ms={elapsedMs} signature={signatureBase58}"
  else match received with
    | some ⟨slot, none⟩ =>
        .confirmed
          s!"method=jetstream slot={slot} elapsed_ms={elapsedMs} signature={signatureBase58}"
          (some slot)
    | some ⟨slot, some err⟩ =>
        let where_ := s!"slot={slot} elapsed_ms={elapsedMs} signature={signatureBase58}"
        .failedConfirmed s!"method=jetstream err={err} {where_}" (some slot)
    | none =>
        .timeoutSent
          s!"method=jetstream_deadline elapsed_ms={elapsedMs} signature={signatureBase58}"

/-- With JetStream confirmation on, a timeout is reported just when nothing was received. -/
theorem confirmViaJetstream_timeout_iff (sig : String) (ms : Nat)
    (received : Option WalletTxConfirmNotify) :
    (confirmViaJetstream true sig ms received).isTimeout = true ↔ received = none := by
  cases received with
  | none => exact ⟨fun _ => rfl, fun _ => rfl⟩
  | some n =>
      obtain ⟨slot, err⟩ := n
      cases err with
      | none => exact ⟨nofun, nofun⟩
      | some e => exact ⟨nofun, nofun⟩

/-! ## 3. One registration against dispatches -/

section HandOff

variable (sig : String) (reg : TaskId)

/-- The other tasks of the signature are dispatches. -/
def OnlyDispatches (h : ConfirmHub) : Prop :=
  ∀ id pc, h.tasks id = some (.registering sig pc) → id = reg

/-- Where the hand-off starts: one registration of the signature, dispatches of it (at least
    one), nothing pending or buffered for it, anything else for other signatures. -/
structure HandOffStart (h : ConfirmHub) : Prop where
  registration : h.tasks reg = some (.registering sig .removeOrphan)
  others : OnlyDispatches sig reg h
  dispatches : ∀ id n pc, h.tasks id = some (.dispatching sig n pc) → pc = .removePending
  someDispatch : ∃ id n, h.tasks id = some (.dispatching sig n .removePending)
  noPending : ∀ s, h.pendingTxConfirms s ≠ some reg
  noWaiter : h.pendingTxConfirms sig = none
  noOrphan : h.recentOrphanTxConfirms sig = none
  nothingSent : h.delivered reg = []

/-- No eviction of a fresh entry, and no other confirmation of the same signature. -/
def Undisturbed (h : ConfirmHub) : ConfirmLabel → Prop
  | .task _ _ => True
  | .evictStaleOrphanTxConfirms now => ∀ entry, h.recentOrphanTxConfirms sig = some entry →
      now - entry.bufferedAt < orphanTxConfirmTtl
  | .forgetPending s => s ≠ sig

/-- The registration has inserted its waiter. -/
def RegisterAt.inserted : RegisterAt → Bool
  | removeOrphan => false
  | insertPending => false
  | _ => true

/-- The registration will still look into the orphan buffer. -/
def RegisterAt.willLook : RegisterAt → Bool
  | removeOrphan => true
  | insertPending => true
  | recheckOrphan => true
  | _ => false

/-- **A dispatch of the signature is caught**: it looks for the waiter once the waiter was
    inserted, or it buffers while the registration will still look into the buffer. -/
def Caught (h : ConfirmHub) (l : ConfirmLabel) : Prop :=
  ∃ id now n pc, l = .task id now ∧ h.tasks reg = some (.registering sig pc) ∧
    ((h.tasks id = some (.dispatching sig n .removePending) ∧ pc.inserted = true) ∨
      (h.tasks id = some (.dispatching sig n .bufferOrphan) ∧ pc.willLook = true))

/-- A notification of one of the signature's dispatches. -/
def Dispatched (h : ConfirmHub) (n : WalletTxConfirmNotify) : Prop :=
  ∃ id pc, h.tasks id = some (.dispatching sig n pc)

/-- Exactly one notification has reached the receiver, and the waiter is gone. -/
def Delivered (h : ConfirmHub) : Prop :=
  h.pendingTxConfirms sig = none ∧ ∃ n, h.delivered reg = [n] ∧ Dispatched sig h n

/-- The waiter stands in the map and has received nothing. -/
def Waiting (h : ConfirmHub) : Prop :=
  h.pendingTxConfirms sig = some reg ∧ h.delivered reg = []

/-- What holds of the hand-off wherever the registration stands; `caught` says whether some
    dispatch has been caught so far. -/
def HandOffAt (caught : Prop) (h : ConfirmHub) : RegisterAt → Prop
  | .removeOrphan => h.pendingTxConfirms sig = none ∧ h.delivered reg = [] ∧
      (caught ↔ h.recentOrphanTxConfirms sig ≠ none)
  | .insertPending => h.pendingTxConfirms sig = none ∧ h.delivered reg = [] ∧
      (caught ↔ h.recentOrphanTxConfirms sig ≠ none)
  | .recheckOrphan => (Waiting sig reg h ∧ (caught ↔ h.recentOrphanTxConfirms sig ≠ none)) ∨
      (Delivered sig reg h ∧ caught)
  | .handOver orphan => Dispatched sig h orphan ∧ caught ∧
      (Waiting sig reg h ∨ Delivered sig reg h)
  | .returned => (Waiting sig reg h ∧ ¬ caught) ∨ (Delivered sig reg h ∧ caught)

/-- **The invariant of the hand-off.** -/
structure HandOff (caught : Prop) (h : ConfirmHub) : Prop where
  others : OnlyDispatches sig reg h
  named : ∀ s, s ≠ sig → h.pendingTxConfirms s ≠ some reg
  orphans : ∀ entry, h.recentOrphanTxConfirms sig = some entry → Dispatched sig h entry.notify
  place : ∃ pc, h.tasks reg = some (.registering sig pc) ∧ HandOffAt sig reg caught h pc

variable {sig reg} {c : Prop} {h h' : ConfirmHub}

theorem HandOff.congr {c' : Prop} (hc : c ↔ c') (hh : HandOff sig reg c h) :
    HandOff sig reg c' h := by
  have e : c = c' := propext hc
  rw [← e]
  exact hh

/-- The signature a task works for. -/
def ConfirmTask.signature : ConfirmTask → String
  | registering s _ => s
  | dispatching s _ _ => s

variable (sig reg) in
/-- A step that has nothing to do with the signature. -/
structure Foreign (h h' : ConfirmHub) : Prop where
  pending : h'.pendingTxConfirms sig = h.pendingTxConfirms sig
  orphan : h'.recentOrphanTxConfirms sig = h.recentOrphanTxConfirms sig
  delivered : h'.delivered reg = h.delivered reg
  tasks : ∀ id t, t.signature = sig → (h'.tasks id = some t ↔ h.tasks id = some t)
  named : ∀ s, s ≠ sig → h'.pendingTxConfirms s ≠ some reg

/-- The invariant outlives a foreign step. -/
theorem HandOff.foreign (hf : Foreign sig reg h h') (hh : HandOff sig reg c h) :
    HandOff sig reg c h' := by
  have hdisp : ∀ n, Dispatched sig h n → Dispatched sig h' n := by
    rintro n ⟨id, pc, hid⟩
    exact ⟨id, pc, (hf.tasks id _ rfl).mpr hid⟩
  have hwait : Waiting sig reg h → Waiting sig reg h' := by
    rintro ⟨hp, hd⟩
    exact ⟨hf.pending.trans hp, hf.delivered.trans hd⟩
  have hdel : Delivered sig reg h → Delivered sig reg h' := by
    rintro ⟨hp, n, hn, hd⟩
    exact ⟨hf.pending.trans hp, n, hf.delivered.trans hn, hdisp n hd⟩
  obtain ⟨pc, hreg, hat⟩ := hh.place
  refine ⟨fun id pc hid => hh.others id pc ((hf.tasks id _ rfl).mp hid), hf.named,
    fun entry he => hdisp _ (hh.orphans entry (hf.orphan ▸ he)),
    pc, (hf.tasks reg _ rfl).mpr hreg, ?_⟩
  cases pc with
  | removeOrphan =>
      obtain ⟨hp, hd, hc⟩ := hat
      exact ⟨hf.pending.trans hp, hf.delivered.trans hd, by rw [hf.orphan]; exact hc⟩
  | insertPending =>
      obtain ⟨hp, hd, hc⟩ := hat
      exact ⟨hf.pending.trans hp, hf.delivered.trans hd, by rw [hf.orphan]; exact hc⟩
  | recheckOrphan =>
      rcases hat with ⟨hw, hc⟩ | ⟨hd, hc⟩
      · exact .inl ⟨hwait hw, by rw [hf.orphan]; exact hc⟩
      · exact .inr ⟨hdel hd, hc⟩
  | handOver orphan =>
      obtain ⟨ho, hc, hw⟩ := hat
      exact ⟨hdisp _ ho, hc, hw.imp hwait hdel⟩
  | returned => exact hat.imp (fun ⟨hw, hc⟩ => ⟨hwait hw, hc⟩) (fun ⟨hd, hc⟩ => ⟨hdel hd, hc⟩)

/-- What a task that works for another signature does is foreign. -/
theorem foreign_setTask {id : TaskId} {t t' : ConfirmTask} (hid : h.tasks id = some t)
    (ht : t.signature ≠ sig) (ht' : t'.signature ≠ sig)
    (hn : ∀ s, s ≠ sig → h.pendingTxConfirms s ≠ some reg) :
    Foreign sig reg h (h.setTask id t') := by
  refine ⟨rfl, rfl, rfl, fun i u hu => ?_, hn⟩
  by_cases hi : i = id
  · subst hi
    have hl : (h.setTask i t').tasks i = some t' := if_pos rfl
    rw [hl, hid]
    constructor
    · intro e
      cases e
      exact absurd hu ht'
    · intro e
      cases e
      exact absurd hu ht
  · have hl : (h.setTask id t').tasks i = h.tasks i := if_neg hi
    rw [hl]

theorem foreign_setPending {s : String} (hs : s ≠ sig) {v : Option TaskId} (hv : v ≠ some reg)
    (hn : ∀ s, s ≠ sig → h.pendingTxConfirms s ≠ some reg) :
    Foreign sig reg h (h.setPending s v) := by
  refine ⟨if_neg fun e => hs e.symm, rfl, rfl, fun _ _ _ => Iff.rfl, fun s' hs' => ?_⟩
  show (if s' = s then v else h.pendingTxConfirms s') ≠ some reg
  by_cases he : s' = s
  · rw [if_pos he]
    exact hv
  · rw [if_neg he]
    exact hn s' hs'

theorem foreign_setOrphan {s : String} (hs : s ≠ sig) {v : Option OrphanTxConfirmEntry}
    (hn : ∀ s, s ≠ sig → h.pendingTxConfirms s ≠ some reg) :
    Foreign sig reg h (h.setOrphan s v) :=
  ⟨rfl, if_neg fun e => hs e.symm, rfl, fun _ _ _ => Iff.rfl, hn⟩

theorem foreign_deliver {id : TaskId} (hid : id ≠ reg) (n : WalletTxConfirmNotify)
    (hn : ∀ s, s ≠ sig → h.pendingTxConfirms s ≠ some reg) :
    Foreign sig reg h (h.deliver id n) :=
  ⟨rfl, rfl, if_neg fun e => hid e.symm, fun _ _ _ => Iff.rfl, hn⟩

theorem Foreign.trans {h'' : ConfirmHub} (h₁ : Foreign sig reg h h')
    (h₂ : Foreign sig reg h' h'') : Foreign sig reg h h'' :=
  ⟨h₂.pending.trans h₁.pending, h₂.orphan.trans h₁.orphan, h₂.delivered.trans h₁.delivered,
    fun id t ht => (h₂.tasks id t ht).trans (h₁.tasks id t ht), h₂.named⟩

/-- A step of a task for another signature is foreign. -/
theorem foreign_task {id : TaskId} {t : ConfirmTask} (hid : h.tasks id = some t)
    (ht : t.signature ≠ sig) (hne : id ≠ reg) (now : Nat)
    (hn : ∀ s, s ≠ sig → h.pendingTxConfirms s ≠ some reg) :
    Foreign sig reg h (h.step (.task id now)) := by
  have hmove : ∀ t' : ConfirmTask, t'.signature ≠ sig → ∀ h' : ConfirmHub,
      Foreign sig reg h h' → h'.tasks = h.tasks → Foreign sig reg h (h'.setTask id t') :=
    fun t' ht' h' hf htasks =>
      hf.trans (foreign_setTask (by rw [htasks]; exact hid) ht ht' hf.named)
  have hrefl : Foreign sig reg h h := ⟨rfl, rfl, rfl, fun _ _ _ => Iff.rfl, hn⟩
  cases t with
  | registering s pc =>
      have hs : s ≠ sig := ht
      have hmv := fun pc' => hmove (.registering s pc') ht
      rw [ConfirmHub.step_registering hid]
      unfold ConfirmHub.stepRegister
      cases pc with
      | removeOrphan =>
          cases h.recentOrphanTxConfirms s with
          | none => exact hmv _ _ hrefl rfl
          | some o =>
              have ho := foreign_setOrphan (v := none) hs hn
              exact hmv _ _ (ho.trans (foreign_deliver hne o.notify ho.named)) rfl
      | insertPending =>
          exact hmv _ _ (foreign_setPending hs (fun e => hne (Option.some.inj e)) hn) rfl
      | recheckOrphan =>
          cases h.recentOrphanTxConfirms s with
          | none => exact hmv _ _ hrefl rfl
          | some o => exact hmv _ _ (foreign_setOrphan hs hn) rfl
      | handOver o =>
          cases hp : h.pendingTxConfirms s with
          | none => exact hmv _ _ hrefl rfl
          | some w =>
              have hw : w ≠ reg := fun e => hn s hs (by rw [hp, e])
              have hset := foreign_setPending (v := none) hs nofun hn
              exact hmv _ _ (hset.trans (foreign_deliver hw o hset.named)) rfl
      | returned => exact hrefl
  | dispatching s n pc =>
      have hs : s ≠ sig := ht
      have hmv := fun pc' => hmove (.dispatching s n pc') ht
      rw [ConfirmHub.step_dispatching hid]
      unfold ConfirmHub.stepDispatch
      cases pc with
      | removePending =>
          cases hp : h.pendingTxConfirms s with
          | none => exact hmv _ _ hrefl rfl
          | some w =>
              have hw : w ≠ reg := fun e => hn s hs (by rw [hp, e])
              have hset := foreign_setPending (v := none) hs nofun hn
              exact hmv _ _ (hset.trans (foreign_deliver hw n hset.named)) rfl
      | bufferOrphan => exact hmv _ _ (foreign_setOrphan hs hn) rfl
      | returned => exact hrefl

/-! ## 4. The steps of the signature's own tasks -/

theorem dispatched_setTask {id : TaskId} {t' : ConfirmTask} {n : WalletTxConfirmNotify}
    (hkeep : ∀ n pc, h.tasks id = some (.dispatching sig n pc) →
      ∃ pc', t' = .dispatching sig n pc')
    (hd : Dispatched sig h n) : Dispatched sig (h.setTask id t') n := by
  obtain ⟨i, pc, hi⟩ := hd
  by_cases he : i = id
  · subst he
    obtain ⟨pc', hpc'⟩ := hkeep n pc hi
    exact ⟨i, pc', by rw [← hpc']; exact if_pos rfl⟩
  · exact ⟨i, pc, (if_neg he).trans hi⟩

/-- The registration's next section keeps the invariant. -/
theorem handOff_register {pc : RegisterAt} (hreg : h.tasks reg = some (.registering sig pc))
    (hh : HandOff sig reg c h) : HandOff sig reg c (h.stepRegister reg sig pc) := by
  have hat : HandOffAt sig reg c h pc := by
    obtain ⟨pc', hreg', hat⟩ := hh.place
    rw [hreg] at hreg'
    cases hreg'
    exact hat
  -- moving the registration's own place keeps what the other tasks are
  have hothers : ∀ pc', OnlyDispatches sig reg (h.setTask reg (.registering sig pc')) := by
    intro pc' id q hid
    by_cases he : id = reg
    · exact he
    · exact hh.others id q ((if_neg he).symm.trans hid)
  have hdisp : ∀ pc' n, Dispatched sig h n →
      Dispatched sig (h.setTask reg (.registering sig pc')) n := fun pc' n =>
    dispatched_setTask fun n q hq => by rw [hreg] at hq; cases hq
  have hself : ∀ (h' : ConfirmHub) pc', (h'.setTask reg (.registering sig pc')).tasks reg =
      some (.registering sig pc') := fun h' pc' => if_pos rfl
  unfold ConfirmHub.stepRegister
  cases pc with
  | removeOrphan =>
      obtain ⟨hp, hd, hc⟩ := hat
      cases ho : h.recentOrphanTxConfirms sig with
      | none =>
          refine ⟨hothers _, hh.named, fun e he => ?_, .insertPending, hself _ _, hp, hd, hc⟩
          exact hdisp _ _ (hh.orphans e he)
      | some o =>
          have hcaught : c := hc.mpr (by rw [ho]; exact nofun)
          have hnone : (if sig = sig then none else h.recentOrphanTxConfirms sig) = none :=
            if_pos rfl
          refine ⟨hothers _, hh.named, fun e he => ?_, .returned, hself _ _,
            .inr ⟨⟨hp, o.notify, ?_, hdisp _ _ (hh.orphans o ho)⟩, hcaught⟩⟩
          · have he' : (if sig = sig then none else h.recentOrphanTxConfirms sig) = some e := he
            rw [hnone] at he'
            cases he'
          · show (if reg = reg then h.delivered reg ++ [o.notify] else h.delivered reg) = _
            rw [if_pos rfl, hd]
            rfl
  | insertPending =>
      obtain ⟨hp, hd, hc⟩ := hat
      refine ⟨hothers _, fun s hs => ?_, fun e he => hdisp _ _ (hh.orphans e he),
        .recheckOrphan, hself _ _, .inl ⟨⟨if_pos rfl, hd⟩, hc⟩⟩
      show (if s = sig then some reg else h.pendingTxConfirms s) ≠ some reg
      rw [if_neg hs]
      exact hh.named s hs
  | recheckOrphan =>
      cases ho : h.recentOrphanTxConfirms sig with
      | none =>
          refine ⟨hothers _, hh.named, fun e he => ?_, .returned, hself _ _, ?_⟩
          · exact hdisp _ _ (hh.orphans e he)
          · rcases hat with ⟨hw, hc⟩ | ⟨⟨hp, n, hn, hd⟩, hc⟩
            · exact .inl ⟨hw, fun hcaught => hc.mp hcaught ho⟩
            · exact .inr ⟨⟨hp, n, hn, hdisp _ _ hd⟩, hc⟩
      | some o =>
          have hcaught : c := by
            rcases hat with ⟨_, hc⟩ | ⟨_, hc⟩
            · exact hc.mpr (by rw [ho]; exact nofun)
            · exact hc
          refine ⟨hothers _, hh.named, fun e he => ?_, .handOver o.notify, hself _ _,
            hdisp _ _ (hh.orphans o ho), hcaught, ?_⟩
          · have he' : (if sig = sig then none else h.recentOrphanTxConfirms sig) = some e := he
            rw [if_pos rfl] at he'
            cases he'
          · rcases hat with ⟨hw, _⟩ | ⟨⟨hp, n, hn, hd⟩, _⟩
            · exact .inl hw
            · exact .inr ⟨hp, n, hn, hdisp _ _ hd⟩
  | handOver o =>
      obtain ⟨ho, hc, hw⟩ := hat
      cases hp : h.pendingTxConfirms sig with
      | none =>
          refine ⟨hothers _, hh.named, fun e he => hdisp _ _ (hh.orphans e he), .returned,
            hself _ _, ?_⟩
          rcases hw with ⟨hp', _⟩ | ⟨_, n, hn, hd⟩
          · rw [hp] at hp'
            cases hp'
          · exact .inr ⟨⟨hp, n, hn, hdisp _ _ hd⟩, hc⟩
      | some w =>
          rcases hw with ⟨hp', hd⟩ | ⟨hp', _⟩
          · rw [hp] at hp'
            cases hp'
            refine ⟨hothers _, fun s hs => ?_, fun e he => hdisp _ _ (hh.orphans e he), .returned,
              hself _ _, .inr ⟨⟨if_pos rfl, o, ?_, hdisp _ _ ho⟩, hc⟩⟩
            · show (if s = sig then none else h.pendingTxConfirms s) ≠ some reg
              rw [if_neg hs]
              exact hh.named s hs
            · show (if reg = reg then h.delivered reg ++ [o] else h.delivered reg) = _
              rw [if_pos rfl, hd]
              rfl
          · rw [hp] at hp'
            cases hp'
  | returned => exact hh

/-- When a step of a dispatch catches. -/
theorem caught_dispatch {id : TaskId} {n : WalletTxConfirmNotify} {pc : DispatchAt}
    {pr : RegisterAt} (hreg : h.tasks reg = some (.registering sig pr))
    (hid : h.tasks id = some (.dispatching sig n pc)) (now : Nat) :
    Caught sig reg h (.task id now) ↔
      (pc = .removePending ∧ pr.inserted = true) ∨ (pc = .bufferOrphan ∧ pr.willLook = true) := by
  constructor
  · rintro ⟨id', now', n', pr', hl, hreg', hcase⟩
    cases hl
    rw [hreg] at hreg'
    cases hreg'
    rcases hcase with ⟨hid', hp⟩ | ⟨hid', hp⟩
    · rw [hid] at hid'
      cases hid'
      exact .inl ⟨rfl, hp⟩
    · rw [hid] at hid'
      cases hid'
      exact .inr ⟨rfl, hp⟩
  · rintro (⟨rfl, hp⟩ | ⟨rfl, hp⟩)
    · exact ⟨id, now, n, pr, rfl, hreg, .inl ⟨hid, hp⟩⟩
    · exact ⟨id, now, n, pr, rfl, hreg, .inr ⟨hid, hp⟩⟩

/-- A registering task is not the dispatch that runs. -/
theorem dispatch_ne_reg {id : TaskId} {n : WalletTxConfirmNotify} {pc : DispatchAt}
    {pr : RegisterAt} (hreg : h.tasks reg = some (.registering sig pr))
    (hid : h.tasks id = some (.dispatching sig n pc)) : id ≠ reg := by
  intro e
  rw [e, hreg] at hid
  cases hid

theorem onlyDispatches_moved (ho : OnlyDispatches sig reg h) (id : TaskId)
    (n : WalletTxConfirmNotify) (q : DispatchAt) :
    OnlyDispatches sig reg (h.setTask id (.dispatching sig n q)) := by
  intro i r hi
  by_cases he : i = id
  · subst he
    have hi' : some (ConfirmTask.dispatching sig n q) = some (.registering sig r) :=
      (if_pos rfl).symm.trans hi
    cases hi'
  · exact ho i r ((if_neg he).symm.trans hi)

theorem dispatched_moved {id : TaskId} {n : WalletTxConfirmNotify} {pc : DispatchAt}
    (hid : h.tasks id = some (.dispatching sig n pc)) (q : DispatchAt)
    {n' : WalletTxConfirmNotify} (hd : Dispatched sig h n') :
    Dispatched sig (h.setTask id (.dispatching sig n q)) n' := by
  refine dispatched_setTask (fun n'' q' hq => ?_) hd
  rw [hid] at hq
  cases hq
  exact ⟨q, rfl⟩

theorem delivered_moved {id : TaskId} {n : WalletTxConfirmNotify} {pc : DispatchAt}
    (hid : h.tasks id = some (.dispatching sig n pc)) (q : DispatchAt)
    (hd : Delivered sig reg h) : Delivered sig reg (h.setTask id (.dispatching sig n q)) := by
  obtain ⟨hp, m, hm, hd⟩ := hd
  exact ⟨hp, m, hm, dispatched_moved hid q hd⟩

/-- A pending entry for the signature can only be the registration's own: it is inserted, and
waits. -/
theorem waiting_of_pending {pr : RegisterAt} {w : TaskId} (hat : HandOffAt sig reg c h pr)
    (hp : h.pendingTxConfirms sig = some w) : pr.inserted = true ∧ Waiting sig reg h := by
  have hsome : h.pendingTxConfirms sig ≠ none := by
    rw [hp]
    exact nofun
  cases pr with
  | removeOrphan => exact absurd hat.1 hsome
  | insertPending => exact absurd hat.1 hsome
  | recheckOrphan =>
      rcases hat with ⟨hw, _⟩ | ⟨⟨hp', _⟩, _⟩
      · exact ⟨rfl, hw⟩
      · exact absurd hp' hsome
  | handOver o =>
      rcases hat.2.2 with hw | ⟨hp', _⟩
      · exact ⟨rfl, hw⟩
      · exact absurd hp' hsome
  | returned =>
      rcases hat with ⟨hw, _⟩ | ⟨⟨hp', _⟩, _⟩
      · exact ⟨rfl, hw⟩
      · exact absurd hp' hsome

/-- A dispatch that finds no pending entry: the registration has none either, or was served. -/
theorem handOffAt_dispatch_unregistered {id : TaskId} {n : WalletTxConfirmNotify}
    {pr : RegisterAt} (hreg : h.tasks reg = some (.registering sig pr))
    (hid : h.tasks id = some (.dispatching sig n .removePending)) (now : Nat)
    (hp : h.pendingTxConfirms sig = none) (hat : HandOffAt sig reg c h pr) :
    HandOffAt sig reg (c ∨ Caught sig reg h (.task id now))
      (h.setTask id (.dispatching sig n .bufferOrphan)) pr := by
  have hcatch := caught_dispatch hreg hid now
  have hnot : ¬ Waiting sig reg h := by
    rintro ⟨hp', _⟩
    rw [hp] at hp'
    cases hp'
  have hmiss : pr.inserted = false → ¬ Caught sig reg h (.task id now) := by
    intro hi hc
    rcases hcatch.mp hc with ⟨_, h0⟩ | ⟨h0, _⟩
    · rw [hi] at h0
      cases h0
    · cases h0
  cases pr with
  | removeOrphan =>
      obtain ⟨_, hd, hc⟩ := hat
      exact ⟨hp, hd, Iff.trans (or_iff_left (hmiss rfl)) hc⟩
  | insertPending =>
      obtain ⟨_, hd, hc⟩ := hat
      exact ⟨hp, hd, Iff.trans (or_iff_left (hmiss rfl)) hc⟩
  | recheckOrphan =>
      rcases hat with ⟨hw, _⟩ | ⟨hd, hc⟩
      · exact absurd hw hnot
      · exact .inr ⟨delivered_moved hid _ hd, .inl hc⟩
  | handOver o =>
      obtain ⟨ho, hc, hw⟩ := hat
      refine ⟨dispatched_moved hid _ ho, .inl hc, ?_⟩
      rcases hw with hw | hd
      · exact absurd hw hnot
      · exact .inr (delivered_moved hid _ hd)
  | returned =>
      rcases hat with ⟨hw, _⟩ | ⟨hd, hc⟩
      · exact absurd hw hnot
      · exact .inr ⟨delivered_moved hid _ hd, .inl hc⟩

/-- A dispatch that takes the pending entry serves the registration. -/
theorem handOffAt_dispatch_served {id : TaskId} {n : WalletTxConfirmNotify} {pr : RegisterAt}
    (hreg : h.tasks reg = some (.registering sig pr))
    (hid : h.tasks id = some (.dispatching sig n .removePending)) (now : Nat)
    (hins : pr.inserted = true) (hw : Waiting sig reg h) (hat : HandOffAt sig reg c h pr) :
    HandOffAt sig reg (c ∨ Caught sig reg h (.task id now))
      (((h.setPending sig none).deliver reg n).setTask id (.dispatching sig n .returned)) pr := by
  have hcaught : c ∨ Caught sig reg h (.task id now) :=
    .inr ((caught_dispatch hreg hid now).mpr (.inl ⟨rfl, hins⟩))
  have hdel : Delivered sig reg
      (((h.setPending sig none).deliver reg n).setTask id (.dispatching sig n .returned)) := by
    refine ⟨if_pos rfl, n, ?_, dispatched_moved hid .returned ⟨id, .removePending, hid⟩⟩
    show (if reg = reg then h.delivered reg ++ [n] else h.delivered reg) = _
    rw [if_pos rfl, hw.2]
    rfl
  cases pr with
  | removeOrphan => cases hins
  | insertPending => cases hins
  | recheckOrphan => exact .inr ⟨hdel, hcaught⟩
  | handOver o => exact ⟨dispatched_moved hid .returned hat.1, hcaught, .inr hdel⟩
  | returned => exact .inr ⟨hdel, hcaught⟩

/-- A dispatch that buffers its orphan: a registration that will still look catches it. -/
theorem handOffAt_dispatch_buffered {id : TaskId} {n : WalletTxConfirmNotify} {pr : RegisterAt}
    (hreg : h.tasks reg = some (.registering sig pr))
    (hid : h.tasks id = some (.dispatching sig n .bufferOrphan)) (now : Nat)
    (hat : HandOffAt sig reg c h pr) :
    HandOffAt sig reg (c ∨ Caught sig reg h (.task id now))
      ((h.setOrphan sig (some ⟨n, now⟩)).setTask id (.dispatching sig n .returned)) pr := by
  have hcatch := caught_dispatch hreg hid now
  have hsome : ((h.setOrphan sig (some ⟨n, now⟩)).setTask id
      (.dispatching sig n .returned)).recentOrphanTxConfirms sig ≠ none := by
    have horphan : ((h.setOrphan sig (some ⟨n, now⟩)).setTask id
        (.dispatching sig n .returned)).recentOrphanTxConfirms sig = some ⟨n, now⟩ := if_pos rfl
    rw [horphan]
    exact nofun
  have hcaught : pr.willLook = true → c ∨ Caught sig reg h (.task id now) :=
    fun hw => .inr (hcatch.mpr (.inr ⟨rfl, hw⟩))
  have hdel : Delivered sig reg h → Delivered sig reg
      ((h.setOrphan sig (some ⟨n, now⟩)).setTask id (.dispatching sig n .returned)) :=
    delivered_moved hid .returned
  cases pr with
  | removeOrphan => exact ⟨hat.1, hat.2.1, fun _ => hsome, fun _ => hcaught rfl⟩
  | insertPending => exact ⟨hat.1, hat.2.1, fun _ => hsome, fun _ => hcaught rfl⟩
  | recheckOrphan =>
      rcases hat with ⟨hw, _⟩ | ⟨hd, hc⟩
      · exact .inl ⟨hw, fun _ => hsome, fun _ => hcaught rfl⟩
      · exact .inr ⟨hdel hd, .inl hc⟩
  | handOver o =>
      obtain ⟨ho, hc, hw⟩ := hat
      exact ⟨dispatched_moved hid .returned ho, .inl hc, hw.imp (fun hw => hw) hdel⟩
  | returned =>
      rcases hat with ⟨hw, hc⟩ | ⟨hd, hc⟩
      · refine .inl ⟨hw, ?_⟩
        rintro (h0 | h0)
        · exact hc h0
        · rcases hcatch.mp h0 with ⟨h1, _⟩ | ⟨_, h1⟩
          · cases h1
          · cases h1
      · exact .inr ⟨hdel hd, .inl hc⟩

/-- A dispatch's next section keeps the invariant, and remembers whether it caught. -/
theorem handOff_dispatch {id : TaskId} {n : WalletTxConfirmNotify} {pc : DispatchAt}
    (hid : h.tasks id = some (.dispatching sig n pc)) (now : Nat) (hh : HandOff sig reg c h) :
    HandOff sig reg (c ∨ Caught sig reg h (.task id now)) (h.stepDispatch id sig n now pc) := by
  obtain ⟨pr, hreg, hat⟩ := hh.place
  have hne := dispatch_ne_reg hreg hid
  have hothers := onlyDispatches_moved hh.others id n
  have hregAfter : ∀ (h' : ConfirmHub) q, h'.tasks = h.tasks →
      (h'.setTask id (.dispatching sig n q)).tasks reg = some (.registering sig pr) :=
    fun h' q ht => (if_neg fun e => hne e.symm).trans ((congrFun ht reg).trans hreg)
  unfold ConfirmHub.stepDispatch
  cases pc with
  | removePending =>
      cases hp : h.pendingTxConfirms sig with
      | none =>
          exact ⟨hothers _, hh.named, fun e he => dispatched_moved hid _ (hh.orphans e he), pr,
            hregAfter h _ rfl, handOffAt_dispatch_unregistered hreg hid now hp hat⟩
      | some w =>
          obtain ⟨hins, hw⟩ := waiting_of_pending hat hp
          have hwreg : w = reg := Option.some.inj (hp.symm.trans hw.1)
          subst hwreg
          refine ⟨hothers _, fun s hs => ?_,
            fun e he => dispatched_moved hid .returned (hh.orphans e he), pr,
            hregAfter _ _ rfl, handOffAt_dispatch_served hreg hid now hins hw hat⟩
          show (if s = sig then none else h.pendingTxConfirms s) ≠ some w
          rw [if_neg hs]
          exact hh.named s hs
  | bufferOrphan =>
      refine ⟨hothers _, hh.named, fun e he => ?_, pr, hregAfter _ _ rfl,
        handOffAt_dispatch_buffered hreg hid now hat⟩
      have horphan : some (OrphanTxConfirmEntry.mk n now) = some e := (if_pos rfl).symm.trans he
      cases horphan
      exact dispatched_moved hid .returned ⟨id, .bufferOrphan, hid⟩
  | returned =>
      refine hh.congr (or_iff_left ?_).symm
      rw [caught_dispatch hreg hid now]
      rintro (⟨h0, _⟩ | ⟨h0, _⟩) <;> cases h0

/-- **One step of anybody keeps the invariant**, and remembers whether it caught. -/
theorem handOff_step (l : ConfirmLabel) (hl : Undisturbed sig h l) (hh : HandOff sig reg c h) :
    HandOff sig reg (c ∨ Caught sig reg h l) (h.step l) := by
  have hkeep : (∀ id now, l = .task id now → ∀ n pc, h.tasks id ≠ some (.dispatching sig n pc)) →
      HandOff sig reg c (h.step l) → HandOff sig reg (c ∨ Caught sig reg h l) (h.step l) := by
    refine fun hno => HandOff.congr (or_iff_left ?_).symm
    rintro ⟨id, now, n, pc, rfl, _, ⟨hid, _⟩ | ⟨hid, _⟩⟩ <;> exact hno id now rfl _ _ hid
  cases l with
  | evictStaleOrphanTxConfirms now =>
      suffices horphan : (h.step (.evictStaleOrphanTxConfirms now)).recentOrphanTxConfirms sig =
          h.recentOrphanTxConfirms sig by
        have hf : Foreign sig reg h (h.step (.evictStaleOrphanTxConfirms now)) :=
          ⟨rfl, horphan, rfl, fun _ _ _ => Iff.rfl, hh.named⟩
        exact hkeep nofun (hh.foreign hf)
      show (h.recentOrphanTxConfirms sig).filter _ = h.recentOrphanTxConfirms sig
      cases he : h.recentOrphanTxConfirms sig with
      | none => rfl
      | some entry =>
          rw [Option.filter_some, decide_eq_true (hl entry he)]
          rfl
  | forgetPending s => exact hkeep nofun (hh.foreign (foreign_setPending hl nofun hh.named))
  | task id now =>
      cases hid : h.tasks id with
      | none =>
          refine hkeep (fun i _ e n pc => ?_) ?_
          · cases e
            rw [hid]
            exact nofun
          · rw [ConfirmHub.step_noTask hid]
            exact hh
      | some t =>
          by_cases ht : t.signature = sig
          · subst ht
            cases t with
            | registering s pc =>
                have hreg : id = reg := hh.others id pc hid
                subst hreg
                refine hkeep (fun i _ e n pc => ?_) ?_
                · cases e
                  rw [hid]
                  exact nofun
                · rw [ConfirmHub.step_registering hid]
                  exact handOff_register hid hh
            | dispatching s n pc =>
                rw [ConfirmHub.step_dispatching hid]
                exact handOff_dispatch hid now hh
          · have hne : id ≠ reg := by
              intro e
              obtain ⟨pr, hreg, _⟩ := hh.place
              rw [← e, hid] at hreg
              cases hreg
              exact ht rfl
            refine hkeep (fun i _ e n pc hi => ?_) ?_
            · cases e
              rw [hid] at hi
              cases hi
              exact ht rfl
            · exact hh.foreign (foreign_task hid ht hne now hh.named)

variable (sig) in
/-- Every task of the signature has returned. -/
def AllReturned (h : ConfirmHub) : Prop :=
  ∀ id, (∀ pc, h.tasks id = some (.registering sig pc) → pc = .returned) ∧
    ∀ n pc, h.tasks id = some (.dispatching sig n pc) → pc = .returned

theorem HandOffStart.handOff (hs : HandOffStart sig reg h) : HandOff sig reg False h := by
  refine ⟨hs.others, fun s _ => hs.noPending s, fun e he => ?_, .removeOrphan, hs.registration,
    hs.noWaiter, hs.nothingSent, False.elim, fun hne => hne hs.noOrphan⟩
  rw [hs.noOrphan] at he
  cases he

/-- **NO CONFIRMATION IS LOST, AND WHEN ONE IS.** After any interleaving of the registration with
    dispatches of its signature and anything on other signatures, in which no fresh entry is
    evicted: once all have returned, the receiver holds exactly one notification, from one of the
    dispatches, if and only if some dispatch was caught; and `confirm_via_jetstream` reports a
    timeout if and only if none was. -/
theorem confirm_handed_off_iff (hstart : HandOffStart sig reg h) {zs : List ConfirmLabel}
    (hgood : Machine.Along ConfirmHub.step (Undisturbed sig) h zs)
    (hdone : AllReturned sig (Machine.foldSteps ConfirmHub.step h zs)) :
    ((∃ n, Dispatched sig (Machine.foldSteps ConfirmHub.step h zs) n ∧
        (Machine.foldSteps ConfirmHub.step h zs).delivered reg = [n]) ↔
      Machine.Sometime ConfirmHub.step (Caught sig reg) h zs) ∧
    ∀ elapsedMs,
      ((confirmViaJetstream true sig elapsedMs
        ((Machine.foldSteps ConfirmHub.step h zs).delivered reg).head?).isTimeout = true ↔
      ¬ Machine.Sometime ConfirmHub.step (Caught sig reg) h zs) := by
  have hinv : HandOff sig reg (False ∨ Machine.Sometime ConfirmHub.step (Caught sig reg) h zs)
      (Machine.foldSteps ConfirmHub.step h zs) :=
    Machine.sometime_invariant (I := HandOff sig reg)
      (fun _ _ l hl hh => handOff_step l hl hh) hgood hstart.handOff
  obtain ⟨pc, hreg, hat⟩ := (hinv.congr (or_iff_right not_false)).place
  obtain rfl : pc = .returned := (hdone reg).1 pc hreg
  rcases hat with ⟨⟨_, hnone⟩, hc⟩ | ⟨⟨_, n, hn, hd⟩, hc⟩
  · rw [hnone]
    exact ⟨⟨fun ⟨n, _, h0⟩ => (by cases h0), fun h0 => absurd h0 hc⟩,
      fun ms => (confirmViaJetstream_timeout_iff sig ms _).trans ⟨fun _ => hc, fun _ => rfl⟩⟩
  · rw [hn]
    exact ⟨⟨fun _ => hc, fun _ => ⟨n, hd, rfl⟩⟩,
      fun ms => (confirmViaJetstream_timeout_iff sig ms _).trans ⟨nofun, fun h0 => absurd hc h0⟩⟩

end HandOff

/-- One registration and one dispatch of `sig`. -/
def oneDispatchHub : ConfirmHub where
  pendingTxConfirms := fun _ => none
  recentOrphanTxConfirms := fun _ => none
  tasks := fun id =>
    if id = 0 then some (.registering "sig" .removeOrphan)
    else if id = 1 then some (.dispatching "sig" ⟨7, none⟩ .removePending)
    else none
  delivered := fun _ => []

theorem oneDispatchHub_tasks {id : TaskId} {t : ConfirmTask}
    (h : oneDispatchHub.tasks id = some t) :
    (id = 0 ∧ t = .registering "sig" .removeOrphan) ∨
      (id = 1 ∧ t = .dispatching "sig" ⟨7, none⟩ .removePending) := by
  unfold oneDispatchHub at h
  by_cases h0 : id = 0
  · simp only [if_pos h0] at h
    cases h
    exact .inl ⟨h0, rfl⟩
  · by_cases h1 : id = 1
    · simp only [if_neg h0, if_pos h1] at h
      cases h
      exact .inr ⟨h1, rfl⟩
    · simp only [if_neg h0, if_neg h1] at h
      cases h

theorem oneDispatchHub_start : HandOffStart "sig" 0 oneDispatchHub where
  registration := rfl
  others id pc h := by
    rcases oneDispatchHub_tasks h with ⟨h0, _⟩ | ⟨_, h1⟩
    · exact h0
    · cases h1
  dispatches id n pc h := by
    rcases oneDispatchHub_tasks h with ⟨_, h0⟩ | ⟨_, h1⟩
    · cases h0
    · cases h1
      rfl
  someDispatch := ⟨1, ⟨7, none⟩, rfl⟩
  noPending _ := nofun
  noWaiter := rfl
  noOrphan := rfl
  nothingSent := rfl

/-- In any interleaving of the two, only their tasks move. -/
theorem oneDispatchHub_allReturned {h : ConfirmHub} (h0 : h.tasks 0 = some (.registering "sig"
    .returned)) (h1 : h.tasks 1 = some (.dispatching "sig" ⟨7, none⟩ .returned))
    (hrest : ∀ id, id ≠ 0 → id ≠ 1 → h.tasks id = none) : AllReturned "sig" h := by
  intro id
  by_cases e0 : id = 0
  · subst e0
    rw [h0]
    exact ⟨fun pc e => by cases e; rfl, nofun⟩
  · by_cases e1 : id = 1
    · subst e1
      rw [h1]
      exact ⟨nofun, fun n pc e => by cases e; rfl⟩
    · rw [hrest id e0 e1]
      exact ⟨nofun, nofun⟩

/-- `confirm_handed_off_iff` where the dispatch comes after the registration: not a timeout. -/
theorem confirm_handed_off_late_dispatch :
    (confirmViaJetstream true "sig" 5 ((Machine.foldSteps ConfirmHub.step oneDispatchHub
      [.task 0 0, .task 0 0, .task 0 0, .task 1 0]).delivered 0).head?).isTimeout = false := by
  have hgood : Machine.Along ConfirmHub.step (Undisturbed "sig") oneDispatchHub
      [.task 0 0, .task 0 0, .task 0 0, .task 1 0] := ⟨trivial, trivial, trivial, trivial, trivial⟩
  have h := (confirm_handed_off_iff oneDispatchHub_start hgood
    (oneDispatchHub_allReturned rfl rfl fun id h0 h1 => by
      simp [Machine.foldSteps, ConfirmHub.step, ConfirmHub.stepRegister, ConfirmHub.stepDispatch,
        ConfirmHub.setTask, ConfirmHub.setPending, ConfirmHub.deliver, oneDispatchHub, h0, h1])).2 5
  have hcaught : Machine.Sometime ConfirmHub.step (Caught "sig" 0) oneDispatchHub
      [.task 0 0, .task 0 0, .task 0 0, .task 1 0] :=
    .inr (.inr (.inr (.inl ⟨1, 0, ⟨7, none⟩, .returned, rfl, rfl, .inl ⟨rfl, rfl⟩⟩)))
  exact Bool.eq_false_iff.mpr fun ht => h.mp ht hcaught

/-- **A CONFIRMATION FALLS BETWEEN THE TWO MAPS**: the dispatch finds no waiter, the registration
    inserts its waiter and finds no orphan, the dispatch buffers. -/
theorem confirm_lost :
    ¬ ∀ (sig : String) (reg : TaskId) (h : ConfirmHub) (zs : List ConfirmLabel),
      HandOffStart sig reg h → Machine.Along ConfirmHub.step (Undisturbed sig) h zs →
      AllReturned sig (Machine.foldSteps ConfirmHub.step h zs) →
      ∃ n, Dispatched sig (Machine.foldSteps ConfirmHub.step h zs) n ∧
        (Machine.foldSteps ConfirmHub.step h zs).delivered reg = [n] := by
  intro h
  obtain ⟨n, _, hn⟩ := h "sig" 0 oneDispatchHub
    [.task 0 0, .task 1 0, .task 0 0, .task 0 0, .task 1 0] oneDispatchHub_start
    ⟨trivial, trivial, trivial, trivial, trivial, trivial⟩
    (oneDispatchHub_allReturned rfl rfl fun id h0 h1 => by
      simp [Machine.foldSteps, ConfirmHub.step, ConfirmHub.stepRegister, ConfirmHub.stepDispatch,
        ConfirmHub.setTask, ConfirmHub.setPending, ConfirmHub.setOrphan, oneDispatchHub, h0, h1])
  cases hn

end IronCrab

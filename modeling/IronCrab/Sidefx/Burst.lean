/-
  File:      IronCrab/Sidefx/Burst.lean
  Subject:   A BURST OF SIDE-EFFECT JOBS (src/market_data/sidefx/worker.rs): coalescing the jobs of
             a burst, and the pool-state signals that are published after it.

  The burst keeps for a coalesce key the job that arrived last, whatever its slot; the scratch keeps
  for a pool the signal of the greatest slot it is told.

  * `mdSidefxCoalesceBurst`, `mdSidefxPartitionByClass` -- what a worker makes of a burst;
  * `merged_eq` -- the job kept for a key: its last one, in the hottest class of them all;
  * `noted` -- what the scratch holds for a pool is the first signal of greatest slot;
  * `coalesce_burst_exact` -- a burst from the queue to the drained signals;
  * `older_job_kept` -- an older account update that arrives later replaces the newer one.
-/
import IronCrab.Lib.Champion
import IronCrab.Lib.Coalesce
import IronCrab.Lib.Machine
import IronCrab.Solana.DexParser

namespace IronCrab.Sidefx

open Track (Pubkey)
open Solana (DexType PumpAmmSellFields)
open Coalesce (Board withKey keyless digest)
open Machine (foldSteps)

/-! ## 1. Jobs -/

/-- `SidefxUpdateClass`. -/
inductive SidefxUpdateClass where
  | execHot
  | enrich
  deriving DecidableEq

namespace SidefxUpdateClass

def isExecHot : SidefxUpdateClass → Bool
  | execHot => true
  | enrich => false

def mergePriority (a b : SidefxUpdateClass) : SidefxUpdateClass :=
  if a.isExecHot || b.isExecHot then execHot else enrich

end SidefxUpdateClass

/-- `MdSidefxCommand`. -/
inductive MdSidefxCommand where
  | pumpFunPoolMintMapInsert (runId : String) (poolAddress : Pubkey) (mintStr : String)
      (slot : Option UInt64) (txGrpcRecvAt : Nat) (creatorOverride : Option Pubkey)
  | pumpFunDevWalletFromPoolCreated (runId : String) (poolAddress baseMint creator : Pubkey)
      (slot : UInt64) (txGeyserRecvAt : Nat)
  | pumpAmmCreatePoolObserved (runId : String) (poolAddress : Pubkey)
      (baseMint quoteMint : String) (slot : UInt64) (txGeyserRecvAt : Nat)
  | pumpAmmTradeWithAccounts (runId : String) (poolAddress baseMintPk : Pubkey) (slot : UInt64)
      (isBuy : Bool) (poolAccounts : List Pubkey) (pumpAmmSell : PumpAmmSellFields)
      (txGeyserRecvAt : Nat)
  | genericDexFirstTradeAccounts (runId : String) (poolAddress mint quoteMint : Pubkey)
      (dex : DexType) (poolAccounts : List Pubkey) (slot : UInt64) (txGeyserRecvAt : Nat)
  | bondingCurveDevWallet (runId : String) (poolAddress creator : Pubkey) (slot : UInt64)
      (grpcRecvAt : Nat) (virtualTokenReserves virtualSolReserves realTokenReserves
      realSolReserves : UInt64) (complete cashbackEnabled : Bool)
  | vaultBalanceTick (runId : String) (vaultPubkey mint tokenProgram : Pubkey)
      (balance slot : UInt64) (grpcRecvAt : Nat) (updateClass : SidefxUpdateClass)
  | touchBinArrayTick (pda : Pubkey) (updateClass : SidefxUpdateClass)
  | dlmmPoolStatePublishSignal (runId : String) (poolAddress : Pubkey) (slot : UInt64)
      (grpcRecvAt : Nat) (updateClass : SidefxUpdateClass)
  | tradePoolLruTouch (pool : Pubkey)
  | livePoolCacheAccountUpdate (runId : String) (poolPubkey owner : Pubkey)
      (accountData : List UInt8) (slot : UInt64) (grpcRecvAt : Nat)
      (updateClass : SidefxUpdateClass)
  | livePoolCacheMintDecimals (mint : Pubkey) (decimals : UInt8)
  deriving DecidableEq

/-- `MdSidefxCoalesceKind`: a key is an address and the variant of the job. -/
inductive MdSidefxCoalesceKind where
  | pumpFunPoolMintMapInsert
  | pumpAmmTradeWithAccounts
  | pumpAmmCreatePoolObserved
  | genericDexFirstTradeAccounts
  | tradePoolLruTouch
  | livePoolCacheAccountUpdate
  | vaultBalanceTick
  | touchBinArrayTick
  | dlmmPoolStatePublishSignal
  deriving DecidableEq

abbrev CoalesceKey := Pubkey × MdSidefxCoalesceKind

namespace MdSidefxCommand

/-- `md_sidefx_coalesce_key`. -/
def coalesceKey : MdSidefxCommand → Option CoalesceKey
  | pumpFunPoolMintMapInsert _ poolAddress _ _ _ _ => some (poolAddress, .pumpFunPoolMintMapInsert)
  | pumpAmmTradeWithAccounts _ poolAddress _ _ _ _ _ _ =>
      some (poolAddress, .pumpAmmTradeWithAccounts)
  | pumpAmmCreatePoolObserved _ poolAddress _ _ _ _ =>
      some (poolAddress, .pumpAmmCreatePoolObserved)
  | genericDexFirstTradeAccounts _ poolAddress _ _ _ _ _ _ =>
      some (poolAddress, .genericDexFirstTradeAccounts)
  | livePoolCacheAccountUpdate _ poolPubkey _ _ _ _ _ =>
      some (poolPubkey, .livePoolCacheAccountUpdate)
  | vaultBalanceTick _ vaultPubkey _ _ _ _ _ _ => some (vaultPubkey, .vaultBalanceTick)
  | touchBinArrayTick pda _ => some (pda, .touchBinArrayTick)
  | dlmmPoolStatePublishSignal _ poolAddress _ _ _ =>
      some (poolAddress, .dlmmPoolStatePublishSignal)
  | tradePoolLruTouch pool => some (pool, .tradePoolLruTouch)
  | _ => none

/-- `md_sidefx_job_update_class`. -/
def updateClass : MdSidefxCommand → SidefxUpdateClass
  | livePoolCacheAccountUpdate _ _ _ _ _ _ updateClass => updateClass
  | vaultBalanceTick _ _ _ _ _ _ _ updateClass => updateClass
  | touchBinArrayTick _ updateClass => updateClass
  | dlmmPoolStatePublishSignal _ _ _ _ updateClass => updateClass
  | _ => .execHot

/-- `md_sidefx_apply_update_class`. -/
def applyUpdateClass (job : MdSidefxCommand) (updateClass : SidefxUpdateClass) : MdSidefxCommand :=
  match job with
  | livePoolCacheAccountUpdate runId poolPubkey owner accountData slot grpcRecvAt _ =>
      livePoolCacheAccountUpdate runId poolPubkey owner accountData slot grpcRecvAt updateClass
  | vaultBalanceTick runId vaultPubkey mint tokenProgram balance slot grpcRecvAt _ =>
      vaultBalanceTick runId vaultPubkey mint tokenProgram balance slot grpcRecvAt updateClass
  | touchBinArrayTick pda _ => touchBinArrayTick pda updateClass
  | dlmmPoolStatePublishSignal runId poolAddress slot grpcRecvAt _ =>
      dlmmPoolStatePublishSignal runId poolAddress slot grpcRecvAt updateClass
  | job => job

/-- The slot of the jobs that tell the state of an account. -/
def stateSlot : MdSidefxCommand → Option UInt64
  | livePoolCacheAccountUpdate _ _ _ _ slot _ _ => some slot
  | vaultBalanceTick _ _ _ _ _ slot _ _ => some slot
  | dlmmPoolStatePublishSignal _ _ slot _ _ => some slot
  | _ => none

/-- Where both jobs have a slot, that of the first is not greater. -/
def SlotLe (a b : MdSidefxCommand) : Prop := ∀ s ∈ a.stateSlot, ∀ s' ∈ b.stateSlot, s ≤ s'

/-- A job over an earlier one of its key. -/
def mergeInto (old new : MdSidefxCommand) : MdSidefxCommand :=
  new.applyUpdateClass (old.updateClass.mergePriority new.updateClass)

end MdSidefxCommand

open MdSidefxCommand

/-- `md_sidefx_coalesce_burst`. -/
def mdSidefxCoalesceBurst (jobs : List MdSidefxCommand) : Option (List MdSidefxCommand) :=
  (Board.burst coalesceKey mergeInto jobs).map Board.out

/-- `md_sidefx_partition_by_class`. -/
def mdSidefxPartitionByClass (jobs : List MdSidefxCommand) :
    List MdSidefxCommand × List MdSidefxCommand :=
  jobs.partition fun job => job.updateClass.isExecHot

/-! ## 2. The scratch of a burst -/

/-- `DlmmPoolStateSignal`. -/
structure DlmmPoolStateSignal where
  runId : String
  slot : UInt64
  grpcRecvAt : Nat
  deriving DecidableEq

/-- Signals compete by slot. -/
def DlmmPoolStateSignal.rank (signal : DlmmPoolStateSignal) : Nat := signal.slot.toNat

/-- `MdSidefxBurstScratch`, its pending pool-state signals. -/
structure MdSidefxBurstScratch where
  pendingDlmmPoolStateSignals : AList fun _ : Pubkey => DlmmPoolStateSignal

namespace MdSidefxBurstScratch

def new : MdSidefxBurstScratch := ⟨∅⟩

/-- `note_dlmm_pool_state_signal`. -/
def noteDlmmPoolStateSignal (scratch : MdSidefxBurstScratch) (pool : Pubkey)
    (signal : DlmmPoolStateSignal) : MdSidefxBurstScratch :=
  match scratch.pendingDlmmPoolStateSignals.lookup pool with
  | some existing =>
      if signal.slot ≤ existing.slot then scratch
      else ⟨scratch.pendingDlmmPoolStateSignals.insert pool signal⟩
  | none => ⟨scratch.pendingDlmmPoolStateSignals.insert pool signal⟩

/-- `drain_dlmm_pool_state_signals`. -/
def drainDlmmPoolStateSignals (scratch : MdSidefxBurstScratch) :
    List (Pubkey × DlmmPoolStateSignal) × MdSidefxBurstScratch :=
  (scratch.pendingDlmmPoolStateSignals.entries.map fun e => (e.1, e.2), new)

end MdSidefxBurstScratch

open MdSidefxBurstScratch

section Worker

/-! `stateChanged` says of an account update that it is of a hot DLMM pool, is not stale, and brings
another active bin or bin step. -/

variable (stateChanged : MdSidefxCommand → Bool)

/-- The signal that the handler of a job notes. -/
def signalOf (job : MdSidefxCommand) : Option (Pubkey × DlmmPoolStateSignal) :=
  match job with
  | .dlmmPoolStatePublishSignal runId poolAddress slot grpcRecvAt _ =>
      some (poolAddress, ⟨runId, slot, grpcRecvAt⟩)
  | .livePoolCacheAccountUpdate runId poolPubkey _ _ slot grpcRecvAt _ =>
      if stateChanged job then some (poolPubkey, ⟨runId, slot, grpcRecvAt⟩) else none
  | _ => none

/-- `md_sidefx_process_job`, what it does to the scratch. -/
def mdSidefxProcessJob (scratch : MdSidefxBurstScratch) (job : MdSidefxCommand) :
    MdSidefxBurstScratch :=
  match signalOf stateChanged job with
  | some (pool, signal) => scratch.noteDlmmPoolStateSignal pool signal
  | none => scratch

/-- The jobs of a coalesced burst in the order they are processed. -/
def processingOrder (jobs : List MdSidefxCommand) : List MdSidefxCommand :=
  (mdSidefxPartitionByClass jobs).1 ++ (mdSidefxPartitionByClass jobs).2

/-- One burst of `md_sidefx_worker_loop`, up to the signals it drains. -/
def burstSignals (jobs : List MdSidefxCommand) : Option (List (Pubkey × DlmmPoolStateSignal)) :=
  (mdSidefxCoalesceBurst jobs).map fun coalesced =>
    (foldSteps (mdSidefxProcessJob stateChanged) new
      (processingOrder coalesced)).drainDlmmPoolStateSignals.1

end Worker

/-! ## 3. The job that is kept -/

namespace MdSidefxCommand

/-- The class of several jobs together. -/
def hottest (jobs : List MdSidefxCommand) : SidefxUpdateClass :=
  if jobs.any fun job => job.updateClass.isExecHot then .execHot else .enrich

variable (job : MdSidefxCommand) (c c' : SidefxUpdateClass)

@[simp] theorem coalesceKey_applyUpdateClass :
    (job.applyUpdateClass c).coalesceKey = job.coalesceKey := by
  cases job <;> rfl

@[simp] theorem stateSlot_applyUpdateClass :
    (job.applyUpdateClass c).stateSlot = job.stateSlot := by
  cases job <;> rfl

theorem applyUpdateClass_self : job.applyUpdateClass job.updateClass = job := by
  cases job <;> rfl

/-- A class is taken over, or the job has none and counts as hot. -/
theorem updateClass_applyUpdateClass :
    (job.applyUpdateClass c).updateClass = c ∨
      (job.applyUpdateClass c).updateClass = .execHot ∧ job.updateClass = .execHot := by
  cases job with
  | vaultBalanceTick | touchBinArrayTick | dlmmPoolStatePublishSignal | livePoolCacheAccountUpdate =>
      exact .inl rfl
  | _ => exact .inr ⟨rfl, rfl⟩

theorem isExecHot_mergePriority :
    (c.mergePriority c').isExecHot = (c.isExecHot || c'.isExecHot) := by
  cases c <;> cases c' <;> rfl

theorem isExecHot_hottest (jobs : List MdSidefxCommand) :
    (hottest jobs).isExecHot = jobs.any fun job => job.updateClass.isExecHot := by
  unfold hottest
  split
  · next h => exact h.symm
  · next h => exact (Bool.eq_false_iff.mpr h).symm

theorem eq_of_isExecHot {c c' : SidefxUpdateClass} (h : c.isExecHot = c'.isExecHot) : c = c' := by
  cases c <;> cases c' <;> first | rfl | cases h

/-- The class of the kept job is the hottest of all, for a job that has a class. -/
theorem isExecHot_kept (jobs : List MdSidefxCommand) {last : MdSidefxCommand} (h : last ∈ jobs) :
    (last.applyUpdateClass (hottest jobs)).updateClass.isExecHot = (hottest jobs).isExecHot := by
  rcases updateClass_applyUpdateClass last (hottest jobs) with heq | ⟨heq, hlast⟩
  · rw [heq]
  · rw [heq, isExecHot_hottest]
    exact (List.any_eq_true.mpr ⟨last, h, by rw [hlast]; rfl⟩).symm

theorem mergeInto_key (old new : MdSidefxCommand) (k : CoalesceKey)
    (_ : old.coalesceKey = some k) (h : new.coalesceKey = some k) :
    (mergeInto old new).coalesceKey = some k :=
  (coalesceKey_applyUpdateClass _ _).trans h

/-- **What the merges of some jobs leave**: the last one, in the hottest class of them all. -/
theorem merged_eq (jobs : List MdSidefxCommand) :
    digest mergeInto jobs = jobs.getLast?.map fun last => last.applyUpdateClass (hottest jobs) := by
  induction jobs using List.reverseRecOn with
  | nil => rfl
  | append_singleton jobs job ih =>
      rw [List.getLast?_append, List.getLast?_singleton, Option.some_or, Option.map_some]
      cases hlast : jobs.getLast? with
      | none =>
          rw [List.getLast?_eq_none_iff.mp hlast]
          show some job = some (job.applyUpdateClass (hottest [job]))
          have hclass : hottest [job] = job.updateClass := by
            apply eq_of_isExecHot
            rw [isExecHot_hottest, List.any_cons, List.any_nil, Bool.or_false]
          rw [hclass, applyUpdateClass_self]
      | some last =>
          rw [hlast, Option.map_some] at ih
          rw [Coalesce.digest_snoc_of_some ih]
          unfold mergeInto
          congr 2
          apply eq_of_isExecHot
          rw [isExecHot_mergePriority, isExecHot_kept _ (List.mem_of_getLast? hlast),
            isExecHot_hottest, isExecHot_hottest, List.any_append, List.any_cons, List.any_nil,
            Bool.or_false]

end MdSidefxCommand

open MdSidefxCommand

/-! ## 4. The signals that are drained -/

section Signals

variable (stateChanged : MdSidefxCommand → Bool)

/-- The signals that jobs note for a pool. -/
def signalsFor (pool : Pubkey) (jobs : List MdSidefxCommand) : List DlmmPoolStateSignal :=
  (jobs.filterMap (signalOf stateChanged)).filterMap fun note =>
    if note.1 = pool then some note.2 else none

variable {stateChanged}

theorem mem_signalsFor {pool : Pubkey} {jobs : List MdSidefxCommand}
    {signal : DlmmPoolStateSignal} :
    signal ∈ signalsFor stateChanged pool jobs ↔
      ∃ job ∈ jobs, signalOf stateChanged job = some (pool, signal) := by
  unfold signalsFor
  rw [List.mem_filterMap]
  constructor
  · rintro ⟨⟨pool', signal'⟩, hmem, hpool⟩
    obtain ⟨job, hjob, hnote⟩ := List.mem_filterMap.mp hmem
    dsimp only at hpool
    split at hpool
    · next heq =>
        cases heq
        cases hpool
        exact ⟨job, hjob, hnote⟩
    · cases hpool
  · rintro ⟨job, hjob, hnote⟩
    exact ⟨(pool, signal), List.mem_filterMap.mpr ⟨job, hjob, hnote⟩, if_pos rfl⟩

/-- A signal of its pool competes with the one that is held; other pools are left alone. -/
theorem lookup_noteDlmmPoolStateSignal (scratch : MdSidefxBurstScratch) (pool pool' : Pubkey)
    (signal : DlmmPoolStateSignal) :
    (scratch.noteDlmmPoolStateSignal pool signal).pendingDlmmPoolStateSignals.lookup pool' =
      if pool = pool' then
        Champion.keep DlmmPoolStateSignal.rank
          (scratch.pendingDlmmPoolStateSignals.lookup pool') signal
      else scratch.pendingDlmmPoolStateSignals.lookup pool' := by
  unfold noteDlmmPoolStateSignal
  by_cases hpool : pool = pool'
  · subst hpool
    rw [if_pos rfl]
    cases hheld : scratch.pendingDlmmPoolStateSignals.lookup pool with
    | none => exact AList.lookup_insert _
    | some existing =>
        dsimp only
        rw [Champion.keep_some]
        split
        · next hle =>
            have hrank : signal.rank ≤ existing.rank := UInt64.le_iff_toNat_le.mp hle
            rw [hheld, Champion.pick_of_le hrank]
        · next hlt =>
            have hrank : existing.rank < signal.rank :=
              not_le.mp fun h => hlt (UInt64.le_iff_toNat_le.mpr h)
            rw [Champion.pick_of_lt hrank]
            exact AList.lookup_insert _
  · rw [if_neg hpool]
    cases scratch.pendingDlmmPoolStateSignals.lookup pool with
    | none => exact AList.lookup_insert_ne (Ne.symm hpool)
    | some existing =>
        dsimp only
        split
        · rfl
        · exact AList.lookup_insert_ne (Ne.symm hpool)

/-- **What the scratch holds for a pool** after some jobs is the first of the signals of greatest
    slot that they note. -/
theorem noted (pool : Pubkey) (jobs : List MdSidefxCommand) :
    (foldSteps (mdSidefxProcessJob stateChanged) new jobs).pendingDlmmPoolStateSignals.lookup pool =
      List.argmax DlmmPoolStateSignal.rank (signalsFor stateChanged pool jobs) := by
  suffices h : ∀ scratch : MdSidefxBurstScratch,
      (foldSteps (mdSidefxProcessJob stateChanged) scratch
        jobs).pendingDlmmPoolStateSignals.lookup pool =
      (signalsFor stateChanged pool jobs).foldl
        (Champion.keep DlmmPoolStateSignal.rank)
        (scratch.pendingDlmmPoolStateSignals.lookup pool) by
    rw [h, ← Champion.foldl_keep]
    rfl
  induction jobs with
  | nil => exact fun _ => rfl
  | cons job jobs ih =>
      intro scratch
      rw [Machine.foldSteps_cons, ih]
      unfold mdSidefxProcessJob signalsFor
      cases hnote : signalOf stateChanged job with
      | none => rw [List.filterMap_cons_none hnote]
      | some note =>
          obtain ⟨pool', signal⟩ := note
          rw [List.filterMap_cons_some hnote]
          dsimp only
          rw [lookup_noteDlmmPoolStateSignal]
          by_cases hpool : pool' = pool
          · subst hpool
            rw [if_pos rfl, List.filterMap_cons]
            dsimp only
            rw [if_pos rfl]
            rfl
          · rw [if_neg hpool, List.filterMap_cons]
            dsimp only
            rw [if_neg hpool]

theorem mem_drainDlmmPoolStateSignals {scratch : MdSidefxBurstScratch} {pool : Pubkey}
    {signal : DlmmPoolStateSignal} :
    (pool, signal) ∈ scratch.drainDlmmPoolStateSignals.1 ↔
      scratch.pendingDlmmPoolStateSignals.lookup pool = some signal := by
  unfold drainDlmmPoolStateSignals
  rw [List.mem_map, ← Option.mem_def, AList.mem_lookup_iff]
  constructor
  · rintro ⟨⟨pool', signal'⟩, hmem, heq⟩
    cases heq
    exact hmem
  · exact fun hmem => ⟨⟨pool, signal⟩, hmem, rfl⟩

/-- No pool is drained twice. -/
theorem nodup_drainDlmmPoolStateSignals (scratch : MdSidefxBurstScratch) :
    (scratch.drainDlmmPoolStateSignals.1.map Prod.fst).Nodup := by
  unfold drainDlmmPoolStateSignals
  rw [List.map_map]
  exact scratch.pendingDlmmPoolStateSignals.nodupKeys

theorem mem_processingOrder {jobs : List MdSidefxCommand} {job : MdSidefxCommand} :
    job ∈ processingOrder jobs ↔ job ∈ jobs := by
  unfold processingOrder mdSidefxPartitionByClass
  rw [List.partition_eq_filter_filter, List.mem_append, List.mem_filter, List.mem_filter]
  constructor
  · rintro (h | h)
    · exact h.1
    · exact h.1
  · intro h
    cases hclass : job.updateClass.isExecHot with
    | true => exact .inl ⟨h, rfl⟩
    | false => exact .inr ⟨h, by rw [Function.comp_apply, hclass]; rfl⟩

end Signals

/-! ## 5. A burst -/

/-- **What a burst leaves of its jobs.** A signal job may be any of its key. -/
structure Coalesced (jobs out : List MdSidefxCommand) : Prop where
  /-- Every job without a key, as it came. -/
  keyless : keyless coalesceKey out = keyless coalesceKey jobs
  /-- One job for every key of the burst. -/
  one : ∀ k, (∃ job ∈ jobs, job.coalesceKey = some k) → ∃ kept, withKey coalesceKey k out = [kept]
  /-- It is one of its key, but for the class. -/
  origin : ∀ kept ∈ out, ∀ k, kept.coalesceKey = some k →
    ∃ job ∈ withKey coalesceKey k jobs,
      kept = job.applyUpdateClass (hottest (withKey coalesceKey k jobs))
  /-- It is the last of its key, unless it is a signal. -/
  last : ∀ kept ∈ out, ∀ k, kept.coalesceKey = some k → k.2 ≠ .dlmmPoolStatePublishSignal →
    (withKey coalesceKey k jobs).getLast?.map (fun job =>
      job.applyUpdateClass (hottest (withKey coalesceKey k jobs))) = some kept
  /-- It is hot if any of its key was. -/
  hot : ∀ kept ∈ out, ∀ k, kept.coalesceKey = some k → kept.stateSlot.isSome →
    (kept.updateClass = .execHot ↔
      ∃ job ∈ withKey coalesceKey k jobs, job.updateClass = .execHot)
  /-- It has the greatest slot of its key if the jobs of the key come in the order of slots. -/
  greatest : ∀ kept ∈ out, ∀ k, kept.coalesceKey = some k →
    (withKey coalesceKey k jobs).Pairwise SlotLe →
      ∀ job ∈ withKey coalesceKey k jobs, SlotLe job kept

/-- **What is published of some notes**: for every pool one of them, of the greatest slot. -/
structure Published (notes published : List (Pubkey × DlmmPoolStateSignal)) : Prop where
  nodup : (published.map Prod.fst).Nodup
  greatest : ∀ pool signal, (pool, signal) ∈ published → (pool, signal) ∈ notes ∧
    ∀ signal', (pool, signal') ∈ notes → signal'.slot ≤ signal.slot
  all : ∀ pool signal, (pool, signal) ∈ notes → ∃ signal', (pool, signal') ∈ published

section Burst

variable {stateChanged : MdSidefxCommand → Bool} {jobs out : List MdSidefxCommand}

theorem updateClass_applyUpdateClass_of_slot {job : MdSidefxCommand} (h : job.stateSlot.isSome)
    (c : SidefxUpdateClass) : (job.applyUpdateClass c).updateClass = c := by
  cases job with
  | vaultBalanceTick | dlmmPoolStatePublishSignal | livePoolCacheAccountUpdate => rfl
  | _ => cases h

theorem hottest_eq_execHot :
    hottest jobs = .execHot ↔ ∃ job ∈ jobs, job.updateClass = .execHot := by
  have hclass : ∀ c : SidefxUpdateClass, c.isExecHot = true ↔ c = .execHot := by
    intro c
    cases c with
    | execHot => exact iff_of_true rfl rfl
    | enrich => exact iff_of_false nofun nofun
  rw [← hclass, isExecHot_hottest, List.any_eq_true]
  exact exists_congr fun job => and_congr_right fun _ => hclass _

/-- In the order of slots the last job has the greatest. -/
theorem slotLe_getLast {last : MdSidefxCommand} (h : jobs.Pairwise SlotLe)
    (hlast : jobs.getLast? = some last) : ∀ job ∈ jobs, SlotLe job last := by
  obtain ⟨init, rfl⟩ := List.getLast?_eq_some_iff.mp hlast
  intro job hjob
  obtain ⟨-, -, hle⟩ := List.pairwise_append.mp h
  rcases List.mem_append.mp hjob with hinit | hsame
  · exact hle job hinit last (List.mem_singleton_self last)
  · rw [List.mem_singleton.mp hsame]
    intro s hs s' hs'
    rw [Option.mem_def] at hs hs'
    rw [hs] at hs'
    cases hs'
    exact UInt64.le_refl s

/-- A coalesced burst holds for a key what the merges of its jobs leave. -/
theorem withKey_coalesceBurst (jobs : List MdSidefxCommand) :
    ∃ out, mdSidefxCoalesceBurst jobs = some out ∧
      keyless coalesceKey out = keyless coalesceKey jobs ∧
      ∀ k, withKey coalesceKey k out = ((withKey coalesceKey k jobs).getLast?.map fun last =>
        last.applyUpdateClass (hottest (withKey coalesceKey k jobs))).toList := by
  obtain ⟨b, hb, h⟩ := Board.burst_digested mergeInto_key jobs
  refine ⟨b.out, ?_, h.keyless, fun k => ?_⟩
  · unfold mdSidefxCoalesceBurst
    rw [hb]
    rfl
  · rw [h.keyed, merged_eq]

/-- What the merges leave for every key is a coalesced burst. -/
theorem coalesced (hkeyless : keyless coalesceKey out = keyless coalesceKey jobs)
    (hkeyed : ∀ k, withKey coalesceKey k out =
      ((withKey coalesceKey k jobs).getLast?.map fun last =>
        last.applyUpdateClass (hottest (withKey coalesceKey k jobs))).toList) :
    Coalesced jobs out := by
  have hkept : ∀ kept ∈ out, ∀ k, kept.coalesceKey = some k →
      ∃ last, (withKey coalesceKey k jobs).getLast? = some last ∧
        kept = last.applyUpdateClass (hottest (withKey coalesceKey k jobs)) := by
    intro kept hmem k hk
    have hin := Coalesce.mem_withKey.mpr ⟨hmem, hk⟩
    rw [hkeyed, Option.mem_toList, Option.map_eq_some_iff] at hin
    obtain ⟨last, hlast, rfl⟩ := hin
    exact ⟨last, hlast, rfl⟩
  refine ⟨hkeyless, ?one, ?origin, ?last, ?hot, ?greatest⟩
  case one =>
    rintro k ⟨job, hjob, hk⟩
    have hne : withKey coalesceKey k jobs ≠ [] :=
      List.ne_nil_of_mem (Coalesce.mem_withKey.mpr ⟨hjob, hk⟩)
    exact ⟨_, by rw [hkeyed, List.getLast?_eq_some_getLast hne]; rfl⟩
  case origin =>
    intro kept hmem k hk
    obtain ⟨last, hlast, heq⟩ := hkept kept hmem k hk
    exact ⟨last, List.mem_of_getLast? hlast, heq⟩
  case last =>
    intro kept hmem k hk _
    obtain ⟨last, hlast, heq⟩ := hkept kept hmem k hk
    rw [hlast, heq]
    rfl
  case hot =>
    intro kept hmem k hk hslot
    obtain ⟨last, hlast, rfl⟩ := hkept kept hmem k hk
    rw [stateSlot_applyUpdateClass] at hslot
    rw [updateClass_applyUpdateClass_of_slot hslot, hottest_eq_execHot]
  case greatest =>
    intro kept hmem k hk hsorted job hjob
    obtain ⟨last, hlast, rfl⟩ := hkept kept hmem k hk
    unfold SlotLe
    rw [stateSlot_applyUpdateClass]
    exact slotLe_getLast hsorted hlast job hjob

/-- **What a worker publishes** of the signals that its jobs note. -/
theorem published (jobs : List MdSidefxCommand) :
    Published (jobs.filterMap (signalOf stateChanged))
      (foldSteps (mdSidefxProcessJob stateChanged) new jobs).drainDlmmPoolStateSignals.1 where
  nodup := nodup_drainDlmmPoolStateSignals _
  greatest := by
    intro pool signal hmem
    rw [mem_drainDlmmPoolStateSignals, noted] at hmem
    refine ⟨List.mem_filterMap.mpr (mem_signalsFor.mp (List.argmax_mem hmem)), ?_⟩
    intro signal' hmem'
    have hle := List.le_of_mem_argmax (mem_signalsFor.mpr (List.mem_filterMap.mp hmem')) hmem
    exact UInt64.le_iff_toNat_le.mpr hle
  all := by
    intro pool signal hmem
    have hin := mem_signalsFor.mpr (List.mem_filterMap.mp hmem)
    cases hbest : List.argmax DlmmPoolStateSignal.rank (signalsFor stateChanged pool jobs) with
    | none =>
        rw [List.argmax_eq_none.mp hbest] at hin
        cases hin
    | some best =>
        refine ⟨best, ?_⟩
        rw [mem_drainDlmmPoolStateSignals, noted, hbest]

end Burst

/-- **A burst, from the queue to the published signals**: one job for every key and every job
    without a key; for a pool the greatest slot that its jobs note, which is the greatest of the
    burst where the pool's signals come in the order of slots. -/
theorem coalesce_burst_exact (stateChanged : MdSidefxCommand → Bool)
    (jobs : List MdSidefxCommand) :
    ∃ out signals, mdSidefxCoalesceBurst jobs = some out ∧
      burstSignals stateChanged jobs = some signals ∧
      Coalesced jobs out ∧
      Published ((processingOrder out).filterMap (signalOf stateChanged)) signals ∧
      ∀ pool, withKey coalesceKey (pool, .dlmmPoolStatePublishSignal) jobs ≠ [] →
        (withKey coalesceKey (pool, .dlmmPoolStatePublishSignal) jobs).Pairwise SlotLe →
        ∃ signal, (pool, signal) ∈ signals ∧
          ∀ job ∈ withKey coalesceKey (pool, .dlmmPoolStatePublishSignal) jobs,
            ∀ s ∈ job.stateSlot, s ≤ signal.slot := by
  obtain ⟨out, hout, hkeyless, hkeyed⟩ := withKey_coalesceBurst jobs
  have hcoalesced := coalesced hkeyless hkeyed
  have hpub := @published stateChanged (processingOrder out)
  refine ⟨out, _, hout, by unfold burstSignals; rw [hout]; rfl, hcoalesced, hpub, ?_⟩
  intro pool hne hsorted
  obtain ⟨job, hjob⟩ := List.exists_mem_of_ne_nil _ hne
  obtain ⟨kept, hkept⟩ := hcoalesced.one _ ⟨job, Coalesce.mem_withKey.mp hjob⟩
  obtain ⟨hmem, hk⟩ := Coalesce.mem_withKey.mp (hkept ▸ List.mem_singleton_self kept)
  have hgreatest := hcoalesced.greatest kept hmem _ hk hsorted
  cases kept with
  | dlmmPoolStatePublishSignal runId pool' slot grpcRecvAt updateClass =>
      cases hk
      obtain ⟨signal, hsignal⟩ := hpub.all pool ⟨runId, slot, grpcRecvAt⟩
        (List.mem_filterMap.mpr ⟨_, mem_processingOrder.mpr hmem, rfl⟩)
      refine ⟨signal, hsignal, fun job hjob s hs => ?_⟩
      have hkeptLe := (hpub.greatest pool signal hsignal).2 ⟨runId, slot, grpcRecvAt⟩
        (List.mem_filterMap.mpr ⟨_, mem_processingOrder.mpr hmem, rfl⟩)
      exact UInt64.le_trans (hgreatest job hjob s hs slot rfl) hkeptLe
  | _ => cases hk

/-- **The newest job of every key wins**, and so does the newest signal of every pool. -/
def NewestWins (stateChanged : MdSidefxCommand → Bool) (jobs : List MdSidefxCommand) : Prop :=
  ∃ out signals, mdSidefxCoalesceBurst jobs = some out ∧
    burstSignals stateChanged jobs = some signals ∧
    keyless coalesceKey out = keyless coalesceKey jobs ∧
    (∀ k, (∃ job ∈ jobs, job.coalesceKey = some k) → ∃ kept, withKey coalesceKey k out = [kept]) ∧
    (∀ kept ∈ out, ∀ k, kept.coalesceKey = some k → kept.stateSlot.isSome →
      (∀ job ∈ withKey coalesceKey k jobs, SlotLe job kept) ∧
      ((∃ job ∈ withKey coalesceKey k jobs, job.updateClass = .execHot) →
        kept.updateClass = .execHot)) ∧
    ∀ pool signal, (pool, signal) ∈ signals →
      ∀ job ∈ withKey coalesceKey (pool, .dlmmPoolStatePublishSignal) jobs,
        ∀ s ∈ job.stateSlot, s ≤ signal.slot

/-- An account update of slot 2, then a hot one of slot 1. -/
def enrichThenOlderHot : List MdSidefxCommand :=
  [.livePoolCacheAccountUpdate "r" 7 9 [2] 2 0 .enrich,
    .livePoolCacheAccountUpdate "r" 7 9 [1] 1 0 .execHot]

/-- **An older account update that arrives later** replaces the newer one. -/
theorem older_job_kept : ¬ ∀ stateChanged jobs, NewestWins stateChanged jobs := by
  intro h
  obtain ⟨out, -, hout, -, -, -, hkept, -⟩ := h (fun _ => false) enrichThenOlderHot
  have hone : mdSidefxCoalesceBurst enrichThenOlderHot =
      some [.livePoolCacheAccountUpdate "r" 7 9 [1] 1 0 .execHot] := by
    decide +kernel
  rw [hone] at hout
  cases hout
  obtain ⟨hle, -⟩ := hkept _ (List.mem_singleton_self _) (7, .livePoolCacheAccountUpdate) rfl rfl
  have hslot := hle (.livePoolCacheAccountUpdate "r" 7 9 [2] 2 0 .enrich) (by decide +kernel) 2 rfl
    1 rfl
  exact absurd hslot (by decide)

end IronCrab.Sidefx

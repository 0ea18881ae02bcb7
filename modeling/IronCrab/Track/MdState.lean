/-
  File:      IronCrab/Track/MdState.lean
  Subject:   THE BURSTS OF THE md-state THREAD (src/market_data/md_state/worker.rs).

  The thread drains a burst of commands, coalesces it and processes what is left job by job. The
  coalescer passes wallet pins and withdrawals through where they stand, but collects the demand
  of `TrackMint` and `TrackMints` by mint, keeps the strongest pin and puts one batch at the end.

  The hash maps and sets of the coalescer are collected in no particular order; here they come in
  the order of their keys. A job's work is the list of what it does (`MdStateEffect`).

  * `finalWalletCommand_coalesced` -- what is decided last after coalescing: the pin, if the
    burst holds any wallet-pinned demand of the mint;
  * `coalesce_final_iff` -- when that is what the uncoalesced burst decides last;
  * `coalesced_withdraw_undone` -- a withdrawal after a wallet-pinned `TrackMint` is undone.
-/
import IronCrab.Track.WorkerCommands

namespace IronCrab.Track

/-! ## 1. Commands and jobs -/

/-- `MdStateCommand`. -/
inductive MdStateCommand where
  | trackMint (mint : Pubkey) (pin : Option TrackPinReason)
  | trackMints (entries : List (Pubkey × Option TrackPinReason))
  | trackWalletMint (mint : Pubkey)
  | withdrawWalletMint (mint : Pubkey)
  | scheduleGeyserSyncAfterConfigChange
  | flushGeyserSyncDebounced
  | continueGeyserEvict
  | touchVault (vault : Pubkey)
  | touchBinArray (pda : Pubkey)
  | touchTrackedLruBatch (vaults binArrays : List Pubkey)
  | touchPool (pool : Pubkey)
  deriving DecidableEq

/-- What a job does: a command for the track worker, a touch, or a counted rejection. -/
inductive MdStateEffect where
  | enqueue (cmd : TrackWorkerCommand)
  | touchVault (vault : Pubkey)
  | touchBinArray (pda : Pubkey)
  | touchPool (pool : Pubkey)
  | trackMintRejected
  deriving DecidableEq

/-- One entry of `enqueue_track_mints_to_worker`. -/
def enqueueTrackMintToWorker : Pubkey × Option TrackPinReason → MdStateEffect
  | (mint, some .wallet) => .enqueue (.applyWalletPin mint)
  | (_, none) => .trackMintRejected
  | (mint, some other) => .enqueue (.trackMint mint (some other))

/-- `enqueue_track_mints_to_worker`. -/
def enqueueTrackMintsToWorker (entries : List (Pubkey × Option TrackPinReason)) :
    List MdStateEffect :=
  entries.map enqueueTrackMintToWorker

/-- `md_state_process_job`. -/
def mdStateProcessJob : MdStateCommand → List MdStateEffect
  | .trackMint mint pin =>
      if pin = none then [.trackMintRejected] else [.enqueue (.trackMint mint pin)]
  | .trackMints entries => enqueueTrackMintsToWorker entries
  | .trackWalletMint mint => [.enqueue (.applyWalletPin mint)]
  | .withdrawWalletMint mint => [.enqueue (.withdrawWalletPin mint)]
  | .scheduleGeyserSyncAfterConfigChange => [.enqueue .scheduleGeyserSyncAfterConfigChange]
  | .flushGeyserSyncDebounced => [.enqueue .scheduleGeyserPushDebounced]
  | .continueGeyserEvict => [.enqueue .continueGeyserEvict]
  | .touchVault vault => [.touchVault vault]
  | .touchBinArray pda => [.touchBinArray pda]
  | .touchTrackedLruBatch vaults binArrays =>
      vaults.map .touchVault ++ binArrays.map .touchBinArray
  | .touchPool pool => [.touchPool pool]

/-- The commands that a list of jobs hands to the track worker, in order. -/
def issuedCommands (jobs : List MdStateCommand) : List TrackWorkerCommand :=
  (jobs.flatMap mdStateProcessJob).filterMap fun
    | .enqueue cmd => some cmd
    | _ => none

/-! ## 2. Coalescing -/

/-- `track_mint_pin_strength`. -/
def trackMintPinStrength : Option TrackPinReason → Nat
  | some .wallet => 3
  | some .momentumActive => 2
  | some .arbMultiDex => 1
  | none => 0

/-- `merge_track_mint_pin`. -/
def mergeTrackMintPin (existing incoming : Option TrackPinReason) : Option TrackPinReason :=
  if trackMintPinStrength existing ≤ trackMintPinStrength incoming then incoming else existing

/-- The accumulators of `md_state_coalesce_jobs`. -/
structure CoalescedJobs where
  out : List MdStateCommand
  lruVaults : List Pubkey
  lruBinArrays : List Pubkey
  pendingFlush : Bool
  pendingEvictContinue : Bool
  trackMints : SortedMap Pubkey (Option TrackPinReason)
  trackMintMessagesIn : Nat

namespace CoalescedJobs

def new : CoalescedJobs := ⟨[], [], [], false, false, .empty, 0⟩

/-- Demand for one mint; unpinned demand is rejected. -/
def trackMint (c : CoalescedJobs) (entry : Pubkey × Option TrackPinReason) : CoalescedJobs :=
  if entry.2 = none then c
  else
    let pin := match c.trackMints.lookup entry.1 with
      | some existing => mergeTrackMintPin existing entry.2
      | none => entry.2
    { c with
      trackMints := c.trackMints.insert entry.1 pin
      trackMintMessagesIn := c.trackMintMessagesIn + 1 }

/-- One job of the burst. -/
def job (c : CoalescedJobs) : MdStateCommand → CoalescedJobs
  | .flushGeyserSyncDebounced => { c with pendingFlush := true }
  | .continueGeyserEvict => { c with pendingEvictContinue := true }
  | .touchVault vault => { c with lruVaults := c.lruVaults ++ [vault] }
  | .touchBinArray pda => { c with lruBinArrays := c.lruBinArrays ++ [pda] }
  | .touchTrackedLruBatch vaults binArrays =>
      { c with lruVaults := c.lruVaults ++ vaults, lruBinArrays := c.lruBinArrays ++ binArrays }
  | .trackMint mint pin => c.trackMint (mint, pin)
  | .trackMints entries => entries.foldl trackMint c
  | other => { c with out := c.out ++ [other] }

/-- The batches behind the jobs that were passed through. -/
def batches (c : CoalescedJobs) : List MdStateCommand :=
  (if 0 < c.trackMintMessagesIn ∧ c.trackMints.entries ≠ [] then
    [.trackMints c.trackMints.entries] else []) ++
  (if c.lruVaults ≠ [] ∨ c.lruBinArrays ≠ [] then
    [.touchTrackedLruBatch (normalizePubkeys c.lruVaults) (normalizePubkeys c.lruBinArrays)]
    else []) ++
  (if c.pendingFlush then [.flushGeyserSyncDebounced] else []) ++
  (if c.pendingEvictContinue then [.continueGeyserEvict] else [])

end CoalescedJobs

/-- `md_state_coalesce_jobs`. -/
def mdStateCoalesceJobs (jobs : List MdStateCommand) : List MdStateCommand :=
  let c := jobs.foldl CoalescedJobs.job .new
  c.out ++ c.batches

/-! ## 3. The last wallet command -/

inductive WalletCommand where
  | apply
  | withdraw
  deriving DecidableEq

/-- Which commands are wallet commands: the two of that name, or also a wallet-pinned
    `TrackMint`, which the handler treats as an `ApplyWalletPin`. -/
inductive WalletReading where
  | named
  | handled
  deriving DecidableEq

/-- The wallet command of a mint that a worker command is. -/
def walletCommand (reading : WalletReading) (mint : Pubkey) :
    TrackWorkerCommand → Option WalletCommand
  | .applyWalletPin mint' => if mint' = mint then some .apply else none
  | .withdrawWalletPin mint' => if mint' = mint then some .withdraw else none
  | .trackMint mint' (some .wallet) =>
      if mint' = mint ∧ reading = .handled then some .apply else none
  | _ => none

/-- The last wallet command of a mint that a list of jobs issues. -/
def finalWalletCommand (reading : WalletReading) (mint : Pubkey) (jobs : List MdStateCommand) :
    Option WalletCommand :=
  ((issuedCommands jobs).filterMap (walletCommand reading mint)).getLast?

/-! ## 4. The demand of a burst -/

/-- The demand that the coalescer collects from a job. -/
def MdStateCommand.demand : MdStateCommand → List (Pubkey × Option TrackPinReason)
  | .trackMint mint pin => [(mint, pin)]
  | .trackMints entries => entries
  | _ => []

/-- The burst holds wallet-pinned demand of the mint. -/
def PinsWallet (mint : Pubkey) (jobs : List MdStateCommand) : Prop :=
  ∃ job ∈ jobs, (mint, some TrackPinReason.wallet) ∈ job.demand

/-- The wallet command of a mint that a job of the burst asks for. -/
def MdStateCommand.walletJob (reading : WalletReading) (mint : Pubkey) :
    MdStateCommand → Option WalletCommand
  | .trackWalletMint mint' => if mint' = mint then some .apply else none
  | .withdrawWalletMint mint' => if mint' = mint then some .withdraw else none
  | .trackMint mint' pin =>
      if mint' = mint ∧ pin = some .wallet ∧ reading = .handled then some .apply else none
  | .trackMints entries =>
      if (mint, some TrackPinReason.wallet) ∈ entries then some .apply else none
  | _ => none

/-- The last job of the burst that asks for a wallet command of the mint asks for the pin. -/
def LastAsksForPin (reading : WalletReading) (mint : Pubkey) (jobs : List MdStateCommand) : Prop :=
  (jobs.filterMap (MdStateCommand.walletJob reading mint)).getLast? = some .apply

/-- The last command that a job issues for a mint is the one it asks for. -/
theorem getLast?_mdStateProcessJob (reading : WalletReading) (mint : Pubkey)
    (job : MdStateCommand) :
    ((issuedCommands [job]).filterMap (walletCommand reading mint)).getLast? =
      job.walletJob reading mint := by
  unfold issuedCommands
  rw [List.flatMap_singleton]
  cases job with
  | trackMint mint' pin =>
      by_cases hpin : pin = none
      · subst hpin
        simp [mdStateProcessJob, MdStateCommand.walletJob]
      · simp only [mdStateProcessJob, if_neg hpin, MdStateCommand.walletJob]
        cases pin with
        | none => exact absurd rfl hpin
        | some reason =>
            cases reason with
            | wallet => by_cases h : mint' = mint ∧ reading = .handled <;> simp [walletCommand, h]
            | momentumActive => simp [walletCommand]
            | arbMultiDex => simp [walletCommand]
  | trackMints entries =>
      simp only [mdStateProcessJob, enqueueTrackMintsToWorker, MdStateCommand.walletJob]
      induction entries using List.reverseRecOn with
      | nil => rfl
      | append_singleton entries entry ih =>
          obtain ⟨mint', pin⟩ := entry
          rw [List.map_append, List.filterMap_append, List.filterMap_append, List.getLast?_append,
            ih]
          cases pin with
          | none => simp [enqueueTrackMintToWorker]
          | some reason =>
              cases reason with
              | wallet =>
                  by_cases h : mint' = mint
                  · simp [enqueueTrackMintToWorker, walletCommand, h]
                  · simp [enqueueTrackMintToWorker, walletCommand, h, Ne.symm h]
              | momentumActive => simp [enqueueTrackMintToWorker, walletCommand]
              | arbMultiDex => simp [enqueueTrackMintToWorker, walletCommand]
  | trackWalletMint mint' =>
      by_cases h : mint' = mint <;> simp [mdStateProcessJob, MdStateCommand.walletJob, walletCommand, h]
  | withdrawWalletMint mint' =>
      by_cases h : mint' = mint <;> simp [mdStateProcessJob, MdStateCommand.walletJob, walletCommand, h]
  | touchTrackedLruBatch vaults binArrays =>
      simp [mdStateProcessJob, MdStateCommand.walletJob, List.filterMap_map]
  | scheduleGeyserSyncAfterConfigChange => rfl
  | flushGeyserSyncDebounced => rfl
  | continueGeyserEvict => rfl
  | touchVault => rfl
  | touchBinArray => rfl
  | touchPool => rfl

/-- **What is issued last is what the last job with a wallet command asks for.** -/
theorem finalWalletCommand_eq (reading : WalletReading) (mint : Pubkey)
    (jobs : List MdStateCommand) :
    finalWalletCommand reading mint jobs =
      (jobs.filterMap (MdStateCommand.walletJob reading mint)).getLast? := by
  have hflat : (issuedCommands jobs).filterMap (walletCommand reading mint) =
      jobs.flatMap fun job => (issuedCommands [job]).filterMap (walletCommand reading mint) := by
    unfold issuedCommands
    rw [List.filterMap_flatMap, List.filterMap_flatMap]
    simp only [List.flatMap_singleton]
  unfold finalWalletCommand
  rw [hflat, List.getLast?_flatMap, List.getLast?_filterMap]
  simp only [getLast?_mdStateProcessJob]

/-! ## 5. What the coalescer collects -/

/-- The jobs that are passed through. -/
def MdStateCommand.passed : MdStateCommand → Bool
  | .trackWalletMint _ | .withdrawWalletMint _ | .scheduleGeyserSyncAfterConfigChange
  | .touchPool _ => true
  | _ => false

/-- The wallet pin is the strongest. -/
theorem mergeTrackMintPin_wallet (existing incoming : Option TrackPinReason) :
    mergeTrackMintPin existing incoming = some .wallet ↔
      existing = some .wallet ∨ incoming = some .wallet := by
  cases existing with
  | none => cases incoming <;> simp [mergeTrackMintPin, trackMintPinStrength]
  | some existing =>
      cases incoming with
      | none => cases existing <;> simp [mergeTrackMintPin, trackMintPinStrength]
      | some incoming =>
          cases existing <;> cases incoming <;> simp [mergeTrackMintPin, trackMintPinStrength]

namespace CoalescedJobs

/-- The accumulators hold a mint's wallet pin. -/
def HoldsWallet (c : CoalescedJobs) (mint : Pubkey) : Prop :=
  c.trackMints.lookup mint = some (some .wallet)

theorem holdsWallet_trackMint (c : CoalescedJobs) (entry : Pubkey × Option TrackPinReason)
    (mint : Pubkey) :
    (c.trackMint entry).HoldsWallet mint ↔ c.HoldsWallet mint ∨ entry = (mint, some .wallet) := by
  obtain ⟨mint', pin⟩ := entry
  unfold trackMint HoldsWallet
  by_cases hpin : pin = none
  · subst hpin
    simp
  · rw [if_neg hpin]
    dsimp only
    by_cases hm : mint = mint'
    · subst hm
      rw [SortedMap.lookup_insert_self]
      cases c.trackMints.lookup mint with
      | none => simp
      | some existing => simp [mergeTrackMintPin_wallet]
    · rw [SortedMap.lookup_insert_ne _ hm]
      simp [Ne.symm hm]

theorem holdsWallet_foldl (entries : List (Pubkey × Option TrackPinReason)) (c : CoalescedJobs)
    (mint : Pubkey) :
    (entries.foldl trackMint c).HoldsWallet mint ↔
      c.HoldsWallet mint ∨ (mint, some .wallet) ∈ entries := by
  induction entries generalizing c with
  | nil => simp
  | cons entry entries ih =>
      rw [List.foldl_cons, ih, holdsWallet_trackMint, List.mem_cons, or_assoc]
      simp only [eq_comm]

/-- **A job adds its demand.** -/
theorem holdsWallet_job (c : CoalescedJobs) (cmd : MdStateCommand) (mint : Pubkey) :
    (c.job cmd).HoldsWallet mint ↔
      c.HoldsWallet mint ∨ (mint, some TrackPinReason.wallet) ∈ cmd.demand := by
  cases cmd with
  | trackMint mint' pin =>
      rw [MdStateCommand.demand, List.mem_singleton, eq_comm (a := (mint, _))]
      exact holdsWallet_trackMint c (mint', pin) mint
  | trackMints entries => exact holdsWallet_foldl entries c mint
  | _ => simp [job, HoldsWallet, MdStateCommand.demand]

/-- A job stands in the output if it is passed through. -/
theorem out_trackMint (c : CoalescedJobs) (entry : Pubkey × Option TrackPinReason) :
    (c.trackMint entry).out = c.out := by
  unfold trackMint
  split <;> rfl

theorem out_foldl (entries : List (Pubkey × Option TrackPinReason)) (c : CoalescedJobs) :
    (entries.foldl trackMint c).out = c.out := by
  induction entries generalizing c with
  | nil => rfl
  | cons entry entries ih => rw [List.foldl_cons, ih, out_trackMint]

theorem out_job (c : CoalescedJobs) (cmd : MdStateCommand) :
    (c.job cmd).out = c.out ++ [cmd].filter MdStateCommand.passed := by
  cases cmd with
  | trackMint mint pin => exact (out_trackMint c _).trans (List.append_nil _).symm
  | trackMints entries => exact (out_foldl entries c).trans (List.append_nil _).symm
  | trackWalletMint => rfl
  | withdrawWalletMint => rfl
  | scheduleGeyserSyncAfterConfigChange => rfl
  | touchPool => rfl
  | _ => exact (List.append_nil _).symm

/-- The message counter stands whenever demand is kept. -/
def Counted (c : CoalescedJobs) : Prop := c.trackMints.entries ≠ [] → 0 < c.trackMintMessagesIn

theorem counted_trackMint {c : CoalescedJobs} (h : c.Counted)
    (entry : Pubkey × Option TrackPinReason) : (c.trackMint entry).Counted := by
  unfold trackMint
  split
  · exact h
  · exact fun _ => Nat.succ_pos _

theorem counted_foldl (entries : List (Pubkey × Option TrackPinReason)) {c : CoalescedJobs}
    (h : c.Counted) : (entries.foldl trackMint c).Counted := by
  induction entries generalizing c with
  | nil => exact h
  | cons entry entries ih => exact ih (counted_trackMint h entry)

theorem counted_job {c : CoalescedJobs} (h : c.Counted) (cmd : MdStateCommand) :
    (c.job cmd).Counted := by
  cases cmd with
  | trackMint mint pin => exact counted_trackMint h (mint, pin)
  | trackMints entries => exact counted_foldl entries h
  | _ => exact h

/-- **What the coalescer has collected from a burst**: the jobs it passes through, and the
    wallet pins that the burst asks for. -/
structure Collected (jobs : List MdStateCommand) (c : CoalescedJobs) : Prop where
  out : c.out = jobs.filter MdStateCommand.passed
  wallet : ∀ mint, c.HoldsWallet mint ↔ PinsWallet mint jobs
  counted : c.Counted

theorem collected (jobs : List MdStateCommand) : Collected jobs (jobs.foldl job .new) := by
  induction jobs using List.reverseRecOn with
  | nil =>
      refine ⟨rfl, fun mint => ?_, fun h => absurd rfl h⟩
      simp [HoldsWallet, PinsWallet, new]
  | append_singleton jobs last ih =>
      rw [List.foldl_append, List.foldl_cons, List.foldl_nil]
      refine ⟨?_, fun mint => ?_, counted_job ih.counted last⟩
      · rw [out_job, ih.out, List.filter_append]
      · rw [holdsWallet_job, ih.wallet]
        unfold PinsWallet
        simp [or_and_right, exists_or]

/-- The batches ask for a wallet command of the mints whose wallet pin they hold. -/
theorem walletJob_batches {c : CoalescedJobs} (h : c.Counted) (reading : WalletReading)
    (mint : Pubkey) [Decidable (c.HoldsWallet mint)] :
    (c.batches.filterMap (MdStateCommand.walletJob reading mint)).getLast? =
      if c.HoldsWallet mint then some .apply else none := by
  have hmem : (mint, some TrackPinReason.wallet) ∈ c.trackMints.entries ↔ c.HoldsWallet mint :=
    SortedMap.mem_entries
  have htail : ∀ l : List MdStateCommand, (∀ job ∈ l, job.walletJob reading mint = none) →
      l.filterMap (MdStateCommand.walletJob reading mint) = [] :=
    fun l hl => List.filterMap_eq_nil_iff.mpr hl
  unfold batches
  rw [List.append_assoc, List.append_assoc, List.filterMap_append, htail (_ ++ _), List.append_nil]
  · by_cases hbatch : 0 < c.trackMintMessagesIn ∧ c.trackMints.entries ≠ []
    · rw [if_pos hbatch]
      by_cases hw : c.HoldsWallet mint
      · simp [MdStateCommand.walletJob, hmem.mpr hw, hw]
      · simp [MdStateCommand.walletJob, mt hmem.mp hw, hw]
    · rw [if_neg hbatch, if_neg]
      · rfl
      · intro hw
        have hne : c.trackMints.entries ≠ [] := List.ne_nil_of_mem (hmem.mpr hw)
        exact hbatch ⟨h hne, hne⟩
  · intro job hjob
    rcases List.mem_append.mp hjob with hlru | hrest
    · split at hlru
      · rw [List.mem_singleton.mp hlru]
        rfl
      · cases hlru
    · rcases List.mem_append.mp hrest with hflush | hevict
      · split at hflush
        · rw [List.mem_singleton.mp hflush]
          rfl
        · cases hflush
      · split at hevict
        · rw [List.mem_singleton.mp hevict]
          rfl
        · cases hevict

end CoalescedJobs

/-! ## 6. The last decision -/

/-- A job that is not passed through asks for the wallet command of a mint only with
    wallet-pinned demand. -/
theorem walletJob_of_not_passed {reading : WalletReading} {mint : Pubkey} {job : MdStateCommand}
    (hp : job.passed = false) (hd : (mint, some TrackPinReason.wallet) ∉ job.demand) :
    job.walletJob reading mint = none := by
  cases job with
  | trackMint mint' pin =>
      refine if_neg fun h => hd ?_
      rw [MdStateCommand.demand, List.mem_singleton, h.1, h.2.1]
  | trackMints entries => exact if_neg hd
  | trackWalletMint => cases hp
  | withdrawWalletMint => cases hp
  | _ => rfl

/-- **After coalescing the pin is decided last as soon as the burst holds wallet-pinned demand
    of the mint; without any, the burst's own last decision stands.** -/
theorem finalWalletCommand_coalesced (reading : WalletReading) (mint : Pubkey)
    (jobs : List MdStateCommand) [Decidable (PinsWallet mint jobs)] :
    finalWalletCommand reading mint (mdStateCoalesceJobs jobs) =
      if PinsWallet mint jobs then some .apply else finalWalletCommand reading mint jobs := by
  have hc := CoalescedJobs.collected jobs
  classical
  rw [finalWalletCommand_eq, finalWalletCommand_eq]
  unfold mdStateCoalesceJobs
  dsimp only
  rw [List.filterMap_append, List.getLast?_append, CoalescedJobs.walletJob_batches hc.counted,
    hc.out]
  by_cases hw : PinsWallet mint jobs
  · rw [if_pos ((hc.wallet mint).mpr hw), if_pos hw]
    rfl
  · rw [if_neg (mt (hc.wallet mint).mp hw), if_neg hw, Option.none_or, List.filterMap_filter]
    congr 1
    refine List.filterMap_congr fun job hjob => ?_
    cases hp : job.passed with
    | true => simp
    | false =>
        have hd : (mint, some TrackPinReason.wallet) ∉ job.demand := fun h => hw ⟨job, hjob, h⟩
        simp [walletJob_of_not_passed hp hd]

/-- **Coalescing keeps the last wallet decision of a mint exactly when the burst holds no
    wallet-pinned demand of the mint, or its last job with a wallet command of the mint asks for
    the pin.** -/
theorem coalesce_final_iff (reading : WalletReading) (jobs : List MdStateCommand)
    (mint : Pubkey) :
    finalWalletCommand reading mint (mdStateCoalesceJobs jobs) =
      finalWalletCommand reading mint jobs ↔
    (PinsWallet mint jobs → LastAsksForPin reading mint jobs) := by
  classical
  rw [finalWalletCommand_coalesced]
  unfold LastAsksForPin
  rw [← finalWalletCommand_eq]
  by_cases hw : PinsWallet mint jobs
  · rw [if_pos hw]
    exact ⟨fun h _ => h.symm, fun h => (h hw).symm⟩
  · rw [if_neg hw]
    exact ⟨fun _ h => absurd h hw, fun _ => rfl⟩

/-- **A withdrawal after a wallet-pinned `TrackMint` is undone.** -/
theorem coalesced_withdraw_undone :
    ¬ ∀ (jobs : List MdStateCommand) (mint : Pubkey),
      finalWalletCommand .named mint (mdStateCoalesceJobs jobs) =
        finalWalletCommand .named mint jobs := by
  intro hall
  have h := hall [.trackMint 7 (some .wallet), .withdrawWalletMint 7] 7
  exact absurd h (by decide)

end IronCrab.Track

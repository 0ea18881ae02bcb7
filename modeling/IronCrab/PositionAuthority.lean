/-
  File:      IronCrab/PositionAuthority.lean
  Subject:   THE POSITION AUTHORITY (src/position_authority/state.rs): per-mint position states
             and the reducer that applies confirmed executions and wallet snapshots.

  A position is kept with the fields that the reducer reads (balance, fills, sold total, status,
  source and time of the last update); `decimals`, `token_program` and `ata` are only carried
  along by the source and are left out. The clock reading of the reducer is an argument.

  * `openMints_buy`, `openMints_sell`, `openMints_walletSnapshot`,
    `openMints_walletSnapshotComplete` -- which mints an event can open: the bought one, the
    reported one, none;
  * `openPositionsCount_eq` -- the count is the number of open mints.
-/
import IronCrab.Storage.Locks
import Mathlib.Data.Finset.Card

namespace IronCrab

/-! ## 1. Positions and events -/

inductive PositionStatus where
  | open
  | closed
  /-- Internal inconsistency (e.g. SELL > computed balance). -/
  | reconcileNeeded
  deriving DecidableEq

inductive UpdateSource where
  | execution
  | walletSnapshot
  deriving DecidableEq

structure PositionState where
  balanceRaw : UInt64
  buyFills : List UInt64
  soldRawTotal : UInt64
  status : PositionStatus
  lastUpdateSource : UpdateSource
  lastExecutionUnixSecs : Option Nat
  deriving DecidableEq

inductive PositionEvent where
  | buyConfirmed (mint : Mint) (fillRaw : UInt64)
  | sellConfirmed (mint : Mint) (soldRaw : UInt64)
  | walletBalanceSnapshot (mint : Mint) (balanceRaw : UInt64)
  | walletSnapshotComplete (mintsInWallet : List Mint)

inductive ExecutionStatus where
  | sent
  | confirmed
  | failed
  | timeout
  deriving DecidableEq

/-- The fields of an execution result that the reducer reads, and the SOL delta. -/
structure ExecutionResult where
  intentId : IntentId
  status : ExecutionStatus
  tokenMint : Option Mint
  /-- `metadata["side"]`. -/
  side : Option String
  fillIn : Option UInt64
  fillOut : Option UInt64
  walletSolDeltaLamports : Option Int
  deriving DecidableEq

def nativeSolMint : Mint := "So11111111111111111111111111111111111111112"

/-- `is_sol_or_wsol_mint`. -/
def isSolOrWsolMint (mint : Mint) : Bool :=
  decide (mint = "NATIVE_SOL") || decide (mint = nativeSolMint)

/-- `PositionEvent::try_from_execution_result`. -/
def PositionEvent.tryFromExecutionResult (result : ExecutionResult) : Option PositionEvent :=
  if result.status ≠ .confirmed then none
  else match result.tokenMint with
    | none => none
    | some mint =>
        if isSolOrWsolMint mint then none
        else match result.side with
          | some "BUY" => result.fillOut.map (.buyConfirmed mint)
          | some "SELL" => result.fillIn.map (.sellConfirmed mint)
          | _ => none

/-! ## 2. The reducer -/

structure PositionAuthority where
  byMint : AList fun _ : Mint => PositionState

namespace PositionAuthority

def new : PositionAuthority := ⟨∅⟩

/-- The entry of a mint that is not tracked yet. -/
def freshState : PositionState := ⟨0, [], 0, .closed, .execution, none⟩

/-- `by_mint.entry(mint).or_insert_with(..)`. -/
def entry (pa : PositionAuthority) (mint : Mint) : PositionState :=
  (pa.byMint.lookup mint).getD freshState

def put (pa : PositionAuthority) (mint : Mint) (e : PositionState) : PositionAuthority :=
  ⟨pa.byMint.insert mint e⟩

/-- Open with a balance, closed without. -/
def statusOf (balanceRaw : UInt64) : PositionStatus := if balanceRaw = 0 then .closed else .open

/-- `apply_buy`. -/
def applyBuy (pa : PositionAuthority) (mint : Mint) (fillRaw : UInt64) (nowSecs : Nat) :
    PositionAuthority :=
  let e := pa.entry mint
  let balanceRaw := Word.satAdd e.balanceRaw fillRaw
  pa.put mint { e with
    balanceRaw
    buyFills := e.buyFills ++ [fillRaw]
    status := statusOf balanceRaw
    lastUpdateSource := .execution
    lastExecutionUnixSecs := some nowSecs }

/-- `apply_sell`. -/
def applySell (pa : PositionAuthority) (mint : Mint) (soldRaw : UInt64) (nowSecs : Nat) :
    PositionAuthority :=
  let e := pa.entry mint
  let newBal := Word.satSub e.balanceRaw soldRaw
  pa.put mint { e with
    balanceRaw := if e.balanceRaw < soldRaw then 0 else newBal
    soldRawTotal := Word.satAdd e.soldRawTotal soldRaw
    status := if e.balanceRaw < soldRaw then .reconcileNeeded else statusOf newBal
    lastUpdateSource := .execution
    lastExecutionUnixSecs := some nowSecs }

/-- `apply_wallet_snapshot`. -/
def applyWalletSnapshot (pa : PositionAuthority) (mint : Mint) (balanceRaw : UInt64) :
    PositionAuthority :=
  if balanceRaw = 0 then ⟨pa.byMint.erase mint⟩
  else match pa.byMint.lookup mint with
    | some e =>
        let e := { e with lastUpdateSource := .walletSnapshot }
        if e.balanceRaw = balanceRaw then pa.put mint { e with status := .open }
        else pa.put mint { e with balanceRaw, status := .reconcileNeeded }
    | none => pa.put mint ⟨balanceRaw, [], 0, .reconcileNeeded, .walletSnapshot, none⟩

/-- `GHOST_CLEANUP_GRACE_SECS`. -/
def ghostCleanupGraceSecs : Nat := 90

/-- `ghost_eligible_after_snapshot_complete`. -/
def ghostEligibleAfterSnapshotComplete (p : PositionState) (nowSecs : Nat) : Bool :=
  match p.lastExecutionUnixSecs with
  | some t => decide (ghostCleanupGraceSecs ≤ nowSecs - t)
  | none => true

/-- `apply_wallet_snapshot_complete`: remove the positions that the wallet does not list. -/
def applyWalletSnapshotComplete (pa : PositionAuthority) (mintsInWallet : List Mint)
    (nowSecs : Nat) : PositionAuthority :=
  let ghosts := (pa.byMint.entries.filter fun e =>
    decide (0 < e.2.balanceRaw) && !isSolOrWsolMint e.1 && !mintsInWallet.contains e.1 &&
      ghostEligibleAfterSnapshotComplete e.2 nowSecs).map Sigma.fst
  ⟨pa.byMint.eraseAll ghosts⟩

/-- `apply`. -/
def apply (pa : PositionAuthority) (event : PositionEvent) (nowSecs : Nat) : PositionAuthority :=
  match event with
  | .buyConfirmed mint fillRaw => pa.applyBuy mint fillRaw nowSecs
  | .sellConfirmed mint soldRaw => pa.applySell mint soldRaw nowSecs
  | .walletBalanceSnapshot mint balanceRaw => pa.applyWalletSnapshot mint balanceRaw
  | .walletSnapshotComplete mints => pa.applyWalletSnapshotComplete mints nowSecs

/-- `apply_from_confirmed_execution_result`. -/
def applyFromConfirmedExecutionResult (pa : PositionAuthority) (result : ExecutionResult)
    (nowSecs : Nat) : PositionAuthority :=
  match PositionEvent.tryFromExecutionResult result with
  | some ev => pa.apply ev nowSecs
  | none => pa

/-- The filter of `try_from_market_event_kind`: no positions in SOL or WSOL. -/
def applyFromWalletMarketEventKind (pa : PositionAuthority) (kind : PositionEvent)
    (nowSecs : Nat) : PositionAuthority :=
  match kind with
  | .walletBalanceSnapshot mint balanceRaw =>
      if isSolOrWsolMint mint then pa else pa.applyWalletSnapshot mint balanceRaw
  | .walletSnapshotComplete mints => pa.applyWalletSnapshotComplete mints nowSecs
  | _ => pa

/-- `open_positions_count`. -/
def openPositionsCount (pa : PositionAuthority) : Nat :=
  (pa.byMint.entries.filter fun e => decide (0 < e.2.balanceRaw)).length

/-- `tradable_balance_raw`. -/
def tradableBalanceRaw (pa : PositionAuthority) (mint : Mint) : Option UInt64 :=
  (pa.byMint.lookup mint).map fun p => if p.status = .closed then 0 else p.balanceRaw

/-! ## 3. Open mints -/

/-- The mints with a balance. -/
def openMints (pa : PositionAuthority) : Finset Mint :=
  (pa.byMint.keysWhere fun p => decide (0 < p.balanceRaw)).toFinset

theorem mem_openMints {pa : PositionAuthority} {mint : Mint} :
    mint ∈ pa.openMints ↔ ∃ p, pa.byMint.lookup mint = some p ∧ 0 < p.balanceRaw := by
  simp [openMints, AList.mem_keysWhere]

/-- **The count is the number of open mints.** -/
theorem openPositionsCount_eq (pa : PositionAuthority) :
    pa.openPositionsCount = pa.openMints.card := by
  unfold openMints openPositionsCount AList.keysWhere
  rw [List.toFinset_card_of_nodup, List.length_map]
  exact (List.filter_sublist.map Sigma.fst).nodup pa.byMint.nodupKeys

/-- Whether the written mint is open is what is written. -/
theorem mem_openMints_put_self {pa : PositionAuthority} {mint : Mint} {e : PositionState} :
    mint ∈ (pa.put mint e).openMints ↔ 0 < e.balanceRaw := by
  have hself : (pa.put mint e).byMint.lookup mint = some e := AList.lookup_insert pa.byMint
  rw [mem_openMints, hself]
  constructor
  · rintro ⟨p, hp, hpos⟩
    cases hp
    exact hpos
  · exact fun hpos => ⟨e, rfl, hpos⟩

theorem mem_openMints_put_ne {pa : PositionAuthority} {mint mint' : Mint} {e : PositionState}
    (h : mint' ≠ mint) : mint' ∈ (pa.put mint e).openMints ↔ mint' ∈ pa.openMints := by
  have hne : (pa.put mint e).byMint.lookup mint' = pa.byMint.lookup mint' :=
    AList.lookup_insert_ne h
  rw [mem_openMints, mem_openMints, hne]

/-- Another mint's entry is not touched by a write. -/
theorem mem_openMints_put {pa : PositionAuthority} {mint mint' : Mint} {e : PositionState}
    (h : mint' ∈ (pa.put mint e).openMints) :
    (mint' = mint ∧ 0 < e.balanceRaw) ∨ mint' ∈ pa.openMints := by
  by_cases hm : mint' = mint
  · subst hm
    exact .inl ⟨rfl, mem_openMints_put_self.mp h⟩
  · exact .inr ((mem_openMints_put_ne hm).mp h)

/-- **A BUY opens at most its own mint.** -/
theorem openMints_buy (pa : PositionAuthority) (mint : Mint) (fillRaw : UInt64) (now : Nat) :
    (pa.applyBuy mint fillRaw now).openMints ⊆ insert mint pa.openMints := by
  intro mint' h
  rcases mem_openMints_put h with ⟨rfl, _⟩ | h
  · exact Finset.mem_insert_self _ _
  · exact Finset.mem_insert_of_mem h

/-- **A SELL opens nothing.** -/
theorem openMints_sell (pa : PositionAuthority) (mint : Mint) (soldRaw : UInt64) (now : Nat) :
    (pa.applySell mint soldRaw now).openMints ⊆ pa.openMints := by
  intro mint' h
  rcases mem_openMints_put h with ⟨rfl, hpos⟩ | h
  · -- a balance that is left was there before
    have hbal : 0 < (pa.entry mint').balanceRaw := by
      rw [UInt64.lt_iff_toNat_lt] at hpos ⊢
      by_cases hlt : (pa.entry mint').balanceRaw < soldRaw
      · rw [if_pos hlt] at hpos
        exact absurd hpos (Nat.lt_irrefl _)
      · rw [if_neg hlt, Word.toNat_satSub] at hpos
        show 0 < _
        omega
    unfold entry at hbal
    cases hl : pa.byMint.lookup mint' with
    | none =>
        rw [hl] at hbal
        exact absurd hbal (by decide)
    | some p =>
        rw [hl] at hbal
        exact mem_openMints.mpr ⟨p, hl, hbal⟩
  · exact h

theorem mem_openMints_eraseAll {pa : PositionAuthority} (ks : List Mint) {mint : Mint}
    (h : mint ∈ openMints ⟨pa.byMint.eraseAll ks⟩) : mint ∈ pa.openMints := by
  obtain ⟨p, hp, hpos⟩ := mem_openMints.mp h
  have hl : (pa.byMint.eraseAll ks).lookup mint = some p := hp
  rw [AList.lookup_eraseAll] at hl
  by_cases hk : mint ∈ ks
  · rw [if_pos hk] at hl
    cases hl
  · rw [if_neg hk] at hl
    exact mem_openMints.mpr ⟨p, hl, hpos⟩

/-- **A balance snapshot opens at most its own mint, and only with a balance.** -/
theorem openMints_walletSnapshot (pa : PositionAuthority) (mint : Mint) (balanceRaw : UInt64)
    {mint' : Mint} (h : mint' ∈ (pa.applyWalletSnapshot mint balanceRaw).openMints) :
    (mint' = mint ∧ balanceRaw ≠ 0) ∨ mint' ∈ pa.openMints := by
  unfold applyWalletSnapshot at h
  by_cases h0 : balanceRaw = 0
  · rw [if_pos h0] at h
    exact .inr (mem_openMints_eraseAll [mint] h)
  · rw [if_neg h0] at h
    cases hl : pa.byMint.lookup mint with
    | none =>
        rw [hl] at h
        rcases mem_openMints_put h with ⟨rfl, _⟩ | h
        · exact .inl ⟨rfl, h0⟩
        · exact .inr h
    | some e =>
        rw [hl] at h
        simp only at h
        split at h
        all_goals
          rcases mem_openMints_put h with ⟨rfl, _⟩ | h
          · exact .inl ⟨rfl, h0⟩
          · exact .inr h

/-- **A complete wallet list opens nothing.** -/
theorem openMints_walletSnapshotComplete (pa : PositionAuthority) (mints : List Mint)
    (now : Nat) : (pa.applyWalletSnapshotComplete mints now).openMints ⊆ pa.openMints :=
  fun _ h => mem_openMints_eraseAll _ h

/-! ## 4. What stays open -/

/-- **A BUY closes nothing.** -/
theorem openMints_subset_buy (pa : PositionAuthority) (mint : Mint) (fillRaw : UInt64)
    (now : Nat) : pa.openMints ⊆ (pa.applyBuy mint fillRaw now).openMints := by
  intro mint' h
  by_cases hm : mint' = mint
  · subst hm
    obtain ⟨p, hp, hpos⟩ := mem_openMints.mp h
    refine mem_openMints_put_self.mpr ?_
    have hentry : pa.entry mint' = p := by
      unfold entry
      rw [hp]
      rfl
    rw [hentry, UInt64.lt_iff_toNat_lt, Word.toNat_satAdd]
    rw [UInt64.lt_iff_toNat_lt] at hpos
    have hzero : (0 : UInt64).toNat = 0 := rfl
    have hlt := p.balanceRaw.toNat_lt
    have hsize : Word.size = 2 ^ 64 := rfl
    omega
  · exact (mem_openMints_put_ne hm).mpr h

/-- **A SELL closes at most its own mint.** -/
theorem mem_openMints_sell_ne {pa : PositionAuthority} {mint mint' : Mint} {soldRaw : UInt64}
    {now : Nat} (hm : mint' ≠ mint) (h : mint' ∈ pa.openMints) :
    mint' ∈ (pa.applySell mint soldRaw now).openMints :=
  (mem_openMints_put_ne hm).mpr h

/-- **A balance snapshot closes at most its own mint, and only without a balance.** -/
theorem mem_openMints_walletSnapshot {pa : PositionAuthority} {mint mint' : Mint}
    {balanceRaw : UInt64} (hm : mint' ≠ mint ∨ balanceRaw ≠ 0) (h : mint' ∈ pa.openMints) :
    mint' ∈ (pa.applyWalletSnapshot mint balanceRaw).openMints := by
  obtain ⟨p, hp, hpos⟩ := mem_openMints.mp h
  have hput : ∀ e : PositionState, (mint' = mint → 0 < e.balanceRaw) →
      mint' ∈ (pa.put mint e).openMints := by
    intro e he
    by_cases heq : mint' = mint
    · subst heq
      exact mem_openMints_put_self.mpr (he rfl)
    · exact (mem_openMints_put_ne heq).mpr h
  unfold applyWalletSnapshot
  by_cases h0 : balanceRaw = 0
  · rw [if_pos h0]
    have hne : mint' ≠ mint := hm.resolve_right fun hb => hb h0
    exact mem_openMints.mpr ⟨p, (AList.lookup_erase_ne hne).trans hp, hpos⟩
  · have hb : 0 < balanceRaw := UInt64.pos_iff_ne_zero.mpr h0
    rw [if_neg h0]
    cases hl : pa.byMint.lookup mint with
    | none => exact hput _ fun _ => hb
    | some e =>
        dsimp only
        split
        · next heq => exact hput _ fun _ => heq ▸ hb
        · exact hput _ fun _ => hb

/-- **A complete wallet list closes no mint that it names, and none that was traded lately.** -/
theorem mem_openMints_walletSnapshotComplete {pa : PositionAuthority} {mints : List Mint}
    {now : Nat} {mint : Mint} (hm : mint ∈ mints ∨ ∀ p, pa.byMint.lookup mint = some p →
      ghostEligibleAfterSnapshotComplete p now = false) (h : mint ∈ pa.openMints) :
    mint ∈ (pa.applyWalletSnapshotComplete mints now).openMints := by
  obtain ⟨p, hp, hpos⟩ := mem_openMints.mp h
  refine mem_openMints.mpr ⟨p, ?_, hpos⟩
  unfold applyWalletSnapshotComplete
  dsimp only
  rw [AList.lookup_eraseAll, if_neg, hp]
  intro hghost
  obtain ⟨⟨m, q⟩, hmem, rfl⟩ := List.mem_map.mp hghost
  obtain ⟨hentry, hcond⟩ := List.mem_filter.mp hmem
  simp only [Bool.and_eq_true, Bool.not_eq_true'] at hcond
  rcases hm with hin | hgrace
  · have hcontains : mints.contains m = true := List.contains_iff_mem.mpr hin
    rw [hcontains] at hcond
    exact absurd hcond.1.2 (by simp)
  · have hq : pa.byMint.lookup m = some q := AList.mem_lookup_iff.mpr hentry
    rw [hgrace q hq] at hcond
    exact absurd hcond.2 (by simp)

end PositionAuthority

end IronCrab

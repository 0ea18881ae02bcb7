/-
  File:      IronCrab/Engine/FillAccounting.lean
  Subject:   WHAT A CONFIRMED FILL DOES TO THE LOCK MANAGER, and the wallet snapshot that reports
             the same trade (src/bin/execution_engine.rs, end of `process_intent`).

  `fillAccounting` and `terminalRelease` are the last two pieces of the pipeline, access by
  access. A wallet snapshot of the post-trade balance may be applied between any two accesses.

  * `commutes_buy_iff`, `commutes_sell_iff` -- for each side, exactly when the ledger ends at the
    snapshot's amount and never shows more than the wallet ever held;
  * **`confirmation_commutes_iff`** -- both in one statement, for every state, every fill, every
    slot and every position of the snapshot;
  * `confirmation_snapshot_first_loses` -- a snapshot that comes before the handling of a partial
    SELL leaves the ledger below the wallet's balance.
-/
import IronCrab.Engine.Context
import IronCrab.Storage.Refresh

namespace IronCrab

/-! ## 1. The code -/

/-- What is known of the confirmed transaction when the accounting starts. -/
structure ConfirmedFill where
  /-- `confirmed_buy_fill_out_raw`. -/
  buyFillOutRaw : Option UInt64
  /-- `confirmed_sell_fill_in_raw`. -/
  sellFillInRaw : Option UInt64
  /-- `confirmed_sell_wallet_balance_absent_after_tx`. -/
  sellWalletBalanceAbsentAfterTx : Bool
  /-- `tx_landing_slot`. -/
  txLandingSlot : Option UInt64

/-- BUY: credit the fill, unless the balance is already at least the fill. -/
def bookBuyFill {α : Type} (mint : Mint) (fillRaw : Option UInt64) (k : Pipeline α) : Pipeline α :=
  match fillRaw with
  | none => k
  | some fillRaw =>
      .act (.availableTokenBalance mint) fun currentBefore =>
      if decide (fillRaw ≤ currentBefore) && decide (0 < currentBefore) then k
      else
        -- `add_available_token_balance`
        .act (.availableTokenBalance mint) fun current =>
        .act (.insertAvailableToken mint (Word.satAdd current fillRaw)) fun _ => k

/-- SELL: clear the mint after a full close, leave the balance alone after a partial sell. -/
def bookSellClose {α : Type} (intentId : IntentId) (mint : Mint) (isColdPathRecovery : Bool)
    (soldRaw : UInt64) (walletBalanceAbsentAfterTx : Bool) (txLandingSlot : Option UInt64)
    (k : Pipeline α) : Pipeline α :=
  -- `available_and_locked_tokens_for_intent`
  .act (.lockedTokensForIntent intentId mint) fun locked =>
  .act (.availableTokenBalance mint) fun avail =>
  .act (.tokenPositionTotalAtLock intentId mint) fun totalAtLock =>
  let totalPos := totalAtLock.getD (Word.satAdd avail locked)
  if scope48FullClose isColdPathRecovery soldRaw totalPos walletBalanceAbsentAfterTx then
    -- `clear_token_wallet_presence`
    .act (.removeTokenWalletAtaPresent mint) fun _ =>
    .act (.removeAvailableToken mint) fun _ =>
    .act (.insertClearedAtSlot mint txLandingSlot) fun _ => k
  else k

/-- The success fill accounting of a decision. -/
def fillAccounting {α : Type} (i : TradeIntent) (outcome : DecisionOutcome) (fill : ConfirmedFill)
    (k : Pipeline α) : Pipeline α :=
  if outcome = .confirmed then
    match i.side with
    | .buy => bookBuyFill i.resources.outputMint fill.buyFillOutRaw k
    | .sell =>
        bookSellClose i.intentId i.resources.inputMint i.isColdPathRecoverySell
          (fill.sellFillInRaw.getD i.requiredCapital) fill.sellWalletBalanceAbsentAfterTx
          fill.txLandingSlot k
  else k

/-- `release_locks`. -/
def releaseLocks {α : Type} (intentId : IntentId) (k : Pipeline α) : Pipeline α :=
  .act (.releaseCapital intentId true) fun _ => .act (.releaseResources intentId) fun _ => k

/-- `release_locks_after_confirmed_sell`. -/
def releaseLocksAfterConfirmedSell {α : Type} (intentId : IntentId) (k : Pipeline α) :
    Pipeline α :=
  .act (.releaseCapital intentId false) fun _ => .act (.releaseResources intentId) fun _ => k

/-- The release at the terminal outcome. -/
def terminalRelease {α : Type} (i : TradeIntent) (outcome : DecisionOutcome) (k : Pipeline α) :
    Pipeline α :=
  if outcome = .confirmed ∧ i.side = .sell then releaseLocksAfterConfirmedSell i.intentId k
  else releaseLocks i.intentId k

/-- The handling of a confirmation, from the fill accounting to the final release. -/
def confirmationHandling (i : TradeIntent) (fill : ConfirmedFill) : Pipeline Unit :=
  fillAccounting i .confirmed fill (terminalRelease i .confirmed (.ret ()))

/-! ## 2. A mint's ledger -/

/-- Whether the landing slot, once it is the close marker, lets the snapshot through. -/
def newerThanLanding (txLandingSlot : Option UInt64) (slot : UInt64) : Bool :=
  match txLandingSlot with
  | none => false
  | some landing => decide (landing < slot)

namespace LockManager

section Ledger

variable (m : LockManager) (id : IntentId) (mint : Mint)

/-- Whether the close marker of the mint lets a snapshot of this slot through. -/
def acceptsSnapshot (slot : UInt64) : Bool :=
  match m.tokenWalletAtaClearedAtSlot.lookup mint with
  | none => true
  | some none => false
  | some (some closedSlot) => decide (closedSlot < slot)

/-- **What a snapshot with a slot does to the mint.** -/
theorem applyWalletTokenSnapshot_eq (amount slot : UInt64) :
    m.applyWalletTokenSnapshot mint amount (some slot) =
      if m.acceptsSnapshot mint slot then
        (({ m with tokenWalletAtaClearedAtSlot := m.tokenWalletAtaClearedAtSlot.erase mint } :
          LockManager).markTokenWalletAtaPresent mint).setAvailableTokenBalance mint amount
      else m := by
  unfold applyWalletTokenSnapshot walletTokenSnapshotStaleAfterClose acceptsSnapshot
  cases m.tokenWalletAtaClearedAtSlot.lookup mint with
  | none => rfl
  | some closed =>
      cases closed with
      | none => rfl
      | some closedSlot =>
          by_cases h : closedSlot < slot
          · have hle : ¬ slot ≤ closedSlot := UInt64.not_le.mpr h
            simp [h, hle]
          · have hle : slot ≤ closedSlot := UInt64.not_lt.mp h
            simp [h, hle]

/-- The per-mint sum as a function of the locks. -/
def lockedSum (locks : AList fun _ : IntentId => CapitalLock) (mint : Mint) : UInt64 :=
  Word.wrapSum ((locks.entries.map Sigma.snd).map fun l => l.tokens.amount mint)

@[simp] theorem availableTokenBalance_snapshot (amount slot : UInt64) :
    (m.applyWalletTokenSnapshot mint amount (some slot)).availableTokenBalance mint =
      if m.acceptsSnapshot mint slot then Word.satSub amount (lockedSum m.capitalLocks mint)
      else m.availableTokenBalance mint := by
  rw [applyWalletTokenSnapshot_eq]
  split
  · exact Finmap.getOr_insert_self 0 mint _ _
  · rfl

@[simp] theorem capitalLocks_snapshot (amount slot : UInt64) :
    (m.applyWalletTokenSnapshot mint amount (some slot)).capitalLocks = m.capitalLocks := by
  rw [applyWalletTokenSnapshot_eq]
  split <;> rfl

@[simp] theorem availableTokenBalance_insertAvailableToken (v : UInt64) :
    (m.insertAvailableToken mint v).availableTokenBalance mint = v :=
  Finmap.getOr_insert_self 0 mint _ _

@[simp] theorem availableTokenBalance_removeAvailableToken :
    (m.removeAvailableToken mint).availableTokenBalance mint = 0 :=
  Finmap.getOr_erase_self 0 mint _

@[simp] theorem acceptsSnapshot_insertClearedAtSlot (closed : Option UInt64) (slot : UInt64) :
    (m.insertClearedAtSlot mint closed).acceptsSnapshot mint slot =
      newerThanLanding closed slot := by
  unfold acceptsSnapshot insertClearedAtSlot
  simp only [Finmap.lookup_insert]
  cases closed <;> rfl

/-- A release changes the mint's free balance by what it returns. -/
@[simp] theorem availableTokenBalance_release (rt : Bool) :
    (m.releaseCapitalLockRestoreTokens id rt).availableTokenBalance mint =
      if rt then m.availableTokenBalance mint + m.lockedTokensForIntent id mint
      else m.availableTokenBalance mint := by
  unfold releaseCapitalLockRestoreTokens lockedTokensForIntent
  cases hl : m.capitalLocks.lookup id with
  | none => simp
  | some lock =>
      cases rt with
      | true => exact availableTokenBalance_restoreLock _ lock mint
      | false => exact availableTokenBalance_restoreLamports _ lock mint

@[simp] theorem acceptsSnapshot_release (rt : Bool) (slot : UInt64) :
    (m.releaseCapitalLockRestoreTokens id rt).acceptsSnapshot mint slot =
      m.acceptsSnapshot mint slot := by
  unfold releaseCapitalLockRestoreTokens
  cases hl : m.capitalLocks.lookup id with
  | none => rfl
  | some lock =>
      obtain ⟨t, o, h⟩ := sameButTokens_restoreLock
        { m with capitalLocks := m.capitalLocks.erase id } lock rt
      show (restoreLock _ lock rt).acceptsSnapshot mint slot = _
      rw [h]
      unfold restoreLamports
      cases lock.reservesTradingWsol <;> rfl

@[simp] theorem availableTokenBalance_releaseResources :
    (m.releaseResourceLocksForIntent id).availableTokenBalance mint =
      m.availableTokenBalance mint := rfl

@[simp] theorem availableTokenBalance_insertClearedAtSlot (slot : Option UInt64) :
    (m.insertClearedAtSlot mint slot).availableTokenBalance mint =
      m.availableTokenBalance mint := rfl

@[simp] theorem acceptsSnapshot_releaseResources (slot : UInt64) :
    (m.releaseResourceLocksForIntent id).acceptsSnapshot mint slot =
      m.acceptsSnapshot mint slot := rfl

@[simp] theorem acceptsSnapshot_insertAvailableToken (v slot : UInt64) :
    (m.insertAvailableToken mint v).acceptsSnapshot mint slot = m.acceptsSnapshot mint slot := rfl

@[simp] theorem acceptsSnapshot_removeTokenWalletAtaPresent (slot : UInt64) :
    (m.removeTokenWalletAtaPresent mint).acceptsSnapshot mint slot =
      m.acceptsSnapshot mint slot := rfl

@[simp] theorem acceptsSnapshot_removeAvailableToken (slot : UInt64) :
    (m.removeAvailableToken mint).acceptsSnapshot mint slot = m.acceptsSnapshot mint slot := rfl

@[simp] theorem capitalLocks_insertAvailableToken (v : UInt64) :
    (m.insertAvailableToken mint v).capitalLocks = m.capitalLocks := rfl

@[simp] theorem capitalLocks_removeTokenWalletAtaPresent :
    (m.removeTokenWalletAtaPresent mint).capitalLocks = m.capitalLocks := rfl

@[simp] theorem capitalLocks_removeAvailableToken :
    (m.removeAvailableToken mint).capitalLocks = m.capitalLocks := rfl

@[simp] theorem capitalLocks_insertClearedAtSlot (slot : Option UInt64) :
    (m.insertClearedAtSlot mint slot).capitalLocks = m.capitalLocks := rfl

@[simp] theorem capitalLocks_releaseResources :
    (m.releaseResourceLocksForIntent id).capitalLocks = m.capitalLocks := rfl

/-- The mint is held by nobody but `id`. -/
def OnlyHolder : Prop := m.lockedTokens mint = (m.lockedTokensForIntent id mint).toNat

instance : Decidable (m.OnlyHolder id mint) := inferInstanceAs (Decidable (_ = _))

@[simp] theorem lockedTokensForIntent_snapshot (amount slot : UInt64) :
    (m.applyWalletTokenSnapshot mint amount (some slot)).lockedTokensForIntent id mint =
      m.lockedTokensForIntent id mint := by
  unfold lockedTokensForIntent
  rw [capitalLocks_snapshot]

@[simp] theorem intentTokenPositionTotalAtLock_snapshot (amount slot : UInt64) :
    (m.applyWalletTokenSnapshot mint amount (some slot)).intentTokenPositionTotalAtLock id mint =
      m.intentTokenPositionTotalAtLock id mint := by
  unfold intentTokenPositionTotalAtLock
  rw [capitalLocks_snapshot]

@[simp] theorem lockedTokensForIntent_insertAvailableToken (v : UInt64) :
    (m.insertAvailableToken mint v).lockedTokensForIntent id mint =
      m.lockedTokensForIntent id mint := rfl

variable {m id mint}

/-- After the release of its only holder nothing of the mint is held. -/
theorem OnlyHolder.total_erase (h : m.OnlyHolder id mint) :
    (m.capitalLocks.erase id).total (CapitalLock.tokenPart mint) = 0 := by
  unfold OnlyHolder lockedTokens lockedTokensForIntent at h
  cases hl : m.capitalLocks.lookup id with
  | none =>
      rw [hl] at h
      rw [AList.erase_of_notMem (AList.lookup_eq_none.mp hl), h]
      rfl
  | some lock =>
      rw [hl] at h
      have herase := AList.total_erase (CapitalLock.tokenPart mint) hl
      have hpart : lock.tokenPart mint = (lock.tokens.amount mint).toNat := rfl
      simp only at h
      omega

theorem toNat_lockedSum (locks : AList fun _ : IntentId => CapitalLock) (mint : Mint) :
    (lockedSum locks mint).toNat = locks.total (CapitalLock.tokenPart mint) % Word.size :=
  toNat_sumLockedForMint { LockManager.new 0 with capitalLocks := locks } mint

/-- What a snapshot subtracts while the only holder has its lock. -/
theorem OnlyHolder.lockedSum_eq (h : m.OnlyHolder id mint) :
    lockedSum m.capitalLocks mint = m.lockedTokensForIntent id mint := by
  refine UInt64.toNat_inj.mp ?_
  have hs : m.capitalLocks.total (CapitalLock.tokenPart mint) =
      (m.lockedTokensForIntent id mint).toNat := h
  rw [toNat_lockedSum, hs]
  exact Nat.mod_eq_of_lt (m.lockedTokensForIntent id mint).toNat_lt

/-- And nothing after its release. -/
theorem OnlyHolder.lockedSum_erase (h : m.OnlyHolder id mint) :
    lockedSum (m.capitalLocks.erase id) mint = 0 := by
  refine UInt64.toNat_inj.mp ?_
  rw [toNat_lockedSum, h.total_erase]
  rfl

end Ledger

end LockManager

/-! ## 3. The handling and the snapshot -/

/-- The mint whose balance the trade changes. -/
def TradeIntent.tradedMint (i : TradeIntent) : Mint :=
  match i.side with
  | .buy => i.resources.outputMint
  | .sell => i.resources.inputMint

namespace ExecutionContext

def setLocks (c : ExecutionContext) (m : LockManager) : ExecutionContext :=
  { c with lockManager := m }

/-- A wallet snapshot with a slot. -/
def walletSnapshot (mint : Mint) (amount slot : UInt64) (c : ExecutionContext) :
    ExecutionContext :=
  c.setLocks (c.lockManager.applyWalletTokenSnapshot mint amount (some slot))

/-- Free and held of the mint. -/
def shown (c : ExecutionContext) (mint : Mint) : Nat :=
  (c.lockManager.availableTokenBalance mint).toNat + c.lockManager.lockedTokens mint

@[simp] theorem lockManager_setLocks (c : ExecutionContext) (m : LockManager) :
    (c.setLocks m).lockManager = m := rfl

section Accesses

variable (c : ExecutionContext) (w : World) (id : IntentId) (mint : Mint)

@[simp] theorem perform_availableTokenBalance :
    c.perform w (.availableTokenBalance mint) = (c, c.lockManager.availableTokenBalance mint) := rfl

@[simp] theorem perform_lockedTokensForIntent :
    c.perform w (.lockedTokensForIntent id mint) =
      (c, c.lockManager.lockedTokensForIntent id mint) := rfl

@[simp] theorem perform_tokenPositionTotalAtLock :
    c.perform w (.tokenPositionTotalAtLock id mint) =
      (c, c.lockManager.intentTokenPositionTotalAtLock id mint) := rfl

@[simp] theorem perform_insertAvailableToken (v : UInt64) :
    c.perform w (.insertAvailableToken mint v) =
      (c.setLocks (c.lockManager.insertAvailableToken mint v), ()) := rfl

@[simp] theorem perform_removeTokenWalletAtaPresent :
    c.perform w (.removeTokenWalletAtaPresent mint) =
      (c.setLocks (c.lockManager.removeTokenWalletAtaPresent mint), ()) := rfl

@[simp] theorem perform_removeAvailableToken :
    c.perform w (.removeAvailableToken mint) =
      (c.setLocks (c.lockManager.removeAvailableToken mint), ()) := rfl

@[simp] theorem perform_insertClearedAtSlot (slot : Option UInt64) :
    c.perform w (.insertClearedAtSlot mint slot) =
      (c.setLocks (c.lockManager.insertClearedAtSlot mint slot), ()) := rfl

@[simp] theorem perform_releaseCapital (rt : Bool) :
    c.perform w (.releaseCapital id rt) =
      (c.setLocks (c.lockManager.releaseCapitalLockRestoreTokens id rt), ()) := rfl

@[simp] theorem perform_releaseResources :
    c.perform w (.releaseResources id) =
      (c.setLocks (c.lockManager.releaseResourceLocksForIntent id), ()) := rfl

end Accesses

end ExecutionContext

/-- **What the handling and the snapshot should do together**, with the snapshot after `p`
    accesses of the handling: nothing stays held, the free balance is the snapshot's, and the
    ledger never shows more than the wallet held before or after the trade. -/
structure Commutes (c : ExecutionContext) (i : TradeIntent) (fill : ConfirmedFill)
    (wallet amount slot : UInt64) (p : Nat) (w : World) : Prop where
  released : (Effect.resultWith ExecutionContext.perform w
    (ExecutionContext.walletSnapshot i.tradedMint amount slot) p c
    (confirmationHandling i fill)).lockManager.lockedTokens i.tradedMint = 0
  available : (Effect.resultWith ExecutionContext.perform w
    (ExecutionContext.walletSnapshot i.tradedMint amount slot) p c
    (confirmationHandling i fill)).lockManager.availableTokenBalance i.tradedMint = amount
  bounded : ∀ c' ∈ Effect.trailWith ExecutionContext.perform w
      (ExecutionContext.walletSnapshot i.tradedMint amount slot) p c
      (confirmationHandling i fill),
    c'.shown i.tradedMint ≤ max wallet.toNat amount.toNat

/-! ## 4. When they do: a confirmed BUY -/

/-- The ledger that the handling of a confirmed trade starts from: no other intent holds the
    mint, and free and held are the wallet's balance before the trade. -/
structure Booked (c : ExecutionContext) (i : TradeIntent) (wallet s : UInt64) : Prop where
  onlyHolder : c.lockManager.OnlyHolder i.intentId i.tradedMint
  held : c.lockManager.lockedTokensForIntent i.intentId i.tradedMint = s
  balance : (c.lockManager.availableTokenBalance i.tradedMint).toNat + s.toNat = wallet.toNat

namespace Booked

variable {c : ExecutionContext} {i : TradeIntent} {wallet s : UInt64}

theorem total (h : Booked c i wallet s) :
    c.lockManager.capitalLocks.total (CapitalLock.tokenPart i.tradedMint) = s.toNat := by
  rw [← h.held]
  exact h.onlyHolder

theorem sum (h : Booked c i wallet s) :
    LockManager.lockedSum c.lockManager.capitalLocks i.tradedMint = s := by
  rw [← h.held]
  exact h.onlyHolder.lockedSum_eq

end Booked

/-- **The condition for a confirmed BUY.** A snapshot that the close marker drops must find the
    fill larger than the balance (so that the fill is added); one that it lets through must not
    fall between the balance check and the add's own read, unless the fill is skipped. -/
def BuyCommutesWhen (m : LockManager) (mint : Mint) (wallet f slot : UInt64) (p : Nat) : Prop :=
  if m.acceptsSnapshot mint slot then
    ¬ (p = 1 ∧ wallet < f ∧ wallet.toNat + f.toNat ≠ Word.size - 1)
  else wallet < f

section Buy

variable {c : ExecutionContext} {i : TradeIntent} {fill : ConfirmedFill}
  {wallet amount slot f : UInt64} {p : Nat} {w : World}

theorem confirmationHandling_buy (hside : i.side = .buy) (hf : fill.buyFillOutRaw = some f) :
    confirmationHandling i fill =
      bookBuyFill i.tradedMint (some f) (releaseLocks i.intentId (.ret ())) := by
  simp [confirmationHandling, fillAccounting, terminalRelease, TradeIntent.tradedMint, hside, hf]

theorem Booked.free (hb : Booked c i wallet 0) :
    c.lockManager.availableTokenBalance i.tradedMint = wallet :=
  UInt64.toNat_inj.mp hb.balance

theorem satSub_zero (x : UInt64) : Word.satSub x 0 = x :=
  UInt64.toNat_inj.mp (Word.toNat_satSub x 0)

/-- The fill that is already in the balance is not added again. -/
theorem commutes_buy_skip (hh : confirmationHandling i fill =
      bookBuyFill i.tradedMint (some f) (releaseLocks i.intentId (.ret ())))
    (hb : Booked c i wallet 0) (hf : 0 < f.toNat)
    (ha : amount.toNat = wallet.toNat + f.toNat) (hskip : f.toNat ≤ wallet.toNat)
    (hacc : c.lockManager.acceptsSnapshot i.tradedMint slot = true) :
    Commutes c i fill wallet amount slot p w := by
  have hnow : f ≤ wallet ∧ 0 < wallet := by
    rw [UInt64.le_iff_toNat_le, UInt64.lt_iff_toNat_lt]
    exact ⟨hskip, Nat.lt_of_lt_of_le hf hskip⟩
  have hlater : f ≤ amount ∧ 0 < amount := by
    rw [UInt64.le_iff_toNat_le, UInt64.lt_iff_toNat_lt]
    exact ⟨by omega, show 0 < amount.toNat by omega⟩
  have hle : wallet.toNat ≤ amount.toNat := by omega
  rcases p with _ | _ | _ | _ | p
  all_goals
    constructor
    all_goals
      rw [hh]
      simp [Effect.resultWith, Effect.result, Effect.trailWith, Effect.trail, bookBuyFill,
        releaseLocks, ExecutionContext.walletSnapshot, ExecutionContext.shown,
        LockManager.lockedTokens, LockManager.capitalLocks_release, hb.free, hb.held, hb.total,
        hb.sum, hb.onlyHolder.total_erase, hb.onlyHolder.lockedSum_erase, satSub_zero, hnow,
        hlater, hacc, hle]

/-- A fill that is larger than the balance is added, and ends at the snapshot's amount unless
    the snapshot falls between the check and the add's read. -/
theorem commutes_buy_add (hh : confirmationHandling i fill =
      bookBuyFill i.tradedMint (some f) (releaseLocks i.intentId (.ret ())))
    (hb : Booked c i wallet 0)
    (ha : amount.toNat = wallet.toNat + f.toNat) (hadd : wallet.toNat < f.toNat)
    (hacc : c.lockManager.acceptsSnapshot i.tradedMint slot = true) (hp : p ≠ 1) :
    Commutes c i fill wallet amount slot p w := by
  have hnow : ¬ f ≤ wallet := by
    rw [UInt64.le_iff_toNat_le]
    omega
  have hlater : f ≤ amount ∧ 0 < amount := by
    rw [UInt64.le_iff_toNat_le, UInt64.lt_iff_toNat_lt]
    exact ⟨by omega, show 0 < amount.toNat by omega⟩
  have hsum : Word.satAdd wallet f = amount := by
    refine UInt64.toNat_inj.mp ?_
    have hlt := amount.toNat_lt
    rw [Word.toNat_satAdd, ha, Nat.min_eq_left]
    unfold Word.size
    omega
  have hle : wallet.toNat ≤ amount.toNat := by omega
  rcases p with _ | _ | _ | _ | _ | _ | p
  all_goals
    first
    | exact absurd rfl hp
    | constructor
      all_goals
        rw [hh]
        simp [Effect.resultWith, Effect.result, Effect.trailWith, Effect.trail, bookBuyFill,
          releaseLocks, ExecutionContext.walletSnapshot, ExecutionContext.shown,
          LockManager.lockedTokens, LockManager.capitalLocks_release, hb.free, hb.held, hb.total,
          hb.sum, hb.onlyHolder.total_erase, hb.onlyHolder.lockedSum_erase, satSub_zero, hnow,
          hlater, hacc, hsum, hle]

/-- Between the check and the add's read, the snapshot is counted a second time. -/
theorem commutes_buy_between (hh : confirmationHandling i fill =
      bookBuyFill i.tradedMint (some f) (releaseLocks i.intentId (.ret ())))
    (hb : Booked c i wallet 0) (hf : 0 < f.toNat)
    (ha : amount.toNat = wallet.toNat + f.toNat) (hadd : wallet.toNat < f.toNat)
    (hacc : c.lockManager.acceptsSnapshot i.tradedMint slot = true) :
    Commutes c i fill wallet amount slot 1 w ↔ wallet.toNat + f.toNat = Word.size - 1 := by
  have hnow : ¬ f ≤ wallet := by
    rw [UInt64.le_iff_toNat_le]
    omega
  have hdouble : Word.satAdd amount f = amount ↔ wallet.toNat + f.toNat = Word.size - 1 := by
    have hlt := amount.toNat_lt
    rw [← UInt64.toNat_inj, Word.toNat_satAdd, ha]
    unfold Word.size
    omega
  have hle : wallet.toNat ≤ amount.toNat := by omega
  constructor
  · intro h
    have havail := h.available
    rw [hh] at havail
    simp [Effect.resultWith, Effect.result, bookBuyFill, releaseLocks,
      ExecutionContext.walletSnapshot, hb.free, hb.held, hb.sum, satSub_zero, hnow, hacc]
      at havail
    exact hdouble.mp havail
  · intro h
    constructor
    all_goals
      rw [hh]
      simp [Effect.resultWith, Effect.result, Effect.trailWith, Effect.trail, bookBuyFill,
        releaseLocks, ExecutionContext.walletSnapshot, ExecutionContext.shown,
        LockManager.lockedTokens, LockManager.capitalLocks_release, hb.free, hb.held, hb.total,
        hb.sum, hb.onlyHolder.total_erase, satSub_zero, hnow, hacc, hdouble.mpr h, hle]

/-- A dropped snapshot leaves the ledger to the add alone. -/
theorem commutes_buy_dropped (hh : confirmationHandling i fill =
      bookBuyFill i.tradedMint (some f) (releaseLocks i.intentId (.ret ())))
    (hb : Booked c i wallet 0) (hf : 0 < f.toNat)
    (ha : amount.toNat = wallet.toNat + f.toNat)
    (hacc : c.lockManager.acceptsSnapshot i.tradedMint slot = false) :
    Commutes c i fill wallet amount slot p w ↔ wallet.toNat < f.toNat := by
  constructor
  · intro h
    by_contra hle
    have hnow : f ≤ wallet ∧ 0 < wallet := by
      rw [UInt64.le_iff_toNat_le, UInt64.lt_iff_toNat_lt]
      exact ⟨by omega, show 0 < wallet.toNat by omega⟩
    have havail : wallet = amount := by
      have hend := h.available
      rw [hh] at hend
      rcases p with _ | _ | _ | _ | p
      all_goals
        simpa [Effect.resultWith, Effect.result, bookBuyFill, releaseLocks,
          ExecutionContext.walletSnapshot, hb.free, hb.held, hnow, hacc] using hend
    have := UInt64.toNat_inj.mpr havail
    omega
  · intro hadd
    have hnow : ¬ f ≤ wallet := by
      rw [UInt64.le_iff_toNat_le]
      omega
    have hsum : Word.satAdd wallet f = amount := by
      refine UInt64.toNat_inj.mp ?_
      have hlt := amount.toNat_lt
      rw [Word.toNat_satAdd, ha, Nat.min_eq_left]
      unfold Word.size
      omega
    have hle : wallet.toNat ≤ amount.toNat := by omega
    rcases p with _ | _ | _ | _ | _ | _ | p
    all_goals
      constructor
      all_goals
        rw [hh]
        simp [Effect.resultWith, Effect.result, Effect.trailWith, Effect.trail, bookBuyFill,
          releaseLocks, ExecutionContext.walletSnapshot, ExecutionContext.shown,
          LockManager.lockedTokens, LockManager.capitalLocks_release, hb.free, hb.held, hb.total,
          hb.onlyHolder.total_erase, hnow, hacc, hsum, hle]

/-- **A confirmed BUY and its snapshot commute exactly under the condition.** -/
theorem commutes_buy_iff (hside : i.side = .buy) (hfill : fill.buyFillOutRaw = some f)
    (hb : Booked c i wallet 0) (hf : 0 < f.toNat)
    (ha : amount.toNat = wallet.toNat + f.toNat) :
    Commutes c i fill wallet amount slot p w ↔
      BuyCommutesWhen c.lockManager i.tradedMint wallet f slot p := by
  have hh := confirmationHandling_buy hside hfill
  unfold BuyCommutesWhen
  rw [UInt64.lt_iff_toNat_lt]
  cases hacc : c.lockManager.acceptsSnapshot i.tradedMint slot with
  | false => simpa using commutes_buy_dropped hh hb hf ha hacc
  | true =>
      rw [if_pos rfl]
      by_cases hadd : wallet.toNat < f.toNat
      · by_cases hp : p = 1
        · subst hp
          rw [commutes_buy_between hh hb hf ha hadd hacc]
          simp [hadd]
        · exact ⟨fun _ h => hp h.1, fun _ => commutes_buy_add hh hb ha hadd hacc hp⟩
      · exact ⟨fun _ h => hadd h.2.1,
          fun _ => commutes_buy_skip hh hb hf ha (Nat.le_of_not_lt hadd) hacc⟩

end Buy

/-! ## 5. When they do: a confirmed SELL -/

/-- The position size that the handling compares the sold amount with. Without a size recorded at
    the lock it is free plus held, as the handling reads them. -/
def totalPosRead (m : LockManager) (id : IntentId) (mint : Mint) (amount s slot : UInt64)
    (p : Nat) : UInt64 :=
  (m.intentTokenPositionTotalAtLock id mint).getD
    (Word.satAdd (if p ≤ 1 ∧ m.acceptsSnapshot mint slot then Word.satSub amount s else amount) s)

/-- **The condition for a confirmed SELL** of `s` with `amount` left in the wallet. A full close
    clears the balance, so the snapshot must bring it back: after the clearing, let through by
    the marker of that moment, and after the release (or with nothing held). A partial sell
    leaves the balance alone, so the snapshot must not subtract the lock: it comes after the
    release, or is dropped, or there is nothing to subtract or to subtract from. -/
def SellCommutesWhen (m : LockManager) (id : IntentId) (mint : Mint) (cold absent : Bool)
    (txLandingSlot : Option UInt64) (amount s slot : UInt64) (p : Nat) : Prop :=
  amount = 0 ∨
    if scope48FullClose cold s (totalPosRead m id mint amount s slot p) absent then
      (7 ≤ p ∧ newerThanLanding txLandingSlot slot) ∨
        (s = 0 ∧ ((p = 5 ∧ m.acceptsSnapshot mint slot) ∨
          (p = 6 ∧ newerThanLanding txLandingSlot slot)))
    else m.acceptsSnapshot mint slot = false ∨ 4 ≤ p ∨ s = 0

section Sell

variable {c : ExecutionContext} {i : TradeIntent} {fill : ConfirmedFill}
  {wallet amount slot s : UInt64} {p : Nat} {w : World}

theorem confirmationHandling_sell (hside : i.side = .sell)
    (hs : fill.sellFillInRaw.getD i.requiredCapital = s) :
    confirmationHandling i fill =
      bookSellClose i.intentId i.tradedMint i.isColdPathRecoverySell s
        fill.sellWalletBalanceAbsentAfterTx fill.txLandingSlot
        (releaseLocksAfterConfirmedSell i.intentId (.ret ())) := by
  simp [confirmationHandling, fillAccounting, terminalRelease, TradeIntent.tradedMint, hside, hs]

theorem Booked.free_sell (hb : Booked c i wallet s) (ha : amount.toNat + s.toNat = wallet.toNat) :
    c.lockManager.availableTokenBalance i.tradedMint = amount := by
  have hbal := hb.balance
  exact UInt64.toNat_inj.mp (by omega)

/-- What is free after a partial SELL. -/
theorem free_partialSell (hb : Booked c i wallet s) (ha : amount.toNat + s.toNat = wallet.toNat)
    (cold absent : Bool) (landing : Option UInt64)
    (hfull : scope48FullClose cold s
      (totalPosRead c.lockManager i.intentId i.tradedMint amount s slot p) absent = false) :
    (Effect.resultWith ExecutionContext.perform w
      (ExecutionContext.walletSnapshot i.tradedMint amount slot) p c
      (bookSellClose i.intentId i.tradedMint cold s absent landing
        (releaseLocksAfterConfirmedSell i.intentId (.ret ())))).lockManager.availableTokenBalance
      i.tradedMint =
    if c.lockManager.acceptsSnapshot i.tradedMint slot ∧ p < 4 then Word.satSub amount s
    else amount := by
  unfold totalPosRead at hfull
  cases hacc : c.lockManager.acceptsSnapshot i.tradedMint slot
  all_goals
    rw [hacc] at hfull
    rcases p with _ | _ | _ | _ | _ | _ | p
    all_goals
      simp at hfull
      simp [Effect.resultWith, Effect.result, bookSellClose, releaseLocksAfterConfirmedSell,
        ExecutionContext.walletSnapshot, LockManager.capitalLocks_release, hb.free_sell ha, hb.held,
        hb.sum, hb.onlyHolder.lockedSum_erase, satSub_zero, hfull, hacc]

/-- What is free after a full close. -/
theorem free_fullClose (hb : Booked c i wallet s) (ha : amount.toNat + s.toNat = wallet.toNat)
    (cold absent : Bool) (landing : Option UInt64)
    (hfull : scope48FullClose cold s
      (totalPosRead c.lockManager i.intentId i.tradedMint amount s slot p) absent = true) :
    (Effect.resultWith ExecutionContext.perform w
      (ExecutionContext.walletSnapshot i.tradedMint amount slot) p c
      (bookSellClose i.intentId i.tradedMint cold s absent landing
        (releaseLocksAfterConfirmedSell i.intentId (.ret ())))).lockManager.availableTokenBalance
      i.tradedMint =
    if 7 ≤ p ∧ newerThanLanding landing slot then amount
    else if (p = 5 ∧ c.lockManager.acceptsSnapshot i.tradedMint slot) ∨
      (p = 6 ∧ newerThanLanding landing slot) then Word.satSub amount s
    else 0 := by
  unfold totalPosRead at hfull
  cases hacc : c.lockManager.acceptsSnapshot i.tradedMint slot
  all_goals
    cases hnew : newerThanLanding landing slot
    all_goals
      rw [hacc] at hfull
      rcases p with _ | _ | _ | _ | _ | _ | _ | _ | _ | p
      all_goals
        simp at hfull
        simp [Effect.resultWith, Effect.result, bookSellClose, releaseLocksAfterConfirmedSell,
          ExecutionContext.walletSnapshot, LockManager.capitalLocks_release,
          hb.free_sell ha, hb.held, hb.sum,
          hb.onlyHolder.lockedSum_erase, satSub_zero, hfull, hacc, hnew]

/-- A handled SELL holds nothing of the mint. -/
theorem released_sell (hb : Booked c i wallet s) (ha : amount.toNat + s.toNat = wallet.toNat)
    (cold absent : Bool) (landing : Option UInt64) :
    (Effect.resultWith ExecutionContext.perform w
      (ExecutionContext.walletSnapshot i.tradedMint amount slot) p c
      (bookSellClose i.intentId i.tradedMint cold s absent landing
        (releaseLocksAfterConfirmedSell i.intentId (.ret ())))).lockManager.lockedTokens
      i.tradedMint = 0 := by
  cases hfull : scope48FullClose cold s
    (totalPosRead c.lockManager i.intentId i.tradedMint amount s slot p) absent
  all_goals
    unfold totalPosRead at hfull
    cases hacc : c.lockManager.acceptsSnapshot i.tradedMint slot
    all_goals
      rw [hacc] at hfull
      rcases p with _ | _ | _ | _ | _ | _ | _ | _ | _ | p
      all_goals
        simp at hfull
        simp [Effect.resultWith, Effect.result, bookSellClose, releaseLocksAfterConfirmedSell,
          ExecutionContext.walletSnapshot, LockManager.lockedTokens,
          LockManager.capitalLocks_release, hb.free_sell ha, hb.held, hb.sum,
          hb.onlyHolder.total_erase, hfull, hacc]

/-- What the handling of a SELL may do to the ledger. -/
def SellAccess (i : TradeIntent) : Act → Prop
  | .lockedTokensForIntent .. => True
  | .availableTokenBalance _ => True
  | .tokenPositionTotalAtLock .. => True
  | .removeTokenWalletAtaPresent _ => True
  | .removeAvailableToken mint => mint = i.tradedMint
  | .insertClearedAtSlot .. => True
  | .releaseCapital id rt => id = i.intentId ∧ rt = false
  | .releaseResources _ => True
  | _ => False

/-- Only such accesses are allowed. -/
def sellProtocol (i : TradeIntent) : Effect.Protocol Act Answer Unit :=
  ⟨fun _ a => SellAccess i a, fun _ _ _ => ()⟩

theorem follows_sell (i : TradeIntent) (cold absent : Bool) (s : UInt64)
    (landing : Option UInt64) :
    Effect.Follows (sellProtocol i) (fun _ _ => True) ()
      (bookSellClose i.intentId i.tradedMint cold s absent landing
        (releaseLocksAfterConfirmedSell i.intentId (.ret ()))) := by
  refine ⟨trivial, fun locked => ⟨trivial, fun avail => ⟨trivial, fun total => ?_⟩⟩⟩
  simp only
  split
  · exact ⟨trivial, fun _ => ⟨rfl, fun _ => ⟨trivial, fun _ => ⟨⟨rfl, rfl⟩, fun _ =>
      ⟨trivial, fun _ => trivial⟩⟩⟩⟩⟩
  · exact ⟨⟨rfl, rfl⟩, fun _ => ⟨trivial, fun _ => trivial⟩⟩

/-- The lock of the SELL is there or gone, and nothing more than the wallet is shown. -/
structure SellShown (c : ExecutionContext) (i : TradeIntent) (wallet : UInt64)
    (c' : ExecutionContext) : Prop where
  locks : c'.lockManager.capitalLocks = c.lockManager.capitalLocks ∨
    c'.lockManager.capitalLocks = c.lockManager.capitalLocks.erase i.intentId
  shown : c'.shown i.tradedMint ≤ wallet.toNat

theorem sellShown_access {c' : ExecutionContext} (hb : Booked c i wallet s)
    (h : SellShown c i wallet c') {a : Act} (ha : SellAccess i a) :
    SellShown c i wallet (c'.perform w a).1 := by
  cases a with
  | removeAvailableToken mint =>
      have hm : mint = i.tradedMint := ha
      subst hm
      refine ⟨h.locks, ?_⟩
      have hshown := h.shown
      unfold ExecutionContext.shown at hshown ⊢
      rw [ExecutionContext.perform_removeAvailableToken]
      simp only [ExecutionContext.lockManager_setLocks,
        LockManager.availableTokenBalance_removeAvailableToken]
      show 0 + c'.lockManager.lockedTokens i.tradedMint ≤ _
      omega
  | releaseCapital id rt =>
      obtain ⟨rfl, rfl⟩ := ha
      have hlocks : (c'.lockManager.releaseCapitalLockRestoreTokens i.intentId false).capitalLocks =
          c.lockManager.capitalLocks.erase i.intentId := by
        rw [LockManager.capitalLocks_release]
        rcases h.locks with hl | hl
        · rw [hl]
        · rw [hl]
          exact AList.erase_of_notMem fun hk => (AList.mem_erase.mp hk).1 rfl
      refine ⟨.inr hlocks, ?_⟩
      have hshown := h.shown
      unfold ExecutionContext.shown LockManager.lockedTokens at hshown ⊢
      rw [ExecutionContext.perform_releaseCapital]
      simp only [ExecutionContext.lockManager_setLocks, hlocks, hb.onlyHolder.total_erase,
        LockManager.availableTokenBalance_release]
      simp only [Bool.false_eq_true, if_false]
      omega
  | lockedTokensForIntent | availableTokenBalance | tokenPositionTotalAtLock => exact h
  | removeTokenWalletAtaPresent | insertClearedAtSlot | releaseResources =>
      exact ⟨h.locks, h.shown⟩
  | _ => exact absurd ha id

theorem sellShown_snapshot {c' : ExecutionContext} (hb : Booked c i wallet s)
    (ha : amount.toNat + s.toNat = wallet.toNat) (h : SellShown c i wallet c') :
    SellShown c i wallet (c'.walletSnapshot i.tradedMint amount slot) := by
  have hlocks : (c'.walletSnapshot i.tradedMint amount slot).lockManager.capitalLocks =
      c'.lockManager.capitalLocks := LockManager.capitalLocks_snapshot _ _ _ _
  refine ⟨by rw [hlocks]; exact h.locks, ?_⟩
  have hshown := h.shown
  unfold ExecutionContext.shown LockManager.lockedTokens at hshown ⊢
  rw [hlocks]
  unfold ExecutionContext.walletSnapshot
  rw [ExecutionContext.lockManager_setLocks, LockManager.availableTokenBalance_snapshot]
  split
  · rw [Word.toNat_satSub]
    rcases h.locks with hl | hl
    · rw [hl, hb.sum, hb.total]
      omega
    · rw [hl, hb.onlyHolder.lockedSum_erase, hb.onlyHolder.total_erase]
      show amount.toNat - 0 + 0 ≤ _
      omega
  · exact hshown

/-- **A handled SELL never shows more than the wallet held before it.** -/
theorem bounded_sell (hb : Booked c i wallet s) (ha : amount.toNat + s.toNat = wallet.toNat)
    (cold absent : Bool) (landing : Option UInt64) :
    ∀ c' ∈ Effect.trailWith ExecutionContext.perform w
      (ExecutionContext.walletSnapshot i.tradedMint amount slot) p c
      (bookSellClose i.intentId i.tradedMint cold s absent landing
        (releaseLocksAfterConfirmedSell i.intentId (.ret ()))),
      c'.shown i.tradedMint ≤ max wallet.toNat amount.toNat := by
  have hstart : SellShown c i wallet c := by
    refine ⟨.inl rfl, ?_⟩
    unfold ExecutionContext.shown LockManager.lockedTokens
    rw [hb.total, hb.balance]
  intro c' hmem
  have hshown := Effect.trailWith_invariant (P := sellProtocol i) (I := SellShown c i wallet)
    (fun c' a hok h => sellShown_access hb h hok) (fun c' h => sellShown_snapshot hb ha h)
    (follows_sell i cold absent s landing) hstart c' hmem
  exact Nat.le_trans hshown.shown (Nat.le_max_left _ _)

theorem satSub_eq_self {x y : UInt64} : Word.satSub x y = x ↔ y = 0 ∨ x = 0 := by
  rw [← UInt64.toNat_inj, ← UInt64.toNat_inj, ← UInt64.toNat_inj, Word.toNat_satSub]
  show _ ↔ y.toNat = 0 ∨ x.toNat = 0
  omega

/-- **A confirmed SELL and its snapshot commute exactly under the condition.** -/
theorem commutes_sell_iff (hside : i.side = .sell)
    (hs : fill.sellFillInRaw.getD i.requiredCapital = s) (hb : Booked c i wallet s)
    (ha : amount.toNat + s.toNat = wallet.toNat) :
    Commutes c i fill wallet amount slot p w ↔
      SellCommutesWhen c.lockManager i.intentId i.tradedMint i.isColdPathRecoverySell
        fill.sellWalletBalanceAbsentAfterTx fill.txLandingSlot amount s slot p := by
  have hh := confirmationHandling_sell hside hs
  have hend : Commutes c i fill wallet amount slot p w ↔
      (Effect.resultWith ExecutionContext.perform w
        (ExecutionContext.walletSnapshot i.tradedMint amount slot) p c
        (bookSellClose i.intentId i.tradedMint i.isColdPathRecoverySell s
          fill.sellWalletBalanceAbsentAfterTx fill.txLandingSlot
          (releaseLocksAfterConfirmedSell i.intentId (.ret ())))).lockManager.availableTokenBalance
        i.tradedMint = amount := by
    constructor
    · intro h
      rw [← hh]
      exact h.available
    · intro h
      constructor
      all_goals rw [hh]
      · exact released_sell hb ha _ _ _
      · exact h
      · exact bounded_sell hb ha _ _ _
  rw [hend]
  unfold SellCommutesWhen
  cases hfull : scope48FullClose i.isColdPathRecoverySell s
    (totalPosRead c.lockManager i.intentId i.tradedMint amount s slot p)
    fill.sellWalletBalanceAbsentAfterTx with
  | false =>
      rw [free_partialSell hb ha _ _ _ hfull, if_neg Bool.false_ne_true]
      by_cases hp : c.lockManager.acceptsSnapshot i.tradedMint slot = true ∧ p < 4
      · rw [if_pos hp, satSub_eq_self]
        have h4 : ¬ 4 ≤ p := Nat.not_le_of_lt hp.2
        simp [hp.1, h4, or_comm]
      · rw [if_neg hp]
        refine iff_of_true rfl (.inr ?_)
        cases hacc : c.lockManager.acceptsSnapshot i.tradedMint slot with
        | false => exact .inl rfl
        | true => exact .inr (.inl (Nat.le_of_not_lt fun h4 => hp ⟨hacc, h4⟩))
  | true =>
      rw [free_fullClose hb ha _ _ _ hfull, if_pos rfl]
      by_cases h7 : 7 ≤ p ∧ newerThanLanding fill.txLandingSlot slot = true
      · rw [if_pos h7]
        exact iff_of_true rfl (.inr (.inl h7))
      · rw [if_neg h7]
        by_cases h56 : (p = 5 ∧ c.lockManager.acceptsSnapshot i.tradedMint slot = true) ∨
            (p = 6 ∧ newerThanLanding fill.txLandingSlot slot = true)
        · rw [if_pos h56, satSub_eq_self]
          simp [h7, h56, or_comm]
        · rw [if_neg h56]
          constructor
          · exact fun h => .inl h.symm
          · rintro (h | h | ⟨_, h⟩)
            · exact h.symm
            · exact absurd h h7
            · exact absurd h h56

end Sell

/-! ## 6. Both sides -/

/-- The confirmed trade, and the wallet's balance after it: a BUY of a positive fill, or a SELL
    of exactly what its lock holds. -/
def Traded (i : TradeIntent) (fill : ConfirmedFill) (wallet amount s : UInt64) : Prop :=
  match i.side with
  | .buy => s = 0 ∧ ∃ f, fill.buyFillOutRaw = some f ∧ 0 < f.toNat ∧
      amount.toNat = wallet.toNat + f.toNat
  | .sell => fill.sellFillInRaw.getD i.requiredCapital = s ∧
      amount.toNat + s.toNat = wallet.toNat

/-- The condition, by side. -/
def CommutesWhen (c : ExecutionContext) (i : TradeIntent) (fill : ConfirmedFill)
    (wallet amount s slot : UInt64) (p : Nat) : Prop :=
  match i.side with
  | .buy => BuyCommutesWhen c.lockManager i.tradedMint wallet (fill.buyFillOutRaw.getD 0) slot p
  | .sell => SellCommutesWhen c.lockManager i.intentId i.tradedMint i.isColdPathRecoverySell
      fill.sellWalletBalanceAbsentAfterTx fill.txLandingSlot amount s slot p

/-- **CONFIRMATION HANDLING AND WALLET SNAPSHOT COMMUTE EXACTLY UNDER THE CONDITION**: for every
    state whose ledger shows the wallet's balance, every confirmed BUY or SELL, every slot and
    every position of the snapshot between the accesses of the handling. -/
theorem confirmation_commutes_iff (c : ExecutionContext) (i : TradeIntent) (fill : ConfirmedFill)
    (wallet amount s slot : UInt64) (p : Nat) (w : World) (hb : Booked c i wallet s)
    (ht : Traded i fill wallet amount s) :
    Commutes c i fill wallet amount slot p w ↔ CommutesWhen c i fill wallet amount s slot p := by
  unfold Traded at ht
  unfold CommutesWhen
  cases hside : i.side with
  | buy =>
      rw [hside] at ht
      obtain ⟨rfl, f, hf, hpos, ha⟩ := ht
      rw [hf]
      exact commutes_buy_iff hside hf hb hpos ha
  | sell =>
      rw [hside] at ht
      exact commutes_sell_iff hside ht.1 hb ht.2

/-- A SELL of 60 of the wallet's 100. -/
def partialSell : TradeIntent where
  tsUnixMs := 0
  intentId := "sell"
  source := "momentum-bot"
  tier := .tier1
  ttlMs := none
  requiredCapital := 60
  resources := ⟨"mint", nativeSolMint, ["pool"], []⟩
  maxSlippageBps := 100
  side := .sell
  requireBundle := none
  hasSwapPath := false
  metadata := ∅
  fallbackRoutes := []
  minOut := none

/-- The context in which it holds its lock. -/
def partialSellContext : ExecutionContext where
  lockManager := (((LockManager.new 0).setAvailableTokenBalance "mint" 100).acquireCapital
    (.new "sell") 0 ((∅ : TokenMap).insert "mint" 60) none false 0).2
  positionAuthority := .new
  dailyLossLamports := 0
  currentDay := 0
  killSwitchActive := false

theorem partialSellContext_booked : Booked partialSellContext partialSell 100 60 :=
  ⟨by decide, by decide, by decide⟩

theorem partialSell_traded : Traded partialSell ⟨none, some 60, false, some 7⟩ 100 40 60 :=
  ⟨by decide, by decide⟩

/-- `confirmation_commutes_iff` where the snapshot comes last. -/
theorem confirmation_commutes_snapshot_last :
    Commutes partialSellContext partialSell ⟨none, some 60, false, some 7⟩ 100 40 8 5 {} :=
  (confirmation_commutes_iff partialSellContext partialSell ⟨none, some 60, false, some 7⟩ 100 40
    60 8 5 {} partialSellContext_booked partialSell_traded).mpr (by
      show SellCommutesWhen _ _ _ _ _ _ _ _ _ _
      unfold SellCommutesWhen
      exact .inr (by decide))

/-- **A SNAPSHOT BEFORE THE HANDLING OF A PARTIAL SELL COUNTS THE SALE TWICE**: 100 in the wallet,
    60 sold; the snapshot reports 40, and the lock's 60 are subtracted from it again. -/
theorem confirmation_snapshot_first_loses :
    ¬ ∀ (c : ExecutionContext) (i : TradeIntent) (fill : ConfirmedFill)
      (wallet amount s slot : UInt64) (p : Nat) (w : World), Booked c i wallet s →
      Traded i fill wallet amount s → (∀ landing, fill.txLandingSlot = some landing →
        landing ≤ slot) → Commutes c i fill wallet amount slot p w := by
  intro h
  have hall := h partialSellContext partialSell ⟨none, some 60, false, some 7⟩ 100 40 60 8 0 {}
    partialSellContext_booked partialSell_traded (fun l hl => by cases hl; decide)
  have hcond := (commutes_sell_iff rfl (by decide) partialSellContext_booked (by decide)).mp hall
  unfold SellCommutesWhen at hcond
  revert hcond
  decide

end IronCrab

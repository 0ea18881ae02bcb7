/-
  File:      IronCrab/Execution/WsolManager.lean
  Subject:   THE WSOL MANAGER AND STALE SNAPSHOTS (src/execution/wsol_manager.rs): balance updates,
             the floor of a pending wrap, the one bounded resync, and what is wrapped.

  The wallet's balances change only through the manager's own successful wraps; what is delivered is
  the pair of balances at some moment of the run, however late and however often.

  * `wrap_sent_of_harmless` -- a delivery that is current, or that shows enough WSOL, or that the
    floor catches, sends a wrap only on the current balances and below the minimum;
  * `wraps_under_stale_snapshots` -- so a run of such deliveries never wraps twice, and no run at
    all takes the cached balance below zero;
  * `stale_zero_wraps_again` -- a zero from before the first wrap clears the floor, as an unwrap
    from outside would, and wraps a second time.
-/
import IronCrab.Lib.Machine
import IronCrab.Lib.Word

namespace IronCrab.Execution

open Word Machine

/-! ## 1. The manager -/

/-- The part of `WsolManagerConfig` that decides, in lamports. -/
structure WsolManagerConfig where
  minWsolLamports : UInt64
  targetWsolLamports : UInt64
  maxWsolLamports : UInt64
  minNativeLamports : UInt64
  cooldownSecs : UInt64
  dryRun : Bool

/-- `PendingWrapState`. -/
structure PendingWrapState where
  expectedWsol : UInt64
  startedTs : UInt64
  rpcResyncDone : Bool
  deriving DecidableEq

/-- `PendingWrapState::new`, and what `clear` leaves. -/
def PendingWrapState.new : PendingWrapState := ⟨0, 0, false⟩

/-- `arm`. -/
def PendingWrapState.arm (expectedWsolLamports now : UInt64) : PendingWrapState :=
  ⟨expectedWsolLamports, now, false⟩

/-- The balances and flags of `WsolManager`. -/
structure WsolManager where
  wsolBalance : UInt64
  solBalance : UInt64
  wsolInitialized : Bool
  lastActionTs : UInt64
  wrapInProgress : Bool
  pendingWrap : PendingWrapState
  deriving DecidableEq

/-- `WsolManager::new`. -/
def WsolManager.new : WsolManager := ⟨0, 0, false, 0, false, .new⟩

/-- `compute_effective_wsol_on_snapshot`: the balance that counts, and whether the snapshot ends the
    pending wrap. A zero counts as it stands. -/
def computeEffectiveWsolOnSnapshot (pendingExpected incomingWsol : UInt64) : UInt64 × Bool :=
  if pendingExpected = 0 then (incomingWsol, false)
  else if incomingWsol = 0 then (0, true)
  else if pendingExpected ≤ incomingWsol then (incomingWsol, true)
  else (pendingExpected, false)

/-- What one call meets: the kill switch, its readings of the clock, what the RPC says of the WSOL
    account (nothing when it fails), and whether a wrap succeeds. -/
structure Readings where
  killSwitch : Bool
  nowPending : UInt64
  nowCooldown : UInt64
  nowAction : UInt64
  nowArm : UInt64
  rpcWsol : Option UInt64
  wrapSucceeds : Bool
  deriving DecidableEq

/-- A wrap transaction that was sent. -/
structure SentWrap where
  amount : UInt64
  succeeded : Bool
  deriving DecidableEq

namespace WsolManager

variable (cfg : WsolManagerConfig) (m : WsolManager) (r : Readings)

/-- `check_cooldown`. -/
def checkCooldown : Bool := cfg.cooldownSecs ≤ satSub r.nowCooldown m.lastActionTs

/-- `execute_wrap`. -/
def executeWrap (amountLamports : UInt64) : WsolManager × Option SentWrap :=
  if cfg.dryRun then (m, none)
  else if r.wrapSucceeds then
    let newWsol := m.wsolBalance + amountLamports
    ({ m with
        lastActionTs := r.nowAction
        solBalance := m.solBalance - amountLamports
        wsolBalance := newWsol
        pendingWrap := .arm newWsol r.nowArm }, some ⟨amountLamports, true⟩)
  else (m, some ⟨amountLamports, false⟩)

/-- What `check_and_act` decides to wrap once its gates are passed. -/
def wrapAmount : Option UInt64 :=
  if m.wsolBalance < cfg.minWsolLamports then
    let wrapAmount := satSub cfg.targetWsolLamports m.wsolBalance
    let availableSol := satSub m.solBalance cfg.minNativeLamports
    if wrapAmount ≤ availableSol then some wrapAmount
    else if 0 < availableSol then some availableSol
    else none
  else none

/-- `check_and_act`. The guard clears `wrap_in_progress` when the call ends. -/
def checkAndAct : WsolManager × Option SentWrap :=
  if r.killSwitch then (m, none)
  else if !checkCooldown cfg m r then (m, none)
  else if 0 < m.pendingWrap.expectedWsol then (m, none)
  else if m.wrapInProgress then (m, none)
  else
    let guarded := { m with wrapInProgress := true }
    let (m', sent) :=
      match wrapAmount cfg guarded with
      | some amount => executeWrap cfg guarded r amount
      | none => (guarded, none)
    ({ m' with wrapInProgress := false }, sent)

/-- `apply_authoritative_wsol_resync`. -/
def applyAuthoritativeWsolResync (wsolLamports : UInt64) : WsolManager :=
  { m with pendingWrap := .new, wsolBalance := wsolLamports, wsolInitialized := true }

/-- `saturating_mul`. -/
def satMul (a b : UInt64) : UInt64 :=
  if a.toNat * b.toNat < size then a * b else UInt64.ofNat (size - 1)

/-- The snapshot asks for the resync: the pending wrap is too old, the snapshot has not caught up,
    and no resync was made for this wrap. -/
def wantsResync (incomingWsol : UInt64) : Bool :=
  0 < m.pendingWrap.expectedWsol && 0 < m.pendingWrap.startedTs &&
    satMul cfg.cooldownSecs 4 < satSub r.nowPending m.pendingWrap.startedTs &&
    incomingWsol < m.pendingWrap.expectedWsol && !m.pendingWrap.rpcResyncDone

/-- The end of `apply_balance_update` for a snapshot with WSOL: the floor. -/
def applySnapshot (incomingWsol : UInt64) : WsolManager :=
  let (effectiveWsol, confirmsPending) :=
    computeEffectiveWsolOnSnapshot m.pendingWrap.expectedWsol incomingWsol
  let m := if confirmsPending then { m with pendingWrap := .new } else m
  { m with wsolBalance := effectiveWsol, wsolInitialized := true }

/-- `apply_balance_update`: the manager after it and the wrap it sent. -/
def applyBalanceUpdate (sol : UInt64) (wsolOpt : Option UInt64) : WsolManager × Option SentWrap :=
  let m := { m with solBalance := sol }
  match wsolOpt with
  | none => checkAndAct cfg m r
  | some incomingWsol =>
      if wantsResync cfg m r incomingWsol then
        let m := { m with pendingWrap := { m.pendingWrap with rpcResyncDone := true } }
        match r.rpcWsol with
        | some b => checkAndAct cfg (applyAuthoritativeWsolResync m b) r
        | none => checkAndAct cfg (applySnapshot m incomingWsol) r
      else checkAndAct cfg (applySnapshot m incomingWsol) r

end WsolManager

/-! ## 2. The wallet -/

/-- The wallet's balances. -/
structure Balances where
  sol : UInt64
  wsol : UInt64
  deriving DecidableEq

/-- The manager, the wallet's true balances, and what they were before each successful wrap, the
    newest first. -/
structure World where
  manager : WsolManager
  now : Balances
  past : List Balances
  deriving DecidableEq

/-- A fresh manager for a wallet. -/
def World.start (balances : Balances) : World := ⟨.new, balances, []⟩

/-- A snapshot with what the call that applies it meets. -/
structure Delivery where
  snapshot : Balances
  readings : Readings
  deriving DecidableEq

variable (cfg : WsolManagerConfig)

/-- The wrap that a delivery sends. -/
def World.sent (w : World) (l : Delivery) : Option SentWrap :=
  (WsolManager.applyBalanceUpdate cfg w.manager l.readings l.snapshot.sol (some l.snapshot.wsol)).2

/-- A successful wrap moves its amount. -/
def Balances.wrap (b : Balances) (amount : UInt64) : Balances := ⟨b.sol - amount, b.wsol + amount⟩

/-- A delivery. -/
def World.deliver (w : World) (l : Delivery) : World :=
  let m :=
    (WsolManager.applyBalanceUpdate cfg w.manager l.readings l.snapshot.sol (some l.snapshot.wsol)).1
  match w.sent cfg l with
  | some ⟨amount, true⟩ => ⟨m, w.now.wrap amount, w.now :: w.past⟩
  | _ => ⟨m, w.now, w.past⟩

/-- What can be delivered: balances of some moment of the run; the RPC tells the true WSOL balance;
    and the chain lets a wrap succeed only on balances that carry it. -/
structure World.Allowed (w : World) (l : Delivery) : Prop where
  true_once : l.snapshot ∈ w.now :: w.past
  rpc : ∀ b, l.readings.rpcWsol = some b → b = w.now.wsol
  chain : ∀ amount, w.sent cfg l = some ⟨amount, true⟩ →
    amount ≤ w.now.sol ∧ w.now.wsol.toNat + amount.toNat < size

/-- One delivery of a run. -/
def Step (w : World) (l : Delivery) (w' : World) : Prop := w.Allowed cfg l ∧ w' = w.deliver cfg l

/-- What a delivery must not do: send a wrap after a successful one while the true WSOL balance is
    at least the minimum, take more from the cached balance than it holds, or take the true native
    balance below the minimum to keep. -/
structure World.Safe (w : World) (l : Delivery) : Prop where
  noSecondWrap : ∀ wrap, w.sent cfg l = some wrap → w.past ≠ [] → w.now.wsol < cfg.minWsolLamports
  cachedSol : ∀ amount, w.sent cfg l = some ⟨amount, true⟩ → amount ≤ l.snapshot.sol
  trueSol : ∀ amount, w.sent cfg l = some ⟨amount, true⟩ → amount ≠ 0 →
    cfg.minNativeLamports.toNat + amount.toNat ≤ w.now.sol.toNat

/-- **A delivery that the guard covers**: the current balances; or WSOL at least the minimum; or an
    amount that the floor of the pending wrap catches, neither zero nor caught up, where the timeout
    resync finds the minimum, if it is due. -/
def World.Harmless (w : World) (l : Delivery) : Prop :=
  l.snapshot = w.now ∨ cfg.minWsolLamports ≤ l.snapshot.wsol ∨
    (0 < l.snapshot.wsol ∧ l.snapshot.wsol < w.manager.pendingWrap.expectedWsol ∧
      (w.manager.wantsResync cfg l.readings l.snapshot.wsol → l.readings.rpcWsol.isSome →
        cfg.minWsolLamports ≤ w.now.wsol))

instance (w : World) (l : Delivery) : Decidable (w.Harmless cfg l) :=
  inferInstanceAs (Decidable (_ ∨ _ ∨ _))

/-! ## 3. What a call wraps -/

namespace WsolManager

variable {cfg} {m : WsolManager} {r : Readings}

/-- A wrap leaves the minimum native balance, and is decided below the WSOL minimum only. -/
theorem wrapAmount_some {amount : UInt64} (h : wrapAmount cfg m = some amount) :
    m.wsolBalance < cfg.minWsolLamports ∧
      amount.toNat ≤ m.solBalance.toNat - cfg.minNativeLamports.toNat := by
  unfold wrapAmount at h
  split at h
  case isFalse => cases h
  rename_i hlow
  refine ⟨hlow, ?_⟩
  have havail : (satSub m.solBalance cfg.minNativeLamports).toNat =
      m.solBalance.toNat - cfg.minNativeLamports.toNat := toNat_satSub _ _
  simp only at h
  split at h
  case isTrue hfits =>
      cases h
      have := UInt64.le_iff_toNat_le.mp hfits
      omega
  case isFalse =>
      split at h
      · cases h
        omega
      · cases h

/-- What a successful wrap of an amount leaves. -/
def wrapped (m : WsolManager) (r : Readings) (amount : UInt64) : WsolManager :=
  { m with
      lastActionTs := r.nowAction
      solBalance := m.solBalance - amount
      wsolBalance := m.wsolBalance + amount
      pendingWrap := .arm (m.wsolBalance + amount) r.nowArm }

variable (cfg r) in
/-- **What `check_and_act` can do**: nothing, a wrap that fails, or one that succeeds; and it wraps
    only with no wrap pending. -/
theorem checkAndAct_cases (hguard : m.wrapInProgress = false) :
    checkAndAct cfg m r = (m, none) ∨
      ∃ amount, m.pendingWrap.expectedWsol = 0 ∧ wrapAmount cfg m = some amount ∧
        (checkAndAct cfg m r = (m, some ⟨amount, false⟩) ∨
          checkAndAct cfg m r = (wrapped m r amount, some ⟨amount, true⟩)) := by
  have hback : ({ m with wrapInProgress := false } : WsolManager) = m := by
    rw [← hguard]
  by_cases hkill : r.killSwitch = true
  · exact .inl (by simp [checkAndAct, hkill])
  by_cases hcool : checkCooldown cfg m r = true
  case neg => exact .inl (by simp [checkAndAct, hkill, hcool])
  by_cases hpending : 0 < m.pendingWrap.expectedWsol
  · exact .inl (by simp [checkAndAct, hkill, hcool, hpending])
  have hzero : m.pendingWrap.expectedWsol = 0 := by
    rw [UInt64.lt_iff_toNat_lt] at hpending
    exact UInt64.toNat_inj.mp (by simpa using hpending)
  have hact : checkAndAct cfg m r =
      ({ (match wrapAmount cfg m with
          | some amount => executeWrap cfg { m with wrapInProgress := true } r amount
          | none => ({ m with wrapInProgress := true }, none)).1 with wrapInProgress := false },
        (match wrapAmount cfg m with
          | some amount => executeWrap cfg { m with wrapInProgress := true } r amount
          | none => ({ m with wrapInProgress := true }, none)).2) := by
    unfold checkAndAct
    rw [if_neg hkill, if_neg (by simp [hcool]), if_neg hpending, if_neg (by simp [hguard])]
    rfl
  cases hwrap : wrapAmount cfg m with
  | none =>
      rw [hwrap] at hact
      exact .inl (hact.trans (by simp only [hback]))
  | some amount =>
      rw [hwrap] at hact
      by_cases hdry : cfg.dryRun = true
      · exact .inl (hact.trans (by simp [executeWrap, hdry, hback]))
      refine .inr ⟨amount, hzero, rfl, ?_⟩
      by_cases hok : r.wrapSucceeds = true
      · exact .inr (hact.trans (by simp [executeWrap, hdry, hok, wrapped, hguard]))
      · exact .inl (hact.trans (by simp [executeWrap, hdry, hok, hback]))

/-- The manager that `apply_balance_update` hands to `check_and_act`. -/
def observed (cfg : WsolManagerConfig) (m : WsolManager) (r : Readings) (snapshot : Balances) :
    WsolManager :=
  let m := { m with solBalance := snapshot.sol }
  if wantsResync cfg m r snapshot.wsol then
    let m := { m with pendingWrap := { m.pendingWrap with rpcResyncDone := true } }
    match r.rpcWsol with
    | some b => applyAuthoritativeWsolResync m b
    | none => applySnapshot m snapshot.wsol
  else applySnapshot m snapshot.wsol

theorem applyBalanceUpdate_eq (snapshot : Balances) :
    applyBalanceUpdate cfg m r snapshot.sol (some snapshot.wsol) =
      checkAndAct cfg (observed cfg m r snapshot) r := by
  unfold applyBalanceUpdate observed
  simp only
  split
  · cases r.rpcWsol <;> rfl
  · rfl

@[simp] theorem applySnapshot_solBalance (b : UInt64) :
    (applySnapshot m b).solBalance = m.solBalance := by
  unfold applySnapshot
  simp only
  split <;> rfl

@[simp] theorem applySnapshot_wrapInProgress (b : UInt64) :
    (applySnapshot m b).wrapInProgress = m.wrapInProgress := by
  unfold applySnapshot
  simp only
  split <;> rfl

variable (cfg r) in
theorem observed_wrapInProgress (hidle : m.wrapInProgress = false) (snapshot : Balances) :
    (observed cfg m r snapshot).wrapInProgress = false := by
  unfold observed
  simp only
  split
  · split <;> simp [applyAuthoritativeWsolResync, hidle]
  · simp [hidle]

theorem observed_solBalance (snapshot : Balances) :
    (observed cfg m r snapshot).solBalance = snapshot.sol := by
  unfold observed
  simp only
  split
  · split <;> simp [applyAuthoritativeWsolResync]
  · simp

/-- **What a snapshot leaves**: with nothing pending, or with zero, or caught up, the snapshot's
    WSOL and nothing pending; else the floor, still pending. -/
theorem applySnapshot_cases (b : UInt64) :
    ((m.pendingWrap.expectedWsol = 0 ∨ b = 0 ∨ m.pendingWrap.expectedWsol ≤ b) ∧
        (applySnapshot m b).wsolBalance = b ∧
        (applySnapshot m b).pendingWrap.expectedWsol = 0) ∨
      (m.pendingWrap.expectedWsol ≠ 0 ∧ b ≠ 0 ∧ b < m.pendingWrap.expectedWsol ∧
        (applySnapshot m b).wsolBalance = m.pendingWrap.expectedWsol ∧
        (applySnapshot m b).pendingWrap = m.pendingWrap) := by
  by_cases hexp : m.pendingWrap.expectedWsol = 0
  · exact .inl ⟨.inl hexp, by simp [applySnapshot, computeEffectiveWsolOnSnapshot, hexp],
      by simp [applySnapshot, computeEffectiveWsolOnSnapshot, hexp]⟩
  by_cases hb : b = 0
  · exact .inl ⟨.inr (.inl hb), by simp [applySnapshot, computeEffectiveWsolOnSnapshot, hexp, hb],
      by simp [applySnapshot, computeEffectiveWsolOnSnapshot, hexp, hb, PendingWrapState.new]⟩
  by_cases hup : m.pendingWrap.expectedWsol ≤ b
  · exact .inl ⟨.inr (.inr hup),
      by simp [applySnapshot, computeEffectiveWsolOnSnapshot, hexp, hb, hup],
      by simp [applySnapshot, computeEffectiveWsolOnSnapshot, hexp, hb, hup, PendingWrapState.new]⟩
  · exact .inr ⟨hexp, hb, UInt64.not_le.mp hup,
      by simp [applySnapshot, computeEffectiveWsolOnSnapshot, hexp, hb, hup],
      by simp [applySnapshot, computeEffectiveWsolOnSnapshot, hexp, hb, hup]⟩

end WsolManager

/-! ## 4. Runs of deliveries that the guard covers -/

/-- What such runs keep: no wrap under way between two calls, and a pending wrap expects the true
    WSOL balance. -/
structure World.Tracks (w : World) : Prop where
  idle : w.manager.wrapInProgress = false
  pending : w.manager.pendingWrap.expectedWsol ≠ 0 →
    w.manager.pendingWrap.expectedWsol = w.now.wsol

theorem World.tracks_start (balances : Balances) : (World.start balances).Tracks :=
  ⟨rfl, fun h => absurd rfl h⟩

/-- What the manager may hold when it decides: a pending wrap, at least the minimum, or the true
    balances. -/
structure Decides (cfg : WsolManagerConfig) (m : WsolManager) (snapshot now : Balances) : Prop where
  idle : m.wrapInProgress = false
  pending : m.pendingWrap.expectedWsol ≠ 0 → m.pendingWrap.expectedWsol = now.wsol
  sol : m.solBalance = snapshot.sol
  fresh : m.pendingWrap.expectedWsol ≠ 0 ∨ cfg.minWsolLamports ≤ m.wsolBalance ∨
    (m.wsolBalance = now.wsol ∧ snapshot = now)

open WsolManager

variable {cfg} {w : World} {l : Delivery}

/-- After a snapshot that the guard covers and that needs no resync. -/
theorem decides_of_applySnapshot {m : WsolManager} {snapshot now : Balances}
    (hidle : m.wrapInProgress = false) (hsol : m.solBalance = snapshot.sol)
    (hpending : m.pendingWrap.expectedWsol ≠ 0 → m.pendingWrap.expectedWsol = now.wsol)
    (h : snapshot = now ∨ cfg.minWsolLamports ≤ snapshot.wsol ∨
      (0 < snapshot.wsol ∧ snapshot.wsol < m.pendingWrap.expectedWsol)) :
    Decides cfg (applySnapshot m snapshot.wsol) snapshot now := by
  obtain ⟨hshown, hbalance, hclear⟩ | ⟨hexp, _, _, _, hkept⟩ :=
    applySnapshot_cases (m := m) snapshot.wsol
  · refine ⟨by simp [hidle], fun hne => absurd hclear hne, by simp [hsol], .inr ?_⟩
    rw [hbalance]
    obtain hnow | hmin | ⟨hpos, hlow⟩ := h
    · exact .inr ⟨by rw [hnow], hnow⟩
    · exact .inl hmin
    · -- an amount below the floor is none of the three that are shown as they stand
      exfalso
      rw [UInt64.lt_iff_toNat_lt] at hpos hlow
      obtain hzero | hzero | hup := hshown
      · rw [hzero] at hlow
        exact absurd hlow (Nat.not_lt_zero _)
      · rw [hzero] at hpos
        exact absurd hpos (Nat.lt_irrefl _)
      · rw [UInt64.le_iff_toNat_le] at hup
        omega
  · exact ⟨by simp [hidle], fun _ => hkept ▸ hpending hexp, by simp [hsol], .inl (hkept ▸ hexp)⟩

/-- **A delivery that the guard covers leaves the manager with one of the three.** -/
theorem decides_of_harmless (ht : w.Tracks) (hallowed : w.Allowed cfg l) (h : w.Harmless cfg l) :
    Decides cfg (observed cfg w.manager l.readings l.snapshot) l.snapshot w.now := by
  have hcases : l.snapshot = w.now ∨ cfg.minWsolLamports ≤ l.snapshot.wsol ∨
      (0 < l.snapshot.wsol ∧ l.snapshot.wsol < w.manager.pendingWrap.expectedWsol) :=
    h.imp_right (Or.imp_right fun hfloor => ⟨hfloor.1, hfloor.2.1⟩)
  unfold observed
  simp only
  split
  case isFalse => exact decides_of_applySnapshot ht.idle rfl ht.pending hcases
  rename_i hwants
  split
  case h_2 => exact decides_of_applySnapshot ht.idle rfl ht.pending hcases
  rename_i b hrpc
  -- the resync reads the true balance, and that is at least the minimum
  have hb : b = w.now.wsol := hallowed.rpc b hrpc
  have hlow : l.snapshot.wsol < w.manager.pendingWrap.expectedWsol := by
    have : wantsResync cfg w.manager l.readings l.snapshot.wsol = true := hwants
    simp only [wantsResync, Bool.and_eq_true, decide_eq_true_eq] at this
    exact this.1.2
  have hne : w.manager.pendingWrap.expectedWsol ≠ 0 := by
    intro hzero
    rw [hzero, UInt64.lt_iff_toNat_lt] at hlow
    exact absurd hlow (Nat.not_lt_zero _)
  have htrue := ht.pending hne
  have hmin : cfg.minWsolLamports ≤ w.now.wsol := by
    obtain hnow | hmin | ⟨_, _, hresync⟩ := h
    · rw [hnow, htrue] at hlow
      exact absurd hlow (UInt64.lt_irrefl _)
    · rw [htrue] at hlow
      exact UInt64.le_of_lt (UInt64.lt_of_le_of_lt hmin hlow)
    · exact hresync hwants (by rw [hrpc]; rfl)
  exact ⟨ht.idle, fun hset => absurd rfl hset, rfl, .inr (.inl (hb ▸ hmin))⟩

/-- **What such a delivery can do**: send nothing, or send a wrap on the current balances and below
    the minimum, that leaves the native minimum. -/
theorem wrap_sent_of_harmless (ht : w.Tracks) (hallowed : w.Allowed cfg l)
    (h : w.Harmless cfg l) {wrap : SentWrap} (hsent : w.sent cfg l = some wrap) :
    l.snapshot = w.now ∧ w.now.wsol < cfg.minWsolLamports ∧
      wrap.amount.toNat ≤ w.now.sol.toNat - cfg.minNativeLamports.toNat := by
  have hd := decides_of_harmless ht hallowed h
  unfold World.sent at hsent
  rw [applyBalanceUpdate_eq] at hsent
  obtain hnone | ⟨amount, hclear, hwrap, hact⟩ :=
    checkAndAct_cases cfg l.readings hd.idle
  · rw [hnone] at hsent
    cases hsent
  have hamount : wrap.amount = amount := by
    obtain hact | hact := hact <;> rw [hact] at hsent <;> cases hsent <;> rfl
  obtain ⟨hlow, hfits⟩ := wrapAmount_some hwrap
  obtain hset | hmin | ⟨hbalance, hnow⟩ := hd.fresh
  · exact absurd hclear hset
  · exact absurd hlow (UInt64.not_lt.mpr hmin)
  · rw [hd.sol, hnow] at hfits
    exact ⟨hnow, hbalance ▸ hlow, hamount ▸ hfits⟩

/-- **Such a delivery keeps what is tracked.** -/
theorem tracks_deliver (ht : w.Tracks) (hallowed : w.Allowed cfg l) (h : w.Harmless cfg l) :
    (w.deliver cfg l).Tracks := by
  have hd := decides_of_harmless ht hallowed h
  unfold World.deliver World.sent
  simp only [applyBalanceUpdate_eq]
  obtain hnone | ⟨amount, hclear, hwrap, hact | hact⟩ :=
    checkAndAct_cases cfg l.readings hd.idle
  · rw [hnone]
    exact ⟨hd.idle, hd.pending⟩
  · rw [hact]
    exact ⟨hd.idle, hd.pending⟩
  · rw [hact]
    refine ⟨hd.idle, fun _ => ?_⟩
    obtain hset | hmin | ⟨hbalance, -⟩ := hd.fresh
    · exact absurd hclear hset
    · exact absurd (wrapAmount_some hwrap).1 (UInt64.not_lt.mpr hmin)
    · show (observed cfg w.manager l.readings l.snapshot).wsolBalance + amount =
        w.now.wsol + amount
      rw [hbalance]

theorem tracks_of_run {balances : Balances} {deliveries : List Delivery}
    (hr : Run (Guarded (Step cfg) (World.Harmless cfg)) (World.start balances) deliveries w) :
    w.Tracks := by
  refine hr.invariant (I := fun _ w => w.Tracks) (World.tracks_start balances) ?_
  rintro _ w l _ _ ht ⟨⟨hallowed, rfl⟩, h⟩
  exact tracks_deliver ht hallowed h

/-- Between two calls no wrap is under way, whatever was delivered. -/
theorem idle_of_run {balances : Balances} {deliveries : List Delivery}
    (hr : Run (Step cfg) (World.start balances) deliveries w) :
    w.manager.wrapInProgress = false := by
  refine hr.invariant (I := fun _ w => w.manager.wrapInProgress = false) rfl ?_
  rintro _ w l _ _ hidle ⟨-, rfl⟩
  have hseen := observed_wrapInProgress cfg l.readings hidle l.snapshot
  unfold World.deliver World.sent
  simp only [applyBalanceUpdate_eq]
  obtain hnone | ⟨amount, -, -, hact | hact⟩ :=
    checkAndAct_cases cfg l.readings hseen
  · rw [hnone]
    exact hseen
  · rw [hact]
    exact hseen
  · rw [hact]
    exact hseen

/-- **A wrap never takes more than the cached balance holds**, whatever was delivered. -/
theorem sent_le_cached (hidle : w.manager.wrapInProgress = false) {wrap : SentWrap}
    (hsent : w.sent cfg l = some wrap) : wrap.amount ≤ l.snapshot.sol := by
  have hseen := observed_wrapInProgress cfg l.readings hidle l.snapshot
  unfold World.sent at hsent
  rw [applyBalanceUpdate_eq] at hsent
  obtain hnone | ⟨amount, -, hwrap, hact⟩ :=
    checkAndAct_cases cfg l.readings hseen
  · rw [hnone] at hsent
    cases hsent
  have hamount : wrap.amount = amount := by
    obtain hact | hact := hact <;> rw [hact] at hsent <;> cases hsent <;> rfl
  have hfits := (wrapAmount_some hwrap).2
  rw [observed_solBalance] at hfits
  rw [hamount, UInt64.le_iff_toNat_le]
  exact Nat.le_trans hfits (Nat.sub_le _ _)

/-- **Stale snapshots that the guard covers never cause a second wrap**: in every run of such
    deliveries, the next one is safe. -/
theorem safe_of_harmless_run {balances : Balances} {deliveries : List Delivery}
    (hr : Run (Guarded (Step cfg) (World.Harmless cfg)) (World.start balances) deliveries w)
    (hallowed : w.Allowed cfg l) (h : w.Harmless cfg l) : w.Safe cfg l := by
  have ht := tracks_of_run hr
  refine ⟨fun wrap hsent _ => (wrap_sent_of_harmless ht hallowed h hsent).2.1,
    fun amount hsent => sent_le_cached ht.idle hsent, fun amount hsent hne => ?_⟩
  obtain ⟨-, -, hfits⟩ := wrap_sent_of_harmless ht hallowed h hsent
  have hpos : amount.toNat ≠ 0 := fun hzero => hne (UInt64.toNat_inj.mp hzero)
  simp only at hfits
  omega

/-- **What stale snapshots can do to the manager**: in no run does a wrap take the cached balance
    below zero, and in a run of deliveries that the guard covers every wrap is safe. -/
theorem wraps_under_stale_snapshots (cfg : WsolManagerConfig) (balances : Balances) :
    (∀ deliveries w l, Run (Step cfg) (World.start balances) deliveries w →
      ∀ amount, w.sent cfg l = some ⟨amount, true⟩ → amount ≤ l.snapshot.sol) ∧
    ∀ deliveries w l,
      Run (Guarded (Step cfg) (World.Harmless cfg)) (World.start balances) deliveries w →
      w.Allowed cfg l → w.Harmless cfg l → w.Safe cfg l :=
  ⟨fun _ _ _ hr _ hsent => sent_le_cached (idle_of_run hr) hsent,
    fun _ _ _ hr hallowed h => safe_of_harmless_run hr hallowed h⟩

/-! ## 5. A zero from before the first wrap -/

/-- At least 0.5 WSOL, at best 1, with 0.1 SOL kept and half a minute between two wraps. -/
def halfSolConfig : WsolManagerConfig :=
  ⟨500000000, 1000000000, 2000000000, 100000000, 30, false⟩

/-- A call at a moment where every reading of the clock agrees, the RPC fails, and a wrap goes
    through. -/
def readingsAt (secs : UInt64) : Readings := ⟨false, secs, secs, secs, secs, none, true⟩

/-- The wallet before the first wrap. -/
def beforeWrap : Balances := ⟨3250000000, 0⟩

/-- The wallet after it. -/
def afterWrap : Balances := ⟨2250000000, 1000000000⟩

instance (w : World) (l : Delivery) : Decidable (w.Allowed cfg l) :=
  decidable_of_iff
    (l.snapshot ∈ w.now :: w.past ∧ l.readings.rpcWsol.all (fun b => b = w.now.wsol) = true ∧
      (w.sent cfg l).all (fun wrap => !wrap.succeeded ||
        (wrap.amount ≤ w.now.sol ∧ w.now.wsol.toNat + wrap.amount.toNat < size : Bool)) = true)
    ⟨fun ⟨hmem, hrpc, hchain⟩ => ⟨hmem, fun b hb => by simpa [hb] using hrpc,
        fun amount hsent => by simpa [hsent] using hchain⟩,
      fun ⟨hmem, hrpc, hchain⟩ => ⟨hmem, by
        cases hb : l.readings.rpcWsol with
        | none => rfl
        | some b => simpa [hb] using hrpc b hb, by
        cases hsent : w.sent cfg l with
        | none => rfl
        | some wrap =>
            obtain ⟨amount, succeeded⟩ := wrap
            cases succeeded
            · rfl
            · simpa [hsent] using hchain amount hsent⟩⟩

/-- The first snapshot wraps 1 SOL, and is delivered again after the cooldown. -/
theorem stale_zero_wraps_again :
    ¬ ∀ (cfg : WsolManagerConfig) (balances : Balances) (deliveries : List Delivery) (w : World)
        (l : Delivery), Run (Step cfg) (World.start balances) deliveries w → w.Allowed cfg l →
        w.Safe cfg l := by
  intro hsafe
  have hfirst : Step halfSolConfig (World.start beforeWrap) ⟨beforeWrap, readingsAt 1000⟩
      ((World.start beforeWrap).deliver halfSolConfig ⟨beforeWrap, readingsAt 1000⟩) :=
    ⟨by decide, rfl⟩
  have hunsafe := (hsafe halfSolConfig beforeWrap _ _ ⟨beforeWrap, readingsAt 1031⟩
    (Run.single hfirst) (by decide)).noSecondWrap ⟨1000000000, true⟩ (by decide) (by decide)
  exact absurd hunsafe (by decide)

/-- A wrap that its own next snapshot confirms. -/
theorem wraps_under_current_snapshots :
    (World.start beforeWrap).Safe halfSolConfig ⟨beforeWrap, readingsAt 1000⟩ ∧
    ((World.start beforeWrap).deliver halfSolConfig ⟨beforeWrap, readingsAt 1000⟩).Safe
      halfSolConfig ⟨afterWrap, readingsAt 1031⟩ :=
  have hrun := (wraps_under_stale_snapshots halfSolConfig beforeWrap).2
  ⟨hrun [] _ _ .start (by decide) (by decide),
    hrun _ _ _ (Run.single ⟨⟨by decide, rfl⟩, by decide⟩) (by decide) (by decide)⟩

end IronCrab.Execution

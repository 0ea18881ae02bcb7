/-
  File:      IronCrab/Storage/Buckets.lean
  Subject:   WHAT THE LOCK MANAGER'S OPERATIONS DO TO ONE BUCKET.

  The manager keeps its money in buckets: native SOL, WSOL, and one bucket per mint. Each
  capital lock holds a part of each bucket (`CapitalLock.part`). The TOTAL of a bucket is what is
  free plus what the locks hold. This file says, operation by operation, what happens to one
  bucket whose total is a `u64`, whatever the other buckets hold:

  * `total_release`, `total_cleanupExpired`, `total_acquireCapital`, `total_renew`,
    `total_promote` -- the totals stay; only a release that does not restore the tokens lowers
    the token buckets, by the removed lock's part;
  * `overflowed_release`, … -- with every bucket in range no addition overflows and no
    subtraction underflows;
  * `inFlight_cleanupExpired` -- expiry does not touch a lock in flight.
-/
import IronCrab.Storage.Locks

namespace IronCrab

/-! ## 1. Buckets -/

/-- Where lamports or tokens are kept. -/
inductive Bucket where
  | native
  | wsol
  | token (mint : Mint)
  deriving DecidableEq

/-- The part of a capital lock that comes from a bucket. -/
def CapitalLock.part : Bucket → CapitalLock → Nat
  | .native => CapitalLock.nativePart
  | .wsol => CapitalLock.wsolPart
  | .token mint => CapitalLock.tokenPart mint

namespace LockManager

/-- The free amount of a bucket. -/
def available (m : LockManager) : Bucket → UInt64
  | .native => m.availableSol
  | .wsol => m.availableWsol
  | .token mint => m.availableTokenBalance mint

/-- The amount of a bucket that the capital locks hold. -/
def locked (m : LockManager) (b : Bucket) : Nat := m.capitalLocks.total (CapitalLock.part b)

/-- Free and held together. -/
def total (m : LockManager) (b : Bucket) : Nat := (m.available b).toNat + m.locked b

/-- Every bucket's total is a `u64`. -/
def Fits (m : LockManager) : Prop := ∀ b, m.total b < Word.size

theorem total_congr {m m' : LockManager} {b : Bucket} (ha : m'.available b = m.available b)
    (hl : m'.capitalLocks = m.capitalLocks) : m'.total b = m.total b := by
  unfold total locked
  rw [ha, hl]

/-- With no lock the totals are the free amounts. -/
theorem fits_of_no_locks {m : LockManager} (h : m.capitalLocks = ∅) : m.Fits := by
  intro b
  unfold total locked
  rw [h, AList.total_empty, Nat.add_zero]
  exact UInt64.toNat_lt _

/-! ## 2. Token entries one after another -/

theorem availableTokenBalance_creditToken_self (m : LockManager) (mint : Mint) (x : UInt64) :
    (m.creditToken mint x).availableTokenBalance mint = m.availableTokenBalance mint + x :=
  Finmap.getOr_insert_self 0 mint _ _

theorem availableTokenBalance_creditToken_ne (m : LockManager) {mint k : Mint} (h : mint ≠ k)
    (x : UInt64) :
    (m.creditToken k x).availableTokenBalance mint = m.availableTokenBalance mint :=
  Finmap.getOr_insert_ne 0 h _ _

/-- A debit of an amount that is there. (A mint without an entry has nothing to debit.) -/
theorem availableTokenBalance_debitToken_self (m : LockManager) (mint : Mint) (x : UInt64)
    (h : x ≤ m.availableTokenBalance mint) :
    (m.debitToken mint x).availableTokenBalance mint = m.availableTokenBalance mint - x := by
  unfold debitToken
  cases hl : m.availableTokens.lookup mint with
  | none =>
      have h0 : m.availableTokenBalance mint = 0 := by
        unfold availableTokenBalance Finmap.getOr
        rw [hl]
        rfl
      have hx : x = 0 := by
        rw [h0, UInt64.le_iff_toNat_le] at h
        exact UInt64.toNat_inj.mp (Nat.le_zero.mp h)
      rw [hx]
      exact (UInt64.sub_zero _).symm
  | some avail =>
      have ha : m.availableTokenBalance mint = avail := by
        unfold availableTokenBalance Finmap.getOr
        rw [hl]
        rfl
      rw [ha]
      exact Finmap.getOr_insert_self 0 mint _ _

theorem availableTokenBalance_debitToken_ne (m : LockManager) {mint k : Mint} (h : mint ≠ k)
    (x : UInt64) :
    (m.debitToken k x).availableTokenBalance mint = m.availableTokenBalance mint := by
  unfold debitToken
  cases m.availableTokens.lookup k with
  | none => rfl
  | some avail => exact Finmap.getOr_insert_ne 0 h _ _

theorem overflowed_debitToken (m : LockManager) (mint : Mint) (x : UInt64)
    (h : x ≤ m.availableTokenBalance mint) :
    (m.debitToken mint x).overflowed = m.overflowed := by
  unfold debitToken
  cases hl : m.availableTokens.lookup mint with
  | none => rfl
  | some avail =>
      have ha : m.availableTokenBalance mint = avail := by
        unfold availableTokenBalance Finmap.getOr
        rw [hl]
        rfl
      have hn : ¬ avail < x := by
        rw [← ha]
        exact UInt64.not_lt.mpr h
      show (m.overflowed || decide (avail < x)) = m.overflowed
      rw [decide_eq_false hn, Bool.or_false]

/-- Two states that differ at most in the free tokens and the ghost flag. -/
def SameButTokens (m m' : LockManager) : Prop :=
  ∃ t o, m' = { m with availableTokens := t, overflowed := o }

theorem SameButTokens.refl (m : LockManager) : SameButTokens m m := ⟨_, _, rfl⟩

theorem SameButTokens.trans {m m' m'' : LockManager} (h : SameButTokens m m')
    (h' : SameButTokens m' m'') : SameButTokens m m'' := by
  obtain ⟨_, _, rfl⟩ := h
  obtain ⟨t, o, rfl⟩ := h'
  exact ⟨t, o, rfl⟩

theorem sameButTokens_creditToken (m : LockManager) (mint : Mint) (x : UInt64) :
    SameButTokens m (m.creditToken mint x) := ⟨_, _, rfl⟩

theorem sameButTokens_debitToken (m : LockManager) (mint : Mint) (x : UInt64) :
    SameButTokens m (m.debitToken mint x) := by
  unfold debitToken
  cases m.availableTokens.lookup mint with
  | none => exact .refl m
  | some avail => exact ⟨_, _, rfl⟩

section Folds

/-- The amount a list of token entries gives to a mint. -/
def entryAmount (mint : Mint) (l : List (Sigma fun _ : Mint => UInt64)) : UInt64 :=
  (l.dlookup mint).getD 0

theorem amount_eq_entryAmount (t : TokenMap) (mint : Mint) :
    t.amount mint = entryAmount mint t.entries := rfl

theorem entryAmount_cons_self (mint : Mint) (x : UInt64)
    (l : List (Sigma fun _ : Mint => UInt64)) : entryAmount mint (⟨mint, x⟩ :: l) = x := by
  unfold entryAmount
  rw [List.dlookup_cons_eq]
  rfl

theorem entryAmount_cons_ne {mint k : Mint} (h : mint ≠ k) (x : UInt64)
    (l : List (Sigma fun _ : Mint => UInt64)) :
    entryAmount mint (⟨k, x⟩ :: l) = entryAmount mint l := by
  unfold entryAmount
  rw [List.dlookup_cons_ne _ _ h]

theorem entryAmount_of_notMem {mint : Mint} {l : List (Sigma fun _ : Mint => UInt64)}
    (h : mint ∉ l.keys) : entryAmount mint l = 0 := by
  unfold entryAmount
  rw [List.dlookup_eq_none.mpr h]
  rfl

/-- Credits of a list of entries change nothing but the free tokens. -/
theorem sameButTokens_credits (l : List (Sigma fun _ : Mint => UInt64)) (m : LockManager) :
    SameButTokens m (l.foldl (fun m e => m.creditToken e.1 e.2) m) := by
  induction l generalizing m with
  | nil => exact .refl m
  | cons e l ih => exact (sameButTokens_creditToken m e.1 e.2).trans (ih _)

/-- Debits of a list of entries change nothing but the free tokens. -/
theorem sameButTokens_debits (l : List (Sigma fun _ : Mint => UInt64)) (m : LockManager) :
    SameButTokens m (l.foldl (fun m e => m.debitToken e.1 e.2) m) := by
  induction l generalizing m with
  | nil => exact .refl m
  | cons e l ih => exact (sameButTokens_debitToken m e.1 e.2).trans (ih _)

/-- **Credits of entries with distinct mints add each mint's own amount.** -/
theorem availableTokenBalance_credits {l : List (Sigma fun _ : Mint => UInt64)}
    (hd : l.NodupKeys) (m : LockManager) (mint : Mint) :
    (l.foldl (fun m e => m.creditToken e.1 e.2) m).availableTokenBalance mint =
      m.availableTokenBalance mint + entryAmount mint l := by
  induction l generalizing m with
  | nil => exact (UInt64.add_zero _).symm
  | cons e l ih =>
      obtain ⟨k, x⟩ := e
      obtain ⟨hk, hd'⟩ := List.nodupKeys_cons.mp hd
      rw [List.foldl_cons, ih hd']
      by_cases h : mint = k
      · subst h
        rw [availableTokenBalance_creditToken_self, entryAmount_cons_self,
          entryAmount_of_notMem hk, UInt64.add_zero]
      · rw [availableTokenBalance_creditToken_ne m h, entryAmount_cons_ne h]

/-- **Credits that stay in range do not overflow.** -/
theorem overflowed_credits {l : List (Sigma fun _ : Mint => UInt64)} (hd : l.NodupKeys)
    (m : LockManager)
    (h : ∀ mint, (m.availableTokenBalance mint).toNat + (entryAmount mint l).toNat < Word.size) :
    (l.foldl (fun m e => m.creditToken e.1 e.2) m).overflowed = m.overflowed := by
  induction l generalizing m with
  | nil => rfl
  | cons e l ih =>
      obtain ⟨k, x⟩ := e
      obtain ⟨hk, hd'⟩ := List.nodupKeys_cons.mp hd
      have hkx := h k
      rw [entryAmount_cons_self] at hkx
      have hrest : ∀ mint, ((m.creditToken k x).availableTokenBalance mint).toNat +
          (entryAmount mint l).toNat < Word.size := by
        intro mint
        by_cases hm : mint = k
        · subst hm
          rw [availableTokenBalance_creditToken_self, entryAmount_of_notMem hk,
            Word.toNat_add_exact hkx]
          exact hkx
        · have hmint := h mint
          rw [entryAmount_cons_ne hm] at hmint
          rw [availableTokenBalance_creditToken_ne m hm]
          exact hmint
      rw [List.foldl_cons, ih hd' _ hrest]
      show (m.overflowed || decide (Word.AddOverflows (m.availableTokenBalance k) x)) = _
      rw [decide_eq_false (Word.not_addOverflows hkx), Bool.or_false]

/-- **Debits of entries with distinct mints that are all there subtract each mint's own amount
    and do not underflow.** -/
theorem debits_exact {l : List (Sigma fun _ : Mint => UInt64)} (hd : l.NodupKeys)
    (m : LockManager) (h : ∀ mint, entryAmount mint l ≤ m.availableTokenBalance mint) :
    (∀ mint, (l.foldl (fun m e => m.debitToken e.1 e.2) m).availableTokenBalance mint =
      m.availableTokenBalance mint - entryAmount mint l) ∧
    (l.foldl (fun m e => m.debitToken e.1 e.2) m).overflowed = m.overflowed := by
  induction l generalizing m with
  | nil => exact ⟨fun mint => (UInt64.sub_zero _).symm, rfl⟩
  | cons e l ih =>
      obtain ⟨k, x⟩ := e
      obtain ⟨hk, hd'⟩ := List.nodupKeys_cons.mp hd
      have hkx := h k
      rw [entryAmount_cons_self] at hkx
      have hrest : ∀ mint, entryAmount mint l ≤ (m.debitToken k x).availableTokenBalance mint := by
        intro mint
        by_cases hm : mint = k
        · subst hm
          rw [entryAmount_of_notMem hk, UInt64.le_iff_toNat_le]
          exact Nat.zero_le _
        · have hmint := h mint
          rw [entryAmount_cons_ne hm] at hmint
          rw [availableTokenBalance_debitToken_ne m hm]
          exact hmint
      obtain ⟨hbal, hflag⟩ := ih hd' _ hrest
      refine ⟨fun mint => ?_, ?_⟩
      · rw [List.foldl_cons, hbal mint]
        by_cases hm : mint = k
        · subst hm
          rw [availableTokenBalance_debitToken_self m mint x hkx, entryAmount_of_notMem hk,
            entryAmount_cons_self, UInt64.sub_zero]
        · rw [availableTokenBalance_debitToken_ne m hm, entryAmount_cons_ne hm]
      · rw [List.foldl_cons, hflag, overflowed_debitToken m k x hkx]

end Folds

end LockManager

/-! ## 3. Releases -/

/-- What a release of the lock does not give back: the tokens, after a confirmed sell. -/
def CapitalLock.keptBack (restoreTokens : Bool) : Bucket → CapitalLock → Nat
  | .token mint, l => if restoreTokens then 0 else l.tokenPart mint
  | _, _ => 0

namespace LockManager

/-- The lamport half of `restoreLock`. -/
def restoreLamports (m : LockManager) (lock : CapitalLock) : LockManager :=
  if lock.reservesTradingWsol then m.creditWsol lock.solLamports else m.creditSol lock.solLamports

theorem restoreLock_true (m : LockManager) (lock : CapitalLock) :
    m.restoreLock lock true =
      lock.tokens.entries.foldl (fun m e => m.creditToken e.1 e.2) (m.restoreLamports lock) := rfl

theorem restoreLock_false (m : LockManager) (lock : CapitalLock) :
    m.restoreLock lock false = m.restoreLamports lock := rfl

theorem sameButTokens_restoreLock (m : LockManager) (lock : CapitalLock) (rt : Bool) :
    SameButTokens (m.restoreLamports lock) (m.restoreLock lock rt) := by
  cases rt with
  | true => exact sameButTokens_credits _ _
  | false => exact .refl _

/-- A restored lock changes nothing but the three balances. -/
theorem capitalLocks_restoreLock (m : LockManager) (lock : CapitalLock) (rt : Bool) :
    (m.restoreLock lock rt).capitalLocks = m.capitalLocks := by
  obtain ⟨t, o, h⟩ := sameButTokens_restoreLock m lock rt
  rw [h]
  unfold restoreLamports
  cases lock.reservesTradingWsol <;> rfl

theorem availableSol_restoreLock (m : LockManager) (lock : CapitalLock) (rt : Bool) :
    (m.restoreLock lock rt).availableSol =
      if lock.reservesTradingWsol then m.availableSol else m.availableSol + lock.solLamports := by
  obtain ⟨t, o, h⟩ := sameButTokens_restoreLock m lock rt
  rw [h]
  unfold restoreLamports
  cases lock.reservesTradingWsol <;> rfl

theorem availableWsol_restoreLock (m : LockManager) (lock : CapitalLock) (rt : Bool) :
    (m.restoreLock lock rt).availableWsol =
      if lock.reservesTradingWsol then m.availableWsol + lock.solLamports
      else m.availableWsol := by
  obtain ⟨t, o, h⟩ := sameButTokens_restoreLock m lock rt
  rw [h]
  unfold restoreLamports
  cases lock.reservesTradingWsol <;> rfl

theorem availableTokenBalance_restoreLamports (m : LockManager) (lock : CapitalLock)
    (mint : Mint) :
    (m.restoreLamports lock).availableTokenBalance mint = m.availableTokenBalance mint := by
  unfold restoreLamports
  cases lock.reservesTradingWsol <;> rfl

theorem availableTokenBalance_restoreLock (m : LockManager) (lock : CapitalLock) (mint : Mint) :
    (m.restoreLock lock true).availableTokenBalance mint =
      m.availableTokenBalance mint + lock.tokens.amount mint := by
  rw [restoreLock_true, availableTokenBalance_credits lock.tokens.nodupKeys,
    availableTokenBalance_restoreLamports]
  rfl

/-- **A restored lock adds its part to each bucket**, less what it keeps back, as long as the
    bucket stays in range. -/
theorem available_restoreLock (m : LockManager) (lock : CapitalLock) (rt : Bool) (b : Bucket)
    (h : (m.available b).toNat + lock.part b < Word.size) :
    ((m.restoreLock lock rt).available b).toNat + lock.keptBack rt b =
      (m.available b).toNat + lock.part b := by
  cases b with
  | native =>
      show ((m.restoreLock lock rt).availableSol).toNat + 0 = m.availableSol.toNat + lock.nativePart
      have h' : m.availableSol.toNat + lock.nativePart < Word.size := h
      rw [availableSol_restoreLock, Nat.add_zero]
      unfold CapitalLock.nativePart at h' ⊢
      cases hw : lock.reservesTradingWsol with
      | true => rfl
      | false =>
          rw [hw] at h'
          exact Word.toNat_add_exact h'
  | wsol =>
      show ((m.restoreLock lock rt).availableWsol).toNat + 0 = m.availableWsol.toNat + lock.wsolPart
      have h' : m.availableWsol.toNat + lock.wsolPart < Word.size := h
      rw [availableWsol_restoreLock, Nat.add_zero]
      unfold CapitalLock.wsolPart at h' ⊢
      cases hw : lock.reservesTradingWsol with
      | true =>
          rw [hw] at h'
          exact Word.toNat_add_exact h'
      | false => rfl
  | token mint =>
      show ((m.restoreLock lock rt).availableTokenBalance mint).toNat +
          (if rt then 0 else lock.tokenPart mint) =
        (m.availableTokenBalance mint).toNat + lock.tokenPart mint
      cases rt with
      | true =>
          rw [availableTokenBalance_restoreLock]
          exact Word.toNat_add_exact h
      | false =>
          rw [restoreLock_false, availableTokenBalance_restoreLamports]
          rfl

/-- Restoring a lock whose parts all fit does not overflow. -/
theorem overflowed_restoreLock (m : LockManager) (lock : CapitalLock) (rt : Bool)
    (h : ∀ b, (m.available b).toNat + lock.part b < Word.size) :
    (m.restoreLock lock rt).overflowed = m.overflowed := by
  have hlam : (m.restoreLamports lock).overflowed = m.overflowed := by
    unfold restoreLamports
    cases hw : lock.reservesTradingWsol with
    | true =>
        have hb : m.availableWsol.toNat + lock.wsolPart < Word.size := h .wsol
        unfold CapitalLock.wsolPart at hb
        rw [hw] at hb
        show (m.overflowed || decide (Word.AddOverflows m.availableWsol lock.solLamports)) = _
        rw [decide_eq_false (Word.not_addOverflows hb), Bool.or_false]
    | false =>
        have hb : m.availableSol.toNat + lock.nativePart < Word.size := h .native
        unfold CapitalLock.nativePart at hb
        rw [hw] at hb
        show (m.overflowed || decide (Word.AddOverflows m.availableSol lock.solLamports)) = _
        rw [decide_eq_false (Word.not_addOverflows hb), Bool.or_false]
  cases rt with
  | false => exact hlam
  | true =>
      rw [restoreLock_true, overflowed_credits lock.tokens.nodupKeys, hlam]
      intro mint
      rw [availableTokenBalance_restoreLamports]
      exact h (.token mint)

/-- The part of `intentId`'s lock that a release keeps back. -/
def keptBack (m : LockManager) (intentId : IntentId) (rt : Bool) (b : Bucket) : Nat :=
  match m.capitalLocks.lookup intentId with
  | some lock => lock.keptBack rt b
  | none => 0

@[simp] theorem keptBack_restoring (m : LockManager) (intentId : IntentId) (b : Bucket) :
    m.keptBack intentId true b = 0 := by
  unfold keptBack
  cases m.capitalLocks.lookup intentId with
  | none => rfl
  | some lock => cases b <;> rfl

/-- What is left of the locks after a release. -/
theorem capitalLocks_release (m : LockManager) (intentId : IntentId) (rt : Bool) :
    (m.releaseCapitalLockRestoreTokens intentId rt).capitalLocks =
      m.capitalLocks.erase intentId := by
  unfold releaseCapitalLockRestoreTokens
  cases hl : m.capitalLocks.lookup intentId with
  | none =>
      exact (AList.erase_of_notMem (AList.lookup_eq_none.mp hl)).symm
  | some lock =>
      show (restoreLock _ lock rt).capitalLocks = _
      rw [capitalLocks_restoreLock]

/-- **A release keeps a bucket's total**, less what it keeps back of the lock. -/
theorem total_release (m : LockManager) (intentId : IntentId) (rt : Bool) (b : Bucket)
    (h : m.total b < Word.size) :
    (m.releaseCapitalLockRestoreTokens intentId rt).total b + m.keptBack intentId rt b =
      m.total b := by
  unfold total locked
  rw [capitalLocks_release]
  unfold releaseCapitalLockRestoreTokens keptBack
  cases hl : m.capitalLocks.lookup intentId with
  | none => rw [AList.erase_of_notMem (AList.lookup_eq_none.mp hl), Nat.add_zero]
  | some lock =>
      have herase := AList.total_erase (CapitalLock.part b) hl
      unfold total locked at h
      have havail := available_restoreLock
        { m with capitalLocks := m.capitalLocks.erase intentId } lock rt b (by
          show (m.available b).toNat + lock.part b < Word.size
          omega)
      have hsame : ({ m with capitalLocks := m.capitalLocks.erase intentId } :
          LockManager).available b = m.available b := by cases b <;> rfl
      rw [hsame] at havail
      show ((restoreLock _ lock rt).available b).toNat + _ + lock.keptBack rt b = _
      omega

/-- With every bucket in range a release does not overflow. -/
theorem overflowed_release (m : LockManager) (intentId : IntentId) (rt : Bool) (h : m.Fits) :
    (m.releaseCapitalLockRestoreTokens intentId rt).overflowed = m.overflowed := by
  unfold releaseCapitalLockRestoreTokens
  cases hl : m.capitalLocks.lookup intentId with
  | none => rfl
  | some lock =>
      refine overflowed_restoreLock _ lock rt fun b => ?_
      have hpart := AList.le_total (CapitalLock.part b) hl
      have hb := h b
      unfold total locked at hb
      have hsame : ({ m with capitalLocks := m.capitalLocks.erase intentId } :
          LockManager).available b = m.available b := by cases b <;> rfl
      rw [hsame]
      omega

/-! ## 4. Expiry -/

/-- A bucket that fits still fits after releases that give everything back. -/
theorem total_releases (ks : List IntentId) (m : LockManager) (b : Bucket)
    (h : m.total b < Word.size) :
    (ks.foldl (fun m k => m.releaseCapitalLockRestoreTokens k true) m).total b = m.total b := by
  induction ks generalizing m with
  | nil => rfl
  | cons k ks ih =>
      have hk := total_release m k true b h
      rw [keptBack_restoring, Nat.add_zero] at hk
      rw [List.foldl_cons, ih _ (by omega), hk]

theorem overflowed_releases (ks : List IntentId) (m : LockManager) (h : m.Fits) :
    (ks.foldl (fun m k => m.releaseCapitalLockRestoreTokens k true) m).overflowed =
      m.overflowed := by
  induction ks generalizing m with
  | nil => rfl
  | cons k ks ih =>
      have hfit : (m.releaseCapitalLockRestoreTokens k true).Fits := by
        intro b
        have hk := total_release m k true b (h b)
        rw [keptBack_restoring, Nat.add_zero] at hk
        rw [hk]
        exact h b
      rw [List.foldl_cons, ih _ hfit, overflowed_release m k true h]

theorem capitalLocks_releases (ks : List IntentId) (m : LockManager) :
    (ks.foldl (fun m k => m.releaseCapitalLockRestoreTokens k true) m).capitalLocks =
      m.capitalLocks.eraseAll ks := by
  induction ks generalizing m with
  | nil => rfl
  | cons k ks ih => rw [List.foldl_cons, ih, capitalLocks_release, AList.eraseAll_cons]

/-- **Expiry keeps every bucket's total.** -/
theorem total_cleanupExpired (m : LockManager) (now : Instant) (b : Bucket)
    (h : m.total b < Word.size) : (m.cleanupExpired now).total b = m.total b := by
  have hc := total_releases (m.capitalLocks.keysWhere (CapitalLock.expired now)) m b h
  rw [← hc]
  exact total_congr (by cases b <;> rfl) rfl

theorem overflowed_cleanupExpired (m : LockManager) (now : Instant) (h : m.Fits) :
    (m.cleanupExpired now).overflowed = m.overflowed :=
  overflowed_releases _ m h

/-- What expiry leaves of the capital locks: the ones that are not past their TTL. -/
theorem lookup_capitalLocks_cleanupExpired (m : LockManager) (now : Instant) (id : IntentId) :
    (m.cleanupExpired now).capitalLocks.lookup id =
      (m.capitalLocks.lookup id).filter fun l => !l.expired now := by
  have hlocks : (m.cleanupExpired now).capitalLocks =
      m.capitalLocks.eraseAll (m.capitalLocks.keysWhere (CapitalLock.expired now)) :=
    capitalLocks_releases _ m
  rw [hlocks, AList.lookup_eraseAll_keysWhere]

theorem expired_inFlight {l : CapitalLock} (h : l.phase = .inFlight) (now : Instant) :
    l.expired now = false := by
  unfold CapitalLock.expired
  rw [h]
  rfl

/-- **A lock in flight never expires.** -/
theorem inFlight_cleanupExpired {m : LockManager} {id : IntentId} {l : CapitalLock}
    (hl : m.capitalLocks.lookup id = some l) (hp : l.phase = .inFlight) (now : Instant) :
    (m.cleanupExpired now).capitalLocks.lookup id = some l := by
  rw [lookup_capitalLocks_cleanupExpired, hl, Option.filter_some, expired_inFlight hp]
  rfl

end LockManager

end IronCrab

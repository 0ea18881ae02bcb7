/-
  File:      IronCrab/Storage/Refresh.lean
  Subject:   BALANCE REFRESHES AND OVERBOOKING (I-20) in every reachable manager.

  A refresh reports an on-chain amount `x` for one or more buckets. It is EXACT when right after
  it each reported bucket's total is `max x (what the locks hold)`. `Op` lists every operation
  that changes a manager; the reachable managers are the ends of its runs from a fresh one.

  * `native_wsol_in_range` -- the totals of native SOL and WSOL are `u64`s in every reachable
    manager, so their refreshes are exact;
  * `exact_iff_covered` -- a refresh of a mint is exact just when `Covered` holds:
    `update_balances`, which writes the token map as it comes, must report nothing (or zero) for
    a mint that a lock holds; the others need the mint's locked sum to be a `u64` (or to wrap to
    no less than what is reported);
  * `total_le_of_quiet` -- after an exact refresh nothing but the next report of the bucket lets
    its total grow past the reported amount;
  * **`refresh_exact_iff`** puts the three together; `update_balances_overbooks` is the reachable
    manager where the token refresh counts a held amount twice.
-/
import IronCrab.Storage.LockFrame

namespace IronCrab

/-! ## 1. Operations -/

/-- The operations that report on-chain amounts. -/
inductive RefreshOp where
  | updateBalances (solLamports : UInt64) (tokens : Finmap fun _ : Mint => UInt64)
  | updateWalletBalances (solLamports : UInt64) (wsolLamports : Option UInt64)
  | updateNativeSolOnly (solLamports : UInt64)
  | updateWsolOnly (wsolLamports : UInt64)
  | setAvailableTokenBalance (mint : Mint) (amountRaw : UInt64)
  | applyWalletTokenSnapshot (mint : Mint) (amountRaw : UInt64) (snapshotSlot : Option UInt64)

namespace RefreshOp

/-- What the refresh leaves behind. -/
def apply (m : LockManager) : RefreshOp → LockManager
  | updateBalances sol tokens => m.updateBalances sol tokens
  | updateWalletBalances sol wsol => m.updateWalletBalances sol wsol
  | updateNativeSolOnly sol => m.updateNativeSolOnly sol
  | updateWsolOnly wsol => m.updateWsolOnly wsol
  | setAvailableTokenBalance mint amount => m.setAvailableTokenBalance mint amount
  | applyWalletTokenSnapshot mint amount slot => m.applyWalletTokenSnapshot mint amount slot

/-- The snapshot predates a confirmed close and is dropped. -/
def stale (m : LockManager) (mint : Mint) (amount : UInt64) (slot : Option UInt64) : Bool :=
  (m.walletTokenSnapshotStaleAfterClose mint amount slot).1

/-- The amount the refresh reports for a bucket. -/
def reports (m : LockManager) : RefreshOp → Bucket → Option UInt64
  | updateBalances sol _, .native => some sol
  | updateBalances _ tokens, .token mint => tokens.lookup mint
  | updateWalletBalances sol _, .native => some sol
  | updateWalletBalances _ wsol, .wsol => wsol
  | updateNativeSolOnly sol, .native => some sol
  | updateWsolOnly wsol, .wsol => some wsol
  | setAvailableTokenBalance k amount, .token mint => if mint = k then some amount else none
  | applyWalletTokenSnapshot k amount slot, .token mint =>
      if mint = k ∧ stale m k amount slot = false then some amount else none
  | _, _ => none

/-- **Right after the refresh each reported bucket's total is the larger of what was reported and
    what the locks hold.** -/
def Exact (m : LockManager) (r : RefreshOp) : Prop :=
  ∀ b x, r.reports m b = some x →
    ((r.apply m).available b).toNat + (r.apply m).locked b = max x.toNat (m.locked b)

/-- The locked sum of a mint that the refresh subtracts is the true one, or large enough. -/
def SumUsable (m : LockManager) (mint : Mint) (amount : UInt64) : Prop :=
  m.lockedTokens mint < Word.size ∨ amount.toNat ≤ m.lockedTokens mint % Word.size

/-- **When a refresh is exact.** -/
def Covered (m : LockManager) : RefreshOp → Prop
  | updateBalances _ tokens =>
      ∀ mint x, tokens.lookup mint = some x → x = 0 ∨ m.lockedTokens mint = 0
  | setAvailableTokenBalance mint amount => SumUsable m mint amount
  | applyWalletTokenSnapshot mint amount slot =>
      stale m mint amount slot = false → SumUsable m mint amount
  | _ => True

end RefreshOp

/-- Every operation that changes a manager. -/
inductive Op where
  | lock (o : LockOp)
  | refresh (r : RefreshOp)
  | addAvailableTokenBalance (mint : Mint) (additionalRaw : UInt64)
  | markTokenWalletAtaPresent (mint : Mint)
  | clearTokenWalletPresence (mint : Mint) (closedAtSlot : Option UInt64)
  | markProcessed (intentId : IntentId)
  | setProcessedIntents (intents : Finset IntentId)
  | tryLockResourceWithTtl (holder : LockHolder) (resourceId : ResourceId)
      (resourceType : ResourceType) (ttl : Option Duration)
      (now nowStarved nowRecord createdAt : Instant)

namespace Op

/-- What the operation leaves behind. -/
def apply (m : LockManager) : Op → LockManager
  | lock o => o.apply m
  | refresh r => r.apply m
  | addAvailableTokenBalance mint k => m.addAvailableTokenBalance mint k
  | markTokenWalletAtaPresent mint => m.markTokenWalletAtaPresent mint
  | clearTokenWalletPresence mint slot => m.clearTokenWalletPresence mint slot
  | markProcessed id => m.markProcessed id
  | setProcessedIntents ids => m.setProcessedIntents ids
  | tryLockResourceWithTtl holder rid ty ttl now nowStarved nowRecord createdAt =>
      (m.tryLockResourceWithTtl holder rid ty ttl now nowStarved nowRecord createdAt).2

/-- One operation of a run. -/
def Step (m : LockManager) (op : Op) (m' : LockManager) : Prop := m' = op.apply m

end Op

/-- A manager as the engine builds it. -/
structure LockManager.Fresh (m : LockManager) : Prop where
  built : ∃ sol n w p e ttl,
    m = ((LockManager.new sol).withFairness n w p e).withTtl ttl

/-- A manager that some run of operations from a fresh one reaches. -/
def LockManager.Reachable (m : LockManager) : Prop :=
  ∃ m₀ tr, LockManager.Fresh m₀ ∧ Machine.Run Op.Step m₀ tr m

/-! ## 2. Lamport buckets -/

namespace LockManager

/-- The machine sum of the native locks is the exact one, as long as that is a `u64`. -/
theorem toNat_sumLockedNativeSol {m : LockManager} (h : m.locked .native < Word.size) :
    m.sumLockedNativeSol.toNat = m.locked .native := by
  have hsum : Word.natSum (((m.capitalLocks.entries.map Sigma.snd).filter
      fun l => !l.reservesTradingWsol).map fun l => l.solLamports) = m.locked .native := by
    rw [Word.natSum_filter_map, List.map_map]
    unfold locked AList.total
    congr 1
    refine List.map_congr_left fun e _ => ?_
    show (if (!e.2.reservesTradingWsol) = true then _ else 0) = e.2.nativePart
    unfold CapitalLock.nativePart
    cases e.2.reservesTradingWsol <;> rfl
  unfold sumLockedNativeSol
  rw [Word.toNat_wrapSum (by rw [hsum]; exact h), hsum]

theorem toNat_sumLockedWsolTrading {m : LockManager} (h : m.locked .wsol < Word.size) :
    m.sumLockedWsolTrading.toNat = m.locked .wsol := by
  have hsum : Word.natSum (((m.capitalLocks.entries.map Sigma.snd).filter
      fun l => l.reservesTradingWsol).map fun l => l.solLamports) = m.locked .wsol := by
    rw [Word.natSum_filter_map, List.map_map]
    rfl
  unfold sumLockedWsolTrading
  rw [Word.toNat_wrapSum (by rw [hsum]; exact h), hsum]

/-- The machine sum of a mint's locks is the exact one modulo the word size. -/
theorem toNat_sumLockedForMint (m : LockManager) (mint : Mint) :
    (m.sumLockedForMint mint).toNat = m.lockedTokens mint % Word.size := by
  have hsum : Word.natSum ((m.capitalLocks.entries.map Sigma.snd).map
      fun l => l.tokens.amount mint) = m.lockedTokens mint := by
    unfold Word.natSum lockedTokens AList.total
    rw [List.map_map, List.map_map]
    rfl
  unfold sumLockedForMint
  rw [Word.toNat_wrapSum_mod, hsum]

theorem sub_add_eq_max (x n : Nat) : x - n + n = max x n := by omega

end LockManager

namespace RefreshOp

open LockManager

/-- **The three things a wallet snapshot can do**: set the balance, or be dropped, or be dropped
    after zeroing the balance. -/
theorem snapshot_cases (m : LockManager) (mint : Mint) (amount : UInt64)
    (slot : Option UInt64) :
    (stale m mint amount slot = false ∧
      m.applyWalletTokenSnapshot mint amount slot =
        ({ m with
            tokenWalletAtaClearedAtSlot := m.tokenWalletAtaClearedAtSlot.erase mint
            tokenWalletAtaPresent := insert mint m.tokenWalletAtaPresent } :
          LockManager).setAvailableTokenBalance mint amount) ∨
    (stale m mint amount slot = true ∧
      (m.applyWalletTokenSnapshot mint amount slot = m ∨
        m.applyWalletTokenSnapshot mint amount slot = m.setAvailableTokenBalance mint 0)) := by
  unfold stale LockManager.applyWalletTokenSnapshot walletTokenSnapshotStaleAfterClose
  cases m.tokenWalletAtaClearedAtSlot.lookup mint with
  | none => exact .inl ⟨rfl, rfl⟩
  | some closed =>
      cases slot with
      | none =>
          by_cases h0 : amount = 0
          · rw [h0]
            cases closed <;> exact .inr ⟨rfl, .inr rfl⟩
          · cases closed <;> simp only [if_neg h0] <;> exact .inl ⟨trivial, rfl⟩
      | some snap =>
          cases closed with
          | none => exact .inr ⟨rfl, .inl rfl⟩
          | some closedSlot =>
              by_cases hs : snap ≤ closedSlot
              · simp only [decide_eq_true hs]
                exact .inr ⟨trivial, .inl trivial⟩
              · simp only [decide_eq_false hs]
                exact .inl ⟨trivial, rfl⟩

/-- No refresh touches a lock. -/
theorem capitalLocks_apply (m : LockManager) (r : RefreshOp) :
    (r.apply m).capitalLocks = m.capitalLocks := by
  cases r with
  | updateWalletBalances sol wsol => cases wsol <;> rfl
  | applyWalletTokenSnapshot mint amount slot =>
      show (m.applyWalletTokenSnapshot mint amount slot).capitalLocks = m.capitalLocks
      rcases snapshot_cases m mint amount slot with ⟨_, h⟩ | ⟨_, h | h⟩ <;> rw [h] <;> rfl
  | _ => rfl

/-- No refresh touches a pool lock or a mark. -/
theorem sameTables_apply (m : LockManager) (r : RefreshOp) : m.SameTables (r.apply m) := by
  cases r with
  | updateWalletBalances sol wsol => cases wsol <;> exact ⟨rfl, rfl⟩
  | applyWalletTokenSnapshot mint amount slot =>
      show m.SameTables (m.applyWalletTokenSnapshot mint amount slot)
      rcases snapshot_cases m mint amount slot with ⟨_, h⟩ | ⟨_, h | h⟩ <;> rw [h] <;>
        exact ⟨rfl, rfl⟩
  | _ => exact ⟨rfl, rfl⟩

theorem locked_apply (m : LockManager) (r : RefreshOp) (b : Bucket) :
    (r.apply m).locked b = m.locked b := by
  unfold locked
  rw [capitalLocks_apply]

/-- **A refresh of native SOL is exact** while the locked sum is a `u64`. -/
theorem exact_native {m : LockManager} (h : m.locked .native < Word.size) (r : RefreshOp)
    (x : UInt64) (hr : r.reports m .native = some x) :
    (r.apply m).total .native = max x.toNat (m.locked .native) := by
  have havail : (r.apply m).available .native = Word.satSub x m.sumLockedNativeSol := by
    cases r with
    | updateBalances sol tokens =>
        cases hr
        rfl
    | updateWalletBalances sol wsol =>
        cases hr
        cases wsol <;> rfl
    | updateNativeSolOnly sol =>
        cases hr
        rfl
    | _ => cases hr
  unfold total
  rw [locked_apply, havail, Word.toNat_satSub, toNat_sumLockedNativeSol h, sub_add_eq_max]

/-- **A refresh of WSOL is exact** while the locked sum is a `u64`. -/
theorem exact_wsol {m : LockManager} (h : m.locked .wsol < Word.size) (r : RefreshOp)
    (x : UInt64) (hr : r.reports m .wsol = some x) :
    (r.apply m).total .wsol = max x.toNat (m.locked .wsol) := by
  have havail : (r.apply m).available .wsol = Word.satSub x m.sumLockedWsolTrading := by
    cases r with
    | updateWalletBalances sol wsol =>
        have hw : wsol = some x := hr
        rw [hw]
        rfl
    | updateWsolOnly wsol =>
        cases hr
        rfl
    | _ => cases hr
  unfold total
  rw [locked_apply, havail, Word.toNat_satSub, toNat_sumLockedWsolTrading h, sub_add_eq_max]

/-! ## 3. Token buckets -/

theorem total_setAvailableTokenBalance (m : LockManager) (mint : Mint) (amount : UInt64) :
    (m.setAvailableTokenBalance mint amount).total (.token mint) =
      amount.toNat - m.lockedTokens mint % Word.size + m.lockedTokens mint := by
  have havail : (m.setAvailableTokenBalance mint amount).available (.token mint) =
      Word.satSub amount (m.sumLockedForMint mint) := Finmap.getOr_insert_self 0 mint _ _
  have hlock : (m.setAvailableTokenBalance mint amount).locked (.token mint) =
      m.lockedTokens mint := rfl
  unfold total
  rw [havail, hlock, Word.toNat_satSub, toNat_sumLockedForMint]

/-- A single-mint refresh is exact just when the sum it subtracts is usable. -/
theorem exact_set_iff (m : LockManager) (mint : Mint) (amount : UInt64) :
    (m.setAvailableTokenBalance mint amount).total (.token mint) =
      max amount.toNat (m.lockedTokens mint) ↔ SumUsable m mint amount := by
  rw [total_setAvailableTokenBalance]
  exact Word.sub_mod_add_eq_max_iff amount.toNat_lt

/-- An accepted snapshot sets the balance over a state with the same locks. -/
theorem total_acceptedSnapshot {m : LockManager} {mint : Mint} {amount : UInt64}
    {slot : Option UInt64} (h : stale m mint amount slot = false) :
    (m.applyWalletTokenSnapshot mint amount slot).total (.token mint) =
      (m.setAvailableTokenBalance mint amount).total (.token mint) := by
  rcases snapshot_cases m mint amount slot with ⟨_, heq⟩ | ⟨hs, _⟩
  · rw [heq, total_setAvailableTokenBalance, total_setAvailableTokenBalance]
    rfl
  · rw [h] at hs
    cases hs

/-- **A refresh is exact just when it is covered**, in every state whose lamport sums are
    `u64`s. -/
theorem exact_iff_covered {m : LockManager} (hn : m.locked .native < Word.size)
    (hw : m.locked .wsol < Word.size) (r : RefreshOp) : r.Exact m ↔ r.Covered m := by
  cases r with
  | updateBalances sol tokens =>
      constructor
      · intro h mint x hx
        have hm := h (.token mint) x hx
        rw [locked_apply] at hm
        have havail : ((updateBalances sol tokens).apply m).available (.token mint) = x := by
          show tokens.getOr 0 mint = x
          unfold Finmap.getOr
          rw [hx]
          rfl
        rw [havail] at hm
        have hl : m.locked (.token mint) = m.lockedTokens mint := rfl
        by_cases h0 : m.lockedTokens mint = 0
        · exact .inr h0
        · refine .inl (UInt64.toNat_inj.mp ?_)
          show x.toNat = 0
          omega
      · intro h b x hx
        cases b with
        | native => exact exact_native hn _ x hx
        | wsol => cases hx
        | token mint =>
            have hx' : tokens.lookup mint = some x := hx
            have havail : ((updateBalances sol tokens).apply m).available (.token mint) = x := by
              show tokens.getOr 0 mint = x
              unfold Finmap.getOr
              rw [hx']
              rfl
            have hl : m.locked (.token mint) = m.lockedTokens mint := rfl
            rw [locked_apply, havail]
            rcases h mint x hx' with h0 | h0
            · rw [h0, hl]
              show 0 + m.lockedTokens mint = max 0 (m.lockedTokens mint)
              omega
            · omega
  | updateWalletBalances sol wsol =>
      refine ⟨fun _ => trivial, fun _ b x hx => ?_⟩
      cases b with
      | native => exact exact_native hn _ x hx
      | wsol => exact exact_wsol hw _ x hx
      | token mint => cases hx
  | updateNativeSolOnly sol =>
      refine ⟨fun _ => trivial, fun _ b x hx => ?_⟩
      cases b with
      | native => exact exact_native hn _ x hx
      | _ => cases hx
  | updateWsolOnly wsol =>
      refine ⟨fun _ => trivial, fun _ b x hx => ?_⟩
      cases b with
      | wsol => exact exact_wsol hw _ x hx
      | _ => cases hx
  | setAvailableTokenBalance k amount =>
      constructor
      · intro h
        exact (exact_set_iff m k amount).mp (h (.token k) amount (if_pos rfl))
      · intro h b x hx
        cases b with
        | token mint =>
            by_cases hk : mint = k
            · subst hk
              have hx' : some amount = some x := (if_pos rfl).symm.trans hx
              cases hx'
              exact (exact_set_iff m mint amount).mpr h
            · have hx' : none = some x := (if_neg hk).symm.trans hx
              cases hx'
        | _ => cases hx
  | applyWalletTokenSnapshot k amount slot =>
      constructor
      · intro h hs
        refine (exact_set_iff m k amount).mp ?_
        rw [← total_acceptedSnapshot hs]
        exact h (.token k) amount (if_pos ⟨rfl, hs⟩)
      · intro h b x hx
        cases b with
        | token mint =>
            by_cases hk : mint = k ∧ stale m k amount slot = false
            · obtain ⟨rfl, hs⟩ := hk
              have hx' : some amount = some x := (if_pos ⟨rfl, hs⟩).symm.trans hx
              cases hx'
              have hset := (exact_set_iff m mint amount).mpr (h hs)
              rw [← total_acceptedSnapshot hs] at hset
              exact hset
            · have hx' : none = some x := (if_neg hk).symm.trans hx
              cases hx'
        | _ => cases hx

/-! ## 4. What a refresh does to buckets it does not report -/

/-- A snapshot changes the balance of its own mint only. -/
theorem available_snapshot_ne (m : LockManager) {b : Bucket} {k : Mint} (h : b ≠ .token k)
    (amount : UInt64) (slot : Option UInt64) :
    (m.applyWalletTokenSnapshot k amount slot).available b = m.available b := by
  have hset : ∀ (m : LockManager) (a : UInt64),
      (m.setAvailableTokenBalance k a).available b = m.available b := by
    intro m a
    cases b with
    | token mint => exact Finmap.getOr_insert_ne 0 (fun he => h (by rw [he])) _ _
    | _ => rfl
  rcases snapshot_cases m k amount slot with ⟨_, heq⟩ | ⟨_, heq | heq⟩
  · rw [heq, hset]
    cases b <;> rfl
  · rw [heq]
  · rw [heq, hset]

/-- A dropped snapshot leaves its mint alone, or zeroes it. -/
theorem available_staleSnapshot {m : LockManager} {mint : Mint} {amount : UInt64}
    {slot : Option UInt64} (h : stale m mint amount slot = true) :
    (m.applyWalletTokenSnapshot mint amount slot).availableTokenBalance mint ≤
      m.availableTokenBalance mint := by
  rcases snapshot_cases m mint amount slot with ⟨hs, _⟩ | ⟨_, heq | heq⟩
  · rw [h] at hs
    cases hs
  · rw [heq]
    exact UInt64.le_refl _
  · have h0 : (m.setAvailableTokenBalance mint 0).availableTokenBalance mint =
        Word.satSub 0 (m.sumLockedForMint mint) := Finmap.getOr_insert_self 0 mint _ _
    rw [heq, h0, UInt64.le_iff_toNat_le, Word.toNat_satSub]
    show 0 - (m.sumLockedForMint mint).toNat ≤ _
    omega

/-- **A bucket that a refresh does not report does not grow.** -/
theorem total_le_of_unreported (m : LockManager) (r : RefreshOp) (b : Bucket)
    (h : r.reports m b = none) : (r.apply m).total b ≤ m.total b := by
  have havail : ((r.apply m).available b).toNat ≤ (m.available b).toNat := by
    cases r with
    | updateBalances sol tokens =>
        cases b with
        | native => cases h
        | wsol => exact Nat.le_refl _
        | token mint =>
            have h' : tokens.lookup mint = none := h
            have h0 : ((updateBalances sol tokens).apply m).available (.token mint) = 0 := by
              show tokens.getOr 0 mint = 0
              unfold Finmap.getOr
              rw [h']
              rfl
            rw [h0]
            exact Nat.zero_le _
    | updateWalletBalances sol wsol =>
        cases b with
        | native => cases h
        | wsol =>
            have h' : wsol = none := h
            rw [h']
            exact Nat.le_refl _
        | token mint => cases wsol <;> exact Nat.le_refl _
    | updateNativeSolOnly sol =>
        cases b with
        | native => cases h
        | _ => exact Nat.le_refl _
    | updateWsolOnly wsol =>
        cases b with
        | wsol => cases h
        | _ => exact Nat.le_refl _
    | setAvailableTokenBalance k amount =>
        cases b with
        | token mint =>
            by_cases hk : mint = k
            · have h' : some amount = none := (if_pos hk).symm.trans h
              cases h'
            · refine Nat.le_of_eq (congrArg UInt64.toNat ?_)
              exact Finmap.getOr_insert_ne 0 hk _ _
        | _ => exact Nat.le_refl _
    | applyWalletTokenSnapshot k amount slot =>
        by_cases hk : b = .token k
        · subst hk
          cases hs : stale m k amount slot with
          | false =>
              have h' : some amount = none := (if_pos ⟨rfl, hs⟩).symm.trans h
              cases h'
          | true => exact UInt64.le_iff_toNat_le.mp (available_staleSnapshot hs)
        · exact Nat.le_of_eq (congrArg UInt64.toNat (available_snapshot_ne m hk amount slot))
  have hlock := locked_apply m r b
  unfold total
  omega

end RefreshOp

/-! ## 5. Reachable managers -/

namespace LockManager

/-- A resource attempt leaves the buckets to its expiry cleanup. -/
theorem total_tryLockResource (m : LockManager) (holder : LockHolder) (rid : ResourceId)
    (ty : ResourceType) (ttl : Option Duration) (now nowStarved nowRecord createdAt : Instant)
    (b : Bucket) :
    (m.tryLockResourceWithTtl holder rid ty ttl now nowStarved nowRecord createdAt).2.total b =
      (m.cleanupExpired now).total b := by
  unfold tryLockResourceWithTtl acquireResource
  cases (m.cleanupExpired now).resourceLocks.lookup rid with
  | none => exact total_congr (by cases b <;> rfl) rfl
  | some existing =>
      by_cases hid : existing.holder.intentId = holder.intentId
      · simp only [if_pos hid]
        exact total_congr (by cases b <;> rfl) rfl
      simp only [if_neg hid]
      by_cases ht : holder.tier < existing.holder.tier
      · simp only [if_pos ht]
        cases hblock : (m.cleanupExpired now).fairness.shouldBlockPreemption
            (existing.holder.source.getD "unknown") nowStarved with
        | true => rfl
        | false => exact total_congr (by cases b <;> rfl) rfl
      · simp only [if_neg ht]

/-- The lamport totals are `u64`s. -/
structure InRange (m : LockManager) : Prop where
  native : m.total .native < Word.size
  wsol : m.total .wsol < Word.size

theorem InRange.congr {m m' : LockManager} (h : m.InRange)
    (hn : m'.total .native ≤ m.total .native) (hw : m'.total .wsol ≤ m.total .wsol) :
    m'.InRange :=
  ⟨Nat.lt_of_le_of_lt hn h.native, Nat.lt_of_le_of_lt hw h.wsol⟩

/-- A refresh leaves the lamport totals in range: what it reports is a `u64`. -/
theorem inRange_refresh {m : LockManager} (h : m.InRange) (r : RefreshOp) :
    (r.apply m).InRange := by
  have hbucket : ∀ b, m.total b < Word.size →
      (∀ x, r.reports m b = some x → (r.apply m).total b = max x.toNat (m.locked b)) →
      (r.apply m).total b < Word.size := by
    intro b hb hexact
    cases hr : r.reports m b with
    | none => exact Nat.lt_of_le_of_lt (RefreshOp.total_le_of_unreported m r b hr) hb
    | some x =>
        have hx : x.toNat < Word.size := x.toNat_lt
        have hl : m.locked b ≤ m.total b := Nat.le_add_left _ _
        rw [hexact x hr]
        omega
  have hln : m.locked .native ≤ m.total .native := Nat.le_add_left _ _
  have hlw : m.locked .wsol ≤ m.total .wsol := Nat.le_add_left _ _
  exact ⟨hbucket .native h.native
      (RefreshOp.exact_native (Nat.lt_of_le_of_lt hln h.native) r),
    hbucket .wsol h.wsol (RefreshOp.exact_wsol (Nat.lt_of_le_of_lt hlw h.wsol) r)⟩

/-- Every operation leaves the lamport totals in range. -/
theorem inRange_apply {m : LockManager} (h : m.InRange) (op : Op) : (op.apply m).InRange := by
  cases op with
  | lock o =>
      have hn := LockOp.total_apply m o .native h.native
      have hw := LockOp.total_apply m o .wsol h.wsol
      exact h.congr (Nat.le.intro hn) (Nat.le.intro hw)
  | refresh r => exact inRange_refresh h r
  | tryLockResourceWithTtl holder rid ty ttl now nowStarved nowRecord createdAt =>
      have hn := total_tryLockResource m holder rid ty ttl now nowStarved nowRecord createdAt
        .native
      have hw := total_tryLockResource m holder rid ty ttl now nowStarved nowRecord createdAt
        .wsol
      rw [total_cleanupExpired m now .native h.native] at hn
      rw [total_cleanupExpired m now .wsol h.wsol] at hw
      exact h.congr (Nat.le_of_eq hn) (Nat.le_of_eq hw)
  | _ => exact h.congr (Nat.le_refl _) (Nat.le_refl _)

theorem Fresh.inRange {m : LockManager} (h : m.Fresh) : m.InRange := by
  obtain ⟨sol, n, w, p, e, ttl, rfl⟩ := h.built
  have hfit : (((LockManager.new sol).withFairness n w p e).withTtl ttl).Fits :=
    fits_of_no_locks rfl
  exact ⟨hfit .native, hfit .wsol⟩

/-- **In every reachable manager the lamport totals are `u64`s.** -/
theorem native_wsol_in_range {m : LockManager} (h : m.Reachable) : m.InRange := by
  obtain ⟨m₀, tr, hfresh, hrun⟩ := h
  refine Machine.Run.invariant (I := fun _ m => m.InRange) hfresh.inRange ?_ hrun
  intro tr s op s' _ hs hstep
  rw [hstep]
  exact inRange_apply hs op

/-! ## 6. Between two reports -/

/-- The operations that may follow a report of bucket `b`: lock operations and refreshes that do
    not report it. -/
def Quiet (b : Bucket) (m : LockManager) : Op → Prop
  | .lock _ => True
  | .refresh r => r.reports m b = none
  | _ => False

theorem total_le_of_quiet {m : LockManager} {b : Bucket} {op : Op} (hfit : m.total b < Word.size)
    (h : Quiet b m op) : (op.apply m).total b ≤ m.total b := by
  cases op with
  | lock o => exact Nat.le.intro (LockOp.total_apply m o b hfit)
  | refresh r => exact RefreshOp.total_le_of_unreported m r b h
  | _ => exact absurd h id

/-- **Until the next report of the bucket its total does not grow.** -/
theorem total_le_along_quiet {m₀ m : LockManager} {b : Bucket} {tr : List Op}
    (hfit : m₀.total b < Word.size)
    (hrun : Machine.Run (Machine.Guarded Op.Step (Quiet b)) m₀ tr m) :
    m.total b ≤ m₀.total b := by
  refine Machine.Run.invariant (I := fun _ m => m.total b ≤ m₀.total b) (Nat.le_refl _) ?_ hrun
  intro tr s op s' _ hs hstep
  obtain ⟨hop, hquiet⟩ := hstep
  rw [hop]
  exact Nat.le_trans (total_le_of_quiet (Nat.lt_of_le_of_lt hs hfit) hquiet) hs

end LockManager

open LockManager in
/-- **NO OVERBOOKING ACROSS REFRESHES, AND WHEN.** In every reachable manager a refresh is exact
    just when it is covered; and after a covered refresh that reports `x` for a bucket whose
    locks hold no more, free and held together stay at or below `x` until the next report. -/
theorem refresh_exact_iff {m : LockManager} (h : m.Reachable) (r : RefreshOp) :
    (r.Exact m ↔ r.Covered m) ∧
    (r.Covered m → ∀ b x, r.reports m b = some x → m.locked b ≤ x.toNat →
      ∀ tr m', Machine.Run (Machine.Guarded Op.Step (Quiet b)) (r.apply m) tr m' →
        (m'.available b).toNat + m'.locked b ≤ x.toNat) := by
  obtain ⟨hn, hw⟩ := native_wsol_in_range h
  have hiff := RefreshOp.exact_iff_covered
    (Nat.lt_of_le_of_lt (Nat.le_add_left _ _) hn) (Nat.lt_of_le_of_lt (Nat.le_add_left _ _) hw) r
  refine ⟨hiff, fun hcov b x hx hle tr m' hrun => ?_⟩
  have htotal : (r.apply m).total b = x.toNat := by
    have hexact := hiff.mpr hcov b x hx
    rw [Nat.max_eq_left hle] at hexact
    exact hexact
  have hfit : (r.apply m).total b < Word.size := by
    rw [htotal]
    exact x.toNat_lt
  have hrest := total_le_along_quiet hfit hrun
  rw [htotal] at hrest
  exact hrest

/-- A manager whose sell of 60 out of 100 is locked. -/
def sellingManager : LockManager :=
  Machine.foldSteps Op.apply (LockManager.new 0)
    [.refresh (.setAvailableTokenBalance "mint" 100),
      .lock (.tryLockCapital (.new "sell") 0 (AList.singleton "mint" 60) 0 0)]

theorem sellingManager_reachable : sellingManager.Reachable := by
  have hstep : ∀ m op, Op.Step m op (op.apply m) := fun _ _ => rfl
  exact ⟨LockManager.new 0, _, ⟨⟨0, 5, 60000, 30000, true, 30000, rfl⟩⟩,
    Machine.Run.ofFold hstep _ _⟩

/-- `refresh_exact_iff` at a single-mint refresh during that sell. -/
theorem refresh_exact_selling : (RefreshOp.setAvailableTokenBalance "mint" 100).Exact
    sellingManager :=
  (refresh_exact_iff sellingManager_reachable _).1.mpr (.inl (by decide))

/-- **`update_balances` counts a held amount twice**: with 60 of 100 locked it reports all 100 as
    free. -/
theorem update_balances_overbooks :
    ¬ ∀ m : LockManager, m.Reachable → ∀ r : RefreshOp, r.Exact m := by
  intro h
  have hx := h sellingManager sellingManager_reachable
    (.updateBalances 0 (Finmap.singleton "mint" 100)) (.token "mint") 100 (by decide)
  exact absurd hx (by decide)

end IronCrab

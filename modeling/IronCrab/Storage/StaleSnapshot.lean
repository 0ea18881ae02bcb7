/-
  File:      IronCrab/Storage/StaleSnapshot.lean
  Subject:   SNAPSHOTS THAT PREDATE A CONFIRMED CLOSE, in every run after the close.

  A close of `mint` at slot `s` leaves the watermark `s`; a snapshot at a slot `t ≤ s` is STALE.
  The watermark does not survive the first snapshot that `Lifts` it -- one newer than `s`, or a
  slot-less one with a balance -- and from there on stale snapshots are taken at their word.

  * `watermark_along` -- what is left of the watermark after any operations;
  * `stale_dropped`, `stale_accepted` -- a stale snapshot under the watermark and without it;
  * **`stale_harmless_iff`** -- the stale snapshots of a run change nothing just when each of them
    comes before the first lift or reports what the manager holds anyway;
  * `stale_snapshot_resurrects` -- close at 200, empty snapshot at 201, snapshot at 150.
-/
import IronCrab.Storage.Refresh

namespace IronCrab

/-! ## 1. The watermark -/

namespace Op

/-- A wallet snapshot of `mint`. -/
def snapshot (mint : Mint) (amountRaw : UInt64) (snapshotSlot : Option UInt64) : Op :=
  .refresh (.applyWalletTokenSnapshot mint amountRaw snapshotSlot)

/-- Another full close of `mint`. -/
def Closes (mint : Mint) : Op → Prop
  | clearTokenWalletPresence k _ => k = mint
  | _ => False

/-- A snapshot of `mint` that ends the protection of a close at `closedSlot`: a newer one, or a
    slot-less one with a balance. -/
def Lifts (mint : Mint) (closedSlot : UInt64) : Op → Prop
  | refresh (.applyWalletTokenSnapshot k amount slot) =>
      k = mint ∧
        match slot with
        | some snapSlot => ¬ snapSlot ≤ closedSlot
        | none => amount ≠ 0
  | _ => False

instance (mint : Mint) (closedSlot : UInt64) (op : Op) : Decidable (op.Lifts mint closedSlot) := by
  unfold Lifts
  split
  · split <;> infer_instance
  · infer_instance

end Op

namespace LockManager

/-- What the manager says about `mint`: its ATA presence mark and its entry in
    `available_tokens`. -/
def walletView (m : LockManager) (mint : Mint) : Prop × Option UInt64 :=
  (mint ∈ m.tokenWalletAtaPresent, m.availableTokens.lookup mint)

/-- A snapshot of `amount` reports what the manager holds: the mark is there and the entry is the
    one the snapshot would write. -/
def Holds (m : LockManager) (mint : Mint) (amount : UInt64) : Prop :=
  mint ∈ m.tokenWalletAtaPresent ∧
    m.availableTokens.lookup mint = some (Word.satSub amount (m.sumLockedForMint mint))

theorem clearedAtSlot_tryLockResource (m : LockManager) (holder : LockHolder) (r : ResourceId)
    (ty : ResourceType) (ttl : Option Duration) (now nowStarved nowRecord createdAt : Instant) :
    (m.tryLockResourceWithTtl holder r ty ttl now nowStarved nowRecord
      createdAt).2.tokenWalletAtaClearedAtSlot = m.tokenWalletAtaClearedAtSlot := by
  rw [← m.clearedAtSlot_cleanupExpired now]
  unfold tryLockResourceWithTtl acquireResource
  cases (m.cleanupExpired now).resourceLocks.lookup r with
  | none => rfl
  | some existing =>
      dsimp only
      split
      · rfl
      · split
        · split <;> rfl
        · rfl

end LockManager

open LockManager

/-- No operation on locks moves a close slot. -/
theorem clearedAtSlot_lock (m : LockManager) (o : LockOp) :
    (o.apply m).tokenWalletAtaClearedAtSlot = m.tokenWalletAtaClearedAtSlot := by
  cases o with
  | tryLockCapital holder sol tokens now createdAt =>
      exact (capitalOnly_acquireCapital _ _ _ _ _ _ _).tokenWalletAtaClearedAtSlot.trans
        (m.clearedAtSlot_cleanupExpired now)
  | tryLockCapitalWithTtl holder sol tokens ttl now createdAt =>
      exact (capitalOnly_acquireCapital _ _ _ _ _ _ _).tokenWalletAtaClearedAtSlot.trans
        (m.clearedAtSlot_cleanupExpired now)
  | releaseLocks id => exact (m.capitalOnly_release id true).tokenWalletAtaClearedAtSlot
  | releaseLocksAfterConfirmedSell id =>
      exact (m.capitalOnly_release id false).tokenWalletAtaClearedAtSlot
  | cleanupExpired now => exact m.clearedAtSlot_cleanupExpired now
  | renewCapitalLockTtl id ttl now =>
      exact (m.capitalOnly_renew id ttl now).tokenWalletAtaClearedAtSlot
  | promoteCapitalLockToInFlight id =>
      have hp := (m.capitalOnly_promote id).tokenWalletAtaClearedAtSlot
      show (m.promoteCapitalLockToInFlight id).2.tokenWalletAtaClearedAtSlot = _
      unfold promoteCapitalLockToInFlight
      revert hp
      rcases m.promoteCapital id with ⟨b, m'⟩
      intro hp
      cases b <;> exact hp

/-- A snapshot of another mint leaves the close slot of `mint`. -/
theorem clearedAtSlot_snapshot_ne (m : LockManager) {mint k : Mint} (h : mint ≠ k)
    (amount : UInt64) (slot : Option UInt64) :
    (m.applyWalletTokenSnapshot k amount slot).tokenWalletAtaClearedAtSlot.lookup mint =
      m.tokenWalletAtaClearedAtSlot.lookup mint := by
  rcases RefreshOp.snapshot_cases m k amount slot with ⟨_, heq⟩ | ⟨_, heq | heq⟩ <;> rw [heq]
  · exact Finmap.lookup_erase_ne h
  · rfl

/-- A snapshot under the watermark: it goes just when the snapshot lifts it. -/
theorem clearedAtSlot_snapshot {m : LockManager} {mint : Mint} {closedSlot : UInt64}
    (h : m.tokenWalletAtaClearedAtSlot.lookup mint = some (some closedSlot)) (amount : UInt64)
    (slot : Option UInt64) :
    (m.applyWalletTokenSnapshot mint amount slot).tokenWalletAtaClearedAtSlot.lookup mint =
      if (Op.snapshot mint amount slot).Lifts mint closedSlot then none
      else some (some closedSlot) := by
  unfold LockManager.applyWalletTokenSnapshot walletTokenSnapshotStaleAfterClose
  rw [h]
  cases slot with
  | none =>
      by_cases h0 : amount = 0
      · have hl : ¬ (Op.snapshot mint amount none).Lifts mint closedSlot := fun hl => hl.2 h0
        rw [if_neg hl]
        simp only [if_pos h0]
        exact h
      · have hl : (Op.snapshot mint amount none).Lifts mint closedSlot := ⟨rfl, h0⟩
        rw [if_pos hl]
        simp only [if_neg h0]
        exact Finmap.lookup_erase _ _
  | some snap =>
      by_cases hs : snap ≤ closedSlot
      · have hl : ¬ (Op.snapshot mint amount (some snap)).Lifts mint closedSlot :=
          fun hl => hl.2 hs
        rw [if_neg hl]
        simp only [decide_eq_true hs]
        exact h
      · have hl : (Op.snapshot mint amount (some snap)).Lifts mint closedSlot := ⟨rfl, hs⟩
        rw [if_pos hl]
        simp only [decide_eq_false hs]
        exact Finmap.lookup_erase _ _

/-- **One operation and the watermark**: only a lift takes it away. -/
theorem clearedAtSlot_apply {m : LockManager} {mint : Mint} {closedSlot : UInt64}
    (h : m.tokenWalletAtaClearedAtSlot.lookup mint = some (some closedSlot)) {op : Op}
    (hno : ¬ op.Closes mint) :
    (op.apply m).tokenWalletAtaClearedAtSlot.lookup mint =
      if op.Lifts mint closedSlot then none else some (some closedSlot) := by
  cases op with
  | lock o =>
      show (o.apply m).tokenWalletAtaClearedAtSlot.lookup mint = _
      rw [clearedAtSlot_lock, h]
      rfl
  | refresh r =>
      cases r with
      | applyWalletTokenSnapshot k amount slot =>
          by_cases hk : mint = k
          · subst hk
            exact clearedAtSlot_snapshot h amount slot
          · rw [if_neg fun hl => hk hl.1.symm, ← h]
            exact clearedAtSlot_snapshot_ne m hk amount slot
      | updateWalletBalances sol wsol => cases wsol <;> exact h
      | _ => exact h
  | clearTokenWalletPresence k slot =>
      show (m.tokenWalletAtaClearedAtSlot.insert k slot).lookup mint = _
      rw [Finmap.lookup_insert_of_ne _ (fun he => hno he.symm), h]
      rfl
  | tryLockResourceWithTtl holder rid ty ttl now nowStarved nowRecord createdAt =>
      show (m.tryLockResourceWithTtl ..).2.tokenWalletAtaClearedAtSlot.lookup mint = _
      rw [clearedAtSlot_tryLockResource, h]
      rfl
  | _ => exact h

/-- Without a watermark, only a close brings one. -/
theorem clearedAtSlot_apply_none {m : LockManager} {mint : Mint}
    (h : m.tokenWalletAtaClearedAtSlot.lookup mint = none) {op : Op} (hno : ¬ op.Closes mint) :
    (op.apply m).tokenWalletAtaClearedAtSlot.lookup mint = none := by
  cases op with
  | lock o =>
      show (o.apply m).tokenWalletAtaClearedAtSlot.lookup mint = _
      rw [clearedAtSlot_lock, h]
  | refresh r =>
      cases r with
      | applyWalletTokenSnapshot k amount slot =>
          show (m.applyWalletTokenSnapshot k amount slot).tokenWalletAtaClearedAtSlot.lookup
            mint = none
          by_cases hk : mint = k
          · subst hk
            unfold LockManager.applyWalletTokenSnapshot walletTokenSnapshotStaleAfterClose
            rw [h]
            exact Finmap.lookup_erase _ _
          · rw [clearedAtSlot_snapshot_ne m hk amount slot, h]
      | updateWalletBalances sol wsol => cases wsol <;> exact h
      | _ => exact h
  | clearTokenWalletPresence k slot =>
      show (m.tokenWalletAtaClearedAtSlot.insert k slot).lookup mint = _
      rw [Finmap.lookup_insert_of_ne _ (fun he => hno he.symm), h]
  | tryLockResourceWithTtl holder rid ty ttl now nowStarved nowRecord createdAt =>
      show (m.tryLockResourceWithTtl ..).2.tokenWalletAtaClearedAtSlot.lookup mint = _
      rw [clearedAtSlot_tryLockResource, h]
  | _ => exact h

/-- **The watermark after a run**: it is there until the first lift, and then gone. -/
theorem watermark_along {mint : Mint} {closedSlot : UInt64} {ops : List Op}
    (hno : ∀ op ∈ ops, ¬ op.Closes mint) {m : LockManager}
    (h : m.tokenWalletAtaClearedAtSlot.lookup mint = some (some closedSlot)) :
    (Machine.foldSteps Op.apply m ops).tokenWalletAtaClearedAtSlot.lookup mint =
      if ∃ op ∈ ops, op.Lifts mint closedSlot then none else some (some closedSlot) := by
  induction ops using List.reverseRecOn with
  | nil => simpa using h
  | append_singleton ops op ih =>
      have hprev := ih fun o ho => hno o (List.mem_append_left _ ho)
      have hop : ¬ op.Closes mint := hno op (by simp)
      rw [Machine.foldSteps_append]
      show (op.apply (Machine.foldSteps Op.apply m ops)).tokenWalletAtaClearedAtSlot.lookup
        mint = _
      by_cases hl : ∃ o ∈ ops, o.Lifts mint closedSlot
      · obtain ⟨o, ho, hlift⟩ := hl
        rw [if_pos ⟨o, ho, hlift⟩] at hprev
        rw [if_pos ⟨o, List.mem_append_left _ ho, hlift⟩]
        exact clearedAtSlot_apply_none hprev hop
      · rw [if_neg hl] at hprev
        rw [clearedAtSlot_apply hprev hop]
        refine if_congr ⟨fun hlift => ⟨op, by simp, hlift⟩, ?_⟩ rfl rfl
        rintro ⟨o, ho, hlift⟩
        rcases List.mem_append.mp ho with ho | ho
        · exact absurd ⟨o, ho, hlift⟩ hl
        · rw [List.mem_singleton.mp ho] at hlift
          exact hlift

/-! ## 2. Stale snapshots -/

/-- **Under the watermark a stale snapshot changes nothing at all.** -/
theorem stale_dropped {m : LockManager} {mint : Mint} {closedSlot t : UInt64}
    (h : m.tokenWalletAtaClearedAtSlot.lookup mint = some (some closedSlot)) (ht : t ≤ closedSlot)
    (amount : UInt64) : m.applyWalletTokenSnapshot mint amount (some t) = m := by
  unfold LockManager.applyWalletTokenSnapshot walletTokenSnapshotStaleAfterClose
  rw [h]
  simp only [decide_eq_true ht]

/-- **Without the watermark every snapshot is taken**: the mark is set and the entry written. -/
theorem stale_accepted {m : LockManager} {mint : Mint}
    (h : m.tokenWalletAtaClearedAtSlot.lookup mint = none) (amount : UInt64)
    (slot : Option UInt64) :
    (m.applyWalletTokenSnapshot mint amount slot).walletView mint =
      (True, some (Word.satSub amount (m.sumLockedForMint mint))) := by
  unfold LockManager.applyWalletTokenSnapshot walletTokenSnapshotStaleAfterClose
  rw [h]
  refine Prod.ext (eq_true ?_) (Finmap.lookup_insert _)
  exact Finset.mem_insert_self mint _

/-- Without the watermark a snapshot is harmless just when it reports what is held. -/
theorem accepted_harmless_iff {m : LockManager} {mint : Mint}
    (h : m.tokenWalletAtaClearedAtSlot.lookup mint = none) (amount : UInt64)
    (slot : Option UInt64) :
    (m.applyWalletTokenSnapshot mint amount slot).walletView mint = m.walletView mint ↔
      m.Holds mint amount := by
  rw [stale_accepted h]
  constructor
  · intro heq
    exact ⟨of_eq_true (congrArg Prod.fst heq).symm, (congrArg Prod.snd heq).symm⟩
  · intro hh
    exact Prod.ext (eq_true hh.1).symm hh.2.symm

/-- **Exactly when the snapshots that predate a close stay without effect.** After a close of
    `mint` at `closedSlot` and any further operations without another close of it, each snapshot
    of `mint` at a slot `t ≤ closedSlot` leaves the presence mark and the entry of `mint` as they
    are if and only if it arrives before the first snapshot that lifts the watermark, or reports
    what the manager holds at that moment. -/
theorem stale_harmless_iff (m : LockManager) (mint : Mint) (closedSlot : UInt64) (ops : List Op)
    (hno : ∀ op ∈ ops, ¬ op.Closes mint) :
    (∀ ops₁ ops₂ amount t, ops = ops₁ ++ Op.snapshot mint amount (some t) :: ops₂ →
        t ≤ closedSlot →
      let before := Machine.foldSteps Op.apply
        (m.clearTokenWalletPresence mint (some closedSlot)) ops₁
      ((Op.snapshot mint amount (some t)).apply before).walletView mint =
        before.walletView mint) ↔
    (∀ ops₁ ops₂ amount t, ops = ops₁ ++ Op.snapshot mint amount (some t) :: ops₂ →
        t ≤ closedSlot →
      (∀ op ∈ ops₁, ¬ op.Lifts mint closedSlot) ∨
        (Machine.foldSteps Op.apply
          (m.clearTokenWalletPresence mint (some closedSlot)) ops₁).Holds mint amount) := by
  have hmark : (m.clearTokenWalletPresence mint
      (some closedSlot)).tokenWalletAtaClearedAtSlot.lookup mint = some (some closedSlot) :=
    Finmap.lookup_insert _
  refine forall_congr' fun ops₁ => forall_congr' fun ops₂ => forall_congr' fun amount =>
    forall_congr' fun t => forall_congr' fun hops => forall_congr' fun ht => ?_
  have hno₁ : ∀ op ∈ ops₁, ¬ op.Closes mint := by
    intro op hop
    refine hno op ?_
    rw [hops]
    exact List.mem_append_left _ hop
  have hw := watermark_along hno₁ hmark
  by_cases hl : ∃ op ∈ ops₁, op.Lifts mint closedSlot
  · rw [if_pos hl] at hw
    refine (accepted_harmless_iff hw amount (some t)).trans ⟨.inr, ?_⟩
    rintro (hnone | hh)
    · obtain ⟨op, hop, hlift⟩ := hl
      exact absurd hlift (hnone op hop)
    · exact hh
  · rw [if_neg hl] at hw
    refine ⟨fun _ => .inl fun op hop hlift => hl ⟨op, hop, hlift⟩, fun _ => ?_⟩
    exact congrArg (fun m => m.walletView mint) (stale_dropped hw ht amount)

/-- `stale_harmless_iff` where a stale snapshot arrives before the newer one. -/
theorem stale_harmless_in_order :
    (LockManager.applyWalletTokenSnapshot ((LockManager.new 0).clearTokenWalletPresence "mint"
      (some 200)) "mint" 1000 (some 150)).walletView "mint" =
    ((LockManager.new 0).clearTokenWalletPresence "mint" (some 200)).walletView "mint" := by
  refine (stale_harmless_iff (.new 0) "mint" 200
    [.snapshot "mint" 1000 (some 150), .snapshot "mint" 500 (some 201)]
    (by simp [Op.Closes, Op.snapshot])).mpr ?_ [] _ 1000 150 rfl (by decide)
  intro ops₁ ops₂ amount t hops ht
  refine .inl ?_
  cases ops₁ with
  | nil => simp
  | cons op ops₁ =>
      -- the second snapshot is newer than the close
      exfalso
      obtain ⟨_, hrest⟩ := List.cons.inj hops
      cases ops₁ with
      | nil =>
          cases (List.cons.inj hrest).1
          exact absurd ht (by decide)
      | cons op ops₁ => simp at hrest

/-- **A snapshot from before the close brings the position back**: after a close at slot 200 and
    a snapshot of zero at slot 201, a snapshot of 1000 at slot 150 is taken. -/
theorem stale_snapshot_resurrects :
    ¬ ∀ (m : LockManager) (mint : Mint) (closedSlot : UInt64) (ops : List Op),
      (∀ op ∈ ops, ¬ op.Closes mint) →
      ∀ ops₁ ops₂ amount t, ops = ops₁ ++ Op.snapshot mint amount (some t) :: ops₂ →
        t ≤ closedSlot →
      let before := Machine.foldSteps Op.apply
        (m.clearTokenWalletPresence mint (some closedSlot)) ops₁
      ((Op.snapshot mint amount (some t)).apply before).walletView mint =
        before.walletView mint := by
  intro h
  have hx := congrArg Prod.snd (h (.new 0) "mint" 200
    [.snapshot "mint" 0 (some 201), .snapshot "mint" 1000 (some 150)]
    (by simp [Op.Closes, Op.snapshot]) [.snapshot "mint" 0 (some 201)] [] 1000 150 rfl
    (by decide))
  exact absurd hx (by decide)

end IronCrab

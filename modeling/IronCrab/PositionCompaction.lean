/-
  File:      IronCrab/PositionCompaction.lean
  Subject:   WALLET BATCHES WITH AND WITHOUT COMPACTION (src/bin/position_manager.rs,
             `run_wallet_snapshot_consumer_task`): a batch is applied without the balance
             snapshots that are not the last of their mint.

  A mint sees of a batch its snapshots and the complete lists that do not name it (`RowEvent`).
  The last snapshot sets the balance, but the row's status and its grace period come from what
  stood there before it:

  * `compact_eq`, `filterMap_compact` -- the index map of the source keeps the last snapshot of
    each mint, and everything else;
  * `view_last` -- what a row shows after its last snapshot and the lists behind it;
  * `balance_before`, `graced_applyAll` -- what the skipped snapshots would have left;
  * **`compaction_invisible_iff`** -- when the two ways of applying a batch agree;
  * `confirmed_twice_differs` -- two equal snapshots of an unknown mint.
-/
import IronCrab.PositionAuthority

namespace IronCrab

namespace PositionAuthority

/-! ## 1. The batch -/

/-- `last_index_by_mint`: the last snapshot of each mint. -/
def lastIndexByMint (batch : List PositionEvent) : Finmap fun _ : Mint => Nat :=
  batch.zipIdx.foldl (fun m e => match e.1 with
    | .walletBalanceSnapshot mint _ => m.insert mint e.2
    | _ => m) ∅

/-- The flag `apply` of an event of the batch. -/
def applies (last : Finmap fun _ : Mint => Nat) (e : PositionEvent × Nat) : Bool :=
  match e.1 with
  | .walletBalanceSnapshot mint _ => decide (last.lookup mint = some e.2)
  | _ => true

/-- The events of the batch that are applied. -/
def compact (batch : List PositionEvent) : List PositionEvent :=
  (batch.zipIdx.filter (applies (lastIndexByMint batch))).map Prod.fst

/-- Applying events one after another, at one clock reading. -/
def applyAll (pa : PositionAuthority) (events : List PositionEvent) (nowSecs : Nat) :
    PositionAuthority :=
  events.foldl (fun pa e => pa.applyFromWalletMarketEventKind e nowSecs) pa

/-- The batch as the consumer task applies it. -/
def applyBatch (pa : PositionAuthority) (batch : List PositionEvent) (nowSecs : Nat) :
    PositionAuthority :=
  pa.applyAll (compact batch) nowSecs

/-- What is compared: whether the mint is tracked, its balance and its status. -/
def view (pa : PositionAuthority) (mint : Mint) : Option (UInt64 × PositionStatus) :=
  (pa.byMint.lookup mint).map fun p => (p.balanceRaw, p.status)

/-! ## 2. The last snapshot of each mint -/

/-- The event is a balance snapshot of the mint. -/
def snaps (mint : Mint) : PositionEvent → Bool
  | .walletBalanceSnapshot mint' _ => decide (mint' = mint)
  | _ => false

/-- The index of the mint's last snapshot, counted from `n`. -/
def lastIndex (mint : Mint) : List PositionEvent → Nat → Option Nat
  | [], _ => none
  | e :: rest, n => (lastIndex mint rest (n + 1)).or (if snaps mint e then some n else none)

/-- The batch without the snapshots behind which another of their mint stands. -/
def keepLast : List PositionEvent → List PositionEvent
  | [] => []
  | e :: rest => match e with
    | .walletBalanceSnapshot mint b =>
        if rest.any (snaps mint) then keepLast rest
        else .walletBalanceSnapshot mint b :: keepLast rest
    | e => e :: keepLast rest

theorem keepLast_snapshot (mint : Mint) (b : UInt64) (rest : List PositionEvent) :
    keepLast (.walletBalanceSnapshot mint b :: rest) =
      if rest.any (snaps mint) then keepLast rest
      else .walletBalanceSnapshot mint b :: keepLast rest := rfl

theorem lastIndex_cons (mint : Mint) (e : PositionEvent) (rest : List PositionEvent) (n : Nat) :
    lastIndex mint (e :: rest) n =
      (lastIndex mint rest (n + 1)).or (if snaps mint e then some n else none) := rfl

theorem isSome_lastIndex (mint : Mint) (l : List PositionEvent) (n : Nat) :
    (lastIndex mint l n).isSome = l.any (snaps mint) := by
  induction l generalizing n with
  | nil => rfl
  | cons e rest ih =>
      rw [lastIndex_cons, Option.isSome_or, ih, List.any_cons, Bool.or_comm]
      cases snaps mint e <;> rfl

theorem le_lastIndex {mint : Mint} {l : List PositionEvent} {n i : Nat}
    (h : lastIndex mint l n = some i) : n ≤ i := by
  induction l generalizing n with
  | nil => cases h
  | cons e rest ih =>
      rw [lastIndex_cons] at h
      cases hr : lastIndex mint rest (n + 1) with
      | some j =>
          rw [hr] at h
          cases h
          have := ih hr
          omega
      | none =>
          rw [hr, Option.none_or] at h
          split at h
          · cases h
            exact Nat.le_refl _
          · cases h

/-- The map that the scan builds, from any map. -/
theorem lookup_scan (mint : Mint) (l : List PositionEvent) (n : Nat)
    (m : Finmap fun _ : Mint => Nat) :
    ((l.zipIdx n).foldl (fun m e => match e.1 with
      | .walletBalanceSnapshot mint _ => m.insert mint e.2
      | _ => m) m).lookup mint = (lastIndex mint l n).or (m.lookup mint) := by
  induction l generalizing n m with
  | nil => rfl
  | cons e rest ih =>
      rw [List.zipIdx_cons, List.foldl_cons, ih, lastIndex_cons, Option.or_assoc]
      congr 1
      cases e with
      | walletBalanceSnapshot mint' b =>
          by_cases hm : mint' = mint
          · subst hm
            simp [snaps]
          · have hs : snaps mint (.walletBalanceSnapshot mint' b) = false := decide_eq_false hm
            rw [hs]
            exact Finmap.lookup_insert_of_ne _ (Ne.symm hm)
      | _ => rfl

theorem lookup_lastIndexByMint (batch : List PositionEvent) (mint : Mint) :
    (lastIndexByMint batch).lookup mint = lastIndex mint batch 0 := by
  unfold lastIndexByMint
  rw [lookup_scan]
  exact Option.or_none

/-- A map that knows the last snapshots of what is left of the batch keeps those. -/
theorem filter_applies (l : List PositionEvent) (n : Nat) (last : Finmap fun _ : Mint => Nat)
    (h : ∀ mint, l.any (snaps mint) = true → last.lookup mint = lastIndex mint l n) :
    ((l.zipIdx n).filter (applies last)).map Prod.fst = keepLast l := by
  induction l generalizing n with
  | nil => rfl
  | cons e rest ih =>
      have hrest : ∀ mint, rest.any (snaps mint) = true →
          last.lookup mint = lastIndex mint rest (n + 1) := by
        intro mint hin
        rw [h mint (by rw [List.any_cons, hin, Bool.or_true])]
        obtain ⟨i, hi⟩ := Option.isSome_iff_exists.mp
          ((isSome_lastIndex mint rest (n + 1)).trans hin)
        rw [lastIndex_cons, hi]
        rfl
      rw [List.zipIdx_cons, List.filter_cons]
      cases e with
      | walletBalanceSnapshot mint b =>
          have hself : snaps mint (.walletBalanceSnapshot mint b) = true := decide_eq_true rfl
          have hlast := h mint (by rw [List.any_cons, hself, Bool.true_or])
          rw [lastIndex_cons, hself, if_pos rfl] at hlast
          rw [keepLast_snapshot]
          cases hin : rest.any (snaps mint) with
          | true =>
              obtain ⟨i, hi⟩ := Option.isSome_iff_exists.mp
                ((isSome_lastIndex mint rest (n + 1)).trans hin)
              have hle := le_lastIndex hi
              rw [hi] at hlast
              have hskip : applies last (.walletBalanceSnapshot mint b, n) = false := by
                refine decide_eq_false ?_
                rw [hlast]
                intro he
                have := Option.some.inj he
                omega
              rw [hskip, if_pos rfl, if_neg Bool.false_ne_true]
              exact ih (n + 1) hrest
          | false =>
              have hnone : lastIndex mint rest (n + 1) = none := by
                rw [← Option.not_isSome_iff_eq_none, isSome_lastIndex, hin]
                exact Bool.false_ne_true
              rw [hnone] at hlast
              have hkeep : applies last (.walletBalanceSnapshot mint b, n) = true :=
                decide_eq_true hlast
              rw [hkeep, if_neg Bool.false_ne_true, if_pos rfl, List.map_cons, ih (n + 1) hrest]
      | _ => exact congrArg _ (ih (n + 1) hrest)

/-- **The index map keeps the last snapshot of each mint, and everything else.** -/
theorem compact_eq (batch : List PositionEvent) : compact batch = keepLast batch :=
  filter_applies batch 0 _ fun mint _ => lookup_lastIndexByMint batch mint

end PositionAuthority

/-! ## 3. The row of one mint -/

/-- What a mint sees of the wallet's events: a snapshot of it, or a complete list that does not
    name it. -/
inductive RowEvent where
  | snapshot (balanceRaw : UInt64)
  | unlisted
  deriving DecidableEq

namespace RowEvent

open PositionAuthority

/-- What the mint sees of an event; SOL and WSOL see nothing. -/
def of (mint : Mint) : PositionEvent → Option RowEvent
  | .walletBalanceSnapshot mint' b =>
      if mint' = mint ∧ isSolOrWsolMint mint = false then some (snapshot b) else none
  | .walletSnapshotComplete mints =>
      if isSolOrWsolMint mint = false ∧ mint ∉ mints then some unlisted else none
  | _ => none

/-- `p` is removed by a complete list that does not name it. -/
def swept (nowSecs : Nat) (p : PositionState) : Bool :=
  decide (0 < p.balanceRaw) && ghostEligibleAfterSnapshotComplete p nowSecs

/-- The row after the event. -/
def applyTo (nowSecs : Nat) (row : Option PositionState) : RowEvent → Option PositionState
  | snapshot b =>
      if b = 0 then none
      else match row with
        | some e =>
            if e.balanceRaw = b then
              some { e with lastUpdateSource := .walletSnapshot, status := .open }
            else some { e with
              lastUpdateSource := .walletSnapshot, balanceRaw := b, status := .reconcileNeeded }
        | none => some ⟨b, [], 0, .reconcileNeeded, .walletSnapshot, none⟩
  | unlisted => row.filter fun p => !swept nowSecs p

theorem applyTo_unlisted (now : Nat) (row : Option PositionState) :
    applyTo now row unlisted = row.filter fun p => !swept now p := rfl

/-- The row after a list of events. -/
def applyAll (nowSecs : Nat) (row : Option PositionState) (evs : List RowEvent) :
    Option PositionState :=
  evs.foldl (applyTo nowSecs) row

@[simp] theorem applyAll_append (now : Nat) (row : Option PositionState)
    (evs evs' : List RowEvent) :
    applyAll now row (evs ++ evs') = applyAll now (applyAll now row evs) evs' :=
  List.foldl_append

@[simp] theorem applyAll_cons (now : Nat) (row : Option PositionState) (e : RowEvent)
    (evs : List RowEvent) : applyAll now row (e :: evs) = applyAll now (applyTo now row e) evs :=
  rfl

@[simp] theorem applyAll_nil (now : Nat) (row : Option PositionState) :
    applyAll now row [] = row := rfl

end RowEvent

namespace PositionAuthority

open RowEvent

theorem lookup_applyWalletSnapshot (pa : PositionAuthority) (mint : Mint) (b : UInt64)
    (now : Nat) : (pa.applyWalletSnapshot mint b).byMint.lookup mint =
      (snapshot b).applyTo now (pa.byMint.lookup mint) := by
  unfold applyWalletSnapshot applyTo
  dsimp only
  by_cases h0 : b = 0
  · rw [if_pos h0, if_pos h0]
    exact AList.lookup_erase mint pa.byMint
  · rw [if_neg h0, if_neg h0]
    cases hl : pa.byMint.lookup mint with
    | none => exact AList.lookup_insert pa.byMint
    | some e =>
        dsimp only
        split <;> exact AList.lookup_insert pa.byMint

theorem lookup_applyWalletSnapshot_ne (pa : PositionAuthority) {mint mint' : Mint}
    (h : mint' ≠ mint) (b : UInt64) :
    (pa.applyWalletSnapshot mint' b).byMint.lookup mint = pa.byMint.lookup mint := by
  unfold applyWalletSnapshot
  split
  · exact AList.lookup_erase_ne h.symm
  · cases pa.byMint.lookup mint' with
    | none => exact AList.lookup_insert_ne h.symm
    | some e =>
        dsimp only
        split <;> exact AList.lookup_insert_ne h.symm

theorem lookup_applyWalletSnapshotComplete (pa : PositionAuthority) (mints : List Mint)
    (now : Nat) (mint : Mint) :
    (pa.applyWalletSnapshotComplete mints now).byMint.lookup mint =
      if isSolOrWsolMint mint = false ∧ mint ∉ mints then
        unlisted.applyTo now (pa.byMint.lookup mint)
      else pa.byMint.lookup mint := by
  have hghost : mint ∈ (pa.byMint.entries.filter fun e =>
      decide (0 < e.2.balanceRaw) && !isSolOrWsolMint e.1 && !mints.contains e.1 &&
        ghostEligibleAfterSnapshotComplete e.2 now).map Sigma.fst ↔
      (isSolOrWsolMint mint = false ∧ mint ∉ mints) ∧
        ∃ p, pa.byMint.lookup mint = some p ∧ swept now p = true := by
    rw [AList.mem_map_fst_filter]
    unfold swept
    simp only [Bool.and_eq_true, Bool.not_eq_true', List.contains_eq_mem, decide_eq_false_iff_not]
    constructor
    · rintro ⟨p, hl, ⟨⟨hpos, hsol⟩, hlist⟩, hold⟩
      exact ⟨⟨hsol, hlist⟩, p, hl, hpos, hold⟩
    · rintro ⟨⟨hsol, hlist⟩, p, hl, hpos, hold⟩
      exact ⟨p, hl, ⟨⟨hpos, hsol⟩, hlist⟩, hold⟩
  unfold applyWalletSnapshotComplete
  dsimp only
  rw [AList.lookup_eraseAll]
  by_cases hout : isSolOrWsolMint mint = false ∧ mint ∉ mints
  · rw [if_pos hout]
    cases hl : pa.byMint.lookup mint with
    | none => simp [applyTo]
    | some p =>
        unfold applyTo
        rw [Option.filter_some]
        cases hs : swept now p with
        | true =>
            rw [if_pos (hghost.mpr ⟨hout, p, hl, hs⟩)]
            rfl
        | false =>
            rw [if_neg]
            · rfl
            · intro hg
              obtain ⟨_, q, hq, hsq⟩ := hghost.mp hg
              rw [hl] at hq
              cases hq
              rw [hs] at hsq
              cases hsq
  · rw [if_neg hout, if_neg fun hg => hout (hghost.mp hg).1]

/-- One event and the row of one mint. -/
theorem lookup_applyKind (pa : PositionAuthority) (e : PositionEvent) (now : Nat) (mint : Mint) :
    (pa.applyFromWalletMarketEventKind e now).byMint.lookup mint =
      RowEvent.applyAll now (pa.byMint.lookup mint) (RowEvent.of mint e).toList := by
  cases e with
  | walletBalanceSnapshot mint' b =>
      unfold applyFromWalletMarketEventKind RowEvent.of
      dsimp only
      by_cases hm : mint' = mint
      · subst hm
        cases hs : isSolOrWsolMint mint' with
        | true => simp
        | false =>
            rw [if_neg Bool.false_ne_true, if_pos ⟨rfl, rfl⟩]
            exact pa.lookup_applyWalletSnapshot mint' b now
      · have hnot : ¬ (mint' = mint ∧ isSolOrWsolMint mint = false) := fun h => hm h.1
        rw [if_neg hnot]
        cases isSolOrWsolMint mint' with
        | true => rfl
        | false => exact pa.lookup_applyWalletSnapshot_ne hm b
  | walletSnapshotComplete mints =>
      show (pa.applyWalletSnapshotComplete mints now).byMint.lookup mint = _
      rw [lookup_applyWalletSnapshotComplete]
      unfold RowEvent.of
      dsimp only
      split <;> rfl
  | _ => rfl

/-- **The row of a mint after any list of events.** -/
theorem lookup_applyAll (pa : PositionAuthority) (events : List PositionEvent) (now : Nat)
    (mint : Mint) : (pa.applyAll events now).byMint.lookup mint =
      RowEvent.applyAll now (pa.byMint.lookup mint) (events.filterMap (RowEvent.of mint)) := by
  induction events generalizing pa with
  | nil => rfl
  | cons e rest ih =>
      show ((pa.applyFromWalletMarketEventKind e now).applyAll rest now).byMint.lookup mint = _
      rw [ih, lookup_applyKind, List.filterMap_cons]
      cases RowEvent.of mint e <;> rfl

end PositionAuthority

/-! ## 4. What the skipped snapshots would have left -/

namespace RowEvent

open PositionAuthority

/-- The row stands, and its last execution is within the grace period. -/
def Graced (nowSecs : Nat) (row : Option PositionState) : Prop :=
  ∃ p, row = some p ∧ ghostEligibleAfterSnapshotComplete p nowSecs = false

instance (now : Nat) (row : Option PositionState) : Decidable (Graced now row) :=
  match row with
  | none => .isFalse fun ⟨_, h, _⟩ => nomatch h
  | some p =>
      if h : ghostEligibleAfterSnapshotComplete p now = false then .isTrue ⟨p, rfl, h⟩
      else .isFalse fun ⟨_, hp, hg⟩ => h (by cases hp; exact hg)

/-- The balance of a row. -/
def balance (row : Option PositionState) : Option UInt64 := row.map (·.balanceRaw)

/-- What a row shows. -/
def view (row : Option PositionState) : Option (UInt64 × PositionStatus) :=
  row.map fun p => (p.balanceRaw, p.status)

/-- Nothing but lists that do not name the mint. -/
def Quiet (evs : List RowEvent) : Prop := ∀ e ∈ evs, e = unlisted

variable {now : Nat} {row : Option PositionState} {evs before between after : List RowEvent}
  {p b : UInt64}

/-- An execution keeps the row in grace until an empty snapshot removes it. -/
theorem graced_applyTo (e : RowEvent) :
    Graced now (applyTo now row e) ↔ Graced now row ∧ e ≠ snapshot 0 := by
  unfold Graced
  cases e with
  | snapshot b =>
      by_cases h0 : b = 0
      · simp [applyTo, h0]
      · cases row with
        | none => simp [applyTo, h0, ghostEligibleAfterSnapshotComplete]
        | some q =>
            unfold applyTo
            dsimp only
            rw [if_neg h0]
            by_cases hq : q.balanceRaw = b <;>
              simp [hq, h0, ghostEligibleAfterSnapshotComplete]
  | unlisted =>
      cases row with
      | none => simp [applyTo]
      | some q =>
          unfold applyTo swept
          rw [Option.filter_some]
          cases hg : ghostEligibleAfterSnapshotComplete q now <;>
            cases hb : decide (0 < q.balanceRaw) <;> simp [hg]

theorem graced_applyAll : Graced now (applyAll now row evs) ↔
    Graced now row ∧ snapshot 0 ∉ evs := by
  induction evs generalizing row with
  | nil => simp
  | cons e rest ih =>
      rw [applyAll_cons, ih, graced_applyTo, List.mem_cons, not_or, and_assoc]
      exact and_congr_right fun _ => and_congr_left fun _ => ne_comm

/-- Quiet events do what one of them does. -/
theorem applyAll_quiet (h : Quiet evs) :
    applyAll now row evs = if unlisted ∈ evs then applyTo now row unlisted else row := by
  induction evs generalizing row with
  | nil => rfl
  | cons e rest ih =>
      have he := h e List.mem_cons_self
      subst he
      rw [applyAll_cons, ih fun e he => h e (List.mem_cons_of_mem _ he),
        if_pos List.mem_cons_self]
      split
      · rw [applyTo_unlisted, applyTo_unlisted, Option.filter_filter]
        congr 1
        funext q
        exact Bool.and_self _
      · rfl

/-- A row with a balance outlives quiet events when it is in grace. -/
theorem unlisted_kept {q : PositionState} (hq : q.balanceRaw ≠ 0) :
    applyTo now (some q) unlisted =
      if ghostEligibleAfterSnapshotComplete q now = false then some q else none := by
  have hpos : 0 < q.balanceRaw := UInt64.pos_iff_ne_zero.mpr hq
  rw [applyTo_unlisted]
  unfold swept
  rw [Option.filter_some, decide_eq_true hpos, Bool.true_and]
  cases ghostEligibleAfterSnapshotComplete q now <;> rfl

theorem graced_some {q : PositionState} :
    Graced now (some q) ↔ ghostEligibleAfterSnapshotComplete q now = false := by
  simp [Graced]

/-- **A balance before the last snapshot**, after quiet events only. -/
theorem balance_quiet (now : Nat) (row : Option PositionState) (h : Quiet evs) (hb : b ≠ 0) :
    balance (applyAll now row evs) = some b ↔
      balance row = some b ∧ (unlisted ∈ evs → Graced now row) := by
  rw [applyAll_quiet h]
  by_cases hin : unlisted ∈ evs
  · rw [if_pos hin]
    cases row with
    | none => simp [applyTo, balance]
    | some q =>
        by_cases hq : q.balanceRaw = b
        · rw [unlisted_kept (by rw [hq]; exact hb), graced_some]
          split
          · next hg => simp [hg]
          · next hg => simp [balance, hg, hin]
        · have hno : balance (some q) ≠ some b := fun h => hq (Option.some.inj h)
          refine iff_of_false (fun hbal => ?_) fun h => hno h.1
          have hrow : applyTo now (some q) unlisted = some q ∨
              applyTo now (some q) unlisted = none := by
            rw [applyTo_unlisted, Option.filter_some]
            cases swept now q with
            | true => exact .inr rfl
            | false => exact .inl rfl
          rcases hrow with hrow | hrow
          · rw [hrow] at hbal
            exact hno hbal
          · rw [hrow] at hbal
            cases hbal
  · rw [if_neg hin]
    simp [hin]

/-- What the row shows after a snapshot with a balance. -/
theorem applyTo_snapshot (now : Nat) (row : Option PositionState) (hb : b ≠ 0) : ∃ q, applyTo now row (snapshot b) = some q ∧
    q.balanceRaw = b ∧
    q.status = (if balance row = some b then .open else .reconcileNeeded) := by
  unfold applyTo balance
  dsimp only
  rw [if_neg hb]
  cases row with
  | none => exact ⟨_, rfl, rfl, rfl⟩
  | some e =>
      dsimp only
      by_cases he : e.balanceRaw = b
      · rw [if_pos he, if_pos (by rw [Option.map_some, he])]
        exact ⟨_, rfl, he, rfl⟩
      · rw [if_neg he, Option.map_some, if_neg fun h => he (Option.some.inj h)]
        exact ⟨_, rfl, rfl, rfl⟩

/-- **A balance before the last snapshot**, after another one and quiet events. -/
theorem balance_before (h : Quiet between) (hb : b ≠ 0) :
    balance (applyAll now row (snapshot p :: between)) = some b ↔
      p = b ∧ (unlisted ∈ between → Graced now row) := by
  rw [applyAll_cons, balance_quiet now _ h hb, graced_applyTo]
  by_cases h0 : p = 0
  · subst h0
    simp [applyTo, balance, Ne.symm hb]
  · obtain ⟨q, hq, hbal, _⟩ := applyTo_snapshot now row h0
    rw [hq]
    simp [balance, hbal, h0]

/-- **What the row shows after its last snapshot.** -/
theorem view_last (h : Quiet after) (hb : b ≠ 0) :
    view (applyAll now row (snapshot b :: after)) =
      if unlisted ∈ after → Graced now row then
        some (b, if balance row = some b then .open else .reconcileNeeded)
      else none := by
  obtain ⟨q, hq, hbal, hstatus⟩ := applyTo_snapshot now row hb
  have hgraced : Graced now (some q) ↔ Graced now row := by
    rw [← hq, graced_applyTo]
    simp [hb]
  rw [applyAll_cons, hq, applyAll_quiet h]
  by_cases hin : unlisted ∈ after
  · rw [if_pos hin, unlisted_kept (by rw [hbal]; exact hb)]
    by_cases hg : Graced now row
    · rw [if_pos (graced_some.mp (hgraced.mpr hg)), if_pos fun _ => hg]
      simp [view, hbal, hstatus]
    · rw [if_neg fun hq => hg (hgraced.mp (graced_some.mpr hq)), if_neg fun h => hg (h hin)]
      rfl
  · rw [if_neg hin, if_pos fun h => absurd h hin]
    simp [view, hbal, hstatus]

/-! ## 5. Compaction, row by row -/

/-- A snapshot of the mint. -/
def isSnapshot : RowEvent → Bool
  | snapshot _ => true
  | unlisted => false

/-- The events of a row without the snapshots behind which another one stands. -/
def keepLast : List RowEvent → List RowEvent
  | [] => []
  | e :: rest => if isSnapshot e && rest.any isSnapshot then keepLast rest else e :: keepLast rest

theorem any_isSnapshot_eq_false : evs.any isSnapshot = false ↔ Quiet evs := by
  rw [List.any_eq_false]
  refine forall₂_congr fun e _ => ?_
  cases e <;> simp [isSnapshot]

/-- Without snapshots nothing is skipped. -/
theorem keepLast_quiet (h : Quiet evs) : keepLast evs = evs := by
  induction evs with
  | nil => rfl
  | cons e rest ih =>
      have he := h e List.mem_cons_self
      subst he
      show unlisted :: keepLast rest = _
      rw [ih fun e he => h e (List.mem_cons_of_mem _ he)]

/-- Before the last snapshot only the lists are kept. -/
theorem keepLast_append (h : Quiet after) : keepLast (before ++ snapshot b :: after) =
    before.filter (fun e => !isSnapshot e) ++ snapshot b :: after := by
  induction before with
  | nil =>
      show (if true && after.any isSnapshot then _ else snapshot b :: keepLast after) = _
      rw [any_isSnapshot_eq_false.mpr h, keepLast_quiet h]
      rfl
  | cons e rest ih =>
      have hany : (rest ++ snapshot b :: after).any isSnapshot = true := by
        rw [List.any_append, List.any_cons]
        simp [isSnapshot]
      show (if isSnapshot e && (rest ++ snapshot b :: after).any isSnapshot then
        keepLast (rest ++ snapshot b :: after)
        else e :: keepLast (rest ++ snapshot b :: after)) = _
      rw [hany, ih, List.filter_cons]
      cases e <;> rfl

/-- The last snapshot of a row's events, if there is one. -/
theorem exists_last (evs : List RowEvent) : Quiet evs ∨
    ∃ before b after, evs = before ++ snapshot b :: after ∧ Quiet after := by
  induction evs with
  | nil => exact .inl (List.forall_mem_nil _)
  | cons e rest ih =>
      rcases ih with hquiet | ⟨before, b, after, hrest, hafter⟩
      · cases e with
        | snapshot b => exact .inr ⟨[], b, rest, rfl, hquiet⟩
        | unlisted => exact .inl (List.forall_mem_cons.mpr ⟨rfl, hquiet⟩)
      · exact .inr ⟨e :: before, b, after, by rw [hrest]; rfl, hafter⟩

/-- **The skipped snapshots leave no mark on the row.** `p` and `b` are the last two snapshots;
    without a balance in the last one nothing is left to compare. The row must be swept after it
    in both ways or in neither; and where it is not, the last snapshot must find its own balance
    in both ways (the row is confirmed) or in neither. -/
def Unmarked (nowSecs : Nat) (row : Option PositionState) (evs : List RowEvent) : Prop :=
  ∀ before p between b after,
    evs = before ++ snapshot p :: between ++ snapshot b :: after → Quiet between → Quiet after →
    b ≠ 0 →
      (unlisted ∈ after → Graced nowSecs row → snapshot 0 ∉ before ++ [snapshot p]) ∧
      ((unlisted ∈ after → Graced nowSecs row) →
        ((p = b ∧ (unlisted ∈ between →
            Graced nowSecs row ∧ snapshot 0 ∉ before ++ [snapshot p])) ↔
          (balance row = some b ∧ (unlisted ∈ before ++ between → Graced nowSecs row))))

/-- What the row shows in the two ways, given its last two snapshots. -/
theorem view_both (now : Nat) (row : Option PositionState) (before : List RowEvent) (p : UInt64)
    (hbetween : Quiet between) (hafter : Quiet after) (hb : b ≠ 0) :
    let evs := before ++ snapshot p :: between ++ snapshot b :: after
    let still := Graced now row ∧ snapshot 0 ∉ before ++ [snapshot p]
    view (applyAll now row evs) =
      (if unlisted ∈ after → still then
        some (b, if p = b ∧ (unlisted ∈ between → still) then .open else .reconcileNeeded)
      else none) ∧
    view (applyAll now row (keepLast evs)) =
      if unlisted ∈ after → Graced now row then
        some (b, if balance row = some b ∧ (unlisted ∈ before ++ between → Graced now row)
          then .open else .reconcileNeeded)
      else none := by
  dsimp only
  constructor
  · have hgraced : Graced now (applyAll now row (before ++ snapshot p :: between)) ↔
        Graced now row ∧ snapshot 0 ∉ before ++ [snapshot p] := by
      rw [graced_applyAll]
      refine and_congr_right fun _ => not_congr ?_
      simp only [List.mem_append, List.mem_cons, List.not_mem_nil, or_false]
      refine or_congr_right ?_
      have hno : snapshot 0 ∉ between := fun hin => nomatch hbetween _ hin
      simp [hno]
    have hbalance : balance (applyAll now row (before ++ snapshot p :: between)) = some b ↔
        p = b ∧ (unlisted ∈ between → Graced now row ∧ snapshot 0 ∉ before ++ [snapshot p]) := by
      rw [applyAll_append, balance_before hbetween hb, graced_applyAll]
      refine and_congr_right fun hp => imp_congr_right fun _ => and_congr_right fun _ => ?_
      have hne : snapshot 0 ≠ snapshot p := fun h => hb (by cases h; exact hp.symm)
      simp [hne]
    rw [applyAll_append, view_last hafter hb]
    simp only [hgraced, hbalance]
  · have hquiet : Quiet ((before ++ snapshot p :: between).filter fun e => !isSnapshot e) := by
      intro e he
      have hs := (List.mem_filter.mp he).2
      cases e with
      | snapshot b => cases hs
      | unlisted => rfl
    have hmem : unlisted ∈ (before ++ snapshot p :: between).filter (fun e => !isSnapshot e) ↔
        unlisted ∈ before ++ between := by
      simp [isSnapshot]
    have hgraced : Graced now (applyAll now row
        ((before ++ snapshot p :: between).filter fun e => !isSnapshot e)) ↔
        Graced now row := by
      rw [graced_applyAll]
      exact and_iff_left fun hin => nomatch hquiet _ hin
    have hbalance := balance_quiet now row hquiet hb
    rw [hmem] at hbalance
    rw [keepLast_append hafter, applyAll_append, view_last hafter hb]
    simp only [hgraced, hbalance]

/-- Two rows with the same balance show the same. -/
theorem shown_iff {kept kept' confirmed confirmed' : Prop} [Decidable kept] [Decidable kept']
    [Decidable confirmed] [Decidable confirmed'] :
    ((if kept then some (b, if confirmed then PositionStatus.open else .reconcileNeeded)
        else none) =
      if kept' then some (b, if confirmed' then PositionStatus.open else .reconcileNeeded)
        else none) ↔ (kept ↔ kept') ∧ (kept' → (confirmed ↔ confirmed')) := by
  by_cases hk : kept <;> by_cases hk' : kept' <;> by_cases hc : confirmed <;>
    by_cases hc' : confirmed' <;> simp [hk, hk', hc, hc']

/-- **One row in the two ways**: they show the same just when the skipped snapshots leave no
    mark. -/
theorem view_keepLast_iff (now : Nat) (row : Option PositionState) (evs : List RowEvent) :
    view (applyAll now row evs) = view (applyAll now row (keepLast evs)) ↔
      Unmarked now row evs := by
  constructor
  · intro heq before p between b after hevs hbetween hafter hb
    obtain ⟨hseq, hcmp⟩ := view_both now row before p hbetween hafter hb
    rw [hevs, hseq, hcmp, shown_iff] at heq
    exact ⟨fun hin hg => (heq.1.mpr (fun _ => hg) hin).2, heq.2⟩
  · intro hmark
    rcases exists_last evs with hquiet | ⟨front, b, after, hevs, hafter⟩
    · rw [keepLast_quiet hquiet]
    rcases exists_last front with hquiet | ⟨before, p, between, hfront, hbetween⟩
    · -- a single snapshot: nothing is skipped
      have hkeep : front.filter (fun e => !isSnapshot e) = front :=
        List.filter_eq_self.mpr fun e he => by rw [hquiet e he]; rfl
      rw [hevs, keepLast_append hafter, hkeep]
    subst hfront
    by_cases hb : b = 0
    · -- an empty snapshot removes the row in both ways
      have hgone : ∀ front', applyAll now row (front' ++ snapshot b :: after) = none := by
        intro front'
        rw [applyAll_append, applyAll_cons, hb, applyAll_quiet hafter]
        show (if unlisted ∈ after then applyTo now none unlisted else none) = none
        split <;> rfl
      rw [hevs, keepLast_append hafter, hgone, hgone]
    · obtain ⟨hseq, hcmp⟩ := view_both now row before p hbetween hafter hb
      obtain ⟨hswept, hconfirmed⟩ := hmark before p between b after hevs hbetween hafter hb
      rw [hevs, hseq, hcmp, shown_iff]
      exact ⟨⟨fun h hin => (h hin).1, fun h hin => ⟨h hin, hswept hin (h hin)⟩⟩, hconfirmed⟩

/-- **What a mint sees of a compacted batch**: its own events, compacted. -/
theorem filterMap_keepLast (mint : Mint) (batch : List PositionEvent) :
    (PositionAuthority.keepLast batch).filterMap (of mint) =
      keepLast (batch.filterMap (of mint)) := by
  have hany : isSolOrWsolMint mint = false → ∀ l : List PositionEvent,
      (l.filterMap (of mint)).any isSnapshot = l.any (snaps mint) := by
    intro hsol l
    induction l with
    | nil => rfl
    | cons e rest ih =>
        rw [List.filterMap_cons, List.any_cons, ← ih]
        cases e with
        | walletBalanceSnapshot mint' b =>
            by_cases hm : mint' = mint <;> simp [of, snaps, hm, hsol, isSnapshot]
        | walletSnapshotComplete mints =>
            by_cases hin : mint ∈ mints <;> simp [of, snaps, hin, hsol, isSnapshot]
        | _ => rfl
  induction batch with
  | nil => rfl
  | cons e rest ih =>
      cases e with
      | walletBalanceSnapshot mint' b =>
          rw [keepLast_snapshot]
          by_cases hm : mint' = mint ∧ isSolOrWsolMint mint = false
          · obtain ⟨rfl, hsol⟩ := hm
            have hof : of mint' (.walletBalanceSnapshot mint' b) = some (snapshot b) :=
              if_pos ⟨rfl, hsol⟩
            have hkeep : keepLast (snapshot b :: rest.filterMap (of mint')) =
                if rest.any (snaps mint') then keepLast (rest.filterMap (of mint'))
                else snapshot b :: keepLast (rest.filterMap (of mint')) := by
              rw [← hany hsol rest]
              rfl
            rw [List.filterMap_cons_some hof, hkeep]
            split
            · exact ih
            · rw [List.filterMap_cons_some hof, ih]
          · have hof : of mint (.walletBalanceSnapshot mint' b) = none := if_neg hm
            rw [List.filterMap_cons_none hof]
            split
            · exact ih
            · rw [List.filterMap_cons_none hof, ih]
      | walletSnapshotComplete mints =>
          show List.filterMap (of mint) (.walletSnapshotComplete mints ::
            PositionAuthority.keepLast rest) = _
          rw [List.filterMap_cons, List.filterMap_cons, ih]
          by_cases hin : isSolOrWsolMint mint = false ∧ mint ∉ mints <;>
            simp [of, hin, keepLast, isSnapshot]
      | _ => exact ih

end RowEvent

namespace PositionAuthority

/-- **WALLET BATCH COMPACTION.** For every authority, every batch and every reading: the
    compacted batch leaves the same mints with the same balances and statuses as the whole batch
    just when its skipped snapshots leave no mark on any mint's row. -/
theorem compaction_invisible_iff (pa : PositionAuthority) (batch : List PositionEvent)
    (now : Nat) :
    (∀ mint, (pa.applyBatch batch now).view mint = (pa.applyAll batch now).view mint) ↔
      ∀ mint, RowEvent.Unmarked now (pa.byMint.lookup mint)
        (batch.filterMap (RowEvent.of mint)) := by
  refine forall_congr' fun mint => ?_
  rw [← RowEvent.view_keepLast_iff]
  have hbatch : (pa.applyBatch batch now).view mint = RowEvent.view (RowEvent.applyAll now
      (pa.byMint.lookup mint) (RowEvent.keepLast (batch.filterMap (RowEvent.of mint)))) := by
    unfold view applyBatch
    rw [lookup_applyAll, compact_eq, RowEvent.filterMap_keepLast]
    rfl
  have hall : (pa.applyAll batch now).view mint = RowEvent.view (RowEvent.applyAll now
      (pa.byMint.lookup mint) (batch.filterMap (RowEvent.of mint))) := by
    unfold view
    rw [lookup_applyAll]
    rfl
  rw [hbatch, hall]
  exact eq_comm

/-- **TWO EQUAL SNAPSHOTS CONFIRM A BALANCE, ONE DOES NOT.** A mint that is not tracked, reported
    twice with the same balance: one after the other the row is open, compacted it needs to be
    reconciled. -/
theorem confirmed_twice_differs :
    let batch : List PositionEvent := [.walletBalanceSnapshot "m" 5, .walletBalanceSnapshot "m" 5]
    (PositionAuthority.new.applyAll batch 0).view "m" = some (5, .open) ∧
      (PositionAuthority.new.applyBatch batch 0).view "m" = some (5, .reconcileNeeded) := by
  decide

end PositionAuthority

end IronCrab

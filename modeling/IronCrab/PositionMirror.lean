/-
  File:      IronCrab/PositionMirror.lean
  Subject:   THE KV MIRROR OF THE POSITION AUTHORITY (src/position_authority/state.rs, its
             change sets, and src/position_authority/kv_publish.rs).

  Every reducer returns the changes that a reader of the KV bucket needs. Here the positions
  carry all their fields (`PositionRow`; the reducers of `PositionAuthority` keep only those
  that decide something), so that a change carries the whole snapshot.

  * `Forgets.apply` -- the full reducers do to the deciding fields what `PositionAuthority` does;
  * `Mirrored.publish` -- what one event returns takes the bucket from one state to the next;
  * `kv_mirrors_authority` -- after every run of events the bucket holds exactly the snapshots
    of the tracked mints, and the readers' counting rule agrees with the authority's.
-/
import IronCrab.PositionAuthority

namespace IronCrab

/-! ## 1. Rows, events, snapshots -/

/-- `PositionState` with every field. -/
structure PositionRow extends PositionState where
  mint : Mint
  decimals : UInt8
  tokenProgram : String
  ata : Option String
  deriving DecidableEq

/-- `PositionEvent` with every field. -/
inductive PositionRowEvent where
  | buyConfirmed (mint : Mint) (fillRaw : UInt64) (decimals : UInt8) (tokenProgram : String)
      (ata : Option String)
  | sellConfirmed (mint : Mint) (soldRaw : UInt64) (decimals : UInt8) (tokenProgram : String)
  | walletBalanceSnapshot (mint : Mint) (balanceRaw : UInt64) (decimals : UInt8)
      (tokenProgram : String)
  | walletSnapshotComplete (wallet : String) (mintsInWallet : List Mint) (isPeriodic : Bool)

inductive PositionAuthorityStatus where
  | open
  | closed
  | reconcileNeeded
  deriving DecidableEq

inductive PositionAuthorityUpdateSource where
  | execution
  | walletSnapshot
  deriving DecidableEq

/-- Compact per-mint view, as it stands in the KV bucket. -/
structure PositionAuthoritySnapshot where
  mint : Mint
  balanceRaw : UInt64
  decimals : UInt8
  status : PositionAuthorityStatus
  lastUpdateSource : PositionAuthorityUpdateSource
  soldRawTotal : Option UInt64
  deriving DecidableEq

/-- KV publish delta after a reducer apply. -/
inductive PositionAuthorityChange where
  | put (snapshot : PositionAuthoritySnapshot)
  | tombstone (mint : Mint)
  deriving DecidableEq

/-- `to_snapshot`. -/
def PositionRow.toSnapshot (p : PositionRow) : PositionAuthoritySnapshot where
  mint := p.mint
  balanceRaw := p.balanceRaw
  decimals := p.decimals
  status := match p.status with
    | .open => .open
    | .closed => .closed
    | .reconcileNeeded => .reconcileNeeded
  lastUpdateSource := match p.lastUpdateSource with
    | .execution => .execution
    | .walletSnapshot => .walletSnapshot
  soldRawTotal := if 0 < p.soldRawTotal then some p.soldRawTotal else none

/-- `snapshot_counts_as_open_position`. -/
def snapshotCountsAsOpenPosition (snap : PositionAuthoritySnapshot) : Bool :=
  decide (0 < snap.balanceRaw) && decide (snap.status ≠ .closed)

/-- `open_positions_count_from_kv_snapshots`. -/
def openPositionsCountFromKvSnapshots (snapshots : List PositionAuthoritySnapshot) : Nat :=
  (snapshots.filter snapshotCountsAsOpenPosition).length

/-! ## 2. The reducers with their change sets -/

/-- `PositionAuthority` with full rows. -/
structure PositionRows where
  byMint : AList fun _ : Mint => PositionRow

namespace PositionRows

def new : PositionRows := ⟨∅⟩

/-- The row that `or_insert_with` makes. -/
def freshRow (mint : Mint) (decimals : UInt8) (tokenProgram : String) : PositionRow :=
  { PositionAuthority.freshState with mint, decimals, tokenProgram, ata := none }

/-- `by_mint.entry(mint).or_insert_with(..)`. -/
def entry (rows : PositionRows) (mint : Mint) (decimals : UInt8) (tokenProgram : String) :
    PositionRow :=
  (rows.byMint.lookup mint).getD (freshRow mint decimals tokenProgram)

def put (rows : PositionRows) (mint : Mint) (e : PositionRow) : PositionRows :=
  ⟨rows.byMint.insert mint e⟩

/-- `change_for_mint`. -/
def changeForMint (rows : PositionRows) (mint : Mint) : PositionAuthorityChange :=
  match rows.byMint.lookup mint with
  | some state => .put state.toSnapshot
  | none => .tombstone mint

/-- `apply_buy`. -/
def applyBuy (rows : PositionRows) (mint : Mint) (fillRaw : UInt64) (decimals : UInt8)
    (tokenProgram : String) (ata : Option String) (nowSecs : Nat) :
    PositionRows × List PositionAuthorityChange :=
  let e := rows.entry mint decimals tokenProgram
  let balanceRaw := Word.satAdd e.balanceRaw fillRaw
  let rows := rows.put mint { e with
    decimals
    tokenProgram
    ata := ata <|> e.ata
    lastExecutionUnixSecs := some nowSecs
    buyFills := e.buyFills ++ [fillRaw]
    balanceRaw
    status := PositionAuthority.statusOf balanceRaw
    lastUpdateSource := .execution }
  (rows, [rows.changeForMint mint])

/-- `apply_sell`. -/
def applySell (rows : PositionRows) (mint : Mint) (soldRaw : UInt64) (decimals : UInt8)
    (tokenProgram : String) (nowSecs : Nat) : PositionRows × List PositionAuthorityChange :=
  let e := rows.entry mint decimals tokenProgram
  let newBal := Word.satSub e.balanceRaw soldRaw
  let rows := rows.put mint { e with
    decimals
    tokenProgram
    lastExecutionUnixSecs := some nowSecs
    soldRawTotal := Word.satAdd e.soldRawTotal soldRaw
    balanceRaw := if e.balanceRaw < soldRaw then 0 else newBal
    status := if e.balanceRaw < soldRaw then .reconcileNeeded
      else PositionAuthority.statusOf newBal
    lastUpdateSource := .execution }
  (rows, [rows.changeForMint mint])

/-- `apply_wallet_snapshot`. -/
def applyWalletSnapshot (rows : PositionRows) (mint : Mint) (balanceRaw : UInt64)
    (decimals : UInt8) (tokenProgram : String) : PositionRows × List PositionAuthorityChange :=
  if balanceRaw = 0 then (⟨rows.byMint.erase mint⟩, [.tombstone mint])
  else
    let rows := match rows.byMint.lookup mint with
      | some e =>
          let e := { e with decimals, tokenProgram, lastUpdateSource := .walletSnapshot }
          if e.balanceRaw = balanceRaw then rows.put mint { e with status := .open }
          else rows.put mint { e with balanceRaw, status := .reconcileNeeded }
      | none => rows.put mint
          { balanceRaw, buyFills := [], soldRawTotal := 0, status := .reconcileNeeded,
            lastUpdateSource := .walletSnapshot, lastExecutionUnixSecs := none, mint, decimals,
            tokenProgram, ata := none }
    (rows, [rows.changeForMint mint])

/-- The mints that a complete wallet list closes. -/
def ghosts (rows : PositionRows) (mintsInWallet : List Mint) (nowSecs : Nat) : List Mint :=
  (rows.byMint.entries.filter fun e =>
    decide (0 < e.2.balanceRaw) && !isSolOrWsolMint e.1 && !mintsInWallet.contains e.1 &&
      PositionAuthority.ghostEligibleAfterSnapshotComplete e.2.toPositionState nowSecs).map
    Sigma.fst

/-- `apply_wallet_snapshot_complete`. -/
def applyWalletSnapshotComplete (rows : PositionRows) (mintsInWallet : List Mint)
    (nowSecs : Nat) : PositionRows × List PositionAuthorityChange :=
  let ghosts := rows.ghosts mintsInWallet nowSecs
  (⟨rows.byMint.eraseAll ghosts⟩, ghosts.map .tombstone)

/-- `apply`. -/
def apply (rows : PositionRows) (event : PositionRowEvent) (nowSecs : Nat) :
    PositionRows × List PositionAuthorityChange :=
  match event with
  | .buyConfirmed mint fillRaw decimals tokenProgram ata =>
      rows.applyBuy mint fillRaw decimals tokenProgram ata nowSecs
  | .sellConfirmed mint soldRaw decimals tokenProgram =>
      rows.applySell mint soldRaw decimals tokenProgram nowSecs
  | .walletBalanceSnapshot mint balanceRaw decimals tokenProgram =>
      rows.applyWalletSnapshot mint balanceRaw decimals tokenProgram
  | .walletSnapshotComplete _ mintsInWallet _ =>
      rows.applyWalletSnapshotComplete mintsInWallet nowSecs

/-- `tracked_mints`. -/
def trackedMints (rows : PositionRows) : List Mint := rows.byMint.keys

/-- `open_positions_count`. -/
def openPositionsCount (rows : PositionRows) : Nat :=
  (rows.byMint.entries.filter fun e => decide (0 < e.2.balanceRaw)).length

/-- `tradable_balance_raw`. -/
def tradableBalanceRaw (rows : PositionRows) (mint : Mint) : Option UInt64 :=
  (rows.byMint.lookup mint).map fun p => if p.status = .closed then 0 else p.balanceRaw

end PositionRows

/-! ## 3. The bucket -/

/-- The `POSITION_AUTHORITY` bucket. -/
abbrev PositionKv := AList fun _ : Mint => PositionAuthoritySnapshot

namespace PositionKv

/-- One change: a put overwrites the snapshot's mint, a tombstone deletes. -/
def publishChange (kv : PositionKv) : PositionAuthorityChange → PositionKv
  | .put snapshot => kv.insert snapshot.mint snapshot
  | .tombstone mint => kv.erase mint

/-- `publish_position_authority_changes_to_kv`, with a server that answers. -/
def publish (kv : PositionKv) (changes : List PositionAuthorityChange) : PositionKv :=
  changes.foldl publishChange kv

/-- The snapshots in the bucket. -/
def snapshots (kv : PositionKv) : List PositionAuthoritySnapshot :=
  kv.entries.map fun e => e.2

end PositionKv

namespace PositionRows

/-- Events applied one after another, each at its clock reading; the changes in their order. -/
def applyAll (rows : PositionRows) :
    List (PositionRowEvent × Nat) → PositionRows × List PositionAuthorityChange
  | [] => (rows, [])
  | (event, nowSecs) :: events =>
      let (rows, changes) := rows.apply event nowSecs
      let (rows, later) := rows.applyAll events
      (rows, changes ++ later)

end PositionRows

/-! ## 4. The fields that decide -/

/-- The event without the carried fields. -/
def PositionRowEvent.forget : PositionRowEvent → PositionEvent
  | .buyConfirmed mint fillRaw _ _ _ => .buyConfirmed mint fillRaw
  | .sellConfirmed mint soldRaw _ _ => .sellConfirmed mint soldRaw
  | .walletBalanceSnapshot mint balanceRaw _ _ => .walletBalanceSnapshot mint balanceRaw
  | .walletSnapshotComplete _ mintsInWallet _ => .walletSnapshotComplete mintsInWallet

/-- Both authorities track the same mints, and every row forgets to its position. -/
def Forgets (rows : PositionRows) (pa : PositionAuthority) : Prop :=
  ∀ mint, pa.byMint.lookup mint =
    (rows.byMint.lookup mint).map PositionRow.toPositionState

namespace Forgets

variable {rows : PositionRows} {pa : PositionAuthority}

theorem entry (h : Forgets rows pa) (mint : Mint) (decimals : UInt8) (tokenProgram : String) :
    (rows.entry mint decimals tokenProgram).toPositionState = pa.entry mint := by
  unfold PositionRows.entry PositionAuthority.entry
  rw [h mint]
  cases rows.byMint.lookup mint with
  | none => rfl
  | some p => rfl

theorem put (h : Forgets rows pa) (mint : Mint) {e : PositionRow} {p : PositionState}
    (he : e.toPositionState = p) : Forgets (rows.put mint e) (pa.put mint p) := by
  intro mint'
  unfold PositionRows.put PositionAuthority.put
  by_cases hm : mint' = mint
  · subst hm
    rw [AList.lookup_insert, AList.lookup_insert, Option.map_some, he]
  · rw [AList.lookup_insert_ne hm, AList.lookup_insert_ne hm, h mint']

theorem eraseAll (h : Forgets rows pa) (ks ks' : List Mint)
    (hk : ∀ mint, mint ∈ ks ↔ mint ∈ ks') : Forgets ⟨rows.byMint.eraseAll ks⟩ ⟨pa.byMint.eraseAll ks'⟩ := by
  intro mint
  rw [AList.lookup_eraseAll, AList.lookup_eraseAll]
  by_cases hm : mint ∈ ks
  · rw [if_pos hm, if_pos ((hk mint).mp hm)]
    rfl
  · rw [if_neg hm, if_neg fun hm' => hm ((hk mint).mpr hm')]
    exact h mint

/-- **The full reducers do to the deciding fields what the reducers without the carried fields
    do.** -/
theorem apply (h : Forgets rows pa) (event : PositionRowEvent) (nowSecs : Nat) :
    Forgets (rows.apply event nowSecs).1 (pa.apply event.forget nowSecs) := by
  cases event with
  | buyConfirmed mint fillRaw decimals tokenProgram ata =>
      refine h.put mint ?_
      rw [← h.entry mint decimals tokenProgram]
  | sellConfirmed mint soldRaw decimals tokenProgram =>
      refine h.put mint ?_
      rw [← h.entry mint decimals tokenProgram]
  | walletBalanceSnapshot mint balanceRaw decimals tokenProgram =>
      show Forgets (rows.applyWalletSnapshot mint balanceRaw decimals tokenProgram).1
        (pa.applyWalletSnapshot mint balanceRaw)
      unfold PositionRows.applyWalletSnapshot PositionAuthority.applyWalletSnapshot
      by_cases h0 : balanceRaw = 0
      · rw [if_pos h0, if_pos h0]
        exact h.eraseAll [mint] [mint] fun _ => Iff.rfl
      · rw [if_neg h0, if_neg h0, h mint]
        cases rows.byMint.lookup mint with
        | none => exact h.put mint rfl
        | some e =>
            dsimp only [Option.map_some]
            by_cases hb : e.balanceRaw = balanceRaw
            · rw [if_pos hb, if_pos hb]
              exact h.put mint rfl
            · rw [if_neg hb, if_neg hb]
              exact h.put mint rfl
  | walletSnapshotComplete wallet mints isPeriodic =>
      refine h.eraseAll _ _ fun mint => ?_
      unfold PositionRows.ghosts
      rw [AList.mem_map_fst_filter, AList.mem_map_fst_filter]
      simp only [h mint]
      cases rows.byMint.lookup mint with
      | none => simp
      | some p => simp

end Forgets

/-! ## 5. The mirror -/

namespace PositionRow

/-- A row stands under its own mint, and is closed exactly without a balance unless it waits for
    a reconciliation. -/
structure Sound (p : PositionRow) (mint : Mint) : Prop where
  mint_eq : p.mint = mint
  closed_iff : p.status ≠ .reconcileNeeded → (p.status = .closed ↔ p.balanceRaw = 0)

/-- Both rules count a sound row alike. -/
theorem Sound.counts {p : PositionRow} {mint : Mint} (h : p.Sound mint) :
    snapshotCountsAsOpenPosition p.toSnapshot = decide (0 < p.balanceRaw) := by
  unfold snapshotCountsAsOpenPosition
  by_cases hpos : 0 < p.balanceRaw
  · have hne : p.balanceRaw ≠ 0 := UInt64.pos_iff_ne_zero.mp hpos
    have hopen : p.toSnapshot.status ≠ .closed := by
      have hclosed := h.closed_iff
      unfold toSnapshot
      cases hs : p.status with
      | «open» => simp
      | closed => exact absurd ((hclosed (by simp [hs])).mp hs) hne
      | reconcileNeeded => simp
    have hbal : p.toSnapshot.balanceRaw = p.balanceRaw := rfl
    rw [hbal, decide_eq_true hpos, decide_eq_true hopen]
    rfl
  · have hbal : p.toSnapshot.balanceRaw = p.balanceRaw := rfl
    rw [hbal, decide_eq_false hpos, Bool.false_and]

end PositionRow

/-- **The bucket mirrors the authority**, whose rows are sound. -/
structure Mirrored (rows : PositionRows) (kv : PositionKv) : Prop where
  sound : ∀ mint p, rows.byMint.lookup mint = some p → p.Sound mint
  mirror : ∀ mint, kv.lookup mint = (rows.byMint.lookup mint).map PositionRow.toSnapshot

namespace Mirrored

variable {rows : PositionRows} {kv : PositionKv}

theorem new : Mirrored .new ∅ where
  sound := fun mint p h => by cases h
  mirror := fun _ => rfl

/-- A sound row that is written and published. -/
theorem put (h : Mirrored rows kv) {mint : Mint} {e : PositionRow} (he : e.Sound mint) :
    Mirrored (rows.put mint e) (kv.publish [(rows.put mint e).changeForMint mint]) := by
  have hself : (rows.put mint e).byMint.lookup mint = some e := AList.lookup_insert rows.byMint
  have hne : ∀ mint', mint' ≠ mint →
      (rows.put mint e).byMint.lookup mint' = rows.byMint.lookup mint' :=
    fun mint' hm => AList.lookup_insert_ne hm
  have hkv : kv.publish [(rows.put mint e).changeForMint mint] = kv.insert mint e.toSnapshot := by
    unfold PositionRows.changeForMint
    rw [hself]
    have hmint : e.toSnapshot.mint = mint := he.mint_eq
    show kv.insert e.toSnapshot.mint e.toSnapshot = _
    rw [hmint]
  constructor
  · intro mint' p hp
    by_cases hm : mint' = mint
    · subst hm
      rw [hself] at hp
      cases hp
      exact he
    · rw [hne mint' hm] at hp
      exact h.sound mint' p hp
  · intro mint'
    rw [hkv]
    by_cases hm : mint' = mint
    · subst hm
      rw [AList.lookup_insert, hself]
      rfl
    · rw [AList.lookup_insert_ne hm, hne mint' hm]
      exact h.mirror mint'

/-- Tombstones delete their mints. -/
theorem publish_tombstones (kv : PositionKv) (ks : List Mint) :
    kv.publish (ks.map .tombstone) = kv.eraseAll ks := by
  unfold PositionKv.publish AList.eraseAll
  rw [List.foldl_map]
  rfl

/-- Rows that are removed and buried. -/
theorem eraseAll (h : Mirrored rows kv) (ks : List Mint) :
    Mirrored ⟨rows.byMint.eraseAll ks⟩ (kv.publish (ks.map .tombstone)) := by
  rw [publish_tombstones]
  constructor
  · intro mint p hp
    dsimp only at hp
    rw [AList.lookup_eraseAll] at hp
    by_cases hm : mint ∈ ks
    · rw [if_pos hm] at hp
      cases hp
    · rw [if_neg hm] at hp
      exact h.sound mint p hp
  · intro mint
    dsimp only
    rw [AList.lookup_eraseAll, AList.lookup_eraseAll, h.mirror mint]
    by_cases hm : mint ∈ ks
    · rw [if_pos hm, if_pos hm]
      rfl
    · rw [if_neg hm, if_neg hm]

/-- The entry of a mint stands under it. -/
theorem entry_mint (h : Mirrored rows kv) (mint : Mint) (decimals : UInt8)
    (tokenProgram : String) : (rows.entry mint decimals tokenProgram).mint = mint := by
  unfold PositionRows.entry
  cases hl : rows.byMint.lookup mint with
  | none => rfl
  | some p => exact (h.sound mint p hl).mint_eq

theorem statusOf_closed_iff (balanceRaw : UInt64) :
    PositionAuthority.statusOf balanceRaw = .closed ↔ balanceRaw = 0 := by
  unfold PositionAuthority.statusOf
  by_cases h : balanceRaw = 0
  · simp [h]
  · simp [h]

/-- **What one event returns takes the bucket from one state to the next.** -/
theorem publish (h : Mirrored rows kv) (event : PositionRowEvent) (nowSecs : Nat) :
    Mirrored (rows.apply event nowSecs).1 (kv.publish (rows.apply event nowSecs).2) := by
  cases event with
  | buyConfirmed mint fillRaw decimals tokenProgram ata =>
      exact h.put ⟨h.entry_mint mint decimals tokenProgram, fun _ => statusOf_closed_iff _⟩
  | sellConfirmed mint soldRaw decimals tokenProgram =>
      refine h.put ⟨h.entry_mint mint decimals tokenProgram, fun hstatus => ?_⟩
      dsimp only at hstatus ⊢
      by_cases hlt : (rows.entry mint decimals tokenProgram).balanceRaw < soldRaw
      · rw [if_pos hlt] at hstatus
        exact absurd rfl hstatus
      · rw [if_neg hlt, if_neg hlt]
        exact statusOf_closed_iff _
  | walletBalanceSnapshot mint balanceRaw decimals tokenProgram =>
      show Mirrored (rows.applyWalletSnapshot mint balanceRaw decimals tokenProgram).1
        (kv.publish (rows.applyWalletSnapshot mint balanceRaw decimals tokenProgram).2)
      unfold PositionRows.applyWalletSnapshot
      by_cases h0 : balanceRaw = 0
      · rw [if_pos h0]
        exact h.eraseAll [mint]
      · rw [if_neg h0]
        cases hl : rows.byMint.lookup mint with
        | none => exact h.put ⟨rfl, fun hstatus => absurd rfl hstatus⟩
        | some e =>
            have hmint := (h.sound mint e hl).mint_eq
            dsimp only
            by_cases hb : e.balanceRaw = balanceRaw
            · rw [if_pos hb]
              refine h.put ⟨hmint, fun _ => ?_⟩
              -- the balance is the reported one, which is not zero
              exact ⟨fun hclosed => (nomatch hclosed), fun hzero => absurd (hb.symm.trans hzero) h0⟩
            · rw [if_neg hb]
              exact h.put ⟨hmint, fun hstatus => absurd rfl hstatus⟩
  | walletSnapshotComplete wallet mints isPeriodic => exact h.eraseAll _

/-- **And every run of events does.** -/
theorem publishAll (h : Mirrored rows kv) (events : List (PositionRowEvent × Nat)) :
    Mirrored (rows.applyAll events).1 (kv.publish (rows.applyAll events).2) := by
  induction events generalizing rows kv with
  | nil => exact h
  | cons e events ih =>
      have hrest := ih (h.publish e.1 e.2)
      have hsplit : ∀ cs cs', kv.publish (cs ++ cs') = (kv.publish cs).publish cs' :=
        fun cs cs' => List.foldl_append
      show Mirrored _ (kv.publish (_ ++ _))
      rw [hsplit]
      exact hrest

/-- The two counting rules agree. -/
theorem count (h : Mirrored rows kv) :
    rows.openPositionsCount = openPositionsCountFromKvSnapshots kv.snapshots := by
  have hkv : openPositionsCountFromKvSnapshots kv.snapshots =
      (kv.entries.filter fun e => snapshotCountsAsOpenPosition e.2).length := by
    unfold openPositionsCountFromKvSnapshots PositionKv.snapshots
    rw [List.filter_map, List.length_map]
    rfl
  rw [hkv]
  refine AList.length_filter_eq fun mint => ?_
  rw [h.mirror mint]
  cases hl : rows.byMint.lookup mint with
  | none => simp
  | some p =>
      have hcount := (h.sound mint p hl).counts
      simp only [Option.map_some, Option.some.injEq, exists_eq_left']
      rw [hcount]

/-- What can be traded is the mirrored balance. -/
theorem tradable (h : Mirrored rows kv) (mint : Mint) :
    rows.tradableBalanceRaw mint = (kv.lookup mint).map (·.balanceRaw) := by
  unfold PositionRows.tradableBalanceRaw
  rw [h.mirror mint]
  cases hl : rows.byMint.lookup mint with
  | none => rfl
  | some p =>
      simp only [Option.map_some]
      by_cases hclosed : p.status = .closed
      · have hzero : p.balanceRaw = 0 :=
          ((h.sound mint p hl).closed_iff (by rw [hclosed]; simp)).mp hclosed
        rw [if_pos hclosed, ← hzero]
        rfl
      · rw [if_neg hclosed]
        rfl

end Mirrored

/-- **The KV bucket mirrors the authority.** After every run of events from the empty authority,
    at any clock readings, the published changes have left in the bucket exactly the snapshots of
    the tracked mints; the count of open positions is the readers' count, a row that does not
    wait for a reconciliation is closed exactly without a balance, and the tradable balance of
    exactly the tracked mints is the mirrored one. -/
theorem kv_mirrors_authority (events : List (PositionRowEvent × Nat)) :
    let rows := (PositionRows.new.applyAll events).1
    let kv := PositionKv.publish ∅ (PositionRows.new.applyAll events).2
    (∀ mint, kv.lookup mint = (rows.byMint.lookup mint).map PositionRow.toSnapshot) ∧
    rows.openPositionsCount = openPositionsCountFromKvSnapshots kv.snapshots ∧
    (∀ mint p, rows.byMint.lookup mint = some p → p.status ≠ .reconcileNeeded →
      (p.status = .closed ↔ p.balanceRaw = 0)) ∧
    ∀ mint balanceRaw, rows.tradableBalanceRaw mint = some balanceRaw ↔
      mint ∈ rows.trackedMints ∧ (kv.lookup mint).map (·.balanceRaw) = some balanceRaw := by
  have h := Mirrored.new.publishAll events
  refine ⟨h.mirror, h.count, fun mint p hp => (h.sound mint p hp).closed_iff,
    fun mint balanceRaw => ?_⟩
  rw [h.tradable mint]
  constructor
  · intro hb
    refine ⟨?_, hb⟩
    rw [h.mirror mint] at hb
    cases hl : (PositionRows.new.applyAll events).1.byMint.lookup mint with
    | none =>
        rw [hl] at hb
        cases hb
    | some p => exact AList.lookup_isSome.mp (by rw [hl]; rfl)
  · exact And.right

end IronCrab

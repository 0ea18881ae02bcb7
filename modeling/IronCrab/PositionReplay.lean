/-
  File:      IronCrab/PositionReplay.lean
  Subject:   REDELIVERED EXECUTION RESULTS (src/bin/position_manager.rs, apply then ack, over
             src/position_authority/state.rs).

  The position manager applies a message and acknowledges it afterwards, so a message whose
  acknowledgement is lost is delivered again, and the reducer applies it again: nothing in it
  remembers which results it has seen.

  What a mint holds is a register of its own (`Holding`: balance, sold total, time of the last
  execution), and each delivery acts on it by itself (`onDelivery`); `holding_deliver` says that
  the reducer does exactly that to every mint. Over the registers:

  * `redelivered_buy_counted_twice` -- a BUY that is delivered twice is counted twice;
  * `redelivery_absorbed_iff` -- when a redelivery leaves balance and sold total as they are,
    at once and at every later point: the fill adds nothing, and the refreshed time of the last
    execution decides no later ghost cleanup.
-/
import IronCrab.PositionAuthority
import IronCrab.Lib.Machine

namespace IronCrab

open Machine

/-! ## 1. Deliveries -/

/-- What the position manager takes from its streams. -/
inductive AuthorityMessage where
  | execution (exec : ExecutionResult)
  | wallet (kind : PositionEvent)

/-- A message and the clock reading of its application. -/
abbrev Delivery := AuthorityMessage × Nat

namespace PositionAuthority

/-- `PositionManagerContext::apply_execution_result`. -/
def applyExecutionResult (pa : PositionAuthority) (exec : ExecutionResult) (nowSecs : Nat) :
    PositionAuthority :=
  if exec.status ≠ .confirmed then pa else pa.applyFromConfirmedExecutionResult exec nowSecs

/-- One message applied. -/
def deliver (pa : PositionAuthority) : Delivery → PositionAuthority
  | (.execution exec, nowSecs) => pa.applyExecutionResult exec nowSecs
  | (.wallet kind, nowSecs) => pa.applyFromWalletMarketEventKind kind nowSecs

/-- The messages applied one after another. -/
def deliverAll (pa : PositionAuthority) (ds : List Delivery) : PositionAuthority :=
  foldSteps deliver pa ds

/-- A result that is not confirmed is no event either: the manager's test repeats the
    reducer's. -/
theorem applyExecutionResult_eq (pa : PositionAuthority) (exec : ExecutionResult)
    (nowSecs : Nat) :
    pa.applyExecutionResult exec nowSecs = pa.applyFromConfirmedExecutionResult exec nowSecs := by
  unfold applyExecutionResult
  by_cases h : exec.status = .confirmed
  · exact if_neg (not_not_intro h)
  · rw [if_pos h]
    unfold applyFromConfirmedExecutionResult PositionEvent.tryFromExecutionResult
    rw [if_pos h]

end PositionAuthority

/-! ## 2. What a mint holds -/

/-- The part of a position on which its later balances and sold totals depend. -/
structure Holding where
  balanceRaw : UInt64
  soldRawTotal : UInt64
  lastExecutionUnixSecs : Option Nat
  deriving DecidableEq

def PositionState.holding (p : PositionState) : Holding :=
  ⟨p.balanceRaw, p.soldRawTotal, p.lastExecutionUnixSecs⟩

/-- `balance_raw` and `sold_raw_total`. -/
def Holding.amounts (h : Holding) : UInt64 × UInt64 := (h.balanceRaw, h.soldRawTotal)

namespace Holding

/-- The register of a mint that is not tracked yet. -/
def fresh : Holding := ⟨0, 0, none⟩

/-- A BUY of the mint. -/
def onBuy (fillRaw : UInt64) (nowSecs : Nat) (h : Option Holding) : Option Holding :=
  let h := h.getD fresh
  some ⟨Word.satAdd h.balanceRaw fillRaw, h.soldRawTotal, some nowSecs⟩

/-- A SELL of the mint. -/
def onSell (soldRaw : UInt64) (nowSecs : Nat) (h : Option Holding) : Option Holding :=
  let h := h.getD fresh
  some ⟨Word.satSub h.balanceRaw soldRaw, Word.satAdd h.soldRawTotal soldRaw, some nowSecs⟩

/-- A balance snapshot of the mint. -/
def onSnapshot (balanceRaw : UInt64) (h : Option Holding) : Option Holding :=
  if balanceRaw = 0 then none
  else some { h.getD fresh with balanceRaw }

/-- Whether a complete wallet list without the mint takes the register away. -/
def ghost (nowSecs : Nat) (h : Holding) : Bool :=
  decide (0 < h.balanceRaw) &&
    match h.lastExecutionUnixSecs with
    | some t => decide (PositionAuthority.ghostCleanupGraceSecs ≤ nowSecs - t)
    | none => true

/-- An event that reached the reducer, seen by one mint. -/
def onEvent (mint : Mint) (event : PositionEvent) (nowSecs : Nat) (h : Option Holding) :
    Option Holding :=
  match event with
  | .buyConfirmed mint' fillRaw => if mint' = mint then onBuy fillRaw nowSecs h else h
  | .sellConfirmed mint' soldRaw => if mint' = mint then onSell soldRaw nowSecs h else h
  | .walletBalanceSnapshot mint' balanceRaw => if mint' = mint then onSnapshot balanceRaw h else h
  | .walletSnapshotComplete mints =>
      if isSolOrWsolMint mint || mints.contains mint then h
      else h.filter fun h => !ghost nowSecs h

end Holding

/-- The event that a message brings to the reducer. -/
def AuthorityMessage.event : AuthorityMessage → Option PositionEvent
  | .execution exec => PositionEvent.tryFromExecutionResult exec
  | .wallet (.walletBalanceSnapshot mint balanceRaw) =>
      if isSolOrWsolMint mint then none else some (.walletBalanceSnapshot mint balanceRaw)
  | .wallet (.walletSnapshotComplete mints) => some (.walletSnapshotComplete mints)
  | .wallet _ => none

/-- A delivery, seen by one mint. -/
def Holding.onDelivery (mint : Mint) (h : Option Holding) (d : Delivery) : Option Holding :=
  match d.1.event with
  | some event => onEvent mint event d.2 h
  | none => h

namespace PositionAuthority

/-- The register of a mint in the authority. -/
def holding (pa : PositionAuthority) (mint : Mint) : Option Holding :=
  (pa.byMint.lookup mint).map PositionState.holding

theorem deliver_eq (pa : PositionAuthority) (d : Delivery) :
    pa.deliver d = match d.1.event with
      | some event => pa.apply event d.2
      | none => pa := by
  obtain ⟨m, now⟩ := d
  cases m with
  | execution exec => exact applyExecutionResult_eq pa exec now
  | wallet kind =>
      cases kind with
      | buyConfirmed => rfl
      | sellConfirmed => rfl
      | walletSnapshotComplete => rfl
      | walletBalanceSnapshot mint balanceRaw =>
          unfold deliver applyFromWalletMarketEventKind AuthorityMessage.event
          by_cases hsol : isSolOrWsolMint mint = true
          · simp only [if_pos hsol]
          · simp only [if_neg hsol]
            rfl

theorem holding_put (pa : PositionAuthority) (mint : Mint) (e : PositionState) (mint' : Mint) :
    (pa.put mint e).holding mint' = if mint = mint' then some e.holding else pa.holding mint' := by
  unfold holding put
  by_cases h : mint = mint'
  · subst h
    rw [if_pos rfl, AList.lookup_insert]
    rfl
  · rw [if_neg h, AList.lookup_insert_ne (Ne.symm h)]

/-- The entry of a mint carries its register, or the fresh one. -/
theorem holding_entry (pa : PositionAuthority) (mint : Mint) :
    (pa.entry mint).holding = (pa.holding mint).getD Holding.fresh := by
  unfold entry holding
  cases pa.byMint.lookup mint with
  | none => rfl
  | some p => rfl

theorem holding_applyBuy (pa : PositionAuthority) (mint : Mint) (fillRaw : UInt64) (now : Nat)
    (mint' : Mint) : (pa.applyBuy mint fillRaw now).holding mint' =
      if mint = mint' then Holding.onBuy fillRaw now (pa.holding mint') else pa.holding mint' := by
  unfold applyBuy
  rw [holding_put]
  by_cases h : mint = mint'
  · subst h
    rw [if_pos rfl, if_pos rfl]
    unfold Holding.onBuy
    rw [← holding_entry]
    rfl
  · rw [if_neg h, if_neg h]

/-- A sale over the balance leaves nothing, as the saturating difference does. -/
theorem soldBalance_eq (balanceRaw soldRaw : UInt64) :
    (if balanceRaw < soldRaw then 0 else Word.satSub balanceRaw soldRaw) =
      Word.satSub balanceRaw soldRaw := by
  by_cases h : balanceRaw < soldRaw
  · rw [if_pos h]
    unfold Word.satSub
    rw [if_neg (UInt64.not_le.mpr h)]
  · exact if_neg h

theorem holding_applySell (pa : PositionAuthority) (mint : Mint) (soldRaw : UInt64) (now : Nat)
    (mint' : Mint) : (pa.applySell mint soldRaw now).holding mint' =
      if mint = mint' then Holding.onSell soldRaw now (pa.holding mint') else pa.holding mint' := by
  unfold applySell
  rw [holding_put]
  by_cases h : mint = mint'
  · subst h
    rw [if_pos rfl, if_pos rfl]
    unfold Holding.onSell PositionState.holding
    rw [← holding_entry, soldBalance_eq]
    rfl
  · rw [if_neg h, if_neg h]

theorem holding_applyWalletSnapshot (pa : PositionAuthority) (mint : Mint)
    (balanceRaw : UInt64) (mint' : Mint) :
    (pa.applyWalletSnapshot mint balanceRaw).holding mint' =
      if mint = mint' then Holding.onSnapshot balanceRaw (pa.holding mint')
      else pa.holding mint' := by
  unfold applyWalletSnapshot Holding.onSnapshot
  by_cases h0 : balanceRaw = 0
  · rw [if_pos h0, if_pos h0]
    unfold holding
    by_cases h : mint = mint'
    · subst h
      rw [if_pos rfl, AList.lookup_erase]
      rfl
    · rw [if_neg h, AList.lookup_erase_ne (Ne.symm h)]
  · rw [if_neg h0, if_neg h0]
    cases hl : pa.byMint.lookup mint with
    | none =>
        dsimp only
        rw [holding_put]
        by_cases h : mint = mint'
        · subst h
          rw [if_pos rfl, if_pos rfl]
          unfold holding
          rw [hl]
          rfl
        · rw [if_neg h, if_neg h]
    | some e =>
        dsimp only
        by_cases hb : e.balanceRaw = balanceRaw
        · rw [if_pos hb, holding_put]
          by_cases h : mint = mint'
          · subst h
            rw [if_pos rfl, if_pos rfl]
            unfold holding
            rw [hl, ← hb]
            rfl
          · rw [if_neg h, if_neg h]
        · rw [if_neg hb, holding_put]
          by_cases h : mint = mint'
          · subst h
            rw [if_pos rfl, if_pos rfl]
            unfold holding
            rw [hl]
            rfl
          · rw [if_neg h, if_neg h]

/-- Whether a mint is a ghost of a complete wallet list. -/
theorem mem_ghosts {pa : PositionAuthority} {mints : List Mint} {now : Nat} {mint : Mint} :
    mint ∈ (pa.byMint.entries.filter fun e =>
      decide (0 < e.2.balanceRaw) && !isSolOrWsolMint e.1 && !mints.contains e.1 &&
        ghostEligibleAfterSnapshotComplete e.2 now).map Sigma.fst ↔
      (isSolOrWsolMint mint || mints.contains mint) = false ∧
        ∃ p, pa.byMint.lookup mint = some p ∧ Holding.ghost now p.holding = true := by
  rw [AList.mem_map_fst_filter]
  unfold Holding.ghost
  simp only [Bool.and_eq_true, Bool.not_eq_true', Bool.or_eq_false_iff]
  constructor
  · rintro ⟨p, hl, ⟨⟨hpos, hsol⟩, hlist⟩, hold⟩
    exact ⟨⟨hsol, hlist⟩, p, hl, hpos, hold⟩
  · rintro ⟨⟨hsol, hlist⟩, p, hl, hpos, hold⟩
    exact ⟨p, hl, ⟨⟨hpos, hsol⟩, hlist⟩, hold⟩

theorem holding_applyWalletSnapshotComplete (pa : PositionAuthority) (mints : List Mint)
    (now : Nat) (mint : Mint) : (pa.applyWalletSnapshotComplete mints now).holding mint =
      if isSolOrWsolMint mint || mints.contains mint then pa.holding mint
      else (pa.holding mint).filter fun h => !Holding.ghost now h := by
  unfold applyWalletSnapshotComplete holding
  dsimp only
  rw [AList.lookup_eraseAll]
  by_cases hout : (isSolOrWsolMint mint || mints.contains mint) = true
  · rw [if_pos hout, if_neg]
    intro hg
    rw [(mem_ghosts.mp hg).1] at hout
    cases hout
  · rw [if_neg hout]
    rw [Bool.not_eq_true] at hout
    cases hl : pa.byMint.lookup mint with
    | none =>
        rw [if_neg]
        · rfl
        · intro hg
          obtain ⟨_, p, hp, _⟩ := mem_ghosts.mp hg
          rw [hl] at hp
          cases hp
    | some p =>
        rw [Option.map_some, Option.filter_some]
        cases hghost : Holding.ghost now p.holding with
        | true =>
            rw [if_pos (mem_ghosts.mpr ⟨hout, p, hl, hghost⟩)]
            rfl
        | false =>
            rw [if_neg]
            · rfl
            · intro hg
              obtain ⟨_, q, hq, hgq⟩ := mem_ghosts.mp hg
              rw [hl] at hq
              cases hq
              rw [hghost] at hgq
              cases hgq

/-- **Every mint's register goes its own way**: a delivery does to it what it does alone. -/
theorem holding_deliver (pa : PositionAuthority) (d : Delivery) (mint : Mint) :
    (pa.deliver d).holding mint = Holding.onDelivery mint (pa.holding mint) d := by
  rw [deliver_eq]
  unfold Holding.onDelivery
  cases d.1.event with
  | none => rfl
  | some event =>
      cases event with
      | buyConfirmed mint' fillRaw => exact holding_applyBuy pa mint' fillRaw d.2 mint
      | sellConfirmed mint' soldRaw => exact holding_applySell pa mint' soldRaw d.2 mint
      | walletBalanceSnapshot mint' balanceRaw =>
          exact holding_applyWalletSnapshot pa mint' balanceRaw mint
      | walletSnapshotComplete mints => exact holding_applyWalletSnapshotComplete pa mints d.2 mint

/-- **So does a run of deliveries.** -/
theorem holding_deliverAll (pa : PositionAuthority) (ds : List Delivery) (mint : Mint) :
    (pa.deliverAll ds).holding mint =
      foldSteps (Holding.onDelivery mint) (pa.holding mint) ds := by
  unfold deliverAll
  induction ds generalizing pa with
  | nil => rfl
  | cons d ds ih => rw [foldSteps_cons, foldSteps_cons, ih, holding_deliver]

/-- `balance_raw` and `sold_raw_total` of a mint, if it is tracked. -/
def amounts (pa : PositionAuthority) (mint : Mint) : Option (UInt64 × UInt64) :=
  (pa.byMint.lookup mint).map fun p => (p.balanceRaw, p.soldRawTotal)

theorem amounts_eq (pa : PositionAuthority) (mint : Mint) :
    pa.amounts mint = (pa.holding mint).map Holding.amounts := by
  unfold amounts holding
  rw [Option.map_map]
  rfl

end PositionAuthority

/-! ## 3. A refreshed register -/

namespace Holding

/-- The register with another time of the last execution. -/
def refreshed (again : Nat) (h : Holding) : Holding :=
  { h with lastExecutionUnixSecs := some again }

/-- An execution of the mint, which writes the time of the last execution. -/
def executes (mint : Mint) : PositionEvent → Bool
  | .buyConfirmed mint' _ => decide (mint' = mint)
  | .sellConfirmed mint' _ => decide (mint' = mint)
  | _ => false

/-- The event treats the register as it treats the refreshed one: a complete wallet list
    without the mint finds both inside the grace, or both outside. -/
def GraceAgrees (mint : Mint) (again : Nat) (event : PositionEvent) (nowSecs : Nat)
    (h : Holding) : Prop :=
  match event with
  | .walletSnapshotComplete mints =>
      isSolOrWsolMint mint = true ∨ mint ∈ mints ∨
        ghost nowSecs h = ghost nowSecs (h.refreshed again)
  | _ => True

/-- **The refreshed time decides no cleanup**: up to the next execution of the mint, or its
    removal, every complete wallet list treats both registers alike. -/
def GraceDecidesNothing (mint : Mint) (again : Nat) : Option Holding → List Delivery → Prop
  | none, _ => True
  | some _, [] => True
  | some h, d :: ds =>
      match d.1.event with
      | none => GraceDecidesNothing mint again (some h) ds
      | some event =>
          executes mint event = true ∨
            GraceAgrees mint again event d.2 h ∧
              GraceDecidesNothing mint again (onEvent mint event d.2 (some h)) ds

/-- An execution forgets the time of the last one. -/
theorem onEvent_executes {mint : Mint} {event : PositionEvent} (hx : executes mint event = true)
    (again nowSecs : Nat) (h : Holding) :
    onEvent mint event nowSecs (some (h.refreshed again)) =
      onEvent mint event nowSecs (some h) := by
  cases event with
  | buyConfirmed mint' fillRaw =>
      have hm : mint' = mint := of_decide_eq_true hx
      subst hm
      simp only [onEvent, if_true]
      rfl
  | sellConfirmed mint' soldRaw =>
      have hm : mint' = mint := of_decide_eq_true hx
      subst hm
      simp only [onEvent, if_true]
      rfl
  | walletBalanceSnapshot => cases hx
  | walletSnapshotComplete => cases hx

/-- Any other event that treats both alike keeps them alike. -/
theorem onEvent_refreshed {mint : Mint} {event : PositionEvent} {again nowSecs : Nat}
    {h : Holding} (hx : executes mint event = false)
    (hg : GraceAgrees mint again event nowSecs h) :
    onEvent mint event nowSecs (some (h.refreshed again)) =
      (onEvent mint event nowSecs (some h)).map (refreshed again) := by
  cases event with
  | buyConfirmed mint' fillRaw =>
      have hm : mint' ≠ mint := of_decide_eq_false hx
      simp only [onEvent, if_neg hm, Option.map_some]
  | sellConfirmed mint' soldRaw =>
      have hm : mint' ≠ mint := of_decide_eq_false hx
      simp only [onEvent, if_neg hm, Option.map_some]
  | walletBalanceSnapshot mint' balanceRaw =>
      simp only [onEvent]
      by_cases hm : mint' = mint
      · rw [if_pos hm, if_pos hm]
        unfold onSnapshot
        by_cases h0 : balanceRaw = 0
        · rw [if_pos h0, if_pos h0]
          rfl
        · rw [if_neg h0, if_neg h0]
          rfl
      · rw [if_neg hm, if_neg hm]
        rfl
  | walletSnapshotComplete mints =>
      simp only [onEvent]
      by_cases hout : (isSolOrWsolMint mint || mints.contains mint) = true
      · rw [if_pos hout, if_pos hout]
        rfl
      · rw [if_neg hout, if_neg hout]
        have heq : ghost nowSecs h = ghost nowSecs (h.refreshed again) := by
          rcases hg with hsol | hin | heq
          · rw [hsol, Bool.true_or] at hout
            exact absurd rfl hout
          · rw [List.contains_iff_mem.mpr hin, Bool.or_true] at hout
            exact absurd rfl hout
          · exact heq
        rw [Option.filter_some, Option.filter_some, ← heq]
        cases ghost nowSecs h with
        | true => rfl
        | false => rfl

/-- A complete wallet list that treats them differently keeps one and drops the other. -/
theorem onEvent_parted {mint : Mint} {event : PositionEvent} {again nowSecs : Nat}
    {h : Holding} (hg : ¬ GraceAgrees mint again event nowSecs h) :
    (onEvent mint event nowSecs (some (h.refreshed again))).map amounts ≠
      (onEvent mint event nowSecs (some h)).map amounts := by
  cases event with
  | buyConfirmed => exact absurd trivial hg
  | sellConfirmed => exact absurd trivial hg
  | walletBalanceSnapshot => exact absurd trivial hg
  | walletSnapshotComplete mints =>
      obtain ⟨hsol, hrest⟩ := not_or.mp hg
      obtain ⟨hin, hne⟩ := not_or.mp hrest
      have hout : (isSolOrWsolMint mint || mints.contains mint) = false := by
        rw [Bool.or_eq_false_iff]
        exact ⟨Bool.not_eq_true _ ▸ hsol, by simpa using hin⟩
      simp only [onEvent, hout, Bool.false_eq_true, if_false, Option.filter_some]
      cases hx : ghost nowSecs h with
      | true =>
          cases hy : ghost nowSecs (h.refreshed again) with
          | true => exact absurd (hx.trans hy.symm) hne
          | false => simp
      | false =>
          cases hy : ghost nowSecs (h.refreshed again) with
          | true => simp
          | false => exact absurd (hx.trans hy.symm) hne

/-- **A register and its refreshed copy show the same amounts at every later point exactly when
    the refreshed time decides no cleanup.** -/
theorem amounts_refreshed_iff (mint : Mint) (again : Nat) (ds : List Delivery)
    (h : Option Holding) :
    (∀ seen, seen <+: ds →
      (foldSteps (onDelivery mint) (h.map (refreshed again)) seen).map amounts =
        (foldSteps (onDelivery mint) h seen).map amounts) ↔
      GraceDecidesNothing mint again h ds := by
  induction ds generalizing h with
  | nil =>
      have hempty : ∀ seen : List Delivery, seen <+: [] →
          (foldSteps (onDelivery mint) (h.map (refreshed again)) seen).map amounts =
            (foldSteps (onDelivery mint) h seen).map amounts := by
        intro seen hs
        rw [List.prefix_nil.mp hs, foldSteps_nil, foldSteps_nil]
        cases h with
        | none => rfl
        | some h => rfl
      refine ⟨fun _ => ?_, fun _ => hempty⟩
      cases h with
      | none => trivial
      | some h => trivial
  | cons d ds ih =>
      cases h with
      | none => exact ⟨fun _ => trivial, fun _ _ _ => rfl⟩
      | some h =>
          unfold GraceDecidesNothing
          -- the first delivery, and then every prefix of the rest
          have hcons : (∀ seen, seen <+: d :: ds →
              (foldSteps (onDelivery mint) ((some h).map (refreshed again)) seen).map amounts =
                (foldSteps (onDelivery mint) (some h) seen).map amounts) ↔
              ∀ seen, seen <+: ds →
                (foldSteps (onDelivery mint)
                    (onDelivery mint (some (h.refreshed again)) d) seen).map amounts =
                  (foldSteps (onDelivery mint) (onDelivery mint (some h) d) seen).map amounts := by
            constructor
            · intro hall seen hs
              exact hall (d :: seen) ((List.prefix_cons_inj d).mpr hs)
            · intro hall seen hs
              cases seen with
              | nil => rfl
              | cons d' seen =>
                  obtain ⟨rfl, hs'⟩ := List.cons_prefix_cons.mp hs
                  exact hall seen hs'
          rw [hcons]
          cases he : d.1.event with
          | none =>
              have hkeep : ∀ h' : Option Holding, onDelivery mint h' d = h' := by
                intro h'
                unfold onDelivery
                rw [he]
              rw [hkeep, hkeep]
              exact ih (some h)
          | some event =>
              have hstep : ∀ h' : Option Holding,
                  onDelivery mint h' d = onEvent mint event d.2 h' := by
                intro h'
                unfold onDelivery
                rw [he]
              rw [hstep, hstep]
              by_cases hx : executes mint event = true
              · rw [onEvent_executes hx]
                exact ⟨fun _ => .inl hx, fun _ _ _ => rfl⟩
              · rw [Bool.not_eq_true] at hx
                by_cases hg : GraceAgrees mint again event d.2 h
                · rw [onEvent_refreshed hx hg, ih]
                  simp [hx, hg]
                · constructor
                  · intro hall
                    exact absurd (hall [] List.nil_prefix) (onEvent_parted hg)
                  · rintro (hx' | ⟨hg', _⟩)
                    · rw [hx] at hx'
                      cases hx'
                    · exact absurd hg' hg

end Holding

/-! ## 4. Redelivery -/

/-- The largest balance, at which a saturating sum stays. -/
def saturated (balanceRaw : UInt64) : Prop := balanceRaw.toNat = Word.size - 1

theorem satAdd_eq_self_iff (a b : UInt64) : Word.satAdd a b = a ↔ b = 0 ∨ saturated a := by
  rw [← UInt64.toNat_inj, Word.toNat_satAdd, ← UInt64.toNat_inj]
  unfold saturated
  have ha := a.toNat_lt
  have hsize : Word.size = 2 ^ 64 := rfl
  have hzero : (0 : UInt64).toNat = 0 := rfl
  omega

theorem satSub_eq_self_iff (a b : UInt64) : Word.satSub a b = a ↔ b = 0 ∨ a = 0 := by
  rw [← UInt64.toNat_inj, Word.toNat_satSub, ← UInt64.toNat_inj, ← UInt64.toNat_inj]
  have hzero : (0 : UInt64).toNat = 0 := rfl
  omega

namespace Holding

/-- The execution leaves the amounts of a tracked mint as they are: nothing is bought or sold,
    or there is no room for what is. -/
def AddsNothing (event : PositionEvent) : Option Holding → Prop
  | none => False
  | some h =>
      match event with
      | .buyConfirmed _ fillRaw => fillRaw = 0 ∨ saturated h.balanceRaw
      | .sellConfirmed _ soldRaw =>
          soldRaw = 0 ∨ h.balanceRaw = 0 ∧ saturated h.soldRawTotal
      | _ => True

/-- **An execution that adds nothing only refreshes the register.** -/
theorem onEvent_addsNothing {mint : Mint} {event : PositionEvent} {h : Option Holding}
    (hx : executes mint event = true) (ha : AddsNothing event h) (nowSecs : Nat) :
    onEvent mint event nowSecs h = h.map (refreshed nowSecs) := by
  cases h with
  | none => exact absurd ha id
  | some h =>
      cases event with
      | buyConfirmed mint' fillRaw =>
          have hm : mint' = mint := of_decide_eq_true hx
          have hb : Word.satAdd h.balanceRaw fillRaw = h.balanceRaw :=
            (satAdd_eq_self_iff _ _).mpr ha
          simp only [onEvent, if_pos hm, onBuy, Option.getD_some, hb]
          rfl
      | sellConfirmed mint' soldRaw =>
          have hm : mint' = mint := of_decide_eq_true hx
          have hb : Word.satSub h.balanceRaw soldRaw = h.balanceRaw :=
            (satSub_eq_self_iff _ _).mpr (ha.imp_right And.left)
          have hs : Word.satAdd h.soldRawTotal soldRaw = h.soldRawTotal :=
            (satAdd_eq_self_iff _ _).mpr (ha.imp_right And.right)
          simp only [onEvent, if_pos hm, onSell, Option.getD_some, hb, hs]
          rfl
      | walletBalanceSnapshot => cases hx
      | walletSnapshotComplete => cases hx

/-- **Any other execution moves the amounts.** -/
theorem addsNothing_of_amounts {mint : Mint} {event : PositionEvent} {nowSecs : Nat}
    {h : Option Holding} (hx : executes mint event = true)
    (heq : (onEvent mint event nowSecs h).map amounts = h.map amounts) :
    AddsNothing event h := by
  cases event with
  | buyConfirmed mint' fillRaw =>
      have hm : mint' = mint := of_decide_eq_true hx
      simp only [onEvent, if_pos hm, onBuy, Option.map_some] at heq
      cases h with
      | none => cases heq
      | some h =>
          have hb := congrArg Prod.fst (Option.some.inj heq)
          exact (satAdd_eq_self_iff _ _).mp hb
  | sellConfirmed mint' soldRaw =>
      have hm : mint' = mint := of_decide_eq_true hx
      simp only [onEvent, if_pos hm, onSell, Option.map_some] at heq
      cases h with
      | none => cases heq
      | some h =>
          have hb := (satSub_eq_self_iff _ _).mp (congrArg Prod.fst (Option.some.inj heq))
          have hs := (satAdd_eq_self_iff _ _).mp (congrArg Prod.snd (Option.some.inj heq))
          rcases hb with h0 | hb
          · exact .inl h0
          · exact hs.imp_right fun hs => ⟨hb, hs⟩
  | walletBalanceSnapshot => cases hx
  | walletSnapshotComplete => cases hx

/-- An execution does nothing to another mint. -/
theorem onEvent_other {mint mint' : Mint} {event : PositionEvent}
    (hx : executes mint event = true) (hne : executes mint' event = false) (nowSecs : Nat)
    (h : Option Holding) : onEvent mint' event nowSecs h = h := by
  cases event with
  | buyConfirmed m fillRaw => exact if_neg (of_decide_eq_false hne)
  | sellConfirmed m soldRaw => exact if_neg (of_decide_eq_false hne)
  | walletBalanceSnapshot => cases hx
  | walletSnapshotComplete => cases hx

end Holding

/-- A result that reaches the reducer is an execution of one mint. -/
theorem PositionEvent.executes_of_result {exec : ExecutionResult} {event : PositionEvent}
    (h : PositionEvent.tryFromExecutionResult exec = some event) :
    ∃ mint, Holding.executes mint event = true := by
  unfold PositionEvent.tryFromExecutionResult at h
  by_cases hc : exec.status ≠ .confirmed
  · rw [if_pos hc] at h
    cases h
  rw [if_neg hc] at h
  cases hm : exec.tokenMint with
  | none =>
      rw [hm] at h
      cases h
  | some mint =>
      rw [hm] at h
      refine ⟨mint, ?_⟩
      by_cases hs : isSolOrWsolMint mint = true
      · simp only [if_pos hs] at h
        cases h
      · simp only [if_neg hs] at h
        split at h
        · obtain ⟨fill, _, rfl⟩ := Option.map_eq_some_iff.mp h
          exact decide_eq_true rfl
        · obtain ⟨sold, _, rfl⟩ := Option.map_eq_some_iff.mp h
          exact decide_eq_true rfl
        · cases h

namespace PositionAuthority

/-- **When a redelivered result is absorbed**: the reducer drops it; or its mint is tracked, its
    fill adds nothing to what the mint holds, and no later complete wallet list without the mint
    falls between the grace after the old time of the last execution and the grace after the
    redelivery. -/
def RedeliveryAbsorbed (pa : PositionAuthority) (exec : ExecutionResult) (again : Nat)
    (after : List Delivery) : Prop :=
  ∀ event, PositionEvent.tryFromExecutionResult exec = some event →
    ∀ mint, Holding.executes mint event = true →
      Holding.AddsNothing event (pa.holding mint) ∧
        Holding.GraceDecidesNothing mint again (pa.holding mint) after

/-- What the redelivery itself does to a register. -/
theorem holding_redelivered (pa : PositionAuthority) (exec : ExecutionResult) (again : Nat)
    (mint : Mint) : (pa.deliver (.execution exec, again)).holding mint =
      match PositionEvent.tryFromExecutionResult exec with
      | some event => Holding.onEvent mint event again (pa.holding mint)
      | none => pa.holding mint :=
  holding_deliver pa (.execution exec, again) mint

theorem deliverAll_append (pa : PositionAuthority) (ds ds' : List Delivery) :
    pa.deliverAll (ds ++ ds') = (pa.deliverAll ds).deliverAll ds' :=
  foldSteps_append deliver pa ds ds'

/-- The redelivery alone, in any state. -/
theorem amounts_redelivered_iff (pa : PositionAuthority) (exec : ExecutionResult) (again : Nat)
    (after : List Delivery) :
    (∀ seen, seen <+: after → ∀ mint,
      ((pa.deliver (.execution exec, again)).deliverAll seen).amounts mint =
        (pa.deliverAll seen).amounts mint) ↔
      pa.RedeliveryAbsorbed exec again after := by
  simp only [amounts_eq, holding_deliverAll, holding_redelivered]
  unfold RedeliveryAbsorbed
  cases hev : PositionEvent.tryFromExecutionResult exec with
  | none =>
      refine ⟨fun _ event he => ?_, fun _ _ _ _ => rfl⟩
      cases he
  | some event =>
      dsimp only
      obtain ⟨mint₀, hx₀⟩ := PositionEvent.executes_of_result hev
      constructor
      · intro hall event' he mint hx
        cases he
        have hadd : Holding.AddsNothing event (pa.holding mint) :=
          Holding.addsNothing_of_amounts hx (hall [] List.nil_prefix mint)
        refine ⟨hadd, (Holding.amounts_refreshed_iff mint again after (pa.holding mint)).mp ?_⟩
        intro seen hs
        rw [← Holding.onEvent_addsNothing hx hadd]
        exact hall seen hs mint
      · intro habs seen hs mint
        by_cases hx : Holding.executes mint event = true
        · obtain ⟨hadd, hgrace⟩ := habs event rfl mint hx
          rw [Holding.onEvent_addsNothing hx hadd]
          exact (Holding.amounts_refreshed_iff mint again after _).mpr hgrace seen hs
        · rw [Bool.not_eq_true] at hx
          rw [Holding.onEvent_other hx₀ hx]

/-- **A redelivered execution result leaves balances and sold totals as they are, at once and
    at every later point, exactly when it is absorbed.** -/
theorem redelivery_absorbed_iff (pa : PositionAuthority) (before : List Delivery)
    (exec : ExecutionResult) (first : Nat) (between : List Delivery) (again : Nat)
    (after : List Delivery) :
    (∀ seen, seen <+: after → ∀ mint,
      (pa.deliverAll (before ++ (.execution exec, first) :: between ++
        (.execution exec, again) :: seen)).amounts mint =
      (pa.deliverAll (before ++ (.execution exec, first) :: between ++ seen)).amounts mint) ↔
    (pa.deliverAll (before ++ (.execution exec, first) :: between)).RedeliveryAbsorbed
      exec again after := by
  rw [← amounts_redelivered_iff]
  simp only [deliverAll_append]
  rfl

/-- A confirmed BUY. -/
def confirmedBuy (mint : Mint) (fillRaw : UInt64) : ExecutionResult :=
  { intentId := "intent", status := .confirmed, tokenMint := some mint, side := some "BUY",
    fillIn := none, fillOut := some fillRaw, walletSolDeltaLamports := none }

/-- **A redelivered BUY is counted twice.** -/
theorem redelivered_buy_counted_twice :
    ¬ ∀ (pa : PositionAuthority) (before : List Delivery) (exec : ExecutionResult) (first : Nat)
        (between : List Delivery) (again : Nat) (after : List Delivery) (mint : Mint),
        exec.status = .confirmed →
        (pa.deliverAll (before ++ (.execution exec, first) :: between ++
          (.execution exec, again) :: after)).amounts mint =
        (pa.deliverAll (before ++ (.execution exec, first) :: between ++ after)).amounts mint := by
  intro hall
  have h := hall .new [] (confirmedBuy "mint" 100) 0 [] 1 [] "mint" rfl
  exact absurd h (by decide)

end PositionAuthority

end IronCrab

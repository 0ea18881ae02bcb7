/-
  File:      IronCrab/Track/AdmissionRefinement.lean
  Subject:   FIXED-CAP ADMISSION REFINES A BOOK OF GROUPS UNDER A HARD CAP.

  The abstract machine keeps a `Book`: the cap, the groups, and the owners in the order they were
  last inserted, replaced or touched. `Book.after` replays one operation on it from the
  operation's result alone.

  * `OpCorrect` -- what one operation keeps and what its result reports;
  * `run_correct` -- every operation on a state that meets the invariant and has a stamp to give;
  * **`admission_refines`** -- every run from an empty admission, whatever stamp it starts with.
-/
import IronCrab.Track.AdmissionShrink

namespace IronCrab.Track

open ExplicitOwnership

/-! ## 1. Operations -/

/-- The operations on an admission. -/
inductive AdmissionOp where
  | tryAdmitNewGroup (owner : ExplicitOwner) (pubkeys : List Pubkey)
  | tryAdmitWithEviction (owner : ExplicitOwner) (pubkeys : List Pubkey)
  | tryReplaceGroup (owner : ExplicitOwner) (pubkeys : List Pubkey)
  | removeGroup (owner : ExplicitOwner)
  | touchGroup (owner : ExplicitOwner)
  | tryShrinkCap (newCap : Nat)
  | shedOwnerGroupsForConsumers (consumers : List ExplicitConsumer) (maxGroups : Nat)
  | shedArbOwnerGroups (maxGroups : Nat) (isMustHot : Pubkey → Bool)
  | clearForRestore

/-- Their results. -/
inductive AdmissionOutcome where
  | admitted (result : FixedCapAdmissionResult)
  | evict (result : EvictingAdmissionResult)
  | replace (result : FixedCapReplaceResult)
  | remove (result : FixedCapRemoveResult)
  | touch (result : TouchResult)
  | shrink (result : CapShrinkResult)
  | shed (result : ShedOwnerGroupsResult)
  | cleared

/-- The operation's result and the state it leaves. -/
def AdmissionOp.run (adm : FixedCapAdmission) : AdmissionOp → AdmissionOutcome × FixedCapAdmission
  | tryAdmitNewGroup owner pubkeys => (adm.tryAdmitNewGroup owner pubkeys).map .admitted id
  | tryAdmitWithEviction owner pubkeys => (adm.tryAdmitWithEviction owner pubkeys).map .evict id
  | tryReplaceGroup owner pubkeys => (adm.tryReplaceGroup owner pubkeys).map .replace id
  | removeGroup owner => (adm.removeGroup owner).map .remove id
  | touchGroup owner => (adm.touchGroup owner).map .touch id
  | tryShrinkCap newCap => (adm.tryShrinkCap newCap).map .shrink id
  | shedOwnerGroupsForConsumers consumers maxGroups =>
      (adm.shedOwnerGroupsForConsumers consumers maxGroups).map .shed id
  | shedArbOwnerGroups maxGroups isMustHot =>
      (adm.shedArbOwnerGroups maxGroups isMustHot).map .shed id
  | clearForRestore => (.cleared, adm.clearForRestore)

/-- **The book after an operation**, from the operation and its result. -/
def Book.after (b : Book) : AdmissionOp → AdmissionOutcome → Book
  | .tryAdmitNewGroup owner pubkeys, .admitted (.inserted _)
  | .tryAdmitNewGroup owner pubkeys, .admitted .ownerAddedNoNewPubkey
  | .tryAdmitWithEviction owner pubkeys, .evict (.insertedNoEviction _)
  | .tryReplaceGroup owner pubkeys, .replace (.replaced _ _) =>
      b.put owner (normalizePubkeys pubkeys)
  | .tryAdmitWithEviction owner pubkeys, .evict (.insertedWithEviction _ _ victims _) =>
      (b.drop victims).put owner (normalizePubkeys pubkeys)
  | .removeGroup owner, .remove (.removed _) => b.drop [owner]
  | .touchGroup owner, .touch .touched => b.touch owner
  | .tryShrinkCap newCap, .shrink (.converged _ _ _ victims _) =>
      { b.drop victims with cap := newCap }
  | .tryShrinkCap newCap, .shrink (.noOpAlreadyWithinCap _ _) => { b with cap := newCap }
  | .shedOwnerGroupsForConsumers consumers maxGroups, _ =>
      b.drop ((b.recency.filter fun o => decide (o.consumer ∈ consumers)).take maxGroups)
  | .shedArbOwnerGroups maxGroups isMustHot, _ =>
      b.drop (((b.recency.filter fun o => decide (o.consumer = .arb)).filter
        fun o => !FixedCapAdmission.mustStayHot isMustHot o).take maxGroups)
  | .clearForRestore, _ => ⟨b.cap, .empty, []⟩
  | _, _ => b

/-- The result rejects: nothing was to change. -/
def AdmissionOutcome.Rejects : AdmissionOutcome → Prop
  | admitted (.rejectedCap _ _) | admitted .rejectedInvalidGroup
  | admitted .rejectedExistingOwner => True
  | evict .rejectedExistingOwner | evict (.rejectedProtected _ _)
  | evict .rejectedInvalidInput => True
  | replace .unchanged | replace (.rejectedCap _ _) | replace .rejectedInvalidGroup
  | replace .rejectedMissingOwner => True
  | remove .notFound => True
  | touch .notFound => True
  | shrink (.rejectedCapIncrease _ _) | shrink (.protectedOverflow _ _)
  | shrink .rejectedInvalidInput => True
  | _ => False

/-- The result reports a violated invariant. -/
def AdmissionOutcome.IsViolation : AdmissionOutcome → Prop
  | admitted .internalInvariantViolation => True
  | evict .internalInvariantViolation => True
  | replace .planningInvariantViolation | replace (.internalInvariantViolation _) => True
  | remove .planningInvariantViolation | remove (.internalInvariantViolation _) => True
  | touch .internalInvariantViolation => True
  | shrink .internalInvariantViolation => True
  | _ => False

/-- The `physical_added` that a result reports. -/
def AdmissionOutcome.physicalAdded : AdmissionOutcome → Option (List Pubkey)
  | admitted (.inserted added) => some added
  | admitted .ownerAddedNoNewPubkey => some []
  | evict (.insertedNoEviction added) => some added
  | evict (.insertedWithEviction added _ _ _) => some added
  | replace (.replaced added _) => some added
  | _ => none

/-- The `physical_removed` that a result reports. -/
def AdmissionOutcome.physicalRemoved : AdmissionOutcome → Option (List Pubkey)
  | evict (.insertedWithEviction _ removed _ _) => some removed
  | replace (.replaced _ removed) => some removed
  | remove (.removed removed) => some removed
  | shrink (.converged _ _ removed _ _) => some removed
  | _ => none

/-- The pubkeys that a shed counts. -/
def AdmissionOutcome.pubkeysEvicted : AdmissionOutcome → Option Nat
  | shed result => some result.pubkeysEvicted
  | _ => none

/-- **What one operation keeps and what its result reports.** -/
structure OpCorrect (adm : FixedCapAdmission) (op : AdmissionOp) (out : AdmissionOutcome)
    (adm' : FixedCapAdmission) : Prop where
  inv : adm'.Inv
  book : adm'.book = adm.book.after op out
  rejects : out.Rejects → adm' = adm
  noViolation : ¬ out.IsViolation
  added : ∀ added, out.physicalAdded = some added →
    ListsExactly added (adm'.ownership.union \ adm.ownership.union)
  removed : ∀ removed, out.physicalRemoved = some removed →
    ListsExactly removed (adm.ownership.union \ adm'.ownership.union)
  evicted : ∀ n, out.pubkeysEvicted = some n →
    n = (adm.ownership.union \ adm'.ownership.union).card

/-! ## 2. One operation -/

section Step

variable {adm : FixedCapAdmission} (h : adm.Inv)
include h

/-- An operation that leaves the state as it is and reports nothing. -/
theorem OpCorrect.same {op : AdmissionOp} {out : AdmissionOutcome}
    (hbook : adm.book.after op out = adm.book) (hno : ¬ out.IsViolation)
    (hadded : out.physicalAdded = none) (hremoved : out.physicalRemoved = none)
    (hevicted : out.pubkeysEvicted = none) : OpCorrect adm op out adm where
  inv := h
  book := hbook.symm
  rejects := fun _ => rfl
  noViolation := hno
  added := by
    intro l hl
    rw [hadded] at hl
    cases hl
  removed := by
    intro l hl
    rw [hremoved] at hl
    cases hl
  evicted := by
    intro n hn
    rw [hevicted] at hn
    cases hn

omit h in
/-- An operation that succeeds: what it lists is what came and what went. -/
theorem OpCorrect.success {op : AdmissionOp} {out : AdmissionOutcome} {adm' : FixedCapAdmission}
    (hinv : adm'.Inv) (hbook : adm'.book = adm.book.after op out) (hrejects : ¬ out.Rejects)
    (hno : ¬ out.IsViolation) (hevicted : out.pubkeysEvicted = none)
    (hadded : ∀ added, out.physicalAdded = some added →
      ListsExactly added (adm'.ownership.union \ adm.ownership.union))
    (hremoved : ∀ removed, out.physicalRemoved = some removed →
      ListsExactly removed (adm.ownership.union \ adm'.ownership.union)) :
    OpCorrect adm op out adm' where
  inv := hinv
  book := hbook
  rejects := fun hr => absurd hr hrejects
  noViolation := hno
  added := hadded
  removed := hremoved
  evicted := by
    intro n hn
    rw [hevicted] at hn
    cases hn

/-- Owners that are shed, and the count of what goes with them. -/
theorem OpCorrect.shed {op : AdmissionOp} {result : ShedOwnerGroupsResult}
    {victims : List ExplicitOwner}
    (hcount : result.pubkeysEvicted =
      (adm.ownership.union \ (adm.dropAll victims).ownership.union).card)
    (hbook : adm.book.after op (.shed result) = adm.book.drop victims) :
    OpCorrect adm op (.shed result) (adm.dropAll victims) := by
  obtain ⟨hinv, hdrop⟩ := h.drop victims
  exact {
    inv := hinv
    book := hdrop.trans hbook.symm
    rejects := False.elim
    noViolation := id
    added := fun _ hl => by cases hl
    removed := fun _ hl => by cases hl
    evicted := fun _ hn => (Option.some.inj hn).symm.trans hcount }

theorem correct_tryAdmitNewGroup (hroom : adm.HasRoom) (owner : ExplicitOwner)
    (pubkeys : List Pubkey) :
    OpCorrect adm (.tryAdmitNewGroup owner pubkeys)
      (.admitted (adm.tryAdmitNewGroup owner pubkeys).1)
      (adm.tryAdmitNewGroup owner pubkeys).2 := by
  have hspec := FixedCapAdmission.tryAdmitNewGroup_spec h owner pubkeys
  generalize adm.tryAdmitNewGroup owner pubkeys = res at hspec
  obtain ⟨result, adm'⟩ := res
  cases result with
  | inserted added =>
      obtain ⟨hadmits, hexact⟩ := hspec
      exact .success hadmits.inv hadmits.book id id rfl
        (fun _ hl => by cases hl; exact hexact) fun _ hl => by cases hl
  | ownerAddedNoNewPubkey =>
      obtain ⟨hadmits, hsame⟩ := hspec
      refine .success hadmits.inv hadmits.book id id rfl (fun _ hl => ?_) fun _ hl => by cases hl
      cases hl
      refine ⟨List.nodup_nil, ?_⟩
      rw [hsame, Finset.sdiff_self]
      rfl
  | rejectedCap required available =>
      obtain ⟨_, _, _, _, _, rfl⟩ := hspec
      exact .same h rfl id rfl rfl rfl
  | rejectedInvalidGroup =>
      obtain ⟨_, rfl⟩ := hspec
      exact .same h rfl id rfl rfl rfl
  | rejectedExistingOwner =>
      obtain ⟨_, rfl⟩ := hspec
      exact .same h rfl id rfl rfl rfl
  | internalInvariantViolation => exact absurd hroom hspec.1

theorem correct_tryAdmitWithEviction (hroom : adm.HasRoom) (owner : ExplicitOwner)
    (pubkeys : List Pubkey) :
    OpCorrect adm (.tryAdmitWithEviction owner pubkeys)
      (.evict (adm.tryAdmitWithEviction owner pubkeys).1)
      (adm.tryAdmitWithEviction owner pubkeys).2 := by
  have hspec := FixedCapAdmission.tryAdmitWithEviction_spec h owner pubkeys
  generalize adm.tryAdmitWithEviction owner pubkeys = res at hspec
  obtain ⟨result, adm'⟩ := res
  cases result with
  | insertedNoEviction added =>
      obtain ⟨hadmits, hexact⟩ := hspec
      exact .success hadmits.inv hadmits.book id id rfl
        (fun _ hl => by cases hl; exact hexact) fun _ hl => by cases hl
  | insertedWithEviction added removed victims tier =>
      obtain ⟨hevicts, hadded, hremoved⟩ := hspec
      exact .success hevicts.inv hevicts.book id id rfl
        (fun _ hl => by cases hl; exact hadded) fun _ hl => by cases hl; exact hremoved
  | rejectedExistingOwner =>
      obtain ⟨_, rfl⟩ := hspec
      exact .same h rfl id rfl rfl rfl
  | rejectedProtected added required =>
      obtain ⟨_, _, _, _, rfl⟩ := hspec
      exact .same h rfl id rfl rfl rfl
  | rejectedInvalidInput =>
      obtain ⟨_, rfl⟩ := hspec
      exact .same h rfl id rfl rfl rfl
  | internalInvariantViolation => exact absurd hroom hspec.1

theorem correct_tryReplaceGroup (hroom : adm.HasRoom) (owner : ExplicitOwner)
    (pubkeys : List Pubkey) :
    OpCorrect adm (.tryReplaceGroup owner pubkeys)
      (.replace (adm.tryReplaceGroup owner pubkeys).1) (adm.tryReplaceGroup owner pubkeys).2 := by
  have hspec := FixedCapAdmission.tryReplaceGroup_spec h owner pubkeys
  generalize adm.tryReplaceGroup owner pubkeys = res at hspec
  obtain ⟨result, adm'⟩ := res
  cases result with
  | replaced added removed =>
      obtain ⟨_, _, _, hinv, hbook, hadded, hremoved⟩ := hspec
      exact .success hinv hbook id id rfl
        (fun _ hl => by cases hl; exact hadded) fun _ hl => by cases hl; exact hremoved
  | unchanged =>
      obtain ⟨_, _, rfl⟩ := hspec
      exact .same h rfl id rfl rfl rfl
  | rejectedCap required available =>
      obtain ⟨_, _, _, rfl⟩ := hspec
      exact .same h rfl id rfl rfl rfl
  | rejectedInvalidGroup =>
      obtain ⟨_, rfl⟩ := hspec
      exact .same h rfl id rfl rfl rfl
  | rejectedMissingOwner =>
      obtain ⟨_, rfl⟩ := hspec
      exact .same h rfl id rfl rfl rfl
  | planningInvariantViolation => exact absurd hroom hspec.1
  | internalInvariantViolation recovery => exact hspec.elim

theorem correct_removeGroup (owner : ExplicitOwner) :
    OpCorrect adm (.removeGroup owner) (.remove (adm.removeGroup owner).1)
      (adm.removeGroup owner).2 := by
  have hspec := FixedCapAdmission.removeGroup_spec h owner
  generalize adm.removeGroup owner = res at hspec
  obtain ⟨result, adm'⟩ := res
  cases result with
  | removed removed =>
      obtain ⟨_, rfl, hexact⟩ := hspec
      obtain ⟨hinv, hbook⟩ := h.drop [owner]
      exact .success hinv hbook id id rfl
        (fun _ hl => by cases hl) fun _ hl => by cases hl; exact hexact
  | notFound =>
      obtain ⟨_, rfl⟩ := hspec
      exact .same h rfl id rfl rfl rfl
  | planningInvariantViolation => exact hspec.elim
  | internalInvariantViolation recovery => exact hspec.elim

theorem correct_touchGroup (hroom : adm.HasRoom) (owner : ExplicitOwner) :
    OpCorrect adm (.touchGroup owner) (.touch (adm.touchGroup owner).1)
      (adm.touchGroup owner).2 := by
  have hspec := FixedCapAdmission.touchGroup_spec h owner
  generalize adm.touchGroup owner = res at hspec
  obtain ⟨result, adm'⟩ := res
  cases result with
  | touched =>
      obtain ⟨_, hinv, hbook⟩ := hspec
      exact .success hinv hbook id id rfl
        (fun _ hl => by cases hl) fun _ hl => by cases hl
  | notFound =>
      obtain ⟨_, rfl⟩ := hspec
      exact .same h rfl id rfl rfl rfl
  | internalInvariantViolation => exact absurd hroom hspec.1

theorem correct_tryShrinkCap (newCap : Nat) :
    OpCorrect adm (.tryShrinkCap newCap) (.shrink (adm.tryShrinkCap newCap).1)
      (adm.tryShrinkCap newCap).2 := by
  have hspec := FixedCapAdmission.tryShrinkCap_spec h newCap
  generalize adm.tryShrinkCap newCap = res at hspec
  obtain ⟨result, adm'⟩ := res
  cases result with
  | converged oldCap newCap' removed victims tier =>
      obtain ⟨_, _, _, _, _, _, hinv, hbook, hexact, _⟩ := hspec
      exact .success hinv hbook id id rfl
        (fun _ hl => by cases hl) fun _ hl => by cases hl; exact hexact
  | noOpAlreadyWithinCap oldCap newCap' =>
      obtain ⟨_, _, _, hinv, rfl⟩ := hspec
      exact .success hinv rfl id id rfl
        (fun _ hl => by cases hl) fun _ hl => by cases hl
  | rejectedCapIncrease oldCap requested =>
      obtain ⟨_, rfl⟩ := hspec
      exact .same h rfl id rfl rfl rfl
  | protectedOverflow wallet requested =>
      obtain ⟨_, rfl⟩ := hspec
      exact .same h rfl id rfl rfl rfl
  | rejectedInvalidInput => exact hspec.elim
  | internalInvariantViolation => exact hspec.elim

/-- **Every operation is correct** on a state that meets the invariant and has a stamp to give. -/
theorem run_correct (hroom : adm.HasRoom) (op : AdmissionOp) :
    OpCorrect adm op (op.run adm).1 (op.run adm).2 := by
  cases op with
  | tryAdmitNewGroup owner pubkeys => exact correct_tryAdmitNewGroup h hroom owner pubkeys
  | tryAdmitWithEviction owner pubkeys => exact correct_tryAdmitWithEviction h hroom owner pubkeys
  | tryReplaceGroup owner pubkeys => exact correct_tryReplaceGroup h hroom owner pubkeys
  | removeGroup owner => exact correct_removeGroup h owner
  | touchGroup owner => exact correct_touchGroup h hroom owner
  | tryShrinkCap newCap => exact correct_tryShrinkCap h newCap
  | shedOwnerGroupsForConsumers consumers maxGroups =>
      have hshed := FixedCapAdmission.shedOwnerGroupsForConsumers_spec h consumers maxGroups
      dsimp only at hshed
      show OpCorrect adm _ (.shed (adm.shedOwnerGroupsForConsumers consumers maxGroups).1)
        (adm.shedOwnerGroupsForConsumers consumers maxGroups).2
      rw [hshed]
      exact .shed h rfl rfl
  | shedArbOwnerGroups maxGroups isMustHot =>
      obtain ⟨skipped, hshed⟩ := FixedCapAdmission.shedArbOwnerGroups_spec h maxGroups isMustHot
      show OpCorrect adm _ (.shed (adm.shedArbOwnerGroups maxGroups isMustHot).1)
        (adm.shedArbOwnerGroups maxGroups isMustHot).2
      rw [hshed]
      exact .shed h rfl rfl
  | clearForRestore =>
      exact .success (FixedCapAdmission.inv_clearForRestore adm) rfl id id rfl
        (fun _ hl => by cases hl) fun _ hl => by cases hl

end Step

/-! ## 3. Every run -/

/-- `isize::MAX`: no collection has more elements, its allocation fails first. -/
def isizeMax : Nat := 2 ^ 63 - 1

/-- The maps of a state fit in the address space. -/
def FixedCapAdmission.Allocated (adm : FixedCapAdmission) : Prop := adm.ownerLru.len ≤ isizeMax

instance (adm : FixedCapAdmission) : Decidable adm.Allocated :=
  inferInstanceAs (Decidable (_ ≤ _))

/-- One operation, whose state after it could be allocated. -/
def AdmissionStep (adm : FixedCapAdmission) (label : AdmissionOp × AdmissionOutcome)
    (adm' : FixedCapAdmission) : Prop :=
  label.1.run adm = (label.2, adm') ∧ adm'.Allocated

theorem AdmissionOp.step (op : AdmissionOp) {adm : FixedCapAdmission}
    (halloc : (op.run adm).2.Allocated) :
    AdmissionStep adm (op, (op.run adm).1) (op.run adm).2 :=
  ⟨rfl, halloc⟩

/-- An empty admission with this cap, whatever its next stamp. -/
def FixedCapAdmission.start (cap : Nat) (nextTouchStamp : UInt64) : FixedCapAdmission :=
  { FixedCapAdmission.new cap with nextTouchStamp := nextTouchStamp.toNat }

/-- The book replayed from the operations and their results alone. -/
def Book.replay (b : Book) (tr : List (AdmissionOp × AdmissionOutcome)) : Book :=
  tr.foldl (fun b label => b.after label.1 label.2) b

/-- There is always a stamp to give where the maps fit in the address space. -/
theorem FixedCapAdmission.Allocated.hasRoom {adm : FixedCapAdmission} (h : adm.Allocated) :
    adm.HasRoom := by
  intro _
  unfold FixedCapAdmission.Allocated isizeMax at h
  unfold u64Max
  omega

/-- What every run keeps. -/
structure RunInv (cap : Nat) (tr : List (AdmissionOp × AdmissionOutcome))
    (adm : FixedCapAdmission) : Prop where
  inv : adm.Inv
  allocated : adm.Allocated
  book : adm.book = Book.replay ⟨cap, .empty, []⟩ tr

theorem runInv_of_run {cap : Nat} {start : UInt64} {tr : List (AdmissionOp × AdmissionOutcome)}
    {adm : FixedCapAdmission}
    (hr : Machine.Run AdmissionStep (FixedCapAdmission.start cap start) tr adm) :
    RunInv cap tr adm := by
  refine hr.invariant (I := fun tr adm => RunInv cap tr adm) ?_ ?_
  · have hstart : start.toNat ≤ u64Max := Nat.le_sub_one_of_lt start.toNat_lt
    exact ⟨FixedCapAdmission.inv_new cap hstart, Nat.zero_le _, rfl⟩
  · rintro tr adm ⟨op, out⟩ adm' _ hinv ⟨hrun, halloc⟩
    have hop := run_correct hinv.inv hinv.allocated.hasRoom op
    dsimp only at hrun
    rw [hrun] at hop
    refine ⟨hop.inv, halloc, ?_⟩
    unfold Book.replay
    rw [List.foldl_append, hop.book, hinv.book]
    rfl

end IronCrab.Track

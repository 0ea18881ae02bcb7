/-
  File:      IronCrab/Track/Admission.lean
  Subject:   ADMISSION UNDER A HARD CAP (`explicit_admission.rs`).

  `FixedCapAdmission` keeps an ownership store, a cached size of its union, and a last-touch stamp
  for each owner. Every operation plans first and commits after: an insert and a replacement write
  in place and roll back when the store reports another change than the planned one; an eviction
  and a shrink build a whole candidate state, validate it, and swap it in.

  Counts (`usize`) are natural numbers: every one of them is the size of a collection of 32-byte
  keys or at most the cap. Stamps (`u64`) are natural numbers with the checked additions written
  out. The forced failures of the tests are left out.
-/
import IronCrab.Track.EvictionExact
import IronCrab.Lib.Recency

namespace IronCrab.Track

/-! ## 1. Results -/

/-- `InvariantViolationRecovery`. -/
inductive InvariantViolationRecovery where
  | previousRestored
  | ownerRemovedFailClosed
  deriving DecidableEq

/-- `FixedCapRemoveRecovery`. -/
inductive FixedCapRemoveRecovery where
  | previousRestored
  | ownerRemovedFailClosed
  | recoveryFailed
  deriving DecidableEq

/-- `FixedCapAdmissionResult`. -/
inductive FixedCapAdmissionResult where
  | inserted (physicalAdded : List Pubkey)
  | ownerAddedNoNewPubkey
  | rejectedCap (requiredUnique availableUnique : Nat)
  | rejectedInvalidGroup
  | rejectedExistingOwner
  | internalInvariantViolation
  deriving DecidableEq

/-- `FixedCapRemoveResult`. -/
inductive FixedCapRemoveResult where
  | removed (physicalRemoved : List Pubkey)
  | notFound
  | planningInvariantViolation
  | internalInvariantViolation (recovery : FixedCapRemoveRecovery)
  deriving DecidableEq

/-- `EvictingAdmissionResult`. -/
inductive EvictingAdmissionResult where
  | insertedNoEviction (physicalAdded : List Pubkey)
  | insertedWithEviction (physicalAdded physicalRemoved : List Pubkey)
      (victims : List ExplicitOwner) (openedThrough : EvictionTier)
  | rejectedExistingOwner
  | rejectedProtected (incomingPhysicalAdded requiredToFree : Nat)
  | rejectedInvalidInput
  | internalInvariantViolation
  deriving DecidableEq

/-- `CapShrinkResult`. -/
inductive CapShrinkResult where
  | converged (oldCap newCap : Nat) (physicalRemoved : List Pubkey)
      (victims : List ExplicitOwner) (openedThrough : EvictionTier)
  | noOpAlreadyWithinCap (oldCap newCap : Nat)
  | rejectedCapIncrease (oldCap requestedCap : Nat)
  | protectedOverflow (walletPhysical requestedCap : Nat)
  | rejectedInvalidInput
  | internalInvariantViolation
  deriving DecidableEq

/-- `ShedOwnerGroupsResult`. -/
structure ShedOwnerGroupsResult where
  groupsEvicted : Nat
  pubkeysEvicted : Nat
  groupsSkippedMustHot : Nat
  deriving DecidableEq

/-- `TouchResult`. -/
inductive TouchResult where
  | touched
  | notFound
  | internalInvariantViolation
  deriving DecidableEq

/-- `FixedCapReplaceResult`. -/
inductive FixedCapReplaceResult where
  | replaced (physicalAdded physicalRemoved : List Pubkey)
  | unchanged
  | rejectedCap (requiredUnique availableUnique : Nat)
  | rejectedInvalidGroup
  | rejectedMissingOwner
  | planningInvariantViolation
  | internalInvariantViolation (recovery : InvariantViolationRecovery)
  deriving DecidableEq

/-! ## 2. Stamps -/

/-- `u64::MAX`. -/
def u64Max : Nat := 2 ^ 64 - 1

/-- `u64::checked_add`. -/
def checkedAdd (a b : Nat) : Option Nat := if a + b ≤ u64Max then some (a + b) else none

/-- `StampPlanError`, without the forced failure. -/
inductive StampPlanError where
  | overflow
  | missingOwnerStamp

/-- `StampPlan`. -/
structure StampPlan where
  ownerLru : OwnerLru
  nextTouchStamp : Nat

/-- `required_existing_stamp`. -/
def requiredExistingStamp (ownerLru : OwnerLru) (owner : ExplicitOwner) :
    Except StampPlanError Nat :=
  match ownerLru.lookup owner with
  | none => .error .missingOwnerStamp
  | some stamp => .ok stamp

/-- The loop of `renormalize_stamps_fallible`. -/
def renormalizeLoop : Nat → OwnerLru → List ExplicitOwner → Except StampPlanError OwnerLru
  | _, renormalized, [] => .ok renormalized
  | rank, renormalized, owner :: owners =>
      match checkedAdd rank 1 with
      | none => .error .overflow
      | some stamp => renormalizeLoop (rank + 1) (renormalized.insert owner stamp) owners

/-- `renormalize_stamps_fallible`. -/
def renormalizeStampsFallible (ownerLru : OwnerLru) : Except StampPlanError OwnerLru :=
  if ownerLru.len = 0 then .ok .empty
  else renormalizeLoop 0 .empty (Recency.order ownerLru)

/-- `prepare_stamp_base`: the stamps to write into, and the one to give. -/
def prepareStampBase (ownerLru : OwnerLru) (nextTouchStamp : Nat) :
    Except StampPlanError (OwnerLru × Nat) :=
  if nextTouchStamp = u64Max then
    match renormalizeStampsFallible ownerLru with
    | .error e => .error e
    | .ok map =>
        match checkedAdd map.len 1 with
        | none => .error .overflow
        | some assign => .ok (map, assign)
  else .ok (ownerLru, nextTouchStamp)

/-- `plan_stamp_assign`. -/
def planStampAssign (ownerLru : OwnerLru) (nextTouchStamp : Nat) (owner : ExplicitOwner) :
    Except StampPlanError StampPlan :=
  match prepareStampBase ownerLru nextTouchStamp with
  | .error e => .error e
  | .ok (map, assignStamp) =>
      match checkedAdd assignStamp 1 with
      | none => .error .overflow
      | some newNext => .ok ⟨map.insert owner assignStamp, newNext⟩

/-- `plan_stamp_remove`. -/
def planStampRemove (ownerLru : OwnerLru) (nextTouchStamp : Nat) (owner : ExplicitOwner) :
    StampPlan := ⟨ownerLru.erase owner, nextTouchStamp⟩

/-! ## 3. The state and its plans -/

/-- `FixedCapAdmission`. -/
structure FixedCapAdmission where
  cap : Nat
  physicalLen : Nat
  ownership : ExplicitOwnership
  ownerLru : OwnerLru
  nextTouchStamp : Nat

/-- `EvictingCandidateState`. -/
structure EvictingCandidateState where
  ownership : ExplicitOwnership
  ownerLru : OwnerLru
  nextTouchStamp : Nat
  physicalLen : Nat

/-- `InsertPlan`. -/
structure InsertPlan where
  preLen : Nat
  projectedFinalLen : Nat
  physicalAdded : List Pubkey

/-- `ReplacePlan`. -/
structure ReplacePlan where
  preLen : Nat
  projectedFinalLen : Nat
  oldNormalized : List Pubkey
  physicalAdded : List Pubkey
  physicalRemoved : List Pubkey

/-- `RemovePlan`. -/
structure RemovePlan where
  preLen : Nat
  projectedFinalLen : Nat
  oldNormalized : List Pubkey
  physicalRemoved : List Pubkey
  oldRefcounts : List (Pubkey × Nat)

/-- `RemovePlanOutcome`. -/
inductive RemovePlanOutcome where
  | ready (plan : RemovePlan)
  | planningInvariantViolation

/-- `InsertPlanOutcome`. -/
inductive InsertPlanOutcome where
  | ready (plan : InsertPlan)
  | rejectCap (requiredUnique availableUnique : Nat)
  | internalInvariantViolation

/-- `ReplacePlanOutcome`. -/
inductive ReplacePlanOutcome where
  | ready (plan : ReplacePlan)
  | unchanged
  | rejectCap (requiredUnique availableUnique : Nat)
  | internalInvariantViolation

namespace FixedCapAdmission

/-- `new`. -/
def new (cap : Nat) : FixedCapAdmission := ⟨cap, 0, .new, .empty, 1⟩

/-- `len`. -/
def len (adm : FixedCapAdmission) : Nat := adm.physicalLen

/-- `clear_for_restore`. -/
def clearForRestore (adm : FixedCapAdmission) : FixedCapAdmission := new adm.cap

/-- `snapshot_owner_groups`. -/
def snapshotOwnerGroups (adm : FixedCapAdmission) : List OwnerGroupSnapshot :=
  adm.ownership.snapshotOwnerGroups

/-- `owner_group`. -/
def ownerGroup (adm : FixedCapAdmission) (owner : ExplicitOwner) : Option (List Pubkey) :=
  adm.ownership.ownerGroup owner

/-- `snapshot_lru_entries`. -/
def snapshotLruEntries (adm : FixedCapAdmission) : List OwnerLruEntry :=
  adm.ownerLru.entries.map fun e => ⟨e.1, e.2⟩

/-- `last_touch`. -/
def lastTouch (adm : FixedCapAdmission) (owner : ExplicitOwner) : Option Nat :=
  adm.ownerLru.lookup owner

/-- `apply_stamp_plan`. -/
def applyStampPlan (adm : FixedCapAdmission) (plan : StampPlan) : FixedCapAdmission :=
  { adm with ownerLru := plan.ownerLru, nextTouchStamp := plan.nextTouchStamp }

/-- `plan_insert`, `plan_insert_readonly`. The `checked_add` of the two lengths stays within the
    cap. -/
def planInsert (adm : FixedCapAdmission) (normalized : List Pubkey) : InsertPlanOutcome :=
  let preLen := adm.physicalLen
  let physicalAdded :=
    normalized.filter fun pubkey => decide (adm.ownership.ownerRefcount pubkey = 0)
  let requiredUnique := physicalAdded.length
  let availableUnique := adm.cap - preLen
  if availableUnique < requiredUnique then .rejectCap requiredUnique availableUnique
  else
    let projectedFinalLen := preLen + requiredUnique
    if adm.cap < projectedFinalLen then .internalInvariantViolation
    else .ready ⟨preLen, projectedFinalLen, physicalAdded⟩

/-- The merge walk of `plan_replace`: the pubkeys that come and those that go. Every turn takes a
    pubkey off one of the lists, so the lengths together are enough fuel. -/
def replaceWalk (ownership : ExplicitOwnership) :
    Nat → List Pubkey → List Pubkey → List Pubkey × List Pubkey
  | 0, _, _ => ([], [])
  | _ + 1, [], [] => ([], [])
  | fuel + 1, old :: olds, [] =>
      let (added, removed) := replaceWalk ownership fuel olds []
      if ownership.ownerRefcount old = 1 then (added, old :: removed) else (added, removed)
  | fuel + 1, [], new :: news =>
      let (added, removed) := replaceWalk ownership fuel [] news
      if ownership.ownerRefcount new = 0 then (new :: added, removed) else (added, removed)
  | fuel + 1, old :: olds, new :: news =>
      if old = new then replaceWalk ownership fuel olds news
      else if old < new then
        let (added, removed) := replaceWalk ownership fuel olds (new :: news)
        if ownership.ownerRefcount old = 1 then (added, old :: removed) else (added, removed)
      else
        let (added, removed) := replaceWalk ownership fuel (old :: olds) news
        if ownership.ownerRefcount new = 0 then (new :: added, removed) else (added, removed)

/-- `plan_replace`. -/
def planReplace (adm : FixedCapAdmission) (oldNormalized newNormalized : List Pubkey) :
    ReplacePlanOutcome :=
  if oldNormalized = newNormalized then .unchanged
  else
    let preLen := adm.physicalLen
    let (physicalAdded, physicalRemoved) := replaceWalk adm.ownership
      (oldNormalized.length + newNormalized.length) oldNormalized newNormalized
    let requiredUnique := physicalAdded.length
    let availableUnique := adm.cap - preLen + physicalRemoved.length
    if availableUnique < requiredUnique then .rejectCap requiredUnique availableUnique
    else if preLen < physicalRemoved.length then .internalInvariantViolation
    else
      let projectedFinalLen := preLen - physicalRemoved.length + physicalAdded.length
      if adm.cap < projectedFinalLen then .internalInvariantViolation
      else .ready ⟨preLen, projectedFinalLen, oldNormalized, physicalAdded, physicalRemoved⟩

/-- `plan_remove`. -/
def planRemove (adm : FixedCapAdmission) (oldNormalized : List Pubkey) : RemovePlanOutcome :=
  let preLen := adm.physicalLen
  let oldRefcounts := oldNormalized.map fun pubkey => (pubkey, adm.ownership.ownerRefcount pubkey)
  if oldRefcounts.any fun e => decide (e.2 = 0) then .planningInvariantViolation
  else
    let physicalRemoved := (oldRefcounts.filter fun e => decide (e.2 = 1)).map Prod.fst
    if preLen < physicalRemoved.length then .planningInvariantViolation
    else .ready ⟨preLen, preLen - physicalRemoved.length, oldNormalized, physicalRemoved,
      oldRefcounts⟩

/-! ## 4. Recovery -/

/-- `remove_group`, and again while the owner is still there; each turn takes a group. -/
def removeUntilAbsent (owner : ExplicitOwner) : Nat → ExplicitOwnership → ExplicitOwnership
  | 0, ownership => ownership
  | fuel + 1, ownership =>
      if (ownership.ownerGroup owner).isSome then
        match ownership.removeGroup owner with
        | (none, ownership) => ownership
        | (some _, ownership) => removeUntilAbsent owner fuel ownership
      else ownership

/-- The removal that the fail-closed paths share. -/
def removeClosed (owner : ExplicitOwner) (ownership : ExplicitOwnership) : ExplicitOwnership :=
  let ownership := (ownership.removeGroup owner).2
  removeUntilAbsent owner ownership.groups.len ownership

/-- `reconcile_lru_cold`: stamps without an owner go, then owners without a stamp. -/
def reconcileLruCold (adm : FixedCapAdmission) : FixedCapAdmission :=
  let ownershipOwners := adm.ownership.groups.keys
  let ownerLru := adm.ownerLru.retain fun owner _ => decide (owner ∈ ownershipOwners)
  let ownersMissingStamp := ownershipOwners.filter fun owner => !ownerLru.contains owner
  { adm with
    ownerLru := ownerLru
    ownership := ownersMissingStamp.foldl (fun ownership owner => removeClosed owner ownership)
      adm.ownership }

/-- `reconcile_cold`, which is also `reconcile_physical_len_cold`. -/
def reconcileCold (adm : FixedCapAdmission) : FixedCapAdmission :=
  let adm := adm.reconcileLruCold
  { adm with physicalLen := adm.ownership.len }

/-- `fail_closed_remove_owner_stamp_mismatch`. -/
def failClosedRemoveOwnerStampMismatch (adm : FixedCapAdmission) (owner : ExplicitOwner) :
    FixedCapAdmission :=
  { adm with
    ownership := removeClosed owner adm.ownership
    ownerLru := adm.ownerLru.erase owner }.reconcileCold

/-- `rollback_failed_insert`. -/
def rollbackFailedInsert (adm : FixedCapAdmission) (owner : ExplicitOwner) (preLen : Nat)
    (normalized : List Pubkey) : FixedCapAdmissionResult × FixedCapAdmission :=
  match adm.ownership.removeGroup owner with
  | (some snapshot, ownership) =>
      if snapshot.pubkeys = normalized then
        let adm := { adm with ownership := ownership, physicalLen := preLen }
        if (adm.ownerGroup owner).isSome then (.internalInvariantViolation, adm.reconcileCold)
        else (.internalInvariantViolation, adm)
      else (.internalInvariantViolation, { adm with ownership := ownership }.reconcileCold)
  | (none, ownership) =>
      (.internalInvariantViolation, { adm with ownership := ownership }.reconcileCold)

/-- `fail_closed_remove_owner_after_replace`. -/
def failClosedRemoveOwnerAfterReplace (adm : FixedCapAdmission) (owner : ExplicitOwner) :
    FixedCapReplaceResult × FixedCapAdmission :=
  (.internalInvariantViolation .ownerRemovedFailClosed,
    adm.failClosedRemoveOwnerStampMismatch owner)

/-- `rollback_failed_replace`. -/
def rollbackFailedReplace (adm : FixedCapAdmission) (owner : ExplicitOwner) (plan : ReplacePlan)
    (preTouchStamp : Nat) : FixedCapReplaceResult × FixedCapAdmission :=
  match adm.ownership.upsertGroup owner plan.oldNormalized with
  | (.error _, ownership) => { adm with ownership := ownership }.failClosedRemoveOwnerAfterReplace
      owner
  | (.ok change, ownership) =>
      let adm := { adm with ownership := ownership }
      let restored := match change with
        | .replaced _ _ | .unchanged => decide (adm.ownerGroup owner = some plan.oldNormalized)
        | .newGroup _ => false
      if restored then
        let adm := { adm with ownerLru := adm.ownerLru.insert owner preTouchStamp }
        if adm.ownerGroup owner = some plan.oldNormalized ∧
            adm.lastTouch owner = some preTouchStamp then
          (.internalInvariantViolation .previousRestored, { adm with physicalLen := plan.preLen })
        else adm.failClosedRemoveOwnerAfterReplace owner
      else adm.failClosedRemoveOwnerAfterReplace owner

/-- `fail_closed_remove_owner_after_remove`. -/
def failClosedRemoveOwnerAfterRemove (adm : FixedCapAdmission) (owner : ExplicitOwner) :
    FixedCapRemoveResult × FixedCapAdmission :=
  let ownership := (adm.ownership.removeGroup owner).2
  let adm := { adm with ownership := ownership }
  if (adm.ownerGroup owner).isSome then
    (.internalInvariantViolation .recoveryFailed, { adm with physicalLen := ownership.len })
  else
    (.internalInvariantViolation .ownerRemovedFailClosed,
      { adm with ownerLru := adm.ownerLru.erase owner }.reconcileCold)

/-- `rollback_failed_remove`. -/
def rollbackFailedRemove (adm : FixedCapAdmission) (owner : ExplicitOwner) (plan : RemovePlan)
    (preTouchStamp : Nat) : FixedCapRemoveResult × FixedCapAdmission :=
  match adm.ownership.upsertGroup owner plan.oldNormalized with
  | (.error _, ownership) => { adm with ownership := ownership }.failClosedRemoveOwnerAfterRemove
      owner
  | (.ok change, ownership) =>
      let adm := { adm with ownership := ownership }
      let restored := match change with
        | .newGroup _ => decide (adm.ownerGroup owner = some plan.oldNormalized)
        | .replaced _ _ | .unchanged => false
      if restored then
        let adm := { adm with ownerLru := adm.ownerLru.insert owner preTouchStamp }
        if adm.ownerGroup owner = some plan.oldNormalized ∧
            adm.lastTouch owner = some preTouchStamp then
          (.internalInvariantViolation .previousRestored, { adm with physicalLen := plan.preLen })
        else adm.failClosedRemoveOwnerAfterRemove owner
      else adm.failClosedRemoveOwnerAfterRemove owner

/-! ## 5. In-place operations -/

/-- `touch_group`. -/
def touchGroup (adm : FixedCapAdmission) (owner : ExplicitOwner) :
    TouchResult × FixedCapAdmission :=
  match adm.ownership.ownerGroup owner with
  | none => (.notFound, adm)
  | some _ =>
      match adm.ownerLru.lookup owner with
      | none => (.internalInvariantViolation, adm.failClosedRemoveOwnerStampMismatch owner)
      | some _ =>
          match planStampAssign adm.ownerLru adm.nextTouchStamp owner with
          | .error _ => (.internalInvariantViolation, adm)
          | .ok stampPlan => (.touched, adm.applyStampPlan stampPlan)

/-- `new_group_matches_plan`. -/
def newGroupMatchesPlan (change : GroupChange) (expectedPhysicalAdded : List Pubkey) : Bool :=
  match change with
  | .newGroup physicalAdded => decide (physicalAdded = expectedPhysicalAdded)
  | .unchanged | .replaced _ _ => false

/-- `try_admit_new_group`. -/
def tryAdmitNewGroup (adm : FixedCapAdmission) (owner : ExplicitOwner) (pubkeys : List Pubkey) :
    FixedCapAdmissionResult × FixedCapAdmission :=
  let normalized := normalizePubkeys pubkeys
  if normalized = [] then (.rejectedInvalidGroup, adm)
  else if (adm.ownership.ownerGroup owner).isSome then (.rejectedExistingOwner, adm)
  else
    match adm.planInsert normalized with
    | .rejectCap requiredUnique availableUnique =>
        (.rejectedCap requiredUnique availableUnique, adm)
    | .internalInvariantViolation => (.internalInvariantViolation, adm)
    | .ready plan =>
        match planStampAssign adm.ownerLru adm.nextTouchStamp owner with
        | .error _ => (.internalInvariantViolation, adm)
        | .ok stampPlan =>
            match adm.ownership.upsertGroup owner normalized with
            | (.error _, ownership) =>
                (.rejectedInvalidGroup, { adm with ownership := ownership })
            | (.ok change, ownership) =>
                let adm := { adm with ownership := ownership }
                if newGroupMatchesPlan change plan.physicalAdded then
                  let adm := { adm with physicalLen := plan.projectedFinalLen }.applyStampPlan
                    stampPlan
                  if plan.physicalAdded = [] then (.ownerAddedNoNewPubkey, adm)
                  else (.inserted plan.physicalAdded, adm)
                else adm.rollbackFailedInsert owner plan.preLen normalized

/-- `replaced_group_matches_plan`. -/
def replacedGroupMatchesPlan (change : GroupChange)
    (expectedPhysicalAdded expectedPhysicalRemoved : List Pubkey) : Bool :=
  match change with
  | .replaced physicalAdded physicalRemoved =>
      decide (physicalAdded = expectedPhysicalAdded) &&
        decide (physicalRemoved = expectedPhysicalRemoved)
  | .newGroup _ | .unchanged => false

/-- `try_replace_group`. -/
def tryReplaceGroup (adm : FixedCapAdmission) (existingOwner : ExplicitOwner)
    (replacementPubkeys : List Pubkey) : FixedCapReplaceResult × FixedCapAdmission :=
  let normalized := normalizePubkeys replacementPubkeys
  if normalized = [] then (.rejectedInvalidGroup, adm)
  else
    match adm.ownership.ownerGroup existingOwner with
    | none => (.rejectedMissingOwner, adm)
    | some oldNormalized =>
        match requiredExistingStamp adm.ownerLru existingOwner with
        | .error .missingOwnerStamp =>
            (.internalInvariantViolation .ownerRemovedFailClosed,
              adm.failClosedRemoveOwnerStampMismatch existingOwner)
        | .error .overflow => (.planningInvariantViolation, adm)
        | .ok preTouchStamp =>
            if oldNormalized = normalized then (.unchanged, adm)
            else
              match adm.planReplace oldNormalized normalized with
              | .unchanged => (.unchanged, adm)
              | .rejectCap requiredUnique availableUnique =>
                  (.rejectedCap requiredUnique availableUnique, adm)
              | .internalInvariantViolation => (.planningInvariantViolation, adm)
              | .ready plan =>
                  match planStampAssign adm.ownerLru adm.nextTouchStamp existingOwner with
                  | .error _ => (.planningInvariantViolation, adm)
                  | .ok stampPlan =>
                      match adm.ownership.upsertGroup existingOwner normalized with
                      | (.error _, ownership) =>
                          (.rejectedInvalidGroup, { adm with ownership := ownership })
                      | (.ok change, ownership) =>
                          let adm := { adm with ownership := ownership }
                          if replacedGroupMatchesPlan change plan.physicalAdded
                              plan.physicalRemoved then
                            (.replaced plan.physicalAdded plan.physicalRemoved,
                              { adm with physicalLen := plan.projectedFinalLen }.applyStampPlan
                                stampPlan)
                          else adm.rollbackFailedReplace existingOwner plan preTouchStamp

/-- `removed_group_matches_plan`. -/
def removedGroupMatchesPlan (snapshot : Option OwnerGroupSnapshot) (owner : ExplicitOwner)
    (plan : RemovePlan) (expectedPhysicalRemoved : List Pubkey) (ownership : ExplicitOwnership) :
    Bool :=
  match snapshot with
  | none => false
  | some snapshot =>
      decide (snapshot.owner = owner) && (decide (snapshot.pubkeys = plan.oldNormalized) &&
        ((ownership.ownerGroup owner).isNone &&
          ((plan.oldRefcounts.all fun e =>
              -- `checked_sub(1)`
              decide (1 ≤ e.2) && decide (ownership.ownerRefcount e.1 = e.2 - 1)) &&
            decide (((plan.oldRefcounts.filter fun e => decide (e.2 = 1)).map
                Prod.fst).insertionSort (· ≤ ·) =
              expectedPhysicalRemoved.insertionSort (· ≤ ·)))))

/-- `remove_group`. -/
def removeGroup (adm : FixedCapAdmission) (owner : ExplicitOwner) :
    FixedCapRemoveResult × FixedCapAdmission :=
  match adm.ownership.ownerGroup owner with
  | none => (.notFound, adm)
  | some oldNormalized =>
      match requiredExistingStamp adm.ownerLru owner with
      | .error .missingOwnerStamp =>
          (.internalInvariantViolation .ownerRemovedFailClosed,
            adm.failClosedRemoveOwnerStampMismatch owner)
      | .error .overflow => (.planningInvariantViolation, adm)
      | .ok preTouchStamp =>
          match adm.planRemove oldNormalized with
          | .planningInvariantViolation => (.planningInvariantViolation, adm)
          | .ready plan =>
              let stampPlan := planStampRemove adm.ownerLru adm.nextTouchStamp owner
              let (snapshot, ownership) := adm.ownership.removeGroup owner
              let adm := { adm with ownership := ownership }
              if removedGroupMatchesPlan snapshot owner plan plan.physicalRemoved ownership then
                (.removed plan.physicalRemoved,
                  { adm with physicalLen := plan.projectedFinalLen }.applyStampPlan stampPlan)
              else adm.rollbackFailedRemove owner plan preTouchStamp

/-! ## 6. Candidate states -/

/-- The store built anew from the groups of the owners that stay. -/
def rebuildSurvivors (victims : Finset ExplicitOwner) :
    List OwnerGroupSnapshot → ExplicitOwnership → Option ExplicitOwnership
  | [], ownership => some ownership
  | group :: groups, ownership =>
      if group.owner ∈ victims then rebuildSurvivors victims groups ownership
      else
        match ownership.upsertGroup group.owner group.pubkeys with
        | (.error _, _) => none
        | (.ok _, ownership) => rebuildSurvivors victims groups ownership

/-- `build_shrink_candidate`. -/
def buildShrinkCandidate (adm : FixedCapAdmission) (plan : CapShrinkSelectionPlan) :
    Option EvictingCandidateState :=
  match rebuildSurvivors plan.victims.toFinset adm.snapshotOwnerGroups .new with
  | none => none
  | some ownership => some
      { ownership := ownership
        ownerLru := plan.victims.foldl (fun lru victim => lru.erase victim) adm.ownerLru
        nextTouchStamp := adm.nextTouchStamp
        physicalLen := ownership.len }

/-- `build_evicting_candidate`. -/
def buildEvictingCandidate (adm : FixedCapAdmission) (incomingOwner : ExplicitOwner)
    (incomingPubkeys : List Pubkey) (plan : VictimSelectionPlan) :
    Option EvictingCandidateState :=
  if incomingOwner ∈ plan.victims.toFinset then none
  else
    match rebuildSurvivors plan.victims.toFinset adm.snapshotOwnerGroups .new with
    | none => none
    | some ownership =>
        match ownership.upsertGroup incomingOwner incomingPubkeys with
        | (.error _, _) => none
        | (.ok _, ownership) =>
            let survivorLru := plan.victims.foldl (fun lru victim => lru.erase victim) adm.ownerLru
            match planStampAssign survivorLru adm.nextTouchStamp incomingOwner with
            | .error _ => none
            | .ok stampPlan => some
                { ownership := ownership
                  ownerLru := stampPlan.ownerLru
                  nextTouchStamp := stampPlan.nextTouchStamp
                  physicalLen := ownership.len }

/-- The owners that have a group, as a set. -/
def ownersOf (ownership : ExplicitOwnership) : Finset ExplicitOwner :=
  (ownership.snapshotOwnerGroups.map (·.owner)).toFinset

/-- Both candidates' victims have no group and no stamp. -/
def victimsGone (candidate : EvictingCandidateState) (victims : List ExplicitOwner) : Bool :=
  victims.all fun victim =>
    (candidate.ownership.ownerGroup victim).isNone && !candidate.ownerLru.contains victim

/-- The stamps of an owner are there and equal. -/
def sameStamp (live candidate : OwnerLru) (owner : ExplicitOwner) : Bool :=
  match live.lookup owner, candidate.lookup owner with
  | some live, some cand => decide (live = cand)
  | _, _ => false

/-- The pubkeys of one store that another does not have, sorted. -/
def differenceOf (ownership other : ExplicitOwnership) : List Pubkey :=
  ((normalizePubkeys ownership.snapshotPubkeys).filter fun pubkey =>
    decide (pubkey ∉ other.snapshotPubkeys.toFinset)).insertionSort (· ≤ ·)

/-- The candidate can be planned with again. -/
def planningOk (candidate : EvictingCandidateState) : Bool :=
  match EvictionPlanningSnapshot.fromOwnership candidate.ownership
    (candidate.ownerLru.entries.map fun e => ⟨e.1, e.2⟩) with
  | .ok _ => true
  | .error _ => false

/-- `validate_shrink_candidate`. -/
def validateShrinkCandidate (adm : FixedCapAdmission) (candidate : EvictingCandidateState)
    (plan : CapShrinkSelectionPlan) (newCap : Nat) : Bool :=
  let victims := plan.victims.toFinset
  decide (ownersOf candidate.ownership = ownersOf adm.ownership \ victims) &&
  (victimsGone candidate plan.victims &&
  ((adm.snapshotOwnerGroups.all fun group =>
    decide (group.owner ∈ victims) ||
      (decide (adm.ownership.ownerGroup group.owner = candidate.ownership.ownerGroup group.owner) &&
        sameStamp adm.ownerLru candidate.ownerLru group.owner)) &&
  (decide (candidate.nextTouchStamp = adm.nextTouchStamp) &&
  (decide (differenceOf adm.ownership candidate.ownership =
    plan.physicalFreed.insertionSort (· ≤ ·)) &&
  (decide (candidate.ownership.snapshotPubkeys.toFinset ⊆
    adm.ownership.snapshotPubkeys.toFinset) &&
  (decide (candidate.physicalLen = plan.projectedFinalLen) &&
  (decide (candidate.physicalLen ≤ newCap) &&
  (decide (candidate.physicalLen = candidate.ownership.len) &&
  planningOk candidate))))))))

/-- The owners sorted by their stamps in a map, then by owner. -/
def sortedByStamp (lru : OwnerLru) (owners : List ExplicitOwner) : List ExplicitOwner :=
  ((owners.map fun owner => (owner, Recency.stamp lru owner)).insertionSort
    Recency.StampLe).map Prod.fst

/-- The survivors are in the same stamp order before and after. -/
def survivorOrderKept (adm : FixedCapAdmission) (candidate : EvictingCandidateState)
    (victims : Finset ExplicitOwner) (incomingOwner : ExplicitOwner) : Bool :=
  let live := adm.ownerLru.keys.filter fun owner => decide (owner ∉ victims)
  let cand := candidate.ownerLru.keys.filter fun owner => decide (owner ≠ incomingOwner)
  decide (live.length = cand.length) &&
    decide (sortedByStamp adm.ownerLru live = sortedByStamp candidate.ownerLru cand)

/-- The incoming owner's stamp is the newest and the next one follows it. -/
def incomingStampNewest (candidate : EvictingCandidateState) (incomingOwner : ExplicitOwner) :
    Bool :=
  match candidate.ownerLru.lookup incomingOwner with
  | none => false
  | some incomingStamp =>
      (candidate.ownerLru.entries.all fun e =>
        decide (e.1 = incomingOwner) || decide (e.2 < incomingStamp)) &&
      (decide (candidate.ownerLru.values.foldl max 0 < candidate.nextTouchStamp) &&
      -- `saturating_add(1)`
      decide (candidate.nextTouchStamp = min (incomingStamp + 1) u64Max))

/-- `validate_evicting_candidate`. -/
def validateEvictingCandidate (adm : FixedCapAdmission) (candidate : EvictingCandidateState)
    (plan : VictimSelectionPlan) (incomingOwner : ExplicitOwner)
    (incomingPubkeys physicalAdded : List Pubkey) : Bool :=
  let victims := plan.victims.toFinset
  decide (ownersOf candidate.ownership =
    insert incomingOwner (ownersOf adm.ownership \ victims)) &&
  (victimsGone candidate plan.victims &&
  (decide (candidate.ownership.ownerGroup incomingOwner = some incomingPubkeys) &&
  ((adm.snapshotOwnerGroups.all fun group =>
    decide (group.owner ∈ victims) || (decide (group.owner = incomingOwner) ||
      (decide (adm.ownership.ownerGroup group.owner = candidate.ownership.ownerGroup group.owner) &&
        (decide (adm.nextTouchStamp = u64Max) ||
          sameStamp adm.ownerLru candidate.ownerLru group.owner)))) &&
  ((!decide (adm.nextTouchStamp = u64Max) ||
    survivorOrderKept adm candidate victims incomingOwner) &&
  (incomingStampNewest candidate incomingOwner &&
  (decide (differenceOf adm.ownership candidate.ownership =
    plan.physicalFreed.insertionSort (· ≤ ·)) &&
  (decide (differenceOf candidate.ownership adm.ownership =
    physicalAdded.insertionSort (· ≤ ·)) &&
  (decide (physicalAdded.length = plan.incomingPhysicalAdded) &&
  (decide (candidate.physicalLen = plan.projectedFinalLen) &&
  (decide (candidate.physicalLen ≤ adm.cap) &&
  (decide (candidate.physicalLen = candidate.ownership.len) &&
  planningOk candidate)))))))))))

/-- The candidate swapped in. -/
def commitCandidate (adm : FixedCapAdmission) (candidate : EvictingCandidateState) :
    FixedCapAdmission :=
  { adm with
    ownership := candidate.ownership
    ownerLru := candidate.ownerLru
    nextTouchStamp := candidate.nextTouchStamp
    physicalLen := candidate.physicalLen }

/-! ## 7. Evicting operations -/

/-- `plan_admit_with_eviction`. -/
def planAdmitWithEviction (adm : FixedCapAdmission) (incomingOwner : ExplicitOwner)
    (incomingPubkeys : List Pubkey) : VictimSelectionResult :=
  match EvictionPlanningSnapshot.fromOwnership adm.ownership adm.snapshotLruEntries with
  | .error _ => .internalInvariantViolation
  | .ok snapshot =>
      selectEvictionVictims snapshot ⟨incomingOwner, normalizePubkeys incomingPubkeys, adm.cap⟩

/-- `map_fast_path_admit`. -/
def mapFastPathAdmit (adm : FixedCapAdmission) (owner : ExplicitOwner)
    (normalized : List Pubkey) : EvictingAdmissionResult × FixedCapAdmission :=
  match adm.tryAdmitNewGroup owner normalized with
  | (.inserted physicalAdded, adm) => (.insertedNoEviction physicalAdded, adm)
  | (.ownerAddedNoNewPubkey, adm) => (.insertedNoEviction [], adm)
  | (.rejectedExistingOwner, adm) => (.rejectedExistingOwner, adm)
  | (.rejectedInvalidGroup, adm) => (.rejectedInvalidInput, adm)
  | (.rejectedCap _ _, adm) | (.internalInvariantViolation, adm) =>
      (.internalInvariantViolation, adm)

/-- `try_admit_with_eviction`. -/
def tryAdmitWithEviction (adm : FixedCapAdmission) (owner : ExplicitOwner)
    (pubkeys : List Pubkey) : EvictingAdmissionResult × FixedCapAdmission :=
  let normalized := normalizePubkeys pubkeys
  if normalized = [] then (.rejectedInvalidInput, adm)
  else if (adm.ownership.ownerGroup owner).isSome then (.rejectedExistingOwner, adm)
  else
    let physicalAdded :=
      normalized.filter fun pubkey => decide (adm.ownership.ownerRefcount pubkey = 0)
    match adm.planInsert normalized with
    | .ready _ => adm.mapFastPathAdmit owner normalized
    | .internalInvariantViolation => (.internalInvariantViolation, adm)
    | .rejectCap _ _ =>
        match adm.planAdmitWithEviction owner normalized with
        | .noEvictionNeeded _ _ => (.internalInvariantViolation, adm)
        | .rejectedProtected added required => (.rejectedProtected added required, adm)
        | .rejectedInvalidInput => (.rejectedInvalidInput, adm)
        | .internalInvariantViolation => (.internalInvariantViolation, adm)
        | .planned plan =>
            match adm.buildEvictingCandidate owner normalized plan with
            | none => (.internalInvariantViolation, adm)
            | some candidate =>
                if adm.validateEvictingCandidate candidate plan owner normalized
                    physicalAdded then
                  (.insertedWithEviction physicalAdded plan.physicalFreed plan.victims
                    plan.openedThrough, adm.commitCandidate candidate)
                else (.internalInvariantViolation, adm)

/-- `wallet_physical_len`. -/
def walletPhysicalLen (adm : FixedCapAdmission) : Nat :=
  ((adm.snapshotOwnerGroups.filter fun group => decide (group.consumer = .wallet)).flatMap
    (·.pubkeys)).toFinset.card

/-- `wallet_demand_exceeds_cap`. -/
def walletDemandExceedsCap (adm : FixedCapAdmission) (cap : Nat) : Bool :=
  decide (cap < adm.walletPhysicalLen)

/-- `plan_cap_shrink`. -/
def planCapShrink (adm : FixedCapAdmission) (targetCap : Nat) : CapShrinkSelectionResult :=
  match EvictionPlanningSnapshot.fromOwnership adm.ownership adm.snapshotLruEntries with
  | .error _ => .internalInvariantViolation
  | .ok snapshot => selectCapShrinkVictims snapshot targetCap

/-- `try_shrink_cap`. -/
def tryShrinkCap (adm : FixedCapAdmission) (newCap : Nat) :
    CapShrinkResult × FixedCapAdmission :=
  let oldCap := adm.cap
  if oldCap < newCap then (.rejectedCapIncrease oldCap newCap, adm)
  else if adm.walletDemandExceedsCap newCap then
    (.protectedOverflow adm.walletPhysicalLen newCap, adm)
  else if adm.physicalLen ≤ newCap then
    (.noOpAlreadyWithinCap oldCap newCap, { adm with cap := newCap })
  else
    match adm.planCapShrink newCap with
    | .noShrinkNeeded => (.noOpAlreadyWithinCap oldCap newCap, { adm with cap := newCap })
    | .rejectedProtected _ =>
        if adm.walletDemandExceedsCap newCap then
          (.protectedOverflow adm.walletPhysicalLen newCap, adm)
        else (.internalInvariantViolation, adm)
    | .internalInvariantViolation => (.internalInvariantViolation, adm)
    | .planned plan =>
        match adm.buildShrinkCandidate plan with
        | none => (.internalInvariantViolation, adm)
        | some candidate =>
            if adm.validateShrinkCandidate candidate plan newCap then
              (.converged oldCap newCap plan.physicalFreed plan.victims plan.openedThrough,
                { adm.commitCandidate candidate with cap := newCap })
            else (.internalInvariantViolation, adm)

/-! ## 8. Shedding -/

/-- The owners of some consumers, least recently touched first (`sort_by_key`). -/
def shedVictims (adm : FixedCapAdmission) (allowed : ExplicitConsumer → Bool) :
    List ExplicitOwner :=
  ((adm.ownerLru.entries.filter fun e => allowed e.1.consumer).insertionSort
    fun a b => a.2 ≤ b.2).map Prod.fst

/-- The loop of `shed_owner_groups_for_consumers`. -/
def shedLoop : List ExplicitOwner → ShedOwnerGroupsResult → FixedCapAdmission →
    ShedOwnerGroupsResult × FixedCapAdmission
  | [], res, adm => (res, adm)
  | owner :: owners, res, adm =>
      match adm.removeGroup owner with
      | (.removed physicalRemoved, adm) =>
          shedLoop owners { res with
            groupsEvicted := res.groupsEvicted + 1
            pubkeysEvicted := res.pubkeysEvicted + physicalRemoved.length } adm
      | (_, adm) => shedLoop owners res adm

/-- `shed_owner_groups_for_consumers`. -/
def shedOwnerGroupsForConsumers (adm : FixedCapAdmission) (consumers : List ExplicitConsumer)
    (maxGroups : Nat) : ShedOwnerGroupsResult × FixedCapAdmission :=
  if maxGroups = 0 ∨ consumers = [] then (⟨0, 0, 0⟩, adm)
  else
    shedLoop ((adm.shedVictims fun consumer => decide (consumer ∈ consumers)).take maxGroups)
      ⟨0, 0, 0⟩ adm

/-- A pool that must stay hot. -/
def mustStayHot (isMustHot : Pubkey → Bool) (owner : ExplicitOwner) : Bool :=
  match owner.ownerKey with
  | .pool pool => isMustHot pool
  | _ => false

/-- The loop of `shed_arb_owner_groups`. -/
def shedArbLoop (maxGroups : Nat) (isMustHot : Pubkey → Bool) :
    List ExplicitOwner → ShedOwnerGroupsResult → FixedCapAdmission →
    ShedOwnerGroupsResult × FixedCapAdmission
  | [], res, adm => (res, adm)
  | owner :: owners, res, adm =>
      if maxGroups ≤ res.groupsEvicted then (res, adm)
      else if mustStayHot isMustHot owner then
        shedArbLoop maxGroups isMustHot owners
          { res with groupsSkippedMustHot := res.groupsSkippedMustHot + 1 } adm
      else
        match adm.removeGroup owner with
        | (.removed physicalRemoved, adm) =>
            shedArbLoop maxGroups isMustHot owners { res with
              groupsEvicted := res.groupsEvicted + 1
              pubkeysEvicted := res.pubkeysEvicted + physicalRemoved.length } adm
        | (_, adm) => shedArbLoop maxGroups isMustHot owners res adm

/-- `shed_arb_owner_groups`. -/
def shedArbOwnerGroups (adm : FixedCapAdmission) (maxGroups : Nat) (isMustHot : Pubkey → Bool) :
    ShedOwnerGroupsResult × FixedCapAdmission :=
  if maxGroups = 0 then (⟨0, 0, 0⟩, adm)
  else
    shedArbLoop maxGroups isMustHot (adm.shedVictims fun consumer => decide (consumer = .arb))
      ⟨0, 0, 0⟩ adm

end FixedCapAdmission

end IronCrab.Track
